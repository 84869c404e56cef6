import Mathlib.Data.Nat.Digits.Lemmas
import RequestRunner.Proofs.Engine.StoredValues

/-!
# Fields in enumeration order

A map is listed in enumeration order if indices come first and ascend and every name stands once
(`Fields.Listed`). Two names never spell the same index (`Fields.index?_injective`), so whatever is
built by setting fields is listed (`Fields.listed_ofEntries`), and setting the fields of a listed
map one after the other gives this map back (`Fields.ofEntries_eq_self`). Names that are no indices
keep the order in which they are set (`Fields.plain_ofEntries`). A store that was filled from a
listed map therefore has itself as its listing, unless the reserved key has a value
(`Store.toMap_keep`).
-/

set_option autoImplicit false

namespace RequestRunner

namespace Fields

/-! ## Indices -/

/-- The number that a digit stands for. -/
def digit (c : Char) : Nat := c.toNat - '0'.toNat

/-- The digits of a number as they are read, from the last one on. -/
def digits (name : String) : List Nat := (name.toList.map digit).reverse

theorem foldl_digits (ds : List Char) :
    ds.foldl (fun n c => n * 10 + (c.toNat - '0'.toNat)) 0 =
      Nat.ofDigits 10 (ds.map digit).reverse := by
  induction ds using List.reverseRecOn with
  | nil => rfl
  | append_singleton ds c ih =>
    rw [List.foldl_append, List.foldl_cons, List.foldl_nil, ih, List.map_append, List.map_singleton,
      List.reverse_append, List.reverse_singleton, List.singleton_append, Nat.ofDigits_cons]
    change _ + digit c = digit c + _
    omega

/-- A name that spells an index consists of digits, has no leading zero, and spells their number. -/
theorem index?_inv {name : String} {n : Nat} (h : index? name = some n) :
    name.toList ≠ [] ∧ (∀ c ∈ name.toList, 48 ≤ c.toNat ∧ c.toNat ≤ 57) ∧
      (name.toList.length = 1 ∨ name.toList.head? ≠ some '0') ∧
      n = Nat.ofDigits 10 (digits name) := by
  unfold index? at h
  split at h
  · cases h
  · next ds hne =>
    split at h
    · next hcanonical =>
      simp only [Bool.and_eq_true, Bool.or_eq_true, List.all_eq_true, decide_eq_true_eq,
        beq_iff_eq, bne_iff_ne] at hcanonical
      obtain ⟨⟨hdigits, hhead⟩, -⟩ := hcanonical
      dsimp only at h
      split at h
      · cases h
        refine ⟨fun hnil => hne hnil, fun c hmem => ?_, hhead, foldl_digits _⟩
        obtain ⟨hlow, hhigh⟩ := hdigits c hmem
        exact ⟨hlow, hhigh⟩
      · cases h
    · cases h

/-- The digits of a name are determined by the index that it spells. -/
theorem digits_of_index? {name : String} {n : Nat} (h : index? name = some n) :
    digits name = if n = 0 then [0] else Nat.digits 10 n := by
  obtain ⟨hne, hdigits, hhead, rfl⟩ := index?_inv h
  unfold digits
  cases hname : name.toList with
  | nil => exact absurd hname hne
  | cons c rest =>
    rw [hname] at hdigits hhead
    have hc := hdigits c List.mem_cons_self
    by_cases hzero : digit c = 0
    · -- a leading zero stands alone
      have hc0 : c = '0' := by
        apply Char.ext
        apply UInt32.toNat_inj.1
        change c.toNat = 48
        have hdigit : c.toNat - 48 = 0 := hzero
        omega
      rcases hhead with hlength | hhead
      · have hrest : rest = [] := by simpa using hlength
        subst hrest
        rw [List.map_singleton, hzero]
        rfl
      · exact absurd (congrArg some hc0) hhead
    · -- otherwise the digits are those of their number, as they end with one that is not zero
      have hall : ∀ d ∈ ((c :: rest).map digit).reverse, d < 10 := by
        intro d hd
        rw [List.mem_reverse, List.mem_map] at hd
        obtain ⟨e, he, rfl⟩ := hd
        have hbounds := hdigits e he
        change e.toNat - 48 < 10
        omega
      have hlast : ∀ hnil : ((c :: rest).map digit).reverse ≠ [],
          ((c :: rest).map digit).reverse.getLast hnil ≠ 0 := by
        intro hnil
        rw [List.getLast_reverse]
        exact hzero
      have hread := Nat.digits_ofDigits 10 (by decide) _ hall hlast
      split
      · next hn =>
        rw [hn, Nat.digits_zero] at hread
        simp at hread
      · exact hread.symm

/-- Digits are read back from what they stand for. -/
theorem map_ofNat_digit {ds : List Char} (h : ∀ c ∈ ds, 48 ≤ c.toNat ∧ c.toNat ≤ 57) :
    (ds.map digit).map (fun d => Char.ofNat (d + 48)) = ds := by
  induction ds with
  | nil => rfl
  | cons c rest ih =>
    have hc := h c List.mem_cons_self
    have hback : digit c + 48 = c.toNat := by
      change c.toNat - 48 + 48 = c.toNat
      omega
    rw [List.map_cons, List.map_cons, hback, Char.ofNat_toNat,
      ih fun other hmem => h other (List.mem_cons_of_mem _ hmem)]

/-- **No two names spell the same index.** -/
theorem index?_injective {name other : String} {n : Nat} (h : index? name = some n)
    (hother : index? other = some n) : name = other := by
  have hsame : digits name = digits other := by
    rw [digits_of_index? h, digits_of_index? hother]
  have hlists : name.toList.map digit = other.toList.map digit := List.reverse_injective hsame
  obtain ⟨-, hdigits, -, -⟩ := index?_inv h
  obtain ⟨-, hothers, -, -⟩ := index?_inv hother
  apply String.toList_inj.1
  rw [← map_ofNat_digit hdigits, hlists, map_ofNat_digit hothers]

/-! ## The order of enumeration -/

/-- The first name is enumerated before the second one: indices come first and ascend. -/
def Precedes (name other : String) : Prop :=
  match index? name, index? other with
  | some i, some j => i < j
  | some _, none => True
  | none, some _ => False
  | none, none => name ≠ other

theorem Precedes.ne {name other : String} (h : Precedes name other) : name ≠ other := by
  rintro rfl
  unfold Precedes at h
  cases hindex : index? name with
  | none =>
    rw [hindex] at h
    exact h rfl
  | some i =>
    rw [hindex] at h
    exact Nat.lt_irrefl i h

/-- Whatever follows a name that an index precedes, the index precedes it too. -/
theorem Precedes.trans_index {name other third : String} {i : Nat} (hname : index? name = some i)
    (h : Precedes name other) (hother : Precedes other third) : Precedes name third := by
  unfold Precedes at *
  rw [hname] at h ⊢
  cases hj : index? other <;> cases hk : index? third <;> simp_all
  omega

/-- The fields stand in enumeration order. -/
def Listed {α : Type} (fields : Fields α) : Prop := (names fields).Pairwise Precedes

section Listing

variable {α : Type}

theorem listed_cons {name : String} {value : α} {fields : Fields α} :
    Listed ((name, value) :: fields) ↔
      (∀ other ∈ names fields, Precedes name other) ∧ Listed fields :=
  List.pairwise_cons

theorem Listed.nodup {fields : Fields α} (h : Listed fields) : (names fields).Nodup :=
  h.imp Precedes.ne

theorem Listed.sublist {fields more : Fields α} (h : Listed more) (hsub : fields.Sublist more) :
    Listed fields :=
  List.Pairwise.sublist (hsub.map Prod.fst) h

theorem listed_placeIndex {index : Nat} {name : String} (value : α) {fields : Fields α}
    (hindex : index? name = some index) (habsent : name ∉ names fields) (h : Listed fields) :
    Listed (placeIndex index name value fields) := by
  induction fields with
  | nil => exact listed_cons.2 ⟨nofun, h⟩
  | cons entry rest ih =>
    obtain ⟨key, old⟩ := entry
    rw [names_cons, List.mem_cons, not_or] at habsent
    obtain ⟨hkeys, hrest⟩ := listed_cons.1 h
    -- in front of the entry, the index precedes it and so all that follows
    have hfront (hbefore : Precedes name key) : Listed ((name, value) :: (key, old) :: rest) := by
      refine listed_cons.2 ⟨?_, h⟩
      intro other hmem
      rcases List.mem_cons.1 hmem with rfl | hmem
      · exact hbefore
      · exact hbefore.trans_index hindex (hkeys other hmem)
    rw [placeIndex]
    split
    · next other hother =>
      split
      · next hlt =>
        -- behind a smaller index it is placed among the others
        refine listed_cons.2 ⟨?_, ih habsent.2 hrest⟩
        intro third hmem
        have hplaced := ((placeIndex_perm index name value rest).map Prod.fst).mem_iff.1 hmem
        rcases List.mem_cons.1 hplaced with rfl | hmem
        · unfold Precedes
          rw [hother, hindex]
          exact hlt
        · exact hkeys third hmem
      · next hlt =>
        apply hfront
        have hne : other ≠ index := by
          rintro rfl
          exact habsent.1 (index?_injective hindex hother)
        unfold Precedes
        rw [hindex, hother]
        change index < other
        omega
    · next hnone =>
      apply hfront
      unfold Precedes
      rw [hindex, hnone]
      trivial

/-- **Setting a field keeps the order.** -/
theorem listed_insert (name : String) (value : α) {fields : Fields α} (h : Listed fields) :
    Listed (insert name value fields) := by
  unfold insert
  split
  · rw [Listed, names_replace]
    exact h
  · next hn =>
    have habsent : name ∉ names fields :=
      get?_eq_none_iff.1 (Option.not_isSome_iff_eq_none.1 hn)
    split
    · next index hindex => exact listed_placeIndex value hindex habsent h
    · next hnone =>
      rw [Listed, names, List.map_append, List.pairwise_append]
      refine ⟨h, List.pairwise_singleton _ _, ?_⟩
      intro other hmem third hthird
      obtain rfl := List.mem_singleton.1 hthird
      unfold Precedes
      rw [hnone]
      generalize index? other = found
      cases found with
      | some i => trivial
      | none =>
        rintro rfl
        exact habsent hmem

/-- **What was built by setting fields is listed.** -/
theorem listed_ofEntries (entries : List (String × α)) : Listed (ofEntries entries) := by
  suffices ∀ fields : Fields α, Listed fields →
      Listed (entries.foldl (fun fields head => insert head.1 head.2 fields) fields) from
    this [] List.Pairwise.nil
  induction entries with
  | nil => exact fun fields h => h
  | cons head rest ih => exact fun fields h => ih _ (listed_insert head.1 head.2 h)

/-- A name that comes behind all others is set at the end. -/
theorem insert_of_precedes {name : String} (value : α) {fields : Fields α}
    (h : ∀ other ∈ names fields, Precedes other name) :
    insert name value fields = fields ++ [(name, value)] := by
  have habsent : ¬ has name fields = true := by
    rw [has_eq_decide, decide_eq_true_iff]
    exact fun hmem => (h name hmem).ne rfl
  rw [insert, if_neg habsent]
  split
  · next index hindex =>
    -- all others are smaller indices, so the place of an index is behind them too
    clear habsent
    induction fields with
    | nil => rfl
    | cons entry rest ih =>
      obtain ⟨key, old⟩ := entry
      have hkey := h key List.mem_cons_self
      have hrest := ih fun other hmem => h other (List.mem_cons_of_mem _ hmem)
      unfold Precedes at hkey
      rw [hindex] at hkey
      rw [placeIndex, hrest]
      split
      · next other hother =>
        rw [hother] at hkey
        rw [if_pos hkey]
        rfl
      · next hnone =>
        rw [hnone] at hkey
        cases hkey
  · rfl

/-- **Setting the fields of a listed map in order gives this map.** -/
theorem ofEntries_eq_self {fields : Fields α} (h : Listed fields) : ofEntries fields = fields := by
  -- from the middle on: what is there comes before what is still to be set
  suffices ∀ done : Fields α, Listed (done ++ fields) →
      fields.foldl (fun done head => insert head.1 head.2 done) done = done ++ fields from
    this [] h
  clear h
  induction fields with
  | nil => exact fun done _ => (List.append_nil done).symm
  | cons head rest ih =>
    obtain ⟨name, value⟩ := head
    intro done hdone
    have hbefore : ∀ other ∈ names done, Precedes other name := by
      intro other hmem
      rw [Listed, names, List.map_append, List.pairwise_append] at hdone
      exact hdone.2.2 other hmem name List.mem_cons_self
    rw [List.foldl_cons, insert_of_precedes value hbefore, ih, List.append_assoc]
    · rfl
    · rw [List.append_assoc]
      exact hdone

/-! ## The order of entries -/

/-- The entries whose names are no indices. -/
def plain (fields : Fields α) : Fields α := fields.filter fun entry => (index? entry.1).isNone

theorem plain_placeIndex {index : Nat} {name : String} (value : α) (fields : Fields α)
    (hindex : index? name = some index) :
    plain (placeIndex index name value fields) = plain fields := by
  have hname : ∀ rest : Fields α, plain ((name, value) :: rest) = plain rest := fun rest =>
    List.filter_cons_of_neg (by simp [hindex])
  induction fields with
  | nil => exact hname []
  | cons entry rest ih =>
    obtain ⟨key, old⟩ := entry
    rw [placeIndex]
    split
    · split
      · rw [plain, plain, List.filter_cons, List.filter_cons]
        exact ite_congr rfl (fun _ => congrArg _ ih) fun _ => ih
      · exact hname _
    · exact hname _

/-- An absent name is set behind all names that are no indices. -/
theorem plain_insert {name : String} (value : α) {fields : Fields α} (h : name ∉ names fields) :
    plain (insert name value fields) = plain fields ++ plain [(name, value)] := by
  rw [insert, has_eq_decide, decide_eq_false h, if_neg Bool.false_ne_true]
  split
  · next index hindex =>
    have hnone : plain [(name, value)] = [] := List.filter_cons_of_neg (by simp [hindex])
    rw [plain_placeIndex value fields hindex, hnone, List.append_nil]
  · exact List.filter_append _ _

/-- **Names that are no indices keep the order in which they are set.** -/
theorem plain_ofEntries {entries : List (String × α)} (h : (names entries).Nodup) :
    plain (ofEntries entries) = plain entries := by
  -- from the middle on: no name that is still to be set is among those that are there
  suffices ∀ done : Fields α, (names done ++ names entries).Nodup →
      plain (entries.foldl (fun done head => insert head.1 head.2 done) done) =
        plain done ++ plain entries from
    this [] h
  clear h
  induction entries with
  | nil => exact fun done _ => (List.append_nil _).symm
  | cons head rest ih =>
    obtain ⟨name, value⟩ := head
    intro done hdone
    have hmoved : (names done ++ names ((name, value) :: rest)).Perm
        (name :: names done ++ names rest) := List.perm_middle
    have habsent : name ∉ names done := by
      have hnodup := List.nodup_cons.1 (hmoved.nodup_iff.1 hdone)
      exact fun hmem => hnodup.1 (List.mem_append_left _ hmem)
    have hinserted : (names (insert name value done)).Perm (name :: names done) :=
      (insert_perm value ((has_eq_decide name done).trans (decide_eq_false habsent))).map Prod.fst
    rw [List.foldl_cons, ih, plain_insert value habsent, List.append_assoc]
    · rw [plain, plain, plain, plain, ← List.filter_append, List.singleton_append]
    · exact ((hinserted.append_right _).trans hmoved.symm).nodup_iff.2 hdone

/-- Entries with different names are rearranged. -/
theorem ofEntries_perm {entries : List (String × α)} (h : (names entries).Nodup) :
    (ofEntries entries).Perm entries := by
  have hlisted := nodup_names_ofEntries entries
  rw [List.perm_ext_iff_of_nodup hlisted.of_map h.of_map]
  rintro ⟨name, value⟩
  rw [mem_iff_get?_eq hlisted, mem_iff_get?_eq h, get?_ofEntries h]

end Listing

/-! ## Other values -/

section Values

variable {α β : Type} (f : α → β)

/-- The fields with another value for each. -/
def mapValues (fields : Fields α) : Fields β := fields.map fun entry => (entry.1, f entry.2)

theorem has_mapValues (name : String) (fields : Fields α) :
    has name (mapValues f fields) = has name fields := by
  have hnames : names (mapValues f fields) = names fields := by simp [names, mapValues]
  rw [has_eq_decide, has_eq_decide, hnames]

theorem replace_mapValues (name : String) (value : α) (fields : Fields α) :
    replace name (f value) (mapValues f fields) = mapValues f (replace name value fields) := by
  induction fields with
  | nil => rfl
  | cons entry rest ih =>
    obtain ⟨key, old⟩ := entry
    change replace name (f value) ((key, f old) :: mapValues f rest) = _
    rw [replace, replace, ih]
    split <;> rfl

theorem placeIndex_mapValues (index : Nat) (name : String) (value : α) (fields : Fields α) :
    placeIndex index name (f value) (mapValues f fields) =
      mapValues f (placeIndex index name value fields) := by
  induction fields with
  | nil => rfl
  | cons entry rest ih =>
    obtain ⟨key, old⟩ := entry
    change placeIndex index name (f value) ((key, f old) :: mapValues f rest) = _
    rw [placeIndex, placeIndex, ih]
    split
    · split <;> rfl
    · rfl

/-- Setting a name does not look at values. -/
theorem insert_mapValues (name : String) (value : α) (fields : Fields α) :
    insert name (f value) (mapValues f fields) = mapValues f (insert name value fields) := by
  rw [insert, insert, has_mapValues, replace_mapValues]
  split
  · rfl
  · split
    · exact placeIndex_mapValues f _ name value fields
    · simp [mapValues]

theorem ofEntries_mapValues (entries : List (String × α)) :
    ofEntries (mapValues f entries) = mapValues f (ofEntries entries) := by
  suffices ∀ fields : Fields α,
      (mapValues f entries).foldl (fun fields head => insert head.1 head.2 fields)
          (mapValues f fields) =
        mapValues f (entries.foldl (fun fields head => insert head.1 head.2 fields) fields) from
    this []
  induction entries with
  | nil => exact fun fields => rfl
  | cons head rest ih =>
    intro fields
    rw [List.foldl_cons, ← ih, ← insert_mapValues]
    rfl

end Values

end Fields

/-! ## Stores that are filled from listings -/

namespace Store

/-- A listing is in enumeration order. -/
theorem listed_toMap (store : Store) : Fields.Listed store.toMap := Fields.listed_ofEntries _

/-- No listing has a value for the reserved key. -/
theorem get?_toMap_reservedKey (store : Store) : Fields.get? reservedKey store.toMap = none := by
  rw [Fields.get?_eq_none_iff]
  intro hmem
  obtain ⟨⟨name, value⟩, hentry, hname⟩ := List.mem_map.1 hmem
  have hkept := (List.mem_filter.1 (Fields.mem_ofEntries hentry)).2
  exact bne_iff_ne.1 hkept hname

/-- Filling a store twice is filling it once. -/
theorem keep_keep (initial : VariableMap) : keep (keep initial) = keep initial := by
  have hcopies : Json.copyFields (keep initial) = keep initial :=
    Json.copyFields_eq_self fun entry hmem =>
      Json.copy_of_mem_copyFields (List.mem_filter.1 hmem).1
  rw [keep, hcopies, keep, List.filter_filter]
  simp only [Bool.and_self]

/-- **A store that was filled from a listed map has itself as its listing**, if the reserved key has
no value. -/
theorem toMap_keep {initial : VariableMap} (h : Fields.Listed initial)
    (hreserved : held initial reservedKey = none) (readOnly : Bool) :
    toMap ⟨keep initial, readOnly⟩ = keep initial := by
  have hrepresents := represents_keep h.nodup
  have hlisted : Fields.Listed (keep initial) := by
    apply Fields.Listed.sublist _ List.filter_sublist
    rw [Fields.Listed, Json.names_copyFields]
    exact h
  have hkept : (keep initial).filter (fun entry => entry.1 != reservedKey) = keep initial := by
    rw [List.filter_eq_self]
    rintro ⟨name, value⟩ hmem
    rw [bne_iff_ne]
    rintro rfl
    have hvalue := (Fields.mem_iff_get?_eq hrepresents.nodup).1 hmem
    rw [hrepresents.get?_eq, hreserved] at hvalue
    cases hvalue
  rw [toMap]
  exact (congrArg Fields.ofEntries hkept).trans (Fields.ofEntries_eq_self hlisted)

end Store

end RequestRunner
