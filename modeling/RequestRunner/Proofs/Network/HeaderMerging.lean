import Mathlib.Data.List.Induction
import Mathlib.Data.List.Nodup
import RequestRunner.Network.Client
import RequestRunner.Proofs.Engine.StoredValues

/-!
# Merged headers

The headers of a request are collected one by one, and a name that is there in any spelling takes
the value where it stands. `Network.Merges` says what the collected headers are to a list: no two
names are the same but for case, every name of the list is there, and a name is spelled as at its
first place in the list and carries all values that the list has for it, joined by commas.

Adding a header keeps this (`Network.Merges.mergeHeader`), so it holds of all headers of a request
that is prepared for sending (`Network.prepare_merges_headers`).
-/

set_option autoImplicit false

namespace RequestRunner

theorem Text.sameIgnoringCase_iff {a b : String} :
    sameIgnoringCase a b = true ↔ lower a = lower b := beq_iff_eq

namespace Network

/-- The headers of a name, in any spelling. -/
def ofName (name : String) (fields : List HeaderField) : List HeaderField :=
  fields.filter fun field => Text.sameIgnoringCase field.1 name

/-- The values of the headers of a name, joined. -/
def joinedValues (name : String) (fields : List HeaderField) : String :=
  String.intercalate ", " ((ofName name fields).map Prod.snd)

/-- The collected headers are those of a list with one entry a name. -/
structure Merges (fields : List HeaderField) (sent : Fields String) : Prop where
  distinct : ((Fields.names sent).map Text.lower).Nodup
  complete : ∀ field ∈ fields, ∃ key ∈ Fields.names sent, Text.lower key = Text.lower field.1
  spelled : ∀ {key value}, (key, value) ∈ sent →
    (ofName key fields).head?.map Prod.fst = some key
  joined : ∀ {key value}, (key, value) ∈ sent → value = joinedValues key fields

theorem mem_ofName_iff {name : String} {fields : List HeaderField} {field : HeaderField} :
    field ∈ ofName name fields ↔ field ∈ fields ∧ Text.lower field.1 = Text.lower name := by
  rw [ofName, List.mem_filter, Text.sameIgnoringCase_iff]

theorem ofName_concat_same {name : String} (fields : List HeaderField) {field : HeaderField}
    (h : Text.lower field.1 = Text.lower name) :
    ofName name (fields ++ [field]) = ofName name fields ++ [field] := by
  have hkept : ofName name [field] = [field] :=
    List.filter_cons_of_pos (Text.sameIgnoringCase_iff.2 h)
  exact (List.filter_append _ _).trans (congrArg _ hkept)

theorem ofName_concat_other {name : String} (fields : List HeaderField) {field : HeaderField}
    (h : Text.lower field.1 ≠ Text.lower name) :
    ofName name (fields ++ [field]) = ofName name fields := by
  have hleft : ofName name [field] = [] :=
    List.filter_cons_of_neg fun hsame => h (Text.sameIgnoringCase_iff.1 hsame)
  exact (List.filter_append _ _).trans ((congrArg _ hleft).trans (List.append_nil _))

namespace Merges

variable {fields : List HeaderField} {sent : Fields String} {field : HeaderField}

theorem nodup (h : Merges fields sent) : (Fields.names sent).Nodup := h.distinct.of_map

/-- The list has a header for every name that is collected. -/
theorem ofName_ne_nil (h : Merges fields sent) {key value : String} (hmem : (key, value) ∈ sent) :
    ofName key fields ≠ [] := by
  intro hnil
  have hspelled := h.spelled hmem
  rw [hnil] at hspelled
  cases hspelled

/-- A header of a new name is put beside the others. -/
theorem insert_new (h : Merges fields sent)
    (hnew : ∀ key ∈ Fields.names sent, Text.lower key ≠ Text.lower field.1) :
    Merges (fields ++ [field]) (Fields.insert field.1 field.2 sent) := by
  have habsent : Fields.has field.1 sent = false := by
    rw [Fields.has_eq_decide, decide_eq_false_iff_not]
    exact fun hmem => hnew field.1 hmem rfl
  have hnames : (Fields.names (Fields.insert field.1 field.2 sent)).Perm
      (field.1 :: Fields.names sent) := (Fields.insert_perm field.2 habsent).map Prod.fst
  -- the list had no header of that name, and those of the other names are as before
  have hself : ofName field.1 (fields ++ [field]) = [field] := by
    have hnone : ofName field.1 fields = [] := by
      apply List.eq_nil_iff_forall_not_mem.2
      intro other hother
      obtain ⟨hmem, hsame⟩ := mem_ofName_iff.1 hother
      obtain ⟨key, hkey, hlower⟩ := h.complete other hmem
      exact hnew key hkey (hlower.trans hsame)
    rw [ofName_concat_same fields rfl, hnone, List.nil_append]
  have hother : ∀ {key value}, (key, value) ∈ sent →
      ofName key (fields ++ [field]) = ofName key fields := fun hmem =>
    ofName_concat_other fields (hnew _ (List.mem_map_of_mem hmem)).symm
  constructor
  · rw [(hnames.map Text.lower).nodup_iff, List.map_cons, List.nodup_cons]
    refine ⟨?_, h.distinct⟩
    intro hmem
    obtain ⟨key, hkey, hlower⟩ := List.mem_map.1 hmem
    exact hnew key hkey hlower
  · intro other hmem
    rcases List.mem_append.1 hmem with hmem | hmem
    · obtain ⟨key, hkey, hlower⟩ := h.complete other hmem
      exact ⟨key, hnames.mem_iff.2 (List.mem_cons_of_mem _ hkey), hlower⟩
    · obtain rfl := List.mem_singleton.1 hmem
      exact ⟨other.1, hnames.mem_iff.2 List.mem_cons_self, rfl⟩
  · intro key value hmem
    rcases Fields.mem_insert hmem with heq | hmem
    · cases heq
      rw [hself]
      rfl
    · rw [hother hmem]
      exact h.spelled hmem
  · intro key value hmem
    rcases Fields.mem_insert hmem with heq | hmem
    · cases heq
      rw [joinedValues, hself]
      rfl
    · rw [joinedValues, hother hmem]
      exact h.joined hmem

/-- A header of a name that is there in some spelling is appended to its value. -/
theorem insert_found (h : Merges fields sent) {key value : String} (hfound : (key, value) ∈ sent)
    (hsame : Text.lower key = Text.lower field.1) :
    Merges (fields ++ [field]) (Fields.insert key (value ++ ", " ++ field.2) sent) := by
  have hkey : key ∈ Fields.names sent := List.mem_map_of_mem hfound
  have hnames : Fields.names (Fields.insert key (value ++ ", " ++ field.2) sent) =
      Fields.names sent := by
    rw [Fields.insert, Fields.has_eq_decide, decide_eq_true hkey, if_pos rfl, Fields.names_replace]
  have hself : ofName key (fields ++ [field]) = ofName key fields ++ [field] :=
    ofName_concat_same fields hsame.symm
  -- an entry behind the change is the changed one, or one of another name
  have hentry : ∀ {other text}, (other, text) ∈ Fields.insert key (value ++ ", " ++ field.2) sent →
      (other = key ∧ text = value ++ ", " ++ field.2) ∨
        (other, text) ∈ sent ∧ ofName other (fields ++ [field]) = ofName other fields := by
    intro other text hmem
    have hnodup : (Fields.names (Fields.insert key (value ++ ", " ++ field.2) sent)).Nodup :=
      hnames ▸ h.nodup
    rw [Fields.mem_iff_get?_eq hnodup] at hmem
    by_cases hother : other = key
    · subst hother
      rw [Fields.get?_insert_self, Option.some_inj] at hmem
      exact Or.inl ⟨rfl, hmem.symm⟩
    · rw [Fields.get?_insert_of_ne _ _ hother, ← Fields.mem_iff_get?_eq h.nodup] at hmem
      refine Or.inr ⟨hmem, ofName_concat_other fields ?_⟩
      rw [← hsame]
      intro hclash
      exact hother
        (List.inj_on_of_nodup_map h.distinct (List.mem_map_of_mem hmem) hkey hclash.symm)
  constructor
  · rw [hnames]
    exact h.distinct
  · intro other hmem
    rw [hnames]
    rcases List.mem_append.1 hmem with hmem | hmem
    · exact h.complete other hmem
    · obtain rfl := List.mem_singleton.1 hmem
      exact ⟨key, hkey, hsame⟩
  · intro other text hmem
    rcases hentry hmem with ⟨rfl, -⟩ | ⟨hmem, hkept⟩
    · rw [hself, List.head?_append_of_ne_nil _ (h.ofName_ne_nil hfound)]
      exact h.spelled hfound
    · rw [hkept]
      exact h.spelled hmem
  · intro other text hmem
    rcases hentry hmem with ⟨rfl, rfl⟩ | ⟨hmem, hkept⟩
    · have hfilled : (ofName other fields).map Prod.snd ≠ [] := by
        simpa using h.ofName_ne_nil hfound
      rw [joinedValues, hself, List.map_append, List.map_singleton,
        String.intercalate_append_of_ne_nil hfilled (List.cons_ne_nil _ _),
        String.intercalate_singleton, ← joinedValues, ← h.joined hfound]
    · rw [joinedValues, hkept]
      exact h.joined hmem

/-- **Adding a header** keeps the collected headers those of the list. -/
theorem mergeHeader (h : Merges fields sent) (hfield : field.1 ≠ reservedKey) :
    Merges (fields ++ [field]) (mergeHeader sent field) := by
  rw [Network.mergeHeader]
  split
  · next hnone =>
    rw [if_neg hfield]
    apply h.insert_new
    intro key hkey hlower
    obtain ⟨entry, hentry, rfl⟩ := List.mem_map.1 hkey
    exact List.find?_eq_none.1 hnone entry hentry (Text.sameIgnoringCase_iff.2 hlower)
  · next key value hfound =>
    have hsame := List.find?_some hfound
    exact h.insert_found (List.mem_of_find?_eq_some hfound) (Text.sameIgnoringCase_iff.1 hsame)

end Merges

/-- **All headers of a list are merged.** -/
theorem merges_mergeHeaders {fields : List HeaderField}
    (h : ∀ field ∈ fields, field.1 ≠ reservedKey) : Merges fields (mergeHeaders fields) := by
  -- the header at the end is the one that is added last
  induction fields using List.reverseRecOn with
  | nil => exact ⟨List.nodup_nil, nofun, nofun, nofun⟩
  | append_singleton fields field ih =>
    rw [List.forall_mem_append, List.forall_mem_singleton] at h
    rw [mergeHeaders, List.foldl_append]
    exact (ih h.1).mergeHeader h.2

/-- **The headers of a prepared request** have names that differ in more than case, one for every
name of the request and no other. Each is spelled as where it stands first in the request, and has
the values of all headers of that name in their order, joined by commas. -/
theorem prepare_merges_headers (settings : Settings) (request : Request) (url : String)
    (h : ∀ field ∈ request.headers, field.1 ≠ reservedKey) :
    ((Fields.names (prepare settings request url).headers).Pairwise fun key other =>
        Text.sameIgnoringCase key other = false) ∧
      (∀ name,
        (∃ key ∈ Fields.names (prepare settings request url).headers,
            Text.sameIgnoringCase key name = true) ↔
          ∃ field ∈ request.headers, Text.sameIgnoringCase field.1 name = true) ∧
      ∀ key value, (key, value) ∈ (prepare settings request url).headers →
        (ofName key request.headers).head?.map Prod.fst = some key ∧
          value = String.intercalate ", " ((ofName key request.headers).map Prod.snd) := by
  have hmerges : Merges request.headers (prepare settings request url).headers :=
    merges_mergeHeaders h
  refine ⟨?_, ?_, fun key value hmem => ⟨hmerges.spelled hmem, hmerges.joined hmem⟩⟩
  · apply (List.pairwise_map.1 hmerges.distinct).imp
    intro key other hdiffers
    exact beq_eq_false_iff_ne.2 hdiffers
  · intro name
    simp only [Text.sameIgnoringCase_iff]
    constructor
    · rintro ⟨key, hkey, hsame⟩
      obtain ⟨⟨_, value⟩, hentry, rfl⟩ := List.mem_map.1 hkey
      obtain ⟨field, hfield⟩ := List.exists_mem_of_ne_nil _ (hmerges.ofName_ne_nil hentry)
      obtain ⟨hmem, hlower⟩ := mem_ofName_iff.1 hfield
      exact ⟨field, hmem, hlower.trans hsame⟩
    · rintro ⟨field, hfield, hsame⟩
      obtain ⟨key, hkey, hlower⟩ := hmerges.complete field hfield
      exact ⟨key, hkey, hlower.trans hsame⟩

/-- A request with headers of one name in three spellings, and of a name that is an index. -/
def spellings : Request :=
  ⟨.get, "host", [("Accept", "a"), ("1", "x"), ("ACCEPT", ""), ("accept", "c")], none⟩

/-- The three spellings become one header. -/
theorem prepare_merges_headers_spellings :
    (∀ field ∈ spellings.headers, field.1 ≠ reservedKey) ∧
      ("Accept", "a, , c") ∈
        (prepare ⟨defaultTimeout, false⟩ spellings "http://host").headers ∧
      (ofName "Accept" spellings.headers).head?.map Prod.fst = some "Accept" ∧
      "a, , c" = String.intercalate ", " ((ofName "Accept" spellings.headers).map Prod.snd) := by
  have hnames : ∀ field ∈ spellings.headers, field.1 ≠ reservedKey := by decide
  have hmem : ("Accept", "a, , c") ∈
      (prepare ⟨defaultTimeout, false⟩ spellings "http://host").headers := by decide +kernel
  exact ⟨hnames, hmem,
    (prepare_merges_headers ⟨defaultTimeout, false⟩ spellings "http://host" hnames).2.2 _ _ hmem⟩

end Network

end RequestRunner
