import RequestRunner.Proofs.Environment.Saving

/-!
# What saving brings about

Saving a snapshot makes directories along one path and writes one file. Something lies at a place if
something was put there or further inside (`lookup_ne_none_iff`), so where nothing lay before, nothing
lies afterwards, except at those directories and at the file (`lookup_save_none`); so a path that
never goes up leads nowhere afterwards if it led nowhere before and no directory is made right at its
end (`isThere_of_save`). Saving the same map a second time changes nothing (`save_again`).
-/

set_option autoImplicit false

namespace RequestRunner

namespace Files

/-! ## Along a path -/

/-- The places along a path, down to the one it leads to. -/
def way (path : String) : List Place := through path ++ [target path]

theorem eq_singleton_of_isPrefix {name : String} {q : Place} (h : q <+: [name]) (hq : q ≠ []) :
    q = [name] := by
  rcases List.prefix_cons_iff.1 h with rfl | ⟨rest, rfl, hrest⟩
  · exact absurd rfl hq
  · rw [List.prefix_nil.1 hrest]

/-- A path reaches a place through the directories above it. -/
theorem mem_route_of_isPrefix (passed : Place → Prop) {names : List String} {start p q : Place}
    (hpassed : ∀ r, r ≠ [] → r <+: start → r ≠ start → passed r)
    (hp : p ∈ (route start names).1 ++ [(route start names).2]) (hq : q ≠ []) (hqp : q <+: p)
    (hne : q ≠ p) : passed q ∨ q ∈ (route start names).1 := by
  induction names generalizing start passed with
  | nil =>
    obtain rfl := List.mem_singleton.1 hp
    exact Or.inl (hpassed q hq hqp hne)
  | cons name rest ih =>
    rw [route] at hp ⊢
    dsimp only at hp ⊢
    rw [List.cons_append] at hp
    rcases List.mem_cons.1 hp with rfl | hp
    · exact Or.inl (hpassed q hq hqp hne)
    -- One step further everything above the new place has been passed, the old place included.
    · have hstep : ∀ r, r ≠ [] → r <+: step start name → r ≠ step start name →
          passed r ∨ r = start := by
        intro r hr hbegins hproper
        unfold step at hbegins hproper
        split at hbegins
        · next hstays =>
          rw [if_pos hstays] at hproper
          exact Or.inl (hpassed r hr hbegins hproper)
        · next hmoves =>
          rw [if_neg hmoves] at hproper
          split at hbegins
          · next hup =>
            rw [if_pos hup] at hproper
            split at hbegins
            · next htop =>
              rw [if_pos htop] at hproper
              exact absurd (eq_singleton_of_isPrefix hbegins hr) hproper
            · refine Or.inl (hpassed r hr (hbegins.trans (List.dropLast_prefix start)) ?_)
              rintro rfl
              have hlength := hbegins.length_le
              have hpos := List.length_pos_iff.2 hr
              rw [List.length_dropLast] at hlength
              omega
          · next hdown =>
            rw [if_neg hdown] at hproper
            rcases List.prefix_concat_iff.1 hbegins with heq | hinside
            · exact absurd heq hproper
            · by_cases hstart : r = start
              · exact Or.inr hstart
              · exact Or.inl (hpassed r hr hinside hstart)
      rcases ih (fun r => passed r ∨ r = start) hstep hp with (hold | rfl) | hnew
      · exact Or.inl hold
      · exact Or.inr List.mem_cons_self
      · exact Or.inr (List.mem_cons_of_mem _ hnew)

/-- What lies above a place on a path lies on the path as well. -/
theorem mem_through_of_isPrefix {path : String} {p q : Place} (hp : p ∈ way path) (hq : q ≠ [])
    (hqp : q <+: p) (hne : q ≠ p) : q ∈ through path := by
  refine (mem_route_of_isPrefix (fun _ => False) ?_ hp hq hqp hne).resolve_left id
  intro r hr hbegins hproper
  unfold origin at hbegins hproper
  split at hbegins
  · next habsolute =>
    rw [if_pos habsolute] at hproper
    exact hproper (eq_singleton_of_isPrefix hbegins hr)
  · exact hr (List.prefix_nil.1 hbegins)

/-- A path that never goes up leads through what lies above its end. -/
theorem isPrefix_route_of_mem {names : List String} (hdown : ".." ∉ names) (start : Place) :
    start <+: (route start names).2 ∧
      ∀ q ∈ (route start names).1, q <+: (route start names).2 := by
  induction names generalizing start with
  | nil => exact ⟨List.prefix_refl start, nofun⟩
  | cons name rest ih =>
    rw [List.mem_cons, not_or] at hdown
    have hstep : start <+: step start name := by
      unfold step
      rw [if_neg (Ne.symm hdown.1)]
      split
      · exact List.prefix_refl start
      · exact List.prefix_append start [name]
    obtain ⟨hstart, hthrough⟩ := ih hdown.2 (step start name)
    rw [route]
    refine ⟨hstep.trans hstart, fun q hq => ?_⟩
    rcases List.mem_cons.1 hq with rfl | hq
    · exact hstep.trans hstart
    · exact hthrough q hq

theorem isPrefix_target_of_mem_through {path : String} (hdown : ".." ∉ names path) {q : Place}
    (hq : q ∈ through path) : q <+: target path :=
  (isPrefix_route_of_mem hdown (origin path)).2 q hq

/-! ## Where nothing lies -/

theorem mem_of_node? {place : Place} {node : FileNode} {nodes : List (Place × FileNode)}
    (h : node? place nodes = some node) : (place, node) ∈ nodes := by
  induction nodes with
  | nil => cases h
  | cons entry rest ih =>
    obtain ⟨key, old⟩ := entry
    rw [node?] at h
    split at h
    · next hkey =>
      cases h
      exact hkey ▸ List.mem_cons_self
    · exact List.mem_cons_of_mem _ (ih h)

theorem node?_ne_none_of_mem {entry : Place × FileNode} {nodes : List (Place × FileNode)}
    (h : entry ∈ nodes) : node? entry.1 nodes ≠ none := by
  induction nodes with
  | nil => cases h
  | cons first rest ih =>
    obtain ⟨key, old⟩ := first
    rw [node?]
    split
    · exact Option.some_ne_none _
    · next hkey =>
      rcases List.mem_cons.1 h with rfl | h
      · exact absurd rfl hkey
      · exact ih h

theorem any_isInside_iff {files : Files} {place : Place} :
    files.nodes.any (fun entry => isInside place entry.1) = true ↔
      ∃ entry ∈ files.nodes, place <+: entry.1 ∧ place ≠ entry.1 := by
  simp only [List.any_eq_true, isInside, Bool.and_eq_true, List.isPrefixOf_iff_prefix, bne_iff_ne]

/-- **Something lies at a place** if it is the top, or if something was put there or further
inside. -/
theorem lookup_ne_none_iff {files : Files} {place : Place} :
    files.lookup place ≠ none ↔ place = [] ∨ ∃ entry ∈ files.nodes, place <+: entry.1 := by
  have hlookup : files.lookup place = if place = [] then some .directory
      else (node? place files.nodes).or
        (if files.nodes.any (fun entry => isInside place entry.1) then some .directory
          else none) := by
    unfold lookup
    cases node? place files.nodes <;> rfl
  rw [hlookup]
  by_cases htop : place = []
  · simp [htop]
  rw [if_neg htop, or_iff_right htop]
  constructor
  · intro h
    cases hnode : node? place files.nodes with
    | some node => exact ⟨_, mem_of_node? hnode, List.prefix_refl place⟩
    | none =>
      by_cases hany : files.nodes.any (fun entry => isInside place entry.1) = true
      · obtain ⟨entry, hmem, hbegins, -⟩ := any_isInside_iff.1 hany
        exact ⟨entry, hmem, hbegins⟩
      · rw [hnode, if_neg hany] at h
        exact absurd rfl h
  · rintro ⟨entry, hmem, hbegins⟩ hnone
    obtain ⟨hnode, hinside⟩ := Option.or_eq_none_iff.1 hnone
    by_cases heq : place = entry.1
    · exact node?_ne_none_of_mem hmem (heq ▸ hnode)
    · rw [if_pos (any_isInside_iff.2 ⟨entry, hmem, hbegins, heq⟩)] at hinside
      cases hinside

/-- Something lies above every place where something lies. -/
theorem lookup_ne_none_of_isPrefix {files : Files} {place above : Place}
    (h : files.lookup place ≠ none) (habove : above <+: place) : files.lookup above ≠ none := by
  rcases lookup_ne_none_iff.1 h with rfl | ⟨entry, hmem, hbegins⟩
  · exact lookup_ne_none_iff.2 (Or.inl (List.prefix_nil.1 habove))
  · exact lookup_ne_none_iff.2 (Or.inr ⟨entry, hmem, habove.trans hbegins⟩)

/-- Nothing but what is put appears. -/
theorem mem_of_mem_putNode {place : Place} {node : FileNode} {nodes : List (Place × FileNode)}
    {entry : Place × FileNode} (h : entry ∈ putNode place node nodes) :
    entry = (place, node) ∨ entry ∈ nodes := by
  induction nodes with
  | nil => exact Or.inl (List.mem_singleton.1 h)
  | cons first rest ih =>
    obtain ⟨key, old⟩ := first
    rw [putNode] at h
    split at h
    · exact (List.mem_cons.1 h).imp_right (List.mem_cons_of_mem _)
    · rcases List.mem_cons.1 h with rfl | h
      · exact Or.inr List.mem_cons_self
      · exact (ih h).imp_right (List.mem_cons_of_mem _)

/-- Putting something leaves a place empty unless it is put there or further inside. -/
theorem lookup_putNode_none {files : Files} {place other : Place} {node : FileNode}
    (h : files.lookup other = none) (hinside : ¬ other <+: place) :
    lookup ⟨putNode place node files.nodes⟩ other = none := by
  by_contra hthere
  refine absurd h (lookup_ne_none_iff.2 ?_)
  refine (lookup_ne_none_iff.1 hthere).imp_right ?_
  rintro ⟨entry, hmem, hbegins⟩
  rcases mem_of_mem_putNode hmem with rfl | hmem
  · exact absurd hbegins hinside
  · exact ⟨entry, hmem, hbegins⟩

theorem lookup_makeAll_none {path : String} {places : List Place} {files changed : Files}
    {other : Place} (hmade : makeAll path places files = .ok changed)
    (h : files.lookup other = none) (hinside : ∀ place ∈ places, ¬ other <+: place) :
    changed.lookup other = none := by
  induction places generalizing files with
  | nil =>
    cases hmade
    exact h
  | cons place rest ih =>
    have hrest := fun p hp => hinside p (List.mem_cons_of_mem _ hp)
    unfold makeAll at hmade
    split at hmade
    · exact ih hmade h hrest
    · cases hmade
    · split at hmade
      · cases hmade
      · exact ih hmade (lookup_putNode_none h (hinside place List.mem_cons_self)) hrest

/-- A place that is not on the path stays empty when directories are made along the path. -/
theorem lookup_makeDirectories_none {path : String} {files changed : Files} {other : Place}
    (hmade : files.makeDirectories path = .ok changed) (h : files.lookup other = none)
    (hway : other ∉ way path) : changed.lookup other = none := by
  refine lookup_makeAll_none hmade h fun place hplace hbegins => hway ?_
  by_cases heq : other = place
  · exact heq ▸ hplace
  · refine List.mem_append_left _ (mem_through_of_isPrefix hplace ?_ hbegins heq)
    rintro rfl
    cases h

/-- A file is written where its path leads, if that is no directory. -/
theorem write_eq_ok_iff {files changed : Files} {path text : String} :
    files.write path text = .ok changed ↔
      (∀ q ∈ through path, files.lookup q = some .directory) ∧
        files.isDirectory (target path) = false ∧
        changed = ⟨putNode (target path) (.file text) files.nodes⟩ := by
  unfold write
  cases hfollow : files.follow .access path with
  | error e =>
    refine iff_of_false nofun fun h => ?_
    rw [follow_eq_ok_iff.2 ⟨h.1, rfl⟩] at hfollow
    cases hfollow
  | ok place =>
    obtain ⟨hthrough, rfl⟩ := follow_eq_ok_iff.1 hfollow
    rw [and_iff_right hthrough]
    dsimp only
    cases files.isDirectory (target path) with
    | true => simp
    | false => simp [eq_comm]

/-- What is put a second time is there already. -/
theorem putNode_putNode (place : Place) (node : FileNode) (nodes : List (Place × FileNode)) :
    putNode place node (putNode place node nodes) = putNode place node nodes := by
  induction nodes with
  | nil => simp [putNode]
  | cons entry rest ih =>
    obtain ⟨key, old⟩ := entry
    by_cases hkey : key = place <;> simp [putNode, hkey, ih]

end Files

namespace EnvironmentFiles

open Files

variable {files : EnvironmentFiles} {kept : VariableMap} {tree saved : Files}

/-- Where nothing lay before, nothing lies after saving, except at the directories that were made
and at the snapshot. -/
theorem lookup_save_none (h : (files.save Files.disk quiet kept).run.run tree = (.ok (), saved))
    {q : Place} (hnone : tree.lookup q = none) (hway : q ∉ way (directoryOf files.snapshotPath))
    (hne : q ≠ target files.snapshotPath) : saved.lookup q = none := by
  obtain ⟨prepared, hwritten, -, hprepared⟩ := save_inv h
  have hstill : prepared.lookup q = none := by
    rcases hprepared with rfl | hmade
    · exact hnone
    · exact lookup_makeDirectories_none hmade hnone hway
  obtain ⟨hthrough, -, rfl⟩ := write_eq_ok_iff.1 hwritten
  refine lookup_putNode_none hstill fun hbegins => ?_
  -- The snapshot is written through directories, and nothing lies at the place.
  have hmem : q ∈ through files.snapshotPath := by
    refine mem_through_of_isPrefix (List.mem_append_right _ List.mem_cons_self) ?_ hbegins hne
    rintro rfl
    cases hnone
  rw [hthrough q hmem] at hstill
  cases hstill

/-- **A path leads nowhere after saving if it led nowhere before**, unless a directory is made at its
end. Directories may well be made on its way; it must only not go up behind one of them. -/
theorem isThere_of_save (h : (files.save Files.disk quiet kept).run.run tree = (.ok (), saved))
    {path : String} (hdown : ".." ∉ names path) (hplace : target path ≠ target files.snapshotPath)
    (hend : target path ∈ way (directoryOf files.snapshotPath) → tree.lookup (target path) ≠ none)
    (hthere : saved.isThere path = true) : tree.isThere path = true := by
  obtain ⟨hthrough, htarget⟩ := isThere_iff.1 hthere
  obtain ⟨-, hsnapshot⟩ := read_eq_ok_iff.1 (read_save_self h)
  have hold : tree.lookup (target path) ≠ none := fun hnone =>
    htarget (lookup_save_none h hnone (fun hmade => hend hmade hnone) hplace)
  refine isThere_iff.2 ⟨fun q hq => ?_, hold⟩
  -- what the path leads through lies above its end, so it was there, and it is a directory still
  have hdirectory := hthrough q hq
  have hne : q ≠ target files.snapshotPath := by
    rintro rfl
    rw [hsnapshot] at hdirectory
    cases hdirectory
  obtain ⟨node, hnode⟩ := Option.ne_none_iff_exists'.1
    (lookup_ne_none_of_isPrefix hold (isPrefix_target_of_mem_through hdown hq))
  rw [hnode, ← hdirectory]
  exact (lookup_save h (Or.inl hne) hnode).symm

/-- **Saving the same map again changes nothing.** -/
theorem save_again (h : (files.save Files.disk quiet kept).run.run tree = (.ok (), saved)) :
    (files.save Files.disk quiet kept).run.run saved = (.ok (), saved) := by
  obtain ⟨prepared, hwritten, hthere, -⟩ := save_inv h
  obtain ⟨hthrough, htarget⟩ := isThere_iff.1 hthere
  obtain ⟨hpath, -, hsaved⟩ := write_eq_ok_iff.1 hwritten
  obtain ⟨-, hsnapshot⟩ := read_eq_ok_iff.1 (read_save_self h)
  have hdirectory : saved.isThere (directoryOf files.snapshotPath) = true := by
    refine isThere_iff.2 ⟨fun q hq => lookup_write hwritten (Or.inr rfl) (hthrough q hq), ?_⟩
    by_cases heq : target (directoryOf files.snapshotPath) = target files.snapshotPath
    · rw [heq, hsnapshot]
      exact nofun
    · obtain ⟨node, hnode⟩ := Option.ne_none_iff_exists'.1 htarget
      rw [lookup_write hwritten (Or.inl heq) hnode]
      exact nofun
  have hagain : saved.write files.snapshotPath (snapshotText kept) = .ok saved := by
    refine write_eq_ok_iff.2 ⟨fun q hq => lookup_write hwritten (Or.inr rfl) (hpath q hq), ?_, ?_⟩
    · rw [isDirectory, hsnapshot]
      rfl
    · rw [hsaved, putNode_putNode]
  have hpresent : (liftM (Files.disk.isPresent (directoryOf files.snapshotPath)) :
      Attempt (StateM Files) Bool).run.run saved = (.ok true, saved) := by
    rw [Run.run_lift, isPresent_run, hdirectory]
  have hwrite : (demand (Files.disk.write files.snapshotPath (snapshotText kept))).run.run saved =
      (.ok (), saved) := by
    refine (Run.run_bind_ok (Run.run_lift _ saved)).trans ?_
    rw [disk_write_run, hagain]
    rfl
  refine (Run.run_bind_ok hpresent).trans ?_
  exact (Run.run_bind_ok hwrite).trans rfl

end EnvironmentFiles

end RequestRunner
