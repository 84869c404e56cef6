import RequestRunner.Environment.Provider
import RequestRunner.Proofs.Run.Ending

/-!
# Files around a saved snapshot

Saving a snapshot makes the directory that it is to lie in and writes one file. What lay somewhere
before stays, except where the snapshot is written (`Files.lookup_makeAll`, `Files.lookup_write`),
so a file at another place reads as before (`EnvironmentFiles.read_save_of_ne`), and the snapshot
itself reads as what was written (`EnvironmentFiles.read_save_self`).
-/

set_option autoImplicit false

namespace RequestRunner

namespace Files

/-- The place that a path leads to. -/
def target (path : String) : Place := (route (origin path) (names path)).2

/-- The places that a path leads through. -/
def through (path : String) : List Place := (route (origin path) (names path)).1

/-- A path can be followed if it leads through directories only. -/
theorem follow_eq_ok_iff {files : Files} {action : FileAction} {path : String} {place : Place} :
    files.follow action path = .ok place ↔
      (∀ q ∈ through path, files.lookup q = some .directory) ∧ place = target path := by
  have hroute : route (origin path) (names path) = (through path, target path) := rfl
  rw [follow, hroute]
  dsimp only
  cases hfind : (through path).find? fun place => !files.isDirectory place with
  | none =>
    have hall : ∀ q ∈ through path, files.lookup q = some .directory := fun q hq => by
      simpa [isDirectory] using List.find?_eq_none.1 hfind q hq
    exact ⟨fun h => ⟨hall, (Except.ok.inj h).symm⟩, fun h => congrArg _ h.2.symm⟩
  | some p =>
    have hp := List.find?_some hfind
    constructor
    · intro h
      cases h
    · intro h
      rw [isDirectory, h.1 p (List.mem_of_find?_eq_some hfind)] at hp
      cases hp

/-- A path that cannot be followed leads to nothing. -/
theorem isAbsent_of_follow {files : Files} {action : FileAction} {path : String} {e : FileError}
    (h : files.follow action path = .error e) : e.isAbsent = true := by
  unfold follow at h
  dsimp only at h
  split at h
  · cases h
  · cases h
    split <;> rfl

/-- A path leads to something. -/
def isThere (files : Files) (path : String) : Bool :=
  match files.read path with
  | .ok _ => true
  | .error e => !e.isAbsent

/-- A path leads to something if it leads through directories only and something lies at its end. -/
theorem isThere_iff {files : Files} {path : String} :
    files.isThere path = true ↔
      (∀ q ∈ through path, files.lookup q = some .directory) ∧
        files.lookup (target path) ≠ none := by
  unfold isThere read
  cases hfollow : files.follow .access path with
  | error e =>
    dsimp only
    rw [isAbsent_of_follow hfollow]
    refine iff_of_false Bool.false_ne_true fun h => ?_
    rw [follow_eq_ok_iff.2 ⟨h.1, rfl⟩] at hfollow
    cases hfollow
  | ok place =>
    obtain ⟨hthrough, rfl⟩ := follow_eq_ok_iff.1 hfollow
    rw [and_iff_right hthrough]
    dsimp only
    cases files.lookup (target path) with
    | none => simp [FileError.isAbsent]
    | some node => cases node <;> simp [FileError.isAbsent]

/-- A file is read where its path leads. -/
theorem read_eq_ok_iff {files : Files} {path text : String} :
    files.read path = .ok text ↔
      (∀ q ∈ through path, files.lookup q = some .directory) ∧
        files.lookup (target path) = some (.file text) := by
  unfold read
  cases hfollow : files.follow .access path with
  | error e =>
    constructor
    · intro h
      cases h
    · intro h
      rw [follow_eq_ok_iff.2 ⟨h.1, rfl⟩] at hfollow
      cases hfollow
  | ok place =>
    obtain ⟨hthrough, rfl⟩ := follow_eq_ok_iff.1 hfollow
    rw [and_iff_right hthrough]
    dsimp only
    split <;> simp_all

/-- What lies at another place stays when something is put. -/
theorem lookup_putNode_of_ne {files : Files} {place other : Place} {node old : FileNode}
    (hne : other ≠ place) (h : files.lookup other = some old) :
    lookup ⟨putNode place node files.nodes⟩ other = some old := by
  unfold lookup at h ⊢
  dsimp only at h ⊢
  rw [node?_putNode_of_ne node files.nodes hne]
  split
  · next htop => rw [if_pos htop] at h; exact h
  · next htop =>
    rw [if_neg htop] at h
    cases hnode : node? other files.nodes with
    | some found => rw [hnode] at h; exact h
    | none =>
      rw [hnode] at h
      dsimp only at h ⊢
      split at h
      · next hany => rw [if_pos (any_putNode hany)]; exact h
      · cases h

/-- Making directories leaves alone what lies somewhere. -/
theorem lookup_makeAll {path : String} {places : List Place} {files changed : Files}
    (hmade : makeAll path places files = .ok changed) {other : Place} {old : FileNode}
    (h : files.lookup other = some old) : changed.lookup other = some old := by
  induction places generalizing files with
  | nil =>
    cases hmade
    exact h
  | cons place rest ih =>
    unfold makeAll at hmade
    split at hmade
    · exact ih hmade h
    · cases hmade
    · next hfree =>
      split at hmade
      · cases hmade
      · refine ih hmade (lookup_putNode_of_ne ?_ h)
        rintro rfl
        rw [hfree] at h
        cases h

/-- Directories that were made are there. -/
theorem lookup_of_makeAll {path : String} {places : List Place} {files changed : Files}
    (hmade : makeAll path places files = .ok changed) {place : Place} (hplace : place ∈ places) :
    changed.lookup place = some .directory := by
  induction places generalizing files with
  | nil => cases hplace
  | cons first rest ih =>
    unfold makeAll at hmade
    split at hmade
    · next hdirectory =>
      rcases List.mem_cons.1 hplace with rfl | hrest
      · exact lookup_makeAll hmade hdirectory
      · exact ih hmade hrest
    · cases hmade
    · next hfree =>
      split at hmade
      · cases hmade
      · rcases List.mem_cons.1 hplace with rfl | hrest
        · refine lookup_makeAll hmade ?_
          unfold lookup
          rw [node?_putNode_self]
          split <;> rfl
        · exact ih hmade hrest

theorem isThere_makeDirectories {files changed : Files} {path : String}
    (h : files.makeDirectories path = .ok changed) : changed.isThere path = true := by
  have hmade : ∀ place ∈ through path ++ [target path], changed.lookup place = some .directory :=
    fun place hplace => lookup_of_makeAll h hplace
  refine isThere_iff.2 ⟨fun q hq => hmade q (List.mem_append_left _ hq), ?_⟩
  rw [hmade _ (List.mem_append_right _ List.mem_cons_self)]
  exact nofun

/-- Writing a file leaves alone what lies elsewhere. -/
theorem lookup_write {path text : String} {files changed : Files}
    (hwritten : files.write path text = .ok changed) {other : Place} {old : FileNode}
    (hne : other ≠ target path ∨ old = .directory) (h : files.lookup other = some old) :
    changed.lookup other = some old := by
  unfold write at hwritten
  split at hwritten
  · cases hwritten
  · next place hfollow =>
    obtain ⟨-, rfl⟩ := follow_eq_ok_iff.1 hfollow
    split at hwritten
    · cases hwritten
    · next hfile =>
      cases hwritten
      refine lookup_putNode_of_ne ?_ h
      rintro rfl
      rcases hne with hne | rfl
      · exact hne rfl
      · exact hfile (by rw [isDirectory, h]; rfl)

end Files

namespace EnvironmentFiles

open Files

/-- A log that shows nothing. -/
def quiet : LogEntry → StateM Files Unit := fun _ => pure ()

theorem commit_inv {tree changed : Files} {outcome : Except FileError Files}
    (h : tree.commit outcome = (.ok (), changed)) : outcome = .ok changed := by
  cases outcome with
  | error e => cases h
  | ok after =>
    cases h
    rfl

theorem demand_inv {α : Type} {x : StateM Files (Except FileError α)} {tree changed : Files} {a : α}
    (h : (demand x).run.run tree = (.ok a, changed)) : x.run tree = (.ok a, changed) := by
  obtain ⟨outcome, t, hx, h⟩ := Run.run_bind_inv h
  rw [Run.run_lift, Prod.mk.injEq] at hx
  obtain ⟨houtcome, rfl⟩ := hx
  cases outcome with
  | error e => cases h
  | ok b =>
    cases h
    exact Prod.ext (Except.ok.inj houtcome) rfl

theorem disk_read_run (tree : Files) (path : String) :
    (disk.read path).run tree = (tree.read path, tree) := rfl

theorem disk_write_run (tree : Files) (path text : String) :
    (disk.write path text).run tree = tree.commit (tree.write path text) := rfl

theorem disk_makeDirectories_run (tree : Files) (path : String) :
    (disk.makeDirectories path).run tree = tree.commit (tree.makeDirectories path) := rfl

theorem write_inv {path text : String} {entry : LogEntry} {tree saved : Files}
    (h : (demand (disk.write path text) >>= fun _ => liftM (quiet entry) :
      Attempt (StateM Files) Unit).run.run tree = (.ok (), saved)) :
    tree.write path text = .ok saved := by
  obtain ⟨⟨⟩, t, hwrite, hlog⟩ := Run.run_bind_inv h
  cases hlog
  have hcommit := demand_inv hwrite
  rw [disk_write_run] at hcommit
  exact commit_inv hcommit

theorem isPresent_run (tree : Files) (path : String) :
    (disk.isPresent path).run tree = (tree.isThere path, tree) := by
  rw [Disk.isPresent, StateT.run_bind, disk_read_run, isThere]
  cases tree.read path <;> rfl

/-- Saving writes the text of the snapshot once its directory is there. -/
theorem save_inv {files : EnvironmentFiles} {kept : VariableMap} {tree saved : Files}
    (h : (files.save Files.disk quiet kept).run.run tree = (.ok (), saved)) :
    ∃ prepared : Files, prepared.write files.snapshotPath (snapshotText kept) = .ok saved ∧
      prepared.isThere (directoryOf files.snapshotPath) = true ∧
      (prepared = tree ∨
        tree.makeDirectories (directoryOf files.snapshotPath) = .ok prepared) := by
  unfold save at h
  dsimp only at h
  obtain ⟨present, t, hpresent, h⟩ := Run.run_bind_inv h
  rw [Run.run_lift, isPresent_run, Prod.mk.injEq] at hpresent
  obtain ⟨hpresent, rfl⟩ := hpresent
  split at h
  · obtain ⟨⟨⟩, prepared, hmade, h⟩ := Run.run_bind_inv h
    have hcommit := demand_inv hmade
    rw [disk_makeDirectories_run] at hcommit
    exact ⟨prepared, write_inv h, isThere_makeDirectories (commit_inv hcommit),
      Or.inr (commit_inv hcommit)⟩
  · next hthere =>
    cases hpresent
    rw [Bool.not_eq_true, Bool.not_eq_false'] at hthere
    exact ⟨tree, write_inv h, hthere, Or.inl rfl⟩

variable {files : EnvironmentFiles} {kept : VariableMap} {tree saved : Files}

/-- **A saved snapshot reads as what was written.** -/
theorem read_save_self (h : (files.save Files.disk quiet kept).run.run tree = (.ok (), saved)) :
    saved.read files.snapshotPath = .ok (snapshotText kept) := by
  obtain ⟨prepared, hwritten, -, -⟩ := save_inv h
  exact read_write hwritten

/-- What lies somewhere stays, unless the snapshot is written over it. -/
theorem lookup_save (h : (files.save Files.disk quiet kept).run.run tree = (.ok (), saved))
    {place : Place} {old : FileNode}
    (hne : place ≠ target files.snapshotPath ∨ old = .directory)
    (hold : tree.lookup place = some old) : saved.lookup place = some old := by
  obtain ⟨prepared, hwritten, -, hprepared⟩ := save_inv h
  rcases hprepared with rfl | hmade
  · exact lookup_write hwritten hne hold
  · exact lookup_write hwritten hne (lookup_makeAll hmade hold)

/-- **A file at another place reads as before the saving.** -/
theorem read_save_of_ne (h : (files.save Files.disk quiet kept).run.run tree = (.ok (), saved))
    {path text : String} (hne : target path ≠ target files.snapshotPath)
    (hread : tree.read path = .ok text) : saved.read path = .ok text := by
  rw [read_eq_ok_iff] at hread ⊢
  obtain ⟨hthrough, hfile⟩ := hread
  exact ⟨fun q hq => lookup_save h (Or.inr rfl) (hthrough q hq), lookup_save h (Or.inl hne) hfile⟩

end EnvironmentFiles

end RequestRunner
