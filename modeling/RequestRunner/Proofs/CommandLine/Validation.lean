import RequestRunner.CommandLine.Validate
import RequestRunner.Proofs.Run.Plan

/-!
# How far a validation gets

A validation goes through its file arguments in order. `Passes` is the part it gets past: an
argument that gives no source is reported with one line, and one without fault with a line and an
entry for each request it selects. `Stops` says at which arguments it ends early: at one that gives
a source but not the requests that are asked for, and, when requests are shown, at one with a
request that cannot be filled.

Main statement: either all arguments are passed, and the exit code says whether any of them was
faulty, or the validation ends at the first that stops it, with a complaint and without a word about
those behind it (`ValidateOptions.perform_reports`).
-/

set_option autoImplicit false

namespace RequestRunner.CommandLine

/-! ## Attempts that write -/

section Writes

variable {m : Type → Type} [Monad m] {α β : Type}

/-- The attempt writes these, and ends so. -/
def Writes (write : Writing → m Unit) (x : Attempt m α) (written : List Writing)
    (result : Except Fault α) : Prop :=
  x.run = do
    Session.each write written
    pure result

variable [LawfulMonad m]

theorem lift_pure (a : α) : (ExceptT.lift (pure a) : Attempt m α) = pure a := by
  apply ExceptT.ext
  rw [ExceptT.run_lift, map_pure]
  rfl

variable {write : Writing → m Unit} {x : Attempt m α} {f : α → Attempt m β}
  {written more : List Writing}

theorem each_append (write : Writing → m Unit) (written more : List Writing) :
    Session.each write (written ++ more) =
      (do Session.each write written; Session.each write more) := by
  induction written with
  | nil => rw [List.nil_append, Session.each, pure_bind]
  | cons first rest ih => rw [List.cons_append, Session.each, Session.each, bind_assoc, ih]

theorem writes_pure (a : α) : Writes write (pure a) [] (.ok a) := by
  rw [Writes, Session.each, pure_bind]
  rfl

theorem writes_throw (fault : Fault) :
    Writes write (throw fault : Attempt m α) [] (.error fault) := by
  rw [Writes, Session.each, pure_bind]
  rfl

theorem writes_each (written : List Writing) :
    Writes write (ExceptT.lift (Session.each write written)) written (.ok ()) := by
  rw [Writes, ExceptT.run_lift]
  exact map_eq_pure_bind _ _

/-- What was written by one attempt stands before what the next one writes. -/
theorem Writes.bind {a : α} {result : Except Fault β} (h : Writes write x written (.ok a))
    (hnext : Writes write (f a) more result) : Writes write (x >>= f) (written ++ more) result := by
  rw [Writes, ExceptT.run_bind, h, bind_assoc, pure_bind, each_append, bind_assoc]
  exact congrArg _ (funext fun _ => hnext)

theorem Writes.bind_error {fault : Fault} (h : Writes write x written (.error fault)) :
    Writes write (x >>= f) written (.error fault) := by
  rw [Writes, ExceptT.run_bind, h, bind_assoc, pure_bind]

theorem writes_each_pure (written : List Writing) (a : α) :
    Writes write (ExceptT.lift (Session.each write written) >>= fun _ => pure a) written
      (.ok a) := by
  rw [Writes, ExceptT.run_bind, writes_each written, bind_assoc]
  simp

end Writes

/-! ## What is reported -/

/-- The line for a fault. -/
def faultLine (fault : Fault) : Writing := (complaint fault).writing

/-- The line for an argument that is valid. -/
def validLine (argument : FileArgument) (count : Nat) : Writing :=
  (LogEntry.success ("✅ " ++ argument.path ++ ": " ++ toString count ++ " request(s)")).writing

/-- The last line, if arguments gave no source. -/
def closing (failed total : Nat) : List Writing :=
  if failed = 0 then []
  else [(LogEntry.error
    (toString failed ++ " of " ++ toString total ++ " file(s) failed to parse")).writing]

section Logging

variable {m : Type → Type} [Monad m] (system : System m) (verbose : Bool)

theorem log_complaint (fault : Fault) :
    system.log verbose (complaint fault) = Session.each system.write [faultLine fault] := by
  cases verbose <;> cases fault <;> rfl

theorem log_success (message : String) :
    system.log verbose (.success message) =
      Session.each system.write [(LogEntry.success message).writing] := rfl

theorem log_error (message : String) :
    system.log verbose (.error message) =
      Session.each system.write [(LogEntry.error message).writing] := by
  cases verbose <;> rfl

end Logging

/-! ## Entries -/

section Entries

variable (source : Option PreviewSource) (printer : Printer)

/-- The entry for a request: its line in a listing, or the request as it would be sent. -/
def entry (entropy : Entropy) (item : RunItem) : Except Fault (List Writing × Entropy) :=
  match source with
  | none => .ok ([listing item], entropy)
  | some source =>
    match source.request item.part.request entropy with
    | (.error fault, _) => .error fault
    | (.ok request, entropy) => .ok (printer.request request item.name, entropy)

/-- The entries for requests, one for each, in order. -/
inductive Entries : Entropy → List RunItem → List (List Writing) → Entropy → Prop
  | nil (entropy : Entropy) : Entries entropy [] [] entropy
  | cons {item : RunItem} {items : List RunItem} {shown : List Writing} {more : List (List Writing)}
      {e₀ e₁ e₂ : Entropy} (hentry : entry source printer e₀ item = .ok (shown, e₁))
      (hmore : Entries e₁ items more e₂) : Entries e₀ (item :: items) (shown :: more) e₂

/-- Requests have entries up to the first that cannot be filled. -/
theorem entries_cases (entropy : Entropy) (items : List RunItem) :
    (∃ shown after, Entries source printer entropy items shown after) ∨
    ∃ before item behind shown after fault, items = before ++ item :: behind ∧
      Entries source printer entropy before shown after ∧
      entry source printer after item = .error fault := by
  induction items generalizing entropy with
  | nil => exact Or.inl ⟨[], entropy, .nil entropy⟩
  | cons item rest ih =>
    rcases hentry : entry source printer entropy item with fault | ⟨first, next⟩
    · exact Or.inr ⟨[], item, rest, [], entropy, fault, rfl, .nil entropy, hentry⟩
    · rcases ih next with ⟨shown, after, hshown⟩ |
        ⟨before, other, behind, shown, after, fault, rfl, hshown, hfault⟩
      · exact Or.inl ⟨first :: shown, after, .cons hentry hshown⟩
      · exact Or.inr ⟨item :: before, other, behind, first :: shown, after, fault, rfl,
          .cons hentry hshown, hfault⟩

variable {source printer}

/-- In a listing each request has one line. -/
theorem Entries.listing_inv {entropy after : Entropy} {items : List RunItem}
    {shown : List (List Writing)} (h : Entries none printer entropy items shown after) :
    shown.flatten = items.map listing ∧ after = entropy := by
  induction items generalizing shown entropy with
  | nil =>
    cases h
    exact ⟨rfl, rfl⟩
  | cons item rest ih =>
    cases h with
    | cons hentry hmore =>
      cases hentry
      obtain ⟨hlines, rfl⟩ := ih hmore
      simp [hlines]

end Entries

namespace ValidateOptions

variable {m : Type → Type} [Monad m] [LawfulMonad m] {system : System m} {printer : Printer}

/-! ## Showing requests -/

theorem showRequest_ok {source : PreviewSource} {item : RunItem} {shown : List Writing}
    {e₀ e₁ : Entropy} (h : entry (some source) printer e₀ item = .ok (shown, e₁)) :
    Writes system.write (showRequest system source printer e₀ item) shown (.ok e₁) := by
  unfold entry at h
  unfold showRequest
  dsimp only at h
  rcases hrequest : source.request item.part.request e₀ with ⟨fault | request, after⟩
  · rw [hrequest] at h
    cases h
  · rw [hrequest] at h
    cases h
    exact writes_each_pure _ e₁

theorem showRequest_error {source : PreviewSource} {item : RunItem} {fault : Fault} {e₀ : Entropy}
    (h : entry (some source) printer e₀ item = .error fault) :
    Writes system.write (showRequest system source printer e₀ item) [] (.error fault) := by
  unfold entry at h
  unfold showRequest
  dsimp only at h
  rcases hrequest : source.request item.part.request e₀ with ⟨other | request, after⟩
  · rw [hrequest] at h
    cases h
    exact writes_throw _
  · rw [hrequest] at h
    cases h

theorem showAll_entries {source : PreviewSource} {items : List RunItem}
    {shown : List (List Writing)} {e₀ e₁ : Entropy}
    (h : Entries (some source) printer e₀ items shown e₁) :
    Writes system.write (showAll system source printer e₀ items) shown.flatten (.ok e₁) := by
  induction h with
  | nil entropy => exact writes_pure entropy
  | cons hentry hmore ih => exact (showRequest_ok hentry).bind ih

theorem showAll_error {source : PreviewSource} {before behind : List RunItem} {item : RunItem}
    {shown : List (List Writing)} {fault : Fault} {e₀ e₁ : Entropy}
    (h : Entries (some source) printer e₀ before shown e₁)
    (hfault : entry (some source) printer e₁ item = .error fault) :
    Writes system.write (showAll system source printer e₀ (before ++ item :: behind)) shown.flatten
      (.error fault) := by
  induction h with
  | nil entropy => exact (showRequest_error hfault).bind_error
  | cons hentry hmore ih => exact (showRequest_ok hentry).bind (ih hfault)

/-! ## Files -/

variable (options : ValidateOptions) {source : Option PreviewSource} {file : Source}

theorem present_entries {items : List RunItem} {shown : List (List Writing)} {e₀ e₁ : Entropy}
    {argument : FileArgument} (hfile : file.file = argument.path) (hitems : file.items = .ok items)
    (h : Entries source printer e₀ items shown e₁) :
    Writes system.write (options.present system source printer e₀ file)
      (validLine argument items.length :: shown.flatten) (.ok e₁) := by
  rw [present, hitems, hfile]
  dsimp only
  rw [log_success]
  refine (writes_each [_]).bind ?_
  cases source with
  | some source => exact showAll_entries h
  | none =>
    obtain ⟨hlines, rfl⟩ := h.listing_inv
    rw [hlines]
    exact writes_each_pure _ e₁

theorem present_error {before behind : List RunItem} {item : RunItem} {fault : Fault}
    {shown : List (List Writing)} {e₀ e₁ : Entropy} {argument : FileArgument}
    (hfile : file.file = argument.path) (hitems : file.items = .ok (before ++ item :: behind))
    (h : Entries source printer e₀ before shown e₁)
    (hfault : entry source printer e₁ item = .error fault) :
    Writes system.write (options.present system source printer e₀ file)
      (validLine argument (before ++ item :: behind).length :: shown.flatten) (.error fault) := by
  cases source with
  -- A line of a listing is never refused.
  | none => cases hfault
  | some source =>
    rw [present, hitems, hfile]
    dsimp only
    rw [log_success]
    exact (writes_each [_]).bind (showAll_error h hfault)

end ValidateOptions

/-! ## Arguments -/

section Arguments

variable (contents : String → Except FileError String) (source : Option PreviewSource)
  (printer : Printer)

/-- The validation gets past these arguments, with a report for each. -/
inductive Passes : Entropy → List FileArgument → List (List Writing) → Entropy → Prop
  | nil (entropy : Entropy) : Passes entropy [] [] entropy
  /-- An argument that gives no source is reported with one line. -/
  | faulty {argument : FileArgument} {rest : List FileArgument} {reports : List (List Writing)}
      {fault : Fault} {e₀ e₁ : Entropy} (hloaded : Source.loaded contents argument = .error fault)
      (hrest : Passes e₀ rest reports e₁) :
      Passes e₀ (argument :: rest) ([faultLine fault] :: reports) e₁
  /-- An argument without fault is reported with one line and an entry for each request. -/
  | sound {argument : FileArgument} {rest : List FileArgument} {reports : List (List Writing)}
      {shown : List (List Writing)} {e₀ e₁ e₂ : Entropy} (hsound : ¬ argument.Faulty contents)
      (hshown : Entries source printer e₀ (argument.selected contents) shown e₁)
      (hrest : Passes e₁ rest reports e₂) :
      Passes e₀ (argument :: rest)
        ((validLine argument (argument.selected contents).length :: shown.flatten) :: reports) e₂

/-- The validation ends at this argument, with what it has still shown and the fault. -/
inductive Stops (entropy : Entropy) (argument : FileArgument) : List Writing → Fault → Prop
  /-- The argument gives a source, but not the requests that are asked for. -/
  | lacking {file : Source} {fault : Fault} (hloaded : Source.loaded contents argument = .ok file)
      (hitems : file.items = .error fault) : Stops entropy argument [] fault
  /-- A request cannot be shown. -/
  | unshown {before behind : List RunItem} {item : RunItem} {shown : List (List Writing)}
      {fault : Fault} {after : Entropy} (hsound : ¬ argument.Faulty contents)
      (hselected : argument.selected contents = before ++ item :: behind)
      (hshown : Entries source printer entropy before shown after)
      (hfault : entry source printer after item = .error fault) :
      Stops entropy argument
        (validLine argument (argument.selected contents).length :: shown.flatten) fault

/-- The number of arguments that give no source. -/
def unloaded (arguments : List FileArgument) : Nat :=
  arguments.countP fun argument => !(Source.loaded contents argument).isOk

variable {contents source printer}

/-- The file of a source is that of its argument. -/
theorem file_of_loaded {argument : FileArgument} {file : Source}
    (h : Source.loaded contents argument = .ok file) : file.file = argument.path := by
  rw [Source.loaded] at h
  cases hcontents : contents argument.path with
  | error e =>
    rw [hcontents] at h
    cases h
  | ok text =>
    rw [hcontents] at h
    dsimp only [Source.ofText] at h
    cases hread : Document.read argument.path text with
    | error e =>
      rw [hread] at h
      cases h
    | ok document =>
      rw [hread] at h
      cases h
      rfl

theorem faulty_of_unloaded {argument : FileArgument} {fault : Fault}
    (h : Source.loaded contents argument = .error fault) : argument.Faulty contents := by
  by_contra hsound
  obtain ⟨file, hloaded, -⟩ := Source.loaded_of_sound hsound
  cases h.symm.trans hloaded

/-- Among arguments that are passed the faulty ones are those that give no source. -/
theorem Passes.unloaded_eq_zero_iff {arguments : List FileArgument} {reports : List (List Writing)}
    {e₀ e₁ : Entropy} (h : Passes contents source printer e₀ arguments reports e₁) :
    unloaded contents arguments = 0 ↔ ∀ argument ∈ arguments, ¬ argument.Faulty contents := by
  induction h with
  | nil entropy => simp [unloaded]
  | faulty hloaded hrest ih =>
    simp [unloaded, hloaded, Except.isOk, Except.toBool, faulty_of_unloaded hloaded]
  | sound hsound hshown hrest ih =>
    obtain ⟨file, hloaded, -⟩ := Source.loaded_of_sound hsound
    rw [unloaded] at ih
    simp [unloaded, hloaded, hsound, Except.isOk, Except.toBool, ← ih]

variable (contents source printer) in
/-- Arguments are passed up to the first that stops the validation. -/
theorem passes_cases (entropy : Entropy) (arguments : List FileArgument) :
    (∃ reports after, Passes contents source printer entropy arguments reports after) ∨
    ∃ before argument behind reports after shown fault, arguments = before ++ argument :: behind ∧
      Passes contents source printer entropy before reports after ∧
      Stops contents source printer after argument shown fault := by
  induction arguments generalizing entropy with
  | nil => exact Or.inl ⟨[], entropy, .nil entropy⟩
  | cons first rest ih =>
    -- A faulty argument is passed if its fault shows at once, and stops the validation otherwise.
    by_cases hfaulty : first.Faulty contents
    · rcases hloaded : Source.loaded contents first with fault | file
      · rcases ih entropy with ⟨reports, after, hrest⟩ |
          ⟨before, argument, behind, reports, after, shown, stop, rfl, hbefore, hstop⟩
        · exact Or.inl ⟨_, after, .faulty hloaded hrest⟩
        · exact Or.inr ⟨first :: before, argument, behind, _, after, shown, stop, rfl,
            .faulty hloaded hbefore, hstop⟩
      · obtain ⟨fault, hitems⟩ := Source.loaded_of_faulty hfaulty hloaded
        exact Or.inr ⟨[], first, rest, [], entropy, [], fault, rfl, .nil entropy,
          .lacking hloaded hitems⟩
    · rcases entries_cases source printer entropy (first.selected contents) with
        ⟨shown, next, hshown⟩ |
        ⟨before, item, behind, shown, next, fault, hselected, hshown, hfault⟩
      · rcases ih next with ⟨reports, after, hrest⟩ |
          ⟨before, argument, behind, reports, after, more, stop, rfl, hbefore, hstop⟩
        · exact Or.inl ⟨_, after, .sound hfaulty hshown hrest⟩
        · exact Or.inr ⟨first :: before, argument, behind, _, after, more, stop, rfl,
            .sound hfaulty hshown hbefore, hstop⟩
      · exact Or.inr ⟨[], first, rest, [], entropy, _, fault, rfl, .nil entropy,
          .unshown hfaulty hselected hshown hfault⟩

end Arguments

namespace ValidateOptions

variable {m : Type → Type} [Monad m] [LawfulMonad m] {system : System m} {printer : Printer}
  {contents : String → Except FileError String} {source : Option PreviewSource}
  (options : ValidateOptions)

/-- A listing needs nothing but the files. -/
theorem previewSource_listing (h : options.preview = false) :
    Writes system.write (options.previewSource system) [] (.ok none) := by
  rw [previewSource, h]
  exact writes_pure none

/-- A preview needs the variables of the environment. -/
theorem previewSource_preview {notes : List Writing} {known : VariableMap}
    (h : options.preview = true)
    (hload : Writes system.write
      (options.environment.load system.yaml system.disk (system.log options.verbose)) notes
      (.ok known)) :
    Writes system.write (options.previewSource system) notes
      (.ok (some ⟨known.map fun (name, value) => (name, .ofJson value), system.now⟩)) := by
  rw [previewSource, h, ← List.append_nil notes]
  exact hload.bind (writes_pure _)

/-- With files of constant contents loading is what the contents give. -/
theorem load_pure (hread : ∀ path, system.disk.read path = pure (contents path))
    (argument : FileArgument) :
    (Source.load system.disk argument.path argument.wanted).run =
      pure (Source.loaded contents argument) := by
  rw [Source.load, Source.loaded, ExceptT.run_bind]
  change ExceptT.run (ExceptT.lift (system.disk.read argument.path)) >>= _ = _
  rw [ExceptT.run_lift, hread, map_pure, pure_bind]
  cases contents argument.path with
  | error e => rfl
  | ok text =>
    dsimp only
    cases Source.ofText argument.path text argument.wanted with
    | error fault => rfl
    | ok source => rfl

variable {argument : FileArgument} {rest : List FileArgument} {failed : Nat} {entropy : Entropy}
  {written : List Writing}

/-- An argument that gives no source is complained about and counted, and the next one is taken. -/
theorem validateAll_unloaded (hread : ∀ path, system.disk.read path = pure (contents path))
    {fault : Fault} {result : Except Fault Nat}
    (hloaded : Source.loaded contents argument = .error fault)
    (hrest : Writes system.write
      (options.validateAll system source printer (failed + 1) entropy rest) written result) :
    Writes system.write
      (options.validateAll system source printer failed entropy (argument :: rest))
      (faultLine fault :: written) result := by
  rw [validateAll, load_pure hread, hloaded, lift_pure, pure_bind]
  dsimp only
  rw [log_complaint]
  exact (writes_each [_]).bind hrest

/-- What is behind an argument that gives a source depends on how its requests are presented. -/
theorem validateAll_loaded (hread : ∀ path, system.disk.read path = pure (contents path))
    {file : Source} (hloaded : Source.loaded contents argument = .ok file) :
    options.validateAll system source printer failed entropy (argument :: rest) = (do
      let entropy ← options.present system source printer entropy file
      options.validateAll system source printer failed entropy rest) := by
  rw [validateAll, load_pure hread, hloaded, lift_pure, pure_bind]

theorem validateAll_passes (hread : ∀ path, system.disk.read path = pure (contents path))
    {arguments : List FileArgument} {reports : List (List Writing)} {e₀ e₁ : Entropy}
    (h : Passes contents source printer e₀ arguments reports e₁) (failed : Nat)
    (behind : List FileArgument) {result : Except Fault Nat}
    (hbehind : Writes system.write (options.validateAll system source printer
      (failed + unloaded contents arguments) e₁ behind) written result) :
    Writes system.write
      (options.validateAll system source printer failed e₀ (arguments ++ behind))
      (reports.flatten ++ written) result := by
  induction h generalizing failed with
  | nil entropy => exact hbehind
  | faulty hloaded hrest ih =>
    refine options.validateAll_unloaded hread hloaded (ih (failed + 1) ?_)
    rwa [unloaded, List.countP_cons, hloaded, ← unloaded, Nat.add_comm (unloaded _ _),
      ← Nat.add_assoc] at hbehind
  | sound hsound hshown hrest ih =>
    obtain ⟨file, hloaded, hitems⟩ := Source.loaded_of_sound hsound
    rw [List.cons_append, options.validateAll_loaded hread hloaded, List.flatten_cons,
      List.append_assoc]
    refine (options.present_entries (file_of_loaded hloaded) hitems hshown).bind (ih failed ?_)
    rwa [unloaded, List.countP_cons, hloaded, ← unloaded] at hbehind

theorem validateAll_stops (hread : ∀ path, system.disk.read path = pure (contents path))
    {shown : List Writing} {fault : Fault}
    (h : Stops contents source printer entropy argument shown fault) :
    Writes system.write
      (options.validateAll system source printer failed entropy (argument :: rest)) shown
      (.error fault) := by
  cases h with
  | lacking hloaded hitems =>
    rw [options.validateAll_loaded hread hloaded, present, hitems]
    exact (writes_throw _).bind_error
  | unshown hsound hselected hshown hfault =>
    obtain ⟨file, hloaded, hitems⟩ := Source.loaded_of_sound hsound
    rw [hselected] at hitems ⊢
    rw [options.validateAll_loaded hread hloaded]
    exact (options.present_error (file_of_loaded hloaded) hitems hshown hfault).bind_error

theorem attempt_writes {files : List String} {notes : List Writing} {format : Format}
    {result : Except Fault Nat}
    (hsource : Writes system.write (options.previewSource system) notes (.ok source))
    (hformat : Format.read (Format.unescape options.requestFormat) = .ok format)
    (hall : Writes system.write (options.validateAll system source
      (.new (.formatted format [])) 0 system.entropy (files.map FileArgument.ofText))
      written result) :
    Writes system.write (options.attempt system files) (notes ++ written) result := by
  refine hsource.bind ?_
  rw [hformat]
  exact (writes_pure format).bind hall

theorem perform_ok {files : List String}
    (h : Writes system.write (options.attempt system files) written (.ok failed)) :
    options.perform system files = (do
      Session.each system.write (written ++ closing failed files.length)
      pure (if failed = 0 then 0 else 1)) := by
  rw [perform, h, bind_assoc, each_append, bind_assoc]
  refine congrArg _ (funext fun _ => ?_)
  rw [pure_bind]
  cases failed with
  | zero => simp [closing, Session.each]
  | succ n => simp [closing, log_error]

theorem perform_error {files : List String} {fault : Fault}
    (h : Writes system.write (options.attempt system files) written (.error fault)) :
    options.perform system files = (do
      Session.each system.write (written ++ [faultLine fault])
      pure 1) := by
  rw [perform, h, bind_assoc, each_append, bind_assoc]
  refine congrArg _ (funext fun _ => ?_)
  rw [pure_bind]
  dsimp only
  rw [log_complaint]

/-- **A validation reports on its arguments in order, up to the first that gives a source but not
what is asked for.** Arguments that give no source are counted and do not keep the others from being
examined, and if none stops the validation, the exit code is one exactly if some argument is faulty.
One that stops it is complained about, and nothing is written about those behind it. -/
theorem perform_reports (files : List String) {notes : List Writing} {format : Format}
    (hread : ∀ path, system.disk.read path = pure (contents path))
    (hsource : Writes system.write (options.previewSource system) notes (.ok source))
    (hformat : Format.read (Format.unescape options.requestFormat) = .ok format) :
    (∃ reports after, Passes contents source (.new (.formatted format [])) system.entropy
        (files.map FileArgument.ofText) reports after ∧
      options.perform system files = (do
        Session.each system.write (notes ++ reports.flatten ++
          closing (unloaded contents (files.map FileArgument.ofText)) files.length)
        pure (if unloaded contents (files.map FileArgument.ofText) = 0 then 0 else 1)) ∧
      (unloaded contents (files.map FileArgument.ofText) = 0 ↔
        ∀ file ∈ files, ¬ (FileArgument.ofText file).Faulty contents)) ∨
    ∃ before argument behind reports after shown fault,
      files.map FileArgument.ofText = before ++ argument :: behind ∧
      Passes contents source (.new (.formatted format [])) system.entropy before reports after ∧
      Stops contents source (.new (.formatted format [])) after argument shown fault ∧
      options.perform system files = (do
        Session.each system.write (notes ++ reports.flatten ++ shown ++ [faultLine fault])
        pure 1) := by
  rcases passes_cases contents source (.new (.formatted format [])) system.entropy
    (files.map FileArgument.ofText) with
    ⟨reports, after, hpasses⟩ |
    ⟨before, argument, behind, reports, after, shown, fault, hfiles, hpasses, hstops⟩
  · refine Or.inl ⟨reports, after, hpasses, ?_, ?_⟩
    · have hall := options.validateAll_passes hread hpasses 0 [] (writes_pure _)
      rw [List.append_nil, List.append_nil, Nat.zero_add] at hall
      exact options.perform_ok (options.attempt_writes hsource hformat hall)
    · rw [hpasses.unloaded_eq_zero_iff, List.forall_mem_map]
  · refine Or.inr ⟨before, argument, behind, reports, after, shown, fault, hfiles, hpasses, hstops,
      ?_⟩
    have hall := options.validateAll_passes hread hpasses 0 (argument :: behind)
      (options.validateAll_stops hread hstops)
    rw [← hfiles] at hall
    rw [List.append_assoc notes]
    exact options.perform_error (options.attempt_writes hsource hformat hall)

/-- A file without a request, and a file with one. -/
def emptyAndFull : Files :=
  Files.ofEntries [("a.http", some "# nothing\n"), ("b.http", some RunOptions.oneRequest)]

/-- A system with these files, on which writings are put one behind the other. -/
def terminal : System (StateM (List Writing)) where
  disk := ⟨fun path => pure (emptyAndFull.read path), fun _ _ => pure (.ok ()),
    fun _ => pure (.ok ())⟩
  yaml := Yaml.read
  network _ := pure (.failure "refused" none)
  write writing := modify fun written => written ++ [writing]
  now := 0
  entropy := .seeded 1

/-- Options for a listing. -/
def listingOptions : ValidateOptions :=
  ⟨false, ⟨"dev", "env.json", "snapshot.json"⟩, "%N", false⟩

/-- The file without a request comes first: it is complained about, and the other one is not
mentioned. -/
theorem perform_reports_empty_file_first :
    ∃ fault, (listingOptions.perform terminal ["a.http", "b.http"]).run [] =
      (1, [faultLine fault]) := by
  have hcontents : emptyAndFull.read (FileArgument.ofText "a.http").path = .ok "# nothing\n" := rfl
  have hlength : (Document.read (FileArgument.ofText "a.http").path
      "# nothing\n").toOption.map (fun d => d.sections.length) = some 0 := by decide +kernel
  have hempty : (FileArgument.ofText "a.http").Faulty emptyAndFull.read :=
    (FileArgument.faulty_iff_of_length hcontents hlength).2 (Or.inl rfl)
  have hloaded : (Source.loaded emptyAndFull.read (FileArgument.ofText "a.http")).isOk = true := by
    decide +kernel
  obtain ⟨format, hformat⟩ : ∃ format,
      Format.read (Format.unescape listingOptions.requestFormat) = .ok format := ⟨_, rfl⟩
  have hpasses : ∀ {rest reports after},
      ¬ Passes emptyAndFull.read none (.new (.formatted format [])) terminal.entropy
        (FileArgument.ofText "a.http" :: rest) reports after := by
    intro rest reports after h
    -- The file parses, so that nothing is wrong with it before its requests are listed.
    cases h with
    | faulty hnone _ =>
      rw [hnone] at hloaded
      cases hloaded
    | sound hsound _ _ => exact hsound hempty
  have hread : ∀ path, terminal.disk.read path = pure (emptyAndFull.read path) := fun path => rfl
  rcases listingOptions.perform_reports ["a.http", "b.http"] hread
    (listingOptions.previewSource_listing rfl) hformat with
    ⟨reports, after, h, -⟩ |
    ⟨before, argument, behind, reports, after, shown, fault, hfiles, h, hstops, hrun⟩
  · exact absurd h hpasses
  · cases before with
    | cons first before =>
      obtain ⟨rfl, -⟩ := List.cons.inj hfiles
      exact absurd h hpasses
    | nil =>
      cases hfiles
      cases h
      cases hstops with
      | unshown hsound _ _ _ => exact absurd hempty hsound
      | lacking _ _ => exact ⟨fault, by rw [hrun]; rfl⟩

example : ((listingOptions.perform terminal ["a.http", "b.http"]).run []).2 =
    [⟨.err, "[ERROR] ❌ No requests found in a.http\n"⟩] := by
  decide +kernel

end ValidateOptions

end RequestRunner.CommandLine
