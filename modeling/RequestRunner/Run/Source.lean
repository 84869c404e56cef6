import RequestRunner.Files
import RequestRunner.Run.Item

/-!
# Sources of a run

A source is a document that was read from a file, with the number of the request that is asked for,
if one is. All sources of a run are read before any of them is used, so that a malformed file stops
the run before the first request is sent.

Main statement: the items of a source are the chosen sections of its document (`items_eq_ok_iff`).
-/

set_option autoImplicit false

namespace RequestRunner

/-- A document to run, or one request of it. -/
structure Source where
  /-- The file, as it was asked for. -/
  file : String
  /-- The document. -/
  document : Document
  /-- The request that is asked for. -/
  wanted : Option Ordinal

namespace Source

/-- The source that a text is. -/
def ofText (file text : String) (wanted : Option Ordinal) : Except Fault Source :=
  match Document.read file text with
  | .ok document => .ok ⟨file, document, wanted⟩
  | .error e => .error (.malformed e)

/-- The items to run. -/
def items (source : Source) : Except Fault (List RunItem) :=
  match source.document.choose source.wanted with
  | .ok chosen => .ok (RunItem.ofChosen source.file chosen)
  | .error e => .error (.configuration (.choice e))

/-- The items of several sources, one source after the other. -/
def allItems : List Source → Except Fault (List RunItem)
  | [] => .ok []
  | source :: rest => do
    let first ← source.items
    let more ← allItems rest
    pure (first ++ more)

variable {m : Type → Type} [Monad m]

/-- Reads a source from a file. -/
def load (disk : Disk m) (path : String) (wanted : Option Ordinal) : Attempt m Source := do
  match ← disk.read path with
  | .error e => throw (.unusable (.script path) (.raised "Error" e.message))
  | .ok text =>
    match ofText path text wanted with
    | .ok source => pure source
    | .error fault => throw fault

/-- Reads sources in order, up to the first that cannot be read. -/
def loadAll (disk : Disk m) : List (String × Option Ordinal) → Attempt m (List Source)
  | [] => pure []
  | (path, wanted) :: rest => do
    let first ← load disk path wanted
    let more ← loadAll disk rest
    pure (first :: more)

/-- **The items of a source are the chosen sections of its document.** -/
theorem items_eq_ok_iff (source : Source) (items : List RunItem) :
    source.items = .ok items ↔
      ∃ chosen, source.document.choose source.wanted = .ok chosen ∧
        RunItem.ofChosen source.file chosen = items := by
  unfold Source.items
  split
  · next chosen h => simp [h]
  · next e h => simp [h]

end Source

end RequestRunner
