import RequestRunner.Generator.Call
import RequestRunner.Fault

/-!
# Resolving without scripts

Requests can be previewed without running any script: names are looked up in a fixed map, and
placeholders with a dollar sign may only be written-out generator calls. Whatever else a placeholder
holds stays unresolved.
-/

set_option autoImplicit false

namespace RequestRunner

/-- A computation that draws random values and may fail. -/
abbrev Preview (α : Type) := ExceptT Fault (StateM Entropy) α

/-- Resolves a generator call that is written out; anything else stays as it is. -/
def previewGenerator (now : Int) (script : String) : Preview String :=
  ExceptT.mk fun entropy =>
    match Generator.runScript now script entropy with
    | (.ok made, entropy) => (.ok (made.getD (unresolved script)), entropy)
    | (.error e, entropy) => (.error (.generator e), entropy)

/-- The text of a looked-up value; null and undefined values are no values. -/
def lookupText (name : String) : Option Datum → Except Fault String
  | none => .ok (unresolved name)
  | some .null => .ok (unresolved name)
  | some .undefined => .ok (unresolved name)
  | some value => value.stringify?.mapError Fault.conversion

/-- Resolves a placeholder from a fixed map of variables. -/
def resolveStatic (now : Int) (known : Fields Datum) (name : String) : Preview String :=
  match name.toList with
  | '$' :: _ => previewGenerator now name
  | _ => ExceptT.mk (pure (lookupText name (Fields.get? name known)))

end RequestRunner
