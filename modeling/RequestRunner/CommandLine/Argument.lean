import RequestRunner.Decimal.Whole
import RequestRunner.Fault

/-!
# Command-line arguments

The texts that a command line passes: a file, perhaps with the number of one of its requests, and a
time limit.

Main statement: an argument without a number names a file as it stands (`ofText_of_no_mark`).
-/

set_option autoImplicit false

namespace RequestRunner

/-- A file argument: a path, perhaps with a hash sign and the number of a request. -/
structure FileArgument where
  /-- The path. -/
  path : String
  /-- The number of the request, from one. -/
  request : Option Nat
  deriving DecidableEq, Repr

namespace FileArgument

/-- Reads a file argument. A number follows the last hash sign and reaches to the end; a path with a
number does not hold a line break. -/
def ofText (argument : String) : FileArgument :=
  let reversed := argument.toList.reverse
  let ds := (reversed.takeWhile Decimal.isDigit).reverse
  match reversed.dropWhile Decimal.isDigit with
  | '#' :: path =>
    if ds.isEmpty || path.any Text.isLineEnd then ⟨argument, none⟩
    else ⟨String.ofList path.reverse, some (Decimal.natOfDigits ds)⟩
  | _ => ⟨argument, none⟩

/-- The request that is asked for. -/
def wanted (a : FileArgument) : Option Ordinal := a.request.map Ordinal.nth

/-- **An argument without a hash sign names a file as it stands.** -/
theorem ofText_of_no_mark (argument : String) (h : '#' ∉ argument.toList) :
    ofText argument = ⟨argument, none⟩ := by
  unfold ofText
  simp only
  split
  · next path heq =>
    have hm : '#' ∈ argument.toList.reverse.dropWhile Decimal.isDigit := by
      rw [heq]
      exact List.mem_cons_self
    exact absurd (List.mem_reverse.1 ((List.dropWhile_sublist _).mem hm)) h
  · rfl

end FileArgument

/-- Reads a time limit in milliseconds, a positive whole number. -/
def readTimeout (value : String) : Except Misconfiguration Float :=
  let x := Decimal.ofText value.toList
  if Decimal.isWhole x && decide (0 < x) then .ok x else .error (.invalidTimeout value)

end RequestRunner
