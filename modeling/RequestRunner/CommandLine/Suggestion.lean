import RequestRunner.CommandLine.Option

/-!
# Suggestions for misspelt options

An option that is not known may be a misspelling of a known one. The distance of two words is the
least number of single-letter changes that lead from one to the other: leaving a letter out, putting
one in, replacing one, or exchanging two neighbours, no stretch being changed twice. The closest
options are suggested, if they are close enough.

Main statement: a word is within no change of itself (`isWithin_self`).
-/

set_option autoImplicit false

namespace RequestRunner.CommandLine

/-- The first word becomes the second by at most some number of changes. Equal first letters never
need a change. -/
def isWithin (changes : Nat) : List Nat → List Nat → Bool
  | [], ys => ys.length ≤ changes
  | xs, [] => xs.length ≤ changes
  | x :: xs, y :: ys =>
    if x = y then isWithin changes xs ys
    else
      match changes with
      | 0 => false
      | changes + 1 =>
        isWithin changes xs (y :: ys) || isWithin changes (x :: xs) ys ||
          isWithin changes xs ys || isExchanged changes x y xs ys
termination_by xs ys => (xs.length + ys.length, 1)
where
  /-- The first words become the second by exchanging two letters, and some changes behind them. -/
  isExchanged (changes : Nat) (x y : Nat) : List Nat → List Nat → Bool
    | x' :: xs, y' :: ys => x = y' && x' = y && isWithin changes xs ys
    | _, _ => false
  termination_by xs ys => (xs.length + ys.length, 2)

/-- The greatest distance at which a word is suggested. -/
def farthest : Nat := 3

/-- The distance of two words, if it is not too great. -/
def distance? (a b : List Nat) : Option Nat :=
  (List.range (farthest + 1)).find? fun changes => isWithin changes a b

/-- A distance is small against the length of the words: more than two fifths are unchanged. -/
def isSimilar (a b : List Nat) (distance : Nat) : Bool :=
  let length := max a.length b.length
  2 * length < 5 * (length - distance)

/-- The words close to a word, with their distances. -/
def candidates (word : String) (known : List String) : List (String × Nat) :=
  let a := Text.codeUnits word.toList
  (known.filter fun other => 1 < other.length).filterMap fun other =>
    let b := Text.codeUnits other.toList
    ((distance? a b).filter fun d => isSimilar a b d).map fun d => (other, d)

/-- The words closest to a word, in alphabetical order. -/
def closest (word : String) (known : List String) : List String :=
  let found := candidates word known.eraseDups
  let least := (found.map (·.2)).min?
  let names := found.filterMap fun (other, d) => if some d = least then some other else none
  names.mergeSort fun a b => !Text.precedes b a

/-- What is added to a complaint about an unknown long option. -/
def suggestion (argument : String) (known : List String) : String :=
  match argument.toList with
  | '-' :: '-' :: word =>
    match (closest (String.ofList word) known).map ("--" ++ ·) with
    | [] => ""
    | [only] => "\n(Did you mean " ++ only ++ "?)"
    | several => "\n(Did you mean one of " ++ String.intercalate ", " several ++ "?)"
  | _ => ""

/-- **A word is within no change of itself.** -/
theorem isWithin_self (changes : Nat) (word : List Nat) : isWithin changes word word = true := by
  induction word with
  | nil =>
    unfold isWithin
    simp
  | cons x rest ih =>
    unfold isWithin
    simp [ih]

end RequestRunner.CommandLine
