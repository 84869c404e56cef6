import RequestRunner.Text.Units

/-!
# Options of a command line

Arguments are options, the values of options, and operands. `readOptions` reads a list of arguments
by the options that are known: an option that is not known is set aside together with every argument
behind it that is no known option, so that another list of options may be tried on them.

Options are written long (`--name`, `--name=value`) or short (`-n`, `-nvalue`); short options without
values may share a dash. Two dashes end the options.

Main statement: arguments of which none begins with a dash are operands (`readOptions_operands`).
-/

set_option autoImplicit false

namespace RequestRunner.CommandLine

/-- A known option. -/
structure OptionSpec where
  /-- The letter of its short form. -/
  short : Option Char
  /-- Its name. -/
  long : String
  /-- How its value is named, if it takes one. -/
  value : Option String
  deriving DecidableEq, Repr

namespace OptionSpec

/-- The long form. -/
def longFlag (o : OptionSpec) : String := "--" ++ o.long

/-- The option as it is named in messages. -/
def flags (o : OptionSpec) : String :=
  let short := match o.short with
    | some c => "-" ++ c.toString ++ ", "
    | none => ""
  let value := match o.value with
    | some name => " <" ++ name ++ ">"
    | none => ""
  short ++ o.longFlag ++ value

/-- The option takes a value. -/
def takesValue (o : OptionSpec) : Bool := o.value.isSome

/-- An argument is the option, in one of its two forms. -/
def isWritten (o : OptionSpec) (argument : String) : Bool :=
  argument == o.longFlag || o.short.any fun c => argument == "-" ++ c.toString

end OptionSpec

/-- What is wrong with the options of a command line. -/
inductive OptionError where
  /-- An option that is not known. -/
  | unknown (argument : String) (suggestion : String)
  /-- An option whose value is missing. -/
  | missingValue (option : OptionSpec)

/-- The wording. -/
def OptionError.message : OptionError → String
  | unknown argument suggestion => "error: unknown option '" ++ argument ++ "'" ++ suggestion
  | missingValue option => "error: option '" ++ option.flags ++ "' argument missing"

/-- What arguments were read as. -/
structure Reading where
  /-- Options that were set, by their names, with their values. -/
  settings : List (String × Option String)
  /-- Operands. -/
  operands : List String
  /-- The first unknown option, and what was set aside behind it. -/
  unknown : List String

namespace Reading

/-- Nothing read. -/
def empty : Reading := ⟨[], [], []⟩

/-- With an option set. -/
def withSetting (r : Reading) (o : OptionSpec) (value : Option String) : Reading :=
  { r with settings := r.settings ++ [(o.long, value)] }

/-- With arguments that are no options: they are operands, unless an unknown option came before. -/
def withOperands (r : Reading) (arguments : List String) : Reading :=
  if r.unknown.isEmpty then { r with operands := r.operands ++ arguments }
  else { r with unknown := r.unknown ++ arguments }

/-- With an option that is not known. -/
def withUnknown (r : Reading) (argument : String) : Reading :=
  { r with unknown := r.unknown ++ [argument] }

/-- The option was set. -/
def isSet (r : Reading) (name : String) : Bool := r.settings.any fun (other, _) => other == name

/-- The value that an option was last set to. -/
def value? (r : Reading) (name : String) : Option String :=
  (r.settings.reverse.find? fun (other, _) => other == name).bind (·.2)

end Reading

/-- The argument may be an option: it begins with a dash and is more than the dash. -/
def looksLikeOption (argument : String) : Bool :=
  match argument.toList with
  | '-' :: _ :: _ => true
  | _ => false

/-- The forms in which an argument may hold more than one option, or an option and its value. -/
inductive Compound where
  /-- A short option with letters behind it. -/
  | group (option : OptionSpec) (rest : String)
  /-- A long option with a value behind an equals sign. -/
  | assignment (option : OptionSpec) (value : String)
  /-- Neither. -/
  | neither

/-- The known option that a text writes out. -/
def find? (known : List OptionSpec) (argument : String) : Option OptionSpec :=
  known.find? fun o => o.isWritten argument

/-- The long option and the value of an argument with an equals sign. -/
def assignment (known : List OptionSpec) (argument : String) : Compound :=
  let name := argument.toList.takeWhile (· != '=')
  let found := (find? known (String.ofList name)).filter OptionSpec.takesValue
  match found, argument.toList.drop name.length with
  | some o, _ :: value => .assignment o (String.ofList value)
  | _, _ => .neither

/-- What an argument holds that is no option as a whole. -/
def compound (known : List OptionSpec) (argument : String) : Compound :=
  match argument.toList with
  | '-' :: '-' :: c :: _ => if c = '=' then .neither else assignment known argument
  | '-' :: c :: d :: rest =>
    match find? known ("-" ++ c.toString) with
    | some o => .group o (String.ofList (d :: rest))
    | none => .neither
  | _ => .neither

/-- Reads arguments after those already read. Letters behind a short option without a value are read
again behind a dash of their own. -/
def readFrom (known : List OptionSpec) : Nat → Reading → List String → Except OptionError Reading
  | 0, r, _ => .ok r
  | _ + 1, r, [] => .ok r
  | n + 1, r, argument :: rest =>
    if argument = "--" then
      -- behind an unknown option the two dashes are kept for the next reading
      .ok (r.withOperands (if r.unknown.isEmpty then rest else "--" :: rest))
    else if !looksLikeOption argument then readFrom known n (r.withOperands [argument]) rest
    else
      match find? known argument with
      | some o =>
        -- the argument behind an option is its value, whatever it looks like
        if o.takesValue then
          match rest with
          | [] => .error (.missingValue o)
          | value :: rest => readFrom known n (r.withSetting o (some value)) rest
        else readFrom known n (r.withSetting o none) rest
      | none =>
        match compound known argument with
        | .group o letters =>
          if o.takesValue then readFrom known n (r.withSetting o (some letters)) rest
          else readFrom known n (r.withSetting o none) (("-" ++ letters) :: rest)
        | .assignment o value => readFrom known n (r.withSetting o (some value)) rest
        | .neither => readFrom known n (r.withUnknown argument) rest

/-- Reads arguments. -/
def readOptions (known : List OptionSpec) (arguments : List String) : Except OptionError Reading :=
  readFrom known (arguments.foldr (fun a size => a.length + 1 + size) 0) Reading.empty arguments

theorem readFrom_operands (known : List OptionSpec) (n : Nat) (r : Reading)
    (arguments : List String) (hn : arguments.length ≤ n) (hr : r.unknown = [])
    (ha : ∀ a ∈ arguments, a ≠ "--" ∧ looksLikeOption a = false) :
    readFrom known n r arguments = .ok { r with operands := r.operands ++ arguments } := by
  induction arguments generalizing n r with
  | nil => cases n <;> simp [readFrom]
  | cons a rest ih =>
    cases n with
    | zero => simp at hn
    | succ n =>
      obtain ⟨hne, hl⟩ := ha a List.mem_cons_self
      simp only [readFrom, hne, if_false, hl, Bool.not_false, if_true]
      rw [ih n _ (by simpa using hn) (by simp [Reading.withOperands, hr])
        fun b hb => ha b (List.mem_cons_of_mem _ hb)]
      simp [Reading.withOperands, hr]

theorem length_le_foldr (arguments : List String) :
    arguments.length ≤ arguments.foldr (fun a size => a.length + 1 + size) 0 := by
  induction arguments with
  | nil => exact Nat.le_refl 0
  | cons a rest ih =>
    simp only [List.length_cons, List.foldr_cons]
    omega

/-- **Arguments of which none begins with a dash are operands.** -/
theorem readOptions_operands (known : List OptionSpec) (arguments : List String)
    (h : ∀ a ∈ arguments, a.toList.head? ≠ some '-') :
    readOptions known arguments = .ok ⟨[], arguments, []⟩ := by
  unfold readOptions
  rw [readFrom_operands known _ Reading.empty arguments (length_le_foldr arguments) rfl]
  · simp [Reading.empty]
  · intro a ha
    have hd := h a ha
    constructor
    · rintro rfl
      exact hd (by decide)
    · unfold looksLikeOption
      split
      · next heq => exact absurd (by simp [heq]) hd
      · rfl

end RequestRunner.CommandLine
