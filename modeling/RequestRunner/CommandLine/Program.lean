import RequestRunner.CommandLine.Run
import RequestRunner.CommandLine.Validate

/-!
# The program

The program reads its command line and does what is asked for, for an exit code. It is written for
any system and any scripting language.

Main statement: a command line with faulty options ends with its complaint and the code one
(`program_of_error`).
-/

set_option autoImplicit false

namespace RequestRunner.CommandLine

variable {m : Type → Type} [Monad m] {C : Type}

/-- How the program is used. -/
def usageText : String :=
  "Usage: [run] [options] [files...]\n       validate [options] [files...]\n\n" ++
    String.join ((Command.runOptions ++ Command.globalOptions).map fun o => "  " ++ o.flags ++ "\n")

/-- Does what a command asks for. -/
def Command.perform (system : System m) (language : Language C) : Command → m Nat
  | run files options => options.perform system language files
  | validate files options => options.perform system files
  | version => do
    system.write ⟨.out, CommandLine.version ++ "\n"⟩
    pure 0
  | usage => do
    system.write ⟨.out, usageText⟩
    pure 0

/-- The whole program. -/
def program (system : System m) (language : Language C) (arguments : List String) : m Nat := do
  match Command.ofArguments arguments with
  | .ok command => command.perform system language
  | .error e => do
    system.write ⟨.err, e.message ++ "\n"⟩
    pure 1

/-- **Faulty options end with their complaint and the code one.** -/
theorem program_of_error (system : System m) (language : Language C) {arguments : List String}
    {e : OptionError} (h : Command.ofArguments arguments = .error e) :
    program system language arguments =
      (do system.write ⟨.err, e.message ++ "\n"⟩; pure 1) := by
  rw [program, h]

end RequestRunner.CommandLine
