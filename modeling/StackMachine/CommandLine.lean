import StackMachine.Code.Listing
import StackMachine.Code.Wire
import StackMachine.Run.Machine
import StackMachine.Text.Separated
/-!
# The command line

Two commands work on a file that holds a code unit in binary form: `run` executes it as the main
module, `dis` prints its listing and, if asked to, its statistics. This file says what the arguments
mean and what a command answers; reading the file and printing are left to the caller.
-/

namespace StackMachine

/-- A command with its options. -/
inductive Command where
  | run (file : String) (limits : Limits)
  | dis (file : String) (statistics : Bool)
  deriving DecidableEq, Repr, Inhabited

/-- What a command leaves behind: its exit code and what it wrote. -/
structure Report where
  exitCode : Nat
  out : String
  err : String
  deriving DecidableEq, Repr, Inhabited

namespace Report

def success (out : String) : Report := ⟨0, out, ""⟩

/-- A failure with one line of explanation. -/
def failure (out explanation : String) : Report := ⟨1, out, explanation ++ "\n"⟩

/-- Arguments that are no command. -/
def usageError : Report := ⟨2, "", ""⟩

end Report

namespace CommandLine

/-! ## Arguments -/

/-- An argument: an option with the value that was attached to it, or a plain word. -/
inductive Argument where
  | option (name : String) (attached : Option String)
  | word (text : String)
  deriving DecidableEq, Repr, Inhabited

/-- The two sides of the first equals sign. -/
def splitAtEquals (cs : List Char) : List Char × Option (List Char) :=
  let (name, rest) := cs.span (· != '=')
  match rest with
  | [] => (name, none)
  | _ :: value => (name, some value)

/-- Classifies an argument. A lone dash is a word. -/
def classify (s : String) : Argument :=
  match s.toList with
  | '-' :: '-' :: rest =>
    let (name, value) := splitAtEquals rest
    .option (String.ofList name) (value.map String.ofList)
  | '-' :: _ :: _ => .option s none
  | _ => .word s

/-- The options of a command and the words among them, as they were given. -/
structure Given where
  options : List (String × String) := []
  flags : List String := []
  words : List String := []

/-- Sorts the arguments of a command: `valued` options take a value, attached or in the next
argument, `flags` take none, and behind two dashes everything is a word. An option may be given only
once. -/
def gather (valued flags : List String) (given : Given) : List String → Option Given
  | [] => some given
  | s :: rest =>
    if s = "--" then some { given with words := given.words ++ rest }
    else match classify s with
      | .word w => gather valued flags { given with words := given.words ++ [w] } rest
      | .option name attached =>
        if valued.contains name then
          if (given.options.any fun o => o.1 == name) then none
          else match attached, rest with
            | some value, rest =>
              gather valued flags { given with options := given.options ++ [(name, value)] } rest
            | none, value :: rest =>
              match classify value with
              | .word value =>
                gather valued flags { given with options := given.options ++ [(name, value)] }
                  rest
              | .option .. => none
            | none, [] => none
        else if flags.contains name ∧ attached = none ∧ !given.flags.contains name then
          gather valued flags { given with flags := given.flags ++ [name] } rest
        else none

/-- A limit: decimal digits, perhaps behind a plus sign, whose value fits 64 bits. -/
def readLimit? (s : String) : Option Nat :=
  let digits := match s.toList with
    | '+' :: cs => cs
    | cs => cs
  (Integer.readNat? digits).bind fun n => if n < UInt64.size then some n else none

/-- The value of a limit option: given and sound, or the default. -/
def limit? (given : Given) (name : String) (default : Option Nat) : Option (Option Nat) :=
  match given.options.find? fun o => o.1 == name with
  | none => some default
  | some (_, value) => (readLimit? value).map some

/-- The one file that a command works on. -/
def file? (given : Given) : Option String :=
  match given.words with
  | [file] => if file.isEmpty then none else some file
  | _ => none

/-- The command that the arguments stand for. -/
def parse? : List String → Option Command
  | "run" :: args => do
    let given ← gather ["max-steps", "max-depth", "max-stack"] [] {} args
    let file ← file? given
    let standard : Limits := {}
    let steps ← limit? given "max-steps" none
    let depth ← limit? given "max-depth" (some standard.maxDepth)
    let stack ← limit? given "max-stack" (some standard.maxStack)
    return .run file ⟨depth.getD standard.maxDepth, steps, stack.getD standard.maxStack⟩
  | "dis" :: args => do
    let given ← gather [] ["stats"] {} args
    let file ← file? given
    return .dis file (given.flags.contains "stats")
  | _ => none

/-- How the commands are written. -/
def usage : String :=
  "Usage: run FILE [--max-steps N] [--max-depth N] [--max-stack N]\n       dis FILE [--stats]\n"

/-! ## Files -/

/-- The file that a command works on. -/
def file : Command → String
  | .run file _ => file
  | .dis file _ => file

/-- The parts of a path between its slashes, apart from those that lead nowhere. -/
def pathParts (path : String) : List (List Char) :=
  (Text.split ['/'] path.toList).filter fun part => part != [] && part != ['.']

/-- The last part of a path. -/
def fileName (path : String) : List Char := (pathParts path).getLastD []

/-- What follows the last dot of a file name. A dot at the front does not count. -/
def extension? (name : List Char) : Option (List Char) :=
  let (reversed, rest) := name.reverse.span (· != '.')
  match rest with
  | [] | [_] => none
  | _ => if name = ['.', '.'] then none else some reversed.reverse

/-- Whether the file may hold a code unit, going by its name. -/
def hasUnitExtension (path : String) : Bool := extension? (fileName path) == some "bvm".toList

/-- The code unit in a file, whose bytes or reading error are given. -/
def load (path : String) (content : Except String (List UInt8)) : Except Report CodeUnit :=
  if !hasUnitExtension path then
    .error (.failure "" ("Error: expected a .bvm file, got " ++ path))
  else match content with
    | .error why => .error (.failure "" ("Failed to read '" ++ path ++ "': " ++ why))
    | .ok bytes =>
      match CodeUnit.ofBytes bytes with
      | .error e => .error (.failure "" ("Error: " ++ e.message))
      | .ok unit => .ok unit

/-! ## Commands -/

/-- The answer of `dis`. -/
def disassemble (unit : CodeUnit) (statistics : Bool) : Report :=
  match unit.listingText with
  | .error e => .failure "" ("Error: " ++ e.message)
  | .ok listing =>
    if statistics then
      match unit.statisticsText with
      | .error e => .failure (listing ++ "\n") ("Error: " ++ e.message)
      | .ok text => .success (listing ++ "\n" ++ text)
    else .success listing

/-- Starts `run`. -/
def startRun (unit : CodeUnit) (limits : Limits) : Progress :=
  (Machine.new limits .console).start ⟨0, [], unit⟩ none none

/-- The answer of a finished `run`, apart from what it has printed. -/
def runReport (m : Machine) (result : RunResult) : Report :=
  match result with
  | .ok _ => .success ""
  | .error (.fault f) => .failure "" ("Uncaught exception: " ++ f.report m.heap)
  | .error (.fatal e) => .failure "" ("Machine error: " ++ e.message)

end CommandLine

end StackMachine
