import StackMachine.CommandLine
/-!
# The program

Reads the file that the command names, runs a machine to its end, and prints.
-/

namespace StackMachine

/-- Steps between two writes to the console. -/
def chunk : Nat := 4096

/-- Runs a machine to its end and writes what it prints as it goes. -/
partial def runToEnd (p : Progress) : IO Report := do
  match Machine.advance chunk p with
  | .running m =>
    let (text, output) := m.output.flush
    IO.print text
    runToEnd (.running { m with output := output })
  | .finished m result =>
    IO.print m.output.text
    return CommandLine.runReport m result

/-- Why a file could not be read, in the words and with the number of the operating system. -/
def reason : IO.Error → String
  | .noFileOrDirectory .. => "No such file or directory (os error 2)"
  | .permissionDenied .. => "Permission denied (os error 13)"
  | .inappropriateType _ code _ =>
    if code = 21 then "Is a directory (os error 21)" else "Not a directory (os error 20)"
  | e => toString e

/-- The content of a file, or why it cannot be read. -/
def readFile (path : String) : IO (Except String (List UInt8)) := do
  try
    let bytes ← IO.FS.readBinFile path
    return .ok bytes.toList
  catch e => return .error (reason e)

/-- Carries out a command. -/
def carryOut (command : Command) : IO Report := do
  let path := CommandLine.file command
  let content ←
    if CommandLine.hasUnitExtension path then readFile path else pure (.error "")
  match CommandLine.load path content with
  | .error report => return report
  | .ok unit =>
    match command with
    | .run _ limits => runToEnd (CommandLine.startRun unit limits)
    | .dis _ statistics => return CommandLine.disassemble unit statistics

end StackMachine

def main (args : List String) : IO UInt32 := do
  let report ← match StackMachine.CommandLine.parse? args with
    | some command => StackMachine.carryOut command
    | none => do
      IO.eprint StackMachine.CommandLine.usage
      pure .usageError
  IO.print report.out
  IO.eprint report.err
  return report.exitCode.toUInt32
