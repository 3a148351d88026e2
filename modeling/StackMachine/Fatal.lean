import StackMachine.Code.Opcode
/-!
# Fatal errors

Two things can go wrong with a run. A guest fault is the guest's own affair: it has a class and a
value, and guest code can catch it. A fatal error says that the code unit itself is unsound or that
a safety limit was reached; no guest code sees it, and it ends the run. This file names the causes
of fatal errors and the texts that describe them.
-/

namespace StackMachine

/-- What is wrong with an instruction stream or with the tables it points into. -/
inductive Defect where
  /-- An instruction would start behind the end of a stream of `size` bytes. -/
  | pastEnd (size : Nat)
  | truncatedArgument (op : Opcode)
  /-- A place in the `table` of a unit that has only `size` entries. -/
  | noEntry (table : String) (place size : Nat)
  | unknownComparison (selector : Nat)
  | jumpPastEnd (target size : Nat)
  | noCellSlot (slot slots : Nat)
  | noBlock
  /-- A handler was left, but the innermost block is of another kind. -/
  | notInHandler (found : String)
  | continueTarget (found : String)
  | finallyMarker (found : String)
  | mapExpected (found : String)
  | appendDepthZero
  | appendTarget (found : String)
  | keywordName (found : String)
  | codeExpected (found : String)
  | closureNotTuple
  | closureItem (found : String)
  | raiseArity (count : Nat)
  | strayLoopExit
  | freeVariables (unit : String)
  | tooManyParameters (unit : String) (params locals : Nat)
  | noVariadicSlot (unit : String)
  | tooManyDefaults (unit : String) (defaults params : Nat)
  | capturedCells (unit : String) (cells free : Nat)
  deriving DecidableEq, Repr, Inhabited

/-- The words for a defect. -/
def Defect.reason : Defect → String
  | pastEnd size => s!"offset is past the end of the stream ({size} bytes)"
  | truncatedArgument op => "truncated argument for " ++ op.mnemonic
  | noEntry table place size => s!"{table} index {place} out of range ({size} entries)"
  | unknownComparison selector => s!"unknown compare selector {selector}"
  | jumpPastEnd target size =>
    s!"jump target {target} lies beyond the end of the stream ({size} bytes)"
  | noCellSlot slot slots => s!"cell slot {slot} out of range ({slots} slots)"
  | noBlock => "block stack is empty"
  | notInHandler found => s!"expected an exception handler block, found {found}"
  | continueTarget found => s!"invalid continue target {found}"
  | finallyMarker found => s!"END_FINALLY found {found} on the stack"
  | mapExpected found => s!"STORE_MAP into {found}"
  | appendDepthZero => "LIST_APPEND depth is zero"
  | appendTarget found => s!"LIST_APPEND target is {found}"
  | keywordName found => s!"keyword name is {found}"
  | codeExpected found => s!"expected a code unit, found {found}"
  | closureNotTuple => "closure cells must be a tuple"
  | closureItem found => s!"closure tuple holds {found}"
  | raiseArity count => s!"RAISE_VARARGS with {count} arguments"
  | strayLoopExit => "break or continue outside of a loop"
  | freeVariables unit => s!"top-level code '{unit}' has free variables"
  | tooManyParameters unit params locals =>
    s!"{unit}: declares {params} parameters but has {locals} locals"
  | noVariadicSlot unit => s!"{unit}: variadic parameter has no local slot"
  | tooManyDefaults unit defaults params => s!"{unit}: {defaults} defaults for {params} parameters"
  | capturedCells unit cells free =>
    s!"{unit}: {cells} captured cells for {free} free variables"

/-- An error that ends a run. -/
inductive FatalError where
  | malformedCode (offset : Nat) (defect : Defect)
  /-- A byte in opcode position that names no instruction. -/
  | unsupportedOpcode (offset : Nat) (byte : UInt8)
  | stackUnderflow (needed found : Nat)
  | stackOverflow (limit : Nat)
  | stepLimitExceeded (limit : Nat)
  | noActiveFrame
  deriving DecidableEq, Repr, Inhabited

namespace FatalError

/-- A byte as two hexadecimal digits. -/
def byteText (b : UInt8) : String :=
  String.ofList ['0', 'x', Nat.digitChar (b.toNat / 16), Nat.digitChar (b.toNat % 16)]

/-- The words for a fatal error. -/
def message : FatalError → String
  | malformedCode offset defect => s!"malformed code at offset {offset}: " ++ defect.reason
  | unsupportedOpcode offset byte =>
    "unsupported opcode " ++ byteText byte ++ s!" at offset {offset}"
  | stackUnderflow needed found =>
    s!"stack underflow: needed {needed} value(s), found {found}"
  | stackOverflow limit => s!"stack overflow: operand stack exceeded {limit} values"
  | stepLimitExceeded limit => s!"execution step limit exceeded ({limit})"
  | noActiveFrame => "no active frame"

end FatalError

end StackMachine
