import StackMachine.Code.Instruction
/-!
# Assembling code units

An assembler builds a unit instruction by instruction. Constants, names and locals are entered into
the unit's tables where they are first used, and jumps name labels whose offsets may become known
later: each jump is written with a zero argument and remembered, and `finish` fills all of them in.

Errors do not interrupt assembling. The first one is kept, and only `finish` reports it.
-/

namespace StackMachine

/-- Why no unit results from an assembly. -/
inductive AssembleError where
  | unboundLabel (label : Nat)
  | labelRebound (label : Nat)
  | argumentOverflow (op : Opcode) (argument : Nat)
  | argumentMismatch (op : Opcode) (takesArgument : Bool)
  | backwardRelativeJump (op : Opcode) (offset : Nat)
  | unknownCell (name : String)
  deriving DecidableEq, Repr, Inhabited

/-- The words for an assembly error. -/
def AssembleError.message : AssembleError → String
  | unboundLabel label => s!"label {label} is jumped to but never bound"
  | labelRebound label => s!"label {label} is bound twice"
  | argumentOverflow op argument =>
    s!"argument {argument} of " ++ op.mnemonic ++ " does not fit in 16 bits"
  | argumentMismatch op takesArgument =>
    op.mnemonic ++ if takesArgument then " requires an argument" else " takes no argument"
  | backwardRelativeJump op offset =>
    op.mnemonic ++ s!" at offset {offset} cannot jump backwards"
  | unknownCell name => s!"no cell or free variable named '{name}'"

/-- A jump whose argument is not filled in yet. -/
structure Fixup where
  /-- The offset of the jump instruction. -/
  offset : Nat
  op : Opcode
  label : Nat
  deriving DecidableEq, Repr, Inhabited

/-- A unit under construction. -/
structure Assembler where
  unit : CodeUnit
  /-- The offsets of the labels that are bound already, by label. -/
  labels : Array (Option Nat)
  /-- The jumps to fill in, in the order of their emission. -/
  fixups : Array Fixup
  error? : Option AssembleError

namespace Assembler

/-- Arguments have 16 bits. -/
def argumentBound : Nat := 65536

/-- The place of a name in a table, which is extended by the name if it is new. -/
def intern (table : List String) (name : String) : Nat × List String :=
  match table.findIdx? (· == name) with
  | some place => (place, table)
  | none => (table.length, table ++ [name])

/-- Starts a unit. -/
def start (name : String) : Assembler := ⟨.named name, #[], #[], none⟩

/-- Notes an error, unless one has been noted before. -/
def fail (a : Assembler) (e : AssembleError) : Assembler :=
  match a.error? with
  | some _ => a
  | none => { a with error? := some e }

/-! ## The header -/

/-- Declares the parameters. -/
def params (a : Assembler) (names : List String) : Assembler :=
  { a with unit := { a.unit with paramCount := UInt64.ofNat names.length, localNames := names } }

/-- Declares the variadic parameter, whose place is behind the parameters. -/
def variadic (a : Assembler) (name : String) : Assembler :=
  let place := min a.unit.paramCount.toNat a.unit.localNames.length
  let localNames := a.unit.localNames.take place ++ name :: a.unit.localNames.drop place
  { a with unit := { a.unit with localNames := localNames, variadic := true } }

/-- Declares further locals. -/
def locals (a : Assembler) (names : List String) : Assembler :=
  let localNames := names.foldl (fun table name => (intern table name).2) a.unit.localNames
  { a with unit := { a.unit with localNames := localNames } }

def cells (a : Assembler) (names : List String) : Assembler :=
  { a with unit := { a.unit with cellNames := names } }

def free (a : Assembler) (names : List String) : Assembler :=
  { a with unit := { a.unit with freeNames := names } }

/-! ## Emission -/

/-- The offset of the next instruction. -/
def offset (a : Assembler) : Nat := a.unit.size

/-- Appends bytes to the stream. -/
def append (a : Assembler) (bytes : List UInt8) : Assembler :=
  { a with unit := { a.unit with code := a.unit.code ++ bytes } }

/-- Emits an instruction without argument. -/
def emit (a : Assembler) (op : Opcode) : Assembler :=
  let a := if op.hasArgument then a.fail (.argumentMismatch op true) else a
  a.append [op.byte]

/-- Emits an instruction with an argument. -/
def emitArg (a : Assembler) (op : Opcode) (argument : Nat) : Assembler :=
  if !op.hasArgument then (a.fail (.argumentMismatch op false)).append (op.encode 0)
  else if argument < argumentBound then a.append (op.encode argument)
  else (a.fail (.argumentOverflow op argument)).append (op.encode 0)

/-! ## Operands -/

/-- Loads a constant, sharing its place in the pool with an interchangeable one. -/
def loadConst (a : Assembler) (constant : Const) : Assembler :=
  match a.unit.consts.findIdx? fun c => c.interchangeable constant with
  | some place => a.emitArg .loadConst place
  | none =>
    let place := a.unit.consts.length
    let a := { a with unit := { a.unit with consts := a.unit.consts ++ [constant] } }
    a.emitArg .loadConst place

/-- Emits an instruction whose argument is a name. -/
def emitName (a : Assembler) (op : Opcode) (name : String) : Assembler :=
  let (place, names) := intern a.unit.names name
  { a with unit := { a.unit with names := names } }.emitArg op place

/-- Emits an instruction whose argument is a local variable. -/
def emitLocal (a : Assembler) (op : Opcode) (name : String) : Assembler :=
  let (place, localNames) := intern a.unit.localNames name
  { a with unit := { a.unit with localNames := localNames } }.emitArg op place

/-- Emits an instruction whose argument is a cell slot. -/
def emitCell (a : Assembler) (op : Opcode) (name : String) : Assembler :=
  match a.unit.slotNames.findIdx? (· == name) with
  | some slot => a.emitArg op slot
  | none => (a.fail (.unknownCell name)).emitArg op 0

/-- Emits a comparison. -/
def compare (a : Assembler) (op : CompareOp) : Assembler := a.emitArg .compareOp op.selector

/-- Emits a call with numbers of positional and keyword arguments, one byte each. -/
def call (a : Assembler) (positional keyword : Nat) : Assembler :=
  let a :=
    if 255 < positional ∨ 255 < keyword then
      a.fail (.argumentOverflow .callFunction (max positional keyword))
    else a
  a.emitArg .callFunction (keyword % 256 * 256 + positional % 256)

/-! ## Labels -/

/-- A new label and the assembler that knows it. -/
def newLabel (a : Assembler) : Nat × Assembler :=
  (a.labels.size, { a with labels := a.labels.push none })

/-- The offset that a label is bound to. -/
def labelOffset? (a : Assembler) (label : Nat) : Option Nat := (a.labels[label]?).join

/-- Binds a label to the current offset. -/
def bind (a : Assembler) (label : Nat) : Assembler :=
  match a.labelOffset? label with
  | some _ => a.fail (.labelRebound label)
  | none => { a with labels := a.labels.setIfInBounds label (some a.offset) }

/-- Emits a jump to a label. -/
def jump (a : Assembler) (op : Opcode) (label : Nat) : Assembler :=
  let a := if op.isJump then a else a.fail (.argumentMismatch op op.hasArgument)
  { a with fixups := a.fixups.push ⟨a.offset, op, label⟩ }.emitArg op 0

/-! ## Finishing -/

/-- The argument of a jump, now that its label is bound. -/
def jumpArgument (a : Assembler) (f : Fixup) : Except AssembleError Nat :=
  match a.labelOffset? f.label with
  | none => .error (.unboundLabel f.label)
  | some target =>
    let next := f.offset + f.op.width
    if f.op.operandKind = .relativeJump ∧ target < next then
      .error (.backwardRelativeJump f.op f.offset)
    else
      let argument := if f.op.operandKind = .relativeJump then target - next else target
      if argument < argumentBound then .ok argument
      else .error (.argumentOverflow f.op argument)

/-- Fills in the argument of the instruction at an offset. -/
def patch (code : Array UInt8) (offset argument : Nat) : Array UInt8 :=
  (code.setIfInBounds (offset + 1) (UInt8.ofNat (argument % 256))).setIfInBounds (offset + 2)
    (UInt8.ofNat (argument / 256))

/-- Fills in the arguments of jumps one after the other. -/
def patchAll (a : Assembler) (code : Array UInt8) :
    List Fixup → Except AssembleError (Array UInt8)
  | [] => .ok code
  | f :: rest =>
    match a.jumpArgument f with
    | .error e => .error e
    | .ok argument => a.patchAll (patch code f.offset argument) rest

/-- The finished unit, or the first error. -/
def finish (a : Assembler) : Except AssembleError CodeUnit :=
  match a.error? with
  | some e => .error e
  | none => (a.patchAll a.unit.code a.fixups.toList).map fun code => { a.unit with code := code }

end Assembler

end StackMachine
