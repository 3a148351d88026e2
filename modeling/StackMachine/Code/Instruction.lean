import StackMachine.Code.Unit
import StackMachine.Fatal
/-!
# Instructions

Writing and reading an instruction stream. `Opcode.encode` gives the bytes of an instruction, and
`fetch` takes the opcode and the raw argument at an offset and says where the next instruction
starts.

What a raw argument stands for is asked twice. `operand` looks it up by the kind of operand that the
opcode has, which is what listings show; `decode` makes the `Instruction` that a machine executes,
and there each opcode says for itself how its argument is resolved. Both go to the tables of the
unit by way of a `RawArgument`. That they agree is a fact about the two mappings; where the operand
is a plain number they need not, and the selector of a comparison is checked by `decode` alone.
-/

namespace StackMachine

/-- An instruction with its argument resolved. Jump targets are offsets in the stream. -/
inductive Instruction where
  | popTop | rotTwo | rotThree | dupTop
  | unary (op : UnaryOp)
  | binary (op : BinaryOp)
  | compare (op : CompareOp)
  | buildTuple (count : Nat)
  | buildList (count : Nat)
  | buildMap (sizeHint : Nat)
  | storeMap | storeSubscript
  | listAppend (depth : Nat)
  /-- Loads the constant at a place of the pool. -/
  | loadConst (place : Nat) (constant : Const)
  | loadName (name : String)
  | storeName (name : String)
  | loadGlobal (name : String)
  | storeGlobal (name : String)
  | loadFast (name : String)
  | storeFast (name : String)
  | loadClosure (slot : Nat)
  | loadDeref (slot : Nat)
  | storeDeref (slot : Nat)
  | loadAttr (name : String)
  | storeAttr (name : String)
  | jumpForward (target : Nat)
  | jumpAbsolute (target : Nat)
  | popJumpIfFalse (target : Nat)
  | popJumpIfTrue (target : Nat)
  | jumpIfFalseOrPop (target : Nat)
  | jumpIfTrueOrPop (target : Nat)
  | getIter
  | forIter (exit : Nat)
  | setupLoop (exit : Nat)
  | setupExcept (handler : Nat)
  | setupFinally (handler : Nat)
  | popBlock | breakLoop
  | continueLoop (target : Nat)
  | popExcept | endFinally
  | raiseVarargs (count : Nat)
  | makeFunction (defaults : Nat)
  | makeClosure (defaults : Nat)
  | callFunction (positional keyword : Nat)
  | returnValue
  | printItem | printNewline

/-- A resolved argument. -/
inductive Operand where
  | none
  | const (place : Nat) (constant : Const)
  | name (name : String)
  | cell (slot : Nat) (name : String)
  | target (offset : Nat)
  | count (n : Nat)

/-- What stands at an offset: an opcode, its raw argument, and the offset behind it. -/
structure Fetched where
  op : Opcode
  raw : Nat
  next : Nat

/-- The bytes of an instruction: its opcode and, if there is one, its argument, low byte first. -/
def Opcode.encode (op : Opcode) (raw : Nat) : List UInt8 :=
  if op.hasArgument then [op.byte, UInt8.ofNat (raw % 256), UInt8.ofNat (raw / 256)]
  else [op.byte]

namespace CodeUnit

/-! ## Fetching -/

/-- Reads the opcode and the raw argument at an offset; at the very end of the stream there is
nothing to read. -/
def fetch (unit : CodeUnit) (offset : Nat) : Except FatalError (Option Fetched) :=
  if offset = unit.size then .ok none
  else match unit.code[offset]? with
    | none => .error (.malformedCode offset (.pastEnd unit.size))
    | some byte =>
      match Opcode.ofByte? byte with
      | none => .error (.unsupportedOpcode offset byte)
      | some op =>
        if op.hasArgument then
          match unit.code[offset + 1]?, unit.code[offset + 2]? with
          | some low, some high => .ok (some ⟨op, low.toNat + 256 * high.toNat, offset + 3⟩)
          | _, _ => .error (.malformedCode offset (.truncatedArgument op))
        else .ok (some ⟨op, 0, offset + 1⟩)

/-! ## Resolving -/

/-- An entry of one of the unit's tables. -/
def entry {α : Type} (table : String) (entries : List α) (offset place : Nat) :
    Except FatalError α :=
  match entries[place]? with
  | some x => .ok x
  | none => .error (.malformedCode offset (.noEntry table place entries.length))

/-- A jump may lead to any offset up to the end of the stream. -/
def jumpTarget (unit : CodeUnit) (offset target : Nat) : Except FatalError Nat :=
  if target ≤ unit.size then .ok target
  else .error (.malformedCode offset (.jumpPastEnd target unit.size))

end CodeUnit

/-- A raw argument where it stands: in a unit, between the offset of its instruction and that of the
next one. -/
structure RawArgument where
  unit : CodeUnit
  offset : Nat
  next : Nat
  raw : Nat

namespace RawArgument

def constant (a : RawArgument) : Except FatalError Const :=
  CodeUnit.entry "constant" a.unit.consts a.offset a.raw

def name (a : RawArgument) : Except FatalError String :=
  CodeUnit.entry "name" a.unit.names a.offset a.raw

def localName (a : RawArgument) : Except FatalError String :=
  CodeUnit.entry "local" a.unit.localNames a.offset a.raw

/-- The slot of a cell. -/
def slot (a : RawArgument) : Except FatalError Nat :=
  if a.raw < a.unit.slotCount then .ok a.raw
  else .error (.malformedCode a.offset (.noEntry "cell" a.raw a.unit.slotCount))

/-- The comparison that a selector stands for. -/
def comparison (a : RawArgument) : Except FatalError CompareOp :=
  match CompareOp.ofSelector? a.raw with
  | some op => .ok op
  | none => .error (.malformedCode a.offset (.unknownComparison a.raw))

/-- A place given by its distance from the next instruction. -/
def relativeTarget (a : RawArgument) : Except FatalError Nat :=
  a.unit.jumpTarget a.offset (a.next + a.raw)

/-- A place given by its offset. -/
def absoluteTarget (a : RawArgument) : Except FatalError Nat :=
  a.unit.jumpTarget a.offset a.raw

/-- The instruction of an opcode with this argument. -/
def instruction (a : RawArgument) : Opcode → Except FatalError Instruction
  | .popTop => .ok .popTop
  | .rotTwo => .ok .rotTwo
  | .rotThree => .ok .rotThree
  | .dupTop => .ok .dupTop
  | .unary op => .ok (.unary op)
  | .binary op => .ok (.binary op)
  | .storeMap => .ok .storeMap
  | .storeSubscript => .ok .storeSubscript
  | .getIter => .ok .getIter
  | .printItem => .ok .printItem
  | .printNewline => .ok .printNewline
  | .breakLoop => .ok .breakLoop
  | .returnValue => .ok .returnValue
  | .popBlock => .ok .popBlock
  | .endFinally => .ok .endFinally
  | .popExcept => .ok .popExcept
  | .loadConst => a.constant.map (.loadConst a.raw)
  | .loadName => a.name.map .loadName
  | .storeName => a.name.map .storeName
  | .loadGlobal => a.name.map .loadGlobal
  | .storeGlobal => a.name.map .storeGlobal
  | .loadFast => a.localName.map .loadFast
  | .storeFast => a.localName.map .storeFast
  | .loadClosure => a.slot.map .loadClosure
  | .loadDeref => a.slot.map .loadDeref
  | .storeDeref => a.slot.map .storeDeref
  | .loadAttr => a.name.map .loadAttr
  | .storeAttr => a.name.map .storeAttr
  | .buildTuple => .ok (.buildTuple a.raw)
  | .buildList => .ok (.buildList a.raw)
  | .buildMap => .ok (.buildMap a.raw)
  | .listAppend => .ok (.listAppend a.raw)
  | .compareOp => a.comparison.map .compare
  | .jumpForward => a.relativeTarget.map .jumpForward
  | .jumpAbsolute => a.absoluteTarget.map .jumpAbsolute
  | .popJumpIfFalse => a.absoluteTarget.map .popJumpIfFalse
  | .popJumpIfTrue => a.absoluteTarget.map .popJumpIfTrue
  | .jumpIfFalseOrPop => a.absoluteTarget.map .jumpIfFalseOrPop
  | .jumpIfTrueOrPop => a.absoluteTarget.map .jumpIfTrueOrPop
  | .forIter => a.relativeTarget.map .forIter
  | .continueLoop => a.absoluteTarget.map .continueLoop
  | .setupLoop => a.relativeTarget.map .setupLoop
  | .setupExcept => a.relativeTarget.map .setupExcept
  | .setupFinally => a.relativeTarget.map .setupFinally
  | .raiseVarargs => .ok (.raiseVarargs a.raw)
  | .callFunction => .ok (.callFunction (a.raw % 256) (a.raw / 256))
  | .makeFunction => .ok (.makeFunction a.raw)
  | .makeClosure => .ok (.makeClosure a.raw)

end RawArgument

namespace CodeUnit

/-- Resolves the raw argument of an instruction at `offset` by the class of its opcode. -/
def operand (unit : CodeUnit) (op : Opcode) (raw offset : Nat) : Except FatalError Operand :=
  let a : RawArgument := ⟨unit, offset, offset + op.width, raw⟩
  match op.operandKind with
  | .none => .ok .none
  | .const => a.constant.map (.const raw)
  | .name => a.name.map .name
  | .localName => a.localName.map .name
  | .cell => a.slot.map fun slot => .cell slot ((unit.slotName? slot).getD "?")
  | .relativeJump => a.relativeTarget.map .target
  | .absoluteJump => a.absoluteTarget.map .target
  | .count => .ok (.count raw)

/-! ## Decoding -/

/-- The instruction at an offset and the offset of the next one. -/
def decode (unit : CodeUnit) (offset : Nat) : Except FatalError (Option (Instruction × Nat)) :=
  match unit.fetch offset with
  | .error e => .error e
  | .ok none => .ok none
  | .ok (some ⟨op, raw, next⟩) =>
    match RawArgument.instruction ⟨unit, offset, next, raw⟩ op with
    | .error e => .error e
    | .ok i => .ok (some (i, next))

/-! ## Walking a stream -/

/-- What a walk meets: the instructions with their offsets, in order. -/
abbrev Walk := List (Nat × Fetched)

/-- The instructions from `offset` on, up to the end of the stream. An instruction is at least one
byte long, so the number of bytes bounds the number of steps. -/
def walkFrom (unit : CodeUnit) (offset : Nat) : Nat → Except FatalError Walk
  | 0 => .ok []
  | fuel + 1 =>
    match unit.fetch offset with
    | .error e => .error e
    | .ok none => .ok []
    | .ok (some f) => (unit.walkFrom f.next fuel).map ((offset, f) :: ·)

/-- All instructions of a unit with their offsets. -/
def walk (unit : CodeUnit) : Except FatalError Walk := unit.walkFrom 0 (unit.size + 1)

end CodeUnit

end StackMachine
