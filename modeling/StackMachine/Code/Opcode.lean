import StackMachine.Code.Operator
/-!
# Opcodes

An instruction starts with the byte of its opcode. Opcodes from `argumentThreshold` on are followed
by a 16-bit argument, low byte first; which table of a unit the argument points into is a matter of
the kind of operand that the opcode has.
-/

namespace StackMachine

/-- What an instruction does, without its argument. -/
inductive Opcode where
  | popTop | rotTwo | rotThree | dupTop
  | unary (op : UnaryOp)
  | binary (op : BinaryOp)
  | storeMap | storeSubscript | getIter
  | printItem | printNewline
  | breakLoop | returnValue | popBlock | endFinally | popExcept
  | loadConst | loadName | storeName | loadGlobal | storeGlobal | loadFast | storeFast
  | loadClosure | loadDeref | storeDeref | loadAttr | storeAttr
  | buildTuple | buildList | buildMap | listAppend | compareOp
  | jumpForward | jumpAbsolute | popJumpIfFalse | popJumpIfTrue
  | jumpIfFalseOrPop | jumpIfTrueOrPop | forIter | continueLoop
  | setupLoop | setupExcept | setupFinally
  | raiseVarargs | callFunction | makeFunction | makeClosure
  deriving DecidableEq, Repr, Inhabited

/-- How an argument is resolved against the tables of a code unit. -/
inductive OperandKind where
  /-- There is no argument. -/
  | none
  /-- A place in the constant pool. -/
  | const
  /-- A place in the name table. -/
  | name
  /-- A place in the table of local variable names. -/
  | localName
  /-- A cell slot: cell variables first, then free variables. -/
  | cell
  /-- A distance from the next instruction. -/
  | relativeJump
  /-- An offset in the stream. -/
  | absoluteJump
  /-- A plain number. -/
  | count
  deriving DecidableEq, Repr, Inhabited

namespace Opcode

/-- Bytes from here on name opcodes that have an argument. -/
def argumentThreshold : UInt8 := 0x50

/-- Every opcode, by byte. -/
def all : List Opcode :=
  [.popTop, .rotTwo, .rotThree, .dupTop, .unary .positive, .unary .negative, .unary .not,
    .unary .invert, .binary .power, .binary .multiply, .binary .floorDivide, .binary .trueDivide,
    .binary .modulo, .binary .add, .binary .subtract, .binary .subscript, .binary .shiftLeft,
    .binary .shiftRight, .binary .and, .binary .xor, .binary .or, .storeMap, .storeSubscript,
    .getIter, .printItem, .printNewline, .breakLoop, .returnValue, .popBlock, .endFinally,
    .popExcept, .loadConst, .loadName, .storeName, .loadGlobal, .storeGlobal, .loadFast,
    .storeFast, .loadClosure, .loadDeref, .storeDeref, .loadAttr, .storeAttr, .buildTuple,
    .buildList, .buildMap, .listAppend, .compareOp, .jumpForward, .jumpAbsolute, .popJumpIfFalse,
    .popJumpIfTrue, .jumpIfFalseOrPop, .jumpIfTrueOrPop, .forIter, .continueLoop, .setupLoop,
    .setupExcept, .setupFinally, .raiseVarargs, .callFunction, .makeFunction, .makeClosure]

/-- The byte that stands for the opcode in a stream. -/
def byte : Opcode → UInt8
  | .popTop => 0x01
  | .rotTwo => 0x02
  | .rotThree => 0x03
  | .dupTop => 0x04
  | .unary .positive => 0x0a
  | .unary .negative => 0x0b
  | .unary .not => 0x0c
  | .unary .invert => 0x0d
  | .binary .power => 0x10
  | .binary .multiply => 0x11
  | .binary .floorDivide => 0x12
  | .binary .trueDivide => 0x13
  | .binary .modulo => 0x14
  | .binary .add => 0x15
  | .binary .subtract => 0x16
  | .binary .subscript => 0x17
  | .binary .shiftLeft => 0x18
  | .binary .shiftRight => 0x19
  | .binary .and => 0x1a
  | .binary .xor => 0x1b
  | .binary .or => 0x1c
  | .storeMap => 0x20
  | .storeSubscript => 0x21
  | .getIter => 0x22
  | .printItem => 0x28
  | .printNewline => 0x29
  | .breakLoop => 0x30
  | .returnValue => 0x31
  | .popBlock => 0x32
  | .endFinally => 0x33
  | .popExcept => 0x34
  | .loadConst => 0x50
  | .loadName => 0x51
  | .storeName => 0x52
  | .loadGlobal => 0x53
  | .storeGlobal => 0x54
  | .loadFast => 0x55
  | .storeFast => 0x56
  | .loadClosure => 0x57
  | .loadDeref => 0x58
  | .storeDeref => 0x59
  | .loadAttr => 0x5a
  | .storeAttr => 0x5b
  | .buildTuple => 0x60
  | .buildList => 0x61
  | .buildMap => 0x62
  | .listAppend => 0x63
  | .compareOp => 0x64
  | .jumpForward => 0x70
  | .jumpAbsolute => 0x71
  | .popJumpIfFalse => 0x72
  | .popJumpIfTrue => 0x73
  | .jumpIfFalseOrPop => 0x74
  | .jumpIfTrueOrPop => 0x75
  | .forIter => 0x76
  | .continueLoop => 0x77
  | .setupLoop => 0x78
  | .setupExcept => 0x79
  | .setupFinally => 0x7a
  | .raiseVarargs => 0x80
  | .callFunction => 0x81
  | .makeFunction => 0x82
  | .makeClosure => 0x83

/-- The opcode that a byte stands for. -/
def ofByte? (byte : UInt8) : Option Opcode :=
  match byte.toNat with
  | 0x01 => some .popTop
  | 0x02 => some .rotTwo
  | 0x03 => some .rotThree
  | 0x04 => some .dupTop
  | 0x0a => some (.unary .positive)
  | 0x0b => some (.unary .negative)
  | 0x0c => some (.unary .not)
  | 0x0d => some (.unary .invert)
  | 0x10 => some (.binary .power)
  | 0x11 => some (.binary .multiply)
  | 0x12 => some (.binary .floorDivide)
  | 0x13 => some (.binary .trueDivide)
  | 0x14 => some (.binary .modulo)
  | 0x15 => some (.binary .add)
  | 0x16 => some (.binary .subtract)
  | 0x17 => some (.binary .subscript)
  | 0x18 => some (.binary .shiftLeft)
  | 0x19 => some (.binary .shiftRight)
  | 0x1a => some (.binary .and)
  | 0x1b => some (.binary .xor)
  | 0x1c => some (.binary .or)
  | 0x20 => some .storeMap
  | 0x21 => some .storeSubscript
  | 0x22 => some .getIter
  | 0x28 => some .printItem
  | 0x29 => some .printNewline
  | 0x30 => some .breakLoop
  | 0x31 => some .returnValue
  | 0x32 => some .popBlock
  | 0x33 => some .endFinally
  | 0x34 => some .popExcept
  | 0x50 => some .loadConst
  | 0x51 => some .loadName
  | 0x52 => some .storeName
  | 0x53 => some .loadGlobal
  | 0x54 => some .storeGlobal
  | 0x55 => some .loadFast
  | 0x56 => some .storeFast
  | 0x57 => some .loadClosure
  | 0x58 => some .loadDeref
  | 0x59 => some .storeDeref
  | 0x5a => some .loadAttr
  | 0x5b => some .storeAttr
  | 0x60 => some .buildTuple
  | 0x61 => some .buildList
  | 0x62 => some .buildMap
  | 0x63 => some .listAppend
  | 0x64 => some .compareOp
  | 0x70 => some .jumpForward
  | 0x71 => some .jumpAbsolute
  | 0x72 => some .popJumpIfFalse
  | 0x73 => some .popJumpIfTrue
  | 0x74 => some .jumpIfFalseOrPop
  | 0x75 => some .jumpIfTrueOrPop
  | 0x76 => some .forIter
  | 0x77 => some .continueLoop
  | 0x78 => some .setupLoop
  | 0x79 => some .setupExcept
  | 0x7a => some .setupFinally
  | 0x80 => some .raiseVarargs
  | 0x81 => some .callFunction
  | 0x82 => some .makeFunction
  | 0x83 => some .makeClosure
  | _ => none

/-- The name that listings and messages show. -/
def mnemonic : Opcode → String
  | .popTop => "POP_TOP"
  | .rotTwo => "ROT_TWO"
  | .rotThree => "ROT_THREE"
  | .dupTop => "DUP_TOP"
  | .unary .positive => "UNARY_POSITIVE"
  | .unary .negative => "UNARY_NEGATIVE"
  | .unary .not => "UNARY_NOT"
  | .unary .invert => "UNARY_INVERT"
  | .binary .power => "BINARY_POWER"
  | .binary .multiply => "BINARY_MULTIPLY"
  | .binary .floorDivide => "BINARY_FLOOR_DIVIDE"
  | .binary .trueDivide => "BINARY_TRUE_DIVIDE"
  | .binary .modulo => "BINARY_MODULO"
  | .binary .add => "BINARY_ADD"
  | .binary .subtract => "BINARY_SUBTRACT"
  | .binary .subscript => "BINARY_SUBSCR"
  | .binary .shiftLeft => "BINARY_LSHIFT"
  | .binary .shiftRight => "BINARY_RSHIFT"
  | .binary .and => "BINARY_AND"
  | .binary .xor => "BINARY_XOR"
  | .binary .or => "BINARY_OR"
  | .storeMap => "STORE_MAP"
  | .storeSubscript => "STORE_SUBSCR"
  | .getIter => "GET_ITER"
  | .printItem => "PRINT_ITEM"
  | .printNewline => "PRINT_NEWLINE"
  | .breakLoop => "BREAK_LOOP"
  | .returnValue => "RETURN_VALUE"
  | .popBlock => "POP_BLOCK"
  | .endFinally => "END_FINALLY"
  | .popExcept => "POP_EXCEPT"
  | .loadConst => "LOAD_CONST"
  | .loadName => "LOAD_NAME"
  | .storeName => "STORE_NAME"
  | .loadGlobal => "LOAD_GLOBAL"
  | .storeGlobal => "STORE_GLOBAL"
  | .loadFast => "LOAD_FAST"
  | .storeFast => "STORE_FAST"
  | .loadClosure => "LOAD_CLOSURE"
  | .loadDeref => "LOAD_DEREF"
  | .storeDeref => "STORE_DEREF"
  | .loadAttr => "LOAD_ATTR"
  | .storeAttr => "STORE_ATTR"
  | .buildTuple => "BUILD_TUPLE"
  | .buildList => "BUILD_LIST"
  | .buildMap => "BUILD_MAP"
  | .listAppend => "LIST_APPEND"
  | .compareOp => "COMPARE_OP"
  | .jumpForward => "JUMP_FORWARD"
  | .jumpAbsolute => "JUMP_ABSOLUTE"
  | .popJumpIfFalse => "POP_JUMP_IF_FALSE"
  | .popJumpIfTrue => "POP_JUMP_IF_TRUE"
  | .jumpIfFalseOrPop => "JUMP_IF_FALSE_OR_POP"
  | .jumpIfTrueOrPop => "JUMP_IF_TRUE_OR_POP"
  | .forIter => "FOR_ITER"
  | .continueLoop => "CONTINUE_LOOP"
  | .setupLoop => "SETUP_LOOP"
  | .setupExcept => "SETUP_EXCEPT"
  | .setupFinally => "SETUP_FINALLY"
  | .raiseVarargs => "RAISE_VARARGS"
  | .callFunction => "CALL_FUNCTION"
  | .makeFunction => "MAKE_FUNCTION"
  | .makeClosure => "MAKE_CLOSURE"

/-- The opcode with the given mnemonic. -/
def ofMnemonic? (s : String) : Option Opcode := all.find? fun op => op.mnemonic == s

def hasArgument (op : Opcode) : Bool := argumentThreshold ≤ op.byte

/-- The number of bytes of the instruction, argument included. -/
def width (op : Opcode) : Nat := if op.hasArgument then 3 else 1

def operandKind : Opcode → OperandKind
  | .loadConst => .const
  | .loadName | .storeName | .loadGlobal | .storeGlobal | .loadAttr | .storeAttr => .name
  | .loadFast | .storeFast => .localName
  | .loadClosure | .loadDeref | .storeDeref => .cell
  | .jumpForward | .forIter | .setupLoop | .setupExcept | .setupFinally => .relativeJump
  | .jumpAbsolute | .popJumpIfFalse | .popJumpIfTrue | .jumpIfFalseOrPop | .jumpIfTrueOrPop
  | .continueLoop => .absoluteJump
  | .buildTuple | .buildList | .buildMap | .listAppend | .compareOp | .raiseVarargs
  | .callFunction | .makeFunction | .makeClosure => .count
  | _ => .none

/-- Whether the opcode's argument names a place in the stream. -/
def isJump (op : Opcode) : Bool :=
  op.operandKind == .relativeJump || op.operandKind == .absoluteJump

/-- Every opcode can be read back from its byte. -/
theorem ofByte?_byte (op : Opcode) : ofByte? op.byte = some op := by
  cases op with
  | unary o => cases o <;> rfl
  | binary o => cases o <;> rfl
  | _ => rfl

end Opcode

end StackMachine
