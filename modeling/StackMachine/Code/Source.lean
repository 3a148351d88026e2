import StackMachine.Code.Assembly
/-!
# Assembly sources

What is to be assembled, as data: the name of a unit, the declarations of its header and the
statements of its body. Every declaration and every statement is one call of the assembler, so to
assemble a source is to make these calls in order and then to finish the unit.

A statement that names a variable can only be made of an opcode whose operand is a name of that
kind. Labels are numbers, given out in the order of their declaration.
-/

namespace StackMachine

/-- A part of a unit's header. -/
inductive Declaration where
  | params (names : List String)
  | variadic (name : String)
  | locals (names : List String)
  | cells (names : List String)
  | free (names : List String)
  deriving DecidableEq, Repr, Inhabited

/-- A part of a unit's body: an instruction, or something about a label. -/
inductive Statement where
  | plain (op : Opcode)
  | argument (op : Opcode) (argument : Nat)
  | const (constant : Const)
  | name (op : Opcode) (name : String) (kind : op.operandKind = .name)
  | localName (op : Opcode) (name : String) (kind : op.operandKind = .localName)
  | cell (op : Opcode) (name : String) (kind : op.operandKind = .cell)
  | compare (op : CompareOp)
  | call (positional keyword : Nat)
  /-- Declares the next label. -/
  | label
  /-- Gives a label its place. -/
  | bind (label : Nat)
  | jump (op : Opcode) (label : Nat)

/-- A unit that is to be assembled. -/
structure Source where
  name : String
  header : List Declaration
  body : List Statement

namespace Assembler

/-- Makes a declaration. -/
def declare (a : Assembler) : Declaration → Assembler
  | .params names => a.params names
  | .variadic name => a.variadic name
  | .locals names => a.locals names
  | .cells names => a.cells names
  | .free names => a.free names

/-- Writes a statement. -/
def write (a : Assembler) : Statement → Assembler
  | .plain op => a.emit op
  | .argument op argument => a.emitArg op argument
  | .const constant => a.loadConst constant
  | .name op name _ => a.emitName op name
  | .localName op name _ => a.emitLocal op name
  | .cell op name _ => a.emitCell op name
  | .compare op => a.compare op
  | .call positional keyword => a.call positional keyword
  | .label => a.newLabel.2
  | .bind label => a.bind label
  | .jump op label => a.jump op label

/-- Makes declarations one after the other. -/
def declareAll (a : Assembler) (header : List Declaration) : Assembler := header.foldl declare a

/-- Writes statements one after the other. -/
def writeAll (a : Assembler) (body : List Statement) : Assembler := body.foldl write a

end Assembler

namespace Source

/-- The assembler that has written a whole source. -/
def written (s : Source) : Assembler :=
  ((Assembler.start s.name).declareAll s.header).writeAll s.body

/-- The unit that a source describes, or the first thing that is wrong with it. -/
def assemble (s : Source) : Except AssembleError CodeUnit := s.written.finish

end Source

end StackMachine
