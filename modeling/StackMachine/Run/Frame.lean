import StackMachine.Fatal
import StackMachine.Object.Rendering
import StackMachine.Run.Output
/-!
# Frames

A frame is one activation of a code unit: an operand stack, a stack of blocks, the tables in which
names are looked up, and the cells of the variables shared with other activations. An instruction
sees exactly one frame, together with what all frames share: the heap, the last fault and the
output. That is an `Activation`, and the programs here work on it. Since no other frame is in sight,
none can be changed.
-/

namespace StackMachine

/-- What a block is for. -/
inductive BlockKind where
  | loop | tryExcept | tryFinally
  /-- The body of a handler is running. The three values above the block's height are the fault that
  was the last one when the handler was entered. -/
  | exceptHandler
  deriving DecidableEq, Repr, Inhabited

namespace BlockKind

def all : List BlockKind := [loop, tryExcept, tryFinally, exceptHandler]

def name : BlockKind → String
  | loop => "Loop"
  | tryExcept => "TryExcept"
  | tryFinally => "TryFinally"
  | exceptHandler => "ExceptHandler"

def ofName? (name : String) : Option BlockKind := all.find? fun k => k.name == name

end BlockKind

/-- A region of code that may absorb signals. -/
structure Block where
  kind : BlockKind
  /-- The end of a loop, or the start of a handler. -/
  handler : Nat
  /-- The height of the operand stack when the block was set up. -/
  height : Nat
  deriving DecidableEq, Repr, Inhabited

/-- One activation of a code unit. -/
structure Frame where
  code : CodeObject
  /-- The operand stack, bottom first. -/
  stack : Array Value
  /-- The blocks, innermost first. -/
  blocks : List Block
  locals : Ref .table
  globals : Ref .table
  builtins : Ref .table
  /-- The cells of the cell variables and then those of the free variables. -/
  cells : List (Ref .cell)
  /-- The offset of the next instruction. -/
  ip : Nat
  /-- The offset of the instruction that is executing. -/
  lastIp : Nat
  /-- The place of the calling frame on the call stack. The result of a frame without one goes to
  the host. -/
  caller? : Option Nat
  deriving Inhabited

/-- A frame that has not started yet. -/
def Frame.start (code : CodeObject) (globals locals builtins : Ref .table)
    (cells : List (Ref .cell)) (caller? : Option Nat) : Frame :=
  ⟨code, #[], [], locals, globals, builtins, cells, 0, 0, caller?⟩

/-- A frame and what it shares with the others. -/
structure Activation where
  frame : Frame
  heap : Heap
  /-- The fault that a bare re-raise would raise again. -/
  lastFault : Option Fault
  output : Output
  deriving Inhabited

/-- How an instruction fails: with a guest fault or fatally. -/
inductive Failure where
  | fault (f : Fault)
  | fatal (e : FatalError)
  deriving Inhabited

/-- Whether guest code has no chance to see the failure. -/
def Failure.isFatal : Failure → Bool
  | fault _ => false
  | fatal _ => true

/-- Programs on an activation. What was changed before a failure stays changed. -/
abbrev Exec := EStateM Failure Activation

namespace Exec

-- The record is taken apart before a part of it changes, so that the part has no second owner and
-- is changed in place.

/-- Changes the frame. -/
@[inline] def modifyFrame (f : Frame → Frame) : Exec Unit :=
  modify fun ⟨frame, heap, lastFault, output⟩ => ⟨f frame, heap, lastFault, output⟩

/-- Changes the output. -/
@[inline] def modifyOutput (f : Output → Output) : Exec Unit :=
  modify fun ⟨frame, heap, lastFault, output⟩ => ⟨frame, heap, lastFault, f output⟩

def setLastFault (fault : Option Fault) : Exec Unit :=
  modify fun a => { a with lastFault := fault }

/-- Fails with the fault of a cause. -/
def raise {α : Type} (cause : Cause) : Exec α := fun ⟨frame, heap, lastFault, output⟩ =>
  let (fault, heap) := heap.newFault cause
  .error (.fault fault) ⟨frame, heap, lastFault, output⟩

/-- Runs a program on the heap; a cause becomes a fault. -/
def onHeap {α : Type} (x : HeapM α) : Exec α := fun ⟨frame, heap, lastFault, output⟩ =>
  match x heap with
  | .ok v heap => .ok v ⟨frame, heap, lastFault, output⟩
  | .error cause heap =>
    let (fault, heap) := heap.newFault cause
    .error (.fault fault) ⟨frame, heap, lastFault, output⟩

/-- Fails fatally. -/
def abort {α : Type} (e : FatalError) : Exec α := throw (.fatal e)

/-- Fails because the code is malformed at the executing instruction. -/
def malformed {α : Type} (d : Defect) : Exec α := do
  abort (.malformedCode (← get).frame.lastIp d)

/-! ## The operand stack -/

def push (v : Value) : Exec Unit :=
  modifyFrame fun f => { f with stack := f.stack.push v }

def pushAll : List Value → Exec Unit
  | [] => pure ()
  | v :: vs => do
    push v
    pushAll vs

/-- The value `depth` places below the top. -/
def peek (depth : Nat) : Exec Value := do
  let stack := (← get).frame.stack
  if h : depth < stack.size then pure stack[stack.size - 1 - depth]
  else abort (.stackUnderflow (depth + 1) stack.size)

/-- Takes the top value. -/
def pop : Exec Value := do
  match (← get).frame.stack.back? with
  | some v =>
    modifyFrame fun f => { f with stack := f.stack.pop }
    pure v
  | none => abort (.stackUnderflow 1 0)

/-- Takes the top `n` values, deepest first. -/
def popN (n : Nat) : Exec (List Value) := do
  let stack := (← get).frame.stack
  if stack.size < n then abort (.stackUnderflow n stack.size)
  let values := (stack.extract (stack.size - n) stack.size).toList
  modifyFrame fun f => { f with stack := f.stack.shrink (f.stack.size - n) }
  pure values

/-- Drops the values above a height. -/
def truncate (height : Nat) : Exec Unit := do
  let found := (← get).frame.stack.size
  if found < height then abort (.stackUnderflow height found)
  modifyFrame fun f => { f with stack := f.stack.shrink height }

/-! ## Names -/

/-- The first of some tables that knows a name decides. -/
def lookup? (h : Heap) (name : String) : List (Ref .table) → Option Value
  | [] => none
  | t :: rest =>
    match h.lookup? t name with
    | some v => some v
    | none => lookup? h name rest

/-- A local variable. -/
def loadLocal (name : String) : Exec Value := do
  let a ← get
  match lookup? a.heap name [a.frame.locals] with
  | some v => pure v
  | none => raise (.localNotAssigned name)

/-- A name of the frame, of its globals or of the builtin table. -/
def loadName (name : String) : Exec Value := do
  let a ← get
  match lookup? a.heap name [a.frame.locals, a.frame.globals, a.frame.builtins] with
  | some v => pure v
  | none => raise (.nameNotDefined name)

/-- A name of the globals or of the builtin table. -/
def loadGlobal (name : String) : Exec Value := do
  let a ← get
  match lookup? a.heap name [a.frame.globals, a.frame.builtins] with
  | some v => pure v
  | none => raise (.nameNotDefined name)

/-- Binds a name in one of the frame's tables. -/
def store (table : Frame → Ref .table) (name : String) (v : Value) : Exec Unit :=
  modify fun ⟨frame, heap, lastFault, output⟩ =>
    ⟨frame, heap.bind (table frame) name v, lastFault, output⟩

def storeLocal : String → Value → Exec Unit := store (·.locals)

def storeGlobal : String → Value → Exec Unit := store (·.globals)

/-! ## Cells -/

/-- The cell of a slot. -/
def cell (slot : Nat) : Exec (Ref .cell) := do
  let cells := (← get).frame.cells
  match cells[slot]? with
  | some c => pure c
  | none => malformed (.noCellSlot slot cells.length)

/-- The content of a slot's cell. -/
def loadDeref (slot : Nat) : Exec Value := do
  let c ← cell slot
  let a ← get
  match a.heap.cell? c with
  | some v => pure v
  | none =>
    let unit := a.frame.code.unit
    let name := (unit.slotName? slot).getD "?"
    raise (if unit.isCaptured slot then .freeNotAssigned name else .localNotAssigned name)

/-- Fills a slot's cell. -/
def storeDeref (slot : Nat) (v : Value) : Exec Unit := do
  let c ← cell slot
  modify fun ⟨frame, heap, lastFault, output⟩ =>
    ⟨frame, heap.setCell c v, lastFault, output⟩

/-! ## Jumps and blocks -/

def jump (target : Nat) : Exec Unit := modifyFrame fun f => { f with ip := target }

/-- Sets up a block at the current height. -/
def pushBlock (kind : BlockKind) (handler : Nat) : Exec Unit :=
  modifyFrame fun f => { f with blocks := ⟨kind, handler, f.stack.size⟩ :: f.blocks }

/-- Removes the innermost block. -/
def popBlock : Exec Block := do
  match (← get).frame.blocks with
  | [] => malformed .noBlock
  | b :: rest =>
    modifyFrame fun f => { f with blocks := rest }
    pure b

end Exec

end StackMachine
