import StackMachine.Run.Frame
/-!
# Unwinding blocks

An instruction may end in a signal: a value is returned, a loop is left or continued, or a fault is
raised. A signal is offered to the blocks of the frame, innermost first. Each block that is passed
is removed and the operand stack cut back to its height, until a block absorbs the signal and the
frame goes on at its handler, or there is no block left and the signal leaves the frame.

A finally block absorbs every signal. It finds on the stack what is needed to send the same signal
again at its end: a marker and its payload, or the fault. An except block absorbs faults, and either
kind leaves a handler block behind when it does; that block remembers the fault and gives it back as
the last one when the handler is left.
-/

namespace StackMachine

/-- What an instruction ends in, other than going on with the next one. -/
inductive Signal where
  | returning (v : Value)
  | breaking
  | continuing (target : Nat)
  | raising (f : Fault)
  deriving Inhabited

namespace Exec

/-- The fault that three values of the stack stand for. Without a class there was none. -/
def storedFault? (trace value kind : Value) : Option Fault :=
  match kind with
  | .exceptionType kind =>
    let value := match value with
      | .exception _ _ arg => arg
      | other => other
    let trace := match trace with
      | .traceback _ entries => entries
      | _ => []
    some ⟨kind, value, trace⟩
  | _ => none

/-- Puts the three values that stand for a fault on the stack. -/
def pushFault (f : Fault) : Exec Unit := do
  let trace ← onHeap (HeapM.make (Heap.newTraceback f.trace))
  push trace
  let value ← onHeap (HeapM.exception f.kind f.value)
  push value
  push (.exceptionType f.kind)

/-- Enters the handler for a fault: behind a handler block the fault stands twice, once for the
block itself and once for the body of the handler. -/
def catchFault (f : Fault) : Exec Unit := do
  pushBlock .exceptHandler 0
  pushFault f
  pushFault f

/-- Cuts the operand stack back to the height of a block that has been removed. A handler block also
gives its fault back as the last one. -/
def leaveBlock (b : Block) : Exec Unit := do
  if b.kind = .exceptHandler then
    truncate (b.height + 3)
    match ← popN 3 with
    | [trace, value, kind] => setLastFault (storedFault? trace value kind)
    | _ => setLastFault none
  else truncate b.height

/-- What becomes of a signal at a block that has been removed and unwound: it is absorbed, or it
goes on to the next block. -/
def absorbed (b : Block) (s : Signal) : Exec Bool :=
  match b.kind, s with
  | .loop, .breaking => do
    jump b.handler
    pure true
  | .tryExcept, .raising f | .tryFinally, .raising f => do
    catchFault f
    setLastFault (some f)
    jump b.handler
    pure true
  | .tryFinally, .returning v => do
    pushAll [v, .why .returning]
    jump b.handler
    pure true
  | .tryFinally, .continuing target => do
    pushAll [.int (Int64.ofNat target), .why .continuing]
    jump b.handler
    pure true
  | .tryFinally, .breaking => do
    push (.why .breaking)
    jump b.handler
    pure true
  | _, _ => pure false

/-- Offers a signal to the blocks of the frame, which are `blocks`. The answer is the signal if it
leaves the frame. A loop that is continued stays set up. -/
def unwindThrough (s : Signal) : (blocks : List Block) → Exec (Option Signal)
  | [] => pure (some s)
  | b :: rest =>
    match b.kind, s with
    | .loop, .continuing target => do
      jump target
      pure none
    | _, _ => do
      modifyFrame fun f => { f with blocks := rest }
      leaveBlock b
      if ← absorbed b s then pure none else unwindThrough s rest

/-- Offers a signal to the blocks of the frame. -/
def unwind (s : Signal) : Exec (Option Signal) := do
  unwindThrough s (← get).frame.blocks

/-- The end of a finally body: sends the signal again for which the body was entered. -/
def endFinally : Exec (Option Signal) := do
  match ← pop with
  | .none => pure none
  | .why .returning => return some (.returning (← pop))
  | .why .continuing =>
    let payload ← pop
    let a ← get
    match payload with
    | .int target =>
      if 0 ≤ target.toInt ∧ target.toInt ≤ a.frame.code.unit.size then
        pure (some (.continuing target.toInt.toNat))
      else malformed (.continueTarget (payload.repr a.heap))
    | _ => malformed (.continueTarget (payload.repr a.heap))
  | .why .breaking => pure (some .breaking)
  | .exceptionType kind =>
    let value ← pop
    let trace ← pop
    pure ((storedFault? trace value (.exceptionType kind)).map .raising)
  | other => malformed (.finallyMarker other.typeName)

/-- The normal end of a handler body. -/
def popExcept : Exec Unit := do
  let b ← popBlock
  if b.kind = .exceptHandler then leaveBlock b else malformed (.notInHandler b.kind.name)

end Exec

end StackMachine
