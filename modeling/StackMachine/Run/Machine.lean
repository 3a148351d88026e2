import StackMachine.Run.Execute
/-!
# The machine

A machine owns the call stack and everything that frames share. It runs in steps. Each step first
checks the limits, then fetches one instruction of the innermost frame and executes it, and last
carries out how it ended: a call pushes a frame, a return hands its value to the caller, and a fault
that no block of its frame absorbs leaves that frame and is offered to the caller. Running off the
end of the code returns `None` without unwinding.

A step always ends, and a run is the repetition of steps for as long as the machine goes on. A limit
on the number of steps therefore makes every run finite.
-/

namespace StackMachine

/-- Safety limits. -/
structure Limits where
  /-- The number of frames on the call stack at which a call is refused. -/
  maxDepth : Nat := 1000
  /-- The number of steps after which a run is aborted. -/
  maxSteps : Option Nat := none
  /-- The height of an operand stack above which a run is aborted. -/
  maxStack : Nat := 10000
  deriving DecidableEq, Repr, Inhabited

/-- The call stack and what its frames share. -/
structure Machine where
  limits : Limits
  heap : Heap
  /-- The call stack, outermost frame first. -/
  frames : Array Frame
  lastFault : Option Fault
  builtins : Ref .table
  /-- The steps since the last run or reset. -/
  steps : Nat
  output : Output
  deriving Inhabited

/-- How a call from outside ends. -/
abbrev RunResult := Except Failure Value

/-- A machine that goes on, or that is done. -/
inductive Progress where
  | running (m : Machine)
  | finished (m : Machine) (result : RunResult)
  deriving Inhabited

namespace Machine

/-- A machine with a builtin table and nothing else. -/
def new (limits : Limits) (output : Output) : Machine :=
  let (builtins, heap) := Heap.empty.newTable Heap.builtinTable
  ⟨limits, heap, #[], none, builtins, 0, output⟩

/-- Forgets all frames, the last fault and the steps taken. -/
def reset (m : Machine) : Machine := { m with frames := #[], lastFault := none, steps := 0 }

/-- Ends a run fatally: every frame is abandoned. -/
def abandon (m : Machine) (e : FatalError) : Progress :=
  .finished { m with frames := #[] } (.error (.fatal e))

-- As for activations, a machine is taken apart before it changes, and no part of it is copied.

/-- Runs a program on the innermost frame, which has been taken off the call stack. -/
def within {α : Type} (m : Machine) (frame : Frame) (x : Exec α) :
    EStateM.Result Failure Machine α :=
  match m with
  | ⟨limits, heap, frames, lastFault, builtins, steps, output⟩ =>
    match x ⟨frame, heap, lastFault, output⟩ with
    | .ok v ⟨frame, heap, lastFault, output⟩ =>
      .ok v ⟨limits, heap, frames.push frame, lastFault, builtins, steps, output⟩
    | .error e ⟨frame, heap, lastFault, output⟩ =>
      .error e ⟨limits, heap, frames.push frame, lastFault, builtins, steps, output⟩

/-- Takes the innermost frame off the call stack. -/
def takeTop (m : Machine) : Option (Frame × Machine) :=
  match m with
  | ⟨limits, heap, frames, lastFault, builtins, steps, output⟩ =>
    match frames.back? with
    | some frame => some (frame, ⟨limits, heap, frames.pop, lastFault, builtins, steps, output⟩)
    | none => none

/-- Hands the value of a frame that is done, and off the call stack, to its caller. -/
def handBack (m : Machine) (frame : Frame) (v : Value) : Progress :=
  match frame.caller? with
  | none => .finished m (.ok v)
  | some caller =>
    if caller < m.frames.size then
      .running { m with
        frames := m.frames.modify caller fun f => { f with stack := f.stack.push v } }
    else m.abandon .noActiveFrame

/-- Removes the innermost frame, which is done with a value. -/
def leave (m : Machine) (v : Value) : Progress :=
  match m.takeTop with
  | some (frame, m) => m.handBack frame v
  | none => m.abandon .noActiveFrame

/-- The step that a fault's trace records when the fault leaves a frame. -/
def traceEntry (frame : Frame) : TraceEntry := ⟨frame.code.unit.name, frame.lastIp⟩

/-- Offers a signal to the frames, innermost first, of which there are `depth`. -/
def deliver (m : Machine) (s : Signal) : (depth : Nat) → Progress
  | 0 => m.abandon .noActiveFrame
  | depth + 1 =>
    match m.takeTop with
    | none => m.abandon .noActiveFrame
    | some (frame, m) =>
      match m.within frame (Exec.unwind s) with
      | .error (.fatal e) m => m.abandon e
      -- Unwinding never raises a fault of its own.
      | .error (.fault f) m => .finished m (.error (.fault f))
      | .ok none m => .running m
      | .ok (some (.returning v)) m => m.leave v
      | .ok (some (.raising f)) m =>
        match m.takeTop with
        | none => m.abandon .noActiveFrame
        | some (frame, m) =>
          let f := { f with trace := f.trace ++ [traceEntry frame] }
          match frame.caller? with
          | none => .finished m (.error (.fault f))
          | some _ => deliver { m with lastFault := some f } (.raising f) depth
      | .ok (some _) m =>
        match m.takeTop with
        | some (frame, m) => m.abandon (.malformedCode frame.lastIp .strayLoopExit)
        | none => m.abandon .noActiveFrame

/-- Carries out a signal of the innermost frame. -/
def signal (m : Machine) (s : Signal) : Progress := m.deliver s m.frames.size

/-- Carries out a fault of the innermost frame. -/
def fault (m : Machine) (f : Fault) : Progress :=
  { m with lastFault := some f }.signal (.raising f)

/-- The frame of a call of a guest function. A reference that leads to none cannot be called. -/
def callFrame (builtins : Ref .table) (callee : Ref .function) (positional : List Value)
    (keywords : List (String × Value)) (caller? : Option Nat) : HeapM Frame := do
  match (← get).function? callee with
  | some f => do
    let locals ← f.startLocals positional keywords
    let cells ← f.startCells locals
    pure (.start f.code f.globals locals builtins cells caller?)
  | none => throw (.notCallable "function")

/-- Enters a guest function: its frame is pushed and runs with the next step. Arguments that do not
fit and a call stack that is full are faults of the caller. -/
def enter (m : Machine) (callee : Ref .function) (positional : List Value)
    (keywords : List (String × Value)) (caller? : Option Nat) :
    EStateM.Result Fault Machine Unit :=
  match m with
  | ⟨limits, heap, frames, lastFault, builtins, steps, output⟩ =>
    match callFrame builtins callee positional keywords caller? heap with
    | .error cause heap =>
      let (f, heap) := heap.newFault cause
      .error f ⟨limits, heap, frames, lastFault, builtins, steps, output⟩
    | .ok frame heap =>
      if limits.maxDepth ≤ frames.size then
        let (f, heap) := heap.newFault (.recursionDepth limits.maxDepth)
        .error f ⟨limits, heap, frames, lastFault, builtins, steps, output⟩
      else .ok () ⟨limits, heap, frames.push frame, lastFault, builtins, steps, output⟩

/-- Carries out how an instruction ended. -/
def proceed : EStateM.Result Failure Machine Outcome → Progress
  | .ok .next m => .running m
  | .ok (.signal s) m => m.signal s
  | .ok (.enter callee positional keywords) m =>
    match m.enter callee positional keywords (some (m.frames.size - 1)) with
    | .ok () m => .running m
    | .error f m => m.fault f
  | .error (.fault f) m => m.fault f
  | .error (.fatal e) m => m.abandon e

/-- The limit that forbids a further step, if any: `steps` counts this step already, and `height` is
that of the innermost operand stack. -/
def exceeded (limits : Limits) (steps height : Nat) : Option FatalError :=
  match limits.maxSteps with
  | some limit =>
    if limit < steps then some (.stepLimitExceeded limit)
    else if limits.maxStack < height then some (.stackOverflow limits.maxStack) else none
  | none => if limits.maxStack < height then some (.stackOverflow limits.maxStack) else none

/-- The height of the innermost operand stack. -/
def topHeight (m : Machine) : Nat :=
  match m.frames.back? with
  | some frame => frame.stack.size
  | none => 0

/-- One step. -/
def step (m : Machine) : Progress :=
  let m := { m with steps := m.steps + 1 }
  match exceeded m.limits m.steps m.topHeight with
  | some e => m.abandon e
  | none =>
    match m.takeTop with
    | none => m.abandon .noActiveFrame
    | some (frame, m) =>
      match frame.code.unit.decode frame.ip with
      | .error e => m.abandon e
      | .ok none => m.handBack frame .none
      | .ok (some (i, next)) =>
        proceed (m.within { frame with lastIp := frame.ip, ip := next } (Exec.execute i))

/-- The code name and the offset of the instruction that the next step will dispatch. -/
def nextDispatch? (m : Machine) : Option (String × Nat) :=
  match exceeded m.limits (m.steps + 1) m.topHeight, m.frames.back? with
  | none, some frame =>
    match frame.code.unit.decode frame.ip with
    | .ok (some _) => some (frame.code.unit.name, frame.ip)
    | _ => none
  | _, _ => none

/-! ## Runs -/

/-- Up to `fuel` steps. -/
def advance : (fuel : Nat) → Progress → Progress
  | 0, p => p
  | _ + 1, .finished m r => .finished m r
  | fuel + 1, .running m => advance fuel m.step

/-- Up to `fuel` steps, and what the first `watched` of them dispatched. -/
def advanceWatching (seen : List (String × Nat)) :
    (watched fuel : Nat) → Progress → List (String × Nat) × Progress
  | _, 0, p => (seen.reverse, p)
  | _, _ + 1, .finished m r => (seen.reverse, .finished m r)
  | 0, fuel + 1, .running m => (seen.reverse, advance (fuel + 1) (.running m))
  | watched + 1, fuel + 1, .running m =>
    match m.nextDispatch? with
    | some event => advanceWatching (event :: seen) watched fuel m.step
    | none => advanceWatching seen (watched + 1) fuel m.step

/-- A number of steps within which a machine with a step limit is done. -/
def budget (m : Machine) : Nat :=
  match m.limits.maxSteps with
  | some limit => limit - m.steps + 1
  | none => 0

/-- Runs to the end of a machine's step limit, and what the first `watched` steps dispatched. -/
def settleWatching (watched : Nat) : Progress → List (String × Nat) × Progress
  | .running m => advanceWatching [] watched m.budget (.running m)
  | p => ([], p)

/-- The tables of globals and locals of a top-level run. Without globals there is a new module table
that knows its name; locals that are not given are the globals. -/
def moduleTables (globals? locals? : Option (Ref .table)) (h : Heap) :
    (Ref .table × Ref .table) × Heap :=
  match globals? with
  | some globals => ((globals, locals?.getD globals), h)
  | none =>
    let (name, h) := h.newStr "__main__"
    let (globals, h) := h.newTable (Dictionary.ofList [("__name__", name)])
    ((globals, locals?.getD globals), h)

/-- An empty cell for each cell variable of a unit. -/
def emptyCells (h : Heap) : List String → List (Ref .cell) × Heap
  | [] => ([], h)
  | _ :: rest =>
    let (c, h) := h.newCell none
    let (cs, h) := emptyCells h rest
    (c :: cs, h)

/-- Starts a top-level run of a code object on a reset machine. -/
def start (m : Machine) (code : CodeObject) (globals? locals? : Option (Ref .table)) : Progress :=
  let m := m.reset
  if !code.unit.freeNames.isEmpty then
    .finished m (.error (.fatal (.malformedCode 0 (.freeVariables code.unit.name))))
  else
    match m with
    | ⟨limits, heap, frames, lastFault, builtins, steps, output⟩ =>
      let ((globals, locals), heap) := moduleTables globals? locals? heap
      let (cells, heap) := emptyCells heap code.unit.cellNames
      let frame := Frame.start code globals locals builtins cells none
      if limits.maxDepth ≤ frames.size then
        let (f, heap) := heap.newFault (.recursionDepth limits.maxDepth)
        .finished ⟨limits, heap, frames, lastFault, builtins, steps, output⟩ (.error (.fault f))
      else
        .running ⟨limits, heap, frames.push frame, lastFault, builtins, steps, output⟩

/-- Starts a call from outside. A guest function gets a frame without caller; anything else is
called at once. -/
def startCall (m : Machine) (callee : Value) (positional : List Value)
    (keywords : List (String × Value)) : Progress :=
  match callee with
  | .function r =>
    match m.enter r positional keywords none with
    | .ok () m => .running m
    | .error f m => .finished m (.error (.fault f))
  | callee =>
    match m with
    | ⟨limits, heap, frames, lastFault, builtins, steps, output⟩ =>
      match callee.invoke positional keywords heap with
      | .error cause heap =>
        let (f, heap) := heap.newFault cause
        .finished ⟨limits, heap, frames, lastFault, builtins, steps, output⟩ (.error (.fault f))
      | .ok reply heap =>
        let output := match reply.line? with
          | some texts => output.line texts
          | none => output
        .finished ⟨limits, heap, frames, lastFault, builtins, steps, output⟩ (.ok reply.value)

end Machine

namespace Failure

/-- The words for a failure. -/
def report (h : Heap) : Failure → String
  | fault f => f.report h
  | fatal e => e.message

end Failure

end StackMachine
