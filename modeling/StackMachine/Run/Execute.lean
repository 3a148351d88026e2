import StackMachine.Code.Instruction
import StackMachine.Object.Attributes
import StackMachine.Object.Builtins
import StackMachine.Object.Functions
import StackMachine.Run.Unwind
/-!
# Executing one instruction

What each instruction does to its own frame and to what all frames share. Calling a guest function
is the one thing that an instruction cannot do by itself: it takes the callee and the arguments off
the stack and leaves the rest to the machine, as its outcome says.
-/

namespace StackMachine

/-- How an instruction ends when it does not fail. -/
inductive Outcome where
  /-- The next instruction follows. -/
  | next
  | signal (s : Signal)
  /-- A guest function has to be entered. -/
  | enter (callee : Ref .function) (positional : List Value) (keywords : List (String × Value))
  deriving Inhabited

namespace Exec

/-- Takes a code unit off the stack. -/
def popCode : Exec CodeObject := do
  match ← pop with
  | .code object => pure object
  | other => malformed (.codeExpected other.typeName)

/-- The cells of a closure tuple. -/
def cellsOf : List Value → Exec (List (Ref .cell))
  | [] => pure []
  | .cell c :: rest => do
    let cells ← cellsOf rest
    pure (c :: cells)
  | other :: _ => malformed (.closureItem other.typeName)

/-- Takes a closure tuple off the stack. -/
def popCells : Exec (List (Ref .cell)) := do
  match ← pop with
  | .tuple _ items => cellsOf items
  | _ => malformed .closureNotTuple

/-- Makes a function whose globals are those of the frame, and puts it on the stack. -/
def makeFunction (code : CodeObject) (defaults : List Value) (closure : List (Ref .cell)) :
    Exec Unit := do
  match Function.make code defaults (← get).frame.globals closure with
  | .error e => abort e
  | .ok allocate => push (.function (← onHeap (HeapM.make allocate)))

/-- The keyword arguments of a call from their names and values, which alternate. -/
def keywordArguments : List Value → Exec (List (String × Value))
  | .str _ name :: v :: rest => do
    let keywords ← keywordArguments rest
    pure ((name, v) :: keywords)
  | other :: _ :: _ => malformed (.keywordName other.typeName)
  | _ => pure []

/-- Calls a value that is not a guest function, and puts the result on the stack. -/
def invoke (callee : Value) (args : List Value) (keywords : List (String × Value)) :
    Exec Unit := do
  let reply ← onHeap (callee.invoke args keywords)
  match reply.line? with
  | some texts => modifyOutput (·.line texts)
  | none => pure ()
  push reply.value

/-- The fault that a raise with `count` operands starts: the last one again, that of a class or an
instance, or that of a class with a value. -/
def raised (count : Nat) : Exec Fault := do
  match count with
  | 0 =>
    match (← get).lastFault with
    | some f => pure f
    | none => raise .nothingToReraise
  | 1 =>
    let v ← pop
    onHeap (HeapM.ofExcept v.raised)
  | 2 =>
    let value ← pop
    match ← pop with
    | .exceptionType kind =>
      let value := match value with
        | .exception _ _ arg => arg
        | other => other
      pure ⟨kind, value, []⟩
    | other => raise (.notException other.typeName)
  | count => malformed (.raiseArity count)

/-- Jumps if the condition holds. -/
def jumpIf (condition : Bool) (target : Nat) : Exec Unit :=
  if condition then jump target else pure ()

/-- Takes the top value and jumps if its truth is the one that is wanted. -/
def popJumpIf (wanted : Bool) (target : Nat) : Exec Unit := do
  let v ← pop
  jumpIf (v.truthy (← get).heap == wanted) target

/-- Jumps and keeps the top value if its truth is the one that is wanted, and drops it otherwise. -/
def jumpIfOrPop (wanted : Bool) (target : Nat) : Exec Unit := do
  let v ← peek 0
  if v.truthy (← get).heap == wanted then jump target
  else do
    let _ ← pop

/-- The effect of an instruction that neither calls a guest function nor ends in a signal. -/
def perform : Instruction → Exec Unit
  | .popTop => do
    let _ ← pop
  | .rotTwo => do
    let b ← pop
    let a ← pop
    pushAll [b, a]
  | .rotThree => do
    let c ← pop
    let b ← pop
    let a ← pop
    pushAll [c, a, b]
  | .dupTop => do push (← peek 0)
  | .unary op => do
    let v ← pop
    push (← onHeap do HeapM.ofExcept (v.unary (← get) op))
  | .binary op => do
    let b ← pop
    let a ← pop
    push (← onHeap (Value.binary op a b))
  | .compare op => do
    let b ← pop
    let a ← pop
    push (.bool (← onHeap do HeapM.ofExcept (Value.compare (← get) op a b)))
  | .buildTuple n => do
    let items ← popN n
    push (← onHeap (HeapM.tuple items))
  | .buildList n => do
    let items ← popN n
    push (← onHeap (HeapM.list items.toArray))
  | .buildMap _ => do push (← onHeap (HeapM.map .empty))
  | .storeMap => do
    let key ← pop
    let v ← pop
    let target ← peek 0
    match target with
    | .map _ => onHeap (target.setItem key v)
    | other => malformed (.mapExpected other.typeName)
  | .storeSubscript => do
    let key ← pop
    let container ← pop
    let v ← pop
    onHeap (container.setItem key v)
  | .listAppend depth => do
    let v ← pop
    if depth = 0 then malformed .appendDepthZero
    match ← peek (depth - 1) with
    | .list r => onHeap (modify fun h => h.modifyList r (·.push v))
    | other => malformed (.appendTarget other.typeName)
  | .loadConst place constant => do
    let code := (← get).frame.code
    push (← onHeap (Value.ofConst code.origin (place :: code.path) constant))
  | .loadName name => do push (← loadName name)
  | .storeName name => do storeLocal name (← pop)
  | .loadGlobal name => do push (← loadGlobal name)
  | .storeGlobal name => do storeGlobal name (← pop)
  | .loadFast name => do push (← loadLocal name)
  | .storeFast name => do storeLocal name (← pop)
  | .loadClosure slot => do push (.cell (← cell slot))
  | .loadDeref slot => do push (← loadDeref slot)
  | .storeDeref slot => do
    let v ← pop
    storeDeref slot v
  | .loadAttr name => do
    let v ← pop
    push (← onHeap (v.getAttribute name))
  | .storeAttr name => do
    let target ← pop
    let v ← pop
    onHeap (target.setAttribute name v)
  | .jumpForward target | .jumpAbsolute target => jump target
  | .popJumpIfFalse target => popJumpIf false target
  | .popJumpIfTrue target => popJumpIf true target
  | .jumpIfFalseOrPop target => jumpIfOrPop false target
  | .jumpIfTrueOrPop target => jumpIfOrPop true target
  | .getIter => do
    let v ← pop
    push (← onHeap v.toIterator)
  | .forIter exit => do
    match ← peek 0 with
    | .iterator r =>
      match ← onHeap (Value.next? r) with
      | some v => push v
      | none => do
        let _ ← pop
        jump exit
    | other => raise (.notIterator other.typeName)
  | .setupLoop exit => pushBlock .loop exit
  | .setupExcept handler => pushBlock .tryExcept handler
  | .setupFinally handler => pushBlock .tryFinally handler
  | .popBlock => do
    let _ ← popBlock
  | .popExcept => popExcept
  | .makeFunction n => do
    let code ← popCode
    let defaults ← popN n
    makeFunction code defaults []
  | .makeClosure n => do
    let code ← popCode
    let closure ← popCells
    let defaults ← popN n
    makeFunction code defaults closure
  | .printItem => do
    let v ← pop
    let text := v.display (← get).heap
    modifyOutput (·.item text)
  | .printNewline => modifyOutput (·.newline)
  -- The remaining instructions end in a signal or in a call.
  | .breakLoop | .continueLoop _ | .endFinally | .raiseVarargs _ | .returnValue
  | .callFunction .. => pure ()

/-- Executes an instruction. -/
def execute : Instruction → Exec Outcome
  | .breakLoop => pure (.signal .breaking)
  | .continueLoop target => pure (.signal (.continuing target))
  | .returnValue => do return .signal (.returning (← pop))
  | .endFinally => do
    match ← endFinally with
    | some s => pure (.signal s)
    | none => pure .next
  | .raiseVarargs count => do throw (.fault (← raised count))
  | .callFunction positional keyword => do
    let pairs ← popN (2 * keyword)
    let args ← popN positional
    let callee ← pop
    let keywords ← keywordArguments pairs
    match callee with
    | .function r => pure (.enter r args keywords)
    | callee => do
      invoke callee args keywords
      pure .next
  | i => do
    perform i
    pure .next

end Exec

end StackMachine
