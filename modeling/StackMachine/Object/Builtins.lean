import StackMachine.Object.Methods
/-!
# Builtin functions and native calls

The functions of the builtin table, and the calls that need no frame of their own: builtin
functions, bound methods, and exception classes, which make their instances. Printing is an effect
outside the heap, so a call answers with its value and, if it printed, the texts of the line.
-/

namespace StackMachine

/-- The answer of a native call. -/
structure Reply where
  value : Value
  /-- The texts that the call printed as one line. -/
  line? : Option (List String) := none
  deriving Inhabited

namespace Builtin

/-- The argument of a function that takes exactly one. -/
def oneArgument (b : Builtin) : List Value → HeapM Value
  | [a] => pure a
  | args => throw (.oneArgument b.name args.length)

/-- The number of items of a sequence or a map. -/
def length (v : Value) : HeapM Value := do
  match v with
  | .str _ s => pure (.int (Int64.ofNat s.length))
  | .tuple _ items => pure (.int (Int64.ofNat items.length))
  | .list r => pure (.int (Int64.ofNat ((← get).list r).size))
  | .map r => pure (.int (Int64.ofNat ((← get).map r).size))
  | v => throw (.noLength v.typeName)

/-- The bounds of a progression, which are integers and nothing else. -/
def bounds : List Value → Except Cause (List Int64)
  | [] => .ok []
  | .int n :: rest => (bounds rest).map (n :: ·)
  | v :: _ => .error (.notInteger v.typeName)

/-- A progression from its bounds: stop, start and stop, or start, stop and step. -/
def progression (args : List Value) : HeapM Value := do
  let (start, stop, step) ← match ← HeapM.ofExcept (bounds args) with
    | [stop] => pure ((0 : Int64), stop, (1 : Int64))
    | [start, stop] => pure (start, stop, 1)
    | [start, stop, step] => pure (start, stop, step)
    | _ => throw (.rangeArguments args.length)
  if step = 0 then throw .rangeStepZero
  HeapM.iterator (.range start stop step)

/-- The integer that a value denotes: numbers lose their fraction, texts are read. -/
def toInteger : Value → Except Cause Value
  | .int n => .ok (.int n)
  | .bool b => .ok (.int (Integer.ofBool b))
  | .float x =>
    if x.isNaN then .error .integerOfNaN
    else if x.isInfinite then .error .integerOfHugeFloat
    else match Integer.fit? x.truncate with
      | some n => .ok (.int n)
      | none => .error .integerOfHugeFloat
  | .str _ s =>
    match Integer.read? (Text.trim s.toList) with
    | some n => .ok (.int n)
    | none => .error (.integerText s)
  | v => .error (.integerOfType v.typeName)

/-- The float that a value denotes. -/
def toFloat : Value → Except Cause Value
  | .float x => .ok (.float x)
  | .int n => .ok (.float (Double.ofInt n.toInt))
  | .bool b => .ok (.float (Double.ofInt (Integer.ofBool b).toInt))
  | .str _ s =>
    match Double.read? (Text.trim s.toList) with
    | some x => .ok (.float x)
    | none => .error (.floatText s)
  | v => .error (.floatOfType v.typeName)

/-- The absolute value of a number. -/
def absolute : Value → Except Cause Value
  | .int n =>
    match Integer.abs? n with
    | some m => .ok (.int m)
    | none => .error .absoluteOverflow
  | .float x => .ok (.float x.abs)
  | .bool b => .ok (.int (Integer.ofBool b))
  | v => .error (.noAbsolute v.typeName)

/-- The first item that no later one beats under a comparison, `best` being the best so far. -/
def bestOf (h : Heap) (op : CompareOp) (best : Value) : List Value → Except Cause Value
  | [] => .ok best
  | v :: rest =>
    match Value.compare h op v best with
    | .error c => .error c
    | .ok beats => bestOf h op (if beats then v else best) rest

/-- The extreme item of several arguments, or of one iterable. -/
def extreme (b : Builtin) (op : CompareOp) (args : List Value) : HeapM Value := do
  let items ← match args with
    | [source] => source.elements
    | items => pure items
  match items with
  | [] => throw (.emptySequence b.name)
  | first :: rest => HeapM.ofExcept (bestOf (← get) op first rest)

/-- The items of an optional iterable. -/
def collected (b : Builtin) : List Value → HeapM (List Value)
  | [] => pure []
  | args => do (← b.oneArgument args).elements

/-- Calls a builtin function. -/
def call (b : Builtin) (args : List Value) : HeapM Reply := do
  match b with
  | .print =>
    let h ← get
    pure ⟨.none, some (args.map (·.display h))⟩
  | .len => return ⟨← length (← b.oneArgument args), none⟩
  | .range => return ⟨← progression args, none⟩
  | .str =>
    let v ← b.oneArgument args
    return ⟨← HeapM.str (v.display (← get)), none⟩
  | .repr =>
    let v ← b.oneArgument args
    return ⟨← HeapM.str (v.repr (← get)), none⟩
  | .int => return ⟨← HeapM.ofExcept (toInteger (← b.oneArgument args)), none⟩
  | .float => return ⟨← HeapM.ofExcept (toFloat (← b.oneArgument args)), none⟩
  | .abs => return ⟨← HeapM.ofExcept (absolute (← b.oneArgument args)), none⟩
  | .min => return ⟨← extreme b .lt args, none⟩
  | .max => return ⟨← extreme b .gt args, none⟩
  | .list => return ⟨← HeapM.list (← collected b args).toArray, none⟩
  | .tuple => return ⟨← HeapM.tuple (← collected b args), none⟩

end Builtin

namespace Value

/-- The name by which a native callable introduces itself. -/
def callableName : Value → String
  | .builtin b => b.name
  | .method _ _ m => m.name
  | .exceptionType kind => kind.name
  | v => v.typeName

/-- Whether a value is one of the native callables, none of which takes keyword arguments. -/
def isNative : Value → Bool
  | .builtin _ | .method .. | .exceptionType _ => true
  | _ => false

/-- The argument that an exception class keeps of a call: none, the one given, or a tuple of all. -/
def exceptionArgument : List Value → HeapM Value
  | [] => pure .none
  | [arg] => pure arg
  | args => HeapM.tuple args

/-- Calls a value that is not a guest function. -/
def invoke (callee : Value) (args : List Value) (keywords : List (String × Value)) :
    HeapM Reply := do
  if !keywords.isEmpty && callee.isNative then throw (.noKeywordArguments callee.callableName)
  match callee with
  | .builtin b => b.call args
  | .method _ receiver m => return ⟨← m.call receiver args, Option.none⟩
  | .exceptionType kind =>
    let arg ← exceptionArgument args
    return ⟨← HeapM.exception kind arg, Option.none⟩
  | v => throw (.notCallable v.typeName)

end Value

namespace Heap

/-- The builtin table: the builtin functions and then the exception classes. -/
def builtinTable : Table :=
  Dictionary.ofList
    (Builtin.all.map (fun b => (b.name, Value.builtin b)) ++
      ExceptionKind.all.map fun k => (k.name, Value.exceptionType k))

end Heap

end StackMachine
