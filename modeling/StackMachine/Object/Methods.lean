import StackMachine.Object.Iteration
import StackMachine.Object.Operators
import StackMachine.Object.Rendering
import StackMachine.Text.Blank
import StackMachine.Text.Casing
import StackMachine.Text.Separated
/-!
# Methods of lists, maps and strings

Every method first checks its arguments, then looks at the receiver, and changes it last, so that a
call that is refused has changed neither a list nor a map.
-/

namespace StackMachine

namespace Value

/-- A value that is usable as a position: an integer or a truth value. -/
def position : Value → Except Cause Int64
  | .int n => .ok n
  | .bool b => .ok (Integer.ofBool b)
  | v => .error (.notInteger v.typeName)

end Value

namespace Method

/-- The arguments of a method that takes none. -/
def noArguments (m : Method) : List Value → HeapM Unit
  | [] => pure ()
  | args => throw (.exactArguments m.name 0 args.length)

/-- The argument of a method that takes one. -/
def oneArgument (m : Method) : List Value → HeapM Value
  | [a] => pure a
  | args => throw (.exactArguments m.name 1 args.length)

/-- The arguments of a method that takes two. -/
def twoArguments (m : Method) : List Value → HeapM (Value × Value)
  | [a, b] => pure (a, b)
  | args => throw (.exactArguments m.name 2 args.length)

/-- The argument of a method that takes at most one. -/
def optionalArgument (m : Method) : List Value → HeapM (Option Value)
  | [] => pure none
  | [a] => pure (some a)
  | args => throw (.argumentsBetween m.name 0 1 args.length)

/-- The arguments of a method that takes one and may take a second. -/
def keyAndDefault (m : Method) : List Value → HeapM (Value × Option Value)
  | [a] => pure (a, none)
  | [a, b] => pure (a, some b)
  | args => throw (.argumentsBetween m.name 1 2 args.length)

/-- Calls a method of the list `r`. -/
def callOnList (m : Method) (r : Ref .list) (args : List Value) : HeapM Value := do
  match m with
  | .listAppend =>
    let v ← m.oneArgument args
    modify fun h => h.modifyList r (·.push v)
    pure .none
  | .listExtend =>
    let source ← m.oneArgument args
    let extra ← source.elements
    modify fun h => h.modifyList r (· ++ extra)
    pure .none
  | .listInsert =>
    let (index, v) ← m.twoArguments args
    let i ← HeapM.ofExcept index.position
    modify fun h => h.modifyList r fun items =>
      items.insertIdxIfInBounds (Integer.insertPosition i items.size) v
    pure .none
  | .listPop =>
    let index ← m.optionalArgument args
    let size := ((← get).list r).size
    if size = 0 then throw .popFromEmpty
    let i ← match index with
      | some index => HeapM.ofExcept index.position
      | none => pure (-1)
    match Integer.position? i size with
    | none => throw .popOutOfRange
    | some n =>
      match ((← get).list r)[n]? with
      | none => throw .popOutOfRange
      | some v =>
        modify fun h => h.modifyList r (·.eraseIdxIfInBounds n)
        pure v
  | .listIndex =>
    let sought ← m.oneArgument args
    let h ← get
    match (h.list r).findIdx? fun v => v.equal h sought with
    | some i => pure (.int (Int64.ofNat i))
    | none => throw (.notInList (sought.repr h))
  | .listCount =>
    let sought ← m.oneArgument args
    let h ← get
    pure (.int (Int64.ofNat ((h.list r).countP fun v => v.equal h sought)))
  | .listReverse =>
    m.noArguments args
    modify fun h => h.modifyList r Array.reverse
    pure .none
  | m => throw (.noAttribute "list" m.name)

/-- Pairs each key of a map with its value, in tuples. -/
def pairs : List (Key × Value) → HeapM (List Value)
  | [] => pure []
  | (k, v) :: rest => do
    let key ← k.toValue
    let pair ← HeapM.tuple [key, v]
    let others ← pairs rest
    pure (pair :: others)

/-- Calls a method of the map `r`. -/
def callOnMap (m : Method) (r : Ref .map) (args : List Value) : HeapM Value := do
  match m with
  | .mapKeys =>
    m.noArguments args
    let keys ← Key.toValues ((← get).map r).keys
    HeapM.list keys.toArray
  | .mapValues =>
    m.noArguments args
    HeapM.list ((← get).map r).values.toArray
  | .mapItems =>
    m.noArguments args
    let items ← pairs ((← get).map r).entries
    HeapM.list items.toArray
  | .mapGet =>
    let (key, default?) ← m.keyAndDefault args
    let k ← HeapM.ofExcept (Key.ofValue key)
    match ((← get).map r).get? k with
    | some v => pure v
    | none => pure (default?.getD .none)
  | .mapPop =>
    let (key, default?) ← m.keyAndDefault args
    let k ← HeapM.ofExcept (Key.ofValue key)
    match ((← get).map r).get? k with
    | some v =>
      modify fun h => h.modifyMap r (·.erase k)
      pure v
    | none =>
      match default? with
      | some v => pure v
      | none => throw (.keyNotFound key)
  | m => throw (.noAttribute "dict" m.name)

/-- The texts of values that all have to be strings, the first of them at `place`. -/
def textsFrom (place : Nat) : List Value → Except Cause (List (List Char))
  | [] => .ok []
  | .str _ s :: rest => (textsFrom (place + 1) rest).map (s.toList :: ·)
  | v :: _ => .error (.joinItem place v.typeName)

/-- A list of new strings. -/
def listOfTexts (parts : List (List Char)) : HeapM Value := do
  let strings ← parts.mapM fun part => HeapM.str (String.ofList part)
  HeapM.list strings.toArray

/-- Calls a method of the string `s`. -/
def callOnText (m : Method) (s : String) (args : List Value) : HeapM Value := do
  match m with
  | .strJoin =>
    let source ← m.oneArgument args
    let items ← source.elements
    let parts ← HeapM.ofExcept (textsFrom 0 items)
    HeapM.str (String.ofList (Text.join s.toList parts))
  | .strSplit =>
    match ← m.optionalArgument args with
    | none | some .none => listOfTexts (Text.words s.toList)
    | some (.str _ separator) =>
      if separator.isEmpty then throw .emptySeparator
      listOfTexts (Text.split separator.toList s.toList)
    | some v => throw (.separatorNotText v.typeName)
  | .strUpper =>
    m.noArguments args
    HeapM.str (String.ofList (Text.upper s.toList))
  | .strLower =>
    m.noArguments args
    HeapM.str (String.ofList (Text.lower s.toList))
  | .strStrip =>
    m.noArguments args
    HeapM.str (String.ofList (Text.trim s.toList))
  | m => throw (.noAttribute "str" m.name)

/-- Calls a method of a receiver. -/
def call (m : Method) (receiver : Value) (args : List Value) : HeapM Value :=
  match receiver with
  | .list r => m.callOnList r args
  | .map r => m.callOnMap r args
  | .str _ s => m.callOnText s args
  | v => throw (.noAttribute v.typeName m.name)

end Method

end StackMachine
