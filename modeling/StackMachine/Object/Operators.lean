import StackMachine.Number.Size
import StackMachine.Object.Order
import StackMachine.Text.Separated
/-!
# Operators on values

The unary and binary operators, the comparisons, and storing into a container. All are programs on
the heap: most make at most a new object, and only storing changes one that is there. An operand of
a type that the operator does not know is refused with the operator's symbol and the type names.
-/

namespace StackMachine

namespace Value

/-! ## One operand -/

/-- An integer result that has to fit a word. -/
def fitting (operation : String) : Option Int64 → Except Cause Value
  | some n => .ok (.int n)
  | .none => .error (.integerOverflow operation)

/-- Applies a unary operator. -/
def unary (h : Heap) (op : UnaryOp) (v : Value) : Except Cause Value :=
  match op, v with
  | .not, v => .ok (.bool !(v.truthy h))
  | .positive, .int n => .ok (.int n)
  | .positive, .float x => .ok (.float x)
  | .positive, .bool b => .ok (.int (Integer.ofBool b))
  | .negative, .int n => fitting "negation" (Integer.neg? n)
  | .negative, .bool b => fitting "negation" (Integer.neg? (Integer.ofBool b))
  | .negative, .float x => .ok (.float x.neg)
  | .invert, .int n => .ok (.int (~~~n))
  | .invert, .bool b => .ok (.int (~~~(Integer.ofBool b)))
  | op, v => .error (.unsupportedOperand op.symbol v.typeName)

/-! ## Two operands -/

/-- The refusal of two operands. -/
def unsupported (op : BinaryOp) (a b : Value) : Except Cause Value :=
  .error (.unsupportedOperands op.symbol a.typeName b.typeName)

/-- An operation on two integers or, if one of them is a float, on two floats. -/
def arithmetic (op : BinaryOp) (ints : Int64 → Int64 → Except Cause Value)
    (floats : Double → Double → Except Cause Value) (a b : Value) : Except Cause Value :=
  match a.number?, b.number? with
  | some (.int x), some (.int y) => ints x y
  | some x, some y => floats x.toDouble y.toDouble
  | _, _ => unsupported op a b

/-- An operation on integers whose result has to fit. -/
def fittingInts (op : BinaryOp) (f : Int64 → Int64 → Option Int64) (x y : Int64) :
    Except Cause Value :=
  fitting op.symbol (f x y)

/-- An operation on floats that never fails. -/
def totalFloats (f : Double → Double → Double) (x y : Double) : Except Cause Value :=
  .ok (.float (f x y))

/-- Division of floats, where zero has no quotient. -/
def nonzeroFloats (cause : Cause) (f : Double → Double → Double) (x y : Double) :
    Except Cause Value :=
  if y.isZero then .error cause else .ok (.float (f x y))

def power : Value → Value → Except Cause Value :=
  let floats (x y : Double) : Except Cause Value :=
    if x.isZero && y.compare? (.zero false) == some .lt then .error .zeroToNegativePower
    else .ok (.float (x.pow y))
  arithmetic .power
    (fun x y =>
      if 0 ≤ y.toInt then fitting "**" (Integer.pow? x y.toInt.toNat)
      else floats (Double.ofInt x.toInt) (Double.ofInt y.toInt))
    floats

def trueDivide : Value → Value → Except Cause Value :=
  let floats := nonzeroFloats .divisionByZero Double.div
  arithmetic .trueDivide
    (fun x y => floats (Double.ofInt x.toInt) (Double.ofInt y.toInt))
    floats

def floorDivide : Value → Value → Except Cause Value :=
  arithmetic .floorDivide
    (fun x y =>
      if y = 0 then .error .integerDivisionByZero else fitting "//" (Integer.floorDiv? x y))
    (nonzeroFloats .floatFloorDivisionByZero fun x y => (x.div y).floor)

def modulo : Value → Value → Except Cause Value :=
  arithmetic .modulo
    (fun x y =>
      if y = 0 then .error .integerDivisionByZero else .ok (.int (Integer.floorMod x y)))
    (nonzeroFloats .floatModuloByZero Double.floorMod)

/-- A shift by a number of places that must not be negative. -/
def shift (op : BinaryOp) (f : Int64 → Nat → Except Cause Value) (a b : Value) :
    Except Cause Value :=
  match a.number?, b.number? with
  | some (.int x), some (.int s) =>
    if s.toInt < 0 then .error .negativeShift else f x s.toInt.toNat
  | _, _ => unsupported op a b

/-- A bitwise operation: on truth values it gives a truth value, on integers an integer. -/
def bitwise (op : BinaryOp) (bools : Bool → Bool → Bool) (ints : Int64 → Int64 → Int64)
    (a b : Value) : Except Cause Value :=
  match a, b with
  | .bool x, .bool y => .ok (.bool (bools x y))
  | a, b =>
    match a.number?, b.number? with
    | some (.int x), some (.int y) => .ok (.int (ints x y))
    | _, _ => unsupported op a b

/-! ## Sequences -/

/-- The length of a sequence that is repeated. -/
def repeatedLength (host : SizeWords) (length times : Nat) : Except Cause Nat :=
  match host.repeatedLength? length times with
  | some total => .ok total
  | .none => .error .repetitionTooLong

/-- Items written a number of times in a row. -/
def repeatItems (host : SizeWords) (items : List Value) (times : Nat) : Except Cause (List Value) :=
  (repeatedLength host items.length times).map fun _ =>
    if items.isEmpty then [] else (List.replicate times items).flatten

/-- A sequence repeated; anything else is no sequence. The length of a string is that of its
bytes. -/
def repeated (host : SizeWords) (count : Int64) : Value → HeapM (Option Value)
  | .str _ s => do
    let total ← HeapM.ofExcept (repeatedLength host s.utf8ByteSize (host.times count))
    let text := if total = 0 then "" else String.join (List.replicate (host.times count) s)
    some <$> HeapM.str text
  | .tuple _ items => do
    let items ← HeapM.ofExcept (repeatItems host items (host.times count))
    some <$> HeapM.tuple items
  | .list r => do
    let items ← HeapM.ofExcept (repeatItems host ((← get).list r).toList (host.times count))
    some <$> HeapM.list items.toArray
  | _ => pure .none

/-- Numbers are multiplied, and a sequence is repeated by an integer on either side. -/
def multiply (host : SizeWords) (a b : Value) : HeapM Value := do
  let product :=
    arithmetic .multiply (fittingInts .multiply Integer.mul?) (totalFloats Double.mul) a b
  match a, b with
  | sequence, .int n | .int n, sequence =>
    match ← repeated host n sequence with
    | some v => pure v
    | .none => HeapM.ofExcept product
  | _, _ => HeapM.ofExcept product

/-- Numbers are added, and two sequences of one type are put together. -/
def add (a b : Value) : HeapM Value :=
  match a, b with
  | .str _ x, .str _ y => HeapM.str (x ++ y)
  | .tuple _ xs, .tuple _ ys => HeapM.tuple (xs ++ ys)
  | .list r, .list s => do
    let h ← get
    HeapM.list (h.list r ++ h.list s)
  | a, b =>
    HeapM.ofExcept
      (arithmetic .add (fittingInts .add Integer.add?) (totalFloats Double.add) a b)

/-! ## Subscripts -/

/-- The item that an index names in a sequence of `size` items, of which `item?` finds the one at a
position. -/
def itemAt {α : Type} (what : String) (size : Nat) (item? : Nat → Option α) (i : Int64) :
    Except Cause α :=
  match (Integer.position? i size).bind item? with
  | some x => .ok x
  | .none => .error (.indexOutOfRange what)

/-- The item of a container under an index or a key. -/
def subscript (container index : Value) : HeapM Value :=
  match container, index with
  | .tuple _ items, .int i => HeapM.ofExcept (itemAt "tuple" items.length (items[·]?) i)
  | .list r, .int i => do
    let items := (← get).list r
    HeapM.ofExcept (itemAt "list" items.size (items[·]?) i)
  | .str _ s, .int i => do
    let characters := s.toList
    let c ← HeapM.ofExcept (itemAt "string" characters.length (characters[·]?) i)
    HeapM.str (String.singleton c)
  | .map r, key => do
    let k ← HeapM.ofExcept (Key.ofValue key)
    match ((← get).map r).get? k with
    | some v => pure v
    | .none => throw (.keyNotFound key)
  | .tuple .., i | .list _, i | .str .., i =>
    throw (.indexNotInteger container.typeName i.typeName)
  | _, _ => throw (.notSubscriptable container.typeName)

/-- Stores an item of a container under an index or a key. -/
def setItem (container index item : Value) : HeapM Unit :=
  match container, index with
  | .list r, .int i => do
    match Integer.position? i ((← get).list r).size with
    | .none => throw (.indexOutOfRange "list assignment")
    | some n => modify fun h => h.modifyList r fun items => items.setIfInBounds n item
  | .map r, key => do
    let k ← HeapM.ofExcept (Key.ofValue key)
    modify fun h => h.modifyMap r fun entries => entries.insert k item
  | container, _ => throw (.noItemAssignment container.typeName)

/-- Applies a binary operator. -/
def binary (op : BinaryOp) (a b : Value) : HeapM Value :=
  match op with
  | .add => add a b
  | .subtract =>
    HeapM.ofExcept
      (arithmetic .subtract (fittingInts .subtract Integer.sub?) (totalFloats Double.sub) a b)
  | .multiply => multiply .wide a b
  | .power => HeapM.ofExcept (power a b)
  | .trueDivide => HeapM.ofExcept (trueDivide a b)
  | .floorDivide => HeapM.ofExcept (floorDivide a b)
  | .modulo => HeapM.ofExcept (modulo a b)
  | .subscript => subscript a b
  | .shiftLeft =>
    HeapM.ofExcept
      (shift .shiftLeft (fun x s => fitting "<<" (Integer.shiftLeft? .masking x s)) a b)
  | .shiftRight =>
    HeapM.ofExcept
      (shift .shiftRight (fun x s => .ok (.int (Integer.shiftRight .masking x s))) a b)
  | .and => HeapM.ofExcept (bitwise .and (· && ·) (· &&& ·) a b)
  | .xor => HeapM.ofExcept (bitwise .xor Bool.xor (· ^^^ ·) a b)
  | .or => HeapM.ofExcept (bitwise .or (· || ·) (· ||| ·) a b)

/-! ## Comparisons -/

/-- Whether a container holds an item; a text holds its parts. -/
def contains (h : Heap) (container item : Value) : Except Cause Bool :=
  match container with
  | .str _ s =>
    match item with
    | .str _ part => .ok (Text.occursIn part.toList s.toList)
    | other => .error (.textExpected other.typeName)
  | .tuple _ items => .ok (items.any fun v => equal h v item)
  | .list r => .ok ((h.list r).any fun v => equal h v item)
  | .map r => (Key.ofValue item).map (h.map r).contains
  | other => .error (.notContainer other.typeName)

mutual

/-- Whether a handler catches exceptions of a class: a handler is a class or a tuple of handlers, of
which the first that does decides. -/
def catches (kind : ExceptionKind) : Value → Except Cause Bool
  | .exceptionType handled => .ok (kind.inherits handled)
  | .tuple _ handlers => anyCatches kind handlers
  | _ => .error .handlerNotClass

def anyCatches (kind : ExceptionKind) : List Value → Except Cause Bool
  | [] => .ok false
  | v :: vs =>
    match catches kind v with
    | .error c => .error c
    | .ok true => .ok true
    | .ok false => anyCatches kind vs

end

/-- Whether a raised value is caught by a handler. What is no exception is never caught. -/
def isCaughtBy (raised handler : Value) : Except Cause Bool :=
  match raised with
  | .exceptionType kind => catches kind handler
  | .exception _ kind _ => catches kind handler
  | _ => .ok false

/-- Applies a comparison. -/
def compare (h : Heap) (op : CompareOp) (a b : Value) : Except Cause Bool :=
  match op with
  | .lt => (order h op a b).map (· == some .lt)
  | .le => (order h op a b).map fun o => o == some .lt || o == some .eq
  | .gt => (order h op a b).map (· == some .gt)
  | .ge => (order h op a b).map fun o => o == some .gt || o == some .eq
  | .eq => .ok (equal h a b)
  | .ne => .ok !(equal h a b)
  | .isIn => contains h b a
  | .notIn => (contains h b a).map (!·)
  | .is => .ok (a.same b)
  | .isNot => .ok !(a.same b)
  | .exceptionMatch => isCaughtBy a b

end Value

end StackMachine
