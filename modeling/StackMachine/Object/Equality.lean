import StackMachine.Object.Address
/-!
# Equality of values

Numbers are equal when their values are, whatever their types; strings, constants and classes when
their contents are; containers of one kind when their items are, or the values under equal keys.
Everything else is equal only to itself.

Containers may contain themselves. A pair of containers that is being compared already is assumed to
be equal, a container equals itself without a look inside, and beyond `nestingLimit` pairs nothing
is equal any more.
-/

namespace StackMachine

namespace Value

/-- Equality of values that are not containers of one kind. -/
def scalarsEqual : Value → Value → Bool
  | .none, .none => true
  | .bool a, .bool b => a == b
  | .int a, .int b => a == b
  | .float a, .float b => a.equal b
  | .int a, .float b => (Double.ofInt a.toInt).equal b
  | .float a, .int b => (Double.ofInt b.toInt).equal a
  | .bool a, .int b => Integer.ofBool a == b
  | .int a, .bool b => Integer.ofBool b == a
  | .bool a, .float b => (Double.ofInt (Integer.ofBool a).toInt).equal b
  | .float a, .bool b => (Double.ofInt (Integer.ofBool b).toInt).equal a
  | .str _ a, .str _ b => a == b
  | .code a, .code b => a.same b || Const.equalUnits a.unit b.unit
  | .exceptionType a, .exceptionType b => a == b
  | .why a, .why b => a == b
  | a, b => a.same b

/-- Whether two sequences agree item by item. -/
def allEqual (equal : Value → Value → Bool) : List Value → List Value → Bool
  | [], [] => true
  | a :: as, b :: bs => equal a b && allEqual equal as bs
  | _, _ => false

/-- Whether two maps have equal values under the same keys. -/
def entriesEqual (equal : Value → Value → Bool) (a b : Dictionary Key Value) : Bool :=
  a.size == b.size && a.entries.all fun (key, value) =>
    match b.get? key with
    | some other => equal value other
    | .none => false

/-- The contents of two containers of one kind, ready to be compared, and their addresses. -/
def facing (h : Heap) : Value → Value → Option (Address × Address × ((Value → Value → Bool) → Bool))
  | .tuple i as, .tuple j bs => some (.tuple i, .tuple j, fun equal => allEqual equal as bs)
  | .list r, .list s =>
    some (.list r, .list s, fun equal =>
      (h.list r).size == (h.list s).size && allEqual equal (h.list r).toList (h.list s).toList)
  | .map r, .map s => some (.map r, .map s, fun equal => entriesEqual equal (h.map r) (h.map s))
  | _, _ => .none

/-- Equality inside the pairs `active`, with room for `room` more. -/
def equalWithin (h : Heap) : (room : Nat) → List (Address × Address) → Value → Value → Bool
  | 0, active, a, b =>
    match facing h a b with
    | some (x, y, _) => x == y || active.contains (x, y)
    | .none => scalarsEqual a b
  | room + 1, active, a, b =>
    match facing h a b with
    | some (x, y, compare) =>
      x == y || active.contains (x, y) || compare (equalWithin h room ((x, y) :: active))
    | .none => scalarsEqual a b

/-- Equality of values. -/
def equal (h : Heap) (a b : Value) : Bool := equalWithin h nestingLimit [] a b

end Value

end StackMachine
