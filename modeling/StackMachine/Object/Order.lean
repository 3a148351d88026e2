import StackMachine.Code.Operator
import StackMachine.Object.Equality
/-!
# Order of values

Numbers are ordered by value, strings by their characters, tuples and lists by the first items that
differ and then by length. Which items differ is decided by equality, which sees through containers
that contain themselves; the order itself then looks only into the first pair that differs. Values
of other types, or of two different ones, are not ordered.
-/

namespace StackMachine

namespace Value

/-- Strings are ordered by their characters, a text before its extensions. -/
def compareText (a b : String) : Ordering :=
  if a = b then .eq else if a < b then .lt else .gt

/-- The order of values that are not sequences of one kind; a NaN has none. -/
def orderScalars (op : CompareOp) (a b : Value) : Except Cause (Option Ordering) :=
  match a, b with
  | .str _ x, .str _ y => .ok (some (compareText x y))
  | a, b =>
    match a.number?, b.number? with
    | some (.int x), some (.int y) => .ok (some (compare x.toInt y.toInt))
    | some x, some y => .ok (x.toDouble.compare? y.toDouble)
    | _, _ => .error (.unordered op.symbol a.typeName b.typeName)

mutual

/-- The order of two values, where `lists` orders two lists. -/
def orderWith (h : Heap) (op : CompareOp)
    (lists : Ref .list → Ref .list → Except Cause (Option Ordering)) :
    Value → Value → Except Cause (Option Ordering)
  | .tuple _ as, .tuple _ bs => orderItemsWith h op lists as bs
  | .list r, .list s => lists r s
  | a, b => orderScalars op a b

/-- The order of two sequences. -/
def orderItemsWith (h : Heap) (op : CompareOp)
    (lists : Ref .list → Ref .list → Except Cause (Option Ordering)) :
    List Value → List Value → Except Cause (Option Ordering)
  | [], [] => .ok (some .eq)
  | [], _ :: _ => .ok (some .lt)
  | _ :: _, [] => .ok (some .gt)
  | a :: as, b :: bs =>
    if equal h a b then orderItemsWith h op lists as bs else orderWith h op lists a b

end

/-- The order of two lists, looking through at most `fuel` pairs of lists. A walk through lists that
contain themselves may meet one pair after another without end; it has no answer of its own, and
ends here with the answer that the lists are unordered. -/
def orderLists (h : Heap) (op : CompareOp) :
    (fuel : Nat) → Ref .list → Ref .list → Except Cause (Option Ordering)
  | 0, _, _ => .ok .none
  | fuel + 1, r, s =>
    orderItemsWith h op (orderLists h op fuel) (h.list r).toList (h.list s).toList

/-- The order of two values. A walk that meets a pair of lists twice would never end, so the number
of pairs of lists bounds every walk that ends, and only walks that never end are cut short. -/
def order (h : Heap) (op : CompareOp) (a b : Value) : Except Cause (Option Ordering) :=
  orderWith h op (orderLists h op (h.lists.size * h.lists.size + 1)) a b

end Value

end StackMachine
