import StackMachine.Object.Heap
/-!
# Iteration

Tuples, lists, strings and maps can be walked through. A cursor gives one value at a time: it walks
through the items that a tuple has, the keys that a map had when the walk began, the characters of a
string, the terms of an arithmetic progression, or the items that a list has at the moment of
asking. An iterator is a cursor in the heap; to iterate over something that is no iterator is to put
a cursor over it and to take everything that the cursor gives.
-/

namespace StackMachine

namespace Cursor

/-- A cursor over an iterable value. -/
def ofIterable : Value → HeapM Cursor
  | .tuple _ members => pure (.items members)
  | .list r => pure (.list r 0)
  | .str _ s => pure (.chars s 0)
  | .map r => do
    let keys := ((← get).map r).keys
    .items <$> Key.toValues keys
  | v => throw (.notIterable v.typeName)

/-- The term after `next` in a progression. Where it would leave the word the progression ends. -/
def nextTerm (next stop step : Int64) : Int64 := (Integer.add? next step).getD stop

/-- Whether a progression still has a term to give. -/
def isLive (next stop step : Int64) : Bool :=
  if 0 < step.toInt then next.toInt < stop.toInt else stop.toInt < next.toInt

/-- The next value, and the cursor behind it. -/
def advance : Cursor → HeapM (Option (Value × Cursor))
  | .items [] => pure none
  | .items (v :: rest) => pure (some (v, .items rest))
  | .list r i => do
    match ((← get).list r)[i]? with
    | some v => pure (some (v, .list r (i + 1)))
    | none => pure none
  | .chars text offset => do
    -- Within a character there begins none, as little as at the end.
    match String.Pos.Raw.get? text ⟨offset⟩ with
    | some c =>
      let v ← HeapM.str (String.singleton c)
      pure (some (v, .chars text (offset + c.utf8Size)))
    | none => pure none
  | .range next stop step =>
    if isLive next stop step then
      pure (some (.int next, .range (nextTerm next stop step) stop step))
    else pure none

/-- A number of values that a cursor cannot exceed while the heap stays as it is. -/
def bound (h : Heap) : Cursor → Nat
  | .items rest => rest.length
  | .list r _ => (h.list r).size
  | .chars text offset => text.utf8ByteSize - offset
  | .range next stop _ => (stop.toInt - next.toInt).natAbs

/-- Takes values until there are none left, at most `fuel` of them, and puts them behind `taken`,
given in reverse. -/
def drainOnto (taken : List Value) : (fuel : Nat) → Cursor → HeapM (List Value × Cursor)
  | 0, c => pure (taken.reverse, c)
  | fuel + 1, c => do
    match ← c.advance with
    | some (v, c) => drainOnto (v :: taken) fuel c
    | none => pure (taken.reverse, c)

/-- Everything that a cursor gives, and the exhausted cursor. -/
def drain (c : Cursor) : HeapM (List Value × Cursor) := do
  drainOnto [] (c.bound (← get)) c

end Cursor

namespace Value

/-- The next value of an iterator in the heap. -/
def next? (r : Ref .cursor) : HeapM (Option Value) := do
  match ← ((← get).cursor r).advance with
  | some (v, c) =>
    modify fun h => h.setCursor r c
    pure (some v)
  | .none => pure .none

/-- All values of an iterable. An iterator is exhausted by this. -/
def elements : Value → HeapM (List Value)
  | .iterator r => do
    let (items, c) ← ((← get).cursor r).drain
    modify fun h => h.setCursor r c
    pure items
  | v => do
    let (items, _) ← (← Cursor.ofIterable v).drain
    pure items

/-- An iterator over an iterable; an iterator is its own. -/
def toIterator : Value → HeapM Value
  | .iterator r => pure (.iterator r)
  | v => do HeapM.iterator (← Cursor.ofIterable v)

end Value

end StackMachine
