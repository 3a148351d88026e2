import StackMachine.Proofs.ExactIntegers
import StackMachine.Proofs.Primitives
/-!
# Indices into a list

A list is read and changed under an index in four ways: by a subscript, by storing an item, by
taking an item out and by putting one in.  An index is a word, and a negative one counts from the
end.

Which place an index names is said by `Integer.Names`, without a computation.  The first three ways
mean the same place by it, and are refused alike if there is none (`position?_eq_some_iff`,
`position?_eq_none_iff`).  The fourth is never refused, since places outside are moved to the nearer
end, and taking out what has been put in gives the old list back.  What becomes of a list is said on
the list of its items, and nothing else changes (`Heap.withItems`).  The main statement is
`indices_agree`.
-/

namespace StackMachine

/-! ## Places -/

namespace Integer

variable {i : Int64} {n p : Nat}

/-- The index names the place `p` among `n`: counted from the front it is `p`, and counted from the
end it is `p - n`. -/
def Names (i : Int64) (n p : Nat) : Prop := p < n ∧ (i.toInt = p ∨ i.toInt = p - n)

lemma place_eq (i : Int64) (n : Nat) :
    place i n = if 0 ≤ i.toInt then i.toInt else i.toInt + n := by
  have hsign : i < 0 ↔ i.toInt < 0 := Int64.lt_iff_toInt_lt
  simp only [place, hsign, ← not_le, ite_not]

/-- The position that is computed is the one that is named. -/
lemma position?_eq_some_iff : position? i n = some p ↔ Names i n p := by
  unfold position? Names
  rw [place_eq]
  split <;> split <;> simp only [Option.some.injEq, reduceCtorEq, false_iff] <;> omega

lemma position?_eq_none_iff : position? i n = none ↔ ∀ p, ¬Names i n p := by
  simp only [← position?_eq_some_iff, ← Option.ne_none_iff_exists', ← not_exists, not_not]

/-- The place at which something is put in is moved to the nearer end. -/
lemma insertPosition_eq (i : Int64) (n : Nat) :
    (insertPosition i n : Int) =
      max 0 (min (n : Int) (if 0 ≤ i.toInt then i.toInt else i.toInt + n)) := by
  rw [insertPosition, place_eq]
  omega

lemma insertPosition_le (i : Int64) (n : Nat) : insertPosition i n ≤ n := Nat.min_le_right _ n

/-- The sum by which a place is counted from the end is a word, if the length is one. -/
lemma place_fits (hn : (n : Int) < 2 ^ 63) (hi : i.toInt < 0) :
    ∃ w, add? i (Int64.ofNat n) = some w ∧ w.toInt = place i n := by
  have hlow := i.le_toInt
  have hlength : (Int64.ofNat n).toInt = n := Int64.toInt_ofNat_of_lt (by omega)
  have hsum : add? i (Int64.ofNat n) = some (i + Int64.ofNat n) :=
    sum_fits (by omega) (by omega)
  refine ⟨i + Int64.ofNat n, hsum, ?_⟩
  rw [fit?_eq_some_iff.1 hsum, hlength, place_eq, if_neg (by omega)]

end Integer

/-! ## Lists in the heap -/

namespace Heap

variable {h : Heap} {r : Ref .list} {items items' : List Value}

/-- The heap where the list has other items, and everything else is as it was. -/
def withItems (h : Heap) (r : Ref .list) (items : List Value) : Heap :=
  { h with lists := h.lists.setIfInBounds r.index items.toArray }

lemma list_eq (hr : h.lists[r.index]? = some items.toArray) : h.list r = items.toArray := by
  rw [list, hr, Option.getD_some]

lemma modifyList_eq (hr : h.lists[r.index]? = some items.toArray) (f : Array Value → Array Value)
    (hf : f items.toArray = items'.toArray) : h.modifyList r f = h.withItems r items' := by
  rw [modifyList, withItems, modify_eq_setIfInBounds hr, hf]

lemma lists_withItems (hr : h.lists[r.index]? = some items.toArray) (items' : List Value) :
    (h.withItems r items').lists[r.index]? = some items'.toArray := by
  obtain ⟨hindex, -⟩ := Array.getElem?_eq_some_iff.1 hr
  simp [withItems, hindex]

/-- What is undone has not happened. -/
lemma withItems_withItems (hr : h.lists[r.index]? = some items.toArray) (items' : List Value) :
    (h.withItems r items').withItems r items = h := by
  simp only [withItems, Array.setIfInBounds_setIfInBounds, setIfInBounds_eq_self hr]

end Heap

/-! ## Using an index -/

/-- The program is refused in this heap with an exception of the class, and has changed nothing. -/
def HeapM.RefusedAt {α : Type} (p : HeapM α) (h : Heap) (kind : ExceptionKind) : Prop :=
  ∃ c, p h = .error c h ∧ c.kind = kind

lemma HeapM.not_refusedAt {α : Type} {p : HeapM α} {h h' : Heap} {v : α} {kind : ExceptionKind}
    (hok : p h = .ok v h') : ¬p.RefusedAt h kind := by
  rintro ⟨c, hrefused, -⟩
  rw [hok] at hrefused
  cases hrefused

namespace Value

open Integer

variable {h : Heap} {r : Ref .list} {items : List Value} {i : Int64} {p : Nat} {v : Value}

/-- Takes an item out of a list, under an index. -/
abbrev popAt (r : Ref .list) (i : Int64) : HeapM Value := Method.listPop.call (.list r) [.int i]

/-- Puts an item into a list, under an index. -/
abbrev insertAt (r : Ref .list) (i : Int64) (v : Value) : HeapM Value :=
  Method.listInsert.call (.list r) [.int i, v]

lemma itemAt_named {α : Type} {what : String} {item? : Nat → Option α} {x : α} {n : Nat}
    (hi : Names i n p) (hx : item? p = some x) : itemAt what n item? i = .ok x := by
  simp [itemAt, position?_eq_some_iff.2 hi, hx]

lemma itemAt_unnamed {α : Type} {what : String} {item? : Nat → Option α} {n : Nat}
    (hi : ∀ p, ¬Names i n p) : itemAt what n item? i = .error (.indexOutOfRange what) := by
  simp [itemAt, position?_eq_none_iff.2 hi]

lemma subscript_named (hr : h.lists[r.index]? = some items.toArray)
    (hi : Names i items.length p) (hv : items[p]? = some v) :
    binary .subscript (.list r) (.int i) h = .ok v h := by
  simp [binary, subscript, Heap.list_eq hr, itemAt_named hi hv]

lemma subscript_unnamed (hr : h.lists[r.index]? = some items.toArray)
    (hi : ∀ p, ¬Names i items.length p) :
    (binary .subscript (.list r) (.int i)).RefusedAt h .indexError := by
  refine ⟨.indexOutOfRange "list", ?_, rfl⟩
  simp [binary, subscript, Heap.list_eq hr, itemAt_unnamed hi]

lemma setItem_named (hr : h.lists[r.index]? = some items.toArray)
    (hi : Names i items.length p) (w : Value) :
    setItem (.list r) (.int i) w h = .ok () (h.withItems r (items.set p w)) := by
  have hchange := Heap.modifyList_eq hr (·.setIfInBounds p w) (List.setIfInBounds_toArray items p w)
  simp [setItem, Heap.list_eq hr, position?_eq_some_iff.2 hi, hchange]

lemma setItem_unnamed (hr : h.lists[r.index]? = some items.toArray)
    (hi : ∀ p, ¬Names i items.length p) (w : Value) :
    (setItem (.list r) (.int i) w).RefusedAt h .indexError := by
  refine ⟨.indexOutOfRange "list assignment", ?_, rfl⟩
  simp [setItem, Heap.list_eq hr, position?_eq_none_iff.2 hi]

lemma popAt_named (hr : h.lists[r.index]? = some items.toArray)
    (hi : Names i items.length p) (hv : items[p]? = some v) :
    popAt r i h = .ok v (h.withItems r (items.eraseIdx p)) := by
  have hchange := Heap.modifyList_eq hr (·.eraseIdxIfInBounds p)
    (List.eraseIdxIfInBounds_toArray items p)
  have hsome : items ≠ [] := by
    rintro rfl
    cases hv
  simp [popAt, Method.call, Method.callOnList, Method.optionalArgument, position, Heap.list_eq hr,
    position?_eq_some_iff.2 hi, hv, hchange, hsome]

/-- An empty list is refused before the index is looked at. -/
lemma popAt_unnamed (hr : h.lists[r.index]? = some items.toArray)
    (hi : ∀ p, ¬Names i items.length p) : (popAt r i).RefusedAt h .indexError := by
  by_cases hempty : items = []
  · refine ⟨.popFromEmpty, ?_, rfl⟩
    simp [popAt, Method.call, Method.callOnList, Method.optionalArgument, Heap.list_eq hr, hempty]
  · refine ⟨.popOutOfRange, ?_, rfl⟩
    simp [popAt, Method.call, Method.callOnList, Method.optionalArgument, position, Heap.list_eq hr,
      hempty, position?_eq_none_iff.2 hi]

lemma insertAt_eq (hr : h.lists[r.index]? = some items.toArray) (i : Int64) (w : Value) :
    insertAt r i w h =
      .ok .none (h.withItems r (items.insertIdx (insertPosition i items.length) w)) := by
  have hchange := Heap.modifyList_eq hr
    (fun items => items.insertIdxIfInBounds (insertPosition i items.size) w)
    (List.insertIdxIfInBounds_toArray items (insertPosition i items.length) w)
  simp [insertAt, Method.call, Method.callOnList, Method.twoArguments, position, hchange]

/-- What has been put in comes out again, and leaves everything as it was. -/
lemma popAt_insertAt (hr : h.lists[r.index]? = some items.toArray) (w : Value)
    {j : Int64} (hj : j.toInt = insertPosition i items.length) :
    popAt r j (h.withItems r (items.insertIdx (insertPosition i items.length) w)) = .ok w h := by
  have hle := insertPosition_le i items.length
  have hnames : Names j (items.insertIdx (insertPosition i items.length) w).length
      (insertPosition i items.length) := by
    refine ⟨?_, .inl hj⟩
    rw [List.length_insertIdx, if_pos hle]
    omega
  have hitem : (items.insertIdx (insertPosition i items.length) w)[insertPosition i items.length]? =
      some w := by
    rw [List.getElem?_insertIdx_self, if_pos hle]
  rw [popAt_named (Heap.lists_withItems hr _) hnames hitem, List.eraseIdx_insertIdx_self,
    Heap.withItems_withItems hr]

/-- **An index means the same to all operations** on a list with these items.

* `named`: the place that it names is where an item is read, replaced and taken out.  The other
  items, their order and everything else in the heap stay what they are.
* `unnamed`: these operations are refused exactly if there is no such place, and then they change
  nothing.
* `inserted`: putting in happens at the place itself or at the nearer end, keeps all other items and
  their order, and is undone by taking out from there.
* `fits`: places are computed without leaving the words, for lists whose length is a word. -/
structure IndexedAlike (h : Heap) (r : Ref .list) (items : List Value) (i : Int64) : Prop where
  named : ∀ p v, Names i items.length p → items[p]? = some v →
    binary .subscript (.list r) (.int i) h = .ok v h ∧
    (∀ w, setItem (.list r) (.int i) w h = .ok () (h.withItems r (items.set p w))) ∧
    popAt r i h = .ok v (h.withItems r (items.eraseIdx p))
  unnamed :
    ((binary .subscript (.list r) (.int i)).RefusedAt h .indexError ↔
      ¬∃ p, Names i items.length p) ∧
    (∀ w, (setItem (.list r) (.int i) w).RefusedAt h .indexError ↔
      ¬∃ p, Names i items.length p) ∧
    ((popAt r i).RefusedAt h .indexError ↔ ¬∃ p, Names i items.length p)
  inserted : ∀ w, ∃ q : Nat,
    (q : Int) = max 0 (min (items.length : Int)
      (if 0 ≤ i.toInt then i.toInt else i.toInt + items.length)) ∧
    insertAt r i w h = .ok .none (h.withItems r (items.insertIdx q w)) ∧
    ∀ j : Int64, j.toInt = q → popAt r j (h.withItems r (items.insertIdx q w)) = .ok w h
  fits : (items.length : Int) < 2 ^ 63 → i.toInt < 0 →
    ∃ w, add? i (Int64.ofNat items.length) = some w ∧ w.toInt = place i items.length

/-- **Indices agree**, for every list and every index. -/
theorem indices_agree (hr : h.lists[r.index]? = some items.toArray) (i : Int64) :
    IndexedAlike h r items i where
  named p v hi hv := ⟨subscript_named hr hi hv, setItem_named hr hi, popAt_named hr hi hv⟩
  unnamed := by
    by_cases hi : ∃ p, Names i items.length p
    · obtain ⟨p, hp⟩ := hi
      have hv := List.getElem?_eq_getElem hp.1
      have hnamed : ¬¬∃ p, Names i items.length p := not_not.2 ⟨p, hp⟩
      exact ⟨iff_of_false (HeapM.not_refusedAt (subscript_named hr hp hv)) hnamed,
        fun w => iff_of_false (HeapM.not_refusedAt (setItem_named hr hp w)) hnamed,
        iff_of_false (HeapM.not_refusedAt (popAt_named hr hp hv)) hnamed⟩
    · have hnone := not_exists.1 hi
      exact ⟨iff_of_true (subscript_unnamed hr hnone) hi,
        fun w => iff_of_true (setItem_unnamed hr hnone w) hi,
        iff_of_true (popAt_unnamed hr hnone) hi⟩
  inserted w := ⟨insertPosition i items.length, insertPosition_eq i items.length,
    insertAt_eq hr i w, fun _ hj => popAt_insertAt hr w hj⟩
  fits := place_fits

/-- The least index puts an item in at the front and names no item; the index `-1` names the last
one. -/
theorem indices_agree_of_negative :
    ∃ h : Heap, ∃ r : Ref .list, h.lists[r.index]? = some #[.int 10, .int 20, .int 30] ∧
      popAt r (-1) h = .ok (.int 30) (h.withItems r [.int 10, .int 20]) ∧
      (popAt r Int64.minValue).RefusedAt h .indexError ∧
      insertAt r Int64.minValue .none h =
        .ok .none (h.withItems r [.none, .int 10, .int 20, .int 30]) ∧
      popAt r 0 (h.withItems r [.none, .int 10, .int 20, .int 30]) = .ok .none h := by
  let h : Heap := { Heap.empty with lists := #[#[.int 10, .int 20, .int 30]] }
  have hr : h.lists[(⟨0⟩ : Ref .list).index]? = some [.int 10, .int 20, .int 30].toArray := rfl
  obtain ⟨hlast, -, -, -⟩ := indices_agree hr (-1)
  obtain ⟨-, ⟨-, -, hleast⟩, hinserted, -⟩ := indices_agree hr Int64.minValue
  obtain ⟨q, hq, hin, hout⟩ := hinserted .none
  obtain rfl : q = 0 := by
    have hfront : (q : Int) = 0 := hq
    omega
  refine ⟨h, ⟨0⟩, hr, (hlast 2 (.int 30) ⟨by decide, .inr rfl⟩ rfl).2.2, hleast.2 ?_, hin,
    hout 0 rfl⟩
  rintro ⟨p, hlt, hnames⟩
  have hminimum : Int64.minValue.toInt = -9223372036854775808 := rfl
  simp only [List.length_cons, List.length_nil, hminimum] at hlt hnames
  omega

end Value

end StackMachine
