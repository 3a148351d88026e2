import Mathlib.Data.List.Forall2
import StackMachine.Object.Iteration
import StackMachine.Proofs.Primitives
/-!
# What a cursor gives

A cursor gives one value after another, and then nothing any more.  What it has in front of it is a
value that is there already, or a character that is made a string when it is given (`Item`,
`Cursor.front?`).  `Cursor.Holds` says which items a cursor has left: it is a finite derivation with
one step for each item, so there is one only if going through the cursor comes to an end.

The items decide what comes out, in whatever way the cursor is used: everything at once, as `drain`
does it (`drainOnto_of_holds`), or one request after the other, as loops do it, where other things
may happen between the requests (`Requests.shown`).  After its last item a cursor is exhausted for
good.
-/

namespace StackMachine

/-! ## Items -/

/-- One of the things that a cursor gives. -/
inductive Item where
  | value (v : Value)
  /-- A character, of which a new string is made each time it is given. -/
  | character (c : Char)

/-- The value is what is given for an item. -/
def Item.ShownBy (v : Value) : Item → Prop
  | value w => v = w
  | character c => ∃ id, v = .str id (String.singleton c)

/-- Gives an item. -/
def Item.give : Item → HeapM Value
  | value v => pure v
  | character c => HeapM.str (String.singleton c)

lemma Item.give_ok (item : Item) (h : Heap) :
    ∃ v n, item.give h = .ok v { h with nextId := n } ∧ item.ShownBy v := by
  cases item with
  | value v => exact ⟨v, h.nextId, rfl, rfl⟩
  | character c => exact ⟨_, h.nextId + 1, rfl, h.nextId, rfl⟩

/-- Values that are there already are given as they are. -/
lemma Item.forall₂_shownBy_values {vs ws : List Value} :
    List.Forall₂ (fun v (item : Item) => item.ShownBy v) vs (ws.map .value) ↔ vs = ws := by
  rw [List.forall₂_map_right_iff]
  exact List.forall₂_eq_eq_eq ▸ Iff.rfl

lemma Item.rel_shownBy_value {v? w? : Option Value} :
    Option.Rel (fun v (item : Item) => item.ShownBy v) v? (w?.map .value) ↔ v? = w? := by
  cases v? <;> cases w? <;> simp [ShownBy]

namespace Cursor

variable {h h' : Heap} {c c' : Cursor} {item : Item} {items : List Item}

/-! ## Advancing -/

/-- The item in front of a cursor, and the cursor behind it. -/
def front? (h : Heap) : Cursor → Option (Item × Cursor)
  | .items [] => none
  | .items (v :: rest) => some (.value v, .items rest)
  | .list r i => ((h.list r)[i]?).map fun v => (.value v, .list r (i + 1))
  | .chars text offset => (String.Pos.Raw.get? text ⟨offset⟩).map fun c =>
      (.character c, .chars text (offset + c.utf8Size))
  | .range next stop step =>
    if isLive next stop step then
      some (.value (.int next), .range (nextTerm next stop step) stop step)
    else none

/-- A cursor gives the item that it has in front of it. -/
lemma advance_eq (c : Cursor) (h : Heap) : c.advance h =
    match c.front? h with
    | none => .ok none h
    | some (item, c') => ((fun v => some (v, c')) <$> item.give) h := by
  cases c with
  | items rest => cases rest <;> rfl
  | list r i =>
    simp only [advance, front?, HeapM.bind_apply, HeapM.get_apply]
    cases (h.list r)[i]? <;> rfl
  | chars text offset =>
    simp only [advance, front?]
    cases String.Pos.Raw.get? text ⟨offset⟩ <;> rfl
  | range next stop step =>
    simp only [advance, front?]
    split <;> rfl

lemma advance_of_front_eq_none (hfront : c.front? h = none) : c.advance h = .ok none h := by
  rw [advance_eq, hfront]

lemma advance_of_front_eq_some (hfront : c.front? h = some (item, c')) :
    ∃ v n, c.advance h = .ok (some (v, c')) { h with nextId := n } ∧ item.ShownBy v := by
  obtain ⟨v, n, hgive, hshown⟩ := item.give_ok h
  refine ⟨v, n, ?_, hshown⟩
  simp only [advance_eq, hfront, HeapM.map_apply, hgive]

/-- The list that a cursor goes through, which is all that it looks at in the heap. -/
def source (h : Heap) : Cursor → Option (Array Value)
  | .list r _ => some (h.list r)
  | _ => none

lemma front?_congr (hsource : c.source h' = c.source h) : c.front? h' = c.front? h := by
  cases c with
  | list r i =>
    rw [source, source, Option.some.injEq] at hsource
    rw [front?, front?, hsource]
  | items rest => cases rest <;> rfl
  | chars | range => rfl

/-- The cursor behind an item goes through the same list. -/
lemma source_of_front (hfront : c.front? h = some (item, c'))
    (hsource : c.source h' = c.source h) : c'.source h' = c'.source h := by
  cases c with
  | items rest =>
    cases rest with
    | nil => cases hfront
    | cons v rest =>
      cases hfront
      rfl
  | list r i =>
    obtain ⟨v, -, hv⟩ := Option.map_eq_some_iff.1 hfront
    cases hv
    exact hsource
  | chars text offset =>
    obtain ⟨c, -, hc⟩ := Option.map_eq_some_iff.1 hfront
    cases hc
    rfl
  | range next stop step =>
    rw [front?] at hfront
    split at hfront <;> cases hfront
    rfl

/-! ## What is left -/

/-- The cursor has these items left, and then it is exhausted. -/
inductive Holds (h : Heap) : Cursor → List Item → Prop
  | exhausted {c : Cursor} (hfront : c.front? h = none) : Holds h c []
  | more {c c' : Cursor} {item : Item} {items : List Item}
      (hfront : c.front? h = some (item, c')) (hrest : Holds h c' items) :
      Holds h c (item :: items)

lemma Holds.congr (hc : c.Holds h items) (hsource : c.source h' = c.source h) :
    c.Holds h' items := by
  induction hc with
  | exhausted hfront => exact .exhausted ((front?_congr hsource).trans hfront)
  | more hfront _ ih =>
    exact .more ((front?_congr hsource).trans hfront) (ih (source_of_front hfront hsource))

lemma source_nextId (c : Cursor) (h : Heap) (n : Nat) :
    c.source { h with nextId := n } = c.source h := by
  cases c <;> rfl

lemma source_setCursor (c c' : Cursor) (h : Heap) (r : Ref .cursor) :
    c.source (h.setCursor r c') = c.source h := by
  cases c <;> rfl

lemma holds_items (rest : List Value) (h : Heap) :
    (Cursor.items rest).Holds h (rest.map .value) := by
  induction rest with
  | nil => exact .exhausted rfl
  | cons v rest ih => exact .more rfl ih

/-- The induction is on what is left of the list. -/
lemma holds_list (r : Ref .list) (i : Nat) (h : Heap) :
    (Cursor.list r i).Holds h (((h.list r).toList.drop i).map .value) := by
  generalize hleft : (h.list r).toList.drop i = left
  induction left generalizing i with
  | nil =>
    refine .exhausted ?_
    rw [List.drop_eq_nil_iff, Array.length_toList] at hleft
    simp [front?, hleft]
  | cons v left ih =>
    have hv : (h.list r)[i]? = some v := by
      rw [← Array.getElem?_toList, ← List.head?_drop, hleft, List.head?_cons]
    refine .more (by rw [front?, hv]; rfl) (ih (i + 1) ?_)
    rw [← List.drop_drop, hleft, List.drop_one, List.tail_cons]

/-! ## Everything at once -/

/-- **Draining.**  A cursor gives the items that it has left, and is exhausted then.  The induction
is on the items: each of them takes one unit of the fuel. -/
lemma drainOnto_of_holds (hc : c.Holds h items) {fuel : Nat} (hfuel : items.length ≤ fuel)
    (taken : List Value) :
    ∃ vs c' n, drainOnto taken fuel c h = .ok (taken.reverse ++ vs, c') { h with nextId := n } ∧
      List.Forall₂ (fun v item => item.ShownBy v) vs items ∧
      c'.Holds { h with nextId := n } [] := by
  induction items generalizing c h fuel taken with
  | nil =>
    cases hc with
    | exhausted hfront =>
      refine ⟨[], c, h.nextId, ?_, .nil, .exhausted hfront⟩
      cases fuel with
      | zero => simp [drainOnto]
      | succ fuel => simp [drainOnto, advance_of_front_eq_none hfront]
  | cons item items ih =>
    cases hc with
    | @more _ c' _ _ hfront hrest =>
      obtain ⟨fuel, rfl⟩ := Nat.exists_eq_add_of_le' hfuel
      obtain ⟨v, n, hadvance, hshown⟩ := advance_of_front_eq_some hfront
      obtain ⟨vs, c'', m, hdrain, hvs, hend⟩ :=
        ih (hrest.congr (source_nextId c' h n)) (Nat.le_add_left _ fuel) (v :: taken)
      refine ⟨v :: vs, c'', m, ?_, .cons hshown hvs, hend⟩
      rw [List.reverse_cons, List.append_assoc] at hdrain
      simp only [List.length_cons, ← Nat.add_assoc, drainOnto, HeapM.bind_apply, hadvance]
      exact hdrain

end Cursor

/-! ## One after the other -/

namespace Heap

variable {h : Heap} {r : Ref .cursor} {c : Cursor}

lemma cursor_eq (hr : h.cursors[r.index]? = some c) : h.cursor r = c := by
  rw [cursor, hr, Option.getD_some]

lemma cursors_setCursor (hr : h.cursors[r.index]? = some c) (c' : Cursor) :
    (h.setCursor r c').cursors[r.index]? = some c' := by
  obtain ⟨hindex, -⟩ := Array.getElem?_eq_some_iff.1 hr
  simp [setCursor, hindex]

lemma cursors_newCursor (c : Cursor) (h : Heap) :
    (h.newCursor c).2.cursors[(h.newCursor c).1.index]? = some c := by
  simp [newCursor]

end Heap

/-- An iterator gives everything that its cursor has left, and is exhausted then. -/
lemma Value.elements_of_holds {r : Ref .cursor} {h : Heap} {c : Cursor} {items : List Item}
    (hr : h.cursors[r.index]? = some c) (hc : c.Holds h items) (hbound : items.length ≤ c.bound h) :
    ∃ vs h' c', (Value.iterator r).elements h = .ok vs h' ∧
      List.Forall₂ (fun v item => item.ShownBy v) vs items ∧
      h'.cursors[r.index]? = some c' ∧ c'.Holds h' [] := by
  obtain ⟨vs, c', n, hdrain, hvs, hend⟩ := Cursor.drainOnto_of_holds hc hbound []
  refine ⟨vs, ({ h with nextId := n } : Heap).setCursor r c', c', ?_, hvs,
    Heap.cursors_setCursor (h := { h with nextId := n }) hr c', hend.congr ?_⟩
  · simp [elements, Cursor.drain, Heap.cursor_eq hr, hdrain]
  · rw [Cursor.source_setCursor]

open Cursor (source Holds)

/-- The iterator `r` is asked again and again, and answers.  What happens between two requests
leaves its cursor alone, and the list that the cursor goes through. -/
inductive Requests (r : Ref .cursor) : Heap → List (Option Value) → Heap → Prop
  | done (h : Heap) : Requests r h [] h
  | ask {h h' h'' : Heap} {answer : Option Value} {answers : List (Option Value)}
      (hanswer : Value.next? r h = .ok answer h') (hrest : Requests r h' answers h'') :
      Requests r h (answer :: answers) h''
  | elsewhere {h h' h'' : Heap} {answers : List (Option Value)}
      (hcursor : h'.cursors[r.index]? = h.cursors[r.index]?)
      (hsource : ∀ c, h.cursors[r.index]? = some c → c.source h' = c.source h)
      (hrest : Requests r h' answers h'') : Requests r h answers h''

namespace Requests

variable {r : Ref .cursor} {h h' : Heap} {c : Cursor} {items : List Item}

/-- One request takes one item off. -/
lemma next?_of_holds (hr : h.cursors[r.index]? = some c) (hc : c.Holds h items) :
    ∃ answer h' c', Value.next? r h = .ok answer h' ∧
      Option.Rel (fun v (item : Item) => item.ShownBy v) answer items.head? ∧
      h'.cursors[r.index]? = some c' ∧ c'.Holds h' items.tail := by
  cases hc with
  | exhausted hfront =>
    refine ⟨none, h, c, ?_, .none, hr, .exhausted hfront⟩
    simp [Value.next?, Heap.cursor_eq hr, Cursor.advance_of_front_eq_none hfront]
  | @more _ c' _ _ hfront hrest =>
    obtain ⟨v, n, hadvance, hshown⟩ := Cursor.advance_of_front_eq_some hfront
    refine ⟨some v, ({ h with nextId := n } : Heap).setCursor r c', c', ?_, .some hshown,
      Heap.cursors_setCursor (h := { h with nextId := n }) hr c', hrest.congr ?_⟩
    · simp [Value.next?, Heap.cursor_eq hr, hadvance]
    · rw [Cursor.source_setCursor, Cursor.source_nextId]

/-- **Requests.**  The answers are the items that the cursor has left, in their order, and after
that there is nothing, however often it is asked.  Each request takes one item off. -/
lemma shown {answers : List (Option Value)} (hrequests : Requests r h answers h')
    (hr : h.cursors[r.index]? = some c) (hc : c.Holds h items) :
    (∀ (k : Nat) answer, answers[k]? = some answer →
      Option.Rel (fun v (item : Item) => item.ShownBy v) answer items[k]?) ∧
    ∃ c', h'.cursors[r.index]? = some c' ∧ c'.Holds h' (items.drop answers.length) := by
  induction hrequests generalizing c items with
  | done h => exact ⟨nofun, c, hr, hc⟩
  | ask hanswer _ ih =>
    obtain ⟨first, h', c', hnext, hrel, hr', hc'⟩ := next?_of_holds hr hc
    rw [hnext] at hanswer
    cases hanswer
    obtain ⟨hrels, c'', hr'', hc''⟩ := ih hr' hc'
    rw [← List.drop_one, List.drop_drop, Nat.add_comm] at hc''
    refine ⟨?_, c'', hr'', hc''⟩
    rintro (_ | k) a ha
    · rw [List.getElem?_cons_zero, Option.some.injEq] at ha
      rwa [← ha, ← List.head?_eq_getElem?]
    · rw [← List.getElem?_tail]
      exact hrels k a (by simpa using ha)
  | elsewhere hcursor hsource _ ih =>
    exact ih (hcursor.trans hr) (hc.congr (hsource c hr))

/-- An iterator with nothing left stays so, in whatever way it is used. -/
lemma exhausted {answers : List (Option Value)} (hrequests : Requests r h answers h')
    (hr : h.cursors[r.index]? = some c) (hc : c.Holds h []) :
    (∀ answer ∈ answers, answer = none) ∧ ∃ h'', (Value.iterator r).elements h' = .ok [] h'' := by
  obtain ⟨hrels, c', hr', hc'⟩ := hrequests.shown hr hc
  rw [List.drop_nil] at hc'
  constructor
  · intro answer hmem
    obtain ⟨k, hk⟩ := List.mem_iff_getElem?.1 hmem
    have hrel := hrels k answer hk
    rw [List.getElem?_nil] at hrel
    cases hrel
    rfl
  · obtain ⟨vs, h'', -, helements, hvs, -⟩ := Value.elements_of_holds hr' hc' (Nat.zero_le _)
    cases hvs
    exact ⟨h'', helements⟩

/-- A cursor can be asked as often as one likes. -/
lemma exists_of_holds (hr : h.cursors[r.index]? = some c) (hc : c.Holds h items) (count : Nat) :
    ∃ answers h', Requests r h answers h' ∧ answers.length = count := by
  induction count generalizing h c items with
  | zero => exact ⟨[], h, .done h, rfl⟩
  | succ count ih =>
    obtain ⟨answer, h', c', hnext, -, hr', hc'⟩ := next?_of_holds hr hc
    obtain ⟨answers, h'', hrest, hlength⟩ := ih hr' hc'
    exact ⟨answer :: answers, h'', .ask hnext hrest, congrArg (· + 1) hlength⟩

end Requests

end StackMachine
