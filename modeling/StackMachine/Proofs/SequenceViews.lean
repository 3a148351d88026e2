import Mathlib.Data.String.Basic
import Mathlib.Logic.Relation
import StackMachine.Proofs.Cursors
import StackMachine.Proofs.ListIndices
/-!
# Views of a sequence

Strings, tuples and lists can be gone through, counted and read under an index.  For strings these
are three ways of reading the same bytes: a cursor keeps the number of bytes that it has passed, the
length counts characters, and a subscript looks for the character at a place.

All of them mean the items of the sequence (`Value.items?`): for a tuple or a list these are the
values in it, for a string its characters, each of which is made a string of its own when it is
asked for.  That a cursor over a string gives them is an induction on the characters that are left:
the bytes that have been passed are those of the characters before, so that the cursor always stands
between two characters (`exists_passed`).  The main statement is `sequence_views_agree`.
-/

namespace StackMachine

open Integer (Names)

/-! ## Characters of a string -/

namespace Cursor

variable {h : Heap} {c c' : Cursor}

/-- One value has been given. -/
def Advances (c c' : Cursor) : Prop := ∃ h v h', c.advance h = .ok (some (v, c')) h'

/-- A cursor that has passed some characters has the first one of the others in front of it. -/
lemma front?_chars (passed rest : List Char) (h : Heap) :
    (Cursor.chars (.ofList (passed ++ rest)) (String.utf8Len passed)).front? h =
      rest.head?.map fun c => (.character c,
        .chars (.ofList (passed ++ rest)) (String.utf8Len (passed ++ [c]))) := by
  rw [front?, String.get?_of_valid]
  simp

lemma holds_chars (passed rest : List Char) (h : Heap) :
    (Cursor.chars (.ofList (passed ++ rest)) (String.utf8Len passed)).Holds h
      (rest.map .character) := by
  induction rest generalizing passed with
  | nil => exact .exhausted (front?_chars passed [] h)
  | cons c rest ih =>
    have hrest := ih (passed ++ [c])
    rw [List.append_assoc, List.singleton_append] at hrest
    exact .more (front?_chars passed (c :: rest) h) hrest

/-- **Cursors stand between characters.**  Wherever a cursor over a string has got to, it has passed
the bytes of some of the characters that the string begins with. -/
lemma exists_passed {s : String} (hc : Relation.ReflTransGen Advances (.chars s 0) c) :
    ∃ passed rest, s = .ofList (passed ++ rest) ∧ c = .chars s (String.utf8Len passed) := by
  induction hc with
  | refl => exact ⟨[], s.toList, String.ofList_toList.symm, rfl⟩
  | tail _ hadvance ih =>
    obtain ⟨passed, rest, rfl, rfl⟩ := ih
    obtain ⟨h, v, h', hrun⟩ := hadvance
    rw [advance_eq, front?_chars] at hrun
    cases rest with
    | nil => cases hrun
    | cons c rest =>
      cases hrun
      exact ⟨passed ++ [c], rest, by rw [List.append_assoc]; rfl, rfl⟩

lemma isValid_utf8Len (passed rest : List Char) :
    (⟨String.utf8Len passed⟩ : String.Pos.Raw).IsValid (.ofList (passed ++ rest)) :=
  String.Pos.Raw.isValid_iff_exists_append.2
    ⟨.ofList passed, .ofList rest, String.ofList_append, (String.rawEndPos_ofList passed).symm⟩

end Cursor

/-- A character has at least one byte. -/
lemma length_le_utf8Len (cs : List Char) : cs.length ≤ String.utf8Len cs := by
  induction cs with
  | nil => exact Nat.le_refl 0
  | cons c cs ih =>
    have hpos := c.utf8Size_pos
    rw [List.length_cons, String.utf8Len_cons]
    omega

/-- The strings that are made of characters have the characters as their texts. -/
lemma Method.textsFrom_characters {vs : List Value} {cs : List Char}
    (hvs : List.Forall₂ (fun v (item : Item) => item.ShownBy v) vs (cs.map .character))
    (place : Nat) : Method.textsFrom place vs = .ok (cs.map fun c => [c]) := by
  induction cs generalizing vs place with
  | nil =>
    cases hvs
    rfl
  | cons c cs ih =>
    cases hvs with
    | cons hv hrest =>
      obtain ⟨id, rfl⟩ := hv
      simp [textsFrom, ih hrest, Except.map]

/-! ## Items -/

namespace Value

variable {h : Heap} {v : Value} {items : List Item} {item : Item} {i : Int64} {p : Nat}

/-- The items of a sequence: the values in a tuple or a list, the characters of a string. -/
def items? (h : Heap) : Value → Option (List Item)
  | .str _ s => some (s.toList.map .character)
  | .tuple _ members => some (members.map .value)
  | .list r => some ((h.list r).toList.map .value)
  | _ => Option.none

/-- The cursor over a sequence has its items left. -/
lemma ofIterable_of_items (hv : v.items? h = some items) :
    ∃ c, Cursor.ofIterable v h = .ok c h ∧ c.Holds h items ∧ items.length ≤ c.bound h := by
  cases v <;> cases hv
  case str id s =>
    have hholds := Cursor.holds_chars [] s.toList h
    rw [List.nil_append, String.ofList_toList] at hholds
    have hlength := length_le_utf8Len s.toList
    rw [String.utf8Len_toList] at hlength
    exact ⟨.chars s 0, rfl, hholds, by rwa [List.length_map]⟩
  case tuple id members =>
    exact ⟨.items members, rfl, Cursor.holds_items members h, by rw [List.length_map]; rfl⟩
  case list r =>
    exact ⟨.list r 0, rfl, Cursor.holds_list r 0 h, by rw [List.length_map]; rfl⟩

/-- Iterating over a sequence gives its items. -/
lemma elements_of_items (hv : v.items? h = some items) :
    ∃ vs h', v.elements h = .ok vs h' ∧
      List.Forall₂ (fun v item => item.ShownBy v) vs items := by
  obtain ⟨c, hc, hholds, hbound⟩ := ofIterable_of_items hv
  obtain ⟨vs, c', n, hdrain, hvs, -⟩ := Cursor.drainOnto_of_holds hholds hbound []
  refine ⟨vs, { h with nextId := n }, ?_, hvs⟩
  cases v <;> cases hv <;> simp [elements, hc, Cursor.drain, hdrain]

/-- An iterator over a sequence has its items left. -/
lemma toIterator_of_items (hv : v.items? h = some items) :
    ∃ r h₁ c, v.toIterator h = .ok (.iterator r) h₁ ∧ h₁.cursors[r.index]? = some c ∧
      c.Holds h₁ items := by
  obtain ⟨c, hc, hholds, -⟩ := ofIterable_of_items hv
  refine ⟨(h.newCursor c).1, (h.newCursor c).2, c, ?_, Heap.cursors_newCursor c h,
    hholds.congr (by cases c <;> rfl)⟩
  cases v <;> cases hv <;> simp [toIterator, hc]

lemma length_of_items (hv : v.items? h = some items) :
    Builtin.len.call [v] h = .ok { value := .int (Int64.ofNat items.length) } h := by
  cases v <;> cases hv <;>
    simp [Builtin.call, Builtin.oneArgument, Builtin.length, ← String.length_toList]

lemma subscript_of_items (hv : v.items? h = some items) (hi : Names i items.length p)
    (hitem : items[p]? = some item) : binary .subscript v (.int i) h = item.give h := by
  cases v <;> cases hv <;> rw [List.getElem?_map, Option.map_eq_some_iff] at hitem <;>
    rw [List.length_map] at hi <;> obtain ⟨x, hx, rfl⟩ := hitem
  case str id s => simp [binary, subscript, itemAt_named hi hx, Item.give]
  case tuple id members => simp [binary, subscript, itemAt_named hi hx, Item.give]
  case list r =>
    rw [Array.length_toList] at hi
    rw [Array.getElem?_toList] at hx
    simp [binary, subscript, itemAt_named hi hx, Item.give]

lemma subscript_refused (hv : v.items? h = some items) (hi : ∀ p, ¬Names i items.length p) :
    (binary .subscript v (.int i)).RefusedAt h .indexError := by
  cases v <;> cases hv <;> rw [List.length_map] at hi
  case str id s =>
    exact ⟨.indexOutOfRange "string", by simp [binary, subscript, itemAt_unnamed hi], rfl⟩
  case tuple id members =>
    exact ⟨.indexOutOfRange "tuple", by simp [binary, subscript, itemAt_unnamed hi], rfl⟩
  case list r =>
    rw [Array.length_toList] at hi
    exact ⟨.indexOutOfRange "list", by simp [binary, subscript, itemAt_unnamed hi], rfl⟩

/-- **The views of a sequence agree** on what its items are.

* `drained`, `asked`: going through the sequence gives its items, all at once or one by one, and
  then nothing, however often it is asked.
* `counted`: the length is the number of items, for sequences whose length is a word.
* `subscripted`, `refused`: an index gives the item at the place that it names, and is refused
  exactly if it names none.
* `spelled`: what going through a string gives are strings whose texts make up its text, and a
  cursor over it stands between two characters wherever it has got to. -/
structure ViewsAgree (h : Heap) (v : Value) (items : List Item) : Prop where
  drained : ∃ vs h', v.elements h = .ok vs h' ∧
    List.Forall₂ (fun w item => item.ShownBy w) vs items
  asked : ∃ r h₁, v.toIterator h = .ok (.iterator r) h₁ ∧
    (∀ answers h₂, Requests r h₁ answers h₂ → ∀ (k : Nat) answer, answers[k]? = some answer →
      Option.Rel (fun w (item : Item) => item.ShownBy w) answer items[k]?) ∧
    ∀ count, ∃ answers h₂, Requests r h₁ answers h₂ ∧ answers.length = count
  counted : ∃ n : Int64, Builtin.len.call [v] h = .ok { value := .int n } h ∧
    ((items.length : Int) < 2 ^ 63 → n.toInt = items.length)
  subscripted : ∀ i p item, Names i items.length p → items[p]? = some item →
    ∃ w h', binary .subscript v (.int i) h = .ok w h' ∧ item.ShownBy w
  refused : ∀ i, (binary .subscript v (.int i)).RefusedAt h .indexError ↔
    ¬∃ p, Names i items.length p
  spelled : ∀ id s, v = .str id s →
    (∀ vs h', v.elements h = .ok vs h' →
      ∃ parts, Method.textsFrom 0 vs = .ok parts ∧ parts.flatten = s.toList) ∧
    Cursor.ofIterable v h = .ok (.chars s 0) h ∧
    ∀ c, Relation.ReflTransGen Cursor.Advances (.chars s 0) c →
      ∃ offset, c = .chars s offset ∧ (⟨offset⟩ : String.Pos.Raw).IsValid s

/-- **Views agree**, for every string, tuple and list. -/
theorem sequence_views_agree (hv : v.items? h = some items) : ViewsAgree h v items where
  drained := elements_of_items hv
  asked := by
    obtain ⟨r, h₁, c, hiterator, hr, hholds⟩ := toIterator_of_items hv
    exact ⟨r, h₁, hiterator, fun answers h₂ hasked => (hasked.shown hr hholds).1,
      Requests.exists_of_holds hr hholds⟩
  counted :=
    ⟨_, length_of_items hv, fun hlength => Int64.toInt_ofNat_of_lt (by omega)⟩
  subscripted i p item hi hitem := by
    obtain ⟨w, n, hgive, hshown⟩ := item.give_ok h
    exact ⟨w, { h with nextId := n }, (subscript_of_items hv hi hitem).trans hgive, hshown⟩
  refused i := by
    by_cases hi : ∃ p, Names i items.length p
    · obtain ⟨p, hp⟩ := hi
      have hlt := hp.1
      obtain ⟨w, n, hgive, -⟩ := items[p].give_ok h
      have hok := (subscript_of_items hv hp (List.getElem?_eq_getElem hlt)).trans hgive
      exact iff_of_false (HeapM.not_refusedAt hok) (not_not.2 ⟨p, hp⟩)
    · exact iff_of_true (subscript_refused hv (not_exists.1 hi)) hi
  spelled := by
    rintro id s rfl
    cases hv
    refine ⟨fun vs h' hvs => ?_, rfl, fun c hc => ?_⟩
    · obtain ⟨vs', h'', hvs', hshown⟩ := elements_of_items (v := .str id s) (h := h) rfl
      rw [hvs] at hvs'
      cases hvs'
      refine ⟨_, Method.textsFrom_characters hshown 0, ?_⟩
      rw [← List.flatMap_def, List.flatMap_singleton']
    · obtain ⟨passed, rest, rfl, rfl⟩ := Cursor.exists_passed hc
      exact ⟨_, rfl, Cursor.isValid_utf8Len passed rest⟩

/-- Characters of one, two, three and four bytes count alike. -/
theorem sequence_views_agree_of_mixed_string :
    (∃ w h', binary .subscript (.str 0 "aé€😀") (.int (-2)) .empty = .ok w h' ∧
      (Item.character '€').ShownBy w) ∧
    (binary .subscript (.str 0 "aé€😀") (.int 4)).RefusedAt .empty .indexError ∧
    ∃ n : Int64, Builtin.len.call [.str 0 "aé€😀"] .empty = .ok { value := .int n } .empty ∧
      n.toInt = 4 := by
  have hitems : (Value.str 0 "aé€😀").items? .empty =
      some [.character 'a', .character 'é', .character '€', .character '😀'] := rfl
  have hviews := sequence_views_agree hitems
  obtain ⟨n, hn, hvalue⟩ := hviews.counted
  refine ⟨hviews.subscripted (-2) 2 _ ⟨by decide, .inr rfl⟩ rfl, (hviews.refused 4).2 ?_,
    n, hn, hvalue (by decide)⟩
  rintro ⟨p, hlt, hnames⟩
  have hfour : (4 : Int64).toInt = 4 := rfl
  simp only [List.length_cons, List.length_nil, hfour] at hlt hnames
  omega

end Value

end StackMachine
