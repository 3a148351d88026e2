import Mathlib.Tactic.Lemma
import StackMachine.Run.Frame
/-!
# Running a program

What the building blocks of programs do, as equations: given a heap or an activation, which result.
They are simp lemmas, so that `simp` runs a program as far as its start is known.
-/

namespace StackMachine

/-- A computation that succeeds has succeeded in each of its parts. -/
lemma bind_eq_ok {ε σ α β : Type} {x : EStateM ε σ α} {k : α → EStateM ε σ β} {s s' : σ} {b : β}
    (h : (x >>= k) s = .ok b s') : ∃ a s₁, x s = .ok a s₁ ∧ k a s₁ = .ok b s' := by
  simp only [bind, EStateM.bind] at h
  split at h
  · next a s₁ hx => exact ⟨a, s₁, hx, h⟩
  · cases h

/-! ## Stores

A heap keeps its lists and maps in arrays, under the indices of their references. -/

section Stores

variable {α : Type} {xs : Array α} {i : Nat} {x : α}

/-- To change what is known to be in a place is to put something there. -/
lemma modify_eq_setIfInBounds (hx : xs[i]? = some x) (f : α → α) :
    xs.modify i f = xs.setIfInBounds i (f x) := by
  obtain ⟨hi, -⟩ := Array.getElem?_eq_some_iff.1 hx
  apply Array.ext_getElem?
  intro k
  rw [Array.getElem?_modify, Array.getElem?_setIfInBounds]
  by_cases hk : i = k
  · subst hk
    rw [if_pos rfl, if_pos rfl, if_pos hi, hx, Option.map_some]
  · rw [if_neg hk, if_neg hk]

/-- To put something where it is already changes nothing. -/
lemma setIfInBounds_eq_self (hx : xs[i]? = some x) : xs.setIfInBounds i x = xs := by
  obtain ⟨hi, hvalue⟩ := Array.getElem?_eq_some_iff.1 hx
  rw [Array.setIfInBounds, dif_pos hi, ← hvalue, Array.set_getElem_self]

end Stores

/-! ## Running a program on the heap -/

namespace HeapM

variable {α β : Type}

@[simp] lemma pure_apply (v : α) (h : Heap) : (pure v : HeapM α) h = .ok v h := rfl

@[simp] lemma get_apply (h : Heap) : (get : HeapM Heap) h = .ok h h := rfl

@[simp] lemma modify_apply (f : Heap → Heap) (h : Heap) :
    (modify f : HeapM Unit) h = .ok () (f h) := rfl

@[simp] lemma throw_apply (c : Cause) (h : Heap) : (throw c : HeapM α) h = .error c h := rfl

@[simp] lemma bind_apply (x : HeapM α) (f : α → HeapM β) (h : Heap) :
    (x >>= f) h = match x h with
      | .ok v h' => f v h'
      | .error c h' => .error c h' := by
  simp only [bind, EStateM.bind]
  cases x h <;> rfl

@[simp] lemma map_apply (f : α → β) (x : HeapM α) (h : Heap) :
    (f <$> x) h = match x h with
      | .ok v h' => .ok (f v) h'
      | .error c h' => .error c h' := by
  simp only [Functor.map, EStateM.map]
  cases x h <;> rfl

@[simp] lemma ofExcept_ok (v : α) : ofExcept (.ok v) = pure v := rfl

@[simp] lemma ofExcept_error (c : Cause) : (ofExcept (.error c) : HeapM α) = throw c := rfl

@[simp] lemma list_apply (items : Array Value) (h : Heap) :
    list items h = .ok (.list (h.newList items).1) (h.newList items).2 := rfl

@[simp] lemma iterator_apply (c : Cursor) (h : Heap) :
    iterator c h = .ok (.iterator (h.newCursor c).1) (h.newCursor c).2 := rfl

end HeapM

namespace Activation

/-- The activation without the top `n` values of its stack. -/
def dropTop (a : Activation) (n : Nat) : Activation :=
  { a with frame := { a.frame with stack := a.frame.stack.take (a.frame.stack.size - n) } }

@[simp] lemma dropTop_height (a : Activation) (n : Nat) :
    (a.dropTop n).frame.stack.size = a.frame.stack.size - n := by
  simp [dropTop]

@[simp] lemma dropTop_dropTop (a : Activation) (m n : Nat) :
    (a.dropTop m).dropTop n = a.dropTop (m + n) := by
  simp [dropTop, Nat.sub_sub, Nat.min_eq_left (Nat.sub_le_sub_left (Nat.le_add_right m n) _)]

end Activation

namespace Exec

variable {α β : Type}

@[simp] lemma pure_apply (v : α) (a : Activation) : (pure v : Exec α) a = .ok v a := rfl

@[simp] lemma get_apply (a : Activation) : (get : Exec Activation) a = .ok a a := rfl

@[simp] lemma bind_apply (x : Exec α) (f : α → Exec β) (a : Activation) :
    (x >>= f) a = match x a with
      | .ok v b => f v b
      | .error e b => .error e b := by
  simp only [bind, EStateM.bind]
  cases x a <;> rfl

@[simp] lemma map_apply (f : α → β) (x : Exec α) (a : Activation) :
    (f <$> x) a = match x a with
      | .ok v b => .ok (f v) b
      | .error e b => .error e b := by
  simp only [Functor.map, EStateM.map]
  cases x a <;> rfl

@[simp] lemma abort_apply (e : FatalError) (a : Activation) :
    (abort e : Exec α) a = .error (.fatal e) a := rfl

@[simp] lemma modifyFrame_apply (f : Frame → Frame) (a : Activation) :
    modifyFrame f a = .ok () { a with frame := f a.frame } := rfl

@[simp] lemma setLastFault_apply (fault : Option Fault) (a : Activation) :
    setLastFault fault a = .ok () { a with lastFault := fault } := rfl

@[simp] lemma onHeap_make_apply (f : Heap → α × Heap) (a : Activation) :
    onHeap (HeapM.make f) a = .ok (f a.heap).1 { a with heap := (f a.heap).2 } := rfl

/-! ## The operand stack -/

@[simp] lemma push_apply (v : Value) (a : Activation) :
    push v a = .ok () { a with frame := { a.frame with stack := a.frame.stack.push v } } := rfl

@[simp] lemma pushAll_apply (vs : List Value) (a : Activation) :
    pushAll vs a =
      .ok () { a with frame := { a.frame with stack := a.frame.stack ++ vs.toArray } } := by
  induction vs generalizing a with
  | nil => simp [pushAll]
  | cons v vs ih => simp [pushAll, ih]

lemma append_toArray_cons (stack : Array Value) (v : Value) (vs : List Value) :
    stack ++ (v :: vs).toArray = stack.push v ++ vs.toArray := by
  apply Array.toList_inj.1
  simp

/-- The top of a stack is taken off. -/
lemma pop_apply {a : Activation} {stack : Array Value} {v : Value}
    (h : a.frame.stack = stack.push v) :
    pop a = .ok v { a with frame := { a.frame with stack := stack } } := by
  simp [pop, h]

lemma popN_apply {n : Nat} {a : Activation} (h : n ≤ a.frame.stack.size) :
    popN n a =
      .ok (a.frame.stack.extract (a.frame.stack.size - n) a.frame.stack.size).toList
        { a with frame := { a.frame with
          stack := a.frame.stack.take (a.frame.stack.size - n) } } := by
  simp [popN, Nat.not_lt.2 h]

lemma popN_underflow {n : Nat} {a : Activation} (h : a.frame.stack.size < n) :
    popN n a = .error (.fatal (.stackUnderflow n a.frame.stack.size)) a := by
  simp [popN, h]

/-- Values that have been taken off were there. -/
lemma popN_ok {n : Nat} {a b : Activation} {vs : List Value} (h : popN n a = .ok vs b) :
    n ≤ a.frame.stack.size ∧ b = a.dropTop n := by
  by_cases hn : n ≤ a.frame.stack.size
  · rw [popN_apply hn] at h
    cases h
    exact ⟨hn, rfl⟩
  · rw [popN_underflow (Nat.lt_of_not_le hn)] at h
    cases h

lemma pop_ok {a b : Activation} {v : Value} (h : pop a = .ok v b) :
    1 ≤ a.frame.stack.size ∧ b = a.dropTop 1 := by
  by_cases hempty : a.frame.stack = #[]
  · simp [pop, hempty] at h
  · obtain ⟨stack, w, hstack⟩ := Array.exists_push_of_ne_empty hempty
    rw [pop_apply hstack] at h
    cases h
    simp [hstack, Activation.dropTop]

lemma truncate_apply {n : Nat} {a : Activation} (h : n ≤ a.frame.stack.size) :
    truncate n a =
      .ok () { a with frame := { a.frame with stack := a.frame.stack.take n } } := by
  simp [truncate, Nat.not_lt.2 h]

lemma truncate_underflow {n : Nat} {a : Activation} (h : a.frame.stack.size < n) :
    truncate n a = .error (.fatal (.stackUnderflow n a.frame.stack.size)) a := by
  simp [truncate, h]

/-! ## Jumps and blocks -/

@[simp] lemma jump_apply (target : Nat) (a : Activation) :
    jump target a = .ok () { a with frame := { a.frame with ip := target } } := rfl

@[simp] lemma pushBlock_apply (kind : BlockKind) (handler : Nat) (a : Activation) :
    pushBlock kind handler a = .ok () { a with frame := { a.frame with
      blocks := ⟨kind, handler, a.frame.stack.size⟩ :: a.frame.blocks } } := rfl

end Exec

end StackMachine
