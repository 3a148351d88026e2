import StackMachine.Proofs.Primitives
import StackMachine.Run.Unwind
/-!
# Unwinding, block by block

Unwinding offers a signal to the blocks of a frame.  Here its recursion is turned into equations:
which blocks take a signal (`Block.takes`), how high the operand stack must be for a block to be
removed (`Block.need`), when a row of blocks can be removed one after the other (`Clears`), and what
is left of the activation then (`Activation.leaveAll`).

`unwindThrough_append` says that blocks which do not take the signal are passed, and
`unwindThrough_underflow` that a stack which is too low is the one way in which passing fails.
Everything else about unwinding is about the one block that takes the signal, if there is one.
-/

namespace StackMachine

namespace Block

/-- The height that the operand stack must have for the block to be removed.  A handler block owns
the three values above its own height. -/
def need (b : Block) : Nat := if b.kind = .exceptHandler then b.height + 3 else b.height

/-- Whether the block absorbs the signal. -/
def takes (b : Block) (s : Signal) : Bool :=
  match b.kind, s with
  | .loop, .breaking | .loop, .continuing _ | .tryExcept, .raising _ | .tryFinally, _ => true
  | _, _ => false

/-- The last fault after the block has been removed: a handler block gives back the one that the
three values above its height stand for. -/
def restored (b : Block) (stack : Array Value) (last : Option Fault) : Option Fault :=
  if b.kind = .exceptHandler then
    match (stack.extract b.height (b.height + 3)).toList with
    | [trace, value, kind] => Exec.storedFault? trace value kind
    | _ => none
  else last

lemma height_le_need (b : Block) : b.height ≤ b.need := by
  unfold need
  split <;> omega

end Block

/-- The blocks can be removed one after the other, innermost first, from an operand stack of that
height: it has the height that the first one needs, and each block leaves the height that the next
one needs. -/
def Clears : List Block → (height : Nat) → Prop
  | [], _ => True
  | b :: rest, height => b.need ≤ height ∧ Clears rest b.height

instance : (blocks : List Block) → (height : Nat) → Decidable (Clears blocks height)
  | [], _ => .isTrue trivial
  | b :: rest, height =>
    have := instDecidableClears rest b.height
    inferInstanceAs (Decidable (b.need ≤ height ∧ Clears rest b.height))

/-- The height of the operand stack after the blocks have been removed from it. -/
def heightBelow (blocks : List Block) (height : Nat) : Nat :=
  blocks.foldl (fun _ b => b.height) height

/-- The last fault after the blocks have been removed, innermost first. -/
def restoredBy (blocks : List Block) (stack : Array Value) (last : Option Fault) : Option Fault :=
  blocks.foldl (fun last b => b.restored stack last) last

/-- The three values that stand for a fault on the stack, of which the two that are objects are
numbered from `id` on. -/
def Fault.triple (f : Fault) (id : Nat) : List Value :=
  [.traceback id f.trace, .exception (id + 1) f.kind f.value, .exceptionType f.kind]

section Rows

variable {b : Block} {blocks rest : List Block} {height : Nat} {stack : Array Value}

/-- The first block of a kind cuts a row of blocks in two. -/
lemma eq_append_of_find? {p : Block → Bool} (h : blocks.find? p = some b) :
    blocks = blocks.takeWhile (!p ·) ++ b :: (blocks.dropWhile (!p ·)).tail := by
  obtain ⟨hb, above, below, rfl, habove⟩ := List.find?_eq_some_iff_append.1 h
  have htake : (above ++ b :: below).takeWhile (!p ·) = above := by
    simp [List.takeWhile_append_of_pos habove, hb]
  have hdrop : (above ++ b :: below).dropWhile (!p ·) = b :: below := by
    simp [List.dropWhile_append_of_pos habove, hb]
  rw [htake, hdrop, List.tail_cons]

/-- Without a block of the kind there is nothing to cut. -/
lemma takeWhile_eq_of_find? {p : Block → Bool} (h : blocks.find? p = none) :
    blocks.takeWhile (!p ·) = blocks := by
  have hall : ∀ b ∈ blocks, (!p b) = true := by simpa using h
  have := @List.takeWhile_append_of_pos _ _ blocks [] hall
  simpa using this

lemma mem_takeWhile_not {p : Block → Bool} (h : b ∈ blocks.takeWhile (!p ·)) : p b = false := by
  have := List.all_eq_true.1 List.all_takeWhile b h
  simpa using this

lemma heightBelow_le (h : Clears blocks height) : heightBelow blocks height ≤ height := by
  induction blocks generalizing height with
  | nil => exact Nat.le_refl height
  | cons b rest ih =>
    calc heightBelow (b :: rest) height = heightBelow rest b.height := rfl
      _ ≤ b.height := ih h.2
      _ ≤ b.need := b.height_le_need
      _ ≤ height := h.1

lemma clears_append :
    Clears (blocks ++ rest) height ↔
      Clears blocks height ∧ Clears rest (heightBelow blocks height) := by
  induction blocks generalizing height with
  | nil => simp [Clears, heightBelow]
  | cons b blocks ih => simp [Clears, ih, heightBelow, and_assoc]

/-- Cutting the stack above what a block needs does not change what the block gives back. -/
lemma Block.restored_take (h : b.need ≤ height) (last : Option Fault) :
    b.restored (stack.take height) last = b.restored stack last := by
  unfold Block.restored
  split
  · next hk =>
    have hmin : min (b.height + 3) height = b.height + 3 := by
      simp only [Block.need, hk, if_true] at h
      omega
    simp [hmin]
  · rfl

lemma restoredBy_take (h : Clears blocks height) (last : Option Fault) :
    restoredBy blocks (stack.take height) last = restoredBy blocks stack last := by
  induction blocks generalizing height stack last with
  | nil => rfl
  | cons b rest ih =>
    have hb : b.height ≤ height := Nat.le_trans b.height_le_need h.1
    have hcut : (stack.take height).take b.height = stack.take b.height := by
      simp [Nat.min_eq_left hb]
    calc restoredBy (b :: rest) (stack.take height) last
        = restoredBy rest (stack.take height) (b.restored (stack.take height) last) := rfl
      _ = restoredBy rest stack (b.restored stack last) := by
        rw [← ih h.2, hcut, ih h.2, Block.restored_take h.1]

end Rows

/-- The values that a finally block puts on the stack for its body when it absorbs a signal that is
no fault: what the signal carries, and a marker that tells which signal it was. -/
def Signal.marker : Signal → List Value
  | .returning v => [v, .why .returning]
  | .breaking => [.why .breaking]
  | .continuing target => [.int (Int64.ofNat target), .why .continuing]
  | .raising _ => []

namespace Activation

/-- The activation after the block has been removed and unwound; `rest` are the blocks below. -/
def leave (a : Activation) (b : Block) (rest : List Block) : Activation :=
  { a with
    frame := { a.frame with stack := a.frame.stack.take b.height, blocks := rest }
    lastFault := b.restored a.frame.stack a.lastFault }

/-- The activation after all of `passed` have been removed and unwound, innermost first; `rest` are
the blocks below. -/
def leaveAll (a : Activation) (passed rest : List Block) : Activation :=
  { a with
    frame := { a.frame with
      stack := a.frame.stack.take (heightBelow passed a.frame.stack.size)
      blocks := rest }
    lastFault := restoredBy passed a.frame.stack a.lastFault }

lemma leaveAll_height {a : Activation} {passed : List Block} (h : Clears passed a.frame.stack.size)
    (rest : List Block) :
    (a.leaveAll passed rest).frame.stack.size = heightBelow passed a.frame.stack.size := by
  simp [leaveAll, Nat.min_eq_left (heightBelow_le h)]

/-- The activation in which the finally block `b` has absorbed a signal that is no fault; `rest` are
the blocks below. -/
def deferred (a : Activation) (b : Block) (rest : List Block) (s : Signal) : Activation :=
  { a with frame := { a.frame with
      stack := a.frame.stack.take b.height ++ s.marker.toArray
      blocks := rest
      ip := b.handler } }

/-- The activation in which the handler of `b` has caught the fault, after `b` has been removed;
`rest` are the blocks below.  The two copies of the fault are new objects. -/
def caught (a : Activation) (b : Block) (rest : List Block) (f : Fault) : Activation :=
  { a with
    frame := { a.frame with
      stack := a.frame.stack.take b.height ++
        (f.triple a.heap.nextId ++ f.triple (a.heap.nextId + 2)).toArray
      blocks := ⟨.exceptHandler, 0, b.height⟩ :: rest
      ip := b.handler }
    heap := { a.heap with nextId := a.heap.nextId + 4 }
    lastFault := some f }

end Activation

namespace Exec

/-! ## One block -/

lemma leaveBlock_apply {b : Block} {a : Activation} (h : b.need ≤ a.frame.stack.size) :
    leaveBlock b a = .ok () (a.leave b a.frame.blocks) := by
  by_cases hk : b.kind = .exceptHandler
  · have hneed : b.height + 3 ≤ a.frame.stack.size := by simpa [Block.need, hk] using h
    have hsize : min (b.height + 3) a.frame.stack.size = b.height + 3 := by omega
    simp [leaveBlock, hk, truncate_apply hneed, popN_apply, hsize, Activation.leave,
      Block.restored]
    split <;> simp_all
  · have hneed : b.height ≤ a.frame.stack.size := by simpa [Block.need, hk] using h
    simp [leaveBlock, hk, truncate_apply hneed, Activation.leave, Block.restored]

lemma leaveBlock_underflow {b : Block} {a : Activation} (h : a.frame.stack.size < b.need) :
    leaveBlock b a = .error (.fatal (.stackUnderflow b.need a.frame.stack.size)) a := by
  by_cases hk : b.kind = .exceptHandler
  · simp only [Block.need, hk, if_true] at h ⊢
    simp [leaveBlock, hk, truncate_underflow h]
  · simp only [Block.need, hk, if_false] at h ⊢
    simp [leaveBlock, hk, truncate_underflow h]

/-- A block that does not take a signal lets it pass. -/
lemma absorbed_of_not_takes {b : Block} {s : Signal} (h : b.takes s = false) :
    absorbed b s = pure false := by
  unfold absorbed
  split <;> simp_all [Block.takes]

lemma pushFault_apply (f : Fault) (a : Activation) : pushFault f a =
    .ok () { a with
      frame := { a.frame with stack := a.frame.stack ++ (f.triple a.heap.nextId).toArray }
      heap := { a.heap with nextId := a.heap.nextId + 2 } } := by
  have hstack : ((a.frame.stack.push (.traceback a.heap.nextId f.trace)).push
      (.exception (a.heap.nextId + 1) f.kind f.value)).push (.exceptionType f.kind) =
        a.frame.stack ++ (f.triple a.heap.nextId).toArray := by
    apply Array.toList_inj.1
    simp [Fault.triple]
  simp [pushFault, HeapM.exception, Heap.newTraceback, Heap.newException, Heap.fresh, hstack]

/-- Catching a fault that a removed block has taken. -/
lemma absorbed_raising {b : Block} {f : Fault} (h : b.takes (.raising f)) (a : Activation)
    (hsize : a.frame.stack.size = b.height) :
    absorbed b (.raising f) a = .ok true (a.caught b a.frame.blocks f) := by
  have habsorbed : absorbed b (.raising f) =
      (do catchFault f; setLastFault (some f); jump b.handler; pure true) := by
    cases hk : b.kind <;> simp_all [Block.takes, absorbed]
  have htake : a.frame.stack.extract 0 b.height = a.frame.stack := by simp [← hsize]
  simp [habsorbed, catchFault, pushFault_apply, Activation.caught, htake, hsize]

/-- A finally block absorbs every signal. -/
lemma absorbed_finally {b : Block} {s : Signal} (hk : b.kind = .tryFinally)
    (hs : ∀ f, s ≠ .raising f) (a : Activation) :
    absorbed b s a = .ok true { a with frame := { a.frame with
      stack := a.frame.stack ++ s.marker.toArray
      ip := b.handler } } := by
  cases s with
  | raising f => exact absurd rfl (hs f)
  | breaking => simp [absorbed, hk, Signal.marker]
  | returning v => simp [absorbed, hk, Signal.marker]
  | continuing target => simp [absorbed, hk, Signal.marker]

/-- A loop that is left. -/
lemma absorbed_breaking {b : Block} (hk : b.kind = .loop) (a : Activation) :
    absorbed b .breaking a = .ok true { a with frame := { a.frame with ip := b.handler } } := by
  simp [absorbed, hk]

/-- Unwinding the innermost block, unless it is a loop that is continued. -/
lemma unwindThrough_cons {b : Block} {s : Signal} {rest : List Block}
    (hloop : ∀ target, b.kind = .loop → s ≠ .continuing target) :
    unwindThrough s (b :: rest) = (do
      modifyFrame fun f => { f with blocks := rest }
      leaveBlock b
      if ← absorbed b s then pure none else unwindThrough s rest) := by
  rw [unwindThrough]
  exact hloop

lemma ne_continuing_of_not_takes {b : Block} {s : Signal} (hb : b.takes s = false) :
    ∀ target, b.kind = .loop → s ≠ .continuing target := by
  rintro target hk rfl
  simp [Block.takes, hk] at hb

/-- A block that does not take the signal is removed, and the blocks below are offered it. -/
lemma unwindThrough_cons_of_not_takes {b : Block} {s : Signal} {rest : List Block}
    {a : Activation} (hb : b.takes s = false) (hneed : b.need ≤ a.frame.stack.size) :
    unwindThrough s (b :: rest) a = unwindThrough s rest (a.leave b rest) := by
  have hleave : leaveBlock b { a with frame := { a.frame with blocks := rest } } =
      .ok () (a.leave b rest) := leaveBlock_apply hneed
  rw [unwindThrough_cons (ne_continuing_of_not_takes hb)]
  simp [hleave, absorbed_of_not_takes hb]

/-- A stack that is too low for a block that has to be removed ends the run. -/
lemma unwindThrough_cons_underflow {b : Block} {s : Signal} {rest : List Block} {a : Activation}
    (hloop : ∀ target, b.kind = .loop → s ≠ .continuing target)
    (hneed : a.frame.stack.size < b.need) :
    unwindThrough s (b :: rest) a =
      .error (.fatal (.stackUnderflow b.need a.frame.stack.size))
        { a with frame := { a.frame with blocks := rest } } := by
  have hleave := leaveBlock_underflow (a := { a with frame := { a.frame with blocks := rest } })
    hneed
  rw [unwindThrough_cons hloop]
  simp [hleave]

/-- A block that takes a fault catches it. -/
lemma unwindThrough_cons_raising {b : Block} {f : Fault} {rest : List Block} {a : Activation}
    (hb : b.takes (.raising f)) (hneed : b.need ≤ a.frame.stack.size) :
    unwindThrough (.raising f) (b :: rest) a = .ok none (a.caught b rest f) := by
  have hleave : leaveBlock b { a with frame := { a.frame with blocks := rest } } =
      .ok () (a.leave b rest) := leaveBlock_apply hneed
  have hsize : (a.leave b rest).frame.stack.size = b.height := by
    have := b.height_le_need
    simp [Activation.leave]
    omega
  rw [unwindThrough_cons (by simp)]
  simp [hleave, absorbed_raising hb _ hsize]
  simp [Activation.caught, Activation.leave]

/-- A finally block holds a signal that is no fault back. -/
lemma unwindThrough_cons_finally {b : Block} {s : Signal} {rest : List Block} {a : Activation}
    (hk : b.kind = .tryFinally) (hs : ∀ f, s ≠ .raising f)
    (hneed : b.need ≤ a.frame.stack.size) :
    unwindThrough s (b :: rest) a = .ok none (a.deferred b rest s) := by
  have hleave : leaveBlock b { a with frame := { a.frame with blocks := rest } } =
      .ok () (a.leave b rest) := leaveBlock_apply hneed
  rw [unwindThrough_cons (by simp [hk])]
  simp [hleave, absorbed_finally hk hs]
  simp [Activation.deferred, Activation.leave, Block.restored, hk]

/-- A loop is left at its end. -/
lemma unwindThrough_cons_breaking {b : Block} {rest : List Block} {a : Activation}
    (hk : b.kind = .loop) (hneed : b.need ≤ a.frame.stack.size) :
    unwindThrough .breaking (b :: rest) a =
      .ok none { a.leave b rest with
        frame := { (a.leave b rest).frame with ip := b.handler } } := by
  have hleave : leaveBlock b { a with frame := { a.frame with blocks := rest } } =
      .ok () (a.leave b rest) := leaveBlock_apply hneed
  rw [unwindThrough_cons (by simp)]
  simp [hleave, absorbed_breaking hk]

/-- A loop is continued as it stands. -/
lemma unwindThrough_cons_continuing {b : Block} {target : Nat} {rest : List Block}
    {a : Activation} (hk : b.kind = .loop) :
    unwindThrough (.continuing target) (b :: rest) a =
      .ok none { a with frame := { a.frame with ip := target } } := by
  simp [unwindThrough, hk]

/-- A block that takes the signal absorbs it, unless the stack is too low. -/
lemma unwindThrough_cons_of_takes {b : Block} {s : Signal} {rest : List Block} {a : Activation}
    (hb : b.takes s) (hneed : b.need ≤ a.frame.stack.size) :
    ∃ a', unwindThrough s (b :: rest) a = .ok none a' := by
  cases s with
  | raising f => exact ⟨_, unwindThrough_cons_raising hb hneed⟩
  | returning v =>
    have hk : b.kind = .tryFinally := by cases hk : b.kind <;> simp_all [Block.takes]
    exact ⟨_, unwindThrough_cons_finally hk (by simp) hneed⟩
  | breaking =>
    have hk : b.kind = .loop ∨ b.kind = .tryFinally := by
      cases hk : b.kind <;> simp_all [Block.takes]
    rcases hk with hk | hk
    · exact ⟨_, unwindThrough_cons_breaking hk hneed⟩
    · exact ⟨_, unwindThrough_cons_finally hk (by simp) hneed⟩
  | continuing target =>
    have hk : b.kind = .loop ∨ b.kind = .tryFinally := by
      cases hk : b.kind <;> simp_all [Block.takes]
    rcases hk with hk | hk
    · exact ⟨_, unwindThrough_cons_continuing hk⟩
    · exact ⟨_, unwindThrough_cons_finally hk (by simp) hneed⟩

/-! ## A row of blocks -/

lemma leave_leaveAll {b : Block} {passed rest : List Block} {a : Activation}
    (hc : Clears (b :: passed) a.frame.stack.size) :
    (a.leave b (passed ++ rest)).leaveAll passed rest = a.leaveAll (b :: passed) rest := by
  have hb : b.height ≤ a.frame.stack.size := Nat.le_trans b.height_le_need hc.1
  have hsize : (a.frame.stack.take b.height).size = b.height := by simp [hb]
  have hbelow : heightBelow passed b.height ≤ b.height := heightBelow_le hc.2
  have hcut : (a.frame.stack.take b.height).take (heightBelow passed b.height) =
      a.frame.stack.take (heightBelow passed b.height) := by
    simp [Nat.min_eq_left hbelow]
  simp only [Activation.leaveAll, Activation.leave, hsize, hcut, restoredBy_take hc.2]
  rfl

/-- Blocks that do not take the signal are passed. -/
lemma unwindThrough_append {s : Signal} {passed rest : List Block} {a : Activation}
    (hpass : ∀ b ∈ passed, b.takes s = false) (hblocks : a.frame.blocks = passed ++ rest)
    (hc : Clears passed a.frame.stack.size) :
    unwindThrough s (passed ++ rest) a = unwindThrough s rest (a.leaveAll passed rest) := by
  induction passed generalizing a with
  | nil =>
    have hrest : a.frame.blocks = rest := hblocks
    have : a.leaveAll [] rest = a := by
      subst hrest
      simp [Activation.leaveAll, heightBelow, restoredBy]
    rw [this, List.nil_append]
  | cons b passed ih =>
    have hb := hpass b List.mem_cons_self
    have hpass' : ∀ c ∈ passed, c.takes s = false := fun c hc => hpass c (List.mem_cons_of_mem b hc)
    have hsize : (a.leave b (passed ++ rest)).frame.stack.size = b.height := by
      have := Nat.le_trans b.height_le_need hc.1
      simp [Activation.leave, this]
    calc unwindThrough s (b :: (passed ++ rest)) a
        = unwindThrough s (passed ++ rest) (a.leave b (passed ++ rest)) :=
          unwindThrough_cons_of_not_takes hb hc.1
      _ = unwindThrough s rest ((a.leave b (passed ++ rest)).leaveAll passed rest) :=
          ih hpass' rfl (hsize ▸ hc.2)
      _ = unwindThrough s rest (a.leaveAll (b :: passed) rest) := by rw [leave_leaveAll hc]

/-- Unwinding comes down to a block if the blocks above it do not take the signal. -/
lemma unwind_append {s : Signal} {b : Block} {passed rest : List Block} {a : Activation}
    (hpass : ∀ c ∈ passed, c.takes s = false) (hblocks : a.frame.blocks = passed ++ b :: rest)
    (hc : Clears passed a.frame.stack.size)
    (hneed : b.need ≤ heightBelow passed a.frame.stack.size) :
    unwind s a = unwindThrough s (b :: rest) (a.leaveAll passed (b :: rest)) ∧
      b.need ≤ (a.leaveAll passed (b :: rest)).frame.stack.size := by
  constructor
  · rw [← unwindThrough_append hpass hblocks hc, ← hblocks]
    rfl
  · rw [Activation.leaveAll_height hc]
    exact hneed

/-- A signal that no block takes leaves the frame. -/
lemma unwind_leaving {s : Signal} {a : Activation} (hpass : ∀ c ∈ a.frame.blocks, c.takes s = false)
    (hc : Clears a.frame.blocks a.frame.stack.size) :
    unwind s a = .ok (some s) (a.leaveAll a.frame.blocks []) := by
  have hblocks : a.frame.blocks = a.frame.blocks ++ [] := (List.append_nil _).symm
  have hrun := unwindThrough_append hpass hblocks hc
  rw [List.append_nil] at hrun
  exact hrun

/-- Blocks that do not take the signal are passed unless the stack is too low for one of them. -/
lemma unwindThrough_underflow {s : Signal} {passed rest : List Block} {a : Activation}
    (hpass : ∀ b ∈ passed, b.takes s = false) (hc : ¬ Clears passed a.frame.stack.size) :
    ∃ b ∈ passed, ∃ found < b.need, ∃ a', unwindThrough s (passed ++ rest) a =
      .error (.fatal (.stackUnderflow b.need found)) a' := by
  induction passed generalizing a with
  | nil => exact absurd trivial hc
  | cons b passed ih =>
    have hb := hpass b List.mem_cons_self
    by_cases hneed : b.need ≤ a.frame.stack.size
    · have hsize : (a.leave b (passed ++ rest)).frame.stack.size = b.height := by
        have := Nat.le_trans b.height_le_need hneed
        simp [Activation.leave, this]
      have hc' : ¬ Clears passed (a.leave b (passed ++ rest)).frame.stack.size := by
        rw [hsize]
        exact fun h => hc ⟨hneed, h⟩
      obtain ⟨c, hcm, found, hfound, a', h⟩ :=
        ih (fun c hc => hpass c (List.mem_cons_of_mem b hc)) hc'
      refine ⟨c, List.mem_cons_of_mem b hcm, found, hfound, a', ?_⟩
      rw [← h]
      exact unwindThrough_cons_of_not_takes hb hneed
    · exact ⟨b, List.mem_cons_self, _, Nat.lt_of_not_le hneed, _,
        unwindThrough_cons_underflow (ne_continuing_of_not_takes hb) (Nat.lt_of_not_le hneed)⟩

/-- How unwinding ends: the stack is too low for a block, a block absorbs the signal, or the very
same signal leaves the frame. -/
lemma unwindThrough_cases (s : Signal) (blocks : List Block) (a : Activation) :
    (∃ needed found a', unwindThrough s blocks a =
      .error (.fatal (.stackUnderflow needed found)) a') ∨
    (∃ a', unwindThrough s blocks a = .ok none a') ∨
    ∃ a', unwindThrough s blocks a = .ok (some s) a' := by
  induction blocks generalizing a with
  | nil => exact .inr (.inr ⟨a, rfl⟩)
  | cons b rest ih =>
    by_cases hneed : b.need ≤ a.frame.stack.size
    · cases hb : b.takes s with
      | true => exact .inr (.inl (unwindThrough_cons_of_takes hb hneed))
      | false =>
        rw [unwindThrough_cons_of_not_takes hb hneed]
        exact ih (a.leave b rest)
    · by_cases hloop : ∃ target, b.kind = .loop ∧ s = .continuing target
      · obtain ⟨target, hk, rfl⟩ := hloop
        exact .inr (.inl ⟨_, unwindThrough_cons_continuing hk⟩)
      · have hloop' : ∀ target, b.kind = .loop → s ≠ .continuing target :=
          fun target hk hs => hloop ⟨target, hk, hs⟩
        exact .inl ⟨_, _, _, unwindThrough_cons_underflow hloop' (Nat.lt_of_not_le hneed)⟩

lemma unwind_cases (s : Signal) (a : Activation) :
    (∃ needed found a', unwind s a = .error (.fatal (.stackUnderflow needed found)) a') ∨
    (∃ a', unwind s a = .ok none a') ∨
    ∃ a', unwind s a = .ok (some s) a' :=
  unwindThrough_cases s a.frame.blocks a

/-- A signal that has left the frame has passed all blocks, and the stack was high enough for it. -/
lemma unwindThrough_left {s s' : Signal} {blocks : List Block} {a a' : Activation}
    (h : unwindThrough s blocks a = .ok (some s') a') :
    (∀ b ∈ blocks, b.takes s = false) ∧ Clears blocks a.frame.stack.size := by
  induction blocks generalizing a with
  | nil => exact ⟨by simp, trivial⟩
  | cons b rest ih =>
    have hloop : ∀ target, b.kind = .loop → s ≠ .continuing target := by
      rintro target hk rfl
      rw [unwindThrough_cons_continuing hk] at h
      cases h
    have hneed : b.need ≤ a.frame.stack.size := by
      refine Nat.le_of_not_lt fun hlow => ?_
      rw [unwindThrough_cons_underflow hloop hlow] at h
      cases h
    cases hb : b.takes s with
    | true =>
      obtain ⟨_, hrun⟩ := @unwindThrough_cons_of_takes b s rest a hb hneed
      rw [hrun] at h
      cases h
    | false =>
      rw [unwindThrough_cons_of_not_takes hb hneed] at h
      obtain ⟨hpass, hclears⟩ := ih h
      have hsize : (a.leave b rest).frame.stack.size = b.height := by
        have := Nat.le_trans b.height_le_need hneed
        simp [Activation.leave, this]
      exact ⟨List.forall_mem_cons.2 ⟨hb, hpass⟩, hneed, hsize ▸ hclears⟩

/-- What leaves the frame is the signal itself, and all blocks have been removed. -/
lemma unwind_left {s s' : Signal} {a a' : Activation} (h : unwind s a = .ok (some s') a') :
    s' = s ∧ a' = a.leaveAll a.frame.blocks [] := by
  obtain ⟨hpass, hclears⟩ := unwindThrough_left h
  rw [unwind_leaving hpass hclears] at h
  cases h
  exact ⟨rfl, rfl⟩

end Exec

end StackMachine
