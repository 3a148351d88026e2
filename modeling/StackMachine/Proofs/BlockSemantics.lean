import StackMachine.Proofs.LastFault
/-!
# The semantics of blocks

Unwinding works block by block: each block that is passed cuts the operand stack, and a handler
block writes the last fault.  What comes out can be said without these steps.  The innermost block
that takes the signal divides the blocks in two, and then everything is read off the activation as
it was before: the stack is a prefix of what it was, and of the handler blocks that are removed only
the outermost one counts.  `Activation.unwound` says so, one case after the other.

The two agree wherever unwinding succeeds, and it succeeds exactly when each block that is removed
finds the height that it needs (`unwind_exact`).  Heights are compared with what the block above has
left, so for the blocks of arbitrary code this is a condition on the whole row (`Clears`), not on
each block and the stack.
-/

namespace StackMachine

/-! ## The reference -/

namespace Signal

/-- The blocks above the one that takes the signal; all of them, if none does. -/
def passed (s : Signal) (blocks : List Block) : List Block := blocks.takeWhile (!·.takes s)

/-- The block that takes the signal, and the blocks below it. -/
def met (s : Signal) (blocks : List Block) : List Block := blocks.dropWhile (!·.takes s)

/-- Whether the block stays where it takes the signal: a loop that is continued. -/
def keeps (s : Signal) (b : Block) : Bool :=
  match s, b.kind with
  | .continuing _, .loop => true
  | _, _ => false

/-- The blocks that the signal removes. -/
def removed (s : Signal) (blocks : List Block) : List Block :=
  s.passed blocks ++ ((s.met blocks).head?.filter (!s.keeps ·)).toList

end Signal

/-- The operand stack, cut back to the height of the outermost of the blocks. -/
def cutBy (blocks : List Block) (stack : Array Value) : Array Value :=
  match blocks.getLast? with
  | some b => stack.take b.height
  | none => stack

/-- The last fault, as the outermost handler block among the blocks gives it back. -/
def givenBackBy (blocks : List Block) (stack : Array Value) (last : Option Fault) : Option Fault :=
  match outermostHandler? blocks with
  | some b => b.restored stack none
  | none => last

namespace Activation

/-- The activation after the blocks `above` have been removed; `rest` are the blocks below. -/
def without (a : Activation) (above rest : List Block) : Activation :=
  { a with
    frame := { a.frame with stack := cutBy above a.frame.stack, blocks := rest }
    lastFault := givenBackBy above a.frame.stack a.lastFault }

/-- The activation after the block `b`, between `above` and `below`, has taken the signal. -/
def takenAt (a : Activation) (above : List Block) (b : Block) (below : List Block) (s : Signal) :
    Activation :=
  let last := givenBackBy above a.frame.stack a.lastFault
  match b.kind, s with
  | .loop, .continuing target =>
    let a' := a.without above (b :: below)
    { a' with frame := { a'.frame with ip := target } }
  | .loop, _ =>
    { a with
      frame := { a.frame with
        stack := a.frame.stack.take b.height
        blocks := below
        ip := b.handler }
      lastFault := last }
  | _, .raising f => a.caught b below f
  | _, s => { a.deferred b below s with lastFault := last }

/-- What comes of a signal that is offered to the blocks of the frame: the signal, if it leaves the
frame, and the activation then. -/
def unwound (a : Activation) (s : Signal) : Option Signal × Activation :=
  let above := s.passed a.frame.blocks
  match s.met a.frame.blocks with
  | [] => (some s, a.without above [])
  | b :: below => (none, a.takenAt above b below s)

end Activation

/-! ## Agreement -/

section Rows

variable {s : Signal} {b : Block} {blocks below : List Block}

lemma heightBelow_eq (blocks : List Block) (height : Nat) :
    heightBelow blocks height = (blocks.getLast?.map Block.height).getD height := by
  induction blocks generalizing height with
  | nil => rfl
  | cons b rest ih =>
    have hrest : heightBelow (b :: rest) height = heightBelow rest b.height := rfl
    rw [hrest, ih, List.getLast?_cons]
    cases rest.getLast? <;> rfl

lemma cutBy_eq (blocks : List Block) (stack : Array Value) :
    cutBy blocks stack = stack.take (heightBelow blocks stack.size) := by
  rw [cutBy, heightBelow_eq]
  cases blocks.getLast? <;> simp

/-- Removing a row of blocks one after the other comes to the same. -/
lemma Activation.leaveAll_eq (a : Activation) (above rest : List Block) :
    a.leaveAll above rest = a.without above rest := by
  have hlast := restoredBy_eq above a.frame.stack a.lastFault
  rw [leaveAll, without, cutBy_eq, hlast]
  rfl

lemma Signal.passed_append_met (s : Signal) (blocks : List Block) :
    s.passed blocks ++ s.met blocks = blocks :=
  List.takeWhile_append_dropWhile

lemma Signal.takes_of_mem_passed : ∀ c ∈ s.passed blocks, c.takes s = false :=
  fun _ => mem_takeWhile_not

lemma Signal.takes_of_met (h : s.met blocks = b :: below) : b.takes s = true := by
  have hhead := List.head?_dropWhile_not (!·.takes s) blocks
  have hdrop : blocks.dropWhile (!·.takes s) = b :: below := h
  simpa [hdrop] using hhead

/-- When the blocks down to the one that takes the signal can be removed. -/
lemma Signal.clears_removed (h : s.met blocks = b :: below) (height : Nat) :
    Clears (s.removed blocks) height ↔ Clears (s.passed blocks) height ∧
      (s.keeps b = false → b.need ≤ heightBelow (s.passed blocks) height) := by
  rw [removed, h, clears_append, List.head?_cons, Option.filter_some]
  cases s.keeps b <;> simp [Clears]

end Rows

section Taken

variable {s : Signal} {b : Block} {above below : List Block} {a : Activation}

/-- The block that takes the signal, after the blocks above it have been removed.  It cuts the stack
once more, and below the earlier cuts, which thereby leave no trace. -/
lemma unwindThrough_taken (hb : b.takes s) (hkeeps : s.keeps b = false)
    (hneed : b.need ≤ (a.without above (b :: below)).frame.stack.size) :
    Exec.unwindThrough s (b :: below) (a.without above (b :: below)) =
      .ok none (a.takenAt above b below s) := by
  have hcut : (cutBy above a.frame.stack).take b.height = a.frame.stack.take b.height := by
    have hheight : b.height ≤ (cutBy above a.frame.stack).size :=
      Nat.le_trans b.height_le_need hneed
    rw [cutBy_eq] at hheight ⊢
    have hbelow : b.height ≤ heightBelow above a.frame.stack.size := by
      simp at hheight
      omega
    simp [Nat.min_eq_left hbelow]
  cases s with
  | raising f =>
    have hcaught : a.takenAt above b below (.raising f) = a.caught b below f := by
      cases hk : b.kind <;> simp_all [Block.takes, Activation.takenAt]
    rw [Exec.unwindThrough_cons_raising hb hneed, hcaught]
    simp only [Activation.caught, Activation.without, hcut]
  | returning v =>
    have hk : b.kind = .tryFinally := by cases hk : b.kind <;> simp_all [Block.takes]
    rw [Exec.unwindThrough_cons_finally hk (by simp) hneed]
    simp only [Activation.takenAt, hk, Activation.deferred, Activation.without, hcut]
  | breaking =>
    cases hk : b.kind with
    | tryFinally =>
      rw [Exec.unwindThrough_cons_finally hk (by simp) hneed]
      simp only [Activation.takenAt, hk, Activation.deferred, Activation.without, hcut]
    | loop =>
      rw [Exec.unwindThrough_cons_breaking hk hneed]
      simp [Activation.takenAt, hk, Activation.leave, Activation.without, hcut, Block.restored]
    | tryExcept | exceptHandler => simp [Block.takes, hk] at hb
  | continuing target =>
    have hk : b.kind = .tryFinally := by
      cases hk : b.kind <;> simp_all [Block.takes, Signal.keeps]
    rw [Exec.unwindThrough_cons_finally hk (by simp) hneed]
    simp only [Activation.takenAt, hk, Activation.deferred, Activation.without, hcut]

lemma Signal.eq_of_keeps (h : s.keeps b) : ∃ target, s = .continuing target ∧ b.kind = .loop := by
  cases s with
  | continuing target =>
    cases hk : b.kind with
    | loop => exact ⟨target, rfl, rfl⟩
    | _ => simp [keeps, hk] at h
  | _ => simp [keeps] at h

end Taken

lemma unwind_cleared {s : Signal} {a : Activation}
    (hc : Clears (s.removed a.frame.blocks) a.frame.stack.size) :
    Exec.unwind s a = .ok (a.unwound s).1 (a.unwound s).2 := by
  have hblocks := (s.passed_append_met a.frame.blocks).symm
  have hpassed := (clears_append.1 hc).1
  have hrun : Exec.unwind s a =
      Exec.unwindThrough s (s.met a.frame.blocks)
        (a.without (s.passed a.frame.blocks) (s.met a.frame.blocks)) := by
    have := Exec.unwindThrough_append Signal.takes_of_mem_passed hblocks hpassed
    rw [← hblocks, a.leaveAll_eq] at this
    exact this
  rw [hrun, Activation.unwound]
  cases hmet : s.met a.frame.blocks with
  | nil => rfl
  | cons b below =>
    cases hkeeps : s.keeps b with
    | true =>
      obtain ⟨target, rfl, hk⟩ := Signal.eq_of_keeps hkeeps
      rw [Exec.unwindThrough_cons_continuing hk]
      simp only [Activation.takenAt, hk]
    | false =>
      refine unwindThrough_taken (Signal.takes_of_met hmet) hkeeps ?_
      rw [← a.leaveAll_eq, a.leaveAll_height hpassed]
      exact ((Signal.clears_removed hmet _).1 hc).2 hkeeps

lemma unwind_not_cleared {s : Signal} {a : Activation}
    (hc : ¬ Clears (s.removed a.frame.blocks) a.frame.stack.size) :
    ∃ needed found a', found < needed ∧
      Exec.unwind s a = .error (.fatal (.stackUnderflow needed found)) a' := by
  have hblocks := (s.passed_append_met a.frame.blocks).symm
  by_cases hpassed : Clears (s.passed a.frame.blocks) a.frame.stack.size
  · obtain ⟨b, below, hmet, hkeeps, hneed⟩ : ∃ b below, s.met a.frame.blocks = b :: below ∧
        s.keeps b = false ∧
        heightBelow (s.passed a.frame.blocks) a.frame.stack.size < b.need := by
      cases hmet : s.met a.frame.blocks with
      | nil => simp [Signal.removed, hmet, hpassed] at hc
      | cons b below =>
        rw [Signal.clears_removed hmet] at hc
        have hlow : ¬ (s.keeps b = false → b.need ≤ _) := fun h => hc ⟨hpassed, h⟩
        rw [Classical.not_imp, Nat.not_le] at hlow
        exact ⟨b, below, rfl, hlow.1, hlow.2⟩
    have hrun := Exec.unwindThrough_append Signal.takes_of_mem_passed hblocks hpassed
    rw [← a.leaveAll_height hpassed (s.met a.frame.blocks)] at hneed
    have hloop : ∀ target, b.kind = .loop → s ≠ .continuing target := by
      rintro target hk rfl
      simp [Signal.keeps, hk] at hkeeps
    rw [hmet] at hrun hneed
    rw [Exec.unwindThrough_cons_underflow hloop hneed, ← hmet, ← hblocks] at hrun
    exact ⟨_, _, _, hneed, hrun⟩
  · obtain ⟨b, -, found, hfound, a', hrun⟩ := @Exec.unwindThrough_underflow s _
      (s.met a.frame.blocks) a Signal.takes_of_mem_passed hpassed
    rw [← hblocks] at hrun
    exact ⟨b.need, found, a', hfound, hrun⟩

/-- **Unwinding.**  Where unwinding succeeds, the answer and the activation are those of the
reference.  It succeeds exactly when the blocks that the signal removes find the heights that they
need, each one on the stack that the one above it has left; otherwise the stack is too low for one
of them, and that ends the run. -/
theorem unwind_exact (s : Signal) (a : Activation) :
    match Exec.unwind s a with
    | .ok answer a' =>
      Clears (s.removed a.frame.blocks) a.frame.stack.size ∧ (answer, a') = a.unwound s
    | .error failure _ =>
      ¬ Clears (s.removed a.frame.blocks) a.frame.stack.size ∧
        ∃ needed found, found < needed ∧ failure = .fatal (.stackUnderflow needed found) := by
  by_cases hc : Clears (s.removed a.frame.blocks) a.frame.stack.size
  · rw [unwind_cleared hc]
    exact ⟨hc, rfl⟩
  · obtain ⟨needed, found, a', hfound, hrun⟩ := unwind_not_cleared hc
    rw [hrun]
    exact ⟨hc, needed, found, hfound, rfl⟩

end StackMachine
