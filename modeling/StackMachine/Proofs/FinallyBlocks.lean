import StackMachine.Proofs.Confinement
import StackMachine.Proofs.Unwinding
/-!
# Finally blocks

A finally block holds back every signal that comes to it until its body has run, and the end of the
body sends the signal again.  So a signal that has to pass many finally blocks makes its way in
rounds: it is unwound as far as the next finally block, the body runs, and what `END_FINALLY` sends
is unwound in turn.  `Exec.sendThrough` is that way, with arbitrary bodies.

Two encodings meet here.  What unwinding leaves on the stack for the body is `Signal.message`, and
`execute_endFinally` reads the same signal from it.  A fault also leaves a handler block behind
(`Signal.context`) with three values of its own, which the next round has to remove; it finds them
where it needs them, so the blocks are still clear (`Clears`).
-/

namespace StackMachine

namespace Block

def isFinally (b : Block) : Bool := b.kind = .tryFinally

/-- Whether the block absorbs the signal for good: a loop that is left or continued, an except block
that catches a fault. -/
def absorbs (b : Block) (s : Signal) : Bool :=
  match b.kind, s with
  | .loop, .breaking | .loop, .continuing _ | .tryExcept, .raising _ => true
  | _, _ => false

lemma takes_eq (b : Block) (s : Signal) : b.takes s = (b.absorbs s || b.isFinally) := by
  unfold takes absorbs isFinally
  cases b.kind <;> cases s <;> rfl

lemma absorbs_of_isFinally {b : Block} (h : b.isFinally) (s : Signal) : b.absorbs s = false := by
  have hk : b.kind = .tryFinally := by simpa [isFinally] using h
  simp [absorbs, hk]

end Block

/-- The finally blocks of a row that a signal has to pass, innermost first. -/
def finallies (blocks : List Block) (s : Signal) : List Block :=
  (blocks.takeWhile (!·.absorbs s)).filter (·.isFinally)

/-- **Well-nested frames.**  The heights of the blocks do not fall from the outermost block to the
innermost one, and the operand stack has the height that every block needs.  A handler block needs
three values more than its height, so they are on the stack, below the height of the next block. -/
structure Frame.WellNested (f : Frame) : Prop where
  heights : f.blocks.Pairwise fun upper lower => lower.need ≤ upper.height
  stack : ∀ b ∈ f.blocks, b.need ≤ f.stack.size

lemma clears_iff_pairwise {blocks : List Block} {height : Nat} :
    Clears blocks height ↔
      (blocks.Pairwise fun upper lower => lower.need ≤ upper.height) ∧
        ∀ b ∈ blocks, b.need ≤ height := by
  induction blocks generalizing height with
  | nil => simp [Clears]
  | cons b blocks ih =>
    rw [List.pairwise_cons, List.forall_mem_cons, Clears, ih]
    constructor
    · rintro ⟨hb, hnested, hbelow⟩
      refine ⟨⟨hbelow, hnested⟩, hb, fun c hc => ?_⟩
      exact Nat.le_trans (hbelow c hc) (Nat.le_trans b.height_le_need hb)
    · rintro ⟨⟨hbelow, hnested⟩, hb, -⟩
      exact ⟨hb, hnested, hbelow⟩

/-- The blocks of a well-nested frame can be removed one after the other, and only those. -/
lemma Frame.wellNested_iff_clears {f : Frame} :
    f.WellNested ↔ Clears f.blocks f.stack.size := by
  rw [clears_iff_pairwise]
  exact ⟨fun h => ⟨h.heights, h.stack⟩, fun h => ⟨h.1, h.2⟩⟩

namespace Signal

/-- The values from which the end of a finally body reads the signal.  The objects among them are
numbered from `id` on. -/
def message (s : Signal) (id : Nat) : List Value :=
  match s with
  | .raising F => F.triple id
  | s => s.marker

/-- The block that a signal leaves behind where a finally block holds it back. -/
def context (s : Signal) (height : Nat) : List Block :=
  match s with
  | .raising _ => [⟨.exceptHandler, 0, height⟩]
  | _ => []

/-- If the signal continues a loop, then at a place of the code, which is shorter than `2 ^ 63`
bytes. -/
def ContinuesIn (s : Signal) (unit : CodeUnit) : Prop :=
  ∀ target, s = .continuing target → target ≤ unit.size ∧ unit.size < 1 <<< 63

end Signal

/-- A finally body has run: the operand stack and the blocks are as it has found them.  All else
that a body can change may have changed; the code it cannot change (`Exec.execute_confined`). -/
structure Activation.BodyRun (a b : Activation) : Prop where
  stack : b.frame.stack = a.frame.stack
  blocks : b.frame.blocks = a.frame.blocks
  code : b.frame.code = a.frame.code

/-- One round: the finally block that has held the signal back, the place where the frame went on,
and the signal that the end of the body has sent. -/
structure Passage where
  block : Block
  place : Nat
  sent : Signal

/-- How a signal has come through a frame. -/
structure Delivery where
  passages : List Passage
  /-- The block that has absorbed the signal for good. -/
  absorber? : Option Block
  /-- The signal that leaves the frame. -/
  leaving? : Option Signal
  last : Activation

/-- Sends a signal through the frame, in no more than so many rounds.  `body n` is what the finally
body does that runs when `n` rounds are left. -/
def Exec.sendThrough (body : Nat → Activation → Activation) :
    (rounds : Nat) → Signal → Activation → Option Delivery
  | 0, _, _ => none
  | n + 1, s, a =>
    match Exec.unwind s a with
    | .error _ _ => none
    | .ok (some s) b => some ⟨[], none, some s, b⟩
    | .ok none b =>
      -- Unwinding has stopped at the innermost block that takes the signal.
      match a.frame.blocks.find? (·.takes s) with
      | none => none
      | some stop =>
        if stop.isFinally then
          match Exec.execute .endFinally (body n b) with
          | .ok (.signal s) c => (sendThrough body n s c).map fun d =>
            { d with passages := ⟨stop, b.frame.ip, s⟩ :: d.passages }
          | _ => none
        else some ⟨[], some stop, none, b⟩

/-- What the frame goes on with where the block `b` has absorbed a signal for good. -/
def Activation.Received (a : Activation) (b : Block) : Signal → Prop
  | .returning _ => False
  | .breaking => a.frame.ip = b.handler
  | .continuing target => a.frame.ip = target
  | .raising F => a.frame.ip = b.handler ∧ a.lastFault = some F ∧ ∃ stack id,
      stack.size = b.height ∧
      a.frame.stack = stack ++ (F.triple id ++ F.triple (id + 2)).toArray

/-! ## One round -/

namespace Exec

lemma storedFault?_triple (F : Fault) (id : Nat) :
    storedFault? (.traceback id F.trace) (.exception (id + 1) F.kind F.value)
      (.exceptionType F.kind) = some F := rfl

/-- **The end of a finally body sends the signal again** for which the body has been entered. -/
lemma execute_endFinally {s : Signal} {id : Nat} {a : Activation} {stack : Array Value}
    (h : a.frame.stack = stack ++ (s.message id).toArray)
    (htarget : s.ContinuesIn a.frame.code.unit) :
    execute .endFinally a =
      .ok (.signal s) { a with frame := { a.frame with stack := stack } } := by
  cases s with
  | returning v =>
    have htop : a.frame.stack = (stack.push v).push (.why .returning) := by
      simp only [h, Signal.message, Signal.marker, append_toArray_cons, Array.append_empty]
    have hbelow : pop { a with frame := { a.frame with stack := stack.push v } } =
        .ok v { a with frame := { a.frame with stack := stack } } := pop_apply rfl
    simp [execute, endFinally, pop_apply htop, hbelow]
  | breaking =>
    have htop : a.frame.stack = stack.push (.why .breaking) := by
      simp only [h, Signal.message, Signal.marker, append_toArray_cons, Array.append_empty]
    simp [execute, endFinally, pop_apply htop]
  | continuing target =>
    have htop : a.frame.stack =
        (stack.push (.int (Int64.ofNat target))).push (.why .continuing) := by
      simp only [h, Signal.message, Signal.marker, append_toArray_cons, Array.append_empty]
    have hbelow : pop { a with frame := { a.frame with
          stack := stack.push (.int (Int64.ofNat target)) } } =
        .ok (.int (Int64.ofNat target)) { a with frame := { a.frame with stack := stack } } :=
      pop_apply rfl
    obtain ⟨hle, hcode⟩ := htarget target rfl
    have hint : (Int64.ofNat target).toInt = target :=
      Int64.toInt_ofNat_of_lt (Nat.lt_of_le_of_lt hle hcode)
    have hnat : (Int64.ofNat target).toNatClampNeg = target := by
      rw [Int64.toNatClampNeg, hint, Int.toNat_natCast]
    simp [execute, endFinally, pop_apply htop, hbelow, hint, hle, hnat]
  | raising F =>
    have htop : a.frame.stack = ((stack.push (.traceback id F.trace)).push
        (.exception (id + 1) F.kind F.value)).push (.exceptionType F.kind) := by
      simp only [h, Signal.message, Fault.triple, append_toArray_cons, Array.append_empty]
    have hvalue : pop { a with frame := { a.frame with
          stack := (stack.push (.traceback id F.trace)).push
            (.exception (id + 1) F.kind F.value) } } =
        .ok (.exception (id + 1) F.kind F.value) { a with frame := { a.frame with
          stack := stack.push (.traceback id F.trace) } } := pop_apply rfl
    have htrace : pop { a with frame := { a.frame with
          stack := stack.push (.traceback id F.trace) } } =
        .ok (.traceback id F.trace) { a with frame := { a.frame with stack := stack } } :=
      pop_apply rfl
    simp [execute, endFinally, pop_apply htop, hvalue, htrace, storedFault?_triple]

/-- A finally block holds the signal back: the body finds the signal's message, and below it a stack
from which the remaining blocks can be removed. -/
lemma unwind_held {s : Signal} {b : Block} {passed rest : List Block} {a : Activation}
    (hpass : ∀ c ∈ passed, c.takes s = false) (hblocks : a.frame.blocks = passed ++ b :: rest)
    (hb : b.isFinally) (hc : Clears (passed ++ b :: rest) a.frame.stack.size) :
    ∃ a' stack id, unwind s a = .ok none a' ∧ a'.frame.ip = b.handler ∧
      a'.frame.code = a.frame.code ∧ a'.frame.blocks = s.context b.height ++ rest ∧
      a'.frame.stack = stack ++ (s.message id).toArray ∧
      Clears (s.context b.height ++ rest) stack.size := by
  obtain ⟨hpassed, hbelow, hrest⟩ := clears_append.1 hc
  obtain ⟨hrun, hneed⟩ := unwind_append hpass hblocks hpassed hbelow
  let base := (a.leaveAll passed (b :: rest)).frame.stack.take b.height
  have hbase : base.size = b.height := by
    simp [base, Nat.min_eq_left (Nat.le_trans b.height_le_need hneed)]
  have hk : b.kind = .tryFinally := by simpa [Block.isFinally] using hb
  by_cases hs : ∃ F, s = .raising F
  · obtain ⟨F, rfl⟩ := hs
    have htakes : b.takes (.raising F) = true := by simp [Block.takes_eq, hb]
    have hsize : (base ++ (F.triple a.heap.nextId).toArray).size = b.height + 3 := by
      simp [hbase, Fault.triple]
    rw [unwindThrough_cons_raising htakes hneed] at hrun
    refine ⟨_, base ++ (F.triple a.heap.nextId).toArray, a.heap.nextId + 2, hrun, rfl, rfl, rfl,
      ?_, ?_⟩
    · rw [Array.append_assoc, Signal.message, List.append_toArray (F.triple a.heap.nextId)]
      rfl
    · rw [hsize]
      exact ⟨Nat.le_refl _, hrest⟩
  · have hs' : ∀ F, s ≠ .raising F := fun F h => hs ⟨F, h⟩
    have hmessage : s.message 0 = s.marker := by
      cases s with
      | raising F => exact absurd rfl (hs' F)
      | _ => rfl
    have hcontext : s.context b.height = [] := by
      cases s with
      | raising F => exact absurd rfl (hs' F)
      | _ => rfl
    rw [unwindThrough_cons_finally hk hs' hneed] at hrun
    refine ⟨_, base, 0, hrun, rfl, rfl, ?_, ?_, ?_⟩
    · rw [hcontext]
      rfl
    · rw [hmessage]
      rfl
    · rw [hcontext, hbase]
      exact hrest

/-- A block that absorbs the signal for good. -/
lemma unwind_absorbed {s : Signal} {b : Block} {passed rest : List Block} {a : Activation}
    (hpass : ∀ c ∈ passed, c.takes s = false) (hblocks : a.frame.blocks = passed ++ b :: rest)
    (hb : b.absorbs s) (hc : Clears (passed ++ b :: rest) a.frame.stack.size) :
    ∃ a', unwind s a = .ok none a' ∧ a'.Received b s := by
  obtain ⟨hpassed, hbelow, -⟩ := clears_append.1 hc
  obtain ⟨hrun, hneed⟩ := unwind_append hpass hblocks hpassed hbelow
  have hheight := Nat.le_trans b.height_le_need hneed
  cases hk : b.kind
  case tryFinally | exceptHandler => simp [Block.absorbs, hk] at hb
  case tryExcept =>
    cases s with
    | returning v => simp [Block.absorbs, hk] at hb
    | breaking => simp [Block.absorbs, hk] at hb
    | continuing target => simp [Block.absorbs, hk] at hb
    | raising F =>
      rw [unwindThrough_cons_raising (by simp [Block.takes_eq, hb]) hneed] at hrun
      exact ⟨_, hrun, rfl, rfl, _, _, by simp [Nat.min_eq_left hheight], rfl⟩
  case loop =>
    cases s with
    | returning v => simp [Block.absorbs, hk] at hb
    | breaking =>
      rw [unwindThrough_cons_breaking hk hneed] at hrun
      exact ⟨_, hrun, rfl⟩
    | continuing target =>
      rw [unwindThrough_cons_continuing hk] at hrun
      exact ⟨_, hrun, rfl⟩
    | raising F => simp [Block.absorbs, hk] at hb

end Exec

/-! ## The blocks that a signal meets -/

section Rows

variable {s : Signal} {b : Block} {passed rest : List Block}

lemma absorbs_of_not_takes (h : b.takes s = false) : b.absorbs s = false ∧ b.isFinally = false := by
  rwa [Block.takes_eq, Bool.or_eq_false_iff] at h

/-- Blocks that do not take the signal do not count. -/
lemma finallies_append (hpass : ∀ c ∈ passed, c.takes s = false) :
    finallies (passed ++ rest) s = finallies rest s := by
  have habsorb : ∀ c ∈ passed, (!c.absorbs s) = true := fun c hc => by
    simp [(absorbs_of_not_takes (hpass c hc)).1]
  have hfinally : passed.filter (·.isFinally) = [] := by
    rw [List.filter_eq_nil_iff]
    exact fun c hc => by simp [(absorbs_of_not_takes (hpass c hc)).2]
  rw [finallies, List.takeWhile_append_of_pos habsorb, List.filter_append, hfinally]
  rfl

lemma find?_absorbs_append (hpass : ∀ c ∈ passed, c.takes s = false) :
    (passed ++ rest).find? (·.absorbs s) = rest.find? (·.absorbs s) := by
  have hnone : passed.find? (·.absorbs s) = none := by
    rw [List.find?_eq_none]
    exact fun c hc => by simp [(absorbs_of_not_takes (hpass c hc)).1]
  rw [List.find?_append, hnone, Option.none_or]

lemma finallies_cons_of_isFinally (hb : b.isFinally) :
    finallies (b :: rest) s = b :: finallies rest s := by
  simp [finallies, hb, Block.absorbs_of_isFinally hb]

lemma finallies_cons_of_absorbs (hb : b.absorbs s) : finallies (b :: rest) s = [] := by
  simp [finallies, hb]

/-- The handler block that a signal leaves behind does not take it. -/
lemma context_not_takes (height : Nat) : ∀ c ∈ s.context height, c.takes s = false := by
  cases s with
  | raising F => simp [Signal.context, Block.takes]
  | _ => simp [Signal.context]

/-- A finally block comes first, and what follows it is what a round leaves. -/
lemma rows_of_finally (hpass : ∀ c ∈ passed, c.takes s = false) (hb : b.isFinally) :
    finallies (passed ++ b :: rest) s = b :: finallies (s.context b.height ++ rest) s ∧
      (passed ++ b :: rest).find? (·.absorbs s) =
        (s.context b.height ++ rest).find? (·.absorbs s) := by
  have hcontext := context_not_takes (s := s) b.height
  rw [finallies_append hpass, finallies_append hcontext, finallies_cons_of_isFinally hb,
    find?_absorbs_append hpass, find?_absorbs_append hcontext]
  exact ⟨rfl, by simp [Block.absorbs_of_isFinally hb]⟩

/-- A block that absorbs the signal for good comes last. -/
lemma rows_of_absorbs (hpass : ∀ c ∈ passed, c.takes s = false) (hb : b.absorbs s) :
    finallies (passed ++ b :: rest) s = [] ∧
      (passed ++ b :: rest).find? (·.absorbs s) = some b := by
  rw [finallies_append hpass, finallies_cons_of_absorbs hb, find?_absorbs_append hpass]
  exact ⟨rfl, by simp [hb]⟩

/-- A row without a block that takes the signal. -/
lemma rows_of_not_takes (hpass : ∀ c ∈ passed, c.takes s = false) :
    finallies passed s = [] ∧ passed.find? (·.absorbs s) = none := by
  rw [← List.append_nil passed, finallies_append hpass, find?_absorbs_append hpass]
  exact ⟨rfl, rfl⟩

end Rows

/-! ## All rounds -/

/-- The signal has come through a frame with these blocks as it was: each finally block on its way
has been entered at its handler, once and in order, and its body has sent the same signal; and the
signal has been absorbed by the first block that does so for good, or it leaves the frame. -/
structure Delivery.Faithful (d : Delivery) (blocks : List Block) (s : Signal) : Prop where
  passages : d.passages = (finallies blocks s).map fun b => ⟨b, b.handler, s⟩
  absorber? : d.absorber? = blocks.find? (·.absorbs s)
  leaving? : d.leaving? = if d.absorber?.isSome then none else some s
  received : ∀ b, d.absorber? = some b → d.last.Received b s

namespace Exec

/-- One round: the finally block is entered, its body runs, and the end of the body sends the same
signal from a frame whose remaining blocks can be removed. -/
lemma exists_round {run : Activation → Activation} (hrun : ∀ a, Activation.BodyRun a (run a))
    {s : Signal} {b : Block} {passed rest : List Block} {a : Activation}
    (hpass : ∀ c ∈ passed, c.takes s = false) (hblocks : a.frame.blocks = passed ++ b :: rest)
    (hb : b.isFinally) (hc : Clears (passed ++ b :: rest) a.frame.stack.size)
    (htarget : s.ContinuesIn a.frame.code.unit) :
    ∃ a' c, unwind s a = .ok none a' ∧ a'.frame.ip = b.handler ∧
      execute .endFinally (run a') = .ok (.signal s) c ∧ c.frame.code = a.frame.code ∧
      c.frame.blocks = s.context b.height ++ rest ∧
      Clears (s.context b.height ++ rest) c.frame.stack.size := by
  obtain ⟨a', stack, id, hunwind, hplace, hcode', hblocks', hstack, hclears⟩ :=
    unwind_held hpass hblocks hb hc
  obtain ⟨hrstack, hrblocks, hrcode⟩ := hrun a'
  have hunit : (run a').frame.code = a.frame.code := hrcode.trans hcode'
  have hend := execute_endFinally (hrstack.trans hstack) (hunit ▸ htarget)
  exact ⟨a', _, hunwind, hplace, hend, hunit, hrblocks.trans hblocks', hclears⟩

/-- The rounds of a signal; the induction is on their number. -/
lemma sendThrough_faithful {body : Nat → Activation → Activation}
    (hbody : ∀ n a, Activation.BodyRun a (body n a)) {s : Signal} {rounds : Nat} {a : Activation}
    (hc : Clears a.frame.blocks a.frame.stack.size)
    (htarget : s.ContinuesIn a.frame.code.unit)
    (hrounds : (finallies a.frame.blocks s).length < rounds) :
    ∃ d, sendThrough body rounds s a = some d ∧ d.Faithful a.frame.blocks s := by
  induction rounds generalizing a with
  | zero => exact absurd hrounds (Nat.not_lt_zero _)
  | succ n ih =>
    cases hfind : a.frame.blocks.find? (·.takes s) with
    | none =>
      have hpass : ∀ c ∈ a.frame.blocks, c.takes s = false := by simpa using hfind
      obtain ⟨hfinallies, habsorber⟩ := rows_of_not_takes hpass
      refine ⟨⟨[], none, some s, a.leaveAll a.frame.blocks []⟩, ?_, ?_, habsorber.symm, rfl, ?_⟩
      · rw [sendThrough, unwind_leaving hpass hc]
      · rw [hfinallies]
        rfl
      · rintro b ⟨⟩
    | some b =>
      obtain ⟨htakes, passed, rest, hblocks, habove⟩ := List.find?_eq_some_iff_append.1 hfind
      have hpass : ∀ c ∈ passed, c.takes s = false := by simpa using habove
      have hclears : Clears (passed ++ b :: rest) a.frame.stack.size := hblocks ▸ hc
      cases hb : b.isFinally with
      | true =>
        -- A finally block: one round, and then the blocks below it.
        obtain ⟨hfinallies, habsorber⟩ := @rows_of_finally s b passed rest hpass hb
        obtain ⟨a', c, hunwind, hplace, hend, hunit, hcblocks, hcclears⟩ :=
          exists_round (hbody n) hpass hblocks hb hclears htarget
        have hfewer : (finallies c.frame.blocks s).length < n := by
          rw [hblocks, hfinallies, List.length_cons] at hrounds
          rw [hcblocks]
          exact Nat.lt_of_succ_lt_succ hrounds
        obtain ⟨d, hd, hpassages, hlast, hleaving, hreceived⟩ :=
          ih (hcblocks ▸ hcclears) (hunit ▸ htarget) hfewer
        refine ⟨{ d with passages := ⟨b, a'.frame.ip, s⟩ :: d.passages }, ?_, ?_, ?_, hleaving,
          hreceived⟩
        · rw [sendThrough, hunwind, hfind]
          simp only [hb, if_true, hend, hd, Option.map_some]
        · rw [hblocks, hfinallies, hpassages, hplace, hcblocks, List.map_cons]
        · rw [hblocks, habsorber, hlast, hcblocks]
      | false =>
        -- Any other block that takes the signal absorbs it for good.
        have habsorbs : b.absorbs s = true := by
          rwa [Block.takes_eq, hb, Bool.or_false] at htakes
        obtain ⟨hfinallies, habsorber⟩ := @rows_of_absorbs s b passed rest hpass habsorbs
        obtain ⟨a', hunwind, hreceived⟩ := unwind_absorbed hpass hblocks habsorbs hclears
        rw [← hblocks] at hfinallies habsorber
        refine ⟨⟨[], some b, none, a'⟩, ?_, ?_, habsorber.symm, rfl, ?_⟩
        · rw [sendThrough, hunwind, hfind]
          simp only [hb, Bool.false_eq_true, if_false]
        · rw [hfinallies]
          rfl
        · rintro c ⟨⟩
          exact hreceived

end Exec

/-- **Finally bodies run exactly once, innermost first, and send the very same signal again.**  A
signal is sent through a well-nested frame, and the bodies of the finally blocks do what they like,
as long as they leave the operand stack and the blocks as they have found them.  Then the signal
comes through:

* The finally blocks that it is held back by are those above the first block that absorbs it for
  good, which is a loop for the end or the continuation of a loop and an except block for a fault,
  or all finally blocks if there is no such block.  Each of them is entered at its handler, once,
  from the innermost to the outermost one.
* What is sent at the end of each body, what is absorbed in the end and what leaves the frame is the
  signal itself, with its value, its target or its fault.

A loop has to be continued at a place of the code. -/
theorem finally_bodies_run_once {body : Nat → Activation → Activation}
    (hbody : ∀ n a, Activation.BodyRun a (body n a)) {a : Activation} (ha : a.frame.WellNested)
    {s : Signal} (htarget : s.ContinuesIn a.frame.code.unit)
    {rounds : Nat} (hrounds : (finallies a.frame.blocks s).length < rounds) :
    ∃ d, Exec.sendThrough body rounds s a = some d ∧ d.Faithful a.frame.blocks s :=
  Exec.sendThrough_faithful hbody (Frame.wellNested_iff_clears.1 ha) htarget hrounds

/-- A frame with a loop, a handler and three finally blocks. -/
def nestedFrame : Frame :=
  { (default : Frame) with
    code := ⟨0, [], { (.named "nested" : CodeUnit) with code := .replicate 50 0x09 }⟩
    stack := #[.none, .none, .none, .none, .none]
    blocks := [⟨.tryFinally, 40, 4⟩, ⟨.exceptHandler, 0, 1⟩, ⟨.tryFinally, 30, 1⟩, ⟨.loop, 20, 0⟩,
      ⟨.tryFinally, 10, 0⟩] }

/-- The loop is continued through the two finally blocks inside it. -/
theorem finally_bodies_run_once_in_loop :
    ∃ d, Exec.sendThrough (fun _ a => a) 3 (.continuing 5)
        { (default : Activation) with frame := nestedFrame } = some d ∧
      d.passages = [⟨⟨.tryFinally, 40, 4⟩, 40, .continuing 5⟩,
        ⟨⟨.tryFinally, 30, 1⟩, 30, .continuing 5⟩] ∧
      d.leaving? = none ∧ d.last.frame.ip = 5 := by
  have hnested : nestedFrame.WellNested := ⟨by decide, by decide⟩
  have hplace : (Signal.continuing 5).ContinuesIn nestedFrame.code.unit := by
    rintro _ ⟨⟩
    decide
  obtain ⟨d, hd, hpassages, habsorber, hleaving, hreceived⟩ :=
    @finally_bodies_run_once (fun _ a => a) (fun _ _ => ⟨rfl, rfl, rfl⟩)
      { (default : Activation) with frame := nestedFrame } hnested _ hplace 3 (by decide)
  refine ⟨d, hd, hpassages, ?_, ?_⟩
  · rw [hleaving, habsorber]
    rfl
  · exact hreceived ⟨.loop, 20, 0⟩ habsorber

end StackMachine
