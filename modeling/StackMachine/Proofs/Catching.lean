import StackMachine.Proofs.StackFloor
/-!
# Catching a fault and leaving the handler

A block that catches a fault puts six values and a block of its own on a frame, and the end of the
handler takes them apart again.  In between the body of the handler runs, which may call functions,
set up blocks and catch faults itself.  If it leaves the blocks as it has found them and never takes
off the three values below its own, nothing of all this is left: the operand stack is cut back to
where the block was set up, only the blocks below are there, and the three values give back the very
fault that has been caught (`handler_left`).

So a loop in which faults are caught does not grow its frame.  A round of it (`CatchRound`) runs
from the instruction that sets up the block to the end of the handler, and comes back to the stack
and the blocks that it started with.  `catching_is_neutral` states both.
-/

namespace StackMachine

/-- The block that catches faults and that the instruction sets up at a height. -/
def Instruction.guard? (height : Nat) : Instruction → Option Block
  | setupExcept handler => some ⟨.tryExcept, handler, height⟩
  | setupFinally handler => some ⟨.tryFinally, handler, height⟩
  | _ => none

/-! ## The frame of a handler -/

namespace Frame

variable {f g : Frame} {b : Block} {above below : List Block} {F : Fault} {id : Nat}

/-- The innermost block that catches faults divides the blocks of a frame. -/
lemma caught_of_append (hblocks : f.blocks = above ++ b :: below) (hb : b.catches)
    (habove : ∀ c ∈ above, c.catches = false) :
    f.passed = above ∧ f.catcher? = some b ∧ f.kept = below := by
  have hpass : ∀ c ∈ above, (!Block.catches c) = true := by
    intro c hc
    rw [habove c hc]
    rfl
  refine ⟨?_, ?_, ?_⟩
  · simp [passed, hblocks, List.takeWhile_append_of_pos hpass, hb]
  · rw [catcher?, hblocks, List.find?_append]
    have hnone : above.find? Block.catches = none := by
      rw [List.find?_eq_none]
      intro c hc
      simp [habove c hc]
    simp [hnone, hb]
  · simp [kept, hblocks, List.dropWhile_append_of_pos hpass, hb]

/-- A frame in which the body of a handler has not touched what is below it. -/
structure Handled (f : Frame) (b : Block) (F : Fault) (g : Frame) : Prop where
  room : b.height + 3 ≤ g.stack.size
  lower : g.stack.take b.height = f.stack.take b.height
  triple : ∃ id, (g.stack.extract b.height (b.height + 3)).toList = F.triple id
  blocks : g.blocks = ⟨.exceptHandler, 0, b.height⟩ :: f.kept

lemma Handled.of_sameBelow (hheight : b.height ≤ f.stack.size)
    (hsame : (f.handling b F id).SameBelow (b.height + 3) g)
    (hblocks : g.blocks = (f.handling b F id).blocks) : f.Handled b F g := by
  have hmin : min b.height f.stack.size = b.height := Nat.min_eq_left hheight
  have hroom : b.height + 3 ≤ (f.handling b F id).stack.size := by
    simp [handling, Fault.triple, hmin]
  refine ⟨hsame.le hroom, ?_, ⟨id, ?_⟩, hblocks⟩
  · have hlower : (f.handling b F id).SameBelow b.height g := hsame.mono (Nat.le_add_right _ 3)
    calc g.stack.take b.height = (f.handling b F id).stack.take b.height := hlower
      _ = f.stack.take b.height := by simp [handling, hmin]
  · have hcut : ∀ stack : Array Value, stack.extract b.height (b.height + 3) =
        (stack.take (b.height + 3)).extract b.height (b.height + 3) := by
      intro stack
      simp
    rw [hcut, hsame, ← hcut]
    simp [handling, Fault.triple, hmin]

end Frame

namespace Machine

variable {m m' m₁ m₂ m₃ : Machine} {rest rest₃ : Array Frame} {f g : Frame} {b : Block}
  {F : Fault} {n next : Nat}

/-! ## Catching and leaving -/

/-- A fault that is offered to a frame which catches it. -/
lemma Offers.step_caught (hoffers : m.Offers m₁ (.raising F)) (hframes : m₁.frames = rest.push f)
    (hb : f.catcher? = some b) (hc : f.Clear) :
    ∃ m₂, m.step = .running m₂ ∧ m₂.frames = rest.push (f.handling b F m₁.heap.nextId) := by
  have hsize : m₁.frames.size = rest.size + 1 := by rw [hframes, Array.size_push]
  have hstep : m.step = m₁.deliver (.raising F) (rest.size + 1) := by
    rw [hoffers.step, signal, hsize]
  exact ⟨_, hstep.trans (deliver_caught hframes hb hc rest.size), rfl⟩

/-- If the run goes on after a fault has been offered to a frame that catches it, the frame has been
clear. -/
lemma Offers.clear (hoffers : m.Offers m₁ (.raising F)) (hframes : m₁.frames = rest.push f)
    (h : m.step = .running m₂) : f.Clear := by
  refine Classical.byContradiction fun hc => ?_
  have hsize : m₁.frames.size = rest.size + 1 := by rw [hframes, Array.size_push]
  obtain ⟨m', needed, found, -, -, hdeliver⟩ := deliver_not_clear (F := F) hframes hc rest.size
  rw [hoffers.step, signal, hsize, hdeliver] at h
  cases h

/-- A step that executes an instruction is allowed by the limits if the run goes on. -/
lemma exceeded_of_step (hm : m.frames = rest.push f) (h : m.step = .running m') :
    exceeded m.limits (m.steps + 1) f.stack.size = none := by
  cases hgo : exceeded m.limits (m.steps + 1) f.stack.size with
  | none => rfl
  | some e =>
    rw [← topHeight_push hm] at hgo
    rw [step_stopped hgo] at h
    cases h

/-- The end of a handler whose body has not touched what is below it. -/
lemma step_popExcept (hg : f.Handled b F g) (hframes : m.frames = rest.push g)
    (hcode : g.code.unit.decode g.ip = .ok (some (.popExcept, next)))
    (hlimits : exceeded m.limits (m.steps + 1) g.stack.size = none) :
    ∃ m', m.step = .running m' ∧ m'.lastFault = some F ∧
      m'.frames = rest.push { g with
        stack := f.stack.take b.height
        blocks := f.kept
        ip := next
        lastIp := g.ip } := by
  let handler : Block := ⟨.exceptHandler, 0, b.height⟩
  let a := activation { m with steps := m.steps + 1 } { g with lastIp := g.ip, ip := next }
  have hleave : Exec.execute .popExcept a = .ok .next (a.leave handler f.kept) :=
    Exec.execute_popExcept hg.blocks rfl hg.room
  obtain ⟨id, htriple⟩ := hg.triple
  have hrestored : handler.restored g.stack m.lastFault = some F :=
    Block.restored_triple (b := handler) rfl htriple m.lastFault
  rw [step_working hframes hlimits hcode, within_apply { m with steps := m.steps + 1 }, hleave]
  refine ⟨_, rfl, hrestored, ?_⟩
  rw [← hg.lower]
  rfl

/-- **The end of a handler.**  The body has left the blocks as it has found them, and it has never
taken off what is below it. -/
lemma handler_left {rest₂ : Array Frame} {id : Nat}
    (hframes₂ : m₂.frames = rest₂.push (f.handling b F id)) (hheight : b.height ≤ f.stack.size)
    (hbody : m₂.RunsOver rest₂.size (b.height + 3) m₃) (hframes₃ : m₃.frames = rest₃.push g)
    (hplace : rest₃.size = rest₂.size) (hblocks : g.blocks = (f.handling b F id).blocks) :
    f.Handled b F g := by
  have htop : m₃.frames[rest₂.size]? = some g := by
    rw [hframes₃, ← hplace, Array.getElem?_push_size]
  obtain ⟨f₂, hf₂, hsame⟩ := hbody.sameAt g htop
  rw [hframes₂, Array.getElem?_push_size] at hf₂
  cases hf₂
  apply Frame.Handled.of_sameBelow hheight _ hblocks
  apply hsame
  simp [Frame.handling, Fault.triple, Nat.min_eq_left hheight]

/-! ## Rounds -/

/-- The frame at place `n`, if there is one, is still there, and it has the stack and the blocks
that it has had. -/
def Neutral (n : Nat) (m m' : Machine) : Prop :=
  ∀ f, m.frames[n]? = some f →
    ∃ g, m'.frames[n]? = some g ∧ g.stack = f.stack ∧ g.blocks = f.blocks

lemma Neutral.refl (n : Nat) (m : Machine) : m.Neutral n m := fun f hf => ⟨f, hf, rfl, rfl⟩

lemma Neutral.trans (h : Neutral n m m₁) (h' : Neutral n m₁ m₂) : Neutral n m m₂ := by
  intro f hf
  obtain ⟨f₁, hf₁, hstack₁, hblocks₁⟩ := h f hf
  obtain ⟨f₂, hf₂, hstack₂, hblocks₂⟩ := h' f₁ hf₁
  exact ⟨f₂, hf₂, hstack₂.trans hstack₁, hblocks₂.trans hblocks₁⟩

/-- One round of a loop, for the frame at place `n`: it sets up an except or a finally block, and
what this block guards runs, above the height of the block, until a fault is offered to the frame.
The block catches it, and the body of the handler runs, until it comes to its end with the blocks
that it has found. -/
inductive CatchRound (n : Nat) (m m' : Machine) : Prop
  | intro {m₁ m₂ m₃ m₄ m₅ : Machine} {rest rest₃ rest₅ : Array Frame} {f g h : Frame}
    {i : Instruction} {above : List Block} {b : Block} {F : Fault} {next next' : Nat}
    (hframes : m.frames = rest.push f) (hplace : rest.size = n)
    (hcode : f.code.unit.decode f.ip = .ok (some (i, next)))
    (hsetup : i.guard? f.stack.size = some b) (hguarded : m.step = .running m₁)
    (htried : m₁.RunsOver n b.height m₂) (hover : m₂.StepsOver n b.height)
    (hoffers : m₂.Offers m₃ (.raising F)) (hframes₃ : m₃.frames = rest₃.push g)
    (hplace₃ : rest₃.size = n) (hblocks₃ : g.blocks = above ++ b :: f.blocks)
    (habove : ∀ c ∈ above, c.catches = false) (hcaught : m₂.step = .running m₄)
    (hhandled : m₄.RunsOver n (b.height + 3) m₅) (hframes₅ : m₅.frames = rest₅.push h)
    (hplace₅ : rest₅.size = n) (hblocks₅ : h.blocks = ⟨.exceptHandler, 0, b.height⟩ :: f.blocks)
    (hend : h.code.unit.decode h.ip = .ok (some (.popExcept, next')))
    (hleft : m₅.step = .running m')

/-- The block has been set up at the present height, and the stack is as it was. -/
lemma step_guard {i : Instruction} (hframes : m.frames = rest.push f)
    (hcode : f.code.unit.decode f.ip = .ok (some (i, next)))
    (hsetup : i.guard? f.stack.size = some b) (h : m.step = .running m') :
    b.catches ∧ b.height = f.stack.size ∧ ∃ g, m'.frames = rest.push g ∧ g.stack = f.stack := by
  have hlimits := exceeded_of_step hframes h
  rw [step_working hframes hlimits hcode, within_apply { m with steps := m.steps + 1 }] at h
  cases i
  case setupExcept | setupFinally =>
    cases hsetup
    cases h
    exact ⟨rfl, rfl, _, rfl, rfl⟩
  all_goals cases hsetup

/-- **One round**: the frame has the stack and the blocks that it has had. -/
lemma CatchRound.neutral (hround : CatchRound n m m') : Neutral n m m' := by
  obtain @⟨m₁, m₂, m₃, m₄, m₅, rest, rest₃, rest₅, f, g, h, i, above, b, F, next, next', hframes,
    hplace, hcode, hsetup, hguarded, htried, hover, hoffers, hframes₃, hplace₃, hblocks₃, habove,
    hcaught, hhandled, hframes₅, hplace₅, hblocks₅, hend, hleft⟩ := hround
  subst hplace
  obtain ⟨hb, hheight, f₁, hframes₁, hstack₁⟩ := step_guard hframes hcode hsetup hguarded
  have hstack : g.stack.take b.height = f.stack := by
    have htop : m₃.frames[rest.size]? = some g := by
      rw [hframes₃, ← hplace₃, Array.getElem?_push_size]
    obtain ⟨f₁', hf₁', hsame⟩ := htried.sameAt.trans (hoffers.sameAt hover) g htop
    rw [hframes₁, Array.getElem?_push_size] at hf₁'
    cases hf₁'
    have hsize : b.height = f₁.stack.size := by rw [hstack₁, hheight]
    have hbelow : f₁.SameBelow b.height g := hsame (Nat.le_of_eq hsize)
    calc g.stack.take b.height = f₁.stack.take b.height := hbelow
      _ = f.stack.take f.stack.size := by rw [hstack₁, hheight]
      _ = f.stack := by simp
  obtain ⟨-, hcatcher, hkept⟩ := Frame.caught_of_append hblocks₃ hb habove
  have hclear := hoffers.clear hframes₃ hcaught
  obtain ⟨m₄', hstep, hframes₄⟩ := hoffers.step_caught hframes₃ hcatcher hclear
  rw [hcaught] at hstep
  cases hstep
  have hblocks : h.blocks = (g.handling b F m₃.heap.nextId).blocks := by
    rw [hblocks₅, ← hkept]
    rfl
  have hg : g.Handled b F h := handler_left hframes₄ (hclear.height_le hcatcher)
    (hplace₃ ▸ hhandled) hframes₅ (hplace₅.trans hplace₃.symm) hblocks
  have hlimits := exceeded_of_step hframes₅ hleft
  obtain ⟨m'', hstep, -, hframes'⟩ := step_popExcept hg hframes₅ hend hlimits
  rw [hleft] at hstep
  cases hstep
  intro x hx
  rw [hframes, Array.getElem?_push_size] at hx
  cases hx
  have htop : m'.frames[rest.size]? = some { h with
      stack := g.stack.take b.height
      blocks := g.kept
      ip := next'
      lastIp := h.ip } := by
    rw [hframes', ← hplace₅, Array.getElem?_push_size]
  exact ⟨_, htop, hstack, hkept⟩

/-- Any number of rounds, one after the other.  What runs between them leaves the frame with the
stack and the blocks that it has had. -/
def CatchesRepeatedly (n : Nat) : Machine → Machine → Prop :=
  Relation.ReflTransGen fun m m' => CatchRound n m m' ∨ RunsAbove n m m' ∧ Neutral n m m'

/-- The induction is on the rounds. -/
lemma CatchesRepeatedly.neutral (h : CatchesRepeatedly n m m') : Neutral n m m' := by
  induction h with
  | refl => exact .refl n m
  | tail _ hround ih =>
    obtain hcaught | ⟨-, hbetween⟩ := hround
    · exact ih.trans hcaught.neutral
    · exact ih.trans hbetween

end Machine

/-- **Catching a fault and leaving its handler.**  In a step of the machine the fault `F` is offered
to the frame `f`, and `b` is the innermost except or finally block of the frame.  The stack is high
enough for it and for the blocks above it, as it is in a well-nested frame.  Then the frame goes on
at the handler.  Let its body be any run during which the frame is there, its stack does not fall
below the three values that belong to the handler, and at the end of which it has the blocks that it
had at the beginning.  Then these three values give back `F`, and if the frame comes to the end of
the handler and no limit forbids the step, the step leaves

* the values up to the height of `b` on the stack, those that were there when the fault was offered,
* the blocks below `b`, and
* `F` as the last fault.

So for the frame at any place of the call stack, any number of rounds in which a fault is caught
leave its stack and its blocks as they are. -/
theorem catching_is_neutral {m m₁ : Machine} {rest : Array Frame} {f : Frame}
    {above below : List Block} {b : Block} {F : Fault} (hoffers : m.Offers m₁ (.raising F))
    (hframes : m₁.frames = rest.push f) (hblocks : f.blocks = above ++ b :: below)
    (hb : b.catches) (habove : ∀ c ∈ above, c.catches = false)
    (hclears : Clears (above ++ [b]) f.stack.size) :
    (∃ (m₂ : Machine) (g₂ : Frame),
      m.step = .running m₂ ∧ m₂.frames = rest.push g₂ ∧ g₂.ip = b.handler ∧
      ∀ (m₃ : Machine) (rest₃ : Array Frame) (g₃ : Frame),
        m₂.RunsOver rest.size (b.height + 3) m₃ → m₃.frames = rest₃.push g₃ →
        rest₃.size = rest.size → g₃.blocks = g₂.blocks →
        (∃ trace value kind,
          (g₃.stack.extract b.height (b.height + 3)).toList = [trace, value, kind] ∧
          Exec.storedFault? trace value kind = some F) ∧
        ∀ next, g₃.code.unit.decode g₃.ip = .ok (some (.popExcept, next)) →
          Machine.exceeded m₃.limits (m₃.steps + 1) g₃.stack.size = none →
          ∃ (m₄ : Machine) (g₄ : Frame),
            m₃.step = .running m₄ ∧ m₄.frames = rest₃.push g₄ ∧ g₄.ip = next ∧
            g₄.stack = f.stack.take b.height ∧ g₄.blocks = below ∧ m₄.lastFault = some F) ∧
    ∀ (n : Nat) (m m' : Machine), m.CatchesRepeatedly n m' → ∀ f, m.frames[n]? = some f →
      ∃ g, m'.frames[n]? = some g ∧ g.stack = f.stack ∧ g.blocks = f.blocks := by
  constructor
  · obtain ⟨hpassed, hcatcher, hkept⟩ := Frame.caught_of_append hblocks hb habove
    have hclear : f.Clear := by
      rw [Frame.Clear, hpassed, hcatcher]
      exact hclears
    obtain ⟨m₂, hstep, hframes₂⟩ := hoffers.step_caught hframes hcatcher hclear
    refine ⟨m₂, _, hstep, hframes₂, rfl, ?_⟩
    intro m₃ rest₃ g₃ hbody hframes₃ hplace hblocks₃
    have hg := Machine.handler_left hframes₂ (hclear.height_le hcatcher) hbody hframes₃ hplace
      hblocks₃
    constructor
    · obtain ⟨id, htriple⟩ := hg.triple
      exact ⟨_, _, _, htriple, Exec.storedFault?_triple F id⟩
    · intro next hcode hlimits
      obtain ⟨m₄, hleft, hlast, hframes₄⟩ := Machine.step_popExcept hg hframes₃ hcode hlimits
      exact ⟨m₄, _, hleft, hframes₄, rfl, rfl, hkept, hlast⟩
  · intro n m m' hrounds
    exact hrounds.neutral

/-- A `ValueError` that has left a function. -/
def leftFault : Fault := ⟨.valueError, .int 3, [⟨"f", 9⟩]⟩

/-- A module that sends the last fault again, in an except block.  There is a value on its stack,
and its handler does nothing but remove the three values above its own. -/
def catchingFrame : Frame :=
  { (default : Frame) with
    code.unit.code := #[0x79, 3, 0, 0x80, 0, 0, 0x01, 0x01, 0x01, 0x34]
    stack := #[.int 7] }

/-- A machine that executes the module, after some steps. -/
def catchingAfter : Nat → Machine
  | 0 => { (default : Machine) with frames := #[catchingFrame], lastFault := some leftFault }
  | steps + 1 => (catchingAfter steps).step.machine

/-- The frame of the module. -/
def catchingFrameAfter (steps : Nat) : Frame := ((catchingAfter steps).frames.back?).getD default

/-- The frame to which the fault is offered. -/
def raisingFrame : Frame := { catchingFrameAfter 1 with ip := 6, lastIp := 3 }

/-- The machine when the fault has been raised. -/
def raisingMachine : Machine := { catchingAfter 1 with steps := 2, frames := #[raisingFrame] }

lemma step_catchingAfter (steps : Nat) (h : (catchingAfter steps).step.isRunning) :
    (catchingAfter steps).step = .running (catchingAfter (steps + 1)) :=
  Progress.eq_running h

lemma executed?_raising :
    (catchingAfter 1).executed? = some (.error (.fault leftFault) raisingMachine) := rfl

lemma offers_raising : (catchingAfter 1).Offers
    { raisingMachine with lastFault := some leftFault } (.raising leftFault) :=
  .thrown executed?_raising

/-- The fault comes to the block with the one value on the stack that the block has found. -/
lemma stepsOver_raising : (catchingAfter 1).StepsOver 0 1 := by
  have hframes : (catchingAfter 1).frames = #[].push (catchingFrameAfter 1) := rfl
  refine .of_decode hframes rfl (by decide) ?_
  intro m' s rest f hoffers hframes' _
  have hraised : raisingMachine.frames = #[].push raisingFrame := rfl
  obtain ⟨hoffered, rfl⟩ := hoffers.frames_of_thrown executed?_raising hraised rfl
  obtain ⟨rfl, -⟩ := Array.push_eq_push.1 (hoffered.symm.trans hframes')
  decide

/-- A step of the handler. -/
lemma runsOver_popTop {steps next : Nat} {m : Machine}
    (hframes : (catchingAfter steps).frames = #[].push (catchingFrameAfter steps))
    (hcode : (catchingFrameAfter steps).code.unit.decode (catchingFrameAfter steps).ip =
      .ok (some (.popTop, next)))
    (hheight : 5 ≤ (catchingFrameAfter steps).stack.size)
    (hx : (catchingAfter steps).executed? = some (.ok .next m)) :
    (catchingAfter steps).RunsOver 0 4 (catchingAfter (steps + 1)) := by
  have hover : (catchingAfter steps).StepsOver 0 4 :=
    .of_next hframes hcode (Nat.le_sub_one_of_lt hheight) hx
  have hplace : 0 < (catchingAfter steps).frames.size := by simp [hframes]
  have hstep : (catchingAfter steps).step = .running m := Machine.step_of_executed? hx
  have hm : catchingAfter (steps + 1) = m := by
    rw [catchingAfter, hstep]
    rfl
  rw [hm]
  exact .single ⟨hstep, hover, hplace⟩

/-- The body of the handler. -/
lemma runsOver_body : (catchingAfter 2).RunsOver 0 4 (catchingAfter 5) := by
  have hfirst : (catchingAfter 2).RunsOver 0 4 (catchingAfter 3) :=
    runsOver_popTop rfl rfl (by decide) rfl
  have hsecond : (catchingAfter 3).RunsOver 0 4 (catchingAfter 4) :=
    runsOver_popTop rfl rfl (by decide) rfl
  have hthird : (catchingAfter 4).RunsOver 0 4 (catchingAfter 5) :=
    runsOver_popTop rfl rfl (by decide) rfl
  exact (hfirst.trans hsecond).trans hthird

lemma catchRound_catchingAfter : Machine.CatchRound 0 (catchingAfter 0) (catchingAfter 6) := by
  have hframes : (catchingAfter 0).frames = #[].push catchingFrame := rfl
  have hcode : catchingFrame.code.unit.decode catchingFrame.ip =
      .ok (some (.setupExcept 6, 3)) := rfl
  have hguarded := step_catchingAfter 0 (by decide +kernel)
  have hraised : { raisingMachine with lastFault := some leftFault }.frames =
      #[].push raisingFrame := rfl
  have hblocks : raisingFrame.blocks = [] ++ ⟨.tryExcept, 6, 1⟩ :: catchingFrame.blocks := rfl
  have hcaught := step_catchingAfter 1 (by decide +kernel)
  have hhandled : (catchingAfter 5).frames = #[].push (catchingFrameAfter 5) := rfl
  have hbody : (catchingFrameAfter 5).blocks =
      ⟨.exceptHandler, 0, 1⟩ :: catchingFrame.blocks := rfl
  have hend : (catchingFrameAfter 5).code.unit.decode (catchingFrameAfter 5).ip =
      .ok (some (.popExcept, 10)) := rfl
  have hleft := step_catchingAfter 5 (by decide +kernel)
  exact .intro hframes rfl hcode rfl hguarded .refl stepsOver_raising offers_raising hraised rfl
    hblocks (by simp) hcaught runsOver_body hhandled rfl hbody hend hleft

/-- The value and the fault are there again when the handler has been left. -/
theorem catching_is_neutral_in_module :
    (∃ (m : Machine) (g : Frame), (catchingAfter 5).step = .running m ∧ m.frames = #[g] ∧
      g.stack = #[.int 7] ∧ g.blocks = [] ∧ m.lastFault = some leftFault) ∧
    ∃ g : Frame, (catchingAfter 6).frames[0]? = some g ∧ g.stack = #[.int 7] ∧ g.blocks = [] := by
  have hframes : { raisingMachine with lastFault := some leftFault }.frames =
      #[].push raisingFrame := rfl
  have hblocks : raisingFrame.blocks = [] ++ ⟨.tryExcept, 6, 1⟩ :: [] := rfl
  have hclears : Clears ([] ++ [⟨.tryExcept, 6, 1⟩]) raisingFrame.stack.size := by decide
  obtain ⟨⟨m₂, g₂, hstep, hframes₂, -, hleft⟩, hrounds⟩ :=
    catching_is_neutral offers_raising hframes hblocks rfl (by simp) hclears
  constructor
  · have hcaught : (catchingAfter 1).step = .running (catchingAfter 2) := rfl
    cases hstep.symm.trans hcaught
    have htop : (catchingAfter 2).frames = #[].push (catchingFrameAfter 2) := rfl
    obtain ⟨rfl, -⟩ := Array.push_eq_push.1 (htop.symm.trans hframes₂)
    obtain ⟨-, hend⟩ := hleft (catchingAfter 5) #[] (catchingFrameAfter 5) runsOver_body rfl rfl rfl
    obtain ⟨m, g, hend, hg, -, hstack, hbelow, hlast⟩ := hend 10 rfl rfl
    exact ⟨m, g, hend, hg, hstack, hbelow, hlast⟩
  · have hround : (catchingAfter 0).CatchesRepeatedly 0 (catchingAfter 6) :=
      .single (.inl catchRound_catchingAfter)
    exact hrounds 0 _ _ hround catchingFrame rfl

end StackMachine
