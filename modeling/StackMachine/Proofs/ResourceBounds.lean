import StackMachine.Proofs.CallIsolation
import StackMachine.Proofs.Limits
/-!
# Bounds on resources

A machine looks at the height of one operand stack only, that of the innermost frame, and only
before it fetches an instruction.  The other frames are within the bound because they are waiting: a
frame calls another one by taking the callee and the arguments off its stack, and so there is room
for the value, or for the fault, that comes back.  This is the invariant `Fits`, in which the
innermost frame has some `slack`.  Whatever happens in a step uses up a part of it: an instruction
leaves at most one value more, and a block that takes a signal up to six, those of a caught fault,
on a stack that has been within the bound.

The steps are counted by the machine itself.  `Session` counts what has been dispatched since a run
or a reset set that counter back; calls from outside do not.
-/

namespace StackMachine

/-! ## Heights -/

lemma Activation.leave_height (a : Activation) (b : Block) (rest : List Block) :
    (a.leave b rest).frame.stack.size ≤ a.frame.stack.size := by
  show (a.frame.stack.take b.height).size ≤ a.frame.stack.size
  rw [Array.take_eq_extract, Array.size_extract]
  omega

/-- An operand stack of `n` values stays below `n + o.slack` where an instruction has ended with the
outcome `o`: one that goes on adds at most one value, a signal adds none, and a call takes off the
callee at least. -/
def Outcome.slack : Outcome → Nat
  | .next => 2
  | .signal _ => 1
  | .enter .. => 0

lemma Outcome.slack_le (o : Outcome) : o.slack ≤ 2 := by
  cases o with
  | next => exact Nat.le_refl 2
  | signal s => exact Nat.le_succ 1
  | enter callee positional keywords => exact Nat.zero_le 2

namespace Exec

lemma execute_height {i : Instruction} {o : Outcome} {a b : Activation}
    (h : execute i a = .ok o b) : b.frame.stack.size < a.frame.stack.size + o.slack := by
  have hrising := execute_rising i a
  rw [h] at hrising
  have hnext : b.frame.stack.size < a.frame.stack.size + 2 := by omega
  cases i
  case callFunction p k =>
    obtain rfl | ⟨callee, args, keywords, rfl, hsize, rfl⟩ := execute_callFunction h
    · exact hnext
    · show (a.dropTop (1 + p + 2 * k)).frame.stack.size < a.frame.stack.size
      rw [Activation.dropTop_height]
      omega
  case breakLoop =>
    cases h
    exact Nat.lt_succ_self _
  case continueLoop target =>
    cases h
    exact Nat.lt_succ_self _
  case returnValue =>
    obtain ⟨v, a', hpop, h⟩ := bind_eq_ok h
    obtain ⟨-, rfl⟩ := pop_ok hpop
    cases h
    show (a.dropTop 1).frame.stack.size < a.frame.stack.size + 1
    rw [Activation.dropTop_height]
    omega
  case endFinally =>
    obtain ⟨s?, a', hend, h⟩ := bind_eq_ok h
    have hsinking := endFinally_sinking a
    rw [hend] at hsinking
    cases s? with
    | none =>
      cases h
      exact hnext
    | some s =>
      cases h
      exact Nat.lt_succ_of_le hsinking.height
  case raiseVarargs count =>
    obtain ⟨F, a', -, h⟩ := bind_eq_ok h
    cases h
  all_goals
    obtain ⟨_, _, -, h⟩ := bind_eq_ok h
    cases h
    exact hnext

/-- A block that absorbs a signal puts at most six values on the stack: those of a caught fault. -/
lemma unwindThrough_cons_height {s : Signal} {c : Block} {rest : List Block} {a b : Activation}
    (htakes : c.takes s) (hneed : c.need ≤ a.frame.stack.size)
    (h : unwindThrough s (c :: rest) a = .ok none b) :
    b.frame.stack.size ≤ a.frame.stack.size + 6 := by
  have hheight : c.height ≤ a.frame.stack.size := Nat.le_trans c.height_le_need hneed
  by_cases hraising : ∃ F, s = .raising F
  · obtain ⟨F, rfl⟩ := hraising
    rw [unwindThrough_cons_raising htakes hneed] at h
    cases h
    simp [Activation.caught, Fault.triple, hheight]
  · by_cases hfinally : c.kind = .tryFinally
    · rw [unwindThrough_cons_finally hfinally (fun F hF => hraising ⟨F, hF⟩) hneed] at h
      cases h
      have hmarker : s.marker.length ≤ 2 := by cases s <;> simp [Signal.marker]
      have hsize : (a.deferred c rest s).frame.stack.size = c.height + s.marker.length := by
        simp [Activation.deferred, hheight]
      omega
    · have hloop : c.kind = .loop := by
        cases hk : c.kind <;> cases s <;> simp_all [Block.takes]
      cases s with
      | breaking =>
        rw [unwindThrough_cons_breaking hloop hneed] at h
        cases h
        exact Nat.le_trans (a.leave_height c rest) (Nat.le_add_right _ 6)
      | continuing target =>
        rw [unwindThrough_cons_continuing hloop] at h
        cases h
        exact Nat.le_add_right _ 6
      | returning v => simp [Block.takes, hloop] at htakes
      | raising F => exact absurd ⟨F, rfl⟩ hraising

lemma unwindThrough_height {s : Signal} {blocks : List Block} {a b : Activation}
    (h : unwindThrough s blocks a = .ok none b) :
    b.frame.stack.size ≤ a.frame.stack.size + 6 := by
  induction blocks generalizing a with
  | nil => cases h
  | cons c rest ih =>
    by_cases hneed : c.need ≤ a.frame.stack.size
    · cases htakes : c.takes s with
      | true => exact unwindThrough_cons_height htakes hneed h
      | false =>
        rw [unwindThrough_cons_of_not_takes htakes hneed] at h
        have hrest := ih h
        have hleave := a.leave_height c rest
        omega
    · by_cases hloop : ∃ target, c.kind = .loop ∧ s = .continuing target
      · obtain ⟨target, hk, rfl⟩ := hloop
        rw [unwindThrough_cons_continuing hk] at h
        cases h
        exact Nat.le_add_right _ 6
      · have hloop' : ∀ target, c.kind = .loop → s ≠ .continuing target :=
          fun target hk hs => hloop ⟨target, hk, hs⟩
        rw [unwindThrough_cons_underflow hloop' (Nat.lt_of_not_le hneed)] at h
        cases h

end Exec

/-! ## Frames within bounds -/

/-- At most `depth` frames, with at most `height` values on each operand stack. -/
structure FramesWithin (depth height : Nat) (frames : Array Frame) : Prop where
  size : frames.size ≤ depth
  heights : ∀ f ∈ frames, f.stack.size ≤ height

/-- What is known about the call stack from one step to the next: it is not too deep, each frame
that is waiting for another one has room for its value, and the innermost operand stack stays below
the bound plus `slack`. -/
def Fits (l : Limits) (slack : Nat) (frames : Array Frame) : Prop :=
  ∀ (rest : Array Frame) (f : Frame), frames = rest.push f →
    rest.size < l.maxDepth ∧ (∀ g ∈ rest, g.stack.size < l.maxStack) ∧
      f.stack.size < l.maxStack + slack

section Fits

variable {l : Limits} {slack slack' : Nat} {frames rest : Array Frame} {f g : Frame}

lemma fits_empty : Fits l slack #[] := by
  intro rest f h
  simp at h

lemma fits_push :
    Fits l slack (rest.push f) ↔ rest.size < l.maxDepth ∧
      (∀ g ∈ rest, g.stack.size < l.maxStack) ∧ f.stack.size < l.maxStack + slack := by
  constructor
  · intro h
    exact h rest f rfl
  · intro h rest' f' heq
    obtain ⟨rfl, rfl⟩ := Array.push_eq_push.1 heq
    exact h

lemma Fits.mono (h : Fits l slack frames) (hle : slack ≤ slack') : Fits l slack' frames := by
  intro rest f hframes
  obtain ⟨hdepth, hwaiting, hheight⟩ := h rest f hframes
  exact ⟨hdepth, hwaiting, by omega⟩

lemma Fits.framesWithin (h : Fits l slack frames) {height : Nat}
    (hle : l.maxStack + slack ≤ height + 1) : FramesWithin l.maxDepth height frames := by
  by_cases hempty : frames = #[]
  · exact ⟨by simp [hempty], by simp [hempty]⟩
  · obtain ⟨rest, f, rfl⟩ := Array.exists_push_of_ne_empty hempty
    obtain ⟨hdepth, hwaiting, hheight⟩ := fits_push.1 h
    refine ⟨by simpa [Nat.succ_le_iff] using hdepth, ?_⟩
    intro g hg
    obtain hrest | rfl := Array.mem_push.1 hg
    · have := hwaiting g hrest
      omega
    · omega

/-- A frame that has been waiting still has room when it is the innermost one again. -/
lemma Fits.of_waiting (h : Fits l slack (rest.push f)) : Fits l 0 rest := by
  obtain ⟨hdepth, hwaiting, -⟩ := fits_push.1 h
  rintro lower c rfl
  rw [Array.size_push] at hdepth
  exact ⟨by omega, fun g hg => hwaiting g (Array.mem_push_of_mem c hg),
    hwaiting c Array.mem_push_self⟩

/-- The innermost frame of a call stack where all frames have room can wait for another one. -/
lemma Fits.push (h : Fits l 0 frames) (hdepth : frames.size < l.maxDepth) (hg : g.stack = #[]) :
    Fits l 1 (frames.push g) := by
  refine fits_push.2 ⟨hdepth, ?_, by simp [hg]⟩
  intro c hc
  by_cases hempty : frames = #[]
  · simp [hempty] at hc
  · obtain ⟨rest, f, rfl⟩ := Array.exists_push_of_ne_empty hempty
    obtain ⟨-, hwaiting, hheight⟩ := fits_push.1 h
    obtain hrest | rfl := Array.mem_push.1 hc
    · exact hwaiting c hrest
    · exact hheight

end Fits

/-- While a run goes on, its call stack is within the bounds. -/
def Progress.Fits (l : Limits) (slack : Nat) : Progress → Prop
  | .running m => StackMachine.Fits l slack m.frames
  | .finished .. => True

lemma Progress.Fits.mono {l : Limits} {slack slack' : Nat} {p : Progress} (h : p.Fits l slack)
    (hle : slack ≤ slack') : p.Fits l slack' := by
  cases p with
  | running m => exact StackMachine.Fits.mono h hle
  | finished m r => trivial

namespace Machine

variable {m m' : Machine} {l : Limits} {slack : Nat} {rest : Array Frame} {f g : Frame}

/-! ## Values and signals -/

/-- A waiting frame has room for the value that it is handed. -/
lemma handBack_fits (hl : Linked (rest.push f)) (hfits : Fits l slack (rest.push f))
    (h : m.frames = rest) (hg : g.caller? = f.caller?) (v : Value) :
    (m.handBack g v).Fits l 1 := by
  obtain ⟨-, heq⟩ | ⟨lower, caller, rfl, heq⟩ := handBack_cases hl h hg v
  · rw [heq]
    trivial
  · obtain ⟨hdepth, hwaiting, hroom⟩ := fits_push.1 hfits.of_waiting
    rw [heq]
    refine fits_push.2 ⟨hdepth, hwaiting, ?_⟩
    show (caller.stack.push v).size < l.maxStack + 1
    rw [Array.size_push]
    omega

/-- A signal at the innermost frame: the step is over, or a fault leaves the frame and is offered to
the frame below it. -/
lemma deliver_push_fits (hl : Linked (rest.push f)) (hfits : Fits l 1 (rest.push f))
    (h : m.frames = rest.push f) (s : Signal) (depth : Nat) :
    (m.deliver s (depth + 1)).Fits l 7 ∨ ∃ (m' : Machine) (F : Fault),
      m'.frames = rest ∧ m.deliver s (depth + 1) = m'.deliver (.raising F) depth := by
  obtain ⟨hdepth, hwaiting, hheight⟩ := fits_push.1 hfits
  have hkeeps := Exec.unwind_confined s (m.activation f)
  rw [deliver_push h]
  rcases Exec.unwind_cases s (m.activation f) with ⟨needed, found, a, hu⟩ | ⟨a, hu⟩ | ⟨a, hu⟩ <;>
    rw [hu] at hkeeps ⊢
  · exact .inl trivial
  · have hcaught : a.frame.stack.size ≤ f.stack.size + 6 := Exec.unwindThrough_height hu
    exact .inl (fits_push.2 ⟨hdepth, hwaiting, by omega⟩)
  · have hcaller : a.frame.caller? = f.caller? := hkeeps.caller?
    cases s with
    | returning v => exact .inl ((handBack_fits hl hfits rfl hcaller v).mono (by omega))
    | raising F =>
      dsimp only
      cases a.frame.caller? with
      | none => exact .inl trivial
      | some caller => exact .inr ⟨_, F.leaving a.frame, rfl, rfl⟩
    | breaking => exact .inl trivial
    | continuing target => exact .inl trivial

/-- A signal of the innermost frame.  A fault goes down the call stack until it is caught; a frame
below has been waiting, and has room when the fault comes to it. -/
lemma deliver_fits (hl : Linked m.frames) (hfits : Fits l 1 m.frames) (s : Signal) (depth : Nat) :
    (m.deliver s depth).Fits l 7 := by
  induction depth generalizing m s with
  | zero => trivial
  | succ depth ih =>
    by_cases hempty : m.frames = #[]
    · rw [deliver_empty hempty]
      trivial
    · obtain ⟨rest, f, hm⟩ := Array.exists_push_of_ne_empty hempty
      rw [hm] at hl hfits
      obtain hdone | ⟨m', F, hm', heq⟩ := deliver_push_fits hl hfits hm s depth
      · exact hdone
      · rw [heq]
        rw [← hm'] at hl hfits
        exact ih (linked_push.1 hl).1 (hfits.of_waiting.mono (Nat.zero_le 1)) (.raising F)

/-! ## The instruction of a step -/

/-- What a step dispatches is what it executes. -/
lemma isSome_nextDispatch? (m : Machine) : m.nextDispatch?.isSome = m.executed?.isSome := by
  by_cases hempty : m.frames = #[]
  · have hnext : m.nextDispatch? = none := by simp [nextDispatch?, hempty]
    rw [executed?_empty hempty, hnext]
    rfl
  · obtain ⟨rest, f, hm⟩ := Array.exists_push_of_ne_empty hempty
    have hback : m.frames.back? = some f := by simp [hm]
    simp only [executed?_push hm, nextDispatch?, topHeight_push hm, hback]
    cases exceeded m.limits (m.steps + 1) f.stack.size with
    | some e => rfl
    | none =>
      dsimp only
      rcases f.code.unit.decode f.ip with e | _ | ⟨i, next⟩ <;> rfl

/-- The operand stack of the innermost frame is as high as the outcome allows, or no higher than
before if the instruction fails. -/
lemma executed?_fits (hfits : Fits m.limits slack m.frames)
    {r : EStateM.Result Failure Machine Outcome} : m.executed? = some r → match r with
      | .ok o m' => m'.limits = m.limits ∧ Fits m.limits o.slack m'.frames
      | .error _ m' => m'.limits = m.limits ∧ Fits m.limits 1 m'.frames := by
  intro h
  obtain ⟨rest, f, hm, hgo⟩ := executed?_some h
  obtain ⟨-, hheight⟩ := exceeded_eq_none_iff.1 hgo
  rw [hm] at hfits
  obtain ⟨hdepth, hwaiting, -⟩ := fits_push.1 hfits
  rw [executed?_push hm, hgo] at h
  split at h
  · next i next _ _ =>
    cases h
    have hrising := Exec.execute_rising i
      (activation { m with steps := m.steps + 1 } { f with lastIp := f.ip, ip := next })
    rw [within_apply { m with steps := m.steps + 1 }]
    cases hrun : Exec.execute i
      (activation { m with steps := m.steps + 1 } { f with lastIp := f.ip, ip := next }) with
    | ok o a =>
      have hrun' : a.frame.stack.size < f.stack.size + o.slack := Exec.execute_height hrun
      exact ⟨rfl, fits_push.2 ⟨hdepth, hwaiting, by omega⟩⟩
    | error e a =>
      rw [hrun] at hrising
      have hrun' : a.frame.stack.size ≤ f.stack.size := hrising.1.height
      exact ⟨rfl, fits_push.2 ⟨hdepth, hwaiting, by omega⟩⟩
  · cases h

/-- Where an instruction is about to be dispatched, the height of the innermost operand stack has
been looked at. -/
lemma dispatching_within (hfits : Fits m.limits slack m.frames) (h : m.nextDispatch?.isSome) :
    FramesWithin m.limits.maxDepth m.limits.maxStack m.frames := by
  rw [isSome_nextDispatch?, Option.isSome_iff_exists] at h
  obtain ⟨r, hx⟩ := h
  obtain ⟨rest, f, hm, hgo⟩ := executed?_some hx
  obtain ⟨-, hheight⟩ := exceeded_eq_none_iff.1 hgo
  rw [hm] at hfits ⊢
  obtain ⟨hdepth, hwaiting, -⟩ := fits_push.1 hfits
  have hfits₁ : Fits m.limits 1 (rest.push f) :=
    fits_push.2 ⟨hdepth, hwaiting, Nat.lt_succ_of_le hheight⟩
  exact hfits₁.framesWithin (Nat.le_refl _)

/-- The frame that a signal is offered to is within the bound. -/
lemma Offers.fits {s : Signal} (hfits : Fits m.limits slack m.frames) (h : m.Offers m' s) :
    Fits m.limits 1 m'.frames := by
  induction h with
  | signalled h => exact (executed?_fits hfits h).2
  | thrown h => exact (executed?_fits hfits h).2
  | @refused m₁ m' F callee positional keywords h hr =>
    obtain ⟨-, hroom⟩ := executed?_fits hfits h
    obtain ⟨heap, rfl⟩ := enter_error hr
    exact hroom.mono (Nat.zero_le 1)
  | passed h hframes hpassed hcaller ih =>
    rw [hframes] at ih
    exact ih.of_waiting.mono (Nat.zero_le 1)

/-! ## One step -/

/-- **One step** keeps the call stack within the bounds, but for the six values of a caught
fault. -/
lemma step_fits (hl : Linked m.frames) (hfits : Fits m.limits 7 m.frames) :
    m.step.Fits m.limits 7 := by
  cases m.stepEnd with
  | stopped _ hstep | idle _ hstep | undecodable _ _ hstep | fails _ hstep =>
    rw [hstep]
    trivial
  | exhausted hm hstep =>
    rw [hm] at hl hfits
    rw [hstep]
    exact (handBack_fits hl hfits rfl rfl .none).mono (by omega)
  | works h hstep =>
    rw [hstep]
    exact (executed?_fits hfits h).2.mono (by simp [Outcome.slack])
  | enters h henter hstep =>
    obtain ⟨hlimits, hroom⟩ := executed?_fits hfits h
    obtain ⟨heap, g, rfl, -, hg, hdepth⟩ := enter_ok henter
    rw [hlimits] at hdepth
    rw [hstep]
    exact (hroom.push hdepth hg).mono (by omega)
  | @offers m' s h =>
    rw [h.step]
    exact deliver_fits (h.linked hl) (h.fits hfits) s m'.frames.size

lemma PassesThrough.fits (hfits : Fits m.limits slack m.frames) (h : m.PassesThrough m') :
    Fits m.limits 2 m'.frames := by
  cases h with
  | @done o m' h => exact (executed?_fits hfits h).2.mono o.slack_le
  | failed h => exact (executed?_fits hfits h).2.mono (Nat.le_succ 1)
  | offers h => exact (h.fits hfits).mono (Nat.le_succ 1)

/-! ## Requests -/

lemma serve_fits (h : m.frames = #[]) (q : Request) : (m.serve q).Fits m.limits 1 := by
  have hempty := readied_frames h q
  obtain ⟨heap, output, r, hserve, -⟩ | ⟨heap, f, hserve, -, hf, hroom⟩ := m.serve_cases q
  · rw [hserve]
    trivial
  · rw [hempty] at hroom
    rw [hserve, hempty]
    exact fits_empty.push hroom hf

end Machine

/-! ## Sessions -/

/-- A session of a machine with the limits `l` has come to `p`, and has dispatched `k` instructions
since the counter of steps was last set back. -/
inductive Session (l : Limits) : Progress → Nat → Prop
  | new (output : Output) : Session l (.finished (.new l output) (.ok .none)) 0
  | request {m : Machine} {r : RunResult} {k : Nat} (h : Session l (.finished m r) k) (heap : Heap)
    (output : Output) (q : Request) :
    Session l (({ m with heap := heap, output := output } : Machine).serve q)
      (if q.resets then 0 else k)
  | step {m : Machine} {k : Nat} (h : Session l (.running m) k) :
    Session l m.step (k + m.nextDispatch?.toList.length)

section Session

variable {l : Limits} {p : Progress} {k : Nat}

lemma Session.serve {m : Machine} {r : RunResult} (h : Session l (.finished m r) k) (q : Request) :
    Session l (m.serve q) (if q.resets then 0 else k) := h.request m.heap m.output q

lemma Session.reached (h : Session l p k) : Reached p := by
  induction h with
  | new output => exact .new l output
  | request h heap output q ih => exact ih.request heap output q
  | step h ih => exact ih.step

/-- What a run dispatches is counted. -/
lemma Session.advance (h : Session l p k) (fuel : Nat) :
    Session l (Machine.advance fuel p) (k + (Machine.dispatched fuel p).length) := by
  induction fuel generalizing p k with
  | zero => exact h
  | succ fuel ih =>
    cases p with
    | finished m r => exact h
    | running m =>
      have hrest := ih h.step
      rw [Nat.add_assoc, ← List.length_append] at hrest
      exact hrest

/-- The invariant of a session. -/
structure Session.Sound (l : Limits) (p : Progress) (k : Nat) : Prop where
  limits : p.machine.limits = l
  /-- But for the six values of a caught fault. -/
  fits : p.Fits l 7
  /-- Each dispatch is a step that the machine has counted. -/
  counted : k ≤ p.machine.steps
  allowed : ∀ n, l.maxSteps = some n → k ≤ n

lemma Session.Sound.request {m : Machine} {r : RunResult} (h : Sound l (.finished m r) k)
    (hframes : m.frames = #[]) (heap : Heap) (output : Output) (q : Request) :
    Sound l (({ m with heap := heap, output := output } : Machine).serve q)
      (if q.resets then 0 else k) := by
  have hlimits : m.limits = l := h.limits
  have hfits := Machine.serve_fits (m := { m with heap := heap, output := output }) hframes q
  have hsteps := Machine.serve_steps { m with heap := heap, output := output } q
  have hcounted : k ≤ m.steps := h.counted
  refine ⟨(Machine.serve_limits _ q).trans hlimits, ?_, ?_, ?_⟩
  · rw [← hlimits]
    exact hfits.mono (by omega)
  · rw [hsteps]
    split <;> omega
  · intro n hn
    have hk := h.allowed n hn
    split <;> omega

lemma Session.Sound.step {m : Machine} (h : Sound l (.running m) k) (hl : Linked m.frames) :
    Sound l m.step (k + m.nextDispatch?.toList.length) := by
  have hcarries := m.step_carries
  have hlimits : m.limits = l := h.limits
  have hsteps : m.step.machine.steps = m.steps + 1 := hcarries.steps
  have hcounted : k ≤ m.steps := h.counted
  have hone : m.nextDispatch?.toList.length ≤ 1 := by
    cases m.nextDispatch? <;> simp
  refine ⟨hcarries.limits.trans hlimits, ?_, by omega, ?_⟩
  · have hfits := h.fits
    rw [← hlimits] at hfits ⊢
    exact Machine.step_fits hl hfits
  · intro n hn
    cases hx : m.executed? with
    | none =>
      have hnext : m.nextDispatch? = none := by
        simpa [hx] using m.isSome_nextDispatch?
      rw [hnext]
      exact h.allowed n hn
    | some r =>
      obtain ⟨rest, f, -, hgo⟩ := Machine.executed?_some hx
      have hle := (Machine.exceeded_eq_none_iff.1 hgo).1 n (hlimits ▸ hn)
      omega

lemma Session.sound (h : Session l p k) : Session.Sound l p k := by
  induction h with
  | new output => exact ⟨rfl, trivial, Nat.zero_le _, fun n _ => Nat.zero_le n⟩
  | request h heap output q ih => exact ih.request h.reached.orderly.1 heap output q
  | step h ih => exact ih.step h.reached.orderly.2

/-- What the limits promise. -/
structure Bounded (l : Limits) (p : Progress) (k : Nat) : Prop where
  /-- Before each step, and when a request has been served. -/
  frames : FramesWithin l.maxDepth (l.maxStack + 6) p.machine.frames
  /-- Where an instruction is about to be dispatched. -/
  dispatching : ∀ m, p = .running m → m.nextDispatch?.isSome →
    FramesWithin l.maxDepth l.maxStack m.frames
  /-- While a step is being taken. -/
  passing : ∀ m m', p = .running m → m.PassesThrough m' →
    FramesWithin l.maxDepth (l.maxStack + 6) m'.frames
  /-- All instructions since the counter of steps was set back. -/
  dispatched : ∀ n, l.maxSteps = some n → k ≤ n

/-- **Bounds on resources.**  Whatever is asked of a machine: its call stack is never too deep, no
operand stack of it is too high where an instruction is dispatched, and none is ever higher than
that by more than the six values of a caught fault.  However many calls there are, no more
instructions are dispatched than steps are allowed, until a run or a reset sets the counter
back. -/
theorem Session.bounded (h : Session l p k) : Bounded l p k := by
  obtain ⟨hlimits, hfits, -, hallowed⟩ := h.sound
  have horderly := h.reached.orderly
  refine ⟨?_, ?_, ?_, hallowed⟩
  · cases p with
    | running m => exact Fits.framesWithin hfits (Nat.le_refl _)
    | finished m r =>
      have hframes : m.frames = #[] := horderly.1
      have hnone : Fits l 0 m.frames := hframes ▸ fits_empty
      exact hnone.framesWithin (by omega)
  · rintro m rfl hnext
    have hlimits' : m.limits = l := hlimits
    subst hlimits'
    exact Machine.dispatching_within hfits hnext
  · rintro m m' rfl hpasses
    have hlimits' : m.limits = l := hlimits
    subst hlimits'
    exact (hpasses.fits hfits).framesWithin (by omega)

end Session

/-- Room for two frames with one value each, and for four steps. -/
def narrow : Limits := { maxDepth := 2, maxSteps := some 4, maxStack := 1 }

-- Irreducible, so that only the kernel ever evaluates such a run.
/-- A new machine that has run into the function that a program calls. -/
@[irreducible] def narrowSession : Progress :=
  Machine.advance 4 ((Machine.new narrow .console).serve (.run ⟨0, [], callingUnit #[]⟩ none none))

/-- Two of the limits have been reached: there are two frames, and four instructions have been
dispatched. -/
theorem session_bounded_in_callee :
    narrowSession.machine.frames.size = 2 ∧ narrow.maxSteps = some 4 ∧
      Session narrow narrowSession 4 ∧ Bounded narrow narrowSession 4 := by
  have hdispatched : (Machine.dispatched 4 ((Machine.new narrow .console).serve
      (.run ⟨0, [], callingUnit #[]⟩ none none))).length = 4 := by decide +kernel
  have hsession : Session narrow narrowSession 4 := by
    have hrun := ((Session.new (l := narrow) .console).serve
      (.run ⟨0, [], callingUnit #[]⟩ none none)).advance 4
    rw [hdispatched] at hrun
    unfold narrowSession
    exact hrun
  exact ⟨by decide +kernel, rfl, hsession, hsession.bounded⟩

-- The six values are there: a fault is caught in a frame that is to hold no value at all.
example : (Machine.advance 2 ((Machine.new { maxStack := 0 } .console).serve
    (.run ⟨0, [], { (.named "<module>" : CodeUnit) with
      code := #[0x79, 3, 0, 0x51, 0, 0]
      names := ["x"] }⟩ none none))).machine.frames.toList.map (·.stack.size) = [6] := by
  decide +kernel

end StackMachine
