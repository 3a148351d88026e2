import StackMachine.Proofs.BlockSemantics
import StackMachine.Proofs.LastFault
import StackMachine.Proofs.Operands
/-!
# What lies below

While a frame runs, its operand stack rises and falls.  If it never falls below some height, the
values up to that height stay where they are: there is no other way to get at them than to take off
what is above.  The height counts in the middle of a step as well.  An instruction may take values
off and put others in their place (`Instruction.lowest`), and a signal that the frame absorbs cuts
the stack back to the heights of the blocks that it removes; `Machine.StepsOver` bounds both.

The frame need not be the innermost one.  It may call functions, which give it values and faults of
theirs, so the statements are about the frame at some place of the call stack, for one step
(`step_sameAt`) and for a run during which the frame is there (`RunsOver.sameAt`).
-/

namespace StackMachine

/-- The lowest height that the operand stack has while the instruction is executed.  The end of a
handler cuts it back to the height of the handler's block. -/
def Instruction.lowest (a : Activation) : Instruction → Nat
  | popExcept =>
    match a.frame.blocks with
    | b :: _ => b.height
    | [] => a.frame.stack.size
  | i => a.frame.stack.size - i.taken a

namespace Frame.SameBelow

variable {f g : Frame} {k : Nat}

lemma le (hfg : f.SameBelow k g) (hk : k ≤ f.stack.size) : k ≤ g.stack.size := by
  have hsize := congrArg Array.size hfg
  simp only [Array.take_eq_extract, Array.size_extract] at hsize
  omega

/-- Values come on a stack that has been cut back no further. -/
lemma of_append {height : Nat} {values : Array Value}
    (hg : g.stack = f.stack.take height ++ values) (hheight : k ≤ height)
    (hk : k ≤ f.stack.size) : f.SameBelow k g := by
  have hcut : k - min height f.stack.size = 0 := by omega
  show g.stack.take k = f.stack.take k
  rw [hg]
  simp [hcut, Nat.min_eq_left hheight]

end Frame.SameBelow

namespace Exec

variable {a c : Activation} {i : Instruction} {floor : Nat}

/-! ## Instructions -/

/-- The end of a handler does nothing else, and it raises no fault. -/
lemma execute_popExcept_cases (a : Activation) :
    (∃ b rest, a.frame.blocks = b :: rest ∧ execute .popExcept a = .ok .next (a.leave b rest)) ∨
    ∃ e c, execute .popExcept a = .error (.fatal e) c := by
  cases hblocks : a.frame.blocks with
  | nil =>
    refine .inr ⟨.malformedCode a.frame.lastIp .noBlock, a, ?_⟩
    simp [execute, perform, popExcept, popBlock, hblocks, malformed]
  | cons b rest =>
    by_cases hk : b.kind = .exceptHandler
    · by_cases hneed : b.need ≤ a.frame.stack.size
      · exact .inl ⟨b, rest, rfl, execute_popExcept hblocks hk hneed⟩
      · have hleave := leaveBlock_underflow
          (a := { a with frame := { a.frame with blocks := rest } }) (Nat.lt_of_not_le hneed)
        refine .inr ⟨.stackUnderflow b.need a.frame.stack.size,
          { a with frame := { a.frame with blocks := rest } }, ?_⟩
        simp [execute, perform, popExcept, popBlock, hblocks, hk, hleave]
    · refine .inr ⟨.malformedCode a.frame.lastIp (.notInHandler b.kind.name),
        { a with frame := { a.frame with blocks := rest } }, ?_⟩
      simp [execute, perform, popExcept, popBlock, hblocks, hk, malformed]

/-- What is not taken off in the course of an instruction stays. -/
lemma execute_sameBelow (hlowest : floor ≤ i.lowest a) :
    match execute i a with
    | .ok _ c | .error (.fault _) c => a.frame.SameBelow floor c.frame
    | .error (.fatal _) _ => True := by
  by_cases hi : i = .popExcept
  · subst hi
    obtain ⟨b, rest, hblocks, hx⟩ | ⟨e, c, hx⟩ := execute_popExcept_cases a
    · rw [hx]
      have hheight : floor ≤ b.height := by
        simp only [Instruction.lowest, hblocks] at hlowest
        exact hlowest
      show (a.frame.stack.take b.height).take floor = a.frame.stack.take floor
      simp [Nat.min_eq_left hheight]
    · rw [hx]
      trivial
  · have hworked := execute_worked hi a
    have hlow : floor ≤ a.frame.stack.size - i.taken a := by
      cases i
      case popExcept => exact absurd rfl hi
      all_goals exact hlowest
    cases hx : execute i a with
    | ok o c =>
      rw [hx] at hworked
      exact hworked.2.1.mono hlow
    | error e c =>
      rw [hx] at hworked
      cases e with
      | fault F => exact hworked.1.mono hlow
      | fatal e => trivial

/-! ## Unwinding -/

/-- The block that takes a signal cuts the stack back to its height, unless it stays. -/
lemma takenAt_stack {s : Signal} {b : Block} {above below : List Block}
    (hkeeps : s.keeps b = false) : ∃ values : Array Value,
      (a.takenAt above b below s).frame.stack = a.frame.stack.take b.height ++ values := by
  cases hk : b.kind with
  | loop =>
    cases s with
    | continuing target => simp [Signal.keeps, hk] at hkeeps
    | _ => exact ⟨#[], by simp [Activation.takenAt, hk]⟩
  | _ =>
    cases s with
    | raising F => exact ⟨_, by simp only [Activation.takenAt, hk]; rfl⟩
    | _ => exact ⟨_, by simp only [Activation.takenAt, hk]; rfl⟩

/-- Where a loop is continued, the blocks above it cut the stack back. -/
lemma cutBy_take {blocks : List Block} {stack : Array Value}
    (hheights : ∀ b ∈ blocks, floor ≤ b.height) :
    (cutBy blocks stack).take floor = stack.take floor := by
  unfold cutBy
  cases hlast : blocks.getLast? with
  | none => rfl
  | some b =>
    have hheight : floor ≤ b.height := hheights b (List.mem_of_getLast? hlast)
    simp [Nat.min_eq_left hheight]

/-- A signal that is absorbed leaves the values below the blocks that it removes. -/
lemma unwind_sameBelow {s : Signal} (h : unwind s a = .ok none c)
    (hfloor : floor ≤ a.frame.stack.size)
    (hremoved : ∀ b ∈ s.removed a.frame.blocks, floor ≤ b.height) :
    a.frame.SameBelow floor c.frame := by
  have hexact := unwind_exact s a
  rw [h] at hexact
  obtain ⟨-, heq⟩ := hexact
  rw [Activation.unwound] at heq
  cases hmet : s.met a.frame.blocks with
  | nil =>
    rw [hmet] at heq
    cases heq
  | cons b below =>
    rw [hmet] at heq
    obtain rfl : c = a.takenAt (s.passed a.frame.blocks) b below s := congrArg Prod.snd heq
    cases hkeeps : s.keeps b with
    | true =>
      obtain ⟨target, rfl, hk⟩ := Signal.eq_of_keeps hkeeps
      have hpassed : ∀ d ∈ Signal.passed (.continuing target) a.frame.blocks, floor ≤ d.height :=
        fun d hd => hremoved d (List.mem_append_left _ hd)
      simp only [Activation.takenAt, hk]
      exact cutBy_take hpassed
    | false =>
      have hheight : floor ≤ b.height := by
        apply hremoved
        simp [Signal.removed, hmet, hkeeps]
      obtain ⟨values, hstack⟩ := takenAt_stack hkeeps
      exact .of_append hstack hheight hfloor

end Exec

/-! ## One step -/

/-- Each frame at place `n` of the later call stack has been there before, and if it had so many
values then the lowest `floor` of them are still the same. -/
def SameAt (n floor : Nat) (frames frames' : Array Frame) : Prop :=
  ∀ g, frames'[n]? = some g →
    ∃ f, frames[n]? = some f ∧ (floor ≤ f.stack.size → f.SameBelow floor g)

namespace SameAt

variable {n floor : Nat} {frames frames₁ frames₂ rest : Array Frame} {f g : Frame}

lemma refl (frames : Array Frame) : SameAt n floor frames frames :=
  fun g hg => ⟨g, hg, fun _ => .refl floor g⟩

lemma trans (h : SameAt n floor frames frames₁) (h' : SameAt n floor frames₁ frames₂) :
    SameAt n floor frames frames₂ := by
  intro g hg
  obtain ⟨f₁, hf₁, hsame₁⟩ := h' g hg
  obtain ⟨f, hf, hsame⟩ := h f₁ hf₁
  refine ⟨f, hf, fun hfloor => ?_⟩
  have hbelow := hsame hfloor
  exact hbelow.trans (hsame₁ (hbelow.le hfloor))

/-- The innermost frame has changed. -/
lemma push (h : rest.size = n → floor ≤ f.stack.size → f.SameBelow floor g) :
    SameAt n floor (rest.push f) (rest.push g) := by
  intro x hx
  rw [Array.getElem?_push] at hx ⊢
  split at hx
  · next htop =>
    cases hx
    rw [if_pos htop]
    exact ⟨f, rfl, h htop.symm⟩
  · next htop =>
    rw [if_neg htop]
    exact ⟨x, hx, fun _ => .refl floor x⟩

/-- The innermost frame has left. -/
lemma pop : SameAt n floor (rest.push f) rest := by
  intro x hx
  obtain ⟨hlt, -⟩ := Array.getElem?_eq_some_iff.1 hx
  refine ⟨x, ?_, fun _ => .refl floor x⟩
  rw [Array.getElem?_push_lt hlt]
  exact (Array.getElem?_eq_getElem hlt).symm.trans hx

/-- A frame gets a value. -/
lemma modify (i : Nat) (v : Value) :
    SameAt n floor frames (frames.modify i fun f => { f with stack := f.stack.push v }) := by
  intro g hg
  rw [Array.getElem?_modify] at hg
  split at hg
  · obtain ⟨f, hf, rfl⟩ := Option.map_eq_some_iff.1 hg
    refine ⟨f, hf, fun hfloor => ?_⟩
    have hpush : f.stack.push v = f.stack.take f.stack.size ++ #[v] := by simp
    exact .of_append hpush hfloor hfloor
  · exact ⟨g, hg, fun _ => .refl floor g⟩

end SameAt

namespace Machine

variable {m m' m₁ : Machine} {n floor next : Nat} {rest : Array Frame} {f : Frame} {F : Fault}
  {i : Instruction}

/-- In the next step the operand stack of the frame at place `n` does not fall below a height: the
instruction that the frame executes does not reach below it, and a signal that is offered to the
frame removes no block below it. -/
structure StepsOver (m : Machine) (n floor : Nat) : Prop where
  instruction : ∀ {rest : Array Frame} {f : Frame} {i : Instruction} {next : Nat},
    m.frames = rest.push f → rest.size = n → f.code.unit.decode f.ip = .ok (some (i, next)) →
    floor ≤ i.lowest (m.activation f)
  unwinding : ∀ {m' : Machine} {s : Signal} {rest : Array Frame} {f : Frame}, m.Offers m' s →
    m'.frames = rest.push f → rest.size = n → ∀ b ∈ s.removed f.blocks, floor ≤ b.height

/-- The instruction of a step. -/
lemma executed?_sameAt (hover : m.StepsOver n floor)
    {r : EStateM.Result Failure Machine Outcome} : m.executed? = some r → match r with
      | .ok _ m' | .error (.fault _) m' => SameAt n floor m.frames m'.frames
      | .error (.fatal _) _ => True := by
  intro h
  obtain ⟨rest, f, hm, -⟩ := executed?_some h
  rw [executed?_push hm] at h
  split at h
  · next i next _ hdecode =>
    have hsame : rest.size = n → match Exec.execute i
        (activation { m with steps := m.steps + 1 } { f with lastIp := f.ip, ip := next }) with
      | .ok _ c | .error (.fault _) c => f.SameBelow floor c.frame
      | .error (.fatal _) _ => True := by
      intro hplace
      have hlowest := hover.instruction hm hplace hdecode
      exact Exec.execute_sameBelow hlowest
    cases h
    rw [within_apply { m with steps := m.steps + 1 }]
    generalize Exec.execute i
      (activation { m with steps := m.steps + 1 } { f with lastIp := f.ip, ip := next }) = r
      at hsame ⊢
    rcases r with ⟨o, c⟩ | ⟨F | e, c⟩
    · show SameAt n floor m.frames (rest.push c.frame)
      rw [hm]
      exact SameAt.push fun hplace _ => hsame hplace
    · show SameAt n floor m.frames (rest.push c.frame)
      rw [hm]
      exact SameAt.push fun hplace _ => hsame hplace
    · trivial
  · cases h

/-- The frames that a signal has come to. -/
lemma Offers.sameAt {s : Signal} (hover : m.StepsOver n floor) (h : m.Offers m' s) :
    SameAt n floor m.frames m'.frames := by
  induction h with
  | signalled h => exact executed?_sameAt hover h
  | thrown h => exact executed?_sameAt hover h
  | refused h hr =>
    have hcalled := executed?_sameAt hover h
    obtain ⟨heap, rfl⟩ := enter_error hr
    exact hcalled
  | @passed m' rest f F a caller h hframes hpassed hcaller ih =>
    rw [hframes] at ih
    exact ih.trans .pop

/-- A frame that is done hands its value to a frame that is still there. -/
lemma handBack_sameAt {v : Value} (h : m.handBack f v = .running m') :
    SameAt n floor m.frames m'.frames := by
  unfold handBack at h
  split at h
  · cases h
  · split at h
    · cases h
      exact .modify _ v
    · cases h

/-- What is left to do of a step when a signal is offered.  The induction is on the number of frames
that a fault leaves. -/
lemma deliver_sameAt {s : Signal} {depth : Nat} (hover : m.StepsOver n floor)
    (hoffers : m.Offers m₁ s) (h : m₁.deliver s depth = .running m') :
    SameAt n floor m.frames m'.frames := by
  induction depth generalizing m₁ s with
  | zero => cases h
  | succ depth ih =>
    have hcome := hoffers.sameAt hover
    by_cases hempty : m₁.frames = #[]
    · rw [deliver_empty hempty] at h
      cases h
    · obtain ⟨rest, f, hm₁⟩ := Array.exists_push_of_ne_empty hempty
      rw [hm₁] at hcome
      rw [deliver_push hm₁] at h
      rcases hu : Exec.unwind s (m₁.activation f) with ⟨_ | s', a⟩ | ⟨F | e, a⟩ <;>
        rw [hu] at h
      · cases h
        refine hcome.trans (SameAt.push fun hplace hfloor => ?_)
        exact Exec.unwind_sameBelow hu hfloor (hover.unwinding hoffers hm₁ hplace)
      · obtain ⟨rfl, -⟩ := Exec.unwind_left hu
        have hleft : SameAt n floor m.frames rest := hcome.trans .pop
        cases s' with
        | returning v => exact hleft.trans (handBack_sameAt (m := m₁.resume rest a) h)
        | raising F =>
          dsimp only at h
          cases hcaller : a.frame.caller? with
          | none =>
            rw [hcaller] at h
            cases h
          | some caller =>
            rw [hcaller] at h
            exact ih (hoffers.passed hm₁ hu hcaller) h
        | breaking => cases h
        | continuing target => cases h
      · cases h
      · cases h

/-- **One step**: where the operand stack of a frame does not fall below a height, the values up to
that height are the same ones after the step. -/
lemma step_sameAt (hplace : n < m.frames.size) (hover : m.StepsOver n floor)
    (h : m.step = .running m') : SameAt n floor m.frames m'.frames := by
  cases m.stepEnd with
  | stopped _ hstep | idle _ hstep | undecodable _ _ hstep | fails _ hstep =>
    rw [hstep] at h
    cases h
  | @exhausted rest f hframes hstep =>
    rw [hstep] at h
    rw [hframes]
    exact SameAt.pop.trans (handBack_sameAt h)
  | works hx hstep =>
    rw [hstep] at h
    cases h
    exact executed?_sameAt hover hx
  | @enters m₁ m₂ callee positional keywords hx henter hstep =>
    rw [hstep] at h
    cases h
    have hcalled := executed?_sameAt hover hx
    obtain ⟨heap, c, rfl, -⟩ := enter_ok henter
    obtain ⟨rest, f, hm, -⟩ := executed?_some hx
    obtain ⟨f', hm₁, -⟩ := executed?_confined hm hx
    -- The frame at the place is not the one that has been pushed.
    have hbelow : n < m₁.frames.size := by
      rw [hm, Array.size_push] at hplace
      rw [hm₁, Array.size_push]
      exact hplace
    intro g hg
    apply hcalled g
    rw [Array.getElem?_push_lt hbelow] at hg
    exact (Array.getElem?_eq_getElem hbelow).trans hg
  | offers hoffers =>
    rw [hoffers.step] at h
    exact deliver_sameAt hover hoffers h

/-! ## Steps over a height -/

/-- An instruction that ends in no signal offers none. -/
lemma Offers.executed?_ne_next {s : Signal} (h : m.Offers m₁ s) :
    m.executed? ≠ some (.ok .next m') := by
  intro hx
  induction h with
  | signalled h | thrown h | refused h _ => cases hx.symm.trans h
  | passed _ _ _ _ ih => exact ih

/-- A fault goes no further than the outermost frame. -/
lemma Offers.frames_of_thrown {s : Signal} (h : m.Offers m₁ s)
    (hx : m.executed? = some (.error (.fault F) m')) (hframes : m'.frames = rest.push f)
    (hcaller : f.caller? = none) : m₁.frames = rest.push f ∧ s = .raising F := by
  induction h with
  | signalled h | refused h _ => cases hx.symm.trans h
  | thrown h =>
    cases hx.symm.trans h
    exact ⟨hframes, rfl⟩
  | @passed m₂ _ _ F' a caller h hframes₂ hpassed hcaller₂ ih =>
    obtain ⟨rfl, -⟩ := Array.push_eq_push.1 (hframes₂.symm.trans ih.1)
    obtain ⟨-, rfl⟩ := Exec.unwind_left hpassed
    rw [Activation.leaveAll_eq] at hcaller₂
    exact absurd (hcaller₂.symm.trans hcaller) (Option.some_ne_none caller)

/-- What remains to be seen of a step over a height, if the instruction is known. -/
lemma StepsOver.of_decode (hframes : m.frames = rest.push f)
    (hcode : f.code.unit.decode f.ip = .ok (some (i, next)))
    (hlowest : floor ≤ i.lowest (m.activation f))
    (hunwinding : ∀ {m' : Machine} {s : Signal} {rest' : Array Frame} {f : Frame}, m.Offers m' s →
      m'.frames = rest'.push f → rest'.size = rest.size →
      ∀ b ∈ s.removed f.blocks, floor ≤ b.height) :
    m.StepsOver rest.size floor := by
  refine ⟨?_, hunwinding⟩
  intro rest' f' i' next' hframes' _ hcode'
  obtain ⟨rfl, -⟩ := Array.push_eq_push.1 (hframes.symm.trans hframes')
  cases hcode.symm.trans hcode'
  exact hlowest

/-- A step that does no more than execute an instruction. -/
lemma StepsOver.of_next (hframes : m.frames = rest.push f)
    (hcode : f.code.unit.decode f.ip = .ok (some (i, next)))
    (hlowest : floor ≤ i.lowest (m.activation f)) (hx : m.executed? = some (.ok .next m')) :
    m.StepsOver rest.size floor :=
  .of_decode hframes hcode hlowest fun hoffers => absurd hx hoffers.executed?_ne_next

/-! ## Runs -/

/-- The run goes on from one machine to another one; all the time there is a frame at place `n`, and
its operand stack does not fall below a height. -/
def RunsOver (n floor : Nat) : Machine → Machine → Prop :=
  Relation.ReflTransGen fun m m' =>
    m.step = .running m' ∧ m.StepsOver n floor ∧ n < m.frames.size

/-- **A run**: the induction is on its steps. -/
lemma RunsOver.sameAt (h : RunsOver n floor m m') : SameAt n floor m.frames m'.frames := by
  induction h with
  | refl => exact .refl m.frames
  | tail _ hstep ih => exact ih.trans (step_sameAt hstep.2.2 hstep.2.1 hstep.1)

end Machine

end StackMachine
