import StackMachine.Proofs.CallStack
/-!
# What a machine carries along

Frames come and go, but some of what they share has a history of its own.  The limits of a machine
never change, the counter of steps changes only at the beginning of a step, and to what has been
printed there is only added.  `Carries` says so for whatever happens within a step, one operation on
the call stack after the other; `step_carries` says it for a step as a whole.
-/

namespace StackMachine

namespace Machine

/-- What has become of a machine within a step, as far as it does not concern frames. -/
structure Carries (m m' : Machine) : Prop where
  limits : m'.limits = m.limits
  steps : m'.steps = m.steps
  output : m.output.Continues m'.output

variable {m m' : Machine}

lemma Carries.of_eq (hlimits : m'.limits = m.limits) (hsteps : m'.steps = m.steps)
    (houtput : m'.output = m.output) : m.Carries m' :=
  ⟨hlimits, hsteps, houtput ▸ .refl m.output⟩

lemma Carries.trans {m₁ m₂ : Machine} (h : m.Carries m₁) (h' : m₁.Carries m₂) : m.Carries m₂ :=
  ⟨h'.limits.trans h.limits, h'.steps.trans h.steps, h.output.trans h'.output⟩

/-- Whatever happens to the call stack, and to the activation of one frame of it. -/
lemma carries_resume {f : Frame} {a : Activation} (h : (m.activation f).Follows a)
    (frames : Array Frame) : m.Carries (m.resume frames a) := ⟨rfl, rfl, h.output⟩

lemma handBack_carries (m : Machine) (f : Frame) (v : Value) :
    m.Carries (m.handBack f v).machine := by
  unfold handBack
  cases f.caller? with
  | none => exact .of_eq rfl rfl rfl
  | some caller =>
    dsimp only
    split <;> exact .of_eq rfl rfl rfl

/-- The induction is on the number of frames that a fault leaves. -/
lemma deliver_carries (m : Machine) (s : Signal) (depth : Nat) :
    m.Carries (m.deliver s depth).machine := by
  induction depth generalizing m s with
  | zero => exact .of_eq rfl rfl rfl
  | succ depth ih =>
    by_cases hempty : m.frames = #[]
    · rw [deliver_empty hempty]
      exact .of_eq rfl rfl rfl
    · obtain ⟨rest, f, hm⟩ := Array.exists_push_of_ne_empty hempty
      have htame := Exec.unwind_tame s (m.activation f)
      rw [deliver_push hm]
      rcases hunwind : Exec.unwind s (m.activation f) with ⟨_ | s', a⟩ | ⟨F | e, a⟩ <;>
        rw [hunwind] at htame
      · exact carries_resume htame _
      · have hleft : m.Carries (m.resume rest a) := carries_resume htame rest
        cases s' with
        | returning v => exact hleft.trans (handBack_carries (m.resume rest a) a.frame v)
        | raising F =>
          dsimp only
          cases a.frame.caller? with
          | none => exact hleft
          | some caller =>
            have hfault : (m.resume rest a).Carries
                { m.resume rest a with lastFault := some (F.leaving a.frame) } := .of_eq rfl rfl rfl
            exact hleft.trans (hfault.trans (ih _ (.raising (F.leaving a.frame))))
        | breaking => exact carries_resume htame #[]
        | continuing target => exact carries_resume htame #[]
      · exact carries_resume htame.1 _
      · exact carries_resume htame.1 _

lemma fault_carries (m : Machine) (F : Fault) : m.Carries (m.fault F).machine := by
  have hfault : m.Carries { m with lastFault := some F } := .of_eq rfl rfl rfl
  exact hfault.trans (deliver_carries { m with lastFault := some F } (.raising F) m.frames.size)

lemma proceed_carries (m : Machine) (o : Outcome) : m.Carries (proceed (.ok o m)).machine := by
  cases o with
  | next => exact .of_eq rfl rfl rfl
  | signal s => exact deliver_carries m s m.frames.size
  | enter callee positional keywords =>
    simp only [proceed]
    cases henter : m.enter callee positional keywords (some (m.frames.size - 1)) with
    | ok _ m' =>
      obtain ⟨heap, g, rfl, -⟩ := enter_ok henter
      exact .of_eq rfl rfl rfl
    | error F m' =>
      obtain ⟨heap, rfl⟩ := enter_error henter
      have hrefused : m.Carries { m with heap := heap } := .of_eq rfl rfl rfl
      exact hrefused.trans (fault_carries { m with heap := heap } F)

lemma proceed_within_carries (m : Machine) (f : Frame) {x : Exec Outcome} (hx : Exec.Tame x) :
    m.Carries (proceed (m.within f x)).machine := by
  have htame := hx (m.activation f)
  unfold within
  dsimp only [activation] at htame ⊢
  rcases hrun : x ⟨f, m.heap, m.lastFault, m.output⟩ with ⟨o, a⟩ | ⟨F | e, a⟩ <;>
    rw [hrun] at htame
  · exact (carries_resume htame _).trans (proceed_carries (m.resume (m.frames.push a.frame) a) o)
  · exact (carries_resume htame.1 _).trans (fault_carries (m.resume (m.frames.push a.frame) a) F)
  · exact carries_resume htame.1 #[]

/-- **One step** counts itself, adds to what has been printed, and leaves the limits alone. -/
lemma step_carries (m : Machine) :
    ({ m with steps := m.steps + 1 } : Machine).Carries m.step.machine := by
  cases hgo : exceeded m.limits (m.steps + 1) m.topHeight with
  | some e =>
    rw [step_stopped hgo]
    exact .of_eq rfl rfl rfl
  | none =>
    by_cases hempty : m.frames = #[]
    · rw [step_empty hempty hgo]
      exact .of_eq rfl rfl rfl
    · obtain ⟨rest, f, hm⟩ := Array.exists_push_of_ne_empty hempty
      rw [topHeight_push hm] at hgo
      let below : Machine := { m with steps := m.steps + 1, frames := rest }
      have hbelow : ({ m with steps := m.steps + 1 } : Machine).Carries below :=
        .of_eq rfl rfl rfl
      rcases hdecode : f.code.unit.decode f.ip with e | _ | ⟨i, next⟩
      · rw [step_undecodable hm hgo hdecode]
        exact .of_eq rfl rfl rfl
      · rw [step_exhausted hm hgo hdecode]
        exact hbelow.trans (handBack_carries below f .none)
      · rw [step_working hm hgo hdecode]
        exact hbelow.trans (proceed_within_carries below _ (Exec.execute_rising i).tame)

/-- What has been printed stays printed for as long as the run goes on. -/
lemma advance_output (fuel : Nat) (p : Progress) :
    p.machine.output.Continues (advance fuel p).machine.output := by
  induction fuel generalizing p with
  | zero => exact .refl _
  | succ fuel ih =>
    cases p with
    | finished m r => exact .refl _
    | running m => exact (step_carries m).output.trans (ih m.step)

/-! ## Requests -/

/-- A request changes no limits. -/
lemma serve_limits (m : Machine) (q : Request) : (m.serve q).machine.limits = m.limits := by
  have hlimits := m.readied_limits q
  obtain ⟨heap, output, r, hserve, -⟩ | ⟨heap, f, hserve, -⟩ := m.serve_cases q
  · rw [hserve]
    exact hlimits
  · rw [hserve]
    exact hlimits

/-- It does not count as a step. -/
lemma serve_steps (m : Machine) (q : Request) :
    (m.serve q).machine.steps = if q.resets then 0 else m.steps := by
  have hsteps : (m.readied q).steps = if q.resets then 0 else m.steps := by
    unfold readied
    split <;> rfl
  obtain ⟨heap, output, r, hserve, -⟩ | ⟨heap, f, hserve, -⟩ := m.serve_cases q
  · rw [hserve]
    exact hsteps
  · rw [hserve]
    exact hsteps

end Machine

end StackMachine
