import StackMachine.Proofs.Shared
/-!
# Limits only cut runs short

The limits on steps and on the height of operand stacks are looked at before an instruction is
fetched, and nowhere else.  So two machines that differ in nothing but these limits do the same as
long as the stricter one is not stopped by them: one step of the one is one step of the other
(`step_withLimits`).  A run under the stricter limits is then either the run under the laxer ones,
step by step and in all that it leaves behind, or it is that run up to the point where it was
stopped (`advance_withLimits`).

The limit on the depth of the call stack is another matter: guest code sees the fault of a refused
call, so it has to be the same for both machines.
-/

namespace StackMachine

/-- Both kinds of limits refuse calls alike, and the second ones allow at least as many steps and
values on a stack as the first ones. -/
structure Limits.Within (l l' : Limits) : Prop where
  maxDepth : l'.maxDepth = l.maxDepth
  maxStack : l.maxStack ≤ l'.maxStack
  maxSteps : ∀ n', l'.maxSteps = some n' → ∃ n, l.maxSteps = some n ∧ n ≤ n'

/-- Whether a run has been stopped at a limit. -/
def RunResult.isStopped : RunResult → Bool
  | .error (.fatal e) => e.isLimit
  | _ => false

namespace Machine

/-- The machine under other limits. -/
def withLimits (m : Machine) (l : Limits) : Machine := { m with limits := l }

end Machine

namespace Progress

/-- The same progress under other limits. -/
def withLimits (l : Limits) : Progress → Progress
  | .running m => .running (m.withLimits l)
  | .finished m r => .finished (m.withLimits l) r

end Progress

namespace Machine

variable {m : Machine} {l : Limits}

/-! ## The limits -/

/-- A step is allowed if it is within both limits. -/
lemma exceeded_eq_none_iff {l : Limits} {steps height : Nat} :
    exceeded l steps height = none ↔
      (∀ n, l.maxSteps = some n → steps ≤ n) ∧ height ≤ l.maxStack := by
  unfold exceeded
  cases l.maxSteps with
  | none => simp
  | some n =>
    by_cases hsteps : n < steps
    · simp [hsteps, Nat.not_le_of_lt hsteps]
    · simp [hsteps, Nat.le_of_not_lt hsteps]

/-- What stricter limits allow, laxer ones do. -/
lemma exceeded_mono {l l' : Limits} (h : l.Within l') {steps height : Nat}
    (hl : exceeded l steps height = none) : exceeded l' steps height = none := by
  obtain ⟨hsteps, hheight⟩ := exceeded_eq_none_iff.1 hl
  refine exceeded_eq_none_iff.2 ⟨?_, Nat.le_trans hheight h.maxStack⟩
  intro n' hn'
  obtain ⟨n, hn, hle⟩ := h.maxSteps n' hn'
  exact Nat.le_trans (hsteps n hn) hle

/-! ## One step under other limits -/

lemma handBack_withLimits (m : Machine) (f : Frame) (v : Value) :
    (m.withLimits l).handBack f v = (m.handBack f v).withLimits l := by
  unfold handBack
  cases f.caller? with
  | none => rfl
  | some caller =>
    by_cases h : caller < m.frames.size
    · have h' : caller < (m.withLimits l).frames.size := h
      simp only [h, h', if_true]
      rfl
    · have h' : ¬ caller < (m.withLimits l).frames.size := h
      simp only [h, h', if_false]
      rfl

lemma deliver_withLimits (m : Machine) (s : Signal) (depth : Nat) :
    (m.withLimits l).deliver s depth = (m.deliver s depth).withLimits l := by
  induction depth generalizing m s with
  | zero => rfl
  | succ depth ih =>
    by_cases hempty : m.frames = #[]
    · rw [deliver_empty hempty, deliver_empty (m := m.withLimits l) hempty]
      rfl
    · obtain ⟨rest, f, hm⟩ := Array.exists_push_of_ne_empty hempty
      rw [deliver_push hm, deliver_push (m := m.withLimits l) hm]
      have hunwind : Exec.unwind s ((m.withLimits l).activation f) =
          Exec.unwind s (m.activation f) := rfl
      rw [hunwind]
      rcases Exec.unwind s (m.activation f) with ⟨_ | s', a⟩ | ⟨F | e, a⟩
      · rfl
      · cases s' with
        | returning v => exact handBack_withLimits (m.resume rest a) a.frame v
        | raising F =>
          dsimp only
          cases a.frame.caller? with
          | none => rfl
          | some caller => exact ih { m.resume rest a with lastFault := some (F.leaving a.frame) } _
        | breaking => rfl
        | continuing target => rfl
      · rfl
      · rfl

lemma signal_withLimits (m : Machine) (s : Signal) :
    (m.withLimits l).signal s = (m.signal s).withLimits l := deliver_withLimits m s m.frames.size

lemma fault_withLimits (m : Machine) (F : Fault) :
    (m.withLimits l).fault F = (m.fault F).withLimits l :=
  signal_withLimits { m with lastFault := some F } (.raising F)

/-- A call is refused alike if the limit on the depth of the call stack is the same. -/
lemma enter_withLimits (hdepth : l.maxDepth = m.limits.maxDepth) (callee : Ref .function)
    (positional : List Value) (keywords : List (String × Value)) (caller? : Option Nat) :
    (m.withLimits l).enter callee positional keywords caller? =
      match m.enter callee positional keywords caller? with
      | .ok () m' => .ok () (m'.withLimits l)
      | .error F m' => .error F (m'.withLimits l) := by
  unfold enter withLimits
  dsimp only
  cases callFrame m.builtins callee positional keywords caller? m.heap with
  | error cause heap => rfl
  | ok frame heap =>
    dsimp only
    rw [hdepth]
    by_cases hfull : m.limits.maxDepth ≤ m.frames.size
    · simp only [hfull, if_true]
    · simp only [hfull, if_false]

/-- Carrying out how an instruction ended, in a machine under other limits. -/
lemma proceed_withLimits (hdepth : l.maxDepth = m.limits.maxDepth) (o : Outcome) :
    proceed (.ok o (m.withLimits l)) = (proceed (.ok o m)).withLimits l := by
  cases o with
  | next => rfl
  | signal s => exact signal_withLimits m s
  | enter callee positional keywords =>
    have henter := enter_withLimits hdepth callee positional keywords (some (m.frames.size - 1))
    have hsize : (m.withLimits l).frames.size = m.frames.size := rfl
    simp only [proceed, hsize, henter]
    cases m.enter callee positional keywords (some (m.frames.size - 1)) with
    | ok _ m' => rfl
    | error F m' => exact fault_withLimits m' F

/-- No instruction can see the limits. -/
lemma proceed_within_withLimits (hdepth : l.maxDepth = m.limits.maxDepth) (f : Frame)
    (x : Exec Outcome) :
    proceed ((m.withLimits l).within f x) = (proceed (m.within f x)).withLimits l := by
  unfold within
  dsimp only [withLimits]
  rcases x ⟨f, m.heap, m.lastFault, m.output⟩ with ⟨o, a⟩ | ⟨F | e, a⟩
  · exact proceed_withLimits (m := m.resume (m.frames.push a.frame) a) hdepth o
  · exact fault_withLimits (m.resume (m.frames.push a.frame) a) F
  · rfl

/-- **One step** of a machine that is not stopped at a limit is the same under laxer limits. -/
lemma step_withLimits (h : m.limits.Within l)
    (hgo : exceeded m.limits (m.steps + 1) m.topHeight = none) :
    (m.withLimits l).step = m.step.withLimits l := by
  have hgo' : exceeded l (m.steps + 1) m.topHeight = none := exceeded_mono h hgo
  by_cases hempty : m.frames = #[]
  · rw [step_empty hempty hgo, step_empty (m := m.withLimits l) hempty hgo']
    rfl
  · obtain ⟨rest, f, hm⟩ := Array.exists_push_of_ne_empty hempty
    have hm' : (m.withLimits l).frames = rest.push f := hm
    rw [topHeight_push hm] at hgo hgo'
    let below : Machine := { m with steps := m.steps + 1, frames := rest }
    rcases hdecode : f.code.unit.decode f.ip with e | _ | ⟨i, next⟩
    · rw [step_undecodable hm hgo hdecode, step_undecodable hm' hgo' hdecode]
      rfl
    · rw [step_exhausted hm hgo hdecode, step_exhausted hm' hgo' hdecode]
      exact handBack_withLimits below f .none
    · rw [step_working hm hgo hdecode, step_working hm' hgo' hdecode]
      exact proceed_within_withLimits (m := below) h.maxDepth _ _

/-! ## Whole runs -/

/-- What the first `fuel` steps dispatch: code names and offsets. -/
def dispatched : (fuel : Nat) → Progress → List (String × Nat)
  | 0, _ => []
  | _ + 1, .finished _ _ => []
  | fuel + 1, .running m => m.nextDispatch?.toList ++ dispatched fuel m.step

lemma nextDispatch?_withLimits (h : m.limits.Within l)
    (hgo : exceeded m.limits (m.steps + 1) m.topHeight = none) :
    (m.withLimits l).nextDispatch? = m.nextDispatch? := by
  have hgo' : exceeded (m.withLimits l).limits ((m.withLimits l).steps + 1)
      (m.withLimits l).topHeight = none := exceeded_mono h hgo
  unfold nextDispatch?
  rw [hgo, hgo']
  rfl

lemma advance_add (j k : Nat) (p : Progress) : advance (j + k) p = advance k (advance j p) := by
  induction j generalizing p with
  | zero => rw [Nat.zero_add, advance]
  | succ j ih =>
    rw [Nat.succ_add]
    cases p with
    | running m => exact ih m.step
    | finished m r => cases k <;> rfl

lemma dispatched_add (j k : Nat) (p : Progress) :
    dispatched (j + k) p = dispatched j p ++ dispatched k (advance j p) := by
  induction j generalizing p with
  | zero => rw [Nat.zero_add, dispatched, advance, List.nil_append]
  | succ j ih =>
    rw [Nat.succ_add]
    cases p with
    | running m =>
      have hrest := ih m.step
      simp only [dispatched, advance, hrest, List.append_assoc]
    | finished m r => cases k <;> rfl

/-- A run comes to a machine that is stopped at a limit. -/
structure StoppedAfter (j : Nat) (p : Progress) (m : Machine) (e : FatalError) : Prop where
  running : advance j p = .running m
  exceeded : exceeded m.limits (m.steps + 1) m.topHeight = some e

/-- **Whole runs.**  The run under laxer limits is the same run, unless the one under the stricter
limits is stopped; and then it is the same run until that happens. -/
lemma advance_withLimits {p : Progress} (h : p.machine.limits.Within l) (fuel : Nat) :
    (advance fuel (p.withLimits l) = (advance fuel p).withLimits l ∧
      dispatched fuel (p.withLimits l) = dispatched fuel p) ∨
    ∃ j < fuel, ∃ m e, StoppedAfter j p m e ∧
      advance j (p.withLimits l) = .running (m.withLimits l) ∧
      dispatched j (p.withLimits l) = dispatched j p := by
  induction fuel generalizing p with
  | zero => exact .inl ⟨rfl, rfl⟩
  | succ fuel ih =>
    cases p with
    | finished m r => exact .inl ⟨rfl, rfl⟩
    | running m =>
      cases hgo : exceeded m.limits (m.steps + 1) m.topHeight with
      | some e => exact .inr ⟨0, Nat.succ_pos fuel, m, e, ⟨rfl, hgo⟩, rfl, rfl⟩
      | none =>
        have hstep : (m.withLimits l).step = m.step.withLimits l := step_withLimits h hgo
        have hnext : (m.withLimits l).nextDispatch? = m.nextDispatch? :=
          nextDispatch?_withLimits h hgo
        have hlimits : m.step.machine.limits.Within l := by
          rw [(step_carries m).limits]
          exact h
        have hadvance_succ : ∀ k, advance (k + 1) ((Progress.running m).withLimits l) =
            advance k (m.step.withLimits l) := fun k => congrArg (advance k) hstep
        have hdispatched_succ : ∀ k, dispatched (k + 1) ((Progress.running m).withLimits l) =
            m.nextDispatch?.toList ++ dispatched k (m.step.withLimits l) := by
          intro k
          rw [← hnext, ← hstep]
          rfl
        obtain ⟨hadvance, hdispatched⟩ | ⟨j, hj, m₁, e, hstopped, hadvance, hdispatched⟩ :=
          ih hlimits
        · refine .inl ⟨(hadvance_succ fuel).trans hadvance, ?_⟩
          rw [hdispatched_succ, hdispatched]
          rfl
        · refine .inr ⟨j + 1, Nat.succ_lt_succ hj, m₁, e,
            ⟨hstopped.running, hstopped.exceeded⟩, (hadvance_succ j).trans hadvance, ?_⟩
          rw [hdispatched_succ, hdispatched]
          rfl

/-! ## Requests -/

lemma start_withLimits (hdepth : l.maxDepth = m.limits.maxDepth) (code : CodeObject)
    (globals? locals? : Option (Ref .table)) :
    (m.withLimits l).start code globals? locals? =
      (m.start code globals? locals?).withLimits l := by
  by_cases hfree : !code.unit.freeNames.isEmpty
  · simp only [start, hfree, if_true]
    rfl
  · by_cases hfull : m.limits.maxDepth ≤ 0
    · simp only [start, reset, withLimits, hfree, hdepth, Array.size_empty, hfull, if_true]
      rfl
    · simp only [start, reset, withLimits, hfree, hdepth, Array.size_empty, hfull, if_false]
      rfl

lemma startCall_withLimits (hdepth : l.maxDepth = m.limits.maxDepth) (callee : Value)
    (positional : List Value) (keywords : List (String × Value)) :
    (m.withLimits l).startCall callee positional keywords =
      (m.startCall callee positional keywords).withLimits l := by
  unfold startCall
  split
  · next r =>
    rw [enter_withLimits hdepth]
    cases m.enter r positional keywords none <;> rfl
  · dsimp only [withLimits]
    cases callee.invoke positional keywords m.heap <;> rfl

lemma serve_withLimits (hdepth : l.maxDepth = m.limits.maxDepth) (q : Request) :
    (m.withLimits l).serve q = (m.serve q).withLimits l := by
  cases q with
  | run code globals? locals? => exact start_withLimits hdepth code globals? locals?
  | call callee positional keywords => exact startCall_withLimits hdepth callee positional keywords
  | reset => rfl

/-! ## What laxer limits change -/

/-- A run that has been stopped at a limit stays as it was left. -/
lemma StoppedAfter.advance {j fuel : Nat} {p : Progress} {e : FatalError}
    (h : StoppedAfter j p m e) (hj : j < fuel) :
    advance fuel p = ({ m with steps := m.steps + 1 } : Machine).abandon e ∧
      dispatched fuel p = dispatched j p := by
  obtain ⟨k, rfl⟩ : ∃ k, fuel = j + (k + 1) := ⟨fuel - (j + 1), by omega⟩
  have hstep := step_stopped h.exceeded
  have hnext : m.nextDispatch? = none := by
    unfold nextDispatch?
    rw [h.exceeded]
  rw [advance_add, dispatched_add, h.running]
  simp only [Machine.advance, dispatched, hstep, hnext]
  cases k <;> exact ⟨rfl, List.append_nil _⟩

lemma dispatched_mono {j fuel : Nat} (h : j ≤ fuel) (p : Progress) :
    dispatched j p <+: dispatched fuel p := by
  obtain ⟨k, rfl⟩ := Nat.exists_eq_add_of_le h
  rw [dispatched_add]
  exact List.prefix_append _ _

lemma advance_continues {j fuel : Nat} (h : j ≤ fuel) (p : Progress) :
    (advance j p).machine.output.Continues (advance fuel p).machine.output := by
  obtain ⟨k, rfl⟩ := Nat.exists_eq_add_of_le h
  rw [advance_add]
  exact advance_output k (advance j p)

/-- How a run that starts with `p'`, under the laxer limits `l`, compares with one that starts with
`p`, after `fuel` steps.  As long as `p` goes on, so does `p'`, through the same states.  Where `p`
ends without having been stopped, `p'` ends too, in the same state and with the same result.  And
where `p` is stopped, what it has dispatched and printed is the beginning of what `p'` dispatches
and prints. -/
def AgreesUntilStopped (l : Limits) (fuel : Nat) (p p' : Progress) : Prop :=
  match advance fuel p with
  | .running m₁ =>
    advance fuel p' = .running (m₁.withLimits l) ∧ dispatched fuel p' = dispatched fuel p
  | .finished m₁ r =>
    if r.isStopped then
      ∀ fuel', fuel ≤ fuel' → dispatched fuel p <+: dispatched fuel' p' ∧
        m₁.output.Continues (advance fuel' p').machine.output
    else
      advance fuel p' = .finished (m₁.withLimits l) r ∧ dispatched fuel p' = dispatched fuel p

lemma AgreesUntilStopped.of_same {fuel : Nat} {p p' : Progress}
    (hsame : advance fuel p' = (advance fuel p).withLimits l)
    (hdispatched : dispatched fuel p' = dispatched fuel p) : AgreesUntilStopped l fuel p p' := by
  unfold AgreesUntilStopped
  cases hrun : advance fuel p with
  | running m₁ =>
    rw [hrun] at hsame
    exact ⟨hsame, hdispatched⟩
  | finished m₁ r =>
    rw [hrun] at hsame
    dsimp only
    split
    · intro fuel' hfuel'
      have hcontinues := advance_continues hfuel' p'
      rw [hsame] at hcontinues
      rw [← hdispatched]
      exact ⟨dispatched_mono hfuel' p', hcontinues⟩
    · exact ⟨hsame, hdispatched⟩

lemma AgreesUntilStopped.of_stopped {j fuel : Nat} {p p' : Progress} {e : FatalError}
    (hstopped : StoppedAfter j p m e) (hj : j < fuel)
    (hsame : advance j p' = .running (m.withLimits l))
    (hdispatched : dispatched j p' = dispatched j p) : AgreesUntilStopped l fuel p p' := by
  obtain ⟨hrun, hlast⟩ := hstopped.advance hj
  have hlimit : RunResult.isStopped (.error (.fatal e)) := exceeded_isLimit hstopped.exceeded
  unfold AgreesUntilStopped
  rw [hrun, hlast]
  dsimp only [abandon]
  rw [if_pos hlimit]
  intro fuel' hfuel'
  have hle : j ≤ fuel' := by omega
  have hcontinues := advance_continues hle p'
  rw [hsame] at hcontinues
  rw [← hdispatched]
  exact ⟨dispatched_mono hle p', hcontinues⟩

/-- **Limits only cut runs short.**  Whatever is asked of two machines that differ in their limits
only, and however far they are followed, they agree until the one under the stricter limits is
stopped. -/
theorem serve_agreesUntilStopped {m : Machine} {l : Limits} (h : m.limits.Within l) (q : Request)
    (fuel : Nat) : AgreesUntilStopped l fuel (m.serve q) ((m.withLimits l).serve q) := by
  have hlimits : (m.serve q).machine.limits.Within l := by
    rw [serve_limits]
    exact h
  rw [serve_withLimits h.maxDepth q]
  obtain ⟨hsame, hdispatched⟩ | ⟨j, hj, m₀, e, hstopped, hsame, hdispatched⟩ :=
    advance_withLimits hlimits fuel
  · exact .of_same hsame hdispatched
  · exact .of_stopped hstopped hj hsame hdispatched

/-- A machine that stops before the fourth step. -/
def hasty : Machine := .new { maxSteps := some 3 } .captured

/-- A program that prints its only constant on two lines. -/
def printing : Request :=
  .run ⟨0, [], { (.named "<module>" : CodeUnit) with
    code := #[0x50, 0, 0, 0x28, 0x29, 0x50, 0, 0, 0x28, 0x29]
    consts := [.int 1] }⟩ none none

/-- The program is stopped when it has printed the first line; without limits on steps it goes on
from there. -/
theorem serve_agreesUntilStopped_printing :
    (advance 4 (hasty.serve printing)).isRunning = false ∧
    (advance 4 (hasty.serve printing)).machine.output.text = "1\n" ∧
    hasty.limits.Within {} ∧
    AgreesUntilStopped {} 4 (hasty.serve printing) ((hasty.withLimits {}).serve printing) := by
  have hwithin : hasty.limits.Within {} := ⟨rfl, Nat.le_refl _, nofun⟩
  exact ⟨by decide +kernel, by decide +kernel, hwithin, serve_agreesUntilStopped hwithin printing 4⟩

end Machine

end StackMachine
