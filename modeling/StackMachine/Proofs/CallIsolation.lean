import Mathlib.Logic.Relation
import StackMachine.Proofs.CallStack
/-!
# Calls leave the caller alone

When a guest function is called, the arguments and the callee are taken off the caller's stack
(`Frame.suspended`), and from then on only the frames above the caller are worked on.  That is seen
from one step: what a step makes of a call stack begins with the same frames, unless the step goes
below them (`Change.exists_append`).  So the caller and the frames below it stay as they are for as
long as the frame of the callee is there.  If it leaves with a value, the value is all that the
caller gets.
-/

namespace StackMachine

/-- The caller while a function runs that it has called with so many arguments; `next` is the place
behind the call. -/
def Frame.suspended (f : Frame) (positional keyword next : Nat) : Frame :=
  { f with
    stack := f.stack.take (f.stack.size - (1 + positional + 2 * keyword))
    ip := next
    lastIp := f.ip }

/-- The numbers of positional and keyword arguments of the call that the frame has come to, and the
place behind it. -/
def Frame.call? (f : Frame) : Option (Nat × Nat × Nat) :=
  match f.code.unit.decode f.ip with
  | .ok (some (.callFunction p k, next)) => some (p, k, next)
  | _ => none

lemma Frame.decode_of_call? {f : Frame} {p k next : Nat} (h : f.call? = some (p, k, next)) :
    f.code.unit.decode f.ip = .ok (some (.callFunction p k, next)) := by
  unfold Frame.call? at h
  split at h
  · next hd =>
    cases h
    exact hd
  · cases h

/-- The run goes on from one machine to another one, and all the time there are more than `n`
frames. -/
def Machine.RunsAbove (n : Nat) : Machine → Machine → Prop :=
  Relation.ReflTransGen fun m m' => m.step = .running m' ∧ n < m'.frames.size

/-! ## The call -/

namespace Exec

lemma keywordArguments_ok {vs : List Value} {ws : List (String × Value)} {a b : Activation}
    (h : keywordArguments vs a = .ok ws b) : b = a := by
  fun_induction keywordArguments vs generalizing ws with
  | case1 id name v rest ih =>
    obtain ⟨ws', c, hx, h⟩ := bind_eq_ok h
    cases h
    exact ih hx
  | case2 other v rest hother => cases h
  | case3 vs h₁ h₂ =>
    cases h
    rfl

/-- A call takes the keyword arguments, the positional ones and the callee off the stack. -/
lemma execute_callFunction {p k : Nat} {o : Outcome} {a b : Activation}
    (h : execute (.callFunction p k) a = .ok o b) :
    o = .next ∨ ∃ callee args keywords, o = .enter callee args keywords ∧
      1 + p + 2 * k ≤ a.frame.stack.size ∧ b = a.dropTop (1 + p + 2 * k) := by
  simp only [execute] at h
  obtain ⟨pairs, a₁, hpairs, h⟩ := bind_eq_ok h
  obtain ⟨args, a₂, hargs, h⟩ := bind_eq_ok h
  obtain ⟨v, a₃, hcallee, h⟩ := bind_eq_ok h
  obtain ⟨keywords, a₄, hkeywords, h⟩ := bind_eq_ok h
  obtain ⟨hk, rfl⟩ := popN_ok hpairs
  obtain ⟨hp, rfl⟩ := popN_ok hargs
  obtain ⟨hc, rfl⟩ := pop_ok hcallee
  obtain rfl := keywordArguments_ok hkeywords
  simp only [Activation.dropTop_height, Activation.dropTop_dropTop] at hp hc h
  have hsum : 2 * k + (p + 1) = 1 + p + 2 * k := by omega
  split at h
  · next callee _ =>
    cases h
    exact .inr ⟨callee, args, keywords, rfl, by omega, by rw [← hsum, Nat.add_assoc]⟩
  · obtain ⟨_, _, -, h⟩ := bind_eq_ok h
    cases h
    exact .inl rfl

end Exec

/-! ## One step -/

lemma exists_append_of_append {base inner lower upper : Array Frame}
    (h : base ++ inner = lower ++ upper) (hsize : base.size ≤ lower.size) :
    ∃ mid, lower = base ++ mid := by
  obtain ⟨mid, hlower, -⟩ | ⟨extra, hbase, -⟩ := Array.append_eq_append_iff.1 h
  · exact ⟨mid, hlower⟩
  · have hextra : extra = #[] := by
      have := congrArg Array.size hbase
      simp only [Array.size_append] at this
      exact Array.eq_empty_of_size_eq_zero (by omega)
    exact ⟨#[], by simp [hbase, hextra]⟩

/-- A step that does not go below some frames leaves them as they are. -/
lemma Change.exists_append {base inner frames' : Array Frame} (h : Change (base ++ inner) frames')
    (hinner : inner ≠ #[]) (hsize : base.size < frames'.size) :
    ∃ inner', inner' ≠ #[] ∧ frames' = base ++ inner' := by
  have hpos : 0 < inner.size := Array.size_pos_iff.2 hinner
  cases h with
  | resumes h =>
    obtain ⟨lower, upper, c, c', hframes, -, rfl⟩ := h
    have hlower : base.size ≤ lower.size := by
      rw [Array.size_push] at hsize
      exact Nat.le_of_lt_succ hsize
    obtain ⟨mid, rfl⟩ := exists_append_of_append
      (hframes.trans Array.append_singleton_assoc.symm) hlower
    exact ⟨mid.push c', Array.push_ne_empty, Array.push_append⟩
  | @enters rest f g callee hframes _ _ =>
    have hrest : base.size ≤ rest.size := by
      have := congrArg Array.size hframes
      simp only [Array.size_append, Array.size_push] at this
      omega
    obtain ⟨mid, rfl⟩ := exists_append_of_append (hframes.trans Array.push_eq_append) hrest
    exact ⟨(mid.push g).push callee, Array.push_ne_empty, by simp⟩
  | @returns rest f caller hframes v =>
    have hrest : base.size ≤ rest.size := by
      rw [Array.size_push] at hsize
      exact Nat.le_of_lt_succ hsize
    have happend : (rest.push caller).push f = rest ++ #[caller, f] := by
      rw [Array.push_eq_append, Array.push_eq_append, Array.append_assoc]
      rfl
    obtain ⟨mid, rfl⟩ := exists_append_of_append (hframes.trans happend) hrest
    exact ⟨mid.push _, Array.push_ne_empty, Array.push_append⟩

/-! ## A call and what follows -/

namespace Machine

variable {m m' m₁ : Machine} {below base : Array Frame} {f : Frame} {p k next : Nat}

/-- A call instruction pushes no frame, or it suspends its frame and pushes that of the callee. -/
lemma executed?_callFunction (hm : m.frames = below.push f)
    (hd : f.code.unit.decode f.ip = .ok (some (.callFunction p k, next)))
    {o : Outcome} (h : m.executed? = some (.ok o m')) :
    o = .next ∨ ∃ callee args keywords, o = .enter callee args keywords ∧
      1 + p + 2 * k ≤ f.stack.size ∧ m'.frames = below.push (f.suspended p k next) := by
  rw [executed?_push hm, hd] at h
  split at h
  · next i next' _ hi =>
    cases hi
    rw [Option.some.injEq, within_apply { m with steps := m.steps + 1 }] at h
    split at h
    · next o' a hx =>
      cases h
      obtain ho | ⟨callee, args, keywords, ho, hsize, rfl⟩ := Exec.execute_callFunction hx
      · exact .inl ho
      · exact .inr ⟨callee, args, keywords, ho, hsize, rfl⟩
    · cases h
  · cases h

/-- A frame that leaves with a value takes nothing else off the call stack. -/
lemma handBack_size {v : Value} (h : m.handBack f v = .running m') :
    m'.frames.size = m.frames.size := by
  unfold handBack at h
  split at h
  · cases h
  · split at h
    · cases h
      exact Array.size_modify
    · cases h

/-- Only a call makes the call stack higher. -/
lemma executed?_of_size_lt (hm : m.frames = below.push f) (hl : Linked (below.push f))
    (hs : m.step = .running m₁) (hsize : m.frames.size < m₁.frames.size) :
    ∃ m' g c callee positional keywords,
      m.executed? = some (.ok (.enter callee positional keywords) m') ∧
      m'.frames = below.push g ∧ m₁.frames = (below.push g).push c := by
  have hheight : m.frames.size = below.size + 1 := by rw [hm, Array.size_push]
  cases stepCase hm with
  | aborts hstep hframes he =>
    rw [hs] at hstep
    cases hstep
  | works hstep hframes hsame =>
    rw [hs] at hstep
    cases hstep
    rw [hframes, Array.size_push, hheight] at hsize
    exact absurd hsize (Nat.lt_irrefl _)
  | enters h hframes₁ hsame hstep hframes hc =>
    rw [hs] at hstep
    cases hstep
    exact ⟨_, _, _, _, _, _, h, hframes₁, hframes⟩
  | leaves h =>
    obtain ⟨m', g, hstep, hframes, -⟩ := h.step hm
    have := handBack_size (hstep.symm.trans hs)
    rw [hframes] at this
    omega
  | raises h =>
    have hr := h.orderly hm hl
    rw [hs, Progress.orderly_running, ← hm] at hr
    exact absurd hr.size_le (Nat.not_le_of_lt hsize)

/-- Entering a guest function suspends the caller. -/
lemma frames_of_call (hm : m.frames = below.push f) (hl : Linked (below.push f))
    (hd : f.code.unit.decode f.ip = .ok (some (.callFunction p k, next)))
    (hs : m.step = .running m₁) (hsize : m.frames.size < m₁.frames.size) :
    1 + p + 2 * k ≤ f.stack.size ∧
      ∃ callee, m₁.frames = (below.push (f.suspended p k next)).push callee := by
  obtain ⟨m', g, c, _, _, _, hx, hframes', hframes⟩ := executed?_of_size_lt hm hl hs hsize
  obtain ho | ⟨_, _, _, _, hargs, hsuspended⟩ := executed?_callFunction hm hd hx
  · cases ho
  · rw [← hframes', hsuspended] at hframes
    exact ⟨hargs, c, hframes⟩

/-- A frame comes off the call stack with a value or with a fault, if the run goes on. -/
lemma leaves_or_raises (hm : m.frames = below.push f) (hs : m.step = .running m₁)
    (hsize : m₁.frames.size < m.frames.size) :
    (∃ v, m.Leaves v) ∨ ∃ m' F, m.Raises m' F := by
  have hheight : m.frames.size = below.size + 1 := by rw [hm, Array.size_push]
  cases stepCase hm with
  | aborts hstep hframes he =>
    rw [hs] at hstep
    cases hstep
  | works hstep hframes hsame =>
    rw [hs] at hstep
    cases hstep
    rw [hframes, Array.size_push, hheight] at hsize
    exact absurd hsize (Nat.lt_irrefl _)
  | enters _ _ _ hstep hframes _ =>
    rw [hs] at hstep
    cases hstep
    simp only [hframes, Array.size_push, hheight] at hsize
    omega
  | leaves h => exact .inl ⟨_, h⟩
  | raises h => exact .inr ⟨_, _, h⟩

/-- While the run stays above some frames, they stay as they are; the induction is on the steps. -/
lemma RunsAbove.frames (h : RunsAbove base.size m m') (hr : Reached (.running m))
    {inner : Array Frame} (hm : m.frames = base ++ inner) (hinner : inner ≠ #[]) :
    Reached (.running m') ∧ ∃ inner', inner' ≠ #[] ∧ m'.frames = base ++ inner' := by
  induction h with
  | refl => exact ⟨hr, inner, hinner, hm⟩
  | @tail m₂ m₃ _ hstep ih =>
    obtain ⟨hr₂, inner₂, hinner₂, hm₂⟩ := ih
    obtain ⟨hpos, hl⟩ := hr₂.orderly
    have hchange : Change m₂.frames m₃.frames := by
      have := step_orderly hl hpos
      rw [hstep.1] at this
      exact this
    rw [hm₂] at hchange
    exact ⟨hstep.1 ▸ hr₂.step, hchange.exists_append hinner₂ hstep.2⟩

/-- A frame that leaves with a value gives it to the frame below, which goes on. -/
lemma Leaves.returns {caller callee : Frame} {v : Value} (h : m.Leaves v)
    (hm : m.frames = (below.push caller).push callee) (hl : Linked m.frames) :
    ∃ m', m.step = .running m' ∧
      m'.frames = below.push { caller with stack := caller.stack.push v } := by
  obtain ⟨m', g, hstep, hframes, hcaller⟩ := h.step hm
  rw [hm] at hl
  rw [handBack_some (hcaller.trans hl.caller?_push_push) hframes] at hstep
  exact ⟨_, hstep, rfl⟩

end Machine

/-- **A call leaves the caller alone.**  The innermost frame `f` of a machine that a session can
come to calls a guest function with `p` positional and `k` keyword arguments.

* For as long as the frame of the callee is on the call stack, however long the run and whatever the
  callee does, the frames below it are those of before the call, and the caller is `f` at the place
  behind the call, without the callee and the arguments on its stack.
* If the frame of the callee leaves with the value `v`, then the caller goes on, with `v` on that
  stack.
* If the run goes on after the frame of the callee has left, then it has left with a value, or a
  fault has been raised. -/
theorem call_isolates {m m₁ : Machine} {below : Array Frame} {f : Frame} {p k next : Nat}
    (hr : Reached (.running m)) (hm : m.frames = below.push f)
    (hd : f.code.unit.decode f.ip = .ok (some (.callFunction p k, next)))
    (hs : m.step = .running m₁) (hentered : m.frames.size < m₁.frames.size) :
    1 + p + 2 * k ≤ f.stack.size ∧ ∀ m', Machine.RunsAbove m.frames.size m₁ m' →
      (∃ inner, inner ≠ #[] ∧ m'.frames = below.push (f.suspended p k next) ++ inner) ∧
      (∀ v, m'.frames.size = m.frames.size + 1 → m'.Leaves v →
        ∃ m'', m'.step = .running m'' ∧ m''.frames = below.push
          { f.suspended p k next with stack := (f.suspended p k next).stack.push v }) ∧
      ∀ m'', m'.step = .running m'' → m''.frames.size ≤ m.frames.size →
        (∃ v, m'.Leaves v) ∨ ∃ m₂ F, m'.Raises m₂ F := by
  have hl : Linked (below.push f) := hm ▸ hr.orderly.2
  obtain ⟨hargs, callee, hm₁⟩ := Machine.frames_of_call hm hl hd hs hentered
  have hr₁ : Reached (.running m₁) := hs ▸ hr.step
  have hheight : m.frames.size = (below.push (f.suspended p k next)).size := by
    rw [hm, Array.size_push, Array.size_push]
  refine ⟨hargs, fun m' hrun => ?_⟩
  rw [hheight] at hrun
  obtain ⟨hr', inner, hinner, hm'⟩ :=
    hrun.frames hr₁ (hm₁.trans Array.push_eq_append) (by simp)
  obtain ⟨hpos, hl'⟩ := hr'.orderly
  refine ⟨⟨inner, hinner, hm'⟩, ?_, ?_⟩
  · intro v hsize hleaves
    obtain ⟨inner', g, rfl⟩ := Array.exists_push_of_ne_empty hinner
    have hinner' : inner' = #[] := by
      simp only [hm', hheight, Array.size_append, Array.size_push] at hsize
      exact Array.eq_empty_of_size_eq_zero (by omega)
    rw [hinner', Array.append_push, Array.append_empty] at hm'
    exact hleaves.returns hm' hl'
  · intro m'' hs'' hsize
    obtain ⟨rest, g, hrest⟩ := Array.exists_push_of_size_pos hpos
    refine Machine.leaves_or_raises hrest hs'' (Nat.lt_of_le_of_lt hsize ?_)
    have := Array.size_pos_iff.2 hinner
    rw [hm', hheight, Array.size_append]
    omega

/-- A function that makes an empty tuple and returns it: its caller goes on with the tuple. -/
theorem call_isolates_empty_tuple :
    ∃ f v m'', (callingSession #[0x60, 0, 0, 0x31] 3).machine.frames = #[f] ∧
      (callingSession #[0x60, 0, 0, 0x31] 5).machine.Leaves v ∧
      (callingSession #[0x60, 0, 0, 0x31] 5).machine.step = .running m'' ∧
      m''.frames = #[{ f.suspended 0 0 12 with stack := (f.suspended 0 0 12).stack.push v }] := by
  have hr := reached_callingSession_machine #[0x60, 0, 0, 0x31] 3 (by decide +kernel)
  have hs := callingSession_step #[0x60, 0, 0, 0x31] 3 (by decide +kernel) (by decide +kernel)
  have hs' := callingSession_step #[0x60, 0, 0, 0x31] 4 (by decide +kernel) (by decide +kernel)
  have hcall : (callingSession #[0x60, 0, 0, 0x31] 3).machine.frames.toList.map (·.call?) =
      [some (0, 0, 12)] := by decide +kernel
  have hreturn : (callingSession #[0x60, 0, 0, 0x31] 5).machine.returned?.map
      (fun r => r.2.frames.toList.map (·.blocks.length)) = some [1, 0] := by decide +kernel
  obtain ⟨f, _, hframes, hf, hnil⟩ := List.map_eq_cons_iff.1 hcall
  obtain rfl := List.map_eq_nil_iff.1 hnil
  have hm : (callingSession #[0x60, 0, 0, 0x31] 3).machine.frames = #[].push f :=
    Array.toList_inj.1 hframes
  obtain ⟨⟨v, m'⟩, hreturned, hblocks⟩ := Option.map_eq_some_iff.1 hreturn
  obtain ⟨f₀, _, hframes', -, htail⟩ := List.map_eq_cons_iff.1 hblocks
  obtain ⟨g, _, rfl, hg, hnil'⟩ := List.map_eq_cons_iff.1 htail
  obtain rfl := List.map_eq_nil_iff.1 hnil'
  have hm' : m'.frames = #[f₀].push g := Array.toList_inj.1 hframes'
  have hnone : g.blocks = [] := List.length_eq_zero_iff.1 hg
  have hleaves := Machine.Leaves.of_returned? hreturned hm' (by simp [hnone])
    (by simp [hnone, Clears])
  obtain ⟨-, hrun⟩ := call_isolates hr hm (Frame.decode_of_call? hf) hs (by decide +kernel)
  obtain ⟨m'', hstep, hm''⟩ := (hrun _ (.single ⟨hs', by decide +kernel⟩)).2.1 v
    (by decide +kernel) hleaves
  exact ⟨f, v, m'', hm, hleaves, hstep, hm''⟩

end StackMachine
