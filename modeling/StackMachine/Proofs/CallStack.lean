import StackMachine.Proofs.HeapGrowth
import StackMachine.Proofs.Steps
/-!
# The call stack

Every frame but the outermost one knows its caller by its place on the call stack.  The places are
plain numbers, so that they point to the right frames is an invariant of runs: the caller of a frame
is the frame right below it (`Linked`).  Of a linked call stack one step can do three things
(`Change`): some frames leave and the innermost of the others goes on, a frame is pushed, or the
innermost frame leaves and its caller gets a value.  In the middle of a step no frame is pushed, and
those that have not left stay what they are (`Stay`).

`Reached` says which states a session can come to, whatever the host asks of the machine and however
often.  The main result is about all of them: while a run goes on there are frames, and they are
linked; when it is over there is none, and it has never failed for want of a frame.
-/

namespace StackMachine

/-! ## Linked frames -/

/-- The caller of each frame is the frame right below it, and the outermost frame has none. -/
def Linked (frames : Array Frame) : Prop :=
  ∀ i (h : i < frames.size), frames[i].caller? = if i = 0 then none else some (i - 1)

section Linked

variable {frames lower upper : Array Frame} {f g : Frame}

lemma linked_empty : Linked #[] := fun i h => absurd h (Nat.not_lt_zero i)

lemma linked_push :
    Linked (frames.push f) ↔
      Linked frames ∧ f.caller? = if frames.size = 0 then none else some (frames.size - 1) := by
  constructor
  · intro h
    refine ⟨fun i hi => ?_, ?_⟩
    · have hi' : i < (frames.push f).size := by simp; omega
      have := h i hi'
      rwa [Array.getElem_push_lt hi] at this
    · have := h frames.size (by simp)
      rwa [Array.getElem_push_eq] at this
  · rintro ⟨hframes, hf⟩ i hi
    by_cases hlt : i < frames.size
    · rw [Array.getElem_push_lt hlt]
      exact hframes i hlt
    · obtain rfl : i = frames.size := by
        rw [Array.size_push] at hi
        omega
      rw [Array.getElem_push_eq]
      exact hf

lemma Linked.of_append (h : Linked (lower ++ upper)) : Linked lower := by
  intro i hi
  have := h i (by simp; omega)
  rwa [Array.getElem_append_left hi] at this

lemma Linked.push_sameCall (h : Linked (frames.push f)) (hfg : f.SameCall g) :
    Linked (frames.push g) := by
  rw [linked_push] at h ⊢
  exact ⟨h.1, hfg.caller?.trans h.2⟩

/-- A frame on top of another one is called by it. -/
lemma Linked.caller?_push_push (h : Linked ((frames.push g).push f)) :
    f.caller? = some frames.size := by
  have := (linked_push.1 h).2
  simpa using this

lemma Linked.exists_caller (h : Linked (frames.push f)) (hframes : frames ≠ #[]) :
    ∃ caller, f.caller? = some caller := by
  have := (linked_push.1 h).2
  have hsize : frames.size ≠ 0 := fun h0 => hframes (Array.eq_empty_of_size_eq_zero h0)
  rw [if_neg hsize] at this
  exact ⟨_, this⟩

/-- Only the outermost frame has no caller. -/
lemma Linked.eq_empty (h : Linked (frames.push f)) (hf : f.caller? = none) : frames = #[] := by
  have := (linked_push.1 h).2
  rw [hf] at this
  split at this
  · next hsize => exact Array.eq_empty_of_size_eq_zero hsize
  · cases this

end Linked

/-! ## What becomes of the frames -/

/-- The frames above one of `frames` have left, and that one goes on as what it was called as. -/
def Resumed (frames frames' : Array Frame) : Prop :=
  ∃ (lower upper : Array Frame) (f g : Frame),
    frames = lower.push f ++ upper ∧ f.SameCall g ∧ frames' = lower.push g

/-- Of `frames` the outer ones are still there, each as what it was called as. -/
def Stay (frames frames' : Array Frame) : Prop :=
  ∀ (i : Nat) (g : Frame), frames'[i]? = some g → ∃ f : Frame, frames[i]? = some f ∧ f.SameCall g

/-- What one step can make of the call stack `frames`, if the run goes on. -/
inductive Change (frames : Array Frame) : Array Frame → Prop
  /-- The innermost frame goes on, or one below it where a fault has been caught. -/
  | resumes {frames' : Array Frame} (h : Resumed frames frames') : Change frames frames'
  /-- The innermost frame has called another one. -/
  | enters {rest : Array Frame} {f g callee : Frame} (h : frames = rest.push f) (hfg : f.SameCall g)
    (hc : callee.caller? = some rest.size) : Change frames ((rest.push g).push callee)
  /-- The innermost frame has left with a value for its caller. -/
  | returns {rest : Array Frame} {f caller : Frame} (h : frames = (rest.push caller).push f)
    (v : Value) : Change frames (rest.push { caller with stack := caller.stack.push v })

/-- A run that goes on has a call stack as `P` says; one that is over has left no frame behind, and
has not failed for want of one. -/
def Progress.Orderly (P : Array Frame → Prop) : Progress → Prop
  | .running m => P m.frames
  | .finished m r => m.frames = #[] ∧ r ≠ .error (.fatal .noActiveFrame)

section Change

variable {frames frames' rest : Array Frame} {f g : Frame}

lemma Progress.orderly_running {P : Array Frame → Prop} {m : Machine} :
    (Progress.running m).Orderly P ↔ P m.frames := Iff.rfl

lemma Progress.Orderly.mono {P Q : Array Frame → Prop} {p : Progress} (h : p.Orderly P)
    (hPQ : ∀ frames, P frames → Q frames) : p.Orderly Q := by
  cases p with
  | running m => exact hPQ m.frames h
  | finished m r => exact h

lemma resumed_push (hfg : f.SameCall g) : Resumed (rest.push f) (rest.push g) :=
  ⟨rest, #[], f, g, by simp, hfg, rfl⟩

/-- One more frame has left. -/
lemma Resumed.push (h : Resumed rest frames') (f : Frame) : Resumed (rest.push f) frames' := by
  obtain ⟨lower, upper, c, c', rfl, hsame, rfl⟩ := h
  exact ⟨lower, upper.push f, c, c', by simp, hsame, rfl⟩

lemma Stay.size_le (h : Stay frames frames') : frames'.size ≤ frames.size := by
  refine Nat.le_of_not_lt fun hlt => ?_
  obtain ⟨f, hf, -⟩ := h frames.size _ (Array.getElem?_eq_getElem hlt)
  simp at hf

/-- One frame fewer stays. -/
lemma Stay.of_push (h : Stay frames (rest.push f)) : Stay frames rest := by
  intro i g hg
  obtain ⟨hlt, -⟩ := Array.getElem?_eq_some_iff.1 hg
  refine h i g ?_
  rw [Array.getElem?_push_lt hlt]
  exact (Array.getElem?_eq_getElem hlt).symm.trans hg

/-- The frames that stay are linked as before. -/
lemma Stay.linked (h : Stay frames frames') (hl : Linked frames) : Linked frames' := by
  intro i hi
  obtain ⟨f, hf, hsame⟩ := h i frames'[i] (Array.getElem?_eq_getElem hi)
  obtain ⟨hlt, rfl⟩ := Array.getElem?_eq_some_iff.1 hf
  exact hsame.caller?.trans (hl i hlt)

lemma Resumed.stay (h : Resumed frames frames') : Stay frames frames' := by
  obtain ⟨lower, upper, f, g, rfl, hsame, rfl⟩ := h
  intro i x hx
  rw [Array.getElem?_push] at hx
  split at hx
  · next htop =>
    cases hx
    refine ⟨f, ?_, hsame⟩
    rw [htop, Array.getElem?_append_left (by simp)]
    simp
  · obtain ⟨hlt, -⟩ := Array.getElem?_eq_some_iff.1 hx
    refine ⟨x, ?_, .refl x⟩
    rw [Array.getElem?_append_left (by simp; omega), Array.getElem?_push_lt hlt]
    exact (Array.getElem?_eq_getElem hlt).symm.trans hx

lemma Resumed.size_le (h : Resumed frames frames') : frames'.size ≤ frames.size := h.stay.size_le

/-- How far the innermost frame has come does not matter. -/
lemma Resumed.sameCall (h : Resumed (rest.push g) frames') (hfg : f.SameCall g) :
    Resumed (rest.push f) frames' := by
  obtain ⟨lower, upper, c, c', hframes, hsame, rfl⟩ := h
  by_cases hupper : upper = #[]
  · subst hupper
    rw [Array.append_empty] at hframes
    obtain ⟨rfl, rfl⟩ := Array.push_eq_push.1 hframes
    exact resumed_push (hfg.trans hsame)
  · obtain ⟨upper', x, rfl⟩ := Array.exists_push_of_ne_empty hupper
    rw [Array.append_push] at hframes
    obtain ⟨-, rfl⟩ := Array.push_eq_push.1 hframes
    exact Resumed.push ⟨lower, upper', c, c', rfl, hsame, rfl⟩ f

lemma Change.nonempty (h : Change frames frames') : 0 < frames'.size := by
  cases h with
  | resumes h =>
    obtain ⟨_, _, _, _, _, _, rfl⟩ := h
    simp
  | enters => simp
  | returns => simp

/-- A step keeps the call stack linked. -/
lemma Change.linked (h : Change frames frames') (hl : Linked frames) : Linked frames' := by
  cases h with
  | resumes h => exact h.stay.linked hl
  | @enters rest f g callee h hfg hc =>
    rw [h] at hl
    rw [linked_push]
    exact ⟨hl.push_sameCall hfg, by simp [hc]⟩
  | @returns rest f caller h v =>
    rw [h] at hl
    exact (linked_push.1 hl).1.push_sameCall ⟨rfl, rfl, rfl, rfl, rfl, rfl⟩

end Change

/-! ## One step -/

namespace Machine

variable {m : Machine} {rest : Array Frame} {f g : Frame}

/-- A value goes to the frame right below, or to the host if there is none. -/
lemma handBack_cases (hl : Linked (rest.push f)) (h : m.frames = rest)
    (hg : g.caller? = f.caller?) (v : Value) :
    (rest = #[] ∧ m.handBack g v = .finished m (.ok v)) ∨
    ∃ (lower : Array Frame) (caller : Frame), rest = lower.push caller ∧ m.handBack g v =
      .running { m with frames := lower.push { caller with stack := caller.stack.push v } } := by
  by_cases hrest : rest = #[]
  · have hnone : g.caller? = none := by
      have := (linked_push.1 hl).2
      simpa [hg, hrest] using this
    exact .inl ⟨hrest, handBack_none hnone⟩
  · obtain ⟨lower, caller, rfl⟩ := Array.exists_push_of_ne_empty hrest
    exact .inr ⟨lower, caller, rfl, handBack_some (hg.trans hl.caller?_push_push) h⟩

lemma handBack_orderly (hl : Linked (rest.push f)) (h : m.frames = rest)
    (hg : g.caller? = f.caller?) (v : Value) :
    (m.handBack g v).Orderly (Change (rest.push f)) := by
  obtain ⟨hrest, heq⟩ | ⟨lower, caller, rfl, heq⟩ := handBack_cases hl h hg v
  · rw [heq]
    exact ⟨h.trans hrest, by simp⟩
  · rw [heq]
    exact .returns rfl v

/-- A fault at the innermost frame: the step is over, or the fault leaves the frame and is offered
to the frame below it. -/
lemma deliver_raising_push (hl : Linked (rest.push f)) (h : m.frames = rest.push f) (F : Fault)
    (depth : Nat) :
    (m.deliver (.raising F) (depth + 1)).Orderly (Resumed (rest.push f)) ∨
    rest ≠ #[] ∧ ∃ (m' : Machine) (F' : Fault), m'.frames = rest ∧
      m.deliver (.raising F) (depth + 1) = m'.deliver (.raising F') depth := by
  have hkeeps := Exec.unwind_confined (.raising F) (m.activation f)
  rw [deliver_push h]
  rcases Exec.unwind_cases (.raising F) (m.activation f) with
    ⟨needed, found, a, hu⟩ | ⟨a, hu⟩ | ⟨a, hu⟩
  · rw [hu]
    exact .inl ⟨rfl, by simp⟩
  · rw [hu] at hkeeps ⊢
    exact .inl (resumed_push hkeeps)
  · rw [hu] at hkeeps ⊢
    have hcaller : a.frame.caller? = f.caller? := hkeeps.caller?
    dsimp only
    cases hc : a.frame.caller? with
    | none => exact .inl ⟨hl.eq_empty (hcaller.symm.trans hc), by simp⟩
    | some caller =>
      refine .inr ⟨?_, _, F.leaving a.frame, rfl, rfl⟩
      rintro rfl
      rw [hcaller, (linked_push.1 hl).2] at hc
      cases hc

/-- A fault that a frame cannot catch is offered to the frames below it; the induction is on their
number. -/
lemma deliver_raising_orderly (hl : Linked (rest.push f)) (h : m.frames = rest.push f) (F : Fault) :
    (m.deliver (.raising F) (rest.size + 1)).Orderly (Resumed (rest.push f)) := by
  induction hn : rest.size generalizing m rest f F with
  | zero =>
    obtain hdone | ⟨hrest, _⟩ := deliver_raising_push hl h F 0
    · exact hdone
    · exact absurd (Array.eq_empty_of_size_eq_zero hn) hrest
  | succ n ih =>
    obtain hdone | ⟨hrest, m', F', hm', heq⟩ := deliver_raising_push hl h F (n + 1)
    · exact hdone
    · obtain ⟨lower, c, rfl⟩ := Array.exists_push_of_ne_empty hrest
      have hsize : lower.size = n := by simpa using hn
      rw [heq]
      exact (ih (linked_push.1 hl).1 hm' F' hsize).mono fun _ hr => hr.push f

/-- A fault raised by the instruction. -/
lemma Raises.orderly {m' : Machine} {F : Fault} (h : m.Raises m' F) (hm : m.frames = rest.push f)
    (hl : Linked (rest.push f)) : m.step.Orderly (Resumed (rest.push f)) := by
  obtain ⟨g, hg, hsame⟩ := h.frames hm
  obtain ⟨last, hstep⟩ := h.step
  have hsize : ({ m' with lastFault := last } : Machine).frames.size = rest.size + 1 := by
    rw [hg, Array.size_push]
  have hdown := deliver_raising_orderly (m := { m' with lastFault := last })
    (hl.push_sameCall hsame) hg F
  rw [hstep, signal, hsize]
  exact hdown.mono fun _ hr => hr.sameCall hsame

/-- **One step** of a machine with linked frames makes one of the changes to them, or it is the last
one. -/
lemma step_orderly (hl : Linked m.frames) (hpos : 0 < m.frames.size) :
    m.step.Orderly (Change m.frames) := by
  obtain ⟨rest, f, hm⟩ := Array.exists_push_of_size_pos hpos
  rw [hm] at hl ⊢
  cases stepCase hm with
  | aborts hstep hframes he =>
    rw [hstep]
    exact ⟨hframes, by simpa using he⟩
  | works hstep hframes hsame =>
    rw [hstep, Progress.orderly_running, hframes]
    exact .resumes (resumed_push hsame)
  | enters _ _ hsame hstep hframes hc =>
    rw [hstep, Progress.orderly_running, hframes]
    exact .enters rfl hsame hc
  | leaves h =>
    obtain ⟨m', g, hstep, hframes, hcaller⟩ := h.step hm
    rw [hstep]
    exact handBack_orderly hl hframes hcaller _
  | raises h => exact (h.orderly hm hl).mono fun _ => .resumes

/-! ## In the middle of a step -/

/-- The frames stay where only the innermost one has changed. -/
lemma stay_of_executed? {m' : Machine} {r : EStateM.Result Failure Machine Outcome}
    (hx : m.executed? = some r)
    (hsame : ∀ {rest : Array Frame} {f : Frame}, m.frames = rest.push f →
      ∃ g, m'.frames = rest.push g ∧ f.SameCall g) :
    Stay m.frames m'.frames := by
  obtain ⟨rest, f, hframes, -⟩ := executed?_some hx
  obtain ⟨g, hg, hfg⟩ := hsame hframes
  rw [hframes, hg]
  exact (resumed_push hfg).stay

/-- While a fault passes from frame to frame, those that are left stay. -/
lemma Offers.stay {m' : Machine} {s : Signal} (h : m.Offers m' s) : Stay m.frames m'.frames := by
  induction h with
  | signalled h => exact stay_of_executed? h fun hframes => executed?_confined hframes h
  | @thrown m₁ F h =>
    have hstay : Stay m.frames m₁.frames :=
      stay_of_executed? h fun hframes => (executed?_confined hframes h).1
    exact hstay
  | @refused m₁ m₂ F callee positional keywords h hr =>
    have hstay : Stay m.frames m₂.frames :=
      stay_of_executed? h fun hframes => (Raises.refused h hr).frames hframes
    exact hstay
  | passed h hframes hpassed hcaller ih => exact Stay.of_push (hframes ▸ ih)

lemma PassesThrough.stay {m' : Machine} (h : m.PassesThrough m') : Stay m.frames m'.frames := by
  cases h with
  | done h => exact stay_of_executed? h fun hframes => executed?_confined hframes h
  | failed h => exact stay_of_executed? h fun hframes => (executed?_confined hframes h).1
  | offers h => exact h.stay

lemma Offers.linked {m' : Machine} {s : Signal} (hl : Linked m.frames) (h : m.Offers m' s) :
    Linked m'.frames := h.stay.linked hl

end Machine

/-! ## Sessions -/

/-- What the host can ask of a machine. -/
inductive Request where
  | run (code : CodeObject) (globals? locals? : Option (Ref .table))
  | call (callee : Value) (positional : List Value) (keywords : List (String × Value))
  | reset

/-- Starts on a request. -/
def Machine.serve (m : Machine) : Request → Progress
  | .run code globals? locals? => m.start code globals? locals?
  | .call callee positional keywords => m.startCall callee positional keywords
  | .reset => .finished m.reset (.ok .none)

/-- Whether a request sets a machine back first. -/
def Request.resets : Request → Bool
  | .run .. => true
  | .call .. => false
  | .reset => true

/-- The machine that a request is served on. -/
def Machine.readied (m : Machine) (q : Request) : Machine := if q.resets then m.reset else m

/-- What a session can come to.  It begins with a new machine; a machine that is done takes the next
request; and one that goes on takes its next step.  Between two requests the host is free to change
the objects that it shares with the guest, and to take the output. -/
inductive Reached : Progress → Prop
  | new (limits : Limits) (output : Output) : Reached (.finished (.new limits output) (.ok .none))
  | request {m : Machine} {r : RunResult} (h : Reached (.finished m r)) (heap : Heap)
    (output : Output) (q : Request) :
    Reached (({ m with heap := heap, output := output } : Machine).serve q)
  | step {m : Machine} (h : Reached (.running m)) : Reached m.step

section Serve

variable {m : Machine}

/-- The host need not change anything between two requests. -/
lemma Reached.serve {r : RunResult} (h : Reached (.finished m r)) (q : Request) :
    Reached (m.serve q) := h.request m.heap m.output q

lemma Machine.readied_frames (h : m.frames = #[]) (q : Request) : (m.readied q).frames = #[] := by
  unfold readied
  split
  · rfl
  · exact h

lemma Machine.readied_limits (m : Machine) (q : Request) : (m.readied q).limits = m.limits := by
  unfold readied
  split <;> rfl

/-- The frame that a request begins with, and the heap then: a top-level run has a frame of its
code, and a call that of the guest function. -/
inductive Request.Begins (m : Machine) : Request → Frame → Heap → Prop
  | run {code : CodeObject} {globals? locals? : Option (Ref .table)} {globals locals : Ref .table}
    {cells : List (Ref .cell)} {heap heap' : Heap}
    (htables : Machine.moduleTables globals? locals? m.heap = ((globals, locals), heap))
    (hcells : Machine.emptyCells heap code.unit.cellNames = (cells, heap')) :
    Begins m (.run code globals? locals?) (.start code globals locals m.builtins cells none) heap'
  | call {callee : Ref .function} {positional : List Value} {keywords : List (String × Value)}
    {f : Frame} {heap : Heap}
    (h : Machine.callFrame m.builtins callee positional keywords none m.heap = .ok f heap) :
    Begins m (.call (.function callee) positional keywords) f heap

/-- It has not started yet, and it has no caller. -/
lemma Request.Begins.eq_start {q : Request} {f : Frame} {heap : Heap} (h : q.Begins m f heap) :
    ∃ code globals locals cells, f = .start code globals locals m.builtins cells none := by
  cases h with
  | run => exact ⟨_, _, _, _, rfl⟩
  | call h =>
    obtain ⟨F, locals, cells, _, -, -, -, rfl⟩ := Machine.callFrame_ok h
    exact ⟨_, _, _, _, rfl⟩

/-- **Every request** is over at once, or it begins with one more frame, for which there is room. A
request that is over at once has come to a value or to a fault, or the code is not fit for a
top-level run. -/
lemma Machine.serve_begins (m : Machine) (q : Request) :
    (∃ heap output r, m.serve q =
        .finished { m.readied q with heap := heap, output := output } r ∧
      m.heap.Widens heap ∧
      ∀ e, r = .error (.fatal e) → ∃ unit, e = .malformedCode 0 (.freeVariables unit)) ∨
    ∃ heap f, m.serve q =
        .running { m.readied q with heap := heap, frames := (m.readied q).frames.push f } ∧
      q.Begins m f heap ∧ (m.readied q).frames.size < m.limits.maxDepth := by
  cases q with
  | run code globals? locals? =>
    by_cases hfree : !code.unit.freeNames.isEmpty
    · simp only [serve, start, hfree, if_true]
      refine .inl ⟨_, _, _, rfl, .refl m.heap, fun e he => ?_⟩
      cases he
      exact ⟨_, rfl⟩
    · rcases htables : moduleTables globals? locals? m.heap with ⟨⟨globals, locals⟩, heap⟩
      rcases hcells : emptyCells heap code.unit.cellNames with ⟨cells, heap'⟩
      by_cases hfull : m.limits.maxDepth ≤ 0
      · have hwidens : m.heap.Widens heap' := by
          have := emptyCells_widens heap code.unit.cellNames
          rw [hcells] at this
          exact (moduleTables_cases htables).1.trans this
        simp only [serve, start, reset, hfree, htables, hcells, Array.size_empty, hfull, if_true]
        exact .inl ⟨_, _, _, rfl, hwidens.trans (heap'.newFault_widens _), fun e he => by cases he⟩
      · simp only [serve, start, reset, hfree, htables, hcells, Array.size_empty, hfull, if_false]
        exact .inr ⟨_, _, rfl, .run htables hcells, Nat.lt_of_not_le hfull⟩
  | call callee positional keywords =>
    simp only [serve, startCall]
    split
    · next r =>
      have hwidening := callFrame_widening m.builtins r positional keywords none m.heap
      simp only [enter]
      cases h : callFrame m.builtins r positional keywords none m.heap with
      | error cause heap =>
        rw [h] at hwidening
        exact .inl ⟨_, _, _, rfl, hwidening.1.trans (heap.newFault_widens cause),
          fun e he => by cases he⟩
      | ok g heap =>
        rw [h] at hwidening
        by_cases hfull : m.limits.maxDepth ≤ m.frames.size
        · simp only [hfull, if_true]
          exact .inl ⟨_, _, _, rfl, hwidening.trans (heap.newFault_widens _),
            fun e he => by cases he⟩
        · simp only [hfull, if_false]
          exact .inr ⟨_, _, rfl, .call h, Nat.lt_of_not_le hfull⟩
    · have hwidening := Value.invoke_widening callee positional keywords m.heap
      cases h : callee.invoke positional keywords m.heap with
      | ok reply heap =>
        rw [h] at hwidening
        exact .inl ⟨_, _, _, rfl, hwidening, fun e he => by cases he⟩
      | error cause heap =>
        rw [h] at hwidening
        exact .inl ⟨_, _, _, rfl, hwidening.1.trans (heap.newFault_widens cause),
          fun e he => by cases he⟩
  | reset => exact .inl ⟨m.heap, m.output, .ok .none, rfl, .refl m.heap, fun e he => by cases he⟩

/-- What is known of the frame by its shape alone. -/
lemma Machine.serve_cases (m : Machine) (q : Request) :
    (∃ heap output r, m.serve q =
        .finished { m.readied q with heap := heap, output := output } r ∧
      r ≠ .error (.fatal .noActiveFrame)) ∨
    ∃ heap f, m.serve q =
        .running { m.readied q with heap := heap, frames := (m.readied q).frames.push f } ∧
      f.caller? = none ∧ f.stack = #[] ∧ (m.readied q).frames.size < m.limits.maxDepth := by
  obtain ⟨heap, output, r, hserve, -, hr⟩ | ⟨heap, f, hserve, hbegins, hroom⟩ := m.serve_begins q
  · refine .inl ⟨heap, output, r, hserve, fun hno => ?_⟩
    obtain ⟨unit, heq⟩ := hr _ hno
    cases heq
  · obtain ⟨_, _, _, _, rfl⟩ := hbegins.eq_start
    exact .inr ⟨heap, _, hserve, rfl, rfl, hroom⟩

/-- A machine without frames starts on a request with one frame, which has no caller, or is done at
once. -/
lemma Machine.serve_orderly (h : m.frames = #[]) (q : Request) :
    (m.serve q).Orderly fun frames => 0 < frames.size ∧ Linked frames := by
  have hempty := readied_frames h q
  obtain ⟨heap, output, r, hserve, hr⟩ | ⟨heap, f, hserve, hcaller, -⟩ := m.serve_cases q
  · rw [hserve]
    exact ⟨hempty, hr⟩
  · rw [hserve, hempty, Progress.orderly_running]
    exact ⟨by simp, linked_push.2 ⟨linked_empty, hcaller⟩⟩

end Serve

lemma Reached.orderly {p : Progress} (h : Reached p) :
    p.Orderly fun frames => 0 < frames.size ∧ Linked frames := by
  induction h with
  | new limits output => exact ⟨rfl, by simp⟩
  | @request m r h heap output q ih =>
    exact Machine.serve_orderly (m := { m with heap := heap, output := output }) ih.1 q
  | step h ih =>
    exact (Machine.step_orderly ih.2 ih.1).mono fun _ hc => ⟨hc.nonempty, hc.linked ih.2⟩

lemma Machine.advance_succ (fuel : Nat) (p : Progress) :
    advance (fuel + 1) p = match advance fuel p with
      | .running m => m.step
      | .finished m r => .finished m r := by
  induction fuel generalizing p with
  | zero => cases p <;> rfl
  | succ n ih =>
    cases p with
    | running m => exact ih m.step
    | finished m r => rfl

lemma Reached.advance {p : Progress} (h : Reached p) (fuel : Nat) :
    Reached (Machine.advance fuel p) := by
  induction fuel generalizing p with
  | zero => exact h
  | succ n ih =>
    cases p with
    | running m => exact ih h.step
    | finished m r => exact h

/-! ## A small session -/

/-- A program that calls its only constant, a function with the given body, in an except block. -/
def callingUnit (body : Array UInt8) : CodeUnit :=
  { (.named "<module>" : CodeUnit) with
    code := #[0x79, 9, 0, 0x50, 0, 0, 0x82, 0, 0, 0x81, 0, 0]
    consts := [.code { (.named "callee" : CodeUnit) with code := body }] }

/-- The machine, whether it goes on or is done. -/
def Progress.machine : Progress → Machine
  | .running m => m
  | .finished m _ => m

def Progress.isRunning : Progress → Bool
  | .running _ => true
  | .finished _ _ => false

lemma Progress.eq_running {p : Progress} (h : p.isRunning) : p = .running p.machine := by
  cases p with
  | running m => rfl
  | finished m r => cases h

-- Irreducible, so that only the kernel ever evaluates such a run.
/-- A new machine that runs such a program, after some steps. -/
@[irreducible] def callingSession (body : Array UInt8) (steps : Nat) : Progress :=
  Machine.advance steps ((Machine.new {} .console).serve (.run ⟨0, [], callingUnit body⟩ none none))

lemma reached_callingSession (body : Array UInt8) (steps : Nat) :
    Reached (callingSession body steps) := by
  unfold callingSession
  exact ((Reached.new {} .console).serve _).advance steps

lemma reached_callingSession_machine (body : Array UInt8) (steps : Nat)
    (h : (callingSession body steps).isRunning) :
    Reached (.running (callingSession body steps).machine) :=
  Progress.eq_running h ▸ reached_callingSession body steps

lemma callingSession_step (body : Array UInt8) (steps : Nat)
    (h : (callingSession body steps).isRunning) (h' : (callingSession body (steps + 1)).isRunning) :
    (callingSession body steps).machine.step =
      .running (callingSession body (steps + 1)).machine := by
  rw [← Progress.eq_running h']
  have hrun := Progress.eq_running h
  unfold callingSession at hrun ⊢
  rw [Machine.advance_succ, hrun]
  rfl

/-! ## The discipline -/

/-- **Call stack discipline.**  Whatever has been asked of the machine so far: before every step
there is a frame, the outermost frame has no caller, and the caller of every other frame is the one
right below it.  When a request has been served, with whatever result, the call stack is empty, and
the result is never that a frame was missing. -/
theorem call_stack_disciplined {p : Progress} : Reached p → match p with
    | .running m => 0 < m.frames.size ∧
        ∀ i (hi : i < m.frames.size), m.frames[i].caller? = if i = 0 then none else some (i - 1)
    | .finished m r => m.frames = #[] ∧ r ≠ .error (.fatal .noActiveFrame) := by
  intro h
  have horderly := h.orderly
  cases p with
  | running m => exact horderly
  | finished m r => exact horderly

/-- The call stack while a function without instructions is about to return to its caller. -/
theorem call_stack_disciplined_in_callee :
    (callingSession #[] 4).machine.frames.toList.map (·.caller?) = [none, some 0] ∧
    match callingSession #[] 4 with
    | .running m => 0 < m.frames.size ∧
        ∀ i (hi : i < m.frames.size), m.frames[i].caller? = if i = 0 then none else some (i - 1)
    | .finished m r => m.frames = #[] ∧ r ≠ .error (.fatal .noActiveFrame) :=
  ⟨by decide +kernel, call_stack_disciplined (reached_callingSession #[] 4)⟩

end StackMachine
