import StackMachine.Proofs.Confinement
import StackMachine.Proofs.Unwinding
import StackMachine.Run.Machine
/-!
# One step of a machine

A step works on the innermost frame, which it takes off the call stack and puts back.  The equations
here are about a machine whose call stack is given as `rest.push f`: what the step executes
(`executed?`), how a signal fares at the innermost frame (`deliver_push`), and what becomes of a
value that a frame leaves behind (`handBack_none`, `handBack_some`).

`Raises` and `Leaves` name two ways in which a step can end: the instruction raises a fault, and the
innermost frame is done with a value.  Together with the others they are all that a step can be
(`StepCase`), and what follows about runs starts from there and does not look into a step again.
`Offers` and `PassesThrough` are about the middle of a step: a signal is offered to one frame after
the other.  And a step that ends the run in an error has one of a few reasons for it (`Aborts`).
-/

namespace StackMachine

/-- The errors by which a run is stopped at a limit. -/
def FatalError.isLimit : FatalError → Bool
  | stackOverflow _ | stepLimitExceeded _ => true
  | malformedCode .. | unsupportedOpcode .. | stackUnderflow .. | noActiveFrame => false

/-- The fault after it has left the frame: the name of its code and the offset of its last
instruction have been appended to the trace. -/
def Fault.leaving (F : Fault) (f : Frame) : Fault :=
  { F with trace := F.trace ++ [⟨f.code.unit.name, f.lastIp⟩] }

namespace Machine

/-- The activation of a frame of the machine. -/
def activation (m : Machine) (f : Frame) : Activation := ⟨f, m.heap, m.lastFault, m.output⟩

/-- The machine with the call stack `frames` and with what `a` has made of the shared parts. -/
def resume (m : Machine) (frames : Array Frame) (a : Activation) : Machine :=
  { m with frames := frames, heap := a.heap, lastFault := a.lastFault, output := a.output }

/-- What the instruction comes to that the next step executes, if it executes one. -/
def executed? (m : Machine) : Option (EStateM.Result Failure Machine Outcome) :=
  let m := { m with steps := m.steps + 1 }
  match exceeded m.limits m.steps m.topHeight, m.takeTop with
  | none, some (frame, m) =>
    match frame.code.unit.decode frame.ip with
    | .ok (some (i, next)) =>
      some (m.within { frame with lastIp := frame.ip, ip := next } (Exec.execute i))
    | _ => none
  | _, _ => none

/-- The instruction that the next step executes raises the guest fault `F`, and leaves the machine
`m'`: it fails with the fault, it sends it again at the end of a finally body, or it calls a guest
function and the call is refused. -/
inductive Raises (m : Machine) : Machine → Fault → Prop
  | thrown {m' F} (h : m.executed? = some (.error (.fault F) m')) : Raises m m' F
  | resent {m' F} (h : m.executed? = some (.ok (.signal (.raising F)) m')) : Raises m m' F
  | refused {m₁ m' F callee positional keywords}
    (h : m.executed? = some (.ok (.enter callee positional keywords) m₁))
    (hr : m₁.enter callee positional keywords (some (m₁.frames.size - 1)) = .error F m') :
    Raises m m' F

/-- The innermost frame is done with the value `v`: it has come to the end of its code, and then `v`
is `None`, or it returns `v` and none of its blocks holds the value back. -/
inductive Leaves (m : Machine) : Value → Prop
  | exhausted {rest : Array Frame} {f : Frame} (hframes : m.frames = rest.push f)
    (hlimits : exceeded m.limits (m.steps + 1) f.stack.size = none)
    (hend : f.code.unit.decode f.ip = .ok none) : Leaves m .none
  | returned {v : Value} {m' : Machine} {rest : Array Frame} {f : Frame} {a : Activation}
    (h : m.executed? = some (.ok (.signal (.returning v)) m'))
    (hframes : m'.frames = rest.push f)
    (hpassed : Exec.unwind (.returning v) (m'.activation f) = .ok (some (.returning v)) a) :
    Leaves m v

/-- The fault that the instruction of the next step fails with, and the machine that it leaves. -/
def thrown? (m : Machine) : Option (Fault × Machine) :=
  match m.executed? with
  | some (.error (.fault F) m') => some (F, m')
  | _ => none

/-- The value that the instruction of the next step returns, and the machine that it leaves. -/
def returned? (m : Machine) : Option (Value × Machine) :=
  match m.executed? with
  | some (.ok (.signal (.returning v)) m') => some (v, m')
  | _ => none

variable {m : Machine} {rest : Array Frame} {f : Frame}

/-! ## The innermost frame -/

lemma takeTop_push (h : m.frames = rest.push f) :
    m.takeTop = some (f, { m with frames := rest }) := by
  simp [takeTop, h]

lemma topHeight_push (h : m.frames = rest.push f) : m.topHeight = f.stack.size := by
  simp [topHeight, h]

/-- Running a program on a frame that has been taken off the call stack; `rest` are the frames
below. -/
lemma within_apply {α : Type} (m : Machine) (rest : Array Frame) (f : Frame) (x : Exec α) :
    ({ m with frames := rest } : Machine).within f x = match x (m.activation f) with
      | .ok v a => .ok v (m.resume (rest.push a.frame) a)
      | .error e a => .error e (m.resume (rest.push a.frame) a) := by
  simp only [within, activation]
  cases x ⟨f, m.heap, m.lastFault, m.output⟩ <;> rfl

lemma handBack_none {v : Value} (h : f.caller? = none) : m.handBack f v = .finished m (.ok v) := by
  simp [handBack, h]

/-- A caller that is the innermost frame now gets the value. -/
lemma handBack_some {v : Value} {caller : Frame} (hf : f.caller? = some rest.size)
    (h : m.frames = rest.push caller) :
    m.handBack f v = .running { m with
      frames := rest.push { caller with stack := caller.stack.push v } } := by
  have hmodify : (rest.push caller).modify rest.size (fun f => { f with stack := f.stack.push v }) =
      rest.push { caller with stack := caller.stack.push v } := by
    apply Array.ext
    · simp
    · intro i h₁ h₂
      simp only [Array.getElem_modify, Array.getElem_push]
      grind
  simp [handBack, hf, h, hmodify]

/-! ## Signals -/

/-- A signal at the innermost frame. -/
lemma deliver_push (h : m.frames = rest.push f) (s : Signal) (depth : Nat) :
    m.deliver s (depth + 1) =
      match Exec.unwind s (m.activation f) with
      | .error (.fatal e) a => .finished (m.resume #[] a) (.error (.fatal e))
      | .error (.fault F) a => .finished (m.resume (rest.push a.frame) a) (.error (.fault F))
      | .ok none a => .running (m.resume (rest.push a.frame) a)
      | .ok (some (.returning v)) a => (m.resume rest a).handBack a.frame v
      | .ok (some (.raising F)) a =>
        match a.frame.caller? with
        | none => .finished (m.resume rest a) (.error (.fault (F.leaving a.frame)))
        | some _ =>
          { m.resume rest a with lastFault := some (F.leaving a.frame) }.deliver
            (.raising (F.leaving a.frame)) depth
      | .ok (some _) a =>
        .finished (m.resume #[] a)
          (.error (.fatal (.malformedCode a.frame.lastIp .strayLoopExit))) := by
  have htop : ∀ a : Activation, (m.resume (rest.push a.frame) a).takeTop =
      some (a.frame, m.resume rest a) := fun a => takeTop_push rfl
  rw [deliver, takeTop_push h]
  simp only [within_apply m rest f (Exec.unwind s)]
  rcases Exec.unwind s (m.activation f) with ⟨s?, a⟩ | ⟨e, a⟩
  · rcases s? with _ | s'
    · rfl
    · cases s' with
      | returning v => simp only [leave, htop]
      | raising F => simp only [htop]; rfl
      | breaking => simp only [htop]; rfl
      | continuing target => simp only [htop]; rfl
  · cases e with
    | fault F => rfl
    | fatal e => rfl

lemma deliver_empty (h : m.frames = #[]) (s : Signal) (depth : Nat) :
    m.deliver s depth = m.abandon .noActiveFrame := by
  cases depth with
  | zero => rfl
  | succ depth => simp [deliver, takeTop, h]

/-! ## The step -/

lemma exceeded_isLimit {l : Limits} {steps height : Nat} {e : FatalError}
    (h : exceeded l steps height = some e) : e.isLimit := by
  unfold exceeded at h
  split at h
  · split at h
    · cases h
      rfl
    · split at h
      · cases h
        rfl
      · cases h
  · split at h
    · cases h
      rfl
    · cases h

lemma exceeded_ne_noActiveFrame {limits : Limits} {steps height : Nat} {e : FatalError}
    (h : exceeded limits steps height = some e) : e ≠ .noActiveFrame := by
  rintro rfl
  cases exceeded_isLimit h

lemma executed?_push (h : m.frames = rest.push f) :
    m.executed? =
      match exceeded m.limits (m.steps + 1) f.stack.size, f.code.unit.decode f.ip with
      | none, .ok (some (i, next)) =>
        some (({ m with steps := m.steps + 1, frames := rest } : Machine).within
          { f with lastIp := f.ip, ip := next } (Exec.execute i))
      | _, _ => none := by
  have htick : ({ m with steps := m.steps + 1 } : Machine).frames = rest.push f := h
  simp only [executed?, topHeight_push htick, takeTop_push htick]
  cases exceeded m.limits (m.steps + 1) f.stack.size with
  | none =>
    dsimp only
    rcases f.code.unit.decode f.ip with e | _ | ⟨i, next⟩ <;> rfl
  | some e => rfl

lemma executed?_empty (h : m.frames = #[]) : m.executed? = none := by
  have htop : ({ m with steps := m.steps + 1 } : Machine).takeTop = none := by simp [takeTop, h]
  simp only [executed?, htop]
  cases exceeded m.limits (m.steps + 1) ({ m with steps := m.steps + 1 } : Machine).topHeight with
  | none => rfl
  | some e => rfl

/-- A step is refused, or it finds the end of the code, or it carries out how an instruction has
ended. -/
lemma step_cases (h : m.frames = rest.push f) :
    (∃ e, e ≠ .noActiveFrame ∧ m.step =
      .finished { m with steps := m.steps + 1, frames := #[] } (.error (.fatal e))) ∨
    (exceeded m.limits (m.steps + 1) f.stack.size = none ∧ f.code.unit.decode f.ip = .ok none ∧
      m.step = ({ m with steps := m.steps + 1, frames := rest } : Machine).handBack f .none) ∨
    ∃ r, m.executed? = some r ∧ m.step = proceed r := by
  have htick : ({ m with steps := m.steps + 1 } : Machine).frames = rest.push f := h
  simp only [executed?_push h, step, topHeight_push htick, takeTop_push htick]
  cases he : exceeded m.limits (m.steps + 1) f.stack.size with
  | some e => exact .inl ⟨e, exceeded_ne_noActiveFrame he, rfl⟩
  | none =>
    rcases hd : f.code.unit.decode f.ip with e | _ | ⟨i, next⟩
    · have hne : e ≠ .noActiveFrame := by
        rintro rfl
        exact absurd (CodeUnit.decode_isOfCode hd) (by decide)
      exact .inl ⟨e, hne, rfl⟩
    · exact .inr (.inl ⟨rfl, rfl, rfl⟩)
    · exact .inr (.inr ⟨_, rfl, rfl⟩)

/-- The step carries out how the instruction has ended. -/
lemma step_of_executed? {r : EStateM.Result Failure Machine Outcome} (h : m.executed? = some r) :
    m.step = proceed r := by
  simp only [executed?] at h
  split at h
  · next hlimit htop =>
    simp only [step, hlimit, htop]
    split at h
    · next hd =>
      cases h
      simp only [hd]
    · cases h
  · cases h

/-- The end of the code. -/
lemma step_exhausted (h : m.frames = rest.push f)
    (hlimits : exceeded m.limits (m.steps + 1) f.stack.size = none)
    (hend : f.code.unit.decode f.ip = .ok none) :
    m.step = ({ m with steps := m.steps + 1, frames := rest } : Machine).handBack f .none := by
  have htick : ({ m with steps := m.steps + 1 } : Machine).frames = rest.push f := h
  simp only [step, topHeight_push htick, takeTop_push htick, hlimits, hend]

/-- A machine that is stopped at a limit does nothing but count the step. -/
lemma step_stopped {e : FatalError} (h : exceeded m.limits (m.steps + 1) m.topHeight = some e) :
    m.step = ({ m with steps := m.steps + 1 } : Machine).abandon e := by
  have htick : exceeded m.limits (m.steps + 1)
      ({ m with steps := m.steps + 1 } : Machine).topHeight = some e := h
  simp only [step, htick]

lemma step_empty (h : m.frames = #[])
    (hlimits : exceeded m.limits (m.steps + 1) m.topHeight = none) :
    m.step = ({ m with steps := m.steps + 1 } : Machine).abandon .noActiveFrame := by
  have htick : exceeded m.limits (m.steps + 1)
      ({ m with steps := m.steps + 1 } : Machine).topHeight = none := hlimits
  have htop : ({ m with steps := m.steps + 1 } : Machine).takeTop = none := by simp [takeTop, h]
  simp only [step, htick, htop]

/-- Code that is malformed. -/
lemma step_undecodable {e : FatalError} (h : m.frames = rest.push f)
    (hlimits : exceeded m.limits (m.steps + 1) f.stack.size = none)
    (hcode : f.code.unit.decode f.ip = .error e) :
    m.step = ({ m with steps := m.steps + 1, frames := rest } : Machine).abandon e := by
  have htick : ({ m with steps := m.steps + 1 } : Machine).frames = rest.push f := h
  simp only [step, topHeight_push htick, takeTop_push htick, hlimits, hcode]

/-- An instruction. -/
lemma step_working {i : Instruction} {next : Nat} (h : m.frames = rest.push f)
    (hlimits : exceeded m.limits (m.steps + 1) f.stack.size = none)
    (hcode : f.code.unit.decode f.ip = .ok (some (i, next))) :
    m.step = proceed (({ m with steps := m.steps + 1, frames := rest } : Machine).within
      { f with lastIp := f.ip, ip := next } (Exec.execute i)) := by
  apply step_of_executed?
  rw [executed?_push h, hlimits, hcode]

/-- An instruction leaves the frames below its own alone, and its own stays the activation that was
entered. -/
lemma executed?_confined (h : m.frames = rest.push f) {r : EStateM.Result Failure Machine Outcome} :
    m.executed? = some r → match r with
      | .ok _ m' => ∃ g, m'.frames = rest.push g ∧ f.SameCall g
      | .error e m' => (∃ g, m'.frames = rest.push g ∧ f.SameCall g) ∧ e.OfCode := by
  rw [executed?_push h]
  split
  · next i next _ _ =>
    rintro ⟨⟩
    have hstart : f.SameCall { f with lastIp := f.ip, ip := next } :=
      ⟨rfl, rfl, rfl, rfl, rfl, rfl⟩
    have hkeeps := Exec.execute_confined i
      (activation { m with steps := m.steps + 1 } { f with lastIp := f.ip, ip := next })
    rw [within_apply { m with steps := m.steps + 1 }]
    generalize Exec.execute i
      (activation { m with steps := m.steps + 1 } { f with lastIp := f.ip, ip := next }) = r
      at hkeeps ⊢
    cases r with
    | ok o a => exact ⟨a.frame, rfl, hstart.trans hkeeps⟩
    | error e a => exact ⟨⟨a.frame, rfl, hstart.trans hkeeps.1⟩, hkeeps.2⟩
  · rintro ⟨⟩

/-! ## Calls, faults and departures -/

/-- The frame of a call has not started: it has the code and the globals of the callee and the
caller that it was given, and its locals and its cells have been made for it. -/
lemma callFrame_ok {builtins : Ref .table} {callee : Ref .function} {positional : List Value}
    {keywords : List (String × Value)} {caller? : Option Nat} {h h' : Heap} {g : Frame}
    (hok : callFrame builtins callee positional keywords caller? h = .ok g h') :
    ∃ F locals cells h₁, h.function? callee = some F ∧
      F.startLocals positional keywords h = .ok locals h₁ ∧
      F.startCells locals h₁ = .ok cells h' ∧
      g = .start F.code F.globals locals builtins cells caller? := by
  obtain ⟨_, _, hget, hrest⟩ := bind_eq_ok hok
  cases hget
  cases hF : h.function? callee with
  | none =>
    rw [hF] at hrest
    cases hrest
  | some F =>
    rw [hF] at hrest
    obtain ⟨locals, h₁, hlocals, hrest⟩ := bind_eq_ok hrest
    obtain ⟨cells, _, hcells, hrest⟩ := bind_eq_ok hrest
    cases hrest
    exact ⟨F, locals, cells, h₁, rfl, hlocals, hcells, rfl⟩

/-- A call pushes the frame of the callee, which is empty and for which there is room, or it is
refused with a fault. -/
lemma enter_cases (m : Machine) (callee : Ref .function) (positional : List Value)
    (keywords : List (String × Value)) (caller? : Option Nat) :
    (∃ heap g, m.enter callee positional keywords caller? =
        .ok () { m with heap := heap, frames := m.frames.push g } ∧
      g.caller? = caller? ∧ g.stack = #[] ∧ m.frames.size < m.limits.maxDepth) ∨
    ∃ heap F, m.enter callee positional keywords caller? = .error F { m with heap := heap } := by
  simp only [enter]
  cases h : callFrame m.builtins callee positional keywords caller? m.heap with
  | error cause heap => exact .inr ⟨_, _, rfl⟩
  | ok g heap =>
    obtain ⟨F, locals, cells, _, -, -, -, rfl⟩ := callFrame_ok h
    by_cases hfull : m.limits.maxDepth ≤ m.frames.size
    · simp only [hfull, if_true]
      exact .inr ⟨_, _, rfl⟩
    · simp only [hfull, if_false]
      exact .inl ⟨_, _, rfl, rfl, rfl, Nat.lt_of_not_le hfull⟩

section Enter

variable {callee : Ref .function} {positional : List Value} {keywords : List (String × Value)}
  {caller? : Option Nat} {m' : Machine} {F : Fault}

lemma enter_ok (h : m.enter callee positional keywords caller? = .ok () m') :
    ∃ heap g, m' = { m with heap := heap, frames := m.frames.push g } ∧
      g.caller? = caller? ∧ g.stack = #[] ∧ m.frames.size < m.limits.maxDepth := by
  obtain ⟨heap, g, hok, hg⟩ | ⟨_, _, herror⟩ := enter_cases m callee positional keywords caller?
  · rw [hok] at h
    cases h
    exact ⟨heap, g, rfl, hg⟩
  · rw [herror] at h
    cases h

/-- The frame that is pushed is that of the call. -/
lemma enter_callFrame (h : m.enter callee positional keywords caller? = .ok () m') :
    ∃ heap g, callFrame m.builtins callee positional keywords caller? m.heap = .ok g heap ∧
      m' = { m with heap := heap, frames := m.frames.push g } := by
  simp only [enter] at h
  cases hcall : callFrame m.builtins callee positional keywords caller? m.heap with
  | error cause heap =>
    rw [hcall] at h
    cases h
  | ok g heap =>
    rw [hcall] at h
    dsimp only at h
    split at h
    · cases h
    · cases h
      exact ⟨heap, g, rfl, rfl⟩

lemma enter_error (h : m.enter callee positional keywords caller? = .error F m') :
    ∃ heap, m' = { m with heap := heap } := by
  obtain ⟨_, _, hok, _⟩ | ⟨heap, _, herror⟩ := enter_cases m callee positional keywords caller?
  · rw [hok] at h
    cases h
  · rw [herror] at h
    cases h
    exact ⟨heap, rfl⟩

end Enter

/-- A fault raised by the instruction is offered to the blocks of the frames. -/
lemma Raises.step {m' : Machine} {F : Fault} (h : m.Raises m' F) :
    ∃ last, m.step = ({ m' with lastFault := last } : Machine).signal (.raising F) := by
  cases h with
  | thrown h => exact ⟨some F, step_of_executed? h⟩
  | resent h => exact ⟨m'.lastFault, step_of_executed? h⟩
  | refused h hr =>
    refine ⟨some F, ?_⟩
    rw [step_of_executed? h]
    simp only [proceed, hr]
    rfl

/-- An instruction that raises a fault has changed no frame but its own. -/
lemma Raises.frames {m' : Machine} {F : Fault} (h : m.Raises m' F) (hm : m.frames = rest.push f) :
    ∃ g, m'.frames = rest.push g ∧ f.SameCall g := by
  cases h with
  | thrown h => exact (executed?_confined hm h).1
  | resent h => exact executed?_confined hm h
  | refused h hr =>
    obtain ⟨g, hg, hsame⟩ := executed?_confined hm h
    obtain ⟨heap, rfl⟩ := enter_error hr
    exact ⟨g, hg, hsame⟩

lemma Raises.of_thrown? {m' : Machine} {F : Fault} (h : m.thrown? = some (F, m')) :
    m.Raises m' F := by
  unfold thrown? at h
  split at h
  · next hx =>
    cases h
    exact .thrown hx
  · cases h

/-- A frame leaves with the value that it returns, unless one of its blocks takes the value. -/
lemma Leaves.of_returned? {m' : Machine} {v : Value} (h : m.returned? = some (v, m'))
    (hm' : m'.frames = rest.push f) (hpass : ∀ b ∈ f.blocks, b.takes (.returning v) = false)
    (hc : Clears f.blocks f.stack.size) : m.Leaves v := by
  unfold returned? at h
  split at h
  · next hx =>
    cases h
    exact .returned hx hm' (Exec.unwind_leaving (a := m'.activation f) hpass hc)
  · cases h

/-- A frame that leaves hands its value to its caller. -/
lemma Leaves.step {v : Value} (h : m.Leaves v) (hm : m.frames = rest.push f) :
    ∃ (m' : Machine) (g : Frame),
      m.step = m'.handBack g v ∧ m'.frames = rest ∧ g.caller? = f.caller? := by
  cases h with
  | @exhausted rest' f' hframes hlimits hend =>
    obtain ⟨rfl, rfl⟩ := Array.push_eq_push.1 (hm.symm.trans hframes)
    exact ⟨_, f, step_exhausted hm hlimits hend, rfl, rfl⟩
  | @returned _ m' rest' f' a h hframes hpassed =>
    obtain ⟨g, hg, hsame⟩ := executed?_confined hm h
    obtain ⟨rfl, rfl⟩ := Array.push_eq_push.1 (hg.symm.trans hframes)
    have hkeeps := Exec.unwind_confined (.returning v) (m'.activation g)
    rw [hpassed] at hkeeps
    have hsize : m'.frames.size = rest.size + 1 := by simp [hg]
    have hstep : m.step = (m'.resume rest a).handBack a.frame v := by
      rw [step_of_executed? h]
      simp only [proceed, signal, hsize, deliver_push hg, hpassed]
    exact ⟨_, _, hstep, rfl, hkeeps.caller?.trans hsame.caller?⟩

/-! ## All that a step can be -/

/-- What the next step of a machine can be whose innermost frame is `f`, on top of the frames
`rest`: the run ends in an error, the frame goes on, it calls another one, it leaves with a value,
or it raises a fault. -/
inductive StepCase (m : Machine) (rest : Array Frame) (f : Frame) : Prop
  | aborts {m' : Machine} {e : FatalError} (hstep : m.step = .finished m' (.error (.fatal e)))
    (hframes : m'.frames = #[]) (he : e ≠ .noActiveFrame)
  | works {m' : Machine} {g : Frame} (hstep : m.step = .running m')
    (hframes : m'.frames = rest.push g) (hsame : f.SameCall g)
  | enters {m₁ m' : Machine} {g c : Frame} {callee : Ref .function} {positional : List Value}
    {keywords : List (String × Value)}
    (h : m.executed? = some (.ok (.enter callee positional keywords) m₁))
    (hframes₁ : m₁.frames = rest.push g) (hsame : f.SameCall g) (hstep : m.step = .running m')
    (hframes : m'.frames = (rest.push g).push c) (hc : c.caller? = some rest.size)
  | leaves {v : Value} (h : m.Leaves v)
  | raises {m' : Machine} {F : Fault} (h : m.Raises m' F)

/-- An instruction that has ended in a signal. -/
lemma stepCase_of_signal (hm : m.frames = rest.push f) {s : Signal} {m' : Machine}
    (hx : m.executed? = some (.ok (.signal s) m')) : m.StepCase rest f := by
  obtain ⟨g, hg, hsame⟩ := executed?_confined hm hx
  have hsize : m'.frames.size = rest.size + 1 := by rw [hg, Array.size_push]
  have hkeeps := Exec.unwind_confined s (m'.activation g)
  have hstep : m.step = m'.deliver s (rest.size + 1) := by
    rw [step_of_executed? hx]
    simp only [proceed, signal, hsize]
  rw [deliver_push hg] at hstep
  rcases Exec.unwind_cases s (m'.activation g) with ⟨needed, found, a, hu⟩ | ⟨a, hu⟩ | ⟨a, hu⟩
  · rw [hu] at hstep
    exact .aborts hstep rfl (by simp)
  · rw [hu] at hstep hkeeps
    exact .works hstep rfl (hsame.trans hkeeps)
  · rw [hu] at hstep
    cases s with
    | raising F => exact .raises (.resent hx)
    | returning v => exact .leaves (.returned hx hg hu)
    | breaking => exact .aborts hstep rfl (by simp)
    | continuing target => exact .aborts hstep rfl (by simp)

/-- An instruction that has not failed. -/
lemma stepCase_of_outcome (hm : m.frames = rest.push f) {o : Outcome} {m' : Machine}
    (hx : m.executed? = some (.ok o m')) : m.StepCase rest f := by
  obtain ⟨g, hg, hsame⟩ := executed?_confined hm hx
  cases o with
  | next => exact .works (step_of_executed? hx) hg hsame
  | signal s => exact stepCase_of_signal hm hx
  | enter callee positional keywords =>
    have hsize : m'.frames.size - 1 = rest.size := by rw [hg, Array.size_push, Nat.add_sub_cancel]
    cases henter : m'.enter callee positional keywords (some (m'.frames.size - 1)) with
    | ok _ m₂ =>
      obtain ⟨heap, c, rfl, hc, -⟩ := enter_ok henter
      have hstep := step_of_executed? hx
      simp only [proceed, henter] at hstep
      have hframes : m'.frames.push c = (rest.push g).push c := congrArg (·.push c) hg
      exact .enters hx hg hsame hstep hframes (hsize ▸ hc)
    | error F m₂ => exact .raises (.refused hx henter)

/-- **One step**: there is no other way. -/
lemma stepCase (hm : m.frames = rest.push f) : m.StepCase rest f := by
  obtain ⟨e, he, hstep⟩ | ⟨hlimits, hend, -⟩ | ⟨r, hx, hstep⟩ := step_cases hm
  · exact .aborts hstep rfl he
  · exact .leaves (.exhausted hm hlimits hend)
  · cases r with
    | ok o m' => exact stepCase_of_outcome hm hx
    | error e m' =>
      cases e with
      | fault F => exact .raises (.thrown hx)
      | fatal e =>
        refine .aborts hstep rfl ?_
        rintro rfl
        exact absurd (executed?_confined hm hx).2 Bool.false_ne_true

/-! ## In the middle of a step -/

/-- An instruction is executed in a step that is allowed, and there is a frame for it. -/
lemma executed?_some {r : EStateM.Result Failure Machine Outcome} (h : m.executed? = some r) :
    ∃ (rest : Array Frame) (f : Frame), m.frames = rest.push f ∧
      exceeded m.limits (m.steps + 1) f.stack.size = none := by
  by_cases hempty : m.frames = #[]
  · rw [executed?_empty hempty] at h
    cases h
  · obtain ⟨rest, f, hm⟩ := Array.exists_push_of_ne_empty hempty
    refine ⟨rest, f, hm, ?_⟩
    rw [executed?_push hm] at h
    split at h
    · next hgo _ => exact hgo
    · cases h

/-- The step of `m` comes to the machine `m'`, and offers the signal `s` to the innermost frame: the
instruction has ended in the signal, it has failed or called and been refused, or the signal is a
fault that has left the frame above. -/
inductive Offers (m : Machine) : Machine → Signal → Prop
  | signalled {m' s} (h : m.executed? = some (.ok (.signal s) m')) : Offers m m' s
  | thrown {m' F} (h : m.executed? = some (.error (.fault F) m')) :
    Offers m { m' with lastFault := some F } (.raising F)
  | refused {m₁ m' F callee positional keywords}
    (h : m.executed? = some (.ok (.enter callee positional keywords) m₁))
    (hr : m₁.enter callee positional keywords (some (m₁.frames.size - 1)) = .error F m') :
    Offers m { m' with lastFault := some F } (.raising F)
  | passed {m' rest f F a caller} (h : Offers m m' (.raising F)) (hframes : m'.frames = rest.push f)
    (hpassed : Exec.unwind (.raising F) (m'.activation f) = .ok (some (.raising F)) a)
    (hcaller : a.frame.caller? = some caller) :
    Offers m { m'.resume rest a with lastFault := some (F.leaving a.frame) }
      (.raising (F.leaving a.frame))

/-- What is left to do of the step then is to carry out the signal. -/
lemma Offers.step {s : Signal} (h : m.Offers m' s) : m.step = m'.signal s := by
  induction h with
  | signalled h => exact step_of_executed? h
  | thrown h => exact step_of_executed? h
  | refused h hr =>
    rw [step_of_executed? h]
    simp only [proceed, hr]
    rfl
  | @passed m' rest f F a caller h hframes hpassed hcaller ih =>
    have hsize : m'.frames.size = rest.size + 1 := by rw [hframes, Array.size_push]
    rw [ih, signal, hsize, deliver_push hframes, hpassed]
    dsimp only
    rw [hcaller]
    rfl

/-- The machines that the step of `m` comes to after it has executed an instruction: at first it is
how the instruction leaves the machine, then there may be signals to be offered. -/
inductive PassesThrough (m : Machine) : Machine → Prop
  | done {o m'} (h : m.executed? = some (.ok o m')) : PassesThrough m m'
  | failed {e m'} (h : m.executed? = some (.error e m')) : PassesThrough m m'
  | offers {m' s} (h : m.Offers m' s) : PassesThrough m m'

/-- How a step ends: before there is an instruction, with the end of the code, or as its instruction
has ended. -/
inductive StepEnd (m : Machine) : Prop
  | stopped {e : FatalError} (hlimit : exceeded m.limits (m.steps + 1) m.topHeight = some e)
    (hstep : m.step = ({ m with steps := m.steps + 1 } : Machine).abandon e)
  | idle (hframes : m.frames = #[])
    (hstep : m.step = ({ m with steps := m.steps + 1 } : Machine).abandon .noActiveFrame)
  | undecodable {rest : Array Frame} {f : Frame} {e : FatalError} (hframes : m.frames = rest.push f)
    (hcode : f.code.unit.decode f.ip = .error e)
    (hstep : m.step = ({ m with steps := m.steps + 1, frames := rest } : Machine).abandon e)
  | exhausted {rest : Array Frame} {f : Frame} (hframes : m.frames = rest.push f)
    (hstep : m.step = ({ m with steps := m.steps + 1, frames := rest } : Machine).handBack f .none)
  | works {m' : Machine} (h : m.executed? = some (.ok .next m')) (hstep : m.step = .running m')
  | enters {m₁ m' : Machine} {callee : Ref .function} {positional : List Value}
    {keywords : List (String × Value)}
    (h : m.executed? = some (.ok (.enter callee positional keywords) m₁))
    (henter : m₁.enter callee positional keywords (some (m₁.frames.size - 1)) = .ok () m')
    (hstep : m.step = .running m')
  | fails {m' : Machine} {e : FatalError} (h : m.executed? = some (.error (.fatal e) m'))
    (hstep : m.step = m'.abandon e)
  | offers {m' : Machine} {s : Signal} (h : m.Offers m' s)

/-- Every step ends in one of these ways. -/
lemma stepEnd (m : Machine) : m.StepEnd := by
  cases hgo : exceeded m.limits (m.steps + 1) m.topHeight with
  | some e => exact .stopped hgo (step_stopped hgo)
  | none =>
    by_cases hempty : m.frames = #[]
    · exact .idle hempty (step_empty hempty hgo)
    · obtain ⟨rest, f, hm⟩ := Array.exists_push_of_ne_empty hempty
      rw [topHeight_push hm] at hgo
      rcases hdecode : f.code.unit.decode f.ip with e | _ | ⟨i, next⟩
      · exact .undecodable hm hdecode (step_undecodable hm hgo hdecode)
      · exact .exhausted hm (step_exhausted hm hgo hdecode)
      · obtain ⟨r, hx⟩ : ∃ r, m.executed? = some r := by
          rw [executed?_push hm, hgo, hdecode]
          exact ⟨_, rfl⟩
        have hstep := step_of_executed? hx
        rcases r with ⟨_ | s | ⟨callee, positional, keywords⟩, m'⟩ | ⟨F | e, m'⟩
        · exact .works hx hstep
        · exact .offers (.signalled hx)
        · cases henter : m'.enter callee positional keywords (some (m'.frames.size - 1)) with
          | ok _ m₁ =>
            simp only [proceed, henter] at hstep
            exact .enters hx henter hstep
          | error F m₁ => exact .offers (.refused hx henter)
        · exact .offers (.thrown hx)
        · exact .fails hx hstep

/-! ## What ends a run -/

/-- The errors with which the next step can end the run: a limit is reached, a frame is missing,
there is no instruction, the instruction fails, or a signal finds the operand stack too low for a
block or leaves the frame of the loop that it is for. -/
inductive Aborts (m : Machine) : FatalError → Prop
  | limit {e : FatalError} (h : exceeded m.limits (m.steps + 1) m.topHeight = some e) : Aborts m e
  | frameless : Aborts m .noActiveFrame
  | undecodable {rest : Array Frame} {f : Frame} {e : FatalError} (hframes : m.frames = rest.push f)
    (hcode : f.code.unit.decode f.ip = .error e) : Aborts m e
  | fails {m' : Machine} {e : FatalError} (h : m.executed? = some (.error (.fatal e) m')) :
    Aborts m e
  | underflow (needed found : Nat) : Aborts m (.stackUnderflow needed found)
  | stray (offset : Nat) : Aborts m (.malformedCode offset .strayLoopExit)

lemma handBack_aborts {m₁ m' : Machine} {v : Value} {e : FatalError}
    (h : m₁.handBack f v = .finished m' (.error (.fatal e))) : m.Aborts e := by
  unfold handBack at h
  cases hcaller : f.caller? with
  | none =>
    rw [hcaller] at h
    cases h
  | some caller =>
    rw [hcaller] at h
    dsimp only at h
    split at h
    · cases h
    · cases h
      exact .frameless

/-- The induction is on the number of frames that a fault leaves. -/
lemma deliver_aborts {m₁ m' : Machine} {s : Signal} {depth : Nat} {e : FatalError}
    (h : m₁.deliver s depth = .finished m' (.error (.fatal e))) : m.Aborts e := by
  induction depth generalizing m₁ s with
  | zero =>
    cases h
    exact .frameless
  | succ depth ih =>
    by_cases hempty : m₁.frames = #[]
    · rw [deliver_empty hempty] at h
      cases h
      exact .frameless
    · obtain ⟨rest, f, hm⟩ := Array.exists_push_of_ne_empty hempty
      rw [deliver_push hm] at h
      rcases Exec.unwind_cases s (m₁.activation f) with
          ⟨needed, found, a, hu⟩ | ⟨a, hu⟩ | ⟨a, hu⟩ <;>
        rw [hu] at h
      · cases h
        exact .underflow needed found
      · cases h
      · cases s with
        | returning v => exact handBack_aborts h
        | raising F =>
          dsimp only at h
          cases hcaller : a.frame.caller? with
          | none =>
            rw [hcaller] at h
            cases h
          | some caller =>
            rw [hcaller] at h
            exact ih h
        | breaking =>
          cases h
          exact .stray _
        | continuing target =>
          cases h
          exact .stray _

/-- **The end of a run**: these are all errors that there are. -/
lemma step_aborts {m' : Machine} {e : FatalError}
    (h : m.step = .finished m' (.error (.fatal e))) : m.Aborts e := by
  cases m.stepEnd with
  | stopped hlimit hstep =>
    rw [hstep] at h
    cases h
    exact .limit hlimit
  | idle _ hstep =>
    rw [hstep] at h
    cases h
    exact .frameless
  | undecodable hframes hcode hstep =>
    rw [hstep] at h
    cases h
    exact .undecodable hframes hcode
  | exhausted _ hstep =>
    rw [hstep] at h
    exact handBack_aborts h
  | works _ hstep | enters _ _ hstep =>
    rw [hstep] at h
    cases h
  | fails hx hstep =>
    rw [hstep] at h
    cases h
    exact .fails hx
  | offers hoffers =>
    rw [hoffers.step] at h
    exact deliver_aborts h

end Machine

end StackMachine
