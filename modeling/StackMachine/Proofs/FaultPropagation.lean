import StackMachine.Proofs.CallStack
/-!
# Faults across frames

A fault that an instruction raises is offered to the frames, innermost first.  What a frame does
with it depends on its innermost except or finally block (`Frame.catcher?`).  If there is one, the
frame goes on at the block's handler with the fault on its stack (`Frame.handling`); if there is
none, the frame leaves, and the fault takes an entry of its trace along (`Fault.through`).

Either way blocks are removed and the operand stack is cut back to their heights, and that can fail.
`Frame.Clear` says that it does not.  Heights are compared with the stack as it is when the block is
removed, so a block must find the height that the blocks above it have left.
-/

namespace StackMachine

/-- Whether the block catches faults. -/
def Block.catches (b : Block) : Bool :=
  match b.kind with
  | .tryExcept | .tryFinally => true
  | .loop | .exceptHandler => false

/-- The fault after it has left the frames, innermost first: for each of them the name of its code
and the offset of its last instruction have been appended to the trace. -/
def Fault.through (F : Fault) (frames : List Frame) : Fault :=
  { F with trace := F.trace ++ frames.map fun f => ⟨f.code.unit.name, f.lastIp⟩ }

namespace Frame

/-- The block that catches a fault of the frame: its innermost except or finally block. -/
def catcher? (f : Frame) : Option Block := f.blocks.find? Block.catches

/-- The blocks above the one that catches a fault, or all of them. -/
def passed (f : Frame) : List Block := f.blocks.takeWhile (!Block.catches ·)

/-- The blocks below the one that catches a fault. -/
def kept (f : Frame) : List Block := (f.blocks.dropWhile (!Block.catches ·)).tail

/-- Each block that a fault removes finds the operand stack high enough. -/
def Clear (f : Frame) : Prop := Clears (f.passed ++ f.catcher?.toList) f.stack.size

instance (f : Frame) : Decidable f.Clear :=
  inferInstanceAs (Decidable (Clears (f.passed ++ f.catcher?.toList) f.stack.size))

/-- The frame at the handler of its block `b`, which has caught the fault.  The objects that stand
for the fault are numbered from `id` on. -/
def handling (f : Frame) (b : Block) (F : Fault) (id : Nat) : Frame :=
  { f with
    stack := f.stack.take b.height ++ (F.triple id ++ F.triple (id + 2)).toArray
    blocks := ⟨.exceptHandler, 0, b.height⟩ :: f.kept
    ip := b.handler }

end Frame

/-! ## One frame -/

section OneFrame

variable {f : Frame} {b : Block} {F : Fault} {m : Machine}

lemma Block.takes_raising (b : Block) (F : Fault) : b.takes (.raising F) = b.catches := by
  unfold Block.takes Block.catches
  cases b.kind <;> rfl

lemma Frame.takes_of_mem_passed (F : Fault) : ∀ c ∈ f.passed, c.takes (.raising F) = false := by
  intro c hc
  rw [Block.takes_raising]
  exact mem_takeWhile_not hc

/-- A frame that cannot catch the fault has all its blocks removed. -/
lemma unwind_uncaught (h : f.catcher? = none) (hc : f.Clear) :
    Exec.unwind (.raising F) (m.activation f) =
      .ok (some (.raising F)) ((m.activation f).leaveAll f.blocks []) := by
  have hpassed : f.passed = f.blocks := takeWhile_eq_of_find? h
  have hpass := f.takes_of_mem_passed F
  have hclears : Clears f.passed f.stack.size := by
    simpa [Frame.Clear, h] using hc
  rw [hpassed] at hpass hclears
  exact Exec.unwind_leaving hpass hclears

/-- The blocks down to the catcher of a clear frame. -/
lemma Frame.Clear.of_caught (h : f.catcher? = some b) (hc : f.Clear) :
    Clears f.passed f.stack.size ∧ b.need ≤ heightBelow f.passed f.stack.size := by
  simpa [Frame.Clear, h, clears_append, Clears] using hc

/-- A clear frame has as many values as the block that catches a fault has found. -/
lemma Frame.Clear.height_le (h : f.catcher? = some b) (hc : f.Clear) :
    b.height ≤ f.stack.size := by
  obtain ⟨hpassed, hneed⟩ := hc.of_caught h
  calc b.height ≤ b.need := b.height_le_need
    _ ≤ heightBelow f.passed f.stack.size := hneed
    _ ≤ f.stack.size := heightBelow_le hpassed

/-- A frame that catches the fault goes on at the handler. -/
lemma unwind_caught {a : Activation} (h : a.frame.catcher? = some b) (hc : a.frame.Clear) :
    Exec.unwind (.raising F) a =
      .ok none { a with
        frame := a.frame.handling b F a.heap.nextId
        heap := { a.heap with nextId := a.heap.nextId + 4 }
        lastFault := some F } := by
  obtain ⟨hpassed, hneed⟩ := hc.of_caught h
  have htakes : b.takes (.raising F) = true := by
    rw [Block.takes_raising]
    exact List.find?_some h
  obtain ⟨hrun, hneed'⟩ := Exec.unwind_append (a.frame.takes_of_mem_passed F)
    (eq_append_of_find? h) hpassed hneed
  have hcut : (a.frame.stack.take (heightBelow a.frame.passed a.frame.stack.size)).take b.height =
      a.frame.stack.take b.height := by
    have hheight : b.height ≤ heightBelow a.frame.passed a.frame.stack.size :=
      Nat.le_trans b.height_le_need hneed
    simp [Nat.min_eq_left hheight]
  calc Exec.unwind (.raising F) a
      = .ok none ((a.leaveAll a.frame.passed (b :: a.frame.kept)).caught b a.frame.kept F) := by
        rw [hrun]
        exact Exec.unwindThrough_cons_raising htakes hneed'
    _ = _ := by
        simp only [Activation.caught, Activation.leaveAll, hcut]
        rfl

/-- A frame that is not clear ends the run: the stack is too low for a block that is passed, or for
the one that would catch the fault. -/
lemma unwind_not_clear (hc : ¬ f.Clear) :
    ∃ needed found a, found < needed ∧ Exec.unwind (.raising F) (m.activation f) =
      .error (.fatal (.stackUnderflow needed found)) a := by
  by_cases hpassed : Clears f.passed f.stack.size
  · obtain ⟨b, hb⟩ : ∃ b, f.catcher? = some b := by
      rw [← Option.ne_none_iff_exists']
      intro hnone
      exact hc (by simpa [Frame.Clear, hnone] using hpassed)
    have hneed : heightBelow f.passed f.stack.size < b.need := by
      simpa [Frame.Clear, hb, clears_append, Clears, hpassed] using hc
    have hblocks : f.blocks = f.passed ++ b :: f.kept := eq_append_of_find? hb
    have hsize := Activation.leaveAll_height (a := m.activation f) hpassed (b :: f.kept)
    have hrun := Exec.unwindThrough_append (a := m.activation f) (f.takes_of_mem_passed F)
      hblocks hpassed
    rw [Exec.unwindThrough_cons_underflow (by simp) (hsize ▸ hneed), ← hblocks] at hrun
    exact ⟨_, _, _, hsize ▸ hneed, hrun⟩
  · obtain ⟨c, -, found, hfound, a, hrun⟩ := Exec.unwindThrough_underflow (a := m.activation f)
      (f.takes_of_mem_passed F) hpassed
    rw [Frame.passed, List.takeWhile_append_dropWhile] at hrun
    exact ⟨c.need, found, a, hfound, hrun⟩

end OneFrame

/-! ## From frame to frame -/

namespace Machine

variable {m : Machine} {rest lower : Array Frame} {f : Frame} {b : Block} {F : Fault}

/-- A frame without a catcher leaves; the fault goes on to the frame below. -/
lemma deliver_uncaught (h : m.frames = rest.push f) (hl : Linked (rest.push f)) (hrest : rest ≠ #[])
    (hu : f.catcher? = none) (hc : f.Clear) (depth : Nat) :
    m.deliver (.raising F) (depth + 1) =
      ({ m with frames := rest, lastFault := some (F.leaving f) } : Machine).deliver
        (.raising (F.leaving f)) depth := by
  obtain ⟨caller, hcaller⟩ := hl.exists_caller hrest
  have hcaller' : ((m.activation f).leaveAll f.blocks []).frame.caller? = some caller := hcaller
  rw [deliver_push h, unwind_uncaught hu hc]
  dsimp only
  rw [hcaller']
  rfl

/-- The outermost frame leaves, and the fault is the result. -/
lemma deliver_outermost (h : m.frames = #[].push f) (hl : Linked (#[].push f))
    (hu : f.catcher? = none) (hc : f.Clear) :
    ∃ last, m.deliver (.raising F) 1 =
      .finished { m with frames := #[], lastFault := last } (.error (.fault (F.leaving f))) := by
  have hcaller : ((m.activation f).leaveAll f.blocks []).frame.caller? = none :=
    (linked_push.1 hl).2
  refine ⟨((m.activation f).leaveAll f.blocks []).lastFault, ?_⟩
  rw [deliver_push h, unwind_uncaught hu hc]
  dsimp only
  rw [hcaller]
  rfl

/-- A frame with a catcher goes on at its handler. -/
lemma deliver_caught (h : m.frames = rest.push f) (hb : f.catcher? = some b) (hc : f.Clear)
    (depth : Nat) :
    m.deliver (.raising F) (depth + 1) = .running { m with
      heap := { m.heap with nextId := m.heap.nextId + 4 }
      frames := rest.push (f.handling b F m.heap.nextId)
      lastFault := some F } := by
  rw [deliver_push h, unwind_caught (a := m.activation f) hb hc]
  rfl

/-- A frame that is not clear ends the run. -/
lemma deliver_not_clear (h : m.frames = rest.push f) (hc : ¬ f.Clear) (depth : Nat) :
    ∃ (m' : Machine) (needed found : Nat), m'.frames = #[] ∧ found < needed ∧
      m.deliver (.raising F) (depth + 1) =
        .finished m' (.error (.fatal (.stackUnderflow needed found))) := by
  obtain ⟨needed, found, a, hfound, hu⟩ := unwind_not_clear hc
  refine ⟨m.resume #[] a, needed, found, rfl, hfound, ?_⟩
  rw [deliver_push h, hu]

/-- A fault goes down through frames that cannot catch it and takes their entries along; the
induction is on their number. -/
lemma deliver_through {popped : List Frame} (h : m.frames = lower ++ popped.reverse.toArray)
    (hl : Linked m.frames) (hlower : lower ≠ #[])
    (hu : ∀ f ∈ popped, f.catcher? = none ∧ f.Clear) :
    ∃ last, m.deliver (.raising F) m.frames.size =
      ({ m with frames := lower, lastFault := last } : Machine).deliver
        (.raising (F.through popped)) lower.size := by
  induction popped generalizing m F with
  | nil =>
    have hm : m.frames = lower := by simpa using h
    subst hm
    exact ⟨m.lastFault, by simp [Fault.through]⟩
  | cons f popped ih =>
    have hm : m.frames = (lower ++ popped.reverse.toArray).push f := by simp [h]
    have hrest : lower ++ popped.reverse.toArray ≠ #[] := by simp [hlower]
    have hsize : m.frames.size = (lower ++ popped.reverse.toArray).size + 1 := by
      rw [hm, Array.size_push]
    obtain ⟨hf, hc⟩ := hu f List.mem_cons_self
    rw [hm] at hl
    obtain ⟨last, hlast⟩ := @ih { m with
        frames := lower ++ popped.reverse.toArray
        lastFault := some (F.leaving f) } (F.leaving f) rfl (linked_push.1 hl).1
      fun g hg => hu g (List.mem_cons_of_mem f hg)
    have hthrough : (F.leaving f).through popped = F.through (f :: popped) := by
      simp [Fault.through, Fault.leaving]
    refine ⟨last, ?_⟩
    rw [hsize, deliver_uncaught hm hl hrest hf hc, hlast, hthrough]

/-- A fault that no frame can catch comes down to the outermost frame, and is the result. -/
lemma deliver_to_host {popped : List Frame} (h : m.frames = #[].push f ++ popped.reverse.toArray)
    (hl : Linked m.frames) (hu : ∀ g ∈ popped ++ [f], g.catcher? = none ∧ g.Clear) :
    ∃ last, m.deliver (.raising F) m.frames.size =
      .finished { m with frames := #[], lastFault := last }
        (.error (.fault (F.through (popped ++ [f])))) := by
  obtain ⟨last, hdown⟩ := deliver_through (F := F) h hl Array.push_ne_empty
    fun g hg => hu g (List.mem_append_left [f] hg)
  have hfirst : Linked (#[].push f) := Linked.of_append (h ▸ hl)
  obtain ⟨hf, hc⟩ := hu f (by simp)
  obtain ⟨last', hout⟩ := deliver_outermost (F := F.through popped)
    (m := { m with lastFault := last, frames := #[].push f }) rfl hfirst hf hc
  have hthrough : (F.through popped).leaving f = F.through (popped ++ [f]) := by
    simp [Fault.through, Fault.leaving]
  refine ⟨last', ?_⟩
  rw [hdown, ← hthrough, ← hout]
  rfl

/-- A fault that comes down to a frame which is not clear ends the run there, if it has not ended it
before. -/
lemma deliver_to_not_clear {popped : List Frame}
    (h : m.frames = rest.push f ++ popped.reverse.toArray) (hl : Linked m.frames)
    (hu : ∀ g ∈ popped, g.catcher? = none) (hc : ¬ f.Clear) :
    ∃ (m' : Machine) (needed found : Nat), m'.frames = #[] ∧ found < needed ∧
      m.deliver (.raising F) m.frames.size =
        .finished m' (.error (.fatal (.stackUnderflow needed found))) := by
  induction popped generalizing m F with
  | nil =>
    have hm : m.frames = rest.push f := by simpa using h
    have hsize : m.frames.size = rest.size + 1 := by simp [hm]
    rw [hsize]
    exact deliver_not_clear hm hc rest.size
  | cons g popped ih =>
    have hm : m.frames = (rest.push f ++ popped.reverse.toArray).push g := by simp [h]
    have hrest : rest.push f ++ popped.reverse.toArray ≠ #[] := by simp
    have hsize : m.frames.size = (rest.push f ++ popped.reverse.toArray).size + 1 := by
      rw [hm, Array.size_push]
    rw [hsize]
    by_cases hg : g.Clear
    · rw [hm] at hl
      rw [deliver_uncaught hm hl hrest (hu g List.mem_cons_self) hg]
      exact ih rfl (linked_push.1 hl).1 fun c hc => hu c (List.mem_cons_of_mem g hc)
    · exact deliver_not_clear hm hg _

/-! ## The whole way of a fault -/

/-- The frames above the one at place `j`, innermost first. -/
def above (frames : Array Frame) (j : Nat) : List Frame := (frames.drop (j + 1)).toList.reverse

lemma eq_push_append_above {frames : Array Frame} {j : Nat} (hj : j < frames.size) :
    frames = (frames.take j).push frames[j] ++ (above frames j).reverse.toArray := by
  have htake : (frames.take j).push frames[j] = frames.take (j + 1) := by
    simp [Array.take, Array.push_extract_getElem hj]
  have habove : (above frames j).reverse.toArray = frames.drop (j + 1) := by
    rw [above, List.reverse_reverse, Array.toArray_toList]
  rw [htake, habove, Array.take, Array.drop, Array.extract_append_extract]
  simp [Nat.max_eq_right hj]

end Machine

/-- **Faults across frames.**  An instruction of a machine that a session can come to raises the
fault `F`; it has left the machine `m'`, of which no frame but the innermost one has changed.

* If the frame at place `j` is the innermost one that can catch the fault, then the frames above it
  leave, one entry of the trace is appended for each of them, and the frame goes on at its handler.
  The frames below it stay as they are.
* If no frame can catch the fault, then it is the result of the run, with one entry for each frame,
  and no frame is left.
* Either way the frames on the fault's way have to be clear.  If one of them is not, then the result
  of the run is a stack underflow, and no frame is left. -/
theorem fault_propagates {m m' : Machine} {F : Fault} (hr : Reached (.running m))
    (hF : m.Raises m' F) :
    (∃ (rest : Array Frame) (f g : Frame), m.frames = rest.push f ∧
      m'.frames = rest.push g ∧ f.SameCall g) ∧
    (∀ j (hj : j < m'.frames.size) b, m'.frames[j].catcher? = some b →
      (∀ f ∈ Machine.above m'.frames j, f.catcher? = none) →
      (∀ f ∈ m'.frames[j] :: Machine.above m'.frames j, f.Clear) →
      m.step = .running { m' with
        heap := { m'.heap with nextId := m'.heap.nextId + 4 }
        frames := (m'.frames.take j).push
          (m'.frames[j].handling b (F.through (Machine.above m'.frames j)) m'.heap.nextId)
        lastFault := some (F.through (Machine.above m'.frames j)) }) ∧
    ((∀ f ∈ m'.frames, f.catcher? = none ∧ f.Clear) →
      ∃ last, m.step = .finished { m' with frames := #[], lastFault := last }
        (.error (.fault (F.through m'.frames.toList.reverse)))) ∧
    (∀ j (hj : j < m'.frames.size), (∀ f ∈ Machine.above m'.frames j, f.catcher? = none) →
      ¬ m'.frames[j].Clear →
      ∃ (m'' : Machine) (needed found : Nat), m''.frames = #[] ∧ found < needed ∧
        m.step = .finished m'' (.error (.fatal (.stackUnderflow needed found)))) := by
  obtain ⟨hpos, hl⟩ := hr.orderly
  obtain ⟨rest, f, hm⟩ := Array.exists_push_of_size_pos hpos
  obtain ⟨g, hm', hsame⟩ := hF.frames hm
  have hl' : Linked m'.frames := by
    rw [hm] at hl
    rw [hm']
    exact hl.push_sameCall hsame
  obtain ⟨last, hstep⟩ := hF.step
  refine ⟨⟨rest, f, g, hm, hm', hsame⟩, ?_, ?_, ?_⟩
  · intro j hj b hb hu hc
    have hframes := Machine.eq_push_append_above hj
    obtain ⟨last', hdown⟩ := Machine.deliver_through (m := { m' with lastFault := last }) (F := F)
      hframes hl' Array.push_ne_empty
      fun c hcm => ⟨hu c hcm, hc c (List.mem_cons_of_mem _ hcm)⟩
    rw [hstep, Machine.signal, hdown, Array.size_push,
      Machine.deliver_caught rfl hb (hc _ List.mem_cons_self)]
  · intro hall
    have hpos' : 0 < m'.frames.size := by simp [hm']
    have hframes := Machine.eq_push_append_above hpos'
    have hlist : m'.frames.toList.reverse = Machine.above m'.frames 0 ++ [m'.frames[0]] := by
      have := congrArg (fun frames => frames.toList.reverse) hframes
      simpa using this
    rw [Array.take, Array.extract_zero] at hframes
    rw [hstep, Machine.signal, hlist]
    refine Machine.deliver_to_host (m := { m' with lastFault := last }) hframes hl' ?_
    intro c hc
    rw [← hlist] at hc
    exact hall c (by simpa using hc)
  · intro j hj hu hc
    rw [hstep, Machine.signal]
    exact Machine.deliver_to_not_clear (m := { m' with lastFault := last })
      (Machine.eq_push_append_above hj) hl' hu hc

/-- A function that does nothing but raise, called in an except block.  The instruction that raises
is the first one of the function. -/
theorem fault_propagates_from_callee :
    ∃ (m' : Machine) (F : Fault) (f₀ f₁ : Frame),
      (callingSession #[0x80, 0, 0] 4).machine.Raises m' F ∧ m'.frames = #[f₀, f₁] ∧
      F.trace = [] ∧ (F.through [f₁]).trace = [⟨"callee", 0⟩] ∧
      (callingSession #[0x80, 0, 0] 4).machine.step = .running { m' with
        heap := { m'.heap with nextId := m'.heap.nextId + 4 }
        frames := #[f₀.handling ⟨.tryExcept, 12, 0⟩ (F.through [f₁]) m'.heap.nextId]
        lastFault := some (F.through [f₁]) } := by
  have hr := reached_callingSession_machine #[0x80, 0, 0] 4 (by decide +kernel)
  have hrun : (callingSession #[0x80, 0, 0] 4).machine.thrown?.map (fun r =>
      (r.1.trace, r.2.frames.toList.map fun f =>
        ((f.catcher?, decide f.Clear), (f.code.unit.name, f.lastIp)))) =
      some ([], [((some ⟨.tryExcept, 12, 0⟩, true), ("<module>", 9)),
        ((none, true), ("callee", 0))]) := by
    decide +kernel
  obtain ⟨⟨F, m'⟩, hthrown, heq⟩ := Option.map_eq_some_iff.1 hrun
  obtain ⟨htrace, hcatchers⟩ := Prod.mk.inj heq
  obtain ⟨f₀, _, hlist, h₀, htail⟩ := List.map_eq_cons_iff.1 hcatchers
  obtain ⟨f₁, _, rfl, h₁, hnil⟩ := List.map_eq_cons_iff.1 htail
  obtain rfl := List.map_eq_nil_iff.1 hnil
  simp only [Prod.mk.injEq, decide_eq_true_eq] at htrace h₀ h₁
  have hF : (callingSession #[0x80, 0, 0] 4).machine.Raises m' F := .of_thrown? hthrown
  have hframes : m'.frames = #[f₀, f₁] := Array.toList_inj.1 hlist
  have habove : Machine.above #[f₀, f₁] 0 = [f₁] := rfl
  have hcaught := (fault_propagates hr hF).2.1 0 (by simp [hframes]) ⟨.tryExcept, 12, 0⟩
    (by simpa [hframes] using h₀.1.1) (by simpa [habove, hframes] using h₁.1.1)
    (by simpa [habove, hframes] using ⟨h₀.1.2, h₁.1.2⟩)
  refine ⟨m', F, f₀, f₁, hF, hframes, htrace, by simp [Fault.through, htrace, h₁], ?_⟩
  simpa [habove, hframes] using hcaught

end StackMachine
