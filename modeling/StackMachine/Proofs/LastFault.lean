import StackMachine.Proofs.FaultPropagation
import StackMachine.Proofs.FinallyBlocks
/-!
# The last fault

The machine remembers one fault, the last one, and a bare raise sends it again.  It is written where
an instruction fails, where a frame catches a fault, and where a fault goes on to the caller of the
frame that it has left.  It is also written where a handler block is removed: such a block gives
back the fault that the three values above its height stand for, and these are the values of the
fault that the handler has been entered for.

Two things follow.  A fault that leaves the outermost frame on its way to the host has passed the
handler blocks of that frame, and the outermost one of them has had the last word; only without a
handler block there is the last fault the one that the host gets (`last_fault_of_result`).  And a
handler keeps a copy of its own fault, not of the one before it: whatever its body does to the last
fault, when it is left the last fault is the one that it was entered for
(`handler_leaves_its_fault`).  Handlers do therefore not restore one another, and after a nested
handler a bare raise sends the fault of the nested one.
-/

namespace StackMachine

/-- The outermost handler block of a row. -/
def outermostHandler? (blocks : List Block) : Option Block :=
  (blocks.filter (·.kind = .exceptHandler)).getLast?

/-- Of all the blocks of a row the outermost handler block has the last word. -/
lemma restoredBy_eq (blocks : List Block) (stack : Array Value) (last : Option Fault) :
    restoredBy blocks stack last = match outermostHandler? blocks with
      | some b => b.restored stack none
      | none => last := by
  induction blocks generalizing last with
  | nil => rfl
  | cons b rest ih =>
    have hrest : restoredBy (b :: rest) stack last =
        restoredBy rest stack (b.restored stack last) := rfl
    rw [hrest, ih]
    by_cases hk : b.kind = .exceptHandler
    · have hfirst : b.restored stack last = b.restored stack none := by
        simp only [Block.restored, hk, if_true]
      have hrow : outermostHandler? (b :: rest) = some ((outermostHandler? rest).getD b) := by
        simp [outermostHandler?, hk, List.getLast?_cons]
      rw [hrow]
      cases outermostHandler? rest with
      | none => exact hfirst
      | some c => rfl
    · have hsame : b.restored stack last = last := by
        simp only [Block.restored, hk, if_false]
      have hrow : outermostHandler? (b :: rest) = outermostHandler? rest := by
        simp [outermostHandler?, hk]
      rw [hsame, hrow]

/-- The last fault of the machine is of that kind and has that value, whatever its trace. -/
def Machine.Remembers (m : Machine) (F : Fault) : Prop :=
  ∃ L, m.lastFault = some L ∧ L.kind = F.kind ∧ L.value = F.value

/-! ## A fault as the result -/

namespace Machine

variable {m m₁ m' : Machine} {F F' : Fault}

/-- A fault that is offered to a frame is the last one, unless the instruction has sent it. -/
lemma Offers.lastFault (h : m.Offers m₁ (.raising F)) :
    m₁.lastFault = some F ∨ m.executed? = some (.ok (.signal (.raising F)) m₁) := by
  cases h with
  | signalled h => exact .inr h
  | thrown | refused | passed => exact .inl rfl

/-- A value that is handed back is no fault. -/
lemma handBack_ne_fault (m : Machine) (f : Frame) (v : Value) :
    m.handBack f v ≠ .finished m' (.error (.fault F')) := by
  unfold handBack
  cases f.caller? with
  | none => simp
  | some caller =>
    dsimp only
    split <;> simp [abandon]

/-- Where a run ends in a fault, the fault has come to the outermost frame and has left it.  The
induction is on the number of frames that it still has to leave. -/
lemma Offers.leaves_outermost {s : Signal} (h : m.Offers m₁ s) (hl : Linked m₁.frames)
    (hend : m₁.signal s = .finished m' (.error (.fault F'))) :
    ∃ (m₂ : Machine) (f : Frame) (F : Fault), m.Offers m₂ (.raising F) ∧ m₂.frames = #[].push f ∧
      F' = F.leaving f ∧ m'.lastFault = restoredBy f.blocks f.stack m₂.lastFault := by
  induction hn : m₁.frames.size generalizing m₁ s with
  | zero =>
    rw [signal, hn] at hend
    cases hend
  | succ n ih =>
    obtain ⟨rest, f, hm⟩ := Array.exists_push_of_size_pos (by omega : 0 < m₁.frames.size)
    rw [signal, hn, deliver_push hm] at hend
    rcases Exec.unwind_cases s (m₁.activation f) with ⟨needed, found, a, hu⟩ | ⟨a, hu⟩ | ⟨a, hu⟩ <;>
      rw [hu] at hend
    · simp at hend
    · cases hend
    · cases s with
      | returning v => exact absurd hend (handBack_ne_fault _ _ _)
      | breaking => simp at hend
      | continuing target => simp at hend
      | raising F =>
        rw [hm] at hl
        dsimp only at hend
        cases hcaller : a.frame.caller? with
        | none =>
          have hkeeps := Exec.unwind_confined (.raising F) (m₁.activation f)
          rw [hu] at hkeeps
          obtain rfl := hl.eq_empty (hkeeps.caller?.symm.trans hcaller)
          obtain ⟨-, rfl⟩ := Exec.unwind_left hu
          rw [hcaller] at hend
          cases hend
          exact ⟨m₁, f, F, h, hm, rfl, rfl⟩
        | some caller =>
          rw [hcaller] at hend
          have hrest : rest.size = n := by simpa [hm] using hn
          refine ih (h.passed hm hu hcaller) (linked_push.1 hl).1 ?_ hrest
          rw [← hend, ← hrest]
          rfl

end Machine

/-- **The last fault after a run that has ended in a fault.**  A step of a machine that a session
can come to ends the run with the fault `F'`.  Then the step has offered a fault `F` to the
outermost frame `f`, which it has left as `F'`, and whether the last fault is still this one depends
on the blocks that it has met there:

* If there is a handler block among them, the last fault is the one that the outermost handler block
  stands for, whichever that is.
* If there is none, the machine remembers the fault that the host gets, unless the outermost frame
  has sent it at the end of a finally body; then the last fault is what it was.
-/
theorem last_fault_of_result {m m' : Machine} {F' : Fault} (hr : Reached (.running m))
    (h : m.step = .finished m' (.error (.fault F'))) :
    ∃ (m₁ : Machine) (f : Frame) (F : Fault), m.Offers m₁ (.raising F) ∧ m₁.frames = #[f] ∧
      F' = F.leaving f ∧
      match outermostHandler? f.blocks with
      | some b => m'.lastFault = b.restored f.stack none
      | none => m'.Remembers F' ∨
          m.executed? = some (.ok (.signal (.raising F)) m₁) ∧ m'.lastFault = m₁.lastFault := by
  obtain ⟨-, hl⟩ := hr.orderly
  cases m.stepEnd with
  | stopped _ hstep | idle _ hstep | undecodable _ _ hstep | fails _ hstep =>
    rw [hstep] at h
    cases h
  | exhausted _ hstep =>
    rw [hstep] at h
    exact absurd h (Machine.handBack_ne_fault _ _ _)
  | works _ hstep | enters _ _ hstep =>
    rw [hstep] at h
    cases h
  | offers hoffers =>
    rw [hoffers.step] at h
    obtain ⟨m₁, f, F, hoffers, hframes, rfl, hlast⟩ :=
      hoffers.leaves_outermost (hoffers.linked hl) h
    refine ⟨m₁, f, F, hoffers, hframes, rfl, ?_⟩
    rw [restoredBy_eq] at hlast
    cases hrow : outermostHandler? f.blocks with
    | some b =>
      rw [hrow] at hlast
      exact hlast
    | none =>
      rw [hrow] at hlast
      obtain hF | hsent := hoffers.lastFault
      · exact .inl ⟨F, hlast.trans hF, rfl, rfl⟩
      · exact .inr ⟨hsent, hlast⟩

/-- A module of that code, which names two classes of exceptions and a variable. -/
def raisingUnit (code : Array UInt8) : CodeUnit :=
  { (.named "<module>" : CodeUnit) with
    code := code
    names := ["ValueError", "KeyError", "k"] }

-- Irreducible, so that only the kernel ever evaluates such a run.
/-- A new machine that runs such a module, after some steps. -/
@[irreducible] def raisingSession (code : Array UInt8) (steps : Nat) : Progress :=
  Machine.advance steps ((Machine.new {} .console).serve (.run ⟨0, [], raisingUnit code⟩ none none))

lemma reached_raisingSession (code : Array UInt8) (steps : Nat) :
    Reached (raisingSession code steps) := by
  unfold raisingSession
  exact ((Reached.new {} .console).serve _).advance steps

lemma raisingSession_succ (code : Array UInt8) (steps : Nat) :
    raisingSession code (steps + 1) = match raisingSession code steps with
      | .running m => m.step
      | .finished m r => .finished m r := by
  unfold raisingSession
  exact Machine.advance_succ steps _

/-- The kind of the last fault, and that of the fault which is the result. -/
def Progress.faultKinds : Progress → Option ExceptionKind × Option ExceptionKind
  | .running m => (m.lastFault.map (·.kind), none)
  | .finished m (.error (.fault F)) => (m.lastFault.map (·.kind), some F.kind)
  | .finished m _ => (m.lastFault.map (·.kind), none)

/-- A run whose result is a fault. -/
lemma Progress.exists_finished {p : Progress} {kind? : Option ExceptionKind} {kind : ExceptionKind}
    (h : p.faultKinds = (kind?, some kind)) :
    ∃ m F, p = .finished m (.error (.fault F)) ∧ m.lastFault.map (·.kind) = kind? ∧
      F.kind = kind := by
  rcases p with m | ⟨m, ⟨F | e⟩ | v⟩
  · cases h
  · cases h
    exact ⟨m, F, rfl, rfl, rfl⟩
  · cases h
  · cases h

/-- A module that raises a `ValueError`, and a `KeyError` in the handler. -/
def raisingInHandler : Array UInt8 :=
  #[0x79, 6, 0, 0x51, 0, 0, 0x80, 1, 0, 0x51, 1, 0, 0x80, 1, 0]

/-- The step in which the module is left. -/
theorem last_fault_of_result_in_handler :
    ∃ (m m' : Machine) (F' : Fault), raisingSession raisingInHandler 4 = .running m ∧
      m.step = .finished m' (.error (.fault F')) ∧
      ∃ (m₁ : Machine) (f : Frame) (F : Fault), m.Offers m₁ (.raising F) ∧ m₁.frames = #[f] ∧
        F' = F.leaving f ∧
        match outermostHandler? f.blocks with
        | some b => m'.lastFault = b.restored f.stack none
        | none => m'.Remembers F' ∨
            m.executed? = some (.ok (.signal (.raising F)) m₁) ∧ m'.lastFault = m₁.lastFault := by
  have hr := reached_raisingSession raisingInHandler 4
  have hkinds : (raisingSession raisingInHandler 5).faultKinds =
      (some .valueError, some .keyError) := by decide +kernel
  obtain ⟨m', F', hlast, -⟩ := Progress.exists_finished hkinds
  have hrunning : (raisingSession raisingInHandler 4).isRunning := by decide +kernel
  have hm := Progress.eq_running hrunning
  have hstep : (raisingSession raisingInHandler 4).machine.step =
      .finished m' (.error (.fault F')) := by
    rw [← hlast, raisingSession_succ raisingInHandler 4, hm]
    rfl
  exact ⟨_, m', F', hm, hstep, last_fault_of_result (hm ▸ hr) hstep⟩

/-- The host gets the `KeyError`, and the machine remembers the `ValueError`. -/
theorem last_fault_not_of_result :
    ∃ (m : Machine) (F : Fault), raisingSession raisingInHandler 5 =
      .finished m (.error (.fault F)) ∧ Reached (.finished m (.error (.fault F))) ∧
      F.kind = .keyError ∧ m.lastFault.map (·.kind) = some .valueError ∧ ¬ m.Remembers F := by
  have hr := reached_raisingSession raisingInHandler 5
  have hkinds : (raisingSession raisingInHandler 5).faultKinds =
      (some .valueError, some .keyError) := by decide +kernel
  obtain ⟨m, F, heq, hlast, hkind⟩ := Progress.exists_finished hkinds
  refine ⟨m, F, heq, heq ▸ hr, hkind, hlast, ?_⟩
  rintro ⟨L, hL, hsame, -⟩
  rw [hL, Option.map_some, hsame, hkind] at hlast
  cases hlast

/-! ## Leaving a handler -/

/-- The body of a handler has run that was entered at that height: the blocks are as it has found
them, and so is the operand stack up to the three values which belong to the block of the handler.
All else may have changed. -/
structure Activation.HandlerRun (height : Nat) (a b : Activation) : Prop where
  blocks : b.frame.blocks = a.frame.blocks
  stack : b.frame.stack.take (height + 3) = a.frame.stack.take (height + 3)

/-- A fault has been caught in the activation `a`, its handler has run and has been left. -/
inductive Activation.Handles (a : Activation) (F : Fault) (c : Activation) : Prop
  | intro {b : Block} {a₁ a₂ : Activation} (hb : a.frame.catcher? = some b) (hc : a.frame.Clear)
    (hcaught : Exec.unwind (.raising F) a = .ok none a₁) (hbody : a₁.HandlerRun b.height a₂)
    (hleft : Exec.execute .popExcept a₂ = .ok .next c)

/-- One fault after the other has been handled.  The activations need not be of one frame; what goes
on between two handlers leaves the last fault alone. -/
inductive Activation.HandlesAll : Activation → List Fault → Activation → Prop
  | done {a c : Activation} (h : c.lastFault = a.lastFault) : HandlesAll a [] c
  | next {a b c d : Activation} {F : Fault} {Fs : List Fault} (h : b.lastFault = a.lastFault)
    (hF : b.Handles F c) (hFs : c.HandlesAll Fs d) : HandlesAll a (F :: Fs) d

section Handlers

variable {a b c : Activation} {F : Fault}

/-- A handler block gives back the fault whose three values stand above its height. -/
lemma Block.restored_triple {b : Block} {stack : Array Value} {id : Nat}
    (hk : b.kind = .exceptHandler)
    (htriple : (stack.extract b.height (b.height + 3)).toList = F.triple id)
    (last : Option Fault) : b.restored stack last = some F := by
  rw [Block.restored, if_pos hk, htriple]
  exact Exec.storedFault?_triple F id

/-- The end of a handler, where the block is one of a handler and finds what it needs. -/
lemma Exec.execute_popExcept {b : Block} {rest : List Block} (hblocks : a.frame.blocks = b :: rest)
    (hk : b.kind = .exceptHandler) (hneed : b.need ≤ a.frame.stack.size) :
    execute .popExcept a = .ok .next (a.leave b rest) := by
  have hleave : leaveBlock b { a with frame := { a.frame with blocks := rest } } =
      .ok () (a.leave b rest) := leaveBlock_apply hneed
  simp [execute, perform, popExcept, popBlock, hblocks, hk, hleave]

/-- The end of a handler's body, where a fault has been caught at a block of that height. -/
lemma Activation.HandlerRun.leaves {height : Nat} {lower : Array Value} {id : Nat}
    {rest : List Block} {above : List Value} (h : a.HandlerRun height b)
    (hblocks : a.frame.blocks = ⟨.exceptHandler, 0, height⟩ :: rest) (hsize : lower.size = height)
    (hstack : a.frame.stack = lower ++ (F.triple id ++ above).toArray) :
    ∃ c, Exec.execute .popExcept b = .ok .next c ∧ c.lastFault = some F := by
  let handler : Block := ⟨.exceptHandler, 0, height⟩
  have hkind : handler.kind = .exceptHandler := rfl
  have hneed : handler.need = height + 3 := rfl
  have hroom : handler.need ≤ b.frame.stack.size := by
    have hsame := congrArg Array.size h.stack
    have htop : height + 3 ≤ a.frame.stack.size := by
      simp [hstack, hsize, Fault.triple]
    simp only [Array.take_eq_extract, Array.size_extract] at hsame
    omega
  have hrestored : handler.restored b.frame.stack b.lastFault = some F := by
    rw [← Block.restored_take (Nat.le_refl _), hneed, h.stack, ← hneed,
      Block.restored_take (Nat.le_refl _)]
    have htriple : (a.frame.stack.extract height (height + 3)).toList = F.triple id := by
      simp [hstack, ← hsize, Fault.triple]
    exact Block.restored_triple hkind htriple _
  have hleave : Exec.execute .popExcept b = .ok .next (b.leave handler rest) :=
    Exec.execute_popExcept (h.blocks.trans hblocks) hkind hroom
  exact ⟨_, hleave, hrestored⟩

/-- A fault that is caught, up to the end of its handler. -/
lemma Activation.exists_handled {b : Block} (hb : a.frame.catcher? = some b) (hc : a.frame.Clear)
    (F : Fault) : ∃ a₁, Exec.unwind (.raising F) a = .ok none a₁ ∧ a₁.lastFault = some F ∧
      ∀ a₂, a₁.HandlerRun b.height a₂ →
        ∃ c, Exec.execute .popExcept a₂ = .ok .next c ∧ c.lastFault = some F := by
  have hheight : b.height ≤ a.frame.stack.size := hc.height_le hb
  have hsize : (a.frame.stack.take b.height).size = b.height := by
    simp [Nat.min_eq_left hheight]
  have hstack : (a.frame.handling b F a.heap.nextId).stack = a.frame.stack.take b.height ++
      (F.triple a.heap.nextId ++ F.triple (a.heap.nextId + 2)).toArray := rfl
  refine ⟨_, unwind_caught hb hc, rfl, fun a₂ hbody => ?_⟩
  exact hbody.leaves rfl hsize hstack

lemma Activation.Handles.lastFault (h : a.Handles F c) : c.lastFault = some F := by
  obtain ⟨hb, hc, hcaught, hbody, hleft⟩ := h
  obtain ⟨a₁, hcaught', -, hleaves⟩ := Activation.exists_handled hb hc F
  rw [hcaught'] at hcaught
  cases hcaught
  obtain ⟨c', hleft', hlast⟩ := hleaves _ hbody
  rw [hleft'] at hleft
  cases hleft
  exact hlast

/-- The induction is on the number of handlers. -/
lemma Activation.HandlesAll.lastFault {Fs : List Fault} (h : a.HandlesAll Fs c) :
    c.lastFault = Fs.getLast?.or a.lastFault := by
  induction h with
  | done h => exact h
  | next h hF hFs ih =>
    rw [ih, hF.lastFault, List.getLast?_cons]
    cases List.getLast? _ <;> rfl

/-- A bare raise sends the last fault. -/
lemma Exec.execute_bareRaise (h : a.lastFault = some F) :
    execute (.raiseVarargs 0) a = .error (.fault F) a := by
  simp [execute, raised, h]
  rfl

/-- After any number of handlers a bare raise sends the fault of the last one. -/
lemma Activation.HandlesAll.bareRaise {Fs : List Fault} (hF : a.lastFault = some F)
    (h : a.HandlesAll Fs c) :
    Exec.execute (.raiseVarargs 0) c = .error (.fault (Fs.getLast?.getD F)) c := by
  refine Exec.execute_bareRaise ?_
  rw [h.lastFault, hF]
  cases Fs.getLast? <;> rfl

end Handlers

/-- **A handler that is left leaves its own fault behind.**  A frame that is clear catches the fault
`F` at its block `b`.

* In the handler a bare raise sends `F`; after further faults have been caught and handled there one
  after the other, it sends the one that has been handled last.
* However the body of the handler has run, the handler can be left, and then the last fault is `F`,
  whatever it was before the fault was caught.  In a handler around this one a bare raise that
  follows sends `F` too, or the fault of the handler that has been left last since. -/
theorem handler_leaves_its_fault {a : Activation} {b : Block} (hb : a.frame.catcher? = some b)
    (hc : a.frame.Clear) (F : Fault) :
    ∃ a₁, Exec.unwind (.raising F) a = .ok none a₁ ∧
      (∀ Fs c, a₁.HandlesAll Fs c →
        Exec.execute (.raiseVarargs 0) c = .error (.fault (Fs.getLast?.getD F)) c) ∧
      ∀ a₂, a₁.HandlerRun b.height a₂ →
        ∃ a₃, Exec.execute .popExcept a₂ = .ok .next a₃ ∧ a₃.lastFault = some F ∧
          ∀ Fs c, a₃.HandlesAll Fs c →
            Exec.execute (.raiseVarargs 0) c = .error (.fault (Fs.getLast?.getD F)) c := by
  obtain ⟨a₁, hcaught, hfirst, hleaves⟩ := Activation.exists_handled hb hc F
  refine ⟨a₁, hcaught, fun Fs c => Activation.HandlesAll.bareRaise hfirst, fun a₂ hbody => ?_⟩
  obtain ⟨a₃, hleft, hlast⟩ := hleaves a₂ hbody
  exact ⟨a₃, hleft, hlast, fun Fs c => Activation.HandlesAll.bareRaise hlast⟩

/-- An activation in the handler of a `ValueError`, where the stack holds the values of its block
and an except block has been set up. -/
def nestedActivation : Activation :=
  { (default : Activation) with
    frame := { (default : Frame) with
      stack := (Fault.triple ⟨.valueError, .none, []⟩ 0).toArray
      blocks := [⟨.tryExcept, 9, 3⟩, ⟨.exceptHandler, 0, 0⟩] }
    lastFault := some ⟨.valueError, .none, []⟩ }

/-- A `KeyError` is caught there, and its handler does nothing but remove the three values. -/
theorem handler_leaves_its_fault_when_nested :
    ∃ a₁ a₃, Exec.unwind (.raising ⟨.keyError, .none, []⟩) nestedActivation = .ok none a₁ ∧
      Exec.execute (.raiseVarargs 0) a₁ = .error (.fault ⟨.keyError, .none, []⟩) a₁ ∧
      Exec.execute .popExcept (a₁.dropTop 3) = .ok .next a₃ ∧
      a₃.lastFault = some ⟨.keyError, .none, []⟩ ∧
      Exec.execute (.raiseVarargs 0) a₃ = .error (.fault ⟨.keyError, .none, []⟩) a₃ := by
  have hb : nestedActivation.frame.catcher? = some ⟨.tryExcept, 9, 3⟩ := rfl
  have hc : nestedActivation.frame.Clear := by decide
  obtain ⟨a₁, hcaught, hraise, hleaves⟩ := handler_leaves_its_fault hb hc ⟨.keyError, .none, []⟩
  have hbody : a₁.HandlerRun 3 (a₁.dropTop 3) := by
    rw [unwind_caught hb hc] at hcaught
    cases hcaught
    exact ⟨rfl, rfl⟩
  obtain ⟨a₃, hleft, hlast, hall⟩ := hleaves _ hbody
  exact ⟨a₁, a₃, hcaught, hraise [] a₁ (.done rfl), hleft, hlast, hall [] a₃ (.done rfl)⟩

/-- A module that raises a `ValueError`; in its handler a `KeyError` is raised and handled, and then
there is a bare raise.  What it sends is caught by an except block around all this, and the module
returns its class. -/
def nestedHandlers : Array UInt8 :=
  #[0x79, 28, 0, 0x79, 6, 0, 0x51, 0, 0, 0x80, 1, 0, 1, 1, 1, 0x79, 6, 0, 0x51, 1, 0, 0x80, 1, 0,
    1, 1, 1, 0x34, 0x80, 0, 0, 0x52, 2, 0, 1, 1, 0x34, 0x51, 2, 0, 0x31]

/-- After eight steps the module is in the handler of the `ValueError` and about to raise the
`KeyError`, and after fourteen it has left the handler of the `KeyError` and comes to the bare
raise.  What is caught then is the `KeyError`. -/
theorem enclosing_fault_not_raised_again :
    (raisingSession nestedHandlers 8).machine.frames.toList.map
        (fun f => f.blocks.map (·.kind)) = [[.tryExcept, .exceptHandler, .tryExcept]] ∧
    (raisingSession nestedHandlers 8).faultKinds = (some .valueError, none) ∧
    (raisingSession nestedHandlers 14).machine.frames.toList.map
        (fun f => f.blocks.map (·.kind)) = [[.exceptHandler, .tryExcept]] ∧
    (raisingSession nestedHandlers 14).machine.nextDispatch? = some ("<module>", 28) ∧
    (raisingSession nestedHandlers 14).faultKinds = (some .keyError, none) ∧
    (raisingSession nestedHandlers 15).faultKinds = (some .keyError, none) := by
  refine ⟨?_, ?_, ?_, ?_, ?_, ?_⟩ <;> decide +kernel

end StackMachine
