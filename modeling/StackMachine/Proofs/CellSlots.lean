import StackMachine.Proofs.CallIsolation
import StackMachine.Proofs.CodePlaces
/-!
# Cell slots

The decoder looks up a cell slot in the tables of the code unit, but an instruction finds its cell
in the frame.  The two agree although they are filled in at different places: the cells of a frame
are made where it is entered, from what was checked when the function was made, and a top-level run
begins only if its unit captures nothing.

To say which cells a frame has captured one has to know what has been called, and a frame does not
tell.  So a session is followed together with its callees (`Calling`), one for each frame, of which
a step may add one (`Machine.calleesAfter`).  Then every frame has the cells of its callee
(`Frame.HasCells`): functions are neither changed nor forgotten while a request is served
(`Heap.KeepsFunctions`), and a step leaves the cells of the frames that stay as they are.
-/

namespace StackMachine

/-! ## Functions on the heap -/

/-- The functions of the heap stay what they are. -/
def Heap.KeepsFunctions (h h' : Heap) : Prop :=
  ∀ r F, h.function? r = some F → h'.function? r = some F

section Functions

variable {h h' h'' : Heap}

lemma Heap.KeepsFunctions.of_eq (heq : h'.functions = h.functions) : h.KeepsFunctions h' := by
  intro r F hF
  rwa [Heap.function?, heq]

lemma Heap.KeepsFunctions.trans (hh : h.KeepsFunctions h') (hh' : h'.KeepsFunctions h'') :
    h.KeepsFunctions h'' := fun r F hF => hh' r F (hh r F hF)

/-- **Every effect** keeps the functions. -/
lemma Activation.Effect.keepsFunctions {place : Nat → Prop} {a b : Activation}
    (heffect : a.Effect place b) : a.heap.KeepsFunctions b.heap := by
  cases heffect with
  | stack | jump | fetch | blocks | lastFault | output => exact .of_eq rfl
  | heap h => exact .of_eq h.functions
  | bind => exact .of_eq rfl
  | bindAttribute r name v =>
    obtain heq | ⟨F, -, heq⟩ := a.heap.bindAttribute_cases r name v
    · exact .of_eq (congrArg Heap.functions heq)
    · exact .of_eq ((congrArg Heap.functions heq).trans rfl)
  | makeFunction h =>
    obtain ⟨F, -, -, heq⟩ := Function.make_ok h a.heap
    dsimp only
    rw [heq]
    intro r G hG
    obtain ⟨hlt, hG⟩ := Array.getElem?_eq_some_iff.1 hG
    rw [Heap.function?, Array.getElem?_push_lt hlt, hG]

lemma Activation.Acts.keepsFunctions {place : Nat → Prop} {a b : Activation}
    (hacts : a.Acts place b) : a.heap.KeepsFunctions b.heap := by
  induction hacts with
  | refl => exact .of_eq rfl
  | tail _ heffect ih => exact ih.trans heffect.keepsFunctions

/-- **Every move** keeps the functions. -/
lemma Machine.Move.keepsFunctions {m m' : Machine} (h : m.Move m') :
    m.heap.KeepsFunctions m'.heap := by
  cases h with
  | counts | notes | leaves | receives | abandons => exact .of_eq rfl
  | widens h => exact .of_eq h.functions
  | works _ hacts => exact hacts.keepsFunctions
  | @enters callee positional keywords caller? g heap h =>
    have hwidening := callFrame_widening m.builtins callee positional keywords caller? m.heap
    rw [h] at hwidening
    exact .of_eq hwidening.functions

lemma Machine.Moves.keepsFunctions {m m' : Machine} (h : m.Moves m') :
    m.heap.KeepsFunctions m'.heap :=
  h.keeps (P := fun m₁ => m.heap.KeepsFunctions m₁.heap)
    (fun _ _ hmove hkeeps => hkeeps.trans hmove.keepsFunctions) (.of_eq rfl)

end Functions

/-! ## The cells of a frame -/

/-- The cells of a frame are those that its code asks for: new ones for the cell variables, and then
the cells of the function that has been called, one after the other.  The frame of a top-level run
has been called by no name, and its code captures nothing. -/
structure Frame.HasCells (f : Frame) (h : Heap) (callee? : Option (Ref .function)) : Prop where
  count : f.cells.length = f.code.unit.slotCount
  captured : match callee? with
    | some callee => ∃ F, h.function? callee = some F ∧ F.code = f.code ∧
        f.cells.drop f.code.unit.cellNames.length = F.closure
    | none => f.code.unit.freeNames = []

section Cells

variable {f g : Frame} {h h' : Heap} {callee? : Option (Ref .function)}

lemma Frame.HasCells.mono (hf : f.HasCells h callee?) (hfg : f.SameCall g)
    (hh : h.KeepsFunctions h') : g.HasCells h' callee? where
  count := by rw [hfg.cells, hfg.code, hf.count]
  captured := by
    have hcaptured := hf.captured
    rw [hfg.code, hfg.cells]
    cases callee? with
    | none => exact hcaptured
    | some callee =>
      obtain ⟨F, hF, hcode, hcells⟩ := hcaptured
      exact ⟨F, hh callee F hF, hcode, hcells⟩

lemma Function.freshCells_ok {locals : Ref .table} {names : List String}
    {cells : List (Ref .cell)} (hok : Function.freshCells locals names h = .ok cells h') :
    cells.length = names.length := by
  induction names generalizing h cells with
  | nil =>
    cases hok
    rfl
  | cons name rest ih =>
    obtain ⟨_, _, -, hok⟩ := bind_eq_ok hok
    obtain ⟨cell, _, -, hok⟩ := bind_eq_ok hok
    obtain ⟨others, _, hothers, hok⟩ := bind_eq_ok hok
    cases hok
    rw [List.length_cons, List.length_cons, ih hothers]

lemma Function.startCells_ok {F : Function} {locals : Ref .table} {cells : List (Ref .cell)}
    (hok : F.startCells locals h = .ok cells h') :
    ∃ fresh : List (Ref .cell), fresh.length = F.code.unit.cellNames.length ∧
      cells = fresh ++ F.closure := by
  obtain ⟨fresh, _, hfresh, hok⟩ := bind_eq_ok hok
  cases hok
  exact ⟨fresh, freshCells_ok hfresh, rfl⟩

lemma Machine.emptyCells_length (h : Heap) (names : List String) :
    (emptyCells h names).1.length = names.length := by
  induction names generalizing h with
  | nil => rfl
  | cons name rest ih => exact congrArg (· + 1) (ih (h.newCell none).2)

/-- The frame of a call has the cells of the callee. -/
lemma Machine.callFrame_hasCells {builtins : Ref .table} {callee : Ref .function}
    {positional : List Value} {keywords : List (String × Value)} {caller? : Option Nat}
    (hok : callFrame builtins callee positional keywords caller? h = .ok g h') :
    g.HasCells h' (some callee) ∧ h.KeepsFunctions h' := by
  have hwidening := callFrame_widening builtins callee positional keywords caller? h
  rw [hok] at hwidening
  obtain ⟨F, locals, cells, h₁, hF, -, hcells, rfl⟩ := callFrame_ok hok
  obtain ⟨fresh, hfresh, rfl⟩ := Function.startCells_ok hcells
  have hkeeps : h.KeepsFunctions h' := .of_eq hwidening.functions
  refine ⟨⟨?_, F, hkeeps callee F hF, rfl, ?_⟩, hkeeps⟩
  · show (fresh ++ F.closure).length = F.code.unit.slotCount
    rw [List.length_append, hfresh, F.checked.closure_length]
    rfl
  · show (fresh ++ F.closure).drop F.code.unit.cellNames.length = F.closure
    rw [← hfresh, List.drop_left]

end Cells

/-! ## Instructions -/

namespace Exec

variable {i : Instruction} {a b : Activation} {slot : Nat}

lemma cell_apply (h : slot < a.frame.cells.length) : cell slot a = .ok a.frame.cells[slot] a := by
  simp [cell, h]

lemma storeDeref_apply (h : slot < a.frame.cells.length) (v : Value) :
    storeDeref slot v a = .ok () { a with heap := a.heap.setCell a.frame.cells[slot] v } := by
  rw [storeDeref, bind_apply, cell_apply h]
  rfl

/-- A cell slot is lacking only where the instruction names one that the frame does not have. -/
lemma execute_lacking {offset s count : Nat}
    (h : execute i a = .error (.fatal (.malformedCode offset (.noCellSlot s count))) b) :
    ∃ slot, i.slot? = some slot ∧ a.frame.cells.length ≤ slot := by
  have hacting : Acting (fun _ => True) (i.slot? = some ·) (execute i) :=
    execute_acting (fun _ _ => trivial) fun _ hs => hs
  have hs : i.slot? = some s := by
    have hfailure := hacting a
    rw [h] at hfailure
    exact hfailure.2.2 s rfl
  -- The slot is one that the instruction names; were it there, the instruction would find a cell.
  refine ⟨s, hs, Nat.le_of_not_lt fun hlt => ?_⟩
  cases i <;> cases hs
  case loadClosure => simp [execute, perform, cell_apply hlt] at h
  case loadDeref =>
    cases hc : a.heap.cell? a.frame.cells[s] with
    | some v => simp [execute, perform, loadDeref, cell_apply hlt, hc] at h
    | none => simp [execute, perform, loadDeref, cell_apply hlt, hc, raise] at h
  case storeDeref =>
    by_cases hempty : a.frame.stack = #[]
    · simp [execute, perform, pop, hempty, abort_apply] at h
    · obtain ⟨stack, v, hstack⟩ := Array.exists_push_of_ne_empty hempty
      have hstore :=
        storeDeref_apply (a := { a with frame := { a.frame with stack := stack } }) hlt v
      simp [execute, perform, pop_apply hstack, hstore] at h

end Exec

/-! ## One step -/

namespace Machine

variable {m m' : Machine} {rest : Array Frame} {f : Frame} {callee : Ref .function}
  {callees : Array (Option (Ref .function))}

/-- The function that the next step enters, if it enters one. -/
def entered? (m : Machine) : Option (Ref .function) :=
  match m.executed? with
  | some (.ok (.enter callee positional keywords) m') =>
    match m'.enter callee positional keywords (some (m'.frames.size - 1)) with
    | .ok _ _ => some callee
    | .error _ _ => none
  | _ => none

/-- The callees of the frames after the next step, if those of the frames before it are
`callees`. -/
def calleesAfter (m : Machine) (callees : Array (Option (Ref .function))) :
    Array (Option (Ref .function)) :=
  match m.entered? with
  | some callee => callees.push (some callee)
  | none => callees.take m.step.machine.frames.size

/-- A step that enters a function: the innermost frame has worked, and on top of it there is the
frame of the call. -/
lemma step_entered (hm : m.frames = rest.push f) (h : m.entered? = some callee) :
    ∃ (m₁ : Machine) (f' g : Frame) (heap : Heap) (positional : List Value)
      (keywords : List (String × Value)) (caller? : Option Nat),
      m.Moves m₁ ∧ m₁.frames = rest.push f' ∧ f.SameCall f' ∧
      callFrame m₁.builtins callee positional keywords caller? m₁.heap = .ok g heap ∧
      m.step = .running { m₁ with heap := heap, frames := m₁.frames.push g } := by
  unfold entered? at h
  split at h
  · next callee' positional keywords m₁ hx =>
    obtain ⟨f', hf', hsame⟩ := executed?_confined hm hx
    have hmoves : m.Moves m₁ := (executed?_moves hx).1
    have hstep := step_of_executed? hx
    cases henter : m₁.enter callee' positional keywords (some (m₁.frames.size - 1)) with
    | error F m₂ =>
      rw [henter] at h
      cases h
    | ok _ m₂ =>
      obtain ⟨heap, g, hcall, rfl⟩ := enter_callFrame henter
      rw [henter] at h
      cases h
      simp only [proceed, henter] at hstep
      exact ⟨m₁, f', g, heap, positional, keywords, _, hmoves, hf', hsame, hcall, hstep⟩
  · cases h

/-- A step that enters no function and goes on. -/
lemma step_resumed (hm : m.frames = rest.push f) (hl : Linked (rest.push f))
    (hno : m.entered? = none) (hstep : m.step = .running m') : Resumed (rest.push f) m'.frames := by
  have hchange : Change (rest.push f) m'.frames := by
    have horderly := step_orderly (hm ▸ hl) (by simp [hm])
    rwa [hstep, hm] at horderly
  generalize hframes : m'.frames = frames at hchange
  cases hchange with
  | resumes h => exact h
  | @returns lower _ caller h v =>
    have hsame : caller.SameCall { caller with stack := caller.stack.push v } :=
      ⟨rfl, rfl, rfl, rfl, rfl, rfl⟩
    rw [h]
    exact (resumed_push hsame).push _
  | @enters lower _ g c h hfg hc =>
    have hsize : m.frames.size < m'.frames.size := by
      rw [hm, h, hframes, Array.size_push, Array.size_push, Array.size_push]
      exact Nat.lt_succ_self _
    obtain ⟨m₁, _, _, callee, positional, keywords, hx, -, -⟩ :=
      executed?_of_size_lt hm hl hstep hsize
    cases henter : m₁.enter callee positional keywords (some (m₁.frames.size - 1)) with
    | ok _ m₂ => simp [entered?, hx, henter] at hno
    | error F m₂ =>
      have horderly := (Raises.refused hx henter).orderly hm hl
      rwa [hstep, Progress.orderly_running, hframes] at horderly

/-- All frames have the cells of their callees. -/
structure CellsFit (m : Machine) (callees : Array (Option (Ref .function))) : Prop where
  size : callees.size = m.frames.size
  frames : ∀ (i : Nat) (f : Frame) (callee? : Option (Ref .function)),
    m.frames[i]? = some f → callees[i]? = some callee? → f.HasCells m.heap callee?

/-- Frames that stay keep their callees. -/
lemma CellsFit.stay (hm : m.CellsFit callees) (hstay : Stay m.frames m'.frames)
    (hh : m.heap.KeepsFunctions m'.heap) : m'.CellsFit (callees.take m'.frames.size) where
  size := by
    have := hstay.size_le
    have := hm.size
    simp
    omega
  frames i g callee? hg hcallee := by
    obtain ⟨f, hf, hsame⟩ := hstay i g hg
    have hcallee' : i < min m'.frames.size callees.size ∧ callees[i]? = some callee? := by
      simpa [Array.getElem?_extract] using hcallee
    exact (hm.frames i f callee? hf hcallee'.2).mono hsame hh

lemma CellsFit.push (hm : m.CellsFit callees) {g : Frame} {callee? : Option (Ref .function)}
    {heap : Heap} (hh : m.heap.KeepsFunctions heap) (hg : g.HasCells heap callee?) :
    ({ m with heap := heap, frames := m.frames.push g } : Machine).CellsFit
      (callees.push callee?) where
  size := by simp [hm.size]
  frames i f callee' hf hcallee := by
    rw [Array.getElem?_push] at hf hcallee
    rw [hm.size] at hcallee
    split at hf
    · next htop =>
      rw [if_pos htop] at hcallee
      cases hf
      cases hcallee
      exact hg
    · next htop =>
      rw [if_neg htop] at hcallee
      exact (hm.frames i f callee' hf hcallee).mono (.refl f) hh

/-- **One step** leaves every frame with the cells of its callee. -/
lemma CellsFit.step (hm : m.CellsFit callees) (hl : Linked m.frames) (hpos : 0 < m.frames.size) :
    m.step.machine.CellsFit (m.calleesAfter callees) := by
  obtain ⟨rest, f, hframes⟩ := Array.exists_push_of_size_pos hpos
  have hmoves := m.step_moves
  unfold calleesAfter
  cases hentered : m.entered? with
  | some callee =>
    obtain ⟨m₁, f', g, heap, positional, keywords, caller?, hmoves₁, hf', hsame, hcall, hstep⟩ :=
      step_entered hframes hentered
    have hstay : Stay m.frames m₁.frames := by
      rw [hframes, hf']
      exact (resumed_push hsame).stay
    have hm₁ := hm.stay hstay hmoves₁.keepsFunctions
    obtain ⟨hg, hh⟩ := callFrame_hasCells hcall
    -- The caller is still there, so that no callee is dropped before the new one is added.
    have hall : callees.take m₁.frames.size = callees := by
      rw [hf', Array.size_push, ← Array.size_push f, ← hframes, ← hm.size]
      simp
    rw [hstep]
    exact hall ▸ hm₁.push hh hg
  | none =>
    refine hm.stay ?_ hmoves.keepsFunctions
    have horderly := step_orderly hl hpos
    cases hstep : m.step with
    | running m' =>
      rw [hframes] at hl ⊢
      exact (step_resumed hframes hl hentered hstep).stay
    | finished m' r =>
      rw [hstep] at horderly
      have hnone : m'.frames = #[] := horderly.1
      intro i g hg
      simp [Progress.machine, hnone] at hg

/-- The innermost frame has the cell slot that its next instruction uses. -/
lemma CellsFit.slot_lt (hm : m.CellsFit callees) (hframes : m.frames = rest.push f)
    {i : Instruction} {next slot : Nat} (hdecode : f.code.unit.decode f.ip = .ok (some (i, next)))
    (hslot : i.slot? = some slot) : slot < f.cells.length := by
  have htop : m.frames[rest.size]? = some f := by simp [hframes]
  have hlt : rest.size < callees.size := by simp [hm.size, hframes]
  rw [(hm.frames rest.size f _ htop (Array.getElem?_eq_getElem hlt)).count]
  exact CodeUnit.decode_slot_lt hdecode hslot

/-- A step does not end the run because a cell slot is lacking. -/
lemma CellsFit.step_ne (hm : m.CellsFit callees) (offset slot count : Nat) :
    m.step ≠ .finished m' (.error (.fatal (.malformedCode offset (.noCellSlot slot count)))) := by
  intro hstep
  cases step_aborts hstep with
  | limit h => cases exceeded_isLimit h
  | undecodable _ hcode =>
    cases CodeUnit.decode_undecodable hcode with
    | defect hd => exact hd.2 slot rfl
  | fails hx =>
    obtain ⟨rest, f, hframes, hgo⟩ := executed?_some hx
    rw [executed?_push hframes, hgo] at hx
    split at hx
    · next i next _ hdecode =>
      rw [within_apply { m with steps := m.steps + 1 }] at hx
      split at hx
      · cases hx
      · next e a hrun =>
        cases hx
        obtain ⟨slot', hslot, hle⟩ := Exec.execute_lacking hrun
        exact absurd (hm.slot_lt hframes hdecode hslot) (Nat.not_lt.2 hle)
    · cases hx

/-! ## Requests -/

/-- A top-level run goes on only if its code captures nothing. -/
lemma freeNames_of_serve_run {code : CodeObject} {globals? locals? : Option (Ref .table)}
    (h : m.serve (.run code globals? locals?) = .running m') : code.unit.freeNames = [] := by
  by_cases hfree : code.unit.freeNames = []
  · exact hfree
  · have hcaptures : (!code.unit.freeNames.isEmpty) = true := by simpa using hfree
    simp only [serve, start, hcaptures, if_true] at h
    cases h

end Machine

/-- The function that a request calls. -/
def Request.callee? : Request → Option (Ref .function)
  | .call (.function callee) _ _ => some callee
  | _ => none

/-- The callees of the frames that a request begins with: there is one such frame, or none. -/
def Machine.calleesOf (m : Machine) (q : Request) : Array (Option (Ref .function)) :=
  #[q.callee?].take (m.serve q).machine.frames.size

lemma Request.Begins.hasCells {m : Machine} {q : Request} {f : Frame} {heap : Heap}
    (h : q.Begins m f heap) {m' : Machine} (hserve : m.serve q = .running m') :
    f.HasCells heap q.callee? ∧ m.heap.KeepsFunctions heap := by
  cases h with
  | @run code globals? locals? globals locals cells heap₁ _ htables hcells =>
    have hfree := Machine.freeNames_of_serve_run hserve
    have hlength := Machine.emptyCells_length heap₁ code.unit.cellNames
    have hwidens := Machine.emptyCells_widens heap₁ code.unit.cellNames
    rw [hcells] at hlength hwidens
    refine ⟨⟨?_, hfree⟩, .of_eq ?_⟩
    · show cells.length = code.unit.slotCount
      rw [UnitOver.slotCount, hfree]
      exact hlength
    · exact hwidens.functions.trans (Machine.moduleTables_cases htables).1.functions
  | call h => exact Machine.callFrame_hasCells h

namespace Machine

variable {m : Machine}

lemma cellsFit_of_frameless (hempty : m.frames = #[]) : m.CellsFit #[] where
  size := by simp [hempty]
  frames i f callee? hf := by simp [hempty] at hf

/-- A request begins with the cells of the function that it calls. -/
lemma serve_cellsFit (hempty : m.frames = #[]) (q : Request) :
    (m.serve q).machine.CellsFit (m.calleesOf q) := by
  have hready := readied_frames hempty q
  unfold calleesOf
  obtain ⟨heap, output, r, hserve, -⟩ | ⟨heap, f, hserve, hbegins, -⟩ := m.serve_begins q
  · rw [hserve]
    show CellsFit _ (#[q.callee?].take (m.readied q).frames.size)
    rw [hready]
    exact cellsFit_of_frameless hready
  · obtain ⟨hcells, hkeeps⟩ := hbegins.hasCells hserve
    have hbefore : ({ m.readied q with heap := m.heap } : Machine).CellsFit #[] :=
      cellsFit_of_frameless hready
    rw [hserve]
    show CellsFit _ (#[q.callee?].take ((m.readied q).frames.push f).size)
    have hone : #[q.callee?].take ((m.readied q).frames.push f).size = #[].push q.callee? := by
      rw [hready]
      rfl
    rw [hone]
    exact hbefore.push hkeeps hcells

end Machine

/-! ## Sessions -/

/-- What a session can come to, with the callees of its frames.  Between two requests the host may
change the heap as it likes. -/
inductive Calling : Array (Option (Ref .function)) → Progress → Prop
  | new (limits : Limits) (output : Output) :
    Calling #[] (.finished (.new limits output) (.ok .none))
  | request {callees : Array (Option (Ref .function))} {m : Machine} {r : RunResult}
    (h : Calling callees (.finished m r)) (heap : Heap) (output : Output) (q : Request) :
    Calling (({ m with heap := heap, output := output } : Machine).calleesOf q)
      (({ m with heap := heap, output := output } : Machine).serve q)
  | step {callees : Array (Option (Ref .function))} {m : Machine}
    (h : Calling callees (.running m)) : Calling (m.calleesAfter callees) m.step

section Sessions

variable {callees : Array (Option (Ref .function))} {p : Progress}

lemma Calling.reached (h : Calling callees p) : Reached p := by
  induction h with
  | new limits output => exact .new limits output
  | request h heap output q ih => exact ih.request heap output q
  | step h ih => exact ih.step

lemma Calling.cellsFit (h : Calling callees p) : p.machine.CellsFit callees := by
  induction h with
  | new limits output => exact Machine.cellsFit_of_frameless rfl
  | @request callees m r h heap output q ih =>
    exact Machine.serve_cellsFit (m := { m with heap := heap, output := output })
      h.reached.orderly.1 q
  | step h ih => exact ih.step h.reached.orderly.2 h.reached.orderly.1

/-- A request is not answered with the error that a cell slot is lacking: neither where it begins,
nor by its last step. -/
lemma Calling.ne_lacking {m : Machine} {r : RunResult} (h : Calling callees (.finished m r))
    (offset slot count : Nat) :
    r ≠ .error (.fatal (.malformedCode offset (.noCellSlot slot count))) := by
  rintro rfl
  generalize hp : Progress.finished m _ = p at h
  cases h with
  | new limits output => cases hp
  | @request _ m₀ _ _ heap output q =>
    obtain ⟨_, _, _, hserve, -, hfatal⟩ | ⟨_, _, hserve, -⟩ :=
      ({ m₀ with heap := heap, output := output } : Machine).serve_begins q
    · rw [hserve] at hp
      cases hp
      obtain ⟨_, hne⟩ := hfatal _ rfl
      cases hne
    · rw [hserve] at hp
      cases hp
  | step h => exact h.cellsFit.step_ne offset slot count hp.symm

/-- What is true of the cells while a run goes on. -/
structure Machine.SlotsMatch (m : Machine) (callees : Array (Option (Ref .function))) : Prop where
  /-- Before a step. -/
  cells : m.CellsFit callees
  /-- While it is being taken; the frames that are still there are the outer ones. -/
  passing : ∀ m', m.PassesThrough m' → m'.CellsFit (callees.take m'.frames.size)
  /-- An instruction that decodes finds its cell. -/
  slots : ∀ (rest : Array Frame) (f : Frame) (i : Instruction) (next slot : Nat),
    m.frames = rest.push f → f.code.unit.decode f.ip = .ok (some (i, next)) →
    i.slot? = some slot → slot < f.cells.length

/-- **Cell slots match the code unit.**  Whatever code has been run, well formed or not, and however
functions have been made, passed on and called: before every step, and in the middle of it as well,
each frame has as many cells as its code has cell slots, and those that are captured are the cells
of the function that has been called.  Therefore an instruction that decodes finds its cell, and no
request is ever answered with the error that a cell slot is out of range. -/
theorem cell_slots_match : Calling callees p → match p with
    | .running m => m.SlotsMatch callees
    | .finished _ r => ∀ offset slot count,
        r ≠ .error (.fatal (.malformedCode offset (.noCellSlot slot count))) := by
  intro h
  cases p with
  | running m =>
    have hfit : m.CellsFit callees := h.cellsFit
    refine ⟨hfit, ?_, ?_⟩
    · intro m' hpasses
      exact hfit.stay hpasses.stay hpasses.moves.keepsFunctions
    · intro rest f i next slot hframes hdecode hslot
      exact hfit.slot_lt hframes hdecode hslot
  | finished m r => exact h.ne_lacking

end Sessions

/-! ## A closure that is called -/

/-- The callees of the frames after up to `fuel` steps. -/
def Machine.calleesAlong : Nat → Array (Option (Ref .function)) → Progress →
    Array (Option (Ref .function))
  | 0, callees, _ => callees
  | _ + 1, callees, .finished _ _ => callees
  | fuel + 1, callees, .running m => calleesAlong fuel (m.calleesAfter callees) m.step

lemma Calling.advance {callees : Array (Option (Ref .function))} {p : Progress}
    (h : Calling callees p) (fuel : Nat) :
    Calling (Machine.calleesAlong fuel callees p) (Machine.advance fuel p) := by
  induction fuel generalizing callees p with
  | zero => exact h
  | succ fuel ih =>
    cases p with
    | finished m r => exact h
    | running m => exact ih h.step

/-- A function with one cell of its own and one that it captures; it returns what is in the
latter. -/
def capturingUnit : CodeUnit :=
  { (.named "inner" : CodeUnit) with
    code := #[0x58, 1, 0, 0x31]
    cellNames := ["own"]
    freeNames := ["captured"] }

/-- A program that puts a value in a cell and calls a function that captures the cell. -/
def enclosingRequest : Request :=
  .run ⟨0, [], { (.named "<module>" : CodeUnit) with
    code := #[0x50, 0, 0, 0x59, 0, 0, 0x57, 0, 0, 0x60, 1, 0, 0x50, 1, 0, 0x83, 0, 0, 0x81, 0, 0]
    consts := [.int 7, .code capturingUnit]
    cellNames := ["captured"] }⟩ none none

-- Irreducible, so that only the kernel ever evaluates such a run.
/-- A new machine that has run into the function that this program calls. -/
@[irreducible] def enclosingSession : Progress :=
  Machine.advance 7 ((Machine.new {} .console).serve enclosingRequest)

/-- The callees of its frames. -/
@[irreducible] def enclosingCallees : Array (Option (Ref .function)) :=
  Machine.calleesAlong 7 ((Machine.new {} .console).calleesOf enclosingRequest)
    ((Machine.new {} .console).serve enclosingRequest)

lemma calling_enclosingSession : Calling enclosingCallees enclosingSession := by
  unfold enclosingCallees enclosingSession
  have hnew := Calling.new {} .console
  exact (hnew.request _ .console enclosingRequest).advance 7

/-- There are two frames, and the inner one has captured the cell of the outer one; its next
instruction uses it. -/
theorem cell_slots_match_in_closure :
    enclosingCallees = #[none, some ⟨0⟩] ∧
    enclosingSession.machine.frames.toList.map (·.cells) = [[⟨0⟩], [⟨1⟩, ⟨0⟩]] ∧
    enclosingSession.machine.SlotsMatch enclosingCallees := by
  have hrunning : enclosingSession = .running enclosingSession.machine :=
    Progress.eq_running (by decide +kernel)
  have hcalling : Calling enclosingCallees (.running enclosingSession.machine) :=
    hrunning ▸ calling_enclosingSession
  exact ⟨by decide +kernel, by decide +kernel, cell_slots_match hcalling⟩

end StackMachine
