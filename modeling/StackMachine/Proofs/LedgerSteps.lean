import StackMachine.Proofs.CallStack
import StackMachine.Proofs.Decoding
import StackMachine.Proofs.LedgerOperations
/-!
# Steps keep to the ledger

What a frame does is sound for a ledger that knows its activation, and so is what the machine does
between frames.  A step therefore leads from a machine that is tracked to one that is tracked by a
ledger with more entries (`Machine.step_leads`), and so does a request whose values are known
(`Machine.serve_leads`).

One instruction is apart.  A code object that `LOAD_CONST` puts on the stack is entered only if the
constant is in the pool of the frame's own code, and that it is comes from decoding
(`CodeUnit.decode_constant`): the instruction by itself could name any constant.
-/

namespace StackMachine

open Ledger

namespace Recordable

instance : Recordable CodeObject := ⟨fun L o => L.Knows (Value.code o), fun hL h => mono hL h⟩

instance : Recordable Block := valueless _

instance : Recordable Frame :=
  ⟨fun L f => L.Knows f.stack ∧ L.Knows f.code, fun hL h => ⟨mono hL h.1, mono hL h.2⟩⟩

instance : Recordable Failure :=
  ⟨fun L e => ∀ F, e = .fault F → L.Knows F, fun hL h F he => mono hL (h F he)⟩

instance : Recordable Signal :=
  ⟨fun L s => (∀ v, s = .returning v → L.Knows v) ∧ ∀ F, s = .raising F → L.Knows F,
    fun hL h => ⟨fun v hv => mono hL (h.1 v hv), fun F hF => mono hL (h.2 F hF)⟩⟩

instance : Recordable Outcome :=
  ⟨fun L o => (∀ s, o = .signal s → L.Knows s) ∧
      ∀ callee positional keywords, o = .enter callee positional keywords →
        L.Knows positional ∧ L.Knows keywords,
    fun hL h => ⟨fun s hs => mono hL (h.1 s hs), fun callee positional keywords ho =>
      (h.2 callee positional keywords ho).imp (mono hL) (mono hL)⟩⟩

/-- The frame of an activation is known, and what it shares with the others. -/
structure OfActivation (L : Ledger) (a : Activation) : Prop where
  frame : L.Knows a.frame
  heap : L.Knows a.heap
  lastFault : L.Knows a.lastFault

instance : Recordable Activation :=
  ⟨OfActivation, fun hL h => ⟨mono hL h.frame, mono hL h.heap, mono hL h.lastFault⟩⟩

/-- All frames of a machine are known, and what they share. -/
structure OfMachine (L : Ledger) (m : Machine) : Prop where
  frames : L.Knows m.frames
  heap : L.Knows m.heap
  lastFault : L.Knows m.lastFault

instance : Recordable Machine :=
  ⟨OfMachine, fun hL h => ⟨mono hL h.frames, mono hL h.heap, mono hL h.lastFault⟩⟩

instance : Recordable Request :=
  ⟨fun L q => match q with
      | .run code _ _ => L.Knows code
      | .call callee positional keywords => L.Knows callee ∧ L.Knows positional ∧ L.Knows keywords
      | .reset => True,
    fun {_ _ q} hL h => match q with
      | .run .. => mono hL h
      | .call .. => ⟨mono hL h.1, mono hL h.2.1, mono hL h.2.2⟩
      | .reset => trivial⟩

end Recordable

instance : Stateful Activation := ⟨Activation.heap⟩

instance : Stateful Machine := ⟨Machine.heap⟩

namespace Ledger

variable {L : Ledger}

@[grind =] lemma knows_code {o : CodeObject} : L.Knows o ↔ L.Knows (Value.code o) := .rfl
@[simp, grind =] lemma knows_block (b : Block) : L.Knows b ↔ True := .rfl
@[grind =] lemma knows_frame {f : Frame} : L.Knows f ↔ L.Knows f.stack ∧ L.Knows f.code := .rfl
@[grind =] lemma knows_failure {e : Failure} : L.Knows e ↔ ∀ F, e = .fault F → L.Knows F := .rfl

@[grind =] lemma knows_signal {s : Signal} :
    L.Knows s ↔ (∀ v, s = .returning v → L.Knows v) ∧ ∀ F, s = .raising F → L.Knows F := .rfl

@[grind =] lemma knows_outcome {o : Outcome} : L.Knows o ↔ (∀ s, o = .signal s → L.Knows s) ∧
    ∀ callee positional keywords, o = .enter callee positional keywords →
      L.Knows positional ∧ L.Knows keywords := .rfl

@[grind =] lemma knows_activation {a : Activation} :
    L.Knows a ↔ L.Knows a.frame ∧ L.Knows a.heap ∧ L.Knows a.lastFault :=
  ⟨fun h => ⟨h.frame, h.heap, h.lastFault⟩, fun h => ⟨h.1, h.2.1, h.2.2⟩⟩

lemma knows_next : L.Knows Outcome.next := ⟨nofun, nofun⟩

lemma knows_enter {callee : Ref .function} {positional : List Value}
    {keywords : List (String × Value)} (hpositional : L.Knows positional)
    (hkeywords : L.Knows keywords) : L.Knows (Outcome.enter callee positional keywords) :=
  ⟨nofun, fun _ _ _ h => by cases h; exact ⟨hpositional, hkeywords⟩⟩

lemma knows_start {code : CodeObject} (hcode : L.Knows code) (globals locals builtins : Ref .table)
    (cells : List (Ref .cell)) (caller? : Option Nat) :
    L.Knows (Frame.start code globals locals builtins cells caller?) := ⟨nofun, hcode⟩

lemma knows_recursionDepth (limit : Nat) : L.Knows (Cause.recursionDepth limit) := nofun

lemma knows_raising {F : Fault} (hF : L.Knows F) : L.Knows (Signal.raising F) :=
  ⟨nofun, fun _ h => by cases h; exact hF⟩

lemma knows_faulted {F : Fault} (hF : L.Knows F) : L.Knows (.error (.fault F) : RunResult) :=
  knows_error.2 fun _ h => by cases h; exact hF

lemma knows_fatal (e : FatalError) : L.Knows (.error (.fatal e) : RunResult) := knows_error.2 nofun

lemma newFault_tracks {h : Heap} {c : Cause} (hh : L.Tracks h) (hc : L.Knows c) :
    L.Tracks (h.newFault c).2 ∧ L.Knows (h.newFault c).1 := by
  unfold Heap.newFault
  split
  · exact ⟨hh, hc _ rfl⟩
  · have hk := hh.knows
    exact ⟨⟨⟨hk.lists, hk.maps, hk.cursors, hk.cells, hk.tables, hk.functions⟩,
      fun i hi => hh.unused i (Nat.le_of_succ_le hi)⟩, trivial⟩

end Ledger

/-! ## Working on an activation -/

namespace Exec

variable {L : Ledger} {α : Type} [Recordable α] {v : Value}

@[grind ←] lemma modifyFrame_sound {f : Frame → Frame}
    (hf : ∀ L', L ≤ L' → ∀ g, L'.Knows g → L'.Knows (f g)) : L.Sound (modifyFrame f) :=
  sound_modify (fun L' hL _ ha => ⟨hf L' hL _ ha.frame, ha.heap, ha.lastFault⟩)
    fun _ => Nat.le_refl _

@[grind ←] lemma modifyOutput_sound (f : Output → Output) : L.Sound (modifyOutput f) :=
  sound_modify (fun _ _ _ ha => ⟨ha.frame, ha.heap, ha.lastFault⟩) fun _ => Nat.le_refl _

@[grind ←] lemma setLastFault_sound {F? : Option Fault} (hF : L.Knows F?) :
    L.Sound (setLastFault F?) :=
  sound_modify (fun _ hL _ ha => ⟨ha.frame, ha.heap, hF.mono hL⟩) fun _ => Nat.le_refl _

@[grind ←] lemma onHeap_sound {x : HeapM α} (hx : L.Sound x) : L.Sound (onHeap x) := by
  intro L₁ hL₁ a ha
  have hrun := hx L₁ hL₁ a.heap ⟨ha.knows.heap, ha.unused⟩
  unfold onHeap
  dsimp only
  split
  · next v heap hrun' =>
    rw [hrun'] at hrun
    obtain ⟨L₂, hL₂, hheap, hv⟩ := hrun
    exact ⟨L₂, hL₂, ⟨⟨ha.knows.frame.mono hL₂, hheap.knows, ha.knows.lastFault.mono hL₂⟩,
      hheap.unused⟩, hv⟩
  · next c heap hrun' =>
    rw [hrun'] at hrun
    obtain ⟨L₂, hL₂, hheap, hc⟩ := hrun
    obtain ⟨hheap', hF⟩ := newFault_tracks hheap hc
    refine ⟨L₂, hL₂, ⟨⟨ha.knows.frame.mono hL₂, hheap'.knows, ha.knows.lastFault.mono hL₂⟩,
      hheap'.unused⟩, ?_⟩
    rintro F ⟨⟩
    exact hF

@[grind ←] lemma raise_sound {c : Cause} (hc : L.Knows c) : L.Sound (raise c : Exec α) :=
  onHeap_sound (x := (throw c : HeapM α)) (sound_throw hc)

@[grind ←] lemma abort_sound (e : FatalError) : L.Sound (abort e : Exec α) := by
  unfold abort
  grind

@[grind ←] lemma malformed_sound (d : Defect) : L.Sound (malformed d : Exec α) := by
  unfold malformed
  grind

/-! ## The operand stack -/

@[grind ←] lemma push_sound (hv : L.Knows v) : L.Sound (push v) := by
  unfold push
  grind

@[grind ←] lemma pushAll_sound {vs : List Value} (hvs : L.Knows vs) : L.Sound (pushAll vs) := by
  induction vs generalizing L with
  | nil => exact sound_pure trivial
  | cons v vs ih =>
    unfold pushAll
    grind

@[grind ←] lemma peek_sound (depth : Nat) : L.Sound (peek depth) := by
  unfold peek
  grind

@[grind ←] lemma pop_sound : L.Sound pop := by
  unfold pop
  refine sound_bind sound_get fun L₁ _ a ha => ?_
  have htop := Knows.back? ha.frame.1
  grind

@[grind ←] lemma popN_sound (n : Nat) : L.Sound (popN n) := by
  unfold popN
  grind

@[grind ←] lemma truncate_sound (n : Nat) : L.Sound (truncate n) := by
  unfold truncate
  grind

/-! ## Names and cells -/

lemma lookup?_knows {h : Heap} (hh : L.Knows h) (name : String) (tables : List (Ref .table)) :
    L.Knows (lookup? h name tables) := by
  induction tables with
  | nil => simp [lookup?]
  | cons t rest ih =>
    have hfound := hh.lookup? t name
    unfold lookup?
    grind

lemma loadLocal_sound (name : String) : L.Sound (loadLocal name) := by
  refine sound_bind sound_get fun L₁ _ a ha => ?_
  have hfound := lookup?_knows ha.heap name [a.frame.locals]
  grind

lemma loadName_sound (name : String) : L.Sound (loadName name) := by
  refine sound_bind sound_get fun L₁ _ a ha => ?_
  have hfound := lookup?_knows ha.heap name [a.frame.locals, a.frame.globals, a.frame.builtins]
  grind

lemma loadGlobal_sound (name : String) : L.Sound (loadGlobal name) := by
  refine sound_bind sound_get fun L₁ _ a ha => ?_
  have hfound := lookup?_knows ha.heap name [a.frame.globals, a.frame.builtins]
  grind

lemma store_sound (table : Frame → Ref .table) (name : String) (hv : L.Knows v) :
    L.Sound (store table name v) :=
  sound_modify (fun _ hL a ha =>
    ⟨ha.frame, ha.heap.bind (table a.frame) name (hv.mono hL), ha.lastFault⟩) fun _ => Nat.le_refl _

@[grind ←] lemma storeLocal_sound (name : String) (hv : L.Knows v) : L.Sound (storeLocal name v) :=
  store_sound _ name hv

@[grind ←] lemma storeGlobal_sound (name : String) (hv : L.Knows v) :
    L.Sound (storeGlobal name v) := store_sound _ name hv

@[grind ←] lemma cell_sound (slot : Nat) : L.Sound (cell slot) := by
  unfold cell
  grind

lemma loadDeref_sound (slot : Nat) : L.Sound (loadDeref slot) := by
  refine sound_bind (cell_sound slot) fun L₁ _ c _ => sound_bind sound_get fun L₂ _ a ha => ?_
  have hcontent := ha.heap.cell? c
  grind

lemma storeDeref_sound (slot : Nat) (hv : L.Knows v) : L.Sound (storeDeref slot v) := by
  refine sound_bind (cell_sound slot) fun L₁ hL₁ c _ => ?_
  exact sound_modify (fun _ hL a ha =>
    ⟨ha.frame, ha.heap.setCell c ((hv.mono hL₁).mono hL), ha.lastFault⟩) fun _ => Nat.le_refl _

/-! ## Jumps and blocks -/

@[grind ←] lemma jump_sound (target : Nat) : L.Sound (jump target) := by
  unfold jump
  grind

@[grind ←] lemma pushBlock_sound (kind : BlockKind) (handler : Nat) :
    L.Sound (pushBlock kind handler) := by
  unfold pushBlock
  grind

@[grind ←] lemma popBlock_sound : L.Sound popBlock := by
  unfold popBlock
  grind

/-! ## Unwinding -/

lemma storedFault?_knows {trace value : Value} (hvalue : L.Knows value) (kind : Value) :
    L.Knows (storedFault? trace value kind) := by
  unfold storedFault?
  grind

@[grind ←] lemma pushFault_sound {F : Fault} (hF : L.Knows F) : L.Sound (pushFault F) := by
  unfold pushFault
  grind

@[grind ←] lemma catchFault_sound {F : Fault} (hF : L.Knows F) : L.Sound (catchFault F) := by
  unfold catchFault
  grind

@[grind ←] lemma leaveBlock_sound (b : Block) : L.Sound (leaveBlock b) := by
  unfold leaveBlock
  grind [storedFault?_knows]

@[grind ←] lemma absorbed_sound (b : Block) {s : Signal} (hs : L.Knows s) :
    L.Sound (absorbed b s) := by
  unfold absorbed
  grind

lemma unwindThrough_sound {s : Signal} (hs : L.Knows s) (blocks : List Block) :
    L.Sound (unwindThrough s blocks) := by
  induction blocks generalizing L with
  | nil => exact sound_pure (knows_some.2 hs)
  | cons b rest ih =>
    unfold unwindThrough
    grind

lemma unwind_sound {s : Signal} (hs : L.Knows s) : L.Sound (unwind s) :=
  sound_bind sound_get fun _ hL _ _ => unwindThrough_sound (hs.mono hL) _

lemma endFinally_sound : L.Sound endFinally := by
  refine sound_bind pop_sound fun L₁ _ marker _ => ?_
  split
  case h_5 kind _ =>
    refine sound_bind pop_sound fun L₂ _ value hvalue => ?_
    refine sound_bind pop_sound fun L₃ hL₃ trace _ => ?_
    have hF : L₃.Knows (storedFault? trace value (.exceptionType kind)) :=
      storedFault?_knows (hvalue.mono hL₃) _
    exact sound_pure (hF.optionMap fun F => knows_raising)
  all_goals grind

lemma popExcept_sound : L.Sound popExcept := by
  unfold popExcept
  grind

/-! ## Instructions -/

lemma popCode_sound : L.Sound popCode := by
  unfold popCode
  grind

lemma cellsOf_sound (vs : List Value) : L.Sound (cellsOf vs) := by
  induction vs generalizing L with
  | nil => exact sound_pure knows_nil
  | cons v vs ih =>
    unfold cellsOf
    grind

lemma popCells_sound : L.Sound popCells := by
  unfold popCells
  grind [cellsOf_sound]

lemma make_sound {code : CodeObject} {defaults : List Value} {globals : Ref .table}
    {closure : List (Ref .cell)} {allocate : Heap → Ref .function × Heap}
    (hok : Function.make code defaults globals closure = .ok allocate) (hcode : L.Knows code)
    (hdefaults : L.Knows defaults) : L.Sound (HeapM.make allocate) := by
  unfold Function.make at hok
  split at hok
  · cases hok
  · cases hok
    refine sound_make (fun L' hL h hh => ⟨trivial, ?_⟩) fun h => Nat.le_refl _
    exact ⟨hh.lists, hh.maps, hh.cursors, hh.cells, knows_push.2 ⟨hh.tables, knows_empty⟩,
      knows_push.2 ⟨hh.functions, hcode.mono hL, hdefaults.mono hL⟩⟩

lemma makeFunction_sound {code : CodeObject} {defaults : List Value} (closure : List (Ref .cell))
    (hcode : L.Knows code) (hdefaults : L.Knows defaults) :
    L.Sound (makeFunction code defaults closure) := by
  refine sound_bind sound_get fun L₁ hL₁ a _ => ?_
  split
  · exact abort_sound _
  · next allocate hok =>
    exact sound_bind (onHeap_sound (make_sound hok (hcode.mono hL₁) (hdefaults.mono hL₁)))
      fun _ _ _ _ => push_sound trivial

lemma keywordArguments_sound (vs : List Value) (hvs : L.Knows vs) :
    L.Sound (keywordArguments vs) := by
  induction vs using keywordArguments.induct generalizing L with
  | case1 id name v rest ih =>
    unfold keywordArguments
    grind
  | case2 | case3 =>
    unfold keywordArguments
    grind

@[grind ←] lemma invoke_sound (v : Value) {args : List Value} (hargs : L.Knows args)
    (keywords : List (String × Value)) : L.Sound (invoke v args keywords) := by
  unfold invoke
  grind

lemma raised_sound (count : Nat) : L.Sound (raised count) := by
  unfold raised
  split
  · refine sound_bind sound_get fun L₁ _ a ha => ?_
    have hlast := ha.lastFault
    grind
  all_goals grind [Value.raised_knows]

@[grind ←] lemma jumpIf_sound (condition : Bool) (target : Nat) :
    L.Sound (jumpIf condition target) := by
  unfold jumpIf
  grind

lemma compared_sound (op : CompareOp) (a b : Value) :
    L.Sound (do HeapM.ofExcept (Value.compare (← get) op a b)) :=
  sound_bind sound_get fun _ _ _ _ => ofExcept_sound (Value.compare_knows _ op a b)

/-- Loading a constant is apart: it depends on the code of the frame. -/
lemma perform_sound {i : Instruction} (hi : ∀ place c, i ≠ .loadConst place c) :
    L.Sound (perform i) := by
  cases i
  case loadConst place c => exact absurd rfl (hi place c)
  case compare op =>
    refine sound_bind pop_sound fun _ _ b _ => sound_bind pop_sound fun _ _ a _ => ?_
    exact sound_bind (onHeap_sound (compared_sound op a b)) fun _ _ _ _ => push_sound trivial
  case listAppend depth =>
    refine sound_bind pop_sound fun L₁ _ v hv => ?_
    have hpush : ∀ L₂, L₁ ≤ L₂ → ∀ r : Ref .list,
        L₂.Sound (modify fun h => h.modifyList r (·.push v) : HeapM Unit) := fun L₂ hL₂ r =>
      modify_sound (fun L₃ hL₃ h hh => hh.modifyList r fun xs hxs =>
        knows_push.2 ⟨hxs, (hv.mono hL₂).mono hL₃⟩) fun _ => rfl
    by_cases hdepth : depth = 0
    · rw [if_pos hdepth]
      refine sound_bind (malformed_sound _) fun L₂ hL₂ _ _ => ?_
      refine sound_bind (peek_sound _) fun L₃ hL₃ target _ => ?_
      have hpush₃ := hpush L₃ (le_trans hL₂ hL₃)
      grind
    · rw [if_neg hdepth]
      refine sound_bind (peek_sound _) fun L₂ hL₂ target _ => ?_
      have hpush₂ := hpush L₂ hL₂
      grind
  all_goals
    simp only [perform, jumpIfOrPop, popJumpIf]
    grind [Value.unary_knows, Value.getAttribute_sound, Value.setAttribute_sound, loadDeref_sound,
      storeDeref_sound, loadLocal_sound, loadGlobal_sound, loadName_sound, makeFunction_sound,
      popCells_sound, popCode_sound, popExcept_sound]

/-- The constant that is loaded has to be in the pool of the frame's code. -/
lemma perform_reaches {a : Activation} {i : Instruction} (ha : L.Tracks a)
    (hi : ∀ place c, i = .loadConst place c → a.frame.code.unit.consts[place]? = some c) :
    L.Reaches (perform i a) := by
  by_cases hload : ∃ place c, i = .loadConst place c
  · obtain ⟨place, c, rfl⟩ := hload
    have hcode : (L.units a.frame.code.origin).constant? a.frame.code.path =
        some (.code a.frame.code.unit) := ha.knows.frame.2
    have hconst : (L.units a.frame.code.origin).constant? (place :: a.frame.code.path) =
        some c := by
      rw [CodeUnit.constant?, hcode]
      exact hi place c rfl
    have hsound : L.Sound (onHeap (Value.ofConst a.frame.code.origin
        (place :: a.frame.code.path) c) >>= push) :=
      sound_bind (onHeap_sound (Value.ofConst_sound c hconst)) fun _ _ _ hv => push_sound hv
    exact hsound L (le_refl L) a ha
  · exact perform_sound (fun place c h => hload ⟨place, c, h⟩) L (le_refl L) a ha

lemma execute_callFunction_sound (positional keyword : Nat) :
    L.Sound (execute (.callFunction positional keyword)) := by
  refine sound_bind (popN_sound _) fun L₁ hL₁ pairs hpairs => ?_
  refine sound_bind (popN_sound _) fun L₂ hL₂ args hargs => ?_
  refine sound_bind pop_sound fun L₃ hL₃ callee _ => ?_
  have hpairs₃ : L₃.Knows pairs := (hpairs.mono hL₂).mono hL₃
  refine sound_bind (keywordArguments_sound pairs hpairs₃) fun L₄ hL₄ keywords hkeywords => ?_
  have hargs₄ : L₄.Knows args := (hargs.mono hL₃).mono hL₄
  split
  · exact sound_pure (knows_enter hargs₄ hkeywords)
  · exact sound_bind (invoke_sound _ hargs₄ keywords) fun _ _ _ _ => sound_pure knows_next

lemma execute_reaches {a : Activation} {i : Instruction} (ha : L.Tracks a)
    (hi : ∀ place c, i = .loadConst place c → a.frame.code.unit.consts[place]? = some c) :
    L.Reaches (execute i a) := by
  cases i
  case callFunction positional keyword =>
    exact execute_callFunction_sound positional keyword L (le_refl L) a ha
  case breakLoop | continueLoop | returnValue | endFinally | raiseVarargs =>
    refine (?_ : L.Sound (execute _)) L (le_refl L) a ha
    simp only [execute]
    grind [endFinally_sound, raised_sound]
  all_goals
    exact reaches_bind (perform_reaches ha hi) fun _ _ _ _ => sound_pure knows_next

end Exec

/-- An instruction that loads a constant names it by its place in the pool. -/
lemma CodeUnit.decode_constant {unit : CodeUnit} {offset place next : Nat} {c : Const}
    (h : unit.decode offset = .ok (some (.loadConst place c, next))) :
    unit.consts[place]? = some c := by
  obtain ⟨f, -, -, hinstruction⟩ := decode_ok h
  rcases f with ⟨op, raw, next⟩
  cases op
  case loadConst =>
    obtain ⟨c', hc', heq⟩ := map_eq_ok hinstruction
    cases heq
    unfold RawArgument.constant CodeUnit.entry at hc'
    split at hc'
    · next hplace =>
      cases hc'
      exact hplace
    · cases hc'
  all_goals first | cases hinstruction | (obtain ⟨_, -, heq⟩ := map_eq_ok hinstruction; cases heq)

/-! ## Steps of the machine -/

/-- A ledger with more entries tracks the machine, and it knows the result if there is one. -/
def Ledger.Leads (L : Ledger) (p : Progress) : Prop :=
  ∃ L', L ≤ L' ∧ L'.Tracks p.machine ∧ ∀ m r, p = .finished m r → L'.Knows r

namespace Machine

variable {L L' : Ledger} {m : Machine} {rest : Array Frame} {f : Frame} {F : Fault} {c : Cause}

lemma leads_of_le {p : Progress} (hL : L ≤ L') (h : L'.Leads p) : L.Leads p := by
  obtain ⟨L₁, hL₁, h⟩ := h
  exact ⟨L₁, le_trans hL hL₁, h⟩

lemma leads_running (hm : L.Tracks m) : L.Leads (.running m) :=
  ⟨L, le_refl L, hm, fun _ _ h => by cases h⟩

lemma leads_finished {r : RunResult} (hm : L.Tracks m) (hr : L.Knows r) :
    L.Leads (.finished m r) :=
  ⟨L, le_refl L, hm, fun _ _ h => by cases h; exact hr⟩

lemma tracks_frames (hm : L.Tracks m) {frames : Array Frame} (hframes : L.Knows frames) :
    L.Tracks { m with frames := frames } :=
  ⟨⟨hframes, hm.knows.heap, hm.knows.lastFault⟩, hm.unused⟩

lemma tracks_heap (hm : L.Knows m) (hL : L ≤ L') {heap : Heap} (hheap : L'.Tracks heap) :
    L'.Tracks { m with heap := heap } :=
  ⟨⟨hm.frames.mono hL, hheap.knows, hm.lastFault.mono hL⟩, hheap.unused⟩

lemma tracks_output (hm : L.Tracks m) (output : Output) : L.Tracks { m with output := output } :=
  ⟨⟨hm.knows.frames, hm.knows.heap, hm.knows.lastFault⟩, hm.unused⟩

lemma tracks_lastFault (hm : L.Tracks m) (hF : L.Knows F) :
    L.Tracks { m with lastFault := some F } :=
  ⟨⟨hm.knows.frames, hm.knows.heap, knows_some.2 hF⟩, hm.unused⟩

lemma tracks_activation (hm : L.Tracks m) (hf : L.Knows f) : L.Tracks (m.activation f) :=
  ⟨⟨hf, hm.knows.heap, hm.knows.lastFault⟩, hm.unused⟩

lemma tracks_resume {a : Activation} (ha : L.Tracks a) {frames : Array Frame}
    (hframes : L.Knows frames) : L.Tracks (m.resume frames a) :=
  ⟨⟨hframes, ha.knows.heap, ha.knows.lastFault⟩, ha.unused⟩

lemma abandon_leads (hm : L.Tracks m) (e : FatalError) : L.Leads (m.abandon e) :=
  leads_finished (tracks_frames hm knows_emptyArray) (knows_fatal e)

lemma handBack_leads (hm : L.Tracks m) (f : Frame) {v : Value} (hv : L.Knows v) :
    L.Leads (m.handBack f v) := by
  unfold handBack
  split
  · exact leads_finished hm (knows_ok.2 hv)
  · split
    · refine leads_running (tracks_frames hm (hm.knows.frames.modify _ fun g hg => ?_))
      exact ⟨knows_push.2 ⟨hg.1, hv⟩, hg.2⟩
    · exact abandon_leads hm _

/-- The induction is on the number of frames that a fault leaves. -/
lemma deliver_leads (hm : L.Tracks m) {s : Signal} (hs : L.Knows s) (depth : Nat) :
    L.Leads (m.deliver s depth) := by
  induction depth generalizing L m s with
  | zero => exact abandon_leads hm _
  | succ depth ih =>
    by_cases hempty : m.frames = #[]
    · rw [deliver_empty hempty]
      exact abandon_leads hm _
    · obtain ⟨rest, f, hframes⟩ := Array.exists_push_of_ne_empty hempty
      have hknows := hm.knows.frames
      rw [hframes] at hknows
      obtain ⟨hrest, hf⟩ := knows_push.1 hknows
      have hreaches := Exec.unwind_sound hs L (le_refl L) _ (tracks_activation hm hf)
      rw [deliver_push hframes]
      rcases hunwind : Exec.unwind s (m.activation f) with ⟨s'?, a⟩ | ⟨e, a⟩ <;>
        rw [hunwind] at hreaches <;> obtain ⟨L', hL, ha, hresult⟩ := hreaches <;>
        refine leads_of_le hL ?_
      · have hrest' : L'.Tracks (m.resume rest a) := tracks_resume ha (hrest.mono hL)
        rcases s'? with _ | s'
        · exact leads_running (tracks_resume ha (knows_push.2 ⟨hrest.mono hL, ha.knows.frame⟩))
        · have hs' : L'.Knows s' := knows_some.1 hresult
          cases s' with
          | returning v => exact handBack_leads hrest' a.frame (hs'.1 v rfl)
          | raising F =>
            have hF : L'.Knows (F.leaving a.frame) := hs'.2 F rfl
            dsimp only
            split
            · exact leads_finished hrest' (knows_faulted hF)
            · exact ih (tracks_lastFault hrest' hF) (knows_raising hF)
          | breaking => exact leads_finished (tracks_resume ha knows_emptyArray) (knows_fatal _)
          | continuing target =>
            exact leads_finished (tracks_resume ha knows_emptyArray) (knows_fatal _)
      · cases e with
        | fault F =>
          exact leads_finished (tracks_resume ha (knows_push.2 ⟨hrest.mono hL, ha.knows.frame⟩))
            (knows_error.2 hresult)
        | fatal e => exact leads_finished (tracks_resume ha knows_emptyArray) (knows_fatal _)

lemma fault_leads (hm : L.Tracks m) (hF : L.Knows F) : L.Leads (m.fault F) :=
  deliver_leads (tracks_lastFault hm hF) (knows_raising hF) _

section Calls

variable {callee : Ref .function} {positional : List Value} {keywords : List (String × Value)}

lemma callFrame_sound (builtins : Ref .table) (callee : Ref .function) (caller? : Option Nat)
    (hpositional : L.Knows positional) (hkeywords : L.Knows keywords) :
    L.Sound (callFrame builtins callee positional keywords caller?) := by
  refine sound_bind sound_get fun L₁ hL₁ h hh => ?_
  have hfunction := hh.function? callee
  split
  · next F hF =>
    have hF₁ : L₁.Knows F := hfunction F hF
    refine sound_bind (F.startLocals_sound hF₁ (hpositional.mono hL₁) (hkeywords.mono hL₁))
      fun L₂ hL₂ locals _ => ?_
    exact sound_bind (F.startCells_sound locals) fun L₃ hL₃ cells _ =>
      sound_pure (knows_start ((hF₁.1.mono hL₂).mono hL₃) _ _ _ _ _)
  · exact sound_throw nofun

lemma enter_reaches (hm : L.Tracks m) (hpositional : L.Knows positional)
    (hkeywords : L.Knows keywords) (callee : Ref .function) (caller? : Option Nat) :
    L.Reaches (m.enter callee positional keywords caller?) := by
  have hreaches := callFrame_sound m.builtins callee caller? hpositional hkeywords L (le_refl L)
    m.heap ⟨hm.knows.heap, hm.unused⟩
  unfold enter
  dsimp only
  cases hcall : callFrame m.builtins callee positional keywords caller? m.heap with
  | error c heap =>
    rw [hcall] at hreaches
    obtain ⟨L', hL, hheap, hc⟩ := hreaches
    obtain ⟨hheap', hF⟩ := newFault_tracks hheap hc
    exact ⟨L', hL, tracks_heap hm.knows hL hheap', hF⟩
  | ok g heap =>
    rw [hcall] at hreaches
    obtain ⟨L', hL, hheap, hg⟩ := hreaches
    dsimp only
    split
    · obtain ⟨hheap', hF⟩ := newFault_tracks hheap (knows_recursionDepth m.limits.maxDepth)
      exact ⟨L', hL, tracks_heap hm.knows hL hheap', hF⟩
    · have hframes : L'.Knows (m.frames.push g) := knows_push.2 ⟨hm.knows.frames.mono hL, hg⟩
      exact ⟨L', hL, tracks_frames (tracks_heap hm.knows hL hheap) hframes, trivial⟩

lemma proceed_leads {r : EStateM.Result Failure Machine Outcome} (hr : L.Reaches r) :
    L.Leads (proceed r) := by
  rcases r with ⟨o, m⟩ | ⟨e, m⟩ <;> obtain ⟨L', hL, hm, ho⟩ := hr <;> refine leads_of_le hL ?_
  · cases o with
    | next => exact leads_running hm
    | signal s => exact deliver_leads hm (ho.1 s rfl) _
    | enter callee positional keywords =>
      obtain ⟨hpositional, hkeywords⟩ := ho.2 _ _ _ rfl
      have hreaches := enter_reaches hm hpositional hkeywords callee (some (m.frames.size - 1))
      simp only [proceed]
      cases henter : m.enter callee positional keywords (some (m.frames.size - 1)) <;>
        rw [henter] at hreaches <;> obtain ⟨L'', hL', hm', hF⟩ := hreaches <;>
        refine leads_of_le hL' ?_
      · exact leads_running hm'
      · exact fault_leads hm' hF
  · cases e with
    | fault F => exact fault_leads hm (ho F rfl)
    | fatal e => exact abandon_leads hm e

lemma within_reaches {α : Type} [Recordable α] {x : Exec α} (hrest : L.Knows rest)
    (hx : L.Reaches (x (m.activation f))) :
    L.Reaches (({ m with frames := rest } : Machine).within f x) := by
  rw [within_apply]
  cases hrun : x (m.activation f) <;> rw [hrun] at hx <;> obtain ⟨L', hL, ha, hv⟩ := hx <;>
    exact ⟨L', hL, tracks_resume ha (knows_push.2 ⟨hrest.mono hL, ha.knows.frame⟩), hv⟩

/-- **Steps** lead on. -/
lemma step_leads (hm : L.Tracks m) : L.Leads m.step := by
  let counted : Machine := { m with steps := m.steps + 1 }
  have hcounted : L.Tracks counted :=
    ⟨⟨hm.knows.frames, hm.knows.heap, hm.knows.lastFault⟩, hm.unused⟩
  cases hgo : exceeded m.limits (m.steps + 1) m.topHeight with
  | some e =>
    rw [step_stopped hgo]
    exact abandon_leads hcounted e
  | none =>
    by_cases hempty : m.frames = #[]
    · rw [step_empty hempty hgo]
      exact abandon_leads hcounted _
    · obtain ⟨rest, f, hframes⟩ := Array.exists_push_of_ne_empty hempty
      rw [topHeight_push hframes] at hgo
      have hknows := hm.knows.frames
      rw [hframes] at hknows
      obtain ⟨hrest, hf⟩ := knows_push.1 hknows
      have hbelow := tracks_frames hcounted hrest
      rcases hdecode : f.code.unit.decode f.ip with e | _ | ⟨i, next⟩
      · rw [step_undecodable hframes hgo hdecode]
        exact abandon_leads hbelow e
      · rw [step_exhausted hframes hgo hdecode]
        exact handBack_leads hbelow f trivial
      · rw [step_working hframes hgo hdecode]
        have ha : L.Tracks (counted.activation { f with lastIp := f.ip, ip := next }) :=
          tracks_activation hcounted (f := { f with lastIp := f.ip, ip := next }) hf
        refine proceed_leads (within_reaches (m := counted) hrest (Exec.execute_reaches ha ?_))
        rintro place c rfl
        exact CodeUnit.decode_constant hdecode

/-! ## Requests -/

lemma moduleTables_tracks {h : Heap} (hh : L.Tracks h) (globals? locals? : Option (Ref .table)) :
    L.Tracks (moduleTables globals? locals? h).2 := by
  unfold moduleTables
  split
  · exact hh
  · have hname : L.Knows (Dictionary.ofList [("__name__", (h.newStr "__main__").1)]) :=
      knows_ofList fun b hb => by
        rw [List.mem_singleton.1 hb]
        trivial
    have hk := hh.knows
    exact ⟨⟨hk.lists, hk.maps, hk.cursors, hk.cells, knows_push.2 ⟨hk.tables, hname⟩,
      hk.functions⟩, fun i hi => hh.unused i (Nat.le_of_succ_le hi)⟩

lemma emptyCells_tracks {h : Heap} (hh : L.Tracks h) (names : List String) :
    L.Tracks (emptyCells h names).2 := by
  induction names generalizing h with
  | nil => exact hh
  | cons name rest ih =>
    have hk := hh.knows
    exact ih (h := (h.newCell none).2) ⟨⟨hk.lists, hk.maps, hk.cursors,
      knows_push.2 ⟨hk.cells, knows_none.2 trivial⟩, hk.tables, hk.functions⟩, hh.unused⟩

lemma reset_tracks (hm : L.Tracks m) : L.Tracks m.reset :=
  ⟨⟨knows_emptyArray, hm.knows.heap, knows_none.2 trivial⟩, hm.unused⟩

lemma start_leads (hm : L.Tracks m) {code : CodeObject} (hcode : L.Knows code)
    (globals? locals? : Option (Ref .table)) : L.Leads (m.start code globals? locals?) := by
  have hreset := reset_tracks hm
  by_cases hfree : !code.unit.freeNames.isEmpty
  · simp only [start, hfree, if_true]
    exact leads_finished hreset (knows_fatal _)
  · have hmodule := moduleTables_tracks (h := m.heap) ⟨hm.knows.heap, hm.unused⟩ globals? locals?
    have hheap := emptyCells_tracks hmodule code.unit.cellNames
    rcases htables : moduleTables globals? locals? m.heap with ⟨⟨globals, locals⟩, heap⟩
    rw [htables] at hheap
    rcases hcells : emptyCells heap code.unit.cellNames with ⟨cells, heap'⟩
    rw [hcells] at hheap
    by_cases hfull : m.limits.maxDepth ≤ 0
    · simp only [start, reset, hfree, htables, hcells, Array.size_empty, hfull, if_true]
      obtain ⟨hheap', hF⟩ := newFault_tracks hheap (knows_recursionDepth m.limits.maxDepth)
      exact leads_finished (tracks_heap hreset.knows (le_refl L) hheap') (knows_faulted hF)
    · simp only [start, reset, hfree, htables, hcells, Array.size_empty, hfull, if_false]
      exact leads_running (tracks_frames (tracks_heap hreset.knows (le_refl L) hheap)
        (knows_push.2 ⟨knows_emptyArray, knows_start hcode _ _ _ _ _⟩))

lemma startCall_leads (hm : L.Tracks m) (callee : Value) (hpositional : L.Knows positional)
    (hkeywords : L.Knows keywords) : L.Leads (m.startCall callee positional keywords) := by
  unfold startCall
  split
  · next r =>
    have hreaches := enter_reaches hm hpositional hkeywords r none
    cases henter : m.enter r positional keywords none <;> rw [henter] at hreaches <;>
      obtain ⟨L', hL, hm', hF⟩ := hreaches <;> refine leads_of_le hL ?_
    · exact leads_running hm'
    · exact leads_finished hm' (knows_faulted hF)
  · have hreaches := Value.invoke_sound callee hpositional keywords L (le_refl L) m.heap
      ⟨hm.knows.heap, hm.unused⟩
    dsimp only
    cases hinvoke : callee.invoke positional keywords m.heap <;> rw [hinvoke] at hreaches <;>
      obtain ⟨L', hL, hheap, hresult⟩ := hreaches <;> refine leads_of_le hL ?_
    · exact leads_finished (tracks_output (tracks_heap hm.knows hL hheap) _) (knows_ok.2 hresult)
    · obtain ⟨hheap', hF⟩ := newFault_tracks hheap hresult
      exact leads_finished (tracks_heap hm.knows hL hheap') (knows_faulted hF)

/-- **Requests** lead on whose values are known. -/
lemma serve_leads (hm : L.Tracks m) {q : Request} (hq : L.Knows q) : L.Leads (m.serve q) := by
  cases q with
  | run code globals? locals? => exact start_leads hm hq globals? locals?
  | call callee positional keywords => exact startCall_leads hm callee hq.2.1 hq.2.2
  | reset => exact leads_finished (reset_tracks hm) (knows_ok.2 trivial)

end Calls

end Machine

end StackMachine
