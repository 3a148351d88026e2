import Mathlib.Order.Defs.Unbundled
import Mathlib.Tactic.Lemma
import StackMachine.Proofs.Decoding
import StackMachine.Proofs.Primitives
import StackMachine.Run.Execute
/-!
# What an instruction leaves alone

An instruction works on one activation.  Of its frame it may change the operand stack, the blocks
and the place of execution; the code, the tables of names, the cells and the link to the caller are
those that the frame was entered with (`SameCall`).  What has been printed it cannot take back
(`Output.Continues`).  And an instruction that fails does so with a guest fault or with an error of
its own code: the limits of a run and the call stack are out of its sight, so it never reports an
error about them (`Failure.OfCode`).

All of these are of one kind, "however a program ends, its end is related to its start", which is
`Exec.Keeps`.  For a preorder it passes from the parts of a program to the whole, so each program
needs a lemma about itself only, and `grind` assembles them.

How many values a program adds to the operand stack is not of that kind, since it depends on how the
program ends (`Adds`).  Most programs add none, which again is a matter of a preorder (`Sinking`),
and an instruction is such a program with at most one push at its end.  The main result is
`execute_rising`; `execute_confined` is the part of it about the frame.
-/

namespace StackMachine

namespace Exec

/-- However the program ends, `R` relates the state that it was given to the one that it leaves, and
a failure is one of `E`.  The state is an activation, or it is a heap. -/
def Keeps {ε σ α : Type} (R : σ → σ → Prop) (E : ε → Prop) (x : EStateM ε σ α) : Prop :=
  ∀ a, match x a with
    | .ok _ b => R a b
    | .error e b => R a b ∧ E e

/-! ## Programs made of programs -/

section Composition

variable {ε σ α β : Type} {R : σ → σ → Prop} {E : ε → Prop} [IsPreorder σ R]

@[grind ←] lemma keeps_pure (v : α) : Keeps R E (pure v) := fun a => refl_of R a

@[grind ←] lemma keeps_get : Keeps R E get := fun a => refl_of R a

@[grind ←] lemma keeps_bind {x : EStateM ε σ α} {f : α → EStateM ε σ β} (hx : Keeps R E x)
    (hf : ∀ v, Keeps R E (f v)) : Keeps R E (x >>= f) := by
  intro a
  have hxa := hx a
  simp only [bind, EStateM.bind]
  cases h : x a with
  | error e b => simpa only [h] using hxa
  | ok v b =>
    simp only [h] at hxa ⊢
    have hfb := hf v b
    cases h' : f v b with
    | ok w c =>
      simp only [h'] at hfb ⊢
      exact trans_of R hxa hfb
    | error e c =>
      simp only [h'] at hfb ⊢
      exact ⟨trans_of R hxa hfb.1, hfb.2⟩

@[grind ←] lemma keeps_throw {e : ε} (he : E e) : Keeps R E (throw e : EStateM ε σ α) :=
  fun a => ⟨refl_of R a, he⟩

omit [IsPreorder σ R] in
@[grind ←] lemma keeps_map {x : EStateM ε σ α} (f : α → β) (hx : Keeps R E x) :
    Keeps R E (f <$> x) := by
  intro a
  have hxa := hx a
  simp only [Functor.map, EStateM.map]
  cases hrun : x a with
  | ok v b => simpa only [hrun] using hxa
  | error e b => simpa only [hrun] using hxa

end Composition

lemma Keeps.mono {ε σ α : Type} {R S : σ → σ → Prop} {E : ε → Prop} {x : EStateM ε σ α}
    (h : Keeps R E x) (hRS : ∀ a b, R a b → S a b) : Keeps S E x := by
  intro a
  have hxa := h a
  cases hx : x a with
  | ok v b =>
    rw [hx] at hxa
    exact hRS a b hxa
  | error e b =>
    rw [hx] at hxa
    exact ⟨hRS a b hxa.1, hxa.2⟩

end Exec

/-! ## Programs that only check their arguments -/

section Arguments

open Exec

variable {R : Heap → Heap → Prop} [IsPreorder Heap R] {α : Type}

@[grind ←] lemma HeapM.ofExcept_keeps (x : Except Cause α) :
    Keeps R (fun _ => True) (HeapM.ofExcept x) := by
  cases x with
  | ok v => exact keeps_pure v
  | error c => exact keeps_throw trivial

namespace Method

variable (m : Method) (args : List Value)

@[grind ←] lemma noArguments_keeps : Keeps R (fun _ => True) (m.noArguments args) := by
  unfold noArguments
  grind

@[grind ←] lemma oneArgument_keeps : Keeps R (fun _ => True) (m.oneArgument args) := by
  unfold oneArgument
  grind

@[grind ←] lemma twoArguments_keeps : Keeps R (fun _ => True) (m.twoArguments args) := by
  unfold twoArguments
  grind

@[grind ←] lemma optionalArgument_keeps : Keeps R (fun _ => True) (m.optionalArgument args) := by
  unfold optionalArgument
  grind

@[grind ←] lemma keyAndDefault_keeps : Keeps R (fun _ => True) (m.keyAndDefault args) := by
  unfold keyAndDefault
  grind

end Method

end Arguments

/-! ## Confined programs -/

/-- Two states of a frame between which it has stayed the activation that it was entered as. -/
@[grind]
structure Frame.SameCall (f g : Frame) : Prop where
  code : g.code = f.code
  locals : g.locals = f.locals
  globals : g.globals = f.globals
  builtins : g.builtins = f.builtins
  cells : g.cells = f.cells
  caller? : g.caller? = f.caller?

lemma Frame.SameCall.refl (f : Frame) : f.SameCall f := ⟨rfl, rfl, rfl, rfl, rfl, rfl⟩

lemma Frame.SameCall.trans {f g h : Frame} (hfg : f.SameCall g) (hgh : g.SameCall h) :
    f.SameCall h :=
  ⟨hgh.code.trans hfg.code, hgh.locals.trans hfg.locals, hgh.globals.trans hfg.globals,
    hgh.builtins.trans hfg.builtins, hgh.cells.trans hfg.cells, hgh.caller?.trans hfg.caller?⟩

/-- The frame of an activation has stayed the one that was entered. -/
def Activation.SameCall (a b : Activation) : Prop := a.frame.SameCall b.frame

/-- What has been printed is still there, and more may have been printed behind it. -/
def Output.Continues (o o' : Output) : Prop := ∃ more, o'.text = o.text ++ more

namespace Output.Continues

variable {o o₁ o₂ : Output}

lemma refl (o : Output) : o.Continues o := ⟨"", by simp⟩

lemma trans (h : o.Continues o₁) (h' : o₁.Continues o₂) : o.Continues o₂ := by
  obtain ⟨more, hmore⟩ := h
  obtain ⟨more', hmore'⟩ := h'
  exact ⟨more ++ more', by rw [hmore', hmore, String.append_assoc]⟩

@[grind ←] lemma item (o : Output) (text : String) : o.Continues (o.item text) := by
  by_cases h : o.owesSpace
  · exact ⟨" " ++ text, by simp [Output.item, h, String.append_assoc]⟩
  · exact ⟨text, by simp [Output.item, h]⟩

@[grind ←] lemma newline (o : Output) : o.Continues o.newline := ⟨"\n", rfl⟩

@[grind ←] lemma line (o : Output) (texts : List String) : o.Continues (o.line texts) :=
  ⟨String.intercalate " " texts ++ "\n", by simp [Output.line, Output.newline, String.append_assoc]⟩

end Output.Continues

/-- An activation that has come of another one: the frame is still the one that was entered, and
what had been printed has been printed. -/
structure Activation.Follows (a b : Activation) : Prop where
  frame : a.frame.SameCall b.frame
  output : a.output.Continues b.output

lemma Activation.Follows.of_eq {a b : Activation} (hframe : b.frame = a.frame)
    (houtput : b.output = a.output) : a.Follows b :=
  ⟨hframe ▸ .refl a.frame, houtput ▸ .refl a.output⟩

instance : IsPreorder Activation Activation.Follows where
  refl _ := .of_eq rfl rfl
  trans _ _ _ hab hbc := ⟨hab.frame.trans hbc.frame, hab.output.trans hbc.output⟩

/-- An activation that has come of another one and has no value more on its stack. -/
structure Activation.Sinks (a b : Activation) : Prop where
  follows : a.Follows b
  height : b.frame.stack.size ≤ a.frame.stack.size

lemma Activation.Sinks.of_eq {a b : Activation} (hframe : b.frame = a.frame)
    (houtput : b.output = a.output) : a.Sinks b :=
  ⟨.of_eq hframe houtput, Nat.le_of_eq (by rw [hframe])⟩

instance : IsPreorder Activation Activation.Sinks where
  refl _ := .of_eq rfl rfl
  trans _ _ _ hab hbc :=
    ⟨trans_of Activation.Follows hab.follows hbc.follows, Nat.le_trans hbc.height hab.height⟩

/-- An error that an instruction can report: one about its code or its own operand stack. -/
@[grind]
def FatalError.isOfCode : FatalError → Bool
  | malformedCode .. | unsupportedOpcode .. | stackUnderflow .. => true
  | stackOverflow _ | stepLimitExceeded _ | noActiveFrame => false

/-- A failure that an instruction can end in. -/
@[grind]
def Failure.OfCode : Failure → Prop
  | fault _ => True
  | fatal e => e.isOfCode

namespace Exec

variable {α β : Type}

/-- A program that keeps to its activation and takes back nothing that has been printed. -/
abbrev Tame (x : Exec α) : Prop := Keeps Activation.Follows Failure.OfCode x

/-- A tame program that leaves no more values on the operand stack than there were. -/
abbrev Sinking (x : Exec α) : Prop := Keeps Activation.Sinks Failure.OfCode x

/-- A tame program that, unless it fails, adds at most `d` values to the operand stack. -/
def Adds (d : Int) (x : Exec α) : Prop :=
  ∀ a, match x a with
    | .ok _ b => a.Follows b ∧ (b.frame.stack.size : Int) ≤ a.frame.stack.size + d
    | .error e b => a.Sinks b ∧ e.OfCode

/-- A tame program that, unless it fails, adds at most one value to the operand stack. -/
abbrev Rising (x : Exec α) : Prop := Adds 1 x

@[grind ←] lemma Keeps.tame {x : Exec α} (h : Sinking x) : Tame x :=
  h.mono fun _ _ hab => hab.follows

@[grind ←] lemma Adds.tame {x : Exec α} (h : Rising x) : Tame x := by
  intro a
  have hxa := h a
  cases hx : x a with
  | ok v b =>
    rw [hx] at hxa
    exact hxa.1
  | error e b =>
    rw [hx] at hxa
    exact ⟨hxa.1.follows, hxa.2⟩

lemma Keeps.adds {x : Exec α} {d : Int} (h : Sinking x) (hd : 0 ≤ d) : Adds d x := by
  intro a
  have hxa := h a
  cases hx : x a with
  | ok v b =>
    rw [hx] at hxa
    have := hxa.height
    exact ⟨hxa.follows, by omega⟩
  | error e b =>
    rw [hx] at hxa
    exact hxa

lemma Adds.mono {d d' : Int} {x : Exec α} (h : Adds d x) (hd : d ≤ d') : Adds d' x := by
  intro a
  have hxa := h a
  cases hx : x a with
  | ok v b =>
    rw [hx] at hxa
    exact ⟨hxa.1, by omega⟩
  | error e b =>
    rw [hx] at hxa
    exact hxa

@[grind ←] lemma Keeps.rising {x : Exec α} (h : Sinking x) : Rising x := h.adds (by omega)

/-- What a program adds behind one that adds nothing. -/
lemma Adds.bind {d j : Int} {x : Exec α} {f : α → Exec β} (hx : Adds j x) (hj : j ≤ 0)
    (hf : ∀ v, Adds (d - j) (f v)) : Adds d (x >>= f) := by
  intro a
  have hxa := hx a
  simp only [Bind.bind, EStateM.bind]
  cases h : x a with
  | error e b => simpa only [h] using hxa
  | ok v b =>
    simp only [h] at hxa ⊢
    have hfb := hf v b
    cases h' : f v b with
    | ok w c =>
      simp only [h'] at hfb ⊢
      exact ⟨trans_of Activation.Follows hxa.1 hfb.1, by omega⟩
    | error e c =>
      simp only [h'] at hfb ⊢
      have := hfb.1.height
      exact ⟨⟨trans_of Activation.Follows hxa.1 hfb.1.follows, by omega⟩, hfb.2⟩

@[grind ←] lemma rising_bind {x : Exec α} {f : α → Exec β} (hx : Sinking x)
    (hf : ∀ v, Rising (f v)) : Rising (x >>= f) :=
  (hx.adds (Int.le_refl 0)).bind (Int.le_refl 0) fun v => by simpa using hf v

lemma rising_bind_pure {x : Exec α} (hx : Rising x) (w : β) :
    Rising (x >>= fun _ => pure w) := by
  intro a
  have hxa := hx a
  simp only [Bind.bind, EStateM.bind]
  cases h : x a with
  | error e b => simpa only [h] using hxa
  | ok v b =>
    rw [h] at hxa
    exact hxa

/-! ### The primitives -/

@[grind ←] lemma abort_sinking {e : FatalError} (he : e.isOfCode) :
    Sinking (abort e : Exec α) := keeps_throw he

@[grind ←] lemma malformed_sinking (d : Defect) : Sinking (malformed d : Exec α) :=
  keeps_bind keeps_get fun _ => abort_sinking rfl

@[grind ←] lemma raise_sinking (c : Cause) : Sinking (raise c : Exec α) :=
  fun _ => ⟨.of_eq rfl rfl, trivial⟩

@[grind ←] lemma onHeap_sinking (x : HeapM α) : Sinking (onHeap x) := by
  intro a
  simp only [onHeap]
  cases x a.heap with
  | ok v h => exact .of_eq rfl rfl
  | error c h => exact ⟨.of_eq rfl rfl, trivial⟩

/-- What a program may do to the output. -/
@[grind ←] lemma modifyOutput_sinking {f : Output → Output} (hf : ∀ o : Output, o.Continues (f o)) :
    Sinking (modifyOutput f) := fun a => ⟨⟨.refl a.frame, hf a.output⟩, Nat.le_refl _⟩

@[grind ←] lemma setLastFault_sinking (fault : Option Fault) :
    Sinking (setLastFault fault) := fun _ => .of_eq rfl rfl

@[grind ←] lemma store_sinking (table : Frame → Ref .table) (name : String) (v : Value) :
    Sinking (store table name v) := fun _ => .of_eq rfl rfl

/-- What a program may do to its frame. -/
@[grind ←] lemma modifyFrame_sinking {f : Frame → Frame}
    (hf : ∀ g : Frame, g.SameCall (f g) ∧ (f g).stack.size ≤ g.stack.size) :
    Sinking (modifyFrame f) :=
  fun a => ⟨⟨(hf a.frame).1, .refl a.output⟩, (hf a.frame).2⟩

@[grind ←] lemma jump_sinking (target : Nat) : Sinking (jump target) :=
  modifyFrame_sinking fun _ => ⟨⟨rfl, rfl, rfl, rfl, rfl, rfl⟩, Nat.le_refl _⟩

/-! ### The operand stack, names, cells and blocks -/

@[grind ←] lemma push_rising (v : Value) : Rising (push v) := by
  intro a
  have hsize : (a.frame.stack.push v).size = a.frame.stack.size + 1 := Array.size_push v
  exact ⟨⟨⟨rfl, rfl, rfl, rfl, rfl, rfl⟩, .refl a.output⟩, Int.ofNat_le.2 (Nat.le_of_eq hsize)⟩

@[grind ←] lemma pushAll_tame (vs : List Value) : Tame (pushAll vs) := by
  induction vs with
  | nil => exact keeps_pure ()
  | cons v vs ih => exact keeps_bind (push_rising v).tame fun _ => ih

@[grind ←] lemma peek_sinking (depth : Nat) : Sinking (peek depth) := by
  unfold peek
  grind

/-- Dropping values off the stack. -/
lemma shrink_sinking (n : Frame → Nat) :
    Sinking (modifyFrame fun f => { f with stack := f.stack.shrink (n f) }) := by
  refine modifyFrame_sinking fun f => ⟨⟨rfl, rfl, rfl, rfl, rfl, rfl⟩, ?_⟩
  show (f.stack.shrink (n f)).size ≤ f.stack.size
  rw [Array.size_shrink]
  exact Nat.min_le_right _ _

@[grind ←] lemma pop_sinking : Sinking pop := by
  refine keeps_bind keeps_get fun a => ?_
  cases a.frame.stack.back? with
  | none => exact abort_sinking rfl
  | some v =>
    have hpop : Sinking (modifyFrame fun f => { f with stack := f.stack.pop }) :=
      modifyFrame_sinking fun f => ⟨⟨rfl, rfl, rfl, rfl, rfl, rfl⟩, by simp⟩
    exact keeps_bind hpop fun _ => keeps_pure v

@[grind ←] lemma popN_sinking (n : Nat) : Sinking (popN n) := by
  have hcut := shrink_sinking fun f => f.stack.size - n
  unfold popN
  grind

@[grind ←] lemma truncate_sinking (height : Nat) : Sinking (truncate height) := by
  have hcut := shrink_sinking fun _ => height
  unfold truncate
  grind

@[grind ←] lemma loadLocal_sinking (name : String) : Sinking (loadLocal name) := by
  unfold loadLocal
  grind

@[grind ←] lemma loadName_sinking (name : String) : Sinking (loadName name) := by
  unfold loadName
  grind

@[grind ←] lemma loadGlobal_sinking (name : String) : Sinking (loadGlobal name) := by
  unfold loadGlobal
  grind

@[grind ←] lemma storeLocal_sinking (name : String) (v : Value) :
    Sinking (storeLocal name v) := store_sinking _ name v

@[grind ←] lemma storeGlobal_sinking (name : String) (v : Value) :
    Sinking (storeGlobal name v) := store_sinking _ name v

@[grind ←] lemma cell_sinking (slot : Nat) : Sinking (cell slot) := by
  unfold cell
  grind

@[grind ←] lemma loadDeref_sinking (slot : Nat) : Sinking (loadDeref slot) := by
  unfold loadDeref
  grind

@[grind ←] lemma storeDeref_sinking (slot : Nat) (v : Value) : Sinking (storeDeref slot v) :=
  keeps_bind (cell_sinking slot) fun _ _ => .of_eq rfl rfl

@[grind ←] lemma pushBlock_sinking (kind : BlockKind) (handler : Nat) :
    Sinking (pushBlock kind handler) :=
  modifyFrame_sinking fun _ => ⟨⟨rfl, rfl, rfl, rfl, rfl, rfl⟩, Nat.le_refl _⟩

@[grind ←] lemma popBlock_sinking : Sinking popBlock := by
  unfold popBlock
  grind

/-! ### Unwinding -/

@[grind ←] lemma pushFault_tame (f : Fault) : Tame (pushFault f) := by
  unfold pushFault
  grind

@[grind ←] lemma catchFault_tame (f : Fault) : Tame (catchFault f) := by
  unfold catchFault
  grind

@[grind ←] lemma leaveBlock_sinking (b : Block) : Sinking (leaveBlock b) := by
  unfold leaveBlock
  grind

@[grind ←] lemma absorbed_tame (b : Block) (s : Signal) : Tame (absorbed b s) := by
  unfold absorbed
  grind

@[grind ←] lemma unwindThrough_tame (s : Signal) (blocks : List Block) :
    Tame (unwindThrough s blocks) := by
  induction blocks with
  | nil => exact keeps_pure (some s)
  | cons b rest ih =>
    unfold unwindThrough
    grind

lemma unwind_tame (s : Signal) : Tame (unwind s) :=
  keeps_bind keeps_get fun a => unwindThrough_tame s a.frame.blocks

@[grind ←] lemma endFinally_sinking : Sinking endFinally := by
  unfold endFinally
  grind

@[grind ←] lemma popExcept_sinking : Sinking popExcept := by
  unfold popExcept
  grind

/-! ### Instructions -/

@[grind ←] lemma popCode_sinking : Sinking popCode := by
  unfold popCode
  grind

@[grind ←] lemma cellsOf_sinking (vs : List Value) : Sinking (cellsOf vs) := by
  fun_induction cellsOf vs <;> grind

@[grind ←] lemma popCells_sinking : Sinking popCells := by
  unfold popCells
  grind

@[grind ←] lemma makeFunction_rising (code : CodeObject) (defaults : List Value)
    (closure : List (Ref .cell)) : Rising (makeFunction code defaults closure) := by
  unfold makeFunction Function.make
  grind

@[grind ←] lemma keywordArguments_sinking (vs : List Value) :
    Sinking (keywordArguments vs) := by
  fun_induction keywordArguments vs <;> grind

@[grind ←] lemma invoke_rising (callee : Value) (args : List Value)
    (keywords : List (String × Value)) : Rising (invoke callee args keywords) := by
  unfold invoke
  grind

@[grind ←] lemma raised_sinking (count : Nat) : Sinking (raised count) := by
  unfold raised
  grind

@[grind ←] lemma jumpIf_sinking (condition : Bool) (target : Nat) :
    Sinking (jumpIf condition target) := by
  unfold jumpIf
  grind

@[grind ←] lemma popJumpIf_sinking (wanted : Bool) (target : Nat) :
    Sinking (popJumpIf wanted target) := by
  unfold popJumpIf
  grind

@[grind ←] lemma jumpIfOrPop_sinking (wanted : Bool) (target : Nat) :
    Sinking (jumpIfOrPop wanted target) := by
  unfold jumpIfOrPop
  grind

/-- Values that are taken off to be put back in another order. -/
lemma pop_adds : Adds (-1) pop := by
  intro a
  have hsinking := pop_sinking a
  cases h : pop a with
  | ok v b =>
    rw [h] at hsinking
    obtain ⟨hpos, rfl⟩ := pop_ok h
    exact ⟨hsinking.follows, by rw [Activation.dropTop_height]; omega⟩
  | error e b =>
    rw [h] at hsinking
    exact hsinking

lemma pushAll_adds (vs : List Value) : Adds vs.length (pushAll vs) := by
  intro a
  have htame := pushAll_tame vs a
  rw [pushAll_apply] at htame ⊢
  exact ⟨htame, by simp⟩

@[grind ←] lemma perform_rising (i : Instruction) : Rising (perform i) := by
  cases i
  case rotTwo =>
    refine pop_adds.bind (by omega) fun b => pop_adds.bind (by omega) fun a => ?_
    exact (pushAll_adds [b, a]).mono (by simp)
  case rotThree =>
    refine pop_adds.bind (by omega) fun c => pop_adds.bind (by omega) fun b =>
      pop_adds.bind (by omega) fun a => ?_
    exact (pushAll_adds [c, a, b]).mono (by simp)
  all_goals
    simp only [perform]
    grind

/-- Every instruction keeps to its activation, takes back nothing that has been printed, and adds at
most one value to the operand stack. -/
lemma execute_rising (i : Instruction) : Rising (execute i) := by
  cases i
  case callFunction positional keyword =>
    refine rising_bind (popN_sinking _) fun pairs => rising_bind (popN_sinking _) fun args =>
      rising_bind pop_sinking fun callee =>
      rising_bind (keywordArguments_sinking _) fun keywords => ?_
    cases callee
    case function r => exact Keeps.rising (keeps_pure _)
    all_goals exact rising_bind_pure (invoke_rising _ _ _) _
  case breakLoop | continueLoop | returnValue | endFinally | raiseVarargs =>
    simp only [execute]
    grind
  all_goals exact rising_bind_pure (perform_rising _) _

/-! ### Confinement -/

/-- A program that keeps to its activation. -/
abbrev Confined (x : Exec α) : Prop := Keeps Activation.SameCall Failure.OfCode x

lemma Keeps.confined {x : Exec α} (h : Tame x) : Confined x :=
  h.mono fun _ _ hab => hab.frame

lemma unwind_confined (s : Signal) : Confined (unwind s) := (unwind_tame s).confined

/-- **Every instruction is confined**: it leaves its frame the activation that was entered, and
fails with a fault or with an error of its code. -/
lemma execute_confined (i : Instruction) : Confined (execute i) := (execute_rising i).tame.confined

end Exec

/-! ### Decoding -/

namespace CodeUnit

variable {unit : CodeUnit} {offset : Nat} {e : FatalError}

/-- Code that cannot be decoded is to blame itself. -/
lemma decode_isOfCode (h : unit.decode offset = .error e) : e.isOfCode := by
  cases decode_undecodable h <;> rfl

end CodeUnit

end StackMachine
