import Mathlib.Logic.Relation
import StackMachine.Proofs.HeapGrowth
/-!
# What an instruction may do

`Confinement` says what an instruction leaves alone.  Here is the other side: everything that it may
do to its activation, one small change at a time (`Activation.Effect`).  Where a frame goes on is
bounded by what is decoded: `place` are the places that the instruction names, and what jumps or
sets up a block goes there or to the handler of a block.  Names are bound in the frame's own tables
and in the attributes of functions, and nowhere else.  How an instruction fails is bounded as well:
`slot` are the cell slots that it uses, and it fails for want of no other one (`Failure.Within`).

An invariant of activations that every effect keeps is then one of all instructions
(`execute_acting`) and of unwinding (`unwindThrough_acting`).
-/

namespace StackMachine

/-- One change of an activation; `place` are the places that it may go to. -/
inductive Activation.Effect (place : Nat → Prop) (a : Activation) : Activation → Prop
  | stack (values : Array Value) :
    Effect place a { a with frame := { a.frame with stack := values } }
  | jump {target : Nat} (h : place target) :
    Effect place a { a with frame := { a.frame with ip := target } }
  | fetch {next : Nat} (h : place next) :
    Effect place a { a with frame := { a.frame with lastIp := a.frame.ip, ip := next } }
  | blocks {blocks : List Block} (h : ∀ b ∈ blocks, b ∈ a.frame.blocks ∨ place b.handler) :
    Effect place a { a with frame := { a.frame with blocks := blocks } }
  | lastFault (fault : Option Fault) : Effect place a { a with lastFault := fault }
  | output (output : Output) : Effect place a { a with output := output }
  | heap {heap : Heap} (h : a.heap.Widens heap) : Effect place a { a with heap := heap }
  | bind {t : Ref .table} (h : t = a.frame.locals ∨ t = a.frame.globals) (name : String)
    (v : Value) : Effect place a { a with heap := a.heap.bind t name v }
  | bindAttribute (r : Ref .function) (name : String) (v : Value) :
    Effect place a { a with heap := a.heap.bindAttribute r name v }
  | makeFunction {code : CodeObject} {defaults : List Value} {closure : List (Ref .cell)}
    {allocate : Heap → Ref .function × Heap}
    (h : Function.make code defaults a.frame.globals closure = .ok allocate) :
    Effect place a { a with heap := (allocate a.heap).2 }

/-- Any number of changes. -/
def Activation.Acts (place : Nat → Prop) : Activation → Activation → Prop :=
  Relation.ReflTransGen (Effect place)

instance (place : Nat → Prop) : IsPreorder Activation (Activation.Acts place) where
  refl _ := .refl
  trans _ _ _ := .trans

/-- A failure that is not for an offset past the end of the code. -/
def Failure.InsideCode : Failure → Prop
  | fatal (.malformedCode _ d) => d.isPastEnd = false
  | _ => True

/-- A failure that is not for an offset past the end of the code, nor for a cell slot other than
those of `slot`. -/
@[grind]
def Failure.Within (slot : Nat → Prop) : Failure → Prop
  | fatal (.malformedCode _ d) => d.Within slot
  | _ => True

lemma Failure.Within.insideCode {slot : Nat → Prop} {e : Failure} (h : e.Within slot) :
    e.InsideCode := by
  cases e with
  | fault => trivial
  | fatal e =>
    cases e with
    | malformedCode _ d => exact h.1
    | _ => trivial

namespace Exec

variable {α : Type} {place slot : Nat → Prop}

/-- A program that changes its activation by effects only, and uses no cell slots but those of
`slot`. -/
abbrev Acting (place slot : Nat → Prop) (x : Exec α) : Prop :=
  Keeps (Activation.Acts place) (Failure.Within slot) x

/-! ## The primitives -/

@[grind ←] lemma abort_acting {e : FatalError} (he : (Failure.fatal e).Within slot) :
    Acting place slot (abort e : Exec α) := keeps_throw he

@[grind ←] lemma malformed_acting {d : Defect} (hd : d.Within slot) :
    Acting place slot (malformed d : Exec α) := keeps_bind keeps_get fun _ => abort_acting hd

@[grind ←] lemma raise_acting (c : Cause) : Acting place slot (raise c : Exec α) :=
  fun a => ⟨.single (.heap (a.heap.newFault_widens c)), trivial⟩

@[grind ←] lemma onHeap_acting {x : HeapM α} (hx : x.Widening) : Acting place slot (onHeap x) := by
  intro a
  have hxa := hx a.heap
  simp only [onHeap]
  cases h : x a.heap with
  | ok v heap =>
    rw [h] at hxa
    exact .single (.heap hxa)
  | error c heap =>
    rw [h] at hxa
    exact ⟨.single (.heap (hxa.1.trans (heap.newFault_widens c))), trivial⟩

@[grind ←] lemma modifyOutput_acting (f : Output → Output) : Acting place slot (modifyOutput f) :=
  fun _ => .single (.output _)

@[grind ←] lemma setLastFault_acting (fault : Option Fault) :
    Acting place slot (setLastFault fault) := fun _ => .single (.lastFault fault)

@[grind ←] lemma storeLocal_acting (name : String) (v : Value) :
    Acting place slot (storeLocal name v) := fun _ => .single (.bind (.inl rfl) name v)

@[grind ←] lemma storeGlobal_acting (name : String) (v : Value) :
    Acting place slot (storeGlobal name v) := fun _ => .single (.bind (.inr rfl) name v)

@[grind ←] lemma jump_acting {target : Nat} (h : place target) : Acting place slot (jump target) :=
  fun _ => .single (.jump h)

/-! ## The operand stack, names and cells -/

@[grind ←] lemma push_acting (v : Value) : Acting place slot (push v) := fun _ => .single (.stack _)

@[grind ←] lemma pushAll_acting (vs : List Value) : Acting place slot (pushAll vs) := by
  induction vs with
  | nil => exact keeps_pure ()
  | cons v vs ih => exact keeps_bind (push_acting v) fun _ => ih

@[grind ←] lemma peek_acting (depth : Nat) : Acting place slot (peek depth) := by
  unfold peek
  grind

lemma modifyStack_acting (values : Frame → Array Value) :
    Acting place slot (modifyFrame fun f => { f with stack := values f }) :=
  fun _ => .single (.stack _)

@[grind ←] lemma pop_acting : Acting place slot pop := by
  refine keeps_bind keeps_get fun a => ?_
  cases a.frame.stack.back? with
  | none => exact abort_acting trivial
  | some v => exact keeps_bind (modifyStack_acting fun f => f.stack.pop) fun _ => keeps_pure v

@[grind ←] lemma popN_acting (n : Nat) : Acting place slot (popN n) := by
  have hcut : Acting place slot (modifyFrame fun f =>
      { f with stack := f.stack.shrink (f.stack.size - n) }) := modifyStack_acting _
  unfold popN
  grind

@[grind ←] lemma truncate_acting (height : Nat) : Acting place slot (truncate height) := by
  have hcut : Acting place slot (modifyFrame fun f => { f with stack := f.stack.shrink height }) :=
    modifyStack_acting _
  unfold truncate
  grind

@[grind ←] lemma loadLocal_acting (name : String) : Acting place slot (loadLocal name) := by
  unfold loadLocal
  grind

@[grind ←] lemma loadName_acting (name : String) : Acting place slot (loadName name) := by
  unfold loadName
  grind

@[grind ←] lemma loadGlobal_acting (name : String) : Acting place slot (loadGlobal name) := by
  unfold loadGlobal
  grind

@[grind ←] lemma cell_acting {s : Nat} (hs : slot s) : Acting place slot (cell s) := by
  unfold cell
  grind

@[grind ←] lemma loadDeref_acting {s : Nat} (hs : slot s) :
    Acting place slot (loadDeref s) := by
  unfold loadDeref
  grind

@[grind ←] lemma storeDeref_acting {s : Nat} (hs : slot s) (v : Value) :
    Acting place slot (storeDeref s v) :=
  keeps_bind (cell_acting hs) fun _ _ => .single (.heap (.of_eq rfl rfl))

/-! ## Blocks -/

@[grind ←] lemma pushBlock_acting (kind : BlockKind) {handler : Nat} (h : place handler) :
    Acting place slot (pushBlock kind handler) := by
  refine fun a => .single (.blocks fun b hb => ?_)
  obtain rfl | hb := List.mem_cons.1 hb
  · exact .inr h
  · exact .inl hb

@[grind ←] lemma popBlock_acting : Acting place slot popBlock := by
  intro a
  unfold popBlock
  cases hblocks : a.frame.blocks with
  | nil =>
    simp only [bind_apply, get_apply, hblocks]
    have hmalformed : Acting place slot (malformed .noBlock : Exec Block) :=
      malformed_acting (Defect.within rfl rfl)
    exact hmalformed a
  | cons b rest =>
    simp only [bind_apply, get_apply, hblocks]
    exact .single (.blocks fun c hc => .inl (hblocks ▸ List.mem_cons_of_mem b hc))

@[grind ←] lemma pushFault_acting (f : Fault) : Acting place slot (pushFault f) := by
  unfold pushFault
  grind

@[grind ←] lemma catchFault_acting (h : place 0) (f : Fault) :
    Acting place slot (catchFault f) := by
  unfold catchFault
  grind

@[grind ←] lemma leaveBlock_acting (b : Block) : Acting place slot (leaveBlock b) := by
  unfold leaveBlock
  grind

@[grind ←] lemma absorbed_acting {b : Block} (h : place 0) (hb : place b.handler) (s : Signal) :
    Acting place slot (absorbed b s) := by
  unfold absorbed
  grind

lemma unwindThrough_acting {s : Signal} (h : place 0)
    (hs : ∀ target, s = .continuing target → place target) {blocks : List Block}
    (hblocks : ∀ b ∈ blocks, place b.handler) : Acting place slot (unwindThrough s blocks) := by
  induction blocks with
  | nil => exact keeps_pure (some s)
  | cons b rest ih =>
    have hrest : ∀ c ∈ rest, place c.handler := fun c hc => hblocks c (List.mem_cons_of_mem b hc)
    have hremove : Acting place slot (modifyFrame fun f => { f with blocks := rest }) :=
      fun _ => .single (.blocks fun c hc => .inr (hrest c hc))
    have habsorbed : Acting place slot (absorbed b s) :=
      absorbed_acting h (hblocks b List.mem_cons_self) s
    unfold unwindThrough
    grind

@[grind ←] lemma endFinally_acting : Acting place slot endFinally := by
  unfold endFinally
  grind

@[grind ←] lemma popExcept_acting : Acting place slot popExcept := by
  unfold popExcept
  grind

/-! ## Instructions -/

@[grind ←] lemma popCode_acting : Acting place slot popCode := by
  unfold popCode
  grind

@[grind ←] lemma cellsOf_acting (vs : List Value) : Acting place slot (cellsOf vs) := by
  fun_induction cellsOf vs <;> grind

@[grind ←] lemma popCells_acting : Acting place slot popCells := by
  unfold popCells
  grind

@[grind ←] lemma keywordArguments_acting (vs : List Value) :
    Acting place slot (keywordArguments vs) := by
  fun_induction keywordArguments vs <;> grind

@[grind ←] lemma invoke_acting (callee : Value) (args : List Value)
    (keywords : List (String × Value)) : Acting place slot (invoke callee args keywords) := by
  unfold invoke
  grind

@[grind ←] lemma raised_acting (count : Nat) : Acting place slot (raised count) := by
  unfold raised
  grind

@[grind ←] lemma jumpIf_acting (condition : Bool) {target : Nat} (h : place target) :
    Acting place slot (jumpIf condition target) := by
  unfold jumpIf
  grind

@[grind ←] lemma popJumpIf_acting (wanted : Bool) {target : Nat} (h : place target) :
    Acting place slot (popJumpIf wanted target) := by
  unfold popJumpIf
  grind

@[grind ←] lemma jumpIfOrPop_acting (wanted : Bool) {target : Nat} (h : place target) :
    Acting place slot (jumpIfOrPop wanted target) := by
  unfold jumpIfOrPop
  grind

lemma make_within {code : CodeObject} {defaults : List Value} {globals : Ref .table}
    {closure : List (Ref .cell)} {e : FatalError}
    (h : Function.make code defaults globals closure = .error e) :
    (Failure.fatal e).Within slot := by
  unfold Function.make Function.defect? at h
  grind

@[grind ←] lemma makeFunction_acting (code : CodeObject) (defaults : List Value)
    (closure : List (Ref .cell)) : Acting place slot (makeFunction code defaults closure) := by
  intro a
  unfold makeFunction
  simp only [bind_apply, get_apply]
  cases h : Function.make code defaults a.frame.globals closure with
  | error e => exact ⟨.refl, make_within h⟩
  | ok allocate => exact .tail (.single (.makeFunction h)) (.stack _)

@[grind ←] lemma setAttribute_acting (v : Value) (name : String) (stored : Value) :
    Acting place slot (onHeap (v.setAttribute name stored)) := by
  cases v
  case function r => exact fun a => .single (.bindAttribute r name stored)
  all_goals exact onHeap_acting (keeps_throw trivial)

@[grind ←] lemma perform_acting {i : Instruction}
    (h : ∀ target, i.target? = some target → place target)
    (hs : ∀ s, i.slot? = some s → slot s) : Acting place slot (perform i) := by
  cases i
  case forIter exit =>
    have hjump : Acting place slot (jump exit) := jump_acting (h exit rfl)
    simp only [perform]
    grind
  case listAppend depth =>
    have hzero : Acting place slot (malformed .appendDepthZero : Exec PUnit) :=
      malformed_acting (Defect.within rfl rfl)
    simp only [perform]
    refine keeps_bind pop_acting fun v => ?_
    grind
  all_goals
    simp only [perform]
    grind

/-- **Every instruction acts by effects only**: it goes to a place that it names or to the handler
of one of its blocks, and it uses the cell slot that it names. -/
lemma execute_acting {i : Instruction} (h : ∀ target, i.target? = some target → place target)
    (hs : ∀ s, i.slot? = some s → slot s) : Acting place slot (execute i) := by
  have hperform : Acting place slot (perform i) := perform_acting h hs
  cases i
  case callFunction positional keyword =>
    refine keeps_bind (popN_acting _) fun pairs => keeps_bind (popN_acting _) fun args =>
      keeps_bind pop_acting fun callee => keeps_bind (keywordArguments_acting _) fun keywords => ?_
    cases callee
    case function r => exact keeps_pure _
    all_goals exact keeps_bind (invoke_acting _ _ _) fun _ => keeps_pure _
  case breakLoop | continueLoop | returnValue | endFinally =>
    simp only [execute]
    grind
  case raiseVarargs count =>
    exact keeps_bind (raised_acting count) fun F => keeps_throw trivial
  all_goals exact keeps_bind hperform fun _ => keeps_pure _

/-! ## Where a loop is continued -/

/-- The end of a finally body looks at the place at which it continues a loop. -/
lemma endFinally_continuing {target : Nat} {a b : Activation}
    (h : endFinally a = .ok (some (.continuing target)) b) : target ≤ a.frame.code.unit.size := by
  unfold endFinally at h
  obtain ⟨marker, a₁, hmarker, h⟩ := bind_eq_ok h
  obtain ⟨-, rfl⟩ := pop_ok hmarker
  split at h
  case h_3 =>
    obtain ⟨payload, a₂, hpayload, h⟩ := bind_eq_ok h
    obtain ⟨-, rfl⟩ := pop_ok hpayload
    obtain ⟨_, _, hget, h⟩ := bind_eq_ok h
    cases hget
    split at h
    · split at h
      · next hbounds =>
        cases h
        exact Int.toNat_le.2 hbounds.2
      · cases h
    · cases h
  case h_2 =>
    obtain ⟨_, _, -, h⟩ := bind_eq_ok h
    cases h
  case h_5 kind =>
    obtain ⟨value, a₂, -, h⟩ := bind_eq_ok h
    obtain ⟨trace, a₃, -, h⟩ := bind_eq_ok h
    cases h
  all_goals cases h

/-- An instruction that continues a loop continues it at a place that it names, or at one in the
code. -/
lemma execute_continuing {i : Instruction} {target : Nat} {a b : Activation}
    (h : execute i a = .ok (.signal (.continuing target)) b) :
    i.target? = some target ∨ target ≤ a.frame.code.unit.size := by
  cases i
  case continueLoop =>
    cases h
    exact .inl rfl
  case endFinally =>
    obtain ⟨s?, a₁, hend, h⟩ := bind_eq_ok h
    cases s? with
    | none => cases h
    | some s =>
      cases h
      exact .inr (endFinally_continuing hend)
  case callFunction =>
    obtain ⟨pairs, _, -, h⟩ := bind_eq_ok h
    obtain ⟨args, _, -, h⟩ := bind_eq_ok h
    obtain ⟨callee, _, -, h⟩ := bind_eq_ok h
    obtain ⟨keywords, _, -, h⟩ := bind_eq_ok h
    split at h
    · cases h
    · obtain ⟨_, _, -, h⟩ := bind_eq_ok h
      cases h
  case returnValue | raiseVarargs =>
    obtain ⟨_, _, -, h⟩ := bind_eq_ok h
    cases h
  case breakLoop => cases h
  all_goals
    obtain ⟨_, _, -, h⟩ := bind_eq_ok h
    cases h

end Exec

end StackMachine
