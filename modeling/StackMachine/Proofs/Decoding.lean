import Mathlib.Tactic.Lemma
import StackMachine.Code.Instruction
/-!
# What is decoded

Code is decoded as it is met, and nothing has checked it before.  Even so the decoder answers for
the places that it hands out: what an instruction names lies in the code or at its end, and so does
the place behind the instruction (`decode_places`).  It answers for cell slots in the same way: the
unit has the slot that an instruction uses (`decode_slot_lt`).  And where it does not come to an
instruction, there are three kinds of reasons (`Undecodable`), of which an offset past the end is
one that needs an offset past the end.
-/

namespace StackMachine

/-- Whether the defect is an offset past the end of the code. -/
@[grind]
def Defect.isPastEnd : Defect → Bool
  | pastEnd _ => true
  | _ => false

/-- The cell slot that a frame lacks. -/
@[grind]
def Defect.slot? : Defect → Option Nat
  | noCellSlot slot _ => some slot
  | _ => none

/-- The defect is not an offset past the end of the code, and no cell slot is lacking but those of
`slot`. -/
@[grind]
def Defect.Within (slot : Nat → Prop) (d : Defect) : Prop :=
  d.isPastEnd = false ∧ ∀ s, d.slot? = some s → slot s

lemma Defect.within {d : Defect} {slot : Nat → Prop} (hpast : d.isPastEnd = false)
    (hslot : d.slot? = none) : d.Within slot := by
  refine ⟨hpast, fun s hs => ?_⟩
  rw [hslot] at hs
  cases hs

/-- The place in the code that an instruction names: where it jumps, or the handler of the block
that it sets up. -/
@[grind]
def Instruction.target? : Instruction → Option Nat
  | jumpForward target | jumpAbsolute target | popJumpIfFalse target | popJumpIfTrue target
  | jumpIfFalseOrPop target | jumpIfTrueOrPop target | forIter target | setupLoop target
  | setupExcept target | setupFinally target | continueLoop target => some target
  | _ => none

/-- The cell slot that an instruction uses. -/
@[grind]
def Instruction.slot? : Instruction → Option Nat
  | loadClosure slot | loadDeref slot | storeDeref slot => some slot
  | _ => none

/-- Why there is no instruction at an offset: its byte is no opcode, the instruction is incomplete
or names what the unit does not have, or the offset is past the end. -/
inductive CodeUnit.Undecodable (unit : CodeUnit) (offset : Nat) : FatalError → Prop
  | opcode (byte : UInt8) : Undecodable unit offset (.unsupportedOpcode offset byte)
  | defect {d : Defect} (hd : d.Within fun _ => False) :
    Undecodable unit offset (.malformedCode offset d)
  | pastEnd (h : unit.size < offset) :
    Undecodable unit offset (.malformedCode offset (.pastEnd unit.size))

lemma map_eq_ok {α β : Type} {x : Except FatalError α} {f : α → β} {v : β}
    (h : x.map f = .ok v) : ∃ u, x = .ok u ∧ f u = v := by
  cases x with
  | error e => cases h
  | ok u =>
    cases h
    exact ⟨u, rfl, rfl⟩

lemma map_eq_error {α β : Type} {x : Except FatalError α} {f : α → β} {e : FatalError}
    (h : x.map f = .error e) : x = .error e := by
  cases x with
  | error d =>
    cases h
    rfl
  | ok v => cases h

/-! ## Arguments -/

namespace RawArgument

variable {a : RawArgument} {e : FatalError} {op : Opcode} {i : Instruction}

/-- The argument cannot be resolved: the error is a defect at the offset of its instruction. -/
def Refused (a : RawArgument) (e : FatalError) : Prop :=
  ∃ d : Defect, e = .malformedCode a.offset d ∧ d.Within fun _ => False

lemma Refused.of_defect {d : Defect} (hpast : d.isPastEnd = false) (hslot : d.slot? = none)
    (h : .malformedCode a.offset d = e) : a.Refused e :=
  ⟨d, h.symm, Defect.within hpast hslot⟩

lemma entry_refused {α : Type} {table : String} {entries : List α} {place : Nat}
    (h : CodeUnit.entry table entries a.offset place = .error e) : a.Refused e := by
  unfold CodeUnit.entry at h
  split at h
  · cases h
  · exact .of_defect rfl rfl (Except.error.inj h)

lemma jumpTarget_refused {target : Nat} (h : a.unit.jumpTarget a.offset target = .error e) :
    a.Refused e := by
  unfold CodeUnit.jumpTarget at h
  split at h
  · cases h
  · exact .of_defect rfl rfl (Except.error.inj h)

lemma slot_refused (h : a.slot = .error e) : a.Refused e := by
  unfold slot at h
  split at h
  · cases h
  · exact .of_defect rfl rfl (Except.error.inj h)

lemma comparison_refused (h : a.comparison = .error e) : a.Refused e := by
  unfold comparison at h
  split at h
  · cases h
  · exact .of_defect rfl rfl (Except.error.inj h)

lemma instruction_refused (h : a.instruction op = .error e) : a.Refused e := by
  cases op
  case loadConst | loadName | storeName | loadGlobal | storeGlobal | loadFast | storeFast | loadAttr
      | storeAttr =>
    exact entry_refused (map_eq_error h)
  case loadClosure | loadDeref | storeDeref => exact slot_refused (map_eq_error h)
  case compareOp => exact comparison_refused (map_eq_error h)
  case jumpForward | jumpAbsolute | popJumpIfFalse | popJumpIfTrue | jumpIfFalseOrPop
      | jumpIfTrueOrPop | forIter | continueLoop | setupLoop | setupExcept | setupFinally =>
    exact jumpTarget_refused (map_eq_error h)
  all_goals cases h

lemma jumpTarget_le {target place : Nat} (h : a.unit.jumpTarget a.offset target = .ok place) :
    place ≤ a.unit.size := by
  unfold CodeUnit.jumpTarget at h
  split at h
  · next hle =>
    cases h
    exact hle
  · cases h

lemma slot_lt {slot : Nat} (h : a.slot = .ok slot) : slot < a.unit.slotCount := by
  unfold RawArgument.slot at h
  split at h
  · next hlt =>
    cases h
    exact hlt
  · cases h

/-- A place that an instruction names lies in the code or at its end. -/
lemma instruction_target_le {place : Nat} (h : a.instruction op = .ok i)
    (hi : i.target? = some place) : place ≤ a.unit.size := by
  cases op
  case jumpForward | jumpAbsolute | popJumpIfFalse | popJumpIfTrue | jumpIfFalseOrPop
      | jumpIfTrueOrPop | forIter | continueLoop | setupLoop | setupExcept | setupFinally =>
    obtain ⟨_, htarget, rfl⟩ := map_eq_ok h
    cases hi
    exact jumpTarget_le htarget
  case loadConst | loadName | storeName | loadGlobal | storeGlobal | loadFast | storeFast | loadAttr
      | storeAttr | loadClosure | loadDeref | storeDeref | compareOp =>
    obtain ⟨_, -, rfl⟩ := map_eq_ok h
    cases hi
  all_goals
    cases h
    cases hi

/-- A slot that an instruction uses is one of the unit's. -/
lemma instruction_slot_lt {s : Nat} (h : a.instruction op = .ok i) (hi : i.slot? = some s) :
    s < a.unit.slotCount := by
  cases op
  case loadClosure | loadDeref | storeDeref =>
    obtain ⟨_, hslot, rfl⟩ := map_eq_ok h
    cases hi
    exact slot_lt hslot
  case loadConst | loadName | storeName | loadGlobal | storeGlobal | loadFast | storeFast | loadAttr
      | storeAttr | compareOp | jumpForward | jumpAbsolute | popJumpIfFalse | popJumpIfTrue
      | jumpIfFalseOrPop | jumpIfTrueOrPop | forIter | continueLoop | setupLoop | setupExcept
      | setupFinally =>
    obtain ⟨_, -, rfl⟩ := map_eq_ok h
    cases hi
  all_goals
    cases h
    cases hi

end RawArgument

namespace CodeUnit

variable {unit : CodeUnit} {offset next : Nat} {e : FatalError}

/-! ## Errors -/

lemma fetch_undecodable (h : unit.fetch offset = .error e) : unit.Undecodable offset e := by
  unfold fetch at h
  split at h
  · cases h
  · next hend =>
    split at h
    · next hbyte =>
      cases h
      have hpast : unit.size ≤ offset := Array.getElem?_eq_none_iff.1 hbyte
      exact .pastEnd (Nat.lt_of_le_of_ne hpast (Ne.symm hend))
    · split at h
      · cases h
        exact .opcode _
      · split at h
        · split at h
          · cases h
          · cases h
            exact .defect (Defect.within rfl rfl)
        · cases h

/-- Each error of the decoder has one of these reasons. -/
lemma decode_undecodable (h : unit.decode offset = .error e) : unit.Undecodable offset e := by
  unfold decode at h
  split at h
  · next he =>
    cases h
    exact fetch_undecodable he
  · cases h
  · split at h
    · next he =>
      cases h
      obtain ⟨d, rfl, hd⟩ := RawArgument.instruction_refused he
      exact .defect hd
    · cases h

/-! ## Instructions -/

lemma fetch_next_le {f : Fetched} (h : unit.fetch offset = .ok (some f)) : f.next ≤ unit.size := by
  have hbyte : ∀ {i : Nat} {b : UInt8}, unit.code[i]? = some b → i < unit.size := by
    intro i b hb
    exact (Array.getElem?_eq_some_iff.1 hb).1
  unfold fetch at h
  grind

/-- How an instruction has been decoded. -/
lemma decode_ok {i : Instruction} {next : Nat} (h : unit.decode offset = .ok (some (i, next))) :
    ∃ f : Fetched, unit.fetch offset = .ok (some f) ∧ f.next = next ∧
      RawArgument.instruction ⟨unit, offset, f.next, f.raw⟩ f.op = .ok i := by
  unfold decode at h
  split at h
  · cases h
  · cases h
  · next hfetch =>
    split at h
    · cases h
    · next hinstruction =>
      cases h
      exact ⟨_, hfetch, rfl, hinstruction⟩

/-- An instruction names places in the code or the end of it, and so does the place behind it. -/
lemma decode_places {i : Instruction} {next : Nat}
    (h : unit.decode offset = .ok (some (i, next))) :
    next ≤ unit.size ∧ ∀ place, i.target? = some place → place ≤ unit.size := by
  obtain ⟨f, hfetch, rfl, hinstruction⟩ := decode_ok h
  exact ⟨fetch_next_le hfetch, fun place hi => RawArgument.instruction_target_le hinstruction hi⟩

/-- The unit has the cell slot that an instruction uses. -/
lemma decode_slot_lt {i : Instruction} {next slot : Nat}
    (h : unit.decode offset = .ok (some (i, next))) (hi : i.slot? = some slot) :
    slot < unit.slotCount := by
  obtain ⟨f, -, -, hinstruction⟩ := decode_ok h
  exact RawArgument.instruction_slot_lt hinstruction hi

end CodeUnit

end StackMachine
