import StackMachine.Proofs.Decoding
/-!
# What is listed is what runs

A raw argument is resolved in two places.  A listing goes by the kind of operand that the opcode has
(`CodeUnit.operand`), and a machine by the opcode itself (`RawArgument.instruction`).  These are two
mappings of all opcodes, and the offset from which a relative jump counts is computed in two ways as
well: the listing adds the width of the instruction, the machine goes by what has been fetched.

`Instruction.shown` says what a listing would have to show for an instruction.  The main statement
is that it shows just that, and that neither mapping resolves an argument which the other one
refuses (`resolved_alike`).  The exception is the comparison, whose selector a listing takes as it
is.
-/

namespace StackMachine

/-! ## Instructions as they are listed -/

namespace Instruction

/-- The opcode that the instruction stands for. -/
def opcode : Instruction → Opcode
  | popTop => .popTop
  | rotTwo => .rotTwo
  | rotThree => .rotThree
  | dupTop => .dupTop
  | unary op => .unary op
  | binary op => .binary op
  | compare _ => .compareOp
  | buildTuple _ => .buildTuple
  | buildList _ => .buildList
  | buildMap _ => .buildMap
  | storeMap => .storeMap
  | storeSubscript => .storeSubscript
  | listAppend _ => .listAppend
  | loadConst .. => .loadConst
  | loadName _ => .loadName
  | storeName _ => .storeName
  | loadGlobal _ => .loadGlobal
  | storeGlobal _ => .storeGlobal
  | loadFast _ => .loadFast
  | storeFast _ => .storeFast
  | loadClosure _ => .loadClosure
  | loadDeref _ => .loadDeref
  | storeDeref _ => .storeDeref
  | loadAttr _ => .loadAttr
  | storeAttr _ => .storeAttr
  | jumpForward _ => .jumpForward
  | jumpAbsolute _ => .jumpAbsolute
  | popJumpIfFalse _ => .popJumpIfFalse
  | popJumpIfTrue _ => .popJumpIfTrue
  | jumpIfFalseOrPop _ => .jumpIfFalseOrPop
  | jumpIfTrueOrPop _ => .jumpIfTrueOrPop
  | getIter => .getIter
  | forIter _ => .forIter
  | setupLoop _ => .setupLoop
  | setupExcept _ => .setupExcept
  | setupFinally _ => .setupFinally
  | popBlock => .popBlock
  | breakLoop => .breakLoop
  | continueLoop _ => .continueLoop
  | popExcept => .popExcept
  | endFinally => .endFinally
  | raiseVarargs _ => .raiseVarargs
  | makeFunction _ => .makeFunction
  | makeClosure _ => .makeClosure
  | callFunction .. => .callFunction
  | returnValue => .returnValue
  | printItem => .printItem
  | printNewline => .printNewline

/-- The operand that stands for what the instruction carries: its constant, its name, its cell, the
place that it goes to or its count.  A call carries two counts, in the two bytes of one number. -/
def shown (unit : CodeUnit) : Instruction → Operand
  | loadConst place c => .const place c
  | loadName s | storeName s | loadGlobal s | storeGlobal s | loadFast s | storeFast s | loadAttr s
  | storeAttr s => .name s
  | loadClosure slot | loadDeref slot | storeDeref slot =>
    .cell slot ((unit.slotName? slot).getD "?")
  | jumpForward t | jumpAbsolute t | popJumpIfFalse t | popJumpIfTrue t | jumpIfFalseOrPop t
  | jumpIfTrueOrPop t | forIter t | continueLoop t | setupLoop t | setupExcept t | setupFinally t =>
    .target t
  | buildTuple n | buildList n | buildMap n | listAppend n | raiseVarargs n | makeFunction n
  | makeClosure n => .count n
  | callFunction positional keyword => .count (positional + 256 * keyword)
  | compare op => .count op.selector
  | _ => .none

end Instruction

/-! ## The two mappings -/

lemma map_map {α β γ : Type} (x : Except FatalError α) (f : α → β) (g : β → γ) :
    (x.map f).map g = x.map fun v => g (f v) := by
  cases x with
  | error e => rfl
  | ok v => rfl

namespace RawArgument

variable {a : RawArgument} {op : Opcode}

/-- The instruction has the opcode that it was made for. -/
lemma instruction_opcode {i : Instruction} (h : a.instruction op = .ok i) : i.opcode = op := by
  cases op
  case loadConst | loadName | storeName | loadGlobal | storeGlobal | loadFast | storeFast | loadAttr
      | storeAttr | loadClosure | loadDeref | storeDeref | compareOp | jumpForward | jumpAbsolute
      | popJumpIfFalse | popJumpIfTrue | jumpIfFalseOrPop | jumpIfTrueOrPop | forIter | continueLoop
      | setupLoop | setupExcept | setupFinally =>
    obtain ⟨_, -, rfl⟩ := map_eq_ok h
    rfl
  all_goals
    cases h
    rfl

/-- The two bytes of the argument of a call. -/
lemma instruction_call {positional keyword : Nat}
    (h : a.instruction op = .ok (.callFunction positional keyword)) :
    positional = a.raw % 256 ∧ keyword = a.raw / 256 := by
  have hop : op = .callFunction := (instruction_opcode h).symm
  subst hop
  cases h
  exact ⟨rfl, rfl⟩

/-- **Both mappings agree**, refusals included.  There is one case for each kind of operand; within
a kind the opcodes differ in the constructor only. -/
lemma operand_eq_shown (unit : CodeUnit) (offset raw : Nat) (hop : op ≠ .compareOp) :
    unit.operand op raw offset =
      (instruction ⟨unit, offset, offset + op.width, raw⟩ op).map (·.shown unit) := by
  cases op
  case compareOp => exact absurd rfl hop
  case callFunction =>
    show Except.ok (Operand.count raw) = .ok (.count (raw % 256 + 256 * (raw / 256)))
    rw [Nat.mod_add_div]
  case loadConst | loadName | storeName | loadGlobal | storeGlobal | loadFast | storeFast | loadAttr
      | storeAttr | loadClosure | loadDeref | storeDeref | jumpForward | jumpAbsolute
      | popJumpIfFalse | popJumpIfTrue | jumpIfFalseOrPop | jumpIfTrueOrPop | forIter | continueLoop
      | setupLoop | setupExcept | setupFinally =>
    symm
    apply map_map
  all_goals rfl

end RawArgument

/-! ## Comparisons -/

namespace CompareOp

lemma exists_selector {n : Nat} (h : n ≤ 10) : ∃ op, ofSelector? n = some op := by
  have hall : ∀ n : Fin 11, (ofSelector? n).isSome := by decide
  exact Option.isSome_iff_exists.1 (hall ⟨n, Nat.lt_succ_of_le h⟩)

lemma selector_le (op : CompareOp) : op.selector ≤ 10 := by
  cases op <;> decide

lemma ofSelector?_eq_none {n : Nat} (h : 10 < n) : ofSelector? n = none := by
  rw [Option.eq_none_iff_forall_ne_some]
  intro op hop
  rw [ofSelector?_eq_some_iff] at hop
  have := op.selector_le
  omega

end CompareOp

/-! ## Agreement -/

namespace CodeUnit

variable {unit : CodeUnit} {offset : Nat} {f : Fetched}

/-- The next instruction starts where this one ends. -/
lemma fetch_next (h : unit.fetch offset = .ok (some f)) : f.next = offset + f.op.width := by
  unfold fetch at h
  split at h
  · cases h
  · split at h
    · cases h
    · split at h
      · cases h
      · next op _ =>
        cases harg : op.hasArgument with
        | true =>
          rw [if_pos harg] at h
          split at h
          · cases h
            simp [Opcode.width, harg]
          · cases h
        | false =>
          rw [if_neg (by rw [harg]; exact Bool.false_ne_true)] at h
          cases h
          simp [Opcode.width, harg]

/-- What is decoded is the instruction of what has been fetched. -/
lemma decode_of_fetch (h : unit.fetch offset = .ok (some f)) :
    unit.decode offset =
      (RawArgument.instruction ⟨unit, offset, f.next, f.raw⟩ f.op).map fun i =>
        some (i, f.next) := by
  simp only [decode, h]
  cases RawArgument.instruction ⟨unit, offset, f.next, f.raw⟩ f.op with
  | error e => rfl
  | ok i => rfl

end CodeUnit

/-- **What is listed is what runs.**  Let an instruction be fetched at some offset of a unit, with
any opcode and any raw argument.  The next one starts behind its bytes, in either reading.

* Unless it is a comparison, the machine decodes it if and only if its operand can be resolved for a
  listing.  If so, the machine executes an instruction of that opcode, and what it carries is what
  is shown, where a call has the two bytes of the count that is shown.  If not, both fail with the
  same defect at the offset of the instruction.
* For a comparison a listing shows the selector, whatever it is.  The machine decodes the comparison
  of that selector if it is one of the eleven, and otherwise refuses it. -/
theorem resolved_alike {unit : CodeUnit} {offset : Nat} {f : Fetched}
    (h : unit.fetch offset = .ok (some f)) :
    f.next = offset + f.op.width ∧
    (f.op ≠ .compareOp →
      match unit.operand f.op f.raw offset with
      | .ok x => ∃ i, unit.decode offset = .ok (some (i, f.next)) ∧ i.opcode = f.op ∧
          i.shown unit = x ∧ ∀ positional keyword, i = .callFunction positional keyword →
            positional = f.raw % 256 ∧ keyword = f.raw / 256
      | .error e => unit.decode offset = .error e ∧ ∃ d, e = .malformedCode offset d) ∧
    (f.op = .compareOp →
      unit.operand f.op f.raw offset = .ok (.count f.raw) ∧
      (f.raw ≤ 10 → ∃ op : CompareOp, op.selector = f.raw ∧
        unit.decode offset = .ok (some (.compare op, f.next))) ∧
      (10 < f.raw →
        unit.decode offset = .error (.malformedCode offset (.unknownComparison f.raw)))) := by
  have hnext := CodeUnit.fetch_next h
  have hdecode := CodeUnit.decode_of_fetch h
  refine ⟨hnext, ?_, ?_⟩
  · intro hop
    have hshown := RawArgument.operand_eq_shown unit offset f.raw hop
    rw [← hnext] at hshown
    rw [hshown]
    cases hi : RawArgument.instruction ⟨unit, offset, f.next, f.raw⟩ f.op with
    | ok i =>
      rw [hi] at hdecode
      refine ⟨i, hdecode, RawArgument.instruction_opcode hi, rfl, ?_⟩
      rintro positional keyword rfl
      exact RawArgument.instruction_call hi
    | error e =>
      rw [hi] at hdecode
      obtain ⟨d, hd, -⟩ := RawArgument.instruction_refused hi
      exact ⟨hdecode, d, hd⟩
  · intro hop
    rw [hop] at hdecode ⊢
    refine ⟨rfl, ?_, ?_⟩
    · intro hle
      obtain ⟨op, hselects⟩ := CompareOp.exists_selector hle
      refine ⟨op, (CompareOp.ofSelector?_eq_some_iff.1 hselects).symm, ?_⟩
      rw [hdecode]
      simp [RawArgument.instruction, RawArgument.comparison, hselects, Except.map]
    · intro hlt
      rw [hdecode]
      simp [RawArgument.instruction, RawArgument.comparison, CompareOp.ofSelector?_eq_none hlt,
        Except.map]

/-- A comparison with the selector 11, and before it a jump behind it. -/
def comparingUnit : CodeUnit :=
  { (.named "comparing" : CodeUnit) with code := #[0x70, 3, 0, 0x64, 11, 0] }

/-- The jump leads to the end of the stream in both readings; the comparison is only listed. -/
theorem resolved_alike_when_comparing :
    (∃ i, comparingUnit.decode 0 = .ok (some (i, 3)) ∧ i.opcode = .jumpForward ∧
      i.shown comparingUnit = .target 6) ∧
    comparingUnit.operand .compareOp 11 3 = .ok (.count 11) ∧
    comparingUnit.decode 3 = .error (.malformedCode 3 (.unknownComparison 11)) := by
  have hjump : comparingUnit.fetch 0 = .ok (some ⟨.jumpForward, 3, 3⟩) := rfl
  have hcompare : comparingUnit.fetch 3 = .ok (some ⟨.compareOp, 11, 6⟩) := rfl
  obtain ⟨-, hlisted, -⟩ := resolved_alike hjump
  obtain ⟨i, hdecode, hop, hshown, -⟩ := hlisted (by decide)
  obtain ⟨-, -, hcompared⟩ := resolved_alike hcompare
  obtain ⟨hoperand, -, hrefused⟩ := hcompared rfl
  exact ⟨⟨i, hdecode, hop, hshown⟩, hoperand, hrefused (by decide)⟩

end StackMachine
