import Mathlib.Tactic.Lemma
import StackMachine.Code.Source
import StackMachine.Proofs.InstructionStream
/-!
# Writing statements

What one statement of an assembly source adds to a unit.  A statement that does not fail is of one
of two kinds.  Either it appends one instruction whose argument, looked up in the tables as they are
then, is what the statement names (`Wrote`), or it is about a label and touches no byte (`Marked`).
Tables only ever grow, so what an argument means is not changed by what is written later
(`Statement.Denotes.mono`).  The argument of a jump is the exception: it is written as zero and left
to the end, and the statement only leaves a note of it.
-/

namespace StackMachine

/-! ## Statements and what they write -/

namespace Statement

/-- The opcode of the instruction that a statement writes; one about a label writes none. -/
def opcode? : Statement → Option Opcode
  | plain op | argument op _ | name op _ _ | localName op _ _ | cell op _ _ | jump op _ => some op
  | const _ => some .loadConst
  | compare _ => some .compareOp
  | call .. => some .callFunction
  | label | bind _ => none

/-- The jump that a statement leaves to be filled in; `offset` is where its instruction stands. -/
def fixup? (offset : Nat) : Statement → Option Fixup
  | jump op target => some ⟨offset, op, target⟩
  | _ => none

/-- What the argument `raw` of a statement's instruction means in the tables of `unit`, when the
statement has been written by the assembler `a`. -/
def Denotes (a : Assembler) (unit : CodeUnit) (raw : Nat) : Statement → Prop
  | plain _ | jump .. => True
  | argument _ n => raw = n
  | const c => ∃ c', unit.consts[raw]? = some c' ∧
      (raw = a.unit.consts.length ∧ c' = c ∨
        a.unit.consts[raw]? = some c' ∧ c'.interchangeable c)
  | name _ s _ => unit.names[raw]? = some s
  | localName _ s _ => unit.localNames[raw]? = some s
  | cell _ s _ => unit.slotNames[raw]? = some s
  | compare op => raw = op.selector
  | call p k => raw % 256 = p ∧ raw / 256 = k
  | label | bind _ => False

end Statement

/-- The tables of `v` are those of `u` and may go on. -/
structure CodeUnit.Grows (u v : CodeUnit) : Prop where
  consts : u.consts <+: v.consts
  names : u.names <+: v.names
  localNames : u.localNames <+: v.localNames
  slotNames : v.slotNames = u.slotNames

namespace CodeUnit.Grows

variable {u v w : CodeUnit}

lemma refl (u : CodeUnit) : u.Grows u :=
  ⟨List.prefix_rfl, List.prefix_rfl, List.prefix_rfl, rfl⟩

lemma trans (huv : u.Grows v) (hvw : v.Grows w) : u.Grows w :=
  ⟨huv.consts.trans hvw.consts, huv.names.trans hvw.names,
    huv.localNames.trans hvw.localNames, hvw.slotNames.trans huv.slotNames⟩

end CodeUnit.Grows

lemma getElem?_of_prefix {α : Type} {xs ys : List α} {i : Nat} {x : α} (h : xs <+: ys)
    (hx : xs[i]? = some x) : ys[i]? = some x := by
  obtain ⟨zs, rfl⟩ := h
  have hi : i < xs.length := (List.getElem?_eq_some_iff.1 hx).1
  rw [List.getElem?_append_left hi, hx]

/-- A meaning is kept when tables grow. -/
lemma Statement.Denotes.mono {st : Statement} {a : Assembler} {u v : CodeUnit} {raw : Nat}
    (h : st.Denotes a u raw) (huv : u.Grows v) : st.Denotes a v raw := by
  cases st with
  | const c =>
    obtain ⟨c', hplace, hc⟩ := h
    exact ⟨c', getElem?_of_prefix huv.consts hplace, hc⟩
  | name op s kind => exact getElem?_of_prefix huv.names h
  | localName op s kind => exact getElem?_of_prefix huv.localNames h
  | cell op s kind =>
    show v.slotNames[raw]? = some s
    rw [huv.slotNames]
    exact h
  | _ => exact h

namespace Assembler

variable {a b : Assembler} {st : Statement} {op : Opcode}

/-! ## One statement -/

/-- The statement has been written by `a`, which has become `b`, as the instruction `i`. -/
structure Wrote (a : Assembler) (st : Statement) (b : Assembler) (i : RawInstruction) : Prop where
  error? : a.error? = none
  opcode : st.opcode? = some i.op
  code : b.unit.code.toList = a.unit.code.toList ++ i.bytes
  fixups : b.fixups.toList = a.fixups.toList ++ (st.fixup? a.offset).toList
  labels : b.labels = a.labels
  grows : a.unit.Grows b.unit
  denotes : st.Denotes a b.unit i.raw
  isJump : (st.fixup? a.offset).isSome → i.op.isJump

lemma fail_error? (a : Assembler) (e : AssembleError) : (a.fail e).error? ≠ none := by
  unfold fail
  cases h : a.error? with
  | none => simp
  | some e' => simp [h]

lemma append_code (a : Assembler) (bytes : List UInt8) :
    (a.append bytes).unit.code.toList = a.unit.code.toList ++ bytes := by
  simp [append]

/-- An instruction without argument. -/
lemma emit_ok (h : (a.emit op).error? = none) :
    a.error? = none ∧ op.hasArgument = false ∧ a.emit op = a.append [op.byte] := by
  unfold emit at h ⊢
  cases harg : op.hasArgument with
  | true =>
    rw [harg] at h
    exact absurd h (fail_error? a _)
  | false =>
    rw [harg] at h
    exact ⟨h, rfl, rfl⟩

/-- An instruction with an argument. -/
lemma emitArg_ok {n : Nat} (h : (a.emitArg op n).error? = none) :
    a.error? = none ∧ op.hasArgument = true ∧ n < argumentBound ∧
      a.emitArg op n = a.append (op.encode n) := by
  unfold emitArg at h ⊢
  cases harg : op.hasArgument with
  | false =>
    rw [harg] at h
    exact absurd h (fail_error? a _)
  | true =>
    rw [harg] at h
    by_cases hn : n < argumentBound
    · simp only [hn, if_true] at h ⊢
      exact ⟨h, trivial, trivial, rfl⟩
    · simp only [hn, if_false] at h
      exact absurd h (fail_error? a _)

/-- An instruction whose argument points into the tables of `c`, which are those of `a` and may go
on. -/
lemma wrote_emitArg {c : Assembler} {n : Nat} (h : (c.emitArg op n).error? = none)
    (herror : c.error? = none → a.error? = none) (hop : st.opcode? = some op)
    (hcode : c.unit.code = a.unit.code)
    (hfixups : c.fixups.toList = a.fixups.toList ++ (st.fixup? a.offset).toList)
    (hlabels : c.labels = a.labels) (hgrows : a.unit.Grows c.unit)
    (hdenotes : st.Denotes a c.unit n) (hjump : (st.fixup? a.offset).isSome → op.isJump) :
    ∃ i, a.Wrote st (c.emitArg op n) i := by
  obtain ⟨hc, harg, hn, heq⟩ := emitArg_ok h
  let i : RawInstruction := ⟨op, n, hn, by simp [harg]⟩
  have happend : (c.append (op.encode n)).unit.code.toList = a.unit.code.toList ++ i.bytes := by
    rw [append_code, hcode]
    rfl
  rw [heq]
  exact ⟨i, herror hc, hop, happend, hfixups, hlabels,
    ⟨hgrows.1, hgrows.2, hgrows.3, hgrows.4⟩, hdenotes, hjump⟩

lemma intern_spec (table : List String) (s : String) :
    table <+: (intern table s).2 ∧ (intern table s).2[(intern table s).1]? = some s := by
  unfold intern
  cases h : table.findIdx? (· == s) with
  | none => exact ⟨List.prefix_append table [s], by simp⟩
  | some place =>
    obtain ⟨hlt, hplace, -⟩ := List.findIdx?_eq_some_iff_getElem.1 h
    refine ⟨List.prefix_rfl, ?_⟩
    rw [List.getElem?_eq_getElem hlt, eq_of_beq hplace]

lemma wrote_loadConst {c : Const} (h : (a.loadConst c).error? = none) :
    ∃ i, a.Wrote (.const c) (a.loadConst c) i := by
  unfold loadConst at h ⊢
  cases hfind : a.unit.consts.findIdx? fun c' => c'.interchangeable c with
  | some place =>
    rw [hfind] at h
    obtain ⟨hlt, hshared, -⟩ := List.findIdx?_eq_some_iff_getElem.1 hfind
    have hplace : a.unit.consts[place]? = some a.unit.consts[place] :=
      List.getElem?_eq_getElem hlt
    exact wrote_emitArg h id rfl rfl (List.append_nil _).symm rfl (.refl _)
      ⟨_, hplace, .inr ⟨hplace, hshared⟩⟩ nofun
  | none =>
    rw [hfind] at h
    have hplace : (a.unit.consts ++ [c])[a.unit.consts.length]? = some c := by simp
    exact wrote_emitArg h id rfl rfl (List.append_nil _).symm rfl
      ⟨List.prefix_append _ _, List.prefix_rfl, List.prefix_rfl, rfl⟩
      ⟨c, hplace, .inl ⟨rfl, rfl⟩⟩ nofun

lemma wrote_emitCell {s : String} {kind : op.operandKind = .cell}
    (h : (a.emitCell op s).error? = none) :
    ∃ i, a.Wrote (.cell op s kind) (a.emitCell op s) i := by
  unfold emitCell at h ⊢
  cases hfind : a.unit.slotNames.findIdx? (· == s) with
  | some slot =>
    rw [hfind] at h
    obtain ⟨hlt, hname, -⟩ := List.findIdx?_eq_some_iff_getElem.1 hfind
    have hslot : a.unit.slotNames[slot]? = some s := by
      rw [List.getElem?_eq_getElem hlt, eq_of_beq hname]
    exact wrote_emitArg h id rfl rfl (List.append_nil _).symm rfl (.refl _) hslot nofun
  | none =>
    rw [hfind] at h
    exact absurd (emitArg_ok h).1 (fail_error? a _)

lemma wrote_call {p k : Nat} (h : (a.call p k).error? = none) :
    ∃ i, a.Wrote (.call p k) (a.call p k) i := by
  unfold call at h ⊢
  by_cases hcount : 255 < p ∨ 255 < k
  · simp only [hcount, if_true] at h
    exact absurd (emitArg_ok h).1 (fail_error? a _)
  · simp only [hcount, if_false] at h ⊢
    have hcounts : (k % 256 * 256 + p % 256) % 256 = p ∧ (k % 256 * 256 + p % 256) / 256 = k := by
      omega
    exact wrote_emitArg h id rfl rfl (List.append_nil _).symm rfl (.refl _) hcounts nofun

lemma wrote_jump {l : Nat} (h : (a.jump op l).error? = none) :
    ∃ i, a.Wrote (.jump op l) (a.jump op l) i := by
  unfold jump at h ⊢
  cases hop : op.isJump with
  | false =>
    rw [hop] at h
    exact absurd (emitArg_ok h).1 (fail_error? a _)
  | true =>
    rw [hop] at h
    exact wrote_emitArg h id rfl rfl (by simp [Statement.fixup?]) rfl (.refl _) trivial
      fun _ => hop

/-- The statement is about a label and has been carried out by `a`, which has become `b`. -/
structure Marked (a : Assembler) (st : Statement) (b : Assembler) : Prop where
  error? : a.error? = none
  opcode : st.opcode? = none
  unit : b.unit = a.unit
  fixups : b.fixups = a.fixups
  labelOffset? : ∀ l t, b.labelOffset? l = some t ↔
    a.labelOffset? l = some t ∨ st = .bind l ∧ l < a.labels.size ∧ t = a.offset

lemma marked_label (h : a.newLabel.2.error? = none) : a.Marked .label a.newLabel.2 := by
  refine ⟨h, rfl, rfl, rfl, fun l t => ?_⟩
  have hpush : a.newLabel.2.labelOffset? l = a.labelOffset? l := by
    unfold newLabel Assembler.labelOffset?
    rw [Array.getElem?_push]
    by_cases hl : l = a.labels.size
    · rw [if_pos hl, hl, Array.getElem?_eq_none (Nat.le_refl _)]
      rfl
    · rw [if_neg hl]
  rw [hpush]
  simp

lemma marked_bind {label : Nat} (h : (a.bind label).error? = none) :
    a.Marked (.bind label) (a.bind label) := by
  unfold bind at h ⊢
  cases hlabel : a.labelOffset? label with
  | some t =>
    rw [hlabel] at h
    exact absurd h (fail_error? a _)
  | none =>
    rw [hlabel] at h
    refine ⟨h, rfl, rfl, rfl, fun l t => ?_⟩
    by_cases hl : label = l
    · subst hl
      rw [hlabel]
      unfold Assembler.labelOffset?
      by_cases hsize : label < a.labels.size
      · simp [hsize, eq_comm]
      · simp [hsize]
    · simp [Assembler.labelOffset?, Array.getElem?_setIfInBounds_ne hl, hl]

/-- A statement that has not failed has written an instruction or is about a label. -/
theorem write_cases (a : Assembler) (st : Statement) (h : (a.write st).error? = none) :
    (∃ i, a.Wrote st (a.write st) i) ∨ a.Marked st (a.write st) := by
  cases st with
  | plain op =>
    obtain ⟨herror, harg, heq⟩ := emit_ok h
    have hwrite : a.write (.plain op) = a.append [op.byte] := heq
    have hbytes : op.encode 0 = [op.byte] := by simp [Opcode.encode, harg]
    refine .inl ⟨⟨op, 0, by omega, fun _ => rfl⟩, herror, rfl, ?_, ?_, ?_, ?_, trivial, ?_⟩
    · rw [hwrite, append_code, RawInstruction.bytes, hbytes]
    · rw [hwrite]
      exact (List.append_nil _).symm
    · rw [hwrite]
      rfl
    · rw [hwrite]
      exact ⟨List.prefix_rfl, List.prefix_rfl, List.prefix_rfl, rfl⟩
    · exact nofun
  | argument op n =>
    exact .inl (wrote_emitArg h id rfl rfl (List.append_nil _).symm rfl (.refl _) rfl nofun)
  | const c => exact .inl (wrote_loadConst h)
  | name op s kind =>
    obtain ⟨hgrows, hplace⟩ := intern_spec a.unit.names s
    exact .inl (wrote_emitArg h id rfl rfl (List.append_nil _).symm rfl
      ⟨List.prefix_rfl, hgrows, List.prefix_rfl, rfl⟩ hplace nofun)
  | localName op s kind =>
    obtain ⟨hgrows, hplace⟩ := intern_spec a.unit.localNames s
    exact .inl (wrote_emitArg h id rfl rfl (List.append_nil _).symm rfl
      ⟨List.prefix_rfl, List.prefix_rfl, hgrows, rfl⟩ hplace nofun)
  | cell op s kind => exact .inl (wrote_emitCell h)
  | compare op =>
    exact .inl (wrote_emitArg h id rfl rfl (List.append_nil _).symm rfl (.refl _) rfl nofun)
  | call p k => exact .inl (wrote_call h)
  | label => exact .inr (marked_label h)
  | bind l => exact .inr (marked_bind h)
  | jump op l => exact .inl (wrote_jump h)

end Assembler

end StackMachine
