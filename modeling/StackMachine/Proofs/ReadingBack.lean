import Mathlib.Data.List.Forall2
import StackMachine.Proofs.Assembling
/-!
# Assembled units read back

An assembler and a decoder of the same instruction set agree: what is fetched from an assembled unit
is what its source says, statement by statement.

The bytes are written in two passes, the first of which leaves the arguments of jumps at zero.  The
second pass overwrites these arguments in place, in the order in which the jumps were written, so
one induction over the body follows both passes at once: its invariant is that the bytes of the
instructions so far are final and that the fixups that are left belong to what is still to come
(`patched`).  Where labels are bound is a statement about the first pass alone
(`labelOffset?_writeAll`).
-/

namespace StackMachine

namespace Assembler

variable {a z : Assembler}

/-- The statements of a body, each with the assembler that writes it. -/
def placedFrom (a : Assembler) : List Statement → List (Assembler × Statement)
  | [] => []
  | st :: rest => (a, st) :: (a.write st).placedFrom rest

/-- Those statements of a body that write an instruction. -/
def instructionsFrom (a : Assembler) (body : List Statement) : List (Assembler × Statement) :=
  (a.placedFrom body).filter fun p => p.2.opcode?.isSome

/-! ## Writing a body -/

lemma error?_of_write {st : Statement} (h : (a.write st).error? = none) : a.error? = none := by
  obtain ⟨i, hw⟩ | hm := write_cases a st h
  · exact hw.error?
  · exact hm.error?

/-- An error is never forgotten. -/
lemma error?_of_writeAll {body : List Statement} (h : (a.writeAll body).error? = none) :
    a.error? = none := by
  induction body generalizing a with
  | nil => exact h
  | cons st rest ih => exact error?_of_write (ih h)

/-- Where a label is bound in the end: where it was bound before, or where a statement of the body
binds it.  A label has to be declared before it can be bound. -/
lemma labelOffset?_writeAll {body : List Statement} {l t : Nat}
    (h : (a.writeAll body).error? = none) :
    (a.writeAll body).labelOffset? l = some t ↔ a.labelOffset? l = some t ∨
      ∃ p ∈ a.placedFrom body, p.2 = .bind l ∧ l < p.1.labels.size ∧ t = p.1.offset := by
  induction body generalizing a with
  | nil =>
    show a.labelOffset? l = some t ↔ _
    simp [placedFrom]
  | cons st rest ih =>
    have hrest := ih h
    have hwrite : (a.write st).error? = none := error?_of_writeAll h
    have hstep : (a.write st).labelOffset? l = some t ↔ a.labelOffset? l = some t ∨
        st = .bind l ∧ l < a.labels.size ∧ t = a.offset := by
      obtain ⟨i, hw⟩ | hm := write_cases a st hwrite
      · have hbind : st ≠ .bind l := by
          rintro rfl
          exact absurd hw.opcode nofun
        simp [labelOffset?, hw.labels, hbind]
      · exact hm.labelOffset? l t
    show (Assembler.writeAll (a.write st) rest).labelOffset? l = some t ↔ _
    rw [hrest, hstep, or_assoc]
    simp [placedFrom]

/-- An offset at which an instruction of the body stands, or the one behind all of them. -/
def IsBoundary (a : Assembler) (body : List Statement) (offset : Nat) : Prop :=
  offset = (a.writeAll body).offset ∨ ∃ p ∈ a.instructionsFrom body, p.1.offset = offset

lemma IsBoundary.of_rest {st : Statement} {rest : List Statement} {offset : Nat}
    (h : (a.write st).IsBoundary rest offset) : a.IsBoundary (st :: rest) offset := by
  obtain hend | ⟨p, hp, hoffset⟩ := h
  · exact .inl hend
  · refine .inr ⟨p, ?_, hoffset⟩
    obtain ⟨hplaced, hop⟩ := List.mem_filter.1 hp
    exact List.mem_filter.2 ⟨List.mem_cons_of_mem _ hplaced, hop⟩

/-- The beginning of a body is a boundary: either its first statement writes an instruction, or it
leaves the offset as it is. -/
lemma isBoundary_offset {body : List Statement} (h : (a.writeAll body).error? = none) :
    a.IsBoundary body a.offset := by
  induction body generalizing a with
  | nil => exact .inl rfl
  | cons st rest ih =>
    obtain ⟨i, hw⟩ | hm := write_cases a st (error?_of_writeAll h)
    · have hop : st.opcode?.isSome := by simp [hw.opcode]
      exact .inr ⟨(a, st), List.mem_filter.2 ⟨List.mem_cons_self, hop⟩, rfl⟩
    · have hoffset : (a.write st).offset = a.offset := by
        unfold offset
        rw [hm.unit]
      have hrest := ih h
      rw [hoffset] at hrest
      exact hrest.of_rest

/-- Every statement stands at a boundary. -/
lemma isBoundary_of_mem {body : List Statement} {p : Assembler × Statement}
    (h : (a.writeAll body).error? = none) (hp : p ∈ a.placedFrom body) :
    a.IsBoundary body p.1.offset := by
  induction body generalizing a with
  | nil => exact absurd hp List.not_mem_nil
  | cons st rest ih =>
    obtain rfl | hrest := List.mem_cons.1 hp
    · exact isBoundary_offset h
    · exact (ih h hrest).of_rest

/-! ## Filling in jumps -/

/-- The argument that a jump is given is where its label is bound, counted from behind the jump if
the jump is relative. -/
lemma jumpArgument_ok {f : Fixup} {n : Nat} (h : a.jumpArgument f = .ok n) :
    ∃ t, a.labelOffset? f.label = some t ∧ n < argumentBound ∧
      if f.op.operandKind = .relativeJump then f.offset + f.op.width + n = t else n = t := by
  unfold jumpArgument at h
  cases hlabel : a.labelOffset? f.label with
  | none =>
    rw [hlabel] at h
    cases h
  | some t =>
    refine ⟨t, rfl, ?_⟩
    rw [hlabel] at h
    by_cases hrelative : f.op.operandKind = .relativeJump
    · simp only [hrelative, if_true, true_and] at h ⊢
      by_cases hback : t < f.offset + f.op.width
      · simp [hback] at h
      · by_cases hn : t - (f.offset + f.op.width) < argumentBound
        · simp only [hback, if_false, hn, if_true, Except.ok.injEq] at h
          omega
        · simp [hback, hn] at h
    · by_cases hn : t < argumentBound
      · simp only [hrelative, false_and, if_false, hn, if_true, Except.ok.injEq] at h ⊢
        omega
      · simp [hrelative, hn] at h

lemma hasArgument_of_isJump {op : Opcode} (h : op.isJump) : op.hasArgument := by
  cases op <;> first | rfl | exact absurd h Bool.false_ne_true

/-- Filling in an argument changes the instruction and nothing before or behind it. -/
lemma patch_instruction {i : RawInstruction} {before behind : List UInt8} {code : Array UInt8}
    {n : Nat} (hop : i.op.hasArgument) (h : code.toList = before ++ (i.bytes ++ behind)) :
    (patch code before.length n).toList = before ++ (i.op.encode n ++ behind) := by
  have hi : i.bytes = [i.op.byte, UInt8.ofNat (i.raw % 256), UInt8.ofNat (i.raw / 256)] := by
    simp [RawInstruction.bytes, Opcode.encode, hop]
  have hn : i.op.encode n = [i.op.byte, UInt8.ofNat (n % 256), UInt8.ofNat (n / 256)] := by
    simp [Opcode.encode, hop]
  unfold patch
  rw [Array.toList_setIfInBounds, Array.toList_setIfInBounds, h, hi, hn,
    List.set_append_right _ _ (by omega), List.set_append_right _ _ (by omega)]
  simp [show before.length + 2 - before.length = 2 by omega]

lemma size_patchAll {code code' : Array UInt8} {fixups : List Fixup}
    (h : z.patchAll code fixups = .ok code') : code'.size = code.size := by
  induction fixups generalizing code with
  | nil =>
    cases h
    rfl
  | cons f rest ih =>
    unfold patchAll at h
    split at h
    · cases h
    · rw [ih h]
      simp [patch]

/-- The instruction `x` is the one that the statement writes, in a unit that the assembler `z` has
written in the end. -/
def Agrees (z : Assembler) (p : Assembler × Statement) (x : Nat × Fetched) : Prop :=
  x.1 = p.1.offset ∧ p.2.opcode? = some x.2.op ∧ p.2.Denotes p.1 z.unit x.2.raw ∧
    ∀ f, p.2.fixup? p.1.offset = some f → f.op.isJump ∧ z.jumpArgument f = .ok x.2.raw

/-- What the second pass does to one instruction: nothing, unless it is a jump. -/
lemma Wrote.settled {st : Statement} {b : Assembler} {i : RawInstruction}
    {before tail : List UInt8} {later : List Fixup} {code code' : Array UInt8}
    (hw : a.Wrote st b i) (hz : b.unit.Grows z.unit) (hbefore : before.length = a.offset)
    (hcode : code.toList = before ++ (i.bytes ++ tail))
    (hpatch : z.patchAll code ((st.fixup? a.offset).toList ++ later) = .ok code') :
    ∃ j : RawInstruction, ∃ code₁ : Array UInt8, j.op = i.op ∧
      z.Agrees (a, st) (a.offset, j.fetched a.offset) ∧
      code₁.toList = (before ++ j.bytes) ++ tail ∧ z.patchAll code₁ later = .ok code' := by
  cases hfixup : st.fixup? a.offset with
  | none =>
    rw [hfixup] at hpatch
    refine ⟨i, code, rfl, ⟨rfl, hw.opcode, hw.denotes.mono hz, ?_⟩, ?_, hpatch⟩
    · intro f hf
      rw [hfixup] at hf
      cases hf
    · rw [hcode, List.append_assoc]
  | some f =>
    have hjump : i.op.isJump := hw.isJump (by simp [hfixup])
    have hop : i.op.hasArgument := hasArgument_of_isJump hjump
    obtain ⟨op, l, rfl⟩ : ∃ op l, st = .jump op l := by
      cases st <;> first | exact ⟨_, _, rfl⟩ | cases hfixup
    rw [hfixup] at hpatch
    cases hfixup
    obtain rfl : op = i.op := Option.some.inj hw.opcode
    unfold patchAll at hpatch
    cases hargument : z.jumpArgument ⟨a.offset, i.op, l⟩ with
    | error e => simp [hargument] at hpatch
    | ok n =>
      simp only [Option.toList_some, List.cons_append, List.nil_append, hargument] at hpatch
      obtain ⟨t, -, hn, -⟩ := jumpArgument_ok hargument
      let j : RawInstruction := ⟨i.op, n, hn, by simp [hop]⟩
      refine ⟨j, patch code a.offset n, rfl, ⟨rfl, rfl, trivial, ?_⟩, ?_, hpatch⟩
      · intro f hf
        cases hf
        exact ⟨hjump, hargument⟩
      · rw [← hbefore, patch_instruction hop hcode, List.append_assoc]
        rfl

lemma Wrote.offset_eq {st : Statement} {b : Assembler} {i : RawInstruction}
    (hw : a.Wrote st b i) : b.offset = a.offset + i.op.width := by
  have hlength := congrArg List.length hw.code
  rwa [Array.length_toList, List.length_append, Array.length_toList, i.length_bytes] at hlength

lemma Marked.offset_eq {st : Statement} {b : Assembler} (hm : a.Marked st b) :
    b.offset = a.offset := by
  unfold offset
  rw [hm.unit]

/-- The second pass, when it comes to the bytes `tail` of a body with the fixups `later`, turns them
into the instructions of the body.  What stands before them, of whatever value, is left alone. -/
def Settles (a : Assembler) (body : List Statement) (tail : List UInt8) (later : List Fixup) :
    Prop :=
  ∀ z code code' before, (a.writeAll body).unit.Grows z.unit → before.length = a.offset →
    code.toList = before ++ tail → patchAll z code later = .ok code' →
    ∃ is, code'.toList = before ++ RawInstruction.stream is ∧
      List.Forall₂ z.Agrees (a.instructionsFrom body) (RawInstruction.places a.offset is)

lemma Settles.of_wrote {st : Statement} {rest : List Statement} {i : RawInstruction}
    {tail : List UInt8} {later : List Fixup} (hw : a.Wrote st (a.write st) i)
    (hgrows : (a.write st).unit.Grows (a.writeAll (st :: rest)).unit)
    (hrest : (a.write st).Settles rest tail later) :
    a.Settles (st :: rest) (i.bytes ++ tail) ((st.fixup? a.offset).toList ++ later) := by
  intro z code code' before hz hbefore hcode hpatch
  obtain ⟨j, code₁, hop, hagrees, hcode₁, hpatch₁⟩ :=
    hw.settled (hgrows.trans hz) hbefore hcode hpatch
  have hnext : a.offset + j.op.width = (a.write st).offset := by rw [hw.offset_eq, hop]
  have hbehind : (before ++ j.bytes).length = (a.write st).offset := by
    rw [List.length_append, j.length_bytes, hbefore, hnext]
  obtain ⟨is, hstream, hall⟩ := hrest z code₁ code' _ hz hbehind hcode₁ hpatch₁
  have hinstructions : a.instructionsFrom (st :: rest) =
      (a, st) :: (a.write st).instructionsFrom rest := by
    simp [instructionsFrom, placedFrom, hw.opcode]
  rw [hinstructions]
  rw [← hnext] at hall
  refine ⟨j :: is, ?_, .cons hagrees hall⟩
  rw [hstream, List.append_assoc]
  rfl

lemma Settles.of_marked {st : Statement} {rest : List Statement} {tail : List UInt8}
    {later : List Fixup} (hm : a.Marked st (a.write st))
    (hrest : (a.write st).Settles rest tail later) : a.Settles (st :: rest) tail later := by
  have hinstructions : a.instructionsFrom (st :: rest) =
      (a.write st).instructionsFrom rest := by
    simp [instructionsFrom, placedFrom, hm.opcode]
  intro z code code' before hz hbefore hcode hpatch
  rw [hinstructions, ← hm.offset_eq]
  exact hrest z code code' before hz (hbefore.trans hm.offset_eq.symm) hcode hpatch

/-- What writing a body adds to a unit, and that the second pass can cope with it. -/
lemma settles (body : List Statement) (h : (a.writeAll body).error? = none) :
    ∃ tail later, (a.writeAll body).unit.code.toList = a.unit.code.toList ++ tail ∧
      (a.writeAll body).fixups.toList = a.fixups.toList ++ later ∧
      a.unit.Grows (a.writeAll body).unit ∧ a.Settles body tail later := by
  induction body generalizing a with
  | nil =>
    refine ⟨[], [], (List.append_nil _).symm, (List.append_nil _).symm, .refl _, ?_⟩
    intro z code code' before _ _ hcode hpatch
    cases hpatch
    exact ⟨[], hcode, .nil⟩
  | cons st rest ih =>
    obtain ⟨tail, later, htail, hlater, hgrows, hrest⟩ := ih h
    obtain ⟨i, hw⟩ | hm := write_cases a st (error?_of_writeAll h)
    · refine ⟨i.bytes ++ tail, (st.fixup? a.offset).toList ++ later, htail.trans ?_,
        hlater.trans ?_, hw.grows.trans hgrows, hrest.of_wrote hw hgrows⟩
      · rw [hw.code, List.append_assoc]
      · rw [hw.fixups, List.append_assoc]
    · rw [hm.unit] at htail hgrows
      rw [hm.fixups] at hlater
      exact ⟨tail, later, htail, hlater, hgrows, hrest.of_marked hm⟩

/-! ## The header -/

/-- A header adds entries to the tables of a unit and nothing else. -/
lemma declareAll_keeps (header : List Declaration) :
    (a.declareAll header).unit.code = a.unit.code ∧ (a.declareAll header).labels = a.labels ∧
      (a.declareAll header).fixups = a.fixups := by
  induction header generalizing a with
  | nil => exact ⟨rfl, rfl, rfl⟩
  | cons d rest ih =>
    have hdeclare : (a.declare d).unit.code = a.unit.code ∧ (a.declare d).labels = a.labels ∧
        (a.declare d).fixups = a.fixups := by
      cases d <;> exact ⟨rfl, rfl, rfl⟩
    obtain ⟨hcode, hlabels, hfixups⟩ := @ih (a.declare d)
    exact ⟨hcode.trans hdeclare.1, hlabels.trans hdeclare.2.1, hfixups.trans hdeclare.2.2⟩

end Assembler

/-- Nothing that is walked through lies behind the end of the stream. -/
lemma CodeUnit.Walks.le_size {unit : CodeUnit} {offset : Nat} {w : Walk}
    (h : unit.Walks offset w) : ∀ x ∈ w, x.1 ≤ unit.size := by
  induction h with
  | done => exact nofun
  | @step offset f rest hfetch hrest ih =>
    intro x hx
    obtain rfl | hx := List.mem_cons.1 hx
    · exact Nat.le_trans (Nat.le_add_right offset _) (CodeUnit.Walks.step hfetch hrest).length_le
    · exact ih x hx

/-- A walk meets what is fetched at each of its places. -/
lemma CodeUnit.Walks.fetch {unit : CodeUnit} {offset : Nat} {w : Walk}
    (h : unit.Walks offset w) : ∀ x ∈ w, unit.fetch x.1 = .ok (some x.2) := by
  induction h with
  | done => exact nofun
  | @step offset f rest hfetch hrest ih =>
    intro x hx
    obtain rfl | hx := List.mem_cons.1 hx
    · exact hfetch
    · exact ih x hx

namespace Source

/-! ## Whole sources -/

/-- The assembler that has made the declarations of the header. -/
def declared (s : Source) : Assembler := (Assembler.start s.name).declareAll s.header

/-- The statements of a source, each with the assembler that writes it. -/
def placed (s : Source) : List (Assembler × Statement) := s.declared.placedFrom s.body

/-- Those statements of a source that write an instruction. -/
def instructions (s : Source) : List (Assembler × Statement) := s.declared.instructionsFrom s.body

/-- The label is bound at an offset, and nowhere else. -/
def BindsAt (s : Source) (l offset : Nat) : Prop :=
  (∃ p ∈ s.placed, p.2 = .bind l ∧ l < p.1.labels.size ∧ p.1.offset = offset) ∧
    ∀ p ∈ s.placed, p.2 = .bind l → l < p.1.labels.size → p.1.offset = offset

/-- What the statement of an instruction names is what comes back when the instruction `f`, which
is fetched at `offset`, is decoded.  The walk `w` goes through the whole unit. -/
def Recovers (s : Source) (unit : CodeUnit) (w : CodeUnit.Walk) (a : Assembler) (offset : Nat)
    (f : Fetched) : Statement → Prop
  | .plain _ => True
  | .argument _ n => f.raw = n
  | .const c => ∃ c', unit.operand f.op f.raw offset = .ok (.const f.raw c') ∧
      (f.raw = a.unit.consts.length ∧ c' = c ∨
        a.unit.consts[f.raw]? = some c' ∧ c'.interchangeable c)
  | .name _ n _ | .localName _ n _ => unit.operand f.op f.raw offset = .ok (.name n)
  | .cell _ n _ => unit.operand f.op f.raw offset = .ok (.cell f.raw n)
  | .compare op => unit.decode offset = .ok (some (.compare op, f.next))
  | .call p k => unit.decode offset = .ok (some (.callFunction p k, f.next))
  | .jump _ l => ∃ t, unit.operand f.op f.raw offset = .ok (.target t) ∧ s.BindsAt l t ∧
      (t ∈ w.map Prod.fst ∨ t = unit.size)
  | .label | .bind _ => False

/-- The instruction `x` stands where its statement was written, has the opcode of the statement and
gives back what the statement names. -/
def ReadsBack (s : Source) (unit : CodeUnit) (w : CodeUnit.Walk) (p : Assembler × Statement)
    (x : Nat × Fetched) : Prop :=
  x.1 = p.1.offset ∧ p.2.opcode? = some x.2.op ∧ s.Recovers unit w p.1 x.1 x.2 p.2

variable {s : Source} {unit : CodeUnit} {w : CodeUnit.Walk}

lemma declared_offset (s : Source) : s.declared.offset = 0 :=
  congrArg Array.size (Assembler.declareAll_keeps s.header).1

lemma bindsAt_of_labelOffset? {l t : Nat} (h : s.written.error? = none)
    (hl : s.written.labelOffset? l = some t) : s.BindsAt l t := by
  have hnone : s.declared.labelOffset? l = none := by
    unfold Assembler.labelOffset? declared
    rw [(Assembler.declareAll_keeps s.header).2.1]
    rfl
  have hiff : ∀ t', s.written.labelOffset? l = some t' ↔ ∃ p ∈ s.placed, p.2 = .bind l ∧
      l < p.1.labels.size ∧ t' = p.1.offset := by
    intro t'
    have hbound : s.written.labelOffset? l = some t' ↔ s.declared.labelOffset? l = some t' ∨
        ∃ p ∈ s.placed, p.2 = .bind l ∧ l < p.1.labels.size ∧ t' = p.1.offset :=
      Assembler.labelOffset?_writeAll h
    rwa [hnone, or_iff_right nofun] at hbound
  refine ⟨?_, fun p hp hbind hdeclared => ?_⟩
  · obtain ⟨p, hp, hbind, hdeclared, ht⟩ := (hiff t).1 hl
    exact ⟨p, hp, hbind, hdeclared, ht.symm⟩
  · have hbound := (hiff p.1.offset).2 ⟨p, hp, hbind, hdeclared, rfl⟩
    rw [hl] at hbound
    exact (Option.some.inj hbound).symm

/-- A jump of either kind resolves to the place where its label is bound. -/
lemma operand_of_jumpArgument {z : Assembler} {offset raw l : Nat} {op : Opcode}
    (hjump : op.isJump) (hargument : z.jumpArgument ⟨offset, op, l⟩ = .ok raw)
    (hsize : ∀ t, z.labelOffset? l = some t → t ≤ unit.size) :
    ∃ t, z.labelOffset? l = some t ∧ unit.operand op raw offset = .ok (.target t) := by
  obtain ⟨t, hlabel, -, htarget⟩ := Assembler.jumpArgument_ok hargument
  have ht : t ≤ unit.size := hsize t hlabel
  refine ⟨t, hlabel, ?_⟩
  unfold Opcode.isJump at hjump
  unfold CodeUnit.operand
  cases hkind : op.operandKind <;> rw [hkind] at hjump
  case relativeJump =>
    rw [if_pos hkind] at htarget
    dsimp only [RawArgument.relativeTarget] at htarget ⊢
    rw [htarget]
    simp [CodeUnit.jumpTarget, ht, Except.map]
  case absoluteJump =>
    rw [if_neg (by rw [hkind]; decide)] at htarget
    subst htarget
    simp [RawArgument.absoluteTarget, CodeUnit.jumpTarget, ht, Except.map]
  all_goals exact absurd hjump (by decide)

lemma entry_eq_ok {α : Type} {table : String} {entries : List α} {offset place : Nat} {x : α}
    (h : entries[place]? = some x) : CodeUnit.entry table entries offset place = .ok x := by
  simp [CodeUnit.entry, h]

lemma slot_eq_ok {arg : RawArgument} {n : String} (h : arg.unit.slotNames[arg.raw]? = some n) :
    arg.slot = .ok arg.raw := by
  have hlength : arg.unit.slotNames.length = arg.unit.slotCount := List.length_append
  obtain ⟨hplace, -⟩ := List.getElem?_eq_some_iff.1 h
  exact if_pos (hlength ▸ hplace)

/-- What an argument means in the tables of a unit is what it is resolved to.  Jumps have no meaning
in tables. -/
lemma recovers_of_denotes {a : Assembler} {st : Statement} {offset : Nat} {f : Fetched}
    (hop : st.opcode? = some f.op) (hdenotes : st.Denotes a unit f.raw)
    (hfetch : unit.fetch offset = .ok (some f)) (hjump : ∀ op l, st ≠ .jump op l) :
    s.Recovers unit w a offset f st := by
  obtain ⟨op, raw, next⟩ := f
  cases st with
  | plain _ => trivial
  | argument _ n => exact hdenotes
  | const c =>
    cases hop
    obtain ⟨c', hplace, hc⟩ := hdenotes
    refine ⟨c', ?_, hc⟩
    simp [CodeUnit.operand, Opcode.operandKind, RawArgument.constant, entry_eq_ok hplace,
      Except.map]
  | name _ n kind =>
    cases hop
    have hplace : unit.names[raw]? = some n := hdenotes
    simp [Recovers, CodeUnit.operand, kind, RawArgument.name, entry_eq_ok hplace, Except.map]
  | localName _ n kind =>
    cases hop
    have hplace : unit.localNames[raw]? = some n := hdenotes
    simp [Recovers, CodeUnit.operand, kind, RawArgument.localName, entry_eq_ok hplace, Except.map]
  | cell _ n kind =>
    cases hop
    have hplace : unit.slotNames[raw]? = some n := hdenotes
    have hslot : (RawArgument.mk unit offset (offset + op.width) raw).slot = .ok raw :=
      slot_eq_ok hplace
    simp [Recovers, CodeUnit.operand, kind, hslot, UnitOver.slotName?, hplace, Except.map]
  | compare op =>
    cases hop
    have hselector : CompareOp.ofSelector? raw = some op :=
      CompareOp.ofSelector?_eq_some_iff.2 hdenotes
    simp [Recovers, CodeUnit.decode, hfetch, RawArgument.instruction, RawArgument.comparison,
      hselector, Except.map]
  | call p k =>
    cases hop
    obtain ⟨hp, hk⟩ := hdenotes
    simp [Recovers, CodeUnit.decode, hfetch, RawArgument.instruction, hp, hk]
  | label => cases hop
  | bind l => cases hop
  | jump op l => exact absurd rfl (hjump op l)

lemma offsets_eq {z : Assembler} {ps : List (Assembler × Statement)}
    (h : List.Forall₂ z.Agrees ps w) : w.map Prod.fst = ps.map fun p => p.1.offset := by
  induction h with
  | nil => rfl
  | cons hagrees _ ih => rw [List.map_cons, List.map_cons, ih, hagrees.1]

/-- The passes of the assembler, taken together. -/
lemma agrees_of_assemble (h : s.assemble = .ok unit) :
    s.written.error? = none ∧ s.written.unit.Grows unit ∧ s.written.offset = unit.size ∧
      ∃ w, unit.Walks 0 w ∧ List.Forall₂ s.written.Agrees s.instructions w := by
  unfold assemble Assembler.finish at h
  cases herror : s.written.error? with
  | some e =>
    rw [herror] at h
    cases h
  | none =>
    rw [herror] at h
    cases hpatch : s.written.patchAll s.written.unit.code s.written.fixups.toList with
    | error e => simp [hpatch, Except.map] at h
    | ok code =>
      simp only [hpatch, Except.map, Except.ok.injEq] at h
      subst h
      obtain ⟨tail, later, htail, hlater, hgrows, hsettles⟩ :=
        Assembler.settles (a := s.declared) s.body herror
      obtain ⟨hcode, -, hfixups⟩ := Assembler.declareAll_keeps (a := .start s.name) s.header
      rw [show s.declared.unit.code = #[] from hcode] at htail
      rw [show s.declared.fixups = #[] from hfixups] at hlater
      have hpatch' : s.written.patchAll s.written.unit.code later = .ok code := by
        rw [← hpatch]
        exact congrArg _ hlater.symm
      obtain ⟨is, hstream, hall⟩ := hsettles s.written s.written.unit.code code [] (.refl _)
        s.declared_offset.symm htail hpatch'
      rw [s.declared_offset] at hall
      have hwalks : CodeUnit.Walks { s.written.unit with code := code } ([] : List UInt8).length
          (RawInstruction.places 0 is) := CodeUnit.walks_stream hstream
      exact ⟨rfl, ⟨List.prefix_rfl, List.prefix_rfl, List.prefix_rfl, rfl⟩,
        (Assembler.size_patchAll hpatch).symm, _, hwalks, hall⟩

/-- **Assembler and decoder agree.**  The instructions of an assembled unit, from the first one to
the very end of its stream, are those that the statements of its source have written, in order, and
each of them gives back what its statement names. -/
theorem assemble_reads_back (h : s.assemble = .ok unit) :
    ∃ w, unit.walk = .ok w ∧ unit.Walks 0 w ∧
      List.Forall₂ (s.ReadsBack unit w) s.instructions w := by
  obtain ⟨herror, hgrows, hsize, w, hwalks, hall⟩ := agrees_of_assemble h
  have hboundary : ∀ l t, s.written.labelOffset? l = some t →
      s.BindsAt l t ∧ (t ∈ w.map Prod.fst ∨ t = unit.size) := by
    intro l t hl
    have hbinds := bindsAt_of_labelOffset? herror hl
    obtain ⟨p, hp, -, -, rfl⟩ := hbinds.1
    refine ⟨hbinds, ?_⟩
    obtain hend | ⟨q, hq, hoffset⟩ := Assembler.isBoundary_of_mem herror hp
    · exact .inr (hend.trans hsize)
    · rw [offsets_eq hall]
      exact .inl (List.mem_map.2 ⟨q, hq, hoffset⟩)
  have hle : ∀ l t, s.written.labelOffset? l = some t → t ≤ unit.size := by
    intro l t hl
    obtain hmem | hend := (hboundary l t hl).2
    · obtain ⟨x, hx, rfl⟩ := List.mem_map.1 hmem
      exact hwalks.le_size x hx
    · exact Nat.le_of_eq hend
  refine ⟨w, hwalks.walk, hwalks, ?_⟩
  have hfetched := (List.forall₂_and_left _ _).2 ⟨hwalks.fetch, hall.flip⟩
  refine hfetched.flip.imp ?_
  rintro ⟨a, st⟩ ⟨offset, f⟩ ⟨hfetch, hoffset, hop, hdenotes, hfixup⟩
  refine ⟨hoffset, hop, ?_⟩
  by_cases hjump : ∃ op l, st = .jump op l
  · obtain ⟨op, l, rfl⟩ := hjump
    obtain ⟨hisJump, hargument⟩ := hfixup _ rfl
    obtain rfl : op = f.op := Option.some.inj hop
    rw [← show offset = a.offset from hoffset] at hargument
    obtain ⟨t, hl, htarget⟩ := operand_of_jumpArgument hisJump hargument (hle l)
    exact ⟨t, htarget, (hboundary l t hl).1, (hboundary l t hl).2⟩
  · exact recovers_of_denotes hop (hdenotes.mono hgrows) hfetch fun op l hst => hjump ⟨op, l, hst⟩

/-- A loop that counts its parameter down to zero, which it returns.  Both its jumps need filling
in, one of them for a label that is bound later, and the two zeros share a place in the pool. -/
def countdown : Source where
  name := "countdown"
  header := [.params ["n"]]
  body := [.label, .label, .bind 0, .localName .loadFast "n" rfl, .const (.int 0), .compare .gt,
    .jump .popJumpIfFalse 1, .localName .loadFast "n" rfl, .const (.int 1),
    .plain (.binary .subtract), .localName .storeFast "n" rfl, .jump .jumpAbsolute 0, .bind 1,
    .const (.int 0), .plain .returnValue]

theorem assemble_reads_back_countdown :
    ∃ unit, countdown.assemble = .ok unit ∧ unit.size = 29 ∧
      ∃ w, unit.walk = .ok w ∧ unit.Walks 0 w ∧
        List.Forall₂ (countdown.ReadsBack unit w) countdown.instructions w :=
  ⟨_, rfl, rfl, assemble_reads_back rfl⟩

end Source

end StackMachine
