import Mathlib.Data.List.Forall2
import StackMachine.Proofs.ListedLines
import StackMachine.Proofs.StreamWalks
/-!
# What listings and statistics cover

A unit is gone through three times: its jump targets are collected, its lines are written, and its
opcodes are counted.  Each time `gather` takes one step after the other by itself, and goes on to
the units in the constant pool by its own recursion.  This module says that all three meet the same
instructions.

What `gather` comes to is said by a walk, without the number of steps (`gather_eq_ok_iff`): the walk
reaches the end of the stream, and the visitor has accepted one instruction after the other
(`Gathers`).  Only the visitor that resolves every operand may refuse anything that the others would
accept, and it comes first.  The units of a tree come in one order (`unitsFrom`), and the recursions
of the listing and of the statistics are folds over them (`addUnit_eq`, `countUnit_eq`).  What the
lines look like is said in `Proofs/ListedLines`.  The main statement is
`listing_covers_instructions_once`.
-/

namespace StackMachine

/-- Whether the line is that of an instruction. -/
def Line.isInstruction : Line → Bool
  | .instruction .. => true
  | _ => false

namespace CodeUnit

variable {unit : CodeUnit} {w : Walk} {level : Nat}

/-! ## Gathering -/

section Gathering

variable {α : Type} {visit : α → Nat → Fetched → Except FatalError α} {a b : α}

/-- The visitor has accepted the instructions of a walk one after the other. -/
inductive Gathers (visit : α → Nat → Fetched → Except FatalError α) : α → Walk → α → Prop
  | nil {a : α} : Gathers visit a [] a
  | cons {a b c : α} {offset : Nat} {f : Fetched} {rest : Walk} (h : visit a offset f = .ok b)
    (hrest : Gathers visit b rest c) : Gathers visit a ((offset, f) :: rest) c

/-- A visitor that accepts every instruction of a walk gathers something. -/
lemma exists_gathers (h : ∀ met ∈ w, ∀ a, ∃ b, visit a met.1 met.2 = .ok b) (a : α) :
    ∃ b, Gathers visit a w b := by
  induction w generalizing a with
  | nil => exact ⟨a, .nil⟩
  | cons met rest ih =>
    obtain ⟨b, hb⟩ := h met List.mem_cons_self a
    obtain ⟨c, hc⟩ := ih (fun met hmet => h met (List.mem_cons_of_mem _ hmet)) b
    exact ⟨c, .cons hb hc⟩

lemma Stops.gatherFrom_eq_ok_iff {offset fuel : Nat} {ending : Option FatalError}
    (h : unit.Stops offset w ending) (hfuel : w.length < fuel) :
    unit.gatherFrom visit a offset fuel = .ok b ↔ ending = none ∧ Gathers visit a w b := by
  induction h generalizing a fuel with
  | atEnd h =>
    obtain ⟨fuel, rfl⟩ := Nat.exists_eq_add_one_of_ne_zero (Nat.ne_zero_of_lt hfuel)
    simp only [gatherFrom, h, true_and, Except.ok.injEq]
    exact ⟨fun hab => hab ▸ .nil, fun hab => by cases hab; rfl⟩
  | refused h =>
    obtain ⟨fuel, rfl⟩ := Nat.exists_eq_add_one_of_ne_zero (Nat.ne_zero_of_lt hfuel)
    simp [gatherFrom, h]
  | @step offset f rest ending h hrest ih =>
    obtain ⟨fuel, rfl⟩ := Nat.exists_eq_add_one_of_ne_zero (Nat.ne_zero_of_lt hfuel)
    have hrest' := @ih
    simp only [gatherFrom, h]
    cases hvisit : visit a offset f with
    | error e =>
      simp only [reduceCtorEq, false_iff, not_and]
      rintro - hab
      cases hab with
      | cons hb _ => exact absurd (hvisit.symm.trans hb) (by simp)
    | ok c =>
      rw [ih (Nat.lt_of_succ_lt_succ hfuel)]
      refine and_congr_right fun _ => ⟨fun hcb => .cons hvisit hcb, fun hab => ?_⟩
      cases hab with
      | cons hb hrest =>
        cases hvisit.symm.trans hb
        exact hrest

/-- **Gathering.**  It succeeds on walks that reach the end of the stream, if the visitor accepts
all instructions on the way. -/
lemma gather_eq_ok_iff :
    unit.gather visit a = .ok b ↔ ∃ w, unit.Stops 0 w none ∧ Gathers visit a w b := by
  obtain ⟨w, ending, hstops, hlength⟩ := Stops.exists_of_le unit.size 0 (Nat.zero_add _)
  rw [gather, hstops.gatherFrom_eq_ok_iff (Nat.lt_succ_of_le hlength)]
  constructor
  · rintro ⟨rfl, hab⟩
    exact ⟨w, hstops, hab⟩
  · rintro ⟨w', hstops', hab⟩
    obtain ⟨rfl, rfl⟩ := hstops.unique hstops'
    exact ⟨rfl, hab⟩

end Gathering

/-! ## Jump targets -/

/-- Every operand on the walk can be resolved. -/
def Resolved (unit : CodeUnit) (w : Walk) : Prop :=
  ∀ met ∈ w, ∃ x, unit.operand met.2.op met.2.raw met.1 = .ok x

/-- Some jump on the walk leads to the offset. -/
def IsTarget (unit : CodeUnit) (w : Walk) (t : Nat) : Prop :=
  ∃ met ∈ w, met.2.op.isJump = true ∧ unit.operand met.2.op met.2.raw met.1 = .ok (.target t)

lemma isJump_of_operand {op : Opcode} {raw offset t : Nat}
    (h : unit.operand op raw offset = .ok (.target t)) : op.isJump = true := by
  unfold operand at h
  unfold Opcode.isJump
  cases hkind : op.operandKind with
  | relativeJump | absoluteJump => rfl
  | none | count =>
    rw [hkind] at h
    cases h
  | const | name | localName | cell =>
    rw [hkind] at h
    obtain ⟨_, -, hx⟩ := map_eq_ok h
    cases hx

/-- An instruction leads to the offset, or another one behind it does. -/
lemma isTarget_cons {offset t : Nat} {f : Fetched} {x : Operand}
    (hx : unit.operand f.op f.raw offset = .ok x) :
    unit.IsTarget ((offset, f) :: w) t ↔ x = .target t ∨ unit.IsTarget w t := by
  simp only [IsTarget, List.mem_cons, exists_eq_or_imp, hx, Except.ok.injEq]
  refine or_congr_left ⟨And.right, ?_⟩
  rintro rfl
  exact ⟨isJump_of_operand hx, rfl⟩

/-- Every operand on the way has been resolved, and the targets are noted behind those before. -/
lemma gathers_noteTarget {targets targets' : List Nat}
    (h : Gathers unit.noteTarget targets w targets') :
    unit.Resolved w ∧ ∀ t, t ∈ targets' ↔ t ∈ targets ∨ unit.IsTarget w t := by
  induction h with
  | nil => simp [Resolved, IsTarget]
  | @cons a b c offset f rest h hrest ih =>
    obtain ⟨x, hx, rfl⟩ := map_eq_ok h
    obtain ⟨hresolved, hmem⟩ := ih
    refine ⟨List.forall_mem_cons.2 ⟨⟨x, hx⟩, hresolved⟩, fun t => ?_⟩
    rw [hmem, isTarget_cons hx, ← or_assoc]
    refine or_congr_left ?_
    cases x with
    | target t' =>
      rw [Operand.target.injEq]
      show (t ∈ if _ then _ else _) ↔ _
      split
      · next hold =>
        have := List.contains_iff_mem.1 hold
        exact ⟨.inl, fun ht => ht.elim id fun heq => heq ▸ this⟩
      · rw [List.mem_append, List.mem_singleton, eq_comm (a := t)]
    | none | const | name | cell | count => simp

/-- The targets of a walk are found, if its operands can be resolved. -/
lemma exists_gathers_noteTarget (h : unit.Resolved w) (targets : List Nat) :
    ∃ targets', Gathers unit.noteTarget targets w targets' := by
  refine exists_gathers (fun met hmet ts => ?_) targets
  obtain ⟨x, hx⟩ := h met hmet
  rw [noteTarget, hx]
  exact ⟨_, rfl⟩

/-! ## The lines of one unit -/

/-- The lines of a walk: one for each instruction, with a mark above those that are targets. -/
inductive Shows (unit : CodeUnit) (level : Nat) (target : Nat → Prop) :
    Walk → List (Nat × Line) → Prop
  | nil : Shows unit level target [] []
  | plain {offset : Nat} {f : Fetched} {rest : Walk} {text : String} {lines : List (Nat × Line)}
    (hplain : ¬target offset) (htext : unit.Words offset f text)
    (hrest : Shows unit level target rest lines) :
    Shows unit level target ((offset, f) :: rest)
      ((level, .instruction offset false text) :: lines)
  | marked {offset : Nat} {f : Fetched} {rest : Walk} {text : String} {lines : List (Nat × Line)}
    (htarget : target offset) (htext : unit.Words offset f text)
    (hrest : Shows unit level target rest lines) :
    Shows unit level target ((offset, f) :: rest)
      ((level, .mark) :: (level, .instruction offset true text) :: lines)

lemma gathers_addInstruction {targets : List Nat} {lines lines' : Lines}
    (h : Gathers (unit.addInstruction level targets) lines w lines') :
    ∃ shown, lines'.toList = lines.toList ++ shown ∧ unit.Shows level (· ∈ targets) w shown := by
  induction h with
  | nil => exact ⟨[], (List.append_nil _).symm, .nil⟩
  | @cons a b c offset f rest h hrest ih =>
    obtain ⟨text, htext, rfl⟩ := map_eq_ok h
    obtain ⟨shown, hlines, hshown⟩ := ih
    have hwords := words_of_instructionText htext
    by_cases htarget : offset ∈ targets
    · refine ⟨_, ?_, .marked htarget hwords hshown⟩
      simp [hlines, htarget]
    · refine ⟨_, ?_, .plain htarget hwords hshown⟩
      simp [hlines, htarget]

lemma exists_gathers_addInstruction (h : unit.Resolved w) (targets : List Nat) (lines : Lines) :
    ∃ lines', Gathers (unit.addInstruction level targets) lines w lines' := by
  refine exists_gathers (fun met hmet lines => ?_) lines
  obtain ⟨x, hx⟩ := h met hmet
  have htext : ∃ text, unit.instructionText met.1 met.2 = .ok text := by
    unfold instructionText
    split
    · rw [hx]
      exact ⟨_, rfl⟩
    · exact ⟨_, rfl⟩
  obtain ⟨text, htext⟩ := htext
  rw [addInstruction, htext]
  exact ⟨_, rfl⟩

/-- What is read of a unit that can be listed: a walk to the end of the stream on which every
operand can be resolved. -/
structure Reads (unit : CodeUnit) (w : Walk) : Prop where
  walk : unit.Stops 0 w none
  resolved : unit.Resolved w

/-- The block of lines that stands for a unit.  There may be a gap before the heading; behind it are
the lines of the walk, with a mark above each instruction that some jump on the walk leads to. -/
structure Covers (unit : CodeUnit) (level : Nat) (w : Walk) (lines : List (Nat × Line)) : Prop where
  reads : unit.Reads w
  ordered : (w.map Prod.fst).Pairwise (· < ·)
  lines : ∃ before heading shown, (before = [] ∨ before = [.gap]) ∧ unit.Headed heading ∧
    unit.Shows level (unit.IsTarget w) w shown ∧
    lines = (before ++ heading).map (fun line => (level, line)) ++ shown

/-- The offsets of a walk increase. -/
lemma Stops.ordered {offset : Nat} {ending : Option FatalError} (h : unit.Stops offset w ending) :
    (∀ met ∈ w, offset ≤ met.1) ∧ (w.map Prod.fst).Pairwise (· < ·) := by
  induction h with
  | atEnd | refused => exact ⟨List.forall_mem_nil _, List.Pairwise.nil⟩
  | @step offset f rest ending h hrest ih =>
    have hlt := lt_next h
    obtain ⟨hbound, hordered⟩ := ih
    constructor
    · refine List.forall_mem_cons.2 ⟨Nat.le_refl _, fun met hmet => ?_⟩
      exact Nat.le_of_lt (Nat.lt_of_lt_of_le hlt (hbound met hmet))
    · refine List.pairwise_cons.2 ⟨List.forall_mem_map.2 fun met hmet => ?_, hordered⟩
      exact Nat.lt_of_lt_of_le hlt (hbound met hmet)

/-- A unit is read while its jump targets are collected, if not before its lines are written. -/
lemma addOwn_eq_ok {lines lines' : Lines} (h : unit.addOwn level lines = .ok lines') :
    ∃ w shown, unit.Reads w ∧ unit.Shows level (unit.IsTarget w) w shown ∧
      lines'.toList =
        lines.toList ++ unit.headingLines.map (fun line => (level, line)) ++ shown := by
  unfold addOwn at h
  split at h
  · cases h
  · next targets htargets =>
    obtain ⟨w, hwalk, hnoted⟩ := gather_eq_ok_iff.1 htargets
    obtain ⟨hresolved, hmem⟩ := gathers_noteTarget hnoted
    obtain ⟨w', hwalk', hadded⟩ := gather_eq_ok_iff.1 h
    obtain ⟨rfl, -⟩ := hwalk.unique hwalk'
    obtain ⟨shown, hlines, hshown⟩ := gathers_addInstruction hadded
    have htarget : (· ∈ targets) = unit.IsTarget w' := by
      funext t
      rw [hmem, List.mem_nil_iff, false_or]
    refine ⟨w', shown, ⟨hwalk, hresolved⟩, htarget ▸ hshown, ?_⟩
    rw [hlines, Array.toList_appendList]

lemma Reads.exists_addOwn (h : unit.Reads w) (level : Nat) (lines : Lines) :
    ∃ lines', unit.addOwn level lines = .ok lines' := by
  obtain ⟨targets, htargets⟩ := exists_gathers_noteTarget h.resolved []
  have hnoted : unit.jumpTargets = .ok targets := gather_eq_ok_iff.2 ⟨w, h.walk, htargets⟩
  obtain ⟨lines', hadded⟩ := exists_gathers_addInstruction h.resolved targets
    (lines ++ unit.headingLines.map fun line => (level, line))
  refine ⟨lines', ?_⟩
  rw [addOwn, hnoted]
  exact gather_eq_ok_iff.2 ⟨w, h.walk, hadded⟩

/-! ## The units of a tree -/

mutual

/-- A unit and all units nested in it, each with its level, in the order of a listing. -/
def unitsFrom (level : Nat) : UnitOver Const → List (Nat × CodeUnit)
  | ⟨name, stream, consts, names, locals, cells, free, paramCount, variadic⟩ =>
    (level, ⟨name, stream, consts, names, locals, cells, free, paramCount, variadic⟩) ::
      unitsInPool (level + 1) consts

/-- The units in a constant pool, with all units nested in them. -/
def unitsInPool (level : Nat) : List Const → List (Nat × CodeUnit)
  | [] => []
  | .code unit :: rest => unitsFrom level unit ++ unitsInPool level rest
  | _ :: rest => unitsInPool level rest

end

lemma unitsFrom_eq (unit : CodeUnit) :
    unitsFrom level unit = (level, unit) :: unitsInPool (level + 1) unit.consts := by
  cases unit
  rw [unitsFrom]

/-- The lines of one unit behind others. -/
def addBehind (lines : Lines) (entry : Nat × CodeUnit) : Except FatalError Lines :=
  entry.2.addOwn entry.1 (lines.push (entry.1, .gap))

/-- The opcodes of one unit behind those of others. -/
def countBehind (counts : Frequencies) (entry : Nat × CodeUnit) : Except FatalError Frequencies :=
  entry.2.gather countOpcode counts

mutual

/-- A listing takes the units of the tree one after the other. -/
lemma addUnit_eq : (unit : CodeUnit) → (level : Nat) → (lines : Lines) →
    addUnit level lines unit = unit.addOwn level lines >>=
      (unitsInPool (level + 1) unit.consts).foldlM addBehind
  | ⟨name, stream, consts, names, locals, cells, free, paramCount, variadic⟩, level, lines => by
    rw [addUnit]
    show (match addOwn _ level lines with | .error e => _ | .ok lines => _) = _
    cases hown : addOwn _ level lines with
    | error e => rfl
    | ok lines' => exact addPool_eq consts (level + 1) lines'

lemma addPool_eq : (consts : List Const) → (level : Nat) → (lines : Lines) →
    addPool level lines consts = (unitsInPool level consts).foldlM addBehind lines
  | [], _, _ => by
    rw [addPool, unitsInPool]
    rfl
  | .code unit :: rest, level, lines => by
    rw [addPool, unitsInPool, List.foldlM_append, addUnit_eq unit, unitsFrom_eq]
    show _ = (addOwn unit level _ >>= _) >>= _
    cases addOwn unit level (lines.push (level, .gap)) >>=
        (unitsInPool (level + 1) unit.consts).foldlM addBehind with
    | error e => rfl
    | ok lines' => exact addPool_eq rest level lines'
  | .none :: rest, level, lines | .bool _ :: rest, level, lines | .int _ :: rest, level, lines
  | .float _ :: rest, level, lines | .str _ :: rest, level, lines
  | .tuple _ :: rest, level, lines => by simp [addPool, unitsInPool, addPool_eq rest]

end

mutual

/-- Statistics take the same units in the same order. -/
lemma countUnit_eq : (unit : CodeUnit) → (level : Nat) → (counts : Frequencies) →
    countUnit counts unit = (unitsFrom level unit).foldlM countBehind counts
  | ⟨name, stream, consts, names, locals, cells, free, paramCount, variadic⟩, level, counts => by
    rw [countUnit, unitsFrom]
    show (match gather _ countOpcode counts with | .error e => _ | .ok counts => _) =
      gather _ countOpcode counts >>= _
    cases gather _ countOpcode counts with
    | error e => rfl
    | ok counts' => exact countPool_eq consts (level + 1) counts'

lemma countPool_eq : (consts : List Const) → (level : Nat) → (counts : Frequencies) →
    countPool counts consts = (unitsInPool level consts).foldlM countBehind counts
  | [], _, _ => by
    rw [countPool, unitsInPool]
    rfl
  | .code unit :: rest, level, counts => by
    rw [countPool, unitsInPool, List.foldlM_append, countUnit_eq unit level]
    cases (unitsFrom level unit).foldlM countBehind counts with
    | error e => rfl
    | ok counts' => exact countPool_eq rest level counts'
  | .none :: rest, level, counts | .bool _ :: rest, level, counts | .int _ :: rest, level, counts
  | .float _ :: rest, level, counts | .str _ :: rest, level, counts
  | .tuple _ :: rest, level, counts => by simp [countPool, unitsInPool, countPool_eq rest level]

end

/-! ## Whole listings -/

/-- The blocks of lines that some units have, each unit its own. -/
abbrev Blocks (units : List (Nat × CodeUnit)) (blocks : List (List (Nat × Line))) : Prop :=
  List.Forall₂ (fun entry block => ∃ w, entry.2.Covers entry.1 w block) units blocks

lemma Blocks.reads {units : List (Nat × CodeUnit)} {blocks : List (List (Nat × Line))}
    (h : Blocks units blocks) : ∀ entry ∈ units, ∃ w, entry.2.Reads w := by
  induction h with
  | nil => exact List.forall_mem_nil _
  | cons hcovers _ ih =>
    obtain ⟨w, hcovers⟩ := hcovers
    exact List.forall_mem_cons.2 ⟨⟨w, hcovers.reads⟩, ih⟩

/-- The lines of one unit, behind a gap that may stand before it. -/
lemma covers_addOwn {lines lines' : Lines} {start : List (Nat × Line)} {before : List Line}
    (hbefore : before = [] ∨ before = [.gap])
    (hlines : lines.toList = start ++ before.map fun line => (level, line))
    (h : unit.addOwn level lines = .ok lines') :
    ∃ block, lines'.toList = start ++ block ∧ ∃ w, unit.Covers level w block := by
  obtain ⟨w, shown, hreads, hshown, hlines'⟩ := addOwn_eq_ok h
  have hheaded := unit.headed_headingLines
  refine ⟨_, ?_, w, hreads, hreads.walk.ordered.2, before, _, shown, hbefore, hheaded, hshown, rfl⟩
  rw [hlines', hlines, List.map_append, List.append_assoc, List.append_assoc, List.append_assoc]

lemma blocks_of_foldlM {units : List (Nat × CodeUnit)} {lines lines' : Lines}
    (h : units.foldlM addBehind lines = .ok lines') :
    ∃ blocks, lines'.toList = lines.toList ++ blocks.flatten ∧ Blocks units blocks := by
  induction units generalizing lines with
  | nil =>
    cases h
    exact ⟨[], (List.append_nil _).symm, .nil⟩
  | cons entry rest ih =>
    rw [List.foldlM_cons] at h
    cases hown : addBehind lines entry with
    | error e =>
      rw [hown] at h
      cases h
    | ok middle =>
      rw [hown] at h
      obtain ⟨block, hblock, hcovers⟩ :=
        covers_addOwn (.inr rfl) (Array.toList_push ..) hown
      obtain ⟨blocks, hblocks, hrest⟩ := ih h
      refine ⟨block :: blocks, ?_, .cons hcovers hrest⟩
      rw [hblocks, hblock, List.flatten_cons, List.append_assoc]

lemma exists_foldlM_addBehind {units : List (Nat × CodeUnit)}
    (h : ∀ entry ∈ units, ∃ w, entry.2.Reads w) (lines : Lines) :
    ∃ lines', units.foldlM addBehind lines = .ok lines' := by
  induction units generalizing lines with
  | nil => exact ⟨lines, rfl⟩
  | cons entry rest ih =>
    obtain ⟨w, hreads⟩ := h entry List.mem_cons_self
    obtain ⟨middle, hown⟩ := hreads.exists_addOwn entry.1 (lines.push (entry.1, .gap))
    obtain ⟨lines', hrest⟩ := ih (fun e he => h e (List.mem_cons_of_mem _ he)) middle
    refine ⟨lines', ?_⟩
    rw [List.foldlM_cons, show addBehind lines entry = .ok middle from hown]
    exact hrest

/-- The listing of a tree of units, if there is one. -/
lemma blocks_of_listing {lines : Lines} (h : unit.listing = .ok lines) :
    ∃ blocks, lines.toList = blocks.flatten ∧ Blocks (unitsFrom 0 unit) blocks := by
  rw [listing, addUnit_eq] at h
  cases hown : unit.addOwn 0 #[] with
  | error e =>
    rw [hown] at h
    cases h
  | ok middle =>
    rw [hown] at h
    have hstart : (#[] : Lines).toList = [] ++ ([] : List Line).map fun line => (0, line) := rfl
    obtain ⟨block, hblock, hcovers⟩ := covers_addOwn (.inl rfl) hstart hown
    obtain ⟨blocks, hblocks, hrest⟩ := blocks_of_foldlM h
    refine ⟨block :: blocks, ?_, ?_⟩
    · rw [hblocks, hblock, List.flatten_cons, List.nil_append]
    · rw [unitsFrom_eq]
      exact .cons hcovers hrest

lemma exists_listing (h : ∀ entry ∈ unitsFrom 0 unit, ∃ w, entry.2.Reads w) :
    ∃ lines, unit.listing = .ok lines := by
  rw [unitsFrom_eq, List.forall_mem_cons] at h
  obtain ⟨⟨w, hreads⟩, hnested⟩ := h
  obtain ⟨middle, hown⟩ := hreads.exists_addOwn 0 #[]
  obtain ⟨lines, hrest⟩ := exists_foldlM_addBehind hnested middle
  refine ⟨lines, ?_⟩
  rw [listing, addUnit_eq, hown]
  exact hrest

/-! ## Counting -/

/-- Counting an opcode makes the number of all instructions go up by one, whether or not it has been
met before. -/
lemma total_insert (mnemonic : String) (counts : Frequencies) :
    total (counts.insert mnemonic ((counts.get? mnemonic).getD 0 + 1)) = total counts + 1 := by
  show ((Dictionary.insertInto mnemonic ((Dictionary.find? mnemonic counts.entries).getD 0 + 1)
    counts.entries).map Prod.snd).foldr (· + ·) 0 =
      (counts.entries.map Prod.snd).foldr (· + ·) 0 + 1
  induction counts.entries with
  | nil => rfl
  | cons entry rest ih =>
    obtain ⟨key, count⟩ := entry
    rw [Dictionary.insertInto, Dictionary.find?]
    cases key == mnemonic with
    | true =>
      simp only [if_true, Option.getD_some, List.map_cons, List.foldr_cons]
      omega
    | false =>
      simp only [Bool.false_eq_true, if_false, List.map_cons, List.foldr_cons, ih]
      omega

/-- Each instruction of a walk makes the number of all instructions go up by one. -/
lemma exists_gathers_countOpcode (w : Walk) (counts : Frequencies) :
    ∃ counts', Gathers countOpcode counts w counts' ∧
      total counts' = total counts + w.length := by
  induction w generalizing counts with
  | nil => exact ⟨counts, .nil, rfl⟩
  | cons met rest ih =>
    obtain ⟨offset, f⟩ := met
    obtain ⟨counts', hrest, htotal⟩ :=
      ih (counts.insert f.op.mnemonic ((counts.get? f.op.mnemonic).getD 0 + 1))
    refine ⟨counts', .cons rfl hrest, ?_⟩
    rw [htotal, total_insert, List.length_cons]
    omega

lemma NamesListed.isInstruction {label : String} {names : List String} {lines : List Line}
    (h : NamesListed label names lines) : ∀ line ∈ lines, line.isInstruction = false := by
  cases h with
  | none => exact List.forall_mem_nil _
  | some => exact List.forall_mem_singleton.2 rfl

/-- No line of a heading is that of an instruction. -/
lemma Headed.isInstruction {heading : List Line} (h : unit.Headed heading) :
    ∀ line ∈ heading, line.isInstruction = false := by
  obtain ⟨-, hcells, hfree⟩ := h
  simp only [List.forall_mem_append, List.forall_mem_cons]
  exact ⟨⟨⟨⟨rfl, rfl, rfl, List.forall_mem_nil _⟩, hcells.isInstruction⟩, hfree.isInstruction⟩,
    rfl, List.forall_mem_nil _⟩

lemma Shows.countP {target : Nat → Prop} {shown : List (Nat × Line)}
    (h : unit.Shows level target w shown) : shown.countP (·.2.isInstruction) = w.length := by
  induction h with
  | nil => rfl
  | plain _ _ _ ih =>
    rw [List.countP_cons_of_pos rfl, ih]
    rfl
  | marked _ _ _ ih =>
    rw [List.countP_cons_of_neg Bool.false_ne_true, List.countP_cons_of_pos rfl, ih]
    rfl

/-- A unit has as many lines of instructions as its walk has instructions. -/
lemma Covers.countP {block : List (Nat × Line)} (h : unit.Covers level w block) :
    block.countP (·.2.isInstruction) = w.length := by
  obtain ⟨before, heading, shown, hbefore, hheaded, hshown, rfl⟩ := h.lines
  rw [List.countP_append, hshown.countP, Nat.add_eq_right, List.countP_eq_zero]
  intro entry hentry
  obtain ⟨line, hline, rfl⟩ := List.mem_map.1 hentry
  obtain hline | hline := List.mem_append.1 hline
  · obtain rfl | rfl := hbefore
    · cases hline
    · rw [List.mem_singleton.1 hline]
      exact Bool.false_ne_true
  · rw [hheaded.isInstruction line hline]
    exact Bool.false_ne_true

lemma exists_foldlM_countBehind {units : List (Nat × CodeUnit)}
    {blocks : List (List (Nat × Line))} (h : Blocks units blocks) (counts : Frequencies) :
    ∃ counts', units.foldlM countBehind counts = .ok counts' ∧
      total counts' = total counts + blocks.flatten.countP (·.2.isInstruction) := by
  induction h generalizing counts with
  | nil => exact ⟨counts, rfl, rfl⟩
  | @cons entry block units blocks hcovers _ ih =>
    obtain ⟨w, hcovers⟩ := hcovers
    obtain ⟨middle, hown, hmiddle⟩ := exists_gathers_countOpcode w counts
    obtain ⟨counts', hrest, htotal⟩ := ih middle
    refine ⟨counts', ?_, ?_⟩
    · have hgather : countBehind counts entry = .ok middle :=
        gather_eq_ok_iff.2 ⟨w, hcovers.reads.walk, hown⟩
      rw [List.foldlM_cons, hgather]
      exact hrest
    · rw [htotal, hmiddle, List.flatten_cons, List.countP_append, hcovers.countP]
      omega

end CodeUnit

/-- The texts of lines, each at its level. -/
abbrev LinesWritten (lines : List (Nat × Line)) (texts : List String) : Prop :=
  List.Forall₂ (fun entry text => entry.2.WrittenAs entry.1 text) lines texts

lemma linesWritten_map (lines : List (Nat × Line)) :
    LinesWritten lines (lines.map fun entry => entry.2.text entry.1) := by
  rw [LinesWritten, List.forall₂_map_right_iff, List.forall₂_same]
  exact fun entry _ => entry.2.writtenAs_text entry.1

open CodeUnit in
/-- **Listings and statistics cover the same instructions, each once.**  Let the units of a tree
be in order: a unit before those in its pool, one after the other and each with all that are nested
in it.

* There is a listing if and only if each of these units can be read: its walk reaches the end of the
  stream, and every operand on it can be resolved.
* The listing then consists of one block of lines for each of these units, at its level.  Behind the
  heading, a block has one line for each instruction of the walk, at increasing offsets.  It is
  marked, and has a mark above it, if and only if some jump of the same unit leads to its offset.
  Its text shows the offset, the marker and the instruction.
* The statistics then succeed as well, and count as many instructions as there are such lines. -/
theorem listing_covers_instructions_once (unit : CodeUnit) :
    ((∃ text, unit.listingText = .ok text) ↔
      ∀ entry ∈ unitsFrom 0 unit, ∃ w, entry.2.Reads w) ∧
    ∀ text, unit.listingText = .ok text →
      ∃ blocks texts, Blocks (unitsFrom 0 unit) blocks ∧ LinesWritten blocks.flatten texts ∧
        text = String.intercalate "\n" texts ++ "\n" ∧
        ∃ counts, unit.frequencies = .ok counts ∧
          total counts = blocks.flatten.countP (·.2.isInstruction) := by
  constructor
  · constructor
    · rintro ⟨text, htext⟩
      obtain ⟨lines, hlines, -⟩ := map_eq_ok htext
      obtain ⟨blocks, -, hblocks⟩ := blocks_of_listing hlines
      exact hblocks.reads
    · intro h
      obtain ⟨lines, hlines⟩ := exists_listing h
      rw [listingText, hlines]
      exact ⟨_, rfl⟩
  · intro text htext
    obtain ⟨lines, hlines, rfl⟩ := map_eq_ok htext
    obtain ⟨blocks, hflatten, hblocks⟩ := blocks_of_listing hlines
    obtain ⟨counts, hcounts, htotal⟩ := exists_foldlM_countBehind hblocks .empty
    refine ⟨blocks, _, hblocks, hflatten ▸ linesWritten_map lines.toList, rfl, counts, ?_, ?_⟩
    · rw [frequencies, countUnit_eq unit 0]
      exact hcounts
    · rw [htotal]
      exact Nat.zero_add _

/-- A unit in which a jump leads to the instruction behind it. -/
def hoppingUnit : CodeUnit := { (.named "hopping" : CodeUnit) with code := #[0x70, 0, 0, 0x01] }

/-- A unit that has it in its pool. -/
def nestingUnit : CodeUnit :=
  { (.named "nesting" : CodeUnit) with
    code := #[0x50, 0, 0, 0x31]
    consts := [.code hoppingUnit] }

/-- The lines of its listing. -/
def nestingListing : List String :=
  ["════════════════════════════════════════",
    " nesting",
    " 4 bytes, 0 params",
    "════════════════════════════════════════",
    "0000   LOAD_CONST               0  (<code hopping>)",
    "0003   RETURN_VALUE",
    "",
    "  ════════════════════════════════════════",
    "   hopping",
    "   4 bytes, 0 params",
    "  ════════════════════════════════════════",
    "  0000   JUMP_FORWARD             0  (↓ (→ 0003))",
    "        ┌──────────────────────────────────",
    "  0003 ► POP_TOP"]

open CodeUnit in
/-- Both units are listed, the jump target is marked, and two instructions are counted in each. -/
theorem listing_covers_nested_unit :
    nestingUnit.listingText = .ok (String.intercalate "\n" nestingListing ++ "\n") ∧
      ∃ counts, nestingUnit.frequencies = .ok counts ∧ total counts = 4 := by
  have hnesting : nestingUnit.Stops 0 [(0, ⟨.loadConst, 0, 3⟩), (3, ⟨.returnValue, 0, 4⟩)] none :=
    .step rfl (.step rfl (.atEnd rfl))
  have hhopping : hoppingUnit.Stops 0 [(0, ⟨.jumpForward, 0, 3⟩), (3, ⟨.popTop, 0, 4⟩)] none :=
    .step rfl (.step rfl (.atEnd rfl))
  have hunits : unitsFrom 0 nestingUnit = [(0, nestingUnit), (1, hoppingUnit)] := by
    simp [unitsFrom_eq, nestingUnit, unitsInPool, hoppingUnit, UnitOver.named]
  obtain ⟨hsucceeds, hcovers⟩ := listing_covers_instructions_once nestingUnit
  rw [hunits] at hsucceeds hcovers
  have hreads : ∀ entry ∈ [(0, nestingUnit), (1, hoppingUnit)], ∃ w, entry.2.Reads w := by
    refine List.forall_mem_cons.2 ⟨⟨_, hnesting, ?_⟩, List.forall_mem_singleton.2 ⟨_, hhopping, ?_⟩⟩
    · exact List.forall_mem_cons.2 ⟨⟨_, rfl⟩, List.forall_mem_singleton.2 ⟨_, rfl⟩⟩
    · exact List.forall_mem_cons.2 ⟨⟨_, rfl⟩, List.forall_mem_singleton.2 ⟨_, rfl⟩⟩
  obtain ⟨text, htext⟩ := hsucceeds.2 hreads
  have hlisting : nestingUnit.listingText.toOption =
      some (String.intercalate "\n" nestingListing ++ "\n") := by
    decide +kernel
  obtain rfl : text = String.intercalate "\n" nestingListing ++ "\n" := by
    rw [htext] at hlisting
    exact Option.some.inj hlisting
  obtain ⟨blocks, -, hblocks, -, -, counts, hcounts, htotal⟩ := hcovers _ htext
  refine ⟨htext, counts, hcounts, ?_⟩
  obtain ⟨outer, rest, ⟨w, hw⟩, hrest, rfl⟩ := List.forall₂_cons_left_iff.1 hblocks
  obtain ⟨inner, rest, ⟨w', hw'⟩, hnone, rfl⟩ := List.forall₂_cons_left_iff.1 hrest
  obtain rfl := List.forall₂_nil_left_iff.1 hnone
  obtain ⟨rfl, -⟩ := hnesting.unique hw.reads.walk
  obtain ⟨rfl, -⟩ := hhopping.unique hw'.reads.walk
  rw [htotal, List.flatten_cons, List.countP_append, List.flatten_cons, List.countP_append,
    hw.countP, hw'.countP]
  rfl

end StackMachine
