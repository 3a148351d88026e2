import StackMachine.Code.Listing
import StackMachine.Proofs.Decoding
/-!
# The lines of a listing

What the text of each line consists of, apart from the functions that write it.  A line starts with
two blanks for each level.  The line of an instruction goes on with the offset in at least four
digits, the marker of an instruction that is jumped to or blanks instead of it, and the words of the
instruction.  These are its mnemonic alone if it has no argument.  Otherwise the mnemonic stands in
a column of 20 characters and the argument in one of five, aligned on the right, and what the
argument means follows in parentheses, if there is anything to say about it.

`Line.WrittenAs` is about the texts of lines, and `CodeUnit.Words` about those of instructions.
That the listing has these texts is `Line.writtenAs_text` and `CodeUnit.words_of_instructionText`.
-/

namespace StackMachine

/-! ## Columns -/

/-- What fills a column beside a text: copies of one character, and as many of them as the text is
shorter than the column is wide. -/
structure Fills (c : Char) (width : Nat) (s filling : String) : Prop where
  copies : ∀ x ∈ filling.toList, x = c
  width : s.length + filling.length = max width s.length

lemma fills_replicate (c : Char) (width : Nat) (s : String) :
    Fills c width s (String.ofList (List.replicate (width - s.length) c)) := by
  constructor
  · simp
  · rw [String.length_ofList, List.length_replicate]
    omega

/-! ## Lines -/

namespace Line

/-- What a line consists of behind its indentation. -/
inductive Body : Line → String → Prop
  | rule : Body .rule "════════════════════════════════════════"
  | heading {s : String} : Body (.heading s) (" " ++ s)
  | mark : Body .mark "      ┌──────────────────────────────────"
  | marked {offset : Nat} {words zeros : String} (hzeros : Fills '0' 4 (toString offset) zeros) :
    Body (.instruction offset true words) (zeros ++ toString offset ++ " ► " ++ words)
  | unmarked {offset : Nat} {words zeros : String} (hzeros : Fills '0' 4 (toString offset) zeros) :
    Body (.instruction offset false words) (zeros ++ toString offset ++ "   " ++ words)

/-- The text of a line at a level of indentation. -/
inductive WrittenAs (level : Nat) : Line → String → Prop
  | gap : WrittenAs level .gap ""
  | indented {line : Line} {indent body : String} (hindent : Fills ' ' (2 * level) "" indent)
    (hbody : Body line body) : WrittenAs level line (indent ++ body)

lemma writtenAs_text (level : Nat) (line : Line) : WrittenAs level line (line.text level) := by
  have hindent : Fills ' ' (2 * level) "" (String.ofList (List.replicate (2 * level) ' ')) :=
    fills_replicate ' ' (2 * level) ""
  cases line with
  | rule =>
    have hrule : Body .rule ruleText := by
      have heq : ruleText = "════════════════════════════════════════" := by decide +kernel
      exact heq ▸ .rule
    exact .indented hindent hrule
  | heading s =>
    rw [text, String.append_assoc]
    exact .indented hindent .heading
  | mark =>
    have hmark : Body .mark markText := by
      have heq : markText = "      ┌──────────────────────────────────" := by decide +kernel
      exact heq ▸ .mark
    exact .indented hindent hmark
  | instruction offset marked words =>
    have hzeros := fills_replicate '0' 4 (toString offset)
    have htext : (instruction offset marked words).text level =
        String.ofList (List.replicate (2 * level) ' ') ++
          (offsetText offset ++ (if marked then " ► " else "   ") ++ words) := by
      simp only [text, String.append_assoc]
    rw [htext]
    cases marked with
    | false => exact .indented hindent (.unmarked hzeros)
    | true => exact .indented hindent (.marked hzeros)
  | gap => exact .gap

end Line

/-! ## Headings -/

namespace CodeUnit

/-- The line that lists some names, if there are any. -/
inductive NamesListed (label : String) : List String → List Line → Prop
  | none : NamesListed label [] []
  | some {names : List String} (hnames : names ≠ []) :
    NamesListed label names [.heading (label ++ String.intercalate ", " names)]

/-- The heading of a unit: between two rules its name, its size with the number of its parameters,
and the names of its cells and of its free variables. -/
inductive Headed (unit : CodeUnit) : List Line → Prop
  | intro {variadic : String} {cells free : List Line}
    (hvariadic : variadic = if unit.variadic then " + varargs" else "")
    (hcells : NamesListed "cells: " unit.cellNames cells)
    (hfree : NamesListed "free:  " unit.freeNames free) :
    Headed unit ([.rule, .heading unit.name,
      .heading (toString unit.size ++ " bytes, " ++ toString unit.paramCount.toNat ++ " params" ++
        variadic)] ++ cells ++ free ++ [.rule])

lemma namesListed (label : String) (names : List String) :
    NamesListed label names
      (if names.isEmpty then [] else [.heading (label ++ String.intercalate ", " names)]) := by
  cases names with
  | nil => exact .none
  | cons s rest => exact .some (List.cons_ne_nil s rest)

lemma headed_headingLines (unit : CodeUnit) : unit.Headed unit.headingLines :=
  .intro rfl (namesListed _ _) (namesListed _ _)

/-! ## Instructions -/

/-- What a listing says about the meaning of an argument. -/
inductive Explains (op : Opcode) (offset : Nat) : Operand → String → Prop
  | none : Explains op offset .none ""
  | const {i : Nat} {c : Const} : Explains op offset (.const i c) c.text
  | name {s : String} : Explains op offset (.name s) s
  | cell {i : Nat} {s : String} : Explains op offset (.cell i s) s
  | backward {t : Nat} {zeros : String} (ht : t ≤ offset)
    (hzeros : Fills '0' 4 (toString t) zeros) :
    Explains op offset (.target t) ("↑ (→ " ++ zeros ++ toString t ++ ")")
  | forward {t : Nat} {zeros : String} (ht : offset < t)
    (hzeros : Fills '0' 4 (toString t) zeros) :
    Explains op offset (.target t) ("↓ (→ " ++ zeros ++ toString t ++ ")")
  | comparison {c : CompareOp} {n : Nat} (hop : op = .compareOp)
    (hc : CompareOp.ofSelector? n = some c) : Explains op offset (.count n) c.symbol
  | noComparison {n : Nat} (hop : op = .compareOp) (hc : CompareOp.ofSelector? n = Option.none) :
    Explains op offset (.count n) "?"
  | call {positional keyword : Nat} (hop : op = .callFunction) (hpositional : positional < 256) :
    Explains op offset (.count (256 * keyword + positional))
      (toString positional ++ " positional, " ++ toString keyword ++ " keyword")
  | count {n : Nat} (hcompare : op ≠ .compareOp) (hcall : op ≠ .callFunction) :
    Explains op offset (.count n) ""

/-- The words by which an instruction is listed.  An argument of which there is nothing to say is
not followed by parentheses. -/
inductive Words (unit : CodeUnit) (offset : Nat) (f : Fetched) : String → Prop
  | alone (hop : f.op.hasArgument = false) : Words unit offset f f.op.mnemonic
  | argument {x : Operand} {behind before : String} (hop : f.op.hasArgument = true)
    (hx : unit.operand f.op f.raw offset = .ok x) (hnote : Explains f.op offset x "")
    (hbehind : Fills ' ' 20 f.op.mnemonic behind) (hbefore : Fills ' ' 5 (toString f.raw) before) :
    Words unit offset f (f.op.mnemonic ++ behind ++ " " ++ before ++ toString f.raw)
  | explained {x : Operand} {behind before note : String} (hop : f.op.hasArgument = true)
    (hx : unit.operand f.op f.raw offset = .ok x) (hnote : Explains f.op offset x note)
    (hne : note ≠ "") (hbehind : Fills ' ' 20 f.op.mnemonic behind)
    (hbefore : Fills ' ' 5 (toString f.raw) before) :
    Words unit offset f
      (f.op.mnemonic ++ behind ++ " " ++ before ++ toString f.raw ++ "  (" ++ note ++ ")")

lemma explains_detail (op : Opcode) (offset : Nat) (x : Operand) :
    Explains op offset x (detail op offset x) := by
  cases x with
  | none => exact .none
  | const i c => exact .const
  | name s => exact .name
  | cell i s => exact .cell
  | target t =>
    have hzeros := fills_replicate '0' 4 (toString t)
    by_cases ht : t ≤ offset
    · have hback : Explains op offset (.target t) _ := .backward ht hzeros
      simpa [detail, ht, Line.offsetText, Line.padLeft, String.append_assoc] using hback
    · have hforth : Explains op offset (.target t) _ := .forward (Nat.lt_of_not_le ht) hzeros
      simpa [detail, ht, Line.offsetText, Line.padLeft, String.append_assoc] using hforth
  | count n =>
    by_cases hcompare : op = .compareOp
    · subst hcompare
      cases hc : CompareOp.ofSelector? n with
      | none => simpa [detail, hc] using Explains.noComparison rfl hc
      | some c => simpa [detail, hc] using Explains.comparison rfl hc
    · by_cases hcall : op = .callFunction
      · subst hcall
        have hlt : n % 256 < 256 := Nat.mod_lt n (by decide)
        have hexplains : Explains .callFunction offset
            (.count (256 * (n / 256) + n % 256)) _ := .call rfl hlt
        rw [Nat.div_add_mod] at hexplains
        exact hexplains
      · have hdetail : detail op offset (.count n) = "" := by
          cases op <;> first | rfl | exact absurd rfl hcompare | exact absurd rfl hcall
        exact hdetail ▸ .count hcompare hcall

lemma words_of_instructionText {unit : CodeUnit} {offset : Nat} {f : Fetched} {words : String}
    (h : unit.instructionText offset f = .ok words) : unit.Words offset f words := by
  unfold instructionText at h
  cases hop : f.op.hasArgument with
  | false =>
    rw [hop] at h
    cases h
    exact .alone hop
  | true =>
    rw [hop, if_pos rfl] at h
    obtain ⟨x, hx, rfl⟩ := map_eq_ok h
    have hnote := explains_detail f.op offset x
    have hbehind := fills_replicate ' ' 20 f.op.mnemonic
    have hbefore := fills_replicate ' ' 5 (toString f.raw)
    dsimp only [Line.padRight, Line.padLeft]
    rw [← String.append_assoc]
    split
    · next hempty =>
      rw [String.isEmpty_iff.1 hempty] at hnote
      exact .argument hop hx hnote hbehind hbefore
    · next hempty =>
      exact .explained hop hx hnote (fun heq => hempty (String.isEmpty_iff.2 heq)) hbehind hbefore

end CodeUnit

end StackMachine
