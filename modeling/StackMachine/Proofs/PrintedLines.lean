import StackMachine.Proofs.Primitives
import StackMachine.Run.Execute
/-!
# What has been printed

Values are printed one at a time or many at once, and what has been printed is taken out of the
buffer now and then.  Where it is taken makes no difference to the text as a whole, since the space
that is owed to the next value is remembered apart from the text.

The text consists of lines (`Output.layout`).  On each of them some values have been printed one at
a time, and it ends with those that have been printed at once, if there are any.  Within each of the
two groups the values are separated by single spaces.  But printing at once pays no space: where
both groups have values, there is nothing between the groups.  Hence the lines whose values are
separated by single spaces throughout are exactly those on which one of the groups is empty.

The main statement is `printed_lines`.
-/

namespace StackMachine

namespace Output

/-! ## Calls -/

/-- A call on an output.  Values are displayed as they are in the heap at that time. -/
inductive Call where
  | item (h : Heap) (v : Value)
  | newline
  | line (h : Heap) (vs : List Value)
  | take

/-- Whether a call takes text out of the buffer. -/
def Call.isTake : Call → Bool
  | take => true
  | item .. | newline | line .. => false

/-- The text that a call hands over, and the output behind it. -/
def answer (o : Output) : Call → String × Output
  | .item h v => ("", o.item (v.display h))
  | .newline => ("", o.newline)
  | .line h vs => ("", o.line (vs.map (·.display h)))
  | .take => o.take

/-- What calls hand over, one text after the other, and what is left in the buffer behind it. -/
def printed (o : Output) : List Call → String
  | [] => o.text
  | call :: calls => (o.answer call).1 ++ (o.answer call).2.printed calls

/-! ## Lines -/

/-- The texts of the values on a line that has been ended. -/
structure Line where
  /-- Those printed one at a time. -/
  items : List String
  /-- Those printed at once, together with the end of the line. -/
  rest : List String

/-- The line on which values have been printed in both ways. -/
def Line.IsMixed (l : Line) : Prop := l.items ≠ [] ∧ l.rest ≠ []

/-- A line with single spaces between all values. -/
def Line.spaced (l : Line) : String := String.intercalate " " (l.items ++ l.rest) ++ "\n"

/-- A line with single spaces between the values of each of its groups. -/
def Line.grouped (l : Line) : String :=
  String.intercalate " " l.items ++ String.intercalate " " l.rest ++ "\n"

/-- The lines that calls end, and the texts of the values on the line that is not ended.  On the
first line there are the values `begun` already. -/
def layout (begun : List String) : List Call → List Line × List String
  | [] => ([], begun)
  | .item h v :: calls => layout (begun ++ [v.display h]) calls
  | .newline :: calls => (⟨begun, []⟩ :: (layout [] calls).1, (layout [] calls).2)
  | .line h vs :: calls =>
    (⟨begun, vs.map (·.display h)⟩ :: (layout [] calls).1, (layout [] calls).2)
  | .take :: calls => layout begun calls

/-- The text of lines that are written in some way, and of the line that is not ended. -/
def textOf (write : Line → String) (lines : List Line × List String) : String :=
  String.join (lines.1.map write) ++ String.intercalate " " lines.2

lemma textOf_cons (write : Line → String) (l : Line) (ls : List Line) (begun : List String) :
    textOf write (l :: ls, begun) = write l ++ textOf write (ls, begun) := by
  simp [textOf, String.append_assoc]

/-- Another value on a line has a space in front of it unless it is the first one. -/
lemma intercalate_concat (texts : List String) (t : String) :
    String.intercalate " " (texts ++ [t]) =
      String.intercalate " " texts ++ ((if texts = [] then "" else " ") ++ t) := by
  by_cases hnone : texts = []
  · simp [hnone]
  · rw [String.intercalate_append_of_ne_nil hnone (List.cons_ne_nil t []), if_neg hnone]
    simp [String.append_assoc]

/-! ## What calls write -/

variable {o : Output} {begun : List String} {calls : List Call}

/-- **What has been printed.**  A space is owed exactly if there are values on the line that has
been begun, whether they have been taken or not.  What is added to the buffer, and goes on with that
line, are the lines of the calls with single spaces within each group. -/
lemma exists_printed (hcaptured : o.toConsole = false) (howes : o.owesSpace = true ↔ begun ≠ []) :
    ∃ added, o.printed calls = o.text ++ added ∧
      String.intercalate " " begun ++ added = textOf Line.grouped (layout begun calls) := by
  induction calls generalizing o begun with
  | nil => exact ⟨"", by simp [printed], by simp [layout, textOf]⟩
  | cons call calls ih =>
    cases call with
    | item h v =>
      obtain ⟨added, hprinted, hadded⟩ :=
        @ih (o.item (v.display h)) (begun ++ [v.display h]) hcaptured (by simp [item])
      refine ⟨(if begun = [] then "" else " ") ++ v.display h ++ added, ?_, ?_⟩
      · rw [printed, answer, hprinted, item]
        by_cases hbegun : begun = []
        · have hfree : o.owesSpace = false := by simpa [hbegun] using howes
          simp [hbegun, hfree, String.append_assoc]
        · simp [hbegun, howes.2 hbegun, String.append_assoc]
      · rw [layout, ← hadded, intercalate_concat]
        simp [String.append_assoc]
    | newline =>
      obtain ⟨added, hprinted, hadded⟩ := @ih o.newline [] hcaptured (by simp [newline])
      refine ⟨"\n" ++ added, ?_, ?_⟩
      · rw [printed, answer, hprinted]
        simp [newline, String.append_assoc]
      · rw [layout, textOf_cons, ← hadded]
        simp [Line.grouped, String.append_assoc]
    | line h vs =>
      obtain ⟨added, hprinted, hadded⟩ :=
        @ih (o.line (vs.map (·.display h))) [] hcaptured (by simp [line, newline])
      refine ⟨String.intercalate " " (vs.map (·.display h)) ++ "\n" ++ added, ?_, ?_⟩
      · rw [printed, answer, hprinted]
        simp [line, newline, String.append_assoc]
      · rw [layout, textOf_cons, ← hadded]
        simp [Line.grouped, String.append_assoc]
    | take =>
      obtain ⟨added, hprinted, hadded⟩ := @ih { o with text := "" } begun hcaptured howes
      have htake : o.answer .take = (o.text, { o with text := "" }) := by
        simp [answer, take, hcaptured]
      rw [String.empty_append] at hprinted
      exact ⟨added, by rw [printed, htake, hprinted], hadded⟩

lemma printed_captured (calls : List Call) :
    captured.printed calls = textOf Line.grouped (layout [] calls) := by
  obtain ⟨added, hprinted, hadded⟩ := @exists_printed captured [] calls rfl (by simp [captured])
  rw [hprinted, ← hadded]
  rfl

/-- To take text out of the buffer is not to write. -/
lemma layout_filter (begun : List String) (calls : List Call) :
    layout begun (calls.filter fun call => !call.isTake) = layout begun calls := by
  induction calls generalizing begun with
  | nil => rfl
  | cons call calls ih =>
    cases call with
    | take => rw [List.filter_cons_of_neg (by simp [Call.isTake]), ih, layout]
    | item h v => rw [List.filter_cons_of_pos rfl, layout, ih, layout]
    | newline => rw [List.filter_cons_of_pos rfl, layout, ih, layout]
    | line h vs => rw [List.filter_cons_of_pos rfl, layout, ih, layout]

/-! ## Spaces -/

instance (l : Line) : Decidable l.IsMixed := inferInstanceAs (Decidable (_ ∧ _))

/-- On a mixed line one space is missing. -/
lemma Line.length_spaced (l : Line) :
    l.spaced.length = l.grouped.length + if l.IsMixed then 1 else 0 := by
  unfold spaced grouped
  by_cases hitems : l.items = []
  · simp [IsMixed, hitems]
  by_cases hrest : l.rest = []
  · simp [IsMixed, hrest]
  rw [String.intercalate_append_of_ne_nil hitems hrest, if_pos ⟨hitems, hrest⟩]
  have hspace : " ".length = 1 := rfl
  simp only [String.length_append, hspace]
  omega

/-- A line that is not mixed is separated by single spaces. -/
lemma Line.spaced_of_not_isMixed {l : Line} (hl : ¬l.IsMixed) : l.spaced = l.grouped := by
  unfold spaced grouped
  by_cases hitems : l.items = []
  · simp [hitems]
  · have hrest : l.rest = [] := Classical.not_not.1 fun hrest => hl ⟨hitems, hrest⟩
    simp [hrest]

/-- As many spaces are missing as there are mixed lines. -/
lemma length_textOf_spaced (ls : List Line) (begun : List String) :
    (textOf Line.spaced (ls, begun)).length =
      (textOf Line.grouped (ls, begun)).length + ls.countP (fun l => l.IsMixed) := by
  induction ls with
  | nil => rfl
  | cons l ls ih =>
    rw [textOf_cons, textOf_cons, String.length_append, String.length_append, l.length_spaced, ih,
      List.countP_cons]
    simp only [decide_eq_true_eq]
    omega

lemma textOf_grouped_eq_iff (lines : List Line × List String) :
    textOf Line.grouped lines = textOf Line.spaced lines ↔ ∀ l ∈ lines.1, ¬l.IsMixed := by
  constructor
  · intro heq
    have hlength := length_textOf_spaced lines.1 lines.2
    rw [heq, Nat.left_eq_add, List.countP_eq_zero] at hlength
    exact fun l hl hmixed => hlength l hl (decide_eq_true hmixed)
  · intro hnone
    have hlines : lines.1.map Line.grouped = lines.1.map Line.spaced :=
      List.map_congr_left fun l hl => (Line.spaced_of_not_isMixed (hnone l hl)).symm
    rw [textOf, textOf, hlines]

end Output

/-! ## Who makes the calls -/

namespace Exec

lemma perform_printItem (a : Activation) (v : Value) :
    perform .printItem { a with frame := { a.frame with stack := a.frame.stack.push v } } =
      .ok () { a with output := (a.output.answer (.item a.heap v)).2 } := by
  have hpop : pop { a with frame := { a.frame with stack := a.frame.stack.push v } } = .ok v a :=
    pop_apply rfl
  simp only [perform, bind_apply, hpop, get_apply]
  rfl

lemma invoke_print (a : Activation) (vs : List Value) :
    invoke (.builtin .print) vs [] a = .ok ()
      { a with
        frame := { a.frame with stack := a.frame.stack.push .none }
        output := (a.output.answer (.line a.heap vs)).2 } := rfl

end Exec

namespace Output

/-- **Printed lines.**  The text that calls on a captured output print does not depend on where it
is taken.  It consists of the lines of the calls, on each of which the values printed one at a time
are separated by single spaces, and so are those printed at once.  All values on all lines are
separated by single spaces if and only if none of the lines is mixed.

The calls are made by the instructions that print an item and end a line, and by the function
`print`. -/
theorem printed_lines (calls : List Call) :
    captured.printed calls = captured.printed (calls.filter fun call => !call.isTake) ∧
    captured.printed calls = textOf Line.grouped (layout [] calls) ∧
    (captured.printed calls = textOf Line.spaced (layout [] calls) ↔
      ∀ l ∈ (layout [] calls).1, ¬l.IsMixed) ∧
    ∀ a : Activation,
      (∀ v, Exec.perform .printItem
          { a with frame := { a.frame with stack := a.frame.stack.push v } } =
        .ok () { a with output := (a.output.answer (.item a.heap v)).2 }) ∧
      Exec.perform .printNewline a = .ok () { a with output := (a.output.answer .newline).2 } ∧
      ∀ vs, Exec.invoke (.builtin .print) vs [] a = .ok ()
        { a with
          frame := { a.frame with stack := a.frame.stack.push .none }
          output := (a.output.answer (.line a.heap vs)).2 } := by
  refine ⟨?_, printed_captured calls, ?_, fun a => ⟨?_, rfl, ?_⟩⟩
  · rw [printed_captured, printed_captured, layout_filter]
  · rw [printed_captured, textOf_grouped_eq_iff]
  · exact Exec.perform_printItem a
  · exact Exec.invoke_print a

/-- Behind a value that has been printed by itself, one that ends the line follows without a
space. -/
theorem mixed_line_not_spaced :
    captured.printed [.item .empty (.int 1), .line .empty [.int 2], .take] = "12\n" ∧
    textOf Line.spaced
      (layout [] [.item .empty (.int 1), .line .empty [.int 2], .take]) = "1 2\n" := by
  decide

end Output

end StackMachine
