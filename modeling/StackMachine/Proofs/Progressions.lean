import StackMachine.Proofs.Cursors
import StackMachine.Proofs.ExactIntegers
/-!
# Arithmetic progressions

`range` goes from a start to a stop by steps that are not zero, upwards or downwards.  The terms are
the integers `start + k * step` that come before the stop, with the sums made in the integers
(`IsProgression`).

The cursor adds words.  Where a sum is no word, it puts the stop in its place, and the progression
ends there.  That is right: such a sum lies behind all words on the side that the steps lead to, so
it does not come before the stop, and neither does any later one (`isProgression_last`).  Each other
step brings the cursor nearer to the stop, or beyond it, so there are finitely many
(`exists_progression`).  The main statement is `range_is_progression`.
-/

namespace StackMachine

/-! ## Terms -/

/-- The integer comes before the stop, in the direction of the steps. -/
def Precedes (step n stop : Int) : Prop := if 0 < step then n < stop else stop < n

instance (step n stop : Int) : Decidable (Precedes step n stop) := by
  unfold Precedes
  infer_instance

/-- These words are the terms of a progression: the word at the place `k` is `start + k * step`, and
there is one for each `k` for which this integer comes before the stop. -/
def IsProgression (start stop step : Int) (terms : List Int64) : Prop :=
  ∀ k : Nat, terms[k]?.map Int64.toInt =
    if Precedes step (start + k * step) stop then some (start + k * step) else none

variable {start stop step : Int} {terms : List Int64} {t : Int64}

/-- Further steps do not lead back before the stop. -/
lemma not_precedes_add (h : ¬Precedes step start stop) (k : Nat) :
    ¬Precedes step (start + k * step) stop := by
  unfold Precedes at h ⊢
  split <;> rename_i hstep
  · have hforth : (0 : Int) ≤ k * step := by positivity
    rw [if_pos hstep] at h
    omega
  · have hback : (k : Int) * step ≤ 0 := mul_nonpos_of_nonneg_of_nonpos (by positivity) (by omega)
    rw [if_neg hstep] at h
    omega

lemma isProgression_nil (h : ¬Precedes step start stop) : IsProgression start stop step [] :=
  fun k => (if_neg (not_precedes_add h k)).symm

lemma isProgression_cons (ht : t.toInt = start) (h : Precedes step start stop)
    (hrest : IsProgression (start + step) stop step terms) :
    IsProgression start stop step (t :: terms) := by
  rintro (_ | k)
  · rw [Nat.cast_zero, zero_mul, add_zero, if_pos h, List.getElem?_cons_zero, Option.map_some, ht]
  · have hsum : start + (k + 1 : Nat) * step = start + step + k * step := by
      push_cast
      ring
    rw [List.getElem?_cons_succ, hsum]
    exact hrest k

/-- What is no word lies behind all words in the direction of the steps. -/
lemma not_precedes_of_fit?_eq_none {next stop step : Int64}
    (hsum : Integer.fit? (next.toInt + step.toInt) = none) :
    ¬Precedes step.toInt (next.toInt + step.toInt) stop.toInt := by
  rw [Integer.fit?_eq_none_iff] at hsum
  have hlow := next.le_toInt
  have hhigh := next.toInt_lt
  have hstoplow := stop.le_toInt
  have hstophigh := stop.toInt_lt
  unfold Precedes
  split <;> omega

/-- There are no more terms than there are integers from the start to the stop. -/
lemma IsProgression.length_le (h : IsProgression start stop step terms) (hstep : step ≠ 0) :
    terms.length ≤ (stop - start).natAbs := by
  cases hlength : terms.length with
  | zero => exact Nat.zero_le _
  | succ m =>
    have hlast := h m
    rw [List.getElem?_eq_getElem (by omega), Option.map_some] at hlast
    have hprecedes : Precedes step (start + m * step) stop := by
      by_contra hnot
      rw [if_neg hnot] at hlast
      cases hlast
    unfold Precedes at hprecedes
    split at hprecedes
    · have hforth : (m : Int) ≤ m * step := le_mul_of_one_le_right (by positivity) (by omega)
      omega
    · have hneg : step ≤ -1 := by omega
      have hback : (m : Int) * step ≤ -m := by nlinarith
      omega

namespace Cursor

variable {next stop step : Int64} {h : Heap}

lemma isLive_iff : isLive next stop step = true ↔
    Precedes step.toInt next.toInt stop.toInt := by
  unfold isLive Precedes
  split <;> exact decide_eq_true_iff

/-- A step from one term to another leads nearer to the stop. -/
lemma natAbs_lt_of_step {next' : Int64} (hstep : step ≠ 0)
    (hsum : next'.toInt = next.toInt + step.toInt)
    (hlive : Precedes step.toInt next'.toInt stop.toInt) :
    (stop.toInt - next'.toInt).natAbs < (stop.toInt - next.toInt).natAbs := by
  have hne := Integer.toInt_ne_zero hstep
  unfold Precedes at hlive
  split at hlive <;> omega

/-- The cursor has a last item, if the sum behind it is no word. -/
lemma isProgression_last (hlive : Precedes step.toInt next.toInt stop.toInt)
    (hsum : Integer.add? next step = none) :
    IsProgression next.toInt stop.toInt step.toInt [next] ∧
      (Cursor.range next stop step).Holds h [.value (.int next)] := by
  refine ⟨isProgression_cons rfl hlive (isProgression_nil (not_precedes_of_fit?_eq_none hsum)), ?_⟩
  have hterm : nextTerm next stop step = stop := by rw [nextTerm, hsum, Option.getD_none]
  have hfront : (Cursor.range next stop step).front? h =
      some (.value (.int next), .range stop stop step) := by
    rw [front?, if_pos (isLive_iff.2 hlive), hterm]
  have hend : (Cursor.range stop stop step).front? h = none := by
    simp [front?, isLive]
  exact .more hfront (.exhausted hend)

/-- **A progression ends.**  The cursor has the terms left, and there are finitely many.  The
induction is on the distance from the stop, which grows less with each step that leads to a term. -/
lemma exists_progression (hstep : step ≠ 0) (next stop : Int64) (h : Heap) :
    ∃ terms : List Int64, IsProgression next.toInt stop.toInt step.toInt terms ∧
      (Cursor.range next stop step).Holds h (terms.map fun t => .value (.int t)) := by
  induction hdistance : (stop.toInt - next.toInt).natAbs using Nat.strong_induction_on
    generalizing next with
  | _ distance ih =>
    by_cases hlive : Precedes step.toInt next.toInt stop.toInt
    case neg =>
      refine ⟨[], isProgression_nil hlive, .exhausted ?_⟩
      rw [front?, if_neg (by rwa [isLive_iff])]
    case pos =>
      cases hsum : Integer.add? next step with
      | none => exact ⟨[next], isProgression_last hlive hsum⟩
      | some next' =>
        have hnext' : next'.toInt = next.toInt + step.toInt := Integer.fit?_eq_some_iff.1 hsum
        have hfront : (Cursor.range next stop step).front? h =
            some (.value (.int next), .range next' stop step) := by
          rw [front?, if_pos (isLive_iff.2 hlive), nextTerm, hsum, Option.getD_some]
        by_cases hlive' : Precedes step.toInt next'.toInt stop.toInt
        · obtain ⟨terms, hterms, hholds⟩ :=
            ih _ (hdistance ▸ natAbs_lt_of_step hstep hnext' hlive') next' rfl
          exact ⟨next :: terms, isProgression_cons rfl hlive (hnext' ▸ hterms),
            .more hfront hholds⟩
        · have hend : (Cursor.range next' stop step).front? h = none := by
            rw [front?, if_neg (by rwa [isLive_iff])]
          exact ⟨[next], isProgression_cons rfl hlive (hnext' ▸ isProgression_nil hlive'),
            .more hfront (.exhausted hend)⟩

end Cursor

/-! ## Ranges -/

/-- **A range is an arithmetic progression.**  It is an iterator over the terms, of which there are
finitely many.  Taken all at once they come out in their order, and the iterator is exhausted for
good.  Asked one by one, it gives the term `k` at the request `k` and nothing from the first missing
one on, and it may be asked for ever. -/
theorem range_is_progression (start stop step : Int64) (hstep : step ≠ 0) (h : Heap) :
    ∃ r h₁ terms, Builtin.range.call [.int start, .int stop, .int step] h =
        .ok { value := .iterator r } h₁ ∧
      IsProgression start.toInt stop.toInt step.toInt terms ∧
      (∃ h₂, (Value.iterator r).elements h₁ = .ok (terms.map .int) h₂ ∧
        ∀ answers h₃, Requests r h₂ answers h₃ →
          (∀ answer ∈ answers, answer = none) ∧ ∃ h₄, (Value.iterator r).elements h₃ = .ok [] h₄) ∧
      (∀ answers h₂, Requests r h₁ answers h₂ →
        ∀ k < answers.length, answers[k]? = some (terms[k]?.map .int)) ∧
      ∀ count, ∃ answers h₂, Requests r h₁ answers h₂ ∧ answers.length = count := by
  let c := Cursor.range start stop step
  obtain ⟨terms, hterms, hholds⟩ := Cursor.exists_progression hstep start stop (h.newCursor c).2
  have hr := Heap.cursors_newCursor c h
  have hvalues : terms.map (fun t => Item.value (.int t)) = (terms.map Value.int).map .value := by
    rw [List.map_map]
    rfl
  have hbound : ((terms.map Value.int).map Item.value).length ≤ c.bound (h.newCursor c).2 := by
    rw [List.length_map, List.length_map]
    exact hterms.length_le (Integer.toInt_ne_zero hstep)
  rw [hvalues] at hholds
  refine ⟨(h.newCursor c).1, (h.newCursor c).2, terms, ?_, hterms, ?_,
    fun answers h₂ hasked k hk => ?_, Requests.exists_of_holds hr hholds⟩
  · simp [Builtin.call, Builtin.progression, Builtin.bounds, Except.map, hstep, c]
  · obtain ⟨vs, h₂, c', helements, hvs, hr', hend⟩ := Value.elements_of_holds hr hholds hbound
    rw [Item.forall₂_shownBy_values] at hvs
    subst hvs
    exact ⟨h₂, helements, fun answers h₃ hasked => hasked.exhausted hr' hend⟩
  · have hanswer := List.getElem?_eq_getElem hk
    have hrel := (hasked.shown hr hholds).1 k _ hanswer
    rw [List.getElem?_map, Item.rel_shownBy_value] at hrel
    rw [hanswer, hrel, List.getElem?_map]

/-- The range from the second greatest word by two has one term, as the next one would be no
word. -/
theorem range_is_progression_at_greatest :
    ∃ r h₁ h₂, Builtin.range.call
        [.int 9223372036854775806, .int 9223372036854775807, .int 2] .empty =
        .ok { value := .iterator r } h₁ ∧
      (Value.iterator r).elements h₁ = .ok [.int 9223372036854775806] h₂ := by
  obtain ⟨r, h₁, terms, hrange, hterms, ⟨h₂, helements, -⟩, -, -⟩ :=
    range_is_progression 9223372036854775806 9223372036854775807 2 (by decide) .empty
  have hfirst : terms[0]?.map Int64.toInt = some 9223372036854775806 :=
    (hterms 0).trans (by decide)
  have hnext : terms[1]?.map Int64.toInt = none := (hterms 1).trans (by decide)
  obtain ⟨t, rest, rfl⟩ : ∃ t rest, terms = t :: rest := by
    cases terms with
    | nil => cases hfirst
    | cons t rest => exact ⟨t, rest, rfl⟩
  obtain rfl : rest = [] := by
    cases rest with
    | nil => rfl
    | cons => cases hnext
  obtain rfl : t = 9223372036854775806 := Int64.toInt_inj.1 (Option.some.inj hfirst)
  exact ⟨r, h₁, h₂, hrange, helements⟩

end StackMachine
