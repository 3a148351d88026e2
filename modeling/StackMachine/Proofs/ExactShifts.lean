import StackMachine.Proofs.ExactIntegers
/-!
# Shifts are exact

A left shift by `s` places multiplies by `2^s`, a right shift divides by it and rounds down, both in
the integers.  Words are shifted by less than 64 places only, whatever the operand on the right is.

* A left shift of a word is multiplication modulo `2^64`.  Shifting back gives the word again
  exactly if nothing has been lost on the way (`shift_back_iff`): what comes out of the left shift
  is a multiple of `2^s`, so it is the product if dividing it by `2^s` gives the word.
* From 63 places on there is nothing to be tried, since no word has the value of the product, unless
  the word is zero (`fit?_mul_two_pow_eq_none`).  One pair of operands is forgotten by this: `-1`
  shifted by 63 places is the least word, but it overflows.

The main statement is `shifts_exact_but_minus_one_by_63`.
-/

namespace StackMachine

namespace Integer

variable {x y : Int64} {n : Int} {s : Nat} {host : WordShifts}

/-! ## Shifts of words -/

lemma toNat_smod_ofNat (hs : s < 64) : ((Int64.ofNat s).toBitVec.smod 64).toNat = s := by
  have hplaces : ∀ s : Fin 64, ((Int64.ofNat s).toBitVec.smod 64).toNat = s := by decide
  exact hplaces ⟨s, hs⟩

lemma toInt_shiftLeft (hs : s < 64) :
    (x <<< Int64.ofNat s).toInt = (x.toInt * 2 ^ s).bmod (2 ^ 64) := by
  rw [← Int64.toInt_toBitVec, Int64.toBitVec_shiftLeft, BitVec.shiftLeft_eq', toNat_smod_ofNat hs,
    BitVec.toInt_shiftLeft, Nat.shiftLeft_eq, ← Int64.toInt_toBitVec, BitVec.toInt_eq_toNat_bmod,
    Int.bmod_mul_bmod]
  push_cast
  rfl

lemma toInt_shiftRight (hs : s < 64) : (x >>> Int64.ofNat s).toInt = x.toInt / 2 ^ s := by
  rw [← Int64.toInt_toBitVec, Int64.toBitVec_shiftRight, BitVec.sshiftRight_eq',
    toNat_smod_ofNat hs, BitVec.toInt_sshiftRight, Int.shiftRight_eq_div_pow,
    Int64.toInt_toBitVec]
  norm_cast

/-- The places that have become free are zeros. -/
lemma two_pow_dvd_shiftLeft (hs : s < 64) : (2 : Int) ^ s ∣ (x <<< Int64.ofNat s).toInt := by
  have hword : (2 : Int) ^ s ∣ (2 ^ 64 : Nat) := by
    rw [Nat.cast_pow]
    exact pow_dvd_pow 2 hs.le
  have hwrapped := hword.trans (Int.dvd_bmod_sub_self (x := x.toInt * 2 ^ s) (m := 2 ^ 64))
  rw [toInt_shiftLeft hs]
  exact (dvd_sub_left (Dvd.intro_left _ rfl)).1 hwrapped

/-- **Shifting back.**  It gives the word again exactly if the left shift was a multiplication. -/
lemma shift_back_iff (hs : s < 64) :
    x <<< Int64.ofNat s >>> Int64.ofNat s = x ↔
      (x <<< Int64.ofNat s).toInt = x.toInt * 2 ^ s := by
  rw [← Int64.toInt_inj, toInt_shiftRight hs]
  have hpos : (2 : Int) ^ s ≠ 0 := by positivity
  constructor
  · intro hback
    rw [← hback, Int.ediv_mul_cancel (two_pow_dvd_shiftLeft hs)]
  · intro hproduct
    rw [hproduct, Int.mul_ediv_cancel _ hpos]

/-! ## Left shifts -/

/-- No word has the value of a number shifted by 63 places or more, with two exceptions. -/
lemma fit?_mul_two_pow_eq_none (hs : 63 ≤ s) (hn : n ≠ 0) (hleast : ¬(n = -1 ∧ s = 63)) :
    fit? (n * 2 ^ s) = none := by
  rw [fit?_eq_none_iff]
  obtain ⟨k, rfl⟩ := Nat.exists_eq_add_of_le hs
  have hpow : (2 : Int) ^ (63 + k) = 9223372036854775808 * 2 ^ k := pow_add 2 63 k
  have hone : (1 : Int) ≤ 2 ^ k := one_le_pow₀ (by decide)
  rw [hpow]
  obtain hpos | hminus | hneg : 1 ≤ n ∨ n = -1 ∨ n ≤ -2 := by omega
  · right
    nlinarith
  · -- The power is not the first one any more.
    left
    have hk : k ≠ 0 := fun hk => hleast ⟨hminus, by omega⟩
    have htwo : (2 : Int) ≤ 2 ^ k := le_self_pow₀ (by decide) hk
    rw [hminus]
    linarith
  · left
    nlinarith

/-- The left shift is exact, on every host, except for `-1` by 63 places. -/
lemma shiftLeft?_eq (hleast : ¬(x = -1 ∧ s = 63)) :
    shiftLeft? host x s = fit? (x.toInt * 2 ^ s) := by
  unfold shiftLeft?
  split
  · next hzero =>
    rw [hzero, Int64.toInt_zero, zero_mul]
    rfl
  · next hzero =>
    split
    · next hfar =>
      have hminus : ¬(x.toInt = -1 ∧ s = 63) := fun h => hleast ⟨Int64.toInt_inj.1 h.1, h.2⟩
      exact (fit?_mul_two_pow_eq_none hfar (toInt_ne_zero hzero) hminus).symm
    · next hnear =>
      have hs : s < 64 := by omega
      simp only [host.left_eq x s hs, host.right_eq _ s hs, shift_back_iff hs]
      split
      · next hproduct => exact (fit?_of_toInt hproduct).symm
      · next hlost =>
        -- A word with the value of the product would be what has come out.
        cases hfit : fit? (x.toInt * 2 ^ s) with
        | none => rfl
        | some w =>
          have hw := fit?_eq_some_iff.1 hfit
          have hwlow := w.le_toInt
          have hwhigh := w.toInt_lt
          rw [toInt_shiftLeft hs, ← hw, Int.bmod_eq_of_le (by omega) (by omega)] at hlost
          exact absurd rfl hlost

lemma shiftLeft?_minus_one : shiftLeft? host (-1) 63 = none := rfl

/-! ## Right shifts -/

/-- From 64 places on there is nothing left of a word but its sign. -/
lemma ediv_two_pow_of_le (x : Int64) (hs : 64 ≤ s) :
    x.toInt / 2 ^ s = if x < 0 then -1 else 0 := by
  have hpow : (2 : Int) ^ 64 ≤ 2 ^ s := pow_le_pow_right₀ (by decide) hs
  have hlow := x.le_toInt
  have hhigh := x.toInt_lt
  have hsign : x < 0 ↔ x.toInt < 0 := Int64.lt_iff_toInt_lt
  split
  · next hneg => exact Int.ediv_eq_neg_one_of_neg_of_le (hsign.1 hneg) (by omega)
  · next hneg =>
    rw [hsign] at hneg
    exact Int.ediv_eq_zero_of_lt (by omega) (by omega)

/-- The right shift divides and rounds down, on every host. -/
lemma toInt_shiftRight_eq (x : Int64) (s : Nat) :
    (shiftRight host x s).toInt = x.toInt.fdiv (2 ^ s) := by
  rw [Int.fdiv_eq_ediv_of_nonneg _ (by positivity)]
  unfold shiftRight
  split
  · next hfar =>
    rw [ediv_two_pow_of_le x hfar]
    split <;> rfl
  · next hnear =>
    rw [host.right_eq x s (by omega), toInt_shiftRight (by omega)]

/-- Hosts agree, since none is asked for a shift by 64 places or more. -/
lemma shifts_host (host host' : WordShifts) (x : Int64) (s : Nat) :
    shiftLeft? host x s = shiftLeft? host' x s ∧ shiftRight host x s = shiftRight host' x s := by
  constructor
  · by_cases hleast : x = -1 ∧ s = 63
    · obtain ⟨rfl, rfl⟩ := hleast
      rw [shiftLeft?_minus_one, shiftLeft?_minus_one]
    · rw [shiftLeft?_eq hleast, shiftLeft?_eq hleast]
  · rw [← Int64.toInt_inj, toInt_shiftRight_eq, toInt_shiftRight_eq]

end Integer

/-! ## Shifts of values -/

namespace Value

open Integer

variable {a b : Value} {x y : Int64}

lemma shift_of_ints (op : BinaryOp) (f : Int64 → Nat → Except Cause Value)
    (ha : a.number? = some (.int x)) (hb : b.number? = some (.int y)) :
    shift op f a b = if y.toInt < 0 then .error .negativeShift else f x y.toInt.toNat := by
  simp only [shift, ha, hb]

/-- **Shifts are exact.**  Of integers, and of truth values as integers, a left shift is what it is
in the integers, and overflows if no word has this value; the one exception is `-1` by 63 places,
which overflows too.  A right shift is the quotient by the power of two, rounded down.  Shifts by a
negative number of places are refused, and how a host shifts words by 64 places or more makes no
difference. -/
theorem shifts_exact_but_minus_one_by_63 (ha : a.number? = some (.int x))
    (hb : b.number? = some (.int y)) :
    (y.toInt < 0 → (binary .shiftLeft a b).Refuses .valueError ∧
      (binary .shiftRight a b).Refuses .valueError) ∧
    (0 ≤ y.toInt →
      (¬(x = -1 ∧ y = 63) → (binary .shiftLeft a b).Computes (x.toInt * 2 ^ y.toInt.toNat)) ∧
      (x = -1 ∧ y = 63 → (binary .shiftLeft a b).Refuses .overflowError) ∧
      ∃ w : Int64, w.toInt = x.toInt.fdiv (2 ^ y.toInt.toNat) ∧
        (binary .shiftRight a b).Answers (.int w)) ∧
    ∀ (host : WordShifts) (s : Nat), shiftLeft? host x s = shiftLeft? .masking x s ∧
      shiftRight host x s = shiftRight .masking x s := by
  refine ⟨fun hneg => ?_, fun hnonneg => ?_, fun host s => shifts_host host .masking x s⟩
  · simp only [binary, shift_of_ints _ _ ha hb, if_pos hneg]
    exact ⟨fun h => ⟨_, rfl, rfl⟩, fun h => ⟨_, rfl, rfl⟩⟩
  · simp only [binary, shift_of_ints _ _ ha hb, if_neg (not_lt.2 hnonneg)]
    refine ⟨fun hleast => ?_, ?_, ⟨_, toInt_shiftRight_eq x _, fun h => rfl⟩⟩
    · have hplaces : ¬(x = -1 ∧ y.toInt.toNat = 63) := by
        rintro ⟨hx, hy⟩
        exact hleast ⟨hx, Int64.toInt_inj.1 (show y.toInt = 63 by omega)⟩
      rw [shiftLeft?_eq hplaces]
      exact HeapM.computes_fitting "<<" _
    · rintro ⟨rfl, rfl⟩
      exact fun h => ⟨_, rfl, rfl⟩

/-- The least word is `-2` shifted by 62 places, and only its sign is left when it is shifted back
by 64 places. -/
theorem least_word_by_shifting :
    (binary .shiftLeft (.int (-2)) (.int 62)).Answers (.int Int64.minValue) ∧
      (binary .shiftRight (.int Int64.minValue) (.int 64)).Answers (.int (-1)) := by
  obtain ⟨-, hleft, -⟩ :=
    shifts_exact_but_minus_one_by_63 (a := .int (-2)) (b := .int 62) rfl rfl
  obtain ⟨-, hright, -⟩ :=
    shifts_exact_but_minus_one_by_63 (a := .int Int64.minValue) (b := .int 64) rfl rfl
  obtain ⟨w, hw, hshifted⟩ := ((hleft (by decide)).1 (by decide)).1 (by decide)
  obtain ⟨v, hv, hback⟩ := (hright (by decide)).2.2
  obtain rfl : w = Int64.minValue := Int64.toInt_inj.1 (hw.trans (by decide))
  obtain rfl : v = -1 := Int64.toInt_inj.1 (hv.trans (by decide))
  exact ⟨hshifted, hback⟩

/-- The least word is also `-1` shifted by 63 places, but this overflows. -/
theorem minus_one_by_63_refused :
    (binary .shiftLeft (.int (-1)) (.int 63)).Refuses .overflowError ∧
      ¬(binary .shiftLeft (.int (-1)) (.int 63)).Computes
        ((-1 : Int64).toInt * 2 ^ (63 : Int64).toInt.toNat) := by
  refine ⟨fun h => ⟨_, rfl, rfl⟩, fun hcomputes => ?_⟩
  obtain ⟨w, -, hanswers⟩ := hcomputes.1 (by decide)
  cases hanswers .empty

end Value

end StackMachine
