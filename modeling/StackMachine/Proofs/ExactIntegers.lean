import Mathlib.Algebra.Order.Ring.Abs
import Mathlib.Algebra.Order.Ring.Int
import Mathlib.Tactic.Linarith
import Mathlib.Tactic.Ring
import StackMachine.Object.Builtins
/-!
# Integers are exact

Integers are words, and what the operators make of them is what one computes with the integers
themselves, or an `OverflowError` if no word has that value.  For sums, differences, products,
opposites and absolute values this is how they are defined.  Division and powers go through steps of
their own.

* Floor division and the remainder are made from the quotient that is rounded towards zero and from
  the remainder that it leaves.  Each is adjusted by a test of signs, one of them of the dividend's
  and the other of the remainder's.  The tests agree, as a remainder that is not zero has the sign
  of the dividend (`signsDiffer_mod`), and what is adjusted stays a word.
* Powers are made by repeated squaring, and a power may be given up because of a product that is
  only on the way to it.  Then the power itself is no word (`powOnto?_eq`), since such a product
  divides it.  A square that no word has exceeds all of them strictly, so that no change of sign
  helps.

The main statements are `integer_arithmetic_exact` for all operators but the power, and
`power_exact_of_proper_base`.  Exponents from `exponentLimit` on are refused, which is wrong for the
bases `-1`, `0` and `1`, all of whose powers are words (`power_of_one_refused`).
-/

namespace StackMachine

namespace Integer

variable {x y q : Int64} {n m k : Int}

lemma fit?_of_toInt {w : Int64} (h : w.toInt = n) : fit? n = some w := fit?_eq_some_iff.2 h

lemma fit?_toInt (w : Int64) : fit? w.toInt = some w := fit?_of_toInt rfl

lemma abs?_eq (x : Int64) : abs? x = fit? |x.toInt| := by
  unfold abs? neg?
  split
  · next h => rw [abs_of_neg (Int64.lt_iff_toInt_lt.1 h)]
  · next h => rw [abs_of_nonneg (by simpa [Int64.lt_iff_toInt_lt] using h), fit?_toInt]

lemma abs_ofBool (b : Bool) : |(ofBool b).toInt| = (ofBool b).toInt := by cases b <;> rfl

/-! ## Division -/

lemma toInt_ne_zero (hy : y ≠ 0) : y.toInt ≠ 0 := fun h => hy (Int64.toInt_inj.1 h)

/-- The remainder that a quotient rounded towards zero leaves has the sign of the dividend. -/
lemma tmod_sign (n : Int) (m : Int) : (0 ≤ n → 0 ≤ n.tmod m) ∧ (n ≤ 0 → n.tmod m ≤ 0) := by
  refine ⟨Int.tmod_nonneg m, fun hn => ?_⟩
  have hneg := Int.tmod_nonneg m (Int.neg_nonneg_of_nonpos hn)
  rw [Int.neg_tmod] at hneg
  omega

lemma natAbs_tmod_lt (n : Int) (hm : m ≠ 0) : (n.tmod m).natAbs < m.natAbs := by
  rw [Int.natAbs_tmod]
  exact Nat.mod_lt _ (by omega)

lemma hasQuotient_iff : hasQuotient x y = true ↔ y ≠ 0 ∧ ¬(x = Int64.minValue ∧ y = -1) := by
  simp [hasQuotient, imp_iff_not_or]

/-- Where there is a quotient the division of words rounds it towards zero. -/
lemma toInt_div (h : hasQuotient x y = true) : (x / y).toInt = x.toInt.tdiv y.toInt := by
  obtain ⟨-, h⟩ := hasQuotient_iff.1 h
  by_cases hx : x = Int64.minValue
  · exact Int64.toInt_div_of_ne_right x y fun hy => h ⟨hx, hy⟩
  · exact Int64.toInt_div_of_ne_left x y hx

/-- The remainder is that of the words, also where it is not taken since there is no quotient. -/
lemma getD_remainder? (hy : y ≠ 0) : (remainder? x y).getD 0 = x % y := by
  unfold remainder?
  split
  · rfl
  · next h =>
    obtain ⟨rfl, rfl⟩ : x = Int64.minValue ∧ y = -1 := by
      by_contra hne
      exact h (hasQuotient_iff.2 ⟨hy, hne⟩)
    decide

lemma signsDiffer_iff : signsDiffer x y = true ↔ ¬(x.toInt < 0 ↔ y.toInt < 0) := by
  simp [signsDiffer, Int64.lt_iff_toInt_lt]

/-- A remainder that is not zero differs in sign from the divisor exactly if the dividend does. -/
lemma signsDiffer_mod (h : x % y ≠ 0) : signsDiffer (x % y) y = signsDiffer x y := by
  have hmod := Int64.toInt_mod x y
  have hne := toInt_ne_zero h
  obtain ⟨hpos, hneg⟩ := tmod_sign x.toInt y.toInt
  rw [Bool.eq_iff_iff, signsDiffer_iff, signsDiffer_iff]
  omega

/-! ### Adjusting -/

/-- Whether rounding towards zero differs from rounding towards minus infinity. -/
def adjusts (x y : Int64) : Bool := x % y != 0 && signsDiffer x y

lemma adjusts_iff : adjusts x y = true ↔ x % y ≠ 0 ∧ signsDiffer x y = true := by
  simp [adjusts]

/-- The tests by which the remainder and the quotient are adjusted agree. -/
lemma floorMod_eq (hy : y ≠ 0) : floorMod x y = if adjusts x y then x % y + y else x % y := by
  have htest : (x % y != 0 && signsDiffer (x % y) y) = adjusts x y := by
    by_cases h : x % y = 0
    · simp [adjusts, h]
    · rw [signsDiffer_mod h, adjusts]
  simp only [floorMod, getD_remainder? hy, htest]

lemma sum_fits (hlow : -2 ^ 63 ≤ x.toInt + y.toInt) (hhigh : x.toInt + y.toInt < 2 ^ 63) :
    add? x y = some (x + y) := by
  refine fit?_of_toInt ?_
  rw [Int64.toInt_add, Int.bmod_eq_of_le] <;> omega

lemma difference_fits (hlow : -2 ^ 63 ≤ x.toInt - y.toInt) (hhigh : x.toInt - y.toInt < 2 ^ 63) :
    sub? x y = some (x - y) := by
  refine fit?_of_toInt ?_
  rw [Int64.toInt_sub, Int.bmod_eq_of_le] <;> omega

/-- A remainder is moved towards zero when it is adjusted. -/
lemma adjusted_remainder_fits (h : adjusts x y = true) :
    add? (x % y) y = some (x % y + y) := by
  obtain ⟨hne, hsigns⟩ := adjusts_iff.1 h
  rw [← signsDiffer_mod hne, signsDiffer_iff] at hsigns
  have hlow := (x % y).le_toInt
  have hhigh := (x % y).toInt_lt
  have hylow := y.le_toInt
  have hyhigh := y.toInt_lt
  exact sum_fits (by omega) (by omega)

/-- Where there is a remainder the quotient has at most half the size of the dividend. -/
lemma adjusted_quotient_fits (hq : hasQuotient x y = true) (h : adjusts x y = true) :
    sub? (x / y) 1 = some (x / y - 1) := by
  obtain ⟨hne, -⟩ := adjusts_iff.1 h
  have hy := toInt_ne_zero (hasQuotient_iff.1 hq).1
  have hrem := toInt_ne_zero hne
  rw [Int64.toInt_mod] at hrem
  have hlow := x.le_toInt
  have hhigh := x.toInt_lt
  have hsize : (x.toInt.tdiv y.toInt).natAbs ≤ x.toInt.natAbs / 2 := by
    have hlt := natAbs_tmod_lt x.toInt hy
    rw [Int.natAbs_tdiv]
    exact Nat.div_le_div_left (by omega) (by decide)
  rw [← toInt_div hq] at hsize
  have hone : (1 : Int64).toInt = 1 := rfl
  exact difference_fits (by omega) (by omega)

/-- **The words on the way to a floor.**  Division takes the remainder of two words only if they
have one, and the remainder that is taken to be zero where they have none is zero.  What is adjusted
stays a word. -/
structure StepsFit (x y : Int64) : Prop where
  remainder : ∀ q, quotient? x y = some q → remainder? x y = some (x % y)
  noRemainder : remainder? x y = none → x.toInt.tmod y.toInt = 0
  quotientLess : ∀ q, quotient? x y = some q → x % y ≠ 0 → signsDiffer x y = true →
    sub? q 1 = some (q - 1)
  remainderMore : ∀ r, remainder? x y = some r → r ≠ 0 → signsDiffer r y = true →
    add? r y = some (r + y)

lemma stepsFit (hy : y ≠ 0) : StepsFit x y where
  remainder q hq := by
    unfold quotient? at hq
    split at hq
    · next h => exact if_pos h
    · cases hq
  noRemainder hr := by
    have hzero := getD_remainder? (x := x) hy
    rw [hr] at hzero
    rw [← Int64.toInt_mod, ← hzero]
    rfl
  quotientLess q hq hne hsigns := by
    unfold quotient? at hq
    split at hq
    · next h =>
      cases hq
      exact adjusted_quotient_fits h (adjusts_iff.2 ⟨hne, hsigns⟩)
    · cases hq
  remainderMore r hr hne hsigns := by
    obtain rfl : x % y = r := by rw [← getD_remainder? hy, hr]; rfl
    rw [signsDiffer_mod hne] at hsigns
    exact adjusted_remainder_fits (adjusts_iff.2 ⟨hne, hsigns⟩)

/-! ### Floors -/

/-- The remainder of a floor division in the integers. -/
lemma toInt_floorMod (hy : y ≠ 0) : (floorMod x y).toInt =
    if adjusts x y then x.toInt.tmod y.toInt + y.toInt else x.toInt.tmod y.toInt := by
  rw [floorMod_eq hy, ← Int64.toInt_mod]
  split
  · next h => exact fit?_eq_some_iff.1 (adjusted_remainder_fits h)
  · rfl

lemma sign_eq_of_lt_zero_iff (hn : n ≠ 0) (hm : m ≠ 0) (h : n < 0 ↔ m < 0) : n.sign = m.sign := by
  obtain hneg | hpos : n < 0 ∨ 0 < n := by omega
  · rw [Int.sign_eq_neg_one_of_neg hneg, Int.sign_eq_neg_one_of_neg (h.1 hneg)]
  · rw [Int.sign_eq_one_of_pos hpos, Int.sign_eq_one_of_pos (by omega)]

lemma floorMod_sign (hy : y ≠ 0) :
    floorMod x y = 0 ∨ (floorMod x y).toInt.sign = y.toInt.sign := by
  by_cases hzero : x % y = 0
  · exact .inl (by simp [floorMod_eq hy, adjusts, hzero])
  right
  have hne := toInt_ne_zero hzero
  have hlt := natAbs_tmod_lt x.toInt (toInt_ne_zero hy)
  have htest : adjusts x y = signsDiffer (x % y) y := by
    simp [adjusts, signsDiffer_mod hzero, hzero]
  rw [toInt_floorMod hy, ← Int64.toInt_mod, htest]
  rw [← Int64.toInt_mod] at hlt
  split
  · next h =>
    rw [signsDiffer_iff] at h
    exact sign_eq_of_lt_zero_iff (by omega) (toInt_ne_zero hy) (by omega)
  · next h =>
    rw [signsDiffer_iff, not_not] at h
    exact sign_eq_of_lt_zero_iff hne (toInt_ne_zero hy) h

lemma natAbs_floorMod_lt (hy : y ≠ 0) : (floorMod x y).toInt.natAbs < y.toInt.natAbs := by
  have hlt := natAbs_tmod_lt x.toInt (toInt_ne_zero hy)
  rw [toInt_floorMod hy]
  split
  · next h =>
    obtain ⟨hne, hsigns⟩ := adjusts_iff.1 h
    have hrem := toInt_ne_zero hne
    rw [← signsDiffer_mod hne, signsDiffer_iff] at hsigns
    rw [Int64.toInt_mod] at hrem hsigns
    omega
  · exact hlt

/-- Less the remainder, the dividend is a multiple of the divisor. -/
lemma dvd_sub_floorMod (hy : y ≠ 0) : y.toInt ∣ x.toInt - (floorMod x y).toInt := by
  have hdivision := Int.mul_tdiv_add_tmod x.toInt y.toInt
  rw [toInt_floorMod hy]
  split
  · exact ⟨x.toInt.tdiv y.toInt - 1, by linarith⟩
  · exact ⟨x.toInt.tdiv y.toInt, by linarith⟩

/-- Quotient and remainder belong together. -/
lemma exists_floorDiv? (h : hasQuotient x y = true) :
    ∃ q, floorDiv? x y = some q ∧ x.toInt = q.toInt * y.toInt + (floorMod x y).toInt := by
  have hdivision := Int.mul_tdiv_add_tmod x.toInt y.toInt
  rw [← toInt_div h] at hdivision
  have hfloor : floorDiv? x y = some (if adjusts x y then x / y - 1 else x / y) := by
    rw [floorDiv?, quotient?, if_pos h]
    rfl
  refine ⟨_, hfloor, ?_⟩
  rw [toInt_floorMod (hasQuotient_iff.1 h).1]
  split
  · next hadjusts =>
    have hless := fit?_eq_some_iff.1 (adjusted_quotient_fits h hadjusts)
    rw [hless, show (1 : Int64).toInt = 1 from rfl]
    linarith
  · linarith

/-- The least word has no quotient by `-1`. -/
lemma floorDiv?_minValue : floorDiv? Int64.minValue (-1) = none := by decide

/-! ## Powers -/

/-- What is too great to be a word stays so when it is multiplied. -/
lemma fit?_mul_eq_none (hn : fit? n = none) (hk : 0 < k) : fit? (n * k) = none := by
  rw [fit?_eq_none_iff] at hn ⊢
  obtain hn | hn := hn
  · left
    nlinarith
  · right
    nlinarith

/-- A square that is too great to be a word exceeds all words in size, since `2^63` is no square.
So no multiple of it is a word, of whatever sign. -/
lemma fit?_square_mul_eq_none (hn : fit? (n * n) = none) (hk : k ≠ 0) :
    fit? (n * n * k) = none := by
  have hroot : 3037000500 ≤ |n| := by
    by_contra hsmall
    have hsquare : n * n ≤ 3037000499 * 3037000499 := by
      rw [← abs_mul_abs_self n]
      exact mul_le_mul (by omega) (by omega) (abs_nonneg n) (by norm_num)
    have hnonneg := mul_self_nonneg n
    rw [fit?_eq_none_iff] at hn
    omega
  have hsquare : 9223372036854775808 < n * n := by
    rw [← abs_mul_abs_self n]
    nlinarith
  obtain hneg | hpos := lt_or_gt_of_ne hk
  · rw [fit?_eq_none_iff]
    left
    nlinarith
  · exact fit?_mul_eq_none hn hpos

/-- The bits of the exponent from the lowest on. -/
lemma mul_pow_eq (n m : Int) (e : Nat) :
    n * m ^ e = (if e % 2 = 1 then n * m else n) * (m * m) ^ (e / 2) := by
  have hpow : m ^ e = m ^ (e % 2) * (m * m) ^ (e / 2) := by
    rw [← pow_two, ← pow_mul, ← pow_add, Nat.mod_add_div]
  obtain heven | hodd := Nat.mod_two_eq_zero_or_one e
  · rw [hpow, heven, if_neg (by decide), pow_zero, one_mul]
  · rw [hpow, hodd, if_pos rfl, pow_one, mul_assoc]

/-- **Repeated squaring is exact.**  It gives up a product on the way only if the power is no word.
If the factor `acc` is zero then the base has to be zero too, since zero hides what the squares of
the base are. -/
lemma powOnto?_eq (acc base : Int64) {e : Nat} (he : e ≠ 0)
    (hzero : acc.toInt = 0 → base.toInt = 0) :
    powOnto? acc base e = fit? (acc.toInt * base.toInt ^ e) := by
  induction e using Nat.strong_induction_on generalizing acc base with
  | _ e ih =>
    rw [powOnto?]
    by_cases hone : e ≤ 1
    · obtain rfl : e = 1 := by omega
      rw [if_pos hone, pow_one, mul?]
    rw [if_neg hone, mul_pow_eq]
    have hhalf : e / 2 ≠ 0 := by omega
    -- The factor with the lowest bit of the exponent.
    have hfactor : (if e % 2 = 1 then mul? acc base else some acc) =
        fit? (if e % 2 = 1 then acc.toInt * base.toInt else acc.toInt) := by
      split
      · rfl
      · exact (fit?_toInt acc).symm
    rw [hfactor]
    generalize hn : (if e % 2 = 1 then acc.toInt * base.toInt else acc.toInt) = n
    have hnzero : n = 0 → base.toInt = 0 := by
      rintro rfl
      split at hn
      · exact (mul_eq_zero.1 hn).elim hzero id
      · exact hzero hn
    cases hacc : fit? n with
    | none =>
      have hbase : base.toInt ≠ 0 := by
        intro hbase
        have hn' : n = 0 ∨ n = acc.toInt := by
          rw [← hn, hbase]
          split <;> simp
        obtain rfl | rfl := hn'
        · cases hacc
        · rw [fit?_toInt] at hacc
          cases hacc
      exact (fit?_mul_eq_none hacc (pow_pos (mul_self_pos.2 hbase) _)).symm
    | some acc' =>
      obtain rfl := fit?_eq_some_iff.1 hacc
      rw [Option.bind_some]
      cases hsquare : mul? base base with
      | none =>
        obtain ⟨half, hsucc⟩ := Nat.exists_eq_succ_of_ne_zero hhalf
        have hbase : base.toInt ≠ 0 := by
          intro hbase
          rw [mul?, hbase] at hsquare
          cases hsquare
        have hrest : acc'.toInt * (base.toInt * base.toInt) ^ half ≠ 0 :=
          mul_ne_zero (fun h => hbase (hnzero h)) (pow_ne_zero _ (mul_ne_zero hbase hbase))
        rw [hsucc, pow_succ', mul_left_comm]
        exact (fit?_square_mul_eq_none hsquare hrest).symm
      | some square =>
        have hvalue := fit?_eq_some_iff.1 hsquare
        rw [← hvalue]
        exact ih (e / 2) (by omega) acc' square hhalf fun h => by rw [hvalue, hnzero h, mul_zero]

lemma pow?_eq {e : Nat} (he : e < exponentLimit) : pow? x e = fit? (x.toInt ^ e) := by
  rw [pow?, if_neg (by omega)]
  split
  · next h => rw [h, pow_zero]; rfl
  · next h =>
    rw [powOnto?_eq 1 x h (fun h => absurd h (by decide)), show (1 : Int64).toInt = 1 from rfl,
      one_mul]

lemma pow?_of_le {e : Nat} (he : exponentLimit ≤ e) : pow? x e = none := if_pos he

/-- A base other than `-1`, `0` and `1` has no powers that are words from `exponentLimit` on. -/
lemma fit?_pow_eq_none {e : Nat} (he : exponentLimit ≤ e) (hn : 1 < n.natAbs) :
    fit? (n ^ e) = none := by
  have hsize : 2 ^ 64 ≤ (n ^ e).natAbs := by
    rw [Int.natAbs_pow]
    calc 2 ^ 64 ≤ 2 ^ e := Nat.pow_le_pow_right (by decide) (le_trans (by decide) he)
      _ ≤ n.natAbs ^ e := Nat.pow_le_pow_left hn e
  rw [fit?_eq_none_iff]
  omega

end Integer

/-! ## Operators -/

namespace HeapM

/-- The program answers with the value, and leaves the heap as it is. -/
def Answers (p : HeapM Value) (v : Value) : Prop := ∀ h, p h = .ok v h

/-- The program is refused with an exception of the class, and leaves the heap as it is. -/
def Refuses (p : HeapM Value) (kind : ExceptionKind) : Prop :=
  ∀ h, ∃ c, p h = .error c h ∧ c.kind = kind

/-- **Exactness.**  The program answers with the integer `n` if a word has this value, and otherwise
it overflows. -/
def Computes (p : HeapM Value) (n : Int) : Prop :=
  (-2 ^ 63 ≤ n ∧ n < 2 ^ 63 → ∃ w : Int64, w.toInt = n ∧ p.Answers (.int w)) ∧
  (¬(-2 ^ 63 ≤ n ∧ n < 2 ^ 63) → p.Refuses .overflowError)

lemma computes_of_fit {p : HeapM Value} {n : Int}
    (hfit : ∀ w, Integer.fit? n = some w → p = ofExcept (.ok (.int w)))
    (hnone : Integer.fit? n = none →
      ∃ c : Cause, p = ofExcept (.error c) ∧ c.kind = .overflowError) :
    p.Computes n := by
  constructor
  · intro hfits
    obtain rfl := hfit (Int64.ofInt n) (if_pos hfits)
    exact ⟨_, Int64.toInt_ofInt_of_le hfits.1 hfits.2, fun h => rfl⟩
  · intro hfits
    obtain ⟨c, rfl, hkind⟩ := hnone (if_neg hfits)
    exact fun h => ⟨c, rfl, hkind⟩

lemma computes_fitting (operation : String) (n : Int) :
    (ofExcept (Value.fitting operation (Integer.fit? n))).Computes n :=
  computes_of_fit (fun w hw => by rw [hw]; rfl) fun hw => ⟨_, by rw [hw]; rfl, rfl⟩

end HeapM

namespace Value

open Integer

variable {a b : Value} {x y : Int64} {op : BinaryOp}

/-- The opposite of a value. -/
def negated (a : Value) : HeapM Value := do HeapM.ofExcept (a.unary (← get) .negative)

/-- The value of `abs`. -/
def absolute (a : Value) : HeapM Value := (·.value) <$> Builtin.abs.call [a]

/-- Whether an operator is one of arithmetic. -/
def isArithmetic : BinaryOp → Bool
  | .add | .subtract | .multiply | .power | .trueDivide | .floorDivide | .modulo => true
  | _ => false

/-- Truth values count as integers. -/
lemma binary_of_ints (hop : isArithmetic op = true) (ha : a.number? = some (.int x))
    (hb : b.number? = some (.int y)) : binary op a b = binary op (.int x) (.int y) := by
  cases a <;> cases ha <;> cases b <;> cases hb <;> cases op <;> first | rfl | cases hop

lemma negated_computes (ha : a.number? = some (.int x)) : (negated a).Computes (-x.toInt) := by
  have hfitting : negated a = HeapM.ofExcept (fitting "negation" (fit? (-x.toInt))) := by
    cases a <;> cases ha <;> rfl
  rw [hfitting]
  exact HeapM.computes_fitting "negation" (-x.toInt)

lemma absolute_eq (a : Value) : absolute a = HeapM.ofExcept (Builtin.absolute a) := by
  simp only [absolute, Builtin.call, Builtin.oneArgument, pure_bind]
  cases Builtin.absolute a <;> rfl

lemma absolute_computes (ha : a.number? = some (.int x)) : (absolute a).Computes |x.toInt| := by
  rw [absolute_eq]
  cases a <;> cases ha
  case int =>
    refine HeapM.computes_of_fit (fun w hw => ?_) fun hw => ⟨.absoluteOverflow, ?_, rfl⟩
    · rw [Builtin.absolute, abs?_eq, hw]
    · rw [Builtin.absolute, abs?_eq, hw]
  case bool b =>
    refine HeapM.computes_of_fit (fun w hw => ?_) fun hw => ?_
    · rw [abs_ofBool, fit?_toInt] at hw
      cases hw
      rfl
    · rw [abs_ofBool, fit?_toInt] at hw
      cases hw

/-- **Division is floor division.**  The remainder of integers is refused for the divisor zero only.
It is zero or has the sign of the divisor, is smaller than it, and differs from the dividend by a
multiple of it.  The quotient is the one that belongs to this remainder, and only that of the least
word by `-1` is no word. -/
structure DividesWithFloor (a b : Value) (x y : Int64) : Prop where
  byZero : y = 0 → (binary .floorDivide a b).Refuses .zeroDivisionError ∧
    (binary .modulo a b).Refuses .zeroDivisionError
  floor : y ≠ 0 → ∃ r : Int64, (binary .modulo a b).Answers (.int r) ∧
    (r = 0 ∨ r.toInt.sign = y.toInt.sign) ∧ r.toInt.natAbs < y.toInt.natAbs ∧
    y.toInt ∣ x.toInt - r.toInt ∧
    (x = Int64.minValue ∧ y = -1 → (binary .floorDivide a b).Refuses .overflowError) ∧
    (¬(x = Int64.minValue ∧ y = -1) → ∃ q : Int64, (binary .floorDivide a b).Answers (.int q) ∧
      x.toInt = q.toInt * y.toInt + r.toInt)

lemma dividesWithFloor (ha : a.number? = some (.int x)) (hb : b.number? = some (.int y)) :
    DividesWithFloor a b x y where
  byZero hy := by
    rw [binary_of_ints rfl ha hb, binary_of_ints rfl ha hb]
    subst hy
    exact ⟨fun h => ⟨_, rfl, rfl⟩, fun h => ⟨_, rfl, rfl⟩⟩
  floor hy := by
    rw [binary_of_ints rfl ha hb, binary_of_ints rfl ha hb]
    have hdivide : binary .floorDivide (.int x) (.int y) =
        HeapM.ofExcept (fitting "//" (floorDiv? x y)) := congrArg HeapM.ofExcept (if_neg hy)
    have hmodulo : binary .modulo (.int x) (.int y) =
        HeapM.ofExcept (.ok (.int (floorMod x y))) := congrArg HeapM.ofExcept (if_neg hy)
    rw [hdivide, hmodulo]
    refine ⟨floorMod x y, fun h => rfl, floorMod_sign hy, natAbs_floorMod_lt hy,
      dvd_sub_floorMod hy, ?_, ?_⟩
    · rintro ⟨rfl, rfl⟩
      rw [floorDiv?_minValue]
      exact fun h => ⟨_, rfl, rfl⟩
    · intro hne
      obtain ⟨q, hq, hsum⟩ := exists_floorDiv? (hasQuotient_iff.2 ⟨hy, hne⟩)
      exact ⟨q, by rw [hq]; exact fun h => rfl, hsum⟩

/-- **Integers are exact.**  Of integers, and of truth values as integers, sums, differences,
products, opposites and absolute values are what they are in the integers, and overflow if no word
has this value.  Division is floor division with the remainder that belongs to it, and no step on
the way leaves the words. -/
theorem integer_arithmetic_exact (ha : a.number? = some (.int x)) (hb : b.number? = some (.int y)) :
    (binary .add a b).Computes (x.toInt + y.toInt) ∧
    (binary .subtract a b).Computes (x.toInt - y.toInt) ∧
    (binary .multiply a b).Computes (x.toInt * y.toInt) ∧
    (negated a).Computes (-x.toInt) ∧
    (absolute a).Computes |x.toInt| ∧
    DividesWithFloor a b x y ∧ (y ≠ 0 → StepsFit x y) := by
  rw [binary_of_ints rfl ha hb, binary_of_ints rfl ha hb, binary_of_ints rfl ha hb]
  exact ⟨HeapM.computes_fitting "+" (x.toInt + y.toInt),
    HeapM.computes_fitting "-" (x.toInt - y.toInt), HeapM.computes_fitting "*" (x.toInt * y.toInt),
    negated_computes ha, absolute_computes ha, dividesWithFloor ha hb, stepsFit⟩

/-- The least word leaves no remainder when it is divided by `-1`, and has no quotient. -/
theorem least_word_by_minus_one :
    (binary .modulo (.int Int64.minValue) (.int (-1))).Answers (.int 0) ∧
      (binary .floorDivide (.int Int64.minValue) (.int (-1))).Refuses .overflowError := by
  obtain ⟨-, -, -, -, -, hfloor, -⟩ :=
    integer_arithmetic_exact (a := .int Int64.minValue) (b := .int (-1)) rfl rfl
  obtain ⟨r, hmodulo, -, hsmall, -, hleast, -⟩ := hfloor.floor (by decide)
  obtain rfl : r = 0 := by
    rw [show (-1 : Int64).toInt.natAbs = 1 from rfl] at hsmall
    exact Int64.toInt_inj.1 (Int.natAbs_eq_zero.1 (by omega))
  exact ⟨hmodulo, hleast ⟨rfl, rfl⟩⟩

/-! ## Powers of integers -/

lemma power_of_ints (ha : a.number? = some (.int x)) (hb : b.number? = some (.int y))
    (hy : 0 ≤ y.toInt) :
    binary .power a b = HeapM.ofExcept (fitting "**" (pow? x y.toInt.toNat)) := by
  rw [binary_of_ints rfl ha hb]
  exact congrArg HeapM.ofExcept (if_pos hy)

/-- **Powers are exact up to the limit of exponents.**  The power is what it is in the integers, and
overflows if no word has this value, for all exponents below the limit and, unless the base is `-1`,
`0` or `1`, for all others too.  From the limit on it overflows whatever the base is. -/
theorem power_exact_of_proper_base (ha : a.number? = some (.int x)) (hb : b.number? = some (.int y))
    (hy : 0 ≤ y.toInt) :
    (y.toInt.toNat < exponentLimit ∨ 1 < x.toInt.natAbs →
      (binary .power a b).Computes (x.toInt ^ y.toInt.toNat)) ∧
    (exponentLimit ≤ y.toInt.toNat → (binary .power a b).Refuses .overflowError) := by
  rw [power_of_ints ha hb hy]
  constructor
  · intro hproper
    have hpower : pow? x y.toInt.toNat = fit? (x.toInt ^ y.toInt.toNat) := by
      by_cases hlimit : y.toInt.toNat < exponentLimit
      · exact pow?_eq hlimit
      · have hbase := hproper.resolve_left hlimit
        rw [pow?_of_le (Nat.not_lt.1 hlimit), fit?_pow_eq_none (Nat.not_lt.1 hlimit) hbase]
    rw [hpower]
    exact HeapM.computes_fitting "**" _
  · intro hlimit
    rw [pow?_of_le hlimit]
    exact fun h => ⟨_, rfl, rfl⟩

/-- The least word is a power of `-2`, and no product on the way to it is given up. -/
theorem least_word_as_power :
    (binary .power (.int (-2)) (.int 63)).Answers (.int Int64.minValue) := by
  obtain ⟨hexact, -⟩ :=
    power_exact_of_proper_base (a := .int (-2)) (b := .int 63) rfl rfl (by decide)
  obtain ⟨w, hw, hanswers⟩ := (hexact (.inl (by decide))).1 (by decide)
  obtain rfl : w = Int64.minValue := Int64.toInt_inj.1 (hw.trans (by decide))
  exact hanswers

/-- One to the power of `2^32` overflows, although it is one. -/
theorem power_of_one_refused :
    (binary .power (.int 1) (.int 4294967296)).Refuses .overflowError ∧
      ¬(binary .power (.int 1) (.int 4294967296)).Computes
        ((1 : Int64).toInt ^ (4294967296 : Int64).toInt.toNat) := by
  have hrefused : binary .power (.int 1) (.int 4294967296) =
      HeapM.ofExcept (.error (.integerOverflow "**")) := by
    rw [power_of_ints rfl rfl (by decide), pow?_of_le (by decide)]
    rfl
  rw [hrefused, show (1 : Int64).toInt = 1 from rfl, one_pow]
  refine ⟨fun h => ⟨_, rfl, rfl⟩, fun hcomputes => ?_⟩
  obtain ⟨w, -, hanswers⟩ := hcomputes.1 (by decide)
  cases hanswers .empty

end Value

end StackMachine
