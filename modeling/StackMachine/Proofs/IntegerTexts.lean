import Mathlib.Data.List.TakeWhile
import StackMachine.Object.Builtins
import StackMachine.Proofs.ListIndices
import StackMachine.Proofs.PlainData
/-!
# Reading integers

A text denotes an integer if, apart from white space around it, it is a decimal numeral: an optional
sign and one or more digits (`Integer.Numeral`).  Numerals are as long as one likes, with as many
zeros in front as one likes, and denote numbers that need not fit a word.

The builtin function `int` reads exactly the texts that denote numbers which fit, and gives these
numbers.  In particular it undoes `str` and `repr`, with the least word among the others, whose
digits alone denote no word.  The main statement is `int_reads_numerals`.
-/

namespace StackMachine

/-! ## White space -/

namespace Text

variable {before core after cs : List Char}

/-- There is nothing but white space. -/
def AllBlank (cs : List Char) : Prop := ∀ c ∈ cs, isBlank c = true

lemma trimEnd_append (hafter : AllBlank after) (hcore : ∀ c ∈ core, isBlank c = false) :
    trimEnd (core ++ after) = core := by
  have hreversed : ∀ c ∈ after.reverse, isBlank c = true := fun c hc =>
    hafter c (List.mem_reverse.1 hc)
  have hkept : core.reverse.dropWhile isBlank = core.reverse := by
    cases hcs : core.reverse with
    | nil => rfl
    | cons c cs =>
      have hc : c ∈ core := List.mem_reverse.1 (hcs ▸ List.mem_cons_self)
      exact List.dropWhile_cons_of_neg (by simp [hcore c hc])
  rw [trimEnd, List.reverse_append, List.dropWhile_append_of_pos hreversed, hkept,
    List.reverse_reverse]

/-- A core without white space is what remains when the white space around it is removed. -/
lemma trim_append (hbefore : AllBlank before) (hafter : AllBlank after)
    (hcore : ∀ c ∈ core, isBlank c = false) : trim (before ++ core ++ after) = core := by
  rw [trim, List.append_assoc, List.dropWhile_append_of_pos hbefore]
  cases core with
  | nil =>
    rw [List.nil_append, List.dropWhile_eq_nil_iff.2 hafter]
    rfl
  | cons c cs =>
    rw [List.cons_append, List.dropWhile_cons_of_neg (by simp [hcore c])]
    exact trimEnd_append hafter hcore

/-- What is removed from a text stands around what remains of it, and is white space. -/
lemma exists_around (cs : List Char) :
    ∃ before after, cs = before ++ trim cs ++ after ∧ AllBlank before ∧ AllBlank after := by
  let rest := cs.dropWhile isBlank
  refine ⟨cs.takeWhile isBlank, (rest.reverse.takeWhile isBlank).reverse, ?_, ?_, ?_⟩
  · have hend : trimEnd rest ++ (rest.reverse.takeWhile isBlank).reverse = rest := by
      rw [trimEnd, ← List.reverse_append, List.takeWhile_append_dropWhile, List.reverse_reverse]
    rw [List.append_assoc, trim, hend, List.takeWhile_append_dropWhile]
  · exact fun c hc => List.mem_takeWhile_imp hc
  · exact fun c hc => List.mem_takeWhile_imp (List.mem_reverse.1 hc)

end Text

/-! ## Numerals -/

namespace Integer

variable {cs : List Char} {m : Int} {n : Int64} {k acc : Nat}

/-- One or more decimal digits, and the number that they denote. -/
structure Digits (cs : List Char) (k : Nat) : Prop where
  ne_nil : cs ≠ []
  isDigit : ∀ c ∈ cs, c.isDigit = true
  value : Nat.ofDigitChars 10 cs 0 = k

/-- **Decimal numerals**, and the integers that they denote. -/
inductive Numeral : List Char → Int → Prop
  | unsigned {cs : List Char} {k : Nat} (hdigits : Digits cs k) : Numeral cs k
  | positive {cs : List Char} {k : Nat} (hdigits : Digits cs k) : Numeral ('+' :: cs) k
  | negative {cs : List Char} {k : Nat} (hdigits : Digits cs k) : Numeral ('-' :: cs) (-k)

/-- A text denotes the integer of the numeral that it consists of, apart from white space. -/
def DenotedBy (s : String) (m : Int) : Prop :=
  ∃ before core after, s.toList = before ++ core ++ after ∧ Text.AllBlank before ∧
    Text.AllBlank after ∧ Numeral core m

/-! ### Reading -/

lemma readDigits_eq_some_iff : readDigits acc cs = some k ↔
    (∀ c ∈ cs, c.isDigit = true) ∧ Nat.ofDigitChars 10 cs acc = k := by
  induction cs generalizing acc with
  | nil => simp [readDigits]
  | cons c cs ih =>
    rw [readDigits, List.forall_mem_cons, Nat.ofDigitChars_cons, and_assoc]
    split
    · next hc => rw [ih, Nat.mul_comm, and_iff_right hc]; rfl
    · next hc => exact iff_of_false nofun fun h => hc h.1

lemma readNat?_eq_some_iff : readNat? cs = some k ↔ Digits cs k := by
  cases cs with
  | nil => exact iff_of_false nofun fun h => h.ne_nil rfl
  | cons c cs =>
    rw [readNat?, readDigits_eq_some_iff]
    · exact ⟨fun h => ⟨List.cons_ne_nil c cs, h.1, h.2⟩, fun h => ⟨h.isDigit, h.value⟩⟩
    · nofun

/-- Digits are neither signs nor white space. -/
lemma notBlank_of_isDigit {c : Char} (hc : c.isDigit = true) : Text.isBlank c = false := by
  have hrange : 48 ≤ c.toNat ∧ c.toNat ≤ 57 := Char.isDigit_iff_toNat.1 hc
  unfold Text.isBlank
  simp
  omega

lemma Digits.not_cons_sign {c : Char} (hc : c.isDigit = false) : ¬Digits (c :: cs) k := by
  intro h
  have hdigit := h.isDigit c List.mem_cons_self
  rw [hc] at hdigit
  cases hdigit

/-- There is no white space in a numeral. -/
lemma Numeral.notBlank (hcs : Numeral cs m) : ∀ c ∈ cs, Text.isBlank c = false := by
  cases hcs with
  | unsigned h => exact fun c hc => notBlank_of_isDigit (h.isDigit c hc)
  | positive h =>
    exact List.forall_mem_cons.2 ⟨rfl, fun c hc => notBlank_of_isDigit (h.isDigit c hc)⟩
  | negative h =>
    exact List.forall_mem_cons.2 ⟨rfl, fun c hc => notBlank_of_isDigit (h.isDigit c hc)⟩

/-- A word is read exactly from the numerals that denote it. -/
lemma read?_eq_some_iff : read? cs = some n ↔ Numeral cs n.toInt := by
  unfold read?
  split
  · next cs =>
    simp only [Option.bind_eq_some_iff, readNat?_eq_some_iff, fit?_eq_some_iff]
    constructor
    · rintro ⟨k, hk, hn⟩
      exact hn ▸ .negative hk
    · generalize n.toInt = m
      rintro (h | h | h)
      · exact absurd h (Digits.not_cons_sign rfl)
      · exact ⟨_, h, rfl⟩
  · next cs =>
    simp only [Option.bind_eq_some_iff, readNat?_eq_some_iff, fit?_eq_some_iff]
    constructor
    · rintro ⟨k, hk, hn⟩
      exact hn ▸ .positive hk
    · generalize n.toInt = m
      rintro (h | h | h)
      · exact absurd h (Digits.not_cons_sign rfl)
      · exact ⟨_, h, rfl⟩
  · next hminus hplus =>
    simp only [Option.bind_eq_some_iff, readNat?_eq_some_iff, fit?_eq_some_iff]
    constructor
    · rintro ⟨k, hk, hn⟩
      exact hn ▸ .unsigned hk
    · generalize n.toInt = m
      rintro (h | h | h)
      · exact ⟨_, h, rfl⟩
      · exact (hplus _ rfl).elim
      · exact (hminus _ rfl).elim

/-- The text of a word is a numeral that denotes it. -/
lemma numeral_text (n : Int64) : Numeral (text n).toList n.toInt := by
  have hdigits : ∀ k, Digits (Nat.toDigits 10 k) k := fun k =>
    ⟨Nat.toDigits_ne_nil, fun c => isDigit_of_mem,
      Nat.ofDigitChars_toDigits (by decide) (by decide)⟩
  rw [toList_text]
  split
  · have hnumeral := Numeral.unsigned (hdigits n.toInt.toNat)
    rwa [Int.toNat_of_nonneg ‹_›] at hnumeral
  · have hnumeral := Numeral.negative (hdigits (-n.toInt).toNat)
    rwa [Int.toNat_of_nonneg (by omega), Int.neg_neg] at hnumeral

end Integer

/-! ## The builtin function -/

namespace Builtin

open Integer

variable {s : String} {n : Int64}

lemma read?_trim_eq_some_iff : read? (Text.trim s.toList) = some n ↔ DenotedBy s n.toInt := by
  rw [read?_eq_some_iff]
  constructor
  · intro hcore
    obtain ⟨before, after, heq, hbefore, hafter⟩ := Text.exists_around s.toList
    exact ⟨before, _, after, heq, hbefore, hafter, hcore⟩
  · rintro ⟨before, core, after, heq, hbefore, hafter, hcore⟩
    rwa [heq, Text.trim_append hbefore hafter hcore.notBlank]

lemma int_of_denotedBy (hs : DenotedBy s n.toInt) (id : Nat) (h : Heap) :
    Builtin.int.call [.str id s] h = .ok { value := .int n } h := by
  simp [call, oneArgument, toInteger, read?_trim_eq_some_iff.2 hs]

lemma int_of_not_denotedBy (hs : ∀ n : Int64, ¬DenotedBy s n.toInt) (id : Nat) (h : Heap) :
    Builtin.int.call [.str id s] h = .error (.integerText s) h := by
  have hnone : read? (Text.trim s.toList) = none :=
    Option.eq_none_iff_forall_ne_some.2 fun n hn => hs n (read?_trim_eq_some_iff.1 hn)
  simp [call, oneArgument, toInteger, hnone]

/-- `str` and `repr` write the same of an integer: its text. -/
lemma text_of_int {b : Builtin} (hb : b ∈ [Builtin.str, .repr]) (n : Int64) (h : Heap) :
    b.call [.int n] h =
      .ok { value := .str h.nextId (text n) } { h with nextId := h.nextId + 1 } := by
  simp only [List.mem_cons, List.not_mem_nil, or_false] at hb
  obtain rfl | rfl := hb <;> rfl

end Builtin

open Integer Text in
/-- **Reading integers.**  What `str` and `repr` write of an integer `int` reads again, also with
white space around it.  And of all texts `int` reads exactly those that denote an integer which fits
a word, gives this integer, and refuses the others with a `ValueError`. -/
theorem int_reads_numerals :
    (∀ b ∈ [Builtin.str, .repr], ∀ (n : Int64) (h : Heap), ∃ id s h',
      b.call [.int n] h = .ok { value := .str id s } h' ∧
      ∀ before after, AllBlank before.toList → AllBlank after.toList → ∀ id',
        Builtin.int.call [.str id' (before ++ s ++ after)] h' = .ok { value := .int n } h') ∧
    ∀ (id : Nat) (s : String) (h : Heap),
      (∀ n : Int64,
        Builtin.int.call [.str id s] h = .ok { value := .int n } h ↔ DenotedBy s n.toInt) ∧
      ((Builtin.int.call [.str id s]).RefusedAt h .valueError ↔
        ¬∃ m : Int, -2 ^ 63 ≤ m ∧ m < 2 ^ 63 ∧ DenotedBy s m) := by
  refine ⟨fun b hb n h => ⟨_, _, _, Builtin.text_of_int hb n h, ?_⟩, fun id s h => ?_⟩
  · intro before after hbefore hafter id'
    refine Builtin.int_of_denotedBy ⟨_, _, _, ?_, hbefore, hafter, numeral_text n⟩ id' _
    rw [String.toList_append, String.toList_append]
  by_cases hs : ∃ n : Int64, DenotedBy s n.toInt
  · obtain ⟨n, hn⟩ := hs
    have hread := Builtin.int_of_denotedBy hn id h
    refine ⟨fun m => ⟨fun hm => ?_, fun hm => Builtin.int_of_denotedBy hm id h⟩, ?_⟩
    · rw [hread] at hm
      cases hm
      exact hn
    · exact iff_of_false (HeapM.not_refusedAt hread)
        (not_not.2 ⟨n.toInt, n.le_toInt, n.toInt_lt, hn⟩)
  · have hrefused := Builtin.int_of_not_denotedBy (not_exists.1 hs) id h
    refine ⟨fun m => iff_of_false ?_ (not_exists.1 hs m), iff_of_true ⟨_, hrefused, rfl⟩ ?_⟩
    · rw [hrefused]
      nofun
    · rintro ⟨m, hleast, hgreatest, hm⟩
      exact hs ⟨.ofInt m, by rwa [Int64.toInt_ofInt_of_le hleast hgreatest]⟩

/-- The least word is read again from between a tabulator and a no-break space. -/
theorem int_reads_least_word : ∃ id s h',
    Builtin.repr.call [.int Int64.minValue] .empty = .ok { value := .str id s } h' ∧
    Builtin.int.call [.str 7 ("\t" ++ s ++ "\u00a0")] h' =
      .ok { value := .int Int64.minValue } h' := by
  obtain ⟨id, s, h', hs, hread⟩ := int_reads_numerals.1 .repr (by decide) Int64.minValue .empty
  exact ⟨id, s, h', hs, hread "\t" "\u00a0" (by simp [Text.AllBlank]; decide)
    (by simp [Text.AllBlank]; decide) 7⟩

end StackMachine
