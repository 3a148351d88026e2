/-!
# Guest integers

Guest integers are 64-bit signed words, and no guest operation ever wraps one: a result either fits
a word or is refused. `fit?` decides that, and most operations are their mathematical definition
followed by `fit?`.

Division and remainder round towards minus infinity, and a remainder takes the sign of the divisor.
Both come from the division of words, which rounds towards zero, by adjusting what it gives. Powers
are made by squaring again and again, where every product has to fit. A left shift is one of words
whose bits all come back when it is undone, and a right shift is division by a power of two, rounded
towards minus infinity too.
-/

namespace StackMachine.Integer

/-- The word whose value is `n`, when `n` lies in `[-2^63, 2^63)`. -/
def fit? (n : Int) : Option Int64 :=
  if -9223372036854775808 ≤ n ∧ n < 9223372036854775808 then some (Int64.ofInt n) else none

/-- A word fits exactly the number that it is the value of. -/
theorem fit?_eq_some_iff {n : Int} {x : Int64} : fit? n = some x ↔ x.toInt = n := by
  have least := x.le_toInt
  have greatest := x.toInt_lt
  unfold fit?
  split
  case isTrue h =>
    rw [Option.some.injEq]
    constructor
    · rintro rfl
      exact Int64.toInt_ofInt_of_le h.1 h.2
    · rintro rfl
      exact Int64.ofInt_toInt x
  case isFalse h =>
    constructor
    · nofun
    · rintro rfl
      omega

/-- The numbers that fit no word are those outside `[-2^63, 2^63)`. -/
theorem fit?_eq_none_iff {n : Int} :
    fit? n = none ↔ n < -9223372036854775808 ∨ 9223372036854775808 ≤ n := by
  unfold fit?
  split <;> simp <;> omega

/-- A word that is `1` for true and `0` for false. -/
def ofBool (b : Bool) : Int64 := if b then 1 else 0

/-- A sum that fits a word. -/
def add? (x y : Int64) : Option Int64 := fit? (x.toInt + y.toInt)

/-- A difference that fits a word. -/
def sub? (x y : Int64) : Option Int64 := fit? (x.toInt - y.toInt)

/-- A product that fits a word. -/
def mul? (x y : Int64) : Option Int64 := fit? (x.toInt * y.toInt)

/-- An opposite that fits a word: every word has one but the least. -/
def neg? (x : Int64) : Option Int64 := fit? (-x.toInt)

/-- An absolute value that fits a word: every word has one but the least. -/
def abs? (x : Int64) : Option Int64 := if x < 0 then neg? x else some x

/-! ## Division -/

/-- Whether the quotient of two words is a word: not by zero, and not of the least word by `-1`. -/
def hasQuotient (x y : Int64) : Bool := y != 0 && !(x == Int64.minValue && y == -1)

/-- The quotient rounded towards zero, where there is one. -/
def quotient? (x y : Int64) : Option Int64 := if hasQuotient x y then some (x / y) else none

/-- The remainder that the quotient rounded towards zero leaves, where there is one. -/
def remainder? (x y : Int64) : Option Int64 := if hasQuotient x y then some (x % y) else none

/-- Whether one of two words is negative and the other one is not. -/
def signsDiffer (x y : Int64) : Bool := decide (x < 0) != decide (y < 0)

/-- The quotient rounded towards minus infinity, where there is one. If there is a remainder, words
of different signs have a quotient that has been rounded up, and has to be less by one. -/
def floorDiv? (x y : Int64) : Option Int64 :=
  (quotient? x y).map fun q => if x % y != 0 && signsDiffer x y then q - 1 else q

/-- The remainder that belongs to `floorDiv?`. The least word leaves none when it is divided by
`-1`, although there is no quotient. -/
def floorMod (x y : Int64) : Int64 :=
  let r := (remainder? x y).getD 0
  if r != 0 && signsDiffer r y then r + y else r

/-! ## Powers and shifts -/

/-- Exponents from here on are refused whatever the base is. -/
def exponentLimit : Nat := 4294967296

/-- The product `acc * base ^ exponent`, for an exponent that is not zero. The bits of the exponent
are taken from the lowest on, and the base is squared for each that is left. -/
def powOnto? (acc base : Int64) (exponent : Nat) : Option Int64 :=
  if exponent ≤ 1 then mul? acc base
  else
    (if exponent % 2 = 1 then mul? acc base else some acc).bind fun acc =>
      (mul? base base).bind fun square => powOnto? acc square (exponent / 2)
termination_by exponent

/-- A power that fits a word. -/
def pow? (x : Int64) (y : Nat) : Option Int64 :=
  if exponentLimit ≤ y then none
  else if y = 0 then some 1
  else powOnto? 1 x y

/-- The shifts of words that a host has. They are told for fewer places than a word has bits; what
becomes of a word that is shifted further is up to the host. -/
structure WordShifts where
  left : Int64 → Nat → Int64
  right : Int64 → Nat → Int64
  left_eq : ∀ x s, s < 64 → left x s = x <<< Int64.ofNat s := by intros; rfl
  right_eq : ∀ x s, s < 64 → right x s = x >>> Int64.ofNat s := by intros; rfl

/-- A host that takes the number of places modulo 64. -/
def WordShifts.masking : WordShifts where
  left x s := x <<< Int64.ofNat s
  right x s := x >>> Int64.ofNat s

/-- A left shift that loses no bits, which is seen by shifting back. Zero may be shifted by any
amount, any other word by less than 63 places. -/
def shiftLeft? (host : WordShifts) (x : Int64) (s : Nat) : Option Int64 :=
  if x = 0 then some 0
  else if 63 ≤ s then none
  else
    let shifted := host.left x s
    if host.right shifted s = x then some shifted else none

/-- The floor of `x / 2^s`. From 64 places on only the sign is left. -/
def shiftRight (host : WordShifts) (x : Int64) (s : Nat) : Int64 :=
  if 64 ≤ s then (if x < 0 then -1 else 0)
  else host.right x s

/-! ## Decimal text -/

/-- The decimal digits of a word, with a minus sign when it is negative. -/
def text (x : Int64) : String := toString x.toInt

/-- The value of a run of decimal digits read onto `acc`; anything else is refused. -/
def readDigits (acc : Nat) : List Char → Option Nat
  | [] => some acc
  | c :: rest => if c.isDigit then readDigits (acc * 10 + (c.toNat - 48)) rest else none

/-- The value of one or more decimal digits. -/
def readNat? : List Char → Option Nat
  | [] => none
  | cs => readDigits 0 cs

/-- Reads an optional sign and one or more decimal digits whose value fits a word. -/
def read? : List Char → Option Int64
  | '-' :: cs => (readNat? cs).bind fun n => fit? (-(n : Int))
  | '+' :: cs => (readNat? cs).bind fun n => fit? n
  | cs => (readNat? cs).bind fun n => fit? n

/-! ## Indices into a sequence -/

/-- The place that index `i` points at in a sequence of `n` items: a negative index counts from the
end. -/
def place (i : Int64) (n : Nat) : Int := if i < 0 then i.toInt + n else i.toInt

/-- The position that index `i` names in a sequence of `n` items, if its place is one of theirs. -/
def position? (i : Int64) (n : Nat) : Option Nat :=
  if 0 ≤ place i n ∧ place i n < n then some (place i n).toNat else none

/-- The position at which an insertion with index `i` happens in a sequence of `n` items: a place
outside is moved to the nearer end. -/
def insertPosition (i : Int64) (n : Nat) : Nat := min (place i n).toNat n

end StackMachine.Integer
