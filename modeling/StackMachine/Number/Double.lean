/-!
# Guest floating-point numbers

A guest float is a 64-bit pattern in the binary64 format. Keeping the pattern, and not a number,
is what makes identity of floats decidable and lets a constant keep the sign of a zero and the
payload of a NaN through every table it passes.

Order, equality, truncation and remainder are exact statements about the pattern and are computed
on it with whole numbers. The four operations and the power are those of the binary64 format; only
the pattern of a NaN result has to be chosen by hand: a NaN operand, the first one if both are,
comes back quiet, and any other invalid operation gives the negative quiet NaN.
-/

namespace StackMachine

/-- A number in the binary64 format, as its bit pattern. -/
structure Double where
  bits : UInt64
  deriving DecidableEq, Inhabited

namespace Double

/-! ## Reading the pattern -/

/-- The sign bit. -/
def negative (x : Double) : Bool := x.bits >>> 63 == 1

/-- The pattern without its sign bit. -/
def magnitude (x : Double) : Nat := x.bits.toNat % (1 <<< 63)

/-- The magnitude of infinity; what lies above it is no number. -/
def infiniteMagnitude : Nat := 0x7FF0000000000000

def isNaN (x : Double) : Bool := infiniteMagnitude < x.magnitude

def isInfinite (x : Double) : Bool := x.magnitude == infiniteMagnitude

def isZero (x : Double) : Bool := x.magnitude == 0

/-- A finite magnitude is `significand * 2 ^ exponent`. -/
structure Scaled where
  significand : Nat
  exponent : Int

/-- The leading bit of a significand, `2 ^ 52`. The pattern leaves it out of every number but the
smallest ones, which do not have it. -/
def hiddenBit : Nat := 1 <<< 52

/-- The magnitude of a finite number as a whole multiple of a power of two. -/
def scaled (x : Double) : Scaled :=
  let field : Nat := x.magnitude >>> 52
  let fraction : Nat := x.magnitude % hiddenBit
  if field = 0 then ⟨fraction, -1074⟩ else ⟨fraction + hiddenBit, (field : Int) - 1075⟩

/-! ## Making patterns -/

/-- The pattern with the given sign and magnitude. -/
def ofMagnitude (negative : Bool) (magnitude : Nat) : Double :=
  ⟨UInt64.ofNat (if negative then (1 <<< 63) + magnitude else magnitude)⟩

def zero (negative : Bool) : Double := ofMagnitude negative 0

def infinity (negative : Bool) : Double := ofMagnitude negative infiniteMagnitude

/-- The NaN that text denotes. -/
def nan : Double := ofMagnitude false 0x7FF8000000000000

/-- The NaN that an invalid operation gives. -/
def invalid : Double := ofMagnitude true 0x7FF8000000000000

/-- The same NaN with its quiet bit set. -/
def quiet (x : Double) : Double := ⟨x.bits ||| 0x0008000000000000⟩

/-- The pattern of `m * 2 ^ q` for `q ≥ -1074` and `m` below `2 ^ 53`, where `m` has all of its
53 bits unless `q` is least. -/
def encode (negative : Bool) (m : Nat) (q : Int) : Double :=
  if m < hiddenBit then ofMagnitude negative m
  else if q > 971 then infinity negative
  else ofMagnitude negative (((q + 1075).toNat <<< 52) + (m - hiddenBit))

/-- The quotient of two naturals, rounded to the nearest whole number, a tie to the even one. -/
def roundHalfEven (num den : Nat) : Nat :=
  let floor := num / den
  let twice := 2 * (num % den)
  if den < twice ∨ (twice = den ∧ floor % 2 = 1) then floor + 1 else floor

/-- `n * 2 ^ e` as a quotient of naturals. -/
def timesPowerOfTwo (num den : Nat) (e : Int) : Nat × Nat :=
  if 0 ≤ e then (num <<< e.toNat, den) else (num, den <<< (-e).toNat)

/-- The number nearest to `num / den`, a tie going to the even significand. -/
def ofRatio (negative : Bool) (num den : Nat) : Double :=
  if num = 0 then zero negative
  else
    -- The ratio lies strictly between `2 ^ (e - 1)` and `2 ^ (e + 1)`.
    let e : Int := (num.log2 : Int) - (den.log2 : Int)
    let (high, wide) := timesPowerOfTwo num den (52 - e)
    let q : Int := max (if high < wide <<< 52 then e - 53 else e - 52) (-1074)
    let (n, d) := timesPowerOfTwo num den (-q)
    let m := roundHalfEven n d
    if m = 2 * hiddenBit then encode negative hiddenBit (q + 1) else encode negative m q

/-- The number nearest to a whole number. -/
def ofInt (n : Int) : Double := ofRatio (n < 0) n.natAbs 1

/-! ## Order -/

/-- A whole number that grows with the float: the magnitude with the sign of the float. Both
zeros have rank zero, and no number has the rank of another one. -/
def rank (x : Double) : Int := if x.negative then -(x.magnitude : Int) else x.magnitude

/-- Equality as numbers: the zeros are equal, and a NaN equals nothing. -/
def equal (x y : Double) : Bool := !x.isNaN && !y.isNaN && x.rank == y.rank

theorem equal_comm (x y : Double) : x.equal y = y.equal x := by
  simp [equal, BEq.comm, Bool.and_comm]

theorem equal_trans {x y z : Double} (hxy : x.equal y = true) (hyz : y.equal z = true) :
    x.equal z = true := by
  simp only [equal, Bool.and_eq_true, beq_iff_eq] at hxy hyz ⊢
  exact ⟨⟨hxy.1.1, hyz.1.2⟩, hxy.2.trans hyz.2⟩
/-- Order as numbers; a NaN is unordered. -/
def compare? (x y : Double) : Option Ordering :=
  if x.isNaN || y.isNaN then none else some (compare x.rank y.rank)

/-! ## Whole numbers -/

/-- The whole part of a finite number, towards zero. -/
def truncate (x : Double) : Int :=
  let ⟨m, q⟩ := x.scaled
  let size := if 0 ≤ q then m <<< q.toNat else m >>> (-q).toNat
  if x.negative then -(size : Int) else size

/-- Whether a finite number has no fractional part. -/
def isWhole (x : Double) : Bool :=
  let ⟨m, q⟩ := x.scaled
  0 ≤ q || m % (1 <<< (-q).toNat) == 0

/-! ## Operations -/

def neg (x : Double) : Double := ⟨x.bits ^^^ 0x8000000000000000⟩

def abs (x : Double) : Double := ⟨x.bits &&& 0x7FFFFFFFFFFFFFFF⟩

/-- A binary operation of the format, with the rules for NaN patterns. -/
def combine (f : Float → Float → Float) (x y : Double) : Double :=
  if x.isNaN then x.quiet
  else if y.isNaN then y.quiet
  else
    let r : Double := ⟨(f (Float.ofBits x.bits) (Float.ofBits y.bits)).toBits⟩
    if r.isNaN then invalid else r

def add : Double → Double → Double := combine (· + ·)

def sub : Double → Double → Double := combine (· - ·)

def mul : Double → Double → Double := combine (· * ·)

def div : Double → Double → Double := combine (· / ·)

/-- The number one. -/
def one : Double := ofInt 1

/-- Powers. Everything to the power zero and one to every power are one, NaN included. -/
def pow (x y : Double) : Double :=
  if y.isZero || x == one then one else combine Float.pow x y

/-- The greatest whole number that is not above `x`. -/
def floor (x : Double) : Double :=
  if x.isNaN then x.quiet else ⟨(Float.ofBits x.bits).floor.toBits⟩

/-- The number `m * 2 ^ q`, where the value is known to be one of the format. -/
def ofScaled (negative : Bool) (m : Nat) (q : Int) : Double :=
  let (n, d) := timesPowerOfTwo m 1 q
  ofRatio negative n d

/-- The exact remainder of the magnitudes, with the sign of the dividend. -/
def truncMod (x y : Double) : Double :=
  if x.isNaN then x.quiet
  else if y.isNaN then y.quiet
  else if x.isInfinite || y.isZero then invalid
  else if y.isInfinite then x
  else
    let ⟨m, q⟩ := x.scaled
    let ⟨n, r⟩ := y.scaled
    let least := min q r
    let rest := (m <<< (q - least).toNat) % (n <<< (r - least).toNat)
    ofScaled x.negative rest least

/-- The remainder with the sign of the divisor. -/
def floorMod (x y : Double) : Double :=
  let r := truncMod x y
  if !r.isNaN && !r.isZero && r.negative != y.negative then r.add y else r

end Double

end StackMachine
