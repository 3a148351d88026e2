import StackMachine.Number.Double
/-!
# Decimal text of floats

Writing and reading guest floats. A float is written with the fewest decimal digits that read back
as it, always positionally; a whole number below `10^16` keeps one zero after the point, so that it
does not look like an integer. The search for the digits is exact: the magnitude `m * 2^q` is
compared, as whole numbers, with the two halfway points to its neighbours.

Reading takes an optional sign, digits with at most one point among or around them, and an optional
exponent, and rounds the exact value to the nearest float.
-/

namespace StackMachine.Double

/-! ## Shortest digits -/

/-- The decimal number `digits * 10 ^ exponent`. -/
structure Decimal where
  digits : Nat
  exponent : Int

/-- The power `10 ^ n`. -/
def tenTo (n : Nat) : Nat := Nat.pow 10 n

/-- A magnitude and the two ends of the interval that reads back as it, all as multiples of
`2 ^ exponent`. -/
structure Neighbourhood where
  low : Nat
  value : Nat
  high : Nat
  exponent : Int
  /-- Whether the ends themselves read back: they do when the significand is even. -/
  closed : Bool

/-- The interval of reals that are rounded to a finite number. Below a power of two the floats lie
twice as dense, so there the lower end is nearer. -/
def neighbourhood (x : Double) : Neighbourhood :=
  let ⟨m, q⟩ := x.scaled
  let below := if m = hiddenBit ∧ -1074 < q then 1 else 2
  ⟨4 * m - below, 4 * m, 4 * m + 2, q - 2, m % 2 = 0⟩

/-- The multiple of `10 ^ p` that lies in the neighbourhood, the nearer one to the value if there
are two and the greater one of an exact tie. Only the two multiples next to the value can do. -/
def Neighbourhood.multiple? (r : Neighbourhood) (p : Int) : Option Nat :=
  let (num, den) := timesPowerOfTwo 1 1 r.exponent
  let (num, den) := if 0 ≤ p then (num, den * tenTo p.toNat) else (num * tenTo (-p).toNat, den)
  let within (d : Nat) : Bool :=
    if r.closed then r.low * num ≤ d * den && d * den ≤ r.high * num
    else r.low * num < d * den && d * den < r.high * num
  let floor := r.value * num / den
  let up := within (floor + 1)
  if within floor then
    if up && den ≤ 2 * (r.value * num % den) then some (floor + 1) else some floor
  else if up then some (floor + 1) else none

/-- The first hit on the grids `10 ^ p`, `10 ^ (p - 1)`, …: the coarser the grid, the fewer the
digits. -/
def Neighbourhood.shortestFrom (r : Neighbourhood) (p : Int) : Nat → Decimal
  | 0 => ⟨0, 0⟩
  | fuel + 1 =>
    match r.multiple? p with
    | some d => ⟨d, p⟩
    | none => r.shortestFrom (p - 1) fuel

/-- The shortest decimal that reads back as the magnitude of a finite nonzero number.

The search starts on a grid that is certainly too coarse, since `m * 2^q < 2^(log2 m + q + 1)` and
`log10 2 < 0.30103`; seventeen digits always suffice. -/
def shortest (x : Double) : Decimal :=
  let ⟨m, q⟩ := x.scaled
  let top := ((m.log2 : Int) + q + 1) * 30103 / 100000 + 1
  x.neighbourhood.shortestFrom top 24

/-! ## Text -/

/-- Digits with a point before the last `places` of them, filled up with zeros in front. -/
def withPoint (digits : Nat) (places : Nat) : String :=
  let text := (toString digits).toList
  let text := List.replicate (places + 1 - text.length) '0' ++ text
  let whole := text.length - places
  String.ofList (text.take whole ++ '.' :: text.drop whole)

/-- A decimal written positionally. -/
def Decimal.text (d : Decimal) : String :=
  if 0 ≤ d.exponent then toString d.digits ++ String.ofList (List.replicate d.exponent.toNat '0')
  else withPoint d.digits (-d.exponent).toNat

/-- Whole numbers below this bound are written with one zero after the point. -/
def wholeBound : Nat := tenTo 16

/-- The text of a float. -/
def text (x : Double) : String :=
  if x.isNaN then "nan"
  else
    let sign := if x.negative then "-" else ""
    if x.isInfinite then sign ++ "inf"
    else if x.isWhole && x.truncate.natAbs < wholeBound then
      sign ++ toString x.truncate.natAbs ++ ".0"
    else sign ++ x.shortest.text

/-- A finite number with exactly one place after the point, an exact tie going to the even digit. -/
def onePlace (x : Double) : String :=
  let ⟨m, q⟩ := x.scaled
  let (num, den) := timesPowerOfTwo (m * 10) 1 q
  (if x.negative then "-" else "") ++ withPoint (roundHalfEven num den) 1

/-! ## Reading -/

/-- Splits the decimal digits off the front of a text. -/
def spanDigits (cs : List Char) : List Char × List Char := cs.span Char.isDigit

/-- The value of a run of decimal digits. -/
def digitsValue (ds : List Char) : Nat := ds.foldl (fun n c => n * 10 + (c.toNat - 48)) 0

/-- An optional exponent: nothing, or a letter e, an optional sign and at least one digit. -/
def readExponent? : List Char → Option Int
  | [] => some 0
  | c :: rest =>
    if c = 'e' ∨ c = 'E' then
      let (negative, ds) := match rest with
        | '-' :: ds => (true, ds)
        | '+' :: ds => (false, ds)
        | ds => (false, ds)
      if ds.isEmpty || !ds.all Char.isDigit then none
      else some (if negative then -(digitsValue ds : Int) else digitsValue ds)
    else none

/-- The float nearest to `digits * 10 ^ exponent`. Exponents far outside the range of the format
are decided without writing the power out. -/
def ofDecimal (negative : Bool) (digits : Nat) (exponent : Int) : Double :=
  if digits = 0 then zero negative
  else
    let size := (digits.log2 : Int) * 30103 / 100000 + exponent
    if 400 < size then infinity negative
    else if size < -400 then zero negative
    else if 0 ≤ exponent then ofRatio negative (digits * tenTo exponent.toNat) 1
    else ofRatio negative digits (tenTo (-exponent).toNat)

/-- Reads a float without its sign. -/
def readUnsigned? (negative : Bool) (cs : List Char) : Option Double :=
  let word := cs.map Char.toLower
  if word = "inf".toList ∨ word = "infinity".toList then some (infinity negative)
  else if word = "nan".toList then some (if negative then nan.neg else nan)
  else
    let (whole, rest) := spanDigits cs
    let (fraction, rest) := match rest with
      | '.' :: rest => spanDigits rest
      | rest => ([], rest)
    if whole.isEmpty && fraction.isEmpty then none
    else (readExponent? rest).map fun e =>
      ofDecimal negative (digitsValue (whole ++ fraction)) (e - fraction.length)

/-- Reads an optional sign and a float. -/
def read? : List Char → Option Double
  | '-' :: cs => readUnsigned? true cs
  | '+' :: cs => readUnsigned? false cs
  | cs => readUnsigned? false cs

end StackMachine.Double
