/-!
# Sizes

Bytes and items are counted in words without a sign. How long these are is up to the host; it must
have all the lengths that repetition makes, of which there is a longest one. A guest integer that is
to count something becomes a size first, and sizes are multiplied with a check.
-/

namespace StackMachine

/-- The longest sequence that repetition makes. -/
def repetitionLimit : Nat := 1 <<< 24

/-- The sizes that a host has: the numbers up to a greatest one, which is too great for a
repetition. -/
structure SizeWords where
  greatest : Nat
  limit_lt_greatest : repetitionLimit < greatest := by decide

namespace SizeWords

/-- Sizes of 64 bits. -/
def wide : SizeWords where
  greatest := 18446744073709551615

/-- The size that a number is, if it is one. -/
def size? (host : SizeWords) (n : Int) : Option Nat :=
  if 0 ≤ n ∧ n ≤ host.greatest then some n.toNat else none

/-- A product of sizes that is a size. -/
def mul? (host : SizeWords) (a b : Nat) : Option Nat := host.size? (a * b)

/-- How often something is to be repeated. A negative count means not at all, and a count that is no
size stands for the greatest one. -/
def times (host : SizeWords) (count : Int64) : Nat :=
  if count ≤ 0 then 0 else (host.size? count.toInt).getD host.greatest

/-- The length of a sequence that is repeated, if it may be made. A sequence without a length has
none afterwards either, however often it is repeated. -/
def repeatedLength? (host : SizeWords) (length times : Nat) : Option Nat :=
  if length = 0 then some 0
  else (host.mul? length times).filter fun total => decide (total ≤ repetitionLimit)

end SizeWords

end StackMachine
