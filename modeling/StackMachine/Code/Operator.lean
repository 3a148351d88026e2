/-!
# Operators

The three families of operators that instructions name, with the symbols that messages and listings
show. Comparisons are numbered, since one instruction carries the number of its comparison.
-/

namespace StackMachine

/-- Operators with one operand. -/
inductive UnaryOp where
  | positive | negative | not | invert
  deriving DecidableEq, Repr, Inhabited

namespace UnaryOp

def all : List UnaryOp := [positive, negative, not, invert]

def symbol : UnaryOp → String
  | positive => "+"
  | negative => "-"
  | not => "not"
  | invert => "~"

def ofSymbol? (s : String) : Option UnaryOp := all.find? fun op => op.symbol == s

end UnaryOp

/-- Operators with two operands, subscription among them. -/
inductive BinaryOp where
  | power | multiply | floorDivide | trueDivide | modulo | add | subtract | subscript
  | shiftLeft | shiftRight | and | xor | or
  deriving DecidableEq, Repr, Inhabited

namespace BinaryOp

def all : List BinaryOp :=
  [power, multiply, floorDivide, trueDivide, modulo, add, subtract, subscript, shiftLeft,
    shiftRight, and, xor, or]

def symbol : BinaryOp → String
  | power => "**"
  | multiply => "*"
  | floorDivide => "//"
  | trueDivide => "/"
  | modulo => "%"
  | add => "+"
  | subtract => "-"
  | subscript => "[]"
  | shiftLeft => "<<"
  | shiftRight => ">>"
  | and => "&"
  | xor => "^"
  | or => "|"

def ofSymbol? (s : String) : Option BinaryOp := all.find? fun op => op.symbol == s

end BinaryOp

/-- Comparisons, in the order of their selectors. -/
inductive CompareOp where
  | lt | le | eq | ne | gt | ge | isIn | notIn | is | isNot | exceptionMatch
  deriving DecidableEq, Repr, Inhabited

namespace CompareOp

def all : List CompareOp := [lt, le, eq, ne, gt, ge, isIn, notIn, is, isNot, exceptionMatch]

def symbol : CompareOp → String
  | lt => "<"
  | le => "<="
  | eq => "=="
  | ne => "!="
  | gt => ">"
  | ge => ">="
  | isIn => "in"
  | notIn => "not in"
  | is => "is"
  | isNot => "is not"
  | exceptionMatch => "exception match"

/-- The number by which an instruction selects the comparison. -/
def selector : CompareOp → Nat
  | lt => 0
  | le => 1
  | eq => 2
  | ne => 3
  | gt => 4
  | ge => 5
  | isIn => 6
  | notIn => 7
  | is => 8
  | isNot => 9
  | exceptionMatch => 10

def ofSelector? : Nat → Option CompareOp
  | 0 => some lt
  | 1 => some le
  | 2 => some eq
  | 3 => some ne
  | 4 => some gt
  | 5 => some ge
  | 6 => some isIn
  | 7 => some notIn
  | 8 => some is
  | 9 => some isNot
  | 10 => some exceptionMatch
  | _ => none

/-- Every comparison can be read back from its selector, and nothing else selects one. -/
theorem ofSelector?_eq_some_iff {n : Nat} {op : CompareOp} :
    ofSelector? n = some op ↔ n = op.selector := by
  constructor
  · intro h
    unfold ofSelector? at h
    split at h <;> cases h <;> rfl
  · rintro rfl
    cases op <;> rfl

def ofSymbol? (s : String) : Option CompareOp := all.find? fun op => op.symbol == s

end CompareOp

end StackMachine
