/-!
# Exception classes

The classes of guest exceptions form a shallow tree under `Exception`. Each knows its name, its
parent and its lineage, and a handler for a class catches exactly the classes that have it in their
lineage.
-/

namespace StackMachine

/-- A class of guest exceptions. -/
inductive ExceptionKind where
  | exception
  | nameError
  | unboundLocalError
  | typeError
  | argumentBindingError
  | valueError
  | zeroDivisionError
  | indexError
  | keyError
  | attributeError
  | overflowError
  | recursionError
  | runtimeError
  deriving DecidableEq, Repr, Inhabited

namespace ExceptionKind

/-- Every class, in the order in which the builtin table lists them. -/
def all : List ExceptionKind :=
  [exception, nameError, unboundLocalError, typeError, argumentBindingError, valueError,
    zeroDivisionError, indexError, keyError, attributeError, overflowError, recursionError,
    runtimeError]

/-- The name that guest code knows the class by. -/
def name : ExceptionKind → String
  | exception => "Exception"
  | nameError => "NameError"
  | unboundLocalError => "UnboundLocalError"
  | typeError => "TypeError"
  | argumentBindingError => "ArgumentBindingError"
  | valueError => "ValueError"
  | zeroDivisionError => "ZeroDivisionError"
  | indexError => "IndexError"
  | keyError => "KeyError"
  | attributeError => "AttributeError"
  | overflowError => "OverflowError"
  | recursionError => "RecursionError"
  | runtimeError => "RuntimeError"

/-- The class with the given name. -/
def ofName? (name : String) : Option ExceptionKind := all.find? fun k => k.name == name

/-- The class above; only the root has none. -/
def parent? : ExceptionKind → Option ExceptionKind
  | exception => none
  | unboundLocalError => some nameError
  | argumentBindingError => some typeError
  | recursionError => some runtimeError
  | _ => some exception

/-- The class and up to `n` classes above it, nearest first. -/
def lineageUpTo : Nat → ExceptionKind → List ExceptionKind
  | 0, k => [k]
  | n + 1, k => k :: match k.parent? with
    | some p => lineageUpTo n p
    | none => []

/-- The class and all classes above it. The tree has three levels. -/
def lineage (k : ExceptionKind) : List ExceptionKind := lineageUpTo 2 k

/-- Whether a handler for `other` catches exceptions of class `k`. -/
def inherits (k other : ExceptionKind) : Bool := k.lineage.contains other

end ExceptionKind

/-- One step of a fault's way through the frames: the code it left and the offset of the
instruction that was executing there. -/
structure TraceEntry where
  code : String
  offset : Nat
  deriving DecidableEq, Repr, Inhabited

end StackMachine
