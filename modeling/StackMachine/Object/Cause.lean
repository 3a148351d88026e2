import StackMachine.Object.Value
/-!
# Causes of guest faults

Everything that an operation can refuse, named by what is wrong and carrying what the message tells
about it. `kind` gives the class of the exception that guest code sees and `message` its text. A
missing key is special: its exception carries the key itself and not a text.
-/

namespace StackMachine

/-- Why an operation failed in a way that guest code can catch. Arguments called `type` are type
names. -/
inductive Cause where
  -- operators
  | unsupportedOperands (symbol left right : String)
  | unsupportedOperand (symbol type : String)
  | integerOverflow (operation : String)
  | integerDivisionByZero
  | divisionByZero
  | floatFloorDivisionByZero
  | floatModuloByZero
  | zeroToNegativePower
  | negativeShift
  | repetitionTooLong
  | unordered (symbol left right : String)
  | handlerNotClass
  -- containers
  | unhashable (type : String)
  | indexNotInteger (container type : String)
  | indexOutOfRange (what : String)
  | keyNotFound (key : Value)
  | notSubscriptable (type : String)
  | noItemAssignment (type : String)
  | notContainer (type : String)
  | textExpected (type : String)
  | notIterable (type : String)
  | notIterator (type : String)
  -- attributes, names and calls
  | noAttribute (type name : String)
  | nameNotDefined (name : String)
  | localNotAssigned (name : String)
  | freeNotAssigned (name : String)
  | notException (type : String)
  | nothingToReraise
  | notCallable (type : String)
  | noKeywordArguments (function : String)
  | tooManyPositional (function : String) (params given : Nat)
  | unexpectedKeyword (function name : String)
  | repeatedArgument (function name : String)
  | missingArguments (function : String) (names : List String)
  | recursionDepth (limit : Nat)
  -- builtin functions and methods
  | oneArgument (function : String) (given : Nat)
  | exactArguments (method : String) (count given : Nat)
  | argumentsBetween (method : String) (least most given : Nat)
  | rangeArguments (given : Nat)
  | rangeStepZero
  | notInteger (type : String)
  | noLength (type : String)
  | noAbsolute (type : String)
  | absoluteOverflow
  | integerOfNaN
  | integerOfHugeFloat
  | integerText (text : String)
  | integerOfType (type : String)
  | floatText (text : String)
  | floatOfType (type : String)
  | emptySequence (function : String)
  | popFromEmpty
  | popOutOfRange
  | notInList (text : String)
  | joinItem (place : Nat) (type : String)
  | emptySeparator
  | separatorNotText (type : String)

namespace Cause

/-- The class of the exception. -/
def kind : Cause → ExceptionKind
  | integerOverflow _ | repetitionTooLong | absoluteOverflow | integerOfHugeFloat =>
    .overflowError
  | integerDivisionByZero | divisionByZero | floatFloorDivisionByZero | floatModuloByZero
  | zeroToNegativePower => .zeroDivisionError
  | negativeShift | rangeStepZero | integerOfNaN | integerText _ | floatText _ | emptySequence _
  | notInList _ | emptySeparator => .valueError
  | indexOutOfRange _ | popFromEmpty | popOutOfRange => .indexError
  | keyNotFound _ => .keyError
  | noAttribute .. => .attributeError
  | nameNotDefined _ | freeNotAssigned _ => .nameError
  | localNotAssigned _ => .unboundLocalError
  | nothingToReraise => .runtimeError
  | recursionDepth _ => .recursionError
  | tooManyPositional .. | unexpectedKeyword .. | repeatedArgument .. | missingArguments .. =>
    .argumentBindingError
  | unsupportedOperands .. | unsupportedOperand .. | unordered .. | handlerNotClass
  | unhashable _ | indexNotInteger .. | notSubscriptable _ | noItemAssignment _ | notContainer _
  | textExpected _ | notIterable _ | notIterator _ | notException _ | notCallable _
  | noKeywordArguments _ | oneArgument .. | exactArguments .. | argumentsBetween ..
  | rangeArguments _ | notInteger _ | noLength _ | noAbsolute _ | integerOfType _ | floatOfType _
  | joinItem .. | separatorNotText _ => .typeError

/-- The ending of a counted noun. -/
def plural (n : Nat) : String := if n = 1 then "" else "s"

/-- The text of the exception; a missing key has none. -/
def message : Cause → String
  | unsupportedOperands symbol left right =>
    s!"unsupported operand type(s) for {symbol}: '{left}' and '{right}'"
  | unsupportedOperand symbol type => s!"bad operand type for unary {symbol}: '{type}'"
  | integerOverflow operation => s!"integer overflow in {operation}"
  | integerDivisionByZero => "integer division or modulo by zero"
  | divisionByZero => "division by zero"
  | floatFloorDivisionByZero => "float floor division by zero"
  | floatModuloByZero => "float modulo"
  | zeroToNegativePower => "0.0 cannot be raised to a negative power"
  | negativeShift => "negative shift count"
  | repetitionTooLong => "repeated sequence is too long"
  | unordered symbol left right =>
    s!"'{symbol}' not supported between instances of '{left}' and '{right}'"
  | handlerNotClass => "catching classes that do not inherit from Exception is not allowed"
  | unhashable type => s!"unhashable type: '{type}'"
  | indexNotInteger container type => s!"{container} indices must be integers, not {type}"
  | indexOutOfRange what => s!"{what} index out of range"
  | keyNotFound _ => ""
  | notSubscriptable type => s!"'{type}' object is not subscriptable"
  | noItemAssignment type => s!"'{type}' object does not support item assignment"
  | notContainer type => s!"argument of type '{type}' is not iterable"
  | textExpected type => s!"'in <string>' requires string as left operand, not {type}"
  | notIterable type => s!"'{type}' object is not iterable"
  | notIterator type => s!"'{type}' object is not an iterator"
  | noAttribute type name => s!"'{type}' object has no attribute '{name}'"
  | nameNotDefined name => s!"name '{name}' is not defined"
  | localNotAssigned name => s!"local variable '{name}' referenced before assignment"
  | freeNotAssigned name =>
    s!"free variable '{name}' referenced before assignment in enclosing scope"
  | notException type => s!"exceptions must derive from Exception, not {type}"
  | nothingToReraise => "no active exception to re-raise"
  | notCallable type => s!"'{type}' object is not callable"
  | noKeywordArguments function => s!"{function}() takes no keyword arguments"
  | tooManyPositional function params given =>
    s!"{function}() takes {params} positional argument{plural params} but {given} were given"
  | unexpectedKeyword function name =>
    s!"{function}() got an unexpected keyword argument '{name}'"
  | repeatedArgument function name => s!"{function}() got multiple values for argument '{name}'"
  | missingArguments function names =>
    let count := names.length
    let quoted := String.intercalate ", " (names.map fun n => "'" ++ n ++ "'")
    s!"{function}() missing {count} required positional argument{plural count}: {quoted}"
  | recursionDepth limit => s!"maximum recursion depth exceeded ({limit})"
  | oneArgument function given => s!"{function}() takes exactly one argument ({given} given)"
  | exactArguments method count given =>
    s!"{method}() takes exactly {count} argument{plural count} ({given} given)"
  | argumentsBetween method least most given =>
    s!"{method}() takes from {least} to {most} arguments ({given} given)"
  | rangeArguments given => s!"range() expected 1 to 3 arguments, got {given}"
  | rangeStepZero => "range() arg 3 must not be zero"
  | notInteger type => s!"'{type}' object cannot be interpreted as an integer"
  | noLength type => s!"object of type '{type}' has no len()"
  | noAbsolute type => s!"bad operand type for abs(): '{type}'"
  | absoluteOverflow => "integer overflow in abs()"
  | integerOfNaN => "cannot convert float NaN to integer"
  | integerOfHugeFloat => "cannot convert float to integer"
  | integerText text => s!"invalid literal for int() with base 10: '{text}'"
  | integerOfType type => s!"int() argument must be a string or a number, not '{type}'"
  | floatText text => s!"could not convert string to float: '{text}'"
  | floatOfType type => s!"float() argument must be a string or a number, not '{type}'"
  | emptySequence function => s!"{function}() arg is an empty sequence"
  | popFromEmpty => "pop from empty list"
  | popOutOfRange => "pop index out of range"
  | notInList text => s!"{text} is not in list"
  | joinItem place type => s!"sequence item {place}: expected str instance, {type} found"
  | emptySeparator => "empty separator"
  | separatorNotText type => s!"must be str or None, not {type}"

end Cause

/-- A guest exception on its way. -/
structure Fault where
  kind : ExceptionKind
  value : Value
  /-- The frames it has left, innermost first. -/
  trace : List TraceEntry
  deriving Inhabited

end StackMachine
