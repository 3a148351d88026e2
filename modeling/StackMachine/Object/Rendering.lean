import StackMachine.Object.Address
/-!
# Text of values

A value has two texts: the plain one that printing shows, and the quoted one by which it appears
inside other values. They differ only for strings, which are quoted and escaped in the second, and
for exceptions, which show their class there and only their argument in the first.

A container is written out unless it is already open further up or `nestingLimit` containers are
open; then its brackets enclose an ellipsis. Exceptions are not containers and do not count: their
arguments were there before them, so a chain of exceptions is finite. `peel` takes such a chain off
at once, and what remains is a recursion on the number of containers that may still be opened.
-/

namespace StackMachine

namespace Value

/-- The classes of the exceptions around the innermost value, outermost first. -/
def peel : Value → List ExceptionKind × Value
  | .exception _ kind arg =>
    let (kinds, core) := arg.peel
    (kind :: kinds, core)
  | v => ([], v)

/-- The text of a value that is neither a container nor an exception. -/
def atomText (h : Heap) (quoted : Bool) : Value → String
  | .none => "None"
  | .bool b => if b then "True" else "False"
  | .int n => Integer.text n
  | .float x => x.text
  | .str _ s => if quoted then Text.Quoted.quote s else s
  | .iterator _ => "<iterator>"
  | .function r => "<function " ++ (h.function r).name ++ ">"
  | .builtin b => "<built-in function " ++ b.name ++ ">"
  | .method _ receiver m =>
    "<built-in method " ++ m.name ++ " of " ++ receiver.typeName ++ " object>"
  | .code object => "<code " ++ object.unit.name ++ ">"
  | .cell _ => "<cell>"
  | .exceptionType kind => "<class '" ++ kind.name ++ "'>"
  | .traceback _ entries => s!"<traceback of {entries.length} entries>"
  | .why w => "<why " ++ w.name ++ ">"
  | .tuple .. => "(...)"
  | .list _ => "[...]"
  | .map _ => "\x7b...\x7d"
  | .exception _ kind _ => kind.name

/-- The text of a value without the exceptions around it. `inside` writes the contents of a
container, given the addresses that are open then; without it no container may be opened. -/
def coreText (h : Heap) (room : Nat) (inside : Option (List Address → Value → String))
    (opened : List Address) (quoted : Bool) (v : Value) : String :=
  match v, inside with
  | .tuple id items, some write =>
    if opened.contains (.tuple id) then "(...)"
    else Const.tupleText (items.map (write (.tuple id :: opened)))
  | .list r, some write =>
    if opened.contains (.list r) then "[...]"
    else
      let texts := (h.list r).toList.map (write (.list r :: opened))
      "[" ++ String.intercalate ", " texts ++ "]"
  | .map r, some write =>
    if opened.contains (.map r) then "\x7b...\x7d"
    else
      let texts := (h.map r).entries.map fun (key, value) =>
        key.textWithin (room - 1) ++ ": " ++ write (.map r :: opened) value
      "\x7b" ++ String.intercalate ", " texts ++ "\x7d"
  | v, _ => atomText h quoted v

/-- The text of a value: an exception shows its argument, in parentheses behind its class when
quoted, and shows nothing for the argument `None`. -/
def dressedText (core : Value → String) (quoted : Bool) (v : Value) : String :=
  let (kinds, innermost) := v.peel
  let text :=
    match kinds, innermost with
    | _ :: _, .none => ""
    | _, w => core w
  if quoted then kinds.foldr (fun kind text => kind.name ++ "(" ++ text ++ ")") text else text

/-- The text of a value inside the containers `opened`, with room for `room` more. -/
def textWithin (h : Heap) : (room : Nat) → List Address → (quoted : Bool) → Value → String
  | 0, opened, quoted, v => dressedText (coreText h 0 .none opened quoted) quoted v
  | room + 1, opened, quoted, v =>
    dressedText
      (coreText h (room + 1) (some fun opened w => textWithin h room opened true w) opened quoted)
      quoted v

/-- The text by which a value appears inside other values. -/
def repr (h : Heap) (v : Value) : String := textWithin h nestingLimit [] true v

/-- The text that printing a value shows. -/
def display (h : Heap) (v : Value) : String := textWithin h nestingLimit [] false v

end Value

namespace Fault

/-- The value of a fault as text. -/
def message (h : Heap) (f : Fault) : String :=
  match f.value with
  | .none => ""
  | v => v.display h

/-- The lines of a trace, numbered from `n`. -/
def traceLines (n : Nat) : List TraceEntry → String
  | [] => ""
  | e :: rest => s!"\n    {n}: {e.code} @ {e.offset}" ++ traceLines (n + 1) rest

/-- A fault as an uncaught exception is reported: class, message and trace. -/
def report (h : Heap) (f : Fault) : String :=
  let message := f.message h
  let headline := f.kind.name ++ if message.isEmpty then "" else ": " ++ message
  let trace :=
    if f.trace.isEmpty then "" else "\n  trace (innermost first):" ++ traceLines 0 f.trace
  headline ++ trace

end Fault

end StackMachine
