import StackMachine.Object.Heap
/-!
# Attributes

Reading an attribute of a function gives what was stored there or its name, an exception knows its
arguments and an exception class its name; a list, a map or a string gives one of its methods, bound
to it. Only functions can be written to.
-/

namespace StackMachine

namespace Value

/-- The arguments of an exception as a tuple: a tuple stands for itself, `None` for no arguments. -/
def arguments : Value → HeapM Value
  | .none => HeapM.tuple []
  | .tuple id items => pure (.tuple id items)
  | arg => HeapM.tuple [arg]

/-- The method of the given name on the type of a value. -/
def method? (v : Value) (name : String) : Option Method :=
  match v with
  | .list _ => Method.named? Method.ofLists name
  | .map _ => Method.named? Method.ofMaps name
  | .str .. => Method.named? Method.ofStrings name
  | _ => .none

/-- Reads an attribute. -/
def getAttribute (v : Value) (name : String) : HeapM Value := do
  match v with
  | .function r =>
    let h ← get
    let f := h.function r
    match h.lookup? f.attributes name with
    | some stored => pure stored
    | .none =>
      if name = "__name__" then HeapM.str f.name else throw (.noAttribute v.typeName name)
  | .exception _ kind arg =>
    if name = "args" then arg.arguments else throw (.noAttribute kind.name name)
  | .exceptionType kind =>
    if name = "__name__" then HeapM.str kind.name else throw (.noAttribute v.typeName name)
  | v =>
    match v.method? name with
    | some m =>
      let id ← HeapM.make Heap.fresh
      pure (.method id v m)
    | .none => throw (.noAttribute v.typeName name)

/-- Writes an attribute. -/
def setAttribute (v : Value) (name : String) (stored : Value) : HeapM Unit :=
  match v with
  | .function r => modify fun h => h.bindAttribute r name stored
  | v => throw (.noAttribute v.typeName name)

end Value

end StackMachine
