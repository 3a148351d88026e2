import StackMachine.Fatal
import StackMachine.Object.Cause
/-!
# The heap

One store for each kind of thing that can change: lists, maps, cursors, cells and tables of names.
Functions are kept here too, since they are compared as objects and own a table of attributes. A
store only ever grows, and a reference is the place in its store, so two objects of one kind are the
same exactly when their places are; objects of different kinds can never be mistaken for each other.

Operations on the heap are programs of `HeapM`: they may change the heap and may end in a `Cause`.
What was changed before an operation failed stays changed.
-/

namespace StackMachine

/-- What an iterator still has to give. -/
inductive Cursor where
  /-- The rest of a fixed sequence. -/
  | items (rest : List Value)
  /-- A place in a list that may still change. -/
  | list (source : Ref .list) (index : Nat)
  /-- A text, and how many of its bytes have been passed. -/
  | chars (text : String) (offset : Nat)
  /-- An arithmetic progression. -/
  | range (next stop step : Int64)

instance : Inhabited Cursor := ⟨.items []⟩

/-- A table of names. -/
abbrev Table := Dictionary String Value

/-- What is wrong with a code unit, defaults and cells that are to become a function. -/
def Function.defect? (unit : CodeUnit) (defaults cells : Nat) : Option Defect :=
  match unit.params? with
  | none => some (.tooManyParameters unit.name unit.paramCount.toNat unit.localNames.length)
  | some params =>
    if unit.variadic ∧ unit.variadicName? = none then some (.noVariadicSlot unit.name)
    else if params.length < defaults then
      some (.tooManyDefaults unit.name defaults params.length)
    else if cells ≠ unit.freeNames.length then
      some (.capturedCells unit.name cells unit.freeNames.length)
    else none

/-- A code unit bound to its defaults, to the globals it was defined in and to captured cells. -/
structure Function where
  name : String
  code : CodeObject
  /-- Defaults of the last parameters. -/
  defaults : List Value
  globals : Ref .table
  /-- One cell for each free variable of the code. -/
  closure : List (Ref .cell)
  /-- Attributes that guest code has stored. -/
  attributes : Ref .table
  /-- Nothing is wrong with the parts that it has been made of. -/
  accepted : Function.defect? code.unit defaults.length closure.length = none

instance : Inhabited Function := ⟨⟨"", default, [], default, [], default, rfl⟩⟩

/-- Everything that guest values refer to. -/
structure Heap where
  lists : Array (Array Value)
  maps : Array (Dictionary Key Value)
  cursors : Array Cursor
  cells : Array (Option Value)
  tables : Array Table
  functions : Array Function
  /-- The number of the next object that is kept in its value. -/
  nextId : Nat
  deriving Inhabited

/-- Programs on the heap that may fail with a cause. -/
abbrev HeapM := EStateM Cause Heap

namespace Heap

def empty : Heap := ⟨#[], #[], #[], #[], #[], #[], 0⟩

/-! ## Reading -/

/-- The items of a list. -/
def list (h : Heap) (r : Ref .list) : Array Value := h.lists[r.index]?.getD #[]

/-- The entries of a map. -/
def map (h : Heap) (r : Ref .map) : Dictionary Key Value := h.maps[r.index]?.getD .empty

def cursor (h : Heap) (r : Ref .cursor) : Cursor := h.cursors[r.index]?.getD default

/-- The content of a cell; an empty one has none. -/
def cell? (h : Heap) (r : Ref .cell) : Option Value := (h.cells[r.index]?).join

def table (h : Heap) (r : Ref .table) : Table := h.tables[r.index]?.getD .empty

/-- The function that a reference leads to. -/
def function? (h : Heap) (r : Ref .function) : Option Function := h.functions[r.index]?

def function (h : Heap) (r : Ref .function) : Function := (h.function? r).getD default

/-- The value bound to a name in a table. -/
def lookup? (h : Heap) (r : Ref .table) (name : String) : Option Value := (h.table r).get? name

/-! ## Changing -/

def modifyList (h : Heap) (r : Ref .list) (f : Array Value → Array Value) : Heap :=
  { h with lists := h.lists.modify r.index f }

def modifyMap (h : Heap) (r : Ref .map)
    (f : Dictionary Key Value → Dictionary Key Value) : Heap :=
  { h with maps := h.maps.modify r.index f }

def setCursor (h : Heap) (r : Ref .cursor) (c : Cursor) : Heap :=
  { h with cursors := h.cursors.setIfInBounds r.index c }

def setCell (h : Heap) (r : Ref .cell) (v : Value) : Heap :=
  { h with cells := h.cells.setIfInBounds r.index (some v) }

def modifyTable (h : Heap) (r : Ref .table) (f : Table → Table) : Heap :=
  { h with tables := h.tables.modify r.index f }

/-- Binds a name in a table. -/
def bind (h : Heap) (r : Ref .table) (name : String) (v : Value) : Heap :=
  h.modifyTable r fun t => t.insert name v

/-- Stores an attribute of a function. -/
def bindAttribute (h : Heap) (r : Ref .function) (name : String) (v : Value) : Heap :=
  match h.function? r with
  | some f => h.bind f.attributes name v
  | none => h

/-! ## Making -/

/-- A number for an object that is kept in its value. -/
def fresh (h : Heap) : Nat × Heap := (h.nextId, { h with nextId := h.nextId + 1 })

def newList (items : Array Value) (h : Heap) : Ref .list × Heap :=
  (⟨h.lists.size⟩, { h with lists := h.lists.push items })

def newMap (entries : Dictionary Key Value) (h : Heap) : Ref .map × Heap :=
  (⟨h.maps.size⟩, { h with maps := h.maps.push entries })

def newCursor (c : Cursor) (h : Heap) : Ref .cursor × Heap :=
  (⟨h.cursors.size⟩, { h with cursors := h.cursors.push c })

def newCell (content : Option Value) (h : Heap) : Ref .cell × Heap :=
  (⟨h.cells.size⟩, { h with cells := h.cells.push content })

def newTable (t : Table) (h : Heap) : Ref .table × Heap :=
  (⟨h.tables.size⟩, { h with tables := h.tables.push t })

def newFunction (f : Function) (h : Heap) : Ref .function × Heap :=
  (⟨h.functions.size⟩, { h with functions := h.functions.push f })

/-- A new string. -/
def newStr (text : String) (h : Heap) : Value × Heap :=
  let (id, h) := h.fresh
  (.str id text, h)

/-- A new tuple. -/
def newTuple (items : List Value) (h : Heap) : Value × Heap :=
  let (id, h) := h.fresh
  (.tuple id items, h)

/-- A new exception instance. -/
def newException (kind : ExceptionKind) (arg : Value) (h : Heap) : Value × Heap :=
  let (id, h) := h.fresh
  (.exception id kind arg, h)

/-- A new traceback. -/
def newTraceback (entries : List TraceEntry) (h : Heap) : Value × Heap :=
  let (id, h) := h.fresh
  (.traceback id entries, h)

/-! ## Faults -/

/-- The fault of a cause. Its value is the message, or the key that was not found. -/
def newFault (cause : Cause) (h : Heap) : Fault × Heap :=
  match cause with
  | .keyNotFound key => (⟨.keyError, key, []⟩, h)
  | cause =>
    let (message, h) := h.newStr cause.message
    (⟨cause.kind, message, []⟩, h)

end Heap

namespace HeapM

/-- Runs a heap function that makes something. -/
def make {α : Type} (f : Heap → α × Heap) : HeapM α := modifyGet f

def str (text : String) : HeapM Value := make (Heap.newStr text)

def tuple (items : List Value) : HeapM Value := make (Heap.newTuple items)

def list (items : Array Value) : HeapM Value := .list <$> make (Heap.newList items)

def map (entries : Dictionary Key Value) : HeapM Value := .map <$> make (Heap.newMap entries)

def iterator (c : Cursor) : HeapM Value := .iterator <$> make (Heap.newCursor c)

def exception (kind : ExceptionKind) (arg : Value) : HeapM Value :=
  make (Heap.newException kind arg)

/-- The result of a computation that does not touch the heap. -/
def ofExcept {α : Type} : Except Cause α → HeapM α
  | .ok x => pure x
  | .error c => throw c

end HeapM

namespace Value

/-- The truth of a value: zeros, empty sequences and maps and `None` are false. -/
def truthy (h : Heap) : Value → Bool
  | .none => false
  | .bool b => b
  | .int n => n != 0
  | .float x => !x.isZero
  | .str _ s => !s.isEmpty
  | .tuple _ items => !items.isEmpty
  | .list r => !(h.list r).isEmpty
  | .map r => !(h.map r).isEmpty
  | _ => true

/-! ## Constants as values -/

mutual

/-- The value of a constant found at the end of `path` in the unit tree of `origin`. Tuples and
strings are made anew each time, code objects are not. -/
def ofConst (origin : Nat) (path : List Nat) : Const → HeapM Value
  | .none => pure .none
  | .bool b => pure (.bool b)
  | .int n => pure (.int n)
  | .float x => pure (.float x)
  | .str s => HeapM.str s
  | .tuple items => do HeapM.tuple (← ofConsts origin path 0 items)
  | .code unit => pure (.code ⟨origin, path, unit⟩)

def ofConsts (origin : Nat) (path : List Nat) (place : Nat) : List Const → HeapM (List Value)
  | [] => pure []
  | c :: cs => do
    let v ← ofConst origin (place :: path) c
    let vs ← ofConsts origin path (place + 1) cs
    pure (v :: vs)

end

/-- The exception that raising a value starts, without its trace. -/
def raised : Value → Except Cause Fault
  | .exceptionType kind => .ok ⟨kind, .none, []⟩
  | .exception _ kind arg => .ok ⟨kind, arg, []⟩
  | v => .error (.notException v.typeName)

end Value

namespace Key

mutual

/-- The key that a value is. -/
def ofValue : Value → Except Cause Key
  | .none => .ok .none
  | .bool b => .ok (.bool b)
  | .int n => .ok (.int n)
  | .str id s => .ok (.str id s)
  | .tuple _ items => (ofValues items).map .tuple
  | v => .error (.unhashable v.typeName)

def ofValues : List Value → Except Cause (List Key)
  | [] => .ok []
  | v :: vs =>
    match ofValue v with
    | .error c => .error c
    | .ok k =>
      match ofValues vs with
      | .error c => .error c
      | .ok ks => .ok (k :: ks)

end

mutual

/-- The value of a key. Tuples are made anew. -/
def toValue : Key → HeapM Value
  | .none => pure .none
  | .bool b => pure (.bool b)
  | .int n => pure (.int n)
  | .str id s => pure (.str id s)
  | .tuple items => do HeapM.tuple (← toValues items)

def toValues : List Key → HeapM (List Value)
  | [] => pure []
  | k :: ks => do
    let v ← toValue k
    let vs ← toValues ks
    pure (v :: vs)

end

end Key

end StackMachine
