import StackMachine.Fatal
import StackMachine.Object.Heap
/-!
# Guest functions

Making a function checks once that its code unit has a local for every parameter, that there are not
more defaults than parameters, and that one cell was captured for each free variable. Calling it
binds the arguments: positional ones from the left, keyword ones by name, and the defaults belong to
the last parameters. What is left over goes to the variadic parameter, if there is one.
-/

namespace StackMachine

namespace Function

/-- How to make a function with an attribute table of its own, if nothing is wrong with its parts.
-/
def make (code : CodeObject) (defaults : List Value) (globals : Ref .table)
    (closure : List (Ref .cell)) : Except FatalError (Heap → Ref .function × Heap) :=
  match haccepted : defect? code.unit defaults.length closure.length with
  | some d => .error (.malformedCode 0 d)
  | none => .ok fun h =>
    let (attributes, h) := h.newTable .empty
    h.newFunction ⟨code.unit.name, code, defaults, globals, closure, attributes, haccepted⟩

/-- What making a function does to the heap: its attributes are a new table. -/
theorem make_ok {code : CodeObject} {defaults : List Value} {globals : Ref .table}
    {closure : List (Ref .cell)} {allocate : Heap → Ref .function × Heap}
    (hok : make code defaults globals closure = .ok allocate) (h : Heap) :
    ∃ f : Function, f.globals = globals ∧ f.attributes.index = h.tables.size ∧
      (allocate h).2 = { h with
        tables := h.tables.push .empty
        functions := h.functions.push f } := by
  unfold make at hok
  split at hok
  · cases hok
  · next haccepted =>
    cases hok
    exact ⟨⟨code.unit.name, code, defaults, globals, closure, ⟨h.tables.size⟩, haccepted⟩, rfl, rfl,
      rfl⟩

/-- The names of a function's parameters. -/
def params (f : Function) : List String := f.code.unit.params?.getD []

/-- What has been checked of a function. -/
structure Checked (f : Function) : Prop where
  defaults_le : f.defaults.length ≤ f.params.length
  variadic : f.code.unit.variadic → f.code.unit.variadicName? ≠ none
  closure_length : f.closure.length = f.code.unit.freeNames.length

theorem checked (f : Function) : f.Checked := by
  have h := f.accepted
  unfold defect? at h
  split at h
  · cases h
  · next ps hps =>
    have hparams : f.params = ps := by simp [params, hps]
    split at h
    · cases h
    · next hvariadic =>
      split at h
      · cases h
      · next hdefaults =>
        split at h
        · cases h
        · next hclosure =>
          exact ⟨hparams ▸ Nat.not_lt.1 hdefaults, fun hv hno => hvariadic ⟨hv, hno⟩,
            Decidable.not_not.1 hclosure⟩

/-! ## Binding arguments -/

/-- Parameters with the arguments that they have so far. -/
abbrev Slots := List (String × Option Value)

/-- Gives positional arguments to the parameters from the left. -/
def fillPositional : (params : List String) → (args : List Value) → Slots
  | [], _ => []
  | p :: ps, [] => (p, none) :: fillPositional ps []
  | p :: ps, v :: vs => (p, some v) :: fillPositional ps vs

/-- Gives a keyword argument to the parameter of that name. -/
def fillKeyword (function name : String) (v : Value) : Slots → Except Cause Slots
  | [] => .error (.unexpectedKeyword function name)
  | (p, slot) :: rest =>
    if p = name then
      match slot with
      | some _ => .error (.repeatedArgument function name)
      | none => .ok ((p, some v) :: rest)
    else (fillKeyword function name v rest).map ((p, slot) :: ·)

/-- Gives keyword arguments one after the other. -/
def fillKeywords (function : String) : List (String × Value) → Slots → Except Cause Slots
  | [], slots => .ok slots
  | (name, v) :: rest, slots =>
    match fillKeyword function name v slots with
    | .error c => .error c
    | .ok slots => fillKeywords function rest slots

/-- Gives the defaults to the parameters that have no argument; the first `required` parameters
have no default. -/
def fillDefaults : (required : Nat) → (defaults : List Value) → Slots → Slots
  | _, _, [] => []
  | required + 1, defaults, slot :: rest => slot :: fillDefaults required defaults rest
  | 0, [], slots => slots
  | 0, d :: ds, (p, slot) :: rest => (p, some (slot.getD d)) :: fillDefaults 0 ds rest

/-- The parameters that have no argument. -/
def missing (slots : Slots) : List String :=
  slots.filterMap fun (p, slot) => if slot.isNone then some p else none

/-- The arguments of a call by parameter. -/
def arrange (f : Function) (params : List String) (positional : List Value)
    (keywords : List (String × Value)) : Except Cause (List (String × Value)) :=
  if params.length < positional.length ∧ f.code.unit.variadicName? = none then
    .error (.tooManyPositional f.name params.length positional.length)
  else
    match fillKeywords f.name keywords (fillPositional params positional) with
    | .error c => .error c
    | .ok slots =>
      let slots := fillDefaults (params.length - f.defaults.length) f.defaults slots
      if (missing slots).isEmpty then
        .ok (slots.filterMap fun (p, slot) => slot.map fun v => (p, v))
      else .error (.missingArguments f.name (missing slots))

/-- The table of locals that a call starts with. -/
def startLocals (f : Function) (positional : List Value) (keywords : List (String × Value)) :
    HeapM (Ref .table) := do
  let params := f.code.unit.params?.getD []
  let bindings ← HeapM.ofExcept (f.arrange params positional keywords)
  let locals := Dictionary.ofList bindings
  match f.code.unit.variadicName? with
  | none => HeapM.make (Heap.newTable locals)
  | some name =>
    let rest ← HeapM.tuple (positional.drop params.length)
    HeapM.make (Heap.newTable (locals.insert name rest))

/-- A new cell for each cell variable, holding the local of that name if there is one. -/
def freshCells (locals : Ref .table) : List String → HeapM (List (Ref .cell))
  | [] => pure []
  | name :: rest => do
    let content := (← get).lookup? locals name
    let cell ← HeapM.make (Heap.newCell content)
    let cells ← freshCells locals rest
    pure (cell :: cells)

/-- The cell slots that a call starts with: new cells first, then the captured ones. -/
def startCells (f : Function) (locals : Ref .table) : HeapM (List (Ref .cell)) := do
  let cells ← freshCells locals f.code.unit.cellNames
  pure (cells ++ f.closure)

end Function

end StackMachine
