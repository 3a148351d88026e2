import StackMachine.Proofs.Confinement
import StackMachine.Run.Machine
/-!
# Programs on the heap

Operators, methods, builtin functions and cursors change lists, maps and cursors, and they make new
objects.  Functions and tables of names are out of their reach: the functions stay as they are, and
a table that is there keeps its names (`Heap.Widens`).  Two things only are done to tables and to
functions on purpose, and neither is a program of this kind: a name is bound (`Heap.bind`), and a
function is made (`Function.make`).

Many of them do not even change a list or a map: where keys are made values again, constants are
loaded and iterables are walked through, objects get their numbers and cursors are made and
advanced, and that is all (`Heap.Spares`).

A call makes a table for the locals of the callee.  `startLocals_ok` says that it is a new one.
-/

namespace StackMachine

/-- The functions are the same, and so is every table that was there; more tables may have been
made. -/
structure Heap.Widens (h h' : Heap) : Prop where
  functions : h'.functions = h.functions
  tables : ∃ more, h'.tables = h.tables ++ more

namespace Heap

variable {h h' h'' : Heap}

lemma Widens.of_eq (hfunctions : h'.functions = h.functions) (htables : h'.tables = h.tables) :
    h.Widens h' := ⟨hfunctions, #[], by simp [htables]⟩

lemma Widens.refl (h : Heap) : h.Widens h := .of_eq rfl rfl

lemma Widens.trans (hh : h.Widens h') (hh' : h'.Widens h'') : h.Widens h'' := by
  obtain ⟨more, hmore⟩ := hh.tables
  obtain ⟨more', hmore'⟩ := hh'.tables
  exact ⟨hh'.functions.trans hh.functions, more ++ more', by
    rw [hmore', hmore, Array.append_assoc]⟩

instance : IsPreorder Heap Widens where
  refl := Widens.refl
  trans _ _ _ := Widens.trans

/-- All stores are the same, cursors apart.  Objects may have been given numbers. -/
structure Spares (h h' : Heap) : Prop where
  lists : h'.lists = h.lists
  maps : h'.maps = h.maps
  cells : h'.cells = h.cells
  tables : h'.tables = h.tables
  functions : h'.functions = h.functions

instance : IsPreorder Heap Spares where
  refl _ := ⟨rfl, rfl, rfl, rfl, rfl⟩
  trans _ _ _ hh hh' :=
    ⟨hh'.lists.trans hh.lists, hh'.maps.trans hh.maps, hh'.cells.trans hh.cells,
      hh'.tables.trans hh.tables, hh'.functions.trans hh.functions⟩

lemma Spares.widens (hh : h.Spares h') : h.Widens h' := .of_eq hh.functions hh.tables

lemma Widens.size_le (hh : h.Widens h') : h.tables.size ≤ h'.tables.size := by
  obtain ⟨more, hmore⟩ := hh.tables
  rw [hmore, Array.size_append]
  exact Nat.le_add_right _ _

@[grind ←] lemma widens_modifyList (h : Heap) (r : Ref .list) (f : Array Value → Array Value) :
    h.Widens (h.modifyList r f) := .of_eq rfl rfl

@[grind ←] lemma widens_modifyMap (h : Heap) (r : Ref .map)
    (f : Dictionary Key Value → Dictionary Key Value) : h.Widens (h.modifyMap r f) := .of_eq rfl rfl

@[grind ←] lemma spares_setCursor (h : Heap) (r : Ref .cursor) (c : Cursor) :
    h.Spares (h.setCursor r c) := ⟨rfl, rfl, rfl, rfl, rfl⟩

/-- A table that was there keeps its names. -/
lemma Widens.table (hh : h.Widens h') {t : Ref .table} (ht : t.index < h.tables.size) :
    h'.table t = h.table t := by
  obtain ⟨more, hmore⟩ := hh.tables
  simp [Heap.table, hmore, Array.getElem?_append_left ht]

lemma newFault_widens (h : Heap) (c : Cause) : h.Widens (h.newFault c).2 := by
  unfold newFault
  split
  · exact .refl h
  · exact .of_eq rfl rfl

/-- Storing an attribute is to bind a name, or it is nothing. -/
lemma bindAttribute_cases (h : Heap) (r : Ref .function) (name : String) (v : Value) :
    h.bindAttribute r name v = h ∨
      ∃ F ∈ h.functions, h.bindAttribute r name v = h.bind F.attributes name v := by
  unfold bindAttribute
  cases hF : h.function? r with
  | none => exact .inl rfl
  | some F => exact .inr ⟨F, Array.mem_of_getElem? hF, rfl⟩

end Heap

open Exec

namespace HeapM

variable {α β : Type}

/-- A program that leaves functions alone, and the names in tables. -/
abbrev Widening (x : HeapM α) : Prop := Keeps Heap.Widens (fun _ => True) x

/-- A program that leaves everything alone but cursors, however it ends. -/
abbrev Sparing (x : HeapM α) : Prop := Keeps Heap.Spares (fun _ => True) x

@[grind ←] lemma Keeps.widening {x : HeapM α} (hx : Sparing x) : Widening x :=
  hx.mono fun _ _ => Heap.Spares.widens

/-! ## Primitives -/

/-- What a program may do to the heap. -/
@[grind ←] lemma modify_widening {f : Heap → Heap} (hf : ∀ h : Heap, h.Widens (f h)) :
    Widening (modify f) := hf

@[grind ←] lemma modify_sparing {f : Heap → Heap} (hf : ∀ h : Heap, h.Spares (f h)) :
    Sparing (modify f) := hf

@[grind ←] lemma str_sparing (text : String) : Sparing (str text) :=
  fun _ => ⟨rfl, rfl, rfl, rfl, rfl⟩

@[grind ←] lemma tuple_sparing (items : List Value) : Sparing (tuple items) :=
  fun _ => ⟨rfl, rfl, rfl, rfl, rfl⟩

@[grind ←] lemma fresh_sparing : Sparing (make Heap.fresh) := fun _ => ⟨rfl, rfl, rfl, rfl, rfl⟩

@[grind ←] lemma exception_sparing (kind : ExceptionKind) (arg : Value) :
    Sparing (exception kind arg) := fun _ => ⟨rfl, rfl, rfl, rfl, rfl⟩

@[grind ←] lemma newTraceback_sparing (entries : List TraceEntry) :
    Sparing (make (Heap.newTraceback entries)) := fun _ => ⟨rfl, rfl, rfl, rfl, rfl⟩

@[grind ←] lemma iterator_sparing (c : Cursor) : Sparing (iterator c) :=
  fun _ => ⟨rfl, rfl, rfl, rfl, rfl⟩

@[grind ←] lemma newCell_widening (content : Option Value) :
    Widening (make (Heap.newCell content)) := fun _ => .of_eq rfl rfl

@[grind ←] lemma newTable_widening (t : Table) : Widening (make (Heap.newTable t)) :=
  fun _ => ⟨rfl, #[t], Array.push_eq_append⟩

@[grind ←] lemma list_widening (items : Array Value) : Widening (list items) :=
  fun _ => .of_eq rfl rfl

@[grind ←] lemma map_entries_widening (entries : Dictionary Key Value) : Widening (map entries) :=
  fun _ => .of_eq rfl rfl

end HeapM

open HeapM

/-! ## Keys, constants and cursors -/

mutual

@[grind ←] lemma Key.toValue_sparing : (k : Key) → Sparing k.toValue
  | .none | .bool _ | .int _ | .str .. => keeps_pure _
  | .tuple items => keeps_bind (Key.toValues_sparing items) fun _ => tuple_sparing _

@[grind ←] lemma Key.toValues_sparing : (ks : List Key) → Sparing (Key.toValues ks)
  | [] => keeps_pure _
  | k :: ks => keeps_bind k.toValue_sparing fun _ =>
      keeps_bind (Key.toValues_sparing ks) fun _ => keeps_pure _

end

mutual

@[grind ←] lemma Value.ofConst_sparing (origin : Nat) (path : List Nat) :
    (c : Const) → Sparing (Value.ofConst origin path c)
  | .none | .bool _ | .int _ | .float _ | .code _ => keeps_pure _
  | .str s => str_sparing s
  | .tuple items => keeps_bind (Value.ofConsts_sparing origin path 0 items) fun _ =>
      tuple_sparing _

@[grind ←] lemma Value.ofConsts_sparing (origin : Nat) (path : List Nat) (place : Nat) :
    (cs : List Const) → Sparing (Value.ofConsts origin path place cs)
  | [] => keeps_pure _
  | c :: cs => keeps_bind (Value.ofConst_sparing origin (place :: path) c) fun _ =>
      keeps_bind (Value.ofConsts_sparing origin path (place + 1) cs) fun _ => keeps_pure _

end

namespace Cursor

@[grind ←] lemma ofIterable_sparing (v : Value) : Sparing (ofIterable v) := by
  unfold ofIterable
  grind

@[grind ←] lemma advance_sparing (c : Cursor) : Sparing c.advance := by
  unfold advance
  grind

@[grind ←] lemma drainOnto_sparing (taken : List Value) (fuel : Nat) (c : Cursor) :
    Sparing (drainOnto taken fuel c) := by
  induction fuel generalizing taken c with
  | zero => exact keeps_pure _
  | succ fuel ih =>
    unfold drainOnto
    grind

@[grind ←] lemma drain_sparing (c : Cursor) : Sparing c.drain := by
  unfold drain
  grind

end Cursor

namespace Value

@[grind ←] lemma next?_sparing (r : Ref .cursor) : Sparing (next? r) := by
  unfold next?
  grind

@[grind ←] lemma elements_sparing (v : Value) : Sparing v.elements := by
  unfold elements
  grind

@[grind ←] lemma toIterator_sparing (v : Value) : Sparing v.toIterator := by
  unfold toIterator
  grind

/-! ## Operators and attributes -/

@[grind ←] lemma repeated_widening (host : SizeWords) (count : Int64) (v : Value) :
    Widening (repeated host count v) := by
  unfold repeated
  grind

@[grind ←] lemma multiply_widening (host : SizeWords) (a b : Value) :
    Widening (multiply host a b) := by
  unfold multiply
  grind

@[grind ←] lemma add_widening (a b : Value) : Widening (add a b) := by
  unfold add
  grind

@[grind ←] lemma subscript_widening (container index : Value) :
    Widening (subscript container index) := by
  unfold subscript
  grind

@[grind ←] lemma setItem_widening (container index item : Value) :
    Widening (setItem container index item) := by
  unfold setItem
  grind

@[grind ←] lemma binary_widening (op : BinaryOp) (a b : Value) : Widening (binary op a b) := by
  unfold binary
  grind

@[grind ←] lemma arguments_widening (v : Value) : Widening v.arguments := by
  unfold arguments
  grind

@[grind ←] lemma getAttribute_widening (v : Value) (name : String) :
    Widening (v.getAttribute name) := by
  unfold getAttribute
  grind

end Value

/-! ## Methods and builtin functions -/

namespace Method

@[grind ←] lemma callOnList_widening (m : Method) (r : Ref .list) (args : List Value) :
    Widening (m.callOnList r args) := by
  cases m
  case listPop =>
    refine keeps_bind (optionalArgument_keeps _ _) fun index => keeps_bind keeps_get fun h => ?_
    by_cases hempty : (h.list r).size = 0
    · simp only [hempty, if_true]
      -- What follows is never reached.
      exact keeps_throw (e := Cause.popFromEmpty) trivial
    · simp only [hempty, if_false]
      cases index <;> refine keeps_bind (by grind) fun i => ?_
      all_goals
        split
        · exact keeps_throw trivial
        · refine keeps_bind keeps_get fun h => ?_
          split
          · exact keeps_throw trivial
          · refine keeps_bind (modify_widening fun h => ?_) fun _ => keeps_pure _
            exact h.widens_modifyList r _
  all_goals
    simp only [callOnList]
    grind

@[grind ←] lemma pairs_sparing (entries : List (Key × Value)) : Sparing (pairs entries) := by
  induction entries with
  | nil => exact keeps_pure _
  | cons entry rest ih =>
    unfold pairs
    grind

@[grind ←] lemma callOnMap_widening (m : Method) (r : Ref .map) (args : List Value) :
    Widening (m.callOnMap r args) := by
  cases m
  case mapPop =>
    refine keeps_bind (keyAndDefault_keeps _ _) fun (key, default?) =>
      keeps_bind (ofExcept_keeps _) fun k => keeps_bind keeps_get fun h => ?_
    grind
  all_goals
    simp only [callOnMap]
    grind

@[grind ←] lemma listOfTexts_widening (parts : List (List Char)) :
    Widening (listOfTexts parts) := by
  have hstrings : Widening (parts.mapM fun part => HeapM.str (String.ofList part)) := by
    induction parts with
    | nil => exact keeps_pure _
    | cons part rest ih =>
      rw [List.mapM_cons]
      grind
  exact keeps_bind hstrings fun _ => list_widening _

@[grind ←] lemma callOnText_widening (m : Method) (s : String) (args : List Value) :
    Widening (m.callOnText s args) := by
  unfold callOnText
  grind

@[grind ←] lemma call_widening (m : Method) (receiver : Value) (args : List Value) :
    Widening (m.call receiver args) := by
  unfold call
  grind

end Method

namespace Builtin

@[grind ←] lemma oneArgument_widening (b : Builtin) (args : List Value) :
    Widening (b.oneArgument args) := by
  unfold oneArgument
  grind

@[grind ←] lemma length_widening (v : Value) : Widening (length v) := by
  unfold length
  grind

@[grind ←] lemma progression_widening (args : List Value) : Widening (progression args) := by
  unfold progression
  grind

@[grind ←] lemma extreme_widening (b : Builtin) (op : CompareOp) (args : List Value) :
    Widening (b.extreme op args) := by
  unfold extreme
  grind

@[grind ←] lemma collected_widening (b : Builtin) (args : List Value) :
    Widening (b.collected args) := by
  unfold collected
  grind

@[grind ←] lemma call_widening (b : Builtin) (args : List Value) : Widening (b.call args) := by
  unfold call
  grind

end Builtin

namespace Value

@[grind ←] lemma exceptionArgument_widening (args : List Value) :
    Widening (exceptionArgument args) := by
  unfold exceptionArgument
  grind

@[grind ←] lemma invoke_widening (callee : Value) (args : List Value)
    (keywords : List (String × Value)) : Widening (callee.invoke args keywords) := by
  unfold invoke
  grind

end Value

/-! ## Calls -/

namespace Function

variable {F : Function} {positional : List Value} {keywords : List (String × Value)}

lemma freshCells_widening (locals : Ref .table) (names : List String) :
    Widening (freshCells locals names) := by
  induction names with
  | nil => exact keeps_pure _
  | cons name rest ih =>
    unfold freshCells
    grind

lemma startCells_widening (F : Function) (locals : Ref .table) : Widening (F.startCells locals) :=
  keeps_bind (freshCells_widening locals F.code.unit.cellNames) fun _ => keeps_pure _

lemma startLocals_widening (F : Function) (positional : List Value)
    (keywords : List (String × Value)) : Widening (F.startLocals positional keywords) := by
  unfold startLocals
  grind

/-- The locals of a call are a new table. -/
lemma startLocals_ok {h h' : Heap} {locals : Ref .table}
    (hok : F.startLocals positional keywords h = .ok locals h') :
    locals.index = h.tables.size ∧ locals.index < h'.tables.size := by
  unfold startLocals at hok
  cases hb : F.arrange (F.code.unit.params?.getD []) positional keywords with
  | error c =>
    rw [hb] at hok
    cases hok
  | ok bindings =>
    rw [hb] at hok
    cases hname : F.code.unit.variadicName? with
    | none =>
      rw [hname] at hok
      cases hok
      exact ⟨rfl, by simp⟩
    | some name =>
      rw [hname] at hok
      cases hok
      exact ⟨rfl, by simp⟩

end Function

namespace Machine

/-- The heap of a call that is made, or refused with a fault. -/
lemma callFrame_widening (builtins : Ref .table) (callee : Ref .function)
    (positional : List Value) (keywords : List (String × Value)) (caller? : Option Nat) :
    Widening (callFrame builtins callee positional keywords caller?) := by
  refine keeps_bind keeps_get fun h => ?_
  cases h.function? callee with
  | none => exact keeps_throw trivial
  | some F =>
    exact keeps_bind (F.startLocals_widening positional keywords) fun locals =>
      keeps_bind (F.startCells_widening locals) fun cells => keeps_pure _

lemma emptyCells_widens (h : Heap) (names : List String) : h.Widens (emptyCells h names).2 := by
  induction names generalizing h with
  | nil => exact .refl h
  | cons name rest ih =>
    have hcell : h.Widens (h.newCell none).2 := .of_eq rfl rfl
    exact hcell.trans (ih (h.newCell none).2)

/-- The tables of a top-level run: the globals are those that were given, or they are a new table,
and the locals are the globals if none were given. -/
lemma moduleTables_cases {globals? locals? : Option (Ref .table)} {h h' : Heap}
    {globals locals : Ref .table}
    (hok : moduleTables globals? locals? h = ((globals, locals), h')) :
    h.Widens h' ∧ locals = locals?.getD globals ∧
      (globals? = some globals ∨ globals.index = h.tables.size ∧
        globals.index < h'.tables.size) := by
  unfold moduleTables at hok
  cases globals? with
  | some g =>
    cases hok
    exact ⟨.refl h, rfl, .inl rfl⟩
  | none =>
    cases hok
    exact ⟨⟨rfl, _, Array.push_eq_append⟩, rfl, .inr ⟨rfl, by simp⟩⟩

end Machine

end StackMachine
