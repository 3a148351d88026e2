import Mathlib.Logic.Function.Basic
import Mathlib.Order.Defs.PartialOrder
import StackMachine.Proofs.Moves
/-!
# Ledgers

A tuple is kept in the value itself, together with the number that it was given when it was made.
That the same number stands for the same items in every copy is nothing that a value could say of
itself: it is a matter of how the copies came about.  It is kept track of by a ledger, in which the
items of every tuple are entered when it is given its number.  A ledger also has the units that
programs were started with, since a code object names its own by a number and by the way to it
through the constant pools.

A ledger knows something when all tuples and code objects in it are as entered (`Ledger.Knows`),
and it tracks a state when it knows the state and has no entries yet for the numbers that are still
to be given (`Ledger.Tracks`).  A program is sound for a ledger if it goes from tracked states to
tracked states of ledgers with more entries, and ends with something that is known
(`Ledger.Sound`).  Entries are never changed, so that what is known stays known, and programs can
be put together from sound ones.
-/

namespace StackMachine

/-- The constant at the end of a path from a unit, innermost step first. -/
def CodeUnit.constant? (root : CodeUnit) : (path : List Nat) → Option Const
  | [] => some (.code root)
  | place :: path =>
    match root.constant? path with
    | some (.code unit) => unit.consts[place]?
    | some (.tuple items) => items[place]?
    | _ => none

/-- The units that programs were started with, by their numbers, and the items of the tuples that
have been made, by theirs. -/
structure Ledger where
  units : Nat → CodeUnit
  items? : Nat → Option (List Value)

namespace Ledger

/-- The later ledger has the entries of the earlier one, and maybe more. -/
structure Extends (L L' : Ledger) : Prop where
  units : L'.units = L.units
  items : ∀ i items, L.items? i = some items → L'.items? i = some items

instance : Preorder Ledger where
  le := Extends
  le_refl _ := ⟨rfl, fun _ _ h => h⟩
  le_trans _ _ _ h h' :=
    ⟨h'.units.trans h.units, fun i items hi => h'.items i items (h.items i items hi)⟩

variable {L L' : Ledger}

/-! ## Values -/

mutual

/-- The tuples and the code objects in a value are those that are entered under their numbers. -/
def Records (L : Ledger) : Value → Prop
  | .tuple i items => L.items? i = some items ∧ L.RecordsAll items
  | .method _ v _ | .exception _ _ v => L.Records v
  | .code o => (L.units o.origin).constant? o.path = some (.code o.unit)
  | .none | .bool _ | .int _ | .float _ | .str .. | .list _ | .map _ | .iterator _ | .function _
  | .builtin _ | .cell _ | .exceptionType _ | .traceback .. | .why _ => True

def RecordsAll (L : Ledger) : List Value → Prop
  | [] => True
  | v :: vs => L.Records v ∧ L.RecordsAll vs

end

attribute [simp, grind =] Records

lemma recordsAll_iff {vs : List Value} : L.RecordsAll vs ↔ ∀ v ∈ vs, L.Records v := by
  induction vs with
  | nil => simp [RecordsAll]
  | cons v vs ih => simp [RecordsAll, ih]

mutual

lemma Records.mono (hL : L ≤ L') : (v : Value) → L.Records v → L'.Records v
  | .tuple i items => fun h => ⟨hL.items i items h.1, RecordsAll.mono hL items h.2⟩
  | .method _ v _ => fun h => Records.mono hL v h
  | .exception _ _ v => fun h => Records.mono hL v h
  | .code o => fun h => by
    simp only [Records] at h ⊢
    rw [hL.units]
    exact h
  | .none | .bool _ | .int _ | .float _ | .str .. | .list _ | .map _ | .iterator _ | .function _
  | .builtin _ | .cell _ | .exceptionType _ | .traceback .. | .why _ => fun _ => trivial

lemma RecordsAll.mono (hL : L ≤ L') : (vs : List Value) → L.RecordsAll vs → L'.RecordsAll vs
  | [] => fun _ => trivial
  | v :: vs => fun h => ⟨Records.mono hL v h.1, RecordsAll.mono hL vs h.2⟩

end

/-- A number stands for one sequence of items. -/
lemma Records.items_eq {i : Nat} {as bs : List Value} (ha : L.Records (.tuple i as))
    (hb : L.Records (.tuple i bs)) : as = bs := Option.some.inj (ha.1.symm.trans hb.1)

/-- The number of a unit and a path stand for one code object. -/
lemma Records.eq_of_same {o p : CodeObject} (ho : L.Records (.code o)) (hp : L.Records (.code p))
    (h : o.same p = true) : o = p := by
  obtain ⟨origin, path, unit⟩ := o
  obtain ⟨origin', path', unit'⟩ := p
  simp only [CodeObject.same, Bool.and_eq_true, beq_iff_eq] at h
  obtain ⟨rfl, rfl⟩ := h
  cases ho.symm.trans hp
  rfl

end Ledger

/-! ## What a ledger knows -/

/-- Things with values in them.  What is recorded of them stays recorded. -/
class Recordable (α : Type) where
  Recorded : Ledger → α → Prop
  mono {L L' : Ledger} {x : α} : L ≤ L' → Recorded L x → Recorded L' x

/-- All tuples and code objects in something are as entered. -/
def Ledger.Knows {α : Type} [Recordable α] (L : Ledger) (x : α) : Prop := Recordable.Recorded L x

namespace Recordable

/-- There are no values in it. -/
@[reducible] def valueless (α : Type) : Recordable α := ⟨fun _ _ => True, fun _ _ => trivial⟩

instance : Recordable Value := ⟨Ledger.Records, fun hL => Ledger.Records.mono hL _⟩
instance : Recordable Unit := valueless _
instance : Recordable Bool := valueless _
instance : Recordable Nat := valueless _
instance : Recordable Int64 := valueless _
instance : Recordable Char := valueless _
instance : Recordable String := valueless _
instance : Recordable Key := valueless _
instance : Recordable Ordering := valueless _
instance {s : Store} : Recordable (Ref s) := valueless _

section Containers

variable {α β ε : Type} [Recordable α] [Recordable β] [Recordable ε]

instance : Recordable (List α) :=
  ⟨fun L xs => ∀ x ∈ xs, L.Knows x, fun hL h x hx => mono hL (h x hx)⟩

instance : Recordable (Array α) :=
  ⟨fun L xs => ∀ x ∈ xs, L.Knows x, fun hL h x hx => mono hL (h x hx)⟩

instance : Recordable (Option α) :=
  ⟨fun L x? => ∀ x, x? = some x → L.Knows x, fun hL h x hx => mono hL (h x hx)⟩

instance : Recordable (α × β) :=
  ⟨fun L p => L.Knows p.1 ∧ L.Knows p.2, fun hL h => ⟨mono hL h.1, mono hL h.2⟩⟩

instance : Recordable (Except ε α) :=
  ⟨fun L x => (∀ v, x = .ok v → L.Knows v) ∧ ∀ e, x = .error e → L.Knows e,
    fun hL h => ⟨fun v hv => mono hL (h.1 v hv), fun e he => mono hL (h.2 e he)⟩⟩

instance {κ : Type} [BEq κ] : Recordable (Dictionary κ α) :=
  ⟨fun L d => ∀ entry ∈ d.entries, L.Knows entry.2, fun hL h e he => mono hL (h e he)⟩

end Containers

instance : Recordable Cursor :=
  ⟨fun L c => ∀ rest, c = .items rest → L.Knows rest, fun hL h rest hc => mono hL (h rest hc)⟩

instance : Recordable Cause :=
  ⟨fun L c => ∀ key, c = .keyNotFound key → L.Knows key, fun hL h key hc => mono hL (h key hc)⟩

instance : Recordable Fault := ⟨fun L F => L.Knows F.value, fun hL h => mono hL h⟩

instance : Recordable Function :=
  ⟨fun L F => L.Knows (Value.code F.code) ∧ L.Knows F.defaults,
    fun hL h => ⟨mono hL h.1, mono hL h.2⟩⟩

/-- All stores of a heap are known. -/
structure OfHeap (L : Ledger) (h : Heap) : Prop where
  lists : L.Knows h.lists
  maps : L.Knows h.maps
  cursors : L.Knows h.cursors
  cells : L.Knows h.cells
  tables : L.Knows h.tables
  functions : L.Knows h.functions

instance : Recordable Heap :=
  ⟨OfHeap, fun hL h => ⟨mono hL h.lists, mono hL h.maps, mono hL h.cursors, mono hL h.cells,
    mono hL h.tables, mono hL h.functions⟩⟩

instance : Recordable Reply := ⟨fun L r => L.Knows r.value, fun hL h => mono hL h⟩

end Recordable

namespace Ledger

section Parts

variable {α β ε κ : Type} [Recordable α] [Recordable β] [Recordable ε] [BEq κ] {L L' : Ledger}

@[grind →] lemma Knows.mono {x : α} (hx : L.Knows x) (hL : L ≤ L') : L'.Knows x :=
  Recordable.mono hL hx

@[simp, grind =] lemma knows_unit (u : Unit) : L.Knows u ↔ True := .rfl
@[simp, grind =] lemma knows_bool (b : Bool) : L.Knows b ↔ True := .rfl
@[simp, grind =] lemma knows_nat (n : Nat) : L.Knows n ↔ True := .rfl
@[simp, grind =] lemma knows_int64 (n : Int64) : L.Knows n ↔ True := .rfl
@[simp, grind =] lemma knows_char (c : Char) : L.Knows c ↔ True := .rfl
@[simp, grind =] lemma knows_string (s : String) : L.Knows s ↔ True := .rfl
@[simp, grind =] lemma knows_key (k : Key) : L.Knows k ↔ True := .rfl
@[simp, grind =] lemma knows_ordering (o : Ordering) : L.Knows o ↔ True := .rfl
@[simp, grind =] lemma knows_ref {s : Store} (r : Ref s) : L.Knows r ↔ True := .rfl
@[simp, grind =] lemma knows_value {v : Value} : L.Knows v ↔ L.Records v := .rfl

@[grind =] lemma knows_list {xs : List α} : L.Knows xs ↔ ∀ x ∈ xs, L.Knows x := .rfl
@[grind =] lemma knows_array {xs : Array α} : L.Knows xs ↔ ∀ x ∈ xs, L.Knows x := .rfl
@[grind =] lemma knows_cursor {c : Cursor} :
    L.Knows c ↔ ∀ rest, c = .items rest → L.Knows rest := .rfl
@[grind =] lemma knows_cause {c : Cause} :
    L.Knows c ↔ ∀ key, c = .keyNotFound key → L.Knows key := .rfl
@[grind =] lemma knows_fault {F : Fault} : L.Knows F ↔ L.Knows F.value := .rfl
@[grind =] lemma knows_reply {r : Reply} : L.Knows r ↔ L.Knows r.value := .rfl
@[simp, grind =] lemma knows_pair {x : α} {y : β} : L.Knows (x, y) ↔ L.Knows x ∧ L.Knows y := .rfl

@[simp, grind =] lemma knows_none : L.Knows (none : Option α) ↔ True := by
  simp [Knows, Recordable.Recorded]

@[simp, grind =] lemma knows_some {x : α} : L.Knows (some x) ↔ L.Knows x := by
  simp [Knows, Recordable.Recorded]

@[simp, grind =] lemma knows_ok {x : α} : L.Knows (.ok x : Except ε α) ↔ L.Knows x := by
  simp [Knows, Recordable.Recorded]

@[simp, grind =] lemma knows_error {e : ε} : L.Knows (.error e : Except ε α) ↔ L.Knows e := by
  simp [Knows, Recordable.Recorded]

@[simp, grind =] lemma knows_option_ordering (o? : Option Ordering) : L.Knows o? ↔ True :=
  iff_true_intro fun _ _ => trivial

@[simp, grind =] lemma recordsAll_iff_knows {vs : List Value} : L.RecordsAll vs ↔ L.Knows vs :=
  recordsAll_iff

lemma Knows.items {i : Nat} {items : List Value} (h : L.Knows (Value.tuple i items)) :
    L.Knows items := recordsAll_iff_knows.1 h.2

@[grind ←] lemma Knows.exceptMap {x : Except ε α} {f : α → β} (hx : L.Knows x)
    (hf : ∀ v, L.Knows v → L.Knows (f v)) : L.Knows (x.map f) := by
  cases x with
  | ok v => exact knows_ok.2 (hf v (knows_ok.1 hx))
  | error e => exact knows_error.2 (knows_error.1 hx)

@[grind ←] lemma Knows.optionMap {x? : Option α} {f : α → β} (hx : L.Knows x?)
    (hf : ∀ x, L.Knows x → L.Knows (f x)) : L.Knows (x?.map f) := by
  cases x? with
  | none => exact knows_none.2 trivial
  | some x => exact knows_some.2 (hf x (knows_some.1 hx))

/-! ## Sequences -/

@[simp, grind ←] lemma knows_nil : L.Knows ([] : List α) := nofun

@[simp, grind ←] lemma knows_emptyArray : L.Knows (#[] : Array α) := by
  simp [knows_array]

@[simp, grind =] lemma knows_cons {x : α} {xs : List α} :
    L.Knows (x :: xs) ↔ L.Knows x ∧ L.Knows xs := by
  simp [knows_list]

@[simp, grind =] lemma knows_append {xs ys : List α} :
    L.Knows (xs ++ ys) ↔ L.Knows xs ∧ L.Knows ys := by
  simp [knows_list, or_imp, forall_and]

@[simp, grind =] lemma knows_toArray {xs : List α} : L.Knows xs.toArray ↔ L.Knows xs := by
  simp [knows_list, knows_array]

@[simp, grind =] lemma knows_toList {xs : Array α} : L.Knows xs.toList ↔ L.Knows xs := by
  simp [knows_list, knows_array]

@[simp, grind =] lemma knows_push {xs : Array α} {x : α} :
    L.Knows (xs.push x) ↔ L.Knows xs ∧ L.Knows x := by
  simp [knows_array, or_imp, forall_and]

@[simp, grind =] lemma knows_array_append {xs ys : Array α} :
    L.Knows (xs ++ ys) ↔ L.Knows xs ∧ L.Knows ys := by
  simp [knows_array, or_imp, forall_and]

@[simp, grind =] lemma knows_appendList {xs : Array α} {ys : List α} :
    L.Knows (xs ++ ys) ↔ L.Knows xs ∧ L.Knows ys := by
  rw [← knows_toList, Array.toList_appendList, knows_append, knows_toList]

@[simp, grind =] lemma knows_reverse {xs : Array α} : L.Knows xs.reverse ↔ L.Knows xs := by
  simp [knows_array]

lemma Knows.of_subset {xs ys : List α} (h : L.Knows ys) (hsub : xs ⊆ ys) : L.Knows xs :=
  fun x hx => h x (hsub hx)

lemma Knows.replicate_flatten {xs : List α} (h : L.Knows xs) (n : Nat) :
    L.Knows (List.replicate n xs).flatten := by
  intro x hx
  obtain ⟨ys, hys, hx⟩ := List.mem_flatten.1 hx
  exact h x (List.eq_of_mem_replicate hys ▸ hx)

lemma Knows.getElem? {xs : List α} (h : L.Knows xs) (i : Nat) : L.Knows xs[i]? :=
  fun _ hx => h _ (List.mem_of_getElem? hx)

lemma Knows.array_getElem? {xs : Array α} (h : L.Knows xs) (i : Nat) : L.Knows xs[i]? :=
  fun _ hx => h _ (Array.mem_of_getElem? hx)

@[grind ←] lemma Knows.back? {xs : Array α} (h : L.Knows xs) : L.Knows xs.back? :=
  fun x hx => h x (Array.mem_of_back? hx)

@[grind ←] lemma Knows.extract {xs : Array α} (h : L.Knows xs) (i j : Nat) :
    L.Knows (xs.extract i j) := by
  intro x hx
  obtain ⟨k, hk, rfl⟩ := Array.mem_iff_getElem.1 hx
  rw [Array.getElem_extract]
  exact h _ (Array.getElem_mem _)

@[grind ←] lemma Knows.pop {xs : Array α} (h : L.Knows xs) : L.Knows xs.pop := by
  rw [← knows_toList, Array.toList_pop]
  exact (knows_toList.2 h).of_subset (List.dropLast_subset _)

@[grind ←] lemma Knows.shrink {xs : Array α} (h : L.Knows xs) (n : Nat) :
    L.Knows (xs.shrink n) := by
  rw [Array.shrink_eq_take]
  exact h.extract 0 n

lemma Knows.modify {xs : Array α} (h : L.Knows xs) (i : Nat) {f : α → α}
    (hf : ∀ x, L.Knows x → L.Knows (f x)) : L.Knows (xs.modify i f) := by
  intro x hx
  obtain ⟨j, hj, rfl⟩ := Array.mem_iff_getElem.1 hx
  rw [Array.getElem_modify]
  split
  · exact hf _ (h _ (Array.getElem_mem _))
  · exact h _ (Array.getElem_mem _)

lemma Knows.setIfInBounds {xs : Array α} {x : α} (h : L.Knows xs) (i : Nat) (hx : L.Knows x) :
    L.Knows (xs.setIfInBounds i x) := by
  intro y hy
  obtain hy | rfl := Array.mem_or_eq_of_mem_setIfInBounds hy
  · exact h y hy
  · exact hx

lemma Knows.insertIdxIfInBounds {xs : Array α} {x : α} (h : L.Knows xs) (i : Nat)
    (hx : L.Knows x) : L.Knows (xs.insertIdxIfInBounds i x) := by
  intro y hy
  unfold Array.insertIdxIfInBounds at hy
  split at hy
  · obtain rfl | hy := Array.mem_insertIdx.1 hy
    · exact hx
    · exact h y hy
  · exact h y hy

lemma Knows.eraseIdxIfInBounds {xs : Array α} (h : L.Knows xs) (i : Nat) :
    L.Knows (xs.eraseIdxIfInBounds i) := by
  intro x hx
  unfold Array.eraseIdxIfInBounds at hx
  split at hx
  · exact h x (Array.mem_of_mem_eraseIdx hx)
  · exact h x hx

/-! ## Dictionaries -/

@[grind ←] lemma knows_empty : L.Knows (.empty : Dictionary κ α) := nofun

lemma Knows.get? {d : Dictionary κ α} (h : L.Knows d) (k : κ) : L.Knows (d.get? k) := by
  intro x hx
  obtain ⟨key, hmem, -⟩ := Dictionary.mem_of_find? hx
  exact h _ hmem

lemma Knows.values {d : Dictionary κ α} (h : L.Knows d) : L.Knows d.values := by
  intro x hx
  obtain ⟨entry, hentry, rfl⟩ := List.mem_map.1 hx
  exact h entry hentry

lemma Knows.insert {d : Dictionary κ α} {x : α} (h : L.Knows d) (k : κ) (hx : L.Knows x) :
    L.Knows (d.insert k x) := by
  intro entry hentry
  obtain hold | ⟨hnew, -⟩ := Dictionary.mem_insertInto hentry
  · exact h entry hold
  · exact hnew ▸ hx

lemma Knows.erase {d : Dictionary κ α} (h : L.Knows d) (k : κ) : L.Knows (d.erase k) :=
  fun entry he => h entry ((Dictionary.eraseFrom_sublist k d.entries).subset he)

lemma knows_ofList {bindings : List (κ × α)} (h : ∀ b ∈ bindings, L.Knows b.2) :
    L.Knows (Dictionary.ofList bindings) := by
  unfold Dictionary.ofList
  generalize hd : (Dictionary.empty : Dictionary κ α) = d
  replace hd : L.Knows d := hd ▸ knows_empty
  induction bindings generalizing d with
  | nil => exact hd
  | cons b bindings ih =>
    exact ih (fun b' hb' => h b' (List.mem_cons_of_mem b hb')) _
      (hd.insert b.1 (h b List.mem_cons_self))

end Parts

/-! ## Heaps -/

section Heaps

variable {L : Ledger} {h : Heap}

@[grind ←] lemma Knows.list (hh : L.Knows h) (r : Ref .list) : L.Knows (h.list r) := by
  unfold Heap.list
  cases hxs : h.lists[r.index]? with
  | none => exact knows_emptyArray
  | some xs => exact hh.lists xs (Array.mem_of_getElem? hxs)

@[grind ←] lemma Knows.map (hh : L.Knows h) (r : Ref .map) : L.Knows (h.map r) := by
  unfold Heap.map
  cases hd : h.maps[r.index]? with
  | none => exact knows_empty
  | some d => exact hh.maps d (Array.mem_of_getElem? hd)

@[grind ←] lemma Knows.cursor (hh : L.Knows h) (r : Ref .cursor) : L.Knows (h.cursor r) := by
  unfold Heap.cursor
  cases hc : h.cursors[r.index]? with
  | none => exact nofun
  | some c => exact hh.cursors c (Array.mem_of_getElem? hc)

@[grind ←] lemma Knows.cell? (hh : L.Knows h) (r : Ref .cell) : L.Knows (h.cell? r) :=
  fun v hv => hh.cells _ (Array.mem_of_getElem? (Option.join_eq_some_iff.1 hv)) v rfl

@[grind ←] lemma Knows.lookup? (hh : L.Knows h) (r : Ref .table) (name : String) :
    L.Knows (h.lookup? r name) := by
  unfold Heap.lookup? Heap.table
  cases ht : h.tables[r.index]? with
  | none => exact knows_none.2 trivial
  | some t => exact Knows.get? (hh.tables t (Array.mem_of_getElem? ht)) name

@[grind ←] lemma Knows.function? (hh : L.Knows h) (r : Ref .function) : L.Knows (h.function? r) :=
  fun F hF => hh.functions F (Array.mem_of_getElem? hF)

@[grind ←] lemma Knows.modifyList (hh : L.Knows h) (r : Ref .list)
    {f : Array Value → Array Value} (hf : ∀ xs, L.Knows xs → L.Knows (f xs)) :
    L.Knows (h.modifyList r f) :=
  ⟨hh.lists.modify r.index hf, hh.maps, hh.cursors, hh.cells, hh.tables, hh.functions⟩

@[grind ←] lemma Knows.modifyMap (hh : L.Knows h) (r : Ref .map)
    {f : Dictionary Key Value → Dictionary Key Value} (hf : ∀ d, L.Knows d → L.Knows (f d)) :
    L.Knows (h.modifyMap r f) :=
  ⟨hh.lists, hh.maps.modify r.index hf, hh.cursors, hh.cells, hh.tables, hh.functions⟩

@[grind ←] lemma Knows.setCursor (hh : L.Knows h) (r : Ref .cursor) {c : Cursor}
    (hc : L.Knows c) : L.Knows (h.setCursor r c) :=
  ⟨hh.lists, hh.maps, hh.cursors.setIfInBounds r.index hc, hh.cells, hh.tables, hh.functions⟩

@[grind ←] lemma Knows.setCell (hh : L.Knows h) (r : Ref .cell) {v : Value} (hv : L.Knows v) :
    L.Knows (h.setCell r v) :=
  ⟨hh.lists, hh.maps, hh.cursors, hh.cells.setIfInBounds r.index (knows_some.2 hv), hh.tables,
    hh.functions⟩

@[grind ←] lemma Knows.bind (hh : L.Knows h) (r : Ref .table) (name : String) {v : Value}
    (hv : L.Knows v) : L.Knows (h.bind r name v) :=
  ⟨hh.lists, hh.maps, hh.cursors, hh.cells,
    hh.tables.modify r.index fun _ ht => ht.insert name hv, hh.functions⟩

@[grind ←] lemma Knows.bindAttribute (hh : L.Knows h) (r : Ref .function) (name : String)
    {v : Value} (hv : L.Knows v) : L.Knows (h.bindAttribute r name v) := by
  unfold Heap.bindAttribute
  split
  · exact hh.bind _ name hv
  · exact hh

end Heaps

end Ledger

/-! ## Sound programs -/

/-- Something with a heap in it. -/
class Stateful (σ : Type) extends Recordable σ where
  heap : σ → Heap

instance : Stateful Heap := ⟨id⟩

namespace Ledger

section Programs

variable {ε σ α β : Type} [Recordable ε] [Stateful σ] [Recordable α] [Recordable β] {L L' : Ledger}

/-- The ledger knows a state, and it has no entries for numbers that are still to be given. -/
structure Tracks (L : Ledger) (s : σ) : Prop where
  knows : L.Knows s
  unused : ∀ i, (Stateful.heap s).nextId ≤ i → L.items? i = none

/-- How a program ends: a ledger with more entries tracks the state, and it knows the result. -/
def Reaches (L : Ledger) : EStateM.Result ε σ α → Prop
  | .ok v s => ∃ L', L ≤ L' ∧ L'.Tracks s ∧ L'.Knows v
  | .error e s => ∃ L', L ≤ L' ∧ L'.Tracks s ∧ L'.Knows e

/-- A program that works with what the ledger knows, and enters the tuples that it makes. -/
def Sound (L : Ledger) (x : EStateM ε σ α) : Prop :=
  ∀ L', L ≤ L' → ∀ s : σ, L'.Tracks s → L'.Reaches (x s)

lemma Reaches.of_le {r : EStateM.Result ε σ α} (hL : L ≤ L') (hr : L'.Reaches r) :
    L.Reaches r := by
  cases r <;> obtain ⟨L₁, hL₁, h⟩ := hr <;> exact ⟨L₁, le_trans hL hL₁, h⟩

@[grind ←] lemma sound_pure {v : α} (hv : L.Knows v) : L.Sound (pure v : EStateM ε σ α) :=
  fun L' hL _ hs => ⟨L', le_refl L', hs, hv.mono hL⟩

@[grind ←] lemma sound_throw {e : ε} (he : L.Knows e) : L.Sound (throw e : EStateM ε σ α) :=
  fun L' hL _ hs => ⟨L', le_refl L', hs, he.mono hL⟩

@[grind ←] lemma sound_get : L.Sound (get : EStateM ε σ σ) :=
  fun L' _ _ hs => ⟨L', le_refl L', hs, hs.knows⟩

/-- What a program reaches, the next one goes on with. -/
lemma reaches_bind {x : EStateM ε σ α} {f : α → EStateM ε σ β} {s : σ} (hx : L.Reaches (x s))
    (hf : ∀ L', L ≤ L' → ∀ v, L'.Knows v → L'.Sound (f v)) : L.Reaches ((x >>= f) s) := by
  simp only [bind, EStateM.bind]
  cases hrun : x s with
  | error e s' =>
    rw [hrun] at hx
    exact hx
  | ok v s' =>
    rw [hrun] at hx
    obtain ⟨L', hL, hs', hv⟩ := hx
    exact (hf L' hL v hv L' (le_refl L') s' hs').of_le hL

@[grind ←] lemma sound_bind {x : EStateM ε σ α} {f : α → EStateM ε σ β} (hx : L.Sound x)
    (hf : ∀ L', L ≤ L' → ∀ v, L'.Knows v → L'.Sound (f v)) : L.Sound (x >>= f) :=
  fun L₁ hL₁ s hs => reaches_bind (hx L₁ hL₁ s hs) fun L₂ hL₂ => hf L₂ (le_trans hL₁ hL₂)

omit [Recordable α] in
/-- What follows a failure is never reached. -/
lemma sound_throw_bind {e : ε} (he : L.Knows e) (f : α → EStateM ε σ β) :
    L.Sound ((throw e : EStateM ε σ α) >>= f) :=
  fun L' hL _ hs => ⟨L', le_refl L', hs, he.mono hL⟩

@[grind ←] lemma sound_map {f : α → β} {x : EStateM ε σ α} (hx : L.Sound x)
    (hf : ∀ L', L ≤ L' → ∀ v, L'.Knows v → L'.Knows (f v)) : L.Sound (f <$> x) := by
  rw [map_eq_pure_bind]
  exact sound_bind hx fun L' hL v hv => sound_pure (hf L' hL v hv)

/-- A change of the state by which no tuple is made. -/
lemma sound_modify {f : σ → σ} (hf : ∀ L', L ≤ L' → ∀ s, L'.Knows s → L'.Knows (f s))
    (hnext : ∀ s, (Stateful.heap s).nextId ≤ (Stateful.heap (f s)).nextId) :
    L.Sound (modify f : EStateM ε σ Unit) :=
  fun L' hL s hs => ⟨L', le_refl L', ⟨hf L' hL s hs.knows, fun i hi =>
    hs.unused i (Nat.le_trans (hnext s) hi)⟩, trivial⟩

end Programs

/-! ## Changing the heap -/

section Changing

variable {L : Ledger} (h : Heap)

@[simp, grind =] lemma nextId_modifyList (r : Ref .list) (f : Array Value → Array Value) :
    (h.modifyList r f).nextId = h.nextId := rfl

@[simp, grind =] lemma nextId_setCursor (r : Ref .cursor) (c : Cursor) :
    (h.setCursor r c).nextId = h.nextId := rfl

@[simp, grind =] lemma nextId_bindAttribute (r : Ref .function) (name : String) (v : Value) :
    (h.bindAttribute r name v).nextId = h.nextId := by
  unfold Heap.bindAttribute
  split <;> rfl

/-- A change of the heap by which nothing is made. -/
@[grind ←] lemma modify_sound {f : Heap → Heap}
    (hf : ∀ L', L ≤ L' → ∀ h, L'.Knows h → L'.Knows (f h))
    (hnext : ∀ h, (f h).nextId = h.nextId) : L.Sound (modify f : HeapM Unit) :=
  sound_modify hf fun h => Nat.le_of_eq (hnext h).symm

end Changing

/-! ## Making objects -/

section Making

variable {α : Type} [Recordable α] {L : Ledger}

/-- Something is made that is not a tuple. -/
lemma sound_make {f : Heap → α × Heap}
    (hf : ∀ L', L ≤ L' → ∀ h, L'.Knows h → L'.Knows (f h).1 ∧ L'.Knows (f h).2)
    (hnext : ∀ h, h.nextId ≤ (f h).2.nextId) : L.Sound (HeapM.make f) := by
  intro L' hL h hh
  obtain ⟨hvalue, hheap⟩ := hf L' hL h hh.knows
  exact ⟨L', le_refl L', ⟨hheap, fun i hi => hh.unused i (Nat.le_trans (hnext h) hi)⟩, hvalue⟩

/-- A number is given to something that is not a tuple. -/
lemma sound_fresh {f : Nat → α} (hf : ∀ L', L ≤ L' → ∀ i, L'.Knows (f i)) :
    L.Sound (HeapM.make fun h => (f h.nextId, { h with nextId := h.nextId + 1 })) :=
  sound_make (fun L' hL h hh => ⟨hf L' hL h.nextId,
    ⟨hh.lists, hh.maps, hh.cursors, hh.cells, hh.tables, hh.functions⟩⟩)
    fun h => Nat.le_succ h.nextId

@[grind ←] lemma str_sound (text : String) : L.Sound (HeapM.str text) :=
  sound_fresh (f := (Value.str · text)) fun _ _ _ => trivial

@[grind ←] lemma fresh_sound : L.Sound (HeapM.make Heap.fresh) :=
  sound_fresh (f := id) fun _ _ _ => trivial

@[grind ←] lemma exception_sound (kind : ExceptionKind) {arg : Value} (harg : L.Knows arg) :
    L.Sound (HeapM.exception kind arg) :=
  sound_fresh (f := (Value.exception · kind arg)) fun _ hL _ => harg.mono hL

@[grind ←] lemma newTraceback_sound (entries : List TraceEntry) :
    L.Sound (HeapM.make (Heap.newTraceback entries)) :=
  sound_fresh (f := (Value.traceback · entries)) fun _ _ _ => trivial

/-- A tuple is entered under the number that it is given. -/
@[grind ←] lemma tuple_sound {items : List Value} (hitems : L.Knows items) :
    L.Sound (HeapM.tuple items) := by
  intro L₁ hL₁ h hh
  let L₂ : Ledger := { L₁ with items? := Function.update L₁.items? h.nextId (some items) }
  have hnew : L₂.items? h.nextId = some items := Function.update_self ..
  have hold : ∀ i, i ≠ h.nextId → L₂.items? i = L₁.items? i := fun i hi =>
    Function.update_of_ne hi ..
  -- The number has not been given before, so no entry is lost.
  have hL₂ : L₁ ≤ L₂ := by
    refine ⟨rfl, fun i others hi => ?_⟩
    have hne : i ≠ h.nextId := by
      rintro rfl
      rw [hh.unused _ (Nat.le_refl h.nextId)] at hi
      cases hi
    rw [hold i hne, hi]
  have hknows : L₂.Knows h := hh.knows.mono hL₂
  have hunused : ∀ i, h.nextId + 1 ≤ i → L₂.items? i = none := fun i hi => by
    rw [hold i (Nat.ne_of_gt hi), hh.unused i (Nat.le_of_lt hi)]
  exact ⟨L₂, hL₂, ⟨⟨hknows.lists, hknows.maps, hknows.cursors, hknows.cells, hknows.tables,
    hknows.functions⟩, hunused⟩, hnew, recordsAll_iff.2 ((hitems.mono hL₁).mono hL₂)⟩

@[grind ←] lemma list_sound {items : Array Value} (hitems : L.Knows items) :
    L.Sound (HeapM.list items) :=
  sound_map (sound_make (f := Heap.newList items) (fun _ hL _ hh => ⟨trivial,
    ⟨knows_push.2 ⟨hh.lists, hitems.mono hL⟩, hh.maps, hh.cursors, hh.cells, hh.tables,
      hh.functions⟩⟩) fun _ => Nat.le_refl _) fun _ _ _ _ => trivial

@[grind ←] lemma map_sound {entries : Dictionary Key Value} (hentries : L.Knows entries) :
    L.Sound (HeapM.map entries) :=
  sound_map (sound_make (f := Heap.newMap entries) (fun _ hL _ hh => ⟨trivial,
    ⟨hh.lists, knows_push.2 ⟨hh.maps, hentries.mono hL⟩, hh.cursors, hh.cells, hh.tables,
      hh.functions⟩⟩) fun _ => Nat.le_refl _) fun _ _ _ _ => trivial

@[grind ←] lemma iterator_sound {c : Cursor} (hc : L.Knows c) : L.Sound (HeapM.iterator c) :=
  sound_map (sound_make (f := Heap.newCursor c) (fun _ hL _ hh => ⟨trivial,
    ⟨hh.lists, hh.maps, knows_push.2 ⟨hh.cursors, hc.mono hL⟩, hh.cells, hh.tables,
      hh.functions⟩⟩) fun _ => Nat.le_refl _) fun _ _ _ _ => trivial

@[grind ←] lemma newCell_sound {content : Option Value} (hcontent : L.Knows content) :
    L.Sound (HeapM.make (Heap.newCell content)) :=
  sound_make (fun _ hL _ hh => ⟨trivial, ⟨hh.lists, hh.maps, hh.cursors,
    knows_push.2 ⟨hh.cells, hcontent.mono hL⟩, hh.tables, hh.functions⟩⟩) fun _ => Nat.le_refl _

@[grind ←] lemma newTable_sound {t : Table} (ht : L.Knows t) :
    L.Sound (HeapM.make (Heap.newTable t)) :=
  sound_make (fun _ hL _ hh => ⟨trivial, ⟨hh.lists, hh.maps, hh.cursors, hh.cells,
    knows_push.2 ⟨hh.tables, ht.mono hL⟩, hh.functions⟩⟩) fun _ => Nat.le_refl _

@[grind ←] lemma ofExcept_sound {x : Except Cause α} (hx : L.Knows x) :
    L.Sound (HeapM.ofExcept x) := by
  cases x with
  | ok v => exact sound_pure (knows_ok.1 hx)
  | error c => exact sound_throw (knows_error.1 hx)

end Making

end Ledger

end StackMachine
