import StackMachine.Proofs.Moves
/-!
# Namespaces

Names are bound in tables, and tables are handed around: a function keeps the globals that it was
defined in, a frame has its locals and globals and the builtin table, and at top level the locals
are the globals.  So that a function can call itself, the locals of an activation have to be a table
that nobody else has.  They are, since a call makes a new table for them (`startLocals_ok`), and
nothing ever hands that table on: a function that is made gets the globals of the frame and new
attributes, and a frame that is entered gets the globals of a function.

`Separated` says so of the tables in use (`Scope`), and every move keeps it (`Move.separated`).  The
builtin table is a case of its own.  Nothing in a machine protects it, but as long as the host does
not supply it for globals or locals (`Guarded`) no program has it in a place that can be written to.
-/

namespace StackMachine

/-! ## Tables in use -/

/-- The tables that a frame works with. -/
structure Scope where
  locals : Ref .table
  globals : Ref .table
  builtins : Ref .table

def Frame.scope (f : Frame) : Scope := ⟨f.locals, f.globals, f.builtins⟩

/-- A table that is there and is not the builtin one. -/
structure Heap.Ordinary (h : Heap) (builtins t : Ref .table) : Prop where
  lt : t.index < h.tables.size
  ne : t ≠ builtins

/-- The locals of `s`, the scope at place `i`, are nobody else's, and they are new: the first `base`
tables were there before. -/
structure PrivateAt (base : Nat) (h : Heap) (scopes : Array Scope) (i : Nat) (s : Scope) :
    Prop where
  recent : base ≤ s.locals.index
  locals : ∀ j s', scopes[j]? = some s' → j ≠ i → s'.locals ≠ s.locals
  globals : ∀ s' ∈ scopes, s'.globals ≠ s.locals
  functions : ∀ F ∈ h.functions, F.globals ≠ s.locals ∧ F.attributes ≠ s.locals

/-- The scopes of a call stack, outermost first, on the way of a request that came when there were
`base` tables.  If it was a call, then the outermost scope is that of a function too. -/
structure Separated (base : Nat) (called : Bool) (builtins : Ref .table) (h : Heap)
    (scopes : Array Scope) : Prop where
  base_le : base ≤ h.tables.size
  builtins_lt : builtins.index < h.tables.size
  functions : ∀ F ∈ h.functions, h.Ordinary builtins F.globals ∧ h.Ordinary builtins F.attributes
  inUse : ∀ s ∈ scopes, h.Ordinary builtins s.locals ∧ h.Ordinary builtins s.globals ∧
    s.builtins = builtins
  apart : ∀ i s, scopes[i]? = some s → called ∨ 0 < i → PrivateAt base h scopes i s

section Separated

variable {base : Nat} {called : Bool} {builtins : Ref .table} {h h' : Heap} {scopes : Array Scope}
  {s : Scope} {t t' : Ref .table}

lemma Heap.Ordinary.mono (ht : h.Ordinary builtins t) (hsize : h.tables.size ≤ h'.tables.size) :
    h'.Ordinary builtins t := ⟨Nat.lt_of_lt_of_le ht.lt hsize, ht.ne⟩

/-- A table is not one that was made later. -/
lemma ref_ne_of_le {n : Nat} (ht : t.index < n) (ht' : n ≤ t'.index) : t ≠ t' := by
  rintro rfl
  exact absurd ht (Nat.not_lt_of_le ht')

lemma Separated.mono (hs : Separated base called builtins h scopes)
    (hfunctions : h'.functions = h.functions) (hsize : h.tables.size ≤ h'.tables.size) :
    Separated base called builtins h' scopes where
  base_le := Nat.le_trans hs.base_le hsize
  builtins_lt := Nat.lt_of_lt_of_le hs.builtins_lt hsize
  functions F hF := by
    obtain ⟨hglobals, hattributes⟩ := hs.functions F (hfunctions ▸ hF)
    exact ⟨hglobals.mono hsize, hattributes.mono hsize⟩
  inUse s hmem := by
    obtain ⟨hlocals, hglobals, hbuiltins⟩ := hs.inUse s hmem
    exact ⟨hlocals.mono hsize, hglobals.mono hsize, hbuiltins⟩
  apart i s hi hcalled := by
    obtain ⟨hrecent, hlocals, hglobals, hF⟩ := hs.apart i s hi hcalled
    exact ⟨hrecent, hlocals, hglobals, hfunctions ▸ hF⟩

/-- A function is made in one of the scopes: it gets the globals there, and new attributes. -/
lemma Separated.makeFunction (hs : Separated base called builtins h scopes) (hmem : s ∈ scopes)
    {F : Function} (hglobals : F.globals = s.globals)
    (hattributes : F.attributes.index = h.tables.size)
    (hfunctions : h'.functions = h.functions.push F)
    (htables : h'.tables.size = h.tables.size + 1) : Separated base called builtins h' scopes := by
  have hsize : h.tables.size ≤ h'.tables.size := by omega
  have hnew : ∀ t, t.index < h.tables.size → F.attributes ≠ t := fun t ht =>
    (ref_ne_of_le ht (Nat.le_of_eq hattributes.symm)).symm
  refine ⟨Nat.le_trans hs.base_le hsize, Nat.lt_of_lt_of_le hs.builtins_lt hsize, fun G hG => ?_,
    fun s' hmem' => ?_, fun i s' hi hcalled => ?_⟩
  · rw [hfunctions] at hG
    obtain hG | rfl := Array.mem_push.1 hG
    · obtain ⟨hG, hG'⟩ := hs.functions G hG
      exact ⟨hG.mono hsize, hG'.mono hsize⟩
    · obtain ⟨-, hordinary, -⟩ := hs.inUse s hmem
      exact ⟨hglobals ▸ hordinary.mono hsize, by omega, hnew _ hs.builtins_lt⟩
  · obtain ⟨hlocals, hglobals', hbuiltins⟩ := hs.inUse s' hmem'
    exact ⟨hlocals.mono hsize, hglobals'.mono hsize, hbuiltins⟩
  · obtain ⟨hrecent, hlocals, hothers, hF⟩ := hs.apart i s' hi hcalled
    refine ⟨hrecent, hlocals, hothers, fun G hG => ?_⟩
    rw [hfunctions] at hG
    obtain hG | rfl := Array.mem_push.1 hG
    · exact hF G hG
    · have hlocals' := (hs.inUse s' (Array.mem_of_getElem? hi)).1
      exact ⟨hglobals ▸ hothers s hmem, hnew _ hlocals'.lt⟩

/-- The innermost frame leaves. -/
lemma Separated.pop (hs : Separated base called builtins h (scopes.push s)) :
    Separated base called builtins h scopes := by
  have hstays : ∀ {i : Nat} {s' : Scope}, scopes[i]? = some s' → (scopes.push s)[i]? = some s' := by
    intro i s' hi
    obtain ⟨hlt, rfl⟩ := Array.getElem?_eq_some_iff.1 hi
    rw [Array.getElem?_push_lt hlt]
  refine ⟨hs.base_le, hs.builtins_lt, hs.functions, fun s' hmem =>
    hs.inUse s' (Array.mem_push_of_mem s hmem), fun i s' hi hcalled => ?_⟩
  obtain ⟨hrecent, hlocals, hglobals, hF⟩ := hs.apart i s' (hstays hi) hcalled
  exact ⟨hrecent, fun j t hj => hlocals j t (hstays hj),
    fun t ht => hglobals t (Array.mem_push_of_mem s ht), hF⟩

/-- No frame is left. -/
lemma Separated.empty (hs : Separated base called builtins h scopes) (called' : Bool) :
    Separated base called' builtins h #[] :=
  ⟨hs.base_le, hs.builtins_lt, hs.functions, by simp, by simp⟩

/-- The tables of a frame that a call enters. -/
structure Scope.Enters (builtins : Ref .table) (h h' : Heap) (s : Scope) : Prop where
  builtins : s.builtins = builtins
  functions : h'.functions = h.functions
  size_le : h.tables.size ≤ h'.tables.size
  le_locals : h.tables.size ≤ s.locals.index
  locals_lt : s.locals.index < h'.tables.size
  globals : ∃ F ∈ h.functions, s.globals = F.globals

/-- A function is entered. -/
lemma Separated.push (hs : Separated base called builtins h scopes)
    (hnew : s.Enters builtins h h') : Separated base called builtins h' (scopes.push s) := by
  obtain ⟨F₀, hF₀, hglobals₀⟩ := hnew.globals
  have hold : ∀ t, t.index < h.tables.size → t ≠ s.locals := fun t ht =>
    ref_ne_of_le ht hnew.le_locals
  have hmono := hs.mono hnew.functions hnew.size_le
  have hordinary : h.Ordinary builtins s.globals := hglobals₀ ▸ (hs.functions F₀ hF₀).1
  refine ⟨hmono.base_le, hmono.builtins_lt, hmono.functions, fun s' hmem => ?_,
    fun i s' hi hcalled => ?_⟩
  · obtain hmem | rfl := Array.mem_push.1 hmem
    · exact hmono.inUse s' hmem
    · exact ⟨⟨hnew.locals_lt, (hold _ hs.builtins_lt).symm⟩, hordinary.mono hnew.size_le,
        hnew.builtins⟩
  · rw [Array.getElem?_push] at hi
    split at hi
    · next htop =>
      cases hi
      refine ⟨Nat.le_trans hs.base_le hnew.le_locals, fun j t hj hne => ?_, fun t ht => ?_,
        fun F hF => ?_⟩
      · rw [Array.getElem?_push, if_neg (htop ▸ hne)] at hj
        exact hold _ (hs.inUse t (Array.mem_of_getElem? hj)).1.lt
      · obtain ht | rfl := Array.mem_push.1 ht
        · exact hold _ (hs.inUse t ht).2.1.lt
        · exact hold _ hordinary.lt
      · rw [hnew.functions] at hF
        obtain ⟨hF, hF'⟩ := hs.functions F hF
        exact ⟨hold _ hF.lt, hold _ hF'.lt⟩
    · obtain ⟨hrecent, hlocals, hglobals, hF⟩ := hmono.apart i s' hi hcalled
      have hlt := (hs.inUse s' (Array.mem_of_getElem? hi)).1.lt
      refine ⟨hrecent, fun j t hj hne => ?_, fun t ht => ?_, hF⟩
      · rw [Array.getElem?_push] at hj
        split at hj
        · cases hj
          exact (hold _ hlt).symm
        · exact hlocals j t hj hne
      · obtain ht | rfl := Array.mem_push.1 ht
        · exact hglobals t ht
        · rw [hglobals₀]
          exact (hF F₀ (hnew.functions ▸ hF₀)).1

end Separated

/-! ## Binding names -/

section Tables

variable {h : Heap} {t t' : Ref .table}

/-- The table that a name is bound in is the only one that changes. -/
lemma Heap.table_bind_of_ne (hne : t ≠ t') (name : String) (v : Value) :
    (h.bind t' name v).table t = h.table t := by
  have hindex : t'.index ≠ t.index := by
    cases t
    cases t'
    simpa [eq_comm] using hne
  simp [Heap.table, Heap.bind, Heap.modifyTable, Array.getElem?_modify, hindex]

lemma Heap.size_bind (name : String) (v : Value) : (h.bind t name v).tables.size = h.tables.size :=
  Array.size_modify

end Tables

/-! ## Moves -/

/-- The invariant of a request: the scopes are separated, and the builtin table has kept its names.
-/
structure Machine.KeepsApart (base : Nat) (called : Bool) (builtins : Ref .table) (names : Table)
    (m : Machine) : Prop where
  same : m.builtins = builtins
  separated : Separated base called builtins m.heap (m.frames.map Frame.scope)
  names : m.heap.table builtins = names

section Moves

variable {base : Nat} {called : Bool} {builtins : Ref .table} {names : Table}
  {scopes : Array Scope} {m m' : Machine}

/-- **Every effect** leaves the scopes separated, and the builtin table as it is. -/
lemma Activation.Effect.separated {place : Nat → Prop} {a b : Activation}
    (heffect : a.Effect place b)
    (hs : Separated base called builtins a.heap scopes) (hmem : a.frame.scope ∈ scopes) :
    b.frame.scope = a.frame.scope ∧ Separated base called builtins b.heap scopes ∧
      b.heap.table builtins = a.heap.table builtins := by
  obtain ⟨hlocals, hglobals, -⟩ := hs.inUse _ hmem
  cases heffect with
  | stack | jump | fetch | blocks | lastFault | output => exact ⟨rfl, hs, rfl⟩
  | heap h => exact ⟨rfl, hs.mono h.functions h.size_le, h.table hs.builtins_lt⟩
  | @bind t ht name v =>
    have hne : builtins ≠ t := by
      obtain rfl | rfl := ht
      · exact hlocals.ne.symm
      · exact hglobals.ne.symm
    exact ⟨rfl, hs.mono rfl (Nat.le_of_eq (Heap.size_bind name v).symm),
      Heap.table_bind_of_ne hne name v⟩
  | bindAttribute r name v =>
    obtain heq | ⟨F, hF, heq⟩ := a.heap.bindAttribute_cases r name v
    · exact ⟨rfl, heq.symm ▸ hs, by rw [heq]⟩
    · have hne : builtins ≠ F.attributes := (hs.functions F hF).2.ne.symm
      refine ⟨rfl, ?_, ?_⟩ <;> dsimp only <;> rw [heq]
      · exact hs.mono rfl (Nat.le_of_eq (Heap.size_bind name v).symm)
      · exact Heap.table_bind_of_ne hne name v
  | makeFunction h =>
    obtain ⟨F, hF, hattributes, heq⟩ := Function.make_ok h a.heap
    refine ⟨rfl, ?_, ?_⟩ <;> dsimp only <;> rw [heq]
    · exact hs.makeFunction hmem hF hattributes rfl (by simp)
    · rw [Heap.table, Array.getElem?_push, if_neg (Nat.ne_of_lt hs.builtins_lt)]
      rfl

lemma Activation.Acts.separated {place : Nat → Prop} {a b : Activation} (hacts : a.Acts place b)
    (hs : Separated base called builtins a.heap scopes) (hmem : a.frame.scope ∈ scopes) :
    b.frame.scope = a.frame.scope ∧ Separated base called builtins b.heap scopes ∧
      b.heap.table builtins = a.heap.table builtins := by
  induction hacts with
  | refl => exact ⟨rfl, hs, rfl⟩
  | tail _ heffect ih =>
    obtain ⟨hscope, hsep, hnames⟩ := ih
    obtain ⟨hscope', hsep', hnames'⟩ := heffect.separated hsep (hscope ▸ hmem)
    exact ⟨hscope'.trans hscope, hsep', hnames'.trans hnames⟩

namespace Machine

/-- The tables of the frame of a call. -/
lemma callFrame_enters {callee : Ref .function} {positional : List Value}
    {keywords : List (String × Value)} {caller? : Option Nat} {h h' : Heap} {g : Frame}
    (hok : callFrame builtins callee positional keywords caller? h = .ok g h') :
    g.scope.Enters builtins h h' ∧ h.Widens h' := by
  have hwidens := callFrame_widening builtins callee positional keywords caller? h
  rw [hok] at hwidens
  obtain ⟨F, locals, cells, h₁, hF, hlocals, hcells, rfl⟩ := callFrame_ok hok
  obtain ⟨hindex, hlt⟩ := Function.startLocals_ok hlocals
  have hcells' := F.startCells_widening locals h₁
  rw [hcells] at hcells'
  exact ⟨⟨rfl, hwidens.functions, hwidens.size_le, Nat.le_of_eq hindex.symm,
    Nat.lt_of_lt_of_le hlt hcells'.size_le, F, Array.mem_of_getElem? hF, rfl⟩, hwidens⟩

lemma map_scope_modify (frames : Array Frame) (i : Nat) (v : Value) :
    (frames.modify i fun f => { f with stack := f.stack.push v }).map Frame.scope =
      frames.map Frame.scope := by
  apply Array.ext
  · simp
  · intro j hj hj'
    simp only [Array.getElem_map, Array.getElem_modify]
    split <;> rfl

/-- **Every move** leaves the scopes separated, and the builtin table as it is. -/
lemma Move.keepsApart (h : m.Move m') (hm : m.KeepsApart base called builtins names) :
    m'.KeepsApart base called builtins names := by
  obtain ⟨hbuiltins, hs, hnames⟩ := hm
  cases h with
  | counts | notes => exact ⟨hbuiltins, hs, hnames⟩
  | widens h =>
    exact ⟨hbuiltins, hs.mono h.functions h.size_le, (h.table hs.builtins_lt).trans hnames⟩
  | @works rest f a hframes hacts =>
    have hscopes : m.frames.map Frame.scope = (rest.map Frame.scope).push f.scope := by
      rw [hframes, Array.map_push]
    obtain ⟨hscope, hs', hnames'⟩ := hacts.separated hs (by
      rw [hscopes]
      exact Array.mem_push_self)
    have hsame : (rest.push a.frame).map Frame.scope = m.frames.map Frame.scope := by
      rw [hscopes, Array.map_push, hscope]
      rfl
    exact ⟨hbuiltins, hsame ▸ hs', hnames'.trans hnames⟩
  | enters h =>
    obtain ⟨henters, hwidens⟩ := callFrame_enters h
    refine ⟨hbuiltins, ?_, (hwidens.table hs.builtins_lt).trans hnames⟩
    rw [Array.map_push]
    exact hs.push (hbuiltins ▸ henters)
  | leaves hframes =>
    rw [hframes, Array.map_push] at hs
    exact ⟨hbuiltins, hs.pop, hnames⟩
  | receives caller v => exact ⟨hbuiltins, (map_scope_modify _ _ v).symm ▸ hs, hnames⟩
  | abandons => exact ⟨hbuiltins, by simpa using hs.empty called, hnames⟩

lemma Moves.keepsApart (h : m.Moves m') (hm : m.KeepsApart base called builtins names) :
    m'.KeepsApart base called builtins names := h.keeps (fun _ _ hmove => hmove.keepsApart) hm

end Machine

end Moves

/-! ## Sessions that guard the builtin table -/

/-- What the host may do to the heap between two requests, where `builtins` is the builtin table.
It changes what it likes and makes new tables, but it does not change functions; and it makes
functions whose globals are not the builtin table. -/
inductive Heap.HostChange (builtins : Ref .table) (h : Heap) : Heap → Prop
  | none : HostChange builtins h h
  | changes {h₁ h₂ : Heap} (hbefore : HostChange builtins h h₁)
    (hsize : h₁.tables.size ≤ h₂.tables.size)
    (hfunctions : ∀ F ∈ h₂.functions, F ∈ h₁.functions) : HostChange builtins h h₂
  | makes {h₁ : Heap} {code : CodeObject} {defaults : List Value} {globals : Ref .table}
    {closure : List (Ref .cell)} {allocate : Heap → Ref .function × Heap}
    (hbefore : HostChange builtins h h₁) (hglobals : h₁.Ordinary builtins globals)
    (hok : Function.make code defaults globals closure = .ok allocate) :
    HostChange builtins h (allocate h₁).2

/-- The request does not supply the builtin table as the globals or the locals of a run. -/
def Request.Spares (builtins : Ref .table) (h : Heap) : Request → Prop
  | .run _ globals? locals? => (∀ t, globals? = some t → h.Ordinary builtins t) ∧
      ∀ t, locals? = some t → h.Ordinary builtins t
  | .call .. | .reset => True

/-- Whether the outermost frame of the request is that of a function. -/
def Request.isCall : Request → Bool
  | .call .. => true
  | .run .. | .reset => false

/-- What a session can come to in which the host never supplies the builtin table for globals or
locals.  There were `base` tables when the last request came, and `called` says whether it was a
call. -/
inductive Guarded : (base : Nat) → (called : Bool) → Progress → Prop
  | new (limits : Limits) (output : Output) :
    Guarded 0 false (.finished (.new limits output) (.ok .none))
  | request {base : Nat} {called : Bool} {m : Machine} {r : RunResult}
    (h : Guarded base called (.finished m r)) {heap : Heap}
    (hheap : m.heap.HostChange m.builtins heap) (output : Output) {q : Request}
    (hq : q.Spares m.builtins heap) :
    Guarded heap.tables.size q.isCall
      (({ m with heap := heap, output := output } : Machine).serve q)
  | step {base : Nat} {called : Bool} {m : Machine} (h : Guarded base called (.running m)) :
    Guarded base called m.step

section Sessions

variable {base : Nat} {called : Bool} {p : Progress} {m : Machine} {names : Table}

lemma Guarded.reached (h : Guarded base called p) : Reached p := by
  induction h with
  | new limits output => exact .new limits output
  | request h _ output _ ih => exact ih.request _ output _
  | step h ih => exact ih.step

/-- The host may change what it likes before a request. -/
lemma Separated.hostChange {builtins : Ref .table} {h h' : Heap} {scopes : Array Scope}
    (hs : Separated base called builtins h scopes) (hchange : h.HostChange builtins h')
    (called' : Bool) : Separated h'.tables.size called' builtins h' #[] := by
  suffices hkept : builtins.index < h'.tables.size ∧
      ∀ F ∈ h'.functions, h'.Ordinary builtins F.globals ∧ h'.Ordinary builtins F.attributes from
    ⟨Nat.le_refl _, hkept.1, hkept.2, by simp, by simp⟩
  induction hchange with
  | none => exact ⟨hs.builtins_lt, hs.functions⟩
  | changes _ hsize hfunctions ih =>
    refine ⟨Nat.lt_of_lt_of_le ih.1 hsize, fun F hF => ?_⟩
    obtain ⟨hglobals, hattributes⟩ := ih.2 F (hfunctions F hF)
    exact ⟨hglobals.mono hsize, hattributes.mono hsize⟩
  | @makes h₁ code defaults globals closure allocate _ hglobals hok ih =>
    obtain ⟨G, rfl, hindex, heq⟩ := Function.make_ok hok h₁
    have hsize : h₁.tables.size < (allocate h₁).2.tables.size := by simp [heq]
    have hle := Nat.le_of_lt hsize
    have hfunctions : (allocate h₁).2.functions = h₁.functions.push G := by rw [heq]
    refine ⟨Nat.lt_trans ih.1 hsize, fun F hF => ?_⟩
    rw [hfunctions] at hF
    obtain hF | rfl := Array.mem_push.1 hF
    · obtain ⟨hglobals, hattributes⟩ := ih.2 F hF
      exact ⟨hglobals.mono hle, hattributes.mono hle⟩
    · have hnew : F.attributes ≠ builtins := (ref_ne_of_le ih.1 (Nat.le_of_eq hindex.symm)).symm
      exact ⟨hglobals.mono hle, hindex ▸ hsize, hnew⟩

/-- The tables of a top-level run. -/
lemma Separated.push_start {builtins : Ref .table} {h h' : Heap} {code : CodeObject}
    {globals? locals? : Option (Ref .table)} {globals locals : Ref .table}
    (hs : Separated base false builtins h #[])
    (hq : (Request.run code globals? locals?).Spares builtins h)
    (htables : Machine.moduleTables globals? locals? h = ((globals, locals), h')) :
    Separated base false builtins h' #[⟨locals, globals, builtins⟩] := by
  obtain ⟨hwidens, rfl, hglobals⟩ := Machine.moduleTables_cases htables
  have hmono := hs.mono hwidens.functions hwidens.size_le
  have hordinary : h'.Ordinary builtins globals := by
    obtain heq | ⟨hindex, hlt⟩ := hglobals
    · exact (hq.1 globals heq).mono hwidens.size_le
    · exact ⟨hlt, (ref_ne_of_le hs.builtins_lt (Nat.le_of_eq hindex.symm)).symm⟩
  have hlocals : h'.Ordinary builtins (locals?.getD globals) := by
    cases hl : locals? with
    | none => exact hordinary
    | some t => exact (hq.2 t hl).mono hwidens.size_le
  refine ⟨hmono.base_le, hmono.builtins_lt, hmono.functions, fun s hmem => ?_,
    fun i s hi hcalled => ?_⟩
  · obtain rfl : s = _ := by simpa using hmem
    exact ⟨hlocals, hordinary, rfl⟩
  · obtain ⟨hlt, -⟩ := Array.getElem?_eq_some_iff.1 hi
    simp only [Bool.false_eq_true, false_or] at hcalled
    simp at hlt
    omega

/-- A request that spares the builtin table. -/
lemma Machine.serve_keepsApart {q : Request} (hframes : m.frames = #[])
    (hs : Separated base q.isCall m.builtins m.heap #[]) (hq : q.Spares m.builtins m.heap) :
    (m.serve q).machine.KeepsApart base q.isCall m.builtins (m.heap.table m.builtins) := by
  have hempty := readied_frames hframes q
  have hbuiltins : (m.readied q).builtins = m.builtins := by
    unfold readied
    split <;> rfl
  obtain ⟨heap, output, r, hserve, hwidens, -⟩ | ⟨heap, f, hserve, hbegins, -⟩ := m.serve_begins q
  · rw [hserve]
    refine ⟨hbuiltins, ?_, hwidens.table hs.builtins_lt⟩
    simpa [Progress.machine, hempty] using hs.mono hwidens.functions hwidens.size_le
  · rw [hserve]
    suffices hs' : Separated base q.isCall m.builtins heap #[f.scope] ∧
        heap.table m.builtins = m.heap.table m.builtins by
      refine ⟨hbuiltins, ?_, hs'.2⟩
      simpa [Progress.machine, hempty] using hs'.1
    cases hbegins with
    | @run code globals? locals? globals locals cells heap₁ heap htables hcells =>
      have hcells' := emptyCells_widens heap₁ code.unit.cellNames
      rw [hcells] at hcells'
      have hstart := hs.push_start hq htables
      have htable := (moduleTables_cases htables).1.table hs.builtins_lt
      exact ⟨hstart.mono hcells'.functions hcells'.size_le,
        (hcells'.table hstart.builtins_lt).trans htable⟩
    | call h =>
      obtain ⟨henters, hwidens⟩ := callFrame_enters h
      exact ⟨hs.push henters, hwidens.table hs.builtins_lt⟩

lemma Machine.KeepsApart.now {builtins : Ref .table} (h : m.KeepsApart base called builtins names) :
    m.KeepsApart base called m.builtins (m.heap.table m.builtins) := by
  obtain ⟨rfl, hs, rfl⟩ := h
  exact ⟨rfl, hs, rfl⟩

/-- The invariant of a session. -/
lemma Guarded.keepsApart (h : Guarded base called p) : p.machine.KeepsApart base called
    p.machine.builtins (p.machine.heap.table p.machine.builtins) := by
  induction h with
  | new limits output =>
    refine ⟨rfl, ⟨Nat.zero_le _, Nat.zero_lt_one, ?_, ?_, ?_⟩, rfl⟩ <;>
      simp [Progress.machine, Machine.new, Heap.newTable, Heap.empty]
  | @request base called m r h heap hheap output q hq ih =>
    have hframes : m.frames = #[] := h.reached.orderly.1
    have hserve := Machine.serve_keepsApart (m := { m with heap := heap, output := output }) hframes
      (ih.separated.hostChange hheap q.isCall) hq
    exact hserve.now
  | @step base called m h ih => exact (m.step_moves.keepsApart ih).now

lemma Machine.advance_keepsApart {builtins : Ref .table} (fuel : Nat)
    (h : p.machine.KeepsApart base called builtins names) :
    (Machine.advance fuel p).machine.KeepsApart base called builtins names := by
  induction fuel generalizing p with
  | zero => exact h
  | succ fuel ih =>
    cases p with
    | finished m r => exact h
    | running m => exact ih (m.step_moves.keepsApart h)

end Sessions

/-! ## What follows for names -/

/-- The locals of each activation of a function are a table of its own: no other frame has it for
its locals, no frame and no function has it for its globals, no function has it for its attributes,
and it is not the builtin table. -/
def Machine.ActivationsApart (called : Bool) (m : Machine) : Prop :=
  ∀ i f, m.frames[i]? = some f → called ∨ 0 < i →
    (∀ j g, m.frames[j]? = some g → j ≠ i → g.locals ≠ f.locals) ∧
    (∀ g ∈ m.frames, g.globals ≠ f.locals) ∧
    (∀ F ∈ m.heap.functions, F.globals ≠ f.locals ∧ F.attributes ≠ f.locals) ∧
    m.builtins ≠ f.locals

/-- The tables that others than the innermost activation can see: those of the frames `rest` below
it, those of modules and functions, the builtin table, and all that were there when the request
came. -/
inductive Machine.SeenElsewhere (m : Machine) (base : Nat) (rest : Array Frame) : Ref .table → Prop
  | locals {g : Frame} (hg : g ∈ rest) : SeenElsewhere m base rest g.locals
  | globals {g : Frame} (hg : g ∈ m.frames) : SeenElsewhere m base rest g.globals
  | functionGlobals {F : Function} (hF : F ∈ m.heap.functions) : SeenElsewhere m base rest F.globals
  | attributes {F : Function} (hF : F ∈ m.heap.functions) : SeenElsewhere m base rest F.attributes
  | builtins : SeenElsewhere m base rest m.builtins
  | older {t : Ref .table} (ht : t.index < base) : SeenElsewhere m base rest t

section Names

variable {base : Nat} {called : Bool} {builtins : Ref .table} {names : Table} {m : Machine}
  {rest : Array Frame} {f : Frame}

lemma getElem?_scope {frames : Array Frame} {j : Nat} {g : Frame} (h : frames[j]? = some g) :
    (frames.map Frame.scope)[j]? = some g.scope := by
  rw [Array.getElem?_map, h]
  rfl

lemma Machine.KeepsApart.activationsApart (h : m.KeepsApart base called builtins names) :
    m.ActivationsApart called := by
  intro i f hf hcalled
  obtain ⟨-, hlocals, hglobals, hF⟩ := h.separated.apart i f.scope (getElem?_scope hf) hcalled
  have hordinary := h.separated.inUse f.scope (Array.mem_of_getElem? (getElem?_scope hf))
  refine ⟨fun j g hg => hlocals j g.scope (getElem?_scope hg), fun g hg => ?_, hF, ?_⟩
  · exact hglobals g.scope (Array.mem_map_of_mem hg)
  · exact h.same ▸ hordinary.1.ne.symm

/-- What others can see is not the table of the innermost activation. -/
lemma Machine.SeenElsewhere.ne_locals {t : Ref .table} (ht : m.SeenElsewhere base rest t)
    (h : m.KeepsApart base called builtins names) (hm : m.frames = rest.push f)
    (hcalled : called ∨ rest ≠ #[]) : t ≠ f.locals := by
  have htop : m.frames[rest.size]? = some f := by simp [hm]
  have hpos : called ∨ 0 < rest.size := hcalled.imp id Array.size_pos_iff.2
  obtain ⟨hlocals, hglobals, hF, hbuiltins⟩ := h.activationsApart rest.size f htop hpos
  have hrecent : base ≤ f.locals.index :=
    (h.separated.apart rest.size f.scope (getElem?_scope htop) hpos).recent
  cases ht with
  | @locals g hg =>
    obtain ⟨j, hj, rfl⟩ := Array.mem_iff_getElem.1 hg
    have hj' : m.frames[j]? = some rest[j] := by
      rw [hm, Array.getElem?_push_lt hj]
    exact hlocals j _ hj' (Nat.ne_of_lt hj)
  | globals hg => exact hglobals _ hg
  | functionGlobals hF' => exact (hF _ hF').1
  | attributes hF' => exact (hF _ hF').2
  | builtins => exact hbuiltins
  | older ht => exact ref_ne_of_le ht hrecent

/-- Storing a name in the locals binds it there, if there is a value. -/
lemma Exec.execute_store {i : Instruction} {name : String}
    (hi : i = .storeFast name ∨ i = .storeName name) (a : Activation) :
    (∃ v b, execute i a = .ok .next b ∧ b.heap = a.heap.bind a.frame.locals name v) ∨
      ∃ e, execute i a = .error (.fatal e) a := by
  have hexecute : execute i = (pop >>= storeLocal name) >>= fun _ => pure .next := by
    obtain rfl | rfl := hi <;> rfl
  by_cases hempty : a.frame.stack = #[]
  · have hpop : pop a = .error (.fatal (.stackUnderflow 1 0)) a := by simp [pop, hempty]
    exact .inr ⟨_, by rw [hexecute, bind_apply, bind_apply, hpop]⟩
  · obtain ⟨stack, v, hstack⟩ := Array.exists_push_of_ne_empty hempty
    refine .inl ⟨v, { a with
      frame := { a.frame with stack := stack }
      heap := a.heap.bind a.frame.locals name v }, ?_, rfl⟩
    rw [hexecute, bind_apply, bind_apply, pop_apply hstack]
    rfl

/-- A step that stores a name in the locals changes nothing else on the heap. -/
lemma Machine.step_store {i : Instruction} {name : String} {next : Nat}
    (hm : m.frames = rest.push f) (hcode : f.code.unit.decode f.ip = .ok (some (i, next)))
    (hi : i = .storeFast name ∨ i = .storeName name) :
    m.step.machine.heap = m.heap ∨ ∃ v, m.step.machine.heap = m.heap.bind f.locals name v := by
  cases hgo : exceeded m.limits (m.steps + 1) f.stack.size with
  | some e =>
    rw [← topHeight_push hm] at hgo
    rw [step_stopped hgo]
    exact .inl rfl
  | none =>
    rw [step_working hm hgo hcode, within_apply { m with steps := m.steps + 1 }]
    obtain ⟨v, b, hrun, hheap⟩ | ⟨e, hrun⟩ := Exec.execute_store hi
      (activation { m with steps := m.steps + 1 } { f with lastIp := f.ip, ip := next })
    · rw [hrun]
      exact .inr ⟨v, hheap⟩
    · rw [hrun]
      exact .inl rfl

end Names

/-- What holds of the tables in a session that guards the builtin table, where the last request came
when there were `base` tables. -/
structure Namespaced (base : Nat) (called : Bool) (p : Progress) : Prop where
  /-- Before each step. -/
  apart : ∀ m, p = .running m → m.ActivationsApart called
  /-- While a step is being taken. -/
  passing : ∀ m m', p = .running m → m.PassesThrough m' → m'.ActivationsApart called
  /-- An activation that stores a name in its locals changes nothing that others can see. -/
  stores : ∀ (m : Machine) (rest : Array Frame) (f : Frame) (i : Instruction) (name : String)
    (next : Nat), p = .running m → m.frames = rest.push f → called ∨ rest ≠ #[] →
    f.code.unit.decode f.ip = .ok (some (i, next)) → i = .storeFast name ∨ i = .storeName name →
    (∀ t, m.SeenElsewhere base rest t → m.step.machine.heap.table t = m.heap.table t) ∧
      m.step.machine.heap.cells = m.heap.cells
  /-- However far the request is followed, the builtin table stays as it is. -/
  builtins : ∀ fuel, (Machine.advance fuel p).machine.builtins = p.machine.builtins ∧
    (Machine.advance fuel p).machine.heap.table p.machine.builtins =
      p.machine.heap.table p.machine.builtins
  /-- A request that spares the builtin table does not begin by changing it. -/
  requests : ∀ (m : Machine) (r : RunResult) (heap : Heap) (output : Output) (q : Request),
    p = .finished m r → m.heap.HostChange m.builtins heap → q.Spares m.builtins heap →
    (({ m with heap := heap, output := output } : Machine).serve q).machine.heap.table m.builtins =
      heap.table m.builtins

/-- **Namespaces are separate.**  Whatever is asked of a machine, as long as the host never supplies
the builtin table for globals or locals: at any time the locals of the activations of functions are
tables of their own, so that an activation which stores a name there changes nothing that other
activations or any module can see; and no program ever changes the builtin table. -/
theorem Guarded.namespaced {base : Nat} {called : Bool} {p : Progress} (h : Guarded base called p) :
    Namespaced base called p := by
  have hapart := h.keepsApart
  refine ⟨?_, ?_, ?_, fun fuel => ?_, ?_⟩
  · rintro m rfl
    exact hapart.activationsApart
  · rintro m m' rfl hpasses
    exact (hpasses.moves.keepsApart hapart).activationsApart
  · rintro m rest f i name next rfl hm hcalled hcode hi
    obtain heap | ⟨v, heap⟩ := Machine.step_store hm hcode hi
    · rw [heap]
      exact ⟨fun t _ => rfl, rfl⟩
    · rw [heap]
      exact ⟨fun t ht => Heap.table_bind_of_ne (ht.ne_locals hapart hm hcalled) name v, rfl⟩
  · have hadvanced := Machine.advance_keepsApart fuel hapart
    exact ⟨hadvanced.same, hadvanced.names⟩
  · rintro m r heap output q rfl hheap hq
    have hframes : m.frames = #[] := h.reached.orderly.1
    exact (Machine.serve_keepsApart (m := { m with heap := heap, output := output }) hframes
      (hapart.separated.hostChange hheap q.isCall) hq).names

/-! ## A small session -/

section Session

variable {base : Nat} {called : Bool} {p : Progress} {m : Machine} {r : RunResult}

/-- The host need not change anything between two requests. -/
lemma Guarded.serve (h : Guarded base called (.finished m r)) {q : Request}
    (hq : q.Spares m.builtins m.heap) : Guarded m.heap.tables.size q.isCall (m.serve q) :=
  h.request .none m.output hq

lemma Guarded.advance (h : Guarded base called p) (fuel : Nat) :
    Guarded base called (Machine.advance fuel p) := by
  induction fuel generalizing p with
  | zero => exact h
  | succ n ih =>
    cases p with
    | running m => exact ih h.step
    | finished m r => exact h

end Session

/-- A program that calls a function which stores a local and calls itself. -/
def recursingUnit : CodeUnit :=
  { (.named "<module>" : CodeUnit) with
    code := #[0x50, 0, 0, 0x82, 0, 0, 0x52, 0, 0, 0x51, 0, 0, 0x81, 0, 0]
    consts := [.code { (.named "f" : CodeUnit) with
      code := #[0x50, 0, 0, 0x56, 0, 0, 0x53, 0, 0, 0x81, 0, 0]
      consts := [.int 7]
      names := ["f"]
      localNames := ["x"] }]
    names := ["f"] }

-- Irreducible, so that only the kernel ever evaluates such a run.
/-- A new machine that has run into the second activation of the function. -/
@[irreducible] def recursingSession : Progress :=
  Machine.advance 10 ((Machine.new {} .console).serve (.run ⟨0, [], recursingUnit⟩ none none))

/-- The second activation is about to store its local; the first one has done so. -/
theorem namespaced_in_recursion :
    recursingSession.machine.frames.toList.map (fun f => (f.locals.index, f.globals.index)) =
      [(1, 1), (3, 1), (4, 1)] ∧
    recursingSession.machine.nextDispatch? = some ("f", 3) ∧
    Guarded 1 false recursingSession ∧ Namespaced 1 false recursingSession := by
  have hguarded : Guarded 1 false recursingSession := by
    have hrun := ((Guarded.new {} .console).serve
      (q := .run ⟨0, [], recursingUnit⟩ none none) ⟨nofun, nofun⟩).advance 10
    unfold recursingSession
    exact hrun
  exact ⟨by decide +kernel, by decide +kernel, hguarded, hguarded.namespaced⟩

end StackMachine
