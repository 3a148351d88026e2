import Mathlib.Data.List.Nodup
import Mathlib.Tactic.Lemma
import StackMachine.Object.Functions
/-!
# Binding arguments

A call gives values by position and by name, and a function has values of its own for its last
parameters.  The machine goes through them in this order and fills one slot for each parameter; on
the way there are four reasons to refuse the call.  Here the whole is said at once.

`Function.Fits` is when a call fits a function: what is given by position has room, each name that
is given is that of a parameter which has nothing yet, and no parameter without a default is left
out.  `Function.argument?` is what a parameter is then bound to.  After each pass the slots are a
function of place and name (`slotsBy`), so that the passes compose, and together they say that a
call is accepted exactly when it fits, and what its locals are then (`binding_exact`).
-/

namespace StackMachine

namespace Function

/-! ## Slots -/

/-- One slot for each parameter, by its place and its name. -/
def slotsBy (params : List String) (value : Nat → String → Option Value) : Slots :=
  params.mapIdx fun i p => (p, value i p)

section SlotsBy

variable {params : List String} {value : Nat → String → Option Value}

@[simp] lemma names_slotsBy : (slotsBy params value).map Prod.fst = params := by
  apply List.ext_getElem? fun i => ?_
  rw [slotsBy, List.getElem?_map, List.getElem?_mapIdx, Option.map_map]
  exact Option.map_id'

@[simp] lemma values_slotsBy :
    (slotsBy params value).map Prod.snd = params.mapIdx value := by
  apply List.ext_getElem? fun i => ?_
  rw [slotsBy, List.getElem?_map, List.getElem?_mapIdx, List.getElem?_mapIdx, Option.map_map]
  rfl

lemma mem_slotsBy {name : String} {slot : Option Value} :
    (name, slot) ∈ slotsBy params value ↔ ∃ i, params[i]? = some name ∧ value i name = slot := by
  simp only [slotsBy, List.mem_mapIdx, Prod.mk.injEq, List.getElem?_eq_some_iff]
  constructor
  · rintro ⟨i, hi, rfl, hslot⟩
    exact ⟨i, ⟨hi, rfl⟩, hslot⟩
  · rintro ⟨i, ⟨hi, rfl⟩, hslot⟩
    exact ⟨i, hi, rfl, hslot⟩

/-- The parameter at a place gets the positional argument at the same place. -/
lemma fillPositional_eq (params : List String) (args : List Value) :
    fillPositional params args = slotsBy params fun i _ => args[i]? := by
  unfold slotsBy
  induction params generalizing args with
  | nil => rfl
  | cons p ps ih =>
    cases args with
    | nil => simp [fillPositional, ih]
    | cons v vs => simp [fillPositional, ih]

/-- The slots that have no argument get the defaults of their places. -/
lemma fillDefaults_slotsBy (required : Nat) (defaults : List Value) :
    fillDefaults required defaults (slotsBy params value) = slotsBy params fun i p =>
      (value i p).or (if required ≤ i then defaults[i - required]? else none) := by
  unfold slotsBy
  induction params generalizing required defaults value with
  | nil => cases required <;> simp [fillDefaults]
  | cons p ps ih =>
    cases required with
    | succ required => simp [fillDefaults, ih]
    | zero =>
      cases defaults with
      | nil => simp [fillDefaults]
      | cons d ds => cases hv : value 0 p <;> simp [fillDefaults, ih, hv]

end SlotsBy

section Keywords

variable {function name : String} {v : Value} {slots : Slots}

lemma fillKeyword_unknown (h : name ∉ slots.map Prod.fst) :
    fillKeyword function name v slots = .error (.unexpectedKeyword function name) := by
  induction slots with
  | nil => rfl
  | cons slot rest ih =>
    obtain ⟨hne, hrest⟩ : name ≠ slot.1 ∧ name ∉ rest.map Prod.fst := by simpa using h
    simp [fillKeyword, Ne.symm hne, ih hrest, Except.map]

/-- A name is given to the one parameter of that name. -/
lemma fillKeyword_known (hnames : (slots.map Prod.fst).Nodup) {slot : Option Value}
    (h : (name, slot) ∈ slots) :
    fillKeyword function name v slots = match slot with
      | some _ => .error (.repeatedArgument function name)
      | none => .ok (slots.map fun s => if s.1 = name then (s.1, some v) else s) := by
  induction slots with
  | nil => cases h
  | cons first rest ih =>
    obtain ⟨p, value⟩ := first
    obtain ⟨hnew, hrest⟩ := List.nodup_cons.1 hnames
    by_cases hp : p = name
    · subst hp
      have hothers : ∀ s ∈ rest, s.1 ≠ p := fun s hs heq => hnew (List.mem_map.2 ⟨s, hs, heq⟩)
      have hslot : slot = value := by
        obtain heq | hmem := List.mem_cons.1 h
        · exact (Prod.mk.inj heq).2
        · exact absurd rfl (hothers _ hmem)
      have hkept : (rest.map fun s => if s.1 = p then (s.1, some v) else s) = rest := by
        refine (List.map_congr_left fun s hs => ?_).trans (List.map_id rest)
        simp [hothers s hs]
      subst hslot
      cases slot with
      | some w => simp [fillKeyword]
      | none => simp [fillKeyword, hkept]
    · have hmem : (name, slot) ∈ rest := by
        obtain heq | hmem := List.mem_cons.1 h
        · exact absurd (Prod.mk.inj heq).1.symm hp
        · exact hmem
      cases slot <;> simp [fillKeyword, hp, ih hrest hmem, Except.map]

/-- Each of the names is that of a parameter which has no argument yet, and no name comes twice. -/
structure Open (slots : Slots) (keywords : List (String × Value)) : Prop where
  empty : ∀ name ∈ keywords.map Prod.fst, (name, none) ∈ slots
  once : (keywords.map Prod.fst).Nodup

/-- The slots after the keyword arguments have been given to those that have none. -/
def give (keywords : List (String × Value)) (slots : Slots) : Slots :=
  slots.map fun s => (s.1, s.2.or (keywords.lookup s.1))

lemma give_slotsBy {params : List String} {value : Nat → String → Option Value}
    {keywords : List (String × Value)} :
    give keywords (slotsBy params value) =
      slotsBy params fun i p => (value i p).or (keywords.lookup p) := by
  apply List.ext_getElem? fun i => ?_
  simp only [give, slotsBy, List.getElem?_map, List.getElem?_mapIdx, Option.map_map]
  rfl

lemma open_cons {keywords : List (String × Value)} (hmem : (name, none) ∈ slots) :
    Open slots ((name, v) :: keywords) ↔
      Open (slots.map fun s => if s.1 = name then (s.1, some v) else s) keywords := by
  have hother : ∀ {other : String}, (other, none) ∈
      (slots.map fun s => if s.1 = name then (s.1, some v) else s) ↔
        (other, none) ∈ slots ∧ other ≠ name := by
    intro other
    simp only [List.mem_map]
    constructor
    · rintro ⟨s, hs, heq⟩
      split at heq
      · cases heq
      · next hne =>
        subst heq
        exact ⟨hs, hne⟩
    · rintro ⟨hs, hne⟩
      exact ⟨_, hs, by simp [hne]⟩
  constructor
  · rintro ⟨hempty, honce⟩
    obtain ⟨hnew, honce⟩ := List.nodup_cons.1 honce
    refine ⟨fun other ho => hother.2 ⟨hempty other (List.mem_cons_of_mem _ ho), ?_⟩, honce⟩
    rintro rfl
    exact hnew ho
  · rintro ⟨hempty, honce⟩
    refine ⟨fun other ho => ?_, List.nodup_cons.2 ⟨fun ho => ?_, honce⟩⟩
    · obtain rfl | ho := List.mem_cons.1 ho
      · exact hmem
      · exact (hother.1 (hempty other ho)).1
    · exact (hother.1 (hempty name ho)).2 rfl

lemma give_cons {keywords : List (String × Value)} (hnames : (slots.map Prod.fst).Nodup)
    (hmem : (name, none) ∈ slots) :
    give keywords (slots.map fun s => if s.1 = name then (s.1, some v) else s) =
      give ((name, v) :: keywords) slots := by
  simp only [give, List.map_map]
  refine List.map_congr_left fun s hs => ?_
  by_cases hs' : s.1 = name
  · have hnone : s.2 = none := by
      rw [List.inj_on_of_nodup_map hnames hs hmem hs']
    simp [hs', hnone]
  · have hne : (s.1 == name) = false := by simpa using hs'
    simp [hs', List.lookup_cons, hne]

/-- Keyword arguments are given to open slots, and to no others. -/
lemma fillKeywords_cases (function : String) (keywords : List (String × Value))
    (hnames : (slots.map Prod.fst).Nodup) :
    (Open slots keywords ∧ fillKeywords function keywords slots = .ok (give keywords slots)) ∨
    ¬ Open slots keywords ∧ ∃ c, fillKeywords function keywords slots = .error c ∧
      c.kind = .argumentBindingError := by
  induction keywords generalizing slots with
  | nil => exact .inl ⟨⟨by simp, List.nodup_nil⟩, by simp [fillKeywords, give]⟩
  | cons keyword rest ih =>
    obtain ⟨name, v⟩ := keyword
    by_cases hmem : (name, none) ∈ slots
    · have hsame : (slots.map fun s => if s.1 = name then (s.1, some v) else s).map Prod.fst =
          slots.map Prod.fst := by
        rw [List.map_map]
        refine List.map_congr_left fun s _ => ?_
        dsimp only [Function.comp]
        split <;> rfl
      rw [open_cons hmem, ← give_cons hnames hmem]
      simp only [fillKeywords, fillKeyword_known hnames hmem]
      exact ih (hsame ▸ hnames)
    · refine .inr ⟨fun hopen => hmem (hopen.empty name List.mem_cons_self), ?_⟩
      by_cases hname : name ∈ slots.map Prod.fst
      · obtain ⟨⟨p, slot⟩, hslot, rfl⟩ := List.mem_map.1 hname
        cases slot with
        | none => exact absurd hslot hmem
        | some w =>
          refine ⟨.repeatedArgument function p, ?_, rfl⟩
          simp only [fillKeywords, fillKeyword_known hnames hslot]
      · refine ⟨.unexpectedKeyword function name, ?_, rfl⟩
        simp only [fillKeywords, fillKeyword_unknown hname]

/-- Without a parameter that has no argument, the slots hold one for each. -/
lemma exists_of_missing_isEmpty (h : (missing slots).isEmpty) :
    ∃ args : List Value, args.map some = slots.map Prod.snd ∧
      (slots.filterMap fun (p, slot) => slot.map fun v => (p, v)) =
        (slots.map Prod.fst).zip args := by
  induction slots with
  | nil => exact ⟨[], rfl, rfl⟩
  | cons slot rest ih =>
    obtain ⟨p, value⟩ := slot
    cases value with
    | none => simp [missing] at h
    | some v =>
      obtain ⟨args, hargs, hbindings⟩ := ih (by simpa [missing] using h)
      exact ⟨v :: args, by simp [hargs], by simp [hbindings]⟩

lemma missing_isEmpty_iff : (missing slots).isEmpty ↔ ∀ s ∈ slots, s.2 ≠ none := by
  simp [missing, Option.isNone_iff_eq_none]

end Keywords

/-! ## Calls that fit -/

/-- The default of the parameter at a place.  Defaults belong to the last parameters. -/
def default? (F : Function) (i : Nat) : Option Value :=
  if F.params.length - F.defaults.length ≤ i
  then F.defaults[i - (F.params.length - F.defaults.length)]? else none

/-- What the parameter `p` at the place `i` is bound to: its positional argument, else its keyword
argument, else its default. -/
def argument? (F : Function) (positional : List Value) (keywords : List (String × Value)) (i : Nat)
    (p : String) : Option Value :=
  (positional[i]?.or (keywords.lookup p)).or (F.default? i)

/-- The names that a call binds are distinct. -/
structure DistinctNames (F : Function) : Prop where
  params : F.params.Nodup
  variadic : ∀ name, F.code.unit.variadicName? = some name → name ∉ F.params

/-- A call with these arguments fits the function. -/
structure Fits (F : Function) (positional : List Value) (keywords : List (String × Value)) :
    Prop where
  /-- There are parameters for all positional arguments, or the last one takes what is left over. -/
  room : positional.length ≤ F.params.length ∨ F.code.unit.variadic
  known : ∀ name ∈ keywords.map Prod.fst, name ∈ F.params
  once : (keywords.map Prod.fst).Nodup
  /-- A parameter with a positional argument is not named. -/
  unfilled : ∀ i p, F.params[i]? = some p → i < positional.length → p ∉ keywords.map Prod.fst
  /-- A parameter without a default has an argument. -/
  complete : ∀ i p, F.params[i]? = some p → i < F.params.length - F.defaults.length →
    i < positional.length ∨ p ∈ keywords.map Prod.fst

section Calls

variable {F : Function} {positional : List Value} {keywords : List (String × Value)}

lemma open_iff (hdistinct : F.params.Nodup) :
    Open (slotsBy F.params fun i _ => positional[i]?) keywords ↔
      (∀ name ∈ keywords.map Prod.fst, name ∈ F.params) ∧ (keywords.map Prod.fst).Nodup ∧
        ∀ i p, F.params[i]? = some p → i < positional.length → p ∉ keywords.map Prod.fst := by
  constructor
  · rintro ⟨hempty, honce⟩
    refine ⟨fun name hname => ?_, honce, fun i p hp hi hmem => ?_⟩
    · obtain ⟨j, hj, -⟩ := mem_slotsBy.1 (hempty name hname)
      exact List.mem_of_getElem? hj
    · obtain ⟨j, hj, hnone⟩ := mem_slotsBy.1 (hempty p hmem)
      have hij : i = j := by
        obtain ⟨hlt, heq⟩ := List.getElem?_eq_some_iff.1 hp
        obtain ⟨hlt', heq'⟩ := List.getElem?_eq_some_iff.1 hj
        exact hdistinct.getElem_inj_iff.1 (heq.trans heq'.symm)
      rw [← hij, List.getElem?_eq_none_iff] at hnone
      omega
  · rintro ⟨hknown, honce, hunfilled⟩
    refine ⟨fun name hname => ?_, honce⟩
    obtain ⟨i, hi⟩ := List.mem_iff_getElem?.1 (hknown name hname)
    refine mem_slotsBy.2 ⟨i, hi, List.getElem?_eq_none_iff.2 (Nat.not_lt.1 fun hlt => ?_)⟩
    exact hunfilled i name hi hlt hname

/-- Only the parameters before those that the defaults belong to have none. -/
lemma default?_eq_none_iff (hdefaults : F.defaults.length ≤ F.params.length) {i : Nat}
    (hi : i < F.params.length) :
    F.default? i = none ↔ i < F.params.length - F.defaults.length := by
  unfold default?
  split
  · rw [List.getElem?_eq_none_iff]
    omega
  · simp only [true_iff]
    omega

/-- A parameter has a value if it has a default, and otherwise if it has been given one. -/
lemma argument?_ne_none (hdefaults : F.defaults.length ≤ F.params.length) {i : Nat} {p : String}
    (hp : F.params[i]? = some p) :
    F.argument? positional keywords i p ≠ none ↔
      (i < F.params.length - F.defaults.length →
        i < positional.length ∨ p ∈ keywords.map Prod.fst) := by
  obtain ⟨hi, -⟩ := List.getElem?_eq_some_iff.1 hp
  have hlookup : keywords.lookup p = none ↔ p ∉ keywords.map Prod.fst := by
    rw [List.lookup_eq_none_iff]
    simp only [List.mem_map, not_exists, not_and, bne_iff_ne]
    exact ⟨fun h k hk heq => h k hk heq.symm, fun h k hk heq => h k hk heq.symm⟩
  simp only [argument?, ne_eq, Option.or_eq_none_iff, default?_eq_none_iff hdefaults hi, hlookup,
    List.getElem?_eq_none_iff]
  grind

/-- A call is accepted exactly when it fits. -/
lemma arrange_cases (hF : F.Checked) (hdistinct : F.params.Nodup) (positional : List Value)
    (keywords : List (String × Value)) :
    (F.Fits positional keywords ∧ ∃ args : List Value,
      args.map some = F.params.mapIdx (F.argument? positional keywords) ∧
      F.arrange F.params positional keywords = .ok (F.params.zip args)) ∨
    ¬ F.Fits positional keywords ∧ ∃ c, F.arrange F.params positional keywords = .error c ∧
      c.kind = .argumentBindingError := by
  have hroom : (F.params.length < positional.length ∧ F.code.unit.variadicName? = none) ↔
      ¬ (positional.length ≤ F.params.length ∨ F.code.unit.variadic) := by
    have hvariadic : F.code.unit.variadicName? = none ↔ ¬ F.code.unit.variadic := by
      refine ⟨fun hno hv => hF.variadic hv hno, fun hv => ?_⟩
      simp [UnitOver.variadicName?, hv]
    rw [hvariadic, not_or, Nat.not_le]
  unfold arrange
  rw [fillPositional_eq]
  by_cases hfull : F.params.length < positional.length ∧ F.code.unit.variadicName? = none
  · rw [if_pos hfull]
    exact .inr ⟨fun h => hroom.1 hfull h.room, _, rfl, rfl⟩
  · rw [if_neg hfull]
    have hroom' := Decidable.not_not.1 fun h => hfull (hroom.2 h)
    have hnames : ((slotsBy F.params fun i _ => positional[i]?).map Prod.fst).Nodup := by
      rw [names_slotsBy]
      exact hdistinct
    obtain ⟨hopen, hfill⟩ | ⟨hopen, c, hfill, hc⟩ := fillKeywords_cases F.name keywords hnames
    · obtain ⟨hknown, honce, hunfilled⟩ := (open_iff hdistinct).1 hopen
      have hfilled : fillDefaults (F.params.length - F.defaults.length) F.defaults
          (give keywords (slotsBy F.params fun i _ => positional[i]?)) =
            slotsBy F.params (F.argument? positional keywords) := by
        rw [give_slotsBy, fillDefaults_slotsBy]
        rfl
      rw [hfill]
      simp only [hfilled]
      by_cases hmissing : (missing (slotsBy F.params (F.argument? positional keywords))).isEmpty
      · rw [if_pos hmissing]
        refine .inl ⟨⟨hroom', hknown, honce, hunfilled, fun i p hp => ?_⟩, ?_⟩
        · refine (argument?_ne_none hF.defaults_le hp).1 ?_
          exact missing_isEmpty_iff.1 hmissing _ (mem_slotsBy.2 ⟨i, hp, rfl⟩)
        · obtain ⟨args, hargs, hbindings⟩ := exists_of_missing_isEmpty hmissing
          rw [values_slotsBy] at hargs
          rw [names_slotsBy] at hbindings
          exact ⟨args, hargs, congrArg _ hbindings⟩
      · rw [if_neg hmissing]
        refine .inr ⟨fun hfits => hmissing (missing_isEmpty_iff.2 fun s hs => ?_), _, rfl, rfl⟩
        obtain ⟨i, hp, hvalue⟩ := mem_slotsBy.1 hs
        rw [← hvalue]
        exact (argument?_ne_none hF.defaults_le hp).2 (hfits.complete i _ hp)
    · rw [hfill]
      refine .inr ⟨fun hfits => hopen ((open_iff hdistinct).2 ?_), c, rfl, hc⟩
      exact ⟨hfits.known, hfits.once, hfits.unfilled⟩

/-! ## The locals of a call -/

/-- What is left over of the positional arguments, for the function that has a name for it.  The
tuple is a new object and gets the number `id`. -/
def surplus (F : Function) (positional : List Value) (id : Nat) : List (String × Value) :=
  match F.code.unit.variadicName? with
  | some name => [(name, .tuple id (positional.drop F.params.length))]
  | none => []

lemma startLocals_eq (F : Function) (positional : List Value) (keywords : List (String × Value)) :
    F.startLocals positional keywords = (do
      let bindings ← HeapM.ofExcept (F.arrange F.params positional keywords)
      match F.code.unit.variadicName? with
      | none => HeapM.make (Heap.newTable (Dictionary.ofList bindings))
      | some name =>
        let rest ← HeapM.tuple (positional.drop F.params.length)
        HeapM.make (Heap.newTable ((Dictionary.ofList bindings).insert name rest))) := rfl

/-- The table that is made of arguments is in the order of the parameters. -/
lemma startLocals_of_arrange {args : List Value} (hdistinct : F.DistinctNames)
    (hlength : args.length = F.params.length)
    (hargs : F.arrange F.params positional keywords = .ok (F.params.zip args)) (h : Heap) :
    ∃ locals h', F.startLocals positional keywords h = .ok locals h' ∧
      (h'.table locals).entries = F.params.zip args ++ F.surplus positional h.nextId := by
  have hnames : (F.params.zip args).map Prod.fst = F.params :=
    List.map_fst_zip (Nat.le_of_eq hlength.symm)
  have hentries : (Dictionary.ofList (F.params.zip args)).entries = F.params.zip args := by
    have hpairwise : ((F.params.zip args).map Prod.fst).Pairwise (· ≠ ·) :=
      hnames.symm ▸ hdistinct.params
    refine Dictionary.entries_ofList ((List.pairwise_map.1 hpairwise).imp fun hne => ?_)
    exact beq_eq_false_iff_ne.2 hne
  rw [startLocals_eq, hargs]
  unfold surplus
  cases hname : F.code.unit.variadicName? with
  | none => exact ⟨_, _, rfl, by simp [Heap.table, hentries]⟩
  | some name =>
    have hnew : ∀ entry ∈ F.params.zip args, (entry.1 == name) = false := by
      intro entry hentry
      have hmem : entry.1 ∈ F.params := hnames ▸ List.mem_map_of_mem hentry
      refine beq_eq_false_iff_ne.2 fun heq => hdistinct.variadic name hname ?_
      exact heq ▸ hmem
    refine ⟨_, _, rfl, ?_⟩
    simp [Heap.table, Dictionary.insert, hentries, Dictionary.insertInto_of_forall_ne hnew]

/-- The fault of a cause is of the cause's kind. -/
lemma newFault_kind (h : Heap) (c : Cause) : (h.newFault c).1.kind = c.kind := by
  cases c <;> rfl

end Calls

/-- **Binding arguments.**  Of a function there are not more defaults than parameters, and each of
the parameters that they belong to has one.  A call of it, if the names that are bound are distinct,
is accepted exactly when its arguments fit: then the locals are the parameters, in the order of
their declaration, with their arguments, and behind them what is left over.  Otherwise the call is
refused, and what the guest sees is an error of argument binding. -/
theorem binding_exact {F : Function} (hdistinct : F.DistinctNames) (positional : List Value)
    (keywords : List (String × Value)) (h : Heap) :
    F.defaults.length ≤ F.params.length ∧
    (∀ i, F.params.length - F.defaults.length ≤ i → i < F.params.length → F.default? i ≠ none) ∧
    match F.startLocals positional keywords h with
    | .ok locals h' => F.Fits positional keywords ∧ ∃ args : List Value,
        args.map some = F.params.mapIdx (F.argument? positional keywords) ∧
        (h'.table locals).entries = F.params.zip args ++ F.surplus positional h.nextId
    | .error cause h' => ¬ F.Fits positional keywords ∧
        (h'.newFault cause).1.kind = .argumentBindingError := by
  have hchecked := F.checked
  refine ⟨hchecked.defaults_le, fun i hi hlt => ?_, ?_⟩
  · rw [ne_eq, default?_eq_none_iff hchecked.defaults_le hlt]
    exact Nat.not_lt.2 hi
  · obtain ⟨hfits, args, hargs, harrange⟩ | ⟨hfits, c, harrange, hc⟩ :=
      arrange_cases hchecked hdistinct.params positional keywords
    · have hlength : args.length = F.params.length := by simpa using congrArg List.length hargs
      obtain ⟨locals, h', hstart, hentries⟩ :=
        startLocals_of_arrange hdistinct hlength harrange h
      rw [hstart]
      exact ⟨hfits, args, hargs, hentries⟩
    · have hstart : F.startLocals positional keywords h = .error c h := by
        rw [startLocals_eq, harrange]
        rfl
      rw [hstart]
      exact ⟨hfits, (newFault_kind h c).trans hc⟩

/-- A function of two parameters that collects what is left over; the second parameter has the
default seven. -/
def collecting : Function where
  name := "f"
  code := ⟨0, [], { (.named "f" : CodeUnit) with
    localNames := ["a", "b", "rest"]
    paramCount := 2
    variadic := true }⟩
  defaults := [.int 7]
  globals := default
  closure := []
  attributes := default
  accepted := by decide

/-- It is called with a value for its first parameter only, and the other one gets its default; a
call that gives this value a second time, by name, does not fit. -/
theorem binding_exact_collecting :
    collecting.DistinctNames ∧
    (∃ locals h', collecting.startLocals [.int 1] [] .empty = .ok locals h' ∧
      collecting.Fits [.int 1] [] ∧
      (h'.table locals).entries = [("a", .int 1), ("b", .int 7), ("rest", .tuple 0 [])]) ∧
    ¬ collecting.Fits [.int 1] [("a", .int 1)] := by
  have hdistinct : collecting.DistinctNames := by
    refine ⟨by decide, fun name hname => ?_⟩
    cases hname
    decide
  obtain ⟨-, -, hfits, args, hargs, hentries⟩ := binding_exact hdistinct [.int 1] [] .empty
  obtain ⟨-, -, hrefused, -⟩ := binding_exact hdistinct [.int 1] [("a", .int 1)] .empty
  refine ⟨hdistinct, ⟨_, _, rfl, hfits, hentries.trans ?_⟩, hrefused⟩
  have hinjective : Function.Injective (some : Value → Option Value) := fun _ _ => Option.some.inj
  obtain rfl : args = [.int 1, .int 7] := List.map_injective_iff.2 hinjective hargs
  rfl

end Function

end StackMachine
