import Mathlib.Data.Prod.Lex
import Mathlib.Logic.Relation
import StackMachine.Object.Rendering
import StackMachine.Proofs.Bisimulation
/-!
# Text and equality of cyclic values

Lists and maps may contain themselves, directly or through tuples, other containers and the
arguments of exceptions.  Writing such a value goes on to what is in it, and comparing two of them
to what faces each other in them.  Both come to an end all the same, and this module says why, and
what the result is.

An `Outline` is what a text is made of.  `Outlines` says which outline a value has at a place, that
is, inside the containers that are open there: it has one rule for each case, nothing in it counts
down, and a container is elided by one rule only.  That there is always exactly one outline rests on
`below_wellFounded`: each step down opens one more container, of which there are at most
`nestingLimit`, or goes from an exception to its argument, which is a smaller value.  For equality
the same is said by `Compares`.
-/

namespace StackMachine

/-! ## Outlines -/

/-- What the text of a value is made of. -/
inductive Outline where
  | atom (text : String)
  /-- A container of which only the brackets are written. -/
  | elided (opening closing : String)
  | tuple (items : List Outline)
  | list (items : List Outline)
  | map (entries : List (Outline × Outline))
  /-- An exception without an argument. -/
  | bare (kind : ExceptionKind)
  | exception (kind : ExceptionKind) (argument : Outline)
  deriving Inhabited

namespace Outline

mutual

/-- The text that is outlined.  The only item of a tuple is followed by a comma. -/
def text : Outline → String
  | atom s => s
  | elided opening closing => opening ++ "..." ++ closing
  | tuple items =>
    "(" ++ String.intercalate ", " (texts items) ++ (if items.length = 1 then ",)" else ")")
  | list items => "[" ++ String.intercalate ", " (texts items) ++ "]"
  | map entries => "\x7b" ++ String.intercalate ", " (entryTexts entries) ++ "\x7d"
  | bare kind => kind.name ++ "()"
  | exception kind argument => kind.name ++ "(" ++ argument.text ++ ")"

def texts : List Outline → List String
  | [] => []
  | o :: os => o.text :: texts os

def entryTexts : List (Outline × Outline) → List String
  | [] => []
  | (key, value) :: rest => (key.text ++ ": " ++ value.text) :: entryTexts rest

end

lemma texts_eq (os : List Outline) : texts os = os.map text := by
  induction os with
  | nil => rfl
  | cons o os ih => rw [texts, ih, List.map_cons]

lemma entryTexts_eq (entries : List (Outline × Outline)) :
    entryTexts entries = entries.map fun entry => entry.1.text ++ ": " ++ entry.2.text := by
  induction entries with
  | nil => rfl
  | cons entry rest ih => rw [entryTexts, ih, List.map_cons]

/-- The text that is made of a tuple is the one that is outlined. -/
lemma tupleText_texts (items : List Outline) :
    Const.tupleText (texts items) = (tuple items).text := by
  match items with
  | [] => rfl
  | [o] => rw [text, texts, texts, String.intercalate_singleton]; rfl
  | o :: o' :: rest => rfl

/-- Nothing is elided, at any depth. -/
inductive Complete : Outline → Prop
  | atom {s : String} : Complete (.atom s)
  | tuple {items : List Outline} (h : ∀ o ∈ items, Complete o) : Complete (.tuple items)
  | list {items : List Outline} (h : ∀ o ∈ items, Complete o) : Complete (.list items)
  | map {entries : List (Outline × Outline)} (hkeys : ∀ entry ∈ entries, Complete entry.1)
    (hvalues : ∀ entry ∈ entries, Complete entry.2) : Complete (.map entries)
  | bare {kind : ExceptionKind} : Complete (.bare kind)
  | exception {kind : ExceptionKind} {argument : Outline} (h : Complete argument) :
    Complete (.exception kind argument)

lemma complete_tuple_iff {items : List Outline} :
    (tuple items).Complete ↔ ∀ o ∈ items, o.Complete := by
  constructor
  · rintro ⟨⟩
    assumption
  · exact .tuple

lemma complete_list_iff {items : List Outline} :
    (list items).Complete ↔ ∀ o ∈ items, o.Complete := by
  constructor
  · rintro ⟨⟩
    assumption
  · exact .list

lemma complete_map_iff {entries : List (Outline × Outline)} :
    (map entries).Complete ↔
      (∀ entry ∈ entries, entry.1.Complete) ∧ ∀ entry ∈ entries, entry.2.Complete := by
  constructor
  · rintro ⟨⟩
    constructor <;> assumption
  · rintro ⟨hkeys, hvalues⟩
    exact .map hkeys hvalues

lemma complete_exception_iff {kind : ExceptionKind} {argument : Outline} :
    (exception kind argument).Complete ↔ argument.Complete := by
  constructor
  · rintro ⟨⟩
    assumption
  · exact .exception

end Outline

/-! ## Keys -/

namespace Key

mutual

/-- How many tuples are nested in a key. -/
def depth : Key → Nat
  | .tuple items => depths items + 1
  | _ => 0

def depths : List Key → Nat
  | [] => 0
  | k :: ks => max (depth k) (depths ks)

end

mutual

/-- The outline of a key inside some number of containers. -/
def outline (opened : Nat) : Key → Outline
  | .none => .atom "None"
  | .bool b => .atom (if b then "True" else "False")
  | .int n => .atom (Integer.text n)
  | .str _ s => .atom (Text.Quoted.quote s)
  | .tuple items =>
    if nestingLimit ≤ opened then .elided "(" ")" else .tuple (outlines (opened + 1) items)

def outlines (opened : Nat) : List Key → List Outline
  | [] => []
  | k :: ks => outline opened k :: outlines opened ks

end

mutual

lemma text_outline : (k : Key) → (opened : Nat) →
    (k.outline opened).text = k.textWithin (nestingLimit - opened)
  | .none, _ | .bool _, _ | .int _, _ | .str .., _ => rfl
  | .tuple items, opened => by
    rw [outline, textWithin]
    by_cases hfull : nestingLimit ≤ opened
    · rw [if_pos hfull, if_pos (Nat.sub_eq_zero_of_le hfull)]
      rfl
    · rw [if_neg hfull, if_neg (by omega), ← Outline.tupleText_texts, texts_outlines, Nat.sub_sub]

lemma texts_outlines : (ks : List Key) → (opened : Nat) →
    Outline.texts (outlines opened ks) = textsWithin (nestingLimit - opened) ks
  | [], _ => rfl
  | k :: ks, opened => by
    rw [outlines, Outline.texts, text_outline, texts_outlines, textsWithin]

end

mutual

/-- A key is written completely if there is room for all tuples that are nested in it. -/
lemma complete_outline_iff : (k : Key) → {opened : Nat} → opened ≤ nestingLimit →
    ((k.outline opened).Complete ↔ opened + k.depth ≤ nestingLimit)
  | .none, _, h | .bool _, _, h | .int _, _, h | .str .., _, h => iff_of_true .atom h
  | .tuple items, opened, h => by
    rw [outline, depth]
    by_cases hfull : nestingLimit ≤ opened
    · rw [if_pos hfull]
      refine iff_of_false nofun ?_
      omega
    · rw [if_neg hfull, Outline.complete_tuple_iff, complete_outlines_iff items (by omega)]
      omega

lemma complete_outlines_iff : (ks : List Key) → {opened : Nat} → opened ≤ nestingLimit →
    ((∀ o ∈ outlines opened ks, o.Complete) ↔ opened + depths ks ≤ nestingLimit)
  | [], opened, h => iff_of_true (List.forall_mem_nil _) h
  | k :: ks, opened, h => by
    rw [outlines, List.forall_mem_cons, complete_outline_iff k h, complete_outlines_iff ks h,
      depths]
    omega

end

end Key

/-! ## Places -/

/-- The brackets around what is in a container. -/
def Value.brackets : Value → String × String
  | .tuple .. => ("(", ")")
  | .list _ => ("[", "]")
  | .map _ => ("\x7b", "\x7d")
  | _ => ("", "")

/-- A value on a way down, with the addresses of the containers that are open there, innermost
first. -/
structure Place where
  opened : List Address
  value : Value

namespace Place

open Value

variable {h : Heap} {p q : Place} {opened : List Address} {v : Value}

/-- The container at the place is open already, or too many of them are. -/
def Elided (p : Place) : Prop :=
  ∃ a, p.value.address? = some a ∧ (a ∈ p.opened ∨ nestingLimit ≤ p.opened.length)

lemma not_elided_of_address? (hv : v.address? = Option.none) : ¬Elided ⟨opened, v⟩ := by
  rintro ⟨a, ha, -⟩
  exact absurd (hv.symm.trans ha) nofun

/-- One step down: from a container to what is in it, or from an exception to its argument.  The
latter opens nothing. -/
inductive Below (h : Heap) : Place → Place → Prop
  | content {opened : List Address} {v c : Value} {a : Address} (ha : v.address? = some a)
    (hc : c ∈ v.contents h) : Below h ⟨opened, v⟩ ⟨a :: opened, c⟩
  | argument {opened : List Address} {id : Nat} {kind : ExceptionKind} {arg : Value} :
    Below h ⟨opened, .exception id kind arg⟩ ⟨opened, arg⟩

/-- The room for more containers, and for exceptions between two of them. -/
noncomputable def measure (p : Place) : Nat ×ₗ Nat :=
  toLex (nestingLimit - p.opened.length, sizeOf p.value)

/-- No way down is endless that does not go into elided containers.  An exception opens nothing, but
it was made from its argument, so its argument is the smaller value. -/
lemma below_wellFounded (h : Heap) : WellFounded fun q p : Place => ¬p.Elided ∧ Below h p q := by
  refine Subrelation.wf ?_ (InvImage.wf measure wellFounded_lt)
  rintro q p ⟨helided, hbelow⟩
  show toLex _ < toLex _
  rw [Prod.Lex.toLex_lt_toLex]
  cases hbelow with
  | @content opened v c a ha hc =>
    have hroom : opened.length < nestingLimit := by
      by_contra hfull
      exact helided ⟨a, ha, .inr (Nat.le_of_not_lt hfull)⟩
    left
    show nestingLimit - (opened.length + 1) < nestingLimit - opened.length
    omega
  | @argument opened id kind arg =>
    right
    refine ⟨rfl, ?_⟩
    show sizeOf arg < sizeOf (Value.exception id kind arg)
    rw [Value.exception.sizeOf_spec]
    omega

/-! ## The text at a place -/

/-- What is written at a place. -/
def text (h : Heap) (quoted : Bool) (p : Place) : String :=
  textWithin h (nestingLimit - p.opened.length) p.opened quoted p.value

/-- What is written there of a value without the exceptions around it. -/
def core (h : Heap) (quoted : Bool) (opened : List Address) (v : Value) : String :=
  match nestingLimit - opened.length with
  | 0 => coreText h 0 .none opened quoted v
  | room + 1 =>
    coreText h (room + 1) (some fun opened w => textWithin h room opened true w) opened quoted v

lemma text_eq_dressedText (h : Heap) (quoted : Bool) (opened : List Address) (v : Value) :
    text h quoted ⟨opened, v⟩ = dressedText (core h quoted opened) quoted v := by
  unfold text core
  dsimp only
  cases nestingLimit - opened.length with
  | zero => rfl
  | succ room => rfl

lemma dressedText_of_not_exception {write : Value → String}
    (hv : ∀ id kind arg, v ≠ .exception id kind arg) (quoted : Bool) :
    dressedText write quoted v = write v := by
  have hpeel : v.peel = ([], v) := by
    cases v with
    | exception id kind arg => exact absurd rfl (hv id kind arg)
    | _ => rfl
  rw [dressedText, hpeel]
  cases quoted <;> rfl

/-- The text of a value that is neither a container nor an exception. -/
lemma text_of_atom (hv : v.address? = Option.none)
    (hexception : ∀ id kind arg, v ≠ .exception id kind arg) (quoted : Bool) :
    text h quoted ⟨opened, v⟩ = v.atomText h quoted := by
  rw [text_eq_dressedText, dressedText_of_not_exception hexception, core]
  split
  all_goals
    cases v with
    | tuple | list | map => cases hv
    | _ => rfl

lemma text_of_elided (helided : Elided ⟨opened, v⟩) (quoted : Bool) :
    text h quoted ⟨opened, v⟩ = (Outline.elided v.brackets.1 v.brackets.2).text := by
  obtain ⟨a, ha, hcut⟩ := helided
  have hexception : ∀ id kind arg, v ≠ .exception id kind arg := by
    rintro id kind arg rfl
    cases ha
  rw [text_eq_dressedText, dressedText_of_not_exception hexception, core]
  split
  · cases v with
    | tuple | list | map => rfl
    | _ => cases ha
  · next hroom =>
    have hmem : a ∈ opened := hcut.resolve_right (by dsimp only; omega)
    cases v with
    | tuple | list | map =>
      cases ha
      simp [coreText, hmem]
      rfl
    | _ => cases ha

/-- An exception without an argument shows its class, or nothing at all. -/
lemma text_of_bare {id : Nat} {kind : ExceptionKind} (quoted : Bool) :
    text h quoted ⟨opened, .exception id kind .none⟩ =
      if quoted then kind.name ++ "()" else "" := by
  rw [text_eq_dressedText]
  cases quoted with
  | false => rfl
  | true =>
    show kind.name ++ "(" ++ "" ++ ")" = kind.name ++ "()"
    rw [String.append_empty, String.append_assoc]
    rfl

lemma dressedText_exception {write : Value → String} {id : Nat} {kind : ExceptionKind}
    {arg : Value} (harg : arg ≠ .none) (quoted : Bool) :
    dressedText write quoted (.exception id kind arg) =
      if quoted then kind.name ++ "(" ++ dressedText write quoted arg ++ ")"
      else dressedText write quoted arg := by
  by_cases hchain : ∃ id' kind' arg', arg = .exception id' kind' arg'
  · obtain ⟨id', kind', arg', rfl⟩ := hchain
    simp only [dressedText, peel]
    cases arg'.peel.2 <;> cases quoted <;> rfl
  · have hpeel : (Value.exception id kind arg).peel = ([kind], arg) := by
      cases arg with
      | exception id' kind' arg' => exact absurd ⟨id', kind', arg', rfl⟩ hchain
      | _ => rfl
    rw [dressedText_of_not_exception fun id' kind' arg' h => hchain ⟨id', kind', arg', h⟩,
      dressedText, hpeel]
    cases arg with
    | none => exact absurd rfl harg
    | _ => cases quoted <;> rfl

/-- An exception shows its argument behind its class, or only its argument. -/
lemma text_of_exception {id : Nat} {kind : ExceptionKind} {arg : Value} (harg : arg ≠ .none)
    (quoted : Bool) : text h quoted ⟨opened, .exception id kind arg⟩ =
      if quoted then kind.name ++ "(" ++ text h quoted ⟨opened, arg⟩ ++ ")"
      else text h quoted ⟨opened, arg⟩ := by
  rw [text_eq_dressedText, text_eq_dressedText, dressedText_exception harg]

/-- There is room for the contents of a container that is not elided. -/
lemma room_of_not_elided {a : Address} (ha : v.address? = some a)
    (hwritten : ¬Elided ⟨opened, v⟩) :
    a ∉ opened ∧ nestingLimit - opened.length = nestingLimit - (opened.length + 1) + 1 := by
  have hfresh : a ∉ opened := fun hmem => hwritten ⟨a, ha, .inl hmem⟩
  have hroom : ¬nestingLimit ≤ opened.length := fun hfull => hwritten ⟨a, ha, .inr hfull⟩
  exact ⟨hfresh, by omega⟩

lemma text_of_tuple {id : Nat} {items : List Value} (hwritten : ¬Elided ⟨opened, .tuple id items⟩)
    (quoted : Bool) : text h quoted ⟨opened, .tuple id items⟩ =
      Const.tupleText (items.map fun c => text h true ⟨.tuple id :: opened, c⟩) := by
  obtain ⟨hfresh, hroom⟩ := room_of_not_elided rfl hwritten
  unfold text
  simp only [hroom, textWithin, dressedText, peel, coreText, List.length_cons]
  simp [hfresh]

lemma text_of_list {r : Ref .list} (hwritten : ¬Elided ⟨opened, .list r⟩) (quoted : Bool) :
    text h quoted ⟨opened, .list r⟩ = "[" ++ String.intercalate ", "
      ((h.list r).toList.map fun c => text h true ⟨.list r :: opened, c⟩) ++ "]" := by
  obtain ⟨hfresh, hroom⟩ := room_of_not_elided rfl hwritten
  unfold text
  simp only [hroom, textWithin, dressedText, peel, coreText, List.length_cons]
  simp [hfresh]

lemma text_of_map {r : Ref .map} (hwritten : ¬Elided ⟨opened, .map r⟩) (quoted : Bool) :
    text h quoted ⟨opened, .map r⟩ = "\x7b" ++ String.intercalate ", "
      ((h.map r).entries.map fun entry =>
        entry.1.textWithin (nestingLimit - (opened.length + 1)) ++ ": " ++
          text h true ⟨.map r :: opened, entry.2⟩) ++ "\x7d" := by
  obtain ⟨hfresh, hroom⟩ := room_of_not_elided rfl hwritten
  unfold text
  simp only [hroom, textWithin, dressedText, peel, coreText, List.length_cons]
  simp [hfresh]

end Place

/-! ## Atoms -/

namespace Value

/-- The text of a value that is neither a container nor an exception.  Only strings have two. -/
inductive Atomic (h : Heap) : Bool → Value → String → Prop
  | none {quoted : Bool} : Atomic h quoted .none "None"
  | true {quoted : Bool} : Atomic h quoted (.bool true) "True"
  | false {quoted : Bool} : Atomic h quoted (.bool false) "False"
  | int {quoted : Bool} {n : Int64} : Atomic h quoted (.int n) (Integer.text n)
  | float {quoted : Bool} {x : Double} : Atomic h quoted (.float x) x.text
  | quotedStr {id : Nat} {s : String} : Atomic h true (.str id s) (Text.Quoted.quote s)
  | plainStr {id : Nat} {s : String} : Atomic h false (.str id s) s
  | iterator {quoted : Bool} {r : Ref .cursor} : Atomic h quoted (.iterator r) "<iterator>"
  | function {quoted : Bool} {r : Ref .function} :
    Atomic h quoted (.function r) ("<function " ++ (h.function r).name ++ ">")
  | builtin {quoted : Bool} {b : Builtin} :
    Atomic h quoted (.builtin b) ("<built-in function " ++ b.name ++ ">")
  | method {quoted : Bool} {id : Nat} {receiver : Value} {m : Method} :
    Atomic h quoted (.method id receiver m)
      ("<built-in method " ++ m.name ++ " of " ++ receiver.typeName ++ " object>")
  | code {quoted : Bool} {object : CodeObject} :
    Atomic h quoted (.code object) ("<code " ++ object.unit.name ++ ">")
  | cell {quoted : Bool} {r : Ref .cell} : Atomic h quoted (.cell r) "<cell>"
  | exceptionType {quoted : Bool} {kind : ExceptionKind} :
    Atomic h quoted (.exceptionType kind) ("<class '" ++ kind.name ++ "'>")
  | traceback {quoted : Bool} {id : Nat} {entries : List TraceEntry} :
    Atomic h quoted (.traceback id entries)
      ("<traceback of " ++ toString entries.length ++ " entries>")
  | why {quoted : Bool} {w : Why} : Atomic h quoted (.why w) ("<why " ++ w.name ++ ">")

variable {h : Heap} {quoted : Bool} {v : Value} {s : String}

lemma atomic_iff : Atomic h quoted v s ↔
    v.address? = Option.none ∧ (∀ id kind arg, v ≠ .exception id kind arg) ∧
      s = v.atomText h quoted := by
  constructor
  · rintro (_ | _) <;> exact ⟨rfl, nofun, rfl⟩
  · rintro ⟨hv, hexception, rfl⟩
    cases v with
    | tuple | list | map => cases hv
    | exception id kind arg => exact absurd rfl (hexception id kind arg)
    | bool b => cases b <;> constructor
    | str id s => cases quoted <;> constructor
    | _ => constructor

lemma Atomic.address? (hv : Atomic h quoted v s) : v.address? = Option.none := (atomic_iff.1 hv).1

lemma Atomic.not_exception (hv : Atomic h quoted v s) (id : Nat) (kind : ExceptionKind)
    (arg : Value) : v ≠ .exception id kind arg := (atomic_iff.1 hv).2.1 id kind arg

end Value

/-! ## The outline at a place -/

/-- The outline of the value at a place, which has one of two forms.  What is in a container is
always quoted. -/
inductive Outlines (h : Heap) : Bool → Place → Outline → Prop
  | atom {quoted : Bool} {opened : List Address} {v : Value} {s : String}
    (hatomic : v.Atomic h quoted s) : Outlines h quoted ⟨opened, v⟩ (.atom s)
  | elided {quoted : Bool} {opened : List Address} {v : Value}
    (helided : Place.Elided ⟨opened, v⟩) :
    Outlines h quoted ⟨opened, v⟩ (.elided v.brackets.1 v.brackets.2)
  | tuple {quoted : Bool} {opened : List Address} {id : Nat} {items : List Value}
    {f : Value → Outline} (hwritten : ¬Place.Elided ⟨opened, .tuple id items⟩)
    (hitems : ∀ c ∈ items, Outlines h true ⟨.tuple id :: opened, c⟩ (f c)) :
    Outlines h quoted ⟨opened, .tuple id items⟩ (.tuple (items.map f))
  | list {quoted : Bool} {opened : List Address} {r : Ref .list} {f : Value → Outline}
    (hwritten : ¬Place.Elided ⟨opened, .list r⟩)
    (hitems : ∀ c ∈ (h.list r).toList, Outlines h true ⟨.list r :: opened, c⟩ (f c)) :
    Outlines h quoted ⟨opened, .list r⟩ (.list ((h.list r).toList.map f))
  | map {quoted : Bool} {opened : List Address} {r : Ref .map} {f : Value → Outline}
    (hwritten : ¬Place.Elided ⟨opened, .map r⟩)
    (hvalues : ∀ entry ∈ (h.map r).entries,
      Outlines h true ⟨.map r :: opened, entry.2⟩ (f entry.2)) :
    Outlines h quoted ⟨opened, .map r⟩ (.map ((h.map r).entries.map fun entry =>
      (entry.1.outline (opened.length + 1), f entry.2)))
  | bare {opened : List Address} {id : Nat} {kind : ExceptionKind} :
    Outlines h true ⟨opened, .exception id kind .none⟩ (.bare kind)
  | blank {opened : List Address} {id : Nat} {kind : ExceptionKind} :
    Outlines h false ⟨opened, .exception id kind .none⟩ (.atom "")
  | exception {opened : List Address} {id : Nat} {kind : ExceptionKind} {arg : Value} {o : Outline}
    (harg : arg ≠ .none) (hargument : Outlines h true ⟨opened, arg⟩ o) :
    Outlines h true ⟨opened, .exception id kind arg⟩ (.exception kind o)
  | argument {opened : List Address} {id : Nat} {kind : ExceptionKind} {arg : Value} {o : Outline}
    (harg : arg ≠ .none) (hargument : Outlines h false ⟨opened, arg⟩ o) :
    Outlines h false ⟨opened, .exception id kind arg⟩ o

namespace Outlines

variable {h : Heap} {quoted : Bool} {p : Place} {o o' : Outline}

/-- The text at a place is that of the outline. -/
lemma text_eq (ho : Outlines h quoted p o) : p.text h quoted = o.text := by
  induction ho with
  | atom hv =>
    obtain ⟨haddress, hexception, rfl⟩ := Value.atomic_iff.1 hv
    exact Place.text_of_atom haddress hexception _
  | elided helided => exact Place.text_of_elided helided _
  | tuple hwritten _ ih =>
    rw [Place.text_of_tuple hwritten, ← Outline.tupleText_texts, Outline.texts_eq, List.map_map]
    exact congrArg _ (List.map_congr_left ih)
  | list hwritten _ ih =>
    rw [Place.text_of_list hwritten, Outline.text, Outline.texts_eq, List.map_map]
    exact congrArg (fun texts => "[" ++ String.intercalate ", " texts ++ "]")
      (List.map_congr_left ih)
  | map hwritten _ ih =>
    rw [Place.text_of_map hwritten, Outline.text, Outline.entryTexts_eq, List.map_map]
    refine congrArg (fun texts => "\x7b" ++ String.intercalate ", " texts ++ "\x7d")
      (List.map_congr_left fun entry hentry => ?_)
    rw [ih entry hentry, ← Key.text_outline]
    rfl
  | bare => exact Place.text_of_bare true
  | blank => exact Place.text_of_bare false
  | exception harg _ ih =>
    rw [Place.text_of_exception harg, ih]
    rfl
  | argument harg _ ih =>
    rw [Place.text_of_exception harg, ih]
    rfl

/-- Every value has an outline at every place.  The induction is on the ways down, which are not
endless. -/
lemma exists_outline (h : Heap) (p : Place) (quoted : Bool) : ∃ o, Outlines h quoted p o := by
  induction p using (Place.below_wellFounded h).induction generalizing quoted with
  | _ p ih =>
    obtain ⟨opened, v⟩ := p
    by_cases helided : Place.Elided ⟨opened, v⟩
    · exact ⟨_, .elided helided⟩
    have hcontents : ∀ a, v.address? = some a → ∀ c ∈ v.contents h,
        ∃ o, Outlines h true ⟨a :: opened, c⟩ o :=
      fun a ha c hc => ih _ ⟨helided, .content ha hc⟩ true
    cases v with
    | tuple id items =>
      choose! f hf using hcontents _ rfl
      exact ⟨_, .tuple helided hf⟩
    | list r =>
      choose! f hf using hcontents _ rfl
      exact ⟨_, .list helided hf⟩
    | map r =>
      choose! f hf using hcontents _ rfl
      exact ⟨_, .map helided fun entry hentry => hf _ (List.mem_map_of_mem hentry)⟩
    | exception id kind arg =>
      obtain ⟨o, ho⟩ := ih _ ⟨helided, .argument⟩ quoted
      by_cases harg : arg = .none
      · subst harg
        cases quoted with
        | true => exact ⟨_, .bare⟩
        | false => exact ⟨_, .blank⟩
      · cases quoted with
        | true => exact ⟨_, .exception harg ho⟩
        | false => exact ⟨_, .argument harg ho⟩
    | _ => exact ⟨_, .atom (Value.atomic_iff.2 ⟨rfl, nofun, rfl⟩)⟩

/-- There is no other outline. -/
lemma unique (ho : Outlines h quoted p o) (ho' : Outlines h quoted p o') : o' = o := by
  induction ho generalizing o' with
  | atom hv =>
    cases ho' with
    | atom hv' => rw [(Value.atomic_iff.1 hv).2.2, (Value.atomic_iff.1 hv').2.2]
    | elided helided => exact absurd helided (Place.not_elided_of_address? hv.address?)
    | tuple | list | map => cases hv
    | bare | blank | exception | argument => cases hv
  | elided helided =>
    cases ho' with
    | atom hv => exact absurd helided (Place.not_elided_of_address? hv.address?)
    | elided => rfl
    | tuple hwritten | list hwritten | map hwritten => exact absurd helided hwritten
    | bare | blank | exception | argument =>
      exact absurd helided (Place.not_elided_of_address? rfl)
  | tuple hwritten _ ih =>
    cases ho' with
    | atom hv => cases hv
    | elided helided => exact absurd helided hwritten
    | tuple _ hitems =>
      exact congrArg Outline.tuple (List.map_congr_left fun c hc => ih c hc (hitems c hc))
  | list hwritten _ ih =>
    cases ho' with
    | atom hv => cases hv
    | elided helided => exact absurd helided hwritten
    | list _ hitems =>
      exact congrArg Outline.list (List.map_congr_left fun c hc => ih c hc (hitems c hc))
  | map hwritten _ ih =>
    cases ho' with
    | atom hv => cases hv
    | elided helided => exact absurd helided hwritten
    | map _ hvalues =>
      refine congrArg Outline.map (List.map_congr_left fun entry hentry => ?_)
      rw [ih entry hentry (hvalues entry hentry)]
  | bare =>
    cases ho' with
    | atom hv => cases hv
    | elided helided => exact absurd helided (Place.not_elided_of_address? rfl)
    | bare => rfl
    | exception harg => exact absurd rfl harg
  | blank =>
    cases ho' with
    | atom hv => cases hv
    | elided helided => exact absurd helided (Place.not_elided_of_address? rfl)
    | blank => rfl
    | argument harg => exact absurd rfl harg
  | exception harg _ ih =>
    cases ho' with
    | atom hv => cases hv
    | elided helided => exact absurd helided (Place.not_elided_of_address? rfl)
    | bare => exact absurd rfl harg
    | exception _ hargument => rw [ih hargument]
  | argument harg _ ih =>
    cases ho' with
    | atom hv => cases hv
    | elided helided => exact absurd helided (Place.not_elided_of_address? rfl)
    | blank => exact absurd rfl harg
    | argument _ hargument => exact ih hargument

end Outlines

/-! ## Complete texts -/

namespace Place

/-- The keys of a map. -/
def keys (h : Heap) (p : Place) : List Key :=
  match p.value with
  | .map r => (h.map r).keys
  | _ => []

/-- **Nothing has to be elided**: on no way down a container is met again that is still open, or
met inside of too many others.  The tuples in a key count as containers, too. -/
structure Unfolds (h : Heap) (p : Place) : Prop where
  written : ∀ q, Relation.ReflTransGen (Below h) p q → ¬q.Elided
  keys : ∀ q, Relation.ReflTransGen (Below h) p q → ∀ k ∈ q.keys h,
    q.opened.length + 1 + k.depth ≤ nestingLimit

variable {h : Heap} {p q : Place}

/-- What holds everywhere below a place holds at the place itself and everywhere below the places
directly below it. -/
lemma forall_reached_iff {P : Place → Prop} :
    (∀ q, Relation.ReflTransGen (Below h) p q → P q) ↔
      P p ∧ ∀ q, Below h p q → ∀ r, Relation.ReflTransGen (Below h) q r → P r := by
  constructor
  · intro hall
    exact ⟨hall p .refl, fun q hpq r hqr => hall r (.head hpq hqr)⟩
  · rintro ⟨hp, hbelow⟩ q hpq
    obtain rfl | ⟨r, hpr, hrq⟩ := hpq.cases_head
    · exact hp
    · exact hbelow r hpr q hrq

lemma unfolds_iff : Unfolds h p ↔
    (¬p.Elided ∧ ∀ k ∈ p.keys h, p.opened.length + 1 + k.depth ≤ nestingLimit) ∧
      ∀ q, Below h p q → Unfolds h q := by
  constructor
  · rintro ⟨hwritten, hkeys⟩
    rw [forall_reached_iff] at hwritten hkeys
    exact ⟨⟨hwritten.1, hkeys.1⟩, fun q hpq => ⟨hwritten.2 q hpq, hkeys.2 q hpq⟩⟩
  · rintro ⟨⟨hwritten, hkeys⟩, hbelow⟩
    constructor
    · exact forall_reached_iff.2 ⟨hwritten, fun q hpq => (hbelow q hpq).written⟩
    · exact forall_reached_iff.2 ⟨hkeys, fun q hpq => (hbelow q hpq).keys⟩

variable {opened : List Address} {v : Value} {a : Address}

lemma keys_eq_nil (hv : v.address? = none) : keys h ⟨opened, v⟩ = [] := by
  cases v with
  | map r => cases hv
  | _ => rfl

/-- Neither a container nor an exception. -/
lemma unfolds_of_atom (hv : v.address? = none)
    (hexception : ∀ id kind arg, v ≠ .exception id kind arg) : Unfolds h ⟨opened, v⟩ := by
  refine unfolds_iff.2 ⟨⟨not_elided_of_address? hv, ?_⟩, fun q hq => ?_⟩
  · rw [keys_eq_nil hv]
    exact List.forall_mem_nil _
  · cases hq with
    | content ha hc => exact absurd (hv.symm.trans ha) nofun
    | argument => exact absurd rfl (hexception _ _ _)

lemma unfolds_exception_iff {id : Nat} {kind : ExceptionKind} {arg : Value} :
    Unfolds h ⟨opened, .exception id kind arg⟩ ↔ Unfolds h ⟨opened, arg⟩ := by
  rw [unfolds_iff]
  constructor
  · rintro ⟨-, hbelow⟩
    exact hbelow _ .argument
  · intro harg
    refine ⟨⟨not_elided_of_address? rfl, List.forall_mem_nil _⟩, fun q hq => ?_⟩
    cases hq with
    | content ha hc => cases ha
    | argument => exact harg

lemma unfolds_container_iff (ha : v.address? = some a) (hwritten : ¬Elided ⟨opened, v⟩) :
    Unfolds h ⟨opened, v⟩ ↔
      (∀ k ∈ keys h ⟨opened, v⟩, opened.length + 1 + k.depth ≤ nestingLimit) ∧
        ∀ c ∈ v.contents h, Unfolds h ⟨a :: opened, c⟩ := by
  rw [unfolds_iff, and_iff_right hwritten]
  refine and_congr_right fun _ => ⟨fun hbelow c hc => hbelow _ (.content ha hc), ?_⟩
  intro hcontents q hq
  cases hq with
  | content ha' hc =>
    cases ha.symm.trans ha'
    exact hcontents _ hc
  | argument => cases ha

end Place

namespace Outlines

variable {h : Heap} {quoted : Bool} {p : Place} {o : Outline}

/-- The outline is complete if and only if nothing has to be elided. -/
lemma complete_iff (ho : Outlines h quoted p o) : o.Complete ↔ p.Unfolds h := by
  induction ho with
  | atom hv => exact iff_of_true .atom (Place.unfolds_of_atom hv.address? hv.not_exception)
  | elided helided => exact iff_of_false nofun fun hp => hp.written _ .refl helided
  | tuple hwritten _ ih =>
    rw [Outline.complete_tuple_iff, List.forall_mem_map, Place.unfolds_container_iff rfl hwritten]
    exact (forall₂_congr ih).trans (and_iff_right (List.forall_mem_nil _)).symm
  | list hwritten _ ih =>
    rw [Outline.complete_list_iff, List.forall_mem_map, Place.unfolds_container_iff rfl hwritten]
    exact (forall₂_congr ih).trans (and_iff_right (List.forall_mem_nil _)).symm
  | map hwritten _ ih =>
    have hroom := (Place.room_of_not_elided rfl hwritten).2
    rw [Outline.complete_map_iff, List.forall_mem_map, List.forall_mem_map,
      Place.unfolds_container_iff rfl hwritten]
    refine and_congr (Iff.trans ?_ List.forall_mem_map.symm) (Iff.trans ?_ List.forall_mem_map.symm)
    · exact forall₂_congr fun entry _ => entry.1.complete_outline_iff (by omega)
    · exact forall₂_congr ih
  | bare =>
    exact iff_of_true .bare (Place.unfolds_exception_iff.2 (Place.unfolds_of_atom rfl nofun))
  | blank =>
    exact iff_of_true .atom (Place.unfolds_exception_iff.2 (Place.unfolds_of_atom rfl nofun))
  | exception harg _ ih => rw [Place.unfolds_exception_iff, ← ih, Outline.complete_exception_iff]
  | argument harg _ ih => rw [Place.unfolds_exception_iff, ih]

end Outlines

/-! ## Comparing -/

namespace Value

variable {h : Heap} {active : List (Address × Address)} {a b : Value} {r : Bool}

/-- The result of comparing two values inside the pairs that are being compared already. -/
inductive Compares (h : Heap) : List (Address × Address) → Value → Value → Bool → Prop
  | scalar {active : List (Address × Address)} {a b : Value}
    (hxy : addresses? (a, b) = Option.none) : Compares h active a b (scalarsEqual a b)
  | excused {active : List (Address × Address)} {a b : Value} (hexcused : Excused active (a, b)) :
    Compares h active a b true
  | tooDeep {active : List (Address × Address)} {a b : Value} {x y : Address}
    (hxy : addresses? (a, b) = some (x, y)) (hexcused : ¬Excused active (a, b))
    (hfull : nestingLimit ≤ active.length) : Compares h active a b false
  | contents {active : List (Address × Address)} {a b : Value} {x y : Address}
    {f : Value × Value → Bool} {r : Bool}
    (hxy : addresses? (a, b) = some (x, y)) (hexcused : ¬Excused active (a, b))
    (hroom : active.length < nestingLimit)
    (hfaces : ∀ q, Faces h (a, b) q → Compares h ((x, y) :: active) q.1 q.2 (f q))
    (hr : r = true ↔ Alike h a b ∧ ∀ q, Faces h (a, b) q → f q = true) : Compares h active a b r

lemma equalWithin_eq_scalarsEqual (hxy : addresses? (a, b) = Option.none) (room : Nat) :
    equalWithin h room active a b = scalarsEqual a b := by
  rw [Bool.eq_iff_iff, equalWithin_of_scalar hxy, (facing_of_scalar hxy).2.1]

/-- Comparing has a result.  The induction is on the room for more pairs. -/
lemma compares_equalWithin (h : Heap) {room : Nat} (hroom : active.length + room = nestingLimit)
    (a b : Value) : Compares h active a b (equalWithin h room active a b) := by
  induction room generalizing active a b with
  | zero =>
    cases hxy : addresses? (a, b) with
    | none => exact equalWithin_eq_scalarsEqual hxy 0 ▸ .scalar hxy
    | some z =>
      by_cases hexcused : Excused active (a, b)
      · exact equalWithin_of_excused hexcused ▸ .excused hexcused
      · have hfalse : equalWithin h 0 active a b = false := by
          rwa [← Bool.not_eq_true, equalWithin_zero hxy]
        exact hfalse ▸ .tooDeep hxy hexcused (Nat.le_of_eq hroom.symm)
  | succ room ih =>
    cases hxy : addresses? (a, b) with
    | none => exact equalWithin_eq_scalarsEqual hxy (room + 1) ▸ .scalar hxy
    | some z =>
      by_cases hexcused : Excused active (a, b)
      · exact equalWithin_of_excused hexcused ▸ .excused hexcused
      · have hrest : (z :: active).length + room = nestingLimit := by
          rw [List.length_cons]
          omega
        refine .contents hxy hexcused (by omega) (fun q _ => ih hrest q.1 q.2) ?_
        rw [equalWithin_succ hxy, or_iff_right hexcused]

/-- There is no other result. -/
lemma Compares.eq (hr : Compares h active a b r) :
    equalWithin h (nestingLimit - active.length) active a b = r := by
  induction hr with
  | scalar hxy => exact equalWithin_eq_scalarsEqual hxy _
  | excused hexcused => exact equalWithin_of_excused hexcused
  | tooDeep hxy hexcused hfull =>
    rw [Nat.sub_eq_zero_of_le hfull, ← Bool.not_eq_true, equalWithin_zero hxy]
    exact hexcused
  | @contents active a b x y f r hxy hexcused hroom _ hr ih =>
    obtain ⟨room, hsub⟩ : ∃ room, nestingLimit - active.length = room + 1 :=
      ⟨nestingLimit - active.length - 1, by omega⟩
    have hrest : nestingLimit - ((x, y) :: active).length = room := by
      rw [List.length_cons]
      omega
    rw [hsub, Bool.eq_iff_iff, hr, equalWithin_succ hxy, or_iff_right hexcused]
    refine and_congr_right fun _ => forall₂_congr fun q hq => ?_
    rw [← ih q hq, hrest]

end Value

/-- The text that is written for a value has the outline `o` and no other one, and nothing is elided
in it unless something on a way down from the value has to be. -/
structure WrittenAs (h : Heap) (quoted : Bool) (v : Value) (text : String) (o : Outline) :
    Prop where
  outlines : ∀ o', Outlines h quoted ⟨[], v⟩ o' ↔ o' = o
  text_eq : text = o.text
  complete_iff : o.Complete ↔ Place.Unfolds h ⟨[], v⟩

lemma exists_writtenAs (h : Heap) (quoted : Bool) (v : Value) :
    ∃ o, WrittenAs h quoted v (Place.text h quoted ⟨[], v⟩) o := by
  obtain ⟨o, ho⟩ := Outlines.exists_outline h ⟨[], v⟩ quoted
  exact ⟨o, fun o' => ⟨ho.unique, fun heq => heq ▸ ho⟩, ho.text_eq, ho.complete_iff⟩

/-- **Cyclic values are written and compared.**  Let a heap be given, with any cycles through lists
and maps, tuples and the arguments of exceptions.

* No way down from a value is endless that does not go into a container which is open already, or
  inside of which `nestingLimit` others are open.
* Each value has one outline in either form, and its text is that of the outline.  A container is
  elided exactly at those places; everywhere else its contents are outlined in full.
* In particular nothing is elided in a value that has no such place below it, however often it is
  come to a container on different ways down.
* Two values compare with exactly one result: containers that face each other inside themselves are
  taken for equal, and those inside of `nestingLimit` pairs for different. -/
theorem cyclic_values_written_and_compared (h : Heap) :
    (WellFounded fun q p : Place => ¬p.Elided ∧ Place.Below h p q) ∧
    (∀ v : Value, (∃ o, WrittenAs h true v (v.repr h) o) ∧
      ∃ o, WrittenAs h false v (v.display h) o) ∧
    ∀ a b r, Value.Compares h [] a b r ↔ Value.equal h a b = r := by
  refine ⟨Place.below_wellFounded h, fun v => ⟨?_, ?_⟩, fun a b r => ⟨fun hr => hr.eq, ?_⟩⟩
  · exact exists_writtenAs h true v
  · exact exists_writtenAs h false v
  · rintro rfl
    exact Value.compares_equalWithin h (Nat.zero_add _) a b

/-- Two lists: the second one contains itself by way of an exception, and twice the first one. -/
def knottedLists : Heap :=
  { Heap.empty with
    lists := #[#[.int 1], #[.exception 0 .exception (.tuple 1 [.list ⟨1⟩, .list ⟨0⟩, .list ⟨0⟩])]] }

example : Value.repr knottedLists (.list ⟨1⟩) = "[Exception(([...], [1], [1]))]" := by
  decide +kernel

end StackMachine
