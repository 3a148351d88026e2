import StackMachine.Number.Decimal
import StackMachine.Number.Integer
import StackMachine.Text.Quoted
/-!
# Code units

A code unit is one function body or one top-level body: an instruction stream and the tables that
its arguments point into. Constants are plain data; a tuple constant holds constants, and the body
of a nested function is itself a unit, so units and constants are one nested family. The unit is
written once over an arbitrary type of constants, and a constant is what closes the family.

Two constants can be compared in two ways. Equality as data follows the guest's idea of numbers, so
the two zeros are equal and a NaN is not even equal to itself; for sharing an entry of a constant
pool two floats have to be the same pattern.
-/

namespace StackMachine

/-- A code unit over constants of type `κ`. -/
structure UnitOver (κ : Type) where
  name : String
  /-- The instruction stream. -/
  code : Array UInt8
  /-- The constant pool. -/
  consts : List κ
  /-- Names of globals and attributes. -/
  names : List String
  /-- Names of local variables; the parameters come first. -/
  localNames : List String
  /-- Locals that nested functions capture. -/
  cellNames : List String
  /-- Variables captured from an enclosing function. -/
  freeNames : List String
  /-- How many of the local variables are parameters. -/
  paramCount : UInt64
  /-- Whether the local after the parameters collects surplus arguments. -/
  variadic : Bool

/-- An entry of a constant pool. -/
inductive Const where
  | none
  | bool (b : Bool)
  | int (n : Int64)
  | float (x : Double)
  | str (s : String)
  | tuple (items : List Const)
  | code (unit : UnitOver Const)

instance : Inhabited Const := ⟨.none⟩

/-- A code unit. -/
abbrev CodeUnit := UnitOver Const

instance : Inhabited CodeUnit := ⟨⟨"", #[], [], [], [], [], [], 0, false⟩⟩

namespace UnitOver

variable {κ : Type}

/-- A unit with empty tables. -/
def named (name : String) : UnitOver κ := ⟨name, #[], [], [], [], [], [], 0, false⟩

/-- The length of the instruction stream. -/
def size (u : UnitOver κ) : Nat := u.code.size

/-- The parameter names, unless more are claimed than there are locals. -/
def params? (u : UnitOver κ) : Option (List String) :=
  if u.paramCount.toNat ≤ u.localNames.length then some (u.localNames.take u.paramCount.toNat)
  else none

/-- The name of the local that collects surplus arguments. -/
def variadicName? (u : UnitOver κ) : Option String :=
  if u.variadic then u.localNames[u.paramCount.toNat]? else none

/-- The names of the cell slots: cell variables first, then free variables. -/
def slotNames (u : UnitOver κ) : List String := u.cellNames ++ u.freeNames

def slotCount (u : UnitOver κ) : Nat := u.cellNames.length + u.freeNames.length

def slotName? (u : UnitOver κ) (slot : Nat) : Option String := u.slotNames[slot]?

/-- Whether a slot lies behind those of the cell variables. -/
def isCaptured (u : UnitOver κ) (slot : Nat) : Bool := u.cellNames.length ≤ slot

end UnitOver

namespace Const

/-! ## Comparing constants -/

mutual

/-- Equality as data: floats are compared as numbers. -/
def equal : Const → Const → Bool
  | .none, .none => true
  | .bool a, .bool b => a == b
  | .int a, .int b => a == b
  | .float a, .float b => a.equal b
  | .str a, .str b => a == b
  | .tuple a, .tuple b => equalAll a b
  | .code a, .code b => equalUnits a b
  | _, _ => false

def equalAll : List Const → List Const → Bool
  | [], [] => true
  | a :: as, b :: bs => equal a b && equalAll as bs
  | _, _ => false

def equalUnits : UnitOver Const → UnitOver Const → Bool
  | ⟨name, stream, consts, names, locals, cells, free, paramCount, variadic⟩, other =>
    name == other.name && stream == other.code && equalAll consts other.consts &&
      names == other.names && locals == other.localNames && cells == other.cellNames &&
      free == other.freeNames && paramCount == other.paramCount && variadic == other.variadic

end

mutual

theorem equal_comm : (a b : Const) → equal a b = equal b a
  | .none, b => by cases b <;> rfl
  | .bool _, b => by cases b <;> simp [equal, BEq.comm]
  | .int _, b => by cases b <;> simp [equal, BEq.comm]
  | .float x, b => by cases b <;> simp [equal, Double.equal_comm x]
  | .str _, b => by cases b <;> simp [equal, BEq.comm]
  | .tuple as, b => by cases b <;> simp [equal, equalAll_comm as]
  | .code u, b => by cases b <;> simp [equal, equalUnits_comm u]

theorem equalAll_comm : (as bs : List Const) → equalAll as bs = equalAll bs as
  | [], bs => by cases bs <;> rfl
  | a :: as, bs => by
    cases bs with
    | nil => rfl
    | cons b bs => rw [equalAll, equalAll, equal_comm a b, equalAll_comm as bs]

theorem equalUnits_comm : (u v : UnitOver Const) → equalUnits u v = equalUnits v u
  | ⟨_, _, consts, _, _, _, _, _, _⟩, ⟨_, _, consts', _, _, _, _, _, _⟩ => by
    simp [equalUnits, equalAll_comm consts consts', BEq.comm]

end

mutual

theorem equal_trans : (a b c : Const) → equal a b = true → equal b c = true → equal a c = true
  | .none, .none, _, _, h' => h'
  | .bool _, .bool _, _, h, h' => by rwa [eq_of_beq h]
  | .int _, .int _, _, h, h' => by rwa [eq_of_beq h]
  | .str _, .str _, _, h, h' => by rwa [eq_of_beq h]
  | .float _, .float _, .float _, h, h' => Double.equal_trans h h'
  | .tuple as, .tuple bs, .tuple cs, h, h' => equalAll_trans as bs cs h h'
  | .code u, .code v, .code w, h, h' => equalUnits_trans u v w h h'

theorem equalAll_trans :
    (as bs cs : List Const) → equalAll as bs = true → equalAll bs cs = true → equalAll as cs = true
  | [], [], _, _, h' => h'
  | a :: as, b :: bs, c :: cs, h, h' => by
    simp only [equalAll, Bool.and_eq_true] at h h' ⊢
    exact ⟨equal_trans a b c h.1 h'.1, equalAll_trans as bs cs h.2 h'.2⟩

theorem equalUnits_trans : (u v w : UnitOver Const) → equalUnits u v = true →
    equalUnits v w = true → equalUnits u w = true
  | ⟨_, _, as, _, _, _, _, _, _⟩, ⟨_, _, bs, _, _, _, _, _, _⟩, ⟨_, _, cs, _, _, _, _, _, _⟩,
    h, h' => by
    simp only [equalUnits, Bool.and_eq_true, beq_iff_eq] at h h'
    obtain ⟨⟨⟨⟨⟨⟨⟨⟨rfl, rfl⟩, h⟩, rfl⟩, rfl⟩, rfl⟩, rfl⟩, rfl⟩, rfl⟩ := h
    obtain ⟨⟨⟨⟨⟨⟨⟨⟨rfl, rfl⟩, h'⟩, rfl⟩, rfl⟩, rfl⟩, rfl⟩, rfl⟩, rfl⟩ := h'
    simp [equalUnits, equalAll_trans as bs cs h h']

end

/-- Whether two constants may share a place in a pool. -/
def interchangeable : Const → Const → Bool
  | .float a, .float b => a == b
  | a, b => a.equal b

/-! ## Text -/

/-- How deeply containers are written out; what lies deeper is elided. -/
def nestingLimit : Nat := 200

/-- The text of a tuple with the given item texts. -/
def tupleText : List String → String
  | [item] => "(" ++ item ++ ",)"
  | items => "(" ++ String.intercalate ", " items ++ ")"

mutual

/-- The text of a constant with room for `room` more containers. -/
def textWithin (room : Nat) : Const → String
  | .none => "None"
  | .bool b => if b then "True" else "False"
  | .int n => Integer.text n
  | .float x => x.text
  | .str s => Text.Quoted.quote s
  | .tuple items => if room = 0 then "(...)" else tupleText (textsWithin (room - 1) items)
  | .code unit => "<code " ++ unit.name ++ ">"

def textsWithin (room : Nat) : List Const → List String
  | [] => []
  | c :: cs => textWithin room c :: textsWithin room cs

end

/-- The text of a constant. -/
def text (c : Const) : String := c.textWithin nestingLimit

end Const

end StackMachine
