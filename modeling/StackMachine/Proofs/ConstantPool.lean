import Mathlib.Tactic.Lemma
import StackMachine.Proofs.ReadingBack
/-!
# Shared places in a constant pool

A constant that is loaded twice takes one place of the pool.  Two constants may share a place if
they are equal as data, and only for a float by itself the bit patterns are compared.  Equality as
data takes the two zeros for equal, so a tuple or a unit can be given the place of another one that
has a zero of the other sign in it (`zero_sign_lost_in_tuple`).

That is all that can be lost.  Between constants that are equal as data there is no difference but
in the signs of zeros (`unsigned_eq_of_equal`), so what an instruction loads is what its statement
names up to these signs, and exactly that where no zero is hidden in a tuple or a unit.
-/

namespace StackMachine

/-! ## Signs of zeros -/

namespace Double
/-- The float, but a zero without its sign. -/
def unsignedZero (x : Double) : Double := if x.isZero then zero false else x

lemma eq_of_negative_of_magnitude {x y : Double} (hn : x.negative = y.negative)
    (hm : x.magnitude = y.magnitude) : x = y := by
  have hsign : ∀ z : Double, z.negative = decide (2 ^ 63 ≤ z.bits.toNat) := by
    intro z
    have hz := z.bits.toNat_lt
    unfold negative
    rw [Bool.eq_iff_iff, beq_iff_eq, decide_eq_true_iff, ← UInt64.toNat_inj]
    simp [Nat.shiftRight_eq_div_pow]
    omega
  have hx := x.bits.toNat_lt
  have hy := y.bits.toNat_lt
  have hbound : 1 <<< 63 = 2 ^ 63 := rfl
  unfold magnitude at hm
  rw [hsign, hsign, decide_eq_decide] at hn
  rw [hbound] at hm
  have hbits : x.bits.toNat = y.bits.toNat := by omega
  cases x
  cases y
  exact congrArg _ (UInt64.toNat_inj.1 hbits)

/-- Floats that are equal as numbers are the same, unless they are the two zeros. -/
lemma eq_or_isZero_of_equal {x y : Double} (h : x.equal y = true) :
    x = y ∨ x.isZero = true ∧ y.isZero = true := by
  unfold equal at h
  simp only [Bool.and_eq_true, beq_iff_eq] at h
  have hrank := h.2
  unfold rank at hrank
  by_cases hzero : x.magnitude = 0
  · refine .inr ⟨by simp [isZero, hzero], ?_⟩
    have : y.magnitude = 0 := by split at hrank <;> split at hrank <;> omega
    simp [isZero, this]
  · refine .inl (eq_of_negative_of_magnitude ?_ ?_)
    · cases hx : x.negative <;> cases hy : y.negative <;> simp [hx, hy] at hrank ⊢ <;> omega
    · split at hrank <;> split at hrank <;> omega

lemma isZero_unsignedZero (x : Double) : x.unsignedZero.isZero = x.isZero := by
  unfold unsignedZero
  split
  · next hx =>
    rw [hx]
    rfl
  · rfl

end Double

namespace Const

mutual

/-- The constant, with every zero in it, at any depth, without its sign. -/
def unsigned : Const → Const
  | .float x => .float x.unsignedZero
  | .tuple items => .tuple (unsignedAll items)
  | .code unit => .code (unsignedUnit unit)
  | c => c

def unsignedAll : List Const → List Const
  | [] => []
  | c :: cs => unsigned c :: unsignedAll cs

def unsignedUnit : UnitOver Const → UnitOver Const
  | ⟨name, stream, consts, names, locals, cells, free, paramCount, variadic⟩ =>
    ⟨name, stream, unsignedAll consts, names, locals, cells, free, paramCount, variadic⟩

end

mutual

/-- Whether the constant is a zero or holds one, at any depth. -/
def holdsZero : Const → Bool
  | .float x => x.isZero
  | .tuple items => anyHoldsZero items
  | .code unit => unitHoldsZero unit
  | _ => false

def anyHoldsZero : List Const → Bool
  | [] => false
  | c :: cs => holdsZero c || anyHoldsZero cs

def unitHoldsZero : UnitOver Const → Bool
  | ⟨_, _, consts, _, _, _, _, _, _⟩ => anyHoldsZero consts

end

mutual

theorem unsigned_eq_of_equal : (a b : Const) → equal a b = true → a.unsigned = b.unsigned
  | .none, b, h => by cases b <;> simp_all [equal, unsigned]
  | .bool _, b, h => by cases b <;> simp_all [equal, unsigned]
  | .int _, b, h => by cases b <;> simp_all [equal, unsigned]
  | .str _, b, h => by cases b <;> simp_all [equal, unsigned]
  | .float x, .float y, h => by
    obtain rfl | ⟨hx, hy⟩ := Double.eq_or_isZero_of_equal h
    · rfl
    · simp [unsigned, Double.unsignedZero, hx, hy]
  | .tuple as, .tuple bs, h => by
    rw [unsigned, unsigned, unsignedAll_eq_of_equalAll as bs h]
  | .code u, .code v, h => by
    rw [unsigned, unsigned, unsignedUnit_eq_of_equalUnits u v h]

theorem unsignedAll_eq_of_equalAll :
    (as bs : List Const) → equalAll as bs = true → unsignedAll as = unsignedAll bs
  | [], [], _ => rfl
  | a :: as, b :: bs, h => by
    rw [equalAll, Bool.and_eq_true] at h
    rw [unsignedAll, unsignedAll, unsigned_eq_of_equal a b h.1,
      unsignedAll_eq_of_equalAll as bs h.2]

theorem unsignedUnit_eq_of_equalUnits :
    (u v : UnitOver Const) → equalUnits u v = true → unsignedUnit u = unsignedUnit v
  | ⟨name, stream, consts, names, locals, cells, free, paramCount, variadic⟩,
    ⟨name', stream', consts', names', locals', cells', free', paramCount', variadic'⟩, h => by
    simp only [equalUnits, Bool.and_eq_true, beq_iff_eq] at h
    obtain ⟨⟨⟨⟨⟨⟨⟨⟨rfl, rfl⟩, h⟩, rfl⟩, rfl⟩, rfl⟩, rfl⟩, rfl⟩, rfl⟩ := h
    rw [unsignedUnit, unsignedUnit, unsignedAll_eq_of_equalAll consts consts' h]

end

mutual

theorem unsigned_eq_self : (c : Const) → c.holdsZero = false → c.unsigned = c
  | .none, _ | .bool _, _ | .int _, _ | .str _, _ => rfl
  | .float x, h => by
    have hx : x.isZero = false := h
    simp [unsigned, Double.unsignedZero, hx]
  | .tuple items, h => by rw [unsigned, unsignedAll_eq_self items h]
  | .code unit, h => by rw [unsigned, unsignedUnit_eq_self unit h]

theorem unsignedAll_eq_self : (cs : List Const) → anyHoldsZero cs = false → unsignedAll cs = cs
  | [], _ => rfl
  | c :: cs, h => by
    rw [anyHoldsZero, Bool.or_eq_false_iff] at h
    rw [unsignedAll, unsigned_eq_self c h.1, unsignedAll_eq_self cs h.2]

theorem unsignedUnit_eq_self :
    (u : UnitOver Const) → unitHoldsZero u = false → unsignedUnit u = u
  | ⟨_, _, consts, _, _, _, _, _, _⟩, h => by rw [unsignedUnit, unsignedAll_eq_self consts h]

end

mutual

theorem holdsZero_unsigned : (c : Const) → c.unsigned.holdsZero = c.holdsZero
  | .none | .bool _ | .int _ | .str _ => rfl
  | .float x => Double.isZero_unsignedZero x
  | .tuple items => anyHoldsZero_unsignedAll items
  | .code unit => unitHoldsZero_unsignedUnit unit

theorem anyHoldsZero_unsignedAll :
    (cs : List Const) → anyHoldsZero (unsignedAll cs) = anyHoldsZero cs
  | [] => rfl
  | c :: cs => by
    rw [unsignedAll, anyHoldsZero, anyHoldsZero, holdsZero_unsigned c, anyHoldsZero_unsignedAll cs]

theorem unitHoldsZero_unsignedUnit :
    (u : UnitOver Const) → unitHoldsZero (unsignedUnit u) = unitHoldsZero u
  | ⟨_, _, consts, _, _, _, _, _, _⟩ => anyHoldsZero_unsignedAll consts

end

/-- Whether there is a zero inside of the constant. -/
def hidesZero : Const → Bool
  | .float _ => false
  | c => c.holdsZero

/-- Constants that may share a place differ in the signs of hidden zeros at most. -/
lemma eq_of_interchangeable {a b : Const} (h : a.interchangeable b = true) :
    a.unsigned = b.unsigned ∧ (b.hidesZero = false → a = b) := by
  -- Floats share a place only if they are the same.
  by_cases hfloats : ∃ x y, a = .float x ∧ b = .float y
  · obtain ⟨x, y, rfl, rfl⟩ := hfloats
    obtain rfl : x = y := eq_of_beq h
    exact ⟨rfl, fun _ => rfl⟩
  · have hequal : a.equal b = true := by
      unfold interchangeable at h
      split at h
      · next x y => exact absurd ⟨x, y, rfl, rfl⟩ hfloats
      · exact h
    have hunsigned := unsigned_eq_of_equal a b hequal
    refine ⟨hunsigned, fun hb => ?_⟩
    have hzero : b.holdsZero = false := by
      unfold hidesZero at hb
      split at hb
      · next y =>
        cases a <;> first | exact absurd hequal Bool.false_ne_true | skip
        exact absurd ⟨_, _, rfl, rfl⟩ hfloats
      · exact hb
    calc a = a.unsigned := by
          rw [unsigned_eq_self a]
          rw [← holdsZero_unsigned, hunsigned, holdsZero_unsigned, hzero]
      _ = b.unsigned := hunsigned
      _ = b := unsigned_eq_self b hzero

end Const

/-! ## The entries of a pool -/

namespace Assembler

variable {a : Assembler}

@[simp] lemma fail_unit (a : Assembler) (e : AssembleError) : (a.fail e).unit = a.unit := by
  unfold fail
  split <;> rfl

@[simp] lemma emitArg_consts (a : Assembler) (op : Opcode) (n : Nat) :
    (a.emitArg op n).unit.consts = a.unit.consts := by
  unfold emitArg
  split
  · simp [append]
  · split <;> simp [append]

@[simp] lemma emit_consts (a : Assembler) (op : Opcode) :
    (a.emit op).unit.consts = a.unit.consts := by
  unfold emit
  split <;> simp [append]

@[simp] lemma emitCell_consts (a : Assembler) (op : Opcode) (s : String) :
    (a.emitCell op s).unit.consts = a.unit.consts := by
  unfold emitCell
  split <;> simp

@[simp] lemma call_consts (a : Assembler) (p k : Nat) :
    (a.call p k).unit.consts = a.unit.consts := by
  unfold call
  split <;> simp

@[simp] lemma jump_consts (a : Assembler) (op : Opcode) (l : Nat) :
    (a.jump op l).unit.consts = a.unit.consts := by
  unfold jump
  split <;> simp

@[simp] lemma bind_consts (a : Assembler) (l : Nat) :
    (a.bind l).unit.consts = a.unit.consts := by
  unfold bind
  split <;> simp

/-- Only a statement that loads a constant adds to the pool, and it adds what it names. -/
lemma mem_consts_write {st : Statement} {d : Const} (h : d ∈ (a.write st).unit.consts) :
    d ∈ a.unit.consts ∨ st = .const d := by
  cases st with
  | const c =>
    simp only [write, loadConst] at h
    split at h
    · exact .inl (by simpa using h)
    · obtain h | rfl : d ∈ a.unit.consts ∨ d = c := by simpa using h
      · exact .inl h
      · exact .inr rfl
  | label => exact .inl h
  | _ => exact .inl (by simpa [write, emitName, emitLocal, Assembler.compare] using h)

/-- What is in the pool when a statement of a body comes to be written has been there from the start
or is named by a statement of the body. -/
lemma mem_consts_of_mem_placedFrom {body : List Statement} {p : Assembler × Statement} {d : Const}
    (hp : p ∈ a.placedFrom body) (hd : d ∈ p.1.unit.consts) :
    d ∈ a.unit.consts ∨ ∃ q ∈ a.placedFrom body, q.2 = .const d := by
  induction body generalizing a with
  | nil => exact absurd hp List.not_mem_nil
  | cons st rest ih =>
    obtain rfl | hrest := List.mem_cons.1 hp
    · exact .inl hd
    · obtain hpool | ⟨q, hq, hnamed⟩ := ih hrest
      · obtain hpool | rfl := mem_consts_write hpool
        · exact .inl hpool
        · exact .inr ⟨(a, .const d), List.mem_cons_self, rfl⟩
      · exact .inr ⟨q, List.mem_cons_of_mem _ hq, hnamed⟩

/-- A header leaves the pool alone. -/
lemma declareAll_consts (header : List Declaration) :
    (a.declareAll header).unit.consts = a.unit.consts := by
  induction header generalizing a with
  | nil => rfl
  | cons d rest ih =>
    have hdeclare : (a.declare d).unit.consts = a.unit.consts := by cases d <;> rfl
    exact (ih (a := a.declare d)).trans hdeclare

end Assembler

namespace Source

variable {s : Source} {unit : CodeUnit}

/-- Where the statement names a constant, the instruction `x` loads one that a statement of the
source names, and it is the same one up to the signs of hidden zeros. -/
def LoadsNamed (s : Source) (unit : CodeUnit) (p : Assembler × Statement) (x : Nat × Fetched) :
    Prop :=
  ∀ c, p.2 = .const c → ∃ c', unit.operand x.2.op x.2.raw x.1 = .ok (.const x.2.raw c') ∧
    (∃ q ∈ s.placed, q.2 = .const c') ∧ c'.unsigned = c.unsigned ∧ (c.hidesZero = false → c' = c)

lemma mem_placed_of_mem_instructions {p : Assembler × Statement} (hp : p ∈ s.instructions) :
    p ∈ s.placed := List.mem_of_mem_filter hp

lemma mem_consts_of_mem_placed {p : Assembler × Statement} {d : Const} (hp : p ∈ s.placed)
    (hd : d ∈ p.1.unit.consts) : ∃ q ∈ s.placed, q.2 = .const d := by
  have hnone : s.declared.unit.consts = [] := Assembler.declareAll_consts s.header
  obtain hpool | hnamed := Assembler.mem_consts_of_mem_placedFrom hp hd
  · rw [hnone] at hpool
    cases hpool
  · exact hnamed

/-- **Sharing loses signs of hidden zeros and nothing else.**  Every instruction of an assembled
unit that loads a constant finds in the pool a constant that the source names, which differs from
the one that its own statement names in the signs of zeros inside of tuples and units at most; a
constant that hides no zero is found as it is. -/
theorem constants_kept_up_to_hidden_zeros (h : s.assemble = .ok unit) :
    ∃ w, unit.walk = .ok w ∧ List.Forall₂ (s.LoadsNamed unit) s.instructions w := by
  obtain ⟨-, hgrows, -, w, hwalks, hall⟩ := agrees_of_assemble h
  have hplaced := (List.forall₂_and_left _ _).2
    ⟨fun p (hp : p ∈ s.instructions) => mem_placed_of_mem_instructions hp, hall⟩
  have hfetched := (List.forall₂_and_left _ _).2 ⟨hwalks.fetch, hplaced.flip⟩
  refine ⟨w, hwalks.walk, hfetched.flip.imp ?_⟩
  rintro ⟨a, st⟩ ⟨offset, f⟩ ⟨hfetch, hp, -, hop, hdenotes, -⟩ c hst
  obtain rfl : st = .const c := hst
  obtain ⟨c', hoperand, hc'⟩ : s.Recovers unit w a offset f (.const c) :=
    recovers_of_denotes hop (hdenotes.mono hgrows) hfetch nofun
  refine ⟨c', hoperand, ?_⟩
  obtain ⟨-, rfl⟩ | ⟨hplace, hshared⟩ := hc'
  · exact ⟨⟨_, hp, rfl⟩, rfl, fun _ => rfl⟩
  · exact ⟨mem_consts_of_mem_placed hp (List.mem_of_getElem? hplace),
      Const.eq_of_interchangeable hshared⟩

/-- Loads a tuple of the two zeros, the same tuple with the zeros the other way round, and the
negative zero by itself.  The second tuple shares the place of the first. -/
def zeros : Source where
  name := "zeros"
  header := []
  body := [.const (.tuple [.float (.zero false), .float (.zero true)]),
    .const (.tuple [.float (.zero true), .float (.zero false)]), .const (.float (.zero true))]

theorem constants_kept_up_to_hidden_zeros_when_shared :
    ∃ unit, zeros.assemble = .ok unit ∧ unit.consts.length = 2 ∧
      ∃ w, unit.walk = .ok w ∧ List.Forall₂ (zeros.LoadsNamed unit) zeros.instructions w :=
  ⟨_, rfl, rfl, constants_kept_up_to_hidden_zeros rfl⟩

/-- Loads the tuple of a zero and then the tuple of the other zero. -/
def zeroTuples : Source where
  name := "zeros"
  header := []
  body := [.const (.tuple [.float (.zero false)]), .const (.tuple [.float (.zero true)])]

/-- The second instruction, which stands at the offset 3, loads the first tuple. -/
theorem zero_sign_lost_in_tuple :
    ∃ unit, zeroTuples.assemble = .ok unit ∧
      unit.fetch 3 = .ok (some ⟨.loadConst, 0, 6⟩) ∧
      unit.operand .loadConst 0 3 = .ok (.const 0 (.tuple [.float (.zero false)])) ∧
      Const.tuple [.float (.zero false)] ≠ .tuple [.float (.zero true)] := by
  refine ⟨_, rfl, rfl, rfl, ?_⟩
  rw [Ne, Const.tuple.injEq, List.cons.injEq, Const.float.injEq]
  decide

end Source
end StackMachine
