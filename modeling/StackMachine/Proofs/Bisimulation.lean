import Mathlib.Data.List.Chain
import Mathlib.Data.List.Nodup
import Mathlib.Data.List.Perm.Subperm
import Mathlib.Data.Set.Basic
import Mathlib.Tactic.Lemma
import StackMachine.Object.Equality
/-!
# Equality as bisimilarity

Lists and maps may contain themselves, and unfolding such a value never comes to an end.  Two of
them should be equal when their unfoldings are, that is, when they are related by a bisimulation:
related values look alike, and what faces each other in them is related again.

Comparing goes down one path at a time, takes a pair that it meets again on the path for equal, and
forgets what it has learnt when it comes up again.  That is sound all the same: the pairs that one
successful comparison has gone through form a bisimulation up to the pairs that it was inside of
(`BisimulationUpTo`), and these go away one by one on the way up.  What is left are the containers
that have been compared with themselves.

In the other direction there is the depth at which comparing gives up.  A way there is a `Descent`
through more than `nestingLimit` different pairs; where there is none, bisimilar values are equal.
-/

namespace StackMachine

namespace Value

/-! ## Bisimulations -/

/-- Two values look alike from outside: containers of one kind and of the same length, maps with the
same keys, or other values that are equal. -/
def Alike (h : Heap) : Value → Value → Prop
  | .tuple _ as, .tuple _ bs => as.length = bs.length
  | .list r, .list s => (h.list r).size = (h.list s).size
  | .map r, .map s =>
    (h.map r).size = (h.map s).size ∧ ∀ entry ∈ (h.map r).entries, (h.map s).contains entry.1
  | a, b => scalarsEqual a b

/-- The values of the second pair face each other in those of the first one: items at the same
place, or values under equal keys. -/
def Faces (h : Heap) (p q : Value × Value) : Prop :=
  match p with
  | (.tuple _ as, .tuple _ bs) => q ∈ as.zip bs
  | (.list r, .list s) => q ∈ (h.list r).toList.zip (h.list s).toList
  | (.map r, .map s) => ∃ k, (k, q.1) ∈ (h.map r).entries ∧ (h.map s).get? k = some q.2
  | _ => False

/-- Related values look alike, and what faces each other in them is related again. -/
def Bisimulation (h : Heap) (R : Value → Value → Prop) : Prop :=
  ∀ a b, R a b → Alike h a b ∧ ∀ q, Faces h (a, b) q → R q.1 q.2

/-- The unfoldings of the two values are equal. -/
def Bisimilar (h : Heap) (a b : Value) : Prop := ∃ R, Bisimulation h R ∧ R a b

/-- The address of a container. -/
def address? : Value → Option Address
  | .tuple i _ => some (.tuple i)
  | .list r => some (.list r)
  | .map r => some (.map r)
  | _ => Option.none

/-- The addresses of two containers of one kind. -/
def addresses? : Value × Value → Option (Address × Address)
  | (.tuple i _, .tuple j _) => some (.tuple i, .tuple j)
  | (.list r, .list s) => some (.list r, .list s)
  | (.map r, .map s) => some (.map r, .map s)
  | _ => Option.none

/-- Two containers of one kind, and not the same one. -/
def Apart (p : Value × Value) : Prop := ∃ x y, addresses? p = some (x, y) ∧ x ≠ y

/-- A way down from two values: pairs of containers that are apart, no two of them the same pair,
and each one faces itself in the pair before. -/
structure Descent (h : Heap) (a b : Value) (pairs : List (Value × Value)) : Prop where
  starts : pairs.head? = some (a, b)
  linked : pairs.IsChain (Faces h)
  apart : ∀ p ∈ pairs, Apart p
  different : (pairs.map addresses?).Nodup

/-! ## Coherent sets of values -/

/-- The values inside a container. -/
def contents (h : Heap) : Value → List Value
  | .tuple _ items => items
  | .list r => (h.list r).toList
  | .map r => (h.map r).values
  | _ => []

/-- **Coherent values.**  With a container its contents belong to the set.  A tuple is kept in the
value itself, so a number that stands for it stands for the same items everywhere, as it does for
the values that a machine has (`OnRecord.coherent`); and no number is a NaN, which would not be
equal to itself. -/
structure Coherent (h : Heap) (S : Set Value) : Prop where
  closed : ∀ v ∈ S, ∀ c ∈ v.contents h, c ∈ S
  tuples : ∀ i as bs, .tuple i as ∈ S → .tuple i bs ∈ S → as = bs
  numbers : ∀ x, .float x ∈ S → x.isNaN = false

section Facing

variable {h : Heap} {S : Set Value} {a b : Value} {p q : Value × Value}

lemma Faces.mem_contents (hq : Faces h p q) : q.1 ∈ p.1.contents h ∧ q.2 ∈ p.2.contents h := by
  unfold Faces at hq
  split at hq
  · exact List.of_mem_zip hq
  · exact List.of_mem_zip hq
  · obtain ⟨k, hentry, hfound⟩ := hq
    obtain ⟨k', hentry', -⟩ := Dictionary.mem_of_find? hfound
    exact ⟨List.mem_map_of_mem hentry, List.mem_map_of_mem hentry'⟩
  · exact hq.elim

lemma Coherent.faces (hS : Coherent h S) (hp : p.1 ∈ S ∧ p.2 ∈ S) (hq : Faces h p q) :
    q.1 ∈ S ∧ q.2 ∈ S :=
  ⟨hS.closed p.1 hp.1 q.1 hq.mem_contents.1, hS.closed p.2 hp.2 q.2 hq.mem_contents.2⟩

/-- An address stands for one container only. -/
lemma Coherent.eq_of_address (hS : Coherent h S) (ha : a ∈ S) (hb : b ∈ S) {x : Address}
    (hax : a.address? = some x) (hbx : b.address? = some x) : a = b := by
  cases a <;> cases hax <;> cases b <;> cases hbx
  · rw [hS.tuples _ _ _ ha hb]
  · rfl
  · rfl

lemma address?_of_addresses? {x y : Address} (h : addresses? p = some (x, y)) :
    p.1.address? = some x ∧ p.2.address? = some y := by
  unfold addresses? at h
  split at h <;> cases h <;> exact ⟨rfl, rfl⟩

lemma mem_zip_self {α : Type} {l : List α} {x y : α} (h : (x, y) ∈ l.zip l) : x = y := by
  induction l with
  | nil => cases h
  | cons z l ih =>
    rw [List.zip_cons_cons, List.mem_cons] at h
    rcases h with h | h
    · cases h
      rfl
    · exact ih h

/-- In a value that is compared with itself each part faces itself. -/
lemma Faces.eq_of_self (hq : Faces h (a, a) q) : q.1 = q.2 := by
  cases a with
  | tuple i items => exact mem_zip_self hq
  | list r => exact mem_zip_self hq
  | map r =>
    obtain ⟨k, hentry, hfound⟩ := hq
    have hself : (h.map r).get? k = some q.1 :=
      Dictionary.find?_of_mem (h.map r).distinct k.equal_self hentry
    exact Option.some.inj (hself.symm.trans hfound)
  | _ => exact hq.elim

lemma Coherent.alike_self (hS : Coherent h S) (ha : a ∈ S) : Alike h a a := by
  cases a with
  | tuple i items => rfl
  | list r => rfl
  | map r =>
    refine ⟨rfl, fun entry hentry => ?_⟩
    have hself : (h.map r).get? entry.1 = some entry.2 :=
      Dictionary.find?_of_mem (h.map r).distinct entry.1.equal_self hentry
    rw [Dictionary.contains, hself]
    rfl
  | float x => simp [Alike, scalarsEqual, Double.equal, hS.numbers x ha]
  | _ => simp [Alike, scalarsEqual, same, CodeObject.same]

end Facing

/-! ## One pair -/

section Comparing

variable {h : Heap} {a b : Value} {x y : Address} {room : Nat} {active : List (Address × Address)}

lemma allEqual_eq_true (equal : Value → Value → Bool) (as bs : List Value) :
    allEqual equal as bs = true ↔
      as.length = bs.length ∧ ∀ q ∈ as.zip bs, equal q.1 q.2 = true := by
  induction as generalizing bs with
  | nil => cases bs <;> simp [allEqual]
  | cons a as ih =>
    cases bs with
    | nil => simp [allEqual]
    | cons b bs =>
      simp only [allEqual, Bool.and_eq_true, ih, List.length_cons, List.zip_cons_cons,
        List.forall_mem_cons, Nat.add_right_cancel_iff]
      tauto

lemma entriesEqual_eq_true (equal : Value → Value → Bool) (d e : Dictionary Key Value) :
    entriesEqual equal d e = true ↔
      (d.size = e.size ∧ ∀ entry ∈ d.entries, e.contains entry.1) ∧
        ∀ q : Value × Value, (∃ k, (k, q.1) ∈ d.entries ∧ e.get? k = some q.2) →
          equal q.1 q.2 = true := by
  rw [entriesEqual, Bool.and_eq_true, beq_iff_eq, List.all_eq_true, and_assoc, and_congr_right_iff]
  intro _
  constructor
  · intro hall
    refine ⟨fun entry hentry => ?_, fun q ⟨k, hk, hq⟩ => ?_⟩
    · have := hall entry hentry
      rw [Dictionary.contains]
      cases hget : e.get? entry.1 with
      | none => simp [hget] at this
      | some w => rfl
    · simpa [hq] using hall _ hk
  · rintro ⟨hkeys, hvalues⟩ ⟨k, v⟩ hentry
    have hcontained : (e.get? k).isSome := hkeys (k, v) hentry
    obtain ⟨w, hw⟩ := Option.isSome_iff_exists.1 hcontained
    simpa [hw] using hvalues (v, w) ⟨k, hentry, hw⟩

/-- Two containers of one kind. -/
lemma facing_of_addresses (hxy : addresses? (a, b) = some (x, y)) :
    ∃ compare, facing h a b = some (x, y, compare) ∧ ∀ equal, compare equal = true ↔
      Alike h a b ∧ ∀ q, Faces h (a, b) q → equal q.1 q.2 = true := by
  unfold addresses? at hxy
  split at hxy
  · next hp =>
    cases hp
    cases hxy
    exact ⟨_, rfl, fun equal => allEqual_eq_true equal _ _⟩
  · next r s hp =>
    cases hp
    cases hxy
    refine ⟨_, rfl, fun equal => ?_⟩
    rw [Bool.and_eq_true, beq_iff_eq, allEqual_eq_true, Array.length_toList, Array.length_toList,
      ← and_assoc, and_self_iff]
    rfl
  · next hp =>
    cases hp
    cases hxy
    exact ⟨_, rfl, fun equal => entriesEqual_eq_true equal _ _⟩
  · cases hxy

/-- Two values of which one is no container, or that are containers of different kinds. -/
lemma facing_of_scalar (hxy : addresses? (a, b) = Option.none) :
    facing h a b = Option.none ∧ (scalarsEqual a b = true ↔ Alike h a b) ∧
      ∀ q, ¬ Faces h (a, b) q := by
  refine ⟨?_, ?_, fun q hq => ?_⟩
  · unfold facing
    split
    case h_4 => rfl
    all_goals cases hxy
  · unfold Alike
    split
    case h_4 => rfl
    all_goals cases hxy
  · unfold Faces at hq
    split at hq
    case h_4 => exact hq
    all_goals
      next hp =>
        cases hp
        cases hxy

/-- A comparison without containers of one kind does not go down. -/
lemma equalWithin_of_scalar (hxy : addresses? (a, b) = Option.none) :
    equalWithin h room active a b = true ↔ Alike h a b := by
  obtain ⟨hfacing, halike, -⟩ := @facing_of_scalar h a b hxy
  cases room with
  | zero => simp only [equalWithin, hfacing, halike]
  | succ room => simp only [equalWithin, hfacing, halike]

/-- The pair needs no look inside: it is one container, or it is being compared already. -/
def Excused (active : List (Address × Address)) (p : Value × Value) : Prop :=
  ∃ x y, addresses? p = some (x, y) ∧ (x = y ∨ (x, y) ∈ active)

lemma excused_of_addresses (hxy : addresses? (a, b) = some (x, y)) :
    Excused active (a, b) ↔ x = y ∨ (x, y) ∈ active := by
  constructor
  · rintro ⟨x', y', hxy', h⟩
    cases hxy.symm.trans hxy'
    exact h
  · intro h
    exact ⟨x, y, hxy, h⟩

lemma equalWithin_of_excused (hexcused : Excused active (a, b)) :
    equalWithin h room active a b = true := by
  obtain ⟨x, y, hxy, hexcused⟩ := hexcused
  obtain ⟨compare, hfacing, -⟩ := @facing_of_addresses h a b x y hxy
  cases room with
  | zero => simpa [equalWithin, hfacing] using hexcused
  | succ room => simp [equalWithin, hfacing, hexcused]

lemma equalWithin_zero (hxy : addresses? (a, b) = some (x, y)) :
    equalWithin h 0 active a b = true ↔ Excused active (a, b) := by
  obtain ⟨compare, hfacing, -⟩ := @facing_of_addresses h a b x y hxy
  rw [excused_of_addresses hxy]
  simp [equalWithin, hfacing]

lemma equalWithin_succ (hxy : addresses? (a, b) = some (x, y)) :
    equalWithin h (room + 1) active a b = true ↔ Excused active (a, b) ∨ Alike h a b ∧
      ∀ q, Faces h (a, b) q → equalWithin h room ((x, y) :: active) q.1 q.2 = true := by
  obtain ⟨compare, hfacing, hcompare⟩ := @facing_of_addresses h a b x y hxy
  rw [excused_of_addresses hxy, ← hcompare]
  simp [equalWithin, hfacing]

end Comparing

/-! ## Values that compare as equal -/

/-- Bisimilar, but for pairs that are excused; all pairs are of values in `S`. -/
def BisimilarUpTo (h : Heap) (S : Set Value) (active : List (Address × Address)) (a b : Value) :
    Prop :=
  ∃ R : Value → Value → Prop, R a b ∧ ∀ c d, R c d → c ∈ S ∧ d ∈ S ∧
    (Excused active (c, d) ∨ Alike h c d ∧ ∀ q, Faces h (c, d) q → R q.1 q.2)

section Soundness

variable {h : Heap} {S : Set Value} {a b : Value} {x y : Address}
  {active : List (Address × Address)}

/-- A pair that is excused, or in which nothing faces anything. -/
lemma bisimilarUpTo_single (ha : a ∈ S) (hb : b ∈ S)
    (hpair : Excused active (a, b) ∨ Alike h a b ∧ ∀ q, ¬ Faces h (a, b) q) :
    BisimilarUpTo h S active a b := by
  refine ⟨fun c d => c = a ∧ d = b, ⟨rfl, rfl⟩, ?_⟩
  rintro _ _ ⟨rfl, rfl⟩
  exact ⟨ha, hb, hpair.imp_right fun ⟨halike, hnone⟩ => ⟨halike, fun q hq => absurd hq (hnone q)⟩⟩

/-- A pair excuses itself further down: where it is met again, it is the same two containers, and
the relation that has been found for their parts holds of the parts there too. -/
lemma bisimilarUpTo_cons (hS : Coherent h S) (ha : a ∈ S) (hb : b ∈ S)
    (hxy : addresses? (a, b) = some (x, y)) (halike : Alike h a b)
    (hparts : ∀ q, Faces h (a, b) q → BisimilarUpTo h S ((x, y) :: active) q.1 q.2) :
    BisimilarUpTo h S active a b := by
  choose! R hR hRS using hparts
  refine ⟨fun c d => (c = a ∧ d = b) ∨ ∃ q, Faces h (a, b) q ∧ R q c d, .inl ⟨rfl, rfl⟩, ?_⟩
  have hpair : ∀ p, Faces h (a, b) p →
      (p.1 = a ∧ p.2 = b) ∨ ∃ q, Faces h (a, b) q ∧ R q p.1 p.2 :=
    fun p hp => .inr ⟨p, hp, hR p hp⟩
  rintro c d (⟨rfl, rfl⟩ | ⟨q, hq, hcd⟩)
  · exact ⟨ha, hb, .inr ⟨halike, hpair⟩⟩
  · obtain ⟨hc, hd, hcase⟩ := hRS q hq c d hcd
    refine ⟨hc, hd, ?_⟩
    rcases hcase with ⟨x', y', hxy', hsame | hactive⟩ | ⟨halike', hparts'⟩
    · exact .inl ⟨x', y', hxy', .inl hsame⟩
    · rcases List.mem_cons.1 hactive with heq | hactive
      · cases heq
        obtain ⟨hax, hby⟩ := address?_of_addresses? hxy
        obtain ⟨hcx, hdy⟩ := address?_of_addresses? hxy'
        obtain rfl := hS.eq_of_address hc ha hcx hax
        obtain rfl := hS.eq_of_address hd hb hdy hby
        exact .inr ⟨halike, hpair⟩
      · exact .inl ⟨x', y', hxy', .inr hactive⟩
    · exact .inr ⟨halike', fun p hp => .inr ⟨q, hq, hparts' p hp⟩⟩

/-- What a successful comparison has gone through; the induction is on the room that it had. -/
lemma bisimilarUpTo_of_equalWithin (hS : Coherent h S) {room : Nat} (ha : a ∈ S) (hb : b ∈ S)
    (heq : equalWithin h room active a b = true) : BisimilarUpTo h S active a b := by
  induction room generalizing active a b with
  | zero =>
    cases hxy : addresses? (a, b) with
    | none =>
      exact bisimilarUpTo_single ha hb
        (.inr ⟨(equalWithin_of_scalar hxy).1 heq, (facing_of_scalar hxy).2.2⟩)
    | some z => exact bisimilarUpTo_single ha hb (.inl ((equalWithin_zero hxy).1 heq))
  | succ room ih =>
    cases hxy : addresses? (a, b) with
    | none =>
      exact bisimilarUpTo_single ha hb
        (.inr ⟨(equalWithin_of_scalar hxy).1 heq, (facing_of_scalar hxy).2.2⟩)
    | some z =>
      rcases (equalWithin_succ hxy).1 heq with hexcused | ⟨halike, hparts⟩
      · exact bisimilarUpTo_single ha hb (.inl hexcused)
      · refine bisimilarUpTo_cons hS ha hb hxy halike fun q hq => ?_
        obtain ⟨hc, hd⟩ := hS.faces (p := (a, b)) ⟨ha, hb⟩ hq
        exact ih hc hd (hparts q hq)

/-- Where no pair is being compared yet, only a container that is compared with itself is excused,
and a value is bisimilar to itself. -/
lemma BisimilarUpTo.bisimilar (hS : Coherent h S) (hab : BisimilarUpTo h S [] a b) :
    Bisimilar h a b := by
  obtain ⟨R, hR, hRS⟩ := hab
  refine ⟨fun c d => R c d ∨ c = d ∧ c ∈ S, ?_, .inl hR⟩
  -- A container that faces itself, whether it is related or not.
  have hself : ∀ c ∈ S, Alike h c c ∧
      ∀ q, Faces h (c, c) q → R q.1 q.2 ∨ q.1 = q.2 ∧ q.1 ∈ S := by
    intro c hc
    refine ⟨hS.alike_self hc, fun q hq => .inr ⟨hq.eq_of_self, ?_⟩⟩
    exact (hS.faces (p := (c, c)) ⟨hc, hc⟩ hq).1
  rintro c d (hcd | ⟨rfl, hc⟩)
  · obtain ⟨hc, hd, ⟨x, y, hxy, rfl | hactive⟩ | ⟨halike, hparts⟩⟩ := hRS c d hcd
    · obtain ⟨hcx, hdx⟩ := address?_of_addresses? hxy
      obtain rfl := hS.eq_of_address hc hd hcx hdx
      exact hself c hc
    · cases hactive
    · exact ⟨halike, fun q hq => .inl (hparts q hq)⟩
  · exact hself c hc

end Soundness

/-! ## Values that are bisimilar -/

/-- A comparison of `a` and `b` comes to the pair `p` inside of `pairs`, outermost first. -/
structure Approach (h : Heap) (a b : Value) (pairs : List (Value × Value)) (p : Value × Value) :
    Prop where
  starts : (pairs ++ [p]).head? = some (a, b)
  linked : (pairs ++ [p]).IsChain (Faces h)
  apart : ∀ q ∈ pairs, Apart q
  different : (pairs.map addresses?).Nodup

section Completeness

variable {h : Heap} {R : Value → Value → Prop} {a b : Value} {p q : Value × Value}
  {pairs : List (Value × Value)} {active : List (Address × Address)}

/-- The way to a new pair, with the pair itself. -/
lemma Approach.descent (hp : Approach h a b pairs p) (hapart : Apart p)
    (hnew : addresses? p ∉ pairs.map addresses?) : Descent h a b (pairs ++ [p]) where
  starts := hp.starts
  linked := hp.linked
  apart := by
    intro q hq
    rcases List.mem_append.1 hq with hq | hq
    · exact hp.apart q hq
    · rw [List.mem_singleton.1 hq]
      exact hapart
  different := by
    rw [List.map_append, List.map_singleton]
    exact List.nodup_append.2 ⟨hp.different, List.nodup_singleton _, fun x hx y hy heq =>
      hnew (List.mem_singleton.1 hy ▸ heq ▸ hx)⟩

/-- The way goes on to what faces itself in the pair. -/
lemma Descent.approach (hp : Descent h a b (pairs ++ [p])) (hq : Faces h p q) :
    Approach h a b (pairs ++ [p]) q where
  starts := by
    rw [List.head?_append, hp.starts]
    rfl
  linked := by
    refine List.isChain_append.2 ⟨hp.linked, List.isChain_singleton q, fun x hx y hy => ?_⟩
    rw [List.getLast?_concat, Option.mem_some_iff] at hx
    rw [List.head?_singleton, Option.mem_some_iff] at hy
    exact hx ▸ hy ▸ hq
  apart := hp.apart
  different := hp.different

/-- Related values compare as equal wherever a comparison of `a` and `b` comes to them: no way down
is longer than the limit, so there is room for one more pair. -/
lemma equalWithin_of_related (hR : Bisimulation h R)
    (hshort : ∀ pairs, Descent h a b pairs → pairs.length ≤ nestingLimit)
    {room : Nat} (hroom : room + pairs.length = nestingLimit) (hp : R p.1 p.2)
    (hpairs : Approach h a b pairs p) (hactive : ∀ z, some z ∈ pairs.map addresses? → z ∈ active) :
    equalWithin h room active p.1 p.2 = true := by
  induction room using Nat.strongRecOn generalizing pairs p active with | ind room ih => ?_
  obtain ⟨halike, hparts⟩ := hR p.1 p.2 hp
  cases hxy : addresses? p with
  | none => exact (equalWithin_of_scalar hxy).2 halike
  | some z =>
    by_cases hexcused : Excused active p
    · exact equalWithin_of_excused hexcused
    · obtain ⟨x, y⟩ := z
      have hne : x ≠ y := fun heq => hexcused ⟨x, y, hxy, .inl heq⟩
      have hnew : addresses? p ∉ pairs.map addresses? := fun hmem =>
        hexcused ⟨x, y, hxy, .inr (hactive (x, y) (hxy ▸ hmem))⟩
      have hdescent := hpairs.descent ⟨x, y, hxy, hne⟩ hnew
      have hlength := hshort _ hdescent
      rw [List.length_append, List.length_singleton] at hlength
      obtain ⟨room, rfl⟩ : ∃ n, room = n + 1 := ⟨room - 1, by omega⟩
      refine (equalWithin_succ hxy).2 (.inr ⟨halike, fun q hq => ?_⟩)
      refine ih room room.lt_succ_self ?_ (hparts q hq) (hdescent.approach hq) ?_
      · rw [List.length_append, List.length_singleton]
        omega
      · intro z hz
        rw [List.map_append, List.map_singleton, List.mem_append, List.mem_singleton, hxy] at hz
        rcases hz with hz | hz
        · exact List.mem_cons_of_mem _ (hactive z hz)
        · exact Option.some.inj hz ▸ List.mem_cons_self

/-- A way down is not longer than a list of pairs that it cannot leave. -/
lemma Descent.length_le {pool : List (Value × Value)} (hd : Descent h a b pairs)
    (hab : (a, b) ∈ pool) (hclosed : ∀ p ∈ pool, ∀ q, Faces h p q → q ∈ pool) :
    pairs.length ≤ pool.length := by
  have hpool : ∀ p ∈ pairs, p ∈ pool := by
    refine hd.linked.induction (· ∈ pool) pairs (fun p q hq hp => hclosed p hp q hq) fun hne => ?_
    have hhead : pairs.head hne = (a, b) := List.head_eq_iff_head?_eq_some hne |>.2 hd.starts
    exact hhead ▸ hab
  have hsubset : pairs.map addresses? ⊆ pool.map addresses? := by
    intro z hz
    obtain ⟨p, hp, rfl⟩ := List.mem_map.1 hz
    exact List.mem_map_of_mem (hpool p hp)
  simpa using (hd.different.subperm hsubset).length_le

end Completeness

/-- **Equality is bisimilarity.**  Of values in a coherent set, cyclic or not: if they compare as
equal, there is a bisimulation that relates them.  And if there is one, they compare as equal,
unless there is a way down from them, through different pairs of containers that are apart, on which
comparing gives up because it is longer than the limit. -/
theorem equality_is_bisimilarity {h : Heap} {S : Set Value} (hS : Coherent h S) {a b : Value}
    (ha : a ∈ S) (hb : b ∈ S) :
    (equal h a b = true → Bisimilar h a b) ∧
    ((∀ pairs, Descent h a b pairs → pairs.length ≤ nestingLimit) →
      Bisimilar h a b → equal h a b = true) := by
  constructor
  · intro heq
    exact (bisimilarUpTo_of_equalWithin hS ha hb heq).bisimilar hS
  · rintro hshort ⟨R, hR, hab⟩
    have hstart : Approach h a b [] (a, b) :=
      { starts := rfl
        linked := List.isChain_singleton _
        apart := fun q hq => absurd hq List.not_mem_nil
        different := List.nodup_nil }
    exact equalWithin_of_related (p := (a, b)) hR hshort rfl hab hstart
      fun z hz => absurd hz List.not_mem_nil

/-- Three lists: the first two contain each other, and the last one contains itself. -/
def loops : Heap :=
  { Heap.empty with lists := #[#[.list ⟨1⟩], #[.list ⟨0⟩], #[.list ⟨2⟩]] }

/-- The pairs that a comparison of the first and the last of them can come to. -/
def loopPairs : List (Value × Value) := [(.list ⟨0⟩, .list ⟨2⟩), (.list ⟨1⟩, .list ⟨2⟩)]

/-- One of the lists that contain each other is bisimilar to the one that contains itself, and they
compare as equal. -/
theorem equality_is_bisimilarity_of_loops :
    Coherent loops {v | ∃ i < 3, v = .list ⟨i⟩} ∧
    (∀ pairs, Descent loops (.list ⟨0⟩) (.list ⟨2⟩) pairs → pairs.length ≤ nestingLimit) ∧
    Bisimilar loops (.list ⟨0⟩) (.list ⟨2⟩) ∧ equal loops (.list ⟨0⟩) (.list ⟨2⟩) = true := by
  have hS : Coherent loops {v | ∃ i < 3, v = .list ⟨i⟩} := by
    constructor
    · rintro v ⟨i, hi, rfl⟩ c hc
      obtain rfl | rfl | rfl : i = 0 ∨ i = 1 ∨ i = 2 := by omega
      · exact ⟨1, by decide, List.mem_singleton.1 hc⟩
      · exact ⟨0, by decide, List.mem_singleton.1 hc⟩
      · exact ⟨2, by decide, List.mem_singleton.1 hc⟩
    · rintro i as bs ⟨j, -, hj⟩
      cases hj
    · rintro x ⟨j, -, hj⟩
      cases hj
  have hshort : ∀ pairs, Descent loops (.list ⟨0⟩) (.list ⟨2⟩) pairs →
      pairs.length ≤ nestingLimit := by
    intro pairs hd
    have hclosed : ∀ p ∈ loopPairs, ∀ q, Faces loops p q → q ∈ loopPairs := by
      intro p hp q hq
      rcases List.mem_pair.1 hp with rfl | rfl
      · exact List.mem_pair.2 (.inr (List.mem_singleton.1 hq))
      · exact List.mem_pair.2 (.inl (List.mem_singleton.1 hq))
    have hpool : pairs.length ≤ loopPairs.length := hd.length_le List.mem_cons_self hclosed
    exact Nat.le_trans hpool (by decide)
  have hequal : equal loops (.list ⟨0⟩) (.list ⟨2⟩) = true := by decide
  obtain ⟨hsound, hcomplete⟩ :=
    equality_is_bisimilarity hS ⟨0, by decide, rfl⟩ ⟨2, by decide, rfl⟩
  exact ⟨hS, hshort, hsound hequal, hcomplete hshort (hsound hequal)⟩

end Value

end StackMachine
