import StackMachine.Object.Operators
import StackMachine.Proofs.OrderUnfolding
/-!
# The order of values

Comparing two sequences first looks for items that are not equal, which is a matter of equality, and
then orders these, which is a matter of the order again.  `Ordered` says what comes out, with one
rule for each reason that a value can have to come before another one.  Without floats it is exactly
what the comparisons compute (`order_of_ordered`, `ordered_of_order`), and the laws of the order are
proved of it, by induction on the reason.

That equal values may be exchanged (`Ordered.congr_right`) comes before transitivity.  When one
sequence parts from a second one, and the second one from a third, one of them has an item at the
earlier place that only equals the item there which has been compared.
-/

namespace StackMachine

namespace CompareOp

/-- The comparison that says the same when its operands are exchanged. -/
def mirrored : CompareOp → CompareOp
  | .lt => .gt
  | .le => .ge
  | .gt => .lt
  | .ge => .le
  | op => op

/-- What a comparison says of two values that are ordered. -/
def admits : CompareOp → Ordering → Bool
  | .lt => Ordering.isLT
  | .le => Ordering.isLE
  | .eq => Ordering.isEq
  | .ne => Ordering.isNe
  | .gt => Ordering.isGT
  | .ge => Ordering.isGE
  | _ => fun _ => false

lemma admits_mirrored (op : CompareOp) (o : Ordering) :
    op.mirrored.admits o.swap = op.admits o := by
  cases op <;> cases o <;> rfl

end CompareOp

namespace Value

variable {h : Heap} {S : Set Value} {op : CompareOp} {a b c x y : Value} {as bs cs : List Value}
  {o : Ordering} {n : Nat}

/-! ## The order as one would write it down -/

/-- The first `n` items of two sequences are equal. -/
def AgreeBelow (h : Heap) (n : Nat) (as bs : List Value) : Prop :=
  ∀ i < n, ∃ x y, as[i]? = some x ∧ bs[i]? = some y ∧ equal h x y = true

/-- **The order of values.**  Numbers are ordered by value, where truth values are zero and one, and
strings by their characters.  Tuples are ordered among themselves, and so are lists: by the first
items that are not equal, and if there are none, by their lengths. -/
inductive Ordered (h : Heap) : Value → Value → Ordering → Prop
  | numbers {a b : Value} {m n : Int64} (ha : a.number? = some (.int m))
    (hb : b.number? = some (.int n)) : Ordered h a b (Ord.compare m.toInt n.toInt)
  | texts (i j : Nat) (s t : String) : Ordered h (.str i s) (.str j t) (Ord.compare s t)
  | lengths {a b : Value} {as bs : List Value} (hab : sequences? h a b = some (as, bs))
    (hagree : AgreeBelow h (min as.length bs.length) as bs) :
    Ordered h a b (Ord.compare as.length bs.length)
  | items {a b x y : Value} {as bs : List Value} {i : Nat} {o : Ordering}
    (hab : sequences? h a b = some (as, bs)) (hagree : AgreeBelow h i as bs)
    (hx : as[i]? = some x) (hy : bs[i]? = some y) (hne : equal h x y = false)
    (hxy : Ordered h x y o) : Ordered h a b o

/-! ## Sequences -/

lemma sequences?_cases (hab : sequences? h a b = some (as, bs)) :
    (∃ i j, a = .tuple i as ∧ b = .tuple j bs) ∨
      ∃ r s, a = .list r ∧ b = .list s ∧ as = (h.list r).toList ∧ bs = (h.list s).toList := by
  unfold sequences? at hab
  split at hab <;> cases hab
  · exact .inl ⟨_, _, rfl, rfl⟩
  · exact .inr ⟨_, _, rfl, rfl, rfl, rfl⟩

lemma sequences?_contents (hab : sequences? h a b = some (as, bs)) :
    a.contents h = as ∧ b.contents h = bs := by
  obtain ⟨i, j, rfl, rfl⟩ | ⟨r, s, rfl, rfl, rfl, rfl⟩ := sequences?_cases hab <;> exact ⟨rfl, rfl⟩

lemma sequences?_symm (hab : sequences? h a b = some (as, bs)) :
    sequences? h b a = some (bs, as) := by
  obtain ⟨i, j, rfl, rfl⟩ | ⟨r, s, rfl, rfl, rfl, rfl⟩ := sequences?_cases hab <;> rfl

lemma sequences?_trans {bs' : List Value} (hab : sequences? h a b = some (as, bs))
    (hbc : sequences? h b c = some (bs', cs)) :
    bs' = bs ∧ sequences? h a c = some (as, cs) := by
  obtain ⟨i, j, rfl, rfl⟩ | ⟨r, s, rfl, rfl, rfl, rfl⟩ := sequences?_cases hab <;>
    cases c <;> cases hbc <;> exact ⟨rfl, rfl⟩

lemma agreeBelow_succ : AgreeBelow h (n + 1) (a :: as) (b :: bs) ↔
    equal h a b = true ∧ AgreeBelow h n as bs := by
  rw [AgreeBelow, AgreeBelow, Nat.forall_lt_succ_left]
  simp

lemma AgreeBelow.mono {m : Nat} (hagree : AgreeBelow h n as bs) (hmn : m ≤ n) :
    AgreeBelow h m as bs := fun i hi => hagree i (hi.trans_le hmn)

lemma AgreeBelow.le_length (hagree : AgreeBelow h n as bs) : n ≤ as.length ∧ n ≤ bs.length := by
  cases n with
  | zero => simp
  | succ n =>
    obtain ⟨x, y, hx, hy, -⟩ := hagree n n.lt_succ_self
    exact ⟨(List.getElem?_eq_some_iff.1 hx).1, (List.getElem?_eq_some_iff.1 hy).1⟩

lemma forall₂_iff_agreeBelow : List.Forall₂ (fun x y => equal h x y = true) as bs ↔
    as.length = bs.length ∧ AgreeBelow h as.length as bs := by
  induction as generalizing bs with
  | nil => cases bs <;> simp [AgreeBelow]
  | cons a as ih =>
    cases bs with
    | nil => simp
    | cons b bs =>
      rw [List.forall₂_cons, List.length_cons, List.length_cons, agreeBelow_succ, ih,
        Nat.add_right_cancel_iff, and_left_comm]

/-- Either the shorter sequence agrees with the other one up to its end, or there are first items
that differ. -/
lemma agreeBelow_or_differ (h : Heap) (as bs : List Value) :
    AgreeBelow h (min as.length bs.length) as bs ∨
      ∃ i x y, AgreeBelow h i as bs ∧ as[i]? = some x ∧ bs[i]? = some y ∧ equal h x y = false := by
  induction as generalizing bs with
  | nil => exact .inl nofun
  | cons a as ih =>
    cases bs with
    | nil => exact .inl nofun
    | cons b bs =>
      cases hab : equal h a b with
      | false => exact .inr ⟨0, a, b, nofun, rfl, rfl, hab⟩
      | true =>
        obtain hagree | ⟨i, x, y, hagree, hxy⟩ := ih bs
        · rw [List.length_cons, List.length_cons, Nat.succ_min_succ]
          exact .inl (agreeBelow_succ.2 ⟨hab, hagree⟩)
        · exact .inr ⟨i + 1, x, y, agreeBelow_succ.2 ⟨hab, hagree⟩, hxy⟩

lemma orderItems_of_agree (hagree : AgreeBelow h (min as.length bs.length) as bs) :
    orderItems h op as bs = .ok (some (Ord.compare as.length bs.length)) := by
  induction as generalizing bs with
  | nil => cases bs <;> simp [orderItems, orderItemsWith, Nat.compare_eq_lt.2]
  | cons a as ih =>
    cases bs with
    | nil => simp [orderItems, orderItemsWith, Nat.compare_eq_gt.2]
    | cons b bs =>
      rw [List.length_cons, List.length_cons, Nat.succ_min_succ, agreeBelow_succ] at hagree
      rw [orderItems_cons, if_pos hagree.1, ih hagree.2]
      simp [Nat.compare_eq_ite_lt]

lemma orderItems_of_differ {i : Nat} (hagree : AgreeBelow h i as bs) (hx : as[i]? = some x)
    (hy : bs[i]? = some y) (hne : equal h x y = false) :
    orderItems h op as bs = order h op x y := by
  induction i generalizing as bs with
  | zero =>
    obtain ⟨as, rfl⟩ : ∃ l, as = x :: l := by cases as <;> simp_all
    obtain ⟨bs, rfl⟩ : ∃ l, bs = y :: l := by cases bs <;> simp_all
    rw [orderItems_cons, if_neg (by simp [hne])]
  | succ i ih =>
    cases as with
    | nil => cases hx
    | cons a as =>
      cases bs with
      | nil => cases hy
      | cons b bs =>
        obtain ⟨hab, hagree⟩ := agreeBelow_succ.1 hagree
        rw [orderItems_cons, if_pos hab, ih hagree hx hy]

/-- Every pair in the order is there for one reason. -/
lemma Ordered.cases (hab : Ordered h a b o) :
    (∃ m n, a.number? = some (.int m) ∧ b.number? = some (.int n) ∧
      o = Ord.compare m.toInt n.toInt) ∨
    (∃ i j s t, a = .str i s ∧ b = .str j t ∧ o = Ord.compare s t) ∨
    ∃ as bs, sequences? h a b = some (as, bs) ∧
      ((AgreeBelow h (min as.length bs.length) as bs ∧ o = Ord.compare as.length bs.length) ∨
        ∃ i x y, AgreeBelow h i as bs ∧ as[i]? = some x ∧ bs[i]? = some y ∧ Ordered h x y o) := by
  cases hab with
  | numbers ha hb => exact .inl ⟨_, _, ha, hb, rfl⟩
  | texts i j s t => exact .inr (.inl ⟨i, j, s, t, rfl, rfl, rfl⟩)
  | lengths hab hagree => exact .inr (.inr ⟨_, _, hab, .inl ⟨hagree, rfl⟩⟩)
  | items hab hagree hx hy _ hxy =>
    exact .inr (.inr ⟨_, _, hab, .inr ⟨_, _, _, hagree, hx, hy, hxy⟩⟩)

/-- Of two sequences that have agreed so far, the first one ends before an item of the other one, or
has an item that comes before it. -/
inductive Precedes (h : Heap) : Option Value → Value → Prop
  | ended (y : Value) : Precedes h Option.none y
  | item {x y : Value} (hxy : Ordered h x y .lt) : Precedes h (some x) y

/-- The place where a sequence parts from one that is behind it. -/
lemma Ordered.exists_precedes (hab : Ordered h a b .lt)
    (hca : sequences? h c a = some (cs, as)) :
    ∃ bs i y, sequences? h a b = some (as, bs) ∧ AgreeBelow h i as bs ∧ bs[i]? = some y ∧
      Precedes h as[i]? y := by
  obtain ⟨m, n, ha, -⟩ | ⟨i, j, s, t, rfl, -⟩ | ⟨as', bs, hab', hcase⟩ := hab.cases
  · obtain ⟨i, j, -, rfl⟩ | ⟨r, s, -, rfl, -⟩ := sequences?_cases hca <;> cases ha
  · obtain ⟨i, j, -, ⟨⟩⟩ | ⟨r, s, -, ⟨⟩, -⟩ := sequences?_cases hca
  · obtain ⟨rfl, -⟩ := sequences?_trans hca hab'
    obtain ⟨hagree, hlengths⟩ | ⟨i, x, y, hagree, hx, hy, hxy⟩ := hcase
    · have hlt := Nat.compare_eq_lt.1 hlengths.symm
      rw [Nat.min_eq_left hlt.le] at hagree
      refine ⟨bs, _, bs[as'.length], hab', hagree, List.getElem?_eq_getElem hlt, ?_⟩
      rw [List.getElem?_length]
      exact .ended _
    · exact ⟨bs, i, y, hab', hagree, hy, hx ▸ .item hxy⟩

lemma compareText_eq (s t : String) : compareText s t = Ord.compare s t := by
  change _ = compareOfLessAndEq s t
  unfold compareText compareOfLessAndEq
  split <;> split <;> simp_all

/-! ## Order and equality of plain values -/

section Plain

variable (hS : Plain h S)
include hS

lemma mem_of_sequences? (ha : a ∈ S) (hb : b ∈ S)
    (hab : sequences? h a b = some (as, bs)) :
    (∀ {i : Nat} {x}, as[i]? = some x → x ∈ S) ∧ ∀ {i : Nat} {y}, bs[i]? = some y → y ∈ S := by
  obtain ⟨rfl, rfl⟩ := sequences?_contents hab
  exact ⟨fun hx => hS.closed a ha _ (List.mem_of_getElem? hx),
    fun hy => hS.closed b hb _ (List.mem_of_getElem? hy)⟩

/-- Sequences of one kind are equal when their items are. -/
lemma equal_iff_of_sequences? (ha : a ∈ S) (hb : b ∈ S)
    (hab : sequences? h a b = some (as, bs)) :
    equal h a b = true ↔ as.length = bs.length ∧ AgreeBelow h as.length as bs := by
  rw [← forall₂_iff_agreeBelow]
  obtain ⟨i, j, rfl, rfl⟩ | ⟨r, s, rfl, rfl, rfl, rfl⟩ := sequences?_cases hab
  · exact equal_tuple_iff hS.coherent ha hb (hS.nested _ ha)
  · exact equal_list_iff hS.coherent ha hb (hS.nested _ ha)

lemma AgreeBelow.symm (has : ∀ {i : Nat} {x}, as[i]? = some x → x ∈ S)
    (hbs : ∀ {i : Nat} {y}, bs[i]? = some y → y ∈ S) (hagree : AgreeBelow h n as bs) :
    AgreeBelow h n bs as := by
  intro i hi
  obtain ⟨x, y, hx, hy, hxy⟩ := hagree i hi
  exact ⟨y, x, hy, hx, hS.equal_symm (has hx) (hbs hy) hxy⟩

lemma AgreeBelow.trans (has : ∀ {i : Nat} {x}, as[i]? = some x → x ∈ S)
    (hbs : ∀ {i : Nat} {y}, bs[i]? = some y → y ∈ S)
    (hcs : ∀ {i : Nat} {z}, cs[i]? = some z → z ∈ S) (hab : AgreeBelow h n as bs)
    (hbc : AgreeBelow h n bs cs) : AgreeBelow h n as cs := by
  intro i hi
  obtain ⟨x, y, hx, hy, hxy⟩ := hab i hi
  obtain ⟨y', z, hy', hz, hyz⟩ := hbc i hi
  obtain rfl := Option.some.inj (hy.symm.trans hy')
  exact ⟨x, z, hx, hz, hS.equal_trans (has hx) (hbs hy) (hcs hz) hxy hyz⟩

/-- What equals a sequence is one of the same kind, with equal items. -/
lemma exists_sequences?_of_equal (ha : a ∈ S) (hb : b ∈ S) (hc : c ∈ S)
    (hab : sequences? h a b = some (as, bs)) (hbc : equal h b c = true) :
    ∃ cs, sequences? h a c = some (as, cs) ∧ bs.length = cs.length ∧
      (∀ {n}, AgreeBelow h n as bs → AgreeBelow h n as cs) ∧
      ∀ {i : Nat} {y}, bs[i]? = some y → ∃ z ∈ S, cs[i]? = some z ∧ equal h y z = true := by
  obtain ⟨halike, -⟩ := (equal_iff_faces hS.coherent hb hc (hS.nested b hb)).1 hbc
  obtain ⟨cs, hbc'⟩ : ∃ cs, sequences? h b c = some (bs, cs) := by
    obtain ⟨i, j, rfl, rfl⟩ | ⟨r, s, rfl, rfl, rfl, rfl⟩ := sequences?_cases hab
    · obtain ⟨k, cs, rfl, -⟩ := alike_tuple_iff.1 halike
      exact ⟨cs, rfl⟩
    · obtain ⟨t, rfl, -⟩ := alike_list_iff.1 halike
      exact ⟨_, rfl⟩
  obtain ⟨has, hbs⟩ := mem_of_sequences? hS ha hb hab
  obtain ⟨-, hcs⟩ := mem_of_sequences? hS hb hc hbc'
  obtain ⟨hlength, hall⟩ := (equal_iff_of_sequences? hS hb hc hbc').1 hbc
  refine ⟨cs, (sequences?_trans hab hbc').2, hlength, fun hagree => ?_, fun hy => ?_⟩
  · exact hagree.trans hS has hbs hcs (hall.mono hagree.le_length.2)
  · obtain ⟨y', z, hy', hz, hyz⟩ := hall _ (List.getElem?_eq_some_iff.1 hy).1
    obtain rfl := Option.some.inj (hy.symm.trans hy')
    exact ⟨z, hcs hz, hz, hyz⟩

/-! ## Laws -/

/-- The other way round the order is the opposite one. -/
theorem Ordered.swap (ha : a ∈ S) (hb : b ∈ S) (hab : Ordered h a b o) :
    Ordered h b a o.swap := by
  induction hab with
  | numbers ha' hb' =>
    rw [← Std.OrientedOrd.eq_swap]
    exact .numbers hb' ha'
  | texts i j s t =>
    rw [← Std.OrientedOrd.eq_swap]
    exact .texts j i t s
  | lengths hab hagree =>
    obtain ⟨has, hbs⟩ := mem_of_sequences? hS ha hb hab
    rw [← Std.OrientedOrd.eq_swap]
    exact .lengths (sequences?_symm hab) (Nat.min_comm _ _ ▸ hagree.symm hS has hbs)
  | items hab hagree hx hy hne hxy ih =>
    obtain ⟨has, hbs⟩ := mem_of_sequences? hS ha hb hab
    have hne' := (hS.equal_comm (hbs hy) (has hx)).trans hne
    exact .items (sequences?_symm hab) (hagree.symm hS has hbs) hy hx hne' (ih (has hx) (hbs hy))

/-- Of two values that are ordered none comes first if and only if they are equal. -/
theorem Ordered.eq_iff (ha : a ∈ S) (hb : b ∈ S) (hab : Ordered h a b o) :
    o = .eq ↔ equal h a b = true := by
  induction hab with
  | numbers ha' hb' =>
    rw [hS.equal_iff_face? hb (face?_eq_int.2 ha'), face?_eq_int, hb', Std.compare_eq_iff_eq]
    simp [Int64.toInt_inj, eq_comm]
  | texts i j s t =>
    rw [hS.equal_iff_face? hb (face?_eq_text.2 ⟨i, rfl⟩), face?_eq_text, Std.compare_eq_iff_eq]
    simp [eq_comm]
  | lengths hab hagree =>
    rw [equal_iff_of_sequences? hS ha hb hab, Std.compare_eq_iff_eq]
    refine ⟨fun heq => ⟨heq, ?_⟩, And.left⟩
    rwa [← heq, Nat.min_self] at hagree
  | items hab hagree hx hy hne hxy ih =>
    obtain ⟨has, hbs⟩ := mem_of_sequences? hS ha hb hab
    rw [ih (has hx) (hbs hy), hne, equal_iff_of_sequences? hS ha hb hab]
    refine iff_of_false nofun fun ⟨_, hall⟩ => ?_
    obtain ⟨x, y, hx', hy', hxy⟩ := hall _ (List.getElem?_eq_some_iff.1 hx).1
    cases hx.symm.trans hx'
    cases hy.symm.trans hy'
    rw [hne] at hxy
    cases hxy

/-- Values that are equal have the same place in the order. -/
theorem Ordered.congr_right (ha : a ∈ S) (hb : b ∈ S) (hc : c ∈ S)
    (hab : Ordered h a b o) (hbc : equal h b c = true) : Ordered h a c o := by
  induction hab generalizing c with
  | numbers ha' hb' =>
    have hface := (hS.equal_iff_face? hc (face?_eq_int.2 hb')).1 hbc
    exact .numbers ha' (face?_eq_int.1 hface)
  | texts i j s t =>
    have hface := (hS.equal_iff_face? hc (face?_eq_text.2 ⟨j, rfl⟩)).1 hbc
    obtain ⟨k, rfl⟩ := face?_eq_text.1 hface
    exact .texts i k s t
  | lengths hab hagree =>
    obtain ⟨cs, hac, hlength, hexchange, -⟩ := exists_sequences?_of_equal hS ha hb hc hab hbc
    rw [hlength] at hagree ⊢
    exact .lengths hac (hexchange hagree)
  | items hab hagree hx hy hne hxy ih =>
    obtain ⟨has, hbs⟩ := mem_of_sequences? hS ha hb hab
    obtain ⟨cs, hac, -, hexchange, hitem⟩ := exists_sequences?_of_equal hS ha hb hc hab hbc
    obtain ⟨z, hzS, hz, hyz⟩ := hitem hy
    have hne' := (hS.equal_congr_right (has hx) (hbs hy) hzS hyz).symm.trans hne
    exact .items hac (hexchange hagree) hx hz hne' (ih (has hx) (hbs hy) hzS hyz)

theorem Ordered.congr_left (ha : a ∈ S) (hb : b ∈ S) (hc : c ∈ S)
    (hab : Ordered h a b o) (hac : equal h a c = true) : Ordered h c b o := by
  have hcb := ((hab.swap hS ha hb).congr_right hS hb ha hc hac).swap hS hb hc
  rwa [Ordering.swap_swap] at hcb

lemma Ordered.of_precedes (ha : a ∈ S) (hb : b ∈ S)
    (hab : sequences? h a b = some (as, bs)) {i : Nat} (hagree : AgreeBelow h i as bs)
    (hy : bs[i]? = some y) (hxy : Precedes h as[i]? y) : Ordered h a b .lt := by
  obtain ⟨has, hbs⟩ := mem_of_sequences? hS ha hb hab
  generalize hx : as[i]? = x? at hxy
  cases hxy with
  | ended =>
    have hlength := List.getElem?_eq_none_iff.1 hx
    have hi := (List.getElem?_eq_some_iff.1 hy).1
    have hlt : as.length < bs.length := hlength.trans_lt hi
    rw [← Nat.compare_eq_lt.2 hlt]
    exact .lengths hab (hagree.mono ((Nat.min_le_left _ _).trans hlength))
  | item hxy =>
    have hne : equal h _ y = false := Bool.eq_false_iff.2 fun heq =>
      nomatch (hxy.eq_iff hS (has hx) (hbs hy)).2 heq
    exact .items hab hagree hx hy hne hxy

/-- Three sequences, of which the first two part at the place `i`.  The last two part behind that
place, at it, or before it. -/
lemma Ordered.trans_of_precedes (ha : a ∈ S) (hb : b ∈ S) (hc : c ∈ S)
    (hab : sequences? h a b = some (as, bs)) {i : Nat} (hagree : AgreeBelow h i as bs)
    (hy : bs[i]? = some y) (hxy : Precedes h as[i]? y)
    (hnext : ∀ z ∈ S, Ordered h y z .lt → Precedes h as[i]? z) (hbc : Ordered h b c .lt) :
    Ordered h a c .lt := by
  obtain ⟨cs, j, z, hbc', hagree', hz, hyz⟩ := hbc.exists_precedes hab
  obtain ⟨-, hac⟩ := sequences?_trans hab hbc'
  obtain ⟨has, hbs⟩ := mem_of_sequences? hS ha hb hab
  obtain ⟨-, hcs⟩ := mem_of_sequences? hS hb hc hbc'
  have hagree'' : ∀ k, k ≤ i → k ≤ j → AgreeBelow h k as cs := fun k hki hkj =>
    (hagree.mono hki).trans hS has hbs hcs (hagree'.mono hkj)
  obtain hij | rfl | hji := Nat.lt_trichotomy i j
  · -- What the third one has where the first two part equals what the second one has.
    obtain ⟨y', z, hy', hz, hyz⟩ := hagree' i hij
    obtain rfl := Option.some.inj (hy.symm.trans hy')
    refine .of_precedes hS ha hc hac (hagree'' i le_rfl hij.le) hz ?_
    generalize hx : as[i]? = x? at hxy
    cases hxy with
    | ended => exact .ended z
    | item hxy =>
      exact .item (hxy.congr_right hS (has hx) (hbs hy) (hcs hz) hyz)
  · rw [hy] at hyz
    obtain _ | hyz := hyz
    exact .of_precedes hS ha hc hac (hagree'' i le_rfl le_rfl) hz (hnext z (hcs hz) hyz)
  · -- What the first one has where the last two part equals what the second one has.
    obtain ⟨x, y', hx, hy', hxy'⟩ := hagree j hji
    rw [hy'] at hyz
    obtain _ | hyz := hyz
    have hyx := hS.equal_symm (has hx) (hbs hy') hxy'
    have hxz := hyz.congr_left hS (hbs hy') (hcs hz) (has hx) hyx
    exact .of_precedes hS ha hc hac (hagree'' j hji.le le_rfl) hz (hx ▸ .item hxz)

/-- What is behind something that is behind a value is behind that value. -/
theorem Ordered.trans (ha : a ∈ S) (hb : b ∈ S) (hc : c ∈ S)
    (hab : Ordered h a b .lt) (hbc : Ordered h b c .lt) : Ordered h a c .lt := by
  obtain ⟨o, ho, horder⟩ : ∃ o, o = Ordering.lt ∧ Ordered h a b o := ⟨_, rfl, hab⟩
  clear hab
  induction horder generalizing c with
  | numbers ha' hb' =>
    obtain ⟨m, n, hb'', hc', hlt⟩ | ⟨i, j, s, t, rfl, -⟩ | ⟨bs, cs, hbc', -⟩ := hbc.cases
    · cases hb'.symm.trans hb''
      rw [← Std.TransCmp.lt_trans ho hlt.symm]
      exact .numbers ha' hc'
    · cases hb'
    · obtain ⟨i, j, rfl, -⟩ | ⟨r, s, rfl, -⟩ := sequences?_cases hbc' <;> cases hb'
  | texts i j s t =>
    obtain ⟨m, n, hb', -⟩ | ⟨i', j', s', t', hb', rfl, hlt⟩ | ⟨bs, cs, hbc', -⟩ := hbc.cases
    · cases hb'
    · cases hb'
      rw [← Std.TransCmp.lt_trans ho hlt.symm]
      exact .texts i j' s t'
    · cases hbc'
  | lengths hab hagree =>
    have hlt := Nat.compare_eq_lt.1 ho
    rw [Nat.min_eq_left hlt.le] at hagree
    refine .trans_of_precedes hS ha hb hc hab hagree (List.getElem?_eq_getElem hlt) ?_ ?_ hbc
    · rw [List.getElem?_length]
      exact .ended _
    · rw [List.getElem?_length]
      exact fun z _ _ => .ended z
  | items hab hagree hx hy hne hxy ih =>
    obtain ⟨has, hbs⟩ := mem_of_sequences? hS ha hb hab
    rw [ho] at hxy
    refine .trans_of_precedes hS ha hb hc hab hagree hy (hx ▸ .item hxy) (fun z hz hyz => ?_) hbc
    exact hx ▸ .item (ih (has hx) (hbs hy) hz hyz ho)

/-! ## Comparing -/

lemma order_of_ordered (ha : a ∈ S) (hb : b ∈ S) (hab : Ordered h a b o) :
    order h op a b = .ok (some o) := by
  induction hab with
  | @numbers a b m n ha' hb' => cases a <;> cases ha' <;> cases b <;> cases hb' <;> rfl
  | texts i j s t => rw [order_of_scalar rfl, orderScalars, compareText_eq]
  | lengths hab hagree => rw [order_sequences (hS.nested _ ha) hab, orderItems_of_agree hagree]
  | items hab hagree hx hy hne hxy ih =>
    obtain ⟨has, hbs⟩ := mem_of_sequences? hS ha hb hab
    rw [order_sequences (hS.nested _ ha) hab, orderItems_of_differ hagree hx hy hne,
      ih (has hx) (hbs hy)]

lemma exists_int_of_number? (ha : a ∈ S) {x : Number}
    (hx : a.number? = some x) : ∃ m, x = .int m := by
  cases a with
  | float d => exact absurd ha (hS.floatFree d)
  | _ => cases hx <;> exact ⟨_, rfl⟩

lemma ordered_of_orderScalars (ha : a ∈ S) (hb : b ∈ S) {x : Option Ordering}
    (hok : orderScalars op a b = .ok x) : ∃ o, x = some o ∧ Ordered h a b o := by
  unfold orderScalars at hok
  split at hok
  · next i s j t =>
    cases hok
    exact ⟨_, rfl, compareText_eq s t ▸ .texts i j s t⟩
  · split at hok
    · next m n hm hn =>
      cases hok
      exact ⟨_, rfl, .numbers hm hn⟩
    · next hfloat hm hn =>
      obtain ⟨m, rfl⟩ := exists_int_of_number? hS ha hm
      obtain ⟨n, rfl⟩ := exists_int_of_number? hS hb hn
      exact (hfloat m n rfl rfl).elim
    · cases hok

/-- What the order says of two values it says for a reason; the induction is on the depth of the
first one. -/
lemma ordered_of_order (ha : a ∈ S) (hb : b ∈ S) {x : Option Ordering}
    (hok : order h op a b = .ok x) : ∃ o, x = some o ∧ Ordered h a b o := by
  induction hd : depth h a using Nat.strongRecOn generalizing a b with | ind d ih => ?_
  cases hab : sequences? h a b with
  | none =>
    rw [order_of_scalar hab] at hok
    exact ordered_of_orderScalars hS ha hb hok
  | some items =>
    obtain ⟨as, bs⟩ := items
    rw [order_sequences (hS.nested a ha) hab] at hok
    obtain hagree | ⟨i, x, y, hagree, hx, hy, hne⟩ := agreeBelow_or_differ h as bs
    · rw [orderItems_of_agree hagree] at hok
      cases hok
      exact ⟨_, rfl, .lengths hab hagree⟩
    · rw [orderItems_of_differ hagree hx hy hne] at hok
      obtain ⟨has, hbs⟩ := mem_of_sequences? hS ha hb hab
      have hxa : x ∈ a.contents h := (sequences?_contents hab).1 ▸ List.mem_of_getElem? hx
      have hless : depth h x < d := hd ▸ depth_lt_of_mem (hS.nested a ha) hxa
      obtain ⟨o, rfl, hxy⟩ := ih _ hless (has hx) (hbs hy) hok rfl
      exact ⟨o, rfl, .items hab hagree hx hy hne hxy⟩

lemma compare_of_ordered (ha : a ∈ S) (hb : b ∈ S) (hab : Ordered h a b o)
    (hop : op ∈ [.lt, .le, .eq, .ne, .gt, .ge]) : compare h op a b = .ok (op.admits o) := by
  have horder := @order_of_ordered h S op a b o hS ha hb hab
  have hequal : equal h a b = o.isEq := by
    rw [Bool.eq_iff_iff, Ordering.isEq_iff_eq_eq, hab.eq_iff hS ha hb]
  simp only [List.mem_cons, List.not_mem_nil, or_false] at hop
  obtain rfl | rfl | rfl | rfl | rfl | rfl := hop <;>
    first | rw [compare, horder] | rw [compare, hequal]
  all_goals cases o <;> rfl

/-- An order comparison succeeds only on values that are ordered. -/
lemma ordered_of_compare (ha : a ∈ S) (hb : b ∈ S) {t : Bool}
    (hop : op ∈ [.lt, .le, .gt, .ge]) (hok : compare h op a b = .ok t) : ∃ o, Ordered h a b o := by
  have hmap : ∃ f : Option Ordering → Bool, (order h op a b).map f = .ok t := by
    simp only [List.mem_cons, List.not_mem_nil, or_false] at hop
    obtain rfl | rfl | rfl | rfl := hop <;> exact ⟨_, hok⟩
  obtain ⟨f, hf⟩ := hmap
  cases horder : order h op a b with
  | error c =>
    rw [horder] at hf
    cases hf
  | ok x =>
    obtain ⟨o, -, hab⟩ := ordered_of_order hS ha hb horder
    exact ⟨o, hab⟩

/-- An order comparison succeeds the other way round too, and says the same there. -/
lemma compare_mirrored (ha : a ∈ S) (hb : b ∈ S) {t : Bool}
    (hop : op ∈ [.lt, .le, .gt, .ge]) (hok : compare h op a b = .ok t) :
    compare h op.mirrored b a = .ok t := by
  obtain ⟨o, hab⟩ := ordered_of_compare hS ha hb hop hok
  have hop' : op ∈ [.lt, .le, .eq, .ne, .gt, .ge] := by
    revert hop
    cases op <;> decide
  have hmirrored : op.mirrored ∈ [.lt, .le, .eq, .ne, .gt, .ge] := by
    revert hop
    cases op <;> decide
  rw [compare_of_ordered hS ha hb hab hop'] at hok
  rw [compare_of_ordered hS hb ha (hab.swap hS ha hb) hmirrored, CompareOp.admits_mirrored, hok]

end Plain

/-- **The order is strict and total.**  Among values without floats that are not nested too deep,
`<` succeeds exactly when `>` does with its operands exchanged, and they agree, and so do `<=` and
`>=`.  It succeeds exactly on the values that are ordered: numbers by value with truth values among
them, strings by their characters, and sequences by the first items that differ or else by their
lengths.  Of two such values either the one is less or they are equal or the other one is less, and
each comparison says which.  And where `<` holds twice in a row it succeeds and holds across. -/
theorem ordering_strict_total (hS : Plain h S) (ha : a ∈ S) (hb : b ∈ S) (hc : c ∈ S) :
    (∀ t, compare h .lt a b = .ok t ↔ compare h .gt b a = .ok t) ∧
    (∀ t, compare h .le a b = .ok t ↔ compare h .ge b a = .ok t) ∧
    ((∃ t, compare h .lt a b = .ok t) ↔ ∃ o, Ordered h a b o) ∧
    (∀ o, Ordered h a b o →
      compare h .lt a b = .ok o.isLT ∧ compare h .eq a b = .ok o.isEq ∧
      compare h .gt a b = .ok o.isGT ∧ compare h .le a b = .ok (o.isLT || o.isEq) ∧
      compare h .ge a b = .ok (o.isGT || o.isEq)) ∧
    (compare h .lt a b = .ok true → compare h .lt b c = .ok true →
      compare h .lt a c = .ok true) := by
  refine ⟨fun t => ⟨?_, ?_⟩, fun t => ⟨?_, ?_⟩, ⟨?_, ?_⟩, fun o hab => ?_, fun hlt hlt' => ?_⟩
  · exact compare_mirrored hS ha hb (by decide)
  · exact compare_mirrored hS hb ha (by decide)
  · exact compare_mirrored hS ha hb (by decide)
  · exact compare_mirrored hS hb ha (by decide)
  · exact fun ⟨t, hok⟩ => ordered_of_compare hS ha hb (by decide) hok
  · exact fun ⟨o, hab⟩ => ⟨_, compare_of_ordered hS ha hb hab (by decide)⟩
  · have hcompare : ∀ op ∈ [.lt, .le, .eq, .ne, .gt, .ge], compare h op a b = .ok (op.admits o) :=
      fun op => compare_of_ordered hS ha hb hab
    have hle : o.isLE = (o.isLT || o.isEq) := by cases o <;> rfl
    have hge : o.isGE = (o.isGT || o.isEq) := by cases o <;> rfl
    rw [← hle, ← hge]
    exact ⟨hcompare .lt (by decide), hcompare .eq (by decide), hcompare .gt (by decide),
      hcompare .le (by decide), hcompare .ge (by decide)⟩
  · obtain ⟨o, hab⟩ := ordered_of_compare hS ha hb (by decide) hlt
    obtain ⟨o', hbc⟩ := ordered_of_compare hS hb hc (by decide) hlt'
    rw [compare_of_ordered hS ha hb hab (by decide), Except.ok.injEq] at hlt
    rw [compare_of_ordered hS hb hc hbc (by decide), Except.ok.injEq] at hlt'
    obtain rfl := Ordering.isLT_iff_eq_lt.1 hlt
    obtain rfl := Ordering.isLT_iff_eq_lt.1 hlt'
    exact compare_of_ordered hS ha hc (hab.trans hS ha hb hc hbc) (by decide)

/-- The list of `False`, and the list of `0` and `"x"`. -/
def twoLists : Heap := { Heap.empty with lists := #[#[.bool false], #[.int 0, .str 3 "x"]] }

/-- `(1, [False])`. -/
def shortPair : Value := .tuple 0 [.int 1, .list ⟨0⟩]

/-- `(True, [0, "x"])`. -/
def longPair : Value := .tuple 1 [.bool true, .list ⟨1⟩]

/-- `(2,)`. -/
def single : Value := .tuple 2 [.int 2]

/-- The three tuples and their parts. -/
def tupleParts : List Value :=
  [shortPair, .int 1, .list ⟨0⟩, .bool false, longPair, .bool true, .list ⟨1⟩, .int 0, .str 3 "x",
    single, .int 2]

/-- The first of the three comes before the second one, since its list ends earlier, and that one
comes before the third. -/
theorem ordering_strict_total_of_tuples :
    compare twoLists .lt shortPair longPair = .ok true ∧
    compare twoLists .lt longPair single = .ok true ∧
    compare twoLists .lt shortPair single = .ok true := by
  have hS : Plain twoLists {v | v ∈ tupleParts} :=
    { closed := by
        simp [tupleParts, shortPair, longPair, single, twoLists, Heap.list, contents]
      floatFree := by simp [tupleParts, shortPair, longPair, single]
      nested := by
        have hn : ∀ v ∈ tupleParts, NestedWithin twoLists 2 v := by
          simp [tupleParts, shortPair, longPair, single, twoLists, Heap.list, NestedWithin,
            contents, address?]
        exact fun v hv => (hn v hv).mono (by decide)
      tuples := by
        simp only [tupleParts, shortPair, longPair, single, Set.mem_ofPred_eq, List.mem_cons]
        grind
      codes := by simp [tupleParts, shortPair, longPair, single] }
  have hfirst : shortPair ∈ tupleParts := by simp [tupleParts]
  have hsecond : longPair ∈ tupleParts := by simp [tupleParts]
  have hthird : single ∈ tupleParts := by simp [tupleParts]
  obtain ⟨-, -, -, -, htrans⟩ := ordering_strict_total hS hfirst hsecond hthird
  exact ⟨rfl, rfl, htrans rfl rfl⟩

end Value

end StackMachine
