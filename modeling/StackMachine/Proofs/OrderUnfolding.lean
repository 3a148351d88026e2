import Mathlib.Data.Finset.Card
import Mathlib.Data.Finset.Range
import Mathlib.Order.Lattice.Nat
import StackMachine.Object.Order
import StackMachine.Proofs.NestedValues
/-!
# Comparing sequences comes to an end

To order two lists is to go down through pairs of lists, and since lists may contain themselves, the
number of pairs that there are bounds the way down.  For values of finite depth the bound might as
well not be there.  The lists on the way down become less and less deep, and lists come in no more
different depths than there are lists.  So the order of two sequences is the one of the first two
items in them that are not equal (`order_sequences`, `orderItems_cons`).
-/

namespace StackMachine

namespace Value

variable {h : Heap} {op : CompareOp} {a b c v : Value} {as bs : List Value} {r s : Ref .list}
  {n : Nat}

/-! ## Depths -/

/-- How many containers are nested in each other in a value of finite depth. -/
noncomputable def depth (h : Heap) (v : Value) : Nat := sInf {n | NestedWithin h n v}

lemma nestedWithin_depth (hv : NestedWithin h n v) : NestedWithin h (depth h v) v :=
  Nat.sInf_mem (s := {n | NestedWithin h n v}) ⟨n, hv⟩

lemma depth_lt_of_mem (hv : NestedWithin h n v) (hc : c ∈ v.contents h) :
    depth h c < depth h v := by
  have hdepth := nestedWithin_depth hv
  cases hm : depth h v with
  | zero =>
    rw [hm] at hdepth
    rw [contents_eq_nil hdepth] at hc
    cases hc
  | succ m =>
    rw [hm] at hdepth
    exact Nat.lt_succ_of_le (Nat.sInf_le (hdepth c hc))

lemma depth_congr (hrs : h.list r = h.list s) : depth h (.list r) = depth h (.list s) := by
  unfold depth
  congr 1
  ext n
  cases n with
  | zero => exact ⟨nofun, nofun⟩
  | succ n =>
    change (∀ c ∈ (h.list r).toList, _) ↔ ∀ c ∈ (h.list s).toList, _
    rw [hrs]

/-- The depths that lists have.  A place beyond the last list counts as an empty one. -/
noncomputable def listDepths (h : Heap) : Finset Nat :=
  (Finset.range (h.lists.size + 1)).image fun i => depth h (.list ⟨i⟩)

lemma depth_mem_listDepths (r : Ref .list) : depth h (.list r) ∈ listDepths h := by
  by_cases hr : r.index < h.lists.size
  · exact Finset.mem_image.2 ⟨r.index, Finset.mem_range.2 (by omega), rfl⟩
  · have hbeyond : h.list ⟨h.lists.size⟩ = h.list r := by simp [Heap.list, hr]
    exact Finset.mem_image.2 ⟨h.lists.size, Finset.mem_range.2 (by omega), depth_congr hbeyond⟩

/-- The depths of lists that are less deep than `r`. -/
noncomputable def depthsBelow (h : Heap) (r : Ref .list) : Finset Nat :=
  (listDepths h).filter (· < depth h (.list r))

lemma card_depthsBelow_le (h : Heap) (r : Ref .list) : (depthsBelow h r).card ≤ h.lists.size := by
  have hless : (depthsBelow h r).card < (listDepths h).card :=
    Finset.card_lt_card (Finset.filter_ssubset.2 ⟨_, depth_mem_listDepths r, lt_irrefl _⟩)
  have hall : (listDepths h).card ≤ h.lists.size + 1 :=
    Finset.card_image_le.trans_eq (Finset.card_range _)
  omega

lemma card_depthsBelow_lt (hsr : depth h (.list s) < depth h (.list r)) :
    (depthsBelow h s).card < (depthsBelow h r).card := by
  refine Finset.card_lt_card (Finset.ssubset_iff_of_subset ?_ |>.2 ?_)
  · exact Finset.monotone_filter_right _ fun d _ hd => lt_trans hd hsr
  · refine ⟨depth h (.list s), Finset.mem_filter.2 ⟨depth_mem_listDepths s, hsr⟩, fun hmem => ?_⟩
    exact lt_irrefl _ (Finset.mem_filter.1 hmem).2

/-! ## The bound -/

section Congruence

variable {lists lists' : Ref .list → Ref .list → Except Cause (Option Ordering)} {P : Value → Prop}

mutual

/-- An order depends on that of the lists that are met in tuples only. -/
theorem orderWith_congr (hP : ∀ i items, P (.tuple i items) → ∀ v ∈ items, P v)
    (hlists : ∀ r s, P (.list r) → lists r s = lists' r s) : (a b : Value) → P a →
    orderWith h op lists a b = orderWith h op lists' a b
  | .tuple i as, b, ha => by
    cases b with
    | tuple j bs => exact orderItemsWith_congr hP hlists as bs (hP i as ha)
    | _ => rfl
  | .list r, b, ha => by
    cases b with
    | list s => exact hlists r s ha
    | _ => rfl
  | .none, _, _ | .bool _, _, _ | .int _, _, _ | .float _, _, _ | .str .., _, _ | .map _, _, _
  | .iterator _, _, _ | .function _, _, _ | .builtin _, _, _ | .method .., _, _ | .code _, _, _
  | .cell _, _, _ | .exceptionType _, _, _ | .exception .., _, _ | .traceback .., _, _
  | .why _, _, _ => rfl

theorem orderItemsWith_congr (hP : ∀ i items, P (.tuple i items) → ∀ v ∈ items, P v)
    (hlists : ∀ r s, P (.list r) → lists r s = lists' r s) : (as bs : List Value) →
    (∀ a ∈ as, P a) → orderItemsWith h op lists as bs = orderItemsWith h op lists' as bs
  | [], [], _ | [], _ :: _, _ | _ :: _, [], _ => rfl
  | a :: as, b :: bs, has => by
    obtain ⟨ha, has⟩ := List.forall_mem_cons.1 has
    rw [orderItemsWith, orderItemsWith, orderWith_congr hP hlists a b ha,
      orderItemsWith_congr hP hlists as bs has]

end

end Congruence

/-- A bound above the number of depths below that of a list is never reached. -/
lemma orderLists_stable {fuel fuel' : Nat} (hr : NestedWithin h n (.list r))
    (hfuel : (depthsBelow h r).card < fuel) (hfuel' : (depthsBelow h r).card < fuel') :
    orderLists h op fuel r s = orderLists h op fuel' r s := by
  induction fuel generalizing fuel' r s n with
  | zero => omega
  | succ fuel ih =>
    obtain ⟨fuel', rfl⟩ : ∃ f, fuel' = f + 1 := ⟨fuel' - 1, by omega⟩
    rw [orderLists, orderLists]
    refine orderItemsWith_congr
      (P := fun v => depth h v < depth h (.list r) ∧ ∃ n, NestedWithin h n v) ?_ ?_ _ _ ?_
    · rintro i items ⟨hdepth, n, hn⟩ v hv
      exact ⟨(depth_lt_of_mem hn hv).trans hdepth, n - 1, hn.contents hv⟩
    · rintro r' s' ⟨hdepth, n, hn⟩
      have hcard := card_depthsBelow_lt hdepth
      exact ih hn (by omega) (by omega)
    · exact fun v hv => ⟨depth_lt_of_mem hr hv, n - 1, hr.contents hv⟩

/-! ## Sequences -/

/-- The items of two sequences of one kind. -/
def sequences? (h : Heap) : Value → Value → Option (List Value × List Value)
  | .tuple _ as, .tuple _ bs => some (as, bs)
  | .list r, .list s => some ((h.list r).toList, (h.list s).toList)
  | _, _ => Option.none

/-- The order of two sequences, by their items. -/
def orderItems (h : Heap) (op : CompareOp) (as bs : List Value) :
    Except Cause (Option Ordering) :=
  orderItemsWith h op (orderLists h op (h.lists.size * h.lists.size + 1)) as bs

/-- Of two first items that are not equal, the order is that of the sequences. -/
lemma orderItems_cons : orderItems h op (a :: as) (b :: bs) =
    if equal h a b then orderItems h op as bs else order h op a b := rfl

/-- The order of sequences is that of their items. -/
theorem order_sequences (ha : NestedWithin h n a) (hab : sequences? h a b = some (as, bs)) :
    order h op a b = orderItems h op as bs := by
  unfold sequences? at hab
  split at hab
  · cases hab
    rfl
  · next r s =>
    cases hab
    have hsize := card_depthsBelow_le h r
    have hsquare : h.lists.size ≤ h.lists.size * h.lists.size := Nat.le_mul_self _
    change orderLists h op (h.lists.size * h.lists.size + 1) r s =
      orderLists h op (h.lists.size * h.lists.size + 1 + 1) r s
    exact orderLists_stable ha (by omega) (by omega)
  · cases hab

/-- Values that are not sequences of one kind. -/
lemma order_of_scalar (hab : sequences? h a b = Option.none) :
    order h op a b = orderScalars op a b := by
  unfold sequences? at hab
  split at hab
  · cases hab
  · cases hab
  · next htuple hlist =>
    unfold order orderWith
    split
    · exact (htuple _ _ _ _ rfl rfl).elim
    · exact (hlist _ _ rfl rfl).elim
    · rfl

end Value

end StackMachine
