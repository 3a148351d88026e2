import StackMachine.Object.Builtins
import StackMachine.Proofs.HeapGrowth
import StackMachine.Proofs.Ordering
/-!
# The least and the greatest item

`min` and `max` go through the items once, and compare each of them with nothing but the best one so
far.  The last one to be the best never meets most of the others; that it is ahead of those dropped
earlier is a matter of transitivity.  The walk keeps two things (`Leads`): the best item so far is
ahead of every item before it, and no item after it is ahead of it.  So among items that are equal
it is the first one that is found (`extreme_is_first`).

Whether the items are given apart or are what an iterable yields does not matter.  To walk through
an iterable leaves lists and maps alone, and nothing else is looked at where values are compared.
-/

namespace StackMachine

namespace Value

variable {h g : Heap} {S : Set Value} {op : CompareOp} {a b c : Value} {o d : Ordering}

/-! ## What comparing looks at -/

section Equality

variable {lists : Ref .list → Ref .list → Except Cause (Option Ordering)}

mutual

/-- The order of tuples and of scalars depends on the heap in one way only, on what is equal. -/
theorem orderWith_congr_equal (hequal : ∀ a b, equal g a b = equal h a b) : (a b : Value) →
    orderWith g op lists a b = orderWith h op lists a b
  | .tuple _ as, b => by
    cases b with
    | tuple _ bs => exact orderItemsWith_congr_equal hequal as bs
    | _ => rfl
  | .list _, b => by cases b <;> rfl
  | .none, _ | .bool _, _ | .int _, _ | .float _, _ | .str .., _ | .map _, _ | .iterator _, _
  | .function _, _ | .builtin _, _ | .method .., _ | .code _, _ | .cell _, _ | .exceptionType _, _
  | .exception .., _ | .traceback .., _ | .why _, _ => rfl

theorem orderItemsWith_congr_equal (hequal : ∀ a b, equal g a b = equal h a b) :
    (as bs : List Value) → orderItemsWith g op lists as bs = orderItemsWith h op lists as bs
  | [], [] | [], _ :: _ | _ :: _, [] => rfl
  | a :: as, b :: bs => by
    rw [orderItemsWith, orderItemsWith, hequal a b, orderWith_congr_equal hequal a b,
      orderItemsWith_congr_equal hequal as bs]

end

end Equality

section Spared

variable (hh : h.Spares g)
include hh

lemma list_of_spares (r : Ref .list) : g.list r = h.list r := by
  rw [Heap.list, Heap.list, hh.lists]

lemma map_of_spares (r : Ref .map) : g.map r = h.map r := by
  rw [Heap.map, Heap.map, hh.maps]

lemma facing_of_spares (a b : Value) : facing g a b = facing h a b := by
  unfold facing
  split <;> simp only [list_of_spares hh, map_of_spares hh]

lemma equalWithin_of_spares (room : Nat) : equalWithin g room = equalWithin h room := by
  induction room with
  | zero =>
    funext active a b
    rw [equalWithin, equalWithin, facing_of_spares hh]
  | succ room ih =>
    funext active a b
    rw [equalWithin, equalWithin, facing_of_spares hh, ih]

lemma equal_of_spares (a b : Value) : equal g a b = equal h a b := by
  rw [equal, equal, equalWithin_of_spares hh]

lemma orderLists_of_spares (fuel : Nat) : orderLists g op fuel = orderLists h op fuel := by
  induction fuel with
  | zero => rfl
  | succ fuel ih =>
    funext r s
    rw [orderLists, orderLists, list_of_spares hh, list_of_spares hh, ih,
      orderItemsWith_congr_equal (equal_of_spares hh)]

lemma order_of_spares (a b : Value) : order g op a b = order h op a b := by
  rw [order, order, hh.lists, orderLists_of_spares hh,
    orderWith_congr_equal (equal_of_spares hh)]

lemma compare_of_spares (hop : op ∈ [.lt, .gt]) (a b : Value) :
    compare g op a b = compare h op a b := by
  simp only [List.mem_cons, List.not_mem_nil, or_false] at hop
  obtain rfl | rfl := hop <;> rw [compare, compare, order_of_spares hh]

end Spared

/-! ## What is ahead of what -/

section Plain

variable (hS : Plain h S)
include hS

/-- The order is transitive in both directions. -/
lemma Ordered.trans_strict (hd : d ≠ .eq) (ha : a ∈ S) (hb : b ∈ S) (hc : c ∈ S)
    (hab : Ordered h a b d) (hbc : Ordered h b c d) : Ordered h a c d := by
  cases d with
  | eq => exact absurd rfl hd
  | lt => exact hab.trans hS ha hb hc hbc
  | gt => exact ((hbc.swap hS hb hc).trans hS hc hb ha (hab.swap hS ha hb)).swap hS hc ha

/-- To be ahead of a value is to be ahead of all that is equal to it or behind it. -/
lemma Ordered.trans_of_ne (hd : d ≠ .eq) (ha : a ∈ S) (hb : b ∈ S) (hc : c ∈ S)
    (hab : Ordered h a b d) (hcb : Ordered h c b o) (ho : o ≠ d) : Ordered h a c d := by
  by_cases heq : o = .eq
  · have hequal := (hcb.eq_iff hS hc hb).1 heq
    exact hab.congr_right hS ha hb hc (hS.equal_symm hc hb hequal)
  · have hbc := hcb.swap hS hc hb
    have hswap : o.swap = d := by revert hd ho heq; cases o <;> cases d <;> decide
    exact hab.trans_strict hS hd ha hb hc (hswap ▸ hbc)

/-! ### The strict comparisons -/

section Strict

variable (hop : op ∈ [.lt, .gt])
include hop

omit hS in
/-- A strict comparison holds in one of the two directions. -/
lemma exists_direction : ∃ d, d ≠ .eq ∧ ∀ o, op.admits o = true ↔ o = d := by
  simp only [List.mem_cons, List.not_mem_nil, or_false] at hop
  obtain rfl | rfl := hop
  · exact ⟨.lt, nofun, fun o => Ordering.isLT_iff_eq_lt⟩
  · exact ⟨.gt, nofun, fun o => Ordering.isGT_iff_eq_gt⟩

omit hS in
lemma mem_comparisons : op ∈ [.lt, .le, .eq, .ne, .gt, .ge] := by
  revert hop
  cases op <;> decide

/-- A strict comparison that succeeds says in which order the values are. -/
lemma exists_ordered {t : Bool} (ha : a ∈ S) (hb : b ∈ S) (hok : compare h op a b = .ok t) :
    ∃ o, Ordered h a b o ∧ op.admits o = t := by
  have hop' : op ∈ [.lt, .le, .gt, .ge] := by
    revert hop
    cases op <;> decide
  obtain ⟨o, hab⟩ := ordered_of_compare hS ha hb hop' hok
  rw [compare_of_ordered hS ha hb hab (mem_comparisons hop)] at hok
  exact ⟨o, hab, Except.ok.inj hok⟩

/-- What is ahead of a value is ahead of those that are not ahead of it. -/
lemma compare_of_not_ahead (ha : a ∈ S) (hb : b ∈ S) (hc : c ∈ S)
    (hab : compare h op a b = .ok true) (hcb : compare h op c b = .ok false) :
    compare h op a c = .ok true := by
  obtain ⟨d, hd, hadmits⟩ := exists_direction hop
  obtain ⟨o, hab, ho⟩ := exists_ordered hS hop ha hb hab
  obtain ⟨o', hcb, ho'⟩ := exists_ordered hS hop hc hb hcb
  obtain rfl := (hadmits o).1 ho
  have hne : o' ≠ o := fun heq => Bool.false_ne_true (ho'.symm.trans ((hadmits o').2 heq))
  have hac := hab.trans_of_ne hS hd ha hb hc hcb hne
  rw [compare_of_ordered hS ha hc hac (mem_comparisons hop), ho]

/-- What a value is ahead of is neither ahead of it nor equal to it. -/
lemma compare_of_ahead (ha : a ∈ S) (hb : b ∈ S) (hab : compare h op a b = .ok true) :
    compare h op b a = .ok false ∧ compare h .eq b a = .ok false := by
  obtain ⟨d, hd, hadmits⟩ := exists_direction hop
  obtain ⟨o, hab, ho⟩ := exists_ordered hS hop ha hb hab
  obtain rfl := (hadmits o).1 ho
  have hba := hab.swap hS ha hb
  have hswap : o.swap ≠ o := by
    revert hd
    cases o <;> decide
  have hswap' : o.swap ≠ .eq := by
    revert hd
    cases o <;> decide
  rw [compare_of_ordered hS hb ha hba (mem_comparisons hop),
    compare_of_ordered hS hb ha hba (by decide), Except.ok.injEq, Except.ok.injEq]
  exact ⟨Bool.eq_false_iff.2 (mt (hadmits _).1 hswap),
    Bool.eq_false_iff.2 (mt Ordering.isEq_iff_eq_eq.1 hswap')⟩

lemma compare_self_ne (ha : a ∈ S) : compare h op a a ≠ .ok true := by
  intro haa
  have hne := (compare_of_ahead hS hop ha ha haa).1
  rw [haa] at hne
  cases hne

end Strict

end Plain

/-! ## The walk -/

/-- The walk is behind the items `before`, the best one, and the items `after` it.  The best one is
ahead of each item before it, and no item after it is ahead of it. -/
structure Leads (h : Heap) (op : CompareOp) (before : List Value) (best : Value)
    (after : List Value) : Prop where
  ahead : ∀ w ∈ before, compare h op best w = .ok true
  notAhead : ∀ w ∈ after, compare h op w best = .ok false

/-- The value is one of the items; no item is ahead of it, and none before it equals it. -/
def FirstExtreme (h : Heap) (op : CompareOp) (items : List Value) (v : Value) : Prop :=
  ∃ before after, items = before ++ v :: after ∧ (∀ w ∈ items, compare h op w v ≠ .ok true) ∧
    ∀ w ∈ before, compare h .eq w v = .ok false

section Walk

variable {before after rest items : List Value} {best v x : Value}

lemma Leads.start (h : Heap) (op : CompareOp) (v : Value) : Leads h op [] v [] := ⟨nofun, nofun⟩

/-- An item that is not ahead of the best one is one more item after it. -/
lemma Leads.keep (hlead : Leads h op before best after) (hx : compare h op x best = .ok false) :
    Leads h op before best (after ++ [x]) := by
  refine ⟨hlead.ahead, fun w hw => ?_⟩
  obtain hw | hw := List.mem_append.1 hw
  · exact hlead.notAhead w hw
  · exact List.mem_singleton.1 hw ▸ hx

variable (hS : Plain h S) (hop : op ∈ [.lt, .gt])
include hS hop

/-- An item that is ahead of the best one is ahead of all items so far. -/
lemma Leads.replace (hmem : ∀ w ∈ before ++ best :: after, w ∈ S) (hxS : x ∈ S)
    (hlead : Leads h op before best after) (hx : compare h op x best = .ok true) :
    Leads h op (before ++ best :: after) x [] := by
  have hbest : best ∈ S := hmem best (by simp)
  refine ⟨fun w hw => ?_, nofun⟩
  have hwS := hmem w hw
  obtain hw | hw := List.mem_append.1 hw
  · have hbehind := (compare_of_ahead hS hop hbest hwS (hlead.ahead w hw)).1
    exact compare_of_not_ahead hS hop hxS hbest hwS hx hbehind
  · obtain rfl | hw := List.mem_cons.1 hw
    · exact hx
    · exact compare_of_not_ahead hS hop hxS hbest hwS hx (hlead.notAhead w hw)

/-- The walk to the end; the induction is on the items that are left. -/
lemma Leads.of_bestOf (hmem : ∀ w ∈ items, w ∈ S) (hitems : items = before ++ best :: after ++ rest)
    (hlead : Leads h op before best after) (hok : Builtin.bestOf h op best rest = .ok v) :
    ∃ before' after', items = before' ++ v :: after' ∧ Leads h op before' v after' := by
  induction rest generalizing before best after with
  | nil =>
    cases hok
    exact ⟨before, after, hitems.trans (List.append_nil _), hlead⟩
  | cons x rest ih =>
    have hxS : x ∈ S := hmem x (by simp [hitems])
    have hsofar : ∀ w ∈ before ++ best :: after, w ∈ S :=
      fun w hw => hmem w (hitems ▸ List.mem_append_left _ hw)
    rw [Builtin.bestOf] at hok
    cases hx : compare h op x best with
    | error c =>
      rw [hx] at hok
      cases hok
    | ok beats =>
      rw [hx] at hok
      cases beats with
      | true => exact ih (by simp [hitems]) (hlead.replace hS hop hsofar hxS hx) hok
      | false => exact ih (by simp [hitems]) (hlead.keep hx) hok

lemma Leads.firstExtreme (hmem : ∀ w ∈ before ++ v :: after, w ∈ S)
    (hlead : Leads h op before v after) : FirstExtreme h op (before ++ v :: after) v := by
  have hv : v ∈ S := hmem v (by simp)
  have hbehind : ∀ w ∈ before, compare h op w v = .ok false ∧ compare h .eq w v = .ok false :=
    fun w hw => compare_of_ahead hS hop hv (hmem w (by simp [hw])) (hlead.ahead w hw)
  refine ⟨before, after, rfl, fun w hw => ?_, fun w hw => (hbehind w hw).2⟩
  obtain hw | hw := List.mem_append.1 hw
  · rw [(hbehind w hw).1]
    nofun
  · obtain rfl | hw := List.mem_cons.1 hw
    · exact compare_self_ne hS hop hv
    · rw [hlead.notAhead w hw]
      nofun

end Walk

end Value

namespace Builtin

open Value

variable {b : Builtin} {op : CompareOp} {h h' g : Heap} {S : Set Value} {args items : List Value}
  {v : Value}

/-- The items of a call, and the heap in which they are compared: there may be several arguments, or
an iterable. -/
inductive Given (h : Heap) : List Value → List Value → Heap → Prop
  | apart {items : List Value} (hitems : items.length ≠ 1) : Given h items items h
  | together {source : Value} {items : List Value} {h' : Heap}
    (hsource : source.elements h = .ok items h') : Given h [source] items h'

/-- The best of some items. -/
def best (b : Builtin) (op : CompareOp) (h : Heap) : List Value → Except Cause Value
  | [] => .error (.emptySequence b.name)
  | first :: rest => bestOf h op first rest

/-- A call comes down to comparing the items. -/
lemma extreme_of_given (hgiven : Given h args items h') :
    extreme b op args h = HeapM.ofExcept (best b op h' items) h' := by
  cases hgiven with
  | apart hitems =>
    match args with
    | [] => rfl
    | [v] => exact absurd rfl hitems
    | v :: w :: rest => rfl
  | together hsource => cases items <;> simp [extreme, hsource, best]

lemma call_of_given (hb : (b, op) ∈ [(Builtin.min, CompareOp.lt), (.max, .gt)])
    (hgiven : Given h args items h') :
    b.call args h = HeapM.ofExcept ((best b op h' items).map fun v => { value := v }) h' := by
  have hcall : b.call args = do return { value := ← extreme b op args } := by
    simp only [List.mem_cons, List.not_mem_nil, or_false, Prod.mk.injEq] at hb
    obtain ⟨rfl, rfl⟩ | ⟨rfl, rfl⟩ := hb <;> rfl
  rw [hcall, HeapM.bind_apply, extreme_of_given hgiven]
  cases best b op h' items <;> rfl

lemma bestOf_of_spares (hh : h.Spares g) (hop : op ∈ [.lt, .gt]) (v : Value)
    (rest : List Value) : bestOf g op v rest = bestOf h op v rest := by
  induction rest generalizing v with
  | nil => rfl
  | cons x rest ih =>
    rw [bestOf, bestOf, compare_of_spares hh hop]
    cases compare h op x v with
    | error c => rfl
    | ok beats => exact ih _

lemma best_of_spares (hh : h.Spares g) (hop : op ∈ [.lt, .gt]) (items : List Value) :
    best b op g items = best b op h items := by
  cases items with
  | nil => rfl
  | cons first rest => exact bestOf_of_spares hh hop first rest

/-- Items of which any two can be compared have a best one. -/
lemma exists_bestOf (rest : List Value)
    (hcompared : ∀ x ∈ v :: rest, ∀ y ∈ v :: rest, ∃ t, compare h op x y = .ok t) :
    ∃ w, bestOf h op v rest = .ok w := by
  induction rest generalizing v with
  | nil => exact ⟨v, rfl⟩
  | cons x rest ih =>
    obtain ⟨t, ht⟩ := hcompared x (by simp) v (by simp)
    have hamong : ∀ y ∈ (if t then x else v) :: rest, y ∈ v :: x :: rest := by
      cases t <;> simp +contextual
    obtain ⟨w, hw⟩ := ih fun y hy z hz => hcompared y (hamong y hy) z (hamong z hz)
    exact ⟨w, by rw [bestOf, ht]; exact hw⟩

lemma firstExtreme_of_best (hS : Plain h S) (hop : op ∈ [.lt, .gt]) (hitems : ∀ v ∈ items, v ∈ S)
    (hok : best b op h items = .ok v) : FirstExtreme h op items v := by
  cases items with
  | nil => cases hok
  | cons first rest =>
    obtain ⟨before, after, heq, hlead⟩ := (Leads.start h op first).of_bestOf hS hop hitems rfl hok
    rw [heq] at hitems ⊢
    exact hlead.firstExtreme hS hop hitems

end Builtin

open Builtin in
/-- **The first extreme item.**  Let the items be plain values, given apart or by an iterable.  If
`min` succeeds then its value is one of them, no item compares less than it, and no item before it
compares equal to it; and likewise `max`, where no item compares greater.  It does succeed if any
two of the items, of whatever kind, can be compared, and there is at least one.  And unless there is
exactly one it does not matter how the items are given: to the iterable and to its items as
arguments the answer is the same, be it a value or a failure. -/
theorem extreme_is_first {b : Builtin} {op : CompareOp}
    (hb : (b, op) ∈ [(Builtin.min, CompareOp.lt), (.max, .gt)]) :
    (∀ {h h' h'' : Heap} {S : Set Value} {args items : List Value} {r : Reply},
      Given h args items h' → Value.Plain h' S → (∀ v ∈ items, v ∈ S) →
      b.call args h = .ok r h'' → Value.FirstExtreme h' op items r.value) ∧
    (∀ {h h' : Heap} {args items : List Value}, Given h args items h' → items ≠ [] →
      (∀ v ∈ items, ∀ w ∈ items, ∃ t, Value.compare h' op v w = .ok t) →
      ∃ r, b.call args h = .ok r h') ∧
    ∀ {h h' g : Heap} {source : Value} {items : List Value},
      source.elements h = .ok items h' → items.length ≠ 1 → h.Spares g →
      ∃ outcome : Except Cause Reply, b.call [source] h = HeapM.ofExcept outcome h' ∧
        b.call items g = HeapM.ofExcept outcome g := by
  have hop : op ∈ [.lt, .gt] := by
    simp only [List.mem_cons, List.not_mem_nil, or_false, Prod.mk.injEq] at hb ⊢
    exact hb.imp And.right And.right
  refine ⟨?_, ?_, ?_⟩
  · intro h h' h'' S args items r hgiven hS hitems hok
    rw [call_of_given hb hgiven] at hok
    cases hbest : best b op h' items with
    | error c =>
      rw [hbest] at hok
      cases hok
    | ok v =>
      rw [hbest] at hok
      cases hok
      exact firstExtreme_of_best hS hop hitems hbest
  · intro h h' args items hgiven hne hcompared
    obtain ⟨first, rest, rfl⟩ := List.exists_cons_of_ne_nil hne
    obtain ⟨v, hv⟩ := exists_bestOf rest hcompared
    exact ⟨{ value := v }, by rw [call_of_given hb hgiven, best, hv]; rfl⟩
  · intro h h' g source items hsource hlength hg
    have hh' := source.elements_sparing h
    rw [hsource] at hh'
    refine ⟨_, call_of_given hb (.together hsource), ?_⟩
    rw [call_of_given hb (.apart hlength), best_of_spares hg hop, best_of_spares hh' hop]

namespace Value

/-- The tuples `(2,)`, `(1, [False])` and `(True, [0])`, of which the last two are equal. -/
def threeTuples : List Value :=
  [.tuple 0 [.int 2], .tuple 1 [.int 1, .list ⟨0⟩], .tuple 2 [.bool true, .list ⟨1⟩]]

/-- The lists in the tuples, and one of the tuples themselves. -/
def listedTuples : Heap :=
  { Heap.empty with lists := #[#[.bool false], #[.int 0], threeTuples.toArray] }

/-- The tuples and their parts. -/
def threeTuplesParts : List Value :=
  threeTuples ++ [.int 2, .int 1, .list ⟨0⟩, .bool false, .bool true, .list ⟨1⟩, .int 0]

lemma plain_threeTuples : Plain listedTuples {v | v ∈ threeTuplesParts} where
  closed := by
    simp [threeTuplesParts, threeTuples, listedTuples, Heap.list, contents]
  floatFree := by simp [threeTuplesParts, threeTuples]
  nested := by
    have hn : ∀ v ∈ threeTuplesParts, NestedWithin listedTuples 2 v := by
      simp [threeTuplesParts, threeTuples, listedTuples, Heap.list, NestedWithin, contents,
        address?]
    exact fun v hv => (hn v hv).mono (by decide)
  tuples := by
    simp only [threeTuplesParts, threeTuples, Set.mem_ofPred_eq, List.mem_append, List.mem_cons]
    grind
  codes := by simp [threeTuplesParts, threeTuples]

end Value

open Value in
/-- Of the two equal tuples the first one is the least item, whether the tuples come in a list or
are arguments themselves. -/
theorem extreme_is_first_of_equal_tuples :
    Builtin.min.call [.list ⟨2⟩] listedTuples =
      .ok { value := .tuple 1 [.int 1, .list ⟨0⟩] } listedTuples ∧
    FirstExtreme listedTuples .lt threeTuples (.tuple 1 [.int 1, .list ⟨0⟩]) ∧
    ∃ outcome, Builtin.min.call [.list ⟨2⟩] listedTuples = HeapM.ofExcept outcome listedTuples ∧
      Builtin.min.call threeTuples listedTuples = HeapM.ofExcept outcome listedTuples := by
  have hsource : (Value.list ⟨2⟩).elements listedTuples = .ok threeTuples listedTuples := rfl
  have hcall : Builtin.min.call [.list ⟨2⟩] listedTuples =
      .ok { value := .tuple 1 [.int 1, .list ⟨0⟩] } listedTuples := rfl
  obtain ⟨hfirst, -, hsame⟩ := @extreme_is_first .min .lt (by decide)
  refine ⟨hcall, hfirst (.together hsource) plain_threeTuples ?_ hcall,
    hsame hsource (by decide) (refl_of Heap.Spares listedTuples)⟩
  exact fun v hv => List.mem_append_left _ hv

end StackMachine
