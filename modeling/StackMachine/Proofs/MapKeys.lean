import StackMachine.Proofs.NestedValues
/-!
# Keys of maps

A value that is stored in a map is first made into a key, and made a value again when the map is
walked through.  A key keeps the whole value except which tuples it was made of.  So keys have to
agree with values in three ways: on which of them are equal, although a key is compared without the
heap and to any depth, on what a hasher is fed for them, and on what comes back.

That the equality of keys is an equivalence needs no induction of its own, since keys are equal
exactly when they feed the same to a hasher (`Key.equal_iff_hashed_eq`).
-/

namespace StackMachine

namespace Value

/-- The value `w` is the other one or, at any depth, an item of a tuple in it. -/
inductive Part (w : Value) : Value → Prop
  | self : Part w w
  | item {v : Value} {items : List Value} (i : Nat) (hv : v ∈ items) (hw : Part w v) :
    Part w (.tuple i items)

/-- Whether there are hashable values of this kind.  A tuple is hashable when its items are. -/
def hashableKind : Value → Bool
  | .none | .bool _ | .int _ | .str .. | .tuple .. => true
  | _ => false

/-- The same value, except that tuples may have been made anew. -/
inductive Identical : Value → Value → Prop
  | refl (v : Value) : Identical v v
  | tuple {vs ws : List Value} (i j : Nat) (h : List.Forall₂ Identical vs ws) :
    Identical (.tuple i vs) (.tuple j ws)

end Value

namespace Key

open Value

variable {h : Heap} {S : Set Value} {a b v w : Value} {k l : Key} {c : Cause}

/-! ## Which values have a key -/

/-- The key of a value. -/
abbrev KeyOf (v : Value) (k : Key) : Prop := ofValue v = .ok k

lemma ofValues_cons {vs : List Value} {ks : List Key} : ofValues (v :: vs) = .ok ks ↔
    ∃ k us, ofValue v = .ok k ∧ ofValues vs = .ok us ∧ ks = k :: us := by
  rw [ofValues]
  cases ofValue v with
  | error c => simp
  | ok k =>
    cases ofValues vs with
    | error c => simp
    | ok us => simp [eq_comm]

lemma ofValues_eq_ok {vs : List Value} {ks : List Key} :
    ofValues vs = .ok ks ↔ List.Forall₂ KeyOf vs ks := by
  induction vs generalizing ks with
  | nil => simp [ofValues, eq_comm]
  | cons v vs ih => simp only [ofValues_cons, List.forall₂_cons_left_iff, ih]

lemma ofValue_tuple {i : Nat} {items : List Value} : ofValue (.tuple i items) = .ok k ↔
    ∃ ks, List.Forall₂ KeyOf items ks ∧ k = .tuple ks := by
  simp only [← ofValues_eq_ok, ofValue]
  cases ofValues items with
  | error c => simp [Except.map]
  | ok ks => simp [Except.map, eq_comm]

/-- A key is made of its value. -/
lemma ofValue_cases (hk : ofValue v = .ok k) :
    (v = .none ∧ k = .none) ∨ (∃ b, v = .bool b ∧ k = .bool b) ∨ (∃ n, v = .int n ∧ k = .int n) ∨
      (∃ i s, v = .str i s ∧ k = .str i s) ∨
      ∃ i items ks, v = .tuple i items ∧ k = .tuple ks ∧
        List.Forall₂ KeyOf items ks := by
  cases v with
  | tuple i items =>
    obtain ⟨ks, hks, rfl⟩ := ofValue_tuple.1 hk
    exact .inr (.inr (.inr (.inr ⟨i, items, ks, rfl, rfl, hks⟩)))
  | _ => cases hk <;> simp

lemma exists_ofValue_of_mem {items : List Value} {ks : List Key}
    (hks : List.Forall₂ KeyOf items ks) (hv : v ∈ items) :
    ∃ k, ofValue v = .ok k := by
  induction hks with
  | nil => cases hv
  | cons hk _ ih =>
    obtain rfl | hv := List.mem_cons.1 hv
    · exact ⟨_, hk⟩
    · exact ih hv

/-- No part of a value that has a key is of another kind than those that keys are made of. -/
lemma hashableKind_of_part (hw : Part w v) (hk : ofValue v = .ok k) : w.hashableKind = true := by
  induction hw generalizing k with
  | self => cases w <;> first | rfl | cases hk
  | item i hv _ ih =>
    obtain ⟨ks, hks, -⟩ := ofValue_tuple.1 hk
    obtain ⟨k, hvk⟩ := exists_ofValue_of_mem hks hv
    exact ih hvk

mutual

/-- A value without a key has a part that is to blame, and the error names its type. -/
theorem exists_part_of_error : (v : Value) → ofValue v = .error c →
    ∃ w, Part w v ∧ w.hashableKind = false ∧ c = .unhashable w.typeName
  | .tuple i items, h => by
    rw [ofValue] at h
    cases hitems : ofValues items with
    | error c' =>
      rw [hitems] at h
      cases h
      obtain ⟨v, hv, w, hw, hblame⟩ := exists_part_of_error_all items hitems
      exact ⟨w, .item i hv hw, hblame⟩
    | ok ks =>
      rw [hitems] at h
      cases h
  | .list _, h | .map _, h | .iterator _, h | .function _, h | .builtin _, h | .method .., h
  | .code _, h | .cell _, h | .exceptionType _, h | .exception .., h | .traceback .., h
  | .why _, h | .float _, h => by
    cases h
    exact ⟨_, .self, rfl, rfl⟩

theorem exists_part_of_error_all : (vs : List Value) → ofValues vs = .error c →
    ∃ v ∈ vs, ∃ w, Part w v ∧ w.hashableKind = false ∧ c = .unhashable w.typeName
  | v :: vs, h => by
    rw [ofValues] at h
    cases hv : ofValue v with
    | error c' =>
      rw [hv] at h
      cases h
      exact ⟨v, List.mem_cons_self, exists_part_of_error v hv⟩
    | ok k =>
      cases hvs : ofValues vs with
      | error c' =>
        rw [hv, hvs] at h
        cases h
        obtain ⟨u, hu, hblame⟩ := exists_part_of_error_all vs hvs
        exact ⟨u, List.mem_cons_of_mem v hu, hblame⟩
      | ok ks =>
        rw [hv, hvs] at h
        cases h

end

/-! ## Back to values -/

mutual

/-- Making a value of a key takes numbers for its tuples and changes nothing else, and the value has
the same key. -/
theorem toValue_ok : (k : Key) → (h : Heap) →
    ∃ v n, k.toValue h = .ok v { h with nextId := n } ∧ ofValue v = .ok k
  | .none, h => ⟨.none, h.nextId, rfl, rfl⟩
  | .bool b, h => ⟨.bool b, h.nextId, rfl, rfl⟩
  | .int n, h => ⟨.int n, h.nextId, rfl, rfl⟩
  | .str i s, h => ⟨.str i s, h.nextId, rfl, rfl⟩
  | .tuple ks, h => by
    obtain ⟨vs, n, hrun, hvs⟩ := toValues_ok ks h
    refine ⟨.tuple n vs, n + 1, ?_, ofValue_tuple.2 ⟨ks, ofValues_eq_ok.1 hvs, rfl⟩⟩
    simp only [toValue, bind, EStateM.bind, hrun]
    rfl

theorem toValues_ok : (ks : List Key) → (h : Heap) →
    ∃ vs n, toValues ks h = .ok vs { h with nextId := n } ∧ ofValues vs = .ok ks
  | [], h => ⟨[], h.nextId, rfl, rfl⟩
  | k :: ks, h => by
    obtain ⟨v, n, hrun, hv⟩ := toValue_ok k h
    obtain ⟨vs, m, hruns, hvs⟩ := toValues_ok ks { h with nextId := n }
    refine ⟨v :: vs, m, ?_, ofValues_cons.2 ⟨k, ks, hv, hvs, rfl⟩⟩
    simp only [toValues, bind, EStateM.bind, hrun, hruns]
    rfl

end

lemma ofValue_eq_tuple {ks : List Key} (hk : ofValue v = .ok (.tuple ks)) :
    ∃ i items, v = .tuple i items ∧ List.Forall₂ KeyOf items ks := by
  obtain ⟨-, hk⟩ | ⟨_, -, hk⟩ | ⟨_, -, hk⟩ | ⟨_, _, -, hk⟩ | ⟨i, items, us, hv, hk, hus⟩ :=
    ofValue_cases hk <;> cases hk
  exact ⟨i, items, hv, hus⟩

mutual

/-- Two values with the very same key are the same, but for the tuples. -/
theorem identical_of_ofValue : (k : Key) → {v w : Value} → ofValue v = .ok k → ofValue w = .ok k →
    Identical v w
  | .tuple ks, v, w, hv, hw => by
    obtain ⟨i, vs, rfl, hvs⟩ := ofValue_eq_tuple hv
    obtain ⟨j, ws, rfl, hws⟩ := ofValue_eq_tuple hw
    exact .tuple i j (identical_of_ofValue_all ks hvs hws)
  | .none, v, w, hv, hw | .bool _, v, w, hv, hw | .int _, v, w, hv, hw
  | .str .., v, w, hv, hw => by
    obtain rfl : v = w := by
      have := ofValue_cases hv
      have := ofValue_cases hw
      simp_all
    exact .refl v

theorem identical_of_ofValue_all : (ks : List Key) → {vs ws : List Value} →
    List.Forall₂ KeyOf vs ks →
    List.Forall₂ KeyOf ws ks → List.Forall₂ Identical vs ws
  | [], _, _, .nil, .nil => .nil
  | k :: ks, _, _, .cons hv hvs, .cons hw hws =>
    .cons (identical_of_ofValue k hv hw) (identical_of_ofValue_all ks hvs hws)

end

/-! ## Equality -/

/-- Of values that are not both tuples a comparison does not go down. -/
lemma equal_iff_of_scalar (hk : ofValue a = .ok k) (hl : ofValue b = .ok l)
    (hscalar : ∀ ks ls, k = .tuple ks → l ≠ .tuple ls) :
    equal k l = true ↔ Value.equal h a b = true := by
  obtain ⟨rfl, rfl⟩ | ⟨p, rfl, rfl⟩ | ⟨m, rfl, rfl⟩ | ⟨i, s, rfl, rfl⟩ |
      ⟨i, as, ks, rfl, rfl, -⟩ := ofValue_cases hk <;>
    obtain ⟨rfl, rfl⟩ | ⟨q, rfl, rfl⟩ | ⟨n, rfl, rfl⟩ | ⟨j, t, rfl, rfl⟩ |
      ⟨j, bs, ls, rfl, rfl, -⟩ := ofValue_cases hl
  case inr.inr.inr.inr.inr.inr.inr.inr => exact absurd rfl (hscalar ks ls rfl)
  all_goals rw [Value.equal, equalWithin_of_scalar rfl]
  case inr.inl.inr.inl => cases p <;> cases q <;> simp [equal, Alike, scalarsEqual, Integer.ofBool]
  case inr.inr.inl.inr.inl => exact Bool.eq_iff_iff.1 BEq.comm
  all_goals simp [equal, Alike, scalarsEqual, same]

mutual

/-- Keys are equal exactly when their values are. -/
theorem equal_iff_equal_values (hS : Coherent h S) : (k l : Key) → {a b : Value} →
    ofValue a = .ok k → ofValue b = .ok l → a ∈ S → b ∈ S → NestedWithin h nestingLimit a →
    (equal k l = true ↔ Value.equal h a b = true)
  | .tuple ks, .tuple ls, a, b, hk, hl, ha, hb, hn => by
    obtain ⟨i, as, rfl, has⟩ := ofValue_eq_tuple hk
    obtain ⟨j, bs, rfl, hbs⟩ := ofValue_eq_tuple hl
    rw [equal_tuple_iff hS ha hb hn]
    exact equalAll_iff_equal_values hS ks ls has hbs (hS.closed _ ha) (hS.closed _ hb)
      fun c hc => (hn.contents hc).mono (Nat.sub_le nestingLimit 1)
  | .none, _, _, _, hk, hl, _, _, _ | .bool _, _, _, _, hk, hl, _, _, _
  | .int _, _, _, _, hk, hl, _, _, _ | .str .., _, _, _, hk, hl, _, _, _ =>
    equal_iff_of_scalar hk hl nofun
  | .tuple _, .none, _, _, hk, hl, _, _, _ | .tuple _, .bool _, _, _, hk, hl, _, _, _
  | .tuple _, .int _, _, _, hk, hl, _, _, _ | .tuple _, .str .., _, _, hk, hl, _, _, _ =>
    equal_iff_of_scalar hk hl fun _ _ _ => nofun

theorem equalAll_iff_equal_values (hS : Coherent h S) : (ks ls : List Key) → {as bs : List Value} →
    List.Forall₂ KeyOf as ks →
    List.Forall₂ KeyOf bs ls → (∀ a ∈ as, a ∈ S) → (∀ b ∈ bs, b ∈ S) →
    (∀ a ∈ as, NestedWithin h nestingLimit a) →
    (equalAll ks ls = true ↔ List.Forall₂ (fun a b => Value.equal h a b = true) as bs)
  | [], [], _, _, .nil, .nil, _, _, _ => by simp [equalAll]
  | [], _ :: _, _, _, .nil, .cons _ _, _, _, _ => by simp [equalAll]
  | _ :: _, [], _, _, .cons _ _, .nil, _, _, _ => by simp [equalAll]
  | k :: ks, l :: ls, _, _, .cons hk hks, .cons hl hls, has, hbs, hns => by
    simp only [List.forall_mem_cons] at has hbs hns
    rw [equalAll, Bool.and_eq_true, List.forall₂_cons,
      equal_iff_equal_values hS k l hk hl has.1 hbs.1 hns.1,
      equalAll_iff_equal_values hS ks ls hks hls has.2 hbs.2 hns.2]

end

/-- **Keys agree with values.**  Making a key of a value fails exactly if there is a value in it
that is not hashable, and names the type of such a one.  What is made of a key again is the same
value, but for its tuples, which are new, and nothing else on the heap changes.  Equality of keys is
an equivalence, and equal keys feed the same to a hasher.  And keys are equal exactly if their
values are, unless these are nested too deep to be compared as values. -/
theorem map_keys_agree (hS : Coherent h S) (ha : a ∈ S) (hb : b ∈ S)
    (hn : NestedWithin h nestingLimit a) :
    (∀ v, (∃ c, ofValue v = .error c) ↔ ∃ w, Part w v ∧ w.hashableKind = false) ∧
    (∀ v c, ofValue v = .error c →
      ∃ w, Part w v ∧ w.hashableKind = false ∧ c = .unhashable w.typeName) ∧
    (∀ v k, ofValue v = .ok k → ∀ h' : Heap, ∃ w n,
      k.toValue h' = .ok w { h' with nextId := n } ∧ Identical v w ∧ ofValue w = .ok k) ∧
    Equivalence (fun k l : Key => (k == l) = true) ∧
    (∀ k l : Key, (k == l) = true → k.hashed = l.hashed) ∧
    ∀ k l, ofValue a = .ok k → ofValue b = .ok l →
      ((k == l) = true ↔ Value.equal h a b = true) := by
  refine ⟨fun v => ⟨?_, ?_⟩, fun v c => exists_part_of_error v, ?_, ?_, ?_, ?_⟩
  · rintro ⟨c, hc⟩
    obtain ⟨w, hw, hkind, -⟩ := exists_part_of_error v hc
    exact ⟨w, hw, hkind⟩
  · rintro ⟨w, hw, hkind⟩
    cases hv : ofValue v with
    | error c => exact ⟨c, rfl⟩
    | ok k =>
      rw [hashableKind_of_part hw hv] at hkind
      cases hkind
  · intro v k hk h'
    obtain ⟨w, n, hrun, hw⟩ := toValue_ok k h'
    exact ⟨w, n, hrun, identical_of_ofValue k hk hw, hw⟩
  · exact ⟨fun _ => BEq.rfl, BEq.symm, BEq.trans⟩
  · exact fun k l => equal_iff_hashed_eq.1
  · exact fun k l hk hl => equal_iff_equal_values hS k l hk hl ha hb hn

/-- `(True, ("x", None))` and `(1, ("x", None))`, with strings and tuples of their own. -/
def pairOfTrue : Value := .tuple 0 [.bool true, .tuple 1 [.str 2 "x", .none]]

def pairOfOne : Value := .tuple 3 [.int 1, .tuple 4 [.str 5 "x", .none]]

/-- The two and their parts. -/
def pairParts : List Value :=
  [pairOfTrue, .bool true, .tuple 1 [.str 2 "x", .none], .str 2 "x",
    pairOfOne, .int 1, .tuple 4 [.str 5 "x", .none], .str 5 "x", .none]

/-- They have the same entry in a map, and are equal values. -/
theorem map_keys_agree_of_true_and_one :
    (∃ k l, ofValue pairOfTrue = .ok k ∧ ofValue pairOfOne = .ok l ∧ (k == l) = true) ∧
      Value.equal .empty pairOfTrue pairOfOne = true := by
  have hS : Coherent .empty {v | v ∈ pairParts} :=
    { closed := by simp [pairParts, pairOfTrue, pairOfOne, Value.contents]
      tuples := by
        simp only [pairParts, pairOfTrue, pairOfOne, Set.mem_ofPred_eq, List.mem_cons]
        grind
      numbers := by simp [pairParts, pairOfTrue, pairOfOne] }
  have hn : NestedWithin .empty 2 pairOfTrue := by
    simp [NestedWithin, pairOfTrue, Value.contents, address?]
  have htrue : pairOfTrue ∈ pairParts := by simp [pairParts]
  have hone : pairOfOne ∈ pairParts := by simp [pairParts]
  obtain ⟨-, -, -, -, -, hequal⟩ := map_keys_agree hS htrue hone (hn.mono (by decide))
  exact ⟨⟨_, _, rfl, rfl, by decide⟩, (hequal _ _ rfl rfl).1 (by decide)⟩

end Key

end StackMachine
