import Mathlib.Algebra.BigOperators.Group.List.Basic
import StackMachine.Proofs.ListIndices
/-!
# Repeating a sequence

A string, a tuple or a list times an integer is the sequence written that many times in a row.  What
it is made of are values, or the bytes of a string (`Value.content?`), and its length is counted in
these.

The length of the result is computed before it is made: the integer becomes a size, the sizes are
multiplied, and the product is compared with a limit.  None of this is arithmetic of integers, but
it decides what arithmetic would say (`SizeWords.repeatedLength?_times`): a count that is no size of
the host stands for its greatest size, which is refused as well, since the limit is less than that.
The exception is a sequence of length zero, for which there is nothing to be multiplied.

Hence one equation for each kind of sequence says what comes out, and neither the side that the
integer stands on nor the host is to be seen in it.  The main statement is `repetition_exact`.
-/

namespace StackMachine

/-! ## Lengths -/

/-- Something of this length is too long when it is repeated. -/
def TooLong (length : Nat) (n : Int64) : Prop :=
  0 < length ∧ 0 < n.toInt ∧ (2 : Int) ^ 24 < length * n.toInt

instance (length : Nat) (n : Int64) : Decidable (TooLong length n) :=
  inferInstanceAs (Decidable (_ ∧ _ ∧ _))

lemma tooLong_iff {length : Nat} {n : Int64} :
    TooLong length n ↔ 2 ^ 24 < length * n.toInt.toNat := by
  unfold TooLong
  constructor
  · rintro ⟨-, hn, hlong⟩
    zify
    rwa [Int.toNat_of_nonneg hn.le]
  · intro hlong
    have hproduct : 0 < length * n.toInt.toNat := Nat.zero_lt_of_lt hlong
    have hlength := Nat.pos_of_mul_pos_right hproduct
    have hn := Nat.pos_of_mul_pos_left hproduct
    zify at hlong
    rw [Int.toNat_of_nonneg (by omega)] at hlong
    exact ⟨by omega, by omega, hlong⟩

namespace SizeWords

variable {host : SizeWords} {length : Nat} {n : Int64}

lemma times_eq (host : SizeWords) (n : Int64) :
    host.times n = min n.toInt.toNat host.greatest := by
  have hsign : n ≤ 0 ↔ n.toInt ≤ 0 := Int64.le_iff_toInt_le
  unfold times size?
  simp only [hsign]
  split
  · omega
  · split <;> simp only [Option.getD_some, Option.getD_none] <;> omega

/-- A size is what the integers say. -/
lemma size?_eq_some_iff {m : Int} {size : Nat} :
    host.size? m = some size ↔ m = size ∧ size ≤ host.greatest := by
  unfold size?
  split <;> simp only [Option.some.injEq, reduceCtorEq, false_iff] <;> omega

/-- A length that has been computed is the product, and it is a size. -/
lemma repeatedLength?_eq_some {times total : Nat}
    (h : host.repeatedLength? length times = some total) :
    total = length * times ∧ total ≤ repetitionLimit := by
  unfold repeatedLength? at h
  split at h
  · next hzero =>
    cases h
    rw [hzero, Nat.zero_mul]
    exact ⟨rfl, Nat.zero_le _⟩
  · obtain ⟨hproduct, hlimit⟩ := Option.filter_eq_some_iff.1 h
    obtain ⟨heq, -⟩ := size?_eq_some_iff.1 hproduct
    exact ⟨by exact_mod_cast heq.symm, of_decide_eq_true hlimit⟩

/-- **The length of a repetition.**  It is there unless the product of the integers is beyond the
limit. -/
lemma repeatedLength?_times (host : SizeWords) (length : Nat) (n : Int64) :
    host.repeatedLength? length (host.times n) =
      if TooLong length n then none else some (length * n.toInt.toNat) := by
  have hgreatest := host.limit_lt_greatest
  have hlimit : repetitionLimit = 2 ^ 24 := rfl
  by_cases hlength : length = 0
  · simp [repeatedLength?, tooLong_iff, hlength]
  have hpos : 0 < length := Nat.pos_of_ne_zero hlength
  -- Either the count is a size, or it is beyond the limit together with the greatest size.
  have htotal : host.times n = n.toInt.toNat ∨
      repetitionLimit < length * host.times n ∧ repetitionLimit < length * n.toInt.toNat := by
    rw [times_eq]
    rcases Nat.le_total n.toInt.toNat host.greatest with hle | hle
    · exact .inl (Nat.min_eq_left hle)
    · have hproduct := hgreatest.trans_le (Nat.le_mul_of_pos_left host.greatest hpos)
      rw [Nat.min_eq_right hle]
      exact .inr ⟨hproduct, hproduct.trans_le (Nat.mul_le_mul_left length hle)⟩
  split
  · next hlong =>
    rw [tooLong_iff, ← hlimit] at hlong
    rw [Option.eq_none_iff_forall_ne_some]
    intro total h
    obtain ⟨rfl, hle⟩ := repeatedLength?_eq_some h
    rcases htotal with htimes | ⟨htotal, -⟩
    · rw [htimes] at hle
      omega
    · omega
  · next hshort =>
    rw [tooLong_iff, ← hlimit] at hshort
    obtain htimes | ⟨-, htotal⟩ := htotal
    · have hsize : host.mul? length (host.times n) = some (length * n.toInt.toNat) := by
        rw [htimes, mul?, size?_eq_some_iff]
        exact ⟨by push_cast; rfl, by omega⟩
      rw [repeatedLength?, if_neg hlength, hsize, Option.filter_some, if_pos]
      exact decide_eq_true (Nat.le_of_not_lt hshort)
    · exact absurd htotal hshort

/-- No host tells a length from another one's. -/
lemma repeatedLength_times (host : SizeWords) (length : Nat) (n : Int64) :
    Value.repeatedLength host length (host.times n) =
      if TooLong length n then .error .repetitionTooLong else .ok (length * n.toInt.toNat) := by
  rw [Value.repeatedLength, repeatedLength?_times]
  by_cases hlong : TooLong length n
  · rw [if_pos hlong, if_pos hlong]
  · rw [if_neg hlong, if_neg hlong]

/-- Unless there is nothing to be repeated, a count is not too great to be a size. -/
lemma times_of_not_tooLong (hlength : 0 < length) (hshort : ¬TooLong length n) :
    host.times n = n.toInt.toNat := by
  have hgreatest := host.limit_lt_greatest
  have hlimit : repetitionLimit = 2 ^ 24 := rfl
  rw [tooLong_iff] at hshort
  have hle := Nat.le_mul_of_pos_left n.toInt.toNat hlength
  rw [times_eq]
  omega

end SizeWords

/-! ## Sequences -/

section Lists

variable {α : Type} {l : List α} {n i : Nat}

lemma length_flatten_replicate (l : List α) (n : Nat) :
    (List.replicate n l).flatten.length = l.length * n := by
  rw [List.length_flatten, List.map_replicate, List.sum_replicate, Nat.nsmul_eq_mul,
    Nat.mul_comm]

/-- Each copy has the same thing at the same place. -/
lemma getElem?_flatten_replicate (hi : i < (List.replicate n l).flatten.length) :
    (List.replicate n l).flatten[i]? = l[i % l.length]? := by
  induction n generalizing i with
  | zero => exact absurd hi (Nat.not_lt_zero i)
  | succ n ih =>
    rw [List.replicate_succ, List.flatten_cons] at hi ⊢
    rcases Nat.lt_or_ge i l.length with hfirst | hlater
    · rw [List.getElem?_append_left hfirst, Nat.mod_eq_of_lt hfirst]
    · rw [List.length_append] at hi
      rw [List.getElem?_append_right hlater, ih (by omega), Nat.mod_eq_sub_mod hlater]

end Lists

/-- What a sequence is made of: the bytes of a string, the values in a tuple or a list. -/
inductive Element where
  | byte (b : UInt8)
  | value (v : Value)

/-- An object has been made, and that is all that has happened. -/
inductive Heap.Makes (h : Heap) : Value → Heap → Prop
  | str (text : String) : h.Makes (h.newStr text).1 (h.newStr text).2
  | tuple (items : List Value) : h.Makes (h.newTuple items).1 (h.newTuple items).2
  | list (items : Array Value) : h.Makes (.list (h.newList items).1) (h.newList items).2

namespace Value

variable {h h' : Heap} {s v w : Value} {content : List Element} {n : Int64} {host : SizeWords}

/-- The elements of a sequence that is there. -/
def content? (h : Heap) : Value → Option (List Element)
  | .str _ s => some (s.toByteArray.data.toList.map .byte)
  | .tuple _ items => some (items.map .value)
  | .list r => (h.lists[r.index]?).map fun items => items.toList.map .value
  | _ => Option.none

lemma content?_list {r : Ref .list} (hr : (Value.list r).content? h = some content) :
    content = (h.list r).toList.map .value := by
  obtain ⟨items, hitems, rfl⟩ := Option.map_eq_some_iff.1 hr
  rw [Heap.list, hitems, Option.getD_some]

/-- What is there keeps its elements when something is made. -/
lemma content?_of_makes (hmade : h.Makes v h') (hs : s.content? h = some content) :
    s.content? h' = some content := by
  cases s with
  | list r =>
    obtain ⟨items, hitems, -⟩ := Option.map_eq_some_iff.1 hs
    obtain ⟨hr, -⟩ := Array.getElem?_eq_some_iff.1 hitems
    have hkept : h'.lists[r.index]? = h.lists[r.index]? := by
      cases hmade with
      | str text => rfl
      | tuple items => rfl
      | list items => exact Array.getElem?_push_lt hr ▸ (Array.getElem?_eq_getElem hr).symm
    rw [content?, hkept]
    exact hs
  | _ => exact hs

/-- A new sequence of this kind has been made, and nothing else has happened. -/
structure MakesAlike (h : Heap) (s : Value) (content : List Element) (w : Value) (h' : Heap) :
    Prop where
  made : h.Makes w h'
  alike : w.typeName = s.typeName
  elements : w.content? h' = some content

lemma makesAlike_str (id : Nat) (s text : String) (h : Heap) :
    MakesAlike h (.str id s) (text.toByteArray.data.toList.map .byte) (h.newStr text).1
      (h.newStr text).2 := ⟨.str text, rfl, rfl⟩

lemma makesAlike_tuple (id : Nat) (members items : List Value) (h : Heap) :
    MakesAlike h (.tuple id members) (items.map .value) (h.newTuple items).1
      (h.newTuple items).2 := ⟨.tuple items, rfl, rfl⟩

lemma makesAlike_list (r : Ref .list) (items : Array Value) (h : Heap) :
    MakesAlike h (.list r) (items.toList.map .value) (.list (h.newList items).1)
      (h.newList items).2 := ⟨.list items, rfl, by simp [content?, Heap.newList]⟩

/-! ## Repeating -/

/-- Items are repeated as the integers say. -/
lemma repeatItems_times (host : SizeWords) (items : List Value) (n : Int64) :
    repeatItems host items (host.times n) =
      if TooLong items.length n then .error .repetitionTooLong
      else .ok (List.replicate n.toInt.toNat items).flatten := by
  rw [repeatItems, SizeWords.repeatedLength_times]
  by_cases hlong : TooLong items.length n
  · rw [if_pos hlong, if_pos hlong]
    rfl
  · rw [if_neg hlong, if_neg hlong]
    cases items with
    | nil =>
      have hnone : (List.replicate n.toInt.toNat ([] : List Value)).flatten = [] :=
        List.flatten_replicate_nil
      rw [hnone]
      rfl
    | cons v items =>
      have hlength : 0 < (v :: items).length := Nat.succ_pos _
      rw [SizeWords.times_of_not_tooLong hlength hlong]
      rfl

/-- The bytes of a text written many times in a row. -/
lemma bytes_join_replicate (s : String) (k : Nat) :
    (String.join (List.replicate k s)).toByteArray.data.toList =
      (List.replicate k s.toByteArray.data.toList).flatten := by
  induction k with
  | zero => rfl
  | succ k ih =>
    rw [List.replicate_succ, String.join_cons, String.toByteArray_append,
      ByteArray.toList_data_append, ih, List.replicate_succ, List.flatten_cons]

/-- A text is repeated as the integers say. -/
lemma repeated_str (host : SizeWords) (id : Nat) (s : String) (n : Int64) (h : Heap) :
    repeated host n (.str id s) h =
      if TooLong s.utf8ByteSize n then .error .repetitionTooLong h
      else (some <$> HeapM.str (String.join (List.replicate n.toInt.toNat s))) h := by
  rw [repeated, SizeWords.repeatedLength_times]
  by_cases hlong : TooLong s.utf8ByteSize n
  · rw [if_pos hlong, if_pos hlong]
    rfl
  · rw [if_neg hlong, if_neg hlong, HeapM.ofExcept_ok, pure_bind]
    by_cases htotal : s.utf8ByteSize * n.toInt.toNat = 0
    · have hsize : (String.join (List.replicate n.toInt.toNat s)).utf8ByteSize = 0 := by
        change (String.join _).toByteArray.data.toList.length = 0
        rw [bytes_join_replicate, length_flatten_replicate]
        exact htotal
      rw [if_pos htotal, String.utf8ByteSize_eq_zero_iff.1 hsize]
    · have hlength : 0 < s.utf8ByteSize := by
        apply Nat.pos_of_ne_zero
        intro hzero
        rw [hzero, Nat.zero_mul] at htotal
        exact htotal rfl
      rw [if_neg htotal, SizeWords.times_of_not_tooLong hlength hlong]

/-- **What repetition makes.**  It is refused, or it makes the copies; what becomes of the heap does
not depend on the host. -/
lemma repeated_of_content (hs : s.content? h = some content) (n : Int64) :
    ∃ w h', MakesAlike h s (List.replicate n.toInt.toNat content).flatten w h' ∧
      ∀ host, repeated host n s h =
        if TooLong content.length n then .error .repetitionTooLong h else .ok (some w) h' := by
  cases s with
  | str id s =>
    cases hs
    have hmade := makesAlike_str id s (String.join (List.replicate n.toInt.toNat s)) h
    rw [bytes_join_replicate, List.map_flatten, List.map_replicate] at hmade
    refine ⟨_, _, hmade, fun host => ?_⟩
    rw [repeated_str, List.length_map, Array.length_toList]
    rfl
  | tuple id items =>
    cases hs
    have hmade := makesAlike_tuple id items (List.replicate n.toInt.toNat items).flatten h
    rw [List.map_flatten, List.map_replicate] at hmade
    refine ⟨_, _, hmade, fun host => ?_⟩
    rw [repeated, repeatItems_times, List.length_map]
    split <;> rfl
  | list r =>
    obtain rfl := content?_list hs
    let items := (List.replicate n.toInt.toNat (h.list r).toList).flatten
    have hmade := makesAlike_list r items.toArray h
    rw [List.toList_toArray, List.map_flatten, List.map_replicate] at hmade
    refine ⟨_, _, hmade, fun host => ?_⟩
    rw [repeated, HeapM.bind_apply, HeapM.get_apply, List.length_map]
    simp only [repeatItems_times]
    split <;> rfl
  | _ => cases hs

/-! ## Operators -/

/-- **Products with a sequence.**  On either side of the integer, they are what repetition makes. -/
lemma multiply_of_content (hs : s.content? h = some content) (n : Int64) :
    ∃ w h', MakesAlike h s (List.replicate n.toInt.toNat content).flatten w h' ∧ ∀ host,
      let outcome : EStateM.Result Cause Heap Value :=
        if TooLong content.length n then .error .repetitionTooLong h else .ok w h'
      multiply host s (.int n) h = outcome ∧ multiply host (.int n) s h = outcome := by
  obtain ⟨w, h', hmade, hrepeated⟩ := repeated_of_content hs n
  refine ⟨w, h', hmade, fun host => ?_⟩
  have hrun := hrepeated host
  by_cases hlong : TooLong content.length n
  · rw [if_pos hlong] at hrun ⊢
    refine ⟨by simp only [multiply, HeapM.bind_apply, hrun], ?_⟩
    cases s with
    | int m => cases hs
    | _ => simp only [multiply, HeapM.bind_apply, hrun]
  · rw [if_neg hlong] at hrun ⊢
    refine ⟨by simp only [multiply, HeapM.bind_apply, hrun, HeapM.pure_apply], ?_⟩
    cases s with
    | int m => cases hs
    | _ => simp only [multiply, HeapM.bind_apply, hrun, HeapM.pure_apply]

lemma multiply_tooLong (hs : s.content? h = some content) (hlong : TooLong content.length n) :
    binary .multiply s (.int n) h = .error .repetitionTooLong h := by
  obtain ⟨w, h', -, hmultiply⟩ := multiply_of_content hs n
  exact (hmultiply .wide).1.trans (if_pos hlong)

lemma multiply_ok (hs : s.content? h = some content) (hshort : ¬TooLong content.length n) :
    ∃ w h', binary .multiply s (.int n) h = .ok w h' ∧
      MakesAlike h s (List.replicate n.toInt.toNat content).flatten w h' := by
  obtain ⟨w, h', hmade, hmultiply⟩ := multiply_of_content hs n
  exact ⟨w, h', (hmultiply .wide).1.trans (if_neg hshort), hmade⟩

/-- Two sequences of one kind are put together. -/
lemma add_of_content {cs cs' : List Element} (hv : v.content? h = some cs)
    (hw : w.content? h = some cs') (halike : w.typeName = v.typeName) :
    ∃ u h', binary .add v w h = .ok u h' ∧ MakesAlike h v (cs ++ cs') u h' := by
  cases v with
  | str i s =>
    cases w with
    | str j t =>
      cases hv
      cases hw
      have hmade := makesAlike_str i s (s ++ t) h
      rw [String.toByteArray_append, ByteArray.toList_data_append, List.map_append] at hmade
      exact ⟨_, _, rfl, hmade⟩
    | tuple j items => simp [typeName] at halike
    | list r => simp [typeName] at halike
    | _ => cases hw
  | tuple i items =>
    cases w with
    | tuple j items' =>
      cases hv
      cases hw
      have hmade := makesAlike_tuple i items (items ++ items') h
      rw [List.map_append] at hmade
      exact ⟨_, _, rfl, hmade⟩
    | str j t => simp [typeName] at halike
    | list r => simp [typeName] at halike
    | _ => cases hw
  | list r =>
    cases w with
    | list r' =>
      obtain rfl := content?_list hv
      obtain rfl := content?_list hw
      have hmade := makesAlike_list r (h.list r ++ h.list r') h
      rw [Array.toList_append, List.map_append] at hmade
      exact ⟨_, _, rfl, hmade⟩
    | str j t => simp [typeName] at halike
    | tuple j items => simp [typeName] at halike
    | _ => cases hw
  | _ => cases hv

/-- A sum of integers is the sum. -/
lemma add_int_eq_ok {m n k : Int64} (hsum : binary .add (.int m) (.int n) h = .ok (.int k) h') :
    k.toInt = m.toInt + n.toInt := by
  cases hadd : Integer.add? m n with
  | none =>
    simp [binary, add, arithmetic, number?, fittingInts, fitting, hadd] at hsum
  | some x =>
    simp [binary, add, arithmetic, number?, fittingInts, fitting, hadd] at hsum
    exact hsum.1 ▸ Integer.fit?_eq_some_iff.1 hadd

/-- The sequence is repeated by two integers, and the results are put together. -/
def repeatedByBoth (s : Value) (m n : Int64) : HeapM Value := do
  let v ← binary .multiply s (.int m)
  let w ← binary .multiply s (.int n)
  binary .add v w

/-- **Repetition is exact and bounded.**

* `sides`: the integer may stand on either side.
* `refused`: a result whose length is beyond the limit is an `OverflowError`, and only such a one.
* `made`: otherwise a new sequence of the same kind is made.  Its length is the product, where a
  negative integer counts as zero, and each of its places holds what stands at the place modulo the
  length in the old sequence, which is as it was.
* `distributes`: repeating by a sum gives the sum of the repetitions.
* `sized`: on no host does a size overflow.  The count is a size, every length that is computed is
  the product, and is a size, and the outcome is the same one. -/
structure RepetitionExact (h : Heap) (s : Value) (content : List Element) : Prop where
  sides : ∀ n, binary .multiply s (.int n) h = binary .multiply (.int n) s h
  refused : ∀ n, (binary .multiply s (.int n)).RefusedAt h .overflowError ↔
    TooLong content.length n
  made : ∀ n, ¬TooLong content.length n → ∃ w h' copies,
    binary .multiply s (.int n) h = .ok w h' ∧ MakesAlike h s copies w h' ∧
    s.content? h' = some content ∧ (copies.length : Int) = content.length * max n.toInt 0 ∧
    ∀ i < copies.length, copies[i]? = content[i % content.length]?
  distributes : ∀ (m n k : Int64) w h₁, 0 ≤ m.toInt → 0 ≤ n.toInt →
    binary .add (.int m) (.int n) h = .ok (.int k) h → binary .multiply s (.int k) h = .ok w h₁ →
    ∃ copies w' h₂, repeatedByBoth s m n h = .ok w' h₂ ∧ w'.typeName = w.typeName ∧
      w.content? h₁ = some copies ∧ w'.content? h₂ = some copies
  sized : ∀ (host : SizeWords) n, host.times n ≤ host.greatest ∧
    (∀ total, host.repeatedLength? content.length (host.times n) = some total →
      total = content.length * host.times n ∧ total ≤ host.greatest) ∧
    multiply host s (.int n) h = binary .multiply s (.int n) h

/-- **Repetition**, of every string, tuple and list, by every integer. -/
theorem repetition_exact (hs : s.content? h = some content) : RepetitionExact h s content where
  sides n := by
    obtain ⟨w, h', -, hmultiply⟩ := multiply_of_content hs n
    exact (hmultiply .wide).1.trans (hmultiply .wide).2.symm
  refused n := by
    by_cases hlong : TooLong content.length n
    · exact iff_of_true ⟨_, multiply_tooLong hs hlong, rfl⟩ hlong
    · obtain ⟨w, h', hrun, -⟩ := multiply_ok hs hlong
      exact iff_of_false (HeapM.not_refusedAt hrun) hlong
  made n hshort := by
    obtain ⟨w, h', hrun, hmade⟩ := multiply_ok hs hshort
    refine ⟨w, h', _, hrun, hmade, content?_of_makes hmade.made hs, ?_, fun i hi => ?_⟩
    · rw [length_flatten_replicate, Nat.cast_mul, Int.ofNat_toNat]
    · exact getElem?_flatten_replicate hi
  distributes m n k w h₁ hm hn hsum hproduct := by
    have htimes : k.toInt.toNat = m.toInt.toNat + n.toInt.toNat := by
      rw [add_int_eq_ok hsum, Int.toNat_add hm hn]
    have hshort : ¬TooLong content.length k := by
      intro hlong
      rw [multiply_tooLong hs hlong] at hproduct
      cases hproduct
    obtain ⟨w', h', hrun, hmade⟩ := multiply_ok hs hshort
    rw [hproduct] at hrun
    cases hrun
    -- The summands are not greater than the sum.
    rw [tooLong_iff, htimes, Nat.mul_add] at hshort
    have hshort₁ : ¬TooLong content.length m := by
      rw [tooLong_iff]
      omega
    have hshort₂ : ¬TooLong content.length n := by
      rw [tooLong_iff]
      omega
    obtain ⟨v₁, h₁', hrun₁, hmade₁⟩ := multiply_ok hs hshort₁
    obtain ⟨v₂, h₂, hrun₂, hmade₂⟩ := multiply_ok (content?_of_makes hmade₁.made hs) hshort₂
    have helements₁ := content?_of_makes hmade₂.made hmade₁.elements
    obtain ⟨u, h₃, hadd, hmade₃⟩ :=
      add_of_content helements₁ hmade₂.elements (hmade₂.alike.trans hmade₁.alike.symm)
    refine ⟨_, u, h₃, ?_, ?_, hmade.elements, ?_⟩
    · simp only [repeatedByBoth, HeapM.bind_apply, hrun₁, hrun₂, hadd]
    · rw [hmade₃.alike, hmade₁.alike, hmade.alike]
    · rw [hmade₃.elements, htimes, List.replicate_add, List.flatten_append]
  sized host n := by
    obtain ⟨w, h', -, hmultiply⟩ := multiply_of_content hs n
    refine ⟨?_, fun total htotal => ?_, (hmultiply host).1.trans (hmultiply .wide).1.symm⟩
    · rw [SizeWords.times_eq]
      exact Nat.min_le_right _ _
    · obtain ⟨htotal, hlimit⟩ := SizeWords.repeatedLength?_eq_some htotal
      exact ⟨htotal, hlimit.trans host.limit_lt_greatest.le⟩

/-- A string of two characters has three bytes.  It can be doubled, with the integer on the left,
and the last byte is that of the string; it cannot be repeated by a power of two that times three is
no word any more.  Repeated by one and by two it is what it is when repeated by three. -/
theorem repetition_exact_of_bytes :
    (∃ w h' copies, binary .multiply (.int 2) (.str 0 "hé") .empty = .ok w h' ∧
      w.content? h' = some copies ∧ copies.length = 6 ∧ copies[5]? = some (.byte 0xa9)) ∧
    (binary .multiply (.str 0 "hé") (.int 4611686018427387904)).RefusedAt .empty .overflowError ∧
    ∃ copies w h', repeatedByBoth (.str 0 "hé") 1 2 .empty = .ok w h' ∧
      w.content? h' = some copies := by
  have hs : (Value.str 0 "hé").content? .empty = some [.byte 0x68, .byte 0xc3, .byte 0xa9] := rfl
  have hexact := repetition_exact hs
  obtain ⟨w, h', copies, hrun, hmade, -, hlength, hplaces⟩ := hexact.made 2 (by decide)
  have hsix : (copies.length : Int) = 6 := hlength
  have hshort : ¬TooLong 3 3 := by decide
  obtain ⟨w₃, h₃, -, hrun₃, -⟩ := hexact.made 3 hshort
  obtain ⟨copies₃, w', h₂, hboth, -, -, helements⟩ :=
    hexact.distributes 1 2 3 w₃ h₃ (by decide) (by decide) rfl hrun₃
  refine ⟨⟨w, h', copies, ?_, hmade.elements, by omega, ?_⟩, (hexact.refused _).2 (by decide),
    copies₃, w', h₂, hboth, helements⟩
  · rw [← hexact.sides]
    exact hrun
  · exact hplaces 5 (by omega)

end Value

end StackMachine
