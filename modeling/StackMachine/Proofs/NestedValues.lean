import StackMachine.Proofs.Bisimulation
/-!
# Values of finite depth

Comparing gives up below `nestingLimit` containers, and it never has to for values that are not
nested deeper (`NestedWithin`), which excludes that they contain themselves.  Of such values
equality is what one expects.  They are equal if and only if they look alike and what faces each
other in them is equal (`equal_iff_faces`).  And where no floats are involved, whose equality with
integers is one of rounded values, it is an equivalence relation (`Plain.equal_self`,
`Plain.equal_symm`, `Plain.equal_trans`).

Both go through bisimilarity, with which equality coincides here.  A one-step unfolding of
bisimilarity is immediate, and that the converse of a bisimulation and the composition of two of
them are bisimulations again needs no induction at all.
-/

namespace StackMachine

namespace Value

variable {h : Heap} {S : Set Value} {a b c : Value} {n : Nat}

/-! ## Depth -/

/-- At most `n` containers are nested in each other in the value. -/
def NestedWithin (h : Heap) : Nat → Value → Prop
  | 0, v => v.address? = Option.none
  | n + 1, v => ∀ c ∈ v.contents h, NestedWithin h n c

lemma contents_eq_nil (ha : a.address? = Option.none) : a.contents h = [] := by
  cases a <;> first | rfl | cases ha

lemma NestedWithin.mono {m : Nat} (ha : NestedWithin h n a) (hle : n ≤ m) : NestedWithin h m a := by
  induction n generalizing m a with
  | zero =>
    cases m with
    | zero => exact ha
    | succ m =>
      intro c hc
      rw [contents_eq_nil ha] at hc
      cases hc
  | succ n ih =>
    cases m with
    | zero => omega
    | succ m => exact fun c hc => ih (ha c hc) (by omega)

lemma NestedWithin.contents (ha : NestedWithin h n a) (hc : c ∈ a.contents h) :
    NestedWithin h (n - 1) c := by
  cases n with
  | zero =>
    rw [contents_eq_nil ha] at hc
    cases hc
  | succ n => exact ha c hc

/-- A way down from a value is not longer than the value is deep. -/
lemma NestedWithin.descent_length_le {pairs : List (Value × Value)} (ha : NestedWithin h n a)
    (hd : Descent h a b pairs) : pairs.length ≤ n := by
  induction pairs generalizing n a b with
  | nil => exact Nat.zero_le n
  | cons p rest ih =>
    obtain rfl : p = (a, b) := Option.some.inj hd.starts
    obtain ⟨x, y, hxy, -⟩ := hd.apart _ List.mem_cons_self
    obtain ⟨hax, -⟩ := address?_of_addresses? hxy
    cases n with
    | zero =>
      rw [show a.address? = Option.none from ha] at hax
      cases hax
    | succ n =>
      cases rest with
      | nil => simp
      | cons q rest =>
        obtain ⟨hq, hlinked⟩ := List.isChain_cons_cons.1 hd.linked
        have hdescent : Descent h q.1 q.2 (q :: rest) :=
          ⟨rfl, hlinked, fun p hp => hd.apart p (List.mem_cons_of_mem _ hp),
            (List.nodup_cons.1 hd.different).2⟩
        exact Nat.succ_le_succ (ih (ha q.1 hq.mem_contents.1) hdescent)

/-! ## Equality, one container at a time -/

/-- Of two values one of which is not too deep, equality is bisimilarity. -/
lemma equal_iff_bisimilar (hS : Coherent h S) (ha : a ∈ S) (hb : b ∈ S)
    (hn : NestedWithin h nestingLimit a) : equal h a b = true ↔ Bisimilar h a b := by
  constructor
  · intro heq
    exact (bisimilarUpTo_of_equalWithin hS ha hb heq).bisimilar hS
  · rintro ⟨R, hR, hab⟩
    have hstart : Approach h a b [] (a, b) :=
      ⟨rfl, List.isChain_singleton _, nofun, List.nodup_nil⟩
    exact equalWithin_of_related (p := (a, b)) hR (fun pairs hd => hn.descent_length_le hd) rfl hab
      hstart nofun

/-- Bisimilar values look alike, and what faces each other in them is bisimilar. -/
lemma bisimilar_iff_faces :
    Bisimilar h a b ↔ Alike h a b ∧ ∀ q, Faces h (a, b) q → Bisimilar h q.1 q.2 := by
  constructor
  · rintro ⟨R, hR, hab⟩
    obtain ⟨halike, hparts⟩ := hR a b hab
    exact ⟨halike, fun q hq => ⟨R, hR, hparts q hq⟩⟩
  · rintro ⟨halike, hparts⟩
    refine ⟨fun c d => (c = a ∧ d = b) ∨ Bisimilar h c d, ?_, .inl ⟨rfl, rfl⟩⟩
    rintro c d (⟨rfl, rfl⟩ | ⟨R, hR, hcd⟩)
    · exact ⟨halike, fun q hq => .inr (hparts q hq)⟩
    · obtain ⟨halike, hparts⟩ := hR c d hcd
      exact ⟨halike, fun q hq => .inr ⟨R, hR, hparts q hq⟩⟩

/-- **Equality unfolds.**  Values that are not too deep are equal if and only if they look alike and
what faces each other in them is equal. -/
theorem equal_iff_faces (hS : Coherent h S) (ha : a ∈ S) (hb : b ∈ S)
    (hn : NestedWithin h nestingLimit a) :
    equal h a b = true ↔ Alike h a b ∧ ∀ q, Faces h (a, b) q → equal h q.1 q.2 = true := by
  rw [equal_iff_bisimilar hS ha hb hn, bisimilar_iff_faces]
  refine and_congr_right fun _ => forall₂_congr fun q hq => ?_
  obtain ⟨hc, hd⟩ := hS.faces (p := (a, b)) ⟨ha, hb⟩ hq
  have hinner := (hn.contents hq.mem_contents.1).mono (Nat.sub_le nestingLimit 1)
  exact (equal_iff_bisimilar hS hc hd hinner).symm

lemma equal_tuple_iff {i j : Nat} {as bs : List Value} (hS : Coherent h S) (ha : .tuple i as ∈ S)
    (hb : .tuple j bs ∈ S) (hn : NestedWithin h nestingLimit (.tuple i as)) :
    equal h (.tuple i as) (.tuple j bs) = true ↔
      List.Forall₂ (fun a b => equal h a b = true) as bs := by
  rw [equal_iff_faces hS ha hb hn, List.forall₂_iff_zip]
  exact and_congr_right fun _ => ⟨fun h _ _ hq => h _ hq, fun h _ hq => h hq⟩

lemma equal_list_iff {r s : Ref .list} (hS : Coherent h S) (ha : .list r ∈ S) (hb : .list s ∈ S)
    (hn : NestedWithin h nestingLimit (.list r)) :
    equal h (.list r) (.list s) = true ↔
      List.Forall₂ (fun a b => equal h a b = true) (h.list r).toList (h.list s).toList := by
  rw [equal_iff_faces hS ha hb hn, List.forall₂_iff_zip, Array.length_toList, Array.length_toList]
  exact and_congr_right fun _ => ⟨fun h _ _ hq => h _ hq, fun h _ hq => h hq⟩

/-! ## Values without floats -/

/-- **Plain values.**  With a container its contents belong to the set.  There are no floats, and no
value is nested too deep to be compared.  A tuple is kept in the value itself, so a number that
stands for it stands for the same items everywhere, and likewise for a code object; so it is for
the values that a machine has (`OnRecord.plain`). -/
structure Plain (h : Heap) (S : Set Value) : Prop where
  closed : ∀ v ∈ S, ∀ c ∈ v.contents h, c ∈ S
  floatFree : ∀ x, .float x ∉ S
  nested : ∀ v ∈ S, NestedWithin h nestingLimit v
  tuples : ∀ i as bs, .tuple i as ∈ S → .tuple i bs ∈ S → as = bs
  codes : ∀ o p, .code o ∈ S → .code p ∈ S → o.same p = true → o = p

lemma Plain.coherent (hS : Plain h S) : Coherent h S :=
  ⟨hS.closed, hS.tuples, fun x hx => absurd hx (hS.floatFree x)⟩

/-- What equality sees of a value that is neither a container nor a float nor a code object. -/
inductive Face where
  | none
  /-- Truth values count as zero and one. -/
  | int (n : Int64)
  | text (s : String)
  | builtin (b : Builtin)
  | exceptionType (kind : ExceptionKind)
  | why (w : Why)
  | iterator (ref : Ref .cursor)
  | function (ref : Ref .function)
  | cell (ref : Ref .cell)
  | method (id : Nat)
  | exception (id : Nat)
  | traceback (id : Nat)

def face? : Value → Option Face
  | .none => some .none
  | .bool b => some (.int (Integer.ofBool b))
  | .int n => some (.int n)
  | .str _ s => some (.text s)
  | .builtin b => some (.builtin b)
  | .exceptionType kind => some (.exceptionType kind)
  | .why w => some (.why w)
  | .iterator r => some (.iterator r)
  | .function r => some (.function r)
  | .cell r => some (.cell r)
  | .method i _ _ => some (.method i)
  | .exception i _ _ => some (.exception i)
  | .traceback i _ => some (.traceback i)
  | .float _ | .code _ | .tuple .. | .list _ | .map _ => Option.none

lemma face?_eq_int {m : Int64} : a.face? = some (.int m) ↔ a.number? = some (.int m) := by
  cases a <;> simp [face?, number?]

lemma face?_eq_text {s : String} : a.face? = some (.text s) ↔ ∃ i, a = .str i s := by
  cases a <;> simp [face?]

lemma addresses?_of_face? {f : Face} (ha : a.face? = some f) : addresses? (a, b) = Option.none := by
  cases a <;> first | rfl | cases ha

/-- A value with a face looks like those with the same face. -/
lemma alike_iff_face? {f : Face} (ha : a.face? = some f) (hb : ∀ x, b ≠ .float x) :
    Alike h a b ↔ a.face? = b.face? := by
  cases a <;> cases ha <;> cases b
  case int.refl.bool n b =>
    change (Integer.ofBool b == n) = true ↔ some (Face.int n) = some (.int (Integer.ofBool b))
    rw [beq_iff_eq, Option.some.injEq, Face.int.injEq, eq_comm]
  case bool.refl.bool b b' =>
    cases b <;> cases b' <;> simp [Alike, scalarsEqual, face?, Integer.ofBool]
  all_goals simp_all [Alike, scalarsEqual, same, face?]

lemma alike_code_iff {o : CodeObject} : Alike h (.code o) b ↔
    ∃ p, b = .code p ∧ (o.same p = true ∨ Const.equalUnits o.unit p.unit = true) := by
  cases b <;> simp [Alike, scalarsEqual, same]

lemma alike_tuple_iff {i : Nat} {as : List Value} : Alike h (.tuple i as) b ↔
    ∃ j bs, b = .tuple j bs ∧ as.length = bs.length := by
  cases b <;> simp [Alike, scalarsEqual, same]

lemma alike_list_iff {r : Ref .list} : Alike h (.list r) b ↔
    ∃ s, b = .list s ∧ (h.list r).size = (h.list s).size := by
  cases b <;> simp [Alike, scalarsEqual, same]

lemma alike_map_iff {r : Ref .map} : Alike h (.map r) b ↔
    ∃ s, b = .map s ∧ (h.map r).size = (h.map s).size ∧
      ∀ entry ∈ (h.map r).entries, (h.map s).contains entry.1 = true := by
  cases b <;> simp [Alike, scalarsEqual, same]

/-- A value with a face equals those with the same face. -/
lemma Plain.equal_iff_face? (hS : Plain h S) (hb : b ∈ S) {f : Face} (ha : a.face? = some f) :
    equal h a b = true ↔ b.face? = some f := by
  rw [equal, equalWithin_of_scalar (addresses?_of_face? ha),
    alike_iff_face? ha fun x hx => hS.floatFree x (hx ▸ hb), ha, eq_comm]

/-! ## Equality of plain values is an equivalence -/

lemma same_comm (o p : CodeObject) : o.same p = p.same o := by
  simp [CodeObject.same, BEq.comm]

lemma Plain.alike_symm (hS : Plain h S) (ha : a ∈ S) (hb : b ∈ S) (hab : Alike h a b) :
    Alike h b a := by
  cases a with
  | tuple i as =>
    obtain ⟨j, bs, rfl, hlength⟩ := alike_tuple_iff.1 hab
    exact hlength.symm
  | list r =>
    obtain ⟨s, rfl, hsize⟩ := alike_list_iff.1 hab
    exact hsize.symm
  | map r =>
    obtain ⟨s, rfl, hsize, hkeys⟩ := alike_map_iff.1 hab
    exact ⟨hsize.symm, Dictionary.contains_of_size_eq hsize hkeys⟩
  | code o =>
    obtain ⟨p, rfl, hequal⟩ := alike_code_iff.1 hab
    rw [same_comm, Const.equalUnits_comm] at hequal
    exact alike_code_iff.2 ⟨o, rfl, hequal⟩
  | float x => exact absurd ha (hS.floatFree x)
  | _ =>
    have hface := (alike_iff_face? rfl fun x hx => hS.floatFree x (hx ▸ hb)).1 hab
    exact (alike_iff_face? hface.symm fun x hx => hS.floatFree x (hx ▸ ha)).2 hface.symm

lemma Plain.alike_trans (hS : Plain h S) (ha : a ∈ S) (hb : b ∈ S) (hc : c ∈ S)
    (hab : Alike h a b) (hbc : Alike h b c) : Alike h a c := by
  cases a with
  | tuple i as =>
    obtain ⟨j, bs, rfl, hlength⟩ := alike_tuple_iff.1 hab
    obtain ⟨k, cs, rfl, hlength'⟩ := alike_tuple_iff.1 hbc
    exact hlength.trans hlength'
  | list r =>
    obtain ⟨s, rfl, hsize⟩ := alike_list_iff.1 hab
    obtain ⟨t, rfl, hsize'⟩ := alike_list_iff.1 hbc
    exact hsize.trans hsize'
  | map r =>
    obtain ⟨s, rfl, hsize, hkeys⟩ := alike_map_iff.1 hab
    obtain ⟨t, rfl, hsize', hkeys'⟩ := alike_map_iff.1 hbc
    refine ⟨hsize.trans hsize', fun entry hentry => ?_⟩
    obtain ⟨other, hother, hkey⟩ := Dictionary.contains_iff.1 (hkeys entry hentry)
    rw [← Dictionary.contains_congr hkey]
    exact hkeys' other hother
  | code o =>
    obtain ⟨p, rfl, hop⟩ := alike_code_iff.1 hab
    obtain ⟨q, rfl, hpq⟩ := alike_code_iff.1 hbc
    refine alike_code_iff.2 ⟨q, rfl, ?_⟩
    obtain hsame | hunits := hop
    · rwa [hS.codes o p ha hb hsame]
    · obtain hsame | hunits' := hpq
      · rw [← hS.codes p q hb hc hsame]
        exact .inr hunits
      · exact .inr (Const.equalUnits_trans _ _ _ hunits hunits')
  | float x => exact absurd ha (hS.floatFree x)
  | _ =>
    have hface := (alike_iff_face? rfl fun x hx => hS.floatFree x (hx ▸ hb)).1 hab
    have hface' := (alike_iff_face? hface.symm fun x hx => hS.floatFree x (hx ▸ hc)).1 hbc
    exact (alike_iff_face? rfl fun x hx => hS.floatFree x (hx ▸ hc)).2 (hface.trans hface')

lemma mem_zip_comm {α : Type} {as bs : List α} {q : α × α} (hq : q ∈ bs.zip as) :
    (q.2, q.1) ∈ as.zip bs := by
  obtain ⟨i, hi, rfl⟩ := List.mem_iff_getElem.1 hq
  rw [List.length_zip] at hi
  exact List.mem_iff_getElem.2 ⟨i, by rw [List.length_zip]; omega, by simp⟩

/-- What faces each other does so the other way round too. -/
lemma Faces.symm {q : Value × Value} (hq : Faces h (b, a) q) : Faces h (a, b) (q.2, q.1) := by
  cases b <;> cases a <;> first | exact hq.elim | skip
  case tuple.tuple => exact mem_zip_comm hq
  case list.list => exact mem_zip_comm hq
  case map.map s r =>
    obtain ⟨k, hentry, hfound⟩ := hq
    obtain ⟨k', hentry', hkey⟩ := Dictionary.mem_of_find? hfound
    refine ⟨k', hentry', ?_⟩
    have hself : (h.map s).get? k = some q.1 :=
      Dictionary.find?_of_mem (h.map s).distinct BEq.rfl hentry
    rwa [Dictionary.get?, Dictionary.find?_congr hkey]

lemma exists_mem_zip {α : Type} {as bs cs : List α} {q : α × α} (hab : as.length = bs.length)
    (hbc : bs.length = cs.length) (hq : q ∈ as.zip cs) :
    ∃ m, (q.1, m) ∈ as.zip bs ∧ (m, q.2) ∈ bs.zip cs := by
  obtain ⟨i, hi, rfl⟩ := List.mem_iff_getElem.1 hq
  rw [List.length_zip] at hi
  have hmid : i < bs.length := by omega
  refine ⟨bs[i], ?_, ?_⟩
  · exact List.mem_iff_getElem.2 ⟨i, by rw [List.length_zip]; omega, by simp⟩
  · exact List.mem_iff_getElem.2 ⟨i, by rw [List.length_zip]; omega, by simp⟩

/-- Between values that look alike something lies between what faces each other. -/
lemma exists_faces (hab : Alike h a b) (hbc : Alike h b c) {q : Value × Value}
    (hq : Faces h (a, c) q) : ∃ m, Faces h (a, b) (q.1, m) ∧ Faces h (b, c) (m, q.2) := by
  cases a <;> cases c <;> first | exact hq.elim | skip
  case tuple.tuple i as k cs =>
    obtain ⟨j, bs, rfl, hlength⟩ := alike_tuple_iff.1 hab
    exact exists_mem_zip hlength hbc hq
  case list.list r t =>
    obtain ⟨s, rfl, hsize⟩ := alike_list_iff.1 hab
    have hsize' : (h.list s).size = (h.list t).size := hbc
    exact exists_mem_zip (by simpa using hsize) (by simpa using hsize') hq
  case map.map r t =>
    obtain ⟨s, rfl, -, hkeys⟩ := alike_map_iff.1 hab
    obtain ⟨k, hentry, hfound⟩ := hq
    obtain ⟨m, hm⟩ := Option.isSome_iff_exists.1 (hkeys _ hentry)
    obtain ⟨k', hentry', hkey⟩ := Dictionary.mem_of_find? hm
    refine ⟨m, ⟨k, hentry, hm⟩, k', hentry', ?_⟩
    rwa [Dictionary.get?, Dictionary.find?_congr hkey]

lemma Plain.bisimilar_symm (hS : Plain h S) (ha : a ∈ S) (hb : b ∈ S) (hab : Bisimilar h a b) :
    Bisimilar h b a := by
  obtain ⟨R, hR, hab⟩ := hab
  refine ⟨fun c d => R d c ∧ c ∈ S ∧ d ∈ S, ?_, hab, hb, ha⟩
  rintro c d ⟨hdc, hc, hd⟩
  obtain ⟨halike, hparts⟩ := hR d c hdc
  refine ⟨hS.alike_symm hd hc halike, fun q hq => ⟨hparts _ hq.symm, ?_⟩⟩
  exact hS.coherent.faces (p := (c, d)) ⟨hc, hd⟩ hq

lemma Plain.bisimilar_trans (hS : Plain h S) (ha : a ∈ S) (hb : b ∈ S) (hc : c ∈ S)
    (hab : Bisimilar h a b) (hbc : Bisimilar h b c) : Bisimilar h a c := by
  obtain ⟨R, hR, hab⟩ := hab
  obtain ⟨R', hR', hbc⟩ := hbc
  refine ⟨fun u w => u ∈ S ∧ w ∈ S ∧ ∃ v ∈ S, R u v ∧ R' v w, ?_, ha, hc, b, hb, hab, hbc⟩
  rintro u w ⟨hu, hw, v, hv, huv, hvw⟩
  obtain ⟨halike, hparts⟩ := hR u v huv
  obtain ⟨halike', hparts'⟩ := hR' v w hvw
  refine ⟨hS.alike_trans hu hv hw halike halike', fun q hq => ?_⟩
  obtain ⟨hq₁, hq₂⟩ := hS.coherent.faces (p := (u, w)) ⟨hu, hw⟩ hq
  obtain ⟨m, hm, hm'⟩ := exists_faces halike halike' hq
  have hmS := (hS.coherent.faces (p := (u, v)) ⟨hu, hv⟩ hm).2
  exact ⟨hq₁, hq₂, m, hmS, hparts _ hm, hparts' _ hm'⟩

lemma Plain.equal_iff_bisimilar (hS : Plain h S) (ha : a ∈ S) (hb : b ∈ S) :
    equal h a b = true ↔ Bisimilar h a b :=
  Value.equal_iff_bisimilar hS.coherent ha hb (hS.nested a ha)

theorem Plain.equal_self (hS : Plain h S) (ha : a ∈ S) : equal h a a = true := by
  refine (hS.equal_iff_bisimilar ha ha).2 ⟨fun c d => c = d ∧ c ∈ S, ?_, rfl, ha⟩
  rintro c d ⟨rfl, hc⟩
  refine ⟨hS.coherent.alike_self hc, fun q hq => ⟨hq.eq_of_self, ?_⟩⟩
  exact (hS.coherent.faces (p := (c, c)) ⟨hc, hc⟩ hq).1

theorem Plain.equal_symm (hS : Plain h S) (ha : a ∈ S) (hb : b ∈ S) (hab : equal h a b = true) :
    equal h b a = true :=
  (hS.equal_iff_bisimilar hb ha).2
    (hS.bisimilar_symm ha hb ((hS.equal_iff_bisimilar ha hb).1 hab))

theorem Plain.equal_trans (hS : Plain h S) (ha : a ∈ S) (hb : b ∈ S) (hc : c ∈ S)
    (hab : equal h a b = true) (hbc : equal h b c = true) : equal h a c = true :=
  (hS.equal_iff_bisimilar ha hc).2
    (hS.bisimilar_trans ha hb hc ((hS.equal_iff_bisimilar ha hb).1 hab)
      ((hS.equal_iff_bisimilar hb hc).1 hbc))

lemma Plain.equal_comm (hS : Plain h S) (ha : a ∈ S) (hb : b ∈ S) : equal h a b = equal h b a :=
  Bool.eq_iff_iff.2 ⟨hS.equal_symm ha hb, hS.equal_symm hb ha⟩

lemma Plain.equal_congr_right (hS : Plain h S) (ha : a ∈ S) (hb : b ∈ S) (hc : c ∈ S)
    (hbc : equal h b c = true) : equal h a b = equal h a c :=
  Bool.eq_iff_iff.2 ⟨fun hab => hS.equal_trans ha hb hc hab hbc,
    fun hac => hS.equal_trans ha hc hb hac (hS.equal_symm hb hc hbc)⟩

end Value

end StackMachine
