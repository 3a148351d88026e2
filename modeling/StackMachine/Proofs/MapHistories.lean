import StackMachine.Proofs.Cursors
import StackMachine.Proofs.MapKeys
import StackMachine.Run.Execute
/-!
# Histories of a map

A map is reached through aliases, and its operations are found among the operators, the methods, the
builtin functions and the loops.  Whatever guest code does with a map, it behaves as a dictionary
that keeps the order of insertion: a list of entries for different keys, that is searched from the
front, gets new keys at its end and never moves an entry.

What should become of the entries is said by the common functions on lists (`Dictionary.stored`,
`Dictionary.removed`, `Dictionary.valueOf?`), and what an operation should do with them by
`MapOperation.after` and `MapOperation.answer`.  That the operations do so is `performs`, one case
for each of them, and from that it follows of any sequence of them by induction on the history, as
long as nothing else changes the map (`history_entries`).  The main result is
`map_is_ordered_dictionary`.
-/

namespace StackMachine

namespace Dictionary

variable {κ α : Type} [BEq κ]

/-! ## What should become of entries -/

/-- The entries with `value` under `k`.  An entry for an equal key keeps its place and its key and
gets the value; if there is none then there is a new one at the end. -/
def stored (k : κ) (value : α) (entries : List (κ × α)) : List (κ × α) :=
  if entries.any (·.1 == k) then
    entries.map fun entry => if entry.1 == k then (entry.1, value) else entry
  else entries ++ [(k, value)]

/-- The entries for other keys than `k`. -/
def removed (k : κ) (entries : List (κ × α)) : List (κ × α) :=
  entries.filter fun entry => !(entry.1 == k)

/-- The value under `k`. -/
def valueOf? (k : κ) (entries : List (κ × α)) : Option α :=
  (entries.find? (·.1 == k)).map Prod.snd

lemma find?_eq_valueOf? (k : κ) (entries : List (κ × α)) :
    find? k entries = valueOf? k entries := by
  induction entries with
  | nil => rfl
  | cons entry rest ih =>
    cases hkey : entry.1 == k <;> simp_all [find?, valueOf?]

lemma any_eq_isSome_valueOf? (k : κ) (entries : List (κ × α)) :
    entries.any (·.1 == k) = (valueOf? k entries).isSome := by
  rw [valueOf?, Option.isSome_map, Bool.eq_iff_iff, List.find?_isSome, List.any_eq_true]

variable {k : κ} {value : α} {entry : κ × α} {entries rest : List (κ × α)}

lemma removed_of_valueOf?_eq_none (h : valueOf? k entries = none) :
    removed k entries = entries := by
  rw [removed, List.filter_eq_self]
  simpa [valueOf?] using h

variable [EquivBEq κ]

/-- Behind the entry for a key there is no other one for it. -/
lemma forall_ne_of_beq (hkey : (entry.1 == k) = true)
    (hnew : ∀ other ∈ rest, (entry.1 == other.1) = false) :
    ∀ other ∈ rest, (other.1 == k) = false := by
  intro other hother
  rw [BEq.comm, ← BEq.congr_left hkey]
  exact hnew other hother

theorem insertInto_eq_stored
    (hdistinct : entries.Pairwise fun entry other => (entry.1 == other.1) = false) :
    insertInto k value entries = stored k value entries := by
  induction entries with
  | nil => rfl
  | cons entry rest ih =>
    obtain ⟨hnew, hdistinct⟩ := List.pairwise_cons.1 hdistinct
    cases hkey : entry.1 == k with
    | true =>
      have hrest : rest.map (fun other => if other.1 == k then (other.1, value) else other) =
          rest.map id :=
        List.map_congr_left fun other hother => by simp [forall_ne_of_beq hkey hnew other hother]
      simp [insertInto, stored, hkey, hrest]
    | false =>
      rw [insertInto, hkey, if_neg Bool.false_ne_true, ih hdistinct]
      simp only [stored, List.any_cons, hkey, Bool.false_or, List.map_cons]
      split <;> rfl

theorem eraseFrom_eq_removed
    (hdistinct : entries.Pairwise fun entry other => (entry.1 == other.1) = false) :
    eraseFrom k entries = removed k entries := by
  induction entries with
  | nil => rfl
  | cons entry rest ih =>
    obtain ⟨hnew, hdistinct⟩ := List.pairwise_cons.1 hdistinct
    cases hkey : entry.1 == k with
    | true =>
      have hrest : rest.filter (fun other => !(other.1 == k)) = rest :=
        List.filter_eq_self.2 fun other hother => by simp [forall_ne_of_beq hkey hnew other hother]
      simp [eraseFrom, removed, hkey, hrest]
    | false => simp [eraseFrom, removed, hkey, ih hdistinct]

end Dictionary

/-! ## Operations on a map -/

/-- What guest code does with a map. -/
inductive MapOperation where
  /-- Storing an item, in a map display or under a subscript. -/
  | store (key value : Value)
  /-- The method `pop`. -/
  | takeOut (key : Value) (default? : Option Value)
  /-- The method `get`. -/
  | lookUp (key : Value) (default? : Option Value)
  | subscript (key : Value)
  | isIn (key : Value)
  | keys
  | values
  | items
  | len
  /-- Going through the map in a loop. -/
  | iterate
  /-- Making a list of the map. -/
  | collect

/-- The answer to an operation, without what is made anew in order to give it. -/
inductive MapAnswer where
  | value (v : Value)
  | keys (ks : List Key)
  | values (vs : List Value)
  | items (entries : List (Key × Value))

open Key (KeyOf)

/-- A tuple of the key and the value of an entry. -/
def PairOf (v : Value) (entry : Key × Value) : Prop :=
  ∃ i key, v = .tuple i [key, entry.2] ∧ KeyOf key entry.1

/-- The value gives the answer: it is the one that is asked for, or a list that has been made of
what is asked for, in this order. -/
def MapAnswer.ShownBy (v : Value) (h : Heap) : MapAnswer → Prop
  | value w => v = w
  | keys ks => ∃ s, v = .list s ∧ List.Forall₂ KeyOf (h.list s).toList ks
  | values vs => ∃ s, v = .list s ∧ (h.list s).toList = vs
  | items entries => ∃ s, v = .list s ∧ List.Forall₂ PairOf (h.list s).toList entries

/-- What an iterator gives when it is asked `count` times, or until it has nothing left to give. -/
def Value.given (c : Ref .cursor) : (count : Nat) → HeapM (List Value)
  | 0 => pure []
  | count + 1 => do
    match ← Value.next? c with
    | some v => (v :: ·) <$> given c count
    | .none => pure []

namespace MapOperation

/-- Runs an operation on the map `r`.  A loop asks its iterator once more than the map has entries,
and ends if there is no answer to that. -/
def run (r : Ref .map) : MapOperation → HeapM Value
  | store key value => do
    (Value.map r).setItem key value
    pure .none
  | takeOut key default? => Method.mapPop.call (.map r) (key :: default?.toList)
  | lookUp key default? => Method.mapGet.call (.map r) (key :: default?.toList)
  | subscript key => Value.binary .subscript (.map r) key
  | isIn key => do return .bool (← HeapM.ofExcept (Value.compare (← get) .isIn key (.map r)))
  | keys => Method.mapKeys.call (.map r) []
  | values => Method.mapValues.call (.map r) []
  | items => Method.mapItems.call (.map r) []
  | len => do return (← Builtin.len.call [.map r]).value
  | iterate => do
    match ← (Value.map r).toIterator with
    | .iterator c => HeapM.list (← Value.given c (((← get).map r).size + 1)).toArray
    | other => throw (.notIterator other.typeName)
  | collect => do return (← Builtin.list.call [.map r]).value

/-- The key that an operation is given. -/
def key? : MapOperation → Option Value
  | store key _ | takeOut key _ | lookUp key _ | subscript key | isIn key => some key
  | keys | values | items | len | iterate | collect => none

/-- What should become of the entries. -/
def after (entries : List (Key × Value)) : MapOperation → List (Key × Value)
  | store key value =>
    match Key.ofValue key with
    | .ok k => Dictionary.stored k value entries
    | .error _ => entries
  | takeOut key _ =>
    match Key.ofValue key with
    | .ok k => Dictionary.removed k entries
    | .error _ => entries
  | _ => entries

/-- The value under a key, or else the default, without which there is no answer. -/
def valueOr (key : Value) : Option Value → Except Cause MapAnswer
  | some v => .ok (.value v)
  | none => .error (.keyNotFound key)

/-- The answer that should be given. -/
def answer (entries : List (Key × Value)) : MapOperation → Except Cause MapAnswer
  | store key _ => (Key.ofValue key).bind fun _ => .ok (.value .none)
  | takeOut key default? =>
    (Key.ofValue key).bind fun k => valueOr key ((Dictionary.valueOf? k entries).or default?)
  | lookUp key default? =>
    (Key.ofValue key).bind fun k =>
      .ok (.value (((Dictionary.valueOf? k entries).or default?).getD .none))
  | subscript key => (Key.ofValue key).bind fun k => valueOr key (Dictionary.valueOf? k entries)
  | isIn key => (Key.ofValue key).bind fun k => .ok (.value (.bool (entries.any (·.1 == k))))
  | keys | iterate | collect => .ok (.keys (entries.map Prod.fst))
  | values => .ok (.values (entries.map Prod.snd))
  | items => .ok (.items entries)
  | len => .ok (.value (.int (Int64.ofNat entries.length)))

/-- An operation on the map `r` that has `entries` does with them what it should do, and answers
what it should answer.  No other map is changed, and without an answer nothing is changed at all. -/
inductive Performs (r : Ref .map) (entries : List (Key × Value)) (h : Heap) (op : MapOperation) :
    Prop
  | answered {reading : MapAnswer} {v : Value} {h' : Heap} {d : Dictionary Key Value}
      (hanswer : op.answer entries = .ok reading) (hrun : op.run r h = .ok v h')
      (hshown : reading.ShownBy v h') (hafter : d.entries = op.after entries)
      (hmaps : h'.maps = h.maps.setIfInBounds r.index d)
  | refused {c : Cause} (hanswer : op.answer entries = .error c) (hrun : op.run r h = .error c h)
      (hafter : op.after entries = entries)

end MapOperation

/-! ## Maps and lists in the heap -/

namespace Heap

variable {h : Heap} {r : Ref .map} {d : Dictionary Key Value}

lemma map_eq (hr : h.maps[r.index]? = some d) : h.map r = d := by
  rw [map, hr, Option.getD_some]

lemma get?_map (hr : h.maps[r.index]? = some d) (k : Key) :
    (h.map r).get? k = Dictionary.valueOf? k d.entries := by
  rw [map_eq hr, Dictionary.get?, Dictionary.find?_eq_valueOf?]

lemma maps_modifyMap (hr : h.maps[r.index]? = some d)
    (f : Dictionary Key Value → Dictionary Key Value) :
    (h.modifyMap r f).maps = h.maps.setIfInBounds r.index (f d) :=
  modify_eq_setIfInBounds hr f

/-- A list that has just been made holds what it was made of. -/
lemma list_newList (items : Array Value) (h : Heap) :
    (h.newList items).2.list (h.newList items).1 = items := by
  simp [list, newList]

end Heap

/-- The tuples that are made of entries. -/
lemma Method.pairs_ok (entries : List (Key × Value)) (h : Heap) :
    ∃ vs n, Method.pairs entries h = .ok vs { h with nextId := n } ∧
      List.Forall₂ PairOf vs entries := by
  induction entries generalizing h with
  | nil => exact ⟨[], h.nextId, rfl, .nil⟩
  | cons entry rest ih =>
    obtain ⟨key, n, hkey, hkeyOf⟩ := entry.1.toValue_ok h
    obtain ⟨vs, m, hvs, hpairs⟩ := ih { h with nextId := n + 1 }
    have hpair : HeapM.tuple [key, entry.2] { h with nextId := n } =
        .ok (.tuple n [key, entry.2]) { h with nextId := n + 1 } := rfl
    refine ⟨.tuple n [key, entry.2] :: vs, m, ?_, .cons ⟨n, key, rfl, hkeyOf⟩ hpairs⟩
    simp [pairs, hkey, hpair, hvs]

/-- An iterator over fixed items gives them, when it is asked for all of them and for one more. -/
lemma Value.given_items {c : Ref .cursor} {vs : List Value} {h : Heap}
    (hc : h.cursors[c.index]? = some (.items vs)) :
    ∃ h', given c (vs.length + 1) h = .ok vs h' ∧ h'.maps = h.maps := by
  induction vs generalizing h with
  | nil => exact ⟨h, by simp [given, next?, Heap.cursor, hc, Cursor.advance], rfl⟩
  | cons v vs ih =>
    obtain ⟨hindex, -⟩ := Array.getElem?_eq_some_iff.1 hc
    obtain ⟨h', hrun, hmaps⟩ := ih (h := h.setCursor c (.items vs))
      (Array.getElem?_setIfInBounds_self_of_lt hindex)
    have hnext : next? c h = .ok (some v) (h.setCursor c (.items vs)) := by
      simp [next?, Heap.cursor, hc, Cursor.advance]
    refine ⟨h', ?_, hmaps⟩
    rw [List.length_cons, given, HeapM.bind_apply, hnext]
    dsimp only
    rw [HeapM.map_apply, hrun]

namespace MapOperation

variable {r : Ref .map} {d : Dictionary Key Value} {entries : List (Key × Value)} {h h' : Heap}
  {op : MapOperation} {key : Value} {k : Key} {c : Cause} {v : Value}

/-! ## Each operation -/

lemma run_store (hkey : Key.ofValue key = .ok k) :
    (store key v).run r h = .ok .none (h.modifyMap r (·.insert k v)) := by
  simp [run, Value.setItem, hkey]

lemma run_takeOut (default? : Option Value) (hkey : Key.ofValue key = .ok k) :
    (takeOut key default?).run r h =
      match (h.map r).get? k, default? with
      | some v, _ => .ok v (h.modifyMap r (·.erase k))
      | none, some v => .ok v h
      | none, none => .error (.keyNotFound key) h := by
  cases hget : (h.map r).get? k <;> cases default? <;>
    simp [run, Method.call, Method.callOnMap, Method.keyAndDefault, hkey, hget]

lemma run_lookUp (default? : Option Value) (hkey : Key.ofValue key = .ok k) :
    (lookUp key default?).run r h = .ok ((((h.map r).get? k).or default?).getD .none) h := by
  cases hget : (h.map r).get? k <;> cases default? <;>
    simp [run, Method.call, Method.callOnMap, Method.keyAndDefault, hkey, hget]

lemma run_subscript (hkey : Key.ofValue key = .ok k) :
    (subscript key).run r h =
      match (h.map r).get? k with
      | some v => .ok v h
      | none => .error (.keyNotFound key) h := by
  cases hget : (h.map r).get? k <;> simp [run, Value.binary, Value.subscript, hkey, hget]

lemma run_isIn (hkey : Key.ofValue key = .ok k) :
    (isIn key).run r h = .ok (.bool ((h.map r).contains k)) h := by
  simp [run, Value.compare, Value.contains, hkey, Except.map]

lemma run_len : len.run r h = .ok (.int (Int64.ofNat (h.map r).size)) h := by
  simp [run, Builtin.call, Builtin.oneArgument, Builtin.length]

/-- The program makes a list with such items, and no map is changed. -/
def Lists (x : HeapM Value) (h : Heap) (holds : List Value → Prop) : Prop :=
  ∃ s h', x h = .ok (.list s) h' ∧ holds (h'.list s).toList ∧ h'.maps = h.maps

lemma lists_of_list {x : HeapM Value} {vs : List Value} {holds : List Value → Prop}
    (hrun : x h = HeapM.list vs.toArray h') (hvs : holds vs) (hmaps : h'.maps = h.maps) :
    Lists x h holds :=
  ⟨(h'.newList vs.toArray).1, (h'.newList vs.toArray).2, hrun, by rwa [Heap.list_newList], hmaps⟩

lemma run_keys : Lists (keys.run r) h (List.Forall₂ KeyOf · (h.map r).keys) := by
  obtain ⟨vs, n, hvs, hkeys⟩ := Key.toValues_ok (h.map r).keys h
  have hrun : keys.run r h = HeapM.list vs.toArray { h with nextId := n } := by
    simp [run, Method.call, Method.callOnMap, Method.noArguments, hvs]
  exact lists_of_list hrun (Key.ofValues_eq_ok.1 hkeys) rfl

lemma run_values : Lists (values.run r) h (· = (h.map r).values) := by
  have hrun : values.run r h = HeapM.list (h.map r).values.toArray h := by
    simp [run, Method.call, Method.callOnMap, Method.noArguments]
  exact lists_of_list hrun rfl rfl

lemma run_items : Lists (items.run r) h (List.Forall₂ PairOf · (h.map r).entries) := by
  obtain ⟨vs, n, hvs, hpairs⟩ := Method.pairs_ok (h.map r).entries h
  have hrun : items.run r h = HeapM.list vs.toArray { h with nextId := n } := by
    simp [run, Method.call, Method.callOnMap, Method.noArguments, hvs]
  exact lists_of_list hrun hpairs rfl

/-- The iterator keeps the keys that the map has when the loop begins. -/
lemma run_iterate : Lists (iterate.run r) h (List.Forall₂ KeyOf · (h.map r).keys) := by
  obtain ⟨vs, n, hvs, hkeys⟩ := Key.toValues_ok (h.map r).keys h
  have hall := Key.ofValues_eq_ok.1 hkeys
  let h₁ := ({ h with nextId := n }.newCursor (.items vs)).2
  have hiterator : (Value.map r).toIterator h = .ok (.iterator ⟨h.cursors.size⟩) h₁ := by
    simp [Value.toIterator, Cursor.ofIterable, hvs, h₁, Heap.newCursor]
  have hcursor : h₁.cursors[h.cursors.size]? = some (.items vs) := Array.getElem?_push_size
  have hlength : (h.map r).size = vs.length := by
    rw [hall.length_eq, Dictionary.keys, List.length_map, Dictionary.size]
  obtain ⟨h₂, hgiven, hmaps⟩ := Value.given_items (c := ⟨h.cursors.size⟩) hcursor
  have hrun : iterate.run r h = HeapM.list vs.toArray h₂ := by
    have hmap : h₁.map r = h.map r := rfl
    simp [run, hiterator, hmap, hlength, hgiven]
  exact lists_of_list hrun hall hmaps

lemma run_collect : Lists (collect.run r) h (List.Forall₂ KeyOf · (h.map r).keys) := by
  obtain ⟨vs, n, hvs, hkeys⟩ := Key.toValues_ok (h.map r).keys h
  obtain ⟨ws, c', m, hdrain, hws, -⟩ := Cursor.drainOnto_of_holds
    (Cursor.holds_items vs { h with nextId := n }) (List.length_map _).le []
  obtain rfl := Item.forall₂_shownBy_values.1 hws
  have hrun : collect.run r h = HeapM.list ws.toArray { h with nextId := m } := by
    simp [run, Builtin.call, Builtin.collected, Builtin.oneArgument, Value.elements,
      Cursor.ofIterable, Cursor.drain, Cursor.bound, hvs, hdrain]
  exact lists_of_list hrun (Key.ofValues_eq_ok.1 hkeys) rfl

/-- What has no key is refused by every operation that is given a key, before a change. -/
lemma run_unhashable (hgiven : op.key? = some key) (hkey : Key.ofValue key = .error c) :
    op.run r h = .error c h := by
  cases op with
  | store _ value =>
    cases hgiven
    simp [run, Value.setItem, hkey]
  | takeOut _ default? | lookUp _ default? =>
    cases hgiven
    cases default? <;> simp [run, Method.call, Method.callOnMap, Method.keyAndDefault, hkey]
  | subscript _ =>
    cases hgiven
    simp [run, Value.binary, Value.subscript, hkey]
  | isIn _ =>
    cases hgiven
    simp [run, Value.compare, Value.contains, hkey, Except.map]
  | _ => cases hgiven

lemma performs_unhashable (hgiven : op.key? = some key) (hkey : Key.ofValue key = .error c) :
    Performs r entries h op := by
  refine .refused (c := c) ?_ (run_unhashable hgiven hkey) ?_
  · cases op <;> cases hgiven <;> simp only [answer, hkey, Except.bind]
  · cases op <;> cases hgiven <;> simp only [after, hkey]

/-- An operation that answers with a value and changes nothing, as it should. -/
lemma performs_of_value (hr : h.maps[r.index]? = some d)
    (hanswer : op.answer d.entries = .ok (.value v)) (hrun : op.run r h = .ok v h)
    (hafter : op.after d.entries = d.entries) : Performs r d.entries h op :=
  .answered hanswer hrun rfl hafter.symm (setIfInBounds_eq_self hr).symm

/-- An operation that answers with a list and changes no map, as it should. -/
lemma performs_of_lists (hr : h.maps[r.index]? = some d) {reading : MapAnswer}
    {holds : List Value → Prop} (hanswer : op.answer d.entries = .ok reading)
    (hlists : Lists (op.run r) h holds)
    (hshown : ∀ s h', holds (Heap.list h' s).toList → reading.ShownBy (.list s) h')
    (hafter : op.after d.entries = d.entries) : Performs r d.entries h op := by
  obtain ⟨s, h', hrun, hholds, hmaps⟩ := hlists
  refine .answered hanswer hrun (hshown s h' hholds) hafter.symm ?_
  rw [hmaps, setIfInBounds_eq_self hr]

lemma performs_store (hr : h.maps[r.index]? = some d) (hkey : Key.ofValue key = .ok k) :
    Performs r d.entries h (.store key v) := by
  have hanswer : (store key v).answer d.entries = .ok (.value .none) := by
    simp only [answer, hkey, Except.bind]
  have hafter : (d.insert k v).entries = (store key v).after d.entries := by
    simp only [after, hkey]
    exact Dictionary.insertInto_eq_stored d.distinct
  exact .answered hanswer (run_store hkey) rfl hafter (Heap.maps_modifyMap hr (·.insert k v))

lemma performs_takeOut (hr : h.maps[r.index]? = some d) (hkey : Key.ofValue key = .ok k)
    (default? : Option Value) : Performs r d.entries h (.takeOut key default?) := by
  have hrun := run_takeOut (r := r) (h := h) default? hkey
  have hanswer : (takeOut key default?).answer d.entries =
      valueOr key ((Dictionary.valueOf? k d.entries).or default?) := by
    simp only [answer, hkey, Except.bind]
  have hafter : (takeOut key default?).after d.entries = Dictionary.removed k d.entries := by
    simp only [after, hkey]
  rw [Heap.get?_map hr] at hrun
  cases hvalue : Dictionary.valueOf? k d.entries with
  | some v =>
    rw [hvalue] at hrun hanswer
    rw [← Dictionary.eraseFrom_eq_removed d.distinct] at hafter
    exact .answered hanswer hrun rfl hafter.symm (Heap.maps_modifyMap hr (·.erase k))
  | none =>
    rw [hvalue] at hrun hanswer
    rw [Dictionary.removed_of_valueOf?_eq_none hvalue] at hafter
    cases default? with
    | some v => exact performs_of_value hr hanswer hrun hafter
    | none => exact .refused hanswer hrun hafter

lemma performs_lookUp (hr : h.maps[r.index]? = some d) (hkey : Key.ofValue key = .ok k)
    (default? : Option Value) : Performs r d.entries h (.lookUp key default?) := by
  have hrun := run_lookUp (r := r) (h := h) default? hkey
  rw [Heap.get?_map hr] at hrun
  exact performs_of_value hr (by simp only [answer, hkey, Except.bind]) hrun rfl

lemma performs_subscript (hr : h.maps[r.index]? = some d)
    (hkey : Key.ofValue key = .ok k) : Performs r d.entries h (.subscript key) := by
  have hrun := run_subscript (r := r) (h := h) hkey
  have hanswer : (subscript key).answer d.entries =
      valueOr key (Dictionary.valueOf? k d.entries) := by
    simp only [answer, hkey, Except.bind]
  rw [Heap.get?_map hr] at hrun
  cases hvalue : Dictionary.valueOf? k d.entries with
  | some v =>
    rw [hvalue] at hrun hanswer
    exact performs_of_value hr hanswer hrun rfl
  | none =>
    rw [hvalue] at hrun hanswer
    exact .refused hanswer hrun rfl

lemma performs_isIn (hr : h.maps[r.index]? = some d) (hkey : Key.ofValue key = .ok k) :
    Performs r d.entries h (.isIn key) := by
  have hrun := run_isIn (r := r) (h := h) hkey
  rw [Dictionary.contains, Heap.get?_map hr, ← Dictionary.any_eq_isSome_valueOf?] at hrun
  exact performs_of_value hr (by simp only [answer, hkey, Except.bind]) hrun rfl

/-- An operation that is given a key does what it should do if it does so with what has a key. -/
lemma performs_keyed (hgiven : op.key? = some key)
    (hkeyed : ∀ k, Key.ofValue key = .ok k → Performs r entries h op) :
    Performs r entries h op := by
  cases hkey : Key.ofValue key with
  | error c => exact performs_unhashable hgiven hkey
  | ok k => exact hkeyed k hkey

/-- **Each operation** does what it should do. -/
lemma performs (hr : h.maps[r.index]? = some d) (op : MapOperation) :
    Performs r d.entries h op := by
  have hmap := Heap.map_eq hr
  cases op with
  | store key value => exact performs_keyed rfl fun k hkey => performs_store hr hkey
  | takeOut key default? =>
    exact performs_keyed rfl fun k hkey => performs_takeOut hr hkey default?
  | lookUp key default? => exact performs_keyed rfl fun k hkey => performs_lookUp hr hkey default?
  | subscript key => exact performs_keyed rfl fun k hkey => performs_subscript hr hkey
  | isIn key => exact performs_keyed rfl fun k hkey => performs_isIn hr hkey
  | keys =>
    exact performs_of_lists hr rfl run_keys (fun s h' hs => ⟨s, rfl, by rwa [hmap] at hs⟩) rfl
  | values =>
    exact performs_of_lists hr rfl run_values (fun s h' hs => ⟨s, rfl, by rwa [hmap] at hs⟩) rfl
  | items =>
    exact performs_of_lists hr rfl run_items (fun s h' hs => ⟨s, rfl, by rwa [hmap] at hs⟩) rfl
  | iterate =>
    exact performs_of_lists hr rfl run_iterate (fun s h' hs => ⟨s, rfl, by rwa [hmap] at hs⟩) rfl
  | collect =>
    exact performs_of_lists hr rfl run_collect (fun s h' hs => ⟨s, rfl, by rwa [hmap] at hs⟩) rfl
  | len =>
    have hrun := run_len (r := r) (h := h)
    rw [hmap] at hrun
    exact performs_of_value hr rfl hrun rfl

/-- **An answer** leaves behind the entries that should be there. -/
lemma entries_of_answered (hr : h.maps[r.index]? = some d) (hrun : op.run r h = .ok v h') :
    ∃ d', h'.maps[r.index]? = some d' ∧ d'.entries = op.after d.entries := by
  obtain ⟨-, hrun', -, hafter, hmaps⟩ | ⟨-, hrun', -⟩ := performs hr op <;>
    rw [hrun] at hrun' <;> cases hrun'
  obtain ⟨hindex, -⟩ := Array.getElem?_eq_some_iff.1 hr
  exact ⟨_, by rw [hmaps, Array.getElem?_setIfInBounds_self_of_lt hindex], hafter⟩

/-- **A refusal** leaves them as they were, as it should. -/
lemma entries_of_refused (hr : h.maps[r.index]? = some d) (hrun : op.run r h = .error c h') :
    ∃ d', h'.maps[r.index]? = some d' ∧ d'.entries = op.after d.entries := by
  obtain ⟨-, hrun', -, -, -⟩ | ⟨-, hrun', hafter⟩ := performs hr op <;>
    rw [hrun] at hrun' <;> cases hrun'
  exact ⟨d, hr, hafter.symm⟩

/-! ## Agreement on keys -/

/-- The operations that are given `key` agree that the value `v` is stored under it. -/
structure Finds (r : Ref .map) (h : Heap) (key v : Value) : Prop where
  isIn_eq : (isIn key).run r h = .ok (.bool true) h
  subscript_eq : (subscript key).run r h = .ok v h
  lookUp_eq (default? : Option Value) : (lookUp key default?).run r h = .ok v h
  takeOut_eq (default? : Option Value) : ∃ h', (takeOut key default?).run r h = .ok v h'

/-- They agree that nothing is stored under `key`. -/
structure Misses (r : Ref .map) (h : Heap) (key : Value) : Prop where
  isIn_eq : (isIn key).run r h = .ok (.bool false) h
  subscript_eq : (subscript key).run r h = .error (.keyNotFound key) h
  lookUp_eq (default? : Option Value) :
    (lookUp key default?).run r h = .ok (default?.getD .none) h
  takeOut_none : (takeOut key none).run r h = .error (.keyNotFound key) h
  takeOut_some (v : Value) : (takeOut key (some v)).run r h = .ok v h

lemma finds (hkey : Key.ofValue key = .ok k) (hget : (h.map r).get? k = some v) :
    Finds r h key v where
  isIn_eq := by rw [run_isIn hkey, Dictionary.contains, hget, Option.isSome_some]
  subscript_eq := by rw [run_subscript hkey, hget]
  lookUp_eq default? := by rw [run_lookUp default? hkey, hget, Option.some_or, Option.getD_some]
  takeOut_eq default? := ⟨_, by rw [run_takeOut default? hkey, hget]⟩

lemma misses (hkey : Key.ofValue key = .ok k) (hget : (h.map r).get? k = none) :
    Misses r h key where
  isIn_eq := by rw [run_isIn hkey, Dictionary.contains, hget, Option.isSome_none]
  subscript_eq := by rw [run_subscript hkey, hget]
  lookUp_eq default? := by rw [run_lookUp default? hkey, hget, Option.none_or]
  takeOut_none := by rw [run_takeOut none hkey, hget]
  takeOut_some v := by rw [run_takeOut (some v) hkey, hget]

/-- What has a key can only be missing. -/
lemma answer_eq_error (hgiven : op.key? = some key) (hkey : Key.ofValue key = .ok k)
    (hanswer : op.answer entries = .error c) : c = .keyNotFound key := by
  have hvalueOr : ∀ v? : Option Value, valueOr key v? = .error c → c = .keyNotFound key := by
    rintro (_ | v) h <;> cases h
    rfl
  cases op <;> cases hgiven <;> simp only [answer, hkey, Except.bind] at hanswer
  case takeOut.refl | subscript.refl => exact hvalueOr _ hanswer
  all_goals cases hanswer

/-- Operations that are given a key raise a `TypeError` exactly if it is not hashable. -/
lemma typeError_iff (hperforms : Performs r entries h op) (hgiven : op.key? = some key) :
    (∃ c h', op.run r h = .error c h' ∧ c.kind = .typeError) ↔
      ∃ w, Value.Part w key ∧ w.hashableKind = false := by
  constructor
  · rintro ⟨c, h', hrun, hkind⟩
    obtain ⟨-, hrun', -⟩ | ⟨hanswer, hrun', -⟩ := hperforms <;> rw [hrun] at hrun' <;> cases hrun'
    cases hkey : Key.ofValue key with
    | error c' =>
      obtain ⟨w, hw, hkind, -⟩ := Key.exists_part_of_error key hkey
      exact ⟨w, hw, hkind⟩
    | ok k =>
      rw [answer_eq_error hgiven hkey hanswer] at hkind
      cases hkind
  · rintro ⟨w, hw, hkind⟩
    cases hkey : Key.ofValue key with
    | error c =>
      obtain ⟨w', -, -, rfl⟩ := Key.exists_part_of_error key hkey
      exact ⟨_, h, run_unhashable hgiven hkey, rfl⟩
    | ok k =>
      rw [Key.hashableKind_of_part hw hkey] at hkind
      cases hkind

/-! ## Instructions that store -/

/-- In a map display the item goes into the map that stays on the stack. -/
lemma perform_storeMap {a : Activation} {rest : Array Value}
    (hstack : a.frame.stack = ((rest.push (.map r)).push v).push key) :
    Exec.perform .storeMap a = Exec.onHeap ((Value.map r).setItem key v)
      { a with frame := { a.frame with stack := rest.push (.map r) } } := by
  simp [Exec.perform, Exec.pop, Exec.peek, hstack]

lemma perform_storeSubscript {a : Activation} {rest : Array Value}
    (hstack : a.frame.stack = ((rest.push v).push (.map r)).push key) :
    Exec.perform .storeSubscript a = Exec.onHeap ((Value.map r).setItem key v)
      { a with frame := { a.frame with stack := rest } } := by
  simp [Exec.perform, Exec.pop, hstack]

end MapOperation

/-! ## Histories -/

open MapOperation

/-- The heap that the operations on the map `r` have led to, which was empty at first.  Between the
operations anything may happen that leaves this map alone. -/
inductive MapHistory (r : Ref .map) : List MapOperation → Heap → Prop
  | start {h : Heap} (hempty : h.maps[r.index]? = some .empty) : MapHistory r [] h
  | answered {ops : List MapOperation} {op : MapOperation} {h h' : Heap} {v : Value}
    (hbefore : MapHistory r ops h) (hrun : op.run r h = .ok v h') : MapHistory r (ops ++ [op]) h'
  | refused {ops : List MapOperation} {op : MapOperation} {h h' : Heap} {c : Cause}
    (hbefore : MapHistory r ops h) (hrun : op.run r h = .error c h') : MapHistory r (ops ++ [op]) h'
  | elsewhere {ops : List MapOperation} {h h' : Heap} (hbefore : MapHistory r ops h)
    (hsame : h'.maps[r.index]? = h.maps[r.index]?) : MapHistory r ops h'

/-- The heap after some operations on the map `r`, one right after the other. -/
def heapAfter (r : Ref .map) (ops : List MapOperation) (h : Heap) : Heap :=
  ops.foldl (fun h op => match op.run r h with | .ok _ h' => h' | .error _ h' => h') h

/-- The entries that should be there after some operations on an empty map. -/
def entriesAfter (ops : List MapOperation) : List (Key × Value) := ops.foldl after []

variable {r : Ref .map} {ops : List MapOperation} {h : Heap}

/-- There are histories of any operations. -/
lemma mapHistory_heapAfter (hempty : h.maps[r.index]? = some .empty) (ops : List MapOperation) :
    MapHistory r ops (heapAfter r ops h) := by
  induction ops using List.reverseRecOn with
  | nil => exact .start hempty
  | append_singleton ops op ih =>
    rw [heapAfter, List.foldl_append, List.foldl_cons, List.foldl_nil]
    split
    · next hrun => exact .answered ih hrun
    · next hrun => exact .refused ih hrun

lemma entriesAfter_snoc (ops : List MapOperation) (op : MapOperation) :
    entriesAfter (ops ++ [op]) = op.after (entriesAfter ops) := by
  rw [entriesAfter, List.foldl_append]
  rfl

/-- The map has the entries that should be there, by induction on the history. -/
lemma history_entries (hist : MapHistory r ops h) :
    ∃ d, h.maps[r.index]? = some d ∧ d.entries = entriesAfter ops := by
  induction hist with
  | start hempty => exact ⟨.empty, hempty, rfl⟩
  | answered hbefore hrun ih =>
    obtain ⟨d, hr, hd⟩ := ih
    rw [entriesAfter_snoc, ← hd]
    exact entries_of_answered hr hrun
  | refused hbefore hrun ih =>
    obtain ⟨d, hr, hd⟩ := ih
    rw [entriesAfter_snoc, ← hd]
    exact entries_of_refused hr hrun
  | elsewhere hbefore hsame ih =>
    obtain ⟨d, hr, hd⟩ := ih
    exact ⟨d, hsame.trans hr, hd⟩

/-- **Maps are insertion-ordered dictionaries.**  After any operations on a map that was empty, it
has the entries that it should have, no two of them for the same key, and each further operation
does what it should do.  Of the operations that are given a key, each raises a `TypeError` exactly
if there is something in it that is not hashable.  Otherwise they agree on whether there is a value
under it, and on which.  Whether an item is stored in a map display or under a subscript makes no
difference. -/
theorem map_is_ordered_dictionary (hist : MapHistory r ops h) :
    (h.map r).entries = entriesAfter ops ∧
    (entriesAfter ops).Pairwise (fun entry other => (entry.1 == other.1) = false) ∧
    (∀ op, Performs r (entriesAfter ops) h op) ∧
    (∀ (op : MapOperation) (key : Value), op.key? = some key →
      ((∃ c h', op.run r h = .error c h' ∧ c.kind = .typeError) ↔
        ∃ w, Value.Part w key ∧ w.hashableKind = false)) ∧
    (∀ key k, Key.ofValue key = .ok k →
      (∀ entry ∈ entriesAfter ops, (entry.1 == k) = true → Finds r h key entry.2) ∧
      ((∀ entry ∈ entriesAfter ops, (entry.1 == k) = false) → Misses r h key)) ∧
    ∀ (a : Activation) (rest : Array Value) (key v : Value),
      (a.frame.stack = ((rest.push (.map r)).push v).push key →
        Exec.perform .storeMap a = Exec.onHeap ((Value.map r).setItem key v)
          { a with frame := { a.frame with stack := rest.push (.map r) } }) ∧
      (a.frame.stack = ((rest.push v).push (.map r)).push key →
        Exec.perform .storeSubscript a = Exec.onHeap ((Value.map r).setItem key v)
          { a with frame := { a.frame with stack := rest } }) := by
  obtain ⟨d, hr, hd⟩ := history_entries hist
  have hmap := Heap.map_eq hr
  have hperforms := performs hr
  rw [hd] at hperforms
  refine ⟨by rw [hmap, hd], hd ▸ d.distinct, hperforms, fun op key => typeError_iff (hperforms op),
    ?_,
    fun a rest key v => ⟨perform_storeMap, perform_storeSubscript⟩⟩
  intro key k hkey
  constructor
  · intro entry hentry heq
    refine finds hkey ?_
    rw [hmap, Dictionary.get?, ← Dictionary.find?_congr heq]
    exact Dictionary.find?_of_mem d.distinct BEq.rfl (hd ▸ hentry)
  · intro hnone
    refine misses hkey ?_
    rw [hmap, Dictionary.get?, Dictionary.find?_eq_valueOf?, hd]
    simpa [Dictionary.valueOf?] using hnone

/-- Items stored under `True` and `1`, and under two tuples with these in them. -/
def trueAndOne : List MapOperation :=
  [.store (.bool true) (.int 10), .store Key.pairOfTrue (.int 20), .store (.int 1) (.int 30),
    .store Key.pairOfOne (.int 40), .takeOut (.int 1) none, .store (.bool true) (.int 50),
    .store (.list ⟨0⟩) .none]

/-- The heap to which this leads. -/
def afterTrueAndOne : Heap := heapAfter ⟨0⟩ trueAndOne { Heap.empty with maps := #[.empty] }

/-- The tuple keeps its place and its first key and has the later value, `True` was taken out as `1`
and comes last now, and the list was refused. -/
theorem map_is_ordered_dictionary_of_true_and_one :
    (afterTrueAndOne.map ⟨0⟩).entries =
        [(.tuple [.bool true, .tuple [.str 2 "x", .none]], .int 40), (.bool true, .int 50)] ∧
      Finds ⟨0⟩ afterTrueAndOne (.int 1) (.int 50) := by
  have hist : MapHistory ⟨0⟩ trueAndOne afterTrueAndOne := mapHistory_heapAfter rfl trueAndOne
  obtain ⟨hentries, -, -, -, hagree, -⟩ := map_is_ordered_dictionary hist
  have hone : (Key.bool true, Value.int 50) ∈ entriesAfter trueAndOne :=
    List.mem_cons_of_mem _ List.mem_cons_self
  exact ⟨hentries, (hagree (.int 1) (.int 1) rfl).1 _ hone rfl⟩

end StackMachine
