/-!
# Insertion-ordered dictionaries

The table behind guest maps and behind every table of names: a list of entries in the order in
which their keys were first stored, no two of them for the same key. Storing under a key that is
there keeps the entry's place and its key and replaces the value; a new key goes to the end;
removing an entry moves no other one.
-/

namespace StackMachine

/-- Entries in the order of their first insertion. -/
@[ext]
structure Dictionary (κ : Type) (α : Type) [BEq κ] where
  entries : List (κ × α)
  /-- No two entries are for the same key. -/
  distinct : entries.Pairwise fun a b => (a.1 == b.1) = false

namespace Dictionary

variable {κ α : Type} [BEq κ]

def empty : Dictionary κ α := ⟨[], .nil⟩

instance : Inhabited (Dictionary κ α) := ⟨empty⟩

/-- The value of the first entry whose key equals `k`. -/
def find? (k : κ) : List (κ × α) → Option α
  | [] => none
  | (key, value) :: rest => if key == k then some value else find? k rest

/-- The value stored under `k`. -/
def get? (d : Dictionary κ α) (k : κ) : Option α := find? k d.entries

def contains (d : Dictionary κ α) (k : κ) : Bool := (d.get? k).isSome

/-- The entries with `value` under `k`. -/
def insertInto (k : κ) (value : α) : List (κ × α) → List (κ × α)
  | [] => [(k, value)]
  | (key, old) :: rest =>
    if key == k then (key, value) :: rest else (key, old) :: insertInto k value rest

/-- An entry was there before, or it has the new value, under `k` or under a key that was there. -/
theorem mem_insertInto {k : κ} {value : α} {entry : κ × α} {entries : List (κ × α)}
    (h : entry ∈ insertInto k value entries) :
    entry ∈ entries ∨ entry.2 = value ∧ (entry.1 = k ∨ ∃ old ∈ entries, entry.1 = old.1) := by
  induction entries with
  | nil =>
    obtain rfl := List.mem_singleton.1 h
    exact .inr ⟨rfl, .inl rfl⟩
  | cons first rest ih =>
    rw [insertInto] at h
    split at h
    · obtain rfl | hrest := List.mem_cons.1 h
      · exact .inr ⟨rfl, .inr ⟨first, List.mem_cons_self, rfl⟩⟩
      · exact .inl (List.mem_cons_of_mem _ hrest)
    · obtain rfl | hrest := List.mem_cons.1 h
      · exact .inl List.mem_cons_self
      · obtain hold | ⟨hvalue, hnew | ⟨old, hold, heq⟩⟩ := ih hrest
        · exact .inl (List.mem_cons_of_mem _ hold)
        · exact .inr ⟨hvalue, .inl hnew⟩
        · exact .inr ⟨hvalue, .inr ⟨old, List.mem_cons_of_mem _ hold, heq⟩⟩

theorem distinct_insertInto {entries : List (κ × α)}
    (h : entries.Pairwise fun a b => (a.1 == b.1) = false) (k : κ) (value : α) :
    (insertInto k value entries).Pairwise fun a b => (a.1 == b.1) = false := by
  induction entries with
  | nil => exact List.pairwise_singleton ..
  | cons first rest ih =>
    obtain ⟨hfirst, hrest⟩ := List.pairwise_cons.1 h
    rw [insertInto]
    split
    · exact List.pairwise_cons.2 ⟨hfirst, hrest⟩
    · next hne =>
      refine List.pairwise_cons.2 ⟨fun entry hentry => ?_, ih hrest⟩
      obtain hold | ⟨-, heq | ⟨old, hold, heq⟩⟩ := mem_insertInto hentry
      · exact hfirst entry hold
      · rw [heq]
        simpa using hne
      · rw [heq]
        exact hfirst old hold

/-- Stores a value under a key. -/
def insert (d : Dictionary κ α) (k : κ) (value : α) : Dictionary κ α :=
  ⟨insertInto k value d.entries, distinct_insertInto d.distinct k value⟩

/-- The entries without the first one whose key equals `k`. -/
def eraseFrom (k : κ) : List (κ × α) → List (κ × α)
  | [] => []
  | (key, value) :: rest => if key == k then rest else (key, value) :: eraseFrom k rest

theorem eraseFrom_sublist (k : κ) (entries : List (κ × α)) :
    (eraseFrom k entries).Sublist entries := by
  induction entries with
  | nil => exact .slnil
  | cons first rest ih =>
    rw [eraseFrom]
    split
    · exact .cons first (.refl rest)
    · exact ih.cons_cons first

/-- Removes the entry of a key. -/
def erase (d : Dictionary κ α) (k : κ) : Dictionary κ α :=
  ⟨eraseFrom k d.entries, d.distinct.sublist (eraseFrom_sublist k d.entries)⟩

def size (d : Dictionary κ α) : Nat := d.entries.length

def isEmpty (d : Dictionary κ α) : Bool := d.entries.isEmpty

def keys (d : Dictionary κ α) : List κ := d.entries.map Prod.fst

def values (d : Dictionary κ α) : List α := d.entries.map Prod.snd

/-- Stores a list of bindings one after the other. -/
def ofList (bindings : List (κ × α)) : Dictionary κ α :=
  bindings.foldl (fun d (k, value) => d.insert k value) empty

/-! ## Distinct keys -/

/-- A new key goes to the end. -/
theorem insertInto_of_forall_ne {k : κ} {entries : List (κ × α)}
    (h : ∀ entry ∈ entries, (entry.1 == k) = false) (value : α) :
    insertInto k value entries = entries ++ [(k, value)] := by
  induction entries with
  | nil => rfl
  | cons entry rest ih =>
    have hrest : ∀ e ∈ rest, (e.1 == k) = false := fun e he => h e (List.mem_cons_of_mem entry he)
    simp [insertInto, h entry List.mem_cons_self, ih hrest]

/-- Bindings of distinct keys are stored as they come. -/
theorem entries_ofList {bindings : List (κ × α)}
    (h : bindings.Pairwise fun a b => (a.1 == b.1) = false) :
    (ofList bindings).entries = bindings := by
  suffices hfold : ∀ (d : Dictionary κ α),
      (d.entries ++ bindings).Pairwise (fun a b => (a.1 == b.1) = false) →
      (bindings.foldl (fun d (k, value) => d.insert k value) d).entries = d.entries ++ bindings by
    exact hfold empty h
  intro d hd
  induction bindings generalizing d with
  | nil => simp
  | cons binding rest ih =>
    obtain ⟨-, hrest, hnew⟩ := List.pairwise_append.1 hd
    have hstored : (d.insert binding.1 binding.2).entries = d.entries ++ [binding] :=
      insertInto_of_forall_ne (fun entry he => hnew entry he binding List.mem_cons_self) binding.2
    have hstored' : (d.insert binding.1 binding.2).entries ++ rest = d.entries ++ binding :: rest :=
      by rw [hstored, List.append_assoc, List.singleton_append]
    rw [List.foldl_cons, ih (List.pairwise_cons.1 h).2 _ (hstored'.symm ▸ hd), hstored']

/-- An entry is found under its key. -/
theorem find?_of_mem {k : κ} {value : α} {entries : List (κ × α)}
    (h : entries.Pairwise fun a b => (a.1 == b.1) = false) (hk : (k == k) = true)
    (hmem : (k, value) ∈ entries) : find? k entries = some value := by
  induction entries with
  | nil => cases hmem
  | cons entry rest ih =>
    obtain ⟨hne, hrest⟩ := List.pairwise_cons.1 h
    obtain rfl | hmem := List.mem_cons.1 hmem
    · simp [find?, hk]
    · simp [find?, hne _ hmem, ih hrest hmem]

/-- What is found is the value of an entry under that key. -/
theorem mem_of_find? {k : κ} {value : α} {entries : List (κ × α)}
    (h : find? k entries = some value) : ∃ key, (key, value) ∈ entries ∧ (key == k) = true := by
  induction entries with
  | nil => cases h
  | cons entry rest ih =>
    rw [find?] at h
    split at h
    · next hkey =>
      cases h
      exact ⟨entry.1, List.mem_cons_self, hkey⟩
    · obtain ⟨key, hmem, hkey⟩ := ih h
      exact ⟨key, List.mem_cons_of_mem entry hmem, hkey⟩

theorem contains_iff {d : Dictionary κ α} {k : κ} :
    d.contains k = true ↔ ∃ entry ∈ d.entries, (entry.1 == k) = true := by
  unfold contains get?
  induction d.entries with
  | nil => simp [find?]
  | cons entry rest ih =>
    rw [find?]
    split
    · next hkey => simp [hkey]
    · next hkey => simp [hkey, ih]

/-! ## Keys that are equal -/

section Equivalence

variable [EquivBEq κ]

/-- Equal keys lead to the same entry. -/
theorem find?_congr {k k' : κ} (h : (k == k') = true) (entries : List (κ × α)) :
    find? k entries = find? k' entries := by
  induction entries with
  | nil => rfl
  | cons entry rest ih =>
    rw [find?, find?, BEq.congr_right h, ih]

theorem contains_congr {d : Dictionary κ α} {k k' : κ} (h : (k == k') = true) :
    d.contains k = d.contains k' := by
  unfold contains get?
  rw [find?_congr h]

/-- Keys of which no two are equal, and that all equal one of some others, leave none of the others
over, unless there are more of these. -/
theorem exists_beq_of_length_le {ks ls : List κ}
    (hdistinct : ks.Pairwise fun k k' => (k == k') = false) (hlength : ls.length ≤ ks.length)
    (h : ∀ k ∈ ks, ∃ l ∈ ls, (k == l) = true) :
    ∀ l ∈ ls, ∃ k ∈ ks, (k == l) = true := by
  induction ks generalizing ls with
  | nil =>
    rw [List.length_nil, Nat.le_zero, List.length_eq_zero_iff] at hlength
    rw [hlength]
    nofun
  | cons k ks ih =>
    obtain ⟨hnew, hdistinct⟩ := List.pairwise_cons.1 hdistinct
    obtain ⟨l, hl, hkl⟩ := h k List.mem_cons_self
    obtain ⟨before, behind, rfl⟩ := List.append_of_mem hl
    have hrest : ∀ k' ∈ ks, ∃ l' ∈ before ++ behind, (k' == l') = true := by
      intro k' hk'
      obtain ⟨l', hl', hkl'⟩ := h k' (List.mem_cons_of_mem k hk')
      -- The one that `k` equals is out of the question, since `k'` would equal `k`.
      have hne : l' ≠ l := by
        rintro rfl
        have := hnew k' hk'
        rw [BEq.trans hkl (BEq.symm hkl')] at this
        cases this
      exact ⟨l', by simpa [hne] using hl', hkl'⟩
    have hrestLength : (before ++ behind).length ≤ ks.length := by
      simp at hlength ⊢
      omega
    intro l' hl'
    by_cases heq : l' = l
    · exact ⟨k, List.mem_cons_self, heq ▸ hkl⟩
    · obtain ⟨k', hk', hkl'⟩ := ih hdistinct hrestLength hrest l' (by simpa [heq] using hl')
      exact ⟨k', List.mem_cons_of_mem k hk', hkl'⟩

/-- A table whose keys are all in a table of the same size has all keys of that table. -/
theorem contains_of_size_eq {β : Type} {d : Dictionary κ α} {e : Dictionary κ β}
    (hsize : d.size = e.size)
    (h : ∀ entry ∈ d.entries, e.contains entry.1 = true) :
    ∀ entry ∈ e.entries, d.contains entry.1 = true := by
  have hkeys : ∀ k ∈ d.entries.map Prod.fst, ∃ l ∈ e.entries.map Prod.fst, (k == l) = true := by
    intro k hk
    obtain ⟨entry, hentry, rfl⟩ := List.mem_map.1 hk
    obtain ⟨other, hother, hkey⟩ := contains_iff.1 (h entry hentry)
    exact ⟨other.1, List.mem_map_of_mem hother, BEq.symm hkey⟩
  have hlength : (e.entries.map Prod.fst).length ≤ (d.entries.map Prod.fst).length := by
    rw [List.length_map, List.length_map]
    exact Nat.le_of_eq hsize.symm
  intro entry hentry
  obtain ⟨k, hk, hkey⟩ := exists_beq_of_length_le (List.pairwise_map.2 d.distinct) hlength hkeys
    entry.1 (List.mem_map_of_mem hentry)
  obtain ⟨other, hother, rfl⟩ := List.mem_map.1 hk
  exact contains_iff.2 ⟨other, hother, hkey⟩

end Equivalence

end Dictionary

end StackMachine
