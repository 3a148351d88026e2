import StackMachine.Proofs.HeapGrowth
/-!
# Failed operations on containers

A method of a list or a map may look at its arguments, convert them, or walk through an iterator
before it changes anything, and so may storing an item.  If one of these goes wrong then no list and
no map has been changed, whatever aliases the receiver has among the arguments.

What is done before a change is sparing (`HeapM.Sparing`): cursors may be advanced and objects may
get their numbers, but lists and maps stay as they are.  The change itself never fails, and nothing
that may fail comes after it.  A program that is made in this way is careful (`HeapM.Careful`),
which is the statement about failure.  The main result is `failed_operation_changes_no_container`.
-/

namespace StackMachine

open Exec

namespace HeapM

variable {α β : Type} {x : HeapM α} {f : α → HeapM β}

/-- A program that never fails. -/
def Unfailing (x : HeapM α) : Prop := ∀ h, ∃ v h', x h = .ok v h'

/-- A program that has left everything alone but cursors when it fails. -/
def Careful (x : HeapM α) : Prop := ∀ h c h', x h = .error c h' → h.Spares h'

/-! ## Programs made of programs -/

lemma careful_of_sparing (hx : Sparing x) : Careful x := by
  intro h c h' hfail
  have hkept := hx h
  rw [hfail] at hkept
  exact hkept.1

lemma Unfailing.careful (hx : Unfailing x) : Careful x := by
  intro h c h' hfail
  obtain ⟨v, h'', hok⟩ := hx h
  rw [hok] at hfail
  cases hfail

/-- What fails behind a sparing program has to be careful itself. -/
lemma careful_bind (hx : Sparing x) (hf : ∀ v, Careful (f v)) : Careful (x >>= f) := by
  intro h c h' hfail
  have hkept := hx h
  simp only [bind, EStateM.bind] at hfail
  cases hrun : x h with
  | error c₁ h₁ =>
    rw [hrun] at hfail hkept
    cases hfail
    exact hkept.1
  | ok v h₁ =>
    rw [hrun] at hfail hkept
    exact trans_of Heap.Spares hkept (hf v h₁ c h' hfail)

lemma unfailing_pure (v : α) : Unfailing (pure v : HeapM α) := fun h => ⟨v, h, rfl⟩

lemma unfailing_modify (g : Heap → Heap) : Unfailing (modify g) := fun h => ⟨(), g h, rfl⟩

lemma unfailing_list (items : Array Value) : Unfailing (list items) :=
  fun _ => ⟨_, _, rfl⟩

/-- A change at the very end cannot fail. -/
lemma change_careful (g : Heap → Heap) (v : α) : Careful (do modify g; pure v) :=
  fun _ _ _ => nofun

lemma unfailing_bind (hx : Unfailing x) (hf : ∀ v, Unfailing (f v)) :
    Unfailing (x >>= f) := by
  intro h
  obtain ⟨v, h₁, hrun⟩ := hx h
  obtain ⟨w, h₂, hrun'⟩ := hf v h₁
  exact ⟨w, h₂, by simp only [bind, EStateM.bind, hrun, hrun']⟩

lemma refused_careful (c : Cause) : Careful (throw c : HeapM α) :=
  careful_of_sparing (keeps_throw trivial)

end HeapM

open HeapM

/-! ## Methods -/

namespace Method

/-- An item is taken out of a list only when nothing can fail any more. -/
lemma listPop_careful (r : Ref .list) (args : List Value) :
    Careful (listPop.callOnList r args) := by
  refine careful_bind (optionalArgument_keeps _ _) fun index => careful_bind keeps_get fun h => ?_
  by_cases hempty : (h.list r).size = 0
  · simp only [hempty, if_true]
    exact refused_careful .popFromEmpty
  · simp only [hempty, if_false]
    cases index <;> refine careful_bind (by grind) fun i => ?_
    all_goals
      split
      · exact refused_careful .popOutOfRange
      · refine careful_bind keeps_get fun h => ?_
        split
        · exact refused_careful .popOutOfRange
        · exact change_careful _ _

lemma callOnList_careful (m : Method) (r : Ref .list) (args : List Value) :
    Careful (m.callOnList r args) := by
  cases m with
  | listAppend =>
    exact careful_bind (oneArgument_keeps _ _) fun _ => change_careful _ _
  | listExtend =>
    exact careful_bind (oneArgument_keeps _ _) fun source =>
      careful_bind source.elements_sparing fun _ => change_careful _ _
  | listInsert =>
    exact careful_bind (twoArguments_keeps _ _) fun _ =>
      careful_bind (ofExcept_keeps _) fun _ => change_careful _ _
  | listPop => exact listPop_careful r args
  | listIndex =>
    refine careful_bind (oneArgument_keeps _ _) fun _ => careful_bind keeps_get fun _ => ?_
    exact careful_of_sparing (by split <;> grind)
  | listCount =>
    exact careful_bind (oneArgument_keeps _ _) fun _ =>
      careful_bind keeps_get fun _ => careful_of_sparing (keeps_pure _)
  | listReverse =>
    exact careful_bind (noArguments_keeps _ _) fun _ => change_careful _ _
  | _ => exact refused_careful _

lemma callOnMap_careful (m : Method) (r : Ref .map) (args : List Value) :
    Careful (m.callOnMap r args) := by
  cases m with
  | mapKeys =>
    exact careful_bind (noArguments_keeps _ _) fun _ => careful_bind keeps_get fun _ =>
      careful_bind (Key.toValues_sparing _) fun _ => (unfailing_list _).careful
  | mapValues =>
    exact careful_bind (noArguments_keeps _ _) fun _ => careful_bind keeps_get fun _ =>
      (unfailing_list _).careful
  | mapItems =>
    exact careful_bind (noArguments_keeps _ _) fun _ => careful_bind keeps_get fun _ =>
      careful_bind (pairs_sparing _) fun _ => (unfailing_list _).careful
  | mapGet =>
    refine careful_bind (keyAndDefault_keeps _ _) fun _ =>
      careful_bind (ofExcept_keeps _) fun _ => careful_bind keeps_get fun _ => ?_
    exact careful_of_sparing (by split <;> grind)
  | mapPop =>
    refine careful_bind (keyAndDefault_keeps _ _) fun _ =>
      careful_bind (ofExcept_keeps _) fun _ => careful_bind keeps_get fun _ => ?_
    split
    · exact change_careful _ _
    · exact careful_of_sparing (by split <;> grind)
  | _ => exact refused_careful _

/-- Texts are made one after the other, and then a list of them. -/
lemma listOfTexts_unfailing (parts : List (List Char)) : Unfailing (listOfTexts parts) := by
  have hstrings : Unfailing (parts.mapM fun part => HeapM.str (String.ofList part)) := by
    induction parts with
    | nil => exact unfailing_pure _
    | cons part rest ih =>
      rw [List.mapM_cons]
      exact unfailing_bind (fun _ => ⟨_, _, rfl⟩) fun _ =>
        unfailing_bind ih fun _ => unfailing_pure _
  exact unfailing_bind hstrings fun _ => unfailing_list _

lemma callOnText_careful (m : Method) (s : String) (args : List Value) :
    Careful (m.callOnText s args) := by
  cases m with
  | strJoin =>
    exact careful_bind (oneArgument_keeps _ _) fun source =>
      careful_bind source.elements_sparing fun _ => careful_bind (ofExcept_keeps _) fun _ =>
        careful_of_sparing (str_sparing _)
  | strSplit =>
    refine careful_bind (optionalArgument_keeps _ _) fun separator => ?_
    split
    · exact (listOfTexts_unfailing _).careful
    · exact (listOfTexts_unfailing _).careful
    · split
      · exact refused_careful .emptySeparator
      · exact (listOfTexts_unfailing _).careful
    · exact refused_careful _
  | strUpper | strLower | strStrip =>
    exact careful_bind (noArguments_keeps _ _) fun _ => careful_of_sparing (str_sparing _)
  | _ => exact refused_careful _

lemma call_careful (m : Method) (receiver : Value) (args : List Value) :
    Careful (m.call receiver args) := by
  unfold call
  split
  · exact callOnList_careful m _ args
  · exact callOnMap_careful m _ args
  · exact callOnText_careful m _ args
  · exact refused_careful _

end Method

/-! ## Storing an item -/

lemma Value.setItem_careful (container index item : Value) :
    Careful (container.setItem index item) := by
  unfold setItem
  split
  · refine careful_bind keeps_get fun h => ?_
    split
    · exact refused_careful _
    · exact (unfailing_modify _).careful
  · exact careful_bind (ofExcept_keeps _) fun _ => (unfailing_modify _).careful
  · exact refused_careful _

/-- **Nothing is half done.**  When a method fails, or the store of an item, then all lists and all
maps are as they were, the receiver and its aliases among the arguments included. -/
theorem failed_operation_changes_no_container {h h' : Heap} {c : Cause} :
    (∀ (m : Method) (receiver : Value) (args : List Value),
      m.call receiver args h = .error c h' → h'.lists = h.lists ∧ h'.maps = h.maps) ∧
    (∀ container index item : Value,
      container.setItem index item h = .error c h' → h'.lists = h.lists ∧ h'.maps = h.maps) := by
  constructor
  · intro m receiver args hfail
    have hsame := Method.call_careful m receiver args h c h' hfail
    exact ⟨hsame.lists, hsame.maps⟩
  · intro container index item hfail
    have hsame := Value.setItem_careful container index item h c h' hfail
    exact ⟨hsame.lists, hsame.maps⟩

/-- The list `[1, ...]` that holds itself, and a map in which it is stored under `1`. -/
def selfHolding : Heap :=
  { Heap.empty with
    lists := #[#[.int 1, .list ⟨0⟩]]
    maps := #[.ofList [(.int 1, .list ⟨0⟩)]] }

/-- The list cannot be inserted at a position that is the list itself, the map has nothing to give
up for `2`, and the list is no key of it. -/
theorem failed_operation_changes_no_container_holding_itself :
    (∃ c h', Method.listInsert.call (.list ⟨0⟩) [.list ⟨0⟩, .list ⟨0⟩] selfHolding = .error c h' ∧
      h'.lists = selfHolding.lists ∧ h'.maps = selfHolding.maps) ∧
    (∃ c h', Method.mapPop.call (.map ⟨0⟩) [.int 2] selfHolding = .error c h' ∧
      h'.lists = selfHolding.lists ∧ h'.maps = selfHolding.maps) ∧
    ∃ c h', (Value.map ⟨0⟩).setItem (.list ⟨0⟩) .none selfHolding = .error c h' ∧
      h'.lists = selfHolding.lists ∧ h'.maps = selfHolding.maps :=
  ⟨⟨_, _, rfl, failed_operation_changes_no_container.1 .listInsert (.list ⟨0⟩)
      [.list ⟨0⟩, .list ⟨0⟩] rfl⟩,
    ⟨_, _, rfl, failed_operation_changes_no_container.1 .mapPop (.map ⟨0⟩) [.int 2] rfl⟩,
    ⟨_, _, rfl, failed_operation_changes_no_container.2 (.map ⟨0⟩) (.list ⟨0⟩) .none rfl⟩⟩

end StackMachine
