import StackMachine.Object.Attributes
import StackMachine.Object.Functions
import StackMachine.Proofs.Ledgers
/-!
# Operations keep to the ledger

Everything that guest code does to values is sound for a ledger that knows what it is done to.
Items are taken out of tuples and containers and put into others, and new tuples are made by
`HeapM.tuple` alone, which enters them (`Ledger.tuple_sound`).  Code objects come from constant
pools, and a constant is loaded together with its path (`Value.ofConst_sound`).

Causes of failures have a value in them if a key was not found; all others are known as they are.

Each program needs a lemma about itself only.  Where it takes something out of a store or puts
something into one, the lemma says which fact about the store is used; the rest is put together by
`grind` from the lemmas about its parts.
-/

namespace StackMachine

open Ledger

variable {L : Ledger} {a b v : Value} {args : List Value} {keywords : List (String × Value)}

/-! ## Keys, constants and cursors -/

mutual

@[grind ←] lemma Key.ofValue_knows {L : Ledger} : (v : Value) → L.Knows (Key.ofValue v)
  | .tuple _ items => by
    have hitems := Key.ofValues_knows (L := L) items
    unfold ofValue
    grind
  | .none | .bool _ | .int _ | .str .. => by simp [ofValue]
  | .float _ | .list _ | .map _ | .iterator _ | .function _ | .builtin _ | .method .. | .code _
  | .cell _ | .exceptionType _ | .exception .. | .traceback .. | .why _ => by
    unfold ofValue
    grind

@[grind ←] lemma Key.ofValues_knows {L : Ledger} : (vs : List Value) → L.Knows (Key.ofValues vs)
  | [] => by simp [ofValues]
  | v :: vs => by
    have hv := Key.ofValue_knows (L := L) v
    have hvs := Key.ofValues_knows (L := L) vs
    unfold ofValues
    grind

end

mutual

@[grind ←] lemma Key.toValue_sound {L : Ledger} : (k : Key) → L.Sound k.toValue
  | .none | .bool _ | .int _ | .str .. => sound_pure trivial
  | .tuple items => sound_bind (Key.toValues_sound items) fun _ _ _ hvs => tuple_sound hvs

@[grind ←] lemma Key.toValues_sound {L : Ledger} : (ks : List Key) → L.Sound (Key.toValues ks)
  | [] => sound_pure knows_nil
  | k :: ks =>
    sound_bind k.toValue_sound fun _ _ _ hv =>
      sound_bind (Key.toValues_sound ks) fun _ hL _ hvs =>
        sound_pure (knows_cons.2 ⟨hv.mono hL, hvs⟩)

end

mutual

/-- The constant has to be where it is said to be. -/
lemma Value.ofConst_sound {L : Ledger} {origin : Nat} {path : List Nat} : (c : Const) →
    (L.units origin).constant? path = some c → L.Sound (Value.ofConst origin path c)
  | .none, _ | .bool _, _ | .int _, _ | .float _, _ => sound_pure trivial
  | .str s, _ => str_sound s
  | .code _, h => sound_pure h
  | .tuple items, h => by
    refine sound_bind (Value.ofConsts_sound items fun i c hc => ?_) fun _ _ _ hvs => tuple_sound hvs
    simpa [CodeUnit.constant?, h] using hc

lemma Value.ofConsts_sound {L : Ledger} {origin : Nat} {path : List Nat} {place : Nat} :
    (cs : List Const) →
    (∀ (i : Nat) (c : Const), cs[i]? = some c →
      (L.units origin).constant? ((place + i) :: path) = some c) →
    L.Sound (Value.ofConsts origin path place cs)
  | [], _ => sound_pure knows_nil
  | c :: cs, h => by
    refine sound_bind (Value.ofConst_sound c (h 0 c rfl)) fun L' hL v hv => ?_
    refine sound_bind (Value.ofConsts_sound cs fun i c' hc' => ?_) fun _ hL' _ hvs =>
      sound_pure (knows_cons.2 ⟨hv.mono hL', hvs⟩)
    have hplace := h (i + 1) c' hc'
    rw [hL.units]
    rwa [Nat.add_assoc, Nat.add_comm 1 i]

end

namespace Cursor

variable {c : Cursor}

@[grind ←] lemma ofIterable_sound (hv : L.Knows v) : L.Sound (ofIterable v) := by
  unfold ofIterable
  grind

@[grind ←] lemma advance_sound (hc : L.Knows c) : L.Sound c.advance := by
  unfold advance
  split
  case h_3 source i =>
    refine sound_bind sound_get fun L' hL h hh => ?_
    have hitem := (hh.list source).array_getElem? i
    grind
  all_goals grind

@[grind ←] lemma drainOnto_sound {taken : List Value} (hc : L.Knows c) (htaken : L.Knows taken)
    (fuel : Nat) : L.Sound (drainOnto taken fuel c) := by
  induction fuel generalizing L taken c with
  | zero => exact sound_pure ⟨htaken.of_subset (List.reverse_subset.2 (List.Subset.refl _)), hc⟩
  | succ fuel ih =>
    unfold drainOnto
    grind

@[grind ←] lemma drain_sound (hc : L.Knows c) : L.Sound c.drain := by
  unfold drain
  grind

end Cursor

namespace Value

@[grind ←] lemma next?_sound (r : Ref .cursor) : L.Sound (next? r) := by
  unfold next?
  grind

@[grind ←] lemma elements_sound (hv : L.Knows v) : L.Sound v.elements := by
  unfold elements
  grind

@[grind ←] lemma toIterator_sound (hv : L.Knows v) : L.Sound v.toIterator := by
  unfold toIterator
  grind

/-! ## Operators -/

@[grind ←] lemma fitting_knows (operation : String) (n? : Option Int64) :
    L.Knows (fitting operation n?) := by
  unfold fitting
  grind

lemma unary_knows (h : Heap) (op : UnaryOp) (v : Value) : L.Knows (v.unary h op) := by
  unfold unary
  grind

@[grind ←] lemma unsupported_knows (op : BinaryOp) (a b : Value) :
    L.Knows (unsupported op a b) := by
  unfold unsupported
  grind

@[grind ←] lemma arithmetic_knows {op : BinaryOp} {ints : Int64 → Int64 → Except Cause Value}
    {floats : Double → Double → Except Cause Value} (hints : ∀ x y, L.Knows (ints x y))
    (hfloats : ∀ x y, L.Knows (floats x y)) (a b : Value) :
    L.Knows (arithmetic op ints floats a b) := by
  unfold arithmetic
  grind

@[grind ←] lemma nonzeroFloats_knows {cause : Cause} (hcause : L.Knows cause)
    (f : Double → Double → Double) (x y : Double) : L.Knows (nonzeroFloats cause f x y) := by
  unfold nonzeroFloats
  grind

lemma power_knows (a b : Value) : L.Knows (power a b) := by
  unfold power
  grind

lemma trueDivide_knows (a b : Value) : L.Knows (trueDivide a b) := by
  unfold trueDivide
  grind

lemma floorDivide_knows (a b : Value) : L.Knows (floorDivide a b) := by
  unfold floorDivide
  grind

lemma modulo_knows (a b : Value) : L.Knows (modulo a b) := by
  unfold modulo
  grind

lemma shift_knows {op : BinaryOp} {f : Int64 → Nat → Except Cause Value}
    (hf : ∀ x s, L.Knows (f x s)) (a b : Value) : L.Knows (shift op f a b) := by
  unfold shift
  grind

lemma bitwise_knows (op : BinaryOp) (bools : Bool → Bool → Bool) (ints : Int64 → Int64 → Int64)
    (a b : Value) : L.Knows (bitwise op bools ints a b) := by
  unfold bitwise
  grind

lemma repeatItems_knows (host : SizeWords) {items : List Value} (h : L.Knows items)
    (times : Nat) : L.Knows (repeatItems host items times) := by
  have hrepeated := h.replicate_flatten times
  unfold repeatItems repeatedLength
  cases host.repeatedLength? items.length times <;> grind

@[grind ←] lemma repeated_sound (host : SizeWords) (count : Int64) (hv : L.Knows v) :
    L.Sound (repeated host count v) := by
  unfold repeated
  split
  case h_1 id s =>
    have hlength : L.Knows (repeatedLength host s.utf8ByteSize (host.times count)) := by
      unfold repeatedLength
      grind
    exact sound_bind (ofExcept_sound hlength) fun _ _ _ _ => by grind
  case h_2 id items =>
    exact sound_bind (ofExcept_sound (repeatItems_knows host hv.items _)) fun _ _ _ _ => by grind
  case h_3 r =>
    refine sound_bind sound_get fun L' _ h hh => ?_
    have hitems := repeatItems_knows host (knows_toList.2 (hh.list r)) (host.times count)
    exact sound_bind (ofExcept_sound hitems) fun _ _ _ _ => by grind
  case h_4 => grind

@[grind ←] lemma multiply_sound (host : SizeWords) (ha : L.Knows a) (hb : L.Knows b) :
    L.Sound (multiply host a b) := by
  have hproduct : L.Knows (arithmetic .multiply (fittingInts .multiply Integer.mul?)
      (totalFloats Double.mul) a b) := by
    unfold fittingInts totalFloats
    grind
  unfold multiply
  dsimp only
  split
  · exact sound_bind (repeated_sound host _ ha) fun _ _ _ _ => by grind
  · exact sound_bind (repeated_sound host _ hb) fun _ _ _ _ => by grind
  · grind

@[grind ←] lemma add_sound (ha : L.Knows a) (hb : L.Knows b) : L.Sound (add a b) := by
  unfold add fittingInts totalFloats
  grind

/-! ## Subscripts -/

lemma itemAt_knows {α : Type} [Recordable α] {what : String} {size : Nat} {item? : Nat → Option α}
    (h : ∀ n, L.Knows (item? n)) (i : Int64) : L.Knows (itemAt what size item? i) := by
  unfold itemAt
  split
  · next x hx =>
    obtain ⟨n, -, hn⟩ := Option.bind_eq_some_iff.1 hx
    exact knows_ok.2 (h n x hn)
  · grind

@[grind ←] lemma subscript_sound (ha : L.Knows a) (hb : L.Knows b) : L.Sound (subscript a b) := by
  unfold subscript
  split
  · exact ofExcept_sound (itemAt_knows ha.items.getElem? _)
  · refine sound_bind sound_get fun _ _ _ hh => ?_
    exact ofExcept_sound (itemAt_knows (hh.list _).array_getElem? _)
  · refine sound_bind (ofExcept_sound ?_) fun _ _ _ _ => str_sound _
    exact itemAt_knows (α := Char) (fun _ _ _ => trivial) _
  · refine sound_bind (ofExcept_sound (Key.ofValue_knows _)) fun L' hL k _ => ?_
    refine sound_bind sound_get fun L'' hL' h hh => ?_
    have hfound := (hh.map ‹_›).get? k
    grind
  all_goals grind

@[grind ←] lemma setItem_sound {item : Value} (ha : L.Knows a) (hb : L.Knows b)
    (hitem : L.Knows item) : L.Sound (setItem a b item) := by
  unfold setItem
  split
  · refine sound_bind sound_get fun L' hL h hh => ?_
    split
    · grind
    · exact modify_sound (fun L'' hL' h hh => hh.modifyList _ fun xs hxs =>
        hxs.setIfInBounds _ ((hitem.mono hL).mono hL')) fun _ => rfl
  · refine sound_bind (ofExcept_sound (Key.ofValue_knows _)) fun L' hL k _ => ?_
    exact modify_sound (fun L'' hL' h hh => hh.modifyMap _ fun d hd =>
      hd.insert k ((hitem.mono hL).mono hL')) fun _ => rfl
  · grind

@[grind ←] lemma binary_sound (op : BinaryOp) (ha : L.Knows a) (hb : L.Knows b) :
    L.Sound (binary op a b) := by
  unfold binary fittingInts totalFloats
  cases op <;> grind [power_knows, trueDivide_knows, floorDivide_knows, modulo_knows, shift_knows,
    bitwise_knows]

/-! ## Comparisons -/

@[grind ←] lemma orderScalars_knows (op : CompareOp) (a b : Value) :
    L.Knows (orderScalars op a b) := by
  unfold orderScalars
  grind

section Order

variable (h : Heap) (op : CompareOp)
  {lists : Ref .list → Ref .list → Except Cause (Option Ordering)}

mutual

lemma orderWith_knows (hlists : ∀ r s, L.Knows (lists r s)) : (a b : Value) →
    L.Knows (orderWith h op lists a b)
  | a, b => by
    cases a <;> cases b
    case tuple.tuple _ as _ bs => exact orderItemsWith_knows hlists as bs
    all_goals
      unfold orderWith
      grind

lemma orderItemsWith_knows (hlists : ∀ r s, L.Knows (lists r s)) : (as bs : List Value) →
    L.Knows (orderItemsWith h op lists as bs)
  | [], [] | [], _ :: _ | _ :: _, [] => by simp [orderItemsWith]
  | a :: as, b :: bs => by
    have hhead := orderWith_knows hlists a b
    have htail := orderItemsWith_knows hlists as bs
    unfold orderItemsWith
    grind

end

lemma orderLists_knows (fuel : Nat) (r s : Ref .list) : L.Knows (orderLists h op fuel r s) := by
  induction fuel generalizing r s with
  | zero => simp [orderLists]
  | succ fuel ih => exact orderItemsWith_knows h op ih _ _

end Order

mutual

lemma catches_knows (kind : ExceptionKind) : (v : Value) → L.Knows (catches kind v)
  | .tuple _ handlers => anyCatches_knows kind handlers
  | .none | .bool _ | .int _ | .float _ | .str .. | .list _ | .map _ | .iterator _ | .function _
  | .builtin _ | .method .. | .code _ | .cell _ | .exceptionType _ | .exception .. | .traceback ..
  | .why _ => by
    unfold catches
    grind

lemma anyCatches_knows (kind : ExceptionKind) : (vs : List Value) → L.Knows (anyCatches kind vs)
  | [] => by simp [anyCatches]
  | v :: vs => by
    have hv := catches_knows kind v
    have hvs := anyCatches_knows kind vs
    unfold anyCatches
    grind

end

lemma contains_knows (h : Heap) (container item : Value) :
    L.Knows (contains h container item) := by
  have hkey := Key.ofValue_knows (L := L) item
  unfold contains
  grind

@[grind ←] lemma compare_knows (h : Heap) (op : CompareOp) (a b : Value) :
    L.Knows (compare h op a b) := by
  have horder : L.Knows (order h op a b) := orderWith_knows h op (orderLists_knows h op _) a b
  unfold compare isCaughtBy
  cases op <;> grind [contains_knows, catches_knows]

/-! ## Attributes -/

@[grind ←] lemma arguments_sound (hv : L.Knows v) : L.Sound v.arguments := by
  unfold arguments
  grind

lemma getAttribute_sound (hv : L.Knows v) (name : String) : L.Sound (v.getAttribute name) := by
  unfold getAttribute
  split
  case h_1 r =>
    refine sound_bind sound_get fun L' hL h hh => ?_
    have hfound := hh.lookup? (h.function r).attributes name
    grind
  all_goals grind

lemma setAttribute_sound (v : Value) (name : String) {stored : Value} (hstored : L.Knows stored) :
    L.Sound (v.setAttribute name stored) := by
  unfold setAttribute
  grind

lemma raised_knows (hv : L.Knows v) : L.Knows v.raised := by
  unfold raised
  grind

lemma position_knows (v : Value) : L.Knows v.position := by
  unfold position
  grind

end Value

/-! ## Methods -/

namespace Method

variable (m : Method)

@[grind ←] lemma noArguments_sound (args : List Value) : L.Sound (m.noArguments args) := by
  unfold noArguments
  grind

@[grind ←] lemma oneArgument_sound (hargs : L.Knows args) : L.Sound (m.oneArgument args) := by
  unfold oneArgument
  grind

@[grind ←] lemma twoArguments_sound (hargs : L.Knows args) : L.Sound (m.twoArguments args) := by
  unfold twoArguments
  grind

@[grind ←] lemma optionalArgument_sound (hargs : L.Knows args) :
    L.Sound (m.optionalArgument args) := by
  unfold optionalArgument
  grind

@[grind ←] lemma keyAndDefault_sound (hargs : L.Knows args) : L.Sound (m.keyAndDefault args) := by
  unfold keyAndDefault
  grind

lemma callOnList_sound (r : Ref .list) (hargs : L.Knows args) :
    L.Sound (m.callOnList r args) := by
  cases m
  case listInsert =>
    refine sound_bind (twoArguments_sound _ hargs) fun L₁ _ p hp => ?_
    refine sound_bind (ofExcept_sound (Value.position_knows _)) fun L₂ hL₂ i _ => ?_
    refine sound_bind (modify_sound (fun L₃ hL₃ h hh => ?_) fun _ => rfl) fun _ _ _ _ =>
      sound_pure trivial
    exact hh.modifyList r fun xs hxs => hxs.insertIdxIfInBounds _ ((hp.2.mono hL₂).mono hL₃)
  case listPop =>
    refine sound_bind (optionalArgument_sound _ hargs) fun L₁ _ index hindex => ?_
    refine sound_bind sound_get fun L₂ _ h hh => ?_
    by_cases hempty : (h.list r).size = 0
    · simp only [hempty, if_true]
      exact sound_throw_bind (by grind) _
    · simp only [hempty, if_false]
      cases index <;> refine sound_bind (by grind [Value.position_knows]) fun L₃ _ i _ => ?_
      all_goals
        split
        · grind
        · next n _ =>
          refine sound_bind sound_get fun L₄ _ h hh => ?_
          have hitem := (hh.list r).array_getElem? n
          have herase : L₄.Sound (modify (·.modifyList r (·.eraseIdxIfInBounds n)) : HeapM Unit) :=
            modify_sound (fun _ _ _ hh => hh.modifyList r fun _ hxs =>
              hxs.eraseIdxIfInBounds n) fun _ => rfl
          grind
  all_goals
    simp only [callOnList]
    grind

@[grind ←] lemma pairs_sound {entries : List (Key × Value)}
    (h : ∀ entry ∈ entries, L.Knows entry.2) : L.Sound (pairs entries) := by
  induction entries generalizing L with
  | nil => exact sound_pure knows_nil
  | cons entry rest ih =>
    unfold pairs
    grind

lemma callOnMap_sound (r : Ref .map) (hargs : L.Knows args) : L.Sound (m.callOnMap r args) := by
  cases m
  case mapValues =>
    refine sound_bind (noArguments_sound _ _) fun _ _ _ _ => ?_
    refine sound_bind sound_get fun _ _ h hh => ?_
    exact list_sound (knows_toArray.2 (hh.map r).values)
  case mapItems =>
    refine sound_bind (noArguments_sound _ _) fun _ _ _ _ => ?_
    refine sound_bind sound_get fun _ _ h hh => ?_
    exact sound_bind (pairs_sound (hh.map r)) fun _ _ items hitems =>
      list_sound (knows_toArray.2 hitems)
  case mapGet =>
    refine sound_bind (keyAndDefault_sound _ hargs) fun L₁ _ p hp => ?_
    refine sound_bind (ofExcept_sound (Key.ofValue_knows _)) fun L₂ _ k _ => ?_
    refine sound_bind sound_get fun L₃ _ h hh => ?_
    have hfound := (hh.map r).get? k
    obtain ⟨key, _ | d⟩ := p <;> grind
  case mapPop =>
    refine sound_bind (keyAndDefault_sound _ hargs) fun L₁ _ p hp => ?_
    refine sound_bind (ofExcept_sound (Key.ofValue_knows _)) fun L₂ _ k _ => ?_
    refine sound_bind sound_get fun L₃ _ h hh => ?_
    have hfound := (hh.map r).get? k
    have herase : L₃.Sound (modify fun h => h.modifyMap r (·.erase k) : HeapM Unit) :=
      modify_sound (fun _ _ _ hh => hh.modifyMap r fun _ hd => hd.erase k) fun _ => rfl
    obtain ⟨key, _ | d⟩ := p <;> grind
  all_goals
    simp only [callOnMap]
    grind

@[grind ←] lemma textsFrom_knows (place : Nat) (vs : List Value) :
    L.Knows (textsFrom place vs) := by
  induction vs generalizing place with
  | nil => exact knows_ok.2 knows_nil
  | cons v vs ih =>
    unfold textsFrom
    grind

@[grind ←] lemma listOfTexts_sound (parts : List (List Char)) : L.Sound (listOfTexts parts) := by
  unfold listOfTexts
  refine sound_bind ?_ fun L' hL vs hvs => by grind
  induction parts generalizing L with
  | nil => exact sound_pure knows_nil
  | cons part rest ih =>
    rw [List.mapM_cons]
    grind

lemma callOnText_sound (s : String) (hargs : L.Knows args) : L.Sound (m.callOnText s args) := by
  unfold callOnText
  grind

lemma call_sound (v : Value) (hargs : L.Knows args) : L.Sound (m.call v args) := by
  unfold Method.call
  grind [callOnList_sound, callOnMap_sound, callOnText_sound]

end Method

/-! ## Builtin functions -/

namespace Builtin

@[grind ←] lemma oneArgument_sound (b : Builtin) (hargs : L.Knows args) :
    L.Sound (b.oneArgument args) := by
  unfold oneArgument
  grind

lemma length_sound (v : Value) : L.Sound (length v) := by
  unfold length
  grind

lemma bounds_knows (vs : List Value) : L.Knows (bounds vs) := by
  induction vs with
  | nil => exact knows_ok.2 knows_nil
  | cons v vs ih =>
    unfold bounds
    grind

lemma progression_sound (args : List Value) : L.Sound (progression args) := by
  have hbounds := bounds_knows (L := L) args
  unfold progression
  grind

lemma toInteger_knows (v : Value) : L.Knows (toInteger v) := by
  unfold toInteger
  grind

lemma toFloat_knows (v : Value) : L.Knows (toFloat v) := by
  unfold toFloat
  grind

lemma absolute_knows (v : Value) : L.Knows (absolute v) := by
  unfold absolute
  grind

lemma bestOf_knows (h : Heap) (op : CompareOp) {best : Value} {vs : List Value}
    (hbest : L.Knows best) (hvs : L.Knows vs) : L.Knows (bestOf h op best vs) := by
  induction vs generalizing best with
  | nil => exact knows_ok.2 hbest
  | cons v vs ih =>
    have hcompared := Value.compare_knows (L := L) h op v best
    unfold bestOf
    grind

@[grind ←] lemma extreme_sound (b : Builtin) (op : CompareOp) (hargs : L.Knows args) :
    L.Sound (b.extreme op args) := by
  unfold extreme
  split
  · refine sound_bind (Value.elements_sound (by grind)) fun _ _ items hitems => ?_
    grind [bestOf_knows]
  · refine sound_bind (sound_pure hargs) fun _ _ items hitems => ?_
    grind [bestOf_knows]

@[grind ←] lemma collected_sound (b : Builtin) (hargs : L.Knows args) :
    L.Sound (b.collected args) := by
  unfold collected
  grind

@[grind ←] lemma call_sound (b : Builtin) (hargs : L.Knows args) : L.Sound (b.call args) := by
  unfold call
  cases b <;> grind [length_sound, progression_sound, toInteger_knows, toFloat_knows,
    absolute_knows]

end Builtin

namespace Value

@[grind ←] lemma exceptionArgument_sound (hargs : L.Knows args) :
    L.Sound (exceptionArgument args) := by
  unfold exceptionArgument
  grind

@[grind ←] lemma invoke_sound (v : Value) (hargs : L.Knows args)
    (keywords : List (String × Value)) : L.Sound (v.invoke args keywords) := by
  unfold invoke
  grind [Method.call_sound]

end Value

/-! ## Arguments and locals -/

namespace Function

variable {F : Function} {slots : Slots}

lemma fillPositional_knows (params : List String) (hargs : L.Knows args) :
    L.Knows (fillPositional params args) := by
  induction params generalizing args with
  | nil => exact knows_nil
  | cons p ps ih =>
    cases args with
    | nil => exact knows_cons.2 ⟨⟨trivial, knows_none.2 trivial⟩, ih knows_nil⟩
    | cons v vs =>
      obtain ⟨hv, hvs⟩ := knows_cons.1 hargs
      exact knows_cons.2 ⟨⟨trivial, knows_some.2 hv⟩, ih hvs⟩

lemma fillKeyword_knows (function name : String) (hv : L.Knows v) (hslots : L.Knows slots) :
    L.Knows (fillKeyword function name v slots) := by
  induction slots with
  | nil =>
    unfold fillKeyword
    grind
  | cons slot rest ih =>
    obtain ⟨p, old⟩ := slot
    unfold fillKeyword
    grind

lemma fillKeywords_knows (function : String) (hkeywords : L.Knows keywords)
    (hslots : L.Knows slots) : L.Knows (fillKeywords function keywords slots) := by
  induction keywords generalizing slots with
  | nil => exact knows_ok.2 hslots
  | cons keyword rest ih =>
    obtain ⟨name, v⟩ := keyword
    obtain ⟨⟨-, hv⟩, hrest⟩ := knows_cons.1 hkeywords
    have hfilled := fillKeyword_knows function name hv hslots
    unfold fillKeywords
    grind

lemma fillDefaults_knows (required : Nat) {defaults : List Value} (hdefaults : L.Knows defaults)
    (hslots : L.Knows slots) : L.Knows (fillDefaults required defaults slots) := by
  induction slots generalizing required defaults with
  | nil => simp [fillDefaults]
  | cons slot rest ih =>
    obtain ⟨p, old⟩ := slot
    cases required with
    | succ n =>
      unfold fillDefaults
      grind
    | zero =>
      cases defaults with
      | nil => simpa [fillDefaults] using hslots
      | cons d ds =>
        unfold fillDefaults
        cases old <;> grind

lemma arrange_knows (params : List String) (hF : L.Knows F) (hargs : L.Knows args)
    (hkeywords : L.Knows keywords) : L.Knows (F.arrange params args keywords) := by
  have hfilled := fillKeywords_knows F.name hkeywords (fillPositional_knows params hargs)
  unfold arrange
  split
  · grind
  · split
    · next h =>
      rw [h] at hfilled
      exact knows_error.2 (knows_error.1 hfilled)
    · next slots h =>
      rw [h] at hfilled
      have hslots := fillDefaults_knows (params.length - F.defaults.length) hF.2
        (knows_ok.1 hfilled)
      dsimp only
      split
      · refine knows_ok.2 fun b hb => ?_
        obtain ⟨⟨p, slot⟩, hslot, hb⟩ := List.mem_filterMap.1 hb
        obtain ⟨v, rfl, rfl⟩ := Option.map_eq_some_iff.1 hb
        exact ⟨trivial, knows_some.1 (hslots _ hslot).2⟩
      · grind

lemma startLocals_sound (hF : L.Knows F) (hargs : L.Knows args) (hkeywords : L.Knows keywords) :
    L.Sound (F.startLocals args keywords) := by
  unfold startLocals
  refine sound_bind (ofExcept_sound (arrange_knows _ hF hargs hkeywords))
    fun L₁ hL₁ bindings hbindings => ?_
  have hlocals : L₁.Knows (Dictionary.ofList bindings) :=
    knows_ofList fun b hb => (hbindings b hb).2
  dsimp only
  split
  · exact newTable_sound hlocals
  · refine sound_bind (tuple_sound ?_) fun L₂ hL₂ rest hrest => ?_
    · exact (hargs.mono hL₁).of_subset (List.drop_subset _ _)
    · exact newTable_sound ((hlocals.mono hL₂).insert _ hrest)

lemma freshCells_sound (locals : Ref .table) (names : List String) :
    L.Sound (freshCells locals names) := by
  induction names generalizing L with
  | nil => exact sound_pure knows_nil
  | cons name rest ih =>
    unfold freshCells
    grind

lemma startCells_sound (F : Function) (locals : Ref .table) : L.Sound (F.startCells locals) := by
  unfold startCells
  exact sound_bind (freshCells_sound locals _) fun _ _ _ _ => sound_pure fun _ _ => trivial

end Function

end StackMachine
