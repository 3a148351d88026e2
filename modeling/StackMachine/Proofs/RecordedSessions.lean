import StackMachine.Proofs.LedgerSteps
import StackMachine.Proofs.NestedValues
/-!
# Sessions on record

Which sets of values are coherent (`Value.Coherent`), and which are plain (`Value.Plain`), is in
part a matter of the values themselves: whether there are floats among them, and how deep they are
nested.  The rest holds of whatever a machine has, provided that its host makes nothing up: the
tuples and code objects that it hands in it has got from the machine, or has made with the same
programs.  What such a session can come to is on record (`OnRecord`): some ledger knows all of it
(`OnRecord.leads`), so that copies with the same number are copies of the same thing.
-/

namespace StackMachine

open Ledger

/-- A ledger without tuples. -/
def Ledger.blank (units : Nat → CodeUnit) : Ledger := ⟨units, fun _ => none⟩

lemma Ledger.knows_builtinTable {L : Ledger} : L.Knows Heap.builtinTable := by
  refine knows_ofList fun b hb => ?_
  rcases List.mem_append.1 hb with hb | hb <;> obtain ⟨_, -, rfl⟩ := List.mem_map.1 hb <;> trivial

/-- A session has come to this whose programs start with the given units.  Between two requests the
host runs a program on the heap, by which it comes to the next request.  The program works with
what the machine has and with the result of the last request, and enters the tuples that it
makes. -/
inductive OnRecord (units : Nat → CodeUnit) : Progress → Prop
  | new (limits : Limits) (output : Output) :
    OnRecord units (.finished (.new limits output) (.ok .none))
  | request {m : Machine} {r : RunResult} (h : OnRecord units (.finished m r)) {x : HeapM Request}
    (hx : ∀ L : Ledger, L.units = units → L.Knows m → L.Knows r → L.Sound x) {q : Request}
    {heap : Heap} (hrun : x m.heap = .ok q heap) (output : Output) :
    OnRecord units (({ m with heap := heap, output := output } : Machine).serve q)
  | step {m : Machine} (h : OnRecord units (.running m)) : OnRecord units m.step

namespace OnRecord

variable {units : Nat → CodeUnit} {p : Progress} {m : Machine} {r : RunResult}

/-- Some ledger knows all that the machine has. -/
theorem leads (h : OnRecord units p) : (Ledger.blank units).Leads p := by
  induction h with
  | new limits output =>
    have hheap : (Ledger.blank units).Knows (Machine.new limits output).heap :=
      ⟨knows_emptyArray, knows_emptyArray, knows_emptyArray, knows_emptyArray,
        knows_push.2 ⟨knows_emptyArray, knows_builtinTable⟩, knows_emptyArray⟩
    exact Machine.leads_finished ⟨⟨knows_emptyArray, hheap, knows_none.2 trivial⟩, fun _ _ => rfl⟩
      (knows_ok.2 trivial)
  | @request m r h x hx q heap hrun output ih =>
    obtain ⟨L, hL, hm, hr⟩ := ih
    have hreaches := hx L hL.units hm.knows (hr m r rfl) L (le_refl L) m.heap
      ⟨hm.knows.heap, hm.unused⟩
    rw [hrun] at hreaches
    obtain ⟨L', hL', hheap, hq⟩ := hreaches
    have hm' := Machine.tracks_output (Machine.tracks_heap hm.knows hL' hheap) output
    exact Machine.leads_of_le (le_trans hL hL') (Machine.serve_leads hm' hq)
  | step h ih =>
    obtain ⟨L, hL, hm, -⟩ := ih
    exact Machine.leads_of_le hL (Machine.step_leads hm)

/-- Such a session is one of those that a machine can have. -/
theorem reached (h : OnRecord units p) : Reached p := by
  induction h with
  | new limits output => exact .new limits output
  | @request _ _ _ _ _ q heap _ output ih => exact ih.request heap output q
  | step _ ih => exact ih.step

/-! ## Hosts -/

/-- A host may ask with values that it has from the machine. -/
lemma serve (h : OnRecord units (.finished m r)) {q : Request}
    (hq : ∀ L : Ledger, L.units = units → L.Knows m → L.Knows r → L.Knows q) :
    OnRecord units (m.serve q) :=
  h.request (x := pure q) (fun L hL hm hr => sound_pure (hq L hL hm hr)) rfl m.output

/-- A host may start one of the units. -/
lemma run (h : OnRecord units (.finished m r)) (origin : Nat)
    (globals? locals? : Option (Ref .table)) :
    OnRecord units (m.serve (.run ⟨origin, [], units origin⟩ globals? locals?)) := by
  refine h.serve fun L hL _ _ => ?_
  change (L.units origin).constant? [] = _
  rw [hL]
  rfl

lemma advance (h : OnRecord units p) (fuel : Nat) : OnRecord units (Machine.advance fuel p) := by
  induction fuel generalizing p with
  | zero => exact h
  | succ fuel ih =>
    cases p with
    | finished m r => exact h
    | running m => exact ih h.step

/-- A run of one unit on a new machine. -/
example (limits : Limits) (output : Output) (unit : CodeUnit) (fuel : Nat) :
    OnRecord (fun _ => unit)
      (Machine.advance fuel ((Machine.new limits output).serve (.run ⟨0, [], unit⟩ none none))) :=
  ((OnRecord.new limits output).run 0 none none).advance fuel

end OnRecord

/-! ## The values of a machine -/

/-- The values that a machine has, and those that it has ended with. -/
inductive Progress.Holds (p : Progress) : Value → Prop
  | operand {f : Frame} {v : Value} (hf : f ∈ p.machine.frames) (hv : v ∈ f.stack) : p.Holds v
  | lastFault {F : Fault} (hF : p.machine.lastFault = some F) : p.Holds F.value
  | result {m : Machine} {v : Value} (hp : p = .finished m (.ok v)) : p.Holds v
  | fault {m : Machine} {F : Fault} (hp : p = .finished m (.error (.fault F))) : p.Holds F.value
  | item {r : Ref .list} {v : Value} (hv : v ∈ p.machine.heap.list r) : p.Holds v
  | entry {r : Ref .map} {v : Value} (hv : v ∈ (p.machine.heap.map r).values) : p.Holds v
  /-- It is still to be given by a cursor. -/
  | waiting {r : Ref .cursor} {rest : List Value} {v : Value}
    (hc : p.machine.heap.cursor r = .items rest) (hv : v ∈ rest) : p.Holds v
  | cell {r : Ref .cell} {v : Value} (hv : p.machine.heap.cell? r = some v) : p.Holds v
  | name {r : Ref .table} {name : String} {v : Value}
    (hv : p.machine.heap.lookup? r name = some v) : p.Holds v
  | default {r : Ref .function} {F : Function} {v : Value}
    (hF : p.machine.heap.function? r = some F) (hv : v ∈ F.defaults) : p.Holds v
  | tupleItem {i : Nat} {items : List Value} {v : Value} (h : p.Holds (.tuple i items))
    (hv : v ∈ items) : p.Holds v
  | receiver {i : Nat} {v : Value} {method : Method} (h : p.Holds (.method i v method)) : p.Holds v
  | argument {i : Nat} {kind : ExceptionKind} {v : Value} (h : p.Holds (.exception i kind v)) :
    p.Holds v

namespace Progress.Holds

variable {p : Progress} {v c : Value}

/-- With a container the machine has its contents. -/
lemma contents (hv : p.Holds v) (hc : c ∈ v.contents p.machine.heap) : p.Holds c := by
  unfold Value.contents at hc
  split at hc
  · exact .tupleItem hv hc
  · exact .item (Array.mem_toList_iff.1 hc)
  · exact .entry hc
  · cases hc

lemma recorded {L : Ledger} (hm : L.Knows p.machine) (hr : ∀ m r, p = .finished m r → L.Knows r)
    (hv : p.Holds v) : L.Records v := by
  induction hv with
  | operand hf hv => exact (hm.frames _ hf).1 _ hv
  | lastFault hF => exact hm.lastFault _ hF
  | result hp => exact knows_ok.1 (hr _ _ hp)
  | fault hp => exact knows_error.1 (hr _ _ hp) _ rfl
  | item hv => exact hm.heap.list _ _ hv
  | entry hv => exact (hm.heap.map _).values _ hv
  | waiting hc hv => exact hm.heap.cursor _ _ hc _ hv
  | cell hv => exact hm.heap.cell? _ _ hv
  | name hv => exact hm.heap.lookup? _ _ _ hv
  | default hF hv => exact (hm.heap.function? _ _ hF).2 _ hv
  | tupleItem _ hv ih => exact recordsAll_iff.1 ih.2 _ hv
  | receiver _ ih => exact ih
  | argument _ ih => exact ih

end Progress.Holds

/-! ## Coherence -/

namespace OnRecord

variable {units : Nat → CodeUnit} {p : Progress} {S : Set Value}

lemma exists_records (h : OnRecord units p) :
    ∃ L : Ledger, ∀ v, p.Holds v → L.Records v := by
  obtain ⟨L, -, hm, hr⟩ := h.leads
  exact ⟨L, fun v hv => hv.recorded hm.knows hr⟩

/-- **Values of a machine are coherent**, if with a container its contents are among them and
numbers are. -/
theorem coherent (h : OnRecord units p) (hS : ∀ v ∈ S, p.Holds v)
    (hclosed : ∀ v ∈ S, ∀ c ∈ v.contents p.machine.heap, c ∈ S)
    (hnumbers : ∀ x, .float x ∈ S → x.isNaN = false) : Value.Coherent p.machine.heap S := by
  obtain ⟨L, hL⟩ := h.exists_records
  exact ⟨hclosed, fun i as bs ha hb => (hL _ (hS _ ha)).items_eq (hL _ (hS _ hb)), hnumbers⟩

/-- All values that a machine has are coherent, if no NaN is among them. -/
theorem all_coherent (h : OnRecord units p)
    (hnumbers : ∀ x, p.Holds (.float x) → x.isNaN = false) :
    Value.Coherent p.machine.heap {v | p.Holds v} :=
  h.coherent (fun _ hv => hv) (fun _ hv _ hc => hv.contents hc) hnumbers

/-- **Values of a machine are plain**, if with a container its contents are among them, and there
are no floats and no deeply nested values. -/
theorem plain (h : OnRecord units p) (hS : ∀ v ∈ S, p.Holds v)
    (hclosed : ∀ v ∈ S, ∀ c ∈ v.contents p.machine.heap, c ∈ S) (hfloats : ∀ x, .float x ∉ S)
    (hnested : ∀ v ∈ S, Value.NestedWithin p.machine.heap nestingLimit v) :
    Value.Plain p.machine.heap S := by
  obtain ⟨L, hL⟩ := h.exists_records
  exact ⟨hclosed, hfloats, hnested,
    fun i as bs ha hb => (hL _ (hS _ ha)).items_eq (hL _ (hS _ hb)),
    fun o q ho hq => (hL _ (hS _ ho)).eq_of_same (hL _ (hS _ hq))⟩

end OnRecord

end StackMachine
