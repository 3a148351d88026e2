import StackMachine.Proofs.Decoding
import StackMachine.Proofs.InstructionStream
/-!
# Walks through any bytes

`walks_stream` starts from instructions and finds them in the stream that they were written to.
This module starts from bytes, which need not come from instructions.  `CodeUnit.Stops` describes
the walk by what each fetch gives, up to the end marker or up to the fetch that fails.  There is
always exactly one, and it has no more steps than there are bytes (`Stops.exists_of_le`,
`Stops.unique`).

The statement about both directions is `stream_round_trip`.  The second one rests on `fetch_bytes`:
the bytes between an offset and the next one are the encoding of what has been fetched, so no byte
lies between two instructions and none belongs to two.
-/

namespace StackMachine

/-- An opcode is read from its own byte only.  There is one case for each line of the table. -/
lemma Opcode.byte_of_ofByte? {byte : UInt8} {op : Opcode} (h : ofByte? byte = some op) :
    op.byte = byte := by
  unfold ofByte? at h
  split at h
  all_goals
    cases h
    try
      next hbyte => exact UInt8.toNat_inj.1 hbyte.symm

/-- The two bytes of an argument are the ones that it was read from. -/
lemma Opcode.encode_bytes {op : Opcode} {byte low high : UInt8} (hop : op.byte = byte)
    (harg : op.hasArgument = true) :
    op.encode (low.toNat + 256 * high.toNat) = [byte, low, high] := by
  have hlow : low.toNat < 256 := low.toNat_lt
  have hmod : (low.toNat + 256 * high.toNat) % 256 = low.toNat := by omega
  have hdiv : (low.toNat + 256 * high.toNat) / 256 = high.toNat := by omega
  rw [Opcode.encode, if_pos harg, hop, hmod, hdiv, UInt8.ofNat_toNat, UInt8.ofNat_toNat]

namespace CodeUnit

variable {unit : CodeUnit} {offset : Nat} {w : Walk} {ending : Option FatalError}

/-! ## One fetch -/

lemma drop_of_getElem? {byte : UInt8} (h : unit.code[offset]? = some byte) :
    unit.code.toList.drop offset = byte :: unit.code.toList.drop (offset + 1) := by
  obtain ⟨hlt, hbyte⟩ := Array.getElem?_eq_some_iff.1 h
  rw [List.drop_eq_getElem_cons (by rwa [Array.length_toList]), Array.getElem_toList, hbyte]

lemma fetch_size (unit : CodeUnit) : unit.fetch unit.size = .ok none := by
  unfold fetch
  exact if_pos rfl

/-- Only the end of the stream is met as its end. -/
lemma offset_of_fetch_eq_none (h : unit.fetch offset = .ok none) : offset = unit.size := by
  unfold fetch at h
  split at h
  · next hend => exact hend
  · split at h
    · cases h
    · split at h
      · cases h
      · split at h
        · split at h <;> cases h
        · cases h

/-- What is fetched is encoded in the bytes up to the next offset. -/
lemma fetch_bytes {f : Fetched} (h : unit.fetch offset = .ok (some f)) :
    unit.code.toList.drop offset = f.op.encode f.raw ++ unit.code.toList.drop f.next := by
  unfold fetch at h
  split at h
  · cases h
  · split at h
    · cases h
    · next byte hbyte =>
      split at h
      · cases h
      · next op hop =>
        have hopByte := Opcode.byte_of_ofByte? hop
        split at h
        · next harg =>
          split at h
          · next low high hlow hhigh =>
            cases h
            show _ = op.encode (low.toNat + 256 * high.toNat) ++ _
            rw [Opcode.encode_bytes hopByte harg, drop_of_getElem? hbyte, drop_of_getElem? hlow,
              drop_of_getElem? hhigh]
            rfl
          · cases h
        · next harg =>
          cases h
          show _ = op.encode 0 ++ _
          rw [Opcode.encode, if_neg harg, hopByte, drop_of_getElem? hbyte]
          rfl

/-! ## Walks with their endings -/

/-- The walk from an offset on, with the way it ends: at the end marker if there is no error, and
otherwise with the error of the fetch that does not succeed. -/
inductive Stops (unit : CodeUnit) : Nat → Walk → Option FatalError → Prop
  | atEnd {offset : Nat} (h : unit.fetch offset = .ok none) : Stops unit offset [] none
  | refused {offset : Nat} {e : FatalError} (h : unit.fetch offset = .error e) :
    Stops unit offset [] (some e)
  | step {offset : Nat} {f : Fetched} {rest : Walk} {ending : Option FatalError}
    (h : unit.fetch offset = .ok (some f)) (hrest : Stops unit f.next rest ending) :
    Stops unit offset ((offset, f) :: rest) ending

/-- A walk up to the end of the stream ends at the end marker. -/
lemma Walks.stops (h : unit.Walks offset w) : unit.Stops offset w none := by
  induction h with
  | done =>
    apply Stops.atEnd
    exact fetch_size unit
  | step h _ ih => exact .step h ih

namespace Stops

/-- The walk goes on until it stops.  The induction is on the bytes that are left: an instruction
takes at least one of them, and leaves the offset within the stream. -/
lemma exists_of_le : ∀ (left offset : Nat), offset + left = unit.size →
    ∃ w ending, unit.Stops offset w ending ∧ w.length ≤ left := by
  intro left
  induction left using Nat.strongRecOn with
  | _ left ih =>
    intro offset hleft
    cases h : unit.fetch offset with
    | error e => exact ⟨[], some e, .refused h, Nat.zero_le left⟩
    | ok fetched? =>
      cases fetched? with
      | none => exact ⟨[], none, .atEnd h, Nat.zero_le left⟩
      | some f =>
        have hlt : offset < f.next := lt_next h
        have hle : f.next ≤ unit.size := fetch_next_le h
        obtain ⟨rest, ending, hrest, hlen⟩ :=
          ih (unit.size - f.next) (by omega) f.next (by omega)
        refine ⟨(offset, f) :: rest, ending, .step h hrest, ?_⟩
        rw [List.length_cons]
        omega

/-- Each fetch has one result, and so has the walk. -/
lemma unique {w' : Walk} {ending' : Option FatalError} (h : unit.Stops offset w ending)
    (h' : unit.Stops offset w' ending') : w' = w ∧ ending' = ending := by
  induction h generalizing w' with
  | atEnd h =>
    cases h' with
    | atEnd => exact ⟨rfl, rfl⟩
    | refused h' => exact absurd (h.symm.trans h') (by simp)
    | step h' => exact absurd (h.symm.trans h') (by simp)
  | refused h =>
    cases h' with
    | atEnd h' => exact absurd (h.symm.trans h') (by simp)
    | refused h' =>
      cases h.symm.trans h'
      exact ⟨rfl, rfl⟩
    | step h' => exact absurd (h.symm.trans h') (by simp)
  | step h _ ih =>
    cases h' with
    | atEnd h' => exact absurd (h.symm.trans h') (by simp)
    | refused h' => exact absurd (h.symm.trans h') (by simp)
    | step h' hrest' =>
      cases h.symm.trans h'
      obtain ⟨rfl, rfl⟩ := ih hrest'
      exact ⟨rfl, rfl⟩

/-- What `walkFrom` gives for a walk: the instructions, or the error that ends them. -/
lemma walkFrom_eq {fuel : Nat} (h : unit.Stops offset w ending) (hfuel : w.length < fuel) :
    unit.walkFrom offset fuel = ending.elim (.ok w) .error := by
  induction h generalizing fuel with
  | atEnd h =>
    obtain ⟨fuel, rfl⟩ := Nat.exists_eq_add_one_of_ne_zero (Nat.ne_zero_of_lt hfuel)
    simp only [walkFrom, h, Option.elim]
  | refused h =>
    obtain ⟨fuel, rfl⟩ := Nat.exists_eq_add_one_of_ne_zero (Nat.ne_zero_of_lt hfuel)
    simp only [walkFrom, h, Option.elim]
  | @step offset f rest ending h hrest ih =>
    obtain ⟨fuel, rfl⟩ := Nat.exists_eq_add_one_of_ne_zero (Nat.ne_zero_of_lt hfuel)
    have hrest' := ih (Nat.lt_of_succ_lt_succ hfuel)
    simp only [walkFrom, h, hrest']
    cases ending <;> rfl

/-- The bytes that the walk comes through are the encodings of what it meets.  It stops within the
stream, where a fetch gives its ending. -/
lemma exists_drop (h : unit.Stops offset w ending) (hle : offset ≤ unit.size) :
    ∃ stop ≤ unit.size, unit.code.toList.drop offset =
        w.flatMap (fun met => met.2.op.encode met.2.raw) ++ unit.code.toList.drop stop ∧
      unit.fetch stop = ending.elim (.ok none) .error := by
  induction h with
  | @atEnd offset h => exact ⟨offset, hle, rfl, h⟩
  | @refused offset e h => exact ⟨offset, hle, rfl, h⟩
  | step h _ ih =>
    obtain ⟨stop, hstop, hdrop, hending⟩ := ih (fetch_next_le h)
    refine ⟨stop, hstop, ?_, hending⟩
    rw [fetch_bytes h, hdrop, List.flatMap_cons, List.append_assoc]

end Stops

end CodeUnit

/-- **Streams of instructions and bytes.**  A row of instructions is found again in its bytes: the
walk meets its opcodes with their arguments, each at the sum of the widths of those before it, and
then the end marker.

Conversely, whatever the bytes are, exactly one walk starts at offset zero, and it meets at most as
many instructions as there are bytes.  If it stops at the end marker, the encodings of what it has
met are the bytes.  Otherwise they are the bytes before the offset at which there is no instruction,
and the error says why: the byte there is no opcode, or the code is malformed. -/
theorem stream_round_trip (unit : CodeUnit) :
    (∀ is, let written : CodeUnit := { unit with code := (RawInstruction.stream is).toArray }
      written.Stops 0 (RawInstruction.places 0 is) none ∧
      written.walk = .ok (RawInstruction.places 0 is)) ∧
    ∃ w ending, unit.Stops 0 w ending ∧
      (∀ w' ending', unit.Stops 0 w' ending' → w' = w ∧ ending' = ending) ∧
      w.length ≤ unit.size ∧
      unit.walk = ending.elim (.ok w) .error ∧
      match ending with
      | none => w.flatMap (fun met => met.2.op.encode met.2.raw) = unit.code.toList
      | some e => ∃ stop < unit.size,
        w.flatMap (fun met => met.2.op.encode met.2.raw) = unit.code.toList.take stop ∧
        ((∃ byte, e = .unsupportedOpcode stop byte) ∨ ∃ d, e = .malformedCode stop d) := by
  constructor
  · intro is written
    have hbytes : written.code.toList = [] ++ RawInstruction.stream is := rfl
    have hwalks : written.Walks 0 (RawInstruction.places 0 is) := CodeUnit.walks_stream hbytes
    exact ⟨hwalks.stops, hwalks.walk⟩
  · obtain ⟨w, ending, hstops, hlen⟩ :=
      @CodeUnit.Stops.exists_of_le unit unit.size 0 (Nat.zero_add _)
    have hwalk := hstops.walkFrom_eq (Nat.lt_succ_of_le hlen)
    obtain ⟨stop, hle, hdrop, hending⟩ := hstops.exists_drop (Nat.zero_le _)
    have htake : w.flatMap (fun met => met.2.op.encode met.2.raw) =
        unit.code.toList.take stop := by
      have hsplit := List.take_append_drop stop unit.code.toList
      rw [List.drop_zero] at hdrop
      exact List.append_cancel_right (hdrop.symm.trans hsplit.symm)
    refine ⟨w, ending, hstops, fun w' ending' h' => hstops.unique h', hlen, hwalk, ?_⟩
    cases ending with
    | none =>
      have hend : stop = unit.size := CodeUnit.offset_of_fetch_eq_none hending
      show _ = unit.code.toList
      rw [htake, hend]
      apply List.take_of_length_le
      exact Nat.le_of_eq Array.length_toList
    | some e =>
      have hne : stop ≠ unit.size := by
        rintro rfl
        rw [CodeUnit.fetch_size] at hending
        cases hending
      refine ⟨stop, Nat.lt_of_le_of_ne hle hne, htake, ?_⟩
      cases CodeUnit.fetch_undecodable hending with
      | opcode byte => exact .inl ⟨byte, rfl⟩
      | defect => exact .inr ⟨_, rfl⟩
      | pastEnd => exact .inr ⟨_, rfl⟩

/-- A walk that is stopped by the jump at its end, whose argument is incomplete. -/
example :
    let unit : CodeUnit :=
      { (.named "truncated" : CodeUnit) with code := #[0x50, 1, 0, 0x01, 0x70, 5] }
    unit.walk = .error (.malformedCode 4 (.truncatedArgument .jumpForward)) := rfl

end StackMachine
