import StackMachine.Proofs.Moves
/-!
# Places in the code

Code units need not be well formed: their bytes are decoded as they are met, and nothing has checked
them before.  All the same a frame never gets beyond the end of its code.  The place of an
instruction is written by jumps, by blocks that absorb a signal, by loops that are continued and by
plain execution; each of these has a bound in what was decoded, but for a loop that is continued at
the end of a finally body, where the place is a value on the operand stack and looked at by the
machine itself.

The invariant is `Frame.InCode`: the frame is in its code or at the end of it, and so are the
handlers of its blocks.  It is about all frames, since a fault takes up a frame that has been
waiting.  Every move keeps it (`Move.inCode`), hence every step does, and the decoder is never asked
for an instruction past the end (`step_insideCode`).
-/

namespace StackMachine

/-- The frame is in its code or at the end of it, and so are the handlers of its blocks. -/
structure Frame.InCode (f : Frame) : Prop where
  ip : f.ip ≤ f.code.unit.size
  handlers : ∀ b ∈ f.blocks, b.handler ≤ f.code.unit.size

/-- All frames are in their code. -/
def Machine.InCode (m : Machine) : Prop := ∀ f ∈ m.frames, f.InCode

lemma Frame.InCode.place {f : Frame} (hf : f.InCode) {place : Nat} (h : f.Place place) :
    place ≤ f.code.unit.size := by
  obtain h | ⟨b, hb, rfl⟩ := h
  · exact h
  · exact hf.handlers b hb

/-- What an activation does by effects that go to places of the frame `f`, as which it started. -/
lemma Activation.Acts.inCode {f : Frame} {a b : Activation} (hf : f.InCode)
    (h : a.Acts f.Place b) (ha : a.frame.code = f.code ∧ a.frame.InCode) :
    b.frame.code = f.code ∧ b.frame.InCode := by
  induction h with
  | refl => exact ha
  | tail _ heffect ih =>
    obtain ⟨hcode, hin⟩ := ih
    cases heffect with
    | jump h | fetch h => exact ⟨hcode, hcode ▸ hf.place h, hin.handlers⟩
    | blocks h =>
      refine ⟨hcode, hin.ip, fun b hb => ?_⟩
      obtain hb | hb := h b hb
      · exact hin.handlers b hb
      · exact hcode ▸ hf.place hb
    | stack | lastFault | output | heap | bind | bindAttribute | makeFunction =>
      exact ⟨hcode, hin.ip, hin.handlers⟩

namespace Machine

variable {m m' : Machine} {rest : Array Frame} {f : Frame}

lemma inCode_push (h : m.frames = rest.push f) :
    m.InCode ↔ (∀ g ∈ rest, g.InCode) ∧ f.InCode := by
  simp only [InCode, h, Array.mem_push]
  grind

lemma inCode_of_start {g : Frame} (hip : g.ip = 0) (hblocks : g.blocks = []) : g.InCode :=
  ⟨hip ▸ Nat.zero_le _, by simp [hblocks]⟩

/-- **Every move** leaves all frames in their code. -/
lemma Move.inCode (h : m.Move m') (hm : m.InCode) : m'.InCode := by
  cases h with
  | counts | notes | widens => exact hm
  | works hframes hacts =>
    obtain ⟨hrest, hf⟩ := (inCode_push hframes).1 hm
    exact (inCode_push rfl).2 ⟨hrest, (hacts.inCode hf ⟨rfl, hf⟩).2⟩
  | enters h =>
    obtain ⟨F, locals, cells, _, -, -, -, rfl⟩ := callFrame_ok h
    exact (inCode_push rfl).2 ⟨hm, inCode_of_start rfl rfl⟩
  | leaves hframes => exact ((inCode_push hframes).1 hm).1
  | receives caller v =>
    intro g hg
    obtain ⟨i, hi, rfl⟩ := Array.mem_iff_getElem.1 hg
    rw [Array.getElem_modify]
    have hold := hm _ (Array.getElem_mem (by simpa using hi))
    split
    · exact ⟨hold.ip, hold.handlers⟩
    · exact hold
  | abandons => exact fun g hg => by simp at hg

lemma Moves.inCode (h : m.Moves m') (hm : m.InCode) : m'.InCode :=
  h.keeps (fun _ _ hmove hin => hmove.inCode hin) hm

end Machine

/-! ## The end of the code -/

namespace CodeUnit

variable {unit : CodeUnit} {offset : Nat} {e : FatalError}

/-- Only from beyond its end does code look as if it had ended before. -/
lemma decode_insideCode (hoffset : offset ≤ unit.size) (h : unit.decode offset = .error e) :
    (Failure.fatal e).InsideCode := by
  cases decode_undecodable h with
  | opcode byte => trivial
  | defect hd => exact hd.1
  | pastEnd hpast => exact absurd hoffset (Nat.not_le.2 hpast)

end CodeUnit

/-- A run that is over has not failed for an offset past the end of the code. -/
def Progress.InsideCode : Progress → Prop
  | .running _ => True
  | .finished _ (.ok _) => True
  | .finished _ (.error e) => e.InsideCode

namespace Machine

variable {m m' : Machine} {rest : Array Frame} {f : Frame}

lemma exceeded_insideCode {l : Limits} {steps height : Nat} {e : FatalError}
    (h : exceeded l steps height = some e) : (Failure.fatal e).InsideCode := by
  have hlimit := exceeded_isLimit h
  cases e with
  | malformedCode => cases hlimit
  | _ => trivial

/-- **One step** of a machine whose frames are in their code does not meet the end of it. -/
lemma step_insideCode (hm : m.InCode) : m.step.InsideCode := by
  cases hstep : m.step with
  | running m' => trivial
  | finished m' r =>
    rcases r with ⟨F | e⟩ | v
    · trivial
    · cases step_aborts hstep with
      | limit h => exact exceeded_insideCode h
      | frameless | underflow => trivial
      | undecodable hframes hcode =>
        exact CodeUnit.decode_insideCode ((inCode_push hframes).1 hm).2.ip hcode
      | fails h => exact (executed?_moves h).2
      | stray => rfl
    · trivial

/-- A request begins at the start of its code. -/
lemma serve_inCode (h : m.frames = #[]) (q : Request) :
    (m.serve q).machine.InCode ∧ (m.serve q).InsideCode := by
  have hempty := readied_frames h q
  obtain ⟨heap, output, r, hserve, -, hr⟩ | ⟨heap, f, hserve, hbegins, -⟩ := m.serve_begins q
  · rw [hserve]
    refine ⟨fun g hg => ?_, ?_⟩
    · have hg' : g ∈ (m.readied q).frames := hg
      simp [hempty] at hg'
    · rcases r with ⟨F | e⟩ | v
      · trivial
      · obtain ⟨unit, rfl⟩ := hr e rfl
        rfl
      · trivial
  · obtain ⟨_, _, _, _, rfl⟩ := hbegins.eq_start
    rw [hserve]
    refine ⟨(inCode_push rfl).2 ⟨?_, inCode_of_start rfl rfl⟩, trivial⟩
    simp [hempty]

end Machine

/-! ## Sessions -/

lemma Reached.inCode {p : Progress} (h : Reached p) : p.machine.InCode ∧ p.InsideCode := by
  induction h with
  | new limits output => exact ⟨fun g hg => by simp [Progress.machine, Machine.new] at hg, trivial⟩
  | @request m r h heap output q ih =>
    exact Machine.serve_inCode (m := { m with heap := heap, output := output }) h.orderly.1 q
  | @step m h ih => exact ⟨m.step_moves.inCode ih.1, Machine.step_insideCode ih.1⟩

/-- **No frame leaves its code.**  Whatever code has been run, well formed or not, and whatever has
been asked of the machine so far: before every step, and in the middle of it as well, each frame is
in its code or at the end of it, and so are the handlers of all its blocks; a loop is only ever
continued at such a place of the frame that continues it.  Therefore no request is ever answered
with the error that an offset is past the end of the code. -/
theorem code_never_left {p : Progress} : Reached p → match p with
    | .running m => (∀ f ∈ m.frames, f.InCode) ∧
        (∀ m', m.PassesThrough m' → ∀ f ∈ m'.frames, f.InCode) ∧
        ∀ m' target, m.Offers m' (.continuing target) →
          ∃ (rest : Array Frame) (f : Frame), m'.frames = rest.push f ∧ target ≤ f.code.unit.size
    | .finished _ r =>
        ∀ offset size, r ≠ .error (.fatal (.malformedCode offset (.pastEnd size))) := by
  intro h
  obtain ⟨hin, hinside⟩ := h.inCode
  cases p with
  | running m =>
    exact ⟨hin, fun m' hpasses => hpasses.moves.inCode hin, fun m' target hoffers =>
      hoffers.continuing⟩
  | finished m r =>
    rintro offset size rfl
    have hpast : true = false := hinside
    cases hpast

/-- A function without instructions has been called in an except block: its frame is at the end of
its code, and that of the caller, which is at the end of its own, has the handler there. -/
theorem code_never_left_in_callee :
    (callingSession #[] 4).machine.frames.toList.map
        (fun f => (f.ip, f.blocks.map (·.handler), f.code.unit.size)) =
      [(12, [12], 12), (0, [], 0)] ∧
    match callingSession #[] 4 with
    | .running m => (∀ f ∈ m.frames, f.InCode) ∧
        (∀ m', m.PassesThrough m' → ∀ f ∈ m'.frames, f.InCode) ∧
        ∀ m' target, m.Offers m' (.continuing target) →
          ∃ (rest : Array Frame) (f : Frame), m'.frames = rest.push f ∧ target ≤ f.code.unit.size
    | .finished _ r => ∀ offset size, r ≠ .error (.fatal (.malformedCode offset (.pastEnd size))) :=
  ⟨by decide +kernel, code_never_left (reached_callingSession #[] 4)⟩

end StackMachine
