import StackMachine.Proofs.Effects
import StackMachine.Proofs.Shared
/-!
# What a step may do

A step is a row of small moves of the machine (`Machine.Move`): it is counted, the innermost frame
works (`Activation.Acts`) or leaves, a value is handed to a frame, a callee is entered, a fault is
noted as the last one, or all frames are abandoned.  What every move keeps is therefore kept by
every step (`step_moves`), and it holds in the middle of a step as well (`PassesThrough.moves`).

Where a frame may go on is the one thing to watch: it is told by what the instruction names and by
the blocks of the frame (`Frame.Place`), and a loop that is continued tells it by the signal, which
is why `deliver_moves` asks about the target.
-/

namespace StackMachine

/-- The places that a frame may go to: those in its code and at its end, and the handlers of its
blocks. -/
def Frame.Place (f : Frame) (place : Nat) : Prop :=
  place ≤ f.code.unit.size ∨ ∃ b ∈ f.blocks, b.handler = place

/-! ## Moves -/

namespace Machine

/-- One move of a machine. -/
inductive Move (m : Machine) : Machine → Prop
  | counts (steps : Nat) : Move m { m with steps := steps }
  | notes (fault : Option Fault) : Move m { m with lastFault := fault }
  | widens {heap : Heap} (h : m.heap.Widens heap) : Move m { m with heap := heap }
  | works {rest : Array Frame} {f : Frame} {a : Activation} (hframes : m.frames = rest.push f)
    (h : (m.activation f).Acts f.Place a) : Move m (m.resume (rest.push a.frame) a)
  | enters {callee : Ref .function} {positional : List Value} {keywords : List (String × Value)}
    {caller? : Option Nat} {g : Frame} {heap : Heap}
    (h : callFrame m.builtins callee positional keywords caller? m.heap = .ok g heap) :
    Move m { m with heap := heap, frames := m.frames.push g }
  | leaves {rest : Array Frame} {f : Frame} (hframes : m.frames = rest.push f) :
    Move m { m with frames := rest }
  | receives (caller : Nat) (v : Value) :
    Move m { m with
      frames := m.frames.modify caller fun f => { f with stack := f.stack.push v } }
  | abandons : Move m { m with frames := #[] }

/-- Any number of moves. -/
def Moves : Machine → Machine → Prop := Relation.ReflTransGen Move

variable {m m' : Machine} {rest : Array Frame} {f : Frame}

lemma Moves.refl (m : Machine) : m.Moves m := Relation.ReflTransGen.refl

lemma Moves.trans {m₁ m₂ : Machine} (h : m.Moves m₁) (h' : m₁.Moves m₂) : m.Moves m₂ :=
  Relation.ReflTransGen.trans h h'

lemma Move.moves (h : m.Move m') : m.Moves m' := .single h

/-- What every move keeps, any number of moves keeps. -/
lemma Moves.keeps {P : Machine → Prop} (hP : ∀ m m', Move m m' → P m → P m') (h : m.Moves m')
    (hm : P m) : P m' := by
  induction h with
  | refl => exact hm
  | tail _ hmove ih => exact hP _ _ hmove ih

/-! ## Values, signals and calls -/

lemma handBack_moves (m : Machine) (f : Frame) (v : Value) : m.Moves (m.handBack f v).machine := by
  unfold handBack
  cases f.caller? with
  | none => exact .refl m
  | some caller =>
    dsimp only
    split
    · exact (Move.receives caller v).moves
    · exact Move.abandons.moves

/-- What unwinding does, however it ends. -/
lemma unwind_acts (m : Machine) (f : Frame) {s : Signal}
    (hs : ∀ target, s = .continuing target → f.Place target) :
    match Exec.unwind s (m.activation f) with
    | .ok _ a => (m.activation f).Acts f.Place a
    | .error e a => (m.activation f).Acts f.Place a ∧ e.InsideCode := by
  have hacting : Exec.Acting f.Place (fun _ => False) (Exec.unwindThrough s f.blocks) :=
    Exec.unwindThrough_acting (.inl (Nat.zero_le _)) hs fun b hb => .inr ⟨b, hb, rfl⟩
  have hacts := hacting (m.activation f)
  have hblocks : Exec.unwind s (m.activation f) =
      Exec.unwindThrough s f.blocks (m.activation f) := rfl
  rw [hblocks]
  cases hrun : Exec.unwindThrough s f.blocks (m.activation f) with
  | ok _ a =>
    rw [hrun] at hacts
    exact hacts
  | error e a =>
    rw [hrun] at hacts
    exact ⟨hacts.1, hacts.2.insideCode⟩

/-- The induction is on the number of frames that a fault leaves. -/
lemma deliver_moves (m : Machine) {s : Signal} (depth : Nat)
    (hs : ∀ target, s = .continuing target → ∀ (rest : Array Frame) (f : Frame),
      m.frames = rest.push f → f.Place target) :
    m.Moves (m.deliver s depth).machine := by
  induction depth generalizing m s with
  | zero => exact Move.abandons.moves
  | succ depth ih =>
    by_cases hempty : m.frames = #[]
    · rw [deliver_empty hempty]
      exact Move.abandons.moves
    · obtain ⟨rest, f, hm⟩ := Array.exists_push_of_ne_empty hempty
      have hacts := unwind_acts m f fun target ht => hs target ht rest f hm
      rw [deliver_push hm]
      rcases hunwind : Exec.unwind s (m.activation f) with ⟨_ | s', a⟩ | ⟨F | e, a⟩ <;>
        rw [hunwind] at hacts
      · exact (Move.works hm hacts).moves
      · have hleft : m.Moves (m.resume rest a) :=
          (Move.works hm hacts).moves.trans (Move.leaves rfl).moves
        cases s' with
        | returning v => exact hleft.trans (handBack_moves (m.resume rest a) a.frame v)
        | raising F =>
          dsimp only
          cases a.frame.caller? with
          | none => exact hleft
          | some caller =>
            have hnoted : (m.resume rest a).Moves
                { m.resume rest a with lastFault := some (F.leaving a.frame) } :=
              (Move.notes _).moves
            exact hleft.trans (hnoted.trans (ih _ fun target ht => by cases ht))
        | breaking => exact hleft.trans Move.abandons.moves
        | continuing target => exact hleft.trans Move.abandons.moves
      · exact (Move.works hm hacts.1).moves
      · exact (Move.works hm hacts.1).moves.trans Move.abandons.moves

lemma enter_moves (m : Machine) (callee : Ref .function) (positional : List Value)
    (keywords : List (String × Value)) (caller? : Option Nat) :
    match m.enter callee positional keywords caller? with
    | .ok _ m' => m.Moves m'
    | .error _ m' => m.Moves m' := by
  have hwidening := callFrame_widening m.builtins callee positional keywords caller? m.heap
  unfold enter
  dsimp only
  cases h : callFrame m.builtins callee positional keywords caller? m.heap with
  | error cause heap =>
    rw [h] at hwidening
    exact (Move.widens (hwidening.1.trans (heap.newFault_widens cause))).moves
  | ok g heap =>
    rw [h] at hwidening
    by_cases hfull : m.limits.maxDepth ≤ m.frames.size
    · simp only [hfull, if_true]
      exact (Move.widens (hwidening.trans (heap.newFault_widens _))).moves
    · simp only [hfull, if_false]
      exact (Move.enters h).moves

/-! ## The instruction of a step -/

/-- The instruction of a step: how it leaves the machine, where it continues a loop, and that it
never fails for an offset past the end of the code. -/
lemma executed?_moves {r : EStateM.Result Failure Machine Outcome} : m.executed? = some r →
    match r with
    | .ok o m' => m.Moves m' ∧ ∀ target, o = .signal (.continuing target) →
        ∃ (rest : Array Frame) (f : Frame), m'.frames = rest.push f ∧ target ≤ f.code.unit.size
    | .error e m' => m.Moves m' ∧ e.InsideCode := by
  intro h
  obtain ⟨rest, f, hm, hgo⟩ := executed?_some h
  rw [executed?_push hm, hgo] at h
  split at h
  · next i next _ hdecode =>
    cases h
    obtain ⟨hnext, htargets⟩ := CodeUnit.decode_places hdecode
    let counted : Machine := { m with steps := m.steps + 1 }
    let fetched : Frame := { f with lastIp := f.ip, ip := next }
    have hcounted : counted.frames = rest.push f := hm
    have hworks : ∀ {a : Activation}, (counted.activation f).Acts f.Place a →
        m.Moves (counted.resume (rest.push a.frame) a) :=
      fun h => (Move.counts (m.steps + 1)).moves.trans (Move.works hcounted h).moves
    have hfetch : (counted.activation f).Acts f.Place (counted.activation fetched) :=
      .single (.fetch (.inl hnext))
    have hacting : Exec.Acting f.Place (i.slot? = some ·) (Exec.execute i) :=
      Exec.execute_acting (fun target ht => .inl (htargets target ht)) fun s hs => hs
    have hacts := hacting (counted.activation fetched)
    rw [within_apply counted]
    cases hrun : Exec.execute i (counted.activation fetched) with
    | ok o a =>
      rw [hrun] at hacts
      refine ⟨hworks (hfetch.trans hacts), ?_⟩
      rintro target rfl
      have hsame := Exec.execute_confined i (counted.activation fetched)
      rw [hrun] at hsame
      refine ⟨rest, a.frame, rfl, ?_⟩
      obtain ht | ht := Exec.execute_continuing hrun
      · rw [hsame.code]
        exact htargets target ht
      · rw [hsame.code]
        exact ht
    | error e a =>
      rw [hrun] at hacts
      exact ⟨hworks (hfetch.trans hacts.1), hacts.2.insideCode⟩
  · cases h

/-- A signal that continues a loop goes to a place in the code of the innermost frame. -/
lemma Offers.continuing {target : Nat} (h : m.Offers m' (.continuing target)) :
    ∃ (rest : Array Frame) (f : Frame), m'.frames = rest.push f ∧ target ≤ f.code.unit.size := by
  cases h with
  | signalled h => exact (executed?_moves h).2 target rfl

lemma Offers.moves {s : Signal} (h : m.Offers m' s) : m.Moves m' := by
  induction h with
  | signalled h => exact (executed?_moves h).1
  | thrown h => exact (executed?_moves h).1.trans (Move.notes _).moves
  | @refused m₁ m' F callee positional keywords h hr =>
    have hrefused := enter_moves m₁ callee positional keywords (some (m₁.frames.size - 1))
    rw [hr] at hrefused
    exact ((executed?_moves h).1.trans hrefused).trans (Move.notes _).moves
  | @passed m₁ rest f F a caller h hframes hpassed hcaller ih =>
    have hacts := unwind_acts m₁ f (s := .raising F) fun target ht => by cases ht
    rw [hpassed] at hacts
    have hleft : m₁.Moves (m₁.resume rest a) :=
      (Move.works hframes hacts).moves.trans (Move.leaves rfl).moves
    exact ih.trans (hleft.trans (Move.notes _).moves)

lemma PassesThrough.moves (h : m.PassesThrough m') : m.Moves m' := by
  cases h with
  | done h => exact (executed?_moves h).1
  | failed h => exact (executed?_moves h).1
  | offers h => exact h.moves

/-! ## One step -/

lemma Offers.step_moves {s : Signal} (h : m.Offers m' s) : m.Moves m.step.machine := by
  rw [h.step]
  refine h.moves.trans (deliver_moves m' m'.frames.size ?_)
  rintro target rfl rest f hm'
  obtain ⟨rest', f', hframes, htarget⟩ := h.continuing
  obtain ⟨rfl, rfl⟩ := Array.push_eq_push.1 (hm'.symm.trans hframes)
  exact .inl htarget

/-- **One step** is a row of moves. -/
lemma step_moves (m : Machine) : m.Moves m.step.machine := by
  have hcount : m.Moves { m with steps := m.steps + 1 } := (Move.counts _).moves
  cases m.stepEnd with
  | stopped _ hstep | idle _ hstep =>
    rw [hstep]
    exact hcount.trans Move.abandons.moves
  | undecodable _ _ hstep =>
    rw [hstep]
    exact hcount.trans Move.abandons.moves
  | @exhausted rest f hm hstep =>
    have hcounted : ({ m with steps := m.steps + 1 } : Machine).frames = rest.push f := hm
    rw [hstep]
    exact (hcount.trans (Move.leaves hcounted).moves).trans (handBack_moves _ f .none)
  | works h hstep =>
    rw [hstep]
    exact (executed?_moves h).1
  | @enters m₁ m' callee positional keywords h henter hstep =>
    have hentered := enter_moves m₁ callee positional keywords (some (m₁.frames.size - 1))
    rw [henter] at hentered
    rw [hstep]
    exact (executed?_moves h).1.trans hentered
  | fails h hstep =>
    rw [hstep]
    exact (executed?_moves h).1.trans Move.abandons.moves
  | offers h => exact h.step_moves

end Machine

end StackMachine
