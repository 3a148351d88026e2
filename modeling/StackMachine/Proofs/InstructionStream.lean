import Mathlib.Tactic.Lemma
import StackMachine.Code.Instruction
/-!
# Instruction streams

What is fetched from a stream is what was written into it.  An instruction as it is written is an
opcode with an argument of 16 bits (`RawInstruction`), and a stream is a row of them.  `Walks` says
what it means to come from one instruction to the next up to the very end of a stream.  The main
statement is that a stream is walked through by the instructions it was made of, each at the sum of
the widths of those before it (`walks_stream`).
-/

namespace StackMachine

/-- An opcode with the argument that is written behind it.  Without an argument the number is
zero. -/
structure RawInstruction where
  op : Opcode
  raw : Nat
  raw_lt : raw < 65536
  raw_eq_zero : op.hasArgument = false → raw = 0

namespace RawInstruction

def bytes (i : RawInstruction) : List UInt8 := i.op.encode i.raw

/-- What is fetched where the instruction stands. -/
def fetched (i : RawInstruction) (offset : Nat) : Fetched := ⟨i.op, i.raw, offset + i.op.width⟩

/-- The bytes of a row of instructions. -/
def stream (is : List RawInstruction) : List UInt8 := is.flatMap bytes

/-- A row of instructions with the places at which they stand, the first one at `offset`. -/
def places (offset : Nat) : List RawInstruction → CodeUnit.Walk
  | [] => []
  | i :: is => (offset, i.fetched offset) :: places (offset + i.op.width) is

lemma length_bytes (i : RawInstruction) : i.bytes.length = i.op.width := by
  unfold bytes Opcode.encode Opcode.width
  split <;> rfl

end RawInstruction

lemma Opcode.width_pos (op : Opcode) : 0 < op.width := by
  unfold width
  split <;> omega

namespace CodeUnit

variable {unit : CodeUnit}

/-- The instructions from an offset on, each where the one before it ends, up to the end of the
stream. -/
inductive Walks (unit : CodeUnit) : Nat → Walk → Prop
  | done : Walks unit unit.size []
  | step {offset : Nat} {f : Fetched} {rest : Walk} (h : unit.fetch offset = .ok (some f))
    (hrest : Walks unit f.next rest) : Walks unit offset ((offset, f) :: rest)

/-! ## Fetching what was written -/

/-- The bytes of an instruction are fetched as that instruction, whatever stands before and behind
it. -/
lemma fetch_of_append {i : RawInstruction} {before behind : List UInt8}
    (h : unit.code.toList = before ++ (i.bytes ++ behind)) :
    unit.fetch before.length = .ok (some (i.fetched before.length)) := by
  have hsize : unit.size = before.length + (i.op.width + behind.length) := by
    have := congrArg List.length h
    rwa [Array.length_toList, List.length_append, List.length_append, i.length_bytes] at this
  have hat : ∀ k, unit.code[before.length + k]? = (i.bytes ++ behind)[k]? := by
    intro k
    rw [← Array.getElem?_toList, h, List.getElem?_append_right (Nat.le_add_right _ k),
      Nat.add_sub_cancel_left]
  have hne : before.length ≠ unit.size := by
    have := i.op.width_pos
    omega
  have hbyte := hat 0
  have hlow := hat 1
  have hhigh := hat 2
  unfold RawInstruction.bytes Opcode.encode at hbyte hlow hhigh
  unfold fetch RawInstruction.fetched
  cases harg : i.op.hasArgument with
  | false =>
    have hop : unit.code[before.length]? = some i.op.byte := by simpa [harg] using hbyte
    have hzero : i.raw = 0 := i.raw_eq_zero harg
    simp [hne, hop, Opcode.ofByte?_byte, harg, Opcode.width, hzero]
  | true =>
    have hop : unit.code[before.length]? = some i.op.byte := by simpa [harg] using hbyte
    have hlow' : unit.code[before.length + 1]? = some (UInt8.ofNat (i.raw % 256)) := by
      simpa [harg] using hlow
    have hhigh' : unit.code[before.length + 2]? = some (UInt8.ofNat (i.raw / 256)) := by
      simpa [harg] using hhigh
    have hsum : i.raw % 256 + 256 * (i.raw / 256 % 256) = i.raw := by
      have := i.raw_lt
      omega
    simp [hne, hop, Opcode.ofByte?_byte, harg, Opcode.width, hlow', hhigh', hsum]

/-- A stream is walked through by the instructions that it was made of. -/
lemma walks_stream {is : List RawInstruction} {before : List UInt8}
    (h : unit.code.toList = before ++ RawInstruction.stream is) :
    unit.Walks before.length (RawInstruction.places before.length is) := by
  induction is generalizing before with
  | nil =>
    have hsize : before.length = unit.size := by
      have := congrArg List.length h
      simpa [RawInstruction.stream, UnitOver.size] using this.symm
    rw [hsize]
    exact .done
  | cons i is ih =>
    have hcons : unit.code.toList = before ++ (i.bytes ++ RawInstruction.stream is) := h
    have hrest : unit.code.toList = (before ++ i.bytes) ++ RawInstruction.stream is := by
      rw [hcons, List.append_assoc]
    have hwalk := ih hrest
    rw [List.length_append, i.length_bytes] at hwalk
    exact .step (fetch_of_append hcons) hwalk

/-! ## Walks -/

lemma lt_next {offset : Nat} {f : Fetched} (h : unit.fetch offset = .ok (some f)) :
    offset < f.next := by
  unfold fetch at h
  split at h
  · cases h
  · split at h
    · cases h
    · split at h
      · cases h
      · split at h
        · split at h
          · cases h
            exact Nat.lt_add_of_pos_right (by omega)
          · cases h
        · cases h
          exact Nat.lt_succ_self offset

lemma Walks.length_le {offset : Nat} {w : Walk} (h : unit.Walks offset w) :
    offset + w.length ≤ unit.size := by
  induction h with
  | done => simp
  | step h hrest ih =>
    have := lt_next h
    simp only [List.length_cons]
    omega

/-- A walk is found with a step to spare for each instruction. -/
lemma Walks.walkFrom {offset fuel : Nat} {w : Walk} (h : unit.Walks offset w)
    (hfuel : w.length ≤ fuel) : unit.walkFrom offset fuel = .ok w := by
  induction h generalizing fuel with
  | done => cases fuel <;> simp [CodeUnit.walkFrom, fetch]
  | @step offset f rest h hrest ih =>
    cases fuel with
    | zero => simp at hfuel
    | succ fuel =>
      have hrest' := ih (Nat.le_of_succ_le_succ hfuel)
      simp [CodeUnit.walkFrom, h, hrest', Except.map]

lemma Walks.walk {w : Walk} (h : unit.Walks 0 w) : unit.walk = .ok w := by
  have := h.length_le
  exact h.walkFrom (by omega)

end CodeUnit

end StackMachine
