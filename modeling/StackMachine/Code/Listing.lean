import StackMachine.Code.Instruction
import StackMachine.Dictionary
/-!
# Listings and statistics

A listing shows a unit and, indented, every unit in its constant pool: a heading, and then one line
for each instruction with its offset, its raw argument and what the argument means. Offsets that
some jump of the unit leads to are marked. Statistics count the opcodes of the same units and show
the most frequent ones with their share.

A unit is gone through three times: for the offsets that are jumped to, for its lines, and for the
opcodes that are counted. A listing is made of `Line`s, which only become text at the end.
-/

namespace StackMachine

/-- A line of a listing. -/
inductive Line where
  | rule
  /-- A line of a unit's heading. -/
  | heading (text : String)
  /-- The mark above an instruction that is jumped to. -/
  | mark
  | instruction (offset : Nat) (marked : Bool) (text : String)
  | gap
  deriving DecidableEq, Repr, Inhabited

namespace Line

/-- A text filled up with blanks on the right. -/
def padRight (width : Nat) (s : String) : String :=
  s ++ String.ofList (List.replicate (width - s.length) ' ')

/-- A text filled up on the left. -/
def padLeft (width : Nat) (s : String) (fill : Char := ' ') : String :=
  String.ofList (List.replicate (width - s.length) fill) ++ s

/-- An offset in at least four digits. -/
def offsetText (n : Nat) : String := padLeft 4 (toString n) '0'

def ruleText : String := String.ofList (List.replicate 40 '═')

def markText : String := "      ┌" ++ String.ofList (List.replicate 34 '─')

/-- A line at a level of indentation. -/
def text (level : Nat) (line : Line) : String :=
  let indent := String.ofList (List.replicate (2 * level) ' ')
  match line with
  | rule => indent ++ ruleText
  | heading s => indent ++ " " ++ s
  | mark => indent ++ markText
  | instruction offset marked s =>
    indent ++ offsetText offset ++ (if marked then " ► " else "   ") ++ s
  | gap => ""

end Line

namespace CodeUnit

/-! ## Going through a unit -/

/-- Goes through the instructions from `offset` on, up to the end of the stream. Each is added by
`visit` to what has been gathered before. An instruction is at least one byte long, so the number of
bytes bounds the number of steps. -/
def gatherFrom {α : Type} (unit : CodeUnit) (visit : α → Nat → Fetched → Except FatalError α)
    (gathered : α) (offset : Nat) : (fuel : Nat) → Except FatalError α
  | 0 => .ok gathered
  | fuel + 1 =>
    match unit.fetch offset with
    | .error e => .error e
    | .ok none => .ok gathered
    | .ok (some f) =>
      match visit gathered offset f with
      | .error e => .error e
      | .ok gathered => unit.gatherFrom visit gathered f.next fuel

/-- Goes through all instructions of a unit. -/
def gather {α : Type} (unit : CodeUnit) (visit : α → Nat → Fetched → Except FatalError α)
    (start : α) : Except FatalError α :=
  unit.gatherFrom visit start 0 (unit.size + 1)

/-- Notes the offset that an instruction may jump to, unless it has been noted already. -/
def noteTarget (unit : CodeUnit) (targets : List Nat) (offset : Nat) (f : Fetched) :
    Except FatalError (List Nat) :=
  (unit.operand f.op f.raw offset).map fun
    | .target t => if targets.contains t then targets else targets ++ [t]
    | _ => targets

/-- The offsets that some jump of the unit leads to. -/
def jumpTargets (unit : CodeUnit) : Except FatalError (List Nat) := unit.gather unit.noteTarget []

/-! ## Lines of one unit -/

/-- What an argument means, in words. -/
def detail (op : Opcode) (offset : Nat) : Operand → String
  | .none => ""
  | .const _ c => c.text
  | .name s => s
  | .cell _ s => s
  | .target t => (if t ≤ offset then "↑" else "↓") ++ " (→ " ++ Line.offsetText t ++ ")"
  | .count n =>
    match op with
    | .compareOp =>
      match CompareOp.ofSelector? n with
      | some op => op.symbol
      | none => "?"
    | .callFunction => s!"{n % 256} positional, {n / 256} keyword"
    | _ => ""

/-- An instruction in words. Its argument is resolved if it has one. -/
def instructionText (unit : CodeUnit) (offset : Nat) (f : Fetched) : Except FatalError String :=
  if f.op.hasArgument then
    (unit.operand f.op f.raw offset).map fun operand =>
      let columns := Line.padRight 20 f.op.mnemonic ++ " " ++ Line.padLeft 5 (toString f.raw)
      let detail := detail f.op offset operand
      if detail.isEmpty then columns else columns ++ "  (" ++ detail ++ ")"
  else .ok f.op.mnemonic

/-- Lines, each at a level of indentation. -/
abbrev Lines := Array (Nat × Line)

/-- Adds the line of an instruction, with the mark above it if its offset is among the targets. -/
def addInstruction (unit : CodeUnit) (level : Nat) (targets : List Nat) (lines : Lines)
    (offset : Nat) (f : Fetched) : Except FatalError Lines :=
  let marked := targets.contains offset
  let lines := if marked then lines.push (level, .mark) else lines
  (unit.instructionText offset f).map fun text =>
    lines.push (level, .instruction offset marked text)

/-- The heading of a unit. -/
def headingLines (unit : CodeUnit) : List Line :=
  let names (label : String) (table : List String) : List Line :=
    if table.isEmpty then [] else [.heading (label ++ String.intercalate ", " table)]
  let variadic := if unit.variadic then " + varargs" else ""
  [.rule, .heading unit.name,
    .heading (s!"{unit.size} bytes, {unit.paramCount.toNat} params" ++ variadic)] ++
    names "cells: " unit.cellNames ++ names "free:  " unit.freeNames ++ [.rule]

/-- Adds the lines of one unit, without those nested in it. -/
def addOwn (unit : CodeUnit) (level : Nat) (lines : Lines) : Except FatalError Lines :=
  let lines := lines ++ unit.headingLines.map fun line => (level, line)
  match unit.jumpTargets with
  | .error e => .error e
  | .ok targets => unit.gather (unit.addInstruction level targets) lines

/-! ## Listings -/

mutual

/-- Adds the lines of a unit, and those of the units in its pool one level deeper. -/
def addUnit (level : Nat) (lines : Lines) : UnitOver Const → Except FatalError Lines
  | ⟨name, stream, consts, names, locals, cells, free, paramCount, variadic⟩ =>
    let unit : CodeUnit :=
      ⟨name, stream, consts, names, locals, cells, free, paramCount, variadic⟩
    match unit.addOwn level lines with
    | .error e => .error e
    | .ok lines => addPool (level + 1) lines consts

/-- Adds the lines of the units in a constant pool, with a gap before each of them. -/
def addPool (level : Nat) (lines : Lines) : List Const → Except FatalError Lines
  | [] => .ok lines
  | .code unit :: rest =>
    match addUnit level (lines.push (level, .gap)) unit with
    | .error e => .error e
    | .ok lines => addPool level lines rest
  | _ :: rest => addPool level lines rest

end

/-- The listing of a unit and of all units nested in it. -/
def listing (unit : CodeUnit) : Except FatalError Lines := addUnit 0 #[] unit

/-- The text of a listing. -/
def listingText (unit : CodeUnit) : Except FatalError String :=
  unit.listing.map fun lines =>
    String.intercalate "\n" (lines.toList.map fun (level, l) => l.text level) ++ "\n"

/-! ## Statistics -/

/-- How often each opcode has been met, by mnemonic. -/
abbrev Frequencies := Dictionary String Nat

/-- Counts an opcode. -/
def countOpcode (counts : Frequencies) (_ : Nat) (f : Fetched) : Except FatalError Frequencies :=
  .ok (counts.insert f.op.mnemonic ((counts.get? f.op.mnemonic).getD 0 + 1))

mutual

/-- Counts the opcodes of a unit, and those of the units in its pool. -/
def countUnit (counts : Frequencies) : UnitOver Const → Except FatalError Frequencies
  | ⟨name, stream, consts, names, locals, cells, free, paramCount, variadic⟩ =>
    let unit : CodeUnit :=
      ⟨name, stream, consts, names, locals, cells, free, paramCount, variadic⟩
    match unit.gather countOpcode counts with
    | .error e => .error e
    | .ok counts => countPool counts consts

def countPool (counts : Frequencies) : List Const → Except FatalError Frequencies
  | [] => .ok counts
  | .code unit :: rest =>
    match countUnit counts unit with
    | .error e => .error e
    | .ok counts => countPool counts rest
  | _ :: rest => countPool counts rest

end

/-- How often each opcode occurs in a unit and in all units nested in it. -/
def frequencies (unit : CodeUnit) : Except FatalError Frequencies := countUnit .empty unit

/-- The number of instructions that have been counted. -/
def total (counts : Frequencies) : Nat := counts.values.foldr (· + ·) 0

/-- More frequent opcodes come first, equally frequent ones in the order of their names. -/
def precedes (a b : String × Nat) : Bool := b.2 < a.2 || (a.2 == b.2 && a.1 ≤ b.1)

/-- The share of `count` in `total`, in per cent and rounded as floats are. -/
def share (count total : Nat) : Double :=
  ((Double.ofInt count).div (Double.ofInt total)).mul (Double.ofInt 100)

/-- The number of opcodes that statistics show. -/
def shownOpcodes : Nat := 10

/-- The line of one opcode in the statistics. -/
def frequencyLine (total : Nat) (entry : String × Nat) : String :=
  let columns := Line.padRight 20 entry.1 ++ " " ++ Line.padLeft 4 (toString entry.2)
  "  " ++ columns ++ " (" ++ Line.padLeft 5 (share entry.2 total).onePlace ++ "%)\n"

/-- The statistics of a unit and of all units nested in it. -/
def statisticsText (unit : CodeUnit) : Except FatalError String :=
  unit.frequencies.map fun counts =>
    let shown := (counts.entries.mergeSort precedes).take shownOpcodes
    "=== BYTECODE STATISTICS ===\n\n" ++ s!"Instructions: {total counts}\n\nOp frequency:\n" ++
      String.join (shown.map (frequencyLine (total counts)))

end CodeUnit

end StackMachine
