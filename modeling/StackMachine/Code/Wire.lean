import StackMachine.Code.Unit
/-!
# The binary form of code units

Code units travel as bytes. Numbers are varints: seven bits a byte, least significant first, the top
bit set on every byte but the last. Signed integers are folded onto the naturals first (`0, -1, 1,
-2, …`), floats are their eight bytes, low byte first, a truth value is one byte, text and sequences
are preceded by their length, and a constant by the number of its constructor. A unit is its fields
in order, without names or padding, so the form is self-delimiting: a reader takes what it needs and
returns the rest.

Readers here have the type `Reader α`: they consume bytes from the front of a list and either give a
value with what is left or say why they cannot.
-/

namespace StackMachine

/-- Why bytes are no code unit. -/
inductive WireError where
  | endOfBuffer
  | badVarint
  | badBool
  | badText
  | badConstructor
  deriving DecidableEq, Repr, Inhabited

/-- The words for a reading error. -/
def WireError.message : WireError → String
  | endOfBuffer => "failed to decode code unit: Hit the end of buffer, expected more data"
  | badVarint =>
    "failed to decode code unit: Found a varint that didn't terminate. " ++
      "Is the usize too big for this platform?"
  | badBool => "failed to decode code unit: Found a bool that wasn't 0 or 1"
  | badText => "failed to decode code unit: Tried to parse invalid utf-8"
  | badConstructor => "failed to decode code unit: Serde Deserialization Error"

namespace Wire

/-- Takes a value off the front of some bytes. -/
abbrev Reader (α : Type) := List UInt8 → Except WireError (α × List UInt8)

namespace Reader

variable {α β : Type}

/-- Reads nothing. -/
def pure (x : α) : Reader α := fun bytes => .ok (x, bytes)

/-- Reads one thing and then another that may depend on it. -/
def bind (r : Reader α) (f : α → Reader β) : Reader β := fun bytes =>
  match r bytes with
  | .ok (x, rest) => f x rest
  | .error e => .error e

/-- Fails. -/
def fail (e : WireError) : Reader α := fun _ => .error e

instance : Monad Reader where
  pure := Reader.pure
  bind := Reader.bind

end Reader

/-! ## Numbers -/

/-- A natural as a varint. -/
def varint (n : Nat) : List UInt8 :=
  if n < 128 then [UInt8.ofNat n] else UInt8.ofNat (n % 128 + 128) :: varint (n / 128)
termination_by n
decreasing_by omega

/-- One byte. -/
def readByte : Reader UInt8
  | [] => .error .endOfBuffer
  | b :: rest => .ok (b, rest)

/-- A varint of at most `more + 1` bytes, the last of which may be no greater than `lastMax`. -/
def readVarintWithin (lastMax : Nat) : (more : Nat) → Reader Nat
  | _, [] => .error .endOfBuffer
  | 0, b :: rest => if b.toNat ≤ lastMax then .ok (b.toNat, rest) else .error .badVarint
  | more + 1, b :: rest =>
    if b.toNat < 128 then .ok (b.toNat, rest)
    else match readVarintWithin lastMax more rest with
      | .ok (n, rest) => .ok (b.toNat - 128 + 128 * n, rest)
      | .error e => .error e

/-- A varint of 64 bits. -/
def readWord : Reader Nat := readVarintWithin 1 9

/-- A varint of 32 bits. -/
def readHalfWord : Reader Nat := readVarintWithin 15 4

/-- Signed integers in the order `0, -1, 1, -2, …`. -/
def fold (n : Int64) : Nat :=
  if 0 ≤ n.toInt then 2 * n.toInt.toNat else 2 * (-n.toInt).toNat - 1

/-- The integer at a place of that order. -/
def unfold (n : Nat) : Int64 :=
  Int64.ofInt (if n % 2 = 0 then (n / 2 : Nat) else -((n / 2 : Nat) : Int) - 1)

/-- The `n` lowest bytes of a natural, low byte first. -/
def littleEndian : Nat → Nat → List UInt8
  | 0, _ => []
  | n + 1, value => UInt8.ofNat (value % 256) :: littleEndian n (value / 256)

/-- `n` bytes as a natural, low byte first. -/
def readLittleEndian : Nat → Reader Nat
  | 0, bytes => .ok (0, bytes)
  | _ + 1, [] => .error .endOfBuffer
  | n + 1, b :: rest =>
    match readLittleEndian n rest with
    | .ok (value, rest) => .ok (b.toNat + 256 * value, rest)
    | .error e => .error e

/-! ## Truth values, text and sequences -/

def writeBool (b : Bool) : List UInt8 := [if b then 1 else 0]

def readBool : Reader Bool := do
  let b ← readByte
  if b = 0 then pure false else if b = 1 then pure true else Reader.fail .badBool

/-- Text as its length in bytes and its UTF-8 bytes. -/
def writeText (s : String) : List UInt8 := varint s.utf8ByteSize ++ s.toUTF8.toList

/-- The next `n` bytes. -/
def takeBytes (n : Nat) : Reader (List UInt8) := fun bytes =>
  let taken := bytes.take n
  if taken.length = n then .ok (taken, bytes.drop n) else .error .endOfBuffer

def readText : Reader String := do
  let n ← readWord
  let bytes ← takeBytes n
  match String.fromUTF8? bytes.toByteArray with
  | some s => pure s
  | none => Reader.fail .badText

/-- `n` things in a row. -/
def readMany {α : Type} (item : Reader α) : Nat → Reader (List α)
  | 0 => Reader.pure []
  | n + 1 => item.bind fun x => (readMany item n).bind fun xs => Reader.pure (x :: xs)

/-- A length and as many things. -/
def readSeq {α : Type} (item : Reader α) : Reader (List α) := readWord.bind (readMany item)

def writeTexts (ss : List String) : List UInt8 := varint ss.length ++ ss.flatMap writeText

def readTexts : Reader (List String) := readSeq readText

/-! ## Units and constants -/

mutual

/-- The bytes of a constant. -/
def writeConst : Const → List UInt8
  | .none => varint 0
  | .bool b => varint 1 ++ writeBool b
  | .int n => varint 2 ++ varint (fold n)
  | .float x => varint 3 ++ littleEndian 8 x.bits.toNat
  | .str s => varint 4 ++ writeText s
  | .tuple items => varint 5 ++ varint items.length ++ writeConsts items
  | .code unit => varint 6 ++ writeUnit unit

def writeConsts : List Const → List UInt8
  | [] => []
  | c :: cs => writeConst c ++ writeConsts cs

/-- The bytes of a unit. -/
def writeUnit : UnitOver Const → List UInt8
  | ⟨name, stream, consts, names, locals, cells, free, paramCount, variadic⟩ =>
    writeText name ++ varint stream.size ++ stream.toList ++
      varint consts.length ++ writeConsts consts ++ writeTexts names ++ writeTexts locals ++
      writeTexts cells ++ writeTexts free ++ varint paramCount.toNat ++ writeBool variadic

end

/-- A unit whose constants are read by `const`. -/
def readUnitWith (const : Reader Const) : Reader CodeUnit := do
  let name ← readText
  let stream ← readWord.bind takeBytes
  let consts ← readSeq const
  let names ← readTexts
  let locals ← readTexts
  let cells ← readTexts
  let free ← readTexts
  let paramCount ← readWord
  let variadic ← readBool
  pure ⟨name, stream.toArray, consts, names, locals, cells, free,
    UInt64.ofNat paramCount, variadic⟩

/-- A constant nested at most `depth` deep. -/
def readConst : (depth : Nat) → Reader Const
  | 0 => Reader.fail .endOfBuffer
  | depth + 1 => do
    match ← readHalfWord with
    | 0 => pure .none
    | 1 => return .bool (← readBool)
    | 2 => return .int (unfold (← readWord))
    | 3 => return .float ⟨UInt64.ofNat (← readLittleEndian 8)⟩
    | 4 => return .str (← readText)
    | 5 => return .tuple (← readSeq (readConst depth))
    | 6 => return .code (← readUnitWith (readConst depth))
    | _ => Reader.fail .badConstructor

end Wire

namespace CodeUnit

/-- The binary form of a unit. -/
def toBytes (unit : CodeUnit) : List UInt8 := Wire.writeUnit unit

/-- Reads the binary form of a unit and ignores what follows it. Every level of nesting takes a
byte, so the number of bytes bounds the depth. -/
def ofBytes (bytes : List UInt8) : Except WireError CodeUnit :=
  (Wire.readUnitWith (Wire.readConst (bytes.length + 1)) bytes).map Prod.fst

end CodeUnit

end StackMachine
