import Mathlib.Tactic.Lemma
import Mathlib.Tactic.Ring
import StackMachine.Code.Wire
/-!
# The binary form read back

The binary form of a unit says where it ends: a reader takes exactly the bytes that were written and
leaves what follows them.  Two properties of readers carry this.  `Reads r w x` says that `r` takes
the bytes `w` off the front of any bytes and makes `x` of them.  `Extends r r'` says that whatever
`r` makes of some bytes, `r'` makes of any longer ones, and leaves the extra bytes untouched; the
two readers differ in the depth of nesting that they allow.  Both pass from the parts of a reader to
the whole.

The first gives the round trip.  The second excludes that a unit can be read from a part of its
bytes, since such a reading would also be one of all bytes and leave some of them over.

Lengths are written as they are and read as 64-bit numbers, so a unit can only be read back if every
length in it is such a number (`UnitOver.Sized`).
-/

namespace StackMachine

/-! ## Lengths -/

/-- The bound on lengths: they are 64-bit numbers. -/
def lengthBound : Nat := 2 ^ 64

/-- A table of names of which every length is a 64-bit number. -/
def TextsSized (table : List String) : Prop :=
  table.length < lengthBound ∧ ∀ s ∈ table, s.utf8ByteSize < lengthBound

/-- The lengths of a unit's own parts are 64-bit numbers. -/
structure UnitOver.PartsSized {κ : Type} (u : UnitOver κ) : Prop where
  name : u.name.utf8ByteSize < lengthBound
  code : u.code.size < lengthBound
  consts : u.consts.length < lengthBound
  names : TextsSized u.names
  localNames : TextsSized u.localNames
  cellNames : TextsSized u.cellNames
  freeNames : TextsSized u.freeNames

/-- A constant of which every length, at every depth of nesting, is a 64-bit number. -/
inductive Const.Sized : Const → Prop
  | none : Sized .none
  | bool (b : Bool) : Sized (.bool b)
  | int (n : Int64) : Sized (.int n)
  | float (x : Double) : Sized (.float x)
  | str {s : String} (h : s.utf8ByteSize < lengthBound) : Sized (.str s)
  | tuple {items : List Const} (h : items.length < lengthBound)
    (hitems : ∀ c ∈ items, Sized c) : Sized (.tuple items)
  | code {unit : CodeUnit} (h : unit.PartsSized) (hconsts : ∀ c ∈ unit.consts, Sized c) :
    Sized (.code unit)

/-- A unit of which every length, at every depth of nesting, is a 64-bit number. -/
def CodeUnit.Sized (unit : CodeUnit) : Prop := unit.PartsSized ∧ ∀ c ∈ unit.consts, c.Sized

namespace Wire

variable {α β : Type}

/-! ## Reading what was written -/

/-- The reader takes the bytes `w` off the front of any bytes and makes `x` of them. -/
def Reads (r : Reader α) (w : List UInt8) (x : α) : Prop := ∀ rest, r (w ++ rest) = .ok (x, rest)

lemma reads_pure (x : α) : Reads (pure x) [] x := fun _ => rfl

/-- One thing after another. -/
lemma Reads.bind {r : Reader α} {f : α → Reader β} {w v : List UInt8} {x : α} {y : β}
    (hr : Reads r w x) (hf : Reads (f x) v y) : Reads (r >>= f) (w ++ v) y := by
  intro rest
  have hfirst : r (w ++ (v ++ rest)) = .ok (x, v ++ rest) := hr (v ++ rest)
  show Reader.bind r f (w ++ v ++ rest) = .ok (y, rest)
  rw [Reader.bind, List.append_assoc, hfirst]
  exact hf rest

/-- The last thing. -/
lemma Reads.bind_pure {r : Reader α} {w : List UInt8} {x : α} (hr : Reads r w x) (f : α → β) :
    Reads (r >>= fun x => pure (f x)) w (f x) := by
  have h : Reads (r >>= fun x => pure (f x)) (w ++ []) (f x) := hr.bind (reads_pure (f x))
  rwa [List.append_nil] at h

/-! ### Numbers -/

lemma varint_of_lt {n : Nat} (h : n < 128) : varint n = [UInt8.ofNat n] := by
  rw [varint, if_pos h]

lemma varint_of_le {n : Nat} (h : 128 ≤ n) :
    varint n = UInt8.ofNat (n % 128 + 128) :: varint (n / 128) := by
  rw [varint, if_neg (Nat.not_lt.2 h)]

lemma varint_length_pos (n : Nat) : 0 < (varint n).length := by
  by_cases h : n < 128
  · simp [varint_of_lt h]
  · simp [varint_of_le (Nat.not_lt.1 h)]

/-- A number that the bytes have room for is read back; the induction is on the bytes that may
follow the first one. -/
lemma reads_varintWithin {lastMax more n : Nat} (hlast : lastMax < 128)
    (hn : n < 128 ^ more * (lastMax + 1)) : Reads (readVarintWithin lastMax more) (varint n) n := by
  induction more generalizing n with
  | zero =>
    intro rest
    have hle : n ≤ lastMax := by simpa [Nat.lt_succ_iff] using hn
    have hbyte : (UInt8.ofNat n).toNat = n := by
      simp
      omega
    rw [varint_of_lt (by omega)]
    simp [readVarintWithin, hbyte, hle]
  | succ more ih =>
    intro rest
    by_cases h : n < 128
    · have hbyte : (UInt8.ofNat n).toNat = n := by
        simp
        omega
      rw [varint_of_lt h]
      simp [readVarintWithin, hbyte, h]
    · have hbyte : (UInt8.ofNat (n % 128 + 128)).toNat = n % 128 + 128 := by
        simp
        omega
      have hrest : n / 128 < 128 ^ more * (lastMax + 1) := by
        rw [Nat.div_lt_iff_lt_mul (by omega)]
        calc n < 128 ^ (more + 1) * (lastMax + 1) := hn
          _ = 128 ^ more * (lastMax + 1) * 128 := by ring
      have hsum : n % 128 + 128 - 128 + 128 * (n / 128) = n := by omega
      rw [varint_of_le (Nat.not_lt.1 h), List.cons_append, readVarintWithin, hbyte,
        if_neg (by omega), ih hrest rest]
      simp only [hsum]

lemma reads_word {n : Nat} (h : n < lengthBound) : Reads readWord (varint n) n :=
  reads_varintWithin (by omega) (by simpa [lengthBound] using h)

/-- The number of a constructor. -/
lemma reads_halfWord {n : Nat} (h : n < 2 ^ 32) : Reads readHalfWord (varint n) n :=
  reads_varintWithin (by omega) (by simpa using h)

lemma fold_lt (n : Int64) : fold n < lengthBound := by
  have hle := n.toInt_lt
  have hge := n.le_toInt
  unfold fold lengthBound
  split <;> omega

lemma unfold_fold (n : Int64) : unfold (fold n) = n := by
  have hplace : (if fold n % 2 = 0 then ((fold n / 2 : Nat) : Int) else
      -((fold n / 2 : Nat) : Int) - 1) = n.toInt := by
    unfold fold
    split <;> split <;> omega
  rw [unfold, hplace, Int64.ofInt_toInt]

lemma reads_littleEndian (n value : Nat) (h : value < 256 ^ n) :
    Reads (readLittleEndian n) (littleEndian n value) value := by
  induction n generalizing value with
  | zero =>
    intro rest
    have hzero : value = 0 := by simpa using h
    rw [hzero]
    rfl
  | succ n ih =>
    intro rest
    have hrest : value / 256 < 256 ^ n := by
      rw [Nat.div_lt_iff_lt_mul (by omega), ← Nat.pow_succ]
      exact h
    have hsum : value % 256 + 256 * (value / 256) = value := Nat.mod_add_div value 256
    simp [littleEndian, readLittleEndian, ih _ hrest rest, hsum]

/-! ### Truth values, text and sequences -/

lemma reads_bool (b : Bool) : Reads readBool (writeBool b) b := by
  intro rest
  cases b <;> rfl

lemma reads_takeBytes (w : List UInt8) : Reads (takeBytes w.length) w w := by
  intro rest
  simp [takeBytes]

lemma toList_loop (bytes : ByteArray) (i : Nat) (taken : List UInt8) :
    ByteArray.toList.loop bytes i taken = taken.reverse ++ bytes.data.toList.drop i := by
  fun_induction ByteArray.toList.loop bytes i taken with
  | case1 i taken h ih =>
    have hlength : i < bytes.data.toList.length := by simpa using h
    have hget : bytes.get! i = bytes.data.toList[i] := by
      show bytes.data[i]! = _
      rw [getElem!_pos bytes.data i h]
      simp
    rw [ih, List.drop_eq_getElem_cons hlength, hget]
    simp
  | case2 i taken h =>
    have hlength : bytes.data.toList.length ≤ i := by simpa using Nat.not_lt.1 h
    rw [List.drop_eq_nil_of_le hlength, List.append_nil]

lemma toList_eq_toList_data (bytes : ByteArray) : bytes.toList = bytes.data.toList := by
  rw [ByteArray.toList, toList_loop]
  rfl

lemma fromUTF8?_toUTF8 (s : String) : String.fromUTF8? s.toUTF8.toList.toByteArray = some s := by
  have hbytes : s.toUTF8.toList.toByteArray = s.toByteArray := by
    apply ByteArray.ext
    rw [List.data_toByteArray, toList_eq_toList_data, Array.toArray_toList]
    rfl
  rw [hbytes, String.fromUTF8?, dif_pos s.isValidUTF8]
  rfl

lemma reads_text {s : String} (h : s.utf8ByteSize < lengthBound) :
    Reads readText (writeText s) s := by
  have hlength : s.toUTF8.toList.length = s.utf8ByteSize := by
    rw [toList_eq_toList_data]
    rfl
  have htaken : Reads (takeBytes s.utf8ByteSize) s.toUTF8.toList s.toUTF8.toList := by
    rw [← hlength]
    exact reads_takeBytes _
  refine (reads_word h).bind ?_
  rw [← List.append_nil s.toUTF8.toList]
  refine htaken.bind ?_
  simp only [fromUTF8?_toUTF8]
  exact reads_pure s

lemma reads_many {item : Reader α} {write : α → List UInt8} {xs : List α}
    (h : ∀ x ∈ xs, Reads item (write x) x) :
    Reads (readMany item xs.length) (xs.flatMap write) xs := by
  induction xs with
  | nil => exact reads_pure []
  | cons x xs ih =>
    have hx : Reads item (write x) x := h x List.mem_cons_self
    have hxs := ih fun y hy => h y (List.mem_cons_of_mem x hy)
    rw [List.flatMap_cons]
    exact hx.bind (hxs.bind_pure (x :: ·))

/-- A sequence behind its length. -/
lemma reads_seq {item : Reader α} {write : α → List UInt8} {xs : List α}
    (hlength : xs.length < lengthBound) (h : ∀ x ∈ xs, Reads item (write x) x) :
    Reads (readSeq item) (varint xs.length ++ xs.flatMap write) xs :=
  (reads_word hlength).bind (reads_many h)

lemma reads_texts {table : List String} (h : TextsSized table) :
    Reads readTexts (writeTexts table) table :=
  reads_seq h.1 fun s hs => reads_text (h.2 s hs)

/-! ### Units and constants -/

lemma writeConsts_eq_flatMap (cs : List Const) : writeConsts cs = cs.flatMap writeConst := by
  induction cs with
  | nil => rfl
  | cons c cs ih => rw [writeConsts, ih, List.flatMap_cons]

lemma length_le_flatMap {c : Const} {cs : List Const} (h : c ∈ cs) :
    (writeConst c).length ≤ (cs.flatMap writeConst).length :=
  (List.sublist_flatten_of_mem (List.mem_map_of_mem h)).length_le

lemma length_le_writeUnit {c : Const} {unit : CodeUnit} (h : c ∈ unit.consts) :
    (writeConst c).length ≤ (writeUnit unit).length := by
  have hpool := length_le_flatMap h
  obtain ⟨name, stream, consts, names, locals, cells, free, paramCount, variadic⟩ := unit
  simp only [writeUnit, writeConsts_eq_flatMap, List.length_append]
  simp only at hpool
  omega

/-- A unit is read back if its constants are. -/
lemma reads_unitWith {const : Reader Const} {unit : CodeUnit} (h : unit.PartsSized)
    (hconsts : ∀ c ∈ unit.consts, Reads const (writeConst c) c) :
    Reads (readUnitWith const) (writeUnit unit) unit := by
  obtain ⟨name, stream, consts, names, locals, cells, free, paramCount, variadic⟩ := unit
  have hstream : Reads (readWord.bind takeBytes) (varint stream.size ++ stream.toList)
      stream.toList := (reads_word h.code).bind (reads_takeBytes stream.toList)
  have hpool := reads_seq h.consts hconsts
  have hcount := reads_word paramCount.toNat_lt
  have hbytes : writeUnit ⟨name, stream, consts, names, locals, cells, free, paramCount, variadic⟩ =
      writeText name ++ ((varint stream.size ++ stream.toList) ++
        ((varint consts.length ++ consts.flatMap writeConst) ++ (writeTexts names ++
          (writeTexts locals ++ (writeTexts cells ++ (writeTexts free ++
            (varint paramCount.toNat ++ writeBool variadic))))))) := by
    simp [writeUnit, writeConsts_eq_flatMap]
  have hunit : (⟨name, stream.toList.toArray, consts, names, locals, cells, free,
      UInt64.ofNat paramCount.toNat, variadic⟩ : CodeUnit) =
        ⟨name, stream, consts, names, locals, cells, free, paramCount, variadic⟩ := by
    simp
  rw [hbytes, ← hunit]
  refine (reads_text h.name).bind (hstream.bind (hpool.bind ?_))
  refine (reads_texts h.names).bind ((reads_texts h.localNames).bind ?_)
  refine (reads_texts h.cellNames).bind ((reads_texts h.freeNames).bind ?_)
  exact hcount.bind ((reads_bool variadic).bind_pure _)

/-- The number of its constructor takes at least one of a constant's bytes. -/
lemma reads_constructor {c : Const} {w : List UInt8} (tag : Nat)
    (hbytes : writeConst c = varint tag ++ w)
    (h : ∀ depth, w.length ≤ depth → Reads (readConst (depth + 1)) (varint tag ++ w) c)
    (depth : Nat) (hdepth : (writeConst c).length ≤ depth) :
    Reads (readConst depth) (writeConst c) c := by
  have hpos := varint_length_pos tag
  rw [hbytes, List.length_append] at hdepth
  cases depth with
  | zero => omega
  | succ depth =>
    rw [hbytes]
    exact h depth (by omega)

/-- A constant is read back if the reader goes as deep as the constant has bytes. -/
lemma reads_const {c : Const} (h : c.Sized) :
    ∀ depth, (writeConst c).length ≤ depth → Reads (readConst depth) (writeConst c) c := by
  induction h with
  | none =>
    refine reads_constructor 0 (List.append_nil _).symm fun depth _ => ?_
    exact (reads_halfWord (by omega)).bind (reads_pure Const.none)
  | bool b =>
    refine reads_constructor 1 rfl fun depth _ => ?_
    exact (reads_halfWord (by omega)).bind ((reads_bool b).bind_pure Const.bool)
  | int n =>
    refine reads_constructor 2 rfl fun depth _ => ?_
    have hint := (reads_word (fold_lt n)).bind_pure fun k => Const.int (unfold k)
    rw [unfold_fold] at hint
    exact (reads_halfWord (by omega)).bind hint
  | float x =>
    refine reads_constructor 3 rfl fun depth _ => ?_
    have hfloat := (reads_littleEndian 8 x.bits.toNat x.bits.toNat_lt).bind_pure
      fun k => Const.float ⟨UInt64.ofNat k⟩
    rw [UInt64.ofNat_toNat] at hfloat
    exact (reads_halfWord (by omega)).bind hfloat
  | str h =>
    refine reads_constructor 4 rfl fun depth _ => ?_
    exact (reads_halfWord (by omega)).bind ((reads_text h).bind_pure Const.str)
  | @tuple items h hitems ih =>
    have hbytes : writeConst (.tuple items) =
        varint 5 ++ (varint items.length ++ items.flatMap writeConst) := by
      rw [writeConst, writeConsts_eq_flatMap, List.append_assoc]
    refine reads_constructor 5 hbytes fun depth hdepth => ?_
    rw [List.length_append] at hdepth
    have hread : ∀ c ∈ items, Reads (readConst depth) (writeConst c) c := fun c hc =>
      ih c hc depth ((length_le_flatMap hc).trans (by omega))
    exact (reads_halfWord (by omega)).bind ((reads_seq h hread).bind_pure Const.tuple)
  | @code unit h hconsts ih =>
    refine reads_constructor 6 rfl fun depth hdepth => ?_
    have hread : ∀ c ∈ unit.consts, Reads (readConst depth) (writeConst c) c := fun c hc =>
      ih c hc depth ((length_le_writeUnit hc).trans hdepth)
    exact (reads_halfWord (by omega)).bind ((reads_unitWith h hread).bind_pure Const.code)

/-! ## Reading a part of the bytes -/

/-- Whatever `r` makes of some bytes, `r'` makes of any longer ones, and it leaves the extra bytes
untouched. -/
def Extends (r r' : Reader α) : Prop :=
  ∀ bytes x rest, r bytes = .ok (x, rest) → ∀ extra, r' (bytes ++ extra) = .ok (x, rest ++ extra)

lemma extends_pure (x : α) : Extends (pure x) (pure x) := by
  rintro bytes _ _ ⟨⟩ extra
  rfl

lemma extends_fail {e : WireError} {r : Reader α} : Extends (Reader.fail e) r := by
  rintro bytes x rest ⟨⟩

lemma Extends.bind {r r' : Reader α} {f f' : α → Reader β} (hr : Extends r r')
    (hf : ∀ x, Extends (f x) (f' x)) : Extends (r >>= f) (r' >>= f') := by
  intro bytes y rest h extra
  have hfirst : Reader.bind r f bytes = .ok (y, rest) := h
  show Reader.bind r' f' (bytes ++ extra) = .ok (y, rest ++ extra)
  unfold Reader.bind at hfirst ⊢
  split at hfirst
  · next x middle hx =>
    rw [hr bytes x middle hx extra]
    exact hf x middle y rest hfirst extra
  · cases hfirst

/-! ### The parts of a unit -/

lemma extends_byte : Extends readByte readByte := by
  intro bytes x rest h extra
  cases bytes with
  | nil => cases h
  | cons b bytes =>
    cases h
    rfl

lemma extends_varintWithin (lastMax more : Nat) :
    Extends (readVarintWithin lastMax more) (readVarintWithin lastMax more) := by
  induction more with
  | zero =>
    intro bytes n rest h extra
    cases bytes with
    | nil => cases h
    | cons b bytes =>
      simp only [readVarintWithin, List.cons_append] at h ⊢
      split at h
      · next hle =>
        cases h
        rw [if_pos hle]
      · cases h
  | succ more ih =>
    intro bytes n rest h extra
    cases bytes with
    | nil => cases h
    | cons b bytes =>
      simp only [readVarintWithin, List.cons_append] at h ⊢
      split at h
      · next hlt =>
        cases h
        rw [if_pos hlt]
      · next hge =>
        rw [if_neg hge]
        split at h
        · next k middle hk =>
          cases h
          rw [ih bytes k rest hk extra]
        · cases h

lemma extends_word : Extends readWord readWord := extends_varintWithin 1 9

lemma extends_halfWord : Extends readHalfWord readHalfWord := extends_varintWithin 15 4

lemma extends_littleEndian (n : Nat) : Extends (readLittleEndian n) (readLittleEndian n) := by
  induction n with
  | zero =>
    rintro bytes _ _ ⟨⟩ extra
    rfl
  | succ n ih =>
    intro bytes value rest h extra
    cases bytes with
    | nil => cases h
    | cons b bytes =>
      simp only [readLittleEndian, List.cons_append] at h ⊢
      split at h
      · next k middle hk =>
        cases h
        rw [ih bytes k rest hk extra]
      · cases h

lemma extends_takeBytes (n : Nat) : Extends (takeBytes n) (takeBytes n) := by
  intro bytes x rest h extra
  unfold takeBytes at h ⊢
  simp only at h ⊢
  split at h
  · next hlength =>
    have hle : n ≤ bytes.length := by
      rw [List.length_take] at hlength
      omega
    cases h
    rw [List.take_append_of_le_length hle, if_pos hlength, List.drop_append_of_le_length hle]
  · cases h

lemma extends_bool : Extends readBool readBool := by
  refine extends_byte.bind fun b => ?_
  split
  · exact extends_pure false
  · split
    · exact extends_pure true
    · exact extends_fail

lemma extends_text : Extends readText readText := by
  refine extends_word.bind fun n => (extends_takeBytes n).bind fun bytes => ?_
  split
  · exact extends_pure _
  · exact extends_fail

lemma extends_many {item item' : Reader α} (h : Extends item item') (n : Nat) :
    Extends (readMany item n) (readMany item' n) := by
  induction n with
  | zero => exact extends_pure []
  | succ n ih => exact h.bind fun x => ih.bind fun xs => extends_pure (x :: xs)

lemma extends_seq {item item' : Reader α} (h : Extends item item') :
    Extends (readSeq item) (readSeq item') := extends_word.bind (extends_many h)

lemma extends_texts : Extends readTexts readTexts := extends_seq extends_text

/-! ### Units and constants -/

lemma extends_unitWith {const const' : Reader Const} (h : Extends const const') :
    Extends (readUnitWith const) (readUnitWith const') := by
  refine extends_text.bind fun name => ?_
  refine (extends_word.bind extends_takeBytes).bind fun stream =>
    (extends_seq h).bind fun consts => ?_
  refine extends_texts.bind fun names => extends_texts.bind fun locals => ?_
  refine extends_texts.bind fun cells => extends_texts.bind fun free => ?_
  exact extends_word.bind fun paramCount => extends_bool.bind fun variadic => extends_pure _

/-- More depth does no harm; the induction is on the smaller depth. -/
lemma extends_const {depth depth' : Nat} (h : depth ≤ depth') :
    Extends (readConst depth) (readConst depth') := by
  induction depth generalizing depth' with
  | zero => exact extends_fail
  | succ depth ih =>
    obtain ⟨depth', rfl⟩ : ∃ d, depth' = d + 1 := Nat.exists_eq_add_one.2 (by omega)
    have hinner : Extends (readConst depth) (readConst depth') := ih (by omega)
    refine extends_halfWord.bind fun tag => ?_
    match tag with
    | 0 => exact extends_pure Const.none
    | 1 => exact extends_bool.bind fun b => extends_pure _
    | 2 => exact extends_word.bind fun n => extends_pure _
    | 3 => exact (extends_littleEndian 8).bind fun n => extends_pure _
    | 4 => exact extends_text.bind fun s => extends_pure _
    | 5 => exact (extends_seq hinner).bind fun items => extends_pure _
    | 6 => exact (extends_unitWith hinner).bind fun unit => extends_pure _
    | _ + 7 => exact extends_fail

end Wire

/-! ## Units -/

namespace CodeUnit

open Wire

variable {unit : CodeUnit}

/-- The bytes of a unit are taken off the front of any bytes, and nothing else is. -/
lemma reads_toBytes (h : unit.Sized) {depth : Nat} (hdepth : unit.toBytes.length ≤ depth) :
    Reads (readUnitWith (readConst depth)) unit.toBytes unit :=
  reads_unitWith h.1 fun c hc =>
    reads_const (h.2 c hc) depth ((length_le_writeUnit hc).trans hdepth)

lemma ofBytes_eq_ok {bytes rest : List UInt8}
    (h : readUnitWith (readConst (bytes.length + 1)) bytes = .ok (unit, rest)) :
    ofBytes bytes = .ok unit := by
  rw [ofBytes, h]
  rfl

/-- **The binary form can be read back and delimits itself.**  A unit is read back from its bytes,
whatever follows them; of its bytes no part from the front that lacks even one can be read as a
unit. -/
theorem ofBytes_toBytes (h : unit.Sized) :
    (∀ rest, ofBytes (unit.toBytes ++ rest) = .ok unit) ∧
    ∀ part, part <+: unit.toBytes → part ≠ unit.toBytes → ∃ e, ofBytes part = .error e := by
  constructor
  · intro rest
    refine ofBytes_eq_ok (reads_toBytes h ?_ rest)
    rw [List.length_append]
    omega
  · rintro part ⟨extra, hextra⟩ hne
    cases hread : readUnitWith (readConst (part.length + 1)) part with
    | error e =>
      refine ⟨e, ?_⟩
      rw [ofBytes, hread]
      rfl
    | ok result =>
      obtain ⟨other, rest⟩ := result
      -- Reading the part would leave the missing bytes over when all bytes are read.
      have hdepth : part.length + 1 ≤ unit.toBytes.length + 1 := by
        rw [← hextra, List.length_append]
        omega
      have hover := extends_unitWith (extends_const hdepth) part other rest hread extra
      have hall := reads_toBytes h (Nat.le_add_right unit.toBytes.length 1) []
      rw [List.append_nil] at hall
      rw [hextra, hall, Except.ok.injEq, Prod.mk.injEq] at hover
      have hnone : extra = [] := (List.append_eq_nil_iff.1 hover.2.symm).2
      rw [hnone, List.append_nil] at hextra
      exact absurd hextra hne

/-- A program with a function in its pool, which has a tuple of a NaN and the least integer in its
own, and claims as many parameters as can be written. -/
def nestedUnit : CodeUnit :=
  { (.named "é" : CodeUnit) with
    code := #[0x50, 0, 0, 0x31]
    consts := [.code { (.named "f" : CodeUnit) with
      consts := [.tuple [.float ⟨0x7ff8000000000001⟩, .int (-9223372036854775808)]]
      paramCount := 18446744073709551615
      variadic := true }] }

lemma nestedUnit_sized : nestedUnit.Sized := by
  have hnone : TextsSized [] := ⟨by decide, by simp⟩
  have htuple : Const.Sized (.tuple [.float ⟨0x7ff8000000000001⟩, .int (-9223372036854775808)]) :=
    .tuple (by decide) (by simp [Const.Sized.float, Const.Sized.int])
  refine ⟨⟨by decide, by decide, by decide, hnone, hnone, hnone, hnone⟩, ?_⟩
  rintro c hc
  obtain rfl := List.mem_singleton.1 hc
  refine .code ⟨by decide, by decide, by decide, hnone, hnone, hnone, hnone⟩ ?_
  rintro c hc
  obtain rfl := List.mem_singleton.1 hc
  exact htuple

theorem ofBytes_toBytes_nested :
    nestedUnit.Sized ∧ (∀ rest, ofBytes (nestedUnit.toBytes ++ rest) = .ok nestedUnit) ∧
    ∀ part, part <+: nestedUnit.toBytes → part ≠ nestedUnit.toBytes →
      ∃ e, ofBytes part = .error e :=
  ⟨nestedUnit_sized, ofBytes_toBytes nestedUnit_sized⟩

end CodeUnit

end StackMachine
