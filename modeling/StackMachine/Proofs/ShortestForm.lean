import Mathlib.Tactic.Lemma
import Mathlib.Tactic.Ring
import StackMachine.Proofs.BinaryForm
/-!
# The written form is the shortest

A reader accepts more than what is written.  A varint may be padded with groups of zero bits, up to
the number of bytes that its width allows, and whatever follows a unit is ignored.  What is written
is the form without any of this: of all bytes that are read as a unit its own bytes are the
shortest, and the only ones of that length.  To write what has been read is therefore to normalise
it.

`Takes r Q` says what `r` has taken off the front of some bytes when it has made a value of them.
For every reader here that is the written form of the value, or something longer (`Undercuts`), and
in passing the value is found to be one that can be written: its lengths have been read as 64-bit
numbers, so they are such numbers.  Both pass from the parts of a reader to the whole.
-/

namespace StackMachine

namespace Wire

variable {α β : Type}

/-! ## What a reader takes -/

/-- Whatever the reader makes of some bytes, `Q` relates it to the bytes that have been taken. -/
def Takes (r : Reader α) (Q : α → List UInt8 → Prop) : Prop :=
  ∀ bytes x rest, r bytes = .ok (x, rest) → ∃ taken, bytes = taken ++ rest ∧ Q x taken

lemma Takes.mono {r : Reader α} {P Q : α → List UInt8 → Prop} (hr : Takes r P)
    (h : ∀ x taken, P x taken → Q x taken) : Takes r Q := by
  intro bytes x rest hread
  obtain ⟨taken, hbytes, hx⟩ := hr bytes x rest hread
  exact ⟨taken, hbytes, h x taken hx⟩

lemma takes_pure {x : α} {Q : α → List UInt8 → Prop} (h : Q x []) : Takes (pure x) Q := by
  rintro bytes _ _ ⟨⟩
  exact ⟨[], rfl, h⟩

lemma takes_fail (e : WireError) (Q : α → List UInt8 → Prop) : Takes (Reader.fail e) Q := by
  rintro bytes x rest ⟨⟩

/-- One thing after another. -/
lemma Takes.bind {r : Reader α} {f : α → Reader β} {P : α → List UInt8 → Prop}
    {Q : β → List UInt8 → Prop} (hr : Takes r P)
    (hf : ∀ x first, P x first → Takes (f x) fun y second => Q y (first ++ second)) :
    Takes (r >>= f) Q := by
  intro bytes y rest hread
  have hbind : Reader.bind r f bytes = .ok (y, rest) := hread
  unfold Reader.bind at hbind
  split at hbind
  · next x middle hx =>
    obtain ⟨first, hfirst, hP⟩ := hr bytes x middle hx
    obtain ⟨second, hsecond, hQ⟩ := hf x first hP middle y rest hbind
    exact ⟨first ++ second, by rw [hfirst, hsecond, List.append_assoc], hQ⟩
  · cases hbind

/-- The last thing. -/
lemma Takes.bind_pure {r : Reader α} {f : α → β} {P : α → List UInt8 → Prop}
    {Q : β → List UInt8 → Prop} (hr : Takes r P) (hf : ∀ x taken, P x taken → Q (f x) taken) :
    Takes (r >>= fun x => pure (f x)) Q :=
  hr.bind fun x taken hx => takes_pure (by rw [List.append_nil]; exact hf x taken hx)

/-! ## Shorter forms -/

/-- The bytes `w` are those that have been taken, or fewer. -/
def Undercuts (w taken : List UInt8) : Prop := w = taken ∨ w.length < taken.length

lemma Undercuts.length_le {w taken : List UInt8} (h : Undercuts w taken) :
    w.length ≤ taken.length := by
  obtain rfl | h := h
  · exact Nat.le_refl _
  · exact Nat.le_of_lt h

lemma Undercuts.append {w v first second : List UInt8} (hw : Undercuts w first)
    (hv : Undercuts v second) : Undercuts (w ++ v) (first ++ second) := by
  obtain rfl | hw := hw
  · obtain rfl | hv := hv
    · exact .inl rfl
    · exact .inr (by simpa using hv)
  · have hle := hv.length_le
    refine .inr ?_
    rw [List.length_append, List.length_append]
    omega

/-- What the reader makes of bytes has a written form that undercuts them, and is as `P` says. -/
abbrev Normalises (r : Reader α) (write : α → List UInt8) (P : α → Prop) : Prop :=
  Takes r fun x taken => P x ∧ Undercuts (write x) taken

/-! ### Numbers -/

/-- The induction is on the bytes that may follow the first one. -/
lemma normalises_varintWithin {lastMax : Nat} (hlast : lastMax < 128) (more : Nat) :
    Normalises (readVarintWithin lastMax more) varint (· < 128 ^ more * (lastMax + 1)) := by
  -- A byte without its top bit is a varint by itself.
  have hsingle : ∀ b : UInt8, b.toNat < 128 → Undercuts (varint b.toNat) [b] := fun b hb =>
    .inl (by rw [varint_of_lt hb, UInt8.ofNat_toNat])
  induction more with
  | zero =>
    intro bytes n rest hread
    cases bytes with
    | nil => cases hread
    | cons b bytes =>
      rw [readVarintWithin] at hread
      split at hread
      · next hle =>
        cases hread
        exact ⟨[b], rfl, by omega, hsingle b (by omega)⟩
      · cases hread
  | succ more ih =>
    intro bytes n rest hread
    cases bytes with
    | nil => cases hread
    | cons b bytes =>
      have hpos : 1 ≤ 128 ^ more * (lastMax + 1) := Nat.mul_pos (Nat.pow_pos (by omega)) (by omega)
      have hpow : 128 ^ (more + 1) * (lastMax + 1) = 128 * (128 ^ more * (lastMax + 1)) := by ring
      rw [readVarintWithin] at hread
      split at hread
      · next hlt =>
        cases hread
        exact ⟨[b], rfl, by omega, hsingle b hlt⟩
      · next hge =>
        split at hread
        · next m middle hm =>
          cases hread
          obtain ⟨taken, rfl, hbound, hshort⟩ := ih bytes m rest hm
          have hb := b.toNat_lt
          refine ⟨b :: taken, rfl, by omega, ?_⟩
          by_cases hsmall : b.toNat - 128 + 128 * m < 128
          · -- The further bytes were padding.
            have hpositive := (varint_length_pos m).trans_le hshort.length_le
            refine .inr ?_
            rw [varint_of_lt hsmall]
            simpa using hpositive
          · have hmod : (b.toNat - 128 + 128 * m) % 128 + 128 = b.toNat := by omega
            have hdiv : (b.toNat - 128 + 128 * m) / 128 = m := by omega
            rw [varint_of_le (Nat.not_lt.1 hsmall), hmod, hdiv, UInt8.ofNat_toNat]
            have hself : Undercuts [b] [b] := .inl rfl
            exact hself.append hshort
        · cases hread

lemma normalises_word : Normalises readWord varint (· < lengthBound) :=
  (normalises_varintWithin (by omega) 9).mono fun _ _ h => ⟨by simpa [lengthBound] using h.1, h.2⟩

/-- The number of a constructor. -/
lemma normalises_halfWord : Normalises readHalfWord varint fun _ => True :=
  (normalises_varintWithin (by omega) 4).mono fun _ _ h => ⟨trivial, h.2⟩

lemma fold_unfold {n : Nat} (h : n < lengthBound) : fold (unfold n) = n := by
  unfold lengthBound at h
  have hvalue : (unfold n).toInt = if n % 2 = 0 then ((n / 2 : Nat) : Int) else
      -((n / 2 : Nat) : Int) - 1 := by
    unfold unfold
    apply Int64.toInt_ofInt_of_le <;> split <;> omega
  unfold fold
  rw [hvalue]
  split <;> split <;> omega

lemma takes_littleEndian (n : Nat) :
    Takes (readLittleEndian n) fun value taken =>
      value < 256 ^ n ∧ littleEndian n value = taken := by
  induction n with
  | zero =>
    rintro bytes _ _ ⟨⟩
    exact ⟨[], rfl, by omega, rfl⟩
  | succ n ih =>
    intro bytes value rest hread
    cases bytes with
    | nil => cases hread
    | cons b bytes =>
      rw [readLittleEndian] at hread
      split at hread
      · next k middle hk =>
        cases hread
        obtain ⟨taken, rfl, hbound, hwritten⟩ := ih bytes k rest hk
        have hb := b.toNat_lt
        have hmod : (b.toNat + 256 * k) % 256 = b.toNat := by omega
        have hdiv : (b.toNat + 256 * k) / 256 = k := by omega
        have hpow : 256 ^ (n + 1) = 256 * 256 ^ n := Nat.pow_succ'
        refine ⟨b :: taken, rfl, by omega, ?_⟩
        rw [littleEndian, hmod, hdiv, hwritten, UInt8.ofNat_toNat]
      · cases hread

/-! ### Truth values, text and sequences -/

lemma takes_byte : Takes readByte fun b taken => taken = [b] := by
  intro bytes b rest hread
  cases bytes with
  | nil => cases hread
  | cons b bytes =>
    cases hread
    exact ⟨[b], rfl, rfl⟩

lemma takes_bytes (n : Nat) : Takes (takeBytes n) fun w taken => w.length = n ∧ taken = w := by
  intro bytes w rest hread
  unfold takeBytes at hread
  simp only at hread
  split at hread
  · next hlength =>
    cases hread
    exact ⟨bytes.take n, (List.take_append_drop n bytes).symm, hlength, rfl⟩
  · cases hread

lemma normalises_bool : Normalises readBool writeBool fun _ => True := by
  refine takes_byte.bind fun b taken htaken => ?_
  subst htaken
  split
  · next hb =>
    subst hb
    exact takes_pure ⟨trivial, .inl rfl⟩
  · split
    · next hb =>
      subst hb
      exact takes_pure ⟨trivial, .inl rfl⟩
    · exact takes_fail _ _

/-- Bytes that are the text `s` are those that are written for it. -/
lemma toUTF8_of_fromUTF8? {w : List UInt8} {s : String}
    (h : String.fromUTF8? w.toByteArray = some s) :
    s.toUTF8.toList = w ∧ s.utf8ByteSize = w.length := by
  unfold String.fromUTF8? at h
  split at h
  · cases h
    have hlist : w.toByteArray.toList = w := by
      rw [toList_eq_toList_data, List.data_toByteArray]
    exact ⟨hlist, List.size_toByteArray⟩
  · cases h

lemma normalises_text : Normalises readText writeText (·.utf8ByteSize < lengthBound) := by
  refine normalises_word.bind fun n first hfirst => ?_
  refine (takes_bytes n).bind fun w taken hw => ?_
  obtain ⟨hlength, rfl⟩ := hw
  split
  · next s hs =>
    obtain ⟨hbytes, hsize⟩ := toUTF8_of_fromUTF8? hs
    refine takes_pure ⟨by omega, ?_⟩
    rw [writeText, hbytes, hsize, hlength, List.append_nil]
    exact hfirst.2.append (.inl rfl)
  · exact takes_fail _ _

lemma normalises_many {item : Reader α} {write : α → List UInt8} {P : α → Prop}
    (h : Normalises item write P) (n : Nat) :
    Normalises (readMany item n) (List.flatMap write) fun xs =>
      xs.length = n ∧ ∀ x ∈ xs, P x := by
  induction n with
  | zero => exact takes_pure ⟨⟨rfl, nofun⟩, .inl rfl⟩
  | succ n ih =>
    refine h.bind fun x first hx => ih.bind_pure fun xs second hxs => ?_
    obtain ⟨⟨hlength, hall⟩, hshort⟩ := hxs
    refine ⟨⟨by rw [List.length_cons, hlength], List.forall_mem_cons.2 ⟨hx.1, hall⟩⟩, ?_⟩
    rw [List.flatMap_cons]
    exact hx.2.append hshort

/-- A sequence behind its length. -/
lemma normalises_seq {item : Reader α} {write : α → List UInt8} {P : α → Prop}
    (h : Normalises item write P) :
    Normalises (readSeq item) (fun xs => varint xs.length ++ xs.flatMap write) fun xs =>
      xs.length < lengthBound ∧ ∀ x ∈ xs, P x := by
  refine normalises_word.bind fun n first hfirst => ?_
  refine (normalises_many h n).mono fun xs second hxs => ?_
  obtain ⟨⟨rfl, hall⟩, hshort⟩ := hxs
  exact ⟨⟨hfirst.1, hall⟩, hfirst.2.append hshort⟩

lemma normalises_texts : Normalises readTexts writeTexts TextsSized :=
  normalises_seq normalises_text

/-- A stream behind its length. -/
lemma normalises_stream :
    Normalises (readWord.bind takeBytes) (fun w => varint w.length ++ w)
      (·.length < lengthBound) := by
  refine normalises_word.bind fun n first hfirst => (takes_bytes n).mono fun w second hw => ?_
  obtain ⟨rfl, rfl⟩ := hw
  exact ⟨hfirst.1, hfirst.2.append (.inl rfl)⟩

/-! ### Units and constants -/

lemma normalises_unitWith {const : Reader Const} (h : Normalises const writeConst Const.Sized) :
    Normalises (readUnitWith const) writeUnit CodeUnit.Sized := by
  refine normalises_text.bind fun name w₁ hname => ?_
  refine normalises_stream.bind fun stream w₂ hstream => ?_
  refine (normalises_seq h).bind fun consts w₃ hconsts => ?_
  refine normalises_texts.bind fun names w₄ hnames => ?_
  refine normalises_texts.bind fun locals w₅ hlocals => ?_
  refine normalises_texts.bind fun cells w₆ hcells => normalises_texts.bind fun free w₇ hfree => ?_
  refine normalises_word.bind fun paramCount w₈ hcount => ?_
  refine normalises_bool.bind_pure fun variadic w₉ hvariadic => ?_
  have hparts : UnitOver.PartsSized (⟨name, stream.toArray, consts, names, locals, cells, free,
      UInt64.ofNat paramCount, variadic⟩ : CodeUnit) :=
    ⟨hname.1, hstream.1, hconsts.1.1, hnames.1, hlocals.1, hcells.1, hfree.1⟩
  have hword : (UInt64.ofNat paramCount).toNat = paramCount := UInt64.toNat_ofNat_of_lt' hcount.1
  have hshort := hname.2.append <| hstream.2.append <| hconsts.2.append <| hnames.2.append <|
    hlocals.2.append <| hcells.2.append <| hfree.2.append <| hcount.2.append hvariadic.2
  refine ⟨⟨hparts, hconsts.1.2⟩, ?_⟩
  simpa [writeUnit, writeConsts_eq_flatMap, hword] using hshort

/-- The induction is on the depth that the reader goes to. -/
lemma normalises_const (depth : Nat) : Normalises (readConst depth) writeConst Const.Sized := by
  induction depth with
  | zero => exact takes_fail _ _
  | succ depth ih =>
    refine normalises_halfWord.bind fun tag first hfirst => ?_
    obtain ⟨-, hfirst⟩ := hfirst
    match tag with
    | 0 => exact takes_pure ⟨.none, by rwa [List.append_nil]⟩
    | 1 => exact normalises_bool.bind_pure fun b taken hb => ⟨.bool b, hfirst.append hb.2⟩
    | 2 =>
      refine normalises_word.bind_pure fun n taken hn => ⟨.int _, hfirst.append ?_⟩
      rw [fold_unfold hn.1]
      exact hn.2
    | 3 =>
      refine (takes_littleEndian 8).bind_pure fun n taken hn => ⟨.float _, hfirst.append (.inl ?_)⟩
      rw [UInt64.toNat_ofNat_of_lt' hn.1]
      exact hn.2
    | 4 => exact normalises_text.bind_pure fun s taken hs => ⟨.str hs.1, hfirst.append hs.2⟩
    | 5 =>
      refine (normalises_seq ih).bind_pure fun items taken hitems =>
        ⟨.tuple hitems.1.1 hitems.1.2, ?_⟩
      rw [writeConst, writeConsts_eq_flatMap, List.append_assoc]
      exact hfirst.append hitems.2
    | 6 =>
      exact (normalises_unitWith ih).bind_pure fun unit taken hunit =>
        ⟨.code hunit.1.1 hunit.1.2, hfirst.append hunit.2⟩
    | _ + 7 => exact takes_fail _ _

end Wire

/-! ## Units -/

namespace CodeUnit

open Wire

variable {bytes : List UInt8} {unit : CodeUnit}

/-- What has been read can be written, and its own bytes undercut those that have been read, with
all that followed them. -/
lemma sized_and_undercuts (h : ofBytes bytes = .ok unit) :
    unit.Sized ∧ Undercuts unit.toBytes bytes := by
  unfold ofBytes at h
  cases hread : readUnitWith (readConst (bytes.length + 1)) bytes with
  | error e => simp [hread, Except.map] at h
  | ok result =>
    obtain ⟨read, rest⟩ := result
    simp only [hread, Except.map, Except.ok.injEq] at h
    subst h
    obtain ⟨taken, rfl, hsized, hshort⟩ :=
      normalises_unitWith (normalises_const _) bytes read rest hread
    refine ⟨hsized, ?_⟩
    rw [← List.append_nil (toBytes _)]
    refine hshort.append ?_
    cases rest with
    | nil => exact .inl rfl
    | cons b rest => exact .inr (Nat.succ_pos _)

/-- **Writing what was read normalises it.**  Of all bytes that are read as the same unit, padded
ones and ones with something behind the unit among them, those that are written for the unit are the
shortest, and no others have their length.  They are read as the unit again, and to write it once
more changes nothing. -/
theorem toBytes_shortest (h : ofBytes bytes = .ok unit) :
    unit.toBytes.length ≤ bytes.length ∧ ofBytes unit.toBytes = .ok unit ∧
    (ofBytes unit.toBytes).map toBytes = .ok unit.toBytes ∧
    ∀ other, ofBytes other = .ok unit →
      other = unit.toBytes ∨ unit.toBytes.length < other.length := by
  obtain ⟨hsized, hshort⟩ := sized_and_undercuts h
  have hread : ofBytes unit.toBytes = .ok unit := by
    have hall := reads_toBytes hsized (Nat.le_add_right unit.toBytes.length 1) []
    rw [List.append_nil] at hall
    exact ofBytes_eq_ok hall
  refine ⟨hshort.length_le, hread, by rw [hread]; rfl, fun other hother => ?_⟩
  exact (sized_and_undercuts hother).2.imp_left Eq.symm

/-- The function `f` with a return and the integer `-1`.  Every length but those of the empty
tables, the number of the constructor, the integer and the number of parameters are padded, and one
byte follows the unit. -/
def paddedBytes : List UInt8 :=
  [0x81, 0x00, 0x66, 0x81, 0x00, 0x31, 0x81, 0x80, 0x00, 0x82, 0x00, 0x81, 0x80, 0x00, 0, 0, 0, 0,
    0x80, 0x00, 0, 0xff]

/-- What they are read as. -/
def paddedUnit : CodeUnit :=
  { (.named "f" : CodeUnit) with code := #[0x31], consts := [.int (-1)] }

theorem toBytes_shortest_padded :
    ofBytes paddedBytes = .ok paddedUnit ∧ paddedBytes.length = 22 ∧
    paddedUnit.toBytes.length = 13 ∧ paddedUnit.toBytes.length ≤ paddedBytes.length ∧
    ofBytes paddedUnit.toBytes = .ok paddedUnit ∧
    (ofBytes paddedUnit.toBytes).map toBytes = .ok paddedUnit.toBytes ∧
    ∀ other, ofBytes other = .ok paddedUnit →
      other = paddedUnit.toBytes ∨ paddedUnit.toBytes.length < other.length := by
  have hread : ofBytes paddedBytes = .ok paddedUnit := by
    set_option maxRecDepth 8000 in
    rfl
  have hwritten : paddedUnit.toBytes = [1, 0x66, 1, 0x31, 1, 2, 1, 0, 0, 0, 0, 0, 0] := by
    have hvarint : ∀ n < 128, varint n = [UInt8.ofNat n] := fun n hn => varint_of_lt hn
    have hname : writeText "f" = [1, 0x66] := by
      rw [writeText, toList_eq_toList_data, varint_of_lt (by decide)]
      rfl
    have hminus : fold (-1) = 1 := by decide
    simp [paddedUnit, UnitOver.named, toBytes, writeUnit, hvarint, writeTexts, writeConsts,
      writeConst, writeBool, hname, hminus]
  exact ⟨hread, rfl, by rw [hwritten]; rfl, toBytes_shortest hread⟩

end CodeUnit

end StackMachine
