import Mathlib.Data.List.Basic
import StackMachine.Proofs.Rendering
/-!
# Texts of plain data

Plain data are `None`, truth values, integers, strings, and the tuples, lists and maps that are made
of them.  As a tree such a value is a `Datum`, in which nothing is shared and no object has a number
of its own; `Value.Represents` says of which datum a value is an occurrence.

The main statement is that two plain values have the same text by `repr` if and only if they are
occurrences of the same datum (`repr_unambiguous`).  A text can only be read in one way, whatever
stands behind it (`Datum.unambiguous`): its first character tells what kind of datum it is of; an
integer ends where its digits end, a string at the first quote that is not escaped, and a container
at its closing bracket, before which each item is read up to its own end.
-/

namespace StackMachine

/-! ## Runs of characters -/

/-- A run of characters of one kind ends at the first one of another kind. -/
lemma append_inj_of_takeWhile {p : Char → Bool} {as bs s t : List Char} (has : ∀ c ∈ as, p c = true)
    (hbs : ∀ c ∈ bs, p c = true) (hs : s.takeWhile p = []) (ht : t.takeWhile p = [])
    (h : as ++ s = bs ++ t) : as = bs ∧ s = t := by
  have htaken := congrArg (List.takeWhile p) h
  rw [List.takeWhile_append_of_pos has, List.takeWhile_append_of_pos hbs, hs, ht, List.append_nil,
    List.append_nil] at htaken
  subst htaken
  exact ⟨rfl, List.append_cancel_left h⟩

/-! ## Integers -/

namespace Integer

lemma toList_text (n : Int64) : (text n).toList =
    if 0 ≤ n.toInt then Nat.toDigits 10 n.toInt.toNat
    else '-' :: Nat.toDigits 10 (-n.toInt).toNat := by
  rw [text, Int.toString_eq_repr, Int.repr_eq_if]
  split
  · rw [Nat.toList_repr]
  · rw [String.toList_append, Nat.toList_repr]
    rfl

lemma isDigit_of_mem {n : Nat} {c : Char} (h : c ∈ Nat.toDigits 10 n) : c.isDigit = true :=
  Nat.isDigit_of_mem_toDigits (by decide : 0 < 10) (by decide) h

lemma exists_digit (n : Nat) : ∃ c cs, Nat.toDigits 10 n = c :: cs ∧ c.isDigit = true := by
  cases h : Nat.toDigits 10 n with
  | nil => exact absurd h Nat.toDigits_ne_nil
  | cons c cs => exact ⟨c, cs, rfl, isDigit_of_mem (h ▸ List.mem_cons_self)⟩

lemma toDigits_append_inj {m n : Nat} {s t : List Char} (hs : s.takeWhile Char.isDigit = [])
    (ht : t.takeWhile Char.isDigit = []) (h : Nat.toDigits 10 m ++ s = Nat.toDigits 10 n ++ t) :
    m = n ∧ s = t := by
  obtain ⟨hdigits, hrest⟩ := append_inj_of_takeWhile (fun c => isDigit_of_mem)
    (fun c => isDigit_of_mem) hs ht h
  refine ⟨?_, hrest⟩
  have hvalue := congrArg (fun cs => Nat.ofDigitChars 10 cs 0) hdigits
  simpa [Nat.ofDigitChars_toDigits] using hvalue

/-- No digits are a sign and digits. -/
lemma toDigits_append_ne (n : Nat) (s t : List Char) : Nat.toDigits 10 n ++ s ≠ '-' :: t := by
  obtain ⟨c, cs, hdigits, hc⟩ := exists_digit n
  rw [hdigits, List.cons_append]
  intro h
  rw [(List.cons.inj h).1] at hc
  cases hc

/-- The text of an integer ends with its digits. -/
lemma text_append_inj {m n : Int64} {s t : List Char} (hs : s.takeWhile Char.isDigit = [])
    (ht : t.takeWhile Char.isDigit = [])
    (h : (text m).toList ++ s = (text n).toList ++ t) : m = n ∧ s = t := by
  rw [toList_text, toList_text] at h
  rw [← Int64.toInt_inj]
  by_cases hm : 0 ≤ m.toInt
  · by_cases hn : 0 ≤ n.toInt
    · rw [if_pos hm, if_pos hn] at h
      obtain ⟨heq, hrest⟩ := toDigits_append_inj hs ht h
      exact ⟨by omega, hrest⟩
    · rw [if_pos hm, if_neg hn] at h
      exact absurd h (toDigits_append_ne _ _ _)
  · by_cases hn : 0 ≤ n.toInt
    · rw [if_neg hm, if_pos hn] at h
      exact absurd h.symm (toDigits_append_ne _ _ _)
    · rw [if_neg hm, if_neg hn] at h
      obtain ⟨heq, hrest⟩ := toDigits_append_inj hs ht (List.cons.inj h).2
      exact ⟨by omega, hrest⟩

/-- The text of an integer begins with a sign or a digit. -/
lemma exists_initial (n : Int64) :
    ∃ c cs, (text n).toList = c :: cs ∧ (c = '-' ∨ c.isDigit = true) := by
  rw [toList_text]
  split
  · obtain ⟨c, cs, hdigits, hc⟩ := exists_digit n.toInt.toNat
    exact ⟨c, cs, hdigits, .inr hc⟩
  · exact ⟨'-', _, rfl, .inl rfl⟩

end Integer

/-! ## Strings -/

namespace Text.Quoted

lemma hexDigit_inj : ∀ m < 16, ∀ n < 16, m.digitChar = n.digitChar → m = n := by
  decide

lemma hexDigit_ne_brace : ∀ n < 16, n.digitChar ≠ '\x7d' := by
  decide

lemma brace_notMem_hex (n : Nat) : '\x7d' ∉ hex n := by
  unfold hex
  induction n using Nat.strongRecOn with
  | _ n ih =>
    by_cases hn : n < 16
    · rw [Nat.toDigits_of_lt_base hn, List.mem_singleton]
      exact (hexDigit_ne_brace n hn).symm
    · rw [Nat.toDigits_of_base_le (by decide) (Nat.le_of_not_lt hn), List.mem_append,
        List.mem_singleton]
      have hrest := ih (n / 16) (by omega)
      have hlast := hexDigit_ne_brace (n % 16) (by omega)
      exact fun h => h.elim hrest fun heq => hlast heq.symm

/-- Another digit makes a number longer. -/
lemma singleton_ne_hex_append (n : Nat) (c d : Char) : [c] ≠ hex n ++ [d] := by
  intro h
  have hlength := congrArg List.length h
  rw [List.length_append, List.length_singleton, List.length_singleton, Nat.right_eq_add,
    List.length_eq_zero_iff] at hlength
  exact Nat.toDigits_ne_nil hlength

lemma hex_inj {m n : Nat} (h : hex m = hex n) : m = n := by
  have hshort : ∀ n < 16, hex n = [n.digitChar] := fun n hn => Nat.toDigits_of_lt_base hn
  have hlong : ∀ n, ¬n < 16 → hex n = hex (n / 16) ++ [(n % 16).digitChar] := fun n hn =>
    Nat.toDigits_of_base_le (by decide) (Nat.le_of_not_lt hn)
  induction m using Nat.strongRecOn generalizing n with
  | _ m ih =>
    by_cases hm : m < 16
    · by_cases hn : n < 16
      · rw [hshort m hm, hshort n hn] at h
        exact hexDigit_inj m hm n hn (List.singleton_inj.1 h)
      · rw [hshort m hm, hlong n hn] at h
        exact absurd h (singleton_ne_hex_append _ _ _)
    · by_cases hn : n < 16
      · rw [hlong m hm, hshort n hn] at h
        exact absurd h.symm (singleton_ne_hex_append _ _ _)
      · rw [hlong m hm, hlong n hn] at h
        obtain ⟨hrest, hlast⟩ := List.append_inj' h rfl
        have hquotient := ih (m / 16) (by omega) hrest
        have hremainder := hexDigit_inj (m % 16) (by omega) (n % 16) (by omega)
          (List.singleton_inj.1 hlast)
        omega

/-- Characters that are written as a letter behind a backslash. -/
def letters : List (Char × Char) :=
  [('\t', 't'), ('\r', 'r'), ('\n', 'n'), ('\'', '\''), ('"', '"'), ('\\', '\\')]

/-- The three forms in which a character is written. -/
inductive Escape : Char → List Char → Prop
  | letter {c x : Char} (h : (c, x) ∈ letters) : Escape c ['\\', x]
  | plain {c : Char} (hquote : c ≠ '\'') (hbackslash : c ≠ '\\') : Escape c [c]
  | number {c : Char} : Escape c ('\\' :: 'u' :: '\x7b' :: (hex c.toNat ++ ['\x7d']))

lemma escape_spec (c : Char) : Escape c (escape c) := by
  by_cases hletter : ∃ x, (c, x) ∈ letters
  · obtain ⟨x, hx⟩ := hletter
    have hall : ∀ p ∈ letters, escape p.1 = ['\\', p.2] := by decide
    exact hall _ hx ▸ .letter hx
  · have hne : ∀ p ∈ letters, c ≠ p.1 := fun p hp hc => hletter ⟨p.2, hc ▸ hp⟩
    simp only [letters, List.forall_mem_cons] at hne
    obtain ⟨ht, hr, hn, hquote, hdouble, hbackslash, -⟩ := hne
    rw [escape, if_neg ht, if_neg hr, if_neg hn, if_neg hquote, if_neg hdouble, if_neg hbackslash]
    split
    · exact .plain hquote hbackslash
    · exact .number

lemma letter_inj : ∀ p ∈ letters, ∀ q ∈ letters, p.2 = q.2 → p.1 = q.1 := by
  decide

lemma letter_ne_u : ∀ p ∈ letters, p.2 ≠ 'u' := by
  decide

/-- A number ends at its closing brace. -/
lemma hex_append_inj {m n : Nat} {s t : List Char}
    (h : hex m ++ '\x7d' :: s = hex n ++ '\x7d' :: t) : m = n ∧ s = t := by
  have hdigits : ∀ n, ∀ c ∈ hex n, (c != '\x7d') = true := by
    intro n c hc
    rw [bne_iff_ne]
    rintro rfl
    exact brace_notMem_hex n hc
  obtain ⟨hnumber, hrest⟩ := append_inj_of_takeWhile (hdigits m) (hdigits n) rfl rfl h
  exact ⟨hex_inj hnumber, (List.cons.inj hrest).2⟩

/-- Where the form of a character ends can be told from the form itself. -/
lemma Escape.append_inj {c d : Char} {cs ds s t : List Char} (hc : Escape c cs) (hd : Escape d ds)
    (h : cs ++ s = ds ++ t) : c = d ∧ s = t := by
  cases hc with
  | letter hx =>
    cases hd with
    | letter hy =>
      obtain ⟨hletter, hrest⟩ := List.cons.inj (List.cons.inj h).2
      exact ⟨letter_inj _ hx _ hy hletter, hrest⟩
    | plain _ hbackslash => exact absurd (List.cons.inj h).1.symm hbackslash
    | number => exact absurd (List.cons.inj (List.cons.inj h).2).1 (letter_ne_u _ hx)
  | plain _ hbackslash =>
    cases hd with
    | letter | number => exact absurd (List.cons.inj h).1 hbackslash
    | plain => exact List.cons.inj h
  | number =>
    cases hd with
    | letter hy => exact absurd (List.cons.inj (List.cons.inj h).2).1.symm (letter_ne_u _ hy)
    | plain _ hbackslash => exact absurd (List.cons.inj h).1.symm hbackslash
    | number =>
      simp only [List.cons_append, List.append_assoc, List.cons.injEq, true_and] at h
      obtain ⟨hnumber, hrest⟩ := hex_append_inj h
      exact ⟨Char.toNat_inj.1 hnumber, hrest⟩

/-- No form begins with the closing quote. -/
lemma Escape.ne_quote {c : Char} {cs s t : List Char} (hc : Escape c cs) :
    cs ++ s ≠ '\'' :: t := by
  intro h
  cases hc with
  | letter => cases (List.cons.inj h).1
  | plain hquote => exact absurd (List.cons.inj h).1 hquote
  | number => cases (List.cons.inj h).1

/-- A quoted text ends at its closing quote. -/
lemma encode_append_inj {as bs s t : List Char}
    (h : encode as ++ '\'' :: s = encode bs ++ '\'' :: t) : as = bs ∧ s = t := by
  induction as generalizing bs with
  | nil =>
    cases bs with
    | nil => exact ⟨rfl, (List.cons.inj h).2⟩
    | cons b bs =>
      rw [encode, encode, List.flatMap_cons, List.append_assoc] at h
      exact absurd h.symm (escape_spec b).ne_quote
  | cons a as ih =>
    cases bs with
    | nil =>
      rw [encode, encode, List.flatMap_cons, List.append_assoc] at h
      exact absurd h (escape_spec a).ne_quote
    | cons b bs =>
      rw [encode, encode, List.flatMap_cons, List.flatMap_cons, List.append_assoc,
        List.append_assoc] at h
      obtain ⟨rfl, hrest⟩ := (escape_spec a).append_inj (escape_spec b) h
      obtain ⟨rfl, rfl⟩ := ih hrest
      exact ⟨rfl, rfl⟩

end Text.Quoted

/-! ## Sequences -/

section Sequences

variable {α : Type} {write : α → List Char} {close : Char} {as bs : List α} {s t : List Char}

/-- Where something is written like `a`, it is `a`, and both end at the same place.  Anything but a
digit may come next. -/
def Unambiguous (write : α → List Char) (a : α) : Prop :=
  ∀ b s t, s.takeWhile Char.isDigit = [] → t.takeWhile Char.isDigit = [] →
    write a ++ s = write b ++ t → a = b ∧ s = t

lemma intercalate_comma_cons (x : List Char) (xs : List (List Char)) :
    [',', ' '].intercalate (x :: xs) = x ++ xs.flatMap fun y => [',', ' '] ++ y := by
  induction xs generalizing x with
  | nil => simp
  | cons y ys ih =>
    rw [List.intercalate_cons_cons, ih, List.flatMap_cons, List.append_assoc, List.append_assoc]

/-- The items behind the first one, each after a comma, up to the closing bracket. -/
def afterFirst (write : α → List Char) (close : Char) (as : List α) (s : List Char) : List Char :=
  (as.map write).flatMap (fun y => [',', ' '] ++ y) ++ close :: s

lemma afterFirst_nil : afterFirst write close [] s = close :: s := rfl

lemma afterFirst_cons (a : α) :
    afterFirst write close (a :: as) s =
      ',' :: ' ' :: (write a ++ afterFirst write close as s) := by
  simp [afterFirst]

lemma takeWhile_afterFirst (hclose : close.isDigit = false) :
    (afterFirst write close as s).takeWhile Char.isDigit = [] := by
  cases as with
  | nil => rw [afterFirst_nil, List.takeWhile_cons_of_neg (by simp [hclose])]
  | cons a as =>
    rw [afterFirst_cons]
    rfl

lemma afterFirst_inj (hclose : close.isDigit = false) (hcomma : close ≠ ',')
    (has : ∀ a ∈ as, Unambiguous write a)
    (h : afterFirst write close as s = afterFirst write close bs t) : as = bs ∧ s = t := by
  induction as generalizing bs with
  | nil =>
    cases bs with
    | nil => exact ⟨rfl, (List.cons.inj h).2⟩
    | cons b bs =>
      rw [afterFirst_nil, afterFirst_cons] at h
      exact absurd (List.cons.inj h).1 hcomma
  | cons a as ih =>
    cases bs with
    | nil =>
      rw [afterFirst_nil, afterFirst_cons] at h
      exact absurd (List.cons.inj h).1.symm hcomma
    | cons b bs =>
      rw [afterFirst_cons, afterFirst_cons] at h
      obtain ⟨ha, has⟩ := List.forall_mem_cons.1 has
      obtain ⟨rfl, hrest⟩ := ha b _ _ (takeWhile_afterFirst hclose) (takeWhile_afterFirst hclose)
        (List.cons.inj (List.cons.inj h).2).2
      obtain ⟨rfl, rfl⟩ := ih has hrest
      exact ⟨rfl, rfl⟩

/-- A sequence ends at its closing bracket. -/
lemma intercalate_append_inj (hclose : close.isDigit = false) (hcomma : close ≠ ',')
    (hinitial : ∀ a s t, write a ++ s ≠ close :: t) (has : ∀ a ∈ as, Unambiguous write a)
    (h : [',', ' '].intercalate (as.map write) ++ close :: s =
      [',', ' '].intercalate (bs.map write) ++ close :: t) : as = bs ∧ s = t := by
  cases as with
  | nil =>
    cases bs with
    | nil => exact ⟨rfl, (List.cons.inj h).2⟩
    | cons b bs =>
      rw [List.map_cons, intercalate_comma_cons, List.append_assoc] at h
      exact absurd h.symm (hinitial _ _ _)
  | cons a as =>
    cases bs with
    | nil =>
      rw [List.map_cons, intercalate_comma_cons, List.append_assoc] at h
      exact absurd h (hinitial _ _ _)
    | cons b bs =>
      rw [List.map_cons, List.map_cons, intercalate_comma_cons, intercalate_comma_cons,
        List.append_assoc, List.append_assoc] at h
      obtain ⟨ha, has⟩ := List.forall_mem_cons.1 has
      obtain ⟨rfl, hrest⟩ := ha b _ _ (takeWhile_afterFirst hclose) (takeWhile_afterFirst hclose) h
      obtain ⟨rfl, rfl⟩ := afterFirst_inj hclose hcomma has hrest
      exact ⟨rfl, rfl⟩

end Sequences

/-! ## Data -/

/-- Plain data as a tree. -/
inductive Datum where
  | none
  | bool (b : Bool)
  | int (n : Int64)
  | str (s : String)
  | tuple (items : List Datum)
  | list (items : List Datum)
  | map (entries : List (Datum × Datum))
  deriving Inhabited

namespace Datum

/-- What the text of a datum is made of. -/
def outline : Datum → Outline
  | none => .atom "None"
  | bool b => .atom (if b then "True" else "False")
  | int n => .atom (Integer.text n)
  | str s => .atom (Text.Quoted.quote s)
  | tuple items => .tuple (items.map outline)
  | list items => .list (items.map outline)
  | map entries => .map (entries.map fun entry => (entry.1.outline, entry.2.outline))
decreasing_by
  · decreasing_tactic
  · decreasing_tactic
  all_goals
    have hlt := List.sizeOf_lt_of_mem ‹entry ∈ entries›
    have hentry : sizeOf entry = 1 + sizeOf entry.1 + sizeOf entry.2 := Prod.mk.sizeOf_spec _ _
    rw [map.sizeOf_spec]
    omega

/-- The text of a datum. -/
def text (d : Datum) : String := d.outline.text

/-! ## Characters of texts -/

/-- The characters of a text. -/
def chars (d : Datum) : List Char := d.text.toList

def entryChars (entry : Datum × Datum) : List Char :=
  entry.1.chars ++ ':' :: ' ' :: entry.2.chars

lemma text_list (items : List Datum) :
    (list items).text = "[" ++ String.intercalate ", " (items.map text) ++ "]" := by
  rw [text, outline, Outline.text, Outline.texts_eq, List.map_map]
  rfl

lemma text_map (entries : List (Datum × Datum)) :
    (map entries).text = "\x7b" ++ String.intercalate ", "
      (entries.map fun entry => entry.1.text ++ ": " ++ entry.2.text) ++ "\x7d" := by
  rw [text, outline, Outline.text, Outline.entryTexts_eq, List.map_map]
  rfl

lemma text_tuple (items : List Datum) :
    (tuple items).text = "(" ++ String.intercalate ", " (items.map text) ++
      (if items.length = 1 then ",)" else ")") := by
  rw [text, outline, Outline.text, Outline.texts_eq, List.map_map, List.length_map]
  rfl

lemma chars_none : none.chars = ['N', 'o', 'n', 'e'] := by
  rw [chars, text, outline]
  rfl

lemma chars_bool (b : Bool) :
    (bool b).chars = if b then ['T', 'r', 'u', 'e'] else ['F', 'a', 'l', 's', 'e'] := by
  rw [chars, text, outline]
  cases b <;> rfl

lemma chars_int (n : Int64) : (int n).chars = (Integer.text n).toList := by
  rw [chars, text, outline, Outline.text]

lemma chars_str (s : String) :
    (str s).chars = '\'' :: (Text.Quoted.encode s.toList ++ ['\'']) := by
  rw [chars, text, outline, Outline.text]
  exact String.toList_ofList

lemma toList_separated (texts : List String) :
    (String.intercalate ", " texts).toList = [',', ' '].intercalate (texts.map String.toList) :=
  String.toList_intercalate

lemma chars_list (items : List Datum) :
    (list items).chars = '[' :: ([',', ' '].intercalate (items.map chars) ++ [']']) := by
  rw [chars, text_list, String.toList_append, String.toList_append, toList_separated, List.map_map]
  rfl

lemma chars_map (entries : List (Datum × Datum)) :
    (map entries).chars =
      '\x7b' :: ([',', ' '].intercalate (entries.map entryChars) ++ ['\x7d']) := by
  have hentries : (entries.map fun entry => entry.1.text ++ ": " ++ entry.2.text).map
      String.toList = entries.map entryChars := by
    rw [List.map_map]
    refine List.map_congr_left fun entry _ => ?_
    show (entry.1.text ++ ": " ++ entry.2.text).toList = _
    rw [String.toList_append, String.toList_append, List.append_assoc]
    rfl
  rw [chars, text_map, String.toList_append, String.toList_append, toList_separated, hentries]
  rfl

lemma chars_singleton (d : Datum) : (tuple [d]).chars = '(' :: (d.chars ++ [',', ')']) := by
  rw [chars, text_tuple, List.map_singleton, String.intercalate_singleton,
    if_pos List.length_singleton, String.toList_append, String.toList_append]
  rfl

lemma chars_tuple {items : List Datum} (h : items.length ≠ 1) :
    (tuple items).chars = '(' :: ([',', ' '].intercalate (items.map chars) ++ [')']) := by
  rw [chars, text_tuple, if_neg h, String.toList_append, String.toList_append, toList_separated,
    List.map_map]
  rfl

/-! ## First characters -/

/-- The kinds of data. -/
inductive Kind where
  | none | bool | int | str | tuple | list | map

def kind : Datum → Kind
  | none => .none
  | bool _ => .bool
  | int _ => .int
  | str _ => .str
  | tuple _ => .tuple
  | list _ => .list
  | map _ => .map

/-- The kind of a datum whose text begins with a character. -/
def Kind.ofInitial? (c : Char) : Option Kind :=
  if c = 'N' then some .none
  else if c = 'T' ∨ c = 'F' then some .bool
  else if c = '\'' then some .str
  else if c = '(' then some .tuple
  else if c = '[' then some .list
  else if c = '\x7b' then some .map
  else if c = '-' ∨ c.isDigit = true then some .int
  else Option.none

lemma Kind.ofInitial?_int {c : Char} (h : c = '-' ∨ c.isDigit = true) :
    ofInitial? c = some .int := by
  have hne : ∀ x, (x == '-' || x.isDigit) = false → c ≠ x := by
    rintro x hx rfl
    rw [Bool.or_eq_false_iff, beq_eq_false_iff_ne] at hx
    exact h.elim hx.1 fun hdigit => Bool.false_ne_true (hx.2.symm.trans hdigit)
  rw [ofInitial?, if_neg (hne 'N' rfl), if_neg (not_or.2 ⟨hne 'T' rfl, hne 'F' rfl⟩),
    if_neg (hne '\'' rfl), if_neg (hne '(' rfl), if_neg (hne '[' rfl), if_neg (hne '\x7b' rfl),
    if_pos h]

/-- The first character tells the kind. -/
lemma exists_initial (d : Datum) :
    ∃ c cs, d.chars = c :: cs ∧ Kind.ofInitial? c = some d.kind := by
  cases d with
  | none => exact ⟨'N', _, chars_none, rfl⟩
  | bool b =>
    cases b with
    | true => exact ⟨'T', _, chars_bool true, rfl⟩
    | false => exact ⟨'F', _, chars_bool false, rfl⟩
  | int n =>
    obtain ⟨c, cs, hchars, hc⟩ := Integer.exists_initial n
    exact ⟨c, cs, (chars_int n).trans hchars, Kind.ofInitial?_int hc⟩
  | str s => exact ⟨'\'', _, chars_str s, rfl⟩
  | tuple items =>
    match items with
    | [] => exact ⟨'(', _, chars_tuple nofun, rfl⟩
    | [d] => exact ⟨'(', _, chars_singleton d, rfl⟩
    | d :: d' :: rest => exact ⟨'(', _, chars_tuple (by simp), rfl⟩
  | list items => exact ⟨'[', _, chars_list items, rfl⟩
  | map entries => exact ⟨'\x7b', _, chars_map entries, rfl⟩

/-- No text begins with a closing bracket. -/
lemma chars_append_ne {close : Char} (hclose : Kind.ofInitial? close = Option.none) (d : Datum)
    (s t : List Char) : d.chars ++ s ≠ close :: t := by
  obtain ⟨c, cs, hchars, hc⟩ := d.exists_initial
  rw [hchars]
  intro h
  rw [(List.cons.inj h).1, hclose] at hc
  cases hc

lemma kind_eq_of_append_eq {d e : Datum} {s t : List Char} (h : d.chars ++ s = e.chars ++ t) :
    d.kind = e.kind := by
  obtain ⟨c, cs, hchars, hc⟩ := d.exists_initial
  obtain ⟨c', cs', hchars', hc'⟩ := e.exists_initial
  rw [hchars, hchars'] at h
  rw [(List.cons.inj h).1, hc'] at hc
  exact (Option.some.inj hc).symm

/-! ## Reading in one way only -/

/-- What stands behind an opening bracket, or behind an opening quote. -/
lemma behind_opening {opening : Char} {as bs closing closing' s t : List Char}
    (h : opening :: (as ++ closing) ++ s = opening :: (bs ++ closing') ++ t) :
    as ++ (closing ++ s) = bs ++ (closing' ++ t) := by
  rw [← List.append_assoc, ← List.append_assoc]
  exact (List.cons.inj h).2

lemma unambiguous_entry {entry : Datum × Datum} (hkey : Unambiguous chars entry.1)
    (hvalue : Unambiguous chars entry.2) : Unambiguous entryChars entry := by
  intro b s t hs ht h
  rw [entryChars, entryChars, List.append_assoc, List.append_assoc] at h
  obtain ⟨hfirst, hrest⟩ := hkey b.1 _ _ rfl rfl h
  obtain ⟨hsecond, rfl⟩ := hvalue b.2 _ _ hs ht (List.cons.inj (List.cons.inj hrest).2).2
  exact ⟨Prod.ext hfirst hsecond, rfl⟩

lemma unambiguous_bool (b : Bool) : Unambiguous chars (bool b) := by
  intro e s t _ _ h
  have hkind := kind_eq_of_append_eq h
  cases e with
  | bool b' =>
    rw [chars_bool, chars_bool] at h
    cases b <;> cases b'
    · exact ⟨rfl, List.append_cancel_left h⟩
    · cases (List.cons.inj h).1
    · cases (List.cons.inj h).1
    · exact ⟨rfl, List.append_cancel_left h⟩
  | _ => cases hkind

lemma unambiguous_int (n : Int64) : Unambiguous chars (int n) := by
  intro e s t hs ht h
  have hkind := kind_eq_of_append_eq h
  cases e with
  | int n' =>
    rw [chars_int, chars_int] at h
    obtain ⟨rfl, hrest⟩ := Integer.text_append_inj hs ht h
    exact ⟨rfl, hrest⟩
  | _ => cases hkind

lemma unambiguous_str (x : String) : Unambiguous chars (str x) := by
  intro e s t _ _ h
  have hkind := kind_eq_of_append_eq h
  cases e with
  | str x' =>
    rw [chars_str, chars_str] at h
    obtain ⟨htext, hrest⟩ := Text.Quoted.encode_append_inj (behind_opening h)
    exact ⟨congrArg str (String.toList_inj.1 htext), hrest⟩
  | _ => cases hkind

lemma unambiguous_list {items : List Datum} (hitems : ∀ d ∈ items, Unambiguous chars d) :
    Unambiguous chars (list items) := by
  intro e s t _ _ h
  have hkind := kind_eq_of_append_eq h
  cases e with
  | list items' =>
    rw [chars_list, chars_list] at h
    obtain ⟨rfl, hrest⟩ := intercalate_append_inj rfl (by decide) (chars_append_ne rfl) hitems
      (behind_opening h)
    exact ⟨rfl, hrest⟩
  | _ => cases hkind

lemma unambiguous_map {entries : List (Datum × Datum)}
    (hentries : ∀ entry ∈ entries, Unambiguous entryChars entry) :
    Unambiguous chars (map entries) := by
  have hinitial : ∀ entry s t, entryChars entry ++ s ≠ '\x7d' :: t := by
    intro entry s t
    rw [entryChars, List.append_assoc]
    exact chars_append_ne rfl _ _ _
  intro e s t _ _ h
  have hkind := kind_eq_of_append_eq h
  cases e with
  | map entries' =>
    rw [chars_map, chars_map] at h
    obtain ⟨rfl, hrest⟩ := intercalate_append_inj rfl (by decide) hinitial hentries
      (behind_opening h)
    exact ⟨rfl, hrest⟩
  | _ => cases hkind

/-- Behind the only item of a tuple there is a comma, too, but then the bracket. -/
lemma tuple_append_ne_singleton {d : Datum} {items : List Datum} {s t : List Char}
    (hlength : items.length ≠ 1)
    (hfirst : ∀ a ∈ items.head?, ∀ s t, s.takeWhile Char.isDigit = [] →
      t.takeWhile Char.isDigit = [] → a.chars ++ s = d.chars ++ t → s = t) :
    (tuple items).chars ++ s ≠ (tuple [d]).chars ++ t := by
  rw [chars_tuple hlength, chars_singleton]
  intro h
  have hrest := behind_opening h
  match items with
  | [] => exact chars_append_ne rfl _ _ _ hrest.symm
  | [a] => exact hlength rfl
  | a :: b :: rest =>
    rw [List.map_cons, List.map_cons, intercalate_comma_cons, List.append_assoc] at hrest
    have hbehind := hfirst a rfl _ _ rfl rfl hrest
    cases (List.cons.inj (List.cons.inj hbehind).2).1

lemma unambiguous_tuple {items : List Datum} (hitems : ∀ d ∈ items, Unambiguous chars d) :
    Unambiguous chars (tuple items) := by
  intro e s t _ _ h
  have hkind := kind_eq_of_append_eq h
  cases e with
  | tuple items' =>
    by_cases hone : items.length = 1
    · obtain ⟨d, rfl⟩ := List.length_eq_one_iff.1 hone
      have hd := hitems d List.mem_cons_self
      by_cases hone' : items'.length = 1
      · obtain ⟨d', rfl⟩ := List.length_eq_one_iff.1 hone'
        rw [chars_singleton, chars_singleton] at h
        obtain ⟨rfl, hrest⟩ := hd d' _ _ rfl rfl (behind_opening h)
        exact ⟨rfl, List.append_cancel_left hrest⟩
      · refine absurd h.symm (tuple_append_ne_singleton hone' fun a _ s t hs ht heq => ?_)
        exact (hd a t s ht hs heq.symm).2.symm
    · by_cases hone' : items'.length = 1
      · obtain ⟨d', rfl⟩ := List.length_eq_one_iff.1 hone'
        refine absurd h (tuple_append_ne_singleton hone fun a ha s t hs ht heq => ?_)
        exact (hitems a (List.mem_of_mem_head? ha) d' s t hs ht heq).2
      · rw [chars_tuple hone, chars_tuple hone'] at h
        obtain ⟨rfl, hrest⟩ := intercalate_append_inj rfl (by decide) (chars_append_ne rfl) hitems
          (behind_opening h)
        exact ⟨rfl, hrest⟩
  | _ => cases hkind

mutual

/-- **A text can be read in one way only.** -/
lemma unambiguous : (d : Datum) → Unambiguous chars d
  | none => fun e s t _ _ h => by
    have hkind := kind_eq_of_append_eq h
    cases e <;> cases hkind
    exact ⟨rfl, List.append_cancel_left h⟩
  | bool b => unambiguous_bool b
  | int n => unambiguous_int n
  | str x => unambiguous_str x
  | tuple items => unambiguous_tuple (unambiguous_items items)
  | list items => unambiguous_list (unambiguous_items items)
  | map entries => unambiguous_map (unambiguous_entries entries)

lemma unambiguous_items : (items : List Datum) → ∀ d ∈ items, Unambiguous chars d
  | [] => List.forall_mem_nil _
  | d :: ds => List.forall_mem_cons.2 ⟨unambiguous d, unambiguous_items ds⟩

lemma unambiguous_entries :
    (entries : List (Datum × Datum)) → ∀ entry ∈ entries, Unambiguous entryChars entry
  | [] => List.forall_mem_nil _
  | (key, value) :: rest => List.forall_mem_cons.2
    ⟨unambiguous_entry (unambiguous key) (unambiguous value), unambiguous_entries rest⟩

end

end Datum

/-! ## Values -/

namespace Key

mutual

/-- The datum that a key is an occurrence of. -/
def datum : Key → Datum
  | .none => .none
  | .bool b => .bool b
  | .int n => .int n
  | .str _ s => .str s
  | .tuple items => .tuple (data items)

def data : List Key → List Datum
  | [] => []
  | k :: ks => datum k :: data ks

end

mutual

/-- The outline of a key that is written completely. -/
lemma outline_eq : (k : Key) → {opened : Nat} → opened + k.depth ≤ nestingLimit →
    k.outline opened = k.datum.outline
  | .none, _, _ | .bool _, _, _ | .int _, _, _ | .str .., _, _ => by
    rw [outline, datum, Datum.outline]
  | .tuple items, opened, h => by
    rw [depth] at h
    have hitems : opened + 1 + depths items ≤ nestingLimit := by omega
    rw [outline, if_neg (by omega), outlines_eq items hitems, datum, Datum.outline]

lemma outlines_eq : (ks : List Key) → {opened : Nat} → opened + depths ks ≤ nestingLimit →
    outlines opened ks = (data ks).map Datum.outline
  | [], _, _ => rfl
  | k :: ks, opened, h => by
    rw [depths] at h
    rw [outlines, data, List.map_cons, outline_eq k (by omega), outlines_eq ks (by omega)]

end

end Key

namespace Value

/-- The value is an occurrence of a datum: of the same kind, with the same integer or string, with
items of the same data, or with entries of the same data in the same order. -/
inductive Represents (h : Heap) : Value → Datum → Prop
  | none : Represents h .none .none
  | bool {b : Bool} : Represents h (.bool b) (.bool b)
  | int {n : Int64} : Represents h (.int n) (.int n)
  | str {id : Nat} {s : String} : Represents h (.str id s) (.str s)
  | tuple {id : Nat} {items : List Value} {f : Value → Datum}
    (hitems : ∀ c ∈ items, Represents h c (f c)) :
    Represents h (.tuple id items) (.tuple (items.map f))
  | list {r : Ref .list} {f : Value → Datum}
    (hitems : ∀ c ∈ (h.list r).toList, Represents h c (f c)) :
    Represents h (.list r) (.list ((h.list r).toList.map f))
  | map {r : Ref .map} {f : Value → Datum}
    (hvalues : ∀ entry ∈ (h.map r).entries, Represents h entry.2 (f entry.2)) :
    Represents h (.map r)
      (.map ((h.map r).entries.map fun entry => (entry.1.datum, f entry.2)))

/-- The value is of one of the seven types of plain data. -/
def IsPlain : Value → Prop
  | .none | .bool _ | .int _ | .str .. | .tuple .. | .list _ | .map _ => True
  | _ => False

end Value

namespace Place

open Value

/-- Everything below a place is of a plain type, and nothing has to be elided: no container is
inside itself, and none inside of too many others. -/
structure Plain (h : Heap) (p : Place) : Prop where
  plain : ∀ q, Relation.ReflTransGen (Below h) p q → q.value.IsPlain
  unfolds : Unfolds h p

variable {h : Heap} {p q : Place} {opened : List Address} {v : Value} {d : Datum}

lemma Plain.below (hp : Plain h p) (hpq : Below h p q) : Plain h q :=
  ⟨(forall_reached_iff.1 hp.plain).2 q hpq, (unfolds_iff.1 hp.unfolds).2 q hpq⟩

/-- Plain data is an occurrence of some datum. -/
lemma exists_represents (hp : Plain h p) : ∃ d, Represents h p.value d := by
  induction p using (below_wellFounded h).induction with
  | _ p ih =>
    obtain ⟨opened, v⟩ := p
    have hwritten := hp.unfolds.written _ .refl
    have hplain := hp.plain _ .refl
    have hcontents : ∀ a, v.address? = some a → ∀ c ∈ v.contents h, ∃ d, Represents h c d :=
      fun a ha c hc => ih _ ⟨hwritten, .content ha hc⟩ (hp.below (.content ha hc))
    cases v with
    | none => exact ⟨_, .none⟩
    | bool b => exact ⟨_, .bool⟩
    | int n => exact ⟨_, .int⟩
    | str id s => exact ⟨_, .str⟩
    | tuple id items =>
      choose! f hf using hcontents _ rfl
      exact ⟨_, .tuple hf⟩
    | list r =>
      choose! f hf using hcontents _ rfl
      exact ⟨_, .list hf⟩
    | map r =>
      choose! f hf using hcontents _ rfl
      exact ⟨_, .map fun entry hentry => hf _ (List.mem_map_of_mem hentry)⟩
    | _ => exact hplain.elim

/-- A value in which nothing is elided has the outline of its datum. -/
lemma outlines_of_represents (hd : Represents h v d) (hv : Unfolds h ⟨opened, v⟩) :
    Outlines h true ⟨opened, v⟩ d.outline := by
  induction hd generalizing opened with
  | none | int | str =>
    rw [Datum.outline]
    exact .atom (by constructor)
  | @bool b =>
    rw [Datum.outline]
    exact .atom (by cases b <;> constructor)
  | tuple _ ih =>
    have hwritten := hv.written _ .refl
    have hitems := ((unfolds_container_iff rfl hwritten).1 hv).2
    rw [Datum.outline, List.map_map]
    exact .tuple hwritten fun c hc => ih c hc (hitems c hc)
  | list _ ih =>
    have hwritten := hv.written _ .refl
    have hitems := ((unfolds_container_iff rfl hwritten).1 hv).2
    rw [Datum.outline, List.map_map]
    exact .list hwritten fun c hc => ih c hc (hitems c hc)
  | @map r f _ ih =>
    have hwritten := hv.written _ .refl
    obtain ⟨hkeys, hvalues⟩ := (unfolds_container_iff rfl hwritten).1 hv
    have hmap : Outlines h true ⟨opened, .map r⟩ (.map ((h.map r).entries.map fun entry =>
        (entry.1.outline (opened.length + 1), (f entry.2).outline))) :=
      .map (f := fun c => (f c).outline) hwritten fun entry hentry =>
        ih entry hentry (hvalues entry.2 (List.mem_map_of_mem hentry))
    have hentries : ∀ entry ∈ (h.map r).entries,
        (entry.1.outline (opened.length + 1), (f entry.2).outline) =
          (entry.1.datum.outline, (f entry.2).outline) := fun entry hentry => by
      rw [entry.1.outline_eq (hkeys entry.1 (List.mem_map_of_mem hentry))]
    rw [List.map_congr_left hentries] at hmap
    rw [Datum.outline, List.map_map]
    exact hmap

/-- The text of a value in which nothing is elided is that of the datum. -/
lemma text_of_represents (hd : Represents h v d) (hv : Unfolds h ⟨opened, v⟩) :
    text h true ⟨opened, v⟩ = d.text := (outlines_of_represents hd hv).text_eq

end Place

/-- **The text of plain data is unambiguous.**  Let two values be plain data, maybe in different
heaps: everything in them is `None`, a truth value, an integer, a string, a tuple, a list or a map;
no container is inside itself; and containers are nested at most `nestingLimit` deep, where tuples
in the key of a map count.  They have the same text by `repr` if and only if they are occurrences of
the same datum, with the same items in the same places and the same entries in the same order. -/
theorem repr_unambiguous {h h' : Heap} {v w : Value} (hv : Place.Plain h ⟨[], v⟩)
    (hw : Place.Plain h' ⟨[], w⟩) :
    v.repr h = w.repr h' ↔ ∃ d, v.Represents h d ∧ w.Represents h' d := by
  obtain ⟨d, hd⟩ := Place.exists_represents hv
  obtain ⟨e, he⟩ := Place.exists_represents hw
  have hdtext : v.repr h = d.text := Place.text_of_represents hd hv.unfolds
  have hetext : w.repr h' = e.text := Place.text_of_represents he hw.unfolds
  constructor
  · intro heq
    have hchars : d.chars ++ [] = e.chars ++ [] := by
      rw [Datum.chars, Datum.chars, ← hdtext, ← hetext, heq]
    obtain ⟨rfl, -⟩ := d.unambiguous e [] [] rfl rfl hchars
    exact ⟨d, hd, he⟩
  · rintro ⟨d, hd, he⟩
    exact (Place.text_of_represents hd hv.unfolds).trans
      (Place.text_of_represents he hw.unfolds).symm

/-- A list of one string, which has some number, and whose text looks like the end of one string and
the beginning of another one. -/
def quotingList (id : Nat) : Heap := { Heap.empty with lists := #[#[.str id "', '"]] }

lemma plain_quotingList (id : Nat) : Place.Plain (quotingList id) ⟨[], .list ⟨0⟩⟩ := by
  have hwritten : ¬Place.Elided ⟨[], .list ⟨0⟩⟩ := by
    rintro ⟨a, -, hmem | hfull⟩
    · cases hmem
    · exact absurd hfull (by decide)
  have hcontents : ∀ c ∈ (Value.list ⟨0⟩).contents (quotingList id), c = .str id "', '" :=
    fun c hc => List.mem_singleton.1 hc
  constructor
  · refine Place.forall_reached_iff.2 ⟨trivial, fun q hq => ?_⟩
    cases hq with
    | content ha hc =>
      obtain rfl := hcontents _ hc
      refine Place.forall_reached_iff.2 ⟨trivial, fun r hr => ?_⟩
      cases hr with
      | content ha' => cases ha'
  · refine (Place.unfolds_container_iff rfl hwritten).2 ⟨List.forall_mem_nil _, fun c hc => ?_⟩
    obtain rfl := hcontents c hc
    exact Place.unfolds_of_atom rfl nofun

/-- The number of the string does not show. -/
theorem repr_unambiguous_of_quotingList :
    ∃ d, (Value.list ⟨0⟩).Represents (quotingList 0) d ∧
      (Value.list ⟨0⟩).Represents (quotingList 7) d :=
  (repr_unambiguous (plain_quotingList 0) (plain_quotingList 7)).1 (by decide +kernel)

end StackMachine
