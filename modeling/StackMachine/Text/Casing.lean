import StackMachine.Text.CaseData
/-!
# Upper and lower case

The full, locale-free case conversions of Unicode on whole texts. A character may become several
ones, and only the capital sigma looks at its surroundings: it becomes the final form at the end of
a word, that is after a letter that has a case and not before one, where apostrophes, marks and the
like are passed over on both sides.
-/

namespace StackMachine.Text

/-- The shift of the run that a code point belongs to. -/
def shiftIn (runs : Array CaseRun) (n : Nat) : Option Int :=
  (runs.find? fun r => r.first ≤ n && n ≤ r.last && (n - r.first) % r.stride == 0).map (·.shift)

/-- Whether a code point lies in one of the runs. -/
def inRuns (runs : Array (Nat × Nat)) (n : Nat) : Bool :=
  runs.any fun (first, last) => first ≤ n && n ≤ last

/-- The character moved by the run it belongs to, if any. -/
def shifted (runs : Array CaseRun) (c : Char) : Char :=
  match shiftIn runs c.toNat with
  | some d => Char.ofNat ((c.toNat : Int) + d).toNat
  | none => c

/-- The upper-case form of a character. -/
def upperChar (c : Char) : List Char :=
  if c.toNat < 0x80 then [c.toUpper]
  else match upperExpansions.find? fun e => e.1 == c.toNat with
    | some e => e.2.map Char.ofNat
    | none => [shifted upperRuns c]

/-- The upper-case form of a text. -/
def upper (cs : List Char) : List Char := cs.flatMap upperChar

/-- The lower-case form of a character that does not depend on its surroundings. -/
def lowerChar (c : Char) : List Char :=
  if c.toNat < 0x80 then [c.toLower]
  else if c.toNat = 0x130 then ['i', Char.ofNat 0x307]
  else [shifted lowerRuns c]

/-- Whether a letter that has a case comes next, when ignorable characters are passed over. -/
def casedNext : List Char → Bool
  | [] => false
  | c :: cs =>
    if c.toNat < 0x80 then
      if c = '\'' ∨ c = '.' ∨ c = ':' ∨ c = '^' ∨ c.toNat = 0x60 then casedNext cs else c.isAlpha
    else if inRuns ignorableRuns c.toNat then casedNext cs
    else inRuns casedRuns c.toNat

/-- Puts the lower-case form of a text that follows `before` behind `done`, both given in
reverse. -/
def lowerOnto (before done : List Char) : List Char → List Char
  | [] => done.reverse
  | c :: cs =>
    let form :=
      if c.toNat = 0x3a3 then
        [Char.ofNat (if casedNext before && !casedNext cs then 0x3c2 else 0x3c3)]
      else lowerChar c
    lowerOnto (c :: before) (form.reverseAux done) cs

/-- The lower-case form of a text. -/
def lower (cs : List Char) : List Char := lowerOnto [] [] cs

end StackMachine.Text
