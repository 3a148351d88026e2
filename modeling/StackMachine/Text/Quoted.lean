/-!
# Quoted text

How a string is shown inside another value: between single quotes, in printable ASCII only. Tab,
line feed and carriage return have their letter, both quotes and the backslash are preceded by a
backslash, and every other character outside the printable range is given by its number in
lower-case hexadecimal. Since a quote never stands unescaped, the closing quote ends the text.
-/

namespace StackMachine.Text.Quoted

/-- The lower-case hexadecimal digits of a number. -/
def hex (n : Nat) : List Char := Nat.toDigits 16 n

/-- One character as it is written inside quotes. -/
def escape (c : Char) : List Char :=
  if c = '\t' then ['\\', 't']
  else if c = '\r' then ['\\', 'r']
  else if c = '\n' then ['\\', 'n']
  else if c = '\'' then ['\\', '\'']
  else if c = '"' then ['\\', '"']
  else if c = '\\' then ['\\', '\\']
  else if 0x20 ≤ c.toNat ∧ c.toNat ≤ 0x7e then [c]
  else '\\' :: 'u' :: '\x7b' :: (hex c.toNat ++ ['\x7d'])

/-- A whole text as it is written inside quotes. -/
def encode (cs : List Char) : List Char := cs.flatMap escape

/-- A text in its quotes. -/
def quote (s : String) : String := String.ofList ('\'' :: (encode s.toList ++ ['\'']))

end StackMachine.Text.Quoted
