/-!
# Pieces of a text

Searching for a text inside another one, cutting a text at every occurrence of a separator, and
putting the pieces together again. Occurrences are taken from left to right and do not overlap.
-/

namespace StackMachine.Text

/-- Whether `pattern` occurs in a text. -/
def occursIn (pattern : List Char) : List Char → Bool
  | [] => pattern.isEmpty
  | c :: cs => pattern.isPrefixOf (c :: cs) || occursIn pattern cs

/-- The pieces of a text between the occurrences of a separator that is not empty. `piece` is the
reversed piece that has been begun, and `skip` counts the characters of the last occurrence that
are still to be passed over. -/
def splitFrom (separator : List Char) (skip : Nat) (piece : List Char) :
    List Char → List (List Char)
  | [] => [piece.reverse]
  | c :: cs =>
    match skip with
    | skip + 1 => splitFrom separator skip piece cs
    | 0 =>
      if separator.isPrefixOf (c :: cs) then
        piece.reverse :: splitFrom separator (separator.length - 1) [] cs
      else splitFrom separator 0 (c :: piece) cs

/-- The pieces of a text between the occurrences of a separator that is not empty. -/
def split (separator text : List Char) : List (List Char) := splitFrom separator 0 [] text

/-- The pieces with the separator between each two of them. -/
def join (separator : List Char) : List (List Char) → List Char
  | [] => []
  | [piece] => piece
  | piece :: rest => piece ++ separator ++ join separator rest

end StackMachine.Text
