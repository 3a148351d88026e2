/-!
# Printed output

Values are printed item by item or a whole line at a time. Items on one line are separated by single
spaces: an item leaves the debt of a space behind, which the next item pays and the end of the line
cancels. A line printed at once separates its own items and ends the line.

Output is either captured, and then handed over on demand, or it belongs to the console, which takes
it out of the buffer by itself.
-/

namespace StackMachine

/-- Text that has been printed and not been taken yet. -/
structure Output where
  /-- Whether the text goes to the console and is not handed over. -/
  toConsole : Bool
  text : String
  /-- Whether a space is owed before the next item of the line. -/
  owesSpace : Bool
  deriving Inhabited

namespace Output

def captured : Output := ⟨false, "", false⟩

def console : Output := ⟨true, "", false⟩

/-- Prints an item of a line. -/
def item (o : Output) (text : String) : Output :=
  { o with text := (if o.owesSpace then o.text ++ " " else o.text) ++ text, owesSpace := true }

/-- Ends the line. -/
def newline (o : Output) : Output := { o with text := o.text ++ "\n", owesSpace := false }

/-- Prints a whole line. -/
def line (o : Output) (texts : List String) : Output :=
  { o with text := o.text ++ String.intercalate " " texts, owesSpace := o.owesSpace }.newline

/-- Hands the captured text over. Of the console nothing is handed over. -/
def take (o : Output) : String × Output :=
  if o.toConsole then ("", o) else (o.text, { o with text := "" })

/-- Empties the buffer. -/
def flush (o : Output) : String × Output := (o.text, { o with text := "" })

end Output

end StackMachine
