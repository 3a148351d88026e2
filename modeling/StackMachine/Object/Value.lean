import StackMachine.Code.Unit
import StackMachine.Dictionary
import StackMachine.Exception
import StackMachine.Object.Callable
/-!
# Guest values

A value is either plain data or a reference into the heap. Whatever can change after it was made —
lists, maps, cursors, cells, tables of names — is a reference, so that every alias sees the change.
Strings, tuples, exceptions, bound methods and tracebacks never change and are kept in the value
itself; since guest code can ask whether two of them are the very same object, each carries the
number that it was given when it was made.
-/

namespace StackMachine

/-- The stores of a heap. -/
inductive Store where
  | list | map | cursor | cell | table | function
  deriving DecidableEq, Repr, Inhabited

/-- A place in one of the stores. -/
structure Ref (store : Store) where
  index : Nat
  deriving DecidableEq, Repr, Inhabited

/-- A code unit as an object. A unit that a program is started with has a number of its own, and a
unit nested in it is told apart by the way to it through the constant pools, innermost step
first. -/
structure CodeObject where
  origin : Nat
  path : List Nat
  unit : CodeUnit
  deriving Inhabited

/-- Whether two code objects are the same one. -/
def CodeObject.same (a b : CodeObject) : Bool := a.origin == b.origin && a.path == b.path

/-- Why the body of a finally block was entered, if not for an exception. -/
inductive Why where
  | returning | breaking | continuing
  deriving DecidableEq, Repr, Inhabited

def Why.name : Why → String
  | returning => "Return"
  | breaking => "Break"
  | continuing => "Continue"

def Why.all : List Why := [returning, breaking, continuing]

def Why.ofName? (name : String) : Option Why := all.find? fun w => w.name == name

/-- A guest value. -/
inductive Value where
  | none
  | bool (b : Bool)
  | int (n : Int64)
  | float (x : Double)
  | str (id : Nat) (text : String)
  | tuple (id : Nat) (items : List Value)
  | list (ref : Ref .list)
  | map (ref : Ref .map)
  /-- A lazy cursor over something iterable. -/
  | iterator (ref : Ref .cursor)
  | function (ref : Ref .function)
  | builtin (b : Builtin)
  /-- A method together with the value it was looked up on. -/
  | method (id : Nat) (receiver : Value) (method : Method)
  | code (object : CodeObject)
  | cell (ref : Ref .cell)
  | exceptionType (kind : ExceptionKind)
  | exception (id : Nat) (kind : ExceptionKind) (arg : Value)
  /-- The way of a caught exception, innermost frame first. -/
  | traceback (id : Nat) (entries : List TraceEntry)
  /-- The marker that a finally body finds on the stack. -/
  | why (w : Why)

instance : Inhabited Value := ⟨.none⟩

/-- The hashable values. Truth values count as the integers zero and one, at every depth. -/
inductive Key where
  | none
  | bool (b : Bool)
  | int (n : Int64)
  | str (id : Nat) (text : String)
  | tuple (items : List Key)

instance : Inhabited Key := ⟨.none⟩

namespace Key

mutual

/-- Whether two keys name the same entry. -/
def equal : Key → Key → Bool
  | .none, .none => true
  | .str _ a, .str _ b => a == b
  | .tuple as, .tuple bs => equalAll as bs
  | .bool a, .bool b => Integer.ofBool a == Integer.ofBool b
  | .bool a, .int b => Integer.ofBool a == b
  | .int a, .bool b => a == Integer.ofBool b
  | .int a, .int b => a == b
  | _, _ => false

def equalAll : List Key → List Key → Bool
  | [], [] => true
  | a :: as, b :: bs => equal a b && equalAll as bs
  | _, _ => false

end

instance : BEq Key := ⟨equal⟩

/-- One piece of the data that is fed to a hasher. -/
inductive HashPiece where
  | byte (b : UInt8)
  /-- The tag of an optional integer that is there. -/
  | present
  | int (n : Int64)
  | text (s : String)
  | length (n : Nat)
  deriving DecidableEq, Repr, Inhabited

mutual

/-- What a key feeds to a hasher: a byte for its kind, where truth values are integers, and then its
content. -/
def hashed : Key → List HashPiece
  | .none => [.byte 0]
  | .bool b => [.byte 1, .present, .int (Integer.ofBool b)]
  | .int n => [.byte 1, .present, .int n]
  | .str _ s => [.byte 2, .text s]
  | .tuple items => .byte 3 :: .length items.length :: hashedAll items

def hashedAll : List Key → List HashPiece
  | [] => []
  | k :: ks => hashed k ++ hashedAll ks

end

mutual

/-- Keys feed the same exactly when they are equal, and where one key ends can be told from what it
has fed. -/
theorem hashed_append_eq_iff : (k l : Key) → (s t : List HashPiece) →
    (k.hashed ++ s = l.hashed ++ t ↔ equal k l = true ∧ s = t)
  | .none, l, s, t => by cases l <;> simp [hashed, equal]
  | .bool b, l, s, t => by cases l <;> simp [hashed, equal]
  | .int n, l, s, t => by cases l <;> simp [hashed, equal]
  | .str id text, l, s, t => by cases l <;> simp [hashed, equal]
  | .tuple ks, .tuple ls, s, t => by
    simpa [hashed, equal] using hashedAll_append_eq_iff ks ls s t
  | .tuple ks, .none, s, t | .tuple ks, .bool _, s, t | .tuple ks, .int _, s, t
  | .tuple ks, .str .., s, t => by simp [hashed, equal]

theorem hashedAll_append_eq_iff : (ks ls : List Key) → (s t : List HashPiece) →
    (ks.length = ls.length ∧ hashedAll ks ++ s = hashedAll ls ++ t ↔
      equalAll ks ls = true ∧ s = t)
  | [], [], s, t => by simp [hashedAll, equalAll]
  | [], _ :: _, s, t => by simp [equalAll]
  | _ :: _, [], s, t => by simp [equalAll]
  | k :: ks, l :: ls, s, t => by
    have hhead := hashed_append_eq_iff k l (hashedAll ks ++ s) (hashedAll ls ++ t)
    have htail := hashedAll_append_eq_iff ks ls s t
    simp only [hashedAll, equalAll, Bool.and_eq_true, List.append_assoc, hhead,
      List.length_cons, Nat.add_right_cancel_iff]
    rw [and_left_comm, htail, and_assoc]

end

/-- Equality of keys is equality of what they feed to a hasher. -/
theorem equal_iff_hashed_eq {k l : Key} : equal k l = true ↔ k.hashed = l.hashed := by
  simpa using (hashed_append_eq_iff k l [] []).symm

/-- A key names its own entry. -/
theorem equal_self (k : Key) : equal k k = true := equal_iff_hashed_eq.2 rfl

instance : EquivBEq Key where
  rfl {k} := k.equal_self
  symm h := equal_iff_hashed_eq.2 (equal_iff_hashed_eq.1 h).symm
  trans h h' := equal_iff_hashed_eq.2 ((equal_iff_hashed_eq.1 h).trans (equal_iff_hashed_eq.1 h'))

mutual

/-- The text of a key with room for `room` more containers. -/
def textWithin (room : Nat) : Key → String
  | .none => "None"
  | .bool b => if b then "True" else "False"
  | .int n => Integer.text n
  | .str _ s => Text.Quoted.quote s
  | .tuple items =>
    if room = 0 then "(...)" else Const.tupleText (textsWithin (room - 1) items)

def textsWithin (room : Nat) : List Key → List String
  | [] => []
  | k :: ks => textWithin room k :: textsWithin room ks

end

end Key

namespace Value

/-- The name of a value's type. -/
def typeName : Value → String
  | .none => "NoneType"
  | .bool _ => "bool"
  | .int _ => "int"
  | .float _ => "float"
  | .str .. => "str"
  | .tuple .. => "tuple"
  | .list _ => "list"
  | .map _ => "dict"
  | .iterator _ => "iterator"
  | .function _ => "function"
  | .builtin _ => "builtin_function"
  | .method .. => "builtin_function_or_method"
  | .code _ => "code"
  | .cell _ => "cell"
  | .exceptionType _ => "type"
  | .exception _ kind _ => kind.name
  | .traceback .. => "traceback"
  | .why _ => "why"

/-- Whether two values are the very same object. Plain scalars are the same when they are equal,
floats when their patterns are. -/
def same : Value → Value → Bool
  | .none, .none => true
  | .bool a, .bool b => a == b
  | .int a, .int b => a == b
  | .float a, .float b => a == b
  | .str a _, .str b _ => a == b
  | .tuple a _, .tuple b _ => a == b
  | .list a, .list b => a == b
  | .map a, .map b => a == b
  | .iterator a, .iterator b => a == b
  | .function a, .function b => a == b
  | .builtin a, .builtin b => a == b
  | .method a _ _, .method b _ _ => a == b
  | .code a, .code b => a.same b
  | .cell a, .cell b => a == b
  | .exceptionType a, .exceptionType b => a == b
  | .exception a _ _, .exception b _ _ => a == b
  | .traceback a _, .traceback b _ => a == b
  | .why a, .why b => a == b
  | _, _ => false

/-- A value as a number: truth values count as zero and one. -/
inductive Number where
  | int (n : Int64)
  | float (x : Double)

/-- The number that a value is. -/
def number? : Value → Option Number
  | .int n => some (.int n)
  | .bool b => some (.int (Integer.ofBool b))
  | .float x => some (.float x)
  | _ => Option.none

/-- The float nearest to a number. -/
def Number.toDouble : Number → Double
  | .int n => Double.ofInt n.toInt
  | .float x => x

end Value

end StackMachine
