/-!
# Built-in callables

The functions of the builtin table and the methods of lists, maps and strings. Here they are only
names; what they do is told where they are called.
-/

namespace StackMachine

/-- A function of the builtin table. -/
inductive Builtin where
  | len | print | range | str | repr | int | float | abs | min | max | list | tuple
  deriving DecidableEq, Repr, Inhabited

namespace Builtin

/-- Every builtin function, in the order of the builtin table. -/
def all : List Builtin :=
  [len, print, range, str, repr, int, float, abs, min, max, list, tuple]

def name : Builtin → String
  | len => "len"
  | print => "print"
  | range => "range"
  | str => "str"
  | repr => "repr"
  | int => "int"
  | float => "float"
  | abs => "abs"
  | min => "min"
  | max => "max"
  | list => "list"
  | tuple => "tuple"

def ofName? (name : String) : Option Builtin := all.find? fun b => b.name == name

end Builtin

/-- A method of a list, a map or a string. -/
inductive Method where
  | listAppend | listExtend | listInsert | listPop | listIndex | listCount | listReverse
  | mapKeys | mapValues | mapItems | mapGet | mapPop
  | strJoin | strSplit | strUpper | strLower | strStrip
  deriving DecidableEq, Repr, Inhabited

namespace Method

def name : Method → String
  | listAppend => "append"
  | listExtend => "extend"
  | listInsert => "insert"
  | listPop | mapPop => "pop"
  | listIndex => "index"
  | listCount => "count"
  | listReverse => "reverse"
  | mapKeys => "keys"
  | mapValues => "values"
  | mapItems => "items"
  | mapGet => "get"
  | strJoin => "join"
  | strSplit => "split"
  | strUpper => "upper"
  | strLower => "lower"
  | strStrip => "strip"

def ofLists : List Method :=
  [listAppend, listExtend, listInsert, listPop, listIndex, listCount, listReverse]

def ofMaps : List Method := [mapKeys, mapValues, mapItems, mapGet, mapPop]

def ofStrings : List Method := [strJoin, strSplit, strUpper, strLower, strStrip]

/-- The method of the given name among some methods. -/
def named? (methods : List Method) (name : String) : Option Method :=
  methods.find? fun m => m.name == name

end Method

end StackMachine
