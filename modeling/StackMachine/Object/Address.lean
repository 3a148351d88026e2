import StackMachine.Object.Heap
/-!
# Addresses of containers

Tuples, lists and maps are the containers: values that are written and compared through their
contents. Since lists and maps may contain themselves, whoever walks through containers keeps the
addresses of those that it is inside of, and goes at most `nestingLimit` deep.
-/

namespace StackMachine

/-- What identifies a container. -/
inductive Address where
  | tuple (id : Nat)
  | list (ref : Ref .list)
  | map (ref : Ref .map)
  deriving DecidableEq, Repr, Inhabited

/-- How deep a walk through containers goes. -/
def nestingLimit : Nat := Const.nestingLimit

end StackMachine
