/-!
The stack that work is done on.

Some work is done by a function that calls itself, once for each level of what it works on. How deep
that can go depends on the machine that the work is done on and on what else is under way there, so
it is a parameter wherever it can make a difference: the number of calls that there is still room
for, inside each other.
-/

namespace TurboBench

/-- A stack: how many calls can be under way inside each other. -/
structure Stack where
  calls : Nat
  deriving DecidableEq, Repr

namespace Stack

/-- The levels that a recursion comes down with two calls for each of them. -/
def levels (s : Stack) : Nat :=
  s.calls / 2

/-- The stack that is assumed where nothing is known of it: what is left of a thousand calls when a
command is given. -/
def usual : Stack := ⟨985⟩

end Stack

end TurboBench
