import CallTree.Gas

/-!
# Settings of the tracer

Two numbers are left to the host: the gas that a call with a value and without an input is granted,
and how far a region may reach beyond memory.
-/

namespace CallTree

/-- The settings of a tracer. -/
structure Settings where
  /-- The gas of a call that takes a value and names no input. -/
  stipend : Gas := 2300
  /-- How many bytes beyond the end of memory a region may reach. -/
  paddingLimit : UInt64 := 1048576
  deriving DecidableEq, Repr

end CallTree
