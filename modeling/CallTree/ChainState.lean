import CallTree.Refusal

/-!
# The chain state

The tracer asks the chain state three questions about an account: its code, its balance, and
whether it is built into the machine. The first two may fail.
-/

namespace CallTree

/-- What can be asked about accounts. -/
structure ChainState where
  code : Address → Except LookupError Bytes
  balance : Address → Except LookupError Word
  isBuiltIn : Address → Bool

end CallTree
