import CallTree.Word

/-!
# Hardforks

A hardfork fixes which accounts are built into the machine. They are the accounts from 1 on up to
the last one (`isBuiltIn_iff`), and no later fork takes one away.
-/

namespace CallTree

/-- A version of the machine. -/
inductive Hardfork
  | homestead
  | byzantium
  | istanbul
  | berlin
  | cancun
  | prague
  | osaka
  deriving DecidableEq, Repr

namespace Hardfork

/-- Every hardfork, the oldest first. -/
def all : List Hardfork :=
  [homestead, byzantium, istanbul, berlin, cancun, prague, osaka]

/-- The last of the accounts built into the machine. -/
def lastBuiltIn : Hardfork → Nat
  | homestead => 4
  | byzantium => 8
  | istanbul | berlin => 9
  | cancun => 10
  | prague | osaka => 17

/-- The account is built into the machine. -/
def isBuiltIn (fork : Hardfork) (address : Address) : Bool :=
  1 ≤ address.toNat && address.toNat ≤ fork.lastBuiltIn

theorem isBuiltIn_iff {fork : Hardfork} {address : Address} :
    fork.isBuiltIn address ↔ 1 ≤ address.toNat ∧ address.toNat ≤ fork.lastBuiltIn := by
  simp [isBuiltIn]

/-- The name of a hardfork. -/
def name : Hardfork → String
  | homestead => "HOMESTEAD"
  | byzantium => "BYZANTIUM"
  | istanbul => "ISTANBUL"
  | berlin => "BERLIN"
  | cancun => "CANCUN"
  | prague => "PRAGUE"
  | osaka => "OSAKA"

/-- The hardfork with a name. -/
def ofName? (text : String) : Option Hardfork :=
  all.find? (·.name == text)

theorem ofName?_name (fork : Hardfork) : ofName? fork.name = some fork := by
  cases fork <;> decide

example : isBuiltIn berlin 0xa = false := by decide
example : isBuiltIn prague 0 = false := by decide

end Hardfork

end CallTree
