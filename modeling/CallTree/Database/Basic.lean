import CallTree.ChainState
import CallTree.Hardfork

/-!
# Chain databases

A database finds accounts by address and code by hash. An account may bring its code along;
otherwise the code is the one with the account's code hash, and no look-up is needed for the hash
of the empty code. An account that does not exist has no code and no balance.
-/

namespace CallTree

/-- The hash of the empty code. -/
def emptyCodeHash : Hash :=
  0xc5d2460186f7233c927e7db2dcc703c0e500b653ca82273b7bfad8045d85a470

/-- An account of a database. -/
structure Account where
  balance : Word
  codeHash : Hash
  /-- The code, if the account brings it along. -/
  code : Option Bytes
  deriving DecidableEq, Repr

/-- A store of accounts and of code, whose look-ups may fail with a message. -/
structure Database where
  account : Address → Except String (Option Account)
  codeOfHash : Hash → Except String Bytes

namespace Database

/-- The account at an address, if there is one. -/
def find (db : Database) (address : Address) : Except LookupError (Option Account) :=
  (db.account address).mapError (.account address)

/-- The code of the account at an address. -/
def code (db : Database) (address : Address) : Except LookupError Bytes :=
  match db.find address with
  | .error e => .error e
  | .ok none => .ok []
  | .ok (some account) =>
    match account.code with
    | some code => .ok code
    | none =>
      if account.codeHash = emptyCodeHash then .ok []
      else (db.codeOfHash account.codeHash).mapError (.code address)

/-- The balance of the account at an address. -/
def balance (db : Database) (address : Address) : Except LookupError Word :=
  match db.find address with
  | .error e => .error e
  | .ok none => .ok 0
  | .ok (some account) => .ok account.balance

/-- The chain state that a database gives under the rules of a hardfork. -/
def chainState (db : Database) (fork : Hardfork) : ChainState where
  code := db.code
  balance := db.balance
  isBuiltIn := fork.isBuiltIn

end Database

end CallTree
