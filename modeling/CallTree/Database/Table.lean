import CallTree.Database.Basic

/-!
# Databases held in memory

A table lists the accounts and codes that exist and the look-ups that fail. A failure wins over
an entry of the same name, a code that is not listed is empty, and of two entries with one name
the first counts.
-/

namespace CallTree

/-- The entries of a database held in memory. -/
structure Table where
  accounts : List (Address × Account) := []
  codes : List (Hash × Bytes) := []
  /-- Addresses whose look-up fails, with the message. -/
  failingAccounts : List (Address × String) := []
  /-- Hashes whose look-up fails, with the message. -/
  failingCodes : List (Hash × String) := []
  deriving DecidableEq, Repr

/-- The database with the entries of a table. -/
def Table.database (table : Table) : Database where
  account address :=
    match table.failingAccounts.lookup address with
    | some cause => .error cause
    | none => .ok (table.accounts.lookup address)
  codeOfHash hash :=
    match table.failingCodes.lookup hash with
    | some cause => .error cause
    | none => .ok ((table.codes.lookup hash).getD [])

end CallTree
