import CallTree.Database.Table
import CallTree.Keccak
import CallTree.Proofs.Tracer.Operation

/-!
# Where a database keeps its code

Whether an account brings its code along is a matter of storage. A database is faithful if it makes
no difference: the code that an account brings along is the code with its hash, where the code with
the hash of the empty code is empty. Two faithful databases that answer alike but for the codes that
their accounts bring along, and that know the same codes by the hashes of these accounts, give the
same chain state. So every transaction is traced alike over both, refusals included.

A look-up by hash may fail. Then it fails alike over both, since no account with this hash brings
its code along.

Results:
1. `Database.code_bare`: a faithful database may lose the codes that its accounts bring along.
2. `Database.chainState_eq`: databases that store alike.
3. `Table.faithful`, `Table.storesAlike`: what to look at in databases held in memory.
4. `Database.trace_eq`: transactions over databases that store alike.
-/

namespace CallTree

/-- The account without the code that it brings along. -/
def Account.bare (account : Account) : Account :=
  { account with code := none }

namespace Database

variable {db db' : Database}

/-! ## 1. Codes brought along and codes looked up -/

/-- The database whose accounts bring no code along. -/
def bare (db : Database) : Database where
  account address := (db.account address).map (Option.map Account.bare)
  codeOfHash := db.codeOfHash

/-- The code with a hash. -/
def stored (db : Database) (hash : Hash) : Except String Bytes :=
  if hash = emptyCodeHash then .ok [] else db.codeOfHash hash

example : emptyCodeHash.toNat =
    (Keccak.digest []).foldl (fun number byte => 256 * number + byte.toNat) 0 := by
  decide +kernel

/-- The code that an account brings along is the one with its hash. An account with the hash of the
empty code may only bring along the empty code, whatever the look-up by hash answers there. -/
def Faithful (db : Database) : Prop :=
  ∀ address account code, db.account address = .ok (some account) → account.code = some code →
    db.stored account.codeHash = .ok code

theorem account_bare (db : Database) (address : Address) :
    db.bare.account address = (db.account address).map (Option.map Account.bare) := rfl

theorem balance_bare (db : Database) (address : Address) :
    db.bare.balance address = db.balance address := by
  simp only [balance, find, account_bare]
  rcases db.account address with cause | _ | account <;> rfl

theorem find_eq {address : Address} {found : Option Account} (h : db.account address = .ok found) :
    db.find address = .ok found := by
  rw [find, h]
  rfl

theorem code_of_error {address : Address} {cause : String} (h : db.account address = .error cause) :
    db.code address = .error (.account address cause) := by
  rw [code, find, h]
  rfl

theorem code_of_missing {address : Address} (h : db.account address = .ok none) :
    db.code address = .ok [] := by
  rw [code, find_eq h]

/-- The code of an account is the one with its hash, whether it brings it along or not. -/
theorem code_of_account (hfaithful : db.Faithful) {address : Address} {account : Account}
    (h : db.account address = .ok (some account)) :
    db.code address = (db.stored account.codeHash).mapError (.code address) := by
  cases hcode : account.code with
  | some code =>
    simp only [Database.code, find_eq h, hcode, hfaithful address account code h hcode]
    rfl
  | none =>
    simp only [Database.code, find_eq h, hcode, stored]
    split <;> rfl

theorem faithful_bare (db : Database) : db.bare.Faithful := by
  intro address account code h hcode
  rw [account_bare] at h
  rcases hfound : db.account address with cause | _ | found
  all_goals
    rw [hfound] at h
    cases h
  cases hcode

/-- A faithful database answers alike without the codes that its accounts bring along. -/
theorem code_bare (hfaithful : db.Faithful) (address : Address) :
    db.bare.code address = db.code address := by
  have hbare := db.account_bare address
  rcases h : db.account address with cause | _ | account
  · rw [code_of_error h, code_of_error (by rw [hbare, h]; rfl)]
  · rw [code_of_missing h, code_of_missing (by rw [hbare, h]; rfl)]
  · rw [code_of_account hfaithful h, code_of_account db.faithful_bare (by rw [hbare, h]; rfl)]
    rfl

/-! ## 2. Databases that store alike -/

/-- Two databases fail at the same addresses with the same messages, and have accounts at the same
addresses, with the same balances and code hashes. By the code hash of an account they know the same
code. -/
structure StoresAlike (db db' : Database) : Prop where
  accounts : ∀ address, db.bare.account address = db'.bare.account address
  codes : ∀ address account, db.account address = .ok (some account) →
    db.stored account.codeHash = db'.stored account.codeHash

theorem balance_eq (halike : db.StoresAlike db') (address : Address) :
    db.balance address = db'.balance address := by
  rw [← balance_bare db, ← balance_bare db']
  simp only [balance, find, halike.accounts]

theorem code_eq (halike : db.StoresAlike db') (hdb : db.Faithful) (hdb' : db'.Faithful)
    (address : Address) : db.code address = db'.code address := by
  rw [← code_bare hdb', ← code_bare hdb]
  have hsame := halike.accounts address
  have hbare := db.account_bare address
  rcases h : db.account address with cause | _ | account
  all_goals rw [h] at hbare
  · rw [code_of_error hbare, code_of_error (hsame ▸ hbare)]
  · rw [code_of_missing hbare, code_of_missing (hsame ▸ hbare)]
  · rw [code_of_account db.faithful_bare hbare, code_of_account db'.faithful_bare (hsame ▸ hbare)]
    exact congrArg _ (halike.codes address account h)

/-- Databases that store alike give the same chain state. -/
theorem chainState_eq (halike : db.StoresAlike db') (hdb : db.Faithful) (hdb' : db'.Faithful)
    (fork : Hardfork) : db.chainState fork = db'.chainState fork := by
  have hcode : db.code = db'.code := funext (code_eq halike hdb hdb')
  have hbalance : db.balance = db'.balance := funext (balance_eq halike)
  rw [chainState, chainState, hcode, hbalance]

end Database

/-! ## 3. Databases held in memory -/

namespace Table

variable {table table' : Table}

theorem lookup_bare (accounts : List (Address × Account)) (address : Address) :
    (accounts.map (Prod.map id Account.bare)).lookup address =
      (accounts.lookup address).map Account.bare := by
  induction accounts with
  | nil => rfl
  | cons entry accounts ih =>
    rw [List.map_cons, List.lookup_cons, List.lookup_cons, Prod.map_fst, Prod.map_snd, id_eq]
    split
    · rfl
    · exact ih

/-- A table is faithful if its entries are. -/
theorem faithful (h : ∀ entry ∈ table.accounts, ∀ code ∈ entry.2.code,
    table.database.stored entry.2.codeHash = .ok code) : table.database.Faithful := by
  intro address account code haccount hcode
  simp only [database] at haccount
  split at haccount
  next => cases haccount
  next =>
    obtain ⟨before, rest, haccounts, -⟩ := List.lookup_eq_some_iff.mp (Except.ok.inj haccount)
    exact h (address, account) (by rw [haccounts]; simp) code hcode

/-- Tables store alike if they differ only in the codes that their accounts bring along. -/
theorem storesAlike
    (haccounts : table.accounts.map (Prod.map id Account.bare) =
      table'.accounts.map (Prod.map id Account.bare))
    (hcodes : table.codes = table'.codes)
    (hfailingAccounts : table.failingAccounts = table'.failingAccounts)
    (hfailingCodes : table.failingCodes = table'.failingCodes) :
    table.database.StoresAlike table'.database where
  accounts address := by
    have hsame : (table.accounts.lookup address).map Account.bare =
        (table'.accounts.lookup address).map Account.bare := by
      rw [← lookup_bare, ← lookup_bare, haccounts]
    simp only [Database.account_bare, database, hfailingAccounts]
    split
    · rfl
    · exact congrArg Except.ok hsame
  codes _ _ _ := by
    simp only [Database.stored, database, hcodes, hfailingCodes]

end Table

/-! ## 4. Transactions over a database -/

namespace Database

variable {db db' : Database}

/-- Where faithful databases store alike, code, balance and built-in accounts are the same for every
address and under every hardfork, and any transaction is traced alike by any tracer: with the same
records or the same refusal, the same warnings and the same tracer after it. -/
theorem trace_eq (halike : db.StoresAlike db') (hdb : db.Faithful) (hdb' : db'.Faithful)
    (fork : Hardfork) :
    (∀ address, (db.chainState fork).code address = (db'.chainState fork).code address ∧
      (db.chainState fork).balance address = (db'.chainState fork).balance address ∧
      (db.chainState fork).isBuiltIn address = (db'.chainState fork).isBuiltIn address) ∧
    ∀ (t : Tracer) (steps : List Step) (tx : Transaction),
      t.trace steps (db.chainState fork) tx = t.trace steps (db'.chainState fork) tx := by
  have hsame := chainState_eq halike hdb hdb' fork
  exact ⟨fun address => ⟨code_eq halike hdb hdb' address, balance_eq halike address, rfl⟩,
    fun t steps tx => by rw [hsame]⟩

/-- The account 7 brings its code along. -/
def codeBroughtAlong : Table where
  accounts := [(7, ⟨5, 9, some [1, 2]⟩), (8, ⟨0, emptyCodeHash, none⟩)]
  codes := [(9, [1, 2])]
  failingAccounts := [(6, "no such page")]
  failingCodes := [(emptyCodeHash, "not stored")]

/-- The same accounts, where the code of the account 7 is found by its hash. -/
def codeFoundByHash : Table :=
  { codeBroughtAlong with
    accounts := [(7, ⟨5, 9, none⟩), (8, ⟨0, emptyCodeHash, some []⟩)] }

/-- The creation of the account 7, which is then given up. -/
def createAndGiveUp : List Step :=
  [{ opcode := FrameKind.create.opcode, operands := [0, 0, 0], gas := 100000, cost := 32000,
     depth := 1 },
    .idle 2 60000 0, .idle 1 50000 7,
    { opcode := FrameKind.selfDestruct.opcode, operands := [6], depth := 1, address := 7 }]

/-- A transaction without contents. -/
def nothingSent : Transaction :=
  ⟨.call, 0, 7, 0, 200000, 150000, [], [], none, none, none, none, none, none⟩

theorem trace_eq_codeFoundByHash :
    let db := codeBroughtAlong.database
    let db' := codeFoundByHash.database
    db.StoresAlike db' ∧ db.Faithful ∧ db'.Faithful ∧ db.account 7 ≠ db'.account 7 ∧
    (db'.chainState .prague).code 7 = .ok [1, 2] ∧ (db'.chainState .prague).code 8 = .ok [] ∧
    (Tracer.fresh {}).trace createAndGiveUp (db.chainState .prague) nothingSent =
      (Tracer.fresh {}).trace createAndGiveUp (db'.chainState .prague) nothingSent ∧
    let traced := (Tracer.fresh {}).trace createAndGiveUp (db'.chainState .prague) nothingSent
    (traced.tracer.forest.get? 1).bind (·.output) = some [1, 2] := by
  have halike : codeBroughtAlong.database.StoresAlike codeFoundByHash.database :=
    Table.storesAlike (by decide) rfl rfl rfl
  have hdb : codeBroughtAlong.database.Faithful :=
    Table.faithful (by
      simp only [codeBroughtAlong, List.forall_mem_cons, Option.mem_def, Option.some.injEq, forall_eq']
      exact ⟨rfl, by simp⟩)
  have hdb' : codeFoundByHash.database.Faithful :=
    Table.faithful (by simp [codeFoundByHash, stored])
  have hdiffer : codeBroughtAlong.database.account 7 ≠ codeFoundByHash.database.account 7 := by
    intro h
    cases h
  exact ⟨halike, hdb, hdb', hdiffer, rfl, rfl,
    (trace_eq halike hdb hdb' .prague).2 (Tracer.fresh {}) createAndGiveUp nothingSent,
    by decide +kernel⟩

end Database

end CallTree
