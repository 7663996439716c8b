/-
# Accounting.Restore -- an omitted call is debited once

`restore_liability` works on tables that come from a backup: a reservation is missing, its
core may have survived, and each of the two balances is from before the call (`held` is
the sum of what survives) or from after it (`held` is that sum and the reserve).  Nothing
is assumed of the calls that survive beyond what their columns hold (`Rows`).

Both balances are written with the same new sum, whichever snapshot each of them is, so
the books balance again; any other balance refuses the restoration.
-/
import ApiSecurityPlatform.Accounting.Conservation

namespace ApiSecurityPlatform.Accounting

open ApiSecurityPlatform.Theory

set_option autoImplicit false

/-- What the columns hold in any state of the tables: both inserts of a core write the
balances of its key, the `CHECK`s keep every amount from falling below zero, and a
`BigInteger` ends at `MAX_N`. -/
structure Rows (db : Db) : Prop where
  accountNamed : ∀ k c, db.calls.row k = some c → c.accountBalance = balanceId k.scope .account
  taskNamed : ∀ k c, db.calls.row k = some c → c.taskBalance = balanceId k.scope .task
  amounts : ∀ k c r d, db.calls.row k = some c → c.reservation = some r → 0 ≤ r.held d ∧ 0 ≤ r.actual d
  settledFits : ∀ id b d, db.budgets.row id = some b → b.balance.settled d ≤ maxN
  heldFits : ∀ id b d, db.budgets.row id = some b → b.balance.held d ≤ maxN

/-- The balance is the sum of its surviving reservations, with or without the missing
reserve. -/
def Snapshot (db : Db) (receipt : Receipt) (id : BalanceId) (b : Balance) : Prop :=
  (∀ d, b.settled d = actualSum db id d) ∧
    ((∀ d, b.held d = heldSum db id d) ∨ ∀ d, b.held d = heldSum db id d + receipt.reserved d)

/-- The balance is the sum of its reservations, and in range. -/
def Balanced (db : Db) (id : BalanceId) (b : Balance) : Prop :=
  ∀ d, b.settled d = actualSum db id d ∧ b.held d = heldSum db id d ∧
    0 ≤ b.settled d ∧ b.settled d ≤ maxN ∧ 0 ≤ b.held d ∧ b.held d ≤ maxN

/-- No balance spends less, counts fewer calls or leaves its cancellation. -/
structure Balance.Kept (b b' : Balance) : Prop where
  settled : b'.settled = b.settled
  calls : b.calls ≤ b'.calls
  wallNs : b.wallNs ≤ b'.wallNs
  cancelled : b.state = .cancelled → b'.state = .cancelled
  active : b'.state = .active → b.state = .active

theorem Balance.Kept.refl (b : Balance) : b.Kept b := ⟨rfl, le_rfl, le_rfl, id, id⟩

theorem Balance.restore_kept (b : Balance) (held : Amount) (calls : Int) : b.Kept (b.restore held calls) := by
  refine ⟨rfl, le_max_left _ _, le_max_left _ _, fun cancelled => if_pos cancelled, fun active => ?_⟩
  change (if b.state = .cancelled then BalanceState.cancelled else .pausedUnknown) = .active at active
  split at active <;> cases active

section Restore

variable {H : Hashes} {uuid : Uuids} {readScope : Scope} {key : ReservationKey} {decisionId ownerId : Id}
  {evidence : ParentEvidence} {covered : Bool} {db db' : Db}

theorem columnSum_nonneg (id : BalanceId) (column : Reservation → Int)
    (nonneg : ∀ k c r, db.calls.row k = some c → c.reservation = some r → 0 ≤ column r) :
    0 ≤ columnSum db id column := by
  refine Table.sum_nonneg fun k c found => ?_
  split
  · cases reserved : c.reservation with
    | none => exact le_rfl
    | some r => exact nonneg k c r found reserved
  · exact le_rfl

/-- A reservation put where there was none adds its summand, whether or not its core
survived. -/
theorem columnSum_restore {call : Call} {row : Reservation}
    (absent : ∀ old ∈ db.calls.row key, old.reservation = none)
    (place : db.calls.row key = some call ∨ db.calls.row key = none)
    (calls : db'.calls = db.calls.put key { call with reservation := some row }) (id : BalanceId)
    (column : Reservation → Int) :
    columnSum db' id column = columnSum db id column + if call.names id then column row else 0 := by
  rcases place with survived | missing
  · have exchanged := db.calls.sum_put_of_some
      (fun _ c => if c.names id then c.reservation.elim 0 column else 0)
      { call with reservation := some row } survived
    have named : ({ call with reservation := some row } : Call).names id ↔ call.names id := Iff.rfl
    simp only [named, absent call survived, Option.elim_some, Option.elim_none] at exchanged
    unfold columnSum
    rw [calls]
    split at exchanged <;> rename_i decided <;> simp only [decided, if_true, if_false] <;> omega
  · exact columnSum_insert missing calls rfl id column

/-- What a restoration leaves. -/
structure Restored (db db' : Db) (key : ReservationKey) (receipt : Receipt) : Prop where
  snapshots : ∀ kind, ∃ b, db.budgets.row (balanceId key.scope kind) = some b ∧
    Snapshot db receipt (balanceId key.scope kind) b.balance
  reservation : ∃ call row, db'.calls.row key = some call ∧ call.reservation = some row ∧
    row.state = .inDoubt ∧ row.receipt = receipt ∧ row.held = receipt.reserved ∧ row.actual = fun _ => 0
  balanced : ∀ kind, ∃ b, db'.budgets.row (balanceId key.scope kind) = some b ∧
    Balanced db' (balanceId key.scope kind) b.balance
  others : ∀ id b, (∀ kind, id ≠ balanceId key.scope kind) → db.budgets.row id = some b →
    db'.budgets.row id = some b ∧ (Balanced db id b.balance → Balanced db' id b.balance)
  kept : ∀ id b, db.budgets.row id = some b → ∃ b', db'.budgets.row id = some b' ∧
    b'.policy = b.policy ∧ b.balance.Kept b'.balance
  known : ∀ id b', db'.budgets.row id = some b' → ∃ b, db.budgets.row id = some b

theorem restoreLiability_restored (rows : Rows db)
    (done : restoreLiability H uuid readScope key decisionId ownerId evidence covered db = .ok db') :
    Restored db db' key evidence.receipt := by
  obtain ⟨row, account, task, inserted, receipt, inDoubt, accountChecked, taskChecked⟩ :=
    restoreLiability_inserted done
  obtain ⟨accountSettled, accountHeld, accountFits⟩ := checkRestorable_ok accountChecked
  obtain ⟨taskSettled, taskHeld, taskFits⟩ := checkRestorable_ok taskChecked
  obtain ⟨call, calls, placed⟩ := inserted.calls
  have place : db.calls.row key = some call ∨ db.calls.row key = none := placed.imp id And.left
  have atAccount : call.accountBalance = balanceId key.scope .account :=
    placed.elim (rows.accountNamed key call) fun fresh => fresh.2.1
  have atTask : call.taskBalance = balanceId key.scope .task :=
    placed.elim (rows.taskNamed key call) fun fresh => fresh.2.2
  have sums := columnSum_restore inserted.absent place calls
  have heldNonneg (id : BalanceId) (d : Dimension) : 0 ≤ heldSum db id d :=
    columnSum_nonneg id _ fun k c r found reserved => (rows.amounts k c r d found reserved).1
  have actualNonneg (id : BalanceId) (d : Dimension) : 0 ≤ actualSum db id d :=
    columnSum_nonneg id _ fun k c r found reserved => (rows.amounts k c r d found reserved).2
  have actualSame (id : BalanceId) (d : Dimension) : actualSum db' id d = actualSum db id d := by
    rw [actualSum_eq, sums, inserted.actual, ite_self, add_zero]
    rfl
  have accountRow : db'.budgets.row (balanceId key.scope .account) = some ⟨account.policy,
      account.balance.restore (fun d => heldSum db (balanceId key.scope .account) d + row.receipt.reserved d)
        (callCount db (balanceId key.scope .account) + 1)⟩ := by
    rw [inserted.budgets, Table.row_put_of_ne _ _ (balanceId_ne _ _), Table.row_put_self]
  have taskRow : db'.budgets.row (balanceId key.scope .task) = some ⟨task.policy,
      task.balance.restore (fun d => heldSum db (balanceId key.scope .task) d + row.receipt.reserved d)
        (callCount db (balanceId key.scope .task) + 1)⟩ := by
    rw [inserted.budgets, Table.row_put_self]
  have debited (id : BalanceId) (names : call.names id) (d : Dimension) :
      heldSum db' id d = heldSum db id d + evidence.receipt.reserved d := by
    rw [heldSum_eq, sums, if_pos names, inserted.held, receipt]
    rfl
  have untouched (id : BalanceId) (foreign : ∀ kind, id ≠ balanceId key.scope kind) (d : Dimension) :
      heldSum db' id d = heldSum db id d := by
    have unnamed : ¬ call.names id := by
      rintro (same | same)
      · exact foreign .account (same.symm.trans atAccount)
      · exact foreign .task (same.symm.trans atTask)
    rw [heldSum_eq, sums, if_neg unnamed, add_zero]
    rfl
  have reserved := evidence.receipt.reserved_nonneg
  refine ⟨?_, ?_, ?_, ?_, ?_, ?_⟩
  · intro kind
    cases kind with
    | account => exact ⟨account, inserted.accountFound, accountSettled, accountHeld⟩
    | task => exact ⟨task, inserted.taskFound, taskSettled, taskHeld⟩
  · refine ⟨_, row, by rw [calls, Table.row_put_self], rfl, inDoubt, receipt, ?_, inserted.actual⟩
    rw [inserted.held, receipt]
  · intro kind
    cases kind with
    | account =>
        refine ⟨_, accountRow, fun d => ?_⟩
        rw [actualSame, debited _ (.inl atAccount), receipt]
        have settled := accountSettled d
        have nonneg := actualNonneg (balanceId key.scope .account) d
        have room := rows.settledFits _ _ d inserted.accountFound
        have total := heldNonneg (balanceId key.scope .account) d
        exact ⟨settled, rfl, settled ▸ nonneg, room, Int.add_nonneg total (reserved d), accountFits d⟩
    | task =>
        refine ⟨_, taskRow, fun d => ?_⟩
        rw [actualSame, debited _ (.inr atTask), receipt]
        have settled := taskSettled d
        have nonneg := actualNonneg (balanceId key.scope .task) d
        have room := rows.settledFits _ _ d inserted.taskFound
        have total := heldNonneg (balanceId key.scope .task) d
        exact ⟨settled, rfl, settled ▸ nonneg, room, Int.add_nonneg total (reserved d), taskFits d⟩
  · intro id b foreign found
    constructor
    · rw [inserted.budgets, Table.row_put_of_ne _ _ (foreign .task), Table.row_put_of_ne _ _ (foreign .account)]
      exact found
    · intro balanced d
      rw [actualSame, untouched id foreign]
      exact balanced d
  · intro id b found
    by_cases isTask : id = balanceId key.scope .task
    · subst isTask
      obtain rfl := Option.some.inj (found.symm.trans inserted.taskFound)
      exact ⟨_, taskRow, rfl, b.balance.restore_kept _ _⟩
    · by_cases isAccount : id = balanceId key.scope .account
      · subst isAccount
        obtain rfl := Option.some.inj (found.symm.trans inserted.accountFound)
        exact ⟨_, accountRow, rfl, b.balance.restore_kept _ _⟩
      · refine ⟨b, ?_, rfl, .refl _⟩
        rw [inserted.budgets, Table.row_put_of_ne _ _ isTask, Table.row_put_of_ne _ _ isAccount]
        exact found
  · intro id b' found
    rw [inserted.budgets] at found
    obtain ⟨rfl, -⟩ | ⟨-, rfl, -⟩ | ⟨-, -, old⟩ := Table.row_put_put_cases found
    · exact ⟨task, inserted.taskFound⟩
    · exact ⟨account, inserted.accountFound⟩
    · exact ⟨b', old⟩

/-- A balance that is neither snapshot refuses the restoration. -/
theorem restoreLiability_refuses {kind : ScopeKind} {b : Budget} (rows : Rows db)
    (found : db.budgets.row (balanceId key.scope kind) = some b)
    (neither : ¬ Snapshot db evidence.receipt (balanceId key.scope kind) b.balance) :
    ∃ code, restoreLiability H uuid readScope key decisionId ownerId evidence covered db = .error code := by
  cases done : restoreLiability H uuid readScope key decisionId ownerId evidence covered db with
  | error code => exact ⟨code, rfl⟩
  | ok db' =>
      obtain ⟨b', found', snapshot⟩ := (restoreLiability_restored rows done).snapshots kind
      obtain rfl := Option.some.inj (found.symm.trans found')
      exact absurd snapshot neither

/-- **Restoring an omitted liability balances the books.**  A restoration that succeeds
started from two snapshots, each from before or after the call, and leaves both balances
equal to the sums with the call in doubt and its reserve held in full; every balance of
the tables is balanced then if the balances of other scopes were; no count falls and no
cancelled balance comes back.  From any other state it is refused and changes no row. -/
theorem restore_liability (rows : Rows db) :
    (∀ db', restoreLiability H uuid readScope key decisionId ownerId evidence covered db = .ok db' →
      Restored db db' key evidence.receipt ∧
      ((∀ id b, db.budgets.row id = some b → (∀ kind, id ≠ balanceId key.scope kind) →
          Balanced db id b.balance) →
        ∀ id b, db'.budgets.row id = some b → Balanced db' id b.balance)) ∧
    ∀ kind b, db.budgets.row (balanceId key.scope kind) = some b →
      ¬ Snapshot db evidence.receipt (balanceId key.scope kind) b.balance →
      (∃ code, restoreLiability H uuid readScope key decisionId ownerId evidence covered db = .error code) ∧
        (Op.restoreLiability uuid readScope key decisionId ownerId evidence covered).apply H db = db := by
  constructor
  · intro db' done
    have restored := restoreLiability_restored rows done
    refine ⟨restored, fun others id b' found => ?_⟩
    by_cases own : ∃ kind, id = balanceId key.scope kind
    · obtain ⟨kind, rfl⟩ := own
      obtain ⟨b, found', balanced⟩ := restored.balanced kind
      rwa [Option.some.inj (found.symm.trans found')]
    · have foreign : ∀ kind, id ≠ balanceId key.scope kind := fun kind same => own ⟨kind, same⟩
      obtain ⟨b, before⟩ := restored.known id b' found
      obtain ⟨after, stays⟩ := restored.others id b foreign before
      obtain rfl := Option.some.inj (found.symm.trans after)
      exact stays (others id _ before foreign)
  · intro kind b found neither
    obtain ⟨code, refused⟩ := restoreLiability_refuses rows found neither
    refine ⟨⟨code, refused⟩, ?_⟩
    show commit db (restoreLiability H uuid readScope key decisionId ownerId evidence covered db) = db
    rw [refused]
    rfl

end Restore

/-- A backup that lost the reservation of a call: its core survived, the account is from
after the call and the task from before. -/
def partialBackup : Db := { Db.empty with
  budgets := (Table.empty.put (balanceId sampleScope .account)
      ⟨samplePolicy, openingBalance.charge minimumReserved⟩).put (balanceId sampleScope .task)
      ⟨samplePolicy, openingBalance⟩
  calls := Table.empty.put (sampleKey 1)
    ⟨sampleCore 1, balanceId sampleScope .account, balanceId sampleScope .task, none⟩ }

def sampleEvidence : ParentEvidence where
  core := sampleCore 1
  receipt := ⟨sampleKey 1, 3, 1, 1, minimumReserved, 500, minimumReserved_self, minimumReserved_le_maxN⟩
  digest := 4

theorem partialBackup_rows : Rows partialBackup := by
  have calls (k : ReservationKey) (c : Call) (found : partialBackup.calls.row k = some c) :
      k = sampleKey 1 ∧
        c = ⟨sampleCore 1, balanceId sampleScope .account, balanceId sampleScope .task, none⟩ := by
    change (Table.empty.put _ _).row k = some c at found
    rw [Table.row_put] at found
    split at found
    · exact ⟨‹_›, (Option.some.inj found).symm⟩
    · cases found
  have budgets (id : BalanceId) (b : Budget) (d : Dimension) (found : partialBackup.budgets.row id = some b) :
      b.balance.settled d ≤ maxN ∧ b.balance.held d ≤ maxN := by
    obtain ⟨-, rfl⟩ | ⟨-, -, rfl⟩ | ⟨-, -, old⟩ := Table.row_put_put_cases found
    · cases d <;> exact ⟨by decide, by decide⟩
    · cases d <;> exact ⟨by decide, by decide⟩
    · cases old
  refine ⟨?_, ?_, ?_, fun id b d found => (budgets id b d found).1, fun id b d found => (budgets id b d found).2⟩
  · intro k c found
    obtain ⟨rfl, rfl⟩ := calls k c found
    rfl
  · intro k c found
    obtain ⟨rfl, rfl⟩ := calls k c found
    rfl
  · intro k c r d found reserved
    obtain ⟨rfl, rfl⟩ := calls k c found
    cases reserved

theorem restore_liability_partial_backup :
    ∃ db', restoreLiability sampleHashes id sampleScope (sampleKey 1) 5 6 sampleEvidence true partialBackup =
        .ok db' ∧ Restored partialBackup db' (sampleKey 1) sampleEvidence.receipt := by
  cases done : restoreLiability sampleHashes id sampleScope (sampleKey 1) 5 6 sampleEvidence true
      partialBackup with
  | ok db' => exact ⟨db', rfl, ((restore_liability partialBackup_rows).1 db' done).1⟩
  | error code =>
      have accepted : (restoreLiability sampleHashes id sampleScope (sampleKey 1) 5 6 sampleEvidence true
          partialBackup).isOk = true := by decide +kernel
      rw [done] at accepted
      cases accepted

end ApiSecurityPlatform.Accounting
