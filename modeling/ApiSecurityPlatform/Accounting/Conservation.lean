/-
# Accounting.Conservation -- every balance is the sum of its reservations

Inside a transaction the argument is about what the *other* calls of a balance
hold and have settled: no move changes it, because every move adds the same amount
to the reservation and to both balances (`Move.others`).  Across transactions the
overwritten summand is exchanged in the two sums, and everything else stands.
-/
import ApiSecurityPlatform.Accounting.Effects

namespace ApiSecurityPlatform.Accounting

open ApiSecurityPlatform.Theory

set_option autoImplicit false

/-! ## One transaction -/

namespace Txn

/-- What the other calls hold of the account and of the task, and what they have
settled there. -/
def others (t : Txn) (d : Dimension) : Int × Int × Int × Int :=
  (t.account.held d - t.row.held d, t.task.held d - t.row.held d,
    t.account.settled d - t.row.actual d, t.task.settled d - t.row.actual d)

/-- The amounts of a transaction are counts, and the balances cover the call. -/
structure Sound (t : Txn) : Prop where
  held : ∀ d, 0 ≤ t.row.held d
  actual : ∀ d, 0 ≤ t.row.actual d
  accountHeld : ∀ d, t.row.held d ≤ t.account.held d ∧ t.account.held d ≤ maxN
  taskHeld : ∀ d, t.row.held d ≤ t.task.held d ∧ t.task.held d ≤ maxN
  accountSettled : ∀ d, t.row.actual d ≤ t.account.settled d ∧ t.account.settled d ≤ maxN
  taskSettled : ∀ d, t.row.actual d ≤ t.task.settled d ∧ t.task.settled d ≤ maxN

variable {t t' : Txn}

theorem le_wanted (t : Txn) (incoming : Option Observation) (d : Dimension) :
    t.row.held d ≤ t.wanted incoming d := by
  unfold wanted
  split
  · exact le_trans (le_max_left _ _) (le_max_left _ _)
  · exact le_max_left _ _

/-- `_retain` never lets go of anything. -/
theorem le_retained (t : Txn) (incoming : Option Observation) (d : Dimension) :
    t.row.held d ≤ t.retained incoming d := by
  unfold retained
  split
  · simp only
    split
    · exact le_rfl
    · exact le_max_left _ _
  · exact t.le_wanted incoming d

/-- What `_retain` adds fits both balances. -/
theorem retained_fits (sound : t.Sound) (incoming : Option Observation) (d : Dimension) :
    t.account.held d + (t.retained incoming d - t.row.held d) ≤ maxN ∧
      t.task.held d + (t.retained incoming d - t.row.held d) ≤ maxN := by
  have accountFits := (sound.accountHeld d).2
  have taskFits := (sound.taskHeld d).2
  unfold retained
  split
  · simp only
    split
    · omega
    · rename_i fits
      simp only [overflows, not_or, not_lt] at fits
      omega
  · rename_i fits
    simp only [overflows, not_or, not_lt] at fits
    omega

theorem others_retain (t : Txn) (incoming : Option Observation) (d : Dimension) :
    (t.retain incoming).others d = t.others d := by
  simp only [others, retain_row, retain_account, retain_task, Balance.hold, Prod.mk.injEq, and_true]
  omega

theorem Sound.retain (sound : t.Sound) (incoming : Option Observation) : (t.retain incoming).Sound where
  held d := le_trans (sound.held d) (t.le_retained incoming d)
  actual := sound.actual
  accountHeld d := by
    have covered := (sound.accountHeld d).1
    have fits := (retained_fits sound incoming d).1
    simp only [retain_row, retain_account, Balance.hold]
    omega
  taskHeld d := by
    have covered := (sound.taskHeld d).1
    have fits := (retained_fits sound incoming d).2
    simp only [retain_row, retain_task, Balance.hold]
    omega
  accountSettled := sound.accountSettled
  taskSettled := sound.taskSettled

theorem retains_others (t : Txn) (kept : List (Option Observation)) (d : Dimension) :
    (kept.foldl Txn.retain t).others d = t.others d := by
  induction kept generalizing t with
  | nil => rfl
  | cons incoming rest ih => rw [List.foldl_cons, ih, others_retain]

theorem Sound.retains (sound : t.Sound) (kept : List (Option Observation)) :
    (kept.foldl Txn.retain t).Sound := by
  induction kept generalizing t with
  | nil => exact sound
  | cons incoming rest ih => exact ih (sound.retain incoming)

theorem Sound.pause (sound : t.Sound) (state : ReservationState) : (t.pause state).Sound :=
  ⟨sound.held, sound.actual, sound.accountHeld, sound.taskHeld, sound.accountSettled,
    sound.taskSettled⟩

end Txn

/-- **No move changes what the other calls hold or have settled.** -/
theorem Move.others {H : Hashes} {uuid : Uuids} {t t' : Txn} (move : Move H uuid t t')
    (d : Dimension) : t'.others d = t.others d := by
  cases move with
  | event written =>
      obtain ⟨draws, rfl⟩ | ⟨eid, draws, -, -, rfl⟩ := Txn.event_cases written <;> rfl
  | note => rfl
  | close => rfl
  | freeze kept unsettled => exact t.retains_others kept d
  | settle paid fits done =>
      obtain ⟨-, -, -, -, -, -, row, account, task, -⟩ := Txn.settle_ok done
      simp only [Txn.others, row, account, task, Balance.settle, Prod.mk.injEq]
      omega

theorem Move.sound {H : Hashes} {uuid : Uuids} {t t' : Txn} (move : Move H uuid t t')
    (sound : t.Sound) : t'.Sound := by
  cases move with
  | event written =>
      obtain ⟨draws, rfl⟩ | ⟨eid, draws, -, -, rfl⟩ := Txn.event_cases written <;>
        exact ⟨sound.held, sound.actual, sound.accountHeld, sound.taskHeld, sound.accountSettled,
          sound.taskSettled⟩
  | note | close =>
      exact ⟨sound.held, sound.actual, sound.accountHeld, sound.taskHeld, sound.accountSettled,
        sound.taskSettled⟩
  | freeze kept unsettled => exact (sound.retains kept).pause _
  | settle paid fits done =>
      obtain ⟨-, -, -, -, -, -, row, account, task, -⟩ := Txn.settle_ok done
      simp only [Txn.unrepresentable, not_exists, not_or, not_not] at fits
      refine ⟨?_, ?_, ?_, ?_, ?_, ?_⟩ <;> intro d <;>
        have bounds := actual_bounds paid d <;> have range := fits d <;>
        have held := sound.held d <;> have accountHeld := sound.accountHeld d <;>
        have taskHeld := sound.taskHeld d <;> have accountSettled := sound.accountSettled d <;>
        have taskSettled := sound.taskSettled d <;>
        simp only [row, account, task, Balance.settle] <;> omega

theorem Moves.others {H : Hashes} {uuid : Uuids} {t t' : Txn} (moves : Moves H uuid t t')
    (d : Dimension) : t'.others d = t.others d :=
  moves.preserves (I := fun u => u.others d = t.others d)
    (fun _ _ move same => (move.others d).trans same) rfl

theorem Moves.sound {H : Hashes} {uuid : Uuids} {t t' : Txn} (moves : Moves H uuid t t')
    (sound : t.Sound) : t'.Sound :=
  moves.preserves (fun _ _ => Move.sound) sound

/-! ## The tables -/

/-- The invariant of the accounts. -/
structure Conserved (db : Db) : Prop where
  reserved : ∀ k c, db.calls.row k = some c → ∃ r, c.reservation = some r ∧
    ∀ d, 0 ≤ r.held d ∧ 0 ≤ r.actual d
  accountNamed : ∀ k c, db.calls.row k = some c → c.accountBalance = balanceId k.scope .account
  taskNamed : ∀ k c, db.calls.row k = some c → c.taskBalance = balanceId k.scope .task
  funded : ∀ k c id, db.calls.row k = some c → c.names id → id ∈ db.budgets.keys
  settled : ∀ id b d, db.budgets.row id = some b →
    b.balance.settled d = actualSum db id d ∧ b.balance.settled d ≤ maxN
  held : ∀ id b d, db.budgets.row id = some b →
    b.balance.held d = heldSum db id d ∧ b.balance.held d ≤ maxN
  caps : ∀ id b d, db.budgets.row id = some b → countInRange (b.policy.cap d)

theorem Conserved.empty : Conserved .empty := by
  constructor <;> simp [Db.empty]

section Sums

variable {db db' : Db} {key : ReservationKey} {call : Call} {row : Reservation}

/-- `SUM` of one column over the reservations of a balance. -/
def columnSum (db : Db) (id : BalanceId) (column : Reservation → Int) : Int :=
  db.calls.sum fun _ c => if c.names id then c.reservation.elim 0 column else 0

theorem heldSum_eq (db : Db) (id : BalanceId) (d : Dimension) :
    heldSum db id d = columnSum db id fun r => r.held d := rfl

theorem actualSum_eq (db : Db) (id : BalanceId) (d : Dimension) :
    actualSum db id d = columnSum db id fun r => r.actual d := rfl

/-- Overwriting one reservation exchanges its summand. -/
theorem columnSum_put {old : Reservation} (found : db.calls.row key = some call)
    (reserved : call.reservation = some old)
    (calls : db'.calls = db.calls.put key { call with reservation := some row }) (id : BalanceId)
    (column : Reservation → Int) : columnSum db' id column = columnSum db id column +
      if call.names id then column row - column old else 0 := by
  have exchanged := db.calls.sum_put_of_some
    (fun _ c => if c.names id then c.reservation.elim 0 column else 0)
    { call with reservation := some row } found
  have named : ({ call with reservation := some row } : Call).names id ↔ call.names id := Iff.rfl
  simp only [named, reserved, Option.elim_some] at exchanged
  unfold columnSum
  rw [calls]
  split at exchanged <;> rename_i decided <;> simp only [decided, if_true, if_false] <;> omega

/-- A new reservation adds its summand. -/
theorem columnSum_insert (absent : db.calls.row key = none)
    (calls : db'.calls = db.calls.put key call) (reserved : call.reservation = some row)
    (id : BalanceId) (column : Reservation → Int) : columnSum db' id column =
      columnSum db id column + if call.names id then column row else 0 := by
  unfold columnSum
  rw [calls, db.calls.sum_put_of_none _ _ absent]
  simp only [reserved, Option.elim_some]

theorem columnSum_congr (calls : db'.calls = db.calls) (id : BalanceId)
    (column : Reservation → Int) : columnSum db' id column = columnSum db id column := by
  unfold columnSum
  rw [calls]

end Sums

/-! ## Effects -/

namespace Conserved

variable {H : Hashes} {db db' : Db}

/-- A balance covers each of its calls. -/
theorem covers (conserved : Conserved db) {key : ReservationKey} {call : Call} {row : Reservation}
    {id : BalanceId} {b : Budget} (found : db.calls.row key = some call)
    (reserved : call.reservation = some row) (names : call.names id)
    (atBalance : db.budgets.row id = some b) (d : Dimension) :
    row.held d ≤ b.balance.held d ∧ row.actual d ≤ b.balance.settled d := by
  have summand (column : Reservation → Int) (nonneg : ∀ k c r, db.calls.row k = some c →
      c.reservation = some r → 0 ≤ column r) : column row ≤ columnSum db id column := by
    let summands : ReservationKey → Call → Int := fun _ c =>
      if c.names id then c.reservation.elim 0 column else 0
    have nonneg (k : ReservationKey) (c : Call) (found : db.calls.row k = some c) :
        0 ≤ summands k c := by
      simp only [summands]
      split
      · obtain ⟨r, reserved, -⟩ := conserved.reserved k c found
        simpa [reserved] using nonneg k c r found reserved
      · exact le_rfl
    have one : summands key call ≤ db.calls.sum summands := Table.le_sum nonneg found
    simpa [columnSum, summands, names, reserved] using one
  have nonneg (k : ReservationKey) (c : Call) (r : Reservation) (found : db.calls.row k = some c)
      (reserved : c.reservation = some r) : 0 ≤ r.held d ∧ 0 ≤ r.actual d := by
    obtain ⟨r', reserved', bounds⟩ := conserved.reserved k c found
    obtain rfl := Option.some.inj (reserved.symm.trans reserved')
    exact bounds d
  rw [(conserved.held id b d atBalance).1, (conserved.settled id b d atBalance).1]
  exact ⟨summand _ fun k c r found reserved => (nonneg k c r found reserved).1,
    summand _ fun k c r found reserved => (nonneg k c r found reserved).2⟩

/-- The dictionaries of an opened call are sound. -/
theorem opened (conserved : Conserved db) {key : ReservationKey} {t : Txn} {core : BindingCore}
    (opened : openCall H db key none = .ok (t, core)) : t.Sound := by
  obtain ⟨-, -, -, atAccount, atTask, call, found, reserved, -⟩ := openCall_ok opened
  obtain ⟨row, reserved', nonneg⟩ := conserved.reserved key call found
  obtain rfl := Option.some.inj (reserved.symm.trans reserved')
  have account := conserved.covers found reserved (.inl (conserved.accountNamed key call found)) atAccount
  have task := conserved.covers found reserved (.inr (conserved.taskNamed key call found)) atTask
  exact ⟨fun d => (nonneg d).1, fun d => (nonneg d).2,
    fun d => ⟨(account d).1, (conserved.held _ _ d atAccount).2⟩,
    fun d => ⟨(task d).1, (conserved.held _ _ d atTask).2⟩,
    fun d => ⟨(account d).2, (conserved.settled _ _ d atAccount).2⟩,
    fun d => ⟨(task d).2, (conserved.settled _ _ d atTask).2⟩⟩

/-- A state with the same amounts everywhere. -/
theorem transport (conserved : Conserved db)
    (rows : ∀ k c', db'.calls.row k = some c' → ∃ c, db.calls.row k = some c ∧
      c'.accountBalance = c.accountBalance ∧ c'.taskBalance = c.taskBalance ∧
      ∀ r, c.reservation = some r → ∃ r', c'.reservation = some r' ∧ r'.held = r.held ∧
        r'.actual = r.actual)
    (heldSums : ∀ id d, heldSum db' id d = heldSum db id d)
    (actualSums : ∀ id d, actualSum db' id d = actualSum db id d)
    (budgets : ∀ id b', db'.budgets.row id = some b' → ∃ b, db.budgets.row id = some b ∧
      b'.policy = b.policy ∧ b'.balance.settled = b.balance.settled ∧ b'.balance.held = b.balance.held)
    (keys : ∀ id ∈ db.budgets.keys, id ∈ db'.budgets.keys) : Conserved db' where
  reserved k c' found := by
    obtain ⟨c, found, -, -, kept⟩ := rows k c' found
    obtain ⟨r, reserved, nonneg⟩ := conserved.reserved k c found
    obtain ⟨r', reserved', held, actual⟩ := kept r reserved
    exact ⟨r', reserved', by rwa [held, actual]⟩
  accountNamed k c' found := by
    obtain ⟨c, found, named, -⟩ := rows k c' found
    rw [named, conserved.accountNamed k c found]
  taskNamed k c' found := by
    obtain ⟨c, found, -, named, -⟩ := rows k c' found
    rw [named, conserved.taskNamed k c found]
  funded k c' id found names := by
    obtain ⟨c, found, account, task, -⟩ := rows k c' found
    refine keys id (conserved.funded k c id found ?_)
    rwa [Call.names, account, task] at names
  settled id b' d found := by
    obtain ⟨b, found, -, settled, -⟩ := budgets id b' found
    rw [settled, actualSums]
    exact conserved.settled id b d found
  held id b' d found := by
    obtain ⟨b, found, -, -, held⟩ := budgets id b' found
    rw [held, heldSums]
    exact conserved.held id b d found
  caps id b' d found := by
    obtain ⟨b, found, policy, -⟩ := budgets id b' found
    rw [policy]
    exact conserved.caps id b d found

theorem install (conserved : Conserved db) {id : BalanceId} {policy : Policy}
    (absent : db.budgets.row id = none) (caps : ∀ d, countInRange (policy.cap d)) :
    Conserved { db with budgets := db.budgets.put id ⟨policy, openingBalance⟩ } := by
  -- a balance that did not exist is named by no call
  have unnamed (k : ReservationKey) (c : Call) (found : db.calls.row k = some c) : ¬ c.names id := by
    intro names
    obtain ⟨b, found⟩ := Table.row_of_mem (conserved.funded k c id found names)
    rw [absent] at found
    cases found
  have zero (column : Reservation → Int) : columnSum db id column = 0 :=
    Table.sum_eq_zero fun k c found => if_neg (unnamed k c found)
  have fits : (0 : Int) ≤ maxN := by decide
  have rows (j : BalanceId) (b : Budget)
      (found : (db.budgets.put id ⟨policy, openingBalance⟩).row j = some b) :
      (j = id ∧ b = ⟨policy, openingBalance⟩) ∨ db.budgets.row j = some b := by
    rw [Table.row_put] at found
    split at found
    · rename_i same
      exact .inl ⟨same, (Option.some.inj found).symm⟩
    · exact .inr found
  refine ⟨conserved.reserved, conserved.accountNamed, conserved.taskNamed, ?_, ?_, ?_, ?_⟩
  · intro k c j found names
    exact Table.mem_keys_put_of_mem _ _ (conserved.funded k c j found names)
  · intro j b d found
    obtain ⟨rfl, rfl⟩ | old := rows j b found
    · exact ⟨(zero _).symm, fits⟩
    · exact conserved.settled j b d old
  · intro j b d found
    obtain ⟨rfl, rfl⟩ | old := rows j b found
    · exact ⟨(zero _).symm, fits⟩
    · exact conserved.held j b d old
  · intro j b d found
    obtain ⟨rfl, rfl⟩ | old := rows j b found
    · exact caps d
    · exact conserved.caps j b d old

/-- A call is inserted with its reserve, and both balances are written with the
new total. -/
theorem insert (conserved : Conserved db) {key : ReservationKey} {row : Reservation}
    {account task : Budget} {account' task' : Balance}
    (inserted : Inserted db db' key row account task account' task')
    (accountHeld : ∀ d, account'.held d = heldSum db (balanceId key.scope .account) d + row.held d ∧
      account'.held d ≤ maxN)
    (taskHeld : ∀ d, task'.held d = heldSum db (balanceId key.scope .task) d + row.held d ∧
      task'.held d ≤ maxN)
    (accountSettled : account'.settled = account.balance.settled)
    (taskSettled : task'.settled = task.balance.settled) : Conserved db' := by
  have absent : db.calls.row key = none := by
    cases found : db.calls.row key with
    | none => rfl
    | some c =>
        obtain ⟨r, reserved, -⟩ := conserved.reserved key c found
        rw [inserted.absent c found] at reserved
        cases reserved
  obtain ⟨call, calls, placed⟩ := inserted.calls
  obtain ⟨-, atAccount, atTask⟩ := placed.resolve_left (fun found => by simp [absent] at found)
  have sums (id : BalanceId) (column : Reservation → Int) := columnSum_insert absent calls rfl id column
  have rows (k : ReservationKey) (c : Call) (found : db'.calls.row k = some c) :
      (k = key ∧ c = { call with reservation := some row }) ∨ db.calls.row k = some c := by
    rw [calls, Table.row_put] at found
    split at found
    · rename_i same
      exact .inl ⟨same, (Option.some.inj found).symm⟩
    · exact .inr found
  have kept (id : BalanceId) (member : id ∈ db.budgets.keys) : id ∈ db'.budgets.keys := by
    rw [inserted.budgets]
    exact Table.mem_keys_put_of_mem _ _ (Table.mem_keys_put_of_mem _ _ member)
  refine ⟨?_, ?_, ?_, ?_, ?_, ?_, ?_⟩
  · intro k c found
    obtain ⟨rfl, rfl⟩ | old := rows k c found
    · refine ⟨row, rfl, fun d => ⟨?_, ?_⟩⟩
      · rw [inserted.held]
        exact row.receipt.reserved_nonneg d
      · rw [inserted.actual]
    · exact conserved.reserved k c old
  · intro k c found
    obtain ⟨rfl, rfl⟩ | old := rows k c found
    · exact atAccount
    · exact conserved.accountNamed k c old
  · intro k c found
    obtain ⟨rfl, rfl⟩ | old := rows k c found
    · exact atTask
    · exact conserved.taskNamed k c old
  · intro k c id found names
    obtain ⟨rfl, rfl⟩ | old := rows k c found
    · obtain same | same := names
      · exact same ▸ atAccount ▸ kept _ (Table.mem_of_row inserted.accountFound)
      · exact same ▸ atTask ▸ kept _ (Table.mem_of_row inserted.taskFound)
    · exact kept id (conserved.funded k c id old names)
  · intro id b d found
    rw [actualSum_eq, sums, inserted.actual, ite_self, add_zero]
    rw [inserted.budgets] at found
    obtain ⟨rfl, rfl⟩ | ⟨-, rfl, rfl⟩ | ⟨-, -, old⟩ := Table.row_put_put_cases found
    · simp only [taskSettled]
      exact conserved.settled _ _ d inserted.taskFound
    · simp only [accountSettled]
      exact conserved.settled _ _ d inserted.accountFound
    · exact conserved.settled id b d old
  · intro id b d found
    rw [heldSum_eq, sums]
    rw [inserted.budgets] at found
    obtain ⟨rfl, rfl⟩ | ⟨-, rfl, rfl⟩ | ⟨notTask, notAccount, old⟩ := Table.row_put_put_cases found
    · rw [if_pos (.inr atTask)]
      exact taskHeld d
    · rw [if_pos (.inl atAccount)]
      exact accountHeld d
    · have unnamed : ¬ ({ call with reservation := some row } : Call).names id := by
        rintro (same | same)
        · exact notAccount (same.symm.trans atAccount)
        · exact notTask (same.symm.trans atTask)
      rw [if_neg unnamed, add_zero]
      exact conserved.held id b d old
  · intro id b d found
    rw [inserted.budgets] at found
    obtain ⟨rfl, rfl⟩ | ⟨-, rfl, rfl⟩ | ⟨-, -, old⟩ := Table.row_put_put_cases found
    · have cap := conserved.caps _ _ d inserted.taskFound
      exact cap
    · have cap := conserved.caps _ _ d inserted.accountFound
      exact cap
    · exact conserved.caps id b d old

/-- A transaction on a call. -/
theorem transact (conserved : Conserved db) {key : ReservationKey} {t t' : Txn} {core : BindingCore}
    {uuid : Uuids} (opened : openCall H db key none = .ok (t, core)) (moves : Moves H uuid t t') :
    Conserved t'.db := by
  have sound := moves.sound (conserved.opened opened)
  obtain ⟨call, found, reserved, upon⟩ := openCall_over opened
  have upon := moves.upon upon
  obtain ⟨sameKey, accountPolicy, taskPolicy⟩ := moves.fixed
  obtain ⟨-, -, atKey, atAccount, atTask, -⟩ := openCall_ok opened
  obtain rfl : t'.key = key := sameKey.trans atKey
  have others := moves.others
  have sums (id : BalanceId) (column : Reservation → Int) :=
    columnSum_put found reserved upon.calls id column
  have accountNamed : call.names t'.accountId := .inl (conserved.accountNamed _ call found)
  have taskNamed : call.names t'.taskId := .inr (conserved.taskNamed _ call found)
  have rows (k : ReservationKey) (c : Call) (at_ : t'.db.calls.row k = some c) :
      (k = t'.key ∧ c = { call with reservation := some t'.row }) ∨ db.calls.row k = some c := by
    rw [upon.calls, Table.row_put] at at_
    split at at_
    · rename_i same
      exact .inl ⟨same, (Option.some.inj at_).symm⟩
    · exact .inr at_
  have unnamed (id : BalanceId) (notTask : id ≠ t'.taskId) (notAccount : id ≠ t'.accountId) :
      ¬ call.names id := by
    rintro (same | same)
    · exact notAccount (same.symm.trans (conserved.accountNamed _ call found))
    · exact notTask (same.symm.trans (conserved.taskNamed _ call found))
  refine ⟨?_, ?_, ?_, ?_, ?_, ?_, ?_⟩
  · intro k c at_
    obtain ⟨rfl, rfl⟩ | old := rows k c at_
    · exact ⟨t'.row, rfl, fun d => ⟨sound.held d, sound.actual d⟩⟩
    · exact conserved.reserved k c old
  · intro k c at_
    obtain ⟨rfl, rfl⟩ | old := rows k c at_
    · exact conserved.accountNamed _ call found
    · exact conserved.accountNamed k c old
  · intro k c at_
    obtain ⟨rfl, rfl⟩ | old := rows k c at_
    · exact conserved.taskNamed _ call found
    · exact conserved.taskNamed k c old
  · intro k c id at_ names
    rw [upon.budgets]
    refine Table.mem_keys_put_of_mem _ _ (Table.mem_keys_put_of_mem _ _ ?_)
    obtain ⟨rfl, rfl⟩ | old := rows k c at_
    · exact conserved.funded _ call id found names
    · exact conserved.funded k c id old names
  · intro id b d at_
    rw [actualSum_eq, sums]
    rw [upon.budgets] at at_
    have same := others d
    simp only [Txn.others, Prod.mk.injEq] at same
    obtain ⟨rfl, rfl⟩ | ⟨-, rfl, rfl⟩ | ⟨notTask, notAccount, old⟩ := Table.row_put_put_cases at_
    · have before : t.task.settled d = columnSum db t'.taskId fun r => r.actual d :=
        (conserved.settled _ _ d atTask).1
      have after : t'.task.settled d = columnSum db t'.taskId (fun r => r.actual d) +
          (t'.row.actual d - t.row.actual d) := by omega
      rw [if_pos taskNamed]
      exact ⟨after, (sound.taskSettled d).2⟩
    · have before : t.account.settled d = columnSum db t'.accountId fun r => r.actual d :=
        (conserved.settled _ _ d atAccount).1
      have after : t'.account.settled d = columnSum db t'.accountId (fun r => r.actual d) +
          (t'.row.actual d - t.row.actual d) := by omega
      rw [if_pos accountNamed]
      exact ⟨after, (sound.accountSettled d).2⟩
    · rw [if_neg (unnamed id notTask notAccount), add_zero]
      exact conserved.settled id b d old
  · intro id b d at_
    rw [heldSum_eq, sums]
    rw [upon.budgets] at at_
    have same := others d
    simp only [Txn.others, Prod.mk.injEq] at same
    obtain ⟨rfl, rfl⟩ | ⟨-, rfl, rfl⟩ | ⟨notTask, notAccount, old⟩ := Table.row_put_put_cases at_
    · have before : t.task.held d = columnSum db t'.taskId fun r => r.held d :=
        (conserved.held _ _ d atTask).1
      have after : t'.task.held d = columnSum db t'.taskId (fun r => r.held d) +
          (t'.row.held d - t.row.held d) := by omega
      rw [if_pos taskNamed]
      exact ⟨after, (sound.taskHeld d).2⟩
    · have before : t.account.held d = columnSum db t'.accountId fun r => r.held d :=
        (conserved.held _ _ d atAccount).1
      have after : t'.account.held d = columnSum db t'.accountId (fun r => r.held d) +
          (t'.row.held d - t.row.held d) := by omega
      rw [if_pos accountNamed]
      exact ⟨after, (sound.accountHeld d).2⟩
    · rw [if_neg (unnamed id notTask notAccount), add_zero]
      exact conserved.held id b d old
  · intro id b d at_
    rw [upon.budgets] at at_
    obtain ⟨rfl, rfl⟩ | ⟨-, rfl, rfl⟩ | ⟨-, -, old⟩ := Table.row_put_put_cases at_
    · have cap := conserved.caps _ _ d atTask
      rwa [← taskPolicy] at cap
    · have cap := conserved.caps _ _ d atAccount
      rwa [← accountPolicy] at cap
    · exact conserved.caps id b d old

/-- The totals of a balance are counts. -/
theorem nonneg (conserved : Conserved db) {id : BalanceId} {b : Budget}
    (found : db.budgets.row id = some b) (d : Dimension) :
    0 ≤ b.balance.settled d ∧ 0 ≤ b.balance.held d := by
  have sums (column : Reservation → Int) (nonneg : ∀ k c r, db.calls.row k = some c →
      c.reservation = some r → 0 ≤ column r) : 0 ≤ columnSum db id column := by
    refine Table.sum_nonneg fun k c found => ?_
    obtain ⟨r, reserved, -⟩ := conserved.reserved k c found
    split
    · simpa [reserved] using nonneg k c r found reserved
    · exact le_rfl
  have rows (k : ReservationKey) (c : Call) (r : Reservation) (found : db.calls.row k = some c)
      (reserved : c.reservation = some r) : 0 ≤ r.held d ∧ 0 ≤ r.actual d := by
    obtain ⟨r', reserved', bounds⟩ := conserved.reserved k c found
    obtain rfl := Option.some.inj (reserved.symm.trans reserved')
    exact bounds d
  rw [(conserved.settled id b d found).1, (conserved.held id b d found).1]
  exact ⟨sums _ fun k c r found reserved => (rows k c r found reserved).2,
    sums _ fun k c r found reserved => (rows k c r found reserved).1⟩

/-- A reserve that a budget affords fits its column: the caps are counts. -/
theorem affordable (conserved : Conserved db) {id : BalanceId} {b : Budget} {core : BindingCore}
    {now : Int} {expiry : Option Int} (found : db.budgets.row id = some b)
    (active : b.admissible now expiry) (affords : b.affords core) (d : Dimension) :
    b.balance.held d + core.reserved d ≤ maxN := by
  obtain ⟨-, -, -, complete, -⟩ := active
  have capped : ∃ c, b.policy.cap d = some c := by
    cases d with
    | tokens => exact Option.isSome_iff_exists.1 complete.1
    | microusd => exact Option.isSome_iff_exists.1 complete.2.1
  obtain ⟨c, cap⟩ := capped
  have below := affords.1 d c cap
  have range := conserved.caps id b d found c cap
  have nonneg := (conserved.nonneg found d).1
  omega

/-- **Every effect keeps the accounts conserved.** -/
theorem effect {shown : Shown} (conserved : Conserved db)
    (effect : Effect H shown db db') : Conserved db' := by
  cases effect with
  | aside budgets calls settlements postings quiet =>
      refine conserved.transport (fun k c found => ⟨c, calls ▸ found, rfl, rfl, fun r reserved =>
        ⟨r, reserved, rfl, rfl⟩⟩) (fun id d => columnSum_congr calls id _)
        (fun id d => columnSum_congr calls id _) (fun id b found => ⟨b, budgets ▸ found, rfl, rfl, rfl⟩)
        (fun id member => budgets ▸ member)
  | install absent caps => exact conserved.install absent caps
  | @reserve _ key row account task now expiry core inserted reserved active affords =>
      have charged (id : BalanceId) (b : Budget) (found : db.budgets.row id = some b)
          (active : b.admissible now (some expiry)) (affords : b.affords core) (d : Dimension) :
          (b.balance.charge core.reserved).held d = heldSum db id d + row.held d ∧
            (b.balance.charge core.reserved).held d ≤ maxN := by
        refine ⟨?_, conserved.affordable found active affords d⟩
        rw [inserted.held, reserved, ← (conserved.held id b d found).1]
        rfl
      exact conserved.insert inserted (charged _ _ inserted.accountFound active.1 affords.1)
        (charged _ _ inserted.taskFound active.2 affords.2) rfl rfl
  | suspend opened => exact conserved.transact opened (.suspend (fun _ => 0) _)
  | contradict opened done => exact conserved.transact opened (.conflict done)
  | reconcile hashes allowed transacted =>
      obtain ⟨t, t', core, opened, moves, rfl⟩ := transacted.moves
      exact conserved.transact opened moves
  | @administer _ key call row row' found reserved kept calls budgets settlements postings quiet =>
      have sums (id : BalanceId) (column : Reservation → Int) (same : column row' = column row) :
          columnSum db' id column = columnSum db id column := by
        rw [columnSum_put found reserved calls, same, sub_self, ite_self, add_zero]
      refine conserved.transport ?_ (fun id d => sums id _ (by rw [kept.held]))
        (fun id d => sums id _ (by rw [kept.actual]))
        (fun id b found => ⟨b, budgets ▸ found, rfl, rfl, rfl⟩) (fun id member => budgets ▸ member)
      intro k c' at_
      rw [calls, Table.row_put] at at_
      split at at_
      · rename_i same
        obtain rfl := Option.some.inj at_
        subst same
        refine ⟨call, found, rfl, rfl, fun r reserved' => ⟨row', rfl, ?_⟩⟩
        obtain rfl := Option.some.inj (reserved.symm.trans reserved')
        exact ⟨kept.held, kept.actual⟩
      · exact ⟨c', at_, rfl, rfl, fun r reserved => ⟨r, reserved, rfl, rfl⟩⟩
  | @restore _ key row account task inserted restorable =>
      refine conserved.insert inserted (fun d => ?_) (fun d => ?_) rfl rfl
      · rw [inserted.held]
        exact ⟨rfl, (restorable d).1⟩
      · rw [inserted.held]
        exact ⟨rfl, (restorable d).2⟩
  | pause chosen =>
      refine conserved.transport (fun k c found => ⟨c, found, rfl, rfl, fun r reserved =>
        ⟨r, reserved, rfl, rfl⟩⟩) (fun _ _ => rfl) (fun _ _ => rfl) ?_ (fun _ member => member)
      intro id b' found
      obtain ⟨b, found, same⟩ := Option.map_eq_some_iff.1 found
      refine ⟨b, found, ?_⟩
      subst same
      beta_reduce
      split <;> exact ⟨rfl, rfl, rfl⟩
  | @resume id b =>
      refine conserved.transport (fun k c found => ⟨c, found, rfl, rfl, fun r reserved =>
        ⟨r, reserved, rfl, rfl⟩⟩) (fun _ _ => rfl) (fun _ _ => rfl) ?_
        (fun _ member => Table.mem_keys_modify _ _ _ member)
      intro j b' found
      rw [show (activate db id).budgets = db.budgets.modify id _ from rfl, Table.row_modify] at found
      obtain ⟨b, found, same⟩ := Option.map_eq_some_iff.1 found
      refine ⟨b, found, ?_⟩
      subst same
      split <;> exact ⟨rfl, rfl, rfl⟩
  | @cancel id generation chosen =>
      have sums (id : BalanceId) (column : Reservation → Int)
          (same : ∀ r : Reservation, column { r with cancelled := true } = column r) :
          (db.calls.map fun k c => if chosen k then
            { c with reservation := c.reservation.map fun r => { r with cancelled := true } } else c).sum
            (fun _ c => if c.names id then c.reservation.elim 0 column else 0) =
          columnSum db id column := by
        refine Table.sum_map _ _ _ fun k c => ?_
        have kept : (c.reservation.map fun r => { r with cancelled := true }).elim 0 column =
            c.reservation.elim 0 column := by
          cases c.reservation with
          | none => rfl
          | some r => exact same r
        split
        · show (if c.names id then _ else 0) = _
          rw [kept]
        · rfl
      refine conserved.transport ?_ (fun id d => sums id _ fun _ => rfl)
        (fun id d => sums id _ fun _ => rfl) ?_ (fun _ member => Table.mem_keys_modify _ _ _ member)
      · intro k c' found
        obtain ⟨c, found, same⟩ := Option.map_eq_some_iff.1 found
        refine ⟨c, found, ?_⟩
        subst same
        beta_reduce
        split
        · refine ⟨rfl, rfl, fun r reserved => ⟨{ r with cancelled := true }, ?_, rfl, rfl⟩⟩
          rw [reserved]
          rfl
        · exact ⟨rfl, rfl, fun r reserved => ⟨r, reserved, rfl, rfl⟩⟩
      · intro j b' found
        rw [Table.row_modify] at found
        obtain ⟨b, found, same⟩ := Option.map_eq_some_iff.1 found
        refine ⟨b, found, ?_⟩
        subst same
        split <;> exact ⟨rfl, rfl, rfl⟩

theorem of_reachable (reach : (accounting H).Reachable db) : Conserved db :=
  Reachable.of_effects .empty (fun _ _ _ step conserved => effect conserved step) reach

end Conserved

/-! ## Conservation -/

/-- **Budget conservation.**  In every reachable state each balance is the sum of
the reservations whose core names it, column by column, and every amount is
between 0 and `MAX_N`. -/
theorem budget_conservation {H : Hashes} {db : Db} (reach : (accounting H).Reachable db) :
    (∀ id b d, db.budgets.row id = some b →
      b.balance.settled d = actualSum db id d ∧ b.balance.held d = heldSum db id d ∧
      0 ≤ b.balance.settled d ∧ b.balance.settled d ≤ maxN ∧
      0 ≤ b.balance.held d ∧ b.balance.held d ≤ maxN) ∧
    ∀ k c r d, db.calls.row k = some c → c.reservation = some r →
      0 ≤ r.held d ∧ r.held d ≤ maxN ∧ 0 ≤ r.actual d ∧ r.actual d ≤ maxN := by
  have conserved := Conserved.of_reachable reach
  constructor
  · intro id b d found
    obtain ⟨settled, settledFits⟩ := conserved.settled id b d found
    obtain ⟨held, heldFits⟩ := conserved.held id b d found
    obtain ⟨settledNonneg, heldNonneg⟩ := conserved.nonneg found d
    exact ⟨settled, held, settledNonneg, settledFits, heldNonneg, heldFits⟩
  · intro k c r d found reserved
    obtain ⟨r', reserved', nonneg⟩ := conserved.reserved k c found
    obtain rfl := Option.some.inj (reserved.symm.trans reserved')
    have names : c.names c.accountBalance := .inl rfl
    obtain ⟨b, atBalance⟩ := Table.row_of_mem (conserved.funded k c _ found names)
    have covers := conserved.covers found reserved names atBalance d
    have heldFits := (conserved.held _ b d atBalance).2
    have settledFits := (conserved.settled _ b d atBalance).2
    have bounds := nonneg d
    omega

/-! ## Two calls -/

def sampleHashes : Hashes where
  core c := c.rest
  observation o := o.evidenceDigest
  record _ := 0
  inventory observations := observations.foldl (fun n o => 100 * n + o.eventId) 1
  accounting _ _ revision _ _ _ := revision

def sampleScope : Scope := ⟨1, 2, 3, 4, 1, 1, 5, 6, 7, 1⟩

def samplePolicy : Policy := ⟨8, 9, some 100000, some 100000, some 10, some 1000000000000, 0, 1000⟩

/-- The core of the call `ref`, with the smallest reserve. -/
def sampleCore (ref : Id) : BindingCore where
  scope := sampleScope
  questionId := ref
  callRef := ref
  bodyDigest := 1
  reserved := minimumReserved
  validFrom := 0
  expiresAt := 500
  rest := ref
  minimum := minimumReserved_self
  maximum := minimumReserved_le_maxN

def sampleKey (ref : Id) : ReservationKey := ⟨sampleScope, ref, ref⟩

def sampleRun (ref : Id) : RunContext := ⟨sampleScope, ref, 1, 1, 400⟩

/-- Both policies, and one reservation. -/
def firstCall : List Op :=
  [.installPolicy sampleScope .account samplePolicy, .installPolicy sampleScope .task samplePolicy,
    .reserve (fun n => n) (sampleRun 1) (sampleKey 1) ⟨sampleCore 1, 8⟩ 10]

/-- A final of `tokens` uncached input tokens, as the producer reports it. -/
def sampleUsage (tokens : Nat) (fits : (tokens : Int) ≤ maxN) : UsageView :=
  .known ⟨tokens, 0, 0, 0, none, Nat.zero_le _, by simpa using fits, by simp⟩

theorem hundred_le_maxN : ((100 : Nat) : Int) ≤ maxN := by decide

theorem seven_le_maxN : ((7 : Nat) : Int) ≤ maxN := by decide

def sampleObservation (ref eventId : Id) (kind : ObservationKind) (usage : UsageView) : Observation :=
  ⟨sampleKey ref, ref, eventId, 1, 1, 1, eventId, 1, kind, none, 1, 20, .completed, usage, eventId⟩

/-- An observer that covers everything and answers `inventory` throughout. -/
def steadyObserver (inventory : List Observation) : Observer where
  inventory := inventory
  acknowledged := true
  stable := true
  covered _ := true
  provesZero _ := true
  provesFinal _ := true
  steady := true

/-- A second call is reserved and marked unknown after the first one has settled 100 tokens. -/
def twoCalls : List Op :=
  firstCall ++ [.reconcile (fun n => 10 + n) (.run (sampleRun 1)) (sampleKey 1)
      (steadyObserver [sampleObservation 1 30 .finalUsage (sampleUsage 100 hundred_le_maxN)]) none [30],
    .reserve (fun n => 40 + n) (sampleRun 2) (sampleKey 2) ⟨sampleCore 2, 8⟩ 10,
    .markUnknown (.run (sampleRun 2)) (sampleKey 2)]

/-- The task bears what one call settled and what the other one holds. -/
theorem budget_conservation_two_calls :
    ∃ b, (Db.after sampleHashes twoCalls).budgets.row (balanceId sampleScope .task) = some b ∧
      b.balance.settled .tokens = 100 ∧ b.balance.held .tokens = 5120 ∧
      b.balance.settled .tokens = actualSum (Db.after sampleHashes twoCalls) (balanceId sampleScope .task) .tokens ∧
      b.balance.held .tokens = heldSum (Db.after sampleHashes twoCalls) (balanceId sampleScope .task) .tokens := by
  have computed : ((Db.after sampleHashes twoCalls).budgets.row (balanceId sampleScope .task)).map
      (fun b => (b.balance.settled .tokens, b.balance.held .tokens)) = some (100, 5120) := by
    decide +kernel
  obtain ⟨b, found, amounts⟩ := Option.map_eq_some_iff.1 computed
  obtain ⟨hundred, minimum⟩ := Prod.mk.inj amounts
  obtain ⟨settled, held, -⟩ := (budget_conservation (reachable_after sampleHashes twoCalls)).1 _ b .tokens found
  exact ⟨b, found, hundred, minimum, settled, held⟩

end ApiSecurityPlatform.Accounting
