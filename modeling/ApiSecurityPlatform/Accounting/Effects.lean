/-
# Accounting.Effects -- what an operation can do to the tables

Every operation is a sequence of effects on the tables (`Op.effects`).  An effect
is said once, with the checks the source has made before it; each invariant of the
accounting is one case analysis over `Effect`.
-/
import ApiSecurityPlatform.Accounting.Passes

namespace ApiSecurityPlatform.Accounting

open ApiSecurityPlatform.Theory

set_option autoImplicit false

/-! ## Effects -/

/-- The ledger grows, but by no receipt and no conflict. -/
def Quiet (db db' : Db) : Prop :=
  ∃ added, db'.events = db.events ++ added ∧
    ∀ e ∈ added, e.kind ≠ .recoveryResolved ∧ e.kind ≠ .conflict

theorem Quiet.of_eq {db db' : Db} (same : db'.events = db.events) : Quiet db db' :=
  ⟨[], by simpa using same, by simp⟩

/-- The columns of a reservation that `admit_v1`, `marker`, `finish` and
`recover_call` leave alone, and how they may move its state. -/
structure Reservation.Administered (row row' : Reservation) : Prop where
  receipt : row'.receipt = row.receipt
  held : row'.held = row.held
  actual : row'.actual = row.actual
  revision : row'.revision = row.revision
  eventCount : row.eventCount ≤ row'.eventCount
  state : row'.state = row.state ∨
    (row.state = .reserved ∨ row.state = .admitted) ∧ (row'.state = .admitted ∨ row'.state = .sendIntent)

/-- A call inserted with its first reservation row, and both balances written. -/
structure Inserted (db db' : Db) (key : ReservationKey) (row : Reservation) (account task : Budget)
    (account' task' : Balance) : Prop where
  absent : ∀ old ∈ db.calls.row key, old.reservation = none
  accountFound : db.budgets.row (balanceId key.scope .account) = some account
  taskFound : db.budgets.row (balanceId key.scope .task) = some task
  calls : ∃ call, db'.calls = db.calls.put key { call with reservation := some row } ∧
    (db.calls.row key = some call ∨ db.calls.row key = none ∧
      call.accountBalance = balanceId key.scope .account ∧ call.taskBalance = balanceId key.scope .task)
  budgets : db'.budgets = (db.budgets.put (balanceId key.scope .account) ⟨account.policy, account'⟩).put
    (balanceId key.scope .task) ⟨task.policy, task'⟩
  settlements : db'.settlements = db.settlements
  postings : db'.postings = db.postings
  quiet : Quiet db db'
  receipt : row.receipt.key = key
  held : row.held = row.receipt.reserved
  actual : row.actual = fun _ => 0
  revision : row.revision = 0
  state : row.state = .reserved ∨ row.state = .inDoubt

/-- The transaction of `reconcile_v1` on events the inventory lists. -/
def Reconcile.Transacted (R : Reconcile) (db db' : Db) : Prop :=
  ∃ t t' core selected found, openCall R.hashes db R.key (some R.ctx) = .ok (t, core) ∧
    (R.observer.inventory.map Observation.eventId).Nodup ∧
    (∀ e ∈ selected, e ∈ R.observer.inventory) ∧
    R.transact t core selected = .ok (t', found) ∧ db' = t'.db

/-- Which inventories a producer shows for a call. -/
abbrev Shown := ReservationKey → List Observation → Prop

/-- One effect of an operation on the tables, when the producer shows only the
inventories `shown` allows. -/
inductive Effect (H : Hashes) (shown : Shown) (db : Db) : Db → Prop where
  /-- Admissions, markers, completions, recoveries. -/
  | aside {db' : Db} (budgets : db'.budgets = db.budgets) (calls : db'.calls = db.calls)
      (settlements : db'.settlements = db.settlements) (postings : db'.postings = db.postings)
      (quiet : Quiet db db') : Effect H shown db db'
  | install {id : BalanceId} {policy : Policy} (absent : db.budgets.row id = none)
      (caps : ∀ d, countInRange (policy.cap d)) (calls : countInRange policy.callCap)
      (wall : countInRange policy.wallCapNs) :
      Effect H shown db { db with budgets := db.budgets.put id ⟨policy, openingBalance⟩ }
  | reserve {db' : Db} {key : ReservationKey} {row : Reservation} {account task : Budget}
      {now expiry : Int} {core : BindingCore}
      (inserted : Inserted db db' key row account task (account.balance.charge core.reserved)
        (task.balance.charge core.reserved))
      (reserved : row.receipt.reserved = core.reserved)
      (active : account.admissible now (some expiry) ∧ task.admissible now (some expiry))
      (affords : account.affords core ∧ task.affords core) : Effect H shown db db'
  /-- `mark_unknown`. -/
  | suspend {key : ReservationKey} {t : Txn} {core : BindingCore}
      (opened : openCall H db key none = .ok (t, core)) :
      Effect H shown db ((t.retain none).pause .inDoubt).db
  /-- Another core asks the question of the call. -/
  | contradict {key : ReservationKey} {t t' : Txn} {core : BindingCore} {uuid : Uuids}
      {existing incoming : Id} (opened : openCall H db key none = .ok (t, core))
      (done : t.conflict uuid existing incoming .coreConflict none = .ok t') : Effect H shown db t'.db
  | reconcile {db' : Db} {R : Reconcile} (hashes : R.hashes = H)
      (allowed : shown R.key R.observer.inventory) (transacted : R.Transacted db db') :
      Effect H shown db db'
  | administer {db' : Db} {key : ReservationKey} {call : Call} {row row' : Reservation}
      (found : db.calls.row key = some call) (reserved : call.reservation = some row)
      (kept : row.Administered row')
      (calls : db'.calls = db.calls.put key { call with reservation := some row' })
      (budgets : db'.budgets = db.budgets) (settlements : db'.settlements = db.settlements)
      (postings : db'.postings = db.postings) (quiet : Quiet db db') : Effect H shown db db'
  | restore {db' : Db} {key : ReservationKey} {row : Reservation} {account task : Budget}
      (inserted : Inserted db db' key row account task
        (account.balance.restore (fun d => heldSum db (balanceId key.scope .account) d +
          row.receipt.reserved d) (callCount db (balanceId key.scope .account) + 1))
        (task.balance.restore (fun d => heldSum db (balanceId key.scope .task) d +
          row.receipt.reserved d) (callCount db (balanceId key.scope .task) + 1)))
      (restorable : ∀ d, heldSum db (balanceId key.scope .account) d + row.receipt.reserved d ≤ maxN ∧
        heldSum db (balanceId key.scope .task) d + row.receipt.reserved d ≤ maxN) : Effect H shown db db'
  | pause (chosen : BalanceId → Prop) [DecidablePred chosen] : Effect H shown db (pauseBalances db chosen)
  | resume {id : BalanceId} {b : Budget} (found : db.budgets.row id = some b)
      (state : b.balance.state = .active ∨ b.balance.state = .pausedUnknown)
      (held : ∀ d, b.balance.held d = 0)
      (caps : ∀ d, withinCap (b.policy.cap d) (b.balance.settled d))
      (calls : withinCap b.policy.callCap b.balance.calls)
      (wall : withinCap b.policy.wallCapNs b.balance.wallNs) : Effect H shown db (activate db id)
  | cancel {id : BalanceId} {generation : Nat} {chosen : ReservationKey → Prop} [DecidablePred chosen] :
      Effect H shown db { db with
        budgets := db.budgets.modify id fun b =>
          { b with balance := { b.balance with state := .cancelled, cancelGeneration := generation } }
        calls := db.calls.map fun k c => if chosen k then
          { c with reservation := c.reservation.map fun r => { r with cancelled := true } } else c }

/-- Any number of effects. -/
abbrev Effects (H : Hashes) (shown : Shown) : Db → Db → Prop := Relation.ReflTransGen (Effect H shown)

/-- The run rule of effects. -/
theorem Effects.preserves {H : Hashes} {shown : Shown} {I : Db → Prop}
    (keep : ∀ db db', Effect H shown db db' → I db → I db') {db db' : Db}
    (effects : Effects H shown db db') (start : I db) : I db' := by
  induction effects with
  | refl => exact start
  | tail _ last ih => exact keep _ _ last ih

/-- `mark_unknown` is a freeze. -/
theorem Moves.suspend {H : Hashes} (uuid : Uuids) (t : Txn) :
    Moves H uuid t ((t.retain none).pause .inDoubt) :=
  .single (.freeze t [none] (by decide))

/-! ## Opening a call -/

variable {H : Hashes} {shown : Shown} {db db' : Db} {key : ReservationKey}

theorem budgetsOf_ok {scope : Scope} {account task : Budget}
    (done : budgetsOf db scope = .ok (account, task)) :
    db.budgets.row (balanceId scope .account) = some account ∧
      db.budgets.row (balanceId scope .task) = some task := by
  simp only [budgetsOf] at done
  split at done
  · rename_i a k atAccount atTask
    obtain ⟨rfl, rfl⟩ := Prod.mk.inj (Except.ok.inj done)
    exact ⟨atAccount, atTask⟩
  · cases done

theorem activeBudgets_ok {scope : Scope} {now : Int} {expiry : Option Int} {account task : Budget}
    (done : activeBudgets db scope now expiry = .ok (account, task)) :
    budgetsOf db scope = .ok (account, task) ∧ account.admissible now expiry ∧
      task.admissible now expiry := by
  simp only [activeBudgets, bind_ok, require_ok] at done
  obtain ⟨⟨a, k⟩, read, -, active, same⟩ := done
  obtain ⟨rfl, rfl⟩ := Prod.mk.inj (Except.ok.inj same)
  exact ⟨read, active⟩

theorem callOf_ok {ctx : Option Context} {row : Reservation} {core : BindingCore}
    (done : callOf H db key ctx = .ok (row, core)) :
    (∃ call, db.calls.row key = some call ∧ call.reservation = some row ∧ call.core = core) ∧
      callOf H db key none = .ok (row, core) := by
  simp only [callOf] at done ⊢
  split at done
  · cases done
  · rename_i call found
    simp only [bind_ok, require_ok] at done
    obtain ⟨-, agree, done⟩ := done
    split at done
    · cases done
    · rename_i row' reserved
      simp only [bind_ok, require_ok] at done
      obtain ⟨-, -, -, -, same⟩ := done
      obtain ⟨rfl, rfl⟩ := Prod.mk.inj (Except.ok.inj same)
      refine ⟨⟨call, found, reserved, rfl⟩, ?_⟩
      simp [bind, Except.bind, agree, require, pure, Except.pure]

/-- The transaction a call is opened with. -/
theorem openCall_ok {ctx : Option Context} {t : Txn} {core : BindingCore}
    (done : openCall H db key ctx = .ok (t, core)) :
    openCall H db key none = .ok (t, core) ∧ t.db = db ∧ t.key = key ∧
      db.budgets.row (balanceId key.scope .account) = some ⟨t.accountPolicy, t.account⟩ ∧
      db.budgets.row (balanceId key.scope .task) = some ⟨t.taskPolicy, t.task⟩ ∧
      ∃ call, db.calls.row key = some call ∧ call.reservation = some t.row ∧ call.core = core := by
  simp only [openCall, bind_ok] at done
  obtain ⟨⟨account, task⟩, read, ⟨row, core'⟩, called, same⟩ := done
  obtain ⟨rfl, rfl⟩ := Prod.mk.inj (Except.ok.inj same)
  obtain ⟨atAccount, atTask⟩ := budgetsOf_ok read
  obtain ⟨found, plain⟩ := callOf_ok called
  refine ⟨?_, rfl, rfl, atAccount, atTask, found⟩
  simp only [openCall, read, plain]
  rfl

theorem openCall_over {t : Txn} {core : BindingCore} (opened : openCall H db key none = .ok (t, core)) :
    ∃ call, db.calls.row key = some call ∧ call.reservation = some t.row ∧ t.Over db call := by
  obtain ⟨-, atDb, rfl, atAccount, atTask, call, found, reserved, -⟩ := openCall_ok opened
  refine ⟨call, found, reserved, found, ⟨_, atAccount⟩, ⟨_, atTask⟩, ?_, ?_⟩
  · rw [atDb, ← reserved, Table.put_self_of_row _ found]
  · rw [atDb, show t.accountId = balanceId t.key.scope .account from rfl,
      Table.put_self_of_row _ atAccount, show t.taskId = balanceId t.key.scope .task from rfl,
      Table.put_self_of_row _ atTask]

/-- The transaction of `reconcile_v1`, as moves on the opened call. -/
theorem Reconcile.Transacted.moves {R : Reconcile} (transacted : R.Transacted db db') :
    ∃ t t' core, openCall R.hashes db R.key none = .ok (t, core) ∧ Moves R.hashes R.uuid t t' ∧
      db' = t'.db := by
  obtain ⟨t, t', core, selected, found, opened, -, -, done, rfl⟩ := transacted
  exact ⟨t, t', core, (openCall_ok opened).1, Reconcile.transact_moves done, rfl⟩

/-! ## Administration -/

/-- The reservation a transaction is about, as the database has it. -/
def Txn.Stored (t : Txn) (row : Reservation) : Prop :=
  ∃ call, t.db.calls.row t.key = some call ∧ call.reservation = some row

namespace Txn.Stored

variable {t t' : Txn} {row : Reservation}

theorem of_openCall {ctx : Option Context} {core : BindingCore}
    (opened : openCall H db key ctx = .ok (t, core)) : t.Stored t.row := by
  obtain ⟨-, atDb, atKey, -, -, call, found, reserved, -⟩ := openCall_ok opened
  exact ⟨call, by rw [atDb, atKey, found], reserved⟩

theorem update (stored : t.Stored row) (set_ : Reservation → Reservation) :
    (t.updateReservation set_).Stored (set_ row) := by
  obtain ⟨call, found, reserved⟩ := stored
  refine ⟨{ call with reservation := some (set_ row) }, ?_, rfl⟩
  show (t.db.calls.modify t.key _).row t.key = _
  rw [Table.modify_of_row _ _ found, Table.row_put_self, reserved]
  rfl

theorem update_effect (stored : t.Stored row) (set_ : Reservation → Reservation)
    (kept : row.Administered (set_ row)) : Effect H shown t.db (t.updateReservation set_).db := by
  obtain ⟨call, found, reserved⟩ := stored
  refine .administer found reserved kept ?_ rfl rfl rfl (.of_eq rfl)
  show t.db.calls.modify t.key _ = _
  rw [Table.modify_of_row _ _ found, reserved]
  rfl

/-- An event of a kind that is neither a receipt nor a conflict. -/
theorem event {uuid : Uuids} {kind : EventKind} {record : EventRecord} {eventId : Option Id}
    {recovery : Bool} (stored : t.Stored row) (counted : row.eventCount = t.row.eventCount)
    (plain : kind ≠ .recoveryResolved ∧ kind ≠ .conflict)
    (written : t.event uuid kind record eventId recovery = .ok t') :
    Effects H shown t.db t'.db ∧ ∃ row', t'.Stored row' ∧ row'.state = row.state := by
  obtain ⟨draws, rfl⟩ | ⟨eid, draws, -, -, rfl⟩ := event_cases written
  · exact ⟨.refl, row, stored, rfl⟩
  · obtain ⟨call, found, reserved⟩ := stored
    let entry : Event := ⟨eid, t.key, t.row.eventCount + 1, kind, record⟩
    let u : Txn := { t with
      draws := draws
      row := { t.row with eventCount := t.row.eventCount + 1 }
      db := { t.db with events := t.db.events ++ [entry] } }
    have noted : Effect H shown t.db u.db :=
      .aside rfl rfl rfl rfl ⟨[entry], rfl, by simpa [entry] using plain⟩
    have here : u.Stored row := ⟨call, found, reserved⟩
    refine ⟨.tail (.single noted) (here.update_effect _ ?_), _, here.update _, rfl⟩
    exact ⟨rfl, rfl, rfl, rfl, by simp [counted], .inl rfl⟩

end Txn.Stored

section Administration

variable {uuid : Uuids} {run : RunContext} {ctx : Context} {now : Int}

theorem admitV1_effects {receipt : Receipt} {at_ : Int}
    (done : admitV1 H uuid run receipt now at_ db = .ok db') : Effects H shown db db' := by
  simp only [admitV1, bind_ok, require_ok] at done
  obtain ⟨-, -, ⟨t, core⟩, opened, -, state, -, -, -, -, -, -, -, -, -, -, -, -, t', written, same⟩ :=
    done
  obtain rfl := Except.ok.inj same
  obtain ⟨-, rfl, -⟩ := openCall_ok opened
  have stored : t.Stored t.row := .of_openCall opened
  have admitted : t.row.Administered { t.row with state := .admitted } :=
    ⟨rfl, rfl, rfl, rfl, le_rfl, .inr ⟨.inl state.1, .inl rfl⟩⟩
  obtain ⟨call, found, reserved⟩ := stored
  let u : Txn := { t with draws := 1, db := { t.db with admissions := t.db.admissions ++
    [⟨receipt.key, uuid 0, receipt.key.scope.accountRef, receipt.key.scope.deploymentRef,
      run.ownerGeneration, at_, receipt.expiresAt, false⟩] } }
  have aside : Effect H shown t.db u.db := .aside rfl rfl rfl rfl (.of_eq rfl)
  have here : u.Stored t.row := ⟨call, found, reserved⟩
  obtain ⟨events, -⟩ := (here.update fun r => { r with state := .admitted }).event (H := H) rfl
    (by decide) written
  exact .trans (.tail (.single aside) (here.update_effect _ admitted)) events

theorem marker_effects {admissionId : Id} {ticket : Ticket}
    (done : marker H uuid run key admissionId ticket now db = .ok db') : Effects H shown db db' := by
  simp only [marker, bind_ok, require_ok] at done
  obtain ⟨-, -, -, -, ⟨t, core⟩, opened, -, state, done⟩ := done
  split at done
  · cases done
  · simp only [bind_ok, require_ok] at done
    obtain ⟨-, -, -, -, t', written, same⟩ := done
    obtain rfl := Except.ok.inj same
    obtain ⟨-, rfl, -⟩ := openCall_ok opened
    obtain ⟨call, found, reserved⟩ : t.Stored t.row := .of_openCall opened
    let u : Txn := { t with draws := 1, db := { t.db with markers := t.db.markers ++
      [⟨key, uuid 0, run.ownerGeneration, ticket.ticketId, core.bodyDigest⟩] } }
    have aside : Effect H shown t.db u.db := .aside rfl rfl rfl rfl (.of_eq rfl)
    have here : u.Stored t.row := ⟨call, found, reserved⟩
    obtain ⟨events, row', stored, same⟩ := here.event (H := H) rfl (by decide) written
    have sent : row'.Administered { row' with state := .sendIntent } :=
      ⟨rfl, rfl, rfl, rfl, le_rfl, .inr ⟨.inr (same.trans state.1), .inr rfl⟩⟩
    exact .tail (.trans (.single aside) events) (stored.update_effect _ sent)

theorem terminalProjection_effects {terminal : Terminal} {usage : UsageView}
    (done : terminalProjection H run key terminal usage uuid db = .ok db') : Effects H shown db db' := by
  simp only [terminalProjection, bind_ok, require_ok] at done
  obtain ⟨⟨t, core⟩, opened, -, -, t', written, same⟩ := done
  obtain rfl := Except.ok.inj same
  obtain ⟨-, rfl, -⟩ := openCall_ok opened
  exact ((Txn.Stored.of_openCall opened).event rfl (by decide) written).1

theorem finish_effects {closed : Bool} (done : finish H ctx key closed db = .ok db') :
    Effects H shown db db' := by
  simp only [finish, bind_ok, require_ok] at done
  obtain ⟨-, -, ⟨t, core⟩, opened, same⟩ := done
  obtain rfl := Except.ok.inj same
  obtain ⟨-, rfl, -⟩ := openCall_ok opened
  obtain ⟨call, found, reserved⟩ : t.Stored t.row := .of_openCall opened
  let u : Txn := { t with db := { t.db with
    admissions := closeAdmissions t.db key ctx.ownerGeneration } }
  have aside : Effect H shown t.db u.db := .aside rfl rfl rfl rfl (.of_eq rfl)
  have here : u.Stored t.row := ⟨call, found, reserved⟩
  exact .tail (.single aside) (here.update_effect _ ⟨rfl, rfl, rfl, rfl, le_rfl, .inl rfl⟩)

theorem persistCompletion_effects {completion : Completion}
    (done : persistCompletion H ctx completion uuid db = .ok db') : Effects H shown db db' := by
  simp only [persistCompletion, bind_ok] at done
  obtain ⟨⟨t, core⟩, opened, done⟩ := done
  split at done
  · obtain rfl := Except.ok.inj done
    exact .refl
  · simp only [bind_ok, require_ok] at done
    obtain ⟨t', written, -, -, same⟩ := done
    obtain rfl := Except.ok.inj same
    obtain ⟨-, rfl, -⟩ := openCall_ok opened
    have events : Effects H shown t.db t'.db :=
      ((Txn.Stored.of_openCall opened).event rfl (by decide) written).1
    exact .tail events (.aside rfl rfl rfl rfl (.of_eq rfl))

theorem finish_settlements {closed : Bool} (done : finish H ctx key closed db = .ok db') :
    db'.settlements = db.settlements := by
  simp only [finish, bind_ok, require_ok] at done
  obtain ⟨-, -, ⟨t, core⟩, -, same⟩ := done
  obtain rfl := Except.ok.inj same
  rfl

theorem persistCompletion_settlements {completion : Completion}
    (done : persistCompletion H ctx completion uuid db = .ok db') : db'.settlements = db.settlements := by
  simp only [persistCompletion, bind_ok] at done
  obtain ⟨⟨t, core⟩, opened, done⟩ := done
  split at done
  · obtain rfl := Except.ok.inj done
    rfl
  · simp only [bind_ok, require_ok] at done
    obtain ⟨t', written, -, -, same⟩ := done
    obtain rfl := Except.ok.inj same
    obtain ⟨-, rfl, -⟩ := openCall_ok opened
    obtain ⟨draws, rfl⟩ | ⟨eid, draws, -, -, rfl⟩ := Txn.event_cases written
    · rfl
    · rfl

theorem recoverCall_effects {readScope : Scope} {decisionId ownerId : Id} {generation : Nat}
    {closed : Bool}
    (done : recoverCall H readScope key decisionId generation ownerId closed db = .ok db') :
    Effects H shown db db' := by
  simp only [recoverCall, bind_ok, require_ok] at done
  obtain ⟨-, -, -, -, ⟨t, core⟩, opened, -, -, -, -, same⟩ := done
  obtain rfl := Except.ok.inj same
  obtain ⟨-, rfl, -⟩ := openCall_ok opened
  obtain ⟨call, found, reserved⟩ : t.Stored t.row := .of_openCall opened
  let u : Txn := { t with db := { t.db with
    recoveries := t.db.recoveries ++ [⟨decisionId, some key, generation + 1,
      some ⟨readScope, key, decisionId, ownerId, generation + 1⟩⟩]
    admissions := closeAdmissions t.db key generation } }
  have aside : Effect H shown t.db u.db := .aside rfl rfl rfl rfl (.of_eq rfl)
  have here : u.Stored t.row := ⟨call, found, reserved⟩
  exact .tail (.single aside) (here.update_effect _ ⟨rfl, rfl, rfl, rfl, le_rfl, .inl rfl⟩)

end Administration

/-! ## Reservations -/

section Reservations

variable {uuid : Uuids} {run : RunContext} {now : Int}

theorem installPolicy_effects {scope : Scope} {kind : ScopeKind} {policy : Policy}
    (done : installPolicy scope kind policy db = .ok db') : Effects H shown db db' := by
  simp only [installPolicy, bind_ok, require_ok] at done
  obtain ⟨-, ranges, done⟩ := done
  split at done
  · simp only [bind_ok, require_ok] at done
    obtain ⟨-, -, same⟩ := done
    obtain rfl := Except.ok.inj same
    exact .refl
  · rename_i absent
    simp only [bind_ok, require_ok] at done
    obtain ⟨-, -, -, -, -, -, same⟩ := done
    obtain rfl := Except.ok.inj same
    refine .single (.install absent ?_ ranges.2.2.1 ranges.2.2.2)
    intro d
    cases d with
    | tokens => exact ranges.1
    | microusd => exact ranges.2.1

/-- An event changes nothing but the ledger and the event count. -/
theorem event_tables {t t' : Txn} {kind : EventKind} {record : EventRecord} {eventId : Option Id}
    {recovery : Bool} (written : t.event uuid kind record eventId recovery = .ok t')
    (plain : kind ≠ .recoveryResolved ∧ kind ≠ .conflict) (call : Call)
    (stored : t.db.calls.row t.key = some { call with reservation := some t.row }) :
    t'.key = t.key ∧ (∃ n, t'.row = { t.row with eventCount := n }) ∧
      t'.db.calls = t.db.calls.put t.key { call with reservation := some t'.row } ∧
      t'.db.budgets = t.db.budgets ∧ t'.db.settlements = t.db.settlements ∧
      t'.db.postings = t.db.postings ∧ Quiet t.db t'.db := by
  obtain ⟨draws, rfl⟩ | ⟨eid, draws, -, -, rfl⟩ := Txn.event_cases written
  · refine ⟨rfl, ⟨t.row.eventCount, rfl⟩, ?_, rfl, rfl, rfl, .of_eq rfl⟩
    rw [Table.put_self_of_row _ stored]
  · refine ⟨rfl, ⟨_, rfl⟩, ?_, rfl, rfl, rfl, ⟨_, rfl, ?_⟩⟩
    · show t.db.calls.modify t.key _ = _
      rw [Table.modify_of_row _ _ stored]
      rfl
    · simpa using plain

/-- Both balances of a scope, written one after the other. -/
theorem modify_both {scope : Scope} {account task : Budget} {f g : Budget → Budget}
    (atAccount : db.budgets.row (balanceId scope .account) = some account)
    (atTask : db.budgets.row (balanceId scope .task) = some task) :
    (db.budgets.modify (balanceId scope .account) f).modify (balanceId scope .task) g =
      (db.budgets.put (balanceId scope .account) (f account)).put (balanceId scope .task) (g task) := by
  have kept : (db.budgets.put (balanceId scope .account) (f account)).row (balanceId scope .task) =
      some task := by
    rw [Table.row_put_of_ne _ _ (balanceId_ne scope scope).symm, atTask]
  rw [Table.modify_of_row _ _ atAccount, Table.modify_of_row _ _ kept]

/-- What a fresh reservation has checked and written. -/
theorem reserveFresh_inserted {prepared : Prepared} {account task : Budget} {result : Reserved}
    (absent : db.calls.row key = none)
    (atAccount : db.budgets.row (balanceId key.scope .account) = some account)
    (atTask : db.budgets.row (balanceId key.scope .task) = some task)
    (done : reserveFresh uuid run key prepared account task db = .ok (db', result)) :
    ∃ row, Inserted db db' key row account task (account.balance.charge prepared.core.reserved)
        (task.balance.charge prepared.core.reserved) ∧
      row.receipt.reserved = prepared.core.reserved ∧ account.affords prepared.core ∧
      task.affords prepared.core := by
  simp only [reserveFresh, bind_ok, require_ok] at done
  obtain ⟨-, -, -, affords, -, -, -, -, -, -, t, written, same⟩ := done
  obtain ⟨rfl, rfl⟩ := Prod.mk.inj (Except.ok.inj same)
  obtain ⟨atKey, ⟨n, row⟩, calls, budgets, settlements, postings, quiet⟩ :=
    event_tables written (by decide)
      ⟨prepared.core, balanceId key.scope .account, balanceId key.scope .task, none⟩
      (Table.row_put_self _ _ _)
  have atKey : t.key = key := atKey
  refine ⟨t.row, ⟨?_, atAccount, atTask, ⟨⟨prepared.core, _, _, none⟩, ?_, .inr ⟨absent, rfl, rfl⟩⟩, ?_,
    settlements, postings, quiet, ?_, ?_, ?_, ?_, ?_⟩, ?_, affords⟩
  · simp [absent]
  · exact calls.trans (Table.put_put _ _ _ _)
  · show (t.db.budgets.modify (balanceId t.key.scope .account) _).modify
      (balanceId t.key.scope .task) _ = _
    rw [budgets, atKey]
    exact modify_both atAccount atTask
  all_goals rw [row]
  all_goals first | rfl | exact .inl rfl

theorem reserveV1_effects {prepared : Prepared} {result : Reserved}
    (done : reserveV1 H uuid run key prepared now db = .ok (db', result)) : Effects H shown db db' := by
  simp only [reserveV1, bind_ok, require_ok] at done
  obtain ⟨-, -, -, -, -, -, ⟨account, task⟩, active, done⟩ := done
  obtain ⟨read, active⟩ := activeBudgets_ok active
  obtain ⟨atAccount, atTask⟩ := budgetsOf_ok read
  split at done
  · simp only [bind_ok, require_ok] at done
    obtain ⟨row, called, -, -, same⟩ := done
    obtain ⟨rfl, -⟩ := Prod.mk.inj (Except.ok.inj same)
    exact .refl
  · rename_i absent
    split at done
    · rename_i original found
      simp only [bind_ok, require_ok] at done
      obtain ⟨-, sameScope, ⟨row, old⟩, called, t, conflicted, same⟩ := done
      obtain ⟨rfl, -⟩ := Prod.mk.inj (Except.ok.inj same)
      have opened : openCall H db original none = .ok (⟨db, original, row, account.balance,
          task.balance, account.policy, task.policy, 0⟩, old) := by
        simp only [openCall, sameScope, read, called]
        rfl
      exact .single (.contradict opened conflicted)
    · obtain ⟨row, inserted, reserved, affords⟩ := reserveFresh_inserted absent atAccount atTask done
      exact .single (.reserve inserted reserved active affords)

/-- A restored call takes the surviving core row, or a new one under its key. -/
theorem restoreCall_eq (db : Db) (key : ReservationKey) (core : BindingCore) :
    ∃ call, (db.calls.row key = some call ∨ db.calls.row key = none ∧
        call.accountBalance = balanceId key.scope .account ∧ call.taskBalance = balanceId key.scope .task) ∧
      ∀ row, restoreCall db key core row =
        { db with calls := db.calls.put key { call with reservation := some row } } := by
  cases found : db.calls.row key with
  | some old =>
      refine ⟨old, .inl rfl, fun row => ?_⟩
      rw [restoreCall, found]
  | none =>
      refine ⟨⟨core, _, _, none⟩, .inr ⟨rfl, rfl, rfl⟩, fun row => ?_⟩
      rw [restoreCall, found]
      rfl

/-- What `restore_liability` has checked and written. -/
theorem restoreLiability_inserted {readScope : Scope} {decisionId ownerId : Id}
    {evidence : ParentEvidence} {covered : Bool}
    (done : restoreLiability H uuid readScope key decisionId ownerId evidence covered db = .ok db') :
    ∃ row account task, Inserted db db' key row account task
        (account.balance.restore (fun d => heldSum db (balanceId key.scope .account) d +
          row.receipt.reserved d) (callCount db (balanceId key.scope .account) + 1))
        (task.balance.restore (fun d => heldSum db (balanceId key.scope .task) d +
          row.receipt.reserved d) (callCount db (balanceId key.scope .task) + 1)) ∧
      row.receipt = evidence.receipt ∧ row.state = .inDoubt ∧
      checkRestorable db account (balanceId key.scope .account) evidence.receipt = .ok () ∧
      checkRestorable db task (balanceId key.scope .task) evidence.receipt = .ok () := by
  simp only [restoreLiability, bind_ok, require_ok] at done
  obtain ⟨-, -, -, -, -, evident, ⟨account, task⟩, read, ⟨⟩, omitted, ⟨⟩, accountChecked, ⟨⟩, taskChecked,
    -, -, -, -, t, written, same⟩ := done
  obtain rfl := Except.ok.inj same
  obtain ⟨atAccount, atTask⟩ := budgetsOf_ok read
  obtain ⟨call, place, stored⟩ := restoreCall_eq db key evidence.core
  simp only [stored] at written
  obtain ⟨atKey, ⟨n, row⟩, calls, budgets, settlements, postings, quiet⟩ :=
    event_tables written (by decide) call (Table.row_put_self _ _ _)
  have absent : ∀ old ∈ db.calls.row key, old.reservation = none := by
    intro old found
    simp only [checkOmitted, Option.mem_def.1 found, require_ok] at omitted
    exact omitted.2
  have receipt : t.row.receipt = evidence.receipt := by rw [row]; rfl
  refine ⟨t.row, account, task, ⟨absent, atAccount, atTask, ⟨call, ?_, place⟩, ?_, settlements, postings,
    quiet, ?_, ?_, ?_, ?_, ?_⟩, receipt, ?_, accountChecked, taskChecked⟩
  · exact calls.trans (Table.put_put _ _ _ _)
  · rw [receipt]
    exact budgets.trans (modify_both atAccount atTask)
  · rw [receipt]
    exact evident.2
  all_goals rw [row]
  all_goals first | rfl | exact .inr rfl

theorem checkRestorable_ok {b : Budget} {id : BalanceId} {receipt : Receipt} {u : Unit}
    (checked : checkRestorable db b id receipt = .ok u) :
    (∀ d, b.balance.settled d = actualSum db id d) ∧
      ((∀ d, b.balance.held d = heldSum db id d) ∨
        ∀ d, b.balance.held d = heldSum db id d + receipt.reserved d) ∧
      ∀ d, heldSum db id d + receipt.reserved d ≤ maxN := by
  simp only [checkRestorable, bind_ok, require_ok] at checked
  obtain ⟨-, settled, -, held, fits⟩ := checked
  exact ⟨settled, held, fits⟩

theorem restoreLiability_effects {readScope : Scope} {decisionId ownerId : Id}
    {evidence : ParentEvidence} {covered : Bool}
    (done : restoreLiability H uuid readScope key decisionId ownerId evidence covered db = .ok db') :
    Effects H shown db db' := by
  obtain ⟨row, account, task, inserted, receipt, -, accountChecked, taskChecked⟩ :=
    restoreLiability_inserted done
  refine .single (.restore inserted fun d => ?_)
  rw [receipt]
  exact ⟨(checkRestorable_ok accountChecked).2.2 d, (checkRestorable_ok taskChecked).2.2 d⟩

/-! ## Settlement, recovery and pauses -/

theorem markUnknown_effect {ctx : Context} (done : markUnknown H ctx key db = .ok db') :
    Effect H shown db db' := by
  simp only [markUnknown, bind_ok] at done
  obtain ⟨⟨t, core⟩, opened, same⟩ := done
  obtain rfl := Except.ok.inj same
  obtain ⟨plain, -⟩ := openCall_ok opened
  exact .suspend plain

theorem select_listed {R : Reconcile} {ids : List Id} {selected : List Observation}
    (chosen : R.select ids = some selected) : ∀ e ∈ selected, e ∈ R.observer.inventory := by
  induction ids generalizing selected with
  | nil =>
      obtain rfl : [] = selected := Option.some.inj chosen
      exact fun e member => nomatch member
  | cons i rest ih =>
      simp only [Reconcile.select, List.mapM_cons, Option.bind_eq_bind, Option.bind_eq_some_iff,
        Option.pure_def, Option.some.injEq] at chosen
      obtain ⟨e, found, others, picked, rfl⟩ := chosen
      intro x member
      rcases List.mem_cons.1 member with rfl | member
      · exact List.mem_of_find?_eq_some found
      · exact ih picked x member

/-- What `reconcile_v1` leaves: its transaction, if it came to one, and then
`mark_unknown`, if coverage was lost. -/
theorem reconcileV1_cases (R : Reconcile) (ids : List Id) (db : Db) :
    ∃ middle, (middle = db ∨ R.Transacted db middle) ∧
      ((R.reconcileV1 ids db).1 = middle ∨
        markUnknown R.hashes R.ctx R.key middle = .ok (R.reconcileV1 ids db).1) := by
  have unknown (middle : Db) (next : Db → Except PortCode Disposition) :
      (R.unknownThen middle next).1 = middle ∨
        markUnknown R.hashes R.ctx R.key middle = .ok (R.unknownThen middle next).1 := by
    unfold Reconcile.unknownThen
    split
    · exact .inl rfl
    · rename_i after marked
      exact .inr marked
  simp only [Reconcile.reconcileV1]
  split
  · exact ⟨db, .inl rfl, .inl rfl⟩
  split
  · exact ⟨db, .inl rfl, .inl rfl⟩
  rename_i bounded
  split
  · exact ⟨db, .inl rfl, .inl rfl⟩
  rename_i selected chosen
  split
  · exact ⟨db, .inl rfl, unknown db _⟩
  have transacts {t : Txn} {found : Bool} (done : (openCall R.hashes db R.key (some R.ctx) >>=
      fun opened => R.transact opened.1 opened.2 selected) = .ok (t, found)) :
      R.Transacted db t.db := by
    rw [bind_ok] at done
    obtain ⟨⟨opened, core⟩, called, transacted⟩ := done
    exact ⟨opened, t, core, selected, found, called, (not_not.1 bounded).2, select_listed chosen,
      transacted, rfl⟩
  split
  · exact ⟨db, .inl rfl, .inl rfl⟩
  · rename_i t done
    exact ⟨t.db, .inr (transacts done), .inl rfl⟩
  · rename_i t done
    split
    · exact ⟨t.db, .inr (transacts done), .inl rfl⟩
    · exact ⟨t.db, .inr (transacts done), unknown t.db _⟩

/-- What `reconcile_v1` returns is the disposition of the call as it leaves it. -/
theorem reconcileV1_current {R : Reconcile} {ids : List Id} {disposition : Disposition}
    (done : R.reconcileV1 ids db = (db', .ok disposition)) :
    currentSettlement R.hashes db' R.key = .ok disposition := by
  have unknown {middle : Db} {next : Db → Except PortCode Disposition}
      (done : R.unknownThen middle next = (db', .ok disposition)) : next db' = .ok disposition := by
    unfold Reconcile.unknownThen at done
    split at done
    · cases (Prod.mk.inj done).2
    · obtain ⟨rfl, answer⟩ := Prod.mk.inj done
      exact answer
  simp only [Reconcile.reconcileV1] at done
  split at done
  · cases (Prod.mk.inj done).2
  split at done
  · cases (Prod.mk.inj done).2
  split at done
  · cases (Prod.mk.inj done).2
  split at done
  · cases unknown done
  split at done
  · cases (Prod.mk.inj done).2
  · cases (Prod.mk.inj done).2
  · split at done
    · obtain ⟨rfl, answer⟩ := Prod.mk.inj done
      exact answer
    · exact unknown done

theorem currentSettlement_settled {record : Settlement}
    (done : currentSettlement H db key = .ok (.settled record)) : latestSettlement db key = some record := by
  simp only [currentSettlement, bind_ok] at done
  obtain ⟨-, -, ⟨row, core⟩, -, done⟩ := done
  split at done
  · split at done
    · cases done
    · next latest =>
      obtain rfl := Disposition.settled.inj (Except.ok.inj done)
      exact latest
  · cases done

theorem reconcileV1_effects (R : Reconcile) (allowed : shown R.key R.observer.inventory)
    (ids : List Id) : Effects R.hashes shown db (R.reconcileV1 ids db).1 := by
  obtain ⟨middle, first, second⟩ := reconcileV1_cases R ids db
  have before : Effects R.hashes shown db middle := by
    rcases first with rfl | transacted
    · exact .refl
    · exact .single (.reconcile rfl allowed transacted)
  rcases second with same | marked
  · rwa [same]
  · exact before.tail (markUnknown_effect marked)

theorem resumable_effect {authority : Authority} {listed : List ReservationKey} {id : BalanceId}
    {b : Budget} (found : db'.budgets.row id = some b)
    (ready : resumable H authority listed now db id b) : Effect H shown db' (activate db' id) := by
  obtain ⟨state, held, -, caps, calls, wall, -⟩ := ready
  exact .resume found state held caps calls wall

theorem resumeBudgets_effects {authority : Authority} {listed : List ReservationKey} {scope : Scope}
    {decisionId : Id} {account task : Bool}
    (done : resumeBudgets H authority listed scope decisionId account task now db = .ok db') :
    Effects H shown db db' := by
  simp only [resumeBudgets, bind_ok, require_ok] at done
  obtain ⟨⟨accountBudget, taskBudget⟩, read, -, readyAccount, -, readyTask, -, -, same⟩ := done
  obtain rfl := Except.ok.inj same
  obtain ⟨atAccount, atTask⟩ := budgetsOf_ok read
  have first : Effects H shown db (if account then activate db (balanceId scope .account) else db) := by
    split
    · rename_i chosen
      exact .single (resumable_effect atAccount (readyAccount chosen))
    · exact .refl
  have stillTask : (if account then activate db (balanceId scope .account) else db).budgets.row
      (balanceId scope .task) = some taskBudget := by
    split
    · show (db.budgets.modify _ _).row _ = _
      rw [Table.modify_of_row _ _ atAccount,
        Table.row_put_of_ne _ _ (balanceId_ne scope scope).symm, atTask]
    · exact atTask
  generalize (if account then activate db (balanceId scope .account) else db) = middle at *
  have second : Effects H shown middle (if task then activate middle (balanceId scope .task) else middle) := by
    split
    · rename_i chosen
      exact .single (resumable_effect stillTask (readyTask chosen))
    · exact .refl
  exact .tail (first.trans second) (.aside rfl rfl rfl rfl (.of_eq rfl))

theorem cancelV1_effects {readScope : Scope} (done : cancelV1 H readScope key db = .ok db') :
    Effects H shown db db' := by
  simp only [cancelV1, bind_ok, require_ok] at done
  obtain ⟨-, -, ⟨t, core⟩, opened, -, -, same⟩ := done
  obtain rfl := Except.ok.inj same
  obtain ⟨-, rfl, -⟩ := openCall_ok opened
  exact .single .cancel

/-- The inventory an operation is shown. -/
def Op.shows : Op → Shown
  | .reconcile _ _ key observer _ _ => fun k inventory => k = key ∧ inventory = observer.inventory
  | _ => fun _ _ => False

/-- **Every operation is a sequence of effects.** -/
theorem Op.effects (H : Hashes) (db : Db) (op : Op) : Effects H op.shows db (op.apply H db) := by
  cases op with
  | installPolicy scope kind policy =>
      exact commit_cases (P := Effects H _ db) .refl fun _ => installPolicy_effects
  | reserve uuid run key prepared now =>
      refine commit_cases (P := Effects H _ db) .refl fun db' done => ?_
      obtain ⟨result, reserved, rfl⟩ := map_ok.1 done
      exact reserveV1_effects reserved
  | admission uuid run receipt now at_ =>
      exact commit_cases (P := Effects H _ db) .refl fun _ => admitV1_effects
  | marker uuid run key admissionId ticket now =>
      exact commit_cases (P := Effects H _ db) .refl fun _ => marker_effects
  | markUnknown ctx key =>
      exact commit_cases (P := Effects H _ db) .refl fun _ done => .single (markUnknown_effect done)
  | terminalProjection ctx key terminal usage uuid =>
      exact commit_cases (P := Effects H _ db) .refl fun _ => terminalProjection_effects
  | reconcile uuid ctx key observer recoveryDecision ids =>
      exact reconcileV1_effects ⟨H, uuid, ctx, key, observer, recoveryDecision⟩ ⟨rfl, rfl⟩ ids
  | finish ctx key closed => exact commit_cases (P := Effects H _ db) .refl fun _ => finish_effects
  | persistCompletion ctx completion uuid =>
      exact commit_cases (P := Effects H _ db) .refl fun _ => persistCompletion_effects
  | recoverCall readScope key decisionId generation ownerId closed =>
      exact commit_cases (P := Effects H _ db) .refl fun _ => recoverCall_effects
  | restoreLiability uuid readScope key decisionId ownerId evidence covered =>
      exact commit_cases (P := Effects H _ db) .refl fun _ => restoreLiability_effects
  | inventory authority now =>
      refine commit_cases (P := Effects H _ db) .refl fun db' done => ?_
      obtain ⟨result, listed, rfl⟩ := map_ok.1 done
      simp only [Accounting.inventory, bind_ok, require_ok] at listed
      obtain ⟨-, -, -, -, -, -, same⟩ := listed
      obtain rfl := Except.ok.inj same
      exact .single (.pause _)
  | resumeBudgets authority listed scope decisionId account task now =>
      exact commit_cases (P := Effects H _ db) .refl fun _ => resumeBudgets_effects
  | cancel readScope key => exact commit_cases (P := Effects H _ db) .refl fun _ => cancelV1_effects
  | pauseAdmission deployment => exact .single (.pause _)
  | recordDecision decisionId generation =>
      refine commit_cases (P := Effects H _ db) .refl fun db' done => ?_
      simp only [Accounting.recordDecision, bind_ok, require_ok] at done
      obtain ⟨-, -, same⟩ := done
      obtain rfl := Except.ok.inj same
      exact .single (.aside rfl rfl rfl rfl (.of_eq rfl))

/-- What every effect keeps, every reachable state has. -/
theorem Reachable.of_effects {I : Db → Prop} (start : I .empty)
    (keep : ∀ shown db db', Effect H shown db db' → I db → I db')
    (reach : (accounting H).Reachable db) : I db := by
  refine System.Reachable.invariant (fun s initial => ?_) (fun s op t holds step => ?_) reach
  · obtain rfl : s = .empty := initial
    exact start
  · obtain rfl : t = op.apply H s := step
    exact (Op.effects H s op).preserves (keep op.shows) holds

end Reservations

end ApiSecurityPlatform.Accounting
