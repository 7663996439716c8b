/-
# Accounting.Operations -- the operations of `BudgetStore` and `Recovery`

Each operation is its SQL transaction (`reconcile_v1`, `resume_budgets` and their
like are two).  An operation that raises leaves the database as it was, except
where the source commits first and raises afterwards: the core-conflict branch of
`reserve_v1`, a `reconcile_v1` that found a contradiction, an inventory with a
mismatch.

Readings of the clock, answers of the producer and the authority, and drawn uuids
are arguments.  `accounting` is the system of all operations in any order.
-/
import ApiSecurityPlatform.Theory.Transition
import ApiSecurityPlatform.Accounting.Reconcile

namespace ApiSecurityPlatform.Accounting

open ApiSecurityPlatform.Theory

set_option autoImplicit false

/-! ## `install_policy` -/

/-- The columns of `UniqueConstraint(scope_kind, account_ref, task_id, policy_id,
policy_version)`. -/
def BalanceId.period : BalanceId → ScopeKind × Id × Option Id × Id × Nat
  | .account f => (.account, f.accountRef, none, f.policyId, f.policyVersion)
  | .task f taskId .. => (.task, f.accountRef, some taskId, f.policyId, f.policyVersion)

/-- A budget a new period of the account may follow. -/
def Budget.quiet (b : Budget) : Prop :=
  (∀ d, b.balance.held d = 0) ∧ b.balance.state ≠ .pausedUnknown ∧ b.balance.state ≠ .cancelled

instance (b : Budget) : Decidable b.quiet := inferInstanceAs (Decidable (_ ∧ _ ∧ _))

def countInRange (x : Option Int) : Prop := ∀ n ∈ x, 0 ≤ n ∧ n ≤ maxN

instance (x : Option Int) : Decidable (countInRange x) :=
  match x with
  | none => isTrue (by simp [countInRange])
  | some n => decidable_of_iff (0 ≤ n ∧ n ≤ maxN) (by simp [countInRange])

def openingBalance : Balance where
  settled _ := 0
  held _ := 0
  calls := 0
  wallNs := 0
  state := .active
  cancelGeneration := 1

def installPolicy (scope : Scope) (kind : ScopeKind) (policy : Policy) (db : Db) :
    Except PortCode Db := do
  require (countInRange policy.tokenCap ∧ countInRange policy.costCap ∧
    countInRange policy.callCap ∧ countInRange policy.wallCapNs) .invalidRecord
  let id := balanceId scope kind
  match db.budgets.row id with
  | some old => do
      require (old.policy = policy) .conflict
      return db
  | none => do
      require (∀ other ∈ db.budgets.keys, other.kind = .account →
        other.document.accountRef = scope.accountRef →
          ∀ b ∈ db.budgets.row other, Budget.quiet b) .reservationUnavailable
      require (kind = .task → (db.budgets.keys.filter fun other => other.kind = .task ∧
        other.document.accountRef = scope.accountRef).length < 4096) .limitExceeded
      require (policy.validFrom < policy.expiresAt ∧ ∀ other ∈ db.budgets.keys,
        other.period ≠ id.period) .databaseError
      return { db with budgets := db.budgets.put id ⟨policy, openingBalance⟩ }

/-! ## `reserve_v1` -/

/-- The prepared call: its core and the manifest it was prepared from. -/
structure Prepared where
  core : BindingCore
  manifestDigest : Id

inductive Reserved where
  | receipt (receipt : Receipt)
  /-- Another core asks the same question: committed as a conflict, then raised. -/
  | coreConflict
deriving DecidableEq

/-- The call already reserved for the same question of the same case. -/
def sameQuestion (db : Db) (key : ReservationKey) (core : BindingCore) : Option ReservationKey :=
  db.calls.keys.find? fun k => k.scope.taskId = key.scope.taskId ∧
    k.scope.caseId = key.scope.caseId ∧
    ((db.calls.row k).map fun c => c.core.questionId) = some core.questionId

/-- What a fresh reservation needs of one budget. -/
def Budget.affords (b : Budget) (core : BindingCore) : Prop :=
  (∀ d, withinCap (b.policy.cap d) (b.balance.settled d + b.balance.held d + core.reserved d)) ∧
    (∀ c ∈ b.policy.callCap, b.balance.calls < c) ∧
    withinCap b.policy.wallCapNs (b.balance.wallNs + 30000000000)

instance (b : Budget) (core : BindingCore) : Decidable (b.affords core) :=
  inferInstanceAs (Decidable (_ ∧ (∀ c ∈ b.policy.callCap, b.balance.calls < c) ∧ _))

/-- The states of the calls of the key's case. -/
def caseStates (db : Db) (key : ReservationKey) : List ReservationState :=
  db.calls.keys.filterMap fun k =>
    if k.scope.taskId = key.scope.taskId ∧ k.scope.caseId = key.scope.caseId then
      ((db.calls.row k).bind Call.reservation).map Reservation.state
    else none

def taskCases (db : Db) (key : ReservationKey) : List Id :=
  ((db.calls.keys.filter fun k => k.scope.taskId = key.scope.taskId).map
    fun k => k.scope.caseId).dedup

def Balance.charge (b : Balance) (reserved : Amount) : Balance :=
  { b with
    held := fun d => b.held d + reserved d
    calls := b.calls + 1
    wallNs := b.wallNs + 30000000000 }

def newReservation (receipt : Receipt) : Reservation where
  receipt := receipt
  ownerId := receipt.ownerId
  ownerGeneration := receipt.ownerGeneration
  state := .reserved
  held := receipt.reserved
  actual _ := 0
  eventCount := 0
  closed := false
  cancelled := false
  revision := 0

/-- The inserts of a fresh reservation. -/
def insertCall (db : Db) (key : ReservationKey) (core : BindingCore) (row : Reservation) : Db :=
  let call : Call := ⟨core, balanceId key.scope .account, balanceId key.scope .task, some row⟩
  { db with calls := db.calls.put key call }

def reserveFresh (uuid : Uuids) (run : RunContext) (key : ReservationKey) (prepared : Prepared)
    (account task : Budget) (db : Db) : Except PortCode (Db × Reserved) := do
  let core := prepared.core
  require (task.policy.manifestDigest = prepared.manifestDigest) .reservationUnavailable
  require (account.affords core ∧ task.affords core) .reservationUnavailable
  let cases_ := caseStates db key
  require (cases_.length < 2 ∧ ∀ s ∈ cases_, s = .settled) .reservationUnavailable
  require ((taskCases db key).length < 32 ∨ cases_ ≠ []) .limitExceeded
  let receipt : Receipt :=
    ⟨key, uuid 0, run.ownerId, run.ownerGeneration, core.reserved, core.expiresAt, core.minimum,
      core.maximum⟩
  -- `UniqueConstraint(call_ref)` and the unique `reservation_id`
  require (∀ k ∈ db.calls.keys, k.callRef ≠ key.callRef ∧
    ∀ c ∈ db.calls.row k, ∀ r ∈ c.reservation, r.receipt.reservationId ≠ uuid 0) .databaseError
  let row := newReservation receipt
  let t : Txn := ⟨insertCall db key core row, key, row, account.balance, task.balance,
    account.policy, task.policy, 1⟩
  let t ← t.event uuid .reserved (.reserved key) none false
  let t := t.updateBalance t.accountId fun _ => account.balance.charge core.reserved
  let t := t.updateBalance t.taskId fun _ => task.balance.charge core.reserved
  return (t.db, .receipt receipt)

def reserveV1 (H : Hashes) (uuid : Uuids) (run : RunContext) (key : ReservationKey)
    (prepared : Prepared) (now : Int) (db : Db) : Except PortCode (Db × Reserved) := do
  let core := prepared.core
  require (key = ⟨core.scope, core.callRef, H.core core⟩ ∧ run.scope = key.scope ∧
    run.callRef = key.callRef) .reservationUnavailable
  require (core.validFrom ≤ now ∧ now < core.expiresAt) .sourceUnavailable
  require (run.deadlineAt ≤ core.expiresAt) .deadlineExceeded
  let (account, task) ← activeBudgets db key.scope now (some core.expiresAt)
  match db.calls.row key with
  | some _ => do
      let (row, old) ← callOf H db key (some (.run run))
      require (old = core) .conflict
      return (db, .receipt row.receipt)
  | none =>
      match sameQuestion db key core with
      | some original => do
          require (original.scope = key.scope) .reservationUnavailable
          let (row, old) ← callOf H db original none
          let t : Txn := ⟨db, original, row, account.balance, task.balance, account.policy,
            task.policy, 0⟩
          let t ← t.conflict uuid (H.core old) (H.core core) .coreConflict none
          return (t.db, .coreConflict)
      | none => reserveFresh uuid run key prepared account task db

/-! ## `admit_v1`, `marker` -/

/-- The clock is read twice: `now` for the policies, and `at_`, the time of the
admission, after the two queries. -/
def admitV1 (H : Hashes) (uuid : Uuids) (run : RunContext) (receipt : Receipt) (now at_ : Int)
    (db : Db) : Except PortCode Db := do
  let key := receipt.key
  let _ ← activeBudgets db key.scope now none
  let (t, core) ← openCall H db key (some (.run run))
  require (t.row.state = .reserved ∧ t.row.cancelled = false ∧ t.row.closed = false)
    .reservationUnavailable
  require (t.row.receipt = receipt) .reservationUnavailable
  let near := db.admissions.filter fun a =>
    a.accountRef = key.scope.accountRef ∨ a.deploymentRef = key.scope.deploymentRef
  let occupied := near.find? fun a => !a.closed
  require (occupied = none) .reservationUnavailable
  let recent := (near.map Admission.admittedAt).max?
  require (now ≤ at_) .contextChanged
  require (core.validFrom ≤ at_ ∧ at_ < receipt.expiresAt) .sourceUnavailable
  require (∀ last ∈ recent, last + 1000000 ≤ at_) .reservationUnavailable
  let admission : Admission := ⟨key, uuid 0, key.scope.accountRef, key.scope.deploymentRef,
    run.ownerGeneration, at_, receipt.expiresAt, false⟩
  require (∀ a ∈ db.admissions, a.key ≠ key ∧ a.admissionId ≠ uuid 0) .databaseError
  let t := { t with draws := 1, db := { db with admissions := db.admissions ++ [admission] } }
  let t := t.updateReservation fun r => { r with state := .admitted }
  let t ← t.event uuid .admitted
    (.admission (uuid 0) run.ownerGeneration at_ receipt.expiresAt) none false
  return t.db

/-- The acceptance ticket the marker records. -/
structure Ticket where
  ticketId : Id
  key : ReservationKey
  ownerGeneration : Nat
  bodyDigest : Id
deriving DecidableEq, Repr

def marker (H : Hashes) (uuid : Uuids) (run : RunContext) (key : ReservationKey)
    (admissionId : Id) (ticket : Ticket) (now : Int) (db : Db) : Except PortCode Db := do
  require (ticket.key = key ∧ ticket.ownerGeneration = run.ownerGeneration) .invalidRecord
  let _ ← activeBudgets db key.scope now none
  let (t, core) ← openCall H db key (some (.run run))
  require (t.row.state = .admitted ∧ t.row.cancelled = false) .reservationUnavailable
  match db.admissions.find? fun a => a.key = key with
  | none => .error .databaseError
  | some stored => do
      require (stored.closed = false ∧ stored.admissionId = admissionId ∧
        stored.ownerGeneration = run.ownerGeneration ∧ ticket.bodyDigest = core.bodyDigest) .ownerLost
      require (∀ m ∈ db.markers, m.key ≠ key ∧ m.eventId ≠ uuid 0) .databaseError
      let entry : Marker := ⟨key, uuid 0, run.ownerGeneration, ticket.ticketId, core.bodyDigest⟩
      let t := { t with draws := 1, db := { db with markers := db.markers ++ [entry] } }
      let t ← t.event uuid .sendIntent (.sendIntent key ticket.ticketId) (some (uuid 0)) false
      return (t.updateReservation fun r => { r with state := .sendIntent }).db

/-! ## `terminal_projection`, `finish`, `persist_completion` -/

/-- `eventId` is the digest of the projection. -/
def terminalProjection (H : Hashes) (ctx : RunContext) (key : ReservationKey) (terminal : Terminal)
    (usage : UsageView) (uuid : Uuids) (db : Db) : Except PortCode Db := do
  let record : EventRecord := .projection key ctx.ownerGeneration terminal usage
  let (t, _) ← openCall H db key none
  require (ctx.scope = key.scope ∧ ctx.ownerGeneration ≤ t.row.ownerGeneration) .ownerLost
  let t ← t.event uuid .terminalProjection record (some (H.record record)) false
  return t.db

/-- The admissions of a call under one owner generation are closed. -/
def closeAdmissions (db : Db) (key : ReservationKey) (generation : Nat) : List Admission :=
  db.admissions.map fun a =>
    if a.key = key ∧ a.ownerGeneration = generation then { a with closed := true } else a

/-- `closed` says that the observer has closed the call, under full coverage. -/
def finish (H : Hashes) (ctx : Context) (key : ReservationKey) (closed : Bool) (db : Db) :
    Except PortCode Db := do
  require (closed = true) .observerUnavailable
  let (t, _) ← openCall H db key (some ctx)
  let t := { t with db := { db with admissions := closeAdmissions db key ctx.ownerGeneration } }
  return (t.updateReservation fun r => { r with closed := true }).db

def persistCompletion (H : Hashes) (ctx : Context) (completion : Completion) (uuid : Uuids)
    (db : Db) : Except PortCode Db := do
  let (t, _) ← openCall H db completion.key (some ctx)
  if db.completions.any fun c => c.digest = completion.digest then return db
  else do
    let t ← t.event uuid .completion (.completion completion) (some completion.completionId) true
    require (∀ c ∈ db.completions, c.completionId ≠ completion.completionId) .databaseError
    return { t.db with completions := t.db.completions ++ [completion] }

/-! ## `recover_call`, `restore_liability` -/

/-- `closed` says that the authority closed the stream, under full coverage. -/
def recoverCall (H : Hashes) (readScope : Scope) (key : ReservationKey) (decisionId : Id)
    (expectedGeneration : Nat) (ownerId : Id) (closed : Bool) (db : Db) : Except PortCode Db := do
  require (readScope = key.scope) .invalidRecord
  require (closed = true) .observerUnavailable
  let (t, _) ← openCall H db key none
  require (t.row.ownerGeneration = expectedGeneration ∧ expectedGeneration < 2147483647) .ownerLost
  require (∀ d ∈ db.recoveries, d.decisionId ≠ decisionId) .conflict
  let ctx : RecoveryContext := ⟨readScope, key, decisionId, ownerId, expectedGeneration + 1⟩
  let entry : RecoveryRow := ⟨decisionId, some key, ctx.ownerGeneration, some ctx⟩
  let t := { t with db := { db with
    recoveries := db.recoveries ++ [entry]
    admissions := closeAdmissions db key expectedGeneration } }
  return (t.updateReservation fun r =>
    { r with ownerId := ownerId, ownerGeneration := ctx.ownerGeneration, closed := true }).db

/-- The calls of a balance, as `core.join(reservation)` selects them. -/
def Call.names (c : Call) (id : BalanceId) : Prop := c.accountBalance = id ∨ c.taskBalance = id

instance (c : Call) (id : BalanceId) : Decidable (c.names id) :=
  inferInstanceAs (Decidable (_ ∨ _))

/-- A column of the reservation; a core without one contributes nothing. -/
def Call.held (c : Call) (d : Dimension) : Int := c.reservation.elim 0 fun r => r.held d

def Call.actual (c : Call) (d : Dimension) : Int := c.reservation.elim 0 fun r => r.actual d

def heldSum (db : Db) (id : BalanceId) (d : Dimension) : Int :=
  db.calls.sum fun _ c => if c.names id then c.held d else 0

def actualSum (db : Db) (id : BalanceId) (d : Dimension) : Int :=
  db.calls.sum fun _ c => if c.names id then c.actual d else 0

def callCount (db : Db) (id : BalanceId) : Int :=
  db.calls.sum fun _ c => if c.names id ∧ c.reservation.isSome then 1 else 0

/-- A balance that carries the liability of one more call, paused. -/
def Balance.restore (b : Balance) (held : Amount) (calls : Int) : Balance :=
  { b with
    held := held
    calls := max b.calls calls
    wallNs := max b.wallNs (calls * 30000000000)
    state := if b.state = .cancelled then .cancelled else .pausedUnknown }

/-- The independent evidence of a call: its core and its receipt. -/
structure ParentEvidence where
  core : BindingCore
  receipt : Receipt
  digest : Id

/-- A surviving debit without its call is not attributed: the balance must be a
complete earlier snapshot or carry exactly the reserve.  The new total has to fit
its column. -/
def checkRestorable (db : Db) (b : Budget) (id : BalanceId) (receipt : Receipt) :
    Except PortCode Unit := do
  require (∀ d, b.balance.settled d = actualSum db id d) .conflict
  require ((∀ d, b.balance.held d = heldSum db id d) ∨
    ∀ d, b.balance.held d = heldSum db id d + receipt.reserved d) .conflict
  require (∀ d, heldSum db id d + receipt.reserved d ≤ maxN) .databaseError

/-- The call is missing, and its insert violates no unique constraint. -/
def checkOmitted (db : Db) (key : ReservationKey) (evidence : ParentEvidence) :
    Except PortCode Unit :=
  match db.calls.row key with
  | some old => require (old.core = evidence.core ∧ old.reservation = none) .conflict
  | none => require (∀ k ∈ db.calls.keys, k.callRef ≠ key.callRef ∧
      ¬ (k.scope.taskId = key.scope.taskId ∧ k.scope.caseId = key.scope.caseId ∧
        ((db.calls.row k).map fun c => c.core.questionId) = some evidence.core.questionId))
      .databaseError

/-- The inserts of a restored call: a core that survived keeps its row. -/
def restoreCall (db : Db) (key : ReservationKey) (core : BindingCore) (row : Reservation) : Db :=
  match db.calls.row key with
  | some old => { db with calls := db.calls.put key { old with reservation := some row } }
  | none => insertCall db key core row

def restoreLiability (H : Hashes) (uuid : Uuids) (readScope : Scope) (key : ReservationKey)
    (decisionId ownerId : Id) (evidence : ParentEvidence) (covered : Bool) (db : Db) :
    Except PortCode Db := do
  require (readScope = key.scope) .invalidRecord
  require (covered = true) .observerUnavailable
  let receipt := evidence.receipt
  require (H.core evidence.core = key.coreDigest ∧ receipt.key = key) .conflict
  let ctx : RecoveryContext := ⟨readScope, key, decisionId, ownerId, receipt.ownerGeneration + 1⟩
  let (account, task) ← budgetsOf db key.scope
  checkOmitted db key evidence
  let accountId := balanceId key.scope .account
  let taskId := balanceId key.scope .task
  checkRestorable db account accountId receipt
  checkRestorable db task taskId receipt
  require (∀ k ∈ db.calls.keys, ∀ c ∈ db.calls.row k, ∀ r ∈ c.reservation,
    r.receipt.reservationId ≠ receipt.reservationId) .databaseError
  require (∀ d ∈ db.recoveries, d.decisionId ≠ decisionId) .databaseError
  let row : Reservation := { newReservation receipt with
    ownerId := ownerId
    ownerGeneration := ctx.ownerGeneration
    state := .inDoubt
    closed := true
    cancelled := task.balance.state == .cancelled }
  let t : Txn := ⟨restoreCall db key evidence.core row, key, row, account.balance, task.balance,
    account.policy, task.policy, 0⟩
  let t := t.updateBalance accountId fun b =>
    b.restore (fun d => heldSum db accountId d + receipt.reserved d) (callCount db accountId + 1)
  let t := t.updateBalance taskId fun b =>
    b.restore (fun d => heldSum db taskId d + receipt.reserved d) (callCount db taskId + 1)
  let t ← t.event uuid .restoredLiability (.restored evidence.digest decisionId) none true
  let entry : RecoveryRow := ⟨decisionId, some key, ctx.ownerGeneration, some ctx⟩
  return { t.db with recoveries := t.db.recoveries ++ [entry] }

/-! ## `_inventory`, `resume_budgets` -/

/-- What the independent authority answers. -/
structure Authority where
  /-- `authority.calls`: expiry and the `marked` flag of a registered call. -/
  calls : ReservationKey → Option (Int × Bool)
  registered : List ReservationKey
  coreEvidence : ReservationKey → Option BindingCore
  events : ReservationKey → List Observation
  coverage : Bool

/-- Pause a set of balances, cancelled ones excepted. -/
def pauseBalances (db : Db) (chosen : BalanceId → Prop) [DecidablePred chosen] : Db :=
  { db with budgets := db.budgets.map fun id b =>
      if chosen id ∧ b.balance.state ≠ .cancelled then
        { b with balance := { b.balance with state := .pausedUnknown } }
      else b }

/-- The sum of `settled_delta` over the settlements of a call. -/
def postedSum (db : Db) (key : ReservationKey) (kind : ScopeKind) (d : Dimension) : Int :=
  ((db.settlements.filter fun s => s.key = key).map fun s =>
    ((db.postings.filter fun p => p.settlementId = s.settlementId ∧ p.scopeKind = kind ∧
      p.dimension = d).map Posting.settledDelta).sum).sum

/-- The postings of one settlement as `_inventory` wants them. -/
def wellPosted (db : Db) (c : Call) (settlementId : Id) : Prop :=
  let postings := db.postings.filter fun p => p.settlementId = settlementId
  postings.length = 4 ∧
    (∀ kind dimension, ∃ p ∈ postings, p.scopeKind = kind ∧ p.dimension = dimension) ∧
    ∀ p ∈ postings, p.balanceId = match p.scopeKind with
      | .account => c.accountBalance
      | .task => c.taskBalance

instance (db : Db) (c : Call) (settlementId : Id) : Decidable (wellPosted db c settlementId) := by
  unfold wellPosted
  infer_instance

/-- The SQL rows of one call agree with its evidence and its ledger. -/
def callAgrees (A : Authority) (now : Int) (db : Db) (key : ReservationKey) (c : Call)
    (row : Reservation) : Prop :=
  A.coreEvidence key = some c.core ∧
    (∀ call ∈ A.calls key, call.2 = true → (∃ m ∈ db.markers, m.key = key) ∨
      ∃ d ∈ db.recoveries, d.key = some key) ∧
    (∀ call ∈ A.calls key, now < call.1 + 7776000000000) ∧
    (∀ s ∈ db.settlements, s.key = key → wellPosted db c s.settlementId) ∧
    (∀ kind d, postedSum db key kind d = row.actual d) ∧
    (row.state = .settled → (latestSettlement db key).map Settlement.settled = some row.actual)

instance (A : Authority) (now : Int) (db : Db) (key : ReservationKey) (c : Call)
    (row : Reservation) : Decidable (callAgrees A now db key c row) := by
  unfold callAgrees
  infer_instance

/-- The evidence of a call leaves nothing open. -/
def callResolved (H : Hashes) (A : Authority) (db : Db) (key : ReservationKey) (row : Reservation) :
    Prop :=
  match evidencePrefix H db key (A.events key) with
  | .error _ => False
  | .ok count => evidenceHazards (some row.actual) ((A.events key).drop count) = [] ∧
      unresolvedConflict db key = false

instance (H : Hashes) (A : Authority) (db : Db) (key : ReservationKey) (row : Reservation) :
    Decidable (callResolved H A db key row) := by
  unfold callResolved
  split <;> infer_instance

/-- The evidence could be scanned at all. -/
def scannable (H : Hashes) (A : Authority) (db : Db) (key : ReservationKey) : Prop :=
  (evidencePrefix H db key (A.events key)).isOk = true

instance (H : Hashes) (A : Authority) (db : Db) (key : ReservationKey) :
    Decidable (scannable H A db key) := inferInstanceAs (Decidable (_ = true))

/-- The rows of `core.join(reservation)`. -/
def joined (db : Db) : List (ReservationKey × Call × Reservation) :=
  db.calls.keys.filterMap fun k =>
    (db.calls.row k).bind fun c => c.reservation.map fun r => (k, c, r)

/-- The totals of one balance agree with its row. -/
def balanceAgrees (db : Db) (id : BalanceId) (b : Balance) : Prop :=
  (∀ d, b.settled d = actualSum db id d ∧ b.held d = heldSum db id d) ∧
    callCount db id ≤ b.calls ∧ callCount db id * 30000000000 ≤ b.wallNs

instance (db : Db) (id : BalanceId) (b : Balance) : Decidable (balanceAgrees db id b) :=
  inferInstanceAs (Decidable ((∀ _, _ ∧ _) ∧ _ ∧ _))

/-- No mismatch anywhere. -/
def inventoryAgrees (H : Hashes) (A : Authority) (now : Int) (db : Db) : Prop :=
  (∀ entry ∈ joined db, callAgrees A now db entry.1 entry.2.1 entry.2.2 ∧ scannable H A db entry.1) ∧
    (∀ k ∈ A.registered, k ∈ (joined db).map Prod.fst) ∧
    (∀ k ∈ (joined db).map Prod.fst, k ∈ A.registered) ∧
    ∀ id ∈ db.budgets.keys, ∀ b ∈ db.budgets.row id, balanceAgrees db id b.balance

instance (H : Hashes) (A : Authority) (now : Int) (db : Db) :
    Decidable (inventoryAgrees H A now db) := by
  unfold inventoryAgrees
  infer_instance

/-- A balance named by a call that is not settled or whose evidence is open. -/
def unresolvedBalance (H : Hashes) (A : Authority) (db : Db) (id : BalanceId) : Prop :=
  ∃ entry ∈ joined db, entry.2.1.names id ∧
    (entry.2.2.state ≠ .settled ∨ ¬ callResolved H A db entry.1 entry.2.2)

instance (H : Hashes) (A : Authority) (db : Db) (id : BalanceId) :
    Decidable (unresolvedBalance H A db id) := by
  unfold unresolvedBalance
  infer_instance

/-- `_inventory`: the pauses commit even when the inventory disagrees, and then the
caller is refused. -/
def inventory (H : Hashes) (A : Authority) (now : Int) (db : Db) : Except PortCode (Db × Bool) := do
  require (db.budgets.keys.length ≤ 8192 ∧ (joined db).length ≤ 262144) .limitExceeded
  require (∀ entry ∈ joined db, (A.calls entry.1).isSome ∧ (A.coreEvidence entry.1).isSome)
    .observerUnavailable
  require (∀ entry ∈ joined db, entry.2.1.accountBalance ∈ db.budgets.keys ∧
    entry.2.1.taskBalance ∈ db.budgets.keys) .conflict
  let agrees := inventoryAgrees H A now db
  return (pauseBalances db fun id => ¬ agrees ∨ unresolvedBalance H A db id, decide agrees)

/-- What `resume_budgets` requires of one budget it reactivates; `listed` are the
calls its inventory has returned. -/
def resumable (H : Hashes) (A : Authority) (listed : List ReservationKey) (now : Int) (db : Db)
    (id : BalanceId) (b : Budget) : Prop :=
  (b.balance.state = .active ∨ b.balance.state = .pausedUnknown) ∧
    (∀ d, b.balance.held d = 0) ∧ b.policy.complete ∧
    (∀ d, withinCap (b.policy.cap d) (b.balance.settled d)) ∧
    withinCap b.policy.callCap b.balance.calls ∧ withinCap b.policy.wallCapNs b.balance.wallNs ∧
    b.policy.validFrom ≤ now ∧ now < b.policy.expiresAt ∧
    (∀ entry ∈ joined db, entry.2.1.names id → entry.2.2.state = .settled) ∧
    (∀ entry ∈ joined db, entry.1 ∈ listed → entry.2.1.names id →
      callResolved H A db entry.1 entry.2.2) ∧
    ∀ a ∈ db.admissions, (∃ c ∈ db.calls.row a.key, c.names id) → a.closed = true

instance (H : Hashes) (A : Authority) (listed : List ReservationKey) (now : Int) (db : Db)
    (id : BalanceId) (b : Budget) : Decidable (resumable H A listed now db id b) := by
  unfold resumable
  infer_instance

def activate (t : Db) (id : BalanceId) : Db :=
  { t with budgets := t.budgets.modify id fun b =>
      { b with balance := { b.balance with state := .active } } }

/-- The second transaction of `resume_budgets`; the first is its `inventory`, which
has to agree. -/
def resumeBudgets (H : Hashes) (A : Authority) (listed : List ReservationKey) (scope : Scope)
    (decisionId : Id) (account task : Bool) (now : Int) (db : Db) : Except PortCode Db := do
  let (accountBudget, taskBudget) ← budgetsOf db scope
  let accountId := balanceId scope .account
  let taskId := balanceId scope .task
  require (account = true → resumable H A listed now db accountId accountBudget) .reservationUnavailable
  require (task = true → resumable H A listed now db taskId taskBudget) .reservationUnavailable
  require (∀ d ∈ db.recoveries, d.decisionId ≠ decisionId) .databaseError
  let db := if account then activate db accountId else db
  let db := if task then activate db taskId else db
  let entry : RecoveryRow := ⟨decisionId, none, scope.contextGeneration, none⟩
  return { db with recoveries := db.recoveries ++ [entry] }

/-! ## `cancel_v1`, `pause_admission`, `reopen` -/

def cancelV1 (H : Hashes) (readScope : Scope) (key : ReservationKey) (db : Db) :
    Except PortCode Db := do
  require (readScope = key.scope) .invalidRecord
  let (t, _) ← openCall H db key none
  require (t.task.cancelGeneration < 2147483647) .limitExceeded
  let t := t.updateBalance t.taskId fun b =>
    { b with state := .cancelled, cancelGeneration := t.task.cancelGeneration + 1 }
  return { t.db with calls := t.db.calls.map fun k c =>
    if k.scope.taskId = key.scope.taskId then
      { c with reservation := c.reservation.map fun r => { r with cancelled := true } }
    else c }

/-- `WriterController.pause_admission`. -/
def pauseAdmission (deployment : Id) (db : Db) : Db :=
  pauseBalances db fun id => id.document.deploymentRef = deployment

/-- The recovery rows `reopen` inserts: the writer fence and its decision. -/
def recordDecision (decisionId : Id) (generation : Nat) (db : Db) : Except PortCode Db := do
  require (∀ d ∈ db.recoveries, d.decisionId ≠ decisionId) .databaseError
  let entry : RecoveryRow := ⟨decisionId, none, generation, none⟩
  return { db with recoveries := db.recoveries ++ [entry] }

/-! ## The system -/

/-- One operation with all its arguments and answers. -/
inductive Op where
  | installPolicy (scope : Scope) (kind : ScopeKind) (policy : Policy)
  | reserve (uuid : Uuids) (run : RunContext) (key : ReservationKey) (prepared : Prepared) (now : Int)
  | admission (uuid : Uuids) (run : RunContext) (receipt : Receipt) (now at_ : Int)
  | marker (uuid : Uuids) (run : RunContext) (key : ReservationKey) (admissionId : Id)
      (ticket : Ticket) (now : Int)
  | markUnknown (ctx : Context) (key : ReservationKey)
  | terminalProjection (ctx : RunContext) (key : ReservationKey) (terminal : Terminal)
      (usage : UsageView) (uuid : Uuids)
  | reconcile (uuid : Uuids) (ctx : Context) (key : ReservationKey) (observer : Observer)
      (recoveryDecision : Option Id) (observationIds : List Id)
  | finish (ctx : Context) (key : ReservationKey) (closed : Bool)
  | persistCompletion (ctx : Context) (completion : Completion) (uuid : Uuids)
  | recoverCall (readScope : Scope) (key : ReservationKey) (decisionId : Id)
      (expectedGeneration : Nat) (ownerId : Id) (closed : Bool)
  | restoreLiability (uuid : Uuids) (readScope : Scope) (key : ReservationKey)
      (decisionId ownerId : Id) (evidence : ParentEvidence) (covered : Bool)
  | inventory (authority : Authority) (now : Int)
  | resumeBudgets (authority : Authority) (listed : List ReservationKey) (scope : Scope)
      (decisionId : Id) (account task : Bool) (now : Int)
  | cancel (readScope : Scope) (key : ReservationKey)
  | pauseAdmission (deployment : Id)
  | recordDecision (decisionId : Id) (generation : Nat)

/-- The database a transaction leaves: unchanged when it aborts. -/
def commit (db : Db) (outcome : Except PortCode Db) : Db :=
  match outcome with
  | .ok after => after
  | .error _ => db

theorem commit_cases {P : Db → Prop} {db : Db} {outcome : Except PortCode Db} (before : P db)
    (after : ∀ db', outcome = .ok db' → P db') : P (commit db outcome) := by
  cases outcome with
  | error code => exact before
  | ok db' => exact after db' rfl

/-- What an operation leaves in the database. -/
def Op.apply (H : Hashes) (db : Db) : Op → Db
  | .installPolicy scope kind policy => commit db (Accounting.installPolicy scope kind policy db)
  | .reserve uuid run key prepared now =>
      commit db ((reserveV1 H uuid run key prepared now db).map Prod.fst)
  | .admission uuid run receipt now at_ => commit db (admitV1 H uuid run receipt now at_ db)
  | .marker uuid run key admissionId ticket now =>
      commit db (Accounting.marker H uuid run key admissionId ticket now db)
  | .markUnknown ctx key => commit db (Accounting.markUnknown H ctx key db)
  | .terminalProjection ctx key terminal usage uuid =>
      commit db (Accounting.terminalProjection H ctx key terminal usage uuid db)
  | .reconcile uuid ctx key observer recoveryDecision ids =>
      (Reconcile.reconcileV1 ⟨H, uuid, ctx, key, observer, recoveryDecision⟩ ids db).1
  | .finish ctx key closed => commit db (Accounting.finish H ctx key closed db)
  | .persistCompletion ctx completion uuid =>
      commit db (Accounting.persistCompletion H ctx completion uuid db)
  | .recoverCall readScope key decisionId expectedGeneration ownerId closed =>
      commit db (Accounting.recoverCall H readScope key decisionId expectedGeneration ownerId closed db)
  | .restoreLiability uuid readScope key decisionId ownerId evidence covered =>
      commit db (Accounting.restoreLiability H uuid readScope key decisionId ownerId evidence covered db)
  | .inventory authority now => commit db ((Accounting.inventory H authority now db).map Prod.fst)
  | .resumeBudgets authority listed scope decisionId account task now =>
      commit db (Accounting.resumeBudgets H authority listed scope decisionId account task now db)
  | .cancel readScope key => commit db (cancelV1 H readScope key db)
  | .pauseAdmission deployment => Accounting.pauseAdmission deployment db
  | .recordDecision decisionId generation =>
      commit db (Accounting.recordDecision decisionId generation db)

def Db.empty : Db :=
  ⟨.empty, .empty, [], [], [], [], [], [], [], [], []⟩

/-- All operations, in any order, from empty tables. -/
def accounting (H : Hashes) : System Db Op where
  init db := db = .empty
  step db op db' := db' = op.apply H db

/-- The tables after a list of operations. -/
def Db.after (H : Hashes) (ops : List Op) : Db := ops.foldl (Op.apply H) .empty

theorem reachable_after (H : Hashes) (ops : List Op) : (accounting H).Reachable (Db.after H ops) := by
  refine ⟨.empty, ops, rfl, ?_⟩
  suffices runs : ∀ db, (accounting H).Run db ops (ops.foldl (Op.apply H) db) from runs .empty
  induction ops with
  | nil => exact fun db => .refl db
  | cons op rest ih => exact fun db => .cons rfl (ih (op.apply H db))

end ApiSecurityPlatform.Accounting
