/-
# Accounting.Store -- the budget tables and the helpers of `BudgetStore`

`Db` is the content of the `research_ai_*` tables the accounting reads.  A balance
is stored with its policy and a reservation with its core, as the foreign keys
tie them.

A transaction on one call works on dictionaries it has read under row locks (the
reservation and the two balances) and writes columns back as it goes.  `Txn` keeps
both: the database as this transaction sees it and the dictionaries.  Every helper
changes the dictionaries and then writes exactly the columns the source's `UPDATE`
names, so a stale write-back would be a stale write-back here too.
-/
import ApiSecurityPlatform.Theory.Table
import ApiSecurityPlatform.Accounting.Records
import Mathlib.Data.List.MinMax

namespace ApiSecurityPlatform.Accounting

open ApiSecurityPlatform.Theory

set_option autoImplicit false

/-! ## Rows -/

/-- `research_ai_budget_policy`, less the columns fixed by `install_policy`
(`rate_card`, `currency`) and those its id repeats. -/
structure Policy where
  manifestDigest : Id
  decisionRef : Id
  tokenCap : Option Int
  costCap : Option Int
  callCap : Option Int
  wallCapNs : Option Int
  validFrom : Int
  expiresAt : Int
deriving DecidableEq, Repr

inductive BalanceState where
  | active
  | pausedUnknown
  | cancelled
  | closed
deriving DecidableEq, Repr

/-- `research_ai_budget_balance`. -/
structure Balance where
  settled : Amount
  held : Amount
  calls : Int
  wallNs : Int
  state : BalanceState
  cancelGeneration : Nat
deriving DecidableEq

/-- A balance row with the policy row of the same id. -/
structure Budget where
  policy : Policy
  balance : Balance
deriving DecidableEq

inductive ReservationState where
  | reserved
  | admitted
  | sendIntent
  | inDoubt
  | settled
  | conflict
deriving DecidableEq, Repr

/-- `research_ai_reservation`. -/
structure Reservation where
  receipt : Receipt
  ownerId : Id
  ownerGeneration : Nat
  state : ReservationState
  held : Amount
  actual : Amount
  eventCount : Nat
  closed : Bool
  cancelled : Bool
  revision : Nat
deriving DecidableEq

/-- `research_ai_call_core`, with the reservation row of the same key. -/
structure Call where
  core : BindingCore
  accountBalance : BalanceId
  taskBalance : BalanceId
  reservation : Option Reservation
deriving DecidableEq

structure Admission where
  key : ReservationKey
  admissionId : Id
  accountRef : Id
  deploymentRef : Id
  ownerGeneration : Nat
  admittedAt : Int
  expiresAt : Int
  closed : Bool
deriving DecidableEq, Repr

structure Marker where
  key : ReservationKey
  eventId : Id
  ownerGeneration : Nat
  ticketId : Id
  bodyDigest : Id
deriving DecidableEq, Repr

/-- `research_ai_conflict.reason`. -/
inductive Reason where
  | coreConflict
  | eventConflict
  | coverageGap
  | usageUnknown
  | usageOverflow
  | finalConflict
  | balanceOverflow
deriving DecidableEq, Repr

/-- The record of a `RECOVERY_RESOLVED` event. -/
structure Resolution where
  decisionId : Id
  settlementId : Id
  finalEventId : Id
  observationCount : Nat
  observationDigest : Id
deriving DecidableEq, Repr

structure Completion where
  key : ReservationKey
  completionId : Id
  digest : Id
deriving DecidableEq, Repr

inductive EventKind where
  | reserved
  | admitted
  | sendIntent
  | terminalProjection
  | permitIssued
  | writeAccepted
  | streamClosed
  | finalUsage
  | zeroProven
  | coverageGap
  | conflict
  | recoveryResolved
  | restoredLiability
  | completion
deriving DecidableEq, Repr

/-- The ledger writes an observation under its own kind. -/
def ObservationKind.eventKind : ObservationKind → EventKind
  | .permitIssued => .permitIssued
  | .writeAccepted => .writeAccepted
  | .streamClosed => .streamClosed
  | .finalUsage => .finalUsage
  | .zeroProven => .zeroProven
  | .coverageGap => .coverageGap
  | .conflict => .conflict

inductive EventRecord where
  | reserved (key : ReservationKey)
  | admission (admissionId : Id) (ownerGeneration : Nat) (admittedAt expiresAt : Int)
  | sendIntent (key : ReservationKey) (ticketId : Id)
  | projection (key : ReservationKey) (ownerGeneration : Nat) (terminal : Terminal)
      (usage : UsageView)
  | observation (o : Observation)
  | conflict (existing incoming : Id) (reason : Reason) (record : Option Observation)
  | resolution (r : Resolution)
  | restored (evidence decisionId : Id)
  | completion (c : Completion)
deriving DecidableEq

/-- `research_ai_event`. -/
structure Event where
  eventId : Id
  key : ReservationKey
  sequence : Nat
  kind : EventKind
  record : EventRecord
deriving DecidableEq

/-- `research_ai_observation_copy`; its other columns repeat the record. -/
structure ObservationCopy where
  key : ReservationKey
  record : Observation
deriving DecidableEq

/-- `research_ai_posting`. -/
structure Posting where
  settlementId : Id
  scopeKind : ScopeKind
  dimension : Dimension
  balanceId : BalanceId
  settledDelta : Int
  heldDelta : Int
deriving DecidableEq

structure Conflict where
  conflictId : Id
  key : ReservationKey
  existing : Id
  incoming : Id
  reason : Reason
deriving DecidableEq, Repr

/-- `research_ai_recovery`.  The rows of `resume_budgets` and `reopen` carry a
reserved key digest and no `RecoveryContext`. -/
structure RecoveryRow where
  decisionId : Id
  key : Option ReservationKey
  ownerGeneration : Nat
  context : Option RecoveryContext
deriving DecidableEq, Repr

structure Db where
  budgets : Table BalanceId Budget
  calls : Table ReservationKey Call
  admissions : List Admission
  markers : List Marker
  events : List Event
  copies : List ObservationCopy
  settlements : List Settlement
  postings : List Posting
  completions : List Completion
  conflicts : List Conflict
  recoveries : List RecoveryRow

/-- The digests stored as evidence. -/
structure Hashes where
  core : BindingCore → Id
  observation : Observation → Id
  record : EventRecord → Id
  inventory : List Observation → Id
  /-- The digest of `totals`: key, final event, revision, amounts and deltas. -/
  accounting : ReservationKey → Id → Nat → Amount → Amount → Amount → Id

/-! ## The transaction of one call -/

/-- The dictionaries a transaction works on, beside the database it has written so
far; `draws` counts the `uuid4()` calls. -/
structure Txn where
  db : Db
  key : ReservationKey
  row : Reservation
  account : Balance
  task : Balance
  accountPolicy : Policy
  taskPolicy : Policy
  draws : Nat

namespace Txn

def accountId (t : Txn) : BalanceId := balanceId t.key.scope .account

def taskId (t : Txn) : BalanceId := balanceId t.key.scope .task

/-- `UPDATE research_ai_reservation ... WHERE key_digest = key`. -/
def updateReservation (t : Txn) (set_ : Reservation → Reservation) : Txn :=
  { t with db := { t.db with
      calls := t.db.calls.modify t.key fun call =>
        { call with reservation := call.reservation.map set_ } } }

/-- `UPDATE research_ai_budget_balance ... WHERE balance_id = id`. -/
def updateBalance (t : Txn) (id : BalanceId) (set_ : Balance → Balance) : Txn :=
  { t with db := { t.db with
      budgets := t.db.budgets.modify id fun budget =>
        { budget with balance := set_ budget.balance } } }

end Txn

/-- `uuid4()`: the draws of one transaction, any numbers at all. -/
abbrev Uuids := Nat → Id

/-! ## `_pause` and `_retain` -/

def Balance.pause (b : Balance) : Balance :=
  { b with state := if b.state = .cancelled then .cancelled else .pausedUnknown }

namespace Txn

/-- `_pause`: cleanup never downgrades a conflict or a cancellation. -/
def pause (t : Txn) (state : ReservationState) : Txn :=
  let row := { t.row with state := if t.row.state = .conflict then .conflict else state }
  let t := { t with row := row }.updateReservation fun r => { r with state := row.state }
  let account := t.account.pause
  let t := { t with account := account }.updateBalance t.accountId fun b =>
    { b with state := account.state }
  let task := t.task.pause
  { t with task := task }.updateBalance t.taskId fun b => { b with state := task.state }

/-- What `_retain` wants to hold: the reserve, or a larger known amount. -/
def wanted (t : Txn) (incoming : Option Observation) (d : Dimension) : Int :=
  let base := max (t.row.held d) (t.row.receipt.reserved d)
  match incoming.map fun o => actual o.usage with
  | some (.ok value) => max base (value d - t.row.actual d)
  | _ => base

/-- Holding `amount` would push one of the two balances above `MAX_N`. -/
def overflows (t : Txn) (d : Dimension) (amount : Int) : Prop :=
  maxN < t.account.held d + amount - t.row.held d ∨ maxN < t.task.held d + amount - t.row.held d

instance (t : Txn) (d : Dimension) (amount : Int) : Decidable (t.overflows d amount) :=
  inferInstanceAs (Decidable (_ ∨ _))

/-- What `_retain` holds: the original reserve where the wanted amount is not
representable, and what is held already where that is not either. -/
def retained (t : Txn) (incoming : Option Observation) (d : Dimension) : Int :=
  if t.overflows d (t.wanted incoming d) then
    let original := max (t.row.held d) (t.row.receipt.reserved d)
    if t.overflows d original then t.row.held d else original
  else t.wanted incoming d

def Balance.hold (b : Balance) (held before : Amount) : Balance :=
  { b with held := fun d => b.held d + (held d - before d) }

def retain (t : Txn) (incoming : Option Observation) : Txn :=
  let held := t.retained incoming
  let before := t.row.held
  let account := Balance.hold t.account held before
  let t := { t with account := account }.updateBalance t.accountId fun b =>
    { b with held := account.held }
  let task := Balance.hold t.task held before
  let t := { t with task := task }.updateBalance t.taskId fun b => { b with held := task.held }
  { t with row := { t.row with held := held } }.updateReservation fun r => { r with held := held }

/-! ## `_event` and `_conflict` -/

/-- `_event`: an event id that exists already must carry the same record. -/
def event (uuid : Uuids) (t : Txn) (kind : EventKind) (record : EventRecord)
    (eventId : Option Id) (recovery : Bool) : Except PortCode Txn :=
  let eid := eventId.getD (uuid t.draws)
  let t := if eventId.isSome then t else { t with draws := t.draws + 1 }
  match t.db.events.find? fun e => e.eventId = eid with
  | some prior => do
      require (prior.key = t.key ∧ prior.record = record) .conflict
      return t
  | none => do
      require (t.row.eventCount < if recovery then 64 else 56) .limitExceeded
      let row := { t.row with eventCount := t.row.eventCount + 1 }
      let entry : Event := ⟨eid, t.key, row.eventCount, kind, record⟩
      let t := { t with row := row, db := { t.db with events := t.db.events ++ [entry] } }
      return t.updateReservation fun r => { r with eventCount := row.eventCount }

/-- The evidence half of `_conflict`: once per (existing, incoming, reason), and
only while the ledger has room. -/
def recordConflict (uuid : Uuids) (t : Txn) (existing incoming : Id) (reason : Reason)
    (record : Option Observation) : Except PortCode Txn :=
  let known := t.db.conflicts.any fun c =>
    c.key = t.key ∧ c.existing = existing ∧ c.incoming = incoming ∧ c.reason = reason
  if !known ∧ t.row.eventCount < 64 then do
    let cid := uuid t.draws
    require (∀ c ∈ t.db.conflicts, c.conflictId ≠ cid) .databaseError
    let entry : Conflict := ⟨cid, t.key, existing, incoming, reason⟩
    let t := { t with draws := t.draws + 1, db := { t.db with
      conflicts := t.db.conflicts ++ [entry] } }
    t.event uuid .conflict (.conflict existing incoming reason record) (some cid) true
  else return t

def conflict (uuid : Uuids) (t : Txn) (existing incoming : Id) (reason : Reason)
    (record : Option Observation) : Except PortCode Txn := do
  let t ← t.recordConflict uuid existing incoming reason record
  return (t.retain record).pause .conflict

end Txn

/-! ## The evidence scans -/

/-- The record of the latest `RECOVERY_RESOLVED` event, with its sequence. -/
def resolutions (db : Db) (key : ReservationKey) : List (Nat × Resolution) :=
  db.events.filterMap fun e =>
    match e.record with
    | .resolution r => if e.key = key ∧ e.kind = .recoveryResolved then some (e.sequence, r) else none
    | _ => none

def latestResolution (db : Db) (key : ReservationKey) : Option Resolution :=
  ((resolutions db key).argmax Prod.fst).map Prod.snd

def latestSettlement (db : Db) (key : ReservationKey) : Option Settlement :=
  (db.settlements.filter fun s => s.key = key).argmax Settlement.revision

/-- The four postings of one settlement, each on the balance of its scope. -/
def exactPostings (db : Db) (key : ReservationKey) (settlementId : Id) : Prop :=
  let postings := db.postings.filter fun p => p.settlementId = settlementId
  postings.length = 4 ∧ (∀ kind dimension, ∃ p ∈ postings, p.scopeKind = kind ∧ p.dimension = dimension) ∧
    ∀ p ∈ postings, p.balanceId = balanceId key.scope p.scopeKind

instance (db : Db) (key : ReservationKey) (settlementId : Id) :
    Decidable (exactPostings db key settlementId) := by
  unfold exactPostings
  infer_instance

/-- `evidence_prefix`: how much of the inventory the latest resolution retires,
once every part of that receipt has been checked. -/
def evidencePrefix (H : Hashes) (db : Db) (key : ReservationKey) (events : List Observation) :
    Except PortCode Nat :=
  match latestResolution db key with
  | none => .ok 0
  | some r => do
      let count := r.observationCount
      require (1 ≤ count ∧ count ≤ events.length ∧ events.length ≤ 64 ∧
        H.inventory (events.take count) = r.observationDigest) .conflict
      let decision := db.recoveries.find? fun d => d.decisionId = r.decisionId ∧ d.key = some key
      let settled := db.settlements.find? fun s => s.settlementId = r.settlementId ∧ s.key = key
      let chosen := (events.take count).find? fun e => e.eventId = r.finalEventId
      match decision, settled, chosen with
      | some decision, some settled, some chosen => do
          require (settled.finalEventId = r.finalEventId) .conflict
          match decision.context with
          | none => .error .conflict
          | some context => do
              require (context.key = key ∧ context.ownerGeneration = decision.ownerGeneration) .conflict
              require (chosen.isFinal = true ∧ chosen.usage.isKnown = true) .conflict
              let value ← actual chosen.usage
              require (value = settled.settled) .conflict
              require ((latestSettlement db key).map Settlement.settlementId = some settled.settlementId)
                .conflict
              require (exactPostings db key settled.settlementId) .conflict
              return count
      | _, _, _ => .error .conflict

/-- `unresolved_conflict`: a `CONFLICT` event after the latest resolution. -/
def unresolvedConflict (db : Db) (key : ReservationKey) : Bool :=
  let latest := ((resolutions db key).map Prod.fst).foldr max 0
  db.events.any fun e => e.key = key ∧ e.kind = .conflict ∧ latest < e.sequence

/-- `evidence_hazards`, on the part of the inventory that is not retired. -/
def evidenceHazards (known : Option Amount) : List Observation → List (Reason × Observation)
  | [] => []
  | e :: rest =>
      match e.kind with
      | .conflict => (.eventConflict, e) :: evidenceHazards known rest
      | .coverageGap => (.coverageGap, e) :: evidenceHazards known rest
      | .finalUsage =>
          match e.usage with
          | .known _ =>
              match actual e.usage with
              | .error _ => (.usageOverflow, e) :: evidenceHazards known rest
              | .ok value =>
                  if known = none ∨ known = some value then evidenceHazards (some value) rest
                  else (.finalConflict, e) :: evidenceHazards (some value) rest
          | _ => (.usageUnknown, e) :: evidenceHazards known rest
      | _ => evidenceHazards known rest

/-! ## Reading the rows of a call -/

/-- `_balances(db, scope)`: the two budgets of a scope. -/
def budgetsOf (db : Db) (scope : Scope) : Except PortCode (Budget × Budget) :=
  match db.budgets.row (balanceId scope .account), db.budgets.row (balanceId scope .task) with
  | some account, some task => .ok (account, task)
  | _, _ => .error .reservationUnavailable

def Policy.complete (p : Policy) : Prop :=
  p.tokenCap.isSome ∧ p.costCap.isSome ∧ p.callCap.isSome ∧ p.wallCapNs.isSome

instance (p : Policy) : Decidable p.complete := inferInstanceAs (Decidable (_ ∧ _ ∧ _ ∧ _))

/-- The cap of a dimension. -/
def Policy.cap (p : Policy) : Dimension → Option Int
  | .tokens => p.tokenCap
  | .microusd => p.costCap

/-- `x <= cap` for every cap that is set. -/
def withinCap (cap : Option Int) (x : Int) : Prop := ∀ c ∈ cap, x ≤ c

instance (cap : Option Int) (x : Int) : Decidable (withinCap cap x) :=
  match cap with
  | none => isTrue (by simp [withinCap])
  | some c => decidable_of_iff (x ≤ c) (by simp [withinCap])

/-- What `_balances(active=True)` requires of one budget. -/
def Budget.admissible (b : Budget) (now : Int) (expiresAt : Option Int) : Prop :=
  b.balance.state = .active ∧ b.policy.validFrom ≤ now ∧ now < b.policy.expiresAt ∧
    b.policy.complete ∧
    (∀ d, withinCap (b.policy.cap d) (b.balance.settled d + b.balance.held d)) ∧
    ∀ e ∈ expiresAt, e ≤ b.policy.expiresAt

instance (b : Budget) (now : Int) (expiresAt : Option Int) :
    Decidable (b.admissible now expiresAt) :=
  inferInstanceAs (Decidable (_ ∧ _ ∧ _ ∧ _ ∧ _ ∧ _))

/-- `_balances(db, scope, active=True, at=now, core=...)`. -/
def activeBudgets (db : Db) (scope : Scope) (now : Int) (expiresAt : Option Int) :
    Except PortCode (Budget × Budget) := do
  let (account, task) ← budgetsOf db scope
  require (account.admissible now expiresAt ∧ task.admissible now expiresAt) .reservationUnavailable
  return (account, task)

/-- `_call(db, key, ctx)`. -/
def callOf (H : Hashes) (db : Db) (key : ReservationKey) (ctx : Option Context) :
    Except PortCode (Reservation × BindingCore) :=
  match db.calls.row key with
  | none => .error .reservationUnavailable
  | some call => do
      require (H.core call.core = key.coreDigest ∧ call.core.scope = key.scope ∧
        call.core.callRef = key.callRef) .conflict
      match call.reservation with
      | none => .error .reservationUnavailable
      | some row => do
          require (∀ c ∈ ctx, row.ownerId = c.ownerId ∧ row.ownerGeneration = c.ownerGeneration)
            .ownerLost
          require (∀ c ∈ ctx, c.callScope = key.scope) .ownerLost
          return (row, call.core)

/-- A transaction on an existing call, with both balances locked. -/
def openCall (H : Hashes) (db : Db) (key : ReservationKey) (ctx : Option Context) :
    Except PortCode (Txn × BindingCore) := do
  let (account, task) ← budgetsOf db key.scope
  let (row, core) ← callOf H db key ctx
  return (⟨db, key, row, account.balance, task.balance, account.policy, task.policy, 0⟩, core)

end ApiSecurityPlatform.Accounting
