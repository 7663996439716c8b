/-
# Accounting.Reconcile -- `reconcile_v1` and `mark_unknown`

The settlement loop as the source runs it: the hazards of the producer's inventory
first, then the selected observations one by one, over one transaction with its
five flags (`Loop`).  What the producer answers is an argument: any inventory, any
acknowledgement, any coverage at any moment.
-/
import ApiSecurityPlatform.Accounting.Store

namespace ApiSecurityPlatform.Accounting

open ApiSecurityPlatform.Theory

set_option autoImplicit false

/-- Everything the observer answers during one `reconcile_v1`. -/
structure Observer where
  /-- `observer.events(key)`. -/
  inventory : List Observation
  /-- Every `observe_v1` acknowledges the event it was given. -/
  acknowledged : Bool
  /-- The inventory is still the same before the transaction. -/
  stable : Bool
  /-- Coverage and an unchanged inventory when the selected event `i` is judged. -/
  covered : Nat → Bool
  provesZero : Nat → Bool
  provesFinal : Nat → Bool
  /-- Coverage and an unchanged inventory after the commit. -/
  steady : Bool

/-- `mark_unknown`. -/
def markUnknown (H : Hashes) (ctx : Context) (key : ReservationKey) (db : Db) :
    Except PortCode Db := do
  let (t, _) ← openCall H db key (some ctx)
  return ((t.retain none).pause .inDoubt).db

/-! ## Settlement -/

/-- The two balances after the deltas of a settlement. -/
def Balance.settle (b : Balance) (policy : Policy) (delta held : Amount) : Balance :=
  let settled := fun d => b.settled d + delta d
  let rest := fun d => b.held d - held d
  let upon := ∃ d, ¬ withinCap (policy.cap d) (settled d + rest d)
  { b with
    settled := settled
    held := rest
    state := if upon then (if b.state = .cancelled then .cancelled else .pausedUnknown) else b.state }

/-- The four postings of a settlement. -/
def postingsOf (t : Txn) (sid : Id) (delta held : Amount) : List Posting :=
  [⟨sid, .account, .tokens, t.accountId, delta .tokens, -held .tokens⟩,
    ⟨sid, .account, .microusd, t.accountId, delta .microusd, -held .microusd⟩,
    ⟨sid, .task, .tokens, t.taskId, delta .tokens, -held .tokens⟩,
    ⟨sid, .task, .microusd, t.taskId, delta .microusd, -held .microusd⟩]

namespace Txn

/-- The settled total of a balance would leave `0..MAX_N`. -/
def unrepresentable (t : Txn) (value : Amount) : Prop :=
  ∃ d, ¬ (0 ≤ t.account.settled d + (value d - t.row.actual d) ∧
      t.account.settled d + (value d - t.row.actual d) ≤ maxN) ∨
    ¬ (0 ≤ t.task.settled d + (value d - t.row.actual d) ∧
      t.task.settled d + (value d - t.row.actual d) ≤ maxN)

instance (t : Txn) (value : Amount) : Decidable (t.unrepresentable value) :=
  inferInstanceAs (Decidable (∃ _, _))

/-- The record of the next revision. -/
def settlementRecord (H : Hashes) (t : Txn) (sid : Id) (event : Observation) (value : Amount) :
    Settlement :=
  let held := t.row.held
  let delta := fun d => value d - t.row.actual d
  { key := t.key
    settlementId := sid
    finalEventId := event.eventId
    revision := t.row.revision + 1
    state := if event.kind = .zeroProven then .zero else .known
    settled := value
    refund := fun d => max (held d - delta d) 0
    overrun := fun d => max (delta d - held d) 0
    accountingDigest := H.accounting t.key event.eventId (t.row.revision + 1) value delta
      (fun d => -held d) }

/-- The insert of a settlement with its postings, and the write-back. -/
def settle (H : Hashes) (uuid : Uuids) (t : Txn) (event : Observation) (value : Amount) :
    Except PortCode (Txn × Settlement) := do
  let held := t.row.held
  let delta : Amount := fun d => value d - t.row.actual d
  let sid := uuid t.draws
  let record ← (t.settlementRecord H sid event value).make
  require (∀ s ∈ t.db.settlements, s.settlementId ≠ sid) .databaseError
  let t := { t with draws := t.draws + 1, db := { t.db with
    settlements := t.db.settlements ++ [record]
    postings := t.db.postings ++ postingsOf t sid delta held } }
  let account := t.account.settle t.accountPolicy delta held
  let t := { t with account := account }.updateBalance t.accountId fun b =>
    { b with settled := account.settled, held := account.held, state := account.state }
  let task := t.task.settle t.taskPolicy delta held
  let t := { t with task := task }.updateBalance t.taskId fun b =>
    { b with settled := task.settled, held := task.held, state := task.state }
  let row := { t.row with
    state := .settled, actual := value, held := fun _ => 0, revision := record.revision }
  let t := { t with row := row }.updateReservation fun r =>
    { r with state := row.state, actual := row.actual, held := row.held, revision := row.revision }
  return (t, record)

end Txn

/-! ## The loop -/

structure Loop where
  txn : Txn
  conflictFound : Bool
  blocked : Bool
  resolving : Bool
  retired : List Id
  result : Option Settlement

/-- The arguments that stay fixed during one `reconcile_v1`. -/
structure Reconcile where
  hashes : Hashes
  uuid : Uuids
  ctx : Context
  key : ReservationKey
  observer : Observer
  recoveryDecision : Option Id

namespace Reconcile

variable (R : Reconcile)

/-- One pass of `for reason, incoming in hazards`. -/
def hazardStep (resolving : Bool) (state : Txn × Bool) (hazard : Reason × Observation) :
    Except PortCode (Txn × Bool) :=
  match hazard.1 with
  | .usageUnknown =>
      if resolving then .ok state
      else .ok ((state.1.retain (some hazard.2)).pause .inDoubt, state.2)
  | reason => do
      let t ← state.1.conflict R.uuid hazard.2.evidenceDigest (R.hashes.observation hazard.2) reason
        (some hazard.2)
      return (t, !resolving)

/-- The liabilities the blocked branch re-holds: every final or conflict of the
unretired inventory. -/
def liabilities (rest : List Observation) : List Observation :=
  rest.filter fun o => o.kind = .finalUsage ∨ o.kind = .conflict

def block (t : Txn) (rest : List Observation) (hardConflict : Bool) : Txn :=
  ((liabilities rest).foldl (fun t o => t.retain (some o)) t).pause
    (if hardConflict then .conflict else .inDoubt)

/-- A contradiction met while one selected event is processed. -/
def contradict (loop : Loop) (existing : Id) (reason : Reason) (event : Observation) :
    Except PortCode Loop := do
  let t ← loop.txn.conflict R.uuid existing (R.hashes.observation event) reason (some event)
  return { loop with txn := t, conflictFound := true, blocked := true }

/-- `one_or_none` over the observation copies that share the event's identity. -/
def priorCopy (db : Db) (event : Observation) : Except PortCode (Option ObservationCopy) :=
  match db.copies.filter fun c => c.record.eventId = event.eventId ∨
      (c.record.observerEpoch = event.observerEpoch ∧ c.record.sequence = event.sequence) with
  | [] => .ok none
  | [copy] => .ok (some copy)
  | _ => .error .databaseError

/-- `STREAM_CLOSED` closes the reservation. -/
def close (t : Txn) (event : Observation) : Txn :=
  if event.kind = .streamClosed then
    { t with row := { t.row with closed := true } }.updateReservation fun r => { r with closed := true }
  else t

/-- Copy a new observation into the ledger; the flag says whether the event is
still to be processed. -/
def copy (loop : Loop) (event : Observation) : Except PortCode (Loop × Bool) := do
  match ← priorCopy loop.txn.db event with
  | some prior =>
      if prior.record ≠ event then do
        let loop ← R.contradict loop (R.hashes.observation prior.record) .eventConflict event
        return (loop, false)
      else return (loop, true)
  | none =>
      if 64 ≤ loop.txn.row.eventCount then
        return ({ loop with
          txn := (loop.txn.retain (some event)).pause .conflict
          conflictFound := true
          blocked := true }, false)
      else do
        let stored : ObservationCopy := ⟨R.key, event⟩
        let t := { loop.txn with db := { loop.txn.db with copies := loop.txn.db.copies ++ [stored] } }
        let t ← t.event R.uuid event.kind.eventKind (.observation event) (some event.eventId) true
        return ({ loop with txn := t }, true)

/-- One selected event up to its copy; the flag says whether it may settle. -/
def intake (core : BindingCore) (loop : Loop) (event : Observation) :
    Except PortCode (Loop × Bool) := do
  require (event.key = R.key ∧ event.callRef = R.key.callRef ∧ event.bodyDigest = core.bodyDigest)
    .conflict
  require (R.ctx.isRecovery = true ∨ event.ownerGeneration = R.ctx.ownerGeneration) .ownerLost
  if event.eventId ∈ loop.retired ∧ loop.resolving = false then return (loop, false)
  else
    match loop.txn.db.events.find? fun e => e.eventId = event.eventId with
    | some ledger =>
        if ledger.key ≠ R.key ∨ ledger.record ≠ .observation event then do
          let loop ← R.contradict loop (R.hashes.record ledger.record) .eventConflict event
          return (loop, false)
        else R.copy loop event
    | none => R.copy loop event

/-- The write of a settlement, with the receipt that retires the inventory when a
recovery resolves it. -/
def finalize (loop : Loop) (event : Observation) (value : Amount) : Except PortCode Loop := do
  let (t, record) ← loop.txn.settle R.hashes R.uuid event value
  let loop := { loop with txn := t, result := some record }
  match R.ctx with
  | .recovery ctx =>
      if loop.resolving then do
        let t ← loop.txn.event R.uuid .recoveryResolved (.resolution
          { decisionId := ctx.recoveryDecisionId
            settlementId := record.settlementId
            finalEventId := event.eventId
            observationCount := R.observer.inventory.length
            observationDigest := R.hashes.inventory R.observer.inventory }) none true
        return { loop with
          txn := t
          resolving := false
          retired := loop.retired ++ R.observer.inventory.map Observation.eventId }
      else return loop
  | .run _ => return loop

/-- A known, representable final amount: settle it, recognise it, or contradict
it. -/
def decideFinal (loop : Loop) (event : Observation) (value : Amount) : Except PortCode Loop :=
  let settleOrOverflow : Except PortCode Loop :=
    if loop.txn.unrepresentable value then
      R.contradict loop event.evidenceDigest .balanceOverflow event
    else R.finalize loop event value
  match latestSettlement loop.txn.db R.key with
  | some previous =>
      if value = loop.txn.row.actual ∧ loop.txn.row.state = .settled ∧ loop.resolving = false then
        .ok { loop with result := some previous }
      else if loop.resolving = false then
        R.contradict loop previous.accountingDigest .finalConflict event
      else settleOrOverflow
  | none =>
      if loop.txn.row.state = .conflict ∧ loop.resolving = false then
        .ok { loop with conflictFound := true }
      else settleOrOverflow

/-- One `FINAL_USAGE` or `ZERO_PROVEN` that passed its intake. -/
def judge (index : Nat) (loop : Loop) (event : Observation) : Except PortCode Loop :=
  if loop.blocked then .ok loop
  else if R.observer.covered index = false then
    R.contradict loop event.evidenceDigest .coverageGap event
  else do
    require (if event.kind = .zeroProven then R.observer.provesZero index = true
      else R.observer.provesFinal index = true) .observerUnavailable
    if event.usage.isKnown = false then
      return { loop with txn := (loop.txn.retain (some event)).pause .inDoubt }
    else
      match actual event.usage with
      | .error _ => do
          let t ← loop.txn.conflict R.uuid event.evidenceDigest (R.hashes.observation event)
            .usageOverflow (some event)
          return { loop with txn := t, conflictFound := true }
      | .ok value => R.decideFinal loop event value

/-- One pass of `for event in selected`. -/
def selectStep (core : BindingCore) (loop : Loop) (selected : Nat × Observation) :
    Except PortCode Loop := do
  let (loop, live) ← R.intake core loop selected.2
  if live = false then return loop
  else
    let loop := { loop with txn := close loop.txn selected.2 }
    if selected.2.isFinal = true then R.judge selected.1 loop selected.2 else return loop

/-! ## The transaction -/

/-- `(actual_tokens, actual_microusd) if revision else None`. -/
def knownFinal (row : Reservation) : Option Amount :=
  if row.revision = 0 then none else some row.actual

/-- A recovery context must name a recorded decision on this call. -/
def checkDecision (db : Db) : Except PortCode Unit :=
  match R.ctx with
  | .run _ => .ok ()
  | .recovery ctx =>
      match db.recoveries.find? fun d => d.decisionId = ctx.recoveryDecisionId with
      | none => .error .ownerLost
      | some decision =>
          require (decision.key = some R.key ∧ decision.ownerGeneration = ctx.ownerGeneration)
            .ownerLost

def hardConflict (db : Db) (row : Reservation) (hazards : List (Reason × Observation)) : Bool :=
  row.state == .conflict || unresolvedConflict db R.key || hazards.any fun h => h.1 != .usageUnknown

/-- `resolving` before the loops: a recovery that has something to resolve, is
entitled to it, and whose decision has not been used. -/
def resolves (db : Db) (row : Reservation) (hazards : List (Reason × Observation)) : Bool :=
  match R.ctx with
  | .run _ => false
  | .recovery ctx =>
      let hard := R.hardConflict db row hazards
      (!hazards.isEmpty || hard || row.state != .settled) &&
        (!hard || R.recoveryDecision == some ctx.recoveryDecisionId) &&
        !(resolutions db R.key).any fun r => r.2.decisionId == ctx.recoveryDecisionId

/-- The part before the selected events: hazards, then the blocked branch. -/
def enter (t : Txn) (count : Nat) : Except PortCode Loop := do
  let rest := R.observer.inventory.drop count
  let hazards := evidenceHazards (knownFinal t.row) rest
  let hard := R.hardConflict t.db t.row hazards
  let resolving := R.resolves t.db t.row hazards
  let (u, found) ← hazards.foldlM (R.hazardStep resolving) (t, false)
  let blocked := (!hazards.isEmpty || hard) && !resolving
  let u := if blocked then block u rest hard else u
  return { txn := u
           conflictFound := found || (u.row.state == .conflict && !resolving)
           blocked := blocked
           resolving := resolving
           retired := (R.observer.inventory.take count).map Observation.eventId
           result := none }

/-- A call that nothing settled and nothing contradicted stays in doubt. -/
def leave (loop : Loop) : Txn :=
  if loop.result = none ∧ loop.conflictFound = false ∧ loop.txn.row.state ≠ .settled then
    loop.txn.pause .inDoubt
  else loop.txn

/-- The SQL transaction of `reconcile_v1` on the opened call. -/
def transact (t : Txn) (core : BindingCore) (selected : List Observation) :
    Except PortCode (Txn × Bool) := do
  R.checkDecision t.db
  let count ← evidencePrefix R.hashes t.db R.key R.observer.inventory
  let loop ← R.enter t count
  require (loop.resolving = true → selected.countP Observation.isFinal ≤ 1) .conflict
  let loop ← (selected.zipIdx.map Prod.swap).foldlM (R.selectStep core) loop
  return (leave loop, loop.conflictFound)

end Reconcile

/-! ## `reconcile_v1` -/

/-- What `current_settlement` reports. -/
inductive Disposition where
  | settled (record : Settlement)
  | unresolved (revision : Nat) (conflict : Bool) (settled held : Amount)
deriving DecidableEq

def currentSettlement (H : Hashes) (db : Db) (key : ReservationKey) : Except PortCode Disposition := do
  let _ ← budgetsOf db key.scope
  let (row, _) ← callOf H db key none
  if row.state = .settled then
    match latestSettlement db key with
    | none => .error .conflict
    | some record => return .settled record
  else return .unresolved (max 1 row.revision) (row.state == .conflict) row.actual row.held

namespace Reconcile

variable (R : Reconcile)

/-- The selected events, looked up in the inventory. -/
def select (ids : List Id) : Option (List Observation) :=
  ids.mapM fun i => R.observer.inventory.find? fun e => e.eventId = i

/-- `mark_unknown`, and then `next`. -/
def unknownThen (db : Db) (next : Db → Except PortCode Disposition) :
    Db × Except PortCode Disposition :=
  match markUnknown R.hashes R.ctx R.key db with
  | .error code => (db, .error code)
  | .ok after => (after, next after)

/-- `reconcile_v1`, as the database it leaves and what it returns. -/
def reconcileV1 (ids : List Id) (db : Db) : Db × Except PortCode Disposition :=
  if ¬ (1 ≤ ids.length ∧ ids.length ≤ 8 ∧ ids.Nodup) then (db, .error .limitExceeded)
  else if ¬ (R.observer.inventory.length ≤ 64 ∧
      (R.observer.inventory.map Observation.eventId).Nodup) then
    (db, .error .observerUnavailable)
  else
    match R.select ids with
    | none => (db, .error .observerUnavailable)
    | some selected =>
        if R.observer.acknowledged = false ∨ R.observer.stable = false then
          R.unknownThen db fun _ => .error .observerUnavailable
        else
          match openCall R.hashes db R.key (some R.ctx) >>= fun opened =>
              R.transact opened.1 opened.2 selected with
          | .error code => (db, .error code)
          | .ok (t, true) => (t.db, .error .conflict)
          | .ok (t, false) =>
              if R.observer.steady then (t.db, currentSettlement R.hashes t.db R.key)
              else R.unknownThen t.db fun after => currentSettlement R.hashes after R.key

end Reconcile

end ApiSecurityPlatform.Accounting
