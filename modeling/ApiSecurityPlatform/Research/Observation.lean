/-
# Research.Observation -- the observation lifecycle of one context

`accept`, `lifecycle` (hold, release, delete, quarantine), `revoke_preparation`,
`close_context` and `maintain(reconcile)`, with the retention fields of a record as they
overwrite each other.  Every operation runs under the context's lock in one savepoint,
so one operation is one step, and one that raises leaves no trace.

What an operation asks of tables that are not here (the intake versions, the Target and
its origin, the payload's digest, the audit log's room, the recovery gate) is its
`Checks`: nothing is assumed of them.  Times are microseconds.
-/
import ApiSecurityPlatform.Theory.Transition
import Mathlib.Data.List.Range

namespace ApiSecurityPlatform.Research

open ApiSecurityPlatform.Theory

set_option autoImplicit false

def seconds (n : Int) : Int := n * 1000000

def days (n : Int) : Int := seconds (n * 86400)

/-! ## Rows -/

inductive RecordState where
  | available
  | deleted
  | quarantined
deriving DecidableEq, Repr

structure ObservationPreparation where
  retentionSeconds : Int
  validUntil : Int
  revokedAt : Option Int
deriving DecidableEq, Repr

structure ObservationRecord where
  preparationId : Nat
  expiresAt : Int
  state : RecordState
  unavailableAt : Option Int
  holdStartedAt : Option Int
  holdUntil : Option Int
  holdGeneration : Nat
deriving DecidableEq, Repr

structure Context where
  closedAt : Option Int
  preparations : Nat → Option ObservationPreparation
  nextPreparation : Nat
  records : Nat → Option ObservationRecord
  nextRecord : Nat
  /-- The records that have a row in the payload table. -/
  payloads : Nat → Bool

/-- What the checks on other tables say in one operation. -/
structure Checks where
  /-- `_eligible_context`, and `_target` against the origin. -/
  eligible : Nat → Bool
  /-- `_control`. -/
  control : Bool
  /-- The submitted data fit the registry, the caps and the digest. -/
  admissible : Bool
  /-- The stored payload is intact. -/
  intact : Nat → Bool
  /-- `_event` has room. -/
  audited : Bool

namespace Context

def setRecord (ctx : Context) (id : Nat) (row : Option ObservationRecord) : Context :=
  { ctx with records := fun j => if j = id then row else ctx.records j }

def setPreparation (ctx : Context) (id : Nat) (row : Option ObservationPreparation) : Context :=
  { ctx with preparations := fun j => if j = id then row else ctx.preparations j }

def recordIds (ctx : Context) : List Nat :=
  (List.range ctx.nextRecord).filter fun id => (ctx.records id).isSome

end Context

/-! ## The clock of a record -/

inductive Availability where
  | available
  | held
  | expired
  | deleted
  | quarantined
deriving DecidableEq, Repr

/-- `row.hold_until and now < row.hold_until`. -/
def ObservationRecord.holdActive (row : ObservationRecord) (now : Int) : Bool :=
  match row.holdUntil with
  | none => false
  | some until_ => now < until_

/-- `_state`. -/
def stateAt (row : ObservationRecord) (now : Int) : Availability :=
  match row.state with
  | .deleted => .deleted
  | .quarantined => .quarantined
  | .available =>
      if row.holdActive now then .held
      else if row.expiresAt ≤ now then .expired
      else .available

/-- `_mark_unavailable`. -/
def markUnavailable (row : ObservationRecord) (at_ : Int) (endHold : Bool) : ObservationRecord :=
  let since := min (min (row.unavailableAt.getD at_) row.expiresAt) at_
  let since :=
    match row.holdStartedAt, row.holdUntil, row.unavailableAt with
    | some _, none, some unavailable => unavailable
    | _, _, _ => since
  if endHold then
    let since :=
      match row.holdUntil, row.holdStartedAt with
      | some until_, some started => if started ≤ at_ then max since (min until_ at_) else since
      | _, _ => since
    { row with holdUntil := none, unavailableAt := some since }
  else { row with unavailableAt := some since }

/-- `_recorded_unavailability`, for the row's preparation. -/
def recordedUnavailability (closedAt : Option Int) (prep : ObservationPreparation)
    (row : ObservationRecord) : ObservationRecord :=
  let row :=
    match closedAt with
    | none => row
    | some closed =>
        markUnavailable { row with state := .quarantined } (min closed (prep.revokedAt.getD closed)) false
  match prep.revokedAt with
  | none => row
  | some revoked => markUnavailable { row with state := .quarantined } revoked true

@[simp]
theorem markUnavailable_preparationId (row : ObservationRecord) (at_ : Int) (endHold : Bool) :
    (markUnavailable row at_ endHold).preparationId = row.preparationId := by
  unfold markUnavailable
  dsimp only
  split <;> rfl

@[simp]
theorem recordedUnavailability_preparationId (closedAt : Option Int) (prep : ObservationPreparation)
    (row : ObservationRecord) :
    (recordedUnavailability closedAt prep row).preparationId = row.preparationId := by
  cases closedAt <;> cases revoked : prep.revokedAt <;> simp [recordedUnavailability, revoked]

/-! ## The operations -/

section Operations

variable (ctx : Context) (checks : Checks) (now : Int)

/-- `prepare`. -/
def prepare (retentionSeconds validUntil : Int) : Option Context :=
  if ctx.closedAt = none ∧ checks.control ∧ checks.admissible ∧ checks.audited ∧
      1 ≤ retentionSeconds ∧ now < validUntil ∧ validUntil ≤ now + days 30 then
    some { ctx.setPreparation ctx.nextPreparation (some ⟨retentionSeconds, validUntil, none⟩) with
      nextPreparation := ctx.nextPreparation + 1 }
  else none

/-- `_live_preparation`. -/
def livePreparation (id : Nat) : Option ObservationPreparation :=
  match ctx.preparations id with
  | none => none
  | some prep =>
      if prep.revokedAt = none ∧ ctx.closedAt = none ∧ checks.eligible id ∧ checks.control ∧
          now < prep.validUntil then some prep
      else none

/-- `accept` of a new batch; a retry writes an audit event and nothing else. -/
def accept (preparationId : Nat) : Option Context :=
  match livePreparation ctx checks now preparationId with
  | none => none
  | some prep =>
      if checks.admissible ∧ ctx.recordIds.length < 1024 ∧ checks.audited then
        let id := ctx.nextRecord
        some { ctx.setRecord id (some ⟨preparationId, now + seconds prep.retentionSeconds, .available,
            none, none, none, 0⟩) with
          nextRecord := id + 1
          payloads := fun j => if j = id then true else ctx.payloads j }
      else none

/-- `_payload`. -/
def payload (id : Nat) : Bool := ctx.payloads id && checks.intact id

/-- `lifecycle` with `hold`. -/
def hold (id : Nat) (until_ : Int) : Option Context :=
  match ctx.records id with
  | none => none
  | some row =>
      match livePreparation ctx checks now row.preparationId with
      | none => none
      | some _ =>
          if (stateAt row now = .available ∨ stateAt row now = .held) ∧ payload ctx checks id ∧
              now < until_ ∧ until_ ≤ now + days 30 ∧ row.holdGeneration < 2147483647 ∧
              checks.audited then
            some (ctx.setRecord id (some { row with
              holdGeneration := row.holdGeneration + 1
              holdStartedAt := some now
              holdUntil := some until_ }))
          else none

/-- The hold a release finds: started, and not over. -/
def ObservationRecord.holdRunning (row : ObservationRecord) (now : Int) : Bool :=
  match row.holdStartedAt, row.holdUntil with
  | some started, some until_ => started ≤ now && now < until_
  | _, _ => false

/-- What `release` does to a row it finds held. -/
def released (row : ObservationRecord) : ObservationRecord :=
  let row :=
    if row.state ≠ .available ∨ row.expiresAt ≤ now then markUnavailable row now true else row
  { row with holdUntil := none }

@[simp]
theorem released_preparationId (row : ObservationRecord) :
    (released now row).preparationId = row.preparationId := by
  unfold released
  dsimp only
  split <;> simp

/-- `lifecycle` with `release`. -/
def release (id : Nat) : Option Context :=
  match ctx.records id with
  | none => none
  | some row =>
      match ctx.preparations row.preparationId with
      | none => none
      | some prep =>
          let row := recordedUnavailability ctx.closedAt prep row
          if row.holdRunning now ∧ checks.audited then
            some (ctx.setRecord id (some (released now row)))
          else none

/-- `lifecycle` with `delete` or `quarantine`. -/
def dispose (id : Nat) (state : RecordState) (endHold : Bool) : Option Context :=
  match ctx.records id with
  | none => none
  | some row =>
      match ctx.preparations row.preparationId with
      | none => none
      | some prep =>
          let row := recordedUnavailability ctx.closedAt prep row
          if checks.audited then
            some (ctx.setRecord id (some (markUnavailable { row with state } now endHold)))
          else none

def delete (id : Nat) : Option Context := dispose ctx checks now id .deleted false

def quarantine (id : Nat) : Option Context := dispose ctx checks now id .quarantined true

/-- `revoke_preparation`. -/
def revokePreparation (id : Nat) : Option Context :=
  match ctx.preparations id with
  | none => none
  | some prep =>
      if checks.audited then
        some (ctx.setPreparation id (some { prep with revokedAt := some (prep.revokedAt.getD now) }))
      else none

/-- `close_context`. -/
def closeContext : Option Context :=
  match ctx.closedAt with
  | some _ => none
  | none => if checks.admissible then some { ctx with closedAt := some now } else none

/-! ## `maintain(reconcile)` -/

/-- The row after the replayed delete. -/
def replayed (row : ObservationRecord) : ObservationRecord :=
  markUnavailable { row with state := .deleted } now false

/-- The row after the causes on record; `replay` says that its id is among the replayed
deletes. -/
def recordedCauses (prep : ObservationPreparation) (replay : Bool) (row : ObservationRecord) :
    ObservationRecord :=
  recordedUnavailability ctx.closedAt prep (if replay then replayed now row else row)

/-- The `try` block of a record that is still available or held raises. -/
def unfit (id : Nat) (prep : ObservationPreparation) (row : ObservationRecord) : Bool :=
  let state := stateAt row now
  (state = .available || state = .held) &&
    (!checks.eligible row.preparationId || decide (ctx.closedAt ≠ none) ||
      (decide (prep.validUntil ≤ now) && state ≠ .held) || !payload ctx checks id)

/-- The row after the causes on record and the quarantine by the reconcile itself. -/
def settled (id : Nat) (prep : ObservationPreparation) (replay : Bool) (row : ObservationRecord) :
    ObservationRecord :=
  let row := recordedCauses ctx now prep replay row
  if unfit ctx checks now id prep row then markUnavailable { row with state := .quarantined } now true
  else row

@[simp]
theorem recordedCauses_preparationId (prep : ObservationPreparation) (replay : Bool)
    (row : ObservationRecord) : (recordedCauses ctx now prep replay row).preparationId = row.preparationId := by
  unfold recordedCauses replayed
  cases replay <;> simp

@[simp]
theorem settled_preparationId (id : Nat) (prep : ObservationPreparation) (replay : Bool)
    (row : ObservationRecord) :
    (settled ctx checks now id prep replay row).preparationId = row.preparationId := by
  unfold settled
  dsimp only
  split <;> simp

/-- What the reconcile does with a settled row: nothing, or it sets the clock, purges the
payload, and removes the row once that is 90 days old. -/
inductive Fate where
  | left
  | purged (unavailableAt : Int)
  | removed (unavailableAt : Int)
deriving DecidableEq, Repr

def fate (row : ObservationRecord) : Fate :=
  if stateAt row now = .available then .left
  else if row.holdActive now then .left
  else
    let unavailable := max (row.unavailableAt.getD row.expiresAt)
      (row.holdUntil.getD (row.unavailableAt.getD row.expiresAt))
    if unavailable + days 90 ≤ now then .removed unavailable else .purged unavailable

/-- The row a reconcile leaves. -/
def Fate.record (row : ObservationRecord) : Fate → Option ObservationRecord
  | .left => some row
  | .purged unavailable => some { row with unavailableAt := some unavailable }
  | .removed _ => none

def Fate.keepsPayload : Fate → Bool
  | .left => true
  | _ => false

/-- The settled row of a record, with its fate. -/
def reconciled (deleted : List Nat) (id : Nat) : Option (ObservationRecord × Fate) :=
  match ctx.records id with
  | none => none
  | some row =>
      match ctx.preparations row.preparationId with
      | none => none
      | some prep =>
          let row := settled ctx checks now id prep (decide (id ∈ deleted)) row
          some (row, fate now row)

/-- The records the reconcile quarantines. -/
def quarantinedBy (deleted : List Nat) (id : Nat) : Bool :=
  match ctx.records id with
  | none => false
  | some row =>
      match ctx.preparations row.preparationId with
      | none => false
      | some prep => unfit ctx checks now id prep (recordedCauses ctx now prep (decide (id ∈ deleted)) row)

/-- `maintain` with `reconcile`. -/
def reconcile (deleted : List Nat) : Option Context :=
  if ctx.recordIds.length ≤ 1024 ∧ (∀ id ∈ deleted, (ctx.records id).isSome) ∧ checks.audited ∧
      (∀ id ∈ ctx.recordIds, (reconciled ctx checks now deleted id).isSome) then
    let records := fun id => (reconciled ctx checks now deleted id).bind fun r => r.2.record r.1
    some { ctx with
      records
      payloads := fun id =>
        ctx.payloads id && ((reconciled ctx checks now deleted id).all fun r => r.2.keepsPayload)
      -- preparations past their retention that no record is left of
      preparations := fun id => (ctx.preparations id).filter fun prep =>
        !(decide (prep.revokedAt.getD prep.validUntil + days 90 ≤ now) &&
          (List.range ctx.nextRecord).all fun j =>
            (records j).all fun row => row.preparationId ≠ id) }
  else none

end Operations

/-- What a reconcile leaves of one record and its payload. -/
theorem reconcile_record {ctx context : Context} {checks : Checks} {now : Int} {deleted : List Nat}
    {id : Nat} {row : ObservationRecord} {f : Fate} (done : reconcile ctx checks now deleted = some context)
    (passed : reconciled ctx checks now deleted id = some (row, f)) :
    context.records id = f.record row ∧ context.payloads id = (ctx.payloads id && f.keepsPayload) := by
  unfold reconcile at done
  split at done
  · obtain rfl := Option.some.inj done
    simp [passed]
  · cases done

/-! ## Runs -/

inductive Event where
  | prepare (retentionSeconds validUntil : Int)
  | accept (id preparationId : Nat) (expiresAt : Int)
  | hold (id : Nat) (until_ : Int)
  | release (id : Nat)
  | delete (id : Nat)
  | quarantine (id : Nat)
  | revokePreparation (id : Nat)
  | close
  | reconcile (deleted quarantined : List Nat)
deriving DecidableEq, Repr

/-- An operation that succeeded, with its time and what it was told. -/
structure Entry where
  at_ : Int
  checks : Checks
  event : Event

/-- The operation an entry names, with the results it records. -/
def perform (ctx : Context) (e : Entry) : Option Context :=
  match e.event with
  | .prepare retentionSeconds validUntil => prepare ctx e.checks e.at_ retentionSeconds validUntil
  | .accept id preparationId expiresAt =>
      (accept ctx e.checks e.at_ preparationId).filter fun next =>
        id = ctx.nextRecord ∧ (next.records id).map ObservationRecord.expiresAt = some expiresAt
  | .hold id until_ => hold ctx e.checks e.at_ id until_
  | .release id => release ctx e.checks e.at_ id
  | .delete id => delete ctx e.checks e.at_ id
  | .quarantine id => quarantine ctx e.checks e.at_ id
  | .revokePreparation id => revokePreparation ctx e.checks e.at_ id
  | .close => closeContext ctx e.checks e.at_
  | .reconcile deleted quarantined =>
      if quarantined = ctx.recordIds.filter (quarantinedBy ctx e.checks e.at_ deleted) then
        reconcile ctx e.checks e.at_ deleted
      else none

structure Lifecycle where
  context : Context
  /-- The time of the last operation. -/
  last : Int

/-- Times do not go back. -/
def Lifecycle.step (s : Lifecycle) (e : Entry) : Option Lifecycle :=
  if s.last ≤ e.at_ then (perform s.context e).map fun context => ⟨context, e.at_⟩ else none

/-- A context nobody has used yet. -/
def Lifecycle.Init (s : Lifecycle) : Prop :=
  s.context.closedAt = none ∧ (∀ id, s.context.preparations id = none) ∧
    (∀ id, s.context.records id = none) ∧ ∀ id, s.context.payloads id = false

def lifecycle : System Lifecycle Entry := System.ofStep Lifecycle.Init Lifecycle.step

end ApiSecurityPlatform.Research
