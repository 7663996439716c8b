/-
# Research.TaskLedger -- local task records before execution

`create_version`, `decide_budget` and `transition` of `research_task`, over the five task
tables.  A row of versions, events or allocations is kept with the task it belongs to, and a
member with its version; a task is known by its context and number and a version by its
number, which the unique constraints allow.

All calls hold the catalog lock, so a call is one step.  What the other domains answer while
it runs (permissions, current intents, plans, witnesses, clocks) is a `World`: anything, and
anything else the next time.  A call writes inside a savepoint.
-/
import ApiSecurityPlatform.Theory.Fallible
import ApiSecurityPlatform.Theory.Table
import ApiSecurityPlatform.Theory.Transaction
import ApiSecurityPlatform.Theory.Transition
import ApiSecurityPlatform.Python.Text
import Mathlib.Data.List.Sort

namespace ApiSecurityPlatform.Research.TaskLedger

open ApiSecurityPlatform.Python ApiSecurityPlatform.Theory

set_option autoImplicit false

/-! ## Records -/

/-- Microseconds. -/
abbrev Time := Int

/-- The limits of `app.schemas.research_task`. -/
def maxTasks : Nat := 128
def maxVersions : Nat := 16
def maxEvents : Nat := 64
def maxRequests : Nat := 100
def maxCore : Nat := 65536

/-- `TaskError`, by its code. -/
inductive TaskError where
  | unavailable
  | invalid
  | stale
  | limit
  | cancelled
  | clockInvalid
  | budgetLimit
  | planCancelled
  | planAlreadyBound
  | dependencyMissing
  | inputLimit
  | newVersionRequired
  | budgetApprovalMissing
  | executionDisabled
  | responseLimit
deriving DecidableEq, Repr

/-- `TaskRef`, and the `Reference` of an intent or a manifest. -/
structure Reference where
  number : Int
  version : Nat
  digest : Str
deriving DecidableEq

/-- `SyntheticReference`. -/
structure Evidence where
  fixtureId : Str
  version : Nat
deriving DecidableEq

inductive Role where
  | healthBaseline
  | healthProbe
  | baseline
  | probe
deriving DecidableEq, Repr

/-- The budget; the three AI limits are zero by their type. -/
structure Limits where
  targetRequests : Nat
  durationSeconds : Nat
  rateMillirequestsPerSecond : Nat
  concurrency : Nat
deriving DecidableEq

structure Selection where
  intent : Reference
  planId : Int
  planDigest : Str
  role : Role
deriving DecidableEq

structure Member where
  selection : Selection
  ordinal : Nat
  intentId : Int
  manifest : Reference
  manifestId : Int
  digestVersion : Str
  actionId : Int
  dependsOn : List Int
deriving DecidableEq

def Member.planId (m : Member) : Int := m.selection.planId

structure TaskKey where
  contextId : Int
  number : Int
deriving DecidableEq

structure Core where
  task : TaskKey
  version : Nat
  contextVersion : Nat
  targetId : Int
  authorizationRevisionId : Int
  permissionDigest : Str
  previous : Option Reference
  limits : Limits
  members : List Member
  evidence : Evidence
  recordedAt : Time
  eligibilityUntil : Time
deriving DecidableEq

/-! ## Tables -/

/-- A row of `research_task_members`. -/
structure MemberRow where
  ordinal : Nat
  planId : Int
  intentId : Int
  manifestId : Int
deriving DecidableEq

def Member.row (m : Member) : MemberRow := ⟨m.ordinal, m.planId, m.intentId, m.manifestId⟩

structure Version where
  version : Nat
  contextVersion : Nat
  targetId : Int
  authorizationRevisionId : Int
  body : Core
  digest : Str
  recordedAt : Time
  members : List MemberRow
deriving DecidableEq

inductive Kind where
  | versionCreated
  | approved
  | revoked
  | paused
  | cancelled
deriving DecidableEq, Repr

/-- The body of an event, without the constant actor. -/
structure EventBody where
  sequence : Nat
  version : Nat
  kind : Kind
  evidence : Evidence
  recordedAt : Time
deriving DecidableEq

structure Event where
  version : Nat
  sequence : Nat
  kind : Kind
  body : EventBody
  recordedAt : Time
deriving DecidableEq

/-- One GET held; its state never changes. -/
structure Allocation where
  planId : Int
  firstVersion : Nat
  slot : Nat
  recordedAt : Time
deriving DecidableEq

/-- The row of a task with the rows that belong to it. -/
structure TaskLog where
  targetId : Int
  recordedAt : Time
  versions : List Version
  events : List Event
  allocations : List Allocation

abbrev Ledger := Table TaskKey TaskLog

/-! ## What the other domains answer -/

inductive Purpose where
  | business
  | healthBaseline
  | healthProbe
deriving DecidableEq, Repr

inductive LinkRole where
  | health
  | baseline
  | probe
deriving DecidableEq, Repr

structure LinkMember where
  role : LinkRole
  planId : Int
  planDigest : Str
  actionId : Int
deriving DecidableEq

/-- An intake budget; a limit may be missing. -/
structure Budget where
  targetRequests : Option Nat
  durationSeconds : Option Nat
  concurrency : Option Nat
  rateMillirequestsPerSecond : Option Nat

/-- `intent._base`. -/
structure Base where
  authorizationRevisionId : Int
  permissionDigest : Str
  endsAt : Time
  budget : Budget

structure HealthRef where
  evidenceId : Int
  digest : Str
deriving DecidableEq

/-- `verify.current_intent`: the intent version, its link, its manifest and its deadline. -/
structure IntentView where
  id : Int
  contextVersion : Nat
  targetId : Int
  authorizationRevisionId : Int
  purpose : Purpose
  link : List LinkMember
  health : List HealthRef
  manifest : Reference
  manifestId : Int
  endsAt : Time

structure Plan where
  digestVersion : Str
  planDigest : Str
  targetId : Int
  authorizationRevisionId : Int
  actionCount : Nat

/-- What a call reads of the other domains; `none` and `false` are exceptions. -/
structure World where
  /-- `intent._locked`. -/
  locked : Bool
  base : Option Base
  intent : Reference → Option IntentView
  plan : Int → Option Plan
  planCancelled : Int → Bool
  witness : HealthRef → Option Int
  /-- `checks.clock()` at the time of a new version. -/
  recordedAt : Option Time
  /-- The clock at the allocation of a slot. -/
  allocatedAt : Nat → Option Time
  /-- The clock in `_append`. -/
  appendedAt : Option Time
  /-- `watch_window` and `finish` of the checks. -/
  finished : Bool
  /-- The view is encoded within `MAX_OUTPUT`, and the clocks are read a last time. -/
  encoded : Bool
  /-- The deadline of the lifecycle guard, after the call. -/
  guarded : Bool

/-- The canonical form of a core. -/
structure Codec where
  digest : Core → Str
  size : Core → Nat

/-! ## Reads -/

def require {α : Type} (found : Option α) : Except TaskError α := found.elim (.error .unavailable) .ok

/-- `_events`. -/
def readEvents (log : TaskLog) : Except TaskError (List Event) := do
  let rows := (log.events.insertionSort fun a b => a.sequence ≤ b.sequence).take (maxEvents + 1)
  refuse (maxEvents < rows.length ∨ rows.map (·.sequence) ≠ List.range' 1 rows.length) .unavailable
  refuse (rows.any fun row => row.body.sequence ≠ row.sequence ∨ row.body.kind ≠ row.kind ∨
    row.body.recordedAt ≠ row.recordedAt) .unavailable
  return rows

/-- `_latest`: the row with the greatest version. -/
def latest (log : TaskLog) : Option Version :=
  log.versions.find? fun v => log.versions.all (·.version ≤ v.version)

/-- The columns of a version are those of its body, and its digest is the body's. -/
def Version.intact (C : Codec) (key : TaskKey) (log : TaskLog) (row : Version) : Bool :=
  C.digest row.body = row.digest && row.body.task = key && row.body.version = row.version &&
    row.body.targetId = log.targetId && row.body.contextVersion = row.contextVersion &&
    row.body.authorizationRevisionId = row.authorizationRevisionId && row.body.recordedAt = row.recordedAt

/-- `_exact`. -/
def exactVersion (C : Codec) (key : TaskKey) (log : TaskLog) (reference : Reference) :
    Except TaskError Version := do
  let row ← require (log.versions.find? fun v => v.version = reference.version ∧ v.digest = reference.digest)
  refuse (reference.number ≠ key.number) .unavailable
  refuse (¬ row.intact C key log) .unavailable
  refuse ((row.members.insertionSort fun a b => a.ordinal ≤ b.ordinal) ≠ row.body.members.map Member.row) .unavailable
  return row

/-- What `_current` returns. -/
structure Current where
  log : TaskLog
  row : Version
  events : List Event

/-- `_current`. -/
def current (C : Codec) (db : Ledger) (contextId : Int) (reference : Reference) (expectedSequence : Nat) :
    Except TaskError Current := do
  let log ← require (db.row ⟨contextId, reference.number⟩)
  let row ← exactVersion C ⟨contextId, reference.number⟩ log reference
  let events ← readEvents log
  refuse ((latest log).map (·.version) ≠ some row.version ∨ events.length ≠ expectedSequence) .stale
  refuse (events.any (·.kind = .cancelled)) .cancelled
  return ⟨log, row, events⟩

/-- `_allocations`. -/
def readAllocations (log : TaskLog) : Except TaskError (List Allocation) := do
  let rows := (log.allocations.insertionSort fun a b => a.slot ≤ b.slot).take (maxRequests + 1)
  refuse (maxRequests < rows.length) .budgetLimit
  return rows

/-! ## The snapshot of a member set -/

/-- The fields `_snapshot` takes of a command, or of a core. -/
structure Proposal where
  contextVersion : Nat
  targetId : Int
  authorizationRevisionId : Int
  limits : Limits
  members : List Selection

def Core.proposal (core : Core) : Proposal :=
  ⟨core.contextVersion, core.targetId, core.authorizationRevisionId, core.limits, core.members.map (·.selection)⟩

/-- One comparison of `_limits`. -/
def within (value : Nat) (cap : Option Nat) : Bool := cap.any (value ≤ ·)

/-- `_limits`. -/
def checkLimits (limits : Limits) (budget : Budget) : Except TaskError Unit :=
  refuse (¬ (within limits.targetRequests budget.targetRequests && within limits.durationSeconds budget.durationSeconds &&
    within limits.concurrency budget.concurrency &&
    within limits.rateMillirequestsPerSecond budget.rateMillirequestsPerSecond)) .budgetLimit

/-- The role a member has by its link. -/
def linkedRole (purpose : Purpose) : LinkRole → Option Role
  | .health =>
      match purpose with
      | .business => none
      | .healthBaseline => some .healthBaseline
      | .healthProbe => some .healthProbe
  | .baseline => some .baseline
  | .probe => some .probe

/-- A version of the task has the plan as a member. -/
def TaskLog.binds (log : TaskLog) (planId : Int) : Bool :=
  log.versions.any fun v => v.members.any (·.planId = planId)

def boundElsewhere (db : Ledger) (key : TaskKey) (planId : Int) : Bool :=
  db.keys.any fun k => k ≠ key ∧ (db.row k).any (·.binds planId)

/-- The plans a member depends on, before they are sorted. -/
def dependencies (W : World) (view : IntentView) (role : Role) : Except TaskError (List Int) := do
  let proofs ← view.health.mapM fun health => require (W.witness health)
  match role with
  | .probe =>
      let baseline ← require (view.link.find? (·.role = .baseline))
      return (proofs ++ [baseline.planId]).eraseDups
  | _ => return proofs.eraseDups

/-- One pass of the loop of `_snapshot`; `seen` are the plans of the members before. -/
def snapshotMember (W : World) (db : Ledger) (key : TaskKey) (p : Proposal) (ordinal : Nat) (seen : List Int)
    (selected : Selection) : Except TaskError (Member × Time) := do
  let view ← require (W.intent selected.intent)
  refuse ((view.contextVersion, view.targetId, view.authorizationRevisionId) ≠
    (p.contextVersion, p.targetId, p.authorizationRevisionId)) .unavailable
  let link ← require (view.link.find? (·.planId = selected.planId))
  let plan ← require (W.plan selected.planId)
  refuse (linkedRole view.purpose link.role ≠ some selected.role ∨ plan.digestVersion ≠ "v1".toList ∨
    plan.planDigest ≠ selected.planDigest ∨ plan.planDigest ≠ link.planDigest ∨ plan.targetId ≠ p.targetId ∨
    plan.authorizationRevisionId ≠ p.authorizationRevisionId ∨ plan.actionCount ≠ 1) .unavailable
  refuse (W.planCancelled selected.planId) .planCancelled
  refuse (boundElsewhere db key selected.planId) .planAlreadyBound
  let plans ← dependencies W view selected.role
  refuse (plans.any (· ∉ seen)) .dependencyMissing
  let allIds := p.members.map (·.planId)
  let sorted := plans.insertionSort fun a b => allIds.idxOf a ≤ allIds.idxOf b
  -- `depends_on` has at most three entries
  refuse (3 < sorted.length) .unavailable
  return (⟨selected, ordinal, view.id, view.manifest, view.manifestId, plan.digestVersion, link.actionId, sorted⟩,
    view.endsAt)

def snapshotMembers (W : World) (db : Ledger) (key : TaskKey) (p : Proposal) :
    Nat → List Int → List Selection → Except TaskError (List (Member × Time))
  | _, _, [] => .ok []
  | ordinal, seen, selected :: rest => do
      let first ← snapshotMember W db key p ordinal seen selected
      let others ← snapshotMembers W db key p (ordinal + 1) (seen ++ [selected.planId]) rest
      return first :: others

structure Snapshot where
  permissionDigest : Str
  members : List Member
  endsAt : Time

/-- `_snapshot`. -/
def snapshot (W : World) (db : Ledger) (key : TaskKey) (p : Proposal) : Except TaskError Snapshot := do
  let base ← require W.base
  refuse (base.authorizationRevisionId ≠ p.authorizationRevisionId) .unavailable
  checkLimits p.limits base.budget
  refuse (p.limits.targetRequests < p.members.length) .budgetLimit
  refuse (¬ (p.members.map (·.planId)).Nodup) .invalid
  let members ← snapshotMembers W db key p 1 [] p.members
  return ⟨base.permissionDigest, members.map Prod.fst, (members.map Prod.snd).foldl min base.endsAt⟩

/-! ## Writes -/

abbrev Op := Tx TaskError Ledger

/-- The row of `_append`. -/
def newEvent (version : Version) (events : List Event) (kind : Kind) (evidence : Evidence) (now : Time) : Event :=
  ⟨version.version, events.length + 1, kind, ⟨events.length + 1, version.version, kind, evidence, now⟩, now⟩

/-- `_append`. -/
def append (key : TaskKey) (version : Version) (events : List Event) (kind : Kind) (evidence : Evidence)
    (at_ : Option Time) : Op (List Event) := do
  Tx.refuse (maxEvents ≤ events.length) .limit
  let now ← Tx.lift (require at_)
  Tx.refuse (now < version.recordedAt ∨ events.getLast?.any (now < ·.recordedAt)) .clockInvalid
  let row := newEvent version events kind evidence now
  Tx.modify fun db => db.modify key fun log => { log with events := log.events ++ [row] }
  return events ++ [row]

/-- One row of `_allocate`; a plan that has a row already violates the primary key. -/
def holdPlan (W : World) (key : TaskKey) (version slot : Nat) (planId : Int) : Op Unit := do
  let now ← Tx.lift (require (W.allocatedAt slot))
  let db ← Tx.get
  Tx.refuse (db.keys.any fun k => (db.row k).any fun log => log.allocations.any (·.planId = planId)) .unavailable
  Tx.modify fun db => db.modify key fun log =>
    { log with allocations := log.allocations ++ [⟨planId, version, slot, now⟩] }

def holdPlans (W : World) (key : TaskKey) (version : Nat) : Nat → List Int → Op Unit
  | _, [] => pure ()
  | slot, planId :: rest => do
      holdPlan W key version slot planId
      holdPlans W key version (slot + 1) rest

/-- `_allocate`. -/
def allocate (W : World) (key : TaskKey) (log : TaskLog) (row : Version) : Op Unit := do
  let held ← Tx.lift (readAllocations log)
  let new := (row.body.members.map Member.planId).filter (· ∉ held.map (·.planId))
  Tx.refuse (row.body.limits.targetRequests < held.length + new.length) .budgetLimit
  holdPlans W key row.version (held.length + 1) new

/-- `_qualify`. -/
def qualify (W : World) (db : Ledger) (key : TaskKey) (row : Version) : Except TaskError Unit := do
  let current ← snapshot W db key row.body.proposal
  refuse (current.permissionDigest ≠ row.body.permissionDigest ∨ current.members ≠ row.body.members) .unavailable
  refuse (¬ W.finished) .unavailable

inductive ViewState where
  | awaitingBudgetApproval
  | budgetApproved
  | budgetRevoked
  | paused
  | cancelled
  | superseded
deriving DecidableEq, Repr

/-- The part of the view that is read from the task tables. -/
structure View where
  reference : Reference
  currentVersion : Option Nat
  sequence : Nat
  state : ViewState
  heldRequests : Nat
  selectedRequests : Nat

/-- The state of a version in the view. -/
def viewState (log : TaskLog) (row : Version) (events : List Event) : ViewState :=
  let relevant := events.filter (·.version = row.version)
  if events.any (·.kind = .cancelled) then .cancelled
  else if (latest log).map (·.version) ≠ some row.version then .superseded
  else if relevant.any (·.kind = .paused) then .paused
  else match (relevant.filter fun e => e.kind = .approved ∨ e.kind = .revoked).getLast? with
    | none => .awaitingBudgetApproval
    | some e => if e.kind = .approved then .budgetApproved else .budgetRevoked

/-- `_view`. -/
def view (W : World) (key : TaskKey) (row : Version) (events : List Event) : Op View := do
  let db ← Tx.get
  let log ← Tx.lift (require (db.row key))
  let held ← Tx.lift (readAllocations log)
  Tx.refuse (¬ W.encoded) .responseLimit
  return ⟨⟨key.number, row.version, row.digest⟩, (latest log).map (·.version), events.length,
    viewState log row events, held.length, row.body.members.length⟩

/-! ## Calls -/

/-- `CreateVersion`. -/
structure CreateVersion where
  previous : Option Reference
  expectedSequence : Nat
  proposal : Proposal
  evidence : Evidence

/-- What the schema accepts. -/
def CreateVersion.valid (p : CreateVersion) : Bool :=
  p.expectedSequence ≤ maxEvents && p.proposal.members ≠ [] && p.proposal.members.length ≤ maxRequests &&
    (p.proposal.members.map (·.planId)).Nodup && 1 ≤ p.proposal.limits.targetRequests &&
    p.proposal.limits.targetRequests ≤ 100 && 1 ≤ p.proposal.limits.durationSeconds &&
    p.proposal.limits.durationSeconds ≤ 1800 && 1 ≤ p.proposal.limits.rateMillirequestsPerSecond &&
    p.proposal.limits.rateMillirequestsPerSecond ≤ 1000 && p.proposal.limits.concurrency = 1

structure Decision where
  task : Reference
  expectedSequence : Nat
  /-- `approved`, or else `revoked`. -/
  approved : Bool
  evidence : Evidence

inductive Action where
  | pause
  | cancel
  | start
  | resume
  | dispatch
deriving DecidableEq, Repr

structure Transition where
  task : Reference
  expectedSequence : Nat
  action : Action
  evidence : Evidence

section Calls

variable (C : Codec) (W : World)

/-- What a new version continues, if the task is there. -/
def previousOf (db : Ledger) (key : TaskKey) (p : CreateVersion) : Except TaskError (Option Current) :=
  match db.row key with
  | none => do
      refuse (p.previous.isSome ∨ p.expectedSequence ≠ 0) .stale
      refuse (maxTasks ≤ (db.keys.filter (·.contextId = key.contextId)).length) .limit
      return none
  | some log =>
      match p.previous with
      | none => .error .stale
      | some previous => do
          refuse (previous.number ≠ key.number ∨ log.targetId ≠ p.proposal.targetId) .stale
          let now ← current C db key.contextId previous p.expectedSequence
          refuse (maxVersions ≤ now.row.version) .limit
          return some now

/-- The core of a new version. -/
def newCore (key : TaskKey) (p : CreateVersion) (previous : Option Current) (taken : Snapshot) (now : Time) : Core :=
  { task := key
    version := (previous.map (·.row.version)).getD 0 + 1
    contextVersion := p.proposal.contextVersion
    targetId := p.proposal.targetId
    authorizationRevisionId := p.proposal.authorizationRevisionId
    permissionDigest := taken.permissionDigest
    previous := p.previous
    limits := p.proposal.limits
    members := taken.members
    evidence := p.evidence
    recordedAt := now
    eligibilityUntil := taken.endsAt }

/-- The row of a core, with the rows of its members. -/
def Core.versionRow (core : Core) : Version :=
  ⟨core.version, core.contextVersion, core.targetId, core.authorizationRevisionId, core, C.digest core,
    core.recordedAt, core.members.map Member.row⟩

/-- The savepoint of `create_version`. -/
def createBody (key : TaskKey) (p : CreateVersion) : Op View := do
  Tx.refuse (key.number < 1 ∨ 1024 < key.number) .invalid
  let db ← Tx.get
  let previous ← Tx.lift (previousOf C db key p)
  let events := (previous.map (·.events)).getD []
  let taken ← Tx.lift (snapshot W db key p.proposal)
  let now ← Tx.lift (require W.recordedAt)
  Tx.refuse (events.getLast?.any (now < ·.recordedAt)) .clockInvalid
  let log := (previous.map (·.log)).getD ⟨p.proposal.targetId, now, [], [], []⟩
  Tx.modify fun db => if previous.isNone then db.put key log else db
  let held ← Tx.lift (readAllocations log)
  Tx.refuse (p.proposal.limits.targetRequests <
    (held.map (·.planId) ++ taken.members.map Member.planId).eraseDups.length) .budgetLimit
  let core := newCore key p previous taken now
  Tx.refuse (maxCore < C.size core) .inputLimit
  let row := core.versionRow C
  Tx.modify fun db => db.modify key fun log => { log with versions := log.versions ++ [row] }
  let events ← append key row events .versionCreated p.evidence W.appendedAt
  view W key row events

/-- The part of `decide_budget` before the event. -/
def decideChecks (db : Ledger) (key : TaskKey) (now : Current) (approved : Bool) : Op Unit :=
  let own := now.events.filter (·.version = now.row.version)
  if approved then do
    Tx.refuse (own.any fun e => e.kind = .approved ∨ e.kind = .revoked ∨ e.kind = .paused) .newVersionRequired
    Tx.lift (qualify W db key now.row)
    allocate W key now.log now.row
  else Tx.refuse (¬ own.any (·.kind = .approved)) .budgetApprovalMissing

/-- The savepoint of `decide_budget`. -/
def decideBody (contextId : Int) (p : Decision) : Op View := do
  let db ← Tx.get
  let now ← Tx.lift (current C db contextId p.task p.expectedSequence)
  let key : TaskKey := ⟨contextId, p.task.number⟩
  decideChecks W db key now p.approved
  let events ← append key now.row now.events (if p.approved then .approved else .revoked) p.evidence W.appendedAt
  view W key now.row events

/-- The savepoint of `transition`. -/
def transitionBody (contextId : Int) (p : Transition) : Op View := do
  let db ← Tx.get
  let now ← Tx.lift (current C db contextId p.task p.expectedSequence)
  let key : TaskKey := ⟨contextId, p.task.number⟩
  Tx.refuse (p.action = .start ∨ p.action = .resume ∨ p.action = .dispatch) .executionDisabled
  let events ← append key now.row now.events (if p.action = .pause then .paused else .cancelled) p.evidence
    W.appendedAt
  view W key now.row events

/-- `operation`: the lifecycle guard rolls the transaction back when its deadline has passed. -/
def operation (body : Op View) : Op View :=
  Tx.savepoint do
    Tx.refuse (¬ W.locked) .unavailable
    let result ← Tx.savepoint body
    Tx.refuse (¬ W.guarded) .unavailable
    return result

/-- A call of one of the three functions. -/
inductive Call where
  | createVersion (key : TaskKey) (payload : CreateVersion)
  | decideBudget (contextId : Int) (payload : Decision)
  | transition (contextId : Int) (payload : Transition)

def run : Call → Op View
  | .createVersion key p =>
      if p.valid then operation W (createBody C W key p) else Tx.raise .invalid
  | .decideBudget contextId p =>
      if p.expectedSequence ≤ maxEvents then operation W (decideBody C W contextId p) else Tx.raise .invalid
  | .transition contextId p =>
      if p.expectedSequence ≤ maxEvents then operation W (transitionBody C W contextId p) else Tx.raise .invalid

/-- The ledger under any calls, each with its own answers of the other domains. -/
def tasks : System Ledger (Call × World) where
  init db := db = .empty
  step db call db' := (run C call.2 call.1 db).2 = db'

end Calls

end ApiSecurityPlatform.Research.TaskLedger
