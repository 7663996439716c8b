/-
# Research.PairVerification -- `research_verification.verify_pair`

A pair of witnesses says what two plans of a business intent have shown: the baseline that the
object can be read, the probe what the second actor gets.  `verify_pair` checks the intent, both
witnesses with everything they refer to, the approvals and the clock, and then stores the pair
or finds it stored.

The tables are those `verify_pair` and `witness` read.  What else a current intent depends on
(its manifest, budget, knowledge, health evidence, plans and contract) is read through
`Setting`: it may do anything with the clock and raise, but it writes nothing that is read here.
A call reads the clock again and again; `Session` has what it will show.
-/
import ApiSecurityPlatform.Research.VerificationClock
import ApiSecurityPlatform.Theory.Fallible

namespace ApiSecurityPlatform.Research.PairVerification

open ApiSecurityPlatform.Theory
open ApiSecurityPlatform.Python (Str)
open ApiSecurityPlatform.Research.VerificationClock

set_option autoImplicit false

/-- `IntentError`, by its code. -/
inductive Refusal where
  | clock (e : ClockError)
  | invalidated
  | invalid
  /-- An `OverflowError` of `timedelta`. -/
  | overflow
  /-- An `IndexError` or a `TypeError`, of a body without what is read. -/
  | broken
  | intentUnavailable
  | intentIntegrity
  | intentDependencyChanged
  | intentExpired
  | evidenceUnavailable
  | provenanceMismatch
  | clockAnomaly
  | approvalProvenanceMissing
  | planMismatch
  | approvalRequired
  | cancelled
  | pairMismatch
  | expired
  | baselineUnqualified
  | probeMissing
  | pairConflict
  | storageLimit
  /-- A dependency of the intent. -/
  | dependency (code : Str)
deriving DecidableEq

/-! ## Bodies -/

/-- `Reference`. -/
structure Reference where
  number : Int
  version : Int
  digest : Str
deriving DecidableEq

/-- `EvidenceRef`. -/
structure EvidenceRef where
  id : Nat
  digest : Str
deriving DecidableEq

inductive Purpose where
  | business
  | healthBaseline
  | healthProbe
deriving DecidableEq

/-- Roles of actions and of plans; a plan of a health intent has the role `health`. -/
inductive Role where
  | baseline
  | probe
  | health
  | healthBaseline
  | healthProbe
deriving DecidableEq

def Purpose.slot : Purpose → Option Role
  | .business => none
  | .healthBaseline => some .healthBaseline
  | .healthProbe => some .healthProbe

inductive Outcome where
  | healthy
  | objectRead
  | businessDenied
  | inconclusive
deriving DecidableEq

inductive TemporalStatus where
  | qualified
  | dependencyUnavailable
  | networkIncomplete
  | clockOrDeadlineInvalid
deriving DecidableEq

inductive PairOutcome where
  | inconclusive
  | allowed
  | suspectedViolation
  | expectedDenial
deriving DecidableEq

inductive Reason where
  | accessFactsUnqualified
  | baselineUnqualified
  | expectedAccessObserved
  | deniedObjectRead
  | qualifiedBusinessDenial
  | allowedAccessNotObserved
  | probeUnqualified
deriving DecidableEq

/-- `pair_outcome`. -/
def pairOutcome (expected : Str) (baseline : Outcome) (probe : Option Outcome) : PairOutcome × Reason :=
  if expected ≠ "allowed".toList ∧ expected ≠ "denied".toList then (.inconclusive, .accessFactsUnqualified)
  else if baseline ≠ .objectRead then (.inconclusive, .baselineUnqualified)
  else if probe = some .objectRead then
    if expected = "allowed".toList then (.allowed, .expectedAccessObserved) else (.suspectedViolation, .deniedObjectRead)
  else if probe = some .businessDenied then
    if expected = "denied".toList then (.expectedDenial, .qualifiedBusinessDenial)
    else (.inconclusive, .allowedAccessNotObserved)
  else (.inconclusive, .probeUnqualified)

/-- An action of a snapshot: `actor.facts.expected_access` is all that is read of it here. -/
structure Action where
  role : Role
  expectedAccess : Str
deriving DecidableEq

structure Interpreter where
  id : Nat
  version : Int
  digest : Str
deriving DecidableEq

/-- The body of an intent: `authorizationRevisionId` and `actions` are its snapshot, and
`interpreter` is of its interpretation. -/
structure IntentBody where
  protocol : Str
  intentId : Int
  version : Int
  recordedAt : Str
  expiresAt : Str
  purpose : Purpose
  manifest : Reference
  authorizationRevisionId : Nat
  actions : List Action
  interpreter : Interpreter
  requestCount : Nat
deriving DecidableEq

structure Member where
  role : Role
  planId : Nat
  planDigest : Str
  actionId : Nat
  testCaseId : Nat
deriving DecidableEq

structure Link where
  protocol : Str
  intentDigest : Str
  members : List Member
deriving DecidableEq

structure AttemptBody where
  protocol : Str
  intent : Reference
  linkDigest : Str
  manifest : Reference
  planId : Nat
  actionId : Nat
  role : Role
  planDigest : Str
  credentialVersionId : Option Nat
  approvalId : Option Nat
  fencingGeneration : Nat
  prepared : Mark
  recordedAt : Str
deriving DecidableEq

structure WitnessBody where
  protocol : Str
  intent : Reference
  linkDigest : Str
  attempt : EvidenceRef
  planId : Nat
  actionId : Nat
  runId : Nat
  role : Role
  credentialVersionId : Option Nat
  send : Mark
  complete : Mark
  responseStatus : Option Int
  requestDigest : Str
  interpreter : Str
  outcome : Outcome
  temporalStatus : TemporalStatus
  eligibilityUntil : Str
  recordedAt : Str
  clock : Mark
deriving DecidableEq

structure PairBody where
  protocol : Str
  version : Int
  intent : Reference
  linkDigest : Str
  baseline : EvidenceRef
  probe : Option EvidenceRef
  baselineRunId : Nat
  probeRunId : Option Nat
  outcome : PairOutcome
  reason : Reason
  expectedAccess : Str
  interpreter : Interpreter
  recordedAt : Str
  clock : Mark
deriving DecidableEq

/-! ## Rows -/

structure IntentRow where
  id : Nat
  contextId : Int
  number : Int
  version : Int
  body : IntentBody
  digest : Str
  recordedAt : Int
  validUntil : Int
  link : Link
  linkDigest : Str
deriving DecidableEq

/-- `_ref`. -/
def IntentRow.reference (row : IntentRow) : Reference := ⟨row.number, row.version, row.digest⟩

def IntentRow.key (row : IntentRow) : Key := ⟨row.contextId, row.number, row.version, row.digest⟩

/-- `EvidenceRecord`. -/
structure EvidenceRecord (β : Type) where
  id : Nat
  contextId : Int
  body : β
  digest : Str
  recordedAt : Int
deriving DecidableEq

/-- `ref`. -/
def EvidenceRecord.ref {β : Type} (row : EvidenceRecord β) : EvidenceRef := ⟨row.id, row.digest⟩

structure AttemptRow extends EvidenceRecord AttemptBody where
  manifestId : Nat
  intentId : Nat
  planId : Nat
  slot : Role
deriving DecidableEq

structure WitnessRow extends EvidenceRecord WitnessBody where
  intentId : Nat
  planId : Nat
  runId : Nat
  attemptId : Nat
deriving DecidableEq

structure PairRow extends EvidenceRecord PairBody where
  intentId : Nat
  baselineId : Nat
  probeId : Option Nat
deriving DecidableEq

structure ContextRow where
  id : Int
  projectNumber : Int
deriving DecidableEq

structure ManifestRow where
  id : Nat
  contextId : Int
  number : Int
  version : Int
deriving DecidableEq

structure PlanMemberRow where
  intentId : Nat
  role : Role
  planId : Nat
  actionId : Nat
  testCaseId : Nat
deriving DecidableEq

structure TestRun where
  id : Nat
  executionPlanId : Option Nat
  testCaseId : Nat
  authorizationRevisionId : Option Nat
  responseBody : Option Str
  responseStatus : Option Int
  requestData : Str
  errorMessage : Option Str
deriving DecidableEq

inductive Phase where
  | preNetwork
  | networkStarted
  | inDoubt
deriving DecidableEq

structure Progress where
  planId : Nat
  phase : Phase
  fencingGeneration : Nat
deriving DecidableEq

structure Revision where
  id : Nat
  requireHumanExecutionApproval : Bool
deriving DecidableEq

inductive Decision where
  | approved
  | revoked
deriving DecidableEq

structure ApprovalRecord where
  id : Nat
  executionPlanId : Nat
  digestVersion : Str
  planDigest : Str
  decision : Decision
deriving DecidableEq

structure Plan where
  id : Nat
  digestVersion : Str
  planDigest : Str
deriving DecidableEq

/-- `VerificationAudit`. -/
structure AuditRow where
  id : Nat
  contextId : Int
  code : Str
deriving DecidableEq

/-- The tables, and all the others. -/
structure Db (R : Type) where
  contexts : List ContextRow
  intents : List IntentRow
  manifests : List ManifestRow
  planMembers : List PlanMemberRow
  attempts : List AttemptRow
  witnesses : List WitnessRow
  runs : List TestRun
  progress : List Progress
  revisions : List Revision
  approvals : List ApprovalRecord
  plans : List Plan
  cancellations : List Nat
  pairs : List PairRow
  audits : List AuditRow
  /-- The sequence of the surrogate keys. -/
  sequence : Nat
  rest : R

/-! ## Sessions -/

/-- The clock of a call, and what the two clocks will show, reading after reading. -/
structure Session where
  clock : Clock
  feed : Nat → Sample

abbrev Call (α : Type) := Tx Refusal Session α

/-- The clock does something without being read. -/
def onClock {α : Type} (x : Tx ClockError Clock α) : Call α := fun s =>
  match x s.clock with
  | (.ok a, c) => (.ok a, { s with clock := c })
  | (.error e, c) => (.error (.clock e), { s with clock := c })

/-- The clock is read. -/
def reading {α : Type} (x : Sample → Tx ClockError Clock α) : Call α := fun s =>
  onClock (x (s.feed 0)) { s with feed := fun n => s.feed (n + 1) }

/-- What the service has around it. -/
structure Setting (R : Type) where
  timestamp : Str → Option Int
  stamp : Int → Str
  /-- `DOMAIN`. -/
  domain : Str
  /-- `DEFINITION_DIGEST`. -/
  definition : Str
  intentDigest : IntentBody → Str
  linkDigest : Link → Str
  attemptDigest : AttemptBody → Str
  witnessDigest : WitnessBody → Str
  pairDigest : PairBody → Str
  /-- `digest('ra-request-snapshot/1', request_data)`. -/
  requestDigest : Str → Str
  /-- What `read` checks of an intent besides the intent itself, and the deadlines of that. -/
  dependencies : Db R → IntentRow → Call (List Int)
  /-- What `current_intent` checks after it: the manifest, the interpretation and the contract. -/
  contract : Db R → IntentRow → Call (List Int)

/-! ## Reading rows -/

section

variable {R : Type} (E : Setting R)

/-- `if row is None: raise`. -/
def orRaise {α : Type} (e : Refusal) : Option α → Except Refusal α
  | some a => .ok a
  | none => .error e

/-- `timestamp(value)`. -/
def instant (written : Str) : Except Refusal Int := orRaise .invalid (E.timestamp written)

/-- `mark['monotonic_ns']`, where it is compared. -/
def counted (mark : Mark) : Except Refusal Int := orRaise .broken mark.monotonicNs

/-- `at + timedelta(seconds=seconds)`. -/
def later (at_ seconds : Int) : Except Refusal Int :=
  if at_ + seconds * 1000000 < 0 ∨ maxInstant < at_ + seconds * 1000000 then .error .overflow
  else .ok (at_ + seconds * 1000000)

/-- What `integrity` asks of a row with the protocol, the time and the digest of its body. -/
def Integrity {β : Type} (ctx : Int) (row : EvidenceRecord β) (protocol expected recordedAt digest : Str) : Prop :=
  row.contextId = ctx ∧ protocol = expected ∧ recordedAt = E.stamp row.recordedAt ∧ digest = row.digest

instance {β : Type} (ctx : Int) (row : EvidenceRecord β) (protocol expected recordedAt digest : Str) :
    Decidable (Integrity E ctx row protocol expected recordedAt digest) := by
  unfold Integrity
  infer_instance

def attemptIntegrity (ctx : Int) (row : AttemptRow) : Except Refusal Unit :=
  refuse (¬ Integrity E ctx row.toEvidenceRecord row.body.protocol "ra-dispatch-attempt/1".toList row.body.recordedAt
    (E.attemptDigest row.body)) .evidenceUnavailable

def witnessIntegrity (ctx : Int) (row : WitnessRow) : Except Refusal Unit :=
  refuse (¬ Integrity E ctx row.toEvidenceRecord row.body.protocol "ra-execution-witness/1".toList row.body.recordedAt
    (E.witnessDigest row.body)) .evidenceUnavailable

def pairIntegrity (ctx : Int) (row : PairRow) : Except Refusal Unit :=
  refuse (¬ Integrity E ctx row.toEvidenceRecord row.body.protocol "ra-pair-evidence/1".toList row.body.recordedAt
    (E.pairDigest row.body)) .evidenceUnavailable

variable (db : Db R)

/-- `_locked`. -/
def locked (project ctx : Int) : Except Refusal Unit :=
  refuse (¬ ∃ row ∈ db.contexts, row.id = ctx ∧ row.projectNumber = project) .intentUnavailable

/-- No version of the number is newer than this one. -/
def Newest (core : IntentRow) : Prop :=
  ∀ row ∈ db.intents, row.contextId = core.contextId → row.number = core.number → row.version ≤ core.version

instance (core : IntentRow) : Decidable (Newest db core) := by
  unfold Newest
  infer_instance

/-! ## Witnesses -/

/-- `ordered(m) == sorted(m)` of the three marks of a witness, in one domain. -/
def inOrder (body : WitnessBody) : Except Refusal Unit := do
  refuse (¬ (body.send.clockDomain = body.complete.clockDomain ∧ body.complete.clockDomain = body.clock.clockDomain))
    .clockAnomaly
  let send ← instant E body.send.written
  let complete ← instant E body.complete.written
  refuse (complete < send) .clockAnomaly
  let clock ← instant E body.clock.written
  refuse (clock < complete) .clockAnomaly
  let sendNs ← counted body.send
  let completeNs ← counted body.complete
  refuse (completeNs < sendNs) .clockAnomaly
  let clockNs ← counted body.clock
  refuse (clockNs < completeNs) .clockAnomaly

/-- `core.body['purpose'] if member['role'] == 'health' else member['role']`. -/
def expectedSlot (core : IntentRow) (member : Member) : Option Role :=
  if member.role = .health then core.body.purpose.slot else some member.role

/-- The first half of the checks of `witness`: the attempt is one of this plan of this intent. -/
def checkAttempt (ctx : Int) (row : WitnessRow) (attempt : AttemptRow) (core : IntentRow) (member : Member) :
    Except Refusal Unit := do
  refuse (attempt.intentId ≠ row.intentId ∨ attempt.planId ≠ row.planId ∨
    row.body.intent ≠ core.reference ∨ row.body.linkDigest ≠ core.linkDigest ∨
    attempt.body.intent ≠ core.reference ∨ attempt.body.linkDigest ≠ core.linkDigest ∨
    attempt.body.manifest ≠ core.body.manifest) .provenanceMismatch
  let manifest := db.manifests.find? fun manifest => manifest.contextId = ctx ∧
    manifest.number = core.body.manifest.number ∧ manifest.version = core.body.manifest.version
  refuse (manifest.map ManifestRow.id ≠ some attempt.manifestId ∨ attempt.body.planId ≠ row.planId ∨
    attempt.body.actionId ≠ member.actionId ∨ attempt.body.role ≠ member.role ∨
    attempt.body.planDigest ≠ member.planDigest ∨ expectedSlot core member ≠ some attempt.slot ∨
    row.body.attempt ≠ attempt.ref ∨ row.body.planId ≠ row.planId ∨ row.body.runId ≠ row.runId ∨
    row.body.actionId ≠ member.actionId ∨ row.body.role ≠ member.role ∨
    row.body.send.clockDomain ≠ attempt.body.prepared.clockDomain) .provenanceMismatch
  let send ← counted row.body.send
  let prepared ← counted attempt.body.prepared
  refuse (send < prepared) .provenanceMismatch
  let sendAt ← instant E row.body.send.written
  let preparedAt ← instant E attempt.body.prepared.written
  refuse (sendAt < preparedAt) .provenanceMismatch

/-- The second half: the run and the claim of the plan are those of the witness. -/
def checkRun (row : WitnessRow) (attempt : AttemptRow) (core : IntentRow) (member : Member) (currentDefinition : Bool) :
    Except Refusal TestRun := do
  refuse (row.body.credentialVersionId ≠ attempt.body.credentialVersionId ∨
    (currentDefinition = true ∧ row.body.interpreter ≠ E.definition)) .provenanceMismatch
  let run ← orRaise .provenanceMismatch (db.runs.find? fun run => run.id = row.runId)
  refuse (run.executionPlanId ≠ some row.planId ∨ run.testCaseId ≠ member.testCaseId ∨
    run.authorizationRevisionId ≠ some core.body.authorizationRevisionId ∨ run.responseBody ≠ none ∨
    run.responseStatus ≠ row.body.responseStatus ∨ E.requestDigest run.requestData ≠ row.body.requestDigest)
    .provenanceMismatch
  let progress ← orRaise .provenanceMismatch (db.progress.find? fun progress => progress.planId = row.planId)
  refuse (progress.phase ≠ .networkStarted ∨ progress.fencingGeneration ≠ attempt.body.fencingGeneration)
    .provenanceMismatch
  return run

/-- The checks of a qualified witness. -/
def checkQualified (row : WitnessRow) (run : TestRun) : Except Refusal Unit :=
  if row.body.temporalStatus = .qualified then do
    inOrder E row.body
    refuse (row.body.outcome ≠ .inconclusive ∧ (run.errorMessage ≠ none ∨
      row.body.responseStatus ≠ some (if row.body.outcome = .businessDenied then 403 else 200))) .provenanceMismatch
  else .ok ()

/-- The approval an attempt was made under. -/
def checkApproval (row : WitnessRow) (attempt : AttemptRow) (member : Member) (run : TestRun) : Except Refusal Unit := do
  let revision ← orRaise .approvalProvenanceMissing
    (db.revisions.find? fun revision => some revision.id = run.authorizationRevisionId)
  let approved := attempt.body.approvalId.bind fun id => db.approvals.find? fun approval => approval.id = id
  refuse (revision.requireHumanExecutionApproval = true ∧ approved = none) .approvalProvenanceMissing
  refuse (attempt.body.approvalId ≠ none ∧ ¬ ∃ approval ∈ approved, approval.executionPlanId = row.planId ∧
    approval.decision = .approved ∧ approval.planDigest = member.planDigest) .approvalProvenanceMissing

/-- `witness`.  Outcome and temporal status are enumerations, so they are among their values. -/
def witness (ctx : Int) (reference : EvidenceRef) (currentDefinition : Bool) : Except Refusal (WitnessRow × IntentRow) := do
  let row ← orRaise .evidenceUnavailable
    (db.witnesses.find? fun row => row.contextId = ctx ∧ row.id = reference.id ∧ row.digest = reference.digest)
  witnessIntegrity E ctx row
  let attempt ← orRaise .evidenceUnavailable (db.attempts.find? fun attempt => attempt.id = row.attemptId)
  attemptIntegrity E ctx attempt
  let core ← orRaise .evidenceUnavailable (db.intents.find? fun core => core.id = row.intentId)
  refuse (core.contextId ≠ ctx) .evidenceUnavailable
  let member ← orRaise .provenanceMismatch (core.link.members.find? fun member => member.planId = row.planId)
  checkAttempt E db ctx row attempt core member
  let run ← checkRun E db row attempt core member currentDefinition
  checkQualified E row run
  checkApproval db row attempt member run
  return (row, core)

/-- `_current_approval`. -/
def currentApproval (core : IntentRow) (planId : Nat) : Except Refusal Unit := do
  let found := db.revisions.find? fun revision => revision.id = core.body.authorizationRevisionId
  let plan ← orRaise .planMismatch (db.plans.find? fun plan => plan.id = planId)
  -- `_latest_exact_decision`: the rows are in the order of their ids
  let decision := (db.approvals.filter fun approval => approval.executionPlanId = plan.id ∧
    approval.digestVersion = plan.digestVersion ∧ approval.planDigest = plan.planDigest).getLast?
  refuse (¬ ∃ revision ∈ found, revision.requireHumanExecutionApproval = true →
    decision.map ApprovalRecord.decision = some .approved) .approvalRequired
  refuse (planId ∈ db.cancellations) .cancelled

/-! ## The intent -/

/-- `check_mark`. -/
def checkMark (b : Boundary) : Call Int := reading fun sample => VerificationClock.checkMark E.timestamp E.domain sample b

/-- `clock()`. -/
def now : Call Int := reading fun sample => call E.timestamp E.domain sample

/-- `clock.mark()`. -/
def takeMark : Call Mark := do
  let at_ ← now E
  let s ← Tx.get
  return ⟨E.stamp at_, s.clock.last.map Prod.snd, E.domain⟩

/-- `bind_clock`. -/
def bindClock (project : Int) (key : Key) : Call Unit := do
  onClock (bindIntent project key)
  let s ← Tx.get
  Tx.refuse (s.clock.store.fenced key = true) .invalidated

/-- `current(clock).expire()`, and the error. -/
def expire : Call Unit := fun s => (.error .intentExpired, { s with clock := s.clock.expire none })

/-- The time is not in the window of the row. -/
def checkWindow (start at_ end_ : Int) : Call Unit := if start ≤ at_ ∧ at_ < end_ then pure () else expire

/-- `_exact` of an intent, which has to be the newest of its number. -/
def exactIntent (project ctx : Int) (reference : Reference) : Call IntentRow := do
  let row ← Tx.lift (orRaise .intentUnavailable (db.intents.find? fun row => row.contextId = ctx ∧
    row.number = reference.number ∧ row.version = reference.version ∧ row.digest = reference.digest))
  Tx.refuse (row.body.protocol ≠ "ra-intent/1".toList ∧ row.body.protocol ≠ "ra-health-intent/1".toList)
    .intentIntegrity
  Tx.refuse (E.intentDigest row.body ≠ row.digest) .intentIntegrity
  Tx.refuse (row.body.recordedAt ≠ E.stamp row.recordedAt ∨ row.body.version ≠ row.version ∨
    row.body.intentId ≠ row.number ∨ row.body.expiresAt ≠ E.stamp row.validUntil) .intentIntegrity
  Tx.refuse (¬ Newest db row) .intentDependencyChanged
  bindClock project row.key
  let at_ ← now E
  checkWindow row.recordedAt at_ row.validUntil
  onClock (watchWindow row.recordedAt row.validUntil)
  return row

/-- The link of an intent and the rows of its members say the same. -/
def checkMembers (row : IntentRow) : Except Refusal Unit := do
  refuse (E.linkDigest row.link ≠ row.linkDigest ∨ row.link.intentDigest ≠ row.digest) .intentIntegrity
  let members := (db.planMembers.filter fun member => member.intentId = row.id).take 3
  refuse (members.length ≠ row.body.requestCount ∨ members.length ≠ row.link.members.length) .intentIntegrity
  refuse (members.map PlanMemberRow.role ≠ if row.body.purpose = .business then [.baseline, .probe] else [.health])
    .intentIntegrity
  (members.zip row.link.members).forM fun (member, entry) =>
    refuse (member.planId ≠ entry.planId ∨ member.role ≠ entry.role ∨ member.actionId ≠ entry.actionId ∨
      member.testCaseId ≠ entry.testCaseId) .intentIntegrity

/-- The baseline of a business intent, once it is recorded. -/
def recordedBaseline (ctx : Int) (core : IntentRow) : Except Refusal (Option WitnessRow) := do
  if core.body.purpose ≠ .business then return none
  else
    let member ← orRaise .broken (core.link.members.find? fun member => member.role = .baseline)
    match db.witnesses.find? fun row => row.contextId = ctx ∧ row.planId = member.planId with
    | none => return none
    | some row => do
        let (row, original) ← witness E db ctx row.ref true
        refuse (original.id ≠ core.id) .pairMismatch
        return some row

/-- `business_boundary`. -/
def businessBoundary (ctx : Int) (core : IntentRow) : Call (List Int) := do
  match ← Tx.lift (recordedBaseline E db ctx core) with
  | none => return []
  | some row => do
      let complete ← Tx.lift (instant E row.body.complete.written)
      let end_ ← Tx.lift (later complete 30)
      let _ ← checkMark E ⟨row.body.complete, some 30, some end_⟩
      return [end_]

/-- `read` of an intent; the result is `eligibility_until`. -/
def readIntent (project ctx : Int) (reference : Reference) : Call Int := do
  Tx.lift (locked db project ctx)
  let row ← exactIntent E db project ctx reference
  let deadlines ← E.dependencies db row
  Tx.lift (checkMembers E db row)
  let ends ← businessBoundary E db ctx row
  bindClock project row.key
  onClock (watchWindow row.recordedAt row.validUntil)
  let _ ← now E  -- the time of its audit
  let until_ ← Tx.lift (instant E (E.stamp ((deadlines ++ ends).foldl min row.validUntil)))
  let at_ ← now E
  let start ← Tx.lift (instant E row.body.recordedAt)
  checkWindow start at_ until_
  return until_

/-- `current_intent`: the intent, and the end of its eligibility. -/
def currentIntent (project ctx : Int) (reference : Reference) : Call (IntentRow × Int) := do
  Tx.lift (locked db project ctx)
  bindClock project ⟨ctx, reference.number, reference.version, reference.digest⟩
  let until_ ← readIntent E db project ctx reference
  let row ← exactIntent E db project ctx reference
  let ends ← E.contract db row
  return (row, ends.foldl min until_)

/-! ## The pair -/

/-- `PairInput`. -/
structure PairInput where
  intent : Reference
  baseline : EvidenceRef
  probe : Option EvidenceRef
deriving DecidableEq

/-- `Receipt` of a pair. -/
structure Receipt where
  reference : EvidenceRef
  body : PairBody
  eligibilityUntil : Str
  auditId : Nat
deriving DecidableEq

/-- `receipt`, with its audit and its final boundary. -/
def receipt (ctx : Int) (row : PairRow) (deadline : Int) (code : Str) : Call (Receipt × Db R) := do
  Tx.refuse (4096 ≤ (db.audits.filter fun audit => audit.contextId = ctx).length) .storageLimit
  let _ ← now E
  let until_ ← Tx.lift (instant E (E.stamp deadline))
  let _ ← checkMark E ⟨row.body.clock, none, some until_⟩
  return (⟨row.ref, row.body, E.stamp deadline, db.sequence + 1⟩,
    { db with audits := db.audits ++ [⟨db.sequence + 1, ctx, code⟩], sequence := db.sequence + 1 })

/-- Both witnesses, of the plans of this intent with these roles. -/
def pairWitnesses (ctx : Int) (core : IntentRow) (p : PairInput) : Except Refusal (WitnessRow × Option WitnessRow) := do
  refuse (core.body.purpose ≠ .business) .pairMismatch
  let (baseline, bcore) ← witness E db ctx p.baseline true
  let probe ← p.probe.mapM fun reference => witness E db ctx reference true
  refuse (bcore.id ≠ core.id ∨ baseline.body.role ≠ .baseline ∨
    ∃ w ∈ probe, w.2.id ≠ core.id ∨ w.1.body.role ≠ .probe) .pairMismatch
  currentApproval db core baseline.planId
  (probe.map Prod.fst).forM fun w => currentApproval db core w.planId
  refuse (baseline.body.temporalStatus ≠ .qualified ∨
    ∃ w ∈ probe.map Prod.fst, w.body.temporalStatus ≠ .qualified) .expired
  return (baseline, probe.map Prod.fst)

/-- The checks of a probe against its baseline; the result is where the eligibility ends. -/
def checkProbe (baseline : WitnessRow) (end_ : Int) : Option WitnessRow → Call Int
  | some probe => do
      let _ ← checkMark E ⟨probe.body.clock, none, none⟩
      Tx.refuse (baseline.body.outcome ≠ .objectRead) .baselineUnqualified
      let sent ← Tx.lift (instant E probe.body.send.written)
      let complete ← Tx.lift (instant E baseline.body.complete.written)
      Tx.refuse (sent < complete) .clockAnomaly
      let sentNs ← Tx.lift (counted probe.body.send)
      let completeNs ← Tx.lift (counted baseline.body.complete)
      Tx.refuse (sentNs < completeNs) .clockAnomaly
      let until_ ← Tx.lift (instant E probe.body.eligibilityUntil)
      return min end_ until_
  | none => do
      Tx.refuse (baseline.body.outcome = .objectRead) .probeMissing
      return end_

/-- `snapshot['actions'][1]['actor']['facts']['expected_access']`. -/
def secondExpected (core : IntentRow) : Except Refusal Str :=
  orRaise .broken ((core.body.actions[1]?).map Action.expectedAccess)

/-- A new pair. -/
def insertPair (ctx : Int) (core : IntentRow) (p : PairInput) (baseline : WitnessRow) (probe : Option WitnessRow)
    (expected : Str) (end_ : Int) : Call (Receipt × Db R) := do
  Tx.refuse (1024 ≤ (db.pairs.filter fun pair => pair.contextId = ctx).length) .storageLimit
  let mark ← takeMark E
  let outcome := pairOutcome expected baseline.body.outcome (probe.map fun w => w.body.outcome)
  let body : PairBody :=
    { protocol := "ra-pair-evidence/1".toList
      version := 1
      intent := p.intent
      linkDigest := core.linkDigest
      baseline := baseline.ref
      probe := probe.map fun w => w.ref
      baselineRunId := baseline.runId
      probeRunId := probe.map WitnessRow.runId
      outcome := outcome.1
      reason := outcome.2
      expectedAccess := expected
      interpreter := core.body.interpreter
      recordedAt := mark.written
      clock := mark }
  let recordedAt ← Tx.lift (instant E mark.written)
  let row : PairRow := ⟨⟨db.sequence + 1, ctx, body, E.pairDigest body, recordedAt⟩, core.id, baseline.id,
    probe.map fun w => w.id⟩
  receipt E { db with pairs := db.pairs ++ [row], sequence := db.sequence + 1 } ctx row end_ "pair".toList

/-- `verify_pair`. -/
def verifyPair (project ctx : Int) (p : PairInput) : Call (Receipt × Db R) := do
  Tx.lift (locked db project ctx)
  let (core, until_) ← currentIntent E db project ctx p.intent
  let (baseline, probe) ← Tx.lift (pairWitnesses E db ctx core p)
  let complete ← Tx.lift (instant E baseline.body.complete.written)
  let limit ← Tx.lift (later complete 30)
  let _ ← checkMark E ⟨baseline.body.clock, none, none⟩
  let _ ← checkMark E ⟨baseline.body.complete, some 30, some (min until_ limit)⟩
  let end_ ← checkProbe E baseline (min until_ limit) probe
  let expected ← Tx.lift (secondExpected core)
  match db.pairs.find? fun pair => pair.intentId = core.id with
  | some previous => do
      Tx.lift (pairIntegrity E ctx previous)
      Tx.refuse (previous.body.baseline ≠ baseline.ref ∨ previous.body.probe ≠ probe.map fun w => w.ref) .pairConflict
      receipt E db ctx previous end_ "read".toList
  | none => insertPair E db ctx core p baseline probe expected end_

end

end ApiSecurityPlatform.Research.PairVerification
