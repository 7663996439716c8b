/-
# Research.Knowledge -- the synthetic knowledge catalog

`record`, `decide` and `retrieve` of `research_knowledge`, and `validate_rule`,
`submit_feedback`, `review_feedback` and `invalidate_pending` of `research_rule_validation`.

A version is known by its context, scope, knowledge id and number, which the unique
constraint allows; its events, validations and feedback are kept with it and known by their
numbers, and the review of a feedback with the feedback.  The keys of the table are in the
order of the row ids.

All calls hold the catalog lock, so a call is one step, and what the other domains answer
while it runs is a `World`.  A stored content is what the schema reads of the JSON, `none`
where it refuses.
-/
import ApiSecurityPlatform.Theory.Fallible
import ApiSecurityPlatform.Theory.Table
import ApiSecurityPlatform.Theory.Transaction
import ApiSecurityPlatform.Theory.Transition
import ApiSecurityPlatform.Theory.Walk
import ApiSecurityPlatform.Python.Text
import Mathlib.Algebra.GroupWithZero.Nat
import Mathlib.Data.List.Sort

namespace ApiSecurityPlatform.Research.Knowledge

open ApiSecurityPlatform.Python ApiSecurityPlatform.Theory

set_option autoImplicit false

/-! ## Limits and codes -/

/-- Microseconds. -/
abbrev Time := Int

def maxScan : Nat := 256
def maxVersions : Nat := 128
def maxEvents : Nat := 16
def maxAudit : Nat := 4096
def maxValidations : Nat := 128
def maxFeedback : Nat := 128
/-- One day. -/
def maxValidity : Time := 86400000000

/-- The codes of `KnowledgeError`; the last three are codes of `ObservationError`. -/
inductive Fault where
  | unavailable
  | invalid
  | auditCapacity
  | storageLimit
  | failed
  | publicationClosed
  | decisionConflict
  | validationUnavailable
  | scanLimit
  | examplesUnavailable
  | validationLimit
  | validationStorageLimit
  | responseLimit
  | observationContextUnavailable
  | observationCapacityExceeded
  | observationRefused
deriving DecidableEq, Repr

/-- `except ObservationError: raise KnowledgeError()`. -/
def Fault.shown : Fault → Fault
  | .observationContextUnavailable => .unavailable
  | .observationCapacityExceeded => .unavailable
  | .observationRefused => .unavailable
  | fault => fault

def require {α : Type} (fault : Fault) (found : Option α) : Except Fault α := found.elim (.error fault) .ok

/-! ## Contents -/

inductive Scope where
  | project
  | reusableSynthetic
deriving DecidableEq, Repr

structure ExactRef where
  scope : Scope
  knowledgeId : Str
  version : Nat
  digest : Str
deriving DecidableEq

/-- `SyntheticReference`. -/
structure SyntheticReference where
  fixtureId : Nat
  version : Nat
deriving DecidableEq

/-- `Source`: the fields of the other kind are absent. -/
inductive Source where
  | syntheticAuthored (reference : SyntheticReference)
  | observation (observationId : Int) (sourceEntryIndex : Nat) (payloadDigest : Str)
deriving DecidableEq

def Source.isObservation : Source → Bool
  | .syntheticAuthored _ => false
  | .observation _ _ _ => true

inductive Shape where
  | generalMechanism
  | singleResourcePathGetJsonObject
deriving DecidableEq, Repr

inductive Actor where
  | anonymous
  | bearer
deriving DecidableEq, Repr

inductive Category where
  | mechanism
  | rule
  | projectEvidence
  | counterexample
  | externalTriage
deriving DecidableEq, Repr

inductive Tag where
  | access
  | ownership
  | sharing
  | uncertainty
  | session
  | synthetic
  | bola
  | scope
deriving DecidableEq, Repr

inductive Claim where
  | ownership
  | sharing
  | missingFacts
  | sessionClaims
deriving DecidableEq, Repr

def Claim.text : Claim → Str
  | .ownership => "Ownership does not imply access.".toList
  | .sharing => "Sharing may allow non-owner access.".toList
  | .missingFacts => "Missing facts require input.".toList
  | .sessionClaims => "Session claims are not health proof.".toList

/-- The pattern of `Key`. -/
def isKey (s : Str) : Bool :=
  s.take 10 = "knowledge-".toList &&
    match s.drop 10 with
    | [] => false
    | first :: rest => isDigit first && first ≠ '0' && rest.all isDigit && rest.length ≤ 5

/-- The fields of `Content`; those with one value only are left out. -/
structure Card where
  scope : Scope
  knowledgeId : Str
  version : Nat
  category : Category
  claim : Claim
  tags : List Tag
  shape : Shape
  actors : List Actor
  requiresFacts : Bool
  sourceRefs : List Source
  exampleRefs : List SyntheticReference
  counterexampleRefs : List SyntheticReference
  supersedes : Option ExactRef
deriving DecidableEq

/-- The bounds of the fields. -/
def Card.bounded (c : Card) : Bool :=
  isKey c.knowledgeId && 1 ≤ c.version && c.version ≤ 10000 && c.tags ≠ [] && c.tags.length ≤ 8 &&
    c.actors ≠ [] && c.actors.length ≤ 2 && c.sourceRefs ≠ [] && c.sourceRefs.length ≤ 16 &&
    c.exampleRefs.length ≤ 16 && c.counterexampleRefs.length ≤ 16

/-- `Content.eligible`. -/
def Card.eligible (c : Card) : Bool :=
  !(c.category = .projectEvidence || c.category = .externalTriage || c.category = .counterexample) &&
    (c.tags.Nodup && c.actors.Nodup && c.sourceRefs.Nodup && c.exampleRefs.Nodup && c.counterexampleRefs.Nodup) &&
    !(c.category = .rule && (c.exampleRefs = [] || c.counterexampleRefs = [] ||
      c.shape ≠ .singleResourcePathGetJsonObject || !c.requiresFacts)) &&
    !(c.category = .mechanism && (c.shape ≠ .generalMechanism || c.requiresFacts)) &&
    !(c.scope = .reusableSynthetic && c.sourceRefs.any Source.isObservation) &&
    (c.version = 1) == (c.supersedes = none) &&
    c.supersedes.all fun s => s.scope = c.scope && s.knowledgeId = c.knowledgeId && s.version + 1 = c.version

/-- A content the schema accepts. -/
structure Content extends Card where
  bounds : toCard.bounded = true
  coherent : toCard.eligible = true
deriving DecidableEq

/-! ## Tables -/

structure Key where
  contextId : Int
  scope : Scope
  knowledgeId : Str
  version : Nat
deriving DecidableEq

/-- The version of a context that a reference names, its digest apart. -/
def ExactRef.key (reference : ExactRef) (contextId : Int) : Key :=
  ⟨contextId, reference.scope, reference.knowledgeId, reference.version⟩

inductive Action where
  | review
  | reuse
  | withdraw
  | disable
  | publish
deriving DecidableEq, Repr

inductive EventActor where
  | localOperator
  | syntheticTestReviewer
deriving DecidableEq, Repr

inductive EventEvidence where
  | operatorRecorded
  | syntheticTestOnly
deriving DecidableEq, Repr

structure ValidationRef where
  validation : Nat
  digest : Str
deriving DecidableEq

/-- The validation an event names. -/
inductive ValidationMark where
  | exact (reference : ValidationRef)
  | notRun
  | syntheticTestOnly
deriving DecidableEq

structure EventBody where
  digest : Str
  actor : EventActor
  evidence : EventEvidence
  review : SyntheticReference
  contextVersion : Nat
  validFrom : Option Time
  validUntil : Option Time
  reviewEvent : Option Nat
  reuseEvent : Option Nat
  validationRef : ValidationMark
deriving DecidableEq

structure Event where
  sequence : Nat
  action : Action
  body : EventBody
  recordedAt : Time
deriving DecidableEq

/-- The report of `run_checks`. -/
structure Report where
  passed : Bool
  checks : Str
deriving DecidableEq

structure EvidenceBody where
  reference : ExactRef
  recordedAt : Time
  validUntil : Time
  report : Report
deriving DecidableEq

structure Validation where
  number : Nat
  body : EvidenceBody
  digest : Str
  recordedAt : Time
  validUntil : Time
deriving DecidableEq

inductive ProposalKind where
  | promotion
  | correction
  | disable
deriving DecidableEq, Repr

inductive Reason where
  | validationPassed
  | incorrectResult
  | noMatch
  | contamination
  | qualificationMissing
deriving DecidableEq, Repr

structure FeedbackInput where
  reference : ExactRef
  validationRef : ValidationRef
  proposal : ProposalKind
  reason : Reason
  correction : Option ExactRef
  review : SyntheticReference
deriving DecidableEq

/-- `FeedbackInput.coherent`. -/
def FeedbackInput.valid (p : FeedbackInput) : Bool :=
  (p.proposal = .correction) == p.correction.isSome && (p.proposal = .promotion) == (p.reason = .validationPassed) &&
    !(p.reason = .contamination && p.proposal ≠ .disable)

inductive Verdict where
  | accept
  | reject
  | invalidate
deriving DecidableEq, Repr

structure Review where
  decision : Verdict
  recordedAt : Time
deriving DecidableEq

structure Feedback where
  number : Nat
  validation : Nat
  body : FeedbackInput
  recordedAt : Time
  review : Option Review
deriving DecidableEq

structure Version where
  contextVersion : Nat
  targetId : Int
  content : Option Content
  digest : Str
  recordedAt : Time
  events : List Event
  validations : List Validation
  feedback : List Feedback

/-- The versions, and how many audit rows each context has. -/
structure Store where
  versions : Table Key Version
  audits : Int → Nat

/-- A row of `research_knowledge_versions`. -/
structure Row where
  key : Key
  version : Version

/-- `_ref`. -/
def Row.ref (row : Row) : ExactRef := ⟨row.key.scope, row.key.knowledgeId, row.key.version, row.version.digest⟩

/-- `s.validate(s.Content, row.content)`. -/
def Row.read (row : Row) : Except Fault Content := require .invalid row.version.content

def Store.rows (db : Store) (p : Key → Bool) : List Row :=
  (db.versions.keys.filter p).filterMap fun k => (db.versions.row k).map (Row.mk k)

def Store.modify (db : Store) (k : Key) (f : Version → Version) : Store :=
  { db with versions := db.versions.modify k f }

/-! ## What the other domains answer -/

/-- The places of a call where something is read. -/
inductive Moment where
  | entry
  | again
  | correction
  | evidence
  | decided
  | reviewed
  | published
  | invalidated (key : Key) (feedback : Nat)
  | scanned (key : Key)
  | chosen (key : Key)
  | consumed
  | answered
  | audited
  | finished
deriving DecidableEq

/-- What `retrieve` has of the subject and the intake. -/
structure Subject where
  targetId : Int
  identityChoice : Option Actor
  gaps : List Str
  deadlines : List Time
  sourceDeadlines : List Time

/-- What a call reads of the other domains; `none` and `false` are exceptions. -/
structure World where
  /-- `_locked`. -/
  locked : Bool
  /-- `_time(now)`. -/
  time : Moment → Option Time
  /-- `observation._eligible_context`. -/
  eligibleContext : Moment → Nat → Bool
  /-- `observation._target`. -/
  target : Moment → Int → Bool
  /-- `_sources`. -/
  sources : Moment → Content → Int → Except Fault (List Time)
  /-- The version of a subject that is available and its latest, with all gaps. -/
  subject : Nat → Nat → Option Subject
  /-- The subject is read again with the same facts and gaps. -/
  steady : Bool
  /-- The result is encoded within `MAX_RESPONSE`. -/
  encoded : Bool
  /-- The lifecycle guard of a call inside a call. -/
  borrowed : Bool
  /-- The deadline of the lifecycle guard, after the call. -/
  guarded : Bool

/-- The canonical digests, and the offline checks of a rule. -/
structure Codec where
  digest : Content → Str
  size : Content → Nat
  evidenceDigest : EvidenceBody → Str
  evidenceSize : EvidenceBody → Nat
  runChecks : Content → Except Fault Report

def maxContent : Nat := 16384
def maxEvidence : Nat := 32768

/-! ## Reads -/

section Reads

variable (C : Codec)

/-- `_exact` with `owned=True`. -/
def exactOwned (db : Store) (contextId : Int) (reference : ExactRef) : Except Fault Row := do
  let version ← require .unavailable (db.versions.row (reference.key contextId))
  refuse (version.digest ≠ reference.digest) .unavailable
  return ⟨reference.key contextId, version⟩

/-- `_exact`: a shared version may belong to another context. -/
def exact_ (db : Store) (contextId : Int) (reference : ExactRef) : Except Fault Row :=
  match reference.scope with
  | .project => exactOwned db contextId reference
  | .reusableSynthetic => require .unavailable ((db.rows (·.scope = .reusableSynthetic)).find? (·.ref = reference))

/-- The versions a context sees. -/
def visible (contextId : Int) (k : Key) : Bool := k.contextId = contextId || k.scope = .reusableSynthetic

/-- The bounded read of the catalog. -/
def scan (db : Store) (contextId : Int) : Except Fault (List Row) := do
  let rows := (db.rows (visible contextId)).take (maxScan + 1)
  refuse (maxScan < rows.length) .scanLimit
  return rows

/-- The versions with a disable event. -/
def disabledKeys (rows : List Row) : List Key :=
  (rows.flatMap fun row => (row.version.events.filter (·.action = .disable)).map fun _ => row.key).take
    (maxScan * maxEvents + 1)

abbrev Catalog := ExactRef → Option Row

/-- The dictionary of the rows; a later row takes the place of one with the same reference. -/
def catalogOf (rows : List Row) : Catalog := fun reference => rows.reverse.find? (·.ref = reference)

/-- What the catalog has at a reference. -/
def stored (catalog : Catalog) (reference : ExactRef) : Except Fault (Option Content) :=
  match catalog reference with
  | none => .ok none
  | some row => row.read.map some

/-- One turn of the loop of `_lineage_eligible`, after the key is known to be new. -/
def ancestor (catalog : Catalog) (disabled : List Key) (reference : ExactRef) : Except Fault (Option Content) :=
  match catalog reference with
  | none => .ok none
  | some row =>
      if row.key ∈ disabled then .ok none
      else do
        let current ← row.read
        return if C.digest current ≠ row.version.digest then none else some current

/-- `_lineage_eligible`. -/
def lineageEligible (content : Content) (catalog : Catalog) (disabled : List Key) : Except Fault Bool :=
  walk (fun current : Content => current.supersedes) (ancestor C catalog disabled) maxVersions [] content

/-- `_content`. -/
def ruleContent (row : Row) : Except Fault Content := do
  let content ← row.read
  refuse (C.digest content ≠ row.version.digest ∨ content.category ≠ .rule ∨
    (content.scope, content.knowledgeId, content.version) ≠ (row.key.scope, row.key.knowledgeId, row.key.version))
    .unavailable
  return content

/-- `_live`. -/
def live (W : World) (moment : Moment) (db : Store) (contextId : Int) (row : Row) : Except Fault (List Time) := do
  refuse (¬ W.eligibleContext moment row.version.contextVersion) .unavailable
  refuse (¬ W.target moment row.version.targetId) .unavailable
  let content ← ruleContent C row
  let rows ← scan db contextId
  refuse (row.key ∈ disabledKeys rows ∨ row.version.events.any (·.action = .withdraw)) .unavailable
  let eligible ← lineageEligible C content (catalogOf rows) (disabledKeys rows)
  refuse (¬ eligible) .unavailable
  (W.sources moment content row.version.targetId).mapError Fault.shown

/-- `qualified`. -/
def qualified (row : Row) (mark : ValidationMark) (now : Time) (passed : Bool) : Except Fault Validation :=
  match mark with
  | .exact reference => do
      let evidence ← require .validationUnavailable (row.version.validations.find? (·.number = reference.validation))
      refuse (¬ (evidence.recordedAt ≤ now ∧ now < evidence.validUntil)) .validationUnavailable
      let content ← ruleContent C row
      let report ← C.runChecks content
      refuse (evidence.digest ≠ reference.digest ∨ C.evidenceDigest evidence.body ≠ reference.digest ∨
        evidence.body ≠ ⟨row.ref, evidence.recordedAt, evidence.validUntil, report⟩ ∨
        (passed ∧ ¬ evidence.body.report.passed)) .validationUnavailable
      return evidence
  | .notRun => .error .validationUnavailable
  | .syntheticTestOnly => .error .validationUnavailable

/-- `_window`. -/
def EventBody.window (body : EventBody) (now : Time) : Bool :=
  body.validFrom.any (· ≤ now) && body.validUntil.any (now < ·)

structure Publication where
  event : Event
  deadline : Time
  reviewActor : EventActor

/-- The events of a version in their order, at most one more than the limit. -/
def readEvents (version : Version) : List Event :=
  (version.events.insertionSort fun a b => a.sequence ≤ b.sequence).take (maxEvents + 1)

/-- The chain of times in `_publication`. -/
def inOrder (row : Row) (now : Time) : Time → List Event → Bool
  | _, [] => true
  | previous, event :: rest =>
      event.body.digest = row.version.digest && event.body.contextVersion = row.version.contextVersion &&
        previous ≤ event.recordedAt && event.recordedAt ≤ now && inOrder row now event.recordedAt rest

/-- The earlier event a publication relies on, of the given kind. -/
def supporting (events : List Event) (published : Event) (synthetic : Bool) (now : Time) (action : Action)
    (reference : Option Nat) : Option Event := do
  let number ← reference
  let event ← events.find? (·.sequence = number)
  guard (event.action = action ∧ event.sequence < published.sequence ∧ event.body.window now)
  guard (synthetic ∨ (event.body.evidence = .operatorRecorded ∧ event.body.actor = .localOperator ∧
    (action = .review → event.body.validationRef = published.body.validationRef)))
  return event

/-- `_publication`. -/
def publication (row : Row) (now : Time) : Option Publication := do
  let events := readEvents row.version
  guard (events ≠ [] ∧ events.length ≤ maxEvents ∧ events.map Event.sequence = List.range' 1 events.length)
  guard (inOrder row now row.version.recordedAt events)
  guard (¬ events.any fun e => e.action = .withdraw ∨ e.action = .disable)
  let published ← events.getLast?
  guard (published.action = .publish ∧ published.body.window now)
  let validUntil ← published.body.validUntil
  let synthetic := published.body.evidence = .syntheticTestOnly ∧ published.body.validationRef = .syntheticTestOnly
  let proven ←
    if synthetic then some []
    else do
      guard (published.body.evidence = .operatorRecorded ∧ published.body.actor = .localOperator)
      let evidence ← (qualified C row published.body.validationRef now true).toOption
      pure [evidence.validUntil]
  let review ← supporting events published synthetic now .review published.body.reviewEvent
  let reviewUntil ← review.body.validUntil
  let reused ←
    if row.key.scope = .project ∧ published.body.reuseEvent = none then some []
    else do
      let reuse ← supporting events published synthetic now .reuse published.body.reuseEvent
      let reuseUntil ← reuse.body.validUntil
      pure [reuseUntil]
  return ⟨published, (proven ++ reviewUntil :: reused).foldl min validUntil, review.body.actor⟩

end Reads

/-! ## Writes -/

abbrev Op := Tx Fault Store

section Writes

variable (C : Codec) (W : World)

def time (moment : Moment) : Except Fault Time := require .invalid (W.time moment)

/-- `_audit`. -/
def audit (contextId : Int) : Op Unit := do
  let db ← Tx.get
  Tx.refuse (maxAudit ≤ db.audits contextId) .auditCapacity
  Tx.modify fun db => { db with audits := Function.update db.audits contextId (db.audits contextId + 1) }

/-- The last check of `_finish`. -/
def inTime (deadlines : List Time) (moment : Moment) : Except Fault Unit :=
  if deadlines = [] then .ok ()
  else do
    let now ← time W moment
    refuse (deadlines.any (· ≤ now)) .unavailable

/-- `_finish`. -/
def finish (deadlines : List Time) : Except Fault Unit := do
  refuse (¬ W.encoded) .responseLimit
  inTime W deadlines .finished

/-- `_capacity`, for the number of rows a version has. -/
def capacity (db : Store) (contextId : Int) (count : Version → Nat) (limit : Nat) : Except Fault Unit :=
  refuse (limit ≤ ((db.rows (·.contextId = contextId)).map fun row => count row.version).sum) .validationStorageLimit

structure RecordInput where
  contextVersion : Nat
  targetId : Int
  content : Content
  review : SyntheticReference

/-- The version a new one supersedes has the same target, and no source is dropped. -/
def checkSuperseded (db : Store) (contextId : Int) (p : RecordInput) : Except Fault Unit :=
  match p.content.supersedes with
  | none => .ok ()
  | some reference => do
      let old ← exactOwned db contextId reference
      let before ← old.read
      refuse (old.version.targetId ≠ p.targetId ∨ before.sourceRefs.any (· ∉ p.content.sourceRefs)) .unavailable

def Content.key (content : Content) (contextId : Int) : Key :=
  ⟨contextId, content.scope, content.knowledgeId, content.version⟩

/-- One of the two unique indexes has the key. -/
def taken (db : Store) (key : Key) : Bool :=
  (db.versions.row key).isSome || (key.scope = .reusableSynthetic && db.versions.keys.any fun k =>
    k.scope = .reusableSynthetic && k.knowledgeId = key.knowledgeId && k.version = key.version)

/-- The savepoint of `record`. -/
def recordBody (contextId : Int) (p : RecordInput) : Op ExactRef := do
  Tx.refuse (¬ W.eligibleContext .entry p.contextVersion) .unavailable
  Tx.refuse (¬ W.target .entry p.targetId) .unavailable
  let db ← Tx.get
  Tx.lift (checkSuperseded db contextId p)
  let _ ← Tx.lift ((W.sources .entry p.content p.targetId).mapError Fault.shown)
  Tx.refuse (maxVersions ≤ (db.rows (·.contextId = contextId)).length) .storageLimit
  Tx.refuse (p.content.scope = .reusableSynthetic ∧ maxVersions ≤ (db.rows (·.scope = .reusableSynthetic)).length)
    .storageLimit
  let now ← Tx.lift (time W .decided)
  let key := p.content.key contextId
  Tx.refuse (taken db key) .unavailable
  let version : Version := ⟨p.contextVersion, p.targetId, some p.content, C.digest p.content, now, [], [], []⟩
  Tx.modify fun db => { db with versions := db.versions.put key version }
  audit contextId
  return (Row.mk key version).ref

structure DecisionInput where
  reference : ExactRef
  expectedSequence : Nat
  action : Action
  review : SyntheticReference
  validFrom : Option Time
  validUntil : Option Time
  validationRef : Option ValidationRef
  reviewEvent : Option Nat
  reuseEvent : Option Nat

/-- The actions that need a current context. -/
def Action.opens (action : Action) : Bool := action = .review || action = .reuse || action = .publish

/-- `DecisionInput.window`, and the bound of the expected sequence. -/
def DecisionInput.valid (p : DecisionInput) : Bool :=
  p.expectedSequence ≤ 16 &&
    if p.action.opens then p.validFrom.any fun first => p.validUntil.any fun last => first < last
    else p.validFrom = none && p.validUntil = none

/-- The validation a decision rests on. -/
def decideProof (db : Store) (contextId : Int) (row : Row) (p : DecisionInput) : Except Fault (List Time) :=
  match p.validationRef with
  | none => .ok []
  | some reference => do
      refuse (¬ p.action.opens) .invalid
      let deadlines ← live C W .entry db contextId row
      let now ← time W .evidence
      let evidence ← qualified C row (.exact reference) now true
      return deadlines ++ [evidence.validUntil]

/-- The context and the sources of a decision that opens something; two events are kept back. -/
def decideSources (row : Row) (events : List Event) (p : DecisionInput) : Except Fault (List Time) :=
  if p.action.opens then do
    refuse (maxEvents - 2 ≤ events.length ∨ events.any (·.action = .withdraw)) .decisionConflict
    refuse (¬ W.eligibleContext .again row.version.contextVersion) .unavailable
    refuse (¬ W.target .again row.version.targetId) .unavailable
    let content ← row.read
    (W.sources .again content row.version.targetId).mapError Fault.shown
  else .ok []

def newEvent (row : Row) (events : List Event) (p : DecisionInput) (now : Time) : Event :=
  { sequence := events.length + 1
    action := p.action
    body :=
      { digest := row.version.digest
        actor := .localOperator
        evidence := .operatorRecorded
        review := p.review
        contextVersion := row.version.contextVersion
        validFrom := p.validFrom
        validUntil := p.validUntil
        reviewEvent := p.reviewEvent
        reuseEvent := p.reuseEvent
        validationRef := p.validationRef.elim .notRun .exact }
    recordedAt := now }

/-- A publication must hold at once. -/
def decidePublished (key : Key) (action : Action) : Op (List Time) :=
  if action = .publish then do
    let now ← Tx.lift (time W .published)
    let db ← Tx.get
    let version ← Tx.lift (require .unavailable (db.versions.row key))
    let held ← Tx.lift (require .validationUnavailable (publication C ⟨key, version⟩ now))
    return [held.deadline]
  else pure []

/-- A row that is disabled or has no eligible lineage. -/
def isAffected (rows : List Row) (row : Row) : Except Fault Bool :=
  if row.key ∈ disabledKeys rows then .ok true
  else do
    let content ← row.read
    let eligible ← lineageEligible C content (catalogOf rows) (disabledKeys rows)
    return !eligible

def affectedRows (rows : List Row) : List Row → Except Fault (List Row)
  | [] => .ok []
  | row :: rest => do
      let hit ← isAffected C rows row
      let others ← affectedRows rows rest
      return if hit then row :: others else others

/-- `affected`: all rows where one cannot be read. -/
def affected (rows : List Row) : List Row :=
  match affectedRows C rows rows with
  | .ok some_ => some_
  | .error _ => rows

/-- A pending feedback whose subject or correction is affected. -/
def Feedback.hit (feedback : Feedback) (key : Key) (affected : List Row) : Bool :=
  feedback.review.isNone && (key ∈ affected.map Row.key ||
    feedback.body.correction.any fun correction => correction ∈ affected.map Row.ref)

/-- The pending feedback of a context, at most one more than the limit. -/
def pendingFeedback (db : Store) (contextId : Int) : List (Key × Feedback) :=
  ((db.rows (·.contextId = contextId)).flatMap fun row =>
    (row.version.feedback.filter (·.review.isNone)).map (Prod.mk row.key)).take (maxFeedback + 1)

/-- The rows the loop of `invalidate_pending` adds. -/
def Store.invalidate (db : Store) (contextId : Int) (affected : List Row) : Store :=
  { db with
    versions := db.versions.map fun k version =>
      if k.contextId = contextId then
        { version with
          feedback := version.feedback.map fun feedback =>
            if feedback.hit k affected then
              { feedback with
                review := some ⟨.invalidate, (W.time (.invalidated k feedback.number)).getD 0⟩ }
            else feedback }
      else version }

/-- `invalidate_pending`. -/
def invalidatePending (contextId : Int) : Op Unit := do
  let db ← Tx.get
  let rows ← Tx.lift (scan db contextId)
  let pending := pendingFeedback db contextId
  Tx.refuse (maxFeedback < pending.length) .validationStorageLimit
  Tx.refuse (pending.any fun item => item.2.hit item.1 (affected C rows) ∧
    W.time (.invalidated item.1 item.2.number) = none) .invalid
  Tx.modify fun db => db.invalidate W contextId (affected C rows)

/-- What `decide` answers. -/
structure Decided where
  reference : ExactRef
  sequence : Nat
  action : Action
  validationQualified : Bool

/-- The savepoint of `decide`. -/
def decideBody (contextId : Int) (p : DecisionInput) : Op Decided := do
  let db ← Tx.get
  let row ← Tx.lift (exactOwned db contextId p.reference)
  Tx.refuse (p.action = .publish ∧ p.validationRef = none) .publicationClosed
  let events := readEvents row.version
  Tx.refuse (events.length ≠ p.expectedSequence ∨ maxEvents ≤ events.length) .decisionConflict
  Tx.refuse (events.any (·.action = .disable)) .decisionConflict
  Tx.refuse (p.action ≠ .publish ∧ (p.reviewEvent.isSome ∨ p.reuseEvent.isSome)) .invalid
  let proven ← Tx.lift (decideProof C W db contextId row p)
  let sources ← Tx.lift (decideSources W row events p)
  let now ← Tx.lift (time W .decided)
  let event := newEvent row events p now
  Tx.modify fun db => db.modify row.key fun version => { version with events := version.events ++ [event] }
  let published ← decidePublished C W row.key p.action
  Tx.when (p.action = .disable) (invalidatePending C W contextId)
  audit contextId
  Tx.when p.validationRef.isSome (Tx.lift (finish W (proven ++ sources ++ published)))
  return ⟨row.ref, event.sequence, event.action, p.validationRef.isSome⟩

structure ValidateInput where
  reference : ExactRef
  validUntil : Time

/-- What `validate_rule` answers. -/
structure Validated where
  validationRef : ValidationRef
  evidence : EvidenceBody

/-- The savepoint of `validate_rule`. -/
def validateBody (contextId : Int) (p : ValidateInput) : Op Validated := do
  let db ← Tx.get
  let row ← Tx.lift (exactOwned db contextId p.reference)
  let first ← Tx.lift (live C W .entry db contextId row)
  let now ← Tx.lift (time W .decided)
  Tx.refuse (¬ (now < p.validUntil ∧ p.validUntil ≤ now + maxValidity)) .invalid
  Tx.lift (capacity db contextId (·.validations.length) maxValidations)
  let content ← Tx.lift (ruleContent C row)
  let report ← Tx.lift (C.runChecks content)
  let second ← Tx.lift (live C W .again db contextId row)
  let validUntil := (first ++ second).foldl min p.validUntil
  let body : EvidenceBody := ⟨row.ref, now, validUntil, report⟩
  Tx.refuse (maxEvidence < C.evidenceSize body) .validationLimit
  -- the check constraint of the window
  Tx.refuse (validUntil ≤ now) .failed
  let evidence : Validation := ⟨row.version.validations.length + 1, body, C.evidenceDigest body, now, validUntil⟩
  Tx.modify fun db => db.modify row.key fun version => { version with validations := version.validations ++ [evidence] }
  audit contextId
  Tx.lift (finish W (first ++ p.validUntil :: second))
  return ⟨⟨evidence.number, evidence.digest⟩, body⟩

/-- The subject, the evidence and the correction of a proposal are current; `submit_feedback`
also asks that the correction supersedes the subject. -/
def checkProposal (submitted : Bool) (db : Store) (contextId : Int) (row : Row) (p : FeedbackInput) :
    Except Fault (List Time) := do
  let subject ← live C W .entry db contextId row
  let now ← time W .evidence
  let evidence ← qualified C row (.exact p.validationRef) now (p.proposal = .promotion)
  match p.correction with
  | none => return subject ++ [evidence.validUntil]
  | some reference => do
      let correction ← exactOwned db contextId reference
      refuse (submitted ∧ correction.version.content.bind (fun content => content.supersedes) ≠ some row.ref) .unavailable
      let further ← live C W .correction db contextId correction
      return subject ++ evidence.validUntil :: further

/-- The savepoint of `submit_feedback`. -/
def submitBody (contextId : Int) (p : FeedbackInput) : Op Nat := do
  let db ← Tx.get
  let row ← Tx.lift (exactOwned db contextId p.reference)
  let deadlines ← Tx.lift (checkProposal C W true db contextId row p)
  Tx.lift (capacity db contextId (·.feedback.length) maxFeedback)
  let now ← Tx.lift (time W .decided)
  let feedback : Feedback := ⟨row.version.feedback.length + 1, p.validationRef.validation, p, now, none⟩
  Tx.modify fun db => db.modify row.key fun version => { version with feedback := version.feedback ++ [feedback] }
  audit contextId
  Tx.lift (finish W deadlines)
  return feedback.number

structure FeedbackReviewInput where
  reference : ExactRef
  feedback : Nat
  /-- `accept`, or else `reject`. -/
  accept : Bool
  review : SyntheticReference

/-- `_feedback`. -/
def readFeedback (row : Row) (number : Nat) : Except Fault Feedback := do
  let feedback ← require .unavailable (row.version.feedback.find? (·.number = number))
  refuse (feedback.body.reference ≠ row.ref ∨ feedback.body.validationRef.validation ≠ feedback.validation) .unavailable
  return feedback

/-- The review of one feedback is added. -/
def Version.addReview (version : Version) (number : Nat) (review : Review) : Version :=
  { version with
    feedback := version.feedback.map fun feedback =>
      if feedback.number = number then { feedback with review := some review } else feedback }

/-- The decision an accepted disable proposal makes. -/
def disableDecision (row : Row) (review : SyntheticReference) : DecisionInput :=
  ⟨row.ref, row.version.events.length, .disable, review, none, none, none, none, none⟩

/-- `decide`, called inside `review_feedback`. -/
def acceptDisable (contextId : Int) (row : Row) (review : SyntheticReference) : Op Unit := do
  Tx.refuse (¬ W.borrowed) .unavailable
  Tx.refuse (¬ (disableDecision row review).valid) .invalid
  let _ ← Tx.savepoint (decideBody C W contextId (disableDecision row review))
  return ()

/-- The savepoint of `review_feedback`. -/
def reviewBody (contextId : Int) (p : FeedbackReviewInput) : Op Verdict := do
  let db ← Tx.get
  let row ← Tx.lift (exactOwned db contextId p.reference)
  let feedback ← Tx.lift (readFeedback row p.feedback)
  Tx.refuse feedback.review.isSome .decisionConflict
  let deadlines ← Tx.lift (checkProposal C W false db contextId row feedback.body)
  let now ← Tx.lift (time W .reviewed)
  let decision : Verdict := if p.accept then .accept else .reject
  Tx.modify fun db => db.modify row.key (·.addReview feedback.number ⟨decision, now⟩)
  Tx.when (p.accept ∧ feedback.body.proposal = .disable) (acceptDisable C W contextId row p.review)
  audit contextId
  Tx.lift (finish W deadlines)
  return decision

end Writes

/-! ## Retrieval -/

structure QueryInput where
  contextVersion : Nat
  subjectNumber : Nat
  subjectVersion : Nat
  keywords : List Str
  tags : List Tag
  topK : Nat
  selected : List ExactRef

/-- `QueryInput.coherent`, and the bounds of the fields. -/
def QueryInput.valid (q : QueryInput) : Bool :=
  (q.keywords ≠ [] || q.tags ≠ []) && q.keywords.Nodup && q.tags.Nodup && q.keywords.length ≤ 8 && q.tags.length ≤ 8 &&
    q.keywords.all (fun word => word ≠ [] && word.length ≤ 32 && word.all fun c => 'a' ≤ c && c ≤ 'z') &&
    1 ≤ q.topK && q.topK ≤ 8 && q.selected.length ≤ 32

inductive Applicability where
  | generalExplanation
  | contextFactsPresent
deriving DecidableEq, Repr

structure Match where
  reference : ExactRef
  content : Content
  score : Nat
  published : Event
  reviewActor : EventActor
  applicability : Applicability

inductive Status where
  | matchedSynthetic
  | noMatch
  | needsInput
  | unsupported
  | sourceUnavailable
deriving DecidableEq, Repr

structure QueryRead where
  status : Status
  /-- Not sorted. -/
  missingInputs : List Str
  found : List Match
  eligibilityUntil : Option Time

/-- The gaps a rule does not apply under. -/
def blockedGaps : List Str :=
  ["facts_missing", "facts_conflict", "proposal_fact_conflict", "identity_missing", "resource_missing", "slot_missing",
    "slot_unavailable", "object_shape_missing", "preview_only_shape", "assertion_not_current_verified",
    "permission_missing"].map String.toList

/-- `_applicable`. -/
def applicable (content : Content) (subject : Subject) : Option Applicability :=
  if ¬ subject.identityChoice.any (· ∈ content.actors) then none
  else if content.category = .mechanism then some .generalExplanation
  else if content.category ≠ .rule then none
  else if subject.gaps.any fun gap =>
      gap ∈ blockedGaps ∨ gap.take 8 = "session_".toList ∨ gap = "credential_changed".toList then none
  else some .contextFactsPresent

/-- `re.findall('[a-z]+', claim.lower())`. -/
def Claim.words (claim : Claim) : List Str :=
  ((claim.text.map Char.toLower).splitOnP fun c => ¬ ('a' ≤ c ∧ c ≤ 'z')).filter (· ≠ [])

/-- `_rank`. -/
def rank (content : Content) (q : QueryInput) : Nat :=
  (q.keywords.filter (· ∈ content.claim.words)).length + 2 * (content.tags.filter (· ∈ q.tags)).length

def Scope.rank : Scope → Nat
  | .project => 0
  | .reusableSynthetic => 1

/-- The sort key of the matches. -/
def Match.compare (a b : Match) : Ordering :=
  (Ord.compare b.score a.score).then <| (Ord.compare a.reference.scope.rank b.reference.scope.rank).then <|
    (Ord.compare a.reference.knowledgeId b.reference.knowledgeId).then <|
    (Ord.compare a.reference.version b.reference.version).then (Ord.compare a.reference.digest b.reference.digest)

section Retrieval

variable (C : Codec) (W : World)

/-- The part of the loop of `retrieve` for one row; the state counts the source reads. -/
def considerRow (q : QueryInput) (subject : Subject) (catalog : Catalog) (disabled : List Key) (row : Row) :
    Tx Fault Nat (Option Match) := do
  let content ← Tx.lift row.read
  if C.digest content ≠ row.version.digest ∨
      (content.scope, content.knowledgeId, content.version) ≠ (row.key.scope, row.key.knowledgeId, row.key.version) then
    pure none
  else do
    let eligible ← Tx.lift (lineageEligible C content catalog disabled)
    if ¬ eligible then pure none
    else if row.key.scope = .project ∧ (row.version.contextVersion ≠ q.contextVersion ∨
        row.version.targetId ≠ subject.targetId) then pure none
    else do
      let now ← Tx.lift (time W (.scanned row.key))
      match publication C row now with
      | none => pure none
      | some held => do
          Tx.modify (· + (content.sourceRefs.filter Source.isObservation).length)
          let reads ← Tx.get
          Tx.refuse (64 < reads) .scanLimit
          let _ ← Tx.lift (W.sources (.scanned row.key) content subject.targetId)
          return match applicable content subject with
            | none => none
            | some applicability =>
                if rank content q = 0 then none
                else some ⟨row.ref, content, rank content q, held.event, held.reviewActor, applicability⟩

/-- The loop of `retrieve`: the matches, and whether a source of the context was unavailable. -/
def considerRows (contextId : Int) (q : QueryInput) (subject : Subject) (catalog : Catalog) (disabled : List Key) :
    Nat → List Row → Except Fault (List Match × Bool)
  | _, [] => .ok ([], false)
  | reads, row :: rest =>
      if q.selected ≠ [] ∧ row.ref ∉ q.selected then considerRows contextId q subject catalog disabled reads rest
      else
        match considerRow C W q subject catalog disabled row reads with
        | (.ok found, reads') => do
            let later ← considerRows contextId q subject catalog disabled reads' rest
            return (found.toList ++ later.1, later.2)
        | (.error fault, reads') => do
            refuse (fault = .scanLimit ∨ fault = .observationCapacityExceeded) .scanLimit
            let later ← considerRows contextId q subject catalog disabled reads' rest
            return (later.1, later.2 || (row.key.contextId = contextId &&
              (fault = .unavailable || fault = .observationContextUnavailable)))

/-- A match is published at `now`, and so is what it came from. -/
def checkMatch (db : Store) (contextId : Int) (now : Time) (found : Match) : Except Fault Publication := do
  let row ← exact_ db contextId found.reference
  require .unavailable (publication C row now)

/-- The deadlines of a match at the time it is consumed. -/
def consumeMatch (db : Store) (contextId : Int) (subject : Subject) (now : Time) (found : Match) :
    Except Fault (List Time) := do
  let held ← checkMatch C db contextId now found
  let sources ← (W.sources (.chosen (found.content.key contextId)) found.content subject.targetId).mapError Fault.shown
  return held.deadline :: sources

def queryStatus (found : List Match) (unavailable : Bool) (gaps : List Str) : Status :=
  if found ≠ [] then .matchedSynthetic
  else if gaps.any fun gap => gap = "preview_only_shape".toList ∨ gap = "slot_unavailable".toList then .unsupported
  else if gaps.any fun gap => gap ∈ ["facts_missing", "facts_conflict", "identity_missing",
      "object_shape_missing"].map String.toList then .needsInput
  else if unavailable then .sourceUnavailable
  else .noMatch

/-- The savepoint of `retrieve`. -/
def retrieveBody (contextId : Int) (q : QueryInput) : Op QueryRead := do
  Tx.refuse (¬ W.eligibleContext .entry q.contextVersion) .unavailable
  let subject ← Tx.lift (require .unavailable (W.subject q.subjectNumber q.subjectVersion))
  let db ← Tx.get
  let rows ← Tx.lift (scan db contextId)
  let all ← Tx.lift (considerRows C W contextId q subject (catalogOf rows) (disabledKeys rows) 0 rows)
  let found := (all.1.insertionSort fun a b => (a.compare b).isLE).take q.topK
  let now ← Tx.lift (time W .consumed)
  let consumed ← Tx.lift (found.mapM (consumeMatch C W db contextId subject now))
  Tx.refuse (¬ W.steady) .unavailable
  let now ← Tx.lift (time W .answered)
  let _ ← Tx.lift (found.mapM (checkMatch C db contextId now))
  audit contextId
  let deadlines := subject.deadlines ++ consumed.flatten ++ subject.sourceDeadlines
  Tx.lift (inTime W deadlines .audited)
  Tx.lift (inTime W deadlines .finished)
  return ⟨queryStatus found all.2 subject.gaps, subject.gaps ++ ["human_publication_required".toList], found,
    deadlines.min?⟩

end Retrieval

/-! ## Calls -/

inductive Call where
  | record (contextId : Int) (payload : RecordInput)
  | decide (contextId : Int) (payload : DecisionInput)
  | validateRule (contextId : Int) (payload : ValidateInput)
  | submitFeedback (contextId : Int) (payload : FeedbackInput)
  | reviewFeedback (contextId : Int) (payload : FeedbackReviewInput)
  | retrieve (contextId : Int) (query : QueryInput)

inductive Answer where
  | recorded (reference : ExactRef)
  | decided (decided : Decided)
  | validated (validated : Validated)
  | submitted (feedback : Nat)
  | reviewed (decision : Verdict)
  | retrieved (read : QueryRead)

section Calls

variable (C : Codec) (W : World)

/-- A call under the lifecycle guard, which rolls back when its deadline has passed; a payload
the schema refuses does nothing. -/
def operation {α : Type} (valid : Bool) (body : Op α) : Op α :=
  Tx.savepoint do
    Tx.refuse (¬ valid) .invalid
    Tx.refuse (¬ W.locked) .unavailable
    let result ← Tx.savepoint body
    Tx.refuse (¬ W.guarded) .unavailable
    return result

def run : Call → Op Answer
  | .record contextId p =>
      operation W (C.size p.content ≤ maxContent) do return .recorded (← recordBody C W contextId p)
  | .decide contextId p => operation W p.valid do return .decided (← decideBody C W contextId p)
  | .validateRule contextId p => operation W true do return .validated (← validateBody C W contextId p)
  | .submitFeedback contextId p => operation W p.valid do return .submitted (← submitBody C W contextId p)
  | .reviewFeedback contextId p => operation W true do return .reviewed (← reviewBody C W contextId p)
  | .retrieve contextId q => operation W q.valid do return .retrieved (← retrieveBody C W contextId q)

/-- The catalog under any calls, each with its own answers of the other domains. -/
def catalogs : System Store (Call × World) where
  init db := db = ⟨.empty, fun _ => 0⟩
  step db call db' := (run C call.2 call.1 db).2 = db'

end Calls

end ApiSecurityPlatform.Research.Knowledge
