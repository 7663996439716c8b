/-
# Findings.Analysis -- `FindingAnalysisService.analyze_test_run` against one database

Any number of calls run at once, each on its own session, and every statement is a step of
its own: between two statements of a call the other calls, and other programs that insert
into the six tables, go on.  What a session wrote and has not committed is its `Pending`;
it reads the committed tables together with that (`Tables.publish`).

The rows of the other tables (runs, cases, endpoints, resources, intent members) may be
anything at each read: a step of `Action.reads` carries what the reads returned.  Any
statement may fail, `COMMIT` may take effect without the caller hearing of it, and a
caller that caught the exception may commit its session.  The analyzer is that of
`Findings.Classification`, which may raise too.
-/
import ApiSecurityPlatform.Findings.Classification
import ApiSecurityPlatform.Theory.Transition

namespace ApiSecurityPlatform.Findings

open ApiSecurityPlatform.Python ApiSecurityPlatform.Theory
open ApiSecurityPlatform.Ai (Fault)
open Classification (Analysis Builtins Excerpts Interpreter inconclusive analyzeBolaRun)

set_option autoImplicit false

/-! ## The six tables -/

/-- `FindingEvidenceRetentionPolicy`. -/
structure RetentionPolicy where
  policyId : Str
  policyVersion : Str
  retentionMode : Str
  automaticDeletionEnabled : Bool
  rawResponseBodyRetained : Bool
deriving DecidableEq

/-- `V1_FINDING_EVIDENCE_RETENTION_POLICY`. -/
def v1RetentionPolicy : RetentionPolicy :=
  ⟨"m13_minimized_finding_evidence".toList, ['1'], "explicit_management_only".toList, false, false⟩

structure Finding where
  id : Nat
  targetId : Int
  endpointId : Int
  testRunId : Int
  baselineTestRunId : Option Int
  category : Str
  severity : Str
  /-- In hundredths. -/
  confidence : Nat
  status : Str
  title : Str
  description : Str
deriving DecidableEq

/-- The five evidence tables, in the order they are written. -/
inductive Kind where
  | record
  | excerpt
  | fingerprint
  | similarity
  | retention
deriving DecidableEq, Repr

/-- The columns of an evidence table other than its id and its parent. -/
def Values : Kind → Type
  | .record => BolaStructuredEvidence
  | .excerpt => Excerpts
  | .fingerprint => BolaResponseFingerprintEvidence
  | .similarity => BolaResponseSimilarityEvidence
  | .retention => RetentionPolicy

instance (k : Kind) : DecidableEq (Values k) :=
  match k with
  | .record => inferInstanceAs (DecidableEq BolaStructuredEvidence)
  | .excerpt => inferInstanceAs (DecidableEq Excerpts)
  | .fingerprint => inferInstanceAs (DecidableEq BolaResponseFingerprintEvidence)
  | .similarity => inferInstanceAs (DecidableEq BolaResponseSimilarityEvidence)
  | .retention => inferInstanceAs (DecidableEq RetentionPolicy)

/-- A row; its parent is the Finding of a record, the fingerprint of a similarity, and
otherwise the record. -/
structure Row (k : Kind) where
  id : Nat
  parent : Nat
  values : Values k
deriving DecidableEq

structure Tables where
  findings : List Finding
  rows : (k : Kind) → List (Row k)

/-- The columns with a unique constraint. -/
inductive Column where
  | findingId
  /-- `uq_finding_test_run_category`. -/
  | testRunCategory
  | rowId (k : Kind)
  /-- `uq_finding_evidence_records_finding_id` and its four siblings. -/
  | rowParent (k : Kind)
deriving DecidableEq, Repr

def Column.all : List Column :=
  [.findingId, .testRunCategory] ++
    [Kind.record, .excerpt, .fingerprint, .similarity, .retention].flatMap fun k => [.rowId k, .rowParent k]

inductive Key where
  | id (n : Nat)
  | pair (testRunId : Int) (category : Str)
deriving DecidableEq

namespace Tables

def empty : Tables := ⟨[], fun _ => []⟩

def ofFinding (f : Finding) : Tables := ⟨[f], fun _ => []⟩

def ofRow {k : Kind} (row : Row k) : Tables := ⟨[], Function.update (fun _ => []) k [row]⟩

def append (T U : Tables) : Tables := ⟨T.findings ++ U.findings, fun k => T.rows k ++ U.rows k⟩

def keys (T : Tables) : Column → List Key
  | .findingId => T.findings.map fun f => .id f.id
  | .testRunCategory => T.findings.map fun f => .pair f.testRunId f.category
  | .rowId k => (T.rows k).map fun row => .id row.id
  | .rowParent k => (T.rows k).map fun row => .id row.parent

/-- The unique constraints. -/
def Keyed (T : Tables) : Prop := ∀ c, (T.keys c).Nodup

end Tables

/-- The columns an `UPDATE` of a Finding sets. -/
structure Changes where
  severity : Option Str
  confidence : Option Nat
  title : Option Str
  description : Option Str
deriving DecidableEq

def Finding.update (f : Finding) (c : Changes) : Finding :=
  { f with
    severity := c.severity.getD f.severity
    confidence := c.confidence.getD f.confidence
    title := c.title.getD f.title
    description := c.description.getD f.description }

/-- What a session has written and not committed. -/
structure Pending where
  inserted : Tables
  changes : List (Nat × Changes)

namespace Pending

def empty : Pending := ⟨.empty, []⟩

def insert (P : Pending) (T : Tables) : Pending := { P with inserted := P.inserted.append T }

/-- A Finding with the changes to it. -/
def changed (P : Pending) (f : Finding) : Finding :=
  P.changes.foldl (fun g entry => if entry.1 = g.id then g.update entry.2 else g) f

end Pending

/-- The tables a session reads, and the committed ones after its `COMMIT`. -/
def Tables.publish (T : Tables) (P : Pending) : Tables :=
  { T.append P.inserted with findings := (T.append P.inserted).findings.map P.changed }

/-! ## One call -/

structure Endpoint where
  id : Int
  targetId : Int
  method : Str
  path : Str
deriving DecidableEq

inductive Error where
  /-- `FindingAnalysisNotFoundError`. -/
  | notFound (message : String)
  /-- `FindingAnalysisError`. -/
  | analysis (message : String)
  /-- `RuntimeError`. -/
  | runtime (message : String)
  /-- `analyze_bola_run` raised. -/
  | analyzer (fault : Fault)
  /-- A statement before the commit, or the commit itself, failed. -/
  | database
  /-- The commit took effect and its answer was lost. -/
  | commitLost
  /-- `self.db.refresh(finding)` failed. -/
  | refresh
deriving DecidableEq, Repr

/-- What the reads before the first read of a Finding returned. -/
structure Reads where
  testRun : Option TestRun
  testCase : Option TestCase
  /-- An intent plan member names the case. -/
  testCaseMember : Bool
  endpoint : Option Endpoint
  resource : Option Resource
  baselineRun : Option TestRun
  baselineCase : Option TestCase
  baselineCaseMember : Bool

/-- `db.get` returns the row with the id it was asked for. -/
def Reads.Fits (r : Reads) (testRunId baselineTestRunId : Int) : Bool :=
  r.testRun.all (·.id = testRunId) && r.baselineRun.all (·.id = baselineTestRunId) &&
    r.testRun.all (fun run => r.testCase.all (·.id = run.testCaseId)) &&
    r.testCase.all (fun case => r.endpoint.all (·.id = case.endpointId)) &&
    r.baselineRun.all (fun run => r.baselineCase.all (·.id = run.testCaseId))

/-- The rows a call analyzes. -/
structure Pair where
  testRun : TestRun
  testCase : TestCase
  endpoint : Endpoint
  resource : Resource
  baselineRun : TestRun

/-- `new_case` of the intent gate. -/
def newCase (case : Option TestCase) (member : Bool) : Bool :=
  case.any fun case => "ra_".toList.isPrefixOf case.testType || member

def rejectCase (case : Option TestCase) (member : Bool) : Except Error Unit :=
  if newCase case member then .error (.analysis "intent_w2_execution_closed") else .ok ()

def require {α : Type} (found : Option α) (message : String) : Except Error α :=
  found.elim (.error (.notFound message)) .ok

/-- The baseline case is the owner's, on the same endpoint and resource. -/
def pairValid (testRun : TestRun) (testCase : TestCase) (baselineRun : TestRun) (baselineCase : Option TestCase) :
    Bool :=
  baselineRun.id ≠ testRun.id && baselineCase.any fun case =>
    case.testType = ownerBaseline && case.endpointId = testCase.endpointId &&
      case.resourceId = testCase.resourceId && case.actorIdentityId ≠ testCase.actorIdentityId

/-- `analyze_test_run` up to the first read of a Finding. -/
def preflight (r : Reads) : Except Error (Analysis ⊕ Pair) := do
  let testRun ← require r.testRun "TestRun not found."
  let testCase ← require r.testCase "TestCase not found."
  rejectCase (some testCase) r.testCaseMember
  if testCase.testType ≠ bolaCrossOwner then
    return .inl (inconclusive "Only cross-owner BOLA runs are analyzed here.")
  let endpoint ← require r.endpoint "Endpoint not found."
  let resource ← require r.resource "Resource not found."
  if endpoint.targetId ≠ resource.targetId then
    .error (.analysis "Endpoint and resource belong to different targets.")
  let baselineRun ← require r.baselineRun "finding_baseline_test_run_not_found"
  rejectCase r.baselineCase r.baselineCaseMember
  if ¬ pairValid testRun testCase baselineRun r.baselineCase then
    .error (.analysis "finding_evidence_pair_invalid")
  return .inr ⟨testRun, testCase, endpoint, resource, baselineRun⟩

/-- What the analyzer takes from Python; `F` is `float`. -/
structure Runtime (F : Type) where
  builtins : Builtins F
  interpreter : Interpreter

section Service

variable {F : Type} (R : Runtime F)

def Pair.analyze (pair : Pair) : Except Fault Analysis :=
  analyzeBolaRun R.builtins R.interpreter pair.testCase pair.testRun (some pair.baselineRun) pair.resource

/-- A potential BOLA, ready to be written. -/
structure Job where
  pair : Pair
  result : Analysis
  /-- The Finding the call had loaded before the analysis. -/
  existing : Option Finding
  values : (k : Kind) → Values k

/-- The evidence an analysis gives for each table. -/
def evidenceValues (result : Analysis) : (k : Kind) → Option (Values k)
  | .record => result.evidence
  | .excerpt => result.excerptEvidence
  | .fingerprint => result.fingerprintEvidence
  | .similarity => result.similarityEvidence
  | .retention => some v1RetentionPolicy

/-- From the outcome of the analysis to the savepoint. -/
def judge (pair : Pair) (existing : Option Finding) (result : Analysis) : Except Error (Analysis ⊕ Job) :=
  if result.outcome ≠ .potentialBola then .ok (.inl result)
  else match result.evidence with
    | none => .error (.analysis "finding_structured_evidence_conflict")
    | some evidence =>
        if evidence.probeTestRunId ≠ pair.testRun.id ∨ evidence.baselineTestRunId ≠ pair.baselineRun.id then
          .error (.analysis "finding_structured_evidence_conflict")
        else match result.excerptEvidence with
          | none => .error (.analysis "finding_evidence_excerpt_conflict")
          | some excerpt => match result.fingerprintEvidence with
            | none => .error (.analysis "finding_evidence_fingerprint_conflict")
            | some fingerprint => match result.similarityEvidence with
              | none => .error (.analysis "finding_evidence_similarity_conflict")
              | some similarity =>
                  if similarity.comparatorId ≠ "sha256_exact_and_length_ratio".toList ∨
                      similarity.comparatorVersion ≠ ['1'] then
                    .error (.analysis "finding_evidence_similarity_conflict")
                  else .ok (.inr
                    { pair := pair
                      result := result
                      existing := existing
                      values := fun
                        | .record => evidence
                        | .excerpt => excerpt
                        | .fingerprint => fingerprint
                        | .similarity => similarity
                        | .retention => v1RetentionPolicy })

def bola : Str := "BOLA".toList

namespace Job

variable (job : Job)

def severity : Str := job.result.severity.getD "unknown".toList

def confidence : Nat := job.result.confidence.getD 0

def title : Str :=
  "Potential BOLA in ".toList ++ job.pair.endpoint.method ++ ' ' :: job.pair.endpoint.path

def description : Str :=
  ("Cross-owner access to the target resource returned a successful response containing evidence " ++
    "of the target resource. Human review is required.").toList

/-- The values of `insert(Finding)`. -/
def finding (id : Nat) : Finding :=
  { id := id
    targetId := job.pair.endpoint.targetId
    endpointId := job.pair.endpoint.id
    testRunId := job.pair.testRun.id
    baselineTestRunId := some job.pair.baselineRun.id
    category := bola
    severity := job.severity
    confidence := job.confidence
    status := "potential".toList
    title := job.title
    description := description }

/-- The columns that differ from the ones the object was loaded with. -/
def changes (loaded : Finding) : Changes :=
  { severity := if loaded.severity = job.severity then none else some job.severity
    confidence := if loaded.confidence = job.confidence then none else some job.confidence
    title := if loaded.title = job.title then none else some job.title
    description := if loaded.description = description then none else some description }

end Job

/-- Where the savepoint block stands: its Finding and the rows read back so far. -/
structure Progress where
  finding : Finding
  /-- `finding_id is not None`. -/
  created : Bool
  ids : Kind → Nat

/-- The parent of a row, from the ids of the rows before it. -/
def parentOf (findingId : Nat) (ids : Kind → Nat) : Kind → Nat
  | .record => findingId
  | .excerpt | .fingerprint | .retention => ids .record
  | .similarity => ids .fingerprint

def Progress.parent (p : Progress) : Kind → Nat := parentOf p.finding.id p.ids

/-- The statement a call is about to run. -/
inductive Line where
  | reads (testRunId baselineTestRunId : Int)
  | selectExisting (pair : Pair)
  /-- The two reads of `_check_existing_fingerprint`. -/
  | selectRecord (pair : Pair) (existing : Finding) (result : Analysis)
  | selectFingerprint (pair : Pair) (existing : Finding) (result : Analysis) (recordId : Nat)
  | savepoint (job : Job)
  | insertFinding (job : Job)
  | getFinding (job : Job) (id : Nat)
  | selectConflict (job : Job)
  /-- The insert of one of the `_persist_` functions, and the read back. -/
  | insert (k : Kind) (job : Job) (progress : Progress)
  | select (k : Kind) (job : Job) (progress : Progress)
  /-- `UPDATE` of a Finding that was there already. -/
  | flush (job : Job) (progress : Progress)
  | release (job : Job) (progress : Progress)
  | commit (job : Job) (progress : Progress)
  | refresh (job : Job) (progress : Progress)
  | returned (analysis : Analysis) (finding : Option Finding)
  | raised (error : Error)

structure Session where
  line : Line
  pending : Pending
  /-- What was pending when the savepoint was set. -/
  saved : Pending

/-- What happens to a call at its line. -/
inductive Action where
  | reads (r : Reads)
  /-- The statement runs; `id` is what the sequence would give. -/
  | run (id : Nat)
  | fail
  /-- `COMMIT` takes effect and the connection is lost. -/
  | lose
  /-- After the call, its caller commits the session. -/
  | callerCommit

namespace Session

def start (testRunId baselineTestRunId : Int) : Session :=
  ⟨.reads testRunId baselineTestRunId, .empty, .empty⟩

def goto (x : Session) (line : Line) : Session := { x with line := line }

/-- An exception leaves the savepoint block, which rolls back to the savepoint. -/
def raise (x : Session) (error : Error) : Session := { x with line := .raised error, pending := x.saved }

/-- What comes of a part of the function that may raise or return early. -/
def proceed {α : Type} (x : Session) (next : α → Line) : Except Error (Analysis ⊕ α) → Session
  | .error e => x.raise e
  | .ok (.inl result) => x.goto (.returned result none)
  | .ok (.inr a) => x.goto (next a)

/-- `analyze_bola_run`, and the session after what it returned. -/
def analyzed (x : Session) (pair : Pair) (after : Analysis → Session) : Session :=
  match pair.analyze R with
  | .error fault => x.raise (.analyzer fault)
  | .ok result => after result

/-- `_validate_baseline_binding`, then the first `_persist_`. -/
def bind (x : Session) (job : Job) (created : Bool) (finding : Finding) : Session :=
  if finding.baselineTestRunId ≠ some job.pair.baselineRun.id then
    x.raise (.analysis "finding_evidence_pair_conflict")
  else x.goto (.insert .record job ⟨finding, created, fun _ => 0⟩)

end Session

/-- The message of a `_persist_` function. -/
def conflictMessage : Kind → String
  | .record => "finding_structured_evidence_conflict"
  | .excerpt => "finding_evidence_excerpt_conflict"
  | .fingerprint => "finding_evidence_fingerprint_conflict"
  | .similarity => "finding_evidence_similarity_conflict"
  | .retention => "finding_evidence_retention_policy_conflict"

/-- The line after a row was read back. -/
def Kind.next (job : Job) (p : Progress) : Kind → Line
  | .record => .insert .excerpt job p
  | .excerpt => .insert .fingerprint job p
  | .fingerprint => .insert .similarity job p
  | .similarity => .insert .retention job p
  | .retention => .flush job p

/-- The Finding of a test run. -/
def Tables.findingOf (T : Tables) (testRunId : Int) : Option Finding :=
  T.findings.find? fun f => f.testRunId = testRunId ∧ f.category = bola

def Tables.child (T : Tables) (k : Kind) (parent : Nat) : Option (Row k) :=
  (T.rows k).find? (·.parent = parent)

/-- The object a select returns: one that was loaded before keeps its attributes. -/
def identityMap (loaded : Option Finding) (found : Finding) : Finding :=
  match loaded with
  | some f => if f.id = found.id then f else found
  | none => found

inductive Inserted where
  | waits
  | conflict
  | done
deriving DecidableEq, Repr

/-- `INSERT ... ON CONFLICT ON CONSTRAINT ... DO NOTHING`: it waits for another session that
holds the key. -/
def onConflictDoNothing (view : Tables) (others : List Pending) (c : Column) (key : Key) : Inserted :=
  if others.any fun P => key ∈ P.inserted.keys c then .waits
  else if key ∈ view.keys c then .conflict
  else .done

/-- The sequence gives an id that no row has. -/
def unused (view : Tables) (others : List Pending) (c : Column) (id : Nat) : Bool :=
  onConflictDoNothing view others c (.id id) = .done

/-- One statement of a call; `none` when it waits or the action is not of its line. -/
def Session.step (T : Tables) (others : List Pending) (x : Session) (a : Action) : Option (Tables × Session) :=
  let view := T.publish x.pending
  match x.line, a with
  | .reads testRunId baselineTestRunId, .reads r =>
      if r.Fits testRunId baselineTestRunId then some (T, x.proceed .selectExisting (preflight r)) else none
  | .selectExisting pair, .run _ =>
      match view.findingOf pair.testRun.id with
      | none => some (T, x.analyzed R pair fun result => x.proceed .savepoint (judge pair none result))
      | some existing =>
          if existing.baselineTestRunId ≠ some pair.baselineRun.id then
            some (T, x.raise (.analysis "finding_evidence_pair_conflict"))
          else some (T, x.analyzed R pair fun result => x.goto (.selectRecord pair existing result))
  | .selectRecord pair existing result, .run _ =>
      match view.child .record existing.id with
      | none => some (T, x.proceed .savepoint (judge pair (some existing) result))
      | some record => some (T, x.goto (.selectFingerprint pair existing result record.id))
  | .selectFingerprint pair existing result recordId, .run _ =>
      match view.child .fingerprint recordId with
      | none => some (T, x.proceed .savepoint (judge pair (some existing) result))
      | some stored =>
          if evidenceValues result .fingerprint ≠ some stored.values then
            some (T, x.raise (.analysis "finding_evidence_fingerprint_conflict"))
          else some (T, x.proceed .savepoint (judge pair (some existing) result))
  | .savepoint job, .run _ => some (T, { x with line := .insertFinding job, saved := x.pending })
  | .insertFinding job, .run id =>
      match onConflictDoNothing view others .testRunCategory (.pair job.pair.testRun.id bola) with
      | .waits => none
      | .conflict => some (T, x.goto (.selectConflict job))
      | .done =>
          if unused view others .findingId id then
            some (T, { x with line := .getFinding job id, pending := x.pending.insert (.ofFinding (job.finding id)) })
          else none
  | .getFinding job id, .run _ =>
      match view.findings.find? (·.id = id) with
      | none => some (T, x.raise (.runtime "Finding conflict row not found."))
      | some finding => some (T, x.bind job true finding)
  | .selectConflict job, .run _ =>
      match view.findingOf job.pair.testRun.id with
      | none => some (T, x.raise (.runtime "Finding conflict row not found."))
      | some finding => some (T, x.bind job false (identityMap job.existing finding))
  | .insert k job p, .run id =>
      match onConflictDoNothing view others (.rowParent k) (.id (p.parent k)) with
      | .waits => none
      | .conflict => some (T, x.goto (.select k job p))
      | .done =>
          if unused view others (.rowId k) id then
            some (T,
              { x with
                line := .select k job p
                pending := x.pending.insert (.ofRow ⟨id, p.parent k, job.values k⟩) })
          else none
  | .select k job p, .run _ =>
      match view.child k (p.parent k) with
      | none => some (T, x.raise (.analysis (conflictMessage k)))
      | some stored =>
          if stored.values ≠ job.values k then some (T, x.raise (.analysis (conflictMessage k)))
          else some (T, x.goto (k.next job { p with ids := Function.update p.ids k stored.id }))
  | .flush job p, .run _ =>
      -- an object whose attributes did not change is not flushed
      if p.created ∨ job.changes p.finding = ⟨none, none, none, none⟩ then some (T, x.goto (.release job p))
      else if others.any fun P => P.changes.any (·.1 = p.finding.id) then none
      else some (T,
        { x with
          line := .release job p
          pending := { x.pending with changes := x.pending.changes ++ [(p.finding.id, job.changes p.finding)] } })
  | .release job p, .run _ => some (T, x.goto (.commit job p))
  | .commit job p, .run _ => some (view, ⟨.refresh job p, .empty, .empty⟩)
  | .commit _ _, .lose => some (view, ⟨.raised .commitLost, .empty, .empty⟩)
  | .commit _ _, .fail => some (T, ⟨.raised .database, .empty, .empty⟩)
  | .refresh job p, .run _ =>
      match T.findings.find? (·.id = p.finding.id) with
      | none => some (T, x.raise .refresh)
      | some finding => some (T, x.goto (.returned job.result (some finding)))
  | .refresh _ _, .fail => some (T, x.raise .refresh)
  | .returned _ _, .callerCommit => some (view, { x with pending := .empty })
  | .raised _, .callerCommit => some (view, { x with pending := .empty })
  | .returned _ _, .fail => none
  | .raised _, .fail => none
  | _, .fail => some (T, x.raise .database)
  | _, _ => none

/-! ## All calls -/

structure State where
  tables : Tables
  sessions : List Session

inductive Event where
  | begin (testRunId baselineTestRunId : Int)
  | call (i : Nat) (action : Action)
  /-- Another program inserts a Finding and commits. -/
  | insertFinding (f : Finding)
  /-- Another program inserts an evidence row and commits. -/
  | insertRow (k : Kind) (row : Row k)

namespace State

variable (s : State)

/-- What the sessions other than the `i`-th have pending. -/
def others (i : Nat) : List Pending := (s.sessions.eraseIdx i).map Session.pending

/-- An insert of another program, refused when it violates a unique constraint. -/
def insertCommitted (T : Tables) : Option State :=
  if ∀ c ∈ Column.all, ∀ key ∈ T.keys c,
      onConflictDoNothing s.tables (s.sessions.map Session.pending) c key = .done then
    some { s with tables := s.tables.append T }
  else none

def step : Event → Option State
  | .begin testRunId baselineTestRunId =>
      some { s with sessions := s.sessions ++ [.start testRunId baselineTestRunId] }
  | .call i action => do
      let x ← s.sessions[i]?
      let after ← x.step R s.tables (s.others i) action
      return { tables := after.1, sessions := s.sessions.set i after.2 }
  | .insertFinding f => s.insertCommitted (.ofFinding f)
  | .insertRow _ row => s.insertCommitted (.ofRow row)

end State

/-- The calls of the service, from tables with whatever rows their constraints allow. -/
def analysis : System State Event :=
  .ofStep (fun s => s.tables.Keyed ∧ s.sessions = []) (State.step R)

end Service

end ApiSecurityPlatform.Findings
