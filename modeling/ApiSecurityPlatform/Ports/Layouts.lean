/-
# Ports.Layouts -- the declared records

The layouts of `LAYOUTS`, with a constructor for each kind of their type expressions.  A
kind holds the layout it names, so that what is nested in a record is found by recursion on
its layout; the layouts are declared in an order that allows it.
-/
import ApiSecurityPlatform.Ports.Time

namespace ApiSecurityPlatform.Ports

open ApiSecurityPlatform.Python

set_option autoImplicit false

/-- The names of `LAYOUTS`, in its order. -/
inductive Name where
  | scope
  | readContext
  | runContext
  | recoveryContext
  | exactSource
  | projectionBinding
  | candidateRef
  | syntheticCandidateCertificate
  | questionManifest
  | retrievalRequest
  | retrievalResult
  | preparation
  | bindingCore
  | reservationKey
  | reservation
  | preparationAuthorityRead
  | preparationAuthorityView
  | authorityRead
  | authorityView
  | admission
  | acceptanceTicket
  | invalidationContext
  | invalidationRequest
  | invalidationAck
  | invalidationResolution
  | reopenRequest
  | writerFence
  | gateAck
  | sendPermit
  | observation
  | usageView
  | settlement
  | completion
  | writeAck
  | observationAck
  | callEvidence
  | cancelAck
  | error
  | scopeMapping
  | decision
  | projectionReview
  | syntheticScenario
  | localPolicy
  | modelPermission
  | tokenCertificate
  | taskManifest
deriving DecidableEq, Repr

def Name.all : List Name :=
  [.scope, .readContext, .runContext, .recoveryContext, .exactSource, .projectionBinding, .candidateRef,
    .syntheticCandidateCertificate, .questionManifest, .retrievalRequest, .retrievalResult, .preparation,
    .bindingCore, .reservationKey, .reservation, .preparationAuthorityRead, .preparationAuthorityView,
    .authorityRead, .authorityView, .admission, .acceptanceTicket, .invalidationContext, .invalidationRequest,
    .invalidationAck, .invalidationResolution, .reopenRequest, .writerFence, .gateAck, .sendPermit,
    .observation, .usageView, .settlement, .completion, .writeAck, .observationAck, .callEvidence, .cancelAck,
    .error, .scopeMapping, .decision, .projectionReview, .syntheticScenario, .localPolicy, .modelPermission,
    .tokenCertificate, .taskManifest]

def Name.text : Name → String
  | .scope => "Scope"
  | .readContext => "ReadContext"
  | .runContext => "RunContext"
  | .recoveryContext => "RecoveryContext"
  | .exactSource => "ExactSource"
  | .projectionBinding => "ProjectionBinding"
  | .candidateRef => "CandidateRef"
  | .syntheticCandidateCertificate => "SyntheticCandidateCertificate"
  | .questionManifest => "QuestionManifest"
  | .retrievalRequest => "RetrievalRequest"
  | .retrievalResult => "RetrievalResult"
  | .preparation => "Preparation"
  | .bindingCore => "BindingCore"
  | .reservationKey => "ReservationKey"
  | .reservation => "Reservation"
  | .preparationAuthorityRead => "PreparationAuthorityRead"
  | .preparationAuthorityView => "PreparationAuthorityView"
  | .authorityRead => "AuthorityRead"
  | .authorityView => "AuthorityView"
  | .admission => "Admission"
  | .acceptanceTicket => "AcceptanceTicket"
  | .invalidationContext => "InvalidationContext"
  | .invalidationRequest => "InvalidationRequest"
  | .invalidationAck => "InvalidationAck"
  | .invalidationResolution => "InvalidationResolution"
  | .reopenRequest => "ReopenRequest"
  | .writerFence => "WriterFence"
  | .gateAck => "GateAck"
  | .sendPermit => "SendPermit"
  | .observation => "Observation"
  | .usageView => "UsageView"
  | .settlement => "Settlement"
  | .completion => "Completion"
  | .writeAck => "WriteAck"
  | .observationAck => "ObservationAck"
  | .callEvidence => "CallEvidence"
  | .cancelAck => "CancelAck"
  | .error => "Error"
  | .scopeMapping => "ScopeMapping"
  | .decision => "Decision"
  | .projectionReview => "ProjectionReview"
  | .syntheticScenario => "SyntheticScenario"
  | .localPolicy => "LocalPolicy"
  | .modelPermission => "ModelPermission"
  | .tokenCertificate => "TokenCertificate"
  | .taskManifest => "TaskManifest"

/-- `COMPOSITE`. -/
def composite : List Name :=
  [.readContext, .runContext, .recoveryContext, .questionManifest, .retrievalRequest, .retrievalResult,
    .bindingCore, .reservationKey, .reservation, .preparationAuthorityRead, .preparationAuthorityView,
    .authorityRead, .authorityView, .admission, .sendPermit, .scopeMapping, .projectionReview, .modelPermission,
    .taskManifest]


/-- `re.sub(r'(?<!^)(?=[A-Z])', '-', name).lower()`. -/
def kebab : Str → Str
  | [] => []
  | c :: rest => c.toLower :: rest.flatMap fun d => if d.isUpper then ['-', d.toLower] else [d.toLower]

/-- `format_for`. -/
def formatFor (name : Name) : Str := "ra-w2-".toList ++ (kebab name.text.toList ++ "/1".toList)

/-- `ENUMS`. -/
inductive Enum where
  | missing
  | preparationState
  | stage
  | observationKind
  | terminal
  | portCode
  | actor
  | entry
  | usageState
  | preparationStage
  | tag
  | disposition
  | databaseOutcome
  | invalidationReason
  | settlementState
  | delivery
  | displayState
  | decisionRole
  | permission
  | relationship
  | expectedAccess
deriving DecidableEq, Repr

def Enum.values : Enum → List String
  | .missing => ["POLICY_PROOF_MISSING", "SOURCE_BINDING_MISSING", "PROJECTION_APPROVAL_MISSING",
      "SYNTHETIC_REVIEW_MISSING", "ACTOR_MODE_MISSING", "INDEPENDENT_FACTS_MISSING",
      "INDEPENDENT_EXPECTATION_MISSING", "SHAPE_MISSING"]
  | .preparationState => ["RULES_SUFFICIENT", "RETRIEVAL_SUFFICIENT", "PRIORITY_UNRESOLVED", "NEEDS_INPUT",
      "NO_ELIGIBLE_RULE", "AWAITING_APPROVAL", "UNSUPPORTED", "LIMIT_EXCEEDED"]
  | .stage => ["before_input", "after_input", "after_wait", "before_secret", "after_secret", "after_dns",
      "after_connect", "after_tls", "final_send", "sending", "before_write", "write_ready", "after_send",
      "before_consume", "before_return", "final_return", "complete"]
  | .observationKind => ["PERMIT_ISSUED", "WRITE_ACCEPTED", "STREAM_CLOSED", "FINAL_USAGE", "ZERO_PROVEN",
      "COVERAGE_GAP", "CONFLICT"]
  | .terminal => ["NONE", "COMPLETED", "INCOMPLETE", "FAILED", "CANCELLED", "UNKNOWN"]
  | .portCode => ["VERSION_UNSUPPORTED", "INVALID_RECORD", "LIMIT_EXCEEDED", "SOURCE_UNAVAILABLE",
      "CONTEXT_CHANGED", "CANCELLED", "DEADLINE_EXCEEDED", "AUTHORITY_UNAVAILABLE", "RESERVATION_UNAVAILABLE",
      "OWNER_LOST", "OBSERVER_UNAVAILABLE", "COMMIT_UNKNOWN", "CONFLICT"]
  | .actor => ["anonymous", "bearer"]
  | .entry => ["Q1", "Q2", "Q3", "Q4"]
  | .usageState => ["known", "unknown", "invalid"]
  | .preparationStage => ["before_rules", "before_retrieval", "after_retrieval", "after_render"]
  | .tag => ["access", "ownership", "sharing", "uncertainty", "session", "synthetic", "bola", "scope"]
  | .disposition => ["PENDING", "COMMITTED", "ROLLED_BACK", "UNKNOWN"]
  | .databaseOutcome => ["COMMITTED", "ROLLED_BACK", "UNKNOWN"]
  | .invalidationReason => ["LIFECYCLE", "CONFIGURATION", "CANCELLATION", "RECOVERY"]
  | .settlementState => ["ZERO", "KNOWN", "UNKNOWN", "CONFLICT"]
  | .delivery => ["not_sent", "unknown", "responded"]
  | .displayState => ["SUPPRESSED", "ELIGIBLE_NOW"]
  | .decisionRole => ["possession", "use", "reuse", "review", "validation", "publish", "egress"]
  | .permission => ["protocol", "transport", "model", "data", "retention", "account", "budget"]
  | .relationship => ["owner", "non_owner", "shared", "unspecified"]
  | .expectedAccess => ["allowed", "denied", "unspecified"]

/-! ## Kinds -/

/-- `PATTERNS`. -/
inductive Pattern where
  | id
  | label
  | hash
  | call
  | knowledge
  | word
deriving DecidableEq, Repr

def isLowerHex (c : Char) : Bool := isDigit c || ('a' ≤ c && c ≤ 'f')

def isIdChar (c : Char) : Bool := c.isAlphanum || c == '_' || c == '-'

namespace Pattern

/-- `[class]{lower,upper}`. -/
def run (member : Char → Bool) (lower upper : Nat) (s : Str) : Bool :=
  lower ≤ s.length && s.length ≤ upper && s.all member

/-- A literal, then the rest. -/
def after (lead : Str) (rest : Str → Bool) (s : Str) : Bool := lead.isPrefixOf s && rest (s.drop lead.length)

/-- `re.fullmatch(PATTERNS[kind], value)`. -/
def accepts : Pattern → Str → Bool
  | .id => run isIdChar 1 64
  | .label => run (fun c => isIdChar c || c == '.' || c == '/') 1 96
  | .hash => run isLowerHex 64 64
  | .call => after "q_".toList (run isLowerHex 32 32)
  | .knowledge => after "knowledge-".toList fun s =>
      (s.head?.any fun c => isDigit c && c != '0') && run isDigit 0 5 s.tail
  | .word => run (fun c => 'a' ≤ c && c ≤ 'z') 1 32

end Pattern

/-- The integer kinds. -/
inductive Whole where
  | n
  | positive
  | gen
  | ver
  | score
deriving DecidableEq, Repr

def Whole.lower : Whole → Int
  | .n => 0
  | _ => 1

def Whole.upper : Whole → Int
  | .n | .positive => 2 ^ 63 - 1
  | .gen => 2147483647
  | .ver => 10000
  | .score => 24

/-- The kinds of a single value. -/
inductive Leaf where
  /-- `=` and digits. -/
  | int (n : Int)
  /-- `=` and any other text. -/
  | text (s : String)
  | pattern (p : Pattern)
  | enum (e : Enum)
  | whole (w : Whole)
  | bool
  | time
  | rate
  | mapping
  | w1Code
deriving DecidableEq, Repr

mutual

/-- A type expression of a field. -/
inductive Kind where
  | leaf (leaf : Leaf)
  /-- `?`. -/
  | nullable (kind : Kind)
  /-- `[lower:upper]`. -/
  | array (element : Kind) (lower upper : Nat)
  | record (layout : Layout)

inductive Layout where
  | mk (name : Name) (fields : List (Str × Kind))

end

namespace Kind

def int (n : Int) : Kind := .leaf (.int n)
def text (s : String) : Kind := .leaf (.text s)
def id : Kind := .leaf (.pattern .id)
def label : Kind := .leaf (.pattern .label)
def hash : Kind := .leaf (.pattern .hash)
def call : Kind := .leaf (.pattern .call)
def knowledge : Kind := .leaf (.pattern .knowledge)
def word : Kind := .leaf (.pattern .word)
def enum (e : Enum) : Kind := .leaf (.enum e)
def n : Kind := .leaf (.whole .n)
def positive : Kind := .leaf (.whole .positive)
def gen : Kind := .leaf (.whole .gen)
def ver : Kind := .leaf (.whole .ver)
def score : Kind := .leaf (.whole .score)
def bool : Kind := .leaf .bool
def time : Kind := .leaf .time
def rate : Kind := .leaf .rate
def mapping : Kind := .leaf .mapping
def w1Code : Kind := .leaf .w1Code

/-- `element != 'Score'`. -/
def isScore : Kind → Bool
  | .leaf (.whole .score) => true
  | _ => false

end Kind

namespace Layout

def name : Layout → Name
  | .mk name _ => name

def fields : Layout → List (Str × Kind)
  | .mk _ fields => fields

def field (key : String) (kind : Kind) : Str × Kind := (key.toList, kind)

def scope : Layout := .mk .scope [
    field "task_id" .id, field "case_id" .id, field "project_ref" .id, field "context_ref" .id,
    field "context_version" .ver, field "context_generation" .gen, field "account_ref" .id,
    field "deployment_ref" .id, field "policy_id" .id, field "policy_version" .ver]

def readContext : Layout := .mk .readContext [
    field "scope" (.record scope), field "process_epoch" .id, field "deadline_at" .time,
    field "mono_deadline_ns" .n, field "cancellation_id" .id]

def runContext : Layout := .mk .runContext [
    field "scope" (.record scope), field "call_ref" .call, field "attempt" (.int 1), field "owner_id" .id,
    field "owner_generation" .gen, field "process_epoch" .id, field "started_at" .time,
    field "deadline_at" .time, field "mono_start_ns" .n, field "mono_deadline_ns" .n,
    field "cancellation_id" .id]

def reservationKey : Layout := .mk .reservationKey [
    field "scope" (.record scope), field "call_ref" .call, field "attempt" (.int 1), field "core_digest" .hash]

def recoveryContext : Layout := .mk .recoveryContext [
    field "read" (.record readContext), field "key" (.record reservationKey), field "recovery_decision_id" .id,
    field "owner_id" .id, field "owner_generation" .gen]

def exactSource : Layout := .mk .exactSource [
    field "scope" (.text "reusable_synthetic"), field "knowledge_id" .knowledge, field "version" .ver,
    field "digest" .hash]

def projectionBinding : Layout := .mk .projectionBinding [
    field "source" (.record exactSource), field "projection_digest" .hash, field "template_digest" .hash,
    field "template" (.text "sharing-complete/1"), field "decision_refs" (.array .id 7 7),
    field "validation_id" .positive, field "validation_digest" .hash, field "review_event_id" .positive,
    field "reuse_event_id" .positive, field "publication_event_id" .positive, field "valid_from" .time,
    field "expires_at" .time]

def candidateRef : Layout := .mk .candidateRef [
    field "source_id" .id, field "source_version" .ver, field "source_digest" .hash]

def syntheticCandidateCertificate : Layout := .mk .syntheticCandidateCertificate [
    field "source_id" .id, field "source_version" .ver, field "source_digest" .hash,
    field "shape" (.text "single_resource_path_get_json_object"), field "actor_mode" (.enum .actor),
    field "scenario_manifest_digest" .hash, field "missing" (.array (.enum .missing) 0 8),
    field "decision_refs" (.array .id 7 7), field "valid_from" .time, field "expires_at" .time]

def questionManifest : Layout := .mk .questionManifest [
    field "scope" (.record scope), field "question_id" .id, field "entry" (.enum .entry),
    field "policy_version" (.text "ra-w2-necessity/1"), field "template" .label, field "initial_rule" .bool,
    field "local_policy_ref" (.nullable .id), field "rule" (.nullable (.record exactSource)),
    field "projection" (.nullable (.record projectionBinding)),
    field "candidate_refs" (.array (.record candidateRef) 0 2), field "synthetic_review_refs" (.array .id 0 2),
    field "missing" (.array (.enum .missing) 0 8), field "valid_from" .time, field "expires_at" .time]

def retrievalRequest : Layout := .mk .retrievalRequest [
    field "question_digest" .hash, field "purpose" (.text "offline_context_explanation"),
    field "keywords" (.array .word 0 8), field "tags" (.array (.enum .tag) 0 8),
    field "selected" (.array (.record exactSource) 1 32), field "top_k" (.int 4)]

def retrievalResult : Layout := .mk .retrievalResult [
    field "question_digest" .hash, field "bindings" (.array (.record projectionBinding) 0 4),
    field "projection_refs" (.array .hash 0 4), field "scores" (.array .score 0 4), field "evaluated_at" .time,
    field "expires_at" .time, field "audit_id" .id]

def preparation : Layout := .mk .preparation [
    field "question_digest" .hash, field "state" (.enum .preparationState),
    field "missing" (.array (.enum .missing) 0 8), field "template" (.nullable .label),
    field "references" (.array .id 0 4), field "prepared_ref" (.nullable .id),
    field "core_digest" (.nullable .hash), field "evaluated_at" .time, field "expires_at" .time]

def bindingCore : Layout := .mk .bindingCore [
    field "scope" (.record scope), field "question_id" .id, field "question_digest" .hash, field "call_ref" .call,
    field "attempt" (.int 1), field "w1_binding_digest" .hash, field "payload_digest" .hash,
    field "body_digest" .hash, field "registry_digest" .hash, field "configuration_digest" .hash,
    field "config_revision" .id, field "secret_ref" .id, field "secret_version" .id,
    field "necessity_version" (.text "ra-w2-necessity/1"),
    field "retrieval_version" (.text "ra-w2-retrieval/1"),
    field "projections" (.array (.record projectionBinding) 0 4),
    field "candidates" (.array (.record syntheticCandidateCertificate) 0 2), field "prompt_digest" .hash,
    field "schema_digest" .hash, field "model" (.text "gpt-5.6-terra"),
    field "profile" (.text "ra-openai-responses/1"),
    field "destination" (.text "https://api.openai.com:443/v1/responses"), field "method" (.text "POST"),
    field "reasoning" (.text "low"), field "input_limit" (.int 4096), field "output_limit" (.int 1024),
    field "reserved_tokens" .n, field "reserved_microusd" .n, field "rate_card" .rate,
    field "usage_mapping" .mapping, field "currency" (.text "USD"), field "token_bound_evidence_ref" .id,
    field "measurement_kind" (.text "synthetic"), field "valid_from" .time, field "expires_at" .time]

def reservation : Layout := .mk .reservation [
    field "key" (.record reservationKey), field "reservation_id" .id, field "owner_id" .id,
    field "owner_generation" .gen, field "input_limit" (.int 4096), field "output_limit" (.int 1024),
    field "reserved_tokens" .n, field "reserved_microusd" .n, field "currency" (.text "USD"),
    field "rate_card" .rate, field "usage_mapping" .mapping, field "expires_at" .time,
    field "measurement_kind" (.text "synthetic")]

def preparationAuthorityRead : Layout := .mk .preparationAuthorityRead [
    field "read" (.record readContext), field "question_digest" .hash, field "stage" (.enum .preparationStage)]

def preparationAuthorityView : Layout := .mk .preparationAuthorityView [
    field "scope" (.record scope), field "question_digest" .hash, field "registry_revision" .gen,
    field "policy_binding_ref" (.nullable .id), field "projections" (.array (.record projectionBinding) 0 4),
    field "candidates" (.array (.record syntheticCandidateCertificate) 0 2),
    field "missing" (.array (.enum .missing) 0 8), field "valid_from" .time, field "expires_at" .time,
    field "observed_cancel_generation" .gen]

def authorityRead : Layout := .mk .authorityRead [
    field "run" (.record runContext), field "key" (.record reservationKey), field "stage" (.enum .stage),
    field "expected_w1_digest" .hash, field "expected_config_revision" .id]

def authorityView : Layout := .mk .authorityView [
    field "key" (.record reservationKey), field "owner_generation" .gen, field "snapshot_ref" .id,
    field "snapshot_digest" .hash, field "valid_from" .time, field "expires_at" .time,
    field "observed_cancel_generation" .gen]

def admission : Layout := .mk .admission [
    field "key" (.record reservationKey), field "admission_id" .id, field "owner_generation" .gen,
    field "admitted_at" .time, field "expires_at" .time]

def acceptanceTicket : Layout := .mk .acceptanceTicket [
    field "ticket_id" .id, field "key_digest" .hash, field "deployment_ref" .id, field "authority_epoch" .id,
    field "acceptance_generation" .gen, field "owner_generation" .gen, field "body_digest" .hash,
    field "expires_at" .time]

def invalidationContext : Layout := .mk .invalidationContext [
    field "deployment_ref" .id, field "writer_id" .id, field "process_epoch" .id, field "deadline_at" .time,
    field "mono_deadline_ns" .n, field "cancellation_id" .id]

def invalidationRequest : Layout := .mk .invalidationRequest [
    field "operation_id" .id, field "operation_digest" .hash, field "deployment_ref" .id, field "writer_id" .id,
    field "action" (.text "INVALIDATE_DEPLOYMENT"), field "reason" (.enum .invalidationReason),
    field "deadline_at" .time]

def invalidationAck : Layout := .mk .invalidationAck [
    field "operation_id" .id, field "operation_digest" .hash, field "deployment_ref" .id,
    field "authority_epoch" .id, field "acceptance_generation" .gen, field "barrier_sequence" .positive,
    field "state" (.text "CLOSED"), field "disposition" (.enum .disposition), field "event_digest" .hash]

def invalidationResolution : Layout := .mk .invalidationResolution [
    field "operation_id" .id, field "operation_digest" .hash, field "deployment_ref" .id,
    field "barrier_digest" .hash, field "database_outcome" (.enum .databaseOutcome),
    field "transaction_evidence_ref" (.nullable .id)]

def reopenRequest : Layout := .mk .reopenRequest [
    field "deployment_ref" .id, field "recovery_decision_id" .id, field "expected_authority_epoch" .id,
    field "expected_acceptance_generation" .gen, field "pending_set_digest" .hash,
    field "transaction_evidence_digest" .hash, field "qualification_digest" .hash,
    field "stream_closure_evidence_digest" .hash]

def writerFence : Layout := .mk .writerFence [
    field "deployment_ref" .id, field "recovery_decision_id" .id, field "authority_epoch" .id,
    field "acceptance_generation" .gen]

def gateAck : Layout := .mk .gateAck [
    field "deployment_ref" .id, field "authority_epoch" .id, field "acceptance_generation" .gen,
    field "barrier_sequence" .positive, field "state" (.text "OPEN"), field "event_digest" .hash]

def sendPermit : Layout := .mk .sendPermit [
    field "key" (.record reservationKey), field "permit_id" .id, field "admission_id" .id,
    field "owner_generation" .gen, field "guard_epoch" .id, field "authority_epoch" .id,
    field "acceptance_generation" .gen, field "ticket_id" .id, field "body_digest" .hash,
    field "marker_event_id" .id, field "observer_epoch" .id, field "expires_at" .time]

def usageView : Layout := .mk .usageView [
    field "state" (.enum .usageState), field "input_tokens" (.nullable .n), field "output_tokens" (.nullable .n),
    field "cached_input_tokens" (.nullable .n), field "cache_write_tokens" (.nullable .n),
    field "reasoning_tokens" (.nullable .n), field "total_tokens" (.nullable .n), field "mapping" .mapping]

def observation : Layout := .mk .observation [
    field "key_digest" .hash, field "call_ref" .call, field "event_id" .id, field "observer_epoch" .id,
    field "authority_epoch" .id, field "acceptance_generation" .gen, field "sequence" .positive,
    field "owner_generation" .gen, field "kind" (.enum .observationKind), field "permit_id" (.nullable .id),
    field "body_digest" .hash, field "observed_at" .time, field "terminal" (.enum .terminal),
    field "usage" (.record usageView), field "evidence_digest" .hash]

def settlement : Layout := .mk .settlement [
    field "key_digest" .hash, field "settlement_id" .id, field "final_event_id" .id, field "revision" .gen,
    field "state" (.enum .settlementState), field "settled_tokens" .n, field "settled_microusd" .n,
    field "held_tokens" .n, field "held_microusd" .n, field "refund_tokens" .n, field "refund_microusd" .n,
    field "overrun_tokens" .n, field "overrun_microusd" .n, field "accounting_digest" .hash]

def completion : Layout := .mk .completion [
    field "key_digest" .hash, field "completion_id" .id, field "outcome_code" (.nullable .w1Code),
    field "delivery" (.enum .delivery), field "usage" (.record usageView),
    field "settlement_ref" (.nullable .id), field "display_state" (.enum .displayState),
    field "evaluated_at" .time, field "expires_at" .time]

def writeAck : Layout := .mk .writeAck [
    field "permit_id" .id, field "event_id" .id, field "sequence" .positive, field "accepted_at" .time]

def observationAck : Layout := .mk .observationAck [
    field "event_id" .id, field "sequence" .positive, field "event_digest" .hash]

def callEvidence : Layout := .mk .callEvidence [
    field "key_digest" .hash, field "evidence_digest" .hash]

def cancelAck : Layout := .mk .cancelAck [
    field "key_digest" .hash, field "cancellation_generation" .gen, field "state" (.text "CANCELLED")]

def error : Layout := .mk .error [
    field "code" (.enum .portCode), field "key_digest" (.nullable .hash)]

def scopeMapping : Layout := .mk .scopeMapping [
    field "scope" (.record scope), field "project_number" .positive, field "context_id" .positive,
    field "valid_from" .time, field "expires_at" .time]

def decision : Layout := .mk .decision [
    field "decision_id" .id, field "role" (.enum .decisionRole), field "source_id" .id,
    field "source_version" .ver, field "source_digest" .hash, field "projection_digest" .hash,
    field "actor" (.text "local_operator"), field "evidence" (.text "independent_synthetic_reviewed"),
    field "valid_from" .time, field "expires_at" .time]

def projectionReview : Layout := .mk .projectionReview [
    field "binding" (.record projectionBinding), field "content_digest" .hash, field "examples_digest" .hash,
    field "counterexamples_digest" .hash, field "reviewer_decision" .id, field "valid_from" .time,
    field "expires_at" .time]

def syntheticScenario : Layout := .mk .syntheticScenario [
    field "source_id" .id, field "source_version" .ver,
    field "shape" (.text "single_resource_path_get_json_object"), field "actor_mode" (.enum .actor),
    field "relationship" (.enum .relationship), field "expected_access" (.enum .expectedAccess),
    field "facts_ref" (.nullable .id), field "expectation_ref" (.nullable .id),
    field "authorship" (.text "independent_synthetic"), field "valid_from" .time, field "expires_at" .time]

def localPolicy : Layout := .mk .localPolicy [
    field "policy_ref" .id, field "policy_version" (.text "ra-w2-necessity/1"),
    field "rule" (.text "explicit_access_facts"), field "template" (.text "access-basis/1"),
    field "review_ref" .id, field "valid_from" .time, field "expires_at" .time]

def modelPermission : Layout := .mk .modelPermission [
    field "permission_id" .id, field "scope" (.record scope), field "config_revision" .id,
    field "account_ref" .id, field "secret_ref" .id, field "secret_version" .id, field "enabled" .bool,
    field "permissions" (.array (.enum .permission) 7 7), field "token_bound_evidence_ref" .id,
    field "valid_from" .time, field "expires_at" .time, field "measurement_kind" (.text "synthetic")]

def tokenCertificate : Layout := .mk .tokenCertificate [
    field "evidence_id" .id, field "config_revision" .id, field "model" (.text "gpt-5.6-terra"),
    field "profile" (.text "ra-openai-responses/1"), field "prompt_digest" .hash, field "schema_digest" .hash,
    field "projection_digest" .hash, field "counting_version" (.text "synthetic-fixture/1"),
    field "input_limit" (.int 4096), field "output_limit" (.int 1024),
    field "measurement_kind" (.text "synthetic"), field "valid_from" .time, field "expires_at" .time]

def taskManifest : Layout := .mk .taskManifest [
    field "scope" (.record scope), field "questions" (.array (.record questionManifest) 1 64),
    field "review_ref" .id, field "valid_from" .time, field "expires_at" .time]

/-- `LAYOUTS[name]`. -/
def of : Name → Layout
  | .scope => scope
  | .readContext => readContext
  | .runContext => runContext
  | .recoveryContext => recoveryContext
  | .exactSource => exactSource
  | .projectionBinding => projectionBinding
  | .candidateRef => candidateRef
  | .syntheticCandidateCertificate => syntheticCandidateCertificate
  | .questionManifest => questionManifest
  | .retrievalRequest => retrievalRequest
  | .retrievalResult => retrievalResult
  | .preparation => preparation
  | .bindingCore => bindingCore
  | .reservationKey => reservationKey
  | .reservation => reservation
  | .preparationAuthorityRead => preparationAuthorityRead
  | .preparationAuthorityView => preparationAuthorityView
  | .authorityRead => authorityRead
  | .authorityView => authorityView
  | .admission => admission
  | .acceptanceTicket => acceptanceTicket
  | .invalidationContext => invalidationContext
  | .invalidationRequest => invalidationRequest
  | .invalidationAck => invalidationAck
  | .invalidationResolution => invalidationResolution
  | .reopenRequest => reopenRequest
  | .writerFence => writerFence
  | .gateAck => gateAck
  | .sendPermit => sendPermit
  | .observation => observation
  | .usageView => usageView
  | .settlement => settlement
  | .completion => completion
  | .writeAck => writeAck
  | .observationAck => observationAck
  | .callEvidence => callEvidence
  | .cancelAck => cancelAck
  | .error => error
  | .scopeMapping => scopeMapping
  | .decision => decision
  | .projectionReview => projectionReview
  | .syntheticScenario => syntheticScenario
  | .localPolicy => localPolicy
  | .modelPermission => modelPermission
  | .tokenCertificate => tokenCertificate
  | .taskManifest => taskManifest

end Layout

end ApiSecurityPlatform.Ports
