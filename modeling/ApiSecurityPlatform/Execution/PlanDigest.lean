/-
# Execution.PlanDigest -- a plan is bound by its digest

`create_execution_plan` freezes the policy context as JSON, digests the plan and stores the
context in a `jsonb` column; `validate_persisted_plan_integrity` digests again what it
reads.  The digest names the whole plan (`digest_names_plan`), so the two agree exactly
when the context comes back from the column as it went in: when it has no float from 10^16
on and no `-0.0` (`created_plan_validates`).

SHA-256 is a function without collisions (`Digests`), and a context is what
`json.loads(json.dumps(..))` makes of it: the same values with tuples as lists and the
members of every object sorted.
-/
import ApiSecurityPlatform.Python.Json
import ApiSecurityPlatform.Network.Canonical
import ApiSecurityPlatform.Theory.Fallible

namespace ApiSecurityPlatform.Execution

open ApiSecurityPlatform.Theory
open ApiSecurityPlatform.Python
open ApiSecurityPlatform.Policies

set_option autoImplicit false

/-! ## Python values -/

inductive Key where
  | str (s : Str)
  | other
deriving DecidableEq

/-- What a caller may put into a policy context. -/
inductive Py (F : Type) where
  | none_
  | bool (b : Bool)
  | int (n : Int)
  | float (x : F)
  /-- `nan` and the infinities. -/
  | notFinite
  | str (s : Str)
  | list (items : List (Py F))
  | tuple (items : List (Py F))
  | dict (members : List (Key × Py F))
  /-- Anything `json.dumps` refuses. -/
  | other

namespace Py

variable {F : Type}

mutual

/-- A `dict` has every key once. -/
def Distinct : Py F → Prop
  | .list items => DistinctItems items
  | .tuple items => DistinctItems items
  | .dict members => (members.map Prod.fst).Nodup ∧ DistinctMembers members
  | _ => True

def DistinctItems : List (Py F) → Prop
  | [] => True
  | v :: rest => v.Distinct ∧ DistinctItems rest

def DistinctMembers : List (Key × Py F) → Prop
  | [] => True
  | (_, v) :: rest => v.Distinct ∧ DistinctMembers rest

end

mutual

/-- The floats anywhere in a value. -/
def floats : Py F → List F
  | .float x => [x]
  | .list items => itemFloats items
  | .tuple items => itemFloats items
  | .dict members => memberFloats members
  | _ => []

def itemFloats : List (Py F) → List F
  | [] => []
  | v :: rest => v.floats ++ itemFloats rest

def memberFloats : List (Key × Py F) → List F
  | [] => []
  | (_, v) :: rest => v.floats ++ memberFloats rest

end

mutual

/-- What `json.dumps` writes; `none` where it raises.  An integer of more than 4300 digits
has no decimal text. -/
def toJson : Py F → Option (Json F)
  | .none_ => some .null
  | .bool b => some (.bool b)
  | .int n => if n.natAbs < 10 ^ 4300 then some (.number (.int n)) else none
  | .float x => some (.number (.float x))
  | .notFinite => none
  | .str s => some (.string s)
  | .list items => (itemsToJson items).map .array
  | .tuple items => (itemsToJson items).map .array
  | .dict members => (membersToJson members).map .object
  | .other => none

def itemsToJson : List (Py F) → Option (List (Json F))
  | [] => some []
  | v :: rest => v.toJson.bind fun j => (itemsToJson rest).map (j :: ·)

def membersToJson : List (Key × Py F) → Option (List (Str × Json F))
  | [] => some []
  | (.str s, v) :: rest => v.toJson.bind fun j => (membersToJson rest).map ((s, j) :: ·)
  | (.other, _) :: _ => none

end

end Py

/-! ## Secrets -/

inductive PlanError where
  /-- `ExecutionPlanValidationError`. -/
  | validation (message : String)
  /-- What the scope policy raises on a URL. -/
  | policy (error : PolicyError)
  /-- An error of the database layer. -/
  | database
deriving DecidableEq

def refuseIf (condition : Prop) [Decidable condition] (error : PlanError) : Except PlanError Unit :=
  if condition then .error error else .ok ()

@[simp]
theorem refuseIf_ok {condition : Prop} [Decidable condition] {error : PlanError} {u : Unit} :
    refuseIf condition error = .ok u ↔ ¬ condition := by
  unfold refuseIf
  split <;> simp_all

def orRefuse {α : Type} (error : PlanError) : Option α → Except PlanError α
  | none => .error error
  | some a => .ok a

@[simp]
theorem orRefuse_ok {α : Type} {error : PlanError} {x : Option α} {a : α} :
    orRefuse error x = .ok a ↔ x = some a := by
  cases x <;> simp [orRefuse]

def fromPolicy {α : Type} : Except PolicyError α → Except PlanError α
  | .error e => .error (.policy e)
  | .ok a => .ok a

def secretKeyBases : List Str :=
  ["authorization", "cookie", "setcookie", "apikey", "xapikey", "bearer", "bearertoken", "accesstoken",
    "refreshtoken", "clientsecret", "password", "passwd", "session", "sessionid", "sessiontoken"].map String.toList

def secretKeyQualifiers : List Str := ["material", "header", "secret", "token", "value"].map String.toList

/-- The `while remainder` loop; no qualifier is empty, so the length is fuel enough. -/
def onlyQualifiers : Nat → Str → Bool
  | _, [] => true
  | 0, _ :: _ => false
  | fuel + 1, remainder =>
      match secretKeyQualifiers.find? fun q => q.isPrefixOf remainder with
      | none => false
      | some q => onlyQualifiers fuel (remainder.drop q.length)

def isSecretBearingKey (U : Unicode) (key : Str) : Bool :=
  let normalized := (U.lower key).filter fun c => ('a' ≤ c && c ≤ 'z') || isDigit c
  secretKeyBases.any fun base => base.isPrefixOf normalized &&
    onlyQualifiers normalized.length (normalized.drop base.length)

/-- `re.match(r"^\s*bearer\s+\S", value, re.I)`. -/
def startsBearer (value : Str) : Bool :=
  let text := lstrip isSpace value
  (text.take 6).map Char.toLower == "bearer".toList && ((text.drop 6).head?.map isSpace).getD false &&
    !(lstrip isSpace (text.drop 6)).isEmpty

section Context

variable {F : Type} (U : Unicode) (D : Doubles F)

def secretMaterial : PlanError := .validation "policy_context contains secret-bearing material"

mutual

/-- `_reject_secret_context`. -/
def rejectSecretContext : Py F → Except PlanError Unit
  | .dict members => rejectSecretMembers members
  | .list items => rejectSecretItems items
  | .tuple items => rejectSecretItems items
  | .str s => refuseIf (startsBearer s) secretMaterial
  | _ => .ok ()

def rejectSecretItems : List (Py F) → Except PlanError Unit
  | [] => .ok ()
  | v :: rest => do
      rejectSecretContext v
      rejectSecretItems rest

def rejectSecretMembers : List (Key × Py F) → Except PlanError Unit
  | [] => .ok ()
  | (.other, _) :: _ => .error (.validation "policy_context object keys must be strings")
  | (.str key, v) :: rest => do
      refuseIf (isSecretBearingKey U key) secretMaterial
      rejectSecretContext v
      rejectSecretMembers rest

end

/-- A policy context with its keys distinct, as any `dict` has them. -/
abbrev PolicyContext (F : Type) := { v : Py F // v.Distinct }

def PolicyContext.empty : PolicyContext F := ⟨.dict [], List.nodup_nil, trivial⟩

def isContainer : Py F → Bool
  | .dict _ => true
  | .list _ => true
  | .tuple _ => true
  | _ => false

def maxPolicyContextBytes : Nat := 16 * 1024

/-- `len(text.encode("utf-8"))`. -/
def utf8Length (text : Str) : Nat := (text.map Char.utf8Size).sum

def canonicalizePolicyContext (context : Option (PolicyContext F)) : Except PlanError (Json F) := do
  let value := (context.getD .empty).1
  refuseIf (isContainer value = false) (.validation "policy_context must be a JSON object or array")
  rejectSecretContext U value
  let written ← orRefuse (.validation "policy_context must be JSON-serializable") value.toJson
  refuseIf (maxPolicyContextBytes < utf8Length (written.canonicalJson D))
    (.validation "policy_context exceeds size limit")
  return written.sorted

end Context

/-! ## The digest -/

/-- `hashlib.sha256(text.encode("utf-8")).hexdigest()`, taken to be free of collisions.
Hence the digests are a type of their own, and `shape` is the check for 64 hexadecimal
digits on them. -/
structure Digests (Δ : Type) where
  sha256 : Str → Δ
  shape : Δ → Bool
  hex : ∀ text, shape (sha256 text) = true
  injective : ∀ a b, sha256 a = sha256 b → a = b

structure PlanActionInput where
  method : Str
  url : Str
  testCaseId : Option Nat
  resourceId : Option Nat
deriving DecidableEq

section Digest

variable {F : Type}

def jsonNat (n : Nat) : Json F := .number (.int n)

def jsonId (id : Option Nat) : Json F := id.elim .null jsonNat

def digestVersion : Str := "v1".toList

def actionJson (ordinal : Nat) (action : PlanActionInput) : Json F :=
  .object [("ordinal".toList, jsonNat ordinal), ("method".toList, .string action.method),
    ("url".toList, .string action.url), ("test_case_id".toList, jsonId action.testCaseId),
    ("resource_id".toList, jsonId action.resourceId)]

/-- `enumerate(actions, start=ordinal)`. -/
def actionsJson (ordinal : Nat) : List PlanActionInput → List (Json F)
  | [] => []
  | action :: rest => actionJson ordinal action :: actionsJson (ordinal + 1) rest

/-- What a digest is taken of. -/
structure PlanBody (F : Type) where
  targetId : Nat
  authorizationRevisionId : Nat
  actorIdentityId : Nat
  credentialBindingId : Option Nat
  policyContext : Json F
  actions : List PlanActionInput

def PlanBody.payload (b : PlanBody F) : Json F :=
  .object [("digest_version".toList, .string digestVersion), ("target_id".toList, jsonNat b.targetId),
    ("authorization_revision_id".toList, jsonNat b.authorizationRevisionId),
    ("actor_identity_id".toList, jsonNat b.actorIdentityId),
    ("credential_binding_id".toList, jsonId b.credentialBindingId),
    ("policy_context".toList, b.policyContext), ("action_count".toList, jsonNat b.actions.length),
    ("actions".toList, .array (actionsJson 1 b.actions))]

def computePlanDigestV1 {Δ : Type} (S : Digests Δ) (D : Doubles F) (body : PlanBody F) : Δ :=
  S.sha256 (body.payload.canonicalJson D)

end Digest

/-! ## Creating a plan -/

structure TargetRow where
  id : Nat
  authorizationProfileId : Option Nat
  authorizationRevisionId : Option Nat
  baseUrl : Str

structure TestIdentityRow where
  id : Nat
  targetId : Nat
  authType : Str

structure CredentialBindingRow where
  testIdentityId : Nat
  isActive : Bool
  authType : Str

structure TestCaseRow where
  id : Nat
  testType : Str
  endpointId : Nat
  resourceId : Nat
  actorIdentityId : Nat

/-- The rows a plan is checked against; of an endpoint and a resource only the target is
read. -/
structure Registry where
  target : Nat → Option TargetRow
  revision : Nat → Option AuthorizationRevision
  identity : Nat → Option TestIdentityRow
  binding : Nat → Option CredentialBindingRow
  resource : Nat → Option Nat
  endpoint : Nat → Option Nat
  testCase : Nat → Option TestCaseRow
  /-- The case is a member of a research intent plan. -/
  intentMember : Nat → Bool

structure PlanRequest (F : Type) where
  targetId : Nat
  authorizationRevisionId : Nat
  actorIdentityId : Nat
  credentialBindingId : Option Nat
  actions : List PlanActionInput
  policyContext : Option (PolicyContext F)

def maxPlanActions : Nat := 100

def maxActionUrlLength : Nat := 2048

section Checks

variable (U : Unicode)

/-- The part of a URL from its path on. -/
def urlRest (url : Str) : Str :=
  Network.afterNetloc (Network.schemeSplit U (Network.cleaned url)).2

def parseQsl (query : Str) : List (Str × Str) :=
  let spaced (s : Str) : Str := s.map fun c => if c = '+' then ' ' else c
  ((split '&' query).filter fun field => !field.isEmpty).map fun field =>
    (unquote (spaced (partition '=' field).1), unquote (spaced (partition '=' field).2.2))

def rejectSecretUrl (url : Str) : Except PlanError Unit := do
  refuseIf ((partition '#' (urlRest U url)).2.2 ≠ []) (.validation "action URL fragments are not allowed")
  refuseIf ((parseQsl (partition '?' (partition '#' (urlRest U url)).1).2.2).any fun (key, value) =>
    isSecretBearingKey U key || startsBearer value) (.validation "action URL contains secret-bearing material")

variable (registry : Registry)

/-- The provenance of one action. -/
def checkProvenance (targetId : Nat) (action : PlanActionInput) : Except PlanError Unit := do
  match action.resourceId with
  | none => pure ()
  | some id =>
      refuseIf (registry.resource id ≠ some targetId)
        (.validation "resource provenance does not belong to target")
  match action.testCaseId with
  | none => pure ()
  | some id => do
      let testCase ← orRefuse (.validation "test case provenance does not belong to target") (registry.testCase id)
      refuseIf (registry.endpoint testCase.endpointId ≠ some targetId ∨
          registry.resource testCase.resourceId ≠ some targetId ∨
          (registry.identity testCase.actorIdentityId).map TestIdentityRow.targetId ≠ some targetId ∨
          action.resourceId ≠ none ∧ action.resourceId ≠ some testCase.resourceId)
        (.validation "test case provenance does not belong to target")

def checkAction (target : TargetRow) (origin : Origin) (action : PlanActionInput) : Except PlanError Unit := do
  refuseIf (action.method ≠ "GET".toList) (.validation "planned actions must use GET")
  refuseIf (action.url = [] ∨ maxActionUrlLength < action.url.length)
    (.validation "action URL is invalid or too long")
  let actionOrigin ← fromPolicy (parseOrigin U action.url)
  refuseIf (actionOrigin ≠ origin) (.validation "action URL is outside target origin")
  let _ ← fromPolicy (normalizeRequestPath U action.url)
  rejectSecretUrl U action.url
  checkProvenance registry target.id action

def checkActions (target : TargetRow) (origin : Origin) : List PlanActionInput → Except PlanError Unit
  | [] => .ok ()
  | action :: rest => do
      checkAction U registry target origin action
      checkActions target origin rest

def isAnonymous (authType : Str) : Bool := authType == "none".toList || authType == "anonymous".toList

/-- The rows of the target, the revision, the actor and the binding. -/
def checkRows {F : Type} (request : PlanRequest F) : Except PlanError TargetRow := do
  let target ← orRefuse (.validation "target and revision must exist") (registry.target request.targetId)
  let revision ← orRefuse (.validation "target and revision must exist")
    (registry.revision request.authorizationRevisionId)
  refuseIf (target.authorizationRevisionId ≠ some revision.id) (.validation "revision is not bound to target")
  refuseIf (target.authorizationProfileId ≠ some revision.authorizationProfileId ∨
    revision.lifecycleState ≠ .active) (.validation "revision is not active for target")
  let actor ← orRefuse (.validation "actor does not belong to target") (registry.identity request.actorIdentityId)
  refuseIf (actor.targetId ≠ target.id) (.validation "actor does not belong to target")
  refuseIf (isAnonymous actor.authType ∧ request.credentialBindingId ≠ none)
    (.validation "anonymous actor cannot select a credential binding")
  refuseIf (¬ isAnonymous actor.authType ∧ request.credentialBindingId = none)
    (.validation "authenticated actor requires an exact credential binding")
  match request.credentialBindingId with
  | none => pure ()
  | some id => do
      let binding ← orRefuse (.validation "credential binding is not active for actor") (registry.binding id)
      refuseIf (binding.testIdentityId ≠ actor.id ∨ binding.isActive = false ∨ binding.authType ≠ actor.authType)
        (.validation "credential binding is not active for actor")
  return target

/-- `reject_case` of every planned test case, and the reserved context key. -/
def rejectIntent {F : Type} (request : PlanRequest F) : Except PlanError Unit := do
  let reserved := match (request.policyContext.getD .empty).1 with
    | .dict members => members.any fun m => decide (m.1 = .str "research_intent".toList)
    | _ => false
  refuseIf (reserved = true) (.validation "intent_w2_execution_closed")
  refuseIf (request.actions.any fun action =>
    match action.testCaseId.bind registry.testCase with
    | none => false
    | some testCase => "ra_".toList.isPrefixOf testCase.testType || registry.intentMember testCase.id)
    (.validation "intent_w2_execution_closed")

end Checks

/-! ## The stored plan -/

structure PlanRow (F Δ : Type) where
  id : Nat
  targetId : Nat
  authorizationRevisionId : Nat
  actorIdentityId : Nat
  credentialBindingId : Option Nat
  digestVersion : Str
  planDigest : Δ
  actionCount : Nat
  /-- As the `jsonb` column gives it back. -/
  policyContext : Json F

structure PlanActionRow where
  id : Nat
  executionPlanId : Nat
  ordinal : Nat
  action : PlanActionInput

/-- `execution_plans` and `plan_actions`, with the foreign key between them. -/
structure PlanStore (F Δ : Type) where
  plans : List (PlanRow F Δ)
  actions : List PlanActionRow
  owned : ∀ a ∈ actions, ∃ p ∈ plans, p.id = a.executionPlanId

/-- The action rows of a new plan, in the order of their ordinals. -/
def actionRows (planId : Nat) : Nat → Nat → List PlanActionInput → List PlanActionRow
  | _, _, [] => []
  | id, ordinal, action :: rest => ⟨id, planId, ordinal, action⟩ :: actionRows planId (id + 1) (ordinal + 1) rest

theorem mem_actionRows {planId id ordinal : Nat} {actions : List PlanActionInput} {row : PlanActionRow}
    (mem : row ∈ actionRows planId id ordinal actions) :
    row.executionPlanId = planId ∧ ordinal ≤ row.ordinal := by
  induction actions generalizing id ordinal with
  | nil => cases mem
  | cons action rest ih =>
      rcases List.mem_cons.1 mem with rfl | later
      · exact ⟨rfl, le_rfl⟩
      · obtain ⟨plan, bound⟩ := ih later
        exact ⟨plan, by omega⟩

section Plans

variable {F Δ : Type}

/-- `db.add(plan); db.flush()`: the ids come from the sequences of the tables. -/
def insertPlan (store : PlanStore F Δ) (row : PlanRow F Δ) (firstActionId : Nat) (actions : List PlanActionInput) :
    PlanStore F Δ where
  plans := store.plans ++ [row]
  actions := store.actions ++ actionRows row.id firstActionId 1 actions
  owned := by
    intro a mem
    rcases List.mem_append.1 mem with old | new
    · obtain ⟨p, inside, same⟩ := store.owned a old
      exact ⟨p, List.mem_append_left _ inside, same⟩
    · exact ⟨row, by simp, (mem_actionRows new).1.symm⟩

variable (S : Digests Δ) (U : Unicode) (D : Doubles F) (registry : Registry)

def createExecutionPlan (request : PlanRequest F) (planId firstActionId : Nat) (store : PlanStore F Δ) :
    Except PlanError (PlanStore F Δ × PlanRow F Δ) := do
  rejectIntent registry request
  refuseIf (¬ (1 ≤ request.actions.length ∧ request.actions.length ≤ maxPlanActions))
    (.validation "plan must contain 1..100 actions")
  let target ← checkRows registry request
  let origin ← fromPolicy (parseOrigin U target.baseUrl)
  checkActions U registry target origin request.actions
  let frozen ← canonicalizePolicyContext U D request.policyContext
  let digest := computePlanDigestV1 S D ⟨request.targetId, request.authorizationRevisionId,
    request.actorIdentityId, request.credentialBindingId, frozen, request.actions⟩
  refuseIf (∃ p ∈ store.plans, p.id = planId) .database
  let row : PlanRow F Δ := ⟨planId, request.targetId, request.authorizationRevisionId, request.actorIdentityId,
    request.credentialBindingId, digestVersion, digest, request.actions.length, frozen.fromJsonb D⟩
  return (insertPlan store row firstActionId request.actions, row)

/-! ## Reading it back -/

inductive IntegrityError where
  | unavailable
  | ordering
  | contract
  | count
  | digest
deriving DecidableEq, Repr

/-- `ORDER BY ordinal, id`. -/
def ordinalLe (a b : PlanActionRow) : Prop := a.ordinal < b.ordinal ∨ a.ordinal = b.ordinal ∧ a.id ≤ b.id

instance : DecidableRel ordinalLe := fun _ _ => inferInstanceAs (Decidable (_ ∨ _))

/-- `_load_plan_snapshot`. -/
def loadPlanSnapshot (store : PlanStore F Δ) (planId : Nat) : Except IntegrityError (PlanRow F Δ × List PlanActionRow) :=
  match store.plans.find? fun p => p.id = planId with
  | none => .error .unavailable
  | some plan =>
      let actions := (store.actions.filter fun a => a.executionPlanId = planId).insertionSort ordinalLe
      if actions.map PlanActionRow.ordinal = List.range' 1 actions.length then .ok (plan, actions)
      else .error .ordering

/-- `_validate_digest_contract`. -/
def digestContract (plan : PlanRow F Δ) : Bool :=
  plan.digestVersion == digestVersion && S.shape plan.planDigest

/-- What the digest of a stored plan is recomputed of. -/
def PlanRow.body (plan : PlanRow F Δ) (actions : List PlanActionRow) : PlanBody F :=
  ⟨plan.targetId, plan.authorizationRevisionId, plan.actorIdentityId, plan.credentialBindingId,
    plan.policyContext, actions.map PlanActionRow.action⟩

def validatePersistedPlanIntegrity [DecidableEq Δ] (store : PlanStore F Δ) (planId : Nat) : Except IntegrityError (PlanRow F Δ) := do
  let snapshot ← loadPlanSnapshot store planId
  if digestContract S snapshot.1 = false then .error .contract
  else if snapshot.1.actionCount ≠ snapshot.2.length then .error .count
  else if computePlanDigestV1 S D (snapshot.1.body snapshot.2) ≠ snapshot.1.planDigest then .error .digest
  else .ok snapshot.1

end Plans

/-! ## The digest names the plan -/

section Names

variable {F : Type}

/-- Equal in everything a digest is taken of; the members of a context have no order. -/
structure PlanBody.Same (b b' : PlanBody F) : Prop where
  targetId : b.targetId = b'.targetId
  authorizationRevisionId : b.authorizationRevisionId = b'.authorizationRevisionId
  actorIdentityId : b.actorIdentityId = b'.actorIdentityId
  credentialBindingId : b.credentialBindingId = b'.credentialBindingId
  policyContext : b.policyContext.sorted = b'.policyContext.sorted
  actions : b.actions = b'.actions

theorem jsonNat_sorted (n : Nat) : (jsonNat n : Json F).sorted = jsonNat n := rfl

theorem jsonId_sorted (id : Option Nat) : (jsonId id : Json F).sorted = jsonId id := by
  cases id <;> rfl

theorem jsonNat_injective {n m : Nat} (same : (jsonNat n : Json F) = jsonNat m) : n = m := by
  simpa [jsonNat] using same

theorem jsonId_injective {a b : Option Nat} (same : (jsonId a : Json F) = jsonId b) : a = b := by
  cases a <;> cases b <;> simp_all [jsonId, jsonNat]

theorem actionJson_injective {ordinal : Nat} {a b : PlanActionInput}
    (same : (actionJson ordinal a : Json F).sorted = (actionJson ordinal b).sorted) : a = b := by
  have keys : (["ordinal", "method", "url", "test_case_id", "resource_id"].map String.toList).Nodup := by decide
  have members := Json.sortedMembers_of_sorted same rfl keys
  simp only [Json.sortedMembers, List.cons.injEq, Prod.mk.injEq, true_and, and_true, jsonId_sorted] at members
  obtain ⟨method, url, testCase, resource⟩ := members
  simp only [Json.sorted, Json.string.injEq] at method url
  obtain ⟨m, u, t, r⟩ := a
  obtain ⟨m', u', t', r'⟩ := b
  simp only at method url testCase resource
  rw [method, url, jsonId_injective testCase, jsonId_injective resource]

theorem actionsJson_injective {ordinal : Nat} {as bs : List PlanActionInput}
    (same : Json.sortedItems (actionsJson ordinal as : List (Json F)) = Json.sortedItems (actionsJson ordinal bs)) :
    as = bs := by
  induction as generalizing ordinal bs with
  | nil =>
      cases bs with
      | nil => rfl
      | cons b rest => simp [actionsJson, Json.sortedItems] at same
  | cons a rest ih =>
      cases bs with
      | nil => simp [actionsJson, Json.sortedItems] at same
      | cons b rest' =>
          rw [actionsJson, actionsJson, Json.sortedItems, Json.sortedItems, List.cons.injEq] at same
          rw [actionJson_injective same.1, ih same.2]

theorem payload_sorted_iff (b b' : PlanBody F) : b.payload.sorted = b'.payload.sorted ↔ b.Same b' := by
  constructor
  · intro same
    have keys : (["digest_version", "target_id", "authorization_revision_id", "actor_identity_id",
        "credential_binding_id", "policy_context", "action_count", "actions"].map String.toList).Nodup := by decide
    have members := Json.sortedMembers_of_sorted same rfl keys
    simp only [Json.sortedMembers, List.cons.injEq, Prod.mk.injEq, true_and, and_true, jsonId_sorted,
      jsonNat_sorted] at members
    obtain ⟨target, revision, actor, binding, context, -, actions⟩ := members
    simp only [Json.sorted, Json.array.injEq] at actions
    exact ⟨jsonNat_injective target, jsonNat_injective revision, jsonNat_injective actor, jsonId_injective binding,
      context, actionsJson_injective actions⟩
  · intro same
    unfold PlanBody.payload
    simp only [Json.sorted, Json.sortedMembers, same.targetId, same.authorizationRevisionId, same.actorIdentityId,
      same.credentialBindingId, same.policyContext, same.actions]

/-- **The digest names the plan.** -/
theorem digest_names_plan {Δ : Type} (S : Digests Δ) (D : Doubles F) (b b' : PlanBody F) :
    computePlanDigestV1 S D b = computePlanDigestV1 S D b' ↔ b.Same b' := by
  rw [← payload_sorted_iff]
  constructor
  · intro same
    exact Json.canonicalJson_injective D (S.injective _ _ same)
  · intro same
    rw [computePlanDigestV1, computePlanDigestV1, Json.canonicalJson, Json.canonicalJson, same]

end Names

/-! ## The frozen context -/

namespace Py

variable {F : Type} (D : Doubles F)

theorem membersToJson_keys {members : List (Key × Py F)} {written : List (Str × Json F)}
    (writes : membersToJson members = some written) :
    written.map (fun m => Key.str m.1) = members.map Prod.fst := by
  induction members generalizing written with
  | nil =>
      obtain rfl := Option.some.inj writes
      rfl
  | cons m rest ih =>
      obtain ⟨key, v⟩ := m
      cases key with
      | other => cases writes
      | str s =>
          rw [membersToJson, Option.bind_eq_some_iff] at writes
          obtain ⟨j, -, more⟩ := writes
          obtain ⟨js, others, rfl⟩ := Option.map_eq_some_iff.1 more
          rw [List.map_cons, List.map_cons, ih others]

mutual

theorem toJson_distinct (v : Py F) (distinct : v.Distinct) {j : Json F} (writes : v.toJson = some j) : j.Distinct := by
  cases v with
  | none_ => obtain rfl := Option.some.inj writes; trivial
  | bool b => obtain rfl := Option.some.inj writes; trivial
  | int n =>
      rw [toJson] at writes
      split at writes
      · obtain rfl := Option.some.inj writes
        trivial
      · cases writes
  | float x => obtain rfl := Option.some.inj writes; trivial
  | notFinite => cases writes
  | str s => obtain rfl := Option.some.inj writes; trivial
  | list items =>
      obtain ⟨js, others, rfl⟩ := Option.map_eq_some_iff.1 writes
      exact itemsToJson_distinct items distinct others
  | tuple items =>
      obtain ⟨js, others, rfl⟩ := Option.map_eq_some_iff.1 writes
      exact itemsToJson_distinct items distinct others
  | dict members =>
      obtain ⟨js, others, rfl⟩ := Option.map_eq_some_iff.1 writes
      refine ⟨?_, membersToJson_distinct members distinct.2 others⟩
      have keys := distinct.1
      rw [← membersToJson_keys others] at keys
      have grouped : js.map (fun m => Key.str m.1) = (js.map Prod.fst).map Key.str := by simp
      rw [grouped] at keys
      exact keys.of_map
  | other => cases writes

theorem itemsToJson_distinct (items : List (Py F)) (distinct : DistinctItems items) {js : List (Json F)}
    (writes : itemsToJson items = some js) : Json.DistinctItems js := by
  cases items with
  | nil => obtain rfl := Option.some.inj writes; trivial
  | cons v rest =>
      rw [itemsToJson, Option.bind_eq_some_iff] at writes
      obtain ⟨j, first, more⟩ := writes
      obtain ⟨js, others, rfl⟩ := Option.map_eq_some_iff.1 more
      exact ⟨toJson_distinct v distinct.1 first, itemsToJson_distinct rest distinct.2 others⟩

theorem membersToJson_distinct (members : List (Key × Py F)) (distinct : DistinctMembers members)
    {js : List (Str × Json F)} (writes : membersToJson members = some js) : Json.DistinctMembers js := by
  cases members with
  | nil => obtain rfl := Option.some.inj writes; trivial
  | cons m rest =>
      obtain ⟨key, v⟩ := m
      cases key with
      | other => cases writes
      | str s =>
          rw [membersToJson, Option.bind_eq_some_iff] at writes
          obtain ⟨j, first, more⟩ := writes
          obtain ⟨js, others, rfl⟩ := Option.map_eq_some_iff.1 more
          exact ⟨toJson_distinct v distinct.1 first, membersToJson_distinct rest distinct.2 others⟩

end

mutual

/-- The floats of a context are those of its JSON. -/
theorem toJson_plain (v : Py F) {j : Json F} (writes : v.toJson = some j) :
    j.Plain D ↔ ∀ x ∈ v.floats, (D.decimal x).Plain := by
  cases v with
  | none_ => obtain rfl := Option.some.inj writes; simp [Json.Plain, floats]
  | bool b => obtain rfl := Option.some.inj writes; simp [Json.Plain, floats]
  | int n =>
      rw [toJson] at writes
      split at writes
      · obtain rfl := Option.some.inj writes
        simp [Json.Plain, Number.Plain, floats]
      · cases writes
  | float x => obtain rfl := Option.some.inj writes; simp [Json.Plain, Number.Plain, floats]
  | notFinite => cases writes
  | str s => obtain rfl := Option.some.inj writes; simp [Json.Plain, floats]
  | list items =>
      obtain ⟨js, others, rfl⟩ := Option.map_eq_some_iff.1 writes
      exact itemsToJson_plain items others
  | tuple items =>
      obtain ⟨js, others, rfl⟩ := Option.map_eq_some_iff.1 writes
      exact itemsToJson_plain items others
  | dict members =>
      obtain ⟨js, others, rfl⟩ := Option.map_eq_some_iff.1 writes
      exact membersToJson_plain members others
  | other => cases writes

theorem itemsToJson_plain (items : List (Py F)) {js : List (Json F)} (writes : itemsToJson items = some js) :
    Json.PlainItems D js ↔ ∀ x ∈ itemFloats items, (D.decimal x).Plain := by
  cases items with
  | nil => obtain rfl := Option.some.inj writes; simp [Json.PlainItems, itemFloats]
  | cons v rest =>
      rw [itemsToJson, Option.bind_eq_some_iff] at writes
      obtain ⟨j, first, more⟩ := writes
      obtain ⟨js, others, rfl⟩ := Option.map_eq_some_iff.1 more
      rw [Json.PlainItems, toJson_plain v first, itemsToJson_plain rest others, itemFloats, List.forall_mem_append]

theorem membersToJson_plain (members : List (Key × Py F)) {js : List (Str × Json F)}
    (writes : membersToJson members = some js) :
    Json.PlainMembers D js ↔ ∀ x ∈ memberFloats members, (D.decimal x).Plain := by
  cases members with
  | nil => obtain rfl := Option.some.inj writes; simp [Json.PlainMembers, memberFloats]
  | cons m rest =>
      obtain ⟨key, v⟩ := m
      cases key with
      | other => cases writes
      | str s =>
          rw [membersToJson, Option.bind_eq_some_iff] at writes
          obtain ⟨j, first, more⟩ := writes
          obtain ⟨js, others, rfl⟩ := Option.map_eq_some_iff.1 more
          rw [Json.PlainMembers, toJson_plain v first, membersToJson_plain rest others, memberFloats,
            List.forall_mem_append]

end

end Py

/-! ## Creation, then validation -/

section Created

variable {F Δ : Type} {S : Digests Δ} {U : Unicode} {D : Doubles F} {registry : Registry}
  {request : PlanRequest F} {planId firstActionId : Nat} {store store' : PlanStore F Δ} {row : PlanRow F Δ}

theorem canonicalizePolicyContext_ok {context : Option (PolicyContext F)} {frozen : Json F}
    (froze : canonicalizePolicyContext U D context = .ok frozen) :
    ∃ written, (context.getD .empty).1.toJson = some written ∧ frozen = written.sorted := by
  simp only [canonicalizePolicyContext, bind_ok, refuseIf_ok, orRefuse_ok] at froze
  obtain ⟨-, -, -, -, written, writes, -, -, same⟩ := froze
  exact ⟨written, writes, (Except.ok.inj same).symm⟩

/-- The body of a request with its context frozen. -/
def PlanRequest.body (request : PlanRequest F) (frozen : Json F) : PlanBody F :=
  ⟨request.targetId, request.authorizationRevisionId, request.actorIdentityId, request.credentialBindingId,
    frozen, request.actions⟩

theorem createExecutionPlan_ok
    (created : createExecutionPlan S U D registry request planId firstActionId store = .ok (store', row)) :
    ∃ frozen, canonicalizePolicyContext U D request.policyContext = .ok frozen ∧
      (∀ p ∈ store.plans, p.id ≠ planId) ∧
      row = ⟨planId, request.targetId, request.authorizationRevisionId, request.actorIdentityId,
        request.credentialBindingId, digestVersion, computePlanDigestV1 S D (request.body frozen),
        request.actions.length, frozen.fromJsonb D⟩ ∧
      store' = insertPlan store row firstActionId request.actions := by
  simp only [createExecutionPlan, bind_ok, refuseIf_ok] at created
  obtain ⟨-, -, -, -, target, -, origin, -, -, -, frozen, froze, -, fresh, same⟩ := created
  obtain ⟨rfl, rfl⟩ := Prod.mk.inj (Except.ok.inj same)
  exact ⟨frozen, froze, fun p inside same => fresh ⟨p, inside, same⟩, rfl, rfl⟩

theorem actionRows_sorted (planId id ordinal : Nat) (actions : List PlanActionInput) :
    (actionRows planId id ordinal actions).Pairwise ordinalLe := by
  induction actions generalizing id ordinal with
  | nil => exact .nil
  | cons action rest ih =>
      refine .cons (fun row mem => .inl ?_) (ih _ _)
      have later := (mem_actionRows mem).2
      exact later

theorem actionRows_ordinals (planId id ordinal : Nat) (actions : List PlanActionInput) :
    (actionRows planId id ordinal actions).map PlanActionRow.ordinal = List.range' ordinal actions.length := by
  induction actions generalizing id ordinal with
  | nil => rfl
  | cons action rest ih => rw [actionRows, List.map_cons, ih, List.length_cons, List.range'_succ]

theorem actionRows_actions (planId id ordinal : Nat) (actions : List PlanActionInput) :
    (actionRows planId id ordinal actions).map PlanActionRow.action = actions := by
  induction actions generalizing id ordinal with
  | nil => rfl
  | cons action rest ih => rw [actionRows, List.map_cons, ih]

/-- A plan is read with the actions it was inserted with. -/
theorem loadPlanSnapshot_insertPlan (firstActionId : Nat) (fresh : ∀ p ∈ store.plans, p.id ≠ row.id) (actions : List PlanActionInput) :
    loadPlanSnapshot (insertPlan store row firstActionId actions) row.id =
      .ok (row, actionRows row.id firstActionId 1 actions) := by
  have found : (store.plans ++ [row]).find? (fun p => p.id = row.id) = some row := by
    rw [List.find?_append, List.find?_eq_none.2 fun p inside => by simpa using fresh p inside]
    simp
  have old : store.actions.filter (fun a => a.executionPlanId = row.id) = [] := by
    refine List.filter_eq_nil_iff.2 fun a mem => ?_
    obtain ⟨p, inside, same⟩ := store.owned a mem
    simpa [← same] using fresh p inside
  have new : (actionRows row.id firstActionId 1 actions).filter (fun a => a.executionPlanId = row.id) =
      actionRows row.id firstActionId 1 actions :=
    List.filter_eq_self.2 fun a mem => by simpa using (mem_actionRows mem).1
  have length : (actionRows row.id firstActionId 1 actions).length = actions.length := by
    rw [← List.length_map PlanActionRow.action, actionRows_actions]
  unfold loadPlanSnapshot
  simp only [insertPlan, found, List.filter_append, old, new, List.nil_append,
    (actionRows_sorted row.id firstActionId 1 actions).insertionSort_eq, actionRows_ordinals, length, if_true]

/-- A stored plan validates exactly when its context came back as it went in. -/
theorem validate_insertPlan_iff [DecidableEq Δ] {frozen : Json F} (fresh : ∀ p ∈ store.plans, p.id ≠ planId)
    (same : row = ⟨planId, request.targetId, request.authorizationRevisionId, request.actorIdentityId,
      request.credentialBindingId, digestVersion, computePlanDigestV1 S D (request.body frozen),
      request.actions.length, frozen.fromJsonb D⟩) :
    validatePersistedPlanIntegrity S D (insertPlan store row firstActionId request.actions) planId = .ok row ↔
      (frozen.fromJsonb D).sorted = frozen.sorted := by
  have atPlan : row.id = planId := by rw [same]
  have loaded := loadPlanSnapshot_insertPlan firstActionId
    (fun p inside => atPlan ▸ fresh p inside) request.actions
  rw [atPlan] at loaded
  have contract : digestContract S row = true := by
    rw [same]
    simp [digestContract, computePlanDigestV1, S.hex]
  have count : row.actionCount = (actionRows planId firstActionId 1 request.actions).length := by
    rw [same, ← List.length_map PlanActionRow.action, actionRows_actions]
  have digest : row.planDigest = computePlanDigestV1 S D (request.body frozen) := by rw [same]
  have body : row.body (actionRows planId firstActionId 1 request.actions) = request.body (frozen.fromJsonb D) := by
    rw [same, PlanRow.body, actionRows_actions]
    rfl
  have outcome : validatePersistedPlanIntegrity S D (insertPlan store row firstActionId request.actions) planId =
      if computePlanDigestV1 S D (request.body (frozen.fromJsonb D)) ≠ computePlanDigestV1 S D (request.body frozen)
      then .error .digest else .ok row := by
    simp only [validatePersistedPlanIntegrity, loaded, contract, count, body, digest, bind, Except.bind, ne_eq,
      not_true_eq_false, if_false, Bool.true_eq_false]
  rw [outcome]
  have named := digest_names_plan S D (request.body (frozen.fromJsonb D)) (request.body frozen)
  split
  · next other =>
    refine iff_of_false (fun impossible => nomatch impossible) fun kept => other (named.2 ?_)
    exact ⟨rfl, rfl, rfl, rfl, kept, rfl⟩
  · next equal => exact iff_of_true rfl (named.1 (not_not.1 equal)).policyContext

/-- The plans of two requests are one. -/
structure PlanRequest.Same (U : Unicode) (D : Doubles F) (request request' : PlanRequest F) : Prop where
  targetId : request.targetId = request'.targetId
  authorizationRevisionId : request.authorizationRevisionId = request'.authorizationRevisionId
  actorIdentityId : request.actorIdentityId = request'.actorIdentityId
  credentialBindingId : request.credentialBindingId = request'.credentialBindingId
  policyContext : canonicalizePolicyContext U D request.policyContext =
    canonicalizePolicyContext U D request'.policyContext
  actions : request.actions = request'.actions

theorem created_digest_names {registry' : Registry} {request' : PlanRequest F} {planId' firstActionId' : Nat}
    {old new : PlanStore F Δ} {row' : PlanRow F Δ}
    (created : createExecutionPlan S U D registry request planId firstActionId store = .ok (store', row))
    (created' : createExecutionPlan S U D registry' request' planId' firstActionId' old = .ok (new, row'))
    (same : row.planDigest = row'.planDigest) : request.Same U D request' := by
  obtain ⟨frozen, froze, -, rfl, -⟩ := createExecutionPlan_ok created
  obtain ⟨frozen', froze', -, rfl, -⟩ := createExecutionPlan_ok created'
  obtain ⟨target, revision, actor, binding, context, actions⟩ := (digest_names_plan S D _ _).1 same
  refine ⟨target, revision, actor, binding, ?_, actions⟩
  obtain ⟨written, -, rfl⟩ := canonicalizePolicyContext_ok froze
  obtain ⟨written', -, rfl⟩ := canonicalizePolicyContext_ok froze'
  have equal : written.sorted.sorted = written'.sorted.sorted := context
  rw [Json.sorted_sorted, Json.sorted_sorted] at equal
  rw [froze, froze', equal]

/-- **A created plan validates**, and its digest names it among all plans created, exactly
when its policy context has no float from 10^16 on and no `-0.0`. -/
theorem created_plan_validates [DecidableEq Δ]
    (created : createExecutionPlan S U D registry request planId firstActionId store = .ok (store', row)) :
    (validatePersistedPlanIntegrity S D store' planId = .ok row ∧
      ∀ registry' request' planId' firstActionId' (old new : PlanStore F Δ) row',
        createExecutionPlan S U D registry' request' planId' firstActionId' old = .ok (new, row') →
        row.planDigest = row'.planDigest → request.Same U D request') ↔
      ∀ x ∈ (request.policyContext.getD .empty).1.floats, (D.decimal x).Plain := by
  rw [and_iff_left fun _ _ _ _ _ _ _ other same => created_digest_names created other same]
  obtain ⟨frozen, froze, fresh, same, rfl⟩ := createExecutionPlan_ok created
  rw [validate_insertPlan_iff fresh same]
  obtain ⟨written, writes, rfl⟩ := canonicalizePolicyContext_ok froze
  have distinct := Py.toJson_distinct _ (request.policyContext.getD .empty).2 writes
  rw [Json.sorted_fromJsonb D _ (Json.sorted_distinct _ distinct), Json.sorted_plain]
  exact Py.toJson_plain D _ writes

end Created

section Poles

private def tenTo20 : Doubles Unit :=
  oneFloat ⟨false, ['1'], 21⟩ ⟨by decide, by decide, by decide, .inr (by decide)⟩ rfl

private def plainDigests : Digests Str := ⟨id, fun _ => true, fun _ => rfl, fun _ _ same => same⟩

private def lowerText : Unicode where
  lower := List.map Char.toLower
  upper := List.map Char.toUpper
  nfkc := id
  repr := id

private def demoRegistry : Registry where
  target _ := some ⟨1, some 2, some 3, "http://api.test".toList⟩
  revision _ := some ⟨3, 2, .active, none, none, true, true, false, false, false⟩
  identity _ := some ⟨4, 1, "none".toList⟩
  binding _ := none
  resource _ := none
  endpoint _ := none
  testCase _ := none
  intentMember _ := false

/-- One `GET`, and a context with one float. -/
private def demoRequest : PlanRequest Unit :=
  ⟨1, 3, 4, none, [⟨"GET".toList, "http://api.test/items".toList, none, none⟩],
    some ⟨.dict [(.str "limit".toList, .float ())], by simp [Py.Distinct, Py.DistinctMembers]⟩⟩

private def emptyStore : PlanStore Unit Str := ⟨[], [], fun _ mem => nomatch mem⟩

/-- The context `{"limit": 0.5}`. -/
theorem created_plan_validates_half :
    ∃ store' row, createExecutionPlan plainDigests lowerText onlyHalf demoRegistry demoRequest 7 1 emptyStore =
        .ok (store', row) ∧
      validatePersistedPlanIntegrity plainDigests onlyHalf store' 7 = .ok row := by
  have accepted : (createExecutionPlan plainDigests lowerText onlyHalf demoRegistry demoRequest 7 1 emptyStore).isOk =
      true := by decide +kernel
  cases created : createExecutionPlan plainDigests lowerText onlyHalf demoRegistry demoRequest 7 1 emptyStore with
  | error code =>
      rw [created] at accepted
      cases accepted
  | ok result =>
      obtain ⟨store', row⟩ := result
      refine ⟨store', row, rfl, ((created_plan_validates created).2 fun _ _ => ?_).1⟩
      show Decimal.Plain ⟨false, ['5'], 0⟩
      decide

/-- The context `{"limit": 1e20}` is accepted, and the plan never validates. -/
theorem large_float_invalidates :
    ∃ store' row, createExecutionPlan plainDigests lowerText tenTo20 demoRegistry demoRequest 7 1 emptyStore =
        .ok (store', row) ∧
      validatePersistedPlanIntegrity plainDigests tenTo20 store' 7 = .error .digest := by
  have accepted : (createExecutionPlan plainDigests lowerText tenTo20 demoRegistry demoRequest 7 1
      emptyStore).isOk = true := by decide +kernel
  have refused : ((createExecutionPlan plainDigests lowerText tenTo20 demoRegistry demoRequest 7 1
      emptyStore).map fun result => match validatePersistedPlanIntegrity plainDigests tenTo20 result.1 7 with
        | .ok _ => none
        | .error e => some e) = .ok (some .digest) := by decide +kernel
  cases created : createExecutionPlan plainDigests lowerText tenTo20 demoRegistry demoRequest 7 1 emptyStore with
  | error code =>
      rw [created] at accepted
      cases accepted
  | ok result =>
      obtain ⟨store', row⟩ := result
      refine ⟨store', row, rfl, ?_⟩
      rw [created] at refused
      have outcome := Except.ok.inj refused
      dsimp only at outcome
      split at outcome
      · cases outcome
      · next e failed =>
        rw [failed, Option.some.inj outcome]

end Poles

end ApiSecurityPlatform.Execution
