/-
# Access.Resolution -- what the assertions of an identity say of a resource

`resolve_resource_access`.  The verified assertions whose window is open are read in the order
of their ids; of each dimension only the set of specified values counts (`Theory.Opinion`), and
a dimension with two values is a conflict that no further assertion resolves
(`Resolves.conflict_stays`).

A row of another table is found by its id.  An instant is a number of microseconds; a `datetime`
without a zone is `naive`.
-/
import ApiSecurityPlatform.Theory.Fallible
import ApiSecurityPlatform.Theory.Opinion
import ApiSecurityPlatform.Python.Json
import Mathlib.Data.List.Sort

namespace ApiSecurityPlatform.Access

open ApiSecurityPlatform.Python ApiSecurityPlatform.Theory

set_option autoImplicit false

abbrev Time := Int

def maxAssertionsScanned : Nat := 256

/-- The codes of the errors; a code that several classes use is one. -/
inductive Fault where
  | evaluationTimeTimezoneRequired
  | resourceNotFound
  | testIdentityNotFound
  | resourceIdentityTargetMismatch
  | resourceAccessResolutionLimitExceeded
  | bolaMatrixFactLimitExceeded
  | bolaMatrixDuplicateAccessFact
  | bolaMatrixInvalidAccessFact
  | bolaMatrixPreviewSessionNotClean
  | bolaMatrixEvaluationTimeInvalid
  | endpointNotFound
  | bolaMatrixEndpointResourceTargetMismatch
  | bolaMatrixIdentityInactive
  | bolaMatrixResolutionMismatch
  | bolaBindingSelectionSessionNotClean
  | bolaBindingSelectionInvalidInput
  | bolaBindingNotFound
  | bolaBindingEndpointMismatch
  | bolaBindingNotConfirmed
  | bolaBindingLocationUnsupported
  | bolaBindingSelectorInvalid
  | bolaBindingEndpointMetadataInvalid
  | bolaBindingSelectorAmbiguous
  | bolaBindingSelectorNotDeclared
  | bolaBindingParameterLimitExceeded
  | bolaBindingMatrixSessionNotClean
  | bolaBindingMatrixInvalidInput
  | bolaBindingMatrixAssignmentLimitExceeded
  | bolaBindingMatrixDuplicateBinding
  | bolaBindingMatrixDuplicateSlot
  | bolaBindingMatrixDependencyMismatch
  | knowledgeScanLimit
  | researchSubjectFactsLimit
  | intentFactsMissing
  | intentBaselineMissing
  | intentFactLimit
  /-- The faults of `_actor` that come from other tables. -/
  | intentOther
  /-- `IndexError`. -/
  | indexError
  /-- `KeyError`. -/
  | keyError
  /-- `ValueError` of a strict `zip`. -/
  | valueError
deriving DecidableEq, Repr

/-! ## Rows -/

inductive Relationship where
  | owner
  | shared
  | nonOwner
  | unspecified
deriving DecidableEq, Repr

inductive ExpectedAccess where
  | allowed
  | denied
  | unspecified
deriving DecidableEq, Repr

inductive Provenance where
  | humanVerified
  | targetFixture
  | observedBaseline
  | inferredCandidate
deriving DecidableEq, Repr

inductive VerificationState where
  | candidate
  | verified
  | rejected
deriving DecidableEq, Repr

/-- A row of `resource_access_assertions`. -/
structure Assertion where
  id : Int
  resourceId : Int
  testIdentityId : Int
  relationship : Relationship
  expectedAccess : ExpectedAccess
  provenance : Provenance
  confidence : Nat
  verificationState : VerificationState
  assertedAt : Time
  validFrom : Option Time
  validUntil : Option Time
deriving DecidableEq

/-- The check constraints on what is read. -/
structure Assertion.Checked (a : Assertion) : Prop where
  meaningful : a.relationship ≠ .unspecified ∨ a.expectedAccess ≠ .unspecified
  confident : a.confidence ≤ 100
  window : ∀ until_, a.validUntil = some until_ → ∃ from_, a.validFrom = some from_ ∧ from_ < until_

structure Resource where
  targetId : Int
deriving DecidableEq

structure TestIdentity where
  targetId : Int
  authType : Str
  isActive : Bool
deriving DecidableEq

structure Endpoint (F : Type) where
  targetId : Int
  path : Str
  /-- A JSON column. -/
  parameters : Json F

inductive Location where
  | path
  | query
  | body
deriving DecidableEq, Repr

inductive ReviewState where
  | candidate
  | confirmed
  | rejected
deriving DecidableEq, Repr

structure EndpointResourceBinding where
  endpointId : Int
  location : Location
  selector : Str
  reviewState : ReviewState
deriving DecidableEq

/-- The rows that a read transaction sees, and the session. -/
structure Db (F : Type) where
  /-- Nothing is new, dirty or deleted. -/
  clean : Bool
  resource : Int → Option Resource
  identity : Int → Option TestIdentity
  endpoint : Int → Option (Endpoint F)
  binding : Int → Option EndpointResourceBinding
  assertions : List Assertion

/-! ## Resolution -/

/-- A `datetime`. -/
inductive Stamp where
  | naive
  | aware (at_ : Time)
deriving DecidableEq, Repr

inductive ResolutionState where
  | resolved
  | insufficient
  | conflict
deriving DecidableEq, Repr

structure Resolution where
  resourceId : Int
  testIdentityId : Int
  evaluationTime : Stamp
  state : ResolutionState
  relationship : Relationship
  expectedAccess : ExpectedAccess
  supportingAssertionIds : List Int
deriving DecidableEq

def require {α : Type} (fault : Fault) (found : Option α) : Except Fault α := found.elim (.error fault) .ok

/-- The window of an assertion is open. -/
def Assertion.current (a : Assertion) (now : Time) : Bool :=
  a.assertedAt ≤ now && a.validFrom.all (· ≤ now) && a.validUntil.all (now < ·)

/-- The `WHERE` clause. -/
def Assertion.eligible (a : Assertion) (resourceId testIdentityId : Int) (now : Time) : Bool :=
  a.resourceId = resourceId && a.testIdentityId = testIdentityId && a.verificationState = .verified && a.current now

/-- `ORDER BY id`. -/
def byId (assertions : List Assertion) : List Assertion := assertions.insertionSort fun a b => a.id ≤ b.id

def relationshipValues (assertions : List Assertion) : List Relationship :=
  (assertions.map Assertion.relationship).filter (· ≠ .unspecified)

def accessValues (assertions : List Assertion) : List ExpectedAccess :=
  (assertions.map Assertion.expectedAccess).filter (· ≠ .unspecified)

def Assertion.informative (a : Assertion) : Bool := a.relationship ≠ .unspecified || a.expectedAccess ≠ .unspecified

variable {F : Type}

/-- The assertions that are eligible at an instant, in the order of their ids. -/
def Db.eligible (db : Db F) (resourceId testIdentityId : Int) (now : Time) : List Assertion :=
  byId (db.assertions.filter (·.eligible resourceId testIdentityId now))

def resolutionState (assertions : List Assertion) : ResolutionState :=
  if 1 < (relationshipValues assertions).dedup.length ∨ 1 < (accessValues assertions).dedup.length then .conflict
  else if sole (relationshipValues assertions) .unspecified = .unspecified ∧
      sole (accessValues assertions) .unspecified = .unspecified then .insufficient
  else .resolved

/-- `resolve_resource_access`. -/
def resolveResourceAccess (db : Db F) (resourceId testIdentityId : Int) (evaluationTime : Stamp) :
    Except Fault Resolution :=
  match evaluationTime with
  | .naive => .error .evaluationTimeTimezoneRequired
  | .aware now => do
      let resource ← require .resourceNotFound (db.resource resourceId)
      let identity ← require .testIdentityNotFound (db.identity testIdentityId)
      refuse (resource.targetId ≠ identity.targetId) .resourceIdentityTargetMismatch
      let assertions := (db.eligible resourceId testIdentityId now).take (maxAssertionsScanned + 1)
      refuse (maxAssertionsScanned < assertions.length) .resourceAccessResolutionLimitExceeded
      return {
        resourceId, testIdentityId, evaluationTime
        state := resolutionState assertions
        relationship := sole (relationshipValues assertions) .unspecified
        expectedAccess := sole (accessValues assertions) .unspecified
        supportingAssertionIds := (assertions.filter Assertion.informative).map Assertion.id }

/-! ## What a resolution depends on -/

theorem require_ok {α : Type} {fault : Fault} {found : Option α} {a : α} :
    require fault found = .ok a ↔ found = some a := by
  cases found <;> simp [require]

/-- The checks before the read. -/
structure Readable (db : Db F) (resourceId testIdentityId : Int) (now : Time) : Prop where
  rows : ∃ resource identity, db.resource resourceId = some resource ∧ db.identity testIdentityId = some identity ∧
    resource.targetId = identity.targetId
  few : (db.eligible resourceId testIdentityId now).length ≤ maxAssertionsScanned

/-- A resolution of the eligible assertions. -/
def resolution (assertions : List Assertion) (resourceId testIdentityId : Int) (now : Time) : Resolution where
  resourceId := resourceId
  testIdentityId := testIdentityId
  evaluationTime := .aware now
  state := resolutionState assertions
  relationship := sole (relationshipValues assertions) .unspecified
  expectedAccess := sole (accessValues assertions) .unspecified
  supportingAssertionIds := (assertions.filter Assertion.informative).map Assertion.id

theorem take_few {assertions : List Assertion} :
    ¬ maxAssertionsScanned < (assertions.take (maxAssertionsScanned + 1)).length ↔
      assertions.length ≤ maxAssertionsScanned := by
  rw [List.length_take]
  omega

/-- **The resolution is that of all eligible assertions.** -/
theorem resolveResourceAccess_ok {db : Db F} {resourceId testIdentityId : Int} {stamp : Stamp} {r : Resolution} :
    resolveResourceAccess db resourceId testIdentityId stamp = .ok r ↔
      ∃ now, stamp = .aware now ∧ Readable db resourceId testIdentityId now ∧
        r = resolution (db.eligible resourceId testIdentityId now) resourceId testIdentityId now := by
  cases stamp with
  | naive =>
      constructor
      · intro done
        cases done
      · rintro ⟨now, zone, -⟩
        cases zone
  | aware now =>
      rw [resolveResourceAccess, bind_ok]
      constructor
      · rintro ⟨resource, there, done⟩
        rw [bind_ok] at done
        obtain ⟨identity, known, done⟩ := done
        rw [seq_ok, refuse_ok, not_not, seq_ok, refuse_ok, take_few] at done
        obtain ⟨same, few, done⟩ := done
        refine ⟨now, rfl, ⟨⟨resource, identity, require_ok.1 there, require_ok.1 known, same⟩, few⟩, ?_⟩
        rw [List.take_of_length_le (Nat.le_succ_of_le few)] at done
        exact (Except.ok.inj done).symm
      · rintro ⟨_, zone, ⟨⟨resource, identity, there, known, same⟩, few⟩, rfl⟩
        obtain rfl := Stamp.aware.inj zone
        refine ⟨resource, require_ok.2 there, ?_⟩
        rw [bind_ok]
        refine ⟨identity, require_ok.2 known, ?_⟩
        rw [seq_ok, refuse_ok, not_not, seq_ok, refuse_ok, take_few, List.take_of_length_le (Nat.le_succ_of_le few)]
        exact ⟨same, few, rfl⟩

/-! ## No value wins -/

/-- What a resolution tells of the assertions. -/
structure Resolves (assertions : List Assertion) (r : Resolution) : Prop where
  relationship : ∀ v, v ≠ .unspecified → (r.relationship = v ↔ Unanimous (relationshipValues assertions) v)
  expectedAccess : ∀ v, v ≠ .unspecified → (r.expectedAccess = v ↔ Unanimous (accessValues assertions) v)
  conflict : r.state = .conflict ↔ Split (relationshipValues assertions) ∨ Split (accessValues assertions)
  resolved : r.state = .resolved ↔ r.state ≠ .conflict ∧ (r.relationship ≠ .unspecified ∨ r.expectedAccess ≠ .unspecified)
  supporting : r.supportingAssertionIds = (assertions.filter Assertion.informative).map Assertion.id

/-- The same values are specified. -/
structure SameValues (xs ys : List Assertion) : Prop where
  relationship : ∀ v, v ∈ relationshipValues xs ↔ v ∈ relationshipValues ys
  access : ∀ v, v ∈ accessValues xs ↔ v ∈ accessValues ys

theorem resolutionState_conflict {assertions : List Assertion} :
    resolutionState assertions = .conflict ↔ Split (relationshipValues assertions) ∨ Split (accessValues assertions) := by
  rw [← split_iff, ← split_iff, resolutionState]
  split
  next several => exact iff_of_true rfl several
  next several =>
      refine iff_of_false ?_ several
      split <;> exact fun same => nomatch same

theorem resolution_resolves (assertions : List Assertion) (resourceId testIdentityId : Int) (now : Time) :
    Resolves assertions (resolution assertions resourceId testIdentityId now) where
  relationship _ loud := sole_eq_iff loud
  expectedAccess _ loud := sole_eq_iff loud
  conflict := resolutionState_conflict
  resolved := by
    rw [ne_eq, resolution, resolutionState_conflict, ← split_iff, ← split_iff]
    unfold resolutionState
    split
    next several => exact iff_of_false (fun same => nomatch same) fun both => both.1 several
    next several =>
        split
        next silent => exact iff_of_false (fun same => nomatch same) fun both => both.2.elim (· silent.1) (· silent.2)
        next silent => exact iff_of_true rfl ⟨several, by rwa [← not_and_or]⟩
  supporting := rfl

theorem resolution_congr {xs ys : List Assertion} (same : SameValues xs ys) (resourceId testIdentityId : Int)
    (now : Time) :
    (resolution xs resourceId testIdentityId now).state = (resolution ys resourceId testIdentityId now).state ∧
    (resolution xs resourceId testIdentityId now).relationship = (resolution ys resourceId testIdentityId now).relationship ∧
    (resolution xs resourceId testIdentityId now).expectedAccess =
      (resolution ys resourceId testIdentityId now).expectedAccess := by
  have relationship : sole (relationshipValues xs) Relationship.unspecified =
      sole (relationshipValues ys) Relationship.unspecified := sole_congr same.relationship
  have access : sole (accessValues xs) ExpectedAccess.unspecified = sole (accessValues ys) ExpectedAccess.unspecified :=
    sole_congr same.access
  refine ⟨?_, relationship, access⟩
  show resolutionState xs = resolutionState ys
  have several : (1 < (relationshipValues xs).dedup.length ∨ 1 < (accessValues xs).dedup.length) ↔
      (1 < (relationshipValues ys).dedup.length ∨ 1 < (accessValues ys).dedup.length) := by
    rw [split_iff, split_iff, split_iff, split_iff, split_congr same.relationship, split_congr same.access]
  simp only [resolutionState, relationship, access, several]

/-- A conflict stays whatever is added. -/
theorem Resolves.conflict_stays {xs ys : List Assertion} {r r' : Resolution} (before : Resolves xs r)
    (after : Resolves ys r') (added : xs ⊆ ys) (conflict : r.state = .conflict) : r'.state = .conflict := by
  rw [after.conflict]
  refine (before.conflict.1 conflict).imp ?_ ?_
  · exact Split.mono (List.filter_subset _ (List.map_subset _ added))
  · exact Split.mono (List.filter_subset _ (List.map_subset _ added))

end ApiSecurityPlatform.Access
