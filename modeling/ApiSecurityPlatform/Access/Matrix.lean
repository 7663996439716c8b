/-
# Access.Matrix -- candidates of the access matrix

`plan_bola_matrix` over explicit facts, and `preview_bola_matrix`, which resolves the facts of
some identities and plans them.  What an iterable argument yields need not end and need not be
of the right type; a value of another type than an `int` is `other`.
-/
import ApiSecurityPlatform.Access.Resolution
import ApiSecurityPlatform.Theory.Source

namespace ApiSecurityPlatform.Access

open ApiSecurityPlatform.Python ApiSecurityPlatform.Theory

set_option autoImplicit false

def maxBolaMatrixFacts : Nat := 512

/-- An argument where an `int` is meant. -/
inductive Arg where
  | int (value : Int)
  | other
deriving DecidableEq, Repr

/-- `type(value) is int and value > 0`. -/
def positiveId : Arg → Option Int
  | .int value => if 0 < value then some value else none
  | .other => none

/-! ## Planning -/

structure AccessFactFields where
  endpointId : Int
  resourceId : Int
  testIdentityId : Int
  identityAuthType : Str
  resolutionState : ResolutionState
  relationship : Relationship
  expectedAccess : ExpectedAccess
  supportingAssertionIds : List Int
deriving DecidableEq

/-- `BOLAMatrixAccessFact.__post_init__`. -/
def AccessFactFields.valid (f : AccessFactFields) : Bool :=
  0 < f.endpointId && 0 < f.resourceId && 0 < f.testIdentityId && f.supportingAssertionIds.all (0 < ·)

/-- `BOLAMatrixAccessFact`. -/
structure AccessFact extends AccessFactFields where
  accepted : toAccessFactFields.valid = true
deriving DecidableEq

def AccessFact.make (f : AccessFactFields) : Except Fault AccessFact :=
  if accepted : f.valid = true then .ok ⟨f, accepted⟩ else .error .bolaMatrixInvalidAccessFact

inductive SubjectKind where
  | authenticated
  | anonymous
deriving DecidableEq, Repr

inductive CandidateKind where
  | ownerAccess
  | crossSubjectAccess
  | sharedAccess
  | anonymousAccess
deriving DecidableEq, Repr

structure Candidate where
  endpointId : Int
  resourceId : Int
  testIdentityId : Int
  subjectKind : SubjectKind
  candidateKind : CandidateKind
  relationship : Relationship
  expectedAccess : ExpectedAccess
  supportingAssertionIds : List Int
deriving DecidableEq

def AccessFact.key (f : AccessFact) : Int × Int × Int := (f.endpointId, f.resourceId, f.testIdentityId)

/-- The kinds of a candidate, where the fact gives one. -/
def AccessFact.kinds (f : AccessFact) : Option (SubjectKind × CandidateKind) :=
  if f.identityAuthType = "anonymous".toList then some (.anonymous, .anonymousAccess)
  else match f.relationship with
    | .owner => some (.authenticated, .ownerAccess)
    | .shared => some (.authenticated, .sharedAccess)
    | .nonOwner => some (.authenticated, .crossSubjectAccess)
    | .unspecified => none

/-- What the loop adds for a fact. -/
def AccessFact.candidates (f : AccessFact) : List Candidate :=
  if f.resolutionState ≠ .resolved ∨ f.expectedAccess = .unspecified then []
  else f.kinds.toList.map fun kinds =>
    ⟨f.endpointId, f.resourceId, f.testIdentityId, kinds.1, kinds.2, f.relationship, f.expectedAccess,
      f.supportingAssertionIds⟩

/-- An item where a fact is meant. -/
inductive FactArg where
  | fact (f : AccessFact)
  | other

def FactArg.read : FactArg → Except Fault AccessFact
  | .fact f => .ok f
  | .other => .error .bolaMatrixInvalidAccessFact

/-- `plan_bola_matrix`; the argument is `none` where it is not iterable. -/
def planBolaMatrix (facts : Option (Source FactArg)) : Except Fault (List Candidate) := do
  let source ← require .bolaMatrixInvalidAccessFact facts
  let (_, candidates) ← source.drain
    (Source.distinct FactArg.read AccessFact.key AccessFact.candidates .bolaMatrixDuplicateAccessFact)
    .bolaMatrixFactLimitExceeded maxBolaMatrixFacts ([], [])
  return candidates

/-! ## Preview -/

variable {F : Type}

/-- `_validate_id`. -/
def validateId (value : Arg) : Except Fault Int := require .bolaMatrixInvalidAccessFact (positiveId value)

/-- The loop over the identities; text is not iterated. -/
def readIdentityIds (ids : Option (Source Arg)) : Except Fault (List Int) := do
  let source ← require .bolaMatrixInvalidAccessFact ids
  let (_, identityIds) ← source.drain (Source.distinct validateId id (fun i => [i]) .bolaMatrixDuplicateAccessFact)
    .bolaMatrixFactLimitExceeded maxBolaMatrixFacts ([], [])
  return identityIds

structure MatrixPreview where
  endpointId : Int
  resourceId : Int
  evaluationTime : Stamp
  facts : List AccessFact
  candidates : List Candidate
deriving DecidableEq

/-- The loop that reads the identities. -/
def readIdentity (db : Db F) (targetId identityId : Int) : Except Fault (Int × TestIdentity) := do
  let identity ← require .testIdentityNotFound (db.identity identityId)
  refuse (identity.targetId ≠ targetId) .resourceIdentityTargetMismatch
  refuse (¬ identity.isActive) .bolaMatrixIdentityInactive
  return (identityId, identity)

/-- The loop that resolves the facts. -/
def resolveFact (db : Db F) (endpointId resourceId : Int) (evaluationTime : Stamp) (identity : Int × TestIdentity) :
    Except Fault AccessFact := do
  let resolution ← resolveResourceAccess db resourceId identity.1 evaluationTime
  refuse (resolution.resourceId ≠ resourceId ∨ resolution.testIdentityId ≠ identity.1 ∨
    resolution.evaluationTime = .naive ∨ resolution.evaluationTime ≠ evaluationTime) .bolaMatrixResolutionMismatch
  AccessFact.make ⟨endpointId, resourceId, identity.1, identity.2.authType, resolution.state, resolution.relationship,
    resolution.expectedAccess, resolution.supportingAssertionIds⟩

/-- `preview_bola_matrix`; the time is `none` where it is not a `datetime`. -/
def previewBolaMatrix (db : Db F) (endpointId resourceId : Arg) (testIdentityIds : Option (Source Arg))
    (evaluationTime : Option Stamp) : Except Fault MatrixPreview := do
  refuse (¬ db.clean) .bolaMatrixPreviewSessionNotClean
  let endpointId ← validateId endpointId
  let resourceId ← validateId resourceId
  let evaluationTime ← require .bolaMatrixEvaluationTimeInvalid evaluationTime
  refuse (evaluationTime = .naive) .evaluationTimeTimezoneRequired
  let identityIds ← readIdentityIds testIdentityIds
  let endpoint ← require .endpointNotFound (db.endpoint endpointId)
  let resource ← require .resourceNotFound (db.resource resourceId)
  refuse (endpoint.targetId ≠ resource.targetId) .bolaMatrixEndpointResourceTargetMismatch
  let identities ← identityIds.mapM (readIdentity db resource.targetId)
  let facts ← identities.mapM (resolveFact db endpointId resourceId evaluationTime)
  let candidates ← planBolaMatrix (some (Source.of (facts.map FactArg.fact)))
  return ⟨endpointId, resourceId, evaluationTime, facts, candidates⟩

/-! ## What a plan depends on -/

theorem positiveId_eq_some {value : Arg} {i : Int} : positiveId value = some i ↔ value = .int i ∧ 0 < i := by
  cases value with
  | int v =>
      rw [positiveId, Option.ite_none_right_eq_some, Option.some.injEq, Arg.int.injEq]
      constructor
      · rintro ⟨positive, rfl⟩
        exact ⟨rfl, positive⟩
      · rintro ⟨rfl, positive⟩
        exact ⟨positive, rfl⟩
  | other => simp [positiveId]

theorem read_facts {args : List FactArg} {fs : List AccessFact} :
    List.Forall₂ (fun arg f => FactArg.read arg = .ok f) args fs ↔ args = fs.map FactArg.fact := by
  have each : (fun arg f => FactArg.read arg = .ok f) = fun arg f => arg = FactArg.fact f := by
    funext arg f
    cases arg with
    | fact g => rw [FactArg.read, Except.ok.injEq, FactArg.fact.injEq]
    | other => exact propext (iff_of_false (fun same => nomatch same) fun same => nomatch same)
  rw [each, ← List.forall₂_map_right_iff (f := FactArg.fact) (R := Eq), List.forall₂_eq_eq_eq]

theorem read_ids {args : List Arg} {ids : List Int} :
    List.Forall₂ (fun arg i => validateId arg = .ok i) args ids ↔ args = ids.map Arg.int ∧ ∀ i ∈ ids, 0 < i := by
  simp only [validateId, require_ok, positiveId_eq_some]
  induction ids generalizing args with
  | nil => simp
  | cons i ids ih =>
      rw [List.forall₂_cons_right_iff, List.map_cons, List.forall_mem_cons]
      constructor
      · rintro ⟨arg, rest, ⟨rfl, positive⟩, each, rfl⟩
        obtain ⟨rfl, others⟩ := ih.1 each
        exact ⟨rfl, positive, others⟩
      · rintro ⟨rfl, positive, others⟩
        exact ⟨_, _, ⟨rfl, positive⟩, ih.2 ⟨rfl, others⟩, rfl⟩

/-- The facts are distinct, and each gives its candidates in its place. -/
theorem planBolaMatrix_ok {facts : Option (Source FactArg)} {candidates : List Candidate} :
    planBolaMatrix facts = .ok candidates ↔
      ∃ (source : Source FactArg) (fs : List AccessFact), facts = some source ∧ source.Lists (fs.map FactArg.fact) ∧
        fs.length ≤ maxBolaMatrixFacts ∧ (fs.map AccessFact.key).Nodup ∧
        candidates = fs.flatMap AccessFact.candidates := by
  rw [planBolaMatrix, bind_ok]
  constructor
  · rintro ⟨source, given, done⟩
    rw [bind_ok] at done
    obtain ⟨⟨seen, cs⟩, drained, done⟩ := done
    obtain rfl := Except.ok.inj done
    obtain ⟨args, lists, few, looped⟩ := Source.drain_ok.1 drained
    obtain ⟨fs, each, nodup, -, same⟩ := Source.distinct_ok.1 looped
    obtain rfl := read_facts.1 each
    rw [List.length_map] at few
    exact ⟨source, fs, require_ok.1 given, lists, few, nodup, (Prod.mk.inj same).2⟩
  · rintro ⟨source, fs, rfl, lists, few, nodup, rfl⟩
    refine ⟨source, rfl, ?_⟩
    rw [bind_ok]
    refine ⟨_, Source.drain_ok.2 ⟨_, lists, by rwa [List.length_map], Source.distinct_ok.2
      ⟨fs, read_facts.2 rfl, nodup, (fun _ _ seen => nomatch seen), rfl⟩⟩, rfl⟩

/-- Positive ids without a repetition, at most 512. -/
theorem readIdentityIds_ok {ids : Option (Source Arg)} {identityIds : List Int} :
    readIdentityIds ids = .ok identityIds ↔
      ∃ source : Source Arg, ids = some source ∧ source.Lists (identityIds.map Arg.int) ∧ identityIds.length ≤ maxBolaMatrixFacts ∧
        identityIds.Nodup ∧ ∀ i ∈ identityIds, 0 < i := by
  rw [readIdentityIds, bind_ok]
  constructor
  · rintro ⟨source, given, done⟩
    rw [bind_ok] at done
    obtain ⟨⟨seen, kept'⟩, drained, done⟩ := done
    obtain rfl := Except.ok.inj done
    obtain ⟨args, lists, few, looped⟩ := Source.drain_ok.1 drained
    obtain ⟨kept, each, nodup, -, same⟩ := Source.distinct_ok.1 looped
    obtain ⟨rfl, positive⟩ := read_ids.1 each
    have whole : kept' = kept := by simpa using (Prod.mk.inj same).2
    rw [List.length_map] at few
    rw [List.map_id] at nodup
    exact ⟨source, require_ok.1 given, whole ▸ lists, whole ▸ few, whole ▸ nodup, whole ▸ positive⟩
  · rintro ⟨source, rfl, lists, few, nodup, positive⟩
    refine ⟨source, rfl, ?_⟩
    rw [bind_ok]
    refine ⟨_, Source.drain_ok.2 ⟨_, lists, by rwa [List.length_map], Source.distinct_ok.2
      ⟨identityIds, read_ids.2 ⟨rfl, positive⟩, by rwa [List.map_id], (fun _ _ seen => nomatch seen), rfl⟩⟩, ?_⟩
    show Except.ok (identityIds.flatMap fun i => [i]) = _
    rw [List.flatMap_singleton']

/-- The fact of one identity. -/
def FactOf (db : Db F) (endpointId resourceId : Int) (now : Time) (identityId : Int) (f : AccessFact) : Prop :=
  ∃ identity r, db.identity identityId = some identity ∧
    resolveResourceAccess db resourceId identityId (.aware now) = .ok r ∧
    f.toAccessFactFields = ⟨endpointId, resourceId, identityId, identity.authType, r.state, r.relationship,
      r.expectedAccess, r.supportingAssertionIds⟩

theorem AccessFact.make_ok {fields : AccessFactFields} {f : AccessFact} (made : AccessFact.make fields = .ok f) :
    f.toAccessFactFields = fields := by
  unfold AccessFact.make at made
  split at made
  · rw [← Except.ok.inj made]
  · cases made

theorem readIdentity_ok {db : Db F} {targetId i : Int} {found : Int × TestIdentity}
    (read : readIdentity db targetId i = .ok found) : found.1 = i ∧ db.identity i = some found.2 := by
  rw [readIdentity, bind_ok] at read
  obtain ⟨identity, known, read⟩ := read
  rw [seq_ok, seq_ok] at read
  obtain ⟨-, -, read⟩ := read
  obtain rfl := Except.ok.inj read
  exact ⟨rfl, require_ok.1 known⟩

theorem resolveFact_ok {db : Db F} {endpointId resourceId : Int} {now : Time} {identity : Int × TestIdentity}
    {f : AccessFact} (known : db.identity identity.1 = some identity.2)
    (resolved : resolveFact db endpointId resourceId (.aware now) identity = .ok f) :
    FactOf db endpointId resourceId now identity.1 f := by
  rw [resolveFact, bind_ok] at resolved
  obtain ⟨r, read, resolved⟩ := resolved
  rw [seq_ok] at resolved
  exact ⟨identity.2, r, known, read, AccessFact.make_ok resolved.2⟩

/-- **What a preview is made of.** -/
theorem previewBolaMatrix_ok {db : Db F} {endpointId resourceId : Arg} {ids : Option (Source Arg)} {time : Option Stamp}
    {p : MatrixPreview} (done : previewBolaMatrix db endpointId resourceId ids time = .ok p) :
    ∃ now identityIds, time = some (.aware now) ∧ p.evaluationTime = .aware now ∧
      endpointId = .int p.endpointId ∧ resourceId = .int p.resourceId ∧ readIdentityIds ids = .ok identityIds ∧
      List.Forall₂ (FactOf db p.endpointId p.resourceId now) identityIds p.facts ∧
      p.candidates = p.facts.flatMap AccessFact.candidates := by
  rw [previewBolaMatrix, seq_ok] at done
  obtain ⟨-, done⟩ := done
  simp only [bind_ok, refuse_ok, validateId, require_ok, not_not] at done
  obtain ⟨endpointId, givenEndpoint, resourceId, givenResource, stamp, given, _, zoned, identityIds, idsRead, endpoint, -,
    resource, -, _, -, identities, known, facts, resolved, candidates, planned, done⟩ := done
  cases Except.ok.inj done
  cases stamp with
  | naive => exact absurd rfl zoned
  | aware now =>
      refine ⟨now, identityIds, given, rfl, (positiveId_eq_some.1 givenEndpoint).1, (positiveId_eq_some.1 givenResource).1,
        idsRead, ?_, ?_⟩
      · refine (forall₂_trans (mapM_ok.1 known) (mapM_ok.1 resolved)).imp ?_
        rintro i f ⟨found, identified, fact⟩
        obtain ⟨rfl, there⟩ := readIdentity_ok identified
        exact resolveFact_ok there fact
      · obtain ⟨source, fs, same, lists, -, -, rfl⟩ := planBolaMatrix_ok.1 planned
        obtain rfl := Option.some.inj same
        have listed := (Source.lists_of (facts.map FactArg.fact)).unique lists
        rw [List.map_injective_iff.2 (fun _ _ => FactArg.fact.inj) listed]

/-! ## Candidates keep what was resolved -/

/-- A candidate repeats its fact. -/
theorem mem_candidates {f : AccessFact} {c : Candidate} (mem : c ∈ f.candidates) :
    (f.resolutionState = .resolved ∧ f.expectedAccess ≠ .unspecified) ∧ c.testIdentityId = f.testIdentityId ∧
      c.relationship = f.relationship ∧ c.expectedAccess = f.expectedAccess ∧
      c.supportingAssertionIds = f.supportingAssertionIds := by
  unfold AccessFact.candidates at mem
  split at mem
  · cases mem
  · next planned =>
      rw [not_or, not_not] at planned
      obtain ⟨kinds, -, rfl⟩ := List.mem_map.1 mem
      exact ⟨planned, rfl, rfl, rfl, rfl⟩

theorem candidates_sublist (fs : List AccessFact) :
    ((fs.flatMap AccessFact.candidates).map Candidate.testIdentityId).Sublist (fs.map fun f => f.testIdentityId) := by
  induction fs with
  | nil => exact .slnil
  | cons f fs ih =>
      rw [List.flatMap_cons, List.map_append, List.map_cons]
      have own : (f.candidates.map Candidate.testIdentityId).Sublist [f.testIdentityId] := by
        unfold AccessFact.candidates
        split
        · exact List.nil_sublist _
        · cases f.kinds with
          | none => exact List.nil_sublist _
          | some kinds => exact .refl _
      exact own.append ih

/-- The facts stand in the order of the identities. -/
theorem facts_identities {db : Db F} {endpointId resourceId : Int} {now : Time} {ids : List Int} {facts : List AccessFact}
    (each : List.Forall₂ (FactOf db endpointId resourceId now) ids facts) : (facts.map fun f => f.testIdentityId) = ids := by
  induction each with
  | nil => rfl
  | cons first _ ih =>
      obtain ⟨_, _, -, -, same⟩ := first
      rw [List.map_cons, ih, same]

/-- The candidates of a preview at an instant: they stand in the order of the identities, at most
one for each, and each has what the assertions of its identity resolve to. -/
structure Plans (db : Db F) (identityIds : List Int) (now : Time) (p : MatrixPreview) : Prop where
  order : (p.candidates.map Candidate.testIdentityId).Sublist identityIds
  once : (p.candidates.map Candidate.testIdentityId).Nodup
  each : ∀ c ∈ p.candidates, ∃ r, resolveResourceAccess db p.resourceId c.testIdentityId (.aware now) = .ok r ∧
    (r.state = .resolved ∧ r.expectedAccess ≠ .unspecified) ∧
    (c.relationship = r.relationship ∧ c.expectedAccess = r.expectedAccess) ∧
    c.supportingAssertionIds =
      ((db.eligible p.resourceId c.testIdentityId now).filter Assertion.informative).map Assertion.id ∧
    c.supportingAssertionIds.Pairwise (· ≤ ·)

theorem byId_ordered (assertions : List Assertion) : ((byId assertions).map Assertion.id).Pairwise (· ≤ ·) := by
  rw [List.pairwise_map]
  exact List.pairwise_insertionSort (fun a b : Assertion => a.id ≤ b.id) assertions

theorem preview_plans {db : Db F} {endpointId resourceId : Arg} {ids : Option (Source Arg)} {time : Option Stamp}
    {p : MatrixPreview} (done : previewBolaMatrix db endpointId resourceId ids time = .ok p) :
    ∃ now identityIds, time = some (.aware now) ∧ readIdentityIds ids = .ok identityIds ∧ Plans db identityIds now p := by
  obtain ⟨now, identityIds, given, -, -, -, idsRead, facts, planned⟩ := previewBolaMatrix_ok done
  obtain ⟨-, -, -, -, nodup, -⟩ := readIdentityIds_ok.1 idsRead
  have order : (p.candidates.map Candidate.testIdentityId).Sublist identityIds := by
    rw [planned, ← facts_identities facts]
    exact candidates_sublist p.facts
  refine ⟨now, identityIds, given, idsRead, order, nodup.sublist order, fun c mem => ?_⟩
  rw [planned, List.mem_flatMap] at mem
  obtain ⟨f, inside, mem⟩ := mem
  obtain ⟨resolved, identity, relationship, access, supporting⟩ := mem_candidates mem
  obtain ⟨i, -, _, r, -, read, same⟩ := forall₂_right facts f inside
  rw [same] at resolved identity relationship access supporting
  obtain rfl : c.testIdentityId = i := identity
  refine ⟨r, read, resolved, ⟨relationship, access⟩, ?_⟩
  obtain ⟨_, zone, -, rfl⟩ := resolveResourceAccess_ok.1 read
  obtain rfl := Stamp.aware.inj zone
  rw [supporting]
  refine ⟨rfl, (byId_ordered _).sublist (.map _ List.filter_sublist)⟩

/-- **No value wins over another.**  Up to 256 eligible assertions resolve, to what their specified
values say together; nothing else about them counts, a conflict stays whatever is added, and a
candidate only repeats what was resolved. -/
theorem no_winner :
    (∀ (db : Db F) resourceId identityId now, Readable db resourceId identityId now →
      ∃ r, resolveResourceAccess db resourceId identityId (.aware now) = .ok r) ∧
    (∀ (db : Db F) resourceId identityId now r, resolveResourceAccess db resourceId identityId (.aware now) = .ok r →
      Resolves (db.eligible resourceId identityId now) r) ∧
    (∀ (db db' : Db F) i j i' j' now now' r r', resolveResourceAccess db i j (.aware now) = .ok r →
      resolveResourceAccess db' i' j' (.aware now') = .ok r' →
      (SameValues (db.eligible i j now) (db'.eligible i' j' now') →
        r.state = r'.state ∧ r.relationship = r'.relationship ∧ r.expectedAccess = r'.expectedAccess) ∧
      (db.eligible i j now ⊆ db'.eligible i' j' now' → r.state = .conflict → r'.state = .conflict)) ∧
    ∀ (db : Db F) endpointId resourceId ids time p, previewBolaMatrix db endpointId resourceId ids time = .ok p →
      ∃ now identityIds, time = some (.aware now) ∧ readIdentityIds ids = .ok identityIds ∧
        Plans db identityIds now p := by
  have reads : ∀ {db : Db F} {i j now r}, resolveResourceAccess db i j (.aware now) = .ok r →
      r = resolution (db.eligible i j now) i j now := by
    intro db i j now r done
    obtain ⟨_, zone, -, same⟩ := resolveResourceAccess_ok.1 done
    obtain rfl := Stamp.aware.inj zone
    exact same
  refine ⟨fun db i j now readable => ⟨_, resolveResourceAccess_ok.2 ⟨now, rfl, readable, rfl⟩⟩, ?_, ?_,
    fun db endpointId resourceId ids time p done => preview_plans done⟩
  · intro db i j now r done
    rw [reads done]
    exact resolution_resolves _ i j now
  · intro db db' i j i' j' now now' r r' done done'
    rw [reads done, reads done']
    exact ⟨fun same => resolution_congr same _ _ _, (resolution_resolves _ i j now).conflict_stays
      (resolution_resolves _ i' j' now')⟩

/-- The assertions about the first identity agree on the access and not on the relationship; those
about the second agree, but for one that has expired. -/
private def contested : Db Nat where
  clean := true
  resource _ := some ⟨1⟩
  identity _ := some ⟨1, "bearer".toList, true⟩
  endpoint _ := some ⟨1, "/orders/7".toList, .null⟩
  binding _ := none
  assertions := [⟨2, 1, 1, .owner, .allowed, .humanVerified, 100, .verified, 0, none, none⟩,
    ⟨1, 1, 1, .nonOwner, .allowed, .humanVerified, 100, .verified, 0, none, none⟩,
    ⟨5, 1, 2, .nonOwner, .denied, .humanVerified, 100, .verified, 0, none, none⟩,
    ⟨4, 1, 2, .owner, .allowed, .humanVerified, 100, .verified, 0, some 1, some 4⟩,
    ⟨3, 1, 2, .nonOwner, .unspecified, .humanVerified, 100, .verified, 0, none, none⟩]

private def bothIdentities : Option (Source Arg) := some (Source.of [.int 2, .int 1])

/-- The first identity is in conflict; the plan has a candidate for the second alone. -/
theorem no_winner_contested :
    (∃ r, resolveResourceAccess contested 1 1 (.aware 5) = .ok r ∧ r.state = .conflict ∧
      r.relationship = .unspecified ∧ r.expectedAccess = .allowed) ∧
    ∃ p, previewBolaMatrix contested (.int 7) (.int 1) bothIdentities (some (.aware 5)) = .ok p ∧
      (p.candidates.map fun c => (c.testIdentityId, c.relationship, c.supportingAssertionIds)) =
        [(2, .nonOwner, [3, 5])] ∧ Plans contested [2, 1] 5 p := by
  constructor
  · have eligible : contested.eligible 1 1 5 = (contested.assertions.take 2).reverse := by decide
    have readable : Readable contested 1 1 5 := ⟨⟨_, _, rfl, rfl, rfl⟩, by rw [eligible]; decide⟩
    obtain ⟨r, done⟩ := no_winner.1 contested 1 1 5 readable
    have resolves := no_winner.2.1 contested 1 1 5 r done
    rw [eligible] at resolves
    have apart : Split (relationshipValues (contested.assertions.take 2).reverse) :=
      ⟨.owner, by decide, .nonOwner, by decide, by decide⟩
    refine ⟨r, done, resolves.conflict.2 (.inl apart), ?_, ?_⟩
    · by_contra loud
      exact ((resolves.relationship _ loud).1 rfl).not_split apart
    · exact (resolves.expectedAccess .allowed (by decide)).2 (unanimous_iff.1 (by decide))
  · have planned : (previewBolaMatrix contested (.int 7) (.int 1) bothIdentities (some (.aware 5))).toOption.map
        (fun p => p.candidates.map fun c => (c.testIdentityId, c.relationship, c.supportingAssertionIds)) =
          some [(2, .nonOwner, [3, 5])] := by
      decide
    obtain ⟨p, done, candidates⟩ := Option.map_eq_some_iff.1 planned
    cases preview : previewBolaMatrix contested (.int 7) (.int 1) bothIdentities (some (.aware 5)) with
    | error fault =>
        rw [preview] at done
        nomatch done
    | ok q =>
        rw [preview] at done
        obtain rfl := Option.some.inj done
        obtain ⟨now, identityIds, time, read, plans⟩ := no_winner.2.2.2 contested _ _ _ _ q preview
        obtain rfl := Stamp.aware.inj (Option.some.inj time)
        have given : readIdentityIds bothIdentities = .ok [2, 1] := by decide
        obtain rfl := Except.ok.inj (given.symm.trans read)
        exact ⟨q, rfl, candidates, plans⟩

end ApiSecurityPlatform.Access
