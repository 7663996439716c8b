/-
# Access.Deadlines -- how long resolved facts hold

`_context_deadlines` of `research_knowledge` and `_actor` of `research_intent` both compute when
the assertions of an identity next change what is resolved.  An assertion is eligible in a window,
so the facts hold up to the first change of one (`facts_until_deadline`).

`_actor` also freezes the list of verified assertions that are not over.  The list has windows that
never open too, and these have no deadline: it holds up to its deadline just where none of them
ends before it (`actor_stable_iff`).

What the two read of other tables does not depend on the clock; it is a parameter.
-/
import ApiSecurityPlatform.Access.BindingMatrix
import ApiSecurityPlatform.Theory.Window

namespace ApiSecurityPlatform.Access

open ApiSecurityPlatform.Python ApiSecurityPlatform.Theory

set_option autoImplicit false

variable {F : Type}

/-! ## Windows of assertions -/

/-- `max(asserted_at, valid_from or asserted_at)`, and `GREATEST(asserted_at, valid_from)`, which
leaves out a null. -/
def Assertion.window (a : Assertion) : Window Time where
  start := max a.assertedAt (a.validFrom.getD a.assertedAt)
  stop := a.validUntil

/-- A verified assertion of the pair. -/
def Assertion.concerns (a : Assertion) (resourceId testIdentityId : Int) : Bool :=
  a.resourceId = resourceId && a.testIdentityId = testIdentityId && a.verificationState = .verified

theorem Assertion.current_iff {a : Assertion} {now : Time} : a.current now = true ↔ a.window.Open now := by
  unfold Assertion.current Window.Open Assertion.window
  cases a.validFrom <;> cases a.validUntil <;> simp

theorem Assertion.eligible_iff {a : Assertion} {resourceId testIdentityId : Int} {now : Time} :
    a.eligible resourceId testIdentityId now = true ↔
      a.concerns resourceId testIdentityId = true ∧ a.window.Open now := by
  rw [Assertion.eligible, Bool.and_eq_true, Assertion.current_iff, Assertion.concerns]

theorem mem_eligible {db : Db F} {i j : Int} {now : Time} {a : Assertion} :
    a ∈ db.eligible i j now ↔ a ∈ db.assertions ∧ a.concerns i j = true ∧ a.window.Open now := by
  rw [Db.eligible, byId, List.mem_insertionSort, List.mem_filter, Assertion.eligible_iff]

/-- Where the windows are as they were, so are the eligible assertions. -/
theorem eligible_congr {db : Db F} {i j : Int} {now t : Time}
    (same : ∀ a ∈ db.assertions, a.concerns i j = true → (a.window.Open t ↔ a.window.Open now)) :
    db.eligible i j t = db.eligible i j now := by
  unfold Db.eligible
  refine congrArg byId (List.filter_congr fun a mem => ?_)
  rw [Bool.eq_iff_iff, Assertion.eligible_iff, Assertion.eligible_iff]
  exact and_congr_right (same a mem)

def Resolution.atTime (r : Resolution) (t : Time) : Resolution := { r with evaluationTime := .aware t }

/-- The resolution reads the eligible assertions only. -/
theorem resolve_congr {db : Db F} {i j : Int} {now t : Time} (same : db.eligible i j t = db.eligible i j now) :
    resolveResourceAccess db i j (.aware t) = (resolveResourceAccess db i j (.aware now)).map (·.atTime t) := by
  simp only [resolveResourceAccess, same]
  cases db.resource i with
  | none => rfl
  | some resource =>
      cases db.identity j with
      | none => rfl
      | some identity =>
          show (refuse _ _ >>= _) = Except.map _ (refuse _ _ >>= _)
          cases refuse (resource.targetId ≠ identity.targetId) Fault.resourceIdentityTargetMismatch with
          | error fault => rfl
          | ok =>
              show (refuse _ _ >>= _) = Except.map _ (refuse _ _ >>= _)
              cases refuse (maxAssertionsScanned < ((db.eligible i j now).take (maxAssertionsScanned + 1)).length)
                Fault.resourceAccessResolutionLimitExceeded <;> rfl

/-! ## The deadlines of retrieved facts -/

/-- The windows that `_context_deadlines` selects. -/
def contextWindows (db : Db F) (resourceId testIdentityId : Int) (factAt : Time) : List Assertion :=
  (byId (db.assertions.filter fun a => a.concerns resourceId testIdentityId &&
    a.validUntil.all (max a.window.start factAt < ·))).take (maxAssertionsScanned + 1)

/-- The body of its loop. -/
def Assertion.contextDeadline (a : Assertion) (factAt : Time) : Option Time :=
  if factAt < a.window.start then some a.window.start else a.validUntil

/-- `_context_deadlines`, with the deadlines of the permissions; a subject without a resource or an
identity has no others. -/
def contextDeadlines (permissions : List Time) (db : Db F) (resourceId testIdentityId : Option Int) (factAt : Time) :
    Except Fault (List Time) :=
  match resourceId, testIdentityId with
  | some i, some j => do
      let windows := contextWindows db i j factAt
      refuse (maxAssertionsScanned < windows.length) .knowledgeScanLimit
      return permissions ++ windows.filterMap (·.contextDeadline factAt)
  | _, _ => .ok permissions

def assertionDeadlines (db : Db F) (i j : Int) (factAt : Time) : List Time :=
  (contextWindows db i j factAt).filterMap (·.contextDeadline factAt)

theorem ahead_iff {a : Assertion} {factAt : Time} :
    a.validUntil.all (max a.window.start factAt < ·) = true ↔ ¬ a.window.Past factAt := by
  rw [Option.all_eq_true]
  constructor
  · rintro ahead ⟨s, stop, beyond⟩
    exact absurd beyond (not_le.2 (of_decide_eq_true (ahead s stop)))
  · intro ahead s stop
    exact decide_eq_true (not_le.1 fun beyond => ahead ⟨s, stop, beyond⟩)

/-- At a window that is not over the loop computes its next change. -/
theorem contextDeadline_eq {a : Assertion} {factAt : Time} (ahead : ¬ a.window.Past factAt) :
    a.contextDeadline factAt = a.window.next factAt := by
  rw [Assertion.contextDeadline, Window.next, if_neg ahead]
  rfl

theorem mem_contextWindows {db : Db F} {i j : Int} {factAt : Time} {a : Assertion}
    (few : (contextWindows db i j factAt).length ≤ maxAssertionsScanned) :
    a ∈ contextWindows db i j factAt ↔ a ∈ db.assertions ∧ a.concerns i j = true ∧ ¬ a.window.Past factAt := by
  unfold contextWindows at few ⊢
  rw [List.take_of_length_le (Nat.le_succ_of_le (take_few.1 (not_lt.2 few))), byId, List.mem_insertionSort, List.mem_filter,
    Bool.and_eq_true, ahead_iff]

/-- The deadlines are the next changes of the windows. -/
theorem mem_assertionDeadlines {db : Db F} {i j : Int} {factAt d : Time}
    (few : (contextWindows db i j factAt).length ≤ maxAssertionsScanned) :
    d ∈ assertionDeadlines db i j factAt ↔
      ∃ a ∈ db.assertions, a.concerns i j = true ∧ a.window.next factAt = some d := by
  rw [assertionDeadlines, List.mem_filterMap]
  constructor
  · rintro ⟨a, mem, deadline⟩
    obtain ⟨mem, ours, ahead⟩ := (mem_contextWindows few).1 mem
    exact ⟨a, mem, ours, contextDeadline_eq ahead ▸ deadline⟩
  · rintro ⟨a, mem, ours, next⟩
    have ahead : ¬ a.window.Past factAt := fun past => by
      rw [Window.next, if_pos past] at next
      cases next
    exact ⟨a, (mem_contextWindows few).2 ⟨mem, ours, ahead⟩, (contextDeadline_eq ahead).trans next⟩

/-- **Retrieved facts hold until the first deadline of an assertion and change there.** -/
theorem facts_until_deadline (db : Db F) (i j : Int) (factAt : Time) (permissions : List Time)
    (few : (contextWindows db i j factAt).length ≤ maxAssertionsScanned) :
    contextDeadlines permissions db (some i) (some j) factAt = .ok (permissions ++ assertionDeadlines db i j factAt) ∧
    (∀ t, factAt ≤ t → (∀ d ∈ assertionDeadlines db i j factAt, t < d) →
      resolveResourceAccess db i j (.aware t) = (resolveResourceAccess db i j (.aware factAt)).map (·.atTime t)) ∧
    ∀ d, (assertionDeadlines db i j factAt).min? = some d →
      ¬ ∀ a, a ∈ db.eligible i j d ↔ a ∈ db.eligible i j factAt := by
  refine ⟨?_, fun t later before => ?_, fun d least same => ?_⟩
  · rw [contextDeadlines, seq_ok, refuse_ok]
    exact ⟨not_lt.2 few, rfl⟩
  · refine resolve_congr (eligible_congr fun a mem ours => Window.open_stable later fun d next => ?_)
    exact before d ((mem_assertionDeadlines few).2 ⟨a, mem, ours, next⟩)
  · obtain ⟨a, mem, ours, next⟩ := (mem_assertionDeadlines few).1 (List.min?_mem least)
    refine Window.open_changes next ?_
    have changed := same a
    rw [mem_eligible, mem_eligible] at changed
    constructor
    · exact fun opened => (changed.1 ⟨mem, ours, opened⟩).2.2
    · exact fun opened => (changed.2 ⟨mem, ours, opened⟩).2.2

/-! ## The frozen actor -/

/-- `facts` of `_qualify`. -/
structure Facts where
  state : ResolutionState
  relationship : Relationship
  expectedAccess : ExpectedAccess
  supportingAssertionIds : List Int
deriving DecidableEq

def Resolution.facts (r : Resolution) : Facts := ⟨r.state, r.relationship, r.expectedAccess, r.supportingAssertionIds⟩

/-- The fields of `SubjectInput` that are read with the facts. -/
structure Subject where
  endpointId : Int
  bindingId : Int
  resourceId : Int
  testIdentityId : Int
  ownerIdentityId : Option Int
  bearer : Bool
  assertionIds : List Int
  relationship : Relationship
  expectedAccess : ExpectedAccess

/-- The gaps of `_qualify` that come from the facts. -/
def factGaps (p : Subject) (facts : Facts) : List Str :=
  (if facts.state = .conflict then ["facts_conflict".toList]
    else if facts.state = .insufficient ∨ facts.expectedAccess = .unspecified then ["facts_missing".toList] else []) ++
  (if p.bearer ∧ facts.relationship = .unspecified then ["relationship_missing".toList] else []) ++
  (if p.assertionIds ⊆ facts.supportingAssertionIds then [] else ["assertion_not_current_verified".toList]) ++
  (if (p.relationship ≠ .unspecified ∧ facts.relationship ≠ .unspecified ∧ facts.relationship ≠ p.relationship) ∨
      (p.expectedAccess ≠ .unspecified ∧ facts.expectedAccess ≠ .unspecified ∧ facts.expectedAccess ≠ p.expectedAccess) ∨
      p.ownerIdentityId.any (fun owner => (facts.relationship = .owner ∧ owner ≠ p.testIdentityId) ∨
        (facts.relationship = .nonOwner ∧ owner = p.testIdentityId)) then
    ["proposal_fact_conflict".toList] else [])

/-- `ignored` of `_actor`. -/
def ignoredGaps : List Str :=
  ["budget_unapproved", "intent_decision_pending", "membership_unverified", "owner_unknown", "session_health_unverified",
    "session_unknown", "credential_update_needed"].map String.toList

/-- What `_actor` has of other tables. -/
structure ActorRest where
  /-- The other gaps of `_qualify`. -/
  gaps : List Str
  /-- The checks of the credential. -/
  credential : Except Fault Unit
  /-- The role is one of a baseline. -/
  baseline : Bool

/-- The part of `actor` that comes from assertions. -/
structure ActorSnapshot where
  facts : Facts
  assertions : List Assertion
  candidate : Candidate
deriving DecidableEq

/-- The rows of `_actor`. -/
def actorRows (db : Db F) (resourceId testIdentityId : Int) (at_ : Time) : List Assertion :=
  (byId (db.assertions.filter fun a => a.concerns resourceId testIdentityId && a.validUntil.all (at_ < ·))).take
    (maxAssertionsScanned + 1)

/-- The body of its loop; `continue` where the window never opens. -/
def Assertion.actorDeadline (a : Assertion) (at_ : Time) : Option Time :=
  if a.validUntil.any (· ≤ a.window.start) then none
  else if at_ < a.window.start then some a.window.start
  else a.validUntil

/-- The one candidate of the first slot. -/
def oneCandidate (m : MultiBindingPreview) : Except Fault Candidate :=
  match m.slots with
  | [] => .error .indexError
  | slot :: _ =>
      match slot.preview.candidates with
      | [candidate] => .ok candidate
      | _ => .error .intentFactsMissing

/-- The facts of `_qualify`. -/
def qualifyFacts (db : Db F) (p : Subject) (at_ : Time) : Except Fault Facts :=
  match resolveResourceAccess db p.resourceId p.testIdentityId (.aware at_) with
  | .ok resolution => .ok resolution.facts
  | .error _ => .error .researchSubjectFactsLimit

section Actor

variable (sensitive : Str → Bool) (rest : ActorRest)

/-- `_actor`, with the deadlines of the assertions. -/
def actor (db : Db F) (p : Subject) (at_ : Time) : Except Fault (ActorSnapshot × List Time) := do
  let facts ← qualifyFacts db p at_
  refuse ((rest.gaps ++ factGaps p facts).any (· ∉ ignoredGaps)) .intentFactsMissing
  let _ ← rest.credential
  let preview ← previewBolaBindingMatrix sensitive db (.int p.endpointId)
    (some (.of [(⟨p.bindingId, p.resourceId⟩ : SlotAssignment).arg])) (some (.of [.int p.testIdentityId])) (some (.aware at_))
  let candidate ← oneCandidate preview
  refuse (rest.baseline ∧ facts.expectedAccess ≠ .allowed) .intentBaselineMissing
  let rows := actorRows db p.resourceId p.testIdentityId at_
  refuse (maxAssertionsScanned < rows.length) .intentFactLimit
  return (⟨facts, rows, candidate⟩, rows.filterMap (·.actorDeadline at_))

/-! ## Previews at a later time -/

theorem resolve_evaluationTime {db : Db F} {i j : Int} {stamp : Stamp} {r : Resolution}
    (done : resolveResourceAccess db i j stamp = .ok r) : r.evaluationTime = stamp ∧ r.resourceId = i ∧ r.testIdentityId = j := by
  obtain ⟨now, rfl, -, rfl⟩ := resolveResourceAccess_ok.1 done
  exact ⟨rfl, rfl, rfl⟩

theorem resolveFact_later {db : Db F} {e i : Int} {now t : Time} {identity : Int × TestIdentity} {f : AccessFact}
    (same : db.eligible i identity.1 t = db.eligible i identity.1 now)
    (done : resolveFact db e i (.aware now) identity = .ok f) : resolveFact db e i (.aware t) identity = .ok f := by
  rw [resolveFact, bind_ok] at done ⊢
  obtain ⟨r, resolved, done⟩ := done
  refine ⟨r.atTime t, by rw [resolve_congr same, resolved]; rfl, ?_⟩
  rw [seq_ok, refuse_ok] at done ⊢
  obtain ⟨checked, made⟩ := done
  obtain ⟨-, resource, identity_⟩ := resolve_evaluationTime resolved
  refine ⟨?_, made⟩
  rintro (other | other | naive | other)
  · exact other resource
  · exact other identity_
  · cases naive
  · exact other rfl

def MatrixPreview.atTime (p : MatrixPreview) (t : Time) : MatrixPreview := { p with evaluationTime := .aware t }

theorem preview_later {db : Db F} {e i : Arg} {ids : List Int} {now t : Time} {p : MatrixPreview}
    (done : previewBolaMatrix db e i (some (.of (ids.map Arg.int))) (some (.aware now)) = .ok p)
    (same : ∀ j ∈ ids, db.eligible p.resourceId j t = db.eligible p.resourceId j now) :
    previewBolaMatrix db e i (some (.of (ids.map Arg.int))) (some (.aware t)) = .ok (p.atTime t) := by
  rw [previewBolaMatrix, seq_ok] at done ⊢
  simp only [bind_ok, refuse_ok, validateId, require_ok, not_not] at done ⊢
  obtain ⟨clean, e', givenEndpoint, i', givenResource, _, given, _, -, ids', read, endpoint, there, resource, there', _,
    targets, identities, known, facts, resolved, candidates, planned, done⟩ := done
  obtain rfl := Option.some.inj given
  cases Except.ok.inj done
  obtain rfl := readIdentityIds_of read
  refine ⟨clean, e', givenEndpoint, i', givenResource, .aware t, rfl, (), (fun naive => nomatch naive), ids', read,
    endpoint, there, resource, there', (), targets, identities, known, facts, ?_, candidates, planned, rfl⟩
  rw [mapM_ok] at known resolved ⊢
  have members : ∀ identity ∈ identities, identity.1 ∈ ids' := by
    intro identity mem
    obtain ⟨j, inside, found⟩ := forall₂_right known identity mem
    rw [(readIdentity_ok found).1]
    exact inside
  replace same : ∀ j ∈ ids', db.eligible i' j t = db.eligible i' j now := same
  clear known planned done
  induction resolved with
  | nil => exact .nil
  | cons first _ ih =>
      obtain ⟨here, others⟩ := List.forall_mem_cons.1 members
      exact .cons (resolveFact_later (same _ here) first) (ih others)

/-- The one slot of the preview at a later time. -/
theorem binding_later {db : Db F} {e b i j : Int} {now t : Time} {m : MultiBindingPreview}
    (done : previewBolaBindingMatrix sensitive db (.int e) (some (.of [(⟨b, i⟩ : SlotAssignment).arg])) (some (.of [.int j]))
      (some (.aware now)) = .ok m)
    (same : db.eligible i j t = db.eligible i j now) :
    ∃ m', previewBolaBindingMatrix sensitive db (.int e) (some (.of [(⟨b, i⟩ : SlotAssignment).arg])) (some (.of [.int j]))
      (some (.aware t)) = .ok m' ∧ oneCandidate m' = oneCandidate m := by
  obtain ⟨proposed, _, accepted, evaluated, each, nodup⟩ := (previewBolaBindingMatrix_ok sensitive).1 done
  obtain ⟨clean, givenEndpoint, time, slots, read, cells⟩ := accepted_iff.1 accepted
  obtain rfl := Stamp.aware.inj (Option.some.inj time)
  obtain rfl : proposed = [⟨b, i⟩] := by
    obtain ⟨⟨source, given, lists⟩, -⟩ := readAssignments_ok.1 slots
    obtain rfl := Option.some.inj given
    have listed := lists.unique (Source.lists_of [(⟨b, i⟩ : SlotAssignment).arg])
    match proposed, listed with
    | [⟨b', i'⟩], listed => simpa [SlotAssignment.arg] using listed
  obtain ids : m.testIdentityIds = [j] := @readIdentityIds_of [j] _ read
  cases each' : m.slots with
  | nil => rw [each'] at each; cases each
  | cons slot others =>
      rw [each'] at each nodup
      cases each with
      | cons holds none_ =>
          cases none_
          obtain ⟨_, -, -, -, -, resource, -⟩ := previewBolaMatrix_ok holds.previewed
          have later := preview_later (t := t) holds.previewed fun k mem => by
            rw [ids] at mem
            obtain rfl := List.mem_singleton.1 mem
            rw [← Arg.int.inj resource]
            exact same
          refine ⟨⟨m.endpointId, .aware t, m.testIdentityIds, [⟨slot.binding, slot.preview.atTime t⟩]⟩,
            (previewBolaBindingMatrix_ok sensitive).2 ⟨[⟨b, i⟩], t, ?_, rfl, .cons ⟨holds.selected, later⟩ .nil, nodup⟩, ?_⟩
          · exact accepted_iff.2 ⟨clean, givenEndpoint, rfl, slots, read, cells⟩
          · rw [oneCandidate, oneCandidate, each']
            rfl

/-! ## Stability -/

theorem qualifyFacts_later {db : Db F} {p : Subject} {now t : Time}
    (same : db.eligible p.resourceId p.testIdentityId t = db.eligible p.resourceId p.testIdentityId now) :
    qualifyFacts db p t = qualifyFacts db p now := by
  unfold qualifyFacts
  rw [resolve_congr same]
  cases resolveResourceAccess db p.resourceId p.testIdentityId (.aware now) <;> rfl

theorem mem_actorRows {db : Db F} {i j : Int} {at_ : Time} {a : Assertion}
    (few : (actorRows db i j at_).length ≤ maxAssertionsScanned) :
    a ∈ actorRows db i j at_ ↔ a ∈ db.assertions ∧ a.concerns i j = true ∧ ∀ s, a.validUntil = some s → at_ < s := by
  unfold actorRows at few ⊢
  rw [List.take_of_length_le (Nat.le_succ_of_le (take_few.1 (not_lt.2 few))), byId, List.mem_insertionSort, List.mem_filter,
    Bool.and_eq_true, Option.all_eq_true]
  simp only [decide_eq_true_eq]

theorem actorDeadline_eq {a : Assertion} {at_ : Time} (ahead : ∀ s, a.validUntil = some s → at_ < s) :
    a.actorDeadline at_ = a.window.next at_ := by
  have same : a.validUntil.any (· ≤ a.window.start) = true ↔ a.window.Past at_ := by
    rw [Option.any_eq_true]
    constructor
    · rintro ⟨s, stop, beyond⟩
      exact ⟨s, stop, (of_decide_eq_true beyond).trans (le_max_left _ _)⟩
    · rintro ⟨s, stop, beyond⟩
      exact ⟨s, stop, decide_eq_true ((le_max_iff.1 beyond).resolve_right (not_le.2 (ahead s stop)))⟩
  unfold Assertion.actorDeadline Window.next
  simp only [same]
  rfl

/-- Up to the earliest deadline the actor is the same. -/
def Stable (db : Db F) (p : Subject) (at_ : Time) (snapshot : ActorSnapshot) (deadlines : List Time) : Prop :=
  ∀ t, at_ ≤ t → (∀ d ∈ deadlines, t < d) → ∃ later, actor sensitive rest db p t = .ok (snapshot, later)

/-- The parts of an actor. -/
theorem actor_ok {db : Db F} {p : Subject} {at_ : Time} {snapshot : ActorSnapshot} {deadlines : List Time} :
    actor sensitive rest db p at_ = .ok (snapshot, deadlines) ↔
      (qualifyFacts db p at_ = .ok snapshot.facts ∧
        ¬ (rest.gaps ++ factGaps p snapshot.facts).any (· ∉ ignoredGaps) = true ∧ (∃ u, rest.credential = .ok u) ∧
        ¬ (rest.baseline = true ∧ snapshot.facts.expectedAccess ≠ .allowed)) ∧
      (∃ m, previewBolaBindingMatrix sensitive db (.int p.endpointId)
          (some (.of [(⟨p.bindingId, p.resourceId⟩ : SlotAssignment).arg])) (some (.of [.int p.testIdentityId]))
          (some (.aware at_)) = .ok m ∧ oneCandidate m = .ok snapshot.candidate) ∧
      (snapshot.assertions = actorRows db p.resourceId p.testIdentityId at_ ∧
        snapshot.assertions.length ≤ maxAssertionsScanned) ∧
      deadlines = snapshot.assertions.filterMap (·.actorDeadline at_) := by
  rw [actor]
  simp only [bind_ok, refuse_ok, not_lt]
  constructor
  · rintro ⟨facts, resolved, _, whole, u, credential, m, previewed, candidate, one, _, baseline, _, few, done⟩
    cases Except.ok.inj done
    exact ⟨⟨resolved, whole, ⟨u, credential⟩, baseline⟩, ⟨m, previewed, one⟩, ⟨rfl, few⟩, rfl⟩
  · rintro ⟨⟨resolved, whole, ⟨u, credential⟩, baseline⟩, ⟨m, previewed, one⟩, ⟨rows, few⟩, rfl⟩
    obtain ⟨facts, assertions, candidate⟩ := snapshot
    subst rows
    exact ⟨facts, resolved, (), whole, u, credential, m, previewed, candidate, one, (), baseline, (), few, rfl⟩

theorem mem_deadlines {db : Db F} {i j : Int} {at_ d : Time}
    (few : (actorRows db i j at_).length ≤ maxAssertionsScanned) :
    d ∈ (actorRows db i j at_).filterMap (·.actorDeadline at_) ↔
      ∃ a ∈ db.assertions, a.concerns i j = true ∧ (∀ s, a.validUntil = some s → at_ < s) ∧
        a.window.next at_ = some d := by
  rw [List.mem_filterMap]
  constructor
  · rintro ⟨a, mem, deadline⟩
    obtain ⟨mem, ours, ahead⟩ := (mem_actorRows few).1 mem
    exact ⟨a, mem, ours, ahead, actorDeadline_eq ahead ▸ deadline⟩
  · rintro ⟨a, mem, ours, ahead, next⟩
    exact ⟨a, (mem_actorRows few).2 ⟨mem, ours, ahead⟩, (actorDeadline_eq ahead).trans next⟩

/-- Up to the deadlines the eligible assertions are the same. -/
theorem eligible_until {db : Db F} {i j : Int} {at_ t : Time}
    (few : (actorRows db i j at_).length ≤ maxAssertionsScanned) (later : at_ ≤ t)
    (before : ∀ d ∈ (actorRows db i j at_).filterMap (·.actorDeadline at_), t < d) :
    db.eligible i j t = db.eligible i j at_ := by
  refine eligible_congr fun a mem ours => Window.open_stable later fun d next => ?_
  by_cases ahead : ∀ s, a.validUntil = some s → at_ < s
  · exact before d ((mem_deadlines few).2 ⟨a, mem, ours, ahead, next⟩)
  · push Not at ahead
    obtain ⟨s, stop, beyond⟩ := ahead
    have past : a.window.Past at_ := ⟨s, stop, beyond.trans (le_max_right _ _)⟩
    rw [past.next_eq_none] at next
    cases next

theorem actorRows_later {db : Db F} {i j : Int} {at_ t : Time}
    (few : (actorRows db i j at_).length ≤ maxAssertionsScanned) (later : at_ ≤ t) :
    (actorRows db i j t).length ≤ maxAssertionsScanned ∧ actorRows db i j t ⊆ actorRows db i j at_ := by
  have fewer : (actorRows db i j t).length ≤ maxAssertionsScanned := by
    unfold actorRows at few ⊢
    rw [← not_lt, take_few, byId, List.length_insertionSort] at few ⊢
    refine le_trans (List.Sublist.length_le (List.monotone_filter_right _ fun a => ?_)) few
    rw [Bool.and_eq_true, Bool.and_eq_true, Option.all_eq_true, Option.all_eq_true]
    exact fun both => ⟨both.1, fun s stop => decide_eq_true (lt_of_le_of_lt later (of_decide_eq_true (both.2 s stop)))⟩
  refine ⟨fewer, fun a mem => ?_⟩
  obtain ⟨mem, ours, ahead⟩ := (mem_actorRows fewer).1 mem
  exact (mem_actorRows few).2 ⟨mem, ours, fun s stop => lt_of_le_of_lt later (ahead s stop)⟩

/-- The list is the same where no window that never opens ends before the deadlines. -/
theorem rows_kept {db : Db F} {i j : Int} {at_ t : Time} (few : (actorRows db i j at_).length ≤ maxAssertionsScanned)
    (later : at_ ≤ t) (before : ∀ d ∈ (actorRows db i j at_).filterMap (·.actorDeadline at_), t < d)
    (listed : ∀ a ∈ db.assertions, a.concerns i j = true → ∀ s, a.validUntil = some s → s ≤ a.window.start → at_ < s →
      ∃ d ∈ (actorRows db i j at_).filterMap (·.actorDeadline at_), d ≤ s) :
    actorRows db i j t = actorRows db i j at_ := by
  unfold actorRows
  refine congrArg (fun l => (byId l).take (maxAssertionsScanned + 1)) (List.filter_congr fun a mem => ?_)
  rw [Bool.eq_iff_iff]
  simp only [Bool.and_eq_true, Option.all_eq_true, decide_eq_true_eq]
  refine and_congr_right fun ours => ⟨fun ahead s stop => lt_of_le_of_lt later (ahead s stop), fun ahead s stop => ?_⟩
  rcases le_or_gt s a.window.start with never | opens
  · obtain ⟨d, mem', by_⟩ := listed a mem ours s stop never (ahead s stop)
    exact lt_of_lt_of_le (before d mem') by_
  · have running : ¬ a.window.Past at_ := by
      rintro ⟨s', stop', beyond⟩
      obtain rfl := Option.some.inj (stop.symm.trans stop')
      exact absurd beyond (not_le.2 (max_lt opens (ahead s stop)))
    obtain ⟨d, next, by_⟩ := Window.next_le_stop running stop
    exact lt_of_lt_of_le (before d ((mem_deadlines few).2 ⟨a, mem, ours, ahead, next⟩)) by_

/-- The actor at a later time: only the list may differ. -/
theorem actor_later {db : Db F} {p : Subject} {at_ t : Time} {snapshot : ActorSnapshot} {deadlines : List Time}
    (done : actor sensitive rest db p at_ = .ok (snapshot, deadlines)) (later : at_ ≤ t)
    (before : ∀ d ∈ deadlines, t < d) :
    ∃ later, actor sensitive rest db p t =
      .ok (⟨snapshot.facts, actorRows db p.resourceId p.testIdentityId t, snapshot.candidate⟩, later) := by
  obtain ⟨⟨resolved, whole, credential, baseline⟩, ⟨m, previewed, one⟩, ⟨rows, few⟩, rfl⟩ :=
    (actor_ok sensitive rest).1 done
  rw [rows] at few before
  have same := eligible_until few later before
  obtain ⟨m', previewed', one'⟩ := binding_later sensitive previewed same
  exact ⟨_, (actor_ok sensitive rest).2 ⟨⟨(qualifyFacts_later same).trans resolved, whole, credential, baseline⟩,
    ⟨m', previewed', one'.trans one⟩, ⟨rfl, (actorRows_later few later).1⟩, rfl⟩⟩

/-- **The frozen actor holds up to its first deadline just where no window that never opens ends
before it.**  The facts and the candidate always do. -/
theorem actor_stable_iff (db : Db F) (p : Subject) (at_ : Time) (snapshot : ActorSnapshot) (deadlines : List Time)
    (done : actor sensitive rest db p at_ = .ok (snapshot, deadlines)) :
    (∀ t, at_ ≤ t → (∀ d ∈ deadlines, t < d) → ∃ s later, actor sensitive rest db p t = .ok (s, later) ∧
      s.facts = snapshot.facts ∧ s.candidate = snapshot.candidate ∧ s.assertions ⊆ snapshot.assertions) ∧
    (Stable sensitive rest db p at_ snapshot deadlines ↔
      ∀ a ∈ db.assertions, a.concerns p.resourceId p.testIdentityId = true → ∀ s, a.validUntil = some s →
        s ≤ a.window.start → at_ < s → ∃ d ∈ deadlines, d ≤ s) := by
  obtain ⟨-, -, ⟨rows, few⟩, deadlines_⟩ := (actor_ok sensitive rest).1 done
  rw [rows] at few deadlines_
  refine ⟨fun t later before => ?_, ?_⟩
  · obtain ⟨after, now⟩ := actor_later sensitive rest done later before
    exact ⟨_, after, now, rfl, rfl, rows ▸ (actorRows_later few later).2⟩
  · constructor
    · intro stable a mem ours s stop never ahead
      by_contra none_
      push Not at none_
      obtain ⟨after, now⟩ := stable s ahead.le none_
      obtain ⟨-, -, ⟨rows', few'⟩, -⟩ := (actor_ok sensitive rest).1 now
      have there : a ∈ actorRows db p.resourceId p.testIdentityId at_ :=
        (mem_actorRows few).2 ⟨mem, ours, fun s' stop' => Option.some.inj (stop.symm.trans stop') ▸ ahead⟩
      rw [← rows, rows'] at there
      exact lt_irrefl s (((mem_actorRows (rows' ▸ few')).1 there).2.2 s stop)
    · intro listed t later before
      obtain ⟨after, now⟩ := actor_later sensitive rest done later before
      have kept := rows_kept few later (deadlines_ ▸ before) (deadlines_ ▸ listed)
      refine ⟨after, ?_⟩
      rw [now, kept, ← rows]

end Actor

/-! ## A window that never opens -/

/-- The identity owns the resource, and again from 30 to 40; the window from 5 to 10 was asserted at
20 only. -/
private def lapsing : Db Nat where
  clean := true
  resource _ := some ⟨1⟩
  identity _ := some ⟨1, "bearer".toList, true⟩
  endpoint _ := some ⟨1, "/a/{item}".toList, .null⟩
  binding _ := some ⟨1, .path, "item".toList, .confirmed⟩
  assertions := [⟨1, 1, 1, .owner, .allowed, .humanVerified, 100, .verified, 0, none, none⟩,
    ⟨2, 1, 1, .owner, .allowed, .humanVerified, 100, .verified, 20, some 5, some 10⟩,
    ⟨3, 1, 1, .owner, .allowed, .humanVerified, 100, .verified, 0, some 30, some 40⟩]

private def bearerSubject : Subject := ⟨1, 1, 1, 1, none, true, [], .unspecified, .unspecified⟩

private def noRest : ActorRest := ⟨[], .ok (), false⟩

theorem facts_until_deadline_lapsing : resolveResourceAccess lapsing 1 1 (.aware 29) =
    (resolveResourceAccess lapsing 1 1 (.aware 7)).map (·.atTime 29) := by
  have deadlines : assertionDeadlines lapsing 1 1 7 = [30] := by decide
  refine (facts_until_deadline lapsing 1 1 7 [] (by decide)).2.1 29 (by decide) fun d mem => ?_
  rw [deadlines, List.mem_singleton] at mem
  rw [mem]
  decide

private theorem lapsing_actor {at_ : Time}
    (returns : (actor (fun _ => false) noRest lapsing bearerSubject at_).toOption.map Prod.snd = some [30]) :
    ∃ snapshot, actor (fun _ => false) noRest lapsing bearerSubject at_ = .ok (snapshot, [30]) := by
  cases done : actor (fun _ => false) noRest lapsing bearerSubject at_ with
  | error fault =>
      rw [done] at returns
      cases returns
  | ok both =>
      rw [done] at returns
      obtain ⟨snapshot, deadlines⟩ := both
      obtain rfl : deadlines = [30] := Option.some.inj returns
      exact ⟨snapshot, rfl⟩

/-- The list loses a row before the only deadline, all rows being as the constraints ask. -/
theorem lapsed_row_dropped : (∀ a ∈ lapsing.assertions, a.Checked) ∧ lapsing.assertions.length ≤ maxAssertionsScanned ∧
    ∃ snapshot deadlines, actor (fun _ => false) noRest lapsing bearerSubject 7 = .ok (snapshot, deadlines) ∧
      ¬ Stable (fun _ => false) noRest lapsing bearerSubject 7 snapshot deadlines := by
  refine ⟨?_, by decide, ?_⟩
  · intro a mem
    rcases List.mem_cons.1 mem with rfl | mem
    · exact ⟨by decide, by decide, fun _ none_ => nomatch none_⟩
    rcases List.mem_cons.1 mem with rfl | mem
    · exact ⟨by decide, by decide, fun _ same => ⟨5, rfl, Option.some.inj same ▸ by decide⟩⟩
    obtain rfl := List.mem_singleton.1 mem
    exact ⟨by decide, by decide, fun _ same => ⟨30, rfl, Option.some.inj same ▸ by decide⟩⟩
  · obtain ⟨snapshot, done⟩ := @lapsing_actor 7 (by decide)
    refine ⟨snapshot, [30], done, fun stable => ?_⟩
    obtain ⟨later, now⟩ := stable 12 (by decide) (by decide)
    obtain ⟨-, -, ⟨before, -⟩, -⟩ := (actor_ok (fun _ => false) noRest).1 done
    obtain ⟨-, -, ⟨after, -⟩, -⟩ := (actor_ok (fun _ => false) noRest).1 now
    have lost : (actorRows lapsing 1 1 12).length ≠ (actorRows lapsing 1 1 7).length := by decide
    exact lost (congrArg List.length (after.symm.trans before))

/-- From 10 on the row is in no list, so the actor of 10 is stable. -/
theorem actor_stable_iff_lapsing : ∃ snapshot deadlines,
    actor (fun _ => false) noRest lapsing bearerSubject 10 = .ok (snapshot, deadlines) ∧
      Stable (fun _ => false) noRest lapsing bearerSubject 10 snapshot deadlines := by
  obtain ⟨snapshot, done⟩ := @lapsing_actor 10 (by decide)
  refine ⟨snapshot, [30], done, (actor_stable_iff (fun _ => false) noRest lapsing bearerSubject 10 snapshot [30] done).2.2 ?_⟩
  intro a mem _ s stop never ahead
  rcases List.mem_cons.1 mem with rfl | mem
  · cases stop
  rcases List.mem_cons.1 mem with rfl | mem
  · cases stop
    exact absurd ahead (by decide)
  obtain rfl := List.mem_singleton.1 mem
  cases stop
  exact absurd never (by decide)

end ApiSecurityPlatform.Access
