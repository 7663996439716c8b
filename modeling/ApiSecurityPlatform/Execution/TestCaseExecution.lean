/-
# Execution.TestCaseExecution -- `TestExecutionService.execute` and its status column

A call loads the case and its status, validates, resolves the credential, and only
then takes the case with `UPDATE ... WHERE status = observed`; it writes the final
status when the executor has answered.  Every group of statements up to a commit is
one step, and any number of calls interleave.

The compare-and-set would make the status a lock, but one exit writes it without
holding it: a call whose credential does not resolve sets `blocked` before it has
acquired anything.  If another call is in flight at that moment the lock is
broken, and a third call can acquire it.  `one_execution_in_flight_iff` says that
this is the only way: along every run the exclusion holds exactly when no
credential failure overwrites a `running` status.
-/
import ApiSecurityPlatform.Theory.Transition
import Mathlib.Logic.Function.Basic

namespace ApiSecurityPlatform.Execution.TestCase

open ApiSecurityPlatform.Theory

set_option autoImplicit false

/-- `test_cases.status`. -/
inductive Status where
  | pending
  | running
  | blocked
  | failed
  | completed
deriving DecidableEq, Repr

/-- Where one call of `execute` stands. -/
inductive Call where
  | ready
  /-- The case is loaded, with this `observed_status`. -/
  | observed (status : Status)
  /-- Between the successful compare-and-set and the final status write. -/
  | inFlight
  | ended
deriving DecidableEq, Repr

/-- One case and all calls on it. -/
structure State (C : Type) where
  status : Status
  call : C → Call

/-- The paths of `execute`, by the call that takes them. -/
inductive Move (C : Type) where
  | load (c : C)
  | alreadyRunning (c : C)
  | refuse (c : C)
  | credentialFails (c : C)
  | acquire (c : C)
  | outrun (c : C)
  | policyBlocks (c : C)
  | httpFails (c : C)
  | succeeds (c : C)
deriving DecidableEq, Repr

variable {C : Type}

def Move.caller : Move C → C
  | .load c => c
  | .alreadyRunning c => c
  | .refuse c => c
  | .credentialFails c => c
  | .acquire c => c
  | .outrun c => c
  | .policyBlocks c => c
  | .httpFails c => c
  | .succeeds c => c

/-! ## The exclusion and its condition -/

/-- At most one call is between its acquisition and its final status write. -/
def Exclusive (s : State C) : Prop :=
  ∀ c d, s.call c = .inFlight → s.call d = .inFlight → c = d

/-- The step leaves at most one call in flight, and changes no status under another
call that is. -/
def Respects (s : State C) (a : Move C) (t : State C) : Prop :=
  Exclusive t ∧ (t.status ≠ s.status → ∀ d, s.call d = .inFlight → d = a.caller)

/-- The condition on a step: a call that fails on its credential, having observed
anything but `blocked`, does so while the row is not `running`. -/
def Careful (s : State C) : Move C → Prop
  | .credentialFails c => ∀ status, s.call c = .observed status → status ≠ .blocked →
      s.status ≠ .running
  | _ => True

/-! ## The calls -/

variable [DecidableEq C]

def State.goto (s : State C) (c : C) (place : Call) (status : Status) : State C :=
  ⟨status, Function.update s.call c place⟩

@[simp]
theorem goto_self (s : State C) (c : C) (place : Call) (status : Status) :
    (s.goto c place status).call c = place := by
  simp [State.goto]

theorem goto_other (s : State C) {c d : C} (place : Call) (status : Status) (other : d ≠ c) :
    (s.goto c place status).call d = s.call d := by
  simp [State.goto, other]

/-- What `test_case.status = "blocked"` followed by a commit leaves in the row: the
session emits no `UPDATE` for an attribute that already had the value. -/
def flushBlocked (observed row : Status) : Status :=
  if observed = .blocked then row else .blocked

inductive Step : State C → Move C → State C → Prop where
  | load {s : State C} {c : C} (fresh : s.call c = .ready) (free : s.status ≠ .running) :
      Step s (.load c) (s.goto c (.observed s.status) s.status)
  | alreadyRunning {s : State C} {c : C} (fresh : s.call c = .ready)
      (taken : s.status = .running) : Step s (.alreadyRunning c) (s.goto c .ended s.status)
  /-- `reject_case`, missing rows, a required approval, a foreign actor or resource,
  an unresolved path: all raise before any write. -/
  | refuse {s : State C} {c : C} {status : Status} (seen : s.call c = .observed status) :
      Step s (.refuse c) (s.goto c .ended s.status)
  | credentialFails {s : State C} {c : C} {status : Status}
      (seen : s.call c = .observed status) :
      Step s (.credentialFails c) (s.goto c .ended (flushBlocked status s.status))
  | acquire {s : State C} {c : C} {status : Status} (seen : s.call c = .observed status)
      (same : s.status = status) : Step s (.acquire c) (s.goto c .inFlight .running)
  | outrun {s : State C} {c : C} {status : Status} (seen : s.call c = .observed status)
      (changed : s.status ≠ status) : Step s (.outrun c) (s.goto c .ended s.status)
  | policyBlocks {s : State C} {c : C} (flying : s.call c = .inFlight) :
      Step s (.policyBlocks c) (s.goto c .ended .blocked)
  | httpFails {s : State C} {c : C} (flying : s.call c = .inFlight) :
      Step s (.httpFails c) (s.goto c .ended .failed)
  | succeeds {s : State C} {c : C} (flying : s.call c = .inFlight) :
      Step s (.succeeds c) (s.goto c .ended .completed)

/-- All calls on one case, none of them started. -/
def executions (C : Type) [DecidableEq C] : System (State C) (Move C) where
  init s := ∀ c, s.call c = .ready
  step := Step

/-! ## The invariant of careful runs -/

/-- While every step is careful, `running` is a lock: the call in flight holds it,
and no call ever loads it. -/
structure Inv (s : State C) : Prop where
  exclusive : Exclusive s
  locked : ∀ c, s.call c = .inFlight → s.status = .running
  loaded : ∀ c, s.call c ≠ .observed .running
  held : s.status = .running →
    (∃ c, s.call c = .inFlight) ∨ ∀ c status, s.call c ≠ .observed status

section Proofs

variable {s t : State C} {c d : C} {a : Move C}

omit [DecidableEq C] in
theorem inv_init (start : ∀ c, s.call c = .ready) : Inv s where
  exclusive c d flying := by
    rw [start c] at flying
    cases flying
  locked c flying := by
    rw [start c] at flying
    cases flying
  loaded c seen := by
    rw [start c] at seen
    cases seen
  held _ := by
    right
    intro c status seen
    rw [start c] at seen
    cases seen

/-- Who stands where after one call has moved. -/
theorem goto_call {place there : Call} {status : Status}
    (at_ : (s.goto c place status).call d = there) : (d = c ∧ there = place) ∨ s.call d = there := by
  by_cases same : d = c
  · left
    rw [same, goto_self] at at_
    exact ⟨same, at_.symm⟩
  · right
    rw [goto_other s place status same] at at_
    exact at_

/-- A call that leaves without touching the row. -/
theorem Inv.leave (inv : Inv s) (away : s.call c ≠ .inFlight) : Inv (s.goto c .ended s.status) := by
  have before : ∀ d there, there ≠ .ended → (s.goto c .ended s.status).call d = there →
      s.call d = there := by
    intro d there alive at_
    rcases goto_call at_ with ⟨-, gone⟩ | same
    · exact absurd gone alive
    · exact same
  refine ⟨?_, ?_, ?_, ?_⟩
  · intro d e flying flying'
    exact inv.exclusive d e (before d _ (by simp) flying) (before e _ (by simp) flying')
  · intro d flying
    exact inv.locked d (before d _ (by simp) flying)
  · intro d seen
    exact inv.loaded d (before d _ (by simp) seen)
  · intro running
    rcases inv.held running with ⟨d, flying⟩ | nobody
    · left
      refine ⟨d, ?_⟩
      have other : d ≠ c := by
        intro same
        rw [same] at flying
        exact away flying
      rw [goto_other s _ _ other]
      exact flying
    · right
      intro d status seen
      exact nobody d status (before d _ (by simp) seen)

/-- A call that ends and leaves a status other than `running`, with nobody else in
flight: the final write, or a credential failure under the condition. -/
theorem Inv.write (inv : Inv s) {status : Status} (free : status ≠ .running)
    (alone : ∀ d, s.call d = .inFlight → d = c) : Inv (s.goto c .ended status) := by
  have landed : ∀ d, (s.goto c .ended status).call d ≠ .inFlight := by
    intro d flying
    rcases goto_call flying with ⟨-, gone⟩ | same
    · cases gone
    · have mine := alone d same
      rw [mine, goto_self] at flying
      cases flying
  refine ⟨?_, ?_, ?_, ?_⟩
  · intro d e flying
    exact absurd flying (landed d)
  · intro d flying
    exact absurd flying (landed d)
  · intro d seen
    rcases goto_call seen with ⟨-, gone⟩ | same
    · cases gone
    · exact inv.loaded d same
  · intro running
    exact absurd running free

/-- The compare-and-set: it succeeds only on a status the call loaded, so the lock
was free. -/
theorem Inv.take (inv : Inv s) (seen : s.call c = .observed s.status) :
    Inv (s.goto c .inFlight .running) := by
  have free : s.status ≠ .running := by
    intro running
    rw [running] at seen
    exact inv.loaded c seen
  have only : ∀ d, (s.goto c .inFlight .running).call d = .inFlight → d = c := by
    intro d flying
    rcases goto_call flying with ⟨mine, -⟩ | same
    · exact mine
    · exact absurd (inv.locked d same) free
  refine ⟨?_, ?_, ?_, ?_⟩
  · intro d e flying flying'
    rw [only d flying, only e flying']
  · intro d _
    rfl
  · intro d seen'
    rcases goto_call seen' with ⟨-, gone⟩ | same
    · cases gone
    · exact inv.loaded d same
  · intro _
    exact .inl ⟨c, goto_self s c _ _⟩

theorem Inv.load (inv : Inv s) (free : s.status ≠ .running) :
    Inv (s.goto c (.observed s.status) s.status) := by
  have before : ∀ d, (s.goto c (.observed s.status) s.status).call d = .inFlight →
      s.call d = .inFlight := by
    intro d flying
    rcases goto_call flying with ⟨-, gone⟩ | same
    · cases gone
    · exact same
  refine ⟨?_, ?_, ?_, ?_⟩
  · intro d e flying flying'
    exact inv.exclusive d e (before d flying) (before e flying')
  · intro d flying
    exact inv.locked d (before d flying)
  · intro d seen
    rcases goto_call seen with ⟨-, same⟩ | same
    · injection same with row
      exact free row.symm
    · exact inv.loaded d same
  · intro running
    exact absurd running free

omit [DecidableEq C] in
/-- A step that leaves the status alone only has to leave one call in flight. -/
theorem respects_of_same (inv : Inv t) (same : t.status = s.status) : Respects s a t :=
  ⟨inv.exclusive, fun changed => absurd same changed⟩

/-- The call in flight ends with its own final write. -/
theorem Inv.land (inv : Inv s) (flying : s.call c = .inFlight) (mine : a.caller = c)
    {status : Status} (free : status ≠ .running) :
    Inv (s.goto c .ended status) ∧ Respects s a (s.goto c .ended status) := by
  have alone : ∀ d, s.call d = .inFlight → d = c := fun d flying' =>
    inv.exclusive d c flying' flying
  have kept : Inv (s.goto c .ended status) := inv.write free alone
  refine ⟨kept, kept.exclusive, fun _ d flying' => ?_⟩
  rw [mine]
  exact alone d flying'

omit [DecidableEq C] in
theorem not_inFlight_of_observed {status : Status} (seen : s.call c = .observed status) :
    s.call c ≠ .inFlight := by
  rw [seen]
  exact fun flying => by cases flying

/-- **The step lemma**: under the invariant a careful step keeps it and respects
the exclusion. -/
theorem Inv.step (inv : Inv s) (step : Step s a t) (careful : Careful s a) :
    Inv t ∧ Respects s a t := by
  cases step with
  | @load c fresh free =>
      have kept := inv.load (c := c) free
      exact ⟨kept, respects_of_same kept rfl⟩
  | @alreadyRunning c fresh taken =>
      have kept := inv.leave (c := c) (by rw [fresh]; exact fun flying => by cases flying)
      exact ⟨kept, respects_of_same kept rfl⟩
  | @refuse c status seen =>
      have kept := inv.leave (not_inFlight_of_observed seen)
      exact ⟨kept, respects_of_same kept rfl⟩
  | @credentialFails c status seen =>
      by_cases noop : status = .blocked
      · have kept := inv.leave (not_inFlight_of_observed seen)
        have same : flushBlocked status s.status = s.status := by simp [flushBlocked, noop]
        rw [same]
        exact ⟨kept, respects_of_same kept rfl⟩
      · -- the row is not `running`, so nobody is in flight
        have free : s.status ≠ .running := careful status seen noop
        have nobody : ∀ d, s.call d ≠ .inFlight := fun d flying => free (inv.locked d flying)
        have written : flushBlocked status s.status = .blocked := by simp [flushBlocked, noop]
        rw [written]
        have kept : Inv (s.goto c .ended .blocked) :=
          inv.write (by simp) (fun d flying => absurd flying (nobody d))
        exact ⟨kept, kept.exclusive, fun _ d flying => absurd flying (nobody d)⟩
  | @acquire c status seen same =>
      subst same
      have free : s.status ≠ .running := by
        intro running
        rw [running] at seen
        exact inv.loaded c seen
      have kept := inv.take seen
      exact ⟨kept, kept.exclusive, fun _ d flying => absurd (inv.locked d flying) free⟩
  | outrun seen changed =>
      have kept := inv.leave (not_inFlight_of_observed seen)
      exact ⟨kept, respects_of_same kept rfl⟩
  | policyBlocks flying => exact inv.land flying rfl (by simp)
  | httpFails flying => exact inv.land flying rfl (by simp)
  | succeeds flying => exact inv.land flying rfl (by simp)

/-- A careless step overwrites the status under the call that is in flight. -/
theorem Inv.careful_of_respects (inv : Inv s) (step : Step s a t) (respects : Respects s a t) :
    Careful s a := by
  cases step with
  | @credentialFails c status seen =>
      intro status' seen' unblocked running
      rw [seen] at seen'
      cases seen'
      rcases inv.held running with ⟨d, flying⟩ | nobody
      · have changed : flushBlocked status s.status ≠ s.status := by
          simp [flushBlocked, unblocked, running]
        have mine : d = c := respects.2 changed d flying
        rw [mine, seen] at flying
        cases flying
      · exact nobody c status seen
  | _ => trivial

/-! ## Whole runs -/

theorem careful_run_inv {s₀ : State C} {trace : List (Move C)} (start : (executions C).init s₀)
    (run : ((executions C).restrict Careful).Run s₀ trace s) : Inv s := by
  refine run.preserves (I := Inv) ?_ (inv_init start)
  rintro s a t inv ⟨step, careful⟩
  exact (inv.step step careful).1

/-- A run all of whose steps respect the exclusion is a careful run. -/
theorem careful_of_respects {s₀ : State C} {trace : List (Move C)} (start : (executions C).init s₀)
    (run : (executions C).Run s₀ trace s) (always : (executions C).Always s₀ trace s Respects) :
    ((executions C).restrict Careful).Run s₀ trace s := by
  induction run with
  | refl => exact .refl _
  | @snoc t u trace a run last ih =>
      have before := ih (always.init last)
      have respects := always trace a [] t u rfl run last (.refl u)
      exact before.snoc ⟨last, (careful_run_inv start before).careful_of_respects last respects⟩

/-- **One execution in flight, and exactly when.**  Along every run of any number of
calls, at most one call is in flight after every step and at the end, and no step
changes the status under another call in flight, if and only if every step is
careful. -/
theorem one_execution_in_flight_iff {s₀ : State C} {trace : List (Move C)}
    (start : (executions C).init s₀) (run : (executions C).Run s₀ trace s) :
    (executions C).Always s₀ trace s Respects ∧ Exclusive s ↔
      (executions C).Always s₀ trace s (fun t a _ => Careful t a) := by
  refine ⟨?_, ?_⟩
  · rintro ⟨always, -⟩ before a after t t' cut first step rest
    have careful := careful_of_respects start first (always.before cut step rest)
    exact (careful_run_inv start careful).careful_of_respects step
      (always before a after t t' cut first step rest)
  · intro always
    refine ⟨?_, (careful_run_inv start (run.restrict always)).exclusive⟩
    intro before a after t t' cut first step rest
    have careful := first.restrict (always.before cut step rest)
    exact ((careful_run_inv start careful).step step
      (always before a after t t' cut first step rest)).2

end Proofs

/-! ## The broken lock -/

/-- Calls 0 and 1 load `pending`; 0 acquires the case; 1 fails on its credential and
writes `blocked`; 2 loads `blocked` and acquires the case as well. -/
def brokenLock : List (Move Nat) :=
  [.load 0, .load 1, .acquire 0, .credentialFails 1, .load 2, .acquire 2]

theorem brokenLock_run :
    ∃ s, (executions Nat).Run ⟨.pending, fun _ => .ready⟩ brokenLock s ∧
      s.call 0 = .inFlight ∧ s.call 2 = .inFlight := by
  refine ⟨_, .cons (@Step.load _ _ _ 0 rfl (by decide)) <| .cons (@Step.load _ _ _ 1 rfl (by decide)) <|
    .cons (@Step.acquire _ _ _ 0 .pending rfl rfl) <|
    .cons (@Step.credentialFails _ _ _ 1 .pending rfl) <|
    .cons (@Step.load _ _ _ 2 rfl (by decide)) <|
    .cons (@Step.acquire _ _ _ 2 .blocked rfl rfl) (.refl _), ?_, ?_⟩
  · rfl
  · rfl

/-- Two executions of one case are in flight. -/
theorem two_executions_in_flight :
    ∃ s, (executions Nat).Run ⟨.pending, fun _ => .ready⟩ brokenLock s ∧ ¬ Exclusive s := by
  obtain ⟨s, run, first, third⟩ := brokenLock_run
  refine ⟨s, run, fun exclusive => ?_⟩
  have same := exclusive 0 2 first third
  cases same

/-- Two calls with a valid credential: the second is turned away, and every step
respects the exclusion. -/
theorem one_execution_in_flight_two_calls :
    ∃ s, (executions Nat).Run ⟨.pending, fun _ => .ready⟩
        [.load 0, .load 1, .acquire 0, .outrun 1, .succeeds 0] s ∧
      (executions Nat).Always ⟨.pending, fun _ => .ready⟩
        [.load 0, .load 1, .acquire 0, .outrun 1, .succeeds 0] s Respects := by
  have run : ∃ s, (executions Nat).Run ⟨.pending, fun _ => .ready⟩
      [.load 0, .load 1, .acquire 0, .outrun 1, .succeeds 0] s :=
    ⟨_, .cons (@Step.load _ _ _ 0 rfl (by decide)) <|
      .cons (@Step.load _ _ _ 1 rfl (by decide)) <|
      .cons (@Step.acquire _ _ _ 0 .pending rfl rfl) <|
      .cons (@Step.outrun _ _ _ 1 .pending rfl (by decide)) <|
      .cons (@Step.succeeds _ _ _ 0 rfl) (.refl _)⟩
  obtain ⟨s, run⟩ := run
  refine ⟨s, run, ((one_execution_in_flight_iff (fun _ => rfl) run).2 ?_).1⟩
  intro before a after t t' cut first step rest
  have member : a ∈ [Move.load 0, .load 1, .acquire 0, .outrun 1, .succeeds 0] := by
    rw [cut]
    simp
  simp only [List.mem_cons, List.not_mem_nil, or_false] at member
  rcases member with rfl | rfl | rfl | rfl | rfl <;> trivial

end ApiSecurityPlatform.Execution.TestCase
