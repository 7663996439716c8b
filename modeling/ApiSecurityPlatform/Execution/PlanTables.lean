/-
# Execution.PlanTables -- the rows one ExecutionPlan owns, and the statements on them

`PlanRows` is everything PostgreSQL keeps for one plan: its row in
`execution_plans`, its claim, its progress marker, its cancellation and its test
runs.  The functions below are the SQL statements of
`ExecutionPlanClaimService`, `ExecutionPlanProgressService` and
`ExecutionPlanCancellationService`, one function a statement, as the rows they
return or leave.

Timestamps are microseconds.  Every statement takes the `clock_timestamp()` it
reads as an argument, so leases may expire at any moment and no order between two
readings is assumed.
-/
import ApiSecurityPlatform.Python.Text
import Mathlib.Algebra.Group.Nat.Defs
import Mathlib.Data.Int.Order.Basic

namespace ApiSecurityPlatform.Execution

set_option autoImplicit false

/-- The largest value of a `BigInteger` column; a larger one is an SQL error. -/
def bigintMax : Nat := 2 ^ 63 - 1

/-- `execution_plan_progress.phase`. -/
inductive Phase where
  | preNetwork
  | networkStarted
  | inDoubt
deriving DecidableEq, Repr

/-- A row of `execution_plan_claims`. -/
structure ClaimRow where
  ownerId : Option String
  fencingGeneration : Nat
  leaseExpiresAt : Int
deriving DecidableEq, Repr

/-- A row of `execution_plan_progress`. -/
structure ProgressRow where
  fencingGeneration : Nat
  phase : Phase
  updatedAt : Int
deriving DecidableEq, Repr

/-- A row of `test_runs` with this plan's `execution_plan_id`.  The stored request
snapshot is not read by any of these services. -/
structure TestRun where
  testCaseId : Nat
  authorizationRevisionId : Nat
  responseStatus : Option Nat
  responseBody : Option String
  durationMs : Option Nat
  errorMessage : Option String
deriving DecidableEq, Repr

structure PlanRows where
  present : Bool
  claim : Option ClaimRow
  progress : Option ProgressRow
  cancellation : Option Int
  testRuns : List TestRun
deriving DecidableEq, Repr

/-- What `acquire` and `renew` return. -/
structure ClaimHandle where
  executionPlanId : Nat
  ownerId : String
  fencingGeneration : Nat
  leaseExpiresAt : Int
  databaseNow : Int
deriving DecidableEq, Repr

/-! ## The claim table -/

/-- `_validate`: the owner is not blank and at most 128 characters, the lease is
positive and at most 300 seconds. -/
def validateLease (ownerId : String) (lease : Nat) : Bool :=
  !ownerId.toList.all Python.isSpace && decide (ownerId.length ≤ 128) &&
    decide (0 < lease ∧ lease ≤ 300000000)

/-- The row the upsert of `acquire` returns: a first claim has generation 1, a
released or expired one is taken over with the next generation, and a live one
returns no row. -/
def acquire (claim : Option ClaimRow) (plan : Nat) (ownerId : String) (lease : Nat) (now : Int) :
    Option (ClaimRow × ClaimHandle) :=
  let taken (generation : Nat) : ClaimRow × ClaimHandle :=
    (⟨some ownerId, generation, now + lease⟩, ⟨plan, ownerId, generation, now + lease, now⟩)
  match claim with
  | none => some (taken 1)
  | some row =>
      if (row.ownerId = none ∨ row.leaseExpiresAt ≤ now) ∧ row.fencingGeneration < bigintMax then
        some (taken (row.fencingGeneration + 1))
      else none

/-- The fencing condition every guarded statement repeats, lease aside. -/
def ClaimRow.heldBy (row : ClaimRow) (handle : ClaimHandle) : Bool :=
  row.ownerId == some handle.ownerId && row.fencingGeneration == handle.fencingGeneration

/-- `assert_current`: the claim belongs to the handle and its lease is running. -/
def assertCurrent (claim : Option ClaimRow) (handle : ClaimHandle) (now : Int) : Bool :=
  match claim with
  | none => false
  | some row => row.heldBy handle && decide (now < row.leaseExpiresAt)

def renew (claim : Option ClaimRow) (handle : ClaimHandle) (lease : Nat) (now : Int) :
    Option (ClaimRow × ClaimHandle) :=
  match claim with
  | none => none
  | some row =>
      if row.heldBy handle ∧ now < row.leaseExpiresAt then
        some ({ row with leaseExpiresAt := now + lease },
          { handle with leaseExpiresAt := now + lease, databaseNow := now })
      else none

/-- The update of `release`: it does not look at the lease. -/
def release (claim : Option ClaimRow) (handle : ClaimHandle) (now : Int) : Option ClaimRow :=
  match claim with
  | none => none
  | some row =>
      if row.heldBy handle then some { row with ownerId := none, leaseExpiresAt := now } else none

/-- The second statement of `release`: this generation is already released. -/
def alreadyReleased (claim : Option ClaimRow) (handle : ClaimHandle) : Bool :=
  match claim with
  | none => false
  | some row => row.ownerId == none && row.fencingGeneration == handle.fencingGeneration

/-! ## The progress table -/

inductive Prepared where
  | prepared (row : ProgressRow)
  | inDoubt
  | lost
deriving DecidableEq, Repr

/-- The one statement of `prepare_attempt`.  `now` is the reading in the claim's
`WHERE`, `at_` the one in `db_time`. -/
def prepareAttempt (rows : PlanRows) (handle : ClaimHandle) (now at_ : Int) : Prepared :=
  let row : ProgressRow := ⟨handle.fencingGeneration, .preNetwork, at_⟩
  if assertCurrent rows.claim handle now then
    match rows.progress with
    | none => .prepared row
    | some old =>
        if old.phase = .preNetwork ∧ old.fencingGeneration ≤ handle.fencingGeneration then
          .prepared row
        else if old.phase = .networkStarted ∨ old.phase = .inDoubt then .inDoubt
        else .lost
  else .lost

/-- The last statement of `mark_network_started`. -/
def startNetwork (progress : Option ProgressRow) (handle : ClaimHandle) (now : Int) :
    Option ProgressRow :=
  match progress with
  | none => none
  | some row =>
      if row.fencingGeneration = handle.fencingGeneration ∧ row.phase = .preNetwork then
        some { row with phase := .networkStarted, updatedAt := now }
      else none

/-- The phase test of `request_cancel`: the plan may have crossed the network. -/
def mayHaveCrossed (progress : Option ProgressRow) : Bool :=
  match progress with
  | none => false
  | some row => row.phase == .networkStarted || row.phase == .inDoubt

/-! ## What the statements leave -/

/-- The claim row's generation; a plan never claimed counts as 0. -/
def PlanRows.generation (rows : PlanRows) : Nat :=
  rows.claim.elim 0 ClaimRow.fencingGeneration

/-- The progress marker says the request may be on the wire. -/
def PlanRows.started (rows : PlanRows) : Prop :=
  ∃ row, rows.progress = some row ∧ row.phase = .networkStarted

theorem acquire_spec {claim : Option ClaimRow} {plan : Nat} {ownerId : String} {lease : Nat}
    {now : Int} {row : ClaimRow} {handle : ClaimHandle}
    (taken : acquire claim plan ownerId lease now = some (row, handle)) :
    handle.executionPlanId = plan ∧ row.ownerId = some handle.ownerId ∧
      row.fencingGeneration = handle.fencingGeneration ∧
      row.fencingGeneration = claim.elim 0 ClaimRow.fencingGeneration + 1 := by
  cases claim with
  | none =>
      simp only [acquire, Option.some.injEq, Prod.mk.injEq] at taken
      obtain ⟨rfl, rfl⟩ := taken
      simp
  | some old =>
      simp only [acquire] at taken
      split at taken
      · simp only [Option.some.injEq, Prod.mk.injEq] at taken
        obtain ⟨rfl, rfl⟩ := taken
        simp
      · cases taken

theorem heldBy_iff {row : ClaimRow} {handle : ClaimHandle} :
    row.heldBy handle = true ↔
      row.ownerId = some handle.ownerId ∧ row.fencingGeneration = handle.fencingGeneration := by
  simp [ClaimRow.heldBy]

theorem assertCurrent_spec {claim : Option ClaimRow} {handle : ClaimHandle} {now : Int}
    (current : assertCurrent claim handle now = true) :
    ∃ row, claim = some row ∧ row.ownerId = some handle.ownerId ∧
      row.fencingGeneration = handle.fencingGeneration := by
  cases claim with
  | none => simp [assertCurrent] at current
  | some row =>
      simp only [assertCurrent, Bool.and_eq_true, heldBy_iff] at current
      exact ⟨row, rfl, current.1⟩

theorem renew_spec {claim : Option ClaimRow} {handle next : ClaimHandle} {lease : Nat} {now : Int}
    {row : ClaimRow} (renewed : renew claim handle lease now = some (row, next)) :
    ∃ old, claim = some old ∧ old.ownerId = some handle.ownerId ∧
      old.fencingGeneration = handle.fencingGeneration ∧
      row.fencingGeneration = old.fencingGeneration ∧ row.ownerId = old.ownerId ∧
      next.executionPlanId = handle.executionPlanId ∧ next.ownerId = handle.ownerId ∧
      next.fencingGeneration = handle.fencingGeneration := by
  cases claim with
  | none => simp [renew] at renewed
  | some old =>
      simp only [renew] at renewed
      split at renewed
      · rename_i held
        simp only [Option.some.injEq, Prod.mk.injEq] at renewed
        obtain ⟨rfl, rfl⟩ := renewed
        exact ⟨old, rfl, (heldBy_iff.1 held.1).1, (heldBy_iff.1 held.1).2, rfl, rfl, rfl, rfl, rfl⟩
      · cases renewed

theorem release_spec {claim : Option ClaimRow} {handle : ClaimHandle} {now : Int} {row : ClaimRow}
    (released : release claim handle now = some row) :
    ∃ old, claim = some old ∧ old.ownerId = some handle.ownerId ∧
      old.fencingGeneration = handle.fencingGeneration ∧
      row.fencingGeneration = old.fencingGeneration := by
  cases claim with
  | none => simp [release] at released
  | some old =>
      simp only [release] at released
      split at released
      · rename_i held
        cases released
        exact ⟨old, rfl, (heldBy_iff.1 held).1, (heldBy_iff.1 held).2, rfl⟩
      · cases released

theorem prepareAttempt_spec {rows : PlanRows} {handle : ClaimHandle} {now at_ : Int}
    {row : ProgressRow} (prepared : prepareAttempt rows handle now at_ = .prepared row) :
    assertCurrent rows.claim handle now = true ∧ row.phase = .preNetwork ∧
      row.fencingGeneration = handle.fencingGeneration ∧
      ∀ old, rows.progress = some old → old.phase = .preNetwork := by
  simp only [prepareAttempt] at prepared
  split at prepared
  · rename_i current
    split at prepared
    · rename_i absent
      cases prepared
      exact ⟨current, rfl, rfl, fun old h => by rw [absent] at h; cases h⟩
    · rename_i old found
      split at prepared
      · rename_i fresh
        cases prepared
        refine ⟨current, rfl, rfl, fun old' h => ?_⟩
        rw [found] at h
        cases h
        exact fresh.1
      · split at prepared <;> cases prepared
  · cases prepared

theorem startNetwork_spec {progress : Option ProgressRow} {handle : ClaimHandle} {now : Int}
    {row : ProgressRow} (moved : startNetwork progress handle now = some row) :
    ∃ old, progress = some old ∧ old.phase = .preNetwork ∧
      old.fencingGeneration = handle.fencingGeneration ∧ row.phase = .networkStarted ∧
      row.fencingGeneration = handle.fencingGeneration := by
  cases progress with
  | none => simp [startNetwork] at moved
  | some old =>
      simp only [startNetwork] at moved
      split at moved
      · rename_i fits
        cases moved
        exact ⟨old, rfl, fits.2, fits.1, rfl, fits.1⟩
      · cases moved

theorem not_started_of_not_crossed {rows : PlanRows} (clear : mayHaveCrossed rows.progress = false) :
    ¬ rows.started := by
  rintro ⟨row, found, phase⟩
  simp [mayHaveCrossed, found, phase] at clear

end ApiSecurityPlatform.Execution
