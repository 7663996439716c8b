/-
# Execution.PlanServices -- sessions, row locks and the three services as transactions

Any number of sessions run the transactions of the claim, progress and
cancellation services, and of the result writer, one SQL statement at a time.  A
transaction of one statement (`acquire`, `assert_current`, `renew`, `release`,
`prepare_attempt`) is one step; `mark_network_started`, `request_cancel`, `_finish` and the research
send are several, and between two statements of one session every other session
may move.

PostgreSQL's row locks are explicit: `planLock` is the `FOR UPDATE` lock on
`execution_plans`, `claimLock` the one on `execution_plan_claims`.  A statement
that needs a lock another session holds has no step (it waits, or times out and
its transaction aborts).  Writes of an open transaction live in its stage and
reach the tables at its commit.  `prepare_attempt` writes the progress row under
the claim's lock only, exactly as the source does.

A commit carries `acked`: `true` when the service call sees it and returns,
`false` when the acknowledgement is lost and the service retries blindly.  A
retry is another transaction of the same session, and `abort` is every failure,
timeout and crash.  Nothing ties a session to the handle it presents, so stale
holders, repeated owner ids and calls out of order are all runs of this system.

`Inv` is the lock discipline together with what an open transaction has
established about its plan (`Txn.Guarded`); every step keeps it (`Inv.step`).
-/
import ApiSecurityPlatform.Theory.Transition
import ApiSecurityPlatform.Execution.PlanTables
import Mathlib.Logic.Function.Basic

namespace ApiSecurityPlatform.Execution

open ApiSecurityPlatform.Theory

set_option autoImplicit false

/-- Statements `mark_network_started` has executed. -/
inductive MarkStage where
  | locked
  | claimed
  | uncancelled
  | updated (row : ProgressRow)
deriving DecidableEq, Repr

/-- Statements `request_cancel` has executed. -/
inductive CancelStage where
  | locked
  | uncompleted
  | unstarted
  | inserted (requestedAt : Int)
deriving DecidableEq, Repr

/-- Statements the transaction of `_finish` has executed. -/
inductive ResultStage where
  | current
  | flushed (run : TestRun)
deriving DecidableEq, Repr

/-- Statements of the research send that touch this plan's rows. -/
inductive SendStage where
  | locked
  | current
deriving DecidableEq, Repr

/-- An open multi-statement transaction. -/
inductive Txn where
  | mark (handle : ClaimHandle) (stage : MarkStage)
  | cancel (plan : Nat) (stage : CancelStage)
  | result (handle : ClaimHandle) (stage : ResultStage)
  | send (handle : ClaimHandle) (stage : SendStage)
deriving DecidableEq, Repr

namespace Txn

def plan : Txn → Nat
  | .mark handle _ => handle.executionPlanId
  | .cancel plan _ => plan
  | .result handle _ => handle.executionPlanId
  | .send handle _ => handle.executionPlanId

/-- The transaction holds the row lock on `execution_plans`. -/
def holdsPlan : Txn → Bool
  | .mark _ _ => true
  | .cancel _ _ => true
  | .result _ _ => false
  | .send _ _ => true

/-- The transaction holds the row lock on `execution_plan_claims`. -/
def holdsClaim : Txn → Bool
  | .mark _ .locked => false
  | .mark _ _ => true
  | .cancel _ _ => false
  | .result _ _ => true
  | .send _ .locked => false
  | .send _ .current => true

/-- The claim row carries the handle's owner and generation. -/
def Fenced (rows : PlanRows) (handle : ClaimHandle) : Prop :=
  ∃ row, rows.claim = some row ∧ row.ownerId = some handle.ownerId ∧
    row.fencingGeneration = handle.fencingGeneration

/-- What the statements executed so far have established about the plan's rows,
and the locks keep true until the transaction ends. -/
def Guarded (rows : PlanRows) : Txn → Prop
  | .mark _ .locked => True
  | .mark handle .claimed => Fenced rows handle
  | .mark handle .uncancelled => Fenced rows handle ∧ rows.cancellation = none
  | .mark handle (.updated row) => Fenced rows handle ∧ rows.cancellation = none ∧
      (∃ old, rows.progress = some old ∧ old.phase = .preNetwork) ∧
      row.phase = .networkStarted ∧ row.fencingGeneration = handle.fencingGeneration
  | .cancel _ .locked => True
  | .cancel _ .uncompleted => True
  | .cancel _ .unstarted => ¬ rows.started
  | .cancel _ (.inserted _) => ¬ rows.started
  | .result handle .current => Fenced rows handle
  | .result handle (.flushed _) => Fenced rows handle ∧ rows.testRuns = []
  | .send _ .locked => True
  | .send handle .current => Fenced rows handle

/-- A write to the claim row does not disturb a transaction without its lock. -/
theorem Guarded.claim_write {rows : PlanRows} {txn : Txn} (guarded : txn.Guarded rows)
    (outside : txn.holdsClaim = false) (claim : Option ClaimRow) :
    txn.Guarded { rows with claim := claim } := by
  cases txn with
  | mark handle stage => cases stage <;> simp_all [holdsClaim, Guarded]
  | cancel plan stage => cases stage <;> simp_all [Guarded, PlanRows.started]
  | result handle stage => simp [holdsClaim] at outside
  | send handle stage => cases stage <;> simp_all [holdsClaim, Guarded]

/-- `prepare_attempt` does not disturb a transaction without the claim's lock, in
particular a `request_cancel` that has already read the phase. -/
theorem Guarded.prepare {rows : PlanRows} {txn : Txn} (guarded : txn.Guarded rows)
    (outside : txn.holdsClaim = false) {row : ProgressRow} (phase : row.phase = .preNetwork) :
    txn.Guarded { rows with progress := some row } := by
  cases txn with
  | mark handle stage => cases stage <;> simp_all [holdsClaim, Guarded]
  | cancel plan stage => cases stage <;> simp_all [Guarded, PlanRows.started]
  | result handle stage => simp [holdsClaim] at outside
  | send handle stage => cases stage <;> simp_all [holdsClaim, Guarded]

/-- A commit under the plan's lock keeps the claim row and the test runs, which is
all that a transaction without that lock relies on. -/
theorem Guarded.plan_write {rows rows' : PlanRows} {txn : Txn} (guarded : txn.Guarded rows)
    (outside : txn.holdsPlan = false) (claim : rows'.claim = rows.claim)
    (runs : rows'.testRuns = rows.testRuns) : txn.Guarded rows' := by
  cases txn with
  | result handle stage => cases stage <;> simpa [Guarded, Fenced, claim, runs] using guarded
  | _ => simp [holdsPlan] at outside

/-- A new test run is committed under the claim's lock, so every other transaction
on the plan is without it. -/
theorem Guarded.testRuns {rows : PlanRows} {txn : Txn} (guarded : txn.Guarded rows)
    (outside : txn.holdsClaim = false) (runs : List TestRun) :
    txn.Guarded { rows with testRuns := runs } := by
  cases txn with
  | mark handle stage => cases stage <;> exact guarded
  | cancel plan stage => cases stage <;> exact guarded
  | result handle stage => simp [holdsClaim] at outside
  | send handle stage => cases stage <;> exact guarded

end Txn

/-- The database and its open transactions; `S` names the sessions. -/
structure State (S : Type) where
  rows : Nat → PlanRows
  planLock : Nat → Option S
  claimLock : Nat → Option S
  txn : S → Option Txn

/-- What a session does to the database. -/
inductive Action (S : Type) where
  | acquired (session : S) (handle : ClaimHandle)
  | asserted (session : S) (handle : ClaimHandle)
  | renewed (session : S) (handle next : ClaimHandle)
  | released (session : S) (handle : ClaimHandle)
  | prepared (session : S) (handle : ClaimHandle)
  | markBegin (session : S) (handle : ClaimHandle)
  | markStatement (session : S) (handle : ClaimHandle)
  | markCommit (session : S) (handle : ClaimHandle) (acked : Bool)
  | cancelBegin (session : S) (plan : Nat)
  | cancelStatement (session : S) (plan : Nat)
  | cancelCommit (session : S) (plan : Nat) (acked : Bool)
  | resultBegin (session : S) (handle : ClaimHandle)
  | resultFlush (session : S) (handle : ClaimHandle)
  | resultCommit (session : S) (handle : ClaimHandle) (acked : Bool)
  | sendBegin (session : S) (handle : ClaimHandle)
  | sendStatement (session : S) (handle : ClaimHandle)
  | sendEnd (session : S) (handle : ClaimHandle)
  | abort (session : S)
deriving DecidableEq

/-- The handle an operation is presented with; `acquire` and `request_cancel` have
none. -/
def Action.presented {S : Type} : Action S → Option ClaimHandle
  | .asserted _ handle => some handle
  | .renewed _ handle _ => some handle
  | .released _ handle => some handle
  | .prepared _ handle => some handle
  | .markBegin _ handle => some handle
  | .markStatement _ handle => some handle
  | .markCommit _ handle _ => some handle
  | .resultBegin _ handle => some handle
  | .resultFlush _ handle => some handle
  | .resultCommit _ handle _ => some handle
  | .sendBegin _ handle => some handle
  | .sendStatement _ handle => some handle
  | .sendEnd _ handle => some handle
  | _ => none

namespace State

variable {S : Type} [DecidableEq S]

def write (σ : State S) (plan : Nat) (rows : PlanRows) : State S :=
  { σ with rows := Function.update σ.rows plan rows }

def advance (σ : State S) (session : S) (txn : Txn) : State S :=
  { σ with txn := Function.update σ.txn session (some txn) }

def lockPlan (σ : State S) (session : S) (plan : Nat) : State S :=
  { σ with planLock := Function.update σ.planLock plan (some session) }

def lockClaim (σ : State S) (session : S) (plan : Nat) : State S :=
  { σ with claimLock := Function.update σ.claimLock plan (some session) }

/-- Commit or abort: the session's transaction is gone and its locks are free. -/
def finish (σ : State S) (session : S) : State S :=
  { σ with
    txn := Function.update σ.txn session none
    planLock := fun plan => if σ.planLock plan = some session then none else σ.planLock plan
    claimLock := fun plan => if σ.claimLock plan = some session then none else σ.claimLock plan }

end State

/-- One statement, commit or abort of one session. -/
inductive Step {S : Type} [DecidableEq S] : State S → Action S → State S → Prop where
  | acquired {σ : State S} {session : S} {plan : Nat} {ownerId : String} {lease : Nat} {now : Int}
      {row : ClaimRow} {handle : ClaimHandle} (idle : σ.txn session = none)
      (valid : validateLease ownerId lease = true) (present : (σ.rows plan).present = true)
      (free : σ.claimLock plan = none)
      (returned : acquire (σ.rows plan).claim plan ownerId lease now = some (row, handle)) :
      Step σ (.acquired session handle) (σ.write plan { σ.rows plan with claim := some row })
  | asserted {σ : State S} {session : S} {handle : ClaimHandle} {now : Int}
      (idle : σ.txn session = none) (free : σ.claimLock handle.executionPlanId = none)
      (current : assertCurrent (σ.rows handle.executionPlanId).claim handle now = true) :
      Step σ (.asserted session handle) σ
  | renewed {σ : State S} {session : S} {lease : Nat} {now : Int} {row : ClaimRow}
      {handle next : ClaimHandle} (idle : σ.txn session = none)
      (valid : validateLease handle.ownerId lease = true)
      (free : σ.claimLock handle.executionPlanId = none)
      (returned : renew (σ.rows handle.executionPlanId).claim handle lease now = some (row, next)) :
      Step σ (.renewed session handle next)
        (σ.write handle.executionPlanId { σ.rows handle.executionPlanId with claim := some row })
  | released {σ : State S} {session : S} {now : Int} {row : ClaimRow} {handle : ClaimHandle}
      (idle : σ.txn session = none) (free : σ.claimLock handle.executionPlanId = none)
      (returned : release (σ.rows handle.executionPlanId).claim handle now = some row) :
      Step σ (.released session handle)
        (σ.write handle.executionPlanId { σ.rows handle.executionPlanId with claim := some row })
  | prepared {σ : State S} {session : S} {now at_ : Int} {row : ProgressRow} {handle : ClaimHandle}
      (idle : σ.txn session = none) (free : σ.claimLock handle.executionPlanId = none)
      (returned : prepareAttempt (σ.rows handle.executionPlanId) handle now at_ = .prepared row) :
      Step σ (.prepared session handle)
        (σ.write handle.executionPlanId { σ.rows handle.executionPlanId with progress := some row })
  | markBegin {σ : State S} {session : S} {handle : ClaimHandle} (idle : σ.txn session = none)
      (present : (σ.rows handle.executionPlanId).present = true)
      (free : σ.planLock handle.executionPlanId = none) :
      Step σ (.markBegin session handle)
        ((σ.lockPlan session handle.executionPlanId).advance session (.mark handle .locked))
  | markClaim {σ : State S} {session : S} {handle : ClaimHandle} {now : Int}
      (opened : σ.txn session = some (.mark handle .locked))
      (free : σ.claimLock handle.executionPlanId = none)
      (current : assertCurrent (σ.rows handle.executionPlanId).claim handle now = true) :
      Step σ (.markStatement session handle)
        ((σ.lockClaim session handle.executionPlanId).advance session (.mark handle .claimed))
  | markUncancelled {σ : State S} {session : S} {handle : ClaimHandle}
      (opened : σ.txn session = some (.mark handle .claimed))
      (clear : (σ.rows handle.executionPlanId).cancellation = none) :
      Step σ (.markStatement session handle) (σ.advance session (.mark handle .uncancelled))
  | markUpdate {σ : State S} {session : S} {handle : ClaimHandle} {now : Int} {row : ProgressRow}
      (opened : σ.txn session = some (.mark handle .uncancelled))
      (returned : startNetwork (σ.rows handle.executionPlanId).progress handle now = some row) :
      Step σ (.markStatement session handle) (σ.advance session (.mark handle (.updated row)))
  | markCommit {σ : State S} {session : S} {handle : ClaimHandle} {row : ProgressRow} (acked : Bool)
      (opened : σ.txn session = some (.mark handle (.updated row))) :
      Step σ (.markCommit session handle acked)
        ((σ.write handle.executionPlanId
          { σ.rows handle.executionPlanId with progress := some row }).finish session)
  | cancelBegin {σ : State S} {session : S} {plan : Nat} (idle : σ.txn session = none)
      (present : (σ.rows plan).present = true) (free : σ.planLock plan = none) :
      Step σ (.cancelBegin session plan)
        ((σ.lockPlan session plan).advance session (.cancel plan .locked))
  | cancelUncompleted {σ : State S} {session : S} {plan : Nat}
      (opened : σ.txn session = some (.cancel plan .locked))
      (clear : (σ.rows plan).testRuns = []) :
      Step σ (.cancelStatement session plan) (σ.advance session (.cancel plan .uncompleted))
  | cancelUnstarted {σ : State S} {session : S} {plan : Nat}
      (opened : σ.txn session = some (.cancel plan .uncompleted))
      (clear : mayHaveCrossed (σ.rows plan).progress = false) :
      Step σ (.cancelStatement session plan) (σ.advance session (.cancel plan .unstarted))
  | cancelInsert {σ : State S} {session : S} {plan : Nat} (now : Int)
      (opened : σ.txn session = some (.cancel plan .unstarted)) :
      Step σ (.cancelStatement session plan)
        -- `ON CONFLICT DO NOTHING` keeps the first request's time.
        (σ.advance session (.cancel plan (.inserted ((σ.rows plan).cancellation.getD now))))
  | cancelCommit {σ : State S} {session : S} {plan : Nat} {requestedAt : Int} (acked : Bool)
      (opened : σ.txn session = some (.cancel plan (.inserted requestedAt))) :
      Step σ (.cancelCommit session plan acked)
        ((σ.write plan { σ.rows plan with cancellation := some requestedAt }).finish session)
  | resultBegin {σ : State S} {session : S} {handle : ClaimHandle} {now : Int}
      (idle : σ.txn session = none) (free : σ.claimLock handle.executionPlanId = none)
      (current : assertCurrent (σ.rows handle.executionPlanId).claim handle now = true) :
      Step σ (.resultBegin session handle)
        ((σ.lockClaim session handle.executionPlanId).advance session (.result handle .current))
  | resultFlush {σ : State S} {session : S} {handle : ClaimHandle} (run : TestRun)
      (opened : σ.txn session = some (.result handle .current))
      -- `uq_test_runs_execution_plan_id`
      (unique : (σ.rows handle.executionPlanId).testRuns = []) :
      Step σ (.resultFlush session handle) (σ.advance session (.result handle (.flushed run)))
  | resultCommit {σ : State S} {session : S} {handle : ClaimHandle} {run : TestRun} (acked : Bool)
      (opened : σ.txn session = some (.result handle (.flushed run))) :
      Step σ (.resultCommit session handle acked)
        ((σ.write handle.executionPlanId
          { σ.rows handle.executionPlanId with
            testRuns := (σ.rows handle.executionPlanId).testRuns ++ [run] }).finish session)
  | sendBegin {σ : State S} {session : S} {handle : ClaimHandle} (idle : σ.txn session = none)
      (free : σ.planLock handle.executionPlanId = none) :
      Step σ (.sendBegin session handle)
        ((σ.lockPlan session handle.executionPlanId).advance session (.send handle .locked))
  | sendCurrent {σ : State S} {session : S} {handle : ClaimHandle} {now : Int}
      (opened : σ.txn session = some (.send handle .locked))
      (free : σ.claimLock handle.executionPlanId = none)
      (current : assertCurrent (σ.rows handle.executionPlanId).claim handle now = true) :
      Step σ (.sendStatement session handle)
        ((σ.lockClaim session handle.executionPlanId).advance session (.send handle .current))
  | sendEnd {σ : State S} {session : S} {handle : ClaimHandle}
      (opened : σ.txn session = some (.send handle .current)) :
      Step σ (.sendEnd session handle) (σ.finish session)
  | abort {σ : State S} {session : S} : Step σ (.abort session) (σ.finish session)

/-! ## The invariant -/

section Invariant

variable {S : Type} {σ τ : State S}

/-- The lock discipline, what each open transaction has established, and the two
facts about the tables that survive every schedule. -/
structure Inv (σ : State S) : Prop where
  guarded : ∀ session txn, σ.txn session = some txn → txn.Guarded (σ.rows txn.plan)
  planHeld : ∀ session txn, σ.txn session = some txn → txn.holdsPlan = true →
    σ.planLock txn.plan = some session
  claimHeld : ∀ session txn, σ.txn session = some txn → txn.holdsClaim = true →
    σ.claimLock txn.plan = some session
  exclusive : ∀ plan, (σ.rows plan).cancellation.isSome → ¬ (σ.rows plan).started
  single : ∀ plan, (σ.rows plan).testRuns.length ≤ 1

namespace Inv

theorem outside_claim (inv : Inv σ) {session : S} {txn : Txn} (opened : σ.txn session = some txn)
    (other : σ.claimLock txn.plan ≠ some session) : txn.holdsClaim = false := by
  by_contra holds
  rw [Bool.not_eq_false] at holds
  exact other (inv.claimHeld session txn opened holds)

theorem outside_plan (inv : Inv σ) {session : S} {txn : Txn} (opened : σ.txn session = some txn)
    (other : σ.planLock txn.plan ≠ some session) : txn.holdsPlan = false := by
  by_contra holds
  rw [Bool.not_eq_false] at holds
  exact other (inv.planHeld session txn opened holds)

/-- A write keeps the invariant when it keeps what the open transactions of its
plan rely on and the two facts about the tables. -/
theorem write (inv : Inv σ) {plan : Nat} {rows : PlanRows}
    (keep : ∀ session txn, σ.txn session = some txn → txn.plan = plan → txn.Guarded rows)
    (exclusive : rows.cancellation.isSome → ¬ rows.started)
    (single : rows.testRuns.length ≤ 1) : Inv (σ.write plan rows) where
  guarded session txn opened := by
    by_cases here : txn.plan = plan
    · have kept := keep session txn opened here
      simpa [State.write, here] using kept
    · have same := inv.guarded session txn opened
      simpa [State.write, here] using same
  planHeld := inv.planHeld
  claimHeld := inv.claimHeld
  exclusive p := by
    by_cases here : p = plan
    · subst here
      simpa [State.write] using exclusive
    · simpa [State.write, here] using inv.exclusive p
  single p := by
    by_cases here : p = plan
    · subst here
      simpa [State.write] using single
    · simpa [State.write, here] using inv.single p

theorem lockPlan (inv : Inv σ) {session : S} {plan : Nat} (free : σ.planLock plan = none) :
    Inv (σ.lockPlan session plan) := by
  refine ⟨inv.guarded, ?_, inv.claimHeld, inv.exclusive, inv.single⟩
  intro other txn opened holds
  have held := inv.planHeld other txn opened holds
  have differ : txn.plan ≠ plan := by
    intro same
    rw [same, free] at held
    cases held
  simpa [State.lockPlan, differ] using held

theorem lockClaim (inv : Inv σ) {session : S} {plan : Nat} (free : σ.claimLock plan = none) :
    Inv (σ.lockClaim session plan) := by
  refine ⟨inv.guarded, inv.planHeld, ?_, inv.exclusive, inv.single⟩
  intro other txn opened holds
  have held := inv.claimHeld other txn opened holds
  have differ : txn.plan ≠ plan := by
    intro same
    rw [same, free] at held
    cases held
  simpa [State.lockClaim, differ] using held

/-- The statements on the claim row: they wait for its lock, so no open
transaction relies on what they change. -/
theorem write_claim (inv : Inv σ) {plan : Nat} (free : σ.claimLock plan = none)
    (row : Option ClaimRow) : Inv (σ.write plan { σ.rows plan with claim := row }) := by
  refine inv.write ?_ (inv.exclusive plan) (inv.single plan)
  intro session txn opened here
  subst here
  refine (inv.guarded session txn opened).claim_write (inv.outside_claim opened ?_) row
  rw [free]
  simp

variable [DecidableEq S]

theorem finish (inv : Inv σ) (session : S) : Inv (σ.finish session) := by
  have others : ∀ other txn, (σ.finish session).txn other = some txn →
      other ≠ session ∧ σ.txn other = some txn := by
    intro other txn opened
    by_cases same : other = session
    · simp [State.finish, same] at opened
    · exact ⟨same, by simpa [State.finish, same] using opened⟩
  refine ⟨?_, ?_, ?_, inv.exclusive, inv.single⟩
  · intro other txn opened
    exact inv.guarded other txn (others other txn opened).2
  · intro other txn opened holds
    obtain ⟨differ, before⟩ := others other txn opened
    have held := inv.planHeld other txn before holds
    simp [State.finish, held, differ]
  · intro other txn opened holds
    obtain ⟨differ, before⟩ := others other txn opened
    have held := inv.claimHeld other txn before holds
    simp [State.finish, held, differ]

/-- A commit only has to keep what the other sessions rely on: its own
transaction is gone. -/
theorem commit (inv : Inv σ) {session : S} {plan : Nat} {rows : PlanRows}
    (keep : ∀ other txn, other ≠ session → σ.txn other = some txn → txn.plan = plan →
      txn.Guarded rows)
    (exclusive : rows.cancellation.isSome → ¬ rows.started)
    (single : rows.testRuns.length ≤ 1) : Inv ((σ.write plan rows).finish session) := by
  have swap : (σ.write plan rows).finish session = (σ.finish session).write plan rows := rfl
  rw [swap]
  refine (inv.finish session).write ?_ exclusive single
  intro other txn opened here
  by_cases same : other = session
  · simp [State.finish, same] at opened
  · exact keep other txn same (by simpa [State.finish, same] using opened) here

theorem advance (inv : Inv σ) {session : S} {txn : Txn} (guarded : txn.Guarded (σ.rows txn.plan))
    (planHeld : txn.holdsPlan = true → σ.planLock txn.plan = some session)
    (claimHeld : txn.holdsClaim = true → σ.claimLock txn.plan = some session) :
    Inv (σ.advance session txn) := by
  have cases_ : ∀ other txn', (σ.advance session txn).txn other = some txn' →
      (other = session ∧ txn' = txn) ∨ σ.txn other = some txn' := by
    intro other txn' opened
    by_cases same : other = session
    · simp only [State.advance, same, Function.update_self, Option.some.injEq] at opened
      exact .inl ⟨same, opened.symm⟩
    · exact .inr (by simpa [State.advance, same] using opened)
  refine ⟨?_, ?_, ?_, inv.exclusive, inv.single⟩
  · intro other txn' opened
    rcases cases_ other txn' opened with ⟨rfl, rfl⟩ | before
    · exact guarded
    · exact inv.guarded other txn' before
  · intro other txn' opened holds
    rcases cases_ other txn' opened with ⟨rfl, rfl⟩ | before
    · exact planHeld holds
    · exact inv.planHeld other txn' before holds
  · intro other txn' opened holds
    rcases cases_ other txn' opened with ⟨rfl, rfl⟩ | before
    · exact claimHeld holds
    · exact inv.claimHeld other txn' before holds

/-- A statement that takes no lock moves its transaction to the next stage. -/
theorem next (inv : Inv σ) {session : S} {old txn : Txn} (opened : σ.txn session = some old)
    (plan : txn.plan = old.plan) (holdsPlan : txn.holdsPlan = old.holdsPlan)
    (holdsClaim : txn.holdsClaim = old.holdsClaim) (guarded : txn.Guarded (σ.rows txn.plan)) :
    Inv (σ.advance session txn) := by
  refine inv.advance guarded ?_ ?_
  · intro holds
    rw [plan]
    exact inv.planHeld session old opened (holdsPlan ▸ holds)
  · intro holds
    rw [plan]
    exact inv.claimHeld session old opened (holdsClaim ▸ holds)

/-- **Every step keeps the invariant.** -/
theorem step {a : Action S} (inv : Inv σ) (step : Step σ a τ) : Inv τ := by
  cases step with
  | acquired idle valid present free returned => exact inv.write_claim free _
  | asserted idle free current => exact inv
  | renewed idle valid free returned => exact inv.write_claim free _
  | released idle free returned => exact inv.write_claim free _
  | @prepared session now at_ row handle idle free returned =>
      obtain ⟨-, phase, -, before⟩ := prepareAttempt_spec returned
      refine inv.write ?_ ?_ (inv.single _)
      · intro other txn opened here
        have outside : txn.holdsClaim = false := by
          refine inv.outside_claim opened ?_
          rw [here, free]
          simp
        rw [← here]
        exact (inv.guarded other txn opened).prepare outside phase
      · rintro - ⟨row', found, started⟩
        cases found
        rw [phase] at started
        cases started
  | @markBegin session handle idle present free =>
      refine (inv.lockPlan free).advance trivial ?_ ?_
      · intro _
        simp [State.lockPlan, Txn.plan]
      · simp [Txn.holdsClaim]
  | @markClaim session handle now opened free current =>
      have held := inv.planHeld session _ opened rfl
      refine (inv.lockClaim free).advance (assertCurrent_spec current) ?_ ?_
      · intro _
        exact held
      · intro _
        simp [State.lockClaim, Txn.plan]
  | @markUncancelled session handle opened clear =>
      have fenced := inv.guarded session _ opened
      exact inv.next opened rfl rfl rfl ⟨fenced, clear⟩
  | @markUpdate session handle now row opened returned =>
      obtain ⟨fenced, clear⟩ := inv.guarded session _ opened
      obtain ⟨old, found, pre, -, started, generation⟩ := startNetwork_spec returned
      exact inv.next opened rfl rfl rfl ⟨fenced, clear, ⟨old, found, pre⟩, started, generation⟩
  | @markCommit session handle row acked opened =>
      obtain ⟨fenced, clear, -, started, generation⟩ := inv.guarded session _ opened
      have held := inv.planHeld session _ opened rfl
      have locked := inv.claimHeld session _ opened rfl
      refine inv.commit ?_ ?_ (inv.single _)
      · intro other txn differ running here
        have outside : txn.holdsPlan = false := by
          refine inv.outside_plan running ?_
          rw [here]
          exact fun mine => differ (Option.some.inj (mine.symm.trans held))
        exact (inv.guarded other txn running).plan_write outside (by rw [here]) (by rw [here])
      · intro cancelled
        simp only [Txn.plan] at clear
        simp [clear] at cancelled
  | @cancelBegin session plan idle present free =>
      refine (inv.lockPlan free).advance trivial ?_ ?_
      · intro _
        simp [State.lockPlan, Txn.plan]
      · simp [Txn.holdsClaim]
  | @cancelUncompleted session plan opened clear =>
      exact inv.next opened rfl rfl rfl trivial
  | @cancelUnstarted session plan opened clear =>
      exact inv.next opened rfl rfl rfl (not_started_of_not_crossed clear)
  | @cancelInsert session plan now opened =>
      have unstarted := inv.guarded session _ opened
      exact inv.next opened rfl rfl rfl unstarted
  | @cancelCommit session plan requestedAt acked opened =>
      have unstarted := inv.guarded session _ opened
      have held := inv.planHeld session _ opened rfl
      refine inv.commit ?_ (fun _ => unstarted) (inv.single _)
      intro other txn differ running here
      have outside : txn.holdsPlan = false := by
        refine inv.outside_plan running ?_
        rw [here]
        exact fun mine => differ (Option.some.inj (mine.symm.trans held))
      exact (inv.guarded other txn running).plan_write outside (by rw [here]) (by rw [here])
  | @resultBegin session handle now idle free current =>
      refine (inv.lockClaim free).advance (assertCurrent_spec current) ?_ ?_
      · simp [Txn.holdsPlan]
      · intro _
        simp [State.lockClaim, Txn.plan]
  | @resultFlush session handle run opened unique =>
      have fenced := inv.guarded session _ opened
      exact inv.next opened rfl rfl rfl ⟨fenced, unique⟩
  | @resultCommit session handle run acked opened =>
      obtain ⟨-, unique⟩ := inv.guarded session _ opened
      have held := inv.claimHeld session _ opened rfl
      refine inv.commit ?_ (inv.exclusive _) ?_
      · intro other txn differ running here
        have outside : txn.holdsClaim = false := by
          refine inv.outside_claim running ?_
          rw [here]
          exact fun mine => differ (Option.some.inj (mine.symm.trans held))
        rw [← here]
        exact (inv.guarded other txn running).testRuns outside _
      · simp only [Txn.plan] at unique
        simp [unique]
  | @sendBegin session handle idle free =>
      refine (inv.lockPlan free).advance trivial ?_ ?_
      · intro _
        simp [State.lockPlan, Txn.plan]
      · simp [Txn.holdsClaim]
  | @sendCurrent session handle now opened free current =>
      have held := inv.planHeld session _ opened rfl
      refine (inv.lockClaim free).advance (assertCurrent_spec current) ?_ ?_
      · intro _
        exact held
      · intro _
        simp [State.lockClaim, Txn.plan]
  | sendEnd opened => exact inv.finish _
  | abort => exact inv.finish _

end Inv

end Invariant

/-! ## The system -/

/-- The tables as a deployment may find them, with no session connected.  Any
claim, and any progress row a migration left behind, is allowed. -/
structure Init {S : Type} (σ : State S) : Prop where
  idle : ∀ session, σ.txn session = none
  planFree : ∀ plan, σ.planLock plan = none
  claimFree : ∀ plan, σ.claimLock plan = none
  exclusive : ∀ plan, (σ.rows plan).cancellation.isSome → ¬ (σ.rows plan).started
  single : ∀ plan, (σ.rows plan).testRuns.length ≤ 1

/-- The services, run by the sessions `S`. -/
def services (S : Type) [DecidableEq S] : System (State S) (Action S) where
  init := Init
  step := Step

theorem Init.inv {S : Type} [DecidableEq S] {σ : State S} (start : Init σ) : Inv σ where
  guarded session txn opened := by
    rw [start.idle session] at opened
    cases opened
  planHeld session txn opened := by
    rw [start.idle session] at opened
    cases opened
  claimHeld session txn opened := by
    rw [start.idle session] at opened
    cases opened
  exclusive := start.exclusive
  single := start.single

theorem Inv.run {S : Type} [DecidableEq S] {σ τ : State S} {trace : List (Action S)} (inv : Inv σ)
    (run : (services S).Run σ trace τ) : Inv τ :=
  run.preserves (I := Inv) (fun _ _ _ inv step => Inv.step inv step) inv

/-! ## What one step does to one plan's rows -/

/-- The plan whose rows an action changes. -/
def Action.writes {S : Type} : Action S → Option Nat
  | .acquired _ handle => some handle.executionPlanId
  | .renewed _ handle _ => some handle.executionPlanId
  | .released _ handle => some handle.executionPlanId
  | .prepared _ handle => some handle.executionPlanId
  | .markCommit _ handle _ => some handle.executionPlanId
  | .cancelCommit _ plan _ => some plan
  | .resultCommit _ handle _ => some handle.executionPlanId
  | _ => none

/-- Everything a step can do to the rows of `plan`, with the guard it passed. -/
inductive Effect {S : Type} (plan : Nat) (rows : PlanRows) : Action S → PlanRows → Prop where
  | quiet {a : Action S} (elsewhere : a.writes ≠ some plan) : Effect plan rows a rows
  | acquired {session : S} {handle : ClaimHandle} {row : ClaimRow}
      (here : handle.executionPlanId = plan) (owner : row.ownerId = some handle.ownerId)
      (fresh : row.fencingGeneration = handle.fencingGeneration)
      (next : row.fencingGeneration = rows.generation + 1) :
      Effect plan rows (.acquired session handle) { rows with claim := some row }
  | renewed {session : S} {handle next : ClaimHandle} {row : ClaimRow}
      (here : handle.executionPlanId = plan) (fenced : Txn.Fenced rows handle)
      (owner : row.ownerId = some handle.ownerId)
      (same : row.fencingGeneration = handle.fencingGeneration) :
      Effect plan rows (.renewed session handle next) { rows with claim := some row }
  | released {session : S} {handle : ClaimHandle} {row : ClaimRow}
      (here : handle.executionPlanId = plan) (fenced : Txn.Fenced rows handle)
      (same : row.fencingGeneration = handle.fencingGeneration) :
      Effect plan rows (.released session handle) { rows with claim := some row }
  | prepared {session : S} {handle : ClaimHandle} {row : ProgressRow}
      (here : handle.executionPlanId = plan) (fenced : Txn.Fenced rows handle)
      (before : ∀ old, rows.progress = some old → old.phase = .preNetwork)
      (phase : row.phase = .preNetwork) :
      Effect plan rows (.prepared session handle) { rows with progress := some row }
  | marked {session : S} {handle : ClaimHandle} {acked : Bool} {row old : ProgressRow}
      (here : handle.executionPlanId = plan) (fenced : Txn.Fenced rows handle)
      (uncancelled : rows.cancellation = none) (found : rows.progress = some old)
      (before : old.phase = .preNetwork) (phase : row.phase = .networkStarted)
      (generation : row.fencingGeneration = handle.fencingGeneration) :
      Effect plan rows (.markCommit session handle acked) { rows with progress := some row }
  | cancelled {session : S} {acked : Bool} {requestedAt : Int} (unstarted : ¬ rows.started) :
      Effect plan rows (.cancelCommit session plan acked)
        { rows with cancellation := some requestedAt }
  | finished {session : S} {handle : ClaimHandle} {acked : Bool} {run : TestRun}
      (here : handle.executionPlanId = plan) (fenced : Txn.Fenced rows handle)
      (unique : rows.testRuns = []) :
      Effect plan rows (.resultCommit session handle acked) { rows with testRuns := [run] }

/-- **The inversion lemma**: every result about the tables is a case analysis of
`Effect`. -/
theorem Step.effect {S : Type} [DecidableEq S] {σ τ : State S} {a : Action S} (inv : Inv σ)
    (step : Step σ a τ) (plan : Nat) : Effect plan (σ.rows plan) a (τ.rows plan) := by
  have elsewhere : ∀ {written : Nat} {rows : PlanRows}, written ≠ plan →
      (σ.write written rows).rows plan = σ.rows plan := by
    intro written rows differ
    simp [State.write, Function.update_of_ne (Ne.symm differ)]
  cases step with
  | @acquired session written ownerId lease now row handle idle valid present free returned =>
      obtain ⟨here, owner, fresh, next⟩ := acquire_spec returned
      by_cases same : written = plan
      · subst same
        simpa [State.write] using Effect.acquired here owner fresh next
      · rw [elsewhere same]
        exact .quiet (by simpa [Action.writes, here] using same)
  | @renewed session lease now row handle next idle valid free returned =>
      obtain ⟨old, found, held, generation, kept, owner, -⟩ := renew_spec returned
      by_cases same : handle.executionPlanId = plan
      · subst same
        simpa [State.write] using Effect.renewed rfl ⟨old, found, held, generation⟩
          (owner.trans held) (kept.trans generation)
      · rw [elsewhere same]
        exact .quiet (by simpa [Action.writes] using same)
  | @released session now row handle idle free returned =>
      obtain ⟨old, found, owner, generation, kept⟩ := release_spec returned
      by_cases same : handle.executionPlanId = plan
      · subst same
        simpa [State.write] using
          Effect.released rfl ⟨old, found, owner, generation⟩ (kept.trans generation)
      · rw [elsewhere same]
        exact .quiet (by simpa [Action.writes] using same)
  | @prepared session now at_ row handle idle free returned =>
      obtain ⟨current, phase, -, before⟩ := prepareAttempt_spec returned
      by_cases same : handle.executionPlanId = plan
      · subst same
        simpa [State.write] using Effect.prepared rfl (assertCurrent_spec current) before phase
      · rw [elsewhere same]
        exact .quiet (by simpa [Action.writes] using same)
  | @markCommit session handle row acked opened =>
      obtain ⟨fenced, clear, ⟨old, found, pre⟩, started, generation⟩ :=
        inv.guarded session _ opened
      by_cases same : handle.executionPlanId = plan
      · subst same
        simp only [Txn.plan] at fenced clear found
        simpa [State.write, State.finish] using
          Effect.marked rfl fenced clear found pre started generation
      · rw [show ((σ.write handle.executionPlanId _).finish session).rows plan = σ.rows plan
          from elsewhere same]
        exact .quiet (by simpa [Action.writes] using same)
  | @cancelCommit session written requestedAt acked opened =>
      have unstarted := inv.guarded session _ opened
      by_cases same : written = plan
      · subst same
        simp only [Txn.plan] at unstarted
        simpa [State.write, State.finish] using Effect.cancelled unstarted
      · rw [show ((σ.write written _).finish session).rows plan = σ.rows plan
          from elsewhere same]
        exact .quiet (by simpa [Action.writes] using same)
  | @resultCommit session handle run acked opened =>
      obtain ⟨fenced, unique⟩ := inv.guarded session _ opened
      by_cases same : handle.executionPlanId = plan
      · subst same
        simp only [Txn.plan] at fenced unique
        simpa [State.write, State.finish, unique] using Effect.finished rfl fenced unique
      · rw [show ((σ.write handle.executionPlanId _).finish session).rows plan = σ.rows plan
          from elsewhere same]
        exact .quiet (by simpa [Action.writes] using same)
  | _ => exact .quiet (by simp [Action.writes])

/-! ## Two poles -/

/-- Every plan exists and none was ever claimed. -/
def fresh (S : Type) : State S where
  rows _ := ⟨true, none, none, none, []⟩
  planLock _ := none
  claimLock _ := none
  txn _ := none

theorem fresh_init (S : Type) : Init (fresh S) where
  idle _ := rfl
  planFree _ := rfl
  claimFree _ := rfl
  exclusive _ := by simp [fresh]
  single _ := by simp [fresh]

/-- The handle of the first claim on a plan. -/
def firstHandle (plan : Nat) : ClaimHandle := ⟨plan, "worker", 1, 30, 0⟩

/-- A worker claims a fresh plan, prepares its attempt and starts the network. -/
theorem marking_run {S : Type} [DecidableEq S] (session : S) (plan : Nat) :
    ∃ σ, (services S).Run (fresh S)
      [.acquired session (firstHandle plan), .prepared session (firstHandle plan),
        .markBegin session (firstHandle plan), .markStatement session (firstHandle plan),
        .markStatement session (firstHandle plan), .markStatement session (firstHandle plan),
        .markCommit session (firstHandle plan) true] σ := by
  have valid : validateLease "worker" 30 = true := by decide +kernel
  refine ⟨_, .cons (@Step.acquired _ _ _ session plan "worker" 30 0 _ _ rfl valid rfl rfl rfl) <|
    .cons (@Step.prepared _ _ _ session 1 1 ⟨1, .preNetwork, 1⟩ _ rfl rfl ?_) <|
    .cons (Step.markBegin ?_ ?_ ?_) <|
    .cons (@Step.markClaim _ _ _ session _ 2 ?_ ?_ ?_) <|
    .cons (Step.markUncancelled ?_ ?_) <|
    .cons (@Step.markUpdate _ _ _ session _ 2 ⟨1, .networkStarted, 2⟩ ?_ ?_) <|
    .cons (@Step.markCommit _ _ _ session _ ⟨1, .networkStarted, 2⟩ true ?_) (.refl _)⟩
  all_goals simp [State.write, State.advance, State.lockPlan, State.lockClaim, firstHandle, fresh,
    prepareAttempt, assertCurrent, ClaimRow.heldBy, startNetwork]

/-- A caller cancels a fresh plan. -/
theorem cancelling_run {S : Type} [DecidableEq S] (session : S) (plan : Nat) :
    ∃ σ, (services S).Run (fresh S)
      [.cancelBegin session plan, .cancelStatement session plan, .cancelStatement session plan,
        .cancelStatement session plan, .cancelCommit session plan true] σ := by
  refine ⟨_, .cons (Step.cancelBegin rfl rfl rfl) <|
    .cons (Step.cancelUncompleted ?_ ?_) <|
    .cons (Step.cancelUnstarted ?_ ?_) <|
    .cons (Step.cancelInsert 5 ?_) <|
    .cons (@Step.cancelCommit _ _ _ session plan 5 true ?_) (.refl _)⟩
  all_goals simp [State.advance, State.lockPlan, fresh, mayHaveCrossed]

end ApiSecurityPlatform.Execution
