/-
# Execution.PlanWorker -- `_execute` crosses the network at most once

A process runs `PlanExecutionService._execute` or a `request_cancel`; `Pc` is where it
stands.  `Sql` lists the transactions each place may run against the shared database,
with the services' bounded retry loops and their lost acknowledgements, and `Local`
everything that leaves the database alone: the reads between the transactions, refusals
and plain returns.  A crash is possible everywhere and aborts the open transaction.

On the research path the gateway is called first, and `before_network()` is the first thing
that its boundary does (`inside`); the request is written in the transaction of `sending`.

The processes refine `services` (`toServices`), so what holds of every schedule of
the services holds of every schedule of the workers.  What is added here is that
the gateway is only entered from the place a successful `mark_network_started`
leads to.
-/
import ApiSecurityPlatform.Execution.Cancellation

namespace ApiSecurityPlatform.Execution

open ApiSecurityPlatform.Theory

set_option autoImplicit false

/-- Where a process stands in `_execute` or `request_cancel`.  `attempts` is what is
left of the service's `range(max_retries)`. -/
inductive Pc where
  | idle
  | preflight (plan : Nat)
  | permitted (plan : Nat)
  | acquiring (plan : Nat) (attempts : Nat)
  | looking (handle : ClaimHandle)
  | checking (handle : ClaimHandle)
  | preparing (handle : ClaimHandle) (attempts : Nat)
  | executing (handle : ClaimHandle)
  | renewing (handle : ClaimHandle) (attempts : Nat)
  | authorized (handle : ClaimHandle)
  /-- In `before_network()`, on the research path inside the gateway. -/
  | marking (handle : ClaimHandle) (attempts : Nat) (inside : Bool)
  | entering (handle : ClaimHandle)
  | sending (handle : ClaimHandle)
  | onWire (handle : ClaimHandle)
  | finishing (handle : ClaimHandle)
  | releasing (handle : ClaimHandle) (attempts : Nat)
  /-- In `release`, whose update found no row. -/
  | unreleased (handle : ClaimHandle) (attempts : Nat)
  | cancelling (plan : Nat) (attempts : Nat)
deriving DecidableEq, Repr

/-- `max_retries` of the three services. -/
structure Retries where
  claim : Nat
  progress : Nat
  cancellation : Nat

/-- The plan's row, as a process reads it between transactions. -/
abbrev Rows := Nat → PlanRows

/-- The moves of a process that leave the database alone.  A refusal always goes
through `_release_claim` once a claim is held. -/
inductive Local (limit : Retries) (rows : Rows) : Pc → Pc → Prop where
  | call (plan : Nat) : Local limit rows .idle (.preflight plan)
  | request (plan : Nat) : Local limit rows .idle (.cancelling plan limit.cancellation)
  /-- Canonical result found, or the plan, its provenance, its authorization, its
  approval or its credential is refused. -/
  | preflightEnds (plan : Nat) : Local limit rows (.preflight plan) .idle
  | preflightPasses {plan : Nat} (present : (rows plan).present = true)
      (uncompleted : (rows plan).testRuns = []) : Local limit rows (.preflight plan) (.permitted plan)
  | permittedEnds (plan : Nat) : Local limit rows (.permitted plan) .idle
  | permittedPasses {plan : Nat} (uncancelled : (rows plan).cancellation = none) :
      Local limit rows (.permitted plan) (.acquiring plan limit.claim)
  | acquireFails (plan attempts : Nat) :
      Local limit rows (.acquiring plan (attempts + 1)) (.acquiring plan attempts)
  | acquireUnavailable {plan attempts : Nat} {ownerId : String} {lease : Nat} {now : Int}
      (live : acquire (rows plan).claim plan ownerId lease now = none) :
      Local limit rows (.acquiring plan (attempts + 1)) .idle
  | acquireExhausted (plan : Nat) : Local limit rows (.acquiring plan 0) .idle
  | lookFails (handle : ClaimHandle) :
      Local limit rows (.looking handle) (.releasing handle limit.claim)
  | lookPasses {handle : ClaimHandle} (uncompleted : (rows handle.executionPlanId).testRuns = []) :
      Local limit rows (.looking handle) (.checking handle)
  | checkFails (handle : ClaimHandle) :
      Local limit rows (.checking handle) (.releasing handle limit.claim)
  | checkPasses {handle : ClaimHandle}
      (uncancelled : (rows handle.executionPlanId).cancellation = none) :
      Local limit rows (.checking handle) (.preparing handle limit.progress)
  | prepareFails (handle : ClaimHandle) (attempts : Nat) :
      Local limit rows (.preparing handle (attempts + 1)) (.preparing handle attempts)
  | prepareRefused {handle : ClaimHandle} {attempts : Nat} {now at_ : Int}
      (refused : ∀ row, prepareAttempt (rows handle.executionPlanId) handle now at_ ≠ .prepared row) :
      Local limit rows (.preparing handle (attempts + 1)) (.releasing handle limit.claim)
  | prepareExhausted (handle : ClaimHandle) :
      Local limit rows (.preparing handle 0) (.releasing handle limit.claim)
  /-- The first policy decision or the rate limiter blocks. -/
  | executeBlocked (handle : ClaimHandle) :
      Local limit rows (.executing handle) (.releasing handle limit.claim)
  | executeRefreshes (handle : ClaimHandle) :
      Local limit rows (.executing handle) (.renewing handle limit.claim)
  | renewFails (handle : ClaimHandle) (attempts : Nat) :
      Local limit rows (.renewing handle (attempts + 1)) (.renewing handle attempts)
  | renewLost {handle : ClaimHandle} {attempts lease : Nat} {now : Int}
      (lost : renew (rows handle.executionPlanId).claim handle lease now = none) :
      Local limit rows (.renewing handle (attempts + 1)) (.releasing handle limit.claim)
  | renewExhausted (handle : ClaimHandle) :
      Local limit rows (.renewing handle 0) (.releasing handle limit.claim)
  /-- The fresh authorization, the second policy decision or its observer blocks. -/
  | authorizedBlocked (handle : ClaimHandle) :
      Local limit rows (.authorized handle) (.releasing handle limit.claim)
  | authorizedPasses (handle : ClaimHandle) :
      Local limit rows (.authorized handle) (.marking handle limit.progress false)
  /-- `network_gateway.request` with a `request_boundary`, up to `sending`. -/
  | authorizedEnters (handle : ClaimHandle) :
      Local limit rows (.authorized handle) (.marking handle limit.progress true)
  | markExhausted (handle : ClaimHandle) :
      Local limit rows (.marking handle 0 false) (.releasing handle limit.claim)
  /-- What the boundary raises is a `NetworkGatewayError` to the executor. -/
  | markExhaustedInside (handle : ClaimHandle) :
      Local limit rows (.marking handle 0 true) (.finishing handle)
  | boundaryUnreached (handle : ClaimHandle) :
      Local limit rows (.authorized handle) (.finishing handle)
  /-- The gateway returns a response or raises `NetworkGatewayError`. -/
  | answered (handle : ClaimHandle) : Local limit rows (.onWire handle) (.finishing handle)
  /-- Any other exception passes through the `finally`. -/
  | answerRaises (handle : ClaimHandle) :
      Local limit rows (.onWire handle) (.releasing handle limit.claim)
  | releaseFails (handle : ClaimHandle) (attempts : Nat) :
      Local limit rows (.releasing handle (attempts + 1)) (.releasing handle attempts)
  | releaseNotHeld {handle : ClaimHandle} {attempts : Nat} {now : Int}
      (lost : release (rows handle.executionPlanId).claim handle now = none) :
      Local limit rows (.releasing handle (attempts + 1)) (.unreleased handle limit.claim)
  | releaseExhausted (handle : ClaimHandle) : Local limit rows (.releasing handle 0) .idle
  | releasedBefore {handle : ClaimHandle} {attempts : Nat}
      (before : alreadyReleased (rows handle.executionPlanId).claim handle = true) :
      Local limit rows (.unreleased handle (attempts + 1)) .idle
  /-- `_release_claim` passes over `ExecutionClaimLostError`. -/
  | releaseLost {handle : ClaimHandle} {attempts : Nat}
      (lost : alreadyReleased (rows handle.executionPlanId).claim handle = false) :
      Local limit rows (.unreleased handle (attempts + 1)) .idle
  | unreleasedFails (handle : ClaimHandle) (attempts : Nat) :
      Local limit rows (.unreleased handle (attempts + 1)) (.unreleased handle attempts)
  | unreleasedExhausted (handle : ClaimHandle) : Local limit rows (.unreleased handle 0) .idle
  | cancelExhausted (plan : Nat) : Local limit rows (.cancelling plan 0) .idle

/-- The database actions a process may take, and where they lead.  An attempt
whose commit is not acknowledged only loses one of the attempts. -/
inductive Sql {S : Type} (limit : Retries) (owner : S → String) (session : S) :
    Pc → Action S → Pc → Prop where
  | acquired {plan attempts : Nat} {handle : ClaimHandle} (here : handle.executionPlanId = plan)
      (mine : handle.ownerId = owner session) :
      Sql limit owner session (.acquiring plan (attempts + 1)) (.acquired session handle)
        (.looking handle)
  | acquiredUnseen {plan attempts : Nat} {handle : ClaimHandle}
      (here : handle.executionPlanId = plan) (mine : handle.ownerId = owner session) :
      Sql limit owner session (.acquiring plan (attempts + 1)) (.acquired session handle)
        (.acquiring plan attempts)
  | prepared (handle : ClaimHandle) (attempts : Nat) :
      Sql limit owner session (.preparing handle (attempts + 1)) (.prepared session handle)
        (.executing handle)
  | preparedUnseen (handle : ClaimHandle) (attempts : Nat) :
      Sql limit owner session (.preparing handle (attempts + 1)) (.prepared session handle)
        (.preparing handle attempts)
  | renewed (handle next : ClaimHandle) (attempts : Nat) :
      Sql limit owner session (.renewing handle (attempts + 1)) (.renewed session handle next)
        (.authorized next)
  | renewedUnseen (handle next : ClaimHandle) (attempts : Nat) :
      Sql limit owner session (.renewing handle (attempts + 1)) (.renewed session handle next)
        (.renewing handle attempts)
  | markBegin (handle : ClaimHandle) (attempts : Nat) (inside : Bool) :
      Sql limit owner session (.marking handle (attempts + 1) inside) (.markBegin session handle)
        (.marking handle (attempts + 1) inside)
  | markStatement (handle : ClaimHandle) (attempts : Nat) (inside : Bool) :
      Sql limit owner session (.marking handle (attempts + 1) inside) (.markStatement session handle)
        (.marking handle (attempts + 1) inside)
  | markCommit (handle : ClaimHandle) (attempts : Nat) :
      Sql limit owner session (.marking handle (attempts + 1) false) (.markCommit session handle true)
        (.entering handle)
  | markCommitInside (handle : ClaimHandle) (attempts : Nat) :
      Sql limit owner session (.marking handle (attempts + 1) true) (.markCommit session handle true)
        (.sending handle)
  | markCommitUnseen (handle : ClaimHandle) (attempts : Nat) (inside : Bool) :
      Sql limit owner session (.marking handle (attempts + 1) inside) (.markCommit session handle false)
        (.marking handle attempts inside)
  | markFails (handle : ClaimHandle) (attempts : Nat) (inside : Bool) :
      Sql limit owner session (.marking handle (attempts + 1) inside) (.abort session)
        (.marking handle attempts inside)
  /-- `ExecutionProgressLostError` and `ExecutionProgressCancelledError`. -/
  | markRefused (handle : ClaimHandle) (attempts : Nat) :
      Sql limit owner session (.marking handle (attempts + 1) false) (.abort session)
        (.releasing handle limit.claim)
  | markRefusedInside (handle : ClaimHandle) (attempts : Nat) :
      Sql limit owner session (.marking handle (attempts + 1) true) (.abort session) (.finishing handle)
  /-- The transaction in which a research request is written. -/
  | sendBegin (handle : ClaimHandle) :
      Sql limit owner session (.sending handle) (.sendBegin session handle) (.sending handle)
  | sendStatement (handle : ClaimHandle) :
      Sql limit owner session (.sending handle) (.sendStatement session handle) (.sending handle)
  | sendEnd (handle : ClaimHandle) :
      Sql limit owner session (.sending handle) (.sendEnd session handle) (.onWire handle)
  | sendFails (handle : ClaimHandle) :
      Sql limit owner session (.sending handle) (.abort session) (.finishing handle)
  | resultBegin (handle : ClaimHandle) :
      Sql limit owner session (.finishing handle) (.resultBegin session handle) (.finishing handle)
  | resultFlush (handle : ClaimHandle) :
      Sql limit owner session (.finishing handle) (.resultFlush session handle) (.finishing handle)
  | resultCommit (handle : ClaimHandle) (acked : Bool) :
      Sql limit owner session (.finishing handle) (.resultCommit session handle acked)
        (.releasing handle limit.claim)
  | resultFails (handle : ClaimHandle) :
      Sql limit owner session (.finishing handle) (.abort session) (.releasing handle limit.claim)
  | released (handle : ClaimHandle) (attempts : Nat) :
      Sql limit owner session (.releasing handle (attempts + 1)) (.released session handle) .idle
  | releasedUnseen (handle : ClaimHandle) (attempts : Nat) :
      Sql limit owner session (.releasing handle (attempts + 1)) (.released session handle)
        (.releasing handle attempts)
  | cancelBegin (plan attempts : Nat) :
      Sql limit owner session (.cancelling plan (attempts + 1)) (.cancelBegin session plan)
        (.cancelling plan (attempts + 1))
  | cancelStatement (plan attempts : Nat) :
      Sql limit owner session (.cancelling plan (attempts + 1)) (.cancelStatement session plan)
        (.cancelling plan (attempts + 1))
  | cancelCommit (plan attempts : Nat) :
      Sql limit owner session (.cancelling plan (attempts + 1)) (.cancelCommit session plan true) .idle
  | cancelCommitUnseen (plan attempts : Nat) :
      Sql limit owner session (.cancelling plan (attempts + 1)) (.cancelCommit session plan false)
        (.cancelling plan attempts)
  | cancelFails (plan attempts : Nat) :
      Sql limit owner session (.cancelling plan (attempts + 1)) (.abort session)
        (.cancelling plan attempts)
  | cancelRefused (plan attempts : Nat) :
      Sql limit owner session (.cancelling plan (attempts + 1)) (.abort session) .idle
  | crash (pc : Pc) : Sql limit owner session pc (.abort session) .idle

/-- The processes and their database. -/
structure Workers (S : Type) where
  db : State S
  pc : S → Pc

/-- What an observer of the processes sees. -/
inductive Event (S : Type) where
  | sql (action : Action S)
  | gateway (session : S) (plan : Nat)
  | silent (session : S)
deriving DecidableEq

inductive WorkerStep {S : Type} [DecidableEq S] (limit : Retries) (owner : S → String) :
    Workers S → Event S → Workers S → Prop where
  | sql {w : Workers S} {session : S} {action : Action S} {pc : Pc} {db : State S}
      (move : Sql limit owner session (w.pc session) action pc) (step : Step w.db action db) :
      WorkerStep limit owner w (.sql action) ⟨db, Function.update w.pc session pc⟩
  /-- `network_gateway.request`, the line after `before_network()`. -/
  | gateway {w : Workers S} {session : S} {handle : ClaimHandle}
      (here : w.pc session = .entering handle) :
      WorkerStep limit owner w (.gateway session handle.executionPlanId)
        ⟨w.db, Function.update w.pc session (.onWire handle)⟩
  | silent {w : Workers S} {session : S} {pc : Pc}
      (move : Local limit w.db.rows (w.pc session) pc) :
      WorkerStep limit owner w (.silent session) ⟨w.db, Function.update w.pc session pc⟩

/-- Any number of processes over the tables as a deployment finds them. -/
def workers {S : Type} [DecidableEq S] (limit : Retries) (owner : S → String) :
    System (Workers S) (Event S) where
  init w := Init w.db ∧ ∀ session, w.pc session = .idle
  step := WorkerStep limit owner

/-! ## Counting -/

section Counting

variable {S : Type}

/-- `mark_network_started` returns for `plan`. -/
def Action.marked (plan : Nat) : Action S → Bool
  | .markCommit _ handle true => handle.executionPlanId == plan
  | _ => false

/-- A test run of `plan` is committed, seen or not. -/
def Action.persists (plan : Nat) : Action S → Bool
  | .resultCommit _ handle _ => handle.executionPlanId == plan
  | _ => false

/-- A property of the database action an event is. -/
def Event.onSql (fires : Action S → Bool) : Event S → Bool
  | .sql action => fires action
  | _ => false

/-- The gateway is entered for `plan`. -/
def Event.enters (plan : Nat) : Event S → Bool
  | .gateway _ entered => entered == plan
  | _ => false

/-- `session` has its marker and has not called the gateway yet. -/
def Workers.atGateway (w : Workers S) (plan : Nat) (session : S) : Prop :=
  ∃ handle, w.pc session = .entering handle ∧ handle.executionPlanId = plan

theorem Action.marks_of_marked {plan : Nat} {a : Action S} (marked : a.marked plan = true) :
    a.marks plan := by
  cases a with
  | markCommit session handle acked =>
      cases acked with
      | true => simpa [Action.marked, Action.marks] using marked
      | false => simp [Action.marked] at marked
  | _ => simp [Action.marked] at marked

theorem Effect.persists_iff {plan : Nat} {rows rows' : PlanRows} {a : Action S}
    (effect : Effect plan rows a rows') (persists : a.persists plan = true) :
    rows.testRuns = [] ∧ rows'.testRuns ≠ [] := by
  cases effect with
  | quiet elsewhere =>
      cases a with
      | resultCommit session handle acked =>
          refine absurd ?_ elsewhere
          simpa [Action.writes, Action.persists] using persists
      | _ => simp [Action.persists] at persists
  | finished here fenced unique => exact ⟨unique, by simp⟩
  | _ => simp [Action.persists] at persists

theorem Effect.testRuns_stay {plan : Nat} {rows rows' : PlanRows} {a : Action S}
    (effect : Effect plan rows a rows') (some_run : rows.testRuns ≠ []) : rows'.testRuns ≠ [] := by
  cases effect with
  | finished here fenced unique => exact absurd unique some_run
  | _ => exact some_run

end Counting

section Refinement

variable {S : Type} [DecidableEq S] {limit : Retries} {owner : S → String}

/-- The processes refine the services. -/
def toServices (limit : Retries) (owner : S → String) :
    System.Simulation (workers limit owner) (services S) where
  view w := w.db
  label
    | .sql action => some action
    | _ => none
  init _ start := start.1
  step w event w' step := by
    cases step with
    | sql move step => exact .inl ⟨_, rfl, step⟩
    | gateway here => exact .inr ⟨rfl, rfl⟩
    | silent move => exact .inr ⟨rfl, rfl⟩

/-- A count over the services' actions is a count over the processes' events. -/
theorem countP_onSql (limit : Retries) (owner : S → String) (trace : List (Event S))
    (fires : Action S → Bool) :
    trace.countP (Event.onSql fires) =
      (trace.filterMap (toServices limit owner).label).countP fires := by
  rw [List.countP_filterMap]
  congr 1
  funext event
  cases event <;> rfl

/-- The marker is a latch: `mark_network_started` returns at most once. -/
theorem marked_le_one {σ₀ σ : State S} {trace : List (Action S)} (inv : Inv σ₀)
    (run : (services S).Run σ₀ trace σ) (plan : Nat) : trace.countP (Action.marked plan) ≤ 1 := by
  have latch := run.countP_le_latch (I := Inv) (C := fun s => (s.rows plan).started)
    (fun _ _ _ inv step => Inv.step inv step)
    (fun _ _ _ inv started step => (Step.effect inv step plan).started_stays started)
    (fun _ _ _ inv step marked =>
      ((Step.effect inv step plan).marks_iff (Action.marks_of_marked marked)).2) inv
  exact latch.1

/-- The canonical result is a latch too. -/
theorem persists_le_one {σ₀ σ : State S} {trace : List (Action S)} (inv : Inv σ₀)
    (run : (services S).Run σ₀ trace σ) (plan : Nat) : trace.countP (Action.persists plan) ≤ 1 := by
  have latch := run.countP_le_latch (I := Inv) (C := fun s => (s.rows plan).testRuns ≠ [])
    (fun _ _ _ inv step => Inv.step inv step)
    (fun _ _ _ inv some_run step => (Step.effect inv step plan).testRuns_stay some_run)
    (fun _ _ _ inv step persists => by
      obtain ⟨empty, filled⟩ := (Step.effect inv step plan).persists_iff persists
      exact ⟨fun some_run => some_run empty, filled⟩) inv
  exact latch.1

/-- A process reaches the gateway's door only through a returned marker. -/
theorem WorkerStep.atGateway_cases {w w' : Workers S} {event : Event S} {plan : Nat} {session : S}
    (step : WorkerStep limit owner w event w') (there : w'.atGateway plan session) :
    w.atGateway plan session ∨ ∃ handle, handle.executionPlanId = plan ∧
      event = .sql (.markCommit session handle true) := by
  obtain ⟨handle, door, here⟩ := there
  cases step with
  | @sql mover action pc db move step =>
      by_cases same : session = mover
      · subst same
        simp only [Function.update_self] at door
        subst door
        -- only a seen `markCommit` leads to `entering`
        generalize w.pc session = pc at move
        cases move with
        | markCommit handle attempts => exact .inr ⟨handle, here, rfl⟩
      · simp only [Function.update_of_ne same] at door
        exact .inl ⟨handle, door, here⟩
  | @gateway mover entered open_ =>
      by_cases same : session = mover
      · subst same
        simp at door
      · simp only [Function.update_of_ne same] at door
        exact .inl ⟨handle, door, here⟩
  | @silent mover pc move =>
      by_cases same : session = mover
      · subst same
        simp only [Function.update_self] at door
        subst door
        generalize w.pc session = pc at move
        cases move
      · simp only [Function.update_of_ne same] at door
        exact .inl ⟨handle, door, here⟩

theorem WorkerStep.gateway_cases {w w' : Workers S} {plan : Nat} {session : S}
    (step : WorkerStep limit owner w (.gateway session plan) w') :
    w.atGateway plan session ∧ ¬ w'.atGateway plan session := by
  cases step with
  | @gateway _ handle door =>
      refine ⟨⟨handle, door, rfl⟩, ?_⟩
      rintro ⟨handle', at_, -⟩
      simp at at_

/-- What the trace so far says about the processes at the gateway's door. -/
structure Crossing (plan : Nat) (trace : List (Event S)) (w : Workers S) : Prop where
  closed : trace.countP (Event.onSql (Action.marked plan)) = 0 → trace.countP (Event.enters plan) = 0 ∧
    ∀ session, ¬ w.atGateway plan session
  once : trace.countP (Event.enters plan) ≤ 1
  passed : 0 < trace.countP (Event.enters plan) → ∀ session, ¬ w.atGateway plan session
  alone : ∀ one two, w.atGateway plan one → w.atGateway plan two → one = two

/-- One step, given that no second marker has returned. -/
theorem Crossing.step {plan : Nat} {trace : List (Event S)} {w w' : Workers S} {event : Event S}
    (crossing : Crossing plan trace w) (step : WorkerStep limit owner w event w')
    (latch : (trace ++ [event]).countP (Event.onSql (Action.marked plan)) ≤ 1) :
    Crossing plan (trace ++ [event]) w' := by
  rw [List.countP_append, List.countP_singleton] at latch
  by_cases fired : event.onSql (Action.marked plan) = true
  · -- the marker returns: nobody stood at the door before
    rw [if_pos fired] at latch
    obtain ⟨unentered, nobody⟩ := crossing.closed (by omega)
    have quiet : event.enters plan = false := by
      cases event with
      | gateway session entered => simp [Event.onSql] at fired
      | _ => rfl
    have count : (trace ++ [event]).countP (Event.enters plan) = 0 := by
      rw [List.countP_append, List.countP_singleton, quiet, unentered]
      rfl
    refine ⟨?_, by omega, by omega, ?_⟩
    · intro zero
      rw [List.countP_append, List.countP_singleton, if_pos fired] at zero
      omega
    · intro one two first second
      have named : ∀ session, w'.atGateway plan session →
          ∃ handle, event = .sql (.markCommit session handle true) := by
        intro session there
        rcases step.atGateway_cases there with before | ⟨handle, -, mark⟩
        · exact absurd before (nobody session)
        · exact ⟨handle, mark⟩
      obtain ⟨handle, isOne⟩ := named one first
      obtain ⟨handle', isTwo⟩ := named two second
      rw [isOne] at isTwo
      injection isTwo with same
      injection same
  · -- no marker: nobody new arrives at the door
    have arrives : ∀ session, w'.atGateway plan session → w.atGateway plan session := by
      intro session there
      rcases step.atGateway_cases there with before | ⟨handle, here, mark⟩
      · exact before
      · subst mark
        exact absurd (by simp [Event.onSql, Action.marked, here]) fired
    by_cases enters : event.enters plan = true
    · cases event with
      | gateway session entered =>
          have here : entered = plan := by simpa [Event.enters] using enters
          subst here
          obtain ⟨door, left⟩ := step.gateway_cases
          have unentered : trace.countP (Event.enters entered) = 0 := by
            by_contra some_before
            exact crossing.passed (Nat.pos_of_ne_zero some_before) session door
          have nobody : ∀ other, ¬ w'.atGateway entered other := by
            intro other there
            have same := crossing.alone other session (arrives other there) door
            subst same
            exact left there
          refine ⟨?_, ?_, fun _ => nobody, ?_⟩
          · intro zero
            rw [List.countP_append] at zero
            exact absurd door ((crossing.closed (by omega)).2 session)
          · rw [List.countP_append, List.countP_singleton, if_pos enters]
            omega
          · intro one two first
            exact absurd first (nobody one)
      | _ => simp [Event.enters] at enters
    · have count : (trace ++ [event]).countP (Event.enters plan) =
          trace.countP (Event.enters plan) := by
        rw [List.countP_append, List.countP_singleton, if_neg enters]
        rfl
      refine ⟨?_, by rw [count]; exact crossing.once, ?_, ?_⟩
      · intro zero
        rw [List.countP_append] at zero
        obtain ⟨unentered, nobody⟩ := crossing.closed (by omega)
        rw [count]
        exact ⟨unentered, fun session there => nobody session (arrives session there)⟩
      · intro some_before session there
        rw [count] at some_before
        exact crossing.passed some_before session (arrives session there)
      · intro one two first second
        exact crossing.alone one two (arrives one first) (arrives two second)

theorem event_marked_le_one {w₀ w : Workers S} {trace : List (Event S)} (start : Init w₀.db)
    (run : (workers limit owner).Run w₀ trace w) (plan : Nat) :
    trace.countP (Event.onSql (Action.marked plan)) ≤ 1 := by
  rw [countP_onSql limit owner]
  exact marked_le_one start.inv ((toServices limit owner).run_map run) plan

theorem Crossing.run {w₀ w : Workers S} {trace : List (Event S)} (start : Init w₀.db)
    (idle : ∀ session, w₀.pc session = .idle) (run : (workers limit owner).Run w₀ trace w)
    (plan : Nat) : Crossing plan trace w := by
  induction run with
  | refl =>
      have nobody : ∀ session, ¬ w₀.atGateway plan session := by
        rintro session ⟨handle, door, -⟩
        rw [idle session] at door
        cases door
      exact ⟨fun _ => ⟨rfl, nobody⟩, Nat.zero_le _, fun _ => nobody,
        fun one _ first => absurd first (nobody one)⟩
  | snoc run last ih => exact ih.step last (event_marked_le_one start (run.snoc last) plan)

/-- **At most one network crossing.**  In every run of any number of processes, for
every plan, `mark_network_started` returns at most once, the gateway is entered at
most once and only after the marker, and at most one test run is ever persisted. -/
theorem network_crossed_at_most_once {w₀ w : Workers S} {trace : List (Event S)}
    (start : (workers limit owner).init w₀) (run : (workers limit owner).Run w₀ trace w)
    (plan : Nat) :
    trace.countP (Event.onSql (Action.marked plan)) ≤ 1 ∧
      trace.countP (Event.enters plan) ≤ trace.countP (Event.onSql (Action.marked plan)) ∧
      trace.countP (Event.onSql (Action.persists plan)) ≤ 1 ∧ (w.db.rows plan).testRuns.length ≤ 1 := by
  have marked := event_marked_le_one start.1 run plan
  have crossing := Crossing.run start.1 start.2 run plan
  have inv : Inv w.db := start.1.inv.run ((toServices limit owner).run_map run)
  have persisted : trace.countP (Event.onSql (Action.persists plan)) ≤ 1 := by
    rw [countP_onSql limit owner]
    exact persists_le_one start.1.inv ((toServices limit owner).run_map run) plan
  refine ⟨marked, ?_, persisted, inv.single plan⟩
  rcases Nat.eq_zero_or_pos (trace.countP (Event.onSql (Action.marked plan))) with none_yet | some_mark
  · exact Nat.le_of_eq (by rw [none_yet, (crossing.closed none_yet).1])
  · exact Nat.le_trans crossing.once some_mark

end Refinement

/-- The handle after one renewal at time 1. -/
def renewedHandle (plan : Nat) : ClaimHandle := ⟨plan, "worker", 1, 31, 1⟩

/-- The transaction of `_finish`, from any state in which it can start. -/
theorem finishing_run {limit : Retries} {owner : Unit → String} {w : Workers Unit}
    {handle : ClaimHandle} {now : Int} (door : w.pc () = .finishing handle)
    (idle : w.db.txn () = none) (free : w.db.claimLock handle.executionPlanId = none)
    (current : assertCurrent (w.db.rows handle.executionPlanId).claim handle now = true)
    (unique : (w.db.rows handle.executionPlanId).testRuns = []) (stored : TestRun) :
    ∃ w', (workers limit owner).Run w [.sql (.resultBegin () handle), .sql (.resultFlush () handle),
      .sql (.resultCommit () handle true)] w' := by
  refine ⟨_, .cons
      (@WorkerStep.sql _ _ _ _ _ () _ (.finishing handle) _ ?_ (.resultBegin idle free current)) <|
    .cons (@WorkerStep.sql _ _ _ _ _ () _ (.finishing handle) _ ?_
      (.resultFlush stored ?_ ?_)) <|
    .cons (@WorkerStep.sql _ _ _ _ _ () _ (.releasing handle limit.claim) _ ?_
      (@Step.resultCommit _ _ _ () _ stored true ?_)) (.refl _)⟩
  · rw [door]
    exact .resultBegin handle
  · simpa using Sql.resultFlush handle
  · simp [State.advance]
  · simpa [State.advance, State.lockClaim] using unique
  · simpa using Sql.resultCommit handle true
  · simp [State.advance]

/-- `mark_network_started` and the gateway, from any state in which the attempt is
prepared and nobody else holds a lock. -/
theorem crossing_run {limit : Retries} {owner : Unit → String} {w : Workers Unit}
    {handle : ClaimHandle} {attempts : Nat} {now : Int} {row : ProgressRow}
    (door : w.pc () = .marking handle (attempts + 1) false) (idle : w.db.txn () = none)
    (planFree : w.db.planLock handle.executionPlanId = none)
    (free : w.db.claimLock handle.executionPlanId = none)
    (present : (w.db.rows handle.executionPlanId).present = true)
    (current : assertCurrent (w.db.rows handle.executionPlanId).claim handle now = true)
    (clear : (w.db.rows handle.executionPlanId).cancellation = none)
    (unique : (w.db.rows handle.executionPlanId).testRuns = [])
    (moved : startNetwork (w.db.rows handle.executionPlanId).progress handle now = some row) :
    ∃ w', (workers limit owner).Run w [.sql (.markBegin () handle), .sql (.markStatement () handle),
        .sql (.markStatement () handle), .sql (.markStatement () handle),
        .sql (.markCommit () handle true), .gateway () handle.executionPlanId, .silent ()] w' ∧
      w'.pc () = .finishing handle ∧ w'.db.txn () = none ∧
      w'.db.claimLock handle.executionPlanId = none ∧
      assertCurrent (w'.db.rows handle.executionPlanId).claim handle now = true ∧
      (w'.db.rows handle.executionPlanId).testRuns = [] := by
  refine ⟨_, .cons (@WorkerStep.sql _ _ _ _ _ () _ (.marking handle (attempts + 1) false) _ ?_
      (.markBegin idle present planFree)) <|
    .cons (@WorkerStep.sql _ _ _ _ _ () _ (.marking handle (attempts + 1) false) _ ?_
      (@Step.markClaim _ _ _ () _ now ?_ ?_ ?_)) <|
    .cons (@WorkerStep.sql _ _ _ _ _ () _ (.marking handle (attempts + 1) false) _ ?_
      (.markUncancelled ?_ ?_)) <|
    .cons (@WorkerStep.sql _ _ _ _ _ () _ (.marking handle (attempts + 1) false) _ ?_
      (@Step.markUpdate _ _ _ () _ now row ?_ ?_)) <|
    .cons (@WorkerStep.sql _ _ _ _ _ () _ (.entering handle) _ ?_
      (@Step.markCommit _ _ _ () _ row true ?_)) <|
    .cons (@WorkerStep.gateway _ _ _ _ _ () handle ?_) <|
    .cons (@WorkerStep.silent _ _ _ _ _ () (.finishing handle) ?_) (.refl _), ?_⟩
  · rw [door]
    exact .markBegin handle attempts false
  · simpa using Sql.markStatement handle attempts false
  · simp [State.advance]
  · simpa [State.advance, State.lockPlan] using free
  · simpa [State.advance, State.lockPlan] using current
  · simpa using Sql.markStatement handle attempts false
  · simp [State.advance]
  · simpa [State.advance, State.lockPlan, State.lockClaim] using clear
  · simpa using Sql.markStatement handle attempts false
  · simp [State.advance]
  · simpa [State.advance, State.lockPlan, State.lockClaim] using moved
  · simpa using Sql.markCommit handle attempts
  · simp [State.advance]
  · simp
  · simpa using Local.answered handle
  · simp [State.write, State.advance, State.lockPlan, State.lockClaim, State.finish, current, unique]

/-- A process claims a fresh plan, prepares its attempt and is authorized. -/
theorem authorized_run (plan : Nat) :
    ∃ w, (workers ⟨3, 3, 3⟩ (fun _ : Unit => "worker")).Run ⟨fresh Unit, fun _ => .idle⟩
      [.silent (), .silent (), .silent (), .sql (.acquired () (firstHandle plan)), .silent (),
        .silent (), .sql (.prepared () (firstHandle plan)), .silent (),
        .sql (.renewed () (firstHandle plan) (renewedHandle plan)), .silent ()] w ∧
      w.pc () = .marking (renewedHandle plan) 3 false ∧ w.db.txn () = none ∧
      w.db.planLock plan = none ∧ w.db.claimLock plan = none ∧
      w.db.rows plan = ⟨true, some ⟨some "worker", 1, 31⟩, some ⟨1, .preNetwork, 1⟩, none, []⟩ := by
  have valid : validateLease "worker" 30 = true := by decide +kernel
  refine ⟨_, .cons (.silent (.call plan)) <|
    .cons (.silent (.preflightPasses rfl rfl)) <|
    .cons (.silent (.permittedPasses rfl)) <|
    .cons (@WorkerStep.sql _ _ _ _ _ () _ (.looking (firstHandle plan)) _ (.acquired rfl rfl)
      (@Step.acquired _ _ _ () plan "worker" 30 0 _ _ rfl valid rfl rfl rfl)) <|
    .cons (.silent (.lookPasses ?_)) <|
    .cons (.silent (.checkPasses ?_)) <|
    .cons (@WorkerStep.sql _ _ _ _ _ () _ (.executing (firstHandle plan)) _ (.prepared _ _)
      (@Step.prepared _ _ _ () 1 1 ⟨1, .preNetwork, 1⟩ _ rfl rfl ?_)) <|
    .cons (.silent (.executeRefreshes _)) <|
    .cons (@WorkerStep.sql _ _ _ _ _ () _ (.authorized (renewedHandle plan)) _ (.renewed _ _ _)
      (@Step.renewed _ _ _ () 30 1 ⟨some "worker", 1, 31⟩ _ _ rfl valid rfl ?_)) <|
    .cons (.silent (.authorizedPasses _)) (.refl _), ?_⟩
  all_goals simp [State.write, firstHandle, renewedHandle, fresh, prepareAttempt, assertCurrent,
    renew, ClaimRow.heldBy]

/-- The bounds are met with equality by one process that meets no trouble. -/
theorem network_crossed_at_most_once_one_worker :
    ∃ w trace,
      (workers ⟨3, 3, 3⟩ (fun _ : Unit => "worker")).Run ⟨fresh Unit, fun _ => .idle⟩ trace w ∧
      trace.countP (Event.onSql (Action.marked 7)) = 1 ∧ trace.countP (Event.enters 7) = 1 ∧
      trace.countP (Event.onSql (Action.persists 7)) = 1 ∧ (w.db.rows 7).testRuns.length ≤ 1 := by
  obtain ⟨w₁, authorized, door, idle, planFree, free, rows⟩ := authorized_run 7
  obtain ⟨w₂, crossed, door, idle, free, current, unique⟩ :=
    @crossing_run ⟨3, 3, 3⟩ (fun _ => "worker") w₁ (renewedHandle 7) 2 2 ⟨1, .networkStarted, 2⟩
      door idle planFree free (by simp [renewedHandle, rows])
      (by simp [renewedHandle, rows, assertCurrent, ClaimRow.heldBy])
      (by simp [renewedHandle, rows]) (by simp [renewedHandle, rows])
      (by simp [renewedHandle, rows, startNetwork])
  obtain ⟨w₃, finished⟩ := finishing_run door idle free current unique
    ⟨1, 1, some 200, none, some 4, none⟩
  have run := authorized.append (crossed.append finished)
  have once := network_crossed_at_most_once ⟨fresh_init Unit, fun _ => rfl⟩ run 7
  exact ⟨w₃, _, run, by decide, by decide, by decide, once.2.2.2⟩

end ApiSecurityPlatform.Execution
