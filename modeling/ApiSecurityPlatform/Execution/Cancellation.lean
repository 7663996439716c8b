/-
# Execution.Cancellation -- a cancelled plan never starts, a started plan is never cancelled

`request_cancel` and `mark_network_started` read each other's table under the
`FOR UPDATE` lock on the plan's row, while `prepare_attempt` writes the progress
row under the claim's lock alone.  The two outcomes still exclude each other: a
cancellation row, and the phase `network_started`, are both latches
(`cancelled_stays`, `started_stays`), and each commit is guarded by the other latch
being open.
-/
import ApiSecurityPlatform.Execution.PlanServices

namespace ApiSecurityPlatform.Execution

open ApiSecurityPlatform.Theory

set_option autoImplicit false

variable {S : Type}

/-- A transaction of `mark_network_started` on `plan` commits. -/
def Action.marks (plan : Nat) : Action S → Prop
  | .markCommit _ handle _ => handle.executionPlanId = plan
  | _ => False

/-- A transaction of `request_cancel` on `plan` commits. -/
def Action.cancels (plan : Nat) : Action S → Prop
  | .cancelCommit _ cancelled _ => cancelled = plan
  | _ => False

/-! ## One step -/

section Steps

variable {plan : Nat} {rows rows' : PlanRows} {a : Action S}

/-- The marker is absorbing: `prepare_attempt` refuses a plan past `pre_network`,
and no other statement but the marker itself writes the progress row. -/
theorem Effect.started_stays (effect : Effect plan rows a rows') (started : rows.started) :
    rows'.started := by
  cases effect with
  | prepared here fenced before phase =>
      obtain ⟨old, found, crossed⟩ := started
      have pre := before old found
      rw [crossed] at pre
      cases pre
  | marked here fenced uncancelled found before phase generation => exact ⟨_, rfl, phase⟩
  | _ => exact started

theorem Effect.cancelled_stays (effect : Effect plan rows a rows')
    (cancelled : rows.cancellation.isSome = true) : rows'.cancellation.isSome = true := by
  cases effect with
  | cancelled unstarted => rfl
  | _ => exact cancelled

theorem Effect.marks_iff (effect : Effect plan rows a rows') (marks : a.marks plan) :
    rows.cancellation.isSome = false ∧ ¬ rows.started ∧ rows'.started := by
  cases effect with
  | quiet elsewhere =>
      cases a with
      | markCommit session handle acked =>
          refine absurd ?_ elsewhere
          simpa [Action.writes, Action.marks] using marks
      | _ => exact marks.elim
  | marked here fenced uncancelled found before phase generation =>
      refine ⟨by simp [uncancelled], ?_, ⟨_, rfl, phase⟩⟩
      rintro ⟨row, same, crossed⟩
      rw [found] at same
      cases same
      rw [before] at crossed
      cases crossed
  | _ => exact marks.elim

theorem Effect.cancels_iff (effect : Effect plan rows a rows') (cancels : a.cancels plan) :
    ¬ rows.started ∧ rows'.cancellation.isSome = true := by
  cases effect with
  | quiet elsewhere =>
      cases a with
      | cancelCommit session cancelled acked =>
          refine absurd ?_ elsewhere
          simpa [Action.writes, Action.cancels] using cancels
      | _ => exact cancels.elim
  | cancelled unstarted => exact ⟨unstarted, rfl⟩
  | _ => exact cancels.elim

end Steps

/-! ## Whole runs -/

section Runs

variable [DecidableEq S] {σ₀ σ : State S} {trace : List (Action S)}

theorem no_mark_after_cancel {plan : Nat} (run : (services S).Run σ₀ trace σ) (inv : Inv σ₀)
    (cancelled : (σ₀.rows plan).cancellation.isSome = true) : ∀ a ∈ trace, ¬ a.marks plan := by
  refine run.not_mem_of_closed (I := Inv) (C := fun s => (s.rows plan).cancellation.isSome = true)
    (fun _ _ _ inv step => Inv.step inv step) ?_ ?_ inv cancelled
  · intro s a t inv shut step
    exact (Step.effect inv step plan).cancelled_stays shut
  · intro s a t inv step marks shut
    have opened := ((Step.effect inv step plan).marks_iff marks).1
    rw [shut] at opened
    cases opened

theorem no_cancel_after_start {plan : Nat} (run : (services S).Run σ₀ trace σ) (inv : Inv σ₀)
    (started : (σ₀.rows plan).started) : ∀ a ∈ trace, ¬ a.cancels plan := by
  refine run.not_mem_of_closed (I := Inv) (C := fun s => (s.rows plan).started)
    (fun _ _ _ inv step => Inv.step inv step) ?_ ?_ inv started
  · intro s a t inv shut step
    exact (Step.effect inv step plan).started_stays shut
  · intro s a t inv step cancels
    exact ((Step.effect inv step plan).cancels_iff cancels).1

/-- **Cancellation and network start exclude each other** along every run, for
every plan: never both rows, no start after a cancellation has committed, and no
cancellation after a start has.  A commit whose acknowledgement is lost counts. -/
theorem cancellation_excludes_network_start (start : Init σ₀)
    (run : (services S).Run σ₀ trace σ) (plan : Nat) :
    ¬ ((σ.rows plan).cancellation.isSome = true ∧ (σ.rows plan).started) ∧
      (∀ before after a, trace = before ++ a :: after → a.cancels plan →
        ∀ later ∈ after, ¬ later.marks plan) ∧
      (∀ before after a, trace = before ++ a :: after → a.marks plan →
        ∀ later ∈ after, ¬ later.cancels plan) := by
  refine ⟨?_, ?_, ?_⟩
  · rintro ⟨cancelled, started⟩
    exact (start.inv.run run).exclusive plan cancelled started
  · rintro before after a rfl cancels
    obtain ⟨t, t', first, step, rest⟩ := run.split_at
    have inv := start.inv.run first
    exact no_mark_after_cancel rest (inv.step step) ((step.effect inv plan).cancels_iff cancels).2
  · rintro before after a rfl marks
    obtain ⟨t, t', first, step, rest⟩ := run.split_at
    have inv := start.inv.run first
    exact no_cancel_after_start rest (inv.step step) ((step.effect inv plan).marks_iff marks).2.2

end Runs

/-- Both committing runs exist, and the exclusion speaks about them. -/
theorem cancellation_excludes_network_start_plan_seven :
    (∃ σ trace, (services Nat).Run (fresh Nat) trace σ ∧ (∃ a ∈ trace, a.marks 7) ∧
      ¬ ((σ.rows 7).cancellation.isSome = true ∧ (σ.rows 7).started)) ∧
    (∃ σ trace, (services Nat).Run (fresh Nat) trace σ ∧ (∃ a ∈ trace, a.cancels 7) ∧
      ¬ ((σ.rows 7).cancellation.isSome = true ∧ (σ.rows 7).started)) := by
  refine ⟨?_, ?_⟩
  · obtain ⟨σ, run⟩ := marking_run 0 7
    have excluded := cancellation_excludes_network_start (fresh_init Nat) run 7
    exact ⟨σ, _, run, ⟨.markCommit 0 (firstHandle 7) true, by simp, rfl⟩, excluded.1⟩
  · obtain ⟨σ, run⟩ := cancelling_run 0 7
    have excluded := cancellation_excludes_network_start (fresh_init Nat) run 7
    exact ⟨σ, _, run, ⟨.cancelCommit 0 7 true, by simp, rfl⟩, excluded.1⟩

end ApiSecurityPlatform.Execution
