/-
# Execution.Fencing -- generations only grow, and only the newest one writes

The claim row is never deleted, `acquire` adds one to its generation and no other
statement touches it.  A handle is therefore stale for good once another `acquire`
has succeeded, whoever made it: the same owner id counts for nothing without the
generation.  `release` ignores the lease and the result writer holds the claim's
lock across two statements; neither lets a stale handle through.
-/
import ApiSecurityPlatform.Execution.PlanServices

namespace ApiSecurityPlatform.Execution

open ApiSecurityPlatform.Theory

set_option autoImplicit false

variable {S : Type}

/-! ## One step -/

section Steps

variable {plan : Nat} {rows rows' : PlanRows} {a : Action S}

theorem Txn.Fenced.generation_eq {handle : ClaimHandle} (fenced : Txn.Fenced rows handle) :
    rows.generation = handle.fencingGeneration := by
  obtain ⟨row, found, -, same⟩ := fenced
  simp [PlanRows.generation, found, same]

theorem Effect.generation_le (effect : Effect plan rows a rows') :
    rows.generation ≤ rows'.generation := by
  cases effect with
  | @acquired session handle row here owner fresh next =>
      have grown : PlanRows.generation { rows with claim := some row } = row.fencingGeneration := rfl
      rw [grown, next]
      omega
  | @renewed session handle next row here fenced owner same =>
      have kept : PlanRows.generation { rows with claim := some row } = row.fencingGeneration := rfl
      exact Nat.le_of_eq (by rw [kept, same, fenced.generation_eq])
  | @released session handle row here fenced same =>
      have kept : PlanRows.generation { rows with claim := some row } = row.fencingGeneration := rfl
      exact Nat.le_of_eq (by rw [kept, same, fenced.generation_eq])
  | _ => exact Nat.le_refl _

/-- An operation presented with a handle of another generation leaves the claim
and the progress of every plan as they were. -/
theorem Effect.stale_frame (effect : Effect plan rows a rows') {handle : ClaimHandle}
    (presented : a.presented = some handle) (stale : handle.executionPlanId = plan →
      handle.fencingGeneration ≠ rows.generation) :
    rows'.claim = rows.claim ∧ rows'.progress = rows.progress := by
  cases effect with
  | quiet elsewhere => exact ⟨rfl, rfl⟩
  | acquired here owner fresh next => cases presented
  | renewed here fenced owner same =>
      cases presented
      exact absurd fenced.generation_eq.symm (stale here)
  | released here fenced same =>
      cases presented
      exact absurd fenced.generation_eq.symm (stale here)
  | prepared here fenced before phase =>
      cases presented
      exact absurd fenced.generation_eq.symm (stale here)
  | marked here fenced uncancelled found before phase generation =>
      cases presented
      exact absurd fenced.generation_eq.symm (stale here)
  | cancelled unstarted => cases presented
  | finished here fenced unique => exact ⟨rfl, rfl⟩

end Steps

/-- Two handles that are current at the same moment carry the same owner and the
same generation. -/
theorem assertCurrent_unique {claim : Option ClaimRow} {one two : ClaimHandle} {now : Int}
    (first : assertCurrent claim one now = true) (second : assertCurrent claim two now = true) :
    one.ownerId = two.ownerId ∧ one.fencingGeneration = two.fencingGeneration := by
  obtain ⟨row, found, owner, generation⟩ := assertCurrent_spec first
  obtain ⟨row', found', owner', generation'⟩ := assertCurrent_spec second
  rw [found] at found'
  cases found'
  rw [owner] at owner'
  exact ⟨Option.some.inj owner', generation.symm.trans generation'⟩

/-! ## Whole runs -/

/-- The generations `acquire` has handed out for `plan`, oldest first. -/
def acquisitions (plan : Nat) (trace : List (Action S)) : List Nat :=
  trace.filterMap fun
    | .acquired _ handle =>
        if handle.executionPlanId = plan then some handle.fencingGeneration else none
    | _ => none

theorem acquisitions_snoc (plan : Nat) (trace : List (Action S)) (a : Action S) :
    acquisitions plan (trace ++ [a]) = acquisitions plan trace ++ acquisitions plan [a] := by
  rw [acquisitions, List.filterMap_append]
  rfl

theorem Effect.acquisitions_eq {plan : Nat} {rows rows' : PlanRows} {a : Action S}
    (effect : Effect plan rows a rows') : acquisitions plan [a] = [] ∨
      (acquisitions plan [a] = [rows'.generation] ∧ rows.generation < rows'.generation) := by
  cases effect with
  | quiet elsewhere =>
      left
      cases a with
      | acquired session handle =>
          have other : handle.executionPlanId ≠ plan := by
            simpa [Action.writes] using elsewhere
          simp [acquisitions, other]
      | _ => rfl
  | @acquired session handle row here owner fresh next =>
      right
      have grown : PlanRows.generation { rows with claim := some row } = row.fencingGeneration := rfl
      refine ⟨by simp [acquisitions, here, grown, fresh], ?_⟩
      rw [grown, next]
      omega
  | _ => exact .inl rfl

section Runs

variable [DecidableEq S] {σ₀ σ τ : State S} {trace before after : List (Action S)}

theorem generation_mono (inv : Inv σ) (run : (services S).Run σ after τ) (plan : Nat) :
    (σ.rows plan).generation ≤ (τ.rows plan).generation := by
  refine run.preserves_under (I := Inv) (J := fun s => (σ.rows plan).generation ≤
    (s.rows plan).generation) (fun _ _ _ inv step => Inv.step inv step) ?_ inv (Nat.le_refl _)
  intro s a t inv bound step
  exact Nat.le_trans bound (Step.effect inv step plan).generation_le

theorem acquisitions_increase (inv : Inv σ₀) (run : (services S).Run σ₀ trace σ) (plan : Nat) :
    (acquisitions plan trace).Pairwise (· < ·) ∧
      ∀ generation ∈ acquisitions plan trace, generation ≤ (σ.rows plan).generation := by
  induction run with
  | refl => simp [acquisitions]
  | @snoc t u trace a run last ih =>
      obtain ⟨increasing, bound⟩ := ih
      have inv_t : Inv t := inv.run run
      have effect := Step.effect inv_t last plan
      rw [acquisitions_snoc]
      rcases effect.acquisitions_eq with silent | ⟨handed, grown⟩
      · rw [silent, List.append_nil]
        exact ⟨increasing, fun g member => Nat.le_trans (bound g member) effect.generation_le⟩
      · rw [handed]
        refine ⟨List.pairwise_append.2 ⟨increasing, List.pairwise_singleton _ _, ?_⟩, ?_⟩
        · intro g member g' last_one
          rw [List.mem_singleton.1 last_one]
          exact Nat.lt_of_le_of_lt (bound g member) grown
        · intro g member
          rcases List.mem_append.1 member with old | new
          · exact Nat.le_trans (bound g old) effect.generation_le
          · exact Nat.le_of_eq (List.mem_singleton.1 new)

/-- **Fencing**, over every run of the services, from any state `σ` on the way:
the generation never decreases and grows at every `acquire`, so no two successful
`acquire`s share one; at most one owner and generation are current; a stale handle
moves neither the claim nor the progress row; and a test run is committed only by
the newest generation. -/
theorem fencing (start : Init σ₀) (first : (services S).Run σ₀ before σ) (plan : Nat) :
    (∀ after τ, (services S).Run σ after τ →
      (σ.rows plan).generation ≤ (τ.rows plan).generation) ∧
    (∀ session handle τ, Step σ (.acquired session handle) τ → handle.executionPlanId = plan →
      handle.fencingGeneration = (τ.rows plan).generation ∧
        (σ.rows plan).generation < (τ.rows plan).generation) ∧
    (acquisitions plan before).Pairwise (· < ·) ∧
    (∀ one two now, assertCurrent (σ.rows plan).claim one now = true →
      assertCurrent (σ.rows plan).claim two now = true →
        one.ownerId = two.ownerId ∧ one.fencingGeneration = two.fencingGeneration) ∧
    (∀ a handle τ, Step σ a τ → a.presented = some handle → handle.executionPlanId = plan →
      handle.fencingGeneration ≠ (σ.rows plan).generation →
        ∀ p, (τ.rows p).claim = (σ.rows p).claim ∧ (τ.rows p).progress = (σ.rows p).progress) ∧
    (∀ session handle acked τ, Step σ (.resultCommit session handle acked) τ →
      handle.executionPlanId = plan → Txn.Fenced (σ.rows plan) handle ∧
        handle.fencingGeneration = (σ.rows plan).generation ∧
          ∀ generation ∈ acquisitions plan before, generation ≤ handle.fencingGeneration) := by
  have inv : Inv σ := start.inv.run first
  obtain ⟨increasing, bound⟩ := acquisitions_increase start.inv first plan
  refine ⟨fun after τ run => generation_mono inv run plan, ?_, increasing,
    fun one two now => assertCurrent_unique, ?_, ?_⟩
  · intro session handle τ step here
    have effect := step.effect inv plan
    rcases effect.acquisitions_eq with silent | ⟨handed, grown⟩
    · simp [acquisitions, here] at silent
    · have same : [handle.fencingGeneration] = [(τ.rows plan).generation] := by
        rw [← handed]
        simp [acquisitions, here]
      exact ⟨List.singleton_inj.1 same, grown⟩
  · intro a handle τ step presented here stale p
    refine (step.effect inv p).stale_frame presented ?_
    intro there
    rwa [← there, here]
  · intro session handle acked τ step here
    have fenced : Txn.Fenced (σ.rows plan) handle := by
      have effect := step.effect inv plan
      generalize τ.rows plan = rows' at effect
      cases effect with
      | quiet elsewhere => exact absurd (by simpa [Action.writes] using here) elsewhere
      | finished here fenced unique => exact fenced
    refine ⟨fenced, fenced.generation_eq.symm, fun g member => ?_⟩
    rw [← fenced.generation_eq]
    exact bound g member

end Runs

/-- The claim of the same owner after the first lease has run out. -/
def secondHandle (plan : Nat) : ClaimHandle := ⟨plan, "worker", 2, 61, 31⟩

/-- The one after the release. -/
def thirdHandle (plan : Nat) : ClaimHandle := ⟨plan, "worker", 3, 92, 62⟩

/-- A plan is claimed, its lease runs out, and it is claimed, released and claimed again. -/
theorem reclaimed_run (plan : Nat) :
    ∃ σ, (services Nat).Run (fresh Nat)
      [.acquired 0 (firstHandle plan), .acquired 1 (secondHandle plan), .released 1 (secondHandle plan),
        .acquired 0 (thirdHandle plan)] σ ∧
      σ.rows plan = ⟨true, some ⟨some "worker", 3, 92⟩, none, none, []⟩ ∧ σ.txn 0 = none ∧ σ.planLock plan = none := by
  have valid : validateLease "worker" 30 = true := by decide +kernel
  refine ⟨_, .cons (@Step.acquired _ _ _ 0 plan "worker" 30 0 _ _ rfl valid rfl rfl rfl) <|
    .cons (@Step.acquired _ _ _ 1 plan "worker" 30 31 ⟨some "worker", 2, 61⟩ (secondHandle plan) rfl valid ?_ rfl ?_) <|
    .cons (@Step.released _ _ _ 1 62 ⟨none, 2, 62⟩ (secondHandle plan) rfl rfl ?_) <|
    .cons (@Step.acquired _ _ _ 0 plan "worker" 30 62 ⟨some "worker", 3, 92⟩ (thirdHandle plan) rfl valid ?_ rfl ?_)
      (.refl _), ?_, rfl, rfl⟩
  all_goals simp [State.write, fresh, secondHandle, thirdHandle, acquire, release, ClaimRow.heldBy, bigintMax]

/-- Three claims of one owner: the generations grow, and a transaction that the first handle still opens moves nothing. -/
theorem fencing_reclaimed :
    ∃ σ trace, (services Nat).Run (fresh Nat) trace σ ∧ acquisitions 7 trace = [1, 2, 3] ∧
      (acquisitions 7 trace).Pairwise (· < ·) ∧ (σ.rows 7).claim = some ⟨some "worker", 3, 92⟩ ∧
      ∃ τ, Step σ (.markBegin 0 (firstHandle 7)) τ ∧
        ∀ p, (τ.rows p).claim = (σ.rows p).claim ∧ (τ.rows p).progress = (σ.rows p).progress := by
  obtain ⟨σ, run, rows, idle, free⟩ := reclaimed_run 7
  obtain ⟨-, -, increasing, -, frame, -⟩ := fencing (fresh_init Nat) run 7
  have opened : Step σ (.markBegin 0 (firstHandle 7)) _ := .markBegin idle (by simp [firstHandle, rows]) free
  refine ⟨σ, _, run, by decide, increasing, by rw [rows], _, opened, ?_⟩
  exact frame _ (firstHandle 7) _ opened rfl rfl (by simp [firstHandle, rows, PlanRows.generation])

end ApiSecurityPlatform.Execution
