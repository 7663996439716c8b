/-
# Research.PairBacking -- what stands behind a pair

Every check of `verify_pair` becomes a fact: `Provenance` is what `witness` has compared, and
`Backing` puts two witnesses, the intent and the reading of the clock together.  The deadline of
the baseline is watched from where it is checked, so the last reading of the call, like every
one in between, is within its thirty seconds (`Read`).

A pair that is found stored was made by an earlier call, from witnesses under the same digests
and the same intent (`Stored`); that it is what the witnesses say is an invariant of the system.
-/
import ApiSecurityPlatform.Research.PairVerification
import ApiSecurityPlatform.Theory.Transition

namespace ApiSecurityPlatform.Research.PairVerification

open ApiSecurityPlatform.Theory
open ApiSecurityPlatform.Python (Str)
open ApiSecurityPlatform.Research.VerificationClock

set_option autoImplicit false

theorem orRaise_ok {α : Type} {e : Refusal} {x : Option α} {a : α} : orRaise e x = .ok a ↔ x = some a := by
  cases x <;> simp [orRaise]

section

variable {R : Type} {E : Setting R}

theorem instant_ok {written : Str} {t : Int} : instant E written = .ok t ↔ E.timestamp written = some t := orRaise_ok

theorem counted_ok {mark : Mark} {ns : Int} : counted mark = .ok ns ↔ mark.monotonicNs = some ns := orRaise_ok

/-! ## Readings -/

theorem onClock_ok {α : Type} {x : Tx ClockError Clock α} {s t : Session} {a : α} (ran : onClock x s = (.ok a, t)) :
    x s.clock = (.ok a, t.clock) := by
  unfold onClock at ran
  split at ran
  · next b c done =>
    obtain ⟨same, rfl⟩ := Prod.mk.inj ran
    rw [done, Except.ok.inj same]
  · next e c failed => nomatch (Prod.mk.inj ran).1

/-- The clock has been read, at this instant and this tick: all that was watched holds there,
and is watched on. -/
structure Read (E : Setting R) (s t : Session) (at_ ns : Int) : Prop where
  last : t.clock.last = some (at_, ns)
  holds : ∀ b ∈ s.clock.boundaries.keys, MarkHolds E.timestamp E.domain at_ ns b
  keeps : ∀ b ∈ s.clock.boundaries.keys, b ∈ t.clock.boundaries.keys

theorem call_ok {sample : Sample} {c d : Clock} {at_ : Int} (ran : call E.timestamp E.domain sample c = (.ok at_, d)) :
    ∃ ns, d = { c with last := some (at_, ns) } ∧ ∀ b ∈ c.boundaries.keys, MarkHolds E.timestamp E.domain at_ ns b := by
  rw [call, Tx.get_bind_ok, Tx.refuse_bind_ok] at ran
  obtain ⟨-, ran⟩ := ran
  cases wall : sample.wall with
  | none => rw [wall] at ran; nomatch (Prod.mk.inj ran).1
  | some at' =>
  cases counted : sample.ns with
  | none => rw [wall, counted] at ran; nomatch (Prod.mk.inj ran).1
  | some ns =>
  rw [wall, counted] at ran
  dsimp only at ran
  by_cases backwards : c.Backwards at' ns
  · rw [if_pos backwards] at ran
    nomatch (Prod.mk.inj ran).1
  rw [if_neg backwards, Tx.modify_bind_ok, Tx.bind_ok] at ran
  obtain ⟨_, c₁, windows, ran⟩ := ran
  obtain ⟨_, c₂, boundaries, ran⟩ := Tx.bind_ok.1 ran
  obtain ⟨rfl, rfl⟩ := Tx.pure_ok.1 ran
  have afterWindows : c₁ = { c with last := some (at', ns) } := by
    rcases checkWindows_cases at' c.windows.items { c with last := some (at', ns) } with
      ⟨passed, _⟩ | ⟨_, _, _, _, _, _, _, failed⟩
    · exact (Prod.mk.inj (windows.symm.trans passed)).2
    · nomatch (Prod.mk.inj (windows.symm.trans failed)).1
  subst afterWindows
  rcases checkBoundaries_cases E.timestamp E.domain at' ns c.boundaries.items { c with last := some (at', ns) } with
    ⟨passed, all⟩ | ⟨_, _, _, _, _, _, _, _, _, failed⟩
  · refine ⟨ns, (Prod.mk.inj (boundaries.symm.trans passed)).2, fun b mem => ?_⟩
    obtain ⟨keys, row⟩ := Table.row_of_mem mem
    exact all (b, keys) (Table.mem_items.2 row)
  · nomatch (Prod.mk.inj (boundaries.symm.trans failed)).1

theorem now_ok {s t : Session} {at_ : Int} (ran : now E s = (.ok at_, t)) : ∃ ns, Read E s t at_ ns := by
  obtain ⟨ns, clock, holds⟩ := call_ok (onClock_ok ran)
  exact ⟨ns, by rw [clock], holds, by rw [clock]; exact fun _ mem => mem⟩

/-- A mark that is checked holds at that reading; with a bound it is watched from there. -/
theorem checkMark_ok {s t : Session} {b : Boundary} {at_ : Int} (ran : checkMark E b s = (.ok at_, t)) :
    ∃ ns, Read E s t at_ ns ∧ MarkHolds E.timestamp E.domain at_ ns b ∧
      (b.seconds ≠ none ∨ b.end_ ≠ none → b ∈ t.clock.boundaries.keys) := by
  obtain ⟨at', c, read, finished⟩ := Tx.bind_ok.1 (onClock_ok ran)
  obtain ⟨ns, clock, holds⟩ := call_ok read
  obtain ⟨_, d, registered, done⟩ := Tx.bind_ok.1 finished
  obtain ⟨rfl, rfl⟩ := Tx.pure_ok.1 done
  rw [registerMark, Tx.get_bind_ok, Tx.bind_ok] at registered
  obtain ⟨_, c', checked, registered⟩ := registered
  have last : c.last.getD (0, 0) = (at', ns) := by rw [clock]; rfl
  rw [last] at checked
  obtain ⟨rfl, fresh⟩ : c' = c ∧ MarkHolds E.timestamp E.domain at' ns b := by
    rcases check_cases E.timestamp E.domain at' ns b none c with ⟨passed, fresh, _⟩ | ⟨failed, _⟩ | ⟨failed, _⟩ |
      ⟨failed, _⟩ | ⟨failed, _⟩
    · exact ⟨(Prod.mk.inj (checked.symm.trans passed)).2, fresh⟩
    all_goals nomatch (Prod.mk.inj (checked.symm.trans failed)).1
  rcases Tx.when_ok.1 registered with ⟨_, registered⟩ | ⟨unbounded, same⟩
  · rw [Tx.refuse_bind_ok, Tx.modify_ok] at registered
    obtain ⟨-, same⟩ := registered
    refine ⟨ns, ⟨by rw [← same, clock], holds, fun b' mem => ?_⟩, fresh, fun _ => ?_⟩
    · rw [← same]
      exact Table.mem_keys_put_of_mem _ _ (by rw [clock]; exact mem)
    · rw [← same]
      exact Table.mem_keys_put _ _ _
  · refine ⟨ns, ⟨by rw [← same, clock], holds, fun b' mem => by rw [← same, clock]; exact mem⟩, fresh,
      fun bounded => absurd bounded unbounded⟩

theorem takeMark_ok {s t : Session} {mark : Mark} (ran : takeMark E s = (.ok mark, t)) :
    ∃ at_ ns, Read E s t at_ ns ∧ mark = ⟨E.stamp at_, some ns, E.domain⟩ := by
  obtain ⟨at_, u, read, ran⟩ := Tx.bind_ok.1 ran
  rw [Tx.get_bind_ok, Tx.pure_ok] at ran
  obtain ⟨rfl, rfl⟩ := ran
  obtain ⟨ns, passed⟩ := now_ok read
  exact ⟨at_, ns, passed, by rw [passed.last]; rfl⟩

/-! ## Witnesses -/

variable {db : Db R}

theorem find?_mem {α : Type} {p : α → Bool} {l : List α} {a : α} (found : l.find? p = some a) : a ∈ l ∧ p a = true :=
  ⟨List.mem_of_find?_eq_some found, List.find?_some found⟩

/-- The rows a witness stands on, and what has been compared between them. -/
structure Provenance (E : Setting R) (db : Db R) (ctx : Int) (row : WitnessRow) (core : IntentRow) where
  attempt : AttemptRow
  member : Member
  run : TestRun
  progress : Progress
  row_mem : row ∈ db.witnesses
  attempt_mem : attempt ∈ db.attempts
  core_mem : core ∈ db.intents
  run_mem : run ∈ db.runs
  progress_mem : progress ∈ db.progress
  /-- The member of the plan. -/
  joined : core.link.members.find? (fun member => member.planId = row.planId) = some member
  context : row.contextId = ctx ∧ attempt.contextId = ctx ∧ core.contextId = ctx
  digests : E.witnessDigest row.body = row.digest ∧ E.attemptDigest attempt.body = attempt.digest
  plan : member.planId = row.planId ∧ attempt.planId = row.planId ∧ attempt.body.planId = row.planId ∧
    row.body.planId = row.planId
  intent : row.intentId = core.id ∧ attempt.intentId = core.id ∧ row.body.intent = core.reference ∧
    attempt.body.intent = core.reference ∧ row.body.linkDigest = core.linkDigest ∧
    attempt.body.linkDigest = core.linkDigest ∧ attempt.body.manifest = core.body.manifest
  attempted : row.attemptId = attempt.id ∧ row.body.attempt = attempt.ref
  action : row.body.actionId = member.actionId ∧ attempt.body.actionId = member.actionId
  role : row.body.role = member.role ∧ attempt.body.role = member.role
  planDigest : attempt.body.planDigest = member.planDigest
  ran : run.id = row.runId ∧ row.body.runId = row.runId ∧ run.executionPlanId = some row.planId ∧
    run.testCaseId = member.testCaseId ∧ run.authorizationRevisionId = some core.body.authorizationRevisionId ∧
    run.responseStatus = row.body.responseStatus ∧ E.requestDigest run.requestData = row.body.requestDigest
  claimed : progress.planId = row.planId ∧ progress.phase = .networkStarted ∧
    progress.fencingGeneration = attempt.body.fencingGeneration
  domain : row.body.temporalStatus = .qualified →
    row.body.send.clockDomain = row.body.complete.clockDomain ∧ row.body.complete.clockDomain = row.body.clock.clockDomain
  status : row.body.temporalStatus = .qualified → row.body.outcome ≠ .inconclusive → run.errorMessage = none ∧
    row.body.responseStatus = some (if row.body.outcome = .businessDenied then 403 else 200)

theorem checkAttempt_ok {ctx : Int} {row : WitnessRow} {attempt : AttemptRow} {core : IntentRow} {member : Member}
    (passed : checkAttempt E db ctx row attempt core member = .ok ()) :
    (attempt.intentId = row.intentId ∧ attempt.planId = row.planId ∧ row.body.intent = core.reference ∧
      row.body.linkDigest = core.linkDigest ∧ attempt.body.intent = core.reference ∧
      attempt.body.linkDigest = core.linkDigest ∧ attempt.body.manifest = core.body.manifest) ∧
    attempt.body.planId = row.planId ∧ attempt.body.actionId = member.actionId ∧ attempt.body.role = member.role ∧
    attempt.body.planDigest = member.planDigest ∧ row.body.attempt = attempt.ref ∧ row.body.planId = row.planId ∧
    row.body.runId = row.runId ∧ row.body.actionId = member.actionId ∧ row.body.role = member.role := by
  rw [checkAttempt, seq_ok, refuse_ok, seq_ok, refuse_ok] at passed
  obtain ⟨first, second, -⟩ := passed
  simp only [not_or, not_not] at first second
  obtain ⟨-, plan, action, role, digest, -, attempted, plan', run, action', role', -⟩ := second
  exact ⟨first, plan, action, role, digest, attempted, plan', run, action', role'⟩

theorem checkRun_ok {row : WitnessRow} {attempt : AttemptRow} {core : IntentRow} {member : Member} {current : Bool}
    {run : TestRun} (passed : checkRun E db row attempt core member current = .ok run) :
    run ∈ db.runs ∧ run.id = row.runId ∧ run.executionPlanId = some row.planId ∧ run.testCaseId = member.testCaseId ∧
    run.authorizationRevisionId = some core.body.authorizationRevisionId ∧
    run.responseStatus = row.body.responseStatus ∧ E.requestDigest run.requestData = row.body.requestDigest ∧
    ∃ progress ∈ db.progress, progress.planId = row.planId ∧ progress.phase = .networkStarted ∧
      progress.fencingGeneration = attempt.body.fencingGeneration := by
  rw [checkRun, seq_ok] at passed
  obtain ⟨-, passed⟩ := passed
  obtain ⟨run', found, passed⟩ := bind_ok.1 passed
  rw [seq_ok, refuse_ok] at passed
  obtain ⟨same, passed⟩ := passed
  obtain ⟨progress, claimed, passed⟩ := bind_ok.1 passed
  rw [seq_ok, refuse_ok] at passed
  obtain ⟨held, done⟩ := passed
  obtain rfl : run' = run := Except.ok.inj done
  simp only [not_or, not_not] at same held
  obtain ⟨plan, case_, revision, -, status, request⟩ := same
  obtain ⟨run_mem, run_id⟩ := find?_mem (orRaise_ok.1 found)
  obtain ⟨progress_mem, progress_plan⟩ := find?_mem (orRaise_ok.1 claimed)
  exact ⟨run_mem, of_decide_eq_true run_id, plan, case_, revision, status, request, progress, progress_mem,
    of_decide_eq_true progress_plan, held⟩

theorem inOrder_ok {body : WitnessBody} (passed : inOrder E body = .ok ()) :
    body.send.clockDomain = body.complete.clockDomain ∧ body.complete.clockDomain = body.clock.clockDomain := by
  rw [inOrder, seq_ok, refuse_ok, not_not] at passed
  exact passed.1

theorem checkQualified_ok {row : WitnessRow} {run : TestRun} (passed : checkQualified E row run = .ok ())
    (qualified : row.body.temporalStatus = .qualified) :
    (row.body.send.clockDomain = row.body.complete.clockDomain ∧
      row.body.complete.clockDomain = row.body.clock.clockDomain) ∧
    (row.body.outcome ≠ .inconclusive → run.errorMessage = none ∧
      row.body.responseStatus = some (if row.body.outcome = .businessDenied then 403 else 200)) := by
  rw [checkQualified, if_pos qualified, seq_ok, refuse_ok] at passed
  refine ⟨inOrder_ok passed.1, fun conclusive => ?_⟩
  have status := fun bad => passed.2 ⟨conclusive, bad⟩
  exact ⟨not_not.1 fun bad => status (.inl bad), not_not.1 fun bad => status (.inr bad)⟩

/-- **What `witness` has compared.** -/
theorem witness_ok {ctx : Int} {reference : EvidenceRef} {current : Bool} {row : WitnessRow} {core : IntentRow}
    (passed : witness E db ctx reference current = .ok (row, core)) :
    row.ref = reference ∧ Nonempty (Provenance E db ctx row core) := by
  rw [witness] at passed
  obtain ⟨row', found, passed⟩ := bind_ok.1 passed
  rw [seq_ok, witnessIntegrity, refuse_ok, not_not] at passed
  obtain ⟨sound, passed⟩ := passed
  obtain ⟨attempt, attempted, passed⟩ := bind_ok.1 passed
  rw [seq_ok, attemptIntegrity, refuse_ok, not_not] at passed
  obtain ⟨sound', passed⟩ := passed
  obtain ⟨core', intended, passed⟩ := bind_ok.1 passed
  rw [seq_ok, refuse_ok, not_not] at passed
  obtain ⟨here, passed⟩ := passed
  obtain ⟨member, joined, passed⟩ := bind_ok.1 passed
  rw [seq_ok] at passed
  obtain ⟨matched, passed⟩ := passed
  obtain ⟨run, ran, passed⟩ := bind_ok.1 passed
  rw [seq_ok, seq_ok] at passed
  obtain ⟨qualified, -, done⟩ := passed
  obtain ⟨rfl, rfl⟩ := Prod.mk.inj (Except.ok.inj done)
  obtain ⟨row_mem, row_found⟩ := find?_mem (orRaise_ok.1 found)
  obtain ⟨-, row_id, row_digest⟩ := of_decide_eq_true row_found
  obtain ⟨attempt_mem, attempt_id⟩ := find?_mem (orRaise_ok.1 attempted)
  obtain ⟨core_mem, core_id⟩ := find?_mem (orRaise_ok.1 intended)
  obtain ⟨-, member_plan⟩ := find?_mem (orRaise_ok.1 joined)
  obtain ⟨⟨intent₁, plan₁, intent₂, link₁, intent₃, link₂, manifest⟩, plan₂, action₁, role₁, planDigest, attempt_ref, plan₃,
    run₁, action₂, role₂⟩ := checkAttempt_ok matched
  obtain ⟨run_mem, run_id, run_plan, run_case, run_revision, run_status, run_request, progress, progress_mem, claimed⟩ :=
    checkRun_ok ran
  have core_is : core'.id = row'.intentId := of_decide_eq_true core_id
  have attempt_is : attempt.id = row'.attemptId := of_decide_eq_true attempt_id
  refine ⟨?_, ⟨{
    attempt, member, run, progress, row_mem, attempt_mem, core_mem, run_mem, progress_mem
    joined := orRaise_ok.1 joined
    context := ⟨sound.1, sound'.1, here⟩
    digests := ⟨sound.2.2.2, sound'.2.2.2⟩
    plan := ⟨of_decide_eq_true member_plan, plan₁, plan₂, plan₃⟩
    intent := ⟨core_is.symm, intent₁.trans core_is.symm, intent₂, intent₃, link₁, link₂, manifest⟩
    attempted := ⟨attempt_is.symm, attempt_ref⟩
    action := ⟨action₂, action₁⟩
    role := ⟨role₂, role₁⟩
    planDigest
    ran := ⟨run_id, run₁, run_plan, run_case, run_revision, run_status, run_request⟩
    claimed
    domain := fun timely => (checkQualified_ok qualified timely).1
    status := fun timely => (checkQualified_ok qualified timely).2 }⟩⟩
  obtain ⟨id, digest⟩ := reference
  exact congrArg₂ EvidenceRef.mk row_id row_digest

/-! ## The steps of a call -/

/-- A witness of the plan of an intent with this role, qualified and approved now. -/
structure Consumed (E : Setting R) (db : Db R) (ctx : Int) (core : IntentRow) (reference : EvidenceRef) (role : Role)
    (row : WitnessRow) : Prop where
  witnessed : ∃ original, witness E db ctx reference true = .ok (row, original) ∧ original.id = core.id
  role : row.body.role = role
  approved : currentApproval db core row.planId = .ok ()
  qualified : row.body.temporalStatus = .qualified

theorem pairWitnesses_ok {ctx : Int} {core : IntentRow} {p : PairInput} {baseline : WitnessRow} {probe : Option WitnessRow}
    (passed : pairWitnesses E db ctx core p = .ok (baseline, probe)) :
    core.body.purpose = .business ∧ Consumed E db ctx core p.baseline .baseline baseline ∧
      ∀ w ∈ probe, ∃ reference, p.probe = some reference ∧ Consumed E db ctx core reference .probe w := by
  rw [pairWitnesses, seq_ok, refuse_ok, not_not] at passed
  obtain ⟨business, passed⟩ := passed
  obtain ⟨⟨row, bcore⟩, first, passed⟩ := bind_ok.1 passed
  obtain ⟨found, second, passed⟩ := bind_ok.1 passed
  rw [seq_ok, refuse_ok, seq_ok, seq_ok, seq_ok, refuse_ok] at passed
  obtain ⟨roles, approved, approved', timely, done⟩ := passed
  obtain ⟨rfl, rfl⟩ := Prod.mk.inj (Except.ok.inj done)
  simp only [not_or, not_not] at roles timely
  refine ⟨business, ⟨⟨bcore, first, roles.1⟩, roles.2.1, approved, timely.1⟩, fun w mem => ?_⟩
  obtain ⟨⟨w', pcore⟩, found_, rfl⟩ := Option.map_eq_some_iff.1 mem
  subst found_
  cases asked : p.probe with
  | none =>
      rw [asked] at second
      nomatch (Except.ok.inj second : (none : Option (WitnessRow × IntentRow)) = _)
  | some reference =>
      rw [asked, Option.mapM_some] at second
      obtain ⟨found', looked, same⟩ := bind_ok.1 second
      obtain rfl := Option.some.inj (Except.ok.inj same)
      have role : pcore.id = core.id ∧ w'.body.role = .probe := by
        refine not_not.1 fun bad => roles.2.2 ⟨_, rfl, ?_⟩
        by_cases same : pcore.id = core.id
        · exact .inr fun role => bad ⟨same, role⟩
        · exact .inl same
      refine ⟨reference, rfl, ⟨pcore, looked, role.1⟩, role.2, ?_, ?_⟩
      · exact approved'
      · exact not_not.1 fun bad => timely.2 ⟨_, rfl, bad⟩

/-- The newest intent under the reference. -/
theorem exactIntent_ok {project ctx : Int} {reference : Reference} {s t : Session} {row : IntentRow}
    (ran : exactIntent E db project ctx reference s = (.ok row, t)) :
    row ∈ db.intents ∧ row.contextId = ctx ∧ row.reference = reference ∧ Newest db row := by
  rw [exactIntent, Tx.lift_bind_ok] at ran
  obtain ⟨row', found, ran⟩ := ran
  rw [Tx.refuse_bind_ok, Tx.refuse_bind_ok, Tx.refuse_bind_ok, Tx.refuse_bind_ok] at ran
  obtain ⟨-, -, -, newest, ran⟩ := ran
  obtain ⟨_, _, -, ran⟩ := Tx.bind_ok.1 ran
  obtain ⟨_, _, -, ran⟩ := Tx.bind_ok.1 ran
  obtain ⟨_, _, -, ran⟩ := Tx.bind_ok.1 ran
  obtain ⟨_, _, -, done⟩ := Tx.bind_ok.1 ran
  obtain ⟨rfl, rfl⟩ := Tx.pure_ok.1 done
  obtain ⟨mem, same⟩ := find?_mem (orRaise_ok.1 found)
  obtain ⟨context, number, version, digest⟩ := of_decide_eq_true same
  refine ⟨mem, context, ?_, not_not.1 newest⟩
  rw [IntentRow.reference, number, version, digest]

theorem currentIntent_ok {project ctx : Int} {reference : Reference} {s t : Session} {core : IntentRow} {until_ : Int}
    (ran : currentIntent E db project ctx reference s = (.ok (core, until_), t)) :
    core ∈ db.intents ∧ core.contextId = ctx ∧ core.reference = reference ∧ Newest db core := by
  rw [currentIntent, Tx.lift_bind_ok] at ran
  obtain ⟨_, -, ran⟩ := ran
  obtain ⟨_, _, -, ran⟩ := Tx.bind_ok.1 ran
  obtain ⟨_, _, -, ran⟩ := Tx.bind_ok.1 ran
  obtain ⟨row, _, exact_, ran⟩ := Tx.bind_ok.1 ran
  obtain ⟨_, _, -, done⟩ := Tx.bind_ok.1 ran
  obtain ⟨same, -⟩ := Tx.pure_ok.1 done
  obtain rfl := (Prod.mk.inj same).1
  exact exactIntent_ok exact_

theorem Read.trans {s t u : Session} {at_ ns at' ns' : Int} (first : Read E s t at_ ns) (second : Read E t u at' ns') :
    Read E s u at' ns' :=
  ⟨second.last, fun b mem => second.holds b (first.keeps b mem), fun b mem => second.keeps b (first.keeps b mem)⟩

/-- A probe is sent after its baseline has completed, in the domain of the clock. -/
structure After (E : Setting R) (baseline probe : WitnessRow) : Prop where
  read : baseline.body.outcome = .objectRead
  domain : probe.body.clock.clockDomain = E.domain
  wall : ∃ complete sent, E.timestamp baseline.body.complete.written = some complete ∧
    E.timestamp probe.body.send.written = some sent ∧ complete ≤ sent
  ticks : ∃ complete sent, baseline.body.complete.monotonicNs = some complete ∧
    probe.body.send.monotonicNs = some sent ∧ complete ≤ sent

theorem checkProbe_some {baseline probe : WitnessRow} {end_ end' : Int} {s t : Session}
    (ran : checkProbe E baseline end_ (some probe) s = (.ok end', t)) :
    After E baseline probe ∧ ∃ at_ ns, Read E s t at_ ns := by
  rw [checkProbe] at ran
  obtain ⟨at_, u, marked, ran⟩ := Tx.bind_ok.1 ran
  rw [Tx.refuse_bind_ok, not_not, Tx.lift_bind_ok] at ran
  obtain ⟨read, sent, sentAt, ran⟩ := ran
  rw [Tx.lift_bind_ok] at ran
  obtain ⟨complete, completeAt, ran⟩ := ran
  rw [Tx.refuse_bind_ok, Tx.lift_bind_ok] at ran
  obtain ⟨wall, sentNs, sentTick, ran⟩ := ran
  rw [Tx.lift_bind_ok] at ran
  obtain ⟨completeNs, completeTick, ran⟩ := ran
  rw [Tx.refuse_bind_ok, Tx.lift_bind_ok] at ran
  obtain ⟨ticks, _, -, done⟩ := ran
  obtain ⟨-, rfl⟩ := Tx.pure_ok.1 done
  obtain ⟨ns, passed, ⟨start, mark, fresh⟩, -⟩ := checkMark_ok marked
  exact ⟨⟨read, fresh.domain_, ⟨complete, sent, instant_ok.1 completeAt, instant_ok.1 sentAt, not_lt.1 wall⟩,
    ⟨completeNs, sentNs, counted_ok.1 completeTick, counted_ok.1 sentTick, not_lt.1 ticks⟩⟩, at_, ns, passed⟩

theorem checkProbe_none {baseline : WitnessRow} {end_ end' : Int} {s t : Session}
    (ran : checkProbe E baseline end_ none s = (.ok end', t)) : baseline.body.outcome ≠ .objectRead ∧ s = t := by
  rw [checkProbe, Tx.refuse_bind_ok] at ran
  exact ⟨ran.1, (Tx.pure_ok.1 ran.2).2⟩

/-- The audit of a receipt. -/
def Db.audited (db : Db R) (ctx : Int) (code : Str) : Db R :=
  { db with audits := db.audits ++ [⟨db.sequence + 1, ctx, code⟩], sequence := db.sequence + 1 }

theorem receipt_ok {ctx : Int} {row : PairRow} {deadline : Int} {code : Str} {s t : Session} {value : Receipt} {db' : Db R}
    (ran : receipt E db ctx row deadline code s = (.ok (value, db'), t)) :
    value.reference = row.ref ∧ value.body = row.body ∧ db' = db.audited ctx code ∧ ∃ at_ ns, Read E s t at_ ns := by
  rw [receipt, Tx.refuse_bind_ok] at ran
  obtain ⟨-, ran⟩ := ran
  obtain ⟨_, u, first, ran⟩ := Tx.bind_ok.1 ran
  rw [Tx.lift_bind_ok] at ran
  obtain ⟨_, -, ran⟩ := ran
  obtain ⟨_, v, marked, done⟩ := Tx.bind_ok.1 ran
  obtain ⟨same, rfl⟩ := Tx.pure_ok.1 done
  obtain ⟨rfl, rfl⟩ := Prod.mk.inj same
  obtain ⟨_, passed⟩ := now_ok first
  obtain ⟨_, passed', -⟩ := checkMark_ok marked
  exact ⟨rfl, rfl, rfl, _, _, passed.trans passed'⟩

/-- What a new pair says. -/
structure Says (core : IntentRow) (baseline : WitnessRow) (probe : Option WitnessRow) (expected : Str)
    (pair : PairRow) : Prop where
  intentId : pair.intentId = core.id
  link : pair.body.linkDigest = core.linkDigest
  baselineRef : pair.body.baseline = baseline.ref
  probeRef : pair.body.probe = probe.map fun w => w.ref
  runs : pair.body.baselineRunId = baseline.runId ∧ pair.body.probeRunId = probe.map WitnessRow.runId
  expected_ : pair.body.expectedAccess = expected
  outcome : (pair.body.outcome, pair.body.reason) =
    pairOutcome expected baseline.body.outcome (probe.map fun w => w.body.outcome)

theorem insertPair_ok {ctx : Int} {core : IntentRow} {p : PairInput} {baseline : WitnessRow} {probe : Option WitnessRow}
    {expected : Str} {end_ : Int} {s t : Session} {value : Receipt} {db' : Db R}
    (ran : insertPair E db ctx core p baseline probe expected end_ s = (.ok (value, db'), t)) :
    ∃ pair, Says core baseline probe expected pair ∧ value.reference = pair.ref ∧ value.body = pair.body ∧
      db'.pairs = db.pairs ++ [pair] ∧ db'.intents = db.intents ∧ ∃ at_ ns, Read E s t at_ ns := by
  rw [insertPair, Tx.refuse_bind_ok] at ran
  obtain ⟨-, ran⟩ := ran
  obtain ⟨mark, u, taken, ran⟩ := Tx.bind_ok.1 ran
  rw [Tx.lift_bind_ok] at ran
  obtain ⟨recordedAt, -, ran⟩ := ran
  obtain ⟨reference, body, rfl, _, _, passed'⟩ := receipt_ok ran
  obtain ⟨_, _, passed, -⟩ := takeMark_ok taken
  exact ⟨_, ⟨rfl, rfl, rfl, rfl, ⟨rfl, rfl⟩, rfl, rfl⟩, reference, body, rfl, rfl, _, _, passed.trans passed'⟩

/-- What a call that returns has found. -/
structure Verified (E : Setting R) (db : Db R) (ctx : Int) (p : PairInput) (t : Session) (core : IntentRow)
    (baseline : WitnessRow) (probe : Option WitnessRow) (expected : Str) : Prop where
  core_mem : core ∈ db.intents
  context : core.contextId = ctx
  named : core.reference = p.intent
  newest : Newest db core
  business : core.body.purpose = .business
  first : Consumed E db ctx core p.baseline .baseline baseline
  second : ∀ w ∈ probe, ∃ reference, p.probe = some reference ∧ Consumed E db ctx core reference .probe w
  after : ∀ w ∈ probe, After E baseline w
  missing : probe = none → baseline.body.outcome ≠ .objectRead
  expected_ : secondExpected core = .ok expected
  /-- The last reading is within thirty seconds of the baseline, on both clocks. -/
  fresh : ∃ at_ ns end_, t.clock.last = some (at_, ns) ∧
    MarkHolds E.timestamp E.domain at_ ns ⟨baseline.body.complete, some 30, some end_⟩

/-- **What `verify_pair` does when it returns**: everything is checked, and the pair is the one
that is stored for the intent, or a new one. -/
theorem verifyPair_ok {project ctx : Int} {p : PairInput} {s t : Session} {value : Receipt} {db' : Db R}
    (ran : verifyPair E db project ctx p s = (.ok (value, db'), t)) :
    ∃ core baseline probe expected, Verified E db ctx p t core baseline probe expected ∧ db'.intents = db.intents ∧
      ∃ pair, value.reference = pair.ref ∧ value.body = pair.body ∧
        ((pair ∈ db.pairs ∧ pair.intentId = core.id ∧ db'.pairs = db.pairs ∧ pair.body.baseline = baseline.ref ∧
            pair.body.probe = probe.map fun w => w.ref) ∨
          ((∀ old ∈ db.pairs, old.intentId ≠ core.id) ∧ db'.pairs = db.pairs ++ [pair] ∧
            Says core baseline probe expected pair)) := by
  rw [verifyPair, Tx.lift_bind_ok] at ran
  obtain ⟨_, -, ran⟩ := ran
  obtain ⟨⟨core, until_⟩, s₁, current, ran⟩ := Tx.bind_ok.1 ran
  rw [Tx.lift_bind_ok] at ran
  obtain ⟨⟨baseline, probe⟩, witnesses, ran⟩ := ran
  rw [Tx.lift_bind_ok] at ran
  obtain ⟨complete, -, ran⟩ := ran
  rw [Tx.lift_bind_ok] at ran
  obtain ⟨limit, -, ran⟩ := ran
  obtain ⟨_, s₂, -, ran⟩ := Tx.bind_ok.1 ran
  obtain ⟨_, s₃, marked, ran⟩ := Tx.bind_ok.1 ran
  obtain ⟨end_, s₄, probed, ran⟩ := Tx.bind_ok.1 ran
  rw [Tx.lift_bind_ok] at ran
  obtain ⟨expected, expects, ran⟩ := ran
  obtain ⟨core_mem, context, named, newest⟩ := currentIntent_ok current
  obtain ⟨business, first, second⟩ := pairWitnesses_ok witnesses
  obtain ⟨_, -, -, watched⟩ := checkMark_ok marked
  -- the deadline of the baseline is watched from here to the end
  have kept : (⟨baseline.body.complete, some 30, some (min until_ limit)⟩ : Boundary) ∈ s₄.clock.boundaries.keys ∧
      (∀ w ∈ probe, After E baseline w) ∧ (probe = none → baseline.body.outcome ≠ .objectRead) := by
    have here := watched (.inl (Option.some_ne_none _))
    cases probe with
    | none =>
        obtain ⟨unread, rfl⟩ := checkProbe_none probed
        exact ⟨here, fun _ mem => (nomatch mem), fun _ => unread⟩
    | some probe =>
        obtain ⟨after, _, _, passed⟩ := checkProbe_some probed
        refine ⟨passed.keeps _ here, fun w mem => ?_, fun absent => nomatch absent⟩
        obtain rfl := Option.some.inj mem
        exact after
  obtain ⟨kept, after, missing⟩ := kept
  have verified {at_ ns : Int} (passed : Read E s₄ t at_ ns) : Verified E db ctx p t core baseline probe expected :=
    ⟨core_mem, context, named, newest, business, first, second, after, missing, expects,
      at_, ns, min until_ limit, passed.last, passed.holds _ kept⟩
  cases stored : db.pairs.find? fun pair => pair.intentId = core.id with
  | some previous =>
      rw [stored] at ran
      dsimp only at ran
      rw [Tx.lift_bind_ok] at ran
      obtain ⟨_, -, ran⟩ := ran
      rw [Tx.refuse_bind_ok, not_or, not_not, not_not] at ran
      obtain ⟨⟨sameBaseline, sameProbe⟩, ran⟩ := ran
      obtain ⟨reference, body, rfl, _, _, passed⟩ := receipt_ok ran
      obtain ⟨mem, same⟩ := find?_mem stored
      exact ⟨core, baseline, probe, expected, verified passed, rfl, previous, reference, body,
        .inl ⟨mem, of_decide_eq_true same, rfl, sameBaseline, sameProbe⟩⟩
  | none =>
      rw [stored] at ran
      obtain ⟨pair, made, reference, body, pairs, intents, _, _, passed⟩ := insertPair_ok ran
      have fresh : ∀ old ∈ db.pairs, old.intentId ≠ core.id := by
        intro old mem same
        exact List.find?_eq_none.1 stored old mem (decide_eq_true same)
      exact ⟨core, baseline, probe, expected, verified passed, intents, pair, reference, body, .inr ⟨fresh, pairs, made⟩⟩

end

end ApiSecurityPlatform.Research.PairVerification
