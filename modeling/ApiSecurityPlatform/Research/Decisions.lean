/-
# Research.Decisions -- budget decisions and exact approvals

`decide_budget` of `research_intent` and `approve` of `research_verification`: two
append-only logs of approvals and revocations.  A manifest is known by its context, number
and version, and the approval records of a plan are kept in the order of their ids.

A call holds the context lock, so it is one step; the current manifest or intent, the plan
and the clock are what the other domains answer.
-/
import ApiSecurityPlatform.Theory.Fallible
import ApiSecurityPlatform.Theory.Table
import ApiSecurityPlatform.Theory.Transaction
import ApiSecurityPlatform.Theory.Transition
import ApiSecurityPlatform.Python.Text
import Mathlib.Algebra.GroupWithZero.Nat
import Mathlib.Data.List.Sort
import Mathlib.Logic.Function.Basic

namespace ApiSecurityPlatform.Research.Decisions

open ApiSecurityPlatform.Python ApiSecurityPlatform.Theory

set_option autoImplicit false

/-- Microseconds. -/
abbrev Time := Int

def maxDecisions : Nat := 16
def maxAudit : Nat := 4096

/-- `IntentError`, by its code. -/
inductive IntentError where
  | unavailable
  | invalid
  | budgetConflict
  | clockInvalid
  | storageLimit
  | planMismatch
  | approvalConflict
  | expired
deriving DecidableEq, Repr

structure Reference where
  number : Int
  version : Nat
  digest : Str
deriving DecidableEq

structure SyntheticReference where
  fixtureId : Nat
  version : Nat
deriving DecidableEq

inductive Decision where
  | approved
  | revoked
deriving DecidableEq, Repr

def require {α : Type} (found : Option α) : Except IntentError α := found.elim (.error .unavailable) .ok

/-- A call under the lifecycle guard, which rolls back when its deadline has passed; a payload
the schema refuses does nothing. -/
def operation {σ α : Type} (valid locked guarded : Bool) (body : Tx IntentError σ α) : Tx IntentError σ α :=
  Tx.savepoint do
    Tx.refuse (¬ valid) .invalid
    Tx.refuse (¬ locked) .unavailable
    let result ← Tx.savepoint body
    Tx.refuse (¬ guarded) .unavailable
    return result

/-! ## Budget decisions -/

structure ManifestKey where
  contextId : Int
  number : Int
  version : Nat
deriving DecidableEq

/-- A row of `research_intent_budget_decisions`. -/
structure BudgetDecision where
  sequence : Nat
  decision : Decision
  evidence : SyntheticReference
  recordedAt : Time
deriving DecidableEq

structure Budgets where
  decisions : ManifestKey → List BudgetDecision
  audits : Int → Nat

def Budgets.append (db : Budgets) (key : ManifestKey) (event : BudgetDecision) : Budgets :=
  { db with decisions := Function.update db.decisions key (db.decisions key ++ [event]) }

structure BudgetInput where
  manifest : Reference
  expectedSequence : Nat
  decision : Decision
  evidence : SyntheticReference

/-- What `decide_budget` reads of the other domains; `none` and `false` are exceptions. -/
structure BudgetWorld where
  locked : Bool
  /-- `_manifest`: the exact latest version, in its window, with an unchanged snapshot. -/
  manifest : Reference → Bool
  time : Option Time
  /-- The receipt is encoded, and the last clock reading is in its window. -/
  receipt : Bool
  guarded : Bool

def budgetKey (contextId : Int) (manifest : Reference) : ManifestKey := ⟨contextId, manifest.number, manifest.version⟩

/-- The decisions of a manifest in their order, at most one more than the limit. -/
def readDecisions (log : List BudgetDecision) : List BudgetDecision :=
  (log.insertionSort fun a b => a.sequence ≤ b.sequence).take (maxDecisions + 1)

/-- The savepoint of `decide_budget`. -/
def decideBudgetBody (W : BudgetWorld) (contextId : Int) (p : BudgetInput) : Tx IntentError Budgets BudgetDecision := do
  Tx.refuse (¬ W.manifest p.manifest) .unavailable
  let db ← Tx.get
  let events := readDecisions (db.decisions (budgetKey contextId p.manifest))
  Tx.refuse (events.length ≠ p.expectedSequence ∨ maxDecisions ≤ events.length) .budgetConflict
  let now ← Tx.lift (require W.time)
  Tx.refuse (events.getLast?.any (now < ·.recordedAt)) .clockInvalid
  let event : BudgetDecision := ⟨events.length + 1, p.decision, p.evidence, now⟩
  Tx.modify (·.append (budgetKey contextId p.manifest) event)
  Tx.refuse (maxAudit ≤ db.audits contextId) .storageLimit
  Tx.modify fun db => { db with audits := Function.update db.audits contextId (db.audits contextId + 1) }
  Tx.refuse (¬ W.receipt) .expired
  return event

/-- `decide_budget`. -/
def decideBudget (W : BudgetWorld) (contextId : Int) (p : BudgetInput) : Tx IntentError Budgets BudgetDecision :=
  operation (p.expectedSequence ≤ 15) W.locked W.guarded (decideBudgetBody W contextId p)

/-- The log under any calls, each with its own answers of the other domains. -/
def budgets : System Budgets (Int × BudgetInput × BudgetWorld) where
  init db := db = ⟨fun _ => [], fun _ => 0⟩
  step db call db' := (decideBudget call.2.2 call.1 call.2.1 db).2 = db'

/-! ## Exact approvals -/

/-- A row of `execution_plan_approval_records`. -/
structure ApprovalRecord where
  digestVersion : Str
  planDigest : Str
  decision : Decision
deriving DecidableEq

structure Approvals where
  records : Int → List ApprovalRecord
  audits : Int → Nat

def Approvals.append (db : Approvals) (planId : Int) (record : ApprovalRecord) : Approvals :=
  { db with records := Function.update db.records planId (db.records planId ++ [record]) }

structure ApprovalInput where
  intent : Reference
  planId : Int
  expectedSequence : Nat
  decision : Decision

/-- The rows and the link of `current_intent`. -/
structure IntentView where
  members : List Int
  linked : List Int

structure Plan where
  digestVersion : Str
  planDigest : Str

/-- What `approve` reads of the other domains; `none` and `false` are exceptions. -/
structure ApprovalWorld where
  locked : Bool
  intent : Reference → Option IntentView
  /-- `validate_persisted_plan_integrity`. -/
  plan : Int → Option Plan
  /-- `clock.mark()`. -/
  marked : Bool
  receipt : Bool
  guarded : Bool

/-- `_latest_exact_decision`. -/
def latestExactDecision (records : List ApprovalRecord) (plan : Plan) : Option ApprovalRecord :=
  (records.filter fun r => r.digestVersion = plan.digestVersion ∧ r.planDigest = plan.planDigest).getLast?

/-- The records of all linked plans; a plan is counted once. -/
def totalRecords (db : Approvals) (linked : List Int) : Nat :=
  (linked.eraseDups.map fun planId => (db.records planId).length).sum

/-- The savepoint of `approve`. -/
def approveBody (W : ApprovalWorld) (contextId : Int) (p : ApprovalInput) : Tx IntentError Approvals ApprovalRecord := do
  let core ← Tx.lift (require (W.intent p.intent))
  Tx.refuse (p.planId ∉ core.members) .planMismatch
  let plan ← Tx.lift (require (W.plan p.planId))
  let db ← Tx.get
  let count := (db.records p.planId).length
  Tx.refuse (count ≠ p.expectedSequence ∨ 16 ≤ count ∨ 16 ≤ totalRecords db core.linked) .approvalConflict
  let event : ApprovalRecord := ⟨plan.digestVersion, plan.planDigest, p.decision⟩
  Tx.modify (·.append p.planId event)
  Tx.refuse (¬ W.marked) .unavailable
  Tx.refuse (maxAudit ≤ db.audits contextId) .storageLimit
  Tx.modify fun db => { db with audits := Function.update db.audits contextId (db.audits contextId + 1) }
  Tx.refuse (¬ W.receipt) .expired
  return event

/-- `approve`. -/
def approve (W : ApprovalWorld) (contextId : Int) (p : ApprovalInput) : Tx IntentError Approvals ApprovalRecord :=
  operation (p.expectedSequence ≤ 15) W.locked W.guarded (approveBody W contextId p)

def approvals : System Approvals (Int × ApprovalInput × ApprovalWorld) where
  init db := db = ⟨fun _ => [], fun _ => 0⟩
  step db call db' := (approve call.2.2 call.1 call.2.1 db).2 = db'

/-! ## Calls that succeed -/

section Success

variable {σ α : Type} {valid locked guarded : Bool} {body : Tx IntentError σ α} {s u : σ} {a : α}

theorem operation_ok : operation valid locked guarded body s = (.ok a, u) ↔
    valid = true ∧ locked = true ∧ guarded = true ∧ body s = (.ok a, u) := by
  unfold operation
  rw [Tx.savepoint_ok, Tx.refuse_bind_ok, Tx.refuse_bind_ok, Tx.bind_ok, not_not, not_not]
  refine and_congr_right fun _ => and_congr_right fun _ => ?_
  constructor
  · rintro ⟨b, t, ran, rest⟩
    obtain ⟨passed, rest⟩ := Tx.refuse_bind_ok.1 rest
    obtain ⟨rfl, rfl⟩ := Tx.pure_ok.1 rest
    exact ⟨not_not.1 passed, Tx.savepoint_ok.1 ran⟩
  · rintro ⟨passed, ran⟩
    refine ⟨a, u, Tx.savepoint_ok.2 ran, Tx.refuse_bind_ok.2 ⟨not_not.2 passed, ?_⟩⟩
    exact Tx.pure_ok.2 ⟨rfl, rfl⟩

end Success

theorem require_ok {α : Type} {found : Option α} {a : α} : require found = .ok a ↔ found = some a := by
  cases found <;> simp [require]

/-! ## The log of a manifest -/

section Budgets

variable {W : BudgetWorld} {contextId : Int} {p : BudgetInput} {db db' : Budgets} {row : BudgetDecision}

/-- What `decide_budget` needs, and what it does. -/
theorem decideBudget_ok : decideBudget W contextId p db = (.ok row, db') ↔
    (p.expectedSequence ≤ 15 ∧ W.locked = true ∧ W.guarded = true ∧ W.manifest p.manifest = true ∧ W.receipt = true ∧
      (readDecisions (db.decisions (budgetKey contextId p.manifest))).length = p.expectedSequence ∧
      db.audits contextId < maxAudit ∧
      ∃ now, W.time = some now ∧
        (∀ last, (readDecisions (db.decisions (budgetKey contextId p.manifest))).getLast? = some last →
          last.recordedAt ≤ now) ∧
        row = ⟨p.expectedSequence + 1, p.decision, p.evidence, now⟩) ∧
      db' = { db.append (budgetKey contextId p.manifest) row with
        audits := Function.update db.audits contextId (db.audits contextId + 1) } := by
  unfold decideBudget
  rw [operation_ok, decide_eq_true_eq]
  unfold decideBudgetBody
  simp only [Tx.refuse_bind_ok, Tx.get_bind_ok, Tx.lift_bind_ok, Tx.modify_bind_ok, Tx.pure_ok, require_ok, not_not,
    not_or, Nat.not_le]
  constructor
  · rintro ⟨valid, locked, guarded, current, ⟨expected, room⟩, now, time, late, audits, receipt, rfl, rfl⟩
    rw [expected] at room ⊢
    refine ⟨⟨valid, locked, guarded, current, receipt, rfl, audits, now, time, fun last found => ?_, rfl⟩, rfl⟩
    by_contra later
    exact late (by simpa [found] using later)
  · rintro ⟨⟨valid, locked, guarded, current, receipt, expected, audits, now, time, late, rfl⟩, rfl⟩
    refine ⟨valid, locked, guarded, current, ⟨expected, ?_⟩, now, time, ?_, audits, receipt, ?_, ?_⟩
    · rw [expected]
      exact Nat.lt_of_le_of_lt valid (by decide)
    · intro early
      obtain ⟨last, found, before⟩ := (Option.any_eq_true _ _).1 early
      exact absurd (late last found) (by simpa using before)
    · rw [expected]
    · rw [expected]
      rfl

/-- Every log is numbered from one, no longer than the limit, and in the order of its times. -/
structure Logged (log : List BudgetDecision) : Prop where
  numbered : Numbered BudgetDecision.sequence log
  few : log.length ≤ maxDecisions
  times : log.Pairwise fun a b => a.recordedAt ≤ b.recordedAt

theorem Logged.read {log : List BudgetDecision} (logged : Logged log) : readDecisions log = log := by
  unfold readDecisions
  rw [logged.numbered.insertionSort]
  exact List.take_of_length_le (Nat.le_succ_of_le logged.few)

theorem Logged.append {log : List BudgetDecision} (logged : Logged log) (room : log.length < maxDecisions)
    (number : row.sequence = log.length + 1)
    (late : ∀ last, log.getLast? = some last → last.recordedAt ≤ row.recordedAt) : Logged (log ++ [row]) where
  numbered := logged.numbered.append (by simp [number])
  few := by
    rw [List.length_append, List.length_singleton]
    exact room
  times := by
    refine List.pairwise_append.2 ⟨logged.times, List.pairwise_singleton _ _, fun a member b only => ?_⟩
    rw [List.mem_singleton.1 only]
    rcases List.eq_nil_or_concat log with none_ | ⟨front, last, split⟩
    · rw [none_] at member
      nomatch member
    · have times := logged.times
      rw [split, List.concat_eq_append] at times member
      have final_ := late last (by rw [split, List.concat_eq_append, List.getLast?_concat])
      rcases List.mem_append.1 member with before | same
      · exact le_trans ((List.pairwise_append.1 times).2.2 a before last (List.mem_singleton_self _)) final_
      · rw [List.mem_singleton.1 same]
        exact final_

theorem budgets_logged {db₀ : Budgets} {trace : List (Int × BudgetInput × BudgetWorld)} (start : budgets.init db₀)
    (run : budgets.Run db₀ trace db) : ∀ key, Logged (db.decisions key) := by
  induction run with
  | refl =>
      obtain rfl : _ = (⟨fun _ => [], fun _ => 0⟩ : Budgets) := start
      exact fun key => ⟨rfl, Nat.zero_le _, .nil⟩
  | @snoc t u _ call _ last ih =>
      intro key
      have same : (decideBudget call.2.2 call.1 call.2.1 t).2 = u := last
      match result : decideBudget call.2.2 call.1 call.2.1 t with
      | (.error e, after) =>
          rw [result] at same
          obtain rfl : after = u := same
          obtain rfl := Tx.rejects_savepoint _ t e _ result
          exact ih key
      | (.ok row, after) =>
          rw [result] at same
          obtain rfl : after = u := same
          obtain ⟨⟨valid, -, -, -, -, expected, -, now, -, late, rfl⟩, rfl⟩ := decideBudget_ok.1 result
          rw [(ih _).read] at expected late
          by_cases here : key = budgetKey call.1 call.2.1.manifest
          · subst here
            simp only [Budgets.append, Function.update_self]
            refine (ih _).append ?_ (by rw [expected]) late
            rw [expected]
            exact Nat.lt_of_le_of_lt valid (by decide)
          · simp only [Budgets.append, Function.update_of_ne here]
            exact ih key

/-- The answers of the other domains under which `decide_budget` can succeed. -/
structure BudgetWorld.Ready (W : BudgetWorld) (manifest : Reference) (now : Time) : Prop where
  locked : W.locked = true
  current : W.manifest manifest = true
  time : W.time = some now
  receipt : W.receipt = true
  guarded : W.guarded = true

/-- **A revocation succeeds while the log has room.** -/
theorem decideBudget_revokes {db₀ : Budgets} {trace : List (Int × BudgetInput × BudgetWorld)}
    (start : budgets.init db₀) (run : budgets.Run db₀ trace db) {manifest : Reference} {now : Time}
    (ready : W.Ready manifest now) (audits : db.audits contextId < maxAudit) (evidence : SyntheticReference)
    (room : (db.decisions (budgetKey contextId manifest)).length < maxDecisions)
    (late : ∀ e ∈ db.decisions (budgetKey contextId manifest), e.recordedAt ≤ now) :
    ∃ row db', decideBudget W contextId
        ⟨manifest, (db.decisions (budgetKey contextId manifest)).length, .revoked, evidence⟩ db = (.ok row, db') ∧
      db'.decisions (budgetKey contextId manifest) = db.decisions (budgetKey contextId manifest) ++ [row] ∧
      row.decision = .revoked := by
  have logged := budgets_logged start run (budgetKey contextId manifest)
  refine ⟨_, _, decideBudget_ok.2 ⟨⟨Nat.le_of_lt_succ room, ready.locked, ready.guarded, ready.current, ready.receipt,
    ?_, audits, now, ready.time, fun last found => ?_, rfl⟩, rfl⟩, ?_, rfl⟩
  · rw [logged.read]
  · rw [logged.read] at found
    exact late last (List.mem_of_getLast? found)
  · simp only [Budgets.append, Function.update_self]

end Budgets

/-! ## The records of a plan -/

section Approvals

variable {W : ApprovalWorld} {contextId : Int} {p : ApprovalInput} {db db' : Approvals} {record : ApprovalRecord}

/-- What `approve` needs, and what it does. -/
theorem approve_ok : approve W contextId p db = (.ok record, db') ↔
    (p.expectedSequence ≤ 15 ∧ W.locked = true ∧ W.guarded = true ∧ W.marked = true ∧ W.receipt = true ∧
      (db.records p.planId).length = p.expectedSequence ∧ db.audits contextId < maxAudit ∧
      (∃ core, W.intent p.intent = some core ∧ p.planId ∈ core.members ∧ totalRecords db core.linked < 16) ∧
      ∃ plan, W.plan p.planId = some plan ∧ record = ⟨plan.digestVersion, plan.planDigest, p.decision⟩) ∧
      db' = { db.append p.planId record with
        audits := Function.update db.audits contextId (db.audits contextId + 1) } := by
  unfold approve
  rw [operation_ok, decide_eq_true_eq]
  unfold approveBody
  simp only [Tx.refuse_bind_ok, Tx.get_bind_ok, Tx.lift_bind_ok, Tx.modify_bind_ok, Tx.pure_ok, require_ok, not_not,
    not_or, Nat.not_le]
  constructor
  · rintro ⟨valid, locked, guarded, core, current, member, plan, intact, ⟨expected, -, total⟩, marked, audits, receipt,
      rfl, rfl⟩
    exact ⟨⟨valid, locked, guarded, marked, receipt, expected, audits, ⟨core, current, member, total⟩, plan, intact,
      rfl⟩, rfl⟩
  · rintro ⟨⟨valid, locked, guarded, marked, receipt, expected, audits, ⟨core, current, member, total⟩, plan, intact,
      rfl⟩, rfl⟩
    refine ⟨valid, locked, guarded, core, current, member, plan, intact, ⟨expected, ?_, total⟩, marked, audits, receipt,
      rfl, rfl⟩
    rw [expected]
    exact Nat.lt_of_le_of_lt valid (by decide)

/-- The answers of the other domains under which `approve` can succeed. -/
structure ApprovalWorld.Ready (W : ApprovalWorld) (intent : Reference) (core : IntentView) (planId : Int) (plan : Plan) :
    Prop where
  locked : W.locked = true
  intent : W.intent intent = some core
  member : planId ∈ core.members
  plan : W.plan planId = some plan
  marked : W.marked = true
  receipt : W.receipt = true
  guarded : W.guarded = true

theorem latestExactDecision_append (records : List ApprovalRecord) (plan : Plan) (decision : Decision) :
    latestExactDecision (records ++ [⟨plan.digestVersion, plan.planDigest, decision⟩]) plan =
      some ⟨plan.digestVersion, plan.planDigest, decision⟩ := by
  unfold latestExactDecision
  rw [List.filter_append]
  simp

/-- **A revocation succeeds while the records have room.** -/
theorem approve_revokes {intent : Reference} {core : IntentView} {planId : Int} {plan : Plan}
    (ready : W.Ready intent core planId plan) (audits : db.audits contextId < maxAudit)
    (room : (db.records planId).length < 16) (total : totalRecords db core.linked < 16) :
    ∃ record db', approve W contextId ⟨intent, planId, (db.records planId).length, .revoked⟩ db = (.ok record, db') ∧
      (latestExactDecision (db'.records planId) plan).map ApprovalRecord.decision = some .revoked := by
  refine ⟨_, _, approve_ok.2 ⟨⟨Nat.le_of_lt_succ room, ready.locked, ready.guarded, ready.marked, ready.receipt, rfl, audits,
    ⟨core, ready.intent, ready.member, total⟩, plan, ready.plan, rfl⟩, rfl⟩, ?_⟩
  simp only [Approvals.append, Function.update_self, latestExactDecision_append, Option.map_some]

end Approvals

end ApiSecurityPlatform.Research.Decisions
