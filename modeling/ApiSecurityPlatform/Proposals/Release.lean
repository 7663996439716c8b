/-
# Proposals.Release -- what a finished call may show

`execute_fake` runs the child, reads its outcome and has `complete_v1` finish the accounts.
Anything on the way may fail: the script of a call (`Call`) says what every step comes to, and
each store operation may also raise before it commits or after (`Fault`).

A display or a refusal that still stands at the end has the settlement of the call, the
observation it names and the last qualification behind it (`executeFake_released`); what is
persisted before is suppressed, however the run ends (`executeFake_grows`).
-/
import ApiSecurityPlatform.Accounting.Contradiction
import ApiSecurityPlatform.Proposals.ChildOutcome
import ApiSecurityPlatform.Theory.Transaction

namespace ApiSecurityPlatform.Proposals

open ApiSecurityPlatform.Theory
open ApiSecurityPlatform.Python
open ApiSecurityPlatform.Ports (Decimals Usage PortCode)
open ApiSecurityPlatform.Accounting (Db Hashes Id Uuids Observation Observer UsageView KnownUsage ReservationKey RunContext
  Disposition Settlement Reconcile latestSettlement)

set_option autoImplicit false

/-! ## Usage -/

/-- The usage a view is about. -/
def usageFrom : UsageView → Usage
  | .known u => ⟨.known, some u.inputTokens, some u.outputTokens, some u.cachedInputTokens, some u.cacheWriteTokens,
      u.reasoningTokens.map Int.ofNat, some (u.inputTokens + u.outputTokens : Nat)⟩
  | .unknown => { state := .unknown }
  | .invalid => { state := .invalid }

/-- What the constructor of a known usage asks of its numbers. -/
def Counted (i o c w : Int) (r : Option Int) (total : Int) : Prop :=
  (0 ≤ i ∧ 0 ≤ o ∧ 0 ≤ c ∧ 0 ≤ w ∧ c + w ≤ i) ∧ (i + o = total ∧ total ≤ Accounting.maxN) ∧ ∀ n ∈ r, 0 ≤ n ∧ n ≤ o

instance (i o c w : Int) (r : Option Int) (total : Int) : Decidable (Counted i o c w r total) :=
  inferInstanceAs (Decidable (_ ∧ _))

section

variable {i o c w : Int} {r : Option Int} {total : Int} (fits : Counted i o c w r total)

include fits

theorem Counted.cached_le : c.toNat + w.toNat ≤ i.toNat := by
  have := fits.1
  omega

theorem Counted.total_le : ((i.toNat + o.toNat : Nat) : Int) ≤ Accounting.maxN := by
  obtain ⟨ranges, ⟨sum, bound⟩, -⟩ := fits
  have whole : ((i.toNat + o.toNat : Nat) : Int) = total := by omega
  rwa [whole]

theorem Counted.reasoning_le (n : Nat) (mem : n ∈ r.map Int.toNat) : n ≤ o.toNat := by
  obtain ⟨m, here, rfl⟩ := Option.map_eq_some_iff.1 mem
  have := fits.2.2 m here
  omega

end

/-- `usage_view`, as the records of the accounting have it. -/
def viewOf : Usage → Option UsageView
  | ⟨.known, some i, some o, some c, some w, r, some total⟩ =>
      if fits : Counted i o c w r total then
        some (.known ⟨i.toNat, o.toNat, c.toNat, w.toNat, r.map Int.toNat, fits.cached_le, fits.total_le, fits.reasoning_le⟩)
      else none
  | ⟨.unknown, none, none, none, none, none, none⟩ => some .unknown
  | ⟨.invalid, none, none, none, none, none, none⟩ => some .invalid
  | _ => none

theorem usageFrom_viewOf {u : Usage} {v : UsageView} (viewed : viewOf u = some v) : usageFrom v = u := by
  unfold viewOf at viewed
  split at viewed
  · split at viewed
    · next i o c w r total fits =>
      obtain rfl := Option.some.inj viewed
      obtain ⟨ranges, ⟨sum, -⟩, reasoning⟩ := fits
      have back (n : Int) (positive : 0 ≤ n) : (n.toNat : Int) = n := Int.toNat_of_nonneg positive
      have whole : ((i.toNat + o.toNat : Nat) : Int) = total := by omega
      have r_ : (r.map Int.toNat).map Int.ofNat = r := by
        cases r with
        | none => rfl
        | some n => exact congrArg some (back n (reasoning n rfl).1)
      simp only [usageFrom, whole, r_, back i ranges.1, back o ranges.2.1, back c ranges.2.2.1, back w ranges.2.2.2.1]
    · cases viewed
  · obtain rfl := Option.some.inj viewed
    rfl
  · obtain rfl := Option.some.inj viewed
    rfl
  · cases viewed

/-- Whatever `project_usage` makes has a view. -/
theorem viewOf_sound {u : Usage} (sound : u.Sound) : ∃ v, viewOf u = some v := by
  cases sound with
  | @known i o c w r total ranges reasoning cached sum =>
      have range (n : Int) (mem : n ∈ [i, o, c, w, total]) := ranges n mem
      simp only [List.mem_cons, List.not_mem_nil, or_false, forall_eq_or_imp, forall_eq, Ports.inRange] at range
      have fits : Counted i o c w r total :=
        ⟨by omega, ⟨sum, range.2.2.2.2.2⟩, fun n mem => ⟨(reasoning n mem).1.1, (reasoning n mem).2⟩⟩
      rw [viewOf, dif_pos fits]
      exact ⟨_, rfl⟩
  | @none state other =>
      cases state with
      | known => exact absurd rfl other
      | unknown => exact ⟨_, rfl⟩
      | invalid => exact ⟨_, rfl⟩

/-- A view adds up. -/
theorem usageFrom_sound (v : UsageView) : (usageFrom v).Sound := by
  cases v with
  | known u =>
      have cached := u.cached_le
      have total := u.total_le
      unfold Accounting.maxN at total
      refine .known ?_ (fun n mem => ?_) (by omega) (by omega)
      · simp only [List.mem_cons, List.not_mem_nil, or_false, forall_eq_or_imp, forall_eq, Ports.inRange]
        omega
      · obtain ⟨r, some_, rfl⟩ := Option.map_eq_some_iff.1 mem
        have := u.reasoning_le r some_
        rw [Ports.inRange, Int.ofNat_eq_natCast]
        omega
  | unknown => exact .none (by decide)
  | invalid => exact .none (by decide)

/-! ## Exceptions -/

inductive Thrown where
  | port (code : PortCode)
  | rejected (code : Code)
  | other
  /-- A `BaseException` that is no `Exception`. -/
  | exit
deriving DecidableEq, Repr

/-- What a store operation raises. -/
def Thrown.ofStore : Accounting.PortCode → Thrown
  | .invalidRecord => .port .invalidRecord
  | .limitExceeded => .port .limitExceeded
  | .sourceUnavailable => .port .sourceUnavailable
  | .contextChanged => .port .contextChanged
  | .deadlineExceeded => .port .deadlineExceeded
  | .reservationUnavailable => .port .reservationUnavailable
  | .ownerLost => .port .ownerLost
  | .observerUnavailable => .port .observerUnavailable
  | .commitUnknown => .port .commitUnknown
  | .conflict => .port .conflict
  | .databaseError => .other

/-- `BRIDGE`. -/
def bridgeCode : PortCode → Code
  | .versionUnsupported => .versionUnsupported
  | .invalidRecord => .malformedOutput
  | .limitExceeded => .inputLimit
  | .sourceUnavailable => .sourceUnavailable
  | .contextChanged => .contextChanged
  | .cancelled => .cancelled
  | .deadlineExceeded => .providerTimeout
  | .authorityUnavailable => .configUnapproved
  | .reservationUnavailable => .budgetUnavailable
  | .ownerLost => .budgetUnavailable
  | .observerUnavailable => .auditUnavailable
  | .commitUnknown => .auditUnavailable
  | .conflict => .auditUnavailable

/-- `@bridge`. -/
def bridge {α : Type} : Except Thrown α → Except Thrown α
  | .error (.port code) => .error (.rejected (bridgeCode code))
  | answer => answer

/-! ## Completions -/

inductive DisplayState where
  | suppressed
  | eligibleNow
deriving DecidableEq, Repr

/-- The settlement a completion names. -/
inductive SettlementRef where
  | named (settlementId : Id)
  /-- Of a call that is not settled. -/
  | unresolved
deriving DecidableEq, Repr

def Disposition.ref : Disposition → SettlementRef
  | .settled record => .named record.settlementId
  | .unresolved .. => .unresolved

/-- The record `Completion`. -/
structure Completion where
  key : ReservationKey
  completionId : Id
  outcomeCode : Option Code
  delivery : Delivery
  usage : UsageView
  settlementRef : Option SettlementRef
  displayState : DisplayState
  evaluatedAt : Int
  expiresAt : Int
deriving DecidableEq

/-- What a run leaves a trace of. -/
inductive Step where
  | persisted (completion : Completion)
  /-- `current` at the stage `complete`, and the deadline after it. -/
  | requalified
deriving DecidableEq

structure World where
  db : Db
  /-- The column `record` of the completions. -/
  rows : List Completion
  trace : List Step

abbrev Run := Tx Thrown World

/-- How a store operation fails, beside its own checks. -/
inductive Fault where
  | none
  | before (thrown : Thrown)
  /-- What was written is committed, and its acknowledgement lost. -/
  | after (thrown : Thrown)

/-- One page of `reconcile`.  Where a step after the settlement raises, `observer.steady` says whether
`mark_unknown` has been committed before. -/
structure Page where
  uuid : Uuids
  observer : Observer
  fault : Fault

/-- A call with all the answers of one run. -/
structure Call where
  hashes : Hashes
  run : RunContext
  key : ReservationKey
  allowed : Finset (Str × Str)
  coreExpiresAt : Int
  /-- `child_projection` and the start of the server. -/
  started : Except Thrown Unit
  /-- What the server writes for the child. -/
  served : Db → Db
  child : Except Thrown Bytes
  serverClosed : Except Thrown Unit
  /-- `close`. -/
  streamClosed : Except Thrown Unit
  /-- The ids of `observer.events(key)`. -/
  events : Except Thrown (List Id)
  page : Nat → Page
  /-- `mark_unknown` and `current_settlement` in `reconcile`. -/
  unsettled : Fault
  current : Except Thrown Unit
  /-- The observer has the call closed, under full coverage. -/
  covered : Bool
  finished : Fault
  /-- `mark_unknown` after a failure. -/
  marked : Fault
  /-- `observer.observations`. -/
  observations : Id → Option Observation
  utcnow : Except Thrown Int
  completionId : Id
  digest : Completion → Id
  completionUuid : Uuids
  persisted : Fault
  /-- `_current_snapshot` and `read_authority_v1`. -/
  authority : Except Thrown Unit
  checked : Except Thrown Int

namespace World

/-- A transaction of the store that commits `x`. -/
def transact (x : World → Except Accounting.PortCode World) (fault : Fault) : Run Unit := fun w =>
  match fault, x w with
  | .before thrown, _ => (.error thrown, w)
  | _, .error code => (.error (.ofStore code), w)
  | .after thrown, .ok after => (.error thrown, after)
  | .none, .ok after => (.ok (), after)

def write (x : Db → Except Accounting.PortCode Db) (fault : Fault) : Run Unit :=
  transact (fun w => (x w.db).map fun db => { w with db := db }) fault

end World

def note (step : Step) : Run Unit := Tx.modify fun w => { w with trace := w.trace ++ [step] }

namespace Call

variable (R : Call)

/-! ## `reconcile` -/

def markUnknown (fault : Fault) : Run Unit := World.write (Accounting.markUnknown R.hashes (.run R.run) R.key) fault

def currentSettlement : Run Disposition := fun w =>
  match R.current with
  | .error thrown => (.error thrown, w)
  | .ok () => ((Accounting.currentSettlement R.hashes w.db R.key).mapError Thrown.ofStore, w)

/-- `store.reconcile_v1`, of one page of events. -/
def reconcileV1 (i : Nat) (ids : List Id) : Run Disposition := fun w =>
  let page := R.page i
  let answer := Reconcile.reconcileV1 ⟨R.hashes, page.uuid, .run R.run, R.key, page.observer, none⟩ ids w.db
  match page.fault with
  | .before thrown => (.error thrown, w)
  | .after thrown => (.error thrown, { w with db := answer.1 })
  | .none => (answer.2.mapError Thrown.ofStore, { w with db := answer.1 })

def reconcilePages : Nat → Option Disposition → List (List Id) → Run (Option Disposition)
  | _, result, [] => pure result
  | i, _, ids :: rest => do
      match ← Tx.attempt (R.reconcileV1 i ids) with
      | .ok disposition => reconcilePages (i + 1) (some disposition) rest
      | .error (.port .observerUnavailable) => do
          R.markUnknown R.unsettled
          let disposition ← R.currentSettlement
          return some disposition
      | .error thrown => Tx.raise thrown

def reconcile : Run (Option Disposition) := do
  let events ← Tx.lift R.events
  let result ← R.reconcilePages 0 none (events.toChunks 8)
  Tx.when (events = []) (R.markUnknown R.unsettled)
  return result

/-! ## `complete_v1` -/

/-- The body of the first `try`, with the settlement it has come to. -/
def settle : Run (Option Disposition × Except Thrown Unit) := do
  match ← Tx.attempt (do Tx.lift R.streamClosed; R.reconcile) with
  | .error thrown => return (none, .error thrown)
  | .ok settlement => do
      let finished ← Tx.attempt (World.write (Accounting.finish R.hashes (.run R.run) R.key R.covered) R.finished)
      return (settlement, finished)

/-- `usage_view`, which may raise. -/
def view (usage : Usage) : Except Thrown UsageView :=
  match viewOf usage with
  | some view => .ok view
  | none => .error (.port .invalidRecord)

/-- A known settlement whose observation has the usage of the outcome. -/
def evidenced (settlement : Option Disposition) (usage : Usage) : Except Thrown Bool :=
  match settlement with
  | some (.settled record) =>
      match record.state, R.observations record.finalEventId with
      | .known, some observed => (view usage).map fun view => decide (observed.usage = view)
      | _, _ => .ok false
  | _ => .ok false

/-- `replace(outcome, code=code, display=(), refusal_code=None)`. -/
def withhold (outcome : ProposalOutcome) (code : Option Code) : ProposalOutcome :=
  { outcome with code := code, display := [], refusalCode := none }

/-- Something in the outcome is for the eyes of a reviewer. -/
def Shows (outcome : ProposalOutcome) : Prop := outcome.display ≠ [] ∨ outcome.refusalCode ≠ none

instance (outcome : ProposalOutcome) : Decidable (Shows outcome) := inferInstanceAs (Decidable (_ ∨ _))

/-- `store.persist_completion`. -/
def persistCompletion (completion : Completion) : Run Unit := do
  Tx.refuse (completion.displayState ≠ .suppressed) (.port .invalidRecord)
  World.transact (fun w => do
    let known := w.db.completions.any fun c => c.digest = R.digest completion
    let db ← Accounting.persistCompletion R.hashes (.run R.run) ⟨R.key, completion.completionId, R.digest completion⟩
      R.completionUuid w.db
    return { w with db := db, rows := if known then w.rows else w.rows ++ [completion] }) R.persisted
  note (.persisted completion)

/-- The last qualification. -/
def requalify : Run Int := do
  Tx.lift (bridge R.authority)
  let wall ← Tx.lift R.checked
  note .requalified
  return wall

/-- The outcome after the evidence has been looked at. -/
def examine (settled : Option Disposition × Except Thrown Unit) (outcome : ProposalOutcome) : Run ProposalOutcome := do
  match settled.2 with
  | .error .exit => Tx.raise .exit
  | .error _ => do
      R.markUnknown R.marked
      return withhold outcome (some .auditUnavailable)
  | .ok () =>
      if Shows outcome then do
        let backed ← Tx.lift (R.evidenced settled.1 outcome.usage)
        return if backed then outcome else withhold outcome (some .auditUnavailable)
      else return outcome

/-- What is returned once the completion has been persisted. -/
def release (completion : Completion) (outcome : ProposalOutcome) : Run (Completion × ProposalOutcome) := do
  if outcome.code = none ∨ outcome.refusalCode ≠ none then
    match ← Tx.attempt R.requalify with
    | .ok wall => return ({ completion with displayState := .eligibleNow, evaluatedAt := wall }, outcome)
    | .error (.rejected code) => return (completion, withhold outcome (some code))
    | .error thrown => Tx.raise thrown
  else return (completion, withhold outcome outcome.code)

def completeV1 (outcome : ProposalOutcome) : Run (Completion × ProposalOutcome) := do
  let settled ← R.settle
  let outcome ← R.examine settled outcome
  let evaluatedAt ← Tx.lift R.utcnow
  let usage ← Tx.lift (view outcome.usage)
  let completion : Completion := {
    key := R.key
    completionId := R.completionId
    outcomeCode := outcome.code
    delivery := outcome.delivery
    usage := usage
    settlementRef := settled.1.map Disposition.ref
    displayState := .suppressed
    evaluatedAt := evaluatedAt
    expiresAt := R.coreExpiresAt }
  R.persistCompletion completion
  R.release completion outcome

/-! ## `execute_fake` -/

section Execution

variable {F : Type} (D : Floats F) (U : Decimals)

/-- What the parent makes of the child. -/
def childResult : Except Thrown ProposalOutcome :=
  match R.child with
  | .error .exit => .error .exit
  | .error _ => .ok ⟨some .auditUnavailable, .unknown, {}, [], none⟩
  | .ok raw =>
      match childOutcome D U R.allowed raw with
      | .ok outcome => .ok outcome
      | .error _ => .ok ⟨some .auditUnavailable, .unknown, {}, [], none⟩

def executeFake : Run (Completion × ProposalOutcome) := do
  Tx.lift R.started
  Tx.modify fun w => { w with db := R.served w.db }
  Tx.lift R.serverClosed
  let result ← Tx.lift (R.childResult D U)
  R.completeV1 result

end Execution

end Call

/-! ## What is written -/

namespace World

/-- The completions and the trace are left alone. -/
def Aside (w w' : World) : Prop := w'.rows = w.rows ∧ w'.trace = w.trace

instance : Std.Refl Aside := ⟨fun _ => ⟨rfl, rfl⟩⟩

instance : Trans Aside Aside Aside := ⟨fun first second => ⟨second.1.trans first.1, second.2.trans first.2⟩⟩

/-- Only suppressed completions are added. -/
def Grows (w w' : World) : Prop := ∀ c ∈ w'.rows, c ∈ w.rows ∨ c.displayState = .suppressed

instance : Std.Refl Grows := ⟨fun _ _ mem => .inl mem⟩

instance : Trans Grows Grows Grows := ⟨fun first second c mem => (second c mem).elim (first c) .inr⟩

theorem Aside.grows {w w' : World} (aside : Aside w w') : Grows w w' := by
  intro c mem
  rw [aside.1] at mem
  exact .inl mem

/-- Where a transaction leaves the tables: as they were, or as `x` makes them. -/
theorem transact_advances {rel : World → World → Prop} [Std.Refl rel] {x : World → Except Accounting.PortCode World}
    {fault : Fault} (along : ∀ w w', x w = .ok w' → rel w w') : Tx.Advances rel (transact x fault) := by
  refine .of_rel fun w => ?_
  unfold transact
  split
  · exact Std.Refl.refl w
  · exact Std.Refl.refl w
  · next after done => exact along w after done
  · next after done => exact along w after done

theorem transact_ok {x : World → Except Accounting.PortCode World} {fault : Fault} {w w' : World} {u : Unit}
    (ran : transact x fault w = (.ok u, w')) : x w = .ok w' := by
  unfold transact at ran
  split at ran
  · cases (Prod.mk.inj ran).1
  · cases (Prod.mk.inj ran).1
  · cases (Prod.mk.inj ran).1
  · next after done =>
    obtain ⟨-, rfl⟩ := Prod.mk.inj ran
    exact done

theorem write_aside (x : Db → Except Accounting.PortCode Db) (fault : Fault) : Tx.Advances Aside (write x fault) := by
  refine transact_advances fun w w' done => ?_
  cases written : x w.db with
  | error code =>
      rw [written] at done
      cases done
  | ok db =>
      rw [written] at done
      obtain rfl := Except.ok.inj done
      exact ⟨rfl, rfl⟩

theorem write_ok {x : Db → Except Accounting.PortCode Db} {fault : Fault} {w w' : World} {u : Unit}
    (ran : write x fault w = (.ok u, w')) : x w.db = .ok w'.db := by
  have done := transact_ok ran
  cases written : x w.db with
  | error code =>
      rw [written] at done
      cases done
  | ok db =>
      rw [written] at done
      obtain rfl := Except.ok.inj done
      rfl

end World

namespace Call

variable {R : Call} {w w' : World}

open World (Aside Grows)

theorem reconcilePages_aside (i : Nat) (result : Option Disposition) (pages : List (List Id)) :
    Tx.Advances Aside (R.reconcilePages i result pages) := by
  induction pages generalizing i result with
  | nil => exact Tx.ensures_pure trivial
  | cons ids rest ih =>
      have page : Tx.Advances Aside (R.reconcileV1 i ids) := by
        refine .of_rel fun w => ?_
        unfold reconcileV1
        dsimp only
        split <;> exact ⟨rfl, rfl⟩
      have current : Tx.Advances Aside R.currentSettlement := by
        refine .of_rel fun w => ?_
        unfold currentSettlement
        split <;> exact ⟨rfl, rfl⟩
      refine Tx.advances_bind (Tx.advances_attempt page) fun answer => ?_
      split
      · exact ih _ _
      · refine Tx.advances_bind (World.write_aside _ _) fun _ => ?_
        exact Tx.advances_bind current fun _ => Tx.ensures_pure trivial
      · exact Tx.ensures_raise trivial

theorem settle_aside : Tx.Advances Aside R.settle := by
  have reconciled : Tx.Advances Aside R.reconcile := by
    refine Tx.advances_bind (Tx.advances_lift _) fun events => ?_
    refine Tx.advances_bind (reconcilePages_aside _ _ _) fun result => ?_
    refine Tx.advances_bind (Tx.advances_when (World.write_aside _ _)) fun _ => ?_
    exact Tx.ensures_pure trivial
  refine Tx.advances_bind (Tx.advances_attempt (Tx.advances_bind (Tx.advances_lift _) fun _ => reconciled)) fun answer => ?_
  split
  · exact Tx.ensures_pure trivial
  · exact Tx.advances_bind (Tx.advances_attempt (World.write_aside _ _)) fun _ => Tx.ensures_pure trivial

theorem examine_aside (settled : Option Disposition × Except Thrown Unit) (outcome : ProposalOutcome) :
    Tx.Advances Aside (R.examine settled outcome) := by
  unfold examine
  split
  · exact Tx.ensures_raise trivial
  · exact Tx.advances_bind (World.write_aside _ _) fun _ => Tx.ensures_pure trivial
  · split
    · exact Tx.advances_bind (Tx.advances_lift _) fun _ => Tx.ensures_pure trivial
    · exact Tx.ensures_pure trivial

theorem persistCompletion_grows (completion : Completion) : Tx.Advances Grows (R.persistCompletion completion) := by
  refine Tx.ensures_bind (Tx.ensures_refuse fun _ => trivial) fun _ suppressed => ?_
  refine Tx.advances_bind (World.transact_advances fun w w' done => ?_) fun _ => ?_
  · rw [bind_ok] at done
    obtain ⟨db, -, same⟩ := done
    obtain rfl := Except.ok.inj same
    intro c mem
    dsimp only at mem
    split at mem
    · exact .inl mem
    · rcases List.mem_append.1 mem with old | new
      · exact .inl old
      · obtain rfl := List.mem_singleton.1 new
        exact .inr (not_not.1 suppressed)
  · exact Tx.ensures_modify fun w c mem => .inl mem

theorem release_grows (completion : Completion) (outcome : ProposalOutcome) :
    Tx.Advances Grows (R.release completion outcome) := by
  have requalified : Tx.Advances Grows R.requalify := by
    refine Tx.advances_bind (Tx.advances_lift _) fun _ => ?_
    refine Tx.advances_bind (Tx.advances_lift _) fun _ => ?_
    refine Tx.advances_bind (Tx.ensures_modify fun w c mem => .inl mem) fun _ => ?_
    exact Tx.ensures_pure trivial
  unfold release
  split
  · refine Tx.advances_bind (Tx.advances_attempt requalified) fun answer => ?_
    split
    · exact Tx.ensures_pure trivial
    · exact Tx.ensures_pure trivial
    · exact Tx.ensures_raise trivial
  · exact Tx.ensures_pure trivial

theorem completeV1_grows (outcome : ProposalOutcome) : Tx.Advances Grows (R.completeV1 outcome) := by
  have aside {α : Type} {x : Run α} (advances : Tx.Advances Aside x) : Tx.Advances Grows x :=
    .of_rel fun w => (advances w).1.grows
  refine Tx.advances_bind (aside settle_aside) fun settled => ?_
  refine Tx.advances_bind (aside (examine_aside settled outcome)) fun outcome => ?_
  refine Tx.advances_bind (Tx.advances_lift _) fun _ => ?_
  refine Tx.advances_bind (Tx.advances_lift _) fun _ => ?_
  exact Tx.advances_bind (persistCompletion_grows _) fun _ => release_grows _ _

/-- **Whatever fails**, what is persisted is suppressed. -/
theorem executeFake_grows {F : Type} (D : Floats F) (U : Decimals) : Tx.Advances Grows (R.executeFake D U) := by
  refine Tx.advances_bind (Tx.advances_lift _) fun _ => ?_
  refine Tx.advances_bind (Tx.ensures_modify fun w c mem => .inl mem) fun _ => ?_
  refine Tx.advances_bind (Tx.advances_lift _) fun _ => ?_
  exact Tx.advances_bind (Tx.advances_lift _) fun result => completeV1_grows result

/-! ## What is shown -/

/-- A settlement that has been reported is the latest of the call. -/
def Reported (R : Call) (w : World) (result : Option Disposition) : Prop :=
  ∀ record, result = some (.settled record) → latestSettlement w.db R.key = some record

theorem reconcileV1_current {i : Nat} {ids : List Id} {disposition : Disposition}
    (ran : R.reconcileV1 i ids w = (.ok disposition, w')) :
    Accounting.currentSettlement R.hashes w'.db R.key = .ok disposition := by
  unfold reconcileV1 at ran
  dsimp only at ran
  split at ran
  · cases (Prod.mk.inj ran).1
  · cases (Prod.mk.inj ran).1
  · obtain ⟨answer, rfl⟩ := Prod.mk.inj ran
    refine @Accounting.reconcileV1_current _ _ ⟨R.hashes, (R.page i).uuid, .run R.run, R.key, (R.page i).observer, none⟩ ids
      disposition (Prod.ext rfl ?_)
    revert answer
    cases (Reconcile.reconcileV1 ⟨R.hashes, (R.page i).uuid, .run R.run, R.key, (R.page i).observer, none⟩ ids w.db).2 with
    | ok d => exact fun answer => congrArg Except.ok (Except.ok.inj answer)
    | error code => exact fun answer => nomatch answer

theorem currentSettlement_current {disposition : Disposition} (ran : R.currentSettlement w = (.ok disposition, w')) :
    Accounting.currentSettlement R.hashes w'.db R.key = .ok disposition := by
  unfold currentSettlement at ran
  split at ran
  · cases (Prod.mk.inj ran).1
  · obtain ⟨answer, rfl⟩ := Prod.mk.inj ran
    revert answer
    cases Accounting.currentSettlement R.hashes w.db R.key with
    | ok d => exact fun answer => congrArg Except.ok (Except.ok.inj answer)
    | error code => exact fun answer => nomatch answer

theorem reported_of_current {disposition : Disposition}
    (current : Accounting.currentSettlement R.hashes w.db R.key = .ok disposition) : Reported R w (some disposition) := by
  intro record same
  obtain rfl := Option.some.inj same
  exact Accounting.currentSettlement_settled current

theorem reconcilePages_reported {i : Nat} {result result' : Option Disposition} {pages : List (List Id)}
    (reported : Reported R w result) (ran : R.reconcilePages i result pages w = (.ok result', w')) :
    Reported R w' result' := by
  induction pages generalizing i result w with
  | nil =>
      obtain ⟨rfl, rfl⟩ := Tx.pure_ok.1 ran
      exact reported
  | cons ids rest ih =>
      rw [reconcilePages, Tx.bind_ok] at ran
      obtain ⟨answer, t, page, ran⟩ := ran
      rw [Tx.attempt_ok] at page
      split at ran
      · next disposition => exact ih (reported_of_current (reconcileV1_current page)) ran
      · rw [Tx.bind_ok] at ran
        obtain ⟨-, t', -, ran⟩ := ran
        rw [Tx.bind_ok] at ran
        obtain ⟨disposition, t'', current, ran⟩ := ran
        obtain ⟨rfl, rfl⟩ := Tx.pure_ok.1 ran
        exact reported_of_current (currentSettlement_current current)
      · exact absurd (Tx.raise_ok.1 ran) id

theorem reconcile_reported {result : Option Disposition} (ran : R.reconcile w = (.ok result, w')) :
    Reported R w' result := by
  rw [reconcile, Tx.lift_bind_ok] at ran
  obtain ⟨events, -, ran⟩ := ran
  rw [Tx.bind_ok] at ran
  obtain ⟨result', t, pages, ran⟩ := ran
  rw [Tx.bind_ok] at ran
  obtain ⟨_, t', marked, ran⟩ := ran
  obtain ⟨rfl, rfl⟩ := Tx.pure_ok.1 ran
  have nothing (w : World) : Reported R w none := fun record same => nomatch same
  rcases Tx.when_ok.1 marked with ⟨rfl, -⟩ | ⟨-, rfl⟩
  · obtain ⟨rfl, -⟩ := Tx.pure_ok.1 pages
    exact nothing t'
  · exact reconcilePages_reported (nothing w) pages

/-- When everything went well, the settlement is the latest one. -/
theorem settle_reported {settlement : Option Disposition}
    (ran : R.settle w = (.ok (settlement, .ok ()), w')) : Reported R w' settlement := by
  rw [settle, Tx.bind_ok] at ran
  obtain ⟨answer, t, tried, ran⟩ := ran
  rw [Tx.attempt_ok] at tried
  split at ran
  · cases (Prod.mk.inj (Tx.pure_ok.1 ran).1).2
  · next settlement' =>
    rw [Tx.bind_ok] at ran
    obtain ⟨finished, t', written, ran⟩ := ran
    obtain ⟨same, rfl⟩ := Tx.pure_ok.1 ran
    obtain ⟨rfl, rfl⟩ := Prod.mk.inj same
    rw [Tx.attempt_ok] at written
    rw [Tx.lift_bind_ok] at tried
    obtain ⟨-, -, reconciled⟩ := tried
    intro record same
    have kept := Accounting.finish_settlements (World.write_ok written)
    rw [latestSettlement, kept]
    exact reconcile_reported reconciled record same

/-- The settlement and the observation behind what is shown. -/
structure Backed (R : Call) (w : World) (settlement : Option Disposition) (usage : Usage) (record : Settlement)
    (observed : Observation) : Prop where
  settled : settlement = some (.settled record)
  latest : latestSettlement w.db R.key = some record
  known : record.state = .known
  found : R.observations record.finalEventId = some observed
  usage : viewOf usage = some observed.usage

theorem evidenced_ok {settlement : Option Disposition} {usage : Usage} (backed : R.evidenced settlement usage = .ok true)
    (reported : Reported R w settlement) : ∃ record observed, Backed R w settlement usage record observed := by
  unfold evidenced at backed
  split at backed
  · next record =>
    split at backed
    · next observed known found =>
      unfold view at backed
      split at backed
      · next v viewed =>
        have same : observed.usage = v := of_decide_eq_true (Except.ok.inj backed)
        exact ⟨record, observed, rfl, reported record rfl, known, found, same ▸ viewed⟩
      · cases backed
    · cases Except.ok.inj backed
  · cases Except.ok.inj backed

theorem withhold_shows (outcome : ProposalOutcome) (code : Option Code) : ¬ Shows (withhold outcome code) := by
  rintro (shown | refused)
  · exact shown rfl
  · exact refused rfl

theorem examine_ok {settled : Option Disposition × Except Thrown Unit} {outcome outcome' : ProposalOutcome}
    (ran : R.examine settled outcome w = (.ok outcome', w')) (shows : Shows outcome') :
    settled.2 = .ok () ∧ outcome' = outcome ∧ w' = w ∧ R.evidenced settled.1 outcome.usage = .ok true := by
  unfold examine at ran
  obtain ⟨settlement, finished⟩ := settled
  dsimp only at ran
  split at ran
  · exact absurd (Tx.raise_ok.1 ran) id
  · rw [Tx.bind_ok] at ran
    obtain ⟨-, t, -, ran⟩ := ran
    obtain ⟨rfl, -⟩ := Tx.pure_ok.1 ran
    exact absurd shows (withhold_shows _ _)
  · split at ran
    · rw [Tx.lift_bind_ok] at ran
      obtain ⟨backed, evidence, ran⟩ := ran
      obtain ⟨same, rfl⟩ := Tx.pure_ok.1 ran
      cases backed with
      | false =>
          subst same
          exact absurd shows (withhold_shows _ _)
      | true => exact ⟨rfl, same.symm, rfl, evidence⟩
    · next nothing =>
      obtain ⟨rfl, rfl⟩ := Tx.pure_ok.1 ran
      exact absurd shows nothing

theorem persistCompletion_ok {completion : Completion} {u : Unit} (ran : R.persistCompletion completion w = (.ok u, w')) :
    completion.displayState = .suppressed ∧ w'.trace = w.trace ++ [.persisted completion] ∧
      w'.db.settlements = w.db.settlements := by
  rw [persistCompletion, Tx.refuse_bind_ok] at ran
  obtain ⟨suppressed, ran⟩ := ran
  rw [Tx.bind_ok] at ran
  obtain ⟨_, t, written, noted⟩ := ran
  obtain rfl := Tx.modify_ok.1 noted
  have done := World.transact_ok written
  rw [bind_ok] at done
  obtain ⟨db, persisted, same⟩ := done
  obtain rfl := Except.ok.inj same
  exact ⟨not_not.1 suppressed, rfl, Accounting.persistCompletion_settlements persisted⟩

theorem release_ok {completion completion' : Completion} {outcome outcome' : ProposalOutcome}
    (ran : R.release completion outcome w = (.ok (completion', outcome'), w')) (shows : Shows outcome') :
    outcome' = outcome ∧ w'.trace = w.trace ++ [.requalified] ∧ w'.db = w.db ∧
      ∃ wall, completion' = { completion with displayState := .eligibleNow, evaluatedAt := wall } := by
  unfold release at ran
  split at ran
  · rw [Tx.bind_ok] at ran
    obtain ⟨answer, t, tried, ran⟩ := ran
    rw [Tx.attempt_ok] at tried
    split at ran
    · next wall =>
      obtain ⟨same, rfl⟩ := Tx.pure_ok.1 ran
      obtain ⟨rfl, rfl⟩ := Prod.mk.inj same
      rw [requalify, Tx.lift_bind_ok] at tried
      obtain ⟨-, -, tried⟩ := tried
      rw [Tx.lift_bind_ok] at tried
      obtain ⟨wall', -, tried⟩ := tried
      rw [Tx.bind_ok] at tried
      obtain ⟨_, t', noted, tried⟩ := tried
      obtain ⟨rfl, rfl⟩ := Tx.pure_ok.1 tried
      obtain rfl := Tx.modify_ok.1 noted
      exact ⟨rfl, rfl, rfl, _, rfl⟩
    · obtain ⟨same, -⟩ := Tx.pure_ok.1 ran
      obtain ⟨-, rfl⟩ := Prod.mk.inj same
      exact absurd shows (withhold_shows _ _)
    · exact absurd (Tx.raise_ok.1 ran) id
  · obtain ⟨same, -⟩ := Tx.pure_ok.1 ran
    obtain ⟨-, rfl⟩ := Prod.mk.inj same
    exact absurd shows (withhold_shows _ _)

/-- What stands behind something that is shown. -/
structure Released (R : Call) (w w' : World) (completion : Completion) (outcome : ProposalOutcome) : Prop where
  eligible : completion.displayState = .eligibleNow
  backed : ∃ record observed, Backed R w' (some (.settled record)) outcome.usage record observed ∧
    completion.settlementRef = some (.named record.settlementId)
  /-- The completion is persisted as suppressed, and the call qualified again after that. -/
  requalified : ∃ persisted wall, w'.trace = w.trace ++ [.persisted persisted, .requalified] ∧
    persisted.displayState = .suppressed ∧
    completion = { persisted with displayState := .eligibleNow, evaluatedAt := wall }
  crosses : ∀ d ∈ outcome.display, d.Crosses R.allowed

theorem completeV1_released {outcome outcome' : ProposalOutcome} {completion : Completion}
    (ran : R.completeV1 outcome w = (.ok (completion, outcome'), w')) (shows : Shows outcome')
    (admissible : outcome.Admissible R.allowed) : Released R w w' completion outcome' := by
  rw [completeV1, Tx.bind_ok] at ran
  obtain ⟨⟨settlement, finished⟩, t₁, settled, ran⟩ := ran
  rw [Tx.bind_ok] at ran
  obtain ⟨examined, t₂, exam, ran⟩ := ran
  rw [Tx.lift_bind_ok] at ran
  obtain ⟨evaluatedAt, -, ran⟩ := ran
  rw [Tx.lift_bind_ok] at ran
  obtain ⟨usage, -, ran⟩ := ran
  rw [Tx.bind_ok] at ran
  obtain ⟨_, t₃, persisted, ran⟩ := ran
  obtain ⟨rfl, requalified, tables, wall, rfl⟩ := release_ok ran shows
  obtain ⟨suppressed, noted, settlements⟩ := persistCompletion_ok persisted
  obtain ⟨rfl, rfl, rfl, evidence⟩ := examine_ok exam shows
  obtain ⟨record, observed, backed⟩ := evidenced_ok evidence (settle_reported settled)
  refine ⟨rfl, ⟨record, observed, ⟨rfl, ?_, backed.known, backed.found, backed.usage⟩, ?_⟩, ⟨_, wall, ?_, rfl, rfl⟩,
    admissible.crosses⟩
  · rw [latestSettlement, tables, settlements]
    exact backed.latest
  · rw [backed.settled]
    rfl
  · rw [requalified, noted, (settle_aside.along settled).2, List.append_assoc]
    rfl

theorem executeFake_released {F : Type} {D : Floats F} {U : Decimals} {outcome : ProposalOutcome} {completion : Completion}
    (ran : R.executeFake D U w = (.ok (completion, outcome), w')) (shows : Shows outcome) :
    Released R w w' completion outcome := by
  rw [executeFake, Tx.lift_bind_ok] at ran
  obtain ⟨-, -, ran⟩ := ran
  rw [Tx.bind_ok] at ran
  obtain ⟨_, t, served, ran⟩ := ran
  obtain rfl := Tx.modify_ok.1 served
  rw [Tx.lift_bind_ok] at ran
  obtain ⟨-, -, ran⟩ := ran
  rw [Tx.lift_bind_ok] at ran
  obtain ⟨result, child, ran⟩ := ran
  have admissible : result.Admissible R.allowed := by
    have nothing : (⟨some .auditUnavailable, .unknown, {}, [], none⟩ : ProposalOutcome).Admissible R.allowed :=
      ⟨(fun d mem => nomatch mem), fun some_ => absurd rfl some_, fun some_ => absurd rfl some_⟩
    unfold childResult at child
    split at child
    · cases child
    · obtain rfl := Except.ok.inj child
      exact nothing
    · split at child
      · next o read =>
        obtain rfl := Except.ok.inj child
        exact childOutcome_ok D U read
      · obtain rfl := Except.ok.inj child
        exact nothing
  have released := completeV1_released ran shows admissible
  exact ⟨released.eligible, released.backed, released.requalified, released.crosses⟩

end Call

namespace Call

variable {R : Call} {F : Type} {D : Floats F} {U : Decimals} {outcome : ProposalOutcome}

theorem childResult_ok {raw : Bytes} (child : R.child = .ok raw) (read : childOutcome D U R.allowed raw = .ok outcome) :
    R.childResult D U = .ok outcome := by
  rw [childResult, child]
  dsimp only
  rw [read]

/-- A call whose child has finished goes on with `complete_v1`. -/
theorem executeFake_completes (started : R.started = .ok ()) (closed : R.serverClosed = .ok ())
    (child : R.childResult D U = .ok outcome) (w : World) :
    R.executeFake D U w = R.completeV1 outcome { w with db := R.served w.db } := by
  rw [executeFake, started, closed, child]
  rfl

end Call

section Releasing

variable {F : Type} (D : Floats F) (U : Decimals)

/-- **Nothing is shown that is not settled, observed and qualified again**; what is persisted is suppressed,
and what a prepared call may bring survives the way out of the sandbox. -/
theorem display_released (R : Call) :
    (∀ w w' completion outcome, R.executeFake D U w = (.ok (completion, outcome), w') → Call.Shows outcome →
      Call.Released R w w' completion outcome) ∧
    (∀ w, ∀ c ∈ (R.executeFake D U w).2.rows, c ∈ w.rows ∨ c.displayState = .suppressed) ∧
    ∀ callRef ruleRef claim codes candidates inp allowed,
      render D callRef ruleRef claim codes candidates = .ok (inp, allowed) → candidates ≠ [] →
      ∀ raw doc displays, outputDocument D inp allowed raw = .ok (doc, displays) → ∀ usage : Usage, usage.Sound → ∀ delivery,
        childOutcome D U allowed (serialize D (proposed doc displays delivery usage)) =
          .ok (proposed doc displays delivery usage) := by
  refine ⟨fun w w' completion outcome ran shows => Call.executeFake_released ran shows,
    fun w => (Call.executeFake_grows D U w).1, ?_⟩
  intro callRef ruleRef claim codes candidates inp allowed rendered some_ raw doc displays output usage sound delivery
  obtain ⟨prepared, refs⟩ := render_ok D rendered
  have candidates_ : inp.candidates.refs ≠ [] := by
    rw [refs]
    exact fun none_ => some_ (List.map_eq_nil_iff.1 none_)
  exact childOutcome_serialize U prepared candidates_ output sound delivery

end Releasing

section Pole

open ApiSecurityPlatform.Ports (asciiDigits)
open ApiSecurityPlatform.Accounting (sampleHashes sampleRun sampleKey sampleObservation sampleUsage steadyObserver firstCall)

private def hundredView : UsageView := sampleUsage 100 Accounting.hundred_le_maxN

/-- The outcome of a call for a review, of 100 tokens. -/
private def shownOutcome : ProposalOutcome :=
  ⟨none, .responded, usageFrom hundredView,
    [⟨"s_1".toList, "Suggested for human review. Not executed.", [handle 'c', handle 'k'], ["NOT_EXECUTED"]⟩], none⟩

private theorem shownOutcome_proposed : proposed reviewOutput.sorted shownOutcome.display .responded (usageFrom hundredView) =
    shownOutcome := by rfl

/-- A call on which nothing fails. -/
private def shownCall : Call where
  hashes := sampleHashes
  run := sampleRun 1
  key := sampleKey 1
  allowed := {(handle 'c', handle 'k')}
  coreExpiresAt := 500
  started := .ok ()
  served := id
  child := .ok (serialize halfFloats shownOutcome)
  serverClosed := .ok ()
  streamClosed := .ok ()
  events := .ok [30]
  page _ := ⟨fun n => 10 + n, steadyObserver [sampleObservation 1 30 .finalUsage hundredView], .none⟩
  unsettled := .none
  current := .ok ()
  covered := true
  finished := .none
  marked := .none
  observations _ := some (sampleObservation 1 30 .finalUsage hundredView)
  utcnow := .ok 100
  completionId := 90
  digest _ := 91
  completionUuid n := 80 + n
  persisted := .none
  authority := .ok ()
  checked := .ok 101

private theorem render_review : render halfFloats (handle 'q') (handle 'k') ['x'] [.anonymous]
    [(handle 'c', ⟨.singleResourcePathGetJsonObject, .anonymous⟩)] = .ok (reviewDocument, {(handle 'c', handle 'k')}) := by
  rw [render, show renderDocument (handle 'q') (handle 'k') ['x'] [.anonymous]
    [(handle 'c', ⟨.singleResourcePathGetJsonObject, .anonymous⟩)] = reviewInput from rfl, reviewInput_accepted]
  rfl

/-- The tables after the call was reserved. -/
private def reservedWorld : World := ⟨Db.after sampleHashes firstCall, [], []⟩

private theorem shownCall_shows :
    (shownCall.completeV1 shownOutcome reservedWorld).1.toOption.map Prod.snd = some shownOutcome := by
  decide +kernel

theorem display_released_review :
    childOutcome halfFloats asciiDigits {(handle 'c', handle 'k')} (serialize halfFloats shownOutcome) = .ok shownOutcome ∧
    ∃ w' completion, Call.Released shownCall reservedWorld w' completion shownOutcome := by
  have law := display_released halfFloats asciiDigits shownCall
  have crossed : childOutcome halfFloats asciiDigits {(handle 'c', handle 'k')} (serialize halfFloats shownOutcome) =
      .ok shownOutcome := by
    rw [← shownOutcome_proposed]
    exact law.2.2 _ _ _ _ _ _ _ render_review (List.cons_ne_nil _ _) _ _ _ reviewOutput_accepted _
      (usageFrom_sound hundredView) .responded
  have child : shownCall.childResult halfFloats asciiDigits = .ok shownOutcome := Call.childResult_ok rfl crossed
  obtain ⟨completion, w', ran⟩ : ∃ completion w', shownCall.executeFake halfFloats asciiDigits reservedWorld =
      (.ok (completion, shownOutcome), w') := by
    rw [Call.executeFake_completes rfl rfl child]
    change ∃ completion w', shownCall.completeV1 shownOutcome reservedWorld = _
    have shown := shownCall_shows
    generalize shownCall.completeV1 shownOutcome reservedWorld = answer at shown
    obtain ⟨thrown | ⟨completion, outcome⟩, w'⟩ := answer
    · cases shown
    · obtain rfl : outcome = shownOutcome := Option.some.inj shown
      exact ⟨completion, w', rfl⟩
  have shows : Call.Shows shownOutcome := .inl (List.cons_ne_nil _ _)
  exact ⟨crossed, w', completion, law.1 _ _ _ _ ran shows⟩

end Pole

end ApiSecurityPlatform.Proposals
