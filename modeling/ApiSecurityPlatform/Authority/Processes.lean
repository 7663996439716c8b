/-
# Authority.Processes -- what holds over the processes of an authority

Processes start, serve operations in any order and are gone, at any of their writes; the files
stay.  The authority that ran last says what is known of them (`World.Stood`).

* `World.Stood.step`: a start, a stop and an operation leave an authority that stands;
* `taken_once`: a body is taken once for its key, on an open gate and a current permit; a stream
  that is proven empty was counted nothing;
* `open_resolved`: an open gate has nothing unresolved behind it.
-/
import ApiSecurityPlatform.Authority.Acceptance

namespace ApiSecurityPlatform.Authority.Endpoint

open ApiSecurityPlatform.Theory
open ApiSecurityPlatform.Theory.Chain
open ApiSecurityPlatform.Accounting (Id Receipt sampleKey sampleCore)

set_option autoImplicit false
set_option linter.dupNamespace false

variable {g : Setting} {strict : Prop}

/-! ## Any operation -/

section Any

variable {a : FakeAuthority} {f : Files} {taken : List Taken} {env : Nat → Env}

/-- An operation whose answer is not looked at. -/
theorem keeps_unread {α : Type} {x : Op α} (keeps : Keeps g strict a f taken env x) :
    Keeps g strict a f taken env (do let _ ← x) :=
  Tx.triple_bind keeps fun _ => Tx.triple_pure fun _ here => here

/-- The hook behind a row raises in no invalidation. -/
def Calm (operation : Operation) (world : Nat → Env) : Prop :=
  match operation with
  | .invalidate _ _ => ∀ n, (world n).beforeAck = false
  | _ => True

theorem perform_keeps (full : Full g strict a f taken) (operation : Operation) (calm : strict → Calm operation env) :
    Keeps g strict a f taken env (perform g operation) := by
  cases operation with
  | qualifyAdmission => exact keeps_locked full (keeps_checkOpen full)
  | suspend => exact keeps_locked full (keeps_recover full)
  | registerCall key run admission => exact keeps_registerCall full key run admission
  | registerReserved key core manifestDigest run reservation =>
      exact keeps_registerReserved full key core manifestDigest run reservation
  | scriptFinal key usage terminal => exact keeps_scriptFinal full key usage terminal
  | beginAcceptance run admission bodyDigest => exact keeps_unread (keeps_beginAcceptance full run admission bodyDigest)
  | issue run admission ticket markerEventId guardEpoch =>
      exact keeps_unread (keeps_issue full run admission ticket markerEventId guardEpoch)
  | consumeWrite permit body => exact keeps_unread (keeps_consumeWrite full permit body)
  | closeCall key => exact keeps_unread (keeps_closeCall full key)
  | lateUsage key usage terminal eventId => exact keeps_unread (keeps_lateUsage full key usage terminal eventId)
  | observe scope event => exact keeps_unread (keeps_observe full scope event)
  | qualifyConsumption permit => exact keeps_qualifyConsumption full permit
  | invalidate ctx request => exact keeps_unread (keeps_invalidate full ctx request calm)
  | lookup ctx operationId operationDigest => exact keeps_unread (keeps_lookup full ctx operationId operationDigest)
  | resolve ctx resolution verified => exact keeps_unread (keeps_resolve full ctx resolution verified)
  | reopen ctx request evidence => exact keeps_unread (keeps_reopen full ctx request evidence)

theorem performed_full (full : Full g strict a f taken) (operation : Operation) (calm : strict → Calm operation env) :
    Full g strict (perform g operation ⟨a, f, taken, env, 0⟩).2.authority (perform g operation ⟨a, f, taken, env, 0⟩).2.files
      (perform g operation ⟨a, f, taken, env, 0⟩).2.taken := by
  have ended := perform_keeps full operation calm ⟨a, f, taken, env, 0⟩ ⟨⟨a.lastWall, rfl⟩, rfl, rfl, rfl⟩
  generalize perform g operation ⟨a, f, taken, env, 0⟩ = r at ended
  obtain ⟨refusal | _, s⟩ := r
  · exact ended.1
  · exact ended.1

end Any

/-! ## Processes -/

namespace World

/-- The authority that ran last. -/
def Stood (g : Setting) (strict : Prop) (w : World) : Prop :=
  ∃ a, Full g strict a w.files w.taken ∧ ∀ b, w.process = some b → b = a

/-- An authority before any process. -/
def blank (g : Setting) : FakeAuthority :=
  ⟨[], ⟨[], [], 0, g.log.zero⟩, 0, 0, 1, .recoveryRequired, [], [], [], [], [], none⟩

theorem blank_base : Base g (blank g) new.files new.taken where
  journal := .empty ⟨List.nodup_nil, fun _ mem => (by cases mem), fun _ mem => (by cases mem), fun _ mem => (by cases mem),
    fun _ mem => (by cases mem), fun _ mem => (by cases mem), List.Pairwise.nil⟩
  log := .empty ⟨fun _ _ mem => (by cases mem), fun _ => Nat.zero_le 1⟩
  applied _ done := (Option.some.inj done).symm
  calls _ mem := by cases mem
  tickets _ mem := by cases mem
  live _ mem := by cases mem
  single _ mem := by cases mem
  spent _ mem := by cases mem
  once := List.nodup_nil
  rested _ mem := by cases mem
  cores _ mem := by cases mem
  positive := Nat.le_refl 1

theorem blank_full : Full g strict (blank g) new.files new.taken where
  base := blank_base
  issued := ⟨fun open_ => (by cases open_), fun open_ => (by cases open_)⟩
  gated := ⟨fun open_ => (by cases open_), fun _ => .inl fun _ mem => (by cases mem), fun _ mem => (by cases mem),
    fun _ mem => (by cases mem), fun _ mem => (by cases mem)⟩

/-- **A start, a stop and an operation leave an authority that stands.** -/
theorem Stood.step {w : World} (stood : w.Stood g strict) (step : Step)
    (calm : ∀ operation world, step = .call operation world → strict → Calm operation world) :
    (w.step g step).Stood g strict := by
  obtain ⟨a, full, running⟩ := stood
  cases step with
  | start epoch observerEpoch =>
      cases started : FakeAuthority.start g w.files epoch observerEpoch with
      | none => exact ⟨a, full, fun b here => by cases started.symm.trans here⟩
      | some a' => exact ⟨a', start_full full.base started, fun b here => Option.some.inj (here.symm.trans started)⟩
  | stop => exact ⟨a, full, fun b here => by cases here⟩
  | call operation world =>
      rw [World.step]
      split
      · exact ⟨a, full, running⟩
      · next authority here =>
        cases running authority here
        exact ⟨_, performed_full full operation (calm operation world rfl), fun b there => (Option.some.inj there).symm⟩

theorem stood_of_run {w : World} {trace : List Step} (run : (authorities g).Run new trace w)
    (calm : strict → ∀ operation world, .call operation world ∈ trace → Calm operation world) : w.Stood g strict := by
  induction run with
  | refl => exact ⟨blank g, blank_full, fun b here => by cases here⟩
  | @snoc t u trace step _ last ih =>
      rw [show u = t.step g step from last]
      have stood := ih fun strictly operation world mem => calm strictly operation world (List.mem_append_left _ mem)
      refine stood.step step fun operation world same strictly => calm strictly operation world ?_
      exact List.mem_append_right _ (List.mem_singleton.2 same.symm)

/-- A journal: of the process that runs, or as the next one would read it. -/
def Journal (g : Setting) (w : World) (rows : List (Row Id Document)) : Prop :=
  (∃ a, w.process = some a ∧ a.rows = rows) ∨ g.journal.load w.files.journal = some rows

/-- A log of the witness: of the process that runs, or as the next one would use it. -/
def Log (g : Setting) (w : World) (rows : List (Row Id Event)) : Prop :=
  (∃ a, w.process = some a ∧ a.witness.rows = rows) ∨ Usable g w.files.log rows

end World

/-! ### A call, an invalidation and a gate that opens again -/

/-- Ids that are numbers, digests that count. -/
def sampleSetting : Setting where
  deployment := 6
  fingerprint core := core.rest
  digest body := body
  coreDigest value := value.key.callRef
  coreFits _ := true
  observationDigest o := o.eventId
  pendingDigest operations := operations.length
  journal := ⟨0, fun sequence _ _ => sequence, fun _ => true, 65536⟩
  log := ⟨0, fun sequence _ _ => sequence, fun _ => true, 65536⟩
  zeroUsage := .unknown

def sampleReceipt : Receipt :=
  ⟨sampleKey 1, 1, 1, 1, Accounting.minimumReserved, 450, Accounting.minimumReserved_self, Accounting.minimumReserved_le_maxN⟩

/-- Nothing fails, and identifiers are new. -/
def quiet (first n : Nat) : Env := ⟨0, true, first + n, false, .synced, false, .synced, false, false, .synced⟩

def reopening (generation pending : Nat) : Operation :=
  let request : ReopenRequest := ⟨6, 30, 1, generation, 0⟩
  .reopen ⟨6, 9, 400⟩ request ⟨request, 0, 10, pending⟩

/-- The body is written twice, and taken once. -/
def sampleOperations : List (Operation × Nat) :=
  let run : Run := ⟨Accounting.sampleRun 1, 0⟩
  let admission : Admission := ⟨sampleKey 1, 5, 1, 0, 400⟩
  let permit : SendPermit := ⟨sampleKey 1, 503, 5, 1, 6, 1, 1, 403, 1, 4, 2, 400⟩
  [(reopening 1 0, 100), (.registerReserved (sampleKey 1) (sampleCore 1) 0 run sampleReceipt, 200),
    (.registerCall (sampleKey 1) run admission, 300), (.beginAcceptance run admission 1, 400),
    (.issue run admission ⟨403, sampleKey 1, 6, 1, 1, 1, 1, 400⟩ 4 6, 500), (.consumeWrite permit 1, 600),
    (.consumeWrite permit 1, 700), (.closeCall (sampleKey 1), 800), (.invalidate ⟨6, 9, 400⟩ ⟨40, 41, 6, 9, 0, 400⟩, 900),
    (.resolve ⟨6, 9, 400⟩ ⟨40, 41, 6, 7, .committed, none⟩ (.committed, none), 1000), (reopening 2 1, 1100)]

def sampleSteps : List Step := .start 1 2 :: sampleOperations.map fun x => .call x.1 (quiet x.2)

def sampleWorld : World := sampleSteps.foldl (World.step sampleSetting) World.new

theorem sample_run : (authorities sampleSetting).Run World.new sampleSteps sampleWorld :=
  System.Run.of_foldl (fun _ _ => rfl) World.new sampleSteps

/-! ## Results -/

/-- **A body is taken once.**  It is taken for its key alone, on an open gate and on what `Rested`
says; the witness counts no other, and none of a key whose stream is proven empty; an invalidation
outruns the permits before it. -/
theorem taken_once {w : World} {trace : List Step} (run : (authorities g).Run World.new trace w) :
    (keys w.taken).Nodup ∧ (∀ t ∈ w.taken, Rested g t) ∧
      (∀ a, w.process = some a → ∀ t ∈ w.taken, Spent a.permits t.permit.key) ∧
      (∀ rows, w.Log g rows → Counted (keys w.taken) (rows.map Row.payload)) ∧
      ∀ rows, w.Journal g rows → (rows.map Row.payload).Pairwise Fenced ∧
        ∀ o, .observation o ∈ rows.map Row.payload → o.kind = .zeroProven →
          (∀ a, w.process = some a → a.witness.accepted o.key = 0) ∧
            ∀ log, Usable g w.files.log log → (log.map Row.payload).countP (Event.accepts o.key) = 0 := by
  obtain ⟨a, full, running⟩ := World.stood_of_run run fun never : False => never.elim
  have base := full.base
  refine ⟨base.once, base.rested, fun b here t mem => ?_, fun rows shown => ?_, fun rows shown => ?_⟩
  · cases running b here
    exact (base.spent t mem).1
  · rcases shown with ⟨b, here, rfl⟩ | usable
    · cases running b here
      exact base.log.memory
    · exact base.log.read rows usable.1
  · have journaled : Journaled (Closed a.calls) (Clean g a.witness w.files.log) (· ∈ w.files.cores.map Prod.fst) a.generation
        (rows.map Row.payload) := by
      rcases shown with ⟨b, here, rfl⟩ | loaded
      · cases running b here
        exact base.journaled
      · exact base.journal.read rows loaded
    refine ⟨journaled.fenced, fun o mem kind => ?_⟩
    obtain ⟨⟨memory, file⟩, -⟩ := journaled.zeroed o mem kind
    refine ⟨fun b here => ?_, fun log usable => ?_⟩
    · cases running b here
      exact List.countP_eq_zero.2 fun x there => by simpa using memory x there
    · rw [List.countP_map]
      exact List.countP_eq_zero.2 fun row there => Bool.eq_false_iff.1 (file log usable row there)

theorem taken_once_call : sampleWorld.taken.length = 1 ∧ (keys sampleWorld.taken).Nodup ∧
    ∀ t ∈ sampleWorld.taken, Rested sampleSetting t := by
  obtain ⟨once, rested, -⟩ := taken_once sample_run
  exact ⟨by decide +kernel, once, rested⟩

/-- **An open gate has nothing unresolved behind it**, in runs where no hook raises between the row
of an invalidation and its acknowledgement. -/
theorem open_resolved {w : World} {trace : List Step} (run : (authorities g).Run World.new trace w)
    (calm : ∀ operation world, .call operation world ∈ trace → Calm operation world) {a : FakeAuthority}
    (running : w.process = some a) (opened : a.state = .opened) {ack : InvalidationAck} (said : .ack ack ∈ documents a) :
    ∃ x, latest (documents a) ack.operationId = some x ∧ x.disposition.final = true := by
  obtain ⟨b, full, last⟩ := World.stood_of_run run fun _ : True => calm
  cases last a running
  obtain ⟨level, resolved⟩ := full.gated.opened opened
  rcases full.gated.known trivial with known | behind
  · obtain ⟨x, mem, same⟩ := known ack said
    have final := resolved trivial x mem
    exact ⟨x, same ▸ full.gated.latest x mem final, final⟩
  · rw [level] at behind
    cases behind

/-- The gate is open behind the two rows of an invalidation. -/
theorem open_resolved_call : ∃ a, sampleWorld.process = some a ∧ ((documents a).filterMap Document.ack?).length = 2 ∧
    ∀ ack, .ack ack ∈ documents a →
      ∃ x, latest (documents a) ack.operationId = some x ∧ x.disposition.final = true := by
  have shown : sampleWorld.process.map (fun a => (a.state, ((documents a).filterMap Document.ack?).length)) =
      some (.opened, 2) := by decide +kernel
  obtain ⟨a, running, same⟩ := Option.map_eq_some_iff.1 shown
  obtain ⟨opened, two⟩ := Prod.mk.inj same
  refine ⟨a, running, two, fun ack => open_resolved sample_run (fun operation world mem => ?_) running opened⟩
  rcases List.mem_cons.1 mem with start | call
  · cases start
  · obtain ⟨x, -, is⟩ := List.mem_map.1 call
    cases is
    generalize x.1 = operation
    cases operation <;> first | trivial | exact fun _ => rfl

end ApiSecurityPlatform.Authority.Endpoint
