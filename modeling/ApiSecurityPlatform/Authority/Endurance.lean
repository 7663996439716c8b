/-
# Authority.Endurance -- what was acknowledged stays where it is

The rows an authority and its witness have in memory are the acknowledged ones.  An operation only
adds to them (`perform_onward`), a new process reads them again in the same places, whatever was
left behind them (`start_onward`), and so every later process has them (`rows_endure`).  What an
operation answers is among them (`answered_said`), so no answer is ever taken back
(`answers_endure`).
-/
import ApiSecurityPlatform.Authority.Processes

namespace ApiSecurityPlatform.Authority.Endpoint

open ApiSecurityPlatform.Theory
open ApiSecurityPlatform.Theory.Chain
open ApiSecurityPlatform.Accounting (Id ReservationKey BindingCore Receipt Observation)

set_option autoImplicit false
set_option linter.dupNamespace false

/-- Every acknowledgement of an operation is in the journal. -/
def FakeAuthority.OnRecord (a : FakeAuthority) : Prop := ∀ ack ∈ a.operations, .ack ack ∈ documents a

/-- What one authority and its witness have noted, the other ones have in the same places. -/
structure FakeAuthority.Onward (a a' : FakeAuthority) : Prop where
  rows : a.rows <+: a'.rows
  log : a.witness.rows <+: a'.witness.rows
  record : a.OnRecord → a'.OnRecord

namespace FakeAuthority.Onward

variable {a b c : FakeAuthority}

theorem refl (a : FakeAuthority) : a.Onward a := ⟨List.prefix_refl _, List.prefix_refl _, id⟩

theorem trans (first : a.Onward b) (second : b.Onward c) : a.Onward c :=
  ⟨first.rows.trans second.rows, first.log.trans second.log, fun record => second.record (first.record record)⟩

theorem said (onward : a.Onward b) {d : Document} (mem : d ∈ documents a) : d ∈ documents b :=
  (onward.rows.map Row.payload).subset mem

/-- More rows, and no other operations. -/
theorem more (rows : a.rows <+: b.rows) (log : a.witness.rows <+: b.witness.rows) (same : b.operations = a.operations) :
    a.Onward b := by
  refine ⟨rows, log, fun record ack mem => ?_⟩
  exact (rows.map Row.payload).subset (record ack (same ▸ mem))

/-- An acknowledgement that is in the journal takes its place. -/
theorem acknowledge (a : FakeAuthority) {ack : InvalidationAck} (mem : .ack ack ∈ documents a) :
    a.Onward { a with operations := assign InvalidationAck.operationId a.operations ack } := by
  refine ⟨List.prefix_refl _, List.prefix_refl _, fun record x there => ?_⟩
  rcases mem_assign there with rfl | ⟨before, -⟩
  · exact mem
  · exact record x before

end FakeAuthority.Onward

def Sys.Onward (s t : Sys) : Prop := s.authority.Onward t.authority

instance : Std.Refl Sys.Onward := ⟨fun s => .refl s.authority⟩

instance : Trans Sys.Onward Sys.Onward Sys.Onward := ⟨FakeAuthority.Onward.trans⟩

abbrev Adds {α : Type} (x : Op α) : Prop := Tx.Advances Sys.Onward x

/-! ## Parts of the operations -/

section Parts

variable {g : Setting}

/-- Neither rows nor operations are touched. -/
def Unchanged (a a' : FakeAuthority) : Prop :=
  a'.rows = a.rows ∧ a'.witness.rows = a.witness.rows ∧ a'.operations = a.operations

theorem adds_unchanged {α : Type} {x : Op α} (same : ∀ s, Unchanged s.authority (x s).2.authority) : Adds x :=
  .of_rel fun s => .more ((same s).1 ▸ List.prefix_refl _) ((same s).2.1 ▸ List.prefix_refl _) (same s).2.2

theorem adds_update {change : FakeAuthority → FakeAuthority} (same : ∀ a, Unchanged a (change a)) : Adds (update change) :=
  adds_unchanged fun s => same s.authority

theorem adds_pure {α : Type} (answer : α) : Adds (pure answer) := Tx.ensures_pure trivial

theorem adds_raise {α : Type} (refusal : Refusal) : Adds (Tx.raise refusal : Op α) := Tx.ensures_raise trivial

theorem adds_draw : Adds draw := adds_unchanged fun _ => ⟨rfl, rfl, rfl⟩

theorem adds_self : Adds self := adds_unchanged fun _ => ⟨rfl, rfl, rfl⟩

theorem adds_recover : Adds recover := adds_update fun _ => ⟨rfl, rfl, rfl⟩

theorem adds_refuse {p : Prop} [Decidable p] {refusal : Refusal} : Adds (Tx.refuse p refusal) :=
  (Tx.ensures_refuse (E := fun _ => True) fun _ => trivial).advances

theorem adds_demand {α : Type} {value : Option α} {refusal : Refusal} : Adds (demand value refusal) := by
  unfold demand
  split
  · exact adds_raise refusal
  · exact adds_pure _

theorem adds_hook {raises : Env → Bool} : Adds (hook raises) := Tx.advances_bind adds_draw fun _ => adds_refuse

theorem adds_orRecover {α : Type} {x : Op α} (adds : Adds x) : Adds (orRecover x) := by
  refine Tx.advances_bind (Tx.advances_attempt adds) fun result => ?_
  cases result with
  | ok answer => exact adds_pure answer
  | error refusal => exact Tx.advances_bind adds_recover fun _ => adds_raise refusal

theorem adds_locked {α : Type} {x : Op α} (adds : Adds x) : Adds (locked x) :=
  Tx.advances_bind adds_draw fun _ => Tx.advances_bind adds_refuse fun _ => adds

theorem adds_now : Adds now := by
  refine Tx.advances_bind adds_draw fun _ => Tx.advances_bind adds_self fun _ => ?_
  refine Tx.advances_bind adds_refuse fun _ => ?_
  exact Tx.advances_bind (adds_update fun _ => ⟨rfl, rfl, rfl⟩) fun _ => adds_pure _

theorem triple_any {α : Type} {P : Sys → Prop} {x : Op α} : Tx.Triple P x (fun _ _ => True) fun _ => True := by
  intro s _
  obtain ⟨refusal | answer, t⟩ := x s <;> trivial

/-- What follows takes no row back, and no operation off the record. -/
theorem triple_onward {α : Type} {x : Op α} (adds : Adds x) (φ : FakeAuthority → Prop)
    (kept : ∀ a b, φ a → a.Onward b → φ b) :
    Tx.Triple (fun s => φ s.authority) x (fun _ s => φ s.authority) fun _ => True := by
  intro s here
  have onward := (adds s).1
  generalize x s = ran at onward
  obtain ⟨refusal | answer, t⟩ := ran
  · trivial
  · exact kept _ _ here onward

theorem triple_said {α : Type} {x : Op α} (adds : Adds x) {document : Document} :
    Tx.Triple (fun s => document ∈ documents s.authority) x (fun _ s => document ∈ documents s.authority) fun _ => True :=
  triple_onward adds (fun a => document ∈ documents a) fun _ _ mem onward => onward.said mem

theorem triple_record {α : Type} {x : Op α} (adds : Adds x) :
    Tx.Triple (fun s => s.authority.OnRecord) x (fun _ s => s.authority.OnRecord) fun _ => True :=
  triple_onward adds FakeAuthority.OnRecord fun _ _ record onward => onward.record record

theorem journaled_of_find {a : FakeAuthority} {operationId : Id} {ack : InvalidationAck}
    (found : (a.rows.filterMap fun row => row.payload.ack?).reverse.find? (fun x => x.operationId = operationId) = some ack) :
    .ack ack ∈ documents a := by
  obtain ⟨row, mem, is⟩ := List.mem_filterMap.1 (List.mem_reverse.1 (List.mem_of_find?_eq_some found))
  refine List.mem_map.2 ⟨row, mem, ?_⟩
  generalize row.payload = d at is
  cases d <;> cases is
  rfl

/-- Whatever becomes of a write, the rows in memory are those of before, or one more. -/
theorem append_prefix {P : Type} (S : Scheme Id P) (file : File Id P) (rows : List (Chain.Row Id P)) (payload : P)
    (write : Write) : rows <+: (S.append file rows payload write).2.2 := by
  rcases S.append_cases file rows payload write with ⟨file', left, -⟩ | done
  · rw [left]
  · rw [done]
    exact List.prefix_append _ _

theorem adds_writeJournal (document : Document) (write : Write) : Adds (writeJournal g document write) := by
  refine .of_rel fun s => ?_
  have more := append_prefix g.journal s.files.journal s.authority.rows document write
  unfold writeJournal
  dsimp only
  split <;> exact .more more (List.prefix_refl _) rfl

theorem adds_writeLog (event : Event) (write : Write) : Adds (writeLog g event write) := by
  refine .of_rel fun s => ?_
  have more := append_prefix g.log s.files.log s.authority.witness.rows event write
  unfold writeLog
  dsimp only
  split <;> exact .more (List.prefix_refl _) more rfl

/-- What the witness makes of an event leaves its rows. -/
theorem adds_applied (event : Event) : Adds (do
    let a ← self
    let w ← demand (a.witness.apply event) (.port .observerUnavailable)
    update fun a => { a with witness := w }) := by
  refine .of_rel fun s => ?_
  rw [Tx.bind_apply]
  dsimp only [self]
  cases applied : s.authority.witness.apply event with
  | none => exact .refl _
  | some w =>
      refine .more (List.prefix_refl _) ?_ rfl
      show s.authority.witness.rows <+: w.rows
      rw [(apply_acceptances applied).2]

theorem adds_witness (event : Event) : Adds (witness g event) :=
  Tx.advances_bind adds_draw fun env => Tx.advances_bind (adds_writeLog event env.log) fun _ => adds_applied event

theorem adds_append (document : Document) : Adds (append g document) := by
  refine adds_orRecover ?_
  refine Tx.advances_bind adds_self fun _ => Tx.advances_bind adds_refuse fun _ => ?_
  refine Tx.advances_bind adds_hook fun _ => Tx.advances_bind adds_draw fun env => ?_
  refine Tx.advances_bind (adds_writeJournal document env.journal) fun row => ?_
  refine Tx.advances_bind adds_hook fun _ => Tx.advances_bind (adds_witness _) fun _ => ?_
  exact Tx.advances_bind adds_hook fun _ => adds_pure row

theorem adds_anyExpired (calls : List Call) : Adds (anyExpired calls) := by
  induction calls with
  | nil => exact adds_pure false
  | cons call rest ih =>
      refine Tx.advances_bind adds_now fun time => ?_
      split
      · exact adds_pure true
      · exact ih

theorem adds_checkOpen : Adds (checkOpen g) := by
  refine Tx.advances_bind adds_self fun a => Tx.advances_bind (adds_anyExpired a.calls) fun expired => ?_
  refine Tx.advances_bind (Tx.advances_when adds_recover) fun _ => ?_
  exact Tx.advances_bind adds_self fun _ => adds_refuse

end Parts

/-! ## Operations -/

section Operations

variable {g : Setting}

/-- A row that was appended is there. -/
theorem append_said (document : Document) :
    Tx.Triple (fun _ => True) (append g document) (fun _ s => document ∈ documents s.authority) (fun _ => True) := by
  refine triple_orRecover (F := fun _ => True) ?_ fun _ _ => trivial
  refine Tx.triple_bind triple_any fun _ => Tx.triple_bind triple_any fun _ => ?_
  refine Tx.triple_bind triple_any fun _ => Tx.triple_bind triple_any fun env => ?_
  refine Tx.triple_bind (Q := fun _ s => document ∈ documents s.authority) (fun s _ => ?_) fun row => ?_
  · unfold writeJournal
    dsimp only
    rcases g.journal.append_cases s.files.journal s.authority.rows document env.journal with ⟨file', left, -⟩ | done
    · rw [left]
      exact trivial
    · rw [done]
      exact List.mem_map.2 ⟨_, List.mem_append_right _ (List.mem_singleton_self _), rfl⟩
  refine Tx.triple_bind (triple_said adds_hook) fun _ => Tx.triple_bind (triple_said (adds_witness _)) fun _ => ?_
  exact Tx.triple_bind (triple_said adds_hook) fun _ => triple_said (adds_pure row)

/-- An acknowledgement, its row first. -/
theorem adds_acknowledged (ack : InvalidationAck) : Adds (do
    let _ ← append g (.ack ack)
    update fun a => { a with operations := assign InvalidationAck.operationId a.operations ack }
    pure ack) := by
  refine .of_rel fun s => ?_
  have onward := (adds_append (g := g) (.ack ack) s).1
  have said := append_said (g := g) (.ack ack) s trivial
  rw [Tx.bind_apply]
  generalize append g (.ack ack) s = ran at onward said
  obtain ⟨refusal | row, t⟩ := ran
  · exact onward
  · exact onward.trans (.acknowledge t.authority said)

theorem adds_recordObservation (contents : Contents) (eventId evidence : Option Id) :
    Adds (recordObservation g contents eventId evidence) := by
  refine Tx.advances_bind adds_draw fun _ => Tx.advances_bind adds_now fun _ => Tx.advances_bind adds_self fun _ => ?_
  refine Tx.advances_bind adds_refuse fun _ => Tx.advances_bind (adds_append _) fun _ => ?_
  exact Tx.advances_bind (adds_update fun _ => ⟨rfl, rfl, rfl⟩) fun _ => adds_pure _

theorem adds_appendObservation (contents : Contents) (eventId evidence : Option Id) :
    Adds (appendObservation g contents eventId evidence) := by
  refine Tx.advances_bind adds_self fun _ => Tx.advances_bind adds_demand fun _ => ?_
  split
  · exact Tx.advances_bind (Tx.advances_when adds_recover) fun _ => adds_raise _
  · exact adds_recordObservation contents eventId evidence

theorem adds_reuse (contents : Contents) (original : Observation) (asObservation : Bool) :
    Adds (reuse g contents original asObservation) := by
  unfold reuse
  split
  · exact adds_pure original
  refine Tx.advances_bind adds_recover fun _ => Tx.advances_bind ?_ fun conflict => ?_
  · refine Tx.advances_bind adds_self fun _ => ?_
    split
    · exact adds_pure _
    · exact adds_appendObservation _ none _
  · split
    · exact adds_pure conflict
    · exact adds_raise _

theorem adds_event (contents : Contents) (eventId : Option Id) (asObservation : Bool) :
    Adds (event g contents eventId asObservation) := by
  refine Tx.advances_bind adds_self fun _ => ?_
  split
  · exact adds_reuse contents _ asObservation
  · exact Tx.advances_bind (Tx.advances_when adds_recover) fun _ => adds_appendObservation contents eventId none

theorem adds_registerCall (key : ReservationKey) (run : Run) (admission : Admission) :
    Adds (registerCall g key run admission) := by
  refine Tx.advances_bind adds_refuse fun _ => Tx.advances_bind adds_refuse fun _ => adds_locked ?_
  refine Tx.advances_bind adds_checkOpen fun _ => Tx.advances_bind adds_self fun _ => ?_
  refine Tx.advances_bind adds_demand fun _ => Tx.advances_bind adds_refuse fun _ => ?_
  exact Tx.advances_bind (adds_append _) fun _ => adds_update fun _ => ⟨rfl, rfl, rfl⟩

theorem adds_writeCore (value : CoreEvidence) (write : Write) : Adds (writeCore value write) := by
  refine adds_unchanged fun s => ?_
  unfold writeCore
  dsimp only
  split
  · exact ⟨rfl, rfl, rfl⟩
  · cases write <;> exact ⟨rfl, rfl, rfl⟩

theorem adds_restoreOne (key : ReservationKey) (digest : Id) : Adds (restoreOne g key digest) := by
  refine adds_unchanged fun s => ?_
  unfold restoreOne
  split
  · next a' done =>
    obtain ⟨-, call, -, -, -, rfl⟩ := restoreCall_cases done
    exact ⟨rfl, rfl, rfl⟩
  · exact ⟨rfl, rfl, rfl⟩

theorem adds_registerReserved (key : ReservationKey) (core : BindingCore) (manifestDigest : Id) (run : Run)
    (reservation : Receipt) : Adds (registerReserved g key core manifestDigest run reservation) := by
  refine adds_locked (Tx.advances_bind adds_self fun _ => Tx.advances_bind adds_refuse fun _ => ?_)
  split
  · exact adds_refuse
  · refine Tx.advances_bind adds_refuse fun _ => Tx.advances_bind adds_draw fun env => ?_
    refine Tx.advances_bind (adds_writeCore _ env.core) fun _ => Tx.advances_bind (adds_append _) fun _ => ?_
    exact adds_restoreOne _ _

theorem adds_beginAcceptance (run : Run) (admission : Admission) (bodyDigest : Id) :
    Adds (beginAcceptance g run admission bodyDigest) := by
  refine adds_locked (Tx.advances_bind adds_checkOpen fun _ => Tx.advances_bind adds_self fun _ => ?_)
  refine Tx.advances_bind adds_demand fun _ => Tx.advances_bind adds_refuse fun _ => Tx.advances_bind adds_now fun _ => ?_
  refine Tx.advances_bind adds_refuse fun _ => Tx.advances_bind adds_refuse fun _ => Tx.advances_bind adds_draw fun _ => ?_
  exact Tx.advances_bind (adds_update fun _ => ⟨rfl, rfl, rfl⟩) fun _ => adds_pure _

theorem adds_issue (run : Run) (admission : Admission) (ticket : AcceptanceTicket) (markerEventId guardEpoch : Id) :
    Adds (issue g run admission ticket markerEventId guardEpoch) := by
  refine adds_locked (Tx.advances_bind adds_checkOpen fun _ => Tx.advances_bind adds_self fun _ => ?_)
  refine Tx.advances_bind adds_demand fun _ => Tx.advances_bind adds_refuse fun _ => Tx.advances_bind adds_now fun _ => ?_
  refine Tx.advances_bind adds_refuse fun _ => Tx.advances_bind adds_draw fun _ => ?_
  refine Tx.advances_bind (adds_update fun _ => ⟨rfl, rfl, rfl⟩) fun _ => Tx.advances_bind (adds_append _) fun _ => ?_
  exact Tx.advances_bind (adds_event _ none false) fun _ => adds_pure _

theorem adds_accept (permit : SendPermit) (eventId : Id) : Adds (accept g permit eventId) := by
  refine Tx.advances_bind (adds_witness _) fun _ => Tx.advances_bind adds_hook fun _ => ?_
  refine Tx.advances_bind adds_self fun _ => Tx.advances_bind adds_demand fun _ => ?_
  refine Tx.advances_bind (adds_event _ _ false) fun _ => Tx.advances_bind adds_hook fun _ => ?_
  refine Tx.advances_bind (Tx.advances_when ?_) fun _ => adds_pure _
  exact Tx.advances_bind (adds_event _ none false) fun _ => adds_pure _

theorem adds_consumeWrite (permit : SendPermit) (body : Id) : Adds (consumeWrite g permit body) := by
  refine adds_locked (Tx.advances_bind adds_checkOpen fun _ => Tx.advances_bind adds_self fun _ => ?_)
  refine Tx.advances_bind adds_demand fun _ => Tx.advances_bind adds_demand fun _ => Tx.advances_bind adds_refuse fun _ => ?_
  refine Tx.advances_bind adds_refuse fun _ => Tx.advances_bind adds_now fun _ => Tx.advances_bind adds_refuse fun _ => ?_
  refine Tx.advances_bind adds_draw fun env => Tx.advances_bind (adds_unchanged fun _ => ⟨rfl, rfl, rfl⟩) fun _ => ?_
  exact adds_orRecover (adds_accept permit env.uuid)

theorem adds_closeCall (key : ReservationKey) : Adds (closeCall g key) := by
  refine adds_locked (Tx.advances_bind adds_self fun _ => Tx.advances_bind adds_demand fun call => ?_)
  refine Tx.advances_bind (Tx.advances_when ?_) fun _ => Tx.advances_bind adds_self fun _ => adds_pure _
  refine Tx.advances_bind (adds_update fun _ => ⟨rfl, rfl, rfl⟩) fun _ => Tx.advances_bind adds_self fun _ => ?_
  split
  · exact adds_recover
  refine Tx.advances_bind (adds_event _ none false) fun _ => Tx.advances_bind adds_self fun _ => Tx.advances_when ?_
  exact Tx.advances_bind (adds_event _ none false) fun _ => adds_pure _

theorem adds_invalidate (ctx : InvalidationContext) (request : InvalidationRequest) : Adds (invalidate g ctx request) := by
  refine Tx.advances_bind adds_refuse fun _ => adds_locked ?_
  refine Tx.advances_bind adds_now fun _ => Tx.advances_bind adds_refuse fun _ => Tx.advances_bind adds_self fun _ => ?_
  split
  · unfold invalidateAgain
    split
    · exact Tx.advances_bind adds_recover fun _ => adds_raise _
    · exact adds_pure _
  · refine Tx.advances_bind (adds_update fun _ => ⟨rfl, rfl, rfl⟩) fun _ => Tx.advances_bind adds_self fun _ => ?_
    split
    · exact Tx.advances_bind adds_recover fun _ => adds_raise _
    exact Tx.advances_bind (adds_update fun _ => ⟨rfl, rfl, rfl⟩) fun _ => adds_acknowledged _

theorem adds_known (operationId : Id) : Adds (known operationId) := by
  refine .of_rel fun s => ?_
  unfold known
  rw [Tx.bind_apply]
  dsimp only [self]
  cases s.authority.operations.find? fun ack => ack.operationId = operationId with
  | some ack => exact .refl _
  | none =>
      cases found : (s.authority.rows.filterMap fun row => row.payload.ack?).reverse.find? fun ack =>
          ack.operationId = operationId with
      | none => exact .refl _
      | some ack => exact .acknowledge s.authority (journaled_of_find found)

theorem adds_lookup (ctx : InvalidationContext) (operationId operationDigest : Id) :
    Adds (lookup g ctx operationId operationDigest) := by
  refine adds_locked (Tx.advances_bind adds_refuse fun _ => Tx.advances_bind (adds_known operationId) fun _ => ?_)
  exact Tx.advances_bind adds_refuse fun _ => adds_pure _

theorem adds_resolve (ctx : InvalidationContext) (resolution : InvalidationResolution) (verified : Disposition × Option Id) :
    Adds (resolve g ctx resolution verified) := by
  refine adds_locked (Tx.advances_bind adds_refuse fun _ => Tx.advances_bind adds_self fun _ => ?_)
  refine Tx.advances_bind adds_demand fun old => Tx.advances_bind adds_refuse fun _ => Tx.advances_bind adds_refuse fun _ => ?_
  refine Tx.advances_bind adds_refuse fun _ => ?_
  split
  · exact Tx.advances_bind adds_refuse fun _ => adds_pure old
  · exact adds_acknowledged _

theorem adds_reopen (ctx : InvalidationContext) (request : ReopenRequest) (evidence : ReopenEvidence) :
    Adds (reopen g ctx request evidence) := by
  refine adds_locked (Tx.advances_bind adds_self fun _ => Tx.advances_bind adds_refuse fun _ => ?_)
  refine Tx.advances_bind adds_refuse fun _ => Tx.advances_bind adds_refuse fun _ => Tx.advances_bind adds_refuse fun _ => ?_
  refine Tx.advances_bind adds_refuse fun _ => Tx.advances_bind adds_now fun _ => Tx.advances_bind adds_refuse fun _ => ?_
  refine Tx.advances_bind adds_refuse fun _ => Tx.advances_bind (adds_append _) fun _ => ?_
  exact Tx.advances_bind (adds_update fun _ => ⟨rfl, rfl, rfl⟩) fun _ => adds_pure _

/-- **An operation only adds rows.** -/
theorem perform_onward (operation : Operation) : Adds (perform g operation) := by
  have unread {α : Type} {x : Op α} (adds : Adds x) : Adds (do let _ ← x) := Tx.advances_bind adds fun _ => adds_pure _
  cases operation with
  | qualifyAdmission => exact adds_locked adds_checkOpen
  | suspend => exact adds_locked adds_recover
  | registerCall key run admission => exact adds_registerCall key run admission
  | registerReserved key core manifestDigest run reservation =>
      exact adds_registerReserved key core manifestDigest run reservation
  | scriptFinal key usage terminal =>
      refine Tx.advances_bind adds_refuse fun _ => Tx.advances_bind adds_self fun _ => Tx.advances_bind adds_demand fun _ => ?_
      exact adds_update fun _ => ⟨rfl, rfl, rfl⟩
  | beginAcceptance run admission bodyDigest => exact unread (adds_beginAcceptance run admission bodyDigest)
  | issue run admission ticket markerEventId guardEpoch => exact unread (adds_issue run admission ticket markerEventId guardEpoch)
  | consumeWrite permit body => exact unread (adds_consumeWrite permit body)
  | closeCall key => exact unread (adds_closeCall key)
  | lateUsage key usage terminal eventId =>
      refine unread (adds_locked (Tx.advances_bind adds_self fun _ => Tx.advances_bind adds_refuse fun _ => ?_))
      refine Tx.advances_bind adds_demand fun _ => Tx.advances_bind adds_demand fun _ => ?_
      exact adds_event _ eventId true
  | observe scope event =>
      refine unread (adds_locked (Tx.advances_bind adds_self fun _ => Tx.advances_bind adds_refuse fun _ => ?_))
      exact Tx.advances_bind adds_demand fun _ => Tx.advances_bind adds_refuse fun _ => adds_pure _
  | qualifyConsumption permit =>
      refine adds_locked (Tx.advances_bind adds_checkOpen fun _ => Tx.advances_bind adds_self fun _ => ?_)
      exact Tx.advances_bind adds_refuse fun _ => adds_refuse
  | invalidate ctx request => exact unread (adds_invalidate ctx request)
  | lookup ctx operationId operationDigest => exact unread (adds_lookup ctx operationId operationDigest)
  | resolve ctx resolution verified => exact unread (adds_resolve ctx resolution verified)
  | reopen ctx request evidence => exact unread (adds_reopen ctx request evidence)

end Operations

/-! ## Processes -/

section Processes

variable {g : Setting}

/-- A new process has read the two files. -/
theorem start_rows {f : Files} {epoch observerEpoch : Id} {a' : FakeAuthority} {a : FakeAuthority} {taken : List Taken}
    (base : Base g a f taken) (started : FakeAuthority.start g f epoch observerEpoch = some a') :
    g.journal.load f.journal = some a'.rows ∧ g.log.load f.log = some a'.witness.rows ∧ a'.OnRecord := by
  unfold FakeAuthority.start at started
  obtain ⟨rows, loaded, started⟩ := Option.bind_eq_some_iff.1 started
  obtain ⟨logged, read, started⟩ := Option.bind_eq_some_iff.1 started
  obtain ⟨w, replayed, started⟩ := Option.bind_eq_some_iff.1 started
  obtain ⟨x, -, rfl⟩ := Option.map_eq_some_iff.1 replayed
  obtain ⟨restored, rows_, witness_⟩ := restored_of_rows base.cores (.nil rfl rfl rfl rfl (Nat.le_refl 1) rfl)
    (base.journal.read rows loaded).evidence started
  refine ⟨?_, ?_, fun ack mem => ?_⟩
  · rw [rows_]
    exact loaded
  · rw [witness_]
    exact read
  · rw [documents, rows_]
    exact restored.operations.mem ack mem

/-- **A new process finds the acknowledged rows where they were.** -/
theorem start_onward {f : Files} {epoch observerEpoch : Id} {a' : FakeAuthority} {a : FakeAuthority} {taken : List Taken}
    (base : Base g a f taken) (started : FakeAuthority.start g f epoch observerEpoch = some a') : a.Onward a' := by
  obtain ⟨loaded, read, record⟩ := start_rows base started
  exact ⟨(base.journal.lead _ loaded).1, (base.log.lead _ read).1, fun _ => record⟩

/-- The authority that ran last has the rows of `first`. -/
def World.Behind (g : Setting) (first : FakeAuthority) (w : World) : Prop :=
  ∃ a, Full g False a w.files w.taken ∧ (∀ b, w.process = some b → b = a) ∧ first.Onward a

theorem World.Behind.step {first : FakeAuthority} {w : World} (behind : w.Behind g first) (step : Step) :
    (w.step g step).Behind g first := by
  obtain ⟨a, full, running, onward⟩ := behind
  cases step with
  | start epoch observerEpoch =>
      cases started : FakeAuthority.start g w.files epoch observerEpoch with
      | none => exact ⟨a, full, fun b here => (by cases started.symm.trans here), onward⟩
      | some a' =>
          exact ⟨a', start_full full.base started, fun b here => Option.some.inj (here.symm.trans started),
            onward.trans (start_onward full.base started)⟩
  | stop => exact ⟨a, full, fun b here => (by cases here), onward⟩
  | call operation world =>
      rw [World.step]
      split
      · exact ⟨a, full, running, onward⟩
      · next authority here =>
        cases running authority here
        have added := (perform_onward (g := g) operation ⟨a, w.files, w.taken, world, 0⟩).1
        exact ⟨_, performed_full full operation fun never => never.elim, fun b there => (Option.some.inj there).symm,
          onward.trans added⟩

theorem World.behind_of_run {first : FakeAuthority} {w w' : World} {after : List Step} (later : (authorities g).Run w after w')
    (behind : w.Behind g first) : w'.Behind g first := by
  have keep (s : World) (step : Step) (t : World) (behind : s.Behind g first) (stepped : (authorities g).step s step t) :
      t.Behind g first := by
    rw [show t = s.step g step from stepped]
    exact behind.step step
  exact later.preserves keep behind

/-- A later process is onward of an earlier one. -/
theorem onward_of_runs {w w' : World} {before after : List Step} (first : (authorities g).Run World.new before w)
    (later : (authorities g).Run w after w') {a a' : FakeAuthority} (running : w.process = some a)
    (running' : w'.process = some a') : a.Onward a' := by
  obtain ⟨b, full, last⟩ := World.stood_of_run first fun never : False => never.elim
  cases last a running
  obtain ⟨c, -, last', onward⟩ := World.behind_of_run later ⟨a, full, last, .refl a⟩
  cases last' a' running'
  exact onward

theorem record_of_run {w : World} {trace : List Step} (run : (authorities g).Run World.new trace w) {a : FakeAuthority}
    (running : w.process = some a) : a.OnRecord := by
  obtain ⟨b, -, last, onward⟩ := World.behind_of_run run
    ⟨World.blank g, World.blank_full, fun b here => (by cases here), .refl (World.blank g)⟩
  cases last a running
  exact onward.record fun _ mem => by cases mem

/-- **What was acknowledged stays where it is**: whatever a process has in its journal and its witness in
its log, every later process has in the same places. -/
theorem rows_endure {w w' : World} {before after : List Step} (first : (authorities g).Run World.new before w)
    (later : (authorities g).Run w after w') {a a' : FakeAuthority} (running : w.process = some a)
    (running' : w'.process = some a') : a.rows <+: a'.rows ∧ a.witness.rows <+: a'.witness.rows := by
  have onward := onward_of_runs first later running running'
  exact ⟨onward.rows, onward.log⟩

/-- The next process starts behind the ten rows of the call and the invalidation. -/
theorem rows_endure_restart : ∃ a a', sampleWorld.process = some a ∧
    (sampleWorld.step sampleSetting (.start 3 4)).process = some a' ∧ a.rows.length = 10 ∧
    a.rows <+: a'.rows ∧ a.witness.rows <+: a'.witness.rows := by
  have shown : sampleWorld.process.map (fun a => a.rows.length) = some 10 := by decide +kernel
  have started : (sampleWorld.step sampleSetting (.start 3 4)).process.isSome = true := by decide +kernel
  obtain ⟨a, running, ten⟩ := Option.map_eq_some_iff.1 shown
  obtain ⟨a', running'⟩ := Option.isSome_iff_exists.1 started
  exact ⟨a, a', running, running', ten, rows_endure sample_run (.single rfl) running running'⟩

end Processes

/-! ## Answers -/

section Answers

variable {g : Setting}

/-- An operation, and what it answers as the journal has it. -/
def answered (g : Setting) : Operation → Op (List Document)
  | .registerCall key run admission => do
      registerCall g key run admission
      pure [.admission admission]
  | .issue run admission ticket markerEventId guardEpoch => do
      let permit ← issue g run admission ticket markerEventId guardEpoch
      pure [.permit permit]
  | .invalidate ctx request => do
      let ack ← invalidate g ctx request
      pure [.ack ack]
  | .lookup ctx operationId operationDigest => do
      let ack ← lookup g ctx operationId operationDigest
      pure [.ack ack]
  | .resolve ctx resolution verified => do
      let ack ← resolve g ctx resolution verified
      pure [.ack ack]
  | .reopen ctx request evidence => do
      let ack ← reopen g ctx request evidence
      pure [.gate ack]
  | operation => do
      perform g operation
      pure []

/-- It does what the operation does. -/
theorem answered_same (operation : Operation) (s : Sys) : (answered g operation s).2 = (perform g operation s).2 := by
  have read {α β : Type} (x : Op α) (f : α → β) : ((x >>= fun a => pure (f a)) s).2 = (x s).2 := by
    rw [Tx.bind_apply]
    generalize x s = ran
    obtain ⟨refusal | answer, t⟩ := ran <;> rfl
  cases operation with
  | registerCall key run admission => exact read _ _
  | issue run admission ticket markerEventId guardEpoch => exact (read _ _).trans (read _ _).symm
  | invalidate ctx request => exact (read _ _).trans (read _ _).symm
  | lookup ctx operationId operationDigest => exact (read _ _).trans (read _ _).symm
  | resolve ctx resolution verified => exact (read _ _).trans (read _ _).symm
  | reopen ctx request evidence => exact (read _ _).trans (read _ _).symm
  | _ => exact read _ _

/-- What holds of a run that returns. -/
abbrev Tells {α : Type} (P : Sys → Prop) (x : Op α) (said : α → Document) : Prop :=
  Tx.Triple P x (fun answer s => said answer ∈ documents s.authority) fun _ => True

theorem tells_self : Tx.Triple (fun s => s.authority.OnRecord) self (fun a s => a.OnRecord ∧ a = s.authority)
    fun _ => True := fun _ here => ⟨here, rfl⟩

theorem tells_pure {α : Type} (said : α → Document) (answer : α) :
    Tells (fun s => said answer ∈ documents s.authority) (pure answer) said := Tx.triple_pure fun _ here => here

theorem tells_demand {α : Type} {P : Sys → Prop} {value : Option α} {refusal : Refusal} :
    Tx.Triple P (demand value refusal) (fun x s => P s ∧ value = some x) fun _ => True := by
  unfold demand
  split
  · exact Tx.triple_raise fun _ _ => trivial
  · exact Tx.triple_pure fun _ here => ⟨here, rfl⟩

theorem tells_acknowledged {P : Sys → Prop} (ack : InvalidationAck) : Tells P (do
    let _ ← append g (.ack ack)
    update fun a => { a with operations := assign InvalidationAck.operationId a.operations ack }
    pure ack) Document.ack := by
  refine Tx.triple_bind ((append_said (.ack ack)).pre fun _ _ => trivial) fun _ => ?_
  exact Tx.triple_bind (Q := fun _ s => .ack ack ∈ documents s.authority) (Tx.triple_modify fun _ here => here)
    fun _ => tells_pure Document.ack ack

theorem tells_registerCall (key : ReservationKey) (run : Run) (admission : Admission) :
    Tells (fun _ => True) (registerCall g key run admission) fun _ => .admission admission := by
  refine Tx.triple_bind triple_any fun _ => Tx.triple_bind triple_any fun _ => Tx.triple_bind triple_any fun _ => ?_
  refine Tx.triple_bind triple_any fun _ => Tx.triple_bind triple_any fun _ => Tx.triple_bind triple_any fun _ => ?_
  refine Tx.triple_bind triple_any fun _ => Tx.triple_bind triple_any fun _ => ?_
  exact Tx.triple_bind (append_said _) fun _ => triple_said (adds_update fun _ => ⟨rfl, rfl, rfl⟩)

theorem tells_issue (run : Run) (admission : Admission) (ticket : AcceptanceTicket) (markerEventId guardEpoch : Id) :
    Tells (fun _ => True) (issue g run admission ticket markerEventId guardEpoch) Document.permit := by
  refine Tx.triple_bind triple_any fun _ => Tx.triple_bind triple_any fun _ => Tx.triple_bind triple_any fun _ => ?_
  refine Tx.triple_bind triple_any fun _ => Tx.triple_bind triple_any fun _ => Tx.triple_bind triple_any fun _ => ?_
  refine Tx.triple_bind triple_any fun _ => Tx.triple_bind triple_any fun _ => Tx.triple_bind triple_any fun _ => ?_
  dsimp only
  refine Tx.triple_bind triple_any fun _ => Tx.triple_bind (append_said _) fun _ => ?_
  exact Tx.triple_bind (triple_said (adds_event _ none false)) fun _ => tells_pure Document.permit _

theorem tells_invalidate (ctx : InvalidationContext) (request : InvalidationRequest) :
    Tells (fun s => s.authority.OnRecord) (invalidate g ctx request) Document.ack := by
  refine Tx.triple_bind (triple_record adds_refuse) fun _ => Tx.triple_bind (triple_record adds_draw) fun _ => ?_
  refine Tx.triple_bind (triple_record adds_refuse) fun _ => Tx.triple_bind (triple_record adds_now) fun _ => ?_
  refine Tx.triple_bind (triple_record adds_refuse) fun _ => Tx.triple_bind tells_self fun a => ?_
  split
  · next old found =>
    unfold invalidateAgain
    split
    · exact Tx.triple_bind triple_any fun _ => Tx.triple_raise fun _ _ => trivial
    · refine Tx.triple_pure ?_
      rintro s ⟨record, rfl⟩
      exact record old (List.mem_of_find?_eq_some found)
  · refine Tx.triple_bind triple_any fun _ => Tx.triple_bind triple_any fun b => ?_
    split
    · exact Tx.triple_bind triple_any fun _ => Tx.triple_raise fun _ _ => trivial
    · exact Tx.triple_bind triple_any fun _ => tells_acknowledged _

theorem tells_known (operationId : Id) : Tells (fun s => s.authority.OnRecord) (known operationId) Document.ack := by
  refine Tx.triple_bind tells_self fun a => ?_
  split
  · next old found =>
    refine Tx.triple_pure ?_
    rintro s ⟨record, rfl⟩
    exact record old (List.mem_of_find?_eq_some found)
  · refine Tx.triple_bind tells_demand fun ack => Tx.triple_fact fun found => ?_
    refine Tx.triple_bind (Q := fun _ s => .ack ack ∈ documents s.authority) (Tx.triple_modify ?_)
      fun _ => tells_pure Document.ack ack
    rintro s ⟨-, rfl⟩
    exact journaled_of_find found

theorem tells_lookup (ctx : InvalidationContext) (operationId operationDigest : Id) :
    Tells (fun s => s.authority.OnRecord) (lookup g ctx operationId operationDigest) Document.ack := by
  refine Tx.triple_bind (triple_record adds_draw) fun _ => Tx.triple_bind (triple_record adds_refuse) fun _ => ?_
  refine Tx.triple_bind (triple_record adds_refuse) fun _ => Tx.triple_bind (tells_known operationId) fun ack => ?_
  exact Tx.triple_bind (triple_said adds_refuse) fun _ => tells_pure Document.ack ack

theorem tells_resolve (ctx : InvalidationContext) (resolution : InvalidationResolution) (verified : Disposition × Option Id) :
    Tells (fun s => s.authority.OnRecord) (resolve g ctx resolution verified) Document.ack := by
  refine Tx.triple_bind (triple_record adds_draw) fun _ => Tx.triple_bind (triple_record adds_refuse) fun _ => ?_
  refine Tx.triple_bind (triple_record adds_refuse) fun _ => Tx.triple_bind tells_self fun a => ?_
  refine Tx.triple_bind (Q := fun old s => .ack old ∈ documents s.authority) (tells_demand.post ?_) fun old => ?_
  · rintro old s ⟨⟨record, rfl⟩, found⟩
    exact record old (List.mem_of_find?_eq_some found)
  refine Tx.triple_bind (triple_said adds_refuse) fun _ => Tx.triple_bind (triple_said adds_refuse) fun _ => ?_
  refine Tx.triple_bind (triple_said adds_refuse) fun _ => ?_
  split
  · exact Tx.triple_bind (triple_said adds_refuse) fun _ => tells_pure Document.ack old
  · exact tells_acknowledged _

theorem tells_reopen (ctx : InvalidationContext) (request : ReopenRequest) (evidence : ReopenEvidence) :
    Tells (fun _ => True) (reopen g ctx request evidence) Document.gate := by
  refine Tx.triple_bind triple_any fun _ => Tx.triple_bind triple_any fun _ => Tx.triple_bind triple_any fun _ => ?_
  refine Tx.triple_bind triple_any fun _ => Tx.triple_bind triple_any fun _ => Tx.triple_bind triple_any fun _ => ?_
  refine Tx.triple_bind triple_any fun _ => Tx.triple_bind triple_any fun _ => Tx.triple_bind triple_any fun _ => ?_
  refine Tx.triple_bind triple_any fun _ => Tx.triple_bind triple_any fun _ => ?_
  dsimp only
  refine Tx.triple_bind (append_said _) fun _ => ?_
  exact Tx.triple_bind (triple_said (adds_update fun _ => ⟨rfl, rfl, rfl⟩)) fun _ => tells_pure Document.gate _

/-- **What an operation answers is in the journal.** -/
theorem answered_said (operation : Operation) : Tx.Triple (fun s => s.authority.OnRecord) (answered g operation)
    (fun ds s => ∀ d ∈ ds, d ∈ documents s.authority) fun _ => True := by
  have one {α : Type} {P : Sys → Prop} {x : Op α} {said : α → Document} (tells : Tells P x said)
      (before : ∀ s : Sys, s.authority.OnRecord → P s) : Tx.Triple (fun s => s.authority.OnRecord) (do
        let answer ← x
        pure [said answer]) (fun ds s => ∀ d ∈ ds, d ∈ documents s.authority) fun _ => True := by
    refine Tx.triple_bind (tells.pre before) fun answer => Tx.triple_pure fun s here d mem => ?_
    rw [List.mem_singleton.1 mem]
    exact here
  have none_ {x : Op Unit} : Tx.Triple (fun s => s.authority.OnRecord) (do
      x
      pure []) (fun ds s => ∀ d ∈ ds, d ∈ documents s.authority) fun _ => True :=
    Tx.triple_bind triple_any fun _ => Tx.triple_pure fun _ _ d mem => by cases mem
  cases operation with
  | registerCall key run admission => exact one (tells_registerCall key run admission) fun _ _ => trivial
  | issue run admission ticket markerEventId guardEpoch =>
      exact one (tells_issue run admission ticket markerEventId guardEpoch) fun _ _ => trivial
  | invalidate ctx request => exact one (tells_invalidate ctx request) fun _ record => record
  | lookup ctx operationId operationDigest => exact one (tells_lookup ctx operationId operationDigest) fun _ record => record
  | resolve ctx resolution verified => exact one (tells_resolve ctx resolution verified) fun _ record => record
  | reopen ctx request evidence => exact one (tells_reopen ctx request evidence) fun _ _ => trivial
  | _ => exact none_

/-- **No answer is taken back**: the admission an operation has registered, and the permit, acknowledgement
or gate it has answered, is in the journal of every later process. -/
theorem answers_endure {w w' : World} {before after : List Step} (first : (authorities g).Run World.new before w)
    {a : FakeAuthority} (running : w.process = some a) {operation : Operation} {world : Nat → Env} {ds : List Document}
    {s : Sys}
    (answer : answered g operation ⟨a, w.files, w.taken, world, 0⟩ = (.ok ds, s))
    (later : (authorities g).Run (w.step g (.call operation world)) after w') {a' : FakeAuthority}
    (running' : w'.process = some a') : ∀ d ∈ ds, d ∈ documents a' := by
  have said : Tx.Ended (fun (ds : List Document) (s : Sys) => ∀ d ∈ ds, d ∈ documents s.authority) (fun _ => True)
      (answered g operation ⟨a, w.files, w.taken, world, 0⟩) :=
    answered_said (g := g) operation ⟨a, w.files, w.taken, world, 0⟩ (record_of_run first running)
  have same := answered_same (g := g) operation ⟨a, w.files, w.taken, world, 0⟩
  rw [answer] at said same
  have left : (w.step g (.call operation world)).process = some s.authority := by
    rw [World.step, running]
    dsimp only
    rw [← same]
  have onward := onward_of_runs (first.snoc rfl) later left running'
  exact fun d mem => onward.said (said d mem)

/-- The operation is looked up, and the next process still has it. -/
theorem answers_endure_lookup : ∃ (ds : List Document) (a' : FakeAuthority),
    ((sampleWorld.step sampleSetting (.call (.lookup ⟨6, 9, 400⟩ 40 41) (quiet 1200))).step sampleSetting
      (.start 3 4)).process = some a' ∧ ds.length = 1 ∧ ∀ d ∈ ds, d ∈ documents a' := by
  have shown : (sampleWorld.process.bind fun a => (answered sampleSetting (.lookup ⟨6, 9, 400⟩ 40 41)
      ⟨a, sampleWorld.files, sampleWorld.taken, quiet 1200, 0⟩).1.toOption).map List.length = some 1 := by decide +kernel
  have started : ((sampleWorld.step sampleSetting (.call (.lookup ⟨6, 9, 400⟩ 40 41) (quiet 1200))).step sampleSetting
      (.start 3 4)).process.isSome = true := by decide +kernel
  obtain ⟨ds, answers, one⟩ := Option.map_eq_some_iff.1 shown
  obtain ⟨a, running, answer⟩ := Option.bind_eq_some_iff.1 answers
  obtain ⟨a', running'⟩ := Option.isSome_iff_exists.1 started
  have returned : answered sampleSetting (.lookup ⟨6, 9, 400⟩ 40 41)
      ⟨a, sampleWorld.files, sampleWorld.taken, quiet 1200, 0⟩ =
      (.ok ds, (answered sampleSetting (.lookup ⟨6, 9, 400⟩ 40 41)
        ⟨a, sampleWorld.files, sampleWorld.taken, quiet 1200, 0⟩).2) := by
    generalize answered sampleSetting _ _ = ran at answer ⊢
    obtain ⟨refusal | ds', s⟩ := ran <;> cases answer
    rfl
  exact ⟨ds, a', running', one, answers_endure sample_run running returned (.single rfl) running'⟩

end Answers

end ApiSecurityPlatform.Authority.Endpoint
