/-
# Authority.Endpoint -- the fake authority, its endpoint and the endpoint's witness

`FakeAuthority` journals what it decides before it acknowledges it, and has its witness take note
of every row; the witness alone counts the bodies that were accepted.  A process starts from the
journal, the witness's log and the files of the calls, and nothing else: tickets and open gates
are gone, permits come back revoked.

An operation holds the lock A and keeps what it has written when it raises.  What it learns from
outside (the clock, identifiers, a hook that raises, what became of a write) are the turns of its
`world`.  The rows are those of `Theory.Chain`; how a row becomes a frame is `Authority.Journal`.
-/
import ApiSecurityPlatform.Accounting.Ledger
import ApiSecurityPlatform.Authority.Records
import ApiSecurityPlatform.Theory.Chain
import ApiSecurityPlatform.Theory.Keyed
import ApiSecurityPlatform.Theory.Triple

namespace ApiSecurityPlatform.Authority.Endpoint

open ApiSecurityPlatform.Theory
open ApiSecurityPlatform.Theory.Chain
open ApiSecurityPlatform.Accounting (Id PortCode ReservationKey BindingCore Receipt UsageView Terminal Observation
  ObservationKind)

set_option autoImplicit false
set_option linter.dupNamespace false

/-! ## What is recorded -/

inductive Refusal where
  | port (code : PortCode)
  | authorityUnavailable
  /-- A `KeyError` or `StopIteration`. -/
  | missing
  /-- An `OSError`. -/
  | os
  /-- Whatever a hook raises. -/
  | raised
deriving DecidableEq, Repr

/-- `GateAck`; its state is always `OPEN`. -/
structure GateAck where
  deploymentRef : Id
  authorityEpoch : Id
  acceptanceGeneration : Nat
  barrierSequence : Nat
  eventDigest : Id
deriving DecidableEq, Repr

/-- `WriteAck`. -/
structure WriteAck where
  permitId : Id
  eventId : Id
  sequence : Nat
  acceptedAt : Int
deriving DecidableEq, Repr

/-- `ReopenRequest`; `rest` stands for the digests that are only compared with it. -/
structure ReopenRequest where
  deploymentRef : Id
  recoveryDecisionId : Id
  expectedAuthorityEpoch : Id
  expectedAcceptanceGeneration : Nat
  rest : Id
deriving DecidableEq, Repr

/-- What a recovery shows. -/
structure ReopenEvidence where
  request : ReopenRequest
  checkedAt : Int
  expiresAt : Int
  pendingDigest : Id
deriving DecidableEq, Repr

/-- The file `core_` of a call. -/
structure CoreEvidence where
  key : ReservationKey
  core : BindingCore
  run : Run
  admission : Option Admission
  reservation : Receipt
  manifestDigest : Id
deriving DecidableEq

/-- What the journal holds. -/
inductive Document where
  /-- `CallEvidence`. -/
  | evidence (key : ReservationKey) (evidenceDigest : Id)
  | admission (record : Admission)
  | permit (record : SendPermit)
  | observation (record : Observation)
  | ack (record : InvalidationAck)
  | gate (record : GateAck)
deriving DecidableEq

namespace Document

def evidence? : Document → Option ReservationKey
  | .evidence key _ => some key
  | _ => none

def observation? : Document → Option Observation
  | .observation record => some record
  | _ => none

def ack? : Document → Option InvalidationAck
  | .ack record => some record
  | _ => none

/-- `payload.get('acceptance_generation', 1)`. -/
def generation : Document → Nat
  | .permit record => record.acceptanceGeneration
  | .observation record => record.acceptanceGeneration
  | .ack record => record.acceptanceGeneration
  | .gate record => record.acceptanceGeneration
  | .evidence _ _ | .admission _ => 1

end Document

/-- What the witness logs. -/
inductive Event where
  | accepted (key : ReservationKey) (eventId bodyDigest : Id)
  | head (sequence : Nat) (digest : Id)
deriving DecidableEq

/-- The reservation key and event of a body that was accepted. -/
structure Acceptance where
  key : ReservationKey
  eventId : Id
deriving DecidableEq

/-- `EndpointWitness`, with the rows of its journal. -/
structure Witness where
  rows : List (Row Id Event)
  acceptances : List Acceptance
  headSequence : Nat
  headDigest : Id

/-- `accepted[key]`. -/
def Witness.accepted (w : Witness) (key : ReservationKey) : Nat := w.acceptances.countP fun a => a.key = key

inductive State where
  | recoveryRequired
  | opened
  | closed
deriving DecidableEq, Repr

/-- An item of `calls`, and of `core_evidence`. -/
structure Call where
  key : ReservationKey
  evidence : CoreEvidence
  bodyDigest : Id
  owner : Nat
  expiry : Int
  admission : Option Admission
  closed : Bool
  cancelled : Bool
  marked : Bool
  events : Nat
  usage : UsageView
  terminal : Terminal

/-- An item of `permits`. -/
structure Permit where
  record : SendPermit
  consumed : Bool
  revoked : Bool
deriving DecidableEq

structure FakeAuthority where
  rows : List (Row Id Document)
  witness : Witness
  epoch : Id
  observerEpoch : Id
  generation : Nat
  state : State
  operations : List InvalidationAck
  tickets : List AcceptanceTicket
  permits : List Permit
  calls : List Call
  observations : List Observation
  lastWall : Option Int

structure Setting where
  deployment : Id
  fingerprint : BindingCore → Id
  /-- `sha256(body)`. -/
  digest : Id → Id
  /-- `sha256` of a call's file. -/
  coreDigest : CoreEvidence → Id
  /-- Whether it has at most 32768 bytes. -/
  coreFits : CoreEvidence → Bool
  observationDigest : Observation → Id
  /-- `sha256(canonical(sorted(...)))`. -/
  pendingDigest : List (Id × Id × Disposition) → Id
  journal : Scheme Id Document
  log : Scheme Id Event
  /-- `usage_view(ZERO_USAGE)`. -/
  zeroUsage : UsageView

/-- What the processes leave; a call's file that was not written out reads as `none`. -/
structure Files where
  journal : File Id Document
  log : File Id Event
  cores : List (ReservationKey × Option CoreEvidence)

/-- One answer of the outside. -/
structure Env where
  wall : Int
  /-- A. -/
  acquired : Bool
  uuid : Id
  beforeJournal : Bool
  journal : Write
  afterFsync : Bool
  log : Write
  beforeAck : Bool
  /-- Any other hook. -/
  hook : Bool
  core : Write

/-- A body the endpoint took, and the authority at that moment. -/
structure Taken where
  authority : FakeAuthority
  permit : SendPermit
  body : Id

structure Sys where
  authority : FakeAuthority
  files : Files
  /-- `endpoint_bodies`, of every process. -/
  taken : List Taken
  world : Nat → Env
  turn : Nat

abbrev Op (α : Type) := Tx Refusal Sys α

/-! ## A process starts -/

namespace Witness

/-- `_apply`. -/
def apply (w : Witness) : Event → Option Witness
  | .accepted key eventId _ =>
      if w.acceptances.any fun a => a.eventId = eventId then none
      else some { w with acceptances := w.acceptances ++ [⟨key, eventId⟩] }
  | .head sequence digest =>
      if w.headSequence < sequence then some { w with headSequence := sequence, headDigest := digest } else none

/-- `_apply`, of every row. -/
def applied (g : Setting) (rows : List (Row Id Event)) : Option Witness :=
  rows.foldlM (fun w row => w.apply row.payload) ⟨[], [], 0, g.log.zero⟩

/-- `EndpointWitness.__init__`, behind its journal. -/
def replay (g : Setting) (rows : List (Row Id Event)) : Option Witness :=
  (applied g rows).map fun w => { w with rows := rows }

end Witness

/-- `_restore_call`. -/
def restoreCall (g : Setting) (cores : List (ReservationKey × Option CoreEvidence)) (key : ReservationKey)
    (evidenceDigest : Id) (a : FakeAuthority) : Option FakeAuthority := do
  let file ← cores.lookup key
  let value ← file
  if ¬ (g.coreDigest value = evidenceDigest) then none
  else if ¬ (value.key = key ∧ g.fingerprint value.core = key.coreDigest ∧ value.core.scope = key.scope ∧
      key = value.reservation.key ∧ value.run.context.scope = key.scope ∧ value.run.context.callRef = key.callRef ∧
      value.run.context.ownerGeneration = value.reservation.ownerGeneration) then none
  else if ¬ (∀ record ∈ value.admission, record.key = key ∧
      record.ownerGeneration = value.run.context.ownerGeneration) then none
  else
    let call : Call := ⟨key, value, value.core.bodyDigest, value.run.context.ownerGeneration,
      min value.run.context.deadlineAt value.core.expiresAt, value.admission, false, false, false, 0, .unknown, .unknown⟩
    some { a with calls := assign Call.key a.calls call }

/-- What an observation of the journal says of its call. -/
def Call.observed (c : Call) (record : Observation) : Call :=
  { c with
    events := c.events + 1
    closed := c.closed || decide (record.kind = .streamClosed)
    marked := c.marked || decide (record.kind = .permitIssued ∨ record.kind = .writeAccepted) }

namespace FakeAuthority

def call? (a : FakeAuthority) (key : ReservationKey) : Option Call := a.calls.find? fun c => c.key = key

def permit? (a : FakeAuthority) (permitId : Id) : Option Permit := a.permits.find? fun p => p.record.permitId = permitId

def onCall (a : FakeAuthority) (key : ReservationKey) (f : Call → Call) : FakeAuthority :=
  { a with calls := amend Call.key a.calls key f }

/-- An observation of the journal. -/
def restoreObservation (a : FakeAuthority) (sequence : Nat) (record : Observation) : Option FakeAuthority :=
  if (a.observations.any fun o => o.eventId = record.eventId) ∨ record.sequence ≠ sequence then none
  else if (a.call? record.key).isNone then none
  else if record.kind = .writeAccepted ∧ ((record.permitId.bind a.permit?).isNone) then none
  else
    some { a with
      observations := a.observations ++ [record]
      calls := amend Call.key a.calls record.key fun c => c.observed record
      permits := if record.kind = .writeAccepted then
        amend (fun p => some p.record.permitId) a.permits record.permitId fun p => { p with consumed := true }
      else a.permits }

/-- One row of `__init__`. -/
def restoreRow (g : Setting) (cores : List (ReservationKey × Option CoreEvidence)) (a : FakeAuthority)
    (row : Row Id Document) : Option FakeAuthority :=
  let a := { a with generation := max a.generation row.payload.generation }
  match row.payload with
  | .ack record => some { a with operations := assign InvalidationAck.operationId a.operations record }
  | .evidence key evidenceDigest => restoreCall g cores key evidenceDigest a
  | .admission record =>
      match a.call? record.key with
      | some call => if call.admission.isSome then none
          else some (a.onCall record.key fun c => { c with admission := some record })
      | none => none
  | .permit record => some { a with permits := assign (fun p => p.record.permitId) a.permits ⟨record, false, true⟩ }
  | .observation record => a.restoreObservation row.sequence record
  | .gate _ => some a

/-- `__init__`, on what the journal and the witness have read. -/
def restore (g : Setting) (cores : List (ReservationKey × Option CoreEvidence)) (rows : List (Row Id Document))
    (witness : Witness) (epoch observerEpoch : Id) : Option FakeAuthority :=
  rows.foldlM (restoreRow g cores) ⟨rows, witness, epoch, observerEpoch, 1, .recoveryRequired, [], [], [], [], [], none⟩

/-- `Journal`, `EndpointWitness` and `FakeAuthority` of a new process. -/
def start (g : Setting) (files : Files) (epoch observerEpoch : Id) : Option FakeAuthority := do
  let rows ← g.journal.load files.journal
  let logged ← g.log.load files.log
  let witness ← Witness.replay g logged
  restore g files.cores rows witness epoch observerEpoch

/-! ## What it checks -/

/-- The observations among the rows, each with its row's number. -/
def logged (rows : List (Row Id Document)) : List (Nat × Observation) :=
  rows.filterMap fun row => row.payload.observation?.map fun o => (row.sequence, o)

/-- The journal is where the witness has seen it. -/
def level (g : Setting) (a : FakeAuthority) : Bool :=
  a.rows.length = a.witness.headSequence && g.journal.head a.rows = a.witness.headDigest

/-- `coverage`. -/
def coverage (g : Setting) (a : FakeAuthority) : Bool :=
  a.level g && decide ((logged a.rows).map fun r => r.2.eventId).Nodup && (logged a.rows).all (fun r => r.2.sequence = r.1) &&
    (a.observations.all fun o => o.kind ≠ .writeAccepted || a.witness.acceptances.any fun x => x.eventId = o.eventId) &&
    (a.witness.acceptances.all fun x => a.observations.any fun o => o.kind = .writeAccepted && o.eventId = x.eventId) &&
    (a.observations.all fun o => (logged a.rows).any fun r => r.2 = o) &&
    (logged a.rows).all fun r => a.observations.any fun o => o.eventId = r.2.eventId

end FakeAuthority

/-! ## Parts of the operations -/

section Parts

def draw : Op Env := fun s => (.ok (s.world s.turn), { s with turn := s.turn + 1 })

def self : Op FakeAuthority := fun s => (.ok s.authority, s)

def update (f : FakeAuthority → FakeAuthority) : Op Unit := Tx.modify fun s => { s with authority := f s.authority }

def check (condition : Prop) [Decidable condition] (code : PortCode) : Op Unit := Tx.refuse (¬ condition) (.port code)

/-- What is there, or an error. -/
def demand {α : Type} (value : Option α) (refusal : Refusal) : Op α :=
  match value with
  | none => Tx.raise refusal
  | some a => pure a

def hook (raises : Env → Bool) : Op Unit := do
  let env ← draw
  Tx.refuse (raises env = true) .raised

def recover : Op Unit := update fun a => { a with state := .recoveryRequired }

/-- `except BaseException: self.state = 'RECOVERY_REQUIRED'; raise`. -/
def orRecover {α : Type} (x : Op α) : Op α := do
  let result ← Tx.attempt x
  match result with
  | .ok a => pure a
  | .error refusal => do
      recover
      Tx.raise refusal

/-- `locked`. -/
def locked {α : Type} (x : Op α) : Op α := do
  let env ← draw
  check (env.acquired = true) .observerUnavailable
  x

/-- `now`. -/
def now : Op Int := do
  let env ← draw
  let a ← self
  check (∀ wall ∈ a.lastWall, wall ≤ env.wall) .contextChanged
  update fun a => { a with lastWall := some env.wall }
  pure env.wall

variable (g : Setting)

/-- `journal.append`. -/
def writeJournal (document : Document) (write : Write) : Op (Row Id Document) := fun s =>
  let result := g.journal.append s.files.journal s.authority.rows document write
  let s := { s with authority := { s.authority with rows := result.2.2 }, files := { s.files with journal := result.2.1 } }
  match result.1 with
  | some row => (.ok row, s)
  | none => (.error (.port .observerUnavailable), s)

/-- `journal.append` of the witness. -/
def writeLog (event : Event) (write : Write) : Op Unit := fun s =>
  let result := g.log.append s.files.log s.authority.witness.rows event write
  let s := { s with
    authority := { s.authority with witness := { s.authority.witness with rows := result.2.2 } }
    files := { s.files with log := result.2.1 } }
  match result.1 with
  | some _ => (.ok (), s)
  | none => (.error (.port .observerUnavailable), s)

/-- `witness.head` and `witness.accepted_once`. -/
def witness (event : Event) : Op Unit := do
  let env ← draw
  writeLog g event env.log
  let a ← self
  let w ← demand (a.witness.apply event) (.port .observerUnavailable)
  update fun a => { a with witness := w }

def journalRow (document : Document) : Op (Row Id Document) := do
  let a ← self
  check (a.level g = true) .observerUnavailable
  hook Env.beforeJournal
  let env ← draw
  let row ← writeJournal g document env.journal
  hook Env.afterFsync
  witness g (.head row.sequence row.digest)
  hook Env.beforeAck
  pure row

/-- `_append`. -/
def append (document : Document) : Op (Row Id Document) := orRecover (journalRow g document)

/-- `any(self.now() >= call['expiry'] + timedelta(days=90) for call in self.calls.values())`. -/
def anyExpired : List Call → Op Bool
  | [] => pure false
  | call :: rest => do
      let time ← now
      if call.expiry + 7776000000000 ≤ time then pure true else anyExpired rest

/-- `_open`. -/
def checkOpen : Op Unit := do
  let a ← self
  let expired ← anyExpired a.calls
  Tx.when (expired = true) recover
  let a ← self
  check (a.state = .opened ∧ a.coverage g = true) .observerUnavailable

/-- What an observation says; the producer owns its envelope. -/
structure Contents where
  key : ReservationKey
  callRef : Id
  ownerGeneration : Nat
  kind : ObservationKind
  permitId : Option Id
  bodyDigest : Id
  terminal : Terminal
  usage : UsageView
deriving DecidableEq

def contentsOf (o : Observation) : Contents :=
  ⟨o.key, o.callRef, o.ownerGeneration, o.kind, o.permitId, o.bodyDigest, o.terminal, o.usage⟩

/-- `64 if kind in (...) else 56`. -/
def eventLimit : ObservationKind → Nat
  | .streamClosed | .zeroProven | .conflict | .coverageGap => 64
  | .permitIssued | .writeAccepted | .finalUsage => 56

/-- The event of `_append_observation`, in the envelope of the moment. -/
def enveloped (a : FakeAuthority) (contents : Contents) (eventId : Id) (time : Int) (evidence : Option Id) : Observation :=
  ⟨contents.key, contents.callRef, eventId, a.observerEpoch, a.epoch, a.generation, a.rows.length + 1,
    contents.ownerGeneration, contents.kind, contents.permitId, contents.bodyDigest, time, contents.terminal,
    contents.usage, evidence.getD (g.journal.head a.rows)⟩

/-- `_append_observation`, below the limit. -/
def recordObservation (contents : Contents) (eventId evidence : Option Id) : Op Observation := do
  let env ← draw
  let time ← now
  let a ← self
  let event := enveloped g a contents (eventId.getD env.uuid) time evidence
  check (a.observations.any (fun o => o.eventId = event.eventId) = false) .conflict
  let _ ← append g (.observation event)
  update fun a => { a with observations := a.observations ++ [event] }.onCall contents.key fun c =>
    { c with events := c.events + 1 }
  pure event

/-- `_append_observation`. -/
def appendObservation (contents : Contents) (eventId evidence : Option Id) : Op Observation := do
  let a ← self
  let call ← demand (a.call? contents.key) .missing
  if eventLimit contents.kind ≤ call.events then do
    Tx.when (a.state = .opened) recover
    Tx.raise (.port .limitExceeded)
  else recordObservation g contents eventId evidence

/-- The conflict between an observation and contents that claim its identifier. -/
def conflictOf (contents : Contents) (original : Observation) : Op Observation := do
  let a ← self
  match a.observations.find? fun o => o.kind = .conflict && o.evidenceDigest = g.observationDigest original &&
      contentsOf o = { contents with kind := .conflict } with
  | some known => pure known
  | none => appendObservation g { contents with kind := .conflict } none (some (g.observationDigest original))

/-- `_event`, of an identifier that is taken. -/
def reuse (contents : Contents) (original : Observation) (asObservation : Bool) : Op Observation :=
  if contentsOf original = contents then pure original
  else do
    recover
    let conflict ← conflictOf g contents original
    if asObservation = true then pure conflict else Tx.raise (.port .conflict)

/-- A final usage that another one contradicts. -/
def contradicted (a : FakeAuthority) (contents : Contents) : Bool :=
  contents.kind = .finalUsage && a.state = .opened && a.observations.any fun o =>
    o.kind = .finalUsage && o.key = contents.key && !(o.usage = contents.usage && o.terminal = contents.terminal)

/-- `_event`. -/
def event (contents : Contents) (eventId : Option Id) (asObservation : Bool) : Op Observation := do
  let a ← self
  match eventId.bind fun i => a.observations.find? fun o => o.eventId = i with
  | some original => reuse g contents original asObservation
  | none => do
      Tx.when (contradicted a contents = true) recover
      appendObservation g contents eventId none

/-- The contents of an event of a call. -/
def contentsFor (call : Call) (permit : Option SendPermit) (kind : ObservationKind) (usage : UsageView)
    (terminal : Terminal) : Contents :=
  ⟨call.key, call.key.callRef, call.owner, kind, permit.map SendPermit.permitId, call.bodyDigest, terminal, usage⟩

end Parts

/-! ## Operations -/

section Operations

variable (g : Setting)

/-- `qualify_admission`. -/
def qualifyAdmission : Op Unit := locked (checkOpen g)

/-- `suspend`. -/
def suspend : Op Unit := locked recover

/-- `register_call`. -/
def registerCall (key : ReservationKey) (run : Run) (admission : Admission) : Op Unit := do
  check (key.scope = run.context.scope ∧ key.callRef = run.context.callRef ∧ admission.key = key) .invalidRecord
  check (admission.ownerGeneration = run.context.ownerGeneration) .invalidRecord
  locked do
    checkOpen g
    let a ← self
    let call ← demand (a.call? key) (.port .conflict)
    check (call.admission = none ∧ call.closed = false ∧ call.owner = run.context.ownerGeneration) .conflict
    let _ ← append g (.admission admission)
    update fun a => a.onCall key fun c => { c with admission := some admission }

/-- The file of a call, which must be new. -/
def writeCore (value : CoreEvidence) (write : Write) : Op Unit := fun s =>
  let left (file : Option CoreEvidence) : Sys := { s with files := { s.files with cores := s.files.cores ++ [(value.key, file)] } }
  if (s.files.cores.lookup value.key).isSome then (.error .os, s)
  else
    match write with
    | .nothing => (.error .os, s)
    | .torn => (.error .os, left none)
    | .whole => (.error .os, left (some value))
    | .synced => (.ok (), left (some value))

/-- `_restore_call`, in a running process. -/
def restoreOne (key : ReservationKey) (evidenceDigest : Id) : Op Unit := fun s =>
  match restoreCall g s.files.cores key evidenceDigest s.authority with
  | some a => (.ok (), { s with authority := a })
  | none => (.error (.port .conflict), s)

/-- `register_reserved`, of a key without a call. -/
def registerNew (value : CoreEvidence) : Op Unit := do
  check (g.coreFits value = true) .limitExceeded
  let env ← draw
  writeCore value env.core
  let _ ← append g (.evidence value.key (g.coreDigest value))
  restoreOne g value.key (g.coreDigest value)

/-- `register_reserved`. -/
def registerReserved (key : ReservationKey) (core : BindingCore) (manifestDigest : Id) (run : Run) (reservation : Receipt) :
    Op Unit := locked do
  let a ← self
  check (a.coverage g = true ∧ reservation.key = key) .observerUnavailable
  match a.call? key with
  | some call => check (call.evidence.reservation = reservation) .conflict
  | none => registerNew g ⟨key, core, run, none, reservation, manifestDigest⟩

/-- `script_final`. -/
def scriptFinal (key : ReservationKey) (usage : UsageView) (terminal : Terminal) : Op Unit := do
  check (terminal ≠ .none) .invalidRecord
  let a ← self
  let _ ← demand (a.call? key) .missing
  update fun a => a.onCall key fun c => { c with usage := usage, terminal := terminal }

/-- `begin_acceptance_v1`. -/
def beginAcceptance (run : Run) (admission : Admission) (bodyDigest : Id) : Op AcceptanceTicket := locked do
  checkOpen g
  let a ← self
  let call ← demand (a.call? admission.key) (.port .contextChanged)
  check (call.owner = run.context.ownerGeneration ∧ call.admission = some admission ∧ bodyDigest = call.bodyDigest ∧
    call.marked = false ∧ call.closed = false ∧ call.cancelled = false) .contextChanged
  let time ← now
  check (time < call.expiry) .contextChanged
  check (a.tickets.any (fun t => t.keyDigest = admission.key) = false) .conflict
  let env ← draw
  let ticket : AcceptanceTicket := ⟨env.uuid, admission.key, g.deployment, a.epoch, a.generation,
    run.context.ownerGeneration, bodyDigest, call.expiry⟩
  update fun a => { a with tickets := assign AcceptanceTicket.ticketId a.tickets ticket }
  pure ticket

/-- `issue`. -/
def issue (run : Run) (admission : Admission) (ticket : AcceptanceTicket) (markerEventId guardEpoch : Id) : Op SendPermit :=
  locked do
    checkOpen g
    let a ← self
    let call ← demand (a.call? ticket.keyDigest) .missing
    check (a.tickets.find? (fun t => t.ticketId = ticket.ticketId) = some ticket ∧ call.marked = false ∧
      ticket.authorityEpoch = a.epoch ∧ ticket.acceptanceGeneration = a.generation ∧
      ticket.ownerGeneration = run.context.ownerGeneration ∧ run.context.ownerGeneration = call.owner) .contextChanged
    let time ← now
    check (time < ticket.expiresAt ∧ call.closed = false) .contextChanged
    let env ← draw
    let permit : SendPermit := ⟨call.key, env.uuid, admission.admissionId, run.context.ownerGeneration, guardEpoch, a.epoch,
      a.generation, ticket.ticketId, ticket.bodyDigest, markerEventId, a.observerEpoch, ticket.expiresAt⟩
    update fun a => { a.onCall ticket.keyDigest fun c => { c with marked := true } with
      permits := assign (fun p => p.record.permitId) a.permits ⟨permit, false, false⟩ }
    let _ ← append g (.permit permit)
    let _ ← event g (contentsFor call (some permit) .permitIssued .unknown .none) none false
    pure permit

/-- `consume_write_v1`, where the body is taken. -/
def take (permit : SendPermit) (body : Id) : Op Unit := fun s =>
  (.ok (), { s with
    authority := { s.authority with
      permits := amend (fun p => p.record.permitId) s.authority.permits permit.permitId fun p => { p with consumed := true } }
    taken := s.taken ++ [⟨s.authority, permit, body⟩] })

/-- Its `try` block, with the identifier of the event. -/
def accept (permit : SendPermit) (eventId : Id) : Op WriteAck := do
  witness g (.accepted permit.key eventId permit.bodyDigest)
  hook Env.hook
  let a ← self
  let call ← demand (a.call? permit.key) .missing
  let event_ ← event g (contentsFor call (some permit) .writeAccepted .unknown .none) (some eventId) false
  hook Env.hook
  Tx.when (call.usage.isKnown = true) do
    let _ ← event g (contentsFor call (some permit) .finalUsage call.usage call.terminal) none false
    pure ()
  pure ⟨permit.permitId, event_.eventId, event_.sequence, event_.observedAt⟩

/-- `consume_write_v1`. -/
def consumeWrite (permit : SendPermit) (body : Id) : Op WriteAck := locked do
  checkOpen g
  let a ← self
  let stored ← demand (a.permit? permit.permitId) (.port .contextChanged)
  let call ← demand (a.call? permit.key) (.port .contextChanged)
  check (stored.record = permit) .contextChanged
  check (stored.consumed = false ∧ stored.revoked = false ∧ call.closed = false ∧ call.cancelled = false ∧
    permit.authorityEpoch = a.epoch ∧ permit.acceptanceGeneration = a.generation ∧
    permit.ownerGeneration = call.owner) .contextChanged
  let time ← now
  check (time < min call.expiry permit.expiresAt ∧ g.digest body = permit.bodyDigest ∧
    permit.bodyDigest = call.bodyDigest) .contextChanged
  let env ← draw
  take permit body
  orRecover (accept g permit env.uuid)

/-- `events`. -/
def events (key : ReservationKey) : Op (List Observation) := do
  let a ← self
  pure (a.observations.filter fun o => o.key = key)

/-- `close_call`, where the stream can be closed on record. -/
def recordClosed (call : Call) (permit : Option SendPermit) : Op Unit := do
  let _ ← event g (contentsFor call permit .streamClosed .unknown .none) none false
  let a ← self
  Tx.when (a.coverage g = true ∧ a.witness.accepted call.key = 0) do
    let _ ← event g (contentsFor call permit .zeroProven g.zeroUsage .none) none false
    pure ()

/-- `close_call`, of a call that is not closed. -/
def closeFirst (call : Call) : Op Unit := do
  update fun a => { a.onCall call.key fun c => { c with closed := true } with
    permits := a.permits.map fun p => if p.record.key = call.key then { p with revoked := true } else p }
  let a ← self
  if a.coverage g = false then recover
  else recordClosed g call ((a.permits.find? fun p => p.record.key = call.key).map Permit.record)

/-- `close_call`. -/
def closeCall (key : ReservationKey) : Op (List Observation) := locked do
  let a ← self
  let call ← demand (a.call? key) (.port .sourceUnavailable)
  Tx.when (call.closed = false) (closeFirst g call)
  events key

/-- `late_usage`. -/
def lateUsage (key : ReservationKey) (usage : UsageView) (terminal : Terminal) (eventId : Option Id) : Op Observation :=
  locked do
    let a ← self
    check (a.coverage g = true ∧ a.witness.accepted key = 1) .observerUnavailable
    let call ← demand (a.call? key) .missing
    let permit ← demand (a.permits.find? fun p => p.record.key = key) .missing
    event g (contentsFor call (some permit.record) .finalUsage usage terminal) eventId true

/-- `observe_v1`, with the scope it reads for. -/
def observe (scope : Accounting.Scope) (event : Observation) : Op (Id × Nat × Id) := locked do
  let a ← self
  check (a.observations.find? (fun o => o.eventId = event.eventId) = some event ∧ a.coverage g = true) .observerUnavailable
  let call ← demand (a.call? event.key) (.port .sourceUnavailable)
  check (call.key.scope = scope) .sourceUnavailable
  pure (event.eventId, event.sequence, g.observationDigest event)

/-- `qualify_consumption`. -/
def qualifyConsumption (permit : SendPermit) : Op Unit := locked do
  checkOpen g
  let a ← self
  check (permit.authorityEpoch = a.epoch ∧ permit.acceptanceGeneration = a.generation) .contextChanged
  check (a.witness.accepted permit.key = 1) .observerUnavailable

/-- How many operations are unresolved. -/
def pending (operations : List InvalidationAck) : Nat :=
  operations.countP fun ack => ack.disposition = .pending || ack.disposition = .unknown

/-- `invalidate_v1`, of a new operation. -/
def invalidateNew (request : InvalidationRequest) : Op InvalidationAck := do
  update fun a => { a with state := .closed }
  let a ← self
  if maxGeneration ≤ a.generation ∨ 64 ≤ pending a.operations then do
    recover
    Tx.raise (.port .limitExceeded)
  else do
    update fun a => { a with generation := a.generation + 1 }
    let ack : InvalidationAck := ⟨request.operationId, request.operationDigest, g.deployment, a.epoch, a.generation + 1,
      a.rows.length + 1, .pending, g.journal.head a.rows⟩
    let _ ← append g (.ack ack)
    update fun a => { a with operations := assign InvalidationAck.operationId a.operations ack }
    pure ack

/-- `invalidate_v1`, of an operation that is known. -/
def invalidateAgain (old : InvalidationAck) (request : InvalidationRequest) : Op InvalidationAck :=
  if old.operationDigest ≠ request.operationDigest then do
    recover
    Tx.raise (.port .conflict)
  else pure old

/-- `invalidate_v1`. -/
def invalidate (ctx : InvalidationContext) (request : InvalidationRequest) : Op InvalidationAck := do
  check (request.deploymentRef = ctx.deploymentRef ∧ ctx.deploymentRef = g.deployment ∧ request.writerId = ctx.writerId)
    .invalidRecord
  locked do
    let time ← now
    check (time < min ctx.deadlineAt request.deadlineAt) .deadlineExceeded
    let a ← self
    match a.operations.find? fun ack => ack.operationId = request.operationId with
    | some old => invalidateAgain old request
    | none => invalidateNew g request

/-- The acknowledgement of an operation, which may have to be taken from the journal. -/
def known (operationId : Id) : Op InvalidationAck := do
  let a ← self
  match a.operations.find? fun ack => ack.operationId = operationId with
  | some ack => pure ack
  | none => do
      let journaled := (a.rows.filterMap fun row => row.payload.ack?).reverse
      let ack ← demand (journaled.find? fun ack => ack.operationId = operationId) (.port .commitUnknown)
      update fun a => { a with operations := assign InvalidationAck.operationId a.operations ack }
      pure ack

/-- `lookup_invalidation_v1`. -/
def lookup (ctx : InvalidationContext) (operationId operationDigest : Id) : Op InvalidationAck := locked do
  check (ctx.deploymentRef = g.deployment) .invalidRecord
  let ack ← known operationId
  check (ack.operationDigest = operationDigest) .commitUnknown
  pure ack

/-- `resolve_invalidation_v1`, of an operation that is not resolved. -/
def resolveFirst (old : InvalidationAck) (outcome : Disposition) : Op InvalidationAck := do
  let ack := { old with disposition := outcome }
  let _ ← append g (.ack ack)
  update fun a => { a with operations := assign InvalidationAck.operationId a.operations ack }
  pure ack

/-- `resolve_invalidation_v1`. -/
def resolve (ctx : InvalidationContext) (resolution : InvalidationResolution) (verified : Disposition × Option Id) :
    Op InvalidationAck := locked do
  -- no record of a resolution holds another outcome
  check (resolution.databaseOutcome ≠ .pending) .invalidRecord
  let a ← self
  let old ← demand (a.operations.find? fun ack => ack.operationId = resolution.operationId) (.port .conflict)
  check (old.operationDigest = resolution.operationDigest ∧ old.deploymentRef = resolution.deploymentRef ∧
    resolution.deploymentRef = ctx.deploymentRef) .conflict
  check (resolution.barrierDigest = old.eventDigest) .conflict
  check (verified = (resolution.databaseOutcome, resolution.transactionEvidenceRef)) .commitUnknown
  if old.disposition.final = true then do
    check (old.disposition = resolution.databaseOutcome) .conflict
    pure old
  else resolveFirst g old resolution.databaseOutcome

/-- `reopen_v1`. -/
def reopen (ctx : InvalidationContext) (request : ReopenRequest) (evidence : ReopenEvidence) : Op GateAck := locked do
  let a ← self
  check (a.state ≠ .opened ∧ a.coverage g = true) .observerUnavailable
  check (request.deploymentRef = ctx.deploymentRef ∧ ctx.deploymentRef = g.deployment ∧
    request.expectedAuthorityEpoch = a.epoch ∧ request.expectedAcceptanceGeneration = a.generation) .contextChanged
  check (a.operations.all (fun ack => ack.disposition.final) = true) .commitUnknown
  check (a.calls.all (fun c => c.closed) = true) .observerUnavailable
  Tx.refuse (¬ (evidence.request = request)) .authorityUnavailable
  let time ← now
  Tx.refuse (¬ (evidence.checkedAt ≤ time ∧ time < evidence.expiresAt)) .authorityUnavailable
  check (evidence.pendingDigest = g.pendingDigest (a.operations.map fun ack =>
    (ack.operationId, ack.operationDigest, ack.disposition))) .commitUnknown
  let ack : GateAck := ⟨g.deployment, a.epoch, a.generation, a.rows.length + 1, g.journal.head a.rows⟩
  let _ ← append g (.gate ack)
  update fun a => { a with state := .opened }
  pure ack

end Operations

/-! ## Processes -/

inductive Operation where
  | qualifyAdmission
  | suspend
  | registerCall (key : ReservationKey) (run : Run) (admission : Admission)
  | registerReserved (key : ReservationKey) (core : BindingCore) (manifestDigest : Id) (run : Run) (reservation : Receipt)
  | scriptFinal (key : ReservationKey) (usage : UsageView) (terminal : Terminal)
  | beginAcceptance (run : Run) (admission : Admission) (bodyDigest : Id)
  | issue (run : Run) (admission : Admission) (ticket : AcceptanceTicket) (markerEventId guardEpoch : Id)
  | consumeWrite (permit : SendPermit) (body : Id)
  | closeCall (key : ReservationKey)
  | lateUsage (key : ReservationKey) (usage : UsageView) (terminal : Terminal) (eventId : Option Id)
  | observe (scope : Accounting.Scope) (event : Observation)
  | qualifyConsumption (permit : SendPermit)
  | invalidate (ctx : InvalidationContext) (request : InvalidationRequest)
  | lookup (ctx : InvalidationContext) (operationId operationDigest : Id)
  | resolve (ctx : InvalidationContext) (resolution : InvalidationResolution) (verified : Disposition × Option Id)
  | reopen (ctx : InvalidationContext) (request : ReopenRequest) (evidence : ReopenEvidence)

/-- An operation, whatever it returns. -/
def perform (g : Setting) : Operation → Op Unit
  | .qualifyAdmission => qualifyAdmission g
  | .suspend => suspend
  | .registerCall key run admission => registerCall g key run admission
  | .registerReserved key core manifestDigest run reservation => registerReserved g key core manifestDigest run reservation
  | .scriptFinal key usage terminal => scriptFinal key usage terminal
  | .beginAcceptance run admission bodyDigest => do let _ ← beginAcceptance g run admission bodyDigest
  | .issue run admission ticket markerEventId guardEpoch => do let _ ← issue g run admission ticket markerEventId guardEpoch
  | .consumeWrite permit body => do let _ ← consumeWrite g permit body
  | .closeCall key => do let _ ← closeCall g key
  | .lateUsage key usage terminal eventId => do let _ ← lateUsage g key usage terminal eventId
  | .observe scope event => do let _ ← observe g scope event
  | .qualifyConsumption permit => qualifyConsumption g permit
  | .invalidate ctx request => do let _ ← invalidate g ctx request
  | .lookup ctx operationId operationDigest => do let _ ← lookup g ctx operationId operationDigest
  | .resolve ctx resolution verified => do let _ ← resolve g ctx resolution verified
  | .reopen ctx request evidence => do let _ ← reopen g ctx request evidence

structure World where
  files : Files
  process : Option FakeAuthority
  taken : List Taken

inductive Step where
  /-- A new process, with its two epochs; the one that ran is gone. -/
  | start (epoch observerEpoch : Id)
  | stop
  | call (operation : Operation) (world : Nat → Env)

namespace World

def step (g : Setting) (w : World) : Step → World
  | .start epoch observerEpoch => { w with process := FakeAuthority.start g w.files epoch observerEpoch }
  | .stop => { w with process := none }
  | .call operation world =>
      match w.process with
      | none => w
      | some authority =>
          let s := (perform g operation ⟨authority, w.files, w.taken, world, 0⟩).2
          ⟨s.files, some s.authority, s.taken⟩

/-- Nothing was ever written. -/
def new : World := ⟨⟨⟨[], false⟩, ⟨[], false⟩, []⟩, none, []⟩

end World

def authorities (g : Setting) : System World Step where
  init w := w = World.new
  step w s w' := w' = w.step g s

end ApiSecurityPlatform.Authority.Endpoint
