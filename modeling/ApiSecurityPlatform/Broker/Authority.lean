/-
# Broker.Authority -- the broker of one call

The broker owns the acceptance lock A, one exchange and the journal J.  An operation holds A
for its whole body, or for each of the bodies it is cut into (`prepare`, `receive`); what happens
between two of them is other operations.  An operation that raises keeps what it has written.

What an operation learns from outside (the clock, the faults of a journal write, a hook that
raises, what the socket took) are the turns of its `world`.
-/
import ApiSecurityPlatform.Broker.Recovery
import ApiSecurityPlatform.Broker.Coverage
import ApiSecurityPlatform.Theory.Transaction

namespace ApiSecurityPlatform.Broker

open ApiSecurityPlatform.Theory
open ApiSecurityPlatform.Accounting (Id PortCode ReservationKey BindingCore Receipt UsageView)
open ApiSecurityPlatform.Authority

set_option autoImplicit false
set_option linter.dupNamespace false

inductive State where
  | recoveryRequired
  | opened
  | closed
deriving DecidableEq, Repr

/-- `request_bytes(body, key)`. -/
structure Request where
  body : Id
  secret : Id
deriving DecidableEq, Repr

structure Broker (D : Type) where
  deployment : Id
  j : Observations D Data Liability
  epoch : Id
  observerEpoch : Id
  generation : Nat
  state : State
  wall : Int
  started : Int
  binding : Option Binding
  ticket : Option AcceptanceTicket
  admission : Option Admission
  permit : Option SendPermit
  consumed : Bool
  closed : Bool
  readStarted : Bool
  socket : Bool
  /-- `b''` while it is being prepared. -/
  request : Option (Option Request)
  /-- `operations`, by the operation's id. -/
  operations : List InvalidationAck
  until_ : Option Int
  /-- The thread that expires the call sleeps. -/
  expiring : Bool
  /-- The `prepare` whose connection is being made. -/
  preparing : Option Id
  /-- The `receive` that waits for its response, and the one that has still to close. -/
  receiving : Bool
  closing : Bool

/-- One answer of the outside. -/
structure Env where
  monotonic : Int
  faults : Faults
  hook : Bool
  uuid : Id
  /-- What `socket.send` returned; `none` where it raised. -/
  sent : Option Nat

/-- `ra-broker-snapshot/1`; a snapshot that is not complete has an unknown upper bound. -/
structure View (D : Type) where
  state : State
  epoch : Id
  generation : Nat
  closed : Bool
  complete : Bool
  liability : Liability
  events : List (Event D Data)
  acks : List (Ack D)
  head : D
  total : Nat
  offset : Nat
  next : Nat
deriving DecidableEq

/-- A request that was handed to the socket, and the broker and W at that moment. -/
structure Sent (D : Type) where
  broker : Broker D
  w : Process (File (WRow D Data)) (Witness D Data)
  request : Option Request
  count : Option Nat

structure Sys (D : Type) where
  broker : Broker D
  w : Process (File (WRow D Data)) (Witness D Data)
  sent : List (Sent D)
  world : Nat → Env
  turn : Nat

/-- J and W. -/
def Sys.stores {D : Type} (s : Sys D) : Stores D Data Liability := ⟨.up s.broker.j, s.w⟩

structure Setting (D : Type) where
  /-- The chain; its bound on what a call owes is not used. -/
  base : Protocol D Data Unit
  /-- `sha256(body)`. -/
  digest : Id → Id
  /-- `len(request)`. -/
  size : Request → Nat
  fingerprint : BindingCore → Id
  requestDigest : InvalidationRequest → Id
  barrierId : Id → String
  dispositionId : InvalidationResolution → String
  /-- `len(canonical(events))`. -/
  pageSize : List (Event D Data) → Nat
  /-- `sha256(stream + ':' + event_id)`. -/
  eventRef : String → String → Id
  /-- A digest, as a record holds it. -/
  digestRef : D → Id

/-- The protocol, with `liability`. -/
def Setting.p {D : Type} [DecidableEq D] (g : Setting D) : Protocol D Data Liability := recovering g.base g.fingerprint

abbrev Op (D α : Type) := Tx PortCode (Sys D) α

section Operations

variable {D : Type}

def draw : Op D Env := fun s => (.ok (s.world s.turn), { s with turn := s.turn + 1 })

def self : Op D (Broker D) := fun s => (.ok s.broker, s)

def update (f : Broker D → Broker D) : Op D Unit := Tx.modify fun s => { s with broker := f s.broker }

def check (condition : Prop) [Decidable condition] (code : PortCode) : Op D Unit := Tx.refuse (¬ condition) code

/-- What is there, or an error. -/
def demand {σ α : Type} (value : Option α) (code : PortCode) : Tx PortCode σ α :=
  match value with
  | none => Tx.raise code
  | some a => pure a

def monotonic : Op D Int := do
  let env ← draw
  pure env.monotonic

def now : Op D Int := do
  let b ← self
  let t ← monotonic
  pure (b.wall + (t - b.started))

/-- `self.hook(stage)`. -/
def hook : Op D Unit := do
  let env ← draw
  check (env.hook = false) .observerUnavailable

def closeSocket : Op D Unit := update fun b => { b with socket := false }

variable [DecidableEq D] (g : Setting D)

/-- `self.J.coverage()`. -/
def covered : Op D Bool := do
  let env ← draw
  fun s =>
    let result := s.broker.j.coverage g.p (Observations.reach g.p s.stores.witness? env.faults)
    (.ok result.1, { s with broker := { s.broker with j := result.2 } })

/-- The time an event is written with: a redelivery keeps the original one. -/
def observedAt (eventId : String) : Op D Int := do
  let b ← self
  match b.j.events.find? fun v => v.eventId = eventId with
  | some old => pure old.data.observedAt
  | none => now

/-- `self.J.append(...)`. -/
def writeEvent (eventId : String) (kind : Kind) (data : Data) (faults : Faults) : Op D (Event D Data) := fun s =>
  let result := s.broker.j.append g.p s.stores.witness? eventId kind data faults
  let s := { s with broker := { s.broker with j := result.2.1 }, w := s.stores.withWitness result.2.2 }
  match result.1 with
  | some value => (.ok value, s)
  | none => (.error .observerUnavailable, { s with broker := { s.broker with state := .recoveryRequired } })

/-- `_append`; what it raises leaves the state `RECOVERY_REQUIRED`. -/
def append (eventId : String) (kind : Kind) (body : Body) : Op D Unit := do
  let time ← observedAt eventId
  let env ← draw
  let _ ← writeEvent g eventId kind ⟨body, time⟩ env.faults
  pure ()

/-- `_open`. -/
def checkOpen : Op D Unit := do
  let b ← self
  check (b.state = .opened) .observerUnavailable
  let complete ← covered g
  check (complete = true) .observerUnavailable

/-- `_current`. -/
def checkCurrent : Op D Unit := do
  checkOpen g
  let b ← self
  check (b.closed = false) .deadlineExceeded
  let bound ← demand b.binding .deadlineExceeded
  let time ← now
  check (time < bound.expiresAt) .deadlineExceeded
  let limit ← demand b.until_ .deadlineExceeded
  let t ← monotonic
  check (t < limit) .deadlineExceeded

/-- `_call`. -/
def call : Op D ReservationKey := do
  let b ← self
  let bound ← demand b.binding .reservationUnavailable
  pure bound.key

/-- The end of every closing operation: `CLOSED` is recorded where there is coverage. -/
def recordClosed : Op D Unit := do
  let complete ← covered g
  Tx.when (complete = true) do
    let key ← call
    append g "closed" .closed (.closed key)

/-! ## Operations of the control socket -/

/-- `bootstrap`; `empty` says that the inventory it names is the empty one. -/
def bootstrap (deployment : Id) (empty : Bool) : Op D Unit := do
  let b ← self
  check (deployment = b.deployment ∧ empty = true) .contextChanged
  check (b.j.events = [] ∧ b.binding = none) .observerUnavailable
  let complete ← covered g
  check (complete = true) .observerUnavailable
  append g "bootstrap" .bootstrap (.bootstrap b.deployment b.epoch)
  update fun b => { b with state := .opened }

/-- `bind`. -/
def bind (key : ReservationKey) (core : BindingCore) (run : Run) (reservation : Receipt) (manifestDigest : Id) :
    Op D Unit := do
  let b ← self
  check (key.scope.deploymentRef = b.deployment ∧ key.scope = core.scope ∧ key.scope = run.context.scope ∧
    key.callRef = core.callRef ∧ key.callRef = run.context.callRef ∧ key.coreDigest = g.fingerprint core ∧
    reservation.key = key ∧ reservation.ownerGeneration = run.context.ownerGeneration) .contextChanged
  let expires := min (min core.expiresAt run.context.deadlineAt) reservation.expiresAt
  let value : Binding := ⟨key, core, run, reservation, manifestDigest, expires⟩
  checkOpen g
  let b ← self
  match b.binding with
  | some bound => check (bound = value) .conflict
  | none => do
      let first ← now
      check (first < expires) .deadlineExceeded
      let second ← now
      check (expires - second ≤ 30000000) .deadlineExceeded
      let t ← monotonic
      let third ← now
      update fun b => { b with until_ := some (t + (expires - third)), binding := some value }
      append g "binding" .binding (.binding value)
      update fun b => { b with expiring := true }

/-- `_expire`, after its sleep. -/
def expire : Op D Unit := do
  let b ← self
  check (b.expiring = true) .deadlineExceeded
  update fun b => { b with expiring := false, state := .closed, closed := true, ticket := none }
  closeSocket
  recordClosed g

/-- `prepare`, up to its release of A. -/
def prepareStart (body : Id) : Op D Unit := do
  let b ← self
  let bound ← demand b.binding .contextChanged
  check (g.digest body = bound.core.bodyDigest) .contextChanged
  checkCurrent g
  let b ← self
  check (b.socket = false ∧ b.request = none ∧ b.permit = none) .conflict
  update fun b => { b with request := some none, preparing := some body }

/-- `prepare`, once the connection is made. -/
def prepareFinish : Op D Unit := do
  let b ← self
  let body ← demand b.preparing .observerUnavailable
  update fun b => { b with preparing := none }
  let env ← draw
  hook
  checkCurrent g
  update fun b => { b with socket := true, request := some (some ⟨body, env.uuid⟩) }

/-- `prepare`, where the credential or the connection fails. -/
def prepareFail : Op D Unit := update fun b => { b with preparing := none }

/-- `ticket_for`. -/
def ticketFor (run : Run) (admission : Admission) (bodyDigest : Id) : Op D AcceptanceTicket := do
  checkCurrent g
  let b ← self
  let bound ← demand b.binding .reservationUnavailable
  check (run = bound.run ∧ admission.key = bound.key ∧ admission.ownerGeneration = run.context.ownerGeneration ∧
    bodyDigest = bound.core.bodyDigest ∧ b.ticket = none ∧ b.permit = none ∧ b.socket = true) .contextChanged
  update fun b => { b with admission := some admission }
  let env ← draw
  let ticket : AcceptanceTicket := ⟨env.uuid, bound.key, b.deployment, b.epoch, b.generation,
    run.context.ownerGeneration, bodyDigest, bound.expiresAt⟩
  update fun b => { b with ticket := some ticket }
  pure ticket

/-- `authorize`. -/
def authorize (asked : Authorization) : Op D SendPermit := do
  checkCurrent g
  let b ← self
  let bound ← demand b.binding .contextChanged
  check (b.ticket = some asked.ticket ∧ b.permit = none ∧ b.admission = some asked.admission ∧
    asked.run = bound.run ∧ asked.ticket.authorityEpoch = b.epoch ∧
    asked.ticket.acceptanceGeneration = b.generation) .contextChanged
  let env ← draw
  let permit : SendPermit := ⟨bound.key, env.uuid, asked.admission.admissionId, asked.run.context.ownerGeneration,
    asked.guardEpoch, b.epoch, b.generation, asked.ticket.ticketId, asked.ticket.bodyDigest, asked.marker,
    b.observerEpoch, asked.ticket.expiresAt⟩
  append g "permit" .permit (.permit asked permit)
  update fun b => { b with permit := some permit }
  pure permit

/-- The number of bytes of `self.request`; `len(None)` raises. -/
def requestSize (request : Option (Option Request)) : Option Nat := request.map fun r => (r.map g.size).getD 0

/-- `write`, up to its `try` block. -/
def writeIntent (permit : SendPermit) : Op D Unit := do
  hook
  checkCurrent g
  let b ← self
  check (b.permit = some permit ∧ b.consumed = false ∧ b.socket = true ∧ permit.authorityEpoch = b.epoch ∧
    permit.acceptanceGeneration = b.generation) .contextChanged
  let bound ← demand b.binding .contextChanged
  update fun b => { b with consumed := true }
  append g "intent" .intent (.intent permit bound)
  hook

/-- The `try` block of `write`, up to the request. -/
def ready : Op D (Option Request) := do
  checkCurrent g
  hook
  checkCurrent g
  let b ← self
  let request ← demand b.request .observerUnavailable
  check (b.socket = true) .observerUnavailable
  pure request

/-- `self.socket.send(request)`. -/
def handOver (request : Option Request) : Op D Nat := do
  let env ← draw
  Tx.modify fun s => { s with sent := s.sent ++ [⟨s.broker, s.w, request, env.sent⟩] }
  demand env.sent .observerUnavailable

def send : Op D Nat := do
  let request ← ready g
  handOver request

/-- The rest of it. -/
def sendChecked : Op D Unit := do
  hook
  let b ← self
  let limit ← demand b.until_ .deadlineExceeded
  let t ← monotonic
  check (t < limit) .deadlineExceeded

/-- The `except` and `finally` blocks of `write`, with `count` as far as it is known. -/
def settleWrite (count : Option Nat) (raised : Bool) : Op D Unit := do
  Tx.when (raised = true) do
    closeSocket
    update fun b => { b with state := .recoveryRequired }
  let complete ← covered g
  Tx.when (complete = true) do
    let b ← self
    let size ← demand (requestSize g b.request) .observerUnavailable
    append g "local_write" .localWrite (.localWrite count size (decide (count = some size)))
  let b ← self
  let size ← demand (requestSize g b.request) .observerUnavailable
  Tx.when (count ≠ some size) do
    closeSocket
    update fun b => { b with state := .recoveryRequired }

/-- `write`. -/
def write (permit : SendPermit) : Op D Unit := do
  writeIntent g permit
  let count ← Tx.attempt (send g)
  match count with
  | .error code => do
      settleWrite g none true
      Tx.raise code
  | .ok n => do
      let rest ← Tx.attempt sendChecked
      match rest with
      | .error code => do
          settleWrite g (some n) true
          Tx.raise code
      | .ok () => do
          settleWrite g (some n) false
          let b ← self
          check (requestSize g b.request = some n) .observerUnavailable
          update fun b => { b with request := none }

/-- `receive`, up to its release of A. -/
def receiveStart : Op D Unit := do
  let b ← self
  check (b.consumed = true ∧ b.readStarted = false ∧ b.socket = true) .contextChanged
  update fun b => { b with readStarted := true, receiving := true }

/-- `receive`, with a response that was read: the status, the terminal state, the usage, and the
digests of the identifier and the envelope. -/
def receiveOutcome (status : Nat) (terminal : Accounting.Terminal) (usage : UsageView) (responseId : Option Id)
    (responseDigest : Id) : Op D Unit := do
  let b ← self
  check (b.receiving = true ∧ isTerminal terminal = true) .observerUnavailable
  update fun b => { b with receiving := false, closing := true }
  let permit ← demand b.permit .observerUnavailable
  let evidence : Evidence := ⟨permit.permitId, permit.bodyDigest, status, responseId, terminal, responseDigest⟩
  append g "peer_response" .peerResponse (.peerResponse evidence)
  Tx.when (usage.isKnown = true) (append g "final_usage" .finalUsage (.finalUsage evidence usage))
  hook

/-- `receive`, where the response could not be read. -/
def receiveFail : Op D Unit := do
  let b ← self
  check (b.receiving = true) .observerUnavailable
  update fun b => { b with receiving := false, closing := true }

/-- The `finally` block of `receive`. -/
def receiveEnd : Op D Unit := do
  let b ← self
  check (b.closing = true) .observerUnavailable
  update fun b => { b with closing := false }
  closeSocket
  update fun b => { b with closed := true }
  recordClosed g

/-- `close_call`. -/
def closeCall (key : ReservationKey) : Op D Unit := do
  let own ← call
  check (key = own) .contextChanged
  closeSocket
  update fun b => { b with closed := true }
  recordClosed g

/-- `self.operations[ack.operation_id] = ack`. -/
def Broker.record (b : Broker D) (ack : InvalidationAck) : Broker D :=
  { b with operations := b.operations.filter (fun a => a.operationId ≠ ack.operationId) ++ [ack] }

def Broker.operation? (b : Broker D) (operationId : Id) : Option InvalidationAck :=
  b.operations.find? fun a => a.operationId = operationId

/-- The request of the `BARRIER` of an operation; `next` raises where there is none. -/
def priorRequest (events : List (Event D Data)) (operationId : Id) : Option InvalidationRequest :=
  (events.find? fun v => v.kind = .barrier ∧ (v.data.body.ack?.map InvalidationAck.operationId) = some operationId).bind
    fun v => v.data.body.request?

/-- `invalidate`. -/
def invalidate (ctx : InvalidationContext) (request : InvalidationRequest) : Op D InvalidationAck := do
  let b ← self
  check (ctx.deploymentRef = request.deploymentRef ∧ request.deploymentRef = b.deployment ∧
    ctx.writerId = request.writerId) .invalidRecord
  let t ← monotonic
  let limit := t + 3000000
  match b.operation? request.operationId with
  | some old => do
      let prior ← demand (priorRequest b.j.events request.operationId) .conflict
      Tx.when (prior ≠ request) (update fun b => { b with state := .recoveryRequired })
      check (prior = request) .conflict
      let complete ← covered g
      check (complete = true) .conflict
      pure old
  | none => do
      update fun b => { b with state := .closed, generation := b.generation + 1, ticket := none }
      closeSocket
      update fun b => { b with closed := b.binding.isSome }
      let b ← self
      check (b.operations.length < 64 ∧ b.generation ≤ maxGeneration) .limitExceeded
      let ack : InvalidationAck := ⟨request.operationId, request.operationDigest, b.deployment, b.epoch, b.generation,
        b.j.events.length + 1, .pending, g.requestDigest request⟩
      append g (g.barrierId request.operationId) .barrier (.barrier ack request)
      update fun b => b.record ack
      let t ← monotonic
      check (t < limit) .deadlineExceeded
      let time ← now
      check (time < min ctx.deadlineAt request.deadlineAt) .deadlineExceeded
      pure ack

/-- `disposition`; the verified outcome is the one the transaction store was asked for. -/
def disposition (ctx : InvalidationContext) (resolution : InvalidationResolution) (outcome : Disposition × Option Id) :
    Op D InvalidationAck := do
  let b ← self
  let old ← demand (b.operation? resolution.operationId) .conflict
  check (old.deploymentRef = ctx.deploymentRef ∧ ctx.deploymentRef = resolution.deploymentRef ∧
    old.operationDigest = resolution.operationDigest ∧ old.eventDigest = resolution.barrierDigest) .conflict
  check (outcome = (resolution.databaseOutcome, resolution.transactionEvidenceRef)) .commitUnknown
  if old.disposition.final = true then do
    check (old.disposition = resolution.databaseOutcome) .conflict
    let complete ← covered g
    check (complete = true) .conflict
    pure old
  else do
    let ack := { old with disposition := resolution.databaseOutcome }
    append g (g.dispositionId resolution) .disposition (.disposition ack resolution)
    update fun b => b.record ack
    pure ack

/-- `self.J.recovery_liability()`; what it raises leaves the state `RECOVERY_REQUIRED`. -/
def recoveryLiability : Op D Liability := fun s =>
  let result := s.broker.j.recoveryLiability g.p
  let s := { s with broker := { s.broker with j := result.2 } }
  match result.1 with
  | some retained => (.ok retained, s)
  | none => (.error .observerUnavailable, { s with broker := { s.broker with state := .recoveryRequired } })

/-- The loop of `snapshot`: a page ends before the event that makes it too long. -/
def fillPage (o : Observations D Data Liability) (sofar : List (Event D Data) × List (Ack D)) :
    List Nat → List (Event D Data) × List (Ack D)
  | [] => sofar
  | index :: rest =>
      match o.events[index]? with
      | none => sofar
      | some value =>
          let proposed := sofar.1 ++ [value]
          if g.pageSize proposed > 60000 then sofar
          else fillPage o (proposed, sofar.2 ++ o.acks[index]?.toList) rest

/-- `snapshot`; a later page is asked for with the offset and the head of the first. -/
def snapshot (ask : Option (Nat × D)) : Op D (View D) := do
  let b ← self
  let offset := (ask.map Prod.fst).getD 0
  check (offset ≤ b.j.events.length) .invalidRecord
  let complete ← covered g
  Tx.when (complete = false) (update fun b => { b with state := .recoveryRequired })
  let retained ← recoveryLiability g
  let b ← self
  let head := lastDigest g.p b.j.events
  check ((ask.map Prod.snd).getD head = head) .observerUnavailable
  let total := b.j.events.length
  let page := fillPage g b.j ([], []) (List.range' offset (min (offset + 8) total - offset))
  check (offset = total ∨ page.1 ≠ []) .limitExceeded
  pure ⟨b.state, b.epoch, b.generation, b.closed, complete, retained, page.1, page.2, head, total, offset,
    offset + page.1.length⟩

/-! ## Operations and their answers -/

inductive Operation (D : Type) where
  | bootstrap (deployment : Id) (empty : Bool)
  | bind (key : ReservationKey) (core : BindingCore) (run : Run) (reservation : Receipt) (manifestDigest : Id)
  | expire
  | prepareStart (body : Id)
  | prepareFinish
  | prepareFail
  | ticket (run : Run) (admission : Admission) (bodyDigest : Id)
  | authorize (asked : Authorization)
  | write (permit : SendPermit)
  | receiveStart
  | receiveOutcome (status : Nat) (terminal : Accounting.Terminal) (usage : UsageView) (responseId : Option Id)
      (responseDigest : Id)
  | receiveFail
  | receiveEnd
  | close (key : ReservationKey)
  | invalidate (ctx : InvalidationContext) (request : InvalidationRequest)
  | disposition (ctx : InvalidationContext) (resolution : InvalidationResolution) (outcome : Disposition × Option Id)
  | snapshot (ask : Option (Nat × D))

inductive Reply (D : Type) where
  | done
  | ticket (ticket : AcceptanceTicket)
  | permit (permit : SendPermit)
  | ack (ack : InvalidationAck)
  | view (view : View D)
deriving DecidableEq

def operate : Operation D → Op D (Reply D)
  | .bootstrap deployment empty => do bootstrap g deployment empty; pure .done
  | .bind key core run reservation manifestDigest => do bind g key core run reservation manifestDigest; pure .done
  | .expire => do expire g; pure .done
  | .prepareStart body => do prepareStart g body; pure .done
  | .prepareFinish => do prepareFinish g; pure .done
  | .prepareFail => do prepareFail; pure .done
  | .ticket run admission bodyDigest => do let t ← ticketFor g run admission bodyDigest; pure (.ticket t)
  | .authorize asked => do let permit ← authorize g asked; pure (.permit permit)
  | .write permit => do write g permit; pure .done
  | .receiveStart => do receiveStart; pure .done
  | .receiveOutcome status terminal usage responseId responseDigest => do
      receiveOutcome g status terminal usage responseId responseDigest; pure .done
  | .receiveFail => do receiveFail; pure .done
  | .receiveEnd => do receiveEnd g; pure .done
  | .close key => do closeCall g key; pure .done
  | .invalidate ctx request => do let a ← invalidate g ctx request; pure (.ack a)
  | .disposition ctx resolution outcome => do let a ← disposition g ctx resolution outcome; pure (.ack a)
  | .snapshot ask => do let v ← snapshot g ask; pure (.view v)

/-! ## Starting -/

/-- What one event of J leaves in a broker that starts. -/
def Broker.restore (b : Broker D) (event : Event D Data) : Option (Broker D) :=
  match event.kind with
  | .binding => some { b with binding := event.data.body.binding? }
  | .permit => event.data.body.permit?.map fun permit => { b with permit := some permit }
  | .intent => some { b with consumed := true }
  | .barrier => event.data.body.ack?.map fun ack =>
      { b.record ack with generation := max b.generation ack.acceptanceGeneration }
  | .disposition => event.data.body.ack?.map b.record
  | _ => some b

/-- What a process is started with. -/
structure Launch where
  deployment : Id
  stream : String
  wall : Int
  started : Int
  epoch : Id
  observerEpoch : Id

/-- `__init__`, on J's file. -/
def Broker.load (launch : Launch) (file : File (JRow D Data)) : Option (Broker D) := do
  let j ← Observations.load g.p launch.stream file
  let fresh : Broker D := ⟨launch.deployment, j, launch.epoch, launch.observerEpoch, 1, .recoveryRequired, launch.wall,
    launch.started, none, none, none, none, false, false, false, false, none, [], none, false, none, false, false⟩
  let b ← j.events.foldlM Broker.restore fresh
  return { b with closed := b.closed || !j.events.isEmpty }

end Operations

/-! ## The broker and its witness -/

section Runs

variable {D : Type}

/-- The broker, or J's file while none runs, and W. -/
structure World (D : Type) where
  j : Process (File (JRow D Data)) (Broker D)
  w : Process (File (WRow D Data)) (Witness D Data)

inductive Step (D : Type) where
  | startB (launch : Launch)
  | crashB
  /-- J's file is replaced while no broker runs: restored, lost or made up. -/
  | replaceJ (file : File (JRow D Data))
  | startW
  | crashW
  | run (operation : Operation D) (world : Nat → Env)

/-- What a step shows: the requests it hands to the socket, and its reply. -/
structure Shown (D : Type) where
  sent : List (Sent D)
  reply : Option (Reply D)

def Shown.nothing : Shown D := ⟨[], none⟩

variable [DecidableEq D] (g : Setting D)

def World.step (v : World D) : Step D → Option (World D × Shown D)
  | .startB launch =>
      match v.j with
      | .up _ => none
      | .down file => (Broker.load g launch file).map fun b => ({ v with j := .up b }, .nothing)
  | .crashB =>
      match v.j with
      | .down _ => none
      | .up b => some ({ v with j := .down b.j.journal.file }, .nothing)
  | .replaceJ file =>
      match v.j with
      | .up _ => none
      | .down _ => some ({ v with j := .down file }, .nothing)
  | .startW =>
      match v.w with
      | .up _ => none
      | .down file => (Witness.load g.p file).map fun w => ({ v with w := .up w }, .nothing)
  | .crashW =>
      match v.w with
      | .down _ => none
      | .up w => some ({ v with w := .down w.journal.file }, .nothing)
  | .run operation world =>
      match v.j with
      | .down _ => none
      | .up b =>
          let result := operate g operation ⟨b, v.w, [], world, 0⟩
          some (⟨.up result.2.broker, result.2.w⟩, ⟨result.2.sent, result.1.toOption⟩)

/-- Two files, whatever is on them. -/
def World.Init (v : World D) : Prop := ∃ j w, v = ⟨.down j, .down w⟩

def brokers : System (World D) (Step D × Shown D) where
  init := World.Init
  step v a u := v.step g a.1 = some (u, a.2)

end Runs

end ApiSecurityPlatform.Broker
