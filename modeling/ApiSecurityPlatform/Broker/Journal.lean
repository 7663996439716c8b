/-
# Broker.Journal -- the broker's journal J and its witness W

`Journal` is an append-only file with the rows a process has read of it or written to
it.  `Observations` appends an event to J, has W append it, and appends W's
acknowledgement to J; every one of the writes may fail, and every hook may raise.

A write that fails may have left nothing, a torn record or the whole record; a journal
with a torn record does not load.  A process that crashes within an append is one whose
append fails there and that loses its memory next.  The hash, the bounds on records and
the liability of a list of events are arguments (`Protocol`): nothing is assumed of them.
-/
import ApiSecurityPlatform.Theory.Transition

namespace ApiSecurityPlatform.Broker

open ApiSecurityPlatform.Theory

set_option autoImplicit false

/-! ## Records -/

/-- `KINDS`. -/
inductive Kind where
  | bootstrap
  | binding
  | permit
  | intent
  | localWrite
  | peerResponse
  | finalUsage
  | closed
  | barrier
  | disposition
deriving DecidableEq, Repr

/-- `ra-broker-event/1`. -/
structure Event (D P : Type) where
  stream : String
  sequence : Nat
  previous : D
  eventId : String
  kind : Kind
  data : P
  digest : D
deriving DecidableEq

/-- `ra-broker-durable-ack/1`. -/
structure Ack (D : Type) where
  witness : String
  stream : String
  sequence : Nat
  eventId : String
  eventDigest : D
deriving DecidableEq

/-- A row of J. -/
inductive JRow (D P : Type) where
  | event (value : Event D P)
  | ack (value : Ack D)
deriving DecidableEq

/-- A row of W. -/
inductive WRow (D P : Type) where
  | event (value : Event D P)
  | conflict (incoming previous : D)
deriving DecidableEq

variable {D P L : Type}

def JRow.event? : JRow D P → Option (Event D P)
  | .event value => some value
  | .ack _ => none

def JRow.ack? : JRow D P → Option (Ack D)
  | .event _ => none
  | .ack value => some value

def WRow.event? : WRow D P → Option (Event D P)
  | .event value => some value
  | .conflict _ _ => none

structure Protocol (D P L : Type) where
  /-- `ZERO`. -/
  zero : D
  /-- `digest` of the event without its digest. -/
  hash : String → Nat → D → String → Kind → P → D
  /-- The bounds of `event`. -/
  fits : Event D P → Bool
  /-- `MAX_RECORD`. -/
  small : Event D P → Bool
  liability : List (Event D P) → Option L
  merge : L → L → Option L
  /-- `amount()`. -/
  nothing : L
  /-- The identity of W. -/
  identity : String

def maxRows : Nat := 512

/-- `acknowledgement`. -/
def acknowledgement (p : Protocol D P L) (value : Event D P) : Ack D :=
  ⟨p.identity, value.stream, value.sequence, value.eventId, value.digest⟩

def lastDigest (p : Protocol D P L) (events : List (Event D P)) : D :=
  (events.getLast?.map Event.digest).getD p.zero

section Checks

variable [DecidableEq D] [DecidableEq P]

/-- `event`. -/
def makeEvent (p : Protocol D P L) (stream : String) (sequence : Nat) (previous : D) (eventId : String)
    (kind : Kind) (data : P) : Option (Event D P) :=
  let value : Event D P :=
    ⟨stream, sequence, previous, eventId, kind, data, p.hash stream sequence previous eventId kind data⟩
  if p.fits value then some value else none

/-- `validate_event`. -/
def validateEvent (p : Protocol D P L) (value : Event D P) : Bool :=
  makeEvent p value.stream value.sequence value.previous value.eventId value.kind value.data = some value

/-- The chain rule of both journals. -/
def follows (p : Protocol D P L) (events : List (Event D P)) (value : Event D P) : Bool :=
  validateEvent p value && value.sequence = events.length + 1 && value.previous = lastDigest p events &&
    events.all fun e => e.eventId ≠ value.eventId

end Checks

/-! ## Files -/

structure File (R : Type) where
  rows : List R
  /-- The file ends in a record that was not written out. -/
  torn : Bool

/-- A journal a process has open: its file, and what the process knows of it. -/
structure Journal (R : Type) where
  file : File R
  rows : List R
  failed : Bool

/-- What a write that raises has left. -/
inductive Written where
  | nothing
  | torn
  | whole
deriving DecidableEq, Repr

namespace Journal

variable {R : Type}

/-- `Journal.__init__`. -/
def load (file : File R) : Option (Journal R) :=
  if file.torn = false ∧ file.rows.length ≤ maxRows then some ⟨file, file.rows, false⟩ else none

section Append

variable [DecidableEq R]

def intact (j : Journal R) : Bool := !j.failed && !j.file.torn && decide (j.file.rows = j.rows)

/-- `append`; the flag says that it returned. -/
def append (j : Journal R) (small : Bool) (value : R) (fault : Option Written) : Bool × Journal R :=
  if ¬ (j.intact ∧ j.rows.length < maxRows ∧ small) then (false, j)
  else
    match fault with
    | none => (true, { j with file := { j.file with rows := j.file.rows ++ [value] }, rows := j.rows ++ [value] })
    | some .nothing => (false, { j with failed := true })
    | some .torn => (false, { j with file := { j.file with torn := true }, failed := true })
    | some .whole =>
        (false, { j with file := { j.file with rows := j.file.rows ++ [value] }, failed := true })

end Append

end Journal

/-! ## W -/

structure Witness (D P : Type) where
  journal : Journal (WRow D P)
  events : List (Event D P)
  conflict : Bool

/-- What `status` answers. -/
structure Status (D L : Type) where
  sequence : Nat
  head : D
  stream : Option String
  recovery : L
deriving DecidableEq

namespace Witness

section

variable [DecidableEq D] [DecidableEq P] (p : Protocol D P L)

/-- `_validate_next`. -/
def validateNext (events : List (Event D P)) (value : Event D P) : Bool :=
  follows p events value && (events.getLast?.all fun prior => value.stream = prior.stream)

/-- One row of `__init__`. -/
def loadRow (state : List (Event D P) × Bool) : WRow D P → Option (List (Event D P) × Bool)
  | .conflict _ _ => some (state.1, true)
  | .event value => if validateNext p state.1 value then some (state.1 ++ [value], state.2) else none

/-- `__init__`, on the journal's file. -/
def load (file : File (WRow D P)) : Option (Witness D P) := do
  let journal ← Journal.load file
  let (events, conflict) ← journal.rows.foldlM (loadRow p) ([], false)
  return ⟨journal, events, conflict⟩

/-- The `except` of `append`: the conflict is remembered, and recorded where it can be. -/
def conflicted (w : Witness D P) (value : Event D P) (fault : Option Written) : Witness D P :=
  if w.journal.intact then
    { w with
      conflict := true
      journal := (w.journal.append true (.conflict value.digest (lastDigest p w.events)) fault).2 }
  else { w with conflict := true }

/-- `append`, with the faults of its two possible writes. -/
def append (w : Witness D P) (value : Event D P) (fault conflictFault : Option Written) :
    Option (Ack D) × Witness D P :=
  if ¬ (w.journal.intact ∧ w.conflict = false ∧ validateEvent p value) then (none, w)
  else
    match w.events.find? fun r => r.eventId = value.eventId with
    | some old =>
        if old = value then (some (acknowledgement p value), w)
        else (none, w.conflicted p value conflictFault)
    | none =>
        if ¬ validateNext p w.events value then (none, w.conflicted p value conflictFault)
        else
          let written := w.journal.append (p.small value) (.event value) fault
          let w := { w with journal := written.2 }
          if written.1 then (some (acknowledgement p value), { w with events := w.events ++ [value] })
          else (none, w.conflicted p value conflictFault)

/-- `status`. -/
def status (w : Witness D P) : Option (Status D L) :=
  if w.journal.intact ∧ w.conflict = false then
    (p.liability w.events).map fun recovery =>
      ⟨w.events.length, lastDigest p w.events, w.events.head?.map Event.stream, recovery⟩
  else none

end

end Witness

/-! ## J -/

structure Observations (D P L : Type) where
  journal : Journal (JRow D P)
  stream : String
  events : List (Event D P)
  acks : List (Ack D)
  failed : Bool
  retained : L

inductive Hook where
  | beforeJFsync
  | afterJFsync
  | afterWAck
  | afterLocalAck
deriving DecidableEq, Repr

/-- What goes wrong in one call. -/
structure Faults where
  /-- `status` of W does not answer. -/
  status : Bool
  hook : Option Hook
  event : Option Written
  /-- The request does not reach W. -/
  request : Bool
  witness : Option Written
  conflict : Option Written
  /-- W's reply is lost. -/
  reply : Bool
  ack : Option Written
deriving DecidableEq, Repr

namespace Observations

section

variable [DecidableEq D] [DecidableEq P] [DecidableEq L] (p : Protocol D P L)

/-- One row of `__init__`. -/
def loadRow (stream : String) (state : List (Event D P) × List (Ack D)) :
    JRow D P → Option (List (Event D P) × List (Ack D))
  | .event value =>
      if state.1.length = state.2.length ∧ follows p state.1 value ∧ value.stream = stream then
        some (state.1 ++ [value], state.2)
      else none
  | .ack value =>
      if state.1.length = state.2.length + 1 ∧ state.1.getLast?.map (acknowledgement p) = some value then
        some (state.1, state.2 ++ [value])
      else none

/-- `__init__`, on the journal's file. -/
def load (stream : String) (file : File (JRow D P)) : Option (Observations D P L) := do
  let journal ← Journal.load file
  let (events, acks) ← journal.rows.foldlM (loadRow p stream) ([], [])
  return ⟨journal, stream, events, acks, false, p.nothing⟩

/-- `coverage`, on W's answer; the floor W reports is kept. -/
def coverage (o : Observations D P L) (status : Option (Status D L)) : Bool × Observations D P L :=
  let localComplete := !o.failed && o.journal.intact && decide (o.events.length = o.acks.length)
  match status with
  | none => (false, o)
  | some status =>
      if ¬ (status.sequence ≤ maxRows ∧
          (status.stream = some o.stream ∨ status.stream = none ∧ status.sequence = 0) ∧
          (status.sequence = 0 →
            status.stream = none ∧ status.head = p.zero ∧ status.recovery = p.nothing)) then (false, o)
      else
        match p.merge o.retained status.recovery with
        | none => (false, o)
        | some retained =>
            let o := { o with retained }
            match p.liability o.events with
            | none => (false, o)
            | some recovery =>
                (localComplete && decide (status = ⟨o.events.length, lastDigest p o.events,
                  if o.events.isEmpty then none else some o.stream, recovery⟩), o)

/-- The `except` of `append`. -/
def fail (o : Observations D P L) : Observations D P L := { o with failed := true }

/-- W as J reaches it: a witness that runs, or none. -/
def request (w : Option (Witness D P)) (value : Event D P) (faults : Faults) :
    Option (Ack D) × Option (Witness D P) :=
  match w with
  | none => (none, none)
  | some w =>
      if faults.request then (none, some w)
      else
        let answer := w.append p value faults.witness faults.conflict
        (if faults.reply then none else answer.1, some answer.2)

/-- The `try` block of `append`. -/
def record (o : Observations D P L) (w : Option (Witness D P)) (value : Event D P) (faults : Faults) :
    Option (Event D P) × Observations D P L × Option (Witness D P) :=
  if faults.hook = some .beforeJFsync then (none, o.fail, w)
  else
    let written := o.journal.append (p.small value) (.event value) faults.event
    let o := { o with journal := written.2 }
    if written.1 = false then (none, o.fail, w)
    else
      let o := { o with events := o.events ++ [value] }
      if faults.hook = some .afterJFsync then (none, o.fail, w)
      else
        let answer := request p w value faults
        match answer.1 with
        | none => (none, o.fail, answer.2)
        | some ack =>
            if ack ≠ acknowledgement p value then (none, o.fail, answer.2)
            else if faults.hook = some .afterWAck then (none, o.fail, answer.2)
            else
              let written := o.journal.append true (.ack ack) faults.ack
              let o := { o with journal := written.2 }
              if written.1 = false then (none, o.fail, answer.2)
              else
                let o := { o with acks := o.acks ++ [ack] }
                if faults.hook = some .afterLocalAck then (none, o.fail, answer.2)
                else (some value, o, answer.2)

/-- W's status as J reaches it. -/
def reach (w : Option (Witness D P)) (faults : Faults) : Option (Status D L) :=
  if faults.status then none else w.bind fun w => w.status p

/-- `append`. -/
def append (o : Observations D P L) (w : Option (Witness D P)) (eventId : String) (kind : Kind) (data : P)
    (faults : Faults) : Option (Event D P) × Observations D P L × Option (Witness D P) :=
  match o.events.find? fun v => v.eventId = eventId with
  | some old =>
      let o := if old.kind ≠ kind ∨ old.data ≠ data then o.fail else o
      if o.failed then (none, o, w)
      else
        let covered := o.coverage p (reach p w faults)
        (if covered.1 then some old else none, covered.2, w)
  | none =>
      let covered := o.coverage p (reach p w faults)
      let o := covered.2
      if covered.1 = false then (none, o, w)
      else
        match makeEvent p o.stream (o.events.length + 1) (lastDigest p o.events) eventId kind data with
        | none => (none, o, w)
        | some value => o.record p w value faults

end

end Observations

end ApiSecurityPlatform.Broker
