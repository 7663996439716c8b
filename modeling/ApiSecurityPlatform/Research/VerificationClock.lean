/-
# Research.VerificationClock -- one clock for a chain of deadlines

A `Clock` reads wall time and the monotonic clock together and holds every window and every
mark that was registered with it against each reading.  The first that does not hold poisons
the clock for good and fences the intents that consume it: `record` writes a fault that `check`
finds, whatever the wall clock says later.  Instants are microseconds of UTC.

* `check_cases`: what a check does;
* `checkWindows_cases`, `checkBoundaries_cases`: the loops stop at the first that does not hold.
-/
import ApiSecurityPlatform.Python.Text
import ApiSecurityPlatform.Theory.Table
import ApiSecurityPlatform.Theory.Transaction

namespace ApiSecurityPlatform.Research.VerificationClock

open ApiSecurityPlatform.Theory
open ApiSecurityPlatform.Python (Str)

set_option autoImplicit false

/-- `IntentError`, by its code. -/
inductive ClockError where
  /-- `verification_clock_invalidated`. -/
  | invalidated
  /-- `intent_invalid_clock`, of a wall clock that is not an aware `datetime`. -/
  | invalidClock
  /-- `intent_clock_invalid`. -/
  | clockInvalid
  /-- `intent_invalid`, of a mark whose `at` is no timestamp. -/
  | invalid
  | intentExpired
  | verificationExpired
  | anomaly
  | limit
  /-- An `OverflowError` of `timedelta`. -/
  | overflow
deriving DecidableEq, Repr

/-! ## Fences -/

/-- The exact reference of an intent. -/
structure Key where
  contextId : Int
  number : Int
  version : Int
  digest : Str
deriving DecidableEq

structure IntentRow where
  id : Int
  project : Int
  key : Key
deriving DecidableEq

structure FaultRow where
  contextId : Int
  intentId : Int
  digest : Str
deriving DecidableEq

/-- Intents are immutable, and only `record` writes faults. -/
structure Store where
  intents : List IntentRow
  faults : List FaultRow
  ids : (intents.map IntentRow.id).Nodup
  exact_ : ∀ fault ∈ faults, ∃ row ∈ intents,
    fault = ⟨row.key.contextId, row.id, row.key.digest⟩

def Store.empty : Store := ⟨[], [], List.nodup_nil, fun _ mem => nomatch mem⟩

/-- The committed intent of a project under a reference. -/
def Store.owned (db : Store) (project : Int) (key : Key) : Option IntentRow :=
  db.intents.find? fun row => row.project = project ∧ row.key = key

/-- `check`, whether it raises. -/
def Store.fenced (db : Store) (key : Key) : Bool :=
  db.faults.any fun fault => fault.contextId = key.contextId ∧ fault.digest = key.digest ∧
    db.intents.any fun row => row.id = fault.intentId ∧ row.key = key

/-- `record`: one fault for each intent. -/
def Store.record (db : Store) (project : Int) (key : Key) : Store :=
  match found : db.owned project key with
  | none => db
  | some row =>
      { db with
        faults := if db.faults.any (fun fault => fault.intentId = row.id) then db.faults
          else db.faults ++ [⟨row.key.contextId, row.id, row.key.digest⟩]
        exact_ := by
          intro fault mem
          split at mem
          · exact db.exact_ fault mem
          · rcases List.mem_append.1 mem with old | new
            · exact db.exact_ fault old
            · exact ⟨row, List.mem_of_find?_eq_some found, List.mem_singleton.1 new⟩ }

/-! ## The clock -/

/-- A mark: `at` as it is written, and what `monotonic_ns` is when it is an `int`. -/
structure Mark where
  written : Str
  monotonicNs : Option Int
  clockDomain : Str
deriving DecidableEq

/-- A mark with `seconds` and `end`. -/
structure Boundary where
  mark : Mark
  seconds : Option Int
  end_ : Option Int
deriving DecidableEq

/-- What the two clocks show: nothing for a wall clock that is not an aware `datetime` and for
a monotonic clock that is not an `int`. -/
structure Sample where
  wall : Option Int
  ns : Option Int
deriving DecidableEq

structure Clock where
  /-- `self.last` and `self.ns`. -/
  last : Option (Int × Int)
  /-- The consumers of each mark, which is its own key. -/
  boundaries : Table Boundary (List Key)
  windows : Table (Int × Int) (List Key)
  /-- The project of each consumer. -/
  consumers : Table Key Int
  active : List Key
  /-- `previous` of the `dependency` blocks that are open. -/
  saved : List (List Key)
  poisoned : Bool
  store : Store

def Clock.new (db : Store) : Clock := ⟨none, .empty, .empty, .empty, [], [], false, db⟩

def maxConsumers : Nat := 4
def maxDeadlines : Nat := 64

/-- `datetime.max`, in microseconds since the first day of the calendar. -/
def maxInstant : Int := 3652059 * 86400 * 1000000 - 1

/-- `invalidate`, of these consumers or of all. -/
def Clock.invalidate (c : Clock) (consumers : Option (List Key)) : Clock :=
  { c with
    poisoned := true
    store := c.consumers.keys.foldl (fun db key =>
      if ∀ keys ∈ consumers, key ∈ keys then (c.consumers.row key).elim db fun project => db.record project key
      else db) c.store }

/-- `expire`. -/
def Clock.expire (c : Clock) (consumers : Option (List Key)) : Clock := c.invalidate (some (consumers.getD c.active))

/-- A change that stays, and an error. -/
def failing {α : Type} (change : Clock → Clock) (e : ClockError) : Tx ClockError Clock α := fun c => (.error e, change c)

section Reading

variable (timestamp : Str → Option Int) (domain : Str)

/-- `delta` in days, seconds and microseconds, and from these in nanoseconds. -/
def windowNs (start end_ : Int) : Int :=
  ((end_ - start) / 86400000000 * 86400 + (end_ - start) % 86400000000 / 1000000) * 1000000000 +
    (end_ - start) % 1000000 * 1000

/-- `_check`, where `clock.last` and `clock.ns` are these. -/
def check (at_ : Int) (ns : Int) (b : Boundary) (consumers : Option (List Key)) : Tx ClockError Clock Unit :=
  match timestamp b.mark.written with
  | none => Tx.raise .invalid
  | some start =>
      match b.mark.monotonicNs with
      | none => failing (fun c => c.invalidate none) .anomaly
      | some mark =>
          if b.mark.clockDomain ≠ domain ∨ mark < 0 ∨ ns < mark ∨ at_ < start then
            failing (fun c => c.invalidate none) .anomaly
          else if ∃ end_ ∈ b.end_, end_ ≤ at_ ∨ windowNs start end_ ≤ ns - mark then
            failing (fun c => c.expire consumers) .verificationExpired
          else if ∃ seconds ∈ b.seconds, start + seconds * 1000000 < 0 ∨ maxInstant < start + seconds * 1000000 then
            Tx.raise .overflow
          else if ∃ seconds ∈ b.seconds, start + seconds * 1000000 ≤ at_ ∨ seconds * 1000000000 ≤ ns - mark then
            failing (fun c => c.expire consumers) .verificationExpired
          else pure ()

/-- The loop over the windows. -/
def checkWindows (at_ : Int) : List ((Int × Int) × List Key) → Tx ClockError Clock Unit
  | [] => pure ()
  | (window, consumers) :: rest =>
      if window.1 ≤ at_ ∧ at_ < window.2 then checkWindows at_ rest
      else failing (fun c => c.expire (some consumers)) .intentExpired

/-- The loop over the marks. -/
def checkBoundaries (at_ : Int) (ns : Int) : List (Boundary × List Key) → Tx ClockError Clock Unit
  | [] => pure ()
  | (b, consumers) :: rest => do
      check timestamp domain at_ ns b (some consumers)
      checkBoundaries at_ ns rest

/-- A clock ran backwards. -/
def Clock.Backwards (c : Clock) (at_ : Int) (ns : Int) : Prop :=
  ns < 0 ∨ ∃ last ∈ c.last, at_ < last.1 ∨ ns < last.2

instance (c : Clock) (at_ : Int) (ns : Int) : Decidable (c.Backwards at_ ns) := by
  unfold Clock.Backwards
  infer_instance

/-- `__call__`. -/
def call (sample : Sample) : Tx ClockError Clock Int := do
  let c ← Tx.get
  Tx.refuse (c.poisoned = true) .invalidated
  match sample.wall with
  | none => Tx.raise .invalidClock
  | some at_ =>
      match sample.ns with
      | none => failing (fun c => c.invalidate none) .clockInvalid
      | some ns =>
          if c.Backwards at_ ns then failing (fun c => c.invalidate none) .clockInvalid
          else do
            Tx.modify fun c => { c with last := some (at_, ns) }
            checkWindows at_ c.windows.items
            checkBoundaries timestamp domain at_ ns c.boundaries.items
            return at_

/-! ## Registering -/

/-- `bind_intent`. -/
def bindIntent (project : Int) (key : Key) : Tx ClockError Clock Unit := do
  let c ← Tx.get
  Tx.refuse (key ∉ c.consumers.keys ∧ maxConsumers ≤ c.consumers.keys.length) .limit
  Tx.modify fun c => { c with consumers := c.consumers.put key project, active := c.active.insert key }

/-- `watch_window`. -/
def watchWindow (start end_ : Int) : Tx ClockError Clock Unit := do
  let c ← Tx.get
  Tx.refuse ((start, end_) ∉ c.windows.keys ∧ maxDeadlines ≤ c.windows.keys.length + c.boundaries.keys.length) .limit
  Tx.modify fun c => { c with
    windows := c.windows.put (start, end_) (c.active ∪ (c.windows.row (start, end_)).getD []) }

/-- What `check_mark` does behind its reading, which has set `last`. -/
def registerMark (b : Boundary) : Tx ClockError Clock Unit := do
  let c ← Tx.get
  check timestamp domain (c.last.getD (0, 0)).1 (c.last.getD (0, 0)).2 b none
  Tx.when (b.seconds ≠ none ∨ b.end_ ≠ none) do
    Tx.refuse (b ∉ c.boundaries.keys ∧ maxDeadlines ≤ c.boundaries.keys.length + c.windows.keys.length) .limit
    Tx.modify fun c => { c with boundaries := c.boundaries.put b (c.active ∪ (c.boundaries.row b).getD []) }

/-- `check_mark`. -/
def checkMark (sample : Sample) (b : Boundary) : Tx ClockError Clock Int := do
  let at_ ← call timestamp domain sample
  registerMark timestamp domain b
  return at_

/-- A `dependency` block begins. -/
def enter : Clock → Clock := fun c => { c with saved := c.active :: c.saved }

/-- It ends, however its body ends. -/
def leave : Clock → Clock := fun c =>
  match c.saved with
  | [] => c
  | previous :: rest => { c with active := previous, saved := rest }

/-! ## Runs -/

inductive Op where
  | read (sample : Sample)
  | bind (project : Int) (key : Key)
  | watch (start end_ : Int)
  | mark (sample : Sample) (b : Boundary)
  | enter
  | leave

/-- What is seen of a call from outside. -/
inductive Event where
  | read (at_ : Int) (ns : Int)
  | watched (start end_ : Int)
  | marked (b : Boundary)
  | failed (e : ClockError)

/-- The events of one call: a mark reads the clock first. -/
def events : Op → Clock → List Event
  | .read sample, c =>
      match call timestamp domain sample c with
      | (.ok at_, d) => [.read at_ (d.last.getD (0, 0)).2]
      | (.error e, _) => [.failed e]
  | .mark sample b, c =>
      match call timestamp domain sample c with
      | (.error e, _) => [.failed e]
      | (.ok at_, d) =>
          .read at_ (d.last.getD (0, 0)).2 ::
            match registerMark timestamp domain b d with
            | (.error e, _) => [.failed e]
            | (.ok _, _) => if b.seconds ≠ none ∨ b.end_ ≠ none then [.marked b] else []
  | .bind project key, c =>
      match bindIntent project key c with
      | (.error e, _) => [.failed e]
      | (.ok _, _) => []
  | .watch start end_, c =>
      match watchWindow start end_ c with
      | (.error e, _) => [.failed e]
      | (.ok _, _) => [.watched start end_]
  | _, _ => []

def step (c : Clock) : Op → Clock
  | .read sample => (call timestamp domain sample c).2
  | .bind project key => (bindIntent project key c).2
  | .watch start end_ => (watchWindow start end_ c).2
  | .mark sample b => (checkMark timestamp domain sample b c).2
  | .enter => enter c
  | .leave => leave c

/-- The events of a run, the newest last. -/
def history : Clock → List Op → List Event
  | _, [] => []
  | c, op :: rest => events timestamp domain op c ++ history (step timestamp domain c op) rest

/-! ## What holds of a deadline -/

/-- Neither clock is before the mark or past a bound of it, to the nanosecond. -/
structure Fresh (at_ : Int) (ns : Int) (b : Boundary) (start : Int) (mark : Int) : Prop where
  written : timestamp b.mark.written = some start
  counted : b.mark.monotonicNs = some mark
  domain_ : b.mark.clockDomain = domain
  positive : 0 ≤ mark
  wall : 0 ≤ at_ - start
  elapsed : 0 ≤ ns - mark
  end_ : ∀ end_ ∈ b.end_, at_ - start < end_ - start ∧ ns - mark < (end_ - start) * 1000
  seconds : ∀ seconds ∈ b.seconds, at_ - start < seconds * 1000000 ∧ ns - mark < seconds * 1000000000

/-- A mark that holds at a reading. -/
def MarkHolds (at_ : Int) (ns : Int) (b : Boundary) : Prop := ∃ start mark, Fresh timestamp domain at_ ns b start mark

theorem windowNs_eq (start end_ : Int) : windowNs start end_ = (end_ - start) * 1000 := by
  unfold windowNs
  omega

/-- **What a check does**: it passes just on a mark that holds and does not overflow. -/
theorem check_cases (at_ : Int) (ns : Int) (b : Boundary) (consumers : Option (List Key)) (c : Clock) :
    (check timestamp domain at_ ns b consumers c = (.ok (), c) ∧ MarkHolds timestamp domain at_ ns b ∧
      ∀ start, timestamp b.mark.written = some start → ∀ seconds ∈ b.seconds,
        0 ≤ start + seconds * 1000000 ∧ start + seconds * 1000000 ≤ maxInstant) ∨
    (check timestamp domain at_ ns b consumers c = (.error .anomaly, c.invalidate none) ∧
      ∃ start, timestamp b.mark.written = some start ∧ ∀ mark ∈ b.mark.monotonicNs,
        b.mark.clockDomain ≠ domain ∨ mark < 0 ∨ ns < mark ∨ at_ < start) ∨
    (check timestamp domain at_ ns b consumers c = (.error .verificationExpired, c.expire consumers) ∧
      ¬ MarkHolds timestamp domain at_ ns b) ∨
    (check timestamp domain at_ ns b consumers c = (.error .invalid, c) ∧ timestamp b.mark.written = none) ∨
    check timestamp domain at_ ns b consumers c = (.error .overflow, c) ∧ ∃ start, timestamp b.mark.written = some start ∧
      ∃ seconds ∈ b.seconds, start + seconds * 1000000 < 0 ∨ maxInstant < start + seconds * 1000000 := by
  unfold check
  cases written : timestamp b.mark.written with
  | none => exact .inr (.inr (.inr (.inl ⟨rfl, rfl⟩)))
  | some start =>
  cases counted : b.mark.monotonicNs with
  | none => exact .inr (.inl ⟨rfl, start, rfl, fun _ mem => nomatch mem⟩)
  | some mark =>
  dsimp only
  split
  · next anomaly =>
    refine .inr (.inl ⟨rfl, start, rfl, ?_⟩)
    rintro _ ⟨⟩
    exact anomaly
  next sound =>
  have only {start' : Int} {mark' : Int} (fresh : Fresh timestamp domain at_ ns b start' mark') :
      start' = start ∧ mark' = mark :=
    ⟨Option.some.inj (fresh.written.symm.trans written), Option.some.inj (fresh.counted.symm.trans counted)⟩
  split
  · next lapsed =>
    obtain ⟨end_, mem, lapsed⟩ := lapsed
    refine .inr (.inr (.inl ⟨rfl, fun ⟨start', mark', fresh⟩ => ?_⟩))
    obtain ⟨rfl, rfl⟩ := only fresh
    have bound := fresh.end_ end_ mem
    rw [windowNs_eq] at lapsed
    omega
  next inEnd =>
  split
  · next large => exact .inr (.inr (.inr (.inr ⟨rfl, start, rfl, large⟩)))
  next inRange =>
  split
  · next lapsed =>
    obtain ⟨seconds, mem, lapsed⟩ := lapsed
    refine .inr (.inr (.inl ⟨rfl, fun ⟨start', mark', fresh⟩ => ?_⟩))
    obtain ⟨rfl, rfl⟩ := only fresh
    have bound := fresh.seconds seconds mem
    omega
  next inSeconds =>
  rw [not_or, not_or, not_or, not_not] at sound
  obtain ⟨same, positive, wall, late⟩ := sound
  refine .inl ⟨rfl, ⟨start, mark, written, counted, same, by omega, by omega, by omega, fun end_ mem => ?_,
    fun seconds mem => ?_⟩, ?_⟩
  · have bound : ¬ (end_ ≤ at_ ∨ windowNs start end_ ≤ ns - mark) := fun lapsed => inEnd ⟨end_, mem, lapsed⟩
    rw [windowNs_eq] at bound
    omega
  · have bound : ¬ (start + seconds * 1000000 ≤ at_ ∨ seconds * 1000000000 ≤ ns - mark) :=
      fun lapsed => inSeconds ⟨seconds, mem, lapsed⟩
    omega
  · rintro _ ⟨⟩ seconds mem
    have bound : ¬ (start + seconds * 1000000 < 0 ∨ maxInstant < start + seconds * 1000000) :=
      fun large => inRange ⟨seconds, mem, large⟩
    omega

theorem checkWindows_cases (at_ : Int) (windows : List ((Int × Int) × List Key)) (c : Clock) :
    (checkWindows at_ windows c = (.ok (), c) ∧ ∀ w ∈ windows, w.1.1 ≤ at_ ∧ at_ < w.1.2) ∨
    ∃ before w consumers after, windows = before ++ (w, consumers) :: after ∧
      (∀ w ∈ before, w.1.1 ≤ at_ ∧ at_ < w.1.2) ∧ ¬ (w.1 ≤ at_ ∧ at_ < w.2) ∧
      checkWindows at_ windows c = (.error .intentExpired, c.expire (some consumers)) := by
  induction windows with
  | nil => exact .inl ⟨rfl, fun _ mem => nomatch mem⟩
  | cons first rest ih =>
      obtain ⟨w, consumers⟩ := first
      rw [checkWindows]
      split
      · next holds =>
        rcases ih with ⟨passed, all⟩ | ⟨before, w', consumers', after, split, front, lapsed, failed⟩
        · exact .inl ⟨passed, List.forall_mem_cons.2 ⟨holds, all⟩⟩
        · exact .inr ⟨(w, consumers) :: before, w', consumers', after, by rw [split]; rfl,
            List.forall_mem_cons.2 ⟨holds, front⟩, lapsed, failed⟩
      · next lapsed => exact .inr ⟨[], w, consumers, rest, rfl, fun _ mem => (nomatch mem), lapsed, rfl⟩

theorem checkBoundaries_cases (at_ ns : Int) (marks : List (Boundary × List Key)) (c : Clock) :
    (checkBoundaries timestamp domain at_ ns marks c = (.ok (), c) ∧
      ∀ m ∈ marks, MarkHolds timestamp domain at_ ns m.1) ∨
    ∃ before b consumers after e d, marks = before ++ (b, consumers) :: after ∧
      (∀ m ∈ before, MarkHolds timestamp domain at_ ns m.1) ∧
      check timestamp domain at_ ns b (some consumers) c = (.error e, d) ∧
      checkBoundaries timestamp domain at_ ns marks c = (.error e, d) := by
  induction marks with
  | nil => exact .inl ⟨rfl, fun _ mem => nomatch mem⟩
  | cons first rest ih =>
      obtain ⟨b, consumers⟩ := first
      rw [checkBoundaries, Tx.bind_apply]
      cases checked : check timestamp domain at_ ns b (some consumers) c with
      | mk result d =>
          cases result with
          | error e => exact .inr ⟨[], b, consumers, rest, e, d, rfl, fun _ mem => (nomatch mem), checked, rfl⟩
          | ok u =>
              have passed := check_cases timestamp domain at_ ns b (some consumers) c
              simp only [checked, Prod.mk.injEq, reduceCtorEq, false_and, or_false] at passed
              obtain ⟨⟨-, rfl⟩, holds, -⟩ := passed
              rcases ih with ⟨passed, all⟩ | ⟨before, b', consumers', after, e, d', split, front, failed, stopped⟩
              · exact .inl ⟨passed, List.forall_mem_cons.2 ⟨holds, all⟩⟩
              · exact .inr ⟨(b, consumers) :: before, b', consumers', after, e, d', by rw [split]; rfl,
                  List.forall_mem_cons.2 ⟨holds, front⟩, failed, stopped⟩

end Reading

end ApiSecurityPlatform.Research.VerificationClock
