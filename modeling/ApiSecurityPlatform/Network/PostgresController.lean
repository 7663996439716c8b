/-
# Network.PostgresController -- admission through session advisory locks

`PostgresNetworkExecutionController.admission` polls the slots 1 to the configured
maximum for a session advisory lock, reads the kill switches afresh, runs the body and
gives the slot back in a `finally`.  The model is a machine over one server and any
number of admissions: an event is one call of one admission with what comes of it, a
session the server drops, or an update of the control rows.

An admission that stops taking turns is one whose process stalls or is killed; its
session may be dropped at any time.  Closing a connection hands its session back as it
is, locks and all: a lock has to be gone by then.
-/
import ApiSecurityPlatform.Theory.Transition
import Mathlib.Data.List.Nodup
import Mathlib.Data.List.Range
import Mathlib.Data.List.Perm.Subperm

namespace ApiSecurityPlatform.Network

open ApiSecurityPlatform.Theory

set_option autoImplicit false

/-! ## The server -/

/-- A database session: the admission that opened it, and how often it had connected. -/
structure SessionId where
  admission : Nat
  attempt : Nat
deriving DecidableEq, Repr

/-- The row of `network_global_control`. -/
structure Control where
  globalEnabled : Bool
  maximumConcurrency : Int
deriving DecidableEq, Repr

structure Server where
  control : Option Control
  /-- `network_disabled_targets`. -/
  disabledTargets : List Int
  sessions : List SessionId
  /-- The advisory locks of the namespace, one entry for each time one is held. -/
  locks : List (Nat × SessionId)
deriving DecidableEq, Repr

namespace Server

def openSession (srv : Server) (s : SessionId) : Server :=
  { srv with sessions := s :: srv.sessions }

/-- A session ends, and its advisory locks with it. -/
def drop (srv : Server) (s : SessionId) : Server :=
  { srv with
    sessions := srv.sessions.filter (· ≠ s)
    locks := srv.locks.filter (·.2 ≠ s) }

/-- `pg_try_advisory_lock`; a session may take its own lock again. -/
def tryAdvisoryLock (srv : Server) (slot : Nat) (s : SessionId) : Bool × Server :=
  if srv.locks.any fun entry => entry.1 = slot ∧ entry.2 ≠ s then (false, srv)
  else (true, { srv with locks := (slot, s) :: srv.locks })

/-- `pg_advisory_unlock`. -/
def advisoryUnlock (srv : Server) (slot : Nat) (s : SessionId) : Bool × Server :=
  if (slot, s) ∈ srv.locks then (true, { srv with locks := srv.locks.erase (slot, s) })
  else (false, srv)

end Server

def maximumConcurrencyBound : Int := 1024

/-- What an exception is to the handlers: `NetworkExecutionDenied`, another `Exception`,
or a `BaseException` such as `KeyboardInterrupt`, which they do not catch. -/
inductive Raised where
  | denied
  | exception
  | exit
deriving DecidableEq, Repr

/-- What `_read_enabled_and_limit` selects. -/
structure Reading where
  globalEnabled : Bool
  maximumConcurrency : Int
  targetDisabled : Bool
deriving DecidableEq, Repr

def Server.select (srv : Server) (targetId : Int) : Option Reading :=
  srv.control.map fun control =>
    ⟨control.globalEnabled, control.maximumConcurrency, targetId ∈ srv.disabledTargets⟩

def checkMaximum (maximum : Int) : Except Raised Nat :=
  if 1 ≤ maximum ∧ maximum ≤ maximumConcurrencyBound then .ok maximum.toNat else .error .exception

/-- `_read_enabled_and_limit`, from the row. -/
def readEnabledAndLimit : Option Reading → Except Raised Nat
  | none => .error .exception
  | some row => do
      let maximum ← checkMaximum row.maximumConcurrency
      if row.globalEnabled = false then .error .denied
      else if row.targetDisabled = true then .error .denied
      else .ok maximum

/-- `_read_limit`. -/
def readLimit (srv : Server) : Except Raised Nat :=
  match srv.control with
  | none => .error .exception
  | some control => checkMaximum control.maximumConcurrency

/-! ## One admission -/

/-- The line an admission is about to run. -/
inductive Line where
  | checkEnabled
  | connect
  /-- The deadline, after `connect`. -/
  | connected
  | readLimit
  /-- The deadline, before a slot is tried. -/
  | beforeLock (slot maximum : Nat)
  | tryLock (slot maximum : Nat)
  /-- The deadline, after a slot was tried. -/
  | afterLock (slot maximum : Nat)
  | commitScan
  /-- The deadline, after the scan committed with a slot. -/
  | scanned
  /-- `connection.rollback()` on a denial inside the scan. -/
  | rollback
  | wait
  | readFresh
  | commitFresh
  /-- Inside the `with`. -/
  | body
  /-- `pg_advisory_unlock` in the `finally`. -/
  | unlock
  | commitUnlock (unlocked : Bool)
  | exited
deriving DecidableEq, Repr

/-- The variables of `admission`; a connection without a session is invalidated. -/
structure Admission where
  targetId : Int
  line : Line
  connection : Option (Option SessionId)
  acquiredSlot : Option Nat
  discard : Bool
  yielded : Bool
  /-- The row the fresh check read. -/
  fresh : Option Reading
deriving DecidableEq, Repr

def Admission.start (targetId : Int) : Admission :=
  ⟨targetId, .checkEnabled, none, none, false, false, none⟩

def Admission.session (a : Admission) : Option SessionId := a.connection.join

/-- What comes of a call. -/
inductive Outcome where
  | returns
  /-- The clock is at the deadline. -/
  | expires
  /-- The call raises, after the server has done its part or before. -/
  | raises (raised : Raised) (executed : Bool)
deriving DecidableEq, Repr

section Handlers

/-- `connection.invalidate()`: the session is closed. -/
def invalidate (srv : Server) (a : Admission) : Server × Admission :=
  match a.session with
  | none => (srv, a)
  | some s => (srv.drop s, { a with connection := some none })

/-- The end of the `finally`: discard if asked to, and close. -/
def closeUp (srv : Server) (a : Admission) : Server × Admission :=
  let left := if a.discard then invalidate srv a else (srv, a)
  (left.1, { left.2 with line := .exited })

/-- The outer `finally`. -/
def finallyUnlock (srv : Server) (a : Admission) : Server × Admission :=
  if a.connection.isSome ∧ a.acquiredSlot.isSome then (srv, { a with line := .unlock })
  else closeUp srv a

/-- `raise` inside the outer `try`. -/
def raiseOuter (srv : Server) (a : Admission) : Raised → Server × Admission
  | .denied => finallyUnlock srv a
  | .exception =>
      if a.yielded = false ∧ a.connection.isSome then
        let left := invalidate srv a
        finallyUnlock left.1 { left.2 with discard := true }
      else finallyUnlock srv a
  | .exit => finallyUnlock srv a

/-- `raise` inside the inner `try`, of the scan. -/
def raiseInner (srv : Server) (a : Admission) : Raised → Server × Admission
  | .denied => (srv, { a with line := .rollback })
  | .exception =>
      let left := invalidate srv a
      -- `_coordination_failed` raises a denial to the outer handlers
      raiseOuter left.1 { left.2 with discard := true } .denied
  | .exit => raiseOuter srv a .exit

/-- A failed `pg_advisory_unlock` or commit of it.  An exit leaves the `finally`
unfinished. -/
def raiseUnlock (srv : Server) (a : Admission) : Raised → Server × Admission
  | .exit => (srv, { a with line := .exited })
  | _ =>
      let left := invalidate srv a
      closeUp left.1 { left.2 with discard := true }

/-- A statement on the connection, with its effect on the server and what follows when it
returns.  A session the server has dropped raises; an exit while the statement runs makes
the library invalidate the connection. -/
def statement (srv : Server) (a : Admission) (outcome : Outcome)
    (raise_ : Server → Admission → Raised → Server × Admission) (effect : SessionId → Server)
    (work : SessionId → Server × Admission) : Option (Server × Admission) :=
  match a.session with
  | none => none
  | some s =>
      if s ∉ srv.sessions then some (raise_ srv a .exception)
      else
        match outcome with
        | .returns => some (work s)
        | .expires => none
        | .raises .denied _ => none
        | .raises .exception executed => some (raise_ (if executed then effect s else srv) a .exception)
        | .raises .exit executed =>
            let left := invalidate (if executed then effect s else srv) a
            some (raise_ left.1 left.2 .exit)

/-- A statement without an effect on sessions or locks: a `SELECT`, a commit, a rollback. -/
def query (srv : Server) (a : Admission) (outcome : Outcome)
    (raise_ : Server → Admission → Raised → Server × Admission) (work : Server × Admission) :
    Option (Server × Admission) :=
  statement srv a outcome raise_ (fun _ => srv) fun _ => work

/-- A read of the clock against the deadline. -/
def deadline (srv : Server) (a : Admission) (outcome : Outcome)
    (raise_ : Server → Admission → Raised → Server × Admission) (next : Line) :
    Option (Server × Admission) :=
  match outcome with
  | .returns => some (srv, { a with line := next })
  | .expires => some (raise_ srv a .denied)
  | .raises .denied _ => none
  | .raises raised _ => some (raise_ srv a raised)

end Handlers

/-- One turn of admission `i`. -/
def turn (i : Nat) (srv : Server) (a : Admission) (outcome : Outcome) : Option (Server × Admission) :=
  match a.line with
  | .checkEnabled =>
      -- on a connection of its own, which takes no lock
      match outcome with
      | .returns =>
          if a.targetId < 1 then some (srv, { a with line := .exited })
          else
            match readEnabledAndLimit (srv.select a.targetId) with
            | .ok _ => some (srv, { a with line := .connect })
            | .error _ => some (srv, { a with line := .exited })
      | .expires => none
      | .raises _ _ => some (srv, { a with line := .exited })
  | .connect =>
      match outcome with
      | .returns => some (srv.openSession ⟨i, 0⟩,
          { a with connection := some (some ⟨i, 0⟩), line := .connected })
      | .expires => none
      | .raises .denied _ => none
      | .raises raised _ => some (raiseOuter srv a raised)
  | .connected => deadline srv a outcome raiseOuter .readLimit
  | .readLimit => query srv a outcome raiseInner
      (match readLimit srv with
      | .ok maximum => (srv, { a with line := .beforeLock 1 maximum })
      | .error raised => raiseInner srv a raised)
  | .beforeLock slot maximum => deadline srv a outcome raiseInner (.tryLock slot maximum)
  | .tryLock slot maximum => statement srv a outcome raiseInner
      (fun s => (srv.tryAdvisoryLock slot s).2) fun s =>
      let acquired := srv.tryAdvisoryLock slot s
      (acquired.2, { a with
        acquiredSlot := if acquired.1 then some slot else a.acquiredSlot
        line := .afterLock slot maximum })
  | .afterLock slot maximum => deadline srv a outcome raiseInner
      (if a.acquiredSlot.isSome then .commitScan
        else if slot < maximum then .beforeLock (slot + 1) maximum else .commitScan)
  | .commitScan => query srv a outcome raiseInner
      (srv, { a with line := if a.acquiredSlot.isSome then .scanned else .wait })
  | .scanned => deadline srv a outcome raiseInner .readFresh
  | .rollback => query srv a outcome raiseOuter (raiseOuter srv a .denied)
  | .wait => deadline srv a outcome raiseOuter .readLimit
  | .readFresh =>
      let row := srv.select a.targetId
      let read := { a with fresh := row }
      query srv a outcome raiseOuter
        (match readEnabledAndLimit row with
        | .error raised => raiseOuter srv read raised
        | .ok maximum =>
            if maximum < a.acquiredSlot.getD 0 then raiseOuter srv read .exception
            else (srv, { read with line := .commitFresh }))
  | .commitFresh => query srv a outcome raiseOuter
      (srv, { a with yielded := true, line := .body })
  | .body =>
      match outcome with
      | .returns => some (finallyUnlock srv a)
      | .expires => none
      | .raises raised _ => some (raiseOuter srv a raised)
  | .unlock =>
      let slot := a.acquiredSlot.getD 0
      match a.session, outcome with
      | none, .returns =>
          -- the invalidated connection reconnects, and the new session has no lock
          let s : SessionId := ⟨i, 1⟩
          let unlocked := (srv.openSession s).advisoryUnlock slot s
          some (unlocked.2, { a with connection := some (some s), line := .commitUnlock unlocked.1 })
      | none, .expires => none
      | none, .raises raised _ => some (raiseUnlock srv a raised)
      | some _, outcome => statement srv a outcome raiseUnlock
          (fun s => (srv.advisoryUnlock slot s).2) fun s =>
          let unlocked := srv.advisoryUnlock slot s
          (unlocked.2, { a with line := .commitUnlock unlocked.1 })
  | .commitUnlock unlocked => query srv a outcome raiseUnlock
      (if unlocked then closeUp srv a
      else
        let left := invalidate srv { a with discard := true }
        closeUp left.1 left.2)
  | .exited => none

/-! ## All of them -/

structure World where
  server : Server
  admissions : Nat → Option Admission

inductive Event where
  | start (i : Nat) (targetId : Int)
  | turn (i : Nat) (outcome : Outcome)
  /-- The server drops a session. -/
  | lose (s : SessionId)
  | configure (control : Option Control)
  | setDisabled (targets : List Int)
deriving DecidableEq, Repr

def World.put (w : World) (i : Nat) (srv : Server) (a : Admission) : World :=
  ⟨srv, fun j => if j = i then some a else w.admissions j⟩

def World.step (w : World) : Event → Option World
  | .start i targetId =>
      match w.admissions i with
      | none => some (w.put i w.server (Admission.start targetId))
      | some _ => none
  | .turn i outcome =>
      match w.admissions i with
      | none => none
      | some a => (turn i w.server a outcome).map fun next => w.put i next.1 next.2
  | .lose s => some { w with server := w.server.drop s }
  | .configure control => some { w with server := { w.server with control } }
  | .setDisabled targets => some { w with server := { w.server with disabledTargets := targets } }

/-- No admission has begun, and nobody holds a slot. -/
def World.Init (w : World) : Prop :=
  w.server.sessions = [] ∧ w.server.locks = [] ∧ ∀ i, w.admissions i = none

def controller : System World Event := System.ofStep World.Init World.step

/-! ## What the server keeps -/

namespace Server

/-- No slot is held twice. -/
def Exclusive (srv : Server) : Prop := (srv.locks.map Prod.fst).Nodup

/-- Admission `i` holds no lock. -/
def Clear (srv : Server) (i : Nat) : Prop := ∀ slot s, (slot, s) ∈ srv.locks → s.admission ≠ i

/-- Only sessions and locks of admission `i` differ. -/
def Touches (i : Nat) (srv srv' : Server) : Prop :=
  ∀ s, s.admission ≠ i → (s ∈ srv'.sessions ↔ s ∈ srv.sessions) ∧
    ∀ slot, (slot, s) ∈ srv'.locks ↔ (slot, s) ∈ srv.locks

variable {srv srv' srv'' : Server} {i : Nat} {s : SessionId}

theorem Touches.refl (i : Nat) (srv : Server) : Touches i srv srv :=
  fun _ _ => ⟨Iff.rfl, fun _ => Iff.rfl⟩

theorem Touches.trans (first : Touches i srv srv') (second : Touches i srv' srv'') :
    Touches i srv srv'' := by
  intro s other
  obtain ⟨sessions, locks⟩ := first s other
  obtain ⟨sessions', locks'⟩ := second s other
  exact ⟨sessions'.trans sessions, fun slot => (locks' slot).trans (locks slot)⟩

@[simp]
theorem mem_sessions_drop {t : SessionId} :
    t ∈ (srv.drop s).sessions ↔ t ∈ srv.sessions ∧ t ≠ s := by
  simp [drop]

@[simp]
theorem mem_locks_drop {slot : Nat} {t : SessionId} :
    (slot, t) ∈ (srv.drop s).locks ↔ (slot, t) ∈ srv.locks ∧ t ≠ s := by
  simp [drop]

theorem Touches.drop (mine : s.admission = i) : Touches i srv (srv.drop s) := by
  intro t other
  have differs : t ≠ s := by
    rintro rfl
    exact other mine
  simp [differs]

theorem Touches.openSession (mine : s.admission = i) : Touches i srv (srv.openSession s) := by
  intro t other
  have differs : t ≠ s := by
    rintro rfl
    exact other mine
  simp [Server.openSession, differs]

theorem Exclusive.drop (exclusive : Exclusive srv) (s : SessionId) : Exclusive (srv.drop s) :=
  exclusive.sublist (List.Sublist.map Prod.fst List.filter_sublist)

theorem Exclusive.eq_of_mem (exclusive : Exclusive srv) {slot : Nat} {t : SessionId}
    (first : (slot, s) ∈ srv.locks) (second : (slot, t) ∈ srv.locks) : s = t := by
  have same : ((slot, s) : Nat × SessionId) = (slot, t) :=
    List.inj_on_of_nodup_map exclusive first second rfl
  exact (Prod.mk.inj same).2

/-- A lock is granted where nobody holds the slot; a session without locks never finds
itself there. -/
theorem tryAdvisoryLock_spec (clear : Clear srv s.admission) (slot : Nat) :
    srv.tryAdvisoryLock slot s = (false, srv) ∨
      (srv.tryAdvisoryLock slot s = (true, { srv with locks := (slot, s) :: srv.locks }) ∧
        ∀ t, (slot, t) ∉ srv.locks) := by
  unfold tryAdvisoryLock
  split
  · exact .inl rfl
  · rename_i free
    refine .inr ⟨rfl, fun t held => free ?_⟩
    rw [List.any_eq_true]
    refine ⟨(slot, t), held, ?_⟩
    have other : t ≠ s := by
      rintro rfl
      exact clear slot t held rfl
    simp [other]

end Server

/-! ## What an admission keeps -/

open Server

/-- The variables fit the line the admission is at. -/
def Admission.Sound (a : Admission) : Prop :=
  match a.line with
  | .checkEnabled | .connect | .connected | .readLimit | .wait => a.acquiredSlot = none
  | .beforeLock slot _ | .tryLock slot _ => a.acquiredSlot = none ∧ 1 ≤ slot
  | .afterLock slot _ => 1 ≤ slot
  | .scanned | .readFresh | .unlock => a.acquiredSlot.isSome
  | .commitFresh | .body => ∃ slot row, a.acquiredSlot = some slot ∧ a.fresh = some row ∧
      (slot : Int) ≤ row.maximumConcurrency ∧ row.globalEnabled = true ∧ row.targetDisabled = false
  | _ => True

def Line.ended : Line → Bool
  | .commitUnlock _ | .exited => true
  | _ => false

/-- The locks of an admission are those its variables name. -/
structure Held (srv : Server) (i : Nat) (a : Admission) : Prop where
  mine : ∀ s, a.session = some s → s.admission = i
  positive : ∀ slot, a.acquiredSlot = some slot → 1 ≤ slot
  owned : ∀ slot s, (slot, s) ∈ srv.locks → s.admission = i →
    a.session = some s ∧ a.acquiredSlot = some slot
  kept : ∀ slot s, a.acquiredSlot = some slot → a.session = some s → s ∈ srv.sessions →
    (slot, s) ∈ srv.locks

structure Fits (srv : Server) (i : Nat) (a : Admission) : Prop where
  mine : ∀ s, a.session = some s → s.admission = i
  positive : ∀ slot, a.acquiredSlot = some slot → 1 ≤ slot
  sound : a.Sound
  held : a.line.ended = false → Held srv i a
  clear : a.line.ended = true → Clear srv i

/-- A state an admission has come to within a turn, its line aside. -/
structure Within (i : Nat) (srv₀ : Server) (srv : Server) (a : Admission) : Prop where
  touches : Touches i srv₀ srv
  exclusive : Exclusive srv
  held : Held srv i a

/-- The same, where a lock may have been granted without the admission's knowledge. -/
structure Loose (i : Nat) (srv₀ : Server) (srv : Server) (a : Admission) : Prop where
  touches : Touches i srv₀ srv
  exclusive : Exclusive srv
  mine : ∀ s, a.session = some s → s.admission = i
  positive : ∀ slot, a.acquiredSlot = some slot → 1 ≤ slot
  owned : ∀ slot s, (slot, s) ∈ srv.locks → s.admission = i → a.session = some s

/-- The end of a turn. -/
structure Lands (i : Nat) (srv₀ : Server) (next : Server × Admission) : Prop where
  touches : Touches i srv₀ next.1
  exclusive : Exclusive next.1
  fits : Fits next.1 i next.2

section Turn

variable {i : Nat} {srv₀ srv : Server} {a : Admission}

/-- The variables that say what is held are the same in two records. -/
theorem Held.congr {b : Admission} (held : Held srv i a) (session : b.session = a.session)
    (slot : b.acquiredSlot = a.acquiredSlot) : Held srv i b := by
  refine ⟨?_, ?_, ?_, ?_⟩
  · rw [session]
    exact held.mine
  · rw [slot]
    exact held.positive
  · rw [session, slot]
    exact held.owned
  · rw [session, slot]
    exact held.kept

theorem Held.clear_of_none (held : Held srv i a) (none_ : a.acquiredSlot = none ∨ a.session = none) :
    Clear srv i := by
  intro slot s lock mine
  obtain ⟨session, acquired⟩ := held.owned slot s lock mine
  rcases none_ with absent | absent
  · rw [absent] at acquired
    cases acquired
  · rw [absent] at session
    cases session

theorem Within.congr {b : Admission} (within : Within i srv₀ srv a) (session : b.session = a.session)
    (slot : b.acquiredSlot = a.acquiredSlot) : Within i srv₀ srv b :=
  ⟨within.touches, within.exclusive, within.held.congr session slot⟩

theorem Within.land {l : Line} (within : Within i srv₀ srv a)
    (sound : Admission.Sound { a with line := l }) (running : l.ended = false) :
    Lands i srv₀ (srv, { a with line := l }) := by
  refine ⟨within.touches, within.exclusive, within.held.mine, within.held.positive, sound, ?_, ?_⟩
  · exact fun _ => within.held.congr rfl rfl
  · intro ended
    rw [running] at ended
    cases ended

theorem Within.loose (within : Within i srv₀ srv a) : Loose i srv₀ srv a :=
  ⟨within.touches, within.exclusive, within.held.mine, within.held.positive,
    fun slot s lock mine => (within.held.owned slot s lock mine).1⟩

/-- An invalidated connection holds nothing. -/
theorem Loose.invalidate (loose : Loose i srv₀ srv a) :
    Within i srv₀ (invalidate srv a).1 (invalidate srv a).2 ∧ (invalidate srv a).2.session = none := by
  unfold Network.invalidate
  split
  · rename_i absent
    refine ⟨⟨loose.touches, loose.exclusive, loose.mine, loose.positive, ?_, ?_⟩, absent⟩
    · intro slot s lock mine
      have session := loose.owned slot s lock mine
      rw [absent] at session
      cases session
    · intro slot s _ session
      rw [absent] at session
      cases session
  rename_i s present
  have mine := loose.mine s present
  refine ⟨⟨loose.touches.trans (.drop mine), loose.exclusive.drop s, ?_⟩, rfl⟩
  refine ⟨(fun t opened => nomatch opened), loose.positive, ?_, (fun _ _ _ opened => nomatch opened)⟩
  intro slot t lock owner
  obtain ⟨lock, other⟩ := mem_locks_drop.1 lock
  have session := loose.owned slot t lock owner
  rw [present] at session
  exact absurd (Option.some.inj session).symm other

theorem Within.discarding (within : Within i srv₀ srv a) :
    Within i srv₀ srv { a with discard := true } := within.congr rfl rfl

/-- The admission is over, and no lock is left. -/
theorem Loose.land {l : Line} (loose : Loose i srv₀ srv a) (clear : Clear srv i)
    (sound : Admission.Sound { a with line := l }) (ended : l.ended = true) :
    Lands i srv₀ (srv, { a with line := l }) := by
  refine ⟨loose.touches, loose.exclusive, loose.mine, loose.positive, sound, ?_, fun _ => clear⟩
  intro running
  rw [ended] at running
  cases running

theorem Loose.closeUp (loose : Loose i srv₀ srv a) (clear : Clear srv i) :
    Lands i srv₀ (closeUp srv a) := by
  dsimp only [Network.closeUp]
  split
  · obtain ⟨dropped, absent⟩ := loose.invalidate
    exact dropped.loose.land (dropped.held.clear_of_none (.inr absent)) trivial rfl
  · exact loose.land clear trivial rfl

theorem Within.finallyUnlock (within : Within i srv₀ srv a) : Lands i srv₀ (finallyUnlock srv a) := by
  unfold Network.finallyUnlock
  split
  · rename_i both
    exact within.land both.2 rfl
  · rename_i nothing
    refine within.loose.closeUp (within.held.clear_of_none ?_)
    cases connection : a.connection with
    | none => exact .inr (by simp [Admission.session, connection])
    | some session => exact .inl (by simpa [connection] using nothing)

theorem Within.raiseOuter (within : Within i srv₀ srv a) (raised : Raised) :
    Lands i srv₀ (raiseOuter srv a raised) := by
  cases raised with
  | denied => exact within.finallyUnlock
  | exit => exact within.finallyUnlock
  | exception =>
      dsimp only [Network.raiseOuter]
      split
      · exact within.loose.invalidate.1.discarding.finallyUnlock
      · exact within.finallyUnlock

theorem Loose.raiseInner (loose : Loose i srv₀ srv a) : Lands i srv₀ (raiseInner srv a .exception) :=
  loose.invalidate.1.discarding.raiseOuter .denied

theorem Within.raiseInner (within : Within i srv₀ srv a) (raised : Raised) :
    Lands i srv₀ (raiseInner srv a raised) := by
  cases raised with
  | denied => exact within.land trivial rfl
  | exit => exact within.raiseOuter .exit
  | exception => exact within.loose.raiseInner

theorem Loose.raiseUnlock (loose : Loose i srv₀ srv a) : Lands i srv₀ (raiseUnlock srv a .exception) := by
  obtain ⟨dropped, absent⟩ := loose.invalidate
  exact dropped.discarding.loose.closeUp (dropped.held.clear_of_none (.inr absent))

theorem Within.raiseUnlock_exit (within : Within i srv₀ srv a) (absent : a.session = none) :
    Lands i srv₀ (raiseUnlock srv a .exit) :=
  within.loose.land (within.held.clear_of_none (.inr absent)) trivial rfl

/-- A statement, from what its effect and its handlers do. -/
theorem lands_statement {outcome : Outcome} {next : Server × Admission}
    {raise_ : Server → Admission → Raised → Server × Admission} {effect : SessionId → Server}
    {work : SessionId → Server × Admission} (start : Loose i srv₀ srv a)
    (effects : ∀ s, a.session = some s → Loose i srv₀ (effect s) a)
    (exception : Lands i srv₀ (raise_ srv a .exception))
    (executed : ∀ s, a.session = some s → Lands i srv₀ (raise_ (effect s) a .exception))
    (exit : ∀ srv b, Within i srv₀ srv b → b.session = none → Lands i srv₀ (raise_ srv b .exit))
    (returns : ∀ s, a.session = some s → s ∈ srv.sessions → Lands i srv₀ (work s))
    (done : statement srv a outcome raise_ effect work = some next) : Lands i srv₀ next := by
  unfold statement at done
  split at done
  · cases done
  rename_i s present
  split at done
  · obtain rfl := Option.some.inj done
    exact exception
  rename_i alive
  split at done
  · obtain rfl := Option.some.inj done
    exact returns s present (not_not.1 alive)
  · cases done
  · cases done
  · obtain rfl := Option.some.inj done
    split
    · exact executed s present
    · exact exception
  · obtain rfl := Option.some.inj done
    split
    · obtain ⟨dropped, absent⟩ := (effects s present).invalidate
      exact exit _ _ dropped absent
    · obtain ⟨dropped, absent⟩ := start.invalidate
      exact exit _ _ dropped absent

theorem lands_query {outcome : Outcome} {next work : Server × Admission}
    {raise_ : Server → Admission → Raised → Server × Admission} (start : Within i srv₀ srv a)
    (raises : ∀ srv b raised, Within i srv₀ srv b → Lands i srv₀ (raise_ srv b raised))
    (returns : Lands i srv₀ work) (done : query srv a outcome raise_ work = some next) :
    Lands i srv₀ next :=
  lands_statement start.loose (fun _ _ => start.loose) (raises srv a .exception start)
    (fun _ _ => raises srv a .exception start) (fun srv b within _ => raises srv b .exit within)
    (fun _ _ _ => returns) done

theorem lands_deadline {outcome : Outcome} {next : Server × Admission} {l : Line}
    {raise_ : Server → Admission → Raised → Server × Admission} (start : Within i srv₀ srv a)
    (raises : ∀ srv b raised, Within i srv₀ srv b → Lands i srv₀ (raise_ srv b raised))
    (sound : Admission.Sound { a with line := l }) (running : l.ended = false)
    (done : deadline srv a outcome raise_ l = some next) : Lands i srv₀ next := by
  unfold deadline at done
  split at done
  · obtain rfl := Option.some.inj done
    exact start.land sound running
  · obtain rfl := Option.some.inj done
    exact raises srv a .denied start
  · cases done
  · rename_i raised _ _
    obtain rfl := Option.some.inj done
    exact raises srv a raised start

/-- Taking a free slot. -/
theorem Within.locked {slot m : Nat} {s : SessionId} (within : Within i srv₀ srv a)
    (present : a.session = some s) (seeking : a.acquiredSlot = none) (positive : 1 ≤ slot) :
    Loose i srv₀ (srv.tryAdvisoryLock slot s).2 a ∧
      Lands i srv₀ ((srv.tryAdvisoryLock slot s).2, { a with
        acquiredSlot := if (srv.tryAdvisoryLock slot s).1 then some slot else a.acquiredSlot
        line := .afterLock slot m }) := by
  have mine := within.held.mine s present
  have clear : Clear srv i := within.held.clear_of_none (.inl seeking)
  rcases tryAdvisoryLock_spec (mine ▸ clear) slot with refused | ⟨granted, free⟩
  · rw [refused]
    exact ⟨within.loose, within.land positive rfl⟩
  rw [granted]
  have touches : Touches i srv₀ { srv with locks := (slot, s) :: srv.locks } := by
    refine within.touches.trans fun t other => ⟨Iff.rfl, fun slot' => ?_⟩
    have differs : t ≠ s := by
      rintro rfl
      exact other mine
    simp [differs]
  have exclusive : Exclusive { srv with locks := (slot, s) :: srv.locks } := by
    refine List.nodup_cons.2 ⟨?_, within.exclusive⟩
    intro held
    obtain ⟨⟨slot', t⟩, lock, rfl⟩ := List.mem_map.1 held
    exact free t lock
  have owned : ∀ slot' t, (slot', t) ∈ (slot, s) :: srv.locks → t.admission = i →
      t = s ∧ slot' = slot := by
    intro slot' t lock owner
    rcases List.mem_cons.1 lock with same | old
    · obtain ⟨rfl, rfl⟩ := Prod.mk.inj same
      exact ⟨rfl, rfl⟩
    · exact absurd owner (clear slot' t old)
  have positive' : ∀ slot', a.acquiredSlot = some slot' → 1 ≤ slot' := within.held.positive
  refine ⟨⟨touches, exclusive, within.held.mine, positive', ?_⟩, touches, exclusive,
    within.held.mine, ?_, positive, fun _ => ⟨within.held.mine, ?_, ?_, ?_⟩, (fun ended => nomatch ended)⟩
  · intro slot' t lock owner
    rw [(owned slot' t lock owner).1]
    exact present
  · rintro slot' ⟨⟩
    exact positive
  · rintro slot' ⟨⟩
    exact positive
  · intro slot' t lock owner
    obtain ⟨rfl, rfl⟩ := owned slot' t lock owner
    exact ⟨present, rfl⟩
  · rintro slot' t ⟨⟩ session _
    obtain rfl : s = t := Option.some.inj (present.symm.trans session)
    exact List.mem_cons_self

/-- Giving the slot back. -/
theorem Within.unlocked {slot : Nat} {s : SessionId} (within : Within i srv₀ srv a)
    (present : a.session = some s) (acquired : a.acquiredSlot = some slot) :
    Loose i srv₀ (srv.advisoryUnlock slot s).2 a ∧ Clear (srv.advisoryUnlock slot s).2 i := by
  have mine := within.held.mine s present
  unfold advisoryUnlock
  split
  · have touches : Touches i srv₀ { srv with locks := srv.locks.erase (slot, s) } := by
      refine within.touches.trans fun t other => ⟨Iff.rfl, fun slot' => ?_⟩
      have differs : ((slot', t) : Nat × SessionId) ≠ (slot, s) := by
        rintro ⟨⟩
        exact other mine
      exact List.mem_erase_of_ne differs
    have exclusive : Exclusive { srv with locks := srv.locks.erase (slot, s) } :=
      within.exclusive.sublist (List.Sublist.map Prod.fst List.erase_sublist)
    refine ⟨⟨touches, exclusive, within.held.mine, within.held.positive, ?_⟩, ?_⟩
    · intro slot' t lock owner
      exact (within.held.owned slot' t (List.mem_of_mem_erase lock) owner).1
    · intro slot' t lock owner
      obtain ⟨session, slot_eq⟩ := within.held.owned slot' t (List.mem_of_mem_erase lock) owner
      obtain rfl : s = t := Option.some.inj (present.symm.trans session)
      obtain rfl : slot = slot' := Option.some.inj (acquired.symm.trans slot_eq)
      exact (List.Nodup.of_map _ within.exclusive).not_mem_erase lock
  · rename_i absent
    refine ⟨within.loose, fun slot' t lock owner => absent ?_⟩
    obtain ⟨session, slot_eq⟩ := within.held.owned slot' t lock owner
    obtain rfl : s = t := Option.some.inj (present.symm.trans session)
    obtain rfl : slot = slot' := Option.some.inj (acquired.symm.trans slot_eq)
    exact lock

/-- A check that passes read both switches on. -/
theorem readEnabledAndLimit_ok {row : Option Reading} {maximum : Nat}
    (passed : readEnabledAndLimit row = .ok maximum) :
    ∃ reading, row = some reading ∧ (maximum : Int) = reading.maximumConcurrency ∧
      reading.globalEnabled = true ∧ reading.targetDisabled = false := by
  unfold readEnabledAndLimit at passed
  split at passed
  · cases passed
  rename_i reading
  unfold checkMaximum at passed
  split at passed
  · rename_i bounds
    simp only [bind, Except.bind] at passed
    split at passed
    · cases passed
    split at passed
    · cases passed
    rename_i enabled disabled
    obtain rfl := Except.ok.inj passed
    exact ⟨reading, rfl, Int.toNat_of_nonneg (by omega), by simpa using enabled, by simpa using disabled⟩
  · cases passed

/-- Opening the session, which has no lock yet. -/
theorem Within.connecting (within : Within i srv₀ srv a) (none_ : a.acquiredSlot = none) :
    Lands i srv₀ (srv.openSession ⟨i, 0⟩,
      { a with connection := some (some ⟨i, 0⟩), line := .connected }) := by
  have clear := within.held.clear_of_none (.inl none_)
  have mine : ∀ s : SessionId, some ⟨i, 0⟩ = some s → s.admission = i := by
    rintro s ⟨⟩
    rfl
  refine ⟨within.touches.trans (.openSession rfl), within.exclusive, mine, within.held.positive, none_,
    fun _ => ⟨mine, within.held.positive, ?_, ?_⟩, (fun ended => nomatch ended)⟩
  · intro slot s lock owner
    exact absurd owner (clear slot s lock)
  · intro slot s acquired
    rw [show a.acquiredSlot = none from none_] at acquired
    cases acquired

/-- An unlock on an invalidated connection: its new session has nothing to give back. -/
theorem Within.reconnected {slot : Nat} (within : Within i srv₀ srv a) (absent : a.session = none) :
    Lands i srv₀ ((advisoryUnlock (srv.openSession ⟨i, 1⟩) slot ⟨i, 1⟩).2,
      { a with
        connection := some (some ⟨i, 1⟩)
        line := .commitUnlock (advisoryUnlock (srv.openSession ⟨i, 1⟩) slot ⟨i, 1⟩).1 }) := by
  have clear := within.held.clear_of_none (.inr absent)
  have nothing : advisoryUnlock (srv.openSession ⟨i, 1⟩) slot ⟨i, 1⟩ =
      (false, srv.openSession ⟨i, 1⟩) := by
    rw [advisoryUnlock, if_neg]
    exact fun lock => clear slot _ lock rfl
  rw [nothing]
  refine ⟨within.touches.trans (.openSession rfl), within.exclusive, ?_, within.held.positive, trivial,
    (fun running => nomatch running), fun _ => clear⟩
  rintro s ⟨⟩
  rfl

theorem Fits.within (fits : Fits srv i a) (exclusive : Exclusive srv) (running : a.line.ended = false) :
    Within i srv srv a :=
  ⟨.refl i srv, exclusive, fits.held running⟩

section Turns

variable {targetId : Int} {connection : Option (Option SessionId)} {acquiredSlot : Option Nat} {discard yielded : Bool}
  {fresh : Option Reading} {outcome : Outcome} {next : Server × Admission}

theorem checkEnabled_lands
    (within : Within i srv srv ⟨targetId, .checkEnabled, connection, acquiredSlot, discard, yielded, fresh⟩)
    (none_ : acquiredSlot = none)
    (done : turn i srv ⟨targetId, .checkEnabled, connection, acquiredSlot, discard, yielded, fresh⟩ outcome = some next) :
    Lands i srv next := by
  have out := within.loose.land (l := .exited) (within.held.clear_of_none (.inl none_)) trivial rfl
  dsimp only [turn] at done
  split at done
  · split at done
    · obtain rfl := Option.some.inj done
      exact out
    · split at done
      · obtain rfl := Option.some.inj done
        exact within.land none_ rfl
      · obtain rfl := Option.some.inj done
        exact out
  · cases done
  · obtain rfl := Option.some.inj done
    exact out

/-- A slot that is held at the fresh check is within the maximum read there. -/
theorem readFresh_lands
    (within : Within i srv srv ⟨targetId, .readFresh, connection, acquiredSlot, discard, yielded, fresh⟩)
    (some_ : acquiredSlot.isSome = true)
    (done : turn i srv ⟨targetId, .readFresh, connection, acquiredSlot, discard, yielded, fresh⟩ outcome = some next) :
    Lands i srv next := by
  dsimp only [turn] at done
  have read := within.congr
    (b := ⟨targetId, .readFresh, connection, acquiredSlot, discard, yielded, srv.select targetId⟩) rfl rfl
  refine lands_query within (fun _ _ raised within => within.raiseOuter raised) ?_ done
  split
  · exact read.raiseOuter _
  · rename_i maximum passed
    obtain ⟨reading, row, same, enabled, disabled⟩ := readEnabledAndLimit_ok passed
    obtain ⟨slot, acquired⟩ := Option.isSome_iff_exists.1 some_
    split
    · exact read.raiseOuter .exception
    · rename_i fitting
      refine read.land ⟨slot, reading, acquired, row, ?_, enabled, disabled⟩ rfl
      rw [acquired, Option.getD_some] at fitting
      omega

theorem body_lands (within : Within i srv srv ⟨targetId, .body, connection, acquiredSlot, discard, yielded, fresh⟩)
    (done : turn i srv ⟨targetId, .body, connection, acquiredSlot, discard, yielded, fresh⟩ outcome = some next) :
    Lands i srv next := by
  dsimp only [turn] at done
  split at done
  · obtain rfl := Option.some.inj done
    exact within.finallyUnlock
  · cases done
  · obtain rfl := Option.some.inj done
    exact within.raiseOuter _

/-- An invalidated connection reconnects; another one unlocks, or is invalidated on the way. -/
theorem unlock_lands (within : Within i srv srv ⟨targetId, .unlock, connection, acquiredSlot, discard, yielded, fresh⟩)
    (some_ : acquiredSlot.isSome = true)
    (done : turn i srv ⟨targetId, .unlock, connection, acquiredSlot, discard, yielded, fresh⟩ outcome = some next) :
    Lands i srv next := by
  obtain ⟨slot, acquired⟩ := Option.isSome_iff_exists.1 some_
  subst acquired
  dsimp only [turn] at done
  split at done
  · rename_i absent
    obtain rfl := Option.some.inj done
    exact within.reconnected absent
  · cases done
  · rename_i raised executed absent
    obtain rfl := Option.some.inj done
    cases raised with
    | exit => exact within.raiseUnlock_exit absent
    | denied => exact within.loose.raiseUnlock
    | exception => exact within.loose.raiseUnlock
  · have unlocked := fun s present => within.unlocked (s := s) present rfl
    refine lands_statement within.loose (fun s present => (unlocked s present).1)
      within.loose.raiseUnlock (fun s present => (unlocked s present).1.raiseUnlock)
      (fun _ _ within absent => within.raiseUnlock_exit absent) ?_ done
    intro s present _
    exact (unlocked s present).1.land (l := .commitUnlock _) (unlocked s present).2 trivial rfl

theorem commitUnlock_lands {unlocked : Bool} (exclusive : Exclusive srv)
    (fits : Fits srv i ⟨targetId, .commitUnlock unlocked, connection, acquiredSlot, discard, yielded, fresh⟩)
    (done : turn i srv ⟨targetId, .commitUnlock unlocked, connection, acquiredSlot, discard, yielded, fresh⟩ outcome =
      some next) : Lands i srv next := by
  have clear : Clear srv i := fits.clear rfl
  have left : Loose i srv srv ⟨targetId, .commitUnlock unlocked, connection, acquiredSlot, discard, yielded, fresh⟩ :=
    ⟨.refl i srv, exclusive, fits.mine, fits.positive, fun slot s lock mine => absurd mine (clear slot s lock)⟩
  refine lands_statement left (fun _ _ => left) left.raiseUnlock (fun _ _ => left.raiseUnlock)
    (fun _ _ within absent => within.raiseUnlock_exit absent) (fun _ _ _ => ?_) done
  split
  · exact left.closeUp clear
  · have discarding : Loose i srv srv
        ⟨targetId, .commitUnlock unlocked, connection, acquiredSlot, true, yielded, fresh⟩ :=
      ⟨left.touches, left.exclusive, left.mine, left.positive, left.owned⟩
    obtain ⟨dropped, absent⟩ := discarding.invalidate
    exact dropped.loose.closeUp (dropped.held.clear_of_none (.inr absent))

end Turns

/-- **A turn touches only the admission's own sessions and locks, and leaves its
variables fitting what it holds.** -/
theorem turn_lands {outcome : Outcome} {next : Server × Admission} (exclusive : Exclusive srv)
    (fits : Fits srv i a) (done : turn i srv a outcome = some next) : Lands i srv next := by
  have outer : ∀ srv' b raised, Within i srv srv' b → Lands i srv (raiseOuter srv' b raised) :=
    fun _ _ raised within => within.raiseOuter raised
  have inner : ∀ srv' b raised, Within i srv srv' b → Lands i srv (raiseInner srv' b raised) :=
    fun _ _ raised within => within.raiseInner raised
  have running := fits.within exclusive
  have sound := fits.sound
  obtain ⟨targetId, line, connection, acquiredSlot, discard, yielded, fresh⟩ := a
  cases line with
  | checkEnabled => exact checkEnabled_lands (running rfl) sound done
  | connect =>
      dsimp only [turn] at done
      split at done
      · obtain rfl := Option.some.inj done
        exact (running rfl).connecting sound
      · cases done
      · cases done
      · obtain rfl := Option.some.inj done
        exact (running rfl).raiseOuter _
  | connected => exact lands_deadline (running rfl) outer (l := .readLimit) sound rfl done
  | readLimit =>
      refine lands_query (running rfl) inner ?_ done
      split
      · exact (running rfl).land ⟨sound, Nat.le_refl 1⟩ rfl
      · exact (running rfl).raiseInner _
  | beforeLock slot maximum =>
      exact lands_deadline (running rfl) inner (l := .tryLock slot maximum) sound rfl done
  | tryLock slot maximum =>
      have within := running rfl
      have locked := fun s present => within.locked (s := s) (m := maximum) present sound.1 sound.2
      exact lands_statement within.loose (fun s present => (locked s present).1) within.loose.raiseInner
        (fun s present => (locked s present).1.raiseInner) (fun _ _ within _ => within.raiseInner .exit)
        (fun s present _ => (locked s present).2) done
  | afterLock slot maximum =>
      dsimp only [turn] at done
      refine lands_deadline (running rfl) inner ?_ ?_ done
      · split
        · trivial
        · rename_i none_
          split
          · exact ⟨by simpa using none_, Nat.le_add_left 1 slot⟩
          · trivial
      · split
        · rfl
        · split <;> rfl
  | commitScan =>
      dsimp only [turn] at done
      refine lands_query (running rfl) inner ?_ done
      split
      · rename_i acquired
        exact (running rfl).land acquired rfl
      · rename_i none_
        exact (running rfl).land (by simpa [Admission.Sound] using none_) rfl
  | scanned => exact lands_deadline (running rfl) inner (l := .readFresh) sound rfl done
  | rollback => exact lands_query (running rfl) outer ((running rfl).raiseOuter .denied) done
  | wait => exact lands_deadline (running rfl) outer (l := .readLimit) sound rfl done
  | readFresh => exact readFresh_lands (running rfl) sound done
  | commitFresh =>
      refine lands_query (running rfl) outer ?_ done
      exact ((running rfl).congr (b := ⟨targetId, .commitFresh, connection, acquiredSlot, discard, true,
        fresh⟩) rfl rfl).land sound rfl
  | body => exact body_lands (running rfl) done
  | unlock => exact unlock_lands (running rfl) sound done
  | commitUnlock unlocked => exact commitUnlock_lands exclusive fits done
  | exited => cases done

end Turn

/-! ## Whole runs -/

/-- Every slot is held once, by an admission whose variables say so. -/
structure World.Inv (w : World) : Prop where
  exclusive : Exclusive w.server
  fits : ∀ i a, w.admissions i = some a → Fits w.server i a
  begun : ∀ slot s, (slot, s) ∈ w.server.locks → w.admissions s.admission ≠ none

/-- What an admission is told of the server depends only on its own sessions and locks. -/
theorem Fits.congr {srv srv' : Server} {i : Nat} {a : Admission} (fits : Fits srv i a)
    (sessions : ∀ s, s.admission = i → s ∈ srv'.sessions → s ∈ srv.sessions)
    (locks : ∀ slot s, s.admission = i → (slot, s) ∈ srv'.locks → (slot, s) ∈ srv.locks)
    (kept : ∀ slot s, s.admission = i → s ∈ srv'.sessions → (slot, s) ∈ srv.locks →
      (slot, s) ∈ srv'.locks) : Fits srv' i a := by
  refine ⟨fits.mine, fits.positive, fits.sound, fun running => ?_, fun ended => ?_⟩
  · have held := fits.held running
    refine ⟨held.mine, held.positive, ?_, ?_⟩
    · intro slot s lock mine
      exact held.owned slot s (locks slot s mine lock) mine
    · intro slot s acquired session alive
      have mine := held.mine s session
      exact kept slot s mine alive (held.kept slot s acquired session (sessions s mine alive))
  · intro slot s lock mine
    exact fits.clear ended slot s (locks slot s mine lock) mine

/-- Another admission's turn leaves the variables fitting. -/
theorem Fits.frame {srv srv' : Server} {i j : Nat} {a : Admission} (fits : Fits srv j a)
    (touches : Touches i srv srv') (other : j ≠ i) : Fits srv' j a := by
  refine fits.congr ?_ ?_ ?_
  · rintro s rfl alive
    exact (touches s other).1.1 alive
  · rintro slot s rfl lock
    exact ((touches s other).2 slot).1 lock
  · rintro slot s rfl _ lock
    exact ((touches s other).2 slot).2 lock

namespace World

variable {w w' : World}

theorem admissions_put (w : World) (i j : Nat) (srv : Server) (a : Admission) :
    (w.put i srv a).admissions j = if j = i then some a else w.admissions j := rfl

theorem Inv.put {i : Nat} {srv : Server} {a : Admission} (inv : Inv w)
    (lands : Lands i w.server (srv, a)) : Inv (w.put i srv a) := by
  refine ⟨lands.exclusive, ?_, ?_⟩
  · intro j b found
    rw [admissions_put] at found
    split at found
    · rename_i same
      obtain rfl := same
      obtain rfl := Option.some.inj found
      exact lands.fits
    · rename_i other
      exact (inv.fits j b found).frame lands.touches other
  · intro slot s lock
    rw [admissions_put]
    split
    · exact (fun absent => nomatch absent)
    · rename_i other
      exact inv.begun slot s (((lands.touches s other).2 slot).1 lock)

theorem Inv.init (start : w.Init) : Inv w := by
  obtain ⟨-, locks, admissions⟩ := start
  refine ⟨?_, ?_, ?_⟩
  · rw [Exclusive, locks]
    exact List.nodup_nil
  · intro i a found
    rw [admissions i] at found
    cases found
  · intro slot s lock
    rw [locks] at lock
    cases lock

theorem Inv.step {e : Event} (inv : Inv w) (done : w.step e = some w') : Inv w' := by
  cases e with
  | start i targetId =>
      simp only [World.step] at done
      split at done
      · rename_i absent
        obtain rfl := Option.some.inj done
        have clear : Clear w.server i := by
          rintro slot s lock rfl
          exact inv.begun slot s lock absent
        have loose : Loose i w.server w.server (Admission.start targetId) :=
          ⟨.refl i w.server, inv.exclusive, (fun s opened => nomatch opened),
            (fun slot acquired => nomatch acquired), fun slot s lock mine => absurd mine (clear slot s lock)⟩
        exact inv.put (loose.invalidate.1.land (l := .checkEnabled) rfl rfl)
      · cases done
  | turn i outcome =>
      simp only [World.step] at done
      split at done
      · cases done
      · rename_i a found
        obtain ⟨next, turned, rfl⟩ := Option.map_eq_some_iff.1 done
        exact inv.put (turn_lands inv.exclusive (inv.fits i a found) turned)
  | lose s =>
      obtain rfl := Option.some.inj done
      refine ⟨inv.exclusive.drop s, fun i a found => (inv.fits i a found).congr ?_ ?_ ?_, ?_⟩
      · intro t _ alive
        exact (mem_sessions_drop.1 alive).1
      · intro slot t _ lock
        exact (mem_locks_drop.1 lock).1
      · intro slot t _ alive lock
        exact mem_locks_drop.2 ⟨lock, (mem_sessions_drop.1 alive).2⟩
      · intro slot t lock
        exact inv.begun slot t (mem_locks_drop.1 lock).1
  | configure control =>
      obtain rfl := Option.some.inj done
      exact ⟨inv.exclusive, fun i a found => (inv.fits i a found).congr (fun _ _ h => h)
        (fun _ _ _ h => h) (fun _ _ _ _ h => h), inv.begun⟩
  | setDisabled targets =>
      obtain rfl := Option.some.inj done
      exact ⟨inv.exclusive, fun i a found => (inv.fits i a found).congr (fun _ _ h => h)
        (fun _ _ _ h => h) (fun _ _ _ _ h => h), inv.begun⟩

end World

/-! ## What is read -/

/-- The control row is as it was, and every fresh reading satisfies `P`. -/
structure Keeps (P : Reading → Prop) (control : Option Control) (next : Server × Admission) : Prop where
  control : next.1.control = control
  fresh : ∀ row, next.2.fresh = some row → P row

section Keeps

variable {P : Reading → Prop} {control : Option Control} {srv : Server} {a : Admission}
  {next : Server × Admission} {outcome : Outcome}
  {raise_ : Server → Admission → Raised → Server × Admission}

theorem Keeps.invalidate (keeps : Keeps P control (srv, a)) : Keeps P control (invalidate srv a) := by
  unfold Network.invalidate
  split
  · exact keeps
  · exact ⟨keeps.control, keeps.fresh⟩

theorem Keeps.closeUp (keeps : Keeps P control (srv, a)) : Keeps P control (closeUp srv a) := by
  dsimp only [Network.closeUp]
  split
  · exact ⟨keeps.invalidate.control, keeps.invalidate.fresh⟩
  · exact ⟨keeps.control, keeps.fresh⟩

theorem Keeps.finallyUnlock (keeps : Keeps P control (srv, a)) :
    Keeps P control (finallyUnlock srv a) := by
  unfold Network.finallyUnlock
  split
  · exact ⟨keeps.control, keeps.fresh⟩
  · exact keeps.closeUp

theorem Keeps.discarding (keeps : Keeps P control (srv, a)) :
    Keeps P control ((Network.invalidate srv a).1, { (Network.invalidate srv a).2 with discard := true }) :=
  ⟨keeps.invalidate.control, keeps.invalidate.fresh⟩

theorem Keeps.raiseOuter (keeps : Keeps P control (srv, a)) (raised : Raised) :
    Keeps P control (raiseOuter srv a raised) := by
  cases raised with
  | denied => exact keeps.finallyUnlock
  | exit => exact keeps.finallyUnlock
  | exception =>
      dsimp only [Network.raiseOuter]
      split
      · exact keeps.discarding.finallyUnlock
      · exact keeps.finallyUnlock

theorem Keeps.raiseInner (keeps : Keeps P control (srv, a)) (raised : Raised) :
    Keeps P control (raiseInner srv a raised) := by
  cases raised with
  | denied => exact ⟨keeps.control, keeps.fresh⟩
  | exit => exact keeps.raiseOuter .exit
  | exception => exact keeps.discarding.raiseOuter .denied

theorem Keeps.raiseUnlock (keeps : Keeps P control (srv, a)) (raised : Raised) :
    Keeps P control (raiseUnlock srv a raised) := by
  cases raised with
  | exit => exact ⟨keeps.control, keeps.fresh⟩
  | denied => exact keeps.discarding.closeUp
  | exception => exact keeps.discarding.closeUp

theorem Keeps.statement {effect : SessionId → Server} {work : SessionId → Server × Admission}
    (keeps : Keeps P control (srv, a)) (effects : ∀ s, (effect s).control = srv.control)
    (raises : ∀ srv a raised, Keeps P control (srv, a) → Keeps P control (raise_ srv a raised))
    (returns : ∀ s, Keeps P control (work s))
    (done : statement srv a outcome raise_ effect work = some next) : Keeps P control next := by
  have after : ∀ executed s, Keeps P control ((if executed = true then effect s else srv), a) := by
    intro executed s
    split
    · exact ⟨(effects s).trans keeps.control, keeps.fresh⟩
    · exact keeps
  unfold Network.statement at done
  split at done
  · cases done
  split at done
  · obtain rfl := Option.some.inj done
    exact raises _ _ _ keeps
  split at done
  · obtain rfl := Option.some.inj done
    exact returns _
  · cases done
  · cases done
  · obtain rfl := Option.some.inj done
    exact raises _ _ _ (after _ _)
  · obtain rfl := Option.some.inj done
    exact raises _ _ _ (after _ _).invalidate

theorem Keeps.deadline {line : Line} (keeps : Keeps P control (srv, a))
    (raises : ∀ srv a raised, Keeps P control (srv, a) → Keeps P control (raise_ srv a raised))
    (done : deadline srv a outcome raise_ line = some next) : Keeps P control next := by
  unfold Network.deadline at done
  split at done
  · obtain rfl := Option.some.inj done
    exact ⟨keeps.control, keeps.fresh⟩
  · obtain rfl := Option.some.inj done
    exact raises _ _ _ keeps
  · cases done
  · obtain rfl := Option.some.inj done
    exact raises _ _ _ keeps

theorem tryAdvisoryLock_control (slot : Nat) (s : SessionId) :
    (srv.tryAdvisoryLock slot s).2.control = srv.control := by
  unfold tryAdvisoryLock
  split <;> rfl

theorem advisoryUnlock_control (slot : Nat) (s : SessionId) :
    (srv.advisoryUnlock slot s).2.control = srv.control := by
  unfold advisoryUnlock
  split <;> rfl

/-- A turn leaves the control row alone, and reads no other. -/
theorem turn_keeps {i : Nat} (keeps : Keeps P control (srv, a))
    (reads : ∀ row, srv.select a.targetId = some row → P row)
    (done : turn i srv a outcome = some next) : Keeps P control next := by
  have outer : ∀ srv a raised, Keeps P control (srv, a) → Keeps P control (raiseOuter srv a raised) :=
    fun _ _ raised keeps => keeps.raiseOuter raised
  have inner : ∀ srv a raised, Keeps P control (srv, a) → Keeps P control (raiseInner srv a raised) :=
    fun _ _ raised keeps => keeps.raiseInner raised
  have unlocking : ∀ srv a raised, Keeps P control (srv, a) → Keeps P control (raiseUnlock srv a raised) :=
    fun _ _ raised keeps => keeps.raiseUnlock raised
  have moved : ∀ line, Keeps P control (srv, { a with line }) := fun _ => ⟨keeps.control, keeps.fresh⟩
  obtain ⟨targetId, line, connection, acquiredSlot, discard, yielded, fresh⟩ := a
  cases line with
  | checkEnabled =>
      dsimp only [turn] at done
      split at done
      · split at done
        · obtain rfl := Option.some.inj done
          exact moved _
        · split at done
          · obtain rfl := Option.some.inj done
            exact moved _
          · obtain rfl := Option.some.inj done
            exact moved _
      · cases done
      · obtain rfl := Option.some.inj done
        exact moved _
  | connect =>
      dsimp only [turn] at done
      split at done
      · obtain rfl := Option.some.inj done
        exact ⟨keeps.control, keeps.fresh⟩
      · cases done
      · cases done
      · obtain rfl := Option.some.inj done
        exact keeps.raiseOuter _
  | connected => exact keeps.deadline outer done
  | readLimit =>
      refine keeps.statement (fun _ => rfl) inner (fun _ => ?_) done
      split
      · exact moved _
      · exact keeps.raiseInner _
  | beforeLock slot maximum => exact keeps.deadline inner done
  | tryLock slot maximum =>
      refine keeps.statement (fun s => tryAdvisoryLock_control _ s) inner (fun s => ?_) done
      exact ⟨(tryAdvisoryLock_control _ s).trans keeps.control, keeps.fresh⟩
  | afterLock slot maximum => exact keeps.deadline inner done
  | commitScan => exact keeps.statement (fun _ => rfl) inner (fun _ => moved _) done
  | scanned => exact keeps.deadline inner done
  | rollback => exact keeps.statement (fun _ => rfl) outer (fun _ => keeps.raiseOuter .denied) done
  | wait => exact keeps.deadline outer done
  | readFresh =>
      dsimp only [turn] at done
      have read : Keeps P control (srv,
          ⟨targetId, .readFresh, connection, acquiredSlot, discard, yielded, srv.select targetId⟩) :=
        ⟨keeps.control, reads⟩
      refine keeps.statement (fun _ => rfl) outer (fun _ => ?_) done
      split
      · exact read.raiseOuter _
      · split
        · exact read.raiseOuter .exception
        · exact ⟨read.control, read.fresh⟩
  | commitFresh =>
      refine keeps.statement (fun _ => rfl) outer (fun _ => ?_) done
      exact ⟨keeps.control, keeps.fresh⟩
  | body =>
      dsimp only [turn] at done
      split at done
      · obtain rfl := Option.some.inj done
        exact keeps.finallyUnlock
      · cases done
      · obtain rfl := Option.some.inj done
        exact keeps.raiseOuter _
  | unlock =>
      dsimp only [turn] at done
      split at done
      · obtain rfl := Option.some.inj done
        exact ⟨(advisoryUnlock_control _ _).trans keeps.control, keeps.fresh⟩
      · cases done
      · obtain rfl := Option.some.inj done
        exact keeps.raiseUnlock _
      · refine keeps.statement (fun s => advisoryUnlock_control _ s) unlocking (fun s => ?_) done
        exact ⟨(advisoryUnlock_control _ s).trans keeps.control, keeps.fresh⟩
  | commitUnlock unlocked =>
      refine keeps.statement (fun _ => rfl) unlocking (fun _ => ?_) done
      split
      · exact keeps.closeUp
      · have discarding : Keeps P control (srv,
            ⟨targetId, .commitUnlock unlocked, connection, acquiredSlot, true, yielded, fresh⟩) :=
          ⟨keeps.control, keeps.fresh⟩
        exact discarding.invalidate.closeUp
  | exited => cases done

end Keeps

/-! ## The results -/

/-- An event that leaves the maximum at `M`. -/
def Event.Steady (M : Int) : Event → Prop
  | .configure (some row) => row.maximumConcurrency = M
  | _ => True

namespace World

variable {w₀ w w' : World} {trace : List Event}

/-- Admission `i` is inside its body with a slot. -/
def Inside (w : World) (i slot : Nat) : Prop :=
  ∃ a, w.admissions i = some a ∧ a.line = .body ∧ a.acquiredSlot = some slot

/-- The server still has the session of admission `i`. -/
def Connected (w : World) (i : Nat) : Prop :=
  ∃ a s, w.admissions i = some a ∧ a.session = some s ∧ s ∈ w.server.sessions

/-- Every control row and every fresh reading has the maximum `M`. -/
def Reads (M : Int) (w : World) : Prop :=
  (∀ control, w.server.control = some control → control.maximumConcurrency = M) ∧
    ∀ i a, w.admissions i = some a → ∀ row, a.fresh = some row → row.maximumConcurrency = M

theorem Reads.step {M : Int} {e : Event} (reads : Reads M w) (steady : e.Steady M)
    (done : w.step e = some w') : Reads M w' := by
  obtain ⟨control, fresh⟩ := reads
  cases e with
  | start i targetId =>
      simp only [World.step] at done
      split at done
      · obtain rfl := Option.some.inj done
        refine ⟨control, fun j b found => ?_⟩
        rw [admissions_put] at found
        split at found
        · obtain rfl := Option.some.inj found
          exact (fun row read => nomatch read)
        · exact fresh j b found
      · cases done
  | turn i outcome =>
      simp only [World.step] at done
      split at done
      · cases done
      rename_i a found
      obtain ⟨next, turned, rfl⟩ := Option.map_eq_some_iff.1 done
      have selects : ∀ row, w.server.select a.targetId = some row → row.maximumConcurrency = M := by
        intro row selected
        obtain ⟨source, present, rfl⟩ := Option.map_eq_some_iff.1 selected
        exact control source present
      have keeps := turn_keeps (P := fun row => row.maximumConcurrency = M)
        ⟨rfl, fresh i a found⟩ selects turned
      refine ⟨fun source present => control source (keeps.control.symm.trans present), ?_⟩
      intro j b found'
      rw [admissions_put] at found'
      split at found'
      · obtain rfl := Option.some.inj found'
        exact keeps.fresh
      · exact fresh j b found'
  | lose s =>
      obtain rfl := Option.some.inj done
      exact ⟨control, fresh⟩
  | configure next =>
      obtain rfl := Option.some.inj done
      refine ⟨?_, fresh⟩
      intro source present
      obtain rfl : next = some source := present
      exact steady
  | setDisabled targets =>
      obtain rfl := Option.some.inj done
      exact ⟨control, fresh⟩

theorem Reads.run {M : Int} (run : controller.Run w₀ trace w) (reads : Reads M w₀)
    (steady : ∀ e ∈ trace, e.Steady M) : Reads M w := by
  induction run with
  | refl => exact reads
  | snoc _ last ih =>
      refine Reads.step (ih fun e mem => steady e ?_) (steady _ ?_) last
      · exact List.mem_append_left _ mem
      · exact List.mem_append_right _ List.mem_cons_self

theorem Inv.run (run : controller.Run w₀ trace w) (start : w₀.Init) : Inv w :=
  run.preserves (I := Inv) (fun _ _ _ inv done => Inv.step inv done) (Inv.init start)

/-- The lock a connected admission in its body holds. -/
theorem Inv.lock_of_inside {i slot : Nat} (inv : Inv w) (inside : Inside w i slot)
    (connected : Connected w i) : ∃ s, s.admission = i ∧ (slot, s) ∈ w.server.locks := by
  obtain ⟨a, found, line, acquired⟩ := inside
  obtain ⟨b, s, found', session, alive⟩ := connected
  obtain rfl := Option.some.inj (found.symm.trans found')
  have held := (inv.fits i a found).held (by rw [line]; rfl)
  exact ⟨s, held.mine s session, held.kept slot s acquired session alive⟩

theorem Inv.slots_distinct {i j slot : Nat} (inv : Inv w) (first : Inside w i slot)
    (second : Inside w j slot) (one : Connected w i) (two : Connected w j) : i = j := by
  obtain ⟨s, rfl, lock⟩ := inv.lock_of_inside first one
  obtain ⟨t, rfl, lock'⟩ := inv.lock_of_inside second two
  rw [inv.exclusive.eq_of_mem lock lock']

theorem Inv.inside_sound {i : Nat} {a : Admission} (inv : Inv w) (found : w.admissions i = some a)
    (line : a.line = .body) : ∃ slot row, a.acquiredSlot = some slot ∧ a.fresh = some row ∧
      1 ≤ slot ∧ (slot : Int) ≤ row.maximumConcurrency ∧ row.globalEnabled = true ∧
      row.targetDisabled = false := by
  have fits := inv.fits i a found
  have sound := fits.sound
  rw [Admission.Sound, line] at sound
  obtain ⟨slot, row, acquired, fresh, below, enabled, disabled⟩ := sound
  exact ⟨slot, row, acquired, fresh, fits.positive slot acquired, below, enabled, disabled⟩

/-- Distinct slots from 1 to `M` bound the number of connected bodies. -/
theorem Inv.bodies_le {M : Nat} (inv : Inv w) (reads : Reads M w) {ids : List Nat} (distinct : ids.Nodup)
    (inside : ∀ i ∈ ids, (∃ slot, Inside w i slot) ∧ Connected w i) : ids.length ≤ M := by
  have slotted : ∀ i ∈ ids, ∃ slot, Inside w i slot ∧ 1 ≤ slot ∧ slot ≤ M := by
    intro i mem
    obtain ⟨slot, a, found, line, acquired⟩ := (inside i mem).1
    obtain ⟨slot', row, acquired', fresh, positive, below, -, -⟩ := inv.inside_sound found line
    obtain rfl := Option.some.inj (acquired.symm.trans acquired')
    have read := reads.2 i a found row fresh
    exact ⟨slot, ⟨a, found, line, acquired⟩, positive, by omega⟩
  choose! slot held positive below using slotted
  have injective : (ids.map slot).Nodup := by
    refine distinct.map_on fun i mem j mem' same => ?_
    exact inv.slots_distinct (held i mem) (same ▸ held j mem') (inside i mem).2 (inside j mem').2
  have bounded : ids.map slot ⊆ List.range' 1 M := by
    intro n mem
    obtain ⟨i, inIds, rfl⟩ := List.mem_map.1 mem
    rw [List.mem_range'_1]
    have low := positive i inIds
    have high := below i inIds
    omega
  have short := (List.subperm_of_subset injective bounded).length_le
  simpa using short

end World

/-- **Slots are neither over-issued nor leaked**, after any run: connected admissions in
their bodies hold distinct slots; every body entered with a slot within the maximum and
both switches on at its fresh check; at most `M` connected bodies run while the maximum
stays `M`; and an admission that is out holds no lock. -/
theorem admission_slots (w₀ w : World) (trace : List Event) (start : w₀.Init)
    (run : controller.Run w₀ trace w) :
    (∀ i j slot, w.Inside i slot → w.Inside j slot → w.Connected i → w.Connected j → i = j) ∧
    (∀ i a, w.admissions i = some a → a.line = .body →
      ∃ slot row, a.acquiredSlot = some slot ∧ a.fresh = some row ∧ 1 ≤ slot ∧
        (slot : Int) ≤ row.maximumConcurrency ∧ row.globalEnabled = true ∧ row.targetDisabled = false) ∧
    (∀ M : Nat, (∀ control, w₀.server.control = some control → control.maximumConcurrency = M) →
      (∀ e ∈ trace, e.Steady M) → ∀ ids : List Nat, ids.Nodup →
        (∀ i ∈ ids, (∃ slot, w.Inside i slot) ∧ w.Connected i) → ids.length ≤ M) ∧
    (∀ i a, w.admissions i = some a → a.line = .exited →
      ∀ slot s, (slot, s) ∈ w.server.locks → s.admission ≠ i) := by
  have inv := World.Inv.run run start
  refine ⟨fun i j slot => inv.slots_distinct, fun i a => inv.inside_sound, ?_, ?_⟩
  · intro M configured steady ids distinct inside
    refine inv.bodies_le (World.Reads.run run ⟨configured, ?_⟩ steady) distinct inside
    intro i a found
    rw [start.2.2 i] at found
    cases found
  · intro i a found line
    exact (inv.fits i a found).clear (by rw [line]; rfl)

section Examples

private def turns (i n : Nat) : List Event := List.replicate n (.turn i .returns)

/-- Without a fault eleven turns take an admission into its body, if the first slot is free. -/
private def enter (i : Nat) : List Event := .start i 1 :: turns i 11

private theorem turns_steady (i n : Nat) (M : Int) : ∀ e ∈ turns i n, e.Steady M := by
  intro e mem
  obtain rfl := List.eq_of_mem_replicate mem
  trivial

private theorem start_steady (i n : Nat) (M : Int) : ∀ e ∈ Event.start i 1 :: turns i n, e.Steady M := by
  intro e mem
  rcases List.mem_cons.1 mem with rfl | mem
  · trivial
  · exact turns_steady i n M e mem

/-- An admission in its body with a slot, and its session. -/
private def entered (i slot : Nat) (maximum : Int) : Admission :=
  ⟨1, .body, some (some ⟨i, 0⟩), some slot, false, true, some ⟨true, maximum, false⟩⟩

private def twoSlots : World := ⟨⟨some ⟨true, 2⟩, [], [], []⟩, fun _ => none⟩

private theorem twoSlots_init : twoSlots.Init := ⟨rfl, rfl, fun _ => rfl⟩

/-- Three admissions and two slots: the third one waits until the first has left. -/
private def threeAdmissions : List Event :=
  enter 0 ++ (.start 1 1 :: turns 1 14) ++ (.start 2 1 :: turns 2 11) ++ turns 0 3 ++ turns 2 9

private theorem threeAdmissions_steady : ∀ e ∈ threeAdmissions, e.Steady 2 := by
  intro e mem
  unfold threeAdmissions enter at mem
  rw [List.mem_append, List.mem_append, List.mem_append, List.mem_append] at mem
  rcases mem with (((first | second) | third) | leaves) | follows
  · exact start_steady 0 11 2 e first
  · exact start_steady 1 14 2 e second
  · exact start_steady 2 11 2 e third
  · exact turns_steady 0 3 2 e leaves
  · exact turns_steady 2 9 2 e follows

theorem admission_slots_three : ∃ w, controller.Run twoSlots threeAdmissions w ∧
    w.Inside 1 2 ∧ w.Connected 1 ∧ w.Inside 2 1 ∧ w.Connected 2 ∧
    (∀ ids : List Nat, ids.Nodup → (∀ i ∈ ids, (∃ slot, w.Inside i slot) ∧ w.Connected i) → ids.length ≤ 2) ∧
    ∀ slot s, (slot, s) ∈ w.server.locks → s.admission ≠ 0 := by
  obtain ⟨w, run, shown⟩ := System.Run.exists_of_map World.Init World.step twoSlots threeAdmissions
    (fun w => (w.admissions 1, w.admissions 2, (w.admissions 0).map Admission.line, w.server.sessions))
    (some (entered 1 2 2), some (entered 2 1 2), some .exited, [⟨2, 0⟩, ⟨1, 0⟩, ⟨0, 0⟩]) (by decide +kernel)
  simp only [Prod.mk.injEq] at shown
  obtain ⟨second, third, first, sessions⟩ := shown
  obtain ⟨a, left, exited⟩ := Option.map_eq_some_iff.1 first
  obtain ⟨-, -, bound, out⟩ := admission_slots twoSlots w threeAdmissions twoSlots_init run
  refine ⟨w, run, ⟨_, second, rfl, rfl⟩, ⟨_, ⟨1, 0⟩, second, rfl, ?_⟩, ⟨_, third, rfl, rfl⟩,
    ⟨_, ⟨2, 0⟩, third, rfl, ?_⟩, bound 2 ?_ threeAdmissions_steady, out 0 a left exited⟩
  · simp [sessions]
  · simp [sessions]
  · rintro control ⟨⟩
    rfl

private def oneSlot : World := ⟨⟨some ⟨true, 1⟩, [], [], []⟩, fun _ => none⟩

private theorem oneSlot_init : oneSlot.Init := ⟨rfl, rfl, fun _ => rfl⟩

/-- A session the server drops during the body frees the slot under it: with one slot,
two bodies run with it. -/
theorem admission_slots_shared : ∃ w trace, World.Init oneSlot ∧ controller.Run oneSlot trace w ∧
    (∀ e ∈ trace, e.Steady 1) ∧ w.Inside 0 1 ∧ w.Inside 1 1 := by
  obtain ⟨w, run, shown⟩ := System.Run.exists_of_map World.Init World.step oneSlot
    (enter 0 ++ .lose ⟨0, 0⟩ :: enter 1) (fun w => (w.admissions 0, w.admissions 1))
    (some (entered 0 1 1), some (entered 1 1 1)) (by decide +kernel)
  obtain ⟨first, second⟩ := Prod.mk.inj shown
  refine ⟨w, _, oneSlot_init, run, ?_, ⟨_, first, rfl, rfl⟩, ⟨_, second, rfl, rfl⟩⟩
  intro e mem
  rcases List.mem_append.1 mem with mem | mem
  · exact start_steady 0 11 1 e mem
  rcases List.mem_cons.1 mem with rfl | mem
  · trivial
  · exact start_steady 1 11 1 e mem

end Examples

end ApiSecurityPlatform.Network
