/-
# Research.RetentionClock -- what a row keeps of its clock

What retention is for is said by the `Clock` of a record: the earliest cause to make it
unavailable, and the end of its last hold.  It is read off the operations alone.  The
row keeps neither: `hold_until`, `hold_started_at` and `unavailable_at` overwrite each
other, and causes on the preparation and the context are picked up late.

`Tracks` says which of the overwritten fields still determine the clock, and what each
operation does to a row keeps it.  The one exception needs a hypothesis: a delete on a
row whose hold was released before anything had marked it, where an earlier cause is on
record and not yet applied (`Tracks.deleting`).
-/
import ApiSecurityPlatform.Research.Observation
import Mathlib.Order.MinMax

namespace ApiSecurityPlatform.Research

open ApiSecurityPlatform.Theory

set_option autoImplicit false

/-! ## The clock -/

/-- The retention clock of a record. -/
structure Clock where
  preparationId : Nat
  /-- The earliest recorded cause. -/
  cause : Int
  /-- The end of the last hold. -/
  hold : Option Int
deriving DecidableEq, Repr

namespace Clock

/-- The later of the cause and the end of the hold. -/
def value (k : Clock) : Int :=
  match k.hold with
  | none => k.cause
  | some h => max k.cause h

theorem value_unheld (k : Clock) (unheld : k.hold = none) : k.value = k.cause := by rw [value, unheld]

theorem value_held (k : Clock) {h : Int} (held : k.hold = some h) : k.value = max k.cause h := by rw [value, held]

theorem hold_le_value (k : Clock) {h : Int} (held : k.hold = some h) : h ≤ k.value := by
  rw [k.value_held held]
  exact Int.le_max_right k.cause h

theorem cause_le_value (k : Clock) : k.cause ≤ k.value := by
  cases held : k.hold with
  | none => exact Int.le_of_eq (k.value_unheld held).symm
  | some h => rw [k.value_held held]; exact Int.le_max_left k.cause h

/-- A cause is recorded. -/
def caused (k : Clock) (at_ : Int) : Clock := { k with cause := min k.cause at_ }

/-- The hold ends, if it has not before. -/
def ended (k : Clock) (at_ : Int) : Clock := { k with hold := k.hold.map fun h => min h at_ }

/-- What an operation at `at_` means for the clock of record `id`. -/
def after (k : Clock) (id : Nat) (at_ : Int) : Event → Clock
  | .hold j until_ => if j = id then { k with hold := some until_ } else k
  | .release j => if j = id then k.ended at_ else k
  | .delete j => if j = id then k.caused at_ else k
  | .quarantine j => if j = id then (k.caused at_).ended at_ else k
  | .revokePreparation p => if p = k.preparationId then (k.caused at_).ended at_ else k
  | .close => k.caused at_
  | .reconcile deleted quarantined =>
      let k := if id ∈ deleted then k.caused at_ else k
      if id ∈ quarantined then (k.caused at_).ended at_ else k
  | _ => k

@[simp]
theorem after_preparationId (k : Clock) (id : Nat) (at_ : Int) (event : Event) :
    (k.after id at_ event).preparationId = k.preparationId := by
  cases event <;> dsimp only [after] <;> repeat' split
  all_goals rfl

end Clock

/-- The record an operation is called with. -/
def Event.record? : Event → Option Nat
  | .hold id _ | .release id | .delete id | .quarantine id => some id
  | _ => none

theorem Clock.after_of_ne {event : Event} {id j : Nat} (own : event.record? = some id) (other : j ≠ id)
    (k : Clock) (at_ : Int) : k.after j at_ event = k := by
  cases event <;> cases own <;> exact if_neg (Ne.symm other)

def follow (id : Nat) (clock : Option Clock) (e : Entry) : Option Clock :=
  match clock, e.event with
  | none, .accept j preparationId expiresAt =>
      if j = id then some ⟨preparationId, expiresAt, none⟩ else none
  | none, _ => none
  | some k, event => some (k.after id e.at_ event)

/-- The clock of a record after the operations of a trace. -/
def clock (id : Nat) (trace : List Entry) : Option Clock := trace.foldl (follow id) none

theorem clock_snoc (id : Nat) (trace : List Entry) (e : Entry) :
    clock id (trace ++ [e]) = follow id (clock id trace) e := by
  simp [clock, List.foldl_append]

/-! ## What a row keeps of its clock -/

/-- The lesser of a time and one that may be absent. -/
def lower (x : Int) : Option Int → Int
  | none => x
  | some y => min x y

@[simp]
theorem lower_none (x : Int) : lower x none = x := rfl

@[simp]
theorem lower_some (x y : Int) : lower x (some y) = min x y := rfl

/-- Every time given is at most `t`. -/
def Past (t : Int) (o : Option Int) : Prop := ∀ x, o = some x → x ≤ t

@[simp]
theorem past_none (t : Int) : Past t none := (fun _ given => nomatch given)

@[simp]
theorem past_some {t x : Int} : Past t (some x) ↔ x ≤ t := by
  simp [Past]

/-- Every time given is at least `t`. -/
def From (t : Int) (o : Option Int) : Prop := ∀ x, o = some x → t ≤ x

@[simp]
theorem from_none (t : Int) : From t none := (fun _ given => nomatch given)

@[simp]
theorem from_some {t x : Int} : From t (some x) ↔ t ≤ x := by
  simp [From]

/-- What the hold fields and the mark say of a clock. -/
def Fields (closed revoked : Option Int) (last : Int) (row : ObservationRecord) (k : Clock) : Prop :=
  match row.holdStartedAt, row.holdUntil, row.unavailableAt with
  | none, none, u =>
      -- never held: nothing is lost
      k.hold = none ∧ k.cause = lower (lower (lower row.expiresAt u) closed) revoked ∧
        Past row.expiresAt u
  | none, some _, _ => False
  | some s, some e, u =>
      -- a hold on record: a reconcile past its end may have hidden the cause under it
      s ≤ last ∧ k.hold = some (lower e revoked) ∧ From s revoked ∧
        (row.state = .available → u ≠ none → e ≤ last) ∧
        (k.cause = lower (lower (lower row.expiresAt u) closed) revoked ∧ Past row.expiresAt u ∨
          e ≤ last ∧ From e revoked ∧ k.cause ≤ e ∧ u ≠ none ∧ Past e u)
  | some _, none, none =>
      -- released before any cause
      ∃ h, k.hold = some h ∧ h ≤ last ∧ h ≤ k.cause ∧ row.state = .available ∧
        k.cause = lower (lower row.expiresAt closed) revoked
  | some _, none, some x =>
      -- the clock is merged into the mark
      ∃ h, k.hold = some h ∧ h ≤ last ∧ k.cause ≤ last ∧ x = max k.cause h

/-- A row fits a clock at time `last`, with the close of the context and the revocation
of the preparation on record. -/
structure Tracks (closed revoked : Option Int) (last : Int) (row : ObservationRecord) (k : Clock) :
    Prop where
  closedPast : Past last closed
  revokedPast : Past last revoked
  markedPast : Past last row.unavailableAt
  marked : row.state ≠ .available → row.unavailableAt ≠ none
  expired : row.state = .available → row.unavailableAt ≠ none → row.expiresAt ≤ last
  fields : Fields closed revoked last row k

/-- The causes on record have been applied to the row. -/
structure Applied (closed revoked : Option Int) (row : ObservationRecord) : Prop where
  marked : closed ≠ none ∨ revoked ≠ none → row.state ≠ .available
  unheld : revoked ≠ none → row.holdUntil = none
  closed : row.holdStartedAt = none ∨ row.holdUntil ≠ none →
    ∀ x, row.unavailableAt = some x → From x closed
  revoked : row.holdStartedAt = none → ∀ x, row.unavailableAt = some x → From x revoked

/-! ## Lesser times -/

theorem lower_le (x : Int) (o : Option Int) : lower x o ≤ x := by
  cases o with
  | none => exact Int.le_refl x
  | some y => exact Int.min_le_left x y

theorem lower_min (x y : Int) (o : Option Int) : lower (min x y) o = min (lower x o) y := by
  cases o with
  | none => rfl
  | some z => exact min_right_comm x y z

theorem lower_of_from {x : Int} {o : Option Int} (later : From x o) : lower x o = x := by
  cases o with
  | none => rfl
  | some y => exact Int.min_eq_left (later y rfl)

/-- A mark is lowered with the time it lowers. -/
theorem lower_marked (x at_ : Int) (u : Option Int) :
    lower x (some (min (lower x u) at_)) = min (lower x u) at_ := by
  have below := lower_le x u
  rw [lower_some]
  omega

theorem min_min_getD (x at_ : Int) (u : Option Int) : min (min (u.getD at_) x) at_ = min (lower x u) at_ := by
  cases u with
  | none => rw [Option.getD_none, lower_none]; omega
  | some y => rw [Option.getD_some, lower_some]; omega

theorem lower_getD {x : Int} {u : Option Int} (early : Past x u) : lower x u = u.getD x := by
  cases u with
  | none => rfl
  | some y => exact Int.min_eq_right (early y rfl)

theorem Past.mono {s t : Int} {o : Option Int} (past : Past s o) (later : s ≤ t) : Past t o :=
  fun x given => Int.le_trans (past x given) later

/-! ## The shapes of a row -/

/-- What the hold fields and the mark of a row show. -/
inductive Shape : ObservationRecord → Prop where
  /-- The row was never held. -/
  | never (p : Nat) (exp : Int) (st : RecordState) (u : Option Int) (g : Nat) : Shape ⟨p, exp, st, u, none, none, g⟩
  /-- A hold is on record. -/
  | held (p : Nat) (exp : Int) (st : RecordState) (u : Option Int) (s e : Int) (g : Nat) :
      Shape ⟨p, exp, st, u, some s, some e, g⟩
  /-- The hold was released before any cause. -/
  | released (p : Nat) (exp : Int) (st : RecordState) (s : Int) (g : Nat) : Shape ⟨p, exp, st, none, some s, none, g⟩
  /-- The hold is merged into the mark. -/
  | merged (p : Nat) (exp : Int) (st : RecordState) (x s : Int) (g : Nat) : Shape ⟨p, exp, st, some x, some s, none, g⟩

theorem Fields.shape {closed revoked : Option Int} {last : Int} {row : ObservationRecord} {k : Clock}
    (fields : Fields closed revoked last row k) : Shape row := by
  obtain ⟨p, exp, st, u, hs, hu, g⟩ := row
  cases hs with
  | none =>
      cases hu with
      | none => exact .never p exp st u g
      | some e => exact fields.elim
  | some s =>
      cases hu with
      | some e => exact .held p exp st u s e g
      | none =>
          cases u with
          | none => exact .released p exp st s g
          | some x => exact .merged p exp st x s g

section Marks

variable (p : Nat) (exp : Int) (st : RecordState) (u : Option Int) (s e at_ : Int) (g : Nat) (endHold : Bool)

theorem mark_never : markUnavailable ⟨p, exp, st, u, none, none, g⟩ at_ endHold =
    ⟨p, exp, st, some (min (lower exp u) at_), none, none, g⟩ := by
  rw [← min_min_getD]
  cases endHold <;> rfl

theorem mark_held : markUnavailable ⟨p, exp, st, u, some s, some e, g⟩ at_ false =
    ⟨p, exp, st, some (min (lower exp u) at_), some s, some e, g⟩ := by
  rw [← min_min_getD]
  rfl

theorem mark_ending (started : s ≤ at_) : markUnavailable ⟨p, exp, st, u, some s, some e, g⟩ at_ true =
    ⟨p, exp, st, some (max (min (lower exp u) at_) (min e at_)), some s, none, g⟩ := by
  rw [← min_min_getD]
  simp only [markUnavailable, started, if_true]

theorem mark_released : markUnavailable ⟨p, exp, st, none, some s, none, g⟩ at_ endHold =
    ⟨p, exp, st, some (min exp at_), some s, none, g⟩ := by
  rw [← lower_none exp, ← min_min_getD]
  cases endHold <;> rfl

theorem mark_merged (x : Int) : markUnavailable ⟨p, exp, st, some x, some s, none, g⟩ at_ endHold =
    ⟨p, exp, st, some x, some s, none, g⟩ := by
  cases endHold <;> rfl

section Fields

variable {p exp st u s e g} {closed revoked : Option Int} {last : Int} {k : Clock} {x : Int}

theorem fields_never : Fields closed revoked last ⟨p, exp, st, u, none, none, g⟩ k ↔
    k.hold = none ∧ k.cause = lower (lower (lower exp u) closed) revoked ∧ Past exp u := .rfl

theorem fields_held : Fields closed revoked last ⟨p, exp, st, u, some s, some e, g⟩ k ↔
    s ≤ last ∧ k.hold = some (lower e revoked) ∧ From s revoked ∧ (st = .available → u ≠ none → e ≤ last) ∧
      (k.cause = lower (lower (lower exp u) closed) revoked ∧ Past exp u ∨
        e ≤ last ∧ From e revoked ∧ k.cause ≤ e ∧ u ≠ none ∧ Past e u) := .rfl

theorem fields_released : Fields closed revoked last ⟨p, exp, st, none, some s, none, g⟩ k ↔
    ∃ h, k.hold = some h ∧ h ≤ last ∧ h ≤ k.cause ∧ st = .available ∧
      k.cause = lower (lower exp closed) revoked := .rfl

theorem fields_merged : Fields closed revoked last ⟨p, exp, st, some x, some s, none, g⟩ k ↔
    ∃ h, k.hold = some h ∧ h ≤ last ∧ k.cause ≤ last ∧ x = max k.cause h := .rfl

end Fields

variable (row : ObservationRecord)

theorem mark_state : (markUnavailable row at_ endHold).state = row.state := by
  cases endHold <;> rfl

theorem mark_started : (markUnavailable row at_ endHold).holdStartedAt = row.holdStartedAt := by
  cases endHold <;> rfl

theorem mark_ended : (markUnavailable row at_ true).holdUntil = none := rfl

theorem mark_ne_none : (markUnavailable row at_ endHold).unavailableAt ≠ none := by
  cases endHold <;> exact fun none_ => nomatch none_

/-- The mark, where no hold that was released is merged into it. -/
theorem mark_open (open_ : row.holdStartedAt = none ∨ row.holdUntil ≠ none) :
    (markUnavailable row at_ false).unavailableAt = some (min (lower row.expiresAt row.unavailableAt) at_) := by
  obtain ⟨p, exp, st, u, hs, hu, g⟩ := row
  rw [← min_min_getD]
  cases hs with
  | none => rfl
  | some s =>
      cases hu with
      | none => exact absurd (open_.resolve_left (fun none_ => nomatch none_)) (not_not.2 rfl)
      | some e => rfl

theorem mark_unstarted (never : row.holdStartedAt = none) :
    (markUnavailable row at_ true).unavailableAt = some (min (lower row.expiresAt row.unavailableAt) at_) := by
  obtain ⟨p, exp, st, u, hs, hu, g⟩ := row
  obtain rfl : hs = none := never
  rw [← min_min_getD]
  cases hu <;> rfl

end Marks

section Rows

variable {closed revoked : Option Int} {last now : Int} {row : ObservationRecord} {k : Clock}

/-- A mark on a row is not past what the row had and the time it is set at. -/
theorem mark_past {at_ : Int} {endHold : Bool} (shape : Shape row) (before : Past now row.unavailableAt) (at_past : at_ ≤ now)
    (started : ∀ s, endHold = true → row.holdStartedAt = some s → row.holdUntil ≠ none → s ≤ at_) :
    Past now (markUnavailable row at_ endHold).unavailableAt := by
  cases shape with
  | never p exp st u g =>
      rw [mark_never, past_some]
      omega
  | held p exp st u s e g =>
      cases endHold with
      | false =>
          rw [mark_held, past_some]
          omega
      | true =>
          rw [mark_ending _ _ _ _ _ _ _ _ (started s rfl rfl (fun none_ => nomatch none_)), past_some]
          omega
  | released p exp st s g =>
      rw [mark_released, past_some]
      omega
  | merged p exp st x s g =>
      rw [mark_merged]
      exact before

/-- A row that is marked with a state that is not available. -/
theorem Tracks.marking {at_ : Int} {endHold : Bool} {state : RecordState} {k' : Clock} (tracks : Tracks closed revoked last row k)
    (later : last ≤ now) (at_past : at_ ≤ now) (unavailable : state ≠ .available)
    (started : ∀ s, endHold = true → row.holdStartedAt = some s → row.holdUntil ≠ none → s ≤ at_)
    (fields : Fields closed revoked now (markUnavailable { row with state := state } at_ endHold) k') :
    Tracks closed revoked now (markUnavailable { row with state := state } at_ endHold) k' := by
  have shape : Shape { row with state := state } := by
    cases tracks.fields.shape with
    | never p exp st u g => exact .never p exp state u g
    | held p exp st u s e g => exact .held p exp state u s e g
    | released p exp st s g => exact .released p exp state s g
    | merged p exp st x s g => exact .merged p exp state x s g
  refine ⟨tracks.closedPast.mono later, tracks.revokedPast.mono later, ?_, fun _ => mark_ne_none _ _ _, ?_, fields⟩
  · exact mark_past shape (tracks.markedPast.mono later) at_past started
  · intro available
    rw [mark_state] at available
    exact absurd available unavailable

theorem Tracks.mono (tracks : Tracks closed revoked last row k) (later : last ≤ now) :
    Tracks closed revoked now row k := by
  obtain ⟨closedPast, revokedPast, markedPast, marked, expired, fields⟩ := tracks
  refine ⟨closedPast.mono later, revokedPast.mono later, markedPast.mono later, marked,
    fun available given => Int.le_trans (expired available given) later, ?_⟩
  cases fields.shape with
  | never p exp st u g => exact fields
  | held p exp st u s e g =>
      obtain ⟨started, hold, from_, over_, rest⟩ := fields
      exact ⟨Int.le_trans started later, hold, from_, fun available given => Int.le_trans (over_ available given) later,
        rest.imp_right fun ⟨ended, more⟩ => ⟨Int.le_trans ended later, more⟩⟩
  | released p exp st s g =>
      obtain ⟨h, hold, ended, more⟩ := fields
      exact ⟨h, hold, Int.le_trans ended later, more⟩
  | merged p exp st x s g =>
      obtain ⟨h, hold, ended, caused, more⟩ := fields
      exact ⟨h, hold, Int.le_trans ended later, Int.le_trans caused later, more⟩

/-- A cause that lowers the mark lowers the clock. -/
theorem lower_causes (exp at_ : Int) (u closed revoked : Option Int) :
    lower (lower (lower exp (some (min (lower exp u) at_))) closed) revoked =
      min (lower (lower (lower exp u) closed) revoked) at_ := by
  rw [lower_marked, lower_min, lower_min]

/-- The close of the context, picked up. -/
theorem Tracks.closing {c : Int} (tracks : Tracks (some c) revoked last row k) :
    Tracks (some c) revoked last
      (markUnavailable { row with state := .quarantined } (min c (revoked.getD c)) false) k := by
  have closedPast : c ≤ last := tracks.closedPast c rfl
  have at_ : min c (revoked.getD c) = lower c revoked := by
    cases revoked with
    | none => exact Int.min_self c
    | some v => rfl
  rw [at_]
  have early : lower c revoked ≤ c := lower_le c revoked
  -- both causes are on record, so the mark may be lowered to them
  have again (y : Int) : min (lower (lower y (some c)) revoked) (lower c revoked) = lower (lower y (some c)) revoked := by
    rw [lower_some, min_comm y c, lower_min]
    exact Int.min_eq_left (Int.min_le_left _ _)
  refine tracks.marking (Int.le_refl last) (by omega) (fun same => nomatch same) (fun _ false_ => nomatch false_) ?_
  have fields := tracks.fields
  cases fields.shape with
  | never p exp st u g =>
      obtain ⟨hold, cause, past⟩ := fields_never.1 fields
      have below := lower_le exp u
      dsimp only
      rw [mark_never, fields_never]
      refine ⟨hold, ?_, past_some.2 (by omega)⟩
      rw [lower_causes, again, cause]
  | held p exp st u s e g =>
      obtain ⟨started, hold, from_, -, rest⟩ := fields_held.1 fields
      have below := lower_le exp u
      dsimp only
      rw [mark_held, fields_held]
      refine ⟨started, hold, from_, (fun available => nomatch available), ?_⟩
      rcases rest with ⟨cause, past⟩ | ⟨ended, after, early_, marked, past⟩
      · refine .inl ⟨?_, past_some.2 (by omega)⟩
        rw [lower_causes, again, cause]
      · refine .inr ⟨ended, after, early_, (fun none_ => nomatch none_), past_some.2 ?_⟩
        obtain ⟨x, rfl⟩ := Option.ne_none_iff_exists'.1 marked
        have := past x rfl
        rw [lower_some]
        omega
  | released p exp st s g =>
      obtain ⟨h, hold, ended, before, -, cause⟩ := fields_released.1 fields
      have same : k.cause = min exp (lower c revoked) := by
        rw [cause, lower_some, min_comm exp c, lower_min, min_comm]
      dsimp only
      rw [mark_released, fields_merged]
      exact ⟨h, hold, ended, by omega, by omega⟩
  | merged p exp st x s g =>
      rw [mark_merged]
      exact fields

/-- A mark is no later than its cause, where the hold has not been merged into it. -/
theorem markUnavailable_from (row : ObservationRecord) {at_ c : Int} (below : at_ ≤ c)
    (open_ : row.holdStartedAt = none ∨ row.holdUntil ≠ none) (x : Int)
    (given : (markUnavailable row at_ false).unavailableAt = some x) : From x (some c) := by
  rw [mark_open _ _ open_] at given
  obtain rfl := Option.some.inj given
  exact from_some.2 (by omega)

/-- A cause that the mark accounts for lowers nothing. -/
theorem from_lower {u o : Option Int} {exp : Int} (marked : o ≠ none → u ≠ none) (from_ : ∀ x, u = some x → From x o) :
    From (lower exp u) o := by
  intro c given
  obtain ⟨x, rfl⟩ := Option.ne_none_iff_exists'.1 (marked (given ▸ fun none_ => nomatch none_))
  exact Int.le_trans (Int.min_le_right exp x) (from_ x rfl c given)

/-- The revocation of the preparation, picked up after the close. -/
theorem Tracks.revoking {v : Int} (tracks : Tracks closed (some v) last row k)
    (marked_ : closed ≠ none → row.unavailableAt ≠ none)
    (applied : row.holdStartedAt = none ∨ row.holdUntil ≠ none →
      ∀ x, row.unavailableAt = some x → From x closed) :
    Tracks closed (some v) last (markUnavailable { row with state := .quarantined } v true) k := by
  have revokedPast : v ≤ last := tracks.revokedPast v rfl
  have fields := tracks.fields
  have started (s : Int) (_ : true = true) (started : row.holdStartedAt = some s) (held : row.holdUntil ≠ none) : s ≤ v := by
    cases fields.shape with
    | never p exp st u g => cases started
    | held p exp st u s' e g =>
        obtain rfl := Option.some.inj started
        exact from_some.1 fields.2.2.1
    | released p exp st s' g => exact absurd rfl held
    | merged p exp st x s' g => exact absurd rfl held
  refine tracks.marking (Int.le_refl last) revokedPast (fun same => nomatch same) started ?_
  cases fields.shape with
  | never p exp st u g =>
      obtain ⟨hold, cause, past⟩ := fields_never.1 fields
      have below := lower_le exp u
      dsimp only
      rw [mark_never, fields_never]
      refine ⟨hold, ?_, past_some.2 (by omega)⟩
      rw [lower_causes, ← cause]
      have under : k.cause ≤ v := by rw [cause, lower_some]; omega
      omega
  | held p exp st u s e g =>
      have same : lower (lower exp u) closed = lower exp u :=
        lower_of_from (from_lower marked_ (applied (.inr fun none_ => nomatch none_)))
      obtain ⟨-, hold, from_, -, rest⟩ := fields_held.1 fields
      dsimp only
      rw [mark_ending _ _ _ _ _ _ _ _ (from_some.1 from_), fields_merged]
      refine ⟨min e v, hold, by omega, ?_⟩
      rcases rest with ⟨cause, -⟩ | ⟨ended, after, early, marked, past⟩
      · rw [same, lower_some] at cause
        exact ⟨by omega, by omega⟩
      · obtain ⟨x, rfl⟩ := Option.ne_none_iff_exists'.1 marked
        have := past x rfl
        have := from_some.1 after
        rw [lower_some]
        exact ⟨by omega, by omega⟩
  | released p exp st s g =>
      obtain ⟨h, hold, ended, before, -, cause⟩ := fields_released.1 fields
      have unclosed : closed = none := by
        by_contra some_
        exact marked_ some_ rfl
      rw [unclosed, lower_none, lower_some] at cause
      dsimp only
      rw [mark_released, fields_merged]
      exact ⟨h, hold, ended, by omega, by omega⟩
  | merged p exp st x s g =>
      rw [mark_merged]
      exact fields

theorem applied_revoking {v : Int} (marked : closed ≠ none → row.unavailableAt ≠ none)
    (applied : row.holdStartedAt = none → ∀ x, row.unavailableAt = some x → From x closed) :
    Applied closed (some v) (markUnavailable { row with state := .quarantined } v true) := by
  have never (none_ : (markUnavailable { row with state := .quarantined } v true).holdStartedAt = none) :
      row.holdStartedAt = none := by rwa [mark_started] at none_
  refine ⟨fun _ => ?_, fun _ => mark_ended _ _, fun open_ x given => ?_, fun none_ x given => ?_⟩
  · rw [mark_state]
    exact fun same => nomatch same
  · have none_ := never (open_.resolve_right (not_not.2 (mark_ended _ _)))
    rw [mark_unstarted _ { row with state := .quarantined } none_] at given
    obtain rfl := Option.some.inj given
    intro c close
    have early : lower row.expiresAt row.unavailableAt ≤ c := from_lower marked (applied none_) c close
    dsimp only
    omega
  · rw [mark_unstarted _ { row with state := .quarantined } (never none_)] at given
    obtain rfl := Option.some.inj given
    exact from_some.2 (by omega)

/-- **Picking up the causes on record leaves the clock as it is.** -/
theorem Tracks.recorded {prep : ObservationPreparation}
    (tracks : Tracks closed prep.revokedAt last row k) :
    Tracks closed prep.revokedAt last (recordedUnavailability closed prep row) k ∧
      Applied closed prep.revokedAt (recordedUnavailability closed prep row) := by
  obtain ⟨retention, validUntil, revoked⟩ := prep
  dsimp only at tracks ⊢
  cases closed with
  | none =>
      cases revoked with
      | none => exact ⟨tracks, fun some_ => (some_.elim (· rfl) (· rfl)).elim, fun some_ => absurd rfl some_,
          fun _ _ _ => from_none _, fun _ _ _ => from_none _⟩
      | some v =>
          exact ⟨tracks.revoking (fun some_ => absurd rfl some_) fun _ _ _ => from_none _,
            applied_revoking (fun some_ => absurd rfl some_) fun _ _ _ => from_none _⟩
  | some c =>
      have closing := tracks.closing
      have marked : some c ≠ none →
          (markUnavailable { row with state := .quarantined } (min c (revoked.getD c)) false).unavailableAt
            ≠ none := fun _ => mark_ne_none _ _ _
      have below := markUnavailable_from { row with state := .quarantined }
        (Int.min_le_left c (revoked.getD c))
      cases revoked with
      | none =>
          refine ⟨closing, fun _ => ?_, fun some_ => absurd rfl some_, below, fun _ _ _ => from_none _⟩
          rw [recordedUnavailability, mark_state]
          exact fun same => by cases same
      | some v =>
          exact ⟨closing.revoking marked below, applied_revoking marked fun unheld => below (.inl unheld)⟩

/-- A delete: a cause, and the hold goes on.  A row whose hold was released unmarked must
have no earlier cause on record. -/
theorem Tracks.deleting (tracks : Tracks closed revoked last row k) (later : last ≤ now)
    (prompt : row.holdStartedAt ≠ none → row.holdUntil = none → row.unavailableAt = none →
      From (min now row.expiresAt) closed ∧ From (min now row.expiresAt) revoked) :
    Tracks closed revoked now (markUnavailable { row with state := .deleted } now false)
      (k.caused now) := by
  have fields := (tracks.mono later).fields
  refine tracks.marking later (Int.le_refl now) (fun same => nomatch same) (fun _ false_ => nomatch false_) ?_
  cases fields.shape with
  | never p exp st u g =>
      obtain ⟨hold, cause, past⟩ := fields_never.1 fields
      have below := lower_le exp u
      dsimp only
      rw [mark_never, fields_never]
      refine ⟨hold, ?_, past_some.2 (by omega)⟩
      rw [lower_causes, ← cause]
      rfl
  | held p exp st u s e g =>
      obtain ⟨started, hold, from_, -, rest⟩ := fields_held.1 fields
      have below := lower_le exp u
      dsimp only
      rw [mark_held, fields_held]
      refine ⟨started, hold, from_, (fun available => nomatch available), ?_⟩
      rcases rest with ⟨cause, past⟩ | ⟨ended, after, early, marked, past⟩
      · refine .inl ⟨?_, past_some.2 (by omega)⟩
        rw [lower_causes, ← cause]
        rfl
      · refine .inr ⟨ended, after, Int.le_trans (Int.min_le_left _ _) early, (fun none_ => nomatch none_), past_some.2 ?_⟩
        obtain ⟨x, rfl⟩ := Option.ne_none_iff_exists'.1 marked
        have := past x rfl
        rw [lower_some]
        omega
  | released p exp st s g =>
      obtain ⟨h, hold, ended, before, -, cause⟩ := fields_released.1 fields
      obtain ⟨fromClosed, fromRevoked⟩ := prompt (fun none_ => nomatch none_) rfl rfl
      rw [min_comm] at fromClosed fromRevoked
      have same : min k.cause now = min exp now := by
        rw [cause, ← lower_min, ← lower_min, lower_of_from fromClosed, lower_of_from fromRevoked]
      dsimp only
      rw [mark_released, fields_merged]
      refine ⟨h, hold, ended, Int.min_le_right _ _, ?_⟩
      show min exp now = max (min k.cause now) h
      omega
  | merged p exp st x s g =>
      obtain ⟨h, hold, ended, caused, mark⟩ := fields_merged.1 fields
      rw [mark_merged]
      have same : (k.caused now).cause = k.cause := Int.min_eq_left caused
      exact ⟨h, hold, ended, by rw [same]; exact caused, by rw [same]; exact mark⟩

/-- Causes that have been applied mark the row. -/
theorem Applied.marks (applied : Applied closed revoked row) (tracks : Tracks closed revoked last row k) :
    (closed ≠ none → row.unavailableAt ≠ none) ∧ (revoked ≠ none → row.unavailableAt ≠ none) :=
  ⟨fun some_ => tracks.marked (applied.marked (.inl some_)), fun some_ => tracks.marked (applied.marked (.inr some_))⟩

theorem Applied.unmarked (applied : Applied closed revoked row) (tracks : Tracks closed revoked last row k)
    (unmarked : row.unavailableAt = none) : closed = none ∧ revoked = none :=
  ⟨by_contra fun some_ => (applied.marks tracks).1 some_ unmarked, by_contra fun some_ => (applied.marks tracks).2 some_ unmarked⟩

/-- A row with the causes on record applied hides none. -/
theorem Applied.prompt (applied : Applied closed revoked row) (tracks : Tracks closed revoked last row k)
    (_ : row.holdStartedAt ≠ none) (_ : row.holdUntil = none) (unmarked : row.unavailableAt = none) :
    From (min now row.expiresAt) closed ∧ From (min now row.expiresAt) revoked := by
  obtain ⟨unclosed, unrevoked⟩ := applied.unmarked tracks unmarked
  rw [unclosed, unrevoked]
  exact ⟨from_none _, from_none _⟩

/-- The close of the context is in the mark. -/
theorem Applied.fromClosed (applied : Applied closed revoked row) (tracks : Tracks closed revoked last row k)
    (open_ : row.holdStartedAt = none ∨ row.holdUntil ≠ none) : From (lower row.expiresAt row.unavailableAt) closed :=
  from_lower (applied.marks tracks).1 (applied.closed open_)

/-- The revocation of the preparation is in the mark. -/
theorem Applied.fromRevoked (applied : Applied closed revoked row) (tracks : Tracks closed revoked last row k)
    (never : row.holdStartedAt = none) : From (lower row.expiresAt row.unavailableAt) revoked :=
  from_lower (applied.marks tracks).2 (applied.revoked never)

/-- A held row whose causes are applied is under no revocation. -/
theorem Applied.unrevoked (applied : Applied closed revoked row) {e : Int} (held : row.holdUntil = some e) : revoked = none :=
  by_contra fun some_ => nomatch held.symm.trans (applied.unheld some_)

/-- A quarantine: a cause, and the end of the hold. -/
theorem Tracks.quarantining (tracks : Tracks closed revoked last row k) (later : last ≤ now)
    (applied : Applied closed revoked row) :
    Tracks closed revoked now (markUnavailable { row with state := .quarantined } now true)
      ((k.caused now).ended now) ∧
    Applied closed revoked (markUnavailable { row with state := .quarantined } now true) := by
  have tracks := tracks.mono later
  have fields := tracks.fields
  constructor
  · have started (s : Int) (_ : true = true) (started : row.holdStartedAt = some s) (held : row.holdUntil ≠ none) : s ≤ now := by
      cases fields.shape with
      | never p exp st u g => cases started
      | held p exp st u s' e g =>
          obtain rfl := Option.some.inj started
          exact fields.1
      | released p exp st s' g => exact absurd rfl held
      | merged p exp st x s' g => exact absurd rfl held
    refine tracks.marking (Int.le_refl now) (Int.le_refl now) (fun same => nomatch same) started ?_
    cases fields.shape with
    | never p exp st u g =>
        obtain ⟨hold, cause, past⟩ := fields_never.1 fields
        have below := lower_le exp u
        dsimp only
        rw [mark_never, fields_never]
        refine ⟨by simp only [Clock.ended, Clock.caused, hold, Option.map_none], ?_, past_some.2 (by omega)⟩
        rw [lower_causes, ← cause]
        rfl
    | held p exp st u s e g =>
        obtain rfl := applied.unrevoked rfl
        have same := lower_of_from (applied.fromClosed tracks (.inr fun none_ => nomatch none_))
        obtain ⟨started_, hold, -, -, rest⟩ := fields_held.1 fields
        dsimp only
        rw [mark_ending _ _ _ _ _ _ _ _ started_, fields_merged]
        refine ⟨min e now, by simp only [Clock.ended, Clock.caused, hold, lower_none, Option.map_some], Int.min_le_right _ _,
          Int.min_le_right _ _, ?_⟩
        show max (min (lower exp u) now) (min e now) = max (min k.cause now) (min e now)
        rcases rest with ⟨cause, -⟩ | ⟨ended, -, early, marked, past⟩
        · rw [same, lower_none] at cause
          rw [cause]
        · obtain ⟨x, rfl⟩ := Option.ne_none_iff_exists'.1 marked
          have := past x rfl
          rw [lower_some]
          omega
    | released p exp st s g =>
        obtain ⟨rfl, rfl⟩ := applied.unmarked tracks rfl
        obtain ⟨h, hold, ended, before, -, cause⟩ := fields_released.1 fields
        rw [lower_none, lower_none] at cause
        dsimp only
        rw [mark_released, fields_merged]
        refine ⟨min h now, by simp only [Clock.ended, Clock.caused, hold, Option.map_some], Int.min_le_right _ _,
          Int.min_le_right _ _, ?_⟩
        show min exp now = max (min k.cause now) (min h now)
        omega
    | merged p exp st x s g =>
        obtain ⟨h, hold, ended, caused, mark⟩ := fields_merged.1 fields
        rw [mark_merged]
        refine ⟨min h now, by simp only [Clock.ended, Clock.caused, hold, Option.map_some], Int.min_le_right _ _,
          Int.min_le_right _ _, ?_⟩
        show x = max (min k.cause now) (min h now)
        omega
  · have below (x : Int) (open_ : row.holdStartedAt = none)
        (given : (markUnavailable { row with state := .quarantined } now true).unavailableAt = some x) :
        x ≤ lower row.expiresAt row.unavailableAt := by
      rw [mark_unstarted _ { row with state := .quarantined } open_] at given
      obtain rfl := Option.some.inj given
      exact Int.min_le_left _ _
    refine ⟨fun _ => ?_, fun _ => mark_ended _ _, fun open_ x given c close => ?_, fun never x given c revocation => ?_⟩
    · rw [mark_state]
      exact fun same => nomatch same
    · have never := open_.resolve_right (not_not.2 (mark_ended _ _))
      rw [mark_started] at never
      exact Int.le_trans (below x never given) (applied.fromClosed tracks (.inl never) c close)
    · rw [mark_started] at never
      exact Int.le_trans (below x never given) (applied.fromRevoked tracks never c revocation)

theorem Tracks.releasing (tracks : Tracks closed revoked last row k) (later : last ≤ now)
    (applied : Applied closed revoked row) (running : row.holdRunning now = true) :
    Tracks closed revoked now (released now row) (k.ended now) := by
  have tracks := tracks.mono later
  obtain ⟨closedPast, revokedPast, markedPast, marked, expired, fields⟩ := tracks
  cases fields.shape with
  | never p exp st u g => cases running
  | released p exp st s g => cases running
  | merged p exp st x s g => cases running
  | held p exp st u s e g =>
      obtain ⟨started, running⟩ : s ≤ now ∧ now < e := by
        simpa only [ObservationRecord.holdRunning, Bool.and_eq_true, decide_eq_true_eq] using running
      -- the hold has not ended, so the preparation is not revoked
      obtain rfl := applied.unrevoked rfl
      obtain ⟨-, hold, -, -, rest⟩ := fields_held.1 fields
      have ended : (k.ended now).hold = some now := by
        simp only [Clock.ended, hold, lower_none, Option.map_some, Option.some.injEq]
        omega
      have below := lower_le (lower exp u) closed
      obtain ⟨cause, early⟩ := rest.resolve_right fun ⟨over_, _⟩ => absurd running (Int.not_lt.2 over_)
      rw [lower_none] at cause
      unfold released
      split
      · next due =>
          have past : lower exp u ≤ now := by
            cases u with
            | none => exact due.resolve_left fun other => marked other rfl
            | some x =>
                have := markedPast x rfl
                rw [lower_some]
                omega
          rw [mark_ending _ _ _ _ _ _ _ _ started]
          refine ⟨closedPast, revokedPast, past_some.2 (by omega), (fun _ none_ => nomatch none_), fun available _ => ?_,
            fields_merged.2 ⟨now, ended, Int.le_refl now, ?_, ?_⟩⟩
          · exact due.resolve_left (not_not.2 available)
          · show k.cause ≤ now
            omega
          · show max (min (lower exp u) now) (min e now) = max k.cause now
            omega
      · next undue =>
          obtain ⟨available, unexpired⟩ : st = .available ∧ now < exp := by
            rw [not_or, not_not, Int.not_le] at undue
            exact undue
          obtain rfl : u = none := by_contra fun some_ => absurd unexpired (Int.not_lt.2 (expired available some_))
          obtain rfl : closed = none := by_contra fun some_ => applied.marked (.inl some_) available
          rw [lower_none, lower_none] at cause
          exact ⟨closedPast, revokedPast, markedPast, marked, expired,
            fields_released.2 ⟨now, ended, Int.le_refl now, show now ≤ k.cause by omega, available, cause⟩⟩

/-- A row that is still available is unexpired and unmarked. -/
theorem Tracks.fresh (tracks : Tracks closed revoked now row k) (applied : Applied closed revoked row)
    (available : stateAt row now = .available) :
    row.state = .available ∧ now < row.expiresAt ∧ row.unavailableAt = none ∧ closed = none ∧ revoked = none := by
  obtain ⟨state, unexpired⟩ : row.state = .available ∧ now < row.expiresAt := by
    unfold stateAt at available
    split at available
    · cases available
    · cases available
    · next state =>
        split_ifs at available with active due
        exact ⟨state, Int.not_le.1 due⟩
  have unmarked : row.unavailableAt = none := by_contra fun some_ => absurd unexpired (Int.not_lt.2 (tracks.expired state some_))
  exact ⟨state, unexpired, unmarked, applied.unmarked tracks unmarked⟩

/-- A row that is no longer available, and under no hold, is marked or expired. -/
theorem Tracks.due (tracks : Tracks closed revoked now row k) (unavailable : stateAt row now ≠ .available)
    (unheld : row.holdActive now = false) :
    row.unavailableAt.getD row.expiresAt ≤ now ∧ (row.state = .available → row.expiresAt ≤ now) := by
  have due (state : row.state = .available) : row.expiresAt ≤ now := by
    by_contra undue
    refine unavailable ?_
    unfold stateAt
    rw [state]
    dsimp only
    rw [unheld, if_neg (fun true_ => nomatch true_), if_neg undue]
  refine ⟨?_, due⟩
  cases mark : row.unavailableAt with
  | some x => exact tracks.markedPast x mark
  | none => exact due (by_contra fun other => tracks.marked other mark)

/-- A hold, on a row nothing has marked. -/
theorem Tracks.holding {until_ : Int} {g : Nat} (tracks : Tracks none none last row k)
    (later : last ≤ now) (state : stateAt row now = .available ∨ stateAt row now = .held) :
    Tracks none none now { row with
        holdGeneration := g, holdStartedAt := some now, holdUntil := some until_ }
      { k with hold := some until_ } := by
  obtain ⟨closedPast, revokedPast, markedPast, marked, expired, fields⟩ := tracks.mono later
  obtain ⟨available, going⟩ : row.state = .available ∧ (row.holdActive now = true ∨ now < row.expiresAt) := by
    unfold stateAt at state
    split at state
    · rcases state with other | other <;> cases other
    · rcases state with other | other <;> cases other
    · next available =>
        split_ifs at state with active due
        · exact ⟨available, .inl active⟩
        · rcases state with other | other <;> cases other
        · exact ⟨available, .inr (Int.not_le.1 due)⟩
  -- a mark on an available row is behind its expiry and its hold
  have unmarked : row.unavailableAt = none := by
    by_contra some_
    rcases going with active | unexpired
    · cases fields.shape with
      | held p exp st u s e g =>
          have after : now < e := of_decide_eq_true active
          exact absurd after (Int.not_lt.2 (fields.2.2.2.1 available some_))
      | never p exp st u g => cases active
      | released p exp st s g => cases active
      | merged p exp st x s g => cases active
    · exact absurd unexpired (Int.not_lt.2 (expired available some_))
  have cause : k.cause = row.expiresAt := by
    cases fields.shape with
    | never p exp st u g =>
        obtain rfl : u = none := unmarked
        exact fields.2.1
    | held p exp st u s e g =>
        obtain rfl : u = none := unmarked
        exact (fields.2.2.2.2.resolve_right fun ⟨_, _, _, some_, _⟩ => some_ rfl).1
    | released p exp st s g =>
        obtain ⟨h, -, -, -, -, cause⟩ := fields_released.1 fields
        exact cause
    | merged p exp st x s g => cases unmarked
  refine ⟨closedPast, revokedPast, markedPast, marked, expired, Int.le_refl now, rfl, from_none _,
    fun _ some_ => absurd unmarked some_, .inl ⟨?_, ?_⟩⟩
  · show k.cause = lower (lower (lower row.expiresAt row.unavailableAt) none) none
    rw [unmarked, cause]
    rfl
  · show Past row.expiresAt row.unavailableAt
    rw [unmarked]
    exact past_none _

/-- The preparation is revoked. -/
theorem Tracks.revoke (tracks : Tracks closed revoked last row k) (later : last ≤ now) :
    Tracks closed (some (revoked.getD now)) now row ((k.caused now).ended now) := by
  obtain ⟨closedPast, revokedPast, markedPast, marked, expired, fields⟩ := tracks.mono later
  have again (y : Int) : lower y (some (revoked.getD now)) = min (lower y revoked) now := by
    cases revoked with
    | none => rfl
    | some v =>
        have := revokedPast v rfl
        rw [Option.getD_some, lower_some]
        omega
  have still : revoked.getD now ≤ now := by
    cases revoked with
    | none => exact Int.le_refl now
    | some v => exact revokedPast v rfl
  have fromNow {t : Int} (from_ : From t revoked) (past : t ≤ now) : From t (some (revoked.getD now)) := by
    cases revoked with
    | none => exact from_some.2 past
    | some v => exact from_
  refine ⟨closedPast, past_some.2 still, markedPast, marked, expired, ?_⟩
  cases fields.shape with
  | never p exp st u g =>
      obtain ⟨hold, cause, past⟩ := fields_never.1 fields
      refine ⟨by simp only [Clock.ended, Clock.caused, hold, Option.map_none], ?_, past⟩
      rw [again, ← cause]
      rfl
  | held p exp st u s e g =>
      obtain ⟨started, hold, from_, over_, rest⟩ := fields_held.1 fields
      refine ⟨started, ?_, fromNow from_ started, over_, ?_⟩
      · rw [again]
        simp only [Clock.ended, Clock.caused, hold, Option.map_some]
      · rcases rest with ⟨cause, past⟩ | ⟨ended, after, early, some_, past⟩
        · refine .inl ⟨?_, past⟩
          rw [again, ← cause]
          rfl
        · exact .inr ⟨ended, fromNow after ended, Int.le_trans (Int.min_le_left _ _) early, some_, past⟩
  | released p exp st s g =>
      obtain ⟨h, hold, ended, before, available, cause⟩ := fields_released.1 fields
      refine ⟨min h now, by simp only [Clock.ended, Clock.caused, hold, Option.map_some], Int.min_le_right _ _, ?_, available, ?_⟩
      · show min h now ≤ min k.cause now
        omega
      · rw [again, ← cause]
        rfl
  | merged p exp st x s g =>
      obtain ⟨h, hold, ended, caused, mark⟩ := fields_merged.1 fields
      refine ⟨min h now, by simp only [Clock.ended, Clock.caused, hold, Option.map_some], Int.min_le_right _ _,
        Int.min_le_right _ _, ?_⟩
      show x = max (min k.cause now) (min h now)
      omega

/-- The context is closed. -/
theorem Tracks.close (tracks : Tracks none revoked last row k) (later : last ≤ now) :
    Tracks (some now) revoked now row (k.caused now) := by
  obtain ⟨closedPast, revokedPast, markedPast, marked, expired, fields⟩ := tracks.mono later
  refine ⟨past_some.2 (Int.le_refl now), revokedPast, markedPast, marked, expired, ?_⟩
  cases fields.shape with
  | never p exp st u g =>
      obtain ⟨hold, cause, past⟩ := fields_never.1 fields
      refine ⟨hold, ?_, past⟩
      rw [lower_some, lower_min, ← lower_none (lower exp u), ← cause]
      rfl
  | held p exp st u s e g =>
      obtain ⟨started, hold, from_, over_, rest⟩ := fields_held.1 fields
      refine ⟨started, hold, from_, over_, ?_⟩
      rcases rest with ⟨cause, past⟩ | ⟨ended, after, early, some_, past⟩
      · refine .inl ⟨?_, past⟩
        rw [lower_some, lower_min, ← lower_none (lower exp u), ← cause]
        rfl
      · exact .inr ⟨ended, after, Int.le_trans (Int.min_le_left _ _) early, some_, past⟩
  | released p exp st s g =>
      obtain ⟨h, hold, ended, before, available, cause⟩ := fields_released.1 fields
      refine ⟨h, hold, ended, ?_, available, ?_⟩
      · show h ≤ min k.cause now
        omega
      · rw [lower_some, lower_min, ← lower_none exp, ← cause]
        rfl
  | merged p exp st x s g =>
      obtain ⟨h, hold, ended, caused, mark⟩ := fields_merged.1 fields
      refine ⟨h, hold, ended, Int.min_le_right _ _, ?_⟩
      show x = max (min k.cause now) h
      omega

/-- A row that is available or under an active hold is before its clock. -/
theorem Tracks.before (tracks : Tracks closed revoked now row k) (applied : Applied closed revoked row)
    (kept : stateAt row now = .available ∨ row.holdActive now = true) : now < k.value := by
  rcases kept with available | active
  · obtain ⟨-, unexpired, unmarked, rfl, rfl⟩ := tracks.fresh applied available
    -- nothing has marked the row, so its cause is its expiry
    have cause : k.cause = row.expiresAt := by
      have fields := tracks.fields
      cases fields.shape with
      | never p exp st u g =>
          obtain rfl : u = none := unmarked
          exact fields.2.1
      | held p exp st u s e g =>
          obtain rfl : u = none := unmarked
          exact (fields.2.2.2.2.resolve_right fun ⟨_, _, _, some_, _⟩ => some_ rfl).1
      | released p exp st s g =>
          obtain ⟨h, -, -, -, -, cause⟩ := fields_released.1 fields
          exact cause
      | merged p exp st x s g => cases unmarked
    have below := k.cause_le_value
    omega
  · have fields := tracks.fields
    cases fields.shape with
    | held p exp st u s e g =>
        obtain rfl := applied.unrevoked rfl
        have after : now < e := of_decide_eq_true active
        have below := k.hold_le_value fields.2.1
        rw [lower_none] at below
        omega
    | never p exp st u g => cases active
    | released p exp st s g => cases active
    | merged p exp st x s g => cases active

/-- Any other row is past its clock, and its fields give the clock. -/
theorem Tracks.past (tracks : Tracks closed revoked now row k) (applied : Applied closed revoked row)
    (unavailable : stateAt row now ≠ .available) (unheld : row.holdActive now = false) :
    max (row.unavailableAt.getD row.expiresAt)
        (row.holdUntil.getD (row.unavailableAt.getD row.expiresAt)) = k.value ∧ k.value ≤ now := by
  obtain ⟨due, -⟩ := tracks.due unavailable unheld
  have fields := tracks.fields
  cases fields.shape with
  | never p exp st u g =>
      obtain ⟨hold, cause, early⟩ := fields_never.1 fields
      rw [lower_of_from (applied.fromClosed tracks (.inl rfl)), lower_of_from (applied.fromRevoked tracks rfl),
        lower_getD early] at cause
      rw [k.value_unheld hold, cause]
      exact ⟨Int.max_self _, due⟩
  | held p exp st u s e g =>
      obtain rfl := applied.unrevoked rfl
      have same := lower_of_from (applied.fromClosed tracks (.inr fun none_ => nomatch none_))
      obtain ⟨-, hold, -, -, rest⟩ := fields_held.1 fields
      have ended : e ≤ now := Int.not_lt.1 (of_decide_eq_false unheld)
      rw [k.value_held hold, lower_none]
      dsimp only [Option.getD_some] at due ⊢
      rcases rest with ⟨cause, early⟩ | ⟨-, -, early, marked, past⟩
      · rw [same, lower_none, lower_getD early] at cause
        exact ⟨by rw [cause], by omega⟩
      · obtain ⟨x, rfl⟩ := Option.ne_none_iff_exists'.1 marked
        have := past x rfl
        dsimp only [Option.getD_some]
        exact ⟨by omega, by omega⟩
  | released p exp st s g =>
      obtain ⟨rfl, rfl⟩ := applied.unmarked tracks rfl
      obtain ⟨h, hold, ended, before, -, cause⟩ := fields_released.1 fields
      rw [lower_none, lower_none] at cause
      rw [k.value_held hold]
      dsimp only [Option.getD_none] at due ⊢
      exact ⟨by omega, by omega⟩
  | merged p exp st x s g =>
      obtain ⟨h, hold, ended, caused, mark⟩ := fields_merged.1 fields
      rw [k.value_held hold]
      dsimp only [Option.getD_none, Option.getD_some] at due ⊢
      exact ⟨by omega, by omega⟩

/-- **The fate of a settled row is that of its clock**: it is let go from the clock's
value on, and removed 90 days later. -/
theorem Tracks.fate (tracks : Tracks closed revoked now row k) (applied : Applied closed revoked row) :
    match fate now row with
    | .left => now < k.value
    | .purged x => x = k.value ∧ k.value ≤ now ∧ now < k.value + days 90
    | .removed x => x = k.value ∧ k.value + days 90 ≤ now := by
  unfold Research.fate
  by_cases available : stateAt row now = .available
  · rw [if_pos available]
    exact tracks.before applied (.inl available)
  rw [if_neg available]
  by_cases held : row.holdActive now = true
  · rw [if_pos held]
    exact tracks.before applied (.inr held)
  rw [if_neg held]
  obtain ⟨same, due⟩ := tracks.past applied available (by simpa using held)
  dsimp only
  rw [same]
  by_cases old : k.value + days 90 ≤ now
  · rw [if_pos old]
    exact ⟨rfl, old⟩
  · rw [if_neg old]
    exact ⟨rfl, due, by omega⟩

/-- The clock a reconcile leaves behind still fits. -/
theorem Tracks.purging (tracks : Tracks closed revoked now row k) (applied : Applied closed revoked row)
    (unavailable : stateAt row now ≠ .available) (unheld : row.holdActive now = false) :
    Tracks closed revoked now { row with unavailableAt := some k.value } k := by
  obtain ⟨same, past⟩ := tracks.past applied unavailable unheld
  obtain ⟨-, due⟩ := tracks.due unavailable unheld
  refine ⟨tracks.closedPast, tracks.revokedPast, past_some.2 past, (fun _ none_ => nomatch none_),
    fun available _ => due available, ?_⟩
  have fields := tracks.fields
  cases fields.shape with
  | never p exp st u g =>
      obtain ⟨hold, cause, early⟩ := fields_never.1 fields
      have fromClosed : From (lower exp u) closed := applied.fromClosed tracks (.inl rfl)
      have fromRevoked : From (lower exp u) revoked := applied.fromRevoked tracks rfl
      rw [lower_of_from fromClosed, lower_of_from fromRevoked] at cause
      have below := lower_le exp u
      dsimp only
      rw [fields_never, k.value_unheld hold, cause, lower_some, Int.min_eq_right below, lower_of_from fromClosed,
        lower_of_from fromRevoked]
      exact ⟨hold, rfl, past_some.2 below⟩
  | held p exp st u s e g =>
      obtain rfl := applied.unrevoked rfl
      have fromClosed : From (lower exp u) closed := applied.fromClosed tracks (.inr fun none_ => nomatch none_)
      obtain ⟨started, hold, from_, over_, rest⟩ := fields_held.1 fields
      have ended : e ≤ now := Int.not_lt.1 (of_decide_eq_false unheld)
      dsimp only
      rw [fields_held, k.value_held hold, lower_none]
      refine ⟨started, hold, from_, fun _ _ => ended, ?_⟩
      by_cases hidden : k.cause ≤ e
      · exact .inr ⟨ended, from_none _, hidden, (fun none_ => nomatch none_), past_some.2 (by omega)⟩
      · obtain ⟨cause, early⟩ := rest.resolve_right fun ⟨_, _, inside, _⟩ => hidden inside
        rw [lower_of_from fromClosed, lower_none] at cause
        have below := lower_le exp u
        have value : max k.cause e = lower exp u := by omega
        rw [value, lower_some, Int.min_eq_right below, lower_of_from fromClosed, lower_none]
        exact .inl ⟨cause, past_some.2 below⟩
  | released p exp st s g =>
      obtain ⟨h, hold, ended, before, -, cause⟩ := fields_released.1 fields
      dsimp only
      rw [fields_merged, k.value_held hold]
      rw [k.value_held hold] at past
      exact ⟨h, hold, ended, by omega, rfl⟩
  | merged p exp st x s g =>
      obtain ⟨h, hold, ended, caused, mark⟩ := fields_merged.1 fields
      dsimp only
      rw [fields_merged, k.value_held hold]
      exact ⟨h, hold, ended, caused, rfl⟩

end Rows

/-- The reconcile's own pass over one record. -/
theorem settled_tracks {ctx : Context} (checks : Checks) {last now : Int} (id : Nat)
    {prep : ObservationPreparation} {replay : Bool} {row : ObservationRecord} {k : Clock}
    (tracks : Tracks ctx.closedAt prep.revokedAt last row k) (later : last ≤ now)
    (prompt : replay = true → row.holdStartedAt ≠ none → row.holdUntil = none →
      row.unavailableAt = none → From (min now row.expiresAt) ctx.closedAt ∧
        From (min now row.expiresAt) prep.revokedAt) :
    ∃ k', k' = (if unfit ctx checks now id prep (recordedCauses ctx now prep replay row) = true then
          ((if replay then k.caused now else k).caused now).ended now
        else if replay then k.caused now else k) ∧
      Tracks ctx.closedAt prep.revokedAt now (settled ctx checks now id prep replay row) k' ∧
      Applied ctx.closedAt prep.revokedAt (settled ctx checks now id prep replay row) := by
  have replaying : Tracks ctx.closedAt prep.revokedAt now (if replay then replayed now row else row)
      (if replay then k.caused now else k) := by
    cases replay with
    | false => exact tracks.mono later
    | true => exact tracks.deleting later (prompt rfl)
  obtain ⟨recorded, applied⟩ := replaying.recorded
  refine ⟨_, rfl, ?_⟩
  unfold settled
  dsimp only
  split
  · exact recorded.quarantining (Int.le_refl now) applied
  · exact ⟨recorded, applied⟩

end ApiSecurityPlatform.Research
