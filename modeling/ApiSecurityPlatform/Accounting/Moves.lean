/-
# Accounting.Moves -- what a transaction on one call can do

A transaction keeps its dictionaries and the rows it has written in step: the
database it leaves is the one it found with one reservation and two balances
overwritten by the dictionaries (`Txn.Over`).  No write-back is stale.

Every branch of `reconcile_v1` is a sequence of five moves (`Move`): an event, a
note, a closed flag, a freeze (re-hold some liabilities, then pause) and a
settlement.  The invariants of the accounting are proved move by move.
-/
import ApiSecurityPlatform.Accounting.Operations
import Mathlib.Logic.Relation

namespace ApiSecurityPlatform.Accounting

open ApiSecurityPlatform.Theory

set_option autoImplicit false

/-! ## Projections of the helpers -/

namespace Txn

variable (t : Txn)

@[simp]
theorem pause_key (state : ReservationState) : (t.pause state).key = t.key := rfl

@[simp]
theorem pause_row (state : ReservationState) : (t.pause state).row =
    { t.row with state := if t.row.state = .conflict then .conflict else state } := rfl

@[simp]
theorem pause_account (state : ReservationState) : (t.pause state).account = t.account.pause := rfl

@[simp]
theorem pause_task (state : ReservationState) : (t.pause state).task = t.task.pause := rfl

@[simp]
theorem pause_accountPolicy (state : ReservationState) :
    (t.pause state).accountPolicy = t.accountPolicy := rfl

@[simp]
theorem pause_taskPolicy (state : ReservationState) : (t.pause state).taskPolicy = t.taskPolicy := rfl

@[simp]
theorem retain_key (incoming : Option Observation) : (t.retain incoming).key = t.key := rfl

@[simp]
theorem retain_row (incoming : Option Observation) :
    (t.retain incoming).row = { t.row with held := t.retained incoming } := rfl

@[simp]
theorem retain_account (incoming : Option Observation) :
    (t.retain incoming).account = Balance.hold t.account (t.retained incoming) t.row.held := rfl

@[simp]
theorem retain_task (incoming : Option Observation) :
    (t.retain incoming).task = Balance.hold t.task (t.retained incoming) t.row.held := rfl

@[simp]
theorem retain_accountPolicy (incoming : Option Observation) :
    (t.retain incoming).accountPolicy = t.accountPolicy := rfl

@[simp]
theorem retain_taskPolicy (incoming : Option Observation) :
    (t.retain incoming).taskPolicy = t.taskPolicy := rfl

end Txn

/-! ## Dictionaries and rows stay in step -/

/-- The database of `t` is `base` with the call's reservation and the two balances
overwritten by the dictionaries of `t`. -/
structure Txn.Over (base : Db) (call : Call) (t : Txn) : Prop where
  found : base.calls.row t.key = some call
  accountFound : ∃ b, base.budgets.row t.accountId = some ⟨t.accountPolicy, b⟩
  taskFound : ∃ b, base.budgets.row t.taskId = some ⟨t.taskPolicy, b⟩
  calls : t.db.calls = base.calls.put t.key { call with reservation := some t.row }
  budgets : t.db.budgets = (base.budgets.put t.accountId ⟨t.accountPolicy, t.account⟩).put t.taskId
    ⟨t.taskPolicy, t.task⟩

namespace Txn.Over

variable {base : Db} {call : Call} {t : Txn}

/-- A column of the reservation, written after its dictionary. -/
theorem reservation (upon : t.Over base call) {row : Reservation} {set_ : Reservation → Reservation}
    (same : set_ t.row = row) : ({ t with row := row }.updateReservation set_).Over base call where
  found := upon.found
  accountFound := upon.accountFound
  taskFound := upon.taskFound
  calls := by
    show t.db.calls.modify t.key _ = _
    rw [upon.calls, Table.modify_put]
    simp only [Option.map_some, same]
    rfl
  budgets := upon.budgets

theorem accountId_ne_taskId (t : Txn) : t.accountId ≠ t.taskId := balanceId_ne _ _

theorem account (upon : t.Over base call) {balance : Balance} {set_ : Balance → Balance}
    (same : set_ t.account = balance) :
    ({ t with account := balance }.updateBalance t.accountId set_).Over base call where
  found := upon.found
  accountFound := upon.accountFound
  taskFound := upon.taskFound
  calls := upon.calls
  budgets := by
    obtain ⟨a, atAccount⟩ := upon.accountFound
    obtain ⟨k, atTask⟩ := upon.taskFound
    have differ := accountId_ne_taskId t
    have first := Table.mem_of_row atAccount
    have second := Table.mem_of_row atTask
    have row : ((base.budgets.put t.accountId ⟨t.accountPolicy, t.account⟩).put t.taskId
        ⟨t.taskPolicy, t.task⟩).row t.accountId = some ⟨t.accountPolicy, t.account⟩ := by
      rw [Table.row_put_of_ne _ _ differ, Table.row_put_self]
    show t.db.budgets.modify t.accountId _ = _
    rw [upon.budgets, Table.modify_of_row _ _ row,
      Table.put_comm base.budgets _ _ differ first second, Table.put_put,
      ← Table.put_comm base.budgets _ _ differ first second]
    simp only [same]
    rfl

theorem task (upon : t.Over base call) {balance : Balance} {set_ : Balance → Balance}
    (same : set_ t.task = balance) :
    ({ t with task := balance }.updateBalance t.taskId set_).Over base call where
  found := upon.found
  accountFound := upon.accountFound
  taskFound := upon.taskFound
  calls := upon.calls
  budgets := by
    show t.db.budgets.modify t.taskId _ = _
    rw [upon.budgets, Table.modify_put]
    simp only [same]
    rfl

/-- Tables other than the two do not matter. -/
theorem other (upon : t.Over base call) {db : Db} {draws : Nat} (calls : db.calls = t.db.calls)
    (budgets : db.budgets = t.db.budgets) : ({ t with db := db, draws := draws }).Over base call where
  found := upon.found
  accountFound := upon.accountFound
  taskFound := upon.taskFound
  calls := calls.trans upon.calls
  budgets := budgets.trans upon.budgets

theorem pause (upon : t.Over base call) (state : ReservationState) :
    (t.pause state).Over base call := by
  unfold Txn.pause
  refine task (account (reservation upon ?_) ?_) ?_ <;> rfl

theorem retain (upon : t.Over base call) (incoming : Option Observation) :
    (t.retain incoming).Over base call := by
  unfold Txn.retain
  refine reservation (task (account upon ?_) ?_) ?_ <;> rfl

theorem retains (upon : t.Over base call) (kept : List (Option Observation)) :
    (kept.foldl Txn.retain t).Over base call := by
  induction kept generalizing t with
  | nil => exact upon
  | cons incoming rest ih => exact ih (upon.retain incoming)

theorem close (upon : t.Over base call) :
    ({ t with row := { t.row with closed := true } }.updateReservation
      fun r => { r with closed := true }).Over base call :=
  upon.reservation rfl

end Txn.Over

/-! ## Events and settlements -/

namespace Txn

variable {uuid : Uuids} {t t' : Txn}

/-- `_event` finds its record written already, or appends it. -/
theorem event_cases {kind : EventKind} {record : EventRecord} {eventId : Option Id} {recovery : Bool}
    (written : t.event uuid kind record eventId recovery = .ok t') :
    (∃ draws, t' = { t with draws := draws }) ∨
    ∃ eid draws, t.row.eventCount < 64 ∧ (∀ e ∈ t.db.events, e.eventId ≠ eid) ∧
      t' = ({ t with
        draws := draws
        row := { t.row with eventCount := t.row.eventCount + 1 }
        db := { t.db with
          events := t.db.events ++ [⟨eid, t.key, t.row.eventCount + 1, kind, record⟩] } }
        : Txn).updateReservation fun r => { r with eventCount := t.row.eventCount + 1 } := by
  have draw : ∃ draws, (if eventId.isSome = true then t else { t with draws := t.draws + 1 }) =
      { t with draws := draws } := by
    split
    · exact ⟨t.draws, rfl⟩
    · exact ⟨t.draws + 1, rfl⟩
  obtain ⟨draws, drawn⟩ := draw
  simp only [event, drawn] at written
  split at written
  · rename_i prior found
    simp only [bind_ok, require_ok] at written
    obtain ⟨-, -, same⟩ := written
    exact .inl ⟨draws, (Except.ok.inj same).symm⟩
  · rename_i absent
    simp only [bind_ok, require_ok] at written
    obtain ⟨-, room, same⟩ := written
    refine .inr ⟨eventId.getD (uuid t.draws), draws, ?_, ?_, (Except.ok.inj same).symm⟩
    · cases recovery <;> simp at room <;> omega
    · simpa using List.find?_eq_none.1 absent

/-- What a settlement writes. -/
theorem settle_ok {H : Hashes} {event : Observation} {value : Amount} {record : Settlement}
    (done : t.settle H uuid event value = .ok (t', record)) :
    record = t.settlementRecord H (uuid t.draws) event value ∧
    record.make = .ok record ∧
    (∀ s ∈ t.db.settlements, s.settlementId ≠ uuid t.draws) ∧
    t'.key = t.key ∧ t'.accountPolicy = t.accountPolicy ∧ t'.taskPolicy = t.taskPolicy ∧
    t'.row = { t.row with
      state := .settled, actual := value, held := fun _ => 0, revision := t.row.revision + 1 } ∧
    t'.account = t.account.settle t.accountPolicy (fun d => value d - t.row.actual d) t.row.held ∧
    t'.task = t.task.settle t.taskPolicy (fun d => value d - t.row.actual d) t.row.held ∧
    t'.db.settlements = t.db.settlements ++ [record] ∧
    t'.db.postings = t.db.postings ++
      postingsOf t (uuid t.draws) (fun d => value d - t.row.actual d) t.row.held ∧
    t'.db.events = t.db.events ∧ t'.db.recoveries = t.db.recoveries := by
  simp only [settle, bind_ok, require_ok] at done
  obtain ⟨made, making, -, fresh, same⟩ := done
  have shape := Settlement.make_ok making
  subst shape
  obtain ⟨rfl, rfl⟩ := Prod.mk.inj (Except.ok.inj same)
  exact ⟨rfl, making, fresh, rfl, rfl, rfl, rfl, rfl, rfl, rfl, rfl, rfl, rfl⟩

end Txn

namespace Txn.Over

variable {base : Db} {call : Call} {t t' : Txn} {uuid : Uuids}

theorem event {kind : EventKind} {record : EventRecord} {eventId : Option Id} {recovery : Bool}
    (upon : t.Over base call) (written : t.event uuid kind record eventId recovery = .ok t') :
    t'.Over base call := by
  obtain ⟨draws, rfl⟩ | ⟨eid, draws, -, -, rfl⟩ := event_cases written
  · exact upon.other rfl rfl
  · let entry : Event := ⟨eid, t.key, t.row.eventCount + 1, kind, record⟩
    have wider : ({ t with draws := draws, db := { t.db with events := t.db.events ++ [entry] } }
        : Txn).Over base call := upon.other rfl rfl
    exact wider.reservation rfl

theorem settle {H : Hashes} {event : Observation} {value : Amount} {record : Settlement}
    (upon : t.Over base call) (done : t.settle H uuid event value = .ok (t', record)) :
    t'.Over base call := by
  simp only [Txn.settle, bind_ok, require_ok] at done
  obtain ⟨made, making, -, -, same⟩ := done
  obtain ⟨rfl, rfl⟩ := Prod.mk.inj (Except.ok.inj same)
  refine reservation (task (account (upon.other ?_ ?_) ?_) ?_) ?_ <;> rfl

end Txn.Over

/-! ## Moves -/

/-- One move of a transaction on a call. -/
inductive Move (H : Hashes) (uuid : Uuids) : Txn → Txn → Prop where
  | event {t t' : Txn} {kind : EventKind} {record : EventRecord} {eventId : Option Id}
      {recovery : Bool} (written : t.event uuid kind record eventId recovery = .ok t') :
      Move H uuid t t'
  /-- A conflict row or an observation copy, and a draw. -/
  | note (t : Txn) (draws : Nat) (conflicts : List Conflict) (copies : List ObservationCopy) :
      Move H uuid t { t with
        draws := draws, db := { t.db with conflicts := conflicts, copies := copies } }
  | close (t : Txn) : Move H uuid t ({ t with row := { t.row with closed := true }
      }.updateReservation fun r => { r with closed := true })
  /-- Re-hold any number of liabilities, then pause. -/
  | freeze (t : Txn) (kept : List (Option Observation)) {state : ReservationState}
      (unsettled : state ≠ .settled) : Move H uuid t ((kept.foldl Txn.retain t).pause state)
  | settle {t t' : Txn} {event : Observation} {value : Amount} {record : Settlement}
      (paid : actual event.usage = .ok value) (fits : ¬ t.unrepresentable value)
      (done : t.settle H uuid event value = .ok (t', record)) : Move H uuid t t'

/-- Any number of moves. -/
abbrev Moves (H : Hashes) (uuid : Uuids) : Txn → Txn → Prop := Relation.ReflTransGen (Move H uuid)

theorem Move.upon {H : Hashes} {uuid : Uuids} {base : Db} {call : Call} {t t' : Txn}
    (move : Move H uuid t t') (upon : t.Over base call) : t'.Over base call := by
  cases move with
  | event written => exact upon.event written
  | note => exact upon.other rfl rfl
  | close => exact upon.close
  | freeze kept unsettled => exact (upon.retains kept).pause _
  | settle paid fits done => exact upon.settle done

namespace Txn

/-- Re-holding changes neither the key nor the policies of a transaction. -/
theorem retains_fixed (t : Txn) (kept : List (Option Observation)) :
    (kept.foldl Txn.retain t).key = t.key ∧
      (kept.foldl Txn.retain t).accountPolicy = t.accountPolicy ∧
      (kept.foldl Txn.retain t).taskPolicy = t.taskPolicy := by
  induction kept generalizing t with
  | nil => exact ⟨rfl, rfl, rfl⟩
  | cons incoming rest ih => exact ih (t.retain incoming)

end Txn

theorem Move.fixed {H : Hashes} {uuid : Uuids} {t t' : Txn} (move : Move H uuid t t') :
    t'.key = t.key ∧ t'.accountPolicy = t.accountPolicy ∧ t'.taskPolicy = t.taskPolicy := by
  cases move with
  | event written =>
      obtain ⟨draws, rfl⟩ | ⟨eid, draws, -, -, rfl⟩ := Txn.event_cases written <;>
        exact ⟨rfl, rfl, rfl⟩
  | note | close => exact ⟨rfl, rfl, rfl⟩
  | freeze kept unsettled => exact t.retains_fixed kept
  | settle paid fits done =>
      obtain ⟨-, -, -, key, accountPolicy, taskPolicy, -⟩ := Txn.settle_ok done
      exact ⟨key, accountPolicy, taskPolicy⟩

namespace Moves

variable {H : Hashes} {uuid : Uuids} {t t' : Txn}

/-- The run rule of moves. -/
theorem preserves {I : Txn → Prop} (keep : ∀ t t', Move H uuid t t' → I t → I t')
    (moves : Moves H uuid t t') (start : I t) : I t' := by
  induction moves with
  | refl => exact start
  | tail _ last ih => exact keep _ _ last ih

theorem fixed (moves : Moves H uuid t t') :
    t'.key = t.key ∧ t'.accountPolicy = t.accountPolicy ∧ t'.taskPolicy = t.taskPolicy := by
  induction moves with
  | refl => exact ⟨rfl, rfl, rfl⟩
  | tail _ last ih =>
      obtain ⟨key, accountPolicy, taskPolicy⟩ := last.fixed
      exact ⟨key.trans ih.1, accountPolicy.trans ih.2.1, taskPolicy.trans ih.2.2⟩

theorem upon {base : Db} {call : Call} (moves : Moves H uuid t t') (upon : t.Over base call) :
    t'.Over base call :=
  preserves (fun _ _ move => move.upon) moves upon

theorem conflict {existing incoming : Id} {reason : Reason} {record : Option Observation}
    (done : t.conflict uuid existing incoming reason record = .ok t') : Moves H uuid t t' := by
  simp only [Txn.conflict, bind_ok] at done
  obtain ⟨u, recorded, same⟩ := done
  obtain rfl := Except.ok.inj same
  have evidence : Moves H uuid t u := by
    simp only [Txn.recordConflict] at recorded
    split at recorded
    · simp only [bind_ok, require_ok] at recorded
      obtain ⟨-, -, written⟩ := recorded
      exact .tail (.single (.note t (t.draws + 1) _ t.db.copies)) (.event written)
    · obtain rfl := Except.ok.inj recorded
      exact .refl
  exact evidence.tail (.freeze u [record] (by decide))

end Moves

end ApiSecurityPlatform.Accounting
