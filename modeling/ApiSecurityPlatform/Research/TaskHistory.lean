/-
# Research.TaskHistory -- what the task ledger never promises twice

Each call that succeeds rewrites one task (`Moved`): a new version with its event, an
approval with the plans it holds, or one event.  The invariant of a task (`TaskLog.Sound`)
is kept by each of the three, and the members of two tasks stay apart.
-/
import ApiSecurityPlatform.Research.TaskLedger
import Mathlib.Data.List.Nodup
import Mathlib.Data.List.Perm.Subperm
import Mathlib.Data.List.Range

namespace ApiSecurityPlatform.Research.TaskLedger

open ApiSecurityPlatform.Python ApiSecurityPlatform.Theory

set_option autoImplicit false

/-! ## One task -/

/-- An approval of a version that was approved, revoked or paused before. -/
def Reapproves (a b : Event) : Prop :=
  b.kind = .approved ∧ a.version = b.version ∧ (a.kind = .approved ∨ a.kind = .revoked ∨ a.kind = .paused)

variable {C : Codec} {W : World} {key : TaskKey} {log : TaskLog} {db db' : Ledger}

/-- What holds of every task between calls. -/
structure TaskLog.Sound (C : Codec) (key : TaskKey) (log : TaskLog) : Prop where
  versions : Numbered Version.version log.versions
  intact : ∀ v ∈ log.versions, v.intact C key log = true ∧ v.members = v.body.members.map Member.row ∧
    Numbered Member.ordinal v.body.members
  depends : ∀ v ∈ log.versions, ∀ m ∈ v.body.members, ∀ plan ∈ m.dependsOn,
    ∃ m' ∈ v.body.members, m'.planId = plan ∧ m'.ordinal < m.ordinal
  bounded : ∀ v ∈ log.versions, v.body.limits.targetRequests ≤ maxRequests
  events : Numbered Event.sequence log.events
  few : log.events.length ≤ maxEvents
  bodies : ∀ e ∈ log.events, e.body.sequence = e.sequence ∧ e.body.kind = e.kind ∧ e.body.recordedAt = e.recordedAt
  known : ∀ e ∈ log.events, e.version ≤ log.versions.length
  times : log.events.Pairwise fun a b => a.recordedAt ≤ b.recordedAt
  approvals : log.events.Pairwise fun a b => ¬ Reapproves a b
  closed : log.events.Pairwise fun a _ => a.kind ≠ .cancelled
  slots : Numbered Allocation.slot log.allocations
  plans : (log.allocations.map Allocation.planId).Nodup
  within : ∀ v ∈ log.versions, v.version = log.versions.length →
    log.allocations.length ≤ v.body.limits.targetRequests
  held : ∀ e ∈ log.events, e.kind = .approved → ∀ v ∈ log.versions, v.version = e.version →
    ∀ m ∈ v.body.members, m.planId ∈ log.allocations.map Allocation.planId

theorem require_ok {α : Type} {found : Option α} {a : α} : require found = .ok a ↔ found = some a := by
  cases found <;> simp [require]

namespace TaskLog.Sound

theorem start (targetId : Int) (now : Time) : TaskLog.Sound C key ⟨targetId, now, [], [], []⟩ where
  versions := rfl
  intact _ member := nomatch member
  depends _ member := nomatch member
  bounded _ member := nomatch member
  events := rfl
  few := Nat.zero_le _
  bodies _ member := nomatch member
  known _ member := nomatch member
  times := .nil
  approvals := .nil
  closed := .nil
  slots := rfl
  plans := .nil
  within _ member := nomatch member
  held _ member := nomatch member

/-- The times before a last one that is not later. -/
theorem le_of_last {now : Time} (sound : log.Sound C key)
    (late : ∀ last, log.events.getLast? = some last → last.recordedAt ≤ now) :
    ∀ e ∈ log.events, e.recordedAt ≤ now := by
  intro e member
  rcases List.eq_nil_or_concat log.events with none_ | ⟨front, last, split⟩
  · rw [none_] at member
    nomatch member
  · have times := sound.times
    rw [split, List.concat_eq_append] at times member
    have end_ : last.recordedAt ≤ now := late last (by rw [split, List.concat_eq_append, List.getLast?_concat])
    rcases List.mem_append.1 member with before | here
    · have order := (List.pairwise_append.1 times).2.2 e before last (List.mem_singleton.2 rfl)
      exact Int.le_trans order end_
    · rw [List.mem_singleton.1 here]
      exact end_

/-- One more event. -/
theorem addEvent {e : Event} (sound : log.Sound C key) (number : e.sequence = log.events.length + 1)
    (room : log.events.length < maxEvents)
    (body : e.body.sequence = e.sequence ∧ e.body.kind = e.kind ∧ e.body.recordedAt = e.recordedAt)
    (version : e.version ≤ log.versions.length)
    (late : ∀ last, log.events.getLast? = some last → last.recordedAt ≤ e.recordedAt)
    (open_ : ∀ a ∈ log.events, a.kind ≠ .cancelled) (first : ∀ a ∈ log.events, ¬ Reapproves a e)
    (allocated : e.kind = .approved → ∀ v ∈ log.versions, v.version = e.version →
      ∀ m ∈ v.body.members, m.planId ∈ log.allocations.map Allocation.planId) :
    TaskLog.Sound C key { log with events := log.events ++ [e] } := by
  have extend : ∀ {r : Event → Event → Prop}, log.events.Pairwise r → (∀ a ∈ log.events, r a e) →
      (log.events ++ [e]).Pairwise r := by
    intro r before last
    refine List.pairwise_append.2 ⟨before, List.pairwise_singleton _ _, fun a member b single => ?_⟩
    rw [List.mem_singleton.1 single]
    exact last a member
  have each : ∀ {q : Event → Prop}, (∀ a ∈ log.events, q a) → q e → ∀ a ∈ log.events ++ [e], q a := by
    intro q before last a member
    rcases List.mem_append.1 member with old | new
    · exact before a old
    · rw [List.mem_singleton.1 new]
      exact last
  exact
    { versions := sound.versions
      intact := sound.intact
      depends := sound.depends
      bounded := sound.bounded
      events := sound.events.append (by simp [number])
      few := by
        rw [List.length_append]
        exact room
      bodies := each sound.bodies body
      known := each sound.known version
      times := extend sound.times (sound.le_of_last late)
      approvals := extend sound.approvals first
      closed := extend sound.closed open_
      slots := sound.slots
      plans := sound.plans
      within := sound.within
      held := each sound.held allocated }

/-- One more version: no event names it yet. -/
theorem addVersion {v : Version} (sound : log.Sound C key) (number : v.version = log.versions.length + 1)
    (intact : v.intact C key log = true) (rows : v.members = v.body.members.map Member.row)
    (ordinals : Numbered Member.ordinal v.body.members)
    (depends : ∀ m ∈ v.body.members, ∀ plan ∈ m.dependsOn,
      ∃ m' ∈ v.body.members, m'.planId = plan ∧ m'.ordinal < m.ordinal)
    (bounded : v.body.limits.targetRequests ≤ maxRequests)
    (within : log.allocations.length ≤ v.body.limits.targetRequests) :
    TaskLog.Sound C key { log with versions := log.versions ++ [v] } := by
  have each : ∀ {q : Version → Prop}, (∀ a ∈ log.versions, q a) → q v → ∀ a ∈ log.versions ++ [v], q a := by
    intro q before last a member
    rcases List.mem_append.1 member with old | new
    · exact before a old
    · rw [List.mem_singleton.1 new]
      exact last
  have length : (log.versions ++ [v]).length = log.versions.length + 1 := by simp
  exact
    { versions := sound.versions.append (by simp [number])
      intact := each sound.intact ⟨intact, rows, ordinals⟩
      depends := each sound.depends depends
      bounded := each sound.bounded bounded
      events := sound.events
      few := sound.few
      bodies := sound.bodies
      known := fun e member => by
        have before := sound.known e member
        show e.version ≤ (log.versions ++ [v]).length
        omega
      times := sound.times
      approvals := sound.approvals
      closed := sound.closed
      slots := sound.slots
      plans := sound.plans
      within := each
        (fun a member last => by
          have before := sound.versions.le member
          have last : a.version = (log.versions ++ [v]).length := last
          omega)
        (fun _ => within)
      held := fun e member approved => each (sound.held e member approved) fun same => by
        have before := sound.known e member
        omega }

/-- Further plans are held. -/
theorem hold {rows : List Allocation} (sound : log.Sound C key)
    (numbers : rows.map Allocation.slot = List.range' (log.allocations.length + 1) rows.length)
    (new : ((log.allocations ++ rows).map Allocation.planId).Nodup)
    (within : ∀ v ∈ log.versions, v.version = log.versions.length →
      log.allocations.length + rows.length ≤ v.body.limits.targetRequests) :
    TaskLog.Sound C key { log with allocations := log.allocations ++ rows } where
  versions := sound.versions
  intact := sound.intact
  depends := sound.depends
  bounded := sound.bounded
  events := sound.events
  few := sound.few
  bodies := sound.bodies
  known := sound.known
  times := sound.times
  approvals := sound.approvals
  closed := sound.closed
  slots := sound.slots.append numbers
  plans := new
  within v member last := by
    have bound := within v member last
    simpa using bound
  held e member approved v inside same m chosen := by
    rw [List.map_append]
    exact List.mem_append_left _ (sound.held e member approved v inside same m chosen)

theorem readEvents_eq (sound : log.Sound C key) : readEvents log = .ok log.events := by
  have rows : (log.events.insertionSort fun a b => a.sequence ≤ b.sequence).take (maxEvents + 1) = log.events := by
    rw [sound.events.insertionSort]
    exact List.take_of_length_le (Nat.le_succ_of_le sound.few)
  unfold readEvents
  rw [rows]
  refine bind_ok.2 ⟨(), refuse_ok.2 ?_, bind_ok.2 ⟨(), refuse_ok.2 ?_, rfl⟩⟩
  · rintro (many | wrong)
    · exact absurd sound.few (Nat.not_le.2 many)
    · exact wrong sound.events
  · intro wrong
    obtain ⟨e, member, bad⟩ := List.any_eq_true.1 wrong
    obtain ⟨sequence, kind, time⟩ := sound.bodies e member
    simp [sequence, kind, time] at bad

theorem few_allocations (sound : log.Sound C key) (some_ : log.versions ≠ []) :
    log.allocations.length ≤ maxRequests := by
  obtain ⟨v, member, last⟩ : ∃ v ∈ log.versions, v.version = log.versions.length := by
    have inside : log.versions.length ∈ List.range' 1 log.versions.length := by
      have positive := List.length_pos_iff.2 some_
      rw [List.mem_range'_1]
      omega
    rw [← sound.versions] at inside
    exact List.mem_map.1 inside
  exact Nat.le_trans (sound.within v member last) (sound.bounded v member)

theorem readAllocations_ok {held : List Allocation} (sound : log.Sound C key)
    (done : readAllocations log = .ok held) : held = log.allocations := by
  unfold readAllocations at done
  obtain ⟨_, few, same⟩ := bind_ok.1 done
  rw [refuse_ok] at few
  rw [sound.slots.insertionSort] at few same
  rw [← Except.ok.inj same]
  refine List.take_of_length_le ?_
  rw [List.length_take] at few
  omega

theorem latest_eq {v : Version} (sound : log.Sound C key) (found : latest log = some v) :
    v ∈ log.versions ∧ v.version = log.versions.length := by
  have member := List.mem_of_find?_eq_some found
  have greatest := List.find?_some found
  refine ⟨member, Nat.le_antisymm (sound.versions.le member) ?_⟩
  have inside : log.versions.length ∈ List.range' 1 log.versions.length := by
    have positive := List.length_pos_of_mem member
    rw [List.mem_range'_1]
    omega
  rw [← sound.versions] at inside
  obtain ⟨w, there, same⟩ := List.mem_map.1 inside
  have le := List.all_eq_true.1 greatest w there
  rw [← same]
  simpa using le

end TaskLog.Sound

/-! ## The parts of a call -/

theorem append_ok {version : Version} {events evs : List Event} {kind : Kind} {evidence : Evidence}
    {at_ : Option Time} (done : append key version events kind evidence at_ db = (.ok evs, db')) :
    ∃ now, events.length < maxEvents ∧ (∀ last, events.getLast? = some last → last.recordedAt ≤ now) ∧
      db' = db.modify key fun log =>
        { log with events := log.events ++ [newEvent version events kind evidence now] } := by
  simp only [append, Tx.bind_ok, Tx.refuse_ok, Tx.lift_ok, Tx.modify_ok, Tx.pure_ok] at done
  obtain ⟨_, _, ⟨room, rfl⟩, now, _, ⟨-, rfl⟩, _, _, ⟨late, rfl⟩, _, _, rfl, -, rfl⟩ := done
  refine ⟨now, Nat.not_le.1 room, fun last found => ?_, rfl⟩
  by_contra later
  exact late (.inr (by simpa [found] using later))

theorem view_ok {row : Version} {events : List Event} {v : View} (done : view W key row events db = (.ok v, db')) :
    db' = db := by
  simp only [view, Tx.bind_ok, Tx.refuse_ok, Tx.lift_ok, Tx.get_ok, Tx.pure_ok] at done
  obtain ⟨_, _, ⟨rfl, rfl⟩, _, _, ⟨-, rfl⟩, _, _, ⟨-, rfl⟩, _, _, ⟨-, rfl⟩, -, rfl⟩ := done
  rfl

/-- The latest version of an open task, with all its events. -/
theorem current_ok {contextId : Int} {reference : Reference} {n : Nat} {now : Current}
    (logs : ∀ log, db.row ⟨contextId, reference.number⟩ = some log → log.Sound C ⟨contextId, reference.number⟩)
    (done : current C db contextId reference n = .ok now) :
    db.row ⟨contextId, reference.number⟩ = some now.log ∧ now.row ∈ now.log.versions ∧
      now.row.version = now.log.versions.length ∧ now.events = now.log.events ∧
      ∀ e ∈ now.log.events, e.kind ≠ .cancelled := by
  simp only [current, bind_ok, refuse_ok, require_ok] at done
  obtain ⟨log, found, row, exact_, events, read, _, fresh, _, open_, same⟩ := done
  obtain rfl := Except.ok.inj same
  have sound := logs log found
  obtain rfl : log.events = events := Except.ok.inj (sound.readEvents_eq.symm.trans read)
  rw [not_or, not_not, not_not] at fresh
  simp only [exactVersion, bind_ok, refuse_ok, require_ok] at exact_
  obtain ⟨row', inside, _, -, _, -, _, -, same'⟩ := exact_
  obtain rfl := Except.ok.inj same'
  obtain ⟨v, newest, number⟩ := Option.map_eq_some_iff.1 fresh.1
  obtain ⟨-, last⟩ := sound.latest_eq newest
  refine ⟨found, List.mem_of_find?_eq_some inside, by rw [← number, last], rfl, fun e member cancelled => ?_⟩
  exact open_ (List.any_eq_true.2 ⟨e, member, by simpa using cancelled⟩)

/-! ## Held plans -/

theorem holdPlans_ok {version slot : Nat} {plans : List Int} {u : Unit} (found : db.row key = some log)
    (done : holdPlans W key version slot plans db = (.ok u, db')) :
    ∃ rows : List Allocation, rows.map Allocation.planId = plans ∧
      rows.map Allocation.slot = List.range' slot rows.length ∧
      db' = db.put key { log with allocations := log.allocations ++ rows } := by
  induction plans generalizing slot db log with
  | nil =>
      simp only [holdPlans, Tx.pure_ok] at done
      obtain ⟨-, rfl⟩ := done
      refine ⟨[], rfl, rfl, ?_⟩
      rw [List.append_nil]
      exact (Table.put_self_of_row db found).symm
  | cons plan rest ih =>
      simp only [holdPlans, holdPlan, Tx.bind_ok, Tx.refuse_ok, Tx.lift_ok, Tx.get_ok, Tx.modify_ok] at done
      obtain ⟨_, _, ⟨now, _, ⟨-, rfl⟩, _, _, ⟨rfl, rfl⟩, _, _, ⟨-, rfl⟩, rfl⟩, remaining⟩ := done
      rw [Table.modify_of_row _ _ found] at remaining
      obtain ⟨rows, same, slots, rfl⟩ := ih (Table.row_put_self _ _ _) remaining
      refine ⟨⟨plan, version, slot, now⟩ :: rows, ?_, ?_, ?_⟩
      · rw [List.map_cons, same]
      · rw [List.map_cons, slots, List.length_cons, List.range'_succ]
      · rw [Table.put_put, List.append_assoc]
        rfl

theorem allocate_ok {row : Version} {u : Unit} (sound : log.Sound C key) (found : db.row key = some log)
    (inside : row ∈ log.versions) (newest : row.version = log.versions.length)
    (distinct : (row.body.members.map Member.planId).Nodup)
    (done : allocate W key log row db = (.ok u, db')) :
    ∃ rows : List Allocation,
      TaskLog.Sound C key { log with allocations := log.allocations ++ rows } ∧
      (∀ m ∈ row.body.members, m.planId ∈ (log.allocations ++ rows).map Allocation.planId) ∧
      db' = db.put key { log with allocations := log.allocations ++ rows } := by
  simp only [allocate, Tx.bind_ok, Tx.refuse_ok, Tx.lift_ok] at done
  obtain ⟨held, _, ⟨read, rfl⟩, _, _, ⟨within, rfl⟩, rest⟩ := done
  obtain rfl := sound.readAllocations_ok read
  obtain ⟨rows, plans, slots, rfl⟩ := holdPlans_ok found rest
  have count := congrArg List.length plans
  rw [List.length_map] at count
  refine ⟨rows, sound.hold slots ?_ ?_, fun m member => ?_, rfl⟩
  · rw [List.map_append, plans]
    refine sound.plans.append (distinct.filter _) fun plan old new => ?_
    simpa [old] using (List.mem_filter.1 new).2
  · intro v member last
    obtain rfl : v = row := sound.versions.inj member inside (last.trans newest.symm)
    omega
  · rw [List.map_append, plans, List.mem_append]
    by_cases old : m.planId ∈ log.allocations.map Allocation.planId
    · exact .inl old
    · exact .inr (List.mem_filter.2 ⟨List.mem_map_of_mem member, by simpa using old⟩)

/-! ## Member sets -/

theorem snapshotMember_ok {p : Proposal} {ordinal : Nat} {seen : List Int} {selected : Selection}
    {out : Member × Time} (done : snapshotMember W db key p ordinal seen selected = .ok out) :
    out.1.selection = selected ∧ out.1.ordinal = ordinal ∧ (∀ plan ∈ out.1.dependsOn, plan ∈ seen) ∧
      boundElsewhere db key selected.planId = false := by
  simp only [snapshotMember, bind_ok, refuse_ok, require_ok] at done
  obtain ⟨view, -, _, -, link, -, plan, -, _, -, _, -, _, free, plans, -, _, earlier, _, -, same⟩ := done
  obtain rfl := Except.ok.inj same
  refine ⟨rfl, rfl, fun plan member => ?_, by simpa using free⟩
  rw [List.mem_insertionSort] at member
  by_contra outside
  exact earlier (List.any_eq_true.2 ⟨plan, member, by simpa using outside⟩)

/-- A set of members, numbered in order, each depending only on plans before it. -/
structure Arranged (db : Ledger) (key : TaskKey) (ordinal : Nat) (seen : List Int) (selected : List Selection)
    (members : List Member) : Prop where
  selections : members.map Member.selection = selected
  ordinals : members.map Member.ordinal = List.range' ordinal members.length
  depends : ∀ m ∈ members, ∀ plan ∈ m.dependsOn,
    plan ∈ seen ∨ ∃ m' ∈ members, m'.planId = plan ∧ m'.ordinal < m.ordinal
  free : ∀ m ∈ members, boundElsewhere db key m.planId = false

theorem snapshotMembers_ok {p : Proposal} {ordinal : Nat} {seen : List Int} {selected : List Selection}
    {out : List (Member × Time)} (done : snapshotMembers W db key p ordinal seen selected = .ok out) :
    Arranged db key ordinal seen selected (out.map Prod.fst) := by
  induction selected generalizing ordinal seen out with
  | nil =>
      obtain rfl := Except.ok.inj done
      exact ⟨rfl, rfl, fun _ member => (nomatch member), fun _ member => (nomatch member)⟩
  | cons first rest ih =>
      simp only [snapshotMembers, bind_ok] at done
      obtain ⟨member, one, others, remaining, same⟩ := done
      obtain rfl := Except.ok.inj same
      obtain ⟨chosen, number, earlier, free⟩ := snapshotMember_ok one
      have tail := ih remaining
      have later : ∀ m ∈ others.map Prod.fst, ordinal < m.ordinal := by
        intro m inside
        have range : m.ordinal ∈ List.range' (ordinal + 1) (others.map Prod.fst).length :=
          tail.ordinals ▸ List.mem_map_of_mem inside
        rw [List.mem_range'_1] at range
        omega
      refine ⟨?_, ?_, fun m inside plan needed => ?_, fun m inside => ?_⟩
      · rw [List.map_cons, List.map_cons, chosen, tail.selections]
      · rw [List.map_cons, List.map_cons, number, tail.ordinals, List.length_cons, List.range'_succ]
      · rcases List.mem_cons.1 inside with rfl | inside
        · exact .inl (earlier plan needed)
        · rcases tail.depends m inside plan needed with before | ⟨m', there, same, less⟩
          · rcases List.mem_append.1 before with before | here
            · exact .inl before
            · refine .inr ⟨member.1, List.mem_cons_self, ?_, ?_⟩
              · rw [Member.planId, chosen, List.mem_singleton.1 here]
              · rw [number]
                exact later m inside
          · exact .inr ⟨m', List.mem_cons_of_mem _ there, same, less⟩
      · rcases List.mem_cons.1 inside with rfl | inside
        · rw [Member.planId, chosen]
          exact free
        · exact tail.free m inside

theorem snapshot_ok {p : Proposal} {taken : Snapshot} (done : snapshot W db key p = .ok taken) :
    Arranged db key 1 [] p.members taken.members ∧ (p.members.map (·.planId)).Nodup := by
  simp only [snapshot, bind_ok, refuse_ok, require_ok] at done
  obtain ⟨base, -, _, -, _, -, _, -, _, distinct, members, all, same⟩ := done
  obtain rfl := Except.ok.inj same
  exact ⟨snapshotMembers_ok all, not_not.1 distinct⟩

theorem Arranged.numbered {selected : List Selection} {members : List Member}
    (arranged : Arranged db key 1 [] selected members) : Numbered Member.ordinal members :=
  arranged.ordinals

theorem Arranged.earlier {selected : List Selection} {members : List Member}
    (arranged : Arranged db key 1 [] selected members) :
    ∀ m ∈ members, ∀ plan ∈ m.dependsOn, ∃ m' ∈ members, m'.planId = plan ∧ m'.ordinal < m.ordinal := by
  intro m inside plan needed
  rcases arranged.depends m inside plan needed with none_ | found
  · nomatch none_
  · exact found

/-! ## The ledger -/

/-- What holds of the ledger between calls. -/
structure Sound (C : Codec) (db : Ledger) : Prop where
  logs : ∀ key log, db.row key = some log → log.Sound C key ∧ log.versions ≠ []
  distinct : ∀ key log, db.row key = some log → ∀ v ∈ log.versions, (v.body.members.map Member.planId).Nodup
  apart : ∀ k k' log log' plan, db.row k = some log → db.row k' = some log' → log.binds plan = true →
    log'.binds plan = true → k = k'

/-- A call that succeeds rewrites one task, and only adds rows to it. -/
structure Moved (C : Codec) (db db' : Ledger) (key : TaskKey) (log : TaskLog) : Prop where
  put : db' = db.put key log
  sound : log.Sound C key
  some_ : log.versions ≠ []
  distinct : ∀ v ∈ log.versions, (v.body.members.map Member.planId).Nodup
  grown : ∀ old, db.row key = some old → old.allocations <+: log.allocations
  bound : ∀ plan, log.binds plan = true →
    (∃ old, db.row key = some old ∧ old.binds plan = true) ∨ boundElsewhere db key plan = false

theorem not_boundElsewhere {plan : Int} (free : boundElsewhere db key plan = false) {k : TaskKey} {log : TaskLog}
    (found : db.row k = some log) (binds : log.binds plan = true) : k = key := by
  by_contra other
  have all := List.any_eq_false.1 free k (Table.mem_of_row found)
  simp [other, found, binds] at all

theorem Sound.moved (sound : Sound C db) (moved : Moved C db db' key log) : Sound C db' := by
  obtain ⟨rfl, own, some_, distinct, -, bound⟩ := moved
  have split : ∀ {k : TaskKey} {l : TaskLog}, (db.put key log).row k = some l →
      (k = key ∧ l = log) ∨ (k ≠ key ∧ db.row k = some l) := by
    intro k l found
    by_cases same : k = key
    · subst same
      rw [Table.row_put_self] at found
      exact .inl ⟨rfl, (Option.some.inj found).symm⟩
    · rw [Table.row_put_of_ne _ _ same] at found
      exact .inr ⟨same, found⟩
  refine ⟨fun k l found => ?_, fun k l found => ?_, fun k k' l l' plan first second binds binds' => ?_⟩
  · obtain ⟨rfl, rfl⟩ | ⟨-, old⟩ := split found
    · exact ⟨own, some_⟩
    · exact sound.logs k l old
  · obtain ⟨rfl, rfl⟩ | ⟨-, old⟩ := split found
    · exact distinct
    · exact sound.distinct k l old
  · -- the rewritten task binds a plan that it had before or that no other task has
    have against : ∀ {j : TaskKey} {m : TaskLog}, db.row j = some m → m.binds plan = true →
        log.binds plan = true → j = key := by
      intro j m found has own
      rcases bound plan own with ⟨old, there, had⟩ | free
      · exact sound.apart j key m old plan found there has had
      · exact not_boundElsewhere free found has
    obtain ⟨rfl, rfl⟩ | ⟨-, old⟩ := split first
    · obtain ⟨rfl, rfl⟩ | ⟨-, old'⟩ := split second
      · rfl
      · exact (against old' binds' binds).symm
    · obtain ⟨rfl, rfl⟩ | ⟨-, old'⟩ := split second
      · exact against old binds binds'
      · exact sound.apart k k' l l' plan old old' binds binds'

theorem Member.map_planId {members : List Member} {selected : List Selection}
    (same : members.map Member.selection = selected) :
    members.map Member.planId = selected.map (·.planId) := by
  rw [← same, List.map_map]
  rfl

theorem operation_ok {body : Op View} {v : View} (done : operation W body db = (.ok v, db')) :
    body db = (.ok v, db') := by
  simp only [operation, Tx.savepoint_ok, Tx.bind_ok, Tx.refuse_ok, Tx.pure_ok] at done
  obtain ⟨_, _, ⟨-, rfl⟩, _, _, inner, _, _, ⟨-, rfl⟩, rfl, rfl⟩ := done
  exact inner

/-- One event on a task: a decision, or a pause or a cancellation. -/
theorem Sound.event (sound : Sound C db) {now : Current} {kind : Kind} (evidence : Evidence) {at_ : Time}
    (found : db.row key = some now.log) (inside : now.row ∈ now.log.versions) (events : now.events = now.log.events)
    (open_ : ∀ e ∈ now.log.events, e.kind ≠ .cancelled) (room : now.events.length < maxEvents)
    (late : ∀ last, now.events.getLast? = some last → last.recordedAt ≤ at_)
    {rows : List Allocation} (held : TaskLog.Sound C key { now.log with allocations := now.log.allocations ++ rows })
    (first : kind = .approved → ∀ e ∈ now.log.events, e.version = now.row.version →
      ¬ (e.kind = .approved ∨ e.kind = .revoked ∨ e.kind = .paused))
    (allocated : kind = .approved → ∀ m ∈ now.row.body.members,
      m.planId ∈ (now.log.allocations ++ rows).map Allocation.planId) :
    Moved C db
      (db.put key
        { now.log with
          allocations := now.log.allocations ++ rows
          events := now.log.events ++ [newEvent now.row now.events kind evidence at_] })
      key
      { now.log with
        allocations := now.log.allocations ++ rows
        events := now.log.events ++ [newEvent now.row now.events kind evidence at_] } := by
  have before := (sound.logs key now.log found).1
  refine ⟨rfl, ?_, (sound.logs key now.log found).2, sound.distinct key now.log found, fun old there => ?_,
    fun plan binds => .inl ⟨now.log, found, binds⟩⟩
  · refine held.addEvent ?_ ?_ ⟨rfl, rfl, rfl⟩ ?_ ?_ open_ ?_ ?_
    · rw [newEvent, events]
    · rwa [events] at room
    · exact before.versions.le inside
    · rwa [events] at late
    · rintro e member ⟨approves, same, blocked⟩
      exact first approves e member same blocked
    · intro approves v member same m chosen
      obtain rfl := before.versions.inj member inside same
      exact allocated approves m chosen
  · rw [found] at there
    obtain rfl := Option.some.inj there
    exact List.prefix_append _ _

theorem transitionBody_moved {contextId : Int} {p : Transition} {v : View} (sound : Sound C db)
    (done : transitionBody C W contextId p db = (.ok v, db')) :
    ∃ log, Moved C db db' ⟨contextId, p.task.number⟩ log := by
  simp only [transitionBody, Tx.bind_ok, Tx.get_ok, Tx.lift_ok, Tx.refuse_ok] at done
  obtain ⟨_, _, ⟨rfl, rfl⟩, now, _, ⟨read, rfl⟩, _, _, ⟨-, rfl⟩, evs, _, appended, viewed⟩ := done
  obtain rfl := view_ok viewed
  obtain ⟨found, inside, -, events, open_⟩ := current_ok (fun log found => (sound.logs _ log found).1) read
  obtain ⟨at_, room, late, rfl⟩ := append_ok appended
  rw [Table.modify_of_row _ _ found]
  have held := (sound.logs _ now.log found).1
  have other : (if p.action = .pause then Kind.paused else .cancelled) ≠ .approved := by split <;> decide
  have moved := sound.event p.evidence found inside events open_ room late (by rwa [List.append_nil])
    (fun approves => absurd approves other) (fun approves => absurd approves other)
  rw [List.append_nil] at moved
  exact ⟨_, moved⟩

theorem decideBody_moved {contextId : Int} {p : Decision} {v : View} (sound : Sound C db)
    (done : decideBody C W contextId p db = (.ok v, db')) :
    ∃ log, Moved C db db' ⟨contextId, p.task.number⟩ log := by
  simp only [decideBody, Tx.bind_ok, Tx.get_ok, Tx.lift_ok] at done
  obtain ⟨_, _, ⟨rfl, rfl⟩, now, _, ⟨read, rfl⟩, _, middle, checked, evs, _, appended, viewed⟩ := done
  obtain rfl := view_ok viewed
  obtain ⟨found, inside, newest, events, open_⟩ := current_ok (fun log found => (sound.logs _ log found).1) read
  obtain ⟨at_, room, late, rfl⟩ := append_ok appended
  have held := (sound.logs _ now.log found).1
  cases approves : p.approved with
  | true =>
      rw [approves] at checked
      simp only [decideChecks, if_true, Tx.bind_ok, Tx.refuse_ok, Tx.lift_ok] at checked
      obtain ⟨_, _, ⟨fresh, rfl⟩, _, _, ⟨-, rfl⟩, allocated⟩ := checked
      obtain ⟨rows, sound', all, rfl⟩ := allocate_ok held found inside newest
        (sound.distinct _ now.log found now.row inside) allocated
      rw [Table.modify_put]
      refine ⟨_, sound.event p.evidence found inside events open_ room late sound' (fun _ e member same blocked => ?_)
        (fun _ => all)⟩
      refine fresh (List.any_eq_true.2 ⟨e, ?_, by simpa using blocked⟩)
      exact List.mem_filter.2 ⟨events ▸ member, by simpa using same⟩
  | false =>
      rw [approves] at checked
      simp only [decideChecks, Bool.false_eq_true, if_false, Tx.refuse_ok] at checked
      obtain ⟨-, rfl⟩ := checked
      rw [Table.modify_of_row _ _ found]
      have other : Kind.revoked ≠ .approved := by decide
      have moved := sound.event p.evidence found inside events open_ room late (by rwa [List.append_nil])
        (fun approves => absurd approves other) (fun approves => absurd approves other)
      rw [List.append_nil] at moved
      exact ⟨_, moved⟩

/-! ## New versions -/

theorem previousOf_ok {p : CreateVersion} {previous : Option Current} (sound : Sound C db)
    (done : previousOf C db key p = .ok previous) :
    (previous = none ∧ db.row key = none) ∨
      ∃ now, previous = some now ∧ db.row key = some now.log ∧ now.row.version = now.log.versions.length ∧
        now.events = now.log.events ∧ (∀ e ∈ now.log.events, e.kind ≠ .cancelled) ∧
        now.log.targetId = p.proposal.targetId := by
  unfold previousOf at done
  split at done
  · rename_i absent
    simp only [bind_ok, refuse_ok] at done
    obtain ⟨_, -, _, -, same⟩ := done
    exact .inl ⟨(Except.ok.inj same).symm, absent⟩
  · rename_i log there
    split at done
    · cases done
    · rename_i reference given
      simp only [bind_ok, refuse_ok] at done
      obtain ⟨_, matching, now, read, _, -, same⟩ := done
      rw [not_or, not_not, not_not] at matching
      have address : (⟨key.contextId, reference.number⟩ : TaskKey) = key := by rw [matching.1]
      obtain ⟨found, -, newest, events, open_⟩ := current_ok (fun log found => (sound.logs _ log found).1) read
      rw [address] at found
      obtain rfl : log = now.log := Option.some.inj (there.symm.trans found)
      exact .inr ⟨now, (Except.ok.inj same).symm, found, newest, events, open_, matching.2⟩

theorem length_le_eraseDups {held : List Int} (distinct : held.Nodup) (plans : List Int) :
    held.length ≤ (held ++ plans).eraseDups.length := by
  have sub : held ⊆ (held ++ plans).eraseDups := fun x inside =>
    List.mem_eraseDups.2 (List.mem_append_left _ inside)
  exact (List.subperm_of_subset distinct sub).length_le

/-- What a new version starts from: an empty task, or the current state of one. -/
theorem createBody_start {p : CreateVersion} {previous : Option Current} (now : Time) (sound : Sound C db)
    (done : previousOf C db key p = .ok previous) :
    let log := (previous.map (·.log)).getD ⟨p.proposal.targetId, now, [], [], []⟩
    log.Sound C key ∧ (previous.map (·.events)).getD [] = log.events ∧
      (previous.map (·.row.version)).getD 0 = log.versions.length ∧ log.targetId = p.proposal.targetId ∧
      (∀ e ∈ log.events, e.kind ≠ .cancelled) ∧
      (if previous.isNone then db.put key log else db) = db.put key log ∧
      (∀ v ∈ log.versions, (v.body.members.map Member.planId).Nodup) ∧
      (∀ old, db.row key = some old → old = log) ∧
      ∀ plan, log.binds plan = true → ∃ old, db.row key = some old ∧ old.binds plan = true := by
  rcases previousOf_ok sound done with ⟨rfl, absent⟩ | ⟨current, rfl, found, newest, events, open_, target⟩
  · exact ⟨.start _ _, rfl, rfl, rfl, fun _ member => (nomatch member), rfl, fun _ member => (nomatch member),
      fun old there => (nomatch absent.symm.trans there), fun _ binds => (nomatch binds)⟩
  · refine ⟨(sound.logs key _ found).1, events, newest, target, open_, ?_, sound.distinct key _ found,
      fun old there => Option.some.inj (there.symm.trans found), fun plan binds => ⟨_, found, binds⟩⟩
    exact (Table.put_self_of_row db found).symm

theorem createBody_moved {p : CreateVersion} {v : View} (sound : Sound C db) (valid : p.valid = true)
    (done : createBody C W key p db = (.ok v, db')) : ∃ log, Moved C db db' key log := by
  simp only [createBody, Tx.bind_ok, Tx.get_ok, Tx.lift_ok, Tx.refuse_ok, Tx.modify_ok] at done
  obtain ⟨_, _, ⟨-, rfl⟩, _, _, ⟨rfl, rfl⟩, previous, _, ⟨continued, rfl⟩, taken, _, ⟨arranged, rfl⟩, now, _,
    ⟨-, rfl⟩, _, _, ⟨late, rfl⟩, _, _, rfl, held, _, ⟨read, rfl⟩, _, _, ⟨within, rfl⟩, _, _, ⟨-, rfl⟩, _, _, rfl,
    evs, _, appended, viewed⟩ := done
  obtain rfl := view_ok viewed
  obtain ⟨at_, room, later, rfl⟩ := append_ok appended
  obtain ⟨arranged, distinct⟩ := snapshot_ok arranged
  obtain ⟨start, events, number, target, open_, put, before, same, had⟩ :=
    createBody_start now sound continued
  generalize (previous.map (·.log)).getD ⟨p.proposal.targetId, now, [], [], []⟩ = log at *
  obtain rfl := start.readAllocations_ok read
  have plans := Member.map_planId arranged.selections
  have bounded : p.proposal.limits.targetRequests ≤ maxRequests := by
    simp only [CreateVersion.valid, Bool.and_eq_true, decide_eq_true_eq] at valid
    exact valid.1.1.1.1.1.2
  rw [events] at room later
  rw [put, Table.modify_put, Table.modify_put, events]
  refine ⟨_, rfl, ?_, by simp, ?_, fun old there => by rw [same old there], fun plan binds => ?_⟩
  · have one := start.addVersion (v := (newCore key p previous taken now).versionRow C)
      (by rw [Core.versionRow, newCore, number])
      (by simp [Version.intact, Core.versionRow, newCore, target]) rfl arranged.numbered arranged.earlier bounded
      (by
        have most := length_le_eraseDups start.plans (taken.members.map Member.planId)
        rw [List.length_map] at most
        exact Nat.le_trans most (Nat.not_lt.1 within))
    refine one.addEvent rfl room ⟨rfl, rfl, rfl⟩ ?_ later open_ ?_ ?_
    · simp [newEvent, Core.versionRow, newCore, number]
    · rintro e - ⟨approves, -⟩
      cases approves
    · exact fun approves => by cases approves
  · intro w member
    rcases List.mem_append.1 member with old | new
    · exact before w old
    · rw [List.mem_singleton.1 new]
      show (taken.members.map Member.planId).Nodup
      rw [plans]
      exact distinct
  · unfold TaskLog.binds at binds
    rw [List.any_append, Bool.or_eq_true] at binds
    rcases binds with old | new
    · exact .inl (had plan old)
    · refine .inr ?_
      simp only [List.any_cons, List.any_nil, Bool.or_false, Core.versionRow, newCore, List.any_map,
        List.any_eq_true, Function.comp_apply, decide_eq_true_eq] at new
      obtain ⟨m, member, chosen⟩ := new
      rw [← chosen]
      exact arranged.free m member

/-! ## All calls -/

variable {call : Call}

theorem run_moved {v : View} (sound : Sound C db) (done : run C W call db = (.ok v, db')) :
    ∃ key log, Moved C db db' key log := by
  cases call with
  | createVersion key p =>
      simp only [run] at done
      split at done
      · rename_i valid
        exact ⟨key, createBody_moved sound valid (operation_ok done)⟩
      · rw [Tx.raise_ok] at done
        exact done.elim
  | decideBudget contextId p =>
      simp only [run] at done
      split at done
      · exact ⟨_, decideBody_moved sound (operation_ok done)⟩
      · rw [Tx.raise_ok] at done
        exact done.elim
  | transition contextId p =>
      simp only [run] at done
      split at done
      · exact ⟨_, transitionBody_moved sound (operation_ok done)⟩
      · rw [Tx.raise_ok] at done
        exact done.elim

theorem run_rejects (C : Codec) (W : World) (call : Call) : Tx.Rejects (run C W call) := by
  cases call with
  | createVersion key p =>
      simp only [run]
      split
      · exact Tx.rejects_savepoint _
      · exact Tx.rejects_raise _
  | decideBudget contextId p =>
      simp only [run]
      split
      · exact Tx.rejects_savepoint _
      · exact Tx.rejects_raise _
  | transition contextId p =>
      simp only [run]
      split
      · exact Tx.rejects_savepoint _
      · exact Tx.rejects_raise _

/-- Every task is still there, with the plans it held. -/
def Holds (db db' : Ledger) : Prop :=
  ∀ key log, db.row key = some log → ∃ log', db'.row key = some log' ∧ log.allocations <+: log'.allocations

theorem Moved.holds (moved : Moved C db db' key log) : Holds db db' := by
  obtain ⟨rfl, -, -, -, grown, -⟩ := moved
  intro k old found
  by_cases same : k = key
  · subst same
    exact ⟨log, Table.row_put_self _ _ _, grown old found⟩
  · exact ⟨old, by rw [Table.row_put_of_ne _ _ same, found], List.prefix_refl _⟩

/-- **One call.** -/
theorem Sound.step (sound : Sound C db) (step : (tasks C).step db (call, W) db') : Sound C db' ∧ Holds db db' := by
  have same : (run C W call db).2 = db' := step
  match result : run C W call db with
  | (.ok v, after) =>
      rw [result] at same
      obtain rfl : after = db' := same
      obtain ⟨key, log, moved⟩ := run_moved sound result
      exact ⟨sound.moved moved, moved.holds⟩
  | (.error e, after) =>
      rw [result] at same
      obtain rfl : after = db' := same
      obtain rfl := run_rejects C W call db e _ result
      exact ⟨sound, fun key log found => ⟨log, found, List.prefix_refl _⟩⟩

theorem Sound.run {trace : List (Call × World)} (sound : Sound C db) (run : (tasks C).Run db trace db') :
    Sound C db' ∧ Holds db db' := by
  induction run with
  | refl => exact ⟨sound, fun key log found => ⟨log, found, List.prefix_refl _⟩⟩
  | snoc _ last ih =>
      obtain ⟨before, held⟩ := ih
      obtain ⟨after, kept⟩ := before.step last
      refine ⟨after, fun key log found => ?_⟩
      obtain ⟨middle, there, grown⟩ := held key log found
      obtain ⟨log', there', grown'⟩ := kept key middle there
      exact ⟨log', there', grown.trans grown'⟩

theorem start_sound {db₀ : Ledger} (start : (tasks C).init db₀) : Sound C db₀ := by
  obtain rfl : db₀ = .empty := start
  exact ⟨fun _ _ found => (nomatch found), fun _ _ found => (nomatch found), fun _ _ _ _ _ found => (nomatch found)⟩

theorem TaskLog.Sound.approved_once (sound : log.Sound C key) (version : Nat) :
    (log.events.filter fun e => e.version = version ∧ e.kind = .approved).length ≤ 1 := by
  have apart := sound.approvals.filter fun e => decide (e.version = version ∧ e.kind = .approved)
  have all : ∀ e ∈ log.events.filter fun e => e.version = version ∧ e.kind = .approved,
      e.version = version ∧ e.kind = .approved := fun e member => of_decide_eq_true (List.mem_filter.1 member).2
  generalize (log.events.filter fun e => e.version = version ∧ e.kind = .approved) = approvals at apart all ⊢
  match approvals with
  | [] => exact Nat.zero_le _
  | [_] => exact Nat.le_refl _
  | a :: b :: rest =>
      obtain ⟨first, isA⟩ := all a List.mem_cons_self
      obtain ⟨second, isB⟩ := all b (List.mem_cons_of_mem _ List.mem_cons_self)
      exact absurd ⟨isB, first.trans second.symm, .inl isA⟩ ((List.pairwise_cons.1 apart).1 b List.mem_cons_self)

theorem TaskLog.Sound.latest_some (sound : log.Sound C key) (some_ : log.versions ≠ []) :
    ∃ v, latest log = some v ∧ log.allocations.length ≤ v.body.limits.targetRequests := by
  have inside : log.versions.length ∈ List.range' 1 log.versions.length := by
    have positive := List.length_pos_iff.2 some_
    rw [List.mem_range'_1]
    omega
  rw [← sound.versions] at inside
  obtain ⟨v, member, last⟩ := List.mem_map.1 inside
  have found : (latest log).isSome = true := by
    refine List.find?_isSome.2 ⟨v, member, List.all_eq_true.2 fun w there => ?_⟩
    have le := sound.versions.le there
    simp [last, le]
  obtain ⟨w, newest⟩ := Option.isSome_iff_exists.1 found
  obtain ⟨there, number⟩ := sound.latest_eq newest
  exact ⟨w, newest, sound.within w there number⟩

/-- **The task ledger never over-promises.**  In every state that calls lead to, each task has
events numbered from one with times in order, at most one approval of a version and none
after a revocation or a pause of it, and nothing after a cancellation; it holds distinct
plans in slots numbered from one, no more than its latest version allows, and all members of
every approved version; members depend on members before them; no plan is a member of two
tasks; later calls only add held plans; and a call that raises changes nothing. -/
theorem task_ledger {db₀ db : Ledger} {trace : List (Call × World)} (start : (tasks C).init db₀)
    (run : (tasks C).Run db₀ trace db) :
    (∀ key log, db.row key = some log →
      log.events.map Event.sequence = List.range' 1 log.events.length ∧
      (log.events.Pairwise fun a b => a.recordedAt ≤ b.recordedAt) ∧
      (∀ version, (log.events.filter fun e => e.version = version ∧ e.kind = .approved).length ≤ 1) ∧
      (log.events.Pairwise fun a b => ¬ (b.kind = .approved ∧ a.version = b.version ∧
        (a.kind = .revoked ∨ a.kind = .paused))) ∧
      (log.events.Pairwise fun a _ => a.kind ≠ .cancelled) ∧
      log.allocations.map Allocation.slot = List.range' 1 log.allocations.length ∧
      (log.allocations.map Allocation.planId).Nodup ∧
      (∃ v, latest log = some v ∧ log.allocations.length ≤ v.body.limits.targetRequests) ∧
      (∀ e ∈ log.events, e.kind = .approved → ∀ v ∈ log.versions, v.version = e.version →
        ∀ m ∈ v.members, m.planId ∈ log.allocations.map Allocation.planId) ∧
      (∀ v ∈ log.versions, ∀ m ∈ v.body.members, ∀ plan ∈ m.dependsOn,
        ∃ m' ∈ v.body.members, m'.planId = plan ∧ m'.ordinal < m.ordinal)) ∧
    (∀ k k' log log' plan, db.row k = some log → db.row k' = some log' → log.binds plan = true →
      log'.binds plan = true → k = k') ∧
    (∀ later db', (tasks C).Run db later db' → Holds db db') ∧
    (∀ call W e, (TaskLedger.run C W call db).1 = .error e → (TaskLedger.run C W call db).2 = db) := by
  obtain ⟨sound, -⟩ := (start_sound start).run run
  refine ⟨fun key log found => ?_, sound.apart, fun later db' rest => (sound.run rest).2, fun call W e raised => ?_⟩
  · obtain ⟨own, some_⟩ := sound.logs key log found
    refine ⟨own.events, own.times, own.approved_once, own.approvals.imp ?_, own.closed, own.slots, own.plans,
      own.latest_some some_, fun e member approved v inside same m row => ?_, own.depends⟩
    · rintro a b free ⟨approved, same, blocked⟩
      exact free ⟨approved, same, .inr blocked⟩
    · rw [(own.intact v inside).2.1] at row
      obtain ⟨chosen, there, rfl⟩ := List.mem_map.1 row
      exact own.held e member approved v inside same chosen there
  · exact run_rejects C W call db e _ (Prod.ext raised rfl)

/-! ## A baseline and a probe -/

def pairCodec : Codec := ⟨fun _ => List.replicate 64 'a', fun _ => 2048⟩

def pairIntent : Reference := ⟨1, 1, List.replicate 64 'b'⟩

def pairWorld : World where
  locked := true
  base := some ⟨3, List.replicate 64 'c', 60, ⟨some 2, some 60, some 1, some 500⟩⟩
  intent _ := some
    { id := 5, contextVersion := 1, targetId := 7, authorizationRevisionId := 3, purpose := .business
      link := [⟨.baseline, 21, "d1".toList, 31⟩, ⟨.probe, 22, "d2".toList, 32⟩]
      health := [], manifest := ⟨1, 1, List.replicate 64 'd'⟩, manifestId := 9, endsAt := 60 }
  plan id := some ⟨"v1".toList, if id = 21 then "d1".toList else "d2".toList, 7, 3, 1⟩
  planCancelled _ := false
  witness _ := none
  recordedAt := some 10
  allocatedAt _ := some 10
  appendedAt := some 10
  finished := true
  encoded := true
  guarded := true

/-- A version with both plans, and its approval. -/
def pairCalls : List (Call × World) :=
  [(.createVersion ⟨1, 1⟩ ⟨none, 0, ⟨1, 7, 3, ⟨2, 60, 500, 1⟩,
      [⟨pairIntent, 21, "d1".toList, .baseline⟩, ⟨pairIntent, 22, "d2".toList, .probe⟩]⟩, ⟨"ref".toList, 1⟩⟩, pairWorld),
    (.decideBudget 1 ⟨⟨1, 1, List.replicate 64 'a'⟩, 1, true, ⟨"ref".toList, 1⟩⟩, pairWorld)]

def pairLedger : Ledger := pairCalls.foldl (fun db call => (run pairCodec call.2 call.1 db).2) .empty

/-- The approval holds both plans; the ledger keeps to the bounds with them held. -/
theorem task_ledger_pair :
    (pairLedger.row ⟨1, 1⟩).map (fun log => (log.events.map Event.kind, log.allocations.map Allocation.planId)) =
      some ([.versionCreated, .approved], [21, 22]) ∧
    ∀ log, pairLedger.row ⟨1, 1⟩ = some log → ∃ v, latest log = some v ∧
      log.allocations.length ≤ v.body.limits.targetRequests := by
  refine ⟨by decide +kernel, fun log found => ?_⟩
  have reached : (tasks pairCodec).Run .empty pairCalls pairLedger := .cons rfl (.single rfl)
  obtain ⟨-, -, -, -, -, -, -, newest, -⟩ := (task_ledger rfl reached).1 ⟨1, 1⟩ log found
  exact newest

end ApiSecurityPlatform.Research.TaskLedger
