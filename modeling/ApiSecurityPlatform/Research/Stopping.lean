/-
# Research.Stopping -- when a stop still fits

The decision logs have hard caps.  A stop (a disable of a knowledge version, a revocation of a
budget or of an exact approval, a cancellation of a task) is an entry like any other, and
succeeds while its log has room: nothing else that a full log could have used up stands in
its way, and a full log takes none (`decide_full`, `transition_full`, `full_logs_stay_open`).  The
catalog of a context and its pending feedback stay within what a disable
reads (`Bounded`), and the knowledge log keeps room for a disable as long as the version was
withdrawn at most once.
-/
import ApiSecurityPlatform.Research.Decisions
import ApiSecurityPlatform.Research.Lineage
import ApiSecurityPlatform.Research.TaskHistory

set_option autoImplicit false

/-! ## Tasks -/

namespace ApiSecurityPlatform.Research.TaskLedger

open ApiSecurityPlatform.Python ApiSecurityPlatform.Theory

variable {C : Codec} {W : World} {key : TaskKey} {log : TaskLog} {db db' : Ledger} {v : Version}

theorem TaskLog.Sound.exactVersion_eq (sound : log.Sound C key) (inside : v ∈ log.versions) :
    exactVersion C key log ⟨key.number, v.version, v.digest⟩ = .ok v := by
  obtain ⟨intact, members, ordinals⟩ := sound.intact v inside
  have found : log.versions.find? (fun w => w.version = v.version ∧ w.digest = v.digest) = some v := by
    obtain ⟨w, there⟩ := Option.isSome_iff_exists.1 (List.find?_isSome.2 ⟨v, inside, by simp⟩ :
      (log.versions.find? fun w => w.version = v.version ∧ w.digest = v.digest).isSome = true)
    have same := List.find?_some there
    simp only [decide_eq_true_eq] at same
    rw [there, sound.versions.inj (List.mem_of_find?_eq_some there) inside same.1]
  have sorted : (v.members.insertionSort fun a b => a.ordinal ≤ b.ordinal) = v.body.members.map Member.row := by
    have numbered : Numbered MemberRow.ordinal (v.body.members.map Member.row) := by
      unfold Numbered at ordinals ⊢
      rw [List.map_map, List.length_map]
      exact ordinals
    rw [members]
    exact numbered.insertionSort
  unfold exactVersion
  simp only [bind_ok, refuse_ok, require_ok, not_not]
  exact ⟨v, found, (), trivial, (), intact, (), sorted, rfl⟩

theorem current_of (sound : log.Sound C key) (found : db.row key = some log) (newest : latest log = some v)
    (open_ : ∀ e ∈ log.events, e.kind ≠ .cancelled) :
    current C db key.contextId ⟨key.number, v.version, v.digest⟩ log.events.length = .ok ⟨log, v, log.events⟩ := by
  unfold current
  simp only [bind_ok, refuse_ok, require_ok]
  refine ⟨log, found, v, sound.exactVersion_eq (sound.latest_eq newest).1, log.events, sound.readEvents_eq, (), ?_, (), ?_,
    rfl⟩
  · rw [newest]
    simp
  · intro cancelled
    obtain ⟨e, member, is_⟩ := List.any_eq_true.1 cancelled
    exact open_ e member (by simpa using is_)

theorem view_of (row : Version) (events : List Event) (found : db.row key = some log)
    (few : log.allocations.length ≤ maxRequests) (encoded : W.encoded = true) :
    ∃ view_, view W key row events db = (.ok view_, db) := by
  have read : ∃ held, readAllocations log = .ok held := by
    unfold readAllocations
    refine ⟨_, bind_ok.2 ⟨(), refuse_ok.2 ?_, rfl⟩⟩
    rw [Nat.not_lt, List.length_take, List.length_insertionSort]
    omega
  obtain ⟨held, read⟩ := read
  refine ⟨⟨⟨key.number, row.version, row.digest⟩, (latest log).map (·.version), events.length,
    viewState log row events, held.length, row.body.members.length⟩, ?_⟩
  unfold view
  simp only [Tx.get_bind_ok, Tx.lift_bind_ok, Tx.refuse_bind_ok, require_ok, Tx.pure_ok, and_true]
  exact ⟨log, found, held, read, not_not.2 encoded, rfl⟩

/-- The answers of the other domains under which a transition can succeed. -/
structure World.Ready (W : World) (now : Time) : Prop where
  locked : W.locked = true
  time : W.appendedAt = some now
  encoded : W.encoded = true
  guarded : W.guarded = true

theorem operation_of {body : Op View} {view_ : View} (locked : W.locked = true) (guarded : W.guarded = true)
    (done : body db = (.ok view_, db')) : operation W body db = (.ok view_, db') := by
  unfold operation
  rw [Tx.savepoint_ok, Tx.refuse_bind_ok, not_not]
  refine ⟨locked, Tx.bind_ok.2 ⟨view_, db', Tx.savepoint_ok.2 done, Tx.refuse_bind_ok.2 ⟨not_not.2 guarded, ?_⟩⟩⟩
  exact Tx.pure_ok.2 ⟨rfl, rfl⟩

theorem append_of {version : Version} {events : List Event} {kind : Kind} {evidence : Evidence} {now : Time}
    (room : events.length < maxEvents) (fresh : version.recordedAt ≤ now) (late : ∀ e ∈ events, e.recordedAt ≤ now) :
    append key version events kind evidence (some now) db =
      (.ok (events ++ [newEvent version events kind evidence now]), db.modify key fun log =>
        { log with events := log.events ++ [newEvent version events kind evidence now] }) := by
  unfold append
  rw [Tx.refuse_bind_ok, Nat.not_le]
  refine ⟨room, Tx.lift_bind_ok.2 ⟨now, rfl, Tx.refuse_bind_ok.2 ⟨?_, Tx.modify_bind_ok.2 ?_⟩⟩⟩
  · rintro (early | early)
    · exact absurd fresh (Int.not_le.2 early)
    · obtain ⟨last, found, before⟩ := (Option.any_eq_true _ _).1 early
      exact absurd (late last (List.mem_of_getLast? found)) (by simpa using before)
  · exact Tx.pure_ok.2 ⟨rfl, rfl⟩

/-- **A cancellation succeeds while the log has room.** -/
theorem transition_cancels {db₀ : Ledger} {trace : List (Call × World)} (start : (tasks C).init db₀)
    (reached : (tasks C).Run db₀ trace db) {now : Time} (ready : W.Ready now) (found : db.row key = some log)
    (open_ : ∀ e ∈ log.events, e.kind ≠ .cancelled) (newest : latest log = some v)
    (room : log.events.length < maxEvents) (fresh : v.recordedAt ≤ now) (late : ∀ e ∈ log.events, e.recordedAt ≤ now)
    (evidence : Evidence) :
    ∃ view_ db', run C W (.transition key.contextId
        ⟨⟨key.number, v.version, v.digest⟩, log.events.length, .cancel, evidence⟩) db = (.ok view_, db') ∧
      ∃ log', db'.row key = some log' ∧ ∃ e ∈ log'.events, e.kind = .cancelled := by
  obtain ⟨sound, -⟩ := (start_sound start).run reached
  obtain ⟨own, some_⟩ := sound.logs key log found
  let event := newEvent v log.events .cancelled evidence now
  let after := db.modify key fun log => { log with events := log.events ++ [event] }
  have there : after.row key = some { log with events := log.events ++ [event] } := by
    simp [after, Table.row_modify, found]
  obtain ⟨view_, viewed⟩ := view_of v (log.events ++ [event]) there (own.few_allocations some_) ready.encoded
  refine ⟨view_, after, ?_, _, there, event, List.mem_append_right _ (List.mem_singleton_self _), rfl⟩
  have valid : log.events.length ≤ maxEvents := Nat.le_of_lt room
  simp only [run, valid, if_true]
  refine operation_of ready.locked ready.guarded ?_
  unfold transitionBody
  rw [Tx.get_bind_ok, Tx.lift_bind_ok]
  refine ⟨⟨log, v, log.events⟩, current_of own found newest open_, Tx.refuse_bind_ok.2 ⟨by simp, ?_⟩⟩
  rw [ready.time]
  exact Tx.bind_ok.2 ⟨_, after, append_of room fresh late, viewed⟩

/-- A full log takes no transition. -/
theorem transition_full (sound : Sound C db) (found : db.row key = some log) (full : maxEvents ≤ log.events.length)
    (W : World) {p : Transition} (here : p.task.number = key.number) :
    ∃ e, (run C W (.transition key.contextId p) db).1 = .error e := by
  refine Tx.raises_of_not_ok fun view_ db' done => ?_
  rw [run] at done
  split at done
  · have ran := operation_ok done
    simp only [transitionBody, Tx.bind_ok, Tx.get_ok, Tx.lift_ok, Tx.refuse_ok] at ran
    obtain ⟨_, _, ⟨rfl, rfl⟩, now, _, ⟨read, rfl⟩, _, _, ⟨-, rfl⟩, evs, _, appended, -⟩ := ran
    obtain ⟨there, -, -, events, -⟩ := current_ok (fun log found => (sound.logs _ log found).1) read
    obtain ⟨at_, room, -⟩ := append_ok appended
    rw [here] at there
    obtain rfl := Option.some.inj (found.symm.trans there)
    rw [events] at room
    exact Nat.not_lt.2 full room
  · cases done

end ApiSecurityPlatform.Research.TaskLedger

/-! ## Knowledge -/

namespace ApiSecurityPlatform.Research.Knowledge

open ApiSecurityPlatform.Python ApiSecurityPlatform.Theory

variable {C : Codec} {W : World} {db db' : Store} {k : Key} {ctx : Int}

theorem length_rows (db : Store) (p : Key → Bool) : (db.rows p).length = db.versions.keys.countP p := by
  unfold Store.rows
  rw [List.countP_eq_length_filter]
  have each : ∀ j ∈ db.versions.keys.filter p, ((db.versions.row j).map (Row.mk j)).isSome = true := by
    intro j inside
    rw [Option.isSome_map]
    exact (db.versions.mem_keys j).1 (List.mem_filter.1 inside).1
  generalize db.versions.keys.filter p = keys at each
  induction keys with
  | nil => rfl
  | cons j rest ih =>
      obtain ⟨row, found⟩ := Option.isSome_iff_exists.1 (each j List.mem_cons_self)
      simp only [List.filterMap_cons, found, List.length_cons]
      rw [ih fun i member => each i (List.mem_cons_of_mem _ member)]

/-- What the capacities of the calls leave behind. -/
structure Bounded (db : Store) : Prop where
  own : ∀ ctx, (db.rows (·.contextId = ctx)).length ≤ maxVersions
  shared : (db.rows (·.scope = .reusableSynthetic)).length ≤ maxVersions
  feedback : ∀ ctx, ((db.rows (·.contextId = ctx)).map fun row => row.version.feedback.length).sum ≤ maxFeedback
  kept : ∀ k version, db.versions.row k = some version →
    (version.events.filter (·.action.opens)).length ≤ maxEvents - 2

/-- The rows after a rewrite that keeps the keys. -/
theorem Rewrites.rows {g : Key → Version → Version} (rewrites : Rewrites db db' g)
    (keys : db'.versions.keys = db.versions.keys) (p : Key → Bool) :
    db'.rows p = (db.rows p).map fun row => ⟨row.key, g row.key row.version⟩ := by
  unfold Store.rows
  rw [keys, List.map_filterMap]
  refine List.filterMap_congr fun j _ => ?_
  rw [rewrites j, Option.map_map, Option.map_map]
  rfl

/-- A rewrite that adds no feedback. -/
theorem Bounded.rewrites {g : Key → Version → Version} (bounded : Bounded db) (rewrites : Rewrites db db' g)
    (keys : db'.versions.keys = db.versions.keys)
    (feedback : ∀ k version, (g k version).feedback.length = version.feedback.length)
    (kept : ∀ k version, db.versions.row k = some version →
      ((g k version).events.filter (·.action.opens)).length ≤ maxEvents - 2) : Bounded db' where
  own ctx := by
    rw [rewrites.rows keys, List.length_map]
    exact bounded.own ctx
  shared := by
    rw [rewrites.rows keys, List.length_map]
    exact bounded.shared
  feedback ctx := by
    rw [rewrites.rows keys, List.map_map]
    refine Nat.le_trans (Nat.le_of_eq (congrArg List.sum (List.map_congr_left fun row _ => ?_))) (bounded.feedback ctx)
    exact feedback row.key row.version
  kept k version found := by
    obtain ⟨old, there, rfl⟩ := rewrites.row found
    exact kept k old there

theorem keys_modify (db : Store) (k : Key) (f : Version → Version) :
    (db.modify k f).versions.keys = db.versions.keys := by
  simp only [Store.modify, Table.modify]
  cases found : db.versions.row k with
  | none => rfl
  | some version => exact Table.keys_put_of_mem _ _ (Table.mem_of_row found)

theorem nodup_rows (db : Store) (p : Key → Bool) : ((db.rows p).map Row.key).Nodup := by
  refine List.Nodup.sublist ?_ db.versions.nodup
  refine List.Sublist.trans ?_ (List.filter_sublist (p := p))
  unfold Store.rows
  rw [List.map_filterMap]
  generalize db.versions.keys.filter p = keys
  induction keys with
  | nil => exact List.Sublist.slnil
  | cons j rest ih =>
      cases found : db.versions.row j with
      | none =>
          rw [List.filterMap_cons_none (by simp [found])]
          exact ih.cons _
      | some version =>
          rw [List.filterMap_cons_some (b := j) (by simp [found])]
          exact ih.cons_cons _

/-- One row of a list with distinct keys gets one more. -/
theorem sum_add_one_le {rows : List Row} (count : Version → Nat) (distinct : (rows.map Row.key).Nodup) (k : Key) :
    (rows.map fun row => if row.key = k then count row.version + 1 else count row.version).sum ≤
      (rows.map fun row => count row.version).sum + (if k ∈ rows.map Row.key then 1 else 0) := by
  induction rows with
  | nil => exact Nat.le_refl _
  | cons row rest ih =>
      obtain ⟨outside, later⟩ := List.nodup_cons.1 distinct
      have bound := ih later
      simp only [List.map_cons, List.sum_cons, List.mem_cons]
      by_cases here : row.key = k
      · subst here
        rw [if_neg outside] at bound
        simp only [if_true, true_or]
        omega
      · simp only [if_neg here, (Ne.symm here : k ≠ row.key), false_or]
        omega

theorem Bounded.appendEvent (bounded : Bounded db) {row : Row} (event : Event)
    (found : db.versions.row row.key = some row.version)
    (opens : event.action.opens = true → (readEvents row.version).length < maxEvents - 2) :
    Bounded (db.appendEvent row.key event) := by
  refine bounded.rewrites (rewrites_appendEvent rfl) (keys_modify _ _ _) (fun _ _ => by split <;> rfl) ?_
  intro k version there
  split
  · rename_i same
    subst same
    obtain rfl := Option.some.inj (found.symm.trans there)
    rw [List.filter_append, List.length_append]
    cases isOpen : event.action.opens with
    | true =>
        have few := opens isOpen
        rw [readEvents_length] at few
        have some_ := List.length_filter_le (fun e : Event => e.action.opens) row.version.events
        simp only [List.filter_cons, isOpen, if_true, List.filter_nil, List.length_singleton]
        simp only [maxEvents] at few ⊢
        omega
    | false =>
        simp only [List.filter_cons, isOpen, Bool.false_eq_true, if_false, List.filter_nil, List.length_nil]
        exact bounded.kept _ _ found
  · exact bounded.kept k version there

theorem Bounded.congr (bounded : Bounded db) (same : db'.versions = db.versions) : Bounded db' := by
  obtain ⟨versions, audits⟩ := db
  obtain ⟨versions', audits'⟩ := db'
  obtain rfl : versions' = versions := same
  exact ⟨bounded.own, bounded.shared, bounded.feedback, bounded.kept⟩

theorem decideBody_bounded (bounded : Bounded db) {p : DecisionInput} {answer : Decided}
    (done : decideBody C W ctx p db = (.ok answer, db')) : Bounded db' := by
  obtain ⟨row, event, read, room, action, opens, -, other, disables⟩ := decideBody_ok done
  obtain ⟨key, found, -⟩ := exactOwned_ok read
  have appended := bounded.appendEvent event found (by rwa [action])
  by_cases isDisable : p.action = .disable
  · obtain ⟨rows, -, same⟩ := disables isDisable
    refine (appended.rewrites (rewrites_invalidate rfl) rfl (fun k version => ?_) fun k version there => ?_).congr same
    · unfold invalidated
      split
      · exact List.length_map _
      · rfl
    · unfold invalidated
      split <;> exact appended.kept k version there
  · exact appended.congr (other isDisable)

/-- A new version is the last row. -/
theorem Recorded.rows {content : Content} {version : Version} (recorded : Recorded C db db' content version ctx)
    (p : Key → Bool) :
    db'.rows p = db.rows p ++ if p (content.key ctx) then [⟨content.key ctx, version⟩] else [] := by
  have outside : content.key ctx ∉ db.versions.keys := by
    rw [db.versions.mem_keys, recorded.absent]
    simp
  have keys : db'.versions.keys = db.versions.keys ++ [content.key ctx] := by
    rw [recorded.put]
    simp [Table.put, outside]
  unfold Store.rows
  rw [keys, List.filter_append, List.filterMap_append]
  congr 1
  · refine List.filterMap_congr fun j inside => ?_
    have other : j ≠ content.key ctx := by
      rintro rfl
      exact outside (List.mem_filter.1 inside).1
    rw [recorded.put, Table.row_put_of_ne _ _ other]
  · by_cases passes : p (content.key ctx) = true
    · simp [passes, recorded.put]
    · simp [passes]

theorem Recorded.bounded {content : Content} {version : Version} (recorded : Recorded C db db' content version ctx)
    (bounded : Bounded db) (own : (db.rows (·.contextId = ctx)).length < maxVersions)
    (shared : content.scope = .reusableSynthetic → (db.rows (·.scope = .reusableSynthetic)).length < maxVersions) :
    Bounded db' where
  own other := by
    rw [recorded.rows, List.length_append]
    by_cases here : ctx = other
    · subst here
      simpa [Content.key] using Nat.succ_le_of_lt own
    · simpa [Content.key, here] using bounded.own other
  shared := by
    rw [recorded.rows, List.length_append]
    by_cases isShared : content.scope = .reusableSynthetic
    · simpa [Content.key, isShared] using Nat.succ_le_of_lt (shared isShared)
    · simpa [Content.key, isShared] using bounded.shared
  feedback other := by
    rw [recorded.rows, List.map_append, List.sum_append]
    split
    · simpa [recorded.feedback] using bounded.feedback other
    · simpa using bounded.feedback other
  kept k new found := by
    rcases recorded.row found with ⟨-, rfl⟩ | found
    · rw [recorded.events]
      exact Nat.zero_le _
    · exact bounded.kept k new found

theorem submitBody_bounded (bounded : Bounded db) {p : FeedbackInput} {number : Nat}
    (done : submitBody C W ctx p db = (.ok number, db')) : Bounded db' := by
  obtain ⟨row, deadlines, feedback, read, -, -, room, same⟩ := submitBody_ok done
  obtain ⟨key, -, -⟩ := exactOwned_ok read
  have rewrites := rewrites_modify same
  have keys : db'.versions.keys = db.versions.keys := by rw [same, keys_modify]
  refine ⟨fun other => ?_, ?_, fun other => ?_, fun k version found => ?_⟩
  · rw [rewrites.rows keys, List.length_map]
    exact bounded.own other
  · rw [rewrites.rows keys, List.length_map]
    exact bounded.shared
  · have lengths : ((db'.rows (·.contextId = other)).map fun row => row.version.feedback.length) =
        (db.rows (·.contextId = other)).map fun each =>
          if each.key = row.key then each.version.feedback.length + 1 else each.version.feedback.length := by
      rw [rewrites.rows keys, List.map_map]
      refine List.map_congr_left fun each _ => ?_
      show (if each.key = row.key then _ else each.version : Version).feedback.length = _
      split
      · exact List.length_append
      · rfl
    have more := sum_add_one_le (fun version => version.feedback.length) (nodup_rows db (·.contextId = other)) row.key
    rw [lengths]
    by_cases here : ctx = other
    · subst here
      split at more <;> omega
    · have outside : row.key ∉ (db.rows (·.contextId = other)).map Row.key := by
        intro inside
        obtain ⟨each, member, same'⟩ := List.mem_map.1 inside
        have context := (mem_rows.1 member).1
        rw [same', key, decide_eq_true_eq] at context
        exact here context
      rw [if_neg outside] at more
      exact Nat.le_trans more (bounded.feedback other)
  · obtain ⟨old, there, rfl⟩ := rewrites.row found
    split <;> exact bounded.kept k old there

theorem run_bounded {call : Call} (bounded : Bounded db) {answer : Answer}
    (done : run C W call db = (.ok answer, db')) : Bounded db' := by
  cases call with
  | record ctx p =>
      obtain ⟨_, ran, -⟩ := map_ok_of (operation_ok done)
      obtain ⟨version, recorded, own, shared⟩ := recordBody_ok ran
      exact recorded.bounded bounded own shared
  | decide ctx p =>
      obtain ⟨_, ran, -⟩ := map_ok_of (operation_ok done)
      exact decideBody_bounded bounded ran
  | validateRule ctx p =>
      obtain ⟨_, ran, -⟩ := map_ok_of (operation_ok done)
      obtain ⟨row, _, evidence, -, -, same⟩ := validateBody_ok ran
      refine (bounded.rewrites (rewrites_modify rfl) (keys_modify _ _ _) (fun k version => ?_)
        fun k version there => ?_).congr same
      · split <;> rfl
      · split <;> exact bounded.kept k version there
  | submitFeedback ctx p =>
      obtain ⟨_, ran, -⟩ := map_ok_of (operation_ok done)
      exact submitBody_bounded bounded ran
  | reviewFeedback ctx p =>
      obtain ⟨_, ran, -⟩ := map_ok_of (operation_ok done)
      obtain ⟨k, number, review, middle, same, decided⟩ := reviewBody_ok ran
      have reviewed : Bounded (db.modify k (·.addReview number review)) := by
        refine bounded.rewrites (rewrites_modify rfl) (keys_modify _ _ _) (fun j version => ?_) fun j version there => ?_
        · split
          · exact List.length_map _
          · rfl
        · split <;> exact bounded.kept j version there
      rcases decided with rfl | ⟨_, _, -, called⟩
      · exact reviewed.congr same
      · exact (decideBody_bounded reviewed called).congr same
  | retrieve ctx q =>
      obtain ⟨_, ran, -⟩ := map_ok_of (operation_ok done)
      exact bounded.congr (retrieveBody_ok ran).1

theorem start_bounded {db₀ : Store} (start : (catalogs C).init db₀) : Bounded db₀ := by
  obtain rfl : db₀ = ⟨.empty, fun _ => 0⟩ := start
  exact ⟨fun _ => Nat.zero_le _, Nat.zero_le _, fun _ => Nat.zero_le _, fun _ _ found => (nomatch found)⟩

theorem Bounded.run {trace : List (Call × World)} (bounded : Bounded db) (run : (catalogs C).Run db trace db') :
    Bounded db' := by
  refine run.preserves (fun before call after held step => ?_) bounded
  have same : (Knowledge.run C call.2 call.1 before).2 = after := step
  match result : Knowledge.run C call.2 call.1 before with
  | (.ok answer, _) =>
      rw [result] at same
      subst same
      exact run_bounded held result
  | (.error fault, _) =>
      rw [result] at same
      subst same
      obtain rfl := run_rejects C call.2 call.1 before fault _ result
      exact held

/-! ### The disable of a version -/

/-- The catalog of a context fits into one scan. -/
theorem Bounded.scan_ok (bounded : Bounded db) (ctx : Int) : ∃ rows, scan db ctx = .ok rows := by
  unfold scan
  refine ⟨_, bind_ok.2 ⟨(), refuse_ok.2 ?_, rfl⟩⟩
  have own := bounded.own ctx
  have shared := bounded.shared
  rw [length_rows] at own shared
  have both : db.versions.keys.countP (visible ctx) ≤ db.versions.keys.countP (fun k => k.contextId = ctx) +
      db.versions.keys.countP (fun k => k.scope = .reusableSynthetic) := by
    unfold visible
    induction db.versions.keys with
    | nil => exact Nat.le_refl _
    | cons j rest ih =>
        simp only [List.countP_cons, Bool.or_eq_true]
        split <;> split <;> split <;> simp_all <;> omega
  rw [Nat.not_lt, List.length_take, length_rows]
  simp only [maxVersions, maxScan] at own shared ⊢
  omega

/-- The pending feedback of a context fits into one read. -/
theorem Bounded.length_pending (bounded : Bounded db) (ctx : Int) : (pendingFeedback db ctx).length ≤ maxFeedback := by
  unfold pendingFeedback
  rw [List.length_take, List.length_flatMap]
  refine Nat.le_trans (Nat.min_le_right _ _) (Nat.le_trans (List.sum_le_sum fun row _ => ?_) (bounded.feedback ctx))
  rw [List.length_map]
  exact List.length_filter_le _ _

/-- The answers of the other domains under which a disable can succeed. -/
structure World.Ready (W : World) : Prop where
  locked : W.locked = true
  time : ∀ moment, (W.time moment).isSome
  guarded : W.guarded = true

theorem operation_of {α : Type} {valid : Bool} {body : Op α} {a : α} (isValid : valid = true) (ready : W.Ready)
    (done : body db = (.ok a, db')) : operation W valid body db = (.ok a, db') := by
  unfold operation
  rw [Tx.savepoint_ok, Tx.refuse_bind_ok, Tx.refuse_bind_ok, not_not, not_not]
  refine ⟨isValid, ready.locked, Tx.bind_ok.2 ⟨a, db', Tx.savepoint_ok.2 done, Tx.refuse_bind_ok.2 ⟨?_, ?_⟩⟩⟩
  · exact not_not.2 ready.guarded
  · exact Tx.pure_ok.2 ⟨rfl, rfl⟩

theorem invalidatePending_of (C : Codec) (ctx : Int) (bounded : Bounded db) (ready : W.Ready) :
    ∃ some_, invalidatePending C W ctx db = (.ok (), db.invalidate W ctx some_) := by
  obtain ⟨rows, read⟩ := bounded.scan_ok ctx
  refine ⟨affected C rows, ?_⟩
  unfold invalidatePending
  rw [Tx.get_bind_ok, Tx.lift_bind_ok]
  refine ⟨rows, read, Tx.refuse_bind_ok.2 ⟨Nat.not_lt.2 (bounded.length_pending ctx), Tx.refuse_bind_ok.2 ⟨?_, ?_⟩⟩⟩
  · intro stuck
    obtain ⟨item, -, late⟩ := List.any_eq_true.1 stuck
    have some_ := ready.time (.invalidated item.1 item.2.number)
    rw [(of_decide_eq_true late).2] at some_
    nomatch some_
  · exact Tx.modify_ok.2 rfl

theorem audit_of (room : db.audits ctx < maxAudit) :
    ∃ db', audit ctx db = (.ok (), db') ∧ db'.versions = db.versions := by
  refine ⟨{ db with audits := Function.update db.audits ctx (db.audits ctx + 1) }, ?_, rfl⟩
  unfold audit
  rw [Tx.get_bind_ok, Tx.refuse_bind_ok]
  exact ⟨Nat.not_le.2 room, Tx.modify_ok.2 rfl⟩

theorem exactOwned_of {reference : ExactRef} {version : Version}
    (found : db.versions.row (reference.key ctx) = some version) (digest : version.digest = reference.digest) :
    exactOwned db ctx reference = .ok ⟨reference.key ctx, version⟩ := by
  unfold exactOwned
  simp only [bind_ok, refuse_ok, require_ok, not_not]
  exact ⟨version, found, (), digest, rfl⟩

/-- The decision that disables a version. -/
def disables (reference : ExactRef) (expected : Nat) (review : SyntheticReference) : DecisionInput :=
  ⟨reference, expected, .disable, review, none, none, none, none, none⟩

theorem decideBody_disables (C : Codec) (bounded : Bounded db) (ready : W.Ready) {reference : ExactRef}
    {version : Version} (found : db.versions.row (reference.key ctx) = some version)
    (digest : version.digest = reference.digest) (open_ : ∀ e ∈ version.events, e.action ≠ .disable)
    (room : version.events.length < maxEvents) (audits : db.audits ctx < maxAudit) (review : SyntheticReference) :
    ∃ answer db', decideBody C W ctx (disables reference version.events.length review) db = (.ok answer, db') ∧
      db'.Disabled (reference.key ctx) := by
  have length : (readEvents version).length = version.events.length := by
    rw [readEvents_length]
    omega
  obtain ⟨now, time_⟩ := Option.isSome_iff_exists.1 (ready.time .decided)
  let row : Row := ⟨reference.key ctx, version⟩
  let p := disables reference version.events.length review
  let event := newEvent row (readEvents version) p now
  have there : db.versions.row row.key = some row.version := found
  have appended := bounded.appendEvent event there (fun opens => (nomatch opens))
  obtain ⟨some_, invalidated⟩ := invalidatePending_of C ctx appended ready
  have full : ((db.appendEvent row.key event).invalidate W ctx some_).audits ctx < maxAudit := audits
  obtain ⟨last, audited, same⟩ := audit_of full
  refine ⟨⟨row.ref, event.sequence, event.action, false⟩, last, ?_, ?_⟩
  · unfold decideBody
    rw [Tx.get_bind_ok, Tx.lift_bind_ok]
    refine ⟨row, exactOwned_of found digest, Tx.refuse_bind_ok.2 ⟨fun closed => (nomatch closed.1),
      Tx.refuse_bind_ok.2 ⟨?_, Tx.refuse_bind_ok.2 ⟨?_, Tx.refuse_bind_ok.2 ⟨?_, Tx.lift_bind_ok.2 ⟨[], rfl,
      Tx.lift_bind_ok.2 ⟨[], rfl, Tx.lift_bind_ok.2 ⟨now, require_ok.2 time_, Tx.modify_bind_ok.2 ?_⟩⟩⟩⟩⟩⟩⟩⟩
    · rintro (wrong | full)
      · exact wrong length
      · exact absurd full (by rw [length]; omega)
    · intro shut
      obtain ⟨e, member, is_⟩ := List.any_eq_true.1 shut
      refine open_ e ?_ (of_decide_eq_true is_)
      exact (List.mem_insertionSort _).1 (List.mem_of_mem_take member)
    · rintro ⟨-, given | given⟩ <;> nomatch given
    · refine Tx.bind_ok.2 ⟨[], _, Tx.pure_ok.2 ⟨rfl, rfl⟩, Tx.bind_ok.2 ⟨(), _, Tx.when_ok.2 (.inl ⟨rfl, invalidated⟩),
        Tx.bind_ok.2 ⟨(), last, audited, Tx.bind_ok.2 ⟨(), last, Tx.when_ok.2 (.inr ⟨?_, rfl⟩), ?_⟩⟩⟩⟩
      · exact fun given => (nomatch given)
      · exact Tx.pure_ok.2 ⟨rfl, rfl⟩
  · refine (rewrites_invalidate same).disabled (keeps_invalidate W ctx some_) ?_
    have first : Rewrites db (db.appendEvent row.key event) _ := rewrites_appendEvent rfl
    refine ⟨_, first.row_of there, event, ?_, rfl⟩
    rw [if_pos rfl]
    exact List.mem_append_right _ (List.mem_singleton_self _)

/-- A version that is not disabled and was withdrawn at most once has room. -/
theorem Bounded.room (bounded : Bounded db) {version : Version} (found : db.versions.row k = some version)
    (open_ : ∀ e ∈ version.events, e.action ≠ .disable)
    (once : (version.events.filter (·.action = .withdraw)).length ≤ 1) : version.events.length < maxEvents := by
  have kept := bounded.kept k version found
  have others : (version.events.filter fun e => !e.action.opens).length ≤
      (version.events.filter (·.action = .withdraw)).length := by
    rw [← List.countP_eq_length_filter, ← List.countP_eq_length_filter]
    refine List.countP_mono_left fun e member shuts => ?_
    have other := open_ e member
    cases action : e.action <;> simp_all [Action.opens]
  have all := List.length_eq_length_filter_add (l := version.events) fun e => e.action.opens
  simp only [maxEvents] at kept ⊢
  omega

/-- **A disable succeeds while the log has room**, and there is room as long as the version was
withdrawn at most once. -/
theorem decide_disables {db₀ : Store} {trace : List (Call × World)} (start : (catalogs C).init db₀)
    (reached : (catalogs C).Run db₀ trace db) (ready : W.Ready) {reference : ExactRef} {version : Version}
    (found : db.versions.row (reference.key ctx) = some version) (digest : version.digest = reference.digest)
    (open_ : ∀ e ∈ version.events, e.action ≠ .disable)
    (room : version.events.length < maxEvents ∨ (version.events.filter (·.action = .withdraw)).length ≤ 1)
    (audits : db.audits ctx < maxAudit) (review : SyntheticReference) :
    ∃ answer db', run C W (.decide ctx (disables reference version.events.length review)) db =
        (.ok (.decided answer), db') ∧ db'.Disabled (reference.key ctx) := by
  have bounded := (start_bounded start).run reached
  have fits : version.events.length < maxEvents := room.elim id (bounded.room found open_)
  obtain ⟨answer, db', done, disabled⟩ :=
    decideBody_disables C bounded ready found digest open_ fits audits review
  refine ⟨answer, db', operation_of ?_ ready (Tx.bind_ok.2 ⟨answer, db', done, Tx.pure_ok.2 ⟨rfl, rfl⟩⟩), disabled⟩
  have few : version.events.length ≤ 16 := Nat.le_of_lt fits
  simp [disables, DecisionInput.valid, Action.opens, few]

/-- A full log takes no decision. -/
theorem decide_full (C : Codec) (W : World) {reference : ExactRef} {version : Version}
    (found : db.versions.row (reference.key ctx) = some version) (full : maxEvents ≤ version.events.length)
    {p : DecisionInput} (here : p.reference = reference) : ∃ e, (run C W (.decide ctx p) db).1 = .error e := by
  refine Tx.raises_of_not_ok fun answer db' done => ?_
  obtain ⟨_, ran, -⟩ := map_ok_of (operation_ok done)
  obtain ⟨row, _, owned, room, -⟩ := decideBody_ok ran
  obtain ⟨key, there, -⟩ := exactOwned_ok owned
  rw [key, here, found] at there
  obtain rfl := Option.some.inj there
  rw [readEvents_length] at room
  omega

end ApiSecurityPlatform.Research.Knowledge

/-! ## All four logs -/

namespace ApiSecurityPlatform.Research

open ApiSecurityPlatform.Theory

/-- **A stop succeeds while its log has room.**  In every state that calls lead to, with the right
expected sequence, the other domains answering and room for the audit row: a disable of a
version that is not disabled and has fewer than 16 events or at most one withdrawal; a
revocation of a manifest with fewer than 16 decisions; a cancellation of an open task with
fewer than 64 events; and a revocation of a member plan while it and all plans of its intent
have fewer than 16 records. -/
theorem stops_while_room :
    (∀ (C : Knowledge.Codec) (db₀ db : Knowledge.Store) (trace : List (Knowledge.Call × Knowledge.World))
        (W : Knowledge.World) (ctx : Int) (reference : Knowledge.ExactRef) (version : Knowledge.Version)
        (review : Knowledge.SyntheticReference),
      (Knowledge.catalogs C).init db₀ → (Knowledge.catalogs C).Run db₀ trace db → W.Ready →
      db.versions.row (reference.key ctx) = some version → version.digest = reference.digest →
      (∀ e ∈ version.events, e.action ≠ .disable) →
      (version.events.length < Knowledge.maxEvents ∨ (version.events.filter (·.action = .withdraw)).length ≤ 1) →
      db.audits ctx < Knowledge.maxAudit →
      ∃ answer db', Knowledge.run C W (.decide ctx (Knowledge.disables reference version.events.length review)) db =
        (.ok (.decided answer), db') ∧ db'.Disabled (reference.key ctx)) ∧
    (∀ (db₀ db : Decisions.Budgets) (trace : List (Int × Decisions.BudgetInput × Decisions.BudgetWorld))
        (W : Decisions.BudgetWorld) (ctx : Int) (manifest : Decisions.Reference) (now : Decisions.Time)
        (evidence : Decisions.SyntheticReference),
      Decisions.budgets.init db₀ → Decisions.budgets.Run db₀ trace db → W.Ready manifest now →
      (db.decisions (Decisions.budgetKey ctx manifest)).length < Decisions.maxDecisions →
      (∀ e ∈ db.decisions (Decisions.budgetKey ctx manifest), e.recordedAt ≤ now) →
      db.audits ctx < Decisions.maxAudit →
      ∃ row db', Decisions.decideBudget W ctx
          ⟨manifest, (db.decisions (Decisions.budgetKey ctx manifest)).length, .revoked, evidence⟩ db = (.ok row, db') ∧
        db'.decisions (Decisions.budgetKey ctx manifest) = db.decisions (Decisions.budgetKey ctx manifest) ++ [row] ∧
        row.decision = .revoked) ∧
    (∀ (C : TaskLedger.Codec) (db₀ db : TaskLedger.Ledger) (trace : List (TaskLedger.Call × TaskLedger.World))
        (W : TaskLedger.World) (key : TaskLedger.TaskKey) (log : TaskLedger.TaskLog) (v : TaskLedger.Version)
        (now : TaskLedger.Time) (evidence : TaskLedger.Evidence),
      (TaskLedger.tasks C).init db₀ → (TaskLedger.tasks C).Run db₀ trace db → W.Ready now → db.row key = some log →
      (∀ e ∈ log.events, e.kind ≠ .cancelled) → TaskLedger.latest log = some v →
      log.events.length < TaskLedger.maxEvents → v.recordedAt ≤ now → (∀ e ∈ log.events, e.recordedAt ≤ now) →
      ∃ view_ db', TaskLedger.run C W (.transition key.contextId
          ⟨⟨key.number, v.version, v.digest⟩, log.events.length, .cancel, evidence⟩) db = (.ok view_, db') ∧
        ∃ log', db'.row key = some log' ∧ ∃ e ∈ log'.events, e.kind = .cancelled) ∧
    (∀ (db₀ db : Decisions.Approvals) (trace : List (Int × Decisions.ApprovalInput × Decisions.ApprovalWorld))
        (W : Decisions.ApprovalWorld) (ctx : Int) (intent : Decisions.Reference) (core : Decisions.IntentView)
        (planId : Int) (plan : Decisions.Plan),
      Decisions.approvals.init db₀ → Decisions.approvals.Run db₀ trace db → W.Ready intent core planId plan →
      (db.records planId).length < 16 → Decisions.totalRecords db core.linked < 16 →
      db.audits ctx < Decisions.maxAudit →
      ∃ record db', Decisions.approve W ctx ⟨intent, planId, (db.records planId).length, .revoked⟩ db =
          (.ok record, db') ∧
        (Decisions.latestExactDecision (db'.records planId) plan).map Decisions.ApprovalRecord.decision =
          some .revoked) := by
  refine ⟨?_, ?_, ?_, ?_⟩
  · intro C db₀ db trace W ctx reference version review start reached ready found digest open_ room audits
    exact Knowledge.decide_disables start reached ready found digest open_ room audits review
  · intro db₀ db trace W ctx manifest now evidence start reached ready room late audits
    exact Decisions.decideBudget_revokes start reached ready audits evidence room late
  · intro C db₀ db trace W key log v now evidence start reached ready found open_ newest room fresh late
    exact TaskLedger.transition_cancels start reached ready found open_ newest room fresh late evidence
  · intro db₀ db trace W ctx intent core planId plan _ _ ready room total audits
    exact Decisions.approve_revokes ready audits room total

/-! ### Full logs -/

section Poles

open Knowledge (sampleContent sampleRef sampleCodec sampleWorld)
open TaskLedger (pairCodec pairWorld pairCalls)

/-- A version is recorded and reviewed, and then withdrawn. -/
def withdrawnCalls (reviews withdrawals : Nat) : List (Knowledge.Call × Knowledge.World) :=
  (.record 1 ⟨1, 7, sampleContent, ⟨1, 1⟩⟩, sampleWorld) ::
    ((List.range reviews).map fun n =>
      (.decide 1 ⟨sampleRef, n, .review, ⟨1, 1⟩, some 5, some 20, none, none, none⟩, sampleWorld)) ++
    (List.range withdrawals).map fun n =>
      (.decide 1 ⟨sampleRef, reviews + n, .withdraw, ⟨1, 1⟩, none, none, none, none, none⟩, sampleWorld)

def withdrawnStore (reviews withdrawals : Nat) : Knowledge.Store :=
  (withdrawnCalls reviews withdrawals).foldl (fun db call => (Knowledge.run sampleCodec call.2 call.1 db).2) ⟨.empty, fun _ => 0⟩

def sampleManifest : Decisions.Reference := ⟨1, 1, List.replicate 64 'a'⟩

def sampleBudgetWorld : Decisions.BudgetWorld := ⟨true, fun _ => true, some 10, true, true⟩

/-- The budget of one manifest is approved again and again. -/
def approveAgain (times : Nat) : List (Int × Decisions.BudgetInput × Decisions.BudgetWorld) :=
  (List.range times).map fun n => (1, ⟨sampleManifest, n, .approved, ⟨1, 1⟩⟩, sampleBudgetWorld)

def approvedBudget (times : Nat) : Decisions.Budgets :=
  (approveAgain times).foldl (fun db call => (Decisions.decideBudget call.2.2 call.1 call.2.1 db).2)
    ⟨fun _ => [], fun _ => 0⟩

/-- A task is created, approved and paused again and again. -/
def pausedCalls (times : Nat) : List (TaskLedger.Call × TaskLedger.World) :=
  pairCalls ++ (List.range times).map fun n =>
    (.transition 1 ⟨⟨1, 1, List.replicate 64 'a'⟩, n + 2, .pause, ⟨"ref".toList, 1⟩⟩, pairWorld)

def pausedLedger (times : Nat) : TaskLedger.Ledger :=
  (pausedCalls times).foldl (fun db call => (TaskLedger.run pairCodec call.2 call.1 db).2) .empty

def samplePlan : Decisions.Plan := ⟨"v1".toList, "d1".toList⟩

def sampleApprovalWorld : Decisions.ApprovalWorld :=
  ⟨true, fun _ => some ⟨[21], [21]⟩, fun _ => some samplePlan, true, true, true⟩

/-- A plan is approved again and again. -/
def approvePlanAgain (times : Nat) : List (Int × Decisions.ApprovalInput × Decisions.ApprovalWorld) :=
  (List.range times).map fun n => (1, ⟨sampleManifest, 21, n, .approved⟩, sampleApprovalWorld)

def approvedPlan (times : Nat) : Decisions.Approvals :=
  (approvePlanAgain times).foldl (fun db call => (Decisions.approve call.2.2 call.1 call.2.1 db).2)
    ⟨fun _ => [], fun _ => 0⟩

theorem withdrawnStore_run (reviews withdrawals : Nat) : (Knowledge.catalogs sampleCodec).Run ⟨.empty, fun _ => 0⟩
    (withdrawnCalls reviews withdrawals) (withdrawnStore reviews withdrawals) := .of_foldl (fun _ _ => rfl) _ _

theorem approvedBudget_run (times : Nat) :
    Decisions.budgets.Run ⟨fun _ => [], fun _ => 0⟩ (approveAgain times) (approvedBudget times) :=
  .of_foldl (fun _ _ => rfl) _ _

theorem pausedLedger_run (times : Nat) :
    (TaskLedger.tasks pairCodec).Run .empty (pausedCalls times) (pausedLedger times) := .of_foldl (fun _ _ => rfl) _ _

theorem approvedPlan_run (times : Nat) :
    Decisions.approvals.Run ⟨fun _ => [], fun _ => 0⟩ (approvePlanAgain times) (approvedPlan times) :=
  .of_foldl (fun _ _ => rfl) _ _

/-- After fourteen reviews and two withdrawals no disable succeeds; after sixteen approvals of a budget no revocation does;
after sixty-two pauses of a task no cancellation does; and after sixteen approvals of a plan no revocation does. -/
theorem full_logs_stay_open :
    ((Knowledge.catalogs sampleCodec).Run ⟨.empty, fun _ => 0⟩ (withdrawnCalls 14 2) (withdrawnStore 14 2) ∧
      (∃ version, (withdrawnStore 14 2).versions.row (sampleRef.key 1) = some version ∧
        ∀ e ∈ version.events, e.action ≠ .disable) ∧
      ∀ W expected review, ∃ e, (Knowledge.run sampleCodec W
        (.decide 1 (Knowledge.disables sampleRef expected review)) (withdrawnStore 14 2)).1 = .error e) ∧
    (Decisions.budgets.Run ⟨fun _ => [], fun _ => 0⟩ (approveAgain 16) (approvedBudget 16) ∧
      ((approvedBudget 16).decisions (Decisions.budgetKey 1 sampleManifest)).getLast?.map Decisions.BudgetDecision.decision =
        some .approved ∧
      ∀ W expected evidence, ∃ e,
        (Decisions.decideBudget W 1 ⟨sampleManifest, expected, .revoked, evidence⟩ (approvedBudget 16)).1 = .error e) ∧
    ((TaskLedger.tasks pairCodec).Run .empty (pausedCalls 62) (pausedLedger 62) ∧
      (∃ log, (pausedLedger 62).row ⟨1, 1⟩ = some log ∧ ∀ e ∈ log.events, e.kind ≠ .cancelled) ∧
      ∀ W expected evidence, ∃ e, (TaskLedger.run pairCodec W
        (.transition 1 ⟨⟨1, 1, List.replicate 64 'a'⟩, expected, .cancel, evidence⟩) (pausedLedger 62)).1 = .error e) ∧
    Decisions.approvals.Run ⟨fun _ => [], fun _ => 0⟩ (approvePlanAgain 16) (approvedPlan 16) ∧
      (Decisions.latestExactDecision ((approvedPlan 16).records 21) samplePlan).map Decisions.ApprovalRecord.decision =
        some .approved ∧
      ∀ W expected, ∃ e, (Decisions.approve W 1 ⟨sampleManifest, 21, expected, .revoked⟩ (approvedPlan 16)).1 = .error e := by
  refine ⟨⟨withdrawnStore_run 14 2, ?_⟩, ⟨approvedBudget_run 16, by decide +kernel, fun W expected evidence => ?_⟩,
    ⟨pausedLedger_run 62, ?_⟩, approvedPlan_run 16, by decide +kernel, fun W expected => ?_⟩
  · have computed : ((withdrawnStore 14 2).versions.row (sampleRef.key 1)).map (fun version =>
        (version.events.length, version.events.all fun e => e.action ≠ .disable)) = some (16, true) := by decide +kernel
    obtain ⟨version, found, shown⟩ := Option.map_eq_some_iff.1 computed
    obtain ⟨full, open_⟩ := Prod.mk.inj shown
    refine ⟨⟨version, found, fun e member => of_decide_eq_true (List.all_eq_true.1 open_ e member)⟩, ?_⟩
    exact fun W expected review => Knowledge.decide_full sampleCodec W found (Nat.le_of_eq full.symm) rfl
  · have full : (Decisions.readDecisions ((approvedBudget 16).decisions (Decisions.budgetKey 1 sampleManifest))).length =
        16 := by decide +kernel
    refine Tx.raises_of_not_ok fun row after done => ?_
    obtain ⟨⟨valid, -, -, -, -, same, -⟩, -⟩ := Decisions.decideBudget_ok.1 done
    simp only [full] at valid same
    omega
  · have computed : ((pausedLedger 62).row ⟨1, 1⟩).map (fun log =>
        (log.events.length, log.events.all fun e => e.kind ≠ .cancelled)) = some (64, true) := by decide +kernel
    obtain ⟨log, found, shown⟩ := Option.map_eq_some_iff.1 computed
    obtain ⟨full, open_⟩ := Prod.mk.inj shown
    refine ⟨⟨log, found, fun e member => of_decide_eq_true (List.all_eq_true.1 open_ e member)⟩, ?_⟩
    have sound := ((TaskLedger.start_sound rfl).run (pausedLedger_run 62)).1
    exact fun W expected evidence => TaskLedger.transition_full sound found (Nat.le_of_eq full.symm) W rfl
  · have full : ((approvedPlan 16).records 21).length = 16 := by decide +kernel
    refine Tx.raises_of_not_ok fun record after done => ?_
    obtain ⟨⟨valid, -, -, -, -, same, -⟩, -⟩ := Decisions.approve_ok.1 done
    simp only [full] at valid same
    omega

/-- With one entry less each stop succeeds. -/
theorem stops_while_room_before_full :
    (∃ answer db', Knowledge.run sampleCodec sampleWorld (.decide 1 (Knowledge.disables sampleRef 15 ⟨1, 1⟩))
      (withdrawnStore 14 1) = (.ok (.decided answer), db') ∧ db'.Disabled (sampleRef.key 1)) ∧
    (∃ row db', Decisions.decideBudget sampleBudgetWorld 1 ⟨sampleManifest, 15, .revoked, ⟨1, 1⟩⟩ (approvedBudget 15) =
      (.ok row, db') ∧ row.decision = .revoked) ∧
    (∃ view_ db', TaskLedger.run pairCodec pairWorld
        (.transition 1 ⟨⟨1, 1, List.replicate 64 'a'⟩, 63, .cancel, ⟨"ref".toList, 1⟩⟩) (pausedLedger 61) = (.ok view_, db') ∧
      ∃ log', db'.row ⟨1, 1⟩ = some log' ∧ ∃ e ∈ log'.events, e.kind = .cancelled) ∧
    ∃ record db', Decisions.approve sampleApprovalWorld 1 ⟨sampleManifest, 21, 15, .revoked⟩ (approvedPlan 15) =
        (.ok record, db') ∧
      (Decisions.latestExactDecision (db'.records 21) samplePlan).map Decisions.ApprovalRecord.decision = some .revoked := by
  refine ⟨?_, ?_, ?_, ?_⟩
  · have computed : ((withdrawnStore 14 1).versions.row (sampleRef.key 1)).map (fun version =>
        (version.digest, version.events.length, version.events.all fun e => e.action ≠ .disable)) =
          some (sampleRef.digest, 15, true) := by decide +kernel
    obtain ⟨version, found, shown⟩ := Option.map_eq_some_iff.1 computed
    simp only [Prod.mk.injEq] at shown
    obtain ⟨digest, length, open_⟩ := shown
    have audits : (withdrawnStore 14 1).audits 1 < Knowledge.maxAudit := by decide +kernel
    have done := stops_while_room.1 sampleCodec _ _ _ sampleWorld 1 sampleRef version ⟨1, 1⟩ rfl (withdrawnStore_run 14 1)
      ⟨rfl, fun _ => rfl, rfl⟩ found digest (fun e member => of_decide_eq_true (List.all_eq_true.1 open_ e member))
      (.inl (by rw [length]; decide)) audits
    rwa [length] at done
  · have fifteen : ((approvedBudget 15).decisions (Decisions.budgetKey 1 sampleManifest)).length = 15 := by decide +kernel
    have early : (((approvedBudget 15).decisions (Decisions.budgetKey 1 sampleManifest)).all fun e =>
        e.recordedAt ≤ 10) = true := by decide +kernel
    have audits : (approvedBudget 15).audits 1 = 15 := by decide +kernel
    obtain ⟨row, db', done, -, revoked⟩ := stops_while_room.2.1 _ _ _ sampleBudgetWorld 1 sampleManifest 10 ⟨1, 1⟩ rfl
      (approvedBudget_run 15) ⟨rfl, rfl, rfl, rfl, rfl⟩ (by rw [fifteen]; decide)
      (fun e member => of_decide_eq_true (List.all_eq_true.1 early e member)) (by rw [audits]; decide)
    rw [fifteen] at done
    exact ⟨row, db', done, revoked⟩
  · have computed : ((pausedLedger 61).row ⟨1, 1⟩).map (fun log =>
        ((TaskLedger.latest log).map fun v => (v.version, v.digest, decide (v.recordedAt ≤ 10)), log.events.length,
          log.events.all fun e => e.kind ≠ .cancelled ∧ e.recordedAt ≤ 10)) =
        some (some (1, List.replicate 64 'a', true), 63, true) := by decide +kernel
    obtain ⟨log, found, shown⟩ := Option.map_eq_some_iff.1 computed
    simp only [Prod.mk.injEq] at shown
    obtain ⟨newest, length, all⟩ := shown
    obtain ⟨v, latest, same⟩ := Option.map_eq_some_iff.1 newest
    simp only [Prod.mk.injEq] at same
    obtain ⟨version, digest, fresh⟩ := same
    have each : ∀ e ∈ log.events, e.kind ≠ .cancelled ∧ e.recordedAt ≤ 10 := fun e member =>
      of_decide_eq_true (List.all_eq_true.1 all e member)
    have done := stops_while_room.2.2.1 pairCodec _ _ _ pairWorld ⟨1, 1⟩ log v 10 ⟨"ref".toList, 1⟩ rfl (pausedLedger_run 61)
      ⟨rfl, rfl, rfl, rfl⟩ found (fun e member => (each e member).1) latest (by rw [length]; decide)
      (of_decide_eq_true fresh) fun e member => (each e member).2
    rwa [version, digest, length] at done
  · have fifteen : ((approvedPlan 15).records 21).length = 15 := by decide +kernel
    have total : Decisions.totalRecords (approvedPlan 15) [21] < 16 := by decide +kernel
    have audits : (approvedPlan 15).audits 1 < Decisions.maxAudit := by decide +kernel
    have done := stops_while_room.2.2.2 _ _ _ sampleApprovalWorld 1 sampleManifest ⟨[21], [21]⟩ 21 samplePlan rfl
      (approvedPlan_run 15) ⟨rfl, rfl, by decide, rfl, rfl, rfl, rfl⟩ (by rw [fifteen]; decide) total audits
    rwa [fifteen] at done

end Poles

end ApiSecurityPlatform.Research
