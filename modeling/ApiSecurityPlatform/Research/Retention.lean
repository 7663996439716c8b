/-
# Research.Retention -- the retention clock is canonical

Every operation of the lifecycle keeps the rows fitting their clocks (`Inv`), so the
reconcile sets, purges and removes by the clock.  One kind of step is left out: a
reconcile that replays a delete for a record whose hold was released before anything
made it unavailable sets the clock to its own time before it looks at an earlier
revocation or close (`Late`).
-/
import ApiSecurityPlatform.Research.RetentionClock

namespace ApiSecurityPlatform.Research

open ApiSecurityPlatform.Theory

set_option autoImplicit false

/-- The row is up to date with no cause, or a replayed delete would hide one: its hold was
released, nothing has marked it, and the context was closed or its preparation revoked
before now and before it expires. -/
def Late (ctx : Context) (id : Nat) (now : Int) : Prop :=
  ∃ row prep, ctx.records id = some row ∧ ctx.preparations row.preparationId = some prep ∧
    row.holdStartedAt ≠ none ∧ row.holdUntil = none ∧ row.unavailableAt = none ∧
    ∃ cause, (ctx.closedAt = some cause ∨ prep.revokedAt = some cause) ∧ cause < min now row.expiresAt

/-- No reconcile replays a delete too late. -/
def Prompt (s : Lifecycle) (e : Entry) : Prop :=
  ∀ deleted quarantined, e.event = .reconcile deleted quarantined →
    ∀ id ∈ deleted, ¬ Late s.context id e.at_

/-! ## The context -/

/-- A record of the context, with its preparation and its clock. -/
structure Kept (ctx : Context) (last : Int) (trace : List Entry) (id : Nat) (row : ObservationRecord) :
    Prop where
  known : id < ctx.nextRecord
  tracks : ∃ prep k, ctx.preparations row.preparationId = some prep ∧ clock id trace = some k ∧
    k.preparationId = row.preparationId ∧ Tracks ctx.closedAt prep.revokedAt last row k

/-- Every record of the context fits its clock. -/
structure Inv (s : Lifecycle) (trace : List Entry) : Prop where
  closedPast : Past s.last s.context.closedAt
  revokedPast : ∀ id prep, s.context.preparations id = some prep → Past s.last prep.revokedAt
  prepared : ∀ id prep, s.context.preparations id = some prep → id < s.context.nextPreparation
  kept : ∀ id row, s.context.records id = some row → Kept s.context s.last trace id row
  unborn : ∀ id, s.context.nextRecord ≤ id → clock id trace = none

theorem Inv.init {s : Lifecycle} (start : s.Init) : Inv s [] := by
  obtain ⟨closed, preparations, records, -⟩ := start
  refine ⟨by simp [closed], ?_, ?_, ?_, fun _ _ => rfl⟩
  · intro id prep found
    rw [preparations id] at found
    cases found
  · intro id prep found
    rw [preparations id] at found
    cases found
  · intro id row found
    rw [records id] at found
    cases found


section Steps

variable {s s' : Lifecycle} {trace : List Entry} {e : Entry}

theorem clock_snoc_of_some {id : Nat} {k : Clock} (found : clock id trace = some k) :
    clock id (trace ++ [e]) = some (k.after id e.at_ e.event) := by
  rw [clock_snoc, found]
  rfl

theorem clock_snoc_of_none {id : Nat} (absent : clock id trace = none)
    (other : ∀ preparationId expiresAt, e.event ≠ .accept id preparationId expiresAt) :
    clock id (trace ++ [e]) = none := by
  rw [clock_snoc, absent]
  unfold follow
  split
  · rename_i event
    rw [if_neg]
    rintro rfl
    exact other _ _ event
  · rfl
  · rename_i clash
    cases clash

theorem Inv.unborn_snoc (inv : Inv s trace)
    (other : ∀ id preparationId expiresAt, e.event ≠ .accept id preparationId expiresAt) :
    ∀ id, s.context.nextRecord ≤ id → clock id (trace ++ [e]) = none :=
  fun id fresh => clock_snoc_of_none (inv.unborn id fresh) (other id)

theorem Inv.past (inv : Inv s trace) (later : s.last ≤ e.at_) : Past e.at_ s.context.closedAt ∧
    ∀ id prep, s.context.preparations id = some prep → Past e.at_ prep.revokedAt := by
  refine ⟨fun x given => Int.le_trans (inv.closedPast x given) later, ?_⟩
  exact fun id prep found x given => Int.le_trans (inv.revokedPast id prep found x given) later

/-- An operation on one row. -/
theorem Inv.setRecord {id : Nat} {row row' : ObservationRecord} (inv : Inv s trace)
    (later : s.last ≤ e.at_) (found : s.context.records id = some row)
    (same : row'.preparationId = row.preparationId)
    (own : e.event.record? = some id)
    (tracks : ∀ prep k, s.context.preparations row.preparationId = some prep →
      Tracks s.context.closedAt prep.revokedAt s.last row k →
        Tracks s.context.closedAt prep.revokedAt e.at_ row' (k.after id e.at_ e.event)) :
    Inv ⟨s.context.setRecord id (some row'), e.at_⟩ (trace ++ [e]) := by
  obtain ⟨closedPast, revokedPast⟩ := inv.past later
  have other : ∀ id preparationId expiresAt, e.event ≠ .accept id preparationId expiresAt := by
    intro j p x accepted
    rw [accepted] at own
    cases own
  refine ⟨closedPast, revokedPast, inv.prepared, ?_, inv.unborn_snoc other⟩
  intro j r present
  simp only [Context.setRecord] at present
  split at present
  · rename_i here
    subst here
    obtain rfl := Option.some.inj present
    obtain ⟨known, prep, k, prepFound, clocked, sameId, fits⟩ := inv.kept j row found
    refine ⟨known, prep, _, by rw [same]; exact prepFound, clock_snoc_of_some clocked, ?_,
      tracks prep k prepFound fits⟩
    rw [Clock.after_preparationId, sameId, same]
  · rename_i elsewhere
    obtain ⟨known, prep, k, prepFound, clocked, sameId, fits⟩ := inv.kept j r present
    refine ⟨known, prep, k, prepFound, ?_, sameId, fits.mono later⟩
    rw [clock_snoc_of_some clocked, Clock.after_of_ne own elsewhere]

/-- A step of the lifecycle is an operation that succeeds, no earlier than the last. -/
theorem step_iff : lifecycle.step s e s' ↔
    s.last ≤ e.at_ ∧ ∃ context, perform s.context e = some context ∧ s' = ⟨context, e.at_⟩ := by
  simp only [lifecycle, System.ofStep, Lifecycle.step]
  constructor
  · intro done
    split at done
    · rename_i later
      obtain ⟨context, performed, rfl⟩ := Option.map_eq_some_iff.1 done
      exact ⟨later, context, performed, rfl⟩
    · cases done
  · rintro ⟨later, context, performed, rfl⟩
    rw [if_pos later, performed]
    rfl

variable {context : Context}

theorem Inv.prepare {retention validUntil : Int} (inv : Inv s trace) (later : s.last ≤ e.at_)
    (event : e.event = .prepare retention validUntil)
    (done : prepare s.context e.checks e.at_ retention validUntil = some context) :
    Inv ⟨context, e.at_⟩ (trace ++ [e]) := by
  unfold Research.prepare at done
  split at done
  · obtain rfl := Option.some.inj done
    obtain ⟨closedPast, revokedPast⟩ := inv.past later
    have fresh : ∀ id prep, s.context.preparations id = some prep → id ≠ s.context.nextPreparation :=
      fun id prep found => Nat.ne_of_lt (inv.prepared id prep found)
    refine ⟨closedPast, ?_, ?_, ?_, inv.unborn_snoc (by simp [event])⟩
    · intro id prep found
      simp only [Context.setPreparation] at found
      split at found
      · obtain rfl := Option.some.inj found
        exact past_none _
      · exact revokedPast id prep found
    · intro id prep found
      simp only [Context.setPreparation] at found
      split at found
      · rename_i here
        exact here ▸ Nat.lt_succ_self _
      · exact Nat.lt_succ_of_lt (inv.prepared id prep found)
    · intro id row present
      obtain ⟨known, prep, k, prepFound, clocked, sameId, fits⟩ := inv.kept id row present
      refine ⟨known, prep, k, ?_, by rw [clock_snoc_of_some clocked, event]; rfl, sameId, fits.mono later⟩
      simp only [Context.setPreparation]
      rw [if_neg (fresh _ _ prepFound)]
      exact prepFound
  · cases done

theorem livePreparation_ok {ctx : Context} {checks : Checks} {now : Int} {id : Nat}
    {prep : ObservationPreparation} (live : livePreparation ctx checks now id = some prep) :
    ctx.preparations id = some prep ∧ prep.revokedAt = none ∧ ctx.closedAt = none := by
  unfold livePreparation at live
  split at live
  · cases live
  rename_i found
  split at live
  · rename_i checked
    obtain rfl := Option.some.inj live
    exact ⟨found, checked.1, checked.2.1⟩
  · cases live

theorem Inv.accept {id preparationId : Nat} {expiresAt : Int} (inv : Inv s trace)
    (later : s.last ≤ e.at_) (event : e.event = .accept id preparationId expiresAt)
    (done : (accept s.context e.checks e.at_ preparationId).filter (fun next =>
      id = s.context.nextRecord ∧ (next.records id).map ObservationRecord.expiresAt = some expiresAt) =
        some context) : Inv ⟨context, e.at_⟩ (trace ++ [e]) := by
  obtain ⟨accepted, shown⟩ := Option.filter_eq_some_iff.1 done
  simp only [decide_eq_true_eq] at shown
  obtain ⟨rfl, expiry⟩ := shown
  unfold Research.accept at accepted
  split at accepted
  · cases accepted
  rename_i prep live
  obtain ⟨prepFound, unrevoked, unclosed⟩ := livePreparation_ok live
  split at accepted
  · obtain rfl := Option.some.inj accepted
    obtain ⟨closedPast, revokedPast⟩ := inv.past later
    simp only [Context.setRecord, if_true, Option.map_some, Option.some.injEq] at expiry
    refine ⟨closedPast, revokedPast, inv.prepared, ?_, ?_⟩
    · intro j row present
      simp only [Context.setRecord] at present
      split at present
      · rename_i here
        subst here
        obtain rfl := Option.some.inj present
        refine ⟨Nat.lt_succ_self _, prep, ⟨preparationId, expiresAt, none⟩, prepFound, ?_, rfl, ?_⟩
        · rw [clock_snoc, inv.unborn _ (Nat.le_refl _)]
          simp [follow, event]
        · subst expiry
          rw [unrevoked]
          exact ⟨closedPast, past_none _, past_none _, by simp, by simp,
            by simp [Fields, Context.setRecord, unclosed]⟩
      · obtain ⟨known, prep', k, found, clocked, sameId, fits⟩ := inv.kept j row present
        refine ⟨Nat.lt_succ_of_lt known, prep', k, found, ?_, sameId, fits.mono later⟩
        rw [clock_snoc_of_some clocked, event]
        rfl
    · intro j fresh
      have above : s.context.nextRecord + 1 ≤ j := fresh
      refine clock_snoc_of_none (inv.unborn j (by omega)) ?_
      intro p x same
      rw [event] at same
      cases same
      omega
  · cases accepted

theorem Inv.hold {id : Nat} {until_ : Int} (inv : Inv s trace) (later : s.last ≤ e.at_)
    (event : e.event = .hold id until_)
    (done : hold s.context e.checks e.at_ id until_ = some context) :
    Inv ⟨context, e.at_⟩ (trace ++ [e]) := by
  unfold Research.hold at done
  split at done
  · cases done
  rename_i row found
  split at done
  · cases done
  rename_i prep live
  obtain ⟨prepFound, unrevoked, unclosed⟩ := livePreparation_ok live
  split at done
  · rename_i checked
    obtain rfl := Option.some.inj done
    refine inv.setRecord later found rfl (by rw [event]; rfl) ?_
    intro prep' k found' fits
    obtain rfl := Option.some.inj (prepFound.symm.trans found')
    rw [unclosed, unrevoked] at fits ⊢
    simpa [event, Clock.after] using fits.holding later checked.1
  · cases done

/-- An operation on one row, after the causes on record. -/
theorem Inv.setApplied {id : Nat} {row row' : ObservationRecord} {prep : ObservationPreparation}
    (inv : Inv s trace) (later : s.last ≤ e.at_) (found : s.context.records id = some row)
    (prepFound : s.context.preparations row.preparationId = some prep)
    (same : row'.preparationId = row.preparationId) (own : e.event.record? = some id)
    (tracks : ∀ k, Tracks s.context.closedAt prep.revokedAt s.last
        (recordedUnavailability s.context.closedAt prep row) k →
      Applied s.context.closedAt prep.revokedAt (recordedUnavailability s.context.closedAt prep row) →
        Tracks s.context.closedAt prep.revokedAt e.at_ row' (k.after id e.at_ e.event)) :
    Inv ⟨s.context.setRecord id (some row'), e.at_⟩ (trace ++ [e]) := by
  refine inv.setRecord later found same own ?_
  intro prep' k found' fits
  obtain rfl := Option.some.inj (prepFound.symm.trans found')
  obtain ⟨recorded, applied⟩ := fits.recorded
  exact tracks k recorded applied

theorem Inv.release {id : Nat} (inv : Inv s trace) (later : s.last ≤ e.at_)
    (event : e.event = .release id) (done : release s.context e.checks e.at_ id = some context) :
    Inv ⟨context, e.at_⟩ (trace ++ [e]) := by
  unfold Research.release at done
  split at done
  · cases done
  rename_i row found
  split at done
  · cases done
  rename_i prep prepFound
  dsimp only at done
  split at done
  · rename_i checked
    obtain rfl := Option.some.inj done
    refine inv.setApplied later found prepFound (by simp) (by rw [event]; rfl) ?_
    intro k recorded applied
    simpa [event, Clock.after] using recorded.releasing later applied checked.1
  · cases done

theorem Inv.dispose {id : Nat} {state : RecordState} {endHold : Bool} (inv : Inv s trace)
    (later : s.last ≤ e.at_) (own : e.event.record? = some id)
    (tracks : ∀ closed revoked row k, Tracks closed revoked s.last row k → Applied closed revoked row →
      Tracks closed revoked e.at_ (markUnavailable { row with state } e.at_ endHold)
        (k.after id e.at_ e.event))
    (done : dispose s.context e.checks e.at_ id state endHold = some context) :
    Inv ⟨context, e.at_⟩ (trace ++ [e]) := by
  unfold Research.dispose at done
  split at done
  · cases done
  rename_i row found
  split at done
  · cases done
  rename_i prep prepFound
  dsimp only at done
  split at done
  · obtain rfl := Option.some.inj done
    exact inv.setApplied later found prepFound (by simp) own
      fun k recorded applied => tracks _ _ _ k recorded applied
  · cases done

theorem Inv.delete {id : Nat} (inv : Inv s trace) (later : s.last ≤ e.at_)
    (event : e.event = .delete id) (done : delete s.context e.checks e.at_ id = some context) :
    Inv ⟨context, e.at_⟩ (trace ++ [e]) := by
  refine inv.dispose later (by rw [event]; rfl) ?_ done
  intro closed revoked row k fits applied
  simpa [event, Clock.after] using fits.deleting later (applied.prompt fits)

theorem Inv.quarantine {id : Nat} (inv : Inv s trace) (later : s.last ≤ e.at_)
    (event : e.event = .quarantine id) (done : quarantine s.context e.checks e.at_ id = some context) :
    Inv ⟨context, e.at_⟩ (trace ++ [e]) := by
  refine inv.dispose later (by rw [event]; rfl) ?_ done
  intro closed revoked row k fits applied
  simpa [event, Clock.after] using (fits.quarantining later applied).1

theorem Inv.revokePreparation {p : Nat} (inv : Inv s trace) (later : s.last ≤ e.at_)
    (event : e.event = .revokePreparation p)
    (done : revokePreparation s.context e.checks e.at_ p = some context) :
    Inv ⟨context, e.at_⟩ (trace ++ [e]) := by
  unfold Research.revokePreparation at done
  split at done
  · cases done
  rename_i prep found
  split at done
  · obtain rfl := Option.some.inj done
    obtain ⟨closedPast, revokedPast⟩ := inv.past later
    refine ⟨closedPast, ?_, ?_, ?_, inv.unborn_snoc (by simp [event])⟩
    · intro j prep' found'
      simp only [Context.setPreparation] at found'
      split at found'
      · obtain rfl := Option.some.inj found'
        have past := revokedPast p prep found
        cases revoked : prep.revokedAt with
        | none => simp
        | some v =>
            rw [revoked] at past
            simpa using past
      · exact revokedPast j prep' found'
    · intro j prep' found'
      simp only [Context.setPreparation] at found'
      split at found'
      · rename_i here
        exact here ▸ inv.prepared p prep found
      · exact inv.prepared j prep' found'
    · intro j row present
      obtain ⟨known, prep', k, prepFound, clocked, sameId, fits⟩ := inv.kept j row present
      by_cases here : row.preparationId = p
      · rw [here] at prepFound
        obtain rfl := Option.some.inj (found.symm.trans prepFound)
        refine ⟨known, { prep with revokedAt := some (prep.revokedAt.getD e.at_) }, _,
          by simp [Context.setPreparation, here], clock_snoc_of_some clocked, ?_, ?_⟩
        · rw [Clock.after_preparationId, sameId]
        · simpa [event, Clock.after, sameId, here, Context.setPreparation] using fits.revoke later
      · refine ⟨known, prep', k, by simpa [Context.setPreparation, here] using prepFound, ?_, sameId,
          fits.mono later⟩
        rw [clock_snoc_of_some clocked, event]
        simp [Clock.after, sameId, Ne.symm here]
  · cases done

theorem Inv.close (inv : Inv s trace) (later : s.last ≤ e.at_) (event : e.event = .close)
    (done : closeContext s.context e.checks e.at_ = some context) :
    Inv ⟨context, e.at_⟩ (trace ++ [e]) := by
  unfold closeContext at done
  split at done
  · cases done
  rename_i unclosed
  split at done
  · obtain rfl := Option.some.inj done
    obtain ⟨-, revokedPast⟩ := inv.past later
    refine ⟨by simp, revokedPast, inv.prepared, ?_, inv.unborn_snoc (by simp [event])⟩
    intro j row present
    obtain ⟨known, prep, k, prepFound, clocked, sameId, fits⟩ := inv.kept j row present
    rw [unclosed] at fits
    refine ⟨known, prep, _, prepFound, clock_snoc_of_some clocked, ?_, ?_⟩
    · rw [Clock.after_preparationId, sameId]
    · simpa [event, Clock.after] using fits.close later
  · cases done

/-- What a reconcile makes of one record: a settled row that fits the clock with this
reconcile's causes in it. -/
theorem Inv.reconciled {id : Nat} {row : ObservationRecord} {deleted quarantined : List Nat}
    (inv : Inv s trace) (later : s.last ≤ e.at_) (prompt : Prompt s e)
    (event : e.event = .reconcile deleted quarantined)
    (named : quarantined = s.context.recordIds.filter (quarantinedBy s.context e.checks e.at_ deleted))
    (found : s.context.records id = some row) :
    ∃ row' prep k, reconciled s.context e.checks e.at_ deleted id = some (row', fate e.at_ row') ∧
      row'.preparationId = row.preparationId ∧
      s.context.preparations row.preparationId = some prep ∧ clock id (trace ++ [e]) = some k ∧
      k.preparationId = row.preparationId ∧
      Tracks s.context.closedAt prep.revokedAt e.at_ row' k ∧
      Applied s.context.closedAt prep.revokedAt row' := by
  obtain ⟨known, prep, k, prepFound, clocked, sameId, fits⟩ := inv.kept id row found
  have unhidden : decide (id ∈ deleted) = true → row.holdStartedAt ≠ none → row.holdUntil = none →
      row.unavailableAt = none → From (min e.at_ row.expiresAt) s.context.closedAt ∧
        From (min e.at_ row.expiresAt) prep.revokedAt := by
    intro replay started unheld unmarked
    have timely := prompt deleted quarantined event id (of_decide_eq_true replay)
    constructor
    · intro cause closed
      by_contra early
      exact timely ⟨row, prep, found, prepFound, started, unheld, unmarked, cause, .inl closed, by omega⟩
    · intro cause revoked
      by_contra early
      exact timely ⟨row, prep, found, prepFound, started, unheld, unmarked, cause, .inr revoked, by omega⟩
  have member : id ∈ quarantined ↔ unfit s.context e.checks e.at_ id prep
      (recordedCauses s.context e.at_ prep (decide (id ∈ deleted)) row) = true := by
    rw [named]
    simp [Context.recordIds, quarantinedBy, known, found, prepFound]
  obtain ⟨k', clock_eq, tracks, applied⟩ := settled_tracks e.checks id fits later unhidden
  have same : k.after id e.at_ e.event = k' := by
    rw [event, clock_eq]
    simp only [Clock.after, member, decide_eq_true_eq]
  refine ⟨_, prep, k', by simp [Research.reconciled, found, prepFound], by simp, prepFound, ?_, ?_, tracks,
    applied⟩
  · rw [clock_snoc_of_some clocked, same]
  · rw [← same, Clock.after_preparationId, sameId]

/-- The row a reconcile leaves fits the clock. -/
theorem Tracks.left {closed revoked : Option Int} {now : Int} {row row' : ObservationRecord} {k : Clock}
    (tracks : Tracks closed revoked now row k) (applied : Applied closed revoked row)
    (left : (Research.fate now row).record row = some row') : Tracks closed revoked now row' k ∧
      row'.preparationId = row.preparationId := by
  have canonical := tracks.fate applied
  unfold Research.fate at left canonical
  split at left
  · obtain rfl := Option.some.inj left
    exact ⟨tracks, rfl⟩
  rename_i unavailable
  rw [if_neg unavailable] at canonical
  split at left
  · obtain rfl := Option.some.inj left
    exact ⟨tracks, rfl⟩
  rename_i unheld
  rw [if_neg unheld] at canonical
  dsimp only at left canonical
  split at left
  · cases left
  rename_i young
  rw [if_neg young] at canonical
  obtain rfl := Option.some.inj left
  rw [canonical.1]
  exact ⟨tracks.purging applied unavailable (by simpa using unheld), rfl⟩

theorem Inv.reconcile {deleted quarantined : List Nat} (inv : Inv s trace) (later : s.last ≤ e.at_)
    (prompt : Prompt s e) (event : e.event = .reconcile deleted quarantined)
    (named : quarantined = s.context.recordIds.filter (quarantinedBy s.context e.checks e.at_ deleted))
    (done : reconcile s.context e.checks e.at_ deleted = some context) :
    Inv ⟨context, e.at_⟩ (trace ++ [e]) := by
  unfold Research.reconcile at done
  split at done
  · obtain rfl := Option.some.inj done
    obtain ⟨closedPast, revokedPast⟩ := inv.past later
    refine ⟨closedPast, ?_, ?_, ?_, inv.unborn_snoc (by simp [event])⟩
    · intro id prep found
      exact revokedPast id prep (Option.filter_eq_some_iff.1 found).1
    · intro id prep found
      exact inv.prepared id prep (Option.filter_eq_some_iff.1 found).1
    · intro id row' present
      dsimp only at present
      obtain ⟨⟨settled_, f⟩, passed, left⟩ := Option.bind_eq_some_iff.1 present
      cases found : s.context.records id with
      | none => simp [Research.reconciled, found] at passed
      | some row =>
          obtain ⟨row₁, prep, k, passed', same, prepFound, clocked, sameId, tracks, applied⟩ :=
            inv.reconciled later prompt event named found
          obtain ⟨rfl, rfl⟩ := Prod.mk.inj (Option.some.inj (passed.symm.trans passed'))
          obtain ⟨fits, sameRow⟩ := tracks.left applied left
          have known := (inv.kept id row found).known
          refine ⟨known, prep, k, ?_, clocked, by rw [sameId, sameRow, same], fits⟩
          -- the record itself keeps its preparation
          refine Option.filter_eq_some_iff.2 ⟨by rw [sameRow, same]; exact prepFound, ?_⟩
          simp only [Bool.not_eq_true', Bool.and_eq_false_iff, List.all_eq_false]
          refine .inr ⟨id, List.mem_range.2 known, ?_⟩
          rw [present]
          simp
  · cases done

theorem Inv.step (inv : Inv s trace) (prompt : Prompt s e) (step : lifecycle.step s e s') :
    Inv s' (trace ++ [e]) := by
  obtain ⟨later, context, performed, rfl⟩ := step_iff.1 step
  unfold perform at performed
  split at performed
  · rename_i event
    exact inv.prepare later event performed
  · rename_i event
    exact inv.accept later event performed
  · rename_i event
    exact inv.hold later event performed
  · rename_i event
    exact inv.release later event performed
  · rename_i event
    exact inv.delete later event performed
  · rename_i event
    exact inv.quarantine later event performed
  · rename_i event
    exact inv.revokePreparation later event performed
  · rename_i event
    exact inv.close later event performed
  · rename_i event
    split at performed
    · rename_i named
      exact inv.reconcile later prompt event named performed
    · cases performed

/-- A context after a run without late replays fits its clocks. -/
theorem Inv.run {s₀ : Lifecycle} (start : s₀.Init) (run : (lifecycle.restrict Prompt).Run s₀ trace s) :
    Inv s trace := by
  induction run with
  | refl => exact Inv.init start
  | snoc run last ih => exact ih.step last.2 last.1

/-- No operation but a reconcile takes a record or a payload away. -/
theorem perform_keeps {id : Nat} {row : ObservationRecord}
    (performed : perform s.context e = some context) (found : s.context.records id = some row)
    (other : ∀ deleted quarantined, e.event ≠ .reconcile deleted quarantined) :
    context.records id ≠ none ∧ (s.context.payloads id = true → context.payloads id = true) := by
  have put : ∀ j (r : ObservationRecord), (s.context.setRecord j (some r)).records id ≠ none := by
    intro j r
    simp only [Context.setRecord]
    split <;> simp [found]
  have disposed : ∀ j state endHold, dispose s.context e.checks e.at_ j state endHold = some context →
      context.records id ≠ none ∧ (s.context.payloads id = true → context.payloads id = true) := by
    intro j state endHold done
    unfold dispose at done
    split at done
    · cases done
    split at done
    · cases done
    dsimp only at done
    split at done
    · obtain rfl := Option.some.inj done
      exact ⟨put _ _, fun kept => kept⟩
    · cases done
  unfold perform at performed
  split at performed
  · unfold prepare at performed
    split at performed
    · obtain rfl := Option.some.inj performed
      exact ⟨by simp [Context.setPreparation, found], fun kept => kept⟩
    · cases performed
  · obtain ⟨accepted, -⟩ := Option.filter_eq_some_iff.1 performed
    unfold accept at accepted
    split at accepted
    · cases accepted
    split at accepted
    · obtain rfl := Option.some.inj accepted
      exact ⟨put _ _, fun kept => by simp [kept]⟩
    · cases accepted
  · unfold hold at performed
    split at performed
    · cases performed
    split at performed
    · cases performed
    split at performed
    · obtain rfl := Option.some.inj performed
      exact ⟨put _ _, fun kept => kept⟩
    · cases performed
  · unfold release at performed
    split at performed
    · cases performed
    split at performed
    · cases performed
    dsimp only at performed
    split at performed
    · obtain rfl := Option.some.inj performed
      exact ⟨put _ _, fun kept => kept⟩
    · cases performed
  · exact disposed _ _ _ performed
  · exact disposed _ _ _ performed
  · unfold revokePreparation at performed
    split at performed
    · cases performed
    split at performed
    · obtain rfl := Option.some.inj performed
      exact ⟨by simp [Context.setPreparation, found], fun kept => kept⟩
    · cases performed
  · unfold closeContext at performed
    split at performed
    · cases performed
    split at performed
    · obtain rfl := Option.some.inj performed
      exact ⟨by simp [found], fun kept => kept⟩
    · cases performed
  · rename_i event
    exact absurd event (other _ _)

end Steps

/-- **The retention clock is canonical.**  Over every run without a late replay, take any
record and any next operation, and let `k` be the record's clock with that operation in
it.  A reconcile that finds the record not available and not under an active hold sets
its clock to `k.value`; the payload goes only to a reconcile at or after that value; and
the record goes exactly to a reconcile at or after that value plus 90 days. -/
theorem retention_clock (s₀ s s' : Lifecycle) (trace : List Entry) (e : Entry) (start : s₀.Init)
    (run : (lifecycle.restrict Prompt).Run s₀ trace s) (step : lifecycle.step s e s')
    (prompt : Prompt s e) (id : Nat) (row : ObservationRecord)
    (found : s.context.records id = some row) :
    ∃ k, clock id (trace ++ [e]) = some k ∧
      (∀ deleted quarantined, e.event = .reconcile deleted quarantined →
        ∃ row₁, reconciled s.context e.checks e.at_ deleted id = some (row₁, fate e.at_ row₁) ∧
          s'.context.records id = (fate e.at_ row₁).record row₁ ∧
          (stateAt row₁ e.at_ ≠ .available ∧ row₁.holdActive e.at_ = false →
            fate e.at_ row₁ = .purged k.value ∨ fate e.at_ row₁ = .removed k.value)) ∧
      (s.context.payloads id = true → s'.context.payloads id = false →
        (∃ deleted quarantined, e.event = .reconcile deleted quarantined) ∧ k.value ≤ e.at_ ∧
          ∀ h, k.hold = some h → h ≤ e.at_) ∧
      (s'.context.records id = none ↔
        (∃ deleted quarantined, e.event = .reconcile deleted quarantined) ∧
          k.value + days 90 ≤ e.at_) := by
  have inv := Inv.run start run
  obtain ⟨later, context, performed, rfl⟩ := step_iff.1 step
  by_cases other : ∀ deleted quarantined, e.event ≠ .reconcile deleted quarantined
  · obtain ⟨-, prep, k, -, clocked, -, -⟩ := inv.kept id row found
    obtain ⟨stays, keeps⟩ := perform_keeps performed found other
    refine ⟨_, clock_snoc_of_some clocked, ?_, ?_, ?_⟩
    · exact fun deleted quarantined event => absurd event (other deleted quarantined)
    · intro present gone
      rw [show context.payloads id = true from keeps present] at gone
      cases gone
    · constructor
      · exact fun gone => absurd gone stays
      · rintro ⟨⟨deleted, quarantined, event⟩, -⟩
        exact absurd event (other deleted quarantined)
  · simp only [not_forall, ne_eq, not_not] at other
    obtain ⟨deleted, quarantined, event⟩ := other
    simp only [perform, event] at performed
    split at performed
    · rename_i named
      obtain ⟨row₁, prep, k, passed, -, -, clocked, -, tracks, applied⟩ :=
        inv.reconciled later prompt event named found
      obtain ⟨records, payloads⟩ := reconcile_record performed passed
      have canonical := tracks.fate applied
      have positive : 0 ≤ days 90 := by decide
      refine ⟨k, clocked, ?_, ?_, ?_⟩
      · intro deleted' quarantined' event'
        rw [event] at event'
        obtain ⟨rfl, rfl⟩ := Event.reconcile.inj event'
        refine ⟨row₁, passed, records, ?_⟩
        rintro ⟨unavailable, unheld⟩
        have due := (tracks.past applied unavailable unheld).2
        cases outcome : fate e.at_ row₁ with
        | left =>
            rw [outcome] at canonical
            have early : e.at_ < k.value := canonical
            omega
        | purged x =>
            rw [outcome] at canonical
            exact .inl (by rw [canonical.1])
        | removed x =>
            rw [outcome] at canonical
            exact .inr (by rw [canonical.1])
      · intro present gone
        have due : k.value ≤ e.at_ := by
          cases outcome : fate e.at_ row₁ with
          | left =>
              rw [payloads, present, outcome] at gone
              cases gone
          | purged x =>
              rw [outcome] at canonical
              exact canonical.2.1
          | removed x =>
              rw [outcome] at canonical
              have old : k.value + days 90 ≤ e.at_ := canonical.2
              omega
        exact ⟨⟨deleted, quarantined, event⟩, due, fun h held => Int.le_trans (k.hold_le_value held) due⟩
      · rw [records]
        cases outcome : fate e.at_ row₁ with
        | left =>
            rw [outcome] at canonical
            have early : e.at_ < k.value := canonical
            refine ⟨(fun gone => nomatch gone), fun ⟨_, old⟩ => ?_⟩
            omega
        | purged x =>
            rw [outcome] at canonical
            refine ⟨(fun gone => nomatch gone), fun ⟨_, old⟩ => ?_⟩
            have young := canonical.2.2
            omega
        | removed x =>
            rw [outcome] at canonical
            exact ⟨fun _ => ⟨⟨deleted, quarantined, event⟩, canonical.2⟩, fun _ => rfl⟩
    · cases performed

section Examples

private def passing : Checks := ⟨fun _ => true, true, true, fun _ => true, true⟩

private def unused : Lifecycle := ⟨⟨none, fun _ => none, 0, fun _ => none, 0, fun _ => false⟩, 0⟩

private theorem unused_init : unused.Init := ⟨rfl, fun _ => rfl, fun _ => rfl, fun _ => rfl⟩

private def entries (events : List (Int × Event)) : List Entry :=
  events.map fun (at_, event) => ⟨at_, passing, event⟩

private def accepted : List (Int × Event) :=
  [(0, .prepare 1 1000000), (0, .accept 0 0 1000000)]

private def deletion : List Entry := entries (accepted ++ [(6, .delete 0)])

private theorem deletion_prompt {s : Lifecycle} {e : Entry} (mem : e ∈ deletion) : Prompt s e := by
  intro deleted quarantined same
  simp only [deletion, entries, accepted, List.mem_map, List.mem_append, List.mem_cons] at mem
  grind

private def firstRow (s : Lifecycle) : Option ObservationRecord × Bool :=
  (s.context.records 0, s.context.payloads 0)

private def reconciling : Entry := ⟨8, passing, .reconcile [] []⟩

/-- A record deleted at 6 and reconciled at 8: the payload goes, and the clock is past. -/
theorem retention_clock_deleted : ∃ s s' k, (lifecycle.restrict Prompt).Run unused deletion s ∧
    lifecycle.step s reconciling s' ∧ s.context.payloads 0 = true ∧ s'.context.payloads 0 = false ∧
    clock 0 (deletion ++ [reconciling]) = some k ∧ k.value ≤ 8 ∧
    (s'.context.records 0).map ObservationRecord.unavailableAt = some (some 6) := by
  obtain ⟨s, s', run, step, rows, rows'⟩ := System.Run.exists_step Lifecycle.Init Lifecycle.step unused
    deletion reconciling firstRow (some ⟨0, 1000000, .deleted, some 6, none, none, 0⟩, true)
    (some ⟨0, 1000000, .deleted, some 6, none, none, 0⟩, false) (by rfl)
  obtain ⟨found, present⟩ := Prod.mk.inj rows
  obtain ⟨left, gone⟩ := Prod.mk.inj rows'
  have prompt : Prompt s reconciling := by
    intro deleted quarantined same id mem
    obtain ⟨rfl, -⟩ := Event.reconcile.inj same
    cases mem
  have timely := System.Run.restrict run (P := Prompt) fun before a after t t' cut _ _ _ =>
    deletion_prompt (by rw [cut]; simp)
  obtain ⟨k, clocked, -, purged, -⟩ :=
    retention_clock unused s s' deletion reconciling unused_init timely step prompt 0 _ found
  exact ⟨s, s', k, timely, step, present, gone, clocked, (purged present gone).2.1, by rw [left]; rfl⟩

/-- A hold from 1, released at 5; the preparation is revoked at 6; a reconcile at 8 replays
the delete. -/
private def replay : List Entry := entries (accepted ++
  [(1, .hold 0 10), (5, .release 0), (6, .revokePreparation 0), (8, .reconcile [0] [])])

/-- The record is neither available nor held, its clock is 6, and its row says 8. -/
theorem retention_clock_late : ∃ s row k, lifecycle.Run unused replay s ∧
    s.context.records 0 = some row ∧ stateAt row 8 = .quarantined ∧ row.holdActive 8 = false ∧
    clock 0 replay = some k ∧ k.value = 6 ∧ row.unavailableAt = some 8 := by
  obtain ⟨s, run, left⟩ := System.Run.exists_of_map Lifecycle.Init Lifecycle.step unused replay
    (fun s => s.context.records 0) (some ⟨0, 1000000, .quarantined, some 8, some 1, none, 1⟩) (by rfl)
  exact ⟨s, _, ⟨0, 6, some 5⟩, run, left, rfl, rfl, rfl, rfl, rfl⟩

end Examples

end ApiSecurityPlatform.Research
