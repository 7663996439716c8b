/-
# Accounting.Passes -- what `reconcile_v1` can do to its loop state

One pass over a selected event is at most three elementary outcomes (`Pass`): the
copy of the event, the closed flag, and the judgement of a final amount.  Each
outcome carries the guards it was reached under, so that the arguments about
settlements and re-held liabilities never unfold the loop again.
-/
import ApiSecurityPlatform.Accounting.Moves

namespace ApiSecurityPlatform.Accounting

open ApiSecurityPlatform.Theory

set_option autoImplicit false

namespace Reconcile

/-- One elementary outcome of a pass over `event`. -/
inductive Pass (R : Reconcile) (event : Observation) : Loop → Loop → Prop where
  /-- The observation is copied into the ledger. -/
  | copied {loop : Loop} {t : Txn}
      (written : ({ loop.txn with db := { loop.txn.db with
          copies := loop.txn.db.copies ++ [⟨R.key, event⟩] } } : Txn).event R.uuid
        event.kind.eventKind (.observation event) (some event.eventId) true = .ok t) :
      Pass R event loop { loop with txn := t }
  | closed (loop : Loop) (stream : event.kind = .streamClosed) :
      Pass R event loop { loop with txn := close loop.txn event }
  | contradicted {loop : Loop} {t : Txn} {existing : Id} {reason : Reason}
      (done : loop.txn.conflict R.uuid existing (R.hashes.observation event) reason (some event) =
        .ok t) :
      Pass R event loop { loop with txn := t, conflictFound := true, blocked := true }
  /-- The ledger has no room for the copy. -/
  | exhausted (loop : Loop) :
      Pass R event loop { loop with
        txn := (loop.txn.retain (some event)).pause .conflict
        conflictFound := true
        blocked := true }
  /-- A final of unknown usage. -/
  | unknown (loop : Loop) (opened : loop.blocked = false) (final : event.isFinal = true)
      (open_ : event.usage.isKnown = false) :
      Pass R event loop { loop with txn := (loop.txn.retain (some event)).pause .inDoubt }
  /-- A known final whose cost is not representable. -/
  | overflow {loop : Loop} {t : Txn} (opened : loop.blocked = false) (final : event.isFinal = true)
      (known : event.usage.isKnown = true) (unpaid : ∀ value, actual event.usage ≠ .ok value)
      (done : loop.txn.conflict R.uuid event.evidenceDigest (R.hashes.observation event)
        .usageOverflow (some event) = .ok t) :
      Pass R event loop { loop with txn := t, conflictFound := true }
  /-- The amount the call has settled with already. -/
  | recognised {loop : Loop} {previous : Settlement} (settled : loop.txn.row.state = .settled)
      (final : event.isFinal = true) (same : actual event.usage = .ok loop.txn.row.actual) :
      Pass R event loop { loop with result := some previous }
  | refused (loop : Loop) (conflicting : loop.txn.row.state = .conflict)
      (ordinary : loop.resolving = false) :
      Pass R event loop { loop with conflictFound := true }
  | settled {loop : Loop} {t : Txn} {record : Settlement} {value : Amount}
      (opened : loop.blocked = false) (final : event.isFinal = true)
      (live : event.eventId ∈ loop.retired → loop.resolving = true)
      (entitled : loop.resolving = true ∨
        latestSettlement loop.txn.db R.key = none ∧ loop.txn.row.state ≠ .conflict)
      (paid : actual event.usage = .ok value) (fits : ¬ loop.txn.unrepresentable value)
      (done : loop.txn.settle R.hashes R.uuid event value = .ok (t, record))
      (unresolved : R.ctx.isRecovery = true → loop.resolving = false) :
      Pass R event loop { loop with txn := t, result := some record }
  /-- A settlement by recovery, with the receipt that retires the inventory. -/
  | resolved {loop : Loop} {t u : Txn} {record : Settlement} {value : Amount} {ctx : RecoveryContext}
      (opened : loop.blocked = false) (final : event.isFinal = true)
      (recovery : R.ctx = .recovery ctx) (resolving : loop.resolving = true)
      (paid : actual event.usage = .ok value) (fits : ¬ loop.txn.unrepresentable value)
      (done : loop.txn.settle R.hashes R.uuid event value = .ok (t, record))
      (written : t.event R.uuid .recoveryResolved (.resolution
          { decisionId := ctx.recoveryDecisionId
            settlementId := record.settlementId
            finalEventId := event.eventId
            observationCount := R.observer.inventory.length
            observationDigest := R.hashes.inventory R.observer.inventory }) none true = .ok u) :
      Pass R event loop { loop with
        txn := u
        result := some record
        resolving := false
        retired := loop.retired ++ R.observer.inventory.map Observation.eventId }

/-- Any number of outcomes. -/
abbrev Passes (R : Reconcile) (event : Observation) : Loop → Loop → Prop :=
  Relation.ReflTransGen (R.Pass event)

variable {R : Reconcile} {event : Observation} {loop loop' : Loop}

theorem contradict_pass {existing : Id} {reason : Reason}
    (done : R.contradict loop existing reason event = .ok loop') : R.Pass event loop loop' := by
  simp only [contradict, bind_ok] at done
  obtain ⟨t, conflicted, same⟩ := done
  obtain rfl := Except.ok.inj same
  exact .contradicted conflicted

theorem copy_passes {live : Bool} (done : R.copy loop event = .ok (loop', live)) :
    R.Passes event loop loop' ∧ loop'.retired = loop.retired ∧ loop'.resolving = loop.resolving := by
  simp only [copy, bind_ok] at done
  obtain ⟨prior, -, done⟩ := done
  split at done
  · split at done
    · simp only [bind_ok] at done
      obtain ⟨after, contradicted, same⟩ := done
      obtain ⟨rfl, rfl⟩ := Prod.mk.inj (Except.ok.inj same)
      have pass := contradict_pass contradicted
      simp only [contradict, bind_ok] at contradicted
      obtain ⟨t, -, same⟩ := contradicted
      obtain rfl := Except.ok.inj same
      exact ⟨.single pass, rfl, rfl⟩
    · obtain ⟨rfl, rfl⟩ := Prod.mk.inj (Except.ok.inj done)
      exact ⟨.refl, rfl, rfl⟩
  · split at done
    · obtain ⟨rfl, rfl⟩ := Prod.mk.inj (Except.ok.inj done)
      exact ⟨.single (.exhausted loop), rfl, rfl⟩
    · simp only [bind_ok] at done
      obtain ⟨t, written, same⟩ := done
      obtain ⟨rfl, rfl⟩ := Prod.mk.inj (Except.ok.inj same)
      exact ⟨.single (.copied written), rfl, rfl⟩

/-- An event that goes on to be judged is not retired, unless it is being
resolved. -/
theorem intake_passes {core : BindingCore} {live : Bool}
    (done : R.intake core loop event = .ok (loop', live)) :
    R.Passes event loop loop' ∧
      (live = true → event.eventId ∈ loop'.retired → loop'.resolving = true) := by
  simp only [intake, bind_ok] at done
  obtain ⟨-, -, -, -, done⟩ := done
  split at done
  · obtain ⟨rfl, rfl⟩ := Prod.mk.inj (Except.ok.inj done)
    exact ⟨.refl, by simp⟩
  · rename_i processed
    have standing : event.eventId ∈ loop.retired → loop.resolving = true := by
      intro retired
      by_contra ordinary
      exact processed ⟨retired, by simpa using ordinary⟩
    split at done
    · split at done
      · simp only [bind_ok] at done
        obtain ⟨after, contradicted, same⟩ := done
        obtain ⟨rfl, rfl⟩ := Prod.mk.inj (Except.ok.inj same)
        exact ⟨.single (contradict_pass contradicted), by simp⟩
      · obtain ⟨passes, retired, resolving⟩ := copy_passes done
        exact ⟨passes, fun _ => by rw [retired, resolving]; exact standing⟩
    · obtain ⟨passes, retired, resolving⟩ := copy_passes done
      exact ⟨passes, fun _ => by rw [retired, resolving]; exact standing⟩

theorem finalize_pass {value : Amount} (opened : loop.blocked = false) (final : event.isFinal = true)
    (live : event.eventId ∈ loop.retired → loop.resolving = true)
    (entitled : loop.resolving = true ∨
      latestSettlement loop.txn.db R.key = none ∧ loop.txn.row.state ≠ .conflict)
    (paid : actual event.usage = .ok value) (fits : ¬ loop.txn.unrepresentable value)
    (done : R.finalize loop event value = .ok loop') : R.Pass event loop loop' := by
  simp only [finalize, bind_ok] at done
  obtain ⟨⟨t, record⟩, settled, done⟩ := done
  split at done
  · rename_i ctx recovery
    split at done
    · rename_i resolving
      simp only [bind_ok] at done
      obtain ⟨u, written, same⟩ := done
      obtain rfl := Except.ok.inj same
      exact .resolved opened final recovery resolving paid fits settled written
    · rename_i ordinary
      obtain rfl := Except.ok.inj done
      exact .settled opened final live entitled paid fits settled fun _ => by simpa using ordinary
  · rename_i ctx run
    obtain rfl := Except.ok.inj done
    refine .settled opened final live entitled paid fits settled fun recovery => ?_
    rw [run] at recovery
    cases recovery

theorem decideFinal_pass {value : Amount} (opened : loop.blocked = false)
    (final : event.isFinal = true) (live : event.eventId ∈ loop.retired → loop.resolving = true)
    (paid : actual event.usage = .ok value) (done : R.decideFinal loop event value = .ok loop') :
    R.Pass event loop loop' := by
  -- the two branches that may settle end alike
  have ending (entitled : loop.resolving = true ∨
      latestSettlement loop.txn.db R.key = none ∧ loop.txn.row.state ≠ .conflict)
      (done : (if loop.txn.unrepresentable value then
        R.contradict loop event.evidenceDigest .balanceOverflow event
        else R.finalize loop event value) = .ok loop') : R.Pass event loop loop' := by
    split at done
    · exact contradict_pass done
    · rename_i fits
      exact finalize_pass opened final live entitled paid fits done
  simp only [decideFinal] at done
  split at done
  · split at done
    · rename_i recognised
      obtain rfl := Except.ok.inj done
      exact .recognised recognised.2.1 final (recognised.1 ▸ paid)
    · split at done
      · exact contradict_pass done
      · rename_i resolving
        exact ending (.inl (by simpa using resolving)) done
  · rename_i absent
    split at done
    · rename_i conflicting
      obtain rfl := Except.ok.inj done
      exact .refused loop conflicting.1 conflicting.2
    · rename_i free
      refine ending ?_ done
      by_cases resolving : loop.resolving = true
      · exact .inl resolving
      · exact .inr ⟨absent, fun conflicting => free ⟨conflicting, by simpa using resolving⟩⟩

theorem judge_passes {index : Nat} {loop : Loop} (final : event.isFinal = true)
    (live : event.eventId ∈ loop.retired → loop.resolving = true)
    (done : R.judge index loop event = .ok loop') : R.Passes event loop loop' := by
  simp only [judge] at done
  split at done
  · obtain rfl := Except.ok.inj done
    exact .refl
  · rename_i notBlocked
    have opened : loop.blocked = false := by simpa using notBlocked
    split at done
    · exact .single (contradict_pass done)
    · simp only [bind_ok] at done
      obtain ⟨-, -, done⟩ := done
      split at done
      · rename_i unknown
        obtain rfl := Except.ok.inj done
        exact .single (.unknown loop opened final unknown)
      · rename_i known
        split at done
        · rename_i code unpaid
          simp only [bind_ok] at done
          obtain ⟨t, conflicted, same⟩ := done
          obtain rfl := Except.ok.inj same
          refine .single (.overflow opened final (by simpa using known) ?_ conflicted)
          intro value paid
          rw [paid] at unpaid
          cases unpaid
        · rename_i value paid
          exact .single (decideFinal_pass opened final live paid done)

/-- **One pass of the settlement loop is a sequence of outcomes.** -/
theorem selectStep_passes {core : BindingCore} {index : Nat}
    (done : R.selectStep core loop (index, event) = .ok loop') : R.Passes event loop loop' := by
  simp only [selectStep, bind_ok] at done
  obtain ⟨⟨middle, live⟩, taken, done⟩ := done
  obtain ⟨passes, standing⟩ := intake_passes taken
  cases live with
  | false =>
      obtain rfl := Except.ok.inj done
      exact passes
  | true =>
      have closing : R.Passes event middle { middle with txn := close middle.txn event } := by
        by_cases stream : event.kind = .streamClosed
        · exact .single (.closed middle stream)
        · rw [show close middle.txn event = middle.txn from if_neg stream]
      simp only [Bool.true_eq_false, if_false] at done
      split at done
      · rename_i final
        have judged : R.Passes event { middle with txn := close middle.txn event } loop' :=
          judge_passes final (standing rfl) done
        exact (passes.trans closing).trans judged
      · obtain rfl := Except.ok.inj done
        exact passes.trans closing

/-! ## Passes are moves -/

theorem Pass.moves (pass : R.Pass event loop loop') : Moves R.hashes R.uuid loop.txn loop'.txn := by
  cases pass with
  | copied written =>
      exact .tail (.single (.note loop.txn loop.txn.draws loop.txn.db.conflicts _)) (.event written)
  | closed stream =>
      show Moves R.hashes R.uuid loop.txn (close loop.txn event)
      rw [close, if_pos stream]
      exact .single (.close loop.txn)
  | contradicted done => exact .conflict done
  | exhausted => exact .single (.freeze loop.txn [some event] (by decide))
  | unknown => exact .single (.freeze loop.txn [some event] (by decide))
  | overflow _ _ _ _ done => exact .conflict done
  | recognised => exact .refl
  | refused => exact .refl
  | settled _ _ _ _ paid fits done => exact .single (.settle paid fits done)
  | resolved _ _ _ _ paid fits done written => exact .tail (.single (.settle paid fits done)) (.event written)

theorem Passes.moves (passes : R.Passes event loop loop') :
    Moves R.hashes R.uuid loop.txn loop'.txn := by
  induction passes with
  | refl => exact .refl
  | tail _ last ih => exact ih.trans last.moves

theorem hazardStep_moves {resolving : Bool} {state state' : Txn × Bool} {hazard : Reason × Observation}
    (done : R.hazardStep resolving state hazard = .ok state') :
    Moves R.hashes R.uuid state.1 state'.1 := by
  simp only [hazardStep] at done
  split at done
  · split at done
    · obtain rfl := Except.ok.inj done
      exact .refl
    · obtain rfl := Except.ok.inj done
      exact .single (.freeze state.1 [some hazard.2] (by decide))
  · simp only [bind_ok] at done
    obtain ⟨t, conflicted, same⟩ := done
    obtain rfl := Except.ok.inj same
    exact .conflict conflicted

theorem foldl_retain (t : Txn) (observations : List Observation) :
    observations.foldl (fun t o => t.retain (some o)) t =
      (observations.map some).foldl Txn.retain t := by
  rw [List.foldl_map]

theorem block_moves (t : Txn) (rest : List Observation) (hard : Bool) :
    Moves R.hashes R.uuid t (block t rest hard) := by
  unfold block
  rw [foldl_retain]
  refine .single (.freeze t _ ?_)
  cases hard <;> decide

theorem enter_moves {t : Txn} {count : Nat} (done : R.enter t count = .ok loop) :
    Moves R.hashes R.uuid t loop.txn := by
  simp only [enter, bind_ok] at done
  obtain ⟨⟨u, found⟩, folded, same⟩ := done
  obtain rfl := Except.ok.inj same
  have hazards : Moves R.hashes R.uuid t u :=
    foldlM_ok (I := fun state => Moves R.hashes R.uuid t state.1)
      (fun _ _ _ _ so_far step => so_far.trans (hazardStep_moves step)) folded .refl
  show Moves R.hashes R.uuid t (if _ then _ else _)
  split
  · exact hazards.trans (block_moves u _ _)
  · exact hazards

theorem leave_moves (loop : Loop) : Moves R.hashes R.uuid loop.txn (leave loop) := by
  unfold leave
  split
  · exact .single (.freeze loop.txn [] (by decide))
  · exact .refl

/-- **The transaction of `reconcile_v1` is a sequence of moves.** -/
theorem transact_moves {t t' : Txn} {core : BindingCore} {selected : List Observation} {found : Bool}
    (done : R.transact t core selected = .ok (t', found)) : Moves R.hashes R.uuid t t' := by
  simp only [transact, bind_ok] at done
  obtain ⟨-, -, count, -, start, entered, -, -, last, folded, same⟩ := done
  obtain ⟨rfl, rfl⟩ := Prod.mk.inj (Except.ok.inj same)
  have loops : Moves R.hashes R.uuid t last.txn :=
    foldlM_ok (I := fun loop => Moves R.hashes R.uuid t loop.txn)
      (fun _ _ _ _ so_far step => so_far.trans (selectStep_passes step).moves) folded
      (enter_moves entered)
  exact loops.trans (leave_moves last)

end Reconcile

end ApiSecurityPlatform.Accounting
