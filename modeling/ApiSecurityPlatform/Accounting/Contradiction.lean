/-
# Accounting.Contradiction -- no settlement under a contradiction

`reconcile_v1` reaches its insert over many paths, but two facts about the loop
guard all of them: a loop that is not blocked was entered without any hazard, or by
a recovery that resolves (`Guard.opened`); and a recovery resolves only with a
decision no earlier receipt carries (`Guard.unused`).
-/
import ApiSecurityPlatform.Accounting.Ledger

namespace ApiSecurityPlatform.Accounting

open ApiSecurityPlatform.Theory

set_option autoImplicit false

/-! ## What the hazards stand for -/

/-- Nothing but unknown usage contradicts the inventory: no conflict, no gap, every
known final is representable, and the known finals agree. -/
structure Soft (rest : List Observation) : Prop where
  calm : ∀ e ∈ rest, e.kind ≠ .conflict ∧ e.kind ≠ .coverageGap
  common : ∃ value, ∀ e ∈ rest, e.kind = .finalUsage → e.usage.isKnown = true →
    actual e.usage = .ok value

/-- Nothing contradicts the inventory. -/
structure Consistent (rest : List Observation) : Prop extends Soft rest where
  known : ∀ e ∈ rest, e.kind = .finalUsage → e.usage.isKnown = true

/-- When every hazard is unknown usage, the known finals agree with each other and
with the amount known before. -/
theorem hazards_soft {rest : List Observation} {known : Option Amount}
    (unknown : ∀ h ∈ evidenceHazards known rest, h.1 = .usageUnknown) :
    (∀ e ∈ rest, e.kind ≠ .conflict ∧ e.kind ≠ .coverageGap) ∧
      ∃ value, (∀ k ∈ known, k = value) ∧ ∀ e ∈ rest, e.kind = .finalUsage →
        e.usage.isKnown = true → actual e.usage = .ok value := by
  induction rest generalizing known with
  | nil =>
      refine ⟨by simp, known.getD fun _ => 0, ?_, by simp⟩
      rintro k rfl
      rfl
  | cons e rest ih =>
      -- an event that is neither hazard nor final adds nothing
      have skip (plain : e.kind ≠ .conflict ∧ e.kind ≠ .coverageGap)
          (final : e.kind = .finalUsage → e.usage.isKnown = false)
          (unknown : ∀ h ∈ evidenceHazards known rest, h.1 = .usageUnknown) :
          (∀ x ∈ e :: rest, x.kind ≠ .conflict ∧ x.kind ≠ .coverageGap) ∧
            ∃ value, (∀ k ∈ known, k = value) ∧ ∀ x ∈ e :: rest, x.kind = .finalUsage →
              x.usage.isKnown = true → actual x.usage = .ok value := by
        obtain ⟨calm, value, before, common⟩ := ih unknown
        refine ⟨List.forall_mem_cons.2 ⟨plain, calm⟩, value, before, List.forall_mem_cons.2 ⟨?_, common⟩⟩
        intro isFinal isKnown
        rw [final isFinal] at isKnown
        cases isKnown
      cases kind : e.kind with
      | conflict =>
          have first := unknown (.eventConflict, e) (by simp [evidenceHazards, kind])
          cases first
      | coverageGap =>
          have first := unknown (.coverageGap, e) (by simp [evidenceHazards, kind])
          cases first
      | finalUsage =>
          cases usage : e.usage with
          | known u =>
              cases paid : actual (.known u) with
              | error code =>
                  have first := unknown (.usageOverflow, e)
                    (by simp [evidenceHazards, kind, usage, paid])
                  cases first
              | ok value =>
                  have agrees : known = none ∨ known = some value := by
                    by_contra differs
                    have first := unknown (.finalConflict, e)
                      (by simp [evidenceHazards, kind, usage, paid, differs])
                    cases first
                  have rest_ : ∀ h ∈ evidenceHazards (some value) rest, h.1 = .usageUnknown := by
                    intro h member
                    exact unknown h (by simp [evidenceHazards, kind, usage, paid, agrees, member])
                  obtain ⟨calm, common, before, finals⟩ := ih rest_
                  obtain rfl := before value rfl
                  refine ⟨List.forall_mem_cons.2 ⟨by simp [kind], calm⟩, value, ?_,
                    List.forall_mem_cons.2 ⟨fun _ _ => by rw [usage, paid], finals⟩⟩
                  rcases agrees with rfl | rfl
                  · simp
                  · simp
          | unknown =>
              refine skip (by simp [kind]) (fun _ => by simp [usage, UsageView.isKnown]) ?_
              intro h member
              exact unknown h (by simp [evidenceHazards, kind, usage, member])
          | invalid =>
              refine skip (by simp [kind]) (fun _ => by simp [usage, UsageView.isKnown]) ?_
              intro h member
              exact unknown h (by simp [evidenceHazards, kind, usage, member])
      | permitIssued | writeAccepted | streamClosed | zeroProven =>
          refine skip (by simp [kind]) (by simp [kind]) ?_
          intro h member
          exact unknown h (by simpa [evidenceHazards, kind] using member)

/-- An unknown final is a hazard. -/
theorem unknown_hazard {rest : List Observation} (known : Option Amount) {e : Observation}
    (member : e ∈ rest) (final : e.kind = .finalUsage) (unknown : e.usage.isKnown = false) :
    (.usageUnknown, e) ∈ evidenceHazards known rest := by
  induction rest generalizing known with
  | nil => cases member
  | cons x rest ih =>
      rcases List.mem_cons.1 member with rfl | later
      · cases usage : e.usage with
        | known u => simp [usage, UsageView.isKnown] at unknown
        | unknown => simp [evidenceHazards, final, usage]
        | invalid => simp [evidenceHazards, final, usage]
      · -- whatever the first event adds, the tail's hazards stay
        simp only [evidenceHazards]
        split
        · exact List.mem_cons_of_mem _ (ih known later)
        · exact List.mem_cons_of_mem _ (ih known later)
        · split
          · split
            · exact List.mem_cons_of_mem _ (ih known later)
            · split
              · exact ih _ later
              · exact List.mem_cons_of_mem _ (ih _ later)
          · exact List.mem_cons_of_mem _ (ih known later)
        · exact ih known later

theorem soft_of_hazards {rest : List Observation} {known : Option Amount}
    (unknown : ∀ h ∈ evidenceHazards known rest, h.1 = .usageUnknown) : Soft rest := by
  obtain ⟨calm, value, -, common⟩ := hazards_soft unknown
  exact ⟨calm, value, common⟩

theorem consistent_of_hazards {rest : List Observation} {known : Option Amount}
    (none_ : evidenceHazards known rest = []) : Consistent rest := by
  refine ⟨@soft_of_hazards _ known (by simp [none_]), ?_⟩
  intro e member final
  by_contra unknown
  have hazard := unknown_hazard known member final (by simpa using unknown)
  rw [none_] at hazard
  cases hazard

/-- The hazards are events of the scanned part, in its order. -/
theorem hazards_sublist (known : Option Amount) (rest : List Observation) :
    ((evidenceHazards known rest).map Prod.snd).Sublist rest := by
  induction rest generalizing known with
  | nil => exact .slnil
  | cons e rest ih =>
      simp only [evidenceHazards]
      split
      · exact (ih known).cons_cons e
      · exact (ih known).cons_cons e
      · split
        · split
          · exact (ih known).cons_cons e
          · split
            · exact (ih _).cons e
            · exact (ih _).cons_cons e
        · exact (ih known).cons_cons e
      · exact (ih known).cons e

/-- One amount for everything that is known: what the comparison with the predecessor comes to. -/
theorem hazards_nil_iff {rest : List Observation} {known : Option Amount} :
    evidenceHazards known rest = [] ↔
      (∀ e ∈ rest, e.kind ≠ .conflict ∧ e.kind ≠ .coverageGap) ∧
        ∃ value, (∀ k ∈ known, k = value) ∧ ∀ e ∈ rest, e.kind = .finalUsage → actual e.usage = .ok value := by
  constructor
  · intro none_
    obtain ⟨calm, value, before, common⟩ := @hazards_soft rest known (by simp [none_])
    exact ⟨calm, value, before, fun e member final =>
      common e member final ((consistent_of_hazards none_).known e member final)⟩
  · rintro ⟨calm, value, before, common⟩
    induction rest generalizing known with
    | nil => rfl
    | cons e rest ih =>
        obtain ⟨plain, calm⟩ := List.forall_mem_cons.1 calm
        obtain ⟨first, common⟩ := List.forall_mem_cons.1 common
        cases kind : e.kind with
        | conflict => exact absurd kind plain.1
        | coverageGap => exact absurd kind plain.2
        | finalUsage =>
            have paid := first kind
            obtain ⟨u, usage, -, -⟩ := actual_ok paid
            have agrees : known = none ∨ known = some value := by
              cases known with
              | none => exact .inl rfl
              | some k => exact .inr (congrArg some (before k rfl))
            have later : evidenceHazards (some value) rest = [] :=
              ih calm (fun k same => (Option.some.inj same).symm) common
            rw [usage] at paid
            simp [evidenceHazards, kind, usage, paid, agrees, later]
        | permitIssued | writeAccepted | streamClosed | zeroProven =>
            simpa [evidenceHazards, kind] using ih calm before common

/-- **A clean scan.**  No hazard is reported exactly when nothing after the prefix is a conflict or a
gap, and all its finals are known, representable and of one amount, the known one if there is
one.  The prefix is never looked at. -/
theorem evidence_hazards_characterized (events : List Observation) (retired : Nat) (known : Option Amount) :
    (evidenceHazards known (events.drop retired) = [] ↔
      (∀ e ∈ events.drop retired, e.kind ≠ .conflict ∧ e.kind ≠ .coverageGap) ∧
      (∀ e ∈ events.drop retired, e.kind = .finalUsage → e.usage.isKnown = true ∧ ∃ value, actual e.usage = .ok value) ∧
      (∀ e ∈ events.drop retired, ∀ f ∈ events.drop retired, e.kind = .finalUsage → f.kind = .finalUsage →
        actual e.usage = actual f.usage) ∧
      ∀ k ∈ known, ∀ e ∈ events.drop retired, e.kind = .finalUsage → actual e.usage = .ok k) ∧
    ((evidenceHazards known (events.drop retired)).map Prod.snd).Sublist (events.drop retired) ∧
    (events.Nodup → ∀ h ∈ evidenceHazards known (events.drop retired), h.2 ∉ events.take retired) := by
  have sub := hazards_sublist known (events.drop retired)
  refine ⟨hazards_nil_iff.trans (and_congr_right fun calm => ?_), sub, fun distinct h reported early => ?_⟩
  · constructor
    · rintro ⟨value, before, common⟩
      refine ⟨fun e member final => ?_, fun e member f member' final final' => ?_, fun k same e member final => ?_⟩
      · have paid := common e member final
        obtain ⟨u, usage, -, -⟩ := actual_ok paid
        exact ⟨by rw [usage]; rfl, value, paid⟩
      · rw [common e member final, common f member' final']
      · rw [common e member final, before k same]
    · rintro ⟨representable, agree, given⟩
      by_cases some_ : ∃ e ∈ events.drop retired, e.kind = .finalUsage
      · obtain ⟨e, member, final⟩ := some_
        obtain ⟨-, value, paid⟩ := representable e member final
        refine ⟨value, fun k same => ?_, fun f member' final' => ?_⟩
        · rw [given k same e member final] at paid
          exact Except.ok.inj paid
        · rw [agree f member' e member final' final, paid]
      · push Not at some_
        refine ⟨known.getD fun _ => 0, ?_, fun e member final => absurd final (some_ e member)⟩
        rintro k rfl
        rfl
  · rw [← List.take_append_drop retired events] at distinct
    exact (List.disjoint_of_nodup_append distinct) early (sub.subset (List.mem_map_of_mem reported))

/-- A final of 100 tokens that is retired, and one of 7 tokens after it. -/
def revisedEvents : List Observation :=
  [sampleObservation 1 30 .finalUsage (sampleUsage 100 hundred_le_maxN),
    sampleObservation 1 31 .finalUsage (sampleUsage 7 seven_le_maxN)]

theorem evidence_hazards_characterized_revised :
    ∃ h ∈ evidenceHazards (some (amount 100 200)) (revisedEvents.drop 1), h.1 = .finalConflict ∧
      h.2 ∉ revisedEvents.take 1 := by
  have reported : (.finalConflict, sampleObservation 1 31 .finalUsage (sampleUsage 7 seven_le_maxN)) ∈
      evidenceHazards (some (amount 100 200)) (revisedEvents.drop 1) := by decide
  exact ⟨_, reported, rfl, (evidence_hazards_characterized revisedEvents 1 _).2.2 (by decide) _ reported⟩

/-! ## Receipts -/

/-- The receipt an event carries for a call. -/
def receiptOf (key : ReservationKey) (e : Event) : Option (Nat × Resolution) :=
  match e.record with
  | .resolution r => if e.key = key ∧ e.kind = .recoveryResolved then some (e.sequence, r) else none
  | _ => none

theorem resolutions_eq (db : Db) (key : ReservationKey) :
    resolutions db key = db.events.filterMap (receiptOf key) := rfl

theorem receiptOf_plain {key : ReservationKey} {e : Event}
    (plain : e.kind ≠ .recoveryResolved ∨ e.key ≠ key) : receiptOf key e = none := by
  unfold receiptOf
  split
  · rw [if_neg]
    rintro ⟨same, kind⟩
    rcases plain with plain | plain
    · exact plain kind
    · exact plain same
  · rfl

theorem resolutions_append {db db' : Db} {added : List Event} (events : db'.events = db.events ++ added)
    (key : ReservationKey) (plain : ∀ e ∈ added, e.kind ≠ .recoveryResolved ∨ e.key ≠ key) :
    resolutions db' key = resolutions db key := by
  have none_ : added.filterMap (receiptOf key) = [] :=
    List.filterMap_eq_nil_iff.2 fun e member => receiptOf_plain (plain e member)
  rw [resolutions_eq, events, List.filterMap_append, none_, List.append_nil, resolutions_eq]

theorem Quiet.receipts {db db' : Db} (quiet : Quiet db db') (key : ReservationKey) :
    resolutions db' key = resolutions db key := by
  obtain ⟨added, events, plain⟩ := quiet
  exact resolutions_append events key fun e member => .inl (plain e member).1

/-- Moves that neither settle nor write a receipt. -/
structure Txn.Idle (t t' : Txn) : Prop where
  key : t'.key = t.key
  settlements : t'.db.settlements = t.db.settlements
  receipts : ∀ key, resolutions t'.db key = resolutions t.db key

namespace Txn.Idle

variable {t u v : Txn} {uuid : Uuids}

theorem refl (t : Txn) : t.Idle t := ⟨rfl, rfl, fun _ => rfl⟩

theorem trans (first : t.Idle u) (second : u.Idle v) : t.Idle v :=
  ⟨second.key.trans first.key, second.settlements.trans first.settlements,
    fun key => (second.receipts key).trans (first.receipts key)⟩

theorem of_events (key : u.key = t.key) (settlements : u.db.settlements = t.db.settlements)
    (events : u.db.events = t.db.events) : t.Idle u :=
  ⟨key, settlements, fun k => by rw [resolutions, events]; rfl⟩

theorem freeze (t : Txn) (kept : List (Option Observation)) (state : ReservationState) :
    t.Idle ((kept.foldl Txn.retain t).pause state) := by
  obtain ⟨-, settlements, -, events⟩ := t.retains_row kept
  exact of_events (t.retains_fixed kept).1 settlements events

theorem event {kind : EventKind} {record : EventRecord} {eventId : Option Id} {recovery : Bool}
    (written : t.event uuid kind record eventId recovery = .ok u)
    (plain : kind ≠ .recoveryResolved) : t.Idle u := by
  obtain ⟨draws, rfl⟩ | ⟨eid, draws, -, -, rfl⟩ := event_cases written
  · exact of_events rfl rfl rfl
  · exact ⟨rfl, rfl, fun key => resolutions_append rfl key (by simp [plain])⟩

theorem conflict {existing incoming : Id} {reason : Reason} {record : Option Observation}
    (done : t.conflict uuid existing incoming reason record = .ok u) : t.Idle u := by
  simp only [Txn.conflict, bind_ok] at done
  obtain ⟨w, recorded, same⟩ := done
  obtain rfl := Except.ok.inj same
  have evidence : t.Idle w := by
    simp only [recordConflict] at recorded
    split at recorded
    · simp only [bind_ok, require_ok] at recorded
      obtain ⟨-, -, written⟩ := recorded
      have noted := event written (by decide)
      refine .trans ?_ noted
      exact of_events rfl rfl rfl
    · obtain rfl := Except.ok.inj recorded
      exact .refl t
  exact evidence.trans (freeze w [record] .conflict)

theorem settle {H : Hashes} {event : Observation} {value : Amount} {record : Settlement}
    (done : t.settle H uuid event value = .ok (u, record)) (key : ReservationKey) :
    resolutions u.db key = resolutions t.db key := by
  obtain ⟨-, -, -, -, -, -, -, -, -, -, -, events, -⟩ := settle_ok done
  rw [resolutions, events]
  rfl

end Txn.Idle

theorem ObservationKind.eventKind_plain (kind : ObservationKind) :
    kind.eventKind ≠ .recoveryResolved := by
  cases kind <;> decide

/-! ## The guards of the loop -/

namespace Reconcile

/-- The decision of a recovery context has no receipt yet. -/
def unused (R : Reconcile) (db : Db) : Prop :=
  ∀ ctx, R.ctx = .recovery ctx → ∀ r ∈ resolutions db R.key, r.2.decisionId ≠ ctx.recoveryDecisionId

/-- Why a settlement could be inserted by a transaction that found `t`, with `rest`
left of the inventory: nothing contradicted it, or a recovery resolved it. -/
def justified (R : Reconcile) (t : Txn) (count : Nat) : Prop :=
  evidenceHazards (knownFinal t.row) (R.observer.inventory.drop count) = [] ∧
      R.hardConflict t.db t.row
        (evidenceHazards (knownFinal t.row) (R.observer.inventory.drop count)) = false ∨
    R.resolves t.db t.row
      (evidenceHazards (knownFinal t.row) (R.observer.inventory.drop count)) = true

/-- What the loop of a transaction that found `t` keeps. -/
structure Guard (R : Reconcile) (t : Txn) (count : Nat) (loop : Loop) : Prop where
  key : loop.txn.key = R.key
  opened : loop.blocked = false → R.justified t count
  resolving : loop.resolving = true → R.resolves t.db t.row
    (evidenceHazards (knownFinal t.row) (R.observer.inventory.drop count)) = true
  retired : ∀ e ∈ R.observer.inventory.take count, e.eventId ∈ loop.retired
  receipts : loop.resolving = true → ∀ key, resolutions loop.txn.db key = resolutions t.db key
  spent : ∀ key, ((resolutions t.db key).map fun r => r.2.decisionId).Nodup →
    ((resolutions loop.txn.db key).map fun r => r.2.decisionId).Nodup
  inserted : ∀ s ∈ loop.txn.db.settlements, s ∈ t.db.settlements ∨
    R.justified t count ∧ ∃ e ∈ R.observer.inventory, e.isFinal = true ∧
      e.eventId = s.finalEventId ∧ actual e.usage = .ok s.settled ∧
      ((∃ x ∈ R.observer.inventory.take count, x.eventId = e.eventId) →
        R.resolves t.db t.row
          (evidenceHazards (knownFinal t.row) (R.observer.inventory.drop count)) = true)

theorem resolves_unused {R : Reconcile} {db : Db} {row : Reservation}
    {hazards : List (Reason × Observation)} (resolving : R.resolves db row hazards = true) :
    R.unused db := by
  intro ctx recovery r member same
  simp only [resolves, recovery, Bool.and_eq_true, Bool.not_eq_true'] at resolving
  have none_ := List.any_eq_false.1 resolving.2 r member
  exact none_ (by simpa using same)

variable {R : Reconcile} {t : Txn} {count : Nat} {loop loop' : Loop}

/-- An outcome that leaves the settlements and receipts alone. -/
theorem Guard.idle (guard : R.Guard t count loop) (idle : loop.txn.Idle loop'.txn)
    (blocked : loop'.blocked = false → loop.blocked = false)
    (resolving : loop'.resolving = loop.resolving) (retired : loop'.retired = loop.retired) :
    R.Guard t count loop' where
  key := idle.key.trans guard.key
  opened free := guard.opened (blocked free)
  resolving := by
    rw [resolving]
    exact guard.resolving
  retired := by
    rw [retired]
    exact guard.retired
  receipts going key := by
    rw [idle.receipts, guard.receipts (resolving ▸ going)]
  spent key distinct := by
    rw [idle.receipts]
    exact guard.spent key distinct
  inserted := by
    rw [idle.settlements]
    exact guard.inserted

/-- A settlement the loop inserts. -/
theorem Guard.settle {event : Observation} {u : Txn} {record : Settlement} {value : Amount}
    (guard : R.Guard t count loop) (listed : event ∈ R.observer.inventory)
    (opened : loop.blocked = false) (final : event.isFinal = true)
    (live : event.eventId ∈ loop.retired → loop.resolving = true)
    (paid : actual event.usage = .ok value)
    (done : loop.txn.settle R.hashes R.uuid event value = .ok (u, record)) :
    ∀ s ∈ u.db.settlements, s ∈ t.db.settlements ∨
      R.justified t count ∧ ∃ e ∈ R.observer.inventory, e.isFinal = true ∧
        e.eventId = s.finalEventId ∧ actual e.usage = .ok s.settled ∧
        ((∃ x ∈ R.observer.inventory.take count, x.eventId = e.eventId) →
          R.resolves t.db t.row
            (evidenceHazards (knownFinal t.row) (R.observer.inventory.drop count)) = true) := by
  obtain ⟨shape, -, -, -, -, -, -, -, -, settlements, -⟩ := Txn.settle_ok done
  intro s member
  rw [settlements] at member
  rcases List.mem_append.1 member with old | new
  · exact guard.inserted s old
  · obtain rfl := List.mem_singleton.1 new
    refine .inr ⟨guard.opened opened, event, listed, final, ?_, ?_, ?_⟩
    · rw [shape]
      rfl
    · rw [shape]
      exact paid
    · rintro ⟨x, early, same⟩
      exact guard.resolving (live (same ▸ guard.retired x early))

theorem Guard.pass {event : Observation} (guard : R.Guard t count loop)
    (listed : event ∈ R.observer.inventory) (pass : R.Pass event loop loop') :
    R.Guard t count loop' := by
  cases pass with
  | copied written =>
      refine guard.idle (.trans ?_ (.event written (event.kind.eventKind_plain))) id rfl rfl
      exact .of_events rfl rfl rfl
  | closed stream =>
      refine guard.idle ?_ id rfl rfl
      show loop.txn.Idle (close loop.txn event)
      rw [close, if_pos stream]
      exact .of_events rfl rfl rfl
  | contradicted done => exact guard.idle (.conflict done) (fun free => by cases free) rfl rfl
  | exhausted =>
      exact guard.idle (.freeze loop.txn [some event] .conflict) (fun free => by cases free) rfl rfl
  | unknown => exact guard.idle (.freeze loop.txn [some event] .inDoubt) id rfl rfl
  | overflow _ _ _ _ done => exact guard.idle (.conflict done) id rfl rfl
  | recognised => exact guard.idle (.refl _) id rfl rfl
  | refused => exact guard.idle (.refl _) id rfl rfl
  | settled opened final live entitled paid fits done unresolved =>
      obtain ⟨-, -, -, key, -⟩ := Txn.settle_ok done
      refine ⟨key.trans guard.key, guard.opened, guard.resolving, guard.retired, ?_, ?_, ?_⟩
      · intro going k
        exact (Txn.Idle.settle done k).trans (guard.receipts going k)
      · intro k distinct
        show ((resolutions _ k).map _).Nodup
        rw [Txn.Idle.settle done k]
        exact guard.spent k distinct
      · exact guard.settle listed opened final live paid done
  | @resolved u v record value ctx opened final recovery resolving paid fits done written =>
      obtain ⟨-, -, -, key, -⟩ := Txn.settle_ok done
      have atKey : u.key = R.key := key.trans guard.key
      have unused := resolves_unused (guard.resolving resolving) ctx recovery
      have same (k : ReservationKey) : resolutions u.db k = resolutions t.db k :=
        (Txn.Idle.settle done k).trans (guard.receipts resolving k)
      have settlements := guard.settle listed opened final (fun _ => resolving) paid done
      obtain ⟨draws, rfl⟩ | ⟨eid, draws, -, -, rfl⟩ := Txn.event_cases written
      · -- the receipt was in the ledger under this very id already
        refine ⟨atKey, guard.opened, (fun going => by cases going), ?_, (fun going => by cases going),
          ?_, settlements⟩
        · exact fun e member => List.mem_append_left _ (guard.retired e member)
        · intro k distinct
          show ((resolutions u.db k).map _).Nodup
          rwa [same k]
      · refine ⟨atKey, guard.opened, (fun going => by cases going), ?_, (fun going => by cases going),
          ?_, settlements⟩
        · exact fun e member => List.mem_append_left _ (guard.retired e member)
        · intro k distinct
          rw [resolutions_eq]
          show ((List.filterMap (receiptOf k) (u.db.events ++ [_])).map _).Nodup
          rw [List.filterMap_append, ← resolutions_eq, same k]
          by_cases here : k = R.key
          · subst here
            simp only [List.filterMap_cons, List.filterMap_nil, receiptOf, atKey, and_self, if_true,
              List.map_append, List.map_cons, List.map_nil]
            refine distinct.append (List.nodup_singleton _) ?_
            simp only [List.disjoint_singleton, List.mem_map, not_exists, not_and]
            exact unused
          · have elsewhere : u.key ≠ k := fun at_ => here (at_.symm.trans atKey)
            simpa [receiptOf, elsewhere] using distinct

theorem Guard.passes {event : Observation} (guard : R.Guard t count loop)
    (listed : event ∈ R.observer.inventory) (passes : R.Passes event loop loop') :
    R.Guard t count loop' := by
  induction passes with
  | refl => exact guard
  | tail _ last ih => exact ih.pass listed last

theorem hazardStep_idle {resolving : Bool} {state state' : Txn × Bool} {hazard : Reason × Observation}
    (done : R.hazardStep resolving state hazard = .ok state') : state.1.Idle state'.1 := by
  simp only [hazardStep] at done
  split at done
  · split at done
    · obtain rfl := Except.ok.inj done
      exact .refl _
    · obtain rfl := Except.ok.inj done
      exact .freeze state.1 [some hazard.2] .inDoubt
  · simp only [bind_ok] at done
    obtain ⟨u, conflicted, same⟩ := done
    obtain rfl := Except.ok.inj same
    exact .conflict conflicted

theorem Guard.enter (atKey : t.key = R.key) (done : R.enter t count = .ok loop) :
    R.Guard t count loop := by
  simp only [Reconcile.enter, bind_ok] at done
  obtain ⟨⟨u, found⟩, folded, same⟩ := done
  obtain rfl := Except.ok.inj same
  have hazards : t.Idle u :=
    foldlM_ok (I := fun state => t.Idle state.1)
      (fun _ _ _ _ so_far step => so_far.trans (hazardStep_idle step)) folded (.refl t)
  have idle : ∀ (blocked : Bool) (hard : Bool),
      t.Idle (if blocked then block u (R.observer.inventory.drop count) hard else u) := by
    intro blocked hard
    split
    · refine hazards.trans ?_
      unfold block
      rw [foldl_retain]
      exact .freeze u _ _
    · exact hazards
  refine ⟨(idle _ _).key.trans atKey, ?_, fun going => going, ?_, fun _ => (idle _ _).receipts, ?_, ?_⟩
  · intro free
    simp only [Bool.and_eq_false_iff, Bool.or_eq_false_iff, Bool.not_eq_false'] at free
    rcases free with ⟨nothing, soft⟩ | going
    · exact .inl ⟨List.isEmpty_iff.1 nothing, soft⟩
    · exact .inr going
  · exact fun e member => List.mem_map_of_mem member
  · intro key distinct
    rw [(idle _ _).receipts]
    exact distinct
  · intro s member
    rw [(idle _ _).settlements] at member
    exact .inl member

/-- **The guards hold to the end of the transaction.** -/
theorem Guard.transact {t' : Txn} {core : BindingCore} {selected : List Observation} {found : Bool}
    (atKey : t.key = R.key) (listed : ∀ e ∈ selected, e ∈ R.observer.inventory)
    (done : R.transact t core selected = .ok (t', found)) :
    ∃ count last, evidencePrefix R.hashes t.db R.key R.observer.inventory = .ok count ∧
      R.Guard t count last ∧ last.txn.Idle t' := by
  simp only [Reconcile.transact, bind_ok] at done
  obtain ⟨-, -, count, prefixed, start, entered, -, -, last, folded, same⟩ := done
  obtain ⟨rfl, rfl⟩ := Prod.mk.inj (Except.ok.inj same)
  refine ⟨count, last, prefixed, ?_, ?_⟩
  · refine foldlM_ok (I := R.Guard t count) ?_ folded (Guard.enter atKey entered)
    rintro loop ⟨index, event⟩ loop' member guard step
    refine guard.passes (listed event ?_) (selectStep_passes step)
    obtain ⟨⟨e, i⟩, present, swapped⟩ := List.mem_map.1 member
    obtain ⟨rfl, rfl⟩ := Prod.mk.inj swapped
    exact List.fst_mem_of_mem_zipIdx present
  · unfold leave
    split
    · exact .freeze last.txn [] .inDoubt
    · exact .refl _

end Reconcile

/-! ## Each decision resolves once -/

/-- The receipts of a call carry distinct decisions. -/
def Spent (db : Db) : Prop := ∀ key, ((resolutions db key).map fun r => r.2.decisionId).Nodup

variable {H : Hashes} {db db' : Db}

theorem Spent.of_receipts (spent : Spent db)
    (same : ∀ key, resolutions db' key = resolutions db key) : Spent db' := by
  intro key
  rw [same]
  exact spent key

theorem Spent.effect {shown : Shown} (spent : Spent db) (effect : Effect H shown db db') :
    Spent db' := by
  cases effect with
  | aside _ _ _ _ quiet | administer _ _ _ _ _ _ _ quiet => exact spent.of_receipts quiet.receipts
  | reserve inserted | restore inserted => exact spent.of_receipts inserted.quiet.receipts
  | install | pause | resume | cancel => exact spent
  | @suspend _ t _ opened =>
      obtain ⟨-, rfl, -⟩ := openCall_ok opened
      exact spent.of_receipts (Txn.Idle.freeze t [none] .inDoubt).receipts
  | contradict opened done =>
      obtain ⟨-, rfl, -⟩ := openCall_ok opened
      exact spent.of_receipts (Txn.Idle.conflict done).receipts
  | reconcile hashes allowed transacted =>
      obtain ⟨t, t', core, selected, found, opened, -, listed, done, rfl⟩ := transacted
      obtain ⟨-, rfl, atKey, -⟩ := openCall_ok opened
      obtain ⟨count, last, -, guard, idle⟩ := Reconcile.Guard.transact atKey listed done
      intro key
      rw [idle.receipts]
      exact guard.spent key (spent key)

theorem Spent.of_reachable (reach : (accounting H).Reachable db) : Spent db :=
  Reachable.of_effects (fun _ => List.nodup_nil) (fun _ _ _ step spent => spent.effect step) reach

/-! ## No settlement under a contradiction -/

/-- The call a transaction works on is free of conflicts. -/
def Undisputed (db : Db) (key : ReservationKey) (row : Reservation) : Prop :=
  row.state ≠ .conflict ∧ unresolvedConflict db key = false

theorem undisputed_of_soft {R : Reconcile} {row : Reservation} {hazards : List (Reason × Observation)}
    (soft : R.hardConflict db row hazards = false) :
    Undisputed db R.key row ∧ ∀ h ∈ hazards, h.1 = .usageUnknown := by
  simp only [Reconcile.hardConflict, Bool.or_eq_false_iff, beq_eq_false_iff_ne, List.any_eq_false,
    bne_iff_ne, ne_eq, not_not] at soft
  exact ⟨⟨soft.1.1, soft.1.2⟩, soft.2⟩

/-- A settlement `reconcile_v1` inserts was justified by its transaction. -/
theorem inserted_justified {R : Reconcile} {ids : List Id} {s : Settlement}
    (member : s ∈ (R.reconcileV1 ids db).1.settlements) (new : s ∉ db.settlements) :
    ∃ t count, t.db = db ∧ evidencePrefix R.hashes db R.key R.observer.inventory = .ok count ∧
      (∃ call, db.calls.row R.key = some call ∧ call.reservation = some t.row) ∧
      R.justified t count ∧ ∃ e ∈ R.observer.inventory, e.isFinal = true ∧
        e.eventId = s.finalEventId ∧ actual e.usage = .ok s.settled ∧
        ((∃ x ∈ R.observer.inventory.take count, x.eventId = e.eventId) →
          R.resolves t.db t.row (evidenceHazards (Reconcile.knownFinal t.row)
            (R.observer.inventory.drop count)) = true) := by
  obtain ⟨middle, first, second⟩ := reconcileV1_cases R ids db
  have kept : s ∈ middle.settlements := by
    rcases second with same | marked
    · rwa [same] at member
    · simp only [markUnknown, bind_ok] at marked
      obtain ⟨⟨t, core⟩, opened, same⟩ := marked
      obtain ⟨-, rfl, -⟩ := openCall_ok opened
      rw [← Except.ok.inj same] at member
      exact (Txn.Idle.freeze t [none] .inDoubt).settlements ▸ member
  rcases first with rfl | transacted
  · exact absurd kept new
  · obtain ⟨t, t', core, selected, found, opened, -, listed, done, rfl⟩ := transacted
    obtain ⟨-, rfl, atKey, -, -, call, atCall, reserved, -⟩ := openCall_ok opened
    obtain ⟨count, last, prefixed, guard, idle⟩ := Reconcile.Guard.transact atKey listed done
    rw [idle.settlements] at kept
    rcases guard.inserted s kept with old | cause
    · exact absurd old new
    · exact ⟨t, count, rfl, prefixed, ⟨call, atCall, reserved⟩, cause⟩

/-- **No settlement under a contradiction.**  Let `reconcile_v1` insert a
settlement, in any reachable state and for any inventory.  Under a run context the
unretired inventory is consistent, the call was undisputed, and the amount is that
of a final in it (which all finals share, unless it is a `ZERO_PROVEN`).  Under a
recovery context, any contradiction means that no receipt carries the decision yet,
and one beyond unknown usage means that the caller named the decision.  No two
receipts of a call carry the same decision. -/
theorem no_settlement_under_contradiction {R : Reconcile} {ids : List Id} {db : Db}
    (reach : (accounting R.hashes).Reachable db) :
    (∀ s ∈ (R.reconcileV1 ids db).1.settlements, s ∉ db.settlements →
      ∃ count call row, evidencePrefix R.hashes db R.key R.observer.inventory = .ok count ∧
        db.calls.row R.key = some call ∧ call.reservation = some row ∧
        (∀ ctx, R.ctx = .run ctx → Consistent (R.observer.inventory.drop count) ∧
          Undisputed db R.key row ∧
          ∃ e ∈ R.observer.inventory.drop count, e.isFinal = true ∧ e.eventId = s.finalEventId ∧
            actual e.usage = .ok s.settled ∧
            (e.kind = .finalUsage → ∀ f ∈ R.observer.inventory.drop count, f.kind = .finalUsage →
              actual f.usage = .ok s.settled)) ∧
        ∀ ctx, R.ctx = .recovery ctx →
          (¬ (Consistent (R.observer.inventory.drop count) ∧ Undisputed db R.key row) →
            ∀ r ∈ resolutions db R.key, r.2.decisionId ≠ ctx.recoveryDecisionId) ∧
          (¬ (Soft (R.observer.inventory.drop count) ∧ Undisputed db R.key row) →
            R.recoveryDecision = some ctx.recoveryDecisionId)) ∧
    ∀ key, ((resolutions db key).map fun r => r.2.decisionId).Nodup := by
  refine ⟨?_, Spent.of_reachable reach⟩
  intro s member new
  obtain ⟨t, count, rfl, prefixed, ⟨call, atCall, reserved⟩, cause, e, listed, final, named, paid,
    early⟩ := inserted_justified member new
  refine ⟨count, call, t.row, prefixed, atCall, reserved, ?_, ?_⟩
  · intro ctx run
    have ordinary : ∀ hazards, R.resolves t.db t.row hazards = false := by
      intro hazards
      simp [Reconcile.resolves, run]
    obtain ⟨none_, soft⟩ : _ ∧ _ := cause.resolve_right (by simp [ordinary])
    have consistent := consistent_of_hazards none_
    obtain ⟨value, common⟩ := consistent.common
    have unretired : e ∈ R.observer.inventory.drop count := by
      rw [← List.take_append_drop count R.observer.inventory] at listed
      rcases List.mem_append.1 listed with retired | live
      · have going := early ⟨e, retired, rfl⟩
        rw [ordinary] at going
        cases going
      · exact live
    refine ⟨consistent, (undisputed_of_soft soft).1, e, unretired, final, named, paid, ?_⟩
    intro kind f present isFinal
    have agreed := common e unretired kind (consistent.known e unretired kind)
    rw [common f present isFinal (consistent.known f present isFinal), ← agreed, paid]
  · intro ctx recovery
    rcases cause with ⟨none_, soft⟩ | going
    · have consistent := consistent_of_hazards none_
      obtain ⟨undisputed, -⟩ := undisputed_of_soft soft
      exact ⟨fun disputed => absurd ⟨consistent, undisputed⟩ disputed,
        fun disputed => absurd ⟨consistent.toSoft, undisputed⟩ disputed⟩
    · refine ⟨fun _ => Reconcile.resolves_unused going ctx recovery, fun disputed => ?_⟩
      have hard : R.hardConflict t.db t.row (evidenceHazards (Reconcile.knownFinal t.row)
          (R.observer.inventory.drop count)) = true := by
        by_contra soft
        obtain ⟨undisputed, unknown⟩ := undisputed_of_soft (by simpa using soft)
        exact disputed ⟨soft_of_hazards unknown, undisputed⟩
      simp only [Reconcile.resolves, recovery, hard, Bool.and_eq_true] at going
      simpa using going.1.2

/-! ## Poles -/

/-- A run that settles the one final of its inventory. -/
def settlingRun : Reconcile :=
  ⟨sampleHashes, fun n => 10 + n, .run (sampleRun 1), sampleKey 1,
    steadyObserver [sampleObservation 1 30 .finalUsage (sampleUsage 100 hundred_le_maxN)], none⟩

theorem no_settlement_under_contradiction_settling_run :
    ∃ s ∈ (settlingRun.reconcileV1 [30] (Db.after sampleHashes firstCall)).1.settlements,
      s.settled .tokens = 100 ∧ ∃ count call row,
        evidencePrefix sampleHashes (Db.after sampleHashes firstCall) (sampleKey 1)
          settlingRun.observer.inventory = .ok count ∧
        (Db.after sampleHashes firstCall).calls.row (sampleKey 1) = some call ∧
        call.reservation = some row ∧ Consistent (settlingRun.observer.inventory.drop count) ∧
        Undisputed (Db.after sampleHashes firstCall) (sampleKey 1) row := by
  have first : ∃ s, (settlingRun.reconcileV1 [30]
      (Db.after sampleHashes firstCall)).1.settlements.head? = some s ∧ s.settled .tokens = 100 :=
    ⟨_, rfl, rfl⟩
  obtain ⟨s, head, amount⟩ := first
  have member := List.mem_of_head? head
  have reach : (accounting settlingRun.hashes).Reachable (Db.after sampleHashes firstCall) :=
    reachable_after sampleHashes firstCall
  obtain ⟨count, call, row, prefixed, atCall, reserved, ordinary, -⟩ :=
    (no_settlement_under_contradiction reach).1 s member List.not_mem_nil
  obtain ⟨consistent, undisputed, -⟩ := ordinary (sampleRun 1) rfl
  exact ⟨s, member, amount, count, call, row, prefixed, atCall, reserved, consistent, undisputed⟩

/-- A recovery that names no decision, over a known and an unknown final. -/
def silentRecovery : Reconcile :=
  ⟨sampleHashes, fun n => 60 + n, .recovery ⟨sampleScope, sampleKey 1, 77, 9, 2⟩, sampleKey 1,
    steadyObserver [sampleObservation 1 31 .finalUsage (sampleUsage 100 hundred_le_maxN),
      sampleObservation 1 32 .finalUsage .unknown], none⟩

/-- The first call, taken over by recovery decision 77. -/
def recoveredCall : List Op := firstCall ++ [.recoverCall sampleScope (sampleKey 1) 77 1 9 true]

/-- A proof of zero that reports 7 tokens. -/
def nonzeroProof : Reconcile :=
  ⟨sampleHashes, fun n => 10 + n, .run (sampleRun 1), sampleKey 1,
    steadyObserver [sampleObservation 1 30 .zeroProven (sampleUsage 7 seven_le_maxN)], none⟩

/-- Unknown usage alone needs no named decision, and a `ZERO_PROVEN` settles what
its own usage says. -/
theorem settlement_beside_unknown_usage :
    ((accounting sampleHashes).Reachable (Db.after sampleHashes recoveredCall) ∧
      evidencePrefix sampleHashes (Db.after sampleHashes recoveredCall) (sampleKey 1)
        silentRecovery.observer.inventory = .ok 0 ∧
      (∃ e ∈ silentRecovery.observer.inventory.drop 0, e.kind = .finalUsage ∧ e.usage = .unknown) ∧
      silentRecovery.ctx = .recovery ⟨sampleScope, sampleKey 1, 77, 9, 2⟩ ∧
      silentRecovery.recoveryDecision ≠ some 77 ∧
      ∃ s ∈ (silentRecovery.reconcileV1 [31] (Db.after sampleHashes recoveredCall)).1.settlements,
        s ∉ (Db.after sampleHashes recoveredCall).settlements) ∧
    (accounting sampleHashes).Reachable (Db.after sampleHashes firstCall) ∧
      nonzeroProof.ctx = .run (sampleRun 1) ∧
      ∃ s ∈ (nonzeroProof.reconcileV1 [30] (Db.after sampleHashes firstCall)).1.settlements,
        s ∉ (Db.after sampleHashes firstCall).settlements ∧ s.state = .zero ∧
          s.settled .tokens = 7 := by
  refine ⟨⟨reachable_after _ _, rfl, ⟨_, List.mem_cons_of_mem _ List.mem_cons_self, rfl, rfl⟩, rfl,
    by decide, ?_⟩, reachable_after _ _, rfl, ?_⟩
  · have first : ∃ s, (silentRecovery.reconcileV1 [31]
        (Db.after sampleHashes recoveredCall)).1.settlements.head? = some s := ⟨_, rfl⟩
    obtain ⟨s, head⟩ := first
    exact ⟨s, List.mem_of_head? head, List.not_mem_nil⟩
  · have first : ∃ s, (nonzeroProof.reconcileV1 [30]
        (Db.after sampleHashes firstCall)).1.settlements.head? = some s ∧ s.state = .zero ∧
          s.settled .tokens = 7 := ⟨_, rfl, rfl, rfl⟩
    obtain ⟨s, head, zero, amount⟩ := first
    exact ⟨s, List.mem_of_head? head, List.not_mem_nil, zero, amount⟩

end ApiSecurityPlatform.Accounting
