/-
# Accounting.Liability -- an unknown call keeps its reserve

A reservation leaves `SETTLED` only through a freeze, and a freeze that re-holds
anything at all re-holds the whole reserve, unless it does not fit beside the other
calls (`Txn.Covered`).  No move changes what the other calls hold, so the excuse
stands to the end of the transaction.

Two paths of `reconcile_v1` freeze without re-holding.  The blocked branch re-holds
the finals and conflicts of the unretired inventory only: with none of them there
(`Reconcile.Unbacked`), a settled call becomes a conflict that holds nothing.  And a
recovery that resolves skips the blocked branch, whether or not it then settles.
-/
import ApiSecurityPlatform.Accounting.Contradiction

namespace ApiSecurityPlatform.Accounting

open ApiSecurityPlatform.Theory

set_option autoImplicit false

/-- The reservation row of a key. -/
def Db.Holds (db : Db) (key : ReservationKey) (row : Reservation) : Prop :=
  ∃ call, db.calls.row key = some call ∧ call.reservation = some row

theorem Db.Holds.unique {db : Db} {key : ReservationKey} {row row' : Reservation}
    (first : db.Holds key row) (second : db.Holds key row') : row = row' := by
  obtain ⟨call, found, reserved⟩ := first
  obtain ⟨call', found', reserved'⟩ := second
  obtain rfl := Option.some.inj (found.symm.trans found')
  exact Option.some.inj (reserved.symm.trans reserved')

/-- Holding `amount` for the call in place of what it holds would push one of its
two balances above `MAX_N`. -/
def Crowded (db : Db) (key : ReservationKey) (row : Reservation) (d : Dimension) (amount : Int) : Prop :=
  ∃ kind b, db.budgets.row (balanceId key.scope kind) = some b ∧
    maxN < b.balance.held d - row.held d + amount

/-! ## One transaction -/

namespace Txn

variable {t t' t₀ : Txn} {d : Dimension}

/-- The whole reserve is held, or does not fit beside the other calls. -/
def Covered (t : Txn) (d : Dimension) : Prop :=
  t.row.receipt.reserved d ≤ t.row.held d ∨ t.overflows d (t.row.receipt.reserved d)

theorem overflows_congr (others : t'.others d = t.others d) (amount : Int) :
    t'.overflows d amount ↔ t.overflows d amount := by
  simp only [Txn.others, Prod.mk.injEq] at others
  unfold overflows
  constructor <;> rintro (above | above) <;> omega

/-- A step that settles nothing and lets go of nothing. -/
structure Firm (t t' : Txn) : Prop where
  others : ∀ d, t'.others d = t.others d
  receipt : t'.row.receipt = t.row.receipt
  actual : t'.row.actual = t.row.actual
  held : ∀ d, t.row.held d ≤ t'.row.held d
  state : t'.row.state = .settled → t.row.state = .settled

theorem Firm.trans {u : Txn} (first : t.Firm u) (second : u.Firm t') : t.Firm t' :=
  ⟨fun d => (second.others d).trans (first.others d), second.receipt.trans first.receipt,
    second.actual.trans first.actual, fun d => (first.held d).trans (second.held d),
    fun settled => first.state (second.state settled)⟩

theorem Covered.firm (covered : t.Covered d) (firm : t.Firm t') : t'.Covered d := by
  unfold Covered
  rw [firm.receipt, overflows_congr (firm.others d)]
  rcases covered with enough | crowded
  · exact .inl (enough.trans (firm.held d))
  · exact .inr crowded

/-- **Every `_retain` covers the reserve.** -/
theorem covered_retain (t : Txn) (incoming : Option Observation) (d : Dimension) :
    (t.retain incoming).Covered d := by
  unfold Covered
  rw [overflows_congr (t.others_retain incoming d)]
  show t.row.receipt.reserved d ≤ t.retained incoming d ∨ _
  have reserve : max (t.row.held d) (t.row.receipt.reserved d) ≤ t.wanted incoming d := by
    unfold wanted
    split
    · exact le_max_left _ _
    · exact le_rfl
  unfold retained
  split
  · dsimp only
    split
    · rename_i above
      rcases le_total (t.row.receipt.reserved d) (t.row.held d) with enough | short
      · exact .inl enough
      · rw [max_eq_right short] at above
        exact .inr above
    · exact .inl (le_max_right _ _)
  · exact .inl ((le_max_right _ _).trans reserve)

theorem Firm.retains (t : Txn) (kept : List (Option Observation)) :
    t.Firm (kept.foldl Txn.retain t) := by
  induction kept generalizing t with
  | nil => exact ⟨fun _ => rfl, rfl, rfl, fun _ => le_rfl, id⟩
  | cons incoming rest ih =>
      have first : t.Firm (t.retain incoming) :=
        ⟨t.others_retain incoming, rfl, rfl, t.le_retained incoming, id⟩
      exact first.trans (ih (t.retain incoming))

theorem covered_retains (t : Txn) {kept : List (Option Observation)} (some_ : kept ≠ []) (d : Dimension) :
    (kept.foldl Txn.retain t).Covered d := by
  cases kept with
  | nil => exact absurd rfl some_
  | cons incoming rest => exact (t.covered_retain incoming d).firm (.retains _ rest)

/-- A pause never settles. -/
theorem pause_unsettled (t : Txn) {state : ReservationState} (unsettled : state ≠ .settled) :
    (t.pause state).row.state ≠ .settled := by
  rw [pause_row]
  dsimp only
  split
  · decide
  · exact unsettled

theorem Firm.freeze (t : Txn) (kept : List (Option Observation)) {state : ReservationState}
    (unsettled : state ≠ .settled) : t.Firm ((kept.foldl Txn.retain t).pause state) := by
  have retained := Firm.retains t kept
  exact ⟨retained.others, retained.receipt, retained.actual, retained.held,
    fun settled => absurd settled (pause_unsettled _ unsettled)⟩

theorem Firm.event {uuid : Uuids} {kind : EventKind} {record : EventRecord} {eventId : Option Id}
    {recovery : Bool} (written : t.event uuid kind record eventId recovery = .ok t') : t.Firm t' := by
  obtain ⟨draws, rfl⟩ | ⟨eid, draws, -, -, rfl⟩ := event_cases written <;>
    exact ⟨fun _ => rfl, rfl, rfl, fun _ => le_rfl, id⟩

/-- `_conflict` records its evidence, re-holds the reserve and pauses. -/
theorem conflict_firm {uuid : Uuids} {existing incoming : Id} {reason : Reason}
    {record : Option Observation} (done : t.conflict uuid existing incoming reason record = .ok t') :
    t.Firm t' ∧ (∀ d, t'.Covered d) ∧ t'.row.state ≠ .settled := by
  simp only [conflict, bind_ok] at done
  obtain ⟨u, recorded, same⟩ := done
  obtain rfl := Except.ok.inj same
  have evidence : t.Firm u := by
    simp only [recordConflict] at recorded
    split at recorded
    · simp only [bind_ok, require_ok] at recorded
      obtain ⟨-, -, written⟩ := recorded
      have noted : t.Firm { t with
          draws := t.draws + 1
          db := { t.db with conflicts := t.db.conflicts ++
            [⟨uuid t.draws, t.key, existing, incoming, reason⟩] } } :=
        ⟨fun _ => rfl, rfl, rfl, fun _ => le_rfl, id⟩
      exact noted.trans (.event written)
    · obtain rfl := Except.ok.inj recorded
      exact ⟨fun _ => rfl, rfl, rfl, fun _ => le_rfl, id⟩
  have unsettled : ReservationState.conflict ≠ .settled := by decide
  exact ⟨evidence.trans (.freeze u [record] unsettled), u.covered_retain record,
    pause_unsettled _ unsettled⟩

/-- Where a transaction that found the call as `t₀` has it: settled, covered, or
unsettled all along with the hold it was found with. -/
structure Holding (t₀ : Txn) (d : Dimension) (t : Txn) : Prop where
  receipt : t.row.receipt = t₀.row.receipt
  held : t.row.state = .settled ∨ t.Covered d ∨
    t₀.row.state ≠ .settled ∧ t.row.held d = t₀.row.held d

namespace Holding

theorem refl (t : Txn) (d : Dimension) : t.Holding d t := by
  refine ⟨rfl, ?_⟩
  by_cases settled : t.row.state = .settled
  · exact .inl settled
  · exact .inr (.inr ⟨settled, rfl⟩)

/-- A step on other columns. -/
theorem plain (holding : t₀.Holding d t) (firm : t.Firm t') (held : t'.row.held = t.row.held)
    (state : t.row.state = .settled → t'.row.state = .settled) : t₀.Holding d t' := by
  refine ⟨firm.receipt.trans holding.receipt, ?_⟩
  rcases holding.held with settled | covered | ⟨unsettled, same⟩
  · exact .inl (state settled)
  · exact .inr (.inl (covered.firm firm))
  · exact .inr (.inr ⟨unsettled, by rw [held, same]⟩)

theorem event {uuid : Uuids} {kind : EventKind} {record : EventRecord} {eventId : Option Id}
    {recovery : Bool} (holding : t₀.Holding d t)
    (written : t.event uuid kind record eventId recovery = .ok t') : t₀.Holding d t' := by
  have firm := Firm.event written
  obtain ⟨draws, rfl⟩ | ⟨eid, draws, -, -, rfl⟩ := event_cases written <;>
    exact holding.plain firm rfl id

/-- A step that covers the reserve. -/
theorem cover (holding : t₀.Holding d t) (firm : t.Firm t') (covered : t'.Covered d) :
    t₀.Holding d t' :=
  ⟨firm.receipt.trans holding.receipt, .inr (.inl covered)⟩

/-- A freeze that re-holds something. -/
theorem freeze (holding : t₀.Holding d t) {kept : List (Option Observation)} (some_ : kept ≠ [])
    {state : ReservationState} (unsettled : state ≠ .settled) :
    t₀.Holding d ((kept.foldl Txn.retain t).pause state) :=
  holding.cover (.freeze t kept unsettled) (t.covered_retains some_ d)

theorem conflict {uuid : Uuids} {existing incoming : Id} {reason : Reason} {record : Option Observation}
    (holding : t₀.Holding d t) (done : t.conflict uuid existing incoming reason record = .ok t') :
    t₀.Holding d t' := by
  obtain ⟨firm, covered, -⟩ := conflict_firm done
  exact holding.cover firm (covered d)

theorem settle {H : Hashes} {uuid : Uuids} {event : Observation} {value : Amount} {record : Settlement}
    (holding : t₀.Holding d t) (done : t.settle H uuid event value = .ok (t', record)) :
    t₀.Holding d t' := by
  obtain ⟨-, -, -, -, -, -, row, -⟩ := settle_ok done
  refine ⟨?_, .inl ?_⟩
  · rw [row]
    exact holding.receipt
  · rw [row]

end Holding

/-- The call bears an amount as settled and held, or the rest of it does not fit. -/
def Bears (t : Txn) (value : Amount) (d : Dimension) : Prop :=
  value d ≤ t.row.actual d + t.row.held d ∨
    t.overflows d (max (t.row.receipt.reserved d) (value d - t.row.actual d))

theorem Bears.firm {value : Amount} (bears : t.Bears value d) (firm : t.Firm t') : t'.Bears value d := by
  unfold Bears
  rw [firm.receipt, firm.actual, overflows_congr (firm.others d)]
  rcases bears with enough | crowded
  · exact .inl (enough.trans (Int.add_le_add_left (firm.held d) _))
  · exact .inr crowded

/-- **Re-holding a known amount bears it.** -/
theorem bears_retain (t : Txn) {o : Observation} {value : Amount} (paid : Accounting.actual o.usage = .ok value)
    (d : Dimension) : (t.retain (some o)).Bears value d := by
  unfold Bears
  rw [overflows_congr (t.others_retain (some o) d)]
  show value d ≤ t.row.actual d + t.retained (some o) d ∨
    t.overflows d (max (t.row.receipt.reserved d) (value d - t.row.actual d))
  have wanted : t.wanted (some o) d =
      max (max (t.row.held d) (t.row.receipt.reserved d)) (value d - t.row.actual d) := by
    simp only [Txn.wanted, Option.map_some, paid]
  have kept := t.le_retained (some o) d
  rcases le_total (max (t.row.receipt.reserved d) (value d - t.row.actual d)) (t.row.held d)
    with small | large
  · left
    omega
  · have whole : t.wanted (some o) d = max (t.row.receipt.reserved d) (value d - t.row.actual d) := by
      rw [wanted]
      omega
    rw [← whole]
    unfold retained
    split
    · rename_i above
      exact .inr above
    · left
      omega

theorem bears_retains (t : Txn) {kept : List (Option Observation)} {o : Observation} {value : Amount}
    (member : some o ∈ kept) (paid : Accounting.actual o.usage = .ok value) (d : Dimension) :
    (kept.foldl Txn.retain t).Bears value d := by
  induction kept generalizing t with
  | nil => cases member
  | cons incoming rest ih =>
      rcases List.mem_cons.1 member with rfl | member
      · exact (t.bears_retain paid d).firm (.retains _ rest)
      · exact ih (t.retain incoming) member

end Txn

/-! ## `reconcile_v1` keeps what it does not settle -/

namespace Reconcile

variable {R : Reconcile} {t t' t₀ : Txn} {d : Dimension} {event : Observation} {loop loop' : Loop}

theorem copied_firm {t u : Txn} {copies : List ObservationCopy} {kind : EventKind}
    {record : EventRecord} {eventId : Option Id} {recovery : Bool}
    (written : ({ t with db := { t.db with copies := copies } } : Txn).event R.uuid kind record eventId
      recovery = .ok u) : t.Firm u := by
  have noted : t.Firm { t with db := { t.db with copies := copies } } :=
    ⟨fun _ => rfl, rfl, rfl, fun _ => le_rfl, id⟩
  exact noted.trans (.event written)

theorem close_firm (t : Txn) (event : Observation) : t.Firm (close t event) := by
  unfold close
  split <;> exact ⟨fun _ => rfl, rfl, rfl, fun _ => le_rfl, id⟩

theorem Pass.holding (pass : R.Pass event loop loop') (holding : t₀.Holding d loop.txn) :
    t₀.Holding d loop'.txn := by
  have kept : [some event] ≠ [] := List.cons_ne_nil _ _
  cases pass with
  | copied written =>
      have noted : t₀.Holding d { loop.txn with
          db := { loop.txn.db with copies := loop.txn.db.copies ++ [⟨R.key, event⟩] } } :=
        holding.plain ⟨fun _ => rfl, rfl, rfl, fun _ => le_rfl, id⟩ rfl id
      exact noted.event written
  | closed stream =>
      refine holding.plain (close_firm loop.txn event) ?_ ?_
      · unfold close
        split <;> rfl
      · unfold close
        split <;> exact id
  | contradicted done => exact holding.conflict done
  | exhausted => exact holding.freeze kept (by decide)
  | unknown => exact holding.freeze kept (by decide)
  | overflow _ _ _ _ done => exact holding.conflict done
  | recognised => exact holding
  | refused => exact holding
  | settled _ _ _ _ _ _ done => exact holding.settle done
  | resolved _ _ _ _ _ _ done written => exact (holding.settle done).event written

theorem Passes.holding (passes : R.Passes event loop loop') (holding : t₀.Holding d loop.txn) :
    t₀.Holding d loop'.txn := by
  induction passes with
  | refl => exact holding
  | tail _ last ih => exact last.holding ih

theorem hazardStep_holding {resolving : Bool} {state state' : Txn × Bool}
    {hazard : Reason × Observation} (done : R.hazardStep resolving state hazard = .ok state')
    (holding : t₀.Holding d state.1) : t₀.Holding d state'.1 := by
  simp only [hazardStep] at done
  split at done
  · split at done
    · obtain rfl := Except.ok.inj done
      exact holding
    · obtain rfl := Except.ok.inj done
      have kept : [some hazard.2] ≠ [] := List.cons_ne_nil _ _
      exact holding.freeze kept (by decide)
  · simp only [bind_ok] at done
    obtain ⟨u, conflicted, same⟩ := done
    obtain rfl := Except.ok.inj same
    exact holding.conflict conflicted

/-- A hazard that is not skipped leaves the call unsettled. -/
theorem hazardStep_unsettled {state state' : Txn × Bool} {hazard : Reason × Observation}
    (done : R.hazardStep false state hazard = .ok state') : state'.1.row.state ≠ .settled := by
  simp only [hazardStep] at done
  split at done
  · obtain rfl := Except.ok.inj done
    exact Txn.pause_unsettled _ (by decide)
  · simp only [bind_ok] at done
    obtain ⟨u, conflicted, same⟩ := done
    obtain rfl := Except.ok.inj same
    exact (Txn.conflict_firm conflicted).2.2

theorem hazards_unsettled {state state' : Txn × Bool} {hazards : List (Reason × Observation)}
    (some_ : hazards ≠ []) (folded : hazards.foldlM (R.hazardStep false) state = .ok state') :
    state'.1.row.state ≠ .settled := by
  cases hazards with
  | nil => exact absurd rfl some_
  | cons hazard rest =>
      simp only [List.foldlM_cons, bind_ok] at folded
      obtain ⟨middle, first, folded⟩ := folded
      exact foldlM_ok (I := fun state => state.1.row.state ≠ .settled)
        (fun _ _ _ _ _ step => hazardStep_unsettled step) folded (hazardStep_unsettled first)

/-- The blocked branch finds a settled call in conflict with nothing to re-hold. -/
def unbacked (R : Reconcile) (db : Db) (row : Reservation) (rest : List Observation) : Prop :=
  row.state = .settled ∧ unresolvedConflict db R.key = true ∧ R.resolves db row [] = false ∧
    ∀ o ∈ rest, o.kind ≠ .finalUsage ∧ o.kind ≠ .conflict ∧ o.kind ≠ .coverageGap

theorem kinds_of_no_hazards {rest : List Observation} {known : Option Amount}
    (none_ : evidenceHazards known rest = []) : ∀ o ∈ rest, o.kind ≠ .coverageGap := by
  induction rest generalizing known with
  | nil => simp
  | cons e rest ih =>
      intro o member
      simp only [evidenceHazards] at none_
      rcases List.mem_cons.1 member with rfl | member
      · intro gap
        rw [gap] at none_
        cases none_
      · split at none_
        · cases none_
        · cases none_
        · split at none_
          · split at none_
            · cases none_
            · split at none_
              · exact ih none_ o member
              · cases none_
          · cases none_
        · exact ih none_ o member

theorem block_holding (holding : t₀.Holding d t) (rest : List Observation) (hard : Bool)
    (backed : liabilities rest = [] → t.row.state ≠ .settled) :
    t₀.Holding d (block t rest hard) := by
  have unsettled : (if hard then ReservationState.conflict else .inDoubt) ≠ .settled := by
    cases hard <;> decide
  unfold block
  rw [foldl_retain]
  by_cases nothing : liabilities rest = []
  · rw [nothing]
    exact holding.plain (.freeze t [] unsettled) rfl fun settled => absurd settled (backed nothing)
  · exact holding.freeze (by simpa using nothing) unsettled

theorem enter_holding {count : Nat} (done : R.enter t count = .ok loop)
    (backed : ¬ R.unbacked t.db t.row (R.observer.inventory.drop count)) : t.Holding d loop.txn := by
  simp only [enter, bind_ok] at done
  obtain ⟨⟨u, found⟩, folded, same⟩ := done
  obtain rfl := Except.ok.inj same
  have hazards : t.Holding d u :=
    foldlM_ok (I := fun state => t.Holding d state.1)
      (fun _ _ _ _ holding step => hazardStep_holding step holding) folded (.refl t d)
  show t.Holding d (if _ then _ else _)
  split
  · rename_i blocked
    simp only [Bool.and_eq_true, Bool.or_eq_true, Bool.not_eq_true'] at blocked
    refine block_holding hazards _ _ fun nothing => ?_
    rw [blocked.2] at folded
    by_cases none_ : evidenceHazards (knownFinal t.row) (R.observer.inventory.drop count) = []
    · -- no hazard: the call is as it was found, and in conflict
      rw [none_] at folded
      obtain ⟨rfl, -⟩ := Prod.mk.inj (Except.ok.inj folded)
      intro settled
      refine backed ⟨settled, ?_, none_ ▸ blocked.2, ?_⟩
      · have hard := blocked.1
        simpa [none_, hardConflict, settled] using hard
      · intro o member
        have unlisted : o ∉ liabilities (R.observer.inventory.drop count) := by
          rw [nothing]
          exact List.not_mem_nil
        simp only [liabilities, List.mem_filter, decide_eq_true_eq, not_and, not_or] at unlisted
        exact ⟨(unlisted member).1, (unlisted member).2, kinds_of_no_hazards none_ o member⟩
    · exact hazards_unsettled none_ folded
  · exact hazards

/-- **What the transaction does not settle, it keeps.** -/
theorem transact_holding {core : BindingCore} {selected : List Observation} {found : Bool}
    (done : R.transact t core selected = .ok (t', found))
    (backed : ∀ count, evidencePrefix R.hashes t.db R.key R.observer.inventory = .ok count →
      ¬ R.unbacked t.db t.row (R.observer.inventory.drop count)) : t.Holding d t' := by
  simp only [transact, bind_ok] at done
  obtain ⟨-, -, count, prefixed, start, entered, -, -, last, folded, same⟩ := done
  obtain ⟨rfl, rfl⟩ := Prod.mk.inj (Except.ok.inj same)
  have loops : t.Holding d last.txn :=
    foldlM_ok (I := fun loop => t.Holding d loop.txn)
      (fun _ _ _ _ holding step => (selectStep_passes step).holding holding) folded
      (enter_holding entered (backed count prefixed))
  unfold leave
  split
  · rename_i undecided
    exact loops.plain (.freeze last.txn [] (by decide)) rfl fun settled => absurd settled undecided.2.2
  · exact loops

/-! ## A blocked call bears every known amount -/

/-- A call the hazards have blocked: unsettled, and bearing the known amounts of the
unretired inventory. -/
structure Frozen (rest : List Observation) (loop : Loop) : Prop where
  blocked : loop.blocked = true
  unsettled : loop.txn.row.state ≠ .settled
  borne : ∀ o ∈ liabilities rest, ∀ value, actual o.usage = .ok value → ∀ d, loop.txn.Bears value d

theorem Frozen.firm {rest : List Observation} (frozen : Frozen rest loop)
    (firm : loop.txn.Firm loop'.txn) (blocked : loop'.blocked = true) : Frozen rest loop' :=
  ⟨blocked, fun settled => frozen.unsettled (firm.state settled),
    fun o member value paid d => (frozen.borne o member value paid d).firm firm⟩

/-- A blocked loop settles nothing. -/
theorem Frozen.pass {rest : List Observation} (frozen : Frozen rest loop)
    (pass : R.Pass event loop loop') : Frozen rest loop' := by
  have shut (opened : loop.blocked = false) : False := by
    rw [frozen.blocked] at opened
    cases opened
  cases pass with
  | copied written => exact frozen.firm (copied_firm written) frozen.blocked
  | closed stream => exact frozen.firm (close_firm loop.txn event) frozen.blocked
  | contradicted done => exact frozen.firm (Txn.conflict_firm done).1 rfl
  | exhausted => exact frozen.firm (.freeze loop.txn [some event] (by decide)) rfl
  | unknown opened => exact (shut opened).elim
  | overflow opened => exact (shut opened).elim
  | recognised => exact frozen.firm ⟨fun _ => rfl, rfl, rfl, fun _ => le_rfl, id⟩ frozen.blocked
  | refused => exact frozen.firm ⟨fun _ => rfl, rfl, rfl, fun _ => le_rfl, id⟩ frozen.blocked
  | settled opened => exact (shut opened).elim
  | resolved opened => exact (shut opened).elim

theorem Frozen.passes {rest : List Observation} (frozen : Frozen rest loop)
    (passes : R.Passes event loop loop') : Frozen rest loop' := by
  induction passes with
  | refl => exact frozen
  | tail _ last ih => exact ih.pass last

theorem Frozen.enter {count : Nat} (done : R.enter t count = .ok loop)
    (hazardous : evidenceHazards (knownFinal t.row) (R.observer.inventory.drop count) ≠ [])
    (unresolving : R.resolves t.db t.row (evidenceHazards (knownFinal t.row)
      (R.observer.inventory.drop count)) = false) :
    Frozen (R.observer.inventory.drop count) loop := by
  simp only [Reconcile.enter, bind_ok] at done
  obtain ⟨⟨u, found⟩, folded, same⟩ := done
  obtain rfl := Except.ok.inj same
  have blocked (hard : Bool) : ((!(evidenceHazards (knownFinal t.row)
      (R.observer.inventory.drop count)).isEmpty || hard) && !R.resolves t.db t.row (evidenceHazards
        (knownFinal t.row) (R.observer.inventory.drop count))) = true := by
    rw [unresolving]
    simp [hazardous]
  have unsettled (hard : Bool) : (if hard then ReservationState.conflict else .inDoubt) ≠ .settled := by
    cases hard <;> decide
  refine ⟨blocked _, ?_, ?_⟩
  · simp only [blocked, if_true]
    exact Txn.pause_unsettled _ (unsettled _)
  · intro o member value paid d
    simp only [blocked, if_true]
    unfold block
    rw [foldl_retain]
    have kept : some o ∈ (liabilities (R.observer.inventory.drop count)).map some :=
      List.mem_map_of_mem member
    exact (u.bears_retains kept paid d).firm (.freeze _ [] (unsettled _))

/-- **A transaction the hazards block bears every known amount.** -/
theorem transact_frozen {core : BindingCore} {selected : List Observation} {found : Bool} {count : Nat}
    (done : R.transact t core selected = .ok (t', found))
    (prefixed : evidencePrefix R.hashes t.db R.key R.observer.inventory = .ok count)
    (hazardous : evidenceHazards (knownFinal t.row) (R.observer.inventory.drop count) ≠ [])
    (unresolving : R.resolves t.db t.row (evidenceHazards (knownFinal t.row)
      (R.observer.inventory.drop count)) = false) :
    t'.row.state ≠ .settled ∧ ∀ o ∈ liabilities (R.observer.inventory.drop count), ∀ value,
      actual o.usage = .ok value → ∀ d, t'.Bears value d := by
  simp only [transact, bind_ok] at done
  obtain ⟨-, -, count', prefixed', start, entered, -, -, last, folded, same⟩ := done
  obtain ⟨rfl, rfl⟩ := Prod.mk.inj (Except.ok.inj same)
  obtain rfl := Except.ok.inj (prefixed.symm.trans prefixed')
  have frozen : Frozen (R.observer.inventory.drop count) last :=
    foldlM_ok (I := Frozen (R.observer.inventory.drop count))
      (fun _ _ _ _ frozen step => frozen.passes (selectStep_passes step)) folded
      (.enter entered hazardous unresolving)
  have firm : last.txn.Firm (leave last) := by
    unfold leave
    split
    · exact .freeze last.txn [] (by decide)
    · exact ⟨fun _ => rfl, rfl, rfl, fun _ => le_rfl, id⟩
  exact ⟨fun settled => frozen.unsettled (firm.state settled),
    fun o member value paid d => (frozen.borne o member value paid d).firm firm⟩

end Reconcile

/-! ## The tables -/

namespace Txn.Over

variable {base : Db} {call : Call} {t : Txn} {d : Dimension}

theorem holds (upon : t.Over base call) : t.db.Holds t.key t.row :=
  ⟨{ call with reservation := some t.row }, by rw [upon.calls, Table.row_put_self], rfl⟩

theorem elsewhere (upon : t.Over base call) {key : ReservationKey} {row : Reservation}
    (other : key ≠ t.key) (holds : t.db.Holds key row) : base.Holds key row := by
  obtain ⟨c, found, reserved⟩ := holds
  rw [upon.calls, Table.row_put_of_ne _ _ other] at found
  exact ⟨c, found, reserved⟩

theorem crowded (upon : t.Over base call) {amount : Int} (above : t.overflows d amount) :
    Crowded t.db t.key t.row d amount := by
  rcases above with account | task
  · refine ⟨.account, ⟨t.accountPolicy, t.account⟩, ?_, ?_⟩
    · rw [upon.budgets]
      exact (Table.row_put_of_ne _ _ (accountId_ne_taskId t)).trans (Table.row_put_self _ _ _)
    · show maxN < t.account.held d - t.row.held d + amount
      omega
  · refine ⟨.task, ⟨t.taskPolicy, t.task⟩, ?_, ?_⟩
    · rw [upon.budgets]
      exact Table.row_put_self _ _ _
    · show maxN < t.task.held d - t.row.held d + amount
      omega

end Txn.Over

/-- Every balance of `db` is still there and holds at least as much. -/
def Grows (db db' : Db) : Prop :=
  ∀ id b, db.budgets.row id = some b → ∃ b', db'.budgets.row id = some b' ∧
    ∀ d, b.balance.held d ≤ b'.balance.held d

/-- The whole reserve is held, or does not fit. -/
def Secured (db : Db) (key : ReservationKey) (row : Reservation) (d : Dimension) : Prop :=
  row.receipt.reserved d ≤ row.held d ∨ Crowded db key row d (row.receipt.reserved d)

/-- The same unsettled reservation, with the same hold. -/
structure Reservation.Unmoved (d : Dimension) (row row' : Reservation) : Prop where
  unsettled : row.state ≠ .settled
  receipt : row.receipt = row'.receipt
  held : row.held d = row'.held d

theorem Reservation.Unmoved.trans {d : Dimension} {row row' row'' : Reservation} (first : row.Unmoved d row')
    (second : row'.Unmoved d row'') : row.Unmoved d row'' :=
  ⟨first.unsettled, first.receipt.trans second.receipt, first.held.trans second.held⟩

/-- Every unsettled reservation of `db'` is secured, or was there before. -/
def Carries (db db' : Db) : Prop :=
  ∀ k row d, db'.Holds k row → row.state ≠ .settled →
    Secured db' k row d ∨ ∃ row₀, db.Holds k row₀ ∧ Reservation.Unmoved d row₀ row ∧
      ∀ amount, Crowded db k row₀ d amount → Crowded db' k row d amount

theorem Secured.of_covered {base : Db} {call : Call} {t : Txn} {d : Dimension} (upon : t.Over base call)
    (covered : t.Covered d) : Secured t.db t.key t.row d := by
  rcases covered with enough | above
  · exact .inl enough
  · exact .inr (upon.crowded above)

namespace Carries

variable {H : Hashes} {db db' : Db}

theorem refl (db : Db) : Carries db db :=
  fun _ row _ holds unsettled => .inr ⟨row, holds, ⟨unsettled, rfl, rfl⟩, fun _ => id⟩

theorem trans {middle : Db} (first : Carries db middle) (second : Carries middle db') :
    Carries db db' := by
  intro k row d holds unsettled
  rcases second k row d holds unsettled with secured | ⟨row₁, holds₁, unmoved₁, crowded₁⟩
  · exact .inl secured
  rcases first k row₁ d holds₁ unmoved₁.unsettled with secured | ⟨row₀, holds₀, unmoved₀, crowded₀⟩
  · left
    unfold Secured at secured
    rw [unmoved₁.receipt, unmoved₁.held] at secured
    exact secured.imp_right (crowded₁ _)
  · exact .inr ⟨row₀, holds₀, unmoved₀.trans unmoved₁,
      fun amount crowded => crowded₁ amount (crowded₀ amount crowded)⟩

theorem of_rows (grows : Grows db db')
    (rows : ∀ k row d, db'.Holds k row → row.state ≠ .settled →
      Secured db' k row d ∨ ∃ row₀, db.Holds k row₀ ∧ Reservation.Unmoved d row₀ row) :
    Carries db db' := by
  intro k row d holds unsettled
  rcases rows k row d holds unsettled with secured | ⟨row₀, holds₀, unmoved⟩
  · exact .inl secured
  · refine .inr ⟨row₀, holds₀, unmoved, ?_⟩
    rintro amount ⟨kind, b, found, above⟩
    obtain ⟨b', found', more⟩ := grows _ b found
    refine ⟨kind, b', found', ?_⟩
    have more := more d
    have held := unmoved.held
    omega

end Carries

namespace Grows

variable {db db' : Db}

theorem of_eq (budgets : db'.budgets = db.budgets) : Grows db db' :=
  fun _ b found => ⟨b, budgets ▸ found, fun _ => le_rfl⟩

/-- Two balances are written with at least what they held. -/
theorem put_both {i j : BalanceId} {v w x y : Budget} (first : db.budgets.row i = some v)
    (second : db.budgets.row j = some w) (budgets : db'.budgets = (db.budgets.put i x).put j y)
    (more : ∀ d, v.balance.held d ≤ x.balance.held d)
    (more' : ∀ d, w.balance.held d ≤ y.balance.held d) : Grows db db' := by
  intro id b found
  rw [budgets]
  by_cases last : id = j
  · subst last
    obtain rfl := Option.some.inj (found.symm.trans second)
    exact ⟨y, Table.row_put_self _ _ _, more'⟩
  · rw [Table.row_put_of_ne _ _ last]
    by_cases earlier : id = i
    · subst earlier
      obtain rfl := Option.some.inj (found.symm.trans first)
      exact ⟨x, Table.row_put_self _ _ _, more⟩
    · exact ⟨b, by rw [Table.row_put_of_ne _ _ earlier, found], fun _ => le_rfl⟩

end Grows

section Tables

variable {H : Hashes} {db db' : Db} {key : ReservationKey} {t t' : Txn} {core : BindingCore}
  {uuid : Uuids}

/-- A transaction that covers the reserve carries every other call. -/
theorem Carries.transact (opened : openCall H db key none = .ok (t, core)) (moves : Moves H uuid t t')
    (firm : t.Firm t') (covered : ∀ d, t'.Covered d) : Carries db t'.db := by
  obtain ⟨call, found, reserved, upon⟩ := openCall_over opened
  obtain ⟨-, -, -, atAccount, atTask, -⟩ := openCall_ok opened
  have upon := moves.upon upon
  obtain ⟨sameKey, -⟩ := moves.fixed
  have more (d : Dimension) : t.account.held d ≤ t'.account.held d ∧ t.task.held d ≤ t'.task.held d := by
    have same := firm.others d
    have held := firm.held d
    simp only [Txn.others, Prod.mk.injEq] at same
    omega
  obtain rfl : t.key = key := (openCall_ok opened).2.2.1
  have budgets : t'.db.budgets = (db.budgets.put (balanceId t.key.scope .account)
      ⟨t'.accountPolicy, t'.account⟩).put (balanceId t.key.scope .task) ⟨t'.taskPolicy, t'.task⟩ := by
    rw [upon.budgets, Txn.accountId, Txn.taskId, sameKey]
  refine .of_rows (.put_both atAccount atTask budgets (fun d => (more d).1) fun d => (more d).2) ?_
  intro k row d holds unsettled
  by_cases own : k = t'.key
  · subst own
    obtain rfl := holds.unique upon.holds
    exact .inl (.of_covered upon (covered d))
  · exact .inr ⟨row, upon.elsewhere own holds, unsettled, rfl, rfl⟩

theorem Carries.suspend (opened : openCall H db key none = .ok (t, core)) :
    Carries db ((t.retain none).pause .inDoubt).db := by
  have firm : t.Firm ((t.retain none).pause .inDoubt) := .freeze t [none] (by decide)
  exact .transact opened (.suspend (fun _ => 0) t) firm (t.covered_retain none)

theorem Inserted.carries {row : Reservation} {account task : Budget} {account' task' : Balance}
    (inserted : Inserted db db' key row account task account' task')
    (more : ∀ d, account.balance.held d ≤ account'.held d)
    (more' : ∀ d, task.balance.held d ≤ task'.held d) : Carries db db' := by
  refine .of_rows (.put_both inserted.accountFound inserted.taskFound inserted.budgets more more') ?_
  intro k row' d holds unsettled
  obtain ⟨call, calls, -⟩ := inserted.calls
  obtain ⟨c, found, reserved⟩ := holds
  rw [calls, Table.row_put] at found
  split at found
  · obtain rfl := Option.some.inj found
    obtain rfl := Option.some.inj reserved
    refine .inl (.inl ?_)
    rw [inserted.held]
  · exact .inr ⟨row', ⟨c, found, reserved⟩, unsettled, rfl, rfl⟩

/-- **An effect that is not a reconciliation carries every unsettled call.** -/
theorem Effect.carries (conserved : Conserved db) (effect : Effect H (fun _ _ => False) db db') :
    Carries db db' := by
  cases effect with
  | aside budgets calls =>
      refine .of_rows (.of_eq budgets) fun k row d holds unsettled => ?_
      obtain ⟨c, found, reserved⟩ := holds
      exact .inr ⟨row, ⟨c, calls ▸ found, reserved⟩, unsettled, rfl, rfl⟩
  | @install id policy absent =>
      refine .of_rows (fun j b found => ⟨b, ?_, fun _ => le_rfl⟩) fun k row d holds unsettled =>
        .inr ⟨row, holds, unsettled, rfl, rfl⟩
      have other : j ≠ id := by
        rintro rfl
        rw [absent] at found
        cases found
      exact (Table.row_put_of_ne _ _ other).trans found
  | @reserve _ key row account task now expiry core inserted reserved =>
      have more (b : Balance) (d : Dimension) : b.held d ≤ (b.charge core.reserved).held d := by
        have nonneg := row.receipt.reserved_nonneg d
        rw [reserved] at nonneg
        show b.held d ≤ b.held d + core.reserved d
        omega
      exact inserted.carries (more account.balance) (more task.balance)
  | suspend opened => exact .suspend opened
  | contradict opened done =>
      obtain ⟨firm, covered, -⟩ := Txn.conflict_firm done
      exact .transact opened (.conflict done) firm covered
  | reconcile hashes allowed => exact allowed.elim
  | @administer _ key call row row' found reserved kept calls budgets =>
      refine .of_rows (.of_eq budgets) fun k r d holds unsettled => ?_
      obtain ⟨c, found', reserved'⟩ := holds
      rw [calls, Table.row_put] at found'
      split at found'
      · rename_i same
        subst same
        obtain rfl := Option.some.inj found'
        obtain rfl := Option.some.inj reserved'
        refine .inr ⟨row, ⟨call, found, reserved⟩, ?_, kept.receipt.symm, by rw [kept.held]⟩
        intro settled
        rcases kept.state with same | ⟨early, -⟩
        · exact unsettled (same.trans settled)
        · rw [settled] at early
          rcases early with early | early <;> cases early
      · exact .inr ⟨r, ⟨c, found', reserved'⟩, unsettled, rfl, rfl⟩
  | @restore _ key row account task inserted =>
      have nonneg (d : Dimension) := row.receipt.reserved_nonneg d
      refine inserted.carries (fun d => ?_) fun d => ?_
      · rw [(conserved.held _ _ d inserted.accountFound).1]
        exact Int.le_add_of_nonneg_right (nonneg d)
      · rw [(conserved.held _ _ d inserted.taskFound).1]
        exact Int.le_add_of_nonneg_right (nonneg d)
  | pause chosen =>
      refine .of_rows (fun id b found => ?_) fun k row d holds unsettled =>
        .inr ⟨row, holds, unsettled, rfl, rfl⟩
      refine ⟨_, (Table.row_map _ _ _).trans (by rw [found]; rfl), fun d => ?_⟩
      beta_reduce
      split <;> exact le_rfl
  | @resume id b =>
      refine .of_rows (fun j b' found => ?_) fun k row d holds unsettled =>
        .inr ⟨row, holds, unsettled, rfl, rfl⟩
      refine ⟨_, (Table.row_modify _ _ _ _).trans (by rw [found]; rfl), fun d => ?_⟩
      split <;> exact le_rfl
  | @cancel id generation chosen =>
      refine .of_rows (fun j b' found => ?_) fun k row d holds unsettled => ?_
      · refine ⟨_, (Table.row_modify _ _ _ _).trans (by rw [found]; rfl), fun d => ?_⟩
        split <;> exact le_rfl
      · obtain ⟨c, found, reserved⟩ := holds
        obtain ⟨c₀, before, same⟩ := Option.map_eq_some_iff.1 found
        subst same
        beta_reduce at reserved
        split at reserved
        · obtain ⟨row₀, was, same⟩ := Option.map_eq_some_iff.1 reserved
          subst same
          exact .inr ⟨row₀, ⟨c₀, before, was⟩, unsettled, rfl, rfl⟩
        · exact .inr ⟨row, ⟨c₀, before, reserved⟩, unsettled, rfl, rfl⟩

theorem Effects.carries (conserved : Conserved db) (effects : Effects H (fun _ _ => False) db db') :
    Carries db db' := by
  have both : Carries db db' ∧ Conserved db' :=
    effects.preserves (I := fun middle => Carries db middle ∧ Conserved middle)
      (fun _ _ effect held => ⟨held.1.trans (effect.carries held.2), held.2.effect effect⟩)
      ⟨.refl db, conserved⟩
  exact both.1

/-! ## Reconciliations -/

/-- The reservation is settled, its evidence holds an unresolved conflict, and the
unretired inventory lists nothing to re-hold. -/
def Reconcile.Unbacked (R : Reconcile) (db : Db) : Prop :=
  ∃ row count, db.Holds R.key row ∧
    evidencePrefix R.hashes db R.key R.observer.inventory = .ok count ∧
    R.unbacked db row (R.observer.inventory.drop count)

theorem Reconcile.Transacted.kept {R : Reconcile} (transacted : R.Transacted db db')
    {k : ReservationKey} {row : Reservation} (d : Dimension) (holds : db'.Holds k row)
    (unsettled : row.state ≠ .settled) :
    Secured db' k row d ∨ (∃ row₀, db.Holds k row₀ ∧ Reservation.Unmoved d row₀ row) ∨
      k = R.key ∧ R.Unbacked db := by
  obtain ⟨t, t', core, selected, found, opened, -, -, done, rfl⟩ := transacted
  obtain ⟨plain, atDb, atKey, -⟩ := openCall_ok opened
  obtain ⟨call, atCall, reserved, upon⟩ := openCall_over plain
  have moves := transact_moves done
  have upon := moves.upon upon
  have sameKey : t'.key = R.key := moves.fixed.1.trans atKey
  by_cases own : k = R.key
  · subst own
    rw [← sameKey] at holds ⊢
    obtain rfl := holds.unique upon.holds
    by_cases backed : R.Unbacked db
    · exact .inr (.inr ⟨rfl, backed⟩)
    have holding : t.Holding d t' := by
      refine transact_holding done fun count prefixed bare => backed ⟨t.row, count, ?_, ?_, ?_⟩
      · exact ⟨call, atCall, reserved⟩
      · rwa [atDb] at prefixed
      · rwa [atDb] at bare
    rcases holding.held with settled | covered | ⟨still, same⟩
    · exact absurd settled unsettled
    · exact .inl (.of_covered upon covered)
    · refine .inr (.inl ⟨t.row, ?_, still, holding.receipt.symm, same.symm⟩)
      rw [sameKey]
      exact ⟨call, atCall, reserved⟩
  · refine .inr (.inl ⟨row, upon.elsewhere (fun same => own (same.trans sameKey)) holds, unsettled,
      rfl, rfl⟩)

/-- **One `reconcile_v1` on the unsettled calls.** -/
theorem reconcileV1_kept (R : Reconcile) (ids : List Id) (db : Db) {k : ReservationKey}
    {row : Reservation} (d : Dimension) (holds : (R.reconcileV1 ids db).1.Holds k row)
    (unsettled : row.state ≠ .settled) :
    Secured (R.reconcileV1 ids db).1 k row d ∨
      (∃ row₀, db.Holds k row₀ ∧ Reservation.Unmoved d row₀ row) ∨ k = R.key ∧ R.Unbacked db := by
  obtain ⟨middle, first, second⟩ := reconcileV1_cases R ids db
  have carries : Carries middle (R.reconcileV1 ids db).1 := by
    rcases second with same | marked
    · rw [same]
      exact .refl middle
    · simp only [markUnknown, bind_ok] at marked
      obtain ⟨⟨t, core⟩, opened, same⟩ := marked
      rw [← Except.ok.inj same]
      exact .suspend (openCall_ok opened).1
  rcases carries k row d holds unsettled with secured | ⟨row₁, holds₁, unmoved, crowded⟩
  · exact .inl secured
  rcases first with rfl | transacted
  · exact .inr (.inl ⟨row₁, holds₁, unmoved⟩)
  rcases transacted.kept d holds₁ unmoved.unsettled with secured | ⟨row₀, holds₀, before⟩ | unbacked
  · left
    unfold Secured at secured
    rw [unmoved.receipt, unmoved.held] at secured
    exact secured.imp_right (crowded _)
  · exact .inr (.inl ⟨row₀, holds₀, before.trans unmoved⟩)
  · exact .inr (.inr unbacked)

/-- The transaction of `reconcile_v1` is reached and commits. -/
def Reconcile.Commits (R : Reconcile) (ids : List Id) (db : Db) : Prop :=
  (1 ≤ ids.length ∧ ids.length ≤ 8 ∧ ids.Nodup) ∧
    (R.observer.inventory.length ≤ 64 ∧ (R.observer.inventory.map Observation.eventId).Nodup) ∧
    (R.observer.acknowledged = true ∧ R.observer.stable = true) ∧
    ∃ selected result, R.select ids = some selected ∧
      (openCall R.hashes db R.key (some R.ctx) >>= fun opened =>
        R.transact opened.1 opened.2 selected) = .ok result

theorem Reconcile.Commits.cases {R : Reconcile} {ids : List Id} (commits : R.Commits ids db) :
    ∃ t t' core selected found, openCall R.hashes db R.key none = .ok (t, core) ∧
      R.transact t core selected = .ok (t', found) ∧
      ((R.reconcileV1 ids db).1 = t'.db ∨
        markUnknown R.hashes R.ctx R.key t'.db = .ok (R.reconcileV1 ids db).1) := by
  obtain ⟨bounded, listed, answered, selected, ⟨t', found⟩, chosen, done⟩ := commits
  have unanswered : ¬ (R.observer.acknowledged = false ∨ R.observer.stable = false) := by
    simp [answered]
  have ending : (R.reconcileV1 ids db).1 = t'.db ∨
      markUnknown R.hashes R.ctx R.key t'.db = .ok (R.reconcileV1 ids db).1 := by
    simp only [reconcileV1, bounded, listed, chosen, unanswered, done, not_true, if_false,
      and_self]
    cases found with
    | true => exact .inl rfl
    | false =>
        dsimp only
        split
        · exact .inl rfl
        · unfold unknownThen
          split
          · exact .inl rfl
          · rename_i after marked
            exact .inr marked
  rw [bind_ok] at done
  obtain ⟨⟨t, core⟩, opened, transacted⟩ := done
  exact ⟨t, t', core, selected, found, (openCall_ok opened).1, transacted, ending⟩

/-- Opening a call again finds its dictionaries as they were left. -/
theorem Txn.Over.reopened {base : Db} {call : Call} {u : Txn} (upon : t.Over base call)
    (opened : openCall H t.db t.key none = .ok (u, core)) : t.Firm u := by
  obtain ⟨call', -, reserved, upon'⟩ := openCall_over opened
  obtain ⟨-, atDb, atKey, atAccount, atTask, call'', found, reserved', -⟩ := openCall_ok opened
  have row : u.row = t.row := (Db.Holds.unique ⟨call'', found, reserved'⟩ upon.holds)
  have account : u.account = t.account := by
    have left : t.db.budgets.row t.accountId = some ⟨t.accountPolicy, t.account⟩ := by
      rw [upon.budgets]
      exact (Table.row_put_of_ne _ _ (accountId_ne_taskId t)).trans (Table.row_put_self _ _ _)
    exact congrArg Budget.balance (Option.some.inj (atAccount.symm.trans left))
  have task : u.task = t.task := by
    have left : t.db.budgets.row t.taskId = some ⟨t.taskPolicy, t.task⟩ := by
      rw [upon.budgets]
      exact Table.row_put_self _ _ _
    exact congrArg Budget.balance (Option.some.inj (atTask.symm.trans left))
  refine ⟨fun d => ?_, by rw [row], by rw [row], fun d => by rw [row], fun settled => row ▸ settled⟩
  unfold Txn.others
  rw [row, account, task]

/-- **A reconciliation the hazards block bears every known amount.** -/
theorem reconcileV1_bears {R : Reconcile} {ids : List Id} {row₀ : Reservation} {count : Nat}
    (commits : R.Commits ids db) (holds : db.Holds R.key row₀)
    (prefixed : evidencePrefix R.hashes db R.key R.observer.inventory = .ok count)
    (hazardous : evidenceHazards (Reconcile.knownFinal row₀) (R.observer.inventory.drop count) ≠ [])
    (unresolving : R.resolves db row₀ (evidenceHazards (Reconcile.knownFinal row₀)
      (R.observer.inventory.drop count)) = false) :
    ∃ row, (R.reconcileV1 ids db).1.Holds R.key row ∧ row.state ≠ .settled ∧
      ∀ o ∈ Reconcile.liabilities (R.observer.inventory.drop count), ∀ value,
        actual o.usage = .ok value → ∀ d, value d ≤ row.actual d + row.held d ∨
          Crowded (R.reconcileV1 ids db).1 R.key row d
            (max (row.receipt.reserved d) (value d - row.actual d)) := by
  obtain ⟨t, t', core, selected, found, opened, done, ending⟩ := commits.cases
  obtain ⟨call, atCall, reserved, upon⟩ := openCall_over opened
  obtain ⟨-, atDb, atKey, -⟩ := openCall_ok opened
  obtain rfl := holds.unique ⟨call, atCall, reserved⟩
  have moves := Reconcile.transact_moves done
  have upon := moves.upon upon
  have sameKey : t'.key = R.key := moves.fixed.1.trans atKey
  rw [← atDb] at prefixed unresolving
  obtain ⟨unsettled, borne⟩ := Reconcile.transact_frozen done prefixed hazardous unresolving
  rcases ending with same | marked
  · rw [same, ← sameKey]
    exact ⟨t'.row, upon.holds, unsettled, fun o member value paid d =>
      (borne o member value paid d).imp_right upon.crowded⟩
  · simp only [markUnknown, bind_ok] at marked
    obtain ⟨⟨u, core'⟩, reopened, same⟩ := marked
    rw [← Except.ok.inj same]
    have plain := (openCall_ok reopened).1
    rw [← sameKey] at plain ⊢
    have firm : t'.Firm ((u.retain none).pause .inDoubt) :=
      (upon.reopened plain).trans (.freeze u [none] (by decide))
    obtain ⟨call', -, -, again⟩ := openCall_over plain
    have again := (Moves.suspend (H := R.hashes) (fun _ => 0) u).upon again
    have atCall : ((u.retain none).pause .inDoubt).key = t'.key := (openCall_ok plain).2.2.1
    rw [← atCall]
    exact ⟨_, again.holds, Txn.pause_unsettled _ (by decide), fun o member value paid d =>
      ((borne o member value paid d).firm firm).imp_right again.crowded⟩

end Tables

/-! ## Unknown never refunds -/

/-- One operation on the unsettled calls. -/
theorem Op.kept {H : Hashes} {db : Db} (conserved : Conserved db) (op : Op) {k : ReservationKey}
    {row : Reservation} (d : Dimension) (holds : (op.apply H db).Holds k row)
    (unsettled : row.state ≠ .settled) :
    Secured (op.apply H db) k row d ∨
      (∃ row₀, db.Holds k row₀ ∧ Reservation.Unmoved d row₀ row) ∨
      ∃ uuid ctx observer decision ids, op = .reconcile uuid ctx k observer decision ids ∧
        Reconcile.Unbacked ⟨H, uuid, ctx, k, observer, decision⟩ db := by
  by_cases settles : op.shows = fun _ _ => False
  · have effects := Op.effects H db op
    rw [settles] at effects
    rcases effects.carries conserved k row d holds unsettled with secured | ⟨row₀, was, unmoved, -⟩
    · exact .inl secured
    · exact .inr (.inl ⟨row₀, was, unmoved⟩)
  · cases op with
    | reconcile uuid ctx key observer decision ids =>
        rcases reconcileV1_kept ⟨H, uuid, ctx, key, observer, decision⟩ ids db d holds unsettled with
          secured | unmoved | ⟨rfl, unbacked⟩
        · exact .inl secured
        · exact .inr (.inl unmoved)
        · exact .inr (.inr ⟨uuid, ctx, observer, decision, ids, rfl, unbacked⟩)
    | _ => exact absurd rfl settles

/-- **Unknown never refunds.**  After any operations, an unsettled reservation holds
its whole reserve, unless in some state of the run, with the hold it has now, the
reserve did not fit beside the other calls, or a `reconcile_v1` that found it settled,
in conflict and with nothing to re-hold left it with the hold it has now.  And a
`reconcile_v1` that hazards block leaves it unsettled and bearing every known amount of
the unretired inventory, as far as that fits. -/
theorem unknown_never_refunds (H : Hashes) :
    (∀ ops k row d, (Db.after H ops).Holds k row → row.state ≠ .settled →
      row.receipt.reserved d ≤ row.held d ∨
      (∃ earlier short, earlier <+: ops ∧ (Db.after H earlier).Holds k short ∧
        Reservation.Unmoved d short row ∧
        Crowded (Db.after H earlier) k short d (row.receipt.reserved d)) ∨
      ∃ earlier uuid ctx observer decision ids short,
        earlier ++ [.reconcile uuid ctx k observer decision ids] <+: ops ∧
        Reconcile.Unbacked ⟨H, uuid, ctx, k, observer, decision⟩ (Db.after H earlier) ∧
        (Db.after H (earlier ++ [.reconcile uuid ctx k observer decision ids])).Holds k short ∧
        Reservation.Unmoved d short row) ∧
    ∀ (R : Reconcile) ids db row₀ count, R.Commits ids db → db.Holds R.key row₀ →
      evidencePrefix R.hashes db R.key R.observer.inventory = .ok count →
      evidenceHazards (Reconcile.knownFinal row₀) (R.observer.inventory.drop count) ≠ [] →
      R.resolves db row₀ (evidenceHazards (Reconcile.knownFinal row₀)
        (R.observer.inventory.drop count)) = false →
      ∃ row, (R.reconcileV1 ids db).1.Holds R.key row ∧ row.state ≠ .settled ∧
        ∀ o ∈ R.observer.inventory.drop count, o.kind = .finalUsage ∨ o.kind = .conflict →
          ∀ value, actual o.usage = .ok value → ∀ d, value d ≤ row.actual d + row.held d ∨
            Crowded (R.reconcileV1 ids db).1 R.key row d
              (max (row.receipt.reserved d) (value d - row.actual d)) := by
  constructor
  · intro ops k row d holds unsettled
    induction ops using List.reverseRecOn generalizing row with
    | nil =>
        obtain ⟨call, found, -⟩ := holds
        cases found
    | append_singleton ops op ih =>
        have extends_ {earlier : List Op} (before : earlier <+: ops) : earlier <+: ops ++ [op] :=
          before.trans (List.prefix_append ops [op])
        have after : Db.after H (ops ++ [op]) = op.apply H (Db.after H ops) := by
          simp only [Db.after, List.foldl_append, List.foldl_cons, List.foldl_nil]
        have conserved := Conserved.of_reachable (reachable_after H ops)
        rw [after] at holds
        rcases op.kept conserved d holds unsettled with
          (enough | crowded) | ⟨row₀, was, unmoved⟩ | ⟨uuid, ctx, observer, decision, ids, rfl, unbacked⟩
        · exact .inl enough
        · refine .inr (.inl ⟨ops ++ [op], row, List.prefix_refl _, ?_, ⟨unsettled, rfl, rfl⟩, ?_⟩)
          · rwa [after]
          · rwa [after]
        · rcases ih row₀ was unmoved.unsettled with
            enough | ⟨earlier, short, before, held, same, crowded⟩ |
              ⟨earlier, uuid, ctx, observer, decision, ids, short, before, unbacked, held, same⟩
          · left
            rwa [unmoved.receipt, unmoved.held] at enough
          · rw [unmoved.receipt] at crowded
            exact .inr (.inl ⟨earlier, short, extends_ before, held, same.trans unmoved, crowded⟩)
          · exact .inr (.inr ⟨earlier, uuid, ctx, observer, decision, ids, short, extends_ before, unbacked,
              held, same.trans unmoved⟩)
        · refine .inr (.inr ⟨ops, uuid, ctx, observer, decision, ids, row, List.prefix_refl _, unbacked, ?_,
            ⟨unsettled, rfl, rfl⟩⟩)
          rwa [after]
  · intro R ids db row₀ count commits holds prefixed hazardous unresolving
    obtain ⟨row, kept, unsettled, borne⟩ :=
      reconcileV1_bears commits holds prefixed hazardous unresolving
    refine ⟨row, kept, unsettled, fun o member kind value paid d => borne o ?_ value paid d⟩
    exact List.mem_filter.2 ⟨member, by simpa using kind⟩

/-! ## Poles -/

/-- Two finals of 10000 and of 50 tokens. -/
def twoFinals : List Observation :=
  [sampleObservation 1 31 .finalUsage (sampleUsage 10000 (by decide)),
    sampleObservation 1 32 .finalUsage (sampleUsage 50 (by decide))]

/-- The owner of the first call is shown the two finals. -/
def disputedRun : Reconcile :=
  ⟨sampleHashes, fun n => 50 + n, .run (sampleRun 1), sampleKey 1, steadyObserver twoFinals, none⟩

theorem unknown_never_refunds_disputed_run :
    (∃ row, (Db.after sampleHashes firstCall).Holds (sampleKey 1) row ∧ row.state ≠ .settled ∧
      row.receipt.reserved .tokens = 5120) ∧
    ∃ row, (disputedRun.reconcileV1 [31] (Db.after sampleHashes firstCall)).1.Holds (sampleKey 1) row ∧
      row.state ≠ .settled ∧ (10000 ≤ row.actual .tokens + row.held .tokens ∨
        Crowded (disputedRun.reconcileV1 [31] (Db.after sampleHashes firstCall)).1 (sampleKey 1) row
          .tokens (max (row.receipt.reserved .tokens) (10000 - row.actual .tokens))) := by
  have held : ∃ row, (Db.after sampleHashes firstCall).Holds (sampleKey 1) row ∧
      row.state ≠ .settled ∧ row.receipt.reserved .tokens = 5120 := ⟨_, ⟨_, rfl, rfl⟩, by decide, rfl⟩
  refine ⟨held, ?_⟩
  have commits : disputedRun.Commits [31] (Db.after sampleHashes firstCall) :=
    ⟨by decide, by decide, by decide, _, _, rfl, rfl⟩
  obtain ⟨row, after, unsettled, borne⟩ := (unknown_never_refunds sampleHashes).2 disputedRun [31]
    (Db.after sampleHashes firstCall) _ 0 commits ⟨_, rfl, rfl⟩ rfl (by decide) rfl
  exact ⟨row, after, unsettled, borne _ List.mem_cons_self (.inl rfl) _ rfl .tokens⟩

/-- Caps as large as a cap can be. -/
def widePolicy : Policy := { samplePolicy with tokenCap := some maxN, costCap := some maxN }

/-- A second call that reserves all but 100 of the tokens. -/
def wideCore : BindingCore where
  scope := sampleScope
  questionId := 2
  callRef := 2
  bodyDigest := 1
  reserved := amount (maxN - 100) 22528
  validFrom := 0
  expiresAt := 500
  rest := 2
  minimum := by decide
  maximum := by decide

/-- The first call settles 100 tokens and is marked unknown while a second one holds
all the others; the second then settles too. -/
def crowdedOut : List Op :=
  [.installPolicy sampleScope .account widePolicy, .installPolicy sampleScope .task widePolicy,
    .reserve (fun n => n) (sampleRun 1) (sampleKey 1) ⟨sampleCore 1, 8⟩ 10,
    .reconcile (fun n => 10 + n) (.run (sampleRun 1)) (sampleKey 1)
      (steadyObserver [sampleObservation 1 30 .finalUsage (sampleUsage 100 hundred_le_maxN)]) none [30],
    .reserve (fun n => 40 + n) (sampleRun 2) (sampleKey 2) ⟨wideCore, 8⟩ 10,
    .markUnknown (.run (sampleRun 1)) (sampleKey 1),
    .reconcile (fun n => 50 + n) (.run (sampleRun 2)) (sampleKey 2)
      (steadyObserver [sampleObservation 2 31 .finalUsage (sampleUsage 50 (by decide))]) none [31]]

/-- A final of 100 tokens beside a conflict. -/
def conflictingFinal : List Observation :=
  [sampleObservation 1 31 .finalUsage (sampleUsage 100 hundred_le_maxN),
    sampleObservation 1 32 .conflict .unknown]

/-- Recovery 77 resolves the conflict; recovery 78 copies the retired conflict into
the ledger, and asks once more. -/
def bareConflict : List Op :=
  recoveredCall ++
    [.reconcile (fun n => 60 + n) (.recovery ⟨sampleScope, sampleKey 1, 77, 9, 2⟩) (sampleKey 1)
        (steadyObserver conflictingFinal) (some 77) [31],
      .recoverCall sampleScope (sampleKey 1) 78 2 9 true,
      .reconcile (fun n => 70 + n) (.recovery ⟨sampleScope, sampleKey 1, 78, 9, 3⟩) (sampleKey 1)
        (steadyObserver (conflictingFinal ++ [sampleObservation 1 33 .finalUsage .unknown])) none [32],
      .reconcile (fun n => 80 + n) (.recovery ⟨sampleScope, sampleKey 1, 78, 9, 3⟩) (sampleKey 1)
        (steadyObserver conflictingFinal) none [31]]

/-- Recovery 77 resolves the two finals of the first call, and selects neither. -/
def idleResolution : Reconcile :=
  ⟨sampleHashes, fun n => 60 + n, .recovery ⟨sampleScope, sampleKey 1, 77, 9, 2⟩, sampleKey 1,
    steadyObserver (twoFinals ++ [sampleObservation 1 33 .streamClosed .unknown]), some 77⟩

/-- What a call settled and holds, what it was to reserve, and what its two balances
hold, in tokens. -/
def Db.tokens (db : Db) (key : ReservationKey) : List (Option (ReservationState × Int × Int × Int)) ×
    List (Option Int) :=
  ([((db.calls.row key).bind Call.reservation).map fun r =>
      (r.state, r.actual .tokens, r.held .tokens, r.receipt.reserved .tokens)],
    [.account, .task].map fun kind =>
      (db.budgets.row (balanceId key.scope kind)).map fun b => b.balance.held .tokens)

/-- A row that holds less than `amount`, where `amount` would fit. -/
theorem roomy_of_tokens {db : Db} {key : ReservationKey} {state : ReservationState}
    {settled held reserved total amount : Int}
    (read : db.tokens key = ([some (state, settled, held, reserved)], [some total, some total]))
    (fits : total - held + amount ≤ maxN) :
    ∃ row, db.Holds key row ∧ row.state = state ∧ row.actual .tokens = settled ∧
      row.held .tokens = held ∧ row.receipt.reserved .tokens = reserved ∧
      ¬ Crowded db key row .tokens amount := by
  simp only [Db.tokens, List.map_cons, List.map_nil, Prod.mk.injEq, List.cons.injEq, and_true] at read
  obtain ⟨columns, account, task⟩ := read
  obtain ⟨row, bound, same⟩ := Option.map_eq_some_iff.1 columns
  obtain ⟨call, found, stored⟩ := Option.bind_eq_some_iff.1 bound
  simp only [Prod.mk.injEq] at same
  obtain ⟨atState, atSettled, atHeld, atReserved⟩ := same
  refine ⟨row, ⟨call, found, stored⟩, atState, atSettled, atHeld, atReserved, ?_⟩
  rintro ⟨kind, b, atBalance, above⟩
  have whole : b.balance.held .tokens = total := by
    cases kind with
    | account =>
        rw [atBalance] at account
        exact Option.some.inj account
    | task =>
        rw [atBalance] at task
        exact Option.some.inj task
  omega

/-- Three ways to hold too little: a reserve that did not fit when it was re-held, a
conflict with nothing to re-hold, and a resolution that settles nothing. -/
theorem unknown_refunds :
    (∃ row, (Db.after sampleHashes crowdedOut).Holds (sampleKey 1) row ∧ row.state = .inDoubt ∧
      row.actual .tokens = 100 ∧ row.held .tokens = 0 ∧ row.receipt.reserved .tokens = 5120 ∧
      ¬ Crowded (Db.after sampleHashes crowdedOut) (sampleKey 1) row .tokens 5120) ∧
    (∃ row, (Db.after sampleHashes bareConflict).Holds (sampleKey 1) row ∧ row.state = .conflict ∧
      row.actual .tokens = 100 ∧ row.held .tokens = 0 ∧ row.receipt.reserved .tokens = 5120 ∧
      ¬ Crowded (Db.after sampleHashes bareConflict) (sampleKey 1) row .tokens 5120) ∧
    (evidencePrefix sampleHashes (Db.after sampleHashes recoveredCall) (sampleKey 1)
        idleResolution.observer.inventory = .ok 0 ∧
      evidenceHazards none idleResolution.observer.inventory ≠ [] ∧
      (∃ o ∈ idleResolution.observer.inventory, o.kind = .finalUsage ∧ ∃ value,
        actual o.usage = .ok value ∧ value .tokens = 10000) ∧
      ∃ row, (idleResolution.reconcileV1 [33] (Db.after sampleHashes recoveredCall)).1.Holds
        (sampleKey 1) row ∧ row.state = .conflict ∧ row.actual .tokens = 0 ∧ row.held .tokens = 5120 ∧
        row.receipt.reserved .tokens = 5120 ∧
        ¬ Crowded (idleResolution.reconcileV1 [33] (Db.after sampleHashes recoveredCall)).1
          (sampleKey 1) row .tokens 10000) := by
  have listed : ∃ o ∈ idleResolution.observer.inventory, o.kind = .finalUsage ∧ ∃ value,
      actual o.usage = .ok value ∧ value .tokens = 10000 := by
    refine ⟨sampleObservation 1 31 .finalUsage (sampleUsage 10000 (by decide)), ?_, rfl, _, rfl, rfl⟩
    exact List.mem_append_left _ List.mem_cons_self
  have first : (Db.after sampleHashes crowdedOut).tokens (sampleKey 1) =
      ([some (.inDoubt, 100, 0, 5120)], [some 0, some 0]) := by decide +kernel
  have second : (Db.after sampleHashes bareConflict).tokens (sampleKey 1) =
      ([some (.conflict, 100, 0, 5120)], [some 0, some 0]) := by decide +kernel
  have third : (idleResolution.reconcileV1 [33] (Db.after sampleHashes recoveredCall)).1.tokens
      (sampleKey 1) = ([some (.conflict, 0, 5120, 5120)], [some 5120, some 5120]) := by decide +kernel
  exact ⟨roomy_of_tokens first (by decide), roomy_of_tokens second (by decide), rfl, by decide, listed,
    roomy_of_tokens third (by decide)⟩

end ApiSecurityPlatform.Accounting
