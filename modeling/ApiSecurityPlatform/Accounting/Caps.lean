/-
# Accounting.Caps -- caps bind while active, and cancellation is final

A transaction may push a balance over its caps: an overrun settles what was really
used, a contradiction re-holds what may have been used.  What it may not do is
leave such a balance `ACTIVE`.  Re-holding is always followed by a pause, so the
argument is about freezes and settlements as a whole, not about single writes.
-/
import ApiSecurityPlatform.Accounting.Conservation

namespace ApiSecurityPlatform.Accounting

open ApiSecurityPlatform.Theory

set_option autoImplicit false

/-- All four caps, as far as they are set. -/
def Budget.within (b : Budget) : Prop :=
  (∀ d, withinCap (b.policy.cap d) (b.balance.settled d + b.balance.held d)) ∧
    withinCap b.policy.callCap b.balance.calls ∧ withinCap b.policy.wallCapNs b.balance.wallNs

instance (b : Budget) : Decidable b.within := inferInstanceAs (Decidable (_ ∧ _ ∧ _))

/-- An active budget is within its caps. -/
def Budget.capped (b : Budget) : Prop := b.balance.state = .active → b.within

/-! ## Balances -/

namespace Balance

variable (b : Balance) (policy : Policy)

theorem pause_not_active : b.pause.state ≠ .active := by
  unfold pause
  dsimp only
  split <;> decide

theorem pause_cancelled (cancelled : b.state = .cancelled) : b.pause.state = .cancelled := by
  simp [pause, cancelled]

theorem settle_capped (delta held : Amount) (capped : Budget.capped ⟨policy, b⟩) :
    Budget.capped ⟨policy, b.settle policy delta held⟩ := by
  intro active
  have fits : ∀ d, withinCap (policy.cap d) (b.settled d + delta d + (b.held d - held d)) := by
    by_contra upon
    have upon := not_forall.1 upon
    simp only [settle, upon, if_true] at active
    split at active <;> cases active
  have stayed : b.state = .active := by
    have notOver : ¬ ∃ d, ¬ withinCap (policy.cap d) (b.settled d + delta d + (b.held d - held d)) := by
      simpa using fits
    simpa [settle, notOver] using active
  exact ⟨fits, (capped stayed).2⟩

theorem settle_cancelled (delta held : Amount) (cancelled : b.state = .cancelled) :
    (b.settle policy delta held).state = .cancelled := by
  simp [settle, cancelled]

end Balance

/-! ## One transaction -/

namespace Txn

/-- Both balances of a transaction, with a property of each. -/
def Both (P : Budget → Prop) (t : Txn) : Prop :=
  P ⟨t.accountPolicy, t.account⟩ ∧ P ⟨t.taskPolicy, t.task⟩

theorem retains_states (t : Txn) (kept : List (Option Observation)) :
    (kept.foldl Txn.retain t).account.state = t.account.state ∧
      (kept.foldl Txn.retain t).task.state = t.task.state := by
  induction kept generalizing t with
  | nil => exact ⟨rfl, rfl⟩
  | cons incoming rest ih => exact ih (t.retain incoming)

end Txn

variable {H : Hashes} {uuid : Uuids} {t t' : Txn}

theorem Move.capped (move : Move H uuid t t') (capped : t.Both Budget.capped) :
    t'.Both Budget.capped := by
  cases move with
  | event written =>
      obtain ⟨draws, rfl⟩ | ⟨eid, draws, -, -, rfl⟩ := Txn.event_cases written <;> exact capped
  | note | close => exact capped
  | freeze kept unsettled =>
      exact ⟨fun active => absurd active (Balance.pause_not_active _),
        fun active => absurd active (Balance.pause_not_active _)⟩
  | settle paid fits done =>
      obtain ⟨-, -, -, -, accountPolicy, taskPolicy, -, account, task, -⟩ := Txn.settle_ok done
      unfold Txn.Both
      rw [accountPolicy, taskPolicy, account, task]
      exact ⟨Balance.settle_capped _ _ _ _ capped.1, Balance.settle_capped _ _ _ _ capped.2⟩

/-- No move reopens a cancelled balance. -/
theorem Move.cancelled (move : Move H uuid t t') :
    (t.account.state = .cancelled → t'.account.state = .cancelled) ∧
      (t.task.state = .cancelled → t'.task.state = .cancelled) := by
  cases move with
  | event written =>
      obtain ⟨draws, rfl⟩ | ⟨eid, draws, -, -, rfl⟩ := Txn.event_cases written <;> exact ⟨id, id⟩
  | note | close => exact ⟨id, id⟩
  | freeze kept unsettled =>
      obtain ⟨account, task⟩ := t.retains_states kept
      exact ⟨fun cancelled => Balance.pause_cancelled _ (account.trans cancelled),
        fun cancelled => Balance.pause_cancelled _ (task.trans cancelled)⟩
  | settle paid fits done =>
      obtain ⟨-, -, -, -, -, -, -, account, task, -⟩ := Txn.settle_ok done
      rw [account, task]
      exact ⟨Balance.settle_cancelled _ _ _ _, Balance.settle_cancelled _ _ _ _⟩

theorem Moves.capped (moves : Moves H uuid t t') (capped : t.Both Budget.capped) :
    t'.Both Budget.capped :=
  moves.preserves (fun _ _ => Move.capped) capped

theorem Moves.cancelled (moves : Moves H uuid t t') :
    (t.account.state = .cancelled → t'.account.state = .cancelled) ∧
      (t.task.state = .cancelled → t'.task.state = .cancelled) := by
  induction moves with
  | refl => exact ⟨id, id⟩
  | tail _ last ih =>
      exact ⟨fun cancelled => last.cancelled.1 (ih.1 cancelled),
        fun cancelled => last.cancelled.2 (ih.2 cancelled)⟩

/-! ## The tables -/

/-- Every active balance is within its caps. -/
def Capped (db : Db) : Prop := ∀ id b, db.budgets.row id = some b → b.capped

variable {db db' : Db}

theorem withinCap_zero {cap : Option Int} (range : countInRange cap) : withinCap cap 0 :=
  fun c set_ => (range c set_).1

theorem Budget.affords_charged {b : Budget} {core : BindingCore} (affords : b.affords core) :
    Budget.within ⟨b.policy, b.balance.charge core.reserved⟩ := by
  obtain ⟨amounts, calls, wall⟩ := affords
  refine ⟨fun d c cap => ?_, fun c cap => ?_, wall⟩
  · have below := amounts d c cap
    show b.balance.settled d + (b.balance.held d + core.reserved d) ≤ c
    omega
  · have below := calls c cap
    show b.balance.calls + 1 ≤ c
    omega

theorem restore_not_active (b : Balance) (held : Amount) (calls : Int) :
    (b.restore held calls).state ≠ .active := by
  unfold Balance.restore
  dsimp only
  split <;> decide

/-- Rows written over both balances of a scope. -/
theorem Capped.put_both {i j : BalanceId} {v w : Budget} (capped : Capped db)
    (budgets : db'.budgets = (db.budgets.put i v).put j w) (first : v.capped) (second : w.capped) :
    Capped db' := by
  intro id b found
  rw [budgets] at found
  obtain ⟨rfl, rfl⟩ | ⟨-, rfl, rfl⟩ | ⟨-, -, old⟩ := Table.row_put_put_cases found
  · exact second
  · exact first
  · exact capped id b old

theorem Capped.transact {key : ReservationKey} {core : BindingCore} (capped : Capped db)
    (opened : openCall H db key none = .ok (t, core)) (moves : Moves H uuid t t') : Capped t'.db := by
  obtain ⟨call, found, reserved, upon⟩ := openCall_over opened
  obtain ⟨-, -, -, atAccount, atTask, -⟩ := openCall_ok opened
  have both := moves.capped ⟨capped _ _ atAccount, capped _ _ atTask⟩
  exact capped.put_both (moves.upon upon).budgets both.1 both.2

theorem Capped.effect {shown : Shown} (capped : Capped db) (effect : Effect H shown db db') :
    Capped db' := by
  cases effect with
  | aside budgets =>
      intro id b found
      exact capped id b (budgets ▸ found)
  | @install id policy absent caps calls wall =>
      intro j b found
      rw [Table.row_put] at found
      split at found
      · obtain rfl := Option.some.inj found
        exact fun _ => ⟨fun d => withinCap_zero (caps d), withinCap_zero calls, withinCap_zero wall⟩
      · exact capped j b found
  | reserve inserted reserved active affords =>
      exact capped.put_both inserted.budgets
        (fun _ => Budget.affords_charged affords.1) (fun _ => Budget.affords_charged affords.2)
  | suspend opened => exact capped.transact opened (.suspend (fun _ => 0) _)
  | contradict opened done => exact capped.transact opened (.conflict done)
  | reconcile hashes allowed transacted =>
      obtain ⟨t, t', core, opened, moves, rfl⟩ := transacted.moves
      exact capped.transact opened moves
  | administer found reserved kept calls budgets =>
      intro id b found
      exact capped id b (budgets ▸ found)
  | restore inserted =>
      exact capped.put_both inserted.budgets
        (fun active => absurd active (restore_not_active _ _ _))
        (fun active => absurd active (restore_not_active _ _ _))
  | pause chosen =>
      intro id b found
      obtain ⟨old, before, same⟩ := Option.map_eq_some_iff.1 found
      subst same
      beta_reduce
      split
      · exact fun active => nomatch active
      · exact capped id old before
  | @resume id b atId state held caps calls wall =>
      intro j b' found
      rw [show (activate db id).budgets = db.budgets.modify id _ from rfl, Table.row_modify] at found
      obtain ⟨old, before, same⟩ := Option.map_eq_some_iff.1 found
      subst same
      split
      · rename_i here
        subst here
        obtain rfl := Option.some.inj (atId.symm.trans before)
        refine fun _ => ⟨fun d => ?_, calls, wall⟩
        show withinCap _ (b.balance.settled d + b.balance.held d)
        rw [held d, add_zero]
        exact caps d
      · exact capped j old before
  | cancel =>
      intro j b' found
      rw [Table.row_modify] at found
      obtain ⟨old, before, same⟩ := Option.map_eq_some_iff.1 found
      subst same
      split
      · exact fun active => nomatch active
      · exact capped j old before

theorem Capped.of_reachable (reach : (accounting H).Reachable db) : Capped db := by
  refine Reachable.of_effects ?_ (fun _ _ _ step capped => capped.effect step) reach
  intro id b found
  cases found

/-! ## Cancellation -/

/-- The balance `id` exists and is cancelled. -/
def Cancelled (id : BalanceId) (db : Db) : Prop :=
  ∃ b, db.budgets.row id = some b ∧ b.balance.state = .cancelled

theorem Cancelled.put_both {id i j : BalanceId} {u v w x : Budget} (cancelled : Cancelled id db)
    (budgets : db'.budgets = (db.budgets.put i v).put j w) (atI : db.budgets.row i = some u)
    (atJ : db.budgets.row j = some x)
    (first : u.balance.state = .cancelled → v.balance.state = .cancelled)
    (second : x.balance.state = .cancelled → w.balance.state = .cancelled) : Cancelled id db' := by
  obtain ⟨b, found, state⟩ := cancelled
  unfold Cancelled
  rw [budgets]
  simp only [Table.row_put]
  split
  · rename_i here
    subst here
    obtain rfl := Option.some.inj (found.symm.trans atJ)
    exact ⟨w, rfl, second state⟩
  · split
    · rename_i here
      subst here
      obtain rfl := Option.some.inj (found.symm.trans atI)
      exact ⟨v, rfl, first state⟩
    · exact ⟨b, found, state⟩

theorem Cancelled.transact {id : BalanceId} {key : ReservationKey} {core : BindingCore}
    (cancelled : Cancelled id db) (opened : openCall H db key none = .ok (t, core))
    (moves : Moves H uuid t t') : Cancelled id t'.db := by
  obtain ⟨call, found, reserved, upon⟩ := openCall_over opened
  obtain ⟨-, -, atKey, atAccount, atTask, -⟩ := openCall_ok opened
  obtain ⟨sameKey, -, -⟩ := moves.fixed
  obtain rfl := sameKey.trans atKey
  exact cancelled.put_both (moves.upon upon).budgets atAccount atTask moves.cancelled.1
    moves.cancelled.2

theorem Cancelled.effect {shown : Shown} {id : BalanceId} (cancelled : Cancelled id db)
    (effect : Effect H shown db db') : Cancelled id db' := by
  cases effect with
  | aside budgets | administer _ _ _ _ budgets =>
      unfold Cancelled
      rwa [budgets]
  | @install j policy absent =>
      obtain ⟨b, found, state⟩ := cancelled
      refine ⟨b, ?_, state⟩
      have other : id ≠ j := by
        rintro rfl
        rw [absent] at found
        cases found
      rw [Table.row_put_of_ne _ _ other, found]
  | reserve inserted reserved active affords =>
      refine cancelled.put_both inserted.budgets inserted.accountFound inserted.taskFound ?_ ?_
      · intro state
        rw [active.1.1] at state
        cases state
      · intro state
        rw [active.2.1] at state
        cases state
  | suspend opened => exact cancelled.transact opened (.suspend (fun _ => 0) _)
  | contradict opened done => exact cancelled.transact opened (.conflict done)
  | reconcile hashes allowed transacted =>
      obtain ⟨t, t', core, opened, moves, rfl⟩ := transacted.moves
      exact cancelled.transact opened moves
  | restore inserted =>
      refine cancelled.put_both inserted.budgets inserted.accountFound inserted.taskFound ?_ ?_ <;>
        exact fun state => by simp [Balance.restore, state]
  | pause chosen =>
      obtain ⟨b, found, state⟩ := cancelled
      refine ⟨b, ?_, state⟩
      show (db.budgets.row id).map _ = _
      simp [found, state]
  | @resume j b atId state =>
      obtain ⟨old, found, cancelled⟩ := cancelled
      refine ⟨old, ?_, cancelled⟩
      have other : id ≠ j := by
        rintro rfl
        obtain rfl := Option.some.inj (atId.symm.trans found)
        rw [cancelled] at state
        rcases state with state | state <;> cases state
      rw [show (activate db j).budgets = db.budgets.modify j _ from rfl, Table.row_modify]
      simp [found, other]
  | @cancel j =>
      obtain ⟨b, found, state⟩ := cancelled
      unfold Cancelled
      simp only [Table.row_modify, found, Option.map_some, Option.some.injEq, exists_eq_left']
      split
      · rfl
      · exact state

theorem Cancelled.run {id : BalanceId} {trace : List Op} (run : (accounting H).Run db trace db')
    (cancelled : Cancelled id db) : Cancelled id db' := by
  refine run.preserves (fun s op u holds step => ?_) cancelled
  obtain rfl : u = op.apply H s := step
  exact (Op.effects H s op).preserves (fun _ _ step holds => holds.effect step) holds

/-! ## What an admission needs -/

/-- Both balances of a scope exist and are active. -/
def Active (db : Db) (scope : Scope) : Prop :=
  ∀ kind, ∃ b, db.budgets.row (balanceId scope kind) = some b ∧ b.balance.state = .active

theorem activeBudgets_active {scope : Scope} {now : Int} {expiry : Option Int} {found : Budget × Budget}
    (done : activeBudgets db scope now expiry = .ok found) : Active db scope := by
  obtain ⟨account, task⟩ := found
  obtain ⟨read, activeAccount, activeTask⟩ := activeBudgets_ok done
  obtain ⟨atAccount, atTask⟩ := budgetsOf_ok read
  intro kind
  cases kind with
  | account => exact ⟨account, atAccount, activeAccount.1⟩
  | task => exact ⟨task, atTask, activeTask.1⟩

variable {run : RunContext} {key : ReservationKey} {now : Int}

theorem reserveV1_active {prepared : Prepared} {result : Db × Reserved}
    (done : reserveV1 H uuid run key prepared now db = .ok result) : Active db key.scope := by
  simp only [reserveV1, bind_ok, require_ok] at done
  obtain ⟨-, -, -, -, -, -, found, active, -⟩ := done
  exact activeBudgets_active active

theorem admitV1_active {receipt : Receipt} {at_ : Int}
    (done : admitV1 H uuid run receipt now at_ db = .ok db') :
    Active db receipt.key.scope := by
  simp only [admitV1, bind_ok, require_ok] at done
  obtain ⟨found, active, -⟩ := done
  exact activeBudgets_active active

theorem marker_active {admissionId : Id} {ticket : Ticket}
    (done : marker H uuid run key admissionId ticket now db = .ok db') : Active db key.scope := by
  simp only [marker, bind_ok, require_ok] at done
  obtain ⟨-, -, found, active, -⟩ := done
  exact activeBudgets_active active

theorem reserveV1_within {prepared : Prepared} {receipt : Receipt} (capped : Capped db)
    (done : reserveV1 H uuid run key prepared now db = .ok (db', .receipt receipt)) (kind : ScopeKind) :
    ∃ b, db'.budgets.row (balanceId key.scope kind) = some b ∧ b.within := by
  have active := reserveV1_active done
  simp only [reserveV1, bind_ok, require_ok] at done
  obtain ⟨-, -, -, -, -, -, ⟨account, task⟩, budgets, done⟩ := done
  obtain ⟨read, -⟩ := activeBudgets_ok budgets
  obtain ⟨atAccount, atTask⟩ := budgetsOf_ok read
  split at done
  · -- the call is reserved already: nothing is written, and active is within
    simp only [bind_ok, require_ok] at done
    obtain ⟨row, called, -, -, same⟩ := done
    obtain ⟨rfl, -⟩ := Prod.mk.inj (Except.ok.inj same)
    obtain ⟨b, found, state⟩ := active kind
    exact ⟨b, found, capped _ b found state⟩
  · rename_i absent
    split at done
    · simp only [bind_ok, require_ok] at done
      obtain ⟨-, -, called, found, t, conflicted, same⟩ := done
      cases (Prod.mk.inj (Except.ok.inj same)).2
    · obtain ⟨row, inserted, -, affordsAccount, affordsTask⟩ :=
        reserveFresh_inserted absent atAccount atTask done
      rw [inserted.budgets]
      cases kind with
      | account =>
          rw [Table.row_put_of_ne _ _ (balanceId_ne key.scope key.scope), Table.row_put_self]
          exact ⟨_, rfl, Budget.affords_charged affordsAccount⟩
      | task => exact ⟨_, Table.row_put_self _ _ _, Budget.affords_charged affordsTask⟩

/-- **Caps bind while active, and cancellation is final.**  From every reachable
state: an active balance is within all the caps that are set; a reservation that
succeeds leaves both balances within theirs; reservation, admission and marker
need both balances active; and no later operation reopens a cancelled balance. -/
theorem caps_bind_while_active {H : Hashes} {db : Db} (reach : (accounting H).Reachable db) :
    (∀ id b, db.budgets.row id = some b → b.balance.state = .active → b.within) ∧
    (∀ uuid run key prepared now db' receipt,
      reserveV1 H uuid run key prepared now db = .ok (db', .receipt receipt) →
        ∀ kind, ∃ b, db'.budgets.row (balanceId key.scope kind) = some b ∧ b.within) ∧
    (∀ uuid run key prepared now result,
      reserveV1 H uuid run key prepared now db = .ok result → Active db key.scope) ∧
    (∀ uuid run receipt now at_ db',
      admitV1 H uuid run receipt now at_ db = .ok db' → Active db receipt.key.scope) ∧
    (∀ uuid run key admissionId ticket now db',
      marker H uuid run key admissionId ticket now db = .ok db' → Active db key.scope) ∧
    ∀ trace db' id b, (accounting H).Run db trace db' → db.budgets.row id = some b →
      b.balance.state = .cancelled →
        ∃ b', db'.budgets.row id = some b' ∧ b'.balance.state = .cancelled := by
  have capped := Capped.of_reachable reach
  refine ⟨capped, ?_, ?_, ?_, ?_, ?_⟩
  · intro uuid run key prepared now db' receipt done
    exact reserveV1_within capped done
  · intro uuid run key prepared now result done
    exact reserveV1_active done
  · intro uuid run receipt now at_ db' done
    exact admitV1_active done
  · intro uuid run key admissionId ticket now db' done
    exact marker_active done
  · intro trace db' id b run found state
    exact Cancelled.run run ⟨b, found, state⟩

/-- After the first call the account is active and within its caps; a cancelled
task stays cancelled when its call is marked unknown. -/
theorem caps_bind_while_active_first_call :
    (∃ b, (Db.after sampleHashes firstCall).budgets.row (balanceId sampleScope .account) = some b ∧
      b.balance.state = .active ∧ b.within) ∧
    ∃ b, (Db.after sampleHashes (firstCall ++ [.cancel sampleScope (sampleKey 1),
        .markUnknown (.run (sampleRun 1)) (sampleKey 1)])).budgets.row (balanceId sampleScope .task) =
      some b ∧ b.balance.state = .cancelled := by
  constructor
  · refine ⟨_, rfl, rfl, ?_⟩
    exact (caps_bind_while_active (reachable_after sampleHashes firstCall)).1
      (balanceId sampleScope .account) _ rfl rfl
  · let cancelled := firstCall ++ [.cancel sampleScope (sampleKey 1)]
    exact (caps_bind_while_active (reachable_after sampleHashes cancelled)).2.2.2.2.2
      [.markUnknown (.run (sampleRun 1)) (sampleKey 1)] _ (balanceId sampleScope .task) _
      (.single rfl) rfl rfl

end ApiSecurityPlatform.Accounting
