/-
# Accounting.Admissions -- one open admission per account and deployment

`admit_v1` compares its clock with one number, the latest `admitted_at` over the
rows that share the account or the deployment.  The rows are kept in the order they
were inserted, and in that order the law is pairwise (`Admission.Apart`): an insert
adds one column of it, and closing a row can only weaken what it demands.

An operation inserts one admission, closes those of one call and owner generation,
or leaves the table alone (`Op.admits`).
-/
import ApiSecurityPlatform.Accounting.Contradiction
import Mathlib.Data.List.Pairwise

namespace ApiSecurityPlatform.Accounting

open ApiSecurityPlatform.Theory

set_option autoImplicit false

/-! ## Two admissions -/

namespace Admission

/-- The two rows share the account or the deployment. -/
def Shares (a b : Admission) : Prop := a.accountRef = b.accountRef ∨ a.deploymentRef = b.deploymentRef

theorem Shares.symm {a b : Admission} (shares : a.Shares b) : b.Shares a :=
  shares.imp Eq.symm Eq.symm

/-- What holds of a row and a later one. -/
structure Apart (a b : Admission) : Prop where
  key : a.key ≠ b.key
  exclusive : a.Shares b → a.closed = true ∨ b.closed = true
  spaced : a.Shares b → a.admittedAt + 1000000 ≤ b.admittedAt

/-- The same row, which may have been closed since. -/
def Becomes (a b : Admission) : Prop := b = a ∨ a.closed = false ∧ b = { a with closed := true }

theorem Becomes.trans {a b c : Admission} (first : a.Becomes b) (second : b.Becomes c) : a.Becomes c := by
  rcases first with rfl | ⟨opened, rfl⟩
  · exact second
  · rcases second with rfl | ⟨shut, -⟩
    · exact .inr ⟨opened, rfl⟩
    · cases shut

theorem Apart.becomes {a b a' b' : Admission} (apart : a.Apart b) (first : a.Becomes a')
    (second : b.Becomes b') : a'.Apart b' := by
  rcases first with rfl | ⟨-, rfl⟩ <;> rcases second with rfl | ⟨-, rfl⟩
  · exact apart
  · exact ⟨apart.key, fun _ => .inr rfl, apart.spaced⟩
  · exact ⟨apart.key, fun _ => .inl rfl, apart.spaced⟩
  · exact ⟨apart.key, fun _ => .inl rfl, apart.spaced⟩

/-- The law of two different rows, in whichever order. -/
def Separate (a b : Admission) : Prop :=
  a.key ≠ b.key ∧ (a.Shares b → (a.closed = true ∨ b.closed = true) ∧
    1000000 ≤ |a.admittedAt - b.admittedAt|)

theorem Apart.separate {a b : Admission} (apart : a.Apart b) : a.Separate b := by
  refine ⟨apart.key, fun shares => ⟨apart.exclusive shares, ?_⟩⟩
  have spaced := apart.spaced shares
  rw [abs_sub_comm, le_abs]
  left
  omega

instance : Std.Symm Separate where
  symm a b separate := by
    refine ⟨separate.1.symm, fun shares => ?_⟩
    obtain ⟨closed, spaced⟩ := separate.2 shares.symm
    rw [abs_sub_comm]
    exact ⟨closed.symm, spaced⟩

end Admission

/-! ## What an operation does to the table -/

/-- The three things that happen to the admissions. -/
inductive Admits (db db' : Db) : Prop where
  | kept (same : db'.admissions = db.admissions)
  | inserted (a : Admission) (opened : a.closed = false)
      (grown : db'.admissions = db.admissions ++ [a]) (fresh : ∀ b ∈ db.admissions, b.key ≠ a.key)
      (free : ∀ b ∈ db.admissions, b.Shares a → b.closed = true)
      (spaced : ∀ b ∈ db.admissions, b.Shares a → b.admittedAt + 1000000 ≤ a.admittedAt)
  | shut (key : ReservationKey) (generation : Nat)
      (closed : db'.admissions = closeAdmissions db key generation)

section Operations

variable {H : Hashes} {db db' : Db} {uuid : Uuids} {t t' : Txn}

theorem event_admissions {kind : EventKind} {record : EventRecord} {eventId : Option Id}
    {recovery : Bool} (written : t.event uuid kind record eventId recovery = .ok t') :
    t'.db.admissions = t.db.admissions := by
  obtain ⟨draws, rfl⟩ | ⟨eid, draws, -, -, rfl⟩ := Txn.event_cases written <;> rfl

theorem retains_admissions (t : Txn) (kept : List (Option Observation)) :
    (kept.foldl Txn.retain t).db.admissions = t.db.admissions := by
  induction kept generalizing t with
  | nil => rfl
  | cons incoming rest ih => exact ih (t.retain incoming)

theorem Move.admissions (move : Move H uuid t t') : t'.db.admissions = t.db.admissions := by
  cases move with
  | event written => exact event_admissions written
  | note | close => rfl
  | freeze kept unsettled => exact retains_admissions t kept
  | settle paid fits done =>
      simp only [Txn.settle, bind_ok, require_ok] at done
      obtain ⟨made, -, -, -, same⟩ := done
      obtain ⟨rfl, -⟩ := Prod.mk.inj (Except.ok.inj same)
      rfl

theorem Moves.admissions (moves : Moves H uuid t t') : t'.db.admissions = t.db.admissions :=
  moves.preserves (I := fun u => u.db.admissions = t.db.admissions)
    (fun _ _ move same => move.admissions.trans same) rfl

/-- The maximum over the near rows bounds each of them. -/
theorem spaced_of_recent {near : List Admission} {at_ : Int}
    (apart : ∀ last ∈ (near.map Admission.admittedAt).max?, last + 1000000 ≤ at_) :
    ∀ b ∈ near, b.admittedAt + 1000000 ≤ at_ := by
  intro b member
  have listed : b.admittedAt ∈ near.map Admission.admittedAt := List.mem_map_of_mem member
  obtain ⟨last, latest⟩ := Option.isSome_iff_exists.1 (List.isSome_max?_of_mem listed)
  have below : b.admittedAt ≤ last := (List.max?_le_iff latest).1 le_rfl _ listed
  have space := apart last latest
  omega

theorem admitV1_admits {run : RunContext} {receipt : Receipt} {now at_ : Int}
    (done : admitV1 H uuid run receipt now at_ db = .ok db') : Admits db db' := by
  simp only [admitV1, bind_ok, require_ok] at done
  obtain ⟨-, -, ⟨t, core⟩, opened, -, -, -, -, -, vacant, -, -, -, -, -, apart, -, unused, t', written,
    same⟩ := done
  obtain rfl := Except.ok.inj same
  have near {b : Admission} (member : b ∈ db.admissions)
      (shares : b.accountRef = receipt.key.scope.accountRef ∨
        b.deploymentRef = receipt.key.scope.deploymentRef) :
      b ∈ db.admissions.filter fun a => a.accountRef = receipt.key.scope.accountRef ∨
        a.deploymentRef = receipt.key.scope.deploymentRef :=
    List.mem_filter.2 ⟨member, by simpa using shares⟩
  refine .inserted ⟨receipt.key, uuid 0, receipt.key.scope.accountRef, receipt.key.scope.deploymentRef,
    run.ownerGeneration, at_, receipt.expiresAt, false⟩ rfl (event_admissions written) ?_ ?_ ?_
  · exact fun b member => (unused b member).1
  · intro b member shares
    have shut := List.find?_eq_none.1 vacant b (near member shares)
    simpa using shut
  · exact fun b member shares => spaced_of_recent apart b (near member shares)

/-- A transaction on an opened call. -/
theorem Admits.transact {key : ReservationKey} {ctx : Option Context} {core : BindingCore}
    (opened : openCall H db key ctx = .ok (t, core)) (same : t'.db.admissions = t.db.admissions) :
    Admits db t'.db := by
  obtain ⟨-, atDb, -⟩ := openCall_ok opened
  exact .kept (same.trans (congrArg Db.admissions atDb))

theorem reserveV1_admits {run : RunContext} {key : ReservationKey} {prepared : Prepared} {now : Int}
    {result : Reserved} (done : reserveV1 H uuid run key prepared now db = .ok (db', result)) :
    Admits db db' := by
  simp only [reserveV1, bind_ok, require_ok] at done
  obtain ⟨-, -, -, -, -, -, ⟨account, task⟩, -, done⟩ := done
  split at done
  · simp only [bind_ok, require_ok] at done
    obtain ⟨row, -, -, -, same⟩ := done
    obtain ⟨rfl, -⟩ := Prod.mk.inj (Except.ok.inj same)
    exact .kept rfl
  · split at done
    · simp only [bind_ok, require_ok] at done
      obtain ⟨-, -, ⟨row, old⟩, -, t, conflicted, same⟩ := done
      obtain ⟨rfl, -⟩ := Prod.mk.inj (Except.ok.inj same)
      exact .kept (Moves.conflict (H := H) conflicted).admissions
    · simp only [reserveFresh, bind_ok, require_ok] at done
      obtain ⟨-, -, -, -, -, -, -, -, -, -, t, written, same⟩ := done
      obtain ⟨rfl, -⟩ := Prod.mk.inj (Except.ok.inj same)
      exact .kept (event_admissions written)

theorem markUnknown_admits {ctx : Context} {key : ReservationKey}
    (done : markUnknown H ctx key db = .ok db') : Admits db db' := by
  simp only [markUnknown, bind_ok] at done
  obtain ⟨⟨t, core⟩, opened, same⟩ := done
  obtain rfl := Except.ok.inj same
  exact .transact opened (Moves.suspend (H := H) (fun _ => 0) t).admissions

theorem reconcileV1_admits (R : Reconcile) (ids : List Id) (db : Db) :
    Admits db (R.reconcileV1 ids db).1 := by
  obtain ⟨middle, first, second⟩ := reconcileV1_cases R ids db
  have before : middle.admissions = db.admissions := by
    rcases first with rfl | transacted
    · rfl
    · obtain ⟨t, t', core, opened, moves, rfl⟩ := transacted.moves
      exact moves.admissions.trans (congrArg Db.admissions (openCall_ok opened).2.1)
  rcases second with same | marked
  · exact .kept (by rw [same, before])
  · simp only [markUnknown, bind_ok] at marked
    obtain ⟨⟨t, core⟩, opened, same⟩ := marked
    rw [← Except.ok.inj same]
    exact .kept ((Moves.suspend (H := R.hashes) (fun _ => 0) t).admissions.trans
      ((congrArg Db.admissions (openCall_ok opened).2.1).trans before))

theorem restoreLiability_admits {readScope : Scope} {key : ReservationKey} {decisionId ownerId : Id}
    {evidence : ParentEvidence} {covered : Bool}
    (done : restoreLiability H uuid readScope key decisionId ownerId evidence covered db = .ok db') :
    Admits db db' := by
  simp only [restoreLiability, bind_ok, require_ok] at done
  obtain ⟨-, -, -, -, -, -, ⟨account, task⟩, -, -, -, -, -, -, -, -, -, -, -, t, written, same⟩ := done
  obtain rfl := Except.ok.inj same
  obtain ⟨call, -, stored⟩ := restoreCall_eq db key evidence.core
  simp only [stored] at written
  exact .kept (event_admissions written)

/-- **One operation on the admissions.** -/
theorem Op.admits (H : Hashes) (db : Db) (op : Op) : Admits db (op.apply H db) := by
  have kept : Admits db db := .kept rfl
  cases op with
  | installPolicy scope kind policy =>
      refine commit_cases (P := Admits db) kept fun db' done => ?_
      simp only [Accounting.installPolicy, bind_ok, require_ok] at done
      obtain ⟨-, -, done⟩ := done
      split at done
      · simp only [bind_ok, require_ok] at done
        obtain ⟨-, -, same⟩ := done
        exact Except.ok.inj same ▸ kept
      · simp only [bind_ok, require_ok] at done
        obtain ⟨-, -, -, -, -, -, same⟩ := done
        exact Except.ok.inj same ▸ .kept rfl
  | reserve uuid run key prepared now =>
      refine commit_cases (P := Admits db) kept fun db' done => ?_
      obtain ⟨result, reserved, rfl⟩ := map_ok.1 done
      exact reserveV1_admits reserved
  | admission uuid run receipt now at_ =>
      exact commit_cases (P := Admits db) kept fun _ => admitV1_admits
  | marker uuid run key admissionId ticket now =>
      refine commit_cases (P := Admits db) kept fun db' done => ?_
      simp only [Accounting.marker, bind_ok, require_ok] at done
      obtain ⟨-, -, -, -, ⟨t, core⟩, opened, -, -, done⟩ := done
      split at done
      · cases done
      · simp only [bind_ok, require_ok] at done
        obtain ⟨-, -, -, -, t', written, same⟩ := done
        exact Except.ok.inj same ▸ .kept (event_admissions written)
  | markUnknown ctx key => exact commit_cases (P := Admits db) kept fun _ => markUnknown_admits
  | terminalProjection ctx key terminal usage uuid =>
      refine commit_cases (P := Admits db) kept fun db' done => ?_
      simp only [Accounting.terminalProjection, bind_ok, require_ok] at done
      obtain ⟨⟨t, core⟩, opened, -, -, t', written, same⟩ := done
      exact Except.ok.inj same ▸ .transact opened (event_admissions written)
  | reconcile uuid ctx key observer recoveryDecision ids => exact reconcileV1_admits _ ids db
  | finish ctx key closed =>
      refine commit_cases (P := Admits db) kept fun db' done => ?_
      simp only [Accounting.finish, bind_ok, require_ok] at done
      obtain ⟨-, -, ⟨t, core⟩, -, same⟩ := done
      exact Except.ok.inj same ▸ .shut key ctx.ownerGeneration rfl
  | persistCompletion ctx completion uuid =>
      refine commit_cases (P := Admits db) kept fun db' done => ?_
      simp only [Accounting.persistCompletion, bind_ok] at done
      obtain ⟨⟨t, core⟩, opened, done⟩ := done
      split at done
      · exact Except.ok.inj done ▸ kept
      · simp only [bind_ok, require_ok] at done
        obtain ⟨t', written, -, -, same⟩ := done
        have events : t'.db.admissions = db.admissions :=
          (event_admissions written).trans (congrArg Db.admissions (openCall_ok opened).2.1)
        exact Except.ok.inj same ▸ .kept events
  | recoverCall readScope key decisionId generation ownerId closed =>
      refine commit_cases (P := Admits db) kept fun db' done => ?_
      simp only [Accounting.recoverCall, bind_ok, require_ok] at done
      obtain ⟨-, -, -, -, ⟨t, core⟩, -, -, -, -, -, same⟩ := done
      exact Except.ok.inj same ▸ .shut key generation rfl
  | restoreLiability uuid readScope key decisionId ownerId evidence covered =>
      exact commit_cases (P := Admits db) kept fun _ => restoreLiability_admits
  | inventory authority now =>
      refine commit_cases (P := Admits db) kept fun db' done => ?_
      obtain ⟨result, listed, rfl⟩ := map_ok.1 done
      simp only [Accounting.inventory, bind_ok, require_ok] at listed
      obtain ⟨-, -, -, -, -, -, same⟩ := listed
      obtain rfl := Except.ok.inj same
      exact .kept rfl
  | resumeBudgets authority listed scope decisionId account task now =>
      refine commit_cases (P := Admits db) kept fun db' done => ?_
      simp only [Accounting.resumeBudgets, bind_ok, require_ok] at done
      obtain ⟨⟨accountBudget, taskBudget⟩, -, -, -, -, -, -, -, same⟩ := done
      rw [← Except.ok.inj same]
      cases account <;> cases task <;> exact .kept rfl
  | cancel readScope key =>
      refine commit_cases (P := Admits db) kept fun db' done => ?_
      simp only [Accounting.cancelV1, bind_ok, require_ok] at done
      obtain ⟨-, -, ⟨t, core⟩, opened, -, -, same⟩ := done
      have before : t.db.admissions = db.admissions := congrArg Db.admissions (openCall_ok opened).2.1
      exact Except.ok.inj same ▸ .kept before
  | pauseAdmission deployment => exact .kept rfl
  | recordDecision decisionId generation =>
      refine commit_cases (P := Admits db) kept fun db' done => ?_
      simp only [Accounting.recordDecision, bind_ok, require_ok] at done
      obtain ⟨-, -, same⟩ := done
      exact Except.ok.inj same ▸ .kept rfl

end Operations

/-! ## The law over runs -/

section Runs

variable {H : Hashes} {db db' : Db}

/-- One row after `closeAdmissions`. -/
theorem becomes_close (key : ReservationKey) (generation : Nat) (a : Admission) :
    a.Becomes (if a.key = key ∧ a.ownerGeneration = generation then { a with closed := true } else a) := by
  split
  · cases closed : a.closed with
    | true =>
        left
        rw [← closed]
    | false => exact .inr ⟨closed, rfl⟩
  · exact .inl rfl

theorem Admits.apart (admits : Admits db db') (apart : db.admissions.Pairwise Admission.Apart) :
    db'.admissions.Pairwise Admission.Apart := by
  cases admits with
  | kept same => rwa [same]
  | inserted a opened grown fresh free spaced =>
      rw [grown, List.pairwise_append]
      refine ⟨apart, List.pairwise_singleton _ _, fun b member c last => ?_⟩
      obtain rfl := List.mem_singleton.1 last
      exact ⟨fresh b member, fun shares => .inl (free b member shares), spaced b member⟩
  | shut key generation closed =>
      rw [closed, closeAdmissions, List.pairwise_map]
      exact apart.imp fun both => both.becomes (becomes_close key generation _)
        (becomes_close key generation _)

/-- Every row stays, open or closed. -/
theorem Admits.keeps (admits : Admits db db') {a : Admission} (member : a ∈ db.admissions) :
    ∃ a' ∈ db'.admissions, a.Becomes a' := by
  cases admits with
  | kept same => exact ⟨a, same ▸ member, .inl rfl⟩
  | inserted b opened grown => exact ⟨a, grown ▸ List.mem_append_left _ member, .inl rfl⟩
  | shut key generation closed =>
      exact ⟨_, closed ▸ List.mem_map_of_mem member, becomes_close key generation a⟩

theorem apart_of_reachable (reach : (accounting H).Reachable db) :
    db.admissions.Pairwise Admission.Apart := by
  refine System.Reachable.invariant (I := fun db => db.admissions.Pairwise Admission.Apart)
    (fun s initial => ?_) (fun s op t apart step => ?_) reach
  · obtain rfl : s = .empty := initial
    exact List.Pairwise.nil
  · obtain rfl : t = op.apply H s := step
    exact (Op.admits H s op).apart apart

theorem keeps_of_run {trace : List Op} (run : (accounting H).Run db trace db') {a : Admission}
    (member : a ∈ db.admissions) : ∃ a' ∈ db'.admissions, a.Becomes a' := by
  refine System.Run.preserves (I := fun s => ∃ a' ∈ s.admissions, a.Becomes a')
    (fun s op t kept step => ?_) run ⟨a, member, .inl rfl⟩
  obtain rfl : t = op.apply H s := step
  obtain ⟨b, present, before⟩ := kept
  obtain ⟨c, present', after⟩ := (Op.admits H s op).keeps present
  exact ⟨c, present', before.trans after⟩

end Runs

/-- **Exclusive and spaced admissions.**  In every reachable state two different
admissions have different keys, and if they share the account or the deployment
then one of them is closed and they lie a second apart.  A key that has been
admitted is not admitted again; a row stays for ever, and once closed stays as it
is. -/
theorem admissions_exclusive {H : Hashes} {db : Db} (reach : (accounting H).Reachable db) :
    (∀ a ∈ db.admissions, ∀ b ∈ db.admissions, a ≠ b → a.key ≠ b.key ∧
      (a.Shares b → (a.closed = true ∨ b.closed = true) ∧
        1000000 ≤ |a.admittedAt - b.admittedAt|)) ∧
    db.admissions.Nodup ∧
    (∀ uuid run receipt now at_ db', admitV1 H uuid run receipt now at_ db = .ok db' →
      ∀ a ∈ db.admissions, a.key ≠ receipt.key) ∧
    ∀ trace db', (accounting H).Run db trace db' → ∀ a ∈ db.admissions,
      ∃ a' ∈ db'.admissions, a.Becomes a' := by
  have apart := apart_of_reachable reach
  refine ⟨?_, ?_, ?_, fun trace db' run a member => keeps_of_run run member⟩
  · intro a first b second other
    have separate : db.admissions.Pairwise Admission.Separate := apart.imp fun both => both.separate
    exact separate.forall first second other
  · exact apart.imp fun both same => both.key (congrArg Admission.key same)
  · intro uuid run receipt now at_ db' done a member
    simp only [admitV1, bind_ok, require_ok] at done
    obtain ⟨-, -, ⟨t, core⟩, -, -, -, -, -, -, -, -, -, -, -, -, -, -, unused, -⟩ := done
    exact (unused a member).1

/-! ## Two calls, one after the other -/

def dayPolicy : Policy := { samplePolicy with expiresAt := 86400000000 }

def dayCore (ref : Id) : BindingCore := { sampleCore ref with expiresAt := 80000000 }

/-- The receipt of the call `ref`, whose first draw was `reservationId`. -/
def dayReceipt (ref reservationId : Id) : Receipt :=
  ⟨sampleKey ref, reservationId, 1, 1, minimumReserved, 80000000, minimumReserved_self, minimumReserved_le_maxN⟩

/-- The first call is admitted, finished and settled; the second is admitted a
second later. -/
def twoAdmissions : List Op :=
  [.installPolicy sampleScope .account dayPolicy, .installPolicy sampleScope .task dayPolicy,
    .reserve (fun n => n) (sampleRun 1) (sampleKey 1) ⟨dayCore 1, 8⟩ 10,
    .admission (fun n => 10 + n) (sampleRun 1) (dayReceipt 1 0) 20 30,
    .finish (.run (sampleRun 1)) (sampleKey 1) true,
    .reconcile (fun n => 20 + n) (.run (sampleRun 1)) (sampleKey 1)
      (steadyObserver [sampleObservation 1 30 .finalUsage (sampleUsage 100 hundred_le_maxN)]) none [30],
    .reserve (fun n => 40 + n) (sampleRun 2) (sampleKey 2) ⟨dayCore 2, 8⟩ 50,
    .admission (fun n => 50 + n) (sampleRun 2) (dayReceipt 2 40) 60 1000030]

theorem admissions_exclusive_two :
    ∃ a b, (Db.after sampleHashes twoAdmissions).admissions = [a, b] ∧ a.Shares b ∧
      b.closed = false ∧ (a.closed = true ∨ b.closed = true) ∧
      1000000 ≤ |a.admittedAt - b.admittedAt| := by
  let a : Admission := ⟨sampleKey 1, 10, 5, 6, 1, 30, 80000000, true⟩
  let b : Admission := ⟨sampleKey 2, 50, 5, 6, 1, 1000030, 80000000, false⟩
  have both : (Db.after sampleHashes twoAdmissions).admissions = [a, b] := by decide +kernel
  have shares : a.Shares b := .inl rfl
  have different : a ≠ b := by decide
  have law := (admissions_exclusive (reachable_after sampleHashes twoAdmissions)).1 a
    (by rw [both]; exact List.mem_cons_self) b (by rw [both]; exact List.mem_cons_of_mem _ List.mem_cons_self)
    different
  exact ⟨a, b, both, shares, rfl, law.2 shares⟩

end ApiSecurityPlatform.Accounting
