/-
# Broker.Sends -- a request is sent at most once, and not before it is on record

Whatever fails, however the operations of the broker are interleaved, and whatever becomes of J's
file while no broker runs, W keeps what it has witnessed.

* `Good`: what every broker has, whoever has written J's file; most of it is about an open broker;
* `operate_outcome`: what one operation does to a broker and its witness (`Outcome`);
* `sends_once`: in a whole run, restarts included, one request is handed to the socket at most, none
  after an invalidation was acknowledged, and the one there is was on record before (`Recorded`).
-/
import ApiSecurityPlatform.Broker.Authority
import ApiSecurityPlatform.Theory.Triple
import ApiSecurityPlatform.Accounting.Conservation

namespace ApiSecurityPlatform.Broker

open ApiSecurityPlatform.Theory
open ApiSecurityPlatform.Accounting (Id PortCode ReservationKey BindingCore Receipt UsageView)
open ApiSecurityPlatform.Authority

set_option autoImplicit false
set_option linter.dupNamespace false

/-! ## What J and W keep -/

section Stores

variable {D P L : Type} [DecidableEq D] [DecidableEq P] {p : Protocol D P L} {w : Witness D P} {value : Event D P}
  {fault conflictFault : Option Written}

/-- A witness that answers has on its file what it has in memory. -/
def Witness.Kept (w : Witness D P) : Prop := w.conflict = true ∨ w.Synced

theorem Witness.conflicted_keeps (p : Protocol D P L) (w : Witness D P) (value : Event D P) (fault : Option Written) :
    (w.conflicted p value fault).Kept ∧
    (w.conflicted p value fault).journal.file.wEvents = w.journal.file.wEvents := by
  obtain ⟨conflict, -, file⟩ := Witness.conflicted_events p w value fault
  exact ⟨.inl conflict, file⟩

theorem Witness.append_keeps (p : Protocol D P L) (value : Event D P) (fault conflictFault : Option Written)
    (kept : w.Kept) : (w.append p value fault conflictFault).2.Kept ∧
    w.journal.file.wEvents <+: (w.append p value fault conflictFault).2.journal.file.wEvents := by
  by_cases live : w.journal.intact ∧ w.conflict = false ∧ validateEvent p value
  swap
  · rw [Witness.append, if_pos live]
    exact ⟨kept, List.prefix_refl _⟩
  have synced : w.Synced := kept.resolve_left (by simp [live.2.1])
  cases found : w.events.find? fun r => r.eventId = value.eventId with
  | some old =>
      rw [Witness.append, if_neg (not_not.2 live), found]
      dsimp only
      split
      · exact ⟨kept, List.prefix_refl _⟩
      · obtain ⟨kept', file⟩ := conflicted_keeps p w value conflictFault
        exact ⟨kept', file ▸ List.prefix_refl _⟩
  | none =>
      have fresh : ∀ e ∈ w.events, e.eventId ≠ value.eventId := fun e mem same =>
        absurd (List.find?_eq_none.1 found e mem) (by simp [same])
      rcases w.append_spec p value fault conflictFault synced fresh with ⟨-, events, synced'⟩ | ⟨-, -, kept', file⟩
      · refine ⟨.inr synced', ?_⟩
        rw [← synced, ← synced', events]
        exact List.prefix_append _ _
      · refine ⟨kept', ?_⟩
        rw [← synced]
        rcases file with same | longer
        · rw [same]
        · rw [longer]
          exact List.prefix_append _ _

/-- W acknowledges what is on its file. -/
theorem Witness.append_logged (kept : w.Kept) {ack : Ack D} (acked : (w.append p value fault conflictFault).1 = some ack) :
    value ∈ (w.append p value fault conflictFault).2.journal.file.wEvents := by
  by_cases live : w.journal.intact ∧ w.conflict = false ∧ validateEvent p value
  swap
  · rw [Witness.append, if_pos live] at acked
    cases acked
  have synced : w.Synced := kept.resolve_left (by simp [live.2.1])
  cases found : w.events.find? fun r => r.eventId = value.eventId with
  | some old =>
      rw [Witness.append, if_neg (not_not.2 live), found] at acked ⊢
      dsimp only at acked ⊢
      split at acked
      next same =>
        rw [if_pos same]
        dsimp only
        rw [← synced, ← same]
        exact List.mem_of_find?_eq_some found
      next => cases acked
  | none =>
      have fresh : ∀ e ∈ w.events, e.eventId ≠ value.eventId := fun e mem same =>
        absurd (List.find?_eq_none.1 found e mem) (by simp [same])
      rcases w.append_spec p value fault conflictFault synced fresh with ⟨-, events, synced'⟩ | ⟨silent, -⟩
      · rw [← synced', events]
        exact List.mem_append_right _ List.mem_cons_self
      · rw [silent] at acked
        cases acked

variable {s : Stores D P L} {o : Observations D P L} {faults : Faults}

/-- W after a call: it is as honest as before, and nothing has left its file. -/
structure Stores.Witnessed (s : Stores D P L) (w' : Process (File (WRow D P)) (Witness D P)) : Prop where
  kept : ∀ x, w' = .up x → x.Kept
  grows : s.wFile.wEvents <+: ({ s with w := w' } : Stores D P L).wFile.wEvents

omit [DecidableEq D] [DecidableEq P] in
theorem Stores.Witnessed.self (kept : ∀ x, s.w = .up x → x.Kept) : s.Witnessed s.w :=
  ⟨kept, List.prefix_refl _⟩

theorem Observations.request_witnessed (value : Event D P) (faults : Faults) (kept : ∀ x, s.w = .up x → x.Kept) :
    s.Witnessed (s.withWitness (Observations.request p s.witness? value faults).2) ∧
      ((Observations.request p s.witness? value faults).1 ≠ none →
        value ∈ ({ s with w := s.withWitness (Observations.request p s.witness? value faults).2 } :
          Stores D P L).wFile.wEvents) := by
  obtain ⟨j, w⟩ := s
  cases w with
  | down file => exact ⟨.self kept, fun answered => absurd rfl answered⟩
  | up w =>
      simp only [Stores.witness?, Observations.request]
      split
      · exact ⟨⟨kept, List.prefix_refl _⟩, fun answered => absurd rfl answered⟩
      obtain ⟨kept', grows⟩ := w.append_keeps p value faults.witness faults.conflict (kept w rfl)
      refine ⟨⟨?_, grows⟩, fun answered => ?_⟩
      · rintro _ ⟨⟩
        exact kept'
      · obtain ⟨ack, given⟩ := Option.ne_none_iff_exists'.1 answered
        refine (Witness.append_logged (kept w rfl) : _ = some ack → _) ?_
        revert given
        split
        · intro given
          cases given
        · exact fun given => given

omit [DecidableEq D] [DecidableEq P] in
theorem Observations.Synced.acknowledged (synced : o.Synced) {o' : Observations D P L} {ack : Ack D}
    (rows : o'.journal.file.rows = o.journal.file.rows ++ [.event value] ++ [.ack ack])
    (events : o'.events = o.events ++ [value]) (acks : o'.acks = o.acks ++ [ack]) : o'.Synced := by
  constructor
  · rw [events, synced.events, File.jEvents, File.jEvents, rows, List.append_assoc, List.filterMap_append]
    rfl
  · rw [acks, synced.acks, File.acks, File.acks, rows, List.append_assoc, List.filterMap_append]
    rfl

/-- J in one process: events are added at the end, and acknowledgements with them only. -/
structure Observations.Grew (o o' : Observations D P L) : Prop where
  events : o.events <+: o'.events
  acks : o'.events.length = o.events.length → o'.acks = o.acks

namespace Observations.Grew

variable {a b c : Observations D P L}

omit [DecidableEq D] [DecidableEq P] in
theorem same (events : b.events = a.events) (acks : b.acks = a.acks) : Grew a b :=
  ⟨events ▸ List.prefix_refl _, fun _ => acks⟩

omit [DecidableEq D] [DecidableEq P] in
theorem longer (events : b.events = a.events ++ [value]) : Grew a b :=
  ⟨events ▸ List.prefix_append _ _, fun same => absurd same (by simp [events])⟩

omit [DecidableEq D] [DecidableEq P] in
theorem trans (first : Grew a b) (second : Grew b c) : Grew a c := by
  refine ⟨first.events.trans second.events, fun same => ?_⟩
  have most := second.events.length_le
  have least := first.events.length_le
  exact (second.acks (by omega)).trans (first.acks (by omega))

end Observations.Grew

/-- An append of J's that gets as far as a write. -/
theorem Observations.record_cases (w : Option (Witness D P)) (value : Event D P) (faults : Faults) :
    ((o.record p w value faults).1 = none ∧ (o.record p w value faults).2.1.failed = true ∧
      Grew o (o.record p w value faults).2.1 ∧
      ((o.record p w value faults).2.2 = w ∨ (o.record p w value faults).2.2 = (request p w value faults).2)) ∨
    ((o.record p w value faults).1 = some value ∧ (o.Synced → (o.record p w value faults).2.1.Synced) ∧
      (o.record p w value faults).2.1.events = o.events ++ [value] ∧
      (o.record p w value faults).2.2 = (request p w value faults).2 ∧ (request p w value faults).1 ≠ none) := by
  unfold Observations.record
  split
  · exact .inl ⟨rfl, rfl, .same rfl rfl, .inl rfl⟩
  dsimp only
  rcases Journal.append_cases o.journal (p.small value) (.event value) faults.event with
    ⟨returned, written⟩ | ⟨raised, -⟩
  swap
  · rw [raised, if_pos rfl]
    exact .inl ⟨rfl, rfl, .same rfl rfl, .inl rfl⟩
  rw [returned, if_neg (by simp), written]
  split
  · exact .inl ⟨rfl, rfl, (.longer rfl), .inl rfl⟩
  split
  · exact .inl ⟨rfl, rfl, (.longer rfl), .inr rfl⟩
  next ack given =>
  split
  · exact .inl ⟨rfl, rfl, (.longer rfl), .inr rfl⟩
  split
  · exact .inl ⟨rfl, rfl, (.longer rfl), .inr rfl⟩
  rcases Journal.append_cases { o.journal with
      file := { o.journal.file with rows := o.journal.file.rows ++ [.event value] }
      rows := o.journal.rows ++ [.event value] } true (.ack ack) faults.ack with
    ⟨returned, written⟩ | ⟨raised, -⟩
  swap
  · rw [raised, if_pos rfl]
    exact .inl ⟨rfl, rfl, (.longer rfl), .inr rfl⟩
  rw [returned, if_neg (by simp), written]
  split
  · exact .inl ⟨rfl, rfl, (.longer rfl), .inr rfl⟩
  · exact .inr ⟨rfl, fun synced => synced.acknowledged rfl rfl rfl, rfl, rfl, by simp [given]⟩

variable [DecidableEq L]

/-- Coverage counts as many events in W as in J. -/
theorem Observations.covered_witness (kept : ∀ x, s.w = .up x → x.Kept)
    (covered : (o.coverage p (reach p s.witness? faults)).1 = true) :
    ∃ w, s.w = .up w ∧ w.Synced ∧ w.events.length = o.events.length := by
  obtain ⟨-, -, answer, reached, sequence⟩ := coverage_local covered
  obtain ⟨w, found, quiet, counted⟩ := reach_eq_some reached
  have running : s.w = .up w := by
    unfold Stores.witness? at found
    split at found
    · cases found
    next w' eq =>
      cases found
      exact eq
  exact ⟨w, running, (kept w running).resolve_left (by simp [quiet]), counted.symm.trans sequence⟩

theorem Observations.covered_logged (kept : ∀ x, s.w = .up x → x.Kept)
    (covered : (o.coverage p (reach p s.witness? faults)).1 = true) :
    s.wFile.wEvents.length = o.events.length := by
  obtain ⟨w, running, synced, counted⟩ := covered_witness kept covered
  rw [Stores.wFile, running]
  dsimp only
  rw [← synced, counted]

/-- What one append of J's leaves, whether it returns or raises. -/
structure Observations.Appended (p : Protocol D P L) (s : Stores D P L) (o : Observations D P L) (kind : Kind) (data : P)
    (result : Option (Event D P) × Observations D P L × Option (Witness D P)) : Prop where
  grew : Grew o result.2.1
  synced : o.failed = true ∨ o.Synced → result.2.1.failed = true ∨ result.2.1.Synced
  witnessed : s.Witnessed (s.withWitness result.2.2)
  returned : ∀ e, result.1 = some e → e ∈ result.2.1.events ∧ e.kind = kind ∧ e.data = data ∧
    ({ s with w := s.withWitness result.2.2 } : Stores D P L).wFile.wEvents ≠ []

omit [DecidableEq D] [DecidableEq P] [DecidableEq L] in
theorem makeEvent_eq {stream : String} {sequence : Nat} {previous : D} {eventId : String} {kind : Kind} {data : P}
    (made : makeEvent p stream sequence previous eventId kind data = some value) :
    value.eventId = eventId ∧ value.kind = kind ∧ value.data = data := by
  unfold makeEvent at made
  dsimp only at made
  split at made
  · cases made
    exact ⟨rfl, rfl, rfl⟩
  · cases made

theorem Observations.append_appended (kept : ∀ x, s.w = .up x → x.Kept) (eventId : String) (kind : Kind) (data : P)
    (faults : Faults) :
    Appended p s o kind data (o.append p s.witness? eventId kind data faults) := by
  have same : s.Witnessed (s.withWitness s.witness?) := by
    rw [Stores.withWitness_self]
    exact .self kept
  unfold Observations.append
  split
  next old found =>
    have mem := List.mem_of_find?_eq_some found
    dsimp only
    by_cases differ : old.kind ≠ kind ∨ old.data ≠ data
    · rw [if_pos differ, if_pos (show o.fail.failed = true from rfl)]
      exact ⟨.same rfl rfl, fun _ => .inl rfl, same, fun e given => by cases given⟩
    · rw [if_neg differ]
      split
      · exact ⟨.same rfl rfl, fun honest => honest, same, fun e given => by cases given⟩
      · obtain ⟨retained, looked⟩ := coverage_state (p := p) (o := o) (reach p s.witness? faults)
        rw [looked]
        refine ⟨.same rfl rfl, fun honest => honest.imp_right fun synced => ⟨synced.events, synced.acks⟩, same,
          fun e given => ?_⟩
        dsimp only at given
        split at given
        · next covered =>
          cases given
          push Not at differ
          refine ⟨mem, differ.1, differ.2, fun empty => ?_⟩
          have counted := covered_logged kept covered
          rw [Stores.withWitness_self] at empty
          rw [empty, List.length_nil] at counted
          exact List.not_mem_nil (List.length_eq_zero_iff.1 counted.symm ▸ mem)
        · cases given
  next unseen =>
    dsimp only
    obtain ⟨retained, looked⟩ := coverage_state (p := p) (o := o) (reach p s.witness? faults)
    rw [looked]
    have honest (honest : o.failed = true ∨ o.Synced) : ({ o with retained } : Observations D P L).failed = true ∨
        ({ o with retained } : Observations D P L).Synced := honest.imp_right fun synced => ⟨synced.events, synced.acks⟩
    split
    · exact ⟨.same rfl rfl, honest, same, fun e given => by cases given⟩
    next covered =>
    have live := (coverage_local (Bool.eq_true_of_not_eq_false covered)).1
    split
    · exact ⟨.same rfl rfl, honest, same, fun e given => by cases given⟩
    next value made =>
    obtain ⟨-, kind', data'⟩ := makeEvent_eq made
    obtain ⟨requested, delivered⟩ := request_witnessed (p := p) value faults kept
    rcases record_cases (p := p) (o := { o with retained }) s.witness? value faults with
      ⟨raised, failed, grew, w⟩ | ⟨returned, synced, events, w, answered⟩
    · refine ⟨⟨grew.events, grew.acks⟩, fun _ => .inl failed, ?_, fun e given => ?_⟩
      · rcases w with w | w
        · rw [w]
          exact same
        · rw [w]
          exact requested
      · rw [raised] at given
        cases given
    · refine ⟨?_, fun before => .inr (synced ((honest before).resolve_left (by simp [live]))), ?_, fun e given => ?_⟩
      · exact .longer events
      · rw [w]
        exact requested
      · rw [returned] at given
        cases given
        refine ⟨?_, kind', data', ?_⟩
        · rw [events]
          exact List.mem_append_right _ List.mem_cons_self
        · rw [w]
          exact List.ne_nil_of_mem (delivered answered)

end Stores

/-! ## What every broker has -/

section Brokers

variable {D : Type}

/-- What is on W's file. -/
def logged (w : Process (File (WRow D Data)) (Witness D Data)) : List (Event D Data) :=
  match w with
  | .down file => file.wEvents
  | .up x => x.journal.file.wEvents

theorem wFile_logged {L : Type} (s : Stores D Data L) : s.wFile.wEvents = logged s.w := by
  obtain ⟨j, w⟩ := s
  cases w <;> rfl

/-- What an open broker keeps is for the body its call is bound to. -/
structure Bound (g : Setting D) (b : Broker D) : Prop where
  preparing : ∀ body, b.preparing = some body → ∃ x, b.binding = some x ∧ g.digest body = x.core.bodyDigest
  request : ∀ r, b.request = some (some r) → ∃ x, b.binding = some x ∧ g.digest r.body = x.core.bodyDigest
  ticket : ∀ t, b.ticket = some t → ∃ x, b.binding = some x ∧ t.bodyDigest = x.core.bodyDigest
  permit : ∀ q, b.permit = some q → ∃ x, b.binding = some x ∧ q.bodyDigest = x.core.bodyDigest
  socket : b.socket = true → b.request ≠ some none

/-- Nothing was bound. -/
structure Fresh (b : Broker D) : Prop where
  binding : b.binding = none
  ticket : b.ticket = none
  permit : b.permit = none
  request : b.request = none
  preparing : b.preparing = none
  socket : b.socket = false
  operations : b.operations = []

theorem Fresh.bound {g : Setting D} {b : Broker D} (fresh : Fresh b) : Bound g b where
  preparing _ set := absurd (set.symm.trans fresh.preparing) (Option.some_ne_none _)
  request _ set := absurd (set.symm.trans fresh.request) (Option.some_ne_none _)
  ticket _ set := absurd (set.symm.trans fresh.ticket) (Option.some_ne_none _)
  permit _ set := absurd (set.symm.trans fresh.permit) (Option.some_ne_none _)
  socket open_ := absurd (open_.symm.trans fresh.socket) Bool.true_eq_false.mp

theorem Bound.withJ {g : Setting D} {b : Broker D} (bound : Bound g b) (j : Observations D Data Liability) :
    Bound g { b with j := j } :=
  ⟨bound.preparing, bound.request, bound.ticket, bound.permit, bound.socket⟩

theorem Fresh.withJ {b : Broker D} (fresh : Fresh b) (j : Observations D Data Liability) : Fresh { b with j := j } :=
  ⟨fresh.binding, fresh.ticket, fresh.permit, fresh.request, fresh.preparing, fresh.socket, fresh.operations⟩

variable [DecidableEq D]

/-- A broker and its witness.  J's file may be anybody's: it is an open broker that agrees with W. -/
structure Good (g : Setting D) (b : Broker D) (w : Process (File (WRow D Data)) (Witness D Data)) : Prop where
  witness : ∀ x, w = .up x → x.Kept
  journal : b.j.failed = true ∨ b.j.Synced
  inv : b.state = .opened → Stores.Inv g.p ⟨.up b.j, w⟩
  bound : b.state = .opened → Bound g b
  begun : b.state = .opened → b.j.events ≠ []
  idle : b.state = .opened → b.operations = []
  fresh : b.j.events = [] → Fresh b

/-- What a run of operations leaves as it was, or lets go one way only. -/
structure Moved (g : Setting D) (s : Sys D) (b : Broker D) (w : Process (File (WRow D Data)) (Witness D Data)) (sent : List (Sent D)) :
    Prop where
  opened : b.state = .opened → s.broker.state = .opened ∨ logged s.w = []
  consumed : s.broker.consumed = true → b.consumed = true
  grew : s.broker.j.Grew b.j
  inv : Stores.Inv g.p s.stores → Stores.Inv g.p ⟨.up b.j, w⟩
  logged : logged s.w <+: logged w
  sent : sent = s.sent

/-- A claim about what a broker holds; the turns it has taken are left out. -/
abbrev Claim (D : Type) := Broker D → Process (File (WRow D Data)) (Witness D Data) → List (Sent D) → Prop

def At (P : Claim D) (s : Sys D) : Prop := P s.broker s.w s.sent

def Ok (g : Setting D) (s₀ : Sys D) : Claim D := fun b w sent => Good g b w ∧ Moved g s₀ b w sent

/-- The broker is `b`, J apart. -/
def Same (b : Broker D) : Claim D := fun b' _ _ => b' = { b with j := b'.j }

/-- Whatever comes of `x`, what every broker has is kept; where it finishes, `Q` holds. -/
def Keeps {α : Type} (g : Setting D) (s₀ : Sys D) (R : Claim D) (x : Op D α) (Q : α → Claim D) : Prop :=
  Tx.Triple (fun s => At (Ok g s₀) s ∧ At R s) x (fun a s => At (Ok g s₀) s ∧ At (Q a) s) (At (Ok g s₀))

section Rules

variable {α β : Type} {g : Setting D} {s₀ : Sys D} {R R' : Claim D} {x : Op D α} {Q Q' : α → Claim D} {b : Broker D}

theorem keeps_bind {T : β → Claim D} {f : α → Op D β} (first : Keeps g s₀ R x Q) (next : ∀ a, Keeps g s₀ (Q a) (f a) T) :
    Keeps g s₀ R (x >>= f) T := Tx.triple_bind first next

theorem Keeps.mono (keeps : Keeps g s₀ R x Q) (before : ∀ b w sent, R' b w sent → R b w sent)
    (after : ∀ a b w sent, Q a b w sent → Q' a b w sent) : Keeps g s₀ R' x Q' :=
  Tx.Triple.mono keeps (fun _ here => ⟨here.1, before _ _ _ here.2⟩) (fun a _ here => ⟨here.1, after a _ _ _ here.2⟩)
    fun _ here => here

/-- At the end, what every broker has may be used. -/
theorem Keeps.use (keeps : Keeps g s₀ R x Q) (after : ∀ a b w sent, Ok g s₀ b w sent → Q a b w sent → Q' a b w sent) :
    Keeps g s₀ R x Q' :=
  Tx.Triple.post keeps fun a _ here => ⟨here.1, after a _ _ _ here.1 here.2⟩

/-- And at the front. -/
theorem Keeps.known (keeps : Keeps g s₀ R x Q) (before : ∀ b w sent, Ok g s₀ b w sent → R' b w sent → R b w sent) :
    Keeps g s₀ R' x Q :=
  Tx.Triple.pre keeps fun _ here => ⟨here.1, before _ _ _ here.1 here.2⟩

theorem keeps_pure {a : α} (holds : ∀ b w sent, R b w sent → Q a b w sent) : Keeps g s₀ R (pure a) Q :=
  Tx.triple_pure fun _ here => ⟨here.1, holds _ _ _ here.2⟩

theorem keeps_raise {e : PortCode} : Keeps g s₀ R (Tx.raise e : Op D α) Q := Tx.triple_raise fun _ here => here.1

/-- What is known before a run may be used of it. -/
theorem keeps_enter (each : ∀ b w sent, Ok g s₀ b w sent → R b w sent → Keeps g s₀ (Same b) x Q) : Keeps g s₀ R x Q := by
  intro s here
  exact each s.broker s.w s.sent here.1 here.2 s ⟨here.1, rfl⟩

theorem keeps_fact {φ : Prop} (each : φ → Keeps g s₀ R x Q) : Keeps g s₀ (fun b w sent => R b w sent ∧ φ) x Q := by
  intro s here
  exact each here.2.2 s ⟨here.1, here.2.1⟩

theorem keeps_draw : Keeps g s₀ R draw fun _ => R := fun _ here => here

theorem keeps_self : Keeps g s₀ R self fun a b' w sent => R b' w sent ∧ b' = a :=
  fun _ here => ⟨here.1, here.2, rfl⟩

theorem keeps_check {c : Prop} [Decidable c] {e : PortCode} :
    Keeps g s₀ R (check c e) fun _ b w sent => R b w sent ∧ c := by
  refine Tx.Triple.post (Tx.triple_refuse fun _ here => here.1) fun _ s here => ?_
  exact ⟨here.1.1, here.1.2, not_not.1 here.2⟩

theorem keeps_demand {v : Option α} {e : PortCode} :
    Keeps g s₀ R (demand v e) fun a b w sent => R b w sent ∧ v = some a := by
  cases v with
  | none => exact keeps_raise
  | some a => exact keeps_pure fun b w sent here => ⟨here, rfl⟩

theorem keeps_monotonic : Keeps g s₀ R monotonic fun _ => R :=
  keeps_bind keeps_draw fun _ => keeps_pure fun _ _ _ here => here

theorem keeps_now : Keeps g s₀ R now fun _ => R :=
  keeps_bind keeps_self fun _ => keeps_bind keeps_monotonic fun _ => keeps_pure fun _ _ _ here => here.1

theorem keeps_hook : Keeps g s₀ R hook fun _ => R :=
  keeps_bind keeps_draw fun _ => keeps_check.mono (fun _ _ _ here => here) fun _ _ _ _ here => here.1

/-! One rule for each statement at the front of a program. -/

theorem keeps_draw_bind {T : β → Claim D} {f : Env → Op D β} (next : ∀ env, Keeps g s₀ R (f env) T) :
    Keeps g s₀ R (draw >>= f) T := keeps_bind keeps_draw next

theorem keeps_self_of {T : β → Claim D} {f : Broker D → Op D β} (same : ∀ b' w sent, R b' w sent → Same b b' w sent)
    (next : ∀ a, a = { b with j := a.j } → Keeps g s₀ R (f a) T) : Keeps g s₀ R (self >>= f) T := by
  refine keeps_bind keeps_self fun a => ?_
  have kept (b' : Broker D) (w) (sent) (here : R b' w sent ∧ b' = a) : R b' w sent ∧ a = { b with j := a.j } := by
    obtain ⟨here, rfl⟩ := here
    exact ⟨here, same _ _ _ here⟩
  exact Keeps.mono (keeps_fact fun same => next a same) kept fun _ _ _ _ here => here

theorem keeps_self_bind {T : β → Claim D} {f : Broker D → Op D β}
    (next : ∀ a, a = { b with j := a.j } → Keeps g s₀ (Same b) (f a) T) : Keeps g s₀ (Same b) (self >>= f) T :=
  keeps_self_of (fun _ _ _ here => here) next

theorem keeps_check_bind {c : Prop} [Decidable c] {e : PortCode} {T : β → Claim D} {f : Unit → Op D β}
    (next : c → Keeps g s₀ R (f ()) T) : Keeps g s₀ R (check c e >>= f) T :=
  keeps_bind keeps_check fun _ => keeps_fact next

theorem keeps_demand_bind {v : Option α} {e : PortCode} {T : β → Claim D} {f : α → Op D β}
    (next : ∀ a, v = some a → Keeps g s₀ R (f a) T) : Keeps g s₀ R (demand v e >>= f) T :=
  keeps_bind keeps_demand fun a => keeps_fact (next a)

theorem keeps_when {c : Prop} [Decidable c] {x : Op D Unit} {Q : Claim D} (then_ : c → Keeps g s₀ R x fun _ => Q)
    (else_ : ∀ b w sent, R b w sent → ¬ c → Q b w sent) : Keeps g s₀ R (Tx.when c x) fun _ => Q :=
  Tx.triple_when then_ fun _ here free => ⟨here.1, else_ _ _ _ here.2 free⟩

end Rules

/-! ## Changes of a field, looks at coverage, appends -/

section Primitives

variable {g : Setting D} {s₀ : Sys D} {b b' : Broker D}

/-- A change that opens nothing and binds nothing new. -/
structure Quiet (g : Setting D) (b b' : Broker D) : Prop where
  j : b'.j = b.j
  opened : b'.state = .opened → b.state = .opened
  consumed : b.consumed = true → b'.consumed = true
  bound : b'.state = .opened → Bound g b → Bound g b'
  idle : b'.state = .opened → b'.operations = b.operations
  fresh : b.j.events = [] → Fresh b → Fresh b'

theorem Quiet.ok (quiet : Quiet g b b') {w : Process (File (WRow D Data)) (Witness D Data)} {sent : List (Sent D)}
    (ok : Ok g s₀ b w sent) : Ok g s₀ b' w sent := by
  obtain ⟨good, moved⟩ := ok
  refine ⟨⟨good.witness, ?_, fun opened => ?_, fun opened => quiet.bound opened (good.bound (quiet.opened opened)),
    fun opened => ?_, fun opened => (quiet.idle opened).trans (good.idle (quiet.opened opened)), fun empty => ?_⟩,
    ⟨fun opened => moved.opened (quiet.opened opened), fun before => quiet.consumed (moved.consumed before),
      quiet.j ▸ moved.grew, quiet.j ▸ moved.inv, moved.logged, moved.sent⟩⟩
  · rw [quiet.j]
    exact good.journal
  · rw [quiet.j]
    exact good.inv (quiet.opened opened)
  · rw [quiet.j]
    exact good.begun (quiet.opened opened)
  · rw [quiet.j] at empty
    exact quiet.fresh empty (good.fresh empty)

/-- What is known of J and W is not touched. -/
theorem keeps_update_with {f : Broker D → Broker D}
    {P : Observations D Data Liability → Process (File (WRow D Data)) (Witness D Data) → Prop}
    (commutes : ∀ j, f { b with j := j } = { f b with j := j })
    (quiet : ∀ w sent j, P j w → Ok g s₀ { b with j := j } w sent → Quiet g { b with j := j } { f b with j := j }) :
    Keeps g s₀ (fun b' w sent => Same b b' w sent ∧ P b'.j w) (update f)
      fun _ b' w sent => Same (f b) b' w sent ∧ P b'.j w := by
  refine Tx.triple_modify fun s here => ?_
  obtain ⟨ok, same, known⟩ := here
  change Ok g s₀ (f s.broker) s.w s.sent ∧ f s.broker = { f b with j := (f s.broker).j } ∧ P (f s.broker).j s.w
  unfold At at ok
  have same : s.broker = { b with j := s.broker.j } := same
  rw [same] at ok ⊢
  rw [commutes]
  exact ⟨(quiet _ _ _ known ok).ok ok, rfl, known⟩

theorem keeps_update {f : Broker D → Broker D} (commutes : ∀ j, f { b with j := j } = { f b with j := j })
    (quiet : ∀ w sent j, Ok g s₀ { b with j := j } w sent → Quiet g { b with j := j } { f b with j := j }) :
    Keeps g s₀ (Same b) (update f) fun _ => Same (f b) :=
  (keeps_update_with (P := fun _ _ => True) commutes fun w sent j _ => quiet w sent j).mono
    (fun _ _ _ here => ⟨here, trivial⟩) fun _ _ _ _ here => here.1

theorem keeps_update_bind {α : Type} {f : Broker D → Broker D} {T : α → Claim D} {next : Unit → Op D α}
    (commutes : ∀ j, f { b with j := j } = { f b with j := j })
    (quiet : ∀ w sent j, Ok g s₀ { b with j := j } w sent → Quiet g { b with j := j } { f b with j := j })
    (rest : Keeps g s₀ (Same (f b)) (next ()) T) : Keeps g s₀ (Same b) (update f >>= next) T :=
  keeps_bind (keeps_update commutes quiet) fun _ => rest

/-- What a look that finds coverage says. -/
structure Full (g : Setting D) (b : Broker D) (w : Process (File (WRow D Data)) (Witness D Data)) : Prop where
  agreed : b.state = .opened → ∃ x, w = .up x ∧ Agreed g.p b.j x
  counted : (logged w).length = b.j.events.length
  owed : ∃ l, g.p.liability b.j.events = some l
  /-- Two empty journals agree, whoever wrote them. -/
  blank : b.j.events = [] → Stores.Inv g.p ⟨.up b.j, w⟩

theorem coverage_owed {D P L : Type} [DecidableEq D] [DecidableEq P] [DecidableEq L] {p : Protocol D P L}
    {o : Observations D P L} {status : Option (Status D L)} (covered : (o.coverage p status).1 = true) :
    ∃ l, p.liability o.events = some l := by
  unfold Observations.coverage at covered
  split at covered
  · cases covered
  split at covered
  · cases covered
  split at covered
  · cases covered
  dsimp only at covered
  split at covered
  · cases covered
  next recovery owed => exact ⟨recovery, owed⟩

theorem blank_inv {D P L : Type} [DecidableEq D] [DecidableEq P] [DecidableEq L] {p : Protocol D P L}
    {s : Stores D P L} {o : Observations D P L} {faults : Faults} (kept : ∀ x, s.w = .up x → x.Kept)
    (honest : o.failed = true ∨ o.Synced) (covered : (o.coverage p (Observations.reach p s.witness? faults)).1 = true)
    (empty : o.events = []) : Stores.Inv p ⟨.up o, s.w⟩ := by
  obtain ⟨live, whole, -⟩ := Observations.coverage_local covered
  have synced : o.Synced := honest.resolve_left (by simp [live])
  obtain ⟨w, running, seen, counted⟩ := Observations.covered_witness kept covered
  have none_ : w.events = [] := List.length_eq_zero_iff.1 (counted.trans (by rw [empty]; rfl))
  have acks : o.acks = [] := List.length_eq_zero_iff.1 (whole.symm.trans (by rw [empty]; rfl))
  rw [running]
  refine Stores.Paired.inv ⟨fun k mem v here => ?_, .inr synced, .inr seen⟩
  have first : k = ([], []) := by
    rcases List.mem_pair.1 mem with rfl | rfl
    · rw [← synced.events, ← synced.acks, empty, acks]
    · rw [empty, acks]
  have second : v = [] := by
    rcases List.mem_pair.1 here with rfl | rfl
    · exact seen.symm.trans none_
    · exact none_
  rw [first, second]
  exact .nil p

/-- Coverage changes the floor only. -/
theorem keeps_covered_with {P : List (Event D Data) → Prop} :
    Keeps g s₀ (fun b' w sent => Same b b' w sent ∧ P b'.j.events) (covered g)
      fun c b' w sent => (Same b b' w sent ∧ P b'.j.events) ∧ (c = true → Full g b' w) := by
  refine keeps_draw_bind fun env s here => ?_
  obtain ⟨⟨good, moved⟩, same, known⟩ := here
  obtain ⟨retained, looked⟩ := Observations.coverage_state (p := g.p) (o := s.broker.j)
    (Observations.reach g.p s.stores.witness? env.faults)
  have stepped : s.stores.step g.p "" (.coverage env.faults) = some ⟨.up { s.broker.j with retained }, s.w⟩ := by
    simp only [Stores.step, Sys.stores] at looked ⊢
    rw [looked]
  have inv (opened : s.broker.state = .opened) : Stores.Inv g.p ⟨.up { s.broker.j with retained }, s.w⟩ :=
    (good.inv opened).step stepped
  change Ok g s₀ { s.broker with j := (s.broker.j.coverage g.p _).2 } s.w s.sent ∧
    (Same b { s.broker with j := (s.broker.j.coverage g.p _).2 } s.w s.sent ∧ P (s.broker.j.coverage g.p _).2.events) ∧ _
  rw [looked]
  refine ⟨⟨⟨good.witness, good.journal.imp_right fun synced => ⟨synced.events, synced.acks⟩, inv,
    fun opened => (good.bound opened).withJ _, good.begun, good.idle, fun empty => (good.fresh empty).withJ _⟩,
    ⟨moved.opened, moved.consumed, moved.grew.trans (.same rfl rfl),
      fun before => (moved.inv before).step stepped, moved.logged, moved.sent⟩⟩, ⟨?_, known⟩,
    fun complete => ⟨fun opened => ?_, ?_, ?_, fun empty => ?_⟩⟩
  · have same : s.broker = { b with j := s.broker.j } := same
    change ({ s.broker with j := { s.broker.j with retained } } : Broker D) = { b with j := { s.broker.j with retained } }
    rw [same]
  · obtain ⟨x, up, agreed⟩ := (good.inv opened).agreed (o := s.broker.j) rfl complete
    exact ⟨x, up, agreed.complete, agreed.events, ⟨agreed.j.events, agreed.j.acks⟩, agreed.w⟩
  · have counted := Observations.covered_logged (s := s.stores) (o := s.broker.j) good.witness complete
    rwa [wFile_logged] at counted
  · exact coverage_owed (o := s.broker.j) complete
  · have inv := blank_inv (s := s.stores) (o := s.broker.j) good.witness good.journal complete empty
    exact inv.step stepped

theorem keeps_covered : Keeps g s₀ (Same b) (covered g) fun c b' w sent => Same b b' w sent ∧ (c = true → Full g b' w) :=
  (keeps_covered_with (P := fun _ => True)).mono (fun _ _ _ here => ⟨here, trivial⟩) fun _ _ _ _ here => ⟨here.1.1, here.2⟩

theorem keeps_covered_bind {α : Type} {T : α → Claim D} {f : Bool → Op D α}
    (next : ∀ c, Keeps g s₀ (fun b' w sent => Same b b' w sent ∧ (c = true → Full g b' w)) (f c) T) :
    Keeps g s₀ (Same b) (covered g >>= f) T := keeps_bind keeps_covered next

theorem keeps_observedAt {eventId : String} {R : Claim D} (same : ∀ b' w sent, R b' w sent → Same b b' w sent) :
    Keeps g s₀ R (observedAt eventId) fun _ => R := by
  refine keeps_self_of same fun a _ => ?_
  split
  · exact keeps_pure fun _ _ _ here => here
  · exact keeps_now

/-- The event is in J, and something is in W. -/
structure Entered (kind : Kind) (body : Body) (b : Broker D) (w : Process (File (WRow D Data)) (Witness D Data)) : Prop where
  event : ∃ e ∈ b.j.events, e.kind = kind ∧ e.data.body = body
  logged : logged w ≠ []

/-- Where J and W fit together before, they do so after, open or not. -/
theorem keeps_writeEvent {φ : Prop} {eventId : String} {kind : Kind} {data : Data} {faults : Faults} :
    Keeps g s₀ (fun b' w sent => Same b b' w sent ∧ (φ → Stores.Inv g.p ⟨.up b'.j, w⟩)) (writeEvent g eventId kind data faults)
      fun _ b' w sent => (Same b b' w sent ∧ Entered kind data.body b' w) ∧ (φ → Stores.Inv g.p ⟨.up b'.j, w⟩) := by
  intro s here
  obtain ⟨⟨good, moved⟩, same, fits⟩ := here
  have appended := Observations.append_appended (p := g.p) (s := s.stores) (o := s.broker.j)
    good.witness eventId kind data faults
  have keep (before : Stores.Inv g.p s.stores) :
      Stores.Inv g.p ⟨.up (s.broker.j.append g.p s.stores.witness? eventId kind data faults).2.1,
        s.stores.withWitness (s.broker.j.append g.p s.stores.witness? eventId kind data faults).2.2⟩ :=
    before.append rfl eventId kind data faults
  unfold writeEvent
  dsimp only
  generalize s.broker.j.append g.p s.stores.witness? eventId kind data faults = result at appended keep ⊢
  obtain ⟨returned, j', w'⟩ := result
  obtain ⟨grew, synced, ⟨kept, grows⟩, entered⟩ := appended
  dsimp only at grew synced kept grows entered keep ⊢
  rw [wFile_logged, wFile_logged] at grows
  have grows : logged s.w <+: logged (s.stores.withWitness w') := grows
  have fresh (empty : j'.events = []) : Fresh { s.broker with j := j' } :=
    (good.fresh (List.prefix_nil.1 (empty ▸ grew.events))).withJ j'
  cases returned with
  | some e =>
      obtain ⟨mem, kind', data', nonempty⟩ := entered e rfl
      rw [wFile_logged] at nonempty
      have begun (opened : s.broker.state = .opened) : j'.events ≠ [] := fun empty => by
        rw [empty] at mem
        exact List.not_mem_nil mem
      refine ⟨⟨⟨kept, synced good.journal, fun opened => keep (good.inv opened), fun opened => (good.bound opened).withJ j',
        begun, good.idle, fresh⟩, moved.opened, moved.consumed, moved.grew.trans grew, fun before => keep (moved.inv before),
        moved.logged.trans grows, moved.sent⟩, ⟨?_, ⟨e, mem, kind', by rw [data']⟩, nonempty⟩, fun holds => keep (fits holds)⟩
      have same : s.broker = { b with j := s.broker.j } := same
      change ({ s.broker with j := j' } : Broker D) = { b with j := j' }
      rw [same]
  | none =>
      have shut (opened : State.recoveryRequired = .opened) : False := by cases opened
      refine ⟨⟨kept, synced good.journal, fun opened => (shut opened).elim, fun opened => (shut opened).elim,
        fun opened => (shut opened).elim, fun opened => (shut opened).elim, fun empty => ?_⟩,
        fun opened => (shut opened).elim, moved.consumed, moved.grew.trans grew, fun before => keep (moved.inv before),
        moved.logged.trans grows, moved.sent⟩
      obtain ⟨one, two, three, four, five, six, seven⟩ := fresh empty
      exact ⟨one, two, three, four, five, six, seven⟩

theorem keeps_append_with (φ : Prop) {eventId : String} {kind : Kind} {body : Body} :
    Keeps g s₀ (fun b' w sent => Same b b' w sent ∧ (φ → Stores.Inv g.p ⟨.up b'.j, w⟩)) (append g eventId kind body)
      fun _ b' w sent => (Same b b' w sent ∧ Entered kind body b' w) ∧ (φ → Stores.Inv g.p ⟨.up b'.j, w⟩) := by
  refine keeps_bind (keeps_observedAt (fun _ _ _ here => here.1)) fun time => keeps_draw_bind fun env => ?_
  exact keeps_bind keeps_writeEvent fun _ => keeps_pure fun _ _ _ here => here

theorem keeps_append {eventId : String} {kind : Kind} {body : Body} : Keeps g s₀ (Same b) (append g eventId kind body)
    fun _ b' w sent => Same b b' w sent ∧ Entered kind body b' w :=
  (keeps_append_with False).mono (fun _ _ _ here => ⟨here, False.elim⟩) fun _ _ _ _ here => here.1

theorem keeps_append_bind {α : Type} {eventId : String} {kind : Kind} {body : Body} {T : α → Claim D} {f : Unit → Op D α}
    (next : Keeps g s₀ (fun b' w sent => Same b b' w sent ∧ Entered kind body b' w) (f ()) T) :
    Keeps g s₀ (Same b) (append g eventId kind body >>= f) T := keeps_bind keeps_append fun _ => next

theorem Keeps.weaken {α : Type} {R : Claim D} {x : Op D α} {Q : α → Claim D} {P : Claim D} (keeps : Keeps g s₀ R x Q) :
    Keeps g s₀ (fun b' w sent => R b' w sent ∧ P b' w sent) x Q := keeps.mono (fun _ _ _ here => here.1) fun _ _ _ _ here => here

theorem keeps_checkOpen_with {P : List (Event D Data) → Prop} :
    Keeps g s₀ (fun b' w sent => Same b b' w sent ∧ P b'.j.events) (checkOpen g)
      fun _ b' w sent => ((Same b b' w sent ∧ P b'.j.events) ∧ Full g b' w) ∧ b.state = .opened := by
  refine keeps_self_of (fun _ _ _ here => here.1) fun a same => keeps_check_bind fun opened => ?_
  rw [same] at opened
  refine keeps_bind keeps_covered_with fun c => keeps_check.mono (fun _ _ _ here => here) fun _ b' w sent here => ?_
  exact ⟨⟨here.1.1, here.1.2 here.2⟩, opened⟩

theorem keeps_checkCurrent_with {P : List (Event D Data) → Prop} :
    Keeps g s₀ (fun b' w sent => Same b b' w sent ∧ P b'.j.events) (checkCurrent g)
      fun _ b' w sent => ((Same b b' w sent ∧ P b'.j.events) ∧ Full g b' w) ∧ b.state = .opened ∧ b.closed = false := by
  refine keeps_bind keeps_checkOpen_with fun _ => keeps_fact fun opened => ?_
  refine keeps_self_of (fun _ _ _ here => here.1.1) fun a same => keeps_check_bind fun free => ?_
  rw [same] at free
  refine keeps_demand_bind fun bound _ => keeps_bind keeps_now fun _ => keeps_check_bind fun _ =>
    keeps_demand_bind fun limit _ => keeps_bind keeps_monotonic fun _ => ?_
  exact keeps_check.mono (fun _ _ _ here => here) fun _ _ _ _ here => ⟨here.1, opened, free⟩

theorem keeps_checkOpen : Keeps g s₀ (Same b) (checkOpen g) fun _ b' w sent =>
    (Same b b' w sent ∧ Full g b' w) ∧ b.state = .opened :=
  (keeps_checkOpen_with (P := fun _ => True)).mono (fun _ _ _ here => ⟨here, trivial⟩)
    fun _ _ _ _ here => ⟨⟨here.1.1.1, here.1.2⟩, here.2⟩

theorem keeps_checkCurrent : Keeps g s₀ (Same b) (checkCurrent g) fun _ b' w sent =>
    (Same b b' w sent ∧ Full g b' w) ∧ b.state = .opened ∧ b.closed = false :=
  (keeps_checkCurrent_with (P := fun _ => True)).mono (fun _ _ _ here => ⟨here, trivial⟩)
    fun _ _ _ _ here => ⟨⟨here.1.1.1, here.1.2⟩, here.2⟩

theorem keeps_current_bind {α : Type} {T : α → Claim D} {f : Unit → Op D α}
    (next : b.state = .opened → b.closed = false → Keeps g s₀ (Same b) (f ()) T) :
    Keeps g s₀ (Same b) (checkCurrent g >>= f) T := by
  refine keeps_bind keeps_checkCurrent fun _ => keeps_fact fun facts => ?_
  exact (next facts.1 facts.2).weaken

theorem keeps_call : Keeps g s₀ (Same b) call fun _ => Same b :=
  keeps_self_bind fun _ _ => keeps_demand_bind fun _ _ => keeps_pure fun _ _ _ here => here

theorem keeps_recordClosed : Keeps g s₀ (Same b) (recordClosed g) fun _ => Same b := by
  refine keeps_covered_bind fun c => Keeps.weaken ?_
  refine keeps_when (fun _ => ?_) fun _ _ _ here _ => here
  exact keeps_bind keeps_call fun _ => keeps_append.mono (fun _ _ _ here => here) fun _ _ _ _ here => here.1

theorem keeps_closeSocket : Keeps g s₀ (Same b) closeSocket fun _ => Same { b with socket := false } :=
  keeps_update (fun _ => rfl) fun w sent j ok =>
    { j := rfl, opened := fun opened => opened, consumed := fun before => before
      bound := fun _ bound => ⟨bound.preparing, bound.request, bound.ticket, bound.permit, fun open_ => by cases open_⟩
      idle := fun _ => rfl
      fresh := fun _ fresh => { fresh with socket := rfl } }

end Primitives

/-! ## The operations -/

section Operations

variable {g : Setting D} {s₀ : Sys D} {b b' : Broker D}

/-- No claim. -/
abbrev Anything {α : Type} : α → Claim D := fun _ _ _ _ => True

omit [DecidableEq D] in
/-- A change of fields that no bound reads. -/
theorem Quiet.inert (j : b'.j = b.j) (state : b'.state = b.state) (consumed : b.consumed = true → b'.consumed = true)
    (bound : Bound g b → Bound g b') (operations : b'.operations = b.operations) (fresh : Fresh b → Fresh b') :
    Quiet g b b' where
  j := j
  opened opened := state ▸ opened
  consumed := consumed
  bound _ := bound
  idle _ := operations
  fresh _ := fresh

omit [DecidableEq D] in
/-- A change that leaves the broker shut. -/
theorem Quiet.shut (j : b'.j = b.j) (state : b'.state ≠ .opened) (consumed : b.consumed = true → b'.consumed = true)
    (fresh : b.j.events = [] → Fresh b → Fresh b') : Quiet g b b' where
  j := j
  opened opened := absurd opened state
  consumed := consumed
  bound opened := absurd opened state
  idle opened := absurd opened state
  fresh := fresh

theorem keeps_bind_operation (key : ReservationKey) (core : BindingCore) (run : Run) (reservation : Receipt)
    (manifestDigest : Id) : Keeps g s₀ (Same b) (bind g key core run reservation manifestDigest) Anything := by
  refine keeps_self_bind fun _ _ => keeps_check_bind fun _ => keeps_bind keeps_checkOpen fun _ => ?_
  refine keeps_fact fun opened => Keeps.weaken ?_
  refine keeps_self_bind fun a same => ?_
  split
  · exact keeps_check.mono (fun _ _ _ here => here) fun _ _ _ _ _ => trivial
  next free =>
  rw [same] at free
  refine keeps_bind keeps_now fun _ => keeps_check_bind fun _ => keeps_bind keeps_now fun _ => keeps_check_bind fun _ =>
    keeps_bind keeps_monotonic fun _ => keeps_bind keeps_now fun _ => ?_
  refine keeps_update_bind (fun _ => rfl) (fun w sent j ok => ?_) ?_
  · refine ⟨rfl, fun opened => opened, fun before => before, fun _ bound => ?_, fun _ => rfl, fun empty fresh => ?_⟩
    · -- nothing can be for another body: nothing was bound
      have none_ {P : Binding → Prop} (some_ : ∃ x, b.binding = some x ∧ P x) : False := by
        obtain ⟨x, set, -⟩ := some_
        exact Option.some_ne_none x (set.symm.trans free)
      exact ⟨fun body set => (none_ (bound.preparing body set)).elim, fun r set => (none_ (bound.request r set)).elim,
        fun t set => (none_ (bound.ticket t set)).elim, fun q set => (none_ (bound.permit q set)).elim, bound.socket⟩
    · exact absurd empty (ok.1.begun opened)
  · refine keeps_append_bind (Keeps.weaken ?_)
    refine (keeps_update (fun _ => rfl) fun w sent j ok => ?_).mono (fun _ _ _ here => here) fun _ _ _ _ _ => trivial
    exact .inert rfl rfl (fun before => before) (fun bound => { bound with }) rfl fun fresh => { fresh with }

theorem keeps_expire : Keeps g s₀ (Same b) (expire g) Anything := by
  refine keeps_self_bind fun _ _ => keeps_check_bind fun _ => keeps_update_bind (fun _ => rfl) (fun w sent j ok => ?_) ?_
  · exact .shut rfl (by simp) (fun before => before) fun _ fresh => { fresh with ticket := rfl }
  · exact keeps_bind keeps_closeSocket fun _ => keeps_recordClosed.mono (fun _ _ _ here => here) fun _ _ _ _ _ => trivial

theorem keeps_prepareStart (body : Id) : Keeps g s₀ (Same b) (prepareStart g body) Anything := by
  refine keeps_self_bind fun a same => keeps_demand_bind fun bound set => keeps_check_bind fun digest => ?_
  rw [same] at set
  refine keeps_current_bind fun opened _ => keeps_self_bind fun a' same' => keeps_check_bind fun free => ?_
  rw [same'] at free
  refine (keeps_update (fun _ => rfl) fun w sent j ok => ?_).mono (fun _ _ _ here => here) fun _ _ _ _ _ => trivial
  refine ⟨rfl, fun opened => opened, fun before => before, fun _ before => ⟨?_, ?_, before.ticket, before.permit, ?_⟩,
    fun _ => rfl, fun empty _ => absurd empty (ok.1.begun opened)⟩
  · rintro _ ⟨⟩
    exact ⟨bound, set, digest⟩
  · rintro r ⟨⟩
  · intro open_
    exact absurd (open_.symm.trans free.1) Bool.true_eq_false.mp

theorem keeps_prepareFinish : Keeps g s₀ (Same b) (prepareFinish g) Anything := by
  refine keeps_enter fun b₁ w sent ok _ => ?_
  have known := ok.1.bound
  refine keeps_self_bind fun a same => keeps_demand_bind fun body set => ?_
  rw [same] at set
  refine keeps_update_bind (fun _ => rfl) (fun w sent j ok => ?_) ?_
  · refine .inert rfl rfl (fun before => before) (fun bound => { bound with preparing := ?_ }) rfl
      fun fresh => { fresh with preparing := rfl }
    rintro body ⟨⟩
  refine keeps_draw_bind fun env => keeps_bind keeps_hook fun _ => keeps_current_bind fun opened _ => ?_
  refine (keeps_update (fun _ => rfl) fun w sent j ok => ?_).mono (fun _ _ _ here => here) fun _ _ _ _ _ => trivial
  refine ⟨rfl, fun opened => opened, fun before => before, fun opened before => { before with request := ?_, socket := ?_ },
    fun _ => rfl, fun empty _ => absurd empty (ok.1.begun opened)⟩
  · rintro _ ⟨⟩
    exact (known opened).preparing body set
  · rintro - ⟨⟩

theorem keeps_prepareFail : Keeps g s₀ (Same b) prepareFail Anything := by
  refine (keeps_update (fun _ => rfl) fun w sent j ok => ?_).mono (fun _ _ _ here => here) fun _ _ _ _ _ => trivial
  refine .inert rfl rfl (fun before => before) (fun bound => { bound with preparing := ?_ }) rfl
    fun fresh => { fresh with preparing := rfl }
  rintro body ⟨⟩

theorem keeps_ticketFor (run : Run) (admission : Admission) (bodyDigest : Id) :
    Keeps g s₀ (Same b) (ticketFor g run admission bodyDigest) Anything := by
  refine keeps_current_bind fun opened _ => keeps_self_bind fun a same => keeps_demand_bind fun bound set => ?_
  rw [same] at set
  refine keeps_check_bind fun checked => keeps_update_bind (fun _ => rfl) (fun w sent j ok => ?_) ?_
  · exact .inert rfl rfl (fun before => before) (fun bound => { bound with }) rfl fun fresh => { fresh with }
  refine keeps_draw_bind fun env => keeps_update_bind (fun _ => rfl) (fun w sent j ok => ?_) ?_
  · refine ⟨rfl, fun opened => opened, fun before => before, fun _ before => { before with ticket := ?_ }, fun _ => rfl,
      fun empty _ => absurd empty (ok.1.begun opened)⟩
    rintro _ ⟨⟩
    exact ⟨bound, set, checked.2.2.2.1⟩
  · exact keeps_pure fun _ _ _ _ => trivial

theorem keeps_authorize (asked : Authorization) : Keeps g s₀ (Same b) (authorize g asked) Anything := by
  refine keeps_enter fun b₁ w sent ok _ => ?_
  have known := ok.1.bound
  refine keeps_current_bind fun opened _ => keeps_self_bind fun a same => keeps_demand_bind fun bound set => ?_
  refine keeps_check_bind fun checked => keeps_draw_bind fun env => keeps_append_bind (Keeps.weaken ?_)
  rw [same] at checked
  refine keeps_update_bind (fun _ => rfl) (fun w sent j ok => ?_) (keeps_pure fun _ _ _ _ => trivial)
  refine ⟨rfl, fun opened => opened, fun before => before, fun opened before => { before with permit := ?_ }, fun _ => rfl,
    fun empty _ => absurd empty (ok.1.begun opened)⟩
  rintro _ ⟨⟩
  exact (known opened).ticket asked.ticket checked.1

theorem keeps_receiveStart : Keeps g s₀ (Same b) receiveStart Anything := by
  refine keeps_self_bind fun _ _ => keeps_check_bind fun _ => ?_
  refine (keeps_update (fun _ => rfl) fun w sent j ok => ?_).mono (fun _ _ _ here => here) fun _ _ _ _ _ => trivial
  exact .inert rfl rfl (fun before => before) (fun bound => { bound with }) rfl fun fresh => { fresh with }

theorem keeps_receiveOutcome (status : Nat) (terminal : Accounting.Terminal) (usage : UsageView) (responseId : Option Id)
    (responseDigest : Id) :
    Keeps g s₀ (Same b) (receiveOutcome g status terminal usage responseId responseDigest) Anything := by
  refine keeps_self_bind fun _ _ => keeps_check_bind fun _ => keeps_update_bind (fun _ => rfl) (fun w sent j ok => ?_) ?_
  · exact .inert rfl rfl (fun before => before) (fun bound => { bound with }) rfl fun fresh => { fresh with }
  refine keeps_demand_bind fun permit _ => keeps_append_bind (Keeps.weaken ?_)
  refine keeps_bind (keeps_when (fun _ => keeps_append.mono (fun _ _ _ here => here) fun _ _ _ _ here => here.1)
    fun _ _ _ here _ => here) fun _ => ?_
  exact keeps_hook.mono (fun _ _ _ here => here) fun _ _ _ _ _ => trivial

theorem keeps_receiveFail : Keeps g s₀ (Same b) receiveFail Anything := by
  refine keeps_self_bind fun _ _ => keeps_check_bind fun _ => ?_
  refine (keeps_update (fun _ => rfl) fun w sent j ok => ?_).mono (fun _ _ _ here => here) fun _ _ _ _ _ => trivial
  exact .inert rfl rfl (fun before => before) (fun bound => { bound with }) rfl fun fresh => { fresh with }

theorem keeps_receiveEnd : Keeps g s₀ (Same b) (receiveEnd g) Anything := by
  refine keeps_self_bind fun _ _ => keeps_check_bind fun _ => keeps_update_bind (fun _ => rfl) (fun w sent j ok => ?_) ?_
  · exact .inert rfl rfl (fun before => before) (fun bound => { bound with }) rfl fun fresh => { fresh with }
  refine keeps_bind keeps_closeSocket fun _ => keeps_update_bind (fun _ => rfl) (fun w sent j ok => ?_) ?_
  · exact .inert rfl rfl (fun before => before) (fun bound => { bound with }) rfl fun fresh => { fresh with }
  · exact keeps_recordClosed.mono (fun _ _ _ here => here) fun _ _ _ _ _ => trivial

theorem keeps_closeCall (key : ReservationKey) : Keeps g s₀ (Same b) (closeCall g key) Anything := by
  refine keeps_bind keeps_call fun _ => keeps_check_bind fun _ => keeps_bind keeps_closeSocket fun _ => ?_
  refine keeps_update_bind (fun _ => rfl) (fun w sent j ok => ?_) ?_
  · exact .inert rfl rfl (fun before => before) (fun bound => { bound with }) rfl fun fresh => { fresh with }
  · exact keeps_recordClosed.mono (fun _ _ _ here => here) fun _ _ _ _ _ => trivial

/-- What an acknowledged invalidation leaves: a shut broker, and something in W. -/
def Shut (b : Broker D) (w : Process (File (WRow D Data)) (Witness D Data)) : Prop := b.state ≠ .opened ∧ logged w ≠ []

/-- An operation that is on record already: its event is in J, so coverage finds W nonempty. -/
theorem keeps_lookup (shut : b.state ≠ .opened) (known : b.operations ≠ []) (old : InvalidationAck) :
    Keeps g s₀ (Same b) (do
      let complete ← covered g
      check (complete = true) .conflict
      pure old) fun _ b' w _ => Shut b' w := by
  refine keeps_covered_bind fun c => keeps_check_bind fun complete => ?_
  refine Keeps.use (Q := fun _ b' w sent => Same b b' w sent ∧ (c = true → Full g b' w))
    (keeps_pure fun _ _ _ here => here) fun _ b' w sent ok here => ?_
  obtain ⟨same, full⟩ := here
  have same : b' = { b with j := b'.j } := same
  refine ⟨fun opened => shut ?_, fun empty => known ?_⟩
  · rw [same] at opened
    exact opened
  · have counted := (full complete).counted
    rw [empty, List.length_nil] at counted
    have none_ := (ok.1.fresh (List.length_eq_zero_iff.1 counted.symm)).operations
    rw [same] at none_
    exact none_

/-- An operation that is put on record now. -/
theorem keeps_record (shut : b.state ≠ .opened) {eventId : String} {kind : Kind} {body : Body} (ack : InvalidationAck)
    {rest : Op D InvalidationAck} (next : ∀ R : Claim D, Keeps g s₀ R rest fun _ => R) :
    Keeps g s₀ (Same b) (do
      append g eventId kind body
      update fun b => b.record ack
      rest) fun _ b' w _ => Shut b' w := by
  have entered : Keeps g s₀ (Same b) (append g eventId kind body)
      fun _ b' w sent => Same b b' w sent ∧ b'.j.events ≠ [] ∧ logged w ≠ [] := by
    refine keeps_append.mono (fun _ _ _ here => here) fun _ b' w sent here => ?_
    obtain ⟨e, mem, -⟩ := here.2.event
    exact ⟨here.1, List.ne_nil_of_mem mem, here.2.logged⟩
  refine keeps_bind entered fun _ => keeps_bind (keeps_update_with (P := fun j w => j.events ≠ [] ∧ logged w ≠ [])
    (fun _ => rfl) fun w sent j known ok => ?_) fun _ => (next _).mono (fun _ _ _ here => here) fun _ b' w sent here => ?_
  · exact .shut rfl shut (fun before => before) fun empty _ => absurd empty known.1
  · obtain ⟨same, -, nonempty⟩ := here
    have same : b' = { b.record ack with j := b'.j } := same
    refine ⟨fun opened => shut ?_, nonempty⟩
    rw [same] at opened
    exact opened

omit [DecidableEq D] in
theorem known_of_operation {id : Id} {old : InvalidationAck} (found : b.operation? id = some old) : b.operations ≠ [] := by
  intro empty
  rw [Broker.operation?, empty] at found
  cases found

theorem keeps_invalidate (ctx : InvalidationContext) (request : InvalidationRequest) :
    Keeps g s₀ (Same b) (invalidate g ctx request) fun _ b' w _ => Shut b' w := by
  refine keeps_enter fun b₁ w sent ok _ => ?_
  have good := ok.1
  refine keeps_self_bind fun a same => keeps_check_bind fun _ => keeps_bind keeps_monotonic fun t => ?_
  split
  next old found =>
    have known := known_of_operation found
    rw [same] at known
    refine keeps_demand_bind fun (prior : InvalidationRequest) _ => ?_
    by_cases differ : prior ≠ request
    · refine keeps_bind (Q := fun _ => Same { b₁ with state := .recoveryRequired })
        (keeps_when (fun _ => keeps_update (fun _ => rfl) fun w sent j ok => ?_) fun _ _ _ _ same => absurd differ same)
        fun _ => keeps_check_bind fun _ => keeps_lookup (b := { b₁ with state := .recoveryRequired }) (by simp) known old
      exact .shut rfl (by simp) (fun before => before) fun _ fresh => { fresh with }
    · exact keeps_bind (Q := fun _ => Same b₁) (keeps_when (fun same => absurd same differ) fun _ _ _ here _ => here)
        fun _ => keeps_check_bind fun _ => keeps_lookup (fun opened => known (good.idle opened)) known old
  next unseen =>
    refine keeps_update_bind (fun _ => rfl) (fun w sent j ok => ?_) ?_
    · exact .shut rfl (by simp) (fun before => before) fun _ fresh => { fresh with ticket := rfl }
    refine keeps_bind keeps_closeSocket fun _ => keeps_update_bind (fun _ => rfl) (fun w sent j ok => ?_) ?_
    · exact .shut rfl (by simp) (fun before => before) fun _ fresh => { fresh with }
    refine keeps_self_bind fun a' _ => keeps_check_bind fun _ => keeps_record (by simp) _ fun R => ?_
    exact keeps_bind keeps_monotonic fun _ => keeps_check_bind fun _ => keeps_bind keeps_now fun _ =>
      keeps_check_bind fun _ => keeps_pure fun _ _ _ here => here

theorem keeps_disposition (ctx : InvalidationContext) (resolution : InvalidationResolution)
    (outcome : Disposition × Option Id) :
    Keeps g s₀ (Same b) (disposition g ctx resolution outcome) fun _ b' w _ => Shut b' w := by
  refine keeps_enter fun b₁ w sent ok _ => ?_
  have good := ok.1
  refine keeps_self_bind fun a same => keeps_demand_bind fun (old : InvalidationAck) found => keeps_check_bind fun _ =>
    keeps_check_bind fun _ => ?_
  have known := known_of_operation found
  rw [same] at known
  have shut : b₁.state ≠ .opened := fun opened => known (good.idle opened)
  split
  · exact keeps_check_bind fun _ => keeps_lookup shut known old
  · exact keeps_record shut _ fun R => keeps_pure fun _ _ _ here => here

/-- An empty W and an empty J are the only ones a broker opens on. -/
theorem keeps_bootstrap (deployment : Id) (empty : Bool) :
    Keeps g s₀ (Same b) (bootstrap g deployment empty) Anything := by
  refine keeps_bind keeps_self fun a => keeps_check_bind fun _ => keeps_check_bind fun blank => ?_
  have start : Keeps g s₀ (fun b' w sent => Same b b' w sent ∧ b' = a) (covered g)
      fun c b' w sent => (Same b b' w sent ∧ b'.j.events = []) ∧ (c = true → Full g b' w) := by
    refine (keeps_covered_with (P := fun events => events = [])).mono (fun b' _ _ here => ?_) fun _ _ _ _ here => here
    obtain ⟨same, rfl⟩ := here
    exact ⟨same, blank.1⟩
  refine keeps_bind start fun c => keeps_check_bind fun complete => ?_
  -- nothing was ever bound, and W was empty all along
  have facts (b' : Broker D) (w) (sent) (ok : Ok g s₀ b' w sent)
      (here : (Same b b' w sent ∧ b'.j.events = []) ∧ (c = true → Full g b' w)) :
      (Same b b' w sent ∧ (True → Stores.Inv g.p ⟨.up b'.j, w⟩)) ∧ Fresh b ∧ logged s₀.w = [] := by
    obtain ⟨⟨same, none_⟩, full⟩ := here
    have full := full complete
    refine ⟨⟨same, fun _ => full.blank none_⟩, ?_, ?_⟩
    · have fresh := ok.1.fresh none_
      rw [show b' = { b with j := b'.j } from same] at fresh
      exact fresh.withJ b.j
    · have counted := full.counted
      rw [none_, List.length_nil] at counted
      exact List.prefix_nil.1 (List.length_eq_zero_iff.1 counted ▸ ok.2.logged)
  refine Keeps.known (keeps_fact fun known => ?_) facts
  obtain ⟨fresh, unlogged⟩ := known
  refine keeps_bind (keeps_append_with True) fun _ => Tx.triple_modify fun s here => ?_
  obtain ⟨⟨good, moved⟩, ⟨same, entered⟩, inv⟩ := here
  have same : s.broker = { b with j := s.broker.j } := same
  have fresh : Fresh s.broker := same ▸ fresh.withJ s.broker.j
  have begun : s.broker.j.events ≠ [] := by
    obtain ⟨e, mem, -⟩ := entered.event
    exact List.ne_nil_of_mem mem
  exact ⟨⟨⟨good.witness, good.journal, fun _ => inv trivial, fun _ => { fresh.bound with }, fun _ => begun,
    fun _ => fresh.operations, fun none_ => absurd none_ begun⟩,
    ⟨fun _ => .inr unlogged, moved.consumed, moved.grew, moved.inv, moved.logged, moved.sent⟩⟩, trivial⟩

/-- The floor is all that changes. -/
theorem keeps_recoveryLiability {R : Claim D} (same : ∀ b' w sent, R b' w sent → Same b b' w sent) :
    Keeps g s₀ R (recoveryLiability g) fun _ => Same b := by
  intro s here
  obtain ⟨⟨good, moved⟩, here⟩ := here
  have same : s.broker = { b with j := s.broker.j } := same _ _ _ here
  unfold recoveryLiability Observations.recoveryLiability
  cases (g.p.liability s.broker.j.events).bind (g.p.merge s.broker.j.retained) with
  | none =>
      have quiet : Quiet g s.broker { s.broker with state := .recoveryRequired } :=
        .shut rfl (by simp) (fun before => before) fun _ fresh => { fresh with }
      exact quiet.ok ⟨good, moved⟩
  | some retained =>
      dsimp only
      have inv (before : Stores.Inv g.p s.stores) : Stores.Inv g.p ⟨.up { s.broker.j with retained }, s.w⟩ :=
        before.of_quiet rfl rfl rfl rfl fun failed => failed
      refine ⟨⟨⟨good.witness, good.journal.imp_right fun synced => ⟨synced.events, synced.acks⟩,
        fun opened => inv (good.inv opened), fun opened => (good.bound opened).withJ _, good.begun, good.idle,
        fun empty => (good.fresh empty).withJ _⟩, moved.opened, moved.consumed, moved.grew.trans (.same rfl rfl),
        fun before => inv (moved.inv before), moved.logged, moved.sent⟩, ?_⟩
      change ({ s.broker with j := { s.broker.j with retained } } : Broker D) = { b with j := { s.broker.j with retained } }
      rw [same]

omit [DecidableEq D] in
/-- A page has consecutive events, and what acknowledgements there are of them. -/
theorem fillPage_slice (g : Setting D) (o : Observations D Data Liability) (count index : Nat)
    (sofar : List (Event D Data) × List (Ack D)) (fits : index + count ≤ o.events.length) : ∃ n ≤ count, fillPage g o sofar (List.range' index count) =
      (sofar.1 ++ (o.events.drop index).take n, sofar.2 ++ (o.acks.drop index).take n) := by
  induction count generalizing index sofar with
  | zero => exact ⟨0, Nat.le_refl 0, by simp [fillPage]⟩
  | succ count ih =>
      have inside : index < o.events.length := by omega
      rw [List.range'_succ, fillPage, List.getElem?_eq_getElem inside]
      dsimp only
      split
      · exact ⟨0, Nat.zero_le _, by simp⟩
      obtain ⟨n, most, filled⟩ := ih (index + 1) (sofar.1 ++ [o.events[index]], sofar.2 ++ o.acks[index]?.toList) (by omega)
      refine ⟨n + 1, by omega, ?_⟩
      rw [filled, List.drop_eq_getElem_cons inside, List.take_succ_cons, List.append_assoc, List.append_assoc]
      congr 2
      by_cases acked : index < o.acks.length
      · rw [List.getElem?_eq_getElem acked, List.drop_eq_getElem_cons acked]
        rfl
      · rw [List.getElem?_eq_none (Nat.not_lt.1 acked), List.drop_eq_nil_of_le (Nat.not_lt.1 acked),
          List.drop_eq_nil_of_le (by omega), List.take_nil, List.take_nil]
        rfl

/-- What a page says of the broker it is from. -/
structure PageOf (g : Setting D) (ask : Option (Nat × D)) (b : Broker D) (view : View D) : Prop where
  offset : view.offset = (ask.map Prod.fst).getD 0
  total : view.total = b.j.events.length
  head : view.head = lastDigest g.p b.j.events
  within : view.next ≤ view.total
  slice : ∃ n, view.next = view.offset + n ∧ view.events = (b.j.events.drop view.offset).take n ∧
    view.acks = (b.j.acks.drop view.offset).take n

theorem keeps_snapshot (g : Setting D) (s₀ : Sys D) (b : Broker D) (ask : Option (Nat × D)) :
    Keeps g s₀ (Same b) (snapshot g ask) fun view b' _ _ => PageOf g ask b' view := by
  refine keeps_self_bind fun _ _ => keeps_check_bind fun _ => keeps_covered_bind fun complete => Keeps.weaken ?_
  refine keeps_bind (Q := fun _ _ _ _ => True) (keeps_when (fun _ => ?_) fun _ _ _ _ _ => trivial) fun _ => ?_
  · refine (keeps_update (fun _ => rfl) fun w sent j ok => ?_).mono (fun _ _ _ here => here) fun _ _ _ _ _ => trivial
    exact .shut rfl (by simp) (fun before => before) fun _ fresh => { fresh with }
  refine keeps_enter fun b₁ w sent ok _ => keeps_bind (keeps_recoveryLiability fun _ _ _ here => here) fun retained => ?_
  refine keeps_bind keeps_self fun a => keeps_check_bind fun _ => keeps_check_bind fun paged => ?_
  refine keeps_pure fun b' w sent here => ?_
  obtain ⟨-, rfl⟩ := here
  -- an offset behind the end gives an empty page, which is refused
  have within : (ask.map Prod.fst).getD 0 ≤ b'.j.events.length := by
    by_contra beyond
    rw [Nat.sub_eq_zero_of_le (by omega)] at paged
    rcases paged with same | some_
    · omega
    · exact some_ rfl
  obtain ⟨n, most, filled⟩ := fillPage_slice g b'.j (min ((ask.map Prod.fst).getD 0 + 8) b'.j.events.length -
    (ask.map Prod.fst).getD 0) ((ask.map Prod.fst).getD 0) ([], []) (by omega)
  rw [filled]
  refine ⟨rfl, rfl, rfl, ?_, n, ?_, rfl, rfl⟩
  · simp only [List.nil_append, List.length_take, List.length_drop]
    omega
  · simp only [List.nil_append, List.length_take, List.length_drop]
    omega

end Operations

/-! ## What a sent request rests on -/

section Records

variable {p : Protocol D Data Unit} {fingerprint : BindingCore → Id} {events : List (Event D Data)} {l : Liability}
  {e : Event D Data}

omit [DecidableEq D] in
theorem Owes.reserved {s : Reading D} (owes : Owes s) {bound : Binding} (set : s.binding = some bound) :
    s.result.keyDigest = some bound.key ∧ ∀ d, bound.reservation.reserved d ≤ s.result.owed d := by
  simp only [Owes, set] at owes
  obtain ⟨key, owed⟩ := owes
  refine ⟨key, fun d => ?_⟩
  split at owed
  · rw [owed]
  · obtain ⟨value, -, most⟩ := owed
    rw [most d]
    exact Int.le_max_left _ _

/-- An intent in a stream that is read rests on a permit, and that on the binding. -/
theorem intent_rests (owed : liability p fingerprint events = some l) (mem : e ∈ events)
    {permit : SendPermit} (said : Says .intent Body.permit? e permit) : ∃ e₁ e₂ bound, List.Sublist [e₁, e₂, e] events ∧
      Says .binding Body.binding? e₁ bound ∧ Says .permit Body.permit? e₂ permit ∧ permit.key = bound.key ∧
      permit.bodyDigest = bound.core.bodyDigest ∧ l.keyDigest = some bound.key ∧
      ∀ d, bound.reservation.reserved d ≤ l.owed d := by
  obtain ⟨s, read, rfl⟩ := readEvents_of_liability owed
  have rests := readEvents_iff.1 ⟨s, read⟩
  obtain ⟨before, after, rfl⟩ := List.append_of_mem mem
  obtain ⟨-, intends⟩ := rests before e after rfl
  simp only [Preceded, said.1] at intends
  obtain ⟨issued, reads, e₂, mem₂, said₂⟩ := intends
  obtain rfl := Option.some.inj (reads.symm.trans said.2)
  obtain ⟨front, middle, rfl⟩ := List.append_of_mem mem₂
  obtain ⟨-, permits⟩ := rests front e₂ (middle ++ e :: after) (by simp)
  simp only [Preceded, said₂.1] at permits
  obtain ⟨permit, reads, -, bound, ⟨e₁, mem₁, said₁⟩, key, digest⟩ := permits
  obtain rfl := Option.some.inj (reads.symm.trans said₂.2)
  have known := (readEvents_reads read).known
  have set := known.binding.eq_some_iff.2 ⟨e₁, by simp [mem₁], said₁⟩
  refine ⟨e₁, e₂, bound, ?_, said₁, said₂, key, digest, known.owes.reserved set⟩
  -- the binding is in `front`, the permit after it, the intent after both
  have last : List.Sublist [e] (e :: after) := List.singleton_sublist.2 List.mem_cons_self
  have rest : List.Sublist [e₂, e] (e₂ :: (middle ++ e :: after)) :=
    .cons_cons e₂ (last.trans (List.sublist_append_right middle _))
  rw [List.append_assoc, List.cons_append]
  exact (List.singleton_sublist.2 mem₁).append rest

/-- A request, and the permit it is sent with. -/
structure Recorded (g : Setting D) (x : Sent D) (permit : SendPermit) (request : Request) (bound : Binding) :
    Prop where
  opened : x.broker.state = .opened ∧ x.broker.closed = false
  permitted : x.broker.permit = some permit ∧ permit.authorityEpoch = x.broker.epoch ∧
    permit.acceptanceGeneration = x.broker.generation
  asked : x.request = some request ∧ g.digest request.body = permit.bodyDigest
  binds : permit.key = bound.key ∧ permit.bodyDigest = bound.core.bodyDigest
  /-- J and W have the same events, acknowledged one by one. -/
  agreed : logged x.w = x.broker.j.events ∧ Aligned.Complete g.p x.broker.j.events x.broker.j.acks
  /-- On W's file, in this order. -/
  inOrder : ∃ e₁ e₂ e₃, List.Sublist [e₁, e₂, e₃] (logged x.w) ∧ Says .binding Body.binding? e₁ bound ∧
    Says .permit Body.permit? e₂ permit ∧ Says .intent Body.permit? e₃ permit
  /-- The reservation is owed already. -/
  owed : ∃ l, g.p.liability (logged x.w) = some l ∧ l.keyDigest = some bound.key ∧
    ∀ d, bound.reservation.reserved d ≤ l.owed d

def Intends (permit : SendPermit) (events : List (Event D Data)) : Prop := ∃ e ∈ events, Says .intent Body.permit? e permit

end Records

/-! ## Writing -/

section Writes

variable {g : Setting D} {s₀ : Sys D} {b : Broker D} {permit : SendPermit}

theorem keeps_writeIntent (g : Setting D) (s₀ : Sys D) (b : Broker D) (permit : SendPermit) : Keeps g s₀ (Same b) (writeIntent g permit) fun _ b' w sent =>
    (Same { b with consumed := true } b' w sent ∧ Intends permit b'.j.events) ∧
      b.permit = some permit ∧ b.consumed = false ∧ permit.authorityEpoch = b.epoch ∧
      permit.acceptanceGeneration = b.generation := by
  refine keeps_bind keeps_hook fun _ => keeps_current_bind fun _ _ => keeps_self_bind fun a same => ?_
  refine keeps_check_bind fun checked => keeps_demand_bind fun bound _ => ?_
  rw [same] at checked
  refine keeps_update_bind (fun _ => rfl) (fun w sent j ok => ?_) ?_
  · exact .inert rfl rfl (fun _ => rfl) (fun bound => { bound with }) rfl fun fresh => { fresh with }
  refine keeps_append_bind (keeps_hook.mono (fun _ _ _ here => here) fun _ b' w sent here => ?_)
  obtain ⟨same', ⟨e, mem, kind, body⟩, -⟩ := here
  exact ⟨⟨same', e, mem, kind, by rw [body]; rfl⟩, checked.1, checked.2.1, checked.2.2.2⟩

/-- The request is for what the binding, the permit and the intent on W's file are for. -/
theorem keeps_ready (permitted : b.permit = some permit ∧ permit.authorityEpoch = b.epoch ∧
      permit.acceptanceGeneration = b.generation) :
    Keeps g s₀ (fun b' w sent => Same b b' w sent ∧ Intends permit b'.j.events) (ready g) fun request b' w sent =>
      (Same b b' w sent ∧ b'.state = .opened ∧ logged w ≠ []) ∧
        ∀ count, ∃ asked bound, Recorded g ⟨b', w, request, count⟩ permit asked bound := by
  refine keeps_bind keeps_checkCurrent_with fun _ => ?_
  refine (keeps_bind keeps_hook fun _ => keeps_bind keeps_checkCurrent_with fun _ => keeps_fact fun facts => ?_ :
    Keeps g s₀ (fun b' w sent => Same b b' w sent ∧ Intends permit b'.j.events) _ _).mono
    (fun _ _ _ here => here.1.1) fun _ _ _ _ here => here
  obtain ⟨opened, unclosed⟩ := facts
  refine keeps_self_of (fun _ _ _ here => here.1.1) fun a same => keeps_demand_bind fun request set => ?_
  refine keeps_check_bind fun open_ => Keeps.use
    (Q := fun r b' w _ => ((Same b b' w [] ∧ Intends permit b'.j.events) ∧ Full g b' w) ∧ r = request)
    (keeps_pure fun _ _ _ here => ⟨here, rfl⟩) fun _ b' w sent ok here => ?_
  obtain ⟨⟨⟨same', e, mem, said⟩, full⟩, rfl⟩ := here
  rw [same] at set open_
  rw [show b' = { b with j := b'.j } from same'] at ok full ⊢
  have bound := ok.1.bound opened
  -- the request is not the mark that `prepare` leaves
  obtain ⟨asked, rfl⟩ := Option.ne_none_iff_exists'.1 fun none_ => bound.socket open_ (none_ ▸ set)
  obtain ⟨x, up, agreed⟩ := full.agreed opened
  have same_ : logged w = b'.j.events := by
    rw [up]
    exact agreed.w.symm.trans agreed.events
  obtain ⟨l, owed⟩ := full.owed
  obtain ⟨e₁, e₂, bound', order, said₁, said₂, key, digest, holds⟩ := intent_rests owed mem said
  have digests : g.digest asked.body = permit.bodyDigest := by
    obtain ⟨y, bound₁, first⟩ := bound.request asked set
    obtain ⟨z, bound₂, second⟩ := bound.permit permit permitted.1
    obtain rfl := Option.some.inj (bound₁.symm.trans bound₂)
    exact first.trans second.symm
  refine ⟨⟨rfl, opened, fun empty => ?_⟩, fun count => ⟨asked, bound', ⟨opened, unclosed⟩, permitted,
    ⟨rfl, digests⟩, ⟨key, digest⟩, ⟨same_, agreed.complete⟩, ⟨e₁, e₂, e, same_ ▸ order, said₁, said₂, said⟩, l,
    same_ ▸ owed, holds⟩⟩
  rw [← same_, empty] at mem
  exact List.not_mem_nil mem

/-- A request was handed to the socket. -/
structure Wrote (g : Setting D) (s₀ : Sys D) (b : Broker D) (w : Process (File (WRow D Data)) (Witness D Data))
    (sent : List (Sent D)) : Prop where
  good : Good g b w
  opened : s₀.broker.state = .opened ∨ logged s₀.w = []
  unconsumed : s₀.broker.consumed = false
  consumed : b.consumed = true
  grew : s₀.broker.j.Grew b.j
  inv : Stores.Inv g.p s₀.stores → Stores.Inv g.p ⟨.up b.j, w⟩
  grows : logged s₀.w <+: logged w
  entered : logged w ≠ []
  sent : ∃ x permit asked bound, sent = s₀.sent ++ [x] ∧ Recorded g x permit asked bound

/-- No request was handed to the socket, or one was. -/
def Either (g : Setting D) (s₀ : Sys D) : Claim D := fun b w sent => Ok g s₀ b w sent ∨ Wrote g s₀ b w sent

theorem Moved.trans {s : Sys D} {w : Process (File (WRow D Data)) (Witness D Data)} {sent : List (Sent D)}
    (first : Moved g s₀ s.broker s.w s.sent) (second : Moved g s b w sent) : Moved g s₀ b w sent where
  opened opened := by
    rcases second.opened opened with before | empty
    · exact first.opened before
    · exact .inr (List.prefix_nil.1 (empty ▸ first.logged))
  consumed before := second.consumed (first.consumed before)
  grew := first.grew.trans second.grew
  inv before := second.inv (first.inv before)
  logged := first.logged.trans second.logged
  sent := second.sent.trans first.sent

theorem Either.ok {s : Sys D} {w : Process (File (WRow D Data)) (Witness D Data)} {sent : List (Sent D)}
    (first : Either g s₀ s.broker s.w s.sent) (second : Ok g s b w sent) : Either g s₀ b w sent := by
  obtain ⟨good, moved⟩ := second
  rcases first with ⟨-, before⟩ | wrote
  · exact .inl ⟨good, before.trans moved⟩
  · exact .inr { wrote with
      good := good
      consumed := moved.consumed wrote.consumed
      grew := wrote.grew.trans moved.grew
      inv := fun before => moved.inv (wrote.inv before)
      grows := wrote.grows.trans moved.logged
      entered := fun empty => wrote.entered (List.prefix_nil.1 (empty ▸ moved.logged))
      sent := moved.sent ▸ wrote.sent }

theorem Ok.self {s : Sys D} (good : Good g s.broker s.w) : At (Ok g s) s :=
  ⟨good, fun opened => .inl opened, fun before => before, .same rfl rfl, fun before => before, List.prefix_refl _, rfl⟩

theorem Either.good {w : Process (File (WRow D Data)) (Witness D Data)} {sent : List (Sent D)}
    (either : Either g s₀ b w sent) : Good g b w := either.elim And.left Wrote.good

/-- What keeps everything may follow. -/
theorem triple_either {α : Type} {x : Op D α} (keeps : ∀ s : Sys D, Keeps g s (Same s.broker) x Anything) :
    Tx.Triple (At (Either g s₀)) x (fun _ => At (Either g s₀)) (At (Either g s₀)) := by
  intro s here
  have here : Either g s₀ s.broker s.w s.sent := here
  exact (keeps s s ⟨.self here.good, rfl⟩).mono (fun _ _ post => here.ok post.1) fun _ post => here.ok post

theorem keeps_drop : Keeps g s₀ (Same b) (do
    closeSocket
    update fun b => { b with state := .recoveryRequired }) Anything := by
  refine keeps_bind keeps_closeSocket fun _ => (keeps_update (fun _ => rfl) fun w sent j ok => ?_).mono
    (fun _ _ _ here => here) fun _ _ _ _ _ => trivial
  exact .shut rfl (by simp) (fun before => before) fun _ fresh => { fresh with }

theorem keeps_settleWrite (count : Option Nat) (raised : Bool) :
    Keeps g s₀ (Same b) (settleWrite g count raised) Anything := by
  refine keeps_bind (keeps_when (Q := fun _ _ _ => True) (fun _ => keeps_drop) fun _ _ _ _ _ => trivial) fun _ => ?_
  refine keeps_enter fun b₁ w sent ok _ => keeps_covered_bind fun c => Keeps.weaken ?_
  refine keeps_bind (keeps_when (Q := fun _ _ _ => True) (fun _ => ?_) fun _ _ _ _ _ => trivial) fun _ => ?_
  · refine keeps_self_bind fun _ _ => keeps_demand_bind fun size _ => ?_
    exact keeps_append.mono (fun _ _ _ here => here) fun _ _ _ _ _ => trivial
  · refine keeps_enter fun b₂ w sent ok _ => keeps_self_bind fun _ _ => keeps_demand_bind fun size _ => ?_
    exact keeps_when (fun _ => keeps_drop) fun _ _ _ _ _ => trivial

theorem keeps_sendChecked : Keeps g s₀ (Same b) sendChecked Anything := by
  refine keeps_bind keeps_hook fun _ => keeps_self_bind fun _ _ => keeps_demand_bind fun limit _ => ?_
  exact keeps_bind keeps_monotonic fun _ => keeps_check.mono (fun _ _ _ here => here) fun _ _ _ _ _ => trivial

theorem keeps_forget (n : Nat) : Keeps g s₀ (Same b) (do
    let b ← self
    check (requestSize g b.request = some n) .observerUnavailable
    update fun b => { b with request := none }) Anything := by
  refine keeps_self_bind fun _ _ => keeps_check_bind fun _ => (keeps_update (fun _ => rfl) fun w sent j ok => ?_).mono
    (fun _ _ _ here => here) fun _ _ _ _ _ => trivial
  refine .inert rfl rfl (fun before => before) (fun bound => { bound with request := ?_, socket := ?_ }) rfl
    fun fresh => { fresh with request := rfl }
  · rintro r ⟨⟩
  · rintro - ⟨⟩

/-- What keeps everything may come first. -/
theorem Keeps.either {α : Type} {x : Op D α} {R : Claim D} {Q : α → Claim D} (keeps : Keeps g s₀ R x Q) :
    Tx.Triple (fun s => At (Ok g s₀) s ∧ At R s) x (fun a s => At (Ok g s₀) s ∧ At (Q a) s) (At (Either g s₀)) :=
  Tx.Triple.mono keeps (fun _ here => here) (fun _ _ here => here) fun _ here => .inl here

/-- The one place a request leaves. -/
theorem handOver_either (unconsumed : s₀.broker.consumed = false) (consumed : b.consumed = true)
    (request : Option Request) : Tx.Triple (fun s => At (Ok g s₀) s ∧ At (fun b' w sent =>
      (Same b b' w sent ∧ b'.state = .opened ∧ logged w ≠ []) ∧
        ∀ count, ∃ asked bound, Recorded g ⟨b', w, request, count⟩ permit asked bound) s)
      (handOver request) (fun _ => At (Either g s₀)) (At (Either g s₀)) := by
  refine Tx.triple_bind keeps_draw.either fun env => ?_
  refine Tx.triple_bind (Q := fun _ => At (Wrote g s₀)) (Tx.triple_modify fun s here => ?_) fun _ => ?_
  · obtain ⟨⟨good, moved⟩, ⟨same, opened, entered⟩, recorded⟩ := here
    obtain ⟨asked, bound, recorded⟩ := recorded env.sent
    have same : s.broker = { b with j := s.broker.j } := same
    exact ⟨good, moved.opened opened, unconsumed, (congrArg Broker.consumed same).trans consumed, moved.grew,
      moved.inv, moved.logged, entered,
      _, _, asked, bound, by rw [moved.sent], recorded⟩
  · cases env.sent with
    | none => exact Tx.triple_raise fun _ here => .inr here
    | some n => exact Tx.triple_pure fun _ here => .inr here

theorem write_either (good : Good g s₀.broker s₀.w) (permit : SendPermit) :
    Tx.Triple (fun s => s = s₀) (write g permit) (fun _ => At (Either g s₀)) (At (Either g s₀)) := by
  refine Tx.triple_bind ((keeps_writeIntent g s₀ s₀.broker permit).either.pre fun s same => ?_) fun _ => ?_
  · rw [same]
    exact ⟨.self good, rfl⟩
  refine Tx.triple_bind (Q := fun _ => At (Either g s₀)) (Tx.triple_attempt ?_) fun count => ?_
  · intro s here
    obtain ⟨ok, known, permitted, unconsumed, current⟩ := here
    have sent : Tx.Triple _ (send g) (fun _ => At (Either g s₀)) (At (Either g s₀)) :=
      Tx.triple_bind (keeps_ready (b := { s₀.broker with consumed := true }) ⟨permitted, current⟩).either
        fun request => handOver_either unconsumed rfl request
    exact (sent s ⟨ok, known⟩).mono (fun _ _ here => here) fun _ here _ => here
  cases count with
  | error code =>
      exact Tx.triple_bind (triple_either fun s => keeps_settleWrite none true) fun _ => Tx.triple_raise fun _ here => here
  | ok n =>
      refine Tx.triple_bind (Q := fun _ => At (Either g s₀)) (Tx.triple_attempt ?_) fun rest => ?_
      · exact (triple_either fun s => keeps_sendChecked).mono (fun _ here => here) (fun _ _ here => here) fun _ here _ => here
      cases rest with
      | error code =>
          exact Tx.triple_bind (triple_either fun s => keeps_settleWrite (some n) true) fun _ =>
            Tx.triple_raise fun _ here => here
      | ok _ =>
          refine Tx.triple_bind (triple_either fun s => keeps_settleWrite (some n) false) fun _ => ?_
          exact triple_either fun s => keeps_forget n

end Writes

/-! ## One operation -/

section Outcomes

variable {g : Setting D} {s : Sys D}

/-- What an operation leaves when it replies, or raises. -/
def Outcome (g : Setting D) (s : Sys D) (x : Op D (Reply D)) : Prop :=
  Tx.Triple (fun t => t = s) x
    (fun reply t => At (Either g s) t ∧ ∀ ack, reply = .ack ack → Shut t.broker t.w) (At (Either g s))

theorem outcome_of_keeps (good : Good g s.broker s.w) {α : Type} {x : Op D α} {reply : α → Reply D} {Q : α → Claim D}
    (keeps : Keeps g s (Same s.broker) x Q)
    (shut : ∀ a ack, reply a = .ack ack → ∀ b w sent, Q a b w sent → Shut b w) :
    Outcome g s (x >>= fun a => pure (reply a)) := by
  refine Tx.triple_bind (keeps.either.pre fun t same => ?_) fun a => Tx.triple_pure fun t here => ?_
  · rw [same]
    exact ⟨.self good, rfl⟩
  · exact ⟨.inl here.1, fun ack same => shut a ack same _ _ _ here.2⟩

/-- **Step.** -/
theorem operate_outcome (good : Good g s.broker s.w) (operation : Operation D) : Outcome g s (operate g operation) := by
  have silent {α : Type} {Q : α → Claim D} (a : α) (ack : InvalidationAck) (same : (Reply.done : Reply D) = .ack ack) :
      ∀ b w sent, Q a b w sent → Shut b w := by cases same
  cases operation with
  | bootstrap deployment empty => exact outcome_of_keeps good (keeps_bootstrap deployment empty) silent
  | bind key core run reservation manifestDigest =>
      exact outcome_of_keeps good (keeps_bind_operation key core run reservation manifestDigest) silent
  | expire => exact outcome_of_keeps good keeps_expire silent
  | prepareStart body => exact outcome_of_keeps good (keeps_prepareStart body) silent
  | prepareFinish => exact outcome_of_keeps good keeps_prepareFinish silent
  | prepareFail => exact outcome_of_keeps good keeps_prepareFail silent
  | ticket run admission bodyDigest =>
      exact outcome_of_keeps good (keeps_ticketFor run admission bodyDigest) fun _ ack same => by cases same
  | authorize asked => exact outcome_of_keeps good (keeps_authorize asked) fun _ ack same => by cases same
  | write permit =>
      refine Tx.triple_bind (write_either good permit) fun _ => Tx.triple_pure fun t here => ⟨here, ?_⟩
      rintro ack ⟨⟩
  | receiveStart => exact outcome_of_keeps good keeps_receiveStart silent
  | receiveOutcome status terminal usage responseId responseDigest =>
      exact outcome_of_keeps good (keeps_receiveOutcome status terminal usage responseId responseDigest) silent
  | receiveFail => exact outcome_of_keeps good keeps_receiveFail silent
  | receiveEnd => exact outcome_of_keeps good keeps_receiveEnd silent
  | close key => exact outcome_of_keeps good (keeps_closeCall key) silent
  | invalidate ctx request =>
      exact outcome_of_keeps good (keeps_invalidate ctx request) fun _ _ _ _ _ _ shut => shut
  | disposition ctx resolution outcome =>
      exact outcome_of_keeps good (keeps_disposition ctx resolution outcome) fun _ _ _ _ _ _ shut => shut
  | snapshot ask => exact outcome_of_keeps good (keeps_snapshot g s s.broker ask) fun _ ack same => by cases same

end Outcomes

/-! ## Whole runs -/

section Runs

variable {g : Setting D} {v v' : World D} {b : Broker D}

def World.Inv (g : Setting D) (v : World D) : Prop :=
  (∀ x, v.w = .up x → x.Kept) ∧ ∀ b, v.j = .up b → Good g b v.w

/-- No request will be handed to the socket any more. -/
def World.Closed (v : World D) : Prop :=
  logged v.w ≠ [] ∧ ∀ b, v.j = .up b → b.consumed = true ∨ b.state ≠ .opened

omit [DecidableEq D] in
theorem restore_kept {event : Event D Data} {b' : Broker D} (restored : b.restore event = some b') :
    b'.state = b.state ∧ b'.j = b.j := by
  unfold Broker.restore at restored
  split at restored
  · cases restored
    exact ⟨rfl, rfl⟩
  · obtain ⟨permit, -, rfl⟩ := Option.map_eq_some_iff.1 restored
    exact ⟨rfl, rfl⟩
  · cases restored
    exact ⟨rfl, rfl⟩
  · obtain ⟨ack, -, rfl⟩ := Option.map_eq_some_iff.1 restored
    exact ⟨rfl, rfl⟩
  · obtain ⟨ack, -, rfl⟩ := Option.map_eq_some_iff.1 restored
    exact ⟨rfl, rfl⟩
  · cases restored
    exact ⟨rfl, rfl⟩

/-- A broker starts shut. -/
theorem load_good {launch : Launch} {file : File (JRow D Data)} (loaded : Broker.load g launch file = some b)
    {w : Process (File (WRow D Data)) (Witness D Data)} (kept : ∀ x, w = .up x → x.Kept) :
    Good g b w ∧ b.state ≠ .opened := by
  obtain ⟨j, read, rest⟩ := Option.bind_eq_some_iff.1 loaded
  obtain ⟨b', restored, built⟩ := Option.bind_eq_some_iff.1 rest
  have same := (@System.Run.of_foldlM _ _ (fun _ => True) _ _ _ _ restored).preserves
    (I := fun b' : Broker D => b'.state = .recoveryRequired ∧ b'.j = j)
    (fun b' event b'' here step => ⟨(restore_kept step).1.trans here.1, (restore_kept step).2.trans here.2⟩) ⟨rfl, rfl⟩
  obtain rfl := Option.some.inj built
  have shut : b'.state ≠ .opened := by simp [same.1]
  refine ⟨⟨kept, .inr ?_, fun opened => absurd opened shut, fun opened => absurd opened shut,
    fun opened => absurd opened shut, fun opened => absurd opened shut, fun empty => ?_⟩, shut⟩
  · rw [same.2]
    exact (Observations.load_synced read).2
  · have empty : j.events = [] := same.2 ▸ empty
    rw [empty] at restored
    obtain rfl := Option.some.inj restored
    exact ⟨rfl, rfl, rfl, rfl, rfl, rfl, rfl⟩

/-- What one step of a run does. -/
structure Stepped (g : Setting D) (v v' : World D) (shown : Shown D) : Prop where
  inv : v'.Inv g
  grows : logged v.w <+: logged v'.w
  closed : v.Closed → v'.Closed
  sent : shown.sent ≠ [] → ¬ v.Closed ∧ v'.Closed ∧
    ∃ x permit asked bound, shown.sent = [x] ∧ Recorded g x permit asked bound
  acknowledged : ∀ ack, shown.reply = some (.ack ack) → v'.Closed

/-- A step between operations. -/
theorem Stepped.silent (inv : v'.Inv g) (same : logged v'.w = logged v.w)
    (shut : ∀ b, v'.j = .up b → v.j = .up b ∨ b.state ≠ .opened) : Stepped g v v' .nothing where
  inv := inv
  grows := same ▸ List.prefix_refl _
  closed closed := ⟨same ▸ closed.1, fun b up => (shut b up).elim (closed.2 b) .inr⟩
  sent some_ := absurd rfl some_
  acknowledged _ reply := absurd reply.symm (Option.some_ne_none _)

/-- An operation is a step. -/
theorem Either.stepped {s t : Sys D} {reply : Option (Reply D)} (nothing : s.sent = []) (either : Either g s t.broker t.w t.sent)
    (shut : ∀ ack, reply = some (.ack ack) → Shut t.broker t.w) :
    Stepped g ⟨.up s.broker, s.w⟩ ⟨.up t.broker, t.w⟩ ⟨t.sent, reply⟩ where
  inv := by
    refine ⟨either.good.witness, ?_⟩
    rintro _ ⟨⟩
    exact either.good
  grows := either.elim (fun ok => ok.2.logged) Wrote.grows
  closed closed := by
    rcases either with ⟨-, moved⟩ | wrote
    · refine ⟨fun empty => closed.1 (List.prefix_nil.1 (empty ▸ moved.logged)), ?_⟩
      rintro _ ⟨⟩
      rcases closed.2 s.broker rfl with consumed | shut
      · exact .inl (moved.consumed consumed)
      · exact .inr fun opened => (moved.opened opened).elim shut closed.1
    · refine ⟨wrote.entered, ?_⟩
      rintro _ ⟨⟩
      exact .inl wrote.consumed
  sent some_ := by
    rcases either with ⟨-, moved⟩ | wrote
    · exact absurd (moved.sent.trans nothing) some_
    refine ⟨fun closed => ?_, ⟨wrote.entered, ?_⟩, ?_⟩
    · rcases closed.2 s.broker rfl with consumed | shut
      · exact absurd (consumed.symm.trans wrote.unconsumed) Bool.true_eq_false.mp
      · exact wrote.opened.elim shut closed.1
    · rintro _ ⟨⟩
      exact .inl wrote.consumed
    · obtain ⟨x, permit, asked, bound, sent, recorded⟩ := wrote.sent
      rw [nothing, List.nil_append] at sent
      exact ⟨x, permit, asked, bound, sent, recorded⟩
  acknowledged ack same := by
    obtain ⟨closed, entered⟩ := shut ack same
    refine ⟨entered, ?_⟩
    rintro _ ⟨⟩
    exact .inr closed

theorem restart {s t : Stores D Data Liability} (inv : s.Inv g.p) (call : Call Data) (stepped : s.step g.p "" call = some t) :
    t.Inv g.p := inv.step stepped

theorem World.Inv.step {a : Step D} {shown : Shown D} (inv : v.Inv g) (stepped : v.step g a = some (v', shown)) :
    Stepped g v v' shown := by
  obtain ⟨j, w⟩ := v
  obtain ⟨kept, good⟩ := inv
  cases a with
  | startB launch =>
      simp only [World.step] at stepped
      split at stepped
      · cases stepped
      next file =>
      obtain ⟨b, loaded, same⟩ := Option.map_eq_some_iff.1 stepped
      obtain ⟨rfl, rfl⟩ := Prod.mk.inj same
      obtain ⟨good, shut⟩ := load_good loaded kept
      refine .silent ⟨kept, ?_⟩ rfl ?_
      · rintro _ ⟨⟩
        exact good
      · rintro _ ⟨⟩
        exact .inr shut
  | crashB =>
      simp only [World.step] at stepped
      split at stepped
      · cases stepped
      next b =>
      obtain ⟨rfl, rfl⟩ := Prod.mk.inj (Option.some.inj stepped)
      exact .silent ⟨kept, by rintro _ ⟨⟩⟩ rfl (by rintro _ ⟨⟩)
  | replaceJ file =>
      simp only [World.step] at stepped
      split at stepped
      · cases stepped
      next old =>
      obtain ⟨rfl, rfl⟩ := Prod.mk.inj (Option.some.inj stepped)
      exact .silent ⟨kept, by rintro _ ⟨⟩⟩ rfl (by rintro _ ⟨⟩)
  | startW =>
      simp only [World.step] at stepped
      split at stepped
      · cases stepped
      next file =>
      obtain ⟨x, loaded, same⟩ := Option.map_eq_some_iff.1 stepped
      obtain ⟨rfl, rfl⟩ := Prod.mk.inj same
      obtain ⟨rfl, synced⟩ := Witness.load_synced loaded
      refine .silent ⟨?_, fun b up => ?_⟩ rfl fun b up => .inl up
      · rintro _ ⟨⟩
        exact .inr synced
      · have before := good b up
        refine { before with witness := ?_, inv := fun opened => ?_ }
        · rintro _ ⟨⟩
          exact .inr synced
        · refine restart (before.inv opened) .startW ?_
          simp only [Stores.step]
          rw [loaded]
          rfl
  | crashW =>
      simp only [World.step] at stepped
      split at stepped
      · cases stepped
      next x =>
      obtain ⟨rfl, rfl⟩ := Prod.mk.inj (Option.some.inj stepped)
      refine .silent ⟨by rintro _ ⟨⟩, fun b up => ?_⟩ rfl fun b up => .inl up
      have before := good b up
      exact { before with
        witness := by rintro _ ⟨⟩
        inv := fun opened => restart (before.inv opened) .crashW rfl }
  | run operation world =>
      simp only [World.step] at stepped
      split at stepped
      · cases stepped
      next b =>
      obtain ⟨rfl, rfl⟩ := Prod.mk.inj (Option.some.inj stepped)
      have ended := operate_outcome (s := ⟨b, w, [], world, 0⟩) (good b rfl) operation _ rfl
      generalize operate g operation ⟨b, w, [], world, 0⟩ = result at ended ⊢
      obtain ⟨code | reply, t⟩ := result
      · exact ended.stepped rfl fun ack same => absurd same.symm (Option.some_ne_none _)
      · exact ended.1.stepped rfl fun ack same => ended.2 ack (Option.some.inj same)

theorem World.Init.inv (initial : World.Init v) : v.Inv g := by
  obtain ⟨j, w, rfl⟩ := initial
  exact ⟨by rintro _ ⟨⟩, by rintro _ ⟨⟩⟩

/-- Steps that hand over one request at most hand over as many as there are such steps. -/
theorem length_flatMap_le {α β : Type} {f : α → List β} {trace : List α} (each : ∀ a ∈ trace, (f a).length ≤ 1) :
    (trace.flatMap f).length ≤ trace.countP fun a => !(f a).isEmpty := by
  induction trace with
  | nil => exact Nat.le_refl _
  | cons a rest ih =>
      rw [List.flatMap_cons, List.length_append, List.countP_cons]
      have first := each a List.mem_cons_self
      have others := ih fun b mem => each b (List.mem_cons_of_mem a mem)
      cases sent : f a with
      | nil => simpa using others
      | cons x more =>
          rw [sent] at first
          simp only [List.isEmpty_cons, Bool.not_false, if_true]
          omega

/-- **At most one request in a whole run, and that one on record.**  Operations interleave in any
order, any write, hook or socket may fail, broker and witness may crash and start again, and J's
file may be replaced while no broker runs.  Nothing is sent after an invalidation was acknowledged,
nor where W's file has an event from an earlier run. -/
theorem sends_once (g : Setting D) {v v' : World D} {trace : List (Step D × Shown D)} (initial : World.Init v)
    (run : (brokers g).Run v trace v') :
    (trace.flatMap fun a => a.2.sent).length ≤ 1 ∧
    (∀ a ∈ trace, ∀ x ∈ a.2.sent, ∃ permit asked bound, Recorded g x permit asked bound) ∧
    (∀ before a after ack, trace = before ++ a :: after → a.2.reply = some (.ack ack) → ∀ c ∈ after, c.2.sent = []) ∧
    (logged v.w ≠ [] → ∀ a ∈ trace, a.2.sent = []) := by
  have keep (s : World D) (a : Step D × Shown D) (t : World D) (inv : s.Inv g) (step : (brokers g).step s a t) : t.Inv g :=
    (inv.step step).inv
  have stay (s : World D) (a : Step D × Shown D) (t : World D) (inv : s.Inv g) (closed : s.Closed)
      (step : (brokers g).step s a t) : t.Closed := (inv.step step).closed closed
  have start : v.Inv g := initial.inv
  have each (a : Step D × Shown D) (mem : a ∈ trace) : ∃ s t, Stepped g s t a.2 := by
    obtain ⟨before, after, rfl⟩ := List.append_of_mem mem
    obtain ⟨s, t, earlier, step, -⟩ := run.split_at
    exact ⟨s, t, (earlier.preserves keep start).step step⟩
  have fire (s : World D) (a : Step D × Shown D) (t : World D) (inv : s.Inv g) (step : (brokers g).step s a t)
      (some_ : a.2.sent ≠ []) : ¬ s.Closed := ((inv.step step).sent some_).1
  -- a closed world stays silent
  have silent {s t : World D} {rest : List (Step D × Shown D)} (later : (brokers g).Run s rest t) (inv : s.Inv g)
      (closed : s.Closed) (a : Step D × Shown D) (mem : a ∈ rest) : a.2.sent = [] :=
    not_not.1 (later.not_mem_of_closed keep stay fire inv closed a mem)
  refine ⟨?_, fun a mem x here => ?_, fun before a after ack cut reply c mem => ?_, fun entered => silent run start ⟨entered, ?_⟩⟩
  · refine (length_flatMap_le fun a mem => ?_).trans ((run.countP_le_latch (C := World.Closed) keep stay
      (fun s a t inv step some_ => ?_) start).1)
    · obtain ⟨s, t, stepped⟩ := each a mem
      by_cases none_ : a.2.sent = []
      · rw [none_]
        exact Nat.zero_le _
      · obtain ⟨-, -, x, -, -, -, one, -⟩ := stepped.sent none_
        rw [one]
        exact Nat.le_refl _
    · obtain ⟨opened, shut, -⟩ := (inv.step step).sent (by rintro none_; simp [none_] at some_)
      exact ⟨opened, shut⟩
  · obtain ⟨s, t, stepped⟩ := each a mem
    obtain ⟨-, -, y, permit, asked, bound, one, recorded⟩ := stepped.sent (List.ne_nil_of_mem here)
    rw [one] at here
    exact ⟨permit, asked, bound, List.mem_singleton.1 here ▸ recorded⟩
  · subst cut
    obtain ⟨s, t, earlier, step, later⟩ := run.split_at
    have stepped := (earlier.preserves keep start).step step
    exact silent later stepped.inv (stepped.acknowledged ack reply) c mem
  · obtain ⟨j, w, rfl⟩ := initial
    rintro _ ⟨⟩

end Runs

end Brokers

/-! ## A call -/

/-- Ids that are numbers, digests that count. -/
def sampleSetting : Setting Nat where
  base := ⟨0, fun _ sequence previous _ _ _ => previous * 8 + sequence, fun _ => true, fun _ => true, fun _ => none,
    fun _ _ => none, (), "w"⟩
  digest body := body
  size _ := 3
  fingerprint core := core.rest
  requestDigest request := request.operationDigest
  barrierId operationId := "barrier_" ++ toString operationId
  dispositionId resolution := "disposition_" ++ toString resolution.operationId
  pageSize events := 10000 * events.length
  eventRef _ eventId := if eventId = "final_usage" then 12 else 13
  digestRef digest := digest

/-- Nothing fails, and the socket takes the three bytes of the request. -/
def calm (_ : Nat) : Env := ⟨0, noFaults, false, 7, some 3⟩

def sampleReceipt : Receipt :=
  ⟨Accounting.sampleKey 1, 1, 1, 1, Accounting.minimumReserved, 450, Accounting.minimumReserved_self,
    Accounting.minimumReserved_le_maxN⟩

def sampleAdmission : Admission := ⟨Accounting.sampleKey 1, 5, 1, 0, 400⟩

def sampleTicket : AcceptanceTicket := ⟨7, Accounting.sampleKey 1, 6, 2, 1, 1, 1, 400⟩

def samplePermit : SendPermit := ⟨Accounting.sampleKey 1, 7, 5, 1, 6, 2, 1, 7, 1, 4, 3, 400⟩

/-- One call, and the invalidation of what it rests on. -/
def sampleSteps : List (Step Nat) :=
  let run : Authority.Run := ⟨Accounting.sampleRun 1, 0⟩
  [.startB ⟨6, "j", 0, 0, 2, 3⟩, .startW] ++ [.bootstrap 6 true,
    .bind (Accounting.sampleKey 1) (Accounting.sampleCore 1) run sampleReceipt 0, .prepareStart 1, .prepareFinish,
    .ticket run sampleAdmission 1, .authorize ⟨run, sampleAdmission, sampleTicket, 4, 6⟩, .write samplePermit,
    .write samplePermit, .invalidate ⟨6, 1, 400⟩ ⟨8, 9, 6, 1, 0, 400⟩].map fun operation => .run operation calm

/-- The run of a step function that shows something of each step. -/
def runShown {σ α β : Type} (step : σ → α → Option (σ × β)) : σ → List α → Option (σ × List (α × β))
  | s, [] => some (s, [])
  | s, a :: rest =>
      match step s a with
      | none => none
      | some (t, shown) => (runShown step t rest).map fun r => (r.1, (a, shown) :: r.2)

theorem runShown_run {v u : World Nat} {steps : List (Step Nat)} {trace : List (Step Nat × Shown Nat)}
    (computed : runShown (World.step sampleSetting) v steps = some (u, trace)) : (brokers sampleSetting).Run v trace u := by
  induction steps generalizing v trace with
  | nil =>
      obtain ⟨rfl, rfl⟩ := Prod.mk.inj (Option.some.inj computed)
      exact .refl v
  | cons a rest ih =>
      rw [runShown] at computed
      split at computed
      · cases computed
      next t shown stepped =>
      obtain ⟨⟨u', trace'⟩, later, same⟩ := Option.map_eq_some_iff.1 computed
      obtain ⟨rfl, rfl⟩ := Prod.mk.inj same
      exact System.Run.cons stepped (ih later)

/-- The request goes out, a second write is refused, and the invalidation is acknowledged. -/
theorem sends_once_call : ∃ trace v', (brokers sampleSetting).Run ⟨.down ⟨[], false⟩, .down ⟨[], false⟩⟩ trace v' ∧
    trace.map (fun a => (a.2.sent.length, a.2.reply.isSome)) =
      [(0, false), (0, false), (0, true), (0, true), (0, true), (0, true), (0, true), (0, true), (1, true), (0, false),
        (0, true)] ∧
    (trace.flatMap fun a => a.2.sent).length ≤ 1 := by
  have computed : (runShown (World.step sampleSetting) ⟨.down ⟨[], false⟩, .down ⟨[], false⟩⟩ sampleSteps).map
      (fun r => r.2.map fun a => (a.2.sent.length, a.2.reply.isSome)) =
      some [(0, false), (0, false), (0, true), (0, true), (0, true), (0, true), (0, true), (0, true), (1, true),
        (0, false), (0, true)] := by decide +kernel
  obtain ⟨⟨v', trace⟩, run, shown⟩ := Option.map_eq_some_iff.1 computed
  exact ⟨trace, v', runShown_run run, shown, (sends_once sampleSetting ⟨_, _, rfl⟩ (runShown_run run)).1⟩

end ApiSecurityPlatform.Broker
