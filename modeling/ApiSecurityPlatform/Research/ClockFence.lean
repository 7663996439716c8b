/-
# Research.ClockFence -- who is fenced when a reading fails

A reading that fails by expiry fences the consumers of the first deadline that does not hold,
and no others (`fenced_invalidate`): a deadline behind it that lapsed at the same reading fences
nobody, and the clock takes no further reading.  So every lapsed deadline fences its consumers
exactly when the first one covers the others (`lapsed_fenced_iff`).

`second_deadline_unfenced`: a window around a nested one, both over at one reading.
-/
import ApiSecurityPlatform.Research.ClockDeadlines

namespace ApiSecurityPlatform.Research.VerificationClock

open ApiSecurityPlatform.Theory
open ApiSecurityPlatform.Python (Str)

set_option autoImplicit false

/-! ## Faults -/

namespace Store

theorem owned_some {db : Store} {project : Int} {key : Key} {row : IntentRow} (found : db.owned project key = some row) :
    row ∈ db.intents ∧ row.project = project ∧ row.key = key := by
  have matches_ := List.find?_some found
  rw [decide_eq_true_eq] at matches_
  exact ⟨List.mem_of_find?_eq_some found, matches_⟩

theorem eq_of_id {db : Store} {row other : IntentRow} (mem : row ∈ db.intents) (mem' : other ∈ db.intents)
    (same : row.id = other.id) : row = other :=
  List.inj_on_of_nodup_map db.ids mem mem' same

theorem fenced_iff {db : Store} {key : Key} : db.fenced key = true ↔ ∃ row ∈ db.intents, row.key = key ∧
    ⟨row.key.contextId, row.id, row.key.digest⟩ ∈ db.faults := by
  simp only [fenced, List.any_eq_true, decide_eq_true_eq]
  constructor
  · rintro ⟨fault, mem, -, -, row, there, id, named⟩
    obtain ⟨row', there', rfl⟩ := db.exact_ fault mem
    obtain rfl := eq_of_id there there' id
    exact ⟨row, there, named, mem⟩
  · rintro ⟨row, there, rfl, mem⟩
    exact ⟨_, mem, rfl, rfl, row, there, rfl, rfl⟩

theorem record_intents (db : Store) (project : Int) (key : Key) : (db.record project key).intents = db.intents := by
  unfold record
  split <;> rfl

@[simp]
theorem owned_record (db : Store) (project project' : Int) (key key' : Key) :
    (db.record project key).owned project' key' = db.owned project' key' := by
  rw [owned, owned, record_intents]

/-- A fault fences its own reference and no other. -/
theorem fenced_record {db : Store} {project : Int} {key other : Key} :
    (db.record project key).fenced other = true ↔
      db.fenced other = true ∨ key = other ∧ (db.owned project key).isSome = true := by
  rw [fenced_iff, fenced_iff, record_intents]
  unfold record
  split
  · next none_ =>
    rw [none_]
    simp
  next row found =>
  obtain ⟨there, -, rfl⟩ := owned_some found
  have own : (db.owned project row.key).isSome = true := by rw [found]; rfl
  dsimp only
  split
  · next faulted =>
    simp only [List.any_eq_true, decide_eq_true_eq] at faulted
    obtain ⟨fault, mem, id⟩ := faulted
    obtain ⟨row', there', rfl⟩ := db.exact_ fault mem
    obtain rfl := eq_of_id there' there id
    refine ⟨.inl, ?_⟩
    rintro (known | ⟨rfl, -⟩)
    · exact known
    · exact ⟨row', there', rfl, mem⟩
  · constructor
    · rintro ⟨row', there', rfl, mem⟩
      rcases List.mem_append.1 mem with old | new
      · exact .inl ⟨row', there', rfl, old⟩
      · have same := FaultRow.mk.inj (List.mem_singleton.1 new)
        obtain rfl := eq_of_id there' there same.2.1
        exact .inr ⟨rfl, own⟩
    · rintro (⟨row', there', rfl, mem⟩ | ⟨rfl, -⟩)
      · exact ⟨row', there', rfl, List.mem_append_left _ mem⟩
      · exact ⟨row, there, rfl, List.mem_append_right _ List.mem_cons_self⟩

end Store

/-- The consumer cannot be used again, if it is committed at all. -/
def Clock.Fenced (c : Clock) (key : Key) : Prop :=
  ∀ project, c.consumers.row key = some project → (c.store.owned project key).isSome = true → c.store.fenced key = true

theorem record_all (select : Key → Prop) [DecidablePred select] (projects : Key → Option Int) (keys : List Key) (db : Store)
    (key : Key) :
    let after := keys.foldl (fun db key =>
      if select key then (projects key).elim db fun project => db.record project key else db) db
    (∀ project other, after.owned project other = db.owned project other) ∧
    (after.fenced key = true ↔ db.fenced key = true ∨ key ∈ keys ∧ select key ∧
      ∃ project, projects key = some project ∧ (db.owned project key).isSome = true) := by
  induction keys generalizing db with
  | nil => simp
  | cons first rest ih =>
      dsimp only
      rw [List.foldl_cons]
      by_cases chosen : select first
      · rw [if_pos chosen]
        cases named : projects first with
        | none =>
            rw [Option.elim_none]
            obtain ⟨owned, fenced⟩ := ih db
            refine ⟨owned, fenced.trans (or_congr_right ?_)⟩
            constructor
            · rintro ⟨mem, rest⟩
              exact ⟨List.mem_cons_of_mem _ mem, rest⟩
            · rintro ⟨mem, selected, project, is, own⟩
              rcases List.mem_cons.1 mem with rfl | inside
              · rw [named] at is
                cases is
              · exact ⟨inside, selected, project, is, own⟩
        | some project =>
            rw [Option.elim_some]
            obtain ⟨owned, fenced⟩ := ih (db.record project first)
            refine ⟨fun p other => (owned p other).trans (Store.owned_record ..), fenced.trans ?_⟩
            simp only [Store.owned_record, Store.fenced_record, List.mem_cons]
            constructor
            · rintro ((known | ⟨rfl, own⟩) | ⟨mem, rest⟩)
              · exact .inl known
              · exact .inr ⟨.inl rfl, chosen, project, named, own⟩
              · exact .inr ⟨.inr mem, rest⟩
            · rintro (known | ⟨rfl | mem, selected, project', is, own⟩)
              · exact .inl (.inl known)
              · obtain rfl := Option.some.inj (named.symm.trans is)
                exact .inl (.inr ⟨rfl, own⟩)
              · exact .inr ⟨mem, selected, project', is, own⟩
      · rw [if_neg chosen]
        obtain ⟨owned, fenced⟩ := ih db
        refine ⟨owned, fenced.trans (or_congr_right ?_)⟩
        constructor
        · rintro ⟨mem, rest⟩
          exact ⟨List.mem_cons_of_mem _ mem, rest⟩
        · rintro ⟨mem, selected, rest⟩
          rcases List.mem_cons.1 mem with rfl | inside
          · exact absurd selected chosen
          · exact ⟨inside, selected, rest⟩

/-- **`invalidate` fences the consumers it is given, and no others.** -/
theorem fenced_invalidate {c : Clock} {consumers : Option (List Key)} {key : Key} :
    (c.invalidate consumers).Fenced key ↔ c.Fenced key ∨ ∀ keys ∈ consumers, key ∈ keys := by
  obtain ⟨owned, fenced⟩ := record_all (fun key => ∀ keys ∈ consumers, key ∈ keys) c.consumers.row c.consumers.keys c.store key
  constructor
  · intro after
    by_cases chosen : ∀ keys ∈ consumers, key ∈ keys
    · exact .inr chosen
    · refine .inl fun project bound own => ?_
      have now := after project bound (by rw [Clock.invalidate, owned]; exact own)
      rcases fenced.1 now with known | ⟨-, selected, -⟩
      · exact known
      · exact absurd selected chosen
  · intro before project bound own
    rw [Clock.invalidate, owned] at own
    refine fenced.2 ?_
    rcases before with known | chosen
    · exact .inl (known project bound own)
    · exact .inr ⟨Table.mem_of_row bound, chosen, project, bound, own⟩

/-! ## Readings -/

section Runs

variable {timestamp : Str → Option Int} {domain : Str}

variable (timestamp domain) in
/-- The deadlines that do not hold, in the order a reading walks them. -/
def Lapsed (c : Clock) (at_ ns : Int) (d : Dependency × List Key) : Prop :=
  d ∈ c.dependencies ∧ ¬ d.1.Holds timestamp domain at_ ns

variable (timestamp domain) in
/-- The first deadline that does not hold has the consumers of the others, as far as they are
not fenced already; on a poisoned clock they are. -/
def Covered (c : Clock) (at_ ns : Int) : Prop :=
  (c.poisoned = true → ∀ d, Lapsed timestamp domain c at_ ns d → ∀ key ∈ d.2, c.Fenced key) ∧
  (c.poisoned = false → ¬ c.Backwards at_ ns → ∀ before first after, c.dependencies = before ++ first :: after →
    (∀ d ∈ before, d.1.Holds timestamp domain at_ ns) → ¬ first.1.Holds timestamp domain at_ ns →
    ∀ d, Lapsed timestamp domain c at_ ns d → ∀ key ∈ d.2, key ∈ first.2 ∨ c.Fenced key)

/-- The first member of a list that does not have a property is unique. -/
theorem first_unique {α : Type} {P : α → Prop} {before before' after after' : List α} {a b : α}
    (same : before ++ a :: after = before' ++ b :: after') (front : ∀ x ∈ before, P x) (fails : ¬ P a)
    (front' : ∀ x ∈ before', P x) (fails' : ¬ P b) : a = b := by
  induction before generalizing before' with
  | nil =>
      cases before' with
      | nil => exact (List.cons.inj same).1
      | cons x rest =>
          obtain ⟨rfl, -⟩ := List.cons.inj same
          exact absurd (front' a List.mem_cons_self) fails
  | cons y rest ih =>
      cases before' with
      | nil =>
          obtain ⟨rfl, -⟩ := List.cons.inj same
          exact absurd (front y List.mem_cons_self) fails'
      | cons x rest' =>
          obtain ⟨-, same⟩ := List.cons.inj same
          exact ih same (fun z mem => front z (List.mem_cons_of_mem _ mem))
            fun z mem => front' z (List.mem_cons_of_mem _ mem)

/-- **One reading.** -/
theorem call_fences_iff {c : Clock} (sound : Sound timestamp domain c) (at_ ns : Int) :
    (∀ d, Lapsed timestamp domain c at_ ns d → ∀ key ∈ d.2,
      (call timestamp domain ⟨some at_, some ns⟩ c).2.Fenced key) ↔ Covered timestamp domain c at_ ns := by
  rcases call_cases sound ⟨some at_, some ns⟩ with
    ⟨poisoned, failed⟩ | ⟨-, none_, -⟩ | ⟨_, sane, ⟨⟩, ⟨backwards, failed⟩ | ⟨_, ⟨⟩, onwards, rest⟩⟩
  · rw [failed, Covered]
    simp only [poisoned, forall_const, reduceCtorEq, IsEmpty.forall_iff, and_true]
  · cases none_
  · rw [failed]
    refine iff_of_true (fun d lapsed key mem => fenced_invalidate.2 (.inr fun _ none_ => nomatch none_)) ⟨?_, ?_⟩
    · intro poisoned
      rw [sane] at poisoned
      cases poisoned
    · exact fun _ onwards => absurd (backwards ns rfl) onwards
  rcases rest with ⟨done, holds⟩ | ⟨before, first, consumers, after, e, split, front, fails, -, failed⟩
  · refine iff_of_true (fun d lapsed => absurd (holds d lapsed.1) lapsed.2) ⟨?_, ?_⟩
    · intro poisoned
      rw [sane] at poisoned
      cases poisoned
    · intro _ _ before first after split _ fails
      exact absurd (holds first (by rw [split]; exact List.mem_append_right _ List.mem_cons_self)) fails
  · rw [failed]
    have fences (key : Key) : ((c.taken at_ ns).expire (some consumers)).Fenced key ↔ c.Fenced key ∨ key ∈ consumers :=
      fenced_invalidate.trans (or_congr_right ⟨fun chosen => chosen _ rfl, fun mem keys is => by
        obtain rfl := Option.some.inj is
        exact mem⟩)
    constructor
    · intro all
      refine ⟨fun poisoned => ?_, fun _ _ before' first' after' split' front' fails' d lapsed key mem => ?_⟩
      · rw [sane] at poisoned
        cases poisoned
      · have same : first' = (first, consumers) :=
          first_unique (P := fun d : Dependency × List Key => d.1.Holds timestamp domain at_ ns)
            (split'.symm.trans split) front' fails' front fails
        rw [same]
        exact ((fences key).1 (all d lapsed key mem)).symm
    · intro covered d lapsed key mem
      exact (fences key).2 (covered.2 sane onwards before (first, consumers) after split front fails d lapsed key mem).symm

variable (timestamp domain) in
/-- **Every lapsed deadline fences its consumers just when the first covers the others**, in
every state of every run; a clock that ran backwards and a mark of another domain fence all. -/
theorem lapsed_fenced_iff (db : Store) (ops : List Op) :
    let c := ops.foldl (step timestamp domain) (.new db)
    (∀ at_ ns, (∀ d, Lapsed timestamp domain c at_ ns d → ∀ key ∈ d.2,
        (call timestamp domain ⟨some at_, some ns⟩ c).2.Fenced key) ↔ Covered timestamp domain c at_ ns) ∧
      (∀ sample, (call timestamp domain sample c).1 = .error .clockInvalid →
        ∀ key, (call timestamp domain sample c).2.Fenced key) ∧
      ∀ sample b, (checkMark timestamp domain sample b c).1 = .error .anomaly →
        ∀ key, (checkMark timestamp domain sample b c).2.Fenced key := by
  intro c
  have sound : Sound timestamp domain c := sound_run (sound_new db) ops
  have all (d : Clock) (key : Key) : (d.invalidate none).Fenced key := fenced_invalidate.2 (.inr fun _ none_ => by cases none_)
  refine ⟨call_fences_iff sound, fun sample => ?_, fun sample b => ?_⟩
  · rcases call_cases sound sample with ⟨-, failed⟩ | ⟨-, -, failed⟩ | ⟨_, -, -, ⟨-, failed⟩ | ⟨_, -, -, rest⟩⟩
    · rw [failed]
      exact fun other => by cases other
    · rw [failed]
      exact fun other => by cases other
    · rw [failed]
      exact fun _ => all c
    · rcases rest with ⟨done, -⟩ | ⟨_, _, _, _, e, -, -, -, kind, failed⟩
      · rw [done]
        exact fun other => by cases other
      · rw [failed]
        rcases kind with rfl | rfl <;> exact fun other => by cases other
  · rw [checkMark, Tx.bind_apply]
    rcases call_cases sound sample with ⟨-, failed⟩ | ⟨-, -, failed⟩ | ⟨_, -, -, ⟨-, failed⟩ | ⟨_, -, -, rest⟩⟩
    · rw [failed]
      exact fun other => by cases other
    · rw [failed]
      exact fun other => by cases other
    · rw [failed]
      exact fun other => by cases other
    · rcases rest with ⟨done, -⟩ | ⟨_, _, _, _, e, -, -, -, kind, failed⟩
      · rw [done]
        dsimp only
        rw [Tx.bind_apply]
        rcases register_cases timestamp domain (c := c.taken _ _) rfl b with
          ⟨e, failed, kind⟩ | ⟨e, consumers, failed, same⟩ | ⟨-, -, passed⟩ | ⟨-, marked, -⟩
        · rw [failed]
          rintro ⟨⟩
          rcases kind with other | other | other <;> cases other
        · rw [failed]
          rintro ⟨⟩
          rw [same rfl]
          exact all _
        · rw [passed]
          exact fun other => by cases other
        · rw [marked]
          exact fun other => by cases other
      · rw [failed]
        rcases kind with rfl | rfl <;> exact fun other => by cases other

end Runs

section Pole

private def business : Key := ⟨1, 1, 1, ['a']⟩

private def health : Key := ⟨1, 2, 1, ['b']⟩

private def twoIntents : Store := ⟨[⟨1, 1, business⟩, ⟨2, 1, health⟩], [], by decide, fun _ mem => nomatch mem⟩

/-- An intent and, as a dependency of it, another; their windows end at 10 and at 8. -/
private def nested : Clock :=
  [Op.bind 1 business, .watch 0 10, .enter, .bind 1 health, .watch 0 8, .leave].foldl (step (fun _ => none) [])
    (.new twoIntents)

/-- At 12 both windows are over.  The reading fails at the first, and the inner intent, whose own
window is over, is not fenced. -/
theorem second_deadline_unfenced :
    (call (fun _ => none) [] ⟨some 12, some 100⟩ nested).1 = .error .intentExpired ∧
    Lapsed (fun _ => none) [] nested 12 100 (.window 0 8, [health, business]) ∧
    (call (fun _ => none) [] ⟨some 12, some 100⟩ nested).2.store.fenced business = true ∧
    ¬ (call (fun _ => none) [] ⟨some 12, some 100⟩ nested).2.Fenced health := by
  refine ⟨rfl, ⟨mem_dependencies.2 (.inl ⟨0, 8, rfl, rfl⟩), fun holds => ?_⟩, rfl, fun fenced => ?_⟩
  · have before : (12 : Int) < 8 := holds.2
    omega
  · have raised := fenced 1 rfl rfl
    cases raised

end Pole

end ApiSecurityPlatform.Research.VerificationClock
