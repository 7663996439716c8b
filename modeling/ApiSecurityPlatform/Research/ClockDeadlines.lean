/-
# Research.ClockDeadlines -- the clock never reaches past a deadline

`Sound` holds of the clock of every run: what was registered can be checked again, and its
consumers are bound.  On such a clock a reading succeeds just when both clocks went on and
every deadline holds, and fails at the first that does not (`call_cases`).

* `Seen`: what the clock keeps of its history;
* `readings_within_deadlines`: a reading is not before an earlier one, lies in every window and
  within both bounds of every mark, and follows no failure that poisons.
-/
import ApiSecurityPlatform.Research.VerificationClock

namespace ApiSecurityPlatform.Research.VerificationClock

open ApiSecurityPlatform.Theory
open ApiSecurityPlatform.Python (Str)

set_option autoImplicit false

inductive Dependency where
  | window (start end_ : Int)
  | mark (b : Boundary)

/-- The deadlines with their consumers, in the order a reading walks them. -/
def Clock.dependencies (c : Clock) : List (Dependency × List Key) :=
  c.windows.items.map (fun w => (.window w.1.1 w.1.2, w.2)) ++ c.boundaries.items.map fun m => (.mark m.1, m.2)

section Runs

variable (timestamp : Str → Option Int) (domain : Str)

def Dependency.Holds (at_ ns : Int) : Dependency → Prop
  | .window start end_ => start ≤ at_ ∧ at_ < end_
  | .mark b => MarkHolds timestamp domain at_ ns b

/-- A mark that passed a check when the clocks showed this. -/
structure Anchored (last : Int × Int) (b : Boundary) (start mark : Int) : Prop where
  written : timestamp b.mark.written = some start
  counted : b.mark.monotonicNs = some mark
  domain_ : b.mark.clockDomain = domain
  positive : 0 ≤ mark
  wall : start ≤ last.1
  elapsed : mark ≤ last.2
  range : ∀ seconds ∈ b.seconds, 0 ≤ start + seconds * 1000000 ∧ start + seconds * 1000000 ≤ maxInstant

structure Sound (c : Clock) : Prop where
  marks : ∀ b consumers, c.boundaries.row b = some consumers →
    ∃ last start mark, c.last = some last ∧ Anchored timestamp domain last b start mark
  active : ∀ key ∈ c.active, key ∈ c.consumers.keys
  saved : ∀ keys ∈ c.saved, ∀ key ∈ keys, key ∈ c.consumers.keys
  bound : ∀ d consumers, (d, consumers) ∈ c.dependencies → ∀ key ∈ consumers, key ∈ c.consumers.keys

variable {timestamp domain}

theorem Anchored.later {last last' : Int × Int} {b : Boundary} {start mark : Int}
    (anchored : Anchored timestamp domain last b start mark) (wall : last.1 ≤ last'.1) (ns : last.2 ≤ last'.2) :
    Anchored timestamp domain last' b start mark :=
  { anchored with wall := Int.le_trans anchored.wall wall, elapsed := Int.le_trans anchored.elapsed ns }

/-- A check of an anchored mark fails only by expiry. -/
theorem Anchored.check_cases {at_ ns : Int} {b : Boundary} {start mark : Int}
    (anchored : Anchored timestamp domain (at_, ns) b start mark) (consumers : Option (List Key)) (c : Clock) :
    (check timestamp domain at_ ns b consumers c = (.ok (), c) ∧ MarkHolds timestamp domain at_ ns b) ∨
    check timestamp domain at_ ns b consumers c = (.error .verificationExpired, c.expire consumers) ∧
      ¬ MarkHolds timestamp domain at_ ns b := by
  rcases VerificationClock.check_cases timestamp domain at_ ns b consumers c with
    ⟨passed, holds, -⟩ | ⟨-, start', written, anomaly⟩ | expired | ⟨-, unwritten⟩ | ⟨-, start', written, seconds, mem, out⟩
  · exact .inl ⟨passed, holds⟩
  · have sound := anomaly mark anchored.counted
    obtain rfl := Option.some.inj (written.symm.trans anchored.written)
    have wall := anchored.wall
    have elapsed := anchored.elapsed
    have positive := anchored.positive
    rcases sound with other | lapsed
    · exact absurd anchored.domain_ other
    · omega
  · exact .inr expired
  · rw [anchored.written] at unwritten
    cases unwritten
  · obtain rfl := Option.some.inj (written.symm.trans anchored.written)
    have range := anchored.range seconds mem
    omega

theorem mem_dependencies {c : Clock} {d : Dependency} {consumers : List Key} :
    (d, consumers) ∈ c.dependencies ↔ (∃ start end_, d = .window start end_ ∧ c.windows.row (start, end_) = some consumers) ∨
      ∃ b, d = .mark b ∧ c.boundaries.row b = some consumers := by
  simp only [Clock.dependencies, List.mem_append, List.mem_map, Prod.exists, Prod.mk.injEq, Table.mem_items]
  constructor
  · rintro (⟨start, end_, keys, found, rfl, rfl⟩ | ⟨b, keys, found, rfl, rfl⟩)
    · exact .inl ⟨start, end_, rfl, found⟩
    · exact .inr ⟨b, rfl, found⟩
  · rintro (⟨start, end_, rfl, found⟩ | ⟨b, rfl, found⟩)
    · exact .inl ⟨start, end_, _, found, rfl, rfl⟩
    · exact .inr ⟨b, _, found, rfl, rfl⟩

/-- The clock with a reading taken. -/
def Clock.taken (c : Clock) (at_ ns : Int) : Clock := { c with last := some (at_, ns) }

/-- **What a reading does.** -/
theorem call_cases {c : Clock} (sound : Sound timestamp domain c) (sample : Sample) :
    (c.poisoned = true ∧ call timestamp domain sample c = (.error .invalidated, c)) ∨
    (c.poisoned = false ∧ sample.wall = none ∧ call timestamp domain sample c = (.error .invalidClock, c)) ∨
    ∃ at_, c.poisoned = false ∧ sample.wall = some at_ ∧
      (((∀ ns ∈ sample.ns, c.Backwards at_ ns) ∧
        call timestamp domain sample c = (.error .clockInvalid, c.invalidate none)) ∨
      ∃ ns, sample.ns = some ns ∧ ¬ c.Backwards at_ ns ∧
        ((call timestamp domain sample c = (.ok at_, c.taken at_ ns) ∧
          ∀ d ∈ c.dependencies, d.1.Holds timestamp domain at_ ns) ∨
        ∃ before d consumers after e, c.dependencies = before ++ (d, consumers) :: after ∧
          (∀ d ∈ before, d.1.Holds timestamp domain at_ ns) ∧ ¬ d.Holds timestamp domain at_ ns ∧
          (e = .intentExpired ∨ e = .verificationExpired) ∧
          call timestamp domain sample c = (.error e, (c.taken at_ ns).expire (some consumers)))) := by
  rw [call, Tx.bind_apply]
  dsimp only [Tx.get]
  rw [Tx.refuse_bind]
  cases poisoned : c.poisoned with
  | true => exact .inl ⟨rfl, if_pos rfl⟩
  | false =>
  rw [if_neg Bool.false_ne_true]
  cases wall : sample.wall with
  | none => exact .inr (.inl ⟨rfl, rfl, rfl⟩)
  | some at_ =>
  refine .inr (.inr ⟨at_, rfl, rfl, ?_⟩)
  cases counted : sample.ns with
  | none => exact .inl ⟨fun _ mem => (nomatch mem), rfl⟩
  | some ns =>
  dsimp only
  split
  · next backwards =>
    refine .inl ⟨?_, rfl⟩
    rintro _ ⟨⟩
    exact backwards
  next onwards =>
  refine .inr ⟨ns, rfl, onwards, ?_⟩
  rw [Tx.bind_apply]
  dsimp only [Tx.modify]
  rcases checkWindows_cases at_ c.windows.items (c.taken at_ ns) with
    ⟨passed, windows⟩ | ⟨before, w, consumers, after, split, front, lapsed, failed⟩
  · have windows' : ∀ d ∈ c.windows.items.map (fun w => ((.window w.1.1 w.1.2 : Dependency), w.2)),
        d.1.Holds timestamp domain at_ ns := by
      intro d mem
      obtain ⟨w, mem', rfl⟩ := List.mem_map.1 mem
      exact windows w mem'
    rcases checkBoundaries_cases timestamp domain at_ ns c.boundaries.items (c.taken at_ ns) with
      ⟨passed', marks⟩ | ⟨before, b, consumers, after, e, d, split, front, checked, failed⟩
    · refine .inl ⟨?_, fun d mem => ?_⟩
      · refine (Tx.bind_of_ok passed).trans ?_
        exact Tx.bind_of_ok passed'
      · rcases List.mem_append.1 mem with window | mark
        · exact windows' d window
        · obtain ⟨m, mem', rfl⟩ := List.mem_map.1 mark
          exact marks m mem'
    · have row : c.boundaries.row b = some consumers :=
        Table.mem_items.1 (by rw [split]; exact List.mem_append_right _ List.mem_cons_self)
      obtain ⟨last, start, mark, known, anchored⟩ := sound.marks b consumers row
      have onward : last.1 ≤ at_ ∧ last.2 ≤ ns := by
        have forward : ¬ (at_ < last.1 ∨ ns < last.2) := fun back => onwards (.inr ⟨last, known, back⟩)
        omega
      have later : Anchored timestamp domain (at_, ns) b start mark := anchored.later onward.1 onward.2
      rcases later.check_cases (some consumers) (c.taken at_ ns) with ⟨fine, -⟩ | ⟨expired, lapsed⟩
      · rw [fine] at checked
        cases checked
      rw [expired] at checked
      cases checked
      refine .inr ⟨c.windows.items.map (fun w => (.window w.1.1 w.1.2, w.2)) ++ before.map (fun m => (.mark m.1, m.2)),
        .mark b, consumers, after.map (fun m => (.mark m.1, m.2)), .verificationExpired, ?_, ?_, lapsed, .inr rfl, ?_⟩
      · rw [Clock.dependencies, split, List.map_append, List.map_cons, List.append_assoc]
      · intro d mem
        rcases List.mem_append.1 mem with window | mark'
        · exact windows' d window
        · obtain ⟨m, mem', rfl⟩ := List.mem_map.1 mark'
          exact front m mem'
      · refine (Tx.bind_of_ok passed).trans ?_
        exact Tx.bind_of_error failed
  · refine .inr ⟨before.map (fun w => (.window w.1.1 w.1.2, w.2)), .window w.1 w.2, consumers,
      after.map (fun w => (.window w.1.1 w.1.2, w.2)) ++ c.boundaries.items.map (fun m => (.mark m.1, m.2)), .intentExpired,
      ?_, ?_, lapsed, .inl rfl, ?_⟩
    · rw [Clock.dependencies, split, List.map_append, List.map_cons, List.append_assoc]
      rfl
    · intro d mem
      obtain ⟨w', mem', rfl⟩ := List.mem_map.1 mem
      exact front w' mem'
    · exact Tx.bind_of_error failed

/-! ## Every clock is sound -/

theorem sound_new (db : Store) : Sound timestamp domain (.new db) where
  marks b consumers found := by cases found
  active key mem := by cases mem
  saved keys mem := by cases mem
  bound d consumers mem := by cases mem

theorem Sound.invalidate {c : Clock} (sound : Sound timestamp domain c) (consumers : Option (List Key)) :
    Sound timestamp domain (c.invalidate consumers) :=
  ⟨sound.marks, sound.active, sound.saved, sound.bound⟩

theorem Sound.expire {c : Clock} (sound : Sound timestamp domain c) (consumers : Option (List Key)) :
    Sound timestamp domain (c.expire consumers) := sound.invalidate _

/-- Readings that go on. -/
theorem onward {c : Clock} {at_ ns : Int} (onwards : ¬ c.Backwards at_ ns) :
    0 ≤ ns ∧ ∀ last ∈ c.last, last.1 ≤ at_ ∧ last.2 ≤ ns := by
  rw [Clock.Backwards, not_or, not_lt] at onwards
  refine ⟨onwards.1, fun last mem => ?_⟩
  have forward : ¬ (at_ < last.1 ∨ ns < last.2) := fun back => onwards.2 ⟨last, mem, back⟩
  omega

theorem Sound.taken {c : Clock} (sound : Sound timestamp domain c) {at_ ns : Int} (onwards : ¬ c.Backwards at_ ns) :
    Sound timestamp domain (c.taken at_ ns) where
  marks b consumers found := by
    obtain ⟨last, start, mark, known, anchored⟩ := sound.marks b consumers found
    have forward := (onward onwards).2 last known
    exact ⟨(at_, ns), start, mark, rfl, anchored.later forward.1 forward.2⟩
  active := sound.active
  saved := sound.saved
  bound := sound.bound

theorem sound_call {c : Clock} (sound : Sound timestamp domain c) (sample : Sample) :
    Sound timestamp domain (call timestamp domain sample c).2 := by
  rcases call_cases sound sample with ⟨-, failed⟩ | ⟨-, -, failed⟩ | ⟨at_, -, -, ⟨-, failed⟩ | ⟨ns, -, onwards, rest⟩⟩
  · rw [failed]
    exact sound
  · rw [failed]
    exact sound
  · rw [failed]
    exact sound.invalidate none
  · rcases rest with ⟨done, -⟩ | ⟨_, _, consumers, _, e, -, -, -, -, failed⟩
    · rw [done]
      exact sound.taken onwards
    · rw [failed]
      exact (sound.taken onwards).expire _

theorem bind_cases (project : Int) (key : Key) (c : Clock) :
    bindIntent project key c = (.error .limit, c) ∨
    bindIntent project key c = (.ok (), { c with consumers := c.consumers.put key project, active := c.active.insert key }) := by
  rw [bindIntent, Tx.bind_apply]
  dsimp only [Tx.get]
  rw [Tx.refuse_bind]
  split
  · exact .inl rfl
  · exact .inr rfl

theorem watch_cases (start end_ : Int) (c : Clock) :
    watchWindow start end_ c = (.error .limit, c) ∨
    watchWindow start end_ c = (.ok (), { c with
      windows := c.windows.put (start, end_) (c.active ∪ (c.windows.row (start, end_)).getD []) }) := by
  rw [watchWindow, Tx.bind_apply]
  dsimp only [Tx.get]
  rw [Tx.refuse_bind]
  split
  · exact .inl rfl
  · exact .inr rfl

/-- The clock with a mark registered. -/
def Clock.marked (c : Clock) (b : Boundary) : Clock :=
  { c with boundaries := c.boundaries.put b (c.active ∪ (c.boundaries.row b).getD []) }

variable (timestamp domain) in
theorem register_cases {c : Clock} {at_ ns : Int} (read : c.last = some (at_, ns)) (b : Boundary) :
    (∃ e, registerMark timestamp domain b c = (.error e, c) ∧ (e = .invalid ∨ e = .overflow ∨ e = .limit)) ∨
    (∃ e consumers, registerMark timestamp domain b c = (.error e, c.invalidate consumers) ∧
      (e = .anomaly → consumers = none)) ∨
    (b.seconds = none ∧ b.end_ = none ∧ registerMark timestamp domain b c = (.ok (), c)) ∨
    ((b.seconds ≠ none ∨ b.end_ ≠ none) ∧ registerMark timestamp domain b c = (.ok (), c.marked b) ∧
      ∃ start mark, Anchored timestamp domain (at_, ns) b start mark) := by
  rw [registerMark, Tx.bind_apply]
  dsimp only [Tx.get]
  rw [read, Option.getD_some]
  rcases check_cases timestamp domain at_ ns b none c with
    ⟨passed, ⟨start, mark, fresh⟩, range⟩ | ⟨failed, -⟩ | ⟨failed, -⟩ | ⟨failed, -⟩ | ⟨failed, -⟩
  · have wall := fresh.wall
    have elapsed := fresh.elapsed
    have anchored : Anchored timestamp domain (at_, ns) b start mark :=
      ⟨fresh.written, fresh.counted, fresh.domain_, fresh.positive, by show start ≤ at_; omega,
        by show mark ≤ ns; omega, range start fresh.written⟩
    rw [Tx.bind_of_ok passed]
    unfold Tx.when
    split
    · next bounded =>
      rw [Tx.refuse_bind]
      split
      · exact .inl ⟨.limit, rfl, .inr (.inr rfl)⟩
      · exact .inr (.inr (.inr ⟨bounded, rfl, start, mark, anchored⟩))
    · next free =>
      rw [not_or, not_not, not_not] at free
      exact .inr (.inr (.inl ⟨free.1, free.2, rfl⟩))
  · exact .inr (.inl ⟨.anomaly, none, Tx.bind_of_error failed, fun _ => rfl⟩)
  · exact .inr (.inl ⟨.verificationExpired, some c.active, Tx.bind_of_error failed, fun same => (nomatch same)⟩)
  · exact .inl ⟨.invalid, Tx.bind_of_error failed, .inl rfl⟩
  · exact .inl ⟨.overflow, Tx.bind_of_error failed, .inr (.inl rfl)⟩

theorem subset_union {active old keys : List Key} (first : ∀ key ∈ active, key ∈ keys) (second : ∀ key ∈ old, key ∈ keys) :
    ∀ key ∈ active ∪ old, key ∈ keys := by
  intro key mem
  rcases List.mem_union_iff.1 mem with inside | inside
  · exact first key inside
  · exact second key inside

theorem Sound.marked {c : Clock} {at_ ns : Int} (sound : Sound timestamp domain c) (read : c.last = some (at_, ns))
    {b : Boundary} {start mark : Int} (anchored : Anchored timestamp domain (at_, ns) b start mark) :
    Sound timestamp domain (c.marked b) where
  marks b' consumers found := by
    by_cases same : b' = b
    · subst same
      exact ⟨(at_, ns), start, mark, read, anchored⟩
    · exact sound.marks b' consumers (by rwa [Clock.marked, Table.row_put_of_ne _ _ same] at found)
  active := sound.active
  saved := sound.saved
  bound d consumers mem := by
    rcases mem_dependencies.1 mem with ⟨start, end_, rfl, found⟩ | ⟨b', rfl, found⟩
    · exact sound.bound _ consumers (mem_dependencies.2 (.inl ⟨start, end_, rfl, found⟩))
    · by_cases same : b' = b
      · subst same
        rw [Clock.marked, Table.row_put_self] at found
        obtain rfl := Option.some.inj found
        refine subset_union sound.active fun key inside => ?_
        cases old : c.boundaries.row b' with
        | none => rw [old] at inside; cases inside
        | some keys =>
            rw [old] at inside
            exact sound.bound _ keys (mem_dependencies.2 (.inr ⟨b', rfl, old⟩)) key inside
      · rw [Clock.marked, Table.row_put_of_ne _ _ same] at found
        exact sound.bound _ consumers (mem_dependencies.2 (.inr ⟨b', rfl, found⟩))

theorem Sound.watched {c : Clock} (sound : Sound timestamp domain c) (start end_ : Int) :
    Sound timestamp domain { c with
      windows := c.windows.put (start, end_) (c.active ∪ (c.windows.row (start, end_)).getD []) } where
  marks := sound.marks
  active := sound.active
  saved := sound.saved
  bound d consumers mem := by
    rcases mem_dependencies.1 mem with ⟨start', end', rfl, found⟩ | ⟨b, rfl, found⟩
    · by_cases same : (start', end') = (start, end_)
      · rw [same, Table.row_put_self] at found
        obtain rfl := Option.some.inj found
        refine subset_union sound.active fun key inside => ?_
        cases old : c.windows.row (start, end_) with
        | none => rw [old] at inside; cases inside
        | some keys =>
            rw [old] at inside
            exact sound.bound _ keys (mem_dependencies.2 (.inl ⟨start, end_, rfl, old⟩)) key inside
      · rw [Table.row_put_of_ne _ _ same] at found
        exact sound.bound _ consumers (mem_dependencies.2 (.inl ⟨start', end', rfl, found⟩))
    · exact sound.bound _ consumers (mem_dependencies.2 (.inr ⟨b, rfl, found⟩))

theorem Sound.bind {c : Clock} (sound : Sound timestamp domain c) (project : Int) (key : Key) :
    Sound timestamp domain { c with consumers := c.consumers.put key project, active := c.active.insert key } where
  marks := sound.marks
  active key' mem := by
    rcases List.mem_insert_iff.1 mem with rfl | inside
    · exact Table.mem_keys_put _ _ _
    · exact Table.mem_keys_put_of_mem _ _ (sound.active key' inside)
  saved keys mem key' inside := Table.mem_keys_put_of_mem _ _ (sound.saved keys mem key' inside)
  bound d consumers mem key' inside := Table.mem_keys_put_of_mem _ _ (sound.bound d consumers mem key' inside)

theorem sound_step {c : Clock} (sound : Sound timestamp domain c) (op : Op) :
    Sound timestamp domain (step timestamp domain c op) := by
  cases op with
  | read sample => exact sound_call sound sample
  | bind project key =>
      show Sound timestamp domain (bindIntent project key c).2
      rcases bind_cases project key c with failed | done
      · rw [failed]
        exact sound
      · rw [done]
        exact sound.bind project key
  | watch start end_ =>
      show Sound timestamp domain (watchWindow start end_ c).2
      rcases watch_cases start end_ c with failed | done
      · rw [failed]
        exact sound
      · rw [done]
        exact sound.watched start end_
  | mark sample b =>
      show Sound timestamp domain (checkMark timestamp domain sample b c).2
      have called := sound_call sound sample
      rw [checkMark, Tx.bind_apply]
      rcases call_cases sound sample with ⟨-, failed⟩ | ⟨-, -, failed⟩ | ⟨at_, -, -, ⟨-, failed⟩ | ⟨ns, -, onwards, rest⟩⟩
      · rwa [failed] at called ⊢
      · rwa [failed] at called ⊢
      · rwa [failed] at called ⊢
      rcases rest with ⟨done, -⟩ | ⟨_, _, consumers, _, e, -, -, -, -, failed⟩
      · rw [done] at called ⊢
        dsimp only at called ⊢
        rw [Tx.bind_apply]
        rcases register_cases timestamp domain (c := c.taken at_ ns) rfl b with
          ⟨e, failed, -⟩ | ⟨e, consumers, failed, -⟩ | ⟨-, -, plain⟩ | ⟨-, marked, start, mark, anchored⟩
        · rwa [failed]
        · rw [failed]
          exact called.invalidate consumers
        · rwa [plain]
        · rw [marked]
          exact called.marked rfl anchored
      · rwa [failed] at called ⊢
  | enter => exact ⟨sound.marks, sound.active, List.forall_mem_cons.2 ⟨sound.active, sound.saved⟩, sound.bound⟩
  | leave =>
      show Sound timestamp domain (leave c)
      unfold leave
      split
      · exact sound
      · next previous rest saved =>
        have inner := sound.saved
        rw [saved] at inner
        obtain ⟨first, others⟩ := List.forall_mem_cons.1 inner
        exact ⟨sound.marks, first, others, sound.bound⟩

theorem sound_run {c : Clock} (sound : Sound timestamp domain c) (ops : List Op) :
    Sound timestamp domain (ops.foldl (step timestamp domain) c) := by
  induction ops generalizing c with
  | nil => exact sound
  | cons op rest ih => exact ih (sound_step sound op)

/-! ## Readings and what was registered before them -/

/-- The failures after which no reading succeeds. -/
def Poisons (e : ClockError) : Prop :=
  e = .clockInvalid ∨ e = .anomaly ∨ e = .intentExpired ∨ e = .verificationExpired

/-- What the clock keeps of an event. -/
def Keeps (c : Clock) : Event → Prop
  | .read at_ ns => ∃ last ∈ c.last, at_ ≤ last.1 ∧ ns ≤ last.2
  | .watched start end_ => ∃ consumers, c.windows.row (start, end_) = some consumers
  | .marked b => ∃ consumers, c.boundaries.row b = some consumers
  | .failed e => Poisons e → c.poisoned = true

variable (timestamp domain) in
/-- What an event asks of a later reading. -/
def Allows (at_ ns : Int) : Event → Prop
  | .read at' ns' => at' ≤ at_ ∧ ns' ≤ ns
  | .watched start end_ => start ≤ at_ ∧ at_ < end_
  | .marked b => ∃ start mark, Fresh timestamp domain at_ ns b start mark
  | .failed e => ¬ Poisons e

theorem Keeps.invalidate {c : Clock} {event : Event} (keeps : Keeps c event) (consumers : Option (List Key)) :
    Keeps (c.invalidate consumers) event := by
  cases event with
  | failed e => exact fun _ => rfl
  | read at_ ns => exact keeps
  | watched start end_ => exact keeps
  | marked b => exact keeps

theorem Keeps.taken {c : Clock} {event : Event} (keeps : Keeps c event) {at_ ns : Int}
    (onwards : ¬ c.Backwards at_ ns) : Keeps (c.taken at_ ns) event := by
  cases event with
  | read at' ns' =>
      obtain ⟨last, known, wall, elapsed⟩ := keeps
      have forward := (onward onwards).2 last known
      exact ⟨(at_, ns), rfl, Int.le_trans wall forward.1, Int.le_trans elapsed forward.2⟩
  | watched start end_ => exact keeps
  | marked b => exact keeps
  | failed e => exact keeps

theorem Keeps.marked {c : Clock} {event : Event} (keeps : Keeps c event) (b : Boundary) : Keeps (c.marked b) event := by
  cases event with
  | marked b' =>
      show ∃ consumers, (c.boundaries.put b _).row b' = some consumers
      rw [Table.row_put]
      split
      · exact ⟨_, rfl⟩
      · exact keeps
  | read at_ ns => exact keeps
  | watched start end_ => exact keeps
  | failed e => exact keeps

theorem Keeps.watched {c : Clock} {event : Event} (keeps : Keeps c event) (window : Int × Int) (consumers : List Key) :
    Keeps { c with windows := c.windows.put window consumers } event := by
  cases event with
  | watched start end_ =>
      show ∃ keys, (c.windows.put window consumers).row (start, end_) = some keys
      rw [Table.row_put]
      split
      · exact ⟨_, rfl⟩
      · exact keeps
  | read at_ ns => exact keeps
  | marked b => exact keeps
  | failed e => exact keeps

/-- A reading that succeeds does what every kept event asks of it. -/
theorem Keeps.allows {c : Clock} {event : Event} (keeps : Keeps c event) (sane : c.poisoned = false) {at_ ns : Int}
    (onwards : ¬ c.Backwards at_ ns) (holds : ∀ d ∈ c.dependencies, d.1.Holds timestamp domain at_ ns) :
    Allows timestamp domain at_ ns event := by
  cases event with
  | read at' ns' =>
      obtain ⟨last, known, wall, elapsed⟩ := keeps
      have forward := (onward onwards).2 last known
      exact ⟨Int.le_trans wall forward.1, Int.le_trans elapsed forward.2⟩
  | watched start end_ =>
      obtain ⟨consumers, found⟩ := keeps
      exact holds (.window start end_, consumers) (mem_dependencies.2 (.inl ⟨start, end_, rfl, found⟩))
  | marked b =>
      obtain ⟨consumers, found⟩ := keeps
      exact holds (.mark b, consumers) (mem_dependencies.2 (.inr ⟨b, rfl, found⟩))
  | failed e =>
      intro poisons
      have poisoned := keeps poisons
      rw [sane] at poisoned
      cases poisoned

variable (timestamp domain) in
/-- What one call does to the events: it keeps them and its own, and a reading of it is the
first of its events. -/
structure Step (c : Clock) (op : Op) (new : List Event) (d : Clock) : Prop where
  old : ∀ event, Keeps c event → Keeps d event
  kept : ∀ event ∈ new, Keeps d event
  first : ∀ before at_ ns after, new = before ++ .read at_ ns :: after →
    before = [] ∧ ∀ event, Keeps c event → Allows timestamp domain at_ ns event

theorem Step.failed {c d : Clock} {op : Op} {e : ClockError} (old : ∀ event, Keeps c event → Keeps d event)
    (poisoned : Poisons e → d.poisoned = true) :
    Step timestamp domain c op [.failed e] d where
  old := old
  kept event mem := by
    obtain rfl := List.mem_singleton.1 mem
    exact poisoned
  first before at_ ns after split := by
    cases before with
    | nil => cases split
    | cons event rest => simp at split

/-- A reading that fails. -/
theorem call_failed {c d : Clock} (sound : Sound timestamp domain c) {sample : Sample} {e : ClockError} (op : Op)
    (failed : call timestamp domain sample c = (.error e, d)) :
    Step timestamp domain c op [.failed e] d := by
  rcases call_cases sound sample with ⟨poisoned, is⟩ | ⟨-, -, is⟩ | ⟨at_, -, -, ⟨-, is⟩ | ⟨ns, -, onwards, rest⟩⟩
  · cases failed.symm.trans is
    exact .failed (fun _ => id) (fun _ => poisoned)
  · cases failed.symm.trans is
    refine .failed (fun _ => id) (fun poisons => ?_)
    rcases poisons with other | other | other | other <;> cases other
  · cases failed.symm.trans is
    exact .failed (fun _ keeps => keeps.invalidate none) (fun _ => rfl)
  · rcases rest with ⟨is, -⟩ | ⟨_, _, consumers, _, e', -, -, -, -, is⟩
    · cases failed.symm.trans is
    · cases failed.symm.trans is
      exact .failed (fun _ keeps => (keeps.taken onwards).invalidate _) (fun _ => rfl)

/-- A reading that succeeds, and what comes behind it. -/
theorem call_read {c d : Clock} (sound : Sound timestamp domain c) {sample : Sample} {at_ : Int} (op : Op)
    (read : call timestamp domain sample c = (.ok at_, d)) :
    ∃ ns, d = c.taken at_ ns ∧ ∀ new u, (∀ event, Keeps d event → Keeps u event) → (∀ event ∈ new, Keeps u event) →
      (∀ at' ns', Event.read at' ns' ∉ new) →
      Step timestamp domain c op (.read at_ ns :: new) u := by
  rcases call_cases sound sample with ⟨-, is⟩ | ⟨-, -, is⟩ | ⟨at', sane, -, ⟨-, is⟩ | ⟨ns, -, onwards, rest⟩⟩
  · cases read.symm.trans is
  · cases read.symm.trans is
  · cases read.symm.trans is
  rcases rest with ⟨is, holds⟩ | ⟨_, _, _, _, e, -, -, -, -, is⟩
  · cases read.symm.trans is
    refine ⟨ns, rfl, fun new u old kept none_ => ⟨fun event keeps => old event (keeps.taken onwards), ?_, ?_⟩⟩
    · exact List.forall_mem_cons.2 ⟨old _ ⟨(at_, ns), rfl, Int.le_refl _, Int.le_refl _⟩, kept⟩
    · intro before at' ns' after split
      cases before with
      | nil =>
          cases split
          exact ⟨rfl, fun event keeps => keeps.allows sane onwards holds⟩
      | cons event rest =>
          obtain ⟨-, split⟩ := List.cons.inj split
          exact absurd (split ▸ List.mem_append_right rest List.mem_cons_self) (none_ at' ns')
  · cases read.symm.trans is

/-- A call without a reading. -/
theorem Step.plain {c d : Clock} {op : Op} {new : List Event} (old : ∀ event, Keeps c event → Keeps d event)
    (kept : ∀ event ∈ new, Keeps d event) (none_ : ∀ at_ ns, Event.read at_ ns ∉ new) :
    Step timestamp domain c op new d where
  old := old
  kept := kept
  first before at_ ns _ split :=
    absurd (split ▸ List.mem_append_right before List.mem_cons_self) (none_ at_ ns)

theorem step_keeps {c : Clock} (sound : Sound timestamp domain c) (op : Op) :
    Step timestamp domain c op (events timestamp domain op c) (step timestamp domain c op) := by
  have limit (op : Op) : Step timestamp domain c op [.failed .limit] c :=
    .failed (fun _ => id) fun poisons => by rcases poisons with other | other | other | other <;> cases other
  cases op with
  | read sample =>
      rw [events, step]
      cases ran : call timestamp domain sample c with
      | mk result d =>
          cases result with
          | error e => exact call_failed sound (.read sample) ran
          | ok at_ =>
              obtain ⟨ns, rfl, more⟩ := call_read sound (.read sample) ran
              exact more [] _ (fun _ => id) (fun _ mem => nomatch mem) (fun _ _ mem => nomatch mem)
  | bind project key =>
      rw [events, step]
      rcases bind_cases project key c with failed | done
      · rw [failed]
        exact limit _
      · rw [done]
        refine .plain (fun event keeps => ?_) (fun _ mem => nomatch mem) (fun _ _ mem => nomatch mem)
        cases event <;> exact keeps
  | watch start end_ =>
      rw [events, step]
      rcases watch_cases start end_ c with failed | done
      · rw [failed]
        exact limit _
      · rw [done]
        refine .plain (fun event keeps => keeps.watched _ _) (fun event mem => ?_) (fun _ _ mem => by simp at mem)
        obtain rfl := List.mem_singleton.1 mem
        exact ⟨_, Table.row_put_self _ _ _⟩
  | mark sample b =>
      rw [events, step]
      rw [checkMark, Tx.bind_apply]
      cases ran : call timestamp domain sample c with
      | mk result d =>
          cases result with
          | error e => exact call_failed sound (.mark sample b) ran
          | ok at_ =>
              obtain ⟨ns, rfl, more⟩ := call_read sound (.mark sample b) ran
              dsimp only
              rw [Tx.bind_apply]
              rcases register_cases timestamp domain (c := c.taken at_ ns) rfl b with
                ⟨e, failed, kind⟩ | ⟨e, consumers, failed, -⟩ | ⟨plain, plain', passed⟩ | ⟨bounded, marked, -⟩
              · rw [failed]
                refine more _ _ (fun _ => id) (fun event mem => ?_) (fun _ _ mem => by simp at mem)
                obtain rfl := List.mem_singleton.1 mem
                rintro (rfl | rfl | rfl | rfl) <;> rcases kind with other | other | other <;> cases other
              · rw [failed]
                refine more _ _ (fun event keeps => keeps.invalidate consumers) (fun event mem => ?_)
                  (fun _ _ mem => by simp at mem)
                obtain rfl := List.mem_singleton.1 mem
                exact fun _ => rfl
              · rw [passed]
                have none_ : (if b.seconds ≠ none ∨ b.end_ ≠ none then [Event.marked b] else []) = [] := by
                  rw [plain, plain']
                  rfl
                dsimp only
                rw [none_]
                exact more [] _ (fun _ => id) (fun _ mem => nomatch mem) (fun _ _ mem => nomatch mem)
              · rw [marked]
                dsimp only
                rw [if_pos bounded]
                refine more _ _ (fun event keeps => keeps.marked b) (fun event mem => ?_) (fun _ _ mem => by simp at mem)
                obtain rfl := List.mem_singleton.1 mem
                exact ⟨_, Table.row_put_self _ _ _⟩
  | enter =>
      refine .plain (fun event keeps => ?_) (fun _ mem => nomatch mem) (fun _ _ mem => nomatch mem)
      cases event <;> exact keeps
  | leave =>
      refine .plain (fun event keeps => ?_) (fun _ mem => nomatch mem) (fun _ _ mem => nomatch mem)
      show Keeps (leave c) event
      unfold leave
      split
      · exact keeps
      · cases event <;> exact keeps

theorem history_allows {c : Clock} (sound : Sound timestamp domain c) {ops : List Op} {before after : List Event}
    {at_ ns : Int} (run : history timestamp domain c ops = before ++ .read at_ ns :: after) :
    ∀ event, (Keeps c event ∨ event ∈ before) → Allows timestamp domain at_ ns event := by
  induction ops generalizing c before with
  | nil => simp [history] at run
  | cons op rest ih =>
      rw [history] at run
      have one := step_keeps sound op
      have sound' := sound_step sound op
      rcases List.append_eq_append_iff.1 run with ⟨back, split, run'⟩ | ⟨back, split, run'⟩
      · intro event known
        refine ih sound' run' event ?_
        rcases known with keeps | mem
        · exact .inl (one.old event keeps)
        · rw [split] at mem
          rcases List.mem_append.1 mem with own | later
          · exact .inl (one.kept event own)
          · exact .inr later
      · cases back with
        | nil =>
            rw [List.append_nil] at split
            intro event known
            have front : history timestamp domain (step timestamp domain c op) rest = [] ++ .read at_ ns :: after := run'.symm
            refine ih sound' front event ?_
            rcases known with keeps | mem
            · exact .inl (one.old event keeps)
            · rw [← split] at mem
              exact .inl (one.kept event mem)
        | cons event' back =>
            obtain ⟨rfl, run'⟩ := List.cons.inj run'
            obtain ⟨rfl, allows⟩ := one.first before at_ ns back split
            rintro event (keeps | mem)
            · exact allows event keeps
            · cases mem

/-- **No reading reaches past a deadline.**  In every run of a clock a reading that succeeds is
not before an earlier one on either clock, lies in every window registered before it, is not
before a registered mark and within its bounds, to the nanosecond, and comes after no failure
by regression, anomaly or expiry. -/
theorem readings_within_deadlines (db : Store) (ops : List Op) (before after : List Event) (at_ ns : Int)
    (run : history timestamp domain (.new db) ops = before ++ .read at_ ns :: after) :
    (∀ at' ns', .read at' ns' ∈ before → at' ≤ at_ ∧ ns' ≤ ns) ∧
    (∀ start end_, .watched start end_ ∈ before → start ≤ at_ ∧ at_ < end_) ∧
    (∀ b, .marked b ∈ before → ∃ start mark, Fresh timestamp domain at_ ns b start mark) ∧
    ∀ e, .failed e ∈ before → ¬ Poisons e := by
  have allows := history_allows (sound_new db) run
  exact ⟨fun _ _ mem => allows _ (.inr mem), fun _ _ mem => allows _ (.inr mem), fun _ mem => allows _ (.inr mem),
    fun _ mem => allows _ (.inr mem)⟩

end Runs

section Pole

private def written : Str := "0001-01-01T00:00:00.000005Z".toList

private def markedTime (s : Str) : Option Int := if s = written then some 5 else none

private def boot : Str := "boot".toList

/-- A mark that may be four microseconds old: to the instant 9, and to 7000 nanoseconds. -/
private def fewMicroseconds : Boundary := ⟨⟨written, some 3000, boot⟩, some 1, some 9⟩

private def operations : List Op :=
  [.read ⟨some 5, some 7⟩, .watch 0 10, .read ⟨none, some 8⟩, .mark ⟨some 6, some 4000⟩ fewMicroseconds,
    .read ⟨some 7, some 4500⟩, .read ⟨some 8, some 7000⟩, .read ⟨some 8, some 7001⟩]

private def earlier : List Event :=
  [.read 5 7, .watched 0 10, .failed .invalidClock, .read 6 4000, .marked fewMicroseconds]

/-- A reading in a window and within the bounds of a mark, behind one of a clock that was no
`datetime`; the next is past the mark on the monotonic clock alone, and none succeeds behind it. -/
theorem readings_within_deadlines_mark :
    history markedTime boot (.new .empty) operations =
      earlier ++ .read 7 4500 :: [.failed .verificationExpired, .failed .invalidated] ∧
    (∀ at' ns', .read at' ns' ∈ earlier → at' ≤ 7 ∧ ns' ≤ 4500) ∧
    (∀ start end_, .watched start end_ ∈ earlier → start ≤ 7 ∧ 7 < end_) ∧
    (∀ b, .marked b ∈ earlier → ∃ start mark, Fresh markedTime boot 7 4500 b start mark) ∧
    ∀ e, .failed e ∈ earlier → ¬ Poisons e :=
  ⟨rfl, readings_within_deadlines .empty operations earlier
    [.failed .verificationExpired, .failed .invalidated] 7 4500 rfl⟩

end Pole

end ApiSecurityPlatform.Research.VerificationClock
