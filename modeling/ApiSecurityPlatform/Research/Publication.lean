/-
# Research.Publication -- a publication holds up to its deadline

`_publication` asks of a version, at an instant, that its last event publishes it, that this
event and the ones it relies on are in their windows, and that its validation is.  Each of these
lapses once (`Theory.Window`), so the answer does: it is the same up to the deadline that comes
with it and none from then on (`publication_lapses`).  A version that was ever withdrawn or
disabled has no publication at any time (`publication_closed`).
-/
import ApiSecurityPlatform.Research.Lineage
import ApiSecurityPlatform.Theory.Window

namespace ApiSecurityPlatform.Research.Knowledge

open ApiSecurityPlatform.Theory
open ApiSecurityPlatform.Python (Str)

set_option autoImplicit false

theorem window_iff {body : EventBody} {now : Time} : body.window now = true ↔
    ∃ validFrom validUntil, body.validFrom = some validFrom ∧ body.validUntil = some validUntil ∧ validFrom ≤ now ∧
      now < validUntil := by
  unfold EventBody.window
  cases body.validFrom <;> cases body.validUntil <;> simp

/-- A window that is open closes once. -/
theorem window_later {body : EventBody} {now until_ t : Time} (ends : body.validUntil = some until_)
    (open_ : body.window now = true) (later : now ≤ t) : body.window t = true ↔ t < until_ := by
  obtain ⟨validFrom, validUntil, begins, ends', started, -⟩ := window_iff.1 open_
  obtain rfl := Option.some.inj (ends.symm.trans ends')
  rw [window_iff]
  constructor
  · rintro ⟨_, _, -, ends'', -, before⟩
    obtain rfl := Option.some.inj (ends.symm.trans ends'')
    exact before
  · exact fun before => ⟨validFrom, until_, begins, ends, Int.le_trans started later, before⟩

theorem window_past {body : EventBody} {until_ t : Time} (ends : body.validUntil = some until_) (past : until_ ≤ t) :
    body.window t = false := by
  rw [Bool.eq_false_iff, ne_eq, window_iff]
  rintro ⟨_, _, -, ends', -, before⟩
  obtain rfl := Option.some.inj (ends.symm.trans ends')
  exact absurd before (not_lt.2 past)

theorem inOrder_later {row : Row} {now t previous : Time} {events : List Event}
    (ordered : inOrder row now previous events = true) (later : now ≤ t) : inOrder row t previous events = true := by
  induction events generalizing previous with
  | nil => rfl
  | cons event rest ih =>
      simp only [inOrder, Bool.and_eq_true, decide_eq_true_eq] at ordered ⊢
      exact ⟨⟨ordered.1.1, Int.le_trans ordered.1.2 later⟩, ih ordered.2⟩

theorem guard_lapses {p : Time → Prop} [DecidablePred p] {now until_ : Time} (holds : ∀ t, now ≤ t → t < until_ → p t)
    (lapsed : ∀ t, until_ ≤ t → ¬ p t) : Lapses (fun t => (guard (p t) : Option Unit)) now () until_ :=
  .of_window (fun t later before => if_pos (holds t later before)) fun t past => if_neg (lapsed t past)

section Reads

variable (C : Codec)

theorem toOption_some {ε α : Type} {x : Except ε α} {a : α} : x.toOption = some a ↔ x = .ok a := by
  cases x <;> simp [Except.toOption]

/-- What `qualified` asks of the evidence at any time. -/
theorem qualified_ok {row : Row} {mark : ValidationMark} {now t : Time} {passed : Bool} {evidence : Validation}
    (held : qualified C row mark now passed = .ok evidence) :
    (evidence.recordedAt ≤ now ∧ now < evidence.validUntil) ∧
      (evidence.recordedAt ≤ t → t < evidence.validUntil → qualified C row mark t passed = .ok evidence) ∧
      ∀ other, qualified C row mark t passed = .ok other → t < evidence.validUntil := by
  cases mark with
  | notRun => cases held
  | syntheticTestOnly => cases held
  | exact reference =>
      rw [qualified, bind_ok] at held
      obtain ⟨found, search, held⟩ := held
      rw [seq_ok, refuse_ok, not_not, bind_ok] at held
      obtain ⟨within, content, read, held⟩ := held
      rw [bind_ok] at held
      obtain ⟨report, ran, held⟩ := held
      rw [seq_ok] at held
      obtain ⟨passes, held⟩ := held
      obtain rfl := Except.ok.inj held
      refine ⟨within, fun started open_ => ?_, fun other held' => ?_⟩
      · rw [qualified, bind_ok]
        refine ⟨_, search, ?_⟩
        rw [seq_ok, refuse_ok, not_not, bind_ok]
        refine ⟨⟨started, open_⟩, content, read, ?_⟩
        rw [bind_ok]
        refine ⟨report, ran, ?_⟩
        rw [seq_ok]
        exact ⟨passes, rfl⟩
      · rw [qualified, bind_ok] at held'
        obtain ⟨found', search', held'⟩ := held'
        obtain rfl := Except.ok.inj (search.symm.trans search')
        rw [seq_ok, refuse_ok, not_not] at held'
        exact held'.1.2

/-- The validation of an event holds for its own window. -/
theorem qualified_lapses {row : Row} {mark : ValidationMark} {now : Time} {passed : Bool} {evidence : Validation}
    (held : (qualified C row mark now passed).toOption = some evidence) :
    Lapses (fun t => (qualified C row mark t passed).toOption) now evidence evidence.validUntil := by
  have done := toOption_some.1 held
  refine .of_window (fun t later before => ?_) fun t past => ?_
  · obtain ⟨⟨recorded, -⟩, again, -⟩ := qualified_ok C (t := t) done
    exact toOption_some.2 (again (Int.le_trans recorded later) before)
  · cases again : (qualified C row mark t passed).toOption with
    | none => rfl
    | some other =>
        obtain ⟨-, -, open_⟩ := qualified_ok C (t := t) done
        exact absurd (open_ other (toOption_some.1 again)) (not_lt.2 past)

/-- An earlier event holds for its own window. -/
theorem supporting_lapses {events : List Event} {published : Event} {synthetic : Bool} {now : Time} {action : Action}
    {reference : Option Nat} {event : Event} (held : supporting events published synthetic now action reference = some event) :
    ∃ until_, event.body.validUntil = some until_ ∧
      Lapses (fun t => supporting events published synthetic t action reference) now event until_ := by
  unfold supporting at held
  simp only [Option.bind_eq_bind, Option.bind_eq_some_iff, Option.guard_eq_some', Option.pure_def, Option.some.injEq] at held
  obtain ⟨number, named, found, search, _, ⟨kind, earlier, open_⟩, _, trusted, rfl⟩ := held
  obtain ⟨validFrom, until_, -, ends, -, -⟩ := window_iff.1 open_
  refine ⟨until_, ends, ?_⟩
  unfold supporting
  have step : Lapses (fun t => (guard (found.action = action ∧ found.sequence < published.sequence ∧
      found.body.window t = true) : Option Unit)) now () until_ :=
    guard_lapses (fun t later before => ⟨kind, earlier, (window_later ends open_ later).2 before⟩) fun t past all => by
      rw [window_past ends past] at all
      cases all.2.2
  refine .cast (min_eq_right le_top) (.bind (.of_always fun t _ => named) (.cast (min_eq_right le_top)
    (.bind (.of_always fun t _ => search) (.cast (min_eq_left le_top) (.bind step ?_)))))
  exact .cast (min_eq_right le_top) (.bind (.of_always fun t _ => if_pos trusted) (.const _ _))

/-- A lapsing step after one that is settled. -/
theorem lapses_after {α β : Type} {x : Option α} {f : Time → α → Option β} {now : Time} {a : α} {b : β} {d : WithTop Time}
    (settled : x = some a) (next : Lapses (fun t => f t a) now b d) : Lapses (fun t => x.bind (f t)) now b d :=
  .cast (min_eq_right le_top) (.bind (.of_always fun _ _ => settled) next)

/-- The published event, where the history is in order and open. -/
def publishedEvent (row : Row) (now : Time) : Option Event := do
  let events := readEvents row.version
  guard (events ≠ [] ∧ events.length ≤ maxEvents ∧ events.map Event.sequence = List.range' 1 events.length)
  guard (inOrder row now row.version.recordedAt events)
  guard (¬ events.any fun e => e.action = .withdraw ∨ e.action = .disable)
  let published ← events.getLast?
  guard (published.action = .publish ∧ published.body.window now)
  return published

def Event.synthetic (event : Event) : Bool :=
  event.body.evidence = .syntheticTestOnly ∧ event.body.validationRef = .syntheticTestOnly

/-- The deadline of the validation of an operator's event. -/
def provenUntil (row : Row) (published : Event) (now : Time) : Option (List Time) :=
  if published.body.evidence = .syntheticTestOnly ∧ published.body.validationRef = .syntheticTestOnly then some []
  else do
    guard (published.body.evidence = .operatorRecorded ∧ published.body.actor = .localOperator)
    let evidence ← (qualified C row published.body.validationRef now true).toOption
    return [evidence.validUntil]

/-- The deadline of the reuse event, where one is asked for. -/
def reusedUntil (row : Row) (published : Event) (now : Time) : Option (List Time) :=
  if row.key.scope = .project ∧ published.body.reuseEvent = none then some []
  else do
    let reuse ← supporting (readEvents row.version) published published.synthetic now .reuse published.body.reuseEvent
    let until_ ← reuse.body.validUntil
    return [until_]

/-- `publication` in its parts. -/
theorem publication_eq (row : Row) (now : Time) : publication C row now =
    (publishedEvent row now).bind fun published => published.body.validUntil.bind fun validUntil =>
      (provenUntil C row published now).bind fun proven =>
        (supporting (readEvents row.version) published published.synthetic now .review published.body.reviewEvent).bind
          fun review => review.body.validUntil.bind fun reviewUntil => (reusedUntil row published now).bind fun reused =>
            some ⟨published, (proven ++ reviewUntil :: reused).foldl min validUntil, review.body.actor⟩ := by
  simp only [publication, publishedEvent, Option.bind_eq_bind, Option.pure_def, Option.bind_assoc, Option.bind_some,
    Event.synthetic]
  refine Option.bind_congr fun _ _ => Option.bind_congr fun _ _ => Option.bind_congr fun _ _ =>
    Option.bind_congr fun published _ => Option.bind_congr fun _ _ => Option.bind_congr fun validUntil _ => ?_
  by_cases synthetic : published.body.evidence = .syntheticTestOnly ∧ published.body.validationRef = .syntheticTestOnly <;>
    by_cases plain : row.key.scope = .project ∧ published.body.reuseEvent = none <;>
    simp only [provenUntil, reusedUntil, synthetic, plain, Event.synthetic, if_pos, if_false, Option.bind_eq_bind,
      Option.pure_def, Option.bind_assoc, Option.bind_some, List.nil_append, List.singleton_append, and_self, decide_true]

theorem publishedEvent_iff {row : Row} {now : Time} {published : Event} : publishedEvent row now = some published ↔
    ((readEvents row.version ≠ [] ∧ (readEvents row.version).length ≤ maxEvents ∧
      (readEvents row.version).map Event.sequence = List.range' 1 (readEvents row.version).length) ∧
      inOrder row now row.version.recordedAt (readEvents row.version) = true ∧
      ¬ ((readEvents row.version).any fun e => e.action = .withdraw ∨ e.action = .disable) = true) ∧
      (readEvents row.version).getLast? = some published ∧ published.action = .publish ∧
      published.body.window now = true := by
  simp only [publishedEvent, Option.bind_eq_bind, Option.bind_eq_some_iff, Option.guard_eq_some', Option.pure_def,
    Option.some.injEq]
  constructor
  · rintro ⟨_, whole, _, ordered, _, opened, _, last, _, published, rfl⟩
    exact ⟨⟨whole, ordered, opened⟩, last, published⟩
  · rintro ⟨⟨whole, ordered, opened⟩, last, published⟩
    exact ⟨(), whole, (), ordered, (), opened, _, last, (), published, rfl⟩

theorem publishedEvent_lapses {row : Row} {now until_ : Time} {published : Event}
    (held : publishedEvent row now = some published) (ends : published.body.validUntil = some until_) :
    Lapses (publishedEvent row) now published until_ := by
  obtain ⟨⟨whole, ordered, opened⟩, last, kind, open_⟩ := publishedEvent_iff.1 held
  refine .of_window (fun t later before => ?_) fun t past => ?_
  · exact publishedEvent_iff.2
      ⟨⟨whole, inOrder_later ordered later, opened⟩, last, kind, (window_later ends open_ later).2 before⟩
  · rw [Option.eq_none_iff_forall_ne_some]
    intro other held'
    obtain ⟨-, last', -, open'⟩ := publishedEvent_iff.1 held'
    obtain rfl := Option.some.inj (last.symm.trans last')
    rw [window_past ends past] at open'
    cases open'

theorem provenUntil_lapses {row : Row} {published : Event} {now : Time} {proven : List Time}
    (held : provenUntil C row published now = some proven) :
    Lapses (provenUntil C row published) now proven (first proven) := by
  unfold provenUntil at held ⊢
  split at held
  next synthetic =>
      obtain rfl := Option.some.inj held
      simp only [if_pos synthetic]
      exact .const now []
  next synthetic =>
      simp only [if_neg synthetic, Option.bind_eq_bind, Option.bind_eq_some_iff, Option.guard_eq_some', Option.pure_def,
        Option.some.injEq] at held ⊢
      obtain ⟨_, trusted, evidence, qualified, rfl⟩ := held
      exact lapses_after (if_pos trusted) (.bind (qualified_lapses C qualified) (.const _ _))

theorem reusedUntil_lapses {row : Row} {published : Event} {now : Time} {reused : List Time}
    (held : reusedUntil row published now = some reused) :
    Lapses (reusedUntil row published) now reused (first reused) := by
  unfold reusedUntil at held ⊢
  split at held
  next plain =>
      obtain rfl := Option.some.inj held
      simp only [if_pos plain]
      exact .const now []
  next plain =>
      simp only [if_neg plain, Option.bind_eq_bind, Option.bind_eq_some_iff, Option.pure_def, Option.some.injEq] at held ⊢
      obtain ⟨reuse, found, until_, ends, rfl⟩ := held
      obtain ⟨_, ends', lapses⟩ := supporting_lapses found
      obtain rfl := Option.some.inj (ends.symm.trans ends')
      exact .bind lapses (.cast (min_eq_right le_top) (lapses_after ends (.const _ _)))

/-- **The answer lapses at its deadline.** -/
theorem publication_lapses {row : Row} {now : Time} {held : Publication} (done : publication C row now = some held) :
    Lapses (publication C row) now held held.deadline := by
  have same : publication C row = fun t => _ := funext (publication_eq C row)
  rw [publication_eq] at done
  rw [same]
  simp only [Option.bind_eq_some_iff, Option.some.injEq] at done
  obtain ⟨published, last, validUntil, ends, proven, qualified, review, reviewed, reviewUntil, reviewEnds, reused, reuse,
    rfl⟩ := done
  obtain ⟨_, reviewEnds', reviewLapses⟩ := supporting_lapses reviewed
  obtain rfl := Option.some.inj (reviewEnds.symm.trans reviewEnds')
  refine .cast ?_ (.bind (publishedEvent_lapses last ends) (lapses_after ends (.bind (provenUntil_lapses C qualified)
    (.bind reviewLapses (lapses_after reviewEnds (.bind (reusedUntil_lapses reuse) (.const now _)))))))
  rw [foldl_min_eq_first, first_append, first, min_eq_left (le_top (a := first reused))]

/-- A read within the limit is all of the events. -/
theorem readEvents_whole {version : Version} (few : (readEvents version).length ≤ maxEvents) :
    version.events.length ≤ maxEvents := by
  rw [readEvents_length] at few
  omega

theorem of_mem_readEvents {version : Version} {event : Event} (mem : event ∈ readEvents version) : event ∈ version.events :=
  (List.mem_insertionSort _).1 (List.mem_of_mem_take mem)

/-- A version that was withdrawn or disabled has no publication. -/
theorem publication_closed {row : Row} {event : Event} (mem : event ∈ row.version.events)
    (closes : event.action = .withdraw ∨ event.action = .disable) (now : Time) : publication C row now = none := by
  have shut : publishedEvent row now = none := by
    rw [Option.eq_none_iff_forall_ne_some]
    intro published held
    obtain ⟨⟨⟨-, few, -⟩, -, opened⟩, -⟩ := publishedEvent_iff.1 held
    exact opened (List.any_eq_true.2 ⟨event, mem_readEvents (readEvents_whole few) mem, decide_eq_true closes⟩)
  rw [publication_eq, shut, Option.bind_none]

/-- An event of the version before the published one, of the given kind and in its window, that
is as trusted as the published one: with operator evidence, a review is of the same validation. -/
def RestsOn (row : Row) (published : Event) (now : Time) (action : Action) (reference : Option Nat) : Prop :=
  ∃ event ∈ row.version.events, reference = some event.sequence ∧ event.action = action ∧
    event.sequence < published.sequence ∧ event.body.window now = true ∧
    (published.body.evidence = .operatorRecorded → event.body.evidence = .operatorRecorded ∧
      event.body.actor = .localOperator ∧ (action = .review → event.body.validationRef = published.body.validationRef))

theorem supporting_rests {row : Row} {published event : Event} {now : Time} {action : Action} {reference : Option Nat}
    (held : supporting (readEvents row.version) published published.synthetic now action reference = some event) :
    RestsOn row published now action reference := by
  unfold supporting at held
  simp only [Option.bind_eq_bind, Option.bind_eq_some_iff, Option.guard_eq_some', Option.pure_def, Option.some.injEq] at held
  obtain ⟨number, rfl, found, search, _, ⟨kind, earlier, open_⟩, _, trusted, rfl⟩ := held
  have numbered : found.sequence = number := by simpa using List.find?_some search
  refine ⟨found, of_mem_readEvents (List.mem_of_find?_eq_some search), by rw [numbered], kind, earlier, open_, ?_⟩
  intro operator
  refine trusted.resolve_left fun synthetic => ?_
  rw [Event.synthetic, decide_eq_true_eq, operator] at synthetic
  cases synthetic.1

/-- The last event in the order of the numbers has the greatest. -/
theorem last_greatest {row : Row} {published : Event} (few : (readEvents row.version).length ≤ maxEvents)
    (numbered : (readEvents row.version).map Event.sequence = List.range' 1 (readEvents row.version).length)
    (last : (readEvents row.version).getLast? = some published) :
    published ∈ row.version.events ∧ published.sequence = row.version.events.length ∧
      ∀ event ∈ row.version.events, event.sequence ≤ published.sequence := by
  have whole : (readEvents row.version).length = row.version.events.length := by
    rw [readEvents_length]
    exact min_eq_right (Nat.le_succ_of_le (readEvents_whole few))
  have greatest : published.sequence = row.version.events.length := by
    have ends := congrArg List.getLast? numbered
    rw [List.getLast?_map, last, List.getLast?_range', whole] at ends
    split at ends
    · cases ends
    · have := Option.some.inj ends
      omega
  refine ⟨of_mem_readEvents (List.mem_of_getLast? last), greatest, fun event mem => ?_⟩
  have mapped := List.mem_map_of_mem (f := Event.sequence) (mem_readEvents (readEvents_whole few) mem)
  rw [numbered, List.mem_range'_1, whole] at mapped
  omega

/-- **A publication is one interval of time**: what is published at an instant is so up to its
deadline and never again, it is the last event and rests on earlier ones, and a version with a
withdraw or disable event is never published. -/
theorem publication_one_interval (row : Row) :
    (∀ now held, publication C row now = some held →
      (now < held.deadline ∧ (∀ t, now ≤ t → t < held.deadline → publication C row t = some held) ∧
        ∀ t, held.deadline ≤ t → publication C row t = none) ∧
      (held.event ∈ row.version.events ∧ held.event.action = .publish ∧ held.event.body.window now = true ∧
        ∀ event ∈ row.version.events, event.sequence ≤ held.event.sequence) ∧
      RestsOn row held.event now .review held.event.body.reviewEvent ∧
      (row.key.scope = .reusableSynthetic → RestsOn row held.event now .reuse held.event.body.reuseEvent)) ∧
    ((∃ event ∈ row.version.events, event.action = .withdraw ∨ event.action = .disable) →
      ∀ now, publication C row now = none) := by
  refine ⟨fun now held done => ?_, fun ⟨event, mem, closes⟩ => publication_closed C mem closes⟩
  have lapses := publication_lapses C done
  have before := WithTop.coe_lt_coe.1 (lapses.start_lt done)
  refine ⟨⟨before, fun t later early => lapses.holds t later (WithTop.coe_lt_coe.2 early),
    fun t past => lapses.lapsed t (le_trans before.le past) (WithTop.coe_le_coe.2 past)⟩, ?_⟩
  rw [publication_eq] at done
  simp only [Option.bind_eq_some_iff, Option.some.injEq] at done
  obtain ⟨published, held, _, -, _, -, review, reviewed, _, -, reused, reuse, rfl⟩ := done
  obtain ⟨⟨⟨-, few, numbered⟩, -⟩, last, kind, open_⟩ := publishedEvent_iff.1 held
  obtain ⟨mem, -, greatest⟩ := last_greatest few numbered last
  refine ⟨⟨mem, kind, open_, greatest⟩, supporting_rests reviewed, fun shared => ?_⟩
  have asked : ¬ (row.key.scope = .project ∧ published.body.reuseEvent = none) := by
    rw [shared]
    rintro ⟨plain, -⟩
    cases plain
  rw [reusedUntil, if_neg asked] at reuse
  simp only [Option.bind_eq_bind, Option.bind_eq_some_iff] at reuse
  obtain ⟨event, found, -⟩ := reuse
  exact supporting_rests found

end Reads

/-! ## A reuse event of no validation -/

/-- What `RestsOn` asks, with the validation of the published event asked of an event of any kind. -/
def RestsOnValidation (row : Row) (published : Event) (now : Time) (action : Action) (reference : Option Nat) : Prop :=
  ∃ event ∈ row.version.events, reference = some event.sequence ∧ event.action = action ∧
    event.sequence < published.sequence ∧ event.body.window now = true ∧
    (published.body.evidence = .operatorRecorded → event.body.evidence = .operatorRecorded ∧
      event.body.actor = .localOperator ∧ event.body.validationRef = published.body.validationRef)

private def sharedContent : Content := { sampleCard with scope := .reusableSynthetic, bounds := by decide, coherent := by decide }

private def sharedValidation : ValidationRef := ⟨1, List.replicate 64 'c'⟩

private def decision (sequence : Nat) (action : Action) (validUntil : Time) (reviewEvent reuseEvent : Option Nat)
    (validationRef : ValidationMark) : Event :=
  ⟨sequence, action, ⟨List.replicate 64 'a', .localOperator, .operatorRecorded, ⟨1, 1⟩, 1, some 0, some validUntil, reviewEvent,
    reuseEvent, validationRef⟩, sequence⟩

/-- A shared rule an operator validated, reviewed, let be reused without naming the validation, and
published. -/
private def sharedRow : Row where
  key := ⟨1, .reusableSynthetic, "knowledge-1".toList, 1⟩
  version :=
    { contextVersion := 1, targetId := 1, content := some sharedContent, digest := List.replicate 64 'a', recordedAt := 0,
      validations := [⟨1, ⟨⟨.reusableSynthetic, "knowledge-1".toList, 1, List.replicate 64 'a'⟩, 0, 15, ⟨true, []⟩⟩,
        List.replicate 64 'c', 0, 15⟩],
      feedback := [],
      events := [
        decision 1 .review 30 none none (.exact sharedValidation),
        decision 2 .reuse 10 none none .notRun,
        decision 3 .publish 20 (some 1) (some 2) (.exact sharedValidation)] }

private theorem sharedRow_published :
    (publication sampleCodec sharedRow 3).map (fun held => (held.event, held.deadline)) =
      some (decision 3 .publish 20 (some 1) (some 2) (.exact sharedValidation), 10) := by
  decide +kernel

theorem publication_one_interval_reused :
    (publication sampleCodec sharedRow 3).isSome = true ∧
    publication sampleCodec sharedRow 9 = publication sampleCodec sharedRow 3 ∧
    publication sampleCodec sharedRow 10 = none ∧
    RestsOn sharedRow (decision 3 .publish 20 (some 1) (some 2) (.exact sharedValidation)) 3 .review (some 1) ∧
    RestsOn sharedRow (decision 3 .publish 20 (some 1) (some 2) (.exact sharedValidation)) 3 .reuse (some 2) := by
  obtain ⟨held, done, same⟩ := Option.map_eq_some_iff.1 sharedRow_published
  obtain ⟨event, deadline⟩ := Prod.mk.inj same
  obtain ⟨⟨-, holds, lapsed⟩, -, reviewed, reused⟩ := (publication_one_interval sampleCodec sharedRow).1 3 held done
  rw [event] at reviewed reused
  rw [holds 9 (by decide) (by rw [deadline]; decide), lapsed 10 (by rw [deadline]), done]
  exact ⟨rfl, rfl, rfl, reviewed, reused rfl⟩

/-- The reuse event a publication of shared scope relies on need not be of its validation. -/
theorem publication_reuse_unvalidated :
    ∃ held, publication sampleCodec sharedRow 3 = some held ∧ sharedRow.key.scope = .reusableSynthetic ∧
      held.event.body.evidence = .operatorRecorded ∧
      ¬ RestsOnValidation sharedRow held.event 3 .reuse held.event.body.reuseEvent := by
  obtain ⟨held, done, same⟩ := Option.map_eq_some_iff.1 sharedRow_published
  obtain ⟨published, -⟩ := Prod.mk.inj same
  refine ⟨held, done, rfl, by rw [published]; rfl, ?_⟩
  rw [published]
  rintro ⟨event, mem, named, reuse, -, -, trusted⟩
  have other : ∀ event ∈ sharedRow.version.events, event.action = .reuse → event.body.validationRef = .notRun := by decide
  have unvalidated := other event mem reuse
  rw [(trusted rfl).2.2] at unvalidated
  cases unvalidated

end ApiSecurityPlatform.Research.Knowledge
