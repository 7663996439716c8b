/-
# Findings.Evidence -- Findings and their evidence under every interleaving

A statement of a call changes what its session sees in one of three ways (`Step.keys`): not
at all, back to what was there at the savepoint, or by one row whose key nobody held.  So no
key is ever held twice, over the committed tables and all sessions together
(`State.Exclusive`).

A row that a call read back is there to stay, and the values are those of its analysis: when
the call commits, its Finding has its five rows (`Ready`, `Complete`).  Committed rows are
never rewritten (`Tables.Extends`), and a row with the same parent cannot be added.
-/
import ApiSecurityPlatform.Findings.Analysis
import Mathlib.Data.List.Nodup
import Mathlib.Data.List.Perm.Basic

namespace ApiSecurityPlatform.Findings

open ApiSecurityPlatform.Python ApiSecurityPlatform.Theory
open Classification (Analysis asciiBuiltins usualStack analyzeBolaRun_potential)

set_option autoImplicit false

/-! ## Tables -/

/-- What an update leaves alone. -/
def Finding.identity (f : Finding) : Nat × Int × Str × Option Int :=
  (f.id, f.testRunId, f.category, f.baselineTestRunId)

namespace Pending

@[simp]
theorem changed_identity (P : Pending) (f : Finding) : (P.changed f).identity = f.identity := by
  unfold changed
  induction P.changes generalizing f with
  | nil => rfl
  | cons entry rest ih =>
      rw [List.foldl_cons, ih]
      split <;> rfl

@[simp]
theorem changed_empty (f : Finding) : Pending.empty.changed f = f := rfl

end Pending

namespace Tables

variable {T U V : Tables} {P : Pending}

theorem keys_append (T U : Tables) (c : Column) : (T.append U).keys c = T.keys c ++ U.keys c := by
  cases c <;> exact List.map_append

theorem keys_empty (c : Column) : Tables.empty.keys c = [] := by
  cases c <;> rfl

@[simp]
theorem publish_rows (T : Tables) (P : Pending) (k : Kind) :
    (T.publish P).rows k = T.rows k ++ P.inserted.rows k := rfl

theorem publish_identity (T : Tables) (P : Pending) :
    (T.publish P).findings.map Finding.identity = (T.findings ++ P.inserted.findings).map Finding.identity := by
  simp [publish, append, Function.comp_def]

theorem keys_publish (T : Tables) (P : Pending) (c : Column) :
    (T.publish P).keys c = T.keys c ++ P.inserted.keys c := by
  rw [← keys_append]
  cases c with
  | findingId =>
      have same := congrArg (List.map fun i => Key.id i.1) (publish_identity T P)
      simpa [keys, append, Finding.identity, Function.comp_def] using same
  | testRunCategory =>
      have same := congrArg (List.map fun i => Key.pair i.2.1 i.2.2.1) (publish_identity T P)
      simpa [keys, append, Finding.identity, Function.comp_def] using same
  | rowId k => rfl
  | rowParent k => rfl

@[simp]
theorem publish_empty (T : Tables) : T.publish .empty = T := by
  have same : Pending.empty.changed = id := funext fun f => Pending.changed_empty f
  obtain ⟨findings, rows⟩ := T
  rw [publish, same]
  simp [append, Pending.empty, Tables.empty]

/-- Rows are only added, and a Finding keeps its identity. -/
structure Extends (T U : Tables) : Prop where
  findings : T.findings.map Finding.identity <+: U.findings.map Finding.identity
  rows : ∀ k, T.rows k <+: U.rows k

theorem Extends.refl (T : Tables) : T.Extends T := ⟨List.prefix_refl _, fun _ => List.prefix_refl _⟩

theorem Extends.trans (first : T.Extends U) (second : U.Extends V) : T.Extends V :=
  ⟨first.findings.trans second.findings, fun k => (first.rows k).trans (second.rows k)⟩

theorem extends_append (T U : Tables) : T.Extends (T.append U) := by
  refine ⟨?_, fun k => List.prefix_append _ _⟩
  rw [append, List.map_append]
  exact List.prefix_append _ _

theorem extends_publish (T : Tables) (P : Pending) : T.Extends (T.publish P) := by
  refine ⟨?_, fun k => List.prefix_append _ _⟩
  rw [publish_identity, List.map_append]
  exact List.prefix_append _ _

theorem Extends.publish (grown : T.Extends U) (P : Pending) {k : Kind} {row : Row k}
    (found : row ∈ (T.publish P).rows k) : row ∈ (U.publish P).rows k := by
  rw [publish_rows, List.mem_append] at found ⊢
  exact found.imp_left fun old => (grown.rows k).subset old

end Tables

theorem onConflictDoNothing_done {view : Tables} {others : List Pending} {c : Column} {key : Key} :
    onConflictDoNothing view others c key = .done ↔
      key ∉ view.keys c ∧ ∀ P ∈ others, key ∉ P.inserted.keys c := by
  unfold onConflictDoNothing
  split
  · rename_i held
    simp only [List.any_eq_true, decide_eq_true_eq] at held
    obtain ⟨P, member, inside⟩ := held
    simp only [reduceCtorEq, false_iff, not_and]
    exact fun _ free => free P member inside
  · rename_i free
    simp only [List.any_eq_true, decide_eq_true_eq, not_exists, not_and] at free
    split
    · rename_i inside
      simp [inside]
    · rename_i outside
      simp only [true_iff]
      exact ⟨outside, free⟩

/-! ## One call -/

section Service

variable {F : Type} (R : Runtime F)

/-- The checks before the savepoint were passed. -/
def Job.Made (job : Job) : Prop :=
  ∃ pair existing result, Pair.analyze R pair = .ok result ∧ judge pair existing result = .ok (.inr job)

theorem Job.Made.values {job : Job} (made : job.Made R) :
    job.pair.analyze R = .ok job.result ∧ job.result.outcome = .potentialBola ∧
      ∀ k, evidenceValues job.result k = some (job.values k) := by
  obtain ⟨pair, existing, result, analyzed, made⟩ := made
  unfold judge at made
  split at made
  · nomatch made
  rename_i potential
  rw [not_not] at potential
  split at made
  · nomatch made
  rename_i evidence seen
  split at made
  · nomatch made
  split at made
  · nomatch made
  rename_i excerpt excerpted
  split at made
  · nomatch made
  rename_i fingerprint printed
  split at made
  · nomatch made
  rename_i similarity compared
  split at made
  · nomatch made
  have same := Sum.inr.inj (Except.ok.inj made)
  rw [← same]
  refine ⟨analyzed, potential, fun k => ?_⟩
  cases k with
  | record => exact seen
  | excerpt => exact excerpted
  | fingerprint => exact printed
  | similarity => exact compared
  | retention => rfl

/-- The tables written before a table. -/
def Kind.before : Kind → List Kind
  | .record => []
  | .excerpt => [.record]
  | .fingerprint => [.record, .excerpt]
  | .similarity => [.record, .excerpt, .fingerprint]
  | .retention => [.record, .excerpt, .fingerprint, .similarity]

/-- The savepoint block with the rows of `kinds` read back. -/
structure Ready (T : Tables) (P : Pending) (job : Job) (p : Progress) (kinds : List Kind) : Prop where
  made : job.Made R
  finding : ∀ f ∈ P.inserted.findings, f.identity =
    (p.finding.id, job.pair.testRun.id, bola, some job.pair.baselineRun.id)
  stored : ∀ k ∈ kinds, ⟨p.ids k, p.parent k, job.values k⟩ ∈ (T.publish P).rows k

/-- What is pending at each line. -/
def Line.Sound (T : Tables) (P : Pending) : Line → Prop
  | .savepoint job | .insertFinding job | .selectConflict job | .refresh job _ => P = .empty ∧ job.Made R
  | .getFinding job id => job.Made R ∧ P.inserted.findings = [job.finding id]
  | .insert k job p | .select k job p => Ready R T P job p k.before
  | .flush job p | .release job p | .commit job p => Ready R T P job p (.retention :: Kind.before .retention)
  | .returned result finding => P = .empty ∧ (finding.isSome = true → result.outcome = .potentialBola)
  | .selectRecord pair _ result | .selectFingerprint pair _ result _ => P = .empty ∧ pair.analyze R = .ok result
  | .reads _ _ | .selectExisting _ | .raised _ => P = .empty

def Session.Sound (T : Tables) (x : Session) : Prop := x.saved = .empty ∧ x.line.Sound R T x.pending

/-- The commit took effect. -/
def Line.published : Line → Bool
  | .refresh _ _ => true
  | .returned _ finding => finding.isSome
  | .raised error => error = .commitLost ∨ error = .refresh
  | _ => false

/-- What a statement does, for the session and for everyone else. -/
structure Step (T : Tables) (others : List Pending) (x : Session) (U : Tables) (y : Session) : Prop where
  sound : y.Sound R U
  keys : ∀ c, (U.publish y.pending).keys c <+: (T.publish x.pending).keys c ∨
    ∃ key, (U.publish y.pending).keys c = (T.publish x.pending).keys c ++ [key] ∧
      onConflictDoNothing (T.publish x.pending) others c key = .done
  tables : U = T ∨ U = T.publish x.pending ∧ y.line.published = true ∧ ∃ job p, x.line = .commit job p
  published : x.line.published = true → y.line.published = true

variable {R} {T U : Tables} {others : List Pending} {x y : Session}

theorem Step.goto {line : Line} (saved : x.saved = .empty) (sound : line.Sound R T x.pending)
    (published : x.line.published = true → line.published = true) : Step R T others x T (x.goto line) where
  sound := ⟨saved, sound⟩
  keys _ := .inl (List.prefix_refl _)
  tables := .inl rfl
  published := published

theorem Step.raise {error : Error} (saved : x.saved = .empty)
    (published : x.line.published = true → error = .refresh) : Step R T others x T (x.raise error) where
  sound := ⟨saved, saved⟩
  keys c := by
    refine .inl ?_
    rw [Session.raise, saved, Tables.publish_empty, Tables.keys_publish]
    exact List.prefix_append _ _
  tables := .inl rfl
  published done := by simp [Session.raise, Line.published, published done]

theorem Step.proceed {α : Type} {next : α → Line} {outcome : Except Error (Analysis ⊕ α)}
    (saved : x.saved = .empty) (clean : x.pending = .empty) (before : x.line.published = false)
    (sound : ∀ a, outcome = .ok (.inr a) → (next a).Sound R T x.pending) :
    Step R T others x T (x.proceed next outcome) := by
  have open_ : ∀ {p : Prop}, x.line.published = true → p := by
    intro p done
    rw [before] at done
    nomatch done
  match outcome with
  | .error e => exact .raise saved open_
  | .ok (.inl result) => exact .goto saved ⟨clean, fun some_ => nomatch some_⟩ open_
  | .ok (.inr a) => exact .goto saved (sound a rfl) open_

/-- The analyzer raises, or the call goes on from what it returned. -/
theorem Step.analyzed {pair : Pair} {after : Analysis → Session} (saved : x.saved = .empty)
    (before : x.line.published = false)
    (returned : ∀ result, pair.analyze R = .ok result → Step R T others x T (after result)) :
    Step R T others x T (x.analyzed R pair after) := by
  unfold Session.analyzed
  split
  · exact .raise saved fun done => absurd (before.symm.trans done) Bool.false_ne_true
  next result analyzed => exact returned result analyzed

/-- An insert of rows with free keys, at most one in each column. -/
theorem Step.insert {line : Line} {rows : Tables} (saved : x.saved = .empty)
    (before : x.line.published = false) (sound : line.Sound R T (x.pending.insert rows))
    (free : ∀ c, rows.keys c = [] ∨ ∃ key, rows.keys c = [key] ∧
      onConflictDoNothing (T.publish x.pending) others c key = .done) :
    Step R T others x T { x with line := line, pending := x.pending.insert rows } where
  sound := ⟨saved, sound⟩
  keys c := by
    have grown : (T.publish (x.pending.insert rows)).keys c = (T.publish x.pending).keys c ++ rows.keys c := by
      rw [Tables.keys_publish, Tables.keys_publish, Pending.insert, Tables.keys_append, List.append_assoc]
    obtain none_ | ⟨key, one, done⟩ := free c
    · rw [none_, List.append_nil] at grown
      exact .inl (grown ▸ List.prefix_refl _)
    · exact .inr ⟨key, grown.trans (by rw [one]), done⟩
  tables := .inl rfl
  published done := by
    rw [before] at done
    nomatch done

theorem keys_ofFinding {view : Tables} {f : Finding} (c : Column)
    (pair : onConflictDoNothing view others .testRunCategory (.pair f.testRunId f.category) = .done)
    (id : unused view others .findingId f.id = true) :
    (Tables.ofFinding f).keys c = [] ∨ ∃ key, (Tables.ofFinding f).keys c = [key] ∧
      onConflictDoNothing view others c key = .done := by
  cases c with
  | findingId => exact .inr ⟨_, rfl, of_decide_eq_true id⟩
  | testRunCategory => exact .inr ⟨_, rfl, pair⟩
  | rowId k => exact .inl rfl
  | rowParent k => exact .inl rfl

theorem keys_ofRow {view : Tables} {k : Kind} {row : Row k} (c : Column)
    (parent : onConflictDoNothing view others (.rowParent k) (.id row.parent) = .done)
    (id : unused view others (.rowId k) row.id = true) :
    (Tables.ofRow row).keys c = [] ∨ ∃ key, (Tables.ofRow row).keys c = [key] ∧
      onConflictDoNothing view others c key = .done := by
  cases c with
  | findingId => exact .inl rfl
  | testRunCategory => exact .inl rfl
  | rowId j =>
      by_cases same : j = k
      · subst same
        exact .inr ⟨.id row.id, by simp [Tables.ofRow, Tables.keys], of_decide_eq_true id⟩
      · exact .inl (by simp [Tables.ofRow, Tables.keys, same])
  | rowParent j =>
      by_cases same : j = k
      · subst same
        exact .inr ⟨.id row.parent, by simp [Tables.ofRow, Tables.keys], parent⟩
      · exact .inl (by simp [Tables.ofRow, Tables.keys, same])

theorem Step.bind {job : Job} {created : Bool} {finding : Finding} (saved : x.saved = .empty)
    (before : x.line.published = false) (made : job.Made R)
    (own : ∀ f ∈ x.pending.inserted.findings, f = job.finding finding.id) :
    Step R T others x T (x.bind job created finding) := by
  have open_ : ∀ {p : Prop}, x.line.published = true → p := by
    intro p done
    rw [before] at done
    nomatch done
  unfold Session.bind
  split
  · exact .raise saved open_
  · refine .goto saved ⟨made, fun f member => ?_, fun k none_ => nomatch none_⟩ open_
    rw [own f member]
    rfl

/-- A row found with the values of the job is one more row read back. -/
theorem Ready.read {P : Pending} {job : Job} {p : Progress} {k : Kind} {stored : Row k}
    (ready : Ready R T P job p k.before) (found : (T.publish P).child k (p.parent k) = some stored)
    (same : stored.values = job.values k) :
    (k.next job { p with ids := Function.update p.ids k stored.id }).Sound R T P := by
  have parent : stored.parent = p.parent k := by simpa using List.find?_some found
  have member : stored ∈ (T.publish P).rows k := List.mem_of_find?_eq_some found
  have here : (⟨stored.id, p.parent k, job.values k⟩ : Row k) ∈ (T.publish P).rows k := by
    rw [← parent, ← same]
    exact member
  have all : ∀ j ∈ k :: k.before,
      (⟨Function.update p.ids k stored.id j, parentOf p.finding.id (Function.update p.ids k stored.id) j,
        job.values j⟩ : Row j) ∈ (T.publish P).rows j := by
    intro j inside
    rcases List.mem_cons.1 inside with rfl | inside
    · rw [Function.update_self]
      have unchanged : parentOf p.finding.id (Function.update p.ids j stored.id) j = p.parent j := by
        cases j <;> rfl
      rw [unchanged]
      exact here
    · have earlier := ready.stored j inside
      cases k <;> simp [Kind.before] at inside
      all_goals rcases inside with rfl | rfl | rfl | rfl
      all_goals exact earlier
  have kinds : ∀ later : List Kind, (∀ j ∈ later, j ∈ k :: k.before) →
      Ready R T P job { p with ids := Function.update p.ids k stored.id } later :=
    fun later sub => ⟨ready.made, ready.finding, fun j inside => all j (sub j inside)⟩
  cases k with
  | record => exact kinds _ (by decide)
  | excerpt => exact kinds _ (by decide)
  | fingerprint => exact kinds _ (by decide)
  | similarity => exact kinds _ (by decide)
  | retention => exact kinds _ (by decide)

theorem Ready.insert {P : Pending} {job : Job} {p : Progress} {kinds : List Kind} {k : Kind} (row : Row k)
    (ready : Ready R T P job p kinds) : Ready R T (P.insert (.ofRow row)) job p kinds where
  made := ready.made
  finding f member := ready.finding f (by simpa [Pending.insert, Tables.append, Tables.ofRow] using member)
  stored j inside := by
    have earlier := ready.stored j inside
    rw [Tables.publish_rows, List.mem_append] at earlier ⊢
    exact earlier.imp_right fun own => List.mem_append_left _ own

/-- `COMMIT` takes effect. -/
theorem Step.commit {job : Job} {p : Progress} {line : Line} (here : x.line = .commit job p)
    (sound : line.Sound R (T.publish x.pending) .empty) (published : line.published = true) :
    Step R T others x (T.publish x.pending) ⟨line, .empty, .empty⟩ where
  sound := ⟨rfl, sound⟩
  keys c := .inl (by rw [Tables.publish_empty])
  tables := .inr ⟨rfl, published, job, p, here⟩
  published _ := published

/-- A commit that fails rolls the transaction back. -/
theorem Step.failedCommit {job : Job} {p : Progress} (here : x.line = .commit job p) :
    Step R T others x T ⟨.raised .database, .empty, .empty⟩ where
  sound := ⟨rfl, rfl⟩
  keys c := by
    refine .inl ?_
    rw [Tables.publish_empty, Tables.keys_publish]
    exact List.prefix_append _ _
  tables := .inl rfl
  published done := by
    rw [here] at done
    nomatch done

/-- A commit with nothing pending. -/
theorem Step.callerCommit (saved : x.saved = .empty) (clean : x.pending = .empty)
    (sound : x.line.Sound R T .empty) :
    Step R T others x (T.publish x.pending) { x with pending := .empty } where
  sound := by
    rw [clean, Tables.publish_empty]
    exact ⟨saved, sound⟩
  keys c := .inl (by rw [Tables.publish_empty])
  tables := .inl (by rw [clean, Tables.publish_empty])
  published done := done

theorem Step.savepoint {job : Job} (clean : x.pending = .empty) (sound : x.line.Sound R T x.pending)
    (here : x.line = .savepoint job) :
    Step R T others x T { x with line := .insertFinding job, saved := x.pending } where
  sound := by
    rw [here] at sound
    exact ⟨clean, sound⟩
  keys _ := .inl (List.prefix_refl _)
  tables := .inl rfl
  published done := by
    rw [here] at done
    nomatch done

/-- The `UPDATE` of a Finding changes no key. -/
theorem Step.update {job : Job} {p : Progress} {changes : List (Nat × Changes)} (saved : x.saved = .empty)
    (here : x.line = .flush job p) (sound : x.line.Sound R T x.pending) :
    Step R T others x T
      { x with line := .release job p, pending := { x.pending with changes := changes } } where
  sound := by
    rw [here] at sound
    exact ⟨saved, sound.made, sound.finding, sound.stored⟩
  keys c := .inl (by rw [Tables.keys_publish, Tables.keys_publish])
  tables := .inl rfl
  published done := by
    rw [here] at done
    nomatch done

/-- A line before the commit has published nothing. -/
theorem Line.unpublished {line : Line} {p : Prop} (before : line.published = false) (done : line.published = true) : p := by
  rw [before] at done
  nomatch done

section Run

attribute [simp] Session.step

variable {id : Nat} {pending saved : Pending} {job : Job} {p : Progress} {k : Kind}

theorem Session.insertFinding_run (clean : saved = .empty) (sound : Line.Sound R T pending (.insertFinding job))
    (done : Session.step R T others ⟨.insertFinding job, pending, saved⟩ (.run id) = some (U, y)) :
    Step R T others ⟨.insertFinding job, pending, saved⟩ U y := by
  obtain ⟨rfl, made⟩ := sound
  simp only [Session.step] at done
  split at done
  · nomatch done
  · cases done
    exact .goto clean ⟨rfl, made⟩ (Line.unpublished rfl)
  · rename_i pair
    split at done
    · rename_i fresh
      cases done
      exact .insert clean rfl ⟨made, rfl⟩ fun c => keys_ofFinding c pair fresh
    · nomatch done

/-- The row the session has just inserted is its own. -/
theorem Session.getFinding_run {own : Nat} (clean : saved = .empty) (sound : Line.Sound R T pending (.getFinding job own))
    (done : Session.step R T others ⟨.getFinding job own, pending, saved⟩ (.run id) = some (U, y)) :
    Step R T others ⟨.getFinding job own, pending, saved⟩ U y := by
  obtain ⟨made, mine⟩ := sound
  simp only [Session.step] at done
  split at done
  · cases done
    exact .raise clean (Line.unpublished rfl)
  · rename_i finding found
    cases done
    have same : finding.id = own := by simpa using List.find?_some found
    refine .bind clean rfl made fun f member => ?_
    rw [mine, List.mem_singleton] at member
    rw [member, same]

theorem Session.selectConflict_run (clean : saved = .empty) (sound : Line.Sound R T pending (.selectConflict job))
    (done : Session.step R T others ⟨.selectConflict job, pending, saved⟩ (.run id) = some (U, y)) :
    Step R T others ⟨.selectConflict job, pending, saved⟩ U y := by
  obtain ⟨rfl, made⟩ := sound
  simp only [Session.step] at done
  split at done
  · cases done
    exact .raise clean (Line.unpublished rfl)
  · cases done
    exact .bind clean rfl made fun f member => nomatch member

theorem Session.insert_run (clean : saved = .empty) (sound : Line.Sound R T pending (.insert k job p))
    (done : Session.step R T others ⟨.insert k job p, pending, saved⟩ (.run id) = some (U, y)) :
    Step R T others ⟨.insert k job p, pending, saved⟩ U y := by
  simp only [Session.step] at done
  split at done
  · nomatch done
  · cases done
    exact .goto clean sound (Line.unpublished rfl)
  · rename_i parent
    split at done
    · rename_i fresh
      cases done
      exact .insert clean rfl (sound.insert _) fun c => keys_ofRow c parent fresh
    · nomatch done

theorem Session.select_run (clean : saved = .empty) (sound : Line.Sound R T pending (.select k job p))
    (done : Session.step R T others ⟨.select k job p, pending, saved⟩ (.run id) = some (U, y)) :
    Step R T others ⟨.select k job p, pending, saved⟩ U y := by
  simp only [Session.step] at done
  split at done
  · cases done
    exact .raise clean (Line.unpublished rfl)
  · rename_i stored found
    split at done
    · cases done
      exact .raise clean (Line.unpublished rfl)
    · rename_i same
      cases done
      exact .goto clean (sound.read found (not_not.1 same)) (Line.unpublished rfl)

theorem Session.refresh_run (clean : saved = .empty) (sound : Line.Sound R T pending (.refresh job p))
    (done : Session.step R T others ⟨.refresh job p, pending, saved⟩ (.run id) = some (U, y)) :
    Step R T others ⟨.refresh job p, pending, saved⟩ U y := by
  simp only [Session.step] at done
  split at done
  · cases done
    exact .raise clean fun _ => rfl
  · cases done
    obtain ⟨empty_, made⟩ := sound
    obtain ⟨-, potential, -⟩ := made.values
    exact .goto clean ⟨empty_, fun _ => potential⟩ fun _ => rfl

/-- One line of the session, by cases on the line. -/
theorem Session.step_run {line : Line} (clean : saved = .empty) (sound : line.Sound R T pending)
    (done : Session.step R T others ⟨line, pending, saved⟩ (.run id) = some (U, y)) :
    Step R T others ⟨line, pending, saved⟩ U y := by
  cases line with
  | reads testRunId baselineTestRunId => nomatch done
  | selectExisting pair =>
      simp only [Session.step] at done
      split at done
      · cases done
        exact .analyzed clean rfl fun result analyzed =>
          .proceed clean sound rfl fun job made => ⟨sound, pair, none, result, analyzed, made⟩
      · split at done
        · cases done
          exact .raise clean (Line.unpublished rfl)
        · cases done
          exact .analyzed clean rfl fun result analyzed =>
            .goto clean ⟨sound, analyzed⟩ (Line.unpublished rfl)
  | selectRecord pair existing result =>
      simp only [Session.step] at done
      split at done
      · cases done
        exact .proceed clean sound.1 rfl fun job made => ⟨sound.1, pair, some existing, result, sound.2, made⟩
      · cases done
        exact .goto clean sound (Line.unpublished rfl)
  | selectFingerprint pair existing result recordId =>
      simp only [Session.step] at done
      split at done
      · cases done
        exact .proceed clean sound.1 rfl fun job made => ⟨sound.1, pair, some existing, result, sound.2, made⟩
      · split at done
        · cases done
          exact .raise clean (Line.unpublished rfl)
        · cases done
          exact .proceed clean sound.1 rfl fun job made => ⟨sound.1, pair, some existing, result, sound.2, made⟩
  | savepoint job =>
      cases done
      exact .savepoint sound.1 sound rfl
  | insertFinding job => exact insertFinding_run clean sound done
  | getFinding job own => exact getFinding_run clean sound done
  | selectConflict job => exact selectConflict_run clean sound done
  | insert k job p => exact insert_run clean sound done
  | select k job p => exact select_run clean sound done
  | flush job p =>
      simp only [Session.step] at done
      split at done
      · cases done
        exact .goto clean sound (Line.unpublished rfl)
      · split at done
        · nomatch done
        · cases done
          exact .update clean rfl sound
  | release job p =>
      cases done
      exact .goto clean sound (Line.unpublished rfl)
  | commit job p =>
      cases done
      exact .commit rfl ⟨rfl, sound.made⟩ rfl
  | refresh job p => exact refresh_run clean sound done
  | returned analysis finding => nomatch done
  | raised error => nomatch done

end Run

/-- **What one statement of a call does.** -/
theorem Session.step_spec {a : Action} (sound : x.Sound R T) (done : x.step R T others a = some (U, y)) :
    Step R T others x U y := by
  obtain ⟨line, pending, saved⟩ := x
  obtain ⟨clean, lined⟩ := sound
  cases a with
  | run id => exact step_run clean lined done
  | reads r =>
      cases line with
      | reads testRunId baselineTestRunId =>
          simp only [Session.step] at done
          split at done
          · cases done
            exact .proceed clean lined rfl fun pair _ => lined
          · nomatch done
      | _ => nomatch done
  | fail =>
      cases line with
      | commit job p =>
          cases done
          exact .failedCommit rfl
      | refresh job p =>
          cases done
          exact .raise clean fun _ => rfl
      | returned analysis finding => nomatch done
      | raised error => nomatch done
      | _ =>
          cases done
          exact .raise clean fun yes => nomatch yes
  | lose =>
      cases line with
      | commit job p =>
          cases done
          exact .commit rfl rfl rfl
      | _ => nomatch done
  | callerCommit =>
      cases line with
      | returned analysis finding =>
          cases done
          obtain ⟨rfl, potential⟩ := lined
          exact .callerCommit clean rfl ⟨rfl, potential⟩
      | raised error =>
          cases done
          obtain rfl := lined
          exact .callerCommit clean rfl rfl
      | _ => nomatch done

/-! ## All calls -/

theorem Column.mem_all (c : Column) : c ∈ Column.all := by
  rcases c with _ | _ | k | k
  · decide
  · decide
  all_goals cases k <;> decide

variable {s t : State}

/-- What another program inserts. -/
def Event.foreign : Event → Option Tables
  | .insertFinding f => some (.ofFinding f)
  | .insertRow _ row => some (.ofRow row)
  | _ => none

theorem State.step_cases {e : Event} (done : s.step R e = some t) :
    (∃ testRunId baselineTestRunId, e = .begin testRunId baselineTestRunId ∧
      t = { s with sessions := s.sessions ++ [.start testRunId baselineTestRunId] }) ∨
    (∃ i a x U y, e = .call i a ∧ s.sessions[i]? = some x ∧ x.step R s.tables (s.others i) a = some (U, y) ∧
      t = ⟨U, s.sessions.set i y⟩) ∨
    (∃ T, e.foreign = some T ∧ t = { s with tables := s.tables.append T } ∧
      ∀ c, ∀ key ∈ T.keys c, onConflictDoNothing s.tables (s.sessions.map Session.pending) c key = .done) := by
  have inserted : ∀ {T : Tables}, s.insertCommitted T = some t → t = { s with tables := s.tables.append T } ∧
      ∀ c, ∀ key ∈ T.keys c, onConflictDoNothing s.tables (s.sessions.map Session.pending) c key = .done := by
    intro T h
    unfold State.insertCommitted at h
    split at h
    · rename_i free
      exact ⟨(Option.some.inj h).symm, fun c => free c c.mem_all⟩
    · nomatch h
  cases e with
  | begin testRunId baselineTestRunId => exact .inl ⟨_, _, rfl, (Option.some.inj done).symm⟩
  | call i a =>
      obtain ⟨x, found, rest⟩ := Option.bind_eq_some_iff.1 done
      obtain ⟨⟨U, y⟩, stepped, last⟩ := Option.bind_eq_some_iff.1 rest
      exact .inr (.inl ⟨i, a, x, U, y, rfl, found, stepped, (Option.some.inj last).symm⟩)
  | insertFinding f => exact .inr (.inr ⟨_, rfl, inserted done⟩)
  | insertRow k row => exact .inr (.inr ⟨_, rfl, inserted done⟩)

/-- No key is held twice. -/
def State.Exclusive (s : State) : Prop :=
  ∀ c, (s.tables.keys c ++ s.sessions.flatMap (·.pending.inserted.keys c)).Nodup

theorem held_perm {i : Nat} (found : s.sessions[i]? = some x) (c : Column) :
    (s.tables.keys c ++ s.sessions.flatMap (·.pending.inserted.keys c)).Perm
      ((s.tables.publish x.pending).keys c ++ (s.others i).flatMap (·.inserted.keys c)) := by
  obtain ⟨bound, rfl⟩ := List.getElem?_eq_some_iff.1 found
  have perm := (List.getElem_cons_eraseIdx_perm bound).symm.flatMap_right (·.pending.inserted.keys c)
  rw [Tables.keys_publish, List.append_assoc, State.others, List.flatMap_map]
  exact perm.append_left _

theorem State.Exclusive.call {i : Nat} (exclusive : s.Exclusive) (found : s.sessions[i]? = some x)
    (step : Step R s.tables (s.others i) x U y) : State.Exclusive ⟨U, s.sessions.set i y⟩ := by
  intro c
  have before := (held_perm found c).nodup_iff.1 (exclusive c)
  obtain ⟨bound, -⟩ := List.getElem?_eq_some_iff.1 found
  have after : (State.mk U (s.sessions.set i y)).sessions[i]? = some y := List.getElem?_set_self bound
  refine (held_perm after c).nodup_iff.2 ?_
  have same : (State.mk U (s.sessions.set i y)).others i = s.others i := by
    simp only [State.others, List.eraseIdx_set_eq]
  rw [same]
  obtain less | ⟨key, more, done⟩ := step.keys c
  · exact before.sublist (less.sublist.append_right _)
  · obtain ⟨outside, free⟩ := onConflictDoNothing_done.1 done
    show ((U.publish y.pending).keys c ++ (s.others i).flatMap (·.inserted.keys c)).Nodup
    rw [more, List.append_assoc, List.singleton_append]
    refine List.perm_middle.nodup_iff.2 (List.nodup_cons.2 ⟨?_, before⟩)
    rw [List.mem_append, List.mem_flatMap]
    rintro (inside | ⟨P, member, inside⟩)
    · exact outside inside
    · exact free P member inside

theorem State.Exclusive.foreign {T : Tables} (exclusive : s.Exclusive) (single : ∀ c, (T.keys c).length ≤ 1)
    (free : ∀ c, ∀ key ∈ T.keys c,
      onConflictDoNothing s.tables (s.sessions.map Session.pending) c key = .done) :
    State.Exclusive { s with tables := s.tables.append T } := by
  intro c
  have before := exclusive c
  show ((s.tables.append T).keys c ++ s.sessions.flatMap (·.pending.inserted.keys c)).Nodup
  rw [Tables.keys_append]
  match keys : T.keys c with
  | [] => simpa using before
  | [key] =>
      obtain ⟨outside, apart⟩ := onConflictDoNothing_done.1 (free c key (by simp [keys]))
      rw [List.append_assoc, List.singleton_append]
      refine List.perm_middle.nodup_iff.2 (List.nodup_cons.2 ⟨?_, before⟩)
      rw [List.mem_append, List.mem_flatMap]
      rintro (inside | ⟨x, member, inside⟩)
      · exact outside inside
      · exact apart x.pending (List.mem_map_of_mem member) inside
  | _ :: _ :: _ =>
      have one := single c
      simp [keys] at one

theorem Event.foreign_single {e : Event} {T : Tables} (inserts : e.foreign = some T) (c : Column) :
    (T.keys c).length ≤ 1 := by
  cases e with
  | insertFinding f =>
      cases inserts
      cases c <;> simp [Tables.ofFinding, Tables.keys]
  | insertRow k row =>
      cases inserts
      cases c with
      | rowId j => by_cases same : j = k <;> [subst same; skip] <;> simp [Tables.ofRow, Tables.keys, *]
      | rowParent j => by_cases same : j = k <;> [subst same; skip] <;> simp [Tables.ofRow, Tables.keys, *]
      | _ => simp [Tables.ofRow, Tables.keys]
  | _ => nomatch inserts

/-- The Finding has its five rows, those of one analysis of its run and its baseline. -/
def Complete (R : Runtime F) (T : Tables) (f : Finding) : Prop :=
  ∃ pair result ids, Pair.analyze R pair = .ok result ∧ result.outcome = .potentialBola ∧
    pair.testRun.id = f.testRunId ∧ f.baselineTestRunId = some pair.baselineRun.id ∧
    ∀ k, ∃ v, evidenceValues result k = some v ∧ ⟨ids k, parentOf f.id ids k, v⟩ ∈ T.rows k

theorem Complete.mono {f g : Finding} (complete : Complete R T f) (same : g.identity = f.identity)
    (grown : ∀ k, ∀ row ∈ T.rows k, row ∈ U.rows k) : Complete R U g := by
  obtain ⟨pair, result, ids, analyzed, potential, probe, baseline, rows⟩ := complete
  simp only [Finding.identity, Prod.mk.injEq] at same
  obtain ⟨id, run, -, bound⟩ := same
  refine ⟨pair, result, ids, analyzed, potential, by rw [run, probe], by rw [bound, baseline], fun k => ?_⟩
  obtain ⟨v, value, row⟩ := rows k
  exact ⟨v, value, grown k _ (id ▸ row)⟩

theorem Ready.complete {P : Pending} {job : Job} {p : Progress} {f : Finding}
    (ready : Ready R T P job p (.retention :: Kind.before .retention)) (inserted : f ∈ P.inserted.findings) :
    Complete R (T.publish P) f := by
  have same := ready.finding f inserted
  simp only [Finding.identity, Prod.mk.injEq] at same
  obtain ⟨id, run, -, bound⟩ := same
  obtain ⟨analyzed, potential, values⟩ := ready.made.values
  refine ⟨job.pair, job.result, p.ids, analyzed, potential, run.symm, bound, fun k => ⟨_, values k, ?_⟩⟩
  rw [id]
  exact ready.stored k (by cases k <;> decide)

/-- The Findings a trace has other programs insert. -/
def foreignFindings (trace : List Event) : List Nat :=
  trace.filterMap fun
    | .insertFinding f => some f.id
    | _ => none

/-- What holds between statements; `known` are the Findings of others. -/
structure State.Inv (R : Runtime F) (known : List Nat) (s : State) : Prop where
  exclusive : s.Exclusive
  sound : ∀ x ∈ s.sessions, x.Sound R s.tables
  complete : ∀ f ∈ s.tables.findings, f.id ∈ known ∨ Complete R s.tables f

theorem Line.Sound.mono {P : Pending} {line : Line} (sound : line.Sound R T P) (grown : T.Extends U) :
    line.Sound R U P := by
  have ready : ∀ {job : Job} {p : Progress} {kinds : List Kind}, Ready R T P job p kinds → Ready R U P job p kinds :=
    fun h => ⟨h.made, h.finding, fun k inside => grown.publish P (h.stored k inside)⟩
  cases line with
  | insert k job p => exact ready sound
  | select k job p => exact ready sound
  | flush job p => exact ready sound
  | release job p => exact ready sound
  | commit job p => exact ready sound
  | _ => exact sound

theorem Tables.mem_publish {P : Pending} {f : Finding} (inside : f ∈ (T.publish P).findings) :
    ∃ g, f.identity = Finding.identity g ∧ (g ∈ T.findings ∨ g ∈ P.inserted.findings) := by
  obtain ⟨g, member, rfl⟩ := List.mem_map.1 inside
  exact ⟨g, Pending.changed_identity P g, List.mem_append.1 member⟩

theorem State.step_extends {e : Event} {known : List Nat} (inv : s.Inv R known) (done : s.step R e = some t) :
    s.tables.Extends t.tables := by
  obtain ⟨_, _, -, rfl⟩ | ⟨i, a, x, U, y, -, found, stepped, rfl⟩ | ⟨T, -, rfl, -⟩ := State.step_cases done
  · exact .refl _
  · have step := Session.step_spec (inv.sound x (List.mem_of_getElem? found)) stepped
    obtain rfl | ⟨rfl, -⟩ := step.tables
    · exact .refl _
    · exact Tables.extends_publish _ _
  · exact Tables.extends_append _ _

/-- **One step keeps the invariant.** -/
theorem State.Inv.step {e : Event} {known : List Nat} (inv : s.Inv R known) (done : s.step R e = some t) :
    t.Inv R (known ++ foreignFindings [e]) := by
  have grown := State.step_extends inv done
  have old : ∀ f g : Finding, f.identity = g.identity → g ∈ s.tables.findings →
      f.id ∈ known ++ foreignFindings [e] ∨ Complete R t.tables f := by
    intro f g same member
    have id : f.id = g.id := congrArg Prod.fst same
    obtain before | complete := inv.complete g member
    · exact .inl (List.mem_append_left _ (id ▸ before))
    · exact .inr (complete.mono same fun k row inside => (grown.rows k).subset inside)
  obtain ⟨a, b, rfl, rfl⟩ | ⟨i, a, x, U, y, rfl, found, stepped, rfl⟩ | ⟨T, inserts, rfl, free⟩ := State.step_cases done
  · refine ⟨fun c => ?_, fun x member => ?_, fun f inside => old f f rfl inside⟩
    · have none_ : (Session.start a b).pending.inserted.keys c = [] := Tables.keys_empty c
      show (s.tables.keys c ++ (s.sessions ++ [Session.start a b]).flatMap (·.pending.inserted.keys c)).Nodup
      rw [List.flatMap_append, List.flatMap_singleton, none_, List.append_nil]
      exact inv.exclusive c
    · rcases List.mem_append.1 member with before | new
      · exact inv.sound x before
      · rw [List.mem_singleton.1 new]
        exact ⟨rfl, rfl⟩
  · have sound := inv.sound x (List.mem_of_getElem? found)
    have step := Session.step_spec sound stepped
    refine ⟨inv.exclusive.call found step, fun z member => ?_, fun f inside => ?_⟩
    · rcases List.mem_or_eq_of_mem_set member with before | rfl
      · exact ⟨(inv.sound z before).1, (inv.sound z before).2.mono grown⟩
      · exact step.sound
    · obtain rfl | ⟨rfl, -, job, p, here⟩ := step.tables
      · exact old f f rfl inside
      · obtain ⟨g, same, committed | inserted⟩ := Tables.mem_publish inside
        · exact old f g same committed
        · have ready := sound.2
          rw [here] at ready
          exact .inr (((Ready.complete ready inserted)).mono same fun _ _ h => h)
  · refine ⟨inv.exclusive.foreign (Event.foreign_single inserts) free, fun x member => ?_, fun f inside => ?_⟩
    · exact ⟨(inv.sound x member).1, (inv.sound x member).2.mono grown⟩
    · rcases List.mem_append.1 inside with before | new
      · exact old f f rfl before
      · cases e with
        | insertFinding g =>
            cases inserts
            rw [List.mem_singleton.1 new]
            exact .inl (List.mem_append_right _ List.mem_cons_self)
        | insertRow k row =>
            cases inserts
            nomatch new
        | _ => nomatch inserts

/-! ## The evidence of a Finding -/

def Tables.recordsOf (T : Tables) (findingId : Nat) : List (Row .record) :=
  (T.rows .record).filter (·.parent = findingId)

def Tables.fingerprintsOf (T : Tables) (findingId : Nat) : List (Row .fingerprint) :=
  (T.rows .fingerprint).filter (·.parent ∈ (T.recordsOf findingId).map Row.id)

/-- The rows of a table that hang on a Finding. -/
def Tables.evidence (T : Tables) (findingId : Nat) : (k : Kind) → List (Row k)
  | .record => T.recordsOf findingId
  | .excerpt => (T.rows .excerpt).filter (·.parent ∈ (T.recordsOf findingId).map Row.id)
  | .fingerprint => T.fingerprintsOf findingId
  | .similarity => (T.rows .similarity).filter (·.parent ∈ (T.fingerprintsOf findingId).map Row.id)
  | .retention => (T.rows .retention).filter (·.parent ∈ (T.recordsOf findingId).map Row.id)

/-- The Finding has exactly one row in each table: they name its run and its baseline, agree
with each other, and are the evidence of one analysis of these two runs. -/
def Tables.Agrees (R : Runtime F) (T : Tables) (f : Finding) : Prop :=
  ∃ rows : (k : Kind) → Row k, (∀ k, T.evidence f.id k = [rows k]) ∧
    BolaStructuredEvidence.probeTestRunId (rows .record).values = f.testRunId ∧
    f.baselineTestRunId = some (BolaStructuredEvidence.baselineTestRunId (rows .record).values) ∧
    (rows .similarity).values = compareResponseFingerprints (rows .fingerprint).values ∧
    ∃ (pair : Pair) (result : Analysis), pair.analyze R = .ok result ∧ result.outcome = .potentialBola ∧
      pair.testRun.id = f.testRunId ∧ f.baselineTestRunId = some pair.baselineRun.id ∧
      ∀ k, evidenceValues result k = some (rows k).values

theorem filter_parent {k : Kind} {rows : List (Row k)} (unique : (rows.map fun row => Key.id row.parent).Nodup)
    {row : Row k} (member : row ∈ rows) : rows.filter (·.parent = row.parent) = [row] := by
  induction rows with
  | nil => nomatch member
  | cons first rest ih =>
      rw [List.map_cons, List.nodup_cons] at unique
      rcases List.mem_cons.1 member with rfl | later
      · have none_ : rest.filter (·.parent = row.parent) = [] := by
          rw [List.filter_eq_nil_iff]
          intro other inside same
          exact unique.1 (List.mem_map.2 ⟨other, inside, by rw [of_decide_eq_true same]⟩)
        rw [List.filter_cons_of_pos (by simp), none_]
      · have other : ¬ first.parent = row.parent := by
          intro same
          exact unique.1 (List.mem_map.2 ⟨row, later, by rw [same]⟩)
        rw [List.filter_cons_of_neg (by simpa using other), ih unique.2 later]

theorem evidence_eq {id : Nat} {ids : Kind → Nat} {values : (k : Kind) → Values k} (keyed : T.Keyed)
    (rows : ∀ k, ⟨ids k, parentOf id ids k, values k⟩ ∈ T.rows k) (k : Kind) :
    T.evidence id k = [⟨ids k, parentOf id ids k, values k⟩] := by
  have one : ∀ k, (T.rows k).filter (·.parent = parentOf id ids k) = [⟨ids k, parentOf id ids k, values k⟩] :=
    fun k => filter_parent (keyed (.rowParent k)) (rows k)
  have under : ∀ {j : Kind} (k : Kind) (row : Row j), row.id = parentOf id ids k →
      (T.rows k).filter (·.parent ∈ [row].map Row.id) = [⟨ids k, parentOf id ids k, values k⟩] := by
    intro j k row above
    rw [← one k]
    exact List.filter_congr fun other _ => decide_eq_decide.2 (by simp [above])
  have records : T.recordsOf id = [⟨ids .record, id, values .record⟩] := one .record
  have fingerprints : T.fingerprintsOf id = [⟨ids .fingerprint, ids .record, values .fingerprint⟩] := by
    rw [Tables.fingerprintsOf, records]
    exact under .fingerprint _ rfl
  cases k with
  | record => exact records
  | fingerprint => exact fingerprints
  | excerpt =>
      rw [Tables.evidence, records]
      exact under .excerpt _ rfl
  | similarity =>
      rw [Tables.evidence, fingerprints]
      exact under .similarity _ rfl
  | retention =>
      rw [Tables.evidence, records]
      exact under .retention _ rfl

theorem Complete.agrees {f : Finding} (keyed : T.Keyed) (complete : Complete R T f) : T.Agrees R f := by
  obtain ⟨pair, result, ids, analyzed, potential, probe, baseline, rows⟩ := complete
  choose values given stored using rows
  obtain ⟨evidence, seen, printed, compared, first, second⟩ :=
    analyzeBolaRun_potential R.builtins R.interpreter analyzed potential
  have record : values .record = evidence := Option.some.inj ((given .record).symm.trans seen)
  have fingerprint := Option.some.inj ((given .fingerprint).symm.trans printed)
  have similarity := Option.some.inj ((given .similarity).symm.trans compared)
  refine ⟨fun k => ⟨ids k, parentOf f.id ids k, values k⟩, evidence_eq keyed stored, ?_, ?_, ?_,
    pair, result, analyzed, potential, probe, baseline, given⟩
  · exact (congrArg BolaStructuredEvidence.probeTestRunId record).trans (first.trans probe)
  · have same := (congrArg BolaStructuredEvidence.baselineTestRunId record).trans second
    exact baseline.trans (congrArg some same.symm)
  · exact similarity.trans (congrArg compareResponseFingerprints fingerprint.symm)

/-- Rows that are added later hang on another Finding. -/
theorem Complete.evidence_extends {f : Finding} (complete : Complete R T f) (keyed : T.Keyed) (later : U.Keyed)
    (grown : T.Extends U) (k : Kind) : U.evidence f.id k = T.evidence f.id k := by
  obtain ⟨pair, result, ids, -, -, -, -, rows⟩ := complete
  choose values given stored using rows
  rw [evidence_eq keyed stored k, evidence_eq later (fun k => (grown.rows k).subset (stored k)) k]

theorem State.Inv.keyed {known : List Nat} (inv : s.Inv R known) : s.tables.Keyed :=
  fun c => (List.nodup_append.1 (inv.exclusive c)).1

section Runs

variable {s₀ u : State} {trace : List Event} {known : List Nat}

theorem foreignFindings_append (a b : List Event) :
    foreignFindings (a ++ b) = foreignFindings a ++ foreignFindings b := List.filterMap_append

theorem State.Inv.run (inv : s₀.Inv R known) (run : (analysis R).Run s₀ trace s) :
    s.Inv R (known ++ foreignFindings trace) ∧ s₀.tables.Extends s.tables := by
  induction run with
  | refl => exact ⟨by simpa [foreignFindings] using inv, .refl _⟩
  | snoc _ last ih =>
      obtain ⟨before, grown⟩ := ih
      refine ⟨?_, grown.trans (State.step_extends before last)⟩
      rw [foreignFindings_append, ← List.append_assoc]
      exact before.step last

/-- A call whose commit took effect stays so. -/
theorem published_run (inv : s₀.Inv R known) (run : (analysis R).Run s₀ trace s) {i : Nat}
    (found : s₀.sessions[i]? = some x) (published : x.line.published = true) :
    ∃ y, s.sessions[i]? = some y ∧ y.line.published = true := by
  induction run with
  | refl => exact ⟨x, found, published⟩
  | @snoc t u trace e run last ih =>
      obtain ⟨y, there, done⟩ := ih
      have before := (inv.run run).1
      obtain ⟨_, _, -, rfl⟩ | ⟨j, a, z, U, w, -, at_, stepped, rfl⟩ | ⟨T, -, rfl, -⟩ := State.step_cases last
      · exact ⟨y, by rw [List.getElem?_append_left (List.getElem?_eq_some_iff.1 there).1, there], done⟩
      · by_cases same : j = i
        · subst same
          have step := Session.step_spec (before.sound z (List.mem_of_getElem? at_)) stepped
          obtain rfl : y = z := Option.some.inj (there.symm.trans at_)
          exact ⟨w, List.getElem?_set_self (List.getElem?_eq_some_iff.1 at_).1, step.published done⟩
        · exact ⟨y, by rw [← there]; exact List.getElem?_set_ne same, done⟩
      · exact ⟨y, there, done⟩

/-- A call whose commit did not take effect changed nothing. -/
theorem unpublished_unchanged (inv : s₀.Inv R known) (run : (analysis R).Run s₀ trace s) {i : Nat}
    (found : s.sessions[i]? = some x) (open_ : x.line.published = false) :
    (analysis R).Always s₀ trace s fun t e t' => ∀ a, e = .call i a → t'.tables = t.tables := by
  rintro before e after t t' rfl first step rest a rfl
  have here := (inv.run first).1
  obtain ⟨_, _, other, -⟩ | ⟨j, b, z, U, w, same, at_, stepped, rfl⟩ | ⟨T, other, -⟩ := State.step_cases step
  · nomatch other
  · cases same
    have spec := Session.step_spec (here.sound z (List.mem_of_getElem? at_)) stepped
    obtain rfl | ⟨-, published, -⟩ := spec.tables
    · rfl
    · have there : (t.sessions.set i w)[i]? = some w := List.getElem?_set_self (List.getElem?_eq_some_iff.1 at_).1
      obtain ⟨y, found', done⟩ := published_run (here.step step) rest there published
      obtain rfl : x = y := Option.some.inj (found.symm.trans found')
      rw [open_] at done
      nomatch done
  · nomatch other

/-- Neither there at the start nor inserted by another program. -/
def CreatedByService (s₀ : State) (trace : List Event) (f : Finding) : Prop :=
  f.id ∉ s₀.tables.findings.map Finding.id ∧ f.id ∉ foreignFindings trace

/-- The call raised before its commit took effect, or returned another outcome. -/
def Line.leftNothing : Line → Prop
  | .raised error => error ≠ .commitLost ∧ error ≠ .refresh
  | .returned result _ => result.outcome ≠ .potentialBola
  | _ => False

theorem Line.leftNothing.unpublished {line : Line} {P : Pending} (ended : line.leftNothing)
    (sound : line.Sound R T P) : line.published = false := by
  cases line with
  | raised error => simpa [Line.published, Line.leftNothing] using ended
  | returned result finding =>
      by_contra published
      rw [Bool.not_eq_false] at published
      exact ended (sound.2 published)
  | _ => exact ended.elim

theorem start_inv (start : (analysis R).init s₀) : s₀.Inv R (s₀.tables.findings.map Finding.id) := by
  obtain ⟨keyed, none_⟩ := start
  refine ⟨fun c => ?_, fun x member => ?_, fun f member => .inl (List.mem_map_of_mem member)⟩
  · simpa [none_] using keyed c
  · rw [none_] at member
    nomatch member

/-- **Evidence is written once and as a whole.**  Along every run each test run has at most
one BOLA Finding; a Finding the service created has exactly one row in each evidence table,
all of one analysis of its run and its baseline; no Finding changes its baseline later and
none of these rows changes; and a call that raised before its commit took effect, or whose
outcome was another one, changed none of the six tables. -/
theorem finding_evidence (start : (analysis R).init s₀) (run : (analysis R).Run s₀ trace s) :
    (∀ f ∈ s.tables.findings, ∀ g ∈ s.tables.findings, f.category = bola → g.category = bola →
      f.testRunId = g.testRunId → f = g) ∧
    (∀ f ∈ s.tables.findings, CreatedByService s₀ trace f → s.tables.Agrees R f) ∧
    (∀ later u, (analysis R).Run s later u → ∀ f ∈ s.tables.findings,
      (∃ g ∈ u.tables.findings, g.id = f.id ∧ g.baselineTestRunId = f.baselineTestRunId) ∧
      (CreatedByService s₀ trace f → ∀ k, u.tables.evidence f.id k = s.tables.evidence f.id k)) ∧
    (∀ i x, s.sessions[i]? = some x → x.line.leftNothing →
      (analysis R).Always s₀ trace s fun t e t' => ∀ a, e = .call i a → t'.tables = t.tables) := by
  have initial := start_inv start
  obtain ⟨inv, -⟩ := initial.run run
  have whole : ∀ f ∈ s.tables.findings, CreatedByService s₀ trace f → Complete R s.tables f := by
    intro f member created
    obtain known | complete := inv.complete f member
    · rcases List.mem_append.1 known with before | foreign
      · exact absurd before created.1
      · exact absurd foreign created.2
    · exact complete
  refine ⟨fun f hf g hg first second same => ?_, fun f member created => (whole f member created).agrees inv.keyed,
    fun later u rest f member => ?_, fun i x found ended => ?_⟩
  · have unique := inv.keyed .testRunCategory
    refine List.inj_on_of_nodup_map unique hf hg ?_
    rw [first, second, same]
  · obtain ⟨inv', grown⟩ := inv.run rest
    refine ⟨?_, fun created k => (whole f member created).evidence_extends inv.keyed inv'.keyed grown k⟩
    obtain ⟨g, there, same⟩ := List.mem_map.1 (grown.findings.subset (List.mem_map_of_mem member))
    simp only [Finding.identity, Prod.mk.injEq] at same
    exact ⟨g, there, same.1, same.2.2.2⟩
  · exact unpublished_unchanged initial run found
      (ended.unpublished (inv.sound x (List.mem_of_getElem? found)).2)

end Runs

end Service

/-! ## One call, and one whose refresh fails -/

def projectRuntime : Runtime Unit := ⟨asciiBuiltins, usualStack⟩

/-- Both bodies are the same object with the resource's id. -/
def projectReads : Reads where
  testRun := some ⟨2, 4, some 200, some "\x7b\"id\": \"2001\"\x7d".toList, none⟩
  testCase := some ⟨4, 7, 9, 11, bolaCrossOwner⟩
  testCaseMember := false
  endpoint := some ⟨7, 1, "GET".toList, "/projects/1".toList⟩
  resource := some ⟨1, "project".toList, "2001".toList⟩
  baselineRun := some ⟨1, 3, some 200, some "\x7b\"id\": \"2001\"\x7d".toList, none⟩
  baselineCase := some ⟨3, 7, 8, 11, ownerBaseline⟩
  baselineCaseMember := false

/-- A first call, up to its commit. -/
def firstCall : List Event :=
  [.begin 2 1, .call 0 (.reads projectReads)] ++ List.replicate 16 (.call 0 (.run 1))

theorem empty_keyed : Tables.empty.Keyed := by
  intro c
  rw [Tables.keys_empty]
  exact List.nodup_nil

theorem finding_evidence_first_call :
    ∃ s, (analysis projectRuntime).Run ⟨.empty, []⟩ (firstCall ++ [.call 0 (.run 1), .call 0 (.run 1)]) s ∧
      s.tables.findings.length = 1 ∧ ∀ f ∈ s.tables.findings, s.tables.Agrees projectRuntime f := by
  obtain ⟨s, run, one⟩ := System.Run.exists_of_map (fun s => s.tables.Keyed ∧ s.sessions = [])
    (State.step projectRuntime) ⟨.empty, []⟩ (firstCall ++ [.call 0 (.run 1), .call 0 (.run 1)])
    (fun s => s.tables.findings.length) 1 (by decide +kernel)
  refine ⟨s, run, one, fun f member => ?_⟩
  exact (finding_evidence ⟨empty_keyed, rfl⟩ run).2.1 f member ⟨List.not_mem_nil, List.not_mem_nil⟩

/-- The refresh after the commit raises too, and by then the rows are there. -/
theorem failed_refresh_keeps_rows :
    ¬ ∀ (F : Type) (R : Runtime F) (s₀ s : State) (trace : List Event), (analysis R).init s₀ →
      (analysis R).Run s₀ trace s → ∀ i x error, s.sessions[i]? = some x → x.line = .raised error →
      (analysis R).Always s₀ trace s fun t e t' => ∀ a, e = .call i a → t'.tables = t.tables := by
  intro claim
  obtain ⟨t, u, run, commit, none_, one⟩ := System.Run.exists_step (fun s => s.tables.Keyed ∧ s.sessions = [])
    (State.step projectRuntime) ⟨.empty, []⟩ firstCall (.call 0 (.run 1))
    (fun s => (s.tables.findings.length, s.sessions[0]?.map fun x => x.line matches .refresh _ _))
    (0, some false) (1, some true) (by decide +kernel)
  simp only [Prod.mk.injEq] at none_ one
  obtain ⟨x, found, here⟩ := Option.map_eq_some_iff.1 one.2
  obtain ⟨line, pending, saved⟩ := x
  cases line with
  | refresh job p =>
      have fail : (analysis projectRuntime).step u (.call 0 .fail)
          ⟨u.tables, u.sessions.set 0 ⟨.raised .refresh, saved, saved⟩⟩ := by
        show State.step projectRuntime u (.call 0 .fail) = _
        simp [State.step, found, Session.step, Session.raise]
      have bound := (List.getElem?_eq_some_iff.1 found).1
      have whole := (run.snoc commit).snoc fail
      have always := claim Unit projectRuntime _ _ _ ⟨empty_keyed, rfl⟩ whole 0 _ .refresh
        (List.getElem?_set_self bound) rfl
      have same := always firstCall (.call 0 (.run 1)) [.call 0 .fail] t u
        (by rw [List.append_assoc, List.singleton_append]) run commit (.single fail) (.run 1) rfl
      rw [same, none_.1] at one
      nomatch one.1
  | _ => nomatch here

end ApiSecurityPlatform.Findings
