/-
# Theory.Chain -- a log whose rows are chained, on a file that may fail

Each row has its number and the digest of the row before.  A writer appends to the file and to
what it has in memory; a write may leave nothing, a torn row, or a whole row that the writer
never learned of.  A file is read row by row, and not at all past a row that does not follow.

* `append_cases`: what one call leaves;
* `Kept`: the rows in memory lead the file wherever that can still be read, with at most one row
  behind them, and both have the property the writer keeps (`Kept.append`);
* `Kept.exact`: where a write was acknowledged, a file that can be read has no other row.
-/
import Mathlib.Data.List.Induction

namespace ApiSecurityPlatform.Theory.Chain

set_option autoImplicit false

universe u v

structure Row (D : Type u) (P : Type v) where
  sequence : Nat
  previous : D
  payload : P
  digest : D
deriving DecidableEq

structure Scheme (D : Type u) (P : Type v) where
  zero : D
  hash : Nat → D → P → D
  fits : P → Bool
  limit : Nat

structure File (D : Type u) (P : Type v) where
  rows : List (Row D P)
  torn : Bool

/-- What one write leaves; only a synced one is acknowledged. -/
inductive Write where
  | nothing
  | torn
  | whole
  | synced
deriving DecidableEq, Repr

variable {D : Type u} {P : Type v}

namespace Scheme

variable (S : Scheme D P)

def head (rows : List (Row D P)) : D := (rows.getLast?.map Row.digest).getD S.zero

/-- The row behind `rows`. -/
def next (rows : List (Row D P)) (payload : P) : Row D P :=
  ⟨rows.length + 1, S.head rows, payload, S.hash (rows.length + 1) (S.head rows) payload⟩

section Reading

variable [DecidableEq D]

def readRow (read : List (Row D P)) (row : Row D P) : Option (List (Row D P)) :=
  if row.sequence = read.length + 1 ∧ row.previous = S.head read ∧
      row.digest = S.hash row.sequence row.previous row.payload then some (read ++ [row])
  else none

def load (file : File D P) : Option (List (Row D P)) :=
  if file.torn then none else file.rows.foldlM S.readRow []

end Reading

/-- Append to the file and to the rows in memory. -/
def append (file : File D P) (rows : List (Row D P)) (payload : P) (write : Write) :
    Option (Row D P) × File D P × List (Row D P) :=
  if ¬ (rows.length < S.limit ∧ S.fits payload = true) then (none, file, rows)
  else
    match write with
    | .nothing => (none, file, rows)
    | .torn => (none, { file with torn := true }, rows)
    | .whole => (none, { file with rows := file.rows ++ [S.next rows payload] }, rows)
    | .synced => (some (S.next rows payload), { file with rows := file.rows ++ [S.next rows payload] },
        rows ++ [S.next rows payload])

theorem append_cases (file : File D P) (rows : List (Row D P)) (payload : P) (write : Write) : (∃ file', S.append file rows payload write = (none, file', rows) ∧
      (file' = file ∨ file' = { file with torn := true } ∨ file' = { file with rows := file.rows ++ [S.next rows payload] })) ∨
    S.append file rows payload write = (some (S.next rows payload),
      { file with rows := file.rows ++ [S.next rows payload] }, rows ++ [S.next rows payload]) := by
  unfold append
  split
  · exact .inl ⟨file, rfl, .inl rfl⟩
  cases write with
  | nothing => exact .inl ⟨_, rfl, .inl rfl⟩
  | torn => exact .inl ⟨_, rfl, .inr (.inl rfl)⟩
  | whole => exact .inl ⟨_, rfl, .inr (.inr rfl)⟩
  | synced => exact .inr rfl

variable {S} {file : File D P} {rows : List (Row D P)} {payload : P} {write : Write} [DecidableEq D]

theorem readRow_eq_some {read : List (Row D P)} {row : Row D P} {out : List (Row D P)} (done : S.readRow read row = some out) :
    out = read ++ [row] ∧ row.sequence = read.length + 1 := by
  unfold readRow at done
  split at done
  next follows => exact ⟨(Option.some.inj done).symm, follows.1⟩
  next => cases done

/-- Whatever is read is the whole file. -/
theorem load_eq_some {out : List (Row D P)} (loaded : S.load file = some out) : out = file.rows ∧ file.torn = false := by
  unfold load at loaded
  split at loaded
  next => cases loaded
  next clean =>
    refine ⟨?_, Bool.eq_false_iff.2 clean⟩
    generalize file.rows = rows at loaded
    induction rows using List.reverseRecOn generalizing out with
    | nil => exact (Option.some.inj loaded).symm
    | append_singleton front row ih =>
        rw [List.foldlM_append] at loaded
        obtain ⟨read, first, last⟩ := Option.bind_eq_some_iff.1 loaded
        rw [List.foldlM_cons] at last
        obtain ⟨out', done, same⟩ := Option.bind_eq_some_iff.1 last
        obtain rfl : out' = out := Option.some.inj same
        rw [(readRow_eq_some done).1, ih first]

/-- What can be read could be read before the last row was there. -/
theorem load_snoc {row : Row D P} {out : List (Row D P)} (loaded : S.load { file with rows := file.rows ++ [row] } = some out) :
    S.load file = some file.rows ∧ row.sequence = file.rows.length + 1 := by
  have clean := (load_eq_some loaded).2
  unfold load at loaded ⊢
  rw [if_neg (by simpa using clean), List.foldlM_append] at loaded
  obtain ⟨read, first, last⟩ := Option.bind_eq_some_iff.1 loaded
  have before : S.load file = some read := by
    rw [load, if_neg (by simpa using clean)]
    exact first
  obtain rfl := (load_eq_some before).1
  rw [List.foldlM_cons] at last
  obtain ⟨out', done, -⟩ := Option.bind_eq_some_iff.1 last
  rw [if_neg (by simpa using clean)]
  exact ⟨first, (readRow_eq_some done).2⟩

/-- A writer and its file: `φ` holds of the rows in memory, and of those a reader would find. -/
structure Kept (S : Scheme D P) (φ : List P → Prop) (file : File D P) (rows : List (Row D P)) : Prop where
  memory : φ (rows.map Row.payload)
  read : ∀ out, S.load file = some out → φ (out.map Row.payload)
  lead : ∀ out, S.load file = some out → rows <+: out ∧ out.length ≤ rows.length + 1

namespace Kept

variable {φ ψ : List P → Prop}

theorem mono (kept : S.Kept φ file rows) (weaker : ∀ ps, φ ps → ψ ps) : S.Kept ψ file rows :=
  ⟨weaker _ kept.memory, fun out loaded => weaker _ (kept.read out loaded), kept.lead⟩

theorem payloads (kept : S.Kept φ file rows) {out : List (Row D P)} (loaded : S.load file = some out) :
    rows.map Row.payload <+: out.map Row.payload := (kept.lead out loaded).1.map _

/-- Nothing was written. -/
theorem empty (holds : φ []) : S.Kept φ ⟨[], false⟩ [] := by
  refine ⟨holds, fun out loaded => ?_, fun out loaded => ?_⟩ <;> cases loaded
  · exact holds
  · exact ⟨List.prefix_refl _, Nat.zero_le _⟩

/-- What was read is kept by whoever has read it. -/
theorem loaded (kept : S.Kept φ file rows) {out : List (Row D P)} (loaded : S.load file = some out) : S.Kept φ file out := by
  refine ⟨kept.read out loaded, kept.read, fun out' again => ?_⟩
  cases loaded.symm.trans again
  exact ⟨List.prefix_refl _, Nat.le_succ _⟩

omit [DecidableEq D] in
theorem map_next (rows : List (Row D P)) (payload : P) :
    (rows ++ [S.next rows payload]).map Row.payload = rows.map Row.payload ++ [payload] := by
  rw [List.map_append]
  rfl

theorem torn (kept : S.Kept φ file rows) : S.Kept φ { file with torn := true } rows :=
  ⟨kept.memory, fun out loaded => (by cases loaded), fun out loaded => (by cases loaded)⟩

/-- The row behind the rows in memory fits only where nothing else is behind them. -/
theorem exact_of_load (kept : S.Kept φ file rows) {out : List (Row D P)}
    (loaded : S.load { file with rows := file.rows ++ [S.next rows payload] } = some out) :
    S.load file = some rows ∧ out = rows ++ [S.next rows payload] := by
  obtain ⟨before, numbered⟩ := load_snoc loaded
  obtain ⟨lead, -⟩ := kept.lead _ before
  have count : file.rows.length = rows.length := (Nat.succ.inj numbered).symm
  have same : file.rows = rows := (lead.eq_of_length count.symm).symm
  rw [same] at before
  refine ⟨before, ?_⟩
  rw [(load_eq_some loaded).1, same]

theorem whole (kept : S.Kept φ file rows) (next : φ (rows.map Row.payload ++ [payload])) :
    S.Kept φ { file with rows := file.rows ++ [S.next rows payload] } rows := by
  refine ⟨kept.memory, fun out loaded => ?_, fun out loaded => ?_⟩
  · rw [(kept.exact_of_load loaded).2, map_next]
    exact next
  · rw [(kept.exact_of_load loaded).2]
    exact ⟨List.prefix_append _ _, Nat.le_of_eq List.length_append⟩

theorem synced (kept : S.Kept φ file rows) (next : φ (rows.map Row.payload ++ [payload])) :
    S.Kept φ { file with rows := file.rows ++ [S.next rows payload] } (rows ++ [S.next rows payload]) := by
  refine ⟨by rw [map_next]; exact next, fun out loaded => ?_, fun out loaded => ?_⟩
  · rw [(kept.exact_of_load loaded).2, map_next]
    exact next
  · rw [(kept.exact_of_load loaded).2]
    exact ⟨List.prefix_refl _, Nat.le_succ _⟩

/-- **Whatever becomes of a write, what the writer keeps is kept.** -/
theorem append (kept : S.Kept φ file rows) (next : φ (rows.map Row.payload ++ [payload])) (write : Write) :
    S.Kept φ (S.append file rows payload write).2.1 (S.append file rows payload write).2.2 := by
  rcases S.append_cases file rows payload write with
    ⟨file', left, rfl | rfl | rfl⟩ | done
  · rw [left]
    exact kept
  · rw [left]
    exact kept.torn
  · rw [left]
    exact kept.whole next
  · rw [done]
    exact kept.synced next

/-- **Where the last write was acknowledged, nothing else can be read.** -/
theorem exact (kept : S.Kept φ file rows) {out : List (Row D P)}
    (loaded : S.load { file with rows := file.rows ++ [S.next rows payload] } = some out) :
    out = rows ++ [S.next rows payload] := (kept.exact_of_load loaded).2

end Kept

end Scheme

end ApiSecurityPlatform.Theory.Chain
