/-
# Theory.Table -- finite keyed tables and sums over their rows

A `Table` is a finite partial function that carries the list of its keys in
insertion order, so that a query can scan the rows and `SUM` over them is a finite
sum.  `put` inserts or overwrites one row; `sum_put_of_none` and `sum_put_of_some`
say what it does to a sum, which is all a conservation argument needs.

Rows of a log that is only appended to are `Numbered` 1, 2, 3, ... in their order.  A read that
sorts by the number gives the log back, and a number names one row.
-/
import Mathlib.Algebra.BigOperators.Group.Finset.Basic
import Mathlib.Algebra.Order.BigOperators.Group.Finset
import Mathlib.Data.List.Range
import Mathlib.Data.List.Sort

namespace ApiSecurityPlatform.Theory

set_option autoImplicit false

universe u v w

/-- A finite table with primary key `κ`. -/
structure Table (κ : Type u) (ν : Type v) where
  keys : List κ
  row : κ → Option ν
  nodup : keys.Nodup
  mem_keys : ∀ k, k ∈ keys ↔ (row k).isSome = true

namespace Table

variable {κ : Type u} {ν : Type v} {M : Type w}

def empty : Table κ ν where
  keys := []
  row _ := none
  nodup := List.nodup_nil
  mem_keys _ := by simp

@[simp]
theorem row_empty (k : κ) : (empty : Table κ ν).row k = none := rfl

theorem eq_of_keys_of_row {s t : Table κ ν} (keys : s.keys = t.keys)
    (rows : ∀ k, s.row k = t.row k) : s = t := by
  obtain ⟨keys₁, row₁, nodup₁, mem₁⟩ := s
  obtain ⟨keys₂, row₂, nodup₂, mem₂⟩ := t
  have same : row₁ = row₂ := funext rows
  subst same
  subst keys
  rfl

theorem mem_of_row {t : Table κ ν} {k : κ} {v : ν} (found : t.row k = some v) : k ∈ t.keys := by
  rw [t.mem_keys, found]
  rfl

theorem row_of_mem {t : Table κ ν} {k : κ} (member : k ∈ t.keys) : ∃ v, t.row k = some v :=
  Option.isSome_iff_exists.1 ((t.mem_keys k).1 member)

/-- The rows with their keys, in the order of the keys. -/
def items (t : Table κ ν) : List (κ × ν) := t.keys.filterMap fun k => (t.row k).map (k, ·)

theorem mem_items {t : Table κ ν} {k : κ} {v : ν} : (k, v) ∈ t.items ↔ t.row k = some v := by
  simp only [items, List.mem_filterMap, Option.map_eq_some_iff, Prod.mk.injEq]
  constructor
  · rintro ⟨k, -, v, found, rfl, rfl⟩
    exact found
  · intro found
    exact ⟨k, mem_of_row found, v, found, rfl, rfl⟩

/-- `UPDATE` of every row by a function of its key. -/
def map (t : Table κ ν) (f : κ → ν → ν) : Table κ ν where
  keys := t.keys
  row k := (t.row k).map (f k)
  nodup := t.nodup
  mem_keys k := by simp [t.mem_keys]

@[simp]
theorem row_map (t : Table κ ν) (f : κ → ν → ν) (k : κ) : (t.map f).row k = (t.row k).map (f k) :=
  rfl

variable [DecidableEq κ]

/-- Insert a row, or overwrite the row with that key. -/
def put (t : Table κ ν) (k : κ) (v : ν) : Table κ ν where
  keys := if k ∈ t.keys then t.keys else t.keys ++ [k]
  row := Function.update t.row k (some v)
  nodup := by
    split
    · exact t.nodup
    · rename_i outside
      exact t.nodup.append (List.nodup_singleton k) (by simpa using outside)
  mem_keys j := by
    by_cases same : j = k
    · subst same
      split <;> simp_all
    · split <;> simp [same, t.mem_keys]

@[simp]
theorem row_put_self (t : Table κ ν) (k : κ) (v : ν) : (t.put k v).row k = some v := by
  simp [put]

theorem row_put_of_ne (t : Table κ ν) {j k : κ} (v : ν) (other : j ≠ k) :
    (t.put k v).row j = t.row j := by
  simp [put, other]

theorem row_put (t : Table κ ν) (j k : κ) (v : ν) :
    (t.put k v).row j = if j = k then some v else t.row j := by
  split
  · rename_i same
    rw [same, row_put_self]
  · rename_i other
    exact row_put_of_ne t v other

theorem keys_put_of_mem (t : Table κ ν) {k : κ} (v : ν) (inside : k ∈ t.keys) :
    (t.put k v).keys = t.keys := by
  simp [put, inside]

theorem mem_keys_put (t : Table κ ν) (k : κ) (v : ν) : k ∈ (t.put k v).keys :=
  mem_of_row (row_put_self t k v)

@[simp]
theorem put_put (t : Table κ ν) (k : κ) (v w : ν) : (t.put k v).put k w = t.put k w := by
  refine eq_of_keys_of_row ?_ fun j => ?_
  · rw [keys_put_of_mem _ _ (mem_keys_put t k v)]
    rfl
  · by_cases same : j = k
    · simp [same]
    · simp [row_put_of_ne _ _ same]

theorem mem_keys_put_of_mem (t : Table κ ν) {j k : κ} (v : ν) (inside : j ∈ t.keys) :
    j ∈ (t.put k v).keys := by
  unfold put
  split
  · exact inside
  · exact List.mem_append_left _ inside

/-- Overwrites of two different existing rows commute. -/
theorem put_comm (t : Table κ ν) {j k : κ} (v w : ν) (other : j ≠ k) (first : j ∈ t.keys)
    (second : k ∈ t.keys) : (t.put j v).put k w = (t.put k w).put j v := by
  refine eq_of_keys_of_row ?_ fun i => ?_
  · rw [keys_put_of_mem _ _ (mem_keys_put_of_mem t v second), keys_put_of_mem _ _ first,
      keys_put_of_mem _ _ (mem_keys_put_of_mem t w first), keys_put_of_mem _ _ second]
  · simp only [row_put]
    by_cases atJ : i = j
    · subst atJ
      simp [other]
    · simp [atJ]

/-- Where a row of a table comes from after two overwrites. -/
theorem row_put_put_cases {t : Table κ ν} {i j k : κ} {v w x : ν}
    (found : ((t.put j v).put k w).row i = some x) :
    (i = k ∧ x = w) ∨ (i ≠ k ∧ i = j ∧ x = v) ∨ (i ≠ k ∧ i ≠ j ∧ t.row i = some x) := by
  rw [row_put] at found
  split at found
  · rename_i atK
    exact .inl ⟨atK, (Option.some.inj found).symm⟩
  · rename_i notK
    rw [row_put] at found
    split at found
    · rename_i atJ
      exact .inr (.inl ⟨notK, atJ, (Option.some.inj found).symm⟩)
    · rename_i notJ
      exact .inr (.inr ⟨notK, notJ, found⟩)

theorem put_self_of_row (t : Table κ ν) {k : κ} {v : ν} (found : t.row k = some v) :
    t.put k v = t := by
  refine eq_of_keys_of_row (keys_put_of_mem t v (mem_of_row found)) fun j => ?_
  by_cases same : j = k
  · rw [same, row_put_self, found]
  · rw [row_put_of_ne _ _ same]

/-- `UPDATE ... WHERE key = k`: nothing happens when there is no such row. -/
def modify (t : Table κ ν) (k : κ) (f : ν → ν) : Table κ ν :=
  match t.row k with
  | none => t
  | some v => t.put k (f v)

theorem modify_of_row (t : Table κ ν) {k : κ} {v : ν} (f : ν → ν) (found : t.row k = some v) :
    t.modify k f = t.put k (f v) := by
  simp [modify, found]

theorem mem_keys_modify (t : Table κ ν) (k : κ) (f : ν → ν) {j : κ} (inside : j ∈ t.keys) :
    j ∈ (t.modify k f).keys := by
  unfold modify
  split
  · exact inside
  · exact mem_keys_put_of_mem t _ inside

theorem row_modify (t : Table κ ν) (k : κ) (f : ν → ν) (j : κ) :
    (t.modify k f).row j = (t.row j).map fun v => if j = k then f v else v := by
  unfold modify
  by_cases same : j = k
  · subst same
    cases found : t.row j with
    | none => simp [found]
    | some v => simp
  · cases found : t.row k with
    | none => simp [same]
    | some v => simp [row_put_of_ne _ _ same, same]

@[simp]
theorem modify_put (t : Table κ ν) (k : κ) (v : ν) (f : ν → ν) :
    (t.put k v).modify k f = t.put k (f v) := by
  rw [modify_of_row _ _ (row_put_self t k v), put_put]

section Sum

variable [AddCommMonoid M]

/-- `SUM(f)` over the rows. -/
def sum (t : Table κ ν) (f : κ → ν → M) : M :=
  ∑ k ∈ t.keys.toFinset, (t.row k).elim 0 (f k)

@[simp]
theorem sum_empty (f : κ → ν → M) : (empty : Table κ ν).sum f = 0 := rfl

theorem sum_put_of_none (t : Table κ ν) (f : κ → ν → M) {k : κ} (v : ν)
    (absent : t.row k = none) : (t.put k v).sum f = t.sum f + f k v := by
  have outside : k ∉ t.keys := by
    rw [t.mem_keys, absent]
    simp
  have domain : (t.put k v).keys.toFinset = insert k t.keys.toFinset := by
    ext j
    simp [put, outside]
  have rest : ∑ j ∈ t.keys.toFinset, ((t.put k v).row j).elim 0 (f j) =
      ∑ j ∈ t.keys.toFinset, (t.row j).elim 0 (f j) := by
    refine Finset.sum_congr rfl fun j member => ?_
    have other : j ≠ k := by
      rintro rfl
      exact outside (List.mem_toFinset.1 member)
    rw [row_put_of_ne _ _ other]
  rw [sum, domain, Finset.sum_insert (by simpa using outside), rest, row_put_self, add_comm]
  rfl

/-- Overwriting exchanges one summand. -/
theorem sum_put_of_some (t : Table κ ν) (f : κ → ν → M) {k : κ} (v : ν) {old : ν}
    (found : t.row k = some old) : (t.put k v).sum f + f k old = t.sum f + f k v := by
  have inside : k ∈ t.keys.toFinset := List.mem_toFinset.2 (mem_of_row found)
  have rest : ∑ j ∈ t.keys.toFinset.erase k, ((t.put k v).row j).elim 0 (f j) =
      ∑ j ∈ t.keys.toFinset.erase k, (t.row j).elim 0 (f j) := by
    refine Finset.sum_congr rfl fun j member => ?_
    rw [row_put_of_ne _ _ (Finset.ne_of_mem_erase member)]
  rw [sum, keys_put_of_mem _ _ (mem_of_row found), sum, ← Finset.add_sum_erase _ _ inside,
    ← Finset.add_sum_erase _ _ inside, rest, row_put_self, found]
  simp only [Option.elim_some]
  rw [add_right_comm, add_assoc, add_comm (f k old), add_comm]

theorem sum_eq_zero {t : Table κ ν} {f : κ → ν → M} (zero : ∀ k v, t.row k = some v → f k v = 0) :
    t.sum f = 0 := by
  refine Finset.sum_eq_zero fun k member => ?_
  obtain ⟨v, found⟩ := row_of_mem (List.mem_toFinset.1 member)
  rw [found]
  exact zero k v found

theorem sum_map (t : Table κ ν) (f : κ → ν → M) (g : κ → ν → ν)
    (same : ∀ k v, f k (g k v) = f k v) : (t.map g).sum f = t.sum f := by
  refine Finset.sum_congr rfl fun k _ => ?_
  cases found : t.row k with
  | none => simp [found]
  | some v => simp [found, same]

end Sum

section Order

variable [AddCommMonoid M] [PartialOrder M] [IsOrderedAddMonoid M]

theorem sum_nonneg {t : Table κ ν} {f : κ → ν → M} (nonneg : ∀ k v, t.row k = some v → 0 ≤ f k v) :
    0 ≤ t.sum f := by
  refine Finset.sum_nonneg fun k member => ?_
  obtain ⟨v, found⟩ := row_of_mem (List.mem_toFinset.1 member)
  rw [found]
  exact nonneg k v found

/-- Of nonnegative summands, none exceeds the sum. -/
theorem le_sum {t : Table κ ν} {f : κ → ν → M} (nonneg : ∀ k v, t.row k = some v → 0 ≤ f k v)
    {k : κ} {v : ν} (found : t.row k = some v) : f k v ≤ t.sum f := by
  have one : (t.row k).elim 0 (f k) ≤ t.sum f := by
    refine Finset.single_le_sum (f := fun k => (t.row k).elim 0 (f k)) ?_
      (List.mem_toFinset.2 (mem_of_row found))
    intro j member
    obtain ⟨w, found'⟩ := row_of_mem (List.mem_toFinset.1 member)
    show 0 ≤ (t.row j).elim 0 (f j)
    rw [found']
    exact nonneg j w found'
  rwa [found] at one

end Order

end Table

/-! ## Logs numbered from one -/

variable {α : Type u} {f : α → Nat} {l : List α}

/-- The rows are numbered 1, 2, 3, ... in their order. -/
def Numbered (f : α → Nat) (l : List α) : Prop := l.map f = List.range' 1 l.length

theorem Numbered.append {more : List α} (numbered : Numbered f l)
    (next : more.map f = List.range' (l.length + 1) more.length) : Numbered f (l ++ more) := by
  unfold Numbered at numbered ⊢
  rw [List.map_append, numbered, next, List.length_append, ← List.range'_append_1, Nat.add_comm 1]

theorem Numbered.sorted (numbered : Numbered f l) : l.Pairwise fun a b => f a < f b := by
  have increasing : (l.map f).Pairwise (· < ·) := by
    rw [numbered]
    exact List.pairwise_lt_range'
  exact List.pairwise_map.1 increasing

theorem Numbered.insertionSort (numbered : Numbered f l) : (l.insertionSort fun a b => f a ≤ f b) = l :=
  List.Pairwise.insertionSort_eq (numbered.sorted.imp Nat.le_of_lt)

theorem Numbered.inj (numbered : Numbered f l) {a b : α} (first : a ∈ l) (second : b ∈ l) (same : f a = f b) :
    a = b := by
  have nodup : (l.map f).Nodup := by
    rw [numbered]
    exact List.nodup_range'
  exact List.inj_on_of_nodup_map nodup first second same

theorem Numbered.le (numbered : Numbered f l) {a : α} (member : a ∈ l) : f a ≤ l.length := by
  have inside : f a ∈ List.range' 1 l.length := numbered ▸ List.mem_map_of_mem member
  rw [List.mem_range'_1] at inside
  omega

end ApiSecurityPlatform.Theory
