/-
# Theory.Keyed -- lists of keys and values

A `dict` is a list of keys and values with distinct keys, in the order of its items.  What is
found under a key does not depend on that order.

Where the values have their keys in them, `assign` is `d[key] = value`: in the place of the value that has the key, or at
the end.  `amend` changes the value of one key.
-/
import Mathlib.Data.List.Nodup

namespace ApiSecurityPlatform.Theory

set_option autoImplicit false

universe u v w

/-! ## Keys and values -/

section Lookup

variable {κ : Type u} {α : Type v} {β : Type w} [BEq κ] [LawfulBEq κ]

theorem lookup_mem {l : List (κ × α)} {k : κ} {a : α} (found : l.lookup k = some a) : (k, a) ∈ l := by
  obtain ⟨before, after, rfl, -⟩ := List.lookup_eq_some_iff.1 found
  simp

theorem lookup_of_mem {l : List (κ × α)} (distinct : (l.map Prod.fst).Nodup) {k : κ} {a : α} (mem : (k, a) ∈ l) :
    l.lookup k = some a := by
  induction l with
  | nil => cases mem
  | cons first rest ih =>
      obtain ⟨k', a'⟩ := first
      rw [List.map_cons, List.nodup_cons] at distinct
      rcases List.mem_cons.1 mem with same | inside
      · obtain ⟨rfl, rfl⟩ := Prod.mk.inj same
        rw [List.lookup_cons, beq_self_eq_true]
      · have other : (k == k') = false := by
          rw [beq_eq_false_iff_ne]
          rintro rfl
          exact distinct.1 (List.mem_map.2 ⟨_, inside, rfl⟩)
        rw [List.lookup_cons, other]
        exact ih distinct.2 inside

theorem lookup_iff {l : List (κ × α)} (distinct : (l.map Prod.fst).Nodup) {k : κ} {a : α} :
    l.lookup k = some a ↔ (k, a) ∈ l :=
  ⟨lookup_mem, lookup_of_mem distinct⟩

/-- The order of the items does not matter. -/
theorem lookup_perm {l l' : List (κ × α)} (perm : l.Perm l') (distinct : (l.map Prod.fst).Nodup) (k : κ) :
    l.lookup k = l'.lookup k := by
  have distinct' : (l'.map Prod.fst).Nodup := (perm.map Prod.fst).nodup_iff.1 distinct
  refine Option.ext fun a => ?_
  rw [lookup_iff distinct, lookup_iff distinct', perm.mem_iff]

omit [LawfulBEq κ] in
theorem lookup_map (f : α → β) (l : List (κ × α)) (k : κ) :
    (l.map fun m => (m.1, f m.2)).lookup k = (l.lookup k).map f := by
  induction l with
  | nil => rfl
  | cons first rest ih =>
      rw [List.map_cons, List.lookup_cons, List.lookup_cons]
      cases k == first.1 with
      | true => rfl
      | false => exact ih

theorem lookup_of_key {l : List (κ × α)} {k : κ} (mem : k ∈ l.map Prod.fst) : ∃ a, l.lookup k = some a := by
  induction l with
  | nil => cases mem
  | cons first rest ih =>
      rw [List.lookup_cons]
      cases same : k == first.1 with
      | true => exact ⟨first.2, rfl⟩
      | false =>
          rw [List.map_cons, List.mem_cons] at mem
          rcases mem with rfl | inside
          · rw [beq_self_eq_true] at same
            cases same
          · exact ih inside

end Lookup

/-! ## Values that have their keys in them -/

section Assign

variable {α : Type u} {κ : Type v} [DecidableEq κ] (key : α → κ)

def assign (items : List α) (item : α) : List α :=
  if items.any fun a => key a = key item then items.map fun a => if key a = key item then item else a
  else items ++ [item]

def amend (items : List α) (k : κ) (f : α → α) : List α := items.map fun a => if key a = k then f a else a

variable {key} {items : List α} {item a : α} {k : κ} {f : α → α}

theorem mem_assign (mem : a ∈ assign key items item) : a = item ∨ a ∈ items ∧ key a ≠ key item := by
  unfold assign at mem
  split at mem
  · obtain ⟨b, here, same⟩ := List.mem_map.1 mem
    split at same
    · exact .inl same.symm
    · next other =>
      subst same
      exact .inr ⟨here, other⟩
  · next unseen =>
    rcases List.mem_append.1 mem with before | last
    · refine .inr ⟨before, fun same => unseen ?_⟩
      exact List.any_eq_true.2 ⟨a, before, by simpa using same⟩
    · exact .inl (List.mem_singleton.1 last)

theorem assign_self : item ∈ assign key items item := by
  unfold assign
  split
  · next seen =>
    obtain ⟨a, mem, same⟩ := List.any_eq_true.1 seen
    exact List.mem_map.2 ⟨a, mem, if_pos (by simpa using same)⟩
  · exact List.mem_append_right _ List.mem_cons_self

theorem mem_assign_of_ne (mem : a ∈ items) (other : key a ≠ key item) : a ∈ assign key items item := by
  unfold assign
  split
  · exact List.mem_map.2 ⟨a, mem, if_neg other⟩
  · exact List.mem_append_left _ mem

theorem mem_amend (mem : a ∈ amend key items k f) : ∃ b ∈ items, (key b = k ∧ a = f b) ∨ (key b ≠ k ∧ a = b) := by
  obtain ⟨b, here, same⟩ := List.mem_map.1 mem
  refine ⟨b, here, ?_⟩
  split at same
  · next it => exact .inl ⟨it, same.symm⟩
  · next other => exact .inr ⟨other, same.symm⟩

end Assign

end ApiSecurityPlatform.Theory
