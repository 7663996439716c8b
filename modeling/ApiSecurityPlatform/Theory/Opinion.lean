/-
# Theory.Opinion -- what many witnesses say together

Of a list of values, all that counts is which values are in it: none, one or several.  A list
with one value is unanimous (`unanimous_iff`), one with several is split (`split_iff`), and what is split
stays split whatever is added (`Split.mono`).

Lower bounds are joined as they come in.  A join that may be refused, with a least element, orders its values: one is below
another when joining them gives the other (`Below`).  What is joined is below what comes of it (`below_left`, `below_right`),
so a floor that only joins never falls (`Below.trans`).
-/
import Mathlib.Data.List.Dedup

namespace ApiSecurityPlatform.Theory

set_option autoImplicit false

universe u

variable {α : Type u}

/-- Two of the values differ. -/
def Split (values : List α) : Prop := ∃ a ∈ values, ∃ b ∈ values, a ≠ b

/-- The one value there is. -/
def Unanimous (values : List α) (a : α) : Prop := ∀ b, b ∈ values ↔ b = a

theorem Split.mono {values more : List α} (added : values ⊆ more) : Split values → Split more
  | ⟨a, ha, b, hb, differ⟩ => ⟨a, added ha, b, added hb, differ⟩

theorem Unanimous.not_split {values : List α} {a : α} (agreed : Unanimous values a) : ¬ Split values := by
  rintro ⟨b, hb, c, hc, differ⟩
  exact differ (((agreed b).1 hb).trans ((agreed c).1 hc).symm)

variable [DecidableEq α]

/-- `len(set(values)) > 1`. -/
theorem split_iff {values : List α} : 1 < values.dedup.length ↔ Split values := by
  constructor
  · intro several
    match distinct : values.dedup, values.nodup_dedup, several with
    | a :: b :: _, nodup, _ =>
        refine ⟨a, List.mem_dedup.1 (distinct ▸ List.mem_cons_self), b,
          List.mem_dedup.1 (distinct ▸ List.mem_cons_of_mem _ List.mem_cons_self), ?_⟩
        rintro rfl
        exact (List.nodup_cons.1 nodup).1 List.mem_cons_self
  · rintro ⟨a, ha, b, hb, differ⟩
    by_contra few
    have ha := List.mem_dedup.2 ha
    have hb := List.mem_dedup.2 hb
    match values.dedup, ha, hb, few with
    | [c], ha, hb, _ => exact differ ((List.mem_singleton.1 ha).trans (List.mem_singleton.1 hb).symm)
    | _ :: _ :: _, _, _, few => exact few (by simp)

/-- `next(iter(set(values))) if len(set(values)) == 1 else silent`. -/
def sole (values : List α) (silent : α) : α :=
  match values.dedup with
  | [a] => a
  | _ => silent

theorem unanimous_iff {values : List α} {a : α} : values.dedup = [a] ↔ Unanimous values a := by
  constructor
  · intro one b
    rw [← List.mem_dedup, one, List.mem_singleton]
  · intro agreed
    have inside : a ∈ values.dedup := List.mem_dedup.2 ((agreed a).2 rfl)
    have only : ∀ b ∈ values.dedup, b = a := fun b mem => (agreed b).1 (List.mem_dedup.1 mem)
    match distinct : values.dedup, values.nodup_dedup, inside, only with
    | [b], _, _, only => rw [only b List.mem_cons_self]
    | b :: c :: _, nodup, _, only =>
        rw [only b List.mem_cons_self, only c (List.mem_cons_of_mem _ List.mem_cons_self)] at nodup
        exact absurd List.mem_cons_self (List.nodup_cons.1 nodup).1

theorem sole_eq_iff {values : List α} {silent a : α} (loud : a ≠ silent) : sole values silent = a ↔ Unanimous values a := by
  rw [← unanimous_iff]
  unfold sole
  constructor
  · intro same
    split at same
    next b one => rw [one, same]
    next => exact absurd same.symm loud
  · intro one
    rw [one]

/-- Only which values there are counts. -/
theorem sole_congr {values others : List α} {silent : α} (same : ∀ a, a ∈ values ↔ a ∈ others) :
    sole values silent = sole others silent := by
  have perm : values.dedup.Perm others.dedup :=
    (List.perm_ext_iff_of_nodup values.nodup_dedup others.nodup_dedup).2 fun a => by
      rw [List.mem_dedup, List.mem_dedup, same]
  unfold sole
  split
  next a one =>
      rw [one, List.singleton_perm] at perm
      rw [← perm]
  next many =>
      split
      next a one => exact absurd (List.perm_singleton.1 (one ▸ perm)) (many a)
      next => rfl

omit [DecidableEq α] in
theorem split_congr {values others : List α} (same : ∀ a, a ∈ values ↔ a ∈ others) : Split values ↔ Split others :=
  ⟨Split.mono fun _ mem => (same _).1 mem, Split.mono fun _ mem => (same _).2 mem⟩

/-! ## Lower bounds -/

/-- A partial join with a least element. -/
structure PartialJoin (α : Type u) where
  join : α → α → Option α
  bottom : α
  comm : ∀ a b, join a b = join b a
  idem : ∀ a, join a a = some a
  bottom_join : ∀ a, join bottom a = some a
  assoc : ∀ a b c, ((join a b).bind fun x => join x c) = (join b c).bind fun x => join a x

namespace PartialJoin

variable {α : Type u} (J : PartialJoin α)

def Below (a b : α) : Prop := J.join a b = some b

variable {J} {a b c : α}

theorem Below.refl (a : α) : J.Below a a := J.idem a

theorem Below.bottom (a : α) : J.Below J.bottom a := J.bottom_join a

theorem Below.trans (first : J.Below a b) (second : J.Below b c) : J.Below a c := by
  have assoc := J.assoc a b c
  rw [first, second] at assoc
  exact assoc.symm.trans second

theorem below_left (joined : J.join a b = some c) : J.Below a c := by
  have assoc := J.assoc a a b
  rw [J.idem, joined] at assoc
  exact assoc.symm.trans joined

theorem below_right (joined : J.join a b = some c) : J.Below b c :=
  below_left ((J.comm b a).trans joined)

end PartialJoin

end ApiSecurityPlatform.Theory
