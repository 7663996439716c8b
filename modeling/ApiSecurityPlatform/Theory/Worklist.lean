/-
# Theory.Worklist -- a bounded traversal that keeps a list of what is left

A step takes some item off the list, whichever, may refuse it, and puts its children on the
list with one more to their depth; how many items were taken is counted.  Whatever is taken
first:

* a traversal comes to an end (`wellFounded_step`);
* where an item is refused just for what it is and where it stands, and once `limit` items were
  taken, the traversal accepts exactly when all the items below are fine and there are no more
  than `limit` (`ends_none_iff`).
-/
import Mathlib.Algebra.BigOperators.Group.List.Basic
import Mathlib.Algebra.Order.BigOperators.Group.List
import Mathlib.Algebra.Order.Ring.Nat
import Mathlib.Logic.Relation
import Mathlib.Order.WellFounded

namespace ApiSecurityPlatform.Theory

set_option autoImplicit false

/-- Finite trees, each by what is at its root and how many items it has. -/
structure Forest (α : Type) where
  children : α → List α
  nodes : α → Nat
  nodes_eq : ∀ a, nodes a = 1 + ((children a).map nodes).sum

namespace Forest

variable {α : Type} (T : Forest α)

theorem nodes_lt {a c : α} (child : c ∈ T.children a) : T.nodes c < T.nodes a := by
  rw [T.nodes_eq a]
  have bound : T.nodes c ≤ ((T.children a).map T.nodes).sum :=
    List.single_le_sum (fun _ _ => Nat.zero_le _) _ (List.mem_map_of_mem child)
  omega

theorem induction {motive : α → Prop} (step : ∀ a, (∀ c ∈ T.children a, motive c) → motive a) (a : α) : motive a := by
  induction size : T.nodes a using Nat.strong_induction_on generalizing a with
  | _ n ih =>
      subst size
      exact step a fun c child => ih _ (T.nodes_lt child) c rfl

/-- `b` is in the tree of `a`, so many levels down. -/
inductive Below : α → Nat → α → Prop where
  | root (a : α) : Below a 0 a
  | child {a c b : α} {n : Nat} (listed : c ∈ T.children a) (below : Below c n b) : Below a (n + 1) b

/-- Every item of the tree of `a` is fine at its depth, `a` itself at `depth`. -/
def Everywhere (fine : α → Nat → Prop) (a : α) (depth : Nat) : Prop :=
  ∀ n b, T.Below a n b → fine b (depth + n)

theorem everywhere_iff {fine : α → Nat → Prop} {a : α} {depth : Nat} :
    T.Everywhere fine a depth ↔ fine a depth ∧ ∀ c ∈ T.children a, T.Everywhere fine c (depth + 1) := by
  constructor
  · intro all
    refine ⟨all 0 a (.root a), fun c listed n b below => ?_⟩
    have there := all (n + 1) b (.child listed below)
    rwa [Nat.add_comm n 1, ← Nat.add_assoc] at there
  · rintro ⟨here, rest⟩ n b below
    cases below with
    | root => exact here
    | @child _ c _ n listed below =>
        have there := rest c listed n b below
        rwa [Nat.add_assoc, Nat.add_comm 1 n] at there

end Forest

namespace Worklist

variable {α ε : Type}

/-- Items with their depths, and how many were taken before. -/
structure State (α : Type) where
  taken : Nat
  pending : List (α × Nat)

variable (T : Forest α) (refusal : Nat → α → Nat → Option ε)

/-- One item is taken, and its children are put on the list, anywhere. -/
inductive Step (s t : State α) : Prop where
  | take {a : α} {depth : Nat} {rest : List (α × Nat)} (item : s.pending.Perm ((a, depth) :: rest))
      (allowed : refusal s.taken a depth = none)
      (pending : t.pending.Perm (rest ++ (T.children a).map fun c => (c, depth + 1)))
      (taken : t.taken = s.taken + 1) : Step s t

/-- Nothing is left, or an item is refused. -/
inductive Stops (s : State α) : Option ε → Prop where
  | done (empty : s.pending = []) : Stops s none
  | refused {a : α} {depth : Nat} {rest : List (α × Nat)} {e : ε} (item : s.pending.Perm ((a, depth) :: rest))
      (refuses : refusal s.taken a depth = some e) : Stops s (some e)

/-- Some order ends a traversal so. -/
def Ends (s : State α) (r : Option ε) : Prop :=
  ∃ t, Relation.ReflTransGen (Step T refusal) s t ∧ Stops refusal t r

/-- How many items are left, those below the ones on the list included. -/
def weight (s : State α) : Nat := (s.pending.map fun item => T.nodes item.1).sum

variable {T refusal} {s t : State α}

theorem weight_perm {pending rest : List (α × Nat)} {a : α} {depth : Nat} (item : pending.Perm ((a, depth) :: rest)) :
    (pending.map fun item => T.nodes item.1).sum =
      1 + ((rest ++ (T.children a).map fun c => (c, depth + 1)).map fun item => T.nodes item.1).sum := by
  rw [(item.map _).sum_eq, List.map_cons, List.sum_cons, T.nodes_eq, List.map_append, List.sum_append, List.map_map]
  show 1 + ((T.children a).map T.nodes).sum + _ = 1 + (_ + ((T.children a).map T.nodes).sum)
  omega

/-- One item less is left. -/
theorem Step.weight (step : Step T refusal s t) : Worklist.weight T s = Worklist.weight T t + 1 := by
  obtain ⟨item, -, pending, -⟩ := step
  rw [Worklist.weight, weight_perm item, Worklist.weight, (pending.map _).sum_eq, Nat.add_comm]

theorem wellFounded_step (T : Forest α) (refusal : Nat → α → Nat → Option ε) :
    WellFounded fun t s => Step T refusal s t :=
  Subrelation.wf (fun step => by rw [InvImage, step.weight]; exact Nat.lt_succ_self _)
    (InvImage.wf (Worklist.weight T) Nat.lt_wfRel.wf)

/-! ## What is accepted -/

section Accepted

variable {fine : α → Nat → Prop} {limit : Nat}

variable (T) in
/-- All that is left is fine, and there is not too much of it. -/
def Fits (fine : α → Nat → Prop) (limit : Nat) (s : State α) : Prop :=
  (∀ item ∈ s.pending, T.Everywhere fine item.1 item.2) ∧ s.taken + weight T s ≤ limit

variable (refuses : ∀ n a depth, refusal n a depth = none ↔ n < limit ∧ fine a depth)

include refuses

theorem Step.fits (step : Step T refusal s t) : Fits T fine limit s ↔ Fits T fine limit t := by
  have lighter := step.weight
  obtain ⟨item, allowed, pending, taken⟩ := step
  obtain ⟨-, here⟩ := (refuses _ _ _).1 allowed
  refine and_congr ?_ (by omega)
  simp only [item.mem_iff, pending.mem_iff]
  rw [List.forall_mem_cons, List.forall_mem_append, List.forall_mem_map, T.everywhere_iff]
  exact ⟨fun ⟨⟨_, below⟩, rest⟩ => ⟨rest, below⟩, fun ⟨rest, below⟩ => ⟨⟨here, below⟩, rest⟩⟩

theorem Stops.fits {r : Option ε} (stops : Stops refusal s r) (room : s.taken ≤ limit) :
    r = none ↔ Fits T fine limit s := by
  cases stops with
  | done empty =>
      refine ⟨fun _ => ⟨by simp [empty], ?_⟩, fun _ => rfl⟩
      simpa [weight, empty] using room
  | @refused a depth rest e item refused =>
      refine ⟨(fun none_ => by cases none_), ?_⟩
      rintro ⟨all, few⟩
      have light := @weight_perm _ T _ _ _ _ item
      have allowed : refusal s.taken a depth = none := by
        refine (refuses _ _ _).2 ⟨?_, ?_⟩
        · rw [weight, light] at few
          omega
        · exact (T.everywhere_iff.1 (all _ (item.mem_iff.2 List.mem_cons_self))).1
      rw [refused] at allowed
      cases allowed

/-- **Whatever the order**, a traversal accepts just what fits. -/
theorem ends_none_iff {r : Option ε} (ends : Ends T refusal s r) (room : s.taken ≤ limit) :
    r = none ↔ Fits T fine limit s := by
  obtain ⟨t, run, stops⟩ := ends
  induction run using Relation.ReflTransGen.head_induction_on with
  | refl => exact stops.fits refuses room
  | head step _ ih =>
      rw [step.fits refuses]
      refine ih ?_
      obtain ⟨-, allowed, -, taken⟩ := step
      have := ((refuses _ _ _).1 allowed).1
      omega

end Accepted

end Worklist

end ApiSecurityPlatform.Theory
