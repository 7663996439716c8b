/-
# Theory.Fallible -- successful runs of fallible code

A function that may raise is a function into `Except`.  A proof about it peels the
successful run apart: `bind_ok` one step at a time, `foldlM_ok` a whole loop.
-/
import Mathlib.Init

namespace ApiSecurityPlatform.Theory

set_option autoImplicit false

universe u v w

variable {ε : Type u} {α : Type v} {β : Type v}

/-- Peel one step off a fallible computation. -/
theorem bind_ok {x : Except ε α} {f : α → Except ε β} {b : β} :
    (x >>= f) = .ok b ↔ ∃ a, x = .ok a ∧ f a = .ok b := by
  cases x with
  | error code => simp [bind, Except.bind]
  | ok a => simp [bind, Except.bind]

theorem bind_error {x : Except ε α} {f : α → Except ε β} {e : ε} :
    (x >>= f) = .error e ↔ x = .error e ∨ ∃ a, x = .ok a ∧ f a = .error e := by
  cases x with
  | error code => simp [bind, Except.bind]
  | ok a => simp [bind, Except.bind]

theorem seq_ok {γ : Type} {x : Except ε Unit} {f : Unit → Except ε γ} {b : γ} :
    (x >>= f) = .ok b ↔ x = .ok () ∧ f () = .ok b := by
  cases x with
  | error code => simp [bind, Except.bind]
  | ok a => simp [bind, Except.bind]

/-- A loop that only checks. -/
theorem forM_ok {f : α → Except ε PUnit} {items : List α} :
    items.forM f = .ok ⟨⟩ ↔ ∀ item ∈ items, f item = .ok ⟨⟩ := by
  induction items with
  | nil => exact iff_of_true rfl (fun item mem => nomatch mem)
  | cons item rest ih =>
      rw [List.forall_mem_cons, ← ih]
      show (f item >>= fun _ => rest.forM f) = .ok ⟨⟩ ↔ _
      rw [bind_ok]
      constructor
      · rintro ⟨_, first, others⟩
        exact ⟨first, others⟩
      · rintro ⟨first, others⟩
        exact ⟨⟨⟩, first, others⟩

/-- `if p: raise e`. -/
def refuse (p : Prop) [Decidable p] (e : ε) : Except ε Unit := if p then .error e else .ok ()

@[simp]
theorem refuse_ok {p : Prop} [Decidable p] {e : ε} {a : Unit} : refuse p e = .ok a ↔ ¬ p := by
  unfold refuse
  by_cases holds : p
  · simp [holds]
  · simp [holds]

theorem map_ok {x : Except ε α} {f : α → β} {b : β} :
    x.map f = .ok b ↔ ∃ a, x = .ok a ∧ f a = b := by
  cases x with
  | error code => simp [Except.map]
  | ok a => simp [Except.map]

/-- **The loop rule.**  What every pass keeps, a loop that finishes has kept. -/
theorem foldlM_ok {γ : Type w} {step : β → γ → Except ε β} {I : β → Prop} {items : List γ}
    (keep : ∀ b item b', item ∈ items → I b → step b item = .ok b' → I b') {b b' : β}
    (done : items.foldlM step b = .ok b') (start : I b) : I b' := by
  induction items generalizing b with
  | nil =>
      obtain rfl : b = b' := Except.ok.inj done
      exact start
  | cons item rest ih =>
      rw [List.foldlM_cons, bind_ok] at done
      obtain ⟨middle, first, remaining⟩ := done
      refine ih (fun b item b' member => keep b item b' (List.mem_cons_of_mem _ member)) remaining ?_
      exact keep b item middle List.mem_cons_self start first

/-- A loop that adds something for each item. -/
theorem foldlM_append {γ : Type w} {δ : Type v} {step : List δ → γ → Except ε (List δ)} {f : γ → List δ} {items : List γ}
    (adds : ∀ l item l', step l item = .ok l' → l' = l ++ f item) {l l' : List δ}
    (done : items.foldlM step l = .ok l') : l' = l ++ items.flatMap f := by
  induction items generalizing l with
  | nil =>
      obtain rfl : l = l' := Except.ok.inj done
      exact (List.append_nil l).symm
  | cons item rest ih =>
      rw [List.foldlM_cons, bind_ok] at done
      obtain ⟨middle, first, remaining⟩ := done
      rw [ih remaining, adds l item middle first, List.append_assoc, List.flatMap_cons]

end ApiSecurityPlatform.Theory
