/-
# Theory.Window -- half-open windows, and answers up to a deadline

A window is open from its start up to its end, if it has one; with an end that is not after the
start it never opens.  From an instant on it changes at most where `next` says: up to there it is as
it was (`open_stable`), and there it is not (`open_changes`).

An optional answer that is computed at an instant `lapses`: from there it is the same up to a
deadline, and nothing from the deadline on.  Steps of a computation lapse one by one, and a
computation at the first of their deadlines (`Lapses.bind`); a deadline of `⊤` is none.
-/
import Mathlib.Order.MinMax
import Mathlib.Order.WithBot

namespace ApiSecurityPlatform.Theory

set_option autoImplicit false

universe u v w

structure Window (τ : Type u) where
  start : τ
  stop : Option τ

namespace Window

variable {τ : Type u} [LinearOrder τ] (w : Window τ)

def Open (t : τ) : Prop := w.start ≤ t ∧ ∀ s, w.stop = some s → t < s

/-- It is over, or never opens. -/
def Past (now : τ) : Prop := ∃ s, w.stop = some s ∧ s ≤ max w.start now

instance (now : τ) : Decidable (w.Past now) :=
  match stop : w.stop with
  | none => isFalse fun ⟨_, other, _⟩ => nomatch stop.symm.trans other
  | some s => decidable_of_iff (s ≤ max w.start now)
      ⟨fun beyond => ⟨s, stop, beyond⟩, fun ⟨_, same, beyond⟩ => Option.some.inj (stop.symm.trans same) ▸ beyond⟩

/-- The next instant the window changes at. -/
def next (now : τ) : Option τ :=
  if w.Past now then none
  else if now < w.start then some w.start
  else w.stop

variable {w}

theorem Past.not_open {now t : τ} (past : w.Past now) (later : now ≤ t) : ¬ w.Open t := by
  obtain ⟨s, stop, beyond⟩ := past
  rintro ⟨started, before⟩
  exact absurd (before s stop) (not_lt.2 (beyond.trans (max_le started later)))

/-- **A window is as it was** up to its next change. -/
theorem open_stable {now t : τ} (later : now ≤ t) (before : ∀ d, w.next now = some d → t < d) : w.Open t ↔ w.Open now := by
  unfold next at before
  split at before
  next past => exact iff_of_false (past.not_open later) (past.not_open le_rfl)
  next ahead =>
      split at before
      next early => exact iff_of_false (fun opened => not_lt.2 opened.1 (before _ rfl)) fun opened => not_lt.2 opened.1 early
      next late =>
          have started := not_lt.1 late
          refine iff_of_true ⟨started.trans later, before⟩ ⟨started, fun s stop => ?_⟩
          exact lt_of_le_of_lt later (before s stop)

/-- **A window changes** at its next change. -/
theorem open_changes {now d : τ} (next_ : w.next now = some d) : ¬ (w.Open d ↔ w.Open now) := by
  unfold next at next_
  split at next_
  next => cases next_
  next ahead =>
      split at next_
      next early =>
          obtain rfl := Option.some.inj next_
          intro same
          refine not_lt.2 (same.1 ⟨le_rfl, fun s stop => ?_⟩).1 early
          by_contra beyond
          exact ahead ⟨s, stop, (not_lt.1 beyond).trans (le_max_left _ _)⟩
      next late =>
          intro same
          have now_ : w.Open now := by
            refine ⟨not_lt.1 late, fun s stop => ?_⟩
            by_contra beyond
            exact ahead ⟨s, stop, (not_lt.1 beyond).trans (le_max_right _ _)⟩
          exact lt_irrefl d ((same.2 now_).2 d next_)

theorem Past.next_eq_none {now : τ} (past : w.Past now) : w.next now = none := by
  rw [next, if_pos past]

/-- A window that ends and is not over changes by its end. -/
theorem next_le_stop {now s : τ} (ahead : ¬ w.Past now) (stop : w.stop = some s) : ∃ d, w.next now = some d ∧ d ≤ s := by
  unfold next
  rw [if_neg ahead]
  split
  next early =>
      refine ⟨w.start, rfl, ?_⟩
      by_contra beyond
      exact ahead ⟨s, stop, (le_of_not_ge beyond).trans (le_max_left _ _)⟩
  next late => exact ⟨s, stop, le_rfl⟩

end Window

/-! ## Answers up to a deadline -/

variable {τ : Type u} [LinearOrder τ] {α : Type v} {β : Type w}

structure Lapses (x : τ → Option α) (start : τ) (a : α) (deadline : WithTop τ) : Prop where
  holds : ∀ t, start ≤ t → (t : WithTop τ) < deadline → x t = some a
  lapsed : ∀ t, start ≤ t → deadline ≤ t → x t = none

namespace Lapses

theorem const (start : τ) (a : α) : Lapses (fun _ => some a) start a ⊤ where
  holds _ _ _ := rfl
  lapsed _ _ above := absurd (lt_of_le_of_lt above (WithTop.coe_lt_top _)) (lt_irrefl _)

theorem cast {x : τ → Option α} {start : τ} {a : α} {d e : WithTop τ} (same : d = e) (lapses : Lapses x start a d) :
    Lapses x start a e := same ▸ lapses

/-- A step that does not depend on the time, once it has been taken. -/
theorem of_always {x : τ → Option α} {start : τ} {a : α} (always : ∀ t, start ≤ t → x t = some a) : Lapses x start a ⊤ where
  holds t later _ := always t later
  lapsed _ _ above := absurd (lt_of_le_of_lt above (WithTop.coe_lt_top _)) (lt_irrefl _)

/-- A step that is open up to an instant. -/
theorem of_window {x : τ → Option α} {start until_ : τ} {a : α} (holds : ∀ t, start ≤ t → t < until_ → x t = some a)
    (lapsed : ∀ t, until_ ≤ t → x t = none) : Lapses x start a until_ where
  holds t later before := holds t later (WithTop.coe_lt_coe.1 before)
  lapsed t _ after := lapsed t (WithTop.coe_le_coe.1 after)

/-- **One step after another**: the first deadline ends both. -/
theorem bind {x : τ → Option α} {f : τ → α → Option β} {start : τ} {a : α} {b : β} {d e : WithTop τ}
    (first : Lapses x start a d) (second : Lapses (fun t => f t a) start b e) :
    Lapses (fun t => (x t).bind (f t)) start b (min d e) where
  holds t later before := by
    rw [lt_min_iff] at before
    rw [first.holds t later before.1, Option.bind_some]
    exact second.holds t later before.2
  lapsed t later after := by
    rcases lt_or_ge (t : WithTop τ) d with before | beyond
    · rw [first.holds t later before, Option.bind_some]
      exact second.lapsed t later ((min_le_iff.1 after).resolve_left (not_le.2 before))
    · rw [first.lapsed t later beyond, Option.bind_none]

/-- It is within its deadline where it starts. -/
theorem start_lt {x : τ → Option α} {start : τ} {a : α} {d : WithTop τ} (lapses : Lapses x start a d)
    (held : x start = some a) : (start : WithTop τ) < d := by
  by_contra past
  rw [lapses.lapsed start le_rfl (not_lt.1 past)] at held
  cases held

end Lapses

/-- The first of some deadlines. -/
def first : List τ → WithTop τ
  | [] => ⊤
  | t :: rest => min (t : WithTop τ) (first rest)

theorem first_append (xs ys : List τ) : first (xs ++ ys) = min (first xs) (first ys) := by
  induction xs with
  | nil => exact (min_eq_right le_top).symm
  | cons t rest ih => rw [List.cons_append, first, first, ih, min_assoc]

theorem foldl_min_eq_first (t : τ) (times : List τ) : ((times.foldl min t : τ) : WithTop τ) = min (t : WithTop τ) (first times) := by
  induction times generalizing t with
  | nil => exact (min_eq_left le_top).symm
  | cons s rest ih => rw [List.foldl_cons, ih, WithTop.coe_min, first, min_assoc]

end ApiSecurityPlatform.Theory
