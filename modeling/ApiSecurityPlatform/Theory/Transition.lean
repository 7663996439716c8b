/-
# Theory.Transition -- labelled runs, invariants and latches; machines with outputs

A `System` is an initial predicate and a labelled step relation.  A `Run` is a
finite sequence of steps with its trace of labels, newest label last, so a fact
about "what has happened so far" is a fact about the trace and needs no history
field in the state.

* `Run.preserves`: a predicate that every step preserves holds along a run;
* `Run.countP_le_latch`: a label that can only fire while a latch is open, and
  closes it for good, fires at most once;
* `Run.restrict`: a run whose every step meets a condition is a run of the system
  with only such steps;
* `ofStep`, `Run.of_foldlM`, `Run.of_foldl`: the system of a step function, and its computed
  runs;
* `Simulation.run_map`: a step-wise simulation maps runs to runs.

Two implementations of one interface are two `Machine`s that read the same inputs.  If related states give the same output
exactly under a condition, and stay related under it, then the outputs are the same exactly when the condition holds at
every step (`Machine.outputs_eq_iff`).
-/
import Mathlib.Data.List.Induction

namespace ApiSecurityPlatform.Theory

set_option autoImplicit false

universe u v w x

/-- A labelled transition system. -/
structure System (σ : Type u) (α : Type v) where
  init : σ → Prop
  step : σ → α → σ → Prop

namespace System

variable {σ : Type u} {α : Type v} {τ : Type w} {β : Type x}

/-- A finite run with its trace, the newest label last. -/
inductive Run (T : System σ α) : σ → List α → σ → Prop where
  | refl (s : σ) : Run T s [] s
  | snoc {s t u : σ} {trace : List α} {a : α} (run : Run T s trace t) (last : T.step t a u) :
      Run T s (trace ++ [a]) u

/-- A state some run from an initial state ends in. -/
def Reachable (T : System σ α) (s : σ) : Prop :=
  ∃ s₀ trace, T.init s₀ ∧ T.Run s₀ trace s

namespace Run

variable {T : System σ α}

theorem append {s t u : σ} {l m : List α} (first : T.Run s l t) (second : T.Run t m u) :
    T.Run s (l ++ m) u := by
  induction second with
  | refl => simpa using first
  | snoc _ last ih => simpa [← List.append_assoc] using ih.snoc last

theorem single {s t : σ} {a : α} (step : T.step s a t) : T.Run s [a] t := by
  simpa using (Run.refl s).snoc step

theorem cons {s t u : σ} {a : α} {trace : List α} (step : T.step s a t) (run : T.Run t trace u) :
    T.Run s (a :: trace) u := by
  simpa using (single step).append run

/-- Cut a run after any prefix of its trace. -/
theorem split {s u : σ} {l m : List α} (run : T.Run s (l ++ m) u) :
    ∃ t, T.Run s l t ∧ T.Run t m u := by
  induction m using List.reverseRecOn generalizing u with
  | nil => exact ⟨u, by simpa using run, .refl u⟩
  | append_singleton m a ih =>
      rw [← List.append_assoc] at run
      generalize hk : l ++ m ++ [a] = k at run
      cases run with
      | refl => simp at hk
      | snoc run last =>
          obtain ⟨same, hlast⟩ := List.append_inj' hk rfl
          cases hlast
          subst same
          obtain ⟨t, before, after⟩ := ih run
          exact ⟨t, before, after.snoc last⟩

/-- The step that produced a given occurrence of a label. -/
theorem split_at {s u : σ} {l m : List α} {a : α} (run : T.Run s (l ++ a :: m) u) :
    ∃ t t', T.Run s l t ∧ T.step t a t' ∧ T.Run t' m u := by
  obtain ⟨t, before, rest⟩ := split run
  rw [← List.singleton_append] at rest
  obtain ⟨t', one, after⟩ := split rest
  generalize hk : [a] = k at one
  cases one with
  | refl => simp at hk
  | snoc nothing step =>
      rw [← List.nil_append [a]] at hk
      obtain ⟨same, hlast⟩ := List.append_inj' hk rfl
      cases hlast
      subst same
      generalize hn : ([] : List α) = n at nothing
      cases nothing with
      | refl => exact ⟨_, t', before, step, after⟩
      | snoc => simp at hn

/-- A predicate every step preserves is preserved by every run. -/
theorem preserves {I : σ → Prop} (keep : ∀ s a t, I s → T.step s a t → I t)
    {s t : σ} {trace : List α} (run : T.Run s trace t) (start : I s) : I t := by
  induction run with
  | refl => exact start
  | snoc _ last ih => exact keep _ _ _ ih last

/-- As `preserves`, for a predicate that is preserved only under an invariant. -/
theorem preserves_under {I J : σ → Prop} (keepI : ∀ s a t, I s → T.step s a t → I t)
    (keepJ : ∀ s a t, I s → J s → T.step s a t → J t)
    {s t : σ} {trace : List α} (run : T.Run s trace t) (startI : I s) (startJ : J s) :
    J t := by
  have both := run.preserves (I := fun s => I s ∧ J s)
    (fun s a t inv step => ⟨keepI s a t inv.1 step, keepJ s a t inv.1 inv.2 step⟩)
    ⟨startI, startJ⟩
  exact both.2

/-- **The latch rule.**  Under an invariant `I`, let `C` (closed) be preserved by
every step, and let a label satisfying `fires` only occur on a step from an open
state to a closed one.  Then the label occurs at most once in a run, and not at
all once the latch is closed. -/
theorem countP_le_latch {I C : σ → Prop} {fires : α → Bool}
    (keep : ∀ s a t, I s → T.step s a t → I t)
    (stay : ∀ s a t, I s → C s → T.step s a t → C t)
    (fire : ∀ s a t, I s → T.step s a t → fires a = true → ¬ C s ∧ C t)
    {s t : σ} {trace : List α} (run : T.Run s trace t) (start : I s) :
    trace.countP fires ≤ 1 ∧ (0 < trace.countP fires → ¬ C s ∧ C t) := by
  induction run with
  | refl => simp
  | @snoc t u trace a run last ih =>
      obtain ⟨bound, cause⟩ := ih
      have inv : I t := run.preserves keep start
      rw [List.countP_append, List.countP_singleton]
      by_cases hit : fires a = true
      · obtain ⟨opened, shut⟩ := fire t a u inv last hit
        have none_before : trace.countP fires = 0 := by
          by_contra some_before
          exact opened (cause (Nat.pos_of_ne_zero some_before)).2
        have start_open : ¬ C s := fun h =>
          opened (run.preserves_under keep stay start h)
        simp only [none_before, hit, if_true]
        exact ⟨Nat.le_refl _, fun _ => ⟨start_open, shut⟩⟩
      · simp only [hit, if_false, Nat.add_zero, Bool.false_eq_true]
        exact ⟨bound, fun pos => ⟨(cause pos).1, stay t a u inv (cause pos).2 last⟩⟩

/-- Two labels guarded by mutually exclusive latches never share a run: once the
first has fired, the second cannot. -/
theorem not_mem_of_closed {I C : σ → Prop} {fires : α → Prop}
    (keep : ∀ s a t, I s → T.step s a t → I t)
    (stay : ∀ s a t, I s → C s → T.step s a t → C t)
    (fire : ∀ s a t, I s → T.step s a t → fires a → ¬ C s)
    {s t : σ} {trace : List α} (run : T.Run s trace t) (start : I s) (shut : C s) :
    ∀ a ∈ trace, ¬ fires a := by
  induction run with
  | refl => simp
  | @snoc t u trace a run last ih =>
      intro b member hit
      rcases List.mem_append.1 member with old | new
      · exact ih b old hit
      · obtain rfl := List.mem_singleton.1 new
        exact fire t b u (run.preserves keep start) last hit
          (run.preserves_under keep stay start shut)

end Run

/-- The system whose steps all satisfy `P`, a condition on the state before the
step and its label. -/
def restrict (T : System σ α) (P : σ → α → Prop) : System σ α where
  init := T.init
  step s a t := T.step s a t ∧ P s a

/-- `Q` holds of every step of a run, wherever the run is cut. -/
def Always (T : System σ α) (s : σ) (trace : List α) (u : σ) (Q : σ → α → σ → Prop) : Prop :=
  ∀ before a after t t', trace = before ++ a :: after → T.Run s before t → T.step t a t' →
    T.Run t' after u → Q t a t'

namespace Always

variable {T : System σ α} {Q : σ → α → σ → Prop} {s u : σ} {trace : List α}

theorem init {t : σ} {a : α} (always : T.Always s (trace ++ [a]) u Q) (last : T.step t a u) :
    T.Always s trace t Q := by
  intro before b after v v' cut first step rest
  refine always before b (after ++ [a]) v v' ?_ first step (rest.snoc last)
  rw [cut, List.append_assoc, List.cons_append]

/-- The steps before any cut of the run satisfy `Q` as well. -/
theorem before {before after : List α} {a : α} {t t' : σ} (always : T.Always s trace u Q)
    (cut : trace = before ++ a :: after) (step : T.step t a t') (rest : T.Run t' after u) :
    T.Always s before t Q := by
  intro front b back v v' cut' first step' rest'
  refine always front b (back ++ a :: after) v v' ?_ first step' ?_
  · rw [cut, cut', List.append_assoc, List.cons_append]
  · exact rest'.append (Run.cons step rest)

end Always

/-- A run whose every step satisfies `P` is a run of the restricted system. -/
theorem Run.restrict {T : System σ α} {P : σ → α → Prop} {s u : σ} {trace : List α}
    (run : T.Run s trace u) (always : T.Always s trace u fun t a _ => P t a) :
    (T.restrict P).Run s trace u := by
  induction run with
  | refl => exact .refl s
  | @snoc t u trace a run last ih =>
      have met : P t a := always trace a [] t u rfl run last (.refl u)
      exact (ih (always.init last)).snoc ⟨last, met⟩

/-- The system of a partial step function. -/
def ofStep (init : σ → Prop) (step : σ → α → Option σ) : System σ α where
  init := init
  step s a t := step s a = some t

/-- What the step function computes on a list of labels is a run. -/
theorem Run.of_foldlM {init : σ → Prop} {step : σ → α → Option σ} {s t : σ} {trace : List α}
    (computed : trace.foldlM step s = some t) : (ofStep init step).Run s trace t := by
  induction trace generalizing s with
  | nil =>
      obtain rfl : s = t := Option.some.inj computed
      exact .refl s
  | cons a rest ih =>
      rw [List.foldlM_cons] at computed
      obtain ⟨middle, first, remaining⟩ := Option.bind_eq_some_iff.1 computed
      exact Run.cons first (ih remaining)

theorem Run.of_foldl {T : System σ α} {f : σ → α → σ} (steps : ∀ s a, T.step s a (f s a)) (s : σ) (trace : List α) :
    T.Run s trace (trace.foldl f s) := by
  induction trace generalizing s with
  | nil => exact .refl s
  | cons a rest ih => exact Run.cons (steps s a) (ih (f s a))

theorem Run.exists_of_map (init : σ → Prop) (step : σ → α → Option σ) (s : σ) (trace : List α)
    (f : σ → τ) (x : τ) (computed : (trace.foldlM step s).map f = some x) :
    ∃ t, (ofStep init step).Run s trace t ∧ f t = x := by
  obtain ⟨t, done, shown⟩ := Option.map_eq_some_iff.1 computed
  exact ⟨t, Run.of_foldlM done, shown⟩

/-- As `exists_of_map`, with one more step after the run. -/
theorem Run.exists_step (init : σ → Prop) (step : σ → α → Option σ) (s : σ) (trace : List α) (a : α)
    (f : σ → τ) (x y : τ)
    (computed : (trace.foldlM step s).bind (fun t => (step t a).map fun u => (f t, f u)) = some (x, y)) :
    ∃ t u, (ofStep init step).Run s trace t ∧ (ofStep init step).step t a u ∧ f t = x ∧ f u = y := by
  obtain ⟨t, done, last⟩ := Option.bind_eq_some_iff.1 computed
  obtain ⟨u, stepped, shown⟩ := Option.map_eq_some_iff.1 last
  obtain ⟨before, after⟩ := Prod.mk.inj shown
  exact ⟨t, u, Run.of_foldlM done, stepped, before, after⟩

theorem Reachable.invariant {T : System σ α} {I : σ → Prop} (start : ∀ s, T.init s → I s)
    (keep : ∀ s a t, I s → T.step s a t → I t) {s : σ} (reach : T.Reachable s) : I s := by
  obtain ⟨s₀, trace, initial, run⟩ := reach
  exact run.preserves keep (start s₀ initial)

/-- A forward simulation: every concrete step is one abstract step, with the
label `label` gives it, or leaves the abstract state alone. -/
structure Simulation (T : System σ α) (U : System τ β) where
  view : σ → τ
  label : α → Option β
  init : ∀ s, T.init s → U.init (view s)
  step : ∀ s a t, T.step s a t → (∃ b, label a = some b ∧ U.step (view s) b (view t)) ∨
    (label a = none ∧ view t = view s)

namespace Simulation

variable {T : System σ α} {U : System τ β}

/-- A concrete run is an abstract run over the labels that survive. -/
theorem run_map (R : Simulation T U) {s t : σ} {trace : List α} (run : T.Run s trace t) :
    U.Run (R.view s) (trace.filterMap R.label) (R.view t) := by
  induction run with
  | refl => exact .refl _
  | snoc run last ih =>
      rw [List.filterMap_append]
      rcases R.step _ _ _ last with ⟨b, named, step⟩ | ⟨silent, same⟩
      · simpa [List.filterMap, named] using ih.snoc step
      · simpa [List.filterMap, silent, same] using ih

end Simulation

end System

/-! ## Deterministic machines with outputs -/

/-- A deterministic machine: each input moves the state and gives an output. -/
structure Machine (σ : Type u) (ι : Type v) (ο : Type w) where
  step : σ → ι → σ × ο

namespace Machine

variable {σ : Type u} {ι : Type v} {ο : Type w} {τ : Type x}

/-- The outputs on a sequence of inputs. -/
def outputs (M : Machine σ ι ο) : σ → List ι → List ο
  | _, [] => []
  | s, i :: rest => (M.step s i).2 :: M.outputs (M.step s i).1 rest

/-- A condition on the two states and the input holds at every step. -/
def Along (M : Machine σ ι ο) (N : Machine τ ι ο) (C : σ → τ → ι → Prop) : σ → τ → List ι → Prop
  | _, _, [] => True
  | s, t, i :: rest => C s t i ∧ Along M N C (M.step s i).1 (N.step t i).1 rest

/-- **Equal outputs, step by step.** -/
theorem outputs_eq_iff {M : Machine σ ι ο} {N : Machine τ ι ο} {R : σ → τ → Prop}
    {C : σ → τ → ι → Prop}
    (agree : ∀ s t i, R s t → ((M.step s i).2 = (N.step t i).2 ↔ C s t i))
    (keep : ∀ s t i, R s t → C s t i → R (M.step s i).1 (N.step t i).1)
    {s : σ} {t : τ} (related : R s t) (inputs : List ι) :
    M.outputs s inputs = N.outputs t inputs ↔ Along M N C s t inputs := by
  induction inputs generalizing s t with
  | nil => exact ⟨fun _ => trivial, fun _ => rfl⟩
  | cons i rest ih =>
      simp only [outputs, Along, List.cons.injEq]
      constructor
      · rintro ⟨first, others⟩
        have holds := (agree s t i related).1 first
        exact ⟨holds, (ih (keep s t i related holds)).1 others⟩
      · rintro ⟨holds, others⟩
        exact ⟨(agree s t i related).2 holds, (ih (keep s t i related holds)).2 others⟩

end Machine

end ApiSecurityPlatform.Theory
