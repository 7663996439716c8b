/-
# Theory.Triple -- what holds before and after code that writes and may raise

`Triple P x Q E`: from a state with `P`, a run of `x` that finishes with `a` ends in a state with
`Q a`, and one that raises in a state with `E`.  There is one rule for each construct of `Tx`.
-/
import ApiSecurityPlatform.Theory.Transaction

namespace ApiSecurityPlatform.Theory

set_option autoImplicit false

namespace Tx

variable {ε σ α β : Type}

/-- How a run ended. -/
def Ended (Q : α → σ → Prop) (E : σ → Prop) : Except ε α × σ → Prop
  | (.ok a, t) => Q a t
  | (.error _, t) => E t

def Triple (P : σ → Prop) (x : Tx ε σ α) (Q : α → σ → Prop) (E : σ → Prop) : Prop := ∀ s, P s → Ended Q E (x s)

variable {P P' : σ → Prop} {Q Q' : α → σ → Prop} {R : β → σ → Prop} {E E' : σ → Prop} {x : Tx ε σ α}

theorem Ended.mono {r : Except ε α × σ} (ended : Ended Q E r) (finished : ∀ a t, Q a t → Q' a t)
    (raised : ∀ t, E t → E' t) : Ended Q' E' r := by
  obtain ⟨e | a, t⟩ := r
  · exact raised t ended
  · exact finished a t ended

theorem Triple.mono (holds : Triple P x Q E) (before : ∀ s, P' s → P s) (finished : ∀ a t, Q a t → Q' a t)
    (raised : ∀ t, E t → E' t) : Triple P' x Q' E' := fun s here => (holds s (before s here)).mono finished raised

theorem Triple.pre (holds : Triple P x Q E) (before : ∀ s, P' s → P s) : Triple P' x Q E :=
  holds.mono before (fun _ _ post => post) fun _ post => post

theorem Triple.post (holds : Triple P x Q E) (finished : ∀ a t, Q a t → Q' a t) : Triple P x Q' E :=
  holds.mono (fun _ pre => pre) finished fun _ post => post

theorem triple_pure {a : α} (holds : ∀ s, P s → Q a s) : Triple P (pure a : Tx ε σ α) Q E := fun s here => holds s here

theorem triple_raise {e : ε} (holds : ∀ s, P s → E s) : Triple P (raise e : Tx ε σ α) Q E := fun s here => holds s here

theorem triple_modify {f : σ → σ} {Q : Unit → σ → Prop} (holds : ∀ s, P s → Q () (f s)) :
    Triple P (modify f : Tx ε σ Unit) Q E := fun s here => holds s here

theorem triple_bind {f : α → Tx ε σ β} (first : Triple P x Q E) (next : ∀ a, Triple (Q a) (f a) R E) :
    Triple P (x >>= f) R E := by
  intro s here
  have ended := first s here
  rw [bind_apply]
  generalize x s = r at ended
  obtain ⟨e | a, t⟩ := r
  · exact ended
  · exact next a t ended

theorem triple_refuse {p : Prop} [Decidable p] {e : ε} (raised : ∀ s, P s → E s) :
    Triple P (refuse p e : Tx ε σ Unit) (fun _ s => P s ∧ ¬ p) E := by
  unfold refuse
  split
  · exact triple_raise raised
  · next free => exact triple_pure fun s here => ⟨here, free⟩

theorem triple_when {p : Prop} [Decidable p] {x : Tx ε σ Unit} {Q : Unit → σ → Prop}
    (then_ : p → Triple P x Q E) (else_ : ∀ s, P s → ¬ p → Q () s) : Triple P (when p x) Q E := by
  unfold when
  split
  · next holds => exact then_ holds
  · next free => exact triple_pure fun s here => else_ s here free

theorem triple_attempt {Q : Except ε α → σ → Prop}
    (holds : Triple P x (fun a => Q (.ok a)) fun t => ∀ e, Q (.error e) t) : Triple P (attempt x) Q E := by
  intro s here
  have ended := holds s here
  show Q (x s).1 (x s).2
  generalize x s = r at ended
  obtain ⟨e | a, t⟩ := r
  · exact ended e
  · exact ended

/-- What is known may be used. -/
theorem triple_fact {φ : Prop} (each : φ → Triple P x Q E) : Triple (fun s => P s ∧ φ) x Q E := fun s here =>
  each here.2 s here.1

theorem triple_get {Q : σ → σ → Prop} (holds : ∀ s, P s → Q s s) : Triple P (get : Tx ε σ σ) Q E := fun s here =>
  holds s here

/-- **The loop rule.** -/
theorem triple_forM {γ : Type} {f : γ → Tx ε σ PUnit} {items : List γ} (each : ∀ item ∈ items, Triple P (f item) (fun _ => P) E) :
    Triple P (items.forM f) (fun _ => P) E := by
  induction items with
  | nil => exact triple_pure fun _ here => here
  | cons item rest ih =>
      refine triple_bind (each item List.mem_cons_self) fun _ => ih fun other mem => ?_
      exact each other (List.mem_cons_of_mem item mem)

end Tx

end ApiSecurityPlatform.Theory
