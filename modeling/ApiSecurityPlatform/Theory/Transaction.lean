/-
# Theory.Transaction -- code that writes and may raise

`Tx ε σ α` reads and writes a state and may raise; what it wrote before it raised stays
written.  `savepoint` takes the writes of its body back when the body raises.  A proof about
a run that finished peels it apart with `bind_ok`; what a run that raised leaves behind is
decided by where the savepoints stand (`Rejects`).
-/
import Mathlib.Init

namespace ApiSecurityPlatform.Theory

set_option autoImplicit false

universe u

def Tx (ε σ α : Type) := σ → Except ε α × σ

namespace Tx

variable {ε σ α β : Type}

instance : Monad (Tx ε σ) where
  pure a := fun s => (.ok a, s)
  bind x f := fun s =>
    match x s with
    | (.ok a, t) => f a t
    | (.error e, t) => (.error e, t)

def get : Tx ε σ σ := fun s => (.ok s, s)

def modify (f : σ → σ) : Tx ε σ Unit := fun s => (.ok (), f s)

def raise (e : ε) : Tx ε σ α := fun s => (.error e, s)

/-- `if p: raise e`. -/
def refuse (p : Prop) [Decidable p] (e : ε) : Tx ε σ Unit := if p then raise e else pure ()

/-- `if p: x`. -/
def when (p : Prop) [Decidable p] (x : Tx ε σ Unit) : Tx ε σ Unit := if p then x else pure ()

/-- A computation that writes nothing. -/
def lift (x : Except ε α) : Tx ε σ α := fun s => (x, s)

/-- `with db.begin_nested():`, and the rollback of a whole transaction. -/
def savepoint (x : Tx ε σ α) : Tx ε σ α := fun s =>
  match x s with
  | (.ok a, t) => (.ok a, t)
  | (.error e, _) => (.error e, s)

/-- `try: x`, with what came of it. -/
def attempt (x : Tx ε σ α) : Tx ε σ (Except ε α) := fun s => (.ok (x s).1, (x s).2)

theorem bind_apply (x : Tx ε σ α) (f : α → Tx ε σ β) (s : σ) :
    (x >>= f) s =
      match x s with
      | (.ok a, t) => f a t
      | (.error e, t) => (.error e, t) := rfl

theorem bind_of_ok {x : Tx ε σ α} {f : α → Tx ε σ β} {s t : σ} {a : α} (ran : x s = (.ok a, t)) :
    (x >>= f) s = f a t := by
  rw [bind_apply, ran]

theorem bind_of_error {x : Tx ε σ α} {f : α → Tx ε σ β} {s t : σ} {e : ε} (raised : x s = (.error e, t)) :
    (x >>= f) s = (.error e, t) := by
  rw [bind_apply, raised]

theorem raises_of_not_ok {x : Tx ε σ α} {s : σ} (never : ∀ a t, x s ≠ (.ok a, t)) : ∃ e, (x s).1 = .error e := by
  cases ran : x s with
  | mk result t =>
      cases result with
      | ok a => exact absurd ran (never a t)
      | error e => exact ⟨e, rfl⟩

theorem bind_bind {γ : Type} (x : Tx ε σ α) (f : α → Tx ε σ β) (g : β → Tx ε σ γ) :
    x >>= f >>= g = x >>= fun a => f a >>= g := by
  funext s
  cases ran : x s with
  | mk result t =>
      cases result with
      | ok a =>
          rw [bind_of_ok ran, bind_apply, bind_of_ok ran]
          rfl
      | error e => rw [bind_of_error ran, bind_of_error (bind_of_error ran)]

theorem lift_ok_bind (a : α) (f : α → Tx ε σ β) : (lift (.ok a) >>= f) = f a := rfl

theorem refuse_false_bind {p : Prop} [Decidable p] (e : ε) (f : Unit → Tx ε σ β) (passed : ¬ p) :
    (refuse p e >>= f) = f () := by
  rw [refuse, if_neg passed]
  rfl

theorem bind_ok {x : Tx ε σ α} {f : α → Tx ε σ β} {s u : σ} {b : β} :
    (x >>= f) s = (.ok b, u) ↔ ∃ a t, x s = (.ok a, t) ∧ f a t = (.ok b, u) := by
  show (match x s with
    | (.ok a, t) => f a t
    | (.error e, t) => (.error e, t)) = (.ok b, u) ↔ _
  generalize x s = r
  obtain ⟨e | a, t⟩ := r
  · simp
  · simp [and_assoc]

@[simp]
theorem pure_ok {a b : α} {s u : σ} : (pure a : Tx ε σ α) s = (.ok b, u) ↔ a = b ∧ s = u := by
  show (Except.ok a, s) = _ ↔ _
  simp

@[simp]
theorem get_ok {s t u : σ} : (get : Tx ε σ σ) s = (.ok t, u) ↔ s = t ∧ s = u := by
  show (Except.ok s, s) = _ ↔ _
  simp

@[simp]
theorem modify_ok {f : σ → σ} {s u : σ} {a : Unit} : (modify f : Tx ε σ Unit) s = (.ok a, u) ↔ f s = u := by
  show (Except.ok (), f s) = _ ↔ _
  simp

@[simp]
theorem raise_ok {e : ε} {s u : σ} {a : α} : (raise e : Tx ε σ α) s = (.ok a, u) ↔ False := by
  show (Except.error e, s) = _ ↔ _
  simp

@[simp]
theorem refuse_ok {p : Prop} [Decidable p] {e : ε} {s u : σ} {a : Unit} :
    (refuse p e : Tx ε σ Unit) s = (.ok a, u) ↔ ¬ p ∧ s = u := by
  unfold refuse
  by_cases holds : p
  · simp [holds]
  · simp [holds]

theorem when_ok {p : Prop} [Decidable p] {x : Tx ε σ Unit} {s u : σ} {a : Unit} :
    when p x s = (.ok a, u) ↔ (p ∧ x s = (.ok a, u)) ∨ (¬ p ∧ s = u) := by
  unfold when
  by_cases holds : p
  · simp [holds]
  · simp [holds]

@[simp]
theorem lift_ok {x : Except ε α} {s u : σ} {a : α} : (lift x : Tx ε σ α) s = (.ok a, u) ↔ x = .ok a ∧ s = u := by
  show (x, s) = _ ↔ _
  simp

@[simp]
theorem savepoint_ok {x : Tx ε σ α} {s u : σ} {a : α} : savepoint x s = (.ok a, u) ↔ x s = (.ok a, u) := by
  unfold savepoint
  generalize x s = r
  obtain ⟨e | b, t⟩ := r
  · simp
  · simp

theorem attempt_ok {x : Tx ε σ α} {s u : σ} {r : Except ε α} : attempt x s = (.ok r, u) ↔ x s = (r, u) := by
  show (Except.ok (x s).1, (x s).2) = _ ↔ _
  rw [Prod.mk.injEq, Except.ok.injEq, Prod.ext_iff]

/-! ### One step at a time -/

variable {f : α → Tx ε σ β} {s u : σ} {b : β}

theorem get_bind_ok {f : σ → Tx ε σ β} : (get >>= f) s = (.ok b, u) ↔ f s s = (.ok b, u) := Iff.rfl

theorem modify_bind_ok {g : σ → σ} {f : Unit → Tx ε σ β} :
    (modify g >>= f) s = (.ok b, u) ↔ f () (g s) = (.ok b, u) := Iff.rfl

theorem refuse_bind_ok {p : Prop} [Decidable p] {e : ε} {f : Unit → Tx ε σ β} :
    (refuse p e >>= f) s = (.ok b, u) ↔ ¬ p ∧ f () s = (.ok b, u) := by
  rw [bind_ok]
  constructor
  · rintro ⟨_, _, passed, rest⟩
    obtain ⟨free, rfl⟩ := refuse_ok.1 passed
    exact ⟨free, rest⟩
  · rintro ⟨passed, rest⟩
    exact ⟨(), s, refuse_ok.2 ⟨passed, rfl⟩, rest⟩

theorem refuse_bind {p : Prop} [Decidable p] {e : ε} {f : Unit → Tx ε σ β} (s : σ) :
    (refuse p e >>= f) s = if p then (.error e, s) else f () s := by
  unfold refuse
  split <;> rfl

theorem lift_bind_ok {x : Except ε α} : (lift x >>= f) s = (.ok b, u) ↔ ∃ a, x = .ok a ∧ f a s = (.ok b, u) := by
  simp [bind_ok, and_assoc]

/-- A run that raises leaves the state as it was. -/
def Rejects (x : Tx ε σ α) : Prop := ∀ s e u, x s = (.error e, u) → u = s

theorem rejects_savepoint (x : Tx ε σ α) : Rejects (savepoint x) := by
  intro s e u raised
  unfold savepoint at raised
  split at raised
  · nomatch raised
  · exact (Prod.mk.inj raised).2.symm

theorem rejects_raise (e : ε) : Rejects (raise e : Tx ε σ α) :=
  fun _ _ _ raised => (Prod.mk.inj raised).2.symm

/-! ### How a run ends -/

/-- Whatever the state: a run that finishes does so with `Q`, one that raises with `E`. -/
def Yields (Q : α → Prop) (E : ε → Prop) (x : Tx ε σ α) : Prop :=
  ∀ s, match (x s).1 with
    | .ok a => Q a
    | .error e => E e

section Yields

variable {Q : α → Prop} {E : ε → Prop}

theorem Yields.mono {R : α → Prop} {x : Tx ε σ α} (holds : Yields Q E x) (weaker : ∀ a, Q a → R a) : Yields R E x := by
  intro s
  have here := holds s
  cases result : (x s).1 with
  | ok a =>
      rw [result] at here
      exact weaker a here
  | error e =>
      rw [result] at here
      exact here

theorem yields_pure {a : α} (holds : Q a) : Yields Q E (pure a : Tx ε σ α) := fun _ => holds

theorem yields_raise {e : ε} (holds : E e) : Yields Q E (raise e : Tx ε σ α) := fun _ => holds

theorem yields_lift {x : Except ε α} (finished : ∀ a, x = .ok a → Q a) (raised : ∀ e, x = .error e → E e) :
    Yields Q E (lift x : Tx ε σ α) := by
  intro s
  cases x with
  | ok a => exact finished a rfl
  | error e => exact raised e rfl

theorem yields_refuse {p : Prop} [Decidable p] {e : ε} (holds : E e) :
    Yields (fun _ => ¬ p) E (refuse p e : Tx ε σ Unit) := by
  unfold refuse
  split
  · exact yields_raise holds
  · next free => exact yields_pure free

theorem yields_bind {R : β → Prop} {x : Tx ε σ α} {f : α → Tx ε σ β} (first : Yields Q E x)
    (second : ∀ a, Q a → Yields R E (f a)) : Yields R E (x >>= f) := by
  intro s
  have holds := first s
  cases ran : x s with
  | mk result t =>
  rw [ran] at holds
  cases result with
  | ok a =>
      rw [bind_of_ok ran]
      exact second a holds t
  | error e =>
      rw [bind_of_error ran]
      exact holds

end Yields

/-! ### What a run does to the state -/

/-- Whatever the state: a run takes it along `rel`, and ends with `Q` or raises with `E`. -/
def Ensures (rel : σ → σ → Prop) (Q : α → Prop) (E : ε → Prop) (x : Tx ε σ α) : Prop :=
  ∀ s, rel s (x s).2 ∧ match (x s).1 with
    | .ok a => Q a
    | .error e => E e

/-- Whatever comes of it, a run takes the state along `rel`. -/
abbrev Advances (rel : σ → σ → Prop) (x : Tx ε σ α) : Prop := Ensures rel (fun _ => True) (fun _ => True) x

section Ensures

variable {rel : σ → σ → Prop} {Q : α → Prop} {E : ε → Prop}

theorem Ensures.along {x : Tx ε σ α} (ensures : Ensures rel Q E x) {s t : σ} {r : Except ε α} (ran : x s = (r, t)) :
    rel s t := by
  have along := (ensures s).1
  rwa [ran] at along

theorem Ensures.mono {x : Tx ε σ α} {R : α → Prop} {F : ε → Prop} (ensures : Ensures rel Q E x) (weaker : ∀ a, Q a → R a)
    (weaker' : ∀ e, E e → F e) : Ensures rel R F x := by
  intro s
  obtain ⟨along, holds⟩ := ensures s
  refine ⟨along, ?_⟩
  revert holds
  cases (x s).1 with
  | ok a => exact weaker a
  | error e => exact weaker' e

theorem Ensures.advances {x : Tx ε σ α} (ensures : Ensures rel Q E x) : Advances rel x :=
  ensures.mono (fun _ _ => trivial) fun _ _ => trivial

theorem Advances.of_rel {x : Tx ε σ α} (along : ∀ s, rel s (x s).2) : Advances rel x := by
  intro s
  refine ⟨along s, ?_⟩
  cases (x s).1 with
  | ok a => trivial
  | error e => trivial

theorem ensures_modify {f : σ → σ} (along : ∀ s, rel s (f s)) :
    Ensures rel (fun _ => True) E (modify f : Tx ε σ Unit) := fun s => ⟨along s, trivial⟩

theorem advances_attempt {x : Tx ε σ α} (advances : Advances rel x) : Advances rel (attempt x) :=
  fun s => ⟨(advances s).1, trivial⟩

section Refl

variable [Std.Refl rel]

theorem ensures_pure {a : α} (holds : Q a) : Ensures rel Q E (pure a : Tx ε σ α) := fun s => ⟨Std.Refl.refl s, holds⟩

theorem ensures_raise {e : ε} (holds : E e) : Ensures rel Q E (raise e : Tx ε σ α) := fun s => ⟨Std.Refl.refl s, holds⟩

theorem advances_lift (x : Except ε α) : Advances rel (lift x : Tx ε σ α) :=
  .of_rel fun s => Std.Refl.refl s

theorem ensures_refuse {p : Prop} [Decidable p] {e : ε} (holds : p → E e) :
    Ensures rel (fun _ => ¬ p) E (refuse p e : Tx ε σ Unit) := by
  unfold refuse
  split
  · next refused => exact ensures_raise (holds refused)
  · next free => exact ensures_pure free

theorem advances_when {p : Prop} [Decidable p] {x : Tx ε σ Unit} (advances : Advances rel x) :
    Advances rel (when p x) := by
  unfold when
  split
  · exact advances
  · exact ensures_pure trivial

end Refl

theorem ensures_bind [Trans rel rel rel] {R : β → Prop} {x : Tx ε σ α} {f : α → Tx ε σ β} (first : Ensures rel Q E x)
    (second : ∀ a, Q a → Ensures rel R E (f a)) : Ensures rel R E (x >>= f) := by
  intro s
  have here := first s
  cases ran : x s with
  | mk result t =>
  rw [ran] at here
  obtain ⟨along, holds⟩ := here
  cases result with
  | ok a =>
      rw [bind_of_ok ran]
      exact ⟨Trans.trans along (second a holds t).1, (second a holds t).2⟩
  | error e =>
      rw [bind_of_error ran]
      exact ⟨along, holds⟩

theorem advances_bind [Trans rel rel rel] {x : Tx ε σ α} {f : α → Tx ε σ β} (first : Advances rel x)
    (second : ∀ a, Advances rel (f a)) : Advances rel (x >>= f) := ensures_bind first fun a _ => second a

end Ensures

end Tx

end ApiSecurityPlatform.Theory
