/-
# Theory.Marks -- the limits a run meets

A run leaves a mark wherever a limit could stop it.  `within` says which marks are beyond the
limits, and with what they are refused; `free` refuses none.  The marks of the free run decide
about the limited one (`Stops`): it ends with the refusal of the first mark that is beyond the
limits, and if there is none it is the free run.  The rules go along the program.
-/
import ApiSecurityPlatform.Theory.Transaction

namespace ApiSecurityPlatform.Theory

set_option autoImplicit false

namespace Marks

variable {ε μ α β : Type}

def mark (within : μ → Option ε) (m : μ) : Tx ε (List μ) Unit := fun seen =>
  (match within m with
    | some e => .error e
    | none => .ok (), seen ++ [m])

/-- No limits. -/
def free : μ → Option ε := fun _ => none

/-- `limited` is `unlimited`, stopped at its first mark beyond the limits. -/
def Stops (within : μ → Option ε) (limited unlimited : Tx ε (List μ) α) : Prop :=
  ∀ seen, ∃ new, (unlimited seen).2 = seen ++ new ∧
    match new.findSome? within with
    | some e => (limited seen).1 = .error e
    | none => limited seen = unlimited seen

section Rules

variable {within : μ → Option ε}

theorem fst_bind_of_error {x : Tx ε (List μ) α} {f : α → Tx ε (List μ) β} {seen : List μ} {e : ε}
    (raised : (x seen).1 = .error e) : ((x >>= f) seen).1 = .error e := by
  cases ran : x seen with
  | mk result marks =>
  rw [ran] at raised
  obtain rfl : result = .error e := raised
  exact congrArg Prod.fst (Tx.bind_of_error ran)

theorem stops_pure (a : α) : Stops within (pure a) (pure a) :=
  fun seen => ⟨[], (List.append_nil seen).symm, rfl⟩

theorem stops_raise (e : ε) : Stops within (Tx.raise e : Tx ε (List μ) α) (Tx.raise e) :=
  fun seen => ⟨[], (List.append_nil seen).symm, rfl⟩

theorem stops_lift (x : Except ε α) : Stops within (Tx.lift x : Tx ε (List μ) α) (Tx.lift x) :=
  fun seen => ⟨[], (List.append_nil seen).symm, rfl⟩

theorem stops_refuse (p : Prop) [Decidable p] (e : ε) :
    Stops within (Tx.refuse p e : Tx ε (List μ) Unit) (Tx.refuse p e) := by
  unfold Tx.refuse
  split
  · exact stops_raise e
  · exact stops_pure ()

theorem stops_mark (m : μ) : Stops within (mark within m) (mark free m) := by
  intro seen
  refine ⟨[m], rfl, ?_⟩
  rw [List.findSome?_singleton]
  cases refused : within m with
  | some e => simp only [mark, refused]
  | none => simp only [mark, refused, free]

theorem stops_bind {x x' : Tx ε (List μ) α} {f f' : α → Tx ε (List μ) β} (first : Stops within x x')
    (second : ∀ a, Stops within (f a) (f' a)) : Stops within (x >>= f) (x' >>= f') := by
  intro seen
  obtain ⟨new, grown, verdict⟩ := first seen
  cases ran : x' seen with
  | mk result marks =>
  rw [ran] at grown verdict
  obtain rfl : marks = seen ++ new := grown
  cases result with
  | error e =>
      rw [Tx.bind_of_error ran]
      refine ⟨new, rfl, ?_⟩
      cases refused : new.findSome? within with
      | some e' =>
          rw [refused] at verdict
          exact fst_bind_of_error verdict
      | none =>
          rw [refused] at verdict
          exact Tx.bind_of_error verdict
  | ok a =>
      rw [Tx.bind_of_ok ran]
      obtain ⟨more, grown', verdict'⟩ := second a (seen ++ new)
      refine ⟨new ++ more, by rw [grown', List.append_assoc], ?_⟩
      rw [List.findSome?_append]
      cases refused : new.findSome? within with
      | some e' =>
          rw [refused] at verdict
          exact fst_bind_of_error verdict
      | none =>
          rw [refused] at verdict
          rw [Option.none_or, Tx.bind_of_ok verdict]
          exact verdict'

theorem yields_mark {E : ε → Prop} {m : μ} (allowed : ∀ e, within m = some e → E e) :
    Tx.Yields (fun _ => True) E (mark within m) := by
  intro seen
  cases refused : within m with
  | some e => simpa only [mark, refused] using allowed e refused
  | none => simp only [mark, refused]

end Rules

end Marks

end ApiSecurityPlatform.Theory
