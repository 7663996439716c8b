/-
# Theory.Memo -- a cache of a fallible function

A loop that computes a function once for each key and keeps the results succeeds just where the
function does at every key (`fill_total`), and afterwards has at each of them what the function
gives (`fill_lookup`), however often a key came up.
-/
import ApiSecurityPlatform.Theory.Fallible

namespace ApiSecurityPlatform.Theory.Memo

set_option autoImplicit false

variable {ε κ β : Type} [BEq κ] [LawfulBEq κ] (f : κ → Except ε β)

/-- `if key not in cache: cache[key] = f(key)`. -/
def ensure (cache : List (κ × β)) (key : κ) : Except ε (List (κ × β)) :=
  match cache.lookup key with
  | some _ => .ok cache
  | none => do
      let b ← f key
      return (key, b) :: cache

/-- What is kept is what the function gives. -/
def Sound (cache : List (κ × β)) : Prop := ∀ key b, cache.lookup key = some b → f key = .ok b

variable {f}

omit [LawfulBEq κ] in
theorem sound_nil : Sound f [] := fun _ _ found => nomatch found

theorem ensure_ok {cache cache' : List (κ × β)} {key : κ} (sound : Sound f cache) (done : ensure f cache key = .ok cache') :
    Sound f cache' ∧ (∃ b, f key = .ok b) ∧ (∃ b, cache'.lookup key = some b) ∧
      ∀ other, (∃ b, cache.lookup other = some b) → ∃ b, cache'.lookup other = some b := by
  unfold ensure at done
  split at done
  next b kept =>
      obtain rfl := Except.ok.inj done
      exact ⟨sound, ⟨b, sound key b kept⟩, ⟨b, kept⟩, fun _ found => found⟩
  next =>
      rw [bind_ok] at done
      obtain ⟨b, computed, done⟩ := done
      obtain rfl := Except.ok.inj done
      refine ⟨fun other c found => ?_, ⟨b, computed⟩, ⟨b, by rw [List.lookup_cons, beq_self_eq_true]⟩, fun other found => ?_⟩
      · rw [List.lookup_cons] at found
        cases same : other == key with
        | true =>
            rw [same] at found
            obtain rfl := Option.some.inj found
            rw [eq_of_beq same, computed]
        | false =>
            rw [same] at found
            exact sound other c found
      · rw [List.lookup_cons]
        cases other == key with
        | true => exact ⟨b, rfl⟩
        | false => exact found

/-- Afterwards the cache has what the function gives, at each key. -/
theorem fill_lookup {keys : List κ} {cache cache' : List (κ × β)} (sound : Sound f cache)
    (done : keys.foldlM (ensure f) cache = .ok cache') :
    Sound f cache' ∧ (∀ key ∈ keys, ∃ b, cache'.lookup key = some b) ∧
      ∀ other, (∃ b, cache.lookup other = some b) → ∃ b, cache'.lookup other = some b := by
  induction keys generalizing cache with
  | nil =>
      obtain rfl := Except.ok.inj done
      exact ⟨sound, (fun _ mem => nomatch mem), fun _ found => found⟩
  | cons key rest ih =>
      rw [List.foldlM_cons, bind_ok] at done
      obtain ⟨middle, first, done⟩ := done
      obtain ⟨sound', -, here, stays⟩ := ensure_ok sound first
      obtain ⟨sound'', others, stays'⟩ := ih sound' done
      refine ⟨sound'', List.forall_mem_cons.2 ⟨stays' key here, others⟩, fun other found => stays' other (stays other found)⟩

/-- **The loop succeeds just where the function does.** -/
theorem fill_total {keys : List κ} {cache : List (κ × β)} (sound : Sound f cache) :
    (∃ cache', keys.foldlM (ensure f) cache = .ok cache') ↔ ∀ key ∈ keys, ∃ b, f key = .ok b := by
  induction keys generalizing cache with
  | nil => exact iff_of_true ⟨cache, rfl⟩ fun _ mem => nomatch mem
  | cons key rest ih =>
      rw [List.forall_mem_cons]
      constructor
      · rintro ⟨cache', done⟩
        rw [List.foldlM_cons, bind_ok] at done
        obtain ⟨middle, first, done⟩ := done
        obtain ⟨sound', computed, -⟩ := ensure_ok sound first
        exact ⟨computed, (ih sound').1 ⟨cache', done⟩⟩
      · rintro ⟨⟨b, computed⟩, others⟩
        have first : ∃ middle, ensure f cache key = .ok middle := by
          unfold ensure
          split
          · exact ⟨cache, rfl⟩
          · exact ⟨(key, b) :: cache, bind_ok.2 ⟨b, computed, rfl⟩⟩
        obtain ⟨middle, first⟩ := first
        obtain ⟨cache', done⟩ := (ih (ensure_ok sound first).1).2 others
        refine ⟨cache', ?_⟩
        rw [List.foldlM_cons, bind_ok]
        exact ⟨middle, first, done⟩

end ApiSecurityPlatform.Theory.Memo
