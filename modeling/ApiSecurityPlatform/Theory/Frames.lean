/-
# Theory.Frames -- frames read one after another

A log is read from its beginning, frame after frame, until nothing is left or a frame is
refused.  `next` reads one frame from what lies ahead, in the state that the frames before it
left.  `readFrames` gives the state behind the leading frames, and how the reading ended.

* `readFrames_step`: it is `while rest: ...`;
* `Frames`: data that is read whole, whatever lies behind it;
* `readFrames_append`: behind such data the reading goes on as if it began there;
* `readFrames_keeps`: what every frame keeps is kept by the whole reading.
-/
import Mathlib.Data.List.Basic

namespace ApiSecurityPlatform.Theory

set_option autoImplicit false

variable {σ ε β : Type} (next : σ → List β → Except ε (σ × List β))

/-- The fuel is the length of the data: a frame takes one item at least. -/
def readUpTo : Nat → σ → List β → Except ε Unit × σ
  | 0, s, _ => (.ok (), s)
  | _ + 1, s, [] => (.ok (), s)
  | fuel + 1, s, b :: rest =>
      match next s (b :: rest) with
      | .error e => (.error e, s)
      | .ok (t, left) => readUpTo fuel t left

def readFrames (s : σ) (data : List β) : Except ε Unit × σ := readUpTo next data.length s data

/-- A frame leaves less than there was. -/
def Consumes : Prop := ∀ s data t left, next s data = .ok (t, left) → left.length < data.length

/-- `data` is read as whole frames between the states, and no further. -/
inductive Frames (s : σ) : List β → σ → Prop where
  | none : Frames s [] s
  | more {t u : σ} {data frame : List β} (before : Frames s data t) (some_ : frame ≠ [])
      (last : ∀ behind, next t (frame ++ behind) = .ok (u, behind)) : Frames s (data ++ frame) u

variable {next}

theorem readUpTo_enough (consumes : Consumes next) {fuel more : Nat} {s : σ} {data : List β}
    (enough : data.length ≤ fuel) (le : fuel ≤ more) : readUpTo next more s data = readUpTo next fuel s data := by
  induction fuel generalizing more s data with
  | zero =>
      obtain rfl := List.eq_nil_of_length_eq_zero (Nat.le_zero.1 enough)
      cases more <;> rfl
  | succ fuel ih =>
      obtain ⟨more, rfl⟩ : ∃ n, more = n + 1 := ⟨more - 1, by omega⟩
      cases data with
      | nil => rfl
      | cons b rest =>
          rw [readUpTo, readUpTo]
          cases read : next s (b :: rest) with
          | error e => rfl
          | ok out =>
              have shorter := consumes s (b :: rest) out.1 out.2 read
              rw [List.length_cons] at enough shorter
              exact ih (by omega) (by omega)

theorem readFrames_nil (s : σ) : readFrames next s [] = (.ok (), s) := rfl

/-- One round of the loop. -/
theorem readFrames_step (consumes : Consumes next) {s : σ} {data : List β} (some_ : data ≠ []) :
    readFrames next s data =
      match next s data with
      | .error e => (.error e, s)
      | .ok (t, left) => readFrames next t left := by
  obtain ⟨b, rest, rfl⟩ := List.exists_cons_of_ne_nil some_
  rw [readFrames, List.length_cons, readUpTo]
  cases read : next s (b :: rest) with
  | error e => rfl
  | ok out =>
      have shorter := consumes s (b :: rest) out.1 out.2 read
      rw [List.length_cons] at shorter
      exact readUpTo_enough consumes (Nat.le_refl _) (by omega)

/-- **The reading goes on behind whole frames as if it began there.** -/
theorem readFrames_append (consumes : Consumes next) {s t : σ} {data : List β} (frames : Frames next s data t)
    (behind : List β) : readFrames next s (data ++ behind) = readFrames next t behind := by
  induction frames generalizing behind with
  | none => rfl
  | @more t u data frame before some_ last ih =>
      rw [List.append_assoc, ih, readFrames_step consumes (by simp [some_]), last]

theorem readFrames_whole (consumes : Consumes next) {s t : σ} {data : List β} (frames : Frames next s data t) :
    readFrames next s data = (.ok (), t) := by
  have read := readFrames_append consumes frames []
  rwa [List.append_nil] at read

/-- The reading ends without an error just where the data is whole frames. -/
theorem frames_of_readFrames (consumes : Consumes next)
    (whole : ∀ s data t left, next s data = .ok (t, left) →
      ∃ frame, data = frame ++ left ∧ ∀ behind, next s (frame ++ behind) = .ok (t, behind))
    {s t : σ} {data : List β} (read : readFrames next s data = (.ok (), t)) : Frames next s data t := by
  suffices from_ : ∀ (n : Nat) (front rest : List β) (u : σ), rest.length = n → Frames next s front u →
      readFrames next u rest = (.ok (), t) → Frames next s (front ++ rest) t from
    from_ data.length [] data s rfl .none read
  intro n
  induction n using Nat.strongRecOn with
  | ind n ih =>
      intro front rest u size before read
      cases empty : rest with
      | nil =>
          rw [empty, readFrames_nil] at read
          obtain rfl := congrArg Prod.snd read
          rwa [List.append_nil]
      | cons b more =>
          rw [← empty]
          rw [readFrames_step consumes (by rw [empty]; exact List.cons_ne_nil b more)] at read
          cases one : next u rest with
          | error e => rw [one] at read; cases congrArg Prod.fst read
          | ok out =>
              obtain ⟨v, left⟩ := out
              rw [one] at read
              dsimp only at read
              have shorter := consumes u rest v left one
              obtain ⟨frame, split, again⟩ := whole u rest v left one
              have some_ : frame ≠ [] := by
                rintro rfl
                rw [split, List.nil_append] at shorter
                exact Nat.lt_irrefl _ shorter
              rw [split, ← List.append_assoc]
              exact ih left.length (by omega) (front ++ frame) left v rfl (.more before some_ again) read

/-- **What every frame keeps, the whole reading keeps**, however it ends. -/
theorem readFrames_keeps {R : σ → σ → Prop} (refl : ∀ s, R s s) (trans : ∀ s t u, R s t → R t u → R s u)
    (keeps : ∀ s data t left, next s data = .ok (t, left) → R s t) (s : σ) (data : List β) :
    R s (readFrames next s data).2 := by
  suffices upTo : ∀ fuel s data, R s (readUpTo next fuel s data).2 from upTo data.length s data
  intro fuel
  induction fuel with
  | zero => exact fun s _ => refl s
  | succ fuel ih =>
      intro s data
      cases data with
      | nil => exact refl s
      | cons b rest =>
          rw [readUpTo]
          cases read : next s (b :: rest) with
          | error e => exact refl s
          | ok out => exact trans s out.1 _ (keeps s (b :: rest) out.1 out.2 read) (ih out.1 out.2)

end ApiSecurityPlatform.Theory
