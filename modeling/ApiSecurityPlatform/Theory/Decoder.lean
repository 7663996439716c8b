/-
# Theory.Decoder -- decoding a delimited stream a bounded piece at a time

A `Format` says what comes out of a stream that begins with some bytes, where no stream begins so,
and when it has ended.  A `Decoder` is fed chunks and asked for so many bytes of output at most;
what it could not use comes back.  `Decodes` is what a caller may rely on, and leaves it to the
decoder how much it gives at a time, as long as it gives something or uses something.

A decoder may have taken in corrupt bytes before all that comes out in front of them was asked for,
and raises once there is just room for that.  So what a stream comes to under a limit is decided by
the format (`Whole`, `Overflows`, `Refused`), except where the bytes turn out corrupt with one item
more than the limit (`Verges`): there both an error and the item may come first.
-/
import Mathlib.Data.List.Infix

namespace ApiSecurityPlatform.Theory

set_option autoImplicit false

/-- A delimited stream format. -/
structure Format (β : Type) where
  /-- What comes out of a stream that begins so, up to where it is corrupt. -/
  output : List β → List β
  /-- No stream begins so. -/
  corrupt : List β → Prop
  ended : List β → Prop
  output_nil : output [] = []
  output_mono : ∀ {p q}, p <+: q → output p <+: output q
  corrupt_mono : ∀ {p q}, corrupt p → p <+: q → corrupt q ∧ output q = output p
  /-- Nothing that follows the end is part of the stream. -/
  ended_mono : ∀ {p q}, ended p → p <+: q → ¬ corrupt q ∧ output q = output p ∧ (ended q → q = p)
  not_ended_nil : ¬ ended []

/-- A decoder with the attributes a caller reads. -/
structure Decoder (ε β σ : Type) where
  fresh : σ
  decompress : σ → List β → Int → Except ε (List β × σ)
  flush : σ → Int → Except ε (List β)
  unconsumedTail : σ → List β
  unusedData : σ → List β
  eof : σ → Bool

namespace Decoder

variable {ε β σ : Type} (D : Decoder ε β σ)

/-- What a call has left over of its input. -/
def leftover (s : σ) : List β := if D.eof s then D.unusedData s else D.unconsumedTail s

/-- The states of a decoder that is asked for a positive number of bytes, with what it has used
and what it has given. -/
inductive Fed : σ → List β → List β → Prop where
  | fresh : Fed D.fresh [] []
  | call {s s' : σ} {used given chunk part out : List β} {n : Int} (before : Fed s used given)
      (running : D.eof s = false) (some_ : chunk ≠ []) (positive : 0 < n)
      (answer : D.decompress s chunk n = .ok (out, s')) (split : chunk = part ++ D.leftover s') :
      Fed s' (used ++ part) (given ++ out)

/-- A decoder of a format. -/
structure Decodes (G : Format β) : Prop where
  running : D.eof D.fresh = false
  /-- No more output than was asked for. -/
  bounded : ∀ {s s' : σ} {used given chunk out : List β} {n : Int}, D.Fed s used given → D.eof s = false → chunk ≠ [] →
    0 < n → D.decompress s chunk n = .ok (out, s') → (out.length : Int) ≤ n
  /-- What was not used is returned, in `unused_data` after the end. -/
  returned : ∀ {s s' : σ} {used given chunk out : List β} {n : Int}, D.Fed s used given → D.eof s = false → chunk ≠ [] →
    0 < n → D.decompress s chunk n = .ok (out, s') → D.leftover s' <:+ chunk ∧
      (D.eof s' = true → D.unconsumedTail s' = [] ∨ D.unconsumedTail s' = D.unusedData s')
  /-- Something is used or given. -/
  progress : ∀ {s s' : σ} {used given chunk out : List β} {n : Int}, D.Fed s used given → D.eof s = false → chunk ≠ [] →
    0 < n → D.decompress s chunk n = .ok (out, s') → D.eof s' = false → D.unconsumedTail s' ≠ chunk ∨ out ≠ []
  /-- Only what comes out of the stream is given. -/
  sound : ∀ {s : σ} {used given : List β}, D.Fed s used given → given <+: G.output used
  ended : ∀ {s : σ} {used given : List β}, D.Fed s used given → D.eof s = true → G.ended used ∧ G.output used = given
  /-- A call that uses its whole chunk and could have given more has given all there is, and the stream goes on. -/
  drained : ∀ {s s' : σ} {used given chunk out : List β} {n : Int}, D.Fed s used given → D.eof s = false → chunk ≠ [] →
    0 < n → D.decompress s chunk n = .ok (out, s') → D.eof s' = false → D.unconsumedTail s' = [] → (out.length : Int) < n →
      ¬ G.ended (used ++ chunk) ∧ G.output (used ++ chunk) = given ++ out
  /-- An error is raised for bytes no stream begins with, where there was room for what comes out before. -/
  raises : ∀ {s : σ} {used given chunk : List β} {n : Int} {e : ε}, D.Fed s used given → D.eof s = false → chunk ≠ [] →
    0 < n → D.decompress s chunk n = .error e →
      G.corrupt (used ++ chunk) ∧ ((G.output (used ++ chunk)).length : Int) ≤ given.length + n
  flushed : ∀ {s : σ} {used given : List β} {n : Int}, D.Fed s used given → D.eof s = true → 0 < n → D.flush s n = .ok []

end Decoder

/-! ## What a stream comes to -/

namespace Format

variable {β : Type} (G : Format β) (limit : Nat)

/-- One stream and nothing after it. -/
def Whole (body d : List β) : Prop := G.ended body ∧ G.output body = d ∧ d.length ≤ limit

/-- More than the limit comes out. -/
def Overflows (body : List β) : Prop := limit < (G.output body).length

/-- The bytes are not one stream, and what comes out is within the limit. -/
def Refused (body : List β) : Prop := ¬ G.ended body ∧ (G.output body).length ≤ limit

/-- The bytes turn out corrupt when one item more than the limit has come out. -/
def Verges (body : List β) : Prop := G.corrupt body ∧ (G.output body).length = limit + 1

variable {G limit} {body d : List β}

theorem Whole.not_overflows (whole : G.Whole limit body d) : ¬ G.Overflows limit body := by
  obtain ⟨-, rfl, small⟩ := whole
  exact Nat.not_lt.2 small

theorem Whole.not_refused (whole : G.Whole limit body d) : ¬ G.Refused limit body := fun refused => refused.1 whole.1

theorem Whole.not_verges (whole : G.Whole limit body d) : ¬ G.Verges limit body := fun verges =>
  (G.ended_mono whole.1 List.prefix_rfl).1 verges.1

theorem Overflows.not_refused (overflows : G.Overflows limit body) : ¬ G.Refused limit body := fun refused =>
  Nat.not_lt.2 refused.2 overflows

/-- Corrupt bytes after no more than one item beyond the limit. -/
theorem refused_or_verges {p : List β} (corrupt : G.corrupt p) (start : p <+: body)
    (near : (G.output p).length ≤ limit + 1) : G.Refused limit body ∨ G.Verges limit body := by
  obtain ⟨corrupt', same⟩ := G.corrupt_mono corrupt start
  rw [← same] at near
  rcases Nat.lt_or_eq_of_le near with within | verge
  · exact .inl ⟨fun ended => (G.ended_mono ended List.prefix_rfl).1 corrupt', Nat.le_of_lt_succ within⟩
  · exact .inr ⟨corrupt', verge⟩

end Format

end ApiSecurityPlatform.Theory
