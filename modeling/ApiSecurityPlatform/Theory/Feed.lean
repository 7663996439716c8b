/-
# Theory.Feed -- reading a stream piece by piece

A reader asks a stream for at most so many items and gets some of the next ones, or an
error; how many it gets is not its choice.  A `Feed` is such a stream with everything that
is not the reader's choice in it, so a statement about every feed is one about every
fragmentation.  `exact` reads on until it has a given number of items.  A reader that is put
together from others reads just the texts that `Reads` puts together from theirs.
-/
import ApiSecurityPlatform.Theory.Transaction

namespace ApiSecurityPlatform.Theory

set_option autoImplicit false

structure Feed (ε β : Type) where
  /-- What has not been read. -/
  rest : List β
  /-- The most that read number `k` gives, less one. -/
  size : Nat → Nat
  /-- The error of read number `k`. -/
  fault : Nat → Option ε
  reads : Nat

namespace Feed

variable {ε β : Type}

/-- One read; at the end of the stream it gives nothing. -/
def read (maximum : Nat) : Tx ε (Feed ε β) (List β) := fun s =>
  match s.fault s.reads with
  | some e => (.error e, { s with reads := s.reads + 1 })
  | none =>
      let n := min maximum (s.size s.reads + 1)
      (.ok (s.rest.take n), { s with rest := s.rest.drop n, reads := s.reads + 1 })

/-- Reads of `ask n` items while `n` are missing; a read that gives nothing raises `e`. -/
def exactLoop (ask : Nat → Nat) (e : ε) : Nat → Nat → Tx ε (Feed ε β) (List β)
  | _, 0 => pure []
  | 0, _ + 1 => Tx.raise e
  | fuel + 1, missing + 1 => do
      let chunk ← read (ask (missing + 1))
      Tx.refuse (chunk.length = 0) e
      let others ← exactLoop ask e fuel (missing + 1 - chunk.length)
      pure (chunk ++ others)

/-- Exactly `size` items.  Every read brings one at least, so the fuel is enough. -/
def exact (ask : Nat → Nat) (e : ε) (size : Nat) : Tx ε (Feed ε β) (List β) := exactLoop ask e size size

/-- `data` was read between two states of a feed. -/
structure Took (s t : Feed ε β) (data : List β) : Prop where
  rest : s.rest = data ++ t.rest
  size : t.size = s.size
  fault : t.fault = s.fault
  reads : s.reads ≤ t.reads

/-- No error is left in the feed. -/
def Silent (s : Feed ε β) : Prop := ∀ k, s.reads ≤ k → s.fault k = none

/-- A reader that asks for something, and for no more than it needs. -/
def Modest (ask : Nat → Nat) : Prop := ∀ n, ask (n + 1) ≤ n + 1 ∧ 0 < ask (n + 1)

theorem Took.refl (s : Feed ε β) : Took s s [] := ⟨rfl, rfl, rfl, Nat.le_refl _⟩

theorem Took.trans {s t u : Feed ε β} {a b : List β} (first : Took s t a) (second : Took t u b) : Took s u (a ++ b) :=
  ⟨by rw [first.rest, second.rest, List.append_assoc], second.size.trans first.size, second.fault.trans first.fault,
    Nat.le_trans first.reads second.reads⟩

theorem Took.silent {s t : Feed ε β} {data : List β} (took : Took s t data) (silent : s.Silent) : t.Silent := by
  intro k later
  rw [took.fault]
  exact silent k (Nat.le_trans took.reads later)

/-! ## At most so many -/

section Within

variable {α γ : Type}

/-- However it ends, no more than `bound` items are read. -/
def Within (x : Tx ε (Feed ε β) α) (bound : Nat) : Prop := ∀ s, ∃ data, Took s (x s).2 data ∧ data.length ≤ bound

theorem within_pure (a : α) (bound : Nat) : Within (pure a : Tx ε (Feed ε β) α) bound := fun s =>
  ⟨[], .refl s, Nat.zero_le _⟩

theorem within_raise (e : ε) (bound : Nat) : Within (Tx.raise e : Tx ε (Feed ε β) α) bound := fun s =>
  ⟨[], .refl s, Nat.zero_le _⟩

theorem Within.mono {x : Tx ε (Feed ε β) α} {bound bound' : Nat} (within : Within x bound) (le : bound ≤ bound') :
    Within x bound' := fun s =>
  have ⟨data, took, small⟩ := within s
  ⟨data, took, Nat.le_trans small le⟩

/-- What the rest may read depends on what came. -/
theorem within_bind {x : Tx ε (Feed ε β) α} {f : α → Tx ε (Feed ε β) γ} {bound : Nat}
    (each : ∀ s, ∃ data, Took s (x s).2 data ∧ data.length ≤ bound ∧
      ∀ a, (x s).1 = .ok a → Within (f a) (bound - data.length)) : Within (x >>= f) bound := by
  intro s
  obtain ⟨data, took, small, next⟩ := each s
  rw [Tx.bind_apply]
  generalize x s = r at took next
  obtain ⟨e | a, t⟩ := r
  · exact ⟨data, took, small⟩
  · obtain ⟨data', took', small'⟩ := next a rfl t
    exact ⟨data ++ data', took.trans took', by rw [List.length_append]; omega⟩

theorem within_then {x : Tx ε (Feed ε β) α} {f : α → Tx ε (Feed ε β) γ} {bound bound' : Nat} (first : Within x bound)
    (next : ∀ a, Within (f a) bound') : Within (x >>= f) (bound + bound') := by
  refine within_bind fun s => ?_
  obtain ⟨data, took, small⟩ := first s
  exact ⟨data, took, by omega, fun a _ => (next a).mono (by omega)⟩

theorem within_refuse {p : Prop} [Decidable p] {e : ε} {f : Unit → Tx ε (Feed ε β) γ} {bound : Nat}
    (next : Within (f ()) bound) : Within (Tx.refuse p e >>= f) bound := by
  intro s
  by_cases holds : p
  · have ended : (Tx.refuse p e >>= f) s = (.error e, s) := by
      rw [Tx.refuse, if_pos holds]
      rfl
    rw [ended]
    exact ⟨[], .refl s, Nat.zero_le _⟩
  · have goes : (Tx.refuse p e >>= f) s = f () s := by
      rw [Tx.refuse, if_neg holds]
      rfl
    rw [goes]
    exact next s

end Within

/-! ## One read -/

theorem read_took {maximum : Nat} {s t : Feed ε β} {r : Except ε (List β)} (ran : read maximum s = (r, t)) :
    ∃ data, Took s t data ∧ data.length ≤ maximum ∧ ∀ d, r = .ok d → d = data := by
  unfold read at ran
  split at ran
  · obtain ⟨rfl, rfl⟩ := Prod.mk.inj ran
    exact ⟨[], ⟨rfl, rfl, rfl, Nat.le_succ _⟩, Nat.zero_le _, fun d same => nomatch same⟩
  · obtain ⟨rfl, rfl⟩ := Prod.mk.inj ran
    refine ⟨_, ⟨(List.take_append_drop _ _).symm, rfl, rfl, Nat.le_succ _⟩, ?_, fun d same => (Except.ok.inj same).symm⟩
    rw [List.length_take]
    omega

/-- A read of a feed without errors gives some of what is left, and something if it can. -/
theorem read_silent {maximum : Nat} {s : Feed ε β} (silent : s.Silent) :
    ∃ data t, read maximum s = (.ok data, t) ∧ Took s t data ∧ data.length ≤ maximum ∧
      (data = [] → maximum = 0 ∨ s.rest = []) := by
  have quiet := silent s.reads (Nat.le_refl _)
  have ran : read maximum s = (.ok (s.rest.take (min maximum (s.size s.reads + 1))),
      { s with rest := s.rest.drop (min maximum (s.size s.reads + 1)), reads := s.reads + 1 }) := by
    rw [read, quiet]
  refine ⟨_, _, ran, ⟨(List.take_append_drop _ _).symm, rfl, rfl, Nat.le_succ _⟩, ?_, fun empty => ?_⟩
  · rw [List.length_take]
    omega
  · rcases List.take_eq_nil_iff.1 empty with none_ | rest
    · left
      omega
    · exact .inr rest

/-! ## Exactly so many -/

variable {ask : Nat → Nat} {e : ε}

theorem exactLoop_ok {fuel size : Nat} {s t : Feed ε β} {data : List β} (modest : Modest ask)
    (ran : exactLoop ask e fuel size s = (.ok data, t)) : Took s t data ∧ data.length = size := by
  induction fuel generalizing size s t data with
  | zero =>
      cases size with
      | zero =>
          obtain ⟨rfl, rfl⟩ := Tx.pure_ok.1 ran
          exact ⟨.refl s, rfl⟩
      | succ missing => exact (Tx.raise_ok.1 ran).elim
  | succ fuel ih =>
      cases size with
      | zero =>
          obtain ⟨rfl, rfl⟩ := Tx.pure_ok.1 ran
          exact ⟨.refl s, rfl⟩
      | succ missing =>
          obtain ⟨chunk, u, first, ran⟩ := Tx.bind_ok.1 ran
          obtain ⟨some_, ran⟩ := Tx.refuse_bind_ok.1 ran
          obtain ⟨others, t', later, done⟩ := Tx.bind_ok.1 ran
          obtain ⟨rfl, rfl⟩ := Tx.pure_ok.1 done
          obtain ⟨data, took, bound, same⟩ := read_took first
          obtain rfl := same chunk rfl
          obtain ⟨took', length⟩ := ih later
          have small := (modest missing).1
          refine ⟨took.trans took', ?_⟩
          rw [List.length_append, length]
          omega

theorem exactLoop_within {fuel size : Nat} (modest : Modest ask) : Within (exactLoop (β := β) ask e fuel size) size := by
  induction fuel generalizing size with
  | zero =>
      cases size with
      | zero => exact within_pure _ _
      | succ missing => exact within_raise _ _
  | succ fuel ih =>
      cases size with
      | zero => exact within_pure _ _
      | succ missing =>
          have small := (modest missing).1
          refine within_bind fun s => ?_
          obtain ⟨data, took, bound, same⟩ := @read_took ε β (ask (missing + 1)) s _ _ rfl
          refine ⟨data, took, by omega, fun chunk came => ?_⟩
          obtain rfl := same chunk came
          exact within_refuse (within_then ih fun others => within_pure _ 0)

theorem exactLoop_returns {fuel size : Nat} {s : Feed ε β} {front behind : List β} (modest : Modest ask)
    (silent : s.Silent) (enough : size ≤ fuel) (rest : s.rest = front ++ behind) (length : front.length = size) :
    ∃ t, exactLoop ask e fuel size s = (.ok front, t) ∧ Took s t front ∧ t.rest = behind := by
  induction fuel generalizing size s front with
  | zero =>
      obtain rfl : size = 0 := by omega
      obtain rfl := List.eq_nil_of_length_eq_zero length
      exact ⟨s, rfl, .refl s, rest⟩
  | succ fuel ih =>
      cases size with
      | zero =>
          obtain rfl := List.eq_nil_of_length_eq_zero length
          exact ⟨s, rfl, .refl s, rest⟩
      | succ missing =>
          obtain ⟨chunk, u, first, took, bound, something⟩ := @read_silent ε β (ask (missing + 1)) s silent
          have small := (modest missing).1
          have asked := (modest missing).2
          have some_ : chunk.length ≠ 0 := by
            intro empty
            rcases something (List.eq_nil_of_length_eq_zero empty) with zero | ended
            · omega
            · rw [rest] at ended
              rw [(List.append_eq_nil_iff.1 ended).1] at length
              cases length
          -- what came is the beginning of what was asked for
          have lead : chunk <+: front := by
            have one : chunk <+: front ++ behind := ⟨u.rest, by rw [← took.rest, rest]⟩
            exact List.prefix_of_prefix_length_le one (List.prefix_append front behind) (by omega)
          obtain ⟨others, rfl⟩ := lead
          have next : u.rest = others ++ behind := by
            have cut := took.rest
            rw [rest, List.append_assoc] at cut
            exact (List.append_cancel_left cut).symm
          have left : others.length = missing + 1 - chunk.length := by
            rw [List.length_append] at length
            omega
          obtain ⟨t, later, took', ended⟩ := ih (took.silent silent) (by omega) next left
          refine ⟨t, ?_, took.trans took', ended⟩
          refine Tx.bind_ok.2 ⟨chunk, u, first, Tx.refuse_bind_ok.2 ⟨some_, ?_⟩⟩
          exact Tx.bind_ok.2 ⟨others, t, later, Tx.pure_ok.2 ⟨rfl, rfl⟩⟩

/-- What `exact` returns is the next `size` items. -/
theorem exact_ok {size : Nat} {s t : Feed ε β} {data : List β} (modest : Modest ask)
    (ran : exact ask e size s = (.ok data, t)) : Took s t data ∧ data.length = size :=
  exactLoop_ok modest ran

/-- However it ends, `exact` has not read more than it was asked for. -/
theorem exact_within {size : Nat} (modest : Modest ask) : Within (exact (β := β) ask e size) size :=
  exactLoop_within modest

/-- **Whatever the fragmentation**, `exact` returns the next items of a feed without errors. -/
theorem exact_returns {s : Feed ε β} {front behind : List β} (modest : Modest ask) (silent : s.Silent)
    (rest : s.rest = front ++ behind) :
    ∃ t, exact ask e front.length s = (.ok front, t) ∧ Took s t front ∧ t.rest = behind :=
  exactLoop_returns modest silent (Nat.le_refl _) rest rfl

/-! ## Readers as relations -/

theorem Took.behind {s t : Feed ε β} {data behind : List β} (took : Took s t data) (rest : s.rest = data ++ behind) :
    t.rest = behind :=
  List.append_cancel_left (took.rest.symm.trans rest)

section Reads

variable {α γ : Type}

/-- `x` reads just the texts that `P` has for its result: what it returned it has read such a
text for, and where one lies ahead it returns, whatever the pieces. -/
structure Reads (x : Tx ε (Feed ε β) α) (P : α → List β → Prop) : Prop where
  sound : ∀ {s t : Feed ε β} {a : α}, x s = (.ok a, t) → ∃ data, Took s t data ∧ P a data
  complete : ∀ {s : Feed ε β} {a : α} {data behind : List β}, s.Silent → P a data → s.rest = data ++ behind →
    ∃ t, x s = (.ok a, t) ∧ Took s t data

theorem Reads.congr {x : Tx ε (Feed ε β) α} {P Q : α → List β → Prop} (reads : Reads x P)
    (same : ∀ a data, P a data ↔ Q a data) : Reads x Q where
  sound ran :=
    have ⟨data, took, holds⟩ := reads.sound ran
    ⟨data, took, (same _ data).1 holds⟩
  complete silent holds rest := reads.complete silent ((same _ _).2 holds) rest

theorem reads_pure (a : α) : Reads (pure a : Tx ε (Feed ε β) α) fun b data => a = b ∧ data = [] where
  sound {s t b} ran := by
    obtain ⟨rfl, rfl⟩ := Tx.pure_ok.1 ran
    exact ⟨[], .refl s, rfl, rfl⟩
  complete {s b data behind} silent holds rest := by
    obtain ⟨rfl, rfl⟩ := holds
    exact ⟨s, rfl, .refl s⟩

theorem reads_raise (e : ε) : Reads (Tx.raise e : Tx ε (Feed ε β) α) fun _ _ => False where
  sound ran := (Tx.raise_ok.1 ran).elim
  complete _ holds _ := holds.elim

theorem reads_lift (x : Except ε α) : Reads (Tx.lift x : Tx ε (Feed ε β) α) fun a data => x = .ok a ∧ data = [] where
  sound {s t a} ran := by
    obtain ⟨result, rfl⟩ := Tx.lift_ok.1 ran
    exact ⟨[], .refl s, result, rfl⟩
  complete {s a data behind} silent holds rest := by
    obtain ⟨result, rfl⟩ := holds
    exact ⟨s, Tx.lift_ok.2 ⟨result, rfl⟩, .refl s⟩

/-- One reader after another reads one text after another. -/
theorem reads_bind {x : Tx ε (Feed ε β) α} {f : α → Tx ε (Feed ε β) γ} {P : α → List β → Prop}
    {Q : α → γ → List β → Prop} (first : Reads x P) (next : ∀ a data, P a data → Reads (f a) (Q a)) :
    Reads (x >>= f) fun c data => ∃ a front back, P a front ∧ Q a c back ∧ data = front ++ back where
  sound {s t c} ran := by
    obtain ⟨a, u, ran₁, ran₂⟩ := Tx.bind_ok.1 ran
    obtain ⟨front, took₁, holds₁⟩ := first.sound ran₁
    obtain ⟨back, took₂, holds₂⟩ := (next a front holds₁).sound ran₂
    exact ⟨_, took₁.trans took₂, a, front, back, holds₁, holds₂, rfl⟩
  complete {s c data behind} silent holds rest := by
    obtain ⟨a, front, back, holds₁, holds₂, rfl⟩ := holds
    rw [List.append_assoc] at rest
    obtain ⟨u, ran₁, took₁⟩ := first.complete silent holds₁ rest
    obtain ⟨t, ran₂, took₂⟩ := (next a front holds₁).complete (took₁.silent silent) holds₂ (took₁.behind rest)
    exact ⟨t, Tx.bind_ok.2 ⟨a, u, ran₁, ran₂⟩, took₁.trans took₂⟩

/-- A check between two reads takes nothing. -/
theorem reads_check {x : Except ε α} {f : α → Tx ε (Feed ε β) γ} {Q : α → γ → List β → Prop}
    (next : ∀ a, x = .ok a → Reads (f a) (Q a)) :
    Reads (Tx.lift x >>= f) fun c data => ∃ a, x = .ok a ∧ Q a c data := by
  refine (reads_bind (reads_lift x) fun a data holds => next a holds.1).congr fun c data => ?_
  constructor
  · rintro ⟨a, front, back, ⟨passed, rfl⟩, holds, rfl⟩
    exact ⟨a, passed, holds⟩
  · rintro ⟨a, passed, holds⟩
    exact ⟨a, [], data, ⟨passed, rfl⟩, holds, rfl⟩

theorem reads_exact {ask : Nat → Nat} {e : ε} (modest : Modest ask) (size : Nat) :
    Reads (exact (β := β) ask e size) fun a data => a = data ∧ data.length = size where
  sound ran :=
    have ⟨took, length⟩ := exact_ok modest ran
    ⟨_, took, rfl, length⟩
  complete {s a data behind} silent holds rest := by
    obtain ⟨rfl, rfl⟩ := holds
    obtain ⟨t, ran, took, -⟩ := exact_returns modest silent rest
    exact ⟨t, ran, took⟩

/-- The check for the end of the stream. -/
theorem read_end {s : Feed ε β} {maximum : Nat} (some_ : 0 < maximum) :
    (∀ t, read maximum s = (.ok [], t) → s.rest = [] ∧ t.rest = []) ∧
    (s.Silent → s.rest = [] → ∃ t, read maximum s = (.ok [], t) ∧ t.rest = []) := by
  constructor
  · intro t ran
    unfold read at ran
    split at ran
    · cases ran
    · obtain ⟨nothing, rfl⟩ := Prod.mk.inj ran
      rcases List.take_eq_nil_iff.1 (Except.ok.inj nothing) with none_ | ended
      · omega
      · exact ⟨ended, by simp [ended]⟩
  · intro silent ended
    obtain ⟨data, t, ran, took, -, -⟩ := @read_silent ε β maximum s silent
    have nothing := took.rest
    rw [ended] at nothing
    obtain ⟨rfl, left⟩ := List.append_eq_nil_iff.1 nothing.symm
    exact ⟨t, ran, left⟩

end Reads

end Feed

end ApiSecurityPlatform.Theory
