/-
# Executors.RateLimit -- the in-memory and the shared rate limiter

`InMemoryRateLimiter` remembers when the last request of a key was reserved, and
adds the interval of the request at hand.  `PostgresRateLimiter` remembers when the
next request is allowed, which is the last reserved time plus the interval of the
*earlier* request.  Both are machines over the same calls; rates and clock readings
are rationals.

The two reserve the same start times exactly as long as no call changes the rate of
its key while one of the two intervals is still running (`limiters_agree_iff`).
When the rate has been lowered in between, the shared limiter lets the next request
start before its own interval is over.
-/
import ApiSecurityPlatform.Theory.Transition
import Mathlib.Algebra.Order.Field.Rat
import Mathlib.Tactic.Linarith

namespace ApiSecurityPlatform.Executors

open ApiSecurityPlatform.Theory

set_option autoImplicit false

/-! ## Rates -/

inductive RateLimitError where
  | configuration (message : String)
  | coordination (message : String)
deriving DecidableEq, Repr

/-- `validate_requests_per_second`, on numbers. -/
def validateRequestsPerSecond (value : ℚ) (fieldName : String) : Except RateLimitError ℚ :=
  if value ≤ 0 then .error (.configuration (fieldName ++ " must be finite and greater than zero"))
  else .ok value

theorem validateRequestsPerSecond_ok {value rate : ℚ} {fieldName : String}
    (valid : validateRequestsPerSecond value fieldName = .ok rate) : rate = value ∧ 0 < rate := by
  unfold validateRequestsPerSecond at valid
  split at valid
  · cases valid
  · rename_i positive
    obtain rfl := Except.ok.inj valid
    exact ⟨rfl, not_le.1 positive⟩

/-- The platform rate a limiter was constructed with. -/
structure PlatformRate where
  value : ℚ
  positive : 0 < value

/-- `minimum_interval` of a valid requested rate. -/
def PlatformRate.minimumInterval (platform : PlatformRate) (requestedRate : ℚ) : ℚ :=
  1 / min platform.value requestedRate

theorem PlatformRate.minimumInterval_pos (platform : PlatformRate) {requestedRate : ℚ}
    (positive : 0 < requestedRate) : 0 < platform.minimumInterval requestedRate :=
  one_div_pos.2 (lt_min platform.positive positive)

/-- What one call has reserved. -/
structure Reserved (κ : Type) where
  key : κ
  interval : ℚ
  start : ℚ
deriving DecidableEq

section Limiters

variable {κ : Type} [DecidableEq κ]

/-! ## `InMemoryRateLimiter` -/

/-- `_last_reserved_at`. -/
abbrev LastReservedAt (κ : Type) := κ → Option ℚ

/-- `InMemoryRateLimiter.wait` at the clock reading `now`: the dictionary it leaves,
what it reserved and how long it sleeps. -/
def InMemory.wait (platform : PlatformRate) (lastReservedAt : LastReservedAt κ) (key : κ)
    (requestedRequestsPerSecond now : ℚ) :
    LastReservedAt κ × Except RateLimitError (Reserved κ × ℚ) :=
  match validateRequestsPerSecond requestedRequestsPerSecond "requested_requests_per_second" with
  | .error e => (lastReservedAt, .error e)
  | .ok requestedRate =>
      let minimumInterval := platform.minimumInterval requestedRate
      let lastReserved := (lastReservedAt key).getD (now - minimumInterval)
      let nextAllowed := lastReserved + minimumInterval
      let delay := max 0 (nextAllowed - now)
      let reservedTime := max now nextAllowed
      (Function.update lastReservedAt key (some reservedTime),
        .ok (⟨key, minimumInterval, reservedTime⟩, delay))

/-! ## `PostgresRateLimiter` -/

/-- The rows of `rate_reservation_states`. -/
abbrev NextAllowedAt (κ : Type) := κ → Option ℚ

/-- `_reserve_once`: the upsert reads the clock at `now`, its `RETURNING` at
`later`. -/
def Postgres.reserveOnce (rows : NextAllowedAt κ) (key : κ) (minimumInterval now later : ℚ) :
    NextAllowedAt κ × Reserved κ × ℚ :=
  let nextAllowedAt := match rows key with
    | none => now + minimumInterval
    | some next => max next now + minimumInterval
  let delay := max 0 (nextAllowedAt - minimumInterval - later)
  (Function.update rows key (some nextAllowedAt),
    ⟨key, minimumInterval, nextAllowedAt - minimumInterval⟩, delay)

/-- `reserve_delay`: each attempt raises (`none`, and is rolled back) or commits
with its two clock readings; at most `maxRetries` are made. -/
def Postgres.reserveDelay (platform : PlatformRate) (maxRetries : Nat) (rows : NextAllowedAt κ)
    (key : κ) (requestedRequestsPerSecond : ℚ) (attempts : List (Option (ℚ × ℚ))) :
    NextAllowedAt κ × Except RateLimitError (Reserved κ × ℚ) :=
  match validateRequestsPerSecond requestedRequestsPerSecond "requested_requests_per_second" with
  | .error e => (rows, .error e)
  | .ok requestedRate =>
      let minimumInterval := platform.minimumInterval requestedRate
      match (attempts.take maxRetries).findSome? id with
      | none => (rows, .error (.coordination "Shared rate coordination failed."))
      | some (now, later) =>
          let (rows, reserved, delay) := Postgres.reserveOnce rows key minimumInterval now later
          (rows, .ok (reserved, delay))

end Limiters

/-! ## The same calls for both -/

/-- One call: the shared limiter commits after `failures` attempts that raised. -/
structure Call (κ : Type) (maxRetries : Nat) where
  key : κ
  requestedRequestsPerSecond : ℚ
  now : ℚ
  later : ℚ
  failures : Fin maxRetries

def Call.attempts {κ : Type} {maxRetries : Nat} (call : Call κ maxRetries) : List (Option (ℚ × ℚ)) :=
  List.replicate call.failures none ++ [some (call.now, call.later)]

theorem Call.attempts_commit {κ : Type} {maxRetries : Nat} (call : Call κ maxRetries) :
    (call.attempts.take maxRetries).findSome? id = some (call.now, call.later) := by
  have short : call.attempts.length ≤ maxRetries := by
    simp only [Call.attempts, List.length_append, List.length_replicate, List.length_singleton]
    omega
  rw [List.take_of_length_le short]
  simp [Call.attempts, List.findSome?_append]

section Machines

variable {κ : Type} [DecidableEq κ] {maxRetries : Nat}

def memoryMachine (platform : PlatformRate) :
    Machine (LastReservedAt κ) (Call κ maxRetries) (Except RateLimitError (Reserved κ)) where
  step s call :=
    let (s, outcome) := InMemory.wait platform s call.key call.requestedRequestsPerSecond call.now
    (s, outcome.map Prod.fst)

def postgresMachine (platform : PlatformRate) :
    Machine (NextAllowedAt κ) (Call κ maxRetries) (Except RateLimitError (Reserved κ)) where
  step s call :=
    let (s, outcome) := Postgres.reserveDelay platform maxRetries s call.key
      call.requestedRequestsPerSecond call.attempts
    (s, outcome.map Prod.fst)

/-- The requested rate of a call, if it is one. -/
def Call.rate (call : Call κ maxRetries) : Except RateLimitError ℚ :=
  validateRequestsPerSecond call.requestedRequestsPerSecond "requested_requests_per_second"

section Steps

variable (platform : PlatformRate) {call : Call κ maxRetries} {rate : ℚ}

theorem memoryMachine_step (s : LastReservedAt κ) (valid : call.rate = .ok rate) :
    (memoryMachine platform).step s call =
      (Function.update s call.key (some (max call.now ((s call.key).getD
        (call.now - platform.minimumInterval rate) + platform.minimumInterval rate))),
        .ok ⟨call.key, platform.minimumInterval rate, max call.now ((s call.key).getD
          (call.now - platform.minimumInterval rate) + platform.minimumInterval rate)⟩) := by
  unfold Call.rate at valid
  simp only [memoryMachine, InMemory.wait, valid]
  rfl

theorem postgresMachine_step (s : NextAllowedAt κ) (valid : call.rate = .ok rate) :
    (postgresMachine platform).step s call =
      (Function.update s call.key (some ((match s call.key with
        | none => call.now + platform.minimumInterval rate
        | some next => max next call.now + platform.minimumInterval rate))),
        .ok ⟨call.key, platform.minimumInterval rate, (match s call.key with
          | none => call.now + platform.minimumInterval rate
          | some next => max next call.now + platform.minimumInterval rate) -
            platform.minimumInterval rate⟩) := by
  unfold Call.rate at valid
  simp only [postgresMachine, Postgres.reserveDelay, valid, call.attempts_commit,
    Postgres.reserveOnce]
  rfl

/-- An invalid rate is refused by both, with one message, and changes nothing. -/
theorem machines_step_error {e : RateLimitError} (invalid : call.rate = .error e) (s t : κ → Option ℚ) :
    (memoryMachine platform).step s call = (s, .error e) ∧
      (postgresMachine platform).step t call = (t, .error e) := by
  unfold Call.rate at invalid
  constructor
  · simp only [memoryMachine, InMemory.wait, invalid]
    rfl
  · simp only [postgresMachine, Postgres.reserveDelay, invalid]
    rfl

end Steps

/-! ## When they agree -/

/-- The two states know the same keys. -/
def SameKeys (s : LastReservedAt κ) (t : NextAllowedAt κ) : Prop := ∀ k, (s k).isSome = (t k).isSome

/-- A call with a valid rate finds its key new, or finds the shared limiter waiting
for its own interval, or comes when both times have passed. -/
def Unhurried (platform : PlatformRate) (s : LastReservedAt κ) (t : NextAllowedAt κ)
    (call : Call κ maxRetries) : Prop :=
  ∀ rate, call.rate = .ok rate → ∀ last ∈ s call.key, ∀ next ∈ t call.key,
    next = last + platform.minimumInterval rate ∨
      last + platform.minimumInterval rate ≤ call.now ∧ next ≤ call.now

theorem max_eq_max_iff (now a b : ℚ) : max now a = max b now ↔ b = a ∨ a ≤ now ∧ b ≤ now := by
  constructor
  · intro same
    rcases le_total a now with passed | waiting
    · rw [max_eq_left passed] at same
      exact .inr ⟨passed, same ▸ le_max_left b now⟩
    · rw [max_eq_right waiting] at same
      rcases le_total b now with passed | waiting'
      · rw [max_eq_right passed] at same
        exact .inr ⟨same.le, passed⟩
      · rw [max_eq_left waiting'] at same
        exact .inl same.symm
  · rintro (rfl | ⟨first, second⟩)
    · exact max_comm _ _
    · rw [max_eq_left first, max_eq_right second]

variable (platform : PlatformRate)

/-- **One call reserves the same start with both exactly when it is unhurried.** -/
theorem step_agrees_iff (s : LastReservedAt κ) (t : NextAllowedAt κ) (call : Call κ maxRetries)
    (same : SameKeys s t) :
    ((memoryMachine platform).step s call).2 = ((postgresMachine platform).step t call).2 ↔
      Unhurried platform s t call := by
  unfold Unhurried
  cases checked : call.rate with
  | error e =>
      obtain ⟨first, second⟩ := machines_step_error platform checked s t
      simp [first, second]
  | ok rate =>
      rw [memoryMachine_step platform s checked, postgresMachine_step platform t checked]
      have known := same call.key
      cases here : s call.key with
      | none =>
          rw [here, Option.isSome_none, eq_comm, Option.isSome_eq_false_iff, Option.isNone_iff_eq_none]
            at known
          simp [known]
      | some last =>
          rw [here, Option.isSome_some, eq_comm, Option.isSome_iff_exists] at known
          obtain ⟨next, there⟩ := known
          have starts := max_eq_max_iff call.now (last + platform.minimumInterval rate) next
          simp [there, starts]

/-- Both limiters know a key after its first valid call. -/
theorem sameKeys_step (s : LastReservedAt κ) (t : NextAllowedAt κ) (call : Call κ maxRetries)
    (same : SameKeys s t) :
    SameKeys ((memoryMachine platform).step s call).1 ((postgresMachine platform).step t call).1 := by
  cases checked : call.rate with
  | error e =>
      obtain ⟨first, second⟩ := machines_step_error platform checked s t
      rwa [first, second]
  | ok rate =>
      rw [memoryMachine_step platform s checked, postgresMachine_step platform t checked]
      intro k
      by_cases own : k = call.key
      · subst own
        simp only [Function.update_self, Option.isSome_some]
      · simp only [Function.update_of_ne own]
        exact same k

/-! ## Spacing -/

/-- The reservations among the outcomes of some calls. -/
def reservations (outcomes : List (Except RateLimitError (Reserved κ))) : List (Reserved κ) :=
  outcomes.filterMap Except.toOption

/-- Every reserved start lies its own interval after each earlier one of its key. -/
def Spaced (reserved : List (Reserved κ)) : Prop :=
  reserved.Pairwise fun earlier later =>
    earlier.key = later.key → earlier.start + later.interval ≤ later.start

/-- **The in-memory limiter always spaces by the interval of the request at hand.** -/
theorem memory_spaced (s : LastReservedAt κ) (calls : List (Call κ maxRetries)) :
    Spaced (reservations ((memoryMachine platform).outputs s calls)) ∧
      ∀ r ∈ reservations ((memoryMachine platform).outputs s calls), ∀ last ∈ s r.key,
        last + r.interval ≤ r.start := by
  induction calls generalizing s with
  | nil => exact ⟨List.Pairwise.nil, fun r member => nomatch member⟩
  | cons call rest ih =>
      cases checked : call.rate with
      | error e =>
          obtain ⟨first, -⟩ := machines_step_error platform checked s s
          simp only [Machine.outputs, first]
          exact ih s
      | ok rate =>
          have interval := platform.minimumInterval_pos (validateRequestsPerSecond_ok checked).2
          simp only [Machine.outputs, memoryMachine_step platform s checked]
          generalize startEq : max call.now ((s call.key).getD (call.now -
            platform.minimumInterval rate) + platform.minimumInterval rate) = start
          obtain ⟨spaced, after⟩ := ih (Function.update s call.key (some start))
          have own (last : ℚ) (known : last ∈ s call.key) :
              last + platform.minimumInterval rate ≤ start := by
            rw [← startEq, Option.mem_def.1 known, Option.getD_some]
            exact le_max_right _ _
          refine ⟨List.pairwise_cons.2 ⟨fun r member same => ?_, spaced⟩, fun r member last known => ?_⟩
          · refine after r member start ?_
            rw [← same, Function.update_self]
            rfl
          · rcases List.mem_cons.1 member with rfl | member
            · exact own last known
            · by_cases same : r.key = call.key
              · have later := after r member start (by rw [same, Function.update_self]; rfl)
                rw [same] at known
                have before := own last known
                linarith
              · exact after r member last (by rwa [Function.update_of_ne same])

/-! ## Interchangeable limiters -/

/-- **The limiters agree exactly on unhurried calls.**  From empty state, the shared
limiter reserves for every call what the in-memory limiter reserves, each start its
own interval after the previous ones of its key, if and only if every call finds
its key new, the shared limiter waiting for the call's own interval, or both times
passed. -/
theorem limiters_agree_iff (calls : List (Call κ maxRetries)) :
    (postgresMachine platform).outputs (fun _ => none) calls =
        (memoryMachine platform).outputs (fun _ => none) calls ∧
      Spaced (reservations ((postgresMachine platform).outputs (fun _ => none) calls)) ↔
    Machine.Along (memoryMachine platform) (postgresMachine platform) (Unhurried platform)
      (fun _ => none) (fun _ => none) calls := by
  have decided := Machine.outputs_eq_iff (M := memoryMachine platform) (N := postgresMachine platform)
    (R := SameKeys) (C := Unhurried platform) (step_agrees_iff platform)
    (fun s t call same _ => sameKeys_step platform s t call same) (s := fun _ => none)
    (t := fun _ => none) (fun _ => rfl) calls
  rw [← decided]
  constructor
  · rintro ⟨same, -⟩
    exact same.symm
  · intro same
    refine ⟨same.symm, ?_⟩
    rw [← same]
    exact (memory_spaced platform _ calls).1

end Machines

/-! ## A lowered rate -/

def twoPerSecond : PlatformRate := ⟨2, by decide⟩

/-- At one moment, a request at the platform rate and one at half a request per
second, for one target. -/
def loweredRate : List (Call Unit 3) :=
  [⟨(), 2, 0, 0, 0⟩, ⟨(), 1 / 2, 0, 0, 0⟩]

/-- The in-memory limiter starts the second request after its own two seconds, the
shared one after half a second. -/
theorem limiters_differ_on_lowered_rate :
    reservations ((memoryMachine twoPerSecond).outputs (fun _ => none) loweredRate) =
        [⟨(), 1 / 2, 0⟩, ⟨(), 2, 2⟩] ∧
      reservations ((postgresMachine twoPerSecond).outputs (fun _ => none) loweredRate) =
        [⟨(), 1 / 2, 0⟩, ⟨(), 2, 1 / 2⟩] ∧
      ¬ Spaced (reservations ((postgresMachine twoPerSecond).outputs (fun _ => none) loweredRate)) := by
  have shared : reservations ((postgresMachine twoPerSecond).outputs (fun _ => none) loweredRate) =
      [⟨(), 1 / 2, 0⟩, ⟨(), 2, 1 / 2⟩] := by decide +kernel
  refine ⟨by decide +kernel, shared, ?_⟩
  rw [shared]
  intro spaced
  have early : (0 : ℚ) + 2 ≤ 1 / 2 := List.rel_of_pairwise_cons spaced List.mem_cons_self rfl
  norm_num at early

end ApiSecurityPlatform.Executors
