/-
# Accounting.Records -- the immutable records of the budget ports

The records `reserve_v1`, `reconcile_v1` and their neighbours exchange, with the
validation of `records.py` as fields: a `KnownUsage` whose counts do not add up, or
a reservation below the fixed minimum, cannot be built.

Identifiers, digests and references are numbers: the code only compares them.  A
row identity that the code computes as SHA-256 of a canonical document
(`balance_id`, the key's fingerprint) is that document itself.  The digests that
are stored as evidence (`Hashes`) are arbitrary functions; nothing assumes that
they are injective.
-/
import ApiSecurityPlatform.Theory.Fallible
import Mathlib.Data.Fintype.Pi
import Mathlib.Data.Int.Order.Basic
import Mathlib.Tactic.Linarith

namespace ApiSecurityPlatform.Accounting

open ApiSecurityPlatform.Theory

set_option autoImplicit false

/-- An identifier, digest or reference. -/
abbrev Id := Nat

/-- `MAX_N`, the largest count a record or a `BigInteger` column holds. -/
def maxN : Int := 2 ^ 63 - 1

/-- The codes of `PortError` these modules raise. -/
inductive PortCode where
  | invalidRecord
  | limitExceeded
  | sourceUnavailable
  | contextChanged
  | deadlineExceeded
  | reservationUnavailable
  | ownerLost
  | observerUnavailable
  | commitUnknown
  | conflict
  /-- Not a port code: an error of the database layer, such as a duplicate key. -/
  | databaseError
deriving DecidableEq, Repr

/-- `require(condition, code)`. -/
def require (condition : Prop) [Decidable condition] (code : PortCode) : Except PortCode Unit :=
  if condition then .ok () else .error code

@[simp]
theorem require_ok {condition : Prop} [Decidable condition] {code : PortCode} {u : Unit} :
    require condition code = .ok u ↔ condition := by
  unfold require
  split <;> simp_all

/-! ## Amounts -/

inductive Dimension where
  | tokens
  | microusd
deriving DecidableEq, Repr

instance : Fintype Dimension where
  elems := {.tokens, .microusd}
  complete d := by cases d <;> simp

/-- A pair of token and micro-dollar amounts. -/
abbrev Amount := Dimension → Int

def amount (tokens microusd : Int) : Amount
  | .tokens => tokens
  | .microusd => microusd

/-! ## Scopes and keys -/

structure Scope where
  taskId : Id
  caseId : Id
  projectRef : Id
  contextRef : Id
  contextVersion : Nat
  contextGeneration : Nat
  accountRef : Id
  deploymentRef : Id
  policyId : Id
  policyVersion : Nat
deriving DecidableEq, Repr

inductive ScopeKind where
  | account
  | task
deriving DecidableEq, Repr

instance : Fintype ScopeKind where
  elems := {.account, .task}
  complete k := by cases k <;> simp

/-- The fields of `scope_document(scope, 'account')`. -/
structure AccountDocument where
  accountRef : Id
  deploymentRef : Id
  policyId : Id
  policyVersion : Nat
deriving DecidableEq, Repr

/-- `scope_document`, and with it `balance_id`.  A task document has no case id. -/
inductive BalanceId where
  | account (fields : AccountDocument)
  | task (fields : AccountDocument) (taskId projectRef contextRef : Id)
      (contextVersion contextGeneration : Nat)
deriving DecidableEq, Repr

namespace BalanceId

def kind : BalanceId → ScopeKind
  | .account _ => .account
  | .task .. => .task

def document : BalanceId → AccountDocument
  | .account fields => fields
  | .task fields .. => fields

end BalanceId

def Scope.document (scope : Scope) : AccountDocument :=
  ⟨scope.accountRef, scope.deploymentRef, scope.policyId, scope.policyVersion⟩

def balanceId (scope : Scope) : ScopeKind → BalanceId
  | .account => .account scope.document
  | .task => .task scope.document scope.taskId scope.projectRef scope.contextRef
      scope.contextVersion scope.contextGeneration

theorem balanceId_ne (scope other : Scope) : balanceId scope .account ≠ balanceId other .task := by
  simp [balanceId]

structure ReservationKey where
  scope : Scope
  callRef : Id
  coreDigest : Id
deriving DecidableEq, Repr

/-- What `records.py` demands of `reserved_tokens` and `reserved_microusd`. -/
def minimumReserved : Amount := amount 5120 22528

/-- The part of a `BindingCore` the accounting reads; `rest` stands for its other
fields, which are only compared and digested with it. -/
structure BindingCore where
  scope : Scope
  questionId : Id
  callRef : Id
  bodyDigest : Id
  reserved : Amount
  validFrom : Int
  expiresAt : Int
  rest : Id
  minimum : ∀ d, minimumReserved d ≤ reserved d
  maximum : ∀ d, reserved d ≤ maxN
deriving DecidableEq

/-- The receipt `reserve_v1` returns (the record `Reservation`). -/
structure Receipt where
  key : ReservationKey
  reservationId : Id
  ownerId : Id
  ownerGeneration : Nat
  reserved : Amount
  expiresAt : Int
  minimum : ∀ d, minimumReserved d ≤ reserved d
  maximum : ∀ d, reserved d ≤ maxN
deriving DecidableEq

theorem minimumReserved_self (d : Dimension) : minimumReserved d ≤ minimumReserved d := Int.le_refl _

theorem minimumReserved_le_maxN (d : Dimension) : minimumReserved d ≤ maxN := by
  cases d <;> decide

theorem minimumReserved_nonneg (d : Dimension) : 0 ≤ minimumReserved d := by
  cases d <;> decide

theorem Receipt.reserved_nonneg (receipt : Receipt) (d : Dimension) : 0 ≤ receipt.reserved d :=
  le_trans (minimumReserved_nonneg d) (receipt.minimum d)

/-! ## Contexts -/

structure RunContext where
  scope : Scope
  callRef : Id
  ownerId : Id
  ownerGeneration : Nat
  deadlineAt : Int
deriving DecidableEq, Repr

structure RecoveryContext where
  readScope : Scope
  key : ReservationKey
  recoveryDecisionId : Id
  ownerId : Id
  ownerGeneration : Nat
deriving DecidableEq, Repr

inductive Context where
  | run (ctx : RunContext)
  | recovery (ctx : RecoveryContext)
deriving DecidableEq, Repr

namespace Context

def ownerId : Context → Id
  | .run ctx => ctx.ownerId
  | .recovery ctx => ctx.ownerId

def ownerGeneration : Context → Nat
  | .run ctx => ctx.ownerGeneration
  | .recovery ctx => ctx.ownerGeneration

/-- The scope `_call` compares with the key's. -/
def callScope : Context → Scope
  | .run ctx => ctx.scope
  | .recovery ctx => ctx.readScope

def isRecovery : Context → Bool
  | .run _ => false
  | .recovery _ => true

end Context

/-! ## Usage and observations -/

/-- The counts of a `UsageView` in state `known`. -/
structure KnownUsage where
  inputTokens : Nat
  outputTokens : Nat
  cachedInputTokens : Nat
  cacheWriteTokens : Nat
  reasoningTokens : Option Nat
  cached_le : cachedInputTokens + cacheWriteTokens ≤ inputTokens
  total_le : ((inputTokens + outputTokens : Nat) : Int) ≤ maxN
  reasoning_le : ∀ r ∈ reasoningTokens, r ≤ outputTokens
deriving DecidableEq

inductive UsageView where
  | known (usage : KnownUsage)
  | unknown
  | invalid
deriving DecidableEq

def UsageView.isKnown : UsageView → Bool
  | .known _ => true
  | _ => false

namespace KnownUsage

def totalTokens (u : KnownUsage) : Int := (u.inputTokens + u.outputTokens : Nat)

/-- Integer tenths, rounded up once per call. -/
def cost (u : KnownUsage) : Int :=
  (20 * ((u.inputTokens : Int) - u.cachedInputTokens - u.cacheWriteTokens) +
    2 * u.cachedInputTokens + 25 * u.cacheWriteTokens + 120 * u.outputTokens + 9) / 10

theorem totalTokens_nonneg (u : KnownUsage) : 0 ≤ u.totalTokens := by
  unfold totalTokens
  omega

theorem totalTokens_le (u : KnownUsage) : u.totalTokens ≤ maxN := u.total_le

theorem cost_nonneg (u : KnownUsage) : 0 ≤ u.cost := by
  have bound := u.cached_le
  unfold cost
  omega

end KnownUsage

def actual : UsageView → Except PortCode Amount
  | .known u =>
      if u.cost ≤ maxN then .ok (amount u.totalTokens u.cost) else .error .limitExceeded
  | _ => .error .commitUnknown

theorem actual_ok {usage : UsageView} {value : Amount} (paid : actual usage = .ok value) :
    ∃ u, usage = .known u ∧ value = amount u.totalTokens u.cost ∧ u.cost ≤ maxN := by
  cases usage with
  | known u =>
      simp only [actual] at paid
      split at paid
      · rename_i fits
        cases paid
        exact ⟨u, rfl, rfl, fits⟩
      · cases paid
  | unknown => cases paid
  | invalid => cases paid

/-- Settled amounts are counts. -/
theorem actual_bounds {usage : UsageView} {value : Amount} (paid : actual usage = .ok value)
    (d : Dimension) : 0 ≤ value d ∧ value d ≤ maxN := by
  obtain ⟨u, rfl, rfl, fits⟩ := actual_ok paid
  cases d with
  | tokens => exact ⟨u.totalTokens_nonneg, u.totalTokens_le⟩
  | microusd => exact ⟨u.cost_nonneg, fits⟩

inductive ObservationKind where
  | permitIssued
  | writeAccepted
  | streamClosed
  | finalUsage
  | zeroProven
  | coverageGap
  | conflict
deriving DecidableEq, Repr

inductive Terminal where
  | none
  | completed
  | incomplete
  | failed
  | cancelled
  | unknown
deriving DecidableEq, Repr

structure Observation where
  key : ReservationKey
  callRef : Id
  eventId : Id
  observerEpoch : Id
  authorityEpoch : Id
  acceptanceGeneration : Nat
  sequence : Nat
  ownerGeneration : Nat
  kind : ObservationKind
  permitId : Option Id
  bodyDigest : Id
  observedAt : Int
  terminal : Terminal
  usage : UsageView
  evidenceDigest : Id
deriving DecidableEq

/-- The kinds that carry a final amount. -/
def Observation.isFinal (o : Observation) : Bool :=
  o.kind == .finalUsage || o.kind == .zeroProven

/-! ## Settlements -/

inductive SettlementState where
  | zero
  | known
deriving DecidableEq, Repr

/-- The record `Settlement` of a settled call; its `held` fields are always 0. -/
structure Settlement where
  key : ReservationKey
  settlementId : Id
  finalEventId : Id
  revision : Nat
  state : SettlementState
  settled : Amount
  refund : Amount
  overrun : Amount
  accountingDigest : Id
deriving DecidableEq

/-- `make('Settlement', ...)`: every count is between 0 and `MAX_N`, the revision
fits 32 bits. -/
def Settlement.make (s : Settlement) : Except PortCode Settlement := do
  require (∀ d, 0 ≤ s.settled d ∧ s.settled d ≤ maxN) .invalidRecord
  require (∀ d, 0 ≤ s.refund d ∧ s.refund d ≤ maxN) .invalidRecord
  require (∀ d, 0 ≤ s.overrun d ∧ s.overrun d ≤ maxN) .invalidRecord
  require (1 ≤ s.revision ∧ s.revision ≤ 2147483647) .invalidRecord
  return s

theorem Settlement.make_ok {s r : Settlement} (made : s.make = .ok r) : r = s := by
  simp only [Settlement.make, bind_ok, require_ok] at made
  obtain ⟨-, -, -, -, -, -, -, -, same⟩ := made
  exact (Except.ok.inj same).symm

end ApiSecurityPlatform.Accounting
