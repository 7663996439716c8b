/-
# Authority.Records -- what controllers and acceptance authorities exchange

The records around one send: the admission, the ticket, the permit, and the invalidations that
revoke them.  A key's fingerprint is the key itself, as in the ledger.
-/
import ApiSecurityPlatform.Accounting.Records

namespace ApiSecurityPlatform.Authority

open ApiSecurityPlatform.Accounting (Id ReservationKey)

set_option autoImplicit false

/-- `RunContext`; `rest` stands for the fields that are only compared with it. -/
structure Run where
  context : Accounting.RunContext
  rest : Id
deriving DecidableEq, Repr

/-- The record `Admission`. -/
structure Admission where
  key : ReservationKey
  admissionId : Id
  ownerGeneration : Nat
  admittedAt : Int
  expiresAt : Int
deriving DecidableEq, Repr

structure AcceptanceTicket where
  ticketId : Id
  keyDigest : ReservationKey
  deploymentRef : Id
  authorityEpoch : Id
  acceptanceGeneration : Nat
  ownerGeneration : Nat
  bodyDigest : Id
  expiresAt : Int
deriving DecidableEq, Repr

structure SendPermit where
  key : ReservationKey
  permitId : Id
  admissionId : Id
  ownerGeneration : Nat
  guardEpoch : Id
  authorityEpoch : Id
  acceptanceGeneration : Nat
  ticketId : Id
  bodyDigest : Id
  markerEventId : Id
  observerEpoch : Id
  expiresAt : Int
deriving DecidableEq, Repr

/-- `InvalidationContext`, without the fields nothing here reads. -/
structure InvalidationContext where
  deploymentRef : Id
  writerId : Id
  deadlineAt : Int
deriving DecidableEq, Repr

/-- `InvalidationRequest`; `reason` is only compared and digested with it. -/
structure InvalidationRequest where
  operationId : Id
  operationDigest : Id
  deploymentRef : Id
  writerId : Id
  reason : Id
  deadlineAt : Int
deriving DecidableEq, Repr

inductive Disposition where
  | pending
  | committed
  | rolledBack
  | unknown
deriving DecidableEq, Repr

/-- `disposition in ('COMMITTED', 'ROLLED_BACK')`. -/
def Disposition.final : Disposition → Bool
  | .committed | .rolledBack => true
  | .pending | .unknown => false

/-- `InvalidationAck`; its state is always `CLOSED`. -/
structure InvalidationAck where
  operationId : Id
  operationDigest : Id
  deploymentRef : Id
  authorityEpoch : Id
  acceptanceGeneration : Nat
  barrierSequence : Nat
  disposition : Disposition
  eventDigest : Id
deriving DecidableEq, Repr

/-- `InvalidationResolution`; its outcome is never `PENDING`. -/
structure InvalidationResolution where
  operationId : Id
  operationDigest : Id
  deploymentRef : Id
  barrierDigest : Id
  databaseOutcome : Disposition
  transactionEvidenceRef : Option Id
deriving DecidableEq, Repr

/-- `MAX_GENERATION`: the largest a record of kind `Gen` holds. -/
def maxGeneration : Nat := 2147483647

end ApiSecurityPlatform.Authority
