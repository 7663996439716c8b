/-
# Broker.Payload -- the data of the broker's events

What each kind of event carries, and the readers `data[field]` of those who come back to it.
Data that lacks what its kind should carry is `unread`: to read a field of it raises.
-/
import ApiSecurityPlatform.Authority.Records
import ApiSecurityPlatform.Broker.Journal

namespace ApiSecurityPlatform.Broker

open ApiSecurityPlatform.Accounting (Id ReservationKey BindingCore Receipt UsageView Terminal)
open ApiSecurityPlatform.Authority

set_option autoImplicit false

/-- The data of `BINDING`. -/
structure Binding where
  key : ReservationKey
  core : BindingCore
  run : Run
  reservation : Receipt
  manifestDigest : Id
  expiresAt : Int
deriving DecidableEq

/-- What `authorize` is asked with. -/
structure Authorization where
  run : Run
  admission : Admission
  ticket : AcceptanceTicket
  marker : Id
  guardEpoch : Id
deriving DecidableEq

/-- The `evidence` of a response; its measurement kind is always `synthetic`. -/
structure Evidence where
  exchangeId : Id
  bodyDigest : Id
  status : Nat
  responseId : Option Id
  terminal : Terminal
  responseDigest : Id
deriving DecidableEq

/-- `terminal in ('COMPLETED', 'INCOMPLETE', 'FAILED', 'CANCELLED')`. -/
def isTerminal : Terminal → Bool
  | .completed | .incomplete | .failed | .cancelled => true
  | .none | .unknown => false

inductive Body where
  | bootstrap (deployment authorityEpoch : Id)
  | binding (binding : Binding)
  | permit (authorization : Authorization) (permit : SendPermit)
  | intent (permit : SendPermit) (binding : Binding)
  | localWrite (localBytes : Option Nat) (requestedBytes : Nat) (complete : Bool)
  | peerResponse (evidence : Evidence)
  | finalUsage (evidence : Evidence) (usage : UsageView)
  | closed (keyDigest : ReservationKey)
  | barrier (ack : InvalidationAck) (request : InvalidationRequest)
  | disposition (ack : InvalidationAck) (resolution : InvalidationResolution)
  | unread (data : Id)
deriving DecidableEq

structure Data where
  body : Body
  observedAt : Int
deriving DecidableEq

namespace Body

/-- `data['key']`, `data['core']` and `data['reservation']`. -/
def binding? : Body → Option Binding
  | .binding bound => some bound
  | _ => none

/-- `data['permit']`. -/
def permit? : Body → Option SendPermit
  | .permit _ issued | .intent issued _ => some issued
  | _ => none

/-- The fields of `evidence`. -/
def evidence? : Body → Option Evidence
  | .peerResponse evidence | .finalUsage evidence _ => some evidence
  | _ => none

/-- `data['usage']`. -/
def usage? : Body → Option UsageView
  | .finalUsage _ usage => some usage
  | _ => none

/-- `data['ack']`. -/
def ack? : Body → Option InvalidationAck
  | .barrier ack _ | .disposition ack _ => some ack
  | _ => none

/-- `data['authority_epoch']`. -/
def epoch? : Body → Option Id
  | .bootstrap _ authorityEpoch => some authorityEpoch
  | _ => none

/-- `data['request']`. -/
def request? : Body → Option InvalidationRequest
  | .barrier _ request => some request
  | _ => none

end Body

end ApiSecurityPlatform.Broker
