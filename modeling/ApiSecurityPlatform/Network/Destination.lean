/-
# Network.Destination -- where a request may go

`parse_canonical_destination`, the address classes and `evaluate_destination_policy`.
The resolver is an argument, as is the IDNA encoder; so is the order in which a Python
set is walked (`SetOrder`), of which only is known that it names each member once.

In private mode the cascade of `classify_address` comes to six ranges
(`classify_private_iff`), and the sort in `_deduplicate_addresses` takes the order of the
answer out of the decision, the zone of an address excepted: the sort does not look at it
(`sorted_withoutZone`).
-/
import ApiSecurityPlatform.Python.IpAddress
import ApiSecurityPlatform.Theory.Fallible
import Mathlib.Data.List.Sort
import Mathlib.Logic.Basic

namespace ApiSecurityPlatform.Network

open ApiSecurityPlatform.Theory
open ApiSecurityPlatform.Python

set_option autoImplicit false

/-! ## The canonical destination -/

structure CanonicalDestination where
  scheme : Str
  hostname : Str
  port : Nat
  isIpLiteral : Bool
  ipAddress : Option Address
deriving DecidableEq

/-- The message of a `NetworkDestinationError`. -/
abbrev DestinationError := String

def raiseIf (condition : Prop) [Decidable condition] (message : DestinationError) :
    Except DestinationError Unit :=
  if condition then .error message else .ok ()

@[simp]
theorem raiseIf_ok {condition : Prop} [Decidable condition] {message : DestinationError} {u : Unit} :
    raiseIf condition message = .ok u ↔ ¬ condition := by
  unfold raiseIf
  split <;> simp_all

def orRaise {α : Type} (message : DestinationError) : Option α → Except DestinationError α
  | none => .error message
  | some a => .ok a

@[simp]
theorem orRaise_ok {α : Type} {message : DestinationError} {x : Option α} {a : α} :
    orRaise message x = .ok a ↔ x = some a := by
  cases x <;> simp [orRaise]

/-- `re.fullmatch(r"[a-z0-9-]+", label)` of one character. -/
def isLabelChar (c : Char) : Bool := ('a' ≤ c && c ≤ 'z') || isDigit c || c == '-'

/-- The label check, from the other side. -/
def labelValid (label : Str) : Bool :=
  !label.isEmpty && label.length ≤ 63 && label.head? != some '-' && label.getLast? != some '-' &&
    label.all isLabelChar

def hostnameValid (hostname : Str) : Bool := hostname.length ≤ 253 && (split '.' hostname).all labelValid

section Parse

variable (U : Unicode) (idna : Str → Option Str)

/-- The hostname of a destination, with the literal it is. -/
def canonicalHostname (rawHostname : Str) : Except DestinationError (Str × Option Address) :=
  match Address.ofText rawHostname with
  | some literal => .ok (literal.compressed, some literal)
  | none => do
      let hostname ← orRaise "destination hostname is invalid" (idna rawHostname)
      raiseIf (hostnameValid hostname = false) "destination hostname is invalid"
      return (hostname, none)

def effectivePort (scheme : Str) (port : Option Nat) : Nat :=
  port.getD (if scheme = "http".toList then 80 else 443)

def parseCanonicalDestination (url : Str) : Except DestinationError CanonicalDestination := do
  raiseIf (url = [] ∨ '\\' ∈ url) "destination URL is malformed"
  raiseIf (url.any isSpace) "destination URL contains whitespace"
  let parsed ← orRaise "destination URL is malformed" (urlsplit U url)
  let scheme := U.lower parsed.scheme
  raiseIf (¬ (scheme = "http".toList ∨ scheme = "https".toList)) "only http and https are supported"
  raiseIf parsed.hasUserinfo "destination userinfo is prohibited"
  let parsedHostname ← orRaise "destination hostname is missing" (parsed.hostname U)
  raiseIf (parsedHostname = []) "destination hostname is missing"
  raiseIf ('%' ∈ parsedHostname) "scoped IP literals are unsupported"
  let port ← orRaise "destination port is invalid" parsed.port
  raiseIf (¬ (1 ≤ effectivePort scheme port ∧ effectivePort scheme port ≤ 65535)) "destination port is invalid"
  let rawHostname := U.lower (rstrip (fun c => c == '.') parsedHostname)
  raiseIf (rawHostname = []) "destination hostname is missing"
  let hostname ← canonicalHostname idna rawHostname
  return ⟨scheme, hostname.1, effectivePort scheme port, hostname.2.isSome, hostname.2⟩

end Parse

/-! ## Address classes -/

inductive AddressCategory where
  | loopback
  | «private»
  | linkLocal
  | unspecified
  | multicast
  | special
  | «public»
deriving DecidableEq, Repr

def privateNetworks : List (IpNetwork 32) :=
  [⟨octets 10 0 0 0, 8⟩, ⟨octets 172 16 0 0, 12⟩, ⟨octets 192 168 0 0, 16⟩]

def uniqueLocal : IpNetwork 128 := ⟨hextets [0xfc00], 7⟩

/-- The two `isinstance(parsed, ..) and parsed in ..` checks. -/
def inPrivateNetwork : Address → Bool
  | .v4 ip => privateNetworks.any fun network => network.has ip
  | .v6 ip _ => uniqueLocal.has ip

/-- `classify_address` of an address that is not IPv4-mapped. -/
def classifyUnmapped (a : Address) : AddressCategory :=
  if a = .v4 (Fin.ofNat _ (octets 169 254 169 254)) then .linkLocal
  else if a.isLoopback then .loopback
  else if a.isLinkLocal then .linkLocal
  else if a.isUnspecified then .unspecified
  else if a.isMulticast then .multicast
  else if inPrivateNetwork a then .private
  else if a.isReserved then .special
  else if a.isGlobal then .public
  else .special

/-- `classify_address`; the recursion goes one step, to an IPv4 address. -/
def classifyAddress (a : Address) : AddressCategory :=
  match a.ipv4Mapped with
  | some mapped => classifyUnmapped mapped
  | none => classifyUnmapped a

theorem classifyAddress_eq (a : Address) : classifyAddress a = classifyUnmapped a.unmapped := by
  unfold classifyAddress Address.unmapped
  cases a.ipv4Mapped <;> rfl

/-! ## The policy -/

inductive NetworkMode where
  | privateLocal
  | externalPublicAuthorized
  /-- A text that is not in `NETWORK_MODES`. -/
  | other (text : Str)
deriving DecidableEq

inductive DestinationCode where
  | networkModeInvalid
  | destinationInvalid
  | destinationResolutionFailed
  | destinationResolutionEmpty
  | privateDestinationAllowed
  | privateDestinationProhibited
  | publicDestinationClassified
  | publicDestinationProhibited
deriving DecidableEq, Repr

structure DestinationPolicyDecision where
  allowed : Bool
  code : DestinationCode
  reason : String
  mode : NetworkMode
  destination : Option CanonicalDestination
  resolvedAddresses : List Str
  addressCategories : List AddressCategory
deriving DecidableEq

/-- One value of a resolver's answer. -/
inductive Answer where
  | address (a : Address)
  | text (s : Str)

def Answer.read : Answer → Option Address
  | .address a => some a
  | .text s => Address.ofText s

/-- The order in which the members of `set(..)` are walked. -/
structure SetOrder where
  walk : List Address → List Address
  nodup : ∀ l, (walk l).Nodup
  mem : ∀ l a, a ∈ walk l ↔ a ∈ l

def keyLe (a b : Address) : Prop := a.key ≤ b.key

instance : DecidableRel keyLe := fun a b => inferInstanceAs (Decidable (a.key ≤ b.key))

def deduplicateAddresses (order : SetOrder) (addresses : List Address) : List Address :=
  (order.walk addresses).insertionSort keyLe

/-- `_canonicalize_resolver_results`; a `str` or `bytes` for the whole answer raises like
a failed resolution. -/
def canonicalizeResolverResults (order : SetOrder) (values : List Answer) : Option (List Address) :=
  (values.mapM Answer.read).map (deduplicateAddresses order)

def denied (mode : NetworkMode) (code : DestinationCode) (reason : String)
    (destination : Option CanonicalDestination) (addresses : List Str)
    (categories : List AddressCategory) : DestinationPolicyDecision :=
  ⟨false, code, reason, mode, destination, addresses, categories⟩

/-- The end of `evaluate_destination_policy`, on the sorted addresses. -/
def decideAddresses (mode : NetworkMode) (destination : CanonicalDestination) (addresses : List Address) :
    DestinationPolicyDecision :=
  let categories := addresses.map classifyAddress
  let strings := addresses.map Address.compressed
  if mode = .privateLocal then
    if categories.all fun c => c = .loopback ∨ c = .private then
      ⟨true, .privateDestinationAllowed, "Resolution contains only loopback or private addresses.", mode,
        some destination, strings, categories⟩
    else denied mode .privateDestinationProhibited
      "Private/local mode prohibits any public or special address." (some destination) strings categories
  else if categories.all fun c => c = .public then
    ⟨true, .publicDestinationClassified, "Resolution contains only public/global addresses.", mode,
      some destination, strings, categories⟩
  else denied mode .publicDestinationProhibited
    "External mode classification requires only public addresses." (some destination) strings categories

section Evaluate

variable (U : Unicode) (idna : Str → Option Str) (order : SetOrder)

/-- What is classified: the literal itself, or the resolver's answer.  A resolver that
raises is `none`. -/
def rawAddresses (destination : CanonicalDestination) (resolver : Str → Option (List Answer)) :
    Option (List Answer) :=
  match destination.ipAddress with
  | some literal => some [.address literal]
  | none => resolver destination.hostname

def evaluateDestinationPolicy (mode : NetworkMode) (url : Str) (resolver : Str → Option (List Answer)) :
    DestinationPolicyDecision :=
  match mode with
  | .other _ => denied mode .networkModeInvalid "Target network mode is invalid." none [] []
  | _ =>
      match parseCanonicalDestination U idna url with
      | .error _ => denied mode .destinationInvalid "Destination URL is invalid." none [] []
      | .ok destination =>
          match (rawAddresses destination resolver).bind (canonicalizeResolverResults order) with
          | none => denied mode .destinationResolutionFailed "Destination resolution failed closed."
              (some destination) [] []
          | some addresses =>
              if addresses = [] then denied mode .destinationResolutionEmpty
                "Destination resolution returned no addresses." (some destination) [] []
              else decideAddresses mode destination addresses

end Evaluate

/-! ## The peer of a connection -/

inductive PeerError where
  | destinationPeerProhibited
  | destinationPeerMismatch
deriving DecidableEq, Repr

/-- `_normalized_ip`. -/
def normalizedIp (a : Address) : Address := a.unmapped

/-- `_validate_peer`. -/
def validatePeer (selectedIp peerIp : Address) (mode : NetworkMode) : Except PeerError Unit :=
  let category := classifyAddress (normalizedIp peerIp)
  let allowed :=
    match mode with
    | .privateLocal => decide (category = .loopback ∨ category = .private)
    | .externalPublicAuthorized => decide (category = .public)
    | .other _ => false
  if allowed = false then .error .destinationPeerProhibited
  else if normalizedIp peerIp ≠ normalizedIp selectedIp then .error .destinationPeerMismatch
  else .ok ()

end ApiSecurityPlatform.Network
