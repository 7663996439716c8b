/-
# Network.PrivateMode -- private mode reaches only private addresses

The ranges are said once, as intervals (`PrivateRange`).  The cascade of overlapping tests
comes to them, and what the policy allows and the gateway accepts follows from there.
-/
import ApiSecurityPlatform.Network.Destination
import Mathlib.Data.List.Dedup

namespace ApiSecurityPlatform.Network

open ApiSecurityPlatform.Theory
open ApiSecurityPlatform.Python

set_option autoImplicit false

/-! ## The ranges -/

/-- 127/8, 10/8, 172.16/12, 192.168/16, ::1 and fc00::/7. -/
def PrivateRange : Address → Prop
  | .v4 ip =>
      (octets 127 0 0 0 ≤ ip ∧ ip ≤ octets 127 255 255 255) ∨
        (octets 10 0 0 0 ≤ ip ∧ ip ≤ octets 10 255 255 255) ∨
        (octets 172 16 0 0 ≤ ip ∧ ip ≤ octets 172 31 255 255) ∨
        (octets 192 168 0 0 ≤ ip ∧ ip ≤ octets 192 168 255 255)
  | .v6 ip _ => ip.val = 1 ∨ (hextets [0xfc00] ≤ ip.val ∧ ip.val < hextets [0xfe00])

def Reachable (category : AddressCategory) : Prop := category = .loopback ∨ category = .private

instance : DecidablePred Reachable := fun c => inferInstanceAs (Decidable (c = .loopback ∨ c = .private))

/-- What the cascade makes of its tests: a loopback address, or a private one that none of
the tests before has claimed. -/
theorem classifyUnmapped_reachable_iff (a : Address) : Reachable (classifyUnmapped a) ↔
    a ≠ .v4 (Fin.ofNat _ (octets 169 254 169 254)) ∧
      (a.isLoopback = true ∨ a.isLinkLocal = false ∧ a.isUnspecified = false ∧ a.isMulticast = false ∧
        inPrivateNetwork a = true) := by
  unfold classifyUnmapped Reachable
  repeat' split
  all_goals simp_all

theorem has_iff {bits : Nat} (network : IpNetwork bits) (ip : Nat) : network.has ip = true ↔
    ip / 2 ^ (bits - network.length) = network.address / 2 ^ (bits - network.length) :=
  decide_eq_true_iff

theorem has_eq_false_iff {bits : Nat} (network : IpNetwork bits) (ip : Nat) : network.has ip = false ↔
    ¬ ip / 2 ^ (bits - network.length) = network.address / 2 ^ (bits - network.length) :=
  decide_eq_false_iff_not

theorem isUnspecified_eq_false_iff (a : Address) : a.isUnspecified = false ↔ ¬ a.value = 0 :=
  decide_eq_false_iff_not

/-- **The cascade comes to the six ranges.** -/
theorem classify_private_iff (a : Address) : Reachable (classifyAddress a) ↔ PrivateRange a.unmapped := by
  rw [classifyAddress_eq, classifyUnmapped_reachable_iff]
  cases a.unmapped with
  | v4 ip =>
      have metadata : (Fin.ofNat (2 ^ 32) (octets 169 254 169 254)).val = 2852039166 := by decide
      simp only [ne_eq, Address.v4.injEq, Fin.ext_iff, metadata, Address.isLoopback, Address.isLinkLocal,
        isUnspecified_eq_false_iff, Address.isMulticast, inPrivateNetwork, privateNetworks, List.any_cons,
        List.any_nil, Bool.or_eq_true, Bool.or_false, has_iff, has_eq_false_iff, Address.value, PrivateRange]
      simp only [Address.loopback4, Address.linkLocal4, Address.multicast4, octets, ofDigits,
        List.foldl_cons, List.foldl_nil]
      omega
  | v6 ip scopeId =>
      simp only [ne_eq, reduceCtorEq, not_false_eq_true, true_and, Address.isLoopback, Address.isLinkLocal,
        isUnspecified_eq_false_iff, Address.isMulticast, inPrivateNetwork, has_iff, has_eq_false_iff,
        decide_eq_true_eq, Address.value, PrivateRange]
      simp only [Address.linkLocal6, Address.multicast6, uniqueLocal, hextets, ofDigits,
        List.length_cons, List.length_nil, List.replicate, List.cons_append, List.nil_append,
        List.foldl_cons, List.foldl_nil]
      omega

/-! ## Order -/

instance : Std.Total keyLe := ⟨fun a b => le_total a.key b.key⟩

instance : IsTrans Address keyLe := ⟨fun _ _ _ first second => le_trans first second⟩

/-- The zone is all that the key leaves out. -/
theorem map_withoutZone_of_map_key {l l' : List Address} (same : l.map Address.key = l'.map Address.key) :
    l.map Address.withoutZone = l'.map Address.withoutZone := by
  induction l generalizing l' with
  | nil =>
      obtain rfl := List.map_eq_nil_iff.1 same.symm
      rfl
  | cons a l ih =>
      cases l' with
      | nil => cases same
      | cons b l' =>
          simp only [List.map_cons, List.cons.injEq] at same ⊢
          exact ⟨(Address.key_eq_iff a b).1 same.1, ih same.2⟩

theorem perm_deduplicateAddresses {order order' : SetOrder} {l l' : List Address}
    (same : ∀ a, a ∈ l ↔ a ∈ l') : (deduplicateAddresses order l).Perm (deduplicateAddresses order' l') := by
  have walks : (order.walk l).Perm (order'.walk l') := by
    refine (List.perm_ext_iff_of_nodup (order.nodup l) (order'.nodup l')).2 fun a => ?_
    rw [order.mem, order'.mem, same]
  exact (List.perm_insertionSort keyLe _).trans (walks.trans (List.perm_insertionSort keyLe _).symm)

theorem mem_deduplicateAddresses {order : SetOrder} {l : List Address} (a : Address) :
    a ∈ deduplicateAddresses order l ↔ a ∈ l := by
  rw [deduplicateAddresses, (List.perm_insertionSort keyLe _).mem_iff, order.mem]

theorem pairwise_key (order : SetOrder) (l : List Address) :
    ((deduplicateAddresses order l).map Address.key).Pairwise (· ≤ ·) :=
  List.pairwise_map.2 (List.pairwise_insertionSort keyLe _)

/-- **The sorted addresses are those of the set, zones aside.** -/
theorem sorted_withoutZone {order order' : SetOrder} {l l' : List Address} (same : ∀ a, a ∈ l ↔ a ∈ l') :
    (deduplicateAddresses order l).map Address.withoutZone =
      (deduplicateAddresses order' l').map Address.withoutZone := by
  refine map_withoutZone_of_map_key ?_
  exact ((perm_deduplicateAddresses same).map Address.key).eq_of_pairwise'
    (pairwise_key order l) (pairwise_key order' l')

/-- Two of the addresses differ in their zone only. -/
def ZoneTied (l : List Address) : Prop := ∃ a ∈ l, ∃ b ∈ l, a.withoutZone = b.withoutZone ∧ a ≠ b

theorem sorted_eq {order order' : SetOrder} {l l' : List Address} (same : ∀ a, a ∈ l ↔ a ∈ l')
    (apart : ¬ ZoneTied l) : deduplicateAddresses order l = deduplicateAddresses order' l' := by
  have inj : ∀ a ∈ l, ∀ b ∈ l, a.withoutZone = b.withoutZone → a = b := by
    intro a memA b memB eq
    by_contra differ
    exact apart ⟨a, memA, b, memB, eq, differ⟩
  have within : ∀ a, a ∈ deduplicateAddresses order l → a ∈ l := fun a => (mem_deduplicateAddresses a).1
  have within' : ∀ a, a ∈ deduplicateAddresses order' l' → a ∈ l :=
    fun a mem => (same a).2 ((mem_deduplicateAddresses a).1 mem)
  have equal := @sorted_withoutZone order order' l l' same
  generalize deduplicateAddresses order l = xs at within equal
  generalize deduplicateAddresses order' l' = ys at within' equal
  induction xs generalizing ys with
  | nil =>
      obtain rfl := List.map_eq_nil_iff.1 equal.symm
      rfl
  | cons x xs ih =>
      cases ys with
      | nil => cases equal
      | cons y ys =>
          simp only [List.map_cons, List.cons.injEq] at equal
          rw [inj x (within x (by simp)) y (within' y (by simp)) equal.1]
          rw [ih (fun a mem => within a (by simp [mem])) ys (fun a mem => within' a (by simp [mem])) equal.2]

theorem classify_withoutZone (a : Address) : classifyAddress a.withoutZone = classifyAddress a := by
  cases a with
  | v4 ip => rfl
  | v6 ip scopeId =>
      have mapped : (Address.v6 ip none).ipv4Mapped = (Address.v6 ip scopeId).ipv4Mapped := rfl
      unfold classifyAddress
      rw [Address.withoutZone, mapped]
      cases (Address.v6 ip scopeId).ipv4Mapped <;> rfl

/-! ## Decisions -/

/-- The same decision, up to the zones in the texts of the addresses. -/
structure SameButZones (d d' : DestinationPolicyDecision) : Prop where
  allowed : d.allowed = d'.allowed
  code : d.code = d'.code
  reason : d.reason = d'.reason
  mode : d.mode = d'.mode
  destination : d.destination = d'.destination
  categories : d.addressCategories = d'.addressCategories
  addresses : ∃ l l' : List Address, d.resolvedAddresses = l.map Address.compressed ∧
    d'.resolvedAddresses = l'.map Address.compressed ∧
    l.map Address.withoutZone = l'.map Address.withoutZone

theorem SameButZones.rfl' (mode : NetworkMode) (code : DestinationCode) (reason : String)
    (destination : Option CanonicalDestination) :
    SameButZones (denied mode code reason destination [] []) (denied mode code reason destination [] []) :=
  ⟨rfl, rfl, rfl, rfl, rfl, rfl, [], [], rfl, rfl, rfl⟩

theorem decideAddresses_same {mode : NetworkMode} {destination : CanonicalDestination} {l l' : List Address}
    (same : l.map Address.withoutZone = l'.map Address.withoutZone) :
    SameButZones (decideAddresses mode destination l) (decideAddresses mode destination l') := by
  have categories : l.map classifyAddress = l'.map classifyAddress := by
    have through : ∀ m : List Address, m.map classifyAddress =
        (m.map Address.withoutZone).map classifyAddress := by
      intro m
      rw [List.map_map]
      exact List.map_congr_left fun a _ => (classify_withoutZone a).symm
    rw [through l, through l', same]
  unfold decideAddresses
  rw [categories]
  dsimp only
  repeat' split
  all_goals exact ⟨rfl, rfl, rfl, rfl, rfl, rfl, l, l', rfl, rfl, same⟩

theorem decideAddresses_private_iff {destination : CanonicalDestination} {l : List Address} :
    (decideAddresses .privateLocal destination l).allowed = true ↔ ∀ a ∈ l, PrivateRange a.unmapped := by
  have all_iff : ((l.map classifyAddress).all fun c => c = .loopback ∨ c = .private) = true ↔
      ∀ a ∈ l, PrivateRange a.unmapped := by
    rw [List.all_eq_true]
    constructor
    · intro all a mem
      exact (classify_private_iff a).1 (of_decide_eq_true (all _ (List.mem_map_of_mem mem)))
    · intro all c mem
      obtain ⟨a, here, rfl⟩ := List.mem_map.1 mem
      exact decide_eq_true ((classify_private_iff a).2 (all a here))
  rw [← all_iff]
  unfold decideAddresses
  dsimp only
  rw [if_pos rfl]
  split
  · next all => exact ⟨fun _ => all, fun _ => rfl⟩
  · next none_ => exact ⟨(fun allowed => nomatch allowed), fun all => absurd all none_⟩

section Policy

variable {U : Unicode} {idna : Str → Option Str} {order order' : SetOrder} {url : Str}
  {resolver resolver' : Str → Option (List Answer)}

/-- The addresses a request would go to: read from the answer, in its order. -/
def Resolves (U : Unicode) (idna : Str → Option Str) (url : Str) (resolver : Str → Option (List Answer))
    (addresses : List Address) : Prop :=
  ∃ destination answers, parseCanonicalDestination U idna url = .ok destination ∧
    rawAddresses destination resolver = some answers ∧ answers.mapM Answer.read = some addresses

theorem deduplicateAddresses_eq_nil {l : List Address} : deduplicateAddresses order l = [] ↔ l = [] := by
  simp only [List.eq_nil_iff_forall_not_mem, mem_deduplicateAddresses]

/-- What `evaluate_destination_policy` decides once the answer is read. -/
theorem evaluate_of_read {destination : CanonicalDestination} {answers : List Answer} {addresses : List Address}
    (parsed : parseCanonicalDestination U idna url = .ok destination)
    (answered : rawAddresses destination resolver = some answers)
    (read : answers.mapM Answer.read = some addresses) :
    evaluateDestinationPolicy U idna order .privateLocal url resolver =
      if addresses = [] then denied .privateLocal .destinationResolutionEmpty
        "Destination resolution returned no addresses." (some destination) [] []
      else decideAddresses .privateLocal destination (deduplicateAddresses order addresses) := by
  unfold evaluateDestinationPolicy
  rw [parsed]
  dsimp only
  rw [answered, Option.bind_some, canonicalizeResolverResults, read]
  simp only [Option.map_some, deduplicateAddresses_eq_nil]

theorem private_allows_iff :
    (evaluateDestinationPolicy U idna order .privateLocal url resolver).allowed = true ↔
      ∃ addresses, Resolves U idna url resolver addresses ∧ addresses ≠ [] ∧
        ∀ a ∈ addresses, PrivateRange a.unmapped := by
  constructor
  · intro allowed
    cases parsed : parseCanonicalDestination U idna url with
    | error message =>
        unfold evaluateDestinationPolicy at allowed
        rw [parsed] at allowed
        cases allowed
    | ok destination =>
        cases answered : rawAddresses destination resolver with
        | none =>
            unfold evaluateDestinationPolicy at allowed
            rw [parsed] at allowed
            simp [answered, denied] at allowed
        | some answers =>
            cases read : answers.mapM Answer.read with
            | none =>
                unfold evaluateDestinationPolicy at allowed
                rw [parsed] at allowed
                simp [answered, canonicalizeResolverResults, read, denied] at allowed
            | some addresses =>
                rw [evaluate_of_read parsed answered read] at allowed
                split at allowed
                · cases allowed
                next nonempty =>
                refine ⟨addresses, ⟨destination, answers, parsed, answered, read⟩, nonempty, fun a mem => ?_⟩
                exact decideAddresses_private_iff.1 allowed a ((mem_deduplicateAddresses a).2 mem)
  · rintro ⟨addresses, ⟨destination, answers, parsed, answered, read⟩, nonempty, all⟩
    rw [evaluate_of_read parsed answered read, if_neg nonempty, decideAddresses_private_iff]
    exact fun a mem => all a ((mem_deduplicateAddresses a).1 mem)

/-- Two answers with the same addresses come to the same decision. -/
theorem private_same {addresses addresses' : List Address} (resolves : Resolves U idna url resolver addresses)
    (resolves' : Resolves U idna url resolver' addresses') (same : ∀ a, a ∈ addresses ↔ a ∈ addresses') :
    SameButZones (evaluateDestinationPolicy U idna order .privateLocal url resolver)
        (evaluateDestinationPolicy U idna order' .privateLocal url resolver') ∧
      (¬ ZoneTied addresses → evaluateDestinationPolicy U idna order .privateLocal url resolver =
        evaluateDestinationPolicy U idna order' .privateLocal url resolver') := by
  obtain ⟨destination, answers, parsed, answered, read⟩ := resolves
  obtain ⟨destination', answers', parsed', answered', read'⟩ := resolves'
  obtain rfl : destination = destination' := Except.ok.inj (parsed.symm.trans parsed')
  have empty : addresses = [] ↔ addresses' = [] := by
    simp only [List.eq_nil_iff_forall_not_mem, same]
  rw [evaluate_of_read parsed answered read, evaluate_of_read parsed answered' read']
  by_cases nothing : addresses = []
  · rw [if_pos nothing, if_pos (empty.1 nothing)]
    exact ⟨.rfl' _ _ _ _, fun _ => rfl⟩
  · rw [if_neg nothing, if_neg fun nothing' => nothing (empty.2 nothing')]
    exact ⟨decideAddresses_same (sorted_withoutZone same), fun apart => by rw [sorted_eq same apart]⟩

end Policy

theorem validatePeer_private {selected peer : Address} (accepted : validatePeer selected peer .privateLocal = .ok ()) :
    PrivateRange peer.unmapped ∧ peer.unmapped = selected.unmapped := by
  unfold validatePeer normalizedIp at accepted
  dsimp only at accepted
  split at accepted
  · cases accepted
  next allowed =>
  split at accepted
  · cases accepted
  next same =>
  have reachable : Reachable (classifyAddress peer.unmapped) :=
    of_decide_eq_true (Bool.eq_true_of_not_eq_false allowed)
  rw [classify_private_iff, Address.unmapped, Address.ipv4Mapped_unmapped] at reachable
  exact ⟨reachable, not_not.1 same⟩

/-- **Private mode reaches only private addresses.**  It allows exactly a well-formed
answer that is not empty and lies in the six ranges, IPv4-mapped addresses unwrapped; the
order of the answer and its repetitions decide nothing but the zone of the addresses
named; and a peer it accepts is in these ranges, and the selected one. -/
theorem private_mode (U : Unicode) (idna : Str → Option Str) (url : Str) :
    (∀ order resolver, (evaluateDestinationPolicy U idna order .privateLocal url resolver).allowed = true ↔
      ∃ addresses, Resolves U idna url resolver addresses ∧ addresses ≠ [] ∧
        ∀ a ∈ addresses, PrivateRange a.unmapped) ∧
    (∀ order order' resolver resolver' addresses addresses', Resolves U idna url resolver addresses →
      Resolves U idna url resolver' addresses' → (∀ a, a ∈ addresses ↔ a ∈ addresses') →
      SameButZones (evaluateDestinationPolicy U idna order .privateLocal url resolver)
          (evaluateDestinationPolicy U idna order' .privateLocal url resolver') ∧
        (¬ ZoneTied addresses → evaluateDestinationPolicy U idna order .privateLocal url resolver =
          evaluateDestinationPolicy U idna order' .privateLocal url resolver')) ∧
    ∀ selected peer, validatePeer selected peer .privateLocal = .ok () →
      PrivateRange peer.unmapped ∧ peer.unmapped = selected.unmapped :=
  ⟨fun _ _ => private_allows_iff, fun _ _ _ _ _ _ first second same => private_same first second same,
    fun _ _ => validatePeer_private⟩

section Poles

private def plainText : Unicode where
  lower := List.map Char.toLower
  upper := List.map Char.toUpper
  nfkc := id
  repr := id

/-- A set walked in the order of insertion, as a small set is whose members fall into
one slot of its table. -/
def insertionOrder : SetOrder := ⟨List.dedup, List.nodup_dedup, fun _ _ => List.mem_dedup⟩

private def zones (first second : String) : Str → Option (List Answer) :=
  fun _ => some [.text first.toList, .text second.toList]

/-- Two loopback answers that differ in their zone: their order selects the address. -/
theorem private_mode_zones :
    (∀ answer, answer ∈ ["::1%a", "::1%b"] ↔ answer ∈ ["::1%b", "::1%a"]) ∧
    ((evaluateDestinationPolicy plainText some insertionOrder .privateLocal "http://localhost/".toList
        (zones "::1%a" "::1%b")).allowed = true ∧
      (evaluateDestinationPolicy plainText some insertionOrder .privateLocal "http://localhost/".toList
        (zones "::1%a" "::1%b")).resolvedAddresses.head? = some "::1%a".toList) ∧
    (evaluateDestinationPolicy plainText some insertionOrder .privateLocal "http://localhost/".toList
        (zones "::1%b" "::1%a")).allowed = true ∧
      (evaluateDestinationPolicy plainText some insertionOrder .privateLocal "http://localhost/".toList
        (zones "::1%b" "::1%a")).resolvedAddresses.head? = some "::1%b".toList := by
  refine ⟨fun answer => by simp [or_comm], ⟨?_, ?_⟩, ?_, ?_⟩
  all_goals decide +kernel

theorem private_mode_localhost :
    ∃ addresses, Resolves plainText some "http://localhost/".toList (zones "127.0.0.1" "::1") addresses ∧
      addresses ≠ [] ∧ ∀ a ∈ addresses, PrivateRange a.unmapped := by
  refine ((private_mode plainText some "http://localhost/".toList).1 insertionOrder
    (zones "127.0.0.1" "::1")).1 ?_
  decide +kernel

end Poles

end ApiSecurityPlatform.Network
