/-
# Assets.CandidateDns -- where a candidate resolves to

`classify_asset_candidate_dns` over an arbitrary resolver: the CNAME of a name is whatever
it answers, or an exception, and the addresses are any iterable, which may raise on the way
or never end.  The loop over the CNAMEs is a recursion on the hops that are left.  Its state
is the chain so far, and what it has walked is a path of normalized targets without
repetition; a chain that ends is such a path by itself (`ends_nodup`), so the cycle check
refuses none that does.

The address limit is checked while the answer is read, and the set has more than sixteen
members at some point exactly when it has in the end (`collect_lists`).  It bounds the set and
not the reading: the loop over the answer is run for so many turns, and it never ends exactly
where the answer goes on for ever with no more than sixteen members (`collect_never`).
-/
import ApiSecurityPlatform.Assets.HostnameRules
import ApiSecurityPlatform.Network.PrivateMode
import ApiSecurityPlatform.Theory.Source

namespace ApiSecurityPlatform.Assets

open ApiSecurityPlatform.Theory
open ApiSecurityPlatform.Python
open ApiSecurityPlatform.Network

set_option autoImplicit false

def maxCnameHops : Nat := 8

def maxResolvedAddresses : Nat := 16

/-! ## The resolver -/

/-- What `lookup_cname` does: raise, or return. -/
inductive CnameReply where
  | raised
  | returned (target : Option Str)
deriving DecidableEq

/-- What `resolve_addresses` does: raise, return a `str` or `bytes`, or return an iterable.
Where a value should come, its iterator may raise (`none`). -/
inductive AddressReply where
  | raised
  | text
  | values (answers : Source (Option Answer))

/-- `AssetCandidateDNSResolver`. -/
structure Resolver where
  lookupCname : Str → CnameReply
  resolveAddresses : Str → AddressReply

inductive Lookup where
  | cname (hostname : Str)
  | addresses (hostname : Str)
deriving DecidableEq

def Lookup.isCname : Lookup → Bool
  | .cname _ => true
  | .addresses _ => false

/-! ## Decisions -/

inductive DnsCode where
  | invalid
  | cnameLimitExceeded
  | cnameCycle
  | addressLimitExceeded
  | resolutionFailed
  | publicOnly
  | privateLocalOnly
  | prohibited
deriving DecidableEq, Repr

structure AssetCandidateDNSDecision where
  code : DnsCode
  normalizedHostname : Option Str
  cnameChain : List Str
  terminalHostname : Option Str
  resolvedAddresses : List Str
  addressCategories : List AddressCategory
deriving DecidableEq

/-- `_decision` without addresses. -/
def stopped (code : DnsCode) (normalized : Str) (chain : List Str) (current : Str) : AssetCandidateDNSDecision :=
  ⟨code, some normalized, chain, some current, [], []⟩

/-! ## Addresses -/

/-- How the reading of an answer ends. -/
inductive Collected where
  | failed
  | limit
  | unique (addresses : List Address)
deriving DecidableEq

/-- The loop over `raw_addresses`, for so many turns: `unique` is the set so far, in the order of
its insertions. -/
def collect : Nat → List Address → Source (Option Answer) → Option Collected
  | 0, _, _ => none
  | turns + 1, unique, answers =>
      match answers 0 with
      | none => some (.unique unique)
      | some value =>
          match value.bind Answer.read with
          | none => some .failed
          | some address =>
              let unique := if address ∈ unique then unique else unique ++ [address]
              if maxResolvedAddresses < unique.length then some .limit else collect turns unique answers.rest

def dnsCode (categories : List AddressCategory) : DnsCode :=
  if categories.all fun c => c = .public then .publicOnly
  else if categories.all fun c => c = .loopback ∨ c = .private then .privateLocalOnly
  else .prohibited

/-- The end of `classify_asset_candidate_dns`, after the loop. -/
def concluded (order : SetOrder) (normalized : Str) (chain : List Str) (current : Str) : Collected → AssetCandidateDNSDecision
  | .failed => stopped .resolutionFailed normalized chain current
  | .limit => stopped .addressLimitExceeded normalized chain current
  | .unique unique =>
      let addresses := deduplicateAddresses order unique
      if addresses = [] then stopped .resolutionFailed normalized chain current
      else
        let categories := addresses.map classifyAddress
        ⟨dnsCode categories, some normalized, chain, some current, addresses.map Address.compressed, categories⟩

section Classify

variable (U : Unicode) (idna : Str → Option Str) (order : SetOrder) (resolver : Resolver) (turns : Nat)

/-- What follows at the name without a CNAME; `none` where the loop over the addresses takes more
turns. -/
def classifyAddresses (normalized : Str) (chain : List Str) (current : Str) : Option AssetCandidateDNSDecision :=
  match resolver.resolveAddresses current with
  | .raised | .text => some (stopped .resolutionFailed normalized chain current)
  | .values answers => (collect turns [] answers).map (concluded order normalized chain current)

/-- The loop over the CNAMEs, with the lookups it makes.  The hops that are left are
`maxCnameHops` less the chain, and `observed` is the candidate and the chain. -/
def follow (normalized : Str) (chain : List Str) (current : Str) :
    Nat → Option AssetCandidateDNSDecision × List Lookup
  | 0 =>
      match resolver.lookupCname current with
      | .raised => (some (stopped .resolutionFailed normalized chain current), [.cname current])
      | .returned none =>
          (classifyAddresses order resolver turns normalized chain current, [.cname current, .addresses current])
      | .returned (some _) => (some (stopped .cnameLimitExceeded normalized chain current), [.cname current])
  | hops + 1 =>
      match resolver.lookupCname current with
      | .raised => (some (stopped .resolutionFailed normalized chain current), [.cname current])
      | .returned none =>
          (classifyAddresses order resolver turns normalized chain current, [.cname current, .addresses current])
      | .returned (some target) =>
          match normalizeCandidateHostname U idna target with
          | none => (some (stopped .invalid normalized chain current), [.cname current])
          | some canonical =>
              if canonical ∈ normalized :: chain then
                (some (stopped .cnameCycle normalized (chain ++ [canonical]) current), [.cname current])
              else
                let rest := follow normalized (chain ++ [canonical]) canonical hops
                (rest.1, .cname current :: rest.2)

/-- `classify_asset_candidate_dns`, with the lookups it makes. -/
def classifyRun (hostname : Str) : Option AssetCandidateDNSDecision × List Lookup :=
  match normalizeCandidateHostname U idna hostname with
  | none => (some ⟨.invalid, none, [], none, [], []⟩, [])
  | some normalized => follow U idna order resolver turns normalized [] normalized maxCnameHops

def classifyAssetCandidateDns (hostname : Str) : Option AssetCandidateDNSDecision :=
  (classifyRun U idna order resolver turns hostname).1

/-- The call returns, after however many turns. -/
def Returns (hostname : Str) (d : AssetCandidateDNSDecision) : Prop :=
  ∃ turns, classifyAssetCandidateDns U idna order resolver turns hostname = some d

end Classify

/-! ## Chains -/

section Chains

variable {U : Unicode} {idna : Str → Option Str} {resolver : Resolver}

/-- A path of the resolver's normalized targets. -/
def Targets (U : Unicode) (idna : Str → Option Str) (resolver : Resolver) : Str → List Str → Prop
  | _, [] => True
  | name, next :: rest => ∃ target, resolver.lookupCname name = .returned (some target) ∧
      normalizeCandidateHostname U idna target = some next ∧ Targets U idna resolver next rest

/-- A path to a name without a CNAME. -/
def Ends (U : Unicode) (idna : Str → Option Str) (resolver : Resolver) (name : Str) (chain : List Str) : Prop :=
  Targets U idna resolver name chain ∧ resolver.lookupCname (chain.getLastD name) = .returned none

theorem getLastD_append {α : Type} (l m : List α) (a : α) : (l ++ m).getLastD a = m.getLastD (l.getLastD a) := by
  induction l generalizing a with
  | nil => rfl
  | cons b l ih => rw [List.cons_append, List.getLastD_cons, List.getLastD_cons, ih]

theorem targets_append {name : Str} {chain more : List Str} : Targets U idna resolver name (chain ++ more) ↔
    Targets U idna resolver name chain ∧ Targets U idna resolver (chain.getLastD name) more := by
  induction chain generalizing name with
  | nil => simp [Targets]
  | cons next chain ih =>
      simp only [List.cons_append, Targets, ih, List.getLastD_cons]
      constructor
      · rintro ⟨target, found, normal, first, rest⟩
        exact ⟨⟨target, found, normal, first⟩, rest⟩
      · rintro ⟨⟨target, found, normal, first⟩, rest⟩
        exact ⟨target, found, normal, first, rest⟩

theorem ends_cons {name next : Str} {chain : List Str} : Ends U idna resolver name (next :: chain) ↔
    (∃ target, resolver.lookupCname name = .returned (some target) ∧
      normalizeCandidateHostname U idna target = some next) ∧ Ends U idna resolver next chain := by
  simp only [Ends, Targets, List.getLastD_cons]
  constructor
  · rintro ⟨⟨target, found, normal, rest⟩, last⟩
    exact ⟨⟨target, found, normal⟩, rest, last⟩
  · rintro ⟨⟨target, found, normal⟩, rest, last⟩
    exact ⟨⟨target, found, normal, rest⟩, last⟩

/-- A resolver is a function, so a path that ends is the only one. -/
theorem ends_unique {name : Str} {chain chain' : List Str} (first : Ends U idna resolver name chain)
    (second : Ends U idna resolver name chain') : chain = chain' := by
  induction chain generalizing name chain' with
  | nil =>
      cases chain' with
      | nil => rfl
      | cons next chain' =>
          obtain ⟨⟨target, found, -⟩, -⟩ := ends_cons.1 second
          have last : resolver.lookupCname name = .returned none := first.2
          rw [found] at last
          cases last
  | cons next chain ih =>
      obtain ⟨⟨target, found, normal⟩, rest⟩ := ends_cons.1 first
      cases chain' with
      | nil =>
          have last : resolver.lookupCname name = .returned none := second.2
          rw [found] at last
          cases last
      | cons next' chain' =>
          obtain ⟨⟨target', found', normal'⟩, rest'⟩ := ends_cons.1 second
          rw [found] at found'
          cases found'
          rw [normal] at normal'
          cases normal'
          rw [ih rest rest']

/-- A path that ends passes no name twice: it would go on from there as it did before. -/
theorem ends_nodup {name : Str} {chain : List Str} (ends : Ends U idna resolver name chain) :
    (name :: chain).Nodup := by
  induction chain generalizing name with
  | nil => simp
  | cons next chain ih =>
      have rest := (ends_cons.1 ends).2
      refine List.nodup_cons.2 ⟨fun again => ?_, ih rest⟩
      obtain ⟨before, after, eq⟩ := List.append_of_mem again
      rw [eq] at ends
      have later : Ends U idna resolver name after := by
        obtain ⟨targets, last⟩ := ends
        rw [← List.singleton_append, ← List.append_assoc, targets_append, List.getLastD_concat] at targets
        refine ⟨targets.2, ?_⟩
        rwa [getLastD_append, List.getLastD_cons] at last
      have lengths := congrArg List.length (ends_unique ends later)
      rw [List.length_append, List.length_cons] at lengths
      omega

/-! ## The loop -/

variable {order : SetOrder} {turns : Nat}

/-- How `classify_asset_candidate_dns` of a name in normal form ends: at the end of a
chain, or on the way, or with a name that was there before. -/
inductive Outcome (U : Unicode) (idna : Str → Option Str) (order : SetOrder) (resolver : Resolver) (turns : Nat)
    (normalized : Str) : AssetCandidateDNSDecision → Prop
  | ended (chain : List Str) (d : AssetCandidateDNSDecision) : Ends U idna resolver normalized chain →
      chain.length ≤ maxCnameHops →
      classifyAddresses order resolver turns normalized chain (chain.getLastD normalized) = some d →
      Outcome U idna order resolver turns normalized d
  | stopped (code : DnsCode) (chain : List Str) : Targets U idna resolver normalized chain →
      (normalized :: chain).Nodup → chain.length ≤ maxCnameHops →
      code = .resolutionFailed ∨ code = .cnameLimitExceeded ∨ code = .invalid →
      Outcome U idna order resolver turns normalized (stopped code normalized chain (chain.getLastD normalized))
  | cycle (chain : List Str) (again : Str) : Targets U idna resolver normalized (chain ++ [again]) →
      (normalized :: chain).Nodup → again ∈ normalized :: chain → chain.length < maxCnameHops →
      Outcome U idna order resolver turns normalized
        (Assets.stopped .cnameCycle normalized (chain ++ [again]) (chain.getLastD normalized))

theorem follow_outcome {normalized current : Str} {chain : List Str} {hops : Nat} {d : AssetCandidateDNSDecision}
    (targets : Targets U idna resolver normalized chain) (fresh : (normalized :: chain).Nodup)
    (at_ : current = chain.getLastD normalized) (left : chain.length + hops = maxCnameHops)
    (ran : (follow U idna order resolver turns normalized chain current hops).1 = some d) :
    Outcome U idna order resolver turns normalized d := by
  induction hops generalizing chain current with
  | zero =>
      subst at_
      unfold follow at ran
      cases found : resolver.lookupCname (chain.getLastD normalized) with
      | raised =>
          rw [found] at ran
          obtain rfl := Option.some.inj ran
          exact .stopped _ chain targets fresh (by omega) (.inl rfl)
      | returned target =>
          rw [found] at ran
          cases target with
          | none => exact .ended chain d ⟨targets, found⟩ (by omega) ran
          | some target =>
              obtain rfl := Option.some.inj ran
              exact .stopped _ chain targets fresh (by omega) (.inr (.inl rfl))
  | succ hops ih =>
      unfold follow at ran
      cases found : resolver.lookupCname current with
      | raised =>
          rw [found] at ran
          obtain rfl := Option.some.inj ran
          subst at_
          exact .stopped _ chain targets fresh (by omega) (.inl rfl)
      | returned target =>
          rw [found] at ran
          cases target with
          | none =>
              subst at_
              exact .ended chain d ⟨targets, found⟩ (by omega) ran
          | some target =>
              dsimp only at ran
              cases normal : normalizeCandidateHostname U idna target with
              | none =>
                  rw [normal] at ran
                  obtain rfl := Option.some.inj ran
                  subst at_
                  exact .stopped _ chain targets fresh (by omega) (.inr (.inr rfl))
              | some canonical =>
                  have longer : Targets U idna resolver normalized (chain ++ [canonical]) :=
                    targets_append.2 ⟨targets, target, at_ ▸ found, normal, trivial⟩
                  rw [normal] at ran
                  dsimp only at ran
                  by_cases seen : canonical ∈ normalized :: chain
                  · rw [if_pos seen] at ran
                    obtain rfl := Option.some.inj ran
                    subst at_
                    exact .cycle chain canonical longer fresh seen (by omega)
                  · rw [if_neg seen] at ran
                    refine ih longer ?_ (List.getLastD_concat).symm ?_ ran
                    · rw [← List.cons_append]
                      exact List.nodup_append.2 ⟨fresh, List.nodup_singleton _, fun a mem b last => by
                        rw [List.mem_singleton.1 last]
                        rintro rfl
                        exact seen mem⟩
                    · rw [List.length_append, List.length_singleton]
                      omega

/-- A chain that ends within the hops that are left is followed to its end. -/
theorem follow_ends {normalized current : Str} {chain more : List Str} {hops : Nat}
    (ends : Ends U idna resolver current more) (short : more.length ≤ hops)
    (fresh : (normalized :: chain ++ more).Nodup) :
    (follow U idna order resolver turns normalized chain current hops).1 =
      classifyAddresses order resolver turns normalized (chain ++ more) (more.getLastD current) := by
  induction more generalizing chain current hops with
  | nil =>
      have last : resolver.lookupCname current = .returned none := ends.2
      cases hops <;> unfold follow <;> rw [last, List.append_nil] <;> rfl
  | cons next more ih =>
      obtain ⟨⟨target, found, normal⟩, rest⟩ := ends_cons.1 ends
      cases hops with
      | zero => cases short
      | succ hops =>
          have unseen : next ∉ normalized :: chain := fun seen =>
            (List.nodup_append.1 fresh).2.2 next seen next (by simp) rfl
          have regroup : chain ++ next :: more = chain ++ [next] ++ more := by simp
          unfold follow
          rw [found]
          dsimp only
          rw [normal]
          dsimp only
          rw [if_neg unseen, regroup, List.getLastD_cons]
          refine ih rest (Nat.le_of_succ_le_succ short) ?_
          rwa [List.cons_append, ← regroup]

/-- Only at the end of a chain are there turns to run out of. -/
theorem follow_none {normalized current : Str} {chain : List Str} {hops : Nat}
    (ran : (follow U idna order resolver turns normalized chain current hops).1 = none) :
    ∃ more, Ends U idna resolver current more ∧ more.length ≤ hops := by
  induction hops generalizing chain current with
  | zero =>
      unfold follow at ran
      split at ran
      · cases ran
      next last => exact ⟨[], ⟨trivial, last⟩, Nat.le_refl _⟩
      · cases ran
  | succ hops ih =>
      unfold follow at ran
      split at ran
      · cases ran
      next last => exact ⟨[], ⟨trivial, last⟩, Nat.zero_le _⟩
      next target found =>
      split at ran
      · cases ran
      next canonical normal =>
      split at ran
      · cases ran
      · obtain ⟨more, ends, short⟩ := ih ran
        exact ⟨canonical :: more, ends_cons.2 ⟨⟨target, found, normal⟩, ends⟩, Nat.succ_le_succ short⟩

/-- Where the loop leaves off: with a decision, or at a name whose addresses are asked for. -/
inductive Walked where
  | stopped (code : DnsCode) (chain : List Str) (current : Str)
  | ended (chain : List Str) (current : Str)

def Walked.decision (order : SetOrder) (resolver : Resolver) (turns : Nat) (normalized : Str) :
    Walked → Option AssetCandidateDNSDecision
  | .stopped code chain current => some (Assets.stopped code normalized chain current)
  | .ended chain current => classifyAddresses order resolver turns normalized chain current

/-- Where it leaves off is up to the CNAMEs alone. -/
theorem follow_walked (cname : Str → CnameReply) (normalized current : Str) (chain : List Str) (hops : Nat) :
    ∃ w : Walked, ∀ (order : SetOrder) (replies : Str → AddressReply) (turns : Nat),
      (follow U idna order ⟨cname, replies⟩ turns normalized chain current hops).1 =
        w.decision order ⟨cname, replies⟩ turns normalized := by
  induction hops generalizing chain current with
  | zero =>
      simp only [follow]
      cases cname current with
      | raised => exact ⟨.stopped .resolutionFailed chain current, fun _ _ _ => rfl⟩
      | returned target =>
          cases target with
          | none => exact ⟨.ended chain current, fun _ _ _ => rfl⟩
          | some target => exact ⟨.stopped .cnameLimitExceeded chain current, fun _ _ _ => rfl⟩
  | succ hops ih =>
      simp only [follow]
      cases cname current with
      | raised => exact ⟨.stopped .resolutionFailed chain current, fun _ _ _ => rfl⟩
      | returned target =>
          cases target with
          | none => exact ⟨.ended chain current, fun _ _ _ => rfl⟩
          | some target =>
              dsimp only
              cases normalizeCandidateHostname U idna target with
              | none => exact ⟨.stopped .invalid chain current, fun _ _ _ => rfl⟩
              | some canonical =>
                  dsimp only
                  split
                  · exact ⟨.stopped .cnameCycle (chain ++ [canonical]) current, fun _ _ _ => rfl⟩
                  · exact ih canonical (chain ++ [canonical])

/-- The lookups of the loop. -/
theorem follow_lookups (normalized current : Str) (chain : List Str) (hops : Nat) :
    (follow U idna order resolver turns normalized chain current hops).2.countP Lookup.isCname ≤ hops + 1 ∧
      (follow U idna order resolver turns normalized chain current hops).2.countP (fun lookup => !lookup.isCname) ≤ 1 := by
  induction hops generalizing chain current with
  | zero =>
      unfold follow
      split <;> simp [List.countP_cons, Lookup.isCname]
  | succ hops ih =>
      unfold follow
      split
      · simp [List.countP_cons, Lookup.isCname]
      · simp [List.countP_cons, Lookup.isCname]
      · split
        · simp [List.countP_cons, Lookup.isCname]
        next canonical _ =>
        split
        · simp [List.countP_cons, Lookup.isCname]
        · obtain ⟨names, addresses⟩ := ih canonical (chain ++ [canonical])
          refine ⟨?_, ?_⟩
          · rw [List.countP_cons_of_pos rfl]
            omega
          · rwa [List.countP_cons_of_neg (by simp [Lookup.isCname])]

end Chains

/-! ## The answer -/

/-- The set after the members of `addresses` are added, in the order of the insertions. -/
def grow (unique addresses : List Address) : List Address :=
  addresses.foldl (fun unique address => if address ∈ unique then unique else unique ++ [address]) unique

theorem mem_grow {unique addresses : List Address} {a : Address} : a ∈ grow unique addresses ↔ a ∈ unique ∨ a ∈ addresses := by
  induction addresses generalizing unique with
  | nil => simp [grow]
  | cons b addresses ih =>
      rw [grow, List.foldl_cons, ← grow, ih]
      by_cases here : b ∈ unique
      · rw [if_pos here, List.mem_cons]
        constructor
        · exact Or.imp id .inr
        · rintro (old | rfl | later)
          · exact .inl old
          · exact .inl here
          · exact .inr later
      · rw [if_neg here]
        rw [List.mem_append, List.mem_singleton, List.mem_cons, or_assoc]

theorem nodup_grow {unique addresses : List Address} (fresh : unique.Nodup) : (grow unique addresses).Nodup := by
  induction addresses generalizing unique with
  | nil => exact fresh
  | cons b addresses ih =>
      rw [grow, List.foldl_cons, ← grow]
      by_cases here : b ∈ unique
      · rw [if_pos here]
        exact ih fresh
      · rw [if_neg here]
        refine ih (List.nodup_append.2 ⟨fresh, List.nodup_singleton b, fun a mem c last => ?_⟩)
        rw [List.mem_singleton.1 last]
        rintro rfl
        exact here mem

theorem length_le_grow (unique addresses : List Address) : unique.length ≤ (grow unique addresses).length := by
  induction addresses generalizing unique with
  | nil => exact Nat.le_refl _
  | cons b addresses ih =>
      rw [grow, List.foldl_cons, ← grow]
      refine Nat.le_trans ?_ (ih _)
      split
      · exact Nat.le_refl _
      · rw [List.length_append]
        omega

theorem grow_nil_length (addresses : List Address) : (grow [] addresses).length = addresses.dedup.length := by
  refine ((List.perm_ext_iff_of_nodup (nodup_grow List.nodup_nil) (List.nodup_dedup _)).2 fun a => ?_).length_eq
  rw [mem_grow, List.mem_dedup]
  simp

section Collect

variable {unique : List Address} {answers : Source (Option Answer)} {turns : Nat}

/-- A turn that reads an address. -/
theorem collect_next {value : Option Answer} {address : Address} (yielded : answers 0 = some value)
    (read : value.bind Answer.read = some address) : collect (turns + 1) unique answers =
      if maxResolvedAddresses < (grow unique [address]).length then some .limit
      else collect turns (grow unique [address]) answers.rest := by
  rw [collect, yielded]
  dsimp only
  rw [read]
  rfl

/-- What the loop has come to, it comes to with more turns too. -/
theorem collect_later {later : Nat} {c : Collected} (done : collect turns unique answers = some c) (more : turns ≤ later) :
    collect later unique answers = some c := by
  induction turns generalizing later unique answers with
  | zero => cases done
  | succ turns ih =>
      obtain ⟨later, rfl⟩ : ∃ k, later = k + 1 := ⟨later - 1, by omega⟩
      cases yielded : answers 0 with
      | none =>
          rw [collect, yielded] at done ⊢
          exact done
      | some value =>
          cases read : value.bind Answer.read with
          | none =>
              rw [collect, yielded] at done ⊢
              dsimp only at done ⊢
              rw [read] at done ⊢
              exact done
          | some address =>
              rw [collect_next yielded read] at done ⊢
              split at done
              · next full => rwa [if_pos full]
              · next small =>
                rw [if_neg small]
                exact ih done (by omega)

/-- Reading stops at the limit when the whole set is above it, whatever follows there. -/
theorem collect_lists {values : List Answer} {addresses : List Address} (lists : answers.Lists (values.map some))
    (read : values.mapM Answer.read = some addresses) (small : unique.length ≤ maxResolvedAddresses)
    (enough : values.length < turns) : collect turns unique answers =
      some (if maxResolvedAddresses < (grow unique addresses).length then .limit else .unique (grow unique addresses)) := by
  induction values generalizing unique answers addresses turns with
  | nil =>
      obtain ⟨turns, rfl⟩ : ∃ k, turns = k + 1 := ⟨turns - 1, by omega⟩
      obtain rfl : [] = addresses := by simpa using read
      have ended : answers 0 = none := lists
      rw [collect, ended, grow, List.foldl_nil, if_neg (Nat.not_lt.2 small)]
  | cons value values ih =>
      obtain ⟨turns, rfl⟩ : ∃ k, turns = k + 1 := ⟨turns - 1, by omega⟩
      rw [List.length_cons] at enough
      rw [List.mapM_cons] at read
      obtain ⟨address, first, rest⟩ := Option.bind_eq_some_iff.1 read
      obtain ⟨others, later, same⟩ := Option.bind_eq_some_iff.1 rest
      obtain rfl := Option.some.inj same
      obtain ⟨yielded, lists⟩ : answers 0 = some (some value) ∧ answers.rest.Lists (values.map some) := lists
      have whole : grow unique (address :: others) = grow (grow unique [address]) others := rfl
      rw [collect_next yielded first, whole]
      by_cases full : maxResolvedAddresses < (grow unique [address]).length
      · rw [if_pos full, if_pos (Nat.lt_of_lt_of_le full (length_le_grow _ others))]
      · rw [if_neg full]
        exact ih lists later (by omega) (by omega)

/-- Where the loop comes to a set, the answer has ended and all of it was read. -/
theorem collect_unique {found : List Address} (collected : collect turns unique answers = some (.unique found)) :
    ∃ (values : List Answer) (addresses : List Address), answers.Lists (values.map some) ∧
      values.mapM Answer.read = some addresses := by
  induction turns generalizing unique answers with
  | zero => cases collected
  | succ turns ih =>
      cases yielded : answers 0 with
      | none => exact ⟨[], [], yielded, rfl⟩
      | some value =>
          cases read : value.bind Answer.read with
          | none =>
              rw [collect, yielded] at collected
              dsimp only at collected
              rw [read] at collected
              cases collected
          | some address =>
              rw [collect_next yielded read] at collected
              split at collected
              · cases collected
              · obtain ⟨values, addresses, lists, others⟩ := ih collected
                obtain ⟨value, rfl, first⟩ := Option.bind_eq_some_iff.1 read
                refine ⟨value :: values, address :: addresses, ⟨yielded, lists⟩, ?_⟩
                rw [List.mapM_cons, first, others]
                rfl

/-- A loop that is never done reads an address, and is never done after it. -/
theorem collect_never_next (never : ∀ turns, collect turns unique answers = none) :
    ∃ value address, answers 0 = some value ∧ value.bind Answer.read = some address ∧
      (grow unique [address]).length ≤ maxResolvedAddresses ∧
      ∀ turns, collect turns (grow unique [address]) answers.rest = none := by
  have first := never 1
  cases yielded : answers 0 with
  | none =>
      rw [collect, yielded] at first
      cases first
  | some value =>
      cases read : value.bind Answer.read with
      | none =>
          rw [collect, yielded] at first
          dsimp only at first
          rw [read] at first
          cases first
      | some address =>
          have later (turns : Nat) := never (turns + 1)
          simp only [collect_next yielded read] at later
          by_cases full : maxResolvedAddresses < (grow unique [address]).length
          · have stops := later 0
            rw [if_pos full] at stops
            cases stops
          · simp only [if_neg full] at later
            exact ⟨value, address, rfl, read, Nat.not_lt.1 full, later⟩

/-- The first addresses of an endless answer, from the second on. -/
theorem grow_range (addresses : Nat → Address) (n : Nat) : grow unique ((List.range (n + 1)).map addresses) =
    grow (grow unique [addresses 0]) ((List.range n).map fun i => addresses (i + 1)) := by
  rw [List.range_succ_eq_map, List.map_cons, List.map_map]
  rfl

/-- **The loop never ends exactly where the answer never does**, all of it are addresses and no
more than the limit are different. -/
theorem collect_never (small : unique.length ≤ maxResolvedAddresses) : (∀ turns, collect turns unique answers = none) ↔
    ∃ addresses : Nat → Address,
      (∀ n, ∃ value, answers n = some value ∧ value.bind Answer.read = some (addresses n)) ∧
        ∀ n, (grow unique ((List.range n).map addresses)).length ≤ maxResolvedAddresses := by
  constructor
  · intro never
    have each : ∀ n, ∃ address value, answers n = some value ∧ value.bind Answer.read = some address := by
      intro n
      induction n generalizing unique answers with
      | zero =>
          obtain ⟨value, address, yielded, read, -⟩ := collect_never_next never
          exact ⟨address, value, yielded, read⟩
      | succ n ih =>
          obtain ⟨_, _, -, -, room, later⟩ := collect_never_next never
          exact ih room later
    choose addresses yields using each
    refine ⟨addresses, yields, fun n => ?_⟩
    induction n generalizing unique answers addresses with
    | zero => exact small
    | succ n ih =>
        obtain ⟨value, address, yielded, read, room, later⟩ := collect_never_next never
        obtain ⟨value', yielded', read'⟩ := yields 0
        obtain rfl := Option.some.inj (yielded.symm.trans yielded')
        obtain rfl := Option.some.inj (read.symm.trans read')
        rw [grow_range]
        exact ih room later _ fun n => yields (n + 1)
  · rintro ⟨addresses, yields, bounded⟩ turns
    induction turns generalizing unique answers addresses with
    | zero => rfl
    | succ turns ih =>
        obtain ⟨value, yielded, read⟩ := yields 0
        have room : (grow unique [addresses 0]).length ≤ maxResolvedAddresses := bounded 1
        rw [collect_next yielded read, if_neg (Nat.not_lt.2 room)]
        refine ih room _ (fun n => yields (n + 1)) fun n => ?_
        rw [← grow_range]
        exact bounded (n + 1)

end Collect

/-- A whole answer of valid addresses. -/
def Answers (reply : AddressReply) (addresses : List Address) : Prop :=
  ∃ answers, ∃ values : List Answer, reply = .values answers ∧ answers.Lists (values.map some) ∧
    values.mapM Answer.read = some addresses

/-- An answer that never ends: one address after another, of which no more than the limit are
different. -/
def Endless (reply : AddressReply) : Prop :=
  ∃ answers, ∃ addresses : Nat → Address, reply = .values answers ∧
    (∀ n, ∃ value, answers n = some value ∧ value.bind Answer.read = some (addresses n)) ∧
    ∀ n, ((List.range n).map addresses).dedup.length ≤ maxResolvedAddresses

theorem Answers.unique {reply : AddressReply} {addresses addresses' : List Address} (answered : Answers reply addresses)
    (answered' : Answers reply addresses') : addresses = addresses' := by
  obtain ⟨answers, values, rfl, lists, read⟩ := answered
  obtain ⟨_, values', same, lists', read'⟩ := answered'
  obtain rfl := AddressReply.values.inj same
  have values_ := List.map_injective_iff.2 (Option.some_injective Answer) (lists.unique lists')
  subst values_
  exact Option.some.inj (read.symm.trans read')

section Classified

variable {order order' : SetOrder} {resolver resolver' : Resolver} {normalized current : Str} {chain : List Str}

/-- What the call comes to at the name without a CNAME, after however many turns. -/
def Concludes (order : SetOrder) (resolver : Resolver) (normalized : Str) (chain : List Str) (current : Str)
    (d : AssetCandidateDNSDecision) : Prop :=
  ∃ turns, classifyAddresses order resolver turns normalized chain current = some d

theorem classifyAddresses_later {turns later : Nat} {d : AssetCandidateDNSDecision}
    (done : classifyAddresses order resolver turns normalized chain current = some d) (more : turns ≤ later) :
    classifyAddresses order resolver later normalized chain current = some d := by
  unfold classifyAddresses at done ⊢
  cases reply : resolver.resolveAddresses current with
  | raised => rwa [reply] at done
  | text => rwa [reply] at done
  | values answers =>
      rw [reply] at done
      obtain ⟨c, collected, same⟩ := Option.map_eq_some_iff.1 done
      exact Option.map_eq_some_iff.2 ⟨c, collect_later collected more, same⟩

theorem Concludes.unique {d d' : AssetCandidateDNSDecision} (first : Concludes order resolver normalized chain current d)
    (second : Concludes order resolver normalized chain current d') : d = d' := by
  obtain ⟨turns, done⟩ := first
  obtain ⟨turns', done'⟩ := second
  have one := classifyAddresses_later done (le_max_left turns turns')
  rw [classifyAddresses_later done' (le_max_right turns turns')] at one
  exact (Option.some.inj one).symm

/-- The call runs for ever exactly at an endless answer. -/
theorem classifyAddresses_never : (∀ turns, classifyAddresses order resolver turns normalized chain current = none) ↔
    Endless (resolver.resolveAddresses current) := by
  unfold classifyAddresses
  cases resolver.resolveAddresses current with
  | raised => exact iff_of_false (fun never => nomatch never 0) fun ⟨_, _, same, _⟩ => nomatch same
  | text => exact iff_of_false (fun never => nomatch never 0) fun ⟨_, _, same, _⟩ => nomatch same
  | values answers =>
      simp only [Option.map_eq_none_iff]
      rw [collect_never (Nat.zero_le _)]
      simp only [grow_nil_length]
      constructor
      · rintro ⟨addresses, yields, bounded⟩
        exact ⟨answers, addresses, rfl, yields, bounded⟩
      · rintro ⟨_, addresses, same, yields, bounded⟩
        obtain rfl := AddressReply.values.inj same
        exact ⟨addresses, yields, bounded⟩

theorem deduplicateAddresses_grow_eq_nil {addresses : List Address} :
    deduplicateAddresses order (grow [] addresses) = [] ↔ addresses = [] := by
  rw [deduplicateAddresses_eq_nil, List.eq_nil_iff_forall_not_mem, List.eq_nil_iff_forall_not_mem]
  simp [mem_grow]

/-- `classify_asset_candidate_dns` of an answer of valid addresses. -/
theorem concludes_answers {addresses : List Address}
    (answered : Answers (resolver.resolveAddresses current) addresses) :
    Concludes order resolver normalized chain current (
      if maxResolvedAddresses < addresses.dedup.length then stopped .addressLimitExceeded normalized chain current
      else if addresses = [] then stopped .resolutionFailed normalized chain current
      else ⟨dnsCode ((deduplicateAddresses order (grow [] addresses)).map classifyAddress), some normalized, chain,
        some current, (deduplicateAddresses order (grow [] addresses)).map Address.compressed,
        (deduplicateAddresses order (grow [] addresses)).map classifyAddress⟩) := by
  obtain ⟨answers, values, reply, lists, read⟩ := answered
  refine ⟨values.length + 1, ?_⟩
  unfold classifyAddresses
  rw [reply]
  dsimp only
  rw [collect_lists lists read (Nat.zero_le _) (Nat.lt_succ_self _), grow_nil_length, Option.map_some]
  by_cases full : maxResolvedAddresses < addresses.dedup.length
  · rw [if_pos full, if_pos full]
    rfl
  · rw [if_neg full, if_neg full, concluded]
    dsimp only
    by_cases nothing : addresses = []
    · rw [if_pos nothing, if_pos (deduplicateAddresses_grow_eq_nil.2 nothing)]
    · rw [if_neg nothing, if_neg fun nil => nothing (deduplicateAddresses_grow_eq_nil.1 nil)]

/-- Any other answer comes to no address: nothing is read, or too much. -/
theorem concludes_other (other : ∀ addresses, ¬ Answers (resolver.resolveAddresses current) addresses)
    {d : AssetCandidateDNSDecision} (concludes : Concludes order resolver normalized chain current d) :
    ∃ code, (code = .resolutionFailed ∨ code = .addressLimitExceeded) ∧ d = stopped code normalized chain current ∧
      ∀ order', Concludes order' resolver normalized chain current d := by
  obtain ⟨turns, done⟩ := concludes
  cases reply : resolver.resolveAddresses current with
  | raised =>
      unfold classifyAddresses at done
      rw [reply] at done
      refine ⟨_, .inl rfl, (Option.some.inj done).symm, fun order' => ⟨turns, ?_⟩⟩
      unfold classifyAddresses
      rwa [reply]
  | text =>
      unfold classifyAddresses at done
      rw [reply] at done
      refine ⟨_, .inl rfl, (Option.some.inj done).symm, fun order' => ⟨turns, ?_⟩⟩
      unfold classifyAddresses
      rwa [reply]
  | values answers =>
      unfold classifyAddresses at done
      rw [reply] at done
      obtain ⟨c, collected, same⟩ := Option.map_eq_some_iff.1 done
      have again (order' : SetOrder) : Concludes order' resolver normalized chain current
          (concluded order' normalized chain current c) := by
        refine ⟨turns, ?_⟩
        unfold classifyAddresses
        rw [reply]
        exact congrArg (Option.map _) collected
      cases c with
      | failed => exact ⟨_, .inl rfl, same.symm, fun order' => same ▸ again order'⟩
      | limit => exact ⟨_, .inr rfl, same.symm, fun order' => same ▸ again order'⟩
      | unique found =>
          obtain ⟨values, addresses, lists, read⟩ := collect_unique collected
          exact absurd ⟨answers, values, reply, lists, read⟩ (other addresses)

/-- The two classes a code stands for. -/
def IsPublic (c : AddressCategory) : Prop := c = .public

def IsPrivateLocal (c : AddressCategory) : Prop := c = .loopback ∨ c = .private

theorem dnsCode_public_iff {categories : List AddressCategory} :
    dnsCode categories = .publicOnly ↔ ∀ c ∈ categories, IsPublic c := by
  have all : (categories.all fun c => c = .public) = true ↔ ∀ c ∈ categories, IsPublic c := by
    simp [List.all_eq_true, IsPublic]
  rw [← all, dnsCode]
  split
  · next yes => simp [yes]
  · next no => split <;> simp [no]

theorem dnsCode_private_iff {categories : List AddressCategory} (some_ : categories ≠ []) :
    dnsCode categories = .privateLocalOnly ↔ ∀ c ∈ categories, IsPrivateLocal c := by
  have all : (categories.all fun c => c = .loopback ∨ c = .private) = true ↔ ∀ c ∈ categories, IsPrivateLocal c := by
    simp [List.all_eq_true, IsPrivateLocal]
  have publics : (categories.all fun c => c = .public) = true →
      ¬ (categories.all fun c => c = .loopback ∨ c = .private) = true := by
    intro yes locals
    obtain ⟨c, mem⟩ := List.exists_mem_of_ne_nil _ some_
    obtain rfl : c = .public := of_decide_eq_true (List.all_eq_true.1 yes c mem)
    rcases all.1 locals _ mem with h | h <;> cases h
  rw [← all, dnsCode]
  split
  · next yes => exact iff_of_false (fun same => nomatch same) (publics yes)
  · split
    · next yes => exact iff_of_true rfl yes
    · next no => exact iff_of_false (fun same => nomatch same) no

theorem forall_categories {p : AddressCategory → Prop} {addresses : List Address} :
    (∀ c ∈ (deduplicateAddresses order (grow [] addresses)).map classifyAddress, p c) ↔
      ∀ a ∈ addresses, p (classifyAddress a) := by
  rw [List.forall_mem_map]
  refine forall_congr' fun a => ?_
  rw [mem_deduplicateAddresses, mem_grow]
  simp


/-- The answer has between one and sixteen members, and all are of the class. -/
def AllOf (p : AddressCategory → Prop) (reply : AddressReply) : Prop :=
  ∃ addresses, Answers reply addresses ∧ addresses ≠ [] ∧ addresses.dedup.length ≤ maxResolvedAddresses ∧
    ∀ a ∈ addresses, p (classifyAddress a)

theorem code_iff {code : DnsCode} {p : AddressCategory → Prop}
    (apart : code ≠ .resolutionFailed ∧ code ≠ .addressLimitExceeded)
    (decides : ∀ categories : List AddressCategory, categories ≠ [] → (dnsCode categories = code ↔ ∀ c ∈ categories, p c)) :
    (∃ d, Concludes order resolver normalized chain current d ∧ d.code = code) ↔
      AllOf p (resolver.resolveAddresses current) := by
  by_cases valid : ∃ addresses, Answers (resolver.resolveAddresses current) addresses
  · obtain ⟨addresses, answered⟩ := valid
    have iff : AllOf p (resolver.resolveAddresses current) ↔ addresses ≠ [] ∧
        addresses.dedup.length ≤ maxResolvedAddresses ∧ ∀ a ∈ addresses, p (classifyAddress a) := by
      constructor
      · rintro ⟨addresses', answered', facts⟩
        rwa [answered'.unique answered] at facts
      · exact fun facts => ⟨addresses, answered, facts⟩
    have comes := @concludes_answers order resolver normalized current chain addresses answered
    have only (d : AssetCandidateDNSDecision) (same : Concludes order resolver normalized chain current d) :
        (∃ d, Concludes order resolver normalized chain current d ∧ d.code = code) ↔ d.code = code := by
      constructor
      · rintro ⟨d', concludes, is⟩
        rwa [concludes.unique same] at is
      · exact fun is => ⟨d, same, is⟩
    rw [iff, only _ comes]
    by_cases full : maxResolvedAddresses < addresses.dedup.length
    · rw [if_pos full]
      exact iff_of_false (fun same => apart.2 same.symm) fun facts => absurd full (Nat.not_lt.2 facts.2.1)
    · rw [if_neg full]
      by_cases nothing : addresses = []
      · rw [if_pos nothing]
        exact iff_of_false (fun same => apart.1 same.symm) fun facts => facts.1 nothing
      · rw [if_neg nothing]
        have some_ : (deduplicateAddresses order (grow [] addresses)).map classifyAddress ≠ [] := fun nil =>
          nothing (deduplicateAddresses_grow_eq_nil.1 (List.map_eq_nil_iff.1 nil))
        exact (decides _ some_).trans (forall_categories.trans
          ⟨fun all => ⟨nothing, Nat.not_lt.1 full, all⟩, fun facts => facts.2.2⟩)
  · refine iff_of_false ?_ fun ⟨addresses, answered, _⟩ => valid ⟨addresses, answered⟩
    rintro ⟨d, concludes, same⟩
    obtain ⟨other, which, rfl, -⟩ := concludes_other (fun addresses answered => valid ⟨addresses, answered⟩) concludes
    rcases which with rfl | rfl
    · exact apart.1 same.symm
    · exact apart.2 same.symm

end Classified

/-! ## The decision -/

section Decision

variable {U : Unicode} {idna : Str → Option Str} {order order' : SetOrder} {resolver : Resolver} {hostname : Str}
  {turns : Nat} {d : AssetCandidateDNSDecision}

theorem classify_outcome {normalized : Str} (named : normalizeCandidateHostname U idna hostname = some normalized)
    (ran : classifyAssetCandidateDns U idna order resolver turns hostname = some d) :
    Outcome U idna order resolver turns normalized d := by
  unfold classifyAssetCandidateDns classifyRun at ran
  rw [named] at ran
  have targets : Targets U idna resolver normalized [] := trivial
  exact follow_outcome targets (List.nodup_singleton _) rfl rfl ran

/-- The chain of a decision. -/
structure Chain (U : Unicode) (idna : Str → Option Str) (resolver : Resolver) (normalized : Str)
    (d : AssetCandidateDNSDecision) : Prop where
  named : d.normalizedHostname = some normalized
  path : Targets U idna resolver normalized d.cnameChain
  short : d.cnameChain.length ≤ maxCnameHops
  fresh : (normalized :: d.cnameChain).Nodup ↔ d.code ≠ .cnameCycle
  repeated : d.code = .cnameCycle → ∃ before again, d.cnameChain = before ++ [again] ∧
    (normalized :: before).Nodup ∧ again ∈ normalized :: before

theorem dnsCode_ne_cycle (categories : List AddressCategory) : dnsCode categories ≠ .cnameCycle := by
  unfold dnsCode
  split
  · exact fun same => nomatch same
  · split <;> exact fun same => nomatch same

theorem concluded_facts (normalized : Str) (chain : List Str) (current : Str) (c : Collected) :
    (concluded order normalized chain current c).normalizedHostname = some normalized ∧
      (concluded order normalized chain current c).cnameChain = chain ∧
      (concluded order normalized chain current c).code ≠ .cnameCycle := by
  cases c with
  | failed => exact ⟨rfl, rfl, fun same => nomatch same⟩
  | limit => exact ⟨rfl, rfl, fun same => nomatch same⟩
  | unique found =>
      unfold concluded
      dsimp only
      split
      · exact ⟨rfl, rfl, fun same => nomatch same⟩
      · exact ⟨rfl, rfl, dnsCode_ne_cycle _⟩

theorem classifyAddresses_facts {normalized current : Str} {chain : List Str}
    (ran : classifyAddresses order resolver turns normalized chain current = some d) :
    d.normalizedHostname = some normalized ∧ d.cnameChain = chain ∧ d.code ≠ .cnameCycle := by
  unfold classifyAddresses at ran
  split at ran
  · obtain rfl := Option.some.inj ran
    exact ⟨rfl, rfl, fun same => nomatch same⟩
  · obtain rfl := Option.some.inj ran
    exact ⟨rfl, rfl, fun same => nomatch same⟩
  · obtain ⟨c, -, rfl⟩ := Option.map_eq_some_iff.1 ran
    exact concluded_facts normalized chain current c

theorem Outcome.chain {normalized : Str} (outcome : Outcome U idna order resolver turns normalized d) :
    Chain U idna resolver normalized d := by
  cases outcome with
  | ended chain d ends short ran =>
      obtain ⟨named, same, apart⟩ := classifyAddresses_facts ran
      refine ⟨named, same.symm ▸ ends.1, same.symm ▸ short, ?_, fun cycle => absurd cycle apart⟩
      rw [same]
      exact iff_of_true (ends_nodup ends) apart
  | stopped code chain targets fresh short which =>
      have apart : code ≠ .cnameCycle := by
        rintro rfl
        rcases which with h | h | h <;> cases h
      exact ⟨rfl, targets, short, iff_of_true fresh apart, fun cycle => absurd cycle apart⟩
  | cycle chain again targets fresh seen short =>
      refine ⟨rfl, targets, ?_, ?_, fun _ => ⟨chain, again, rfl, fresh, seen⟩⟩
      · show (chain ++ [again]).length ≤ maxCnameHops
        rw [List.length_append, List.length_singleton]
        omega
      · refine iff_of_false (fun twice => ?_) fun apart => apart rfl
        exact (List.nodup_append.1 (List.cons_append ▸ twice : (normalized :: chain ++ [again]).Nodup)).2.2
          again seen again (by simp) rfl

theorem classify_of_ends {normalized : Str} {chain : List Str}
    (named : normalizeCandidateHostname U idna hostname = some normalized)
    (ends : Ends U idna resolver normalized chain) (short : chain.length ≤ maxCnameHops) (turns : Nat) :
    classifyAssetCandidateDns U idna order resolver turns hostname =
      classifyAddresses order resolver turns normalized chain (chain.getLastD normalized) := by
  unfold classifyAssetCandidateDns classifyRun
  rw [named]
  have fresh : (normalized :: [] ++ chain).Nodup := ends_nodup ends
  exact follow_ends ends short fresh

theorem returns_of_ends {normalized : Str} {chain : List Str}
    (named : normalizeCandidateHostname U idna hostname = some normalized)
    (ends : Ends U idna resolver normalized chain) (short : chain.length ≤ maxCnameHops) :
    Returns U idna order resolver hostname d ↔
      Concludes order resolver normalized chain (chain.getLastD normalized) d := by
  unfold Returns Concludes
  simp only [classify_of_ends named ends short]

/-- The chain of the candidate ends within the hops, at an answer that does not. -/
def Endures (U : Unicode) (idna : Str → Option Str) (resolver : Resolver) (hostname : Str) : Prop :=
  ∃ normalized chain, normalizeCandidateHostname U idna hostname = some normalized ∧
    Ends U idna resolver normalized chain ∧ chain.length ≤ maxCnameHops ∧
    Endless (resolver.resolveAddresses (chain.getLastD normalized))

/-- **The call returns, except at an endless answer.** -/
theorem returns_iff : (∃ d, Returns U idna order resolver hostname d) ↔ ¬ Endures U idna resolver hostname := by
  constructor
  · rintro ⟨d, returns⟩ ⟨normalized, chain, named, ends, short, endless⟩
    obtain ⟨turns, done⟩ := (returns_of_ends named ends short).1 returns
    have never : classifyAddresses order resolver turns normalized chain (chain.getLastD normalized) = none :=
      classifyAddresses_never.2 endless turns
    rw [never] at done
    cases done
  · intro settles
    by_contra stuck
    have never (turns : Nat) : classifyAssetCandidateDns U idna order resolver turns hostname = none := by
      rw [Option.eq_none_iff_forall_ne_some]
      exact fun d done => stuck ⟨d, turns, done⟩
    have ran := never 0
    unfold classifyAssetCandidateDns classifyRun at ran
    split at ran
    · cases ran
    next normalized named =>
    obtain ⟨chain, ends, short⟩ := follow_none ran
    simp only [classify_of_ends named ends short] at never
    exact settles ⟨normalized, chain, named, ends, short, classifyAddresses_never.1 never⟩

theorem follow_later {later : Nat} {normalized current : Str} {chain : List Str} {hops : Nat}
    (ran : (follow U idna order resolver turns normalized chain current hops).1 = some d) (more : turns ≤ later) :
    (follow U idna order resolver later normalized chain current hops).1 = some d := by
  obtain ⟨cname, replies⟩ := resolver
  obtain ⟨w, walked⟩ := @follow_walked U idna cname normalized current chain hops
  rw [walked] at ran ⊢
  cases w with
  | stopped code chain current => exact ran
  | ended chain current => exact classifyAddresses_later ran more

theorem returns_unique {d' : AssetCandidateDNSDecision} (first : Returns U idna order resolver hostname d)
    (second : Returns U idna order resolver hostname d') : d = d' := by
  obtain ⟨turns, done⟩ := first
  obtain ⟨turns', done'⟩ := second
  unfold classifyAssetCandidateDns classifyRun at done done'
  cases named : normalizeCandidateHostname U idna hostname with
  | none =>
      rw [named] at done done'
      exact Option.some.inj (done.symm.trans done')
  | some normalized =>
      rw [named] at done done'
      have one := follow_later done (le_max_left turns turns')
      rw [follow_later done' (le_max_right turns turns')] at one
      exact (Option.some.inj one).symm

/-- The chain of the candidate ends within the hops, at addresses of one class. -/
def EndsAt (U : Unicode) (idna : Str → Option Str) (resolver : Resolver) (hostname : Str)
    (p : AddressCategory → Prop) : Prop :=
  ∃ normalized chain, normalizeCandidateHostname U idna hostname = some normalized ∧
    Ends U idna resolver normalized chain ∧ chain.length ≤ maxCnameHops ∧
    AllOf p (resolver.resolveAddresses (chain.getLastD normalized))

theorem classify_code_iff {code : DnsCode} {p : AddressCategory → Prop}
    (apart : code = .publicOnly ∨ code = .privateLocalOnly)
    (decides : ∀ categories : List AddressCategory, categories ≠ [] → (dnsCode categories = code ↔ ∀ c ∈ categories, p c)) :
    (∃ d, Returns U idna order resolver hostname d ∧ d.code = code) ↔ EndsAt U idna resolver hostname p := by
  have others : code ≠ .resolutionFailed ∧ code ≠ .addressLimitExceeded := by
    rcases apart with rfl | rfl <;> exact ⟨(fun h => nomatch h), (fun h => nomatch h)⟩
  constructor
  · rintro ⟨d, ⟨turns, ran⟩, same⟩
    cases named : normalizeCandidateHostname U idna hostname with
    | none =>
        unfold classifyAssetCandidateDns classifyRun at ran
        rw [named] at ran
        obtain rfl := Option.some.inj ran
        subst same
        rcases apart with h | h <;> cases h
    | some normalized =>
        cases classify_outcome named ran with
        | ended chain d ends short done =>
            exact ⟨normalized, chain, named, ends, short, (code_iff others decides).1 ⟨d, ⟨turns, done⟩, same⟩⟩
        | stopped other chain targets fresh short which =>
            subst same
            rcases which with rfl | rfl | rfl <;> rcases apart with h | h <;> cases h
        | cycle chain again targets fresh seen short =>
            subst same
            rcases apart with h | h <;> cases h
  · rintro ⟨normalized, chain, named, ends, short, all⟩
    obtain ⟨d, concludes, same⟩ := (code_iff others decides).2 all
    exact ⟨d, (returns_of_ends named ends short).2 concludes, same⟩

/-! ## Equal sets -/

/-- The same decision, up to the zones in the texts of the addresses. -/
structure SameButZones (d d' : AssetCandidateDNSDecision) : Prop where
  code : d.code = d'.code
  normalized : d.normalizedHostname = d'.normalizedHostname
  chain : d.cnameChain = d'.cnameChain
  terminal : d.terminalHostname = d'.terminalHostname
  categories : d.addressCategories = d'.addressCategories
  addresses : ∃ l l' : List Address, d.resolvedAddresses = l.map Address.compressed ∧
    d'.resolvedAddresses = l'.map Address.compressed ∧ l.map Address.withoutZone = l'.map Address.withoutZone

theorem SameButZones.of_stopped {d : AssetCandidateDNSDecision} (none_ : d.resolvedAddresses = []) :
    SameButZones d d := ⟨rfl, rfl, rfl, rfl, rfl, [], [], none_, none_, rfl⟩

theorem map_classify_of_withoutZone {l l' : List Address}
    (same : l.map Address.withoutZone = l'.map Address.withoutZone) : l.map classifyAddress = l'.map classifyAddress := by
  have through : ∀ m : List Address, m.map classifyAddress = (m.map Address.withoutZone).map classifyAddress := by
    intro m
    rw [List.map_map]
    exact List.map_congr_left fun a _ => (classify_withoutZone a).symm
  rw [through l, through l', same]

/-- Two answers of valid addresses with the same members, or one reply. -/
def SameMembers (reply reply' : AddressReply) : Prop :=
  reply = reply' ∨ ∃ addresses addresses', Answers reply addresses ∧ Answers reply' addresses' ∧
    ∀ a, a ∈ addresses ↔ a ∈ addresses'

/-- With the same members: both calls come to a decision or neither does, and it is the same one up
to zones. -/
theorem concludes_same {resolver resolver' : Resolver} {normalized current : Str} {chain : List Str}
    (same : SameMembers (resolver.resolveAddresses current) (resolver'.resolveAddresses current))
    (concludes : Concludes order resolver normalized chain current d) :
    ∃ d', Concludes order' resolver' normalized chain current d' ∧ SameButZones d d' ∧
      ((∀ addresses, Answers (resolver.resolveAddresses current) addresses → ¬ ZoneTied addresses) → d = d') := by
  by_cases valid : ∃ addresses, Answers (resolver.resolveAddresses current) addresses
  · have both : ∃ addresses addresses', Answers (resolver.resolveAddresses current) addresses ∧
        Answers (resolver'.resolveAddresses current) addresses' ∧ ∀ a, a ∈ addresses ↔ a ∈ addresses' := by
      rcases same with eq | both
      · obtain ⟨addresses, answered⟩ := valid
        exact ⟨addresses, addresses, answered, eq ▸ answered, fun _ => Iff.rfl⟩
      · exact both
    obtain ⟨addresses, addresses', answered, answered', members⟩ := both
    obtain rfl := concludes.unique (concludes_answers answered)
    refine ⟨_, concludes_answers answered', ?_⟩
    have grown : ∀ a, a ∈ grow [] addresses ↔ a ∈ grow [] addresses' := fun a => by
      rw [mem_grow, mem_grow, members]
    have counts : addresses.dedup.length = addresses'.dedup.length := by
      refine ((List.perm_ext_iff_of_nodup (List.nodup_dedup _) (List.nodup_dedup _)).2 fun a => ?_).length_eq
      rw [List.mem_dedup, List.mem_dedup, members]
    have empty : addresses = [] ↔ addresses' = [] := by
      simp only [List.eq_nil_iff_forall_not_mem, members]
    have sorted := @sorted_withoutZone order order' _ _ grown
    rw [counts]
    by_cases full : maxResolvedAddresses < addresses'.dedup.length
    · rw [if_pos full, if_pos full]
      exact ⟨.of_stopped rfl, fun _ => rfl⟩
    · rw [if_neg full, if_neg full]
      by_cases nothing : addresses = []
      · rw [if_pos nothing, if_pos (empty.1 nothing)]
        exact ⟨.of_stopped rfl, fun _ => rfl⟩
      · rw [if_neg nothing, if_neg fun nil => nothing (empty.2 nil)]
        have categories := map_classify_of_withoutZone sorted
        refine ⟨⟨congrArg dnsCode categories, rfl, rfl, rfl, categories, _, _, rfl, rfl, sorted⟩, fun apart => ?_⟩
        have untied : ¬ ZoneTied (grow [] addresses) := by
          rintro ⟨a, memA, b, memB, tie⟩
          refine apart addresses answered ⟨a, ?_, b, ?_, tie⟩
          · simpa using mem_grow.1 memA
          · simpa using mem_grow.1 memB
        rw [@sorted_eq order order' _ _ grown untied]
  · have other : ∀ addresses, ¬ Answers (resolver.resolveAddresses current) addresses :=
      fun addresses answered => valid ⟨addresses, answered⟩
    rcases same with eq | ⟨addresses, addresses', answered, -⟩
    · obtain ⟨code, -, rfl, others⟩ := concludes_other other concludes
      refine ⟨_, ?_, .of_stopped rfl, fun _ => rfl⟩
      have again := others order'
      unfold Concludes classifyAddresses at again ⊢
      rwa [← eq]
    · exact absurd answered (other addresses)

/-- Two resolvers with one CNAME function walk one chain. -/
theorem follow_same {cname : Str → CnameReply} {replies replies' : Str → AddressReply}
    (same : ∀ name, SameMembers (replies name) (replies' name)) {normalized current : Str} {chain : List Str}
    {hops : Nat} (ran : (follow U idna order ⟨cname, replies⟩ turns normalized chain current hops).1 = some d) :
    ∃ turns' d', (follow U idna order' ⟨cname, replies'⟩ turns' normalized chain current hops).1 = some d' ∧
      SameButZones d d' ∧ ((∀ name addresses, Answers (replies name) addresses → ¬ ZoneTied addresses) → d = d') := by
  obtain ⟨w, walked⟩ := @follow_walked U idna cname normalized current chain hops
  simp only [walked] at ran ⊢
  cases w with
  | stopped code chain current =>
      obtain rfl := Option.some.inj ran
      exact ⟨0, _, rfl, .of_stopped rfl, fun _ => rfl⟩
  | ended chain current =>
      obtain ⟨d', ⟨turns', done⟩, zones, equal⟩ := @concludes_same order order' d ⟨cname, replies⟩ ⟨cname, replies'⟩
        normalized current chain (same current) ⟨turns, ran⟩
      exact ⟨turns', d', done, zones, fun apart => equal (apart current)⟩

theorem returns_same {cname : Str → CnameReply} {replies replies' : Str → AddressReply}
    (same : ∀ name, SameMembers (replies name) (replies' name))
    (returns : Returns U idna order ⟨cname, replies⟩ hostname d) :
    ∃ d', Returns U idna order' ⟨cname, replies'⟩ hostname d' ∧ SameButZones d d' ∧
      ((∀ name addresses, Answers (replies name) addresses → ¬ ZoneTied addresses) → d = d') := by
  obtain ⟨turns, ran⟩ := returns
  unfold Returns
  unfold classifyAssetCandidateDns classifyRun at ran ⊢
  cases named : normalizeCandidateHostname U idna hostname with
  | none =>
      rw [named] at ran
      obtain rfl := Option.some.inj ran
      exact ⟨_, ⟨0, rfl⟩, .of_stopped rfl, fun _ => rfl⟩
  | some normalized =>
      rw [named] at ran
      obtain ⟨turns', d', ran', zones, equal⟩ :=
        @follow_same U idna order order' turns d cname replies replies' same _ _ _ _ ran
      exact ⟨d', ⟨turns', ran'⟩, zones, equal⟩

end Decision

/-- **DNS classification is bounded, and the order of an answer decides nothing but the
order of its zones.**  For every resolver: nine CNAME lookups and one for addresses at
most; one decision, except where the chain ends at an answer that never does; a chain of
normalized targets that repeats a name exactly in the cycle case; one of the two admitting
codes exactly for a chain that ends within eight hops at one to sixteen addresses of the
class; and one decision for two answers with the same members, zones aside. -/
theorem candidate_dns (U : Unicode) (idna : Str → Option Str) (hostname : Str) :
    (∀ order resolver,
      (∀ turns, (classifyRun U idna order resolver turns hostname).2.countP Lookup.isCname ≤ 9 ∧
        (classifyRun U idna order resolver turns hostname).2.countP (fun lookup => !lookup.isCname) ≤ 1) ∧
      ((∃ d, Returns U idna order resolver hostname d) ↔ ¬ Endures U idna resolver hostname) ∧
      (∀ d, Returns U idna order resolver hostname d →
        (∀ d', Returns U idna order resolver hostname d' → d = d') ∧
          ∀ normalized, normalizeCandidateHostname U idna hostname = some normalized →
            Chain U idna resolver normalized d) ∧
      ((∃ d, Returns U idna order resolver hostname d ∧ d.code = .publicOnly) ↔
        EndsAt U idna resolver hostname IsPublic) ∧
      ((∃ d, Returns U idna order resolver hostname d ∧ d.code = .privateLocalOnly) ↔
        EndsAt U idna resolver hostname IsPrivateLocal)) ∧
    ∀ order order' cname replies replies', (∀ name, SameMembers (replies name) (replies' name)) →
      ∀ d, Returns U idna order ⟨cname, replies⟩ hostname d →
        ∃ d', Returns U idna order' ⟨cname, replies'⟩ hostname d' ∧ SameButZones d d' ∧
          ((∀ name addresses, Answers (replies name) addresses → ¬ ZoneTied addresses) → d = d') := by
  refine ⟨fun order resolver => ⟨fun turns => ?_, returns_iff, fun d returns => ⟨fun d' => returns_unique returns,
    fun normalized named => ?_⟩, ?_, ?_⟩, fun _ _ _ _ _ same d returns => returns_same same returns⟩
  · unfold classifyRun
    cases normalizeCandidateHostname U idna hostname with
    | none => exact ⟨Nat.zero_le _, Nat.zero_le _⟩
    | some normalized => exact follow_lookups normalized normalized [] maxCnameHops
  · obtain ⟨turns, ran⟩ := returns
    exact (classify_outcome named ran).chain
  · exact classify_code_iff (.inl rfl) fun _ _ => dnsCode_public_iff
  · exact classify_code_iff (.inr rfl) fun _ some_ => dnsCode_private_iff some_

section Poles

private def answering (values : List String) : Str → AddressReply :=
  fun _ => .values (.of ((values.map fun text => Answer.text text.toList).map some))

private theorem answering_answers (values : List String) (name : Str) {addresses : List Address}
    (read : (values.map fun text => Answer.text text.toList).mapM Answer.read = some addresses) :
    Answers (answering values name) addresses := ⟨_, _, rfl, Source.lists_of _, read⟩

theorem candidate_dns_repeated :
    ∃ d d', Returns digitText fullwidthIdna insertionOrder
        ⟨fun _ => .returned none, answering ["8.8.8.8", "1.1.1.1"]⟩ "api.example.test".toList d ∧
      Returns digitText fullwidthIdna insertionOrder
        ⟨fun _ => .returned none, answering ["1.1.1.1", "8.8.8.8", "1.1.1.1"]⟩ "api.example.test".toList d' ∧
      SameButZones d d' ∧ d.code = .publicOnly := by
  have first : (["8.8.8.8", "1.1.1.1"].map fun text => Answer.text text.toList).mapM Answer.read =
      some [.v4 (Fin.ofNat _ (octets 8 8 8 8)), .v4 (Fin.ofNat _ (octets 1 1 1 1))] := by decide
  have second : (["1.1.1.1", "8.8.8.8", "1.1.1.1"].map fun text => Answer.text text.toList).mapM Answer.read =
      some [.v4 (Fin.ofNat _ (octets 1 1 1 1)), .v4 (Fin.ofNat _ (octets 8 8 8 8)),
        .v4 (Fin.ofNat _ (octets 1 1 1 1))] := by decide
  have returned : ((classifyAssetCandidateDns digitText fullwidthIdna insertionOrder
      ⟨fun _ => .returned none, answering ["8.8.8.8", "1.1.1.1"]⟩ 3 "api.example.test".toList).map
        AssetCandidateDNSDecision.code) = some .publicOnly := by decide
  obtain ⟨d, ran, code⟩ := Option.map_eq_some_iff.1 returned
  obtain ⟨d', returns, zones, -⟩ := (candidate_dns digitText fullwidthIdna "api.example.test".toList).2 insertionOrder
    insertionOrder (fun _ => .returned none) _ (answering ["1.1.1.1", "8.8.8.8", "1.1.1.1"]) (fun name => by
      refine .inr ⟨_, _, answering_answers _ name first, answering_answers _ name second, fun a => ?_⟩
      simp only [List.mem_cons, List.not_mem_nil, or_false]
      constructor
      · rintro (rfl | rfl)
        · exact .inr (.inl rfl)
        · exact .inl rfl
      · rintro (rfl | rfl | rfl)
        · exact .inr rfl
        · exact .inl rfl
        · exact .inr rfl) d ⟨3, ran⟩
  exact ⟨d, d', ⟨3, ran⟩, returns, zones, code⟩

private def linkLocals (first second : String) : Resolver := ⟨fun _ => .returned none, answering [first, second]⟩

/-- One address again and again. -/
private def forever : Resolver := ⟨fun _ => .returned none, fun _ => .values fun _ => some (some (.text "8.8.8.8".toList))⟩

/-- An answer without an end, at which the call never returns; and two answers with the same two
members, whose zones come out in the order they were in. -/
theorem candidate_dns_endless_zones :
    (∀ turns, classifyAssetCandidateDns digitText fullwidthIdna insertionOrder forever turns
      "api.example.test".toList = none) ∧
    (∀ answer, answer ∈ ["fe80::1%a", "fe80::1%b"] ↔ answer ∈ ["fe80::1%b", "fe80::1%a"]) ∧
    ∃ d d', Returns digitText fullwidthIdna insertionOrder (linkLocals "fe80::1%a" "fe80::1%b")
        "api.example.test".toList d ∧
      Returns digitText fullwidthIdna insertionOrder (linkLocals "fe80::1%b" "fe80::1%a")
        "api.example.test".toList d' ∧ d ≠ d' := by
  have never : ∀ turns, classifyAssetCandidateDns digitText fullwidthIdna insertionOrder forever turns
      "api.example.test".toList = none := by
    have normal : normalizeCandidateHostname digitText fullwidthIdna "api.example.test".toList =
        some "api.example.test".toList := by decide
    have ends : Ends digitText fullwidthIdna forever "api.example.test".toList [] := ⟨trivial, rfl⟩
    have read : Answer.read (.text "8.8.8.8".toList) = some (.v4 (Fin.ofNat _ (octets 8 8 8 8))) := by decide
    intro turns
    rw [classify_of_ends normal ends (Nat.zero_le _)]
    refine classifyAddresses_never.2 ⟨_, fun _ => .v4 (Fin.ofNat _ (octets 8 8 8 8)), rfl,
      fun n => ⟨some (.text "8.8.8.8".toList), rfl, read⟩, fun n => ?_⟩ turns
    cases n with
    | zero => exact Nat.zero_le _
    | succ n =>
        rw [List.map_const', List.length_range, List.replicate_dedup (Nat.succ_ne_zero n)]
        decide
  have apart : classifyAssetCandidateDns digitText fullwidthIdna insertionOrder (linkLocals "fe80::1%a" "fe80::1%b") 3
        "api.example.test".toList ≠
      classifyAssetCandidateDns digitText fullwidthIdna insertionOrder (linkLocals "fe80::1%b" "fe80::1%a") 3
        "api.example.test".toList := by decide
  obtain ⟨d, first⟩ := Option.isSome_iff_exists.1 (show (classifyAssetCandidateDns digitText fullwidthIdna insertionOrder
    (linkLocals "fe80::1%a" "fe80::1%b") 3 "api.example.test".toList).isSome = true by decide)
  obtain ⟨d', second⟩ := Option.isSome_iff_exists.1 (show (classifyAssetCandidateDns digitText fullwidthIdna insertionOrder
    (linkLocals "fe80::1%b" "fe80::1%a") 3 "api.example.test".toList).isSome = true by decide)
  refine ⟨never, fun answer => by simp [or_comm], d, d', ⟨3, first⟩, ⟨3, second⟩, ?_⟩
  rintro rfl
  exact apart (first.trans second.symm)

end Poles

end ApiSecurityPlatform.Assets
