/-
# Assets.HostnameRules -- which hosts may be enrolled

`_normalize_dns_hostname`, the patterns of a revision and `match_asset_candidate`.  An
exclude rule overrides, and a wildcard matches on label boundaries: the suffix test on the
text is a suffix test on the labels (`split_suffix_iff`).  The winning rule is the first of
the largest key, and since the key ends in the id the order of the rules decides nothing
(`selectRule_perm`).

The IP-literal check reads the name before it is encoded and the label checks read it
after: a name that the encoder turns into four decimal octets passes both
(`SpellsAddress`), and the result is a literal that does not normalize to itself.
-/
import ApiSecurityPlatform.Network.Canonical
import Mathlib.Data.List.MinMax

namespace ApiSecurityPlatform.Assets

open ApiSecurityPlatform.Python
open ApiSecurityPlatform.Network

set_option autoImplicit false

/-! ## Names -/

def forbiddenCharacters : Str := "/?#@:\\[]".toList

/-- `value[:-1] if value.endswith(".") else value`. -/
def withoutDot (value : Str) : Str := if value.getLast? = some '.' then value.dropLast else value

/-- The checks of `_normalize_dns_hostname` on the text itself, the IP literal last. -/
def rawText (value : Str) : Option Str :=
  if value = [] ∨ value.any isSpace = true ∨ value.any (fun c => forbiddenCharacters.contains c) = true then none
  else if withoutDot value = [] ∨ (withoutDot value).getLast? = some '.' ∨ '*' ∈ withoutDot value then none
  else if (Address.ofText (withoutDot value)).isSome then none
  else some (withoutDot value)

section Normalize

variable (U : Unicode) (idna : Str → Option Str)

/-- `_normalize_dns_hostname`. -/
def normalizeDnsHostname (value : Str) : Option Str := do
  let raw ← rawText value
  let hostname ← idna (U.lower raw)
  if hostnameValid hostname then some hostname else none

/-- `normalize_candidate_hostname`. -/
def normalizeCandidateHostname (value : Str) : Option Str := normalizeDnsHostname U idna value

inductive RuleType where
  | «include»
  | exclude
deriving DecidableEq, Repr

def wildcard : Str := "*.".toList

/-- `normalize_hostname_pattern`. -/
def normalizeHostnamePattern (ruleType : RuleType) (value : Str) : Option Str :=
  let starred := wildcard.isPrefixOf value
  if '*' ∈ value ∧ starred = false then none
  else if starred = true ∧ value.count '*' ≠ 1 then none
  else if ruleType = .include ∧ starred = false then none
  else do
    let normalized ← normalizeDnsHostname U idna (if starred then value.drop 2 else value)
    if starred = true ∧ (split '.' normalized).length < 2 then none
    else some (if starred then wildcard ++ normalized else normalized)

end Normalize

/-! ## Rules -/

structure HostnameRule where
  id : Int
  authorizationRevisionId : Int
  ruleType : RuleType
  hostnamePattern : Str
deriving DecidableEq

/-- A rule as `create_asset_hostname_rule` writes it: its pattern is normalized. -/
structure StoredRule (U : Unicode) (idna : Str → Option Str) extends HostnameRule where
  written : ∃ value, normalizeHostnamePattern U idna ruleType value = some hostnamePattern

/-- `_matches`. -/
def patternMatches (pattern hostname : Str) : Bool :=
  if wildcard.isPrefixOf pattern then
    hostname != pattern.drop 2 && ('.' :: pattern.drop 2).isSuffixOf hostname
  else hostname == pattern

/-- The key of `_select_rule`. -/
def HostnameRule.key (rule : HostnameRule) : Nat ×ₗ Nat ×ₗ Int :=
  toLex (rule.hostnamePattern.count '.', toLex (rule.hostnamePattern.length, -rule.id))

/-- The order of the ids, named so that the selection computes. -/
local instance (priority := high) orderOfIds : Preorder Int := Int.instLinearOrder.toPartialOrder.toPreorder

/-- `_select_rule`; `max` keeps the first of the largest. -/
def selectRule (rules : List HostnameRule) : Option HostnameRule := rules.argmax HostnameRule.key

inductive CandidateCode where
  | assetCandidateInvalid
  | assetCandidateExcluded
  | assetCandidateNotIncluded
  | assetCandidateIncluded
deriving DecidableEq, Repr

structure AssetCandidateRuleDecision where
  eligible : Bool
  code : CandidateCode
  normalizedHostname : Option Str
  matchedIncludeRuleId : Option Int
  matchedExcludeRuleId : Option Int
deriving DecidableEq

/-- The rules of the revision that match, of one type. -/
def relevant (revision : Int) (hostname : Str) (ruleType : RuleType) (rules : List HostnameRule) :
    List HostnameRule :=
  rules.filter fun rule => rule.authorizationRevisionId = revision ∧ patternMatches rule.hostnamePattern hostname = true ∧
    rule.ruleType = ruleType

/-- The decision, from the two selected rules. -/
def decideRules (hostname : Str) : Option HostnameRule → Option HostnameRule → AssetCandidateRuleDecision
  | included, some excluded =>
      ⟨false, .assetCandidateExcluded, some hostname, included.map HostnameRule.id, some excluded.id⟩
  | none, none => ⟨false, .assetCandidateNotIncluded, some hostname, none, none⟩
  | some included, none => ⟨true, .assetCandidateIncluded, some hostname, some included.id, none⟩

def matchAssetCandidate (U : Unicode) (idna : Str → Option Str) (revision : Int) (candidate : Str)
    (rules : List HostnameRule) : AssetCandidateRuleDecision :=
  match normalizeCandidateHostname U idna candidate with
  | none => ⟨false, .assetCandidateInvalid, none, none, none⟩
  | some hostname => decideRules hostname (selectRule (relevant revision hostname .include rules))
      (selectRule (relevant revision hostname .exclude rules))

/-! ## Label boundaries -/

/-- The labels of `suffix` end those of `hostname`, and are not all of them. -/
def ProperSuffix (suffix hostname : Str) : Prop :=
  ∃ first, first ≠ [] ∧ split '.' hostname = first ++ split '.' suffix

/-- A suffix of the text after a separator is a proper suffix of the parts. -/
theorem split_suffix_iff (c : Char) (suffix s : Str) :
    (∃ first, first ≠ [] ∧ split c s = first ++ split c suffix) ↔ (c :: suffix) <:+ s := by
  constructor
  · rintro ⟨first, some_, eq⟩
    refine ⟨join c first, ?_⟩
    have joined := congrArg (join c) eq
    rw [join_split, join_append c some_ (split_ne_nil c suffix), join_split] at joined
    exact joined.symm
  · rintro ⟨before, rfl⟩
    exact ⟨split c before, split_ne_nil c before, split_append_sep c before suffix⟩

theorem ne_of_properSuffix {suffix hostname : Str} (proper : ProperSuffix suffix hostname) : hostname ≠ suffix := by
  obtain ⟨before, rfl⟩ := (split_suffix_iff '.' suffix hostname).1 proper
  intro same
  have lengths := congrArg List.length same
  rw [List.length_append, List.length_cons] at lengths
  omega

/-- A pattern names a host: as the name itself, or by a suffix of its labels. -/
theorem patternMatches_iff {pattern hostname : Str} : patternMatches pattern hostname = true ↔
    (∃ suffix, pattern = wildcard ++ suffix ∧ ProperSuffix suffix hostname) ∨
      (¬ wildcard <+: pattern ∧ pattern = hostname) := by
  unfold patternMatches
  by_cases starred : wildcard <+: pattern
  · obtain ⟨suffix, rfl⟩ := starred
    have drops : (wildcard ++ suffix).drop 2 = suffix := rfl
    rw [if_pos (List.isPrefixOf_iff_prefix.2 (List.prefix_append _ _)), drops, Bool.and_eq_true, bne_iff_ne,
      List.isSuffixOf_iff_suffix, ← split_suffix_iff]
    constructor
    · rintro ⟨-, proper⟩
      exact .inl ⟨suffix, rfl, proper⟩
    · rintro (⟨other, same, proper⟩ | ⟨plain, -⟩)
      · obtain rfl := List.append_cancel_left same
        exact ⟨ne_of_properSuffix proper, proper⟩
      · exact absurd (List.prefix_append _ _) plain
  · rw [if_neg (fun here => starred (List.isPrefixOf_iff_prefix.1 here)), beq_iff_eq]
    constructor
    · rintro rfl
      exact .inr ⟨starred, rfl⟩
    · rintro (⟨suffix, rfl, -⟩ | ⟨-, rfl⟩)
      · exact absurd (List.prefix_append _ _) starred
      · rfl

/-! ## Normalized names -/

section Laws

variable {U : Unicode} {idna : Str → Option Str}

theorem rawText_eq_some_iff {value raw : Str} : rawText value = some raw ↔
    (value ≠ [] ∧ value.any isSpace = false ∧ value.any (fun c => forbiddenCharacters.contains c) = false) ∧
      (raw ≠ [] ∧ raw.getLast? ≠ some '.' ∧ '*' ∉ raw) ∧ Address.ofText raw = none ∧ withoutDot value = raw := by
  unfold rawText
  constructor
  · intro read
    split at read
    · cases read
    next first =>
    split at read
    · cases read
    next second =>
    split at read
    · cases read
    next literal =>
    cases read
    simp only [not_or, Bool.not_eq_true] at first second
    exact ⟨first, second, Option.not_isSome_iff_eq_none.1 literal, rfl⟩
  · rintro ⟨⟨some_, space, chars⟩, ⟨nonempty, last, star⟩, literal, rfl⟩
    rw [if_neg (by rw [space, chars]; simp [some_]), if_neg (by simp [nonempty, last, star]), if_neg (by simp [literal])]

theorem normalizeDnsHostname_eq_some_iff {value hostname : Str} :
    normalizeDnsHostname U idna value = some hostname ↔
      ∃ raw, rawText value = some raw ∧ idna (U.lower raw) = some hostname ∧ hostnameValid hostname = true := by
  unfold normalizeDnsHostname
  simp only [Option.bind_eq_bind, Option.bind_eq_some_iff, Option.ite_none_right_eq_some, Option.some.injEq]
  constructor
  · rintro ⟨raw, read, encoded, encodes, valid, rfl⟩
    exact ⟨raw, read, encodes, valid⟩
  · rintro ⟨raw, read, encodes, valid⟩
    exact ⟨raw, read, hostname, encodes, valid, rfl⟩

/-- A valid name passes the checks on the text unless it is a literal. -/
theorem rawText_valid {host : Str} (valid : hostnameValid host = true) (name : Address.ofText host = none) :
    rawText host = some host := by
  have plain := PlainHost.of_valid valid
  have kept : withoutDot host = host := by
    rw [withoutDot, if_neg fun last => by simpa using plain.last '.' last]
  have absent : ∀ c ∈ host, forbiddenCharacters.contains c = false := by
    intro c mem
    have other : c ≠ ':' ∧ c ≠ '[' ∧ c ≠ ']' := by
      refine ⟨?_, ?_, ?_⟩
      · rintro rfl
        exact plain.colon mem
      · rintro rfl
        exact plain.opening mem
      · rintro rfl
        exact plain.closing mem
    have all : ∀ d ∈ hostChars, d ≠ ':' ∧ d ≠ '[' ∧ d ≠ ']' → forbiddenCharacters.contains d = false :=
      List.forall_iff_forall_mem.1 (by decide)
    exact all c (plain.chars c mem) other
  refine rawText_eq_some_iff.2 ⟨⟨plain.some_, ?_, ?_⟩, ⟨plain.some_, ?_, ?_⟩, name, kept⟩
  · exact List.any_eq_false.2 fun c mem => by simp [(hostChars_plain c (plain.chars c mem)).2.1]
  · exact List.any_eq_false.2 fun c mem => by rw [absent c mem]; exact Bool.false_ne_true
  · exact fun last => by simpa using plain.last '.' last
  · exact fun star => absurd (plain.chars '*' star) (by decide)

/-- A valid name is lowercase ASCII: neither `lower` nor the encoder changes it. -/
theorem encode_valid (lowers : LowerLaws U) (encoder : IdnaLaws idna) {host : Str}
    (valid : hostnameValid host = true) : idna (U.lower host) = some host := by
  have plain := fun c mem => hostChars_plain c ((PlainHost.of_valid valid).chars c mem)
  have same : U.lower host = host := by
    rw [lowers.ascii host (List.all_eq_true.2 fun c mem => (plain c mem).1)]
    exact (List.map_congr_left fun c mem => (plain c mem).2.2.1).trans (List.map_id _)
  rw [same, idna_valid encoder valid]

/-- A valid name normalizes to itself exactly when it is no literal. -/
theorem normalize_valid_iff (lowers : LowerLaws U) (encoder : IdnaLaws idna) {host : Str}
    (valid : hostnameValid host = true) :
    normalizeDnsHostname U idna host = some host ↔ Address.ofText host = none := by
  rw [normalizeDnsHostname_eq_some_iff]
  constructor
  · rintro ⟨raw, read, -, -⟩
    obtain ⟨-, -, name, kept⟩ := rawText_eq_some_iff.1 read
    have same : withoutDot host = host := by
      rw [withoutDot, if_neg fun last => by simpa using (PlainHost.of_valid valid).last '.' last]
    rwa [← kept, same] at name
  · exact fun name => ⟨host, rawText_valid valid name, encode_valid lowers encoder valid, valid⟩

/-! ## Literals -/

theorem mapM_option_some {α β : Type} {f : α → Option β} {xs : List α} {ys : List β} (mapped : xs.mapM f = some ys) :
    ∀ x ∈ xs, ∃ y, f x = some y := by
  induction xs generalizing ys with
  | nil => exact fun x mem => nomatch mem
  | cons x xs ih =>
      rw [List.mapM_cons] at mapped
      obtain ⟨y, first, rest⟩ := Option.bind_eq_some_iff.1 mapped
      obtain ⟨zs, others, -⟩ := Option.bind_eq_some_iff.1 rest
      intro x' mem
      rcases List.mem_cons.1 mem with rfl | mem
      · exact ⟨y, first⟩
      · exact ih others x' mem

theorem split_length_of_ipv4 {s : Str} {octets : List Nat} (read : ipv4 s = some octets) :
    (split '.' s).length = 4 ∧ (split '.' s).mapM parseOctet = some octets := by
  unfold ipv4 at read
  dsimp only at read
  split at read
  · cases read
  next four => exact ⟨not_not.1 four, read⟩

theorem of_parseOctet {part : Str} {n : Nat} (read : parseOctet part = some n) :
    part ≠ [] ∧ part.all isDigit = true ∧ part.length ≤ 3 := by
  unfold parseOctet at read
  split at read
  · cases read
  next shape =>
    simp only [Bool.or_eq_true, not_or, decide_eq_true_eq, List.isEmpty_iff, Bool.not_eq_true,
      Bool.not_eq_false', Nat.not_lt] at shape
    exact ⟨shape.1.1.1, shape.1.1.2, shape.1.2⟩

/-- Four decimal octets are a valid name. -/
theorem hostnameValid_of_ipv4 {s : Str} {octets : List Nat} (read : ipv4 s = some octets) : hostnameValid s = true := by
  obtain ⟨four, parsed⟩ := split_length_of_ipv4 read
  have part : ∀ label ∈ split '.' s, label ≠ [] ∧ label.all isDigit = true ∧ label.length ≤ 3 := by
    intro label mem
    obtain ⟨n, octet⟩ := mapM_option_some parsed label mem
    exact of_parseOctet octet
  have whole := join_split '.' s
  rcases eq : split '.' s with _ | ⟨a, _ | ⟨b, _ | ⟨c, _ | ⟨d, _ | ⟨e, rest⟩⟩⟩⟩⟩ <;> rw [eq] at four <;>
    simp only [List.length_cons, List.length_nil] at four <;> try omega
  rw [eq] at part whole
  rw [hostnameValid, Bool.and_eq_true, decide_eq_true_eq, List.all_eq_true, eq]
  constructor
  · have lengths : ∀ label ∈ [a, b, c, d], label.length ≤ 3 := fun label mem => (part label mem).2.2
    simp only [List.forall_mem_cons] at lengths
    rw [← whole]
    simp only [join, List.length_append, List.length_cons]
    omega
  · intro label mem
    obtain ⟨some_, digits, short⟩ := part label mem
    have plain : ∀ c ∈ label, isDigit c = true := List.all_eq_true.1 digits
    have hyphen : '-' ∉ label := fun here => absurd (plain '-' here) (by decide)
    simp only [labelValid, Bool.and_eq_true, Bool.not_eq_true', List.isEmpty_eq_false_iff, decide_eq_true_eq,
      bne_iff_ne, List.all_eq_true]
    refine ⟨⟨⟨⟨some_, by omega⟩, fun head => ?_⟩, fun last => ?_⟩, fun c here => ?_⟩
    · exact hyphen (List.mem_of_head? head)
    · exact hyphen (List.mem_of_getLast? last)
    · simp [isLabelChar, plain c here]

/-- The only literals among the valid names are the four decimal octets. -/
theorem literal_iff_ipv4 {host : Str} (valid : hostnameValid host = true) :
    (Address.ofText host).isSome = true ↔ (ipv4 host).isSome = true := by
  have plain := PlainHost.of_valid valid
  have slash : '/' ∉ host := fun mem => absurd (plain.chars '/' mem) (by decide)
  have percent : '%' ∉ host := fun mem => absurd (plain.chars '%' mem) (by decide)
  rw [Address.ofText, Option.isSome_map, ipAddress, if_neg slash]
  cases ipv4 host with
  | some octets => simp
  | none =>
      have short : ipv6Hextets host = none := by
        rw [ipv6Hextets_eq, ipv6Parts, split_of_not_mem ':' plain.colon]
        rfl
      rw [partition_of_not_mem percent]
      simp [short]

/-- The text is no literal, and its encoding spells one. -/
def SpellsAddress (U : Unicode) (idna : Str → Option Str) (value : Str) : Prop :=
  ∃ raw encoded, rawText value = some raw ∧ idna (U.lower raw) = some encoded ∧ (ipv4 encoded).isSome = true

/-- A name as `_normalize_dns_hostname` is to give it. -/
structure Normal (U : Unicode) (idna : Str → Option Str) (hostname : Str) : Prop where
  valid : hostnameValid hostname = true
  name : Address.ofText hostname = none
  again : normalizeCandidateHostname U idna hostname = some hostname

theorem normal_iff (lowers : LowerLaws U) (encoder : IdnaLaws idna) (value : Str) :
    (∀ hostname, normalizeCandidateHostname U idna value = some hostname → Normal U idna hostname) ↔
      ¬ SpellsAddress U idna value := by
  constructor
  · rintro normal ⟨raw, encoded, read, encodes, octets⟩
    have valid : hostnameValid encoded = true := by
      obtain ⟨parts, quad⟩ := Option.isSome_iff_exists.1 octets
      exact hostnameValid_of_ipv4 quad
    have name := (normal encoded (normalizeDnsHostname_eq_some_iff.2 ⟨raw, read, encodes, valid⟩)).name
    have literal := (literal_iff_ipv4 valid).2 octets
    rw [name] at literal
    cases literal
  · intro plain hostname normalized
    obtain ⟨raw, read, encodes, valid⟩ := normalizeDnsHostname_eq_some_iff.1 normalized
    have name : Address.ofText hostname = none := by
      rw [← Option.not_isSome_iff_eq_none]
      exact fun literal => plain ⟨raw, hostname, read, encodes, (literal_iff_ipv4 valid).1 literal⟩
    exact ⟨valid, name, (normalize_valid_iff lowers encoder valid).2 name⟩

/-! ## Stored patterns -/

/-- An include rule is a wildcard. -/
theorem wildcard_of_include {value pattern : Str}
    (normalized : normalizeHostnamePattern U idna .include value = some pattern) :
    ∃ suffix, pattern = wildcard ++ suffix := by
  unfold normalizeHostnamePattern at normalized
  dsimp only at normalized
  split at normalized
  · cases normalized
  split at normalized
  · cases normalized
  split at normalized
  · cases normalized
  next starred =>
  have here : wildcard.isPrefixOf value = true := by simpa using starred
  obtain ⟨hostname, -, rest⟩ := Option.bind_eq_some_iff.1 normalized
  split at rest
  · cases rest
  · exact ⟨hostname, (Option.some.inj rest).symm⟩

/-- A valid name does not begin like a wildcard. -/
theorem not_wildcard_of_valid {hostname : Str} (valid : hostnameValid hostname = true) : ¬ wildcard <+: hostname :=
  fun begins => absurd ((PlainHost.of_valid valid).chars '*' (begins.subset (by decide))) (by decide)

end Laws

/-! ## The selected rule -/

/-- Which rule is reported does not depend on the order of the rules. -/
theorem selectRule_perm {rules rules' : List HostnameRule} (same : rules.Perm rules') :
    (selectRule rules).map HostnameRule.id = (selectRule rules').map HostnameRule.id := by
  unfold selectRule
  cases first : rules.argmax HostnameRule.key with
  | none =>
      rw [List.argmax_eq_none.1 first] at same
      rw [same.symm.eq_nil, List.argmax_nil]
  | some rule =>
      cases second : rules'.argmax HostnameRule.key with
      | none =>
          rw [List.argmax_eq_none.1 second] at same
          rw [same.eq_nil, List.argmax_nil] at first
          cases first
      | some rule' =>
          have up := List.le_of_mem_argmax (same.subset (List.argmax_mem first)) second
          have down := List.le_of_mem_argmax (same.symm.subset (List.argmax_mem second)) first
          have keys := le_antisymm up down
          simp only [HostnameRule.key, EmbeddingLike.apply_eq_iff_eq, Prod.mk.injEq, neg_inj] at keys
          rw [Option.map_some, Option.map_some, keys.2.2]

theorem selectRule_eq_none {rules : List HostnameRule} : selectRule rules = none ↔ rules = [] := List.argmax_eq_none

theorem decideRules_congr {hostname : Str} {included included' excluded excluded' : Option HostnameRule}
    (first : included.map HostnameRule.id = included'.map HostnameRule.id)
    (second : excluded.map HostnameRule.id = excluded'.map HostnameRule.id) :
    decideRules hostname included excluded = decideRules hostname included' excluded' := by
  cases included <;> cases included' <;> cases excluded <;> cases excluded' <;> simp_all [decideRules]

theorem decideRules_eligible {hostname : Str} {included excluded : Option HostnameRule} :
    (decideRules hostname included excluded).eligible = true ↔ included ≠ none ∧ excluded = none := by
  cases included <;> cases excluded <;> simp [decideRules]

theorem decideRules_facts (hostname : Str) (included excluded : Option HostnameRule) :
    (decideRules hostname included excluded).code ≠ .assetCandidateInvalid ∧
      (decideRules hostname included excluded).matchedIncludeRuleId = included.map HostnameRule.id ∧
      (decideRules hostname included excluded).matchedExcludeRuleId = excluded.map HostnameRule.id := by
  cases included <;> cases excluded <;> simp [decideRules]

theorem mem_relevant {revision : Int} {hostname : Str} {ruleType : RuleType} {rules : List HostnameRule}
    {rule : HostnameRule} : rule ∈ relevant revision hostname ruleType rules ↔
      rule ∈ rules ∧ rule.authorizationRevisionId = revision ∧ patternMatches rule.hostnamePattern hostname = true ∧
        rule.ruleType = ruleType := by
  rw [relevant, List.mem_filter, decide_eq_true_eq]

/-- The rules of the revision. -/
def ofRevision (revision : Int) (rules : List HostnameRule) : List HostnameRule :=
  rules.filter fun rule => rule.authorizationRevisionId = revision

theorem relevant_ofRevision (revision : Int) (hostname : Str) (ruleType : RuleType) (rules : List HostnameRule) :
    relevant revision hostname ruleType (ofRevision revision rules) = relevant revision hostname ruleType rules := by
  rw [relevant, ofRevision, List.filter_filter, relevant]
  refine List.filter_congr fun rule _ => ?_
  by_cases of_ : rule.authorizationRevisionId = revision <;> simp [of_]

section Match

variable {U : Unicode} {idna : Str → Option Str} {revision : Int} {candidate : Str}

theorem match_perm {rules rules' : List HostnameRule} (same : rules.Perm rules') :
    matchAssetCandidate U idna revision candidate rules = matchAssetCandidate U idna revision candidate rules' := by
  unfold matchAssetCandidate
  cases normalizeCandidateHostname U idna candidate with
  | none => rfl
  | some hostname =>
      exact decideRules_congr (selectRule_perm (same.filter _)) (selectRule_perm (same.filter _))

theorem match_ofRevision {rules rules' : List HostnameRule}
    (same : (ofRevision revision rules).Perm (ofRevision revision rules')) :
    matchAssetCandidate U idna revision candidate rules = matchAssetCandidate U idna revision candidate rules' := by
  have only : ∀ rules, matchAssetCandidate U idna revision candidate rules =
      matchAssetCandidate U idna revision candidate (ofRevision revision rules) := by
    intro rules
    unfold matchAssetCandidate
    simp only [relevant_ofRevision]
  rw [only rules, only rules', match_perm same]

theorem eligible_iff {rules : List HostnameRule} :
    (matchAssetCandidate U idna revision candidate rules).eligible = true ↔
      ∃ hostname, normalizeCandidateHostname U idna candidate = some hostname ∧
        relevant revision hostname .include rules ≠ [] ∧ relevant revision hostname .exclude rules = [] := by
  unfold matchAssetCandidate
  cases normalizeCandidateHostname U idna candidate with
  | none => simp
  | some hostname =>
      simp only [decideRules_eligible, selectRule_eq_none, ne_eq, Option.some.injEq, exists_eq_left']

/-- An exclude rule makes nothing eligible. -/
theorem eligible_of_exclude {before after : List HostnameRule} {rule : HostnameRule} (excludes : rule.ruleType = .exclude)
    (eligible : (matchAssetCandidate U idna revision candidate (before ++ rule :: after)).eligible = true) :
    (matchAssetCandidate U idna revision candidate (before ++ after)).eligible = true := by
  obtain ⟨hostname, normalized, included, nothing⟩ := eligible_iff.1 eligible
  refine eligible_iff.2 ⟨hostname, normalized, ?_, ?_⟩
  · obtain ⟨rule', mem⟩ := List.exists_mem_of_ne_nil _ included
    obtain ⟨here, of_, named, type⟩ := mem_relevant.1 mem
    have kept : rule' ∈ before ++ after := by
      rcases List.mem_append.1 here with first | rest
      · exact List.mem_append_left _ first
      · rcases List.mem_cons.1 rest with rfl | last
        · rw [excludes] at type
          cases type
        · exact List.mem_append_right _ last
    exact List.ne_nil_of_mem (mem_relevant.2 ⟨kept, of_, named, type⟩)
  · refine List.eq_nil_iff_forall_not_mem.2 fun rule' mem => ?_
    obtain ⟨here, facts⟩ := mem_relevant.1 mem
    have inside : rule' ∈ before ++ rule :: after := by
      rcases List.mem_append.1 here with first | last
      · exact List.mem_append_left _ first
      · exact List.mem_append_right _ (List.mem_cons_of_mem _ last)
    exact absurd (mem_relevant.2 ⟨inside, facts⟩) (nothing ▸ List.not_mem_nil)

end Match

/-! ## Evaluations -/

inductive EvaluationError where
  | notFound
  | inactive
  | invalid
deriving DecidableEq, Repr

inductive LifecycleState where
  | draft
  | active
  | other
deriving DecidableEq, Repr

structure AssetCandidateEvaluation where
  authorizationRevisionId : Int
  normalizedHostname : Option Str
  decisionCode : CandidateCode
  matchedIncludeRuleId : Option Int
  matchedExcludeRuleId : Option Int
deriving DecidableEq

/-- `decision.matched_.._rule_id is not None and .. not in rule_ids`. -/
def unknownRule (rules : List HostnameRule) (matched : Option Int) : Bool :=
  matched.any fun id => !(rules.map HostnameRule.id).contains id

/-- `create_asset_candidate_evaluation`, from the lifecycle state of the revision (`none`
without a profile or a revision of it) and the rules the query finds. -/
def createAssetCandidateEvaluation (U : Unicode) (idna : Str → Option Str) (revision : Option LifecycleState)
    (revisionId : Int) (hostname : Str) (rules : List HostnameRule) :
    Except EvaluationError AssetCandidateEvaluation :=
  match revision with
  | none => .error .notFound
  | some state =>
      if state ≠ .active then .error .inactive
      else
        let decision := matchAssetCandidate U idna revisionId hostname rules
        if decision.code = .assetCandidateInvalid then .error .invalid
        else if unknownRule rules decision.matchedIncludeRuleId || unknownRule rules decision.matchedExcludeRuleId then
          .error .invalid
        else .ok ⟨revisionId, decision.normalizedHostname, decision.code, decision.matchedIncludeRuleId,
          decision.matchedExcludeRuleId⟩

theorem unknownRule_select {revision : Int} {hostname : Str} {ruleType : RuleType} {rules : List HostnameRule} :
    unknownRule rules ((selectRule (relevant revision hostname ruleType rules)).map HostnameRule.id) = false := by
  cases selected : selectRule (relevant revision hostname ruleType rules) with
  | none => rfl
  | some rule =>
      have here := (mem_relevant.1 (List.argmax_mem selected)).1
      simp only [unknownRule, Option.map_some, Option.any_some, Bool.not_eq_false', List.contains_iff_mem]
      exact List.mem_map_of_mem here

/-- The reported rules are among those given: of an active revision only a host without a
normal form is refused. -/
theorem evaluation_error_iff {U : Unicode} {idna : Str → Option Str} {revisionId : Int} {hostname : Str}
    {rules : List HostnameRule} :
    createAssetCandidateEvaluation U idna (some .active) revisionId hostname rules = .error .invalid ↔
      normalizeCandidateHostname U idna hostname = none := by
  have active : ¬ LifecycleState.active ≠ .active := fun differ => differ rfl
  unfold createAssetCandidateEvaluation
  dsimp only
  rw [if_neg active]
  unfold matchAssetCandidate
  cases normalizeCandidateHostname U idna hostname with
  | none => simp
  | some name =>
      have included := @unknownRule_select revisionId name .include rules
      have excluded := @unknownRule_select revisionId name .exclude rules
      obtain ⟨code, includes, excludes⟩ := decideRules_facts name (selectRule (relevant revisionId name .include rules))
        (selectRule (relevant revisionId name .exclude rules))
      simp only
      rw [if_neg code, includes, excludes, included, excluded, Bool.or_false, if_neg Bool.false_ne_true]
      simp

/-! ## The decision on stored rules -/

/-- The pattern has a suffix whose labels end those of the host, and are not all of them. -/
def Covers (pattern hostname : Str) : Prop := ∃ suffix, pattern = wildcard ++ suffix ∧ ProperSuffix suffix hostname

/-- What `match_asset_candidate` is to decide on the stored rules of every revision. -/
structure Decides (U : Unicode) (idna : Str → Option Str) (revision : Int) (candidate : Str)
    (rules : List (StoredRule U idna)) : Prop where
  eligible : (matchAssetCandidate U idna revision candidate (rules.map StoredRule.toHostnameRule)).eligible = true ↔
    ∃ hostname, normalizeCandidateHostname U idna candidate = some hostname ∧
      (∃ rule ∈ rules, rule.authorizationRevisionId = revision ∧ rule.ruleType = .include ∧
        Covers rule.hostnamePattern hostname) ∧
      ¬ ∃ rule ∈ rules, rule.authorizationRevisionId = revision ∧ rule.ruleType = .exclude ∧
        (rule.hostnamePattern = hostname ∨ Covers rule.hostnamePattern hostname)
  permuted : ∀ rules' : List (StoredRule U idna), rules.Perm rules' →
    matchAssetCandidate U idna revision candidate (rules'.map StoredRule.toHostnameRule) =
      matchAssetCandidate U idna revision candidate (rules.map StoredRule.toHostnameRule)
  revisions : ∀ rules' : List (StoredRule U idna),
    (rules'.filter fun rule => rule.authorizationRevisionId = revision) =
      (rules.filter fun rule => rule.authorizationRevisionId = revision) →
    matchAssetCandidate U idna revision candidate (rules'.map StoredRule.toHostnameRule) =
      matchAssetCandidate U idna revision candidate (rules.map StoredRule.toHostnameRule)
  excluded : ∀ (rule : StoredRule U idna) (before after : List (StoredRule U idna)), rules = before ++ after →
    rule.ruleType = .exclude →
    (matchAssetCandidate U idna revision candidate
      ((before ++ rule :: after).map StoredRule.toHostnameRule)).eligible = true →
    (matchAssetCandidate U idna revision candidate (rules.map StoredRule.toHostnameRule)).eligible = true
  normal : ∀ hostname, normalizeCandidateHostname U idna candidate = some hostname → Normal U idna hostname

theorem stored_eligible {U : Unicode} {idna : Str → Option Str} {revision : Int} {candidate : Str}
    (rules : List (StoredRule U idna)) :
    (matchAssetCandidate U idna revision candidate (rules.map StoredRule.toHostnameRule)).eligible = true ↔
      ∃ hostname, normalizeCandidateHostname U idna candidate = some hostname ∧
        (∃ rule ∈ rules, rule.authorizationRevisionId = revision ∧ rule.ruleType = .include ∧
          Covers rule.hostnamePattern hostname) ∧
        ¬ ∃ rule ∈ rules, rule.authorizationRevisionId = revision ∧ rule.ruleType = .exclude ∧
          (rule.hostnamePattern = hostname ∨ Covers rule.hostnamePattern hostname) := by
  rw [eligible_iff]
  refine exists_congr fun hostname => and_congr_right fun normalized => ?_
  have valid : hostnameValid hostname = true := by
    obtain ⟨-, -, -, valid⟩ := normalizeDnsHostname_eq_some_iff.1 normalized
    exact valid
  refine and_congr ⟨fun some_ => ?_, ?_⟩ ⟨?_, fun none_ => ?_⟩
  · obtain ⟨row, mem⟩ := List.exists_mem_of_ne_nil _ some_
    obtain ⟨here, of_, named, type⟩ := mem_relevant.1 mem
    obtain ⟨rule, inside, rfl⟩ := List.mem_map.1 here
    refine ⟨rule, inside, of_, type, ?_⟩
    rcases patternMatches_iff.1 named with covers | ⟨plain, -⟩
    · exact covers
    · obtain ⟨value, written⟩ := rule.written
      rw [type] at written
      obtain ⟨suffix, starred⟩ := wildcard_of_include written
      exact absurd (starred ▸ List.prefix_append _ _) plain
  · rintro ⟨rule, mem, of_, type, covers⟩
    exact List.ne_nil_of_mem (mem_relevant.2 ⟨List.mem_map_of_mem mem, of_, patternMatches_iff.2 (.inl covers), type⟩)
  · rintro none_ ⟨rule, mem, of_, type, names⟩
    have named : patternMatches rule.hostnamePattern hostname = true := by
      refine patternMatches_iff.2 ?_
      rcases names with same | covers
      · exact .inr ⟨same ▸ not_wildcard_of_valid valid, same⟩
      · exact .inl covers
    have found := mem_relevant.2 ⟨List.mem_map_of_mem mem, of_, named, type⟩
    rw [none_] at found
    cases found
  · refine List.eq_nil_iff_forall_not_mem.2 fun row mem => none_ ?_
    obtain ⟨here, of_, named, type⟩ := mem_relevant.1 mem
    obtain ⟨rule, inside, rfl⟩ := List.mem_map.1 here
    exact ⟨rule, inside, of_, type, (patternMatches_iff.1 named).symm.imp And.right id⟩

/-- **Deny overrides, on label boundaries.**  For every candidate and all stored rules the
decision is the one it is to be, and the name it is about is a name in normal form, exactly
when the text does not turn into an address once it is encoded. -/
theorem hostname_rules {U : Unicode} {idna : Str → Option Str} (lowers : LowerLaws U) (encoder : IdnaLaws idna)
    (revision : Int) (candidate : Str) (rules : List (StoredRule U idna)) :
    Decides U idna revision candidate rules ↔ ¬ SpellsAddress U idna candidate := by
  rw [← normal_iff lowers encoder]
  constructor
  · exact Decides.normal
  · intro normal
    refine ⟨stored_eligible rules, fun rules' same => match_perm (same.map _).symm, fun rules' same => ?_, ?_, normal⟩
    · have filters : ∀ rules : List (StoredRule U idna), ofRevision revision (rules.map StoredRule.toHostnameRule) =
          (rules.filter fun rule => rule.authorizationRevisionId = revision).map StoredRule.toHostnameRule := by
        intro rules
        rw [ofRevision, List.filter_map]
        rfl
      refine match_ofRevision ?_
      rw [filters, filters, same]
    · rintro rule before after rfl excludes eligible
      rw [List.map_append, List.map_cons] at eligible
      rw [List.map_append]
      exact eligible_of_exclude excludes eligible

section Fullwidth

/-- The encoder on ASCII and on fullwidth digits; other text is refused. -/
def fullwidthIdna (s : Str) : Option Str := if (s.map narrow).all isAscii = true then some (s.map narrow) else none

theorem fullwidthIdna_ascii {s : Str} (ascii : s.all isAscii = true) : fullwidthIdna s = some s := by
  rw [fullwidthIdna, map_narrow ascii, if_pos ascii]

theorem fullwidthIdna_laws : IdnaLaws fullwidthIdna := by
  constructor
  · intro s r lowercase encoded
    rw [fullwidthIdna_ascii lowercase.1] at encoded
    exact (Option.some.inj encoded).symm
  · intro s labels
    refine fullwidthIdna_ascii (List.all_eq_true.2 fun c mem => ?_)
    rw [← join_split '.' s] at mem
    rcases mem_join '.' mem with rfl | ⟨label, inside, found⟩
    · decide
    · exact List.all_eq_true.1 (labels label inside).2.2.1 c found

/-- Fullwidth digits are no literal before they are encoded: the name of the candidate is
the loopback address, and is refused when it is normalized again. -/
theorem hostname_rules_fullwidth :
    (LowerLaws digitText ∧ IdnaLaws fullwidthIdna ∧
      ∀ s r, fullwidthIdna s = some r → r.all isAscii = true) ∧
    normalizeCandidateHostname digitText fullwidthIdna "１２７.0.0.1".toList = some "127.0.0.1".toList ∧
    (Address.ofText "127.0.0.1".toList).isSome = true ∧
    normalizeCandidateHostname digitText fullwidthIdna "127.0.0.1".toList = none ∧
    ¬ ∀ hostname, normalizeCandidateHostname digitText fullwidthIdna "１２７.0.0.1".toList = some hostname →
      Normal digitText fullwidthIdna hostname := by
  have encoded : normalizeCandidateHostname digitText fullwidthIdna "１２７.0.0.1".toList =
      some "127.0.0.1".toList := by decide
  have literal : (Address.ofText "127.0.0.1".toList).isSome = true := by decide
  refine ⟨⟨digitText_laws, fullwidthIdna_laws, fun s r encodes => ?_⟩, encoded, literal, by decide,
    fun normal => ?_⟩
  · obtain ⟨ascii, same⟩ := Option.ite_none_right_eq_some.1 encodes
    rwa [← Option.some.inj same]
  · rw [(normal _ encoded).name] at literal
    cases literal

/-- An include rule, an exclude rule below it, and one of each under another revision. -/
private def exampleRules : List (StoredRule digitText fullwidthIdna) :=
  [⟨⟨2, 10, .include, "*.example.test".toList⟩, "*.EXAMPLE.TEST.".toList, by decide⟩,
    ⟨⟨3, 10, .exclude, "*.lab.example.test".toList⟩, "*.lab.example.test".toList, by decide⟩,
    ⟨⟨4, 11, .exclude, "api.example.test".toList⟩, "api.example.test".toList, by decide⟩,
    ⟨⟨5, 11, .include, "*.other.test".toList⟩, "*.other.test".toList, by decide⟩]

private theorem not_spells {candidate name : Str}
    (normalized : normalizeCandidateHostname digitText fullwidthIdna candidate = some name)
    (plain : ¬ (ipv4 name).isSome = true) : ¬ SpellsAddress digitText fullwidthIdna candidate := by
  rintro ⟨raw, encoded, read, encodes, octets⟩
  obtain ⟨raw', read', encodes', -⟩ := normalizeDnsHostname_eq_some_iff.1 normalized
  obtain rfl := Option.some.inj (read'.symm.trans read)
  obtain rfl := Option.some.inj (encodes'.symm.trans encodes)
  exact plain octets

/-- Included; excluded below it; and included by another revision only. -/
theorem hostname_rules_example :
    (Decides digitText fullwidthIdna 10 "API.Example.test.".toList exampleRules ∧
      matchAssetCandidate digitText fullwidthIdna 10 "API.Example.test.".toList
        (exampleRules.map StoredRule.toHostnameRule) =
          ⟨true, .assetCandidateIncluded, some "api.example.test".toList, some 2, none⟩) ∧
    (Decides digitText fullwidthIdna 10 "db.lab.example.test".toList exampleRules ∧
      matchAssetCandidate digitText fullwidthIdna 10 "db.lab.example.test".toList
        (exampleRules.map StoredRule.toHostnameRule) =
          ⟨false, .assetCandidateExcluded, some "db.lab.example.test".toList, some 2, some 3⟩) ∧
    Decides digitText fullwidthIdna 10 "db.other.test".toList exampleRules ∧
      matchAssetCandidate digitText fullwidthIdna 10 "db.other.test".toList
        (exampleRules.map StoredRule.toHostnameRule) =
          ⟨false, .assetCandidateNotIncluded, some "db.other.test".toList, none, none⟩ := by
  have decides := fun candidate => hostname_rules digitText_laws fullwidthIdna_laws 10 candidate exampleRules
  have first : normalizeCandidateHostname digitText fullwidthIdna "API.Example.test.".toList =
      some "api.example.test".toList := by decide
  have second : normalizeCandidateHostname digitText fullwidthIdna "db.lab.example.test".toList =
      some "db.lab.example.test".toList := by decide
  have third : normalizeCandidateHostname digitText fullwidthIdna "db.other.test".toList =
      some "db.other.test".toList := by decide
  exact ⟨⟨(decides _).2 (not_spells first (by decide)), by decide⟩,
    ⟨(decides _).2 (not_spells second (by decide)), by decide⟩,
    (decides _).2 (not_spells third (by decide)), by decide⟩

end Fullwidth

end ApiSecurityPlatform.Assets
