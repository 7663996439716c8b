/-
# Network.Canonical -- the policy and the gateway see one destination

`parse_origin` and `parse_canonical_destination` read the same `urlsplit` and normalize the
hostname each in its own order: strip, lower, strip dots against strip dots, lower, IDNA.
On what both accept they agree (`parse_agree`), by what is known of `str.lower`
(`LowerLaws`): what is lowered stays as it is, and no whitespace appears.

A destination rendered as a URL is read back as itself, with one exception: the gateway
looks for an IP literal before it encodes, so a name whose encoding spells an address is a
name the first time and a literal the second (`SpellsAddress`).
-/
import ApiSecurityPlatform.Network.Destination
import ApiSecurityPlatform.Policies.ScopePolicy
import ApiSecurityPlatform.Python.IpText
import Mathlib.Data.List.TakeWhile

namespace ApiSecurityPlatform.Network

open ApiSecurityPlatform.Theory
open ApiSecurityPlatform.Python
open ApiSecurityPlatform.Policies

set_option autoImplicit false

/-! ## What is known of the library -/

/-- `str.lower`. -/
structure LowerLaws (U : Unicode) : Prop where
  ascii : ∀ s, s.all isAscii = true → U.lower s = s.map Char.toLower
  /-- No part of a lowered text changes again. -/
  settled : ∀ s t, t <:+: U.lower s → U.lower t = t
  space : ∀ s, s.any isSpace = false → (U.lower s).any isSpace = false

def LowercaseAscii (s : Str) : Prop := s.all isAscii = true ∧ s.map Char.toLower = s

/-- `encode('idna')`: the identity on lowercase ASCII labels. -/
structure IdnaLaws (idna : Str → Option Str) : Prop where
  same : ∀ s r, LowercaseAscii s → idna s = some r → r = s
  encodes : ∀ s, (∀ label ∈ split '.' s, label ≠ [] ∧ label.length ≤ 63 ∧ LowercaseAscii label) →
    idna s = some s

/-! ## The two readings -/

section Readings

variable {U : Unicode} {idna : Str → Option Str} {url : Str}

theorem parseOrigin_ok {origin : Origin} (read : parseOrigin U url = .ok origin) :
    ∃ parsed hostname port, urlsplit U url = some parsed ∧
      (parsed.scheme = "http".toList ∨ parsed.scheme = "https".toList) ∧
      parsed.hostname U = some hostname ∧ parsed.port = some port ∧
      normalizeHostname U hostname = .ok origin.hostname ∧ origin.scheme = parsed.scheme ∧
      origin.port = effectivePort parsed.scheme port := by
  unfold parseOrigin at read
  split at read
  · cases read
  next parsed splits =>
  split at read
  · cases read
  next scheme =>
  split at read
  · cases read
  split at read
  · cases read
  next hostname named =>
  split at read
  · cases read
  split at read
  · cases read
  next port ported =>
  simp only [bind_ok] at read
  obtain ⟨normal, normalizes, same⟩ := read
  obtain rfl := Except.ok.inj same
  exact ⟨parsed, hostname, port, splits, not_not.1 scheme, named, ported, normalizes, rfl, rfl⟩

/-- The hostname the gateway canonicalizes. -/
def rawHostname (U : Unicode) (hostname : Str) : Str := U.lower (rstrip (fun c => c == '.') hostname)

theorem parseCanonicalDestination_ok {destination : CanonicalDestination}
    (read : parseCanonicalDestination U idna url = .ok destination) :
    ∃ parsed hostname port canonical, url.any isSpace = false ∧ urlsplit U url = some parsed ∧
      parsed.hostname U = some hostname ∧ '%' ∉ hostname ∧ parsed.port = some port ∧
      1 ≤ effectivePort (U.lower parsed.scheme) port ∧ effectivePort (U.lower parsed.scheme) port ≤ 65535 ∧
      (U.lower parsed.scheme = "http".toList ∨ U.lower parsed.scheme = "https".toList) ∧
      rawHostname U hostname ≠ [] ∧ canonicalHostname idna (rawHostname U hostname) = .ok canonical ∧
      destination = ⟨U.lower parsed.scheme, canonical.1, effectivePort (U.lower parsed.scheme) port,
        canonical.2.isSome, canonical.2⟩ := by
  unfold parseCanonicalDestination at read
  simp only [bind_ok, raiseIf_ok, orRaise_ok] at read
  obtain ⟨-, -, -, space, parsed, splits, -, scheme, -, -, hostname, named, -, -, -, percent, port, ported, -,
    bounds, -, nonempty, canonical, canonicalizes, same⟩ := read
  obtain rfl := Except.ok.inj same
  obtain ⟨low, high⟩ := not_not.1 bounds
  exact ⟨parsed, hostname, port, canonical, by simpa using space, splits, named, percent, ported, low, high,
    not_not.1 scheme, nonempty, canonicalizes, rfl⟩

theorem canonicalHostname_ok {raw : Str} {canonical : Str × Option Address}
    (read : canonicalHostname idna raw = .ok canonical) :
    (∃ literal, Address.ofText raw = some literal ∧ canonical = (literal.compressed, some literal)) ∨
      (Address.ofText raw = none ∧ idna raw = some canonical.1 ∧ hostnameValid canonical.1 = true ∧
        canonical.2 = none) := by
  unfold canonicalHostname at read
  split at read
  · next literal found =>
    exact .inl ⟨literal, found, (Except.ok.inj read).symm⟩
  · next none_ =>
    simp only [bind_ok, raiseIf_ok, orRaise_ok] at read
    obtain ⟨hostname, encoded, -, valid, same⟩ := read
    obtain rfl := Except.ok.inj same
    exact .inr ⟨none_, encoded, by simpa using valid, rfl⟩

/-! ### `urlsplit`, in its steps -/

def isDelimiter (c : Char) : Bool := c == '/' || c == '?' || c == '#'

def cleaned (url : Str) : Str :=
  (lstrip (fun c => c.toNat ≤ 32) url).filter fun c => !(c == '\t' || c == '\r' || c == '\n')

def schemeSplit (U : Unicode) (text : Str) : Str × Str :=
  if (partition ':' text).2.1 && ((partition ':' text).1.head?.map isAsciiAlpha).getD false &&
      (partition ':' text).1.all isSchemeChar then
    (U.lower (partition ':' text).1, (partition ':' text).2.2)
  else ([], text)

def netlocOf (rest : Str) : Str :=
  if ['/', '/'].isPrefixOf rest then (rest.drop 2).takeWhile fun c => !isDelimiter c else []

def afterNetloc (rest : Str) : Str :=
  if ['/', '/'].isPrefixOf rest then (rest.drop 2).dropWhile fun c => !isDelimiter c else rest

/-- The checks on a netloc. -/
def netlocRefused (U : Unicode) (netloc : Str) : Prop :=
  xor (decide ('[' ∈ netloc)) (decide (']' ∈ netloc)) = true ∨
    ('[' ∈ netloc ∧ bracketedNetlocValid netloc = false) ∨ netlocValid U netloc = false

theorem urlsplit_eq_some_iff {parsed : SplitResult} : urlsplit U url = some parsed ↔
    ¬ netlocRefused U (netlocOf (schemeSplit U (cleaned url)).2) ∧
      parsed = ⟨(schemeSplit U (cleaned url)).1, netlocOf (schemeSplit U (cleaned url)).2,
        (partition '?' (partition '#' (afterNetloc (schemeSplit U (cleaned url)).2)).1).1⟩ := by
  have steps : urlsplit U url =
      if xor (decide ('[' ∈ netlocOf (schemeSplit U (cleaned url)).2))
          (decide (']' ∈ netlocOf (schemeSplit U (cleaned url)).2)) then none
      else if '[' ∈ netlocOf (schemeSplit U (cleaned url)).2 ∧
          bracketedNetlocValid (netlocOf (schemeSplit U (cleaned url)).2) = false then none
      else if netlocValid U (netlocOf (schemeSplit U (cleaned url)).2) = false then none
      else some ⟨(schemeSplit U (cleaned url)).1, netlocOf (schemeSplit U (cleaned url)).2,
        (partition '?' (partition '#' (afterNetloc (schemeSplit U (cleaned url)).2)).1).1⟩ := rfl
  rw [steps, netlocRefused]
  generalize netlocOf (schemeSplit U (cleaned url)).2 = netloc
  split
  · next odd => simp [odd]
  split
  · next brackets => simp [brackets]
  split
  · next invalid => simp [invalid]
  next even balanced valid =>
  rw [Option.some.injEq]
  constructor
  · rintro rfl
    exact ⟨not_or.2 ⟨even, not_or.2 ⟨balanced, valid⟩⟩, rfl⟩
  · rintro ⟨-, rfl⟩
    rfl

/-- The characters of a hostname come from the URL. -/
theorem mem_of_mem_netloc {parsed : SplitResult} (splits : urlsplit U url = some parsed) {c : Char}
    (mem : c ∈ parsed.netloc) : c ∈ url := by
  obtain ⟨-, rfl⟩ := urlsplit_eq_some_iff.1 splits
  have inCleaned : c ∈ cleaned url := by
    dsimp only at mem
    unfold netlocOf at mem
    split at mem
    · have dropped := List.mem_of_mem_drop ((List.takeWhile_prefix _).subset mem)
      unfold schemeSplit at dropped
      split at dropped
      · exact mem_partition_snd dropped
      · exact dropped
    · cases mem
  exact (List.dropWhile_suffix _).subset (List.mem_filter.1 inCleaned).1

theorem mem_of_mem_hostinfo {parsed : SplitResult} {c : Char} (mem : c ∈ parsed.hostinfo.1) : c ∈ parsed.netloc := by
  unfold SplitResult.hostinfo at mem
  dsimp only at mem
  split at mem
  · exact mem_rpartition (mem_partition_snd (mem_partition_fst mem))
  · exact mem_rpartition (mem_partition_fst mem)

/-- A hostname without a zone is a lowered text of the URL's characters. -/
theorem hostname_lowered {parsed : SplitResult} {hostname : Str} (named : parsed.hostname U = some hostname)
    (plain : '%' ∉ hostname) : ∃ s, hostname = U.lower s ∧ ∀ c ∈ s, c ∈ parsed.netloc := by
  unfold SplitResult.hostname at named
  dsimp only at named
  split at named
  · cases named
  obtain rfl := Option.some.inj named
  refine ⟨(partition '%' parsed.hostinfo.1).1, ?_, fun c mem => mem_of_mem_hostinfo (mem_partition_fst mem)⟩
  split
  · next zone =>
    rw [if_pos zone] at plain
    simp at plain
  · exact List.append_nil _

/-- Both orders of normalizing come to the hostname without its trailing dots. -/
theorem rawHostname_eq (laws : LowerLaws U) {parsed : SplitResult} {hostname : Str}
    (named : parsed.hostname U = some hostname) (plain : '%' ∉ hostname) :
    rawHostname U hostname = rstrip (fun c => c == '.') hostname := by
  obtain ⟨s, rfl, -⟩ := hostname_lowered named plain
  exact laws.settled s _ (rstrip_isPrefix _ _).isInfix

theorem normalized_eq (laws : LowerLaws U) {parsed : SplitResult} {hostname : Str}
    (splits : urlsplit U url = some parsed) (space : url.any isSpace = false)
    (named : parsed.hostname U = some hostname) (plain : '%' ∉ hostname) :
    rstrip (fun c => c == '.') (U.lower (strip hostname)) = rawHostname U hostname := by
  obtain ⟨s, rfl, sources⟩ := hostname_lowered named plain
  have noSpace : s.any isSpace = false := by
    refine List.any_eq_false.2 fun c mem found => ?_
    have fromUrl := mem_of_mem_netloc splits (sources c mem)
    exact List.any_eq_false.1 space c fromUrl found
  rw [strip_of_no_space (laws.space s noSpace), laws.settled s _ List.infix_rfl, rawHostname_eq laws named plain]

/-- What the policy makes of the same hostname. -/
theorem normalizeHostname_eq (laws : LowerLaws U) {parsed : SplitResult} {hostname normal : Str}
    (splits : urlsplit U url = some parsed) (space : url.any isSpace = false)
    (named : parsed.hostname U = some hostname) (plain : '%' ∉ hostname)
    (normalizes : normalizeHostname U hostname = .ok normal) :
    (∀ literal, Address.ofText (rawHostname U hostname) = some literal → normal = literal.compressed) ∧
      (Address.ofText (rawHostname U hostname) = none → normal = rawHostname U hostname) := by
  rw [← normalized_eq laws splits space named plain]
  unfold normalizeHostname at normalizes
  dsimp only at normalizes
  split at normalizes
  · cases normalizes
  split at normalizes
  · next ip read =>
    obtain rfl := Except.ok.inj normalizes
    rw [Address.ofText, read]
    refine ⟨?_, (fun none_ => by cases none_)⟩
    rintro literal ⟨⟩
    exact (Address.compressed_of_read read).symm
  · next none_ =>
    obtain rfl := Except.ok.inj normalizes
    rw [Address.ofText, none_]
    exact ⟨(fun _ found => by cases found), fun _ => rfl⟩

/-- The gateway's destination is the policy's origin. -/
structure Agrees (idna : Str → Option Str) (origin : Origin) (destination : CanonicalDestination) : Prop where
  scheme : destination.scheme = origin.scheme
  port : destination.port = origin.port
  literal : destination.isIpLiteral = true → destination.hostname = origin.hostname
  encoded : destination.isIpLiteral = false → idna origin.hostname = some destination.hostname
  ascii : origin.hostname.all isAscii = true → destination.hostname = origin.hostname

theorem parse_agree (laws : LowerLaws U) (idnaLaws : IdnaLaws idna) {origin : Origin}
    {destination : CanonicalDestination} (policy : parseOrigin U url = .ok origin)
    (gateway : parseCanonicalDestination U idna url = .ok destination) : Agrees idna origin destination := by
  obtain ⟨parsed, hostname, port, splits, scheme, named, ported, normalizes, originScheme, originPort⟩ :=
    parseOrigin_ok policy
  obtain ⟨parsed', hostname', port', canonical, space, splits', named', plain, ported', -, -, -, -,
    canonicalizes, rfl⟩ := parseCanonicalDestination_ok gateway
  obtain rfl := Option.some.inj (splits.symm.trans splits')
  obtain rfl := Option.some.inj (named.symm.trans named')
  obtain rfl := Option.some.inj (ported.symm.trans ported')
  have lowered : U.lower parsed.scheme = parsed.scheme := by
    rcases scheme with eq | eq <;> rw [eq, laws.ascii _ (by decide)] <;> decide
  obtain ⟨whenLiteral, whenName⟩ := normalizeHostname_eq laws splits space named plain normalizes
  rw [lowered]
  rcases canonicalHostname_ok canonicalizes with ⟨literal, found, rfl⟩ | ⟨none_, encoded, -, noLiteral⟩
  · have same := whenLiteral literal found
    exact ⟨originScheme.symm, originPort.symm, fun _ => same.symm, (fun name => nomatch name), fun _ => same.symm⟩
  · have same := whenName none_
    rw [noLiteral]
    refine ⟨originScheme.symm, originPort.symm, (fun name => nomatch name), fun _ => by rw [same]; exact encoded, ?_⟩
    intro ascii
    rw [same] at ascii ⊢
    refine idnaLaws.same _ _ ⟨ascii, ?_⟩ encoded
    rw [← laws.ascii _ ascii]
    exact laws.settled _ _ List.infix_rfl

end Readings

/-! ## Rendering -/

/-- `scheme://host:port`, with an IPv6 literal in brackets. -/
def render (d : CanonicalDestination) : Str :=
  d.scheme ++ ':' :: '/' :: '/' ::
    ((if ':' ∈ d.hostname then '[' :: d.hostname ++ [']'] else d.hostname) ++ ':' :: Nat.toDigits 10 d.port)

/-- The characters of a rendered host and port. -/
def hostChars : List Char := "abcdefghijklmnopqrstuvwxyz0123456789-.:[]".toList

theorem hostChars_plain : ∀ c ∈ hostChars, isAscii c = true ∧ isSpace c = false ∧ c.toLower = c ∧
    isDelimiter c = false ∧ c ≠ '@' ∧ c ≠ '%' ∧ c ≠ '\\' ∧ (c == '\t' || c == '\r' || c == '\n') = false :=
  List.forall_iff_forall_mem.1 (by decide)

theorem digitChar_mem_hostChars {d : Nat} (small : d < 16) : d.digitChar ∈ hostChars := by
  have all : ∀ d < 16, Nat.digitChar d ∈ hostChars := by decide
  exact all d small

theorem isLabelChar_mem_hostChars {c : Char} (label : isLabelChar c = true) : c ∈ hostChars := by
  have bound : c.toNat < 128 := by
    simp only [isLabelChar, isDigit, Bool.or_eq_true, Bool.and_eq_true, decide_eq_true_eq, beq_iff_eq] at label
    rcases label with (⟨-, top⟩ | ⟨-, top⟩) | rfl
    · exact Nat.lt_of_le_of_lt (show c.toNat ≤ 'z'.toNat from top) (by decide)
    · exact Nat.lt_of_le_of_lt (show c.toNat ≤ '9'.toNat from top) (by decide)
    · decide
  have all : ∀ n < 128, isLabelChar (Char.ofNat n) = true → Char.ofNat n ∈ hostChars := by decide
  have found := all c.toNat bound
  rw [Char.ofNat_toNat] at found
  exact found label

section Rendered

variable {U : Unicode} {idna : Str → Option Str} {scheme hostport : Str}

def IsScheme (scheme : Str) : Prop := scheme = "http".toList ∨ scheme = "https".toList

theorem cleaned_render (known : IsScheme scheme) (chars : ∀ c ∈ hostport, c ∈ hostChars) :
    cleaned (scheme ++ ':' :: '/' :: '/' :: hostport) = scheme ++ ':' :: '/' :: '/' :: hostport := by
  have kept : hostport.filter (fun c => !(c == '\t' || c == '\r' || c == '\n')) = hostport := by
    refine List.filter_eq_self.2 fun c mem => ?_
    rw [(hostChars_plain c (chars c mem)).2.2.2.2.2.2.2]
    rfl
  unfold cleaned
  rcases known with rfl | rfl
  · simpa [lstrip] using kept
  · simpa [lstrip] using kept

theorem schemeSplit_render (laws : LowerLaws U) (known : IsScheme scheme) (rest : Str) :
    schemeSplit U (scheme ++ ':' :: rest) = (scheme, rest) := by
  have absent : ':' ∉ scheme := by
    rcases known with rfl | rfl <;> decide
  have shape : ((scheme.head?.map isAsciiAlpha).getD false && scheme.all isSchemeChar) = true := by
    rcases known with rfl | rfl <;> decide
  have lowered : U.lower scheme = scheme := by
    rcases known with rfl | rfl <;> rw [laws.ascii _ (by decide)] <;> decide
  rw [schemeSplit, partition_append_sep absent]
  dsimp only
  rw [Bool.true_and, if_pos shape, lowered]

theorem takeWhile_hostport (chars : ∀ c ∈ hostport, c ∈ hostChars) :
    hostport.takeWhile (fun c => !isDelimiter c) = hostport ∧ hostport.dropWhile (fun c => !isDelimiter c) = [] := by
  have all : ∀ c ∈ hostport, (!isDelimiter c) = true := by
    intro c mem
    rw [(hostChars_plain c (chars c mem)).2.2.2.1]
    rfl
  exact ⟨List.takeWhile_eq_self_iff.2 all, List.dropWhile_eq_nil_iff.2 all⟩

theorem urlsplit_render (laws : LowerLaws U) (known : IsScheme scheme) (chars : ∀ c ∈ hostport, c ∈ hostChars)
    (brackets : '[' ∈ hostport ↔ ']' ∈ hostport)
    (balanced : '[' ∈ hostport → bracketedNetlocValid hostport = true) :
    urlsplit U (scheme ++ ':' :: '/' :: '/' :: hostport) = some ⟨scheme, hostport, []⟩ := by
  obtain ⟨taken, dropped⟩ := takeWhile_hostport chars
  rw [urlsplit_eq_some_iff, cleaned_render known chars, schemeSplit_render laws known]
  have netloc : netlocOf ('/' :: '/' :: hostport) = hostport := by
    simpa [netlocOf] using taken
  have after : afterNetloc ('/' :: '/' :: hostport) = [] := by
    simpa [afterNetloc] using dropped
  rw [netloc, after]
  refine ⟨?_, rfl⟩
  have ascii : hostport.all isAscii = true :=
    List.all_eq_true.2 fun c mem => (hostChars_plain c (chars c mem)).1
  rintro (odd | ⟨inside, invalid⟩ | invalid)
  · simp [brackets] at odd
  · rw [balanced inside] at invalid
    cases invalid
  · rw [netlocValid, if_pos ascii] at invalid
    cases invalid

theorem toInt_port {port : Nat} (high : port ≤ 65535) :
    (Nat.toDigits 10 port).isEmpty = false ∧ (Nat.toDigits 10 port).all isDigit = true ∧
      toInt 10 (Nat.toDigits 10 port) = port ∧ ((Nat.toDigits 10 port).length ≤ maxStrDigits ∧ port ≤ 65535) := by
  have short : (Nat.toDigits 10 port).length ≤ 5 := (Nat.length_toDigits_le_iff (by decide) (by decide)).2 (by omega)
  refine ⟨by simp, ?_, toInt_toDigits (by decide) (by decide) port, short.trans (by decide), high⟩
  rw [List.all_eq_true]
  intro c mem
  obtain ⟨d, small, rfl⟩ := mem_toDigits (by decide) mem
  exact isDigit_digitChar small

/-- What the parts of a split URL must say for its destination. -/
theorem parseCanonicalDestination_of_split {url host : Str} {parsed : SplitResult} {port : Nat}
    (laws : LowerLaws U) (known : IsScheme scheme) (splits : urlsplit U url = some parsed)
    (schemed : parsed.scheme = scheme) (nonempty : url ≠ []) (backslash : '\\' ∉ url)
    (space : url.any isSpace = false) (userinfo : parsed.hasUserinfo = false)
    (info : parsed.hostinfo = (host, some (Nat.toDigits 10 port))) (some_ : host ≠ [])
    (chars : ∀ c ∈ host, c ∈ hostChars) (last : ∀ c ∈ host.getLast?, (c == '.') = false) (low : 1 ≤ port)
    (high : port ≤ 65535) :
    parseCanonicalDestination U idna url =
      (canonicalHostname idna host).map fun canonical =>
        ⟨scheme, canonical.1, port, canonical.2.isSome, canonical.2⟩ := by
  have lowered : U.lower scheme = scheme := by
    rcases known with rfl | rfl <;> rw [laws.ascii _ (by decide)] <;> decide
  have lowerHost : U.lower host = host := by
    rw [laws.ascii _ (List.all_eq_true.2 fun c mem => (hostChars_plain c (chars c mem)).1)]
    exact (List.map_congr_left fun c mem => (hostChars_plain c (chars c mem)).2.2.1).trans (List.map_id _)
  have noPercent : '%' ∉ host := fun mem => (hostChars_plain _ (chars _ mem)).2.2.2.2.2.1 rfl
  have hostname : parsed.hostname U = some host := by
    rw [SplitResult.hostname, info]
    dsimp only
    rw [if_neg (by simpa using some_), partition_of_not_mem noPercent]
    simp [lowerHost]
  obtain ⟨full, digits, value, bound⟩ := toInt_port high
  have ported : parsed.port = some (some port) := by
    rw [SplitResult.port, info]
    dsimp only
    rw [if_pos digits, value, if_pos bound]
  have raw : U.lower (rstrip (fun c => c == '.') host) = host := by
    rw [rstrip_of_last last, lowerHost]
  have steps : parseCanonicalDestination U idna url = (do
      let canonical ← canonicalHostname idna host
      return ⟨scheme, canonical.1, port, canonical.2.isSome, canonical.2⟩) := by
    have bounds : 1 ≤ effectivePort scheme (some port) ∧ effectivePort scheme (some port) ≤ 65535 := ⟨low, high⟩
    unfold parseCanonicalDestination
    simp only [splits, hostname, ported, schemed, lowered, raw, raiseIf, orRaise, nonempty, backslash, space,
      userinfo, some_, noPercent, bounds, bind, Except.bind, or_self, not_true_eq_false, if_false, and_self,
      Bool.false_eq_true]
    have listed : scheme = "http".toList ∨ scheme = "https".toList := known
    rw [if_neg (not_not.2 listed)]
    rfl
  rw [steps]
  cases canonicalHostname idna host <;> rfl

theorem toDigits_chars {base n : Nat} (two : 2 ≤ base) (hex : base ≤ 16) :
    ∀ c ∈ Nat.toDigits base n, c ∈ hostChars := by
  intro c mem
  obtain ⟨d, small, rfl⟩ := mem_toDigits two mem
  exact digitChar_mem_hostChars (by omega)

theorem render_facts (known : IsScheme scheme) (chars : ∀ c ∈ hostport, c ∈ hostChars) :
    scheme ++ ':' :: '/' :: '/' :: hostport ≠ [] ∧ '\\' ∉ scheme ++ ':' :: '/' :: '/' :: hostport ∧
      (scheme ++ ':' :: '/' :: '/' :: hostport).any isSpace = false := by
  have backslash : '\\' ∉ hostport := fun mem => (hostChars_plain _ (chars _ mem)).2.2.2.2.2.2.1 rfl
  have space : hostport.any isSpace = false :=
    List.any_eq_false.2 fun c mem found => by simp [(hostChars_plain c (chars c mem)).2.1] at found
  rcases known with rfl | rfl
  · exact ⟨by simp, by simpa using backslash, by simpa [isSpace] using space⟩
  · exact ⟨by simp, by simpa using backslash, by simpa [isSpace] using space⟩

theorem parse_plain {host : Str} {port : Nat} (laws : LowerLaws U) (known : IsScheme scheme) (some_ : host ≠ [])
    (chars : ∀ c ∈ host, c ∈ hostChars) (colon : ':' ∉ host) (opening : '[' ∉ host) (closing : ']' ∉ host)
    (last : ∀ c ∈ host.getLast?, (c == '.') = false) (low : 1 ≤ port) (high : port ≤ 65535) :
    parseCanonicalDestination U idna (scheme ++ ':' :: '/' :: '/' :: (host ++ ':' :: Nat.toDigits 10 port)) =
      (canonicalHostname idna host).map fun canonical =>
        ⟨scheme, canonical.1, port, canonical.2.isSome, canonical.2⟩ := by
  have portChars := toDigits_chars (n := port) (by decide : 2 ≤ 10) (by decide)
  have brackets : ['[', ']', '@'] ⊆ ['/', '.', ':', '%', '[', ']', '@', '?', '#', '\\', ' '] := by simp
  have foreign : ∀ c ∈ ['[', ']', '@'], c ∉ Nat.toDigits 10 port := fun c mem =>
    not_mem_toDigits (by decide) (by decide) (foreign_of_mem (brackets mem))
  have all : ∀ c ∈ host ++ ':' :: Nat.toDigits 10 port, c ∈ hostChars := by
    intro c mem
    rcases List.mem_append.1 mem with inHost | rest
    · exact chars c inHost
    · rcases List.mem_cons.1 rest with rfl | inPort
      · decide
      · exact portChars c inPort
  have noOpening : '[' ∉ host ++ ':' :: Nat.toDigits 10 port := by
    simp [opening, foreign '[' (by decide)]
  have noClosing : ']' ∉ host ++ ':' :: Nat.toDigits 10 port := by
    simp [closing, foreign ']' (by decide)]
  have noAt : '@' ∉ host ++ ':' :: Nat.toDigits 10 port := fun mem =>
    (hostChars_plain _ (all _ mem)).2.2.2.2.1 rfl
  obtain ⟨nonempty, backslash, space⟩ := render_facts known all
  refine parseCanonicalDestination_of_split laws known (urlsplit_render laws known all (by simp [noOpening, noClosing])
    fun inside => absurd inside noOpening) rfl nonempty backslash space ?_ ?_ some_ chars last low high
  · rw [SplitResult.hasUserinfo, rpartition_of_not_mem noAt]
  · rw [SplitResult.hostinfo, rpartition_of_not_mem noAt]
    dsimp only
    rw [partition_of_not_mem noOpening, partition_append_sep colon]
    simp

theorem parse_bracketed {host : Str} {port : Nat} {hextets : List Nat} {zone : Option Str} (laws : LowerLaws U)
    (known : IsScheme scheme) (some_ : host ≠ []) (chars : ∀ c ∈ host, c ∈ hostChars)
    (closing : ']' ∉ host) (version : host.head? ≠ some 'v')
    (literal : ipAddress host = some (.v6 hextets zone)) (last : ∀ c ∈ host.getLast?, (c == '.') = false)
    (low : 1 ≤ port) (high : port ≤ 65535) :
    parseCanonicalDestination U idna
        (scheme ++ ':' :: '/' :: '/' :: ('[' :: host ++ [']'] ++ ':' :: Nat.toDigits 10 port)) =
      (canonicalHostname idna host).map fun canonical =>
        ⟨scheme, canonical.1, port, canonical.2.isSome, canonical.2⟩ := by
  have regrouped : '[' :: host ++ [']'] ++ ':' :: Nat.toDigits 10 port =
      [] ++ '[' :: (host ++ ']' :: ([] ++ ':' :: Nat.toDigits 10 port)) := by simp
  have portChars := toDigits_chars (n := port) (by decide : 2 ≤ 10) (by decide)
  have all : ∀ c ∈ '[' :: host ++ [']'] ++ ':' :: Nat.toDigits 10 port, c ∈ hostChars := by
    intro c mem
    simp only [List.mem_append, List.mem_cons] at mem
    rcases mem with ((rfl | inHost) | (rfl | none_)) | (rfl | inPort)
    · decide
    · exact chars c inHost
    · decide
    · cases none_
    · decide
    · exact portChars c inPort
  have noAt : '@' ∉ '[' :: host ++ [']'] ++ ':' :: Nat.toDigits 10 port := fun mem =>
    (hostChars_plain _ (all _ mem)).2.2.2.2.1 rfl
  have valid : bracketedNetlocValid ('[' :: host ++ [']'] ++ ':' :: Nat.toDigits 10 port) = true := by
    rw [bracketedNetlocValid, rpartition_of_not_mem noAt]
    dsimp only
    rw [regrouped, partition_append_sep (by simp)]
    dsimp only
    rw [partition_append_sep closing, bracketedHostValid, if_neg version, literal]
    rfl
  obtain ⟨nonempty, backslash, space⟩ := render_facts known all
  refine parseCanonicalDestination_of_split laws known (urlsplit_render laws known all (by simp)
    fun _ => valid) rfl nonempty backslash space ?_ ?_ some_ chars last low high
  · rw [SplitResult.hasUserinfo, rpartition_of_not_mem noAt]
  · rw [SplitResult.hostinfo, rpartition_of_not_mem noAt]
    dsimp only
    rw [regrouped, partition_append_sep (by simp)]
    dsimp only
    rw [partition_append_sep closing]
    dsimp only
    rw [partition_append_sep (by simp)]
    simp

end Rendered

/-! ## Reading back -/

section Again

variable {U : Unicode} {idna : Str → Option Str} {scheme : Str} {port : Nat}

/-- A name as the gateway accepts it. -/
structure PlainHost (host : Str) : Prop where
  some_ : host ≠ []
  chars : ∀ c ∈ host, c ∈ hostChars
  colon : ':' ∉ host
  opening : '[' ∉ host
  closing : ']' ∉ host
  last : ∀ c ∈ host.getLast?, (c == '.') = false

/-- A text whose parts between dots are made of label characters. -/
theorem PlainHost.of_labels {host : Str}
    (labels : ∀ label ∈ split '.' host, label ≠ [] ∧ ∀ c ∈ label, isLabelChar c = true) : PlainHost host := by
  have source : ∀ c ∈ host, c = '.' ∨ isLabelChar c = true := by
    intro c mem
    rw [← join_split '.' host] at mem
    refine (mem_join '.' mem).imp id ?_
    rintro ⟨label, inside, found⟩
    exact (labels label inside).2 c found
  have absent : ∀ d, d ≠ '.' → isLabelChar d = false → d ∉ host := by
    intro d other foreign mem
    rcases source d mem with dot | label
    · exact other dot
    · rw [foreign] at label
      cases label
  refine ⟨?_, ?_, absent ':' (by decide) (by decide), absent '[' (by decide) (by decide),
    absent ']' (by decide) (by decide), ?_⟩
  · rintro rfl
    exact (labels [] (by simp [split])).1 rfl
  · intro c mem
    rcases source c mem with rfl | label
    · decide
    · exact isLabelChar_mem_hostChars label
  · intro c mem
    rw [beq_eq_false_iff_ne]
    rintro rfl
    -- a dot at the end leaves an empty label
    obtain ⟨front, rfl⟩ := List.getLast?_eq_some_iff.1 mem
    rw [split_append_sep] at labels
    exact (labels [] (by simp [split])).1 rfl

theorem PlainHost.of_valid {host : Str} (valid : hostnameValid host = true) : PlainHost host := by
  rw [hostnameValid, Bool.and_eq_true, List.all_eq_true] at valid
  refine .of_labels fun label mem => ?_
  have checked := valid.2 label mem
  simp only [labelValid, Bool.and_eq_true, Bool.not_eq_true', List.isEmpty_eq_false_iff, List.all_eq_true] at checked
  exact ⟨checked.1.1.1.1, checked.2⟩

theorem PlainHost.of_v4 (ip : Fin (2 ^ 32)) : PlainHost (Address.v4 ip).compressed := by
  have four := length_digits 256 4 ip
  have parts : split '.' (Address.v4 ip).compressed = (digits 256 4 ip).map (Nat.toDigits 10) := by
    refine split_join '.' ?_ ?_
    · intro empty
      have none_ := congrArg List.length empty
      rw [List.length_map, four] at none_
      cases none_
    · intro part mem
      obtain ⟨o, -, rfl⟩ := List.mem_map.1 mem
      exact not_mem_toDigits (by decide) (by decide) (foreign_of_mem (by decide))
  refine .of_labels fun label mem => ?_
  rw [parts] at mem
  obtain ⟨o, -, rfl⟩ := List.mem_map.1 mem
  refine ⟨Nat.toDigits_ne_nil, fun c inside => ?_⟩
  obtain ⟨d, small, rfl⟩ := mem_toDigits (by decide) inside
  rw [isLabelChar, isDigit_digitChar small]
  simp

theorem PlainHost.parse {host : Str} (plain : PlainHost host) (laws : LowerLaws U) (known : IsScheme scheme)
    (low : 1 ≤ port) (high : port ≤ 65535) (literal : Bool) (address : Option Address) :
    parseCanonicalDestination U idna (render ⟨scheme, host, port, literal, address⟩) =
      (canonicalHostname idna host).map fun canonical =>
        ⟨scheme, canonical.1, port, canonical.2.isSome, canonical.2⟩ := by
  rw [render, if_neg plain.colon]
  exact parse_plain laws known plain.some_ plain.chars plain.colon plain.opening plain.closing plain.last low high

theorem canonicalHostname_literal {a : Address} (plain : a.withoutZone = a) :
    canonicalHostname idna a.compressed = .ok (a.compressed, some a) := by
  rw [canonicalHostname, Address.ofText_compressed a plain]

/-- A literal is read back. -/
theorem parse_render_literal {a : Address} (laws : LowerLaws U) (known : IsScheme scheme)
    (plain : a.withoutZone = a) (low : 1 ≤ port) (high : port ≤ 65535) :
    parseCanonicalDestination U idna (render ⟨scheme, a.compressed, port, true, some a⟩) =
      .ok ⟨scheme, a.compressed, port, true, some a⟩ := by
  cases a with
  | v4 ip =>
      rw [(PlainHost.of_v4 ip).parse laws known low high, canonicalHostname_literal plain]
      rfl
  | v6 ip zone =>
      obtain rfl : none = zone := by simpa [Address.withoutZone] using plain
      have text : (Address.v6 ip none).compressed = compressHextets (digits 65536 8 ip) := rfl
      have three := length_compressParts (length_digits 65536 8 ip)
      have chars : ∀ c ∈ compressHextets (digits 65536 8 ip), c ∈ hostChars := by
        intro c mem
        rcases mem_compressHextets mem with rfl | ⟨d, small, rfl⟩
        · decide
        · exact digitChar_mem_hostChars small
      have colon : ':' ∈ compressHextets (digits 65536 8 ip) := by
        rw [compressHextets_eq]
        obtain ⟨first, rest, eq⟩ := List.exists_cons_of_ne_nil (l := compressParts (digits 65536 8 ip))
          (by rintro empty; rw [empty] at three; cases three)
        have more : rest ≠ [] := by
          rintro rfl
          rw [eq] at three
          simp at three
        rw [eq, join_cons ':' more]
        simp
      have closing : ']' ∉ compressHextets (digits 65536 8 ip) :=
        not_mem_compressHextets (by decide) (foreign_of_mem (by decide))
      have version : (compressHextets (digits 65536 8 ip)).head? ≠ some 'v' := by
        intro head
        have mem := List.mem_of_mem_head? head
        exact not_mem_compressHextets (by decide) (by decide) mem
      have last : ∀ c ∈ (compressHextets (digits 65536 8 ip)).getLast?, (c == '.') = false := by
        intro c mem
        rw [beq_eq_false_iff_ne]
        rintro rfl
        exact not_mem_compressHextets (by decide) (foreign_of_mem (by decide)) (List.mem_of_mem_getLast? mem)
      have some_ : compressHextets (digits 65536 8 ip) ≠ [] := List.ne_nil_of_mem colon
      have read : ipAddress (compressHextets (digits 65536 8 ip)) = some (.v6 (digits 65536 8 ip) none) :=
        Address.ipAddress_compressed_v6 ip
      rw [render, text, if_pos colon]
      rw [parse_bracketed laws known some_ chars closing version read last low high, ← text,
        canonicalHostname_literal plain]
      rfl

/-- An accepted name is its own encoding. -/
theorem idna_valid (idnaLaws : IdnaLaws idna) {host : Str} (valid : hostnameValid host = true) :
    idna host = some host := by
  have labels := (List.all_eq_true.1 (Bool.and_eq_true _ _ ▸ valid : _ ∧ _).2)
  refine idnaLaws.encodes host fun label mem => ?_
  have checked := labels label mem
  simp only [labelValid, Bool.and_eq_true, Bool.not_eq_true', List.isEmpty_eq_false_iff, List.all_eq_true,
    decide_eq_true_eq] at checked
  have plain := fun c inside => hostChars_plain c (isLabelChar_mem_hostChars (checked.2 c inside))
  refine ⟨checked.1.1.1.1, checked.1.1.1.2, List.all_eq_true.2 fun c inside => (plain c inside).1, ?_⟩
  exact (List.map_congr_left fun c inside => (plain c inside).2.2.1).trans (List.map_id _)

/-- A name is read back as itself, unless it spells an address. -/
theorem parse_render_name (laws : LowerLaws U) (idnaLaws : IdnaLaws idna) (known : IsScheme scheme) {host : Str}
    (valid : hostnameValid host = true) (low : 1 ≤ port) (high : port ≤ 65535) :
    parseCanonicalDestination U idna (render ⟨scheme, host, port, false, none⟩) =
        .ok ⟨scheme, host, port, false, none⟩ ↔ Address.ofText host = none := by
  rw [(PlainHost.of_valid valid).parse laws known low high, canonicalHostname]
  cases Address.ofText host with
  | some literal => simp [Except.map]
  | none => simp [Except.map, idna_valid idnaLaws valid, valid, orRaise, raiseIf, bind, Except.bind, pure, Except.pure]

/-- The hostname of the URL is no address, and its encoding is one. -/
def SpellsAddress (U : Unicode) (idna : Str → Option Str) (url : Str) : Prop :=
  ∃ parsed hostname encoded, urlsplit U url = some parsed ∧ parsed.hostname U = some hostname ∧
    Address.ofText (rawHostname U hostname) = none ∧ idna (rawHostname U hostname) = some encoded ∧
    (Address.ofText encoded).isSome

/-- One destination for the policy and for the gateway, and the same one when it is read
again: for every URL both accept whose name does not turn into an address. -/
theorem canonical_destination (laws : LowerLaws U) (idnaLaws : IdnaLaws idna) {url : Str} {origin : Origin}
    {destination : CanonicalDestination} (policy : parseOrigin U url = .ok origin)
    (gateway : parseCanonicalDestination U idna url = .ok destination) :
    (Agrees idna origin destination ∧
        parseCanonicalDestination U idna (render destination) = .ok destination) ↔
      ¬ SpellsAddress U idna url := by
  rw [and_iff_right (parse_agree laws idnaLaws policy gateway)]
  obtain ⟨parsed, hostname, port, canonical, -, splits, named, plain, -, low, high, known, -, canonicalizes, rfl⟩ :=
    parseCanonicalDestination_ok gateway
  have spells : SpellsAddress U idna url ↔ Address.ofText (rawHostname U hostname) = none ∧
      ∃ encoded, idna (rawHostname U hostname) = some encoded ∧ (Address.ofText encoded).isSome := by
    constructor
    · rintro ⟨parsed', hostname', encoded, splits', named', name, encodes, address⟩
      obtain rfl := Option.some.inj (splits.symm.trans splits')
      obtain rfl := Option.some.inj (named.symm.trans named')
      exact ⟨name, encoded, encodes, address⟩
    · rintro ⟨name, encoded, encodes, address⟩
      exact ⟨parsed, hostname, encoded, splits, named, name, encodes, address⟩
  rw [spells]
  rcases canonicalHostname_ok canonicalizes with ⟨literal, found, rfl⟩ | ⟨name, encoded, valid, noLiteral⟩
  · have percent : '%' ∉ rawHostname U hostname := by
      rw [rawHostname_eq laws named plain]
      exact fun mem => plain ((rstrip_isPrefix _ _).subset mem)
    rw [found]
    refine iff_of_true ?_ (fun spelt => nomatch spelt.1)
    exact parse_render_literal laws known (Address.withoutZone_of_read found percent) low high
  · rw [noLiteral]
    refine (parse_render_name laws idnaLaws known valid low high).trans ?_
    rw [← Option.not_isSome_iff_eq_none, not_iff_not]
    constructor
    · exact fun address => ⟨name, _, encoded, address⟩
    · rintro ⟨-, encoded', encodes, address⟩
      rwa [Option.some.inj (encoded.symm.trans encodes)]

end Again

section Fullwidth

/-- A fullwidth digit by its ASCII form. -/
def narrow (c : Char) : Char :=
  if 0xFF10 ≤ c.toNat ∧ c.toNat ≤ 0xFF19 then Char.ofNat (c.toNat - 0xFEE0) else c

def digitText : Unicode where
  lower := List.map Char.toLower
  upper := List.map Char.toUpper
  nfkc := List.map narrow
  repr := id

/-- The encoder on ASCII and on fullwidth digits. -/
private def digitIdna (s : Str) : Option Str := some (s.map narrow)

theorem toLower_toLower (c : Char) : c.toLower.toLower = c.toLower := by
  by_cases upper : c.val ≥ 65 ∧ c.val ≤ 90
  · have bound : c.toNat ≤ 90 := upper.2
    have all : ∀ n ≤ 90, (Char.ofNat n).toLower.toLower = (Char.ofNat n).toLower := by decide
    have same := all c.toNat bound
    rwa [Char.ofNat_toNat] at same
  · have kept := toLower_of_not_upper upper
    rw [kept, kept]

theorem isSpace_toLower {c : Char} (plain : isSpace c = false) : isSpace c.toLower = false := by
  by_cases upper : c.val ≥ 65 ∧ c.val ≤ 90
  · have bound : c.toNat ≤ 90 := upper.2
    have all : ∀ n ≤ 90, isSpace (Char.ofNat n) = false → isSpace (Char.ofNat n).toLower = false := by decide
    have same := all c.toNat bound
    rw [Char.ofNat_toNat] at same
    exact same plain
  · rwa [toLower_of_not_upper upper]

theorem map_narrow {s : Str} (ascii : s.all isAscii = true) : s.map narrow = s := by
  refine (List.map_congr_left fun c mem => ?_).trans (List.map_id _)
  have small : c.toNat < 128 := of_decide_eq_true (List.all_eq_true.1 ascii c mem)
  exact if_neg (by omega)

theorem digitText_laws : LowerLaws digitText := by
  refine ⟨fun _ _ => rfl, fun s t part => ?_, fun s plain => ?_⟩
  · show t.map Char.toLower = t
    refine (List.map_congr_left fun c mem => ?_).trans (List.map_id _)
    obtain ⟨d, -, rfl⟩ := List.mem_map.1 (part.subset mem)
    exact toLower_toLower d
  · refine List.any_eq_false.2 fun c mem => ?_
    obtain ⟨d, source, rfl⟩ := List.mem_map.1 mem
    rw [isSpace_toLower (by simpa using List.any_eq_false.1 plain d source)]
    exact Bool.false_ne_true

theorem digitIdna_laws : IdnaLaws digitIdna := by
  constructor
  · intro s r ascii encoded
    rw [← Option.some.inj encoded, map_narrow ascii.1]
  · intro s labels
    rw [digitIdna, map_narrow]
    rw [List.all_eq_true]
    intro c mem
    rw [← join_split '.' s] at mem
    rcases mem_join '.' mem with rfl | ⟨label, inside, found⟩
    · decide
    · exact List.all_eq_true.1 (labels label inside).2.2.1 c found

private def mixedCase : Str := "HTTP://API.Example.Test.:8080/v1".toList

theorem canonical_destination_mixed_case :
    Agrees digitIdna ⟨"http".toList, "api.example.test".toList, 8080⟩
        ⟨"http".toList, "api.example.test".toList, 8080, false, none⟩ ∧
      parseCanonicalDestination digitText digitIdna "http://api.example.test:8080".toList =
        .ok ⟨"http".toList, "api.example.test".toList, 8080, false, none⟩ := by
  have policy : parseOrigin digitText mixedCase = .ok ⟨"http".toList, "api.example.test".toList, 8080⟩ := by
    decide
  have gateway : parseCanonicalDestination digitText digitIdna mixedCase =
      .ok ⟨"http".toList, "api.example.test".toList, 8080, false, none⟩ := by
    decide
  refine (canonical_destination digitText_laws digitIdna_laws policy gateway).2 ?_
  rintro ⟨parsed, hostname, encoded, splits, named, -, encodes, address⟩
  have split' : urlsplit digitText mixedCase =
      some ⟨"http".toList, "API.Example.Test.:8080".toList, "/v1".toList⟩ := by decide
  obtain rfl := Option.some.inj (split'.symm.trans splits)
  have name : SplitResult.hostname ⟨"http".toList, "API.Example.Test.:8080".toList, "/v1".toList⟩ digitText =
      some "api.example.test.".toList := by decide
  obtain rfl := Option.some.inj (name.symm.trans named)
  have same : digitIdna (rawHostname digitText "api.example.test.".toList) = some "api.example.test".toList := by
    decide
  obtain rfl := Option.some.inj (same.symm.trans encodes)
  revert address
  decide

private def fullwidth : Str := "http://１２７.0.0.1/".toList

/-- A name in fullwidth digits comes out as the name `127.0.0.1`, and is read back as the
address. -/
theorem fullwidth_address :
    LowerLaws digitText ∧ IdnaLaws digitIdna ∧
    parseOrigin digitText fullwidth = .ok ⟨"http".toList, "１２７.0.0.1".toList, 80⟩ ∧
    parseCanonicalDestination digitText digitIdna fullwidth =
      .ok ⟨"http".toList, "127.0.0.1".toList, 80, false, none⟩ ∧
    parseCanonicalDestination digitText digitIdna
        (render ⟨"http".toList, "127.0.0.1".toList, 80, false, none⟩) =
      .ok ⟨"http".toList, "127.0.0.1".toList, 80, true, some (.v4 (Fin.ofNat _ (octets 127 0 0 1)))⟩ ∧
    parseCanonicalDestination digitText digitIdna
        (render ⟨"http".toList, "127.0.0.1".toList, 80, false, none⟩) ≠
      .ok ⟨"http".toList, "127.0.0.1".toList, 80, false, none⟩ := by
  refine ⟨digitText_laws, digitIdna_laws, ?_, ?_, ?_, ?_⟩
  all_goals decide +kernel

end Fullwidth

end ApiSecurityPlatform.Network
