/-
# Policies.ScopePolicy -- `ScopePolicyEngine.evaluate`

The engine refuses at the first of its ordered checks and then walks the scopes for
the first one that matches by itself.  The model keeps the order, the codes and the
reasons; the checks before the scopes are `screen`, and one scope is `matchScope`.

The declarative side says when a request is permitted (`Permits`, `ScopeAllows`) and
nothing about an order.  The two meet in `evaluate_decides`, and everything the policy is
relied on for follows from there: one scope of one revision, no influence of the
order of the scopes, and no influence of malformed rows.
-/
import ApiSecurityPlatform.Python.Text
import ApiSecurityPlatform.Theory.Fallible
import Mathlib.Logic.Basic

namespace ApiSecurityPlatform.Policies

open ApiSecurityPlatform.Theory
open ApiSecurityPlatform.Python

set_option autoImplicit false

/-! ## Records -/

inductive Method where
  | get
  | post
  | patch
  | delete
deriving DecidableEq, Repr

def Method.text : Method → Str
  | .get => "GET".toList
  | .post => "POST".toList
  | .patch => "PATCH".toList
  | .delete => "DELETE".toList

/-- `MVP_HTTP_METHODS`. -/
def mvpHttpMethods : List Method := [.get, .post, .patch, .delete]

inductive LifecycleState where
  | draft
  | active
  | superseded
  | revoked
deriving DecidableEq, Repr

structure AuthorizationRevision where
  id : Nat
  authorizationProfileId : Nat
  lifecycleState : LifecycleState
  validFrom : Option Int
  validUntil : Option Int
  automationAllowed : Bool
  allowGet : Bool
  allowPost : Bool
  allowPatch : Bool
  allowDelete : Bool

/-- `getattr(revision, AUTHORIZATION_METHOD_FIELDS[method])`. -/
def AuthorizationRevision.allows (r : AuthorizationRevision) : Method → Bool
  | .get => r.allowGet
  | .post => r.allowPost
  | .patch => r.allowPatch
  | .delete => r.allowDelete

structure Target where
  authorizationProfileId : Option Nat
  authorizationRevisionId : Option Nat
  baseUrl : Str
  isEnabled : Bool

structure Scope where
  id : Nat
  hostname : Str
  pathPattern : Str
  allowedMethods : List Str
  isActive : Bool

structure Origin where
  scheme : Str
  hostname : Str
  port : Nat
deriving DecidableEq

inductive PolicyCode where
  | targetDisabled
  | authorizationRevisionMissing
  | authorizationRevisionMismatch
  | authorizationRevisionProfileMismatch
  | authorizationRevisionInactive
  | authorizationNotYetValid
  | authorizationExpired
  | automationNotAllowed
  | invalidRequestUrl
  | hostNotInPlatformAllowlist
  | invalidTargetUrl
  | targetOriginMismatch
  | unsupportedHttpMethod
  | authorizationMethodNotAllowed
  | unsafeRequestPath
  | allowedByScope
  | noMatchingScope
deriving DecidableEq, Repr

structure PolicyDecision where
  allowed : Bool
  code : PolicyCode
  reason : Str
  authorizationProfileId : Option Nat
  authorizationRevisionId : Option Nat
  /-- The instant in UTC. -/
  evaluatedAt : Int
  matchedScopeId : Option Nat
deriving DecidableEq

/-- What a function may raise: `PolicyValidationError`, or a plain `ValueError`. -/
inductive PolicyError where
  | policyValidation (message : String)
  | value (message : String)
deriving DecidableEq

/-! ## Normalizers -/

section Normalizers

variable (U : Unicode)

def normalizeHostname (hostname : Str) : Except PolicyError Str :=
  let value := rstrip (fun c => c == '.') (U.lower (strip hostname))
  if value.isEmpty then .error (.policyValidation "hostname is empty")
  else
    match ipAddress value with
    | some ip => .ok ip.compressed
    | none => .ok value

def parseOrigin (url : Str) : Except PolicyError Origin :=
  match urlsplit U url with
  | none => .error (.policyValidation "invalid URL")
  | some parsed =>
      if ¬ (parsed.scheme = "http".toList ∨ parsed.scheme = "https".toList) then
        .error (.policyValidation "only http and https URLs are supported")
      else if parsed.hasUserinfo then
        .error (.policyValidation "URL userinfo is not allowed")
      else
        match parsed.hostname U with
        | none => .error (.policyValidation "URL hostname is missing")
        | some hostname =>
            if hostname.isEmpty then .error (.policyValidation "URL hostname is missing")
            else
              match parsed.port with
              | none => .error (.policyValidation "invalid URL port")
              | some explicitPort => do
                  let port := explicitPort.getD (if parsed.scheme = "http".toList then 80 else 443)
                  let hostname ← normalizeHostname U hostname
                  return ⟨parsed.scheme, hostname, port⟩

def blockedEncodings : List Str := ["%2f".toList, "%5c".toList, "%00".toList, "%25".toList]

/-- `urlsplit` is not guarded here: its `ValueError` would leave the function. -/
def normalizeRequestPath (url : Str) : Except PolicyError Str :=
  match urlsplit U url with
  | none => .error (.value "urlsplit")
  | some parsed =>
      let rawPath := if parsed.path.isEmpty then ['/'] else parsed.path
      if blockedEncodings.any fun item => contains item (U.lower rawPath) then
        .error (.policyValidation "ambiguous encoded path is not allowed")
      else
        let decodedPath := unquote rawPath
        if Char.ofNat 0 ∈ decodedPath then
          .error (.policyValidation "null byte is not allowed in path")
        else if '\\' ∈ decodedPath then
          .error (.policyValidation "backslash is not allowed in path")
        else if contains ['/', '/'] decodedPath then
          .error (.policyValidation "double slash is not allowed in path")
        else if (split '/' decodedPath).any fun segment => segment = ['.'] ∨ segment = ['.', '.'] then
          .error (.policyValidation "dot path segments are not allowed")
        else if decodedPath.head? ≠ some '/' then
          .error (.policyValidation "path must start with '/'")
        else .ok decodedPath

def normalizeScopePathPattern (pattern : Str) : Except PolicyError Str :=
  let value := strip pattern
  if value.head? ≠ some '/' then .error (.policyValidation "scope path must start with '/'")
  else if '*' ∉ value then .ok value
  else if value.count '*' ≠ 1 then .error (.policyValidation "only one wildcard is allowed")
  else if ¬ ['/', '*'].isSuffixOf value then
    .error (.policyValidation "wildcard is only supported as trailing /*")
  else .ok value

def pathMatchesScope (requestPath scopePattern : Str) : Except PolicyError Bool := do
  let pattern ← normalizeScopePathPattern scopePattern
  if '*' ∉ pattern then return requestPath = pattern
  else
    let basePath := pattern.take (pattern.length - 2)
    if basePath.isEmpty then return true
    else return requestPath = basePath ∨ (basePath ++ ['/']).isPrefixOf requestPath

/-- `method.strip().upper()`. -/
def normalizeMethod (method : Str) : Str := U.upper (strip method)

end Normalizers

/-! ## The engine -/

structure ScopePolicyEngine where
  platformAllowedHosts : List Str

/-- `ScopePolicyEngine.__init__`. -/
def ScopePolicyEngine.make (U : Unicode) (platformAllowedHosts : List Str) :
    Except PolicyError ScopePolicyEngine := do
  let hosts ← platformAllowedHosts.mapM (normalizeHostname U)
  return ⟨hosts⟩

/-- How `evaluate` ends before it comes to the scopes. -/
inductive Refusal where
  | raised (error : PolicyError)
  | denied (code : PolicyCode) (reason : Str)

/-- `if condition: return decision(allowed=False, ...)`. -/
def denyIf (condition : Prop) [Decidable condition] (code : PolicyCode) (reason : Str) :
    Except Refusal Unit :=
  if condition then .error (.denied code reason) else .ok ()

@[simp]
theorem denyIf_ok {condition : Prop} [Decidable condition] {code : PolicyCode} {reason : Str} {u : Unit} :
    denyIf condition code reason = .ok u ↔ ¬ condition := by
  unfold denyIf
  split <;> simp_all

/-- `try: ... except PolicyValidationError as exc: return decision(..., reason=str(exc))`. -/
def guarded {α : Type} (code : PolicyCode) : Except PolicyError α → Except Refusal α
  | .ok a => .ok a
  | .error (.policyValidation message) => .error (.denied code message.toList)
  | .error (.value message) => .error (.raised (.value message))

@[simp]
theorem guarded_ok {α : Type} {code : PolicyCode} {x : Except PolicyError α} {a : α} :
    guarded code x = .ok a ↔ x = .ok a := by
  match x with
  | .ok b => simp [guarded]
  | .error (.policyValidation message) => simp [guarded]
  | .error (.value message) => simp [guarded]

/-- What the scopes are compared with. -/
structure Screened where
  hostname : Str
  method : Method
  path : Str
deriving DecidableEq

section Evaluate

variable (U : Unicode) (engine : ScopePolicyEngine) (target : Target)
  (authorizationRevision : Option AuthorizationRevision) (requestUrl method : Str)

/-- `MVP_HTTP_METHODS`, looked up. -/
def supportedMethod (normalized : Str) : Option Method :=
  mvpHttpMethods.find? fun m => m.text = normalized

/-- The checks before the scopes. -/
def screen (evaluatedAt : Int) : Except Refusal Screened := do
  denyIf (target.isEnabled = false) .targetDisabled "Target is disabled.".toList
  denyIf (target.authorizationRevisionId = none) .authorizationRevisionMissing
    "Target has no AuthorizationRevision binding.".toList
  match authorizationRevision with
  | none => .error (.denied .authorizationRevisionMissing
      "The bound AuthorizationRevision was not provided.".toList)
  | some revision => do
      denyIf (some revision.id ≠ target.authorizationRevisionId) .authorizationRevisionMismatch
        "AuthorizationRevision does not match the Target binding.".toList
      denyIf (target.authorizationProfileId ≠ none ∧
          some revision.authorizationProfileId ≠ target.authorizationProfileId)
        .authorizationRevisionProfileMismatch
        "AuthorizationRevision does not belong to the Target profile.".toList
      denyIf (revision.lifecycleState ≠ .active) .authorizationRevisionInactive
        "AuthorizationRevision is not active.".toList
      denyIf (∃ start ∈ revision.validFrom, evaluatedAt < start) .authorizationNotYetValid
        "Authorization is not yet valid.".toList
      denyIf (∃ end_ ∈ revision.validUntil, end_ ≤ evaluatedAt) .authorizationExpired
        "Authorization has expired.".toList
      denyIf (revision.automationAllowed = false) .automationNotAllowed
        "AuthorizationRevision does not allow automation.".toList
      let requestOrigin ← guarded .invalidRequestUrl (parseOrigin U requestUrl)
      denyIf (requestOrigin.hostname ∉ engine.platformAllowedHosts) .hostNotInPlatformAllowlist
        ("Host ".toList ++ U.repr requestOrigin.hostname ++ " is not in the platform allowlist.".toList)
      let targetOrigin ← guarded .invalidTargetUrl (parseOrigin U target.baseUrl)
      denyIf (requestOrigin ≠ targetOrigin) .targetOriginMismatch
        "Request origin does not match the configured target origin.".toList
      let normalizedMethod := normalizeMethod U method
      match supportedMethod normalizedMethod with
      | none => .error (.denied .unsupportedHttpMethod
          ("HTTP method ".toList ++ U.repr normalizedMethod ++ " is not supported by the MVP.".toList))
      | some supported => do
          denyIf (revision.allows supported = false) .authorizationMethodNotAllowed
            ("AuthorizationRevision does not allow HTTP method ".toList ++ U.repr normalizedMethod ++
              ".".toList)
          let requestPath ← guarded .unsafeRequestPath (normalizeRequestPath U requestUrl)
          return ⟨requestOrigin.hostname, supported, requestPath⟩

/-- `except PolicyValidationError: continue`. -/
def orContinue : Except PolicyError Bool → Except PolicyError Bool
  | .error (.policyValidation _) => .ok false
  | outcome => outcome

/-- One pass of `for scope in scopes`: whether the scope allows the request. -/
def matchScope (request : Screened) (scope : Scope) : Except PolicyError Bool :=
  if scope.isActive = false then .ok false
  else
    orContinue do
      let scopeHostname ← normalizeHostname U scope.hostname
      if scopeHostname ≠ request.hostname then return false
      else if request.method.text ∉ scope.allowedMethods.map (normalizeMethod U) then return false
      else pathMatchesScope request.path scope.pathPattern

/-- The loop: the first scope that allows the request. -/
def firstMatch (request : Screened) : List Scope → Except PolicyError (Option Scope)
  | [] => .ok none
  | scope :: rest => do
      if ← matchScope U request scope then return some scope
      else firstMatch request rest

/-- An `evaluation_time`: naive, or aware with its instant in UTC. -/
inductive EvaluationTime where
  | naive
  | aware (utc : Int)

/-- `evaluate`; `now` is the clock, read when no time is given. -/
def evaluate (scopes : List Scope) (evaluationTime : Option EvaluationTime) (now : Int) :
    Except PolicyError PolicyDecision :=
  match evaluationTime.getD (.aware now) with
  | .naive => .error (.value "evaluation_time must be timezone-aware")
  | .aware evaluatedAt =>
      let decision (allowed : Bool) (code : PolicyCode) (reason : Str) (matchedScopeId : Option Nat) :
          PolicyDecision :=
        ⟨allowed, code, reason, authorizationRevision.map AuthorizationRevision.authorizationProfileId,
          authorizationRevision.map AuthorizationRevision.id, evaluatedAt, matchedScopeId⟩
      match screen U engine target authorizationRevision requestUrl method evaluatedAt with
      | .error (.raised error) => .error error
      | .error (.denied code reason) => .ok (decision false code reason none)
      | .ok request => do
          match ← firstMatch U request scopes with
          | some scope =>
              return decision true .allowedByScope "Request matches an active scope.".toList
                (some scope.id)
          | none =>
              return decision false .noMatchingScope
                "No active scope allows this hostname, path, and HTTP method.".toList none

end Evaluate

/-! ## What is permitted -/

/-- The revision the target is bound to, in force at an instant. -/
structure Bound (target : Target) (revision : AuthorizationRevision) (at_ : Int) : Prop where
  bound : target.authorizationRevisionId = some revision.id
  profile : ∀ p ∈ target.authorizationProfileId, revision.authorizationProfileId = p
  active : revision.lifecycleState = .active
  started : ∀ start ∈ revision.validFrom, start ≤ at_
  unexpired : ∀ end_ ∈ revision.validUntil, at_ < end_
  automation : revision.automationAllowed = true

/-- The target and its revision permit the request, before any scope is asked. -/
structure Permits (U : Unicode) (engine : ScopePolicyEngine) (target : Target)
    (authorizationRevision : Option AuthorizationRevision) (requestUrl method : Str) (at_ : Int)
    (request : Screened) : Prop where
  enabled : target.isEnabled = true
  revision : ∃ r, authorizationRevision = some r ∧ Bound target r at_ ∧ r.allows request.method = true
  origin : ∃ origin, parseOrigin U requestUrl = .ok origin ∧ parseOrigin U target.baseUrl = .ok origin ∧
    origin.hostname = request.hostname ∧ origin.hostname ∈ engine.platformAllowedHosts
  method : normalizeMethod U method = request.method.text
  path : normalizeRequestPath U requestUrl = .ok request.path

/-- One scope allows the request by itself. -/
structure ScopeAllows (U : Unicode) (request : Screened) (scope : Scope) : Prop where
  active : scope.isActive = true
  hostname : normalizeHostname U scope.hostname = .ok request.hostname
  method : request.method.text ∈ scope.allowedMethods.map (normalizeMethod U)
  path : pathMatchesScope request.path scope.pathPattern = .ok true

/-- A row with a hostname or a path pattern that does not normalize. -/
def Malformed (U : Unicode) (scope : Scope) : Prop :=
  (∀ hostname, normalizeHostname U scope.hostname ≠ .ok hostname) ∨
    ∀ pattern, normalizeScopePathPattern scope.pathPattern ≠ .ok pattern

theorem Malformed.denies {U : Unicode} {request : Screened} {scope : Scope}
    (malformed : Malformed U scope) : ¬ ScopeAllows U request scope := by
  intro allows
  rcases malformed with hostname | pattern
  · exact hostname _ allows.hostname
  · have path := allows.path
    simp only [pathMatchesScope, bind_ok] at path
    obtain ⟨value, normal, -⟩ := path
    exact pattern value normal

/-! ## The screen -/

section Screen

variable {U : Unicode} {engine : ScopePolicyEngine} {target : Target}
  {authorizationRevision : Option AuthorizationRevision} {requestUrl method : Str} {at_ : Int}
  {request : Screened}

theorem supportedMethod_eq_some {normalized : Str} {m : Method} :
    supportedMethod normalized = some m ↔ normalized = m.text := by
  constructor
  · intro found
    have same := List.find?_some found
    simpa using (of_decide_eq_true same).symm
  · rintro rfl
    cases m <;> decide

/-- **The checks before the scopes pass exactly when the request is permitted.** -/
theorem screen_eq_ok_iff : screen U engine target authorizationRevision requestUrl method at_ =
    .ok request ↔ Permits U engine target authorizationRevision requestUrl method at_ request := by
  constructor
  · intro passed
    simp only [screen, bind_ok, denyIf_ok] at passed
    obtain ⟨-, enabled, -, assigned, passed⟩ := passed
    split at passed
    · cases passed
    rename_i revision
    simp only [bind_ok, denyIf_ok, guarded_ok] at passed
    obtain ⟨-, bound, -, profile, -, active, -, started, -, unexpired, -, automation, origin, parsed,
      -, listed, targetOrigin, targetParsed, -, same, passed⟩ := passed
    split at passed
    · cases passed
    rename_i supported found
    simp only [bind_ok, denyIf_ok, guarded_ok] at passed
    obtain ⟨-, allowed, path, normal, same_⟩ := passed
    obtain rfl := Except.ok.inj same_
    obtain rfl := not_not.1 same
    refine ⟨by simpa using enabled, ⟨revision, rfl, ?_, by simpa using allowed⟩,
      ⟨origin, parsed, targetParsed, rfl, not_not.1 listed⟩, supportedMethod_eq_some.1 found, normal⟩
    refine ⟨(not_not.1 bound).symm, ?_, not_not.1 active, ?_, ?_, by simpa using automation⟩
    · intro p named
      rw [Option.mem_def.1 named] at profile
      simpa using profile
    · simpa using started
    · simpa using unexpired
  · rintro ⟨enabled, ⟨revision, rfl, bound, allowed⟩, ⟨origin, parsed, targetParsed, hostname, listed⟩,
      methodText, path⟩
    have supported := supportedMethod_eq_some.2 methodText
    simp only [screen, bind_ok, denyIf_ok]
    refine ⟨(), by simp [enabled], (), by simp [bound.bound], ?_⟩
    simp only [bind_ok, denyIf_ok, guarded_ok, supported]
    refine ⟨(), by simp [bound.bound], (), ?_, (), by simp [bound.active], (), ?_, (), ?_, (),
      by simp [bound.automation], origin, parsed, (), not_not.2 listed, origin, targetParsed, (),
      by simp, ?_⟩
    · rintro ⟨named, differs⟩
      obtain ⟨p, found⟩ := Option.ne_none_iff_exists'.1 named
      rw [found] at differs
      exact differs (congrArg some (bound.profile p found))
    · rintro ⟨start, given, early⟩
      have begun := bound.started start given
      omega
    · rintro ⟨end_, given, late⟩
      have running := bound.unexpired end_ given
      omega
    · refine ⟨(), by simp [allowed], request.path, path, ?_⟩
      rw [hostname]
      rfl

/-- A step that may deny but raises nothing. -/
def Quiet {α : Type} (x : Except Refusal α) : Prop := ∀ e, x ≠ .error (.raised e)

theorem Quiet.bind {α β : Type} {x : Except Refusal α} {f : α → Except Refusal β} (first : Quiet x)
    (rest : ∀ a, x = .ok a → Quiet (f a)) : Quiet (x >>= f) := by
  intro e raised
  cases x with
  | ok a => exact rest a rfl e raised
  | error refusal =>
      obtain rfl : refusal = .raised e := Except.error.inj raised
      exact first e rfl

theorem quiet_denyIf {condition : Prop} [Decidable condition] {code : PolicyCode} {reason : Str} :
    Quiet (denyIf condition code reason) := by
  intro e
  unfold denyIf
  split <;> simp

theorem quiet_guarded {α : Type} {code : PolicyCode} {x : Except PolicyError α}
    (validates : ∀ message, x ≠ .error (.value message)) : Quiet (guarded code x) := by
  intro e
  rcases x with (⟨message⟩ | ⟨message⟩) | a
  · simp [guarded]
  · exact absurd rfl (validates message)
  · simp [guarded]

theorem normalizeHostname_validates (hostname : Str) (message : String) :
    normalizeHostname U hostname ≠ .error (.value message) := by
  unfold normalizeHostname
  dsimp only
  split
  · simp
  · split <;> simp

theorem parseOrigin_validates (url : Str) (message : String) :
    parseOrigin U url ≠ .error (.value message) := by
  unfold parseOrigin
  split
  · simp
  split
  · simp
  split
  · simp
  split
  · simp
  rename_i hostname _
  split
  · simp
  split
  · simp
  -- only the hostname is left to raise
  cases normal : normalizeHostname U hostname with
  | ok value => exact (fun raised => nomatch raised)
  | error e =>
      intro raised
      obtain rfl : e = .value message := Except.error.inj raised
      exact normalizeHostname_validates hostname message normal

/-- An origin was parsed, so `urlsplit` does not raise on the same URL. -/
theorem normalizeRequestPath_validates {url : Str} {origin : Origin}
    (parsed : parseOrigin U url = .ok origin) (message : String) :
    normalizeRequestPath U url ≠ .error (.value message) := by
  unfold normalizeRequestPath
  split
  · rename_i invalid
    rw [parseOrigin, invalid] at parsed
    cases parsed
  · dsimp only
    repeat' split
    all_goals simp

/-- **The screen raises nothing.** -/
theorem screen_quiet : Quiet (screen U engine target authorizationRevision requestUrl method at_) := by
  unfold screen
  refine quiet_denyIf.bind fun _ _ => quiet_denyIf.bind fun _ _ => ?_
  split
  · exact (fun e raised => nomatch raised)
  refine quiet_denyIf.bind fun _ _ => quiet_denyIf.bind fun _ _ => quiet_denyIf.bind fun _ _ =>
    quiet_denyIf.bind fun _ _ => quiet_denyIf.bind fun _ _ => quiet_denyIf.bind fun _ _ => ?_
  refine (quiet_guarded (parseOrigin_validates requestUrl)).bind fun origin parsed => ?_
  refine quiet_denyIf.bind fun _ _ => ?_
  refine (quiet_guarded (parseOrigin_validates target.baseUrl)).bind fun targetOrigin _ => ?_
  refine quiet_denyIf.bind fun _ _ => ?_
  dsimp only
  split
  · exact (fun e raised => nomatch raised)
  refine quiet_denyIf.bind fun _ _ => ?_
  refine (quiet_guarded (normalizeRequestPath_validates (guarded_ok.1 parsed))).bind fun path _ => ?_
  exact (fun e raised => nomatch raised)

end Screen

/-! ## The scopes -/

section Scopes

variable {U : Unicode} {request : Screened}

theorem normalizeScopePathPattern_validates (pattern : Str) (message : String) :
    normalizeScopePathPattern pattern ≠ .error (.value message) := by
  unfold normalizeScopePathPattern
  dsimp only
  repeat' split
  all_goals simp

theorem pathMatchesScope_validates (path pattern : Str) (message : String) :
    pathMatchesScope path pattern ≠ .error (.value message) := by
  intro raised
  cases normal : normalizeScopePathPattern pattern with
  | error e =>
      rw [pathMatchesScope, normal] at raised
      obtain rfl : e = .value message := Except.error.inj raised
      exact normalizeScopePathPattern_validates pattern message normal
  | ok value =>
      rw [pathMatchesScope, normal] at raised
      simp only [Except.bind, bind] at raised
      repeat' split at raised
      all_goals cases raised

theorem orContinue_decides {x : Except PolicyError Bool}
    (validates : ∀ message, x ≠ .error (.value message)) :
    ∃ matched, orContinue x = .ok matched ∧ (matched = true ↔ x = .ok true) := by
  rcases x with (⟨message⟩ | ⟨message⟩) | matched
  · exact ⟨false, rfl, by simp⟩
  · exact absurd rfl (validates message)
  · exact ⟨matched, rfl, by simp⟩

/-- **A pass of the loop never raises, and decides whether the scope allows the
request.** -/
theorem matchScope_decides (U : Unicode) (request : Screened) (scope : Scope) :
    ∃ matched, matchScope U request scope = .ok matched ∧
      (matched = true ↔ ScopeAllows U request scope) := by
  by_cases active : scope.isActive = false
  · refine ⟨false, by rw [matchScope, if_pos active], ?_⟩
    constructor
    · exact (fun denied => nomatch denied)
    · intro allows
      rw [allows.active] at active
      cases active
  rw [matchScope, if_neg active]
  obtain ⟨matched, eq, decides⟩ := orContinue_decides (x := do
      let scopeHostname ← normalizeHostname U scope.hostname
      if scopeHostname ≠ request.hostname then return false
      else if request.method.text ∉ scope.allowedMethods.map (normalizeMethod U) then return false
      else pathMatchesScope request.path scope.pathPattern) (by
    intro message raised
    cases normal : normalizeHostname U scope.hostname with
    | error e =>
        rw [normal] at raised
        obtain rfl : e = .value message := Except.error.inj raised
        exact normalizeHostname_validates scope.hostname message normal
    | ok hostname =>
        rw [normal] at raised
        simp only [bind, Except.bind] at raised
        split at raised
        · cases raised
        split at raised
        · cases raised
        · exact pathMatchesScope_validates _ _ _ raised)
  refine ⟨matched, eq, decides.trans ?_⟩
  constructor
  · intro passed
    simp only [bind_ok] at passed
    obtain ⟨hostname, normal, passed⟩ := passed
    split at passed
    · cases passed
    rename_i same
    split at passed
    · cases passed
    rename_i method
    obtain rfl := not_not.1 same
    exact ⟨by simpa using active, normal, not_not.1 method, passed⟩
  · intro allows
    simp only [bind_ok]
    refine ⟨request.hostname, allows.hostname, ?_⟩
    rw [if_neg (not_not.2 rfl), if_neg (not_not.2 allows.method)]
    exact allows.path

/-- What a pass of the loop decides, as a flag. -/
def allowsScope (U : Unicode) (request : Screened) (scope : Scope) : Bool :=
  match matchScope U request scope with
  | .ok matched => matched
  | .error _ => false

theorem matchScope_eq (scope : Scope) :
    matchScope U request scope = .ok (allowsScope U request scope) := by
  obtain ⟨matched, eq, -⟩ := matchScope_decides U request scope
  rw [allowsScope, eq]

theorem allowsScope_iff {scope : Scope} :
    allowsScope U request scope = true ↔ ScopeAllows U request scope := by
  obtain ⟨matched, eq, decides⟩ := matchScope_decides U request scope
  rw [allowsScope, eq]
  exact decides

theorem firstMatch_eq (scopes : List Scope) :
    firstMatch U request scopes = .ok (scopes.find? (allowsScope U request)) := by
  induction scopes with
  | nil => rfl
  | cons scope rest ih =>
      rw [firstMatch, matchScope_eq scope, List.find?_cons]
      cases allowsScope U request scope with
      | true => rfl
      | false => exact ih

theorem find?_allowsScope {scopes : List Scope} {scope : Scope}
    (found : scopes.find? (allowsScope U request) = some scope) :
    ∃ before after, scopes = before ++ scope :: after ∧ ScopeAllows U request scope ∧
      ∀ earlier ∈ before, ¬ ScopeAllows U request earlier := by
  obtain ⟨allows, before, after, rfl, none_⟩ := List.find?_eq_some_iff_append.1 found
  refine ⟨before, after, rfl, allowsScope_iff.1 allows, fun earlier mem allows => ?_⟩
  have denied := none_ earlier mem
  rw [allowsScope_iff.2 allows] at denied
  cases denied

/-- A malformed row is passed over wherever it stands. -/
theorem find?_insert_malformed {before after : List Scope} {row : Scope} (malformed : Malformed U row) :
    (before ++ row :: after).find? (allowsScope U request) =
      (before ++ after).find? (allowsScope U request) := by
  have denied : allowsScope U request row = false :=
    Bool.eq_false_iff.2 (fun allows => malformed.denies (allowsScope_iff.1 allows))
  rw [List.find?_append, List.find?_append, List.find?_cons, denied]

end Scopes

/-! ## The decision -/

section Decision

variable {U : Unicode} {engine : ScopePolicyEngine} {target : Target}
  {authorizationRevision : Option AuthorizationRevision} {requestUrl method : Str}
  {scopes : List Scope} {at_ now : Int}

/-- One scope allows a request that the target and its revision permit. -/
def Allows (U : Unicode) (engine : ScopePolicyEngine) (target : Target)
    (authorizationRevision : Option AuthorizationRevision) (requestUrl method : Str)
    (scopes : List Scope) (at_ : Int) : Prop :=
  ∃ request, Permits U engine target authorizationRevision requestUrl method at_ request ∧
    ∃ scope ∈ scopes, ScopeAllows U request scope

/-- The decision names the first scope that allows the request. -/
def NamesFirst (U : Unicode) (engine : ScopePolicyEngine) (target : Target)
    (authorizationRevision : Option AuthorizationRevision) (requestUrl method : Str)
    (scopes : List Scope) (at_ : Int) (decision : PolicyDecision) : Prop :=
  ∃ request before scope after,
    Permits U engine target authorizationRevision requestUrl method at_ request ∧
      scopes = before ++ scope :: after ∧ ScopeAllows U request scope ∧
      (∀ earlier ∈ before, ¬ ScopeAllows U request earlier) ∧
      decision.matchedScopeId = some scope.id

/-- **The ordered checks and the loop decide the one condition.** -/
theorem evaluate_decides : ∃ decision,
    evaluate U engine target authorizationRevision requestUrl method scopes (some (.aware at_)) now =
      .ok decision ∧
    (decision.allowed = true ↔
      Allows U engine target authorizationRevision requestUrl method scopes at_) ∧
    (decision.allowed = true →
      NamesFirst U engine target authorizationRevision requestUrl method scopes at_ decision) := by
  unfold evaluate
  dsimp only [Option.getD_some]
  cases passed : screen U engine target authorizationRevision requestUrl method at_ with
  | error refusal =>
      cases refusal with
      | raised error => exact absurd passed (screen_quiet error)
      | denied code reason =>
          refine ⟨_, rfl, ?_, (fun allowed => nomatch allowed)⟩
          constructor
          · exact (fun allowed => nomatch allowed)
          · rintro ⟨request, permits, -⟩
            rw [screen_eq_ok_iff.2 permits] at passed
            cases passed
  | ok request =>
      have permits := screen_eq_ok_iff.1 passed
      dsimp only
      rw [firstMatch_eq]
      cases found : scopes.find? (allowsScope U request) with
      | some scope =>
          obtain ⟨before, after, rfl, allows, earlier⟩ := find?_allowsScope found
          refine ⟨_, rfl, ?_, fun _ => ⟨request, before, scope, after, permits, rfl, allows, earlier, rfl⟩⟩
          exact ⟨fun _ => ⟨request, permits, scope, by simp, allows⟩, fun _ => rfl⟩
      | none =>
          refine ⟨_, rfl, ?_, (fun allowed => nomatch allowed)⟩
          constructor
          · exact (fun allowed => nomatch allowed)
          · rintro ⟨request', permits', scope, mem, allows⟩
            -- the screen has one answer, so both requests are the same
            rw [screen_eq_ok_iff.2 permits'] at passed
            obtain rfl := Except.ok.inj passed
            exact absurd (allowsScope_iff.2 allows) (List.find?_eq_none.1 found scope mem)

theorem evaluate_insert_malformed {before after : List Scope} {row : Scope} {time : Option EvaluationTime}
    (malformed : Malformed U row) :
    evaluate U engine target authorizationRevision requestUrl method (before ++ row :: after) time now =
      evaluate U engine target authorizationRevision requestUrl method (before ++ after) time now := by
  unfold evaluate
  simp only [firstMatch_eq, find?_insert_malformed malformed]

theorem Permits.mono {engine' : ScopePolicyEngine} {request : Screened}
    (permits : Permits U engine target authorizationRevision requestUrl method at_ request)
    (more : engine.platformAllowedHosts ⊆ engine'.platformAllowedHosts) :
    Permits U engine' target authorizationRevision requestUrl method at_ request := by
  obtain ⟨origin, parsed, same, hostname, listed⟩ := permits.origin
  exact ⟨permits.enabled, permits.revision, ⟨origin, parsed, same, hostname, more listed⟩,
    permits.method, permits.path⟩

theorem Allows.mono {engine' : ScopePolicyEngine} {scopes' : List Scope}
    (allows : Allows U engine target authorizationRevision requestUrl method scopes at_)
    (hosts : engine.platformAllowedHosts ⊆ engine'.platformAllowedHosts) (more : scopes ⊆ scopes') :
    Allows U engine' target authorizationRevision requestUrl method scopes' at_ := by
  obtain ⟨request, permits, scope, mem, matched⟩ := allows
  exact ⟨request, permits.mono hosts, scope, more mem, matched⟩

theorem mem_mapM_ok {α β : Type} {f : α → Except PolicyError β} {xs : List α} {ys : List β}
    (mapped : xs.mapM f = .ok ys) (y : β) : y ∈ ys ↔ ∃ x ∈ xs, f x = .ok y := by
  induction xs generalizing ys with
  | nil =>
      obtain rfl := Except.ok.inj mapped
      simp
  | cons x xs ih =>
      simp only [List.mapM_cons, bind_ok] at mapped
      obtain ⟨z, eq, zs, rest, same⟩ := mapped
      obtain rfl := Except.ok.inj same
      rw [List.mem_cons, ih rest]
      constructor
      · rintro (rfl | ⟨x', mem, eq'⟩)
        · exact ⟨x, by simp, eq⟩
        · exact ⟨x', by simp [mem], eq'⟩
      · rintro ⟨x', mem, eq'⟩
        rcases List.mem_cons.1 mem with rfl | mem
        · rw [eq] at eq'
          exact .inl (Except.ok.inj eq').symm
        · exact .inr ⟨x', mem, eq'⟩

/-- The engine's hosts are the given ones, normalized. -/
theorem mem_platformAllowedHosts {hosts : List Str} (made : ScopePolicyEngine.make U hosts = .ok engine)
    (hostname : Str) :
    hostname ∈ engine.platformAllowedHosts ↔ ∃ host ∈ hosts, normalizeHostname U host = .ok hostname := by
  simp only [ScopePolicyEngine.make, bind_ok] at made
  obtain ⟨normal, mapped, same⟩ := made
  obtain rfl := Except.ok.inj same
  exact mem_mapM_ok mapped hostname

theorem platformAllowedHosts_mono {engine' : ScopePolicyEngine} {hosts hosts' : List Str}
    (made : ScopePolicyEngine.make U hosts = .ok engine)
    (made' : ScopePolicyEngine.make U hosts' = .ok engine') (more : hosts ⊆ hosts') :
    engine.platformAllowedHosts ⊆ engine'.platformAllowedHosts := by
  intro hostname listed
  obtain ⟨host, mem, normal⟩ := (mem_platformAllowedHosts made hostname).1 listed
  exact (mem_platformAllowedHosts made' hostname).2 ⟨host, more mem, normal⟩

end Decision

/-- **Default deny, one scope, one revision.**  With any engine and at any aware time
`evaluate` returns a decision.  It allows exactly what the target, its bound revision
and one scope allow, and names the first such scope; the order of the scopes is
irrelevant to the answer, more scopes and more platform hosts never take an answer
back, and a malformed row changes nothing. -/
theorem evaluate_allows_iff (U : Unicode) (hosts : List Str) (engine : ScopePolicyEngine)
    (target : Target) (authorizationRevision : Option AuthorizationRevision) (requestUrl method : Str)
    (scopes : List Scope) (at_ now : Int) (made : ScopePolicyEngine.make U hosts = .ok engine) :
    ∃ decision,
      evaluate U engine target authorizationRevision requestUrl method scopes (some (.aware at_)) now =
        .ok decision ∧
      (decision.allowed = true ↔
        Allows U engine target authorizationRevision requestUrl method scopes at_) ∧
      (decision.allowed = true →
        NamesFirst U engine target authorizationRevision requestUrl method scopes at_ decision) ∧
      (∀ permuted, permuted.Perm scopes → ∃ decision',
        evaluate U engine target authorizationRevision requestUrl method permuted
          (some (.aware at_)) now = .ok decision' ∧ decision'.allowed = decision.allowed) ∧
      (∀ hosts' engine' scopes', hosts ⊆ hosts' → ScopePolicyEngine.make U hosts' = .ok engine' →
        scopes ⊆ scopes' → ∃ decision',
        evaluate U engine' target authorizationRevision requestUrl method scopes'
          (some (.aware at_)) now = .ok decision' ∧
          (decision.allowed = true → decision'.allowed = true)) ∧
      (∀ before after row, scopes = before ++ after → Malformed U row →
        evaluate U engine target authorizationRevision requestUrl method (before ++ row :: after)
          (some (.aware at_)) now = .ok decision) := by
  obtain ⟨decision, eq, decides, names⟩ := @evaluate_decides U engine target authorizationRevision
    requestUrl method scopes at_ now
  refine ⟨decision, eq, decides, names, ?_, ?_, ?_⟩
  · intro permuted perm
    obtain ⟨decision', eq', decides', -⟩ := evaluate_decides
    refine ⟨decision', eq', ?_⟩
    rw [Bool.eq_iff_iff, decides', decides]
    exact ⟨fun allows => allows.mono (fun _ h => h) perm.subset,
      fun allows => allows.mono (fun _ h => h) perm.symm.subset⟩
  · intro hosts' engine' scopes' moreHosts made' moreScopes
    obtain ⟨decision', eq', decides', -⟩ := evaluate_decides
    refine ⟨decision', eq', fun allowed => decides'.2 ?_⟩
    exact (decides.1 allowed).mono (platformAllowedHosts_mono made made' moreHosts) moreScopes
  · rintro before after row rfl malformed
    rw [evaluate_insert_malformed malformed]
    exact eq

section Witness

/-- The Unicode functions on ASCII text without quotes. -/
private def ascii : Unicode where
  lower := List.map Char.toLower
  upper := List.map Char.toUpper
  nfkc := id
  repr s := '\'' :: s ++ ['\'']

private def localEngine : ScopePolicyEngine := ⟨["localhost".toList]⟩

private def localTarget : Target := ⟨some 3, some 7, "http://LOCALHOST:8001".toList, true⟩

private def localRevision : AuthorizationRevision :=
  ⟨7, 3, .active, some 100, some 200, true, true, false, false, false⟩

private def localScopes : List Scope :=
  [⟨10, " ".toList, "/api/*".toList, ["GET".toList], true⟩,
    ⟨11, "localhost".toList, "/api/projects/*".toList, ["get".toList], true⟩]

theorem evaluate_allows_iff_localhost :
    ∃ decision, evaluate ascii localEngine localTarget (some localRevision)
        "http://localhost:8001/api/projects/4".toList "get".toList localScopes (some (.aware 150)) 0 =
        .ok decision ∧ decision.allowed = true ∧ decision.matchedScopeId = some 11 ∧
      Allows ascii localEngine localTarget (some localRevision)
        "http://localhost:8001/api/projects/4".toList "get".toList localScopes 150 := by
  obtain ⟨decision, eq, decides, -⟩ := evaluate_allows_iff ascii ["LocalHost.".toList] localEngine
    localTarget (some localRevision) "http://localhost:8001/api/projects/4".toList "get".toList
    localScopes 150 0 (by rfl)
  have evaluated : evaluate ascii localEngine localTarget (some localRevision)
      "http://localhost:8001/api/projects/4".toList "get".toList localScopes (some (.aware 150)) 0 =
      .ok ⟨true, .allowedByScope, "Request matches an active scope.".toList, some 3, some 7, 150,
        some 11⟩ := by rfl
  obtain rfl := Except.ok.inj (eq.symm.trans evaluated)
  exact ⟨_, eq, rfl, rfl, decides.1 rfl⟩

end Witness

end ApiSecurityPlatform.Policies
