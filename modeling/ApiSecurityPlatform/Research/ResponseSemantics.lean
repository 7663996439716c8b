/-
# Research.ResponseSemantics -- what a response says

`interpret` goes through ten exits, in order; what is left of a response is an outcome, its
reason, the length of the body and its digest.  A positive outcome has exactly one language
each: the admissible JSON objects with the members it names, in any order, and no other
(`Shows`).  A duplicate key, another member or a value of another type makes the outcome
inconclusive.
-/
import ApiSecurityPlatform.Proposals.Size
import ApiSecurityPlatform.Research.IntentCodec

namespace ApiSecurityPlatform.Research.ResponseSemantics

open ApiSecurityPlatform.Theory
open ApiSecurityPlatform.Python
open ApiSecurityPlatform.Proposals
open ApiSecurityPlatform.Research.JsonReader
open ApiSecurityPlatform.Research.IntentCodec

set_option autoImplicit false

/-! ## Expectations -/

inductive Role where
  | baseline
  | probe
  | healthBaseline
  | healthProbe
deriving DecidableEq

def Role.text : Role → Str
  | .baseline => "baseline".toList
  | .probe => "probe".toList
  | .healthBaseline => "health_baseline".toList
  | .healthProbe => "health_probe".toList

def roles : List Role := [.baseline, .probe, .healthBaseline, .healthProbe]

def isLowercase (c : Char) : Bool := 'a'.toNat ≤ c.toNat && c.toNat ≤ 'z'.toNat

def isUppercase (c : Char) : Bool := 'A'.toNat ≤ c.toNat && c.toNat ≤ 'Z'.toNat

/-- `^[a-z][a-z0-9_]{0,31}$`. -/
def isKey : Str → Bool
  | [] => false
  | c :: rest => isLowercase c && rest.all (fun c => isLowercase c || isDigit c || c == '_') && rest.length ≤ 31

/-- `^[0-9]{1,16}$`. -/
def isObjectValue (s : Str) : Bool := s.all isDigit && 1 ≤ s.length && s.length ≤ 16

/-- `^[A-Za-z0-9_-]{1,64}$`. -/
def isMarker (s : Str) : Bool :=
  s.all (fun c => isLowercase c || isUppercase c || isDigit c || c == '_' || c == '-') &&
    1 ≤ s.length && s.length ≤ 64

def authenticated : Str := "authenticated".toList

def errorField : Str := "error".toList

structure Expectation where
  role : Role
  objectKey : Str
  objectValue : Str
  identityKey : Str
  identityValue : Option Str
  objectKey_key : isKey objectKey = true
  objectValue_value : isObjectValue objectValue = true
  identityKey_key : isKey identityKey = true
  identityValue_marker : ∀ marker ∈ identityValue, isMarker marker = true
  /-- `distinct`. -/
  selectors : [objectKey, identityKey, authenticated, errorField].Nodup

section

variable {F : Type}

/-- `value.get(key)`. -/
def get (members : List (Str × Json F)) (key : Str) : Option (Json F) :=
  (members.find? fun m => m.1 = key).map Prod.snd

def asString : Json F → Option Str
  | .string s => some s
  | _ => none

/-- `Marker | None`. -/
def asMarker : Json F → Option (Option Str)
  | .null => some none
  | .string s => some (some s)
  | _ => none

def expectationFields : List Str :=
  ["role".toList, "object_key".toList, "object_value".toList, "identity_key".toList, "identity_value".toList]

def Expectation.modelDump (e : Expectation) : Json F :=
  .object [("role".toList, .string e.role.text), ("object_key".toList, .string e.objectKey),
    ("object_value".toList, .string e.objectValue), ("identity_key".toList, .string e.identityKey),
    ("identity_value".toList, match e.identityValue with
      | none => .null
      | some marker => .string marker)]

/-- `Expectation.model_validate`: the fields and no others, and then `distinct`. -/
def modelValidate : Json F → Option Expectation
  | .object members => do
      let role ← (get members "role".toList).bind asString
      let role ← roles.find? fun r => r.text = role
      let objectKey ← (get members "object_key".toList).bind asString
      let objectValue ← (get members "object_value".toList).bind asString
      let identityKey ← (get members "identity_key".toList).bind asString
      let identityValue ← (get members "identity_value".toList).bind asMarker
      if ∃ m ∈ members, m.1 ∉ expectationFields then none
      else if valid : isKey objectKey = true ∧ isObjectValue objectValue = true ∧ isKey identityKey = true ∧
          (∀ marker ∈ identityValue, isMarker marker = true) ∧
          [objectKey, identityKey, authenticated, errorField].Nodup then
        some ⟨role, objectKey, objectValue, identityKey, identityValue, valid.1, valid.2.1, valid.2.2.1,
          valid.2.2.2.1, valid.2.2.2.2⟩
      else none
  | _ => none

/-- What `interpret` is given: an `Expectation`, or another value. -/
inductive Given (F : Type) where
  | record (e : Expectation)
  | value (v : Json F)

def Given.dumped : Given F → Json F
  | .record e => e.modelDump
  | .value v => v

variable (D : Floats F) (I : Interpreter)

/-- `codec.validate(Expectation, value)`. -/
def validate (expectation : Given F) : Except (Halt IntentError) Expectation := do
  let bytes ← canonical D expectation.dumped
  let value ← parse D I bytes
  match modelValidate value with
  | none => .error (.raised intentInvalid)
  | some e => .ok e

theorem modelDump_sorted (e : Expectation) : (e.modelDump : Json F).sorted =
    .object [("identity_key".toList, .string e.identityKey),
      ("identity_value".toList, match e.identityValue with
        | none => .null
        | some marker => .string marker),
      ("object_key".toList, .string e.objectKey), ("object_value".toList, .string e.objectValue),
      ("role".toList, .string e.role.text)] := by
  cases e with
  | mk role objectKey objectValue identityKey identityValue _ _ _ _ _ =>
  cases identityValue <;> rfl

theorem modelValidate_sorted (e : Expectation) : modelValidate (F := F)
    (.object [("identity_key".toList, .string e.identityKey),
      ("identity_value".toList, match e.identityValue with
        | none => .null
        | some marker => .string marker),
      ("object_key".toList, .string e.objectKey), ("object_value".toList, .string e.objectValue),
      ("role".toList, .string e.role.text)]) = some e := by
  have found : roles.find? (fun r => r.text = e.role.text) = some e.role := by cases e.role <;> decide
  have valid := And.intro e.objectKey_key (And.intro e.objectValue_value (And.intro e.identityKey_key
    (And.intro e.identityValue_marker e.selectors)))
  have fields : ¬ ∃ m ∈ [("identity_key".toList, (.string e.identityKey : Json F)),
      ("identity_value".toList, match e.identityValue with
        | none => .null
        | some marker => .string marker),
      ("object_key".toList, .string e.objectKey), ("object_value".toList, .string e.objectValue),
      ("role".toList, .string e.role.text)], m.1 ∉ expectationFields := by
    simp [expectationFields]
  have marker : asMarker (F := F) (match e.identityValue with
      | none => .null
      | some marker => .string marker) = some e.identityValue := by
    cases e.identityValue <;> rfl
  show ((roles.find? fun r => r.text = e.role.text).bind fun role => ((asMarker (match e.identityValue with
      | none => (.null : Json F)
      | some marker => .string marker)).bind fun identityValue => _)) = _
  rw [found, marker, Option.bind_some, Option.bind_some, if_neg fields, dif_pos valid]

theorem size_closeString (s : Str) : size (closeString s) ≤ 6 * s.length + 1 := by
  induction s with
  | nil => decide
  | cons c rest ih =>
      rw [closeString, size_append, List.length_cons]
      have first := size_escapeChar c
      omega

theorem isKey_length {s : Str} (key : isKey s = true) : s.length ≤ 32 := by
  cases s with
  | nil => exact Nat.zero_le _
  | cons c rest =>
      rw [isKey, Bool.and_eq_true, decide_eq_true_eq] at key
      rw [List.length_cons]
      omega

theorem modelDump_size (e : Expectation) : (Proposals.canonical D e.modelDump).length ≤ maxInput := by
  have role : size (closeString e.role.text) ≤ 92 := by cases e.role <;> decide
  have objectKey := size_closeString e.objectKey
  have objectValue := size_closeString e.objectValue
  have identityKey := size_closeString e.identityKey
  have shortKey := isKey_length e.objectKey_key
  have shortKey' := isKey_length e.identityKey_key
  have shortValue : e.objectValue.length ≤ 16 := by
    have value := e.objectValue_value
    rw [isObjectValue, Bool.and_eq_true, decide_eq_true_eq] at value
    exact value.2
  have names : size (closeString "role".toList) + size (closeString "object_key".toList) +
      size (closeString "object_value".toList) + size (closeString "identity_key".toList) +
      size (closeString "identity_value".toList) ≤ 100 := by decide
  have last : canonicalSize D (match e.identityValue with
      | none => Json.null
      | some marker => Json.string marker) ≤ 400 := by
    cases given : e.identityValue with
    | none => exact show 4 ≤ 400 by decide
    | some marker =>
        have valid := e.identityValue_marker marker given
        rw [isMarker, Bool.and_eq_true, decide_eq_true_eq] at valid
        have bytes := size_closeString marker
        show 1 + size (closeString marker) ≤ 400
        omega
  rw [canonical_length, Expectation.modelDump, canonicalSize]
  simp only [List.isEmpty_cons, Bool.false_eq_true, if_false, membersSize, canonicalSize]
  show _ ≤ 32768
  omega

/-- A record is valid. -/
theorem validate_record (e : Expectation) : validate D I (.record e) = .ok e := by
  have free : NumberFree (F := F) e.modelDump := by
    refine ⟨trivial, trivial, trivial, trivial, ?_, trivial⟩
    cases e.identityValue <;> trivial
  have leaf : Json.height (match e.identityValue with
        | none => (.null : Json F)
        | some marker => .string marker) = 0 ∧ nodes (match e.identityValue with
        | none => (.null : Json F)
        | some marker => .string marker) = 1 := by
    cases e.identityValue <;> exact ⟨rfl, rfl⟩
  have distinct : (e.modelDump (F := F)).Distinct := by
    have names : ["role".toList, "object_key".toList, "object_value".toList, "identity_key".toList,
        "identity_value".toList].Nodup := by decide
    refine ⟨names, trivial, trivial, trivial, trivial, ?_, trivial⟩
    cases e.identityValue <;> trivial
  have short : (e.modelDump (F := F)).Short := by
    refine ⟨trivial, trivial, trivial, trivial, ?_, trivial⟩
    cases e.identityValue <;> trivial
  have height : (e.modelDump (F := F)).height ≤ 8 := by
    simp [Expectation.modelDump, Json.height, Json.membersHeight, leaf.1]
  have count : nodes (e.modelDump (F := F)) ≤ 8192 := by
    simp [Expectation.modelDump, nodes, nodesMembers, leaf.2]
  have parsed := parse_canonical D I free distinct short height count (modelDump_size D e)
  rw [validate, bind_ok]
  refine ⟨_, (canonical_ok D free).2 ⟨height, count, rfl⟩, ?_⟩
  rw [bind_ok]
  refine ⟨_, parsed, ?_⟩
  rw [modelDump_sorted, modelValidate_sorted]

/-! ## The interpreter -/

inductive Outcome where
  | inconclusive
  | healthy
  | objectRead
  | businessDenied
deriving DecidableEq

inductive Reason where
  | responseUnavailable
  | purposeUnsupported
  | responseLimit
  | responseRepresentation
  | responseMalformed
  | objectMissing
  | identityUnqualified
  | responseUnknownFields
  | objectMismatch
  | identityMismatch
  | identityAndHealthObjectVerified
  | healthUnqualified
  | exactObjectVerified
  | explicitBusinessDenial
  | authenticationOrTransportUncertain
deriving DecidableEq

/-- What is left of a response. -/
structure Result where
  interpreter : Str
  outcome : Outcome
  reason : Reason
  responseSha256 : Option Str
  responseBytes : Nat
deriving DecidableEq

def business : Str := "business".toList

def health : Str := "health".toList

def anonymous : Str := "anonymous".toList

def bearer : Str := "bearer".toList

def accessDenied : Str := "access_denied".toList

def mediaTypes : List Str :=
  ["application/json".toList, "application/json;charset=utf-8".toList,
    "application/json;charset=\"utf-8\"".toList]

def maxBytes : Nat := 16384

/-- `DEFINITION`. -/
def definition : Json F :=
  .object [("protocol".toList, .string "ra-response-scalar/1".toList), ("version".toList, .number (.int 1)),
    ("max_bytes".toList, .number (.int 16384)), ("max_depth".toList, .number (.int 4)),
    ("max_nodes".toList, .number (.int 256)), ("object_status".toList, .number (.int 200)),
    ("denial_status".toList, .number (.int 403)), ("authenticated".toList, .bool true),
    ("denial_error".toList, .string accessDenied), ("unknown_fields".toList, .string "inconclusive".toList),
    ("malformed".toList, .string "inconclusive".toList), ("media_types".toList, .array (mediaTypes.map .string)),
    ("purposes".toList, .array [.string business, .string health])]

/-- `DEFINITION_DIGEST`. -/
def definitionDigest : Str :=
  I.sha256 (utf8 "ra-response-definition/1".toList ++ utf8 ['\n'] ++ Proposals.canonical D definition)

/-- `_bounded`. -/
def boundedWalk : Walk Unit where
  depth := 4
  nodes := 256
  limit := ()
  float := none

/-- `type(value.get(key)) is str and value[key] == s`. -/
def holds (members : List (Str × Json F)) (key s : Str) : Bool := (get members key).bind asString = some s

/-- `value.get('authenticated') is True`. -/
def isTrue (members : List (Str × Json F)) (key : Str) : Bool :=
  match get members key with
  | some (.bool true) => true
  | _ => false

/-- The part of `interpret` that looks at the value. -/
def interpretValue (exp : Expectation) (value : Json F) (status : Option Int) (authType purpose : Str) :
    Outcome × Reason :=
  match value with
  | .object members =>
      let keys := members.map Prod.fst
      let identity := [exp.identityKey, authenticated]
      let allowed := exp.objectKey :: (if authType = bearer then identity else []) ++
        (if errorField ∈ keys then [errorField] else [])
      let needsIdentity := authType = bearer ∧
        (purpose = health ∨ errorField ∈ keys ∨ ∃ key ∈ identity, key ∈ keys)
      if authType ∉ [anonymous, bearer] ∨ ¬ (authType = bearer ↔ exp.identityValue.isSome) then
        (.inconclusive, .identityUnqualified)
      else if ¬ keys ⊆ allowed then (.inconclusive, .responseUnknownFields)
      else if ¬ holds members exp.objectKey exp.objectValue then (.inconclusive, .objectMismatch)
      else if needsIdentity ∧ ¬ (isTrue members authenticated = true ∧
          ∃ marker ∈ exp.identityValue, holds members exp.identityKey marker = true) then
        (.inconclusive, .identityMismatch)
      else if purpose = health then
        if authType = bearer ∧ status = some 200 ∧ keys ⊆ exp.objectKey :: identity ∧
            exp.objectKey :: identity ⊆ keys then
          (.healthy, .identityAndHealthObjectVerified)
        else (.inconclusive, .healthUnqualified)
      else if status = some 200 ∧ errorField ∉ keys then (.objectRead, .exactObjectVerified)
      else if status = some 403 ∧ holds members errorField accessDenied = true then
        (.businessDenied, .explicitBusinessDenial)
      else (.inconclusive, .authenticationOrTransportUncertain)
  | _ => (.inconclusive, .objectMissing)

/-- The `try` of `interpret`. -/
def readBody (expectation : Given F) (body : Bytes) : Option (Expectation × Json F) := do
  let exp ← (validate D I expectation).toOption
  let value ← (parse D I body).toOption
  let _ ← (walk boundedWalk 0 0 value).toOption
  return (exp, value)

variable (lower : Str → Str)

/-- The media type and the encoding are accepted; a type that is no `str` is `None` here. -/
def Represented (contentType contentEncoding : Option Str) : Prop :=
  (∃ given ∈ contentType, (lower given).filter (· ≠ ' ') ∈ mediaTypes) ∧
    contentEncoding ∈ [none, some [], some "identity".toList]

instance (contentType contentEncoding : Option Str) : Decidable (Represented lower contentType contentEncoding) :=
  inferInstanceAs (Decidable (_ ∧ _))

/-- What of `interpret` depends on the bytes, once there are some for a known purpose. -/
def classify (status : Option Int) (body : Bytes) (expectation : Given F) (authType purpose : Str)
    (contentType contentEncoding : Option Str) : Outcome × Reason :=
  if maxBytes < body.length then (.inconclusive, .responseLimit)
  else if ¬ Represented lower contentType contentEncoding then (.inconclusive, .responseRepresentation)
  else
    match readBody D I expectation body with
    | none => (.inconclusive, .responseMalformed)
    | some (exp, value) => interpretValue exp value status authType purpose

/-- `interpret`; `None` is a body that is not `bytes`. -/
def interpret (status : Option Int) (body : Option Bytes) (expectation : Given F) (authType purpose : Str)
    (contentType contentEncoding : Option Str) : Result :=
  match body with
  | none => ⟨definitionDigest D I, .inconclusive, .responseUnavailable, none, 0⟩
  | some body =>
      if purpose ∉ [business, health] then ⟨definitionDigest D I, .inconclusive, .purposeUnsupported, none, 0⟩
      else
        let (outcome, reason) :=
          classify D I lower status body expectation authType purpose contentType contentEncoding
        ⟨definitionDigest D I, outcome, reason, some (I.sha256 body), body.length⟩

/-! ## Members by their keys -/

section Members

omit D I lower

variable {members : List (Str × Json F)} (unique : (members.map Prod.fst).Nodup)

include unique

theorem get_iff (key : Str) (v : Json F) : get members key = some v ↔ (key, v) ∈ members := by
  unfold get
  constructor
  · intro found
    obtain ⟨m, first, rfl⟩ := Option.map_eq_some_iff.1 found
    have named := List.find?_some first
    rw [decide_eq_true_eq] at named
    exact named ▸ List.mem_of_find?_eq_some first
  · intro mem
    obtain ⟨m, first⟩ : ∃ m, members.find? (fun m => m.1 = key) = some m :=
      Option.isSome_iff_exists.1 (List.find?_isSome.2 ⟨_, mem, decide_eq_true rfl⟩)
    have named := List.find?_some first
    rw [decide_eq_true_eq] at named
    obtain rfl : m = (key, v) := List.inj_on_of_nodup_map unique (List.mem_of_find?_eq_some first) mem named
    rw [first]
    rfl

theorem holds_iff (key s : Str) : holds members key s = true ↔ (key, .string s) ∈ members := by
  rw [holds, decide_eq_true_eq, ← get_iff unique]
  cases get members key with
  | none => exact iff_of_false (fun same => nomatch same) fun same => nomatch same
  | some v => cases v <;> simp [asString]

theorem isTrue_iff (key : Str) : isTrue members key = true ↔ (key, .bool true) ∈ members := by
  rw [isTrue, ← get_iff unique]
  cases get members key with
  | none => exact iff_of_false Bool.false_ne_true fun same => nomatch same
  | some v =>
      cases v with
      | bool b => cases b <;> simp
      | _ => simp

/-- The members are those of another object, in some order. -/
theorem perm_iff {target : List (Str × Json F)} (unique' : (target.map Prod.fst).Nodup) :
    members.Perm target ↔ members.map Prod.fst ⊆ target.map Prod.fst ∧ target ⊆ members := by
  constructor
  · intro perm
    exact ⟨(perm.map Prod.fst).subset, perm.symm.subset⟩
  · rintro ⟨keys, all⟩
    rw [List.perm_ext_iff_of_nodup unique.of_map unique'.of_map]
    refine fun m => ⟨fun mem => ?_, fun mem => all mem⟩
    obtain ⟨m', mem', same⟩ := List.mem_map.1 (keys (List.mem_map_of_mem mem))
    rwa [← List.inj_on_of_nodup_map unique (all mem') mem same]

end Members

/-! ## The languages -/

/-- The body is an admissible JSON text. -/
structure IsBody (body : Bytes) (v : Json F) : Prop where
  size : body.length ≤ maxBytes
  text : ∃ text, body = utf8 text ∧ Rules.IsText D text v
  distinct : v.Distinct
  floats : v.Numbers fun n => ∃ i, n = .int i
  height : v.height ≤ 4
  nodes : nodes v ≤ 256

/-- The body is an admissible object of these members, in some order, in an accepted
representation. -/
def Shows (contentType contentEncoding : Option Str) (body : Bytes) (target : List (Str × Json F)) : Prop :=
  Represented lower contentType contentEncoding ∧
    ∃ members, members.Perm target ∧ IsBody D body (.object members)

def objectField (exp : Expectation) : Str × Json F := (exp.objectKey, .string exp.objectValue)

def identityFields (exp : Expectation) (marker : Str) : List (Str × Json F) :=
  [(exp.identityKey, .string marker), (authenticated, .bool true)]

def denialField : Str × Json F := (errorField, .string accessDenied)

section Languages

omit D I lower

theorem fst_skip {p : Prop} [Decidable p] {x y : Outcome × Reason} {o : Outcome} (other : x.1 ≠ o) :
    (if p then x else y).1 = o ↔ ¬ p ∧ y.1 = o := by
  by_cases holds : p
  · rw [if_pos holds]
    exact iff_of_false other fun both => both.1 holds
  · rw [if_neg holds, and_iff_right holds]

theorem fst_here {p : Prop} [Decidable p] {x y : Outcome × Reason} {o : Outcome} (same : x.1 = o) (other : y.1 ≠ o) :
    (if p then x else y).1 = o ↔ p := by
  by_cases holds : p
  · rw [if_pos holds]
    exact iff_of_true same holds
  · rw [if_neg holds]
    exact iff_of_false other holds

variable {exp : Expectation} {members : List (Str × Json F)} (unique : (members.map Prod.fst).Nodup)
  {authType purpose : Str} {status : Option Int}

/-- What the checks before the purpose say: the members are within the allowed ones, the object is
there, and with it the identity wherever it is needed. -/
def Checked (exp : Expectation) (members : List (Str × Json F)) (authType purpose : Str) : Prop :=
  members.map Prod.fst ⊆ exp.objectKey :: (if authType = bearer then [exp.identityKey, authenticated] else []) ++
      (if errorField ∈ members.map Prod.fst then [errorField] else []) ∧
    objectField exp ∈ members ∧
    (authType = bearer → (purpose = health ∨ errorField ∈ members.map Prod.fst ∨
        exp.identityKey ∈ members.map Prod.fst ∨ authenticated ∈ members.map Prod.fst) →
      ∃ marker ∈ exp.identityValue, identityFields exp marker ⊆ members)

include unique

theorem interpretValue_fst {o : Outcome} (positive : o ≠ .inconclusive) (actor : authType ∈ [anonymous, bearer])
    (qualified : authType = bearer ↔ exp.identityValue.isSome = true) :
    (interpretValue exp (.object members) status authType purpose).1 = o ↔
      Checked exp members authType purpose ∧
        (if purpose = health then
          if authType = bearer ∧ status = some 200 ∧
              members.map Prod.fst ⊆ [exp.objectKey, exp.identityKey, authenticated] ∧
              [exp.objectKey, exp.identityKey, authenticated] ⊆ members.map Prod.fst then
            (.healthy, .identityAndHealthObjectVerified)
          else (.inconclusive, .healthUnqualified)
        else if status = some 200 ∧ errorField ∉ members.map Prod.fst then (.objectRead, .exactObjectVerified)
        else if status = some 403 ∧ holds members errorField accessDenied = true then
          (.businessDenied, .explicitBusinessDenial)
        else ((.inconclusive, .authenticationOrTransportUncertain) : Outcome × Reason)).1 = o := by
  have first : ¬ (authType ∉ [anonymous, bearer] ∨ ¬ (authType = bearer ↔ exp.identityValue.isSome)) := by
    rw [not_or, not_not, not_not]
    exact ⟨actor, qualified⟩
  have identity : ¬ ((authType = bearer ∧ (purpose = health ∨ errorField ∈ members.map Prod.fst ∨
      ∃ key ∈ [exp.identityKey, authenticated], key ∈ members.map Prod.fst)) ∧
      ¬ (isTrue members authenticated = true ∧
        ∃ marker ∈ exp.identityValue, holds members exp.identityKey marker = true)) ↔
      (authType = bearer → (purpose = health ∨ errorField ∈ members.map Prod.fst ∨
        exp.identityKey ∈ members.map Prod.fst ∨ authenticated ∈ members.map Prod.fst) →
      ∃ marker ∈ exp.identityValue, identityFields exp marker ⊆ members) := by
    rw [not_and_not_right]
    simp only [isTrue_iff unique, holds_iff unique, List.exists_mem_cons_iff, List.not_mem_nil,
      false_and, exists_false, or_false, identityFields, List.cons_subset, List.nil_subset, and_true, and_imp]
    refine forall_congr' fun _ => forall_congr' fun _ => ?_
    constructor
    · rintro ⟨true_, marker, given, named⟩
      exact ⟨marker, given, named, true_⟩
    · rintro ⟨marker, given, named, true_⟩
      exact ⟨true_, marker, given, named⟩
  unfold interpretValue
  dsimp only
  rw [if_neg first, fst_skip positive.symm, fst_skip positive.symm, fst_skip positive.symm, identity, not_not, not_not,
    holds_iff unique]
  exact ⟨fun ⟨keys, object, needed, last⟩ => ⟨⟨keys, object, needed⟩, last⟩,
    fun ⟨⟨keys, object, needed⟩, last⟩ => ⟨keys, object, needed, last⟩⟩

omit unique in
theorem selectors_apart (exp : Expectation) :
    (exp.objectKey ≠ exp.identityKey ∧ exp.objectKey ≠ authenticated ∧ exp.objectKey ≠ errorField) ∧
      exp.identityKey ≠ authenticated ∧ exp.identityKey ≠ errorField ∧ authenticated ≠ errorField := by
  have nodup := exp.selectors
  simp only [List.nodup_cons, List.mem_cons, List.not_mem_nil, or_false, not_or] at nodup
  exact ⟨nodup.1, nodup.2.1.1, nodup.2.1.2, nodup.2.2.1⟩

omit unique in
theorem identity_keys {marker : Str} (shown : identityFields exp marker ⊆ members) :
    exp.identityKey ∈ members.map Prod.fst ∧ authenticated ∈ members.map Prod.fst :=
  ⟨List.mem_map_of_mem (shown List.mem_cons_self),
    List.mem_map_of_mem (shown (List.mem_cons_of_mem _ List.mem_cons_self))⟩

theorem perm_identity (marker : Str) : members.Perm (objectField exp :: identityFields exp marker) ↔
    members.map Prod.fst ⊆ [exp.objectKey, exp.identityKey, authenticated] ∧
      objectField exp :: identityFields exp marker ⊆ members := by
  obtain ⟨⟨oi, oa, -⟩, ia, -⟩ := selectors_apart exp
  exact perm_iff unique (by simp [objectField, identityFields, oi, oa, ia])

variable (actor : authType ∈ [anonymous, bearer]) (qualified : authType = bearer ↔ exp.identityValue.isSome = true)

include actor qualified

theorem interpretValue_healthy :
    (interpretValue exp (.object members) status authType purpose).1 = .healthy ↔
      purpose = health ∧ authType = bearer ∧ status = some 200 ∧
        ∃ marker ∈ exp.identityValue, members.Perm (objectField exp :: identityFields exp marker) := by
  obtain ⟨⟨oi, oa, oe⟩, ia, ie, ae⟩ := selectors_apart exp
  have perm (marker : Str) := @perm_identity _ exp _ unique marker
  rw [interpretValue_fst unique (o := .healthy) (fun same => nomatch same) actor qualified]
  by_cases purpose_ : purpose = health
  · rw [if_pos purpose_, @fst_here _ _ (.healthy, .identityAndHealthObjectVerified) (.inconclusive, .healthUnqualified)
      .healthy rfl (fun same => nomatch same), and_iff_right purpose_]
    constructor
    · rintro ⟨⟨-, object, needed⟩, bearer_, status_, keys, -⟩
      obtain ⟨marker, given, identity⟩ := needed bearer_ (.inl purpose_)
      exact ⟨bearer_, status_, marker, given, (perm marker).2 ⟨keys, List.cons_subset.2 ⟨object, identity⟩⟩⟩
    · rintro ⟨bearer_, status_, marker, given, shown⟩
      obtain ⟨keys, all⟩ := (perm marker).1 shown
      obtain ⟨object, identity⟩ := List.cons_subset.1 all
      obtain ⟨named, true_⟩ := identity_keys identity
      refine ⟨⟨?_, object, fun _ _ => ⟨marker, given, identity⟩⟩, bearer_, status_, keys, ?_⟩
      · rw [if_pos bearer_]
        exact fun key mem => List.mem_append_left _ (keys mem)
      · exact List.cons_subset.2 ⟨List.mem_map_of_mem object, List.cons_subset.2 ⟨named,
          List.cons_subset.2 ⟨true_, List.nil_subset _⟩⟩⟩
  · refine iff_of_false (fun ⟨_, same⟩ => ?_) fun ⟨same, _⟩ => purpose_ same
    rw [if_neg purpose_] at same
    split_ifs at same

theorem interpretValue_objectRead :
    (interpretValue exp (.object members) status authType purpose).1 = .objectRead ↔
      purpose ≠ health ∧ status = some 200 ∧ (members.Perm [objectField exp] ∨
        authType = bearer ∧ ∃ marker ∈ exp.identityValue,
          members.Perm (objectField exp :: identityFields exp marker)) := by
  obtain ⟨⟨oi, oa, oe⟩, ia, ie, ae⟩ := selectors_apart exp
  have perm (marker : Str) := @perm_identity _ exp _ unique marker
  have alone : members.Perm [objectField exp] ↔
      members.map Prod.fst ⊆ [exp.objectKey] ∧ [objectField exp] ⊆ members :=
    perm_iff unique (List.nodup_singleton _)
  rw [interpretValue_fst unique (o := .objectRead) (fun same => nomatch same) actor qualified]
  by_cases purpose_ : purpose = health
  · refine iff_of_false (fun ⟨_, same⟩ => ?_) fun ⟨other, _⟩ => other purpose_
    rw [if_pos purpose_] at same
    split_ifs at same
  rw [if_neg purpose_, fst_here rfl (by split_ifs <;> exact fun same => nomatch same), and_iff_right purpose_]
  constructor
  · rintro ⟨⟨keys, object, needed⟩, status_, clean⟩
    refine ⟨status_, ?_⟩
    rw [if_neg clean, List.append_nil] at keys
    by_cases bearer_ : authType = bearer
    · rw [if_pos bearer_] at keys
      by_cases some_ : exp.identityKey ∈ members.map Prod.fst ∨ authenticated ∈ members.map Prod.fst
      · obtain ⟨marker, given, identity⟩ := needed bearer_ (.inr (.inr some_))
        exact .inr ⟨bearer_, marker, given, (perm marker).2 ⟨keys, List.cons_subset.2 ⟨object, identity⟩⟩⟩
      · rw [not_or] at some_
        refine .inl (alone.2 ⟨fun key mem => ?_, List.cons_subset.2 ⟨object, List.nil_subset _⟩⟩)
        have among := keys mem
        simp only [List.mem_cons, List.not_mem_nil, or_false] at among ⊢
        rcases among with same | rfl | rfl
        · exact same
        · exact absurd mem some_.1
        · exact absurd mem some_.2
    · rw [if_neg bearer_] at keys
      exact .inl (alone.2 ⟨keys, List.cons_subset.2 ⟨object, List.nil_subset _⟩⟩)
  · rintro ⟨status_, shown⟩
    have apart {key : Str} (other : exp.objectKey ≠ key) (keys : members.map Prod.fst ⊆ [exp.objectKey]) :
        key ∉ members.map Prod.fst := fun mem => other (List.mem_singleton.1 (keys mem)).symm
    rcases shown with shown | ⟨bearer_, marker, given, shown⟩
    · obtain ⟨keys, all⟩ := alone.1 shown
      refine ⟨⟨fun key mem => ?_, all List.mem_cons_self, fun _ some_ => ?_⟩, status_, apart oe keys⟩
      · rw [List.mem_singleton.1 (keys mem)]
        exact List.mem_append_left _ List.mem_cons_self
      · rcases some_ with same | mem | mem | mem
        · exact absurd same purpose_
        · exact absurd mem (apart oe keys)
        · exact absurd mem (apart oi keys)
        · exact absurd mem (apart oa keys)
    · obtain ⟨keys, all⟩ := (perm marker).1 shown
      obtain ⟨object, identity⟩ := List.cons_subset.1 all
      refine ⟨⟨?_, object, fun _ _ => ⟨marker, given, identity⟩⟩, status_, fun mem => ?_⟩
      · rw [if_pos bearer_]
        exact fun key mem => List.mem_append_left _ (keys mem)
      · have among := keys mem
        simp only [List.mem_cons, List.not_mem_nil, or_false] at among
        rcases among with same | same | same
        · exact oe same.symm
        · exact ie same.symm
        · exact ae same.symm

theorem interpretValue_businessDenied :
    (interpretValue exp (.object members) status authType purpose).1 = .businessDenied ↔
      purpose ≠ health ∧ status = some 403 ∧
        (authType = anonymous ∧ members.Perm [objectField exp, denialField] ∨
          authType = bearer ∧ ∃ marker ∈ exp.identityValue,
            members.Perm (objectField exp :: denialField :: identityFields exp marker)) := by
  obtain ⟨⟨oi, oa, oe⟩, ia, ie, ae⟩ := selectors_apart exp
  have perm (marker : Str) : members.Perm (objectField exp :: denialField :: identityFields exp marker) ↔
      members.map Prod.fst ⊆ [exp.objectKey, errorField, exp.identityKey, authenticated] ∧
        objectField exp :: denialField :: identityFields exp marker ⊆ members :=
    perm_iff unique (by simp [objectField, denialField, identityFields, oi, oa, oe, ia, ie.symm, ae.symm])
  have alone : members.Perm [objectField exp, denialField] ↔
      members.map Prod.fst ⊆ [exp.objectKey, errorField] ∧ [objectField exp, denialField] ⊆ members :=
    perm_iff unique (by simp [objectField, denialField, oe])
  have other : anonymous ≠ bearer := by decide
  rw [interpretValue_fst unique (o := .businessDenied) (fun same => nomatch same) actor qualified]
  by_cases purpose_ : purpose = health
  · refine iff_of_false (fun ⟨_, same⟩ => ?_) fun ⟨other, _⟩ => other purpose_
    rw [if_pos purpose_] at same
    split_ifs at same
  rw [if_neg purpose_, @fst_skip _ _ (.objectRead, .exactObjectVerified) _ .businessDenied (fun same => nomatch same),
    @fst_here _ _ (.businessDenied, .explicitBusinessDenial) (.inconclusive, .authenticationOrTransportUncertain)
      .businessDenied rfl (fun same => nomatch same), and_iff_right purpose_, holds_iff unique]
  constructor
  · rintro ⟨⟨keys, object, needed⟩, -, status_, denial⟩
    have refused : errorField ∈ members.map Prod.fst := List.mem_map_of_mem denial
    refine ⟨status_, ?_⟩
    rw [if_pos refused] at keys
    by_cases bearer_ : authType = bearer
    · obtain ⟨marker, given, identity⟩ := needed bearer_ (.inr (.inl refused))
      refine .inr ⟨bearer_, marker, given, (perm marker).2 ⟨fun key mem => ?_, ?_⟩⟩
      · have among := keys mem
        rw [if_pos bearer_] at among
        simp only [List.cons_append, List.nil_append, List.mem_cons, List.not_mem_nil, or_false] at among ⊢
        rcases among with same | same | same | same
        · exact .inl same
        · exact .inr (.inr (.inl same))
        · exact .inr (.inr (.inr same))
        · exact .inr (.inl same)
      · exact List.cons_subset.2 ⟨object, List.cons_subset.2 ⟨denial, identity⟩⟩
    · have anonymous_ : authType = anonymous := by
        simp only [List.mem_cons, List.not_mem_nil, or_false] at actor
        exact actor.resolve_right bearer_
      rw [if_neg bearer_] at keys
      exact .inl ⟨anonymous_, alone.2 ⟨keys, List.cons_subset.2 ⟨object, List.cons_subset.2
        ⟨denial, List.nil_subset _⟩⟩⟩⟩
  · rintro ⟨status_, shown⟩
    have status' : ¬ (status = some 200 ∧ errorField ∉ members.map Prod.fst) := by
      rw [status_]
      exact fun both => absurd both.1 (by decide)
    rcases shown with ⟨anonymous_, shown⟩ | ⟨bearer_, marker, given, shown⟩
    · obtain ⟨keys, all⟩ := alone.1 shown
      have denial : denialField ∈ members := all (List.mem_cons_of_mem _ List.mem_cons_self)
      have refused : errorField ∈ members.map Prod.fst := List.mem_map_of_mem denial
      have none_ : authType ≠ bearer := anonymous_ ▸ other
      refine ⟨⟨?_, all List.mem_cons_self, fun bearer_ => absurd bearer_ none_⟩, status', status_, denial⟩
      rw [if_neg none_, if_pos refused]
      exact keys
    · obtain ⟨keys, all⟩ := (perm marker).1 shown
      obtain ⟨object, all⟩ := List.cons_subset.1 all
      obtain ⟨denial, identity⟩ := List.cons_subset.1 all
      have refused : errorField ∈ members.map Prod.fst := List.mem_map_of_mem denial
      refine ⟨⟨fun key mem => ?_, object, fun _ _ => ⟨marker, given, identity⟩⟩, status', status_, denial⟩
      rw [if_pos bearer_, if_pos refused]
      have among := keys mem
      simp only [List.cons_append, List.nil_append, List.mem_cons, List.not_mem_nil, or_false] at among ⊢
      rcases among with same | same | same | same
      · exact .inl same
      · exact .inr (.inr (.inr same))
      · exact .inr (.inl same)
      · exact .inr (.inr (.inl same))

end Languages

section Body

variable {body : Bytes} {exp : Expectation} {expectation : Given F} {contentType contentEncoding : Option Str}
  {authType purpose : Str} {status : Option Int}

omit lower in
theorem isBody_iff {v : Json F} (free : NumberFree v) :
    body.length ≤ maxBytes ∧ parse D I body = .ok v ∧ (∃ n, walk boundedWalk 0 0 v = .ok n) ↔ IsBody D body v := by
  have passes : v.Numbers (Passes boundedWalk) := Json.numbers_mono (fun _ none_ => none_.elim) v free
  have floats : v.Numbers fun n => ∃ i, n = .int i := Json.numbers_mono (fun _ none_ => none_.elim) v free
  rw [parse_iff D I free]
  constructor
  · rintro ⟨size, ⟨-, text, distinct, -, -⟩, n, walked⟩
    obtain ⟨height, count, -, -⟩ := (walk_ok boundedWalk v 0 0 n).1 walked
    rw [Nat.zero_add] at height count
    exact ⟨size, text, distinct, floats, height, count⟩
  · rintro ⟨size, text, distinct, -, height, count⟩
    refine ⟨size, ⟨Nat.le_trans size (by decide), text, distinct, by omega, by omega⟩, _,
      (walk_ok boundedWalk v 0 0 _).2 ⟨?_, ?_, passes, rfl⟩⟩
    · rwa [Nat.zero_add]
    · rwa [Nat.zero_add]

/-- The object the interpreter looks at: what is left of the exits before it. -/
def Reads (contentType contentEncoding : Option Str) (body : Bytes) (members : List (Str × Json F)) : Prop :=
  Represented lower contentType contentEncoding ∧
    body.length ≤ maxBytes ∧ parse D I body = .ok (.object members) ∧
      ∃ n, walk boundedWalk 0 0 (.object members : Json F) = .ok n

theorem classify_fst (valid : validate D I expectation = .ok exp) {o : Outcome} (positive : o ≠ .inconclusive) :
    (classify D I lower status body expectation authType purpose contentType contentEncoding).1 = o ↔
      ∃ members, Reads D I lower contentType contentEncoding body members ∧
        (interpretValue exp (.object members) status authType purpose).1 = o := by
  unfold classify
  rw [fst_skip positive.symm, fst_skip positive.symm, not_not, Nat.not_lt]
  have read (v : Json F) : readBody D I expectation body = some (exp, v) ↔
      parse D I body = .ok v ∧ ∃ n, walk boundedWalk 0 0 v = .ok n := by
    unfold readBody
    rw [valid]
    cases parse D I body with
    | error halt => exact iff_of_false (fun same => nomatch same) fun both => nomatch both.1
    | ok w =>
        show ((walk boundedWalk 0 0 w).toOption.bind fun _ => some (exp, w)) = some (exp, v) ↔ _
        cases walked : walk boundedWalk 0 0 w with
        | error e =>
            refine iff_of_false (fun same => nomatch same) fun ⟨same, n, walked'⟩ => ?_
            rw [← Except.ok.inj same, walked] at walked'
            cases walked'
        | ok n =>
            refine ⟨fun same => ?_, fun ⟨same, _⟩ => ?_⟩
            · obtain rfl : w = v := congrArg Prod.snd (Option.some.inj same)
              exact ⟨rfl, n, walked⟩
            · rw [Except.ok.inj same]
              rfl
  constructor
  · rintro ⟨size, represented, outcome⟩
    cases found : readBody D I expectation body with
    | none =>
        rw [found] at outcome
        exact absurd outcome.symm positive
    | some result =>
        obtain ⟨exp', value⟩ := result
        obtain rfl : exp' = exp := by
          unfold readBody at found
          rw [valid] at found
          obtain ⟨exp'', same, found⟩ := Option.bind_eq_some_iff.1 found
          obtain ⟨w, -, found⟩ := Option.bind_eq_some_iff.1 found
          obtain ⟨_, -, found⟩ := Option.bind_eq_some_iff.1 found
          exact (congrArg Prod.fst (Option.some.inj found)).symm.trans (Option.some.inj same).symm
        rw [found] at outcome
        obtain ⟨parsed, walked⟩ := (read value).1 found
        cases value with
        | object members => exact ⟨members, ⟨represented, size, parsed, walked⟩, outcome⟩
        | _ => exact absurd outcome.symm positive
  · rintro ⟨members, ⟨represented, size, parsed, walked⟩, outcome⟩
    refine ⟨size, represented, ?_⟩
    rw [(read (.object members)).2 ⟨parsed, walked⟩]
    exact outcome

variable (body contentType contentEncoding) in
/-- Objects of strings and booleans are read exactly where the body shows them. -/
theorem shows_iff (target : List (Str × Json F)) (free : ∀ m ∈ target, NumberFree m.2) :
    (∃ members, Reads D I lower contentType contentEncoding body members ∧ members.Perm target) ↔
      Shows D lower contentType contentEncoding body target := by
  have freed {members : List (Str × Json F)} (perm : members.Perm target) : NumberFree (.object members) :=
    (Json.numbersMembers_iff _ members).2 fun m mem => free m (perm.subset mem)
  constructor
  · rintro ⟨members, ⟨represented, size, parsed, walked⟩, perm⟩
    exact ⟨represented, members, perm, (isBody_iff D I (freed perm)).1 ⟨size, parsed, walked⟩⟩
  · rintro ⟨represented, members, perm, isBody⟩
    obtain ⟨size, parsed, walked⟩ := (isBody_iff D I (freed perm)).2 isBody
    exact ⟨members, ⟨represented, size, parsed, walked⟩, perm⟩

theorem Reads.unique {members : List (Str × Json F)} (reads : Reads D I lower contentType contentEncoding body members) :
    (members.map Prod.fst).Nodup :=
  (parse_distinct D I reads.2.2.1).1

end Body

/-! ## The outcomes -/

section Outcomes

variable {exp : Expectation} {expectation : Given F} {authType : Str}

omit D I lower in
theorem identity_free (exp : Expectation) (marker : Str) (extra : List (Str × Json F))
    (free : ∀ m ∈ extra, NumberFree m.2) :
    ∀ m ∈ objectField exp :: (extra ++ identityFields exp marker), NumberFree m.2 := by
  intro m mem
  rcases List.mem_cons.1 mem with rfl | mem
  · trivial
  rcases List.mem_append.1 mem with mem | mem
  · exact free m mem
  · simp only [identityFields, List.mem_cons, List.not_mem_nil, or_false] at mem
    rcases mem with rfl | rfl <;> trivial

omit D I lower in
theorem denial_free : ∀ m ∈ [denialField (F := F)], NumberFree m.2 := by
  intro m mem
  obtain rfl := List.mem_singleton.1 mem
  trivial

omit D I lower in
theorem purpose_cases {purpose : Str} : purpose ∈ [business, health] ∧ purpose ≠ health ↔ purpose = business := by
  have apart : business ≠ health := by decide
  simp only [List.mem_cons, List.not_mem_nil, or_false]
  constructor
  · rintro ⟨business_ | health_, other⟩
    · exact business_
    · exact absurd health_ other
  · rintro rfl
    exact ⟨.inl rfl, apart⟩

variable (valid : validate D I expectation = .ok exp) (actor : authType ∈ [anonymous, bearer])
  (qualified : authType = bearer ↔ exp.identityValue.isSome = true) (status : Option Int) (body : Bytes)
  (purpose : Str) (contentType contentEncoding : Option Str)

include valid

/-- A positive outcome is one of the object. -/
theorem interpret_outcome {o : Outcome} (positive : o ≠ .inconclusive) :
    (interpret D I lower status (some body) expectation authType purpose contentType contentEncoding).outcome = o ↔
      purpose ∈ [business, health] ∧ ∃ members, Reads D I lower contentType contentEncoding body members ∧
        (interpretValue exp (.object members) status authType purpose).1 = o := by
  rw [← classify_fst D I lower valid positive]
  unfold interpret
  dsimp only
  by_cases known : purpose ∈ [business, health]
  · rw [if_neg (not_not.2 known), and_iff_right known]
  · rw [if_pos known]
    exact iff_of_false positive.symm fun both => known both.1

include actor qualified

theorem interpret_healthy :
    (interpret D I lower status (some body) expectation authType purpose contentType contentEncoding).outcome =
        .healthy ↔
      purpose = health ∧ authType = bearer ∧ status = some 200 ∧
        ∃ marker ∈ exp.identityValue, Shows D lower contentType contentEncoding body
          (objectField exp :: identityFields exp marker) := by
  have whole (marker : Str) := shows_iff D I lower body contentType contentEncoding
    (objectField exp :: identityFields exp marker) (identity_free exp marker [] fun m mem => by cases mem)
  rw [interpret_outcome D I lower valid (o := .healthy) _ _ _ _ _ (fun same => by cases same)]
  constructor
  · rintro ⟨-, members, reads, outcome⟩
    obtain ⟨purpose_, bearer_, status_, marker, given, perm⟩ :=
      (interpretValue_healthy (Reads.unique D I lower reads) actor qualified).1 outcome
    exact ⟨purpose_, bearer_, status_, marker, given, (whole marker).1 ⟨members, reads, perm⟩⟩
  · rintro ⟨rfl, bearer_, status_, marker, given, shown⟩
    obtain ⟨members, reads, perm⟩ := (whole marker).2 shown
    exact ⟨List.mem_cons_of_mem _ List.mem_cons_self, members, reads,
      (interpretValue_healthy (Reads.unique D I lower reads) actor qualified).2
        ⟨rfl, bearer_, status_, marker, given, perm⟩⟩

theorem interpret_objectRead :
    (interpret D I lower status (some body) expectation authType purpose contentType contentEncoding).outcome =
        .objectRead ↔
      purpose = business ∧ status = some 200 ∧
        (Shows D lower contentType contentEncoding body [objectField exp] ∨
          authType = bearer ∧ ∃ marker ∈ exp.identityValue,
            Shows D lower contentType contentEncoding body (objectField exp :: identityFields exp marker)) := by
  have whole (marker : Str) := shows_iff D I lower body contentType contentEncoding
    (objectField exp :: identityFields exp marker) (identity_free exp marker [] fun m mem => by cases mem)
  have alone := shows_iff D I lower body contentType contentEncoding [objectField exp] (List.forall_mem_cons.2 ⟨trivial, fun m mem => by cases mem⟩)
  rw [interpret_outcome D I lower valid (o := .objectRead) _ _ _ _ _ (fun same => by cases same)]
  constructor
  · rintro ⟨known, members, reads, outcome⟩
    obtain ⟨other, status_, shown⟩ :=
      (interpretValue_objectRead (Reads.unique D I lower reads) actor qualified).1 outcome
    refine ⟨purpose_cases.1 ⟨known, other⟩, status_, ?_⟩
    rcases shown with perm | ⟨bearer_, marker, given, perm⟩
    · exact .inl (alone.1 ⟨members, reads, perm⟩)
    · exact .inr ⟨bearer_, marker, given, (whole marker).1 ⟨members, reads, perm⟩⟩
  · rintro ⟨purpose_, status_, shown⟩
    obtain ⟨known, other⟩ := purpose_cases.2 purpose_
    rcases shown with shown | ⟨bearer_, marker, given, shown⟩
    · obtain ⟨members, reads, perm⟩ := alone.2 shown
      exact ⟨known, members, reads, (interpretValue_objectRead (Reads.unique D I lower reads) actor qualified).2
        ⟨other, status_, .inl perm⟩⟩
    · obtain ⟨members, reads, perm⟩ := (whole marker).2 shown
      exact ⟨known, members, reads, (interpretValue_objectRead (Reads.unique D I lower reads) actor qualified).2
        ⟨other, status_, .inr ⟨bearer_, marker, given, perm⟩⟩⟩

theorem interpret_businessDenied :
    (interpret D I lower status (some body) expectation authType purpose contentType contentEncoding).outcome =
        .businessDenied ↔
      purpose = business ∧ status = some 403 ∧
        (authType = anonymous ∧
            Shows D lower contentType contentEncoding body [objectField exp, denialField] ∨
          authType = bearer ∧ ∃ marker ∈ exp.identityValue,
            Shows D lower contentType contentEncoding body
              (objectField exp :: denialField :: identityFields exp marker)) := by
  have whole (marker : Str) := shows_iff D I lower body contentType contentEncoding
    (objectField exp :: denialField :: identityFields exp marker) (identity_free exp marker [denialField] denial_free)
  have alone := shows_iff D I lower body contentType contentEncoding [objectField exp, denialField]
    (List.forall_mem_cons.2 ⟨trivial, denial_free⟩)
  rw [interpret_outcome D I lower valid (o := .businessDenied) _ _ _ _ _ (fun same => nomatch same)]
  constructor
  · rintro ⟨known, members, reads, outcome⟩
    obtain ⟨other, status_, shown⟩ :=
      (interpretValue_businessDenied (Reads.unique D I lower reads) actor qualified).1 outcome
    refine ⟨purpose_cases.1 ⟨known, other⟩, status_, ?_⟩
    rcases shown with ⟨anonymous_, perm⟩ | ⟨bearer_, marker, given, perm⟩
    · exact .inl ⟨anonymous_, alone.1 ⟨members, reads, perm⟩⟩
    · exact .inr ⟨bearer_, marker, given, (whole marker).1 ⟨members, reads, perm⟩⟩
  · rintro ⟨purpose_, status_, shown⟩
    obtain ⟨known, other⟩ := purpose_cases.2 purpose_
    rcases shown with ⟨anonymous_, shown⟩ | ⟨bearer_, marker, given, shown⟩
    · obtain ⟨members, reads, perm⟩ := alone.2 shown
      exact ⟨known, members, reads, (interpretValue_businessDenied (Reads.unique D I lower reads) actor qualified).2
        ⟨other, status_, .inl ⟨anonymous_, perm⟩⟩⟩
    · obtain ⟨members, reads, perm⟩ := (whole marker).2 shown
      exact ⟨known, members, reads, (interpretValue_businessDenied (Reads.unique D I lower reads) actor qualified).2
        ⟨other, status_, .inr ⟨bearer_, marker, given, perm⟩⟩⟩

omit valid actor qualified in
/-- Of a body there is nothing else in the result than its outcome, its reason, its length and its
digest. -/
theorem interpret_minimized (body' : Bytes)
    (outcome : (interpret D I lower status (some body') expectation authType purpose contentType contentEncoding).outcome =
      (interpret D I lower status (some body) expectation authType purpose contentType contentEncoding).outcome)
    (reason : (interpret D I lower status (some body') expectation authType purpose contentType contentEncoding).reason =
      (interpret D I lower status (some body) expectation authType purpose contentType contentEncoding).reason)
    (length : body'.length = body.length) (sha256 : I.sha256 body' = I.sha256 body) :
    interpret D I lower status (some body') expectation authType purpose contentType contentEncoding =
      interpret D I lower status (some body) expectation authType purpose contentType contentEncoding := by
  unfold interpret at outcome reason ⊢
  dsimp only at outcome reason ⊢
  by_cases known : purpose ∈ [business, health]
  · rw [if_neg (not_not.2 known), if_neg (not_not.2 known)] at outcome reason ⊢
    rw [length, sha256]
    exact congrArg₂ (fun o r => (⟨definitionDigest D I, o, r, some (I.sha256 body), body.length⟩ : Result))
      outcome reason
  · rw [if_pos known, if_pos known]

/-- **Positive outcomes have exactly their language.**  Everything else is inconclusive. -/
theorem response_outcomes :
    ((interpret D I lower status (some body) expectation authType purpose contentType contentEncoding).outcome =
        .healthy ↔
      purpose = health ∧ authType = bearer ∧ status = some 200 ∧
        ∃ marker ∈ exp.identityValue, Shows D lower contentType contentEncoding body
          (objectField exp :: identityFields exp marker)) ∧
    ((interpret D I lower status (some body) expectation authType purpose contentType contentEncoding).outcome =
        .objectRead ↔
      purpose = business ∧ status = some 200 ∧
        (Shows D lower contentType contentEncoding body [objectField exp] ∨
          authType = bearer ∧ ∃ marker ∈ exp.identityValue,
            Shows D lower contentType contentEncoding body (objectField exp :: identityFields exp marker))) ∧
    ((interpret D I lower status (some body) expectation authType purpose contentType contentEncoding).outcome =
        .businessDenied ↔
      purpose = business ∧ status = some 403 ∧
        (authType = anonymous ∧
            Shows D lower contentType contentEncoding body [objectField exp, denialField] ∨
          authType = bearer ∧ ∃ marker ∈ exp.identityValue,
            Shows D lower contentType contentEncoding body
              (objectField exp :: denialField :: identityFields exp marker))) ∧
    ∀ body',
      let result := interpret D I lower status (some body) expectation authType purpose contentType contentEncoding
      let result' := interpret D I lower status (some body') expectation authType purpose contentType contentEncoding
      result'.outcome = result.outcome → result'.reason = result.reason → body'.length = body.length →
        I.sha256 body' = I.sha256 body → result' = result :=
  ⟨interpret_healthy D I lower valid actor qualified status body purpose contentType contentEncoding,
    interpret_objectRead D I lower valid actor qualified status body purpose contentType contentEncoding,
    interpret_businessDenied D I lower valid actor qualified status body purpose contentType contentEncoding,
    interpret_minimized D I lower status body purpose contentType contentEncoding⟩

end Outcomes

end

/-! ## A health check -/

private def usualInterpreter : Interpreter := ⟨4300, 1000, by decide, fun _ => []⟩

private def orderOwner : Expectation where
  role := .healthBaseline
  objectKey := "order".toList
  objectValue := "17".toList
  identityKey := "owner".toList
  identityValue := some "alice-1".toList
  objectKey_key := by decide
  objectValue_value := by decide
  identityKey_key := by decide
  identityValue_marker _ mem := by obtain rfl := Option.some.inj mem; decide
  selectors := by decide

private def ownerMembers : List (Str × Json Unit) :=
  [(authenticated, .bool true), ("order".toList, .string "17".toList), ("owner".toList, .string "alice-1".toList)]

private theorem ownerMembers_shown : Shows halfFloats id (some "application/json".toList) none
    (Proposals.canonical halfFloats (.object ownerMembers))
    (objectField orderOwner :: identityFields orderOwner "alice-1".toList) := by
  refine ⟨⟨⟨_, rfl, by decide⟩, List.mem_cons_self⟩, ownerMembers, ?_, ?_⟩
  · exact (List.perm_append_singleton (authenticated, Json.bool true)
      [objectField orderOwner, ("owner".toList, .string "alice-1".toList)]).symm
  · refine ⟨by decide +kernel, ⟨_, rfl, [], _, [], (List.append_nil _).symm, .nil, .nil,
      render_text halfFloats (.object ownerMembers) ⟨trivial, trivial, trivial, trivial⟩⟩,
      ⟨by decide, trivial, trivial, trivial, trivial⟩, ⟨trivial, trivial, trivial, trivial⟩, by decide, by decide⟩

/-- `{"authenticated":true,"order":"17","owner":"alice-1"}`, of a bearer, is healthy. -/
theorem response_outcomes_owner :
    (interpret halfFloats usualInterpreter id (some 200)
      (some (Proposals.canonical halfFloats (.object ownerMembers))) (.record orderOwner) bearer health
      (some "application/json".toList) none).outcome = .healthy :=
  (response_outcomes halfFloats usualInterpreter id (validate_record halfFloats usualInterpreter orderOwner)
    (by decide) (by decide) (some 200) (Proposals.canonical halfFloats (.object ownerMembers)) health
    (some "application/json".toList) none).1.2 ⟨rfl, rfl, rfl, _, rfl, ownerMembers_shown⟩

end ApiSecurityPlatform.Research.ResponseSemantics
