/-
# Findings.Classification -- what the analyzer decides, and when it decides at all

`analyze_bola_run` over the bodies as they are stored.  The search goes depth first and
stops at the first field that names the resource: that is the first of `fields`, the members
of a decoded body in document order (`matchingKey_ok`).  The evidence of a potential BOLA is
that of its two runs (`analyzeBolaRun_potential`).

Only a syntax error is caught.  A body whose reading, searching or comparing needs more of
the interpreter than there is left makes the analysis raise (`Takes`), and only such a body
does.
-/
import ApiSecurityPlatform.Ai.Redaction
import ApiSecurityPlatform.Findings.Bola

namespace ApiSecurityPlatform.Findings.Classification

open ApiSecurityPlatform.Theory
open ApiSecurityPlatform.Python
open ApiSecurityPlatform.Ai

set_option autoImplicit false

/-! ## The interpreter -/

/-- What the analysis uses of `float` and of `str.lower`.  The parser has one object for
`NaN`, so inside containers it is equal to itself. -/
structure Builtins (F : Type) where
  read : FloatText F
  /-- `str(x)`. -/
  strFloat : F → Str
  equalFloat : F → F → Bool
  /-- `a is b or a == b`. -/
  sameFloat : F → F → Bool
  equalInt : F → Int → Bool
  lower : Codes → Codes
  sha256 : List UInt8 → Str

/-- The limits of the reader and of the stack, and the levels `==` has left. -/
structure Interpreter extends Limits where
  compare : Nat

section

variable {F : Type} (B : Builtins F) (L : Interpreter)

/-! ## Bodies -/

def isNone : Value F → Bool
  | .scalar .null => true
  | _ => false

/-- `parse_json_body`; `None` is the value of `null`. -/
def parseJsonBody : Option Str → Except Fault (Value F)
  | none => .ok (.scalar .null)
  | some body =>
      match (loads B.read L.refuses body []).1 with
      | .error .jsonDecodeError => .ok (.scalar .null)
      | .error fault => .error fault
      | .ok v => .ok v

def normalizeScalar : Value F → Option Codes
  | .scalar (.string s) => some s
  | .scalar (.int n) => some (codes (intToken n).text)
  | .scalar (.float x) => some (codes (B.strFloat x))
  | _ => none

/-- `allowed_keys`. -/
def isAllowedKey (resource : Resource) (key : Codes) : Bool :=
  B.lower key = codes "id".toList ∨ B.lower key = codes (resource.resourceType ++ "_id".toList)

def isTarget (resource : Resource) (child : Value F) : Bool :=
  normalizeScalar B child = some (codes resource.externalId)

mutual

/-- `json_matching_resource_id_key`, with so many frames left on the stack. -/
def matchingKey (resource : Resource) : Nat → Value F → Except Fault (Option Codes)
  | 0, _ => .error .recursionError
  | _ + 1, .scalar _ => .ok none
  | frames + 1, .array items => matchingItem resource frames items
  | frames + 1, .object members => matchingMember resource frames members

def matchingItem (resource : Resource) (frames : Nat) : List (Value F) → Except Fault (Option Codes)
  | [] => .ok none
  | child :: rest => do
      match ← matchingKey resource frames child with
      | some key => .ok (some key)
      | none => matchingItem resource frames rest

def matchingMember (resource : Resource) (frames : Nat) : List (Codes × Value F) → Except Fault (Option Codes)
  | [] => .ok none
  | (key, child) :: rest => do
      Theory.refuse (isAllowedKey B resource key = true ∧ frames = 0) .recursionError  -- the frame of `normalize_scalar`
      if isAllowedKey B resource key = true ∧ isTarget B resource child = true then .ok (some key)
      else
        match ← matchingKey resource frames child with
        | some key => .ok (some key)
        | none => matchingMember resource frames rest

end

/-! ## Equality -/

/-- `bool` is a subclass of `int`. -/
def asNumber : Scalar F → Option (Int ⊕ F)
  | .bool b => some (.inl (if b then 1 else 0))
  | .int n => some (.inl n)
  | .float x => some (.inr x)
  | _ => none

def equalScalar (item : Bool) (a b : Scalar F) : Bool :=
  match asNumber a, asNumber b with
  | some (.inl m), some (.inl n) => m == n
  | some (.inl m), some (.inr y) => B.equalInt y m
  | some (.inr x), some (.inl n) => B.equalInt x n
  | some (.inr x), some (.inr y) => if item then B.sameFloat x y else B.equalFloat x y
  | _, _ =>
      match a, b with
      | .null, .null => true
      | .string s, .string t => s == t
      | _, _ => false

/-- `b.get(key)` of a `dict`. -/
def getItem (members : List (Codes × Value F)) (key : Codes) : Option (Value F) :=
  (members.find? fun member => member.1 = key).map Prod.snd

mutual

/-- `a == b`, with so many levels of recursion left; `item` inside a container. -/
def compare : Nat → Bool → Value F → Value F → Except Fault Bool
  | _, item, .scalar a, .scalar b => .ok (equalScalar B item a b)
  | 0, _, .array _, .array _ => .error .recursionError
  | levels + 1, _, .array as, .array bs =>
      if as.length = bs.length then compareItems levels as bs else .ok false
  | 0, _, .object _, .object _ => .error .recursionError
  | levels + 1, _, .object as, .object bs =>
      if as.length = bs.length then compareMembers levels as bs else .ok false
  | _, _, _, _ => .ok false

def compareItems (levels : Nat) : List (Value F) → List (Value F) → Except Fault Bool
  | a :: as, b :: bs => do
      match ← compare levels true a b with
      | true => compareItems levels as bs
      | false => .ok false
  | _, _ => .ok true

def compareMembers (levels : Nat) : List (Codes × Value F) → List (Codes × Value F) → Except Fault Bool
  | (key, a) :: as, bs =>
      match getItem bs key with
      | none => .ok false
      | some b => do
          match ← compare levels true a b with
          | true => compareMembers levels as bs
          | false => .ok false
  | [], _ => .ok true

end

/-! ## Excerpts -/

def matchedResourceIdentifier : Codes := codes "[MATCHED_RESOURCE_IDENTIFIER]".toList

def matchedIdentifierField : Codes := codes "[MATCHED_RESOURCE_IDENTIFIER_FIELD]".toList

/-- `json.dumps` of an object of one string, without spaces. -/
def dumpsMember (key value : Codes) : Codes :=
  codes ['\x7b'] ++ quoted key ++ codes [':'] ++ quoted value ++ codes ['\x7d']

def redactedIdentifierExcerpt (key : Codes) : Codes :=
  let excerpt := dumpsMember key matchedResourceIdentifier
  if maxExcerptLength < excerpt.length then dumpsMember matchedIdentifierField matchedResourceIdentifier
  else excerpt

/-- `BOLARedactedExcerptEvidence`. -/
structure Excerpts where
  baselineExcerpt : Codes
  probeExcerpt : Codes
  extractorId : Str := "bola_matched_identifier_field".toList
  extractorVersion : Str := ['1']
deriving DecidableEq

/-- `BOLAAnalysisResult`; the confidence in hundredths. -/
structure Analysis where
  outcome : AnalysisOutcome
  reason : String
  confidence : Option Nat := none
  severity : Option Str := none
  evidence : Option BolaStructuredEvidence := none
  excerptEvidence : Option Excerpts := none
  fingerprintEvidence : Option BolaResponseFingerprintEvidence := none
  similarityEvidence : Option BolaResponseSimilarityEvidence := none
deriving DecidableEq

/-! ## The analyzer -/

def inconclusive (reason : String) : Analysis := { outcome := .inconclusive, reason := reason }

def potential (crossOwnerRun ownerBaselineRun : TestRun) (crossStatus baselineStatus : Int)
    (baselineKey crossKey : Codes) (same : Bool) : Analysis where
  outcome := .potentialBola
  reason := "The owner baseline succeeded, and a different authenticated identity also received a " ++
    "successful response containing the target resource identifier."
  confidence := some (if same then 99 else 95)
  severity := some "high".toList
  excerptEvidence := some
    { baselineExcerpt := redactedIdentifierExcerpt baselineKey
      probeExcerpt := redactedIdentifierExcerpt crossKey }
  evidence := some
    { probeTestRunId := crossOwnerRun.id
      baselineTestRunId := ownerBaselineRun.id
      baselineStatusCode := baselineStatus
      probeStatusCode := crossStatus
      baselineResourceIdentifierPresent := true
      probeResourceIdentifierPresent := true }

/-- The last part of `_classify_bola_run`: both requests succeeded. -/
def classifyBodies (crossOwnerRun ownerBaselineRun : TestRun) (resource : Resource)
    (crossStatus baselineStatus : Int) : Except Fault Analysis := do
  let baselineJson ← parseJsonBody B L ownerBaselineRun.responseBody
  let crossJson ← parseJsonBody B L crossOwnerRun.responseBody
  if isNone crossJson = true then
    return (inconclusive
      "Cross-owner request returned a successful status, but the body cannot be validated as JSON.")
  else do
    let baselineKey ← matchingKey B resource L.frames baselineJson
    let crossKey ← matchingKey B resource L.frames crossJson
    match baselineKey, crossKey with
    | some baselineKey, some crossKey => do
        let same ← compare B L.compare false baselineJson crossJson
        return potential crossOwnerRun ownerBaselineRun crossStatus baselineStatus baselineKey crossKey same
    | _, _ => return (inconclusive
        ("Cross-owner access returned a successful status, but the current rules cannot confirm that the " ++
          "target resource was disclosed."))

/-- `_classify_bola_run`. -/
def classifyBolaRun (testCase : TestCase) (crossOwnerRun : TestRun) (ownerBaselineRun : Option TestRun)
    (resource : Resource) : Except Fault Analysis :=
  if testCase.testType ≠ bolaCrossOwner then .ok (inconclusive "TestCase is not a cross-owner BOLA test.")
  else if truthy crossOwnerRun.errorMessage = true then
    .ok (inconclusive "Cross-owner request did not complete successfully.")
  else match crossOwnerRun.responseStatus, ownerBaselineRun with
    | none, _ => .ok (inconclusive "Cross-owner request has no HTTP response status.")
    | some _, none => .ok (inconclusive "No owner baseline run is available.")
    | some crossStatus, some baseline =>
        if truthy baseline.errorMessage = true then .ok (inconclusive "Owner baseline execution failed.")
        else match baseline.responseStatus with
          | none => .ok (inconclusive "Owner baseline has no HTTP response status.")
          | some baselineStatus =>
              if isSuccessStatus baselineStatus = false then
                .ok (inconclusive "Owner baseline did not return a successful response.")
              else if crossStatus ∈ [401, 403, 404] then
                .ok { outcome := .pass
                      reason := "Cross-owner access was rejected while the owner baseline succeeded." }
              else if isSuccessStatus crossStatus = false then
                .ok (inconclusive
                  "Cross-owner response is neither a normal success nor a standard authorization rejection.")
              else classifyBodies B L crossOwnerRun baseline resource crossStatus baselineStatus

def fingerprintResponsePair (baselineBody probeBody : Option Str) : BolaResponseFingerprintEvidence :=
  let baselineBytes := encodeUtf8 (baselineBody.getD [])
  let probeBytes := encodeUtf8 (probeBody.getD [])
  { baselineDigest := B.sha256 baselineBytes
    probeDigest := B.sha256 probeBytes
    baselineBodyBytes := baselineBytes.length
    probeBodyBytes := probeBytes.length }

def withFingerprint (result : Analysis) (fingerprint : BolaResponseFingerprintEvidence) : Analysis :=
  { result with
    fingerprintEvidence := some fingerprint
    similarityEvidence :=
      if result.outcome = .potentialBola then some (compareResponseFingerprints fingerprint) else none }

def analyzeBolaRun (testCase : TestCase) (crossOwnerRun : TestRun) (ownerBaselineRun : Option TestRun)
    (resource : Resource) : Except Fault Analysis := do
  let result ← classifyBolaRun B L testCase crossOwnerRun ownerBaselineRun resource
  match ownerBaselineRun with
  | none => return result
  | some baseline =>
      return withFingerprint result (fingerprintResponsePair B baseline.responseBody crossOwnerRun.responseBody)

/-! ## The first field -/

mutual

/-- The fields of a value at every depth, in document order. -/
def fields : Value F → List (Codes × Value F)
  | .scalar _ => []
  | .array items => fieldsItems items
  | .object members => fieldsMembers members

def fieldsItems : List (Value F) → List (Codes × Value F)
  | [] => []
  | item :: rest => fields item ++ fieldsItems rest

def fieldsMembers : List (Codes × Value F) → List (Codes × Value F)
  | [] => []
  | (key, child) :: rest => (key, child) :: (fields child ++ fieldsMembers rest)

end

/-- The field is an id of the resource. -/
def Names (resource : Resource) (field : Codes × Value F) : Bool :=
  isAllowedKey B resource field.1 && isTarget B resource field.2

def firstKey (resource : Resource) (fields : List (Codes × Value F)) : Option Codes :=
  (fields.find? (Names B resource)).map Prod.fst

theorem firstKey_append (resource : Resource) (a b : List (Codes × Value F)) :
    firstKey B resource (a ++ b) = (firstKey B resource a).or (firstKey B resource b) := by
  unfold firstKey
  rw [List.find?_append]
  cases a.find? (Names B resource) <;> rfl

mutual

/-- The frames the search takes, up to the field it stops at. -/
def searchFrames (resource : Resource) : Value F → Nat
  | .scalar _ => 1
  | .array items => searchFramesItems resource items + 1
  | .object members => searchFramesMembers resource members + 1

def searchFramesItems (resource : Resource) : List (Value F) → Nat
  | [] => 0
  | item :: rest =>
      max (searchFrames resource item)
        (if (firstKey B resource (fields item)).isSome then 0 else searchFramesItems resource rest)

def searchFramesMembers (resource : Resource) : List (Codes × Value F) → Nat
  | [] => 0
  | (key, child) :: rest =>
      if Names B resource (key, child) then 1
      else max (searchFrames resource child)
        (if (firstKey B resource (fields child)).isSome then 0 else searchFramesMembers resource rest)

end

theorem searchFrames_pos (resource : Resource) (v : Value F) : 0 < searchFrames B resource v := by
  cases v with
  | scalar s => rw [searchFrames]; exact Nat.one_pos
  | array items => rw [searchFrames]; exact Nat.succ_pos _
  | object members => rw [searchFrames]; exact Nat.succ_pos _

mutual

/-- The search gives the first field in document order, or runs out of frames. -/
theorem matchingKey_ok (resource : Resource) : ∀ (n : Nat) (v : Value F) (r : Option Codes),
    matchingKey B resource n v = .ok r ↔ searchFrames B resource v ≤ n ∧ firstKey B resource (fields v) = r
  | 0, v, r => by
      rw [matchingKey]
      exact iff_of_false (fun done => nomatch done) fun ⟨enough, _⟩ =>
        absurd (searchFrames_pos B resource v) (Nat.not_lt.2 enough)
  | n + 1, .scalar s, r => by
      rw [matchingKey, searchFrames, fields, Except.ok.injEq]
      exact (and_iff_right (Nat.succ_pos n)).symm
  | n + 1, .array items, r => by
      rw [matchingKey, searchFrames, fields, Nat.add_le_add_iff_right]
      exact matchingItem_ok resource n items r
  | n + 1, .object members, r => by
      rw [matchingKey, searchFrames, fields, Nat.add_le_add_iff_right]
      exact matchingMember_ok resource n members r

theorem matchingItem_ok (resource : Resource) : ∀ (n : Nat) (items : List (Value F)) (r : Option Codes),
    matchingItem B resource n items = .ok r ↔
      searchFramesItems B resource items ≤ n ∧ firstKey B resource (fieldsItems items) = r
  | n, [], r => by
      rw [matchingItem, searchFramesItems, fieldsItems, Except.ok.injEq]
      exact (and_iff_right (Nat.zero_le n)).symm
  | n, item :: rest, r => by
      rw [matchingItem, searchFramesItems, fieldsItems, firstKey_append, Theory.bind_ok, Nat.max_le]
      simp only [matchingKey_ok resource n item]
      cases found : firstKey B resource (fields item) with
      | some key => simp
      | none =>
          simp only [Option.isSome_none, Bool.false_eq_true, if_false, Option.none_or]
          constructor
          · rintro ⟨first, ⟨enough, rfl⟩, done⟩
            exact ⟨⟨enough, ((matchingItem_ok resource n rest r).1 done).1⟩, ((matchingItem_ok resource n rest r).1 done).2⟩
          · rintro ⟨⟨enough, more⟩, same⟩
            exact ⟨none, ⟨enough, rfl⟩, (matchingItem_ok resource n rest r).2 ⟨more, same⟩⟩

theorem matchingMember_ok (resource : Resource) : ∀ (n : Nat) (members : List (Codes × Value F)) (r : Option Codes),
    matchingMember B resource n members = .ok r ↔
      searchFramesMembers B resource members ≤ n ∧ firstKey B resource (fieldsMembers members) = r
  | n, [], r => by
      rw [matchingMember, searchFramesMembers, fieldsMembers, Except.ok.injEq]
      exact (and_iff_right (Nat.zero_le n)).symm
  | n, (key, child) :: rest, r => by
      have positive := searchFrames_pos B resource child
      rw [matchingMember, searchFramesMembers, fieldsMembers, Theory.seq_ok, Theory.refuse_ok]
      by_cases names : isAllowedKey B resource key = true ∧ isTarget B resource child = true
      · have named : Names B resource (key, child) = true := by rw [Names, names.1, names.2]; rfl
        have first : firstKey B resource ((key, child) :: (fields child ++ fieldsMembers rest)) = some key := by
          rw [firstKey, List.find?_cons_of_pos named]
          rfl
        rw [if_pos names, if_pos named, first, Except.ok.injEq]
        refine and_congr_left fun _ => ?_
        rw [not_and]
        exact ⟨fun some_ => Nat.pos_of_ne_zero (some_ names.1), fun some_ _ => Nat.pos_iff_ne_zero.1 some_⟩
      · have unnamed : ¬ Names B resource (key, child) = true := by
          rw [Names, Bool.and_eq_true]
          exact names
        have first : firstKey B resource ((key, child) :: (fields child ++ fieldsMembers rest)) =
            (firstKey B resource (fields child)).or (firstKey B resource (fieldsMembers rest)) := by
          rw [← firstKey_append, firstKey, List.find?_cons_of_neg unnamed, firstKey]
        rw [if_neg names, if_neg unnamed, first, Theory.bind_ok, Nat.max_le]
        simp only [matchingKey_ok resource n child]
        constructor
        · rintro ⟨-, found, ⟨enough, rfl⟩, done⟩
          cases here : firstKey B resource (fields child) with
          | some key' =>
              rw [here] at done
              exact ⟨⟨enough, by simp⟩, Except.ok.inj done⟩
          | none =>
              rw [here] at done
              obtain ⟨more, same⟩ := (matchingMember_ok resource n rest r).1 done
              exact ⟨⟨enough, by simpa using more⟩, same⟩
        · rintro ⟨⟨enough, more⟩, same⟩
          refine ⟨fun short => by omega, _, ⟨enough, rfl⟩, ?_⟩
          cases here : firstKey B resource (fields child) with
          | some key' =>
              rw [here] at same
              exact congrArg Except.ok same
          | none =>
              rw [here] at more same
              exact (matchingMember_ok resource n rest r).2 ⟨by simpa using more, same⟩

end

/-! ## What a comparison takes -/

mutual

def equalValue (item : Bool) : Value F → Value F → Bool
  | .scalar a, .scalar b => equalScalar B item a b
  | .array as, .array bs => if as.length = bs.length then equalItems as bs else false
  | .object as, .object bs => if as.length = bs.length then equalMembers as bs else false
  | _, _ => false

def equalItems : List (Value F) → List (Value F) → Bool
  | a :: as, b :: bs => equalValue true a b && equalItems as bs
  | _, _ => true

def equalMembers : List (Codes × Value F) → List (Codes × Value F) → Bool
  | (key, a) :: as, bs =>
      match getItem bs key with
      | none => false
      | some b => equalValue true a b && equalMembers as bs
  | [], _ => true

end

mutual

/-- The levels a comparison takes, up to the first difference. -/
def levels : Value F → Value F → Nat
  | .array as, .array bs => if as.length = bs.length then levelsItems as bs + 1 else 1
  | .object as, .object bs => if as.length = bs.length then levelsMembers as bs + 1 else 1
  | _, _ => 0

def levelsItems : List (Value F) → List (Value F) → Nat
  | a :: as, b :: bs => max (levels a b) (if equalValue B true a b then levelsItems as bs else 0)
  | _, _ => 0

def levelsMembers : List (Codes × Value F) → List (Codes × Value F) → Nat
  | (key, a) :: as, bs =>
      match getItem bs key with
      | none => 0
      | some b => max (levels a b) (if equalValue B true a b then levelsMembers as bs else 0)
  | [], _ => 0

end

mutual

/-- `==` says what it says, or runs out of levels. -/
theorem compare_ok : ∀ (n : Nat) (item : Bool) (a b : Value F) (r : Bool),
    compare B n item a b = .ok r ↔ levels B a b ≤ n ∧ equalValue B item a b = r
  | n, item, .scalar a, b, r => by
      cases b <;> simp [compare, levels, equalValue]
  | 0, item, .array as, b, r => by
      cases b with
      | array bs =>
          rw [compare, levels]
          exact iff_of_false (fun done => nomatch done) fun ⟨enough, _⟩ => by split at enough <;> omega
      | _ => simp [compare, levels, equalValue]
  | n + 1, item, .array as, b, r => by
      cases b with
      | array bs =>
          rw [compare, levels, equalValue]
          by_cases same : as.length = bs.length
          · rw [if_pos same, if_pos same, if_pos same, Nat.add_le_add_iff_right]
            exact compareItems_ok n as bs r
          · rw [if_neg same, if_neg same, if_neg same, Except.ok.injEq]
            exact (and_iff_right (Nat.succ_pos n)).symm
      | _ => simp [compare, levels, equalValue]
  | 0, item, .object as, b, r => by
      cases b with
      | object bs =>
          rw [compare, levels]
          exact iff_of_false (fun done => nomatch done) fun ⟨enough, _⟩ => by split at enough <;> omega
      | _ => simp [compare, levels, equalValue]
  | n + 1, item, .object as, b, r => by
      cases b with
      | object bs =>
          rw [compare, levels, equalValue]
          by_cases same : as.length = bs.length
          · rw [if_pos same, if_pos same, if_pos same, Nat.add_le_add_iff_right]
            exact compareMembers_ok n as bs r
          · rw [if_neg same, if_neg same, if_neg same, Except.ok.injEq]
            exact (and_iff_right (Nat.succ_pos n)).symm
      | _ => simp [compare, levels, equalValue]

theorem compareItems_ok : ∀ (n : Nat) (as bs : List (Value F)) (r : Bool),
    compareItems B n as bs = .ok r ↔ levelsItems B as bs ≤ n ∧ equalItems B as bs = r
  | n, [], bs, r => by simp [compareItems, levelsItems, equalItems]
  | n, a :: as, bs, r => by
      cases bs with
      | nil => simp [compareItems, levelsItems, equalItems]
      | cons b bs =>
          rw [compareItems, levelsItems, equalItems, Theory.bind_ok, Nat.max_le]
          simp only [compare_ok n true a b]
          cases same : equalValue B true a b with
          | true => simp [compareItems_ok n as bs r, and_assoc]
          | false => simp

theorem compareMembers_ok : ∀ (n : Nat) (as bs : List (Codes × Value F)) (r : Bool),
    compareMembers B n as bs = .ok r ↔ levelsMembers B as bs ≤ n ∧ equalMembers B as bs = r
  | n, [], bs, r => by simp [compareMembers, levelsMembers, equalMembers]
  | n, (key, a) :: as, bs, r => by
      rw [compareMembers, levelsMembers, equalMembers]
      cases getItem bs key with
      | none => simp
      | some b =>
          dsimp only
          rw [Theory.bind_ok, Nat.max_le]
          simp only [compare_ok n true a b]
          cases same : equalValue B true a b with
          | true => simp [compareMembers_ok n as bs r, and_assoc]
          | false => simp

end

/-! ## Reading -/

variable (L : Interpreter)

/-- The value of a body: what it is read as without limits, or `None`. -/
def decoded : Option Str → Value F
  | none => .scalar .null
  | some body =>
      match (loads B.read Marks.free body []).1 with
      | .error _ => .scalar .null
      | .ok v => v

/-- Every integer and every open container that the scanner comes to is within the limits. -/
def Readable (body : Option Str) : Prop :=
  ∀ text, body = some text → ∀ m ∈ (loads B.read Marks.free text []).2, L.Allows m

theorem parseJsonBody_ok (body : Option Str) (v : Value F) :
    parseJsonBody B L body = .ok v ↔ Readable B L body ∧ decoded B body = v := by
  cases body with
  | none =>
      rw [parseJsonBody, decoded, Except.ok.injEq]
      exact (and_iff_right fun text same => nomatch same).symm
  | some body =>
      obtain ⟨new, marks, verdict⟩ := loads_stops B.read L.refuses body []
      rw [List.nil_append] at marks
      have readable : Readable B L (some body) ↔ new.findSome? L.refuses = none := by
        rw [List.findSome?_eq_none_iff]
        constructor
        · intro all m mem
          exact (refuses_none _).2 (all body rfl m (marks ▸ mem))
        · intro all text same m mem
          obtain rfl := Option.some.inj same
          exact (refuses_none _).1 (all m (marks ▸ mem))
      rw [readable]
      cases refused : new.findSome? L.refuses with
      | some fault =>
          rw [refused] at verdict
          obtain ⟨m, -, beyond⟩ := List.exists_of_findSome?_eq_some refused
          refine iff_of_false (fun done => ?_) fun both => nomatch both.1
          have other := refuses_limit _ beyond
          rw [parseJsonBody, verdict] at done
          cases fault with
          | jsonDecodeError => exact other rfl
          | _ => nomatch done
      | none =>
          rw [refused] at verdict
          have ends := loads_settled B.read Marks.free body []
          rw [parseJsonBody, verdict, decoded, and_iff_right rfl]
          cases result : (loads B.read Marks.free body []).1 with
          | ok w => rw [Except.ok.injEq]
          | error fault =>
              rw [result] at ends
              obtain rfl | ⟨m, limited⟩ : Known Marks.free fault := ends
              · rw [Except.ok.injEq]
              · nomatch limited

/-! ## When the bodies are classified -/

/-- The interpreter can take the bodies of two successful runs: both are read; and if the
probe's is some JSON, both are searched and, with an id in each, compared. -/
structure Takes (crossOwnerRun ownerBaselineRun : TestRun) (resource : Resource) : Prop where
  baseline : Readable B L ownerBaselineRun.responseBody
  probe : Readable B L crossOwnerRun.responseBody
  search : isNone (decoded B crossOwnerRun.responseBody) = false →
    searchFrames B resource (decoded B ownerBaselineRun.responseBody) ≤ L.frames ∧
      searchFrames B resource (decoded B crossOwnerRun.responseBody) ≤ L.frames
  compare : isNone (decoded B crossOwnerRun.responseBody) = false →
    (firstKey B resource (fields (decoded B ownerBaselineRun.responseBody))).isSome →
    (firstKey B resource (fields (decoded B crossOwnerRun.responseBody))).isSome →
    levels B (decoded B ownerBaselineRun.responseBody) (decoded B crossOwnerRun.responseBody) ≤ L.compare

section Bodies

variable {crossOwnerRun ownerBaselineRun : TestRun} {resource : Resource} {crossStatus baselineStatus : Int}

variable (crossStatus baselineStatus) in
theorem classifyBodies_ok : (∃ result,
      classifyBodies B L crossOwnerRun ownerBaselineRun resource crossStatus baselineStatus = .ok result) ↔
    Takes B L crossOwnerRun ownerBaselineRun resource := by
  constructor
  · rintro ⟨result, done⟩
    unfold classifyBodies at done
    simp only [Theory.bind_ok, parseJsonBody_ok] at done
    obtain ⟨_, ⟨baseline, rfl⟩, _, ⟨probe, rfl⟩, done⟩ := done
    cases nothing : isNone (decoded B crossOwnerRun.responseBody) with
    | true =>
        have never : ¬ isNone (decoded B crossOwnerRun.responseBody) = false := by
          rw [nothing]
          exact fun same => by cases same
        exact ⟨baseline, probe, fun some_ => absurd some_ never, fun some_ => absurd some_ never⟩
    | false =>
        rw [nothing, if_neg Bool.false_ne_true] at done
        simp only [Theory.bind_ok, matchingKey_ok] at done
        obtain ⟨_, ⟨first, rfl⟩, _, ⟨second, rfl⟩, done⟩ := done
        refine ⟨baseline, probe, fun _ => ⟨first, second⟩, fun _ some_ some_' => ?_⟩
        obtain ⟨key, found⟩ := Option.isSome_iff_exists.1 some_
        obtain ⟨key', found'⟩ := Option.isSome_iff_exists.1 some_'
        rw [found, found'] at done
        obtain ⟨_, compared, -⟩ := Theory.bind_ok.1 done
        exact ((compare_ok B _ _ _ _ _).1 compared).1
  · rintro ⟨baseline, probe, search, compare⟩
    unfold classifyBodies
    rw [(parseJsonBody_ok B L _ _).2 ⟨baseline, rfl⟩, (parseJsonBody_ok B L _ _).2 ⟨probe, rfl⟩]
    simp only [bind, Except.bind]
    cases nothing : isNone (decoded B crossOwnerRun.responseBody) with
    | true => exact ⟨_, rfl⟩
    | false =>
        obtain ⟨first, second⟩ := search nothing
        rw [if_neg Bool.false_ne_true, (matchingKey_ok B resource _ _ _).2 ⟨first, rfl⟩,
          (matchingKey_ok B resource _ _ _).2 ⟨second, rfl⟩]
        dsimp only
        cases found : firstKey B resource (fields (decoded B ownerBaselineRun.responseBody)) with
        | none => exact ⟨_, rfl⟩
        | some key =>
            cases found' : firstKey B resource (fields (decoded B crossOwnerRun.responseBody)) with
            | none => exact ⟨_, rfl⟩
            | some key' =>
                dsimp only
                rw [(compare_ok B _ _ _ _ _).2 ⟨compare nothing (by rw [found]; rfl) (by rw [found']; rfl), rfl⟩]
                exact ⟨_, rfl⟩

/-- The excerpts of a result that reports two keys, and of one that reports none. -/
def Reported (result : Analysis) : Option (Codes × Codes) → Prop
  | some (baselineKey, crossKey) => result.outcome = .potentialBola ∧ result.excerptEvidence = some
      { baselineExcerpt := redactedIdentifierExcerpt baselineKey
        probeExcerpt := redactedIdentifierExcerpt crossKey }
  | none => result.outcome ≠ .potentialBola ∧ result.excerptEvidence = none

/-- The keys a result reports: the first field of each body. -/
def reportedKeys (baseline probe : Value F) : Option (Codes × Codes) :=
  match firstKey B resource (fields baseline), firstKey B resource (fields probe) with
  | some baselineKey, some crossKey => some (baselineKey, crossKey)
  | _, _ => none

theorem fields_of_isNone {v : Value F} (nothing : isNone v = true) : fields v = [] := by
  cases v with
  | scalar s => rfl
  | array items => cases nothing
  | object members => cases nothing

theorem classifyBodies_reported {result : Analysis}
    (done : classifyBodies B L crossOwnerRun ownerBaselineRun resource crossStatus baselineStatus = .ok result) :
    Reported result (@reportedKeys F B resource (decoded B ownerBaselineRun.responseBody)
      (decoded B crossOwnerRun.responseBody)) := by
  unfold classifyBodies at done
  simp only [Theory.bind_ok, parseJsonBody_ok] at done
  obtain ⟨_, ⟨-, rfl⟩, _, ⟨-, rfl⟩, done⟩ := done
  unfold reportedKeys
  cases nothing : isNone (decoded B crossOwnerRun.responseBody) with
  | true =>
      rw [nothing, if_pos rfl] at done
      obtain rfl := Except.ok.inj done
      have absent : firstKey B resource (fields (decoded B crossOwnerRun.responseBody)) = none := by
        rw [fields_of_isNone nothing]
        rfl
      rw [absent]
      cases firstKey B resource (fields (decoded B ownerBaselineRun.responseBody)) <;>
        exact ⟨(fun same => by cases same), rfl⟩
  | false =>
      rw [nothing, if_neg Bool.false_ne_true] at done
      simp only [Theory.bind_ok, matchingKey_ok] at done
      obtain ⟨_, ⟨-, rfl⟩, _, ⟨-, rfl⟩, done⟩ := done
      cases found : firstKey B resource (fields (decoded B ownerBaselineRun.responseBody)) with
      | none =>
          rw [found] at done
          obtain rfl := Except.ok.inj done
          exact ⟨(fun same => by cases same), rfl⟩
      | some key =>
          cases found' : firstKey B resource (fields (decoded B crossOwnerRun.responseBody)) with
          | none =>
              rw [found, found'] at done
              obtain rfl := Except.ok.inj done
              exact ⟨(fun same => by cases same), rfl⟩
          | some key' =>
              rw [found, found'] at done
              obtain ⟨same, -, done⟩ := Theory.bind_ok.1 done
              obtain rfl := Except.ok.inj done
              exact ⟨rfl, rfl⟩

theorem classifyBodies_evidence {result : Analysis}
    (done : classifyBodies B L crossOwnerRun ownerBaselineRun resource crossStatus baselineStatus = .ok result)
    (judged : result.outcome = .potentialBola) :
    ∃ evidence, result.evidence = some evidence ∧
      evidence.probeTestRunId = crossOwnerRun.id ∧ evidence.baselineTestRunId = ownerBaselineRun.id := by
  unfold classifyBodies at done
  simp only [Theory.bind_ok] at done
  obtain ⟨_, -, crossJson, -, done⟩ := done
  split at done
  · obtain rfl := Except.ok.inj done
    cases judged
  simp only [Theory.bind_ok] at done
  obtain ⟨_, -, _, -, done⟩ := done
  split at done
  · obtain ⟨same, -, done⟩ := Theory.bind_ok.1 done
    obtain rfl := Except.ok.inj done
    exact ⟨_, rfl, rfl, rfl⟩
  · obtain rfl := Except.ok.inj done
    cases judged

end Bodies

/-! ## The analysis -/

/-- The run has no error, and a status in 200..299. -/
def Succeeded (run : TestRun) : Prop :=
  truthy run.errorMessage = false ∧ ∃ status, run.responseStatus = some status ∧ isSuccessStatus status = true

/-- The bodies decide: a cross-owner test whose two runs succeeded. -/
def Reaches (testCase : TestCase) (crossOwnerRun : TestRun) (ownerBaselineRun : Option TestRun) (baseline : TestRun) :
    Prop :=
  testCase.testType = bolaCrossOwner ∧ Succeeded crossOwnerRun ∧ ownerBaselineRun = some baseline ∧ Succeeded baseline

section Analysis

variable {testCase : TestCase} {crossOwnerRun baseline : TestRun} {ownerBaselineRun : Option TestRun}
  {resource : Resource}

theorem not_rejected {status : Int} (success : isSuccessStatus status = true) : status ∉ [401, 403, 404] := by
  intro mem
  simp only [List.mem_cons, List.not_mem_nil, or_false] at mem
  rcases mem with rfl | rfl | rfl <;> exact absurd success (by decide)

variable (resource) in
theorem classifyBolaRun_reaches (reaches : Reaches testCase crossOwnerRun ownerBaselineRun baseline) :
    ∃ crossStatus baselineStatus, classifyBolaRun B L testCase crossOwnerRun ownerBaselineRun resource =
      classifyBodies B L crossOwnerRun baseline resource crossStatus baselineStatus := by
  obtain ⟨type, ⟨clean, crossStatus, cross, success⟩, rfl, clean', baselineStatus, base, success'⟩ := reaches
  refine ⟨crossStatus, baselineStatus, ?_⟩
  unfold classifyBolaRun
  rw [if_neg (not_not.2 type), clean, if_neg Bool.false_ne_true, cross]
  dsimp only
  rw [clean', if_neg Bool.false_ne_true, base]
  dsimp only
  rw [success', if_neg Bool.true_eq_false.mp, if_neg (not_rejected success), success, if_neg Bool.true_eq_false.mp]

variable (resource) in
theorem classifyBolaRun_other (other : ∀ baseline, ¬ Reaches testCase crossOwnerRun ownerBaselineRun baseline) :
    ∃ result, classifyBolaRun B L testCase crossOwnerRun ownerBaselineRun resource = .ok result ∧
      result.outcome ≠ .potentialBola ∧ result.excerptEvidence = none := by
  unfold classifyBolaRun
  split
  · exact ⟨_, rfl, (fun same => nomatch same), rfl⟩
  next type =>
  split
  · exact ⟨_, rfl, (fun same => nomatch same), rfl⟩
  next clean =>
  split
  · exact ⟨_, rfl, (fun same => nomatch same), rfl⟩
  · exact ⟨_, rfl, (fun same => nomatch same), rfl⟩
  next crossStatus baseline cross =>
  split
  · exact ⟨_, rfl, (fun same => nomatch same), rfl⟩
  next clean' =>
  split
  · exact ⟨_, rfl, (fun same => nomatch same), rfl⟩
  next baselineStatus base =>
  split
  · exact ⟨_, rfl, (fun same => nomatch same), rfl⟩
  next success' =>
  split
  · exact ⟨_, rfl, (fun same => nomatch same), rfl⟩
  split
  · exact ⟨_, rfl, (fun same => nomatch same), rfl⟩
  next success =>
  refine absurd ⟨not_not.1 type, ⟨Bool.not_eq_true _ ▸ clean, crossStatus, cross, ?_⟩, rfl,
    Bool.not_eq_true _ ▸ clean', baselineStatus, base, ?_⟩ (other baseline)
  · simpa using success
  · simpa using success'

theorem classified_of_analyzed {result : Analysis}
    (done : analyzeBolaRun B L testCase crossOwnerRun ownerBaselineRun resource = .ok result) :
    ∃ classified, classifyBolaRun B L testCase crossOwnerRun ownerBaselineRun resource = .ok classified :=
  let ⟨classified, inner, _⟩ := Theory.bind_ok.1 done
  ⟨classified, inner⟩

/-- An analysis reports what its classification does. -/
theorem analyzed_of_classified {classified : Analysis} (keys : Option (Codes × Codes))
    (done : classifyBolaRun B L testCase crossOwnerRun ownerBaselineRun resource = .ok classified)
    (reported : Reported classified keys) :
    ∃ result, analyzeBolaRun B L testCase crossOwnerRun ownerBaselineRun resource = .ok result ∧
      Reported result keys := by
  unfold analyzeBolaRun
  rw [done]
  cases ownerBaselineRun with
  | none => exact ⟨classified, rfl, reported⟩
  | some baseline =>
      refine ⟨_, rfl, ?_⟩
      cases keys with
      | none => exact reported
      | some keys => exact reported

/-- **The evidence of a potential BOLA is that of its two runs.** -/
theorem analyzeBolaRun_potential {result : Analysis}
    (done : analyzeBolaRun B L testCase crossOwnerRun (some baseline) resource = .ok result)
    (judged : result.outcome = .potentialBola) :
    ∃ evidence, result.evidence = some evidence ∧
      result.fingerprintEvidence =
        some (fingerprintResponsePair B baseline.responseBody crossOwnerRun.responseBody) ∧
      result.similarityEvidence = some (compareResponseFingerprints
        (fingerprintResponsePair B baseline.responseBody crossOwnerRun.responseBody)) ∧
      evidence.probeTestRunId = crossOwnerRun.id ∧ evidence.baselineTestRunId = baseline.id := by
  obtain ⟨classified, inner, done⟩ := Theory.bind_ok.1 done
  obtain rfl := Except.ok.inj done
  have judged : classified.outcome = .potentialBola := judged
  by_cases reaches : Reaches testCase crossOwnerRun (some baseline) baseline
  · obtain ⟨crossStatus, baselineStatus, bodies⟩ := classifyBolaRun_reaches B L resource reaches
    obtain ⟨evidence, carried, probe, owner⟩ := classifyBodies_evidence B L (bodies.symm.trans inner) judged
    exact ⟨evidence, carried, rfl, if_pos judged, probe, owner⟩
  · have never : ∀ other, ¬ Reaches testCase crossOwnerRun (some baseline) other := by
      rintro other ⟨type, cross, same, clean⟩
      obtain rfl := Option.some.inj same
      exact reaches ⟨type, cross, rfl, clean⟩
    obtain ⟨other, inner', unjudged, -⟩ := classifyBolaRun_other B L resource never
    obtain rfl := Except.ok.inj (inner'.symm.trans inner)
    exact absurd judged unjudged

end Analysis

/-! ## What an analysis says -/

/-- A stored resource: its type is the lower case of what was given. -/
structure StoredResource extends Resource where
  lowered : ∃ given, codes resourceType = B.lower given

/-- The case rules of Python that a resource type rests on. -/
structure CaseRules : Prop where
  id : B.lower (codes "id".toList) = codes "id".toList
  stem : ∀ s, B.lower (B.lower s ++ codes "_id".toList) = B.lower s ++ codes "_id".toList

/-- The field has the external id under `id` or the resource's own name, ignoring case. -/
def IsIdentifier (resource : Resource) (field : Codes × Value F) : Prop :=
  (B.lower field.1 = B.lower (codes "id".toList) ∨
      B.lower field.1 = B.lower (codes (resource.resourceType ++ "_id".toList))) ∧
    normalizeScalar B field.2 = some (codes resource.externalId)

/-- The body is JSON with such a field at some depth. -/
def Contains (resource : Resource) (body : Option Str) : Prop :=
  ∃ text v, body = some text ∧ (loads B.read Marks.free text []).1 = .ok v ∧
    ∃ field ∈ fields v, IsIdentifier B resource field

/-- `key` is the key of the first such field in document order. -/
def FirstIn (resource : Resource) (body : Option Str) (key : Codes) : Prop :=
  ∃ text v before child after, body = some text ∧ (loads B.read Marks.free text []).1 = .ok v ∧
    fields v = before ++ (key, child) :: after ∧ IsIdentifier B resource (key, child) ∧
      ∀ field ∈ before, ¬ IsIdentifier B resource field

/-- The result is exact, and its excerpts are functions of the two first keys. -/
structure Exact (testCase : TestCase) (crossOwnerRun : TestRun) (ownerBaselineRun : Option TestRun)
    (resource : Resource) (result : Analysis) : Prop where
  outcome : result.outcome = .potentialBola ↔
    ∃ baseline, Reaches testCase crossOwnerRun ownerBaselineRun baseline ∧
      Contains B resource baseline.responseBody ∧ Contains B resource crossOwnerRun.responseBody
  keys : result.outcome = .potentialBola → ∃ baseline baselineKey crossKey,
    ownerBaselineRun = some baseline ∧ FirstIn B resource baseline.responseBody baselineKey ∧
      FirstIn B resource crossOwnerRun.responseBody crossKey ∧
        result.excerptEvidence = some
          { baselineExcerpt := redactedIdentifierExcerpt baselineKey
            probeExcerpt := redactedIdentifierExcerpt crossKey }
  silent : result.outcome ≠ .potentialBola → result.excerptEvidence = none
  short : ∀ excerpts, result.excerptEvidence = some excerpts →
    excerpts.baselineExcerpt.length ≤ maxExcerptLength ∧ excerpts.probeExcerpt.length ≤ maxExcerptLength

theorem redactedIdentifierExcerpt_short (key : Codes) :
    (redactedIdentifierExcerpt key).length ≤ maxExcerptLength := by
  unfold redactedIdentifierExcerpt
  dsimp only
  split
  · decide
  next short => exact Nat.not_lt.1 short

section Exact

variable {B} (rules : CaseRules B) (resource : StoredResource B)

include rules

theorem names_iff (field : Codes × Value F) :
    Names B resource.toResource field = true ↔ IsIdentifier B resource.toResource field := by
  obtain ⟨given, lowered⟩ := resource.lowered
  have stem : B.lower (codes (resource.resourceType ++ "_id".toList)) =
      codes (resource.resourceType ++ "_id".toList) := by
    unfold codes
    rw [List.map_append]
    change B.lower (codes resource.resourceType ++ codes "_id".toList) =
      codes resource.resourceType ++ codes "_id".toList
    rw [lowered, rules.stem]
  unfold Names IsIdentifier isAllowedKey isTarget
  rw [stem, rules.id, Bool.and_eq_true, decide_eq_true_eq, decide_eq_true_eq]

theorem firstIn_of_firstKey {body : Option Str} {key : Codes}
    (found : firstKey B resource.toResource (fields (decoded B body)) = some key) :
    FirstIn B resource.toResource body key := by
  obtain ⟨⟨key', child⟩, first, same⟩ := Option.map_eq_some_iff.1 found
  obtain rfl : key' = key := same
  obtain ⟨named, before, after, split_, unnamed⟩ := List.find?_eq_some_iff_append.1 first
  cases body with
  | none => exact absurd (congrArg List.length split_) (by simp [decoded, fields])
  | some text =>
      rw [decoded] at split_
      cases read : (loads B.read Marks.free text []).1 with
      | error fault =>
          rw [read] at split_
          exact absurd (congrArg List.length split_) (by simp [fields])
      | ok v =>
          rw [read] at split_
          refine ⟨text, v, before, child, after, rfl, read, split_, (names_iff rules resource _).1 named, ?_⟩
          intro field mem identifies
          have other := unnamed field mem
          rw [(names_iff rules resource field).2 identifies] at other
          cases other

theorem firstKey_isSome (body : Option Str) :
    (firstKey B resource.toResource (fields (decoded B body))).isSome ↔ Contains B resource.toResource body := by
  constructor
  · intro some_
    obtain ⟨key, found⟩ := Option.isSome_iff_exists.1 some_
    obtain ⟨text, v, before, child, after, body', read, split_, identifies, -⟩ :=
      firstIn_of_firstKey rules resource found
    refine ⟨text, v, body', read, (key, child), ?_, identifies⟩
    rw [split_]
    exact List.mem_append_right _ List.mem_cons_self
  · rintro ⟨text, v, rfl, read, field, mem, identifies⟩
    rw [firstKey, Option.isSome_map, List.find?_isSome, decoded, read]
    exact ⟨field, mem, (names_iff rules resource field).2 identifies⟩

omit rules in
theorem exact_of_none {testCase : TestCase} {crossOwnerRun : TestRun} {ownerBaselineRun : Option TestRun}
    {result : Analysis} (reported : Reported result none)
    (unread : ¬ ∃ baseline, Reaches testCase crossOwnerRun ownerBaselineRun baseline ∧
      Contains B resource.toResource baseline.responseBody ∧
        Contains B resource.toResource crossOwnerRun.responseBody) :
    Exact B testCase crossOwnerRun ownerBaselineRun resource.toResource result := by
  refine ⟨iff_of_false reported.1 unread, fun judged => absurd judged reported.1, fun _ => reported.2, ?_⟩
  intro excerpts same
  rw [reported.2] at same
  cases same

theorem exact_of_reported {testCase : TestCase} {crossOwnerRun baseline : TestRun} {result : Analysis}
    (reaches : Reaches testCase crossOwnerRun (some baseline) baseline)
    (reported : Reported result (@reportedKeys F B resource.toResource (decoded B baseline.responseBody)
      (decoded B crossOwnerRun.responseBody))) :
    Exact B testCase crossOwnerRun (some baseline) resource.toResource result := by
  have first := firstKey_isSome rules resource baseline.responseBody
  have second := firstKey_isSome rules resource crossOwnerRun.responseBody
  have absent (unread : ¬ (Contains B resource.toResource baseline.responseBody ∧
      Contains B resource.toResource crossOwnerRun.responseBody)) :
      ¬ ∃ other, Reaches testCase crossOwnerRun (some baseline) other ∧
        Contains B resource.toResource other.responseBody ∧
          Contains B resource.toResource crossOwnerRun.responseBody := by
    rintro ⟨other, reaches', contains⟩
    obtain rfl := Option.some.inj reaches'.2.2.1
    exact unread contains
  unfold reportedKeys at reported
  cases found : firstKey B resource.toResource (fields (decoded B baseline.responseBody)) with
  | none =>
      rw [found] at first reported
      exact exact_of_none resource reported (absent fun ⟨contains, _⟩ => Bool.false_ne_true (first.2 contains))
  | some baselineKey =>
      cases found' : firstKey B resource.toResource (fields (decoded B crossOwnerRun.responseBody)) with
      | none =>
          rw [found'] at second
          rw [found, found'] at reported
          exact exact_of_none resource reported (absent fun ⟨_, contains⟩ => Bool.false_ne_true (second.2 contains))
      | some crossKey =>
          rw [found, found'] at reported
          rw [found] at first
          rw [found'] at second
          refine ⟨iff_of_true reported.1 ⟨baseline, reaches, first.1 rfl, second.1 rfl⟩, fun _ => ?_,
            fun other => absurd reported.1 other, ?_⟩
          · exact ⟨baseline, baselineKey, crossKey, rfl, firstIn_of_firstKey rules resource found,
              firstIn_of_firstKey rules resource found', reported.2⟩
          · intro excerpts same
            rw [reported.2] at same
            obtain rfl := Option.some.inj same
            exact ⟨redactedIdentifierExcerpt_short _, redactedIdentifierExcerpt_short _⟩

/-- The analysis returns an exact result unless the interpreter cannot take the bodies of two
successful runs of a cross-owner test; and then it raises. -/
theorem analyze_bola_run (L : Interpreter) (testCase : TestCase) (crossOwnerRun : TestRun)
    (ownerBaselineRun : Option TestRun) :
    (∃ result, analyzeBolaRun B L testCase crossOwnerRun ownerBaselineRun resource.toResource = .ok result ∧
        Exact B testCase crossOwnerRun ownerBaselineRun resource.toResource result) ↔
      ∀ baseline, Reaches testCase crossOwnerRun ownerBaselineRun baseline →
        Takes B L crossOwnerRun baseline resource.toResource := by
  by_cases reached : ∃ baseline, Reaches testCase crossOwnerRun ownerBaselineRun baseline
  · obtain ⟨baseline, reaches⟩ := reached
    obtain ⟨crossStatus, baselineStatus, classified⟩ :=
      classifyBolaRun_reaches B L resource.toResource reaches
    obtain rfl : ownerBaselineRun = some baseline := reaches.2.2.1
    constructor
    · rintro ⟨result, done, -⟩ other reaches'
      obtain rfl := Option.some.inj reaches'.2.2.1
      obtain ⟨inner, done⟩ := classified_of_analyzed B L done
      exact (classifyBodies_ok B L crossStatus baselineStatus).1 ⟨inner, classified ▸ done⟩
    · intro takes
      obtain ⟨inner, done⟩ := (classifyBodies_ok B L crossStatus baselineStatus).2 (takes baseline reaches)
      obtain ⟨result, analyzed, reported⟩ := analyzed_of_classified B L _ (classified.trans done)
        (classifyBodies_reported B L done)
      exact ⟨result, analyzed, exact_of_reported rules resource reaches reported⟩
  · have never : ∀ baseline, ¬ Reaches testCase crossOwnerRun ownerBaselineRun baseline :=
      fun baseline reaches => reached ⟨baseline, reaches⟩
    obtain ⟨inner, done, other, none_⟩ := classifyBolaRun_other B L resource.toResource never
    obtain ⟨result, analyzed, reported⟩ := analyzed_of_classified B L none done ⟨other, none_⟩
    refine iff_of_true ⟨result, analyzed, ?_⟩ fun baseline reaches => absurd reaches (never baseline)
    exact exact_of_none resource reported fun ⟨baseline, reaches, _⟩ => never baseline reaches

end Exact

end

/-! ## Runs -/

def asciiLower (s : Codes) : Codes := s.map fun c => if 65 ≤ c ∧ c ≤ 90 then c + 32 else c

/-- Without floats, and with the case of ASCII. -/
def asciiBuiltins : Builtins Unit where
  read := ⟨fun _ => (), fun _ => []⟩
  strFloat _ := []
  equalFloat _ _ := true
  sameFloat _ _ := true
  equalInt _ _ := false
  lower := asciiLower
  sha256 _ := []

private theorem asciiLower_asciiLower (s : Codes) : asciiLower (asciiLower s) = asciiLower s := by
  unfold asciiLower
  rw [List.map_map]
  refine List.map_congr_left fun c _ => ?_
  dsimp only [Function.comp]
  split_ifs <;> omega

private theorem asciiRules : CaseRules asciiBuiltins where
  id := by decide +kernel
  stem s := by
    change asciiLower (asciiLower s ++ codes "_id".toList) = asciiLower s ++ codes "_id".toList
    have append (a b : Codes) : asciiLower (a ++ b) = asciiLower a ++ asciiLower b := List.map_append
    have suffix_ : asciiLower (codes "_id".toList) = codes "_id".toList := by decide +kernel
    rw [append, asciiLower_asciiLower, suffix_]

def usualStack : Interpreter := ⟨⟨4300, 1000, 1000, 1000⟩, 1000⟩

private def crossTest : TestCase := ⟨1, 1, 2, 1, bolaCrossOwner⟩

private def okRun (id : Int) (body : Str) : TestRun := ⟨id, 1, some 200, some body, none⟩

private def orderSeven : StoredResource asciiBuiltins where
  targetId := 1
  resourceType := "order".toList
  externalId := ['7']
  lowered := ⟨codes "Order".toList, by decide +kernel⟩

/-- `{"order": [{"Order_ID": 7}]}` -/
private def orderBody : Str := "\x7b\"order\": [\x7b\"Order_ID\": 7\x7d]\x7d".toList

private theorem orderBody_takes :
    Takes asciiBuiltins usualStack (okRun 2 orderBody) (okRun 1 orderBody) orderSeven.toResource := by
  have marks : (loads asciiBuiltins.read Marks.free orderBody []).2 =
      [.opens 1, .opens 2, .opens 3, .integer 1] := by
    decide +kernel
  have readable : Readable asciiBuiltins usualStack (some orderBody) := by
    intro text same m mem
    obtain rfl := Option.some.inj same
    rw [marks] at mem
    simp only [List.mem_cons, List.not_mem_nil, or_false] at mem
    rcases mem with rfl | rfl | rfl | rfl <;> exact (refuses_none _).1 (by decide +kernel)
  exact ⟨readable, readable, fun _ => ⟨by decide +kernel, by decide +kernel⟩, fun _ _ _ => by decide +kernel⟩

theorem analyze_bola_run_order :
    (∀ baseline, Reaches crossTest (okRun 2 orderBody) (some (okRun 1 orderBody)) baseline →
        Takes asciiBuiltins usualStack (okRun 2 orderBody) baseline orderSeven.toResource) ∧
      ∃ result, analyzeBolaRun asciiBuiltins usualStack crossTest (okRun 2 orderBody)
          (some (okRun 1 orderBody)) orderSeven.toResource = .ok result ∧
        Exact asciiBuiltins crossTest (okRun 2 orderBody) (some (okRun 1 orderBody)) orderSeven.toResource
          result := by
  have takes : ∀ baseline, Reaches crossTest (okRun 2 orderBody) (some (okRun 1 orderBody)) baseline →
      Takes asciiBuiltins usualStack (okRun 2 orderBody) baseline orderSeven.toResource := by
    rintro baseline ⟨-, -, same, -⟩
    obtain rfl := Option.some.inj same
    exact orderBody_takes
  exact ⟨takes, (analyze_bola_run asciiRules orderSeven usualStack crossTest (okRun 2 orderBody)
    (some (okRun 1 orderBody))).2 takes⟩

/-- Two bodies that are one integer of 4301 digits: `json.loads` raises a plain `ValueError`, and
nothing catches it. -/
theorem analyze_bola_run_digits :
    ¬ ∃ result, analyzeBolaRun asciiBuiltins usualStack crossTest (okRun 2 (List.replicate (4300 + 1) '1'))
        (some (okRun 1 (List.replicate (4300 + 1) '1'))) orderSeven.toResource = .ok result ∧
      Exact asciiBuiltins crossTest (okRun 2 (List.replicate (4300 + 1) '1'))
        (some (okRun 1 (List.replicate (4300 + 1) '1'))) orderSeven.toResource result := by
  have raised : (loads asciiBuiltins.read usualStack.refuses (List.replicate (4300 + 1) '1') []).1 =
      .error .valueError :=
    loads_ones asciiBuiltins.read _ rfl
  rintro ⟨result, done, -⟩
  obtain ⟨classified, done⟩ := classified_of_analyzed asciiBuiltins usualStack done
  have reaches : Reaches crossTest (okRun 2 (List.replicate (4300 + 1) '1'))
      (some (okRun 1 (List.replicate (4300 + 1) '1'))) (okRun 1 (List.replicate (4300 + 1) '1')) :=
    ⟨rfl, ⟨rfl, 200, rfl, rfl⟩, rfl, rfl, 200, rfl, rfl⟩
  obtain ⟨crossStatus, baselineStatus, same⟩ :=
    classifyBolaRun_reaches asciiBuiltins usualStack orderSeven.toResource reaches
  rw [same] at done
  obtain ⟨_, read, -⟩ := Theory.bind_ok.1 done
  rw [okRun, parseJsonBody, raised] at read
  nomatch read

end ApiSecurityPlatform.Findings.Classification
