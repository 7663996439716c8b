/-
# Proposals.Contract -- what a model may say

`input_document` reads the handles a model is given, `output_document` what it says about
them.  An `InputDocument` cannot be built with a handle that is not one, or twice with the same
handle; the loops over its items make it item by item.

An accepted output is a list of suggestions and nothing else: its displays are made from them
(`Suggestion.display`), so no text of the model's choosing is in them, and what each suggestion
refers to the input document has (`Suggestion.Admissible`).  `Confined` collects this, and
`output_confined` says that every accepted output is confined.
-/
import ApiSecurityPlatform.Ports.Identity
import ApiSecurityPlatform.Ports.Usage
import ApiSecurityPlatform.Python.Schema
import ApiSecurityPlatform.Theory.Keyed
import Mathlib.Data.Finset.Dedup
import Mathlib.Data.Finset.Insert

namespace ApiSecurityPlatform.Proposals

open ApiSecurityPlatform.Theory
open ApiSecurityPlatform.Python
open ApiSecurityPlatform.Ports (Pattern isLowerHex member)

set_option autoImplicit false

/-! ## Words -/

/-- `INPUT_VERSION`. -/
def inputVersion : String := "ra-ai-proposal-input/1"

/-- `OUTPUT_VERSION`. -/
def outputVersion : String := "ra-ai-proposal-output/1"

/-- `SHAPE`, and the other one. -/
inductive Shape where
  | singleResourcePathGetJsonObject
  | unsupportedShape
deriving DecidableEq, Repr

def Shape.text : Shape → String
  | .singleResourcePathGetJsonObject => "single_resource_path_get_json_object"
  | .unsupportedShape => "unsupported_shape"

inductive ActorMode where
  | anonymous
  | bearer
  | unknown
deriving DecidableEq, Repr

def ActorMode.text : ActorMode → String
  | .anonymous => "anonymous"
  | .bearer => "bearer"
  | .unknown => "unknown"

/-- What a rule applies to. -/
inductive Applicability where
  | shape
  | anonymous
  | bearer
  | independentFactsRequired
deriving DecidableEq, Repr

def Applicability.text : Applicability → String
  | .shape => Shape.singleResourcePathGetJsonObject.text
  | .anonymous => "anonymous"
  | .bearer => "bearer"
  | .independentFactsRequired => "independent_facts_required"

/-- `GAPS`. -/
inductive GapCode where
  | factsMissing
  | unsupportedShape
  | noApplicableRule
deriving DecidableEq, Repr

namespace GapCode

def text : GapCode → String
  | factsMissing => "FACTS_MISSING"
  | unsupportedShape => "UNSUPPORTED_SHAPE"
  | noApplicableRule => "NO_APPLICABLE_RULE"

def all : List GapCode := [factsMissing, unsupportedShape, noApplicableRule]

end GapCode

/-- `UNCERTAINTY`. -/
def uncertainties : List String := "NOT_EXECUTED" :: GapCode.all.map GapCode.text

/-- `TYPES`. -/
inductive Kind where
  | reviewCandidate
  | requestInput
  | explainRule
deriving DecidableEq, Repr

namespace Kind

def text : Kind → String
  | reviewCandidate => "REVIEW_CANDIDATE"
  | requestInput => "REQUEST_INPUT"
  | explainRule => "EXPLAIN_RULE"

def all : List Kind := [reviewCandidate, requestInput, explainRule]

/-- `REASONS`, by the kind they go with. -/
def reason : Kind → String
  | reviewCandidate => "CANDIDATE_REVIEW_ONLY"
  | requestInput => "INPUT_REQUIRED"
  | explainRule => "GENERAL_RULE_ONLY"

/-- What the operator reads. -/
def sentence : Kind → String
  | reviewCandidate => "Suggested for human review. Not executed."
  | requestInput => "Additional approved input is required. Not executed."
  | explainRule => "Review the referenced general rule. No project conclusion."

end Kind

/-- `REFUSALS`. -/
inductive Refusal where
  | insufficientContext
  | noApplicableRule
  | unsupportedShape
  | safetyRefusal
deriving DecidableEq, Repr

namespace Refusal

def text : Refusal → String
  | insufficientContext => "INSUFFICIENT_CONTEXT"
  | noApplicableRule => "NO_APPLICABLE_RULE"
  | unsupportedShape => "UNSUPPORTED_SHAPE"
  | safetyRefusal => "SAFETY_REFUSAL"

def all : List Refusal := [insufficientContext, noApplicableRule, unsupportedShape, safetyRefusal]

/-- `required`: the gap that backs a refusal. -/
def required : Refusal → Option GapCode
  | insufficientContext => some .factsMissing
  | noApplicableRule => some .noApplicableRule
  | unsupportedShape => some .unsupportedShape
  | safetyRefusal => none

end Refusal

inductive Status where
  | suggestions
  | refusal
deriving DecidableEq, Repr

def Status.text : Status → String
  | .suggestions => "suggestions"
  | .refusal => "refusal"

/-! ## Checks of single values -/

section Values

variable {F : Type}

/-- The text of a string; `None` for any other value. -/
def text? : Json F → Option Str
  | .string s => some s
  | _ => none

def items? : Json F → Option (List (Json F))
  | .array items => some items
  | _ => none

/-- A value that has to be there. -/
def given {α : Type} : Option α → Except Failure α
  | some a => .ok a
  | none => .error (.rejected .malformedOutput)

/-- `fields`. -/
def fields (v : Json F) (names : List String) : Except Failure Unit :=
  require (isObject v = true ∧ v.asMembers.map Prod.fst ⊆ names.map String.toList ∧
    names.map String.toList ⊆ v.asMembers.map Prod.fst) .malformedOutput

/-- `choice`, of the values of an enumeration with these texts. -/
def choice {α : Type} (v : Json F) (choices : List α) (text : α → String) (code : Code) : Except Failure α :=
  match (text? v).bind fun s => choices.find? fun a => decide ((text a).toList = s) with
  | some a => .ok a
  | none => .error (.rejected code)

/-- `array`. -/
def array (v : Json F) (maximum minimum : Nat) : Except Failure (List (Json F)) :=
  match items? v with
  | some items => do
      require (minimum ≤ items.length ∧ items.length ≤ maximum) .malformedOutput
      return items
  | none => .error (.rejected .malformedOutput)

/-- `unique_strings`. -/
def uniqueStrings (v : Json F) (maximum minimum : Nat) : Except Failure (List Str) := do
  let items ← array v maximum minimum
  match items.mapM text? with
  | some strings => do
      require strings.Nodup .malformedOutput
      return strings
  | none => .error (.rejected .malformedOutput)

/-- `kind_[0-9a-f]{32}`. -/
def isHandle (kind : Char) (s : Str) : Bool := Pattern.after [kind, '_'] (Pattern.run isLowerHex 32 32) s

/-- A handle of one kind. -/
abbrev Handle (kind : Char) := { s : Str // isHandle kind s = true }

/-- `reference`. -/
def reference (v : Json F) (kind : Char) : Except Failure (Handle kind) :=
  match text? v with
  | some s => if shape : isHandle kind s = true then .ok ⟨s, shape⟩ else .error (.rejected .referenceUnavailable)
  | none => .error (.rejected .referenceUnavailable)

end Values

/-! ## The input document -/

/-- What is known of each handle of one kind, in the order of the document. -/
structure Registry (kind : Char) (α : Type) where
  items : List (Str × α)
  handles : ∀ item ∈ items, isHandle kind item.1 = true
  distinct : (items.map Prod.fst).Nodup

namespace Registry

variable {kind : Char} {α : Type}

def refs (r : Registry kind α) : List Str := r.items.map Prod.fst

def empty : Registry kind α := ⟨[], (fun _ mem => nomatch mem), List.nodup_nil⟩

/-- One more item, under a handle that is not there. -/
def add (r : Registry kind α) (ref : Handle kind) (a : α) (fresh : ref.1 ∉ r.refs) : Registry kind α where
  items := r.items ++ [(ref.1, a)]
  handles := by
    intro item mem
    rcases List.mem_append.1 mem with old | new
    · exact r.handles item old
    · rw [List.mem_singleton.1 new]
      exact ref.2
  distinct := by
    rw [List.map_append, List.nodup_append]
    refine ⟨r.distinct, List.nodup_singleton _, fun a old b new => ?_⟩
    obtain rfl : b = ref.1 := List.mem_singleton.1 new
    rintro rfl
    exact fresh old

end Registry

structure Candidate where
  shape : Shape
  actorMode : ActorMode
deriving DecidableEq, Repr

structure Rule where
  claim : Str
  applicabilityCodes : List Applicability
deriving DecidableEq, Repr

structure InputDocument where
  requestRef : Handle 'q'
  candidates : Registry 'c' Candidate
  rules : Registry 'k' Rule
  gaps : Registry 'g' GapCode

section Input

variable {F : Type}

/-- The loop over the items of one list: `body` is what it does with an item's other fields. -/
def readItems {kind : Char} {α : Type} (names : List String) (body : Json F → Except Failure α) :
    List (Json F) → Registry kind α → Except Failure (Registry kind α)
  | [], r => .ok r
  | item :: rest, r => do
      fields item names
      let ref ← reference (member item "ref") kind
      if fresh : ref.1 ∉ r.refs then do
        let a ← body item
        readItems names body rest (r.add ref a fresh)
      else .error (.rejected .referenceUnavailable)

def readCandidate (item : Json F) : Except Failure Candidate := do
  let shape ← choice (member item "shape") [.singleResourcePathGetJsonObject, .unsupportedShape] Shape.text
    .malformedOutput
  let actorMode ← choice (member item "actor_mode") [.anonymous, .bearer, .unknown] ActorMode.text .malformedOutput
  return ⟨shape, actorMode⟩

def readRule (item : Json F) : Except Failure Rule := do
  let claim ← given (text? (member item "claim"))
  require (1 ≤ (utf8 claim).length ∧ (utf8 claim).length ≤ 512) .malformedOutput
  let _ ← uniqueStrings (member item "applicability_codes") 4 1
  let codes ← (member item "applicability_codes").asItems.mapM fun code =>
    choice code [.shape, .anonymous, .bearer, .independentFactsRequired] Applicability.text .malformedOutput
  return ⟨claim, codes⟩

def readGap (item : Json F) : Except Failure GapCode := choice (member item "code") GapCode.all GapCode.text .malformedOutput

variable (D : Floats F)

def inputDocument (raw : Bytes) : Except Failure InputDocument := do
  let doc ← boundedJson D ⟨16384, 5, 1024⟩ .inputLimit raw
  fields doc ["protocol", "request_ref", "task", "candidates", "rules", "gaps"]
  let _ ← choice (member doc "protocol") [inputVersion] id .versionUnsupported
  let requestRef ← reference (member doc "request_ref") 'q'
  let _ ← choice (member doc "task") ["prioritize_review"] id .malformedOutput
  let candidates ← array (member doc "candidates") 8 0
  let candidates ← readItems ["ref", "shape", "actor_mode"] readCandidate candidates .empty
  let rules ← array (member doc "rules") 4 0
  let rules ← readItems ["ref", "claim", "applicability_codes"] readRule rules .empty
  let gaps ← array (member doc "gaps") 8 0
  let gaps ← readItems ["ref", "code"] readGap gaps .empty
  require ((candidates.items.isEmpty && rules.items.isEmpty && gaps.items.isEmpty) = false) .dataIneligible
  return ⟨requestRef, candidates, rules, gaps⟩

end Input

/-! ## The output document -/

structure Display where
  suggestionRef : Str
  text : String
  references : List Str
  uncertaintyCodes : List String
deriving DecidableEq, Repr

/-- What a suggestion says: its kind and what it refers to. -/
structure Suggestion where
  kind : Kind
  candidate : Option Str
  rules : List Str
  gaps : List Str
deriving DecidableEq, Repr

namespace Suggestion

/-- `key`. -/
def key (s : Suggestion) : Kind × Option Str × Finset Str × Finset Str := (s.kind, s.candidate, s.rules.toFinset, s.gaps.toFinset)

/-- `refs`. -/
def references (s : Suggestion) : List Str := s.candidate.toList ++ s.rules ++ s.gaps

variable (inp : InputDocument)

/-- `codes`. -/
def codes (s : Suggestion) : List String :=
  match s.kind with
  | .requestInput => "NOT_EXECUTED" ::
      (GapCode.all.filter fun code => s.gaps.any fun g => inp.gaps.items.lookup g == some code).map GapCode.text
  | _ => ["NOT_EXECUTED"]

/-- `s_i`. -/
def number (i : Nat) : Str := "s_".toList ++ Nat.toDigits 10 i

def display (i : Nat) (s : Suggestion) : Display := ⟨number i, s.kind.sentence, s.references, s.codes inp⟩

end Suggestion

section Output

variable {F : Type} (D : Floats F) (inp : InputDocument) (allowed : Finset (Str × Str))

/-- One round of the loop over `rule_refs` and `gap_refs`. -/
def references (v : Json F) (registry : List Str) : Except Failure (List Str) := do
  let refs ← uniqueStrings v 2 0
  require (∀ ref ∈ refs, ref ∈ registry) .referenceUnavailable
  return refs

def candidateRef (v : Json F) : Except Failure (Option Str) :=
  match v with
  | .null => .ok none
  | v => do
      match text? v with
      | some s => do
          require (s ∈ inp.candidates.refs) .referenceUnavailable
          return some s
      | none => .error (.rejected .referenceUnavailable)

/-- What the branch of its kind requires of a suggestion. -/
def qualify (s : Suggestion) : Except Failure Unit :=
  match s.kind, s.candidate with
  | .reviewCandidate, some ref => do
      require (1 ≤ s.rules.length ∧ s.rules.length ≤ 2 ∧ s.gaps = []) .suggestionUnsupported
      require (∃ c ∈ inp.candidates.items.lookup ref, c.shape = .singleResourcePathGetJsonObject ∧
        (c.actorMode = .anonymous ∨ c.actorMode = .bearer)) .suggestionUnsupported
      require (∀ r ∈ s.rules, (ref, r) ∈ allowed) .suggestionUnsupported
  | .requestInput, none => require (s.rules = [] ∧ 1 ≤ s.gaps.length ∧ s.gaps.length ≤ 2) .suggestionUnsupported
  | .explainRule, none => require (s.rules.length = 1 ∧ s.gaps = []) .suggestionUnsupported
  | _, _ => .error (.rejected .suggestionUnsupported)

/-- One pass of the loop: the suggestion of `v`, which is the `i`-th. -/
def readSuggestion (i : Nat) (seen : List Suggestion) (v : Json F) : Except Failure Suggestion := do
  fields v ["suggestion_ref", "type", "candidate_ref", "rule_refs", "gap_refs", "reason_code", "uncertainty_codes"]
  require ((canonical D v).length ≤ 1024) .outputLimit
  require (text? (member v "suggestion_ref") = some (Suggestion.number i)) .malformedOutput
  let kind ← choice (member v "type") Kind.all Kind.text .suggestionUnsupported
  let reason ← choice (member v "reason_code") (Kind.all.map Kind.reason) id .malformedOutput
  let rules ← references (member v "rule_refs") inp.rules.refs
  let gaps ← references (member v "gap_refs") inp.gaps.refs
  let candidate ← candidateRef inp (member v "candidate_ref")
  let codes ← uniqueStrings (member v "uncertainty_codes") 4 1
  require (∀ code ∈ codes, code ∈ uncertainties.map String.toList) .malformedOutput
  let s : Suggestion := ⟨kind, candidate, rules, gaps⟩
  require (s.key ∉ seen.map Suggestion.key) .malformedOutput
  qualify inp allowed s
  require (reason = kind.reason ∧ codes = (s.codes inp).map String.toList) .suggestionUnsupported
  return s

/-- The loop over the suggestions; `seen` has those before, the last of them first. -/
def readSuggestions : Nat → List Suggestion → List (Json F) → Except Failure (List Display)
  | _, _, [] => .ok []
  | i, seen, v :: rest => do
      let s ← readSuggestion D inp allowed i seen v
      let display ← readSuggestions (i + 1) (s :: seen) rest
      return s.display inp i :: display

def outputDocument (raw : Bytes) : Except Failure (Json F × List Display) := do
  let doc ← boundedJson D ⟨8192, 5, 1024⟩ .outputLimit raw
  fields doc ["protocol", "request_ref", "status", "suggestions", "refusal_code"]
  let _ ← choice (member doc "protocol") [outputVersion] id .versionUnsupported
  require (text? (member doc "request_ref") = some inp.requestRef.1) .requestMismatch
  let status ← choice (member doc "status") [.suggestions, .refusal] Status.text .malformedOutput
  let suggestions ← array (member doc "suggestions") 4 0
  match status with
  | .refusal => do
      require (suggestions.isEmpty = true) .malformedOutput
      let code ← choice (member doc "refusal_code") Refusal.all Refusal.text .malformedOutput
      require (∀ gap ∈ code.required, gap ∈ inp.gaps.items.map Prod.snd) .malformedOutput
      return (doc, [])
  | .suggestions => do
      require ((member doc "refusal_code").isNull = true ∧ suggestions.isEmpty = false) .malformedOutput
      let display ← readSuggestions D inp allowed 1 [] suggestions
      return (doc, display)

end Output

/-! ## The schema -/

/-- `enum`. -/
def enumSchema (values : List String) (nullable : Bool) : Schema := .enum (values.map String.toList) nullable

/-- `refs`. -/
def refsSchema (kind : Char) (nullable : Bool) : Schema := .pattern (isHandle kind) 34 34 nullable

/-- `obj`. -/
def objSchema (properties : List (String × Schema)) : Schema := .object (properties.map fun p => (p.1.toList, p.2))

/-- `suggestion`. -/
def suggestionSchema : Schema := objSchema [
  ("suggestion_ref", enumSchema ["s_1", "s_2", "s_3", "s_4"] false),
  ("type", enumSchema (Kind.all.map Kind.text) false),
  ("candidate_ref", refsSchema 'c' true),
  ("rule_refs", .array (refsSchema 'k' false) 0 2),
  ("gap_refs", .array (refsSchema 'g' false) 0 2),
  ("reason_code", enumSchema (Kind.all.map Kind.reason) false),
  ("uncertainty_codes", .array (enumSchema uncertainties false) 1 4)]

def outputSchema : Schema := objSchema [
  ("protocol", enumSchema [outputVersion] false),
  ("request_ref", refsSchema 'q' false),
  ("status", enumSchema ["suggestions", "refusal"] false),
  ("suggestions", .array suggestionSchema 0 4),
  ("refusal_code", enumSchema (Refusal.all.map Refusal.text) true)]

/-! ## What the checks say -/

section Checks

variable {F : Type}

theorem text?_iff {v : Json F} {s : Str} : text? v = some s ↔ v = .string s := by
  cases v <;> simp [text?]

theorem items?_iff {v : Json F} {items : List (Json F)} : items? v = some items ↔ v = .array items := by
  cases v <;> simp [items?]

theorem given_ok {α : Type} {o : Option α} {a : α} : given o = .ok a ↔ o = some a := by
  cases o <;> simp [given]

theorem fields_ok {v : Json F} {names : List String} : fields v names = .ok () ↔ ∃ members, v = .object members ∧
    members.map Prod.fst ⊆ names.map String.toList ∧ names.map String.toList ⊆ members.map Prod.fst := by
  rw [fields, require_ok]
  cases v <;> simp [isObject, Json.asMembers]

theorem choice_ok {α : Type} {v : Json F} {choices : List α} {text : α → String} {code : Code} {a : α}
    (chosen : choice v choices text code = .ok a) : a ∈ choices ∧ v = .string (text a).toList := by
  unfold choice at chosen
  split at chosen
  · next b found =>
    obtain rfl := Except.ok.inj chosen
    obtain ⟨s, written, first⟩ := Option.bind_eq_some_iff.1 found
    have same : decide ((text b).toList = s) = true := List.find?_some (p := fun a => decide ((text a).toList = s)) first
    exact ⟨List.mem_of_find?_eq_some first, by rw [text?_iff.1 written, of_decide_eq_true same]⟩
  · cases chosen

theorem array_ok {v : Json F} {maximum minimum : Nat} {items : List (Json F)} :
    array v maximum minimum = .ok items ↔ v = .array items ∧ minimum ≤ items.length ∧ items.length ≤ maximum := by
  rw [← items?_iff]
  unfold array
  cases items? v with
  | none => exact iff_of_false (fun same => nomatch same) (fun ⟨same, _⟩ => nomatch same)
  | some found =>
      dsimp only
      rw [seq_ok, require_ok]
      constructor
      · rintro ⟨bounds, same⟩
        obtain rfl := Except.ok.inj same
        exact ⟨rfl, bounds⟩
      · rintro ⟨same, bounds⟩
        obtain rfl := Option.some.inj same
        exact ⟨bounds, rfl⟩

theorem mapM_text? {items : List (Json F)} {strings : List Str} (read : items.mapM text? = some strings) :
    items = strings.map Json.string := by
  induction items generalizing strings with
  | nil =>
      obtain rfl : [] = strings := Option.some.inj read
      rfl
  | cons v rest ih =>
      rw [List.mapM_cons] at read
      obtain ⟨s, first, read⟩ := Option.bind_eq_some_iff.1 read
      obtain ⟨others, remaining, same⟩ := Option.bind_eq_some_iff.1 read
      obtain rfl : s :: others = strings := Option.some.inj same
      rw [List.map_cons, ← ih remaining, text?_iff.1 first]

theorem uniqueStrings_ok {v : Json F} {maximum minimum : Nat} {strings : List Str}
    (read : uniqueStrings v maximum minimum = .ok strings) :
    v = .array (strings.map Json.string) ∧ minimum ≤ strings.length ∧ strings.length ≤ maximum ∧ strings.Nodup := by
  rw [uniqueStrings, bind_ok] at read
  obtain ⟨items, listed, read⟩ := read
  obtain ⟨rfl, bounds⟩ := array_ok.1 listed
  split at read
  · next found texts =>
    rw [seq_ok, require_ok] at read
    obtain ⟨distinct, same⟩ := read
    obtain rfl := Except.ok.inj same
    obtain rfl := mapM_text? texts
    rw [List.length_map] at bounds
    exact ⟨rfl, bounds.1, bounds.2, distinct⟩
  · cases read

theorem reference_ok {v : Json F} {kind : Char} {ref : Handle kind} (read : reference v kind = .ok ref) :
    v = .string ref.1 := by
  unfold reference at read
  split at read
  · next s written =>
    split at read
    · obtain rfl := Except.ok.inj read
      exact text?_iff.1 written
    · cases read
  · cases read

theorem references_ok {v : Json F} {registry refs : List Str} (read : references v registry = .ok refs) :
    v = .array (refs.map Json.string) ∧ refs.length ≤ 2 ∧ refs.Nodup ∧ ∀ ref ∈ refs, ref ∈ registry := by
  rw [references, bind_ok] at read
  obtain ⟨strings, listed, read⟩ := read
  rw [seq_ok, require_ok] at read
  obtain ⟨known, same⟩ := read
  obtain rfl := Except.ok.inj same
  obtain ⟨rfl, -, short, distinct⟩ := uniqueStrings_ok listed
  exact ⟨rfl, short, distinct, known⟩

/-- An object with the fields of a schema conforms to it when its fields do. -/
theorem fields_conform {v : Json F} {properties : List (String × Schema)} (named : fields v (properties.map Prod.fst) = .ok ())
    (each : ∀ p ∈ properties, p.2.Conforms (member v p.1)) : (objSchema properties).Conforms v := by
  obtain ⟨members, rfl, inside, all⟩ := fields_ok.1 named
  have keys : (properties.map fun p => (p.1.toList, p.2)).map Prod.fst = (properties.map Prod.fst).map String.toList := by
    rw [List.map_map, List.map_map]
    rfl
  rw [objSchema, Schema.Conforms]
  refine ⟨members, rfl, fun m mem => ?_, Schema.conformProperties_iff.2 fun p mem => ?_⟩
  · rw [keys]
    exact inside (List.mem_map_of_mem mem)
  · obtain ⟨q, listed, rfl⟩ := List.mem_map.1 mem
    exact ⟨all (List.mem_map_of_mem (List.mem_map_of_mem listed)), each q listed⟩

theorem enum_conforms {v : Json F} {values : List String} {nullable : Bool} {s : String} (listed : s ∈ values)
    (written : v = .string s.toList) : (enumSchema values nullable).Conforms v := by
  rw [enumSchema, Schema.Conforms]
  exact .inr ⟨s.toList, List.mem_map_of_mem listed, written⟩

end Checks

/-! ## Handles -/

theorem isHandle_iff {kind : Char} {s : Str} :
    isHandle kind s = true ↔ ∃ digits, s = kind :: '_' :: digits ∧ digits.length = 32 ∧ digits.all isLowerHex = true := by
  rw [isHandle, Pattern.after, Pattern.run, Bool.and_eq_true, Bool.and_eq_true, Bool.and_eq_true, decide_eq_true_eq,
    decide_eq_true_eq, List.isPrefixOf_iff_prefix]
  constructor
  · rintro ⟨⟨digits, rfl⟩, ⟨lower, upper⟩, all⟩
    exact ⟨digits, rfl, Nat.le_antisymm upper lower, all⟩
  · rintro ⟨digits, rfl, length, all⟩
    exact ⟨⟨digits, rfl⟩, ⟨length.ge, length.le⟩, all⟩

theorem isHandle_length {kind : Char} {s : Str} (handle : isHandle kind s = true) : s.length = 34 := by
  obtain ⟨digits, rfl, length, -⟩ := isHandle_iff.1 handle
  rw [List.length_cons, List.length_cons, length]

/-- A handle is of one kind. -/
theorem isHandle_kind {a b : Char} {s : Str} (first : isHandle a s = true) (second : isHandle b s = true) : a = b := by
  obtain ⟨digits, rfl, -⟩ := isHandle_iff.1 first
  obtain ⟨digits', same, -⟩ := isHandle_iff.1 second
  exact (List.cons.inj same).1

theorem refs_conforms {F : Type} {kind : Char} {nullable : Bool} {s : Str} (handle : isHandle kind s = true) :
    (refsSchema kind nullable).Conforms (.string s : Json F) := by
  rw [refsSchema, Schema.Conforms]
  exact .inr ⟨s, rfl, (isHandle_length handle).ge, (isHandle_length handle).le, s, List.infix_rfl, handle⟩

theorem Registry.handle {kind : Char} {α : Type} (r : Registry kind α) {ref : Str} (mem : ref ∈ r.refs) :
    isHandle kind ref = true := by
  obtain ⟨item, listed, rfl⟩ := List.mem_map.1 mem
  exact r.handles item listed

/-- What one registry has no other of another kind has. -/
theorem Registry.apart {a b : Char} {α β : Type} (r : Registry a α) (t : Registry b β) (other : a ≠ b) {ref : Str}
    (mem : ref ∈ r.refs) : t.items.lookup ref = none := by
  cases found : t.items.lookup ref with
  | none => rfl
  | some c =>
      have inside : ref ∈ t.refs := List.mem_map_of_mem (lookup_mem found)
      exact absurd (isHandle_kind (r.handle mem) (t.handle inside)) other

theorem refs_conform {F : Type} {kind : Char} {α : Type} (r : Registry kind α) {refs : List Str} (short : refs.length ≤ 2)
    (known : ∀ ref ∈ refs, ref ∈ r.refs) :
    (Schema.array (refsSchema kind false) 0 2).Conforms (.array (refs.map Json.string) : Json F) := by
  rw [Schema.Conforms]
  refine ⟨_, rfl, Nat.zero_le _, by rwa [List.length_map], fun item mem => ?_⟩
  obtain ⟨ref, listed, rfl⟩ := List.mem_map.1 mem
  exact refs_conforms (r.handle (known ref listed))

/-! ## What an accepted output is -/

section Confined

variable {F : Type} (D : Floats F) (inp : InputDocument) (allowed : Finset (Str × Str))

/-- What a suggestion of each kind refers to. -/
def Suggestion.Admissible (s : Suggestion) : Prop :=
  (s.rules.Nodup ∧ ∀ r ∈ s.rules, r ∈ inp.rules.refs) ∧ (s.gaps.Nodup ∧ ∀ g ∈ s.gaps, g ∈ inp.gaps.refs) ∧
    match s.kind with
    | .reviewCandidate => ∃ ref c, s.candidate = some ref ∧ (ref, c) ∈ inp.candidates.items ∧
        c.shape = .singleResourcePathGetJsonObject ∧ (c.actorMode = .anonymous ∨ c.actorMode = .bearer) ∧
        1 ≤ s.rules.length ∧ s.rules.length ≤ 2 ∧ s.gaps = [] ∧ ∀ r ∈ s.rules, (ref, r) ∈ allowed
    | .requestInput => s.candidate = none ∧ s.rules = [] ∧ 1 ≤ s.gaps.length ∧ s.gaps.length ≤ 2
    | .explainRule => s.candidate = none ∧ s.rules.length = 1 ∧ s.gaps = []

/-- The displays an operator can be shown. -/
inductive Display.Backed : Display → Prop where
  | review {number ref : Str} {c : Candidate} {rules : List Str} (known : (ref, c) ∈ inp.candidates.items)
      (shape : c.shape = .singleResourcePathGetJsonObject) (actor : c.actorMode = .anonymous ∨ c.actorMode = .bearer)
      (some_ : 1 ≤ rules.length) (few : rules.length ≤ 2) (distinct : rules.Nodup)
      (pairs : ∀ r ∈ rules, r ∈ inp.rules.refs ∧ (ref, r) ∈ allowed) :
      Backed ⟨number, "Suggested for human review. Not executed.", ref :: rules, ["NOT_EXECUTED"]⟩
  | input {number : Str} {gaps : List Str} {codes : List String} (some_ : 1 ≤ gaps.length) (few : gaps.length ≤ 2)
      (distinct : gaps.Nodup) (known : ∀ g ∈ gaps, g ∈ inp.gaps.refs) :
      Backed ⟨number, "Additional approved input is required. Not executed.", gaps, codes⟩
  | rule {number ref : Str} (known : ref ∈ inp.rules.refs) :
      Backed ⟨number, "Review the referenced general rule. No project conclusion.", [ref], ["NOT_EXECUTED"]⟩

/-- The kinds and references of the suggestions, in the words of the document. -/
def referred (doc : Json F) : List (Json F × Json F × Json F × Json F) :=
  (member doc "suggestions").asItems.map fun v =>
    (member v "type", member v "candidate_ref", member v "rule_refs", member v "gap_refs")

def Suggestion.words (s : Suggestion) : Json F × Json F × Json F × Json F :=
  (.string s.kind.text.toList, (s.candidate.map Json.string).getD .null, .array (s.rules.map Json.string),
    .array (s.gaps.map Json.string))

/-- **Confinement.**  What an accepted output is, and what it shows. -/
structure Confined (doc : Json F) (displays : List Display) (suggestions : List Suggestion) : Prop where
  conforms : outputSchema.Conforms doc
  said : referred doc = suggestions.map Suggestion.words
  displayed : displays = suggestions.mapIdx fun i s => s.display inp (i + 1)
  count : displays.length ≤ 4
  distinct : (suggestions.map Suggestion.key).Nodup
  admissible : ∀ s ∈ suggestions, s.Admissible inp allowed
  backed : ∀ d ∈ displays, d.Backed inp allowed
  /-- The codes are those of the gaps referred to. -/
  uncertain : ∀ d ∈ displays, d.uncertaintyCodes = "NOT_EXECUTED" ::
    (GapCode.all.filter fun code => d.references.any fun ref => inp.gaps.items.lookup ref == some code).map GapCode.text
  answered : member doc "status" = .string "suggestions".toList → displays ≠ [] ∧ member doc "refusal_code" = .null
  refused : member doc "status" = .string "refusal".toList → displays = [] ∧
    ∃ code : Refusal, member doc "refusal_code" = .string code.text.toList ∧
      (code = .safetyRefusal ∨ ∃ gap ∈ inp.gaps.items, code.required = some gap.2)

/-- What the loop has read: `v` is the `i`-th suggestion `s`. -/
structure Written (i : Nat) (s : Suggestion) (v : Json F) : Prop where
  conforms : i ≤ 4 → suggestionSchema.Conforms v
  said : (member v "type", member v "candidate_ref", member v "rule_refs", member v "gap_refs") = s.words

variable {inp allowed}

theorem candidateRef_ok {v : Json F} {candidate : Option Str} (read : candidateRef inp v = .ok candidate) :
    v = (candidate.map Json.string).getD .null ∧ ∀ ref ∈ candidate, ref ∈ inp.candidates.refs := by
  unfold candidateRef at read
  split at read
  · obtain rfl := Except.ok.inj read
    exact ⟨rfl, fun _ none_ => nomatch none_⟩
  · split at read
    · next s written =>
      rw [seq_ok, require_ok] at read
      obtain ⟨known, same⟩ := read
      obtain rfl := Except.ok.inj same
      exact ⟨text?_iff.1 written, fun ref mem => Option.some.inj mem ▸ known⟩
    · cases read

theorem qualify_ok {s : Suggestion} (rules : s.rules.Nodup ∧ ∀ r ∈ s.rules, r ∈ inp.rules.refs)
    (gaps : s.gaps.Nodup ∧ ∀ g ∈ s.gaps, g ∈ inp.gaps.refs) (qualified : qualify inp allowed s = .ok ()) : s.Admissible inp allowed := by
  refine ⟨rules, gaps, ?_⟩
  unfold qualify at qualified
  split at qualified
  · next ref kind candidate =>
    rw [seq_ok, require_ok, seq_ok, require_ok, require_ok] at qualified
    obtain ⟨⟨some_, few, none_⟩, ⟨c, found, shape, actor⟩, pairs⟩ := qualified
    rw [kind]
    exact ⟨ref, c, candidate, lookup_mem found, shape, actor, some_, few, none_, pairs⟩
  · next kind candidate =>
    rw [kind]
    exact ⟨candidate, require_ok.1 qualified⟩
  · next kind candidate =>
    rw [kind]
    exact ⟨candidate, require_ok.1 qualified⟩
  · cases qualified

theorem number_listed {i : Nat} (first : 1 ≤ i) (last : i ≤ 4) :
    ∃ s ∈ ["s_1", "s_2", "s_3", "s_4"], Suggestion.number i = s.toList := by
  obtain rfl | rfl | rfl | rfl : i = 1 ∨ i = 2 ∨ i = 3 ∨ i = 4 := by omega
  · exact ⟨"s_1", by simp, by decide⟩
  · exact ⟨"s_2", by simp, by decide⟩
  · exact ⟨"s_3", by simp, by decide⟩
  · exact ⟨"s_4", by simp, by decide⟩

theorem readSuggestion_ok {i : Nat} (first : 1 ≤ i) {seen : List Suggestion} {v : Json F} {s : Suggestion}
    (read : readSuggestion D inp allowed i seen v = .ok s) :
    Written i s v ∧ s.Admissible inp allowed ∧ s.key ∉ seen.map Suggestion.key := by
  rw [readSuggestion, seq_ok] at read
  obtain ⟨named, read⟩ := read
  rw [seq_ok] at read
  obtain ⟨-, read⟩ := read
  rw [seq_ok, require_ok, bind_ok] at read
  obtain ⟨numbered, kind, kind_, read⟩ := read
  rw [bind_ok] at read
  obtain ⟨reason, reason_, read⟩ := read
  rw [bind_ok] at read
  obtain ⟨rules, rules_, read⟩ := read
  rw [bind_ok] at read
  obtain ⟨gaps, gaps_, read⟩ := read
  rw [bind_ok] at read
  obtain ⟨candidate, candidate_, read⟩ := read
  rw [bind_ok] at read
  obtain ⟨codes, codes_, read⟩ := read
  rw [seq_ok, require_ok] at read
  obtain ⟨listed, read⟩ := read
  dsimp only at read
  rw [seq_ok, require_ok, seq_ok] at read
  obtain ⟨fresh, qualified, read⟩ := read
  rw [seq_ok] at read
  obtain ⟨-, same⟩ := read
  obtain rfl := Except.ok.inj same
  obtain ⟨kindListed, kindText⟩ := choice_ok kind_
  obtain ⟨reasonListed, reasonText⟩ := choice_ok reason_
  obtain ⟨rulesText, fewRules, rulesOnce, knownRules⟩ := references_ok rules_
  obtain ⟨gapsText, fewGaps, gapsOnce, knownGaps⟩ := references_ok gaps_
  obtain ⟨candidateText, knownCandidate⟩ := candidateRef_ok candidate_
  obtain ⟨codesText, someCodes, fewCodes, -⟩ := uniqueStrings_ok codes_
  refine ⟨⟨fun last => fields_conform named ?_, ?_⟩, qualify_ok ⟨rulesOnce, knownRules⟩ ⟨gapsOnce, knownGaps⟩ qualified, fresh⟩
  · obtain ⟨name, nameListed, nameText⟩ := number_listed first last
    rw [nameText] at numbered
    simp only [List.forall_mem_cons, List.not_mem_nil, false_imp_iff, implies_true, and_true]
    refine ⟨enum_conforms nameListed (text?_iff.1 numbered), enum_conforms (List.mem_map_of_mem kindListed) kindText, ?_, ?_, ?_,
      enum_conforms reasonListed reasonText, ?_⟩
    · rw [candidateText]
      cases candidate with
      | none => exact .inl ⟨rfl, rfl⟩
      | some ref => exact refs_conforms (inp.candidates.handle (knownCandidate ref rfl))
    · rw [rulesText]
      exact refs_conform inp.rules fewRules knownRules
    · rw [gapsText]
      exact refs_conform inp.gaps fewGaps knownGaps
    · rw [codesText, Schema.Conforms]
      refine ⟨_, rfl, by rwa [List.length_map], by rwa [List.length_map], fun item mem => ?_⟩
      obtain ⟨code, code_, rfl⟩ := List.mem_map.1 mem
      obtain ⟨word, word_, rfl⟩ := List.mem_map.1 (listed code code_)
      exact enum_conforms word_ rfl
  · rw [kindText, candidateText, rulesText, gapsText]
    rfl

/-- **The loop.**  Its displays are those of the suggestions it has read. -/
theorem readSuggestions_ok {i : Nat} (first : 1 ≤ i) {seen : List Suggestion} (distinct : (seen.map Suggestion.key).Nodup)
    {items : List (Json F)} {displays : List Display} (read : readSuggestions D inp allowed i seen items = .ok displays) :
    ∃ suggestions : List Suggestion, displays = (suggestions.mapIdx fun j s => s.display inp (i + j)) ∧
      List.Forall₂ (fun (p : Nat × Suggestion) v => Written p.1 p.2 v) (suggestions.mapIdx fun j s => (i + j, s)) items ∧
      (∀ s ∈ suggestions, s.Admissible inp allowed) ∧ ((suggestions.reverse ++ seen).map Suggestion.key).Nodup := by
  induction items generalizing i seen displays with
  | nil =>
      obtain rfl := Except.ok.inj read
      exact ⟨[], rfl, .nil, (fun _ mem => nomatch mem), distinct⟩
  | cons v rest ih =>
      rw [readSuggestions, bind_ok] at read
      obtain ⟨s, read_, read⟩ := read
      rw [bind_ok] at read
      obtain ⟨others, loop, same⟩ := read
      obtain rfl := Except.ok.inj same
      obtain ⟨written, admissible, fresh⟩ := readSuggestion_ok D first read_
      obtain ⟨suggestions, rfl, writtens, admissibles, distinct'⟩ :=
        ih (Nat.le_add_left 1 i) (show ((s :: seen).map Suggestion.key).Nodup from List.nodup_cons.2 ⟨fresh, distinct⟩) loop
      have shift (j : Nat) : i + 1 + j = i + (j + 1) := by omega
      refine ⟨s :: suggestions, ?_, ?_, ?_, ?_⟩
      · rw [List.mapIdx_cons]
        simp only [shift, Nat.add_zero]
      · rw [List.mapIdx_cons]
        simp only [shift] at writtens
        exact .cons written writtens
      · rw [List.forall_mem_cons]
        exact ⟨admissible, admissibles⟩
      · rw [List.reverse_cons, List.append_assoc]
        exact distinct'

theorem Suggestion.words_inj {s t : Suggestion} (same : (s.words : Json F × Json F × Json F × Json F) = t.words) : s = t := by
  obtain ⟨kind, candidate, rules, gaps⟩ := s
  obtain ⟨kind', candidate', rules', gaps'⟩ := t
  have strings : Function.Injective (Json.string (F := F)) := fun _ _ equal => Json.string.inj equal
  simp only [Suggestion.words, Prod.mk.injEq, Json.string.injEq, Json.array.injEq, String.toList_inj,
    (List.map_injective_iff.2 strings).eq_iff] at same
  obtain ⟨kinds, candidates, rfl, rfl⟩ := same
  have kinds : kind = kind' := by cases kind <;> cases kind' <;> first | rfl | exact absurd kinds (by decide)
  have candidates : candidate = candidate' := by
    cases candidate <;> cases candidate' <;> simp_all
  rw [kinds, candidates]

/-- What a display shows of the suggestion behind it. -/
theorem Suggestion.Admissible.display {s : Suggestion} (admissible : s.Admissible inp allowed) (i : Nat) :
    (s.display inp i).Backed inp allowed ∧ (s.display inp i).uncertaintyCodes = "NOT_EXECUTED" ::
      (GapCode.all.filter fun code => (s.display inp i).references.any fun ref => inp.gaps.items.lookup ref == some code).map
        GapCode.text := by
  obtain ⟨kind, candidate, rules, gaps⟩ := s
  obtain ⟨⟨rulesOnce, knownRules⟩, ⟨gapsOnce, knownGaps⟩, referenced⟩ := admissible
  -- a handle of a candidate or of a rule is the handle of no gap
  have silent {refs : List Str} (none_ : ∀ ref ∈ refs, inp.gaps.items.lookup ref = none) :
      (GapCode.all.filter fun code => refs.any fun ref => inp.gaps.items.lookup ref == some code) = [] := by
    refine List.filter_eq_nil_iff.2 fun code _ some_ => ?_
    obtain ⟨ref, mem, found⟩ := List.any_eq_true.1 some_
    rw [none_ ref mem] at found
    cases found
  have ruleless (r : Str) (mem : r ∈ rules) : inp.gaps.items.lookup r = none :=
    inp.rules.apart inp.gaps (by decide) (knownRules r mem)
  cases kind with
  | reviewCandidate =>
      obtain ⟨ref, c, rfl, known, shape, actor, some_, few, rfl, pairs⟩ := referenced
      have shown : (Suggestion.mk .reviewCandidate (some ref) rules []).references = ref :: rules := List.append_nil _
      rw [Suggestion.display, shown]
      refine ⟨.review known shape actor some_ few rulesOnce fun r mem => ⟨knownRules r mem, pairs r mem⟩, ?_⟩
      dsimp only
      rw [silent]
      · rfl
      · rw [List.forall_mem_cons]
        exact ⟨inp.candidates.apart inp.gaps (by decide) (List.mem_map_of_mem known), ruleless⟩
  | requestInput =>
      obtain ⟨rfl, rfl, some_, few⟩ := referenced
      exact ⟨.input some_ few gapsOnce knownGaps, rfl⟩
  | explainRule =>
      obtain ⟨rfl, one, rfl⟩ := referenced
      obtain ⟨r, rfl⟩ := List.length_eq_one_iff.1 one
      refine ⟨.rule (knownRules r List.mem_cons_self), ?_⟩
      rw [Suggestion.display]
      dsimp only
      rw [silent]
      · rfl
      · exact fun ref mem => ruleless ref mem

theorem array_conforms {items : List (Json F)} (few : items.length ≤ 4) (each : ∀ item ∈ items, suggestionSchema.Conforms item) :
    (Schema.array suggestionSchema 0 4).Conforms (.array items : Json F) := by
  rw [Schema.Conforms]
  exact ⟨items, rfl, Nat.zero_le _, few, each⟩

/-- **What is accepted is confined.** -/
theorem outputDocument_ok {raw : Bytes} {doc : Json F} {displays : List Display}
    (accepted : outputDocument D inp allowed raw = .ok (doc, displays)) :
    ∃ suggestions, Confined inp allowed doc displays suggestions := by
  rw [outputDocument, bind_ok] at accepted
  obtain ⟨v, -, accepted⟩ := accepted
  rw [seq_ok] at accepted
  obtain ⟨named, accepted⟩ := accepted
  rw [bind_ok] at accepted
  obtain ⟨version, version_, accepted⟩ := accepted
  rw [seq_ok, require_ok, bind_ok] at accepted
  obtain ⟨request, status, status_, accepted⟩ := accepted
  rw [bind_ok] at accepted
  obtain ⟨items, items_, accepted⟩ := accepted
  obtain ⟨versionListed, versionText⟩ := choice_ok version_
  obtain ⟨-, statusText⟩ := choice_ok status_
  obtain ⟨itemsText, -, few⟩ := array_ok.1 items_
  have conforms (each : ∀ item ∈ items, suggestionSchema.Conforms item)
      (refusal : (enumSchema (Refusal.all.map Refusal.text) true).Conforms (member v "refusal_code")) :
      outputSchema.Conforms v := by
    refine fields_conform named ?_
    simp only [List.forall_mem_cons, List.not_mem_nil, false_imp_iff, implies_true, and_true]
    refine ⟨enum_conforms versionListed versionText, ?_, enum_conforms ?_ statusText, ?_, refusal⟩
    · rw [text?_iff.1 request]
      exact refs_conforms inp.requestRef.2
    · cases status <;> simp [Status.text]
    · rw [itemsText]
      exact array_conforms few each
  have listed : (member v "suggestions").asItems = items := by
    rw [itemsText]
    rfl
  cases status with
  | refusal =>
      rw [seq_ok, require_ok, bind_ok] at accepted
      obtain ⟨none_, code, code_, accepted⟩ := accepted
      rw [seq_ok, require_ok] at accepted
      obtain ⟨backing, same⟩ := accepted
      obtain ⟨rfl, rfl⟩ := Prod.mk.inj (Except.ok.inj same)
      obtain rfl := List.isEmpty_iff.1 none_
      obtain ⟨codeListed, codeText⟩ := choice_ok code_
      refine ⟨[], ⟨conforms (fun _ mem => by cases mem) (enum_conforms (List.mem_map_of_mem codeListed) codeText), ?_, rfl,
        Nat.zero_le _, List.nodup_nil, (fun _ mem => by cases mem), (fun _ mem => by cases mem), (fun _ mem => by cases mem),
        fun answered => ?_, fun _ => ⟨rfl, code, codeText, ?_⟩⟩⟩
      · rw [referred, listed]
        rfl
      · rw [statusText] at answered
        exact absurd (Json.string.inj answered) (by decide)
      · cases required : code.required with
        | none =>
            refine .inl ?_
            cases code <;> first | rfl | cases required
        | some gap =>
            obtain ⟨item, mem, rfl⟩ := List.mem_map.1 (backing gap required)
            exact .inr ⟨item, mem, rfl⟩
  | suggestions =>
      rw [seq_ok, require_ok, bind_ok] at accepted
      obtain ⟨⟨null, some_⟩, shown, loop, same⟩ := accepted
      obtain ⟨rfl, rfl⟩ := Prod.mk.inj (Except.ok.inj same)
      obtain ⟨suggestions, rfl, writtens, admissible, distinct⟩ := readSuggestions_ok D (Nat.le_refl 1)
        (show (([] : List Suggestion).map Suggestion.key).Nodup from List.nodup_nil) loop
      have length : suggestions.length = items.length := by
        rw [← writtens.length_eq, List.length_mapIdx]
      have at_ (j : Nat) (inside : j < items.length) :
          Written (1 + j) (suggestions.get ⟨j, length ▸ inside⟩) items[j] := by
        have row := List.Forall₂.get writtens (i := j) (by rwa [List.length_mapIdx, length]) inside
        simpa using row
      have nullText : member v "refusal_code" = .null := by
        cases code : member v "refusal_code" <;> rw [code] at null <;> first | rfl | cases null
      have shownEach (d : Display) (mem : d ∈ suggestions.mapIdx fun j s => s.display inp (1 + j)) :
          ∃ s ∈ suggestions, ∃ i, d = s.display inp i := by
        obtain ⟨j, inside, rfl⟩ := List.mem_mapIdx.1 mem
        exact ⟨_, List.getElem_mem inside, _, rfl⟩
      refine ⟨suggestions, ⟨conforms ?_ ?_, ?_, ?_, ?_, ?_, admissible, ?_, ?_, fun _ => ⟨?_, nullText⟩, fun refused => ?_⟩⟩
      · intro item mem
        obtain ⟨j, inside, rfl⟩ := List.mem_iff_getElem.1 mem
        exact (at_ j inside).conforms (by omega)
      · rw [nullText, enumSchema, Schema.Conforms]
        exact .inl ⟨rfl, rfl⟩
      · rw [referred, listed]
        refine List.ext_getElem (by rw [List.length_map, List.length_map, length]) fun j inside inside' => ?_
        rw [List.getElem_map, List.getElem_map]
        exact (at_ j (by rwa [List.length_map] at inside)).said
      · simp only [Nat.add_comm]
      · rw [List.length_mapIdx, length]
        exact few
      · rw [List.append_nil, List.map_reverse, List.nodup_reverse] at distinct
        exact distinct
      · intro d mem
        obtain ⟨s, known, i, rfl⟩ := shownEach d mem
        exact ((admissible s known).display i).1
      · intro d mem
        obtain ⟨s, known, i, rfl⟩ := shownEach d mem
        exact ((admissible s known).display i).2
      · intro none_
        rw [List.mapIdx_eq_nil_iff] at none_
        rw [none_, List.length_nil] at length
        rw [List.length_eq_zero_iff.1 length.symm] at some_
        cases some_
      · rw [statusText] at refused
        exact absurd (Json.string.inj refused) (by decide)

/-- **No channel.**  What the displays are, the kinds and references of the suggestions decide. -/
theorem Confined.shown {allowed' : Finset (Str × Str)} {doc doc' : Json F} {displays displays' : List Display}
    {suggestions suggestions' : List Suggestion} (confined : Confined inp allowed doc displays suggestions)
    (confined' : Confined inp allowed' doc' displays' suggestions') (same : referred doc = referred doc') :
    displays = displays' := by
  rw [confined.said, confined'.said] at same
  have equal : suggestions = suggestions' :=
    List.map_injective_iff.2 (fun _ _ words => Suggestion.words_inj words) same
  rw [confined.displayed, confined'.displayed, equal]

/-! ## The input document and its text -/

/-- The handles of a list of the document, in its order. -/
def listed (doc : Json F) (name : String) : List (Json F) := (member doc name).asItems.map fun v => member v "ref"

theorem readItems_refs {kind : Char} {α : Type} {names : List String} {body : Json F → Except Failure α} {items : List (Json F)}
    {r r' : Registry kind α} (read : readItems names body items r = .ok r') :
    r'.refs.map Json.string = r.refs.map Json.string ++ items.map fun v => member v "ref" := by
  induction items generalizing r with
  | nil =>
      obtain rfl := Except.ok.inj read
      exact (List.append_nil _).symm
  | cons item rest ih =>
      rw [readItems, seq_ok, bind_ok] at read
      obtain ⟨-, ref, ref_, read⟩ := read
      split at read
      · rw [bind_ok] at read
        obtain ⟨a, -, read⟩ := read
        rw [ih read, List.map_cons, reference_ok ref_]
        simp [Registry.refs, Registry.add]
      · cases read

/-- What an input document has of the text it was read from. -/
structure Names (inp : InputDocument) (doc : Json F) : Prop where
  request : member doc "request_ref" = .string inp.requestRef.1
  candidates : listed doc "candidates" = inp.candidates.refs.map Json.string
  rules : listed doc "rules" = inp.rules.refs.map Json.string
  gaps : listed doc "gaps" = inp.gaps.refs.map Json.string

theorem inputDocument_names {raw : Bytes} (accepted : inputDocument D raw = .ok inp) :
    ∃ doc, boundedJson D ⟨16384, 5, 1024⟩ .inputLimit raw = .ok doc ∧ Names inp doc := by
  rw [inputDocument, bind_ok] at accepted
  obtain ⟨doc, parsed, accepted⟩ := accepted
  rw [seq_ok, bind_ok] at accepted
  obtain ⟨-, _, -, accepted⟩ := accepted
  rw [bind_ok] at accepted
  obtain ⟨request, request_, accepted⟩ := accepted
  rw [bind_ok] at accepted
  obtain ⟨_, -, accepted⟩ := accepted
  rw [bind_ok] at accepted
  obtain ⟨candidateItems, candidateItems_, accepted⟩ := accepted
  rw [bind_ok] at accepted
  obtain ⟨candidates, candidates_, accepted⟩ := accepted
  rw [bind_ok] at accepted
  obtain ⟨ruleItems, ruleItems_, accepted⟩ := accepted
  rw [bind_ok] at accepted
  obtain ⟨rules, rules_, accepted⟩ := accepted
  rw [bind_ok] at accepted
  obtain ⟨gapItems, gapItems_, accepted⟩ := accepted
  rw [bind_ok] at accepted
  obtain ⟨gaps, gaps_, accepted⟩ := accepted
  rw [seq_ok] at accepted
  obtain ⟨-, same⟩ := accepted
  obtain rfl := Except.ok.inj same
  refine ⟨doc, parsed, reference_ok request_, ?_, ?_, ?_⟩
  · rw [listed, (array_ok.1 candidateItems_).1]
    exact (readItems_refs candidates_).symm
  · rw [listed, (array_ok.1 ruleItems_).1]
    exact (readItems_refs rules_).symm
  · rw [listed, (array_ok.1 gapItems_).1]
    exact (readItems_refs gaps_).symm

/-- **Model output is confined.**  Whatever the provider returns for an accepted input, what
is accepted of it is a list of suggestions about the handles of that input, and the displays
are made from these alone. -/
theorem output_confined {rawInput : Bytes} (accepted : inputDocument D rawInput = .ok inp) :
    (∃ input, boundedJson D ⟨16384, 5, 1024⟩ .inputLimit rawInput = .ok input ∧ Names inp input) ∧
    (∀ allowed raw doc displays, outputDocument D inp allowed raw = .ok (doc, displays) →
      ∃ suggestions, Confined inp allowed doc displays suggestions) ∧
    ∀ allowed allowed' raw raw' doc doc' displays displays',
      outputDocument D inp allowed raw = .ok (doc, displays) →
      outputDocument D inp allowed' raw' = .ok (doc', displays') →
      referred doc = referred doc' → displays = displays' := by
  refine ⟨inputDocument_names D accepted, fun allowed raw doc displays output => outputDocument_ok D output, ?_⟩
  intro allowed allowed' raw raw' doc doc' displays displays' output output' same
  obtain ⟨suggestions, confined⟩ := outputDocument_ok D output
  obtain ⟨suggestions', confined'⟩ := outputDocument_ok D output'
  exact confined.shown confined' same

end Confined

section Pole


def handle (kind : Char) : Str := kind :: '_' :: List.replicate 32 '0'

theorem handle_handle (kind : Char) : isHandle kind (handle kind) = true :=
  isHandle_iff.2 ⟨List.replicate 32 '0', rfl, rfl, by decide⟩

/-- One candidate and one rule. -/
def reviewInput : Json Unit := .object [
  ("protocol".toList, .string inputVersion.toList),
  ("request_ref".toList, .string (handle 'q')),
  ("task".toList, .string "prioritize_review".toList),
  ("candidates".toList, .array [.object [("ref".toList, .string (handle 'c')),
    ("shape".toList, .string Shape.singleResourcePathGetJsonObject.text.toList),
    ("actor_mode".toList, .string "anonymous".toList)]]),
  ("rules".toList, .array [.object [("ref".toList, .string (handle 'k')), ("claim".toList, .string ['x']),
    ("applicability_codes".toList, .array [.string "anonymous".toList])]]),
  ("gaps".toList, .array [])]

def reviewDocument : InputDocument where
  requestRef := ⟨handle 'q', handle_handle 'q'⟩
  candidates := Registry.empty.add ⟨handle 'c', handle_handle 'c'⟩ ⟨.singleResourcePathGetJsonObject, .anonymous⟩
    (fun mem => nomatch mem)
  rules := Registry.empty.add ⟨handle 'k', handle_handle 'k'⟩ ⟨['x'], [.anonymous]⟩ (fun mem => nomatch mem)
  gaps := .empty

/-- The review of that candidate by that rule. -/
def reviewOutput : Json Unit := .object [
  ("protocol".toList, .string outputVersion.toList),
  ("request_ref".toList, .string (handle 'q')),
  ("status".toList, .string "suggestions".toList),
  ("suggestions".toList, .array [.object [("suggestion_ref".toList, .string "s_1".toList),
    ("type".toList, .string Kind.reviewCandidate.text.toList), ("candidate_ref".toList, .string (handle 'c')),
    ("rule_refs".toList, .array [.string (handle 'k')]), ("gap_refs".toList, .array []),
    ("reason_code".toList, .string Kind.reviewCandidate.reason.toList),
    ("uncertainty_codes".toList, .array [.string "NOT_EXECUTED".toList])]]),
  ("refusal_code".toList, .null)]

theorem reviewInput_accepted : inputDocument halfFloats (canonical halfFloats reviewInput) = .ok reviewDocument := by
  have parsed : boundedJson halfFloats ⟨16384, 5, 1024⟩ .inputLimit (canonical halfFloats reviewInput) = .ok reviewInput.sorted :=
    (boundedJson_iff halfFloats _ _).2 ((bounded_canonical_iff halfFloats).2
      ⟨rfl, rfl, by simp [reviewInput, Json.Distinct, Json.DistinctMembers, Json.DistinctItems],
        by simp [reviewInput, Json.Short, Json.ShortMembers, Json.ShortItems], by decide +kernel, by decide +kernel,
        by decide⟩)
  rw [inputDocument, parsed]
  rfl

set_option maxRecDepth 8000 in
theorem reviewOutput_accepted :
    outputDocument halfFloats reviewDocument {(handle 'c', handle 'k')} (canonical halfFloats reviewOutput) =
      .ok (reviewOutput.sorted, [⟨"s_1".toList, "Suggested for human review. Not executed.", [handle 'c', handle 'k'],
        ["NOT_EXECUTED"]⟩]) := by
  have parsed : boundedJson halfFloats ⟨8192, 5, 1024⟩ .outputLimit (canonical halfFloats reviewOutput) = .ok reviewOutput.sorted :=
    (boundedJson_iff halfFloats _ _).2 ((bounded_canonical_iff halfFloats).2
      ⟨rfl, rfl, by simp [reviewOutput, Json.Distinct, Json.DistinctMembers, Json.DistinctItems],
        by simp [reviewOutput, Json.Short, Json.ShortMembers, Json.ShortItems], by decide, by decide,
        by decide⟩)
  rw [outputDocument, parsed]
  rfl

theorem output_confined_review :
    (∃ input, boundedJson halfFloats ⟨16384, 5, 1024⟩ .inputLimit (canonical halfFloats reviewInput) = .ok input ∧
      Names reviewDocument input) ∧
    ∃ suggestions, Confined reviewDocument {(handle 'c', handle 'k')} reviewOutput.sorted
      [⟨"s_1".toList, "Suggested for human review. Not executed.", [handle 'c', handle 'k'], ["NOT_EXECUTED"]⟩]
      suggestions := by
  have law := output_confined halfFloats reviewInput_accepted
  exact ⟨law.1, law.2.1 _ _ _ _ reviewOutput_accepted⟩

end Pole

end ApiSecurityPlatform.Proposals
