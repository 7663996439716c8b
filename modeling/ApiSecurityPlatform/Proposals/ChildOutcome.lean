/-
# Proposals.ChildOutcome -- an outcome across the sandbox

The child prints its outcome as canonical JSON, and `child_outcome` reads it in the parent as
if anyone could have written it.  What it accepts has at most the two sentences of a review and
of a rule, with references out of the allowed pairs (`childOutcome_ok`).

A registry that `_render` makes has one rule and no gap, and all its candidates may be reviewed
by that rule.  Of what `output_document` accepts for such a registry nothing is lost on the way
(`childOutcome_serialize`).

`execute_fake` treats all failures of `child_outcome` alike, so the codes are not kept apart.
-/
import ApiSecurityPlatform.Ports.Extent
import ApiSecurityPlatform.Proposals.Contract

namespace ApiSecurityPlatform.Proposals

open ApiSecurityPlatform.Theory
open ApiSecurityPlatform.Python
open ApiSecurityPlatform.Ports (Argument Decimals Frozen Usage UsageState decode formatFor limitsFor member)

set_option autoImplicit false

/-! ## Outcomes -/

namespace Code

def text : Code → String
  | providerDisabled => "PROVIDER_DISABLED"
  | configUnapproved => "CONFIG_UNAPPROVED"
  | dataIneligible => "DATA_INELIGIBLE"
  | sourceUnavailable => "SOURCE_UNAVAILABLE"
  | inputLimit => "INPUT_LIMIT"
  | outputLimit => "OUTPUT_LIMIT"
  | malformedOutput => "MALFORMED_OUTPUT"
  | versionUnsupported => "VERSION_UNSUPPORTED"
  | requestMismatch => "REQUEST_MISMATCH"
  | referenceUnavailable => "REFERENCE_UNAVAILABLE"
  | suggestionUnsupported => "SUGGESTION_UNSUPPORTED"
  | contextChanged => "CONTEXT_CHANGED"
  | providerRefusal => "PROVIDER_REFUSAL"
  | providerIncomplete => "PROVIDER_INCOMPLETE"
  | transportDenied => "TRANSPORT_DENIED"
  | providerTimeout => "PROVIDER_TIMEOUT"
  | providerFailure => "PROVIDER_FAILURE"
  | credentialUnavailable => "CREDENTIAL_UNAVAILABLE"
  | usageUnknown => "USAGE_UNKNOWN"
  | usageInvalid => "USAGE_INVALID"
  | budgetUnavailable => "BUDGET_UNAVAILABLE"
  | cancelled => "CANCELLED"
  | auditUnavailable => "AUDIT_UNAVAILABLE"

def all : List Code :=
  [providerDisabled, configUnapproved, dataIneligible, sourceUnavailable, inputLimit, outputLimit, malformedOutput,
    versionUnsupported, requestMismatch, referenceUnavailable, suggestionUnsupported, contextChanged, providerRefusal,
    providerIncomplete, transportDenied, providerTimeout, providerFailure, credentialUnavailable, usageUnknown,
    usageInvalid, budgetUnavailable, cancelled, auditUnavailable]

theorem mem_all (code : Code) : code ∈ all := by cases code <;> decide

end Code

inductive Delivery where
  | notSent
  | unknown
  | responded
deriving DecidableEq, Repr

namespace Delivery

def text : Delivery → String
  | notSent => "not_sent"
  | unknown => "unknown"
  | responded => "responded"

def all : List Delivery := [notSent, unknown, responded]

theorem mem_all (delivery : Delivery) : delivery ∈ all := by cases delivery <;> decide

end Delivery

/-- `ProposalOutcome`; its measurement is always synthetic. -/
structure ProposalOutcome where
  code : Option Code
  delivery : Delivery
  usage : Usage
  display : List Display := []
  refusalCode : Option Refusal := none
deriving DecidableEq

section Documents

variable {F : Type}

def textOrNull : Option String → Json F
  | some s => .string s.toList
  | none => .null

/-- `asdict(usage)`, as JSON. -/
def usageMembers (u : Usage) : List (Str × Json F) := u.asdict.map fun m => (m.1, m.2.document)

def Display.document (d : Display) : Json F := .object [
  ("suggestion_ref".toList, .string d.suggestionRef),
  ("text".toList, .string d.text.toList),
  ("references".toList, .array (d.references.map Json.string)),
  ("uncertainty_codes".toList, .array (d.uncertaintyCodes.map fun code => .string code.toList))]

/-- `asdict(outcome)`. -/
def ProposalOutcome.document (o : ProposalOutcome) : Json F := .object [
  ("code".toList, textOrNull (o.code.map Code.text)),
  ("delivery".toList, .string o.delivery.text.toList),
  ("usage".toList, .object (usageMembers o.usage)),
  ("display".toList, .array (o.display.map Display.document)),
  ("refusal_code".toList, textOrNull (o.refusalCode.map Refusal.text)),
  ("measurement_kind".toList, .string "synthetic".toList)]

/-- What the child prints. -/
def serialize (D : Floats F) (o : ProposalOutcome) : Bytes := canonical D o.document ++ [10]

end Documents

/-! ## `child_outcome` -/

section Reading

variable {F : Type} (D : Floats F) (U : Decimals) (allowed : Finset (Str × Str))

/-- `None`, or what `read` makes of the value. -/
def nullable {α : Type} (v : Json F) (read : Json F → Except Failure α) : Except Failure (Option α) :=
  if v.isNull then .ok none else (read v).map some

/-- `tuple(value)`. -/
def tuple? : Json F → Option (List (Json F))
  | .array items => some items
  | .string s => some (s.map fun c => .string [c])
  | .object members => some (members.map fun m => .string m.1)
  | _ => none

def usageState (v : Json F) : UsageState :=
  if v.asText = "known".toList then .known else if v.asText = "unknown".toList then .unknown else .invalid

def usageCount : Json F → Option Int
  | .number (.int n) => some n
  | _ => none

/-- `Usage(**fields)`, of the fields of a `UsageView`. -/
def usageOf (doc : Json F) : Usage where
  state := usageState (member doc "state")
  inputTokens := usageCount (member doc "input_tokens")
  outputTokens := usageCount (member doc "output_tokens")
  cachedInputTokens := usageCount (member doc "cached_input_tokens")
  cacheWriteTokens := usageCount (member doc "cache_write_tokens")
  reasoningTokens := usageCount (member doc "reasoning_tokens")
  totalTokens := usageCount (member doc "total_tokens")

/-- `{'format': 'ra-w2-usage-view/1', **members}`. -/
def withViewFormat (members : List (Str × Json F)) : Json F :=
  .object (("format".toList, (members.lookup "format".toList).getD (.string (formatFor .usageView))) ::
    members.filter fun m => m.1 != "format".toList)

def childUsage : Json F → Except Failure Usage
  | .object members =>
      match decode D U .usageView (canonical D (withViewFormat members)) with
      | .ok view => .ok (usageOf (view.document : Json F))
      | .error _ => .error (.rejected .malformedOutput)
  | _ => .error (.rejected .malformedOutput)

/-- One pass of the loop over the displays; `seen` has the references of those before. -/
def childDisplay (i : Nat) (seen : List (List Str)) (item : Json F) : Except Failure Display := do
  fields item ["suggestion_ref", "text", "references", "uncertainty_codes"]
  require (text? (member item "suggestion_ref") = some (Suggestion.number i)) .malformedOutput
  let codes ← array (member item "uncertainty_codes") 1 1
  require (codes.map text? = [some "NOT_EXECUTED".toList]) .malformedOutput
  let refs ← given ((tuple? (member item "references")).bind fun items => items.mapM text?)
  if text? (member item "text") = some Kind.reviewCandidate.sentence.toList then do
    require (∃ pair ∈ allowed, refs = [pair.1, pair.2]) .malformedOutput
    require (refs ∉ seen) .malformedOutput
    return ⟨Suggestion.number i, Kind.reviewCandidate.sentence, refs, ["NOT_EXECUTED"]⟩
  else do
    require (text? (member item "text") = some Kind.explainRule.sentence.toList ∧ ∃ pair ∈ allowed, refs = [pair.2])
      .malformedOutput
    require (refs ∉ seen) .malformedOutput
    return ⟨Suggestion.number i, Kind.explainRule.sentence, refs, ["NOT_EXECUTED"]⟩

def childDisplays : Nat → List (List Str) → List (Json F) → Except Failure (List Display)
  | _, _, [] => .ok []
  | i, seen, item :: rest => do
      let d ← childDisplay allowed i seen item
      let display ← childDisplays (i + 1) (d.references :: seen) rest
      return d :: display

def childOutcome (raw : Bytes) : Except Failure ProposalOutcome := do
  let doc ← boundedJson D ⟨8192, 6, 1024⟩ .outputLimit raw
  fields doc ["code", "delivery", "usage", "display", "refusal_code", "measurement_kind"]
  require (text? (member doc "measurement_kind") = some "synthetic".toList) .malformedOutput
  let code ← nullable (member doc "code") fun v => choice v Code.all Code.text .malformedOutput
  let delivery ← choice (member doc "delivery") Delivery.all Delivery.text .malformedOutput
  let usage ← childUsage D U (member doc "usage")
  let items ← array (member doc "display") 4 0
  let display ← childDisplays allowed 1 [] items
  let refusal ← nullable (member doc "refusal_code") fun v => choice v Refusal.all Refusal.text .malformedOutput
  require ((code = none ∧ refusal = none ∧ display ≠ []) ∨
    (display = [] ∧ (refusal = none ∨ (code = some .providerRefusal ∧ refusal = some .safetyRefusal)))) .malformedOutput
  return ⟨code, delivery, usage, display, refusal⟩

end Reading

/-! ## What a call is prepared with -/

section Rendering

variable {F : Type} (D : Floats F)

/-- The document of `_render`: the rule of the projection, and the candidates under fresh handles. -/
def renderDocument (callRef ruleRef : Str) (claim : Str) (codes : List Applicability) (candidates : List (Str × Candidate)) :
    Json F := .object [
  ("protocol".toList, .string inputVersion.toList),
  ("request_ref".toList, .string callRef),
  ("task".toList, .string "prioritize_review".toList),
  ("candidates".toList, .array (candidates.map fun c => .object [("ref".toList, .string c.1),
    ("shape".toList, .string c.2.shape.text.toList), ("actor_mode".toList, .string c.2.actorMode.text.toList)])),
  ("rules".toList, .array [.object [("ref".toList, .string ruleRef), ("claim".toList, .string claim),
    ("applicability_codes".toList, .array (codes.map fun code => .string code.text.toList))]]),
  ("gaps".toList, .array [])]

/-- `_render`: the input document, and the allowed pairs of the registry. -/
def render (callRef ruleRef : Str) (claim : Str) (codes : List Applicability) (candidates : List (Str × Candidate)) :
    Except Failure (InputDocument × Finset (Str × Str)) := do
  let inp ← inputDocument D (canonical D (renderDocument callRef ruleRef claim codes candidates))
  return (inp, (candidates.map fun c => (c.1, ruleRef)).toFinset)

/-- What `propose_once` returns for an accepted output. -/
def proposed (doc : Json F) (display : List Display) (delivery : Delivery) (usage : Usage) : ProposalOutcome where
  code := if text? (member doc "status") = some "refusal".toList then some .providerRefusal else none
  delivery := delivery
  usage := usage
  display := display
  refusalCode := (text? (member doc "refusal_code")).bind fun s => Refusal.all.find? fun code => code.text.toList = s

end Rendering

/-! ## What a child outcome is -/

section Accepted

variable {F : Type} (D : Floats F) (U : Decimals) {allowed : Finset (Str × Str)}

/-- A display that may cross: a review of an allowed pair, or the rule of one. -/
def Display.Crosses (allowed : Finset (Str × Str)) (d : Display) : Prop :=
  (d.text = "Suggested for human review. Not executed." ∧ ∃ pair ∈ allowed, d.references = [pair.1, pair.2]) ∨
    (d.text = "Review the referenced general rule. No project conclusion." ∧ ∃ pair ∈ allowed, d.references = [pair.2])

theorem childDisplay_ok {i : Nat} {seen : List (List Str)} {item : Json F} {d : Display}
    (read : childDisplay allowed i seen item = .ok d) : d.Crosses allowed := by
  rw [childDisplay, seq_ok] at read
  obtain ⟨-, read⟩ := read
  rw [seq_ok] at read
  obtain ⟨-, read⟩ := read
  rw [bind_ok] at read
  obtain ⟨codes, -, read⟩ := read
  rw [seq_ok, bind_ok] at read
  obtain ⟨-, refs, -, read⟩ := read
  split at read
  · rw [seq_ok, require_ok, seq_ok] at read
    obtain ⟨pair, -, same⟩ := read
    obtain rfl := Except.ok.inj same
    exact .inl ⟨rfl, pair⟩
  · rw [seq_ok, require_ok, seq_ok] at read
    obtain ⟨⟨-, pair⟩, -, same⟩ := read
    obtain rfl := Except.ok.inj same
    exact .inr ⟨rfl, pair⟩

theorem childDisplays_ok {i : Nat} {seen : List (List Str)} {items : List (Json F)} {display : List Display}
    (read : childDisplays allowed i seen items = .ok display) : ∀ d ∈ display, d.Crosses allowed := by
  induction items generalizing i seen display with
  | nil =>
      obtain rfl := Except.ok.inj read
      exact fun _ mem => nomatch mem
  | cons item rest ih =>
      rw [childDisplays, bind_ok] at read
      obtain ⟨d, first, read⟩ := read
      rw [bind_ok] at read
      obtain ⟨others, loop, same⟩ := read
      obtain rfl := Except.ok.inj same
      exact List.forall_mem_cons.2 ⟨childDisplay_ok first, ih loop⟩

/-- What `child_outcome` lets through. -/
structure ProposalOutcome.Admissible (allowed : Finset (Str × Str)) (o : ProposalOutcome) : Prop where
  crosses : ∀ d ∈ o.display, d.Crosses allowed
  shown : o.display ≠ [] → o.code = none ∧ o.refusalCode = none
  refused : o.refusalCode ≠ none → o.code = some .providerRefusal ∧ o.refusalCode = some .safetyRefusal

theorem childOutcome_ok {raw : Bytes} {o : ProposalOutcome} (read : childOutcome D U allowed raw = .ok o) :
    o.Admissible allowed := by
  rw [childOutcome, bind_ok] at read
  obtain ⟨doc, -, read⟩ := read
  rw [seq_ok] at read
  obtain ⟨-, read⟩ := read
  rw [seq_ok, bind_ok] at read
  obtain ⟨-, code, -, read⟩ := read
  rw [bind_ok] at read
  obtain ⟨delivery, -, read⟩ := read
  rw [bind_ok] at read
  obtain ⟨usage, -, read⟩ := read
  rw [bind_ok] at read
  obtain ⟨items, -, read⟩ := read
  rw [bind_ok] at read
  obtain ⟨display, display_, read⟩ := read
  rw [bind_ok] at read
  obtain ⟨refusal, -, read⟩ := read
  rw [seq_ok, require_ok] at read
  obtain ⟨form, same⟩ := read
  obtain rfl := Except.ok.inj same
  refine ⟨childDisplays_ok display_, fun some_ => ?_, fun some_ => ?_⟩
  · rcases form with ⟨none_, noRefusal, -⟩ | ⟨empty, -⟩
    · exact ⟨none_, noRefusal⟩
    · exact absurd empty some_
  · rcases form with ⟨-, noRefusal, -⟩ | ⟨-, noRefusal | refused⟩
    · exact absurd noRefusal some_
    · exact absurd noRefusal some_
    · exact refused

end Accepted

/-! ## Reading sorted documents -/

section Sorted

variable {F : Type}

theorem fields_sorted {members : List (Str × Json F)} {names : List String}
    (keys : members.map Prod.fst = names.map String.toList) : fields (Json.object members).sorted names = .ok () := by
  have perm := Json.sortMembers_keys members
  rw [keys] at perm
  rw [Json.sorted_object, fields_ok]
  exact ⟨_, rfl, perm.subset, perm.symm.subset⟩

theorem member_sorted {members : List (Str × Json F)} (distinct : (members.map Prod.fst).Nodup) (name : String) :
    member (Json.object members).sorted name = (Json.get members name.toList).sorted :=
  Json.get_sorted distinct name.toList

/-- A member of a document that is written out. -/
theorem member_document {v : Json F} {members : List (Str × Json F)} {names : List String} (shape : v = .object members)
    (keys : members.map Prod.fst = names.map String.toList) (distinct : (names.map String.toList).Nodup) (name : String) :
    member v.sorted name = (Json.get members name.toList).sorted := by
  subst shape
  exact member_sorted (keys ▸ distinct) name

theorem choice_text {α : Type} {choices : List α} {text : α → String} {code : Code} {a : α} (listed : a ∈ choices)
    (apart : ∀ b ∈ choices, text b = text a → b = a) : choice (.string (text a).toList : Json F) choices text code = .ok a := by
  unfold choice
  cases found : choices.find? fun b => decide ((text b).toList = (text a).toList) with
  | none => exact absurd (decide_eq_true rfl) (List.find?_eq_none.1 found a listed)
  | some b =>
      have same : decide ((text b).toList = (text a).toList) = true :=
        List.find?_some (p := fun b => decide ((text b).toList = (text a).toList)) found
      obtain rfl := apart b (List.mem_of_find?_eq_some found) (String.toList_inj.1 (of_decide_eq_true same))
      have text_ : text? (.string (text b).toList : Json F) = some (text b).toList := rfl
      rw [text_, Option.bind_some, found]

end Sorted

/-! ## What is printed is read back -/

section RoundTrip

variable {F : Type} (D : Floats F) (U : Decimals) {allowed : Finset (Str × Str)}

theorem usageMembers_keys (u : Usage) : (usageMembers u : List (Str × Json F)).map Prod.fst = Ports.viewKeys.tail := rfl

theorem usageKeys_distinct : Ports.viewKeys.Nodup := by decide

/-- With the format in front, the members of a usage are those of its view. -/
theorem withViewFormat_sorted (u : Usage) : (withViewFormat (Json.sortMembers (usageMembers u)) : Json F).sorted =
    (Json.object (Ports.viewMembers u)).sorted := by
  have distinct := usageKeys_distinct
  have perm := Json.sortMembers_keys (usageMembers u : List (Str × Json F))
  rw [usageMembers_keys] at perm
  have absent : "format".toList ∉ (Json.sortMembers (usageMembers u : List (Str × Json F))).map Prod.fst :=
    fun mem => absurd (perm.subset mem) (by decide)
  have none_ : (Json.sortMembers (usageMembers u : List (Str × Json F))).lookup "format".toList = none := by
    rw [List.lookup_eq_none_iff]
    intro m mem
    rw [bne_iff_ne]
    intro same
    exact absent (same ▸ List.mem_map_of_mem mem)
  have kept : (Json.sortMembers (usageMembers u : List (Str × Json F))).filter (fun m => m.1 != "format".toList) =
      Json.sortMembers (usageMembers u) := by
    rw [List.filter_eq_self]
    intro m mem
    rw [bne_iff_ne]
    intro same
    exact absent (same ▸ List.mem_map_of_mem mem)
  rw [withViewFormat, none_, kept, Option.getD_none]
  have keys : ((("format".toList, Json.string (formatFor .usageView)) ::
      Json.sortMembers (usageMembers u) : List (Str × Json F)).map Prod.fst).Perm Ports.viewKeys := perm.cons _
  refine (Ports.sorted_object_iff (keys.nodup_iff.2 distinct) ?_ ?_ ?_).2 fun key mem => ?_
  · rw [Ports.viewMembers_keys]
    exact distinct
  · rw [Ports.viewMembers_keys]
    exact keys.subset
  · have length := keys.length_eq
    rw [List.length_map] at length
    rw [length]
    rfl
  · show (Json.get _ key).sorted = (Json.get (("format".toList, Json.string (formatFor .usageView)) :: usageMembers u) key).sorted
    unfold Json.get
    rw [List.lookup_cons, List.lookup_cons]
    cases key == "format".toList with
    | true => rfl
    | false =>
        have named : ((usageMembers u : List (Str × Json F)).map Prod.fst).Nodup := by
          rw [usageMembers_keys]
          exact distinct.of_cons
        have each := Json.get_sorted named key
        unfold Json.get at each
        show (((Json.sortMembers _).lookup key).getD .null).sorted = _
        rw [each, Json.sorted_sorted]

theorem usageCount_document (n : Option Int) : usageCount ((Ports.countArgument n : Argument F).document).sorted = n := by
  cases n <;> rfl

theorem usageOf_view (u : Usage) : usageOf (Json.object (Ports.viewMembers u) : Json F).sorted = u := by
  have distinct : ((Ports.viewMembers u : List (Str × Json F)).map Prod.fst).Nodup := by
    rw [Ports.viewMembers_keys]
    exact usageKeys_distinct
  have state : usageState (.string u.state.text.toList : Json F) = u.state := by
    cases u.state <;> rfl
  unfold usageOf
  simp only [member_sorted distinct]
  show Usage.mk (usageState (.string u.state.text.toList : Json F)) _ _ _ _ _ _ = u
  rw [state]
  show Usage.mk u.state (usageCount ((Ports.countArgument u.inputTokens : Argument F).document).sorted)
    (usageCount ((Ports.countArgument u.outputTokens : Argument F).document).sorted)
    (usageCount ((Ports.countArgument u.cachedInputTokens : Argument F).document).sorted)
    (usageCount ((Ports.countArgument u.cacheWriteTokens : Argument F).document).sorted)
    (usageCount ((Ports.countArgument u.reasoningTokens : Argument F).document).sorted)
    (usageCount ((Ports.countArgument u.totalTokens : Argument F).document).sorted) = u
  simp only [usageCount_document]

theorem childUsage_sorted {u : Usage} (sound : u.Sound) :
    childUsage D U (Json.object (usageMembers u)).sorted = .ok u := by
  obtain ⟨view, made⟩ := Ports.usageView_sound D U sound
  have decoded := (Ports.make_iff D U .usageView u.asdict view).1 made
  rw [Ports.withFormat_usage] at decoded
  have same : canonical D (withViewFormat (Json.sortMembers (usageMembers u)) : Json F) =
      canonical D (.object (Ports.viewMembers u)) := by
    rw [← Ports.canonical_sorted D (withViewFormat _), withViewFormat_sorted, Ports.canonical_sorted]
  obtain ⟨v, accepted, -, -, froze⟩ := (Ports.decodeLayout_ok D U).1 decoded
  rw [Json.sorted_object, childUsage, same, decoded]
  dsimp only
  rw [Ports.freeze_document froze, (bounded_canonical_iff D).1 accepted |>.1, usageOf_view]

/-! ### The displays -/

/-- A display as `output_document` makes it for a prepared registry. -/
structure Display.Plain (allowed : Finset (Str × Str)) (i : Nat) (d : Display) : Prop where
  numbered : d.suggestionRef = Suggestion.number i
  codes : d.uncertaintyCodes = ["NOT_EXECUTED"]
  crosses : d.Crosses allowed

theorem mapM_strings (strings : List Str) : (strings.map Json.string : List (Json F)).mapM text? = some strings := by
  induction strings with
  | nil => rfl
  | cons s rest ih =>
      rw [List.map_cons, List.mapM_cons, ih]
      rfl

theorem sortedItems_strings (strings : List Str) :
    Json.sortedItems (strings.map Json.string : List (Json F)) = strings.map Json.string := by
  rw [Json.sortedItems_eq, List.map_map]
  rfl

theorem childDisplay_document {i : Nat} {seen : List (List Str)} {d : Display} (plain : d.Plain allowed i)
    (fresh : d.references ∉ seen) : childDisplay allowed i seen (d.document : Json F).sorted = .ok d := by
  obtain ⟨number, text, refs, codes⟩ := d
  obtain ⟨numbered, coded, crosses⟩ := plain
  dsimp only at numbered coded fresh
  subst numbered coded
  have keys : (["suggestion_ref", "text", "references", "uncertainty_codes"].map String.toList).Nodup := by decide
  have reads := member_document (v := (Display.document ⟨Suggestion.number i, text, refs, ["NOT_EXECUTED"]⟩ : Json F)) rfl rfl keys
  have number_ := reads "suggestion_ref"
  have text_ := reads "text"
  have refs_ := reads "references"
  have codes_ := reads "uncertainty_codes"
  have tuple_ : (tuple? (Json.array (refs.map Json.string) : Json F).sorted).bind (fun items => items.mapM text?) = some refs := by
    show (Json.sortedItems (refs.map Json.string : List (Json F))).mapM text? = some refs
    rw [sortedItems_strings, mapM_strings]
  rw [childDisplay, seq_ok]
  refine ⟨fields_sorted rfl, ?_⟩
  rw [seq_ok, require_ok]
  refine ⟨congrArg text? number_, ?_⟩
  rw [bind_ok]
  refine ⟨_, array_ok.2 ⟨codes_, Nat.le_refl 1, Nat.le_refl 1⟩, ?_⟩
  rw [seq_ok, require_ok]
  refine ⟨rfl, ?_⟩
  rw [bind_ok]
  refine ⟨refs, given_ok.2 ((congrArg (fun v => (tuple? v).bind fun items => items.mapM text?) refs_).trans tuple_), ?_⟩
  have textRead : text? (member (Display.document ⟨Suggestion.number i, text, refs, ["NOT_EXECUTED"]⟩ : Json F).sorted "text") =
      some text.toList := congrArg text? text_
  rw [textRead]
  rcases crosses with ⟨rfl, pair⟩ | ⟨rfl, pair⟩
  · have review : some "Suggested for human review. Not executed.".toList = some Kind.reviewCandidate.sentence.toList := rfl
    rw [if_pos review, seq_ok, require_ok, seq_ok, require_ok]
    exact ⟨pair, fresh, rfl⟩
  · rw [if_neg (by decide), seq_ok, require_ok, seq_ok, require_ok]
    exact ⟨⟨rfl, pair⟩, fresh, rfl⟩

theorem childDisplays_documents {i : Nat} {seen : List (List Str)} {display : List Display}
    (plain : ∀ (j : Nat) (d : Display), display[j]? = some d → d.Plain allowed (i + j)) (once : (display.map Display.references).Nodup)
    (fresh : ∀ d ∈ display, d.references ∉ seen) :
    childDisplays allowed i seen (display.map fun d => (d.document : Json F).sorted) = .ok display := by
  induction display generalizing i seen with
  | nil => rfl
  | cons d rest ih =>
      rw [List.map_cons, List.nodup_cons] at once
      obtain ⟨first, others⟩ := List.forall_mem_cons.1 fresh
      rw [List.map_cons, childDisplays, bind_ok]
      refine ⟨d, childDisplay_document (plain 0 d rfl) first, ?_⟩
      rw [bind_ok]
      refine ⟨rest, ih (fun j e there => ?_) once.2 (fun e mem => ?_), rfl⟩
      · have later := plain (j + 1) e there
        rwa [show i + (j + 1) = i + 1 + j by omega] at later
      · rw [List.mem_cons, not_or]
        refine ⟨fun same => ?_, others e mem⟩
        exact once.1 (same ▸ List.mem_map_of_mem mem)

/-! ### The room it takes -/

/-- A value that takes at most so many bytes, values and levels. -/
structure Fits (bytes values levels : Nat) (v : Json F) : Prop where
  distinct : v.Distinct
  short : v.Short
  size : canonicalSize D v ≤ bytes
  values : v.values ≤ values
  height : v.height ≤ levels

theorem size_closeString_le (s : Str) : size (closeString s) ≤ 6 * s.length + 1 := by
  induction s with
  | nil => decide
  | cons c rest ih =>
      have first := size_escapeChar c
      rw [closeString, size_append, List.length_cons]
      omega

theorem fits_string {s : Str} {n : Nat} (short : s.length ≤ n) : Fits D (6 * n + 2) 1 0 (.string s : Json F) := by
  have closed := size_closeString_le s
  refine ⟨trivial, trivial, ?_, Nat.le_refl 1, Nat.le_refl 0⟩
  show 1 + size (closeString s) ≤ 6 * n + 2
  omega

theorem fits_array {items : List (Json F)} {count bytes values levels : Nat} (few : items.length ≤ count)
    (each : ∀ v ∈ items, Fits D bytes values levels v) :
    Fits D (2 + count * (bytes + 1)) (1 + count * values) (levels + 1) (.array items) := by
  have sizes := Ports.sum_map_le (f := fun v => canonicalSize D v + 1) (n := bytes + 1)
    fun v mem => Nat.succ_le_succ (each v mem).size
  have counts := Ports.sum_map_le (f := Json.values) (n := values) fun v mem => (each v mem).values
  have total : Json.itemsValues items = (items.map Json.values).sum := by
    induction items with
    | nil => rfl
    | cons v rest ih =>
        have others := ih (Nat.le_of_succ_le few) (fun w mem => each w (List.mem_cons_of_mem v mem))
          (Ports.sum_map_le fun w mem => Nat.succ_le_succ (each w (List.mem_cons_of_mem v mem)).size)
          (Ports.sum_map_le fun w mem => (each w (List.mem_cons_of_mem v mem)).values)
        rw [Json.itemsValues, others, List.map_cons, List.sum_cons]
  refine ⟨(Json.distinctItems_iff items).2 fun v mem => (each v mem).distinct, ?_, ?_, ?_, ?_⟩
  · show Json.ShortItems items
    clear sizes counts total few
    induction items with
    | nil => trivial
    | cons v rest ih =>
        exact ⟨(each v List.mem_cons_self).short, ih fun w mem => each w (List.mem_cons_of_mem v mem)⟩
  · rw [canonicalSize]
    split
    · exact Nat.le_add_right 2 _
    · rw [itemsSize_eq]
      have more := Nat.mul_le_mul_right (bytes + 1) few
      omega
  · show 1 + Json.itemsValues items ≤ _
    rw [total]
    have more := Nat.mul_le_mul_right values few
    omega
  · exact Ports.itemsHeight_le fun v mem => (each v mem).height

/-- The keys of an object are distinct, its members fit, and its bytes are counted. -/
theorem fits_object {members : List (Str × Json F)} {bytes values levels total : Nat} (keys : (members.map Prod.fst).Nodup)
    (each : ∀ m ∈ members, ∃ n, Fits D n values levels m.2) (counted : canonicalSize D (.object members) ≤ bytes)
    (enough : 1 + members.length * values ≤ total) : Fits D bytes total (levels + 1) (.object members) := by
  have counts := Ports.sum_map_le (f := fun m : Str × Json F => m.2.values) (n := values) fun m mem => by
    obtain ⟨n, fits⟩ := each m mem
    exact fits.values
  refine ⟨⟨keys, (Json.distinctMembers_iff members).2 fun m mem => ?_⟩, (Json.shortMembers_iff members).2 fun m mem => ?_,
    counted, ?_, (Json.membersHeight_le_iff members _).2 fun m mem => ?_⟩
  · obtain ⟨n, fits⟩ := each m mem
    exact fits.distinct
  · obtain ⟨n, fits⟩ := each m mem
    exact fits.short
  · show 1 + Json.membersValues members ≤ _
    rw [Json.membersValues_eq]
    omega
  · obtain ⟨n, fits⟩ := each m mem
    exact Nat.succ_le_succ fits.height

theorem Fits.mono {bytes values levels bytes' values' levels' : Nat} {v : Json F} (fits : Fits D bytes values levels v)
    (more : bytes ≤ bytes') (more' : values ≤ values') (more'' : levels ≤ levels') : Fits D bytes' values' levels' v :=
  ⟨fits.distinct, fits.short, fits.size.trans more, fits.values.trans more', fits.height.trans more''⟩

/-- What a display says is short. -/
structure Display.Short (d : Display) : Prop where
  number : d.suggestionRef.length ≤ 4
  text : d.text.toList.length ≤ 64
  few : d.references.length ≤ 2
  refs : ∀ r ∈ d.references, r.length ≤ 34
  codes : d.uncertaintyCodes = ["NOT_EXECUTED"]

theorem display_fits {d : Display} (short : d.Short) : Fits D 1000 13 2 (d.document : Json F) := by
  obtain ⟨number, text, refs, codes⟩ := d
  obtain ⟨number_, text_, few, refs_, coded⟩ := short
  dsimp only at number_ text_ few refs_ coded
  subst coded
  have one := fits_string D number_
  have two := fits_string D text_
  have three : Fits D (2 + 2 * (206 + 1)) (1 + 2 * 1) (0 + 1) (.array (refs.map Json.string)) := by
    refine fits_array D (by rwa [List.length_map]) fun v mem => ?_
    obtain ⟨r, listed, rfl⟩ := List.mem_map.1 mem
    exact fits_string D (refs_ r listed)
  have four : Fits D (2 + 1 * (74 + 1)) (1 + 1 * 1) (0 + 1) (.array [.string "NOT_EXECUTED".toList]) :=
    fits_array D (Nat.le_refl 1) fun v mem => by
      rw [List.mem_singleton.1 mem]
      exact fits_string D (show "NOT_EXECUTED".toList.length ≤ 12 by decide)
  have distinct : (["suggestion_ref", "text", "references", "uncertainty_codes"].map String.toList).Nodup := by decide
  unfold Display.document
  refine @fits_object F D _ 1000 3 1 13 ?_ ?_ ?_ (Nat.le_refl _)
  · exact distinct
  · refine List.forall_mem_cons.2 ⟨⟨_, one.mono D (Nat.le_refl _) (by decide) (by decide)⟩, List.forall_mem_cons.2
      ⟨⟨_, two.mono D (Nat.le_refl _) (by decide) (by decide)⟩, List.forall_mem_cons.2
      ⟨⟨_, three⟩, List.forall_mem_singleton.2 ⟨_, four.mono D (Nat.le_refl _) (by decide) (by decide)⟩⟩⟩⟩
  · have keys : size (closeString "suggestion_ref".toList) = 15 ∧ size (closeString "text".toList) = 5 ∧
        size (closeString "references".toList) = 11 ∧ size (closeString "uncertainty_codes".toList) = 18 := by
      decide
    have sizes := And.intro one.size (And.intro two.size (And.intro three.size four.size))
    show 1 + ((1 + size (closeString "suggestion_ref".toList) + 1 + canonicalSize D (.string number) + 1) +
      ((1 + size (closeString "text".toList) + 1 + canonicalSize D (.string text.toList) + 1) +
      ((1 + size (closeString "references".toList) + 1 + canonicalSize D (.array (refs.map Json.string)) + 1) +
      ((1 + size (closeString "uncertainty_codes".toList) + 1 + canonicalSize D (.array [.string "NOT_EXECUTED".toList]) + 1) +
        0)))) ≤ 1000
    omega

theorem usage_fits {u : Usage} (sound : u.Sound) : Fits D 700 9 1 (.object (usageMembers u) : Json F) := by
  have small (m : Str × Json F) (mem : m ∈ usageMembers u) : size (closeString m.1) ≤ 40 ∧ Ports.Small m.2 :=
    Ports.viewMembers_small sound m (List.mem_cons_of_mem _ mem)
  have bounds (m : Str × Json F) (mem : m ∈ usageMembers u) := (small m mem).2.bounds D
  have keys : ((usageMembers u : List (Str × Json F)).map Prod.fst).Nodup := usageKeys_distinct.of_cons
  refine @fits_object F D _ 700 1 0 9 keys (fun m mem => ⟨41, ?_⟩) ?_ (Nat.le_refl _)
  · obtain ⟨distinct, short, height, values, size_⟩ := bounds m mem
    exact ⟨distinct, short, size_, values.le, height.le⟩
  · show 1 + Proposals.membersSize D (usageMembers u) ≤ 700
    rw [membersSize_eq]
    have total := Ports.sum_map_le (l := (usageMembers u : List (Str × Json F))) (n := 84)
      (f := fun m => 1 + size (closeString m.1) + 1 + canonicalSize D m.2 + 1) fun m mem => by
        have key := (small m mem).1
        have value := (bounds m mem).2.2.2.2
        omega
    have eight : (usageMembers u : List (Str × Json F)).length = 8 := rfl
    rw [eight] at total
    omega

theorem textOrNull_fits {o : Option String} {n : Nat} (short : ∀ s ∈ o, s.toList.length ≤ n) :
    Fits D (6 * n + 4) 1 0 (textOrNull o : Json F) := by
  cases o with
  | none => exact ⟨trivial, trivial, Nat.le_add_left 4 _, Nat.le_refl 1, Nat.le_refl 0⟩
  | some s => exact (fits_string D (short s rfl)).mono D (by omega) (Nat.le_refl 1) (Nat.le_refl 0)

theorem outcome_fits {o : ProposalOutcome} (sound : o.usage.Sound) (few : o.display.length ≤ 4)
    (short : ∀ d ∈ o.display, d.Short) : Fits D 8191 1024 6 (o.document : Json F) := by
  obtain ⟨code, delivery, usage, display, refusal⟩ := o
  dsimp only at sound few short
  have one : Fits D (6 * 24 + 4) 1 0 (textOrNull (code.map Code.text) : Json F) := by
    refine textOrNull_fits D fun s mem => ?_
    obtain ⟨c, -, rfl⟩ := Option.mem_map.1 mem
    cases c <;> decide
  have two : Fits D (6 * 9 + 2) 1 0 (.string delivery.text.toList : Json F) := by
    refine fits_string D ?_
    cases delivery <;> decide
  have three := usage_fits D (F := F) sound
  have four : Fits D (2 + 4 * (1000 + 1)) (1 + 4 * 13) (2 + 1) (.array (display.map Display.document)) := by
    refine fits_array D (by rwa [List.length_map]) fun v mem => ?_
    obtain ⟨d, listed, rfl⟩ := List.mem_map.1 mem
    exact display_fits D (short d listed)
  have five : Fits D (6 * 24 + 4) 1 0 (textOrNull (refusal.map Refusal.text) : Json F) := by
    refine textOrNull_fits D fun s mem => ?_
    obtain ⟨c, -, rfl⟩ := Option.mem_map.1 mem
    cases c <;> decide
  have six : Fits D (6 * 9 + 2) 1 0 (.string "synthetic".toList : Json F) := fits_string D (by decide)
  have distinct : (["code", "delivery", "usage", "display", "refusal_code", "measurement_kind"].map String.toList).Nodup := by
    decide
  have whole : Fits D 8191 (1 + 6 * 53) (3 + 1) (ProposalOutcome.document ⟨code, delivery, usage, display, refusal⟩ : Json F) := by
    unfold ProposalOutcome.document
    refine @fits_object F D _ 8191 53 3 _ ?_ ?_ ?_ (Nat.le_refl _)
    · exact distinct
    · refine List.forall_mem_cons.2 ⟨⟨_, one.mono D (Nat.le_refl _) (by decide) (by decide)⟩, List.forall_mem_cons.2
        ⟨⟨_, two.mono D (Nat.le_refl _) (by decide) (by decide)⟩, List.forall_mem_cons.2
        ⟨⟨_, three.mono D (Nat.le_refl _) (by decide) (by decide)⟩, List.forall_mem_cons.2 ⟨⟨_, four⟩, List.forall_mem_cons.2
        ⟨⟨_, five.mono D (Nat.le_refl _) (by decide) (by decide)⟩, List.forall_mem_singleton.2
        ⟨_, six.mono D (Nat.le_refl _) (by decide) (by decide)⟩⟩⟩⟩⟩⟩
    · have keys : size (closeString "code".toList) = 5 ∧ size (closeString "delivery".toList) = 9 ∧
          size (closeString "usage".toList) = 6 ∧ size (closeString "display".toList) = 8 ∧
          size (closeString "refusal_code".toList) = 13 ∧ size (closeString "measurement_kind".toList) = 17 := by
        decide
      have sizes := And.intro one.size (And.intro two.size (And.intro three.size (And.intro four.size
        (And.intro five.size six.size))))
      show 1 + ((1 + size (closeString "code".toList) + 1 + canonicalSize D (textOrNull (code.map Code.text)) + 1) +
        ((1 + size (closeString "delivery".toList) + 1 + canonicalSize D (.string delivery.text.toList) + 1) +
        ((1 + size (closeString "usage".toList) + 1 + canonicalSize D (.object (usageMembers usage)) + 1) +
        ((1 + size (closeString "display".toList) + 1 + canonicalSize D (.array (display.map Display.document)) + 1) +
        ((1 + size (closeString "refusal_code".toList) + 1 + canonicalSize D (textOrNull (refusal.map Refusal.text)) + 1) +
        ((1 + size (closeString "measurement_kind".toList) + 1 + canonicalSize D (.string "synthetic".toList) + 1) +
          0)))))) ≤ 8191
      omega
  exact whole.mono D (Nat.le_refl _) (by decide) (by decide)

/-- A line break behind a document changes nothing. -/
theorem bounded_line {maximum depth nodes : Nat} {raw : Bytes} {v : Json F} (bounded : Bounded D ⟨maximum, depth, nodes⟩ raw v) :
    Bounded D ⟨maximum + 1, depth, nodes⟩ (raw ++ [10]) v := by
  obtain ⟨size_, ⟨before, text, after, rfl, space, space', written⟩, object, distinct, height, values⟩ := bounded
  refine ⟨?_, ⟨before, text, after ++ ['\n'], ?_, space, space'.append ?_, written⟩, object, distinct, height, values⟩
  · rw [List.length_append]
    exact Nat.succ_le_succ size_
  · rw [← List.append_assoc]
    show utf8 (before ++ text ++ after) ++ [10] = (before ++ text ++ after ++ ['\n']).flatMap String.utf8EncodeChar
    rw [List.flatMap_append]
    rfl
  · intro c mem
    rw [List.mem_singleton.1 mem]
    rfl

theorem serialize_parsed {o : ProposalOutcome} (fits : Fits D 8191 1024 6 (o.document : Json F)) :
    boundedJson D ⟨8192, 6, 1024⟩ .outputLimit (serialize D o) = .ok (o.document : Json F).sorted := by
  refine (boundedJson_iff D _ _).2 (bounded_line D ((bounded_canonical_iff D).2 ⟨rfl, rfl, fits.distinct, fits.short, ?_,
    fits.height, fits.values⟩))
  rw [canonical_length]
  exact fits.size

/-! ### The whole outcome -/

theorem textOrNull_sorted (o : Option String) : (textOrNull o : Json F).sorted = textOrNull o := by
  cases o <;> rfl

theorem nullable_text {α : Type} {choices : List α} {text : α → String} (all : ∀ a, a ∈ choices)
    (apart : ∀ a ∈ choices, ∀ b ∈ choices, text b = text a → b = a) (o : Option α) :
    nullable (textOrNull (o.map text) : Json F) (fun v => choice v choices text .malformedOutput) = .ok o := by
  cases o with
  | none => rfl
  | some a =>
      show Except.map some (choice (.string (text a).toList : Json F) choices text .malformedOutput) = _
      rw [choice_text (all a) (apart a (all a))]
      rfl

theorem Code.text_apart : ∀ a ∈ Code.all, ∀ b ∈ Code.all, b.text = a.text → b = a := by decide

theorem Delivery.text_apart : ∀ a ∈ Delivery.all, ∀ b ∈ Delivery.all, b.text = a.text → b = a := by decide

theorem Refusal.mem_all (code : Refusal) : code ∈ Refusal.all := by cases code <;> decide

theorem Refusal.text_apart : ∀ a ∈ Refusal.all, ∀ b ∈ Refusal.all, b.text = a.text → b = a := by decide

/-- **What a child may say comes across.** -/
theorem childOutcome_document {o : ProposalOutcome} (sound : o.usage.Sound) (few : o.display.length ≤ 4)
    (short : ∀ d ∈ o.display, d.Short)
    (plain : ∀ (j : Nat) (d : Display), o.display[j]? = some d → d.Plain allowed (1 + j))
    (once : (o.display.map Display.references).Nodup)
    (form : (o.code = none ∧ o.refusalCode = none ∧ o.display ≠ []) ∨ (o.display = [] ∧
      (o.refusalCode = none ∨ (o.code = some .providerRefusal ∧ o.refusalCode = some .safetyRefusal)))) :
    childOutcome D U allowed (serialize D o) = .ok o := by
  have keys : (["code", "delivery", "usage", "display", "refusal_code", "measurement_kind"].map String.toList).Nodup := by
    decide
  have reads := member_document (v := (o.document : Json F)) rfl rfl keys
  have code_ : member (o.document : Json F).sorted "code" = textOrNull (o.code.map Code.text) :=
    (reads "code").trans (textOrNull_sorted _)
  have delivery_ : member (o.document : Json F).sorted "delivery" = .string o.delivery.text.toList := reads "delivery"
  have usage_ : member (o.document : Json F).sorted "usage" = (Json.object (usageMembers o.usage)).sorted := reads "usage"
  have display_ : member (o.document : Json F).sorted "display" =
      .array (o.display.map fun d => (d.document : Json F).sorted) := by
    refine (reads "display").trans ?_
    show Json.array (Json.sortedItems (o.display.map Display.document)) = _
    rw [Json.sortedItems_eq, List.map_map]
    rfl
  have refusal_ : member (o.document : Json F).sorted "refusal_code" = textOrNull (o.refusalCode.map Refusal.text) :=
    (reads "refusal_code").trans (textOrNull_sorted _)
  have kind_ : member (o.document : Json F).sorted "measurement_kind" = .string "synthetic".toList := reads "measurement_kind"
  rw [childOutcome, bind_ok]
  refine ⟨_, serialize_parsed D (outcome_fits D sound few short), ?_⟩
  rw [seq_ok]
  refine ⟨fields_sorted rfl, ?_⟩
  rw [code_, delivery_, usage_, display_, refusal_, kind_, seq_ok, require_ok]
  refine ⟨rfl, ?_⟩
  rw [nullable_text Code.mem_all Code.text_apart, bind_ok]
  refine ⟨o.code, rfl, ?_⟩
  rw [choice_text (Delivery.mem_all _) (Delivery.text_apart _ (Delivery.mem_all _)), bind_ok]
  refine ⟨o.delivery, rfl, ?_⟩
  rw [childUsage_sorted D U sound, bind_ok]
  refine ⟨o.usage, rfl, ?_⟩
  rw [bind_ok]
  refine ⟨_, array_ok.2 ⟨rfl, Nat.zero_le _, by rwa [List.length_map]⟩, ?_⟩
  rw [childDisplays_documents plain once (fun _ _ => List.not_mem_nil), bind_ok]
  refine ⟨o.display, rfl, ?_⟩
  rw [nullable_text Refusal.mem_all Refusal.text_apart, bind_ok]
  refine ⟨o.refusalCode, rfl, ?_⟩
  rw [seq_ok, require_ok]
  exact ⟨form, rfl⟩

end RoundTrip

/-! ## Prepared calls -/

section Prepared

variable {F : Type} (D : Floats F) (U : Decimals)

/-- What is known of the registry of a prepared call. -/
structure Prepared (ruleRef : Str) (inp : InputDocument) (allowed : Finset (Str × Str)) : Prop where
  rules : inp.rules.refs = [ruleRef]
  gaps : inp.gaps.items = []
  pairs : ∀ pair, pair ∈ allowed ↔ pair.1 ∈ inp.candidates.refs ∧ pair.2 = ruleRef

theorem strings_injective : Function.Injective (List.map (Json.string (F := F))) :=
  List.map_injective_iff.2 fun _ _ same => Json.string.inj same

theorem render_ok {callRef ruleRef claim : Str} {codes : List Applicability} {candidates : List (Str × Candidate)}
    {inp : InputDocument} {allowed : Finset (Str × Str)}
    (rendered : render D callRef ruleRef claim codes candidates = .ok (inp, allowed)) :
    Prepared ruleRef inp allowed ∧ inp.candidates.refs = candidates.map Prod.fst := by
  rw [render, bind_ok] at rendered
  obtain ⟨inp', accepted, same⟩ := rendered
  obtain ⟨rfl, rfl⟩ := Prod.mk.inj (Except.ok.inj same)
  obtain ⟨doc, parsed, names⟩ := inputDocument_names D accepted
  obtain ⟨rfl, -⟩ := (bounded_canonical_iff D).1 ((boundedJson_iff D _ _).1 parsed)
  have keys : (["protocol", "request_ref", "task", "candidates", "rules", "gaps"].map String.toList).Nodup := by
    decide
  have reads := member_document (v := (renderDocument callRef ruleRef claim codes candidates : Json F)) rfl rfl keys
  have candidates_ : listed (renderDocument callRef ruleRef claim codes candidates : Json F).sorted "candidates" =
      candidates.map fun c => .string c.1 := by
    have each (c : Str × Candidate) : member (Json.object [("ref".toList, .string c.1),
        ("shape".toList, .string c.2.shape.text.toList), ("actor_mode".toList, .string c.2.actorMode.text.toList)] : Json F).sorted
        "ref" = .string c.1 :=
      member_document rfl rfl (show (["ref", "shape", "actor_mode"].map String.toList).Nodup by decide) "ref"
    rw [listed, reads]
    show (Json.sortedItems (candidates.map _)).map _ = _
    rw [Json.sortedItems_eq, List.map_map, List.map_map]
    exact List.map_congr_left fun c _ => each c
  have rules_ : listed (renderDocument callRef ruleRef claim codes candidates : Json F).sorted "rules" = [.string ruleRef] := by
    have only := member_document (v := Json.object [("ref".toList, .string ruleRef), ("claim".toList, .string claim),
      ("applicability_codes".toList, .array (codes.map fun code => .string code.text.toList))] (F := F)) rfl rfl
      (show (["ref", "claim", "applicability_codes"].map String.toList).Nodup by decide) "ref"
    rw [listed, reads]
    exact congrArg (fun v => [v]) only
  have gaps_ : listed (renderDocument callRef ruleRef claim codes candidates : Json F).sorted "gaps" = [] := by
    rw [listed, reads]
    rfl
  have refs : inp'.candidates.refs = candidates.map Prod.fst := by
    refine strings_injective (F := F) ?_
    rw [← names.candidates, candidates_, List.map_map]
    rfl
  refine ⟨⟨strings_injective (F := F) ?_, ?_, fun pair => ?_⟩, refs⟩
  · rw [← names.rules, rules_]
    rfl
  · have none_ := names.gaps
    rw [gaps_] at none_
    exact List.map_eq_nil_iff.1 (List.map_eq_nil_iff.1 none_.symm)
  · rw [refs, List.mem_toFinset, List.mem_map, List.mem_map]
    constructor
    · rintro ⟨c, mem, rfl⟩
      exact ⟨⟨c, mem, rfl⟩, rfl⟩
    · rintro ⟨⟨c, mem, first⟩, second⟩
      exact ⟨c, mem, Prod.ext first second.symm⟩

variable {D} {ruleRef : Str} {inp : InputDocument} {allowed : Finset (Str × Str)}

theorem Prepared.gapless (prepared : Prepared ruleRef inp allowed) (ref : Str) : inp.gaps.items.lookup ref = none := by
  rw [prepared.gaps]
  rfl

theorem Prepared.no_gap (prepared : Prepared ruleRef inp allowed) (ref : Str) : ref ∉ inp.gaps.refs := by
  rw [Registry.refs, prepared.gaps]
  exact List.not_mem_nil

/-- A rule of a suggestion is the rule. -/
theorem Prepared.only_rule (prepared : Prepared ruleRef inp allowed) {rules : List Str} (some_ : 1 ≤ rules.length)
    (once : rules.Nodup) (known : ∀ r ∈ rules, r ∈ inp.rules.refs) : rules = [ruleRef] := by
  have same (r : Str) (mem : r ∈ rules) : r = ruleRef := by
    have inside := known r mem
    rw [prepared.rules] at inside
    exact List.mem_singleton.1 inside
  cases rules with
  | nil => exact absurd some_ (by decide)
  | cons r rest =>
      obtain rfl := same r List.mem_cons_self
      cases rest with
      | nil => rfl
      | cons t more =>
          rw [same t (List.mem_cons_of_mem _ List.mem_cons_self)] at once
          exact absurd List.mem_cons_self (List.nodup_cons.1 once).1

theorem Prepared.plain (prepared : Prepared ruleRef inp allowed) (some_ : inp.candidates.refs ≠ []) {doc : Json F}
    {displays : List Display} {suggestions : List Suggestion} (confined : Confined inp allowed doc displays suggestions)
    {j : Nat} {d : Display} (there : displays[j]? = some d) : d.Plain allowed (1 + j) ∧ d.Short := by
  have mem := List.mem_of_getElem? there
  have coded : d.uncertaintyCodes = ["NOT_EXECUTED"] := by
    have codes := confined.uncertain d mem
    have none_ : (GapCode.all.filter fun code => d.references.any fun ref => inp.gaps.items.lookup ref == some code) = [] := by
      refine List.filter_eq_nil_iff.2 fun code _ found => ?_
      obtain ⟨ref, -, same⟩ := List.any_eq_true.1 found
      rw [prepared.gapless] at same
      cases same
    rwa [none_] at codes
  have numbered : d.suggestionRef = Suggestion.number (1 + j) ∧ (Suggestion.number (1 + j)).length ≤ 4 := by
    have inside : j < displays.length := (List.getElem?_eq_some_iff.1 there).1
    have few := confined.count
    obtain ⟨s, listed, same⟩ := number_listed (i := 1 + j) (by omega) (by omega)
    constructor
    · rw [confined.displayed, List.getElem?_mapIdx, Option.map_eq_some_iff] at there
      obtain ⟨t, -, rfl⟩ := there
      rw [Nat.add_comm 1 j]
      rfl
    · have short : ∀ s ∈ ["s_1", "s_2", "s_3", "s_4"], s.toList.length ≤ 4 := by decide
      rw [same]
      exact short s listed
  have length {kind : Char} {ref : Str} (handle : isHandle kind ref = true) : ref.length ≤ 34 := (isHandle_length handle).le
  have rule : ruleRef.length ≤ 34 := length (inp.rules.handle (prepared.rules ▸ List.mem_singleton.2 rfl))
  have sentence (kind : Kind) : kind.sentence.toList.length ≤ 64 := by cases kind <;> decide
  have backed := confined.backed d mem
  cases backed with
  | review known shape actor some_ few once pairs =>
      obtain rfl := prepared.only_rule some_ once fun r mem => (pairs r mem).1
      refine ⟨⟨numbered.1, coded, .inl ⟨rfl, _, (pairs _ (List.mem_singleton.2 rfl)).2, rfl⟩⟩,
        ⟨numbered.1 ▸ numbered.2, sentence .reviewCandidate, Nat.le_refl 2, ?_, coded⟩⟩
      exact List.forall_mem_cons.2 ⟨length (inp.candidates.handle (List.mem_map_of_mem known)), List.forall_mem_singleton.2 rule⟩
  | @input number gaps codes some_ few once known =>
      obtain ⟨g, mem⟩ := List.exists_mem_of_length_pos some_
      exact absurd (known g mem) (prepared.no_gap g)
  | rule known =>
      rw [prepared.rules, List.mem_singleton] at known
      subst known
      obtain ⟨c, mem⟩ := List.exists_mem_of_ne_nil _ some_
      refine ⟨⟨numbered.1, coded, .inr ⟨rfl, (c, _), (prepared.pairs _).2 ⟨mem, rfl⟩, rfl⟩⟩,
        ⟨numbered.1 ▸ numbered.2, sentence .explainRule, Nat.le_succ 1, List.forall_mem_singleton.2 rule, coded⟩⟩

/-- Two suggestions with the same references are the same. -/
theorem Prepared.references_inj (prepared : Prepared ruleRef inp allowed) {s t : Suggestion} (admissible : s.Admissible inp allowed)
    (admissible' : t.Admissible inp allowed) (same : s.references = t.references) : s = t := by
  have form {s : Suggestion} (admissible : s.Admissible inp allowed) :
      (∃ ref, s = ⟨.reviewCandidate, some ref, [ruleRef], []⟩) ∨ s = ⟨.explainRule, none, [ruleRef], []⟩ := by
    obtain ⟨kind, candidate, rules, gaps⟩ := s
    obtain ⟨⟨rulesOnce, rules_⟩, ⟨-, gaps_⟩, referenced⟩ := admissible
    cases kind with
    | reviewCandidate =>
        obtain ⟨ref, c, rfl, -, -, -, some_, -, rfl, -⟩ := referenced
        have only : rules = [ruleRef] := prepared.only_rule some_ rulesOnce rules_
        exact .inl ⟨ref, by rw [only]⟩
    | requestInput =>
        obtain ⟨-, -, some_, -⟩ := referenced
        obtain ⟨g, mem⟩ := List.exists_mem_of_length_pos some_
        exact absurd (gaps_ g mem) (prepared.no_gap g)
    | explainRule =>
        obtain ⟨rfl, one, rfl⟩ := referenced
        have only : rules = [ruleRef] := prepared.only_rule one.ge rulesOnce rules_
        exact .inr (by rw [only])
  rcases form admissible with ⟨ref, rfl⟩ | rfl <;> rcases form admissible' with ⟨ref', rfl⟩ | rfl
  · obtain rfl : ref = ref' := (List.cons.inj same).1
    rfl
  · cases (List.cons.inj same).2
  · cases (List.cons.inj same).2
  · rfl

/-- **What a prepared call may bring comes across.**  `prepare_v1` renders a call for two
candidates. -/
theorem childOutcome_serialize (prepared : Prepared ruleRef inp allowed) (some_ : inp.candidates.refs ≠ []) {raw : Bytes}
    {doc : Json F} {displays : List Display} (output : outputDocument D inp allowed raw = .ok (doc, displays)) {usage : Usage}
    (sound : usage.Sound) (delivery : Delivery) :
    childOutcome D U allowed (serialize D (proposed doc displays delivery usage)) = .ok (proposed doc displays delivery usage) := by
  obtain ⟨suggestions, confined⟩ := outputDocument_ok D output
  have once : (displays.map Display.references).Nodup := by
    have same : displays.map Display.references = suggestions.map Suggestion.references := by
      rw [confined.displayed]
      refine List.ext_getElem (by simp) fun j _ _ => ?_
      rw [List.getElem_map, List.getElem_mapIdx, List.getElem_map]
      rfl
    rw [same]
    exact (List.Nodup.of_map _ confined.distinct).map_on fun s mem t mem' =>
      prepared.references_inj (confined.admissible s mem) (confined.admissible t mem')
  refine childOutcome_document D U sound confined.count (fun d mem => ?_) (fun j d there => (prepared.plain some_ confined there).1)
    once ?_
  · obtain ⟨j, there⟩ := List.mem_iff_getElem?.1 mem
    exact (prepared.plain some_ confined there).2
  · have status := confined.conforms
    obtain ⟨members, rfl, -, properties⟩ := status
    have status := (Schema.conformProperties_iff.1 properties ("status".toList, enumSchema ["suggestions", "refusal"] false)
      (by simp)).2
    obtain ⟨no, -⟩ | ⟨s, listed, written⟩ := status
    · cases no
    rw [List.map_cons, List.map_cons, List.map_nil, List.mem_cons, List.mem_singleton] at listed
    rcases listed with rfl | rfl
    · obtain ⟨shown, null⟩ := confined.answered written
      refine .inl ⟨?_, ?_, shown⟩
      · rw [proposed]
        dsimp only
        rw [show member (Json.object members) "status" = _ from written]
        rfl
      · rw [proposed]
        dsimp only
        rw [null]
        rfl
    · obtain ⟨empty, code, refusal, backing⟩ := confined.refused written
      have safety : code = .safetyRefusal := by
        rcases backing with safety | ⟨gap, mem, -⟩
        · exact safety
        · rw [prepared.gaps] at mem
          cases mem
      refine .inr ⟨empty, .inr ⟨?_, ?_⟩⟩
      · rw [proposed]
        dsimp only
        rw [show member (Json.object members) "status" = _ from written]
        rfl
      · rw [proposed]
        dsimp only
        rw [refusal, safety]
        rfl

end Prepared

end ApiSecurityPlatform.Proposals
