/-
# Ports.Usage -- what the provider says a call used

`project_usage` makes a `Usage` of whatever a response carries: known counts that add up, or
no counts at all.  `_validate` has rules of its own for a `UsageView`; they ask for nothing
that a projection lacks (`usageView_projected`).
-/
import ApiSecurityPlatform.Ports.Identity
import Mathlib.Data.Nat.Digits.Defs

namespace ApiSecurityPlatform.Ports

open ApiSecurityPlatform.Theory
open ApiSecurityPlatform.Python
open ApiSecurityPlatform.Proposals (Bytes Code Floats Limits Bounded canonical canonicalSize canonical_length size
  bounded_canonical_iff)

set_option autoImplicit false

/-! ## `project_usage` -/

inductive UsageState where
  | known
  | unknown
  | invalid
deriving DecidableEq, Repr

def UsageState.text : UsageState → String
  | .known => "known"
  | .unknown => "unknown"
  | .invalid => "invalid"

/-- `Usage`, with its defaults; the mapping is always `USAGE_MAPPING`. -/
structure Usage where
  state : UsageState := .unknown
  inputTokens : Option Int := none
  outputTokens : Option Int := none
  cachedInputTokens : Option Int := none
  cacheWriteTokens : Option Int := none
  reasoningTokens : Option Int := none
  totalTokens : Option Int := none
deriving DecidableEq, Repr

/-- `require(condition, code)`, where the code is caught below. -/
def need (condition : Prop) [Decidable condition] (code : Code) : Except Code Unit :=
  if condition then .ok () else .error code

@[simp]
theorem need_ok {condition : Prop} [Decidable condition] {code : Code} {u : Unit} :
    need condition code = .ok u ↔ condition := by
  unfold need
  split <;> simp_all

section Projection

variable {F : Type}

def isObject : Json F → Bool
  | .object _ => true
  | _ => false

/-- `type(count) is int and 0 <= count <= 2**63 - 1`. -/
def isCount : Json F → Bool
  | .number (.int n) => 0 ≤ n && n ≤ 2 ^ 63 - 1
  | _ => false

/-- The value of a member, or `None`. -/
def member (value : Json F) (name : String) : Json F := Json.get value.asMembers name.toList

/-- The body of the `try:`. -/
def readUsage (value : Json F) : Except Code Usage := do
  need (isObject value = true) .usageInvalid
  need ((["input_tokens", "output_tokens", "total_tokens", "input_tokens_details"].all fun name =>
    !(member value name).isNull) = true) .usageUnknown
  let detail := member value "input_tokens_details"
  need (isObject detail = true) .usageInvalid
  need ((["cached_tokens", "cache_write_tokens"].all fun name => !(member detail name).isNull) = true) .usageUnknown
  let i := member value "input_tokens"
  let o := member value "output_tokens"
  let total := member value "total_tokens"
  let c := member detail "cached_tokens"
  let w := member detail "cache_write_tokens"
  let outputDetail := member value "output_tokens_details"
  need (outputDetail.isNull = true ∨ isObject outputDetail = true) .usageInvalid
  let r := member outputDetail "reasoning_tokens"
  need (([i, o, total, c, w] ++ if r.isNull then [] else [r]).all isCount = true) .usageInvalid
  need (c.asInt + w.asInt ≤ i.asInt ∧ total.asInt = i.asInt + o.asInt ∧ (r.isNull = true ∨ r.asInt ≤ o.asInt))
    .usageInvalid
  pure ⟨.known, some i.asInt, some o.asInt, some c.asInt, some w.asInt, if r.isNull then none else some r.asInt,
    some total.asInt⟩

def projectUsage (value : Json F) (terminal : Bool) : Usage :=
  if terminal = false ∨ value.isNull = true then {}
  else
    match readUsage value with
    | .ok usage => usage
    | .error code => { state := if code = .usageUnknown then .unknown else .invalid }

end Projection

/-! ## `usage_view` -/

section View

variable {F : Type}

def countArgument : Option Int → Argument F
  | none => .null
  | some n => .number (.int n)

/-- `asdict(usage)`. -/
def Usage.asdict (u : Usage) : List (Str × Argument F) :=
  [("state".toList, .string u.state.text.toList), ("input_tokens".toList, countArgument u.inputTokens),
    ("output_tokens".toList, countArgument u.outputTokens),
    ("cached_input_tokens".toList, countArgument u.cachedInputTokens),
    ("cache_write_tokens".toList, countArgument u.cacheWriteTokens),
    ("reasoning_tokens".toList, countArgument u.reasoningTokens), ("total_tokens".toList, countArgument u.totalTokens),
    ("mapping".toList, .string usageMapping.toList)]

/-- `usage_view`. -/
def usageView (D : Floats F) (U : Decimals) (u : Usage) : Except PortCode Frozen := make D U .usageView u.asdict

end View

/-! ## What a projection is -/

def inRange (n : Int) : Prop := 0 ≤ n ∧ n ≤ 2 ^ 63 - 1

namespace Usage

/-- The counts of a `Usage`. -/
def counts (u : Usage) : List (Option Int) :=
  [u.inputTokens, u.outputTokens, u.cachedInputTokens, u.cacheWriteTokens, u.reasoningTokens, u.totalTokens]

/-- Known counts in range that add up, or no counts. -/
inductive Sound : Usage → Prop where
  | known {i o c w : Int} {r : Option Int} {total : Int} (ranges : ∀ n ∈ [i, o, c, w, total], inRange n)
      (reasoning : ∀ n ∈ r, inRange n ∧ n ≤ o) (cached : c + w ≤ i) (sum : i + o = total) :
      Sound ⟨.known, some i, some o, some c, some w, r, some total⟩
  | none {state : UsageState} (other : state ≠ .known) : Sound { state := state }

theorem Sound.ranges {u : Usage} (sound : u.Sound) : ∀ count ∈ u.counts, ∀ n ∈ count, inRange n := by
  cases sound with
  | known ranges reasoning cached sum =>
      simp only [List.mem_cons, List.not_mem_nil, or_false, forall_eq_or_imp, forall_eq] at ranges
      obtain ⟨i, o, c, w, total⟩ := ranges
      simp only [counts, List.mem_cons, List.not_mem_nil, or_false, forall_eq_or_imp, forall_eq, Option.mem_def,
        Option.some.injEq, forall_eq']
      exact ⟨i, o, c, w, fun n mem => (reasoning n mem).1, total⟩
  | none other => simp [counts]

end Usage

section Projection

variable {F : Type}

theorem isCount_iff {v : Json F} : isCount v = true ↔ ∃ n, v = .number (.int n) ∧ inRange n := by
  constructor
  · intro count
    unfold isCount at count
    split at count
    · next n =>
      rw [Bool.and_eq_true, decide_eq_true_eq, decide_eq_true_eq] at count
      exact ⟨n, rfl, count⟩
    · cases count
  · rintro ⟨n, rfl, low, high⟩
    rw [isCount, decide_eq_true low, decide_eq_true high]
    rfl

theorem readUsage_sound {value : Json F} {u : Usage} (read : readUsage value = .ok u) : u.Sound := by
  unfold readUsage at read
  simp only [bind_ok, need_ok] at read
  obtain ⟨-, -, -, -, -, -, -, -, -, -, -, counts, -, ⟨cached, sum, reasoning⟩, done⟩ := read
  obtain rfl := Except.ok.inj done
  rw [List.all_append, Bool.and_eq_true] at counts
  obtain ⟨five, sixth⟩ := counts
  simp only [List.all_cons, List.all_nil, Bool.and_true, Bool.and_eq_true] at five
  have asCount {v : Json F} (count : isCount v = true) : inRange v.asInt := by
    obtain ⟨n, rfl, range⟩ := isCount_iff.1 count
    exact range
  obtain ⟨i, o, total, c, w⟩ := five
  refine .known ?_ ?_ cached sum.symm
  · simp only [List.mem_cons, List.not_mem_nil, or_false, forall_eq_or_imp, forall_eq]
    exact ⟨asCount i, asCount o, asCount c, asCount w, asCount total⟩
  · intro n mem
    split at mem
    · cases mem
    · next some_ =>
      obtain rfl := Option.some.inj mem
      rw [if_neg some_, List.all_cons, List.all_nil, Bool.and_true] at sixth
      exact ⟨asCount sixth, reasoning.resolve_left some_⟩

/-- **Whatever the provider says**, the projection adds up or has no counts. -/
theorem projectUsage_sound (value : Json F) (terminal : Bool) : (projectUsage value terminal).Sound := by
  unfold projectUsage
  split
  · exact .none (by decide)
  · split
    · next read => exact readUsage_sound read
    · next code read =>
      refine .none ?_
      split <;> decide

end Projection

/-! ## The view -/

section View

variable {F : Type} (D : Floats F) (U : Decimals)

/-- The document of a `UsageView`. -/
def viewMembers (u : Usage) : List (Str × Json F) :=
  ("format".toList, .string (formatFor .usageView)) :: u.asdict.map fun m => (m.1, m.2.document)

theorem withFormat_usage (u : Usage) :
    (withFormat .usageView (u.asdict : List (Str × Argument F))).document = .object (viewMembers u) := rfl

/-- A value that takes little of the room. -/
def Small (v : Json F) : Prop :=
  v = .null ∨ (∃ n, inRange n ∧ v = .number (.int n)) ∨ ∃ s, size (closeString s) ≤ 40 ∧ v = .string s

theorem small_count {n : Option Int} (range : ∀ m ∈ n, inRange m) : Small (countArgument n : Argument F).document := by
  cases n with
  | none => exact .inl rfl
  | some n => exact .inr (.inl ⟨n, range n rfl, rfl⟩)

/-- A count is written with nineteen digits at most. -/
theorem count_size {n : Int} (range : inRange n) : size (intToken n).text = (intToken n).text.length ∧
    (intToken n).text.length ≤ 19 := by
  obtain ⟨low, high⟩ := range
  have plain : (intToken n).text = Nat.toDigits 10 n.natAbs := by
    rw [Number.int_text, if_neg (by omega), List.nil_append]
  rw [plain]
  refine ⟨Proposals.size_ascii fun c mem => ?_, Nat.toDigits_length 10 n.natAbs 19 (by decide) (by omega)⟩
  have digit := List.all_eq_true.1 (all_toDigits n.natAbs) c mem
  rw [isDigit, Bool.and_eq_true, decide_eq_true_eq, decide_eq_true_eq] at digit
  have high : c.toNat ≤ 57 := digit.2
  omega

theorem Small.bounds {v : Json F} (small : Small v) :
    v.Distinct ∧ v.Short ∧ v.height = 0 ∧ v.values = 1 ∧ canonicalSize D v ≤ 41 := by
  rcases small with rfl | ⟨n, range, rfl⟩ | ⟨s, short, rfl⟩
  · exact ⟨trivial, trivial, rfl, rfl, by show 4 ≤ 41; decide⟩
  · obtain ⟨same, digits⟩ := count_size range
    exact ⟨trivial, Nat.le_trans digits (by decide), rfl, rfl, Nat.le_trans (same.le.trans digits) (by decide)⟩
  · exact ⟨trivial, trivial, rfl, rfl, by show 1 + _ ≤ 41; omega⟩

def viewKeys : List Str :=
  ["format", "state", "input_tokens", "output_tokens", "cached_input_tokens", "cache_write_tokens", "reasoning_tokens",
    "total_tokens", "mapping"].map String.toList

theorem viewMembers_keys (u : Usage) : (viewMembers u : List (Str × Json F)).map Prod.fst = viewKeys := rfl

theorem viewMembers_small {u : Usage} (sound : u.Sound) :
    ∀ m ∈ (viewMembers u : List (Str × Json F)), size (closeString m.1) ≤ 40 ∧ Small m.2 := by
  have ranges := sound.ranges
  simp only [Usage.counts, List.mem_cons, List.not_mem_nil, or_false, forall_eq_or_imp, forall_eq] at ranges
  obtain ⟨i, o, c, w, r, total⟩ := ranges
  have keys : ∀ key ∈ viewKeys, size (closeString key) ≤ 40 := by decide
  have texts : size (closeString (formatFor .usageView)) ≤ 40 ∧ size (closeString usageMapping.toList) ≤ 40 ∧
      ∀ state : UsageState, size (closeString state.text.toList) ≤ 40 := by
    refine ⟨by decide, by decide, fun state => ?_⟩
    cases state <;> decide
  intro m mem
  refine ⟨keys _ (viewMembers_keys (F := F) u ▸ List.mem_map_of_mem mem), ?_⟩
  simp only [viewMembers, Usage.asdict, List.map_cons, List.map_nil, List.mem_cons, List.not_mem_nil, or_false] at mem
  rcases mem with rfl | rfl | rfl | rfl | rfl | rfl | rfl | rfl | rfl
  · exact .inr (.inr ⟨_, texts.1, rfl⟩)
  · exact .inr (.inr ⟨_, texts.2.2 u.state, rfl⟩)
  · exact small_count i
  · exact small_count o
  · exact small_count c
  · exact small_count w
  · exact small_count r
  · exact small_count total
  · exact .inr (.inr ⟨_, texts.2.1, rfl⟩)

theorem sum_map_le {α : Type} {l : List α} {f : α → Nat} {n : Nat} (each : ∀ a ∈ l, f a ≤ n) :
    (l.map f).sum ≤ l.length * n := by
  induction l with
  | nil => exact Nat.zero_le _
  | cons a rest ih =>
      obtain ⟨first, others⟩ := List.forall_mem_cons.1 each
      have bound := ih others
      rw [List.map_cons, List.sum_cons, List.length_cons, Nat.succ_mul]
      omega

/-- The canonical bytes of a sound view are read back. -/
theorem view_bounded {u : Usage} (sound : u.Sound) :
    Bounded D (limitsFor .usageView) (canonical D (.object (viewMembers u))) (Json.object (viewMembers u)).sorted := by
  have small := viewMembers_small (F := F) sound
  have nine : (viewMembers u : List (Str × Json F)).length = 9 := rfl
  refine (bounded_canonical_iff D).2 ⟨rfl, rfl, ⟨?_, ?_⟩, ?_, ?_, ?_, ?_⟩
  · rw [viewMembers_keys]
    decide
  · exact (Json.distinctMembers_iff _).2 fun m mem => ((small m mem).2.bounds D).1
  · exact (Json.shortMembers_iff _).2 fun m mem => ((small m mem).2.bounds D).2.1
  · rw [canonical_length]
    show 1 + Proposals.membersSize D (viewMembers u) ≤ 4096
    rw [Proposals.membersSize_eq]
    have total := sum_map_le (l := (viewMembers u : List (Str × Json F))) (n := 84)
      (f := fun m => 1 + size (closeString m.1) + 1 + canonicalSize D m.2 + 1) fun m mem => by
        obtain ⟨key, value⟩ := small m mem
        have bound := (value.bounds D).2.2.2.2
        omega
    rw [nine] at total
    omega
  · exact (Json.membersHeight_le_iff _ _).2 fun m mem => by
      rw [((small m mem).2.bounds D).2.2.1]
      decide
  · show 1 + Json.membersValues (viewMembers u) ≤ 512
    rw [Json.membersValues_eq]
    have total := sum_map_le (l := (viewMembers u : List (Str × Json F))) (n := 1) (f := fun m => m.2.values)
      fun m mem => ((small m mem).2.bounds D).2.2.2.1.le
    rw [nine] at total
    omega

theorem typed_count {n : Option Int} (range : ∀ m ∈ n, inRange m) :
    Typed D U (.nullable .n) (countArgument n : Argument F).document := by
  cases n with
  | none => exact .null _
  | some n =>
      obtain ⟨low, high⟩ := range n rfl
      refine .present (.leaf ?_)
      show Except.ok (decide (0 ≤ n) && decide (n ≤ 2 ^ 63 - 1)) = .ok true
      rw [decide_eq_true low, decide_eq_true high]
      rfl

theorem view_rules {get : String → Json F} (rule : usageRule get) :
    rules U .usageView (fun key => decide (key.toList ∈ viewKeys.tail)) get = .ok () := by
  have period : "valid_from".toList ∉ viewKeys.tail := by decide
  have gaps : "missing".toList ∉ viewKeys.tail := by decide
  unfold rules
  simp only [seq_ok, require_ok]
  exact ⟨fun has => (period (of_decide_eq_true has)).elim, (fun other => by cases other), (fun other => by cases other),
    (fun other => absurd other (by decide)), fun _ => rule, (fun other => by cases other), (fun other => by cases other),
    (fun other => by cases other), fun has => (gaps (of_decide_eq_true has)).elim⟩

theorem usageRule_sound {u : Usage} (sound : u.Sound) :
    usageRule fun key => Json.get (viewMembers u : List (Str × Json F)) key.toList := by
  unfold usageRule
  cases sound with
  | @known i o c w r total ranges reasoning cached sum =>
      dsimp only
      split
      · refine ⟨rfl, cached, sum, ?_⟩
        cases r with
        | none => exact .inl rfl
        | some r => exact .inr (reasoning r rfl).2
      · next other =>
        exact (other (show isText (.string "known".toList : Json F) "known" = true from beq_self_eq_true _)).elim
  | @none state other =>
      dsimp only
      split
      · next same =>
        cases state with
        | known => exact (other rfl).elim
        | unknown => cases same
        | invalid => cases same
      · rfl

theorem view_typed {u : Usage} (sound : u.Sound) : Typed D U (.record (.of .usageView)) (.object (viewMembers u)) := by
  have ranges := sound.ranges
  simp only [Usage.counts, List.mem_cons, List.not_mem_nil, or_false, forall_eq_or_imp, forall_eq] at ranges
  obtain ⟨i, o, c, w, r, total⟩ := ranges
  refine .record rfl (List.Subset.refl viewKeys) (List.Subset.refl viewKeys) ?_ (view_rules U (usageRule_sound sound))
  refine List.forall_mem_cons.2 ⟨.leaf ?_, List.forall_mem_cons.2 ⟨typed_count D U i, List.forall_mem_cons.2
    ⟨typed_count D U o, List.forall_mem_cons.2 ⟨typed_count D U c, List.forall_mem_cons.2 ⟨typed_count D U w,
      List.forall_mem_cons.2 ⟨typed_count D U r, List.forall_mem_cons.2 ⟨typed_count D U total,
        List.forall_mem_singleton.2 (.leaf ?_)⟩⟩⟩⟩⟩⟩⟩
  · show Except.ok (among Enum.usageState.values u.state.text.toList) = .ok true
    cases u.state <;> rfl
  · show Except.ok (usageMapping.toList == usageMapping.toList) = .ok true
    rw [beq_self_eq_true]

/-- Every sound usage has a view. -/
theorem usageView_sound {u : Usage} (sound : u.Sound) : ∃ view, usageView D U u = .ok view := by
  have bounded := view_bounded D sound
  have typed := (view_typed D U sound).sorted D U ((bounded_canonical_iff D).1 bounded).2.2.1
  obtain ⟨view, froze⟩ := typed.freezes D U bounded.distinct
  refine ⟨view, (make_iff D U .usageView u.asdict view).2 ?_⟩
  refine (decodeLayout_ok D U).2 ⟨_, bounded, typed, (nestedFields_ok D U).2 ?_, froze⟩
  -- no field of a view is a record
  have count (v : Json F) : nested D U (.nullable .n) v = .ok () := by
    rw [nested]
    split <;> rfl
  exact List.forall_mem_cons.2 ⟨rfl, List.forall_mem_cons.2 ⟨count _, List.forall_mem_cons.2 ⟨count _,
    List.forall_mem_cons.2 ⟨count _, List.forall_mem_cons.2 ⟨count _, List.forall_mem_cons.2 ⟨count _,
      List.forall_mem_cons.2 ⟨count _, List.forall_mem_singleton.2 rfl⟩⟩⟩⟩⟩⟩⟩

/-- **`usage_view` accepts every projection.** -/
theorem usageView_projected (value : Json F) (terminal : Bool) :
    ∃ view, usageView D U (projectUsage value terminal) = .ok view :=
  usageView_sound D U (projectUsage_sound value terminal)

end View

end ApiSecurityPlatform.Ports
