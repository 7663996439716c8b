/-
# Research.ObservationJson -- the decoder of observations

`BoundedJSON` reads a text like `bounded_json` does, with a rule of its own for numbers: an
integer of at most 19 characters between -2^63 and 2^63.  Its minus sign is a character too, so
the integers from -2^63 to -10^18 are refused (`narrow_iff`), and nothing else is: a text
without them is read exactly when it is JSON within the limits, and its value comes back from
its canonical bytes.
-/
import ApiSecurityPlatform.Proposals.Size
import ApiSecurityPlatform.Research.JsonReader

namespace ApiSecurityPlatform.Research.ObservationJson

open ApiSecurityPlatform.Theory
open ApiSecurityPlatform.Python
open ApiSecurityPlatform.Proposals
open ApiSecurityPlatform.Research.JsonReader

set_option autoImplicit false

structure ObservationError where
  code : String
  status : Nat
deriving DecidableEq

def shapeInvalid : ObservationError := ⟨"observation_shape_invalid", 422⟩

def inputLimit : ObservationError := ⟨"observation_input_limit", 413⟩

def encodingInvalid : ObservationError := ⟨"observation_encoding_invalid", 422⟩

def structureLimit : ObservationError := ⟨"observation_structure_limit", 413⟩

def duplicateKey : ObservationError := ⟨"observation_duplicate_key", 422⟩

def maxBytes : Nat := 262144

def maxDepth : Nat := 5

def maxNodes : Nat := 16384

/-- `INTEGER_TOKEN.match`: the token, and the rest. -/
def integerToken (s : Str) : Option (Str × Str) :=
  let sign := s.take (if s.head? = some '-' then 1 else 0)
  (matchInt (s.drop sign.length)).map fun (whole, rest) => (sign ++ whole, rest)

section

variable {F : Type}

/-- The last lines of `value`. -/
def readInteger (s : Str) : Option (Number F × Str) :=
  match integerToken s with
  | none => none
  | some (token, rest) =>
      if 19 < token.length then none
      else if ¬ (-(2 ^ 63) ≤ tokenInt token ∧ tokenInt token < 2 ^ 63) then none
      else some (.int (tokenInt token), rest)

/-- `BoundedJSON`. -/
def boundedJSON : Rules ObservationError F where
  malformed := shapeInvalid
  duplicate := duplicateKey
  limit := structureLimit
  room n := n ≤ maxNodes
  number := readInteger

/-- `BoundedJSON(raw).parse()`. -/
def parse (raw : Bytes) : Except (Halt ObservationError) (Json F) := do
  refuse (maxBytes < raw.length) (.raised inputLimit)
  match decodeStrict raw with
  | none => .error (.raised encodingInvalid)
  | some text => boundedJSON.read (maxDepth + 1) text

/-! ## Integers -/

/-- A token of an integer, in its parts. -/
def WholeText (token : Str) : Prop :=
  ∃ sign whole, token = sign ++ whole ∧ (sign = [] ∨ sign = ['-']) ∧ IntText whole

theorem IntText.digits {whole : Str} (written : IntText whole) : whole.all isDigit = true := by
  rcases written with rfl | ⟨⟨-, all⟩, -⟩
  · decide
  · exact all

theorem integerToken_complete {token rest : Str} (written : WholeText token) (stops : NoDigit rest) :
    integerToken (token ++ rest) = some (token, rest) := by
  obtain ⟨sign, whole, rfl, signed, int⟩ := written
  have front : (sign ++ (whole ++ rest)).take (if (sign ++ (whole ++ rest)).head? = some '-' then 1 else 0) =
      sign := by
    rcases signed with rfl | rfl
    · obtain ⟨c, more, rfl, digit⟩ := int.head
      have other : c ≠ '-' := by
        rintro rfl
        cases digit
      simp [other]
    · rfl
  rw [List.append_assoc, integerToken]
  simp only [front, List.drop_left, matchInt_complete int stops, Option.map_some]

theorem integerToken_sound {s token rest : Str} (matched : integerToken s = some (token, rest)) :
    s = token ++ rest ∧ WholeText token := by
  rw [integerToken] at matched
  obtain ⟨⟨whole, after⟩, int, same⟩ := Option.map_eq_some_iff.1 matched
  obtain ⟨rfl, rfl⟩ := Prod.mk.inj same
  obtain ⟨split_, written⟩ := matchInt_sound int
  refine ⟨?_, _, _, rfl, ?_, written⟩
  · rw [List.append_assoc, ← split_, List.prefix_iff_eq_append.1 (List.take_prefix _ _)]
  · cases s with
    | nil => exact .inl List.take_nil
    | cons c more =>
        by_cases minus : c = '-'
        · exact .inr (by rw [minus]; rfl)
        · exact .inl (by simp [minus])

theorem WholeText.number {token : Str} (written : WholeText token) :
    NumberText token ∧ isFloatToken token = false := by
  obtain ⟨sign, whole, rfl, signed, int⟩ := written
  refine ⟨⟨sign, whole, [], [], by simp, signed, int, .inl rfl, .inl rfl⟩, ?_⟩
  rw [isFloatToken, List.any_append, Bool.or_eq_false_iff]
  constructor
  · rcases signed with rfl | rfl <;> decide
  · refine List.any_eq_false.2 fun c mem => ?_
    have digit := List.all_eq_true.1 (IntText.digits int) c mem
    rw [Bool.or_eq_true, beq_iff_eq, isExponent_iff]
    rintro (rfl | rfl | rfl) <;> cases digit

theorem wholeText_of_number {token : Str} (written : NumberText token) (whole : isFloatToken token = false) :
    WholeText token := by
  obtain ⟨sign, digits, fraction, exponent, rfl, signed, int, fractional, exponential⟩ := written.parts
  have foreign (c : Char) (mem : c ∈ sign ++ digits ++ fraction ++ exponent) : (c == '.' || isExponent c) = false := by
    simpa using List.any_eq_false.1 whole c mem
  have empty : fraction = [] := by
    rcases fractional with rfl | ⟨rest, rfl, -⟩
    · rfl
    · cases foreign '.' (by simp)
  have empty' : exponent = [] := by
    rcases exponential with rfl | ⟨e, sign', rest, rfl, letter, -⟩
    · rfl
    · have point := foreign e (by simp)
      rcases letter with rfl | rfl <;> cases point
  subst empty empty'
  exact ⟨sign, digits, by simp, signed, int⟩

/-- A number without a leading zero is not less than its length says. -/
theorem le_toInt {whole : Str} (written : IntText whole) (long : 1 < whole.length) :
    10 ^ (whole.length - 1) ≤ toInt 10 whole := by
  rcases written with rfl | ⟨⟨-, all⟩, leading⟩
  · exact absurd long (by decide)
  · cases whole with
    | nil => exact absurd long (by decide)
    | cons c rest =>
        have first : 0 < toInt 10 [c] := by
          refine toInt_pos (List.cons_ne_nil _ _) ?_ leading
          rw [List.all_cons, Bool.and_eq_true] at all
          rw [List.all_cons, all.1]
          rfl
        have split_ : toInt 10 (c :: rest) = toInt 10 [c] * 10 ^ rest.length + toInt 10 rest := toInt_append 10 [c] rest
        have scaled := Nat.mul_le_mul_right (10 ^ rest.length) first
        rw [List.length_cons, Nat.add_sub_cancel, split_]
        omega

/-- What the token limit leaves of the range. -/
def Narrow (i : Int) : Prop := -(10 ^ 18) < i ∧ i < 2 ^ 63

theorem unsigned_digits {whole : Str} (written : IntText whole) : whole.head? ≠ some '-' := by
  intro head
  have digit := List.all_eq_true.1 (IntText.digits written) '-' (List.mem_of_mem_head? head)
  cases digit

/-- The token limit and the range together. -/
theorem narrow_iff {token : Str} (written : WholeText token) :
    token.length ≤ 19 ∧ (-(2 ^ 63) ≤ tokenInt token ∧ tokenInt token < 2 ^ 63) ↔ Narrow (tokenInt token) := by
  obtain ⟨sign, whole, rfl, signed, int⟩ := written
  have small : toInt 10 whole < 10 ^ whole.length := toInt_lt (IntText.digits int)
  have large := le_toInt int
  unfold Narrow
  rcases signed with rfl | rfl
  · rw [List.nil_append, tokenInt, if_neg (unsigned_digits int)]
    constructor
    · rintro ⟨-, -, upper⟩
      exact ⟨by omega, upper⟩
    · rintro ⟨-, upper⟩
      refine ⟨?_, by omega, upper⟩
      by_contra long
      have bound : 10 ^ 19 ≤ 10 ^ (whole.length - 1) := Nat.pow_le_pow_right (by decide) (by omega)
      have reached := large (by omega)
      omega
  · rw [List.singleton_append, tokenInt, List.head?_cons, if_pos rfl, List.tail_cons, List.length_cons]
    constructor
    · rintro ⟨short, -, upper⟩
      have bound : 10 ^ whole.length ≤ 10 ^ 18 := Nat.pow_le_pow_right (by decide) (by omega)
      exact ⟨by omega, upper⟩
    · rintro ⟨lower, upper⟩
      refine ⟨?_, by omega, upper⟩
      by_contra long
      have bound : 10 ^ 18 ≤ 10 ^ (whole.length - 1) := Nat.pow_le_pow_right (by decide) (by omega)
      have reached := large (by omega)
      omega

theorem readInteger_iff {s rest : Str} {n : Number F} :
    readInteger s = some (n, rest) ↔
      ∃ token, integerToken s = some (token, rest) ∧ n = .int (tokenInt token) ∧ Narrow (tokenInt token) := by
  unfold readInteger
  cases matched : integerToken s with
  | none => exact iff_of_false (fun same => nomatch same) fun ⟨_, same, _⟩ => nomatch same
  | some found =>
      obtain ⟨token, after⟩ := found
      have narrow := narrow_iff (integerToken_sound matched).2
      dsimp only
      constructor
      · intro read
        split at read
        · cases read
        next short =>
        split at read
        · cases read
        next range =>
        obtain ⟨rfl, rfl⟩ := Prod.mk.inj (Option.some.inj read)
        exact ⟨token, rfl, rfl, narrow.1 ⟨Nat.not_lt.1 short, not_not.1 range⟩⟩
      · rintro ⟨token', same, rfl, inside⟩
        obtain ⟨rfl, rfl⟩ := Prod.mk.inj (Option.some.inj same)
        obtain ⟨short, range⟩ := narrow.2 inside
        rw [if_neg (Nat.not_lt.2 short), if_neg (not_not.2 range)]

theorem readInteger_forward (s : Str) (n : Number F) (rest : Str) (read : readInteger s = some (n, rest)) :
    rest.length ≤ s.length := by
  obtain ⟨token, matched, -⟩ := readInteger_iff.1 read
  rw [(integerToken_sound matched).1, List.length_append]
  exact Nat.le_add_left _ _

/-- The number is an integer that the limits allow. -/
def IsNarrow : Number F → Prop
  | .int i => Narrow i
  | .float _ => False

theorem readInteger_narrow (s : Str) (n : Number F) (rest : Str) (read : readInteger s = some (n, rest)) :
    IsNarrow n := by
  obtain ⟨token, -, rfl, narrow⟩ := readInteger_iff.1 read
  exact narrow

variable (D : Floats F)

/-- Narrow integers are read as `bounded_json` reads them. -/
theorem boundedJSON_reads : Rules.Reads (D := D) boundedJSON IsNarrow := by
  intro s n rest narrow ends
  show readInteger s = _ ↔ _
  rw [readInteger_iff, Rules.codecNumber, Option.bind_eq_some_iff]
  constructor
  · rintro ⟨token, matched, rfl, inside⟩
    obtain ⟨rfl, written⟩ := integerToken_sound matched
    obtain ⟨number, whole⟩ := written.number
    refine ⟨(token, rest), matchNumber_complete number ends, ?_⟩
    have short := ((narrow_iff written).2 inside).1
    dsimp only
    rw [(tokenNumber_iff D).2 ⟨by omega, .int whole⟩]
    rfl
  · rintro ⟨⟨token, after⟩, matched, read⟩
    obtain ⟨m, value, same⟩ := Option.map_eq_some_iff.1 read
    obtain ⟨rfl, rfl⟩ := Prod.mk.inj same
    obtain ⟨rfl, number⟩ := matchNumber_sound matched
    obtain ⟨-, value⟩ := (tokenNumber_iff D).1 value
    cases value with
    | float parts finite => exact narrow.elim
    | int whole =>
        refine ⟨token, ?_, rfl, narrow⟩
        exact integerToken_complete (wholeText_of_number number whole) fun c head => (ends.foreign head).1

/-! ## The decoder and the grammar -/

/-- The number is an integer of 64 bits. -/
def IsInt64 : Number F → Prop
  | .int i => -(2 ^ 63) ≤ i ∧ i < 2 ^ 63
  | .float _ => False

/-- UTF-8 of at most `maxBytes` bytes that is one JSON text of 64-bit integers without duplicate
keys, at most `maxDepth` levels deep, with at most `maxNodes` values. -/
structure IsObservation (raw : Bytes) (v : Json F) : Prop where
  size : raw.length ≤ maxBytes
  text : ∃ text, raw = utf8 text ∧ Rules.IsText D text v
  numbers : v.Numbers IsInt64
  distinct : v.Distinct
  height : v.height ≤ maxDepth
  values : v.values ≤ maxNodes

theorem int64_of_narrow (n : Number F) (narrow : IsNarrow n) : IsInt64 n := by
  cases n with
  | int i =>
      obtain ⟨lower, upper⟩ := narrow
      exact ⟨by omega, upper⟩
  | float x => exact narrow.elim

/-- **The decoder accepts exactly the narrow observations.** -/
theorem parse_iff {raw : Bytes} {v : Json F} :
    parse raw = .ok v ↔ IsObservation D raw v ∧ v.Numbers IsNarrow := by
  have down : ∀ m n, m ≤ n → (boundedJSON (F := F)).room n = true → (boundedJSON (F := F)).room m = true :=
    fun m n less room => decide_eq_true (less.trans (of_decide_eq_true room))
  rw [parse, seq_ok, refuse_ok, Nat.not_lt]
  constructor
  · rintro ⟨size, done⟩
    cases decoded : decodeStrict raw with
    | none =>
        rw [decoded] at done
        cases done
    | some text =>
        rw [decoded] at done
        have narrow := Rules.read_closed (Rules.closed_numbers _ readInteger_narrow) done
        obtain ⟨written, distinct, height, values⟩ :=
          (Rules.read_iff (boundedJSON_reads D) down narrow).1 done
        exact ⟨⟨size, ⟨text, decodeStrict_iff.1 decoded, written⟩, Json.numbers_mono int64_of_narrow v narrow, distinct,
          Nat.le_of_lt_succ height, of_decide_eq_true values⟩, narrow⟩
  · rintro ⟨⟨size, ⟨text, rfl, written⟩, -, distinct, height, values⟩, narrow⟩
    refine ⟨size, ?_⟩
    rw [decodeStrict_iff.2 rfl]
    exact (Rules.read_iff (boundedJSON_reads D) down narrow).2
      ⟨written, distinct, Nat.lt_succ_of_le height, decide_eq_true values⟩

theorem parse_ends (raw : Bytes) :
    (∃ v, parse (F := F) raw = .ok v) ∨ ∃ e, parse (F := F) raw = .error (.raised e) := by
  cases result : parse (F := F) raw with
  | ok v => exact .inl ⟨v, rfl⟩
  | error halt =>
      cases halt with
      | raised e => exact .inr ⟨e, rfl⟩
      | stuck =>
          rw [parse, bind_error] at result
          rcases result with stuck | ⟨_, _, stuck⟩
          · unfold refuse at stuck
            split at stuck <;> cases stuck
          · split at stuck
            · cases stuck
            · exact absurd stuck (Rules.read_ends readInteger_forward _ _)

/-! ## Canonical bytes -/

mutual

theorem integral_of_int64 (v : Json F) (numbers : v.Numbers IsInt64) : v.Integral := by
  cases v with
  | number n =>
      cases n with
      | int i => trivial
      | float x => exact numbers
  | array items => exact integralItems_of_int64 items numbers
  | object members => exact integralMembers_of_int64 members numbers
  | null => trivial
  | bool b => trivial
  | string s => trivial

theorem integralItems_of_int64 (items : List (Json F)) (numbers : Json.NumbersItems IsInt64 items) :
    Json.IntegralItems items := by
  cases items with
  | nil => trivial
  | cons v rest => exact ⟨integral_of_int64 v numbers.1, integralItems_of_int64 rest numbers.2⟩

theorem integralMembers_of_int64 (members : List (Str × Json F)) (numbers : Json.NumbersMembers IsInt64 members) :
    Json.IntegralMembers members := by
  cases members with
  | nil => trivial
  | cons m rest => exact ⟨integral_of_int64 m.2 numbers.1, integralMembers_of_int64 rest numbers.2⟩

end

variable {D} {raw : Bytes} {v : Json F}

theorem IsObservation.canonical (observation : IsObservation D raw v) :
    IsObservation D (Proposals.canonical D v) v.sorted := by
  obtain ⟨size, ⟨text, rfl, before, inner, after, rfl, -, -, written⟩, numbers, distinct, height, values⟩ :=
    observation
  have bound := ValueText.size D v written (integral_of_int64 v numbers)
  refine ⟨?_, ⟨v.sorted.render D.toDoubles, rfl, [], _, [], ?_, .nil, .nil,
    render_text D _ (Json.sorted_short v (ValueText.short D v written))⟩, Json.sorted_numbers v numbers,
    Json.sorted_distinct v distinct, ?_, ?_⟩
  · refine Nat.le_trans ?_ size
    rw [canonical_length]
    show _ ≤ Proposals.size (before ++ inner ++ after)
    rw [size_append, size_append]
    omega
  · rw [List.nil_append, List.append_nil]
  · rwa [Json.sorted_height]
  · rwa [Json.sorted_values]

theorem IsObservation.bounded (observation : IsObservation D raw v) (object : isObject v = true) :
    Bounded D ⟨maxBytes, maxDepth, maxNodes⟩ raw v := by
  obtain ⟨size, ⟨text, rfl, before, inner, after, rfl, space, space', written⟩, -, distinct, height, values⟩ :=
    observation
  exact ⟨size, ⟨before, inner, after, rfl, space, space', written⟩, object, distinct, height, values⟩

variable (D) (raw)

/-- What observation JSON is said to be, of one byte string: it is read exactly when it is an
observation, its value comes back from its canonical bytes, `bounded_json` reads an object
alike, and reading ends. -/
structure Settled : Prop where
  exact : ∀ v, parse raw = .ok v ↔ IsObservation D raw v
  canonical : ∀ v, IsObservation D raw v → parse (Proposals.canonical D v) = .ok v.sorted
  sibling : ∀ v limitCode, isObject v = true → parse raw = .ok v →
    boundedJson D ⟨maxBytes, maxDepth, maxNodes⟩ limitCode raw = .ok v
  ends : (∃ v, parse (F := F) raw = .ok v) ∨ ∃ e, parse (F := F) raw = .error (.raised e)

variable {D raw} in
theorem Settled.narrow (settled : Settled D raw) (observation : IsObservation D raw v) : v.Numbers IsNarrow :=
  ((parse_iff D).1 ((settled.exact v).2 observation)).2

/-- **Observation JSON is exactly bounded integer JSON** where no integer is -10^18 or less. -/
theorem observation_json : Settled D raw ↔ ∀ v, IsObservation D raw v → v.Numbers IsNarrow := by
  constructor
  · intro settled v observation
    exact settled.narrow observation
  · intro narrow
    refine ⟨fun v => ?_, fun v observation => ?_, fun v limitCode object done => ?_, parse_ends raw⟩
    · rw [parse_iff D]
      exact and_iff_left_of_imp (narrow v)
    · exact (parse_iff D).2 ⟨observation.canonical, Json.sorted_numbers v (narrow v observation)⟩
    · exact (boundedJson_iff D _ limitCode).2 (((parse_iff D).1 done).1.bounded object)

end

/-- -2^63 is in the range and refused. -/
theorem observation_json_least : ¬ Settled halfFloats (utf8 "-9223372036854775808".toList) := by
  intro settled
  have written : WholeText "-9223372036854775808".toList :=
    ⟨['-'], "9223372036854775808".toList, by decide, .inr rfl, .inr ⟨⟨by decide, by decide⟩, by decide⟩⟩
  have value : tokenInt "-9223372036854775808".toList = -(2 ^ 63) := by decide +kernel
  have number : ValueText halfFloats "-9223372036854775808".toList (.number (.int (-(2 ^ 63)))) := by
    rw [← value]
    exact .number written.number.1 (by decide) (.int written.number.2)
  have inside : IsInt64 (F := Unit) (.int (-(2 ^ 63))) := by
    show -(2 ^ 63 : Int) ≤ -(2 ^ 63) ∧ -(2 ^ 63 : Int) < 2 ^ 63
    omega
  have text : Rules.IsText halfFloats "-9223372036854775808".toList (.number (.int (-(2 ^ 63)))) :=
    ⟨[], _, [], (List.append_nil _).symm, .nil, .nil, number⟩
  have observation : IsObservation halfFloats (utf8 "-9223372036854775808".toList) (.number (.int (-(2 ^ 63)))) :=
    ⟨by decide +kernel, ⟨_, rfl, text⟩, inside, trivial, Nat.zero_le _, Nat.succ_le_of_lt (by decide)⟩
  have narrow : -(10 ^ 18 : Int) < -(2 ^ 63) := (settled.narrow observation).1
  omega

end ApiSecurityPlatform.Research.ObservationJson
