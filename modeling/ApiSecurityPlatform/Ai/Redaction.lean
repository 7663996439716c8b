/-
# Ai.Redaction -- `app/ai/redaction.py`

The value under a sensitive key is replaced by a marker, whatever it is, and everything else
is kept.  `Alike` is what that leaves visible: two values are redacted alike exactly when they
differ under sensitive keys only (`clean_eq_clean`), and a value is alike its own redaction.

`sanitize_response_body` catches what `json.loads` says about syntax, and nothing else.  A
body whose reading, redacting or writing needs more of the interpreter than there is left
(`Limits`) makes it raise, and only such a body does.
-/
import ApiSecurityPlatform.Ai.Loads

namespace ApiSecurityPlatform.Ai

open ApiSecurityPlatform.Theory
open ApiSecurityPlatform.Theory.Tx
open ApiSecurityPlatform.Theory.Marks
open ApiSecurityPlatform.Python
open ApiSecurityPlatform.Proposals (Ends matchNumber matchNumber_complete NumberText tokenInt isFloatToken)

set_option autoImplicit false

/-! ## `redact_json_value` -/

/-- `SENSITIVE_KEYS`. -/
def sensitiveKeys : List Codes :=
  ["authorization", "password", "passwd", "access_token", "refresh_token", "token", "api_key", "apikey", "secret",
    "client_secret", "cookie", "set-cookie"].map fun key => codes key.toList

/-- `REDACTED`. -/
def redacted : Codes := codes "[REDACTED]".toList

/-- `NON_JSON_RESPONSE_REDACTED`. -/
def nonJsonResponseRedacted : Codes := codes "[NON_JSON_RESPONSE_REDACTED]".toList

/-- `str.isspace` of one code point; a surrogate is no space. -/
def isSpaceCode (n : Nat) : Bool := isSpace (Char.ofNat n)

/-- `key.strip()`. -/
def stripCodes (key : Codes) : Codes := ((key.dropWhile isSpaceCode).reverse.dropWhile isSpaceCode).reverse

section

variable {F : Type} (lower : Codes → Codes)

/-- `is_sensitive_key`; `lower` is `str.lower`. -/
def isSensitiveKey (key : Codes) : Bool := sensitiveKeys.contains (lower (stripCodes key))

/-- What is put under a sensitive key. -/
def marker : Value F := .scalar (.string redacted)

mutual

/-- `redact_json_value`, with so many frames left on the stack.  The keys of a `dict` are
distinct, so each assignment to `result` adds a member. -/
def redactJsonValue : Nat → Value F → Except Fault (Value F)
  | 0, _ => .error .recursionError
  | _ + 1, .scalar s => .ok (.scalar s)
  | frames + 1, .array items => do return .array (← redactItems frames items)
  | frames + 1, .object members => do return .object (← redactMembers frames members)

def redactItems (frames : Nat) : List (Value F) → Except Fault (List (Value F))
  | [] => .ok []
  | item :: rest => do
      let item ← redactJsonValue frames item
      let rest ← redactItems frames rest
      return item :: rest

def redactMembers (frames : Nat) : List (Codes × Value F) → Except Fault (List (Codes × Value F))
  | [] => .ok []
  | (key, child) :: rest => do
      Theory.refuse (frames = 0) .recursionError  -- the frame of `is_sensitive_key`
      let child ← (if isSensitiveKey lower key then .ok marker else redactJsonValue frames child)
      let rest ← redactMembers frames rest
      return (key, child) :: rest

end

/-! ## `sanitize_response_body` -/

/-- `ESCAPE_DCT`, and the control characters. -/
def escapeCode (n : Nat) : Codes := if n < 128 then codes (escapeChar (Char.ofNat n)) else [n]

def quoted (s : Codes) : Codes := 34 :: (s.flatMap escapeCode ++ [34])

variable (D : FloatText F)

/-- An `int` has been read from as many digits, so its `repr` is within their limit too. -/
def encodeScalar : Scalar F → Codes
  | .null => codes "null".toList
  | .bool true => codes "true".toList
  | .bool false => codes "false".toList
  | .int n => codes (intToken n).text
  | .float x => codes (D.text x)
  | .string s => quoted s

def commaSeparated (parts : List Codes) : Codes := List.intercalate (codes ", ".toList) parts

mutual

/-- `json.dumps(value, ensure_ascii=False)`, with so many levels of recursion left. -/
def encode : Nat → Value F → Except Fault Codes
  | _, .scalar s => .ok (encodeScalar D s)
  | 0, .array _ => .error .recursionError
  | levels + 1, .array items => do
      return codes ['['] ++ commaSeparated (← encodeItems levels items) ++ codes [']']
  | 0, .object _ => .error .recursionError
  | levels + 1, .object members => do
      return codes ['\x7b'] ++ commaSeparated (← encodeMembers levels members) ++ codes ['\x7d']

def encodeItems (levels : Nat) : List (Value F) → Except Fault (List Codes)
  | [] => .ok []
  | item :: rest => do
      let item ← encode levels item
      let rest ← encodeItems levels rest
      return item :: rest

def encodeMembers (levels : Nat) : List (Codes × Value F) → Except Fault (List Codes)
  | [] => .ok []
  | (key, child) :: rest => do
      let child ← encode levels child
      let rest ← encodeMembers levels rest
      return (quoted key ++ codes ": ".toList ++ child) :: rest

end

end

/-- What is left of the interpreter where the body is sanitized: the digits of an `int`, the
levels of the scanner and of the encoder, and the frames on the stack. -/
structure Limits where
  digits : Nat
  scan : Nat
  frames : Nat
  encode : Nat

def Limits.refuses (L : Limits) : Mark → Option Fault
  | .integer digits => if L.digits < digits then some .valueError else none
  | .opens level => if L.scan < level then some .recursionError else none

section

variable {F : Type} (D : FloatText F) (lower : Codes → Codes) (L : Limits)

/-- `sanitize_response_body`. -/
def sanitizeResponseBody : Option Str → Except Fault (Option Codes)
  | none => .ok none
  | some body =>
      match (loads D L.refuses body []).1 with
      | .error .jsonDecodeError => .ok (some nonJsonResponseRedacted)
      | .error fault => .error fault
      | .ok parsed => do
          let sanitized ← redactJsonValue lower L.frames parsed
          let text ← encode D L.encode sanitized
          return some (text.take 16000)

end

/-! ## What redaction keeps -/

section

variable {F : Type} (lower : Codes → Codes)

mutual

/-- The value with the marker under every sensitive key. -/
def clean : Value F → Value F
  | .scalar s => .scalar s
  | .array items => .array (cleanItems items)
  | .object members => .object (cleanMembers members)

def cleanItems : List (Value F) → List (Value F)
  | [] => []
  | item :: rest => clean item :: cleanItems rest

def cleanMembers : List (Codes × Value F) → List (Codes × Value F)
  | [] => []
  | (key, child) :: rest => (key, if isSensitiveKey lower key then marker else clean child) :: cleanMembers rest

end

mutual

/-- Equal but for the values under sensitive keys: the same scalars, as many items, and the
same keys in the same order. -/
def Alike : Value F → Value F → Prop
  | .scalar a, .scalar b => a = b
  | .array a, .array b => AlikeItems a b
  | .object a, .object b => AlikeMembers a b
  | _, _ => False

def AlikeItems : List (Value F) → List (Value F) → Prop
  | [], [] => True
  | a :: as, b :: bs => Alike a b ∧ AlikeItems as bs
  | _, _ => False

def AlikeMembers : List (Codes × Value F) → List (Codes × Value F) → Prop
  | [], [] => True
  | (k, a) :: as, (l, b) :: bs => k = l ∧ (isSensitiveKey lower k = true ∨ Alike a b) ∧ AlikeMembers as bs
  | _, _ => False

end

mutual

/-- Every sensitive key holds the marker. -/
def Marked : Value F → Prop
  | .scalar _ => True
  | .array items => MarkedItems items
  | .object members => MarkedMembers members

def MarkedItems : List (Value F) → Prop
  | [] => True
  | item :: rest => Marked item ∧ MarkedItems rest

def MarkedMembers : List (Codes × Value F) → Prop
  | [] => True
  | (key, child) :: rest => (isSensitiveKey lower key = true → child = marker) ∧ Marked child ∧ MarkedMembers rest

end

mutual

/-- Two values are redacted alike exactly when they differ under sensitive keys only. -/
theorem clean_eq_clean : ∀ a b : Value F, clean lower a = clean lower b ↔ Alike lower a b
  | .scalar a, b => by cases b <;> simp [clean, Alike]
  | .array a, b => by
      cases b with
      | array b => simpa only [clean, Alike, Value.array.injEq] using cleanItems_eq a b
      | _ => simp [clean, Alike]
  | .object a, b => by
      cases b with
      | object b => simpa only [clean, Alike, Value.object.injEq] using cleanMembers_eq a b
      | _ => simp [clean, Alike]

theorem cleanItems_eq : ∀ a b : List (Value F), cleanItems lower a = cleanItems lower b ↔ AlikeItems lower a b
  | [], b => by cases b <;> simp [cleanItems, AlikeItems]
  | item :: rest, b => by
      cases b with
      | nil => simp [cleanItems, AlikeItems]
      | cons other others =>
          simp only [cleanItems, AlikeItems, List.cons.injEq, clean_eq_clean item other, cleanItems_eq rest others]

theorem cleanMembers_eq : ∀ a b : List (Codes × Value F),
    cleanMembers lower a = cleanMembers lower b ↔ AlikeMembers lower a b
  | [], b => by cases b <;> simp [cleanMembers, AlikeMembers]
  | (key, child) :: rest, b => by
      cases b with
      | nil => simp [cleanMembers, AlikeMembers]
      | cons member others =>
          obtain ⟨key', child'⟩ := member
          simp only [cleanMembers, AlikeMembers, List.cons.injEq, Prod.mk.injEq, cleanMembers_eq rest others, and_assoc]
          refine and_congr_right fun same => and_congr_left fun _ => ?_
          subst same
          by_cases hidden : isSensitiveKey lower key = true
          · rw [if_pos hidden, if_pos hidden]
            exact iff_of_true rfl (.inl hidden)
          · rw [if_neg hidden, if_neg hidden, clean_eq_clean child child']
            exact (or_iff_right hidden).symm

end

mutual

theorem clean_clean : ∀ v : Value F, clean lower (clean lower v) = clean lower v
  | .scalar _ => rfl
  | .array items => by rw [clean, clean, cleanItems_clean items]
  | .object members => by rw [clean, clean, cleanMembers_clean members]

theorem cleanItems_clean : ∀ items : List (Value F), cleanItems lower (cleanItems lower items) = cleanItems lower items
  | [] => rfl
  | item :: rest => by rw [cleanItems, cleanItems, clean_clean item, cleanItems_clean rest]

theorem cleanMembers_clean : ∀ members : List (Codes × Value F),
    cleanMembers lower (cleanMembers lower members) = cleanMembers lower members
  | [] => rfl
  | (key, child) :: rest => by
      rw [cleanMembers, cleanMembers, cleanMembers_clean rest]
      by_cases hidden : isSensitiveKey lower key = true
      · simp only [if_pos hidden]
      · simp only [if_neg hidden, clean_clean child]

end

mutual

theorem marked_clean : ∀ v : Value F, Marked lower (clean lower v)
  | .scalar _ => trivial
  | .array items => by rw [clean, Marked]; exact markedItems_clean items
  | .object members => by rw [clean, Marked]; exact markedMembers_clean members

theorem markedItems_clean : ∀ items : List (Value F), MarkedItems lower (cleanItems lower items)
  | [] => trivial
  | item :: rest => ⟨marked_clean item, markedItems_clean rest⟩

theorem markedMembers_clean : ∀ members : List (Codes × Value F), MarkedMembers lower (cleanMembers lower members)
  | [] => trivial
  | (key, child) :: rest => by
      rw [cleanMembers, MarkedMembers]
      by_cases hidden : isSensitiveKey lower key = true
      · rw [if_pos hidden]
        exact ⟨fun _ => rfl, trivial, markedMembers_clean rest⟩
      · rw [if_neg hidden]
        exact ⟨fun sensitive => absurd sensitive hidden, marked_clean child, markedMembers_clean rest⟩

end

/-- A value differs from its redaction under sensitive keys only. -/
theorem alike_clean (v : Value F) : Alike lower v (clean lower v) :=
  (clean_eq_clean lower _ _).1 (clean_clean lower v).symm

/-! ## What redaction and writing take -/

mutual

/-- The frames on the stack while the value is redacted. -/
def frames : Value F → Nat
  | .scalar _ => 1
  | .array items => framesItems items + 1
  | .object members => framesMembers members + 1

def framesItems : List (Value F) → Nat
  | [] => 0
  | item :: rest => max (frames item) (framesItems rest)

def framesMembers : List (Codes × Value F) → Nat
  | [] => 0
  | (key, child) :: rest => max (if isSensitiveKey lower key then 1 else frames child) (framesMembers rest)

end

mutual

/-- The containers inside one another, outside sensitive values. -/
def nesting : Value F → Nat
  | .scalar _ => 0
  | .array items => nestingItems items + 1
  | .object members => nestingMembers members + 1

def nestingItems : List (Value F) → Nat
  | [] => 0
  | item :: rest => max (nesting item) (nestingItems rest)

def nestingMembers : List (Codes × Value F) → Nat
  | [] => 0
  | (key, child) :: rest => max (if isSensitiveKey lower key then 0 else nesting child) (nestingMembers rest)

end

theorem frames_pos (v : Value F) : 0 < frames lower v := by
  cases v with
  | scalar s => rw [frames]; exact Nat.one_pos
  | array items => rw [frames]; exact Nat.succ_pos _
  | object members => rw [frames]; exact Nat.succ_pos _

mutual

/-- `redact_json_value` returns the redaction, or runs out of frames. -/
theorem redactJsonValue_ok : ∀ (n : Nat) (v r : Value F),
    redactJsonValue lower n v = .ok r ↔ frames lower v ≤ n ∧ clean lower v = r
  | 0, v, r => by
      rw [redactJsonValue]
      exact iff_of_false (fun done => nomatch done) fun ⟨enough, _⟩ =>
        absurd (frames_pos lower v) (Nat.not_lt.2 enough)
  | n + 1, .scalar s, r => by
      rw [redactJsonValue, frames, clean, Except.ok.injEq]
      exact (and_iff_right (Nat.succ_pos n)).symm
  | n + 1, .array items, r => by
      rw [redactJsonValue, frames, clean, Theory.bind_ok, Nat.add_le_add_iff_right]
      simp only [redactItems_ok n items]
      constructor
      · rintro ⟨_, ⟨enough, rfl⟩, done⟩
        exact ⟨enough, Except.ok.inj done⟩
      · rintro ⟨enough, rfl⟩
        exact ⟨_, ⟨enough, rfl⟩, rfl⟩
  | n + 1, .object members, r => by
      rw [redactJsonValue, frames, clean, Theory.bind_ok, Nat.add_le_add_iff_right]
      simp only [redactMembers_ok n members]
      constructor
      · rintro ⟨_, ⟨enough, rfl⟩, done⟩
        exact ⟨enough, Except.ok.inj done⟩
      · rintro ⟨enough, rfl⟩
        exact ⟨_, ⟨enough, rfl⟩, rfl⟩

theorem redactItems_ok : ∀ (n : Nat) (items r : List (Value F)),
    redactItems lower n items = .ok r ↔ framesItems lower items ≤ n ∧ cleanItems lower items = r
  | n, [], r => by
      rw [redactItems, framesItems, cleanItems, Except.ok.injEq]
      exact (and_iff_right (Nat.zero_le n)).symm
  | n, item :: rest, r => by
      rw [redactItems, framesItems, cleanItems, Theory.bind_ok, Nat.max_le]
      simp only [redactJsonValue_ok n item, Theory.bind_ok, redactItems_ok n rest]
      constructor
      · rintro ⟨_, ⟨first, rfl⟩, _, ⟨others, rfl⟩, done⟩
        exact ⟨⟨first, others⟩, Except.ok.inj done⟩
      · rintro ⟨⟨first, others⟩, rfl⟩
        exact ⟨_, ⟨first, rfl⟩, _, ⟨others, rfl⟩, rfl⟩

theorem redactMembers_ok : ∀ (n : Nat) (members r : List (Codes × Value F)),
    redactMembers lower n members = .ok r ↔ framesMembers lower members ≤ n ∧ cleanMembers lower members = r
  | n, [], r => by
      rw [redactMembers, framesMembers, cleanMembers, Except.ok.injEq]
      exact (and_iff_right (Nat.zero_le n)).symm
  | n, (key, child) :: rest, r => by
      have inner (c : Value F) : (if isSensitiveKey lower key then .ok marker else redactJsonValue lower n child) = .ok c ↔
          (isSensitiveKey lower key = true ∨ frames lower child ≤ n) ∧
            (if isSensitiveKey lower key then marker else clean lower child) = c := by
        by_cases hidden : isSensitiveKey lower key = true
        · rw [if_pos hidden, if_pos hidden, Except.ok.injEq]
          exact (and_iff_right (.inl hidden)).symm
        · rw [if_neg hidden, if_neg hidden, redactJsonValue_ok n child, or_iff_right hidden]
      rw [redactMembers, framesMembers, cleanMembers, Theory.seq_ok, Theory.refuse_ok, Theory.bind_ok, Nat.max_le]
      simp only [inner, Theory.bind_ok, redactMembers_ok n rest]
      have room : (if isSensitiveKey lower key then 1 else frames lower child) ≤ n ↔
          ¬ n = 0 ∧ (isSensitiveKey lower key = true ∨ frames lower child ≤ n) := by
        have positive := frames_pos lower child
        by_cases hidden : isSensitiveKey lower key = true
        · rw [if_pos hidden]
          exact ⟨fun some_ => ⟨by omega, .inl hidden⟩, fun both => by omega⟩
        · rw [if_neg hidden, or_iff_right hidden]
          exact ⟨fun enough => ⟨by omega, enough⟩, fun both => both.2⟩
      rw [room]
      constructor
      · rintro ⟨some_, _, ⟨first, rfl⟩, _, ⟨others, rfl⟩, done⟩
        exact ⟨⟨⟨some_, first⟩, others⟩, Except.ok.inj done⟩
      · rintro ⟨⟨⟨some_, first⟩, others⟩, rfl⟩
        exact ⟨some_, _, ⟨first, rfl⟩, _, ⟨others, rfl⟩, rfl⟩

end

mutual

theorem frames_clean : ∀ v : Value F, frames lower (clean lower v) = frames lower v
  | .scalar _ => rfl
  | .array items => by rw [clean, frames, frames, framesItems_clean items]
  | .object members => by rw [clean, frames, frames, framesMembers_clean members]

theorem framesItems_clean : ∀ items : List (Value F), framesItems lower (cleanItems lower items) = framesItems lower items
  | [] => rfl
  | item :: rest => by rw [cleanItems, framesItems, framesItems, frames_clean item, framesItems_clean rest]

theorem framesMembers_clean : ∀ members : List (Codes × Value F),
    framesMembers lower (cleanMembers lower members) = framesMembers lower members
  | [] => rfl
  | (key, child) :: rest => by
      rw [cleanMembers, framesMembers, framesMembers, framesMembers_clean rest]
      by_cases hidden : isSensitiveKey lower key = true
      · rw [if_pos hidden, if_pos hidden]
      · rw [if_neg hidden, if_neg hidden, if_neg hidden, frames_clean child]

end

variable (D : FloatText F)

mutual

/-- The redaction is written if its levels are there. -/
theorem encode_clean : ∀ (n : Nat) (v : Value F), (∃ text, encode D n (clean lower v) = .ok text) ↔ nesting lower v ≤ n
  | n, .scalar s => by
      rw [clean, nesting, encode]
      exact iff_of_true ⟨_, rfl⟩ (Nat.zero_le n)
  | 0, .array items => by
      rw [clean, nesting, encode]
      exact iff_of_false (fun ⟨_, done⟩ => nomatch done) (Nat.not_succ_le_zero _)
  | n + 1, .array items => by
      rw [clean, nesting, encode, Nat.add_le_add_iff_right, ← encodeItems_clean n items]
      constructor
      · rintro ⟨text, done⟩
        obtain ⟨parts, written, _⟩ := Theory.bind_ok.1 done
        exact ⟨parts, written⟩
      · rintro ⟨parts, written⟩
        exact ⟨_, Theory.bind_ok.2 ⟨parts, written, rfl⟩⟩
  | 0, .object members => by
      rw [clean, nesting, encode]
      exact iff_of_false (fun ⟨_, done⟩ => nomatch done) (Nat.not_succ_le_zero _)
  | n + 1, .object members => by
      rw [clean, nesting, encode, Nat.add_le_add_iff_right, ← encodeMembers_clean n members]
      constructor
      · rintro ⟨text, done⟩
        obtain ⟨parts, written, _⟩ := Theory.bind_ok.1 done
        exact ⟨parts, written⟩
      · rintro ⟨parts, written⟩
        exact ⟨_, Theory.bind_ok.2 ⟨parts, written, rfl⟩⟩

theorem encodeItems_clean : ∀ (n : Nat) (items : List (Value F)),
    (∃ parts, encodeItems D n (cleanItems lower items) = .ok parts) ↔ nestingItems lower items ≤ n
  | n, [] => by
      rw [cleanItems, nestingItems, encodeItems]
      exact iff_of_true ⟨_, rfl⟩ (Nat.zero_le n)
  | n, item :: rest => by
      rw [cleanItems, nestingItems, encodeItems, Nat.max_le, ← encode_clean n item, ← encodeItems_clean n rest]
      constructor
      · rintro ⟨parts, done⟩
        obtain ⟨text, first, done⟩ := Theory.bind_ok.1 done
        obtain ⟨others, written, _⟩ := Theory.bind_ok.1 done
        exact ⟨⟨text, first⟩, others, written⟩
      · rintro ⟨⟨text, first⟩, others, written⟩
        exact ⟨_, Theory.bind_ok.2 ⟨text, first, Theory.bind_ok.2 ⟨others, written, rfl⟩⟩⟩

theorem encodeMembers_clean : ∀ (n : Nat) (members : List (Codes × Value F)),
    (∃ parts, encodeMembers D n (cleanMembers lower members) = .ok parts) ↔ nestingMembers lower members ≤ n
  | n, [] => by
      rw [cleanMembers, nestingMembers, encodeMembers]
      exact iff_of_true ⟨_, rfl⟩ (Nat.zero_le n)
  | n, (key, child) :: rest => by
      have inner : (∃ text, encode D n (if isSensitiveKey lower key then marker else clean lower child) = .ok text) ↔
          (if isSensitiveKey lower key then 0 else nesting lower child) ≤ n := by
        by_cases hidden : isSensitiveKey lower key = true
        · rw [if_pos hidden, if_pos hidden, marker, encode]
          exact iff_of_true ⟨_, rfl⟩ (Nat.zero_le n)
        · rw [if_neg hidden, if_neg hidden, encode_clean n child]
      rw [cleanMembers, nestingMembers, encodeMembers, Nat.max_le, ← inner, ← encodeMembers_clean n rest]
      constructor
      · rintro ⟨parts, done⟩
        obtain ⟨text, first, done⟩ := Theory.bind_ok.1 done
        obtain ⟨others, written, _⟩ := Theory.bind_ok.1 done
        exact ⟨⟨text, first⟩, others, written⟩
      · rintro ⟨⟨text, first⟩, others, written⟩
        exact ⟨_, Theory.bind_ok.2 ⟨text, first, Theory.bind_ok.2 ⟨others, written, rfl⟩⟩⟩

end

/-! ## When a body is sanitized -/

variable (L : Limits)

/-- The limits that a mark stays within. -/
def Limits.Allows : Mark → Prop
  | .integer digits => digits ≤ L.digits
  | .opens level => level ≤ L.scan

theorem refuses_none {m : Mark} : L.refuses m = none ↔ L.Allows m := by
  cases m with
  | integer digits => rw [Limits.refuses, Limits.Allows, ite_eq_right_iff, ← Nat.not_lt]; simp
  | opens level => rw [Limits.refuses, Limits.Allows, ite_eq_right_iff, ← Nat.not_lt]; simp

theorem refuses_limit {m : Mark} {fault : Fault} (refused : L.refuses m = some fault) : fault ≠ .jsonDecodeError := by
  unfold Limits.refuses at refused
  split at refused
  · split at refused
    · rintro rfl
      nomatch refused
    · nomatch refused
  · split at refused
    · rintro rfl
      nomatch refused
    · nomatch refused

/-- The interpreter can take the body: every integer and every open container that the scanner
comes to before a syntax error, and where there is none, the parts of the value outside
sensitive keys. -/
structure Within (body : Str) : Prop where
  marks : ∀ m ∈ (loads D free body []).2, L.Allows m
  value : ∀ v, (loads D free body []).1 = .ok v → frames lower v ≤ L.frames ∧ nesting lower v ≤ L.encode

/-- A reading that stays within the limits is the reading without them. -/
theorem loads_within {body : Str} (allowed : ∀ m ∈ (loads D free body []).2, L.Allows m) :
    loads D L.refuses body [] = loads D free body [] := by
  obtain ⟨new, marks, verdict⟩ := loads_stops D L.refuses body []
  have none_ : new.findSome? L.refuses = none := by
    refine List.findSome?_eq_none_iff.2 fun m mem => (refuses_none L).2 (allowed m ?_)
    rwa [marks, List.nil_append]
  rw [none_] at verdict
  exact verdict

theorem sanitizeResponseBody_ok (body : Str) :
    (∃ text, sanitizeResponseBody D lower L (some body) = .ok text) ↔ Within lower D L body := by
  obtain ⟨new, marks, verdict⟩ := loads_stops D L.refuses body []
  rw [List.nil_append] at marks
  cases refused : new.findSome? L.refuses with
  | some fault =>
      rw [refused] at verdict
      obtain ⟨m, mem, beyond⟩ := List.exists_of_findSome?_eq_some refused
      refine iff_of_false ?_ fun within => ?_
      · rintro ⟨text, done⟩
        have other := refuses_limit L beyond
        rw [sanitizeResponseBody, verdict] at done
        cases fault with
        | jsonDecodeError => exact other rfl
        | _ => nomatch done
      · have allowed := (refuses_none L).2 (within.marks m (by rw [marks]; exact mem))
        rw [beyond] at allowed
        nomatch allowed
  | none =>
      rw [refused] at verdict
      have allowed : ∀ m ∈ (loads D free body []).2, L.Allows m := by
        intro m mem
        rw [marks] at mem
        exact (refuses_none L).1 (List.findSome?_eq_none_iff.1 refused m mem)
      have ends := loads_settled D free body []
      rw [sanitizeResponseBody, verdict]
      cases result : (loads D free body []).1 with
      | error fault =>
          rw [result] at ends
          obtain rfl | ⟨m, limited⟩ : Known free fault := ends
          · refine iff_of_true ⟨_, rfl⟩ ⟨allowed, fun v read => ?_⟩
            rw [result] at read
            nomatch read
          · nomatch limited
      | ok parsed =>
          dsimp only
          constructor
          · rintro ⟨text, done⟩
            obtain ⟨sanitized, cleaned, done⟩ := Theory.bind_ok.1 done
            obtain ⟨written, encoded, _⟩ := Theory.bind_ok.1 done
            obtain ⟨room, rfl⟩ := (redactJsonValue_ok lower _ _ _).1 cleaned
            refine ⟨allowed, fun v read => ?_⟩
            obtain rfl := Except.ok.inj (result.symm.trans read)
            exact ⟨room, (encode_clean lower D _ _).1 ⟨written, encoded⟩⟩
          · intro within
            obtain ⟨room, levels⟩ := within.value parsed result
            obtain ⟨written, encoded⟩ := (encode_clean lower D _ _).2 levels
            exact ⟨_, Theory.bind_ok.2 ⟨_, (redactJsonValue_ok lower _ _ _).2 ⟨room, rfl⟩,
              Theory.bind_ok.2 ⟨_, encoded, rfl⟩⟩⟩

/-- Two values that differ under sensitive keys only have one redaction, if there are the frames
for it. -/
theorem redactJsonValue_alike {a b : Value F} (alike : Alike lower a b) (n : Nat) (r : Value F) :
    redactJsonValue lower n a = .ok r ↔ redactJsonValue lower n b = .ok r := by
  have same := (clean_eq_clean lower a b).2 alike
  have sameFrames : frames lower a = frames lower b := by
    rw [← frames_clean lower a, same, frames_clean lower b]
  rw [redactJsonValue_ok, redactJsonValue_ok, same, sameFrames]

theorem sanitizeResponseBody_read {body : Str} {v : Value F} (read : (loads D L.refuses body []).1 = .ok v)
    (sanitized : Option Codes) :
    sanitizeResponseBody D lower L (some body) = .ok sanitized ↔
      ∃ r text, redactJsonValue lower L.frames v = .ok r ∧ encode D L.encode r = .ok text ∧
        some (text.take 16000) = sanitized := by
  rw [sanitizeResponseBody, read]
  constructor
  · intro done
    obtain ⟨r, cleaned, done⟩ := Theory.bind_ok.1 done
    obtain ⟨text, encoded, done⟩ := Theory.bind_ok.1 done
    exact ⟨r, text, cleaned, encoded, Except.ok.inj done⟩
  · rintro ⟨r, text, cleaned, encoded, rfl⟩
    exact Theory.bind_ok.2 ⟨r, cleaned, Theory.bind_ok.2 ⟨text, encoded, rfl⟩⟩

/-- Two bodies that differ under sensitive keys only are sanitized to one text exactly when the
interpreter can take both. -/
theorem sanitizeResponseBody_alike {a b : Str} {v w : Value F} (readA : (loads D free a []).1 = .ok v)
    (readB : (loads D free b []).1 = .ok w) (alike : Alike lower v w) :
    (∃ sanitized, sanitizeResponseBody D lower L (some a) = .ok sanitized ∧
      sanitizeResponseBody D lower L (some b) = .ok sanitized) ↔ Within lower D L a ∧ Within lower D L b := by
  constructor
  · rintro ⟨sanitized, first, second⟩
    exact ⟨(sanitizeResponseBody_ok lower D L a).1 ⟨_, first⟩, (sanitizeResponseBody_ok lower D L b).1 ⟨_, second⟩⟩
  · rintro ⟨withinA, withinB⟩
    obtain ⟨sanitized, first⟩ := (sanitizeResponseBody_ok lower D L a).2 withinA
    refine ⟨sanitized, first, ?_⟩
    rw [← loads_within D L withinA.marks] at readA
    rw [← loads_within D L withinB.marks] at readB
    rw [sanitizeResponseBody_read lower D L readA] at first
    rw [sanitizeResponseBody_read lower D L readB]
    simpa only [redactJsonValue_alike lower alike] using first

/-- **Redaction hides what it should and nothing else**: what differs under sensitive keys only is
redacted alike, and so is the text of a body as far as the interpreter can take it, which is
exactly when a body is sanitized at all. -/
theorem redaction_noninterfering :
    (∀ a b : Value F, Alike lower a b → ∀ n r, redactJsonValue lower n a = .ok r ↔ redactJsonValue lower n b = .ok r) ∧
    (∀ (a b : Str) (v w : Value F), (loads D free a []).1 = .ok v → (loads D free b []).1 = .ok w → Alike lower v w →
      ((∃ sanitized, sanitizeResponseBody D lower L (some a) = .ok sanitized ∧
        sanitizeResponseBody D lower L (some b) = .ok sanitized) ↔ Within lower D L a ∧ Within lower D L b)) ∧
    (∀ (v r : Value F) n, redactJsonValue lower n v = .ok r →
      redactJsonValue lower n r = .ok r ∧ Alike lower v r ∧ Marked lower r) ∧
    ∀ body : Option Str, (∃ sanitized, sanitizeResponseBody D lower L body = .ok sanitized) ↔
      ∀ text, body = some text → Within lower D L text := by
  refine ⟨fun a b alike n r => redactJsonValue_alike lower alike n r,
    fun a b v w readA readB alike => sanitizeResponseBody_alike lower D L readA readB alike, ?_, ?_⟩
  · intro v r n done
    obtain ⟨room, rfl⟩ := (redactJsonValue_ok lower n v r).1 done
    refine ⟨?_, alike_clean lower v, marked_clean lower v⟩
    rw [redactJsonValue_ok, frames_clean, clean_clean]
    exact ⟨room, rfl⟩
  · intro body
    cases body with
    | none => exact iff_of_true ⟨none, rfl⟩ (fun text same => nomatch same)
    | some body =>
        rw [sanitizeResponseBody_ok]
        constructor
        · rintro within text same
          rwa [← Option.some.inj same]
        · intro within
          exact within body rfl

end

/-! ## A long integer -/

private def unitText : FloatText Unit := ⟨fun _ => (), fun _ => []⟩

/-- `sys.int_info.default_max_str_digits`, and room for everything else. -/
private def defaultDigits : Limits := ⟨4300, 1000, 1000, 1000⟩

/-- `[1, {"token ": [2], "a": null}]`. -/
example : sanitizeResponseBody unitText id defaultDigits
      (some "[1, \x7b\"token \": [2], \"a\": null\x7d]".toList) =
    .ok (some (codes "[1, \x7b\"token \": \"[REDACTED]\", \"a\": null\x7d]".toList)) := by
  decide +kernel

section

variable {F : Type} (D : FloatText F) (within : Mark → Option Fault)

theorem matchNumber_ones (n : Nat) {rest : Str} (ends : Ends rest) :
    matchNumber (List.replicate (n + 1) '1' ++ rest) = some (List.replicate (n + 1) '1', rest) := by
  have written : NumberText (List.replicate (n + 1) '1') := by
    refine ⟨[], List.replicate (n + 1) '1', [], [], by simp, .inl rfl, .inr ⟨⟨List.cons_ne_nil _ _, ?_⟩, ?_⟩, .inl rfl, .inl rfl⟩
    · rw [List.all_replicate]
      rfl
    · rw [List.replicate_succ]
      exact fun same => nomatch same
  exact matchNumber_complete written ends

theorem scanScalar_ones (n : Nat) {rest : Str} (ends : Ends rest) :
    scanScalar D within (List.replicate (n + 1) '1' ++ rest) =
      (mark within (.integer (n + 1)) >>= fun _ =>
        pure (.scalar (.int (tokenInt (List.replicate (n + 1) '1'))), rest)) := by
  have other : (literals D).find? (fun literal => literal.1.isPrefixOf (List.replicate (n + 1) '1' ++ rest)) = none := rfl
  have whole : isFloatToken (List.replicate (n + 1) '1') = false := by
    rw [isFloatToken, List.any_replicate]
    rfl
  have size : (unsigned (List.replicate (n + 1) '1')).length = n + 1 := List.length_replicate
  unfold scanScalar
  rw [other, matchNumber_ones n ends]
  dsimp only
  rw [whole, size]
  rfl

/-- An integer beyond the limit ends the reading. -/
theorem loads_ones {n : Nat} {fault : Fault} (refused : within (.integer (n + 1)) = some fault) :
    (loads D within (List.replicate (n + 1) '1') []).1 = .error fault := by
  have scanned : (scanScalar D within (List.replicate (n + 1) '1') []).1 = .error fault := by
    have ends : Ends [] := fun c head => nomatch head
    rw [← List.append_nil (List.replicate (n + 1) '1'), scanScalar_ones D within n ends]
    refine fst_bind_of_error ?_
    simp only [mark, refused]
  have unmarked : ¬ (List.replicate (n + 1) '1').head? = some (Char.ofNat 0xFEFF) := by
    rw [List.replicate_succ, List.head?_cons, Option.some.injEq]
    decide
  unfold loads
  rw [refuse_bind, if_neg unmarked]
  exact fst_bind_of_error scanned

/-- `{"token":11...1}`, with so many digits after the first. -/
def tokenBody (n : Nat) : Str :=
  ['\x7b', '"', 't', 'o', 'k', 'e', 'n', '"', ':'] ++ (List.replicate (n + 1) '1' ++ ['\x7d'])

/-- `{"token": 11...1}`. -/
def tokenValue (n : Nat) : Value F :=
  .object [(codes "token".toList, .scalar (.int (tokenInt (List.replicate (n + 1) '1'))))]

theorem alike_tokenValue (n m : Nat) : Alike id (tokenValue n : Value F) (tokenValue m) := by
  rw [tokenValue, tokenValue, Alike, AlikeMembers, AlikeMembers]
  exact ⟨rfl, .inl (by decide), trivial⟩

/-- What the scanner comes to in the body. -/
theorem loads_tokenBody (n : Nat) : loads D within (tokenBody n) =
    (mark within (.opens 1) >>= fun _ => mark within (.integer (n + 1)) >>= fun _ => pure (tokenValue n)) := by
  obtain ⟨fuel, size⟩ : ∃ fuel, 2 * (tokenBody n).length + 1 = fuel + 3 := ⟨2 * (tokenBody n).length - 2, by
    simp only [tokenBody, List.length_append, List.length_replicate]; omega⟩
  have ends : Ends ['\x7d'] := by
    intro c head
    obtain rfl := Option.some.inj head
    decide
  have key : scanKey (skip (tokenBody n).tail) = .ok (codes "token".toList, List.replicate (n + 1) '1' ++ ['\x7d']) := rfl
  have item : scanOnce D within (fuel + 1) 1 (List.replicate (n + 1) '1' ++ ['\x7d']) =
      scanScalar D within (List.replicate (n + 1) '1' ++ ['\x7d']) := rfl
  have inside : scanMembers D within (fuel + 2) 1 [] (skip (tokenBody n).tail) =
      (mark within (.integer (n + 1)) >>= fun _ => pure (tokenValue n, [])) := by
    rw [scanMembers, key, lift_ok_bind]
    dsimp only
    rw [item, scanScalar_ones D within n ends, bind_bind]
    rfl
  have whole : scanOnce D within (fuel + 3) 0 (skip (tokenBody n)) =
      (mark within (.opens 1) >>= fun _ => scanMembers D within (fuel + 2) 1 [] (skip (tokenBody n).tail)) := rfl
  have unmarked : (tokenBody n).head? ≠ some (Char.ofNat 0xFEFF) := fun same => absurd (Option.some.inj same) (by decide)
  rw [loads, size, whole, inside, refuse_false_bind _ _ unmarked, bind_bind]
  refine congrArg _ (funext fun _ => ?_)
  rw [bind_bind]
  rfl

end

/-- An integer of too many digits makes the function raise, under a sensitive key too. -/
theorem long_integer_raises :
    (¬ ∀ body, ∃ sanitized, sanitizeResponseBody unitText id defaultDigits (some body) = .ok sanitized) ∧
    ∃ a b v w, (loads unitText free a []).1 = .ok v ∧ (loads unitText free b []).1 = .ok w ∧ Alike id v w ∧
      sanitizeResponseBody unitText id defaultDigits (some a) =
        .ok (some (codes "\x7b\"token\": \"[REDACTED]\"\x7d".toList)) ∧
      sanitizeResponseBody unitText id defaultDigits (some b) = .error .valueError := by
  have raised : sanitizeResponseBody unitText id defaultDigits (some (tokenBody 4300)) = .error .valueError := by
    rw [sanitizeResponseBody, loads_tokenBody]
    rfl
  refine ⟨fun returns => ?_, tokenBody 0, tokenBody 4300, tokenValue 0, tokenValue 4300, by rw [loads_tokenBody]; rfl,
    by rw [loads_tokenBody]; rfl, alike_tokenValue 0 4300, by decide +kernel, raised⟩
  obtain ⟨sanitized, done⟩ := returns (tokenBody 4300)
  rw [raised] at done
  nomatch done

end ApiSecurityPlatform.Ai
