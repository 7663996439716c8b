/-
# Python.Quote -- `urllib.parse.quote` and its inverse

`quote(s, safe='')` keeps letters, digits and `_.-~` and writes every other byte of the
UTF-8 encoding as `%XX`.  One round of `unquote` takes it back, wherever it stands in an
ASCII text (`unquoteImpl_quote`, `decodeUtf8_utf8`).
-/
import ApiSecurityPlatform.Python.TextLaws
import Mathlib.Tactic.IntervalCases

namespace ApiSecurityPlatform.Python

set_option autoImplicit false

/-- `_ALWAYS_SAFE`. -/
def isAlwaysSafe (c : Char) : Bool :=
  isAsciiAlpha c || isDigit c || c == '_' || c == '.' || c == '-' || c == '~'

def upperHexDigit (d : Nat) : Char := if d < 10 then Char.ofNat (48 + d) else Char.ofNat (55 + d)

/-- `_Quoter.__missing__`, with `'%{:02X}'.format(b)`. -/
def quoteByte (b : Nat) : Str :=
  if isAlwaysSafe (Char.ofNat b) then [Char.ofNat b] else ['%', upperHexDigit (b / 16), upperHexDigit (b % 16)]

/-- The bytes of `s.encode('utf-8')`, as numbers. -/
def utf8Bytes (s : Str) : List Nat := (s.flatMap String.utf8EncodeChar).map UInt8.toNat

/-- `quote(s, safe='')`. -/
def quote (s : Str) : Str := (utf8Bytes s).flatMap quoteByte

/-! ## Bytes -/

theorem utf8Bytes_append (s t : Str) : utf8Bytes (s ++ t) = utf8Bytes s ++ utf8Bytes t := by
  rw [utf8Bytes, List.flatMap_append, List.map_append, utf8Bytes, utf8Bytes]

theorem utf8Bytes_cons (c : Char) (s : Str) :
    utf8Bytes (c :: s) = (String.utf8EncodeChar c).map UInt8.toNat ++ utf8Bytes s := by
  rw [utf8Bytes, List.flatMap_cons, List.map_append, utf8Bytes]

theorem utf8Bytes_lt {s : Str} {b : Nat} (mem : b ∈ utf8Bytes s) : b < 256 := by
  obtain ⟨byte, -, rfl⟩ := List.mem_map.1 mem
  exact byte.toNat_lt

theorem utf8EncodeChar_ascii {c : Char} (small : isAscii c = true) :
    (String.utf8EncodeChar c).map UInt8.toNat = [c.toNat] := by
  have bound : c.toNat < 128 := of_decide_eq_true small
  have value : c.val.toNat = c.toNat := rfl
  unfold String.utf8EncodeChar
  dsimp only
  rw [value, if_pos (by omega), List.map_singleton, UInt8.toNat_ofNat', Nat.mod_eq_of_lt (by omega)]

/-- An ASCII text is its bytes. -/
theorem utf8Bytes_ascii {s : Str} (ascii : s.all isAscii = true) : utf8Bytes s = s.map Char.toNat := by
  induction s with
  | nil => rfl
  | cons c s ih =>
      rw [List.all_cons, Bool.and_eq_true] at ascii
      rw [utf8Bytes_cons, utf8EncodeChar_ascii ascii.1, ih ascii.2]
      rfl

section Decode

variable (rest : List Nat)

theorem leadByte_two {b : Nat} (low : 0xC2 ≤ b) (high : b ≤ 0xDF) :
    leadByte b = .inr ⟨0, 0x80, 0xBF, b - 0xC0⟩ := by
  rw [leadByte, if_neg (by omega), if_pos ⟨low, high⟩]

/-- A first byte of three, and the range it leaves to the second. -/
theorem leadByte_three {v : Nat} (low : 0x800 ≤ v) (high : v ≤ 0xFFFF) (scalar : v < 0xD800 ∨ 0xDFFF < v) :
    ∃ first last, leadByte (v / 4096 + 0xE0) = .inr ⟨1, first, last, v / 4096⟩ ∧
      first ≤ v / 64 % 64 + 0x80 ∧ v / 64 % 64 + 0x80 ≤ last := by
  rw [leadByte, if_neg (by omega), if_neg (by omega)]
  by_cases zero : v / 4096 + 0xE0 = 0xE0
  · rw [if_pos zero]
    exact ⟨_, _, by rw [show v / 4096 = 0 by omega], by omega, by omega⟩
  · rw [if_neg zero]
    by_cases surrogate : v / 4096 + 0xE0 = 0xED
    · rw [if_pos surrogate]
      exact ⟨_, _, by rw [show v / 4096 = 0xD by omega], by omega, by omega⟩
    · rw [if_neg surrogate, if_pos (by omega)]
      exact ⟨_, _, by rw [Nat.add_sub_cancel], by omega, by omega⟩

/-- A first byte of four, and the range it leaves to the second. -/
theorem leadByte_four {v : Nat} (low : 0x10000 ≤ v) (high : v < 0x110000) :
    ∃ first last, leadByte (v / 262144 + 0xF0) = .inr ⟨2, first, last, v / 262144⟩ ∧
      first ≤ v / 4096 % 64 + 0x80 ∧ v / 4096 % 64 + 0x80 ≤ last := by
  rw [leadByte, if_neg (by omega), if_neg (by omega), if_neg (by omega), if_neg (by omega), if_neg (by omega)]
  by_cases zero : v / 262144 + 0xF0 = 0xF0
  · rw [if_pos zero]
    exact ⟨_, _, by rw [show v / 262144 = 0 by omega], by omega, by omega⟩
  · rw [if_neg zero]
    by_cases last : v / 262144 + 0xF0 = 0xF4
    · rw [if_pos last]
      exact ⟨_, _, by rw [show v / 262144 = 4 by omega], by omega, by omega⟩
    · rw [if_neg last, if_pos (by omega)]
      exact ⟨_, _, by rw [Nat.add_sub_cancel], by omega, by omega⟩

theorem decodeUtf8_last {low high bits b : Nat} (from_ : low ≤ b) (to_ : b ≤ high) :
    decodeUtf8 (some ⟨0, low, high, bits⟩) (b :: rest) =
      Char.ofNat (bits * 64 + (b - 0x80)) :: decodeUtf8 none rest := by
  rw [decodeUtf8, if_pos ⟨from_, to_⟩]

theorem decodeUtf8_more {left low high bits b : Nat} (from_ : low ≤ b) (to_ : b ≤ high) :
    decodeUtf8 (some ⟨left + 1, low, high, bits⟩) (b :: rest) =
      decodeUtf8 (some ⟨left, 0x80, 0xBF, bits * 64 + (b - 0x80)⟩) rest := by
  rw [decodeUtf8, if_pos ⟨from_, to_⟩]

theorem decodeUtf8_lead {b : Nat} {pending : Pending} (lead : leadByte b = .inr pending) :
    decodeUtf8 none (b :: rest) = decodeUtf8 (some pending) rest := by
  rw [decodeUtf8, lead]

/-- A character is decoded from its own bytes. -/
theorem decodeUtf8_char (c : Char) :
    decodeUtf8 none ((String.utf8EncodeChar c).map UInt8.toNat ++ rest) = c :: decodeUtf8 none rest := by
  have value : c.val.toNat = c.toNat := rfl
  have scalar : c.toNat < 0xD800 ∨ (0xDFFF < c.toNat ∧ c.toNat < 0x110000) := c.valid
  have back : ∀ n, n = c.toNat → Char.ofNat n = c := by
    rintro n rfl
    exact Char.ofNat_toNat c
  unfold String.utf8EncodeChar
  dsimp only
  rw [value]
  by_cases one : c.toNat ≤ 0x7f
  · rw [if_pos one, List.map_singleton, UInt8.toNat_ofNat', Nat.mod_eq_of_lt (by omega), List.singleton_append,
      decodeUtf8, leadByte, if_pos (by omega), back _ rfl]
  rw [if_neg one]
  by_cases two : c.toNat ≤ 0x7ff
  · rw [if_pos two]
    simp only [List.map_cons, List.map_nil, List.cons_append, List.nil_append, UInt8.toNat_ofNat']
    rw [decodeUtf8_lead _ (leadByte_two (by omega) (by omega)), decodeUtf8_last _ (by omega) (by omega),
      back _ (by omega)]
  rw [if_neg two]
  by_cases three : c.toNat ≤ 0xffff
  · rw [if_pos three]
    simp only [List.map_cons, List.map_nil, List.cons_append, List.nil_append, UInt8.toNat_ofNat']
    obtain ⟨first, last, lead, low, high⟩ := @leadByte_three c.toNat (by omega) three (by omega)
    have byte : (c.toNat / 4096 % 16 + 0xe0) % 2 ^ 8 = c.toNat / 4096 + 0xE0 := by omega
    rw [byte, decodeUtf8_lead _ lead, decodeUtf8_more _ (by omega) (by omega), decodeUtf8_last _ (by omega) (by omega),
      back _ (by omega)]
  · rw [if_neg three]
    simp only [List.map_cons, List.map_nil, List.cons_append, List.nil_append, UInt8.toNat_ofNat']
    obtain ⟨first, last, lead, low, high⟩ := @leadByte_four c.toNat (by omega) (by omega)
    have byte : (c.toNat / 262144 % 8 + 0xf0) % 2 ^ 8 = c.toNat / 262144 + 0xF0 := by omega
    rw [byte, decodeUtf8_lead _ lead, decodeUtf8_more _ (by omega) (by omega), decodeUtf8_more _ (by omega) (by omega),
      decodeUtf8_last _ (by omega) (by omega), back _ (by omega)]

end Decode

theorem decodeUtf8_utf8 (s : Str) : decodeUtf8 none (utf8Bytes s) = s := by
  induction s with
  | nil => rfl
  | cons c s ih => rw [utf8Bytes_cons, decodeUtf8_char, ih]

/-! ## Quoting -/

/-- One quoted byte: its own character, which is no `%`, or its escape. -/
theorem quoteByte_shape : ∀ b < 256, (quoteByte b).all (fun c => isAlwaysSafe c || c == '%') = true ∧
    ((quoteByte b = [Char.ofNat b] ∧ (Char.ofNat b).toNat = b ∧ Char.ofNat b ≠ '%') ∨
      ∃ high low, quoteByte b = ['%', high, low] ∧ escape? [high, low] = some b) := by
  intro b small
  by_cases safe : isAlwaysSafe (Char.ofNat b) = true
  · have shape : quoteByte b = [Char.ofNat b] := if_pos safe
    rw [shape]
    refine ⟨by simp [safe], .inl ⟨rfl, ?_, ?_⟩⟩
    · have all : ∀ n < 256, (Char.ofNat n).toNat = n := by decide +kernel
      exact all b small
    · intro percent
      rw [percent] at safe
      exact absurd safe (by decide)
  · have shape : quoteByte b = ['%', upperHexDigit (b / 16), upperHexDigit (b % 16)] := if_neg safe
    have digit : ∀ d < 16, hexDigit? (upperHexDigit d) = some d ∧ isAlwaysSafe (upperHexDigit d) = true := by decide
    have high := digit (b / 16) (by omega)
    have low := digit (b % 16) (by omega)
    refine ⟨by rw [shape]; simp [high.2, low.2], .inr ⟨_, _, shape, ?_⟩⟩
    rw [escape?, high.1, low.1]
    exact congrArg some (by omega)

theorem unquoteImpl_quoteByte {b : Nat} (small : b < 256) (rest : Str) :
    unquoteImpl 0 (quoteByte b ++ rest) = b :: unquoteImpl 0 rest := by
  rcases (quoteByte_shape b small).2 with ⟨shape, value, other⟩ | ⟨high, low, shape, escape⟩
  · rw [shape, List.singleton_append, unquoteImpl, if_neg other, value]
  · have read : escape? (high :: low :: rest) = some b := by rw [← escape]; rfl
    rw [shape, List.cons_append, unquoteImpl, if_pos rfl, List.cons_append, List.cons_append, List.nil_append, read]
    rfl

theorem unquoteImpl_quoted {bytes : List Nat} (small : ∀ b ∈ bytes, b < 256) (rest : Str) :
    unquoteImpl 0 (bytes.flatMap quoteByte ++ rest) = bytes ++ unquoteImpl 0 rest := by
  induction bytes with
  | nil => rfl
  | cons b bytes ih =>
      rw [List.flatMap_cons, List.append_assoc, unquoteImpl_quoteByte (small b (by simp)),
        ih fun c mem => small c (by simp [mem]), List.cons_append]

/-- A quoted text is read back as its bytes, whatever follows. -/
theorem unquoteImpl_quote (s rest : Str) : unquoteImpl 0 (quote s ++ rest) = utf8Bytes s ++ unquoteImpl 0 rest :=
  unquoteImpl_quoted (fun _ => utf8Bytes_lt) rest

/-- A text without `%` is read as its own characters, whatever follows. -/
theorem unquoteImpl_plain {s : Str} (plain : '%' ∉ s) (rest : Str) :
    unquoteImpl 0 (s ++ rest) = s.map Char.toNat ++ unquoteImpl 0 rest := by
  induction s with
  | nil => rfl
  | cons c s ih =>
      rw [List.mem_cons, not_or] at plain
      rw [List.cons_append, unquoteImpl, if_neg (Ne.symm plain.1), ih plain.2]
      rfl

theorem quote_append (s t : Str) : quote (s ++ t) = quote s ++ quote t := by
  rw [quote, utf8Bytes_append, List.flatMap_append, quote, quote]

theorem mem_quote {s : Str} {c : Char} (mem : c ∈ quote s) : isAlwaysSafe c = true ∨ c = '%' := by
  obtain ⟨b, byte, inside⟩ := List.mem_flatMap.1 mem
  have shape := List.all_eq_true.1 (quoteByte_shape b (utf8Bytes_lt byte)).1 c inside
  simpa using shape

/-- Different texts are quoted differently. -/
theorem quote_injective {s t : Str} (same : quote s = quote t) : s = t := by
  have first := unquoteImpl_quote s []
  rw [same, unquoteImpl_quote t []] at first
  rw [← decodeUtf8_utf8 s, ← decodeUtf8_utf8 t, List.append_cancel_right first]

/-- An ASCII text is one run. -/
theorem unquoteParts_ascii {run s : Str} (ascii : s.all isAscii = true) :
    unquoteParts run s = decodeUtf8 none (unquoteImpl 0 (run ++ s)) := by
  induction s generalizing run with
  | nil => rw [unquoteParts, List.append_nil]
  | cons c s ih =>
      rw [List.all_cons, Bool.and_eq_true] at ascii
      rw [unquoteParts, if_pos ascii.1, ih ascii.2, List.append_assoc, List.singleton_append]

theorem unquote_ascii {s : Str} (ascii : s.all isAscii = true) : unquote s = decodeUtf8 none (unquoteImpl 0 s) := by
  unfold unquote
  split
  · exact unquoteParts_ascii ascii
  · next plain =>
    have whole := unquoteImpl_plain plain []
    rw [List.append_nil, unquoteImpl, List.append_nil] at whole
    rw [whole, decodeUtf8_ascii ascii]

end ApiSecurityPlatform.Python
