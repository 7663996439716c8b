/-
# Proposals.Grammar -- the JSON grammar

The grammar of RFC 8259, as relations between a text and its value, without white space
around a value (`ValueText`); the further items of a container run to its closing bracket.
A string has no lone surrogates, and a number is a token of at most 64 characters that is
finite.  Duplicate keys, levels and values are counted on the value (`Json.height`,
`Json.values`).
-/
import ApiSecurityPlatform.Proposals.Codec

namespace ApiSecurityPlatform.Python.Json

set_option autoImplicit false

variable {F : Type}

mutual

/-- The levels below a value: the items of a container are one level further down. -/
def height : Json F → Nat
  | .array items => itemsHeight items
  | .object members => membersHeight members
  | _ => 0

def itemsHeight : List (Json F) → Nat
  | [] => 0
  | v :: rest => max (v.height + 1) (itemsHeight rest)

def membersHeight : List (Str × Json F) → Nat
  | [] => 0
  | (_, v) :: rest => max (v.height + 1) (membersHeight rest)

end

mutual

/-- How many values a value is made of, itself included. -/
def values : Json F → Nat
  | .array items => 1 + itemsValues items
  | .object members => 1 + membersValues members
  | _ => 1

def itemsValues : List (Json F) → Nat
  | [] => 0
  | v :: rest => v.values + itemsValues rest

def membersValues : List (Str × Json F) → Nat
  | [] => 0
  | (_, v) :: rest => v.values + membersValues rest

end

end ApiSecurityPlatform.Python.Json

namespace ApiSecurityPlatform.Proposals

open ApiSecurityPlatform.Python

set_option autoImplicit false

def Whitespace (s : Str) : Prop := ∀ c ∈ s, isWhitespace c = true

/-! ## Strings -/

/-- One character of a string, as it may be written. -/
inductive CharText : Str → Char → Prop where
  | plain (c : Char) (printable : 0x20 ≤ c.toNat) (quote : c ≠ '"') (slash : c ≠ '\\') : CharText [c] c
  | quote : CharText ['\\', '"'] '"'
  | slash : CharText ['\\', '\\'] '\\'
  | solidus : CharText ['\\', '/'] '/'
  | backspace : CharText ['\\', 'b'] (Char.ofNat 8)
  | formFeed : CharText ['\\', 'f'] (Char.ofNat 12)
  | lineFeed : CharText ['\\', 'n'] '\n'
  | carriageReturn : CharText ['\\', 'r'] '\r'
  | tab : CharText ['\\', 't'] '\t'
  /-- A code point of the basic plane. -/
  | unicode {a b c d : Char} {n : Nat} (digits : hex4 [a, b, c, d] = some n)
      (high : isHighSurrogate n = false) (low : isLowSurrogate n = false) :
      CharText ['\\', 'u', a, b, c, d] (Char.ofNat n)
  /-- A surrogate pair. -/
  | pair {a b c d a' b' c' d' : Char} {n m : Nat} (digits : hex4 [a, b, c, d] = some n)
      (digits' : hex4 [a', b', c', d'] = some m) (high : isHighSurrogate n = true) (low : isLowSurrogate m = true) :
      CharText ['\\', 'u', a, b, c, d, '\\', 'u', a', b', c', d']
        (Char.ofNat (0x10000 + (n - 0xD800) * 0x400 + (m - 0xDC00)))

/-- The characters of a string, without the quotes. -/
inductive CharsText : Str → Str → Prop where
  | nil : CharsText [] []
  | cons {text rest s : Str} {c : Char} (first : CharText text c) (more : CharsText rest s) :
      CharsText (text ++ rest) (c :: s)

/-- A string with its quotes. -/
def StringText (text s : Str) : Prop := ∃ inner, text = '"' :: (inner ++ ['"']) ∧ CharsText inner s

/-! ## Numbers -/

def Digits (s : Str) : Prop := s ≠ [] ∧ s.all isDigit = true

/-- `int`: no leading zeros. -/
def IntText (s : Str) : Prop := s = ['0'] ∨ Digits s ∧ s.head? ≠ some '0'

def FractionText (s : Str) : Prop := s = [] ∨ ∃ digits, s = '.' :: digits ∧ Digits digits

def ExponentText (s : Str) : Prop :=
  s = [] ∨ ∃ e sign digits, s = e :: (sign ++ digits) ∧ (e = 'e' ∨ e = 'E') ∧
    (sign = [] ∨ sign = ['+'] ∨ sign = ['-']) ∧ Digits digits

/-- `number`, in its parts. -/
structure NumberText (token : Str) : Prop where
  parts : ∃ sign whole fraction exponent, token = sign ++ whole ++ fraction ++ exponent ∧
    (sign = [] ∨ sign = ['-']) ∧ IntText whole ∧ FractionText fraction ∧ ExponentText exponent

/-! ## Values -/

section Values

variable {F : Type} (D : Floats F)

/-- An integer where there is neither a fraction nor an exponent, else a finite float. -/
inductive NumberValue : Str → Number F → Prop where
  | int {token : Str} (whole : isFloatToken token = false) : NumberValue token (.int (tokenInt token))
  | float {token : Str} (parts : isFloatToken token = true) (finite : D.finite token = true) :
      NumberValue token (.float (D.ofText token))

mutual

inductive ValueText : Str → Json F → Prop where
  | null : ValueText "null".toList .null
  | true_ : ValueText "true".toList (.bool true)
  | false_ : ValueText "false".toList (.bool false)
  | number {token : Str} {n : Number F} (shape : NumberText token) (short : token.length ≤ 64)
      (value : NumberValue D token n) : ValueText token (.number n)
  | string {text s : Str} (quoted : StringText text s) : ValueText text (.string s)
  | emptyArray {ws : Str} (space : Whitespace ws) : ValueText ('[' :: (ws ++ [']'])) (.array [])
  | array {text : Str} {items : List (Json F)} (inner : ItemsText text items) : ValueText ('[' :: text) (.array items)
  | emptyObject {ws : Str} (space : Whitespace ws) : ValueText ('\x7b' :: (ws ++ ['\x7d'])) (.object [])
  | object {text : Str} {members : List (Str × Json F)} (inner : MembersText text members) :
      ValueText ('\x7b' :: text) (.object members)

/-- One or more items, with the closing bracket. -/
inductive ItemsText : Str → List (Json F) → Prop where
  | last {before text after : Str} {v : Json F} (space : Whitespace before) (value : ValueText text v)
      (space' : Whitespace after) : ItemsText (before ++ text ++ after ++ [']']) [v]
  | more {before text after rest : Str} {v : Json F} {items : List (Json F)} (space : Whitespace before)
      (value : ValueText text v) (space' : Whitespace after) (others : ItemsText rest items) :
      ItemsText (before ++ text ++ after ++ ',' :: rest) (v :: items)

/-- One or more members, with the closing bracket. -/
inductive MembersText : Str → List (Str × Json F) → Prop where
  | last {before name colon text after after' key : Str} {v : Json F} (space : Whitespace before)
      (named : StringText name key) (space' : Whitespace colon) (leading : Whitespace after)
      (value : ValueText text v) (trailing : Whitespace after') :
      MembersText (before ++ name ++ colon ++ ':' :: (after ++ text ++ after' ++ ['\x7d'])) [(key, v)]
  | more {before name colon text after after' key rest : Str} {v : Json F} {members : List (Str × Json F)}
      (space : Whitespace before) (named : StringText name key) (space' : Whitespace colon)
      (leading : Whitespace after) (value : ValueText text v) (trailing : Whitespace after')
      (others : MembersText rest members) :
      MembersText (before ++ name ++ colon ++ ':' :: (after ++ text ++ after' ++ ',' :: rest)) ((key, v) :: members)

end

/-- **Bounded JSON.**  UTF-8 of at most `maximum` bytes that is one JSON object without
duplicate keys, with at most `depth` levels below it and at most `nodes` values. -/
structure Bounded (limits : Limits) (raw : Bytes) (v : Json F) : Prop where
  size : raw.length ≤ limits.maximum
  text : ∃ before text after, raw = utf8 (before ++ text ++ after) ∧ Whitespace before ∧ Whitespace after ∧
    ValueText D text v
  object : isObject v = true
  distinct : v.Distinct
  height : v.height ≤ limits.depth
  values : v.values ≤ limits.nodes

end Values

end ApiSecurityPlatform.Proposals
