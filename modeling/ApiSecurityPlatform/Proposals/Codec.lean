/-
# Proposals.Codec -- bounded JSON

`bounded_json` is a recursive-descent parser that counts values and levels as it goes down.
Where the source moves a position in the text, the model moves to the rest of the text; the
level is counted down from `depth`, so the recursion is on the levels that are left.  The
loops over the items of a container have the length of the rest as their fuel, and never
use it up (`Proposals.BoundedJson`).

A `str` here is a list of characters: it has no lone surrogates.  A string of the text may
have them until `value.encode('utf-8')`, so what `scanstring` returns are code points.
-/
import ApiSecurityPlatform.Python.Json

namespace ApiSecurityPlatform.Proposals

open ApiSecurityPlatform.Python

set_option autoImplicit false

/-- `CODES`. -/
inductive Code where
  | providerDisabled
  | configUnapproved
  | dataIneligible
  | sourceUnavailable
  | inputLimit
  | outputLimit
  | malformedOutput
  | versionUnsupported
  | requestMismatch
  | referenceUnavailable
  | suggestionUnsupported
  | contextChanged
  | providerRefusal
  | providerIncomplete
  | transportDenied
  | providerTimeout
  | providerFailure
  | credentialUnavailable
  | usageUnknown
  | usageInvalid
  | budgetUnavailable
  | cancelled
  | auditUnavailable
deriving DecidableEq, Repr

/-- What ends a parse without a value: a `ProposalRejected`, or a loop out of fuel. -/
inductive Failure where
  | rejected (code : Code)
  | stuck
deriving DecidableEq, Repr

/-- `require(condition)`. -/
def require (condition : Prop) [Decidable condition] (code : Code) : Except Failure Unit :=
  if condition then .ok () else .error (.rejected code)

@[simp]
theorem require_ok {condition : Prop} [Decidable condition] {code : Code} {u : Unit} :
    require condition code = .ok u ↔ condition := by
  unfold require
  split <;> simp_all

/-! ## Bytes -/

abbrev Bytes := List UInt8

/-- `text.encode('utf-8')`. -/
def utf8 (text : Str) : Bytes := text.flatMap String.utf8EncodeChar

/-- `raw.decode('utf-8', errors='strict')`. -/
def decodeStrict (raw : Bytes) : Option Str := raw.toByteArray.utf8Decode?.map Array.toList

/-! ## Floats -/

/-- The finite floats with which texts they are: `repr` is never longer than
`-2.2250738585072014e-308`. -/
structure Floats (F : Type) extends Doubles F where
  /-- `math.isfinite(float(text))`. -/
  finite : Str → Bool
  finite_repr : ∀ x, finite (decimal x).repr.text = true
  short : ∀ x, (decimal x).repr.text.length ≤ 24

/-- Floats that are all 0.5. -/
def halfFloats : Floats Unit := { onlyHalf with
  finite _ := true
  finite_repr _ := rfl
  short | () => by decide }

/-! ## Strings -/

def isHighSurrogate (n : Nat) : Bool := 0xD800 ≤ n && n ≤ 0xDBFF

def isLowSurrogate (n : Nat) : Bool := 0xDC00 ≤ n && n ≤ 0xDFFF

/-- The four hexadecimal digits of a `\u` escape. -/
def hex4 : Str → Option Nat
  | a :: b :: c :: d :: _ =>
      match hexDigit? a, hexDigit? b, hexDigit? c, hexDigit? d with
      | some a, some b, some c, some d => some (((a * 16 + b) * 16 + c) * 16 + d)
      | _, _, _, _ => none
  | _ => none

/-- `BACKSLASH`. -/
def backslash (c : Char) : Option Nat :=
  if c = '"' then some 34
  else if c = '\\' then some 92
  else if c = '/' then some 47
  else if c = 'b' then some 8
  else if c = 'f' then some 12
  else if c = 'n' then some 10
  else if c = 'r' then some 13
  else if c = 't' then some 9
  else none

/-- A `\u` escape after the `u`: its code point and how many characters it has. -/
def unicodeEscape (s : Str) : Option (Nat × Nat) :=
  match hex4 s with
  | none => none
  | some n =>
      if isHighSurrogate n && ['\\', 'u'].isPrefixOf (s.drop 4) then
        match hex4 (s.drop 6) with
        | none => none
        | some m => if isLowSurrogate m then some (0x10000 + (n - 0xD800) * 0x400 + (m - 0xDC00), 10) else some (n, 4)
      else some (n, 4)

/-- An escape after the backslash. -/
def escape : Str → Option (Nat × Nat)
  | [] => none
  | e :: rest =>
      if e = 'u' then (unicodeEscape rest).map fun (n, size) => (n, size + 1)
      else (backslash e).map fun n => (n, 1)

/-- A code point before what a scan returns. -/
def withCode (n : Nat) (result : Option (List Nat × Str)) : Option (List Nat × Str) :=
  result.map fun (codes, s) => (n :: codes, s)

/-- `scanstring(text, pos, True)`: the code points up to the closing quote, and the rest;
the first `skip` characters have been read as an escape. -/
def scanString : Nat → Str → Option (List Nat × Str)
  | _, [] => none
  | skip + 1, _ :: rest => scanString skip rest
  | 0, c :: rest =>
      if c = '"' then some ([], rest)
      else if c.toNat ≤ 0x1F then none
      else if c = '\\' then (escape rest).bind fun (n, size) => withCode n (scanString size rest)
      else withCode c.toNat (scanString 0 rest)

/-- `value.encode('utf-8', errors='strict')`, as the characters. -/
def encodable : List Nat → Option Str
  | [] => some []
  | n :: rest =>
      if isHighSurrogate n || isLowSurrogate n then none else (encodable rest).map (Char.ofNat n :: ·)

/-! ## Numbers -/

/-- `-?(?:0|[1-9][0-9]*)`: the match, and the rest. -/
def matchInt : Str → Option (Str × Str)
  | '0' :: rest => some (['0'], rest)
  | c :: rest => if isDigit c then some (c :: rest.takeWhile isDigit, rest.dropWhile isDigit) else none
  | [] => none

/-- `(?:\.[0-9]+)?`. -/
def matchFraction : Str → Str × Str
  | '.' :: rest =>
      if rest.takeWhile isDigit = [] then ([], '.' :: rest)
      else ('.' :: rest.takeWhile isDigit, rest.dropWhile isDigit)
  | s => ([], s)

def isSign (c : Char) : Bool := c == '+' || c == '-'

def isExponent (c : Char) : Bool := c == 'e' || c == 'E'

/-- `(?:[eE][+-]?[0-9]+)?`. -/
def matchExponent : Str → Str × Str
  | [] => ([], [])
  | c :: rest =>
      if isExponent c then
        let sign := rest.take (if (rest.head?.map isSign).getD false then 1 else 0)
        let digits := rest.drop sign.length
        if digits.takeWhile isDigit = [] then ([], c :: rest)
        else (c :: (sign ++ digits.takeWhile isDigit), digits.dropWhile isDigit)
      else ([], c :: rest)

/-- `re.match(.., text[pos:])`: the token, and the rest. -/
def matchNumber (s : Str) : Option (Str × Str) :=
  let sign := s.take (if s.head? = some '-' then 1 else 0)
  (matchInt (s.drop sign.length)).map fun (whole, rest) =>
    let (fraction, rest) := matchFraction rest
    let (exponent, rest) := matchExponent rest
    (sign ++ whole ++ fraction ++ exponent, rest)

/-- `int(token)`. -/
def tokenInt (token : Str) : Int :=
  if token.head? = some '-' then -(toInt 10 token.tail : Int) else toInt 10 token

/-- `any(c in token for c in '.eE')`. -/
def isFloatToken (token : Str) : Bool := token.any fun c => c == '.' || isExponent c

section Parser

variable {F : Type} (D : Floats F)

/-- The number of a token; `none` where it is too long or not finite. -/
def tokenNumber (token : Str) : Option (Number F) :=
  if 64 < token.length then none
  else if isFloatToken token then (if D.finite token then some (.float (D.ofText token)) else none)
  else some (.int (tokenInt token))

/-! ## The parser -/

/-- The rest of the text, and the values so far. -/
structure Cursor where
  rest : Str
  count : Nat
deriving DecidableEq

abbrev Parser (α : Type) := Cursor → Except Failure (α × Cursor)

def isWhitespace (c : Char) : Bool := c == ' ' || c == '\t' || c == '\r' || c == '\n'

/-- `whitespace()`. -/
def Cursor.skip (cur : Cursor) : Cursor := { cur with rest := cur.rest.dropWhile isWhitespace }

/-- `string()`. -/
def parseString : Parser Str := fun cur =>
  match cur.rest with
  | '"' :: more =>
      match scanString 0 more with
      | none => .error (.rejected .malformedOutput)
      | some (codes, rest) =>
          match encodable codes with
          | none => .error (.rejected .malformedOutput)
          | some s => .ok (s, { cur with rest })
  | _ => .error (.rejected .malformedOutput)

/-- The character at `pos`, which the source then moves on. -/
def next : Parser Char := fun cur =>
  match cur.rest with
  | [] => .error (.rejected .malformedOutput)
  | c :: rest => .ok (c, { cur with rest })

/-- The `while True` of an array. -/
def parseItems (item : Parser (Json F)) : Nat → List (Json F) → Parser (Json F)
  | 0, _ => fun _ => .error .stuck
  | fuel + 1, items => fun cur => do
      let (v, cur) ← item cur.skip
      let (sep, cur) ← next cur.skip
      if sep = ']' then .ok (.array (items ++ [v]), cur)
      else if sep = ',' then parseItems item fuel (items ++ [v]) cur
      else .error (.rejected .malformedOutput)

/-- The `while True` of an object. -/
def parseMembers (item : Parser (Json F)) : Nat → List (Str × Json F) → Parser (Json F)
  | 0, _ => fun _ => .error .stuck
  | fuel + 1, members => fun cur => do
      let (key, cur) ← parseString cur.skip
      require (key ∉ members.map Prod.fst) .malformedOutput
      let (colon, cur) ← next cur.skip
      require (colon = ':') .malformedOutput
      let (v, cur) ← item cur
      let (sep, cur) ← next cur.skip
      if sep = '\x7d' then .ok (.object (members ++ [(key, v)]), cur)
      else if sep = ',' then parseMembers item fuel (members ++ [(key, v)]) cur
      else .error (.rejected .malformedOutput)

/-- An array after its opening bracket. -/
def parseArray (item : Parser (Json F)) : Parser (Json F) := fun cur =>
  let cur := cur.skip
  match cur.rest with
  | ']' :: rest => .ok (.array [], { cur with rest })
  | rest => parseItems item (rest.length + 1) [] cur

/-- An object after its opening bracket. -/
def parseObject (item : Parser (Json F)) : Parser (Json F) := fun cur =>
  let cur := cur.skip
  match cur.rest with
  | '\x7d' :: rest => .ok (.object [], { cur with rest })
  | rest => parseMembers item (rest.length + 1) [] cur

/-- A literal or a number. -/
def parseScalar : Parser (Json F) := fun cur =>
  if "true".toList.isPrefixOf cur.rest then .ok (.bool true, { cur with rest := cur.rest.drop 4 })
  else if "false".toList.isPrefixOf cur.rest then .ok (.bool false, { cur with rest := cur.rest.drop 5 })
  else if "null".toList.isPrefixOf cur.rest then .ok (.null, { cur with rest := cur.rest.drop 4 })
  else
    match matchNumber cur.rest with
    | none => .error (.rejected .malformedOutput)
    | some (token, rest) =>
        match tokenNumber D token with
        | none => .error (.rejected .malformedOutput)
        | some n => .ok (.number n, { cur with rest })

/-- `value`, once it is counted and the white space before it is gone. -/
def parseBody (item : Parser (Json F)) : Parser (Json F) := fun cur =>
  match cur.rest with
  | [] => .error (.rejected .malformedOutput)
  | '"' :: _ => (parseString cur).map fun (s, cur) => (.string s, cur)
  | '\x7b' :: rest => parseObject item { cur with rest }
  | '[' :: rest => parseArray item { cur with rest }
  | _ => parseScalar D cur

/-- `value(level)` with `level + left = depth + 1`. -/
def parseValue (nodes : Nat) (limitCode : Code) : Nat → Parser (Json F)
  | 0 => fun _ => .error (.rejected limitCode)
  | left + 1 => fun cur => do
      require (cur.count + 1 ≤ nodes) limitCode
      parseBody D (parseValue nodes limitCode left) (Cursor.skip { cur with count := cur.count + 1 })

end Parser

/-- The limits of one call. -/
structure Limits where
  maximum : Nat
  depth : Nat
  nodes : Nat
deriving DecidableEq, Repr

section

variable {F : Type} (D : Floats F)

/-- `type(result) is dict`. -/
def isObject : Json F → Bool
  | .object _ => true
  | _ => false

def boundedJson (limits : Limits) (limitCode : Code) (raw : Bytes) : Except Failure (Json F) := do
  require (raw.length ≤ limits.maximum) limitCode
  match decodeStrict raw with
  | none => .error (.rejected .malformedOutput)
  | some text => do
      let (v, cur) ← parseValue D limits.nodes limitCode (limits.depth + 1) ⟨text, 0⟩
      require (cur.skip.rest = [] ∧ isObject v) .malformedOutput
      return v

/-- `canonical`, of JSON values. -/
def canonical (v : Json F) : Bytes := utf8 (v.canonicalJson D.toDoubles)

end

end ApiSecurityPlatform.Proposals
