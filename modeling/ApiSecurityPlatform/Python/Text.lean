/-
# Python.Text -- the text functions of the standard library

`str` methods, `urllib.parse` and `ipaddress`, as far as the policies use them,
after the functions of the same names in Python 3.12.  A `str` is its list of code
points.  Case mapping, NFKC and `repr` read the Unicode database: they are the
argument `Unicode`, and nothing is assumed of them.
-/
import Mathlib.Init

namespace ApiSecurityPlatform.Python

set_option autoImplicit false

abbrev Str := List Char

instance : LawfulBEq Str := inferInstance

/-- The functions behind `str.lower`, `str.upper`, `unicodedata.normalize('NFKC', ..)`
and `repr`. -/
structure Unicode where
  lower : Str → Str
  upper : Str → Str
  nfkc : Str → Str
  repr : Str → Str

/-! ## `str` -/

def isAscii (c : Char) : Bool := c.toNat < 128

/-- `str.isspace` of one character, as `str.strip()` uses it. -/
def isSpace (c : Char) : Bool :=
  let n := c.toNat
  (9 ≤ n && n ≤ 13) || (28 ≤ n && n ≤ 32) || n == 0x85 || n == 0xA0 || n == 0x1680 ||
    (0x2000 ≤ n && n ≤ 0x200A) || n == 0x2028 || n == 0x2029 || n == 0x202F || n == 0x205F ||
    n == 0x3000

theorem toLower_of_not_upper {c : Char} (other : ¬ (c.val ≥ 65 ∧ c.val ≤ 90)) : c.toLower = c := dif_neg other

def lstrip (drop : Char → Bool) (s : Str) : Str := s.dropWhile drop

def rstrip (drop : Char → Bool) (s : Str) : Str := (s.reverse.dropWhile drop).reverse

/-- `s.strip()`. -/
def strip (s : Str) : Str := rstrip isSpace (lstrip isSpace s)

/-- `s.partition(c)`; the flag says whether the separator was found. -/
def partition (c : Char) : Str → Str × Bool × Str
  | [] => ([], false, [])
  | d :: rest =>
      if d = c then ([], true, rest)
      else let (head, found, tail) := partition c rest
        (d :: head, found, tail)

/-- The last part of `s.rpartition(c)`, and whether the separator was found. -/
def rpartition (c : Char) (s : Str) : Str × Bool × Str :=
  let (tail, found, head) := partition c s.reverse
  if found then (head.reverse, true, tail.reverse) else ([], false, s)

/-- `s.split(c)`. -/
def split (c : Char) : Str → List Str
  | [] => [[]]
  | d :: rest =>
      match split c rest with
      | [] => [[d]]
      | part :: parts => if d = c then [] :: part :: parts else (d :: part) :: parts

theorem split_ne_nil (c : Char) (s : Str) : split c s ≠ [] := by
  cases s with
  | nil => simp [split]
  | cons d rest =>
      simp only [split]
      split
      · simp
      · split <;> simp

def join (c : Char) : List Str → Str
  | [] => []
  | [s] => s
  | s :: t :: rest => s ++ c :: join c (t :: rest)

/-- `needle in s`. -/
def contains (needle : Str) : Str → Bool
  | [] => needle.isEmpty
  | c :: rest => needle.isPrefixOf (c :: rest) || contains needle rest

def isDigit (c : Char) : Bool := '0' ≤ c && c ≤ '9'

def hexDigit? (c : Char) : Option Nat :=
  if '0' ≤ c ∧ c ≤ '9' then some (c.toNat - 48)
  else if 'a' ≤ c ∧ c ≤ 'f' then some (c.toNat - 87)
  else if 'A' ≤ c ∧ c ≤ 'F' then some (c.toNat - 55)
  else none

/-- `int(s, base)` of digits. -/
def toInt (base : Nat) (s : Str) : Nat :=
  s.foldl (fun n c => n * base + (hexDigit? c).getD 0) 0

/-! ## `ipaddress` -/

/-- `_parse_octet`. -/
def parseOctet (s : Str) : Option Nat :=
  if s.isEmpty || !s.all isDigit || 3 < s.length || (s != ['0'] && s.head? == some '0') then none
  else if 255 < toInt 10 s then none
  else some (toInt 10 s)

/-- The four octets of an `IPv4Address`. -/
def ipv4 (s : Str) : Option (List Nat) :=
  let octets := split '.' s
  if octets.length ≠ 4 then none else octets.mapM parseOctet

def parseHextet (s : Str) : Option Nat :=
  if s.isEmpty || !s.all (fun c => (hexDigit? c).isSome) || 4 < s.length then none
  else some (toInt 16 s)

/-- The parts between the colons, with an IPv4 suffix turned into two hextets. -/
def ipv6Parts (s : Str) : Option (List Str) :=
  let parts := split ':' s
  if parts.length < 3 then none
  else
    let last := parts.getLastD []
    if '.' ∈ last then
      match ipv4 last with
      | some [a, b, c, d] => some (parts.dropLast ++
          [Nat.toDigits 16 (a * 256 + b), Nat.toDigits 16 (c * 256 + d)])
      | _ => none
    else some parts

/-- `_ip_int_from_string`, as the eight hextets. -/
def ipv6Hextets (s : Str) : Option (List Nat) := do
  let parts ← ipv6Parts s
  if 9 < parts.length then none
  -- the inner empty parts: each is a `::`
  let inner := (List.range parts.length).filter fun i =>
    1 ≤ i && i + 1 < parts.length && (parts.getD i []).isEmpty
  match inner with
  | [] =>
      if parts.length ≠ 8 then none else parts.mapM parseHextet
  | [skip] =>
      let headless := (parts.headD []).isEmpty
      let tailless := (parts.getLastD []).isEmpty
      let hi := if headless then skip - 1 else skip
      let lo := if tailless then parts.length - skip - 2 else parts.length - skip - 1
      if headless && hi ≠ 0 then none
      else if tailless && lo ≠ 0 then none
      else if 7 < hi + lo then none
      else do
        let high ← (parts.take hi).mapM parseHextet
        let low ← (parts.drop (parts.length - lo)).mapM parseHextet
        return high ++ List.replicate (8 - (hi + lo)) 0 ++ low
  | _ => none

/-- The longest run of zeros, the first of equals: its start and its length. -/
def longestZeros (hextets : List Nat) : Nat × Nat :=
  let step := fun (state : (Nat × Nat) × Nat) (entry : Nat × Nat) =>
    let (best, run) := state
    if entry.1 = 0 then
      let run := run + 1
      (if best.2 < run then (entry.2 + 1 - run, run) else best, run)
    else (best, 0)
  (hextets.zipIdx.foldl step ((0, 0), 0)).1

/-- `_string_from_ip_int` with `_compress_hextets`. -/
def compressHextets (hextets : List Nat) : Str :=
  let texts := hextets.map (Nat.toDigits 16)
  let (start, length) := longestZeros hextets
  if length ≤ 1 then join ':' texts
  else
    let before := texts.take start
    let after := texts.drop (start + length)
    join ':' ((if start = 0 then [[]] else []) ++ before ++ [[]] ++ after ++
      if start + length = hextets.length then [[]] else [])

/-- What `ip_address(s)` is, if it is an address. -/
inductive IpAddress where
  | v4 (octets : List Nat)
  | v6 (hextets : List Nat) (scopeId : Option Str)

def ipAddress (s : Str) : Option IpAddress :=
  if '/' ∈ s then none
  else
    match ipv4 s with
    | some octets => some (.v4 octets)
    | none =>
        let (addr, found, scopeId) := partition '%' s
        if found && (scopeId.isEmpty || '%' ∈ scopeId) then none
        else (ipv6Hextets addr).map fun hextets => .v6 hextets (if found then some scopeId else none)

def IpAddress.compressed : IpAddress → Str
  | .v4 octets => join '.' (octets.map (Nat.toDigits 10))
  | .v6 hextets none => compressHextets hextets
  | .v6 hextets (some scopeId) => compressHextets hextets ++ '%' :: scopeId

/-! ## `urllib.parse.unquote` -/

/-- The byte of the two hexadecimal digits `s` starts with. -/
def escape? : Str → Option Nat
  | a :: b :: _ =>
      match hexDigit? a, hexDigit? b with
      | some high, some low => some (high * 16 + low)
      | _, _ => none
  | _ => none

/-- `_unquote_impl`, on ASCII text, as bytes; the first `skip` characters have been
read as an escape. -/
def unquoteImpl : Nat → Str → List Nat
  | _, [] => []
  | skip + 1, _ :: rest => unquoteImpl skip rest
  | 0, c :: rest =>
      if c = '%' then
        match escape? rest with
        | some byte => byte :: unquoteImpl 2 rest
        | none => c.toNat :: unquoteImpl 0 rest
      else c.toNat :: unquoteImpl 0 rest

/-- A started UTF-8 sequence: how many bytes follow the next one, the range of the
next one, and the bits so far. -/
structure Pending where
  left : Nat
  low : Nat
  high : Nat
  bits : Nat

def replacement : Char := Char.ofNat 0xFFFD

/-- A first byte: a character of its own (or a replacement), or a started sequence. -/
def leadByte (b : Nat) : Char ⊕ Pending :=
  if b < 0x80 then .inl (Char.ofNat b)
  else if 0xC2 ≤ b ∧ b ≤ 0xDF then .inr ⟨0, 0x80, 0xBF, b - 0xC0⟩
  else if b = 0xE0 then .inr ⟨1, 0xA0, 0xBF, 0⟩
  else if b = 0xED then .inr ⟨1, 0x80, 0x9F, 0xD⟩
  else if 0xE1 ≤ b ∧ b ≤ 0xEF then .inr ⟨1, 0x80, 0xBF, b - 0xE0⟩
  else if b = 0xF0 then .inr ⟨2, 0x90, 0xBF, 0⟩
  else if b = 0xF4 then .inr ⟨2, 0x80, 0x8F, 4⟩
  else if 0xF1 ≤ b ∧ b ≤ 0xF3 then .inr ⟨2, 0x80, 0xBF, b - 0xF0⟩
  else .inl replacement

/-- `bytes.decode('utf-8', 'replace')`: one replacement for each maximal invalid
part. -/
def decodeUtf8 : Option Pending → List Nat → Str
  | none, [] => []
  | some _, [] => [replacement]
  | none, b :: rest =>
      match leadByte b with
      | .inl c => c :: decodeUtf8 none rest
      | .inr pending => decodeUtf8 (some pending) rest
  | some p, b :: rest =>
      if p.low ≤ b ∧ b ≤ p.high then
        let bits := p.bits * 64 + (b - 0x80)
        match p.left with
        | 0 => Char.ofNat bits :: decodeUtf8 none rest
        | left + 1 => decodeUtf8 (some ⟨left, 0x80, 0xBF, bits⟩) rest
      else
        match leadByte b with
        | .inl c => replacement :: c :: decodeUtf8 none rest
        | .inr pending => replacement :: decodeUtf8 (some pending) rest

/-- The ASCII runs are unquoted one by one; other characters stay. -/
def unquoteParts (run : Str) : Str → Str
  | [] => decodeUtf8 none (unquoteImpl 0 run)
  | c :: rest =>
      if isAscii c then unquoteParts (run ++ [c]) rest
      else decodeUtf8 none (unquoteImpl 0 run) ++ c :: unquoteParts [] rest

def unquote (s : Str) : Str := if '%' ∈ s then unquoteParts [] s else s

/-! ## `urllib.parse.urlsplit` -/

/-- The parts of a `SplitResult` the policies read. -/
structure SplitResult where
  scheme : Str
  netloc : Str
  path : Str
deriving DecidableEq

def isSchemeChar (c : Char) : Bool :=
  ('a' ≤ c && c ≤ 'z') || ('A' ≤ c && c ≤ 'Z') || isDigit c || c == '+' || c == '-' || c == '.'

def isAsciiAlpha (c : Char) : Bool := ('a' ≤ c && c ≤ 'z') || ('A' ≤ c && c ≤ 'Z')

/-- `_check_bracketed_host`. -/
def bracketedHostValid (hostname : Str) : Bool :=
  if hostname.head? = some 'v' then
    let (digits, found, rest) := partition '.' hostname.tail
    found && !digits.isEmpty && digits.all (fun c => (hexDigit? c).isSome) && !rest.isEmpty &&
      !rest.contains '\n'
  else
    match ipAddress hostname with
    | some (.v6 _ _) => true
    | _ => false

/-- `_check_bracketed_netloc`. -/
def bracketedNetlocValid (netloc : Str) : Bool :=
  let hostnameAndPort := (rpartition '@' netloc).2.2
  let (before, haveOpenBr, bracketed) := partition '[' hostnameAndPort
  if haveOpenBr then
    let (hostname, _, port) := partition ']' bracketed
    before.isEmpty && (port.isEmpty || port.head? == some ':') && bracketedHostValid hostname
  else bracketedHostValid (partition ':' hostnameAndPort).1

/-- `_checknetloc`. -/
def netlocValid (U : Unicode) (netloc : Str) : Bool :=
  if netloc.all isAscii then true
  else
    let n := netloc.filter fun c => !(c == '@' || c == ':' || c == '#' || c == '?')
    let normal := U.nfkc n
    n == normal || !normal.any fun c => c == '/' || c == '?' || c == '#' || c == '@' || c == ':'

/-- `urlsplit(url)`; `none` is a `ValueError`. -/
def urlsplit (U : Unicode) (url : Str) : Option SplitResult :=
  let url := lstrip (fun c => c.toNat ≤ 32) url
  let url := url.filter fun c => !(c == '\t' || c == '\r' || c == '\n')
  let (head, colon, tail) := partition ':' url
  let (scheme, url) :=
    if colon && (head.head?.map isAsciiAlpha).getD false && head.all isSchemeChar then
      (U.lower head, tail)
    else ([], url)
  let isDelimiter : Char → Bool := fun c => c == '/' || c == '?' || c == '#'
  let hasNetloc := ['/', '/'].isPrefixOf url
  let netloc := if hasNetloc then (url.drop 2).takeWhile fun c => !isDelimiter c else []
  let rest := if hasNetloc then (url.drop 2).dropWhile fun c => !isDelimiter c else url
  if xor (decide ('[' ∈ netloc)) (decide (']' ∈ netloc)) then none
  else if '[' ∈ netloc ∧ bracketedNetlocValid netloc = false then none
  else if netlocValid U netloc = false then none
  else some ⟨scheme, netloc, (partition '?' (partition '#' rest).1).1⟩

/-- `sys.int_info.default_max_str_digits`. -/
def maxStrDigits : Nat := 4300

namespace SplitResult

variable (r : SplitResult)

/-- `username is not None or password is not None`. -/
def hasUserinfo : Bool := (rpartition '@' r.netloc).2.1

/-- `_hostinfo`. -/
def hostinfo : Str × Option Str :=
  let hostinfo := (rpartition '@' r.netloc).2.2
  let (_, haveOpenBr, bracketed) := partition '[' hostinfo
  let (hostname, port) :=
    if haveOpenBr then
      let (hostname, _, port) := partition ']' bracketed
      (hostname, (partition ':' port).2.2)
    else
      let (hostname, _, port) := partition ':' hostinfo
      (hostname, port)
  (hostname, if port.isEmpty then none else some port)

/-- `hostname`; a zone is not lowered. -/
def hostname (U : Unicode) : Option Str :=
  let hostname := r.hostinfo.1
  if hostname.isEmpty then none
  else
    let (hostname, percent, zone) := partition '%' hostname
    some (U.lower hostname ++ if percent then '%' :: zone else [])

/-- `port`; the outer `none` is a `ValueError`, as `int` raises it for too many digits. -/
def port : Option (Option Nat) :=
  match r.hostinfo.2 with
  | none => some none
  | some text =>
      if text.all isDigit then
        if text.length ≤ maxStrDigits ∧ toInt 10 text ≤ 65535 then some (some (toInt 10 text)) else none
      else none

end SplitResult

end ApiSecurityPlatform.Python
