/-
# Proposals.Transport -- the response of the provider

`ProviderTransport._response` reads one HTTP response byte by byte from whatever pieces the
wire gives, and refuses everything after it.  A `Response` is the text of one such message;
`response_framing` says that the reader accepts just these texts, for two things only: a
chunk size is at most fourteen digits with no extension, a `Content-Length` at most five.
-/
import ApiSecurityPlatform.Proposals.Codec
import ApiSecurityPlatform.Theory.Fallible
import ApiSecurityPlatform.Theory.Feed

namespace ApiSecurityPlatform.Proposals

open ApiSecurityPlatform.Theory
open ApiSecurityPlatform.Python

set_option autoImplicit false

/-- What a call raises. -/
inductive Raised where
  | rejected (code : Code)
  | other
deriving DecidableEq, Repr

/-- `require(condition, code)`. -/
def demand (condition : Prop) [Decidable condition] (code : Code) : Except Raised Unit :=
  if condition then .ok () else .error (.rejected code)

@[simp]
theorem demand_ok {condition : Prop} [Decidable condition] {code : Code} {u : Unit} :
    demand condition code = .ok u ↔ condition := by
  unfold demand
  split <;> simp_all

/-- The provider's stream.  A fault of a read stands for whatever `boundary` or the wire raises. -/
abbrev Wire := Feed Raised UInt8

/-! ## Bytes -/

def ascii (text : String) : Bytes := utf8 text.toList

def crlf : Bytes := [13, 10]

/-- `raw[:-2]`. -/
def chomp (raw : Bytes) : Bytes := raw.take (raw.length - 2)

/-- What stands before and after the first `sep`. -/
def cut (sep : UInt8) : Bytes → Option (Bytes × Bytes)
  | [] => none
  | b :: rest => if b = sep then some ([], rest) else (cut sep rest).map fun parts => (b :: parts.1, parts.2)

def chars (raw : Bytes) : Str := raw.map fun b => Char.ofNat b.toNat

/-- `raw.isdigit()`. -/
def isDigits (raw : Bytes) : Bool := !raw.isEmpty && (chars raw).all isDigit

def isHex (raw : Bytes) : Bool := !raw.isEmpty && (chars raw).all fun c => (hexDigit? c).isSome

/-- `int(raw, base)`. -/
def number (base : Nat) (raw : Bytes) : Nat := toInt base (chars raw)

def lower (raw : Bytes) : Bytes := raw.map fun b => if 65 ≤ b ∧ b ≤ 90 then b + 32 else b

def isBlank (b : UInt8) : Bool := b = 32 || b = 9

/-- `raw.strip(b' \t')`. -/
def stripBlanks (raw : Bytes) : Bytes := ((raw.dropWhile isBlank).reverse.dropWhile isBlank).reverse

def isToken (b : UInt8) : Bool :=
  (ascii "!#$%&'*+-.^_`|~0123456789abcdefghijklmnopqrstuvwxyzABCDEFGHIJKLMNOPQRSTUVWXYZ").contains b

def isPrintable (b : UInt8) : Bool := b = 9 || (32 ≤ b && b ≤ 126)

/-! ## `ProviderTransport._response` -/

/-- `exact`. -/
def exactly (size : Nat) : Tx Raised Wire Bytes := Feed.exact id (.rejected .providerFailure) size

/-- `line`, with the room that is left for it. -/
def lineLoop : Nat → Bytes → Tx Raised Wire Bytes
  | 0, data => if crlf <:+ data then pure data else Tx.raise (.rejected .outputLimit)
  | room + 1, data =>
      if crlf <:+ data then pure data
      else do
        let more ← exactly 1
        lineLoop room (data ++ more)

def line (cap : Nat) : Tx Raised Wire Bytes := lineLoop cap []

/-- The first two parts of `raw.split(b' ', 2)`. -/
def splitStatus (raw : Bytes) : Option (Bytes × Bytes) :=
  match cut 32 raw with
  | none => none
  | some (version, rest) =>
      match cut 32 rest with
      | none => some (version, rest)
      | some (code, _) => some (version, code)

def statusOf (raw : Bytes) : Except Raised Nat :=
  match splitStatus raw with
  | none => .error (.rejected .transportDenied)
  | some (version, code) => do
      demand (version = ascii "HTTP/1.1" ∧ code.length = 3 ∧ isDigits code = true) .transportDenied
      demand (200 ≤ number 10 code ∧ number 10 code ≤ 599) .transportDenied
      pure (number 10 code)

/-- The `headers` dict. -/
abbrev Headers := List (Bytes × Bytes)

/-- One header line, added to those before it. -/
def headerOf (headers : Headers) (raw : Bytes) : Except Raised Headers :=
  match cut 58 raw with
  | none => .error (.rejected .transportDenied)
  | some (name, value) => do
      demand (name ≠ [] ∧ name.all isToken = true) .transportDenied
      demand (lower name ∉ headers.map Prod.fst ∧ value.all isPrintable = true) .transportDenied
      pure (headers ++ [(lower name, stripBlanks value)])

/-- The `while True:` over the header lines; each line leaves less room, so the fuel is the
room. -/
def headerLines : Nat → Nat → Headers → Tx Raised Wire Headers
  | 0, _, _ => Tx.raise (.rejected .outputLimit)
  | fuel + 1, room, headers => do
      let item ← line room
      if item = crlf then pure headers
      else do
        let headers ← Tx.lift (headerOf headers (chomp item))
        headerLines fuel (room - item.length) headers

inductive Framing where
  | length (size : Nat)
  | chunked
deriving DecidableEq, Repr

def framingOf (status : Nat) (headers : Headers) : Except Raised Framing := do
  demand ((headers.lookup (ascii "content-encoding")).getD (ascii "identity") = ascii "identity") .transportDenied
  let type := lower ((headers.lookup (ascii "content-type")).getD [])
  demand (type = ascii "application/json" ∨ type = ascii "application/json; charset=utf-8") .transportDenied
  demand (¬ (300 ≤ status ∧ status < 400) ∧ headers.lookup (ascii "location") = none) .transportDenied
  match headers.lookup (ascii "content-length"), headers.lookup (ascii "transfer-encoding") with
  | some length, none => do
      demand (isDigits length = true ∧ length.length ≤ 5) .transportDenied
      demand (number 10 length ≤ 65536) .outputLimit
      pure (.length (number 10 length))
  | none, some transfer => do
      demand (transfer = ascii "chunked") .transportDenied
      pure .chunked
  | _, _ => .error (.rejected .transportDenied)

/-- The `for _ in range(8192):` over the chunks. -/
def chunkLines : Nat → Bytes → Tx Raised Wire Bytes
  | 0, _ => Tx.raise (.rejected .outputLimit)
  | n + 1, body => do
      let sizeLine ← line 16
      let size := chomp sizeLine
      Tx.lift (demand (isHex size = true) .transportDenied)
      Tx.lift (demand (body.length + number 16 size ≤ 65536) .outputLimit)
      if number 16 size = 0 then do
        let ending ← exactly 2
        Tx.lift (demand (ending = crlf) .transportDenied)
        pure body
      else do
        let data ← exactly (number 16 size)
        let ending ← exactly 2
        Tx.lift (demand (ending = crlf) .transportDenied)
        chunkLines n (body ++ data)

def bodyOf : Framing → Tx Raised Wire Bytes
  | .length size => exactly size
  | .chunked => chunkLines 8192 []

/-- What is read before the check for the end. -/
def message : Tx Raised Wire (Nat × Bytes) := do
  let statusLine ← line 16384
  let status ← Tx.lift (statusOf (chomp statusLine))
  let headers ← headerLines (16384 - statusLine.length) (16384 - statusLine.length) []
  let framing ← Tx.lift (framingOf status headers)
  let body ← bodyOf framing
  pure (status, body)

/-- `ProviderTransport._response`. -/
def response : Tx Raised Wire (Nat × Bytes) := do
  let result ← message
  let suffix ← Feed.read 1
  Tx.lift (demand (suffix = []) .transportDenied)
  pure result

/-! ## The text of a response -/

structure Chunk where
  /-- The digits of its size. -/
  size : Bytes
  /-- What follows the size on its line. -/
  ext : Bytes
  data : Bytes

inductive Payload where
  | sized (body : Bytes)
  /-- The chunks, then the line of the last one. -/
  | chunked (chunks : List Chunk) (last : Chunk)

/-- One HTTP response, with everything a server may choose. -/
structure Response where
  code : Bytes
  reason : Option Bytes
  fields : List (Bytes × Bytes)
  payload : Payload

namespace Chunk

def line (c : Chunk) : Bytes := c.size ++ c.ext ++ crlf

def text (c : Chunk) : Bytes := c.line ++ c.data ++ crlf

structure WellFormed (c : Chunk) : Prop where
  digits : isHex c.size = true
  size : number 16 c.size = c.data.length
  ext : c.ext ≠ [] → c.ext.head? = some 59
  oneLine : ¬ crlf <:+: c.ext

/-- A size line of sixteen bytes, without an extension. -/
def Narrow (c : Chunk) : Prop := c.ext = [] ∧ c.size.length ≤ 14

end Chunk

namespace Payload

def body : Payload → Bytes
  | sized body => body
  | chunked chunks _ => chunks.flatMap Chunk.data

def text : Payload → Bytes
  | sized body => body
  | chunked chunks last => chunks.flatMap Chunk.text ++ last.text

/-- Sizes that are not spelled longer than the reader takes them. -/
def Narrow (headers : Headers) : Payload → Prop
  | sized _ => ∀ length ∈ headers.lookup (ascii "content-length"), length.length ≤ 5
  | chunked chunks last => (∀ c ∈ chunks, c.Narrow) ∧ last.Narrow

end Payload

/-- The reason phrase, which may be missing with its blank. -/
def reasonText : Option Bytes → Bytes
  | none => []
  | some reason => 32 :: reason

/-- One header line. -/
def fieldText (field : Bytes × Bytes) : Bytes := field.1 ++ 58 :: field.2 ++ crlf

/-- A header as the reader keeps it. -/
def entry (field : Bytes × Bytes) : Bytes × Bytes := (lower field.1, stripBlanks field.2)

namespace Response

def status (r : Response) : Nat := number 10 r.code

def body (r : Response) : Bytes := r.payload.body

def statusText (r : Response) : Bytes := ascii "HTTP/1.1" ++ 32 :: (r.code ++ reasonText r.reason) ++ crlf

def head (r : Response) : Bytes := r.statusText ++ (r.fields.flatMap fieldText ++ crlf)

def text (r : Response) : Bytes := r.head ++ r.payload.text

def headers (r : Response) : Headers := r.fields.map entry

/-- How the body is delimited. -/
def Framed (headers : Headers) : Payload → Prop
  | .sized body => headers.lookup (ascii "transfer-encoding") = none ∧
      ∃ length, headers.lookup (ascii "content-length") = some length ∧ isDigits length = true ∧
        number 10 length = body.length
  | .chunked chunks last => headers.lookup (ascii "content-length") = none ∧
      headers.lookup (ascii "transfer-encoding") = some (ascii "chunked") ∧
      chunks.length ≤ 8191 ∧ (∀ c ∈ chunks, c.WellFormed ∧ c.data ≠ []) ∧ last.WellFormed ∧ last.data = []

structure Admissible (r : Response) : Prop where
  code : r.code.length = 3 ∧ isDigits r.code = true
  status : (200 ≤ r.status ∧ r.status ≤ 299) ∨ (400 ≤ r.status ∧ r.status ≤ 599)
  reason : ∀ reason ∈ r.reason, ¬ crlf <:+: reason
  fields : ∀ field ∈ r.fields, field.1 ≠ [] ∧ field.1.all isToken = true ∧ field.2.all isPrintable = true
  distinct : (r.headers.map Prod.fst).Nodup
  encoding : ∀ v ∈ r.headers.lookup (ascii "content-encoding"), v = ascii "identity"
  type : ∃ v, r.headers.lookup (ascii "content-type") = some v ∧
    (lower v = ascii "application/json" ∨ lower v = ascii "application/json; charset=utf-8")
  stays : r.headers.lookup (ascii "location") = none
  framed : Framed r.headers r.payload
  head : r.head.length ≤ 16384
  body : r.body.length ≤ 65536

/-- What the reader asks beyond that. -/
def Narrow (r : Response) : Prop := r.payload.Narrow r.headers

end Response

/-! ## Bytes cut in two -/

theorem chomp_append (x : Bytes) : chomp (x ++ crlf) = x := by
  have length : (x ++ crlf).length - 2 = x.length := by
    rw [List.length_append, show crlf.length = 2 from rfl, Nat.add_sub_cancel]
  rw [chomp, length, List.take_left]

theorem cut_some {sep : UInt8} {raw a b : Bytes} : cut sep raw = some (a, b) ↔ raw = a ++ sep :: b ∧ sep ∉ a := by
  induction raw generalizing a with
  | nil => simp [cut]
  | cons c rest ih =>
      rw [cut]
      split
      · next same =>
          constructor
          · rintro ⟨rfl, rfl⟩
            exact ⟨by rw [same]; rfl, List.not_mem_nil⟩
          · rintro ⟨whole, absent⟩
            cases a with
            | nil => rw [(List.cons.inj whole).2]
            | cons d a =>
                obtain rfl := (List.cons.inj whole).1
                exact (absent (same ▸ List.mem_cons_self)).elim
      · next other =>
          cases a with
          | nil =>
              simp only [Option.map_eq_some_iff, Prod.mk.injEq, List.cons_ne_nil, false_and, and_false, exists_false,
                List.nil_append, List.cons.injEq, false_iff]
              rintro ⟨⟨same, -⟩, -⟩
              exact other same
          | cons d a =>
              simp only [Option.map_eq_some_iff, Prod.mk.injEq, List.cons.injEq, List.cons_append, List.mem_cons,
                not_or]
              constructor
              · rintro ⟨⟨a', b'⟩, found, ⟨rfl, rfl⟩, rfl⟩
                obtain ⟨whole, absent⟩ := ih.1 found
                exact ⟨⟨rfl, whole⟩, Ne.symm other, absent⟩
              · rintro ⟨⟨rfl, whole⟩, -, absent⟩
                exact ⟨(a, b), ih.2 ⟨whole, absent⟩, ⟨rfl, rfl⟩, rfl⟩

theorem cut_none {sep : UInt8} {raw : Bytes} : cut sep raw = none ↔ sep ∉ raw := by
  induction raw with
  | nil => simp [cut]
  | cons c rest ih =>
      rw [cut]
      split
      · next same => simp [same]
      · next other => simp [ih, Ne.symm other]

/-- A byte whose character is foreign to `p`. -/
theorem not_mem_of_all {p : Char → Bool} {raw : Bytes} (all : (chars raw).all p = true) {b : UInt8}
    (foreign : p (Char.ofNat b.toNat) = false) : b ∉ raw := by
  intro mem
  have holds := List.all_eq_true.1 all _ (List.mem_map_of_mem mem)
  rw [foreign] at holds
  cases holds

theorem digits_all {raw : Bytes} (digits : isDigits raw = true) : (chars raw).all isDigit = true :=
  (Bool.and_eq_true_iff.1 digits).2

/-! ## Lines -/

/-- No line ends in `x`. -/
def OneLine (x : Bytes) : Prop := ¬ crlf <:+: x

theorem oneLine_of_absent {x : Bytes} (absent : 13 ∉ x) : OneLine x := fun ⟨_, _, whole⟩ =>
  absent (whole ▸ List.mem_append_left _ (List.mem_append_right _ List.mem_cons_self))

theorem OneLine.infix {x y : Bytes} (one : OneLine y) (part : x <:+: y) : OneLine x := fun ends =>
  one (ends.trans part)

theorem oneLine_append {a b : Bytes} (absent : 13 ∉ a) (one : OneLine b) : OneLine (a ++ b) := by
  rintro ⟨s, t, whole⟩
  rw [List.append_assoc] at whole
  rcases List.append_eq_append_iff.1 whole with ⟨a', same, cut⟩ | ⟨s', rfl, cut⟩
  · cases a' with
    | nil => exact one ⟨[], t, cut⟩
    | cons c a' =>
        obtain ⟨rfl, -⟩ := List.cons.inj cut
        exact absent (same ▸ List.mem_append_right _ List.mem_cons_self)
  · exact one ⟨s', t, by rw [cut, List.append_assoc]⟩

/-- The carriage return of the line's end is not one of its own. -/
theorem OneLine.snoc {x : Bytes} (one : OneLine x) : OneLine (x ++ [13]) := by
  intro ends
  rcases List.infix_concat_iff.1 ends with ⟨s, whole⟩ | ends
  · have last := congrArg List.getLast? whole
    simp [crlf] at last
  · exact one ends

theorem modest_id : Feed.Modest id := fun n => ⟨Nat.le_refl _, Nat.succ_pos n⟩

/-- Where the line has ended, nothing more belongs to it. -/
theorem line_ended {data : Bytes} (fresh : OneLine data.dropLast) (ends : crlf <:+ data) (raw more : Bytes) (room : Nat) :
    data = raw ∧ more = [] ↔ raw = data ++ more ∧ (∃ x, raw = x ++ crlf ∧ OneLine x) ∧ more.length ≤ room := by
  constructor
  · rintro ⟨rfl, rfl⟩
    obtain ⟨x, rfl⟩ := ends
    have lead : x <+: (x ++ crlf).dropLast := ⟨[13], by simp [crlf]⟩
    exact ⟨(List.append_nil _).symm, ⟨x, rfl, fresh.infix lead.isInfix⟩, Nat.zero_le _⟩
  · rintro ⟨rfl, ⟨x, whole, one⟩, -⟩
    by_cases nothing : more = []
    · exact ⟨by rw [nothing, List.append_nil], nothing⟩
    · have early : data ++ more.dropLast = x ++ [13] := by
        have cut := congrArg List.dropLast whole
        rwa [List.dropLast_append_of_ne_nil nothing, crlf, List.dropLast_append_of_ne_nil (by simp)] at cut
      exact (one.snoc (ends.isInfix.trans ⟨[], more.dropLast, early⟩)).elim

theorem reads_lineLoop {room : Nat} {data : Bytes} (fresh : OneLine data.dropLast) :
    Feed.Reads (lineLoop room data) fun raw more =>
      raw = data ++ more ∧ (∃ x, raw = x ++ crlf ∧ OneLine x) ∧ more.length ≤ room := by
  induction room generalizing data with
  | zero =>
      unfold lineLoop
      split
      · next ends => exact (Feed.reads_pure data).congr fun raw more => line_ended fresh ends raw more _
      · next goes =>
          refine (Feed.reads_raise _).congr fun raw more => ⟨False.elim, ?_⟩
          rintro ⟨rfl, ⟨x, whole, -⟩, none_⟩
          obtain rfl := List.eq_nil_of_length_eq_zero (Nat.le_zero.1 none_)
          exact goes ⟨x, by rw [← whole, List.append_nil]⟩
  | succ room ih =>
      unfold lineLoop
      split
      · next ends => exact (Feed.reads_pure data).congr fun raw more => line_ended fresh ends raw more _
      · next goes =>
          have clean : OneLine data := by
            intro ends
            rcases List.eq_nil_or_concat data with rfl | ⟨front, b, rfl⟩
            · have empty := List.eq_nil_of_infix_nil ends
              cases empty
            · rcases List.infix_concat_iff.1 (List.concat_eq_append ▸ ends) with suffix | earlier
              · exact goes (List.concat_eq_append ▸ suffix)
              · rw [List.concat_eq_append, List.dropLast_concat] at fresh
                exact fresh earlier
          have next (more front : Bytes) (one : more = front ∧ front.length = 1) : OneLine (data ++ more).dropLast := by
            obtain ⟨b, rfl⟩ := List.length_eq_one_iff.1 (one.1 ▸ one.2)
            rwa [List.dropLast_concat]
          refine (Feed.reads_bind (Feed.reads_exact modest_id 1) fun more front one => ih (next more front one)).congr
            fun raw more => ?_
          · constructor
            · rintro ⟨_, front, back, ⟨rfl, single⟩, ⟨rfl, ends, small⟩, rfl⟩
              exact ⟨List.append_assoc _ _ _, ends, by rw [List.length_append]; omega⟩
            · rintro ⟨rfl, ends, small⟩
              cases more with
              | nil =>
                  obtain ⟨x, whole, -⟩ := ends
                  exact (goes ⟨x, by rw [← whole, List.append_nil]⟩).elim
              | cons b more =>
                  exact ⟨[b], [b], more, ⟨rfl, rfl⟩, ⟨by simp, ends, Nat.le_of_succ_le_succ small⟩, rfl⟩

/-- A line is what stands up to the first `\r\n`. -/
theorem reads_line (cap : Nat) :
    Feed.Reads (line cap) fun raw data => ∃ x, raw = x ++ crlf ∧ data = x ++ crlf ∧ OneLine x ∧ x.length + 2 ≤ cap := by
  refine (reads_lineLoop (oneLine_of_absent List.not_mem_nil)).congr fun raw data => ?_
  rw [List.nil_append]
  constructor
  · rintro ⟨rfl, ⟨x, rfl, one⟩, small⟩
    rw [List.length_append] at small
    exact ⟨x, rfl, rfl, one, small⟩
  · rintro ⟨x, rfl, rfl, one, small⟩
    exact ⟨rfl, ⟨x, rfl, one⟩, by rw [List.length_append]; exact small⟩

theorem reads_exactly (size : Nat) : Feed.Reads (exactly size) fun a data => a = data ∧ data.length = size :=
  Feed.reads_exact modest_id size

/-! ## Status and headers -/

theorem statusOf_ok {raw : Bytes} {status : Nat} :
    statusOf raw = .ok status ↔ ∃ code reason, raw = ascii "HTTP/1.1" ++ 32 :: (code ++ reasonText reason) ∧
      code.length = 3 ∧ isDigits code = true ∧ status = number 10 code ∧ 200 ≤ status ∧ status ≤ 599 := by
  have spaceless : (32 : UInt8) ∉ ascii "HTTP/1.1" := by decide
  have plain {code : Bytes} (digits : isDigits code = true) : (32 : UInt8) ∉ code :=
    not_mem_of_all (digits_all digits) (by decide)
  constructor
  · intro read
    unfold statusOf splitStatus at read
    split at read
    · cases read
    · next version code found =>
        simp only [bind_ok, demand_ok] at read
        obtain ⟨-, ⟨rfl, three, digits⟩, -, ⟨low, high⟩, done⟩ := read
        obtain rfl := Except.ok.inj done
        split at found
        · cases found
        · next version rest first =>
            obtain ⟨rfl, -⟩ := cut_some.1 first
            split at found
            · obtain ⟨rfl, rfl⟩ := Prod.mk.inj (Option.some.inj found)
              exact ⟨_, none, by simp [reasonText], three, digits, rfl, low, high⟩
            · next code' reason second =>
                obtain ⟨rfl, rfl⟩ := Prod.mk.inj (Option.some.inj found)
                obtain ⟨rfl, -⟩ := cut_some.1 second
                exact ⟨_, some reason, by simp [reasonText], three, digits, rfl, low, high⟩
  · rintro ⟨code, reason, rfl, three, digits, rfl, low, high⟩
    have parts : splitStatus (ascii "HTTP/1.1" ++ 32 :: (code ++ reasonText reason)) = some (ascii "HTTP/1.1", code) := by
      unfold splitStatus
      rw [cut_some.2 ⟨rfl, spaceless⟩]
      cases reason with
      | none =>
          dsimp only [reasonText]
          rw [List.append_nil, cut_none.2 (plain digits)]
      | some reason =>
          dsimp only [reasonText]
          rw [cut_some.2 ⟨rfl, plain digits⟩]
    unfold statusOf
    rw [parts]
    simp [bind_ok, three, digits, low, high]
    rfl

/-- What a header line must be. -/
def FieldForm (field : Bytes × Bytes) : Prop :=
  field.1 ≠ [] ∧ field.1.all isToken = true ∧ field.2.all isPrintable = true

theorem headerOf_ok {headers headers' : Headers} {raw : Bytes} :
    headerOf headers raw = .ok headers' ↔ ∃ field : Bytes × Bytes, raw = field.1 ++ 58 :: field.2 ∧ FieldForm field ∧
      lower field.1 ∉ headers.map Prod.fst ∧ headers' = headers ++ [entry field] := by
  constructor
  · intro read
    unfold headerOf at read
    split at read
    · cases read
    · next name value found =>
        simp only [bind_ok, demand_ok] at read
        obtain ⟨-, ⟨some_, token⟩, -, ⟨fresh, printable⟩, done⟩ := read
        obtain rfl := Except.ok.inj done
        exact ⟨(name, value), (cut_some.1 found).1, ⟨some_, token, printable⟩, fresh, rfl⟩
  · rintro ⟨⟨name, value⟩, rfl, ⟨some_, token, printable⟩, fresh, rfl⟩
    have colonless : (58 : UInt8) ∉ name := by
      intro mem
      have holds := List.all_eq_true.1 token _ mem
      exact absurd holds (by decide)
    unfold headerOf
    rw [cut_some.2 ⟨rfl, colonless⟩]
    simp only [bind_ok, demand_ok]
    exact ⟨(), ⟨some_, token⟩, (), ⟨fresh, printable⟩, rfl⟩

theorem FieldForm.oneLine {field : Bytes × Bytes} (form : FieldForm field) : OneLine (field.1 ++ 58 :: field.2) := by
  refine oneLine_of_absent fun mem => ?_
  rcases List.mem_append.1 mem with name | value
  · exact absurd (List.all_eq_true.1 form.2.1 _ name) (by decide)
  · rcases List.mem_cons.1 value with colon | value
    · cases colon
    · exact absurd (List.all_eq_true.1 form.2.2 _ value) (by decide)

theorem fieldText_eq (field : Bytes × Bytes) : fieldText field = (field.1 ++ 58 :: field.2) ++ crlf := by
  rw [fieldText, List.append_assoc, List.cons_append]

theorem fieldText_length (field : Bytes × Bytes) :
    (fieldText field).length = (field.1 ++ 58 :: field.2).length + 2 := by
  rw [fieldText_eq, List.length_append]
  rfl

theorem fieldText_ne (field : Bytes × Bytes) : fieldText field ≠ crlf := by
  intro same
  have length := fieldText_length field
  rw [same, List.length_append, List.length_cons] at length
  have two : crlf.length = 2 := rfl
  omega

/-- The header lines with the blank line after them, in no more than `room` bytes. -/
def HeaderBlock (headers : Headers) (room : Nat) (all : Headers) (data : Bytes) : Prop :=
  ∃ fields : List (Bytes × Bytes), data = fields.flatMap fieldText ++ crlf ∧ all = headers ++ fields.map entry ∧
    (∀ field ∈ fields, FieldForm field) ∧ (all.map Prod.fst).Nodup ∧ data.length ≤ room

theorem reads_headerLines {fuel room : Nat} {headers : Headers} (enough : room ≤ fuel)
    (distinct : (headers.map Prod.fst).Nodup) :
    Feed.Reads (headerLines fuel room headers) (HeaderBlock headers room) := by
  have last : crlf.length = 2 := rfl
  induction fuel generalizing room headers with
  | zero =>
      refine (Feed.reads_raise _).congr fun all data => ⟨False.elim, ?_⟩
      rintro ⟨fields, rfl, -, -, -, small⟩
      rw [List.length_append] at small
      omega
  | succ fuel ih =>
      unfold headerLines
      refine (Feed.reads_bind (reads_line room) (Q := fun item all data => (item = crlf ∧ headers = all ∧ data = []) ∨
        (item ≠ crlf ∧ ∃ headers', headerOf headers (chomp item) = .ok headers' ∧
          HeaderBlock headers' (room - item.length) all data)) fun item front line => ?_).congr fun all data => ?_
      · split
        · next blank => exact (Feed.reads_pure headers).congr fun all data => by simp [blank]
        · next other =>
            refine (Feed.reads_check fun headers' ok => ih ?_ ?_).congr fun all data => by simp [other]
            · obtain ⟨x, rfl, -, -, -⟩ := line
              rw [List.length_append]
              omega
            · obtain ⟨field, -, -, fresh, rfl⟩ := headerOf_ok.1 ok
              rw [List.map_append]
              refine List.nodup_append.2 ⟨distinct, List.nodup_singleton _, fun a mem b single same => fresh ?_⟩
              obtain rfl := List.mem_singleton.1 single
              obtain rfl := same
              exact mem
      · constructor
        · rintro ⟨item, front, back, ⟨x, rfl, rfl, one, small⟩, ⟨blank, rfl, rfl⟩ | ⟨other, headers', ok, block⟩, rfl⟩
          · refine ⟨[], by simp [blank], by simp, fun field mem => (nomatch mem), distinct, ?_⟩
            rw [List.append_nil, List.length_append]
            exact small
          · rw [chomp_append] at ok
            obtain ⟨field, rfl, form, fresh, rfl⟩ := headerOf_ok.1 ok
            obtain ⟨fields, rfl, rfl, forms, nodup, fits⟩ := block
            rw [← fieldText_eq, fieldText_length] at fits
            refine ⟨field :: fields, ?_, by simp, List.forall_mem_cons.2 ⟨form, forms⟩, nodup, ?_⟩
            · rw [← fieldText_eq, List.flatMap_cons, List.append_assoc]
            · rw [← fieldText_eq, List.length_append, fieldText_length]
              omega
        · rintro ⟨fields, rfl, rfl, forms, nodup, small⟩
          cases fields with
          | nil =>
              refine ⟨crlf, crlf, [], ⟨[], rfl, rfl, oneLine_of_absent List.not_mem_nil, small⟩, .inl ⟨rfl, by simp, rfl⟩,
                rfl⟩
          | cons field fields =>
              obtain ⟨form, forms⟩ := List.forall_mem_cons.1 forms
              rw [List.flatMap_cons, List.append_assoc] at small ⊢
              rw [List.length_append, fieldText_length] at small
              refine ⟨fieldText field, fieldText field, fields.flatMap fieldText ++ crlf,
                ⟨_, fieldText_eq field, fieldText_eq field, form.oneLine, by omega⟩,
                .inr ⟨fieldText_ne field, headers ++ [entry field], ?_, fields, rfl, by simp, forms, nodup, ?_⟩, rfl⟩
              · rw [fieldText_eq, chomp_append]
                refine headerOf_ok.2 ⟨field, rfl, form, ?_, rfl⟩
                rw [List.map_append, List.map_cons, List.map_cons] at nodup
                exact fun mem => (List.nodup_append.1 nodup).2.2 _ mem _ List.mem_cons_self rfl
              · rw [fieldText_length]
                omega

/-- The headers that say what the body is. -/
structure Readable (status : Nat) (headers : Headers) : Prop where
  encoding : ∀ v ∈ headers.lookup (ascii "content-encoding"), v = ascii "identity"
  type : ∃ v, headers.lookup (ascii "content-type") = some v ∧
    (lower v = ascii "application/json" ∨ lower v = ascii "application/json; charset=utf-8")
  final : ¬ (300 ≤ status ∧ status < 400)
  stays : headers.lookup (ascii "location") = none

/-- How the body is delimited, as the reader takes it. -/
def Delimited (headers : Headers) : Framing → Prop
  | .length size => headers.lookup (ascii "transfer-encoding") = none ∧
      ∃ length, headers.lookup (ascii "content-length") = some length ∧ isDigits length = true ∧ length.length ≤ 5 ∧
        number 10 length ≤ 65536 ∧ number 10 length = size
  | .chunked => headers.lookup (ascii "content-length") = none ∧
      headers.lookup (ascii "transfer-encoding") = some (ascii "chunked")

theorem framingOf_ok {status : Nat} {headers : Headers} {framing : Framing} :
    framingOf status headers = .ok framing ↔ Readable status headers ∧ Delimited headers framing := by
  have encoded : (headers.lookup (ascii "content-encoding")).getD (ascii "identity") = ascii "identity" ↔
      ∀ v ∈ headers.lookup (ascii "content-encoding"), v = ascii "identity" := by
    cases headers.lookup (ascii "content-encoding") with
    | none => exact iff_of_true rfl fun v mem => nomatch mem
    | some v => exact ⟨fun same w mem => Option.some.inj mem ▸ same, fun each => each v rfl⟩
  have typed : (lower ((headers.lookup (ascii "content-type")).getD []) = ascii "application/json" ∨
      lower ((headers.lookup (ascii "content-type")).getD []) = ascii "application/json; charset=utf-8") ↔
      ∃ v, headers.lookup (ascii "content-type") = some v ∧
        (lower v = ascii "application/json" ∨ lower v = ascii "application/json; charset=utf-8") := by
    cases headers.lookup (ascii "content-type") with
    | none =>
        refine iff_of_false ?_ (fun ⟨_, missing, _⟩ => nomatch missing)
        decide
    | some v => exact ⟨fun either => ⟨v, rfl, either⟩, fun ⟨_, same, either⟩ => Option.some.inj same ▸ either⟩
  have delimited : (match headers.lookup (ascii "content-length"), headers.lookup (ascii "transfer-encoding") with
      | some length, none => do
          demand (isDigits length = true ∧ length.length ≤ 5) .transportDenied
          demand (number 10 length ≤ 65536) .outputLimit
          pure (Framing.length (number 10 length))
      | none, some transfer => do
          demand (transfer = ascii "chunked") .transportDenied
          pure .chunked
      | _, _ => .error (.rejected .transportDenied)) = .ok framing ↔ Delimited headers framing := by
    unfold Delimited
    cases headers.lookup (ascii "content-length") with
    | none =>
        cases headers.lookup (ascii "transfer-encoding") with
        | none => cases framing <;> simp
        | some transfer =>
            simp only [bind_ok, demand_ok]
            cases framing with
            | length size => simp [pure, Except.pure]
            | chunked => simp [pure, Except.pure]
    | some length =>
        cases headers.lookup (ascii "transfer-encoding") with
        | none =>
            simp only [bind_ok, demand_ok]
            cases framing with
            | length size => simp [pure, Except.pure, and_assoc]
            | chunked => simp [pure, Except.pure]
        | some transfer => cases framing <;> simp
  unfold framingOf
  simp only [bind_ok, demand_ok]
  constructor
  · rintro ⟨_, encoding, _, type, _, ⟨final, stays⟩, rest⟩
    exact ⟨⟨encoded.1 encoding, typed.1 type, final, stays⟩, delimited.1 rest⟩
  · rintro ⟨⟨encoding, type, final, stays⟩, rest⟩
    exact ⟨(), encoded.2 encoding, (), typed.2 type, (), ⟨final, stays⟩, delimited.2 rest⟩

/-! ## Chunks -/

theorem chunkText_eq {c : Chunk} (narrow : c.Narrow) : c.text = (c.size ++ crlf) ++ (c.data ++ crlf) := by
  rw [Chunk.text, Chunk.line, narrow.1, List.append_nil, List.append_assoc]

theorem oneLine_hex {raw : Bytes} (hex : isHex raw = true) : OneLine raw :=
  oneLine_of_absent (not_mem_of_all (Bool.and_eq_true_iff.1 hex).2 (by decide))

/-- Chunks up to the last one, which bring `body` to `whole`. -/
def ChunkBlock (body : Bytes) (n : Nat) (whole data : Bytes) : Prop :=
  ∃ (chunks : List Chunk) (last : Chunk), data = (Payload.chunked chunks last).text ∧
    whole = body ++ (Payload.chunked chunks last).body ∧ chunks.length < n ∧
    (∀ c ∈ chunks, (c.WellFormed ∧ c.data ≠ []) ∧ c.Narrow) ∧ (last.WellFormed ∧ last.data = []) ∧ last.Narrow ∧
    whole.length ≤ 65536

/-- A check for `\r\n`, then the rest. -/
theorem reads_ending {α : Type} {f : Unit → Tx Raised Wire α} {P : α → Bytes → Prop} (next : Feed.Reads (f ()) P) :
    Feed.Reads (exactly 2 >>= fun ending => Tx.lift (demand (ending = crlf) .transportDenied) >>= f) fun a data =>
      ∃ back, P a back ∧ data = crlf ++ back := by
  refine (Feed.reads_bind (reads_exactly 2) fun ending front holds =>
    Feed.reads_check (Q := fun _ => P) fun _ _ => next).congr fun a data => ?_
  constructor
  · rintro ⟨ending, front, back, ⟨rfl, -⟩, ⟨_, same, holds⟩, rfl⟩
    exact ⟨back, holds, by rw [demand_ok.1 same]⟩
  · rintro ⟨back, holds, rfl⟩
    exact ⟨crlf, crlf, back, ⟨rfl, rfl⟩, ⟨(), demand_ok.2 rfl, holds⟩, rfl⟩

/-- What follows the digits of a size. -/
def AfterSize (body : Bytes) (n : Nat) (size : Bytes) (whole data : Bytes) : Prop :=
  (number 16 size = 0 ∧ data = crlf ∧ body = whole) ∨
  (number 16 size ≠ 0 ∧ ∃ piece back, data = piece ++ crlf ++ back ∧ piece.length = number 16 size ∧
    ChunkBlock (body ++ piece) n whole back)

theorem reads_chunkLines {n : Nat} {body : Bytes} (small : body.length ≤ 65536) :
    Feed.Reads (chunkLines n body) (ChunkBlock body n) := by
  induction n generalizing body with
  | zero =>
      refine (Feed.reads_raise _).congr fun whole data => ⟨False.elim, ?_⟩
      rintro ⟨chunks, last, -, -, few, -⟩
      exact (Nat.not_lt_zero _ few).elim
  | succ n ih =>
      unfold chunkLines
      refine (Feed.reads_bind (reads_line 16) (Q := fun sizeLine whole data => isHex (chomp sizeLine) = true ∧
        body.length + number 16 (chomp sizeLine) ≤ 65536 ∧ AfterSize body n (chomp sizeLine) whole data)
        fun sizeLine front line => ?_).congr fun whole data => ?_
      · refine (Feed.reads_check fun _ hex => Feed.reads_check fun _ room => (?_ : Feed.Reads _
          (AfterSize body n (chomp sizeLine)))).congr fun whole data => ?_
        · split
          · next zero =>
              refine (reads_ending (Feed.reads_pure body)).congr fun whole data => ?_
              simp [AfterSize, zero, and_comm]
          · next some_ =>
              have fits := demand_ok.1 room
              have next (piece front : Bytes) (holds : piece = front ∧ front.length = number 16 (chomp sizeLine)) :
                  (body ++ piece).length ≤ 65536 := by
                obtain ⟨rfl, length⟩ := holds
                rw [List.length_append, length]
                exact fits
              refine (Feed.reads_bind (reads_exactly (number 16 (chomp sizeLine))) fun piece front holds =>
                reads_ending (ih (next piece front holds))).congr fun whole data => ?_
              · constructor
                · rintro ⟨piece, front, back, ⟨rfl, length⟩, ⟨back, block, rfl⟩, rfl⟩
                  exact .inr ⟨some_, piece, back, (List.append_assoc _ _ _).symm, length, block⟩
                · rintro (⟨zero, -⟩ | ⟨-, piece, back, rfl, length, block⟩)
                  · exact (some_ zero).elim
                  · exact ⟨piece, piece, crlf ++ back, ⟨rfl, length⟩, ⟨back, block, rfl⟩, List.append_assoc _ _ _⟩
        · simp
      · constructor
        · rintro ⟨sizeLine, front, back, ⟨size, rfl, rfl, one, short⟩, ⟨hex, room, after⟩, rfl⟩
          rw [chomp_append] at hex room after
          rcases after with ⟨zero, rfl, rfl⟩ | ⟨some_, piece, back, rfl, length, chunks, last, rfl, rfl, few, forms, form,
            narrow, fits⟩
          · refine ⟨[], ⟨size, [], []⟩, ?_, ?_, Nat.succ_pos n, fun c mem => (nomatch mem), ⟨⟨hex, zero, ?_, ?_⟩, rfl⟩,
              ⟨rfl, Nat.le_of_add_le_add_right short⟩, small⟩
            · simp [Payload.text, Chunk.text, Chunk.line]
            · simp [Payload.body]
            · exact fun ext => (ext rfl).elim
            · exact oneLine_of_absent List.not_mem_nil
          · refine ⟨⟨size, [], piece⟩ :: chunks, last, ?_, ?_, Nat.succ_lt_succ few, List.forall_mem_cons.2
              ⟨⟨⟨⟨hex, length.symm, ?_, ?_⟩, ?_⟩, rfl, ?_⟩, forms⟩, form, narrow, fits⟩
            · simp [Payload.text, Chunk.text, Chunk.line]
            · simp [Payload.body]
            · exact fun ext => (ext rfl).elim
            · exact oneLine_of_absent List.not_mem_nil
            · rintro rfl
              exact some_ length.symm
            · exact Nat.le_of_add_le_add_right short
        · rintro ⟨chunks, last, rfl, rfl, few, forms, ⟨form, empty⟩, narrow, fits⟩
          cases chunks with
          | nil =>
              have zero : number 16 last.size = 0 := by rw [form.size, empty]; rfl
              refine ⟨_, _, crlf, ⟨last.size, rfl, rfl, oneLine_hex form.digits, by have := narrow.2; omega⟩, ?_, ?_⟩
              · rw [chomp_append]
                exact ⟨form.digits, by omega, .inl ⟨zero, rfl, by simp [Payload.body]⟩⟩
              · simp [Payload.text, chunkText_eq narrow, empty]
          | cons c chunks =>
              obtain ⟨⟨⟨wf, some_⟩, slim⟩, forms⟩ := List.forall_mem_cons.1 forms
              have whole : (body ++ c.data) ++ (Payload.chunked chunks last).body =
                  body ++ (Payload.chunked (c :: chunks) last).body := by simp [Payload.body]
              rw [← whole] at fits ⊢
              refine ⟨_, _, c.data ++ crlf ++ (Payload.chunked chunks last).text, ⟨c.size, rfl, rfl, oneLine_hex wf.digits,
                by have := slim.2; omega⟩, ?_, ?_⟩
              · rw [chomp_append]
                have length := wf.size
                refine ⟨wf.digits, ?_, .inr ⟨?_, c.data, _, rfl, length.symm, chunks, last, rfl, rfl,
                  Nat.lt_of_succ_lt_succ few, forms, ⟨form, empty⟩, narrow, fits⟩⟩
                · rw [List.length_append, List.length_append] at fits
                  omega
                · rw [length]
                  exact fun zero => some_ (List.eq_nil_of_length_eq_zero zero)
              · simp [Payload.text, chunkText_eq slim]

/-! ## The whole response -/

/-- A body that the framing delimits. -/
def Carries : Payload → Framing → Prop
  | .sized body, .length size => body.length = size
  | .chunked chunks last, .chunked => chunks.length < 8192 ∧
      (∀ c ∈ chunks, (c.WellFormed ∧ c.data ≠ []) ∧ c.Narrow) ∧ (last.WellFormed ∧ last.data = []) ∧ last.Narrow
  | _, _ => False

theorem framed_iff {headers : Headers} {payload : Payload} (small : payload.body.length ≤ 65536) :
    Response.Framed headers payload ∧ payload.Narrow headers ↔
      ∃ framing, Delimited headers framing ∧ Carries payload framing := by
  cases payload with
  | sized body =>
      constructor
      · rintro ⟨⟨none_, length, found, digits, size⟩, narrow⟩
        exact ⟨.length body.length, ⟨none_, length, found, digits, narrow _ found, size ▸ small, size⟩, rfl⟩
      · rintro ⟨framing, delimited, carries⟩
        cases framing with
        | length size =>
            obtain ⟨none_, length, found, digits, short, -, same⟩ := delimited
            refine ⟨⟨none_, length, found, digits, same.trans carries.symm⟩, fun length' found' => ?_⟩
            rw [found] at found'
            exact Option.some.inj found' ▸ short
        | chunked => exact carries.elim
  | chunked chunks last =>
      constructor
      · rintro ⟨⟨none_, found, few, forms, form⟩, narrow, slim⟩
        exact ⟨.chunked, ⟨none_, found⟩, by omega, fun c mem => ⟨forms c mem, narrow c mem⟩, form, slim⟩
      · rintro ⟨framing, delimited, carries⟩
        cases framing with
        | length size => exact carries.elim
        | chunked =>
            obtain ⟨few, forms, form, slim⟩ := carries
            exact ⟨⟨delimited.1, delimited.2, by omega, fun c mem => (forms c mem).1, form⟩,
              fun c mem => (forms c mem).2, slim⟩

theorem reads_bodyOf {framing : Framing} {headers : Headers} (delimited : Delimited headers framing) :
    Feed.Reads (bodyOf framing) fun body data => ∃ payload : Payload,
      data = payload.text ∧ body = payload.body ∧ Carries payload framing ∧ payload.body.length ≤ 65536 := by
  cases framing with
  | length size =>
      obtain ⟨-, length, -, -, -, small, rfl⟩ := delimited
      refine (reads_exactly _).congr fun body data => ?_
      constructor
      · rintro ⟨rfl, same⟩
        exact ⟨.sized body, rfl, rfl, same, by rw [Payload.body, same]; exact small⟩
      · rintro ⟨payload, rfl, rfl, carries, -⟩
        cases payload with
        | sized body => exact ⟨rfl, carries⟩
        | chunked chunks last => exact carries.elim
  | chunked =>
      refine (reads_chunkLines (Nat.zero_le _)).congr fun body data => ?_
      constructor
      · rintro ⟨chunks, last, rfl, rfl, few, forms, form, slim, small⟩
        exact ⟨.chunked chunks last, rfl, rfl, ⟨few, forms, form, slim⟩, small⟩
      · rintro ⟨payload, rfl, rfl, carries, small⟩
        cases payload with
        | sized body => exact carries.elim
        | chunked chunks last =>
            obtain ⟨few, forms, form, slim⟩ := carries
            exact ⟨chunks, last, rfl, rfl, few, forms, form, slim, small⟩

theorem oneLine_status {code : Bytes} {reason : Option Bytes} (digits : isDigits code = true) :
    OneLine (ascii "HTTP/1.1" ++ 32 :: (code ++ reasonText reason)) ↔ ∀ text ∈ reason, OneLine text := by
  constructor
  · rintro one text rfl
    exact one.infix ⟨ascii "HTTP/1.1" ++ 32 :: code ++ [32], [], by simp [reasonText]⟩
  · intro each
    have first : (13 : UInt8) ∉ ascii "HTTP/1.1" := by decide
    have second : (13 : UInt8) ∉ code := not_mem_of_all (digits_all digits) (by decide)
    have lead : (13 : UInt8) ∉ ascii "HTTP/1.1" ++ 32 :: code := by simp [first, second]
    cases reason with
    | none =>
        rw [reasonText, List.append_nil]
        exact oneLine_of_absent lead
    | some text =>
        have parts : ascii "HTTP/1.1" ++ 32 :: (code ++ reasonText (some text)) =
            ((ascii "HTTP/1.1" ++ 32 :: code) ++ [32]) ++ text := by simp [reasonText]
        rw [parts]
        exact oneLine_append (by simp [first, second]) (each text rfl)

theorem reads_headers (room : Nat) : Feed.Reads (headerLines room room []) (HeaderBlock [] room) :=
  reads_headerLines (Nat.le_refl _) List.nodup_nil

theorem reads_message : Feed.Reads message fun result data => ∃ r : Response,
    (r.Admissible ∧ r.Narrow) ∧ data = r.text ∧ result = (r.status, r.body) := by
  unfold message
  refine (Feed.reads_bind (reads_line 16384) fun statusLine _ _ => Feed.reads_check fun status _ =>
    Feed.reads_bind (reads_headers (16384 - statusLine.length)) fun headers _ _ =>
    Feed.reads_check fun framing ok => Feed.reads_bind (reads_bodyOf (framingOf_ok.1 ok).2) fun body _ _ =>
    Feed.reads_pure (status, body)).congr fun result data => ?_
  constructor
  · rintro ⟨_, _, _, ⟨x, rfl, rfl, one, short⟩, ⟨status, read, headers, _, _, ⟨fields, rfl, rfl, forms, distinct, fits⟩,
      ⟨framing, framed, body, _, _, ⟨payload, rfl, rfl, carries, small⟩, ⟨rfl, rfl⟩, rfl⟩, rfl⟩, rfl⟩
    rw [chomp_append] at read
    obtain ⟨code, reason, rfl, three, digits, rfl, low, high⟩ := statusOf_ok.1 read
    obtain ⟨readable, delimited⟩ := framingOf_ok.1 framed
    obtain ⟨framed, narrow⟩ := (framed_iff small).2 ⟨framing, delimited, carries⟩
    rw [List.nil_append] at *
    refine ⟨⟨code, reason, fields, payload⟩, ⟨⟨⟨three, digits⟩, ?_, (oneLine_status digits).1 one, forms, distinct,
      readable.encoding, readable.type, readable.stays, framed, ?_, small⟩, narrow⟩, ?_, rfl⟩
    · have final := readable.final
      show (200 ≤ number 10 code ∧ number 10 code ≤ 299) ∨ (400 ≤ number 10 code ∧ number 10 code ≤ 599)
      omega
    · have two : (ascii "HTTP/1.1" ++ 32 :: (code ++ reasonText reason) ++ crlf).length ≤ 16384 := by
        rw [List.length_append]
        exact short
      have whole : (ascii "HTTP/1.1" ++ 32 :: (code ++ reasonText reason) ++ crlf).length +
          (fields.flatMap fieldText ++ crlf).length ≤ 16384 := by omega
      rw [← List.length_append] at whole
      exact whole
    · simp [Response.text, Response.head, Response.statusText]
  · rintro ⟨r, ⟨admissible, narrow⟩, rfl, rfl⟩
    obtain ⟨framing, delimited, carries⟩ := (framed_iff admissible.body).1 ⟨admissible.framed, narrow⟩
    have room := admissible.head
    rw [Response.head, List.length_append] at room
    have statusRoom := room
    rw [Response.statusText, List.length_append] at statusRoom
    have low : 200 ≤ r.status ∧ r.status ≤ 599 ∧ ¬ (300 ≤ r.status ∧ r.status < 400) := by
      have status := admissible.status
      omega
    have read : statusOf (chomp r.statusText) = .ok r.status := by
      rw [Response.statusText, chomp_append]
      exact statusOf_ok.2 ⟨r.code, r.reason, rfl, admissible.code.1, admissible.code.2, rfl, low.1, low.2.1⟩
    have block : HeaderBlock [] (16384 - r.statusText.length) r.headers (r.fields.flatMap fieldText ++ crlf) :=
      ⟨r.fields, rfl, rfl, admissible.fields, admissible.distinct, by omega⟩
    have framed : framingOf r.status r.headers = .ok framing :=
      framingOf_ok.2 ⟨⟨admissible.encoding, admissible.type, low.2.2, admissible.stays⟩, delimited⟩
    refine ⟨r.statusText, r.statusText, _, ⟨_, rfl, rfl, (oneLine_status admissible.code.2).2 admissible.reason, ?_⟩,
      ⟨r.status, read, r.headers, _, _, block, ⟨framing, framed, r.body, _, _,
        ⟨r.payload, rfl, rfl, carries, admissible.body⟩, ⟨rfl, rfl⟩, rfl⟩, rfl⟩, ?_⟩
    · exact Nat.le_trans (Nat.add_le_add_left (Nat.le_refl crlf.length) _) (by omega)
    · simp [Response.text, Response.head]

/-- **HTTP response framing.**  A response whose sizes are not spelled longer than the reader
takes them is read to its status and body from whatever pieces it comes in; and a stream on
which the reader returns is the text of one such response, with nothing after it. -/
theorem response_framing :
    (∀ (r : Response) (s : Wire), r.Admissible → r.Narrow → s.Silent → s.rest = r.text →
      ∃ t, response s = (.ok (r.status, r.body), t) ∧ t.rest = []) ∧
    ∀ (s t : Wire) (status : Nat) (body : Bytes), response s = (.ok (status, body), t) →
      ∃ r : Response, r.Admissible ∧ r.Narrow ∧ s.rest = r.text ∧ t.rest = [] ∧ r.status = status ∧ r.body = body ∧
        r.head.length ≤ 16384 ∧ body.length ≤ 65536 := by
  constructor
  · intro r s admissible narrow silent rest
    obtain ⟨t, read, took⟩ := reads_message.complete silent ⟨r, ⟨admissible, narrow⟩, rfl, rfl⟩
      (rest.trans (List.append_nil _).symm)
    obtain ⟨u, ended, left⟩ := (Feed.read_end Nat.one_pos).2 (took.silent silent)
      (took.behind (rest.trans (List.append_nil _).symm))
    refine ⟨u, Tx.bind_ok.2 ⟨_, t, read, Tx.bind_ok.2 ⟨[], u, ended, ?_⟩⟩, left⟩
    exact Tx.lift_bind_ok.2 ⟨(), demand_ok.2 rfl, rfl⟩
  · intro s t status body ran
    obtain ⟨result, u, read, ran⟩ := Tx.bind_ok.1 ran
    obtain ⟨suffix, v, last, ran⟩ := Tx.bind_ok.1 ran
    obtain ⟨_, nothing, ran⟩ := Tx.lift_bind_ok.1 ran
    obtain ⟨rfl, rfl⟩ := Tx.pure_ok.1 ran
    obtain rfl := demand_ok.1 nothing
    obtain ⟨data, took, r, ⟨admissible, narrow⟩, rfl, same⟩ := reads_message.sound read
    obtain ⟨rfl, rfl⟩ := Prod.mk.inj same
    obtain ⟨ended, left⟩ := (Feed.read_end Nat.one_pos).1 v last
    refine ⟨r, admissible, narrow, ?_, left, rfl, rfl, admissible.head, admissible.body⟩
    rw [took.rest, ended, List.append_nil]

section Poles

private def bySeven (rest : Bytes) : Wire := ⟨rest, fun _ => 6, fun _ => none, 0⟩

/-- The headers of a JSON object, with the one that delimits it. -/
private def fieldsWith (framing : Bytes × Bytes) : List (Bytes × Bytes) :=
  [(ascii "Content-Type", ascii " application/json"), framing]

/-- `{}` -/
private def emptyObject (framing : Bytes × Bytes) (payload : Payload) : Response :=
  ⟨ascii "200", some (ascii "OK"), fieldsWith framing, payload⟩

/-- The header of the framing is a header, and none of the others the reader looks for. -/
private abbrev Delimits (framing : Bytes × Bytes) : Prop :=
  (∀ field ∈ fieldsWith framing, field.1 ≠ [] ∧ field.1.all isToken = true ∧ field.2.all isPrintable = true) ∧
    (((fieldsWith framing).map entry).map Prod.fst).Nodup ∧
    ((fieldsWith framing).map entry).lookup (ascii "content-encoding") = none ∧
    ((fieldsWith framing).map entry).lookup (ascii "content-type") = some (ascii "application/json") ∧
    ((fieldsWith framing).map entry).lookup (ascii "location") = none ∧
    ((ascii "HTTP/1.1" ++ 32 :: (ascii "200" ++ reasonText (some (ascii "OK"))) ++ crlf) ++
      ((fieldsWith framing).flatMap fieldText ++ crlf)).length ≤ 16384

private theorem emptyObject_admissible {framing : Bytes × Bytes} {payload : Payload} (delimits : Delimits framing)
    (framed : Response.Framed ((fieldsWith framing).map entry) payload) (body : payload.body = [123, 125]) :
    (emptyObject framing payload).Admissible where
  code := by
    show (ascii "200").length = 3 ∧ isDigits (ascii "200") = true
    decide
  status := by
    show (200 ≤ number 10 (ascii "200") ∧ number 10 (ascii "200") ≤ 299) ∨ _
    exact .inl (by decide)
  reason := by
    rintro reason same
    obtain rfl := Option.some.inj same
    exact oneLine_of_absent (by decide)
  fields := delimits.1
  distinct := delimits.2.1
  encoding := by
    intro v there
    cases delimits.2.2.1.symm.trans there
  type := ⟨_, delimits.2.2.2.1, .inl (by decide)⟩
  stays := delimits.2.2.2.2.1
  framed := framed
  head := delimits.2.2.2.2.2
  body := by
    show payload.body.length ≤ _
    rw [body]
    decide

private def chunkedField : Bytes × Bytes := (ascii "Transfer-Encoding", ascii " chunked")

/-- In one chunk, whose size line is given. -/
private def inChunk (size ext : Bytes) : Response :=
  emptyObject chunkedField (.chunked [⟨size, ext, [123, 125]⟩] ⟨ascii "0", [], []⟩)

private theorem inChunk_admissible {size ext : Bytes} (hex : isHex size = true) (two : number 16 size = 2)
    (lead : ext ≠ [] → ext.head? = some 59) (one : 13 ∉ ext) : (inChunk size ext).Admissible :=
  emptyObject_admissible (by decide) ⟨by decide, by decide, Nat.succ_le_succ (Nat.zero_le _),
    List.forall_mem_singleton.2 ⟨⟨hex, two, lead, oneLine_of_absent one⟩, List.cons_ne_nil _ _⟩,
    ⟨by decide, by decide, fun ext => (ext rfl).elim, oneLine_of_absent List.not_mem_nil⟩, rfl⟩ rfl

/-- With a `Content-Length` of six digits. -/
private def inLength : Response := emptyObject (ascii "Content-Length", ascii "000002") (.sized [123, 125])

private theorem inLength_admissible : inLength.Admissible :=
  emptyObject_admissible (by decide)
    ⟨by decide, ascii "000002", by decide, by decide, by decide⟩ rfl

theorem response_framing_chunk :
    ∃ t, response (bySeven (inChunk (ascii "02") []).text) = (.ok (200, [123, 125]), t) ∧ t.rest = [] := by
  have narrow : (inChunk (ascii "02") []).Narrow :=
    ⟨List.forall_mem_singleton.2 ⟨rfl, by decide⟩, rfl, by decide⟩
  have status : (inChunk (ascii "02") []).status = 200 := by decide
  obtain ⟨t, read, left⟩ := response_framing.1 (inChunk (ascii "02") []) (bySeven (inChunk (ascii "02") []).text)
    (inChunk_admissible (by decide) (by decide) (fun ext => (ext rfl).elim) List.not_mem_nil)
    narrow (fun _ _ => rfl) rfl
  rw [status] at read
  exact ⟨t, read, left⟩

/-- A size line with an extension (`02;n`), one of fifteen digits, and a length of six. -/
theorem spellings_refused :
    (∃ r : Response, r.Admissible ∧ ∃ s : Wire, s.Silent ∧ s.rest = r.text ∧
      (∃ c rest last, r.payload = .chunked (c :: rest) last ∧ c.ext ≠ []) ∧
      (response s).1 = .error (.rejected .transportDenied)) ∧
    (∃ r : Response, r.Admissible ∧ ∃ s : Wire, s.Silent ∧ s.rest = r.text ∧
      (∃ c rest last, r.payload = .chunked (c :: rest) last ∧ c.ext = [] ∧ c.size.length = 15) ∧
      (response s).1 = .error (.rejected .outputLimit)) ∧
    ∃ r : Response, r.Admissible ∧ ∃ s : Wire, s.Silent ∧ s.rest = r.text ∧
      (∃ length, r.headers.lookup (ascii "content-length") = some length ∧ length.length = 6) ∧
      (response s).1 = .error (.rejected .transportDenied) := by
  refine ⟨⟨inChunk (ascii "02") (ascii ";n"), ?_, bySeven _, fun _ _ => rfl, rfl, ⟨_, _, _, rfl, ?_⟩, ?_⟩,
    ⟨inChunk (ascii "000000000000002") [], ?_, bySeven _, fun _ _ => rfl, rfl, ⟨_, _, _, rfl, rfl, ?_⟩, ?_⟩,
    ⟨inLength, inLength_admissible, bySeven _, fun _ _ => rfl, rfl, ⟨ascii "000002", ?_, ?_⟩, ?_⟩⟩
  · exact inChunk_admissible (by decide) (by decide) (fun _ => by decide) (by decide)
  · decide
  · decide +kernel
  · exact inChunk_admissible (by decide) (by decide) (fun ext => (ext rfl).elim) List.not_mem_nil
  · decide
  · decide +kernel
  · decide
  · decide
  · decide +kernel

end Poles

end ApiSecurityPlatform.Proposals
