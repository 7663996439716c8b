/-
# Ai.Loads -- `json.loads`, with what can stop it

The scanner of `json.loads` knows only its text.  Two limits of the interpreter can end it
before the text does: `int` refuses a literal of too many digits, and every array or object
that is open takes a level of recursion.  The scanner leaves a mark where it comes to either
(`Mark`); read without limits the marks of a text tell what a limited reading does
(`loads_stops`).

The fuel is twice the length of the text, and never used up (`loads_settled`): between two
separators at least one character is read.  Strings and numbers are scanned as in
`Proposals.Codec`, but an object takes the last value of a key that comes twice.
-/
import ApiSecurityPlatform.Proposals.Scanning
import ApiSecurityPlatform.Theory.Fallible
import ApiSecurityPlatform.Theory.Marks

namespace ApiSecurityPlatform.Ai

open ApiSecurityPlatform.Theory
open ApiSecurityPlatform.Theory.Tx
open ApiSecurityPlatform.Theory.Marks
open ApiSecurityPlatform.Python
open ApiSecurityPlatform.Proposals (scanString matchNumber tokenInt isFloatToken isWhitespace matchNumber_sound)

set_option autoImplicit false

/-- The code points of a `str` that may have lone surrogates. -/
abbrev Codes := List Nat

def codes (s : Str) : Codes := s.map Char.toNat

inductive Scalar (F : Type) where
  | null
  | bool (b : Bool)
  | int (n : Int)
  | float (x : F)
  | string (s : Codes)
deriving DecidableEq

/-- A JSON value; the members of an object stand in the order of the `dict`. -/
inductive Value (F : Type) where
  | scalar (s : Scalar F)
  | array (items : List (Value F))
  | object (members : List (Codes × Value F))

/-- What reading and writing use of `float`, infinities and `nan` among them. -/
structure FloatText (F : Type) where
  ofText : Str → F
  /-- What the encoder writes. -/
  text : F → Str

inductive Fault where
  | jsonDecodeError
  | valueError
  | recursionError
  /-- A loop of the model out of fuel. -/
  | stuck
deriving DecidableEq, Repr

/-- A place where a limit can stop the scanner. -/
inductive Mark where
  | integer (digits : Nat)
  | opens (level : Nat)
deriving DecidableEq, Repr

abbrev Scan (α : Type) := Tx Fault (List Mark) α

/-! ## Tokens -/

def skip (text : Str) : Str := text.dropWhile isWhitespace

/-- `scanstring`, after the opening quote. -/
def scanstring (text : Str) : Except Fault (Codes × Str) :=
  match scanString 0 text with
  | none => .error .jsonDecodeError
  | some read => .ok read

/-- A key up to its value. -/
def scanKey : Str → Except Fault (Codes × Str)
  | '"' :: rest => do
      let (key, rest) ← scanstring rest
      match skip rest with
      | ':' :: rest => return (key, skip rest)
      | _ => .error .jsonDecodeError
  | _ => .error .jsonDecodeError

/-- What follows a value: the end of its container, or a comma. -/
def scanSeparator (close : Char) (text : Str) : Except Fault (Bool × Str) :=
  match skip text with
  | [] => .error .jsonDecodeError
  | c :: rest =>
      if c = close then .ok (true, rest) else if c = ',' then .ok (false, skip rest) else .error .jsonDecodeError

/-- `parse_constant`, and the literals of the scanner. -/
def literals {F : Type} (D : FloatText F) : List (Str × Scalar F) :=
  [("null".toList, .null), ("true".toList, .bool true), ("false".toList, .bool false),
    ("NaN".toList, .float (D.ofText "nan".toList)), ("Infinity".toList, .float (D.ofText "inf".toList)),
    ("-Infinity".toList, .float (D.ofText "-inf".toList))]

def unsigned (token : Str) : Str := if token.head? = some '-' then token.tail else token

/-- `d[key] = value`. -/
def setItem {α : Type} (members : List (Codes × α)) (key : Codes) (v : α) : List (Codes × α) :=
  if key ∈ members.map Prod.fst then members.map fun member => if member.1 = key then (key, v) else member
  else members ++ [(key, v)]

/-! ## The scanner -/

section Scanner

variable {F : Type} (D : FloatText F) (within : Mark → Option Fault)

/-- A literal or a number. -/
def scanScalar (text : Str) : Scan (Value F × Str) :=
  match (literals D).find? fun literal => literal.1.isPrefixOf text with
  | some (word, s) => pure (.scalar s, text.drop word.length)
  | none =>
      match matchNumber text with
      | none => raise .jsonDecodeError
      | some (token, rest) =>
          if isFloatToken token then pure (.scalar (.float (D.ofText token)), rest)
          else do
            mark within (.integer (unsigned token).length)
            return (.scalar (.int (tokenInt token)), rest)

mutual

/-- `scan_once`, with `level` containers open. -/
def scanOnce : Nat → Nat → Str → Scan (Value F × Str)
  | 0, _, _ => raise .stuck
  | _ + 1, _, [] => raise .jsonDecodeError
  | fuel + 1, level, c :: rest =>
      if c = '"' then do
        let (s, rest) ← lift (scanstring rest)
        return (.scalar (.string s), rest)
      else if c = '[' then do
        mark within (.opens (level + 1))
        if (skip rest).head? = some ']' then return (.array [], (skip rest).tail)
        else scanItems fuel (level + 1) [] (skip rest)
      else if c = '\x7b' then do
        mark within (.opens (level + 1))
        if (skip rest).head? = some '\x7d' then return (.object [], (skip rest).tail)
        else scanMembers fuel (level + 1) [] (skip rest)
      else scanScalar D within (c :: rest)

/-- The loop of `_parse_array`. -/
def scanItems : Nat → Nat → List (Value F) → Str → Scan (Value F × Str)
  | 0, _, _, _ => raise .stuck
  | fuel + 1, level, items, text => do
      let (v, rest) ← scanOnce fuel level text
      let (last, rest) ← lift (scanSeparator ']' rest)
      if last then return (.array (items ++ [v]), rest)
      else scanItems fuel level (items ++ [v]) rest

/-- The loop of `_parse_object`. -/
def scanMembers : Nat → Nat → List (Codes × Value F) → Str → Scan (Value F × Str)
  | 0, _, _, _ => raise .stuck
  | fuel + 1, level, members, text => do
      let (key, rest) ← lift (scanKey text)
      let (v, rest) ← scanOnce fuel level rest
      let (last, rest) ← lift (scanSeparator '\x7d' rest)
      if last then return (.object (setItem members key v), rest)
      else scanMembers fuel level (setItem members key v) rest

end

/-- `json.loads(text)`. -/
def loads (text : Str) : Scan (Value F) := do
  refuse (text.head? = some (Char.ofNat 0xFEFF)) .jsonDecodeError
  let (v, rest) ← scanOnce D within (2 * text.length + 1) 0 (skip text)
  refuse (skip rest ≠ []) .jsonDecodeError
  return v

/-! ## The limits -/

theorem scanScalar_stops (text : Str) : Stops within (scanScalar D within text) (scanScalar D free text) := by
  unfold scanScalar
  split
  · exact stops_pure _
  split
  · exact stops_raise _
  split
  · exact stops_pure _
  · exact stops_bind (stops_mark _) fun _ => stops_pure _

/-- By induction on the fuel, along the scanner. -/
theorem scan_stops (fuel : Nat) :
    (∀ level text, Stops within (scanOnce D within fuel level text) (scanOnce D free fuel level text)) ∧
      (∀ level items text,
        Stops within (scanItems D within fuel level items text) (scanItems D free fuel level items text)) ∧
      ∀ level members text,
        Stops within (scanMembers D within fuel level members text) (scanMembers D free fuel level members text) := by
  induction fuel with
  | zero => exact ⟨fun _ _ => stops_raise _, fun _ _ _ => stops_raise _, fun _ _ _ => stops_raise _⟩
  | succ fuel ih =>
      obtain ⟨once, items_, members_⟩ := ih
      refine ⟨fun level text => ?_, fun level items text => ?_, fun level members text => ?_⟩
      · cases text with
        | nil => exact stops_raise _
        | cons c rest =>
            rw [scanOnce, scanOnce]
            split
            · exact stops_bind (stops_lift _) fun _ => stops_pure _
            split
            · refine stops_bind (stops_mark _) fun _ => ?_
              split
              · exact stops_pure _
              · exact items_ _ _ _
            split
            · refine stops_bind (stops_mark _) fun _ => ?_
              split
              · exact stops_pure _
              · exact members_ _ _ _
            · exact scanScalar_stops D within _
      · rw [scanItems, scanItems]
        refine stops_bind (once _ _) fun _ => stops_bind (stops_lift _) fun read => ?_
        dsimp only
        split
        · exact stops_pure _
        · exact items_ _ _ _
      · rw [scanMembers, scanMembers]
        refine stops_bind (stops_lift _) fun _ => stops_bind (once _ _) fun _ => stops_bind (stops_lift _) fun read => ?_
        dsimp only
        split
        · exact stops_pure _
        · exact members_ _ _ _

/-- **The marks of a text decide what limits do to its reading.** -/
theorem loads_stops (text : Str) : Stops within (loads D within text) (loads D free text) :=
  stops_bind (stops_refuse _ _) fun _ => stops_bind ((scan_stops D within _).1 _ _) fun _ =>
    stops_bind (stops_refuse _ _) fun _ => stops_pure _

end Scanner

/-! ## The fuel -/

/-- Something has been read of `text`. -/
def Shorter {α : Type} (text : Str) (read : α × Str) : Prop := read.2.length < text.length

theorem skip_length (text : Str) : (skip text).length ≤ text.length := List.length_dropWhile_le isWhitespace text

theorem scanString_shorter {text : Str} {width : Nat} {read : Codes × Str} (scanned : scanString width text = some read) :
    Shorter text read := by
  induction text generalizing width read with
  | nil => cases width <;> cases scanned
  | cons c rest ih =>
      have further {n width : Nat} (found : Proposals.withCode n (scanString width rest) = some read) :
          Shorter (c :: rest) read := by
        obtain ⟨more, found, _⟩ := Proposals.withCode_some found
        have shorter : Shorter rest (more, read.2) := ih found
        exact Nat.lt_succ_of_lt shorter
      cases width with
      | succ width => exact Nat.lt_succ_of_lt (ih scanned)
      | zero =>
          rw [scanString] at scanned
          split at scanned
          · obtain rfl := Option.some.inj scanned
            exact Nat.lt_succ_self _
          split at scanned
          · cases scanned
          split at scanned
          · obtain ⟨escaped, _, found⟩ := Option.bind_eq_some_iff.1 scanned
            exact further found
          · exact further scanned

theorem scanstring_shorter {text : Str} {read : Codes × Str} (scanned : scanstring text = .ok read) :
    Shorter text read := by
  unfold scanstring at scanned
  split at scanned
  · cases scanned
  · next found =>
    obtain rfl := Except.ok.inj scanned
    exact scanString_shorter found

theorem scanKey_shorter {text : Str} {read : Codes × Str} (scanned : scanKey text = .ok read) : Shorter text read := by
  unfold scanKey at scanned
  split at scanned
  · next rest =>
    obtain ⟨⟨key, after⟩, inside, scanned⟩ := Theory.bind_ok.1 scanned
    have first : after.length < rest.length := scanstring_shorter inside
    dsimp only at scanned
    split at scanned
    · next behind colon =>
      obtain rfl := Except.ok.inj scanned
      have second := skip_length after
      rw [colon, List.length_cons] at second
      have third := skip_length behind
      show (skip behind).length < rest.length + 1
      omega
    · cases scanned
  · cases scanned

theorem scanSeparator_shorter {close : Char} {text : Str} {read : Bool × Str}
    (scanned : scanSeparator close text = .ok read) : Shorter text read := by
  unfold scanSeparator at scanned
  have first := skip_length text
  split at scanned
  · cases scanned
  · next c rest found =>
    rw [found, List.length_cons] at first
    split at scanned
    · obtain rfl := Except.ok.inj scanned
      exact first
    split at scanned
    · obtain rfl := Except.ok.inj scanned
      exact Nat.lt_of_le_of_lt (skip_length rest) first
    · cases scanned

theorem scanstring_raises {text : Str} {fault : Fault} (raised : scanstring text = .error fault) :
    fault = .jsonDecodeError := by
  unfold scanstring at raised
  split at raised
  · exact (Except.error.inj raised).symm
  · cases raised

theorem scanKey_raises {text : Str} {fault : Fault} (raised : scanKey text = .error fault) :
    fault = .jsonDecodeError := by
  unfold scanKey at raised
  split at raised
  · rcases Theory.bind_error.1 raised with raised | ⟨read, _, raised⟩
    · exact scanstring_raises raised
    · dsimp only at raised
      split at raised
      · cases raised
      · exact (Except.error.inj raised).symm
  · exact (Except.error.inj raised).symm

theorem scanSeparator_raises {close : Char} {text : Str} {fault : Fault}
    (raised : scanSeparator close text = .error fault) : fault = .jsonDecodeError := by
  unfold scanSeparator at raised
  split at raised
  · exact (Except.error.inj raised).symm
  split at raised
  · cases raised
  split at raised
  · cases raised
  · exact (Except.error.inj raised).symm

theorem matchNumber_shorter {text : Str} {read : Str × Str} (matched : matchNumber text = some read) :
    Shorter text read := by
  obtain ⟨token, rest⟩ := read
  obtain ⟨rfl, number⟩ := matchNumber_sound matched
  obtain ⟨c, more, rfl, -⟩ := number.head
  show rest.length < (c :: more ++ rest).length
  rw [List.length_append, List.length_cons]
  omega

section Scanner

variable {F : Type} (D : FloatText F) (within : Mark → Option Fault)

/-- How a scan raises: a syntax error or a limit, and never for want of fuel. -/
def Known (fault : Fault) : Prop := fault = .jsonDecodeError ∨ ∃ m, within m = some fault

theorem mark_known (m : Mark) : Yields (fun _ => True) (Known within) (mark within m) :=
  yields_mark fun _ refused => .inr ⟨m, refused⟩

theorem lift_known {α : Type} {text : Str} {x : Except Fault (α × Str)} (shorter : ∀ read, x = .ok read → Shorter text read)
    (raises : ∀ fault, x = .error fault → fault = .jsonDecodeError) :
    Yields (Shorter text) (Known within) (lift x : Scan (α × Str)) :=
  yields_lift shorter fun fault raised => .inl (raises fault raised)

theorem scanScalar_settled {c : Char} {rest : Str} :
    Yields (Shorter (c :: rest)) (Known within) (scanScalar D within (c :: rest)) := by
  unfold scanScalar
  split
  · next word s found =>
    have leads : (word, s) ∈ literals D := List.mem_of_find?_eq_some found
    have long : 0 < word.length := by
      simp only [literals, List.mem_cons, List.not_mem_nil, or_false, Prod.mk.injEq] at leads
      rcases leads with ⟨rfl, -⟩ | ⟨rfl, -⟩ | ⟨rfl, -⟩ | ⟨rfl, -⟩ | ⟨rfl, -⟩ | ⟨rfl, -⟩ <;> decide
    refine yields_pure ?_
    show ((c :: rest).drop word.length).length < (c :: rest).length
    rw [List.length_drop, List.length_cons]
    omega
  split
  · exact yields_raise (.inl rfl)
  · next token rest matched =>
    have shorter := matchNumber_shorter matched
    split
    · exact yields_pure shorter
    · exact yields_bind (mark_known within _) fun _ _ => yields_pure shorter

/-- By induction on the fuel: each round of a loop reads at least one character. -/
theorem scan_settled (fuel : Nat) :
    (∀ level text, 2 * text.length < fuel → Yields (Shorter text) (Known within) (scanOnce D within fuel level text)) ∧
      (∀ level items text, 2 * text.length + 1 < fuel →
        Yields (Shorter text) (Known within) (scanItems D within fuel level items text)) ∧
      ∀ level members text, 2 * text.length + 1 < fuel →
        Yields (Shorter text) (Known within) (scanMembers D within fuel level members text) := by
  induction fuel with
  | zero => exact ⟨fun _ _ enough => absurd enough (Nat.not_lt_zero _), fun _ _ _ enough => absurd enough (Nat.not_lt_zero _),
      fun _ _ _ enough => absurd enough (Nat.not_lt_zero _)⟩
  | succ fuel ih =>
      obtain ⟨once, items_, members_⟩ := ih
      refine ⟨fun level text enough => ?_, fun level items text enough => ?_, fun level members text enough => ?_⟩
      · cases text with
        | nil => exact yields_raise (.inl rfl)
        | cons c rest =>
            have space := skip_length rest
            rw [List.length_cons] at enough
            have inner {read : Value F × Str} (shorter : Shorter (skip rest) read) : Shorter (c :: rest) read :=
              Nat.lt_succ_of_lt (Nat.lt_of_lt_of_le shorter space)
            rw [scanOnce]
            split
            · refine yields_bind (lift_known within (fun _ => scanstring_shorter) fun _ => scanstring_raises) fun read shorter => ?_
              exact yields_pure (Nat.lt_succ_of_lt shorter)
            split
            · refine yields_bind (mark_known within _) fun _ _ => ?_
              split
              · refine yields_pure ?_
                show (skip rest).tail.length < rest.length + 1
                rw [List.length_tail]
                omega
              · exact (items_ _ _ _ (by omega)).mono fun _ => inner
            split
            · refine yields_bind (mark_known within _) fun _ _ => ?_
              split
              · refine yields_pure ?_
                show (skip rest).tail.length < rest.length + 1
                rw [List.length_tail]
                omega
              · exact (members_ _ _ _ (by omega)).mono fun _ => inner
            · exact scanScalar_settled D within
      · rw [scanItems]
        refine yields_bind (once _ _ (by omega)) fun value first => ?_
        refine yields_bind (lift_known within (fun _ => scanSeparator_shorter) fun _ => scanSeparator_raises) fun read second => ?_
        unfold Shorter at first second
        dsimp only
        split
        · exact yields_pure (Nat.lt_trans second first)
        · exact (items_ _ _ _ (by omega)).mono fun _ third => Nat.lt_trans third (Nat.lt_trans second first)
      · rw [scanMembers]
        refine yields_bind (lift_known within (fun _ => scanKey_shorter) fun _ => scanKey_raises) fun key zeroth => ?_
        unfold Shorter at zeroth
        refine yields_bind (once _ _ (by omega)) fun value first => ?_
        refine yields_bind (lift_known within (fun _ => scanSeparator_shorter) fun _ => scanSeparator_raises) fun read second => ?_
        unfold Shorter at first second
        dsimp only
        split
        · exact yields_pure (Nat.lt_trans second (Nat.lt_trans first zeroth))
        · exact (members_ _ _ _ (by omega)).mono fun _ third =>
            Nat.lt_trans third (Nat.lt_trans second (Nat.lt_trans first zeroth))

theorem loads_settled (text : Str) : Yields (fun _ => True) (Known within) (loads D within text) := by
  refine yields_bind (yields_refuse (.inl rfl)) fun _ _ => ?_
  have space := skip_length text
  refine yields_bind ((scan_settled D within _).1 _ _ (by omega)) fun _ _ => ?_
  exact yields_bind (yields_refuse (.inl rfl)) fun _ _ => yields_pure trivial

end Scanner

end ApiSecurityPlatform.Ai
