/-
# Proposals.Scanning -- strings and numbers

`scanstring` followed by the strict encoding reads exactly the strings of the grammar, and
the regular expression for numbers matches exactly a number, as long as what follows cannot
go on with it (`Stops`).  Both are stated twice: what the grammar allows is read
(`scanString_complete`, `matchNumber_complete`), and what is read the grammar allows
(`scanString_sound`, `matchNumber_sound`).
-/
import ApiSecurityPlatform.Proposals.Grammar
import Mathlib.Data.List.TakeWhile

namespace ApiSecurityPlatform.Proposals

open ApiSecurityPlatform.Python

set_option autoImplicit false

/-! ## Code points -/

theorem hexDigit?_lt {c : Char} {d : Nat} (digit : hexDigit? c = some d) : d < 16 := by
  unfold hexDigit? at digit
  split at digit
  · next range =>
    have low : 48 ≤ c.toNat := range.1
    have high : c.toNat ≤ 57 := range.2
    have same := Option.some.inj digit
    omega
  split at digit
  · next range =>
    have low : 97 ≤ c.toNat := range.1
    have high : c.toNat ≤ 102 := range.2
    have same := Option.some.inj digit
    omega
  split at digit
  · next range =>
    have low : 65 ≤ c.toNat := range.1
    have high : c.toNat ≤ 70 := range.2
    have same := Option.some.inj digit
    omega
  · cases digit

theorem hex4_some {s : Str} {n : Nat} (read : hex4 s = some n) :
    n < 65536 ∧ ∃ a b c d rest, s = a :: b :: c :: d :: rest ∧ hex4 [a, b, c, d] = some n := by
  unfold hex4 at read
  split at read
  · next a b c d rest =>
    split at read
    · next w x y z first second third fourth =>
      have := hexDigit?_lt first
      have := hexDigit?_lt second
      have := hexDigit?_lt third
      have := hexDigit?_lt fourth
      have value := Option.some.inj read
      refine ⟨by omega, a, b, c, d, rest, rfl, ?_⟩
      simp only [hex4, first, second, third, fourth]
      exact read
    · cases read
  · cases read

theorem hex4_append {a b c d : Char} (rest : Str) : hex4 (a :: b :: c :: d :: rest) = hex4 [a, b, c, d] := rfl

/-- A code point outside the surrogates is a character. -/
theorem toNat_ofNat_of_scalar {n : Nat} (small : n < 0x110000) (high : isHighSurrogate n = false)
    (low : isLowSurrogate n = false) : (Char.ofNat n).toNat = n := by
  have valid : n.isValidChar := by
    simp only [isHighSurrogate, isLowSurrogate, Bool.and_eq_false_iff, decide_eq_false_iff_not] at high low
    unfold Nat.isValidChar
    omega
  rw [Char.ofNat, dif_pos valid]
  rfl

theorem toNat_not_surrogate (c : Char) : isHighSurrogate c.toNat = false ∧ isLowSurrogate c.toNat = false := by
  have valid : c.toNat.isValidChar := c.valid
  simp only [isHighSurrogate, isLowSurrogate, Bool.and_eq_false_iff, decide_eq_false_iff_not]
  unfold Nat.isValidChar at valid
  omega

theorem encodable_map (s : Str) : encodable (s.map Char.toNat) = some s := by
  induction s with
  | nil => rfl
  | cons c rest ih =>
      obtain ⟨high, low⟩ := toNat_not_surrogate c
      rw [List.map_cons, encodable, high, low, ih, Char.ofNat_toNat]
      rfl

theorem encodable_cons {n : Nat} {codes : List Nat} {s : Str} (encoded : encodable (n :: codes) = some s) :
    isHighSurrogate n = false ∧ isLowSurrogate n = false ∧
      ∃ rest, encodable codes = some rest ∧ s = Char.ofNat n :: rest := by
  rw [encodable] at encoded
  split at encoded
  · cases encoded
  · next scalar =>
    obtain ⟨rest, others, rfl⟩ := Option.map_eq_some_iff.1 encoded
    rw [Bool.or_eq_true, not_or, Bool.not_eq_true, Bool.not_eq_true] at scalar
    exact ⟨scalar.1, scalar.2, rest, others, rfl⟩

/-! ## Strings -/

theorem scanString_skip (read rest : Str) : scanString read.length (read ++ rest) = scanString 0 rest := by
  induction read with
  | nil => rfl
  | cons c more ih => exact ih

theorem scanString_escape {front rest : Str} {n size : Nat} (read : escape (front ++ rest) = some (n, size))
    (length : front.length = size) : scanString 0 ('\\' :: (front ++ rest)) = withCode n (scanString 0 rest) := by
  rw [scanString, if_neg (by decide), if_neg (by decide), if_pos rfl, read, ← length]
  show withCode n (scanString front.length (front ++ rest)) = _
  rw [scanString_skip]

theorem scanString_char {text : Str} {c : Char} (written : CharText text c) (rest : Str) :
    scanString 0 (text ++ rest) = withCode c.toNat (scanString 0 rest) := by
  cases written with
  | plain _ printable quote slash =>
      show scanString 0 (c :: rest) = _
      rw [scanString, if_neg quote, if_neg (by omega), if_neg slash]
  | quote => rfl
  | slash => rfl
  | solidus => rfl
  | backspace => rfl
  | formFeed => rfl
  | lineFeed => rfl
  | carriageReturn => rfl
  | tab => rfl
  | @unicode a b c d n digits high low =>
      obtain ⟨small, -⟩ := hex4_some digits
      have read : escape (['u', a, b, c, d] ++ rest) = some (n, 5) := by
        show (unicodeEscape (a :: b :: c :: d :: rest)).map _ = _
        rw [unicodeEscape, hex4_append, digits]
        simp [high]
      rw [toNat_ofNat_of_scalar (by omega) high low]
      exact scanString_escape read rfl
  | @pair a b c d a' b' c' d' n m digits digits' high low =>
      have read : escape (['u', a, b, c, d, '\\', 'u', a', b', c', d'] ++ rest) =
          some (0x10000 + (n - 0xD800) * 0x400 + (m - 0xDC00), 11) := by
        show (unicodeEscape (a :: b :: c :: d :: '\\' :: 'u' :: a' :: b' :: c' :: d' :: rest)).map _ = _
        rw [unicodeEscape, hex4_append, digits]
        simp [high, List.isPrefixOf, hex4_append, digits', low]
      have scalar : (Char.ofNat (0x10000 + (n - 0xD800) * 0x400 + (m - 0xDC00))).toNat =
          0x10000 + (n - 0xD800) * 0x400 + (m - 0xDC00) := by
        simp only [isHighSurrogate, isLowSurrogate, Bool.and_eq_true, decide_eq_true_eq] at high low
        have above (k : Nat) : isHighSurrogate (0x10000 + k) = false ∧ isLowSurrogate (0x10000 + k) = false := by
          simp only [isHighSurrogate, isLowSurrogate, Bool.and_eq_false_iff, decide_eq_false_iff_not]
          omega
        rw [Nat.add_assoc]
        exact toNat_ofNat_of_scalar (by omega) (above _).1 (above _).2
      rw [scalar]
      exact scanString_escape read rfl

theorem scanString_complete {inner s : Str} (written : CharsText inner s) (rest : Str) :
    scanString 0 (inner ++ '"' :: rest) = some (s.map Char.toNat, rest) := by
  induction written with
  | nil => rfl
  | cons first more ih =>
      rw [List.append_assoc, scanString_char first, ih]
      rfl

theorem backslash_char {e : Char} {n : Nat} (named : backslash e = some n) : CharText ['\\', e] (Char.ofNat n) := by
  have close {m : Nat} (same : some m = some n) (written : CharText ['\\', e] (Char.ofNat m)) :
      CharText ['\\', e] (Char.ofNat n) := Option.some.inj same ▸ written
  unfold backslash at named
  split at named
  · next same => exact close named (same ▸ .quote)
  split at named
  · next same => exact close named (same ▸ .slash)
  split at named
  · next same => exact close named (same ▸ .solidus)
  split at named
  · next same => exact close named (same ▸ .backspace)
  split at named
  · next same => exact close named (same ▸ .formFeed)
  split at named
  · next same => exact close named (same ▸ .lineFeed)
  split at named
  · next same => exact close named (same ▸ .carriageReturn)
  split at named
  · next same => exact close named (same ▸ .tab)
  · cases named

theorem unicodeEscape_some {s : Str} {n size : Nat} (read : unicodeEscape s = some (n, size))
    (high : isHighSurrogate n = false) (low : isLowSurrogate n = false) :
    ∃ text rest, s = text ++ rest ∧ text.length = size ∧ CharText ('\\' :: 'u' :: text) (Char.ofNat n) := by
  unfold unicodeEscape at read
  split at read
  · cases read
  · next first =>
    obtain ⟨-, a, b, c, d, rest, rfl, digits⟩ := hex4_some first
    split at read
    · next both =>
      obtain ⟨high', follows⟩ := Bool.and_eq_true_iff.1 both
      obtain ⟨more, tail⟩ := List.isPrefixOf_iff_prefix.1 follows
      have tail : rest = '\\' :: 'u' :: more := tail.symm
      subst tail
      split at read
      · cases read
      · next second =>
        obtain ⟨-, a', b', c', d', rest, rest_, digits'⟩ := hex4_some second
        have rest_ : more = a' :: b' :: c' :: d' :: rest := rest_
        subst rest_
        split at read
        · next low' =>
          obtain ⟨rfl, rfl⟩ := Prod.mk.inj (Option.some.inj read)
          exact ⟨[a, b, c, d, '\\', 'u', a', b', c', d'], rest, rfl, rfl, .pair digits digits' high' low'⟩
        · obtain ⟨rfl, -⟩ := Prod.mk.inj (Option.some.inj read)
          -- a high surrogate alone
          rw [high] at high'
          cases high'
    · obtain ⟨rfl, rfl⟩ := Prod.mk.inj (Option.some.inj read)
      exact ⟨[a, b, c, d], rest, rfl, rfl, .unicode digits high low⟩

theorem escape_some {s : Str} {n size : Nat} (read : escape s = some (n, size))
    (high : isHighSurrogate n = false) (low : isLowSurrogate n = false) :
    ∃ text rest, s = text ++ rest ∧ text.length = size ∧ CharText ('\\' :: text) (Char.ofNat n) := by
  cases s with
  | nil => cases read
  | cons e more =>
      rw [escape] at read
      split at read
      · next isU =>
        subst isU
        obtain ⟨⟨n', size'⟩, found, same⟩ := Option.map_eq_some_iff.1 read
        obtain ⟨rfl, rfl⟩ := Prod.mk.inj same
        obtain ⟨text, rest, rfl, rfl, written⟩ := unicodeEscape_some found high low
        exact ⟨'u' :: text, rest, rfl, rfl, written⟩
      · obtain ⟨n', found, same⟩ := Option.map_eq_some_iff.1 read
        obtain ⟨rfl, rfl⟩ := Prod.mk.inj same
        exact ⟨[e], more, rfl, rfl, backslash_char found⟩

theorem withCode_some {n : Nat} {result : Option (List Nat × Str)} {codes : List Nat} {rest : Str}
    (read : withCode n result = some (codes, rest)) : ∃ more, result = some (more, rest) ∧ codes = n :: more := by
  obtain ⟨⟨more, s⟩, found, same⟩ := Option.map_eq_some_iff.1 read
  obtain ⟨rfl, rfl⟩ := Prod.mk.inj same
  exact ⟨more, found, rfl⟩

theorem scanString_sound {text rest s : Str} {codes : List Nat} (read : scanString 0 text = some (codes, rest))
    (encoded : encodable codes = some s) : ∃ inner, text = inner ++ '"' :: rest ∧ CharsText inner s := by
  -- a character takes up to twelve places of the text
  induction size : text.length using Nat.strong_induction_on generalizing text codes s with
  | _ n ih =>
  have step {front back : Str} {c : Char} {more : List Nat} {s' : Str} (split : text = front ++ back)
      (written : CharText front c) (found : scanString 0 back = some (more, rest)) (some_ : front ≠ [])
      (others : encodable more = some s') : ∃ inner, text = inner ++ '"' :: rest ∧ CharsText inner (c :: s') := by
    have shorter : back.length < n := by
      have positive := List.length_pos_of_ne_nil some_
      rw [← size, split, List.length_append]
      omega
    obtain ⟨inner, whole, chars⟩ := ih _ shorter found others rfl
    exact ⟨front ++ inner, by rw [split, whole, List.append_assoc], .cons written chars⟩
  cases text with
  | nil => cases read
  | cons c after =>
      rw [scanString] at read
      split at read
      · next quote =>
        obtain ⟨rfl, rfl⟩ := Prod.mk.inj (Option.some.inj read)
        obtain rfl := Option.some.inj encoded
        exact ⟨[], by rw [quote]; rfl, .nil⟩
      split at read
      · cases read
      next quote printable =>
      split at read
      · next slash =>
        subst slash
        obtain ⟨⟨code, width⟩, escaped, scanned⟩ := Option.bind_eq_some_iff.1 read
        obtain ⟨more, found, rfl⟩ := withCode_some scanned
        obtain ⟨high, low, s', others, rfl⟩ := encodable_cons encoded
        obtain ⟨front, back, rfl, rfl, written⟩ := escape_some escaped high low
        rw [scanString_skip] at found
        exact step rfl written found (List.cons_ne_nil _ _) others
      · next slash =>
        obtain ⟨more, found, rfl⟩ := withCode_some read
        obtain ⟨-, -, s', others, rfl⟩ := encodable_cons encoded
        rw [Char.ofNat_toNat]
        exact step (show c :: after = [c] ++ after from rfl) (.plain c (by omega) quote slash) found (List.cons_ne_nil _ _) others

/-! ## Numbers -/

/-- What may follow a value. -/
def Ends (s : Str) : Prop := ∀ c ∈ s.head?, isWhitespace c = true ∨ c = ',' ∨ c = ']' ∨ c = '\x7d'

/-- What cannot go on with a run of digits. -/
def NoDigit (s : Str) : Prop := ∀ c ∈ s.head?, isDigit c = false

theorem Ends.foreign {s : Str} (ends : Ends s) {c : Char} (head : c ∈ s.head?) :
    isDigit c = false ∧ c ≠ '.' ∧ isExponent c = false := by
  rcases ends c head with space | rfl | rfl | rfl
  · simp only [isWhitespace, Bool.or_eq_true, beq_iff_eq] at space
    rcases space with ((rfl | rfl) | rfl) | rfl <;> decide
  all_goals decide

theorem span_digits {digits rest : Str} (all : digits.all isDigit = true) (stops : NoDigit rest) :
    (digits ++ rest).takeWhile isDigit = digits ∧ (digits ++ rest).dropWhile isDigit = rest := by
  have each := List.all_eq_true.1 all
  rw [List.takeWhile_append_of_pos each, List.dropWhile_append_of_pos each]
  cases rest with
  | nil => simp
  | cons c more =>
      have other := stops c rfl
      simp [other]

theorem all_takeWhile_digits (s : Str) : (s.takeWhile isDigit).all isDigit = true :=
  List.all_eq_true.2 fun _ mem => List.mem_takeWhile_imp mem

theorem matchInt_complete {whole rest : Str} (written : IntText whole) (stops : NoDigit rest) :
    matchInt (whole ++ rest) = some (whole, rest) := by
  rcases written with rfl | ⟨⟨some_, all⟩, leading⟩
  · rfl
  · cases whole with
    | nil => exact absurd rfl some_
    | cons c digits =>
        rw [List.all_cons, Bool.and_eq_true] at all
        have other : c ≠ '0' := fun zero => leading (by rw [zero]; rfl)
        obtain ⟨taken, dropped⟩ := span_digits all.2 stops
        rw [List.cons_append, matchInt.eq_2 _ _ fun zero => absurd zero other, if_pos all.1, taken, dropped]

theorem matchInt_sound {s whole rest : Str} (matched : matchInt s = some (whole, rest)) :
    s = whole ++ rest ∧ IntText whole := by
  unfold matchInt at matched
  split at matched
  · obtain ⟨rfl, rfl⟩ := Prod.mk.inj (Option.some.inj matched)
    exact ⟨rfl, .inl rfl⟩
  · next c more other =>
    split at matched
    · next digit =>
      obtain ⟨rfl, rfl⟩ := Prod.mk.inj (Option.some.inj matched)
      refine ⟨by rw [List.cons_append, List.takeWhile_append_dropWhile], .inr ⟨⟨List.cons_ne_nil _ _, ?_⟩, ?_⟩⟩
      · rw [List.all_cons, digit, all_takeWhile_digits]
        rfl
      · intro zero
        exact other (Option.some.inj zero)
    · cases matched
  · cases matched

theorem matchFraction_complete {fraction rest : Str} (written : FractionText fraction) (stops : NoDigit rest)
    (point : ∀ c ∈ rest.head?, c ≠ '.') : matchFraction (fraction ++ rest) = (fraction, rest) := by
  rcases written with rfl | ⟨digits, rfl, some_, all⟩
  · cases rest with
    | nil => rfl
    | cons c more => rw [List.nil_append, matchFraction.eq_2 _ fun s same => point c rfl (List.cons.inj same).1]
  · obtain ⟨taken, dropped⟩ := span_digits all stops
    rw [List.cons_append, matchFraction, taken, dropped, if_neg some_]

theorem matchFraction_sound (s : Str) :
    s = (matchFraction s).1 ++ (matchFraction s).2 ∧ FractionText (matchFraction s).1 := by
  unfold matchFraction
  split
  · next more =>
    split
    · exact ⟨rfl, .inl rfl⟩
    · next some_ =>
      refine ⟨by rw [List.cons_append, List.takeWhile_append_dropWhile], .inr ⟨_, rfl, some_, ?_⟩⟩
      exact all_takeWhile_digits more
  · exact ⟨rfl, .inl rfl⟩

theorem isExponent_iff {c : Char} : isExponent c = true ↔ c = 'e' ∨ c = 'E' := by
  rw [isExponent, Bool.or_eq_true, beq_iff_eq, beq_iff_eq]

theorem matchExponent_complete {exponent rest : Str} (written : ExponentText exponent) (ends : Ends rest) :
    matchExponent (exponent ++ rest) = (exponent, rest) := by
  rcases written with rfl | ⟨e, sign, digits, rfl, letter, signed, some_, all⟩
  · cases rest with
    | nil => rfl
    | cons c more =>
        have other := (ends.foreign (c := c) rfl).2.2
        rw [List.nil_append, matchExponent, if_neg (by rw [other]; exact Bool.false_ne_true)]
  · obtain ⟨taken, dropped⟩ := span_digits all fun c head => (ends.foreign head).1
    have front : (sign ++ (digits ++ rest)).take (if ((sign ++ (digits ++ rest)).head?.map isSign).getD false then 1 else 0) =
        sign := by
      rcases signed with rfl | rfl | rfl
      · obtain ⟨d, more, rfl⟩ := List.exists_cons_of_ne_nil some_
        rw [List.all_cons, Bool.and_eq_true] at all
        have plain : isSign d = false := by
          by_contra sign_
          rw [Bool.not_eq_false, isSign, Bool.or_eq_true, beq_iff_eq, beq_iff_eq] at sign_
          rcases sign_ with rfl | rfl <;> cases all.1
        simp [plain]
      · rfl
      · rfl
    rw [List.cons_append, List.append_assoc, matchExponent, if_pos (isExponent_iff.2 letter)]
    simp only [front, List.drop_left, taken, dropped, if_neg some_]

theorem matchExponent_sound (s : Str) :
    s = (matchExponent s).1 ++ (matchExponent s).2 ∧ ExponentText (matchExponent s).1 := by
  cases s with
  | nil => exact ⟨rfl, .inl rfl⟩
  | cons c rest =>
      rw [matchExponent]
      split
      · next letter =>
        set sign := rest.take (if (rest.head?.map isSign).getD false then 1 else 0) with signIs
        have whole : rest = sign ++ rest.drop sign.length := by
          have leads : sign <+: rest := List.take_prefix _ _
          obtain ⟨tail, text⟩ := leads
          rw [← text, List.drop_left]
        have signed : sign = [] ∨ sign = ['+'] ∨ sign = ['-'] := by
          rw [signIs]
          cases rest with
          | nil => exact .inl (List.take_nil)
          | cons d more =>
              rw [List.head?_cons, Option.map_some, Option.getD_some]
              by_cases isSign_ : isSign d = true
              · rw [if_pos isSign_]
                rw [isSign, Bool.or_eq_true, beq_iff_eq, beq_iff_eq] at isSign_
                rcases isSign_ with rfl | rfl
                · exact .inr (.inl rfl)
                · exact .inr (.inr rfl)
              · rw [if_neg isSign_]
                exact .inl rfl
        dsimp only
        split
        · exact ⟨rfl, .inl rfl⟩
        · next some_ =>
          refine ⟨?_, .inr ⟨c, sign, _, rfl, isExponent_iff.1 letter, signed, some_, all_takeWhile_digits _⟩⟩
          show c :: rest = c :: (sign ++ _) ++ _
          rw [List.cons_append, List.append_assoc, List.takeWhile_append_dropWhile, ← whole]
      · exact ⟨rfl, .inl rfl⟩

theorem IntText.head {whole : Str} (written : IntText whole) : ∃ c rest, whole = c :: rest ∧ isDigit c = true := by
  rcases written with rfl | ⟨⟨some_, all⟩, -⟩
  · exact ⟨'0', [], rfl, rfl⟩
  · obtain ⟨c, rest, rfl⟩ := List.exists_cons_of_ne_nil some_
    rw [List.all_cons, Bool.and_eq_true] at all
    exact ⟨c, rest, rfl, all.1⟩

/-- The first character of a number. -/
theorem NumberText.head {token : Str} (written : NumberText token) :
    ∃ c rest, token = c :: rest ∧ (isDigit c = true ∨ c = '-') := by
  obtain ⟨sign, whole, fraction, exponent, rfl, signed, int, -, -⟩ := written.parts
  obtain ⟨c, rest, rfl, digit⟩ := int.head
  rcases signed with rfl | rfl
  · exact ⟨c, rest ++ fraction ++ exponent, rfl, .inl digit⟩
  · exact ⟨'-', c :: rest ++ fraction ++ exponent, rfl, .inr rfl⟩

theorem matchNumber_complete {token rest : Str} (written : NumberText token) (ends : Ends rest) :
    matchNumber (token ++ rest) = some (token, rest) := by
  obtain ⟨sign, whole, fraction, exponent, rfl, signed, int, frac, exp⟩ := written.parts
  -- what follows the fraction, and the whole
  have afterFraction : NoDigit (exponent ++ rest) ∧ ∀ c ∈ (exponent ++ rest).head?, c ≠ '.' := by
    rcases exp with rfl | ⟨e, s, digits, rfl, letter, -⟩
    · exact ⟨fun c head => (ends.foreign head).1, fun c head => (ends.foreign head).2.1⟩
    · have foreign : isDigit e = false ∧ e ≠ '.' := by
        rcases letter with rfl | rfl <;> decide
      have head {c : Char} (first : c ∈ (e :: (s ++ digits) ++ rest).head?) : e = c := Option.some.inj first
      exact ⟨fun c first => head first ▸ foreign.1, fun c first => head first ▸ foreign.2⟩
  have afterWhole : NoDigit (fraction ++ (exponent ++ rest)) := by
    rcases frac with rfl | ⟨digits, rfl, -⟩
    · exact afterFraction.1
    · intro c head
      rw [← Option.some.inj (head : some '.' = some c)]
      rfl
  have front : (sign ++ (whole ++ (fraction ++ (exponent ++ rest)))).take
      (if (sign ++ (whole ++ (fraction ++ (exponent ++ rest)))).head? = some '-' then 1 else 0) = sign := by
    rcases signed with rfl | rfl
    · obtain ⟨c, more, rfl, digit⟩ := int.head
      have other : c ≠ '-' := by
        rintro rfl
        cases digit
      simp [other]
    · rfl
  have grouped : sign ++ whole ++ fraction ++ exponent ++ rest =
      sign ++ (whole ++ (fraction ++ (exponent ++ rest))) := by
    simp only [List.append_assoc]
  rw [grouped, matchNumber]
  simp only [front, List.drop_left, matchInt_complete int afterWhole, Option.map_some,
    matchFraction_complete frac afterFraction.1 afterFraction.2, matchExponent_complete exp ends]

theorem matchNumber_sound {s token rest : Str} (matched : matchNumber s = some (token, rest)) :
    s = token ++ rest ∧ NumberText token := by
  rw [matchNumber] at matched
  set sign := s.take (if s.head? = some '-' then 1 else 0) with signIs
  dsimp only at matched
  obtain ⟨⟨whole, after⟩, int, same⟩ := Option.map_eq_some_iff.1 matched
  obtain ⟨rfl, rfl⟩ := Prod.mk.inj same
  obtain ⟨split, written⟩ := matchInt_sound int
  obtain ⟨split', fraction⟩ := matchFraction_sound after
  obtain ⟨split'', exponent⟩ := matchExponent_sound (matchFraction after).2
  have signed : sign = [] ∨ sign = ['-'] := by
    rw [signIs]
    cases s with
    | nil => exact .inl List.take_nil
    | cons c more =>
        by_cases minus : c = '-'
        · exact .inr (by rw [minus]; rfl)
        · exact .inl (by simp [minus])
  have whole_ : s = sign ++ s.drop sign.length := by
    have leads : sign <+: s := List.take_prefix _ _
    obtain ⟨tail, text⟩ := leads
    rw [← text, List.drop_left]
  refine ⟨?_, ⟨sign, whole, _, _, rfl, signed, written, fraction, exponent⟩⟩
  calc s = sign ++ (whole ++ ((matchFraction after).1 ++ ((matchExponent (matchFraction after).2).1 ++
        (matchExponent (matchFraction after).2).2))) := by rw [← split'', ← split', ← split, ← whole_]
    _ = _ := by simp only [List.append_assoc]

end ApiSecurityPlatform.Proposals
