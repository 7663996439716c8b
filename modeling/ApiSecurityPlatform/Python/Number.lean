/-
# Python.Number -- numbers as JSON text, and in `jsonb`

A number is written as an integer or as the `repr` of a float, and read back by its shape:
a fraction or an exponent makes a float, anything else an integer.  Of floats only is used
that `repr` writes the shortest digits that are read back (`Doubles`); its layout is the
one of `float_repr`.

PostgreSQL keeps a number of a `jsonb` as a `numeric`: the exact value, with as many
fractional digits as were written, no exponent and no negative zero (`Token.jsonb`).  A
float comes back from there as itself, except the two kinds that lose their shape or their
sign: from 10^16 on `repr` writes an exponent and no fraction is left, and `-0.0` is zero
(`fromJsonb_eq_iff`).
-/
import ApiSecurityPlatform.Python.IpText
import Mathlib.Tactic.Ring

namespace ApiSecurityPlatform.Python

set_option autoImplicit false

/-! ## Number tokens -/

/-- A number of a JSON text, in its parts; no fraction is an empty one. -/
structure Token where
  neg : Bool
  whole : Str
  fraction : Str
  exponent : Option Int
deriving DecidableEq

/-- `"%+03d"`. -/
def exponentText (e : Int) : Str :=
  (if e < 0 then '-' else '+') ::
    (if e.natAbs < 10 then '0' :: Nat.toDigits 10 e.natAbs else Nat.toDigits 10 e.natAbs)

namespace Token

def text (t : Token) : Str :=
  (if t.neg then ['-'] else []) ++ t.whole ++ (if t.fraction = [] then [] else '.' :: t.fraction) ++
    (t.exponent.elim [] fun e => 'e' :: exponentText e)

structure WellFormed (t : Token) : Prop where
  some_ : t.whole ≠ []
  whole : t.whole.all isDigit = true
  fraction : t.fraction.all isDigit = true

/-- The value is `unscaled * 10 ^ power`, with the sign of `neg`. -/
def unscaled (t : Token) : Nat := toInt 10 (t.whole ++ t.fraction)

def power (t : Token) : Int := t.exponent.getD 0 - t.fraction.length

/-- The two magnitudes are equal. -/
def SameValue (t s : Token) : Prop :=
  t.unscaled * 10 ^ (t.power - s.power).toNat = s.unscaled * 10 ^ (s.power - t.power).toNat

/-- Read as an integer: neither fraction nor exponent. -/
def integral (t : Token) : Bool := t.fraction.isEmpty && t.exponent.isNone

end Token

def intToken (n : Int) : Token := ⟨decide (n < 0), Nat.toDigits 10 n.natAbs, [], none⟩

/-! ## Floats -/

/-- The digits of a float and the place of its decimal point, `0.ddd * 10 ^ point`. -/
structure Decimal where
  neg : Bool
  digits : Str
  point : Int
deriving DecidableEq

namespace Decimal

structure Shortest (d : Decimal) : Prop where
  some_ : d.digits ≠ []
  digits : d.digits.all isDigit = true
  short : d.digits.length ≤ 17
  leading : d.digits = ['0'] ∧ d.point = 1 ∨ d.digits.head? ≠ some '0'

/-- `float_repr`: positional between 10^-4 and 10^16, else with an exponent. -/
def repr (d : Decimal) : Token :=
  if -4 < d.point ∧ d.point ≤ 16 then
    if d.point ≤ 0 then ⟨d.neg, ['0'], List.replicate (-d.point).toNat '0' ++ d.digits, none⟩
    else if d.digits.length ≤ d.point.toNat then
      ⟨d.neg, d.digits ++ List.replicate (d.point.toNat - d.digits.length) '0', ['0'], none⟩
    else ⟨d.neg, d.digits.take d.point.toNat, d.digits.drop d.point.toNat, none⟩
  else ⟨d.neg, d.digits.take 1, d.digits.drop 1, some (d.point - 1)⟩

def isZero (d : Decimal) : Bool := d.digits == ['0']

/-- Smaller than 10^16, and not `-0.0`. -/
def Plain (d : Decimal) : Prop := d.point ≤ 16 ∧ ¬ (d.neg = true ∧ d.isZero = true)

instance (d : Decimal) : Decidable d.Plain := inferInstanceAs (Decidable (_ ∧ _))

end Decimal

/-- The finite floats: the shortest digits of each, and `float(text)`, which goes by the
value of the text and keeps its sign. -/
structure Doubles (F : Type) where
  decimal : F → Decimal
  ofText : Str → F
  shortest : ∀ x, (decimal x).Shortest
  reads : ∀ x (t : Token), t.WellFormed → t.neg = (decimal x).neg → t.SameValue (decimal x).repr →
    ofText t.text = x
  zero : ∀ t : Token, t.WellFormed → t.unscaled = 0 → t.neg = false → (decimal (ofText t.text)).neg = false

/-- Floats of which only one is looked at. -/
def oneFloat (d : Decimal) (shortest : d.Shortest) (unsigned : d.neg = false) : Doubles Unit where
  decimal _ := d
  ofText _ := ()
  shortest _ := shortest
  reads _ _ _ _ _ := rfl
  zero _ _ _ _ := unsigned

def onlyHalf : Doubles Unit := oneFloat ⟨false, ['5'], 0⟩ ⟨by decide, by decide, by decide, .inr (by decide)⟩ rfl

/-! ### `numeric` -/

namespace Token

/-- The fractional digits a `numeric` keeps. -/
def scale (t : Token) : Nat := (-t.power).toNat

def numeric (t : Token) : Nat := t.unscaled * 10 ^ t.power.toNat

/-- The digits of a `numeric`, one at least before the point. -/
def numericDigits (t : Token) : Str :=
  List.replicate (t.scale + 1 - (Nat.toDigits 10 t.numeric).length) '0' ++ Nat.toDigits 10 t.numeric

/-- A number as `jsonb` writes it. -/
def jsonb (t : Token) : Token :=
  ⟨t.neg && t.numeric != 0, t.numericDigits.take (t.numericDigits.length - t.scale),
    t.numericDigits.drop (t.numericDigits.length - t.scale), none⟩

end Token

/-! ## Integers and floats -/

inductive Number (F : Type) where
  | int (n : Int)
  | float (x : F)
deriving DecidableEq

namespace Number

variable {F : Type} (D : Doubles F)

def token : Number F → Token
  | .int n => intToken n
  | .float x => (D.decimal x).repr

/-- `json.loads` of a number. -/
def ofToken (t : Token) : Number F :=
  if t.integral then .int (if t.neg then -(toInt 10 t.whole : Int) else toInt 10 t.whole)
  else .float (D.ofText t.text)

/-- A number stored in a `jsonb` column and read again. -/
def fromJsonb (n : Number F) : Number F := ofToken D (n.token D).jsonb

def Plain : Number F → Prop
  | .int _ => True
  | .float x => (D.decimal x).Plain

end Number

/-! ## Digits -/

theorem toInt_append (base : Nat) (a b : Str) : toInt base (a ++ b) = toInt base a * base ^ b.length + toInt base b := by
  induction b using List.reverseRecOn with
  | nil => simp [toInt]
  | append_singleton b c ih =>
      rw [← List.append_assoc, toInt_snoc, ih, toInt_snoc, List.length_append, List.length_singleton, pow_succ]
      ring

theorem toInt_zeros (n : Nat) : toInt 10 (List.replicate n '0') = 0 := by
  induction n with
  | zero => rfl
  | succ n ih =>
      rw [List.replicate_succ', toInt_snoc, ih]
      rfl

theorem toInt_zeros_append (n : Nat) (s : Str) : toInt 10 (List.replicate n '0' ++ s) = toInt 10 s := by
  rw [toInt_append, toInt_zeros, Nat.zero_mul, Nat.zero_add]

theorem toInt_append_zeros (s : Str) (n : Nat) : toInt 10 (s ++ List.replicate n '0') = toInt 10 s * 10 ^ n := by
  rw [toInt_append, toInt_zeros, List.length_replicate, Nat.add_zero]

theorem all_toDigits (n : Nat) : (Nat.toDigits 10 n).all isDigit = true := by
  rw [List.all_eq_true]
  intro c mem
  obtain ⟨d, small, rfl⟩ := mem_toDigits (by decide) mem
  exact isDigit_digitChar small

theorem hexDigit?_pos {c : Char} (digit : isDigit c = true) (other : c ≠ '0') : 0 < (hexDigit? c).getD 0 := by
  simp only [isDigit, Bool.and_eq_true, decide_eq_true_eq] at digit
  rw [hexDigit?, if_pos digit]
  have low : '0'.toNat ≤ c.toNat := digit.1
  have apart : '0'.toNat ≠ c.toNat := fun same => other (Char.toNat_inj.1 same).symm
  have bound : '0'.toNat = 48 := rfl
  show 0 < c.toNat - 48
  omega

/-- A numeral with another first digit than zero is not zero. -/
theorem toInt_pos {s : Str} (some_ : s ≠ []) (digits : s.all isDigit = true) (leading : s.head? ≠ some '0') :
    0 < toInt 10 s := by
  obtain ⟨c, rest, rfl⟩ := List.exists_cons_of_ne_nil some_
  rw [List.all_cons, Bool.and_eq_true] at digits
  have first := hexDigit?_pos digits.1 fun same => leading (by rw [same]; rfl)
  have whole : toInt 10 (c :: rest) = toInt 10 [c] * 10 ^ rest.length + toInt 10 rest := toInt_append 10 [c] rest
  rw [whole]
  have single : toInt 10 [c] = (hexDigit? c).getD 0 := by simp [toInt]
  rw [single]
  have positive := Nat.mul_pos first (pow_pos (by decide : 0 < 10) rest.length)
  omega

/-! ## `jsonb` keeps the value -/

namespace Token

variable (t : Token)

theorem length_numericDigits : t.scale + 1 ≤ t.numericDigits.length := by
  rw [numericDigits, List.length_append, List.length_replicate]
  omega

theorem all_numericDigits : t.numericDigits.all isDigit = true := by
  rw [numericDigits, List.all_append, all_toDigits, Bool.and_true, List.all_eq_true]
  intro c mem
  rw [(List.mem_replicate.1 mem).2]
  decide

theorem length_jsonb_fraction : t.jsonb.fraction.length = t.scale := by
  have long := t.length_numericDigits
  show (t.numericDigits.drop _).length = _
  rw [List.length_drop]
  omega

theorem jsonb_wellFormed : t.jsonb.WellFormed := by
  have long := t.length_numericDigits
  have digits := List.all_eq_true.1 t.all_numericDigits
  refine ⟨?_, ?_, ?_⟩
  · intro empty
    have none_ := congrArg List.length empty
    change (t.numericDigits.take _).length = 0 at none_
    rw [List.length_take] at none_
    omega
  · exact List.all_eq_true.2 fun c mem => digits c (List.mem_of_mem_take mem)
  · exact List.all_eq_true.2 fun c mem => digits c (List.mem_of_mem_drop mem)

theorem jsonb_unscaled : t.jsonb.unscaled = t.numeric := by
  show toInt 10 (t.numericDigits.take _ ++ t.numericDigits.drop _) = _
  rw [List.take_append_drop, numericDigits, toInt_zeros_append]
  exact toInt_toDigits (by decide) (by decide) _

theorem jsonb_power : t.jsonb.power = -t.scale := by
  rw [power, length_jsonb_fraction]
  show 0 - (t.scale : Int) = _
  omega

theorem jsonb_sameValue : t.jsonb.SameValue t := by
  rw [SameValue, jsonb_unscaled, jsonb_power, numeric, scale]
  rcases le_total 0 t.power with positional | small
  · have none_ : (-t.power).toNat = 0 := by omega
    rw [none_]
    simp only [none_, Nat.pow_zero, Nat.mul_one, Nat.cast_zero, neg_zero, zero_sub, sub_zero]
  · have first : t.power.toNat = 0 := by omega
    have second : (-((-t.power).toNat : Int) - t.power).toNat = 0 := by omega
    have third : (t.power - -((-t.power).toNat : Int)).toNat = 0 := by omega
    rw [first, second, third]
    simp

theorem jsonb_integral : t.jsonb.integral = decide (t.scale = 0) := by
  have length := t.length_jsonb_fraction
  have shape : t.jsonb.integral = t.jsonb.fraction.isEmpty := Bool.and_true _
  rw [shape, ← length]
  cases t.jsonb.fraction <;> simp

end Token

/-! ## `repr` -/

namespace Decimal

variable {d : Decimal}

theorem repr_neg (d : Decimal) : d.repr.neg = d.neg := by
  unfold repr
  split
  · split
    · rfl
    · split <;> rfl
  · rfl

theorem repr_wellFormed (shortest : d.Shortest) : d.repr.WellFormed := by
  have digits := List.all_eq_true.1 shortest.digits
  have zeros (n : Nat) : (List.replicate n '0').all isDigit = true := by
    rw [List.all_eq_true]
    intro c mem
    rw [(List.mem_replicate.1 mem).2]
    decide
  have taken (n : Nat) (some_ : 0 < n) : d.digits.take n ≠ [] := by
    rw [Ne, List.take_eq_nil_iff, not_or]
    exact ⟨by omega, shortest.some_⟩
  have part (n : Nat) : (d.digits.take n).all isDigit = true ∧ (d.digits.drop n).all isDigit = true :=
    ⟨List.all_eq_true.2 fun c mem => digits c (List.mem_of_mem_take mem),
      List.all_eq_true.2 fun c mem => digits c (List.mem_of_mem_drop mem)⟩
  have zero : ['0'].all isDigit = true := by decide
  unfold repr
  split
  · split
    · refine ⟨by simp, zero, ?_⟩
      rw [List.all_append, zeros, shortest.digits]
      rfl
    · split
      · refine ⟨by simp [shortest.some_], ?_, zero⟩
        rw [List.all_append, zeros, shortest.digits]
        rfl
      · exact ⟨taken _ (by omega), (part _).1, (part _).2⟩
  · exact ⟨taken 1 (by decide), (part _).1, (part _).2⟩

/-- A float never looks like an integer. -/
theorem repr_integral (shortest : d.Shortest) : d.repr.integral = false := by
  unfold repr
  split
  · split
    · simp [Token.integral, shortest.some_]
    · split
      · rfl
      · next long =>
        have rest : d.digits.drop d.point.toNat ≠ [] := by
          rw [Ne, List.drop_eq_nil_iff]
          exact long
        simp [Token.integral, rest]
  · exact Bool.and_false _

/-- The digits of the token are those of the float, with zeros around them. -/
theorem repr_unscaled (d : Decimal) : ∃ k, d.repr.unscaled = toInt 10 d.digits * 10 ^ k := by
  unfold repr Token.unscaled
  split
  · split
    · refine ⟨0, ?_⟩
      have grouped : ['0'] ++ (List.replicate (-d.point).toNat '0' ++ d.digits) =
          List.replicate ((-d.point).toNat + 1) '0' ++ d.digits := by
        rw [List.replicate_succ]
        simp
      simp only [grouped, toInt_zeros_append, Nat.pow_zero, Nat.mul_one]
    · split
      · refine ⟨d.point.toNat - d.digits.length + 1, ?_⟩
        have grouped : d.digits ++ List.replicate (d.point.toNat - d.digits.length) '0' ++ ['0'] =
            d.digits ++ List.replicate (d.point.toNat - d.digits.length + 1) '0' := by
          rw [List.replicate_succ']
          simp
        simp only [grouped, toInt_append_zeros]
      · exact ⟨0, by simp⟩
  · exact ⟨0, by rw [List.take_append_drop, Nat.pow_zero, Nat.mul_one]⟩

theorem isZero_iff (shortest : d.Shortest) : d.isZero = true ↔ toInt 10 d.digits = 0 := by
  rw [isZero, beq_iff_eq]
  constructor
  · intro zero
    rw [zero]
    decide
  · intro zero
    rcases shortest.leading with ⟨same, -⟩ | leading
    · exact same
    · have positive := toInt_pos shortest.some_ shortest.digits leading
      omega

theorem repr_numeric (shortest : d.Shortest) : d.repr.numeric = 0 ↔ d.isZero = true := by
  obtain ⟨k, unscaled⟩ := d.repr_unscaled
  rw [isZero_iff shortest, Token.numeric, unscaled]
  simp

/-- From 10^16 on no fractional digit is left. -/
theorem repr_scale (shortest : d.Shortest) : d.repr.scale = 0 ↔ 16 < d.point := by
  have nonempty : 0 < d.digits.length := List.length_pos_of_ne_nil shortest.some_
  have short := shortest.short
  unfold repr
  split
  · next positional =>
    split
    · simp only [Token.scale, Token.power, Option.getD_none, List.length_append, List.length_replicate]
      omega
    · split
      · simp only [Token.scale, Token.power, Option.getD_none, List.length_singleton]
        omega
      · simp only [Token.scale, Token.power, Option.getD_none, List.length_drop]
        omega
  · next scientific =>
    simp only [Token.scale, Token.power, Option.getD_some, List.length_drop]
    omega

end Decimal

/-! ## Reading back -/

namespace Number

variable {F : Type} (D : Doubles F)

theorem token_wellFormed (n : Number F) : (n.token D).WellFormed := by
  cases n with
  | int n => exact ⟨Nat.toDigits_ne_nil, all_toDigits _, rfl⟩
  | float x => exact Decimal.repr_wellFormed (D.shortest x)

theorem ofToken_int {t : Token} (integral : t.integral = true) (n : Int)
    (value : toInt 10 t.whole = n.natAbs) (sign : t.neg = decide (n < 0)) : ofToken D t = .int n := by
  rw [ofToken, if_pos integral, value, sign]
  congr 1
  by_cases negative : n < 0
  · rw [if_pos (decide_eq_true negative)]
    omega
  · rw [if_neg (by simpa using negative)]
    omega

theorem fromJsonb_int (n : Int) : fromJsonb D (.int n : Number F) = .int n := by
  have unscaled : (intToken n).unscaled = n.natAbs := by
    show toInt 10 (Nat.toDigits 10 n.natAbs ++ []) = _
    rw [List.append_nil, toInt_toDigits (by decide) (by decide)]
  have numeric : (intToken n).numeric = n.natAbs := by
    rw [Token.numeric, unscaled]
    exact Nat.mul_one _
  have integral : (intToken n).jsonb.integral = true := by
    rw [Token.jsonb_integral]
    rfl
  refine ofToken_int D integral n ?_ ?_
  · have none_ : (intToken n).jsonb.fraction = [] := by
      have length := (intToken n).length_jsonb_fraction
      exact List.eq_nil_of_length_eq_zero length
    have whole := (intToken n).jsonb_unscaled
    rw [Token.unscaled, none_, List.append_nil, numeric] at whole
    exact whole
  · show (decide (n < 0) && (intToken n).numeric != 0) = decide (n < 0)
    rw [numeric]
    by_cases negative : n < 0
    · have other : n.natAbs ≠ 0 := by omega
      simp [negative, other]
    · simp [negative]

/-- **A number survives `jsonb` exactly when it is plain.** -/
theorem fromJsonb_eq_iff (n : Number F) : n.fromJsonb D = n ↔ n.Plain D := by
  cases n with
  | int n => exact iff_of_true (fromJsonb_int D n) trivial
  | float x =>
      have shortest := D.shortest x
      have numeric := Decimal.repr_numeric shortest
      have scale := Decimal.repr_scale shortest
      have integral : (D.decimal x).repr.jsonb.integral = true ↔ 16 < (D.decimal x).point := by
        rw [Token.jsonb_integral, decide_eq_true_eq, scale]
      have wellFormed := (D.decimal x).repr.jsonb_wellFormed
      have sign : (D.decimal x).repr.jsonb.neg = ((D.decimal x).neg && !(D.decimal x).isZero) := by
        show ((D.decimal x).repr.neg && (D.decimal x).repr.numeric != 0) = _
        rw [Decimal.repr_neg]
        cases zero : (D.decimal x).isZero with
        | true => rw [numeric.2 zero]; simp
        | false =>
            have other : (D.decimal x).repr.numeric ≠ 0 := fun none_ => by
              rw [numeric.1 none_] at zero
              cases zero
            simp [other]
      show ofToken D (D.decimal x).repr.jsonb = .float x ↔ (D.decimal x).Plain
      by_cases large : 16 < (D.decimal x).point
      · rw [ofToken, if_pos (integral.2 large)]
        exact iff_of_false (fun same => nomatch same) fun plain => absurd plain.1 (not_le.2 large)
      · rw [ofToken, if_neg fun shape => large (integral.1 shape), Number.float.injEq]
        by_cases negativeZero : (D.decimal x).neg = true ∧ (D.decimal x).isZero = true
        · refine iff_of_false (fun same => ?_) fun plain => plain.2 negativeZero
          -- the sign of a zero is gone
          have unscaled : (D.decimal x).repr.jsonb.unscaled = 0 := by
            rw [Token.jsonb_unscaled]
            exact numeric.2 negativeZero.2
          have unsigned : (D.decimal x).repr.jsonb.neg = false := by
            rw [sign, negativeZero.2]
            simp
          have read := D.zero _ wellFormed unscaled unsigned
          rw [same, negativeZero.1] at read
          cases read
        · refine iff_of_true ?_ ⟨not_lt.1 large, negativeZero⟩
          refine D.reads x _ wellFormed ?_ (D.decimal x).repr.jsonb_sameValue
          rw [sign]
          cases neg : (D.decimal x).neg with
          | false => rfl
          | true =>
              have other : (D.decimal x).isZero = false := by
                cases zero : (D.decimal x).isZero with
                | false => rfl
                | true => exact absurd ⟨neg, zero⟩ negativeZero
              rw [other]
              rfl

/-! ### The text of a number -/

/-- The characters of a number. -/
def isChar (c : Char) : Bool := isDigit c || c == '-' || c == '+' || c == '.' || c == 'e'

theorem text_chars {t : Token} (wellFormed : t.WellFormed) : ∀ c ∈ t.text, isChar c = true := by
  intro c mem
  have digit {s : Str} (all : s.all isDigit = true) (inside : c ∈ s) : isChar c = true := by
    rw [isChar, List.all_eq_true.1 all c inside]
    rfl
  unfold Token.text at mem
  rcases List.mem_append.1 mem with front | last
  · rcases List.mem_append.1 front with first | middle
    · rcases List.mem_append.1 first with sign | inWhole
      · split at sign
        · rw [List.mem_singleton.1 sign]
          decide
        · cases sign
      · exact digit wellFormed.whole inWhole
    · split at middle
      · cases middle
      · rcases List.mem_cons.1 middle with rfl | inFraction
        · decide
        · exact digit wellFormed.fraction inFraction
  · cases exponent : t.exponent with
    | none => rw [exponent] at last; cases last
    | some e =>
        rw [exponent] at last
        rcases List.mem_cons.1 last with rfl | rest
        · decide
        rw [exponentText] at rest
        rcases List.mem_cons.1 rest with rfl | inDigits
        · split <;> decide
        · split at inDigits
          · rcases List.mem_cons.1 inDigits with rfl | inDigits
            · decide
            · exact digit (all_toDigits _) inDigits
          · exact digit (all_toDigits _) inDigits

theorem text_ne_nil {t : Token} (wellFormed : t.WellFormed) : t.text ≠ [] := by
  unfold Token.text
  simp [wellFormed.some_]

/-- What tells a float from an integer. -/
theorem mem_text_of_float {t : Token} (float : t.integral = false) : '.' ∈ t.text ∨ 'e' ∈ t.text := by
  unfold Token.text
  cases exponent : t.exponent with
  | some e => exact .inr (by simp)
  | none =>
      left
      have some_ : t.fraction ≠ [] := by
        rintro empty
        rw [Token.integral, empty, exponent] at float
        cases float
      simp [some_]

theorem int_text (n : Int) : (intToken n).text = (if n < 0 then ['-'] else []) ++ Nat.toDigits 10 n.natAbs := by
  simp [Token.text, intToken]

theorem digits_foreign {n : Nat} {c : Char} (foreign : isDigit c = false) : c ∉ Nat.toDigits 10 n := by
  intro mem
  rw [List.all_eq_true.1 (all_toDigits n) c mem] at foreign
  cases foreign

theorem int_text_foreign (n : Int) : '.' ∉ (intToken n).text ∧ 'e' ∉ (intToken n).text := by
  rw [int_text]
  have point := digits_foreign (n := n.natAbs) (by decide : isDigit '.' = false)
  have exponent := digits_foreign (n := n.natAbs) (by decide : isDigit 'e' = false)
  split <;> simp [point, exponent]

theorem int_text_injective {n m : Int} (same : (intToken n).text = (intToken m).text) : n = m := by
  rw [int_text, int_text] at same
  have minus (k : Nat) : '-' ∉ Nat.toDigits 10 k := digits_foreign (by decide)
  have value {a b : Nat} (digits : Nat.toDigits 10 a = Nat.toDigits 10 b) : a = b := by
    have read (k : Nat) := toInt_toDigits (by decide : 2 ≤ 10) (by decide) k
    rw [← read a, digits, read b]
  by_cases first : n < 0 <;> by_cases second : m < 0
  · rw [if_pos first, if_pos second] at same
    have magnitude := value (List.append_cancel_left same)
    omega
  · rw [if_pos first, if_neg second, List.nil_append] at same
    exact absurd (same ▸ by simp : '-' ∈ Nat.toDigits 10 m.natAbs) (minus _)
  · rw [if_neg first, if_pos second, List.nil_append] at same
    exact absurd (same.symm ▸ by simp : '-' ∈ Nat.toDigits 10 n.natAbs) (minus _)
  · rw [if_neg first, if_neg second, List.nil_append, List.nil_append] at same
    have magnitude := value same
    omega

theorem text_injective {n m : Number F} (same : (n.token D).text = (m.token D).text) : n = m := by
  have apart (k : Int) (x : F) : (intToken k).text ≠ (D.decimal x).repr.text := by
    intro equal
    obtain ⟨point, exponent⟩ := int_text_foreign k
    rw [equal] at point exponent
    exact (mem_text_of_float (Decimal.repr_integral (D.shortest x))).elim point exponent
  have reads (x : F) : D.ofText (D.decimal x).repr.text = x :=
    D.reads x _ (Decimal.repr_wellFormed (D.shortest x)) (Decimal.repr_neg _) rfl
  cases n with
  | int n =>
      cases m with
      | int m => rw [int_text_injective same]
      | float y => exact absurd same (apart n y)
  | float x =>
      cases m with
      | int m => exact absurd same.symm (apart m x)
      | float y => rw [← reads x, ← reads y]; exact congrArg (fun s => float (D.ofText s)) same

end Number

end ApiSecurityPlatform.Python
