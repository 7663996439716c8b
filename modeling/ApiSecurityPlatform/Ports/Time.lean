/-
# Ports.Time -- the spelling of an instant

`stamp` writes an instant in UTC with ASCII digits; `utc` reads with `\d` and `strptime`,
which also take the decimal digits of other scripts.  So an instant has one spelling exactly
among the ASCII strings (`one_spelling`): `utc` gives the string back through `stamp` where
all of it is ASCII, and a non-ASCII year is accepted and lost (`foreign_digits_accepted`).

The Unicode database is an argument (`Decimals`): which characters are decimal digits outside
ASCII is not assumed.
-/
import ApiSecurityPlatform.Python.IpText
import ApiSecurityPlatform.Theory.Fallible

namespace ApiSecurityPlatform.Ports

open ApiSecurityPlatform.Theory
open ApiSecurityPlatform.Python

set_option autoImplicit false

/-- `PORT_CODES`. -/
inductive PortCode where
  | versionUnsupported
  | invalidRecord
  | limitExceeded
  | sourceUnavailable
  | contextChanged
  | cancelled
  | deadlineExceeded
  | authorityUnavailable
  | reservationUnavailable
  | ownerLost
  | observerUnavailable
  | commitUnknown
  | conflict
deriving DecidableEq, Repr

/-- `require(condition, code)`. -/
def require (condition : Prop) [Decidable condition] (code : PortCode) : Except PortCode Unit :=
  if condition then .ok () else .error code

@[simp]
theorem require_ok {condition : Prop} [Decidable condition] {code : PortCode} {u : Unit} :
    require condition code = .ok u ↔ condition := by
  unfold require
  split <;> simp_all

/-! ## Digits -/

/-- `\d` and `int`: the decimal digits of every script. -/
structure Decimals where
  decimal : Char → Option Nat
  ascii : ∀ c, isAscii c = true → decimal c = if isDigit c then some (c.toNat - 48) else none
  small : ∀ c d, decimal c = some d → d < 10

namespace Decimals

variable (U : Decimals)

/-- The digits of `\d`. -/
def isDecimal (c : Char) : Bool := (U.decimal c).isSome

/-- `int(s)`. -/
def number (s : Str) : Nat := ofDigits 10 (s.map fun c => (U.decimal c).getD 0)

/-- The ASCII digit in place of a digit. -/
def fold (c : Char) : Char := (U.decimal c).elim c Nat.digitChar

end Decimals

/-- `%0wd`. -/
def pad (width n : Nat) : Str := (digits 10 width n).map Nat.digitChar

/-- The widths of the numbers and what ends each, `YYYY-MM-DDThh:mm:ss.ffffffZ`. -/
def shape : List (Nat × Char) := [(4, '-'), (2, '-'), (2, 'T'), (2, ':'), (2, ':'), (2, '.'), (6, 'Z')]

def write : List (Nat × Char) → List Nat → Str
  | (width, stop) :: shape, n :: numbers => pad width n ++ stop :: write shape numbers
  | _, _ => []

/-- `re.fullmatch` of the pattern with a group of `width` digits before each `stop`. -/
def fields (decimal : Char → Bool) : List (Nat × Char) → Str → Option (List Str)
  | [], s => if s.isEmpty then some [] else none
  | (width, stop) :: shape, s =>
      match s.drop width with
      | c :: tail =>
          if c == stop && (s.take width).all decimal then (fields decimal shape tail).map (s.take width :: ·)
          else none
      | [] => none

/-! ## Dates -/

/-- The fields of a `datetime`. -/
structure Civil where
  year : Nat
  month : Nat
  day : Nat
  hour : Nat
  minute : Nat
  second : Nat
  microsecond : Nat
deriving DecidableEq, Repr

namespace Civil

def isLeap (year : Nat) : Bool := year % 4 == 0 && (year % 100 != 0 || year % 400 == 0)

def daysInMonth (year month : Nat) : Nat :=
  if month = 2 then (if isLeap year then 29 else 28)
  else if month = 4 ∨ month = 6 ∨ month = 9 ∨ month = 11 then 30
  else 31

/-- What the constructor of `datetime` checks. -/
structure Valid (c : Civil) : Prop where
  year : 1 ≤ c.year ∧ c.year ≤ 9999
  month : 1 ≤ c.month ∧ c.month ≤ 12
  day : 1 ≤ c.day ∧ c.day ≤ daysInMonth c.year c.month
  hour : c.hour < 24
  minute : c.minute < 60
  second : c.second < 60
  microsecond : c.microsecond < 1000000

instance (c : Civil) : Decidable c.Valid :=
  decidable_of_iff ((1 ≤ c.year ∧ c.year ≤ 9999) ∧ (1 ≤ c.month ∧ c.month ≤ 12) ∧
      (1 ≤ c.day ∧ c.day ≤ daysInMonth c.year c.month) ∧ c.hour < 24 ∧ c.minute < 60 ∧ c.second < 60 ∧
      c.microsecond < 1000000)
    ⟨fun ⟨a, b, d, e, f, g, h⟩ => ⟨a, b, d, e, f, g, h⟩, fun ⟨a, b, d, e, f, g, h⟩ => ⟨a, b, d, e, f, g, h⟩⟩

/-- `toordinal`. -/
def ordinal (c : Civil) : Nat :=
  (c.year - 1) * 365 + (c.year - 1) / 4 - (c.year - 1) / 100 + (c.year - 1) / 400 +
    ((List.range (c.month - 1)).map fun m => daysInMonth c.year (m + 1)).sum + c.day

/-- The microseconds of the day. -/
def timeOfDay (c : Civil) : Nat := ((c.hour * 60 + c.minute) * 60 + c.second) * 1000000 + c.microsecond

def dayMicroseconds : Nat := 86400 * 1000000

/-- Microseconds since the first day, for comparisons and differences. -/
def microseconds (c : Civil) : Nat := c.ordinal * dayMicroseconds + c.timeOfDay

def withTime (c : Civil) (t : Nat) : Civil :=
  { c with
    hour := t / 1000000 / 3600
    minute := t / 1000000 / 60 % 60
    second := t / 1000000 % 60
    microsecond := t % 1000000 }

def nextDay (c : Civil) : Option Civil :=
  if c.day < daysInMonth c.year c.month then some { c with day := c.day + 1 }
  else if c.month < 12 then some { c with month := c.month + 1, day := 1 }
  else if c.year < 9999 then some { c with year := c.year + 1, month := 1, day := 1 }
  else none

def previousDay (c : Civil) : Option Civil :=
  if 1 < c.day then some { c with day := c.day - 1 }
  else if 1 < c.month then some { c with month := c.month - 1, day := daysInMonth c.year (c.month - 1) }
  else if 1 < c.year then some { c with year := c.year - 1, month := 12, day := 31 }
  else none

def numbers (c : Civil) : List Nat := [c.year, c.month, c.day, c.hour, c.minute, c.second, c.microsecond]

/-- `isoformat(timespec='microseconds')` in UTC, with `Z` for the offset. -/
def text (c : Civil) : Str := write shape c.numbers

end Civil

/-- A `datetime`: the offset is in microseconds and less than a day. -/
structure Datetime where
  civil : Civil
  valid : civil.Valid
  offset : Option Int
  near : ∀ o ∈ offset, o.natAbs < Civil.dayMicroseconds
deriving DecidableEq

namespace Datetime

/-- The fields in UTC, `astimezone(timezone.utc)`; `none` before year 1 and after 9999. -/
def shift (c : Civil) (offset : Int) : Option Civil :=
  let t := (c.timeOfDay : Int) - offset
  if t < 0 then c.previousDay.map fun d => d.withTime (t + Civil.dayMicroseconds).toNat
  else if t < Civil.dayMicroseconds then some (c.withTime t.toNat)
  else c.nextDay.map fun d => d.withTime (t - Civil.dayMicroseconds).toNat

def inUtc (d : Datetime) : Option Civil := d.offset.bind (shift d.civil)

/-- `==` of two aware datetimes. -/
def Same (d e : Datetime) : Prop := ∃ c, d.inUtc = some c ∧ e.inUtc = some c

def utc (c : Civil) (valid : c.Valid) : Datetime := ⟨c, valid, some 0, by
  intro o same
  rw [← Option.some.inj same]
  decide⟩

end Datetime

inductive StampError where
  | port (code : PortCode)
  /-- `OverflowError`. -/
  | overflow
deriving DecidableEq, Repr

def stamp (d : Datetime) : Except StampError Str :=
  match d.offset with
  | none => .error (.port .invalidRecord)
  | some offset =>
      match Datetime.shift d.civil offset with
      | none => .error .overflow
      | some c => .ok c.text

/-! ## Reading -/

section Reading

variable (U : Decimals)

/-- `1[0-2]|0[1-9]`. -/
def monthText : Str → Bool
  | [a, b] => (a == '1' && '0' ≤ b && b ≤ '2') || (a == '0' && '1' ≤ b && b ≤ '9')
  | _ => false

/-- `3[0-1]|[1-2]\d|0[1-9]`. -/
def dayText (decimal : Char → Bool) : Str → Bool
  | [a, b] =>
      (a == '3' && '0' ≤ b && b ≤ '1') || ((a == '1' || a == '2') && decimal b) || (a == '0' && '1' ≤ b && b ≤ '9')
  | _ => false

/-- `2[0-3]|[0-1]\d`. -/
def hourText (decimal : Char → Bool) : Str → Bool
  | [a, b] => (a == '2' && '0' ≤ b && b ≤ '3') || ((a == '0' || a == '1') && decimal b)
  | _ => false

/-- `[0-5]\d`. -/
def minuteText (decimal : Char → Bool) : Str → Bool
  | [a, b] => '0' ≤ a && a ≤ '5' && decimal b
  | _ => false

/-- `6[0-1]|[0-5]\d`. -/
def secondText (decimal : Char → Bool) : Str → Bool
  | [a, b] => (a == '6' && '0' ≤ b && b ≤ '1') || ('0' ≤ a && a ≤ '5' && decimal b)
  | _ => false

/-- `utc`.  Between the separators that `fullmatch` has found, the shorter alternatives of
`strptime` cannot match. -/
def utc (value : Str) : Except PortCode Datetime :=
  match fields U.isDecimal shape value with
  | some [year, month, day, hour, minute, second, fraction] => do
      require ((monthText month && dayText U.isDecimal day && hourText U.isDecimal hour &&
        minuteText U.isDecimal minute && secondText U.isDecimal second && fraction.all isDigit) = true) .invalidRecord
      let civil : Civil := ⟨U.number year, U.number month, U.number day, U.number hour, U.number minute,
        U.number second, U.number fraction⟩
      if valid : civil.Valid then .ok (.utc civil valid) else .error .invalidRecord
  | _ => .error .invalidRecord

end Reading

/-! ## Digits and their values -/

theorem isAscii_digitChar {d : Nat} (small : d < 10) : isAscii (Nat.digitChar d) = true := by
  have all : ∀ k < 10, isAscii (Nat.digitChar k) = true := by decide
  exact all d small

namespace Decimals

variable (U : Decimals)

theorem decimal_digitChar {d : Nat} (small : d < 10) : U.decimal (Nat.digitChar d) = some d := by
  have all : ∀ k < 10, isDigit (Nat.digitChar k) = true ∧ (Nat.digitChar k).toNat - 48 = k := by decide
  rw [U.ascii _ (isAscii_digitChar small), if_pos (all d small).1, (all d small).2]

theorem isDecimal_of_isDigit {c : Char} (digit : isDigit c = true) : U.isDecimal c = true := by
  have ascii : isAscii c = true := by
    simp only [isDigit, Bool.and_eq_true, decide_eq_true_eq] at digit
    have high : c.toNat ≤ 57 := digit.2
    simp only [isAscii, decide_eq_true_eq]
    omega
  rw [isDecimal, U.ascii c ascii, if_pos digit]
  rfl

theorem number_pad {width n : Nat} (small : n < 10 ^ width) : U.number (pad width n) = n := by
  have values : ((pad width n).map fun c => (U.decimal c).getD 0) = digits 10 width n := by
    rw [pad, List.map_map]
    refine (List.map_congr_left fun d mem => ?_).trans (List.map_id _)
    rw [Function.comp_apply, U.decimal_digitChar (mem_digits (by decide) mem)]
    rfl
  rw [number, values, ofDigits_digits small]

/-- Digits of any script, written again. -/
theorem pad_number {s : Str} (all : s.all U.isDecimal = true) : pad s.length (U.number s) = s.map U.fold := by
  have small : ∀ d ∈ s.map fun c => (U.decimal c).getD 0, d < 10 := by
    intro d mem
    obtain ⟨c, inside, rfl⟩ := List.mem_map.1 mem
    obtain ⟨k, value⟩ := Option.isSome_iff_exists.1 (List.all_eq_true.1 all c inside)
    rw [value]
    exact U.small c k value
  have read := digits_ofDigits small
  rw [List.length_map] at read
  rw [pad, number, read, List.map_map]
  refine List.map_congr_left fun c inside => ?_
  obtain ⟨k, value⟩ := Option.isSome_iff_exists.1 (List.all_eq_true.1 all c inside)
  rw [Function.comp_apply, fold, value]
  rfl

theorem fold_ascii {c : Char} (ascii : isAscii c = true) : U.fold c = c := by
  rw [fold, U.ascii c ascii]
  split
  · next digit =>
    simp only [isDigit, Bool.and_eq_true, decide_eq_true_eq] at digit
    have low : 48 ≤ c.toNat := digit.1
    have high : c.toNat ≤ 57 := digit.2
    have all : ∀ k < 58, 48 ≤ k → Nat.digitChar (k - 48) = Char.ofNat k := by decide
    have same := all c.toNat (by omega) low
    rwa [Char.ofNat_toNat] at same
  · rfl

end Decimals

/-! ## The text of an instant -/

theorem pad_ascii (width n : Nat) : (pad width n).all isAscii = true := by
  rw [List.all_eq_true]
  intro c mem
  obtain ⟨d, inside, rfl⟩ := List.mem_map.1 mem
  exact isAscii_digitChar (mem_digits (by decide) inside)

theorem pad_digits {width n : Nat} {c : Char} (mem : c ∈ pad width n) : isDigit c = true := by
  have all : ∀ k < 10, isDigit (Nat.digitChar k) = true := by decide
  obtain ⟨d, inside, rfl⟩ := List.mem_map.1 mem
  exact all d (mem_digits (by decide) inside)

theorem write_ascii {shape : List (Nat × Char)} (ascii : shape.all (fun p => isAscii p.2) = true)
    (numbers : List Nat) : (write shape numbers).all isAscii = true := by
  induction shape generalizing numbers with
  | nil => rfl
  | cons p shape ih =>
    cases numbers with
    | nil => rfl
    | cons n numbers =>
      rw [List.all_cons, Bool.and_eq_true] at ascii
      simp only [write, List.all_append, List.all_cons, pad_ascii, ascii.1, ih ascii.2 numbers, Bool.and_true]

theorem text_ascii (c : Civil) : c.text.all isAscii = true := write_ascii (by decide) _

/-- The text of numbers that fit is read back in full. -/
theorem fields_write {decimal : Char → Bool} (digit : ∀ c, isDigit c = true → decimal c = true)
    (shape : List (Nat × Char)) (numbers : List Nat) (same : numbers.length = shape.length) :
    fields decimal shape (write shape numbers) = some (List.zipWith (fun p n => pad p.1 n) shape numbers) := by
  induction shape generalizing numbers with
  | nil =>
    cases numbers with
    | nil => rfl
    | cons n numbers => cases same
  | cons p shape ih =>
    cases numbers with
    | nil => cases same
    | cons n numbers =>
      obtain ⟨width, stop⟩ := p
      have length : (pad width n).length = width := by rw [pad, List.length_map, length_digits]
      have all : (pad width n).all decimal = true := List.all_eq_true.2 fun c mem => digit c (pad_digits mem)
      have rest := ih numbers (Nat.succ.inj same)
      rw [write, fields, List.drop_left' length]
      dsimp only
      rw [List.take_left' length, all, rest]
      simp

theorem fields_some {shape : List (Nat × Char)} {s : Str} {parts : List Str} (U : Decimals)
    (ascii : shape.all (fun p => isAscii p.2) = true) (read : fields U.isDecimal shape s = some parts) :
    write shape (parts.map U.number) = s.map U.fold ∧ parts.map List.length = shape.map Prod.fst := by
  induction shape generalizing s parts with
  | nil =>
    simp only [fields, List.isEmpty_iff] at read
    split at read
    · next empty =>
      obtain rfl := Option.some.inj read
      exact ⟨by rw [empty]; rfl, rfl⟩
    · cases read
  | cons p shape ih =>
    obtain ⟨width, stop⟩ := p
    rw [List.all_cons, Bool.and_eq_true] at ascii
    rw [fields] at read
    split at read
    · next c tail cut =>
      split at read
      · next good =>
        rw [Bool.and_eq_true, beq_iff_eq] at good
        obtain ⟨rest, inner, rfl⟩ := Option.map_eq_some_iff.1 read
        obtain ⟨written, lengths⟩ := ih ascii.2 inner
        have long : width < s.length := by
          have size := congrArg List.length cut
          rw [List.length_drop, List.length_cons] at size
          omega
        have length : (s.take width).length = width := by rw [List.length_take, Nat.min_eq_left long.le]
        have number := U.pad_number good.2
        rw [length] at number
        constructor
        · rw [List.map_cons, write, written, number]
          conv_rhs => rw [← List.take_append_drop width s, cut, good.1]
          rw [List.map_append, List.map_cons, U.fold_ascii ascii.1]
        · rw [List.map_cons, List.map_cons, lengths, length]
      · cases read
    · cases read

theorem withTime_timeOfDay {c : Civil} (valid : c.Valid) : c.withTime c.timeOfDay = c := by
  have hour := valid.hour
  have minute := valid.minute
  have second := valid.second
  have microsecond := valid.microsecond
  obtain ⟨year, month, day, h, m, s, f⟩ := c
  simp only [Civil.withTime, Civil.timeOfDay, Civil.mk.injEq, true_and] at hour minute second microsecond ⊢
  omega

theorem shift_zero {c : Civil} (valid : c.Valid) : Datetime.shift c 0 = some c := by
  have bound : (c.timeOfDay : Int) < Civil.dayMicroseconds := by
    have hour := valid.hour
    have minute := valid.minute
    have second := valid.second
    have microsecond := valid.microsecond
    simp only [Civil.timeOfDay, Civil.dayMicroseconds]
    omega
  rw [Datetime.shift, Int.sub_zero, if_neg (by omega), if_pos bound, Int.toNat_natCast, withTime_timeOfDay valid]

theorem stamp_inUtc {d : Datetime} {c : Civil} (shifted : d.inUtc = some c) : stamp d = .ok c.text := by
  obtain ⟨offset, aware, moved⟩ := Option.bind_eq_some_iff.1 shifted
  rw [stamp, aware]
  dsimp only
  rw [moved]

theorem inUtc_utc {c : Civil} (valid : c.Valid) : (Datetime.utc c valid).inUtc = some c := by
  rw [Datetime.inUtc, Datetime.utc, Option.bind_some, shift_zero valid]

/-! ## Moving to UTC -/

theorem timeOfDay_lt {c : Civil} (valid : c.Valid) : c.timeOfDay < Civil.dayMicroseconds := by
  have hour := valid.hour
  have minute := valid.minute
  have second := valid.second
  have microsecond := valid.microsecond
  simp only [Civil.timeOfDay, Civil.dayMicroseconds]
  omega

theorem withTime_valid {c : Civil} {t : Nat} (valid : c.Valid) (day : t < Civil.dayMicroseconds) :
    (c.withTime t).Valid := by
  rw [Civil.dayMicroseconds] at day
  refine ⟨valid.year, valid.month, valid.day, ?_, ?_, ?_, ?_⟩ <;> (simp only [Civil.withTime]; omega)

theorem daysInMonth_pos (year month : Nat) : 1 ≤ Civil.daysInMonth year month := by
  unfold Civil.daysInMonth
  split
  · split <;> decide
  · split <;> decide

theorem nextDay_valid {c d : Civil} (valid : c.Valid) (next : c.nextDay = some d) : d.Valid := by
  have year := valid.year
  have month := valid.month
  unfold Civil.nextDay at next
  split at next
  · next inside =>
    obtain rfl := Option.some.inj next
    exact { valid with day := ⟨by simp, inside⟩ }
  split at next
  · obtain rfl := Option.some.inj next
    exact { valid with month := ⟨by simp, by simp only; omega⟩, day := ⟨by simp, daysInMonth_pos _ _⟩ }
  split at next
  · obtain rfl := Option.some.inj next
    exact { valid with year := ⟨by simp, by simp only; omega⟩, month := ⟨by simp, by simp⟩,
                       day := ⟨by simp, daysInMonth_pos _ _⟩ }
  · cases next

theorem previousDay_valid {c d : Civil} (valid : c.Valid) (previous : c.previousDay = some d) : d.Valid := by
  have year := valid.year
  have month := valid.month
  have day := valid.day
  unfold Civil.previousDay at previous
  split at previous
  · obtain rfl := Option.some.inj previous
    exact { valid with day := ⟨by simp only; omega, by simp only; omega⟩ }
  split at previous
  · obtain rfl := Option.some.inj previous
    exact { valid with month := ⟨by simp only; omega, by simp only; omega⟩,
                       day := ⟨daysInMonth_pos _ _, Nat.le_refl _⟩ }
  split at previous
  · obtain rfl := Option.some.inj previous
    exact { valid with year := ⟨by simp only; omega, by simp only; omega⟩, month := ⟨by simp, by simp⟩,
                       day := ⟨by simp, by simp [Civil.daysInMonth]⟩ }
  · cases previous

/-- An offset under a day moves the date by a day at most. -/
theorem shift_valid {c u : Civil} {offset : Int} (valid : c.Valid) (near : offset.natAbs < Civil.dayMicroseconds)
    (shifted : Datetime.shift c offset = some u) : u.Valid := by
  have time := timeOfDay_lt valid
  unfold Datetime.shift at shifted
  dsimp only at shifted
  split at shifted
  · obtain ⟨d, day, rfl⟩ := Option.map_eq_some_iff.1 shifted
    exact withTime_valid (previousDay_valid valid day) (by omega)
  split at shifted
  · obtain rfl := Option.some.inj shifted
    exact withTime_valid valid (by omega)
  · obtain ⟨d, day, rfl⟩ := Option.map_eq_some_iff.1 shifted
    exact withTime_valid (nextDay_valid valid day) (by omega)

theorem inUtc_valid {d : Datetime} {c : Civil} (shifted : d.inUtc = some c) : c.Valid := by
  obtain ⟨offset, aware, moved⟩ := Option.bind_eq_some_iff.1 shifted
  exact shift_valid d.valid (d.near offset aware) moved

/-! ## Reading what was written -/

section Read

variable {decimal : Char → Bool} (digit : ∀ c, isDigit c = true → decimal c = true) {s : Str}
include digit

theorem dayText_mono (good : dayText isDigit s = true) : dayText decimal s = true := by
  unfold dayText at good ⊢
  split at good
  · grind
  · cases good

theorem hourText_mono (good : hourText isDigit s = true) : hourText decimal s = true := by
  unfold hourText at good ⊢
  split at good
  · grind
  · cases good

theorem minuteText_mono (good : minuteText isDigit s = true) : minuteText decimal s = true := by
  unfold minuteText at good ⊢
  split at good
  · grind
  · cases good

theorem secondText_mono (good : secondText isDigit s = true) : secondText decimal s = true := by
  unfold secondText at good ⊢
  split at good
  · grind
  · cases good

end Read

variable (U : Decimals)

/-- What was read is written again with ASCII digits. -/
theorem utc_ok {s : Str} {d : Datetime} (read : utc U s = .ok d) :
    ∃ c, ∃ valid : c.Valid, d = .utc c valid ∧ c.text = s.map U.fold := by
  rw [utc] at read
  split at read
  · next year month day hour minute second fraction found =>
    rw [seq_ok, require_ok] at read
    obtain ⟨-, read⟩ := read
    dsimp only at read
    split at read
    · next valid =>
      obtain rfl := Except.ok.inj read
      exact ⟨_, valid, rfl, (fields_some U (by decide) found).1⟩
    · cases read
  · cases read

theorem daysInMonth_le (year month : Nat) : Civil.daysInMonth year month ≤ 31 := by
  unfold Civil.daysInMonth
  split
  · split <;> decide
  · split <;> decide

/-- Every valid date is accepted in its own spelling. -/
theorem utc_text {c : Civil} (valid : c.Valid) : utc U c.text = .ok (.utc c valid) := by
  have digit : ∀ x, isDigit x = true → U.isDecimal x = true := fun x => U.isDecimal_of_isDigit
  have month : ∀ m < 13, 1 ≤ m → monthText (pad 2 m) = true := by decide
  have day : ∀ d < 32, 1 ≤ d → dayText isDigit (pad 2 d) = true := by decide
  have hour : ∀ h < 24, hourText isDigit (pad 2 h) = true := by decide
  have minute : ∀ m < 60, minuteText isDigit (pad 2 m) = true := by decide
  have second : ∀ t < 60, secondText isDigit (pad 2 t) = true := by decide
  have long := daysInMonth_le c.year c.month
  have months := valid.month
  have days := valid.day
  have years := valid.year
  have hours := valid.hour
  have minutes := valid.minute
  have seconds := valid.second
  have found : fields U.isDecimal shape c.text = some [pad 4 c.year, pad 2 c.month, pad 2 c.day, pad 2 c.hour,
      pad 2 c.minute, pad 2 c.second, pad 6 c.microsecond] := fields_write digit shape c.numbers rfl
  have same : (⟨U.number (pad 4 c.year), U.number (pad 2 c.month), U.number (pad 2 c.day), U.number (pad 2 c.hour),
      U.number (pad 2 c.minute), U.number (pad 2 c.second), U.number (pad 6 c.microsecond)⟩ : Civil) = c := by
    rw [U.number_pad (by omega), U.number_pad (by omega), U.number_pad (by omega), U.number_pad (by omega),
      U.number_pad (by omega), U.number_pad (by omega), U.number_pad valid.microsecond]
  rw [utc, found]
  dsimp only
  rw [seq_ok, require_ok]
  constructor
  · simp only [Bool.and_eq_true]
    exact ⟨⟨⟨⟨⟨month _ (by omega) months.1, dayText_mono digit (day _ (by omega) days.1)⟩,
      hourText_mono digit (hour _ hours)⟩, minuteText_mono digit (minute _ minutes)⟩,
      secondText_mono digit (second _ seconds)⟩, List.all_eq_true.2 fun x mem => pad_digits mem⟩
  · simp only [same, valid, dite_true]

theorem map_fold {s : Str} (ascii : s.all isAscii = true) : s.map U.fold = s := by
  refine (List.map_congr_left fun c mem => ?_).trans (List.map_id s)
  exact U.fold_ascii (List.all_eq_true.1 ascii c mem)

/-- **One spelling per instant, in ASCII.** -/
theorem one_spelling :
    (∀ s d, utc U s = .ok d → (stamp d = .ok s ↔ s.all isAscii = true)) ∧
      (∀ d c, Datetime.inUtc d = some c → ∃ s e, stamp d = .ok s ∧ utc U s = .ok e ∧ e.Same d) ∧
      ∀ s t d e, utc U s = .ok d → utc U t = .ok e → s.all isAscii = true → t.all isAscii = true →
        (d.Same e ↔ s = t) := by
  refine ⟨?_, ?_, ?_⟩
  · intro s d read
    obtain ⟨c, valid, rfl, text⟩ := utc_ok U read
    rw [stamp_inUtc (inUtc_utc valid), Except.ok.injEq]
    constructor
    · intro same
      rw [← same]
      exact text_ascii c
    · intro ascii
      rw [text]
      exact map_fold U ascii
  · intro d c shifted
    have valid := inUtc_valid shifted
    exact ⟨c.text, .utc c valid, stamp_inUtc shifted, utc_text U valid, c, inUtc_utc valid, shifted⟩
  · intro s t d e first second left right
    obtain ⟨c, valid, rfl, text⟩ := utc_ok U first
    obtain ⟨c', valid', rfl, text'⟩ := utc_ok U second
    rw [map_fold U left] at text
    rw [map_fold U right] at text'
    constructor
    · rintro ⟨u, one, two⟩
      rw [inUtc_utc] at one two
      rw [← text, ← text', Option.some.inj one, Option.some.inj two]
    · rintro rfl
      rw [first] at second
      rw [Except.ok.inj second]
      exact ⟨c', inUtc_utc valid', inUtc_utc valid'⟩

/-- The digits of ASCII and the Arabic-Indic ones. -/
private def arabicDecimal (c : Char) : Option Nat :=
  if isDigit c then some (c.toNat - 48)
  else if 0x660 ≤ c.toNat ∧ c.toNat ≤ 0x669 then some (c.toNat - 0x660)
  else none

private theorem arabicDecimal_ascii (c : Char) (ascii : isAscii c = true) :
    arabicDecimal c = if isDigit c then some (c.toNat - 48) else none := by
  simp only [isAscii, decide_eq_true_eq] at ascii
  unfold arabicDecimal
  split
  · rfl
  · exact if_neg (by omega)

private theorem arabicDecimal_small (c : Char) (d : Nat) (value : arabicDecimal c = some d) : d < 10 := by
  unfold arabicDecimal at value
  split at value
  · next digit =>
    simp only [isDigit, Bool.and_eq_true, decide_eq_true_eq] at digit
    have high : c.toNat ≤ 57 := digit.2
    have := Option.some.inj value
    omega
  · split at value
    · have := Option.some.inj value
      omega
    · cases value

private def arabicDigits : Decimals := ⟨arabicDecimal, arabicDecimal_ascii, arabicDecimal_small⟩

private def newYear : Datetime := .utc ⟨2026, 1, 1, 0, 0, 0, 0⟩ (by decide)

/-- The same instant, two hours east. -/
private def newYearEast : Datetime where
  civil := ⟨2026, 1, 1, 2, 0, 0, 0⟩
  valid := by decide
  offset := some 7200000000
  near := by
    intro o same
    rw [← Option.some.inj same]
    decide

theorem one_spelling_new_year :
    stamp newYear = .ok "2026-01-01T00:00:00.000000Z".toList ∧ newYear.Same newYear ∧
      ∃ s e, stamp newYearEast = .ok s ∧ utc arabicDigits s = .ok e ∧ e.Same newYearEast := by
  have read : utc arabicDigits "2026-01-01T00:00:00.000000Z".toList = .ok newYear := by rfl
  have law := one_spelling arabicDigits
  exact ⟨(law.1 _ _ read).2 (by decide), (law.2.2 _ _ _ _ read read (by decide) (by decide)).2 rfl,
    law.2.1 newYearEast ⟨2026, 1, 1, 0, 0, 0, 0⟩ (by decide)⟩

/-- A year in Arabic-Indic digits is accepted, and `stamp` does not give it back. -/
theorem foreign_digits_accepted :
    utc arabicDigits "٢٠٢٦-01-01T00:00:00.000000Z".toList = .ok newYear ∧
      utc arabicDigits "2026-01-01T00:00:00.000000Z".toList = .ok newYear ∧
      stamp newYear ≠ .ok "٢٠٢٦-01-01T00:00:00.000000Z".toList := by
  refine ⟨by rfl, by rfl, ?_⟩
  rw [newYear, stamp_inUtc (inUtc_utc _)]
  decide

end ApiSecurityPlatform.Ports
