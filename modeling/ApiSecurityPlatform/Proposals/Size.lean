/-
# Proposals.Size -- canonical bytes are the shortest

A value without floats has no text with fewer bytes than its canonical one: canonical text has
no white space, writes every character in its shortest form and every integer without what it
does not need.  A limit that raw bytes keep is kept by the canonical bytes of what they say.
-/
import ApiSecurityPlatform.Proposals.Canonical

namespace ApiSecurityPlatform.Python.Json

set_option autoImplicit false

variable {F : Type}

mutual

/-- No number is a float. -/
def Integral : Json F → Prop
  | .number (.float _) => False
  | .array items => IntegralItems items
  | .object members => IntegralMembers members
  | _ => True

def IntegralItems : List (Json F) → Prop
  | [] => True
  | v :: rest => v.Integral ∧ IntegralItems rest

def IntegralMembers : List (Str × Json F) → Prop
  | [] => True
  | (_, v) :: rest => v.Integral ∧ IntegralMembers rest

end

theorem integralItems_iff (items : List (Json F)) : IntegralItems items ↔ ∀ v ∈ items, v.Integral := by
  induction items with
  | nil => simp [IntegralItems]
  | cons v rest ih => simp [IntegralItems, ih]

theorem integralMembers_iff (members : List (Str × Json F)) :
    IntegralMembers members ↔ ∀ m ∈ members, m.2.Integral := by
  induction members with
  | nil => simp [IntegralMembers]
  | cons m rest ih => simp [IntegralMembers, ih]

end ApiSecurityPlatform.Python.Json

namespace ApiSecurityPlatform.Proposals

open ApiSecurityPlatform.Theory
open ApiSecurityPlatform.Python

set_option autoImplicit false

/-! ## Bytes of a text -/

/-- `len(text.encode('utf-8'))`. -/
def size (s : Str) : Nat := (utf8 s).length

@[simp]
theorem size_nil : size [] = 0 := rfl

@[simp]
theorem size_cons (c : Char) (s : Str) : size (c :: s) = c.utf8Size + size s := by
  rw [size, utf8, List.flatMap_cons, List.length_append, String.length_utf8EncodeChar]
  rfl

@[simp]
theorem size_append (a b : Str) : size (a ++ b) = size a + size b := by
  rw [size, utf8, List.flatMap_append, List.length_append]
  rfl

theorem length_le_size (s : Str) : s.length ≤ size s := by
  induction s with
  | nil => exact Nat.le_refl 0
  | cons c rest ih =>
      have one : 0 < c.utf8Size := c.utf8Size_pos
      rw [List.length_cons, size_cons]
      omega

theorem utf8Size_ascii {c : Char} (small : c.toNat < 128) : c.utf8Size = 1 := by
  unfold Char.utf8Size
  exact if_pos (show c.toNat ≤ 127 by omega)

theorem size_ascii {s : Str} (ascii : ∀ c ∈ s, c.toNat < 128) : size s = s.length := by
  induction s with
  | nil => rfl
  | cons c rest ih =>
      rw [size_cons, List.length_cons, utf8Size_ascii (ascii c List.mem_cons_self),
        ih fun d mem => ascii d (List.mem_cons_of_mem c mem), Nat.add_comm]

/-! ## Strings -/

theorem size_escapeChar_small {c : Char} (small : c.toNat < 93) : size (escapeChar c) ≤ 6 := by
  have all : ∀ n < 93, size (escapeChar (Char.ofNat n)) ≤ 6 := by decide
  have bound := all c.toNat small
  rwa [Char.ofNat_toNat] at bound

theorem size_escapeChar (c : Char) : size (escapeChar c) ≤ 6 := by
  by_cases small : c.toNat < 93
  · exact size_escapeChar_small small
  · rw [escapeChar_large (by omega), size_cons, size_nil]
    have four := c.utf8Size_le_four
    omega

/-- No character is written shorter. -/
theorem CharText.size {text : Str} {c : Char} (written : CharText text c) :
    Proposals.size (escapeChar c) ≤ Proposals.size text := by
  cases written with
  | plain _ printable quote slash =>
      have same : escapeChar c = [c] := by
        have other (d : Char) (control : d.toNat < 0x20) : c ≠ d := by
          rintro rfl
          omega
        rw [escapeChar, if_neg quote, if_neg slash, if_neg (other _ (by decide)), if_neg (other _ (by decide)),
          if_neg (other _ (by decide)), if_neg (other _ (by decide)), if_neg (other _ (by decide)),
          if_neg (by omega)]
      rw [same]
  | quote => decide
  | slash => decide
  | solidus => decide
  | backspace => decide
  | formFeed => decide
  | lineFeed => decide
  | carriageReturn => decide
  | tab => decide
  | @unicode a b c d n digits high low =>
      exact Nat.le_trans (size_escapeChar _) (length_le_size ['\\', 'u', a, b, c, d])
  | @pair a b c d a' b' c' d' n m digits digits' high low =>
      have long := length_le_size ['\\', 'u', a, b, c, d, '\\', 'u', a', b', c', d']
      exact Nat.le_trans (size_escapeChar _) (Nat.le_trans (by simp) long)

theorem CharsText.size {text s : Str} (written : CharsText text s) :
    Proposals.size (closeString s) ≤ Proposals.size text + 1 := by
  induction written with
  | nil => decide
  | cons first more ih =>
      have one := first.size
      rw [closeString, size_append, size_append]
      omega

theorem StringText.size {text s : Str} (written : StringText text s) :
    Proposals.size ('"' :: closeString s) ≤ Proposals.size text := by
  obtain ⟨inner, rfl, chars⟩ := written
  have bound := chars.size
  simp only [size_cons, size_append, size_nil]
  have quote : ('"' : Char).utf8Size = 1 := by decide
  omega

/-! ## Integers -/

theorem toInt_lt {s : Str} (digits : s.all isDigit = true) : toInt 10 s < 10 ^ s.length := by
  induction s using List.reverseRecOn with
  | nil => decide
  | append_singleton s c ih =>
      rw [List.all_append, Bool.and_eq_true] at digits
      have front := ih digits.1
      have last : (hexDigit? c).getD 0 < 10 := by
        have digit : isDigit c = true := by simpa using digits.2
        rw [isDigit, Bool.and_eq_true, decide_eq_true_eq, decide_eq_true_eq] at digit
        have low : 48 ≤ c.toNat := digit.1
        have high : c.toNat ≤ 57 := digit.2
        have all : ∀ n < 58, 48 ≤ n → (hexDigit? (Char.ofNat n)).getD 0 < 10 := by decide
        have value := all c.toNat (by omega) low
        rwa [Char.ofNat_toNat] at value
      rw [toInt_snoc, List.length_append, List.length_singleton, Nat.pow_succ]
      omega

/-- An integer is never written longer than it was read. -/
theorem NumberText.int_length {token : Str} (written : NumberText token) (whole : isFloatToken token = false) :
    (intToken (tokenInt token)).text.length ≤ token.length := by
  obtain ⟨sign, digits, fraction, exponent, rfl, signed, integer, fractional, exponential⟩ := written.parts
  have foreign : ∀ c ∈ sign ++ digits ++ fraction ++ exponent, (c == '.' || isExponent c) = false :=
    fun c mem => by
      have all := List.any_eq_false.1 whole c mem
      simpa using all
  have empty : fraction = [] := by
    rcases fractional with rfl | ⟨rest, rfl, -⟩
    · rfl
    · have point := foreign '.' (by simp)
      cases point
  have empty' : exponent = [] := by
    rcases exponential with rfl | ⟨e, sign', rest, rfl, letter, -⟩
    · rfl
    · have point := foreign e (by simp)
      rcases letter with rfl | rfl <;> cases point
  subst empty empty'
  simp only [List.append_nil]
  have all : digits.all isDigit = true := by
    rcases integer with rfl | ⟨⟨-, all⟩, -⟩
    · decide
    · exact all
  have some_ : 0 < digits.length := by
    rcases integer with rfl | ⟨⟨some_, -⟩, -⟩
    · decide
    · exact List.length_pos_of_ne_nil some_
  have short : (Nat.toDigits 10 (toInt 10 digits)).length ≤ digits.length :=
    (Nat.length_toDigits_le_iff (by decide) some_).2 (toInt_lt all)
  have unsigned : digits.head? ≠ some '-' := by
    intro head
    have digit := List.all_eq_true.1 all '-' (List.mem_of_mem_head? head)
    cases digit
  rw [Number.int_text]
  rcases signed with rfl | rfl
  · rw [List.nil_append, tokenInt, if_neg unsigned, if_neg (by omega), List.nil_append, Int.natAbs_natCast]
    exact short
  · rw [List.singleton_append, tokenInt, List.head?_cons, if_pos rfl, List.tail_cons, Int.natAbs_neg,
      Int.natAbs_natCast, List.length_append, List.length_cons]
    split
    · rw [List.length_singleton]
      omega
    · rw [List.length_nil]
      omega

/-! ## Values -/

section Values

variable {F : Type} (D : Floats F)

theorem size_literal {s : Str} (ascii : s.all (fun c => decide (c.toNat < 128)) = true) : size s = s.length :=
  size_ascii fun c mem => of_decide_eq_true (List.all_eq_true.1 ascii c mem)

mutual

/-- The bytes of the canonical text. -/
def canonicalSize : Json F → Nat
  | .null => 4
  | .bool true => 4
  | .bool false => 5
  | .number n => size (n.token D.toDoubles).text
  | .string s => 1 + size (closeString s)
  | .array items => if items.isEmpty then 2 else 1 + itemsSize items
  | .object members => if members.isEmpty then 2 else 1 + membersSize members

/-- Each item with the comma or the bracket behind it. -/
def itemsSize : List (Json F) → Nat
  | [] => 0
  | v :: rest => canonicalSize v + 1 + itemsSize rest

def membersSize : List (Str × Json F) → Nat
  | [] => 0
  | (key, v) :: rest => 1 + size (closeString key) + 1 + canonicalSize v + 1 + membersSize rest

end

mutual

theorem size_render (v : Json F) : size (v.render D.toDoubles) = canonicalSize D v := by
  cases v with
  | null => exact size_literal rfl
  | bool b => cases b <;> exact size_literal rfl
  | number n => rfl
  | string s => rw [Json.render, canonicalSize, size_cons, utf8Size_ascii (by decide)]
  | array items =>
      cases items with
      | nil => exact size_literal rfl
      | cons v rest =>
          rw [Json.render, canonicalSize, size_cons, size_append, size_closeArray rest, size_render v,
            List.isEmpty_cons, if_neg Bool.false_ne_true, itemsSize, utf8Size_ascii (by decide)]
          omega
  | object members =>
      cases members with
      | nil => exact size_literal rfl
      | cons m rest =>
          obtain ⟨key, v⟩ := m
          rw [Json.render, canonicalSize, size_cons, size_cons, size_append, size_cons, size_append, size_closeObject rest,
            size_render v, List.isEmpty_cons, if_neg Bool.false_ne_true, membersSize]
          simp only [utf8Size_ascii (show ('\x7b' : Char).toNat < 128 by decide),
            utf8Size_ascii (show ('"' : Char).toNat < 128 by decide),
            utf8Size_ascii (show (':' : Char).toNat < 128 by decide)]
          omega

theorem size_closeArray (items : List (Json F)) :
    size (Json.closeArray D.toDoubles items) = itemsSize D items + 1 := by
  cases items with
  | nil => exact size_literal rfl
  | cons v rest =>
      rw [Json.closeArray, size_cons, size_append, size_render v, size_closeArray rest, itemsSize,
        utf8Size_ascii (by decide)]
      omega

theorem size_closeObject (members : List (Str × Json F)) :
    size (Json.closeObject D.toDoubles members) = membersSize D members + 1 := by
  cases members with
  | nil => exact size_literal rfl
  | cons m rest =>
      obtain ⟨key, v⟩ := m
      rw [Json.closeObject, size_cons, size_cons, size_append, size_cons, size_append, size_render v,
        size_closeObject rest, membersSize]
      simp only [utf8Size_ascii (show (',' : Char).toNat < 128 by decide),
        utf8Size_ascii (show ('"' : Char).toNat < 128 by decide),
        utf8Size_ascii (show (':' : Char).toNat < 128 by decide)]
      omega

end

theorem itemsSize_eq (items : List (Json F)) :
    itemsSize D items = (items.map fun v => canonicalSize D v + 1).sum := by
  induction items with
  | nil => rfl
  | cons v rest ih => rw [itemsSize, ih, List.map_cons, List.sum_cons]

theorem membersSize_eq (members : List (Str × Json F)) :
    membersSize D members = (members.map fun m => 1 + size (closeString m.1) + 1 + canonicalSize D m.2 + 1).sum := by
  induction members with
  | nil => rfl
  | cons m rest ih =>
      obtain ⟨key, v⟩ := m
      rw [membersSize, ih, List.map_cons, List.sum_cons]

mutual

/-- Sorting moves members and changes nothing else. -/
theorem canonicalSize_sorted (v : Json F) : canonicalSize D v.sorted = canonicalSize D v := by
  cases v with
  | array items =>
      have empty : (Json.sortedItems items).isEmpty = items.isEmpty := by cases items <;> rfl
      rw [Json.sorted, canonicalSize, canonicalSize, itemsSize_sorted items, empty]
  | object members =>
      have perm := List.perm_insertionSort Json.keyLe (Json.sortedMembers members)
      have empty : ((Json.sortedMembers members).insertionSort Json.keyLe).isEmpty = members.isEmpty := by
        have same := perm.isEmpty_eq
        rw [same]
        cases members <;> rfl
      have total : membersSize D ((Json.sortedMembers members).insertionSort Json.keyLe) = membersSize D members := by
        rw [← membersSize_sorted members, membersSize_eq, membersSize_eq]
        exact (perm.map _).sum_nat
      rw [Json.sorted, canonicalSize, canonicalSize, total, empty]
  | null => rfl
  | bool b => rfl
  | number n => rfl
  | string s => rfl

theorem itemsSize_sorted (items : List (Json F)) : itemsSize D (Json.sortedItems items) = itemsSize D items := by
  cases items with
  | nil => rfl
  | cons v rest => rw [Json.sortedItems, itemsSize, itemsSize, canonicalSize_sorted v, itemsSize_sorted rest]

theorem membersSize_sorted (members : List (Str × Json F)) :
    membersSize D (Json.sortedMembers members) = membersSize D members := by
  cases members with
  | nil => rfl
  | cons m rest =>
      obtain ⟨key, v⟩ := m
      rw [Json.sortedMembers, membersSize, membersSize, canonicalSize_sorted v, membersSize_sorted rest]

end

theorem canonical_length (v : Json F) : (canonical D v).length = canonicalSize D v := by
  rw [← canonicalSize_sorted, ← size_render]
  rfl

/-! ## No text is shorter -/

mutual

theorem ValueText.size (v : Json F) {text : Str} (written : ValueText D text v) (integral : v.Integral) :
    canonicalSize D v ≤ Proposals.size text := by
  cases v with
  | null => cases written; exact (size_literal (s := "null".toList) rfl).ge
  | bool b =>
      cases written with
      | true_ => exact (size_literal (s := "true".toList) rfl).ge
      | false_ => exact (size_literal (s := "false".toList) rfl).ge
  | number n =>
      cases written with
      | number shape short value =>
          cases value with
          | int whole =>
              have ascii : ∀ c ∈ (intToken (tokenInt text)).text, c.toNat < 128 := by
                intro c mem
                have char := Number.text_chars ((Number.int (tokenInt text)).token_wellFormed D.toDoubles) c mem
                simp only [Number.isChar, isDigit, Bool.or_eq_true, Bool.and_eq_true, decide_eq_true_eq, beq_iff_eq] at char
                rcases char with (((⟨-, high⟩ | rfl) | rfl) | rfl) | rfl
                · have small : c.toNat ≤ 57 := high
                  omega
                · decide
                · decide
                · decide
                · decide
              show Proposals.size (intToken (tokenInt text)).text ≤ _
              rw [size_ascii ascii]
              exact Nat.le_trans (shape.int_length whole) (length_le_size text)
          | float parts finite => exact integral.elim
  | string s =>
      cases written with
      | string quoted =>
          have bound := quoted.size
          rw [size_cons, utf8Size_ascii (by decide)] at bound
          exact bound
  | array items =>
      cases written with
      | @emptyArray ws space => 
          show 2 ≤ _
          rw [size_cons, size_append, size_literal (s := [']']) rfl, utf8Size_ascii (by decide), List.length_singleton]
          omega
      | @array text _ inner =>
          have bound := ItemsText.size items inner integral
          have some_ : items.isEmpty = false := by cases inner <;> rfl
          rw [canonicalSize, some_, if_neg Bool.false_ne_true, size_cons, utf8Size_ascii (by decide)]
          omega
  | object members =>
      cases written with
      | @emptyObject ws space =>
          show 2 ≤ _
          rw [size_cons, size_append, size_literal (s := ['\x7d']) rfl, utf8Size_ascii (by decide), List.length_singleton]
          omega
      | @object text _ inner =>
          have bound := MembersText.size members inner integral
          have some_ : members.isEmpty = false := by cases inner <;> rfl
          rw [canonicalSize, some_, if_neg Bool.false_ne_true, size_cons, utf8Size_ascii (by decide)]
          omega

theorem ItemsText.size (items : List (Json F)) {text : Str} (written : ItemsText D text items)
    (integral : Json.IntegralItems items) : itemsSize D items ≤ Proposals.size text := by
  cases items with
  | nil => cases written
  | cons v rest =>
      cases written with
      | last space value space' =>
          have bound := ValueText.size v value integral.1
          rw [itemsSize, itemsSize]
          simp only [size_append, size_literal (s := [']']) rfl, List.length_singleton]
          omega
      | more space value space' others =>
          have bound := ValueText.size v value integral.1
          have bound' := ItemsText.size rest others integral.2
          rw [itemsSize]
          simp only [size_append, size_cons, utf8Size_ascii (show (',' : Char).toNat < 128 by decide)]
          omega

theorem MembersText.size (members : List (Str × Json F)) {text : Str} (written : MembersText D text members)
    (integral : Json.IntegralMembers members) : membersSize D members ≤ Proposals.size text := by
  cases members with
  | nil => cases written
  | cons m rest =>
      obtain ⟨key, v⟩ := m
      have colon := utf8Size_ascii (show (':' : Char).toNat < 128 by decide)
      have comma := utf8Size_ascii (show (',' : Char).toNat < 128 by decide)
      have quote := utf8Size_ascii (show ('"' : Char).toNat < 128 by decide)
      cases written with
      | last space named space' space'' value space''' =>
          have name := named.size
          have bound := ValueText.size v value integral.1
          rw [size_cons, quote] at name
          rw [membersSize, membersSize]
          simp only [size_append, size_cons, colon, size_literal (s := ['\x7d']) rfl, List.length_singleton]
          omega
      | more space named space' space'' value space''' others =>
          have name := named.size
          have bound := ValueText.size v value integral.1
          have bound' := MembersText.size rest others integral.2
          rw [size_cons, quote] at name
          rw [membersSize]
          simp only [size_append, size_cons, colon, comma]
          omega

end

/-- **The canonical bytes of an accepted value are no more than the bytes it was read from.** -/
theorem canonical_shortest {limits : Limits} {raw : Bytes} {v : Json F} (accepted : Bounded D limits raw v)
    (integral : v.Integral) : (canonical D v).length ≤ raw.length := by
  obtain ⟨before, text, after, rfl, -, -, written⟩ := accepted.text
  have bound := ValueText.size D v written integral
  rw [canonical_length]
  show _ ≤ Proposals.size (before ++ text ++ after)
  rw [size_append, size_append]
  omega

mutual

/-- What was read has no integer too long to be read. -/
theorem ValueText.short (v : Json F) {text : Str} (written : ValueText D text v) : v.Short := by
  cases v with
  | null => trivial
  | bool b => trivial
  | number n =>
      cases written with
      | number shape short value =>
          cases value with
          | int whole => exact Nat.le_trans (shape.int_length whole) short
          | float parts finite => trivial
  | string s => trivial
  | array items =>
      cases written with
      | emptyArray => trivial
      | array inner => exact ItemsText.short items inner
  | object members =>
      cases written with
      | emptyObject => trivial
      | object inner => exact MembersText.short members inner

theorem ItemsText.short (items : List (Json F)) {text : Str} (written : ItemsText D text items) :
    Json.ShortItems items := by
  cases items with
  | nil => trivial
  | cons v rest =>
      cases written with
      | last space value space' => exact ⟨ValueText.short v value, trivial⟩
      | more space value space' others => exact ⟨ValueText.short v value, ItemsText.short rest others⟩

theorem MembersText.short (members : List (Str × Json F)) {text : Str} (written : MembersText D text members) :
    Json.ShortMembers members := by
  cases members with
  | nil => trivial
  | cons m rest =>
      cases written with
      | last space named space' space'' value space''' => exact ⟨ValueText.short _ value, trivial⟩
      | more space named space' space'' value space''' others =>
          exact ⟨ValueText.short _ value, MembersText.short rest others⟩

end

/-- **What was read is read again from its canonical bytes, under the same limits.** -/
theorem Bounded.canonical {limits : Limits} {raw : Bytes} {v : Json F} (accepted : Bounded D limits raw v)
    (integral : v.Integral) : Bounded D limits (Proposals.canonical D v) v.sorted := by
  obtain ⟨before, text, after, -, -, -, written⟩ := accepted.text
  have size := Nat.le_trans (canonical_shortest D accepted integral) accepted.size
  exact (boundedJson_iff D limits .outputLimit).1 (boundedJson_canonical D limits .outputLimit v accepted.object
    accepted.distinct (ValueText.short D v written) size accepted.height accepted.values)

end Values

end ApiSecurityPlatform.Proposals
