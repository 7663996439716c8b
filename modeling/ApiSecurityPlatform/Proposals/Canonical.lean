/-
# Proposals.Canonical -- canonical bytes are read back

`canonical` writes no white space, escapes only what it must and sorts the members of every
object.  Its text has a derivation (`render_text`), so within the limits the value comes back
from its canonical bytes, member order apart (`boundedJson_canonical`).  The one thing a value
can have that its bytes cannot carry is an integer of more than 64 characters (`Short`).
-/
import ApiSecurityPlatform.Proposals.BoundedJson

namespace ApiSecurityPlatform.Python.Json

set_option autoImplicit false

variable {F : Type}

mutual

/-- No integer has more than 64 characters. -/
def Short : Json F → Prop
  | .number (.int n) => (intToken n).text.length ≤ 64
  | .array items => ShortItems items
  | .object members => ShortMembers members
  | _ => True

def ShortItems : List (Json F) → Prop
  | [] => True
  | v :: rest => v.Short ∧ ShortItems rest

def ShortMembers : List (Str × Json F) → Prop
  | [] => True
  | (_, v) :: rest => v.Short ∧ ShortMembers rest

end

theorem shortMembers_iff (members : List (Str × Json F)) : ShortMembers members ↔ ∀ m ∈ members, m.2.Short := by
  induction members with
  | nil => simp [ShortMembers]
  | cons m rest ih => simp [ShortMembers, ih]

theorem membersHeight_le_iff (members : List (Str × Json F)) (n : Nat) :
    membersHeight members ≤ n ↔ ∀ m ∈ members, m.2.height + 1 ≤ n := by
  induction members with
  | nil => simp [membersHeight]
  | cons m rest ih => simp [membersHeight, ih]

theorem membersValues_eq (members : List (Str × Json F)) :
    membersValues members = (members.map fun m => m.2.values).sum := by
  induction members with
  | nil => rfl
  | cons m rest ih => rw [membersValues, ih, List.map_cons, List.sum_cons]

mutual

theorem sorted_short (v : Json F) (short : v.Short) : v.sorted.Short := by
  cases v with
  | array items => exact sortedItems_short items short
  | object members =>
      refine (shortMembers_iff _).2 fun m mem => ?_
      exact (shortMembers_iff _).1 (sortedMembers_short members short) m ((List.mem_insertionSort _).1 mem)
  | null => trivial
  | bool b => trivial
  | number n => exact short
  | string s => trivial

theorem sortedItems_short (items : List (Json F)) (short : ShortItems items) : ShortItems (sortedItems items) := by
  cases items with
  | nil => trivial
  | cons v rest => exact ⟨sorted_short v short.1, sortedItems_short rest short.2⟩

theorem sortedMembers_short (members : List (Str × Json F)) (short : ShortMembers members) :
    ShortMembers (sortedMembers members) := by
  cases members with
  | nil => trivial
  | cons m rest => exact ⟨sorted_short m.2 short.1, sortedMembers_short rest short.2⟩

end

mutual

theorem sorted_height (v : Json F) : v.sorted.height = v.height := by
  cases v with
  | array items => exact sortedItems_height items
  | object members =>
      show membersHeight ((sortedMembers members).insertionSort keyLe) = membersHeight members
      refine Eq.trans ?_ (sortedMembers_height members)
      refine le_antisymm ?_ ?_
      · rw [membersHeight_le_iff]
        intro m mem
        exact (membersHeight_le_iff _ _).1 le_rfl m ((List.mem_insertionSort _).1 mem)
      · rw [membersHeight_le_iff]
        intro m mem
        exact (membersHeight_le_iff _ _).1 le_rfl m ((List.mem_insertionSort _).2 mem)
  | null => rfl
  | bool b => rfl
  | number n => rfl
  | string s => rfl

theorem sortedItems_height (items : List (Json F)) : itemsHeight (sortedItems items) = itemsHeight items := by
  cases items with
  | nil => rfl
  | cons v rest => rw [sortedItems, itemsHeight, itemsHeight, sorted_height v, sortedItems_height rest]

theorem sortedMembers_height (members : List (Str × Json F)) :
    membersHeight (sortedMembers members) = membersHeight members := by
  cases members with
  | nil => rfl
  | cons m rest =>
      obtain ⟨key, v⟩ := m
      rw [sortedMembers, membersHeight, membersHeight, sorted_height v, sortedMembers_height rest]

end

mutual

theorem sorted_values (v : Json F) : v.sorted.values = v.values := by
  cases v with
  | array items => exact congrArg (1 + ·) (sortedItems_values items)
  | object members =>
      show 1 + membersValues ((sortedMembers members).insertionSort keyLe) = 1 + membersValues members
      rw [← sortedMembers_values members, membersValues_eq, membersValues_eq]
      exact congrArg (1 + ·) (((List.perm_insertionSort keyLe _).map _).sum_nat)
  | null => rfl
  | bool b => rfl
  | number n => rfl
  | string s => rfl

theorem sortedItems_values (items : List (Json F)) : itemsValues (sortedItems items) = itemsValues items := by
  cases items with
  | nil => rfl
  | cons v rest => rw [sortedItems, itemsValues, itemsValues, sorted_values v, sortedItems_values rest]

theorem sortedMembers_values (members : List (Str × Json F)) :
    membersValues (sortedMembers members) = membersValues members := by
  cases members with
  | nil => rfl
  | cons m rest =>
      obtain ⟨key, v⟩ := m
      rw [sortedMembers, membersValues, membersValues, sorted_values v, sortedMembers_values rest]

end

end ApiSecurityPlatform.Python.Json

namespace ApiSecurityPlatform.Proposals

open ApiSecurityPlatform.Theory
open ApiSecurityPlatform.Python

set_option autoImplicit false

/-! ## Strings -/

theorem escapeChar_text (c : Char) : CharText (escapeChar c) c := by
  unfold escapeChar
  split
  · next same => exact same ▸ .quote
  split
  · next same => exact same ▸ .slash
  split
  · next same => exact same ▸ .lineFeed
  split
  · next same => exact same ▸ .carriageReturn
  split
  · next same => exact same ▸ .tab
  split
  · next same => exact same ▸ .formFeed
  split
  · next same => exact same ▸ .backspace
  split
  · next control =>
    have digits : hex4 ['0', '0', Nat.digitChar (c.toNat / 16), Nat.digitChar (c.toNat % 16)] = some c.toNat := by
      have high : hexDigit? (Nat.digitChar (c.toNat / 16)) = some (c.toNat / 16) := hexDigit?_digitChar (by omega)
      have low : hexDigit? (Nat.digitChar (c.toNat % 16)) = some (c.toNat % 16) := hexDigit?_digitChar (by omega)
      have zero : hexDigit? '0' = some 0 := rfl
      simp only [hex4, high, low, zero, Option.some.injEq]
      omega
    have written := CharText.unicode digits (toNat_not_surrogate c).1 (toNat_not_surrogate c).2
    rwa [Char.ofNat_toNat] at written
  · next quote slash _ _ _ _ _ printable => exact .plain c (by omega) quote slash

theorem closeString_text (s : Str) : ∃ inner, closeString s = inner ++ ['"'] ∧ CharsText inner s := by
  induction s with
  | nil => exact ⟨[], rfl, .nil⟩
  | cons c rest ih =>
      obtain ⟨inner, text, chars⟩ := ih
      exact ⟨escapeChar c ++ inner, by rw [closeString, text, List.append_assoc], .cons (escapeChar_text c) chars⟩

theorem quoted_text (s : Str) : StringText ('"' :: closeString s) s := by
  obtain ⟨inner, text, chars⟩ := closeString_text s
  exact ⟨inner, by rw [text], chars⟩

/-! ## Numbers -/

theorem toDigits_head {n : Nat} (positive : 0 < n) : (Nat.toDigits 10 n).head? ≠ some '0' := by
  induction n using Nat.strong_induction_on with
  | _ n ih =>
      by_cases small : n < 10
      · rw [Nat.toDigits_of_lt_base small]
        have each : ∀ k < 10, 0 < k → [Nat.digitChar k].head? ≠ some '0' := by decide
        exact each n small positive
      · rw [Nat.toDigits_of_base_le (by decide) (by omega)]
        have front := ih (n / 10) (by omega) (by omega)
        obtain ⟨c, rest, shape⟩ := List.exists_cons_of_ne_nil (Nat.toDigits_ne_nil (n := n / 10) (b := 10))
        rw [shape] at front ⊢
        exact front

theorem toDigits_int (n : Nat) : IntText (Nat.toDigits 10 n) := by
  rcases Nat.eq_zero_or_pos n with rfl | positive
  · exact .inl rfl
  · exact .inr ⟨⟨Nat.toDigits_ne_nil, all_toDigits n⟩, toDigits_head positive⟩

theorem exponentText_text (e : Int) : ExponentText ('e' :: exponentText e) := by
  refine .inr ⟨'e', [if e < 0 then '-' else '+'],
    if e.natAbs < 10 then '0' :: Nat.toDigits 10 e.natAbs else Nat.toDigits 10 e.natAbs, rfl, .inl rfl, ?_, ?_⟩
  · split
    · exact .inr (.inr rfl)
    · exact .inr (.inl rfl)
  · split
    · refine ⟨List.cons_ne_nil _ _, ?_⟩
      rw [List.all_cons, all_toDigits]
      rfl
    · exact ⟨Nat.toDigits_ne_nil, all_toDigits _⟩

/-- A token without leading zeros is a number of the grammar. -/
theorem token_text {t : Token} (wellFormed : t.WellFormed) (leading : IntText t.whole) : NumberText t.text := by
  refine ⟨⟨if t.neg then ['-'] else [], t.whole, if t.fraction = [] then [] else '.' :: t.fraction,
    t.exponent.elim [] fun e => 'e' :: exponentText e, rfl, ?_, leading, ?_, ?_⟩⟩
  · split
    · exact .inr rfl
    · exact .inl rfl
  · split
    · exact .inl rfl
    · next some_ => exact .inr ⟨t.fraction, rfl, some_, wellFormed.fraction⟩
  · cases t.exponent with
    | none => exact .inl rfl
    | some e => exact exponentText_text e

theorem repr_leading {d : Decimal} (shortest : d.Shortest) : IntText d.repr.whole := by
  have digits (n : Nat) : (d.digits.take n).all isDigit = true :=
    List.all_eq_true.2 fun c mem => List.all_eq_true.1 shortest.digits c (List.mem_of_mem_take mem)
  obtain ⟨c, rest, shape⟩ := List.exists_cons_of_ne_nil shortest.some_
  -- the first digits of a float that is not zero
  have taken {n : Nat} (some_ : 0 < n) (other : d.digits.head? ≠ some '0') : IntText (d.digits.take n) := by
    obtain ⟨n, rfl⟩ : ∃ k, n = k + 1 := ⟨n - 1, by omega⟩
    refine .inr ⟨⟨?_, digits _⟩, ?_⟩
    · rw [shape]
      exact List.cons_ne_nil _ _
    · rw [shape] at other ⊢
      exact other
  unfold Decimal.repr
  split
  · split
    · exact .inl rfl
    · split
      · next long =>
        rcases shortest.leading with ⟨zero, point⟩ | other
        · left
          rw [zero, point]
          rfl
        · refine .inr ⟨⟨by rw [shape]; exact List.cons_ne_nil _ _, ?_⟩, ?_⟩
          · rw [List.all_append, shortest.digits]
            simp [isDigit]
          · rw [shape] at other ⊢
            exact other
      · next long =>
        rcases shortest.leading with ⟨zero, point⟩ | other
        · rw [zero, point] at long
          exact absurd (by decide) long
        · exact taken (by omega) other
  · next range =>
    rcases shortest.leading with ⟨-, point⟩ | other
    · rw [point] at range
      exact absurd (by decide) range
    · exact taken Nat.one_pos other

theorem intToken_value (n : Int) :
    isFloatToken (intToken n).text = false ∧ tokenInt (intToken n).text = n := by
  have digit {c : Char} {k : Nat} (foreign : isDigit c = false) : c ∉ Nat.toDigits 10 k := Number.digits_foreign foreign
  have value := toInt_toDigits (by decide : 2 ≤ 10) (by decide) n.natAbs
  rw [Number.int_text]
  constructor
  · rw [isFloatToken, List.any_eq_false]
    intro c mem
    have other : c ≠ '.' ∧ c ≠ 'e' ∧ c ≠ 'E' := by
      rcases List.mem_append.1 mem with sign | inDigits
      · split at sign
        · rw [List.mem_singleton.1 sign]
          decide
        · cases sign
      · exact ⟨fun same => digit rfl (same ▸ inDigits), fun same => digit rfl (same ▸ inDigits),
          fun same => digit rfl (same ▸ inDigits)⟩
    simp [isExponent, other.1, other.2.1, other.2.2]
  · unfold tokenInt
    by_cases negative : n < 0
    · rw [if_pos negative]
      show (if some '-' = some '-' then -(toInt 10 (Nat.toDigits 10 n.natAbs) : Int) else _) = n
      rw [if_pos rfl, value]
      omega
    · rw [if_neg negative, List.nil_append]
      have unsigned : (Nat.toDigits 10 n.natAbs).head? ≠ some '-' := fun head =>
        digit rfl (List.mem_of_mem_head? head)
      rw [if_neg unsigned, value]
      omega

section Values

variable {F : Type} (D : Floats F)

theorem floatToken_float (x : F) : isFloatToken (D.decimal x).repr.text = true := by
  rw [isFloatToken, List.any_eq_true]
  rcases Number.mem_text_of_float (Decimal.repr_integral (D.shortest x)) with point | exponent
  · exact ⟨'.', point, rfl⟩
  · exact ⟨'e', exponent, rfl⟩

/-- A number is read back from its text. -/
theorem number_text (n : Number F) (short : (Json.number n).Short) :
    ValueText D (n.token D.toDoubles).text (.number n) := by
  cases n with
  | int n =>
      obtain ⟨whole, value⟩ := intToken_value n
      have written : NumberValue D (intToken n).text (.int (tokenInt (intToken n).text)) := .int whole
      rw [value] at written
      exact .number (token_text ((Number.int n).token_wellFormed D.toDoubles) (toDigits_int _)) short written
  | float x =>
      have shortest := D.shortest x
      have written : NumberValue D (D.decimal x).repr.text (.float (D.ofText (D.decimal x).repr.text)) :=
        .float (floatToken_float D x) (D.finite_repr x)
      have read : D.ofText (D.decimal x).repr.text = x :=
        D.reads x _ (Decimal.repr_wellFormed shortest) (Decimal.repr_neg _) rfl
      rw [read] at written
      exact .number (token_text (Decimal.repr_wellFormed shortest) (repr_leading shortest))
        (Nat.le_trans (D.short x) (by decide)) written

/-! ## Values -/

theorem Whitespace.nil : Whitespace [] := fun _ mem => by cases mem

mutual

/-- **Canonical text has a derivation.** -/
theorem render_text (v : Json F) (short : v.Short) : ValueText D (v.render D.toDoubles) v := by
  cases v with
  | null => exact .null
  | bool b => cases b; exacts [.false_, .true_]
  | number n => exact number_text D n short
  | string s => exact .string (quoted_text s)
  | array items =>
      cases shape : items with
      | nil => exact .emptyArray .nil
      | cons v rest => exact .array (items_text items short shape)
  | object members =>
      cases shape : members with
      | nil => exact .emptyObject .nil
      | cons m rest => exact .object (members_text members short shape)

theorem items_text (items : List (Json F)) (short : Json.ShortItems items) {v : Json F} {rest : List (Json F)}
    (shape : items = v :: rest) :
    ItemsText D (v.render D.toDoubles ++ Json.closeArray D.toDoubles rest) (v :: rest) := by
  cases items with
  | nil => cases shape
  | cons w more =>
      obtain ⟨rfl, rfl⟩ := List.cons.inj shape
      have value := render_text w short.1
      cases others : more with
      | nil =>
          have written := ItemsText.last .nil value .nil
          rwa [List.nil_append, List.append_nil] at written
      | cons w' more' =>
          have written := ItemsText.more .nil value .nil (items_text more short.2 others)
          rwa [List.nil_append, List.append_nil] at written

theorem members_text (members : List (Str × Json F)) (short : Json.ShortMembers members) {key : Str} {v : Json F}
    {rest : List (Str × Json F)} (shape : members = (key, v) :: rest) :
    MembersText D ('"' :: (closeString key ++ ':' :: (v.render D.toDoubles ++ Json.closeObject D.toDoubles rest)))
      ((key, v) :: rest) := by
  cases members with
  | nil => cases shape
  | cons m more =>
      obtain ⟨rfl, rfl⟩ := List.cons.inj shape
      have value := render_text v short.1
      cases others : more with
      | nil =>
          have written := MembersText.last .nil (quoted_text key) .nil .nil value .nil
          simpa only [List.nil_append, List.append_nil, List.cons_append, Json.closeObject] using written
      | cons m' more' =>
          obtain ⟨key', w⟩ := m'
          have written := MembersText.more .nil (quoted_text key) .nil .nil value .nil
            (members_text more short.2 others)
          simpa only [List.nil_append, List.append_nil, List.cons_append, Json.closeObject] using written

end

/-- **A value comes back from its canonical bytes.** -/
theorem boundedJson_canonical (limits : Limits) (limitCode : Code) (v : Json F) (object : isObject v = true)
    (distinct : v.Distinct) (short : v.Short) (size : (canonical D v).length ≤ limits.maximum)
    (height : v.height ≤ limits.depth) (values : v.values ≤ limits.nodes) :
    boundedJson D limits limitCode (canonical D v) = .ok v.sorted := by
  rw [boundedJson_iff]
  refine ⟨size, ⟨[], v.sorted.render D.toDoubles, [], ?_, .nil, .nil, render_text D _ (Json.sorted_short v short)⟩, ?_,
    Json.sorted_distinct v distinct, ?_, ?_⟩
  · rw [List.nil_append, List.append_nil]
    rfl
  · cases v <;> cases object
    rfl
  · rwa [Json.sorted_height]
  · rwa [Json.sorted_values]

/-- **Bounded JSON is exactly JSON within the limits**, and every value within them comes back
from its canonical bytes, with the members of its objects sorted. -/
theorem bounded_json_exact (limits : Limits) (limitCode : Code) :
    (∀ raw v, boundedJson D limits limitCode raw = .ok v ↔ Bounded D limits raw v) ∧
      (∀ raw, (∃ v, boundedJson D limits limitCode raw = .ok v) ∨
        ∃ code, boundedJson D limits limitCode raw = .error (.rejected code)) ∧
      ∀ v : Json F, isObject v = true → v.Distinct → v.Short → (canonical D v).length ≤ limits.maximum →
        v.height ≤ limits.depth → v.values ≤ limits.nodes →
        boundedJson D limits limitCode (canonical D v) = .ok v.sorted :=
  ⟨fun _ _ => boundedJson_iff D limits limitCode, boundedJson_ends D limits limitCode,
    boundedJson_canonical D limits limitCode⟩

end Values

section Poles

/-- `{"b": null, "a": [-7, 0.5]}`, from the bytes `{"a":[-7,0.5],"b":null}`. -/
theorem bounded_json_exact_pair :
    boundedJson halfFloats ⟨32, 2, 5⟩ .outputLimit (canonical halfFloats
      (.object [(['b'], .null), (['a'], .array [.number (.int (-7)), .number (.float ())])])) =
    .ok (.object [(['a'], .array [.number (.int (-7)), .number (.float ())]), (['b'], .null)]) :=
  (bounded_json_exact halfFloats ⟨32, 2, 5⟩ .outputLimit).2.2 _ rfl
    (by simp [Json.Distinct, Json.DistinctMembers, Json.DistinctItems])
    ⟨trivial, ⟨by show _ ≤ _; decide, trivial, trivial⟩, trivial⟩ (by decide +kernel) (by decide) (by decide)

end Poles

end ApiSecurityPlatform.Proposals
