/-
# Proposals.Reading -- canonical bytes say one thing

What a canonical text is read as is the value it was written from (`value_unique`), whatever
the limits of the one who reads.  So canonical bytes are accepted exactly when the value is
within the limits (`bounded_canonical_iff`).
-/
import ApiSecurityPlatform.Proposals.Size

namespace ApiSecurityPlatform.Python.Json

set_option autoImplicit false

variable {F : Type}

mutual

theorem distinct_of_sorted (v : Json F) (distinct : v.sorted.Distinct) : v.Distinct := by
  cases v with
  | array items => exact distinctItems_of_sorted items distinct
  | object members =>
      have perm := List.perm_insertionSort keyLe (sortedMembers members)
      constructor
      · rw [← sortedMembers_keys]
        exact (perm.map Prod.fst).nodup_iff.1 distinct.1
      · refine distinctMembers_of_sorted members ((distinctMembers_iff _).2 fun m mem => ?_)
        exact (distinctMembers_iff _).1 distinct.2 m (perm.symm.subset mem)
  | null => trivial
  | bool b => trivial
  | number n => trivial
  | string s => trivial

theorem distinctItems_of_sorted (items : List (Json F)) (distinct : DistinctItems (sortedItems items)) :
    DistinctItems items := by
  cases items with
  | nil => trivial
  | cons v rest => exact ⟨distinct_of_sorted v distinct.1, distinctItems_of_sorted rest distinct.2⟩

theorem distinctMembers_of_sorted (members : List (Str × Json F)) (distinct : DistinctMembers (sortedMembers members)) :
    DistinctMembers members := by
  cases members with
  | nil => trivial
  | cons m rest => exact ⟨distinct_of_sorted m.2 distinct.1, distinctMembers_of_sorted rest distinct.2⟩

end

mutual

theorem short_of_sorted (v : Json F) (short : v.sorted.Short) : v.Short := by
  cases v with
  | array items => exact shortItems_of_sorted items short
  | object members =>
      have perm := List.perm_insertionSort keyLe (sortedMembers members)
      refine shortMembers_of_sorted members ((shortMembers_iff _).2 fun m mem => ?_)
      exact (shortMembers_iff _).1 short m (perm.symm.subset mem)
  | null => trivial
  | bool b => trivial
  | number n => exact short
  | string s => trivial

theorem shortItems_of_sorted (items : List (Json F)) (short : ShortItems (sortedItems items)) : ShortItems items := by
  cases items with
  | nil => trivial
  | cons v rest => exact ⟨short_of_sorted v short.1, shortItems_of_sorted rest short.2⟩

theorem shortMembers_of_sorted (members : List (Str × Json F)) (short : ShortMembers (sortedMembers members)) :
    ShortMembers members := by
  cases members with
  | nil => trivial
  | cons m rest => exact ⟨short_of_sorted m.2 short.1, shortMembers_of_sorted rest short.2⟩

end

end ApiSecurityPlatform.Python.Json

namespace ApiSecurityPlatform.Proposals

open ApiSecurityPlatform.Theory
open ApiSecurityPlatform.Python

set_option autoImplicit false

theorem utf8_injective {s t : Str} (same : utf8 s = utf8 t) : s = t := by
  have first : decodeStrict (utf8 s) = some s := decodeStrict_iff.2 rfl
  rw [same, decodeStrict_iff.2 rfl] at first
  exact (Option.some.inj first).symm

/-- White space before a character that is none. -/
theorem space_unique {ws x y : Str} {c d : Char} (space : Whitespace ws) (same : ws ++ c :: x = d :: y)
    (solid : isWhitespace d = false) : ws = [] ∧ c = d ∧ x = y := by
  cases ws with
  | nil => exact ⟨rfl, (List.cons.inj same).1, (List.cons.inj same).2⟩
  | cons e rest =>
      have white := space e List.mem_cons_self
      rw [(List.cons.inj same).1, solid] at white
      cases white

theorem string_unique {name a b s s' : Str} (written : StringText name a)
    (same : name ++ s = '"' :: closeString b ++ s') : a = b ∧ s = s' := by
  have first := parseString_complete written s 0
  rw [same, parseString_complete (quoted_text b) s' 0] at first
  obtain ⟨key, rest⟩ := Prod.mk.inj (Except.ok.inj first)
  exact ⟨key.symm, (Cursor.mk.inj rest).1.symm⟩

section Values

variable {F : Type} (D : Floats F)

theorem number_token (n : Number F) : NumberText (n.token D.toDoubles).text := by
  cases n with
  | int n => exact token_text ((Number.int n).token_wellFormed D.toDoubles) (toDigits_int _)
  | float x => exact token_text (Decimal.repr_wellFormed (D.shortest x)) (repr_leading (D.shortest x))

theorem numberValue_unique {n m : Number F} (value : NumberValue D (m.token D.toDoubles).text n) : n = m := by
  generalize text : (m.token D.toDoubles).text = token at value
  cases m with
  | int k =>
      have written : (intToken k).text = token := text
      obtain ⟨whole, read⟩ := intToken_value k
      rw [written] at whole read
      cases value with
      | int _ => rw [read]
      | float parts finite =>
          rw [whole] at parts
          cases parts
  | float x =>
      have written : (D.decimal x).repr.text = token := text
      have float := floatToken_float D x
      have read : D.ofText (D.decimal x).repr.text = x :=
        D.reads x _ (Decimal.repr_wellFormed (D.shortest x)) (Decimal.repr_neg _) rfl
      rw [written] at float read
      cases value with
      | int whole =>
          rw [whole] at float
          cases float
      | float parts finite => rw [read]

/-- The first character of a text tells the type of its value. -/
theorem ValueText.shape {text : Str} {w : Json F} (written : ValueText D text w) :
    ∃ c rest, text = c :: rest ∧ Json.shapeOf c = w.shape := by
  cases written with
  | null => exact ⟨_, _, rfl, rfl⟩
  | true_ => exact ⟨_, _, rfl, rfl⟩
  | false_ => exact ⟨_, _, rfl, rfl⟩
  | number shape short value =>
      obtain ⟨c, rest, rfl, first⟩ := shape.head
      refine ⟨c, rest, rfl, Json.shapeOf_number ?_⟩
      rcases first with digit | rfl
      · rw [Number.isChar, digit]
        rfl
      · decide
  | string quoted =>
      obtain ⟨inner, rfl, -⟩ := quoted
      exact ⟨_, _, rfl, rfl⟩
  | emptyArray => exact ⟨_, _, rfl, rfl⟩
  | array => exact ⟨_, _, rfl, rfl⟩
  | emptyObject => exact ⟨_, _, rfl, rfl⟩
  | object => exact ⟨_, _, rfl, rfl⟩

/-- Canonical text does not begin with white space. -/
theorem render_solid (v : Json F) :
    ∃ c rest, v.render D.toDoubles = c :: rest ∧ isWhitespace c = false ∧ c ≠ ']' ∧ c ≠ '\x7d' := by
  cases v with
  | null => exact ⟨'n', _, rfl, rfl, by decide, by decide⟩
  | bool b => cases b <;> exact ⟨_, _, rfl, rfl, by decide, by decide⟩
  | number n =>
      obtain ⟨c, rest, text, first⟩ := (number_token D n).head
      have other (d : Char) (foreign : isDigit d = false) (sign : d ≠ '-') : c ≠ d := by
        rintro rfl
        rcases first with digit | minus
        · rw [digit] at foreign
          cases foreign
        · exact sign minus
      refine ⟨c, rest, text, ?_, other _ rfl (by decide), other _ rfl (by decide)⟩
      simp only [isWhitespace, Bool.or_eq_false_iff, beq_eq_false_iff_ne]
      exact ⟨⟨⟨other _ rfl (by decide), other _ rfl (by decide)⟩, other _ rfl (by decide)⟩, other _ rfl (by decide)⟩
  | string s => exact ⟨'"', _, rfl, rfl, by decide, by decide⟩
  | array items => cases items <;> exact ⟨'[', _, rfl, rfl, by decide, by decide⟩
  | object members => cases members <;> exact ⟨'\x7b', _, rfl, rfl, by decide, by decide⟩

theorem closeArray_lead (items : List (Json F)) :
    ∃ c rest, Json.closeArray D.toDoubles items = c :: rest ∧ (c = ',' ∨ c = ']' ∨ c = '\x7d') ∧ isWhitespace c = false := by
  cases items with
  | nil => exact ⟨']', _, rfl, .inr (.inl rfl), rfl⟩
  | cons v rest => exact ⟨',', _, rfl, .inl rfl, rfl⟩

theorem closeObject_lead (members : List (Str × Json F)) :
    ∃ c rest, Json.closeObject D.toDoubles members = c :: rest ∧ (c = ',' ∨ c = ']' ∨ c = '\x7d') ∧
      isWhitespace c = false := by
  cases members with
  | nil => exact ⟨'\x7d', _, rfl, .inr (.inr rfl), rfl⟩
  | cons m rest => exact ⟨',', _, rfl, .inl rfl, rfl⟩

theorem ends_lead {c : Char} (rest : Str) (sep : c = ',' ∨ c = ']' ∨ c = '\x7d') : Ends (c :: rest) :=
  @ends_space [] c rest (fun _ mem => by cases mem) sep

mutual

/-- **What canonical text is read as is what it was written from.** -/
theorem value_unique (w v : Json F) {text s s' : Str} (written : ValueText D text w) (ends : Ends s) (ends' : Ends s')
    (same : text ++ s = v.render D.toDoubles ++ s') : w = v ∧ s = s' := by
  have shapes : w.shape = v.shape := by
    obtain ⟨c, rest, rfl, first⟩ := written.shape
    obtain ⟨c', rest', shape, second⟩ := Json.render_head D.toDoubles v
    rw [shape, List.cons_append, List.cons_append, List.cons.injEq] at same
    rw [← first, same.1, second]
  cases w with
  | null =>
      cases v <;> cases shapes
      cases written
      exact ⟨rfl, List.append_cancel_left same⟩
  | bool b =>
      cases v <;> cases shapes
      next b' =>
      cases written <;> cases b' <;> first | exact ⟨rfl, List.append_cancel_left same⟩ | simp [Json.render] at same
  | number n =>
      cases v <;> cases shapes
      next m =>
      cases written with
      | number shape short value =>
          have first := matchNumber_complete shape ends
          rw [same, Json.render, matchNumber_complete (number_token D m) ends'] at first
          obtain ⟨rfl, rfl⟩ := Prod.mk.inj (Option.some.inj first)
          rw [numberValue_unique D value]
          exact ⟨rfl, rfl⟩
  | string a =>
      cases v <;> cases shapes
      next b =>
      cases written with
      | string quoted =>
          obtain ⟨rfl, rest⟩ := string_unique quoted same
          exact ⟨rfl, rest⟩
  | array items =>
      cases v <;> cases shapes
      next items' =>
      cases written with
      | @emptyArray ws space =>
          rw [List.cons_append, List.append_assoc, List.singleton_append] at same
          cases items' with
          | nil =>
              obtain ⟨-, -, rest⟩ := space_unique space (List.cons.inj same).2 rfl
              exact ⟨rfl, rest⟩
          | cons v rest =>
              obtain ⟨c, more, shape, solid, other, -⟩ := render_solid D v
              rw [Json.render, shape] at same
              exact absurd (space_unique space (List.cons.inj same).2 solid).2.1 other.symm
      | @array text _ inner =>
          cases items' with
          | nil =>
              obtain ⟨ws, c, rest, rfl, space, solid, other, -⟩ := inner.lead
              rw [List.cons_append, List.append_assoc, List.cons_append] at same
              exact absurd (space_unique space (List.cons.inj same).2 rfl).2.1 other
          | cons v rest =>
              obtain ⟨rfl, tail⟩ := items_unique items inner v rest (by
                rw [List.cons_append, Json.render, List.cons_append, List.append_assoc] at same
                rw [List.append_assoc]
                exact (List.cons.inj same).2)
              exact ⟨rfl, tail⟩
  | object members =>
      cases v <;> cases shapes
      next members' =>
      cases written with
      | @emptyObject ws space =>
          rw [List.cons_append, List.append_assoc, List.singleton_append] at same
          cases members' with
          | nil =>
              obtain ⟨-, -, rest⟩ := space_unique space (List.cons.inj same).2 rfl
              exact ⟨rfl, rest⟩
          | cons m rest =>
              obtain ⟨key, v⟩ := m
              have other := (space_unique space (List.cons.inj same).2 rfl).2.1
              cases other
      | @object text _ inner =>
          cases members' with
          | nil =>
              obtain ⟨ws, rest, rfl, space, -⟩ := inner.lead
              rw [List.cons_append, List.append_assoc, List.cons_append] at same
              have other := (space_unique space (List.cons.inj same).2 rfl).2.1
              cases other
          | cons m rest =>
              obtain ⟨key, v⟩ := m
              obtain ⟨rfl, tail⟩ := members_unique members inner key v rest (List.cons.inj same).2
              exact ⟨rfl, tail⟩

theorem items_unique (items : List (Json F)) {text s s' : Str} (written : ItemsText D text items) (v : Json F)
    (rest : List (Json F))
    (same : text ++ s = v.render D.toDoubles ++ Json.closeArray D.toDoubles rest ++ s') : items = v :: rest ∧ s = s' := by
  obtain ⟨c, more, lead, solid, -⟩ := render_solid D v
  obtain ⟨sep, tail, close, seps, solid'⟩ := closeArray_lead D rest
  cases items with
  | nil => cases written
  | cons w others =>
      cases written with
      | @last before text after _ space value space' =>
          obtain ⟨d, front, shape, -, -⟩ := value.head
          have empty : before = [] := by
            rw [shape, lead] at same
            simp only [List.append_assoc, List.cons_append] at same
            exact (space_unique space same solid).1
          subst empty
          have cut : text ++ (after ++ ']' :: s) = v.render D.toDoubles ++ (Json.closeArray D.toDoubles rest ++ s') := by
            simpa only [List.append_assoc, List.nil_append, List.singleton_append, List.cons_append] using same
          obtain ⟨rfl, behind⟩ := value_unique w v value (ends_space s space' (.inr (.inl rfl)))
            (by rw [close]; exact ends_lead _ seps) cut
          rw [close, List.cons_append] at behind
          obtain ⟨rfl, closing, beyond⟩ := space_unique space' behind solid'
          cases rest with
          | nil =>
              obtain ⟨-, rfl⟩ := List.cons.inj close
              exact ⟨rfl, beyond⟩
          | cons x xs =>
              rw [← closing] at close
              cases (List.cons.inj close).1
      | @more before text after remaining _ _ space value space' more' =>
          obtain ⟨d, front, shape, -, -⟩ := value.head
          have empty : before = [] := by
            rw [shape, lead] at same
            simp only [List.append_assoc, List.cons_append] at same
            exact (space_unique space same solid).1
          subst empty
          have cut : text ++ (after ++ ',' :: (remaining ++ s)) =
              v.render D.toDoubles ++ (Json.closeArray D.toDoubles rest ++ s') := by
            simpa only [List.append_assoc, List.nil_append, List.cons_append] using same
          obtain ⟨rfl, behind⟩ := value_unique w v value (ends_space _ space' (.inl rfl))
            (by rw [close]; exact ends_lead _ seps) cut
          rw [close, List.cons_append] at behind
          obtain ⟨rfl, closing, beyond⟩ := space_unique space' behind solid'
          cases rest with
          | nil =>
              rw [← closing] at close
              cases (List.cons.inj close).1
          | cons x xs =>
              obtain ⟨-, rfl⟩ := List.cons.inj close
              obtain ⟨same', ends⟩ := items_unique others more' x xs beyond
              rw [same']
              exact ⟨rfl, ends⟩

theorem members_unique (members : List (Str × Json F)) {text s s' : Str} (written : MembersText D text members)
    (key : Str) (v : Json F) (rest : List (Str × Json F))
    (same : text ++ s = '"' :: (closeString key ++ ':' :: (v.render D.toDoubles ++
      Json.closeObject D.toDoubles rest)) ++ s') : members = (key, v) :: rest ∧ s = s' := by
  obtain ⟨c, more, lead, solid, -⟩ := render_solid D v
  obtain ⟨sep, tail, close, seps, solid'⟩ := closeObject_lead D rest
  -- up to the value, whichever way the member ends
  have front {before name colon after text behind : Str} {a : Str} {w : Json F} (space : Whitespace before)
      (named : StringText name a) (space₁ : Whitespace colon) (space₂ : Whitespace after) (value : ValueText D text w)
      (same : before ++ (name ++ (colon ++ ':' :: (after ++ (text ++ behind)))) =
        '"' :: (closeString key ++ ':' :: (v.render D.toDoubles ++ (Json.closeObject D.toDoubles rest ++ s')))) :
      a = key ∧ text ++ behind = v.render D.toDoubles ++ (Json.closeObject D.toDoubles rest ++ s') := by
    obtain ⟨d, text', shape, -, -⟩ := value.head
    obtain ⟨inner, quoted, chars⟩ := named
    have empty : before = [] := by
      rw [quoted, List.cons_append] at same
      exact (space_unique space same rfl).1
    subst empty
    obtain ⟨rfl, behindName⟩ := string_unique (b := key) ⟨inner, quoted, chars⟩ same
    obtain ⟨rfl, -, behindColon⟩ := space_unique space₁ behindName rfl
    have empty' : after = [] := by
      rw [shape, lead, List.cons_append, List.cons_append] at behindColon
      exact (space_unique space₂ behindColon solid).1
    subst empty'
    exact ⟨rfl, behindColon⟩
  cases members with
  | nil => cases written
  | cons m others =>
      cases written with
      | @last before name colon text after after' _ _ space named space₁ space₂ value space₃ =>
          have parts : before ++ (name ++ (colon ++ ':' :: (after ++ (text ++ (after' ++ '\x7d' :: s))))) =
              '"' :: (closeString key ++ ':' :: (v.render D.toDoubles ++ (Json.closeObject D.toDoubles rest ++ s'))) := by
            simpa only [List.append_assoc, List.singleton_append, List.nil_append, List.cons_append] using same
          obtain ⟨rfl, cut⟩ := front space named space₁ space₂ value parts
          obtain ⟨rfl, behind⟩ := value_unique _ v value (ends_space s space₃ (.inr (.inr rfl)))
            (by rw [close]; exact ends_lead _ seps) cut
          rw [close, List.cons_append] at behind
          obtain ⟨rfl, closing, beyond⟩ := space_unique space₃ behind solid'
          cases rest with
          | nil =>
              obtain ⟨-, rfl⟩ := List.cons.inj close
              exact ⟨rfl, beyond⟩
          | cons x xs =>
              obtain ⟨key', x⟩ := x
              rw [← closing] at close
              cases (List.cons.inj close).1
      | @more before name colon text after after' _ remaining _ _ space named space₁ space₂ value space₃ more' =>
          have parts : before ++ (name ++ (colon ++ ':' :: (after ++ (text ++ (after' ++ ',' :: (remaining ++ s)))))) =
              '"' :: (closeString key ++ ':' :: (v.render D.toDoubles ++ (Json.closeObject D.toDoubles rest ++ s'))) := by
            simpa only [List.append_assoc, List.cons_append] using same
          obtain ⟨rfl, cut⟩ := front space named space₁ space₂ value parts
          obtain ⟨rfl, behind⟩ := value_unique _ v value (ends_space _ space₃ (.inl rfl))
            (by rw [close]; exact ends_lead _ seps) cut
          rw [close, List.cons_append] at behind
          obtain ⟨rfl, closing, beyond⟩ := space_unique space₃ behind solid'
          cases rest with
          | nil =>
              rw [← closing] at close
              cases (List.cons.inj close).1
          | cons x xs =>
              obtain ⟨key', x⟩ := x
              obtain ⟨-, rfl⟩ := List.cons.inj close
              obtain ⟨same', ends⟩ := members_unique others more' key' x xs beyond
              rw [same']
              exact ⟨rfl, ends⟩

end

/-- **Canonical bytes are accepted exactly when the value is within the limits.** -/
theorem bounded_canonical_iff {limits : Limits} {v w : Json F} :
    Bounded D limits (canonical D v) w ↔ w = v.sorted ∧ isObject v = true ∧ v.Distinct ∧ v.Short ∧
      (canonical D v).length ≤ limits.maximum ∧ v.height ≤ limits.depth ∧ v.values ≤ limits.nodes := by
  constructor
  · intro accepted
    obtain ⟨before, text, after, same, space, space', written⟩ := accepted.text
    have equal : before ++ text ++ after = v.sorted.render D.toDoubles := (utf8_injective same).symm
    obtain ⟨c, rest, lead, solid, -⟩ := render_solid D v.sorted
    obtain ⟨d, front, shape, -, -⟩ := written.head
    have empty : before = [] := by
      rw [shape, lead, List.append_assoc, List.cons_append] at equal
      exact (space_unique space equal solid).1
    subst empty
    have ends : Ends after := fun c head => .inl (space' c (List.mem_of_mem_head? head))
    have none_ : Ends ([] : Str) := fun c head => nomatch head
    obtain ⟨rfl, -⟩ := value_unique D w v.sorted written ends none_ (by rw [List.append_nil]; exact equal)
    refine ⟨rfl, ?_, Json.distinct_of_sorted v accepted.distinct, Json.short_of_sorted v (ValueText.short D _ written),
      accepted.size, ?_, ?_⟩
    · have object := accepted.object
      cases v <;> first | rfl | cases object
    · rw [← Json.sorted_height]
      exact accepted.height
    · rw [← Json.sorted_values]
      exact accepted.values
  · rintro ⟨rfl, object, distinct, short, size, height, values⟩
    exact (boundedJson_iff D limits .outputLimit).1
      (boundedJson_canonical D limits .outputLimit v object distinct short size height values)

end Values

end ApiSecurityPlatform.Proposals
