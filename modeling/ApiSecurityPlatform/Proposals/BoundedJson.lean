/-
# Proposals.BoundedJson -- the parser accepts exactly the grammar

What the parser reads has a derivation (`parseValue_sound`, by induction on the levels that
are left), and a derivation within the limits is read (`parseValue_complete`, by induction on
the value).  A loop uses one character for each round, so its fuel is never used up
(`parseValue_settles`).  Together: `boundedJson_iff`.

Canonical text has a derivation (`render_text`), so a value within the limits comes back from
its canonical bytes (`boundedJson_canonical`).
-/
import ApiSecurityPlatform.Proposals.Scanning
import ApiSecurityPlatform.Theory.Fallible

namespace ApiSecurityPlatform.Proposals

open ApiSecurityPlatform.Theory
open ApiSecurityPlatform.Python

set_option autoImplicit false

/-! ## White space -/

theorem Whitespace.append {a b : Str} (first : Whitespace a) (second : Whitespace b) : Whitespace (a ++ b) := by
  intro c mem
  rcases List.mem_append.1 mem with inside | inside
  · exact first c inside
  · exact second c inside

/-- A text that begins with something else than white space. -/
def Solid (s : Str) : Prop := ∀ c ∈ s.head?, isWhitespace c = false

theorem skip_solid {before s : Str} (space : Whitespace before) (solid : Solid s) (count : Nat) :
    Cursor.skip ⟨before ++ s, count⟩ = ⟨s, count⟩ := by
  have dropped : (before ++ s).dropWhile isWhitespace = s := by
    rw [List.dropWhile_append_of_pos space]
    cases s with
    | nil => rfl
    | cons c rest => rw [List.dropWhile_cons_of_neg (by rw [solid c rfl]; exact Bool.false_ne_true)]
  rw [Cursor.skip, dropped]

theorem skip_split (cur : Cursor) :
    ∃ ws, cur.rest = ws ++ cur.skip.rest ∧ Whitespace ws ∧ cur.skip.count = cur.count :=
  ⟨cur.rest.takeWhile isWhitespace, List.takeWhile_append_dropWhile.symm,
    (fun _ mem => List.mem_takeWhile_imp mem), rfl⟩

theorem solid_cons {c : Char} (rest : Str) (other : isWhitespace c = false) : Solid (c :: rest) := by
  intro d head
  rwa [← Option.some.inj head]

/-! ## Strings and separators -/

theorem parseString_complete {name key : Str} (written : StringText name key) (rest : Str) (count : Nat) :
    parseString ⟨name ++ rest, count⟩ = .ok (key, ⟨rest, count⟩) := by
  obtain ⟨inner, rfl, chars⟩ := written
  have text : '"' :: (inner ++ ['"']) ++ rest = '"' :: (inner ++ '"' :: rest) := by simp
  rw [text, parseString]
  simp only [scanString_complete chars, encodable_map]

theorem parseString_sound {cur cur' : Cursor} {key : Str} (read : parseString cur = .ok (key, cur')) :
    ∃ name, cur.rest = name ++ cur'.rest ∧ StringText name key ∧ cur'.count = cur.count := by
  unfold parseString at read
  split at read
  · next more quoted =>
    split at read
    · cases read
    · next codes rest scanned =>
      split at read
      · cases read
      · next s encoded =>
        obtain ⟨rfl, rfl⟩ := Prod.mk.inj (Except.ok.inj read)
        obtain ⟨inner, rfl, chars⟩ := scanString_sound scanned encoded
        exact ⟨'"' :: (inner ++ ['"']), by rw [quoted]; simp, ⟨inner, rfl, chars⟩, rfl⟩
  · cases read

theorem next_ok {cur cur' : Cursor} {c : Char} :
    next cur = .ok (c, cur') ↔ cur.rest = c :: cur'.rest ∧ cur'.count = cur.count := by
  obtain ⟨rest, count⟩ := cur
  obtain ⟨rest', count'⟩ := cur'
  cases rest with
  | nil => simp [next]
  | cons d more =>
      simp only [next, Except.ok.injEq, Prod.mk.injEq, Cursor.mk.injEq, List.cons.injEq]
      grind

/-- A separator after white space. -/
theorem next_skip {after : Str} (space : Whitespace after) {c : Char} (other : isWhitespace c = false) (rest : Str)
    (count : Nat) : next (Cursor.skip ⟨after ++ c :: rest, count⟩) = .ok (c, ⟨rest, count⟩) := by
  rw [skip_solid space (solid_cons rest other)]
  rfl

section Values

variable {F : Type} (D : Floats F)

theorem tokenNumber_iff {token : Str} {n : Number F} :
    tokenNumber D token = some n ↔ token.length ≤ 64 ∧ NumberValue D token n := by
  unfold tokenNumber
  constructor
  · intro read
    split at read
    · cases read
    next short =>
    refine ⟨not_lt.1 short, ?_⟩
    split at read
    · next float =>
      split at read
      · next finite =>
        obtain rfl := Option.some.inj read
        exact .float float finite
      · cases read
    · next whole =>
      obtain rfl := Option.some.inj read
      exact .int (by simpa using whole)
  · rintro ⟨short, value⟩
    rw [if_neg (not_lt.2 short)]
    cases value with
    | int whole => rw [whole]; rfl
    | float parts finite => rw [parts, finite]; rfl

theorem ValueText.head {text : Str} {v : Json F} (written : ValueText D text v) :
    ∃ c rest, text = c :: rest ∧ isWhitespace c = false ∧ c ≠ ']' := by
  cases written with
  | null => exact ⟨_, _, rfl, rfl, by decide⟩
  | true_ => exact ⟨_, _, rfl, rfl, by decide⟩
  | false_ => exact ⟨_, _, rfl, rfl, by decide⟩
  | number shape short value =>
      obtain ⟨c, rest, rfl, first⟩ := shape.head
      have other (d : Char) (foreign : isDigit d = false) (sign : d ≠ '-') : c ≠ d := by
        rintro rfl
        rcases first with digit | minus
        · rw [digit] at foreign
          cases foreign
        · exact sign minus
      refine ⟨c, rest, rfl, ?_, other _ rfl (by decide)⟩
      simp only [isWhitespace, Bool.or_eq_false_iff, beq_eq_false_iff_ne]
      exact ⟨⟨⟨other _ rfl (by decide), other _ rfl (by decide)⟩, other _ rfl (by decide)⟩, other _ rfl (by decide)⟩
  | string quoted =>
      obtain ⟨inner, rfl, -⟩ := quoted
      exact ⟨_, _, rfl, rfl, by decide⟩
  | emptyArray => exact ⟨_, _, rfl, rfl, by decide⟩
  | array => exact ⟨_, _, rfl, rfl, by decide⟩
  | emptyObject => exact ⟨_, _, rfl, rfl, by decide⟩
  | object => exact ⟨_, _, rfl, rfl, by decide⟩

theorem ValueText.solid {text : Str} {v : Json F} (written : ValueText D text v) (rest : Str) : Solid (text ++ rest) := by
  obtain ⟨c, more, rfl, other, -⟩ := written.head
  exact solid_cons _ other

/-! ## What is read has a derivation -/

/-- What a successful parse of a value has read. -/
structure Reads (nodes left : Nat) (cur : Cursor) (v : Json F) (cur' : Cursor) : Prop where
  text : ∃ before text, cur.rest = before ++ text ++ cur'.rest ∧ Whitespace before ∧ ValueText D text v
  distinct : v.Distinct
  height : v.height + 1 ≤ left
  count : cur'.count = cur.count + v.values
  bound : cur'.count ≤ nodes

/-- A parser of values with `left` levels. -/
def SoundParser (nodes left : Nat) (item : Parser (Json F)) : Prop :=
  ∀ cur v cur', item cur = .ok (v, cur') → Reads D nodes left cur v cur'

theorem parseItems_sound {nodes left : Nat} {item : Parser (Json F)} (sound : SoundParser D nodes left item)
    {fuel : Nat} {acc : List (Json F)} {cur cur' : Cursor} {v : Json F}
    (read : parseItems item fuel acc cur = .ok (v, cur')) :
    ∃ text items, cur.rest = text ++ cur'.rest ∧ ItemsText D text items ∧ v = .array (acc ++ items) ∧
      Json.DistinctItems items ∧ Json.itemsHeight items ≤ left ∧
      cur'.count = cur.count + Json.itemsValues items ∧ cur'.count ≤ nodes := by
  induction fuel generalizing acc cur with
  | zero => cases read
  | succ fuel ih =>
      rw [parseItems, bind_ok] at read
      obtain ⟨⟨w, cur₁⟩, item_, read⟩ := read
      dsimp only at read
      rw [bind_ok] at read
      obtain ⟨⟨sep, cur₂⟩, next_, read⟩ := read
      dsimp only at read
      obtain ⟨ws, split, space, count⟩ := skip_split cur
      obtain ⟨⟨before, text, split₁, space₁, written⟩, distinct, height, count₁, bound₁⟩ := sound _ _ _ item_
      obtain ⟨after, split₂, space₂, count₂⟩ := skip_split cur₁
      obtain ⟨split₃, count₃⟩ := next_ok.1 next_
      have whole : cur.rest = ws ++ before ++ text ++ after ++ sep :: cur₂.rest := by
        rw [split, split₁, split₂, split₃]
        simp only [List.append_assoc]
      split at read
      · next close =>
        obtain ⟨rfl, rfl⟩ := Prod.mk.inj (Except.ok.inj read)
        refine ⟨ws ++ before ++ text ++ after ++ [']'], [w], ?_, .last (space.append space₁) written space₂, rfl,
          ⟨distinct, trivial⟩, by simpa [Json.itemsHeight] using height, ?_, ?_⟩
        · rw [whole, close]
          simp only [List.append_assoc, List.singleton_append]
        · rw [count₃, count₂, count₁, count]
          rfl
        · rw [count₃, count₂]
          exact bound₁
      split at read
      · next comma =>
        obtain ⟨text', items, split', written', rfl, distinct', height', count', bound'⟩ := ih read
        refine ⟨ws ++ before ++ text ++ after ++ ',' :: text', w :: items, ?_,
          .more (space.append space₁) written space₂ written', by simp, ⟨distinct, distinct'⟩,
          max_le height height', ?_, bound'⟩
        · rw [whole, comma, split']
          simp only [List.append_assoc, List.cons_append]
        · rw [count', count₃, count₂, count₁, count, Json.itemsValues]
          omega
      · cases read

theorem parseMembers_sound {nodes left : Nat} {item : Parser (Json F)} (sound : SoundParser D nodes left item)
    {fuel : Nat} {acc : List (Str × Json F)} {cur cur' : Cursor} {v : Json F} (unique : (acc.map Prod.fst).Nodup)
    (read : parseMembers item fuel acc cur = .ok (v, cur')) :
    ∃ text members, cur.rest = text ++ cur'.rest ∧ MembersText D text members ∧ v = .object (acc ++ members) ∧
      ((acc ++ members).map Prod.fst).Nodup ∧ Json.DistinctMembers members ∧ Json.membersHeight members ≤ left ∧
      cur'.count = cur.count + Json.membersValues members ∧ cur'.count ≤ nodes := by
  induction fuel generalizing acc cur with
  | zero => cases read
  | succ fuel ih =>
      rw [parseMembers, bind_ok] at read
      obtain ⟨⟨key, cur₁⟩, name_, read⟩ := read
      dsimp only at read
      rw [seq_ok, require_ok, bind_ok] at read
      obtain ⟨fresh, ⟨colon, cur₂⟩, colon_, read⟩ := read
      dsimp only at read
      rw [seq_ok, require_ok, bind_ok] at read
      obtain ⟨rfl, ⟨w, cur₃⟩, item_, read⟩ := read
      dsimp only at read
      rw [bind_ok] at read
      obtain ⟨⟨sep, cur₄⟩, next_, read⟩ := read
      dsimp only at read
      obtain ⟨ws, split, space, count⟩ := skip_split cur
      obtain ⟨name, split₁, named, count₁⟩ := parseString_sound name_
      obtain ⟨ws', split₂, space', count₂⟩ := skip_split cur₁
      obtain ⟨split₃, count₃⟩ := next_ok.1 colon_
      obtain ⟨⟨before, text, split₄, space₄, written⟩, distinct, height, count₄, bound₄⟩ := sound _ _ _ item_
      obtain ⟨after, split₅, space₅, count₅⟩ := skip_split cur₃
      obtain ⟨split₆, count₆⟩ := next_ok.1 next_
      have whole : cur.rest = ws ++ name ++ ws' ++ ':' :: (before ++ text ++ after ++ sep :: cur₄.rest) := by
        rw [split, split₁, split₂, split₃, split₄, split₅, split₆]
        simp only [List.append_assoc]
      have total : cur₄.count = cur.count + w.values := by
        rw [count₆, count₅, count₄, count₃, count₂, count₁, count]
      have unique' : ((acc ++ [(key, w)]).map Prod.fst).Nodup := by
        rw [List.map_append, List.nodup_append]
        refine ⟨unique, List.nodup_singleton _, ?_⟩
        intro a mem b mem' same
        have named_ : b = key := List.mem_singleton.1 mem'
        rw [same, named_] at mem
        exact fresh mem
      split at read
      · next close =>
        obtain ⟨rfl, rfl⟩ := Prod.mk.inj (Except.ok.inj read)
        refine ⟨ws ++ name ++ ws' ++ ':' :: (before ++ text ++ after ++ ['\x7d']), [(key, w)], ?_,
          .last space named space' space₄ written space₅, rfl, unique', ⟨distinct, trivial⟩,
          by simpa [Json.membersHeight] using height, total, ?_⟩
        · rw [whole, close]
          simp only [List.append_assoc, List.cons_append, List.nil_append]
        · rw [count₆, count₅]
          exact bound₄
      split at read
      · next comma =>
        obtain ⟨text', members, split', written', rfl, nodup, distinct', height', count', bound'⟩ := ih unique' read
        refine ⟨ws ++ name ++ ws' ++ ':' :: (before ++ text ++ after ++ ',' :: text'), (key, w) :: members, ?_,
          .more space named space' space₄ written space₅ written', by simp, by simpa using nodup,
          ⟨distinct, distinct'⟩, max_le height height', ?_, bound'⟩
        · rw [whole, comma, split']
          simp only [List.append_assoc, List.cons_append]
        · rw [count', total, Json.membersValues]
          omega
      · cases read

theorem parseScalar_sound {cur cur' : Cursor} {v : Json F} (read : parseScalar D cur = .ok (v, cur')) :
    ∃ text, cur.rest = text ++ cur'.rest ∧ ValueText D text v ∧ v.Distinct ∧ v.height = 0 ∧ v.values = 1 ∧
      cur'.count = cur.count := by
  have literal {word : Str} (leads : word.isPrefixOf cur.rest = true) :
      cur.rest = word ++ cur.rest.drop word.length := by
    obtain ⟨tail, text⟩ := List.isPrefixOf_iff_prefix.1 leads
    rw [← text, List.drop_left]
  unfold parseScalar at read
  split at read
  · next leads =>
    obtain ⟨rfl, rfl⟩ := Prod.mk.inj (Except.ok.inj read)
    exact ⟨_, literal leads, .true_, trivial, rfl, rfl, rfl⟩
  split at read
  · next leads =>
    obtain ⟨rfl, rfl⟩ := Prod.mk.inj (Except.ok.inj read)
    exact ⟨_, literal leads, .false_, trivial, rfl, rfl, rfl⟩
  split at read
  · next leads =>
    obtain ⟨rfl, rfl⟩ := Prod.mk.inj (Except.ok.inj read)
    exact ⟨_, literal leads, .null, trivial, rfl, rfl, rfl⟩
  split at read
  · cases read
  · next token rest matched =>
    split at read
    · cases read
    · next n number =>
      obtain ⟨rfl, rfl⟩ := Prod.mk.inj (Except.ok.inj read)
      obtain ⟨split, shape⟩ := matchNumber_sound matched
      obtain ⟨short, value⟩ := (tokenNumber_iff D).1 number
      exact ⟨token, split, .number shape short value, trivial, rfl, rfl, rfl⟩

theorem ItemsText.space {ws text : Str} {items : List (Json F)} (space : Whitespace ws)
    (written : ItemsText D text items) : ItemsText D (ws ++ text) items := by
  cases written with
  | @last before text after _ space' value space'' =>
      have grouped : ws ++ (before ++ text ++ after ++ [']']) = (ws ++ before) ++ text ++ after ++ [']'] := by
        simp only [List.append_assoc]
      rw [grouped]
      exact .last (space.append space') value space''
  | @more before text after rest _ _ space' value space'' others =>
      have grouped : ws ++ (before ++ text ++ after ++ ',' :: rest) = (ws ++ before) ++ text ++ after ++ ',' :: rest := by
        simp only [List.append_assoc]
      rw [grouped]
      exact .more (space.append space') value space'' others

theorem MembersText.space {ws text : Str} {members : List (Str × Json F)} (space : Whitespace ws)
    (written : MembersText D text members) : MembersText D (ws ++ text) members := by
  cases written with
  | @last before name colon text after after' _ _ space' named space₁ space₂ value space₃ =>
      have grouped : ws ++ (before ++ name ++ colon ++ ':' :: (after ++ text ++ after' ++ ['\x7d'])) =
          (ws ++ before) ++ name ++ colon ++ ':' :: (after ++ text ++ after' ++ ['\x7d']) := by
        simp only [List.append_assoc]
      rw [grouped]
      exact .last (space.append space') named space₁ space₂ value space₃
  | @more before name colon text after after' _ rest _ _ space' named space₁ space₂ value space₃ others =>
      have grouped : ws ++ (before ++ name ++ colon ++ ':' :: (after ++ text ++ after' ++ ',' :: rest)) =
          (ws ++ before) ++ name ++ colon ++ ':' :: (after ++ text ++ after' ++ ',' :: rest) := by
        simp only [List.append_assoc]
      rw [grouped]
      exact .more (space.append space') named space₁ space₂ value space₃ others

theorem parseArray_sound {nodes left : Nat} {item : Parser (Json F)} (sound : SoundParser D nodes left item)
    {cur cur' : Cursor} {v : Json F} (room : cur.count ≤ nodes) (read : parseArray item cur = .ok (v, cur')) :
    ∃ text, cur.rest = text ++ cur'.rest ∧ ValueText D ('[' :: text) v ∧ v.Distinct ∧ v.height ≤ left ∧
      cur'.count + 1 = cur.count + v.values ∧ cur'.count ≤ nodes := by
  obtain ⟨ws, split, space, count⟩ := skip_split cur
  unfold parseArray at read
  dsimp only at read
  split at read
  · next rest close =>
    obtain ⟨rfl, rfl⟩ := Prod.mk.inj (Except.ok.inj read)
    exact ⟨ws ++ [']'], by rw [split, close]; simp, .emptyArray space, trivial, Nat.zero_le _,
      congrArg (· + 1) count, room⟩
  · obtain ⟨text, items, split', written, rfl, distinct, height, count', bound⟩ := parseItems_sound D sound read
    refine ⟨ws ++ text, by rw [split, split', List.append_assoc], .array (written.space D space), distinct, height, ?_, bound⟩
    rw [count', count, List.nil_append, Json.values]
    omega

theorem parseObject_sound {nodes left : Nat} {item : Parser (Json F)} (sound : SoundParser D nodes left item)
    {cur cur' : Cursor} {v : Json F} (room : cur.count ≤ nodes) (read : parseObject item cur = .ok (v, cur')) :
    ∃ text, cur.rest = text ++ cur'.rest ∧ ValueText D ('\x7b' :: text) v ∧ v.Distinct ∧ v.height ≤ left ∧
      cur'.count + 1 = cur.count + v.values ∧ cur'.count ≤ nodes := by
  obtain ⟨ws, split, space, count⟩ := skip_split cur
  unfold parseObject at read
  dsimp only at read
  split at read
  · next rest close =>
    obtain ⟨rfl, rfl⟩ := Prod.mk.inj (Except.ok.inj read)
    exact ⟨ws ++ ['\x7d'], by rw [split, close]; simp, .emptyObject space, ⟨List.nodup_nil, trivial⟩, Nat.zero_le _,
      congrArg (· + 1) count, room⟩
  · obtain ⟨text, members, split', written, rfl, unique, distinct, height, count', bound⟩ :=
      parseMembers_sound D sound (show (([] : List (Str × Json F)).map Prod.fst).Nodup from List.nodup_nil) read
    refine ⟨ws ++ text, by rw [split, split', List.append_assoc], .object (written.space D space), ⟨unique, distinct⟩, height, ?_, bound⟩
    rw [count', count, List.nil_append, Json.values]
    omega

theorem parseBody_sound {nodes left : Nat} {item : Parser (Json F)} (sound : SoundParser D nodes left item)
    {cur cur' : Cursor} {v : Json F} (room : cur.count ≤ nodes) (read : parseBody D item cur = .ok (v, cur')) :
    ∃ text, cur.rest = text ++ cur'.rest ∧ ValueText D text v ∧ v.Distinct ∧ v.height ≤ left ∧
      cur'.count + 1 = cur.count + v.values ∧ cur'.count ≤ nodes := by
  unfold parseBody at read
  split at read
  · cases read
  · obtain ⟨⟨s, cur₁⟩, string, same⟩ := map_ok.1 read
    obtain ⟨rfl, rfl⟩ := Prod.mk.inj same
    obtain ⟨name, split, quoted, count⟩ := parseString_sound string
    exact ⟨name, split, .string quoted, trivial, Nat.zero_le _, congrArg (· + 1) count, count ▸ room⟩
  · next rest opening =>
    obtain ⟨text, split, written, others⟩ := parseObject_sound D sound (show Cursor.count ⟨rest, cur.count⟩ ≤ nodes from room) read
    exact ⟨'\x7b' :: text, by rw [opening, List.cons_append, ← split], written, others⟩
  · next rest opening =>
    obtain ⟨text, split, written, others⟩ := parseArray_sound D sound (show Cursor.count ⟨rest, cur.count⟩ ≤ nodes from room) read
    exact ⟨'[' :: text, by rw [opening, List.cons_append, ← split], written, others⟩
  · obtain ⟨text, split, written, distinct, height, values, count⟩ := parseScalar_sound D read
    exact ⟨text, split, written, distinct, height ▸ Nat.zero_le _, by rw [count, values], count ▸ room⟩

/-- **What is read has a derivation**, within the limits. -/
theorem parseValue_sound (nodes : Nat) (limitCode : Code) (left : Nat) :
    SoundParser D nodes left (parseValue D nodes limitCode left) := by
  induction left with
  | zero => exact fun cur v cur' read => nomatch read
  | succ left ih =>
      intro cur v cur' read
      rw [parseValue, seq_ok, require_ok] at read
      obtain ⟨room, read⟩ := read
      obtain ⟨ws, split, space, count⟩ := skip_split { cur with count := cur.count + 1 }
      obtain ⟨text, split', written, distinct, height, count', bound⟩ := parseBody_sound D ih (count ▸ room) read
      refine ⟨⟨ws, text, ?_, space, written⟩, distinct, Nat.succ_le_succ height, ?_, bound⟩
      · rw [List.append_assoc, ← split']
        exact split
      · rw [count] at count'
        dsimp only at count'
        omega

/-! ## A derivation is read -/

theorem parseBody_scalar (item : Parser (Json F)) {c : Char} {rest : Str} {count : Nat} (quote : c ≠ '"')
    (brace : c ≠ '\x7b') (bracket : c ≠ '[') :
    parseBody D item ⟨c :: rest, count⟩ = parseScalar D ⟨c :: rest, count⟩ := by
  unfold parseBody
  split
  · next none_ => cases none_
  · next same => exact absurd (List.cons.inj same).1 quote
  · next same => exact absurd (List.cons.inj same).1 brace
  · next same => exact absurd (List.cons.inj same).1 bracket
  · rfl

theorem parseBody_number (item : Parser (Json F)) {token rest : Str} {n : Number F} {count : Nat}
    (shape : NumberText token) (short : token.length ≤ 64) (value : NumberValue D token n) (ends : Ends rest) :
    parseBody D item ⟨token ++ rest, count⟩ = .ok (.number n, ⟨rest, count⟩) := by
  have matched := matchNumber_complete shape ends
  have number := (tokenNumber_iff D).2 ⟨short, value⟩
  obtain ⟨c, more, rfl, first⟩ := shape.head
  have other (d : Char) (foreign : isDigit d = false) (sign : d ≠ '-') : c ≠ d := by
    rintro rfl
    rcases first with digit | minus
    · rw [digit] at foreign
      cases foreign
    · exact sign minus
  have literal (word : Str) (d : Char) (foreign : isDigit d = false) (sign : d ≠ '-') :
      ¬ (d :: word).isPrefixOf (c :: (more ++ rest)) = true := by
    intro leads
    obtain ⟨same, -⟩ := List.cons_prefix_cons.1 (List.isPrefixOf_iff_prefix.1 leads)
    exact other d foreign sign same.symm
  rw [List.cons_append, parseBody_scalar D item (other _ rfl (by decide)) (other _ rfl (by decide))
    (other _ rfl (by decide)), parseScalar]
  have isTrue : ¬ "true".toList.isPrefixOf (c :: (more ++ rest)) = true := literal "rue".toList 't' rfl (by decide)
  have isFalse : ¬ "false".toList.isPrefixOf (c :: (more ++ rest)) = true := literal "alse".toList 'f' rfl (by decide)
  have isNull : ¬ "null".toList.isPrefixOf (c :: (more ++ rest)) = true := literal "ull".toList 'n' rfl (by decide)
  rw [if_neg isTrue, if_neg isFalse, if_neg isNull]
  rw [List.cons_append] at matched
  simp only [matched, number]

theorem ItemsText.length {text : Str} {items : List (Json F)} (written : ItemsText D text items) :
    items.length ≤ text.length := by
  induction items generalizing text with
  | nil => exact Nat.zero_le _
  | cons v rest ih =>
      cases written with
      | last =>
          simp only [List.length_append, List.length_cons, List.length_nil]
          omega
      | more _ _ _ others =>
          have shorter := ih others
          simp only [List.length_append, List.length_cons]
          omega

theorem MembersText.length {text : Str} {members : List (Str × Json F)} (written : MembersText D text members) :
    members.length ≤ text.length := by
  induction members generalizing text with
  | nil => exact Nat.zero_le _
  | cons m rest ih =>
      cases written with
      | last =>
          simp only [List.length_append, List.length_cons, List.length_nil]
          omega
      | more _ _ _ _ _ _ others =>
          have shorter := ih others
          simp only [List.length_append, List.length_cons]
          omega

theorem ends_space {after : Str} {c : Char} (rest : Str) (space : Whitespace after) (sep : c = ',' ∨ c = ']' ∨ c = '\x7d') :
    Ends (after ++ c :: rest) := by
  intro d head
  cases after with
  | nil =>
      rw [← Option.some.inj (head : some c = some d)]
      exact .inr sep
  | cons e more =>
      rw [← Option.some.inj (head : some e = some d)]
      exact .inl (space e List.mem_cons_self)

/-- The items without the white space before the first of them. -/
theorem ItemsText.lead {text : Str} {items : List (Json F)} (written : ItemsText D text items) :
    ∃ ws c rest, text = ws ++ c :: rest ∧ Whitespace ws ∧ isWhitespace c = false ∧ c ≠ ']' ∧
      ItemsText D (c :: rest) items := by
  have none_ : Whitespace [] := fun _ mem => nomatch mem
  cases written with
  | @last before text after _ space value space' =>
      have inner : ItemsText D ([] ++ text ++ after ++ [']']) _ := .last none_ value space'
      obtain ⟨c, more, rfl, solid, other⟩ := value.head
      refine ⟨before, c, more ++ after ++ [']'], ?_, space, solid, other, inner⟩
      simp only [List.append_assoc, List.cons_append]
  | @more before text after rest _ _ space value space' others =>
      have inner : ItemsText D ([] ++ text ++ after ++ ',' :: rest) _ := .more none_ value space' others
      obtain ⟨c, more, rfl, solid, other⟩ := value.head
      refine ⟨before, c, more ++ after ++ ',' :: rest, ?_, space, solid, other, inner⟩
      simp only [List.append_assoc, List.cons_append]

theorem MembersText.lead {text : Str} {members : List (Str × Json F)} (written : MembersText D text members) :
    ∃ ws rest, text = ws ++ '"' :: rest ∧ Whitespace ws ∧ MembersText D ('"' :: rest) members := by
  have none_ : Whitespace [] := fun _ mem => nomatch mem
  cases written with
  | @last before name colon text after after' _ _ space named space₁ space₂ value space₃ =>
      have inner : MembersText D ([] ++ name ++ colon ++ ':' :: (after ++ text ++ after' ++ ['\x7d'])) _ :=
        .last none_ named space₁ space₂ value space₃
      obtain ⟨chars, rfl, -⟩ := named
      refine ⟨before, chars ++ ['"'] ++ colon ++ ':' :: (after ++ text ++ after' ++ ['\x7d']), ?_, space, inner⟩
      simp only [List.append_assoc, List.cons_append]
  | @more before name colon text after after' _ rest _ _ space named space₁ space₂ value space₃ others =>
      have inner : MembersText D ([] ++ name ++ colon ++ ':' :: (after ++ text ++ after' ++ ',' :: rest)) _ :=
        .more none_ named space₁ space₂ value space₃ others
      obtain ⟨chars, rfl, -⟩ := named
      refine ⟨before, chars ++ ['"'] ++ colon ++ ':' :: (after ++ text ++ after' ++ ',' :: rest), ?_, space, inner⟩
      simp only [List.append_assoc, List.cons_append]

section Complete

variable (nodes : Nat) (limitCode : Code)

mutual

/-- **A derivation within the limits is read.** -/
theorem parseValue_complete (v : Json F) {text : Str} (written : ValueText D text v) (distinct : v.Distinct)
    {left : Nat} (height : v.height + 1 ≤ left) {before rest : Str} (space : Whitespace before) (ends : Ends rest)
    {count : Nat} (room : count + v.values ≤ nodes) :
    parseValue D nodes limitCode left ⟨before ++ text ++ rest, count⟩ = .ok (v, ⟨rest, count + v.values⟩) := by
  obtain ⟨left, rfl⟩ : ∃ l, left = l + 1 := ⟨left - 1, by omega⟩
  have counted : count + 1 ≤ nodes := by
    have one : 1 ≤ v.values := by cases v <;> simp [Json.values]
    omega
  rw [parseValue, List.append_assoc]
  show (require (count + 1 ≤ nodes) limitCode >>= fun _ => parseBody D (parseValue D nodes limitCode left)
    (Cursor.skip ⟨before ++ (text ++ rest), count + 1⟩)) = _
  rw [seq_ok, require_ok, skip_solid space (written.solid D rest)]
  refine ⟨counted, ?_⟩
  cases v with
  | null => cases written; rfl
  | bool b => cases written <;> rfl
  | number n =>
      cases written with
      | number shape short value => exact parseBody_number D _ shape short value ends
  | string s =>
      cases written with
      | string quoted =>
          have read := parseString_complete quoted rest (count + 1)
          obtain ⟨inner, rfl, -⟩ := quoted
          show (parseString ⟨'"' :: (inner ++ ['"']) ++ rest, count + 1⟩).map _ = _
          rw [read]
          rfl
  | array items =>
      cases written with
      | @emptyArray ws space' =>
          show parseArray _ ⟨ws ++ [']'] ++ rest, count + 1⟩ = _
          rw [List.append_assoc, List.singleton_append, parseArray, skip_solid space' (solid_cons rest rfl)]
          rfl
      | @array text _ inner =>
          obtain ⟨ws, c, more, rfl, space', solid, other, inner⟩ := inner.lead
          show parseArray _ ⟨ws ++ c :: more ++ rest, count + 1⟩ = _
          rw [List.append_assoc, List.cons_append, parseArray, skip_solid space' (solid_cons _ solid)]
          have open_ : ∀ s, c :: (more ++ rest) = ']' :: s → False := fun s same => other (List.cons.inj same).1
          dsimp only
          split
          · next same => exact (open_ _ same).elim
          have enough : items.length ≤ (c :: (more ++ rest)).length + 1 := by
            have shorter := inner.length
            simp only [List.length_append, List.length_cons] at shorter ⊢
            omega
          have read := parseItems_complete items inner distinct (Nat.le_of_succ_le_succ height) [] enough rest
            (show count + 1 + Json.itemsValues items ≤ nodes by rw [Json.values] at room; omega)
          rw [List.cons_append] at read
          rw [read, List.nil_append, Json.values, Nat.add_assoc]
  | object members =>
      cases written with
      | @emptyObject ws space' =>
          show parseObject _ ⟨ws ++ ['\x7d'] ++ rest, count + 1⟩ = _
          rw [List.append_assoc, List.singleton_append, parseObject, skip_solid space' (solid_cons rest rfl)]
          rfl
      | @object text _ inner =>
          obtain ⟨ws, more, rfl, space', inner⟩ := inner.lead
          show parseObject _ ⟨ws ++ '"' :: more ++ rest, count + 1⟩ = _
          rw [List.append_assoc, List.cons_append, parseObject, skip_solid space' (solid_cons _ rfl)]
          have enough : members.length ≤ ('"' :: (more ++ rest)).length + 1 := by
            have shorter := inner.length
            simp only [List.length_append, List.length_cons] at shorter ⊢
            omega
          have read := parseMembers_complete members inner distinct.2 (Nat.le_of_succ_le_succ height) []
            (by simpa using distinct.1) enough rest
            (show count + 1 + Json.membersValues members ≤ nodes by rw [Json.values] at room; omega)
          rw [List.cons_append] at read
          show parseMembers _ (('"' :: (more ++ rest)).length + 1) [] _ = _
          rw [read, List.nil_append, Json.values, Nat.add_assoc]

theorem parseItems_complete (items : List (Json F)) {text : Str} (written : ItemsText D text items)
    (distinct : Json.DistinctItems items) {left : Nat} (height : Json.itemsHeight items ≤ left)
    (acc : List (Json F)) {fuel : Nat} (enough : items.length ≤ fuel) (rest : Str) {count : Nat}
    (room : count + Json.itemsValues items ≤ nodes) :
    parseItems (parseValue D nodes limitCode left) fuel acc ⟨text ++ rest, count⟩ =
      .ok (.array (acc ++ items), ⟨rest, count + Json.itemsValues items⟩) := by
  cases items with
  | nil => cases written
  | cons v others =>
      obtain ⟨fuel, rfl⟩ : ∃ f, fuel = f + 1 := ⟨fuel - 1, by simp only [List.length_cons] at enough; omega⟩
      have none_ : Whitespace [] := fun _ mem => nomatch mem
      rw [Json.itemsValues] at room
      rw [Json.itemsHeight, max_le_iff] at height
      cases written with
      | @last before text after _ space value space' =>
          have grouped : before ++ text ++ after ++ [']'] ++ rest = before ++ (text ++ (after ++ ']' :: rest)) := by
            simp only [List.append_assoc, List.singleton_append]
          have item := parseValue_complete v value distinct.1 height.1 none_
            (ends_space rest space' (.inr (.inl rfl))) (show count + v.values ≤ nodes by omega)
          rw [List.nil_append] at item
          rw [grouped, parseItems]
          dsimp only
          rw [skip_solid space (value.solid D _), bind_ok]
          refine ⟨_, item, ?_⟩
          dsimp only
          rw [bind_ok]
          exact ⟨_, next_skip space' rfl rest _, rfl⟩
      | @more before text after text' _ _ space value space' others' =>
          have grouped : before ++ text ++ after ++ ',' :: text' ++ rest =
              before ++ (text ++ (after ++ ',' :: (text' ++ rest))) := by
            simp only [List.append_assoc, List.cons_append]
          have item := parseValue_complete v value distinct.1 height.1 none_
            (ends_space (text' ++ rest) space' (.inl rfl)) (show count + v.values ≤ nodes by omega)
          rw [List.nil_append] at item
          have tail := parseItems_complete others others' distinct.2 height.2 (acc ++ [v])
            (show others.length ≤ fuel by simp only [List.length_cons] at enough; omega) rest
            (show count + v.values + Json.itemsValues others ≤ nodes by omega)
          rw [grouped, parseItems]
          dsimp only
          rw [skip_solid space (value.solid D _), bind_ok]
          refine ⟨_, item, ?_⟩
          dsimp only
          rw [bind_ok]
          refine ⟨_, next_skip space' rfl _ _, ?_⟩
          dsimp only
          rw [if_neg (by decide), if_pos rfl, tail, Json.itemsValues, Nat.add_assoc, List.append_assoc]
          rfl

theorem parseMembers_complete (members : List (Str × Json F)) {text : Str} (written : MembersText D text members)
    (distinct : Json.DistinctMembers members) {left : Nat} (height : Json.membersHeight members ≤ left)
    (acc : List (Str × Json F)) (unique : ((acc ++ members).map Prod.fst).Nodup) {fuel : Nat}
    (enough : members.length ≤ fuel) (rest : Str) {count : Nat}
    (room : count + Json.membersValues members ≤ nodes) :
    parseMembers (parseValue D nodes limitCode left) fuel acc ⟨text ++ rest, count⟩ =
      .ok (.object (acc ++ members), ⟨rest, count + Json.membersValues members⟩) := by
  cases members with
  | nil => cases written
  | cons m others =>
      obtain ⟨key, v⟩ := m
      obtain ⟨fuel, rfl⟩ : ∃ f, fuel = f + 1 := ⟨fuel - 1, by simp only [List.length_cons] at enough; omega⟩
      have fresh : key ∉ acc.map Prod.fst := by
        rw [List.map_append, List.map_cons, List.nodup_append] at unique
        exact fun mem => unique.2.2 key mem key List.mem_cons_self rfl
      rw [Json.membersValues] at room
      rw [Json.membersHeight, max_le_iff] at height
      have quoted {name : Str} (named : StringText name key) (s : Str) : Solid (name ++ s) := by
        obtain ⟨inner, rfl, -⟩ := named
        exact solid_cons _ rfl
      cases written with
      | @last before name colon text after after' _ _ space named space₁ space₂ value space₃ =>
          have grouped : before ++ name ++ colon ++ ':' :: (after ++ text ++ after' ++ ['\x7d']) ++ rest =
              before ++ (name ++ (colon ++ ':' :: (after ++ text ++ (after' ++ '\x7d' :: rest)))) := by
            simp only [List.append_assoc, List.cons_append, List.nil_append]
          have item := parseValue_complete v value distinct.1 height.1 space₂
            (ends_space rest space₃ (.inr (.inr rfl))) (show count + v.values ≤ nodes by omega)
          rw [grouped, parseMembers]
          dsimp only
          rw [skip_solid space (quoted named _), bind_ok]
          refine ⟨_, parseString_complete named _ _, ?_⟩
          dsimp only
          rw [seq_ok, require_ok, bind_ok]
          refine ⟨fresh, _, next_skip space₁ rfl _ _, ?_⟩
          dsimp only
          rw [seq_ok, require_ok, bind_ok]
          refine ⟨rfl, _, item, ?_⟩
          dsimp only
          rw [bind_ok]
          exact ⟨_, next_skip space₃ rfl rest _, rfl⟩
      | @more before name colon text after after' _ text' _ _ space named space₁ space₂ value space₃ others' =>
          have grouped : before ++ name ++ colon ++ ':' :: (after ++ text ++ after' ++ ',' :: text') ++ rest =
              before ++ (name ++ (colon ++ ':' :: (after ++ text ++ (after' ++ ',' :: (text' ++ rest))))) := by
            simp only [List.append_assoc, List.cons_append]
          have item := parseValue_complete v value distinct.1 height.1 space₂
            (ends_space (text' ++ rest) space₃ (.inl rfl)) (show count + v.values ≤ nodes by omega)
          have tail := parseMembers_complete others others' distinct.2 height.2 (acc ++ [(key, v)])
            (by simpa using unique) (show others.length ≤ fuel by simp only [List.length_cons] at enough; omega) rest
            (show count + v.values + Json.membersValues others ≤ nodes by omega)
          rw [grouped, parseMembers]
          dsimp only
          rw [skip_solid space (quoted named _), bind_ok]
          refine ⟨_, parseString_complete named _ _, ?_⟩
          dsimp only
          rw [seq_ok, require_ok, bind_ok]
          refine ⟨fresh, _, next_skip space₁ rfl _ _, ?_⟩
          dsimp only
          rw [seq_ok, require_ok, bind_ok]
          refine ⟨rfl, _, item, ?_⟩
          dsimp only
          rw [bind_ok]
          refine ⟨_, next_skip space₃ rfl _ _, ?_⟩
          dsimp only
          rw [if_neg (by decide), if_pos rfl, tail, Json.membersValues, Nat.add_assoc, List.append_assoc]
          rfl

end

end Complete

/-! ## The fuel is never used up -/

/-- A parser that ends with a value or a rejection, and goes forward. -/
structure Settles (item : Parser (Json F)) : Prop where
  ends : ∀ cur, item cur ≠ .error .stuck
  forward : ∀ cur v cur', item cur = .ok (v, cur') → cur'.rest.length ≤ cur.rest.length

theorem skip_length (cur : Cursor) : cur.skip.rest.length ≤ cur.rest.length :=
  List.length_dropWhile_le isWhitespace cur.rest

theorem parseString_ends (cur : Cursor) : parseString cur ≠ .error .stuck := by
  unfold parseString
  split
  · split
    · exact fun same => nomatch same
    · split <;> exact fun same => nomatch same
  · exact fun same => nomatch same

theorem next_ends (cur : Cursor) : next cur ≠ .error .stuck := by
  unfold next
  split <;> exact fun same => nomatch same

theorem require_ends {condition : Prop} [Decidable condition] {code : Code} : require condition code ≠ .error .stuck := by
  unfold require
  split <;> exact fun same => nomatch same

theorem next_forward {cur cur' : Cursor} {c : Char} (read : next cur = .ok (c, cur')) :
    cur'.rest.length < cur.rest.length := by
  rw [(next_ok.1 read).1, List.length_cons]
  exact Nat.lt_succ_self _

theorem parseItems_ends {item : Parser (Json F)} (settles : Settles item) {fuel : Nat} {acc : List (Json F)}
    {cur : Cursor} (enough : cur.rest.length < fuel) : parseItems item fuel acc cur ≠ .error .stuck := by
  induction fuel generalizing acc cur with
  | zero => exact absurd enough (Nat.not_lt_zero _)
  | succ fuel ih =>
      intro stuck
      rw [parseItems, bind_error] at stuck
      rcases stuck with stuck | ⟨⟨v, cur₁⟩, item_, stuck⟩
      · exact settles.ends _ stuck
      dsimp only at stuck
      rw [bind_error] at stuck
      rcases stuck with stuck | ⟨⟨sep, cur₂⟩, next_, stuck⟩
      · exact next_ends _ stuck
      dsimp only at stuck
      split at stuck
      · cases stuck
      split at stuck
      · have first := skip_length cur
        have second := settles.forward _ _ _ item_
        have third := skip_length cur₁
        have fourth := next_forward next_
        exact ih (by omega) stuck
      · cases stuck

theorem parseMembers_ends {item : Parser (Json F)} (settles : Settles item) {fuel : Nat}
    {acc : List (Str × Json F)} {cur : Cursor} (enough : cur.rest.length < fuel) :
    parseMembers item fuel acc cur ≠ .error .stuck := by
  induction fuel generalizing acc cur with
  | zero => exact absurd enough (Nat.not_lt_zero _)
  | succ fuel ih =>
      intro stuck
      rw [parseMembers, bind_error] at stuck
      rcases stuck with stuck | ⟨⟨key, cur₁⟩, name_, stuck⟩
      · exact parseString_ends _ stuck
      dsimp only at stuck
      rw [bind_error] at stuck
      rcases stuck with stuck | ⟨_, _, stuck⟩
      · exact require_ends stuck
      rw [bind_error] at stuck
      rcases stuck with stuck | ⟨⟨colon, cur₂⟩, colon_, stuck⟩
      · exact next_ends _ stuck
      dsimp only at stuck
      rw [bind_error] at stuck
      rcases stuck with stuck | ⟨_, _, stuck⟩
      · exact require_ends stuck
      rw [bind_error] at stuck
      rcases stuck with stuck | ⟨⟨v, cur₃⟩, item_, stuck⟩
      · exact settles.ends _ stuck
      dsimp only at stuck
      rw [bind_error] at stuck
      rcases stuck with stuck | ⟨⟨sep, cur₄⟩, next_, stuck⟩
      · exact next_ends _ stuck
      dsimp only at stuck
      split at stuck
      · cases stuck
      split at stuck
      · have first := skip_length cur
        obtain ⟨name, split, -⟩ := parseString_sound name_
        have second : cur₁.rest.length ≤ cur.skip.rest.length := by
          rw [split, List.length_append]
          exact Nat.le_add_left _ _
        have third := skip_length cur₁
        have fourth := next_forward colon_
        have fifth := settles.forward _ _ _ item_
        have sixth := skip_length cur₃
        have seventh := next_forward next_
        exact ih (by omega) stuck
      · cases stuck

theorem parseScalar_ends (cur : Cursor) : parseScalar D cur ≠ .error .stuck := by
  unfold parseScalar
  split
  · exact fun same => nomatch same
  split
  · exact fun same => nomatch same
  split
  · exact fun same => nomatch same
  split
  · exact fun same => nomatch same
  · split <;> exact fun same => nomatch same

theorem parseBody_ends {item : Parser (Json F)} (settles : Settles item) (cur : Cursor) :
    parseBody D item cur ≠ .error .stuck := by
  unfold parseBody
  split
  · exact fun same => nomatch same
  · intro stuck
    cases read : parseString cur with
    | ok result => rw [read] at stuck; cases stuck
    | error failure =>
        rw [read] at stuck
        exact parseString_ends cur (read.trans (congrArg Except.error (Except.error.inj stuck)))
  · unfold parseObject
    dsimp only
    split
    · exact fun same => nomatch same
    · exact parseMembers_ends settles (Nat.lt_succ_self _)
  · unfold parseArray
    dsimp only
    split
    · exact fun same => nomatch same
    · exact parseItems_ends settles (Nat.lt_succ_self _)
  · exact parseScalar_ends D cur

theorem parseValue_settles (nodes : Nat) (limitCode : Code) (left : Nat) :
    Settles (parseValue D nodes limitCode left) := by
  refine ⟨?_, fun cur v cur' read => ?_⟩
  · induction left with
    | zero => exact fun cur same => nomatch same
    | succ left ih =>
        intro cur stuck
        have settles : Settles (parseValue D nodes limitCode left) := by
          refine ⟨ih, fun cur v cur' read => ?_⟩
          obtain ⟨⟨before, text, split, -⟩, -⟩ := parseValue_sound D nodes limitCode left _ _ _ read
          rw [split, List.length_append]
          exact Nat.le_add_left _ _
        rw [parseValue, bind_error] at stuck
        rcases stuck with stuck | ⟨_, _, stuck⟩
        · exact require_ends stuck
        · exact parseBody_ends D settles _ stuck
  · obtain ⟨⟨before, text, split, -⟩, -⟩ := parseValue_sound D nodes limitCode left _ _ _ read
    rw [split, List.length_append]
    exact Nat.le_add_left _ _

/-! ## The parser and the grammar -/

theorem decodeStrict_iff {raw : Bytes} {text : Str} : decodeStrict raw = some text ↔ raw = utf8 text := by
  have bytes (a b : Bytes) : a.toByteArray = b.toByteArray ↔ a = b := by
    refine ⟨fun same => ?_, fun same => by rw [same]⟩
    have data := congrArg ByteArray.data same
    rw [List.data_toByteArray, List.data_toByteArray] at data
    exact List.toArray_inj data
  rw [decodeStrict, Option.map_eq_some_iff]
  constructor
  · rintro ⟨chars, decoded, rfl⟩
    have some_ : raw.toByteArray.utf8Decode?.isSome = true := by rw [decoded]; rfl
    have encoded := ByteArray.utf8Encode_get_utf8Decode? (h := some_)
    rw [Option.get_of_eq_some some_ decoded] at encoded
    exact (bytes _ _).1 encoded.symm
  · rintro rfl
    exact ⟨text.toArray, List.utf8Decode?_utf8Encode, rfl⟩

variable (limits : Limits) (limitCode : Code)

/-- **The parser accepts exactly the grammar.** -/
theorem boundedJson_iff {raw : Bytes} {v : Json F} :
    boundedJson D limits limitCode raw = .ok v ↔ Bounded D limits raw v := by
  rw [boundedJson, seq_ok, require_ok]
  constructor
  · rintro ⟨size, read⟩
    split at read
    · cases read
    · next text decoded =>
      rw [bind_ok] at read
      obtain ⟨⟨w, cur⟩, parsed, read⟩ := read
      dsimp only at read
      rw [seq_ok, require_ok] at read
      obtain ⟨⟨closed, object⟩, same⟩ := read
      obtain rfl := Except.ok.inj same
      obtain ⟨⟨before, inner, split, space, written⟩, distinct, height, count, bound⟩ :=
        parseValue_sound D _ _ _ _ _ _ parsed
      obtain ⟨after, split', space', -⟩ := skip_split cur
      rw [closed, List.append_nil] at split'
      rw [count] at bound
      refine ⟨size, ⟨before, inner, after, ?_, space, space', written⟩, object, distinct,
        Nat.le_of_succ_le_succ height, by simpa using bound⟩
      rw [← split', ← split]
      exact decodeStrict_iff.1 decoded
  · rintro ⟨size, ⟨before, inner, after, rfl, space, space', written⟩, object, distinct, height, values⟩
    refine ⟨size, ?_⟩
    rw [decodeStrict_iff.2 rfl]
    dsimp only
    have ends : Ends after := by
      intro c head
      exact .inl (space' c (List.mem_of_mem_head? head))
    have parsed := parseValue_complete D limits.nodes limitCode v written distinct (Nat.succ_le_succ height) space ends
      (show 0 + v.values ≤ limits.nodes by omega)
    rw [bind_ok]
    refine ⟨_, parsed, ?_⟩
    dsimp only
    rw [seq_ok, require_ok]
    have closed := skip_solid (s := []) space' (fun _ none_ => nomatch none_) (0 + v.values)
    rw [List.append_nil] at closed
    rw [closed]
    exact ⟨⟨rfl, object⟩, rfl⟩

/-- A parse ends with a value or a rejection. -/
theorem boundedJson_ends (raw : Bytes) : (∃ v, boundedJson D limits limitCode raw = .ok v) ∨
    ∃ code, boundedJson D limits limitCode raw = .error (.rejected code) := by
  cases result : boundedJson D limits limitCode raw with
  | ok v => exact .inl ⟨v, rfl⟩
  | error failure =>
      cases failure with
      | rejected code => exact .inr ⟨code, rfl⟩
      | stuck =>
          rw [boundedJson, bind_error] at result
          rcases result with stuck | ⟨_, _, stuck⟩
          · exact absurd stuck require_ends
          split at stuck
          · cases stuck
          · rw [bind_error] at stuck
            rcases stuck with stuck | ⟨⟨w, cur⟩, -, stuck⟩
            · exact absurd stuck ((parseValue_settles D _ _ _).ends _)
            · dsimp only at stuck
              rw [bind_error] at stuck
              rcases stuck with stuck | ⟨_, _, stuck⟩
              · exact absurd stuck require_ends
              · cases stuck

end Values

end ApiSecurityPlatform.Proposals
