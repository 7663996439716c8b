/-
# Python.Json -- canonical JSON text

`json.dumps(value, sort_keys=True, separators=(",", ":"), ensure_ascii=False)` of values
made of the JSON types.  The text determines the value, member order apart
(`canonicalJson_injective`): no two values are written alike, since the first character of
a text tells its type and every text ends before a comma or a closing bracket.

Stored in a `jsonb` column and read again a value is the same, member order apart, exactly
when all its numbers are plain (`sorted_fromJsonb`).
-/
import ApiSecurityPlatform.Python.Number
import Mathlib.Data.Char
import Mathlib.Data.List.Lex
import Mathlib.Data.List.Sort

namespace ApiSecurityPlatform.Python

set_option autoImplicit false

inductive Json (F : Type) where
  | null
  | bool (b : Bool)
  | number (n : Number F)
  | string (s : Str)
  | array (items : List (Json F))
  /-- A `dict` with `str` keys, in the order of its items. -/
  | object (members : List (Str × Json F))

/-! ## Text -/

/-- One character of a quoted string, `ESCAPE` of `json.encoder`. -/
def escapeChar (c : Char) : Str :=
  if c = '"' then ['\\', '"']
  else if c = '\\' then ['\\', '\\']
  else if c = '\n' then ['\\', 'n']
  else if c = '\r' then ['\\', 'r']
  else if c = '\t' then ['\\', 't']
  else if c = Char.ofNat 12 then ['\\', 'f']
  else if c = Char.ofNat 8 then ['\\', 'b']
  else if c.toNat < 32 then ['\\', 'u', '0', '0', Nat.digitChar (c.toNat / 16), Nat.digitChar (c.toNat % 16)]
  else [c]

/-- A string from its first character to the closing quote. -/
def closeString : Str → Str
  | [] => ['"']
  | c :: rest => escapeChar c ++ closeString rest

namespace Json

variable {F : Type} (D : Doubles F)

mutual

/-- `json.dumps` of the items in the order they stand. -/
def render : Json F → Str
  | .null => "null".toList
  | .bool true => "true".toList
  | .bool false => "false".toList
  | .number n => (n.token D).text
  | .string s => '"' :: closeString s
  | .array [] => "[]".toList
  | .array (v :: rest) => '[' :: (v.render ++ closeArray rest)
  | .object [] => "\x7b\x7d".toList
  | .object ((key, v) :: rest) => '\x7b' :: '"' :: (closeString key ++ ':' :: (v.render ++ closeObject rest))

/-- The further items of an array. -/
def closeArray : List (Json F) → Str
  | [] => [']']
  | v :: rest => ',' :: (v.render ++ closeArray rest)

def closeObject : List (Str × Json F) → Str
  | [] => ['\x7d']
  | (key, v) :: rest => ',' :: '"' :: (closeString key ++ ':' :: (v.render ++ closeObject rest))

end

/-- Members by their keys, in the order of code points. -/
def keyLe (a b : Str × Json F) : Prop := a.1 ≤ b.1

instance : DecidableRel (keyLe (F := F)) := fun a b => inferInstanceAs (Decidable (a.1 ≤ b.1))

mutual

/-- Every object with its members sorted. -/
def sorted : Json F → Json F
  | .array items => .array (sortedItems items)
  | .object members => .object ((sortedMembers members).insertionSort keyLe)
  | v => v

def sortedItems : List (Json F) → List (Json F)
  | [] => []
  | v :: rest => v.sorted :: sortedItems rest

def sortedMembers : List (Str × Json F) → List (Str × Json F)
  | [] => []
  | (key, v) :: rest => (key, v.sorted) :: sortedMembers rest

end

/-- `_canonical_json`. -/
def canonicalJson (v : Json F) : Str := v.sorted.render D

end Json

/-! ## The text of a string -/

theorem escapeChar_large {c : Char} (large : 93 ≤ c.toNat) : escapeChar c = [c] := by
  have other (d : Char) (small : d.toNat < 93) : c ≠ d := by
    rintro rfl
    omega
  rw [escapeChar, if_neg (other _ (by decide)), if_neg (other _ (by decide)), if_neg (other _ (by decide)),
    if_neg (other _ (by decide)), if_neg (other _ (by decide)), if_neg (other _ (by decide)),
    if_neg (other _ (by decide)), if_neg (by omega)]

theorem escapeChar_small {c : Char} (small : c.toNat < 93) :
    (∀ d : Char, d.toNat < 93 → escapeChar c <+: escapeChar d → c = d) ∧
      ∃ e rest, escapeChar c = e :: rest ∧ e ≠ '"' ∧ e.toNat < 93 := by
  have all : ∀ n < 93, (∀ m < 93, escapeChar (Char.ofNat n) <+: escapeChar (Char.ofNat m) → n = m) ∧
      ((escapeChar (Char.ofNat n)).head?.all fun e => e != '"' && decide (e.toNat < 93)) = true ∧
      escapeChar (Char.ofNat n) ≠ [] := by
    decide +kernel
  obtain ⟨free, first, some_⟩ := all c.toNat small
  rw [Char.ofNat_toNat] at free first some_
  constructor
  · intro d small' leads
    refine Char.toNat_inj.1 (free d.toNat small' ?_)
    rwa [Char.ofNat_toNat]
  · obtain ⟨e, rest, shape⟩ := List.exists_cons_of_ne_nil some_
    rw [shape, List.head?_cons, Option.all_some, Bool.and_eq_true, bne_iff_ne, decide_eq_true_eq] at first
    exact ⟨e, rest, shape, first.1, first.2⟩

theorem escapeChar_head (c : Char) : ∃ e rest, escapeChar c = e :: rest ∧ e ≠ '"' ∧ (e.toNat < 93 ↔ c.toNat < 93) := by
  by_cases small : c.toNat < 93
  · obtain ⟨e, rest, shape, other, bound⟩ := (escapeChar_small small).2
    exact ⟨e, rest, shape, other, iff_of_true bound small⟩
  · refine ⟨c, [], escapeChar_large (by omega), ?_, Iff.rfl⟩
    rintro rfl
    exact small (by decide)

/-- No escape is the beginning of another. -/
theorem escapeChar_free {c d : Char} (leads : escapeChar c <+: escapeChar d) : c = d := by
  obtain ⟨e, rest, shape, -, bound⟩ := escapeChar_head c
  obtain ⟨e', rest', shape', -, bound'⟩ := escapeChar_head d
  have first : e = e' := by
    rw [shape, shape'] at leads
    exact (List.cons_prefix_cons.1 leads).1
  by_cases small : c.toNat < 93
  · have small' : d.toNat < 93 := bound'.1 (first ▸ bound.2 small)
    exact (escapeChar_small small).1 d small' leads
  · have large' : 93 ≤ d.toNat := by
      by_contra below
      exact small (bound.1 (first ▸ bound'.2 (by omega)))
    rw [escapeChar_large (by omega), escapeChar_large large'] at leads
    exact (List.cons_prefix_cons.1 leads).1

theorem escapeChar_tail {c d : Char} {x y : Str} (same : escapeChar c ++ x = escapeChar d ++ y) : c = d ∧ x = y := by
  have one : escapeChar c <+: escapeChar d ∨ escapeChar d <+: escapeChar c :=
    List.prefix_or_prefix_of_prefix (List.prefix_append _ x) (same ▸ List.prefix_append _ y)
  have equal : c = d := one.elim escapeChar_free fun leads => (escapeChar_free leads).symm
  subst equal
  exact ⟨rfl, List.append_cancel_left same⟩

theorem closeString_tail {a b x y : Str} (same : closeString a ++ x = closeString b ++ y) : a = b ∧ x = y := by
  have closed (c : Char) (rest x y : Str) : escapeChar c ++ rest ++ x ≠ '"' :: y := by
    intro equal
    obtain ⟨e, more, shape, other, -⟩ := escapeChar_head c
    rw [shape, List.cons_append, List.cons_append, List.cons.injEq] at equal
    exact other equal.1
  induction a generalizing b with
  | nil =>
      cases b with
      | nil => exact ⟨rfl, List.append_cancel_left same⟩
      | cons d rest => exact absurd same.symm (closed d _ _ _)
  | cons c rest ih =>
      cases b with
      | nil => exact absurd same (closed c _ _ _)
      | cons d rest' =>
          rw [closeString, closeString, List.append_assoc, List.append_assoc] at same
          obtain ⟨rfl, more⟩ := escapeChar_tail same
          obtain ⟨rfl, ends⟩ := ih more
          exact ⟨rfl, ends⟩

/-! ## The text determines the value -/

namespace Json

variable {F : Type} (D : Doubles F)

/-- What may follow a value. -/
def Stops (s : Str) : Prop := ∀ c ∈ s.head?, c = ',' ∨ c = ']' ∨ c = '\x7d'

theorem closeArray_stops (items : List (Json F)) (s : Str) : Stops (closeArray D items ++ s) := by
  cases items <;> simp [closeArray, Stops]

theorem closeObject_stops (members : List (Str × Json F)) (s : Str) : Stops (closeObject D members ++ s) := by
  cases members <;> simp [closeObject, Stops]

theorem takeWhile_number {a s : Str} (chars : ∀ c ∈ a, Number.isChar c = true) (stops : Stops s) :
    (a ++ s).takeWhile Number.isChar = a := by
  rw [List.takeWhile_append_of_pos chars]
  cases s with
  | nil => simp
  | cons c rest =>
      have foreign : Number.isChar c = false := by
        rcases stops c rfl with rfl | rfl | rfl <;> decide
      simp [foreign]

theorem number_tail {a b s t : Str} (first : ∀ c ∈ a, Number.isChar c = true)
    (second : ∀ c ∈ b, Number.isChar c = true) (stops : Stops s) (stops' : Stops t) (same : a ++ s = b ++ t) :
    a = b ∧ s = t := by
  have equal : a = b := by
    rw [← takeWhile_number first stops, same, takeWhile_number second stops']
  subst equal
  exact ⟨rfl, List.append_cancel_left same⟩

/-- The type of a value. -/
def shape : Json F → Nat
  | .null => 0
  | .bool _ => 1
  | .number _ => 2
  | .string _ => 3
  | .array _ => 4
  | .object _ => 5

/-- The type a text begins like. -/
def shapeOf (c : Char) : Nat :=
  if c = 'n' then 0 else if c = 't' ∨ c = 'f' then 1 else if c = '"' then 3 else if c = '[' then 4
  else if c = '\x7b' then 5 else if c = ']' then 6 else 2

theorem shapeOf_number {c : Char} (number : Number.isChar c = true) : shapeOf c = 2 := by
  have other (d : Char) (foreign : Number.isChar d = false) : c ≠ d := by
    rintro rfl
    rw [number] at foreign
    cases foreign
  rw [shapeOf, if_neg (other _ (by decide)), if_neg (not_or.2 ⟨other _ (by decide), other _ (by decide)⟩),
    if_neg (other _ (by decide)), if_neg (other _ (by decide)), if_neg (other _ (by decide)),
    if_neg (other _ (by decide))]

theorem render_head (v : Json F) : ∃ c rest, v.render D = c :: rest ∧ shapeOf c = v.shape := by
  cases v with
  | null => exact ⟨'n', _, rfl, rfl⟩
  | bool b => cases b <;> exact ⟨_, _, rfl, rfl⟩
  | number n =>
      have wellFormed := n.token_wellFormed D
      obtain ⟨c, rest, text⟩ := List.exists_cons_of_ne_nil (Number.text_ne_nil wellFormed)
      refine ⟨c, rest, text, shapeOf_number (Number.text_chars wellFormed c ?_)⟩
      rw [text]
      exact List.mem_cons_self
  | string s => exact ⟨'"', _, rfl, rfl⟩
  | array items => cases items <;> exact ⟨'[', _, rfl, rfl⟩
  | object members => cases members <;> exact ⟨'\x7b', _, rfl, rfl⟩

theorem shape_eq {v w : Json F} {s t : Str} (same : v.render D ++ s = w.render D ++ t) : v.shape = w.shape := by
  obtain ⟨c, rest, text, lead⟩ := render_head D v
  obtain ⟨c', rest', text', lead'⟩ := render_head D w
  rw [text, text', List.cons_append, List.cons_append, List.cons.injEq] at same
  rw [← lead, ← lead', same.1]

theorem empty_array_apart (v : Json F) (rest : List (Json F)) (s t : Str) :
    (array [] : Json F).render D ++ s ≠ (array (v :: rest)).render D ++ t := by
  intro same
  obtain ⟨c, more, text, lead⟩ := render_head D v
  have second := congrArg (fun l => l[1]?) same
  rw [render, render, text] at second
  have closing : ']' = c := by simpa using second
  rw [← closing] at lead
  cases v <;> cases lead

mutual

theorem render_tail (v w : Json F) {s t : Str} (stops : Stops s) (stops' : Stops t)
    (same : v.render D ++ s = w.render D ++ t) : v = w ∧ s = t := by
  have shapes := shape_eq D same
  cases v with
  | null =>
      cases w <;> cases shapes
      exact ⟨rfl, List.append_cancel_left same⟩
  | bool b =>
      cases w <;> cases shapes
      next b' =>
      cases b <;> cases b' <;> first | exact ⟨rfl, List.append_cancel_left same⟩ | simp [render] at same
  | number n =>
      cases w <;> cases shapes
      next m =>
      obtain ⟨text, ends⟩ := number_tail (Number.text_chars (n.token_wellFormed D))
        (Number.text_chars (m.token_wellFormed D)) stops stops' same
      rw [Number.text_injective D text]
      exact ⟨rfl, ends⟩
  | string a =>
      cases w <;> cases shapes
      next b =>
      rw [render, render, List.cons_append, List.cons_append, List.cons.injEq] at same
      obtain ⟨rfl, ends⟩ := closeString_tail same.2
      exact ⟨rfl, ends⟩
  | array items =>
      cases w <;> cases shapes
      next items' =>
      cases items with
      | nil =>
          cases items' with
          | nil => exact ⟨rfl, List.append_cancel_left same⟩
          | cons w rest' => exact absurd same (empty_array_apart D w rest' s t)
      | cons v rest =>
          cases items' with
          | nil => exact absurd same.symm (empty_array_apart D v rest t s)
          | cons w rest' =>
              rw [render, render, List.cons_append, List.cons_append, List.cons.injEq, List.append_assoc,
                List.append_assoc] at same
              obtain ⟨rfl, more⟩ := render_tail v w (closeArray_stops D rest s) (closeArray_stops D rest' t) same.2
              obtain ⟨rfl, ends⟩ := closeArray_tail rest rest' more
              exact ⟨rfl, ends⟩
  | object members =>
      cases w <;> cases shapes
      next members' =>
      cases members with
      | nil =>
          cases members' with
          | nil => exact ⟨rfl, List.append_cancel_left same⟩
          | cons member rest' =>
              have second := congrArg (fun l => l[1]?) same
              simp [render] at second
      | cons member rest =>
          obtain ⟨key, v⟩ := member
          cases members' with
          | nil =>
              have second := congrArg (fun l => l[1]?) same
              simp [render] at second
          | cons member' rest' =>
              obtain ⟨key', w⟩ := member'
              rw [render, render, List.cons_append, List.cons_append, List.cons_append, List.cons_append,
                List.cons.injEq, List.cons.injEq, List.append_assoc, List.append_assoc] at same
              obtain ⟨rfl, value⟩ := closeString_tail same.2.2
              rw [List.cons_append, List.cons_append, List.cons.injEq, List.append_assoc, List.append_assoc] at value
              obtain ⟨rfl, more⟩ := render_tail v w (closeObject_stops D rest s) (closeObject_stops D rest' t) value.2
              obtain ⟨rfl, ends⟩ := closeObject_tail rest rest' more
              exact ⟨rfl, ends⟩

theorem closeArray_tail (items items' : List (Json F)) {s t : Str}
    (same : closeArray D items ++ s = closeArray D items' ++ t) : items = items' ∧ s = t := by
  cases items with
  | nil =>
      cases items' with
      | nil => exact ⟨rfl, List.append_cancel_left same⟩
      | cons w rest' => simp [closeArray] at same
  | cons v rest =>
      cases items' with
      | nil => simp [closeArray] at same
      | cons w rest' =>
          rw [closeArray, closeArray, List.cons_append, List.cons_append, List.cons.injEq, List.append_assoc,
            List.append_assoc] at same
          obtain ⟨rfl, more⟩ := render_tail v w (closeArray_stops D rest s) (closeArray_stops D rest' t) same.2
          obtain ⟨rfl, ends⟩ := closeArray_tail rest rest' more
          exact ⟨rfl, ends⟩

theorem closeObject_tail (members members' : List (Str × Json F)) {s t : Str}
    (same : closeObject D members ++ s = closeObject D members' ++ t) : members = members' ∧ s = t := by
  cases members with
  | nil =>
      cases members' with
      | nil => exact ⟨rfl, List.append_cancel_left same⟩
      | cons member' rest' => simp [closeObject] at same
  | cons member rest =>
      obtain ⟨key, v⟩ := member
      cases members' with
      | nil => simp [closeObject] at same
      | cons member' rest' =>
          obtain ⟨key', w⟩ := member'
          rw [closeObject, closeObject, List.cons_append, List.cons_append, List.cons_append, List.cons_append,
            List.cons.injEq, List.cons.injEq, List.append_assoc, List.append_assoc] at same
          obtain ⟨rfl, value⟩ := closeString_tail same.2.2
          rw [List.cons_append, List.cons_append, List.cons.injEq, List.append_assoc, List.append_assoc] at value
          obtain ⟨rfl, more⟩ := render_tail v w (closeObject_stops D rest s) (closeObject_stops D rest' t) value.2
          obtain ⟨rfl, ends⟩ := closeObject_tail rest rest' more
          exact ⟨rfl, ends⟩

end

theorem render_injective {v w : Json F} (same : v.render D = w.render D) : v = w := by
  have stops : Stops [] := fun c none_ => nomatch none_
  refine (render_tail D v w stops stops ?_).1
  rw [same]

theorem canonicalJson_injective {v w : Json F} (same : v.canonicalJson D = w.canonicalJson D) :
    v.sorted = w.sorted :=
  render_injective D same

/-! ## `jsonb` -/

/-- The members of a `jsonb` object stand by the length of their keys, then by bytes. -/
def jsonbLe (a b : Str × Json F) : Prop :=
  (a.1.map Char.utf8Size).sum < (b.1.map Char.utf8Size).sum ∨
    (a.1.map Char.utf8Size).sum = (b.1.map Char.utf8Size).sum ∧ a.1 ≤ b.1

instance : DecidableRel (jsonbLe (F := F)) := fun _ _ => inferInstanceAs (Decidable (_ ∨ _))

mutual

/-- A value stored in a `jsonb` column and read again. -/
def fromJsonb : Json F → Json F
  | .number n => .number (n.fromJsonb D)
  | .array items => .array (itemsFromJsonb items)
  | .object members => .object ((membersFromJsonb members).insertionSort jsonbLe)
  | v => v

def itemsFromJsonb : List (Json F) → List (Json F)
  | [] => []
  | v :: rest => v.fromJsonb :: itemsFromJsonb rest

def membersFromJsonb : List (Str × Json F) → List (Str × Json F)
  | [] => []
  | (key, v) :: rest => (key, v.fromJsonb) :: membersFromJsonb rest

end

mutual

/-- No object names a key twice. -/
def Distinct : Json F → Prop
  | .array items => DistinctItems items
  | .object members => (members.map Prod.fst).Nodup ∧ DistinctMembers members
  | _ => True

def DistinctItems : List (Json F) → Prop
  | [] => True
  | v :: rest => v.Distinct ∧ DistinctItems rest

def DistinctMembers : List (Str × Json F) → Prop
  | [] => True
  | (_, v) :: rest => v.Distinct ∧ DistinctMembers rest

end

mutual

/-- Every number of the value is plain. -/
def Plain : Json F → Prop
  | .number n => n.Plain D
  | .array items => PlainItems items
  | .object members => PlainMembers members
  | _ => True

def PlainItems : List (Json F) → Prop
  | [] => True
  | v :: rest => v.Plain ∧ PlainItems rest

def PlainMembers : List (Str × Json F) → Prop
  | [] => True
  | (_, v) :: rest => v.Plain ∧ PlainMembers rest

end

theorem sortedMembers_eq (members : List (Str × Json F)) :
    sortedMembers members = members.map fun m => (m.1, m.2.sorted) := by
  induction members with
  | nil => rfl
  | cons m rest ih =>
      obtain ⟨key, v⟩ := m
      rw [sortedMembers, ih]
      rfl

theorem sortedMembers_keys (members : List (Str × Json F)) :
    (sortedMembers members).map Prod.fst = members.map Prod.fst := by
  rw [sortedMembers_eq, List.map_map]
  rfl

theorem membersFromJsonb_keys (members : List (Str × Json F)) :
    (membersFromJsonb D members).map Prod.fst = members.map Prod.fst := by
  induction members with
  | nil => rfl
  | cons m rest ih =>
      obtain ⟨key, v⟩ := m
      rw [membersFromJsonb, List.map_cons, ih]
      rfl

/-- With the same distinct keys in the same places, a permutation is an equality. -/
theorem eq_of_perm {l l' : List (Str × Json F)} (perm : l.Perm l') (keys : l.map Prod.fst = l'.map Prod.fst)
    (distinct : (l.map Prod.fst).Nodup) : l = l' := by
  induction l generalizing l' with
  | nil => exact (List.nil_perm.1 perm).symm
  | cons a rest ih =>
      cases l' with
      | nil => cases keys
      | cons b rest' =>
          rw [List.map_cons, List.map_cons, List.cons.injEq] at keys
          rw [List.map_cons, List.nodup_cons] at distinct
          have same : a = b := by
            rcases List.mem_cons.1 (perm.subset List.mem_cons_self) with same | elsewhere
            · exact same
            · exact absurd (keys.2 ▸ List.mem_map_of_mem elsewhere) distinct.1
          subst same
          rw [ih ((List.perm_cons a).1 perm) keys.2 distinct.2]

/-- Sorting forgets the order of distinct keys, and nothing else. -/
theorem sort_eq_iff {l l' : List (Str × Json F)} (distinct : (l.map Prod.fst).Nodup) :
    l.insertionSort keyLe = l'.insertionSort keyLe ↔ l.Perm l' := by
  constructor
  · intro same
    exact (List.perm_insertionSort keyLe l).symm.trans (same ▸ List.perm_insertionSort keyLe l')
  · intro perm
    have total : Std.Total (keyLe (F := F)) := ⟨fun a b => le_total a.1 b.1⟩
    have trans : IsTrans _ (keyLe (F := F)) := ⟨fun _ _ _ => le_trans⟩
    have sorted := List.pairwise_insertionSort keyLe l
    have sorted' := List.pairwise_insertionSort keyLe l'
    have perm' := (List.perm_insertionSort keyLe l).trans (perm.trans (List.perm_insertionSort keyLe l').symm)
    refine List.Perm.eq_of_pairwise ?_ sorted sorted' perm'
    intro a b inside inside' le ge
    have mem : a ∈ l := (List.perm_insertionSort keyLe l).subset inside
    have mem' : b ∈ l := perm.symm.subset ((List.perm_insertionSort keyLe l').subset inside')
    exact List.inj_on_of_nodup_map distinct mem mem' (le_antisymm le ge)

mutual

/-- **A value survives `jsonb` exactly when it is plain.** -/
theorem sorted_fromJsonb (v : Json F) (distinct : v.Distinct) :
    (v.fromJsonb D).sorted = v.sorted ↔ v.Plain D := by
  cases v with
  | null => exact iff_of_true rfl trivial
  | bool b => exact iff_of_true rfl trivial
  | string s => exact iff_of_true rfl trivial
  | number n =>
      show number (n.fromJsonb D) = number n ↔ n.Plain D
      rw [number.injEq]
      exact n.fromJsonb_eq_iff D
  | array items =>
      show array (sortedItems (itemsFromJsonb D items)) = array (sortedItems items) ↔ PlainItems D items
      rw [array.injEq]
      exact sortedItems_fromJsonb items distinct
  | object members =>
      obtain ⟨keys, nested⟩ := distinct
      show object ((sortedMembers ((membersFromJsonb D members).insertionSort jsonbLe)).insertionSort keyLe) =
        object ((sortedMembers members).insertionSort keyLe) ↔ PlainMembers D members
      have reordered : (sortedMembers ((membersFromJsonb D members).insertionSort jsonbLe)).Perm
          (sortedMembers (membersFromJsonb D members)) := by
        rw [sortedMembers_eq, sortedMembers_eq]
        exact (List.perm_insertionSort jsonbLe _).map _
      have sameKeys : (sortedMembers (membersFromJsonb D members)).map Prod.fst = members.map Prod.fst := by
        rw [sortedMembers_keys, membersFromJsonb_keys]
      have distinctKeys : ((sortedMembers (membersFromJsonb D members)).map Prod.fst).Nodup := by
        rw [sameKeys]
        exact keys
      rw [object.injEq, sort_eq_iff ((reordered.map Prod.fst).nodup_iff.2 distinctKeys),
        ← sortedMembers_fromJsonb members nested]
      constructor
      · intro perm
        exact eq_of_perm (reordered.symm.trans perm) (by rw [sameKeys, sortedMembers_keys]) distinctKeys
      · intro same
        rwa [same] at reordered

theorem sortedItems_fromJsonb (items : List (Json F)) (distinct : DistinctItems items) :
    sortedItems (itemsFromJsonb D items) = sortedItems items ↔ PlainItems D items := by
  cases items with
  | nil => exact iff_of_true rfl trivial
  | cons v rest =>
      rw [itemsFromJsonb, sortedItems, sortedItems, List.cons.injEq, sorted_fromJsonb v distinct.1,
        sortedItems_fromJsonb rest distinct.2]
      exact Iff.rfl

theorem sortedMembers_fromJsonb (members : List (Str × Json F)) (distinct : DistinctMembers members) :
    sortedMembers (membersFromJsonb D members) = sortedMembers members ↔ PlainMembers D members := by
  cases members with
  | nil => exact iff_of_true rfl trivial
  | cons member rest =>
      obtain ⟨key, v⟩ := member
      rw [membersFromJsonb, sortedMembers, sortedMembers, List.cons.injEq, Prod.mk.injEq,
        sorted_fromJsonb v distinct.1, sortedMembers_fromJsonb rest distinct.2, eq_self_iff_true, true_and]
      exact Iff.rfl

end

/-! ## Sorted values -/

/-- Two objects with the same distinct keys in the same places. -/
theorem sortedMembers_of_sorted {members members' : List (Str × Json F)}
    (same : (object members).sorted = (object members').sorted)
    (keys : members.map Prod.fst = members'.map Prod.fst) (distinct : (members.map Prod.fst).Nodup) :
    sortedMembers members = sortedMembers members' := by
  rw [sorted, sorted, object.injEq] at same
  have distinct' : ((sortedMembers members).map Prod.fst).Nodup := by
    rwa [sortedMembers_keys]
  exact eq_of_perm ((sort_eq_iff distinct').1 same) (by rw [sortedMembers_keys, sortedMembers_keys, keys]) distinct'

theorem distinctItems_iff (items : List (Json F)) : DistinctItems items ↔ ∀ v ∈ items, v.Distinct := by
  induction items with
  | nil => simp [DistinctItems]
  | cons v rest ih => simp [DistinctItems, ih]

theorem distinctMembers_iff (members : List (Str × Json F)) :
    DistinctMembers members ↔ ∀ m ∈ members, m.2.Distinct := by
  induction members with
  | nil => simp [DistinctMembers]
  | cons m rest ih => simp [DistinctMembers, ih]

theorem plainMembers_iff (members : List (Str × Json F)) : PlainMembers D members ↔ ∀ m ∈ members, m.2.Plain D := by
  induction members with
  | nil => simp [PlainMembers]
  | cons m rest ih => simp [PlainMembers, ih]

mutual

theorem sorted_distinct (v : Json F) (distinct : v.Distinct) : v.sorted.Distinct := by
  cases v with
  | array items => exact sortedItems_distinct items distinct
  | object members =>
      have perm := List.perm_insertionSort keyLe (sortedMembers members)
      refine ⟨(perm.map Prod.fst).nodup_iff.2 ?_, (distinctMembers_iff _).2 fun m mem => ?_⟩
      · rw [sortedMembers_keys]
        exact distinct.1
      · exact (distinctMembers_iff _).1 (sortedMembers_distinct members distinct.2) m (perm.subset mem)
  | null => trivial
  | bool b => trivial
  | number n => trivial
  | string s => trivial

theorem sortedItems_distinct (items : List (Json F)) (distinct : DistinctItems items) :
    DistinctItems (sortedItems items) := by
  cases items with
  | nil => trivial
  | cons v rest => exact ⟨sorted_distinct v distinct.1, sortedItems_distinct rest distinct.2⟩

theorem sortedMembers_distinct (members : List (Str × Json F)) (distinct : DistinctMembers members) :
    DistinctMembers (sortedMembers members) := by
  cases members with
  | nil => trivial
  | cons m rest => exact ⟨sorted_distinct m.2 distinct.1, sortedMembers_distinct rest distinct.2⟩

end

mutual

theorem sorted_plain (v : Json F) : v.sorted.Plain D ↔ v.Plain D := by
  cases v with
  | array items => exact sortedItems_plain items
  | object members =>
      refine Iff.trans ?_ (sortedMembers_plain members)
      show PlainMembers D ((sortedMembers members).insertionSort keyLe) ↔ _
      rw [plainMembers_iff, plainMembers_iff]
      simp only [List.mem_insertionSort]
  | null => exact Iff.rfl
  | bool b => exact Iff.rfl
  | number n => exact Iff.rfl
  | string s => exact Iff.rfl

theorem sortedItems_plain (items : List (Json F)) : PlainItems D (sortedItems items) ↔ PlainItems D items := by
  cases items with
  | nil => exact Iff.rfl
  | cons v rest => exact and_congr (sorted_plain v) (sortedItems_plain rest)

theorem sortedMembers_plain (members : List (Str × Json F)) :
    PlainMembers D (sortedMembers members) ↔ PlainMembers D members := by
  cases members with
  | nil => exact Iff.rfl
  | cons m rest => exact and_congr (sorted_plain m.2) (sortedMembers_plain rest)

end

mutual

theorem sorted_sorted (v : Json F) : v.sorted.sorted = v.sorted := by
  cases v with
  | array items =>
      rw [sorted, sorted, sortedItems_sorted]
  | object members =>
      have fixed := sortedMembers_sorted members
      rw [sortedMembers_eq (sortedMembers members)] at fixed
      have each : ∀ m ∈ sortedMembers members, (m.1, m.2.sorted) = id m :=
        List.map_eq_map_iff.1 (fixed.trans (List.map_id _).symm)
      have kept : sortedMembers ((sortedMembers members).insertionSort keyLe) =
          (sortedMembers members).insertionSort keyLe := by
        rw [sortedMembers_eq]
        refine (List.map_congr_left fun m mem => ?_).trans (List.map_id _)
        exact each m ((List.mem_insertionSort keyLe).1 mem)
      have total : Std.Total (keyLe (F := F)) := ⟨fun a b => le_total a.1 b.1⟩
      have trans : IsTrans _ (keyLe (F := F)) := ⟨fun _ _ _ => le_trans⟩
      rw [sorted, sorted, kept, (List.pairwise_insertionSort keyLe _).insertionSort_eq]
  | null => rfl
  | bool b => rfl
  | number n => rfl
  | string s => rfl

theorem sortedItems_sorted (items : List (Json F)) : sortedItems (sortedItems items) = sortedItems items := by
  cases items with
  | nil => rfl
  | cons v rest => rw [sortedItems, sortedItems, sorted_sorted v, sortedItems_sorted rest]

theorem sortedMembers_sorted (members : List (Str × Json F)) :
    sortedMembers (sortedMembers members) = sortedMembers members := by
  cases members with
  | nil => rfl
  | cons m rest =>
      obtain ⟨key, v⟩ := m
      rw [sortedMembers, sortedMembers, sorted_sorted v, sortedMembers_sorted rest]

end

end Json

end ApiSecurityPlatform.Python
