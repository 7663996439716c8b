/-
# Ports.Extent -- how deep and how many

The layouts bound the levels of an accepted value (`Typed.height`), and the bytes of a value
bound how many values it is made of (`values_size`): two bytes for each, a digit and a comma.
A member of an object takes three bytes more, so a record is made of fewer values still
(`record_values`).
-/
import ApiSecurityPlatform.Ports.Identity

namespace ApiSecurityPlatform.Ports

open ApiSecurityPlatform.Theory
open ApiSecurityPlatform.Python
open ApiSecurityPlatform.Proposals (Bytes Floats Limits Bounded boundedJson canonical utf8 size size_cons size_append
  size_literal closeString_text canonicalSize itemsSize membersSize canonical_length)

set_option autoImplicit false

/-! ## Levels -/

mutual

/-- The levels of a value of a kind, at most. -/
def Kind.height : Kind → Nat
  | .leaf _ => 0
  | .nullable kind => kind.height
  | .array element _ _ => element.height + 1
  | .record layout => layout.height

/-- `format` is one level down. -/
def Layout.height : Layout → Nat
  | .mk _ fields => max 1 (fieldsHeight fields)

def fieldsHeight : List (Str × Kind) → Nat
  | [] => 0
  | (_, kind) :: rest => max (kind.height + 1) (fieldsHeight rest)

end

theorem height_of_field {fields : List (Str × Kind)} {field : Str × Kind} (mem : field ∈ fields) :
    field.2.height + 1 ≤ fieldsHeight fields := by
  induction fields with
  | nil => cases mem
  | cons first rest ih =>
      obtain ⟨key, kind⟩ := first
      rw [fieldsHeight]
      rcases List.mem_cons.1 mem with rfl | behind
      · exact Nat.le_max_left _ _
      · exact Nat.le_trans (ih behind) (Nat.le_max_right _ _)

theorem height_of (name : Name) : (Layout.of name).height ≤ 5 := by
  cases name <;> decide +kernel

theorem itemsHeight_le {F : Type} {items : List (Json F)} {n : Nat} (each : ∀ v ∈ items, v.height ≤ n) :
    Json.itemsHeight items ≤ n + 1 := by
  induction items with
  | nil => exact Nat.zero_le _
  | cons v rest ih =>
      rw [Json.itemsHeight]
      exact max_le (Nat.succ_le_succ (each v List.mem_cons_self)) (ih fun w mem => each w (List.mem_cons_of_mem v mem))

variable {F : Type} (D : Floats F) (U : Decimals)

theorem Typed.height {kind : Kind} {v : Json F} (typed : Typed D U kind v) (distinct : v.Distinct) :
    v.height ≤ kind.height := by
  induction typed with
  | leaf admitted =>
      rcases Leaf.admits_cases U admitted with ⟨-, b, rfl⟩ | ⟨-, n, rfl⟩ | ⟨-, s, rfl⟩ <;> exact Nat.le_refl 0
  | null kind => exact Nat.zero_le _
  | present inner ih => exact ih distinct
  | @array element lower upper items least most each unique ih =>
      exact itemsHeight_le fun v mem => ih v mem ((Json.distinctItems_iff items).1 distinct v mem)
  | @record name fields members format known all each related ih =>
      refine (Json.membersHeight_le_iff members _).2 fun m mem => ?_
      rcases member_cases distinct.1 format known mem with rfl | ⟨field, there, rfl⟩
      · exact Nat.le_max_left _ _
      · have deep := ih field there (Json.get_distinct distinct.2 _)
        exact Nat.le_trans (Nat.succ_le_succ deep) (Nat.le_trans (height_of_field there) (Nat.le_max_right _ _))

/-! ## Values -/

theorem size_closeString (s : Str) : 1 ≤ size (closeString s) := by
  obtain ⟨inner, closed, -⟩ := closeString_text s
  rw [closed, size_append, size_literal (s := ['"']) rfl]
  exact Nat.le_add_left 1 _

mutual

theorem values_size (v : Json F) : 2 * v.values ≤ canonicalSize D v + 1 := by
  cases v with
  | null => show 2 * 1 ≤ 4 + 1; decide
  | bool b =>
      cases b with
      | false => show 2 * 1 ≤ 5 + 1; decide
      | true => show 2 * 1 ≤ 4 + 1; decide
  | number n =>
      have some_ : (n.token D.toDoubles).text ≠ [] := Number.text_ne_nil (n.token_wellFormed D.toDoubles)
      have long := Proposals.length_le_size (n.token D.toDoubles).text
      have one := List.length_pos_of_ne_nil some_
      show 2 * 1 ≤ size (n.token D.toDoubles).text + 1
      omega
  | string s =>
      have one := size_closeString s
      show 2 * 1 ≤ 1 + size (closeString s) + 1
      omega
  | array items =>
      have inner := itemsValues_size items
      rw [Json.values, canonicalSize]
      cases items with
      | nil => show 2 * 1 ≤ 2 + 1; decide
      | cons v rest =>
          rw [List.isEmpty_cons, if_neg Bool.false_ne_true]
          omega
  | object members =>
      have inner := membersValues_size members
      rw [Json.values, canonicalSize]
      cases members with
      | nil => show 2 * 1 ≤ 2 + 1; decide
      | cons m rest =>
          rw [List.isEmpty_cons, if_neg Bool.false_ne_true]
          omega

theorem itemsValues_size (items : List (Json F)) : 2 * Json.itemsValues items ≤ itemsSize D items := by
  cases items with
  | nil => exact Nat.le_refl 0
  | cons v rest =>
      have first := values_size v
      have others := itemsValues_size rest
      rw [Json.itemsValues, itemsSize]
      omega

theorem membersValues_size (members : List (Str × Json F)) :
    2 * Json.membersValues members + 3 * members.length ≤ membersSize D members := by
  cases members with
  | nil => exact Nat.le_refl 0
  | cons m rest =>
      obtain ⟨key, v⟩ := m
      have first := values_size v
      have others := membersValues_size rest
      have quote := size_closeString key
      rw [Json.membersValues, membersSize, List.length_cons]
      omega

end

/-- A key counts with all its bytes. -/
theorem member_values {members : List (Str × Json F)} {key : Str} (mem : key ∈ members.map Prod.fst) :
    2 * Json.membersValues members + size (closeString key) + 2 ≤ membersSize D members := by
  induction members with
  | nil => cases mem
  | cons m rest ih =>
      obtain ⟨key', v⟩ := m
      have first := values_size D v
      rw [Json.membersValues, membersSize]
      rcases List.mem_cons.1 mem with rfl | behind
      · have others := membersValues_size D rest
        omega
      · have others := ih behind
        have quote := size_closeString key'
        omega

/-- A record has a `format`. -/
theorem record_values {name : Name} {fields : List (Str × Kind)} {v : Json F}
    (typed : Typed D U (.record (.mk name fields)) v) : 2 * v.values + 8 ≤ canonicalSize D v := by
  cases typed with
  | @record _ _ members format known all each related =>
      have present : "format".toList ∈ members.map Prod.fst := all List.mem_cons_self
      have inner := member_values D present
      have seven : size (closeString "format".toList) = 7 := by decide +kernel
      have some_ : members.isEmpty = false := by
        cases members with
        | nil => cases present
        | cons m rest => rfl
      rw [Json.values, canonicalSize, some_, if_neg Bool.false_ne_true]
      omega

end ApiSecurityPlatform.Ports
