/-
# Python.Schema -- strict JSON schemas

The part of JSON schema that a strict schema uses: strings by `enum` or by `pattern` with
lengths, arrays by `items` with bounds, and objects all of whose properties are required and
which have no others.  As in JSON schema, a pattern is searched for and not anchored.
-/
import ApiSecurityPlatform.Ports.Records

namespace ApiSecurityPlatform.Python

set_option autoImplicit false

/-- A strict schema. -/
inductive Schema where
  /-- A string out of a list; `nullable` admits `null`. -/
  | enum (values : List Str) (nullable : Bool)
  | pattern (accepts : Str → Bool) (minLength maxLength : Nat) (nullable : Bool)
  | array (items : Schema) (minItems maxItems : Nat)
  /-- All properties are required, and there are no additional ones. -/
  | object (properties : List (Str × Schema))

namespace Schema

variable {F : Type}

mutual

/-- The value conforms to the schema. -/
def Conforms : Schema → Json F → Prop
  | .enum values nullable, v => (nullable = true ∧ v = .null) ∨ ∃ s ∈ values, v = .string s
  | .pattern accepts minLength maxLength nullable, v =>
      (nullable = true ∧ v = .null) ∨ ∃ s, v = .string s ∧ minLength ≤ s.length ∧ s.length ≤ maxLength ∧
        ∃ part, part <:+: s ∧ accepts part = true
  | .array items minItems maxItems, v =>
      ∃ l, v = .array l ∧ minItems ≤ l.length ∧ l.length ≤ maxItems ∧ ∀ item ∈ l, items.Conforms item
  | .object properties, v =>
      ∃ members, v = .object members ∧ (∀ m ∈ members, m.1 ∈ properties.map Prod.fst) ∧
        ConformProperties properties members

/-- Every property is there and conforms. -/
def ConformProperties : List (Str × Schema) → List (Str × Json F) → Prop
  | [], _ => True
  | (key, schema) :: rest, members =>
      (key ∈ members.map Prod.fst ∧ schema.Conforms (Json.get members key)) ∧ ConformProperties rest members

end

theorem conformProperties_iff {properties : List (Str × Schema)} {members : List (Str × Json F)} :
    ConformProperties properties members ↔
      ∀ p ∈ properties, p.1 ∈ members.map Prod.fst ∧ p.2.Conforms (Json.get members p.1) := by
  induction properties with
  | nil => exact iff_of_true trivial (fun _ mem => nomatch mem)
  | cons p rest ih =>
      obtain ⟨key, schema⟩ := p
      rw [ConformProperties, ih, List.forall_mem_cons]

end Schema

end ApiSecurityPlatform.Python
