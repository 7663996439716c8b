/-
# Scanners.OpenApiStructure -- the budget of a document's structure

`validate_openapi_structure` takes the values of a document from a stack, and raises one of three
errors at the first it does not like.  Which error that is depends on the order; whether there is
one does not (`validate_structure_iff`): a document is accepted for its height, its number of
nodes and its references alone.
-/
import ApiSecurityPlatform.Scanners.OpenApi
import ApiSecurityPlatform.Theory.Worklist

namespace ApiSecurityPlatform.Scanners.OpenApi

open ApiSecurityPlatform.Python ApiSecurityPlatform.Theory

set_option autoImplicit false

variable {A : Type}

def maxOpenapiNestingDepth : Nat := 32
def maxOpenapiStructureNodes : Nat := 20000

/-- The codes of `validate_openapi_structure`. -/
inductive StructureFault where
  | openapiDocumentTooDeep
  | openapiDocumentTooComplex
  | openapiReferencesNotSupported
deriving DecidableEq, Repr

/-- `"$ref" in value`. -/
def Key.isRef : Key A → Bool
  | .text s => s == "$ref".toList
  | .other _ => false

/-! ## What a document is -/

mutual

def Value.nodes : Value A → Nat
  | .list items => 1 + itemsNodes items
  | .dict members => 1 + membersNodes members
  | _ => 1

def itemsNodes : List (Value A) → Nat
  | [] => 0
  | item :: rest => item.nodes + itemsNodes rest

def membersNodes : List (Key A × Value A) → Nat
  | [] => 0
  | (_, value) :: rest => value.nodes + membersNodes rest

end

mutual

/-- The nesting depth. -/
def Value.height : Value A → Nat
  | .list items => 1 + itemsHeight items
  | .dict members => 1 + membersHeight members
  | _ => 1

def itemsHeight : List (Value A) → Nat
  | [] => 0
  | item :: rest => max item.height (itemsHeight rest)

def membersHeight : List (Key A × Value A) → Nat
  | [] => 0
  | (_, value) :: rest => max value.height (membersHeight rest)

end

mutual

/-- A `dict` somewhere in the value has the key `$ref`. -/
def Value.hasRef : Value A → Bool
  | .list items => itemsHaveRef items
  | .dict members => members.any (fun m => m.1.isRef) || membersHaveRef members
  | _ => false

def itemsHaveRef : List (Value A) → Bool
  | [] => false
  | item :: rest => item.hasRef || itemsHaveRef rest

def membersHaveRef : List (Key A × Value A) → Bool
  | [] => false
  | (_, value) :: rest => value.hasRef || membersHaveRef rest

end

/-- What `pending.extend` appends of a value. -/
def Value.children : Value A → List (Value A)
  | .list items => items
  | .dict members => members.map Prod.snd
  | _ => []

/-- The value itself is a `dict` with the key `$ref`. -/
def Value.isRef : Value A → Bool
  | .dict members => members.any fun m => m.1.isRef
  | _ => false

theorem itemsNodes_eq (items : List (Value A)) : itemsNodes items = (items.map Value.nodes).sum := by
  induction items with
  | nil => rfl
  | cons item rest ih => rw [itemsNodes, ih, List.map_cons, List.sum_cons]

theorem membersNodes_eq (members : List (Key A × Value A)) : membersNodes members = itemsNodes (members.map Prod.snd) := by
  induction members with
  | nil => rfl
  | cons m rest ih => rw [membersNodes, ih, List.map_cons, itemsNodes]

theorem membersHeight_eq (members : List (Key A × Value A)) :
    membersHeight members = itemsHeight (members.map Prod.snd) := by
  induction members with
  | nil => rfl
  | cons m rest ih => rw [membersHeight, ih, List.map_cons, itemsHeight]

theorem membersHaveRef_eq (members : List (Key A × Value A)) :
    membersHaveRef members = itemsHaveRef (members.map Prod.snd) := by
  induction members with
  | nil => rfl
  | cons m rest ih => rw [membersHaveRef, ih, List.map_cons, itemsHaveRef]

theorem Value.nodes_eq (v : Value A) : v.nodes = 1 + (v.children.map Value.nodes).sum := by
  cases v with
  | list items => rw [Value.nodes, itemsNodes_eq, Value.children]
  | dict members => rw [Value.nodes, membersNodes_eq, itemsNodes_eq, Value.children]
  | none | text | other => rfl

theorem Value.height_eq (v : Value A) : v.height = 1 + itemsHeight v.children := by
  cases v with
  | list items => rw [Value.height, Value.children]
  | dict members => rw [Value.height, membersHeight_eq, Value.children]
  | none | text | other => rfl

theorem Value.hasRef_eq (v : Value A) : v.hasRef = (v.isRef || itemsHaveRef v.children) := by
  cases v with
  | list items =>
      rw [Value.hasRef, Value.children]
      rfl
  | dict members => rw [Value.hasRef, membersHaveRef_eq, Value.isRef, Value.children]
  | none | text | other => rfl

theorem itemsHeight_le {items : List (Value A)} {n : Nat} : itemsHeight items ≤ n ↔ ∀ v ∈ items, v.height ≤ n := by
  induction items with
  | nil => simp [itemsHeight]
  | cons item rest ih => rw [itemsHeight, Nat.max_le, ih, List.forall_mem_cons]

theorem itemsHaveRef_false {items : List (Value A)} : itemsHaveRef items = false ↔ ∀ v ∈ items, v.hasRef = false := by
  induction items with
  | nil => simp [itemsHaveRef]
  | cons item rest ih => rw [itemsHaveRef, Bool.or_eq_false_iff, ih, List.forall_mem_cons]

/-- Documents, as trees of their values. -/
def values : Forest (Value A) := ⟨Value.children, Value.nodes, Value.nodes_eq⟩

/-- What one value has to be. -/
def Value.Plain (v : Value A) (depth : Nat) : Prop := depth ≤ maxOpenapiNestingDepth ∧ v.isRef = false

theorem everywhere_plain (v : Value A) (depth : Nat) :
    values.Everywhere Value.Plain v depth ↔ depth + v.height ≤ maxOpenapiNestingDepth + 1 ∧ v.hasRef = false := by
  induction v using values.induction generalizing depth with
  | step v ih =>
      have below : (∀ c ∈ values.children v, values.Everywhere Value.Plain c (depth + 1)) ↔
          ∀ c ∈ v.children, depth + 1 + c.height ≤ maxOpenapiNestingDepth + 1 ∧ c.hasRef = false :=
        forall₂_congr fun c listed => ih c listed (depth + 1)
      rw [values.everywhere_iff, below, v.height_eq, v.hasRef_eq, Bool.or_eq_false_iff, itemsHaveRef_false, Value.Plain]
      have tall : depth + (1 + itemsHeight v.children) ≤ maxOpenapiNestingDepth + 1 ↔
          depth ≤ maxOpenapiNestingDepth ∧ ∀ c ∈ v.children, depth + 1 + c.height ≤ maxOpenapiNestingDepth + 1 := by
        constructor
        · intro bound
          refine ⟨by omega, fun c listed => ?_⟩
          have := itemsHeight_le.1 (Nat.le_refl _) c listed
          omega
        · rintro ⟨here, rest⟩
          have low (c : Value A) (listed : c ∈ v.children) : c.height ≤ maxOpenapiNestingDepth - depth := by
            have := rest c listed
            omega
          have := itemsHeight_le.2 low
          omega
      rw [tall]
      constructor
      · rintro ⟨⟨here, plain⟩, rest⟩
        exact ⟨⟨here, fun c listed => (rest c listed).1⟩, plain, fun c listed => (rest c listed).2⟩
      · rintro ⟨⟨here, tall⟩, plain, rest⟩
        exact ⟨⟨here, plain⟩, fun c listed => ⟨tall c listed, rest c listed⟩⟩

/-! ## `validate_openapi_structure` -/

/-- The body of the loop up to `pending.extend`. -/
def refusal (nodesSeen : Nat) (value : Value A) (depth : Nat) : Option StructureFault :=
  if depth > maxOpenapiNestingDepth then some .openapiDocumentTooDeep
  else if nodesSeen + 1 > maxOpenapiStructureNodes then some .openapiDocumentTooComplex
  else if value.isRef then some .openapiReferencesNotSupported
  else none

theorem refusal_none (nodesSeen : Nat) (value : Value A) (depth : Nat) :
    refusal nodesSeen value depth = none ↔ nodesSeen < maxOpenapiStructureNodes ∧ value.Plain depth := by
  unfold refusal Value.Plain
  split
  · simp; omega
  split
  · simp; omega
  split
  · next ref => simp [ref]
  · next ref =>
    simp only [Bool.not_eq_true] at ref
    simp [ref]; omega

/-- The loop; `pending` has the top of the stack first. -/
def validateLoop (nodesSeen : Nat) (pending : List (Value A × Nat)) : Except StructureFault Unit :=
  match pending with
  | [] => .ok ()
  | (value, depth) :: rest =>
      match refusal nodesSeen value depth with
      | some fault => .error fault
      | none => validateLoop (nodesSeen + 1) ((value.children.map fun item => (item, depth + 1)).reverse ++ rest)
termination_by (pending.map fun item => item.1.nodes).sum
decreasing_by
  rw [List.map_append, List.sum_append, List.map_reverse, List.sum_reverse, List.map_map, List.map_cons, List.sum_cons,
    value.nodes_eq]
  show (value.children.map Value.nodes).sum + _ < _
  omega

def validateOpenapiStructure (document : Value A) : Except StructureFault Unit := validateLoop 0 [(document, 1)]

/-- What comes of a traversal, as the loop returns it. -/
def outcome : Except StructureFault Unit → Option StructureFault
  | .ok () => none
  | .error fault => some fault

/-- The stack is one of the orders. -/
theorem validateLoop_ends (nodesSeen : Nat) (pending : List (Value A × Nat)) :
    Worklist.Ends values refusal ⟨nodesSeen, pending⟩ (outcome (validateLoop nodesSeen pending)) := by
  induction nodesSeen, pending using validateLoop.induct with
  | case1 nodesSeen =>
      rw [validateLoop]
      exact ⟨_, .refl, .done rfl⟩
  | case2 nodesSeen value depth rest fault refused =>
      rw [validateLoop, refused]
      exact ⟨_, .refl, .refused (.refl _) refused⟩
  | case3 nodesSeen value depth rest allowed ih =>
      rw [validateLoop, allowed]
      obtain ⟨t, run, stops⟩ := ih
      refine ⟨t, .head (.take (.refl _) allowed ?_ rfl) run, stops⟩
      exact ((List.reverse_perm _).append_right rest).trans List.perm_append_comm

/-- A document within the budget. -/
def Value.Budgeted (document : Value A) : Prop :=
  document.height ≤ maxOpenapiNestingDepth ∧ document.nodes ≤ maxOpenapiStructureNodes ∧ document.hasRef = false

instance (document : Value A) : Decidable document.Budgeted := inferInstanceAs (Decidable (_ ∧ _ ∧ _))

theorem fits_iff (document : Value A) :
    Worklist.Fits values Value.Plain maxOpenapiStructureNodes ⟨0, [(document, 1)]⟩ ↔ document.Budgeted := by
  rw [Worklist.Fits, List.forall_mem_singleton, everywhere_plain, Worklist.weight, List.map_singleton, List.sum_singleton,
    Value.Budgeted]
  show (1 + document.height ≤ maxOpenapiNestingDepth + 1 ∧ _) ∧ 0 + document.nodes ≤ maxOpenapiStructureNodes ↔ _
  constructor
  · rintro ⟨⟨tall, plain⟩, few⟩
    exact ⟨by omega, by omega, plain⟩
  · rintro ⟨tall, few, plain⟩
    exact ⟨⟨by omega, plain⟩, by omega⟩

/-- **The budget is that of the document.**  The loop accepts just what is within it, and so does
every order of the worklist; none goes on for ever. -/
theorem validate_structure_iff (document : Value A) :
    (validateOpenapiStructure document = .ok () ↔ document.Budgeted) ∧
      Worklist.Ends values refusal ⟨0, [(document, 1)]⟩ (outcome (validateOpenapiStructure document)) ∧
      (∀ r, Worklist.Ends values refusal ⟨0, [(document, 1)]⟩ r → (r = none ↔ document.Budgeted)) ∧
      WellFounded fun t s : Worklist.State (Value A) => Worklist.Step values refusal s t := by
  have any (r : Option StructureFault) (ends : Worklist.Ends values refusal ⟨0, [(document, 1)]⟩ r) :
      r = none ↔ document.Budgeted := by
    rw [← fits_iff]
    exact Worklist.ends_none_iff refusal_none ends (Nat.zero_le _)
  have here : Worklist.Ends values refusal ⟨0, [(document, 1)]⟩ (outcome (validateOpenapiStructure document)) :=
    validateLoop_ends 0 _
  refine ⟨?_, here, any, Worklist.wellFounded_step _ _⟩
  rw [← any _ here]
  cases validateOpenapiStructure document with
  | ok u => exact ⟨fun _ => rfl, fun _ => rfl⟩
  | error fault => exact ⟨(fun ok_ => nomatch ok_), (fun none_ => nomatch none_)⟩

section Pole

/-- A reference below a list. -/
private def referring : Value Unit := .list [.dict [(.text "$ref".toList, .text ['x'])]]

theorem validate_structure_iff_reference :
    ∃ fault, Worklist.Ends values refusal ⟨0, [(referring, 1)]⟩ (some fault) ∧ (some fault = none ↔ referring.Budgeted) := by
  have refused : ¬ referring.Budgeted := by decide
  have law := validate_structure_iff referring
  obtain ⟨u, done⟩ | ⟨fault, raised⟩ : (∃ u, validateOpenapiStructure referring = .ok u) ∨
      ∃ fault, validateOpenapiStructure referring = .error fault := by
    cases validateOpenapiStructure referring with
    | ok u => exact .inl ⟨u, rfl⟩
    | error fault => exact .inr ⟨fault, rfl⟩
  · exact absurd (law.1.1 done) refused
  · have ends := law.2.1
    rw [raised] at ends
    exact ⟨fault, ends, law.2.2.1 _ ends⟩

end Pole

end ApiSecurityPlatform.Scanners.OpenApi
