/-
# Ports.Typing -- what validation accepts

`Typed` says without code what `_scalar` accepts of a kind; `scalar_iff` is the two as one, and
what follows about accepted values is by induction on the derivation.  Sorting the members
of its objects does not change whether a value is accepted (`Typed.sorted`).
-/
import ApiSecurityPlatform.Ports.Records
import ApiSecurityPlatform.Proposals.Size
import ApiSecurityPlatform.Theory.Keyed

namespace ApiSecurityPlatform.Python.Json

open ApiSecurityPlatform.Theory

set_option autoImplicit false

variable {F : Type}

theorem sortedItems_eq (items : List (Json F)) : sortedItems items = items.map sorted := by
  induction items with
  | nil => rfl
  | cons v rest ih => rw [sortedItems, ih, List.map_cons]

/-- The members of a sorted object. -/
def sortMembers (members : List (Str × Json F)) : List (Str × Json F) := (sortedMembers members).insertionSort keyLe

theorem sorted_object (members : List (Str × Json F)) : (object members).sorted = .object (sortMembers members) := rfl

theorem sortMembers_keys (members : List (Str × Json F)) :
    ((sortMembers members).map Prod.fst).Perm (members.map Prod.fst) := by
  have perm := (List.perm_insertionSort keyLe (sortedMembers members)).map Prod.fst
  rwa [sortedMembers_keys] at perm

theorem lookup_sorted {members : List (Str × Json F)} (distinct : (members.map Prod.fst).Nodup) (key : Str) :
    (sortMembers members).lookup key = (members.lookup key).map sorted := by
  have keys : ((sortedMembers members).map Prod.fst).Nodup := by rwa [sortedMembers_keys]
  rw [sortMembers, ← lookup_perm (List.perm_insertionSort keyLe _).symm keys, sortedMembers_eq, lookup_map]

theorem get_sorted {members : List (Str × Json F)} (distinct : (members.map Prod.fst).Nodup) (key : Str) :
    get (sortMembers members) key = (get members key).sorted := by
  rw [get, get, lookup_sorted distinct]
  cases members.lookup key <;> rfl

theorem get_distinct {members : List (Str × Json F)} (distinct : DistinctMembers members) (key : Str) :
    (get members key).Distinct := by
  rw [get]
  cases found : members.lookup key with
  | none => trivial
  | some v => exact (distinctMembers_iff members).1 distinct _ (lookup_mem found)

/-! ## What sorting leaves alone -/

@[simp]
theorem isNull_sorted (v : Json F) : v.sorted.isNull = v.isNull := by cases v <;> rfl

@[simp]
theorem asInt_sorted (v : Json F) : v.sorted.asInt = v.asInt := by cases v <;> rfl

@[simp]
theorem asText_sorted (v : Json F) : v.sorted.asText = v.asText := by cases v <;> rfl

theorem asItems_sorted (v : Json F) : v.sorted.asItems = v.asItems.map sorted := by
  cases v with
  | array items => exact sortedItems_eq items
  | null => rfl
  | bool b => rfl
  | number n => rfl
  | string s => rfl
  | object members => rfl

@[simp]
theorem asItems_sorted_length (v : Json F) : v.sorted.asItems.length = v.asItems.length := by
  rw [asItems_sorted, List.length_map]

@[simp]
theorem asItems_sorted_texts (v : Json F) : v.sorted.asItems.map asText = v.asItems.map asText := by
  rw [asItems_sorted, List.map_map]
  exact List.map_congr_left fun item _ => asText_sorted item

end ApiSecurityPlatform.Python.Json

namespace ApiSecurityPlatform.Ports

open ApiSecurityPlatform.Theory
open ApiSecurityPlatform.Python
open ApiSecurityPlatform.Proposals (Bytes Floats Limits boundedJson canonical utf8)

set_option autoImplicit false

variable {F : Type} (D : Floats F) (U : Decimals)

/-! ## Accepted values -/

inductive Typed : Kind → Json F → Prop where
  | leaf {leaf : Leaf} {v : Json F} (admitted : leaf.admits U v = .ok true) : Typed (.leaf leaf) v
  | null (kind : Kind) : Typed (.nullable kind) .null
  | present {kind : Kind} {v : Json F} (inner : Typed kind v) : Typed (.nullable kind) v
  | array {element : Kind} {lower upper : Nat} {items : List (Json F)} (least : lower ≤ items.length)
      (most : items.length ≤ upper) (each : ∀ v ∈ items, Typed element v)
      (unique : element.isScore = true ∨ (items.map (canonical D)).Nodup) :
      Typed (.array element lower upper) (.array items)
  | record {name : Name} {fields : List (Str × Kind)} {members : List (Str × Json F)}
      (format : Json.get members "format".toList = .string (formatFor name))
      (known : members.map Prod.fst ⊆ "format".toList :: fields.map Prod.fst)
      (all : "format".toList :: fields.map Prod.fst ⊆ members.map Prod.fst)
      (each : ∀ field ∈ fields, Typed field.2 (Json.get members field.1))
      (related : rules U name (fun key => decide (key.toList ∈ fields.map Prod.fst))
        (fun key => Json.get members key.toList) = .ok ()) :
      Typed (.record (.mk name fields)) (.object members)

theorem isText_iff {v : Json F} {s : Str} : isText v (String.ofList s) = true ↔ v = .string s := by
  unfold isText
  split
  · next t => rw [beq_iff_eq, String.toList_ofList, Json.string.injEq]
  · next other => exact iff_of_false Bool.false_ne_true fun same => other s same

theorem isNull_iff {v : Json F} : v.isNull = true ↔ v = .null := by
  cases v <;> simp [Json.isNull]

mutual

/-- **`_scalar` accepts exactly the typed values.** -/
theorem scalar_iff (kind : Kind) (v : Json F) : scalar D U kind v = .ok true ↔ Typed D U kind v := by
  cases kind with
  | leaf leaf =>
      rw [scalar]
      exact ⟨.leaf, fun | .leaf admitted => admitted⟩
  | nullable kind =>
      rw [scalar]
      split
      · next empty =>
        rw [isNull_iff.1 empty]
        exact iff_of_true rfl (.null kind)
      · next some_ =>
        rw [scalar_iff kind v]
        constructor
        · exact .present
        · intro typed
          cases typed with
          | null => exact absurd rfl some_
          | present inner => exact inner
  | array element lower upper =>
      unfold scalar
      split
      · next items =>
        rw [seq_ok, require_ok, seq_ok, forM_ok, seq_ok, require_ok]
        have inner : (∀ item ∈ items, (do
              let admitted ← scalar D U element item
              require (admitted = true) .invalidRecord) = .ok ()) ↔ ∀ item ∈ items, Typed D U element item := by
          refine forall₂_congr fun item mem => ?_
          rw [← scalar_iff element item, bind_ok]
          simp only [require_ok, exists_eq_right]
        rw [inner]
        constructor
        · rintro ⟨⟨least, most⟩, each, unique, -⟩
          exact .array least most each unique
        · intro typed
          cases typed with
          | array least most each unique => exact ⟨⟨least, most⟩, each, unique, rfl⟩
      · next other =>
        refine iff_of_false (fun same => nomatch same) fun typed => ?_
        cases typed with
        | array least most each unique => exact other _ rfl
  | record layout =>
      rw [scalar, seq_ok, validate_iff layout v]
      exact ⟨fun both => both.1, fun typed => ⟨typed, rfl⟩⟩

theorem validate_iff (layout : Layout) (v : Json F) : validate D U layout v = .ok () ↔ Typed D U (.record layout) v := by
  cases layout with
  | mk name fields =>
    unfold validate
    split
    · next members =>
      rw [seq_ok, require_ok, isText_iff, seq_ok, require_ok, seq_ok, validateFields_iff fields members]
      constructor
      · rintro ⟨format, ⟨known, all⟩, each, related⟩
        exact .record format known all each related
      · intro typed
        cases typed with
        | record format known all each related => exact ⟨format, ⟨known, all⟩, each, related⟩
    · next other =>
      refine iff_of_false (fun same => nomatch same) fun typed => ?_
      cases typed with
      | record format known all each related => exact other _ rfl

theorem validateFields_iff (fields : List (Str × Kind)) (members : List (Str × Json F)) :
    validateFields D U fields members = .ok () ↔ ∀ field ∈ fields, Typed D U field.2 (Json.get members field.1) := by
  cases fields with
  | nil => exact iff_of_true rfl (fun field mem => nomatch mem)
  | cons field rest =>
      obtain ⟨key, kind⟩ := field
      rw [validateFields, bind_ok, List.forall_mem_cons, ← scalar_iff kind, ← validateFields_iff rest members]
      simp only [seq_ok, require_ok]
      constructor
      · rintro ⟨_, read, rfl, others⟩
        exact ⟨read, others⟩
      · rintro ⟨read, others⟩
        exact ⟨true, read, rfl, others⟩

end

/-! ## Sorting -/

theorem isText_sorted (v : Json F) (s : String) : isText v.sorted s = isText v s := by cases v <;> rfl

theorem moment_sorted (v : Json F) : moment U v.sorted = moment U v := by
  rw [moment, moment, Json.asText_sorted]

theorem usageRule_sorted (get : String → Json F) : usageRule (fun key => (get key).sorted) = usageRule get := by
  simp only [usageRule, isText_sorted, Json.isNull_sorted, Json.asInt_sorted, List.all_cons, List.all_nil]

/-- The rules read nothing that sorting changes. -/
theorem rules_sorted (name : Name) (has : String → Bool) (get : String → Json F) :
    rules U name has (fun key => (get key).sorted) = rules U name has get := by
  simp only [rules, usageRule_sorted, moment_sorted, isText_sorted, Json.isNull_sorted, Json.asInt_sorted,
    Json.asItems_sorted_length, Json.asItems_sorted_texts]

/-- What a kind of a single value accepts. -/
def Leaf.shape : Leaf → Nat
  | .bool => 1
  | .int _ | .whole _ => 2
  | _ => 3

theorem Leaf.admits_cases {leaf : Leaf} {v : Json F} (admitted : leaf.admits U v = .ok true) :
    (leaf.shape = 1 ∧ ∃ b, v = .bool b) ∨ (leaf.shape = 2 ∧ ∃ n, v = .number (.int n)) ∨
      (leaf.shape = 3 ∧ ∃ s, v = .string s) := by
  unfold Leaf.admits at admitted
  split at admitted <;>
    first
      | exact .inl ⟨rfl, _, rfl⟩
      | exact .inr (.inl ⟨rfl, _, rfl⟩)
      | exact .inr (.inr ⟨rfl, _, rfl⟩)
      | cases admitted

theorem canonical_sorted (v : Json F) : canonical D v.sorted = canonical D v := by
  rw [canonical, canonical, Json.canonicalJson, Json.canonicalJson, Json.sorted_sorted]

theorem Typed.sorted {kind : Kind} {v : Json F} (typed : Typed D U kind v) (distinct : v.Distinct) :
    Typed D U kind v.sorted := by
  induction typed with
  | @leaf leaf v admitted =>
      have same : v.sorted = v := by
        rcases Leaf.admits_cases U admitted with ⟨-, b, rfl⟩ | ⟨-, n, rfl⟩ | ⟨-, s, rfl⟩ <;> rfl
      rw [same]
      exact .leaf admitted
  | null kind => exact .null kind
  | present inner ih => exact .present (ih distinct)
  | @array element lower upper items least most each unique ih =>
      have distincts := (Json.distinctItems_iff items).1 distinct
      rw [Json.sorted, Json.sortedItems_eq]
      refine .array (by rwa [List.length_map]) (by rwa [List.length_map]) ?_ ?_
      · intro v mem
        obtain ⟨w, inside, rfl⟩ := List.mem_map.1 mem
        exact ih w inside (distincts w inside)
      · have same : (canonical D ∘ Json.sorted) = canonical D := funext (canonical_sorted D)
        rwa [List.map_map, same]
  | @record name fields members format known all each related ih =>
      have keys := Json.sortMembers_keys members
      rw [Json.sorted_object]
      refine .record ?_ ?_ ?_ ?_ ?_
      · rw [Json.get_sorted distinct.1, format]
        rfl
      · exact fun key mem => known (keys.subset mem)
      · exact fun key mem => keys.symm.subset (all mem)
      · intro field mem
        rw [Json.get_sorted distinct.1]
        exact ih field mem (Json.get_distinct distinct.2 _)
      · simp only [Json.get_sorted distinct.1]
        rw [rules_sorted]
        exact related

/-! ## Freezing -/

theorem get_mem {members : List (Str × Json F)} {m : Str × Json F} (distinct : (members.map Prod.fst).Nodup)
    (mem : m ∈ members) : Json.get members m.1 = m.2 := by
  rw [Json.get, lookup_of_mem distinct (a := m.2) mem]
  rfl

/-- A member of an accepted object is its format or a field. -/
theorem member_cases {name : Name} {fields : List (Str × Kind)} {members : List (Str × Json F)}
    (distinct : (members.map Prod.fst).Nodup) (format : Json.get members "format".toList = .string (formatFor name))
    (known : members.map Prod.fst ⊆ "format".toList :: fields.map Prod.fst) {m : Str × Json F} (mem : m ∈ members) :
    m = ("format".toList, .string (formatFor name)) ∨ ∃ field ∈ fields, m = (field.1, Json.get members field.1) := by
  have value := get_mem distinct mem
  obtain ⟨key, v⟩ := m
  rcases List.mem_cons.1 (known (List.mem_map_of_mem mem)) with same | inside
  · left
    dsimp only at same value
    rw [same] at value ⊢
    rw [← value, format]
  · obtain ⟨field, there, same⟩ := List.mem_map.1 inside
    exact .inr ⟨field, there, by rw [same, value]⟩

theorem freezeItems_some {items : List (Json F)} (each : ∀ v ∈ items, ∃ f, freeze v = some f) :
    ∃ frozen, freezeItems items = some frozen := by
  induction items with
  | nil => exact ⟨[], rfl⟩
  | cons v rest ih =>
      obtain ⟨f, first⟩ := each v List.mem_cons_self
      obtain ⟨frozen, others⟩ := ih fun w mem => each w (List.mem_cons_of_mem v mem)
      exact ⟨f :: frozen, by rw [freezeItems, first, others]; rfl⟩

theorem freezeMembers_some {members : List (Str × Json F)} (each : ∀ m ∈ members, ∃ f, freeze m.2 = some f) :
    ∃ frozen, freezeMembers members = some frozen := by
  induction members with
  | nil => exact ⟨[], rfl⟩
  | cons m rest ih =>
      obtain ⟨key, v⟩ := m
      obtain ⟨f, first⟩ := each (key, v) List.mem_cons_self
      obtain ⟨frozen, others⟩ := ih fun w mem => each w (List.mem_cons_of_mem _ mem)
      exact ⟨(key, f) :: frozen, by rw [freezeMembers, first, others]; rfl⟩

theorem Name.mem_all (name : Name) : name ∈ Name.all := by
  cases name <;> decide

theorem formats_distinct : (Name.all.map formatFor).Nodup :=
  -- they all begin with `ra-w2-`
  List.Nodup.of_map (List.drop 6) (by decide +kernel)

theorem formatFor_injective {n m : Name} (same : formatFor n = formatFor m) : n = m :=
  List.inj_on_of_nodup_map formats_distinct n.mem_all m.mem_all same

theorem nameOf_format (name : Name) : nameOf (.string (formatFor name) : Json F) = some name := by
  cases found : nameOf (.string (formatFor name) : Json F) with
  | none =>
      have missed := List.find?_eq_none.1 found name name.mem_all
      exact absurd (isText_iff.2 rfl) missed
  | some m =>
      have format : isText (.string (formatFor name) : Json F) (String.ofList (formatFor m)) = true :=
        List.find?_some (p := fun n => isText _ (String.ofList (formatFor n))) found
      rw [formatFor_injective (Json.string.inj (isText_iff.1 format))]

/-- An accepted value can be frozen. -/
theorem Typed.freezes {kind : Kind} {v : Json F} (typed : Typed D U kind v) (distinct : v.Distinct) :
    ∃ f, freeze v = some f := by
  induction typed with
  | leaf admitted =>
      rcases Leaf.admits_cases U admitted with ⟨-, b, rfl⟩ | ⟨-, n, rfl⟩ | ⟨-, s, rfl⟩ <;> exact ⟨_, rfl⟩
  | null kind => exact ⟨_, rfl⟩
  | present inner ih => exact ih distinct
  | @array element lower upper items least most each unique ih =>
      obtain ⟨frozen, froze⟩ := freezeItems_some fun v mem => ih v mem ((Json.distinctItems_iff items).1 distinct v mem)
      exact ⟨.tuple frozen, by rw [freeze, froze]; rfl⟩
  | @record name fields members format known all each related ih =>
      obtain ⟨frozen, froze⟩ : ∃ frozen, freezeMembers members = some frozen := by
        refine freezeMembers_some fun m mem => ?_
        rcases member_cases distinct.1 format known mem with rfl | ⟨field, there, rfl⟩
        · exact ⟨_, rfl⟩
        · exact ih field there (Json.get_distinct distinct.2 _)
      obtain ⟨w, found⟩ := lookup_of_key (all List.mem_cons_self)
      have value : w = .string (formatFor name) := by
        rw [Json.get, found] at format
        exact format
      refine ⟨.mapping (some name) frozen, ?_⟩
      rw [freeze, froze, Option.bind_some, found, value]
      dsimp only
      rw [nameOf_format]
      rfl

/-- No kind admits a float. -/
theorem Typed.integral {kind : Kind} {v : Json F} (typed : Typed D U kind v) (distinct : v.Distinct) : v.Integral := by
  induction typed with
  | leaf admitted =>
      rcases Leaf.admits_cases U admitted with ⟨-, b, rfl⟩ | ⟨-, n, rfl⟩ | ⟨-, s, rfl⟩ <;> trivial
  | null kind => trivial
  | present inner ih => exact ih distinct
  | @array element lower upper items least most each unique ih =>
      exact (Json.integralItems_iff items).2 fun v mem => ih v mem ((Json.distinctItems_iff items).1 distinct v mem)
  | @record name fields members format known all each related ih =>
      refine (Json.integralMembers_iff members).2 fun m mem => ?_
      rcases member_cases distinct.1 format known mem with rfl | ⟨field, there, rfl⟩
      · trivial
      · exact ih field there (Json.get_distinct distinct.2 _)

end ApiSecurityPlatform.Ports
