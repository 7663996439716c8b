/-
# Ports.Identity -- one record, one encoding

`record_codec` is what the record codec promises: an accepted record comes back equal from its
bytes, every record nested in it decodes on its own, `make` accepts what `decode` accepts of the
canonical bytes, and equal records, equal bytes and equal fingerprints are the same thing.
-/
import ApiSecurityPlatform.Ports.RoundTrip
import ApiSecurityPlatform.Proposals.Reading

namespace ApiSecurityPlatform.Python.Json

set_option autoImplicit false

variable {F : Type}

mutual

/-- No container has more than 512 items and no string more than 32768 characters. -/
def Narrow : Json F → Prop
  | .string s => s.length ≤ 32768
  | .array items => items.length ≤ 512 ∧ NarrowItems items
  | .object members => members.length ≤ 512 ∧ NarrowMembers members
  | _ => True

def NarrowItems : List (Json F) → Prop
  | [] => True
  | v :: rest => v.Narrow ∧ NarrowItems rest

def NarrowMembers : List (Str × Json F) → Prop
  | [] => True
  | (_, v) :: rest => v.Narrow ∧ NarrowMembers rest

end

theorem narrowItems_iff (items : List (Json F)) : NarrowItems items ↔ ∀ v ∈ items, v.Narrow := by
  induction items with
  | nil => simp [NarrowItems]
  | cons v rest ih => simp [NarrowItems, ih]

theorem narrowMembers_iff (members : List (Str × Json F)) : NarrowMembers members ↔ ∀ m ∈ members, m.2.Narrow := by
  induction members with
  | nil => simp [NarrowMembers]
  | cons m rest ih => simp [NarrowMembers, ih]

mutual

theorem narrow_of_sorted (v : Json F) (narrow : v.sorted.Narrow) : v.Narrow := by
  cases v with
  | array items =>
      refine ⟨?_, narrowItems_of_sorted items narrow.2⟩
      have length : (sortedItems items).length ≤ 512 := narrow.1
      rwa [sortedItems_eq, List.length_map] at length
  | object members =>
      have perm := List.perm_insertionSort keyLe (sortedMembers members)
      constructor
      · have length : (sortMembers members).length ≤ 512 := narrow.1
        rwa [sortMembers, List.length_insertionSort, sortedMembers_eq, List.length_map] at length
      · refine narrowMembers_of_sorted members ((narrowMembers_iff _).2 fun m mem => ?_)
        exact (narrowMembers_iff _).1 narrow.2 m (perm.symm.subset mem)
  | null => trivial
  | bool b => trivial
  | number n => trivial
  | string s => exact narrow

theorem narrowItems_of_sorted (items : List (Json F)) (narrow : NarrowItems (sortedItems items)) :
    NarrowItems items := by
  cases items with
  | nil => trivial
  | cons v rest => exact ⟨narrow_of_sorted v narrow.1, narrowItems_of_sorted rest narrow.2⟩

theorem narrowMembers_of_sorted (members : List (Str × Json F)) (narrow : NarrowMembers (sortedMembers members)) :
    NarrowMembers members := by
  cases members with
  | nil => trivial
  | cons m rest => exact ⟨narrow_of_sorted m.2 narrow.1, narrowMembers_of_sorted rest narrow.2⟩

end

end ApiSecurityPlatform.Python.Json

namespace ApiSecurityPlatform.Ports

open ApiSecurityPlatform.Theory
open ApiSecurityPlatform.Python
open ApiSecurityPlatform.Proposals (Bytes Floats halfFloats Limits Bounded boundedJson boundedJson_iff bounded_canonical_iff
  canonical utf8 utf8_injective)

set_option autoImplicit false

variable {F : Type} (D : Floats F) (U : Decimals)

/-! ## Nested records -/

mutual

/-- Every layout a kind holds is the layout of its name. -/
def Kind.Resolved : Kind → Prop
  | .leaf _ => True
  | .nullable kind => kind.Resolved
  | .array element _ _ => element.Resolved
  | .record layout => layout.Resolved

def Layout.Resolved : Layout → Prop
  | .mk name fields => Layout.of name = .mk name fields ∧ FieldsResolved fields

def FieldsResolved : List (Str × Kind) → Prop
  | [] => True
  | (_, kind) :: rest => kind.Resolved ∧ FieldsResolved rest

end

theorem of_resolved (name : Name) : (Layout.of name).Resolved := by
  cases name <;> repeat' first | exact trivial | exact rfl | apply And.intro

theorem fieldsResolved_iff (fields : List (Str × Kind)) : FieldsResolved fields ↔ ∀ field ∈ fields, field.2.Resolved := by
  induction fields with
  | nil => exact iff_of_true trivial (fun field mem => by cases mem)
  | cons field rest ih =>
      obtain ⟨key, kind⟩ := field
      rw [FieldsResolved, List.forall_mem_cons, ih]

/-- An accepted record freezes to a mapping with the name of its layout. -/
theorem freeze_record {name : Name} {members : List (Str × Json F)} {f : Frozen}
    (format : Json.get members "format".toList = .string (formatFor name))
    (present : "format".toList ∈ members.map Prod.fst) (froze : freeze (.object members) = some f) :
    ∃ frozen, freezeMembers members = some frozen ∧ f = .mapping (some name) frozen := by
  rw [freeze] at froze
  obtain ⟨frozen, inner, named⟩ := Option.bind_eq_some_iff.1 froze
  obtain ⟨w, found⟩ := lookup_of_key present
  rw [Json.get, found] at format
  rw [found, show w = .string (formatFor name) from format] at named
  dsimp only at named
  rw [nameOf_format] at named
  exact ⟨frozen, inner, (Option.some.inj named).symm⟩

/-- A record that decodes from its canonical bytes is equal to the frozen value. -/
theorem decodeLayout_equal {name : Name} {fields : List (Str × Kind)} {v : Json F} {f r : Frozen}
    (typed : Typed D U (.record (.mk name fields)) v) (froze : freeze v = some f)
    (decoded : decodeLayout D U (.mk name fields) (canonical D v) = .ok r) : r.equal f = true := by
  obtain ⟨w, accepted, typed', -, froze'⟩ := (decodeLayout_ok D U).1 decoded
  obtain ⟨rfl, -, distinct, -⟩ := (bounded_canonical_iff D).1 accepted
  exact (equal_iff D U typed' typed (Json.sorted_distinct v distinct) distinct froze' froze).2 (Json.sorted_sorted v)

/-- What is nested in one field of a mapping. -/
theorem within_mapping {name : Option Name} {c : Frozen} {frozen : List (Str × Frozen)}
    (within : c.Within (.mapping name frozen)) :
    c = .mapping name frozen ∨ ∃ key g, (key, g) ∈ frozen ∧ c.Within g := by
  cases within with
  | self => exact .inl rfl
  | member mem inner => exact .inr ⟨_, _, mem, inner⟩

theorem within_tuple {c : Frozen} {items : List Frozen} (within : c.Within (.tuple items)) :
    c = .tuple items ∨ ∃ g ∈ items, c.Within g := by
  cases within with
  | self => exact .inl rfl
  | item mem inner => exact .inr ⟨_, mem, inner⟩

theorem freezeItems_mem {items : List (Json F)} {frozen : List Frozen} (froze : freezeItems items = some frozen)
    {f : Frozen} (mem : f ∈ frozen) : ∃ v ∈ items, freeze v = some f := by
  induction items generalizing frozen with
  | nil => obtain rfl := Option.some.inj froze; cases mem
  | cons v rest ih =>
      obtain ⟨g, first, froze⟩ := Option.bind_eq_some_iff.1 froze
      obtain ⟨gs, inner, rfl⟩ := Option.map_eq_some_iff.1 froze
      rcases List.mem_cons.1 mem with rfl | later
      · exact ⟨v, List.mem_cons_self, first⟩
      · obtain ⟨w, inside, value⟩ := ih inner later
        exact ⟨w, List.mem_cons_of_mem _ inside, value⟩

/-- **Every record nested in an accepted value decodes on its own**, under its own layout. -/
theorem nested_decodes {kind : Kind} {v : Json F} (typed : Typed D U kind v) (distinct : v.Distinct)
    (resolved : kind.Resolved) (inner : nested D U kind v = .ok ()) {f : Frozen} (froze : freeze v = some f)
    {name : Name} {members : List (Str × Frozen)} (within : (Frozen.mapping (some name) members).Within f) :
    ∃ r, decode D U name (encode D (.mapping (some name) members)) = .ok r ∧
      r.equal (.mapping (some name) members) = true := by
  induction typed generalizing f with
  | leaf admitted =>
      rcases Leaf.admits_cases U admitted with ⟨-, b, rfl⟩ | ⟨-, n, rfl⟩ | ⟨-, s, rfl⟩ <;>
        · obtain rfl := Option.some.inj froze
          cases within
  | null kind =>
      obtain rfl := Option.some.inj froze
      cases within
  | @present kind v accepted ih =>
      rw [nested] at inner
      split at inner
      · next empty =>
        rw [isNull_iff.1 empty] at froze
        obtain rfl := Option.some.inj froze
        cases within
      · exact ih distinct resolved inner froze within
  | @array element lower upper items least most each unique ih =>
      rw [freeze] at froze
      obtain ⟨frozen, frozeItems, rfl⟩ := Option.map_eq_some_iff.1 froze
      rw [nested, forM_ok] at inner
      rcases within_tuple within with same | ⟨g, mem, deeper⟩
      · cases same
      · obtain ⟨v, inside, value⟩ := freezeItems_mem frozeItems mem
        exact ih v inside ((Json.distinctItems_iff items).1 distinct v inside) resolved (inner v inside) value deeper
  | @record own fields documents format known all each related ih =>
      obtain ⟨frozen, frozeMembers, rfl⟩ := freeze_record format (all List.mem_cons_self) froze
      have typed : Typed D U (.record (.mk own fields)) (.object documents) := .record format known all each related
      rw [nested, bind_ok] at inner
      obtain ⟨r, decoded, -⟩ := inner
      rcases within_mapping within with same | ⟨key, g, mem, deeper⟩
      · obtain ⟨same', rfl⟩ := Frozen.mapping.inj same
        obtain rfl := Option.some.inj same'
        refine ⟨r, ?_, decodeLayout_equal D U typed froze decoded⟩
        rw [decode, resolved.1, encode_freeze D froze]
        exact decoded
      · obtain ⟨v, inside, value⟩ := freezeMembers_mem frozeMembers mem
        rcases member_cases distinct.1 format known inside with same | ⟨field, there, same⟩
        · obtain ⟨-, rfl⟩ := Prod.mk.inj same
          obtain rfl := Option.some.inj value
          cases deeper
        · obtain ⟨-, rfl⟩ := Prod.mk.inj same
          obtain ⟨w, accepted, -, children, -⟩ := (decodeLayout_ok D U).1 decoded
          obtain ⟨rfl, -⟩ := (bounded_canonical_iff D).1 accepted
          have children' : nestedFields D U fields (Json.sortMembers documents) = .ok () := children
          rw [nestedFields_sorted D U fields distinct.1] at children'
          exact ih field there (Json.get_distinct distinct.2 _) ((fieldsResolved_iff fields).1 resolved.2 field there)
            ((nestedFields_ok D U).1 children' field there) value deeper

/-! ## Thawing -/

mutual

theorem thaw_ok {a : Argument F} {depth count count' : Nat} {v : Json F}
    (ran : thaw a depth count = .ok (v, count')) : v = a.document ∧ count' = count + a.document.values := by
  unfold thaw at ran
  rw [seq_ok] at ran
  obtain ⟨-, ran⟩ := ran
  cases a with
  | null => obtain ⟨rfl, rfl⟩ := Prod.mk.inj (Except.ok.inj ran); exact ⟨rfl, rfl⟩
  | bool b => obtain ⟨rfl, rfl⟩ := Prod.mk.inj (Except.ok.inj ran); exact ⟨rfl, rfl⟩
  | number n => obtain ⟨rfl, rfl⟩ := Prod.mk.inj (Except.ok.inj ran); exact ⟨rfl, rfl⟩
  | string s =>
      rw [seq_ok] at ran
      obtain ⟨rfl, rfl⟩ := Prod.mk.inj (Except.ok.inj ran.2)
      exact ⟨rfl, rfl⟩
  | list items =>
      rw [seq_ok, bind_ok] at ran
      obtain ⟨-, ⟨vs, n⟩, inner, done⟩ := ran
      obtain ⟨rfl, rfl⟩ := Prod.mk.inj (Except.ok.inj done)
      obtain ⟨rfl, rfl⟩ := thawItems_ok inner
      exact ⟨rfl, by rw [Argument.document, Json.values]; omega⟩
  | dict members =>
      rw [seq_ok, bind_ok] at ran
      obtain ⟨-, ⟨vs, n⟩, inner, done⟩ := ran
      obtain ⟨rfl, rfl⟩ := Prod.mk.inj (Except.ok.inj done)
      obtain ⟨rfl, rfl⟩ := thawMembers_ok inner
      exact ⟨rfl, by rw [Argument.document, Json.values]; omega⟩
  | record members =>
      rw [bind_ok] at ran
      obtain ⟨⟨vs, n⟩, inner, done⟩ := ran
      obtain ⟨rfl, rfl⟩ := Prod.mk.inj (Except.ok.inj done)
      obtain ⟨rfl, rfl⟩ := thawMembers_ok inner
      exact ⟨rfl, by rw [Argument.document, Json.values]; omega⟩

theorem thawItems_ok {items : List (Argument F)} {depth count count' : Nat} {vs : List (Json F)}
    (ran : thawItems items depth count = .ok (vs, count')) :
    vs = argumentItems items ∧ count' = count + Json.itemsValues (argumentItems items) := by
  cases items with
  | nil => obtain ⟨rfl, rfl⟩ := Prod.mk.inj (Except.ok.inj ran); exact ⟨rfl, rfl⟩
  | cons a rest =>
      rw [thawItems, bind_ok] at ran
      obtain ⟨⟨v, n⟩, first, ran⟩ := ran
      rw [bind_ok] at ran
      obtain ⟨⟨vs, n'⟩, others, done⟩ := ran
      obtain ⟨rfl, rfl⟩ := Prod.mk.inj (Except.ok.inj done)
      obtain ⟨rfl, rfl⟩ := thaw_ok first
      obtain ⟨rfl, rfl⟩ := thawItems_ok others
      exact ⟨rfl, by rw [argumentItems, Json.itemsValues, Nat.add_assoc]⟩

theorem thawMembers_ok {members : List (Str × Argument F)} {depth count count' : Nat} {vs : List (Str × Json F)}
    (ran : thawMembers members depth count = .ok (vs, count')) :
    vs = argumentMembers members ∧ count' = count + Json.membersValues (argumentMembers members) := by
  cases members with
  | nil => obtain ⟨rfl, rfl⟩ := Prod.mk.inj (Except.ok.inj ran); exact ⟨rfl, rfl⟩
  | cons m rest =>
      obtain ⟨key, a⟩ := m
      rw [thawMembers, bind_ok] at ran
      obtain ⟨⟨v, n⟩, first, ran⟩ := ran
      rw [bind_ok] at ran
      obtain ⟨⟨vs, n'⟩, others, done⟩ := ran
      obtain ⟨rfl, rfl⟩ := Prod.mk.inj (Except.ok.inj done)
      obtain ⟨rfl, rfl⟩ := thaw_ok first
      obtain ⟨rfl, rfl⟩ := thawMembers_ok others
      exact ⟨rfl, by rw [argumentMembers, Json.membersValues, Nat.add_assoc]⟩

end

theorem argumentItems_length (items : List (Argument F)) : (argumentItems items).length = items.length := by
  induction items with
  | nil => rfl
  | cons a rest ih => rw [argumentItems, List.length_cons, List.length_cons, ih]

theorem argumentMembers_length (members : List (Str × Argument F)) :
    (argumentMembers members).length = members.length := by
  induction members with
  | nil => rfl
  | cons m rest ih => rw [argumentMembers, List.length_cons, List.length_cons, ih]

mutual

/-- A document within the limits is thawed. -/
theorem thaw_complete (a : Argument F) {depth count : Nat} (narrow : a.document.Narrow)
    (height : depth + a.document.height ≤ 8) (values : count + a.document.values ≤ 4096) :
    thaw a depth count = .ok (a.document, count + a.document.values) := by
  have one : 1 ≤ a.document.values := by cases a <;> simp [Argument.document, Json.values]
  unfold thaw
  rw [seq_ok, require_ok]
  refine ⟨⟨by omega, by omega⟩, ?_⟩
  cases a with
  | null => rfl
  | bool b => rfl
  | number n => rfl
  | string s =>
      rw [seq_ok, require_ok]
      exact ⟨narrow, rfl⟩
  | list items =>
      rw [Argument.document, Json.height] at height
      rw [Argument.document, Json.values] at values ⊢
      have length := narrow.1
      rw [argumentItems_length] at length
      have inner := @thawItems_complete items (depth + 1) (count + 1) narrow.2 (by omega) (by omega)
      rw [seq_ok, require_ok, inner]
      exact ⟨length, congrArg (fun n => Except.ok (_, n)) (by omega)⟩
  | dict members =>
      rw [Argument.document, Json.height] at height
      rw [Argument.document, Json.values] at values ⊢
      have length := narrow.1
      rw [argumentMembers_length] at length
      have inner := @thawMembers_complete members (depth + 1) (count + 1) narrow.2 (by omega) (by omega)
      rw [seq_ok, require_ok, inner]
      exact ⟨length, congrArg (fun n => Except.ok (_, n)) (by omega)⟩
  | record members =>
      rw [Argument.document, Json.height] at height
      rw [Argument.document, Json.values] at values ⊢
      have inner := @thawMembers_complete members (depth + 1) (count + 1) narrow.2 (by omega) (by omega)
      dsimp only
      rw [inner]
      exact congrArg (fun n => Except.ok (_, n)) (by omega)

theorem thawItems_complete (items : List (Argument F)) {depth count : Nat}
    (narrow : Json.NarrowItems (argumentItems items)) (height : depth + Json.itemsHeight (argumentItems items) ≤ 9)
    (values : count + Json.itemsValues (argumentItems items) ≤ 4096) :
    thawItems items depth count = .ok (argumentItems items, count + Json.itemsValues (argumentItems items)) := by
  cases items with
  | nil => rfl
  | cons a rest =>
      rw [argumentItems, Json.itemsHeight] at height
      rw [argumentItems, Json.itemsValues] at values ⊢
      rw [thawItems, thaw_complete a narrow.1 (by omega) (by omega)]
      show (thawItems rest depth _ >>= _) = _
      rw [thawItems_complete rest narrow.2 (by omega) (by omega)]
      exact congrArg (fun n => Except.ok (_, n)) (by omega)

theorem thawMembers_complete (members : List (Str × Argument F)) {depth count : Nat}
    (narrow : Json.NarrowMembers (argumentMembers members))
    (height : depth + Json.membersHeight (argumentMembers members) ≤ 9)
    (values : count + Json.membersValues (argumentMembers members) ≤ 4096) :
    thawMembers members depth count =
      .ok (argumentMembers members, count + Json.membersValues (argumentMembers members)) := by
  cases members with
  | nil => rfl
  | cons m rest =>
      obtain ⟨key, a⟩ := m
      rw [argumentMembers, Json.membersHeight] at height
      rw [argumentMembers, Json.membersValues] at values ⊢
      rw [thawMembers, thaw_complete a narrow.1 (by omega) (by omega)]
      show (thawMembers rest depth _ >>= _) = _
      rw [thawMembers_complete rest narrow.2 (by omega) (by omega)]
      exact congrArg (fun n => Except.ok (_, n)) (by omega)

end

/-! ## The sizes of accepted records -/

/-- The constants of a kind are short. -/
def Leaf.narrow : Leaf → Bool
  | .text s => s.toList.length ≤ 32768
  | _ => true

mutual

def Kind.narrow : Kind → Bool
  | .leaf leaf => leaf.narrow
  | .nullable kind => kind.narrow
  | .array element _ upper => upper ≤ 512 && element.narrow
  | .record layout => layout.narrow

def Layout.narrow : Layout → Bool
  | .mk _ fields => fields.length < 512 && fieldsNarrow fields

def fieldsNarrow : List (Str × Kind) → Bool
  | [] => true
  | (_, kind) :: rest => kind.narrow && fieldsNarrow rest

end

theorem of_narrow (name : Name) : (Layout.of name).narrow = true := by
  cases name <;> decide +kernel

theorem fieldsNarrow_iff (fields : List (Str × Kind)) :
    fieldsNarrow fields = true ↔ ∀ field ∈ fields, field.2.narrow = true := by
  induction fields with
  | nil => exact iff_of_true rfl (fun field mem => by cases mem)
  | cons field rest ih =>
      obtain ⟨key, kind⟩ := field
      rw [fieldsNarrow, Bool.and_eq_true, List.forall_mem_cons, ih]

theorem run_length {member : Char → Bool} {lower upper : Nat} {s : Str} (matched : Pattern.run member lower upper s = true) :
    s.length ≤ upper := by
  simp only [Pattern.run, Bool.and_eq_true, decide_eq_true_eq] at matched
  exact matched.1.2

theorem pattern_length {p : Pattern} {s : Str} (accepted : p.accepts s = true) : s.length ≤ 96 := by
  have after {lead : Str} {rest : Str → Bool} {bound : Nat} (matched : Pattern.after lead rest s = true)
      (short : ∀ t, rest t = true → t.length ≤ bound) : s.length ≤ lead.length + bound := by
    rw [Pattern.after, Bool.and_eq_true, List.isPrefixOf_iff_prefix] at matched
    obtain ⟨⟨tail, rfl⟩, good⟩ := matched
    rw [List.drop_left] at good
    rw [List.length_append]
    exact Nat.add_le_add_left (short tail good) _
  cases p with
  | id => exact Nat.le_trans (run_length accepted) (by decide)
  | label => exact run_length accepted
  | hash => exact Nat.le_trans (run_length accepted) (by decide)
  | call => exact Nat.le_trans (after accepted fun t => run_length) (by decide)
  | knowledge =>
      have matched : Pattern.after "knowledge-".toList (fun t => (t.head?.any fun c => isDigit c && c != '0') &&
          Pattern.run isDigit 0 5 t.tail) s = true := accepted
      refine Nat.le_trans (@after _ _ 6 matched fun t good => ?_) (by decide)
      rw [Bool.and_eq_true] at good
      have tail := run_length good.2
      rw [List.length_tail] at tail
      omega
  | word => exact Nat.le_trans (run_length accepted) (by decide)

theorem among_length {texts : List String} {s : Str} {bound : Nat} (mem : among texts s = true)
    (short : texts.all (fun text => decide (text.toList.length ≤ bound)) = true) : s.length ≤ bound := by
  rw [among, List.any_eq_true] at mem
  obtain ⟨text, inside, same⟩ := mem
  rw [beq_iff_eq] at same
  rw [← same]
  exact of_decide_eq_true (List.all_eq_true.1 short text inside)

theorem write_length {shape : List (Nat × Char)} {numbers : List Nat} (same : numbers.length = shape.length) :
    (write shape numbers).length = (shape.map fun p => p.1 + 1).sum := by
  induction shape generalizing numbers with
  | nil => cases numbers <;> rfl
  | cons p shape ih =>
      cases numbers with
      | nil => cases same
      | cons n numbers =>
          rw [write, List.length_append, List.length_cons, ih (Nat.succ.inj same), pad, List.length_map, length_digits,
            List.map_cons, List.sum_cons]
          omega

/-- An instant has 27 characters. -/
theorem utc_length {s : Str} {d : Datetime} (read : utc U s = .ok d) : s.length = 27 := by
  obtain ⟨c, valid, -, text⟩ := utc_ok U read
  have length := congrArg List.length text
  rw [List.length_map, Civil.text, write_length rfl] at length
  exact length.symm

theorem Leaf.string_length {leaf : Leaf} {s : Str} (narrow : leaf.narrow = true)
    (admitted : leaf.admits U (.string s : Json F) = .ok true) : s.length ≤ 32768 := by
  cases leaf with
  | int n => cases admitted
  | text t =>
      have same : s = t.toList := beq_iff_eq.1 (Except.ok.inj admitted)
      rw [same]
      exact of_decide_eq_true narrow
  | pattern p => exact Nat.le_trans (pattern_length (Except.ok.inj admitted)) (by decide)
  | enum e =>
      have short : e.values.all (fun text => decide (text.toList.length ≤ 64)) = true := by
        cases e <;> decide +kernel
      exact Nat.le_trans (among_length (Except.ok.inj admitted) short) (by decide)
  | whole w => cases admitted
  | bool => cases admitted
  | time =>
      obtain ⟨d, read, -⟩ := map_ok.1 admitted
      rw [utc_length U read]
      decide
  | rate =>
      have same : s = rateCard.toList := beq_iff_eq.1 (Except.ok.inj admitted)
      rw [same]
      decide +kernel
  | mapping =>
      have same : s = usageMapping.toList := beq_iff_eq.1 (Except.ok.inj admitted)
      rw [same]
      decide +kernel
  | w1Code =>
      have short : w1Codes.all (fun text => decide (text.toList.length ≤ 64)) = true := by decide +kernel
      exact Nat.le_trans (among_length (Except.ok.inj admitted) short) (by decide)

theorem format_length (name : Name) : (formatFor name).length ≤ 64 := by
  cases name <;> decide +kernel

theorem Typed.narrow {kind : Kind} {v : Json F} (typed : Typed D U kind v) (distinct : v.Distinct)
    (narrow : kind.narrow = true) : v.Narrow := by
  induction typed with
  | @leaf leaf v admitted =>
      rcases Leaf.admits_cases U admitted with ⟨-, b, rfl⟩ | ⟨-, n, rfl⟩ | ⟨-, s, rfl⟩
      · trivial
      · trivial
      · exact Leaf.string_length U narrow admitted
  | null kind => trivial
  | present inner ih => exact ih distinct narrow
  | @array element lower upper items least most each unique ih =>
      rw [Kind.narrow, Bool.and_eq_true, decide_eq_true_eq] at narrow
      refine ⟨Nat.le_trans most narrow.1, (Json.narrowItems_iff items).2 fun v mem => ?_⟩
      exact ih v mem ((Json.distinctItems_iff items).1 distinct v mem) narrow.2
  | @record name fields members format known all each related ih =>
      rw [Kind.narrow, Layout.narrow, Bool.and_eq_true, decide_eq_true_eq] at narrow
      constructor
      · have length := (List.subperm_of_subset distinct.1 known).length_le
        rw [List.length_map, List.length_cons, List.length_map] at length
        omega
      · refine (Json.narrowMembers_iff members).2 fun m mem => ?_
        rcases member_cases distinct.1 format known mem with rfl | ⟨field, there, rfl⟩
        · exact Nat.le_trans (format_length name) (by decide)
        · exact ih field there (Json.get_distinct distinct.2 _) ((fieldsNarrow_iff fields).1 narrow.2 field there)

/-! ## Making -/

theorem limitsFor_le (name : Name) : (limitsFor name).depth ≤ 8 ∧ (limitsFor name).nodes ≤ 4096 := by
  unfold limitsFor
  split <;> exact ⟨by decide, by decide⟩

/-- **`make` accepts what `decode` accepts of the canonical bytes.** -/
theorem make_iff (name : Name) (values : List (Str × Argument F)) (r : Frozen) :
    make D U name values = .ok r ↔ decode D U name (canonical D (withFormat name values).document) = .ok r := by
  rw [make, bind_ok]
  constructor
  · rintro ⟨⟨v, count⟩, thawed, decoded⟩
    rwa [(thaw_ok thawed).1] at decoded
  · intro decoded
    have read := decoded
    rw [decode] at read
    cases layout : Layout.of name with
    | mk own fields =>
      have narrow := of_narrow name
      have resolved := (of_resolved name)
      rw [layout] at read narrow resolved
      obtain ⟨w, accepted, typed, -, -⟩ := (decodeLayout_ok D U).1 read
      obtain ⟨rfl, -, -, -, -, height, values'⟩ := (bounded_canonical_iff D).1 accepted
      have limits := limitsFor_le own
      have small := Json.narrow_of_sorted _ (typed.narrow D U accepted.distinct narrow)
      exact ⟨_, thaw_complete _ small (by omega) (by omega), decoded⟩

/-! ## Fingerprints -/

theorem encode_iff {name name' : Name} {raw raw' : Bytes} {r r' : Frozen} (decoded : decode D U name raw = .ok r)
    (decoded' : decode D U name' raw' = .ok r') (same : name = name') :
    r.equal r' = true ↔ encode D r = encode D r' := by
  subst same
  rw [decode] at decoded decoded'
  cases layout : Layout.of name with
  | mk own fields =>
    rw [layout] at decoded decoded'
    obtain ⟨v, accepted, typed, -, froze⟩ := (decodeLayout_ok D U).1 decoded
    obtain ⟨w, accepted', typed', -, froze'⟩ := (decodeLayout_ok D U).1 decoded'
    rw [equal_iff D U typed typed' accepted.distinct accepted'.distinct froze froze', encode_freeze D froze,
      encode_freeze D froze']
    constructor
    · intro same
      rw [← canonical_sorted D v, ← canonical_sorted D w, same]
    · intro same
      exact Json.canonicalJson_injective D.toDoubles (utf8_injective same)

theorem domain_injective {n m : Name} (same : domain n = domain m) : n = m := by
  have apart (k : Name) : "ra-ai-budget/1".toList ≠ formatFor k := by
    intro equal
    have fourth : (formatFor k)[3]? = some 'w' := rfl
    rw [← equal] at fourth
    revert fourth
    decide
  unfold domain at same
  split at same
  · next first =>
    split at same
    · next second => rw [first, second]
    · exact absurd same (apart m)
  · split at same
    · exact absurd same.symm (apart n)
    · exact formatFor_injective same

theorem domain_line (name : Name) : 10 ∉ utf8 (domain name) := by
  cases name <;> decide +kernel

theorem split_line {a b x y : Bytes} (none_ : 10 ∉ a) (none_' : 10 ∉ b) (same : a ++ 10 :: x = b ++ 10 :: y) :
    a = b ∧ x = y := by
  induction a generalizing b with
  | nil =>
      cases b with
      | nil => exact ⟨rfl, (List.cons.inj same).2⟩
      | cons c rest => exact absurd ((List.cons.inj same).1 ▸ List.mem_cons_self) none_'
  | cons c rest ih =>
      cases b with
      | nil => exact absurd ((List.cons.inj same).1.symm ▸ List.mem_cons_self) none_
      | cons d rest' =>
          obtain ⟨rfl, tail⟩ := List.cons.inj same
          obtain ⟨rfl, behind⟩ := ih (fun mem => none_ (List.mem_cons_of_mem _ mem))
            (fun mem => none_' (List.mem_cons_of_mem _ mem)) tail
          exact ⟨rfl, behind⟩

theorem fingerprint_iff {sha256 : Bytes → Str} (free : Function.Injective sha256) {name name' : Name} {raw raw' : Bytes}
    {r r' : Frozen} (decoded : decode D U name raw = .ok r) (decoded' : decode D U name' raw' = .ok r') :
    fingerprint D sha256 name r = fingerprint D sha256 name' r' ↔ name = name' ∧ r.equal r' = true := by
  rw [fingerprint, fingerprint, free.eq_iff]
  constructor
  · intro same
    obtain ⟨domains, bytes⟩ := split_line (domain_line name) (domain_line name') same
    have names := domain_injective (utf8_injective domains)
    exact ⟨names, (encode_iff D U decoded decoded' names).2 bytes⟩
  · rintro ⟨names, equal⟩
    rw [(encode_iff D U decoded decoded' names).1 equal, names]

/-- **The record codec.**  Accepted records come back equal from their bytes, and so does every
record nested in them; `make` and `decode` accept the same of the canonical bytes; equal
records, equal bytes and, if SHA-256 has no collisions, equal fingerprints are one thing. -/
theorem record_codec :
    (∀ name raw r, decode D U name raw = .ok r →
      ∃ r', decode D U name (encode D r) = .ok r' ∧ r'.equal r = true) ∧
    (∀ name raw r, decode D U name raw = .ok r → ∀ inner members, (Frozen.mapping (some inner) members).Within r →
      ∃ c, decode D U inner (encode D (.mapping (some inner) members)) = .ok c ∧
        c.equal (.mapping (some inner) members) = true) ∧
    (∀ name values r, make D U name values = .ok r ↔
      decode D U name (canonical D (withFormat name values).document) = .ok r) ∧
    (∀ name raw raw' r r', decode D U name raw = .ok r → decode D U name raw' = .ok r' →
      (r.equal r' = true ↔ encode D r = encode D r')) ∧
    ∀ sha256 : Bytes → Str, Function.Injective sha256 → ∀ name name' raw raw' r r',
      decode D U name raw = .ok r → decode D U name' raw' = .ok r' →
        (fingerprint D sha256 name r = fingerprint D sha256 name' r' ↔ name = name' ∧ r.equal r' = true) := by
  -- an accepted record as a field of its own layout
  have nestable {name : Name} {raw : Bytes} {r : Frozen} (decoded : decode D U name raw = .ok r) :
      ∃ v, Typed D U (.record (.of name)) v ∧ v.Distinct ∧ nested D U (.record (.of name)) v = .ok () ∧
        freeze v = some r := by
    rw [decode] at decoded
    cases layout : Layout.of name with
    | mk own fields =>
      rw [layout] at decoded
      obtain ⟨v, accepted, typed, inner, froze⟩ := (decodeLayout_ok D U).1 decoded
      obtain ⟨r', -, again⟩ := decodeLayout_canonical D U accepted typed inner
      refine ⟨v, typed, accepted.distinct, ?_, froze⟩
      rw [nested, again]
      rfl
  refine ⟨?_, ?_, make_iff D U, ?_, ?_⟩
  · intro name raw r decoded
    obtain ⟨v, typed, distinct, inner, froze⟩ := nestable decoded
    rw [nested, bind_ok] at inner
    obtain ⟨r', again, -⟩ := inner
    rw [← encode_freeze D froze] at again
    refine ⟨r', again, ?_⟩
    cases layout : Layout.of name with
    | mk own fields =>
      rw [layout] at typed again
      rw [encode_freeze D froze] at again
      exact decodeLayout_equal D U typed froze again
  · intro name raw r decoded inner members within
    obtain ⟨v, typed, distinct, nests, froze⟩ := nestable decoded
    exact nested_decodes D U typed distinct (of_resolved name) nests froze within
  · intro name raw raw' r r' decoded decoded'
    exact encode_iff D U decoded decoded' rfl
  · intro sha256 free name name' raw raw' r r' decoded decoded'
    exact fingerprint_iff D U free decoded decoded'

section Pole

def asciiDecimal (c : Char) : Option Nat := if isDigit c then some (c.toNat - 48) else none

theorem asciiDecimal_ascii (c : Char) (_ : isAscii c = true) :
    asciiDecimal c = if isDigit c then some (c.toNat - 48) else none := rfl

theorem asciiDecimal_small (c : Char) (d : Nat) (value : asciiDecimal c = some d) : d < 10 := by
  unfold asciiDecimal at value
  split at value
  · next digit =>
    simp only [isDigit, Bool.and_eq_true, decide_eq_true_eq] at digit
    have high : c.toNat ≤ 57 := digit.2
    have := Option.some.inj value
    omega
  · cases value

def asciiDigits : Decimals := ⟨asciiDecimal, asciiDecimal_ascii, asciiDecimal_small⟩

private def zeros : Str := List.replicate 64 '0'

private def sourceJson : Json Unit :=
  .object [("digest".toList, .string zeros), ("format".toList, .string "ra-w2-exact-source/1".toList),
    ("knowledge_id".toList, .string "knowledge-1".toList), ("scope".toList, .string "reusable_synthetic".toList),
    ("version".toList, .number (.int 1))]

private def sourceMembers : List (Str × Frozen) :=
  [("digest".toList, .str zeros), ("format".toList, .str "ra-w2-exact-source/1".toList),
    ("knowledge_id".toList, .str "knowledge-1".toList), ("scope".toList, .str "reusable_synthetic".toList),
    ("version".toList, .int 1)]

private def sourceRecord : Frozen := .mapping (some .exactSource) sourceMembers

/-- A `RetrievalRequest` that selects one `ExactSource`. -/
private def requestJson : Json Unit :=
  .object [("format".toList, .string "ra-w2-retrieval-request/1".toList), ("keywords".toList, .array []),
    ("purpose".toList, .string "offline_context_explanation".toList), ("question_digest".toList, .string zeros),
    ("selected".toList, .array [sourceJson]), ("tags".toList, .array []), ("top_k".toList, .number (.int 4))]

private def requestRecord : Frozen :=
  .mapping (some .retrievalRequest) [("format".toList, .str "ra-w2-retrieval-request/1".toList),
    ("keywords".toList, .tuple []), ("purpose".toList, .str "offline_context_explanation".toList),
    ("question_digest".toList, .str zeros), ("selected".toList, .tuple [sourceRecord]), ("tags".toList, .tuple []),
    ("top_k".toList, .int 4)]

private def requestArguments : List (Str × Argument Unit) :=
  [("question_digest".toList, .string zeros), ("purpose".toList, .string "offline_context_explanation".toList),
    ("keywords".toList, .list []), ("tags".toList, .list []), ("selected".toList, .list [.record
      [("format".toList, .string "ra-w2-exact-source/1".toList),
        ("scope".toList, .string "reusable_synthetic".toList),
        ("knowledge_id".toList, .string "knowledge-1".toList), ("version".toList, .number (.int 1)),
        ("digest".toList, .string zeros)]]),
    ("top_k".toList, .number (.int 4))]

/-- The digest of that request's bytes, and an injective function elsewhere. -/
private def requestDigests (bytes : Bytes) : Str :=
  if bytes = utf8 (domain .retrievalRequest) ++ 10 :: canonical halfFloats requestJson then
    "154fdac39bf86fa62179349400d167ce5db32b1ae55193bcc6701dd9e904ea3f".toList
  else 'x' :: bytes.map fun b => Char.ofNat b.toNat

private theorem requestDigests_free : Function.Injective requestDigests := by
  have byte : ∀ b c : UInt8, Char.ofNat b.toNat = Char.ofNat c.toNat → b = c := by
    intro b c same
    have small (d : UInt8) : (Char.ofNat d.toNat).toNat = d.toNat := by
      have below := d.toNat_lt
      exact Proposals.toNat_ofNat_of_scalar (by omega) (by simp [Proposals.isHighSurrogate]; omega)
        (by simp [Proposals.isLowSurrogate]; omega)
    have values := congrArg Char.toNat same
    rw [small, small] at values
    exact UInt8.toNat_inj.1 values
  intro x y same
  unfold requestDigests at same
  split at same <;> split at same
  · next first second => rw [first, second]
  · cases same
  · cases same
  · exact List.map_injective_iff.2 (fun b c => byte b c) (List.cons.inj same).2

private theorem sourceJson_sorted : sourceJson.sorted = sourceJson := rfl

private theorem requestJson_sorted : requestJson.sorted = requestJson := rfl

private theorem sourceJson_distinct : sourceJson.Distinct :=
  ⟨by decide, trivial, trivial, trivial, trivial, trivial, trivial⟩

private theorem sourceJson_short : sourceJson.Short :=
  ⟨trivial, trivial, trivial, trivial, by show _ ≤ _; decide, trivial⟩

private theorem canonical_small :
    (canonical halfFloats sourceJson).length ≤ (limitsFor .exactSource).maximum ∧
      (canonical halfFloats requestJson).length ≤ (limitsFor .retrievalRequest).maximum := by
  decide +kernel

private theorem source_decodes :
    decode halfFloats asciiDigits .exactSource (canonical halfFloats sourceJson) = .ok sourceRecord := by
  have accepted : Bounded halfFloats (limitsFor .exactSource) (canonical halfFloats sourceJson) sourceJson :=
    (bounded_canonical_iff halfFloats).2 ⟨sourceJson_sorted.symm, rfl, sourceJson_distinct, sourceJson_short,
      canonical_small.1, by decide, by decide⟩
  exact (decodeLayout_ok halfFloats asciiDigits).2
    ⟨_, accepted, (validate_iff halfFloats asciiDigits _ _).1 rfl, rfl, rfl⟩

private theorem requestJson_accepted :
    Bounded halfFloats (limitsFor .retrievalRequest) (canonical halfFloats requestJson) requestJson :=
  (bounded_canonical_iff halfFloats).2 ⟨requestJson_sorted.symm, rfl,
    ⟨by decide, trivial, trivial, trivial, trivial, ⟨sourceJson_distinct, trivial⟩, trivial, trivial, trivial⟩,
    ⟨trivial, trivial, trivial, trivial, ⟨sourceJson_short, trivial⟩, trivial, by show _ ≤ _; decide, trivial⟩,
    canonical_small.2, by decide, by decide⟩

private theorem requestJson_typed :
    Typed halfFloats asciiDigits (.record Layout.retrievalRequest) requestJson :=
  (validate_iff halfFloats asciiDigits _ _).1 rfl

private theorem nested_leaf {leaf : Leaf} (v : Json Unit) :
    nested halfFloats asciiDigits (.leaf leaf) v = .ok () := by
  rw [nested]

private theorem nested_leaves {leaf : Leaf} {lower upper : Nat} (v : Json Unit) :
    nested halfFloats asciiDigits (.array (.leaf leaf) lower upper) v = .ok () := by
  rw [nested]
  induction v.asItems with
  | nil => rfl
  | cons item rest ih => exact seq_ok.2 ⟨nested_leaf item, ih⟩

private theorem nested_singleton {element : Kind} {lower upper : Nat} {v : Json Unit}
    (inner : nested halfFloats asciiDigits element v = .ok ()) :
    nested halfFloats asciiDigits (.array element lower upper) (.array [v]) = .ok () := by
  rw [nested]
  exact seq_ok.2 ⟨inner, rfl⟩

private theorem requestJson_selected :
    Json.get requestJson.asMembers "selected".toList = .array [sourceJson] := rfl

private theorem requestJson_nested :
    nestedFields halfFloats asciiDigits Layout.retrievalRequest.fields requestJson.asMembers = .ok () := by
  have source : nested halfFloats asciiDigits (.record Layout.exactSource) sourceJson = .ok () := by
    have decoded : decodeLayout halfFloats asciiDigits Layout.exactSource (canonical halfFloats sourceJson) =
        .ok sourceRecord := source_decodes
    rw [nested, decoded]
    rfl
  have selected : nested halfFloats asciiDigits (.array (.record Layout.exactSource) 1 32)
      (Json.get requestJson.asMembers "selected".toList) = .ok () := by
    rw [requestJson_selected]
    exact nested_singleton source
  refine (nestedFields_ok halfFloats asciiDigits).2 ?_
  simp only [Layout.retrievalRequest, Layout.fields, List.forall_mem_cons]
  exact ⟨nested_leaf _, nested_leaf _, nested_leaves _, nested_leaves _, selected, nested_leaf _,
    List.forall_mem_nil _⟩

private theorem request_decodes :
    decode halfFloats asciiDigits .retrievalRequest (canonical halfFloats requestJson) = .ok requestRecord :=
  (decodeLayout_ok halfFloats asciiDigits).2
    ⟨requestJson, requestJson_accepted, requestJson_typed, requestJson_nested, rfl⟩

private theorem requestArguments_canonical :
    canonical halfFloats requestJson =
      canonical halfFloats (withFormat .retrievalRequest requestArguments).document := by
  have sorted : (withFormat .retrievalRequest requestArguments).document.sorted = requestJson := rfl
  rw [← sorted, canonical_sorted]

/-- The source is selected by the request, and decodes on its own. -/
theorem record_codec_request :
    (∃ r', decode halfFloats asciiDigits .retrievalRequest (encode halfFloats requestRecord) = .ok r' ∧
      r'.equal requestRecord = true) ∧
    (∃ c, decode halfFloats asciiDigits .exactSource (encode halfFloats sourceRecord) = .ok c ∧
      c.equal sourceRecord = true) ∧
    make halfFloats asciiDigits .retrievalRequest requestArguments = .ok requestRecord ∧
    (requestRecord.equal requestRecord = true ↔
      encode halfFloats requestRecord = encode halfFloats requestRecord) ∧
    (fingerprint halfFloats requestDigests .retrievalRequest requestRecord =
        fingerprint halfFloats requestDigests .exactSource sourceRecord ↔
      Name.retrievalRequest = .exactSource ∧ requestRecord.equal sourceRecord = true) := by
  have law := record_codec halfFloats asciiDigits
  have selected : sourceRecord.Within requestRecord :=
    .member (List.mem_cons_of_mem _ (List.mem_cons_of_mem _ (List.mem_cons_of_mem _ (List.mem_cons_of_mem _
      List.mem_cons_self)))) (.item List.mem_cons_self (.self _))
  exact ⟨law.1 _ _ _ request_decodes, law.2.1 _ _ _ request_decodes _ _ selected,
    (law.2.2.1 _ _ _).2 (requestArguments_canonical ▸ request_decodes), law.2.2.2.1 _ _ _ _ _ request_decodes request_decodes,
    law.2.2.2.2 requestDigests requestDigests_free _ _ _ _ _ _ request_decodes source_decodes⟩

end Pole

end ApiSecurityPlatform.Ports
