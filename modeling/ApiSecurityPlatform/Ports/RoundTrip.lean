/-
# Ports.RoundTrip -- records come back from their bytes

What `decode` returns (`decodeLayout_ok`), it returns again from the canonical bytes, with its
members sorted (`decodeLayout_canonical`).  Two frozen values are equal when the values they
were frozen from differ in the order of members alone (`equal_iff`).
-/
import ApiSecurityPlatform.Ports.Typing

namespace ApiSecurityPlatform.Ports

open ApiSecurityPlatform.Theory
open ApiSecurityPlatform.Python
open ApiSecurityPlatform.Proposals (Bytes Floats Limits Bounded boundedJson boundedJson_iff canonical utf8)

set_option autoImplicit false

variable {F : Type} (D : Floats F) (U : Decimals)

/-! ## Freezing and thawing -/

mutual

theorem freeze_document {v : Json F} {f : Frozen} (froze : freeze v = some f) : f.document = v := by
  cases v with
  | null => obtain rfl := Option.some.inj froze; rfl
  | bool b => obtain rfl := Option.some.inj froze; rfl
  | number n =>
      cases n with
      | int n => obtain rfl := Option.some.inj froze; rfl
      | float x => cases froze
  | string s => obtain rfl := Option.some.inj froze; rfl
  | array items =>
      rw [freeze] at froze
      obtain ⟨frozen, inner, rfl⟩ := Option.map_eq_some_iff.1 froze
      rw [Frozen.document, freezeItems_document inner]
  | object members =>
      rw [freeze] at froze
      obtain ⟨frozen, inner, named⟩ := Option.bind_eq_some_iff.1 froze
      have document := freezeMembers_document inner
      split at named
      · obtain rfl := Option.some.inj named
        rw [Frozen.document, document]
      · obtain ⟨name, -, rfl⟩ := Option.map_eq_some_iff.1 named
        rw [Frozen.document, document]

theorem freezeItems_document {items : List (Json F)} {frozen : List Frozen} (froze : freezeItems items = some frozen) :
    documentItems frozen = items := by
  cases items with
  | nil => obtain rfl := Option.some.inj froze; rfl
  | cons v rest =>
      rw [freezeItems] at froze
      obtain ⟨f, first, froze⟩ := Option.bind_eq_some_iff.1 froze
      obtain ⟨others, inner, rfl⟩ := Option.map_eq_some_iff.1 froze
      rw [documentItems, freeze_document first, freezeItems_document inner]

theorem freezeMembers_document {members : List (Str × Json F)} {frozen : List (Str × Frozen)}
    (froze : freezeMembers members = some frozen) : documentMembers frozen = members := by
  cases members with
  | nil => obtain rfl := Option.some.inj froze; rfl
  | cons m rest =>
      obtain ⟨key, v⟩ := m
      rw [freezeMembers] at froze
      obtain ⟨f, first, froze⟩ := Option.bind_eq_some_iff.1 froze
      obtain ⟨others, inner, rfl⟩ := Option.map_eq_some_iff.1 froze
      rw [documentMembers, freeze_document first, freezeMembers_document inner]

end

theorem encode_freeze {v : Json F} {f : Frozen} (froze : freeze v = some f) : encode D f = canonical D v := by
  rw [encode, freeze_document froze]

/-! ## Nested records -/

theorem nested_sorted (kind : Kind) (v : Json F) : nested D U kind v.sorted = nested D U kind v := by
  cases kind with
  | leaf leaf => rw [nested, nested]
  | nullable kind => rw [nested, nested, Json.isNull_sorted, nested_sorted kind v]
  | array element lower upper =>
      have each : (fun item : Json F => nested D U element item.sorted) = fun item => nested D U element item :=
        funext fun item => nested_sorted element item
      rw [nested, nested, Json.asItems_sorted]
      show forM (v.asItems.map Json.sorted) (fun item => nested D U element item) = _
      rw [List.forM_map, each]
      rfl
  | record layout => rw [nested, nested, canonical_sorted]

theorem nestedFields_sorted (fields : List (Str × Kind)) {members : List (Str × Json F)}
    (distinct : (members.map Prod.fst).Nodup) :
    nestedFields D U fields (Json.sortMembers members) = nestedFields D U fields members := by
  induction fields with
  | nil => rfl
  | cons field rest ih =>
      obtain ⟨key, kind⟩ := field
      rw [nestedFields, nestedFields, ih, Json.get_sorted distinct, nested_sorted]

theorem nestedFields_ok {fields : List (Str × Kind)} {members : List (Str × Json F)} :
    nestedFields D U fields members = .ok () ↔ ∀ field ∈ fields, nested D U field.2 (Json.get members field.1) = .ok () := by
  induction fields with
  | nil => exact iff_of_true rfl (fun field mem => by cases mem)
  | cons field rest ih =>
      obtain ⟨key, kind⟩ := field
      rw [nestedFields, seq_ok, List.forall_mem_cons, ih]

/-! ## Decoding -/

theorem readJson_ok {limits : Limits} {raw : Bytes} {v : Json F} :
    readJson D limits raw = .ok v ↔ Bounded D limits raw v := by
  rw [← boundedJson_iff D limits .outputLimit, readJson]
  split
  · next w read => rw [read, Except.ok.injEq, Except.ok.injEq]
  · next failed => rw [failed]; exact iff_of_false (fun same => nomatch same) (fun same => nomatch same)
  · next failed => rw [failed]; exact iff_of_false (fun same => nomatch same) (fun same => nomatch same)

/-- **What `decode` returns**: the frozen value of bounded JSON that is typed and whose nested
records decode. -/
theorem decodeLayout_ok {name : Name} {fields : List (Str × Kind)} {raw : Bytes} {r : Frozen} :
    decodeLayout D U (.mk name fields) raw = .ok r ↔ ∃ v, Bounded D (limitsFor name) raw v ∧
      Typed D U (.record (.mk name fields)) v ∧ nestedFields D U fields v.asMembers = .ok () ∧ freeze v = some r := by
  rw [decodeLayout, bind_ok]
  refine exists_congr fun v => ?_
  rw [readJson_ok, seq_ok, validate_iff, seq_ok]
  refine and_congr_right fun _ => and_congr_right fun _ => and_congr_right fun _ => ?_
  split
  · next record froze => rw [froze, Except.ok.injEq, Option.some.injEq]
  · next froze => rw [froze]; exact iff_of_false (fun same => nomatch same) (fun same => nomatch same)

/-- An accepted value decodes from its canonical bytes, with its members sorted. -/
theorem decodeLayout_canonical {name : Name} {fields : List (Str × Kind)} {raw : Bytes} {v : Json F}
    (accepted : Bounded D (limitsFor name) raw v) (typed : Typed D U (.record (.mk name fields)) v)
    (inner : nestedFields D U fields v.asMembers = .ok ()) :
    ∃ r, freeze v.sorted = some r ∧ decodeLayout D U (.mk name fields) (canonical D v) = .ok r := by
  have again := accepted.canonical D (typed.integral D U accepted.distinct)
  have typed' := typed.sorted D U accepted.distinct
  obtain ⟨r, froze⟩ := typed'.freezes D U again.distinct
  refine ⟨r, froze, (decodeLayout_ok D U).2 ⟨v.sorted, again, typed', ?_, froze⟩⟩
  cases v with
  | object members =>
      show nestedFields D U fields (Json.sortMembers members) = .ok ()
      rw [nestedFields_sorted D U fields accepted.distinct.1]
      exact inner
  | null => cases typed
  | bool b => cases typed
  | number n => cases typed
  | string s => cases typed
  | array items => cases typed

/-! ## Equality -/

theorem freezeMembers_cons {key : Str} {v : Json F} {rest : List (Str × Json F)} {frozen : List (Str × Frozen)}
    (froze : freezeMembers ((key, v) :: rest) = some frozen) :
    ∃ f others, freeze v = some f ∧ freezeMembers rest = some others ∧ frozen = (key, f) :: others := by
  rw [freezeMembers] at froze
  obtain ⟨f, first, froze⟩ := Option.bind_eq_some_iff.1 froze
  obtain ⟨others, inner, rfl⟩ := Option.map_eq_some_iff.1 froze
  exact ⟨f, others, first, inner, rfl⟩

theorem freezeMembers_keys {members : List (Str × Json F)} {frozen : List (Str × Frozen)}
    (froze : freezeMembers members = some frozen) : frozen.map Prod.fst = members.map Prod.fst := by
  induction members generalizing frozen with
  | nil => obtain rfl := Option.some.inj froze; rfl
  | cons m rest ih =>
      obtain ⟨f, others, -, inner, rfl⟩ := freezeMembers_cons froze
      rw [List.map_cons, List.map_cons, ih inner]

theorem freezeMembers_mem {members : List (Str × Json F)} {frozen : List (Str × Frozen)}
    (froze : freezeMembers members = some frozen) {key : Str} {f : Frozen} (mem : (key, f) ∈ frozen) :
    ∃ v, (key, v) ∈ members ∧ freeze v = some f := by
  induction members generalizing frozen with
  | nil => obtain rfl := Option.some.inj froze; cases mem
  | cons m rest ih =>
      obtain ⟨g, others, first, inner, rfl⟩ := freezeMembers_cons froze
      rcases List.mem_cons.1 mem with same | later
      · obtain ⟨rfl, rfl⟩ := Prod.mk.inj same
        exact ⟨m.2, List.mem_cons_self, first⟩
      · obtain ⟨v, inside, value⟩ := ih inner later
        exact ⟨v, List.mem_cons_of_mem _ inside, value⟩

theorem freezeMembers_lookup {members : List (Str × Json F)} {frozen : List (Str × Frozen)}
    (froze : freezeMembers members = some frozen) {key : Str} {v : Json F} (found : members.lookup key = some v) :
    ∃ f, frozen.lookup key = some f ∧ freeze v = some f := by
  induction members generalizing frozen with
  | nil => cases found
  | cons m rest ih =>
      obtain ⟨key', w⟩ := m
      obtain ⟨g, others, first, inner, rfl⟩ := freezeMembers_cons froze
      rw [List.lookup_cons] at found ⊢
      cases same : key == key' with
      | true =>
          rw [same] at found
          obtain rfl := Option.some.inj found
          exact ⟨g, rfl, first⟩
      | false =>
          rw [same] at found
          exact ih inner found

/-- The items of a mapping equal those of another where the values under each key do. -/
theorem equalMembers_iff {frozen others : List (Str × Frozen)} :
    equalMembers frozen others = true ↔ ∀ m ∈ frozen, ∃ g, others.lookup m.1 = some g ∧ m.2.equal g = true := by
  induction frozen with
  | nil => simp [equalMembers]
  | cons m rest ih =>
      obtain ⟨key, f⟩ := m
      rw [equalMembers, Bool.and_eq_true, ih, List.forall_mem_cons, Option.any_eq_true]

/-- Sorted objects are the same when the values under each key are, once sorted. -/
theorem sorted_object_iff {members members' : List (Str × Json F)} (distinct : (members.map Prod.fst).Nodup)
    (distinct' : (members'.map Prod.fst).Nodup) (keys : members.map Prod.fst ⊆ members'.map Prod.fst)
    (length : members.length = members'.length) :
    (Json.object members).sorted = (Json.object members').sorted ↔
      ∀ key ∈ members.map Prod.fst, (Json.get members key).sorted = (Json.get members' key).sorted := by
  constructor
  · intro same key _
    rw [Json.sorted_object, Json.sorted_object, Json.object.injEq] at same
    rw [← Json.get_sorted distinct, ← Json.get_sorted distinct', same]
  · intro each
    rw [Json.sorted_object, Json.sorted_object, Json.object.injEq, Json.sortMembers, Json.sortMembers]
    have keys' : ((Json.sortedMembers members).map Prod.fst).Nodup := by rwa [Json.sortedMembers_keys]
    refine (Json.sort_eq_iff keys').2 ?_
    refine List.Subperm.perm_of_length_le (List.subperm_of_subset (List.Nodup.of_map _ keys') ?_) ?_
    · intro m mem
      rw [Json.sortedMembers_eq] at mem ⊢
      obtain ⟨⟨key, v⟩, inside, rfl⟩ := List.mem_map.1 mem
      have key_mem : key ∈ members.map Prod.fst := List.mem_map_of_mem inside
      obtain ⟨w, found⟩ := lookup_of_key (keys key_mem)
      have value := each key key_mem
      rw [get_mem distinct inside, Json.get, found] at value
      refine List.mem_map.2 ⟨(key, w), lookup_mem found, ?_⟩
      rw [value]
      rfl
    · rw [Json.sortedMembers_eq, Json.sortedMembers_eq, List.length_map, List.length_map, length]

theorem sorted_null {v : Json F} : v.sorted = .null ↔ v = .null := by
  cases v <;> simp [Json.sorted]

theorem equal_none {v : Json F} {f : Frozen} (froze : freeze v = some f) : f.equal .none = true ↔ v = .null := by
  have document := freeze_document froze
  constructor
  · intro same
    cases f with
    | none => exact document.symm
    | bool b => cases same
    | int n => cases same
    | str s => cases same
    | tuple items => cases same
    | mapping name members => cases same
  · rintro rfl
    obtain rfl := Option.some.inj froze
    rfl

theorem none_equal {v : Json F} {f : Frozen} (froze : freeze v = some f) : Frozen.none.equal f = true ↔ v = .null := by
  have document := freeze_document froze
  constructor
  · intro same
    cases f with
    | none => exact document.symm
    | bool b => cases same
    | int n => cases same
    | str s => cases same
    | tuple items => cases same
    | mapping name members => cases same
  · rintro rfl
    obtain rfl := Option.some.inj froze
    rfl

theorem equalItems_iff {items items' : List (Json F)} {frozen others : List Frozen}
    (froze : freezeItems items = some frozen) (froze' : freezeItems items' = some others)
    (each : ∀ v ∈ items, ∀ w ∈ items', ∀ f g, freeze v = some f → freeze w = some g →
      (f.equal g = true ↔ v.sorted = w.sorted)) :
    equalItems frozen others = true ↔ items.map Json.sorted = items'.map Json.sorted := by
  induction items generalizing items' frozen others with
  | nil =>
      obtain rfl := Option.some.inj froze
      cases items' with
      | nil =>
          obtain rfl := Option.some.inj froze'
          exact iff_of_true rfl rfl
      | cons w rest' =>
          obtain ⟨g, -, froze'⟩ := Option.bind_eq_some_iff.1 froze'
          obtain ⟨gs, -, rfl⟩ := Option.map_eq_some_iff.1 froze'
          exact iff_of_false Bool.false_ne_true (fun same => nomatch same)
  | cons v rest ih =>
      obtain ⟨f, first, froze⟩ := Option.bind_eq_some_iff.1 froze
      obtain ⟨fs, inner, rfl⟩ := Option.map_eq_some_iff.1 froze
      cases items' with
      | nil =>
          obtain rfl := Option.some.inj froze'
          exact iff_of_false Bool.false_ne_true (fun same => nomatch same)
      | cons w rest' =>
          obtain ⟨g, first', froze'⟩ := Option.bind_eq_some_iff.1 froze'
          obtain ⟨gs, inner', rfl⟩ := Option.map_eq_some_iff.1 froze'
          have others := ih inner inner' fun v mem w mem' => each v (List.mem_cons_of_mem _ mem) w (List.mem_cons_of_mem _ mem')
          rw [equalItems, Bool.and_eq_true, each v List.mem_cons_self w List.mem_cons_self f g first first', others,
            List.map_cons, List.map_cons, List.cons.injEq]

/-- **Records of one layout are equal exactly when their documents are, member order apart.** -/
theorem equal_iff {kind : Kind} {v w : Json F} {f g : Frozen} (typed : Typed D U kind v) (typed' : Typed D U kind w)
    (distinct : v.Distinct) (distinct' : w.Distinct) (froze : freeze v = some f) (froze' : freeze w = some g) :
    f.equal g = true ↔ v.sorted = w.sorted := by
  induction typed generalizing w f g with
  | @leaf leaf v admitted =>
      cases typed' with
      | leaf admitted' =>
        rcases Leaf.admits_cases U admitted with ⟨shape, b, rfl⟩ | ⟨shape, n, rfl⟩ | ⟨shape, s, rfl⟩ <;>
          rcases Leaf.admits_cases U admitted' with ⟨shape', b', rfl⟩ | ⟨shape', n', rfl⟩ | ⟨shape', s', rfl⟩ <;>
          first
            | (rw [shape] at shape'; cases shape'; done)
            | (obtain rfl := Option.some.inj froze
               obtain rfl := Option.some.inj froze'
               simp [Frozen.equal, Json.sorted])
  | null kind =>
      obtain rfl := Option.some.inj froze
      rw [none_equal froze', ← sorted_null (v := w)]
      exact eq_comm
  | @present kind v inner ih =>
      cases typed' with
      | null =>
          obtain rfl := Option.some.inj froze'
          rw [equal_none froze, ← sorted_null (v := v)]
          rfl
      | present inner' => exact ih inner' distinct distinct' froze froze'
  | @array element lower upper items least most each unique ih =>
      cases typed' with
      | @array _ _ _ items' least' most' each' unique' =>
        rw [freeze] at froze froze'
        obtain ⟨fs, inner, rfl⟩ := Option.map_eq_some_iff.1 froze
        obtain ⟨gs, inner', rfl⟩ := Option.map_eq_some_iff.1 froze'
        rw [Frozen.equal, Json.sorted, Json.sorted, Json.array.injEq, Json.sortedItems_eq, Json.sortedItems_eq]
        exact equalItems_iff inner inner' fun v mem w mem' f g => ih v mem (each' w mem')
          ((Json.distinctItems_iff items).1 distinct v mem) ((Json.distinctItems_iff items').1 distinct' w mem')
  | @record name fields members format known all each related ih =>
      cases typed' with
      | @record _ _ members' format' known' all' each' related' =>
        rw [freeze] at froze froze'
        obtain ⟨fs, inner, named⟩ := Option.bind_eq_some_iff.1 froze
        obtain ⟨gs, inner', named'⟩ := Option.bind_eq_some_iff.1 froze'
        obtain ⟨o, rfl⟩ : ∃ o, f = .mapping o fs := by
          split at named
          · exact ⟨_, (Option.some.inj named).symm⟩
          · obtain ⟨n, -, rfl⟩ := Option.map_eq_some_iff.1 named
            exact ⟨_, rfl⟩
        obtain ⟨o', rfl⟩ : ∃ o, g = .mapping o gs := by
          split at named'
          · exact ⟨_, (Option.some.inj named').symm⟩
          · obtain ⟨n, -, rfl⟩ := Option.map_eq_some_iff.1 named'
            exact ⟨_, rfl⟩
        have keys : members.map Prod.fst ⊆ members'.map Prod.fst := fun key mem => all' (known mem)
        have keys' : members'.map Prod.fst ⊆ members.map Prod.fst := fun key mem => all (known' mem)
        have length : members.length = members'.length := by
          have one := (List.subperm_of_subset distinct.1 keys).length_le
          have two := (List.subperm_of_subset distinct'.1 keys').length_le
          rw [List.length_map, List.length_map] at one two
          omega
        have lengths : fs.length = gs.length := by
          have one := congrArg List.length (freezeMembers_keys inner)
          have two := congrArg List.length (freezeMembers_keys inner')
          rw [List.length_map, List.length_map] at one two
          omega
        rw [sorted_object_iff distinct.1 distinct'.1 keys length, Frozen.equal, Bool.and_eq_true, beq_iff_eq,
          equalMembers_iff]
        -- one key of both
        have value (key : Str) (mem : key ∈ members.map Prod.fst) {f g : Frozen}
            (first : freeze (Json.get members key) = some f) (second : freeze (Json.get members' key) = some g) :
            f.equal g = true ↔ (Json.get members key).sorted = (Json.get members' key).sorted := by
          rcases List.mem_cons.1 (known mem) with rfl | inside
          · rw [format] at first ⊢
            rw [format'] at second ⊢
            obtain rfl := Option.some.inj first
            obtain rfl := Option.some.inj second
            simp [Frozen.equal]
          · obtain ⟨field, there, rfl⟩ := List.mem_map.1 inside
            exact ih field there (each' field there) (Json.get_distinct distinct.2 _) (Json.get_distinct distinct'.2 _)
              first second
        have read {members : List (Str × Json F)} {fs : List (Str × Frozen)} (inner : freezeMembers members = some fs)
            {key : Str} (mem : key ∈ members.map Prod.fst) :
            ∃ f, fs.lookup key = some f ∧ freeze (Json.get members key) = some f := by
          obtain ⟨v, found⟩ := lookup_of_key mem
          obtain ⟨f, there, frozen⟩ := freezeMembers_lookup inner found
          exact ⟨f, there, by rw [Json.get, found]; exact frozen⟩
        constructor
        · rintro ⟨-, same⟩ key mem
          obtain ⟨f, there, frozen⟩ := read inner mem
          obtain ⟨g, there', equal⟩ := same (key, f) (lookup_mem there)
          obtain ⟨g', there'', frozen'⟩ := read inner' (keys mem)
          obtain rfl := Option.some.inj (there'.symm.trans there'')
          exact (value key mem frozen frozen').1 equal
        · intro same
          refine ⟨lengths, fun m mem => ?_⟩
          obtain ⟨key, f⟩ := m
          obtain ⟨v, inside, frozen⟩ := freezeMembers_mem inner mem
          have there : key ∈ members.map Prod.fst := List.mem_map_of_mem inside
          obtain ⟨g, found, frozen'⟩ := read inner' (keys there)
          have here : Json.get members key = v := get_mem distinct.1 inside
          rw [← here] at frozen
          exact ⟨g, found, (value key there frozen frozen').2 (same key there)⟩

end ApiSecurityPlatform.Ports
