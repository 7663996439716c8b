/-
# Execution.Screening -- no credential enters a policy context

`_is_secret_bearing_key` strips qualifiers from the front as long as one fits.  No qualifier
is the beginning of another, so the first that fits is the only one, and the strip ends with
nothing exactly on the keys made of a base and qualifiers (`isSecretBearingKey_iff`).

`_reject_secret_context` visits every container, so a context that is accepted has no such
key and no bearer credential at any depth (`admitted_within`).  What is frozen is accepted
again, as it stands (`canonicalize_again`).
-/
import ApiSecurityPlatform.Execution.PlanDigest

namespace ApiSecurityPlatform.Execution

open ApiSecurityPlatform.Theory
open ApiSecurityPlatform.Python

set_option autoImplicit false

/-! ## Keys -/

/-- A key in lower case, without anything but letters and digits. -/
def normalizedKey (U : Unicode) (key : Str) : Str :=
  (U.lower key).filter fun c => ('a' ≤ c && c ≤ 'z') || isDigit c

/-- A base and zero or more qualifiers. -/
def SecretName (name : Str) : Prop :=
  ∃ base ∈ secretKeyBases, ∃ qualifiers : List Str,
    (∀ q ∈ qualifiers, q ∈ secretKeyQualifiers) ∧ name = base ++ qualifiers.flatten

theorem qualifiers_ne_nil : ∀ q ∈ secretKeyQualifiers, q ≠ [] := by
  decide

/-- No qualifier is the beginning of another. -/
theorem qualifiers_free : ∀ q ∈ secretKeyQualifiers, ∀ r ∈ secretKeyQualifiers, q <+: r → q = r := by
  decide

theorem qualifier_unique {q r s : Str} (mem : q ∈ secretKeyQualifiers) (mem' : r ∈ secretKeyQualifiers)
    (leads : q <+: s) (leads' : r <+: s) : q = r := by
  rcases List.prefix_or_prefix_of_prefix leads leads' with shorter | longer
  · exact qualifiers_free q mem r mem' shorter
  · exact (qualifiers_free r mem' q mem longer).symm

/-- **The greedy strip is complete.** -/
theorem onlyQualifiers_iff {fuel : Nat} {s : Str} (enough : s.length ≤ fuel) :
    onlyQualifiers fuel s = true ↔ ∃ qualifiers : List Str,
      (∀ q ∈ qualifiers, q ∈ secretKeyQualifiers) ∧ s = qualifiers.flatten := by
  induction fuel generalizing s with
  | zero =>
      obtain rfl := List.eq_nil_of_length_eq_zero (Nat.le_zero.1 enough)
      exact iff_of_true rfl ⟨[], (fun _ none_ => nomatch none_), rfl⟩
  | succ fuel ih =>
      cases s with
      | nil => exact iff_of_true rfl ⟨[], (fun _ none_ => nomatch none_), rfl⟩
      | cons c rest =>
          rw [onlyQualifiers.eq_3 _ _ (by simp)]
          cases found : secretKeyQualifiers.find? fun q => q.isPrefixOf (c :: rest) with
          | none =>
              refine iff_of_false Bool.false_ne_true ?_
              rintro ⟨qualifiers, listed, text⟩
              cases qualifiers with
              | nil => cases text
              | cons q more =>
                  have mem := listed q List.mem_cons_self
                  refine List.find?_eq_none.1 found q mem (List.isPrefixOf_iff_prefix.2 ?_)
                  exact ⟨more.flatten, text.symm⟩
          | some q =>
              have mem := List.mem_of_find?_eq_some found
              have fits : q.isPrefixOf (c :: rest) = true :=
                List.find?_some (p := fun q : Str => q.isPrefixOf (c :: rest)) found
              obtain ⟨tail, text⟩ := List.isPrefixOf_iff_prefix.1 fits
              have shorter : tail.length ≤ fuel := by
                have lengths := congrArg List.length text
                have some_ := List.length_pos_of_ne_nil (qualifiers_ne_nil q mem)
                rw [List.length_append] at lengths
                omega
              have dropped : (c :: rest).drop q.length = tail := by
                rw [← text, List.drop_left]
              show onlyQualifiers fuel ((c :: rest).drop q.length) = true ↔ _
              rw [dropped, ih shorter]
              constructor
              · rintro ⟨qualifiers, listed, rfl⟩
                exact ⟨q :: qualifiers, List.forall_mem_cons.2 ⟨mem, listed⟩, text.symm⟩
              · rintro ⟨qualifiers, listed, whole⟩
                cases qualifiers with
                | nil => cases whole
                | cons r more =>
                    obtain ⟨mem', listed'⟩ := List.forall_mem_cons.1 listed
                    -- two qualifiers that fit here are one
                    have same : q = r := qualifier_unique mem mem' ⟨tail, text⟩ ⟨more.flatten, whole.symm⟩
                    subst same
                    rw [← text, List.flatten_cons] at whole
                    exact ⟨more, listed', List.append_cancel_left whole⟩

theorem isSecretBearingKey_iff (U : Unicode) (key : Str) :
    isSecretBearingKey U key = true ↔ SecretName (normalizedKey U key) := by
  show (secretKeyBases.any fun base => base.isPrefixOf (normalizedKey U key) &&
    onlyQualifiers (normalizedKey U key).length ((normalizedKey U key).drop base.length)) = true ↔ _
  rw [List.any_eq_true]
  refine exists_congr fun base => and_congr_right fun _ => ?_
  rw [Bool.and_eq_true, List.isPrefixOf_iff_prefix]
  have enough : ((normalizedKey U key).drop base.length).length ≤ (normalizedKey U key).length := by
    rw [List.length_drop]
    omega
  rw [onlyQualifiers_iff enough]
  constructor
  · rintro ⟨⟨tail, text⟩, qualifiers, listed, rest⟩
    rw [← text, List.drop_left] at rest
    exact ⟨qualifiers, listed, by rw [← text, rest]⟩
  · rintro ⟨qualifiers, listed, text⟩
    exact ⟨⟨qualifiers.flatten, text.symm⟩, qualifiers, listed, by rw [text, List.drop_left]⟩

/-! ## Values -/

/-- White space, `bearer` in any case, white space, and something else. -/
def BearerCredential (value : Str) : Prop :=
  ∃ lead word gap : Str, ∃ c : Char, ∃ rest : Str, value = lead ++ word ++ gap ++ c :: rest ∧
    (∀ d ∈ lead, isSpace d = true) ∧ word.map Char.toLower = "bearer".toList ∧
    gap ≠ [] ∧ (∀ d ∈ gap, isSpace d = true) ∧ isSpace c = false

theorem lstrip_append {drop : Char → Bool} {lead s : Str} (dropped : ∀ d ∈ lead, drop d = true)
    (stays : ∀ d ∈ s.head?, drop d = false) : lstrip drop (lead ++ s) = s := by
  rw [lstrip, List.dropWhile_append_of_pos dropped]
  cases s with
  | nil => rfl
  | cons c rest => rw [List.dropWhile_cons_of_neg (by rw [stays c rfl]; exact Bool.false_ne_true)]

theorem lstrip_split (drop : Char → Bool) (s : Str) :
    ∃ lead, s = lead ++ lstrip drop s ∧ (∀ d ∈ lead, drop d = true) ∧ ∀ d ∈ (lstrip drop s).head?, drop d = false := by
  refine ⟨s.takeWhile drop, (List.takeWhile_append_dropWhile).symm, fun d => List.mem_takeWhile_imp, ?_⟩
  intro d first
  have stays := List.head?_dropWhile_not drop s
  rw [lstrip] at first
  rw [Option.mem_def] at first
  rw [first] at stays
  simpa using stays

theorem toLower_of_space {c : Char} (space : isSpace c = true) : c.toLower = c := by
  refine toLower_of_not_upper fun upper => ?_
  simp only [isSpace, Bool.or_eq_true, Bool.and_eq_true, decide_eq_true_eq, beq_iff_eq] at space
  have low : 65 ≤ c.toNat := upper.1
  have high : c.toNat ≤ 90 := upper.2
  omega

theorem startsBearer_iff (value : Str) : startsBearer value = true ↔ BearerCredential value := by
  constructor
  · intro starts
    simp only [startsBearer, Bool.and_eq_true, beq_iff_eq] at starts
    obtain ⟨⟨word, spaced⟩, filled⟩ := starts
    obtain ⟨lead, whole, led, -⟩ := lstrip_split isSpace value
    obtain ⟨gap, after, spaces, stays⟩ := lstrip_split isSpace ((lstrip isSpace value).drop 6)
    cases tail : lstrip isSpace ((lstrip isSpace value).drop 6) with
    | nil =>
        rw [tail] at filled
        cases filled
    | cons c rest =>
        rw [tail] at after stays
        refine ⟨lead, (lstrip isSpace value).take 6, gap, c, rest, ?_, led, word, ?_, spaces, stays c rfl⟩
        · rw [List.append_assoc, ← after, List.append_assoc, List.take_append_drop]
          exact whole
        · rintro rfl
          rw [after, List.nil_append, List.head?_cons, Option.map_some, Option.getD_some, stays c rfl] at spaced
          cases spaced
  · rintro ⟨lead, word, gap, c, rest, rfl, led, bearer, some_, spaces, other⟩
    have six : word.length = 6 := by
      have length := congrArg List.length bearer
      rwa [List.length_map] at length
    have solid : ∀ d ∈ (word ++ (gap ++ c :: rest)).head?, isSpace d = false := by
      obtain ⟨first, more, rfl⟩ := List.exists_cons_of_length_eq_add_one six
      intro d head
      rw [List.cons_append, List.head?_cons, Option.mem_some_iff] at head
      subst head
      have letter : first.toLower = 'b' := (List.cons.inj bearer).1
      by_contra space
      rw [Bool.not_eq_false] at space
      rw [toLower_of_space space] at letter
      subst letter
      cases space
    have text : lstrip isSpace (lead ++ word ++ gap ++ c :: rest) = word ++ (gap ++ c :: rest) := by
      rw [List.append_assoc, List.append_assoc]
      exact lstrip_append led solid
    have taken : (word ++ (gap ++ c :: rest)).take 6 = word := by rw [← six, List.take_left]
    have dropped : (word ++ (gap ++ c :: rest)).drop 6 = gap ++ c :: rest := by rw [← six, List.drop_left]
    have stripped : lstrip isSpace (gap ++ c :: rest) = c :: rest := by
      refine lstrip_append spaces fun d head => ?_
      rw [List.head?_cons, Option.mem_some_iff] at head
      rwa [← head]
    have spaced : ((gap ++ c :: rest).head?.map isSpace).getD false = true := by
      obtain ⟨space, more, rfl⟩ := List.exists_cons_of_ne_nil some_
      exact spaces space List.mem_cons_self
    simp only [startsBearer, text, taken, dropped, stripped, spaced, bearer, beq_self_eq_true, Bool.and_self,
      List.isEmpty_cons, Bool.not_false]

/-! ## Contexts -/

namespace Py

variable {F : Type}

/-- A value inside a value, at any depth. -/
inductive Within : Py F → Py F → Prop where
  | self (v : Py F) : Within v v
  | listItem {items : List (Py F)} {v w : Py F} (mem : v ∈ items) (inside : Within v w) : Within (.list items) w
  | tupleItem {items : List (Py F)} {v w : Py F} (mem : v ∈ items) (inside : Within v w) : Within (.tuple items) w
  | member {members : List (Key × Py F)} {key : Key} {v w : Py F} (mem : (key, v) ∈ members)
      (inside : Within v w) : Within (.dict members) w

mutual

/-- A loaded JSON value. -/
def ofJson : Json F → Py F
  | .null => .none_
  | .bool b => .bool b
  | .number (.int n) => .int n
  | .number (.float x) => .float x
  | .string s => .str s
  | .array items => .list (ofItems items)
  | .object members => .dict (ofMembers members)

def ofItems : List (Json F) → List (Py F)
  | [] => []
  | v :: rest => ofJson v :: ofItems rest

def ofMembers : List (Str × Json F) → List (Key × Py F)
  | [] => []
  | (key, v) :: rest => (.str key, ofJson v) :: ofMembers rest

end

theorem ofItems_eq (items : List (Json F)) : ofItems items = items.map ofJson := by
  induction items with
  | nil => rfl
  | cons v rest ih => rw [ofItems, ih, List.map_cons]

theorem ofMembers_eq (members : List (Str × Json F)) :
    ofMembers members = members.map fun m => (.str m.1, ofJson m.2) := by
  induction members with
  | nil => rfl
  | cons m rest ih =>
      obtain ⟨key, v⟩ := m
      rw [ofMembers, ih, List.map_cons]

theorem ofMembers_keys (members : List (Str × Json F)) :
    (ofMembers members).map Prod.fst = (members.map Prod.fst).map Key.str := by
  rw [ofMembers_eq, List.map_map, List.map_map]
  rfl

theorem itemsToJson_ofItems (items : List (Json F)) :
    itemsToJson (ofItems items) = some items ↔ ∀ v ∈ items, (ofJson v).toJson = some v := by
  induction items with
  | nil => exact iff_of_true rfl fun _ none_ => nomatch none_
  | cons v rest ih =>
      rw [ofItems, itemsToJson, Option.bind_eq_some_iff, List.forall_mem_cons, ← ih]
      constructor
      · rintro ⟨j, first, more⟩
        obtain ⟨js, others, same⟩ := Option.map_eq_some_iff.1 more
        obtain ⟨rfl, rfl⟩ := List.cons.inj same
        exact ⟨first, others⟩
      · rintro ⟨first, others⟩
        exact ⟨v, first, by rw [others, Option.map_some]⟩

theorem membersToJson_ofMembers (members : List (Str × Json F)) :
    membersToJson (ofMembers members) = some members ↔ ∀ m ∈ members, (ofJson m.2).toJson = some m.2 := by
  induction members with
  | nil => exact iff_of_true rfl fun _ none_ => nomatch none_
  | cons m rest ih =>
      obtain ⟨key, v⟩ := m
      rw [ofMembers, membersToJson, Option.bind_eq_some_iff, List.forall_mem_cons, ← ih]
      constructor
      · rintro ⟨j, first, more⟩
        obtain ⟨js, others, same⟩ := Option.map_eq_some_iff.1 more
        obtain ⟨head, rfl⟩ := List.cons.inj same
        obtain ⟨-, rfl⟩ := Prod.mk.inj head
        exact ⟨first, others⟩
      · rintro ⟨first, others⟩
        exact ⟨v, first, by rw [others, Option.map_some]⟩

mutual

theorem ofJson_distinct (j : Json F) (distinct : j.Distinct) : (ofJson j).Distinct := by
  cases j with
  | null => trivial
  | bool b => trivial
  | number n => cases n <;> trivial
  | string s => trivial
  | array items => exact ofItems_distinct items distinct
  | object members =>
      refine ⟨?_, ofMembers_distinct members distinct.2⟩
      rw [ofMembers_keys]
      exact distinct.1.map fun a b same => Key.str.inj same

theorem ofItems_distinct (items : List (Json F)) (distinct : Json.DistinctItems items) :
    DistinctItems (ofItems items) := by
  cases items with
  | nil => trivial
  | cons v rest => exact ⟨ofJson_distinct v distinct.1, ofItems_distinct rest distinct.2⟩

theorem ofMembers_distinct (members : List (Str × Json F)) (distinct : Json.DistinctMembers members) :
    DistinctMembers (ofMembers members) := by
  cases members with
  | nil => trivial
  | cons m rest => exact ⟨ofJson_distinct m.2 distinct.1, ofMembers_distinct rest distinct.2⟩

end

end Py

section Contexts

variable {F : Type} (U : Unicode)

theorem rejectSecretItems_ok {items : List (Py F)} :
    rejectSecretItems U items = .ok () ↔ ∀ v ∈ items, rejectSecretContext U v = .ok () := by
  induction items with
  | nil => exact iff_of_true rfl fun _ none_ => nomatch none_
  | cons v rest ih =>
      rw [rejectSecretItems, seq_ok, List.forall_mem_cons, ← ih]

theorem rejectSecretMembers_ok {members : List (Key × Py F)} :
    rejectSecretMembers U members = .ok () ↔ ∀ m ∈ members,
      (∃ s, m.1 = .str s ∧ isSecretBearingKey U s = false) ∧ rejectSecretContext U m.2 = .ok () := by
  induction members with
  | nil => exact iff_of_true rfl fun _ none_ => nomatch none_
  | cons m rest ih =>
      obtain ⟨key, v⟩ := m
      rw [List.forall_mem_cons, ← ih]
      cases key with
      | other =>
          refine iff_of_false (fun impossible => nomatch impossible) fun both => ?_
          obtain ⟨⟨⟨s, same, -⟩, -⟩, -⟩ := both
          cases same
      | str s =>
          rw [rejectSecretMembers, seq_ok, seq_ok, refuseIf_ok]
          simp [and_assoc]

/-- **Every container is visited.** -/
theorem admitted_within {v w : Py F} (inside : v.Within w) (admitted : rejectSecretContext U v = .ok ()) :
    rejectSecretContext U w = .ok () := by
  induction inside with
  | self => exact admitted
  | listItem mem _ ih => exact ih ((rejectSecretItems_ok U).1 admitted _ mem)
  | tupleItem mem _ ih => exact ih ((rejectSecretItems_ok U).1 admitted _ mem)
  | member mem _ ih => exact ih ((rejectSecretMembers_ok U).1 admitted _ mem).2

/-- What the frozen value must still be: accepted, and written as itself. -/
def Refreezes (j : Json F) : Prop :=
  rejectSecretContext U (.ofJson j) = .ok () ∧ (Py.ofJson j).toJson = some j

theorem refreezes_array {items : List (Json F)} : Refreezes U (.array items) ↔ ∀ v ∈ items, Refreezes U v := by
  show rejectSecretItems U (Py.ofItems items) = .ok () ∧ (Py.itemsToJson (Py.ofItems items)).map Json.array =
    some (.array items) ↔ _
  rw [rejectSecretItems_ok, Py.ofItems_eq, List.forall_mem_map, ← Py.ofItems_eq]
  have written : (Py.itemsToJson (Py.ofItems items)).map Json.array = some (.array items) ↔
      Py.itemsToJson (Py.ofItems items) = some items := by
    simp [Option.map_eq_some_iff]
  rw [written, Py.itemsToJson_ofItems, ← forall₂_and]
  rfl

theorem refreezes_object {members : List (Str × Json F)} :
    Refreezes U (.object members) ↔ ∀ m ∈ members, isSecretBearingKey U m.1 = false ∧ Refreezes U m.2 := by
  show rejectSecretMembers U (Py.ofMembers members) = .ok () ∧
    (Py.membersToJson (Py.ofMembers members)).map Json.object = some (.object members) ↔ _
  rw [rejectSecretMembers_ok, Py.ofMembers_eq, List.forall_mem_map, ← Py.ofMembers_eq]
  have written : (Py.membersToJson (Py.ofMembers members)).map Json.object = some (.object members) ↔
      Py.membersToJson (Py.ofMembers members) = some members := by
    simp [Option.map_eq_some_iff]
  rw [written, Py.membersToJson_ofMembers, ← forall₂_and]
  refine forall₂_congr fun m _ => ?_
  simp [Refreezes, and_assoc]

mutual

/-- The JSON of an accepted value. -/
theorem toJson_refreezes (v : Py F) (admitted : rejectSecretContext U v = .ok ()) {j : Json F}
    (writes : v.toJson = some j) : Refreezes U j := by
  cases v with
  | none_ => obtain rfl := Option.some.inj writes; exact ⟨rfl, rfl⟩
  | bool b => obtain rfl := Option.some.inj writes; exact ⟨rfl, rfl⟩
  | int n =>
      have short := writes
      rw [Py.toJson] at writes
      split at writes
      · obtain rfl := Option.some.inj writes
        exact ⟨rfl, short⟩
      · cases writes
  | float x => obtain rfl := Option.some.inj writes; exact ⟨rfl, rfl⟩
  | notFinite => cases writes
  | str s => obtain rfl := Option.some.inj writes; exact ⟨admitted, rfl⟩
  | list items =>
      obtain ⟨js, others, rfl⟩ := Option.map_eq_some_iff.1 writes
      exact (refreezes_array U).2 (itemsToJson_refreezes items admitted others)
  | tuple items =>
      obtain ⟨js, others, rfl⟩ := Option.map_eq_some_iff.1 writes
      exact (refreezes_array U).2 (itemsToJson_refreezes items admitted others)
  | dict members =>
      obtain ⟨js, others, rfl⟩ := Option.map_eq_some_iff.1 writes
      exact (refreezes_object U).2 (membersToJson_refreezes members admitted others)
  | other => cases writes

theorem itemsToJson_refreezes (items : List (Py F)) (admitted : rejectSecretItems U items = .ok ())
    {js : List (Json F)} (writes : Py.itemsToJson items = some js) : ∀ j ∈ js, Refreezes U j := by
  cases items with
  | nil =>
      obtain rfl := Option.some.inj writes
      exact fun _ none_ => nomatch none_
  | cons v rest =>
      rw [rejectSecretItems, seq_ok] at admitted
      rw [Py.itemsToJson, Option.bind_eq_some_iff] at writes
      obtain ⟨j, first, more⟩ := writes
      obtain ⟨js, others, rfl⟩ := Option.map_eq_some_iff.1 more
      exact List.forall_mem_cons.2
        ⟨toJson_refreezes v admitted.1 first, itemsToJson_refreezes rest admitted.2 others⟩

theorem membersToJson_refreezes (members : List (Key × Py F)) (admitted : rejectSecretMembers U members = .ok ())
    {js : List (Str × Json F)} (writes : Py.membersToJson members = some js) :
    ∀ m ∈ js, isSecretBearingKey U m.1 = false ∧ Refreezes U m.2 := by
  cases members with
  | nil =>
      obtain rfl := Option.some.inj writes
      exact fun _ none_ => nomatch none_
  | cons m rest =>
      obtain ⟨key, v⟩ := m
      cases key with
      | other => cases writes
      | str s =>
          rw [rejectSecretMembers, seq_ok, seq_ok, refuseIf_ok, Bool.not_eq_true] at admitted
          obtain ⟨plain, first, rest_⟩ := admitted
          rw [Py.membersToJson, Option.bind_eq_some_iff] at writes
          obtain ⟨j, writes, more⟩ := writes
          obtain ⟨js, others, rfl⟩ := Option.map_eq_some_iff.1 more
          exact List.forall_mem_cons.2
            ⟨⟨plain, toJson_refreezes v first writes⟩, membersToJson_refreezes rest rest_ others⟩

end

mutual

/-- The order of members does not matter. -/
theorem refreezes_sorted (j : Json F) (freezes : Refreezes U j) : Refreezes U j.sorted := by
  cases j with
  | array items =>
      rw [refreezes_array] at freezes
      exact (refreezes_array U).2 (refreezes_sortedItems items freezes)
  | object members =>
      rw [refreezes_object] at freezes
      refine (refreezes_object U).2 fun m mem => ?_
      exact refreezes_sortedMembers members freezes m ((List.mem_insertionSort _).1 mem)
  | null => exact freezes
  | bool b => exact freezes
  | number n => exact freezes
  | string s => exact freezes

theorem refreezes_sortedItems (items : List (Json F)) (freezes : ∀ v ∈ items, Refreezes U v) :
    ∀ v ∈ Json.sortedItems items, Refreezes U v := by
  cases items with
  | nil => exact freezes
  | cons v rest =>
      obtain ⟨first, others⟩ := List.forall_mem_cons.1 freezes
      exact List.forall_mem_cons.2 ⟨refreezes_sorted v first, refreezes_sortedItems rest others⟩

theorem refreezes_sortedMembers (members : List (Str × Json F))
    (freezes : ∀ m ∈ members, isSecretBearingKey U m.1 = false ∧ Refreezes U m.2) :
    ∀ m ∈ Json.sortedMembers members, isSecretBearingKey U m.1 = false ∧ Refreezes U m.2 := by
  cases members with
  | nil => exact freezes
  | cons m rest =>
      obtain ⟨key, v⟩ := m
      obtain ⟨⟨plain, first⟩, others⟩ := List.forall_mem_cons.1 freezes
      exact List.forall_mem_cons.2 ⟨⟨plain, refreezes_sorted v first⟩, refreezes_sortedMembers rest others⟩

end

variable (D : Doubles F)

/-- What acceptance checked. -/
theorem canonicalizePolicyContext_checks {context : Option (PolicyContext F)} {frozen : Json F}
    (froze : canonicalizePolicyContext U D context = .ok frozen) :
    isContainer (context.getD .empty).1 = true ∧ rejectSecretContext U (context.getD .empty).1 = .ok () ∧
      ∃ written, (context.getD .empty).1.toJson = some written ∧ frozen = written.sorted ∧
        utf8Length (written.canonicalJson D) ≤ maxPolicyContextBytes := by
  rw [canonicalizePolicyContext, seq_ok, seq_ok, bind_ok, refuseIf_ok] at froze
  obtain ⟨container, admitted, written, writes, more⟩ := froze
  rw [orRefuse_ok] at writes
  rw [seq_ok, refuseIf_ok] at more
  obtain ⟨small, same⟩ := more
  exact ⟨by simpa using container, admitted, written, writes, (Except.ok.inj same).symm, not_lt.1 small⟩

/-- **Freezing twice is freezing once.** -/
theorem canonicalize_again {context : Option (PolicyContext F)} {frozen : Json F}
    (froze : canonicalizePolicyContext U D context = .ok frozen) :
    ∃ distinct : (Py.ofJson frozen).Distinct,
      canonicalizePolicyContext U D (some ⟨.ofJson frozen, distinct⟩) = .ok frozen := by
  obtain ⟨container, admitted, written, writes, rfl, small⟩ := canonicalizePolicyContext_checks U D froze
  have distinct := Json.sorted_distinct _ (Py.toJson_distinct _ (context.getD .empty).2 writes)
  obtain ⟨admitted', writes'⟩ := refreezes_sorted U written (toJson_refreezes U _ admitted writes)
  have container' : isContainer (Py.ofJson written.sorted) = true := by
    cases given : (context.getD .empty).1 <;> rw [given] at container writes
    case list items =>
        obtain ⟨js, -, rfl⟩ := Option.map_eq_some_iff.1 writes
        rfl
    case tuple items =>
        obtain ⟨js, -, rfl⟩ := Option.map_eq_some_iff.1 writes
        rfl
    case dict members =>
        obtain ⟨js, -, rfl⟩ := Option.map_eq_some_iff.1 writes
        rfl
    all_goals cases container
  have small' : utf8Length (written.sorted.canonicalJson D) ≤ maxPolicyContextBytes := by
    rwa [Json.canonicalJson, Json.sorted_sorted]
  refine ⟨Py.ofJson_distinct _ distinct, ?_⟩
  rw [canonicalizePolicyContext, seq_ok, seq_ok, bind_ok, refuseIf_ok]
  refine ⟨by rw [Option.getD_some, container']; exact Bool.noConfusion, admitted', written.sorted,
    orRefuse_ok.2 writes', ?_⟩
  rw [seq_ok, refuseIf_ok, Json.sorted_sorted]
  exact ⟨not_lt.2 small', rfl⟩

/-- **Secret screening.**  A key bears a secret exactly when it is made of a base and
qualifiers; an accepted context has no such key and no bearer credential at any depth, and
its frozen form is small and freezes to itself. -/
theorem secret_screening :
    (∀ key, isSecretBearingKey U key = true ↔ SecretName (normalizedKey U key)) ∧
      ∀ (context : Option (PolicyContext F)) (frozen : Json F),
        canonicalizePolicyContext U D context = .ok frozen →
          (∀ members, (context.getD .empty).1.Within (.dict members) → ∀ m ∈ members,
            ∃ key, m.1 = .str key ∧ ¬ SecretName (normalizedKey U key)) ∧
          (∀ s, (context.getD .empty).1.Within (.str s) → ¬ BearerCredential s) ∧
          utf8Length (frozen.canonicalJson D) ≤ 16384 ∧
          ∃ distinct : (Py.ofJson frozen).Distinct,
            canonicalizePolicyContext U D (some ⟨.ofJson frozen, distinct⟩) = .ok frozen := by
  refine ⟨isSecretBearingKey_iff U, fun context frozen froze => ?_⟩
  obtain ⟨-, admitted, written, -, rfl, small⟩ := canonicalizePolicyContext_checks U D froze
  refine ⟨fun members inside m mem => ?_, fun s inside => ?_, ?_, canonicalize_again U D froze⟩
  · obtain ⟨⟨key, named, plain⟩, -⟩ := (rejectSecretMembers_ok U).1 (admitted_within U inside admitted) m mem
    refine ⟨key, named, ?_⟩
    rw [← isSecretBearingKey_iff, plain]
    exact Bool.false_ne_true
  · have passed : refuseIf (startsBearer s) secretMaterial = .ok () := admitted_within U inside admitted
    rw [refuseIf_ok, startsBearer_iff] at passed
    exact passed
  · rwa [Json.canonicalJson, Json.sorted_sorted]

end Contexts

section Poles

private def asciiCase : Unicode where
  lower := List.map Char.toLower
  upper := List.map Char.toUpper
  nfkc := id
  repr := id

/-- `{"note": ["bearer"]}`. -/
private def noteContext : PolicyContext Unit :=
  ⟨.dict [(.str "note".toList, .list [.str "bearer".toList])], by
    simp [Py.Distinct, Py.DistinctMembers, Py.DistinctItems]⟩

/-- `X-API-Key: Header Value` bears a secret, and `{"note": ["bearer"]}` is accepted twice. -/
theorem secret_screening_note : SecretName (normalizedKey asciiCase "X-API-Key: Header Value".toList) ∧
    ∃ frozen, canonicalizePolicyContext asciiCase onlyHalf (some noteContext) = .ok frozen ∧
      utf8Length (frozen.canonicalJson onlyHalf) ≤ 16384 ∧
      ∃ distinct, canonicalizePolicyContext asciiCase onlyHalf (some ⟨.ofJson frozen, distinct⟩) = .ok frozen := by
  obtain ⟨keys, contexts⟩ := secret_screening asciiCase onlyHalf
  refine ⟨(keys _).1 (by decide), .object [("note".toList, .array [.string "bearer".toList])], rfl, ?_⟩
  exact (contexts (some noteContext) _ rfl).2.2

end Poles

end ApiSecurityPlatform.Execution
