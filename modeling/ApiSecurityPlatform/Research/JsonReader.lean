/-
# Research.JsonReader -- readers that differ in their rules

Three readers of the repository go through a text in the same way: `bounded_json`, the decoder
of observations and `json.loads` with the hooks of the intent codec.  They differ in what
counts as a number, in their limits and in what they raise (`Rules`).

`bounded_json` is the reader with its rules (`value_codec`), and two readers agree wherever
their rules agree on the numbers (`value_carries`), so what is known of `bounded_json` carries
over: the value has a derivation (`read_sound`), and a derivation is read (`read_complete`).
-/
import ApiSecurityPlatform.Proposals.BoundedJson

namespace ApiSecurityPlatform.Python.Json

set_option autoImplicit false

variable {F : Type} (P : Number F → Prop)

mutual

/-- Every number of the value is as `P` says. -/
def Numbers : Json F → Prop
  | .number n => P n
  | .array items => NumbersItems items
  | .object members => NumbersMembers members
  | _ => True

def NumbersItems : List (Json F) → Prop
  | [] => True
  | v :: rest => v.Numbers ∧ NumbersItems rest

def NumbersMembers : List (Str × Json F) → Prop
  | [] => True
  | (_, v) :: rest => v.Numbers ∧ NumbersMembers rest

end

theorem numbersItems_iff (items : List (Json F)) : NumbersItems P items ↔ ∀ v ∈ items, v.Numbers P := by
  induction items with
  | nil => simp [NumbersItems]
  | cons v rest ih => simp [NumbersItems, ih]

theorem numbersMembers_iff (members : List (Str × Json F)) :
    NumbersMembers P members ↔ ∀ m ∈ members, m.2.Numbers P := by
  induction members with
  | nil => simp [NumbersMembers]
  | cons m rest ih => simp [NumbersMembers, ih]

variable {P} in
mutual

theorem numbers_mono {Q : Number F → Prop} (imp : ∀ n, P n → Q n) (v : Json F) (numbers : v.Numbers P) :
    v.Numbers Q := by
  cases v with
  | number n => exact imp n numbers
  | array items => exact numbersItems_mono imp items numbers
  | object members => exact numbersMembers_mono imp members numbers
  | null => trivial
  | bool b => trivial
  | string s => trivial

theorem numbersItems_mono {Q : Number F → Prop} (imp : ∀ n, P n → Q n) (items : List (Json F))
    (numbers : NumbersItems P items) : NumbersItems Q items := by
  cases items with
  | nil => trivial
  | cons v rest => exact ⟨numbers_mono imp v numbers.1, numbersItems_mono imp rest numbers.2⟩

theorem numbersMembers_mono {Q : Number F → Prop} (imp : ∀ n, P n → Q n) (members : List (Str × Json F))
    (numbers : NumbersMembers P members) : NumbersMembers Q members := by
  cases members with
  | nil => trivial
  | cons m rest => exact ⟨numbers_mono imp m.2 numbers.1, numbersMembers_mono imp rest numbers.2⟩

end

variable {P} in
mutual

theorem sorted_numbers (v : Json F) (numbers : v.Numbers P) : v.sorted.Numbers P := by
  cases v with
  | array items => exact sortedItems_numbers items numbers
  | object members =>
      refine (numbersMembers_iff P _).2 fun m mem => ?_
      exact (numbersMembers_iff P _).1 (sortedMembers_numbers members numbers) m ((List.mem_insertionSort _).1 mem)
  | number n => exact numbers
  | null => trivial
  | bool b => trivial
  | string s => trivial

theorem sortedItems_numbers (items : List (Json F)) (numbers : NumbersItems P items) :
    NumbersItems P (sortedItems items) := by
  cases items with
  | nil => trivial
  | cons v rest => exact ⟨sorted_numbers v numbers.1, sortedItems_numbers rest numbers.2⟩

theorem sortedMembers_numbers (members : List (Str × Json F)) (numbers : NumbersMembers P members) :
    NumbersMembers P (sortedMembers members) := by
  cases members with
  | nil => trivial
  | cons m rest => exact ⟨sorted_numbers m.2 numbers.1, sortedMembers_numbers rest numbers.2⟩

end

end ApiSecurityPlatform.Python.Json

namespace ApiSecurityPlatform.Research.JsonReader

open ApiSecurityPlatform.Theory
open ApiSecurityPlatform.Python
open ApiSecurityPlatform.Proposals

set_option autoImplicit false

/-- What ends a reading without a value: an exception, or a loop out of fuel. -/
inductive Halt (E : Type) where
  | raised (e : E)
  | stuck
deriving DecidableEq

structure Rules (E F : Type) where
  /-- The text is no JSON. -/
  malformed : E
  /-- A key comes twice. -/
  duplicate : E
  /-- A value is too deep, or one too many. -/
  limit : E
  /-- So many values are allowed. -/
  room : Nat → Bool
  /-- A number at the beginning of the text, and the rest. -/
  number : Str → Option (Number F × Str)

abbrev Reader (E α : Type) := Cursor → Except (Halt E) (α × Cursor)

namespace Rules

variable {E F : Type} (R : Rules E F)

/-! ## The reader -/

def string : Reader E Str := fun cur =>
  match cur.rest with
  | '"' :: more =>
      match scanString 0 more with
      | none => .error (.raised R.malformed)
      | some (codes, rest) =>
          match encodable codes with
          | none => .error (.raised R.malformed)
          | some s => .ok (s, { cur with rest })
  | _ => .error (.raised R.malformed)

def next : Reader E Char := fun cur =>
  match cur.rest with
  | [] => .error (.raised R.malformed)
  | c :: rest => .ok (c, { cur with rest })

/-- The loop over the items of an array. -/
def items (item : Reader E (Json F)) : Nat → List (Json F) → Reader E (Json F)
  | 0, _ => fun _ => .error .stuck
  | fuel + 1, acc => fun cur => do
      let (v, cur) ← item cur.skip
      let (sep, cur) ← R.next cur.skip
      if sep = ']' then .ok (.array (acc ++ [v]), cur)
      else if sep = ',' then items item fuel (acc ++ [v]) cur
      else .error (.raised R.malformed)

/-- The loop over the members of an object. -/
def members (item : Reader E (Json F)) : Nat → List (Str × Json F) → Reader E (Json F)
  | 0, _ => fun _ => .error .stuck
  | fuel + 1, acc => fun cur => do
      let (key, cur) ← R.string cur.skip
      refuse (key ∈ acc.map Prod.fst) (.raised R.duplicate)
      let (colon, cur) ← R.next cur.skip
      refuse (colon ≠ ':') (.raised R.malformed)
      let (v, cur) ← item cur
      let (sep, cur) ← R.next cur.skip
      if sep = '\x7d' then .ok (.object (acc ++ [(key, v)]), cur)
      else if sep = ',' then members item fuel (acc ++ [(key, v)]) cur
      else .error (.raised R.malformed)

def array (item : Reader E (Json F)) : Reader E (Json F) := fun cur =>
  let cur := cur.skip
  match cur.rest with
  | ']' :: rest => .ok (.array [], { cur with rest })
  | rest => R.items item (rest.length + 1) [] cur

def object (item : Reader E (Json F)) : Reader E (Json F) := fun cur =>
  let cur := cur.skip
  match cur.rest with
  | '\x7d' :: rest => .ok (.object [], { cur with rest })
  | rest => R.members item (rest.length + 1) [] cur

/-- A literal or a number. -/
def scalar : Reader E (Json F) := fun cur =>
  if "true".toList.isPrefixOf cur.rest then .ok (.bool true, { cur with rest := cur.rest.drop 4 })
  else if "false".toList.isPrefixOf cur.rest then .ok (.bool false, { cur with rest := cur.rest.drop 5 })
  else if "null".toList.isPrefixOf cur.rest then .ok (.null, { cur with rest := cur.rest.drop 4 })
  else
    match R.number cur.rest with
    | none => .error (.raised R.malformed)
    | some (n, rest) => .ok (.number n, { cur with rest })

/-- A value, once it is counted and the white space before it is gone. -/
def body (item : Reader E (Json F)) : Reader E (Json F) := fun cur =>
  match cur.rest with
  | [] => .error (.raised R.malformed)
  | '"' :: _ => (R.string cur).map fun (s, cur) => (.string s, cur)
  | '\x7b' :: rest => R.object item { cur with rest }
  | '[' :: rest => R.array item { cur with rest }
  | _ => R.scalar cur

/-- A value with so many levels left. -/
def value : Nat → Reader E (Json F)
  | 0 => fun _ => .error (.raised R.limit)
  | left + 1 => fun cur => do
      refuse (R.room (cur.count + 1) = false) (.raised R.limit)
      R.body (value left) (Cursor.skip { cur with count := cur.count + 1 })

/-- One value that is the whole text. -/
def read (left : Nat) (text : Str) : Except (Halt E) (Json F) := do
  let (v, cur) ← R.value left ⟨text, 0⟩
  refuse (cur.skip.rest ≠ []) (.raised R.malformed)
  return v

/-! ## Two readers -/

section Agree

variable {E' : Type} (R' : Rules E' F) (P : Number F → Prop)

theorem string_ok {cur : Cursor} {found : Str × Cursor} (done : R.string cur = .ok found) :
    R'.string cur = .ok found := by
  unfold string at done ⊢
  split at done
  · next more quoted =>
    split at done
    · cases done
    · next codes rest scanned =>
      split at done
      · cases done
      · next s encoded =>
        exact congrArg Except.ok (Except.ok.inj done)
  · cases done

theorem string_count {cur : Cursor} {s : Str} {cur' : Cursor} (done : R.string cur = .ok (s, cur')) :
    cur'.count = cur.count := by
  unfold string at done
  split at done
  · split at done
    · cases done
    · split at done
      · cases done
      · obtain ⟨-, rfl⟩ := Prod.mk.inj (Except.ok.inj done)
        rfl
  · cases done

theorem next_ok {cur : Cursor} {found : Char × Cursor} (done : R.next cur = .ok found) :
    R'.next cur = .ok found := by
  unfold next at done ⊢
  split at done
  · cases done
  · next c rest text =>
    exact congrArg Except.ok (Except.ok.inj done)

theorem next_count {cur : Cursor} {c : Char} {cur' : Cursor} (done : R.next cur = .ok (c, cur')) :
    cur'.count = cur.count := by
  unfold next at done
  split at done
  · cases done
  · obtain ⟨-, rfl⟩ := Prod.mk.inj (Except.ok.inj done)
    rfl

/-- A separator, after white space. -/
theorem next_ends {cur cur' : Cursor} {c : Char} (done : R.next cur.skip = .ok (c, cur'))
    (separator : c = ',' ∨ c = ']' ∨ c = '\x7d') : Ends cur.rest := by
  obtain ⟨ws, split_, space, -⟩ := skip_split cur
  have rest : cur.skip.rest = c :: cur'.rest := by
    unfold next at done
    split at done
    · cases done
    · next d rest text =>
      obtain ⟨rfl, rfl⟩ := Prod.mk.inj (Except.ok.inj done)
      exact text
  rw [split_, rest]
  intro d head
  cases ws with
  | nil =>
      obtain rfl := Option.some.inj head
      exact .inr separator
  | cons e ws =>
      obtain rfl := Option.some.inj head
      exact .inl (space _ List.mem_cons_self)

/-- Where one reader of values ends with a value, and what follows may follow a value, another
does too if it has the room; the last value that was counted is within the room of the first. -/
def Carries (item : Reader E (Json F)) (item' : Reader E' (Json F)) : Prop :=
  ∀ cur v cur', item cur = .ok (v, cur') → Ends cur'.rest → v.Numbers P →
    cur'.count = cur.count + v.values ∧ R.room cur'.count = true ∧
      ((∀ n ≤ cur'.count, R'.room n = true) → item' cur = .ok (v, cur'))

variable {R R' P} {item : Reader E (Json F)} {item' : Reader E' (Json F)}

theorem items_carries (carries : Carries R R' P item item') {fuel : Nat} {acc : List (Json F)} {cur cur' : Cursor}
    {v : Json F} (done : R.items item fuel acc cur = .ok (v, cur')) :
    ∃ vs, v = .array (acc ++ vs) ∧ (Json.NumbersItems P vs →
      cur'.count = cur.count + Json.itemsValues vs ∧ R.room cur'.count = true ∧
        ((∀ n ≤ cur'.count, R'.room n = true) → R'.items item' fuel acc cur = .ok (v, cur'))) := by
  induction fuel generalizing acc cur with
  | zero => cases done
  | succ fuel ih =>
      rw [items, bind_ok] at done
      obtain ⟨⟨w, cur₁⟩, item_, done⟩ := done
      dsimp only at done
      rw [bind_ok] at done
      obtain ⟨⟨sep, cur₂⟩, next_, done⟩ := done
      dsimp only at done
      have counted : cur₂.count = cur₁.count := (next_count R next_).trans rfl
      have step (rest : Except (Halt E') (Json F × Cursor)) (wanted : item' cur.skip = .ok (w, cur₁))
          (same : (if sep = ']' then .ok (.array (acc ++ [w]), cur₂)
            else if sep = ',' then R'.items item' fuel (acc ++ [w]) cur₂
            else .error (.raised R'.malformed)) = rest) : R'.items item' (fuel + 1) acc cur = rest := by
        rw [items]
        dsimp only
        rw [wanted]
        show (R'.next cur₁.skip >>= _) = _
        rw [next_ok R R' next_]
        exact same
      by_cases close : sep = ']'
      · rw [if_pos close] at done
        obtain ⟨rfl, rfl⟩ := Prod.mk.inj (Except.ok.inj done)
        refine ⟨[w], rfl, fun ⟨numbers, _⟩ => ?_⟩
        obtain ⟨count, room, wanted⟩ := carries _ _ _ item_ (next_ends R next_ (.inr (.inl close))) numbers
        rw [counted]
        refine ⟨count, room, fun roomy => ?_⟩
        exact step _ (wanted roomy) (if_pos close)
      · rw [if_neg close] at done
        by_cases comma : sep = ','
        · rw [if_pos comma] at done
          obtain ⟨vs, rfl, tail⟩ := ih done
          refine ⟨w :: vs, by rw [List.append_assoc]; rfl, fun ⟨numbers, others⟩ => ?_⟩
          obtain ⟨count, -, wanted⟩ := carries _ _ _ item_ (next_ends R next_ (.inl comma)) numbers
          obtain ⟨count', room, wanted'⟩ := tail others
          have total : cur'.count = cur₁.count + Json.itemsValues vs := by rw [count', counted]
          refine ⟨by rw [total, count, Json.itemsValues]; exact Nat.add_assoc _ _ _, room, fun roomy => ?_⟩
          have first := wanted fun n small => roomy n (by omega)
          refine step _ first ?_
          rw [if_neg close, if_pos comma]
          exact wanted' roomy
        · rw [if_neg comma] at done
          cases done

theorem members_carries (carries : Carries R R' P item item') {fuel : Nat} {acc : List (Str × Json F)}
    {cur cur' : Cursor} {v : Json F} (done : R.members item fuel acc cur = .ok (v, cur')) :
    ∃ vs, v = .object (acc ++ vs) ∧ (Json.NumbersMembers P vs →
      cur'.count = cur.count + Json.membersValues vs ∧ R.room cur'.count = true ∧
        ((∀ n ≤ cur'.count, R'.room n = true) → R'.members item' fuel acc cur = .ok (v, cur'))) := by
  induction fuel generalizing acc cur with
  | zero => cases done
  | succ fuel ih =>
      rw [members, bind_ok] at done
      obtain ⟨⟨key, cur₁⟩, name_, done⟩ := done
      dsimp only at done
      rw [seq_ok, refuse_ok, bind_ok] at done
      obtain ⟨fresh, ⟨colon, cur₂⟩, colon_, done⟩ := done
      dsimp only at done
      rw [seq_ok, refuse_ok, bind_ok] at done
      obtain ⟨colon', ⟨w, cur₃⟩, item_, done⟩ := done
      dsimp only at done
      rw [bind_ok] at done
      obtain ⟨⟨sep, cur₄⟩, next_, done⟩ := done
      dsimp only at done
      have before : cur₂.count = cur.count := by rw [next_count R colon_, Cursor.skip, string_count R name_]; rfl
      have counted : cur₄.count = cur₃.count := (next_count R next_).trans rfl
      have step (rest : Except (Halt E') (Json F × Cursor)) (wanted : item' cur₂ = .ok (w, cur₃))
          (same : (if sep = '\x7d' then .ok (.object (acc ++ [(key, w)]), cur₄)
            else if sep = ',' then R'.members item' fuel (acc ++ [(key, w)]) cur₄
            else .error (.raised R'.malformed)) = rest) : R'.members item' (fuel + 1) acc cur = rest := by
        rw [members]
        dsimp only
        rw [string_ok R R' name_]
        show (refuse (key ∈ acc.map Prod.fst) _ >>= _) = _
        rw [refuse, if_neg fresh]
        show (R'.next cur₁.skip >>= _) = _
        rw [next_ok R R' colon_]
        show (refuse (colon ≠ ':') _ >>= _) = _
        rw [refuse, if_neg colon']
        show (item' cur₂ >>= _) = _
        rw [wanted]
        show (R'.next cur₃.skip >>= _) = _
        rw [next_ok R R' next_]
        exact same
      by_cases close : sep = '\x7d'
      · rw [if_pos close] at done
        obtain ⟨rfl, rfl⟩ := Prod.mk.inj (Except.ok.inj done)
        refine ⟨[(key, w)], rfl, fun both => ?_⟩
        obtain ⟨numbers, -⟩ := both
        obtain ⟨count, room, wanted⟩ := carries _ _ _ item_ (next_ends R next_ (.inr (.inr close))) numbers
        rw [counted]
        refine ⟨count.trans (by rw [before]; rfl), room, fun roomy => ?_⟩
        exact step _ (wanted roomy) (if_pos close)
      · rw [if_neg close] at done
        by_cases comma : sep = ','
        · rw [if_pos comma] at done
          obtain ⟨vs, rfl, tail⟩ := ih done
          refine ⟨(key, w) :: vs, by rw [List.append_assoc]; rfl, fun both => ?_⟩
          obtain ⟨numbers, others⟩ := both
          obtain ⟨count, -, wanted⟩ := carries _ _ _ item_ (next_ends R next_ (.inl comma)) numbers
          obtain ⟨count', room, wanted'⟩ := tail others
          have total : cur'.count = cur₃.count + Json.membersValues vs := by rw [count', counted]
          refine ⟨by rw [total, count, before, Json.membersValues]; exact Nat.add_assoc _ _ _, room, fun roomy => ?_⟩
          have first := wanted fun n small => roomy n (by omega)
          refine step _ first ?_
          rw [if_neg close, if_pos comma]
          exact wanted' roomy
        · rw [if_neg comma] at done
          cases done

theorem array_carries (carries : Carries R R' P item item') {cur cur' : Cursor} {v : Json F} {before : Nat}
    (counted : cur.count = before + 1) (roomy : R.room cur.count = true)
    (done : R.array item cur = .ok (v, cur')) (numbers : v.Numbers P) :
    cur'.count = before + v.values ∧ R.room cur'.count = true ∧
      ((∀ n ≤ cur'.count, R'.room n = true) → R'.array item' cur = .ok (v, cur')) := by
  unfold array at done ⊢
  dsimp only at done ⊢
  split at done
  · obtain ⟨rfl, rfl⟩ := Prod.mk.inj (Except.ok.inj done)
    exact ⟨counted, roomy, fun _ => rfl⟩
  · obtain ⟨vs, rfl, tail⟩ := items_carries carries done
    obtain ⟨count, room, wanted⟩ := tail numbers
    refine ⟨?_, room, wanted⟩
    rw [count]
    show cur.count + _ = _
    rw [counted, Nat.add_assoc]
    rfl

theorem object_carries (carries : Carries R R' P item item') {cur cur' : Cursor} {v : Json F} {before : Nat}
    (counted : cur.count = before + 1) (roomy : R.room cur.count = true)
    (done : R.object item cur = .ok (v, cur')) (numbers : v.Numbers P) :
    cur'.count = before + v.values ∧ R.room cur'.count = true ∧
      ((∀ n ≤ cur'.count, R'.room n = true) → R'.object item' cur = .ok (v, cur')) := by
  unfold object at done ⊢
  dsimp only at done ⊢
  split at done
  · obtain ⟨rfl, rfl⟩ := Prod.mk.inj (Except.ok.inj done)
    exact ⟨counted, roomy, fun _ => rfl⟩
  · obtain ⟨vs, rfl, tail⟩ := members_carries carries done
    obtain ⟨count, room, wanted⟩ := tail numbers
    refine ⟨?_, room, wanted⟩
    rw [count]
    show cur.count + _ = _
    rw [counted, Nat.add_assoc]
    rfl

/-- The rules give the numbers of `P` alike. -/
def Alike (R : Rules E F) (R' : Rules E' F) (P : Number F → Prop) : Prop :=
  ∀ s n rest, P n → Ends rest → R.number s = some (n, rest) → R'.number s = some (n, rest)

theorem scalar_carries (alike : Alike R R' P) {cur cur' : Cursor} {v : Json F}
    (done : R.scalar cur = .ok (v, cur')) (ends : Ends cur'.rest) (numbers : v.Numbers P) :
    v.values = 1 ∧ cur'.count = cur.count ∧ R'.scalar cur = .ok (v, cur') := by
  unfold scalar at done ⊢
  split at done
  · next leads =>
    obtain ⟨rfl, rfl⟩ := Prod.mk.inj (Except.ok.inj done)
    exact ⟨rfl, rfl, if_pos leads⟩
  next other =>
  rw [if_neg other]
  split at done
  · next leads =>
    obtain ⟨rfl, rfl⟩ := Prod.mk.inj (Except.ok.inj done)
    exact ⟨rfl, rfl, if_pos leads⟩
  next other =>
  rw [if_neg other]
  split at done
  · next leads =>
    obtain ⟨rfl, rfl⟩ := Prod.mk.inj (Except.ok.inj done)
    exact ⟨rfl, rfl, if_pos leads⟩
  next other =>
  rw [if_neg other]
  split at done
  · cases done
  · next n rest number =>
    obtain ⟨rfl, rfl⟩ := Prod.mk.inj (Except.ok.inj done)
    rw [alike _ n rest numbers ends number]
    exact ⟨rfl, rfl, rfl⟩

theorem body_carries (alike : Alike R R' P) (carries : Carries R R' P item item') {cur cur' : Cursor} {v : Json F}
    {before : Nat} (counted : cur.count = before + 1) (roomy : R.room cur.count = true)
    (done : R.body item cur = .ok (v, cur')) (ends : Ends cur'.rest) (numbers : v.Numbers P) :
    cur'.count = before + v.values ∧ R.room cur'.count = true ∧
      ((∀ n ≤ cur'.count, R'.room n = true) → R'.body item' cur = .ok (v, cur')) := by
  unfold body at done ⊢
  split at done
  · cases done
  · obtain ⟨⟨s, cur₁⟩, quoted, same⟩ := map_ok.1 done
    obtain ⟨rfl, rfl⟩ := Prod.mk.inj same
    have count := string_count R quoted
    refine ⟨count.trans counted, count ▸ roomy, fun _ => ?_⟩
    exact map_ok.2 ⟨_, string_ok R R' quoted, rfl⟩
  · exact object_carries carries counted roomy done numbers
  · exact array_carries carries counted roomy done numbers
  · obtain ⟨one, count, wanted⟩ := scalar_carries alike done ends numbers
    rw [count, one]
    exact ⟨counted, roomy, fun _ => wanted⟩

/-- **Readers with alike rules agree.** -/
theorem value_carries (alike : Alike R R' P) (left : Nat) : Carries R R' P (R.value left) (R'.value left) := by
  induction left with
  | zero => exact fun cur v cur' done => nomatch done
  | succ left ih =>
      intro cur v cur' done ends numbers
      rw [value, seq_ok, refuse_ok] at done
      obtain ⟨roomy, done⟩ := done
      obtain ⟨count, room, wanted⟩ := body_carries alike ih rfl ((Bool.not_eq_false _).mp roomy) done ends numbers
      refine ⟨count, room, fun all => ?_⟩
      rw [value, seq_ok, refuse_ok]
      refine ⟨?_, wanted all⟩
      have positive : 0 < v.values := by cases v <;> simp [Json.values]
      rw [all (cur.count + 1) (by omega)]
      exact Bool.true_eq_false.mp

end Agree

/-! ## `bounded_json` by rules -/

section Codec

variable (D : Floats F) (nodes : Nat) (limitCode : Code)

def codecNumber (s : Str) : Option (Number F × Str) :=
  (matchNumber s).bind fun (token, rest) => (tokenNumber D token).map fun n => (n, rest)

def codecRules : Rules Code F where
  malformed := .malformedOutput
  duplicate := .malformedOutput
  limit := limitCode
  room n := n ≤ nodes
  number := codecNumber D

def toFailure : Halt Code → Failure
  | .raised code => .rejected code
  | .stuck => .stuck

omit D nodes limitCode in
theorem mapError_bind {ε ε' α β : Type} (g : ε → ε') (x : Except ε α) (f : α → Except ε β) :
    (x >>= f).mapError g = x.mapError g >>= fun a => (f a).mapError g := by
  cases x <;> rfl

omit D nodes limitCode in
theorem mapError_ok {ε ε' α : Type} {g : ε → ε'} {x : Except ε α} {a : α} :
    x.mapError g = .ok a ↔ x = .ok a := by
  cases x <;> simp [Except.mapError]

section

variable {R : Rules Code F} (malformed : R.malformed = .malformedOutput) (duplicate : R.duplicate = .malformedOutput)

omit D nodes limitCode

include malformed in
theorem string_codec (cur : Cursor) : (R.string cur).mapError toFailure = parseString cur := by
  obtain ⟨rest, count⟩ := cur
  unfold string
  dsimp only
  split
  · next more =>
    show Except.mapError toFailure _ = match scanString 0 more with | none => _ | some (codes, rest) => _
    cases scanString 0 more with
    | none => rw [malformed]; rfl
    | some found =>
        obtain ⟨codes, rest⟩ := found
        dsimp only
        cases encodable codes with
        | none => rw [malformed]; rfl
        | some s => rfl
  · next other =>
    unfold parseString
    dsimp only
    split
    · exact (other _ rfl).elim
    · rw [malformed]; rfl

include malformed in
theorem next_codec (cur : Cursor) : (R.next cur).mapError toFailure = Proposals.next cur := by
  obtain ⟨rest, count⟩ := cur
  cases rest with
  | nil => exact congrArg (fun e => Except.error (toFailure (.raised e))) malformed
  | cons c rest => rfl

variable {item : Reader Code (Json F)} {item' : Parser (Json F)}
  (same : ∀ cur, (item cur).mapError toFailure = item' cur)

include malformed same in
theorem items_codec (fuel : Nat) (acc : List (Json F)) (cur : Cursor) :
    (R.items item fuel acc cur).mapError toFailure = parseItems item' fuel acc cur := by
  induction fuel generalizing acc cur with
  | zero => rfl
  | succ fuel ih =>
      rw [items, parseItems, mapError_bind, same]
      refine congrArg _ (funext fun ⟨v, cur₁⟩ => ?_)
      dsimp only
      rw [mapError_bind, next_codec malformed]
      refine congrArg _ (funext fun ⟨sep, cur₂⟩ => ?_)
      dsimp only
      split
      · rfl
      split
      · exact ih _ _
      · rw [malformed]; rfl

include malformed duplicate same in
theorem members_codec (fuel : Nat) (acc : List (Str × Json F)) (cur : Cursor) :
    (R.members item fuel acc cur).mapError toFailure = parseMembers item' fuel acc cur := by
  have check (p : Prop) [Decidable p] :
      (refuse (¬ p) (Halt.raised R.malformed)).mapError toFailure = require p .malformedOutput := by
    unfold refuse require
    by_cases holds : p
    · rw [if_pos holds, if_neg (not_not.2 holds)]; rfl
    · rw [if_neg holds, if_pos holds, malformed]; rfl
  induction fuel generalizing acc cur with
  | zero => rfl
  | succ fuel ih =>
      rw [members, parseMembers, mapError_bind, string_codec malformed]
      refine congrArg _ (funext fun ⟨key, cur₁⟩ => ?_)
      dsimp only
      rw [mapError_bind]
      refine congrArg₂ _ ?_ (funext fun _ => ?_)
      · rw [← check, malformed, duplicate]
        simp only [not_not]
      rw [mapError_bind, next_codec malformed]
      refine congrArg _ (funext fun ⟨colon, cur₂⟩ => ?_)
      dsimp only
      rw [mapError_bind, check]
      refine congrArg _ (funext fun _ => ?_)
      rw [mapError_bind, same]
      refine congrArg _ (funext fun ⟨v, cur₃⟩ => ?_)
      dsimp only
      rw [mapError_bind, next_codec malformed]
      refine congrArg _ (funext fun ⟨sep, cur₄⟩ => ?_)
      dsimp only
      split
      · rfl
      split
      · exact ih _ _
      · rw [malformed]; rfl

include malformed duplicate same in
theorem object_codec (cur : Cursor) : (R.object item cur).mapError toFailure = parseObject item' cur := by
  unfold object
  cases skipped : cur.skip with
  | mk rest count =>
      dsimp only
      split
      · unfold parseObject
        rw [skipped]
        rfl
      · next other =>
        unfold parseObject
        rw [skipped]
        dsimp only
        split
        · exact (other _ rfl).elim
        · exact members_codec malformed duplicate same _ _ _

include malformed same in
theorem array_codec (cur : Cursor) : (R.array item cur).mapError toFailure = parseArray item' cur := by
  unfold array
  cases skipped : cur.skip with
  | mk rest count =>
      dsimp only
      split
      · unfold parseArray
        rw [skipped]
        rfl
      · next other =>
        unfold parseArray
        rw [skipped]
        dsimp only
        split
        · exact (other _ rfl).elim
        · exact items_codec malformed same _ _ _

end

theorem scalar_codec (cur : Cursor) :
    ((codecRules D nodes limitCode).scalar cur).mapError toFailure = parseScalar D cur := by
  unfold scalar parseScalar
  split
  · rfl
  split
  · rfl
  split
  · rfl
  unfold codecRules codecNumber
  dsimp only
  cases matchNumber cur.rest with
  | none => rfl
  | some found =>
      obtain ⟨token, rest⟩ := found
      dsimp only [Option.bind_some]
      cases tokenNumber D token <;> rfl

theorem body_codec {item : Reader Code (Json F)} {item' : Parser (Json F)}
    (same : ∀ cur, (item cur).mapError toFailure = item' cur) (cur : Cursor) :
    ((codecRules D nodes limitCode).body item cur).mapError toFailure = parseBody D item' cur := by
  obtain ⟨rest, count⟩ := cur
  unfold body
  dsimp only
  split
  · rfl
  · show _ = (parseString _).map fun (s, cur) => (Json.string s, cur)
    rw [← string_codec (R := codecRules D nodes limitCode) rfl]
    cases (codecRules D nodes limitCode).string _ <;> rfl
  · exact object_codec (R := codecRules D nodes limitCode) rfl rfl same _
  · exact array_codec (R := codecRules D nodes limitCode) rfl same _
  · next empty quote brace bracket =>
    unfold parseBody
    dsimp only
    split
    · exact (empty rfl).elim
    · exact (quote _ rfl).elim
    · exact (brace _ rfl).elim
    · exact (bracket _ rfl).elim
    · exact scalar_codec D nodes limitCode _

/-- `bounded_json`'s parser is the reader with its rules. -/
theorem value_codec (left : Nat) (cur : Cursor) :
    ((codecRules D nodes limitCode).value left cur).mapError toFailure = parseValue D nodes limitCode left cur := by
  induction left generalizing cur with
  | zero => rfl
  | succ left ih =>
      rw [value, parseValue, mapError_bind]
      refine congrArg₂ _ ?_ (funext fun _ => ?_)
      · unfold refuse require
        by_cases room : cur.count + 1 ≤ nodes
        · rw [if_pos room, if_neg (by simpa [codecRules] using room)]; rfl
        · rw [if_neg room, if_pos (by simpa [codecRules] using room)]; rfl
      exact body_codec D nodes limitCode ih _

end Codec

/-! ## The reader and the grammar -/

section Grammar

variable {R} (D : Floats F) {P : Number F → Prop}

/-- The text is one value, with white space around it. -/
def IsText (text : Str) (v : Json F) : Prop :=
  ∃ before inner after, text = before ++ inner ++ after ∧ Whitespace before ∧ Whitespace after ∧ ValueText D inner v

/-- The rules give the numbers of `P` as `bounded_json` does. -/
def Reads (R : Rules E F) (P : Number F → Prop) : Prop :=
  ∀ s n rest, P n → Ends rest → (R.number s = some (n, rest) ↔ codecNumber D s = some (n, rest))

variable {D} (reads : Reads D R P) {left : Nat} {text : Str} {v : Json F}

include reads

theorem read_sound (done : R.read left text = .ok v) (numbers : v.Numbers P) :
    IsText D text v ∧ v.Distinct ∧ v.height < left ∧ R.room v.values = true := by
  obtain ⟨⟨w, cur⟩, value_, done⟩ := bind_ok.1 done
  obtain ⟨closed, same⟩ := seq_ok.1 done
  obtain rfl : w = v := Except.ok.inj same
  have alike : Alike R (codecRules D cur.count .malformedOutput) P :=
    fun s n rest holds ends found => (reads s n rest holds ends).1 found
  obtain ⟨after, split', space', -⟩ := skip_split cur
  rw [not_not.1 (refuse_ok.1 closed), List.append_nil] at split'
  have ends : Ends cur.rest := by
    rw [split']
    intro c head
    exact .inl (space' c (List.mem_of_mem_head? head))
  obtain ⟨count, room, wanted⟩ := value_carries alike left _ _ _ value_ ends numbers
  have parsed := wanted fun n small => decide_eq_true small
  rw [← mapError_ok (g := toFailure), value_codec] at parsed
  obtain ⟨⟨before, inner, split_, space, written⟩, distinct, height, -, -⟩ :=
    parseValue_sound D _ _ _ _ _ _ parsed
  refine ⟨⟨before, inner, after, ?_, space, space', written⟩, distinct, height, ?_⟩
  · rw [← split', ← split_]
  · rwa [count, Nat.zero_add] at room

theorem read_complete (written : IsText D text v) (distinct : v.Distinct) (height : v.height < left)
    (roomy : ∀ n ≤ v.values, R.room n = true) (numbers : v.Numbers P) : R.read left text = .ok v := by
  obtain ⟨before, inner, after, rfl, space, space', written⟩ := written
  have ends : Ends after := by
    intro c head
    exact .inl (space' c (List.mem_of_mem_head? head))
  have parsed := parseValue_complete D v.values .malformedOutput v written distinct height space ends
    (show 0 + v.values ≤ v.values from (Nat.zero_add _).le)
  rw [← value_codec, mapError_ok] at parsed
  have alike : Alike (codecRules D v.values .malformedOutput) R P :=
    fun s n rest holds ends found => (reads s n rest holds ends).2 found
  obtain ⟨-, -, wanted⟩ := value_carries alike left _ _ _ parsed ends numbers
  rw [Nat.zero_add] at wanted
  rw [read, wanted roomy]
  have closed := skip_solid (s := []) space' (fun _ none_ => nomatch none_) v.values
  rw [List.append_nil] at closed
  show (refuse (Cursor.rest (Cursor.skip ⟨after, v.values⟩) ≠ []) _ >>= _) = _
  rw [closed, refuse, if_neg (not_not.2 rfl)]
  rfl

/-- **The values of a text.** -/
theorem read_iff (down : ∀ m n, m ≤ n → R.room n = true → R.room m = true) (numbers : v.Numbers P) :
    R.read left text = .ok v ↔ IsText D text v ∧ v.Distinct ∧ v.height < left ∧ R.room v.values = true :=
  ⟨fun done => read_sound reads done numbers, fun ⟨written, distinct, height, room⟩ =>
    read_complete reads written distinct height (fun n small => down n _ small room) numbers⟩

end Grammar

/-! ## What every value has -/

/-- A property of values that a reader gives: of the leaves, and of a container from its items;
the keys of an object are distinct. -/
structure Closed (R : Rules E F) (Q : Json F → Prop) : Prop where
  null : Q .null
  bool : ∀ b, Q (.bool b)
  string : ∀ s, Q (.string s)
  number : ∀ s n rest, R.number s = some (n, rest) → Q (.number n)
  array : ∀ items, (∀ v ∈ items, Q v) → Q (.array items)
  object : ∀ members, (members.map Prod.fst).Nodup → (∀ m ∈ members, Q m.2) → Q (.object members)

section Closed

variable {R} {Q : Json F → Prop} (closed : Closed R Q) {item : Reader E (Json F)}
  (only : ∀ cur v cur', item cur = .ok (v, cur') → Q v)

include closed only

theorem items_closed {fuel : Nat} {acc : List (Json F)} {cur cur' : Cursor} {v : Json F}
    (done : R.items item fuel acc cur = .ok (v, cur')) (before : ∀ w ∈ acc, Q w) : Q v := by
  induction fuel generalizing acc cur with
  | zero => cases done
  | succ fuel ih =>
      rw [items, bind_ok] at done
      obtain ⟨⟨w, cur₁⟩, item_, done⟩ := done
      obtain ⟨⟨sep, cur₂⟩, -, done⟩ := bind_ok.1 done
      have all : ∀ u ∈ acc ++ [w], Q u := by
        intro u mem
        rcases List.mem_append.1 mem with mem | mem
        · exact before u mem
        · obtain rfl := List.mem_singleton.1 mem
          exact only _ _ _ item_
      dsimp only at done
      split at done
      · obtain ⟨rfl, -⟩ := Prod.mk.inj (Except.ok.inj done)
        exact closed.array _ all
      split at done
      · exact ih done all
      · cases done

theorem members_closed {fuel : Nat} {acc : List (Str × Json F)} {cur cur' : Cursor} {v : Json F}
    (done : R.members item fuel acc cur = .ok (v, cur')) (unique : (acc.map Prod.fst).Nodup)
    (before : ∀ m ∈ acc, Q m.2) : Q v := by
  induction fuel generalizing acc cur with
  | zero => cases done
  | succ fuel ih =>
      rw [members, bind_ok] at done
      obtain ⟨⟨key, cur₁⟩, -, done⟩ := done
      obtain ⟨fresh, done⟩ := seq_ok.1 done
      obtain ⟨⟨colon, cur₂⟩, -, done⟩ := bind_ok.1 done
      obtain ⟨-, done⟩ := seq_ok.1 done
      obtain ⟨⟨w, cur₃⟩, item_, done⟩ := bind_ok.1 done
      obtain ⟨⟨sep, cur₄⟩, -, done⟩ := bind_ok.1 done
      have all : ∀ m ∈ acc ++ [(key, w)], Q m.2 := by
        intro m mem
        rcases List.mem_append.1 mem with mem | mem
        · exact before m mem
        · obtain rfl := List.mem_singleton.1 mem
          exact only _ _ _ item_
      have unique' : ((acc ++ [(key, w)]).map Prod.fst).Nodup := by
        rw [List.map_append, List.nodup_append]
        refine ⟨unique, List.nodup_singleton _, ?_⟩
        rintro a mem b mem' rfl
        obtain rfl : a = key := List.mem_singleton.1 mem'
        exact refuse_ok.1 fresh mem
      dsimp only at done
      split at done
      · obtain ⟨rfl, -⟩ := Prod.mk.inj (Except.ok.inj done)
        exact closed.object _ unique' all
      split at done
      · exact ih done unique' all
      · cases done

theorem body_closed {cur cur' : Cursor} {v : Json F} (done : R.body item cur = .ok (v, cur')) : Q v := by
  unfold body at done
  split at done
  · cases done
  · obtain ⟨⟨s, cur₁⟩, -, same⟩ := map_ok.1 done
    obtain ⟨rfl, -⟩ := Prod.mk.inj same
    exact closed.string s
  · unfold object at done
    dsimp only at done
    split at done
    · obtain ⟨rfl, -⟩ := Prod.mk.inj (Except.ok.inj done)
      exact closed.object [] List.nodup_nil fun m mem => by cases mem
    · exact members_closed closed only done List.nodup_nil fun m mem => by cases mem
  · unfold array at done
    dsimp only at done
    split at done
    · obtain ⟨rfl, -⟩ := Prod.mk.inj (Except.ok.inj done)
      exact closed.array [] fun w mem => by cases mem
    · exact items_closed closed only done fun w mem => by cases mem
  · unfold scalar at done
    split at done
    · obtain ⟨rfl, -⟩ := Prod.mk.inj (Except.ok.inj done)
      exact closed.bool true
    split at done
    · obtain ⟨rfl, -⟩ := Prod.mk.inj (Except.ok.inj done)
      exact closed.bool false
    split at done
    · obtain ⟨rfl, -⟩ := Prod.mk.inj (Except.ok.inj done)
      exact closed.null
    split at done
    · cases done
    · next n rest found =>
      obtain ⟨rfl, -⟩ := Prod.mk.inj (Except.ok.inj done)
      exact closed.number _ n rest found

omit only

theorem value_closed (left : Nat) (cur : Cursor) (v : Json F) (cur' : Cursor)
    (done : R.value left cur = .ok (v, cur')) : Q v := by
  induction left generalizing cur v cur' with
  | zero => cases done
  | succ left ih =>
      rw [value, seq_ok] at done
      exact body_closed closed ih done.2

theorem read_closed {left : Nat} {text : Str} {v : Json F} (done : R.read left text = .ok v) : Q v := by
  obtain ⟨⟨w, cur⟩, value_, done⟩ := bind_ok.1 done
  obtain ⟨-, same⟩ := seq_ok.1 done
  obtain rfl : w = v := Except.ok.inj same
  exact value_closed closed left _ _ _ value_

end Closed

theorem closed_distinct : Closed R Json.Distinct where
  null := trivial
  bool _ := trivial
  string _ := trivial
  number _ _ _ _ := trivial
  array items all := (Json.distinctItems_iff items).2 all
  object members unique all := ⟨unique, (Json.distinctMembers_iff members).2 all⟩

theorem closed_numbers {P : Number F → Prop} (number : ∀ s n rest, R.number s = some (n, rest) → P n) :
    Closed R (Json.Numbers P) where
  null := trivial
  bool _ := trivial
  string _ := trivial
  number := number
  array items all := (Json.numbersItems_iff P items).2 all
  object members _ all := (Json.numbersMembers_iff P members).2 all

/-! ## Every reading ends -/

section Ends

variable {α β : Type}

/-- The reading ends with an exception, or where `Q` says. -/
def EndsIn (Q : Cursor → Prop) : Except (Halt E) (α × Cursor) → Prop
  | .ok (_, cur) => Q cur
  | .error halt => halt ≠ .stuck

variable {R}

theorem ends_bind {Q Q' : Cursor → Prop} {x : Except (Halt E) (α × Cursor)}
    {f : α × Cursor → Except (Halt E) (β × Cursor)} (first : EndsIn Q x)
    (then_ : ∀ a cur, Q cur → EndsIn Q' (f (a, cur))) : EndsIn Q' (x >>= f) := by
  cases x with
  | error halt => exact first
  | ok found => exact then_ found.1 found.2 first

theorem ends_refuse {Q : Cursor → Prop} {p : Prop} [Decidable p] {e : E}
    {f : Unit → Except (Halt E) (α × Cursor)} (then_ : EndsIn Q (f ())) : EndsIn Q (refuse p (.raised e) >>= f) := by
  unfold refuse
  split
  · exact fun same => nomatch same
  · exact then_

theorem ends_mono {Q Q' : Cursor → Prop} {x : Except (Halt E) (α × Cursor)} (ends : EndsIn Q x)
    (imp : ∀ cur, Q cur → Q' cur) : EndsIn Q' x := by
  cases x with
  | error halt => exact ends
  | ok found => exact imp _ ends

theorem scanString_length {skip : Nat} {text rest : Str} {codes : List Nat}
    (scanned : scanString skip text = some (codes, rest)) : rest.length ≤ text.length := by
  induction text generalizing skip codes with
  | nil => cases skip <;> cases scanned
  | cons c more ih =>
      rw [List.length_cons]
      cases skip with
      | succ skip => exact Nat.le_succ_of_le (ih scanned)
      | zero =>
          have step {n size : Nat} (read : withCode n (scanString size more) = some (codes, rest)) :
              rest.length ≤ more.length + 1 := by
            obtain ⟨⟨codes', rest'⟩, found, same⟩ := Option.map_eq_some_iff.1 read
            obtain ⟨-, rfl⟩ := Prod.mk.inj same
            exact Nat.le_succ_of_le (ih found)
          rw [scanString] at scanned
          split at scanned
          · obtain ⟨-, rfl⟩ := Prod.mk.inj (Option.some.inj scanned)
            exact Nat.le_succ _
          split at scanned
          · cases scanned
          split at scanned
          · obtain ⟨⟨n, size⟩, -, read⟩ := Option.bind_eq_some_iff.1 scanned
            exact step read
          · exact step scanned

theorem string_ends (cur : Cursor) : EndsIn (fun cur' => cur'.rest.length < cur.rest.length) (R.string cur) := by
  unfold string
  split
  · next more quoted =>
    split
    · exact fun same => nomatch same
    · next codes rest scanned =>
      split
      · exact fun same => nomatch same
      · show rest.length < cur.rest.length
        rw [quoted, List.length_cons]
        exact Nat.lt_succ_of_le (scanString_length scanned)
  · exact fun same => nomatch same

theorem next_endsIn (cur : Cursor) : EndsIn (fun cur' => cur'.rest.length < cur.rest.length) (R.next cur) := by
  unfold next
  split
  · exact fun same => nomatch same
  · next c rest text =>
    show rest.length < cur.rest.length
    rw [text, List.length_cons]
    exact Nat.lt_succ_self _

/-- A reader that ends, and goes forward. -/
def Settles (item : Reader E (Json F)) : Prop :=
  ∀ cur, EndsIn (fun cur' => cur'.rest.length ≤ cur.rest.length) (item cur)

variable {item : Reader E (Json F)} (settles : Settles item)

include settles

theorem items_ends {fuel : Nat} {acc : List (Json F)} {cur : Cursor} (enough : cur.rest.length < fuel) :
    EndsIn (fun cur' => cur'.rest.length ≤ cur.rest.length) (R.items item fuel acc cur) := by
  induction fuel generalizing acc cur with
  | zero => exact absurd enough (Nat.not_lt_zero _)
  | succ fuel ih =>
      rw [items]
      refine ends_bind (settles _) fun v cur₁ first => ends_bind (next_endsIn _) fun sep cur₂ second => ?_
      have skipped := skip_length cur
      have skipped' := skip_length cur₁
      dsimp only
      split
      · exact show cur₂.rest.length ≤ cur.rest.length by omega
      split
      · exact ends_mono (ih (show cur₂.rest.length < fuel by omega)) fun cur' less => by omega
      · exact fun same => nomatch same

theorem members_ends {fuel : Nat} {acc : List (Str × Json F)} {cur : Cursor} (enough : cur.rest.length < fuel) :
    EndsIn (fun cur' => cur'.rest.length ≤ cur.rest.length) (R.members item fuel acc cur) := by
  induction fuel generalizing acc cur with
  | zero => exact absurd enough (Nat.not_lt_zero _)
  | succ fuel ih =>
      rw [members]
      refine ends_bind (string_ends _) fun key cur₁ first => ends_refuse ?_
      refine ends_bind (next_endsIn _) fun colon cur₂ second => ends_refuse ?_
      refine ends_bind (settles _) fun v cur₃ third => ends_bind (next_endsIn _) fun sep cur₄ fourth => ?_
      have skipped := skip_length cur
      have skipped' := skip_length cur₁
      have skipped'' := skip_length cur₃
      dsimp only
      split
      · exact show cur₄.rest.length ≤ cur.rest.length by omega
      split
      · exact ends_mono (ih (show cur₄.rest.length < fuel by omega)) fun cur' less => by omega
      · exact fun same => nomatch same

theorem array_ends (cur : Cursor) : EndsIn (fun cur' => cur'.rest.length ≤ cur.rest.length) (R.array item cur) := by
  have skipped := skip_length cur
  unfold array
  dsimp only
  split
  · next rest text =>
    rw [text, List.length_cons] at skipped
    exact show rest.length ≤ cur.rest.length by omega
  · exact ends_mono (items_ends settles (Nat.lt_succ_self _)) fun cur' less => less.trans skipped

theorem object_ends (cur : Cursor) : EndsIn (fun cur' => cur'.rest.length ≤ cur.rest.length) (R.object item cur) := by
  have skipped := skip_length cur
  unfold object
  dsimp only
  split
  · next rest text =>
    rw [text, List.length_cons] at skipped
    exact show rest.length ≤ cur.rest.length by omega
  · exact ends_mono (members_ends settles (Nat.lt_succ_self _)) fun cur' less => less.trans skipped

variable (forward : ∀ s n rest, R.number s = some (n, rest) → rest.length ≤ s.length)

include forward

omit settles in
theorem scalar_ends (cur : Cursor) : EndsIn (fun cur' => cur'.rest.length ≤ cur.rest.length) (R.scalar cur) := by
  have dropped (n : Nat) : (cur.rest.drop n).length ≤ cur.rest.length := by
    rw [List.length_drop]
    exact Nat.sub_le _ _
  unfold scalar
  split
  · exact dropped 4
  split
  · exact dropped 5
  split
  · exact dropped 4
  split
  · exact fun same => nomatch same
  · next n rest number => exact forward _ _ _ number

theorem body_ends (cur : Cursor) : EndsIn (fun cur' => cur'.rest.length ≤ cur.rest.length) (R.body item cur) := by
  unfold body
  split
  · exact fun same => nomatch same
  · have ends := @string_ends E F R cur
    cases quoted : R.string cur with
    | error halt => rw [quoted] at ends; exact ends
    | ok found => rw [quoted] at ends; exact Nat.le_of_lt ends
  · next rest text =>
    refine ends_mono (object_ends settles _) fun cur' less => ?_
    rw [text, List.length_cons]
    exact Nat.le_succ_of_le less
  · next rest text =>
    refine ends_mono (array_ends settles _) fun cur' less => ?_
    rw [text, List.length_cons]
    exact Nat.le_succ_of_le less
  · exact scalar_ends forward cur

omit settles in
theorem value_settles (left : Nat) : Settles (R.value left) := by
  induction left with
  | zero => exact fun cur same => nomatch same
  | succ left ih =>
      intro cur
      rw [value]
      exact ends_refuse (ends_mono (body_ends ih forward _) fun cur' less => less.trans (skip_length _))

omit settles in
/-- **A reading ends with a value or an exception.** -/
theorem read_ends (left : Nat) (text : Str) : R.read left text ≠ .error .stuck := by
  intro stuck
  rw [read, bind_error] at stuck
  have ends := value_settles forward left ⟨text, 0⟩
  rcases stuck with stuck | ⟨⟨v, cur⟩, -, stuck⟩
  · rw [stuck] at ends
    exact ends rfl
  · dsimp only at stuck
    rw [bind_error] at stuck
    rcases stuck with stuck | ⟨_, _, stuck⟩
    · unfold refuse at stuck
      split at stuck <;> cases stuck
    · cases stuck

end Ends

end Rules

end ApiSecurityPlatform.Research.JsonReader
