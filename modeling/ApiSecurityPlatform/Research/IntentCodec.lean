/-
# Research.IntentCodec -- `ra-json/1`

The codec of intents is `json.loads` with hooks that raise at a duplicate key, a float or a
constant, and a walk over the value that counts nodes, the keys among them.  A walk finishes
exactly when the value is within its limits (`walk_ok`).

`parse` is stated for values without numbers (`parse_iff`): what an integer may be depends on
the interpreter's limit of digits.  A canonical value comes back (`parse_canonical`).
-/
import ApiSecurityPlatform.Proposals.Canonical
import ApiSecurityPlatform.Research.JsonReader

namespace ApiSecurityPlatform.Research.IntentCodec

open ApiSecurityPlatform.Theory
open ApiSecurityPlatform.Python
open ApiSecurityPlatform.Proposals
open ApiSecurityPlatform.Research.JsonReader

set_option autoImplicit false

structure IntentError where
  code : String
  status : Nat
deriving DecidableEq

def intentInvalid : IntentError := ⟨"intent_invalid", 422⟩

def intentInputLimit : IntentError := ⟨"intent_input_limit", 413⟩

def intentStructureLimit : IntentError := ⟨"intent_structure_limit", 422⟩

def maxInput : Nat := 32768

/-! ## Walks -/

/-- A walk over a value: its limits, what it raises beyond them, and at a float. -/
structure Walk (E : Type) where
  depth : Nat
  nodes : Nat
  limit : E
  float : Option E

section Walks

variable {E F : Type} (W : Walk E)

/-- One node more. -/
def visit (depth count : Nat) : Except E Nat := do
  refuse (W.nodes < count + 1 ∨ W.depth < depth) W.limit
  return count + 1

mutual

def walk (depth count : Nat) : Json F → Except E Nat
  | .null => visit W depth count
  | .bool _ => visit W depth count
  | .string _ => visit W depth count
  | .number (.int _) => visit W depth count
  | .number (.float _) => do
      let count ← visit W depth count
      match W.float with
      | none => return count
      | some e => .error e
  | .array items => do
      let count ← visit W depth count
      walkItems (depth + 1) count items
  | .object members => do
      let count ← visit W depth count
      walkMembers (depth + 1) count members

def walkItems (depth count : Nat) : List (Json F) → Except E Nat
  | [] => .ok count
  | v :: rest => do
      let count ← walk depth count v
      walkItems depth count rest

def walkMembers (depth count : Nat) : List (Str × Json F) → Except E Nat
  | [] => .ok count
  | (_, v) :: rest => do
      let count ← visit W depth count
      let count ← walk depth count v
      walkMembers depth count rest

end

mutual

/-- The nodes of a value, keys among them. -/
def nodes : Json F → Nat
  | .array items => 1 + nodesItems items
  | .object members => 1 + nodesMembers members
  | _ => 1

def nodesItems : List (Json F) → Nat
  | [] => 0
  | v :: rest => nodes v + nodesItems rest

def nodesMembers : List (Str × Json F) → Nat
  | [] => 0
  | (_, v) :: rest => 1 + nodes v + nodesMembers rest

end

/-- What a walk says of a number. -/
def Passes : Number F → Prop
  | .int _ => True
  | .float _ => W.float = none

theorem visit_ok {depth count n : Nat} : visit W depth count = .ok n ↔
    depth ≤ W.depth ∧ count + 1 ≤ W.nodes ∧ n = count + 1 := by
  rw [visit, seq_ok, refuse_ok, not_or, Nat.not_lt, Nat.not_lt]
  constructor
  · rintro ⟨⟨room, level⟩, same⟩
    exact ⟨level, room, (Except.ok.inj same).symm⟩
  · rintro ⟨level, room, rfl⟩
    exact ⟨⟨room, level⟩, rfl⟩

mutual

/-- **A walk finishes exactly within its limits.** -/
theorem walk_ok (v : Json F) (depth count n : Nat) : walk W depth count v = .ok n ↔
    depth + v.height ≤ W.depth ∧ count + nodes v ≤ W.nodes ∧ v.Numbers (Passes W) ∧ n = count + nodes v := by
  have leaf (v : Json F) (height : v.height = 0) (one : nodes v = 1) (numbers : v.Numbers (Passes W)) :
      visit W depth count = .ok n ↔
        depth + v.height ≤ W.depth ∧ count + nodes v ≤ W.nodes ∧ v.Numbers (Passes W) ∧ n = count + nodes v := by
    rw [visit_ok, height, one, and_iff_right numbers]
    exact Iff.rfl
  cases v with
  | null => exact leaf _ rfl rfl trivial
  | bool b => exact leaf _ rfl rfl trivial
  | string s => exact leaf _ rfl rfl trivial
  | number m =>
      cases m with
      | int i => exact leaf _ rfl rfl trivial
      | float x =>
          rw [walk, bind_ok]
          simp only [visit_ok]
          show _ ↔ depth + 0 ≤ _ ∧ count + 1 ≤ _ ∧ W.float = none ∧ n = count + 1
          cases W.float with
          | none =>
              constructor
              · rintro ⟨_, ⟨level, room, rfl⟩, same⟩
                exact ⟨level, room, rfl, (Except.ok.inj same).symm⟩
              · rintro ⟨level, room, -, rfl⟩
                exact ⟨_, ⟨level, room, rfl⟩, rfl⟩
          | some e => exact iff_of_false (fun ⟨_, _, same⟩ => nomatch same) fun ⟨_, _, same, _⟩ => nomatch same
  | array items =>
      rw [walk, bind_ok]
      simp only [visit_ok]
      show _ ↔ depth + Json.itemsHeight items ≤ _ ∧ count + (1 + nodesItems items) ≤ _ ∧
        Json.NumbersItems (Passes W) items ∧ n = count + (1 + nodesItems items)
      have inner := walkItems_ok items depth (count + 1) n
      constructor
      · rintro ⟨_, ⟨level, room, rfl⟩, done⟩
        obtain ⟨height, total, numbers, rfl⟩ := (inner level room).1 done
        exact ⟨height, by omega, numbers, by omega⟩
      · rintro ⟨height, total, numbers, rfl⟩
        have level : depth ≤ W.depth := by omega
        have room : count + 1 ≤ W.nodes := by omega
        exact ⟨_, ⟨level, room, rfl⟩, (inner level room).2 ⟨height, by omega, numbers, by omega⟩⟩
  | object members =>
      rw [walk, bind_ok]
      simp only [visit_ok]
      show _ ↔ depth + Json.membersHeight members ≤ _ ∧ count + (1 + nodesMembers members) ≤ _ ∧
        Json.NumbersMembers (Passes W) members ∧ n = count + (1 + nodesMembers members)
      have inner := walkMembers_ok members depth (count + 1) n
      constructor
      · rintro ⟨_, ⟨level, room, rfl⟩, done⟩
        obtain ⟨height, total, numbers, rfl⟩ := (inner level room).1 done
        exact ⟨height, by omega, numbers, by omega⟩
      · rintro ⟨height, total, numbers, rfl⟩
        have level : depth ≤ W.depth := by omega
        have room : count + 1 ≤ W.nodes := by omega
        exact ⟨_, ⟨level, room, rfl⟩, (inner level room).2 ⟨height, by omega, numbers, by omega⟩⟩

theorem walkItems_ok (items : List (Json F)) (depth count n : Nat) (level : depth ≤ W.depth) (room : count ≤ W.nodes) :
    walkItems W (depth + 1) count items = .ok n ↔
      depth + Json.itemsHeight items ≤ W.depth ∧ count + nodesItems items ≤ W.nodes ∧
        Json.NumbersItems (Passes W) items ∧ n = count + nodesItems items := by
  cases items with
  | nil =>
      rw [walkItems, Except.ok.injEq]
      show _ ↔ depth + 0 ≤ _ ∧ count + 0 ≤ _ ∧ True ∧ n = count + 0
      exact ⟨fun same => ⟨level, room, trivial, same.symm⟩, fun ⟨_, _, _, same⟩ => same.symm⟩
  | cons v rest =>
      rw [walkItems, bind_ok]
      simp only [walk_ok v]
      show _ ↔ depth + max (v.height + 1) (Json.itemsHeight rest) ≤ _ ∧ count + (nodes v + nodesItems rest) ≤ _ ∧
        (v.Numbers (Passes W) ∧ Json.NumbersItems (Passes W) rest) ∧ n = count + (nodes v + nodesItems rest)
      constructor
      · rintro ⟨_, ⟨height, total, numbers, rfl⟩, done⟩
        obtain ⟨height', total', numbers', rfl⟩ := (walkItems_ok rest depth _ n level total).1 done
        exact ⟨by omega, by omega, ⟨numbers, numbers'⟩, by omega⟩
      · rintro ⟨height, total, ⟨numbers, numbers'⟩, rfl⟩
        have first : count + nodes v ≤ W.nodes := by omega
        exact ⟨_, ⟨by omega, first, numbers, rfl⟩,
          (walkItems_ok rest depth _ _ level first).2 ⟨by omega, by omega, numbers', by omega⟩⟩

theorem walkMembers_ok (members : List (Str × Json F)) (depth count n : Nat) (level : depth ≤ W.depth)
    (room : count ≤ W.nodes) :
    walkMembers W (depth + 1) count members = .ok n ↔
      depth + Json.membersHeight members ≤ W.depth ∧ count + nodesMembers members ≤ W.nodes ∧
        Json.NumbersMembers (Passes W) members ∧ n = count + nodesMembers members := by
  cases members with
  | nil =>
      rw [walkMembers, Except.ok.injEq]
      show _ ↔ depth + 0 ≤ _ ∧ count + 0 ≤ _ ∧ True ∧ n = count + 0
      exact ⟨fun same => ⟨level, room, trivial, same.symm⟩, fun ⟨_, _, _, same⟩ => same.symm⟩
  | cons m rest =>
      obtain ⟨key, v⟩ := m
      rw [walkMembers, bind_ok]
      simp only [visit_ok, bind_ok, walk_ok v]
      show _ ↔ depth + max (v.height + 1) (Json.membersHeight rest) ≤ _ ∧
        count + (1 + nodes v + nodesMembers rest) ≤ _ ∧
        (v.Numbers (Passes W) ∧ Json.NumbersMembers (Passes W) rest) ∧ n = count + (1 + nodes v + nodesMembers rest)
      constructor
      · rintro ⟨_, ⟨inside, fits, rfl⟩, _, ⟨height, total, numbers, rfl⟩, done⟩
        obtain ⟨height', total', numbers', rfl⟩ := (walkMembers_ok rest depth _ n level total).1 done
        exact ⟨by omega, by omega, ⟨numbers, numbers'⟩, by omega⟩
      · rintro ⟨height, total, ⟨numbers, numbers'⟩, rfl⟩
        have first : count + 1 + nodes v ≤ W.nodes := by omega
        exact ⟨_, ⟨by omega, by omega, rfl⟩, _, ⟨by omega, first, numbers, rfl⟩,
          (walkMembers_ok rest depth _ _ level first).2 ⟨by omega, by omega, numbers', by omega⟩⟩

end

end Walks

/-! ## The codec -/

/-- `_tree`. -/
def treeWalk : Walk (Halt IntentError) where
  depth := 8
  nodes := 8192
  limit := .raised intentStructureLimit
  float := some (.raised intentInvalid)

/-- What the codec uses of the interpreter: the digits an integer may have, and the levels of
recursion `json.loads` has, which are more than a tree may have. -/
structure Interpreter where
  digits : Nat
  levels : Nat
  deep : 8 < levels
  sha256 : Bytes → Str

section Codec

variable {F : Type}

/-- A number for `json.loads`: `parse_float` raises. -/
def hookedNumber (digits : Nat) (s : Str) : Option (Number F × Str) :=
  match matchNumber s with
  | none => none
  | some (token, rest) =>
      if isFloatToken token = true then none
      else if digits < (token.dropWhile (· = '-')).length then none
      else some (.int (tokenInt token), rest)

/-- `json.loads` with the hooks; no constant begins a number, so `parse_constant` raises alike. -/
def hooked (I : Interpreter) : Rules IntentError F where
  malformed := intentInvalid
  duplicate := intentInvalid
  limit := intentInvalid  -- `RecursionError`
  room _ := true
  number := hookedNumber I.digits

variable (D : Floats F) (I : Interpreter)

def canonical (v : Json F) : Except (Halt IntentError) Bytes := do
  let _ ← walk treeWalk 0 0 v
  return Proposals.canonical D v

def digest (protocol : Str) (v : Json F) : Except (Halt IntentError) Str := do
  let bytes ← canonical D v
  return I.sha256 (utf8 protocol ++ utf8 ['\n'] ++ bytes)

def parse (raw : Bytes) : Except (Halt IntentError) (Json F) := do
  refuse (maxInput < raw.length) (.raised intentInputLimit)
  match decodeStrict raw with
  | none => .error (.raised intentInvalid)
  | some text => do
      let value ← (hooked I).read I.levels text
      let _ ← canonical D value
      return value

/-! ## Values without numbers -/

def NumberFree (v : Json F) : Prop := v.Numbers fun _ => False

theorem canonical_ok {v : Json F} (free : NumberFree v) {bytes : Bytes} :
    canonical D v = .ok bytes ↔ v.height ≤ 8 ∧ nodes v ≤ 8192 ∧ bytes = Proposals.canonical D v := by
  have passes : v.Numbers (Passes treeWalk) := Json.numbers_mono (fun _ none_ => none_.elim) v free
  rw [canonical, bind_ok]
  constructor
  · rintro ⟨n, walked, same⟩
    obtain ⟨height, count, -, -⟩ := (walk_ok treeWalk v 0 0 n).1 walked
    rw [Nat.zero_add] at height count
    exact ⟨height, count, (Except.ok.inj same).symm⟩
  · rintro ⟨height, count, rfl⟩
    refine ⟨_, (walk_ok treeWalk v 0 0 _).2 ⟨?_, ?_, passes, rfl⟩, rfl⟩
    · rwa [Nat.zero_add]
    · rwa [Nat.zero_add]

/-- **What `parse` reads without numbers.** -/
theorem parse_iff {raw : Bytes} {v : Json F} (free : NumberFree v) :
    parse D I raw = .ok v ↔ raw.length ≤ maxInput ∧ (∃ text, raw = utf8 text ∧ Rules.IsText D text v) ∧
      v.Distinct ∧ v.height ≤ 8 ∧ nodes v ≤ 8192 := by
  have reads : Rules.Reads (D := D) (hooked (F := F) I) (fun _ => False) := fun _ _ _ none_ => none_.elim
  have read_iff {text : Str} : (hooked I).read I.levels text = .ok v ↔ Rules.IsText D text v ∧ v.Distinct ∧
      v.height < I.levels ∧ (hooked (F := F) I).room v.values = true :=
    Rules.read_iff reads (fun _ _ _ room => room) free
  rw [parse, seq_ok, refuse_ok, Nat.not_lt]
  refine and_congr_right fun _ => ?_
  constructor
  · intro done
    cases decoded : decodeStrict raw with
    | none =>
        rw [decoded] at done
        cases done
    | some text =>
        rw [decoded] at done
        obtain ⟨w, value, done⟩ := bind_ok.1 done
        obtain ⟨bytes, canonical_, done⟩ := bind_ok.1 done
        obtain rfl : w = v := Except.ok.inj done
        obtain ⟨written, distinct, -, -⟩ := read_iff.1 value
        obtain ⟨height, count, -⟩ := (canonical_ok D free).1 canonical_
        exact ⟨⟨text, decodeStrict_iff.1 decoded, written⟩, distinct, height, count⟩
  · rintro ⟨⟨text, rfl, written⟩, distinct, height, count⟩
    rw [decodeStrict_iff.2 rfl]
    dsimp only
    rw [read_iff.2 ⟨written, distinct, Nat.lt_of_le_of_lt height I.deep, rfl⟩]
    show (canonical D v >>= _) = _
    rw [(canonical_ok D free).2 ⟨height, count, rfl⟩]
    rfl

theorem parse_distinct {raw : Bytes} {v : Json F} (done : parse D I raw = .ok v) : v.Distinct := by
  rw [parse, seq_ok] at done
  obtain ⟨-, done⟩ := done
  cases decoded : decodeStrict raw with
  | none =>
      rw [decoded] at done
      cases done
  | some text =>
      rw [decoded] at done
      obtain ⟨w, value, done⟩ := bind_ok.1 done
      obtain ⟨bytes, -, done⟩ := bind_ok.1 done
      obtain rfl : w = v := Except.ok.inj done
      exact Rules.read_closed (Rules.closed_distinct _) value

/-! ## Canonical bytes -/

omit I D in
theorem nodesMembers_eq (members : List (Str × Json F)) :
    nodesMembers members = (members.map fun m => 1 + nodes m.2).sum := by
  induction members with
  | nil => rfl
  | cons m rest ih => rw [nodesMembers, ih, List.map_cons, List.sum_cons]

omit I D in
mutual

theorem nodes_sorted (v : Json F) : nodes v.sorted = nodes v := by
  cases v with
  | array items => exact congrArg (1 + ·) (nodesItems_sorted items)
  | object members =>
      show 1 + nodesMembers ((Json.sortedMembers members).insertionSort Json.keyLe) = 1 + nodesMembers members
      rw [← nodesMembers_sorted members, nodesMembers_eq, nodesMembers_eq]
      exact congrArg (1 + ·) (((List.perm_insertionSort Json.keyLe _).map _).sum_nat)
  | null => rfl
  | bool b => rfl
  | number n => rfl
  | string s => rfl

theorem nodesItems_sorted (items : List (Json F)) : nodesItems (Json.sortedItems items) = nodesItems items := by
  cases items with
  | nil => rfl
  | cons v rest => rw [Json.sortedItems, nodesItems, nodesItems, nodes_sorted v, nodesItems_sorted rest]

theorem nodesMembers_sorted (members : List (Str × Json F)) :
    nodesMembers (Json.sortedMembers members) = nodesMembers members := by
  cases members with
  | nil => rfl
  | cons m rest => rw [Json.sortedMembers, nodesMembers, nodesMembers, nodes_sorted m.2, nodesMembers_sorted rest]

end

/-- **A value without numbers comes back from its canonical bytes.** -/
theorem parse_canonical {v : Json F} (free : NumberFree v) (distinct : v.Distinct) (short : v.Short)
    (height : v.height ≤ 8) (count : nodes v ≤ 8192) (size : (Proposals.canonical D v).length ≤ maxInput) :
    parse D I (Proposals.canonical D v) = .ok v.sorted := by
  refine (parse_iff D I (Json.sorted_numbers v free)).2 ⟨size, ⟨v.sorted.render D.toDoubles, rfl, [], _, [], ?_, .nil,
    .nil, render_text D _ (Json.sorted_short v short)⟩, Json.sorted_distinct v distinct, ?_, ?_⟩
  · rw [List.nil_append, List.append_nil]
  · rwa [Json.sorted_height]
  · rwa [nodes_sorted]

end Codec

end ApiSecurityPlatform.Research.IntentCodec
