/-
# Ports.Records -- bounded records

`decode` reads bounded JSON, validates it against a layout, decodes every nested record again
from its own canonical bytes and freezes the result; `make` writes canonical bytes and decodes
them.  A nested record is found by recursion on the layout.

`Frozen` has no float: no kind admits one, so `freeze` is never asked for one (`Typed.freezes`).
-/
import ApiSecurityPlatform.Ports.Layouts
import ApiSecurityPlatform.Proposals.Canonical

namespace ApiSecurityPlatform.Python.Json

set_option autoImplicit false

variable {F : Type}

/-- `value[key]` of a key that is there. -/
def get (members : List (Str × Json F)) (key : Str) : Json F := (members.lookup key).getD .null

def isNull : Json F → Bool
  | .null => true
  | _ => false

def asInt : Json F → Int
  | .number (.int n) => n
  | _ => 0

def asText : Json F → Str
  | .string s => s
  | _ => []

def asItems : Json F → List (Json F)
  | .array items => items
  | _ => []

def asMembers : Json F → List (Str × Json F)
  | .object members => members
  | _ => []

end ApiSecurityPlatform.Python.Json

namespace ApiSecurityPlatform.Ports

open ApiSecurityPlatform.Python
open ApiSecurityPlatform.Proposals (Bytes Floats Limits boundedJson canonical utf8)

set_option autoImplicit false

/-! ## Single values -/

/-- `RATE_CARD`. -/
def rateCard : String := "openai-terra-usd-standard-2026-09-11/1"

/-- `USAGE_MAPPING`. -/
def usageMapping : String := "openai-responses-2026-09-11/1"

/-- `CODES`, of the proposals. -/
def w1Codes : List String :=
  ["PROVIDER_DISABLED", "CONFIG_UNAPPROVED", "DATA_INELIGIBLE", "SOURCE_UNAVAILABLE", "INPUT_LIMIT", "OUTPUT_LIMIT",
    "MALFORMED_OUTPUT", "VERSION_UNSUPPORTED", "REQUEST_MISMATCH", "REFERENCE_UNAVAILABLE", "SUGGESTION_UNSUPPORTED",
    "CONTEXT_CHANGED", "PROVIDER_REFUSAL", "PROVIDER_INCOMPLETE", "TRANSPORT_DENIED", "PROVIDER_TIMEOUT",
    "PROVIDER_FAILURE", "CREDENTIAL_UNAVAILABLE", "USAGE_UNKNOWN", "USAGE_INVALID", "BUDGET_UNAVAILABLE", "CANCELLED",
    "AUDIT_UNAVAILABLE"]

def among (texts : List String) (s : Str) : Bool := texts.any fun text => text.toList == s

section Validation

variable {F : Type} (D : Floats F) (U : Decimals)

/-- `_scalar` of a kind that names neither an array nor a layout. -/
def Leaf.admits : Leaf → Json F → Except PortCode Bool
  | .int n, .number (.int m) => .ok (m == n)
  | .text s, .string t => .ok (t == s.toList)
  | .pattern p, .string t => .ok (p.accepts t)
  | .enum e, .string t => .ok (among e.values t)
  | .whole w, .number (.int m) => .ok (w.lower ≤ m && m ≤ w.upper)
  | .bool, .bool _ => .ok true
  | .time, .string t => (utc U t).map fun _ => true
  | .time, _ => .error .invalidRecord
  | .rate, .string t => .ok (t == rateCard.toList)
  | .mapping, .string t => .ok (t == usageMapping.toList)
  | .w1Code, .string t => .ok (among w1Codes t)
  | _, _ => .ok false

/-! ## Fields that bind each other -/

/-- The microsecond of a `Time` field. -/
def moment (v : Json F) : Int :=
  match utc U v.asText with
  | .ok d => d.civil.microseconds
  | .error _ => 0

def isText (v : Json F) (s : String) : Bool :=
  match v with
  | .string t => t == s.toList
  | _ => false

/-- The counts of a `UsageView`. -/
def usageRule (get : String → Json F) : Prop :=
  let i := get "input_tokens"
  let o := get "output_tokens"
  let c := get "cached_input_tokens"
  let w := get "cache_write_tokens"
  let r := get "reasoning_tokens"
  let total := get "total_tokens"
  if isText (get "state") "known" = true then
    ([i, o, c, w, total].all fun v => !v.isNull) = true ∧ c.asInt + w.asInt ≤ i.asInt ∧
      i.asInt + o.asInt = total.asInt ∧ (r.isNull = true ∨ r.asInt ≤ o.asInt)
  else ([i, o, c, w, r, total].all fun v => v.isNull) = true

instance (get : String → Json F) : Decidable (usageRule get) := by
  unfold usageRule
  infer_instance

/-- The rules of `_validate` after its loop over the fields. -/
def rules (name : Name) (has : String → Bool) (get : String → Json F) : Except PortCode Unit := do
  require (has "valid_from" = true → moment U (get "valid_from") < moment U (get "expires_at")) .invalidRecord
  require (name = .runContext → 0 < moment U (get "deadline_at") - moment U (get "started_at") ∧
    moment U (get "deadline_at") - moment U (get "started_at") ≤ 30 * 1000000) .invalidRecord
  require (name = .runContext → 0 < (get "mono_deadline_ns").asInt - (get "mono_start_ns").asInt ∧
    (get "mono_deadline_ns").asInt - (get "mono_start_ns").asInt ≤ 30000000000) .invalidRecord
  require (name = .reservation ∨ name = .bindingCore → 5120 ≤ (get "reserved_tokens").asInt ∧
    22528 ≤ (get "reserved_microusd").asInt) .invalidRecord
  require (name = .usageView → usageRule get) .invalidRecord
  require (name = .retrievalResult → (get "bindings").asItems.length = (get "projection_refs").asItems.length ∧
    (get "projection_refs").asItems.length = (get "scores").asItems.length) .invalidRecord
  require (name = .preparation → (get "prepared_ref").isNull = (get "core_digest").isNull) .invalidRecord
  require (name = .preparation → (get "prepared_ref").isNull = true ∨
    isText (get "state") "PRIORITY_UNRESOLVED" = true) .invalidRecord
  require (has "missing" = true → (get "missing").asItems.map Json.asText =
    ((get "missing").asItems.map Json.asText).insertionSort (· ≤ ·)) .invalidRecord

/-! ## Validation -/

mutual

/-- `_scalar`. -/
def scalar : Kind → Json F → Except PortCode Bool
  | .leaf leaf, v => leaf.admits U v
  | .nullable kind, v => if v.isNull then .ok true else scalar kind v
  | .array element lower upper, v =>
      match v with
      | .array items => do
          require (lower ≤ items.length ∧ items.length ≤ upper) .limitExceeded
          items.forM fun item => do
            let admitted ← scalar element item
            require (admitted = true) .invalidRecord
          require (element.isScore = true ∨ (items.map (canonical D)).Nodup) .invalidRecord
          return true
      | _ => .error .limitExceeded
  | .record layout, v => do
      validate layout v
      return true

/-- `_validate`. -/
def validate : Layout → Json F → Except PortCode Unit
  | .mk name fields, v =>
      match v with
      | .object members => do
          require (isText (Json.get members "format".toList) (String.ofList (formatFor name)) = true)
            .versionUnsupported
          require (members.map Prod.fst ⊆ "format".toList :: fields.map Prod.fst ∧
            "format".toList :: fields.map Prod.fst ⊆ members.map Prod.fst) .invalidRecord
          validateFields fields members
          rules U name (fun key => decide (key.toList ∈ fields.map Prod.fst)) fun key => Json.get members key.toList
      | _ => .error .invalidRecord

/-- The loop over the fields. -/
def validateFields : List (Str × Kind) → List (Str × Json F) → Except PortCode Unit
  | [], _ => .ok ()
  | (key, kind) :: rest, members => do
      let admitted ← scalar kind (Json.get members key)
      require (admitted = true) .invalidRecord
      validateFields rest members

end

end Validation

/-! ## Records -/

/-- A frozen value.  A `Record` is a mapping with the name of its layout. -/
inductive Frozen where
  | none
  | bool (b : Bool)
  | int (n : Int)
  | str (s : Str)
  | tuple (items : List Frozen)
  | mapping (name : Option Name) (members : List (Str × Frozen))

section Freezing

variable {F : Type}

/-- `next(n for n in LAYOUTS if format_for(n) == value['format'])`. -/
def nameOf (format : Json F) : Option Name :=
  Name.all.find? fun n => isText format (String.ofList (formatFor n))

mutual

/-- `_freeze`; `none` where no layout has the format. -/
def freeze : Json F → Option Frozen
  | .null => some .none
  | .bool b => some (.bool b)
  | .number (.int n) => some (.int n)
  | .number (.float _) => none
  | .string s => some (.str s)
  | .array items => (freezeItems items).map .tuple
  | .object members =>
      (freezeMembers members).bind fun frozen =>
        match members.lookup "format".toList with
        | none => some (.mapping none frozen)
        | some format => (nameOf format).map fun name => .mapping (some name) frozen

def freezeItems : List (Json F) → Option (List Frozen)
  | [] => some []
  | v :: rest => (freeze v).bind fun f => (freezeItems rest).map (f :: ·)

def freezeMembers : List (Str × Json F) → Option (List (Str × Frozen))
  | [] => some []
  | (key, v) :: rest => (freeze v).bind fun f => (freezeMembers rest).map ((key, f) :: ·)

end

mutual

/-- `document`. -/
def Frozen.document : Frozen → Json F
  | .none => .null
  | .bool b => .bool b
  | .int n => .number (.int n)
  | .str s => .string s
  | .tuple items => .array (documentItems items)
  | .mapping _ members => .object (documentMembers members)

def documentItems : List Frozen → List (Json F)
  | [] => []
  | f :: rest => f.document :: documentItems rest

def documentMembers : List (Str × Frozen) → List (Str × Json F)
  | [] => []
  | (key, f) :: rest => (key, f.document) :: documentMembers rest

end

end Freezing

mutual

/-- `==`: `True` is `1`, and a mapping equals one with the same items in any order. -/
def Frozen.equal : Frozen → Frozen → Bool
  | .none, .none => true
  | .bool a, .bool b => a == b
  | .bool a, .int n => n == if a then 1 else 0
  | .int n, .bool b => n == if b then 1 else 0
  | .int n, .int m => n == m
  | .str s, .str t => s == t
  | .tuple items, .tuple items' => equalItems items items'
  | .mapping _ members, .mapping _ members' => members.length == members'.length && equalMembers members members'
  | _, _ => false

def equalItems : List Frozen → List Frozen → Bool
  | [], [] => true
  | f :: rest, g :: rest' => f.equal g && equalItems rest rest'
  | _, _ => false

/-- Every item of the first is one of the second. -/
def equalMembers : List (Str × Frozen) → List (Str × Frozen) → Bool
  | [], _ => true
  | (key, f) :: rest, others => (others.lookup key).any f.equal && equalMembers rest others

end

/-- The values of a mapping or a tuple, at any depth, and the value itself. -/
inductive Frozen.Within : Frozen → Frozen → Prop where
  | self (f : Frozen) : Within f f
  | item {f g : Frozen} {items : List Frozen} (mem : g ∈ items) (inner : Within f g) : Within f (.tuple items)
  | member {f g : Frozen} {name : Option Name} {key : Str} {members : List (Str × Frozen)}
      (mem : (key, g) ∈ members) (inner : Within f g) : Within f (.mapping name members)

section Codec

variable {F : Type} (D : Floats F) (U : Decimals)

/-- `Record.encode`. -/
def encode (record : Frozen) : Bytes := canonical D (record.document : Json F)

/-- What `fingerprint` puts before the bytes. -/
def domain (name : Name) : Str :=
  if name = .bindingCore then "ra-ai-budget/1".toList else formatFor name

/-- `Record.fingerprint`, of a record of this layout. -/
def fingerprint (sha256 : Bytes → Str) (name : Name) (record : Frozen) : Str :=
  sha256 (utf8 (domain name) ++ 10 :: encode D record)

/-! ## Decoding -/

def limitsFor (name : Name) : Limits := if name ∈ composite then ⟨32768, 8, 4096⟩ else ⟨4096, 6, 512⟩

/-- `bounded_json` with its rejections as port errors. -/
def readJson (limits : Limits) (raw : Bytes) : Except PortCode (Json F) :=
  match boundedJson D limits .outputLimit raw with
  | .ok v => .ok v
  | .error (.rejected .outputLimit) => .error .limitExceeded
  | .error _ => .error .invalidRecord

mutual

def decodeLayout : Layout → Bytes → Except PortCode Frozen
  | .mk name fields, raw => do
      let v ← readJson D (limitsFor name) raw
      validate D U (.mk name fields) v
      nestedFields fields v.asMembers
      -- `validate` leaves nothing that cannot be frozen
      match freeze v with
      | some record => .ok record
      | none => .error .invalidRecord

/-- The loop over the nested records. -/
def nestedFields : List (Str × Kind) → List (Str × Json F) → Except PortCode Unit
  | [], _ => .ok ()
  | (key, kind) :: rest, members => do
      nested kind (Json.get members key)
      nestedFields rest members

/-- `decode(nested, canonical(child))` for the children of one field. -/
def nested : Kind → Json F → Except PortCode Unit
  | .leaf _, _ => .ok ()
  | .nullable kind, v => if v.isNull then .ok () else nested kind v
  | .array element _ _, v => v.asItems.forM fun item => nested element item
  | .record layout, v => do
      let _ ← decodeLayout layout (canonical D v)
      return ()

end

/-- `decode`. -/
def decode (name : Name) (raw : Bytes) : Except PortCode Frozen := decodeLayout D U (.of name) raw

end Codec

/-! ## Making -/

/-- What may be passed to `make`: JSON values with records and tuples among them. -/
inductive Argument (F : Type) where
  | null
  | bool (b : Bool)
  | number (n : Number F)
  | string (s : Str)
  /-- A list or a tuple. -/
  | list (items : List (Argument F))
  | dict (members : List (Str × Argument F))
  | record (members : List (Str × Argument F))

section Making

variable {F : Type}

mutual

/-- The JSON document of an argument. -/
def Argument.document : Argument F → Json F
  | .null => .null
  | .bool b => .bool b
  | .number n => .number n
  | .string s => .string s
  | .list items => .array (argumentItems items)
  | .dict members => .object (argumentMembers members)
  | .record members => .object (argumentMembers members)

def argumentItems : List (Argument F) → List (Json F)
  | [] => []
  | a :: rest => a.document :: argumentItems rest

def argumentMembers : List (Str × Argument F) → List (Str × Json F)
  | [] => []
  | (key, a) :: rest => (key, a.document) :: argumentMembers rest

end

mutual

/-- `thaw(value, depth)`, with `count` before and after. -/
def thaw : Argument F → Nat → Nat → Except PortCode (Json F × Nat)
  | a, depth, count => do
      require (count + 1 ≤ 4096 ∧ depth ≤ 8) .limitExceeded
      match a with
      | .record members => do
          let (members, count) ← thawMembers members (depth + 1) (count + 1)
          return (.object members, count)
      | .dict members => do
          require (members.length ≤ 512) .limitExceeded
          let (members, count) ← thawMembers members (depth + 1) (count + 1)
          return (.object members, count)
      | .list items => do
          require (items.length ≤ 512) .limitExceeded
          let (items, count) ← thawItems items (depth + 1) (count + 1)
          return (.array items, count)
      | .string s => do
          require (s.length ≤ 32768) .limitExceeded
          return (.string s, count + 1)
      | .null => return (.null, count + 1)
      | .bool b => return (.bool b, count + 1)
      | .number n => return (.number n, count + 1)

def thawItems : List (Argument F) → Nat → Nat → Except PortCode (List (Json F) × Nat)
  | [], _, count => .ok ([], count)
  | a :: rest, depth, count => do
      let (v, count) ← thaw a depth count
      let (items, count) ← thawItems rest depth count
      return (v :: items, count)

def thawMembers : List (Str × Argument F) → Nat → Nat → Except PortCode (List (Str × Json F) × Nat)
  | [], _, count => .ok ([], count)
  | (key, a) :: rest, depth, count => do
      let (v, count) ← thaw a depth count
      let (members, count) ← thawMembers rest depth count
      return ((key, v) :: members, count)

end

/-- `{'format': format_for(name), **values}`: a `format` among the values takes its place. -/
def withFormat (name : Name) (values : List (Str × Argument F)) : Argument F :=
  .dict (("format".toList, (values.lookup "format".toList).getD (.string (formatFor name))) ::
    values.filter fun v => v.1 != "format".toList)

/-- `make(name, **values)`. -/
def make (D : Floats F) (U : Decimals) (name : Name) (values : List (Str × Argument F)) : Except PortCode Frozen := do
  let (v, _) ← thaw (withFormat name values) 0 0
  decode D U name (canonical D v)

end Making

end ApiSecurityPlatform.Ports
