/-
# Scanners.OpenApi -- endpoints of an OpenAPI document

`merge_parameters`, `security_requires_auth` and `parse_openapi_schema`.  A document is any
Python value: a `dict` is a list of keys and values, and what is neither `None`, a `str`, a `list`
nor a `dict`, as a key or a value, is `other`.  The endpoints of an accepted document are one for
each operation of its paths, in their order (`merge_and_parse`).
-/
import ApiSecurityPlatform.Theory.Fallible
import ApiSecurityPlatform.Theory.Upsert
import ApiSecurityPlatform.Python.Text
import Mathlib.Data.List.Nodup

namespace ApiSecurityPlatform.Scanners.OpenApi

open ApiSecurityPlatform.Python ApiSecurityPlatform.Theory

set_option autoImplicit false

inductive Key (A : Type) where
  | text (s : Str)
  | other (a : A)
deriving DecidableEq

inductive Value (A : Type) where
  | none
  | text (s : Str)
  | list (items : List (Value A))
  | dict (members : List (Key A × Value A))
  | other (a : A)

variable {A : Type}

/-- The members of a `dict`. -/
abbrev Dict (A : Type) := List (Key A × Value A)

/-- `members.get(name)`. -/
def Dict.find (members : Dict A) (name : String) : Option (Value A) :=
  members.findSome? fun m =>
    match m.1 with
    | .text s => if s = name.toList then some m.2 else .none
    | .other _ => .none

/-- `isinstance(value, dict)`. -/
def Value.dict? : Value A → Option (Dict A)
  | .dict members => some members
  | _ => Option.none

def Value.list? : Value A → Option (List (Value A))
  | .list items => some items
  | _ => Option.none

def Value.text? : Value A → Option Str
  | .text s => some s
  | _ => Option.none

mutual

/-- Every `dict` in the value has distinct keys. -/
def Value.Distinct : Value A → Prop
  | .list items => itemsDistinct items
  | .dict members => (members.map Prod.fst).Nodup ∧ membersDistinct members
  | _ => True

def itemsDistinct : List (Value A) → Prop
  | [] => True
  | item :: rest => item.Distinct ∧ itemsDistinct rest

def membersDistinct : List (Key A × Value A) → Prop
  | [] => True
  | (_, value) :: rest => value.Distinct ∧ membersDistinct rest

end

/-- A `dict` as the interpreter has it. -/
structure Document (A : Type) where
  members : Dict A
  distinct : (Value.dict members).Distinct

/-! ## Parameters -/

/-- The name and place of a parameter, where both are text. -/
def parameterKey (parameter : Dict A) : Option (Str × Str) := do
  let name ← (parameter.find "name").bind Value.text?
  let location ← (parameter.find "in").bind Value.text?
  return (name, location)

/-- `merge_parameters`. -/
def mergeParameters (pathParameters operationParameters : List (Value A)) : List (Dict A) :=
  ((pathParameters ++ operationParameters).foldl
    (fun s value =>
      match value.dict? with
      | Option.none => s
      | some parameter => Upsert.place parameterKey s parameter)
    ([], [])).1

/-- `security_requires_auth`. -/
def securityRequiresAuth : Option (List (Value A)) → Bool
  | Option.none => false
  | some [] => false
  | some requirements => !requirements.any fun requirement => requirement.dict?.any List.isEmpty

/-! ## Endpoints -/

def supportedMethods : List String := ["get", "post", "patch", "delete"]

def maxOpenapiPaths : Nat := 2000
def maxOpenapiEndpoints : Nat := 4000
def maxOpenapiParametersPerEndpoint : Nat := 128
def maxOpenapiPathLength : Nat := 500
def maxOpenapiOperationIdLength : Nat := 255

/-- The codes of `OpenAPIParseError`, and two `ValueError`s. -/
inductive ParseFault where
  | pathsInvalid
  | rootSecurityInvalid
  | openapiTooManyPaths
  | openapiPathTooLong
  | openapiTooManyEndpoints
  | openapiTooManyParameters
  | openapiOperationIdTooLong
deriving DecidableEq, Repr

structure ParsedEndpoint (A : Type) where
  path : Str
  method : Str
  operationId : Option Str
  requiresAuth : Bool
  parameters : List (Dict A)
  requestBody : Option (Dict A)
  security : Option (List (Value A))

/-- `x if isinstance(x, list) else []` of `members.get("parameters", [])`. -/
def Dict.parameters (members : Dict A) : List (Value A) := ((members.find "parameters").bind Value.list?).getD []

/-- `operation.get("security", root_security)`, `None` where it is not a list. -/
def operationSecurity (rootSecurity : Option (List (Value A))) (operation : Dict A) : Option (List (Value A)) :=
  match operation.find "security" with
  | Option.none => rootSecurity
  | some security => security.list?

/-- The endpoint of an operation, before its limits are checked. -/
def endpointOf (rootSecurity : Option (List (Value A))) (path : Str) (pathItem : Dict A) (method : String)
    (operation : Dict A) : ParsedEndpoint A where
  path := path
  method := method.toList.map Char.toUpper
  operationId := (operation.find "operationId").bind Value.text?
  requiresAuth := securityRequiresAuth (operationSecurity rootSecurity operation)
  parameters := mergeParameters pathItem.parameters operation.parameters
  requestBody := (operation.find "requestBody").bind Value.dict?
  security := operationSecurity rootSecurity operation

/-- The body of the loop over the methods. -/
def addOperation (rootSecurity : Option (List (Value A))) (path : Str) (pathItem : Dict A)
    (endpoints : List (ParsedEndpoint A)) (method : String) : Except ParseFault (List (ParsedEndpoint A)) :=
  match (pathItem.find method).bind Value.dict? with
  | Option.none => .ok endpoints
  | some operation => do
      refuse (maxOpenapiEndpoints ≤ endpoints.length) .openapiTooManyEndpoints
      let endpoint := endpointOf rootSecurity path pathItem method operation
      refuse (maxOpenapiParametersPerEndpoint < endpoint.parameters.length) .openapiTooManyParameters
      refuse (endpoint.operationId.any (maxOpenapiOperationIdLength < ·.length)) .openapiOperationIdTooLong
      return endpoints ++ [endpoint]

/-- The body of the loop over the paths. -/
def addPath (rootSecurity : Option (List (Value A))) (endpoints : List (ParsedEndpoint A)) (item : Key A × Value A) :
    Except ParseFault (List (ParsedEndpoint A)) :=
  match item.1 with
  | .other _ => .ok endpoints
  | .text path => do
      refuse (maxOpenapiPathLength < path.length) .openapiPathTooLong
      match item.2.dict? with
      | Option.none => .ok endpoints
      | some pathItem => supportedMethods.foldlM (addOperation rootSecurity path pathItem) endpoints

/-- `root_security`. -/
def readRootSecurity (schema : Dict A) : Except ParseFault (Option (List (Value A))) :=
  match schema.find "security" with
  | Option.none => .ok Option.none
  | some .none => .ok Option.none
  | some (.list items) => .ok (some items)
  | some _ => .error .rootSecurityInvalid

/-- `parse_openapi_schema`. -/
def parseOpenapiSchema (schema : Document A) : Except ParseFault (List (ParsedEndpoint A)) :=
  match (schema.members.find "paths").bind Value.dict? with
  | Option.none => .error .pathsInvalid
  | some paths => do
      refuse (maxOpenapiPaths < paths.length) .openapiTooManyPaths
      let rootSecurity ← readRootSecurity schema.members
      paths.foldlM (addPath rootSecurity) []

/-! ## What merging keeps -/

theorem mergeParameters_eq (pathParameters operationParameters : List (Value A)) :
    mergeParameters pathParameters operationParameters =
      (((pathParameters ++ operationParameters).filterMap Value.dict?).foldl (Upsert.place parameterKey) ([], [])).1 := by
  rw [mergeParameters, List.foldl_filterMap]
  refine congrArg Prod.fst (congrFun (congrFun (congrArg List.foldl ?_) _) _)
  funext s value
  cases value.dict? <;> rfl

/-- What is kept of the parameters that are given. -/
structure Merged (given merged : List (Dict A)) : Prop where
  /-- The first of each key, in its place, is replaced by the last. -/
  eq : merged = (Upsert.firsts parameterKey [] given).map (Upsert.latest parameterKey given)
  once : (merged.filterMap parameterKey).Nodup
  keys : ∀ k, (∃ d ∈ merged, parameterKey d = some k) ↔ ∃ d ∈ given, parameterKey d = some k
  keyless : merged.filter (fun d => parameterKey d = Option.none) = given.filter fun d => parameterKey d = Option.none

theorem mergeParameters_merged (pathParameters operationParameters : List (Value A)) :
    Merged ((pathParameters ++ operationParameters).filterMap Value.dict?)
      (mergeParameters pathParameters operationParameters) := by
  rw [mergeParameters_eq]
  obtain ⟨made, placed⟩ :=
    @Upsert.place_foldl _ _ _ parameterKey ((pathParameters ++ operationParameters).filterMap Value.dict?)
  refine ⟨made, placed.nodup, fun k => ?_, ?_⟩
  · rw [made]
    refine Iff.trans ?_ Upsert.mem_keys
    simp only [List.mem_map, exists_exists_and_eq_and, Upsert.key_latest]
  · rw [made, Upsert.filter_keyless]

/-! ## What parsing keeps -/

/-- The documented bounds of an endpoint. -/
structure Bounded (endpoint : ParsedEndpoint A) : Prop where
  path : endpoint.path.length ≤ maxOpenapiPathLength
  parameters : endpoint.parameters.length ≤ maxOpenapiParametersPerEndpoint
  operationId : ∀ id, endpoint.operationId = some id → id.length ≤ maxOpenapiOperationIdLength

/-- The endpoints of a path, one for each operation. -/
def pathOperations (rootSecurity : Option (List (Value A))) (path : Str) (pathItem : Dict A) : List (ParsedEndpoint A) :=
  supportedMethods.flatMap fun method =>
    (((pathItem.find method).bind Value.dict?).map (endpointOf rootSecurity path pathItem method)).toList

/-- The endpoints of a document, one for each operation of an item under a text key. -/
def operations (rootSecurity : Option (List (Value A))) (paths : Dict A) : List (ParsedEndpoint A) :=
  paths.flatMap fun item =>
    match item.1, item.2.dict? with
    | .text path, some pathItem => pathOperations rootSecurity path pathItem
    | _, _ => []

theorem addOperation_ok {rootSecurity : Option (List (Value A))} {path : Str} {pathItem : Dict A}
    {endpoints endpoints' : List (ParsedEndpoint A)} {method : String}
    (done : addOperation rootSecurity path pathItem endpoints method = .ok endpoints') :
    endpoints' = endpoints ++
        (((pathItem.find method).bind Value.dict?).map (endpointOf rootSecurity path pathItem method)).toList ∧
      (path.length ≤ maxOpenapiPathLength → (∀ e ∈ endpoints, Bounded e) ∧ endpoints.length ≤ maxOpenapiEndpoints →
        (∀ e ∈ endpoints', Bounded e) ∧ endpoints'.length ≤ maxOpenapiEndpoints) := by
  unfold addOperation at done
  split at done
  next missing =>
      obtain rfl := Except.ok.inj done
      rw [missing]
      exact ⟨(List.append_nil _).symm, fun _ kept => kept⟩
  next operation found =>
      rw [seq_ok, refuse_ok, Nat.not_le, seq_ok, refuse_ok, Nat.not_lt, seq_ok, refuse_ok] at done
      obtain ⟨room, few, short, done⟩ := done
      obtain rfl := Except.ok.inj done
      rw [found]
      refine ⟨rfl, fun bounded kept => ⟨fun e mem => ?_, ?_⟩⟩
      · rcases List.mem_append.1 mem with before | new
        · exact kept.1 e before
        · obtain rfl := List.mem_singleton.1 new
          refine ⟨bounded, few, fun id named => Nat.not_lt.1 fun long => short ?_⟩
          rw [named]
          exact decide_eq_true long
      · rw [List.length_append]
        exact room

theorem addPath_ok {rootSecurity : Option (List (Value A))} {endpoints endpoints' : List (ParsedEndpoint A)}
    {item : Key A × Value A} (done : addPath rootSecurity endpoints item = .ok endpoints') :
    endpoints' = endpoints ++ (match item.1, item.2.dict? with
        | .text path, some pathItem => pathOperations rootSecurity path pathItem
        | _, _ => []) ∧
      ((∀ e ∈ endpoints, Bounded e) ∧ endpoints.length ≤ maxOpenapiEndpoints →
        (∀ e ∈ endpoints', Bounded e) ∧ endpoints'.length ≤ maxOpenapiEndpoints) := by
  obtain ⟨key, value⟩ := item
  unfold addPath at done
  cases key with
  | other a =>
      obtain rfl := Except.ok.inj done
      exact ⟨(List.append_nil _).symm, fun kept => kept⟩
  | text path =>
      simp only [seq_ok, refuse_ok, Nat.not_lt] at done
      obtain ⟨short, done⟩ := done
      cases found : value.dict? with
      | none =>
          simp only [found] at done ⊢
          obtain rfl := Except.ok.inj done
          exact ⟨(List.append_nil _).symm, fun kept => kept⟩
      | some pathItem =>
          simp only [found] at done ⊢
          exact ⟨foldlM_append (fun _ _ _ step => (addOperation_ok step).1) done, fun kept =>
            foldlM_ok (I := fun es => (∀ e ∈ es, Bounded e) ∧ es.length ≤ maxOpenapiEndpoints)
              (fun _ _ _ _ before step => (addOperation_ok step).2 short before) done kept⟩

/-- **The endpoints are the operations**, within the bounds. -/
theorem parseOpenapiSchema_ok {schema : Document A} {endpoints : List (ParsedEndpoint A)}
    (done : parseOpenapiSchema schema = .ok endpoints) :
    ∃ paths rootSecurity, schema.members.find "paths" = some (.dict paths) ∧ paths.length ≤ maxOpenapiPaths ∧
      readRootSecurity schema.members = .ok rootSecurity ∧ endpoints = operations rootSecurity paths ∧
      (∀ e ∈ endpoints, Bounded e) ∧ endpoints.length ≤ maxOpenapiEndpoints := by
  unfold parseOpenapiSchema at done
  split at done
  next => cases done
  next paths found =>
      rw [seq_ok, refuse_ok, Nat.not_lt, bind_ok] at done
      obtain ⟨few, rootSecurity, secured, done⟩ := done
      have found : schema.members.find "paths" = some (.dict paths) := by
        obtain ⟨value, there, isDict⟩ := Option.bind_eq_some_iff.1 found
        cases value with
        | dict members => rw [there, Option.some.inj isDict]
        | none => cases isDict
        | text s => cases isDict
        | list items => cases isDict
        | other a => cases isDict
      refine ⟨paths, rootSecurity, found, few, secured, foldlM_append (fun _ _ _ step => (addPath_ok step).1) done, ?_⟩
      exact foldlM_ok (I := fun es => (∀ e ∈ es, Bounded e) ∧ es.length ≤ maxOpenapiEndpoints)
        (fun _ _ _ _ before step => (addPath_ok step).2 before) done ⟨(fun _ mem => nomatch mem), Nat.zero_le _⟩

theorem distinct_of_find {members : Dict A} {name : String} {paths : Dict A} (distinct : membersDistinct members)
    (found : members.find name = some (.dict paths)) : (paths.map Prod.fst).Nodup := by
  induction members with
  | nil => cases found
  | cons member rest ih =>
      obtain ⟨key, value⟩ := member
      rw [membersDistinct] at distinct
      rw [Dict.find, List.findSome?_cons] at found
      cases key with
      | other a => exact ih distinct.2 found
      | text s =>
          by_cases same : s = name.toList
          · simp only [same, if_pos, Option.some.injEq] at found
            subst found
            exact distinct.1.1
          · simp only [same, if_false] at found
            exact ih distinct.2 found

/-- The path and method of an endpoint. -/
def ParsedEndpoint.place (endpoint : ParsedEndpoint A) : Str × Str := (endpoint.path, endpoint.method)

theorem pathOperations_places (rootSecurity : Option (List (Value A))) (path : Str) (pathItem : Dict A) :
    ((pathOperations rootSecurity path pathItem).map ParsedEndpoint.place).Sublist
      (supportedMethods.map fun method => (path, method.toList.map Char.toUpper)) := by
  unfold pathOperations
  generalize supportedMethods = methods
  induction methods with
  | nil => exact .slnil
  | cons method rest ih =>
      rw [List.flatMap_cons, List.map_append, List.map_cons]
      have own : ((((pathItem.find method).bind Value.dict?).map (endpointOf rootSecurity path pathItem method)).toList.map
          ParsedEndpoint.place).Sublist [(path, method.toList.map Char.toUpper)] := by
        cases (pathItem.find method).bind Value.dict? with
        | none => exact List.nil_sublist _
        | some operation => exact .refl _
      exact own.append ih

theorem supportedMethods_distinct (path : Str) :
    (supportedMethods.map fun method => (path, method.toList.map Char.toUpper)).Nodup := by
  have upper : (supportedMethods.map fun method => method.toList.map Char.toUpper).Nodup := by decide
  rw [show (supportedMethods.map fun method => (path, method.toList.map Char.toUpper)) =
    (supportedMethods.map fun method => method.toList.map Char.toUpper).map (Prod.mk path) from (List.map_map).symm]
  exact upper.map fun _ _ same => (Prod.mk.inj same).2

/-- The endpoints of an item have its path. -/
theorem place_path {rootSecurity : Option (List (Value A))} {item : Key A × Value A} {place : Str × Str}
    (mem : place ∈ (match item.1, item.2.dict? with
        | .text path, some pathItem => pathOperations rootSecurity path pathItem
        | _, _ => []).map ParsedEndpoint.place) : ∃ path, item.1 = .text path ∧ place.1 = path := by
  obtain ⟨key, value⟩ := item
  cases key with
  | other a => cases mem
  | text path =>
      refine ⟨path, rfl, ?_⟩
      cases found : value.dict? with
      | none =>
          simp only [found] at mem
          cases mem
      | some pathItem =>
          simp only [found] at mem
          have listed := (pathOperations_places rootSecurity path pathItem).subset mem
          obtain ⟨method, -, rfl⟩ := List.mem_map.1 listed
          rfl

/-- Distinct paths have distinct endpoints. -/
theorem operations_distinct (rootSecurity : Option (List (Value A))) {paths : Dict A}
    (distinct : (paths.map Prod.fst).Nodup) : ((operations rootSecurity paths).map ParsedEndpoint.place).Nodup := by
  rw [operations, List.map_flatMap, List.nodup_flatMap]
  constructor
  · rintro ⟨key, value⟩ -
    cases key with
    | other a => exact List.nodup_nil
    | text path =>
        cases value.dict? with
        | none => exact List.nodup_nil
        | some pathItem =>
            exact (supportedMethods_distinct path).sublist (pathOperations_places rootSecurity path pathItem)
  · rw [List.Nodup, List.pairwise_map] at distinct
    refine distinct.imp ?_
    rintro ⟨key, value⟩ ⟨key', value'⟩ differ place here there
    obtain ⟨path, rfl, first⟩ := place_path here
    obtain ⟨path', rfl, second⟩ := place_path there
    exact differ (congrArg Key.text (first.symm.trans second))

/-- **Merging keeps the last of each parameter in the place of the first, and the endpoints of an
accepted document are its operations**, distinct and within the documented bounds. -/
theorem merge_and_parse :
    (∀ pathParameters operationParameters : List (Value A),
      Merged ((pathParameters ++ operationParameters).filterMap Value.dict?)
        (mergeParameters pathParameters operationParameters)) ∧
    ∀ (schema : Document A) endpoints, parseOpenapiSchema schema = .ok endpoints →
      ∃ paths rootSecurity, schema.members.find "paths" = some (.dict paths) ∧
        readRootSecurity schema.members = .ok rootSecurity ∧ endpoints = operations rootSecurity paths ∧
        (endpoints.map ParsedEndpoint.place).Nodup ∧ (∀ e ∈ endpoints, Bounded e) ∧
        endpoints.length ≤ maxOpenapiEndpoints ∧ paths.length ≤ maxOpenapiPaths := by
  refine ⟨mergeParameters_merged, fun schema endpoints done => ?_⟩
  obtain ⟨paths, rootSecurity, found, few, secured, rfl, bounded, room⟩ := parseOpenapiSchema_ok done
  exact ⟨paths, rootSecurity, found, secured, rfl, operations_distinct rootSecurity (distinct_of_find schema.distinct.2 found),
    bounded, room, few⟩

/-- `{"name": name, "in": location, ...}` -/
private def parameter (name location : String) (more : Dict Nat) : Value Nat :=
  .dict ((.text "name".toList, .text name.toList) :: (.text "in".toList, .text location.toList) :: more)

/-- A parameter, a reference without a name, and an item that is no object. -/
private def pathParameters : List (Value Nat) :=
  [parameter "id" "path" [], .dict [(.text "$ref".toList, .text "#/page".toList)], .other 7]

/-- The first is that of the path again, with a description. -/
private def operationParameters : List (Value Nat) :=
  [parameter "id" "path" [(.text "description".toList, .text [])], parameter "q" "query" []]

/-- A path with parameters, a `POST` and a `GET`, and one whose key is not text. -/
private def twoOperations : Document Nat where
  members := [(.text "paths".toList, .dict [
    (.text "/a".toList, .dict [(.text "post".toList, .dict []),
      (.text "parameters".toList, .list pathParameters),
      (.text "get".toList, .dict [(.text "parameters".toList, .list operationParameters)])]),
    (.other 7, .dict [(.text "get".toList, .dict [])])])]
  distinct := by
    simp only [pathParameters, operationParameters, parameter, Value.Distinct, membersDistinct, itemsDistinct]
    decide

private def nameAndSize (parameter : Dict Nat) : Option Str × Nat :=
  ((parameterKey parameter).map Prod.fst, parameter.length)

/-- The `GET` has its own `id` in the place of the path's. -/
theorem merge_and_parse_two :
    Merged ((pathParameters ++ operationParameters).filterMap Value.dict?)
      (mergeParameters pathParameters operationParameters) ∧
    ∃ endpoints, parseOpenapiSchema twoOperations = .ok endpoints ∧
      endpoints.map ParsedEndpoint.place = [("/a".toList, "GET".toList), ("/a".toList, "POST".toList)] ∧
      (endpoints.flatMap fun e => e.parameters.map nameAndSize) =
        [(some "id".toList, 3), (none, 1), (some "q".toList, 2), (some "id".toList, 2), (none, 1)] ∧
      (endpoints.map ParsedEndpoint.place).Nodup := by
  have places : (parseOpenapiSchema twoOperations).toOption.map (List.map ParsedEndpoint.place) =
      some [("/a".toList, "GET".toList), ("/a".toList, "POST".toList)] := by decide
  have parameters : (parseOpenapiSchema twoOperations).toOption.map
      (fun endpoints => endpoints.flatMap fun e => e.parameters.map nameAndSize) =
        some [(some "id".toList, 3), (none, 1), (some "q".toList, 2), (some "id".toList, 2), (none, 1)] := by
    decide
  refine ⟨merge_and_parse.1 pathParameters operationParameters, ?_⟩
  cases done : parseOpenapiSchema twoOperations with
  | error fault =>
      rw [done] at places
      cases places
  | ok endpoints =>
      rw [done] at places parameters
      obtain ⟨_, _, -, -, -, distinct, -⟩ := merge_and_parse.2 twoOperations endpoints done
      exact ⟨endpoints, rfl, Option.some.inj places, Option.some.inj parameters, distinct⟩

end ApiSecurityPlatform.Scanners.OpenApi
