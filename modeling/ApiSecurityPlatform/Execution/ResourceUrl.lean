/-
# Execution.ResourceUrl -- the resource that is requested is the one that is judged

`build_test_case_url` writes the external id into the endpoint's path by `quote`, and the
policy reads the path by one round of `unquote`.  The two cancel out (`unquote_request`):
what the policy judges is the base path and the template with the id in its place.  What
would be ambiguous after decoding is refused by its escape before it.

The base URL and the path are joined as texts.  A template without a slash in front goes on
with the hostname when the base URL has no path (`template_without_slash`).
-/
import ApiSecurityPlatform.Python.Quote
import ApiSecurityPlatform.Policies.PathContainment
import ApiSecurityPlatform.Network.Canonical

namespace ApiSecurityPlatform.Execution.ResourceUrl

open ApiSecurityPlatform.Theory
open ApiSecurityPlatform.Python
open ApiSecurityPlatform.Policies
open ApiSecurityPlatform.Network

set_option autoImplicit false

/-! ## Bindings -/

structure Target where
  id : Int
  baseUrl : Str

structure Endpoint where
  targetId : Int
  path : Str

structure Resource where
  targetId : Int
  resourceType : Str
  externalId : Str

structure EndpointResourceBinding where
  parameterName : Str
  resourceType : Str
deriving DecidableEq

/-- `[A-Za-z0-9_]`. -/
def isWordChar (c : Char) : Bool := isAsciiAlpha c || isDigit c || c == '_'

/-- The group of `RESOURCE_ID_PARAMETER_PATTERN` in what stands between the braces. -/
def parameterBase (body : Str) : Option Str :=
  if (body.head?.map isAsciiAlpha).getD false && body.all isWordChar && "_id".toList.isSuffixOf body then
    some (body.take (body.length - 3))
  else none

/-- A match behind an opening brace: the word characters up to a closing one. -/
def parameterAt (rest : Str) : Option Str :=
  let body := rest.takeWhile isWordChar
  if (rest.drop body.length).head? = some '}' then parameterBase body else none

/-- `finditer`; no brace stands inside a match, so the search may go on right behind the
opening one. -/
def findParameters : Str → List Str
  | [] => []
  | c :: rest =>
      if c = '{' then
        match parameterAt rest with
        | some base => base :: findParameters rest
        | none => findParameters rest
      else findParameters rest

def detectResourceBinding (U : Unicode) (endpoint : Endpoint) : Option EndpointResourceBinding :=
  match findParameters endpoint.path with
  | [base] => some ⟨base ++ "_id".toList, U.lower base⟩
  | _ => none

/-! ## URLs -/

/-- `s.replace(old, new, 1)`. -/
def replaceFirst (old new : Str) : Str → Str
  | [] => []
  | c :: rest =>
      if old.isPrefixOf (c :: rest) then new ++ (c :: rest).drop old.length else c :: replaceFirst old new rest

def placeholder (binding : EndpointResourceBinding) : Str := '{' :: binding.parameterName ++ ['}']

/-- The message of a `TestExecutionError`. -/
abbrev TestExecutionError := String

def buildTestCaseUrl (U : Unicode) (target : Target) (endpoint : Endpoint) (resource : Resource) :
    Except TestExecutionError Str :=
  if endpoint.targetId ≠ target.id then .error "Endpoint belongs to a different target."
  else if resource.targetId ≠ target.id then .error "Resource belongs to a different target."
  else
    match detectResourceBinding U endpoint with
    | none => .error "Unable to determine endpoint resource binding."
    | some binding =>
        if binding.resourceType ≠ resource.resourceType then .error "Resource type does not match endpoint."
        else if contains (placeholder binding) endpoint.path = false then
          .error "Endpoint resource placeholder is missing."
        else
          let requestPath := replaceFirst (placeholder binding) (quote resource.externalId) endpoint.path
          if '{' ∈ requestPath ∨ '}' ∈ requestPath then .error "Endpoint contains unresolved path parameters."
          else .ok (rstrip (fun c => c == '/') target.baseUrl ++ requestPath)

/-! ## The request path -/

section Build

variable {U : Unicode} {target : Target} {endpoint : Endpoint} {resource : Resource} {url : Str}

theorem buildTestCaseUrl_ok (built : buildTestCaseUrl U target endpoint resource = .ok url) :
    ∃ binding, detectResourceBinding U endpoint = some binding ∧
      contains (placeholder binding) endpoint.path = true ∧
      url = rstrip (fun c => c == '/') target.baseUrl ++
        replaceFirst (placeholder binding) (quote resource.externalId) endpoint.path := by
  unfold buildTestCaseUrl at built
  split at built
  · cases built
  split at built
  · cases built
  split at built
  · cases built
  next binding detected =>
  split at built
  · cases built
  split at built
  · cases built
  next here =>
  dsimp only at built
  split at built
  · cases built
  · exact ⟨binding, detected, by simpa using here, (Except.ok.inj built).symm⟩

/-- The first occurrence decides what stands around it, whatever it is replaced by. -/
theorem replaceFirst_around {old s : Str} (found : contains old s = true) (some_ : old ≠ []) :
    ∃ before after, s = before ++ old ++ after ∧ ∀ new, replaceFirst old new s = before ++ new ++ after := by
  induction s with
  | nil =>
      rw [contains, List.isEmpty_iff] at found
      exact absurd found some_
  | cons c rest ih =>
      by_cases here : old.isPrefixOf (c :: rest) = true
      · obtain ⟨after, eq⟩ := List.isPrefixOf_iff_prefix.1 here
        refine ⟨[], after, eq.symm, fun new => ?_⟩
        rw [replaceFirst, if_pos here, ← eq, List.drop_left]
        rfl
      · rw [contains, Bool.or_eq_true] at found
        obtain ⟨before, after, eq, replaced⟩ := ih (found.resolve_left here)
        refine ⟨c :: before, after, by rw [eq]; rfl, fun new => ?_⟩
        rw [replaceFirst, if_neg here, replaced]
        rfl

/-- Of a text with one opening brace it is the part from there. -/
theorem replaceFirst_template {before after old new : Str} (plain : '{' ∉ before) (braced : old.head? = some '{') :
    replaceFirst old new (before ++ old ++ after) = before ++ new ++ after := by
  obtain ⟨rest, rfl⟩ := List.head?_eq_some_iff.1 braced
  induction before with
  | nil =>
      have here : List.isPrefixOf ('{' :: rest) ('{' :: (rest ++ after)) = true :=
        List.isPrefixOf_iff_prefix.2 (List.prefix_append ('{' :: rest) after)
      rw [List.nil_append, List.cons_append, replaceFirst, if_pos here, ← List.cons_append, List.drop_left]
      rfl
  | cons c before ih =>
      rw [List.mem_cons, not_or] at plain
      have elsewhere : ¬ List.isPrefixOf ('{' :: rest) (c :: (before ++ '{' :: rest ++ after)) = true := by
        intro here
        exact plain.1 (List.cons_prefix_cons.1 (List.isPrefixOf_iff_prefix.1 here)).1
      rw [List.cons_append, List.cons_append, replaceFirst, if_neg elsewhere, ih plain.2]
      rfl

theorem findParameters_of_not_mem {s : Str} (plain : '{' ∉ s) (rest : Str) :
    findParameters (s ++ rest) = findParameters rest := by
  induction s with
  | nil => rfl
  | cons c s ih =>
      rw [List.mem_cons, not_or] at plain
      rw [List.cons_append, findParameters, if_neg (Ne.symm plain.1), ih plain.2]

theorem parameterBase_eq {body base : Str} (found : parameterBase body = some base) :
    base ++ "_id".toList = body := by
  unfold parameterBase at found
  split at found
  · next shape =>
    simp only [Bool.and_eq_true] at shape
    obtain ⟨front, rfl⟩ := List.isSuffixOf_iff_suffix.1 shape.2
    rw [← Option.some.inj found]
    simp
  · cases found

/-- The parameter of a template with one placeholder. -/
theorem detect_template {before name after : Str} {binding : EndpointResourceBinding}
    (path : endpoint.path = before ++ ('{' :: name ++ ['}']) ++ after) (first : '{' ∉ before) (last : '{' ∉ after)
    (closing : '}' ∉ name) (opening : '{' ∉ name) (detected : detectResourceBinding U endpoint = some binding) :
    binding.parameterName = name := by
  have later : findParameters (name ++ '}' :: after) = [] := by
    have absent : '{' ∉ name ++ '}' :: after := by
      rw [List.mem_append, List.mem_cons]
      rintro (inside | brace | inside)
      · exact opening inside
      · exact absurd brace (by decide)
      · exact last inside
    rw [← List.append_nil (name ++ '}' :: after), findParameters_of_not_mem absent]
    rfl
  have shape : before ++ ('{' :: name ++ ['}']) ++ after = before ++ '{' :: (name ++ '}' :: after) := by simp
  have found : findParameters endpoint.path = (parameterAt (name ++ '}' :: after)).toList := by
    rw [path, shape, findParameters_of_not_mem first, findParameters, if_pos rfl]
    cases parameterAt (name ++ '}' :: after) with
    | none => exact later
    | some base => rw [later]; rfl
  unfold detectResourceBinding at detected
  rw [found] at detected
  cases at_ : parameterAt (name ++ '}' :: after) with
  | none =>
      rw [at_] at detected
      cases detected
  | some base =>
      rw [at_] at detected
      obtain rfl := Option.some.inj detected
      show base ++ "_id".toList = name
      unfold parameterAt at at_
      dsimp only at at_
      split at at_
      · next closes =>
        rw [parameterBase_eq at_]
        by_cases word : ∀ c ∈ name, isWordChar c = true
        · rw [List.takeWhile_append_of_pos word, List.takeWhile_cons_of_neg (by decide), List.append_nil]
        · -- the word stops inside the name, at a character that is no brace
          exfalso
          have stays : ¬ (name.takeWhile isWordChar).length = name.length := by
            intro whole
            refine word fun c mem => ?_
            have same := (List.takeWhile_prefix isWordChar (l := name)).eq_of_length whole
            exact List.mem_takeWhile_imp (same.symm ▸ mem)
          have front : (name ++ '}' :: after).takeWhile isWordChar = name.takeWhile isWordChar := by
            rw [List.takeWhile_append, if_neg stays]
          rw [front] at closes
          have short := Nat.lt_of_le_of_ne (List.takeWhile_prefix isWordChar (l := name)).length_le stays
          rw [List.drop_append_of_le_length (Nat.le_of_lt short), List.drop_eq_getElem_cons short, List.cons_append,
            List.head?_cons] at closes
          exact closing (Option.some.inj closes ▸ List.getElem_mem short)
      · cases at_

end Build

/-! ## Splitting the joined URL -/

/-- Characters of a path and of what `quote` writes. -/
def isPathChar (c : Char) : Bool := isAlwaysSafe c || c == '/'

def PlainPath (s : Str) : Prop := ∀ c ∈ s, isPathChar c = true

theorem ascii_of_isAlwaysSafe {c : Char} (safe : isAlwaysSafe c = true) : c.toNat < 128 := by
  simp only [isAlwaysSafe, isAsciiAlpha, isDigit, Bool.or_eq_true, Bool.and_eq_true, decide_eq_true_eq,
    beq_iff_eq] at safe
  rcases safe with (((((⟨-, top⟩ | ⟨-, top⟩) | ⟨-, top⟩) | rfl) | rfl) | rfl) | rfl
  · exact Nat.lt_of_le_of_lt (show c.toNat ≤ 'z'.toNat from top) (by decide)
  · exact Nat.lt_of_le_of_lt (show c.toNat ≤ 'Z'.toNat from top) (by decide)
  · exact Nat.lt_of_le_of_lt (show c.toNat ≤ '9'.toNat from top) (by decide)
  all_goals decide

/-- What the splitter does with a character of a request path. -/
structure Inert (c : Char) : Prop where
  ascii : isAscii c = true
  visible : ¬ c.toNat ≤ 32
  kept : (c == '\t' || c == '\r' || c == '\n') = false
  colon : c ≠ ':'
  query : c ≠ '?'
  fragment : c ≠ '#'

theorem inert_of_request {c : Char} (request : isPathChar c = true ∨ c = '%') : Inert c := by
  have small : c.toNat < 128 := by
    rcases request with path | rfl
    · rcases Bool.or_eq_true _ _ ▸ path with safe | slash
      · exact ascii_of_isAlwaysSafe safe
      · rw [beq_iff_eq.1 slash]
        decide
    · decide
  have all : ∀ n < 128, isPathChar (Char.ofNat n) = true ∨ Char.ofNat n = '%' →
      isAscii (Char.ofNat n) = true ∧ ¬ (Char.ofNat n).toNat ≤ 32 ∧
        (Char.ofNat n == '\t' || Char.ofNat n == '\r' || Char.ofNat n == '\n') = false ∧ Char.ofNat n ≠ ':' ∧
        Char.ofNat n ≠ '?' ∧ Char.ofNat n ≠ '#' := by decide
  have facts := all c.toNat small
  rw [Char.ofNat_toNat] at facts
  obtain ⟨ascii, visible, kept, colon, query, fragment⟩ := facts request
  exact ⟨ascii, visible, kept, colon, query, fragment⟩

section Join

variable {U : Unicode} {base request : Str}

theorem lstrip_append {drop : Char → Bool} (solid : lstrip drop base ≠ []) :
    lstrip drop (base ++ request) = lstrip drop base ++ request := by
  unfold lstrip at solid ⊢
  rw [List.dropWhile_append, if_neg (by simpa using solid)]

theorem cleaned_append (solid : cleaned base ≠ []) (inert : ∀ c ∈ request, Inert c) :
    cleaned (base ++ request) = cleaned base ++ request := by
  have kept : request.filter (fun c => !(c == '\t' || c == '\r' || c == '\n')) = request := by
    refine List.filter_eq_self.2 fun c mem => ?_
    rw [(inert c mem).kept]
    rfl
  unfold cleaned at solid ⊢
  rw [lstrip_append fun empty => solid (by rw [empty]; rfl), List.filter_append, kept]

/-- A colon comes from the base alone. -/
theorem schemeSplit_append (absent : ':' ∉ request) (s : Str) :
    schemeSplit U (s ++ request) = ((schemeSplit U s).1, (schemeSplit U s).2 ++ request) := by
  unfold schemeSplit
  by_cases here : ':' ∈ s
  · obtain ⟨front, back, rfl, first⟩ := List.eq_append_cons_of_mem here
    rw [List.append_assoc, List.cons_append, partition_append_sep first, partition_append_sep first]
    dsimp only
    split <;> simp
  · have absent' : ':' ∉ s ++ request := by
      rw [List.mem_append]
      exact not_or.2 ⟨here, absent⟩
    rw [partition_of_not_mem here, partition_of_not_mem absent']
    rfl

/-- The host stays the base's own when it is over where the request begins. -/
theorem netloc_append {s : Str} (host : netlocOf s ≠ [])
    (ends : afterNetloc s ≠ [] ∨ ∀ c ∈ request.head?, isDelimiter c = true) :
    netlocOf (s ++ request) = netlocOf s ∧ afterNetloc (s ++ request) = afterNetloc s ++ request := by
  unfold netlocOf at host
  split at host
  · next slashes =>
    obtain ⟨rest, rfl⟩ := List.isPrefixOf_iff_prefix.1 slashes
    have longer : ['/', '/'].isPrefixOf (['/', '/'] ++ rest ++ request) = true :=
      List.isPrefixOf_iff_prefix.2 (by rw [List.append_assoc]; exact List.prefix_append _ _)
    have behind : (['/', '/'] ++ rest ++ request).drop 2 = rest ++ request := rfl
    have behind' : (['/', '/'] ++ rest).drop 2 = rest := rfl
    unfold netlocOf afterNetloc at *
    rw [if_pos slashes, if_pos longer, if_pos slashes, if_pos longer, behind, behind']
    rw [if_pos slashes, behind'] at ends
    by_cases beyond : rest.dropWhile (fun c => !isDelimiter c) = []
    · have all : ∀ c ∈ rest, (!isDelimiter c) = true := List.dropWhile_eq_nil_iff.1 beyond
      have begins := ends.resolve_left (not_not.2 beyond)
      have stops : request.takeWhile (fun c => !isDelimiter c) = [] ∧
          request.dropWhile (fun c => !isDelimiter c) = request := by
        cases request with
        | nil => exact ⟨rfl, rfl⟩
        | cons c more =>
            have delimiter := begins c rfl
            rw [List.takeWhile_cons_of_neg (by simp [delimiter]), List.dropWhile_cons_of_neg (by simp [delimiter])]
            exact ⟨rfl, rfl⟩
      rw [List.takeWhile_append_of_pos all, stops.1, List.append_nil, List.dropWhile_append_of_pos all, stops.2, beyond,
        List.takeWhile_eq_self_iff.2 all]
      exact ⟨rfl, rfl⟩
    · have early : ¬ (rest.takeWhile fun c => !isDelimiter c).length = rest.length := by
        intro whole
        have split_ := congrArg List.length (List.takeWhile_append_dropWhile (p := fun c => !isDelimiter c) (l := rest))
        rw [List.length_append, whole] at split_
        exact beyond (List.length_eq_zero_iff.1 (by omega))
      rw [List.takeWhile_append, if_neg early, List.dropWhile_append, if_neg (by simpa using beyond)]
      exact ⟨rfl, rfl⟩
  · exact absurd rfl host

/-- The path of the base URL as the code joins it: its last slashes off. -/
structure BasePath (U : Unicode) (base path : Str) : Prop where
  splits : ∃ parsed, urlsplit U (rstrip (fun c => c == '/') base) = some parsed ∧ parsed.netloc ≠ [] ∧
    parsed.path = path
  query : '?' ∉ base
  fragment : '#' ∉ base
  plain : PlainPath path

/-- The joined URL has the base's scheme and host, and the two paths in a row. -/
theorem urlsplit_join {path : Str} (known : BasePath U base path) (inert : ∀ c ∈ request, Inert c)
    (begins : path ≠ [] ∨ request.head? = some '/') :
    ∃ parsed, urlsplit U (rstrip (fun c => c == '/') base ++ request) = some parsed ∧
      parsed.path = path ++ request := by
  obtain ⟨parsed, splits, host, same⟩ := known.splits
  have inBase : ∀ c ∈ rstrip (fun c => c == '/') base, c ∈ base := (rstrip_isPrefix _ _).subset
  generalize rstrip (fun c => c == '/') base = front at splits inBase ⊢
  obtain ⟨accepted, rfl⟩ := urlsplit_eq_some_iff.1 splits
  dsimp only at host same
  have solid : cleaned front ≠ [] := by
    intro empty
    rw [empty] at host
    exact host rfl
  have colon : ':' ∉ request := fun mem => (inert _ mem).colon rfl
  have rest : ∀ c ∈ afterNetloc (schemeSplit U (cleaned front)).2, c ∈ base := by
    intro c mem
    have inside : c ∈ (schemeSplit U (cleaned front)).2 := by
      unfold afterNetloc at mem
      split at mem
      · exact List.mem_of_mem_drop ((List.dropWhile_suffix _).subset mem)
      · exact mem
    have inCleaned : c ∈ cleaned front := by
      unfold schemeSplit at inside
      split at inside
      · exact mem_partition_snd inside
      · exact inside
    exact inBase c ((List.dropWhile_suffix _).subset (List.mem_filter.1 inCleaned).1)
  have whole : ∀ more : Str, '?' ∉ more → '#' ∉ more →
      (partition '?' (partition '#' (afterNetloc (schemeSplit U (cleaned front)).2 ++ more)).1).1 =
        afterNetloc (schemeSplit U (cleaned front)).2 ++ more := by
    intro more noQuery noFragment
    rw [partition_of_not_mem (c := '#'), partition_of_not_mem]
    · exact fun mem => (List.mem_append.1 mem).elim (fun here => known.query (rest _ here)) noQuery
    · exact fun mem => (List.mem_append.1 mem).elim (fun here => known.fragment (rest _ here)) noFragment
  have after : afterNetloc (schemeSplit U (cleaned front)).2 = path := by
    rw [← same, ← List.append_nil (afterNetloc _), whole [] (by simp) (by simp)]
  have query : '?' ∉ request := fun mem => (inert _ mem).query rfl
  have fragment : '#' ∉ request := fun mem => (inert _ mem).fragment rfl
  obtain ⟨netloc, later⟩ := @netloc_append request _ host (by
    rw [after]
    refine begins.imp id fun slash c mem => ?_
    rw [slash] at mem
    rw [← Option.some.inj mem]
    rfl)
  have joined : schemeSplit U (cleaned (front ++ request)) =
      ((schemeSplit U (cleaned front)).1, (schemeSplit U (cleaned front)).2 ++ request) := by
    rw [cleaned_append solid inert, schemeSplit_append colon]
  refine ⟨_, urlsplit_eq_some_iff.2 ⟨?_, rfl⟩, ?_⟩
  · rw [joined, netloc]
    exact accepted
  · dsimp only
    rw [joined]
    dsimp only
    rw [later, whole request query fragment, after]

end Join

/-! ## What the policy reads -/

theorem plain_of_append {s t : Str} (first : PlainPath s) (second : PlainPath t) : PlainPath (s ++ t) :=
  fun c mem => (List.mem_append.1 mem).elim (first c) (second c)

theorem ascii_of_plain {s : Str} (plain : PlainPath s) : s.all isAscii = true :=
  List.all_eq_true.2 fun c mem => (inert_of_request (.inl (plain c mem))).ascii

theorem percent_not_mem {s : Str} (plain : PlainPath s) : '%' ∉ s := fun mem => absurd (plain '%' mem) (by decide)

/-- The request path, quoted in the middle. -/
theorem inert_request {before after : Str} (first : PlainPath before) (last : PlainPath after) (id : Str) :
    ∀ c ∈ before ++ quote id ++ after, Inert c := by
  intro c mem
  refine inert_of_request ?_
  rcases List.mem_append.1 mem with front | back
  · rcases List.mem_append.1 front with plain | quoted
    · exact .inl (first c plain)
    · exact (mem_quote quoted).imp_left fun safe => by simp [isPathChar, safe]
  · exact .inl (last c back)

/-- **One round of decoding gives the id back.** -/
theorem unquote_request {before after : Str} (first : PlainPath before) (last : PlainPath after) (id : Str) :
    unquote (before ++ quote id ++ after) = before ++ id ++ after := by
  have ascii : (before ++ quote id ++ after).all isAscii = true :=
    List.all_eq_true.2 fun c mem => (inert_request first last id c mem).ascii
  have bytes : unquoteImpl 0 (before ++ quote id ++ after) = utf8Bytes (before ++ id ++ after) := by
    have tail := unquoteImpl_plain (percent_not_mem last) []
    rw [List.append_nil, unquoteImpl, List.append_nil] at tail
    rw [List.append_assoc, unquoteImpl_plain (percent_not_mem first), unquoteImpl_quote, tail, utf8Bytes_append,
      utf8Bytes_append, utf8Bytes_ascii (ascii_of_plain first), utf8Bytes_ascii (ascii_of_plain last),
      List.append_assoc]
  rw [unquote_ascii ascii, bytes, decodeUtf8_utf8]

/-- The characters whose escapes are blocked. -/
def ambiguous : List Char := ['/', '\\', '%', Char.ofNat 0]

/-- The escape of an ambiguous character is found by the block list. -/
theorem blocked_of_mem {id : Str} {c : Char} (mem : c ∈ id) (bad : c ∈ ambiguous) :
    blockedEncodings.any (fun item => contains item ((quote id).map Char.toLower)) = true := by
  obtain ⟨front, back, rfl⟩ := List.append_of_mem mem
  have escapes : ∀ d ∈ ambiguous, (quote [d]).map Char.toLower ∈ blockedEncodings :=
    List.forall_iff_forall_mem.1 (by decide)
  refine List.any_eq_true.2 ⟨_, escapes c bad, ?_⟩
  have parts : quote (front ++ c :: back) = quote front ++ (quote [c] ++ quote back) := by
    rw [quote_append, ← quote_append [c] back, List.singleton_append]
  rw [contains_iff_isInfix, parts, List.map_append, List.map_append]
  exact ⟨_, _, List.append_assoc _ _ _⟩

theorem blocked_append {s before after : Str}
    (blocked : blockedEncodings.any (fun item => contains item s) = true) :
    blockedEncodings.any (fun item => contains item (before ++ s ++ after)) = true := by
  obtain ⟨item, listed, found⟩ := List.any_eq_true.1 blocked
  refine List.any_eq_true.2 ⟨item, listed, ?_⟩
  rw [contains_iff_isInfix] at found ⊢
  exact found.trans ⟨before, after, rfl⟩

theorem normalizeRequestPath_ok {U : Unicode} {url path : Str} (normal : normalizeRequestPath U url = .ok path)
    {parsed : SplitResult} (splits : urlsplit U url = some parsed) (some_ : parsed.path ≠ []) :
    ¬ blockedEncodings.any (fun item => contains item (U.lower parsed.path)) = true ∧ path = unquote parsed.path := by
  unfold normalizeRequestPath at normal
  rw [splits] at normal
  have solid : ¬ parsed.path.isEmpty = true := by simpa using some_
  dsimp only at normal
  rw [if_neg solid] at normal
  split at normal
  · cases normal
  next free =>
  split at normal
  · cases normal
  split at normal
  · cases normal
  split at normal
  · cases normal
  split at normal
  · cases normal
  split at normal
  · cases normal
  exact ⟨free, (Except.ok.inj normal).symm⟩

/-! ## The segment of the id -/

theorem split_append (c : Char) (s t : Str) : split c (s ++ t) =
    (split c s).dropLast ++ ((split c s).getLastD [] ++ (split c t).headD []) :: (split c t).tail := by
  induction s with
  | nil =>
      obtain ⟨part, parts, eq⟩ := List.exists_cons_of_ne_nil (split_ne_nil c t)
      rw [List.nil_append, eq]
      rfl
  | cons d s ih =>
      obtain ⟨part, parts, eq⟩ := List.exists_cons_of_ne_nil (split_ne_nil c s)
      by_cases same : d = c
      · subst same
        rw [List.cons_append, split_cons_sep, split_cons_sep, ih, eq]
        rfl
      · cases parts with
        | nil =>
            have whole : split c (s ++ t) = (part ++ (split c t).headD []) :: (split c t).tail := by
              rw [ih, eq]
              rfl
            rw [List.cons_append, split_cons_of_ne c same whole, split_cons_of_ne c same eq]
            rfl
        | cons next parts =>
            have whole : split c (s ++ t) = part :: ((next :: parts).dropLast ++
                ((next :: parts).getLastD [] ++ (split c t).headD []) :: (split c t).tail) := by
              rw [ih, eq]
              rfl
            rw [List.cons_append, split_cons_of_ne c same whole, split_cons_of_ne c same eq]
            rfl

/-- The segment an id without a slash stands in. -/
def segmentOf (before id after : Str) : Str := (split '/' before).getLastD [] ++ id ++ (split '/' after).headD []

theorem segmentOf_mem {before id after : Str} (single : '/' ∉ id) :
    segmentOf before id after ∈ split '/' (before ++ id ++ after) := by
  have middle : split '/' id = [id] := split_of_not_mem '/' single
  have last : (split '/' (before ++ id)).getLastD [] = (split '/' before).getLastD [] ++ id := by
    rw [split_append, middle]
    simp
  rw [split_append '/' (before ++ id) after, last]
  exact List.mem_append_right _ (List.mem_cons_self ..)

/-! ## The judged path -/

/-- **The policy judges the resource that is requested.**  For a base URL and a template of
unreserved characters, joined by a slash somewhere, an accepted URL is judged by the base
path and the template with the id in its place; the id holds no character that is
ambiguous after decoding, and makes no dot segment.  For one target and endpoint,
different ids make different URLs. -/
theorem judged_resource {U : Unicode} (lowers : LowerLaws U) (target : Target) (endpoint : Endpoint) :
    (∀ (resource : Resource) (url path base before name after : Str), BasePath U target.baseUrl base →
      endpoint.path = before ++ ('{' :: name ++ ['}']) ++ after → PlainPath before → PlainPath after →
      '{' ∉ name → '}' ∉ name → (base ≠ [] ∨ endpoint.path.head? = some '/') →
      buildTestCaseUrl U target endpoint resource = .ok url → normalizeRequestPath U url = .ok path →
      path = base ++ (before ++ resource.externalId ++ after) ∧
        (∀ c ∈ ambiguous, c ∉ resource.externalId) ∧
        ¬ IsDot (segmentOf (base ++ before) resource.externalId after)) ∧
    ∀ (resource resource' : Resource) (url url' : Str), buildTestCaseUrl U target endpoint resource = .ok url →
      buildTestCaseUrl U target endpoint resource' = .ok url' → resource.externalId ≠ resource'.externalId →
      url ≠ url' := by
  constructor
  · intro resource url path base before name after known template first last opening closing begins built normal
    obtain ⟨binding, detected, here, rfl⟩ := buildTestCaseUrl_ok built
    have noBrace : ∀ {s : Str}, PlainPath s → '{' ∉ s := fun plain mem => absurd (plain '{' mem) (by decide)
    have parameter := detect_template template (noBrace first) (noBrace last) closing opening detected
    have request : replaceFirst (placeholder binding) (quote resource.externalId) endpoint.path =
        before ++ quote resource.externalId ++ after := by
      rw [template, placeholder, parameter]
      exact replaceFirst_template (noBrace first) rfl
    rw [request] at normal
    have slash : (before ++ quote resource.externalId ++ after).head? = some '/' ∨ base ≠ [] := by
      rcases begins with some_ | slash
      · exact .inr some_
      · left
        rw [template] at slash
        cases before with
        | nil => cases slash
        | cons c before => exact slash
    obtain ⟨parsed, splits, joined⟩ := urlsplit_join known (inert_request first last resource.externalId) slash.symm
    have some_ : parsed.path ≠ [] := by
      rw [joined]
      rcases slash with slash | some_
      · intro empty
        rw [(List.append_eq_nil_iff.1 empty).2] at slash
        cases slash
      · exact fun empty => some_ (List.append_eq_nil_iff.1 empty).1
    obtain ⟨free, rfl⟩ := normalizeRequestPath_ok normal splits some_
    have front := plain_of_append known.plain first
    have regroup : base ++ (before ++ quote resource.externalId ++ after) =
        base ++ before ++ quote resource.externalId ++ after := by simp
    rw [joined, regroup] at free ⊢
    have ascii : (base ++ before ++ quote resource.externalId ++ after).all isAscii = true :=
      List.all_eq_true.2 fun c mem => (inert_request front last resource.externalId c mem).ascii
    have clear : ∀ c ∈ ambiguous, c ∉ resource.externalId := by
      intro c bad mem
      refine free ?_
      rw [lowers.ascii _ ascii, List.map_append, List.map_append]
      exact blocked_append (blocked_of_mem mem bad)
    have read := unquote_request front last resource.externalId
    refine ⟨by rw [read]; simp, clear, fun dot => ?_⟩
    have accepted := accepted_of_normalizeRequestPath normal
    rw [joined, regroup, read] at accepted
    exact accepted.noDots _ (segmentOf_mem (clear '/' (by decide))) dot
  · intro resource resource' url url' built built' differ same
    obtain ⟨binding, detected, here, rfl⟩ := buildTestCaseUrl_ok built
    obtain ⟨binding', detected', -, rfl⟩ := buildTestCaseUrl_ok built'
    obtain rfl := Option.some.inj (detected.symm.trans detected')
    obtain ⟨before, after, -, replaced⟩ := replaceFirst_around here (List.cons_ne_nil _ _)
    rw [replaced, replaced] at same
    exact differ (quote_injective (List.append_cancel_left (List.append_cancel_right (List.append_cancel_left same))))

section Poles

private def localTarget : Target := ⟨1, "http://localhost/api/".toList⟩

private def itemEndpoint : Endpoint := ⟨1, "/items/{item_id}/notes".toList⟩

private theorem localBase : BasePath digitText localTarget.baseUrl "/api".toList where
  splits := ⟨⟨"http".toList, "localhost".toList, "/api".toList⟩, by decide, by decide, rfl⟩
  query := by decide
  fragment := by decide
  plain := List.forall_iff_forall_mem.1 (by decide)

theorem judged_resource_item :
    "/api/items/ä b/notes".toList = "/api".toList ++ ("/items/".toList ++ "ä b".toList ++ "/notes".toList) ∧
      (∀ c ∈ ambiguous, c ∉ "ä b".toList) ∧
      ¬ IsDot (segmentOf ("/api".toList ++ "/items/".toList) "ä b".toList "/notes".toList) :=
  (judged_resource digitText_laws localTarget itemEndpoint).1 ⟨1, "item".toList, "ä b".toList⟩
    "http://localhost/api/items/%C3%A4%20b/notes".toList _ "/api".toList "/items/".toList "item_id".toList
    "/notes".toList localBase (by decide) (List.forall_iff_forall_mem.1 (by decide)) (List.forall_iff_forall_mem.1 (by decide)) (by decide)
    (by decide) (.inl (by decide)) (by decide +kernel) (by decide +kernel)

/-- Without a slash in front, and on a base URL without a path, the template goes on with
the hostname: the path that is judged is not the template's. -/
theorem template_without_slash :
    buildTestCaseUrl digitText ⟨1, "http://localhost".toList⟩ ⟨1, "x/{item_id}".toList⟩
        ⟨1, "item".toList, "7".toList⟩ = .ok "http://localhostx/7".toList ∧
      normalizeRequestPath digitText "http://localhostx/7".toList = .ok "/7".toList ∧
      BasePath digitText "http://localhost".toList [] ∧ PlainPath "x/".toList ∧
      "/7".toList ≠ [] ++ ("x/".toList ++ "7".toList ++ []) := by
  refine ⟨by decide, by decide, ⟨⟨⟨"http".toList, "localhost".toList, []⟩, by decide,
    by decide, rfl⟩, by decide, by decide, List.forall_iff_forall_mem.1 (by decide)⟩, List.forall_iff_forall_mem.1 (by decide), by decide⟩

end Poles

end ApiSecurityPlatform.Execution.ResourceUrl
