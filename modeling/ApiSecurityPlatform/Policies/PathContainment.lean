/-
# Policies.PathContainment -- an accepted path stays under its scope

`normalize_request_path` refuses texts, `path_matches_scope` compares texts.  What they
are for is a statement about segments: a path under `base/*` has the segments of `base`
first, and none that leads back up (`matches_iff`), so the location it denotes lies
within `base` (`location_begins`).

The refusal of `%25` does not reach every double encoding: a `%` that starts no escape
is kept, and may start one once the digits after it are decoded
(`double_encoding_escapes`).  A second round decodes the segments of `base` and what
follows them apart (`unquote_within`), so it leads out of `base` only by `..`, or by
escapes that `base` itself holds.
-/
import ApiSecurityPlatform.Python.TextLaws
import ApiSecurityPlatform.Policies.ScopePolicy

namespace ApiSecurityPlatform.Policies

open ApiSecurityPlatform.Theory
open ApiSecurityPlatform.Python

set_option autoImplicit false

/-! ## Locations -/

/-- Dot segments removed, as a server resolves them: the names walked so far, innermost
first. -/
def resolve : List Str → List Str → List Str
  | walked, [] => walked.reverse
  | walked, segment :: rest =>
      if segment = [] ∨ segment = ['.'] then resolve walked rest
      else if segment = ['.', '.'] then resolve walked.tail rest
      else resolve (segment :: walked) rest

/-- The location a path denotes. -/
def location (path : Str) : List Str := resolve [] (split '/' path)

def IsDot (segment : Str) : Prop := segment = ['.'] ∨ segment = ['.', '.']

theorem resolve_of_no_parent {walked segments : List Str} (down : ∀ s ∈ segments, s ≠ ['.', '.']) :
    resolve walked segments = walked.reverse ++ segments.filter fun s => ¬ (s = [] ∨ s = ['.']) := by
  induction segments generalizing walked with
  | nil => simp [resolve]
  | cons segment rest ih =>
      have later : ∀ s ∈ rest, s ≠ ['.', '.'] := fun s mem => down s (by simp [mem])
      unfold resolve
      by_cases stays : segment = [] ∨ segment = ['.']
      · rw [if_pos stays, ih later, List.filter_cons_of_neg (by rw [decide_eq_true_iff, not_not]; exact stays)]
      · rw [if_neg stays, if_neg (down segment (by simp)), ih later, List.filter_cons_of_pos (by rw [decide_eq_true_iff]; exact stays)]
        simp

/-- Segments first, none of which leads up, denote a location within. -/
theorem location_begins {base path : Str} (down : ∀ s ∈ split '/' path, s ≠ ['.', '.'])
    (within : split '/' base <+: split '/' path) : location base <+: location path := by
  have downBase : ∀ s ∈ split '/' base, s ≠ ['.', '.'] := fun s mem => down s (within.subset mem)
  rw [location, location, resolve_of_no_parent downBase, resolve_of_no_parent down]
  exact within.filter _

/-- A round of decoding keeps what is first. -/
theorem unquote_within {base path : Str} (within : split '/' base <+: split '/' path) :
    split '/' (unquote base) <+: split '/' (unquote path) := by
  rw [split_prefix_iff] at within ⊢
  refine within.imp (congrArg unquote) fun ⟨rest, continued⟩ => ⟨unquote rest, ?_⟩
  rw [← continued, List.append_assoc, List.append_assoc, List.singleton_append, List.singleton_append,
    unquote_separator (by decide) (by decide) (by decide)]

/-! ## Accepted paths -/

section Accepted

variable {U : Unicode} {url path : Str}

structure Accepted (path : Str) : Prop where
  absolute : path.head? = some '/'
  noNul : Char.ofNat 0 ∉ path
  noBackslash : '\\' ∉ path
  noDots : ∀ segment ∈ split '/' path, ¬ IsDot segment
  noEmpty : ∀ segment ∈ (split '/' path).tail.dropLast, segment ≠ []

theorem accepted_of_normalizeRequestPath (normal : normalizeRequestPath U url = .ok path) :
    Accepted path := by
  unfold normalizeRequestPath at normal
  split at normal
  · cases normal
  next parsed _ =>
  dsimp only at normal
  generalize (if parsed.path.isEmpty then ['/'] else parsed.path) = rawPath at normal
  split at normal
  · cases normal
  split at normal
  · cases normal
  next noNul =>
  split at normal
  · cases normal
  next noBackslash =>
  split at normal
  · cases normal
  next single =>
  split at normal
  · cases normal
  next noDots =>
  split at normal
  · cases normal
  next absolute =>
  obtain rfl := Except.ok.inj normal
  refine ⟨not_not.1 absolute, noNul, noBackslash, ?_, ?_⟩
  · intro segment mem dot
    refine noDots (List.any_eq_true.2 ⟨segment, mem, ?_⟩)
    exact decide_eq_true dot
  · intro segment mem
    exact split_interior_ne_nil (Bool.eq_false_iff.2 single) mem

end Accepted

/-! ## Patterns -/

section Patterns

variable {path scopePattern pattern : Str}

/-- A pattern with a wildcard is `base/*`. -/
theorem wildcard_base (normal : normalizeScopePathPattern scopePattern = .ok pattern)
    (wild : '*' ∈ pattern) : pattern = pattern.take (pattern.length - 2) ++ ['/', '*'] := by
  unfold normalizeScopePathPattern at normal
  dsimp only at normal
  split at normal
  · cases normal
  split at normal
  · next plain =>
    obtain rfl := Except.ok.inj normal
    exact absurd wild plain
  split at normal
  · cases normal
  split at normal
  · cases normal
  next suffix =>
  obtain rfl := Except.ok.inj normal
  obtain ⟨base, eq⟩ := List.isSuffixOf_iff_suffix.1 (not_not.1 suffix)
  rw [← eq]
  simp

theorem base_unique {base : Str} (eq : pattern = base ++ ['/', '*']) :
    pattern.take (pattern.length - 2) = base := by
  rw [eq]
  simp

/-- A text that starts with `/` is under the empty base. -/
theorem split_nil_prefix (absolute : path.head? = some '/') : split '/' [] <+: split '/' path := by
  rw [split_prefix_iff]
  right
  obtain ⟨rest, rfl⟩ := List.head?_eq_some_iff.1 absolute
  exact ⟨rest, rfl⟩

/-- **Matching is equality, or the segments of the base first.** -/
theorem matches_iff (absolute : path.head? = some '/')
    (normal : normalizeScopePathPattern scopePattern = .ok pattern) :
    pathMatchesScope path scopePattern = .ok true ↔
      ('*' ∉ pattern ∧ pattern = path) ∨
        ∃ base, pattern = base ++ ['/', '*'] ∧ split '/' base <+: split '/' path := by
  have unfolded : pathMatchesScope path scopePattern = .ok (
      if '*' ∉ pattern then decide (path = pattern)
      else if (pattern.take (pattern.length - 2)).isEmpty then true
      else decide (path = pattern.take (pattern.length - 2) ∨
        (pattern.take (pattern.length - 2) ++ ['/']).isPrefixOf path)) := by
    rw [pathMatchesScope, normal]
    simp only [bind, Except.bind]
    repeat' split
    all_goals rfl
  rw [unfolded, Except.ok.injEq]
  by_cases wild : '*' ∈ pattern
  · have shape := wildcard_base normal wild
    rw [if_neg (not_not.2 wild)]
    have onlyBase : ('*' ∉ pattern ∧ pattern = path) ∨
          (∃ base, pattern = base ++ ['/', '*'] ∧ split '/' base <+: split '/' path) ↔
        split '/' (pattern.take (pattern.length - 2)) <+: split '/' path := by
      constructor
      · rintro (⟨plain, -⟩ | ⟨base, eq, within⟩)
        · exact absurd wild plain
        · rwa [base_unique eq]
      · exact fun within => .inr ⟨_, shape, within⟩
    rw [onlyBase]
    split
    · next empty =>
      rw [List.isEmpty_iff.1 empty]
      exact ⟨fun _ => split_nil_prefix absolute, fun _ => rfl⟩
    · rw [decide_eq_true_iff, List.isPrefixOf_iff_prefix, split_prefix_iff]
  · rw [if_pos wild, decide_eq_true_iff]
    constructor
    · rintro rfl
      exact .inl ⟨wild, rfl⟩
    · rintro (⟨-, rfl⟩ | ⟨base, rfl, -⟩)
      · rfl
      · simp at wild

end Patterns

/-- **Path containment.**  An accepted path is absolute and has no dot segment, no empty
segment inside, no backslash and no NUL; it matches exactly the pattern that is the path,
or a pattern `base/*` whose segments it has first.  It then denotes a location within
`base`.  Decoded a second time it denotes a location within `base` decoded likewise, unless a
segment `..` appears; `base` is left alone where it holds no escape. -/
theorem path_containment (U : Unicode) (url path scopePattern pattern : Str)
    (accepted : normalizeRequestPath U url = .ok path)
    (normal : normalizeScopePathPattern scopePattern = .ok pattern) :
    (path.head? = some '/' ∧ '\\' ∉ path ∧ Char.ofNat 0 ∉ path ∧
      (∀ segment ∈ split '/' path, segment ≠ ['.'] ∧ segment ≠ ['.', '.']) ∧
      ∀ segment ∈ (split '/' path).tail.dropLast, segment ≠ []) ∧
    (pathMatchesScope path scopePattern = .ok true ↔
      ('*' ∉ pattern ∧ pattern = path) ∨
        ∃ base, pattern = base ++ ['/', '*'] ∧ split '/' base <+: split '/' path) ∧
    ∀ base, pattern = base ++ ['/', '*'] → pathMatchesScope path scopePattern = .ok true →
      location base <+: location path ∧
        ((∀ segment ∈ split '/' (unquote path), segment ≠ ['.', '.']) →
          location (unquote base) <+: location (unquote path) ∧
            (hasEscape base = false → location base <+: location (unquote path))) := by
  have facts := accepted_of_normalizeRequestPath accepted
  refine ⟨⟨facts.absolute, facts.noBackslash, facts.noNul, ?_, facts.noEmpty⟩,
    matches_iff facts.absolute normal, ?_⟩
  · exact fun segment mem => not_or.1 (facts.noDots segment mem)
  · intro base eq matched
    have within : split '/' base <+: split '/' path := by
      rcases (matches_iff facts.absolute normal).1 matched with ⟨plain, -⟩ | ⟨base', eq', within⟩
      · rw [eq] at plain
        simp at plain
      · obtain rfl : base' = base := by rw [← base_unique eq', ← base_unique eq]
        exact within
    refine ⟨location_begins (fun s mem dots => facts.noDots s mem (.inr dots)) within, fun down => ?_⟩
    have inside := location_begins down (unquote_within within)
    exact ⟨inside, fun plain => unquote_of_no_escape plain ▸ inside⟩

section Poles

private def asciiText : Unicode where
  lower := List.map Char.toLower
  upper := List.map Char.toUpper
  nfkc := id
  repr := id

theorem path_containment_projects :
    normalizeRequestPath asciiText "http://localhost/api/%%320pro%6Aects".toList =
        .ok "/api/%20projects".toList ∧
      pathMatchesScope "/api/%20projects".toList " /api/*".toList = .ok true ∧
      location "/api".toList <+: location "/api/%20projects".toList ∧
      location "/api".toList <+: location "/api/ projects".toList := by
  have matched : pathMatchesScope "/api/%20projects".toList " /api/*".toList = .ok true := by rfl
  obtain ⟨-, -, contained⟩ := path_containment asciiText "http://localhost/api/%%320pro%6Aects".toList
    "/api/%20projects".toList " /api/*".toList "/api/*".toList (by rfl) (by rfl)
  obtain ⟨once, twice⟩ := contained "/api".toList rfl matched
  have again : unquote "/api/%20projects".toList = "/api/ projects".toList := by rfl
  rw [again] at twice
  exact ⟨by rfl, matched, once, (twice (by decide)).2 (by decide)⟩

/-- The second round of decoding leads out of the scope: the `%` before `%32` is kept, and so is the
one before `%34` under a scope that holds an escape. -/
theorem double_encoding_escapes :
    (∃ url path, normalizeRequestPath asciiText url = .ok path ∧
      pathMatchesScope path "/api/*".toList = .ok true ∧
      location (unquote path) = ["admin".toList] ∧ ¬ location "/api".toList <+: location (unquote path)) ∧
    ∃ url path, normalizeRequestPath asciiText url = .ok path ∧
      pathMatchesScope path "/%41/*".toList = .ok true ∧
      location (unquote path) = ["A".toList, "x".toList] ∧ ¬ location "/%41".toList <+: location (unquote path) := by
  refine ⟨⟨"http://localhost/api/%%32e%%32e%%32fadmin".toList, "/api/%2e%2e%2fadmin".toList, by rfl, by rfl,
    by rfl, ?_⟩, "http://localhost/%%341/x".toList, "/%41/x".toList, by rfl, by rfl, by rfl, ?_⟩ <;>
  decide

end Poles

end ApiSecurityPlatform.Policies
