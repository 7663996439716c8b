/-
# Python.TextLaws -- what splitting, searching and unquoting a text keep

`split` and `join` are inverse to each other, and a text that continues another one
after a separator has the other one's parts first (`split_append_sep`,
`split_prefix_iff`).  `unquote` leaves a text alone that holds no escape
(`unquote_of_no_escape`), and works on each side of a separator apart (`unquote_separator`).
-/
import ApiSecurityPlatform.Python.Text
import Mathlib.Data.List.Infix

namespace ApiSecurityPlatform.Python

set_option autoImplicit false

/-! ## `split` and `join` -/

section Split

variable (c : Char)

theorem split_cons_sep (s : Str) : split c (c :: s) = [] :: split c s := by
  obtain ⟨part, parts, eq⟩ := List.exists_cons_of_ne_nil (split_ne_nil c s)
  simp [split, eq]

theorem split_cons_of_ne {d : Char} (other : d ≠ c) {s part : Str} {parts : List Str}
    (eq : split c s = part :: parts) : split c (d :: s) = (d :: part) :: parts := by
  simp [split, eq, other]

/-- The parts of a text that goes on after a separator. -/
theorem split_append_sep (a b : Str) : split c (a ++ c :: b) = split c a ++ split c b := by
  induction a with
  | nil => simp [split_cons_sep, split]
  | cons d a ih =>
      rw [List.cons_append]
      obtain ⟨part, parts, eq⟩ := List.exists_cons_of_ne_nil (split_ne_nil c a)
      by_cases same : d = c
      · subst same
        rw [split_cons_sep, split_cons_sep, ih, List.cons_append]
      · have longer : split c (a ++ c :: b) = part :: (parts ++ split c b) := by
          rw [ih, eq, List.cons_append]
        rw [split_cons_of_ne c same longer, split_cons_of_ne c same eq, List.cons_append]

theorem join_cons {part : Str} {parts : List Str} (more : parts ≠ []) :
    join c (part :: parts) = part ++ c :: join c parts := by
  obtain ⟨next, rest, rfl⟩ := List.exists_cons_of_ne_nil more
  rfl

theorem join_append {xs ys : List Str} (first : xs ≠ []) (second : ys ≠ []) :
    join c (xs ++ ys) = join c xs ++ c :: join c ys := by
  induction xs with
  | nil => exact absurd rfl first
  | cons x xs ih =>
      rw [List.cons_append]
      by_cases last : xs = []
      · subst last
        rw [List.nil_append, join_cons c second]
        rfl
      · have more : xs ++ ys ≠ [] := by simp [last]
        rw [join_cons c more, ih last, join_cons c last, List.append_assoc, List.cons_append]

theorem join_split (s : Str) : join c (split c s) = s := by
  induction s with
  | nil => rfl
  | cons d s ih =>
      obtain ⟨part, parts, eq⟩ := List.exists_cons_of_ne_nil (split_ne_nil c s)
      by_cases same : d = c
      · subst same
        rw [split_cons_sep, join_cons d (split_ne_nil d s), ih, List.nil_append]
      · rw [split_cons_of_ne c same eq]
        rw [eq] at ih
        by_cases last : parts = []
        · subst last
          rw [← ih]
          rfl
        · rw [join_cons c last] at ih ⊢
          rw [← ih, List.cons_append]

theorem split_injective {s t : Str} (same : split c s = split c t) : s = t := by
  rw [← join_split c s, same, join_split]

theorem split_of_not_mem {s : Str} (absent : c ∉ s) : split c s = [s] := by
  induction s with
  | nil => rfl
  | cons d s ih =>
      rw [List.mem_cons, not_or] at absent
      exact split_cons_of_ne c (Ne.symm absent.1) (ih absent.2)

theorem split_join {parts : List Str} (some_ : parts ≠ []) (absent : ∀ part ∈ parts, c ∉ part) :
    split c (join c parts) = parts := by
  induction parts with
  | nil => exact absurd rfl some_
  | cons part rest ih =>
      by_cases last : rest = []
      · subst last
        exact split_of_not_mem c (absent part (by simp))
      · rw [join_cons c last, split_append_sep, split_of_not_mem c (absent part (by simp)),
          ih last fun p mem => absent p (by simp [mem])]
        rfl

theorem mem_join {parts : List Str} {d : Char} (mem : d ∈ join c parts) : d = c ∨ ∃ part ∈ parts, d ∈ part := by
  induction parts with
  | nil => cases mem
  | cons part rest ih =>
      by_cases last : rest = []
      · subst last
        exact .inr ⟨part, by simp, mem⟩
      · rw [join_cons c last, List.mem_append, List.mem_cons] at mem
        rcases mem with here | rfl | later
        · exact .inr ⟨part, by simp, here⟩
        · exact .inl rfl
        · refine (ih later).imp id fun ⟨p, inside, found⟩ => ⟨p, by simp [inside], found⟩

/-- One text's parts begin another's exactly when the other is the text, or goes on
after it with a separator. -/
theorem split_prefix_iff (base s : Str) :
    split c base <+: split c s ↔ s = base ∨ (base ++ [c]) <+: s := by
  constructor
  · rintro ⟨more, eq⟩
    by_cases whole : more = []
    · left
      rw [whole, List.append_nil] at eq
      exact split_injective c eq.symm
    · right
      refine ⟨join c more, ?_⟩
      rw [List.append_assoc, List.singleton_append]
      calc base ++ c :: join c more = join c (split c base) ++ c :: join c more := by rw [join_split]
        _ = join c (split c base ++ more) := (join_append c (split_ne_nil c base) whole).symm
        _ = s := by rw [eq, join_split]
  · rintro (rfl | ⟨rest, rfl⟩)
    · exact List.prefix_rfl
    · rw [List.append_assoc, List.singleton_append, split_append_sep]
      exact List.prefix_append _ _

end Split

/-! ## `partition` -/

section Partition

variable {c : Char}

theorem partition_of_not_mem {s : Str} (absent : c ∉ s) : partition c s = (s, false, []) := by
  induction s with
  | nil => rfl
  | cons d s ih =>
      rw [List.mem_cons, not_or] at absent
      rw [partition, if_neg (Ne.symm absent.1), ih absent.2]

theorem partition_append_sep {s : Str} (absent : c ∉ s) (t : Str) : partition c (s ++ c :: t) = (s, true, t) := by
  induction s with
  | nil => simp [partition]
  | cons d s ih =>
      rw [List.mem_cons, not_or] at absent
      rw [List.cons_append, partition, if_neg (Ne.symm absent.1), ih absent.2]

theorem mem_partition_fst {s : Str} {d : Char} (mem : d ∈ (partition c s).1) : d ∈ s := by
  induction s with
  | nil => cases mem
  | cons e s ih =>
      rw [partition] at mem
      split at mem
      · cases mem
      · rcases List.mem_cons.1 mem with rfl | later
        · exact List.mem_cons_self
        · exact List.mem_cons_of_mem _ (ih later)

theorem mem_partition_snd {s : Str} {d : Char} (mem : d ∈ (partition c s).2.2) : d ∈ s := by
  induction s with
  | nil => cases mem
  | cons e s ih =>
      rw [partition] at mem
      split at mem
      · exact List.mem_cons_of_mem _ mem
      · exact List.mem_cons_of_mem _ (ih mem)

theorem mem_rpartition {s : Str} {d : Char} (mem : d ∈ (rpartition c s).2.2) : d ∈ s := by
  rw [rpartition] at mem
  dsimp only at mem
  split at mem
  · exact List.mem_reverse.1 (mem_partition_fst (List.mem_reverse.1 mem))
  · exact mem

theorem rpartition_of_not_mem {s : Str} (absent : c ∉ s) : rpartition c s = ([], false, s) := by
  have reversed : c ∉ s.reverse := by simpa using absent
  rw [rpartition, partition_of_not_mem reversed]
  rfl

end Partition

/-! ## `in` -/

theorem contains_iff_isInfix (needle s : Str) : contains needle s = true ↔ needle <:+: s := by
  induction s with
  | nil => simp [contains]
  | cons c rest ih =>
      rw [contains, Bool.or_eq_true, List.isPrefixOf_iff_prefix, ih, List.infix_cons_iff]

/-- A text without a doubled separator has no empty part between two others. -/
theorem split_interior_ne_nil {c : Char} {s : Str} (single : contains [c, c] s = false) {part : Str}
    (inside : part ∈ (split c s).tail.dropLast) : part ≠ [] := by
  rintro rfl
  -- an empty part between two others stands between two separators
  obtain ⟨first, parts, eq⟩ := List.exists_cons_of_ne_nil (split_ne_nil c s)
  rw [eq, List.tail_cons] at inside
  obtain ⟨before, after, cut⟩ := List.append_of_mem inside
  have nonempty : parts ≠ [] := by
    rintro rfl
    simp at inside
  have parts_eq : parts = before ++ [] :: (after ++ [parts.getLast nonempty]) := by
    rw [← List.cons_append, ← List.append_assoc, ← cut, List.dropLast_append_getLast]
  have text : s = join c (first :: before) ++ c :: c :: join c (after ++ [parts.getLast nonempty]) := by
    rw [← join_split c s, eq]
    nth_rewrite 1 [parts_eq]
    have after_ : after ++ [parts.getLast nonempty] ≠ [] := by simp
    rw [← List.cons_append, join_append c (List.cons_ne_nil _ _) (List.cons_ne_nil _ _)]
    rw [show join c ([] :: (after ++ [parts.getLast nonempty])) = _ from join_cons c after_]
    rfl
  have found : contains [c, c] s = true := by
    rw [contains_iff_isInfix, text]
    exact ⟨join c (first :: before), join c (after ++ [parts.getLast nonempty]), by simp⟩
  rw [found] at single
  cases single

/-! ## `strip` -/

theorem strip_of_no_space {s : Str} (plain : s.any isSpace = false) : strip s = s := by
  have none_ : ∀ c ∈ s, isSpace c = false := fun c mem => by simpa using List.any_eq_false.1 plain c mem
  have kept : ∀ t : Str, (∀ c ∈ t, isSpace c = false) → t.dropWhile isSpace = t := by
    intro t none_
    cases t with
    | nil => rfl
    | cons c t => rw [List.dropWhile_cons, none_ c (by simp)]; rfl
  rw [strip, lstrip, rstrip, kept s none_, kept s.reverse fun c mem => none_ c (List.mem_reverse.1 mem),
    List.reverse_reverse]

theorem rstrip_isPrefix (drop : Char → Bool) (s : Str) : rstrip drop s <+: s := by
  have suffix := List.dropWhile_suffix drop (l := s.reverse)
  rw [← List.reverse_prefix, List.reverse_reverse] at suffix
  exact suffix

theorem rstrip_of_last {drop : Char → Bool} {s : Str} (last : ∀ c ∈ s.getLast?, drop c = false) :
    rstrip drop s = s := by
  rw [rstrip]
  cases reversed : s.reverse with
  | nil => rw [List.reverse_eq_nil_iff.1 reversed]; rfl
  | cons c t =>
      have stays : drop c = false := by
        refine last c ?_
        rw [← List.head?_reverse, reversed]
        rfl
      rw [List.dropWhile_cons, stays]
      rw [if_neg (by simp), ← reversed, List.reverse_reverse]

/-! ## `unquote` -/

/-- A `%` with two hexadecimal digits after it. -/
def hasEscape : Str → Bool
  | [] => false
  | c :: rest => (c = '%' && (escape? rest).isSome) || hasEscape rest

theorem escape?_append {s t : Str} (found : (escape? s).isSome = true) :
    (escape? (s ++ t)).isSome = true := by
  match s, found with
  | a :: b :: rest, found => exact found

theorem hasEscape_append_left {s t : Str} (found : hasEscape s = true) : hasEscape (s ++ t) = true := by
  induction s with
  | nil => cases found
  | cons c s ih =>
      rw [hasEscape, Bool.or_eq_true] at found
      rw [List.cons_append, hasEscape, Bool.or_eq_true]
      refine found.imp (fun here => ?_) ih
      rw [Bool.and_eq_true] at here ⊢
      exact ⟨here.1, escape?_append here.2⟩

theorem hasEscape_append_right {s t : Str} (found : hasEscape t = true) : hasEscape (s ++ t) = true := by
  induction s with
  | nil => exact found
  | cons c s ih => rw [List.cons_append, hasEscape, ih, Bool.or_true]

theorem unquoteImpl_of_no_escape {s : Str} (plain : hasEscape s = false) :
    unquoteImpl 0 s = s.map Char.toNat := by
  induction s with
  | nil => rfl
  | cons c s ih =>
      rw [hasEscape, Bool.or_eq_false_iff] at plain
      rw [List.map_cons, unquoteImpl, ← ih plain.2]
      split
      · rename_i percent
        have none_ : escape? s = none := by simpa [percent] using plain.1
        rw [none_]
      · rfl

theorem decodeUtf8_ascii {s : Str} (ascii : s.all isAscii = true) :
    decodeUtf8 none (s.map Char.toNat) = s := by
  induction s with
  | nil => rfl
  | cons c s ih =>
      rw [List.all_cons, Bool.and_eq_true] at ascii
      have small : c.toNat < 0x80 := by simpa [isAscii] using ascii.1
      rw [List.map_cons, decodeUtf8, leadByte, if_pos small]
      simp [ih ascii.2]

theorem unquoteParts_of_no_escape {run s : Str} (ascii : run.all isAscii = true)
    (plain : hasEscape (run ++ s) = false) : unquoteParts run s = run ++ s := by
  have decoded : ∀ {run : Str}, run.all isAscii = true → hasEscape run = false →
      decodeUtf8 none (unquoteImpl 0 run) = run := by
    intro run ascii plain
    rw [unquoteImpl_of_no_escape plain, decodeUtf8_ascii ascii]
  induction s generalizing run with
  | nil =>
      rw [List.append_nil] at plain ⊢
      exact decoded ascii plain
  | cons c s ih =>
      rw [unquoteParts]
      split
      · rename_i plainChar
        have next : run ++ c :: s = (run ++ [c]) ++ s := by simp
        rw [next] at plain ⊢
        exact ih (by simp [ascii, plainChar]) plain
      · have quiet : hasEscape run = false := by
          rw [Bool.eq_false_iff] at plain ⊢
          exact fun found => plain (hasEscape_append_left found)
        have rest : hasEscape ([] ++ s) = false := by
          rw [Bool.eq_false_iff] at plain ⊢
          intro found
          rw [List.append_cons] at plain
          exact plain (hasEscape_append_right found)
        rw [decoded ascii quiet, ih rfl rest, List.nil_append]

theorem unquote_of_no_escape {s : Str} (plain : hasEscape s = false) : unquote s = s := by
  unfold unquote
  split
  · exact unquoteParts_of_no_escape rfl plain
  · rfl

theorem hasEscape_of_not_mem {s : Str} (absent : '%' ∉ s) : hasEscape s = false := by
  induction s with
  | nil => rfl
  | cons c s ih =>
      rw [List.mem_cons, not_or] at absent
      rw [hasEscape, decide_eq_false (Ne.symm absent.1), Bool.false_and, Bool.false_or, ih absent.2]

theorem unquote_eq (s : Str) : unquote s = unquoteParts [] s := by
  unfold unquote
  split
  · rfl
  · next absent =>
    have plain : hasEscape ([] ++ s) = false := hasEscape_of_not_mem absent
    exact (unquoteParts_of_no_escape rfl plain).symm

section Separator

variable {sep : Char} (noDigit : hexDigit? sep = none)

include noDigit

/-- No escape reaches over a character that is no hexadecimal digit. -/
theorem escape?_separator (s t : Str) : escape? (s ++ sep :: t) = escape? s := by
  rcases s with _ | ⟨a, _ | ⟨b, s⟩⟩
  · cases t <;> simp [escape?, noDigit]
  · rw [List.singleton_append, escape?, noDigit]
    cases hexDigit? a <;> rfl
  · rfl

theorem unquoteImpl_separator (other : sep ≠ '%') (skip : Nat) (s t : Str) (inside : skip ≤ s.length) :
    unquoteImpl skip (s ++ sep :: t) = unquoteImpl skip s ++ sep.toNat :: unquoteImpl 0 t := by
  induction s generalizing skip with
  | nil =>
      obtain rfl : skip = 0 := by simpa using inside
      have here : unquoteImpl 0 (sep :: t) = sep.toNat :: unquoteImpl 0 t := by rw [unquoteImpl, if_neg other]
      rw [List.nil_append, here]
      rfl
  | cons c s ih =>
      cases skip with
      | succ skip =>
          rw [List.cons_append, unquoteImpl, unquoteImpl]
          exact ih skip (by simpa using inside)
      | zero =>
          rw [List.cons_append, unquoteImpl, unquoteImpl, escape?_separator noDigit]
          by_cases percent : c = '%'
          · rw [if_pos percent, if_pos percent]
            rcases s with _ | ⟨a, _ | ⟨b, rest⟩⟩
            · simpa [escape?] using ih 0
            · simpa [escape?] using ih 0
            · cases escape? (a :: b :: rest) with
              | none => simpa using ih 0
              | some byte => simpa using ih 2
          · rw [if_neg percent, if_neg percent, ih 0 (Nat.zero_le _)]
            rfl

end Separator

/-- An ASCII byte ends a started sequence. -/
theorem decodeUtf8_separator {n : Nat} (small : n < 0x80) (pending : Option Pending)
    (high : ∀ p ∈ pending, 0x80 ≤ p.low) (xs ys : List Nat) :
    decodeUtf8 pending (xs ++ n :: ys) = decodeUtf8 pending xs ++ Char.ofNat n :: decodeUtf8 none ys := by
  have lead : leadByte n = .inl (Char.ofNat n) := by rw [leadByte, if_pos small]
  have started : ∀ {b : Nat} {p : Pending}, leadByte b = .inr p → 0x80 ≤ p.low := by
    intro b p eq
    unfold leadByte at eq
    split_ifs at eq <;> cases eq <;> dsimp only <;> omega
  induction xs generalizing pending with
  | nil =>
      cases pending with
      | none => simp [decodeUtf8, lead]
      | some p =>
          have low := high p rfl
          have here : decodeUtf8 (some p) (n :: ys) = replacement :: Char.ofNat n :: decodeUtf8 none ys := by
            rw [decodeUtf8, if_neg fun within => absurd within.1 (by omega), lead]
          rw [List.nil_append, here]
          rfl
  | cons b xs ih =>
      rw [List.cons_append]
      cases pending with
      | none =>
          rw [decodeUtf8, decodeUtf8]
          cases read : leadByte b with
          | inl c => simp [ih none (by simp)]
          | inr p => simpa using ih (some p) (by simpa using started read)
      | some p =>
          rw [decodeUtf8, decodeUtf8]
          split
          · cases p.left with
            | zero => simp [ih none (by simp)]
            | succ left => simpa using ih (some ⟨left, 0x80, 0xBF, _⟩) (by simp)
          · cases read : leadByte b with
            | inl c => simp [ih none (by simp)]
            | inr p => simpa using ih (some p) (by simpa using started read)

/-- **`unquote` works on the two sides of a separator apart.** -/
theorem unquote_separator {sep : Char} (noDigit : hexDigit? sep = none) (other : sep ≠ '%') (ascii : isAscii sep = true)
    (s t : Str) : unquote (s ++ sep :: t) = unquote s ++ sep :: unquote t := by
  have decoded (run rest : Str) : decodeUtf8 none (unquoteImpl 0 (run ++ sep :: rest)) =
      decodeUtf8 none (unquoteImpl 0 run) ++ sep :: decodeUtf8 none (unquoteImpl 0 rest) := by
    rw [unquoteImpl_separator noDigit other 0 _ _ (Nat.zero_le _), decodeUtf8_separator (of_decide_eq_true ascii) none (by simp),
      Char.ofNat_toNat]
  have behind (run later t : Str) : unquoteParts (run ++ sep :: later) t =
      decodeUtf8 none (unquoteImpl 0 run) ++ sep :: unquoteParts later t := by
    induction t generalizing later with
    | nil => exact decoded run later
    | cons c t ih =>
        rw [unquoteParts, unquoteParts]
        split
        · rw [List.append_assoc, List.cons_append, ih]
        · rw [decoded, List.append_assoc, List.cons_append]
  have both (run s : Str) : unquoteParts run (s ++ sep :: t) = unquoteParts run s ++ sep :: unquoteParts [] t := by
    induction s generalizing run with
    | nil =>
        have here : unquoteParts run (sep :: t) = unquoteParts (run ++ [sep]) t := by rw [unquoteParts, if_pos ascii]
        rw [List.nil_append, here, behind run [] t]
        rfl
    | cons c s ih =>
        rw [List.cons_append, unquoteParts, unquoteParts]
        split
        · exact ih _
        · rw [ih, List.append_assoc, List.cons_append]
  rw [unquote_eq, unquote_eq, unquote_eq, both]

end ApiSecurityPlatform.Python
