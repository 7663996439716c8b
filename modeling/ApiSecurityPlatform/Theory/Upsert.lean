/-
# Theory.Upsert -- items with keys, the last of a key in the place of the first

A loop that puts each item at the end, but one with a key that came before in the place of the
earlier one, with a map of the places beside the list.  What it makes is the first item of each
key, and every item without one, each replaced by the last of its key (`place_foldl`).
-/
import Mathlib.Data.List.Induction

namespace ApiSecurityPlatform.Theory.Upsert

set_option autoImplicit false

universe u v

variable {α : Type u} {κ : Type v} [DecidableEq κ] (key : α → Option κ)

/-- One pass of the loop. -/
def place (s : List α × List (κ × Nat)) (a : α) : List α × List (κ × Nat) :=
  match key a with
  | none => (s.1 ++ [a], s.2)
  | some k =>
      match s.2.lookup k with
      | some i => (s.1.set i a, s.2)
      | none => (s.1 ++ [a], (k, s.1.length) :: s.2)

/-- The first item of each key that is not seen, and the items without a key. -/
def firsts : List κ → List α → List α
  | _, [] => []
  | seen, a :: rest =>
      match key a with
      | none => a :: firsts seen rest
      | some k => if k ∈ seen then firsts seen rest else a :: firsts (k :: seen) rest

/-- The last of the items with the key of `a`. -/
def latest (items : List α) (a : α) : α :=
  match key a with
  | none => a
  | some k => (items.reverse.find? fun b => key b = some k).getD a

/-- The map has the places of the keys. -/
def Placed (s : List α × List (κ × Nat)) : Prop := ∀ k i, s.2.lookup k = some i ↔ s.1[i]?.bind key = some k

theorem key_latest (items : List α) (a : α) : key (latest key items a) = key a := by
  unfold latest
  split
  next => rfl
  next k keyed =>
      cases found : items.reverse.find? fun b => key b = some k with
      | none => rfl
      | some b =>
          rw [Option.getD_some, keyed]
          simpa using List.find?_some found

variable {key}

theorem latest_snoc (items : List α) (a b : α) : latest key (items ++ [a]) b =
    if key b = none then b else if key a = key b then a else latest key items b := by
  unfold latest
  cases keyed : key b with
  | none => rfl
  | some k =>
      rw [if_neg (Option.some_ne_none k), List.reverse_append, List.reverse_singleton, List.singleton_append]
      by_cases same : key a = some k
      · simp only [List.find?_cons, same, decide_true, if_pos, Option.getD_some]
      · simp only [List.find?_cons, same, decide_false, if_false]

theorem place_keyless {s : List α × List (κ × Nat)} {a : α} (keyless : key a = none) :
    place key s a = (s.1 ++ [a], s.2) := by
  rw [place, keyless]

theorem place_known {s : List α × List (κ × Nat)} {a : α} {k : κ} {i : Nat} (keyed : key a = some k)
    (found : s.2.lookup k = some i) : place key s a = (s.1.set i a, s.2) := by
  rw [place, keyed]
  simp only [found]

theorem place_fresh {s : List α × List (κ × Nat)} {a : α} {k : κ} (keyed : key a = some k)
    (fresh : s.2.lookup k = none) : place key s a = (s.1 ++ [a], (k, s.1.length) :: s.2) := by
  rw [place, keyed]
  simp only [fresh]

/-- What one more item adds. -/
theorem firsts_snoc (seen : List κ) (items : List α) (a : α) : firsts key seen (items ++ [a]) =
    firsts key seen items ++
      if ∃ k, key a = some k ∧ (k ∈ seen ∨ ∃ b ∈ items, key b = some k) then [] else [a] := by
  induction items generalizing seen with
  | nil =>
      cases keyed : key a with
      | none => simp [firsts, keyed]
      | some k => by_cases mem : k ∈ seen <;> simp [firsts, keyed, mem]
  | cons b rest ih =>
      rw [List.cons_append, firsts, firsts]
      cases keyed : key b with
      | none =>
          simp only [ih, List.cons_append, List.mem_cons, exists_eq_or_imp, keyed]
          simp
      | some j =>
          by_cases mem : j ∈ seen
          · simp only [if_pos mem, ih]
            congr 1
            refine if_congr ?_ rfl rfl
            refine exists_congr fun k => and_congr_right fun _ => ?_
            constructor
            · exact fun either => either.imp_right fun ⟨c, inside, same⟩ => ⟨c, List.mem_cons_of_mem _ inside, same⟩
            · rintro (before | ⟨c, inside, same⟩)
              · exact .inl before
              · rcases List.mem_cons.1 inside with rfl | inside
                · obtain rfl := Option.some.inj (keyed.symm.trans same)
                  exact .inl mem
                · exact .inr ⟨c, inside, same⟩
          · simp only [if_neg mem, ih, List.cons_append]
            congr 2
            refine if_congr ?_ rfl rfl
            refine exists_congr fun k => and_congr_right fun _ => ?_
            rw [List.mem_cons]
            constructor
            · rintro ((rfl | before) | ⟨c, inside, same⟩)
              · exact .inr ⟨b, List.mem_cons_self, keyed⟩
              · exact .inl before
              · exact .inr ⟨c, List.mem_cons_of_mem _ inside, same⟩
            · rintro (before | ⟨c, inside, same⟩)
              · exact .inl (.inr before)
              · rcases List.mem_cons.1 inside with rfl | inside
                · exact .inl (.inl (Option.some.inj (same.symm.trans keyed)))
                · exact .inr ⟨c, inside, same⟩

theorem mem_of_mem_firsts {seen : List κ} {items : List α} {a : α} (mem : a ∈ firsts key seen items) : a ∈ items := by
  induction items generalizing seen with
  | nil => cases mem
  | cons b rest ih =>
      rw [firsts] at mem
      split at mem
      · exact (List.mem_cons.1 mem).elim (· ▸ List.mem_cons_self) fun inside => List.mem_cons_of_mem _ (ih inside)
      · split at mem
        · exact List.mem_cons_of_mem _ (ih mem)
        · exact (List.mem_cons.1 mem).elim (· ▸ List.mem_cons_self) fun inside => List.mem_cons_of_mem _ (ih inside)

omit [DecidableEq κ] in
theorem bind_snoc (xs : List α) (a : α) (i : Nat) :
    (xs ++ [a])[i]?.bind key = if i = xs.length then key a else xs[i]?.bind key := by
  by_cases last : i = xs.length
  · subst last
    rw [if_pos rfl, List.getElem?_concat_length, Option.bind_some]
  · rw [if_neg last]
    by_cases before : i < xs.length
    · rw [List.getElem?_append_left before]
    · rw [List.getElem?_eq_none (Nat.not_lt.1 before), List.getElem?_eq_none]
      rw [List.length_append, List.length_singleton]
      omega

theorem Placed.none_at_end {s : List α × List (κ × Nat)} (placed : Placed key s) (k : κ) :
    s.2.lookup k ≠ some s.1.length := by
  rw [ne_eq, placed, List.getElem?_eq_none (Nat.le_refl _)]
  exact fun none_ => nomatch none_

theorem Placed.append {s : List α × List (κ × Nat)} (placed : Placed key s) {a : α} (keyless : key a = none) :
    Placed key (s.1 ++ [a], s.2) := by
  intro k i
  rw [bind_snoc]
  split
  next last =>
      rw [keyless]
      exact iff_of_false (last ▸ placed.none_at_end k) fun none_ => nomatch none_
  next => exact placed k i

theorem Placed.push {s : List α × List (κ × Nat)} (placed : Placed key s) {a : α} {k : κ} (keyed : key a = some k)
    (fresh : s.2.lookup k = none) : Placed key (s.1 ++ [a], (k, s.1.length) :: s.2) := by
  intro j i
  rw [bind_snoc, List.lookup_cons]
  by_cases last : i = s.1.length
  · rw [if_pos last]
    cases same : j == k with
    | true => exact iff_of_true (congrArg some last.symm) (eq_of_beq same ▸ keyed)
    | false =>
        refine iff_of_false (last ▸ placed.none_at_end j) fun other => ?_
        rw [Option.some.inj (other.symm.trans keyed), beq_self_eq_true] at same
        cases same
  · rw [if_neg last]
    cases same : j == k with
    | true =>
        refine iff_of_false (fun end_ => last (Option.some.inj end_).symm) fun there => ?_
        cases (eq_of_beq same ▸ fresh).symm.trans ((placed j i).2 there)
    | false => exact placed j i

theorem Placed.set {s : List α × List (κ × Nat)} (placed : Placed key s) {a : α} {k : κ} {i : Nat}
    (keyed : key a = some k) (found : s.2.lookup k = some i) : Placed key (s.1.set i a, s.2) := by
  intro j n
  have there := (placed k i).1 found
  have bound : i < s.1.length := by
    by_contra beyond
    rw [List.getElem?_eq_none (Nat.not_lt.1 beyond)] at there
    cases there
  rw [List.getElem?_set]
  split
  next here =>
      subst here
      rw [Option.bind_some, keyed, placed, there]
  next => exact placed j n

/-- The place of a key holds the only item with it. -/
theorem Placed.set_eq_map {s : List α × List (κ × Nat)} (placed : Placed key s) {a : α} {k : κ} {i : Nat}
    (found : s.2.lookup k = some i) : s.1.set i a = s.1.map fun b => if key b = some k then a else b := by
  refine List.ext_getElem? fun n => ?_
  rw [List.getElem?_set, List.getElem?_map]
  have there := (placed k i).1 found
  cases item : s.1[n]? with
  | none =>
      rw [List.getElem?_eq_none_iff] at item
      split
      next here => rw [if_neg (here ▸ Nat.not_lt.2 item)]; rfl
      next => rfl
  | some b =>
      have bound : n < s.1.length := List.getElem?_eq_some_iff.1 item |>.1
      rw [Option.map_some]
      split
      next here =>
          subst here
          rw [item, Option.bind_some] at there
          rw [if_pos bound, if_pos there]
      next other =>
          rw [if_neg fun keyed => other ?_]
          have again := (placed k n).2 (by rw [item, Option.bind_some, keyed])
          exact Option.some.inj (found.symm.trans again)

theorem Placed.mem_iff {s : List α × List (κ × Nat)} (placed : Placed key s) {k : κ} :
    (∃ b ∈ s.1, key b = some k) ↔ s.2.lookup k ≠ none := by
  rw [Option.ne_none_iff_exists']
  constructor
  · rintro ⟨b, mem, keyed⟩
    obtain ⟨i, item⟩ := List.mem_iff_getElem?.1 mem
    exact ⟨i, (placed k i).2 (by rw [item, Option.bind_some, keyed])⟩
  · rintro ⟨i, found⟩
    obtain ⟨b, item, keyed⟩ := Option.bind_eq_some_iff.1 ((placed k i).1 found)
    exact ⟨b, List.mem_of_getElem? item, keyed⟩

/-- No two items of the list have one key. -/
theorem Placed.nodup {s : List α × List (κ × Nat)} (placed : Placed key s) : (s.1.filterMap key).Nodup := by
  rw [List.Nodup, List.pairwise_filterMap, List.pairwise_iff_getElem]
  intro i j hi hj before k here l there same
  have first := (placed k i).2 (by rw [List.getElem?_eq_getElem hi, Option.bind_some, here])
  have second := (placed l j).2 (by rw [List.getElem?_eq_getElem hj, Option.bind_some, there])
  rw [← same, first] at second
  exact absurd (Option.some.inj second) (Nat.ne_of_lt before)

/-- The items without a key stay, in their order. -/
theorem filter_keyless (seen : List κ) (given items : List α) :
    ((firsts key seen items).map (latest key given)).filter (fun a => key a = none) =
      items.filter fun a => key a = none := by
  induction items generalizing seen with
  | nil => rfl
  | cons a rest ih =>
      rw [firsts]
      split
      next keyless =>
          have own : latest key given a = a := by rw [latest, keyless]
          rw [List.map_cons, own, List.filter_cons, List.filter_cons, ih, if_pos (decide_eq_true keyless)]
      next k keyed =>
          have loud : ¬ decide (key a = none) = true := by rw [keyed]; simp
          rw [List.filter_cons, if_neg loud]
          split
          · exact ih seen
          · rw [List.map_cons, List.filter_cons, if_neg, ih]
            rw [key_latest key]
            exact loud

/-- A key is placed just where an item had it. -/
theorem mem_keys {items : List α} {k : κ} :
    (∃ b ∈ firsts key [] items, key b = some k) ↔ ∃ b ∈ items, key b = some k := by
  induction items using List.reverseRecOn with
  | nil => rfl
  | append_singleton items a ih =>
      rw [firsts_snoc]
      constructor
      · rintro ⟨b, mem, keyed⟩
        rcases List.mem_append.1 mem with before | last
        · obtain ⟨c, inside, keyed⟩ := ih.1 ⟨b, before, keyed⟩
          exact ⟨c, List.mem_append_left _ inside, keyed⟩
        · split at last
          · cases last
          · exact ⟨b, List.mem_append_right _ last, keyed⟩
      · rintro ⟨b, mem, keyed⟩
        by_cases before : ∃ b ∈ items, key b = some k
        · obtain ⟨c, inside, keyed⟩ := ih.2 before
          exact ⟨c, List.mem_append_left _ inside, keyed⟩
        · have last : b ∈ [a] := (List.mem_append.1 mem).resolve_left fun inside => before ⟨b, inside, keyed⟩
          obtain rfl := List.mem_singleton.1 last
          refine ⟨b, List.mem_append_right _ ?_, keyed⟩
          rw [if_neg]
          · exact List.mem_singleton_self b
          · rintro ⟨j, keyed', seen | earlier⟩
            · cases seen
            · exact before (Option.some.inj (keyed'.symm.trans keyed) ▸ earlier)

/-- **The loop makes the first of each key, replaced by the last.** -/
theorem place_foldl (items : List α) :
    (items.foldl (place key) ([], [])).1 = (firsts key [] items).map (latest key items) ∧
      Placed key (items.foldl (place key) ([], [])) := by
  induction items using List.reverseRecOn with
  | nil => exact ⟨rfl, fun k i => by simp⟩
  | append_singleton items a ih =>
      obtain ⟨made, placed⟩ := ih
      rw [List.foldl_append, List.foldl_cons, List.foldl_nil, firsts_snoc, List.map_append]
      cases keyed : key a with
      | none =>
          -- Nothing that came before changes.
          have kept : (firsts key [] items).map (latest key (items ++ [a])) = (firsts key [] items).map (latest key items) := by
            refine List.map_congr_left fun b _ => ?_
            rw [latest_snoc, keyed]
            cases other : key b with
            | none => rw [if_pos rfl, latest, other]
            | some k => rfl
          have own : latest key (items ++ [a]) a = a := by rw [latest, keyed]
          rw [if_neg (fun ⟨k, same, _⟩ => nomatch same), kept, List.map_singleton, own, ← made,
            place_keyless keyed]
          exact ⟨rfl, placed.append keyed⟩
      | some k =>
          have own : latest key (items ++ [a]) a = a := by
            rw [latest_snoc, keyed, if_neg (Option.some_ne_none k), if_pos rfl]
          have known : (∃ b ∈ items, key b = some k) ↔ (items.foldl (place key) ([], [])).2.lookup k ≠ none := by
            rw [← placed.mem_iff, made, ← mem_keys]
            simp only [List.mem_map, exists_exists_and_eq_and, key_latest]
          have step : ∀ b, latest key (items ++ [a]) b =
              if key (latest key items b) = some k then a else latest key items b := by
            intro b
            rw [latest_snoc, key_latest key, keyed]
            cases other : key b with
            | none => rw [if_pos rfl, if_neg (fun none_ => nomatch none_), latest, other]
            | some j => rw [if_neg (Option.some_ne_none j), if_congr eq_comm rfl rfl]
          cases found : (items.foldl (place key) ([], [])).2.lookup k with
          | some i =>
              rw [if_pos ⟨k, rfl, .inr (known.2 (found ▸ Option.some_ne_none i))⟩, List.map_nil, List.append_nil,
                List.map_congr_left fun b _ => step b]
              have replaced := placed.set_eq_map (a := a) found
              rw [place_known keyed found]
              refine ⟨replaced.trans ?_, placed.set keyed found⟩
              rw [made, List.map_map]
              rfl
          | none =>
              have fresh : ∀ b ∈ items, key b ≠ some k := fun b mem same => known.1 ⟨b, mem, same⟩ found
              have kept : (firsts key [] items).map (latest key (items ++ [a])) =
                  (firsts key [] items).map (latest key items) := by
                refine List.map_congr_left fun b mem => ?_
                rw [step, key_latest key, if_neg (fresh b (mem_of_mem_firsts mem))]
              rw [if_neg, kept, List.map_singleton, own, ← made]
              · rw [place_fresh keyed found]
                exact ⟨rfl, placed.push keyed found⟩
              · rintro ⟨j, same, seen | ⟨b, mem, keyed'⟩⟩
                · cases seen
                · exact fresh b mem (same ▸ keyed')

end ApiSecurityPlatform.Theory.Upsert
