/-
# Theory.Source -- reading an iterator up to a limit

An iterator yields one item after another, for ever or up to its end.  A loop that counts the
items and raises at one too many reads at most that one (`drain`), so it succeeds just where
the iterator is a short list and the loop over that list does (`drain_ok`).  Such a loop most
often keeps what passes a check and refuses a key it has seen (`distinct_ok`).
-/
import ApiSecurityPlatform.Theory.Fallible
import Mathlib.Data.List.Forall2
import Mathlib.Data.List.Nodup

namespace ApiSecurityPlatform.Theory

set_option autoImplicit false

variable {ε α : Type}

/-- `[f(item) for item in items]`. -/
theorem mapM_ok {β : Type} {f : α → Except ε β} {items : List α} {results : List β} :
    items.mapM f = .ok results ↔ List.Forall₂ (fun item b => f item = .ok b) items results := by
  induction items generalizing results with
  | nil =>
      rw [List.mapM_nil, List.forall₂_nil_left_iff]
      exact ⟨fun done => (Except.ok.inj done).symm, fun done => done ▸ rfl⟩
  | cons item items ih =>
      rw [List.mapM_cons, bind_ok, List.forall₂_cons_left_iff]
      constructor
      · rintro ⟨b, first, done⟩
        rw [bind_ok] at done
        obtain ⟨others, each, done⟩ := done
        exact ⟨b, others, first, ih.1 each, (Except.ok.inj done).symm⟩
      · rintro ⟨b, others, first, each, rfl⟩
        refine ⟨b, first, ?_⟩
        rw [bind_ok]
        exact ⟨others, ih.2 each, rfl⟩

theorem forall₂_trans {β γ : Type} {P : α → β → Prop} {Q : β → γ → Prop} {xs : List α} {ys : List β} {zs : List γ}
    (first : List.Forall₂ P xs ys) (second : List.Forall₂ Q ys zs) :
    List.Forall₂ (fun x z => ∃ y, P x y ∧ Q y z) xs zs := by
  induction first generalizing zs with
  | nil =>
      cases second
      exact .nil
  | cons here _ ih =>
      cases second with
      | cons there others => exact .cons ⟨_, here, there⟩ (ih others)

/-- A third list beside two that stand together. -/
theorem forall₂_zip_left {β γ : Type} {P : α → β → Prop} {Q : β × α → γ → Prop} {xs : List α} {ys : List β} {zs : List γ}
    (first : List.Forall₂ P xs ys) (second : List.Forall₂ Q (ys.zip xs) zs) :
    List.Forall₂ (fun x z => ∃ y, P x y ∧ Q (y, x) z) xs zs := by
  induction first generalizing zs with
  | nil =>
      cases second
      exact .nil
  | cons here _ ih =>
      cases second with
      | cons there others => exact .cons ⟨_, here, there⟩ (ih others)

theorem forall₂_right {β : Type} {P : α → β → Prop} {xs : List α} {ys : List β} (each : List.Forall₂ P xs ys) :
    ∀ y ∈ ys, ∃ x ∈ xs, P x y := by
  induction each with
  | nil => exact fun y mem => nomatch mem
  | cons here _ ih =>
      intro y mem
      rcases List.mem_cons.1 mem with rfl | inside
      · exact ⟨_, List.mem_cons_self, here⟩
      · obtain ⟨x, inside, there⟩ := ih y inside
        exact ⟨x, List.mem_cons_of_mem _ inside, there⟩

theorem exists_forall₂ {β : Type} {P : α → β → Prop} {xs : List α} (each : ∀ x ∈ xs, ∃ y, P x y) :
    ∃ ys, List.Forall₂ P xs ys := by
  induction xs with
  | nil => exact ⟨[], .nil⟩
  | cons x xs ih =>
      obtain ⟨⟨y, here⟩, others⟩ := List.forall_mem_cons.1 each
      obtain ⟨ys, there⟩ := ih others
      exact ⟨y :: ys, .cons here there⟩

/-- Results of different items differ, so no two are the same. -/
theorem nodup_of_apart {β γ : Type} {P : α → β → Prop} {g : β → γ} {xs : List α} {ys : List β}
    (each : List.Forall₂ P xs ys) (distinct : xs.Nodup)
    (apart : ∀ x ∈ xs, ∀ x' ∈ xs, x ≠ x' → ∀ y y', P x y → P x' y' → g y ≠ g y') : (ys.map g).Nodup := by
  induction each with
  | nil => exact List.nodup_nil
  | cons here others ih =>
      obtain ⟨other, distinct⟩ := List.nodup_cons.1 distinct
      refine List.nodup_cons.2 ⟨fun mem => ?_, ih distinct fun x mem x' mem' => apart x (List.mem_cons_of_mem _ mem) x'
        (List.mem_cons_of_mem _ mem')⟩
      obtain ⟨y', inside, same⟩ := List.mem_map.1 mem
      obtain ⟨x', inside, there⟩ := forall₂_right others y' inside
      exact apart _ List.mem_cons_self x' (List.mem_cons_of_mem _ inside) (fun equal => other (equal ▸ inside)) _ _ here
        there same.symm

theorem apart_of_nodup {β γ : Type} {P : α → β → Prop} {g : β → γ} {xs : List α} {ys : List β}
    (each : List.Forall₂ P xs ys) (nodup : (ys.map g).Nodup) {x x' : α} (mem : x ∈ xs) (mem' : x' ∈ xs) (differ : x ≠ x') :
    ∃ y y', P x y ∧ P x' y' ∧ g y ≠ g y' := by
  induction each with
  | nil => cases mem
  | cons here others ih =>
      obtain ⟨other, nodup⟩ := List.nodup_cons.1 nodup
      rcases List.mem_cons.1 mem with rfl | inside
      · have inside' := (List.mem_cons.1 mem').resolve_left (differ ·.symm)
        obtain ⟨y', there', holds'⟩ := forall₂_right others.flip _ inside'
        exact ⟨_, y', here, holds', fun same => other (List.mem_map.2 ⟨y', there', same.symm⟩)⟩
      · rcases List.mem_cons.1 mem' with rfl | inside'
        · obtain ⟨y, there, holds⟩ := forall₂_right others.flip _ inside
          exact ⟨y, _, holds, here, fun same => other (List.mem_map.2 ⟨y, there, same⟩)⟩
        · exact ih nodup inside inside'

/-- What an iterator yields; nothing counts after the first `none`. -/
abbrev Source (α : Type) := Nat → Option α

namespace Source

def rest (source : Source α) : Source α := fun i => source (i + 1)

/-- The items are all that the iterator yields. -/
def Lists (source : Source α) : List α → Prop
  | [] => source 0 = none
  | item :: items => source 0 = some item ∧ source.rest.Lists items

theorem Lists.unique {source : Source α} {xs ys : List α} (lists : source.Lists xs) (others : source.Lists ys) : xs = ys := by
  induction xs generalizing source ys with
  | nil =>
      cases ys with
      | nil => rfl
      | cons y ys => cases lists.symm.trans others.1
  | cons x xs ih =>
      cases ys with
      | nil => cases lists.1.symm.trans others
      | cons y ys =>
          obtain rfl := Option.some.inj (lists.1.symm.trans others.1)
          rw [ih lists.2 others.2]

def of (items : List α) : Source α := fun i => items[i]?

theorem lists_of (items : List α) : (of items).Lists items := by
  induction items with
  | nil => rfl
  | cons item items ih => exact ⟨rfl, ih⟩

section Loop

variable {σ : Type} (step : σ → α → Except ε σ) (beyond : ε)

/-- `for index, item in enumerate(source): if index == limit: raise over`, then `step`. -/
def drain : Nat → Source α → σ → Except ε σ
  | left, source, s =>
      match source 0, left with
      | none, _ => .ok s
      | some _, 0 => .error beyond
      | some item, left + 1 => do
          let s' ← step s item
          drain left source.rest s'

variable {step beyond}

theorem drain_ok {limit : Nat} {source : Source α} {s s' : σ} :
    drain step beyond limit source s = .ok s' ↔
      ∃ items, source.Lists items ∧ items.length ≤ limit ∧ items.foldlM step s = .ok s' := by
  induction limit generalizing source s with
  | zero =>
      unfold drain
      cases yielded : source 0 with
      | none =>
          constructor
          · intro done
            exact ⟨[], yielded, Nat.le_refl _, done⟩
          · rintro ⟨items, lists, short, done⟩
            obtain rfl : items = [] := List.length_eq_zero_iff.1 (Nat.le_zero.1 short)
            exact done
      | some item =>
          constructor
          · intro done
            cases done
          · rintro ⟨items, lists, short, done⟩
            obtain rfl : items = [] := List.length_eq_zero_iff.1 (Nat.le_zero.1 short)
            cases yielded.symm.trans lists
  | succ left ih =>
      unfold drain
      cases yielded : source 0 with
      | none =>
          constructor
          · intro done
            exact ⟨[], yielded, Nat.zero_le _, done⟩
          · rintro ⟨items, lists, short, done⟩
            cases items with
            | nil => exact done
            | cons item items => cases yielded.symm.trans lists.1
      | some item =>
          show (step s item >>= fun s' => drain step beyond left source.rest s') = .ok s' ↔ _
          rw [bind_ok]
          constructor
          · rintro ⟨s₁, first, done⟩
            obtain ⟨items, lists, short, others⟩ := ih.1 done
            refine ⟨item :: items, ⟨yielded, lists⟩, Nat.succ_le_succ short, ?_⟩
            rw [List.foldlM_cons, bind_ok]
            exact ⟨s₁, first, others⟩
          · rintro ⟨items, lists, short, done⟩
            cases items with
            | nil => cases yielded.symm.trans lists
            | cons item' items =>
                obtain rfl := Option.some.inj (yielded.symm.trans lists.1)
                rw [List.foldlM_cons, bind_ok] at done
                obtain ⟨s₁, first, others⟩ := done
                exact ⟨s₁, first, ih.2 ⟨items, lists.2, Nat.le_of_succ_le_succ short, others⟩⟩

end Loop

/-! ## Items with distinct keys -/

section Distinct

variable {β κ γ : Type} [DecidableEq κ] (check : α → Except ε β) (key : β → κ) (emit : β → List γ) (again : ε)

/-- One pass: the item is checked, its key is new, and what it gives is put at the end. -/
def distinct (s : List κ × List γ) (item : α) : Except ε (List κ × List γ) := do
  let b ← check item
  refuse (key b ∈ s.1) again
  return (key b :: s.1, s.2 ++ emit b)

variable {check key emit again}

theorem distinct_ok {items : List α} {s s' : List κ × List γ} :
    items.foldlM (distinct check key emit again) s = .ok s' ↔
      ∃ kept : List β, List.Forall₂ (fun item b => check item = .ok b) items kept ∧
        (kept.map key).Nodup ∧ (∀ b ∈ kept, key b ∉ s.1) ∧
        s' = ((kept.map key).reverse ++ s.1, s.2 ++ kept.flatMap emit) := by
  induction items generalizing s with
  | nil =>
      constructor
      · intro done
        obtain rfl := Except.ok.inj done
        exact ⟨[], .nil, List.nodup_nil, (fun _ mem => nomatch mem), by simp⟩
      · rintro ⟨kept, each, -, -, rfl⟩
        cases each
        simp [pure, Except.pure]
  | cons item items ih =>
      rw [List.foldlM_cons, bind_ok]
      constructor
      · rintro ⟨s₁, first, done⟩
        rw [distinct, bind_ok] at first
        obtain ⟨b, checked, first⟩ := first
        rw [seq_ok, refuse_ok] at first
        obtain ⟨fresh, first⟩ := first
        obtain rfl := Except.ok.inj first
        obtain ⟨kept, each, nodup, unseen, rfl⟩ := ih.1 done
        refine ⟨b :: kept, .cons checked each, ?_, ?_, by simp⟩
        · refine List.nodup_cons.2 ⟨fun mem => ?_, nodup⟩
          obtain ⟨c, inside, same⟩ := List.mem_map.1 mem
          exact unseen c inside (same ▸ List.mem_cons_self)
        · intro c mem
          rcases List.mem_cons.1 mem with rfl | inside
          · exact fresh
          · exact fun seen => unseen c inside (List.mem_cons_of_mem _ seen)
      · rintro ⟨kept, each, nodup, unseen, rfl⟩
        cases each with
        | cons checked each =>
            rename_i b kept
            obtain ⟨other, nodup⟩ := List.nodup_cons.1 nodup
            refine ⟨(key b :: s.1, s.2 ++ emit b), ?_, ih.2 ⟨kept, each, nodup, ?_, by simp⟩⟩
            · rw [distinct, bind_ok]
              refine ⟨b, checked, ?_⟩
              rw [seq_ok, refuse_ok]
              exact ⟨unseen b List.mem_cons_self, rfl⟩
            · intro c mem seen
              rcases List.mem_cons.1 seen with same | seen
              · exact other (List.mem_map.2 ⟨c, mem, same⟩)
              · exact unseen c (List.mem_cons_of_mem _ mem) seen

end Distinct

end Source

end ApiSecurityPlatform.Theory
