/-
# Theory.Walk -- following links with a list of what was seen

`walk` goes from node to node: `next` names the key a node links to and `visit` reads the node
at a key, or refuses it.  It stops with true where the links end, and with false at a key it
has seen before, after `limit` keys, or where `visit` refuses.  It ends on every graph.

* `Trail`: the finite list of what lies behind a node;
* `walk_true_iff`: the walk answers true exactly when there is a trail of at most `limit` keys.
-/
import Mathlib.Data.List.Nodup

namespace ApiSecurityPlatform.Theory

set_option autoImplicit false

universe u v w

variable {ε : Type u} {κ : Type v} {α : Type w}

def walk [DecidableEq κ] (next : α → Option κ) (visit : κ → Except ε (Option α)) (limit : Nat) (seen : List κ)
    (a : α) : Except ε Bool :=
  match next a with
  | none => .ok true
  | some k =>
      if k ∈ seen ∨ limit ≤ seen.length then .ok false
      else
        match visit k with
        | .error e => .error e
        | .ok none => .ok false
        | .ok (some b) => walk next visit limit (k :: seen) b
termination_by limit - seen.length

/-- The keys behind a node and the nodes at them, up to a node that links to nothing. -/
inductive Trail (next : α → Option κ) (visit : κ → Except ε (Option α)) : α → List (κ × α) → Prop where
  | stop {a : α} (last : next a = none) : Trail next visit a []
  | step {a b : α} {k : κ} {rest : List (κ × α)} (link : next a = some k) (found : visit k = .ok (some b))
      (behind : Trail next visit b rest) : Trail next visit a ((k, b) :: rest)

variable {next : α → Option κ} {visit : κ → Except ε (Option α)} {limit : Nat} {a b : α} {k : κ}

namespace Trail

theorem unique {l m : List (κ × α)} (first : Trail next visit a l) (second : Trail next visit a m) : l = m := by
  induction first generalizing m with
  | stop last =>
      cases second with
      | stop => rfl
      | step link => nomatch last.symm.trans link
  | step link found _ ih =>
      cases second with
      | stop last => nomatch last.symm.trans link
      | step link' found' behind' =>
          obtain rfl := Option.some.inj (link.symm.trans link')
          obtain rfl := Option.some.inj (Except.ok.inj (found.symm.trans found'))
          rw [ih behind']

/-- What lies behind a node of a trail is the rest of the trail. -/
theorem behind {front back : List (κ × α)} (trail : Trail next visit a (front ++ (k, b) :: back)) :
    visit k = .ok (some b) ∧ Trail next visit b back := by
  induction front generalizing a with
  | nil =>
      cases trail with
      | step _ found behind => exact ⟨found, behind⟩
  | cons _ _ ih =>
      cases trail with
      | step _ _ behind => exact ih behind

/-- A trail comes to an end, so it meets no key twice. -/
theorem nodup {l : List (κ × α)} (trail : Trail next visit a l) : (l.map Prod.fst).Nodup := by
  induction trail with
  | stop => exact List.nodup_nil
  | @step _ b k rest _ found behind ih =>
      refine List.nodup_cons.2 ⟨fun again => ?_, ih⟩
      obtain ⟨⟨_, b'⟩, member, rfl⟩ := List.mem_map.1 again
      obtain ⟨front, back, rfl⟩ := List.append_of_mem member
      obtain ⟨found', later⟩ := behind.behind
      obtain rfl := Option.some.inj (Except.ok.inj (found.symm.trans found'))
      have same := congrArg List.length (behind.unique later)
      simp only [List.length_append, List.length_cons] at same
      omega

end Trail

/-- A trail through fewer nodes is a trail all of whose keys pass. -/
theorem trail_filter_iff {pass : κ → α → Prop} {only : κ → Except ε (Option α)}
    (visits : ∀ k b, only k = .ok (some b) ↔ visit k = .ok (some b) ∧ pass k b) {l : List (κ × α)} :
    Trail next only a l ↔ Trail next visit a l ∧ ∀ step ∈ l, pass step.1 step.2 := by
  constructor
  · intro trail
    induction trail with
    | stop last => exact ⟨.stop last, fun _ member => (nomatch member)⟩
    | step link found _ ih =>
        obtain ⟨there, passes⟩ := (visits _ _).1 found
        exact ⟨.step link there ih.1, List.forall_mem_cons.2 ⟨passes, ih.2⟩⟩
  · rintro ⟨trail, passes⟩
    induction trail with
    | stop last => exact .stop last
    | step link found _ ih =>
        obtain ⟨first, rest⟩ := List.forall_mem_cons.1 passes
        exact .step link ((visits _ _).2 ⟨found, first⟩) (ih rest)

variable [DecidableEq κ]

theorem trail_of_walk {seen : List κ} (room : seen.length ≤ limit) (walked : walk next visit limit seen a = .ok true) :
    ∃ l, Trail next visit a l ∧ (∀ k ∈ l.map Prod.fst, k ∉ seen) ∧ seen.length + l.length ≤ limit := by
  fun_induction walk next visit limit seen a with
  | case1 _ _ last => exact ⟨[], .stop last, fun _ member => (nomatch member), room⟩
  | case2 => nomatch walked
  | case3 => nomatch walked
  | case4 => nomatch walked
  | case5 seen a k link fresh b found ih =>
      rw [not_or, Nat.not_le] at fresh
      obtain ⟨l, trail, unseen, within⟩ := ih fresh.2 walked
      refine ⟨(k, b) :: l, .step link found trail, ?_, by simp only [List.length_cons] at within ⊢; omega⟩
      rintro j (_ | ⟨_, member⟩)
      · exact fresh.1
      · exact fun old => unseen j member (List.mem_cons_of_mem _ old)

theorem walk_of_trail {l : List (κ × α)} (trail : Trail next visit a l) {seen : List κ}
    (unseen : ∀ k ∈ l.map Prod.fst, k ∉ seen) (within : seen.length + l.length ≤ limit) :
    walk next visit limit seen a = .ok true := by
  induction trail generalizing seen with
  | stop last =>
      rw [walk]
      split
      · rfl
      · rename_i link
        nomatch last.symm.trans link
  | @step a b k rest link found behind ih =>
      have first : k ∉ seen := unseen k List.mem_cons_self
      have fresh : ¬ (k ∈ seen ∨ limit ≤ seen.length) := by
        rw [List.length_cons] at within
        rintro (old | full)
        · exact first old
        · omega
      have later : walk next visit limit (k :: seen) b = .ok true := by
        refine ih (fun j member old => ?_) (by rw [List.length_cons] at within ⊢; omega)
        rcases List.mem_cons.1 old with rfl | old
        · exact (List.nodup_cons.1 (Trail.step link found behind).nodup).1 member
        · exact unseen j (List.mem_cons_of_mem _ member) old
      rw [walk]
      simp only [link, found, if_neg fresh]
      exact later

theorem walk_true_iff : walk next visit limit [] a = .ok true ↔ ∃ l, Trail next visit a l ∧ l.length ≤ limit := by
  constructor
  · intro walked
    obtain ⟨l, trail, -, within⟩ := trail_of_walk (Nat.zero_le _) walked
    exact ⟨l, trail, by simpa using within⟩
  · rintro ⟨l, trail, within⟩
    exact walk_of_trail trail (fun _ _ old => (nomatch old)) (by simpa using within)

end ApiSecurityPlatform.Theory
