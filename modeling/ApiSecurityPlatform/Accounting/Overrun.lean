/-
# Accounting.Overrun -- what a call costs, and what it was to cost

`actual` prices four kinds of tokens in tenths of a micro-dollar and rounds up once.  Within
the limits of a request the price is below the smallest reserve, so the first settlement of a
call overruns nothing (`Backed`).  A later one may: what the first settlement refunded is no
longer held (`resettled_overrun`).
-/
import ApiSecurityPlatform.Accounting.Liability
import ApiSecurityPlatform.Ports.Usage
import Mathlib.Data.Rat.Floor

namespace ApiSecurityPlatform.Accounting

open ApiSecurityPlatform.Theory
open ApiSecurityPlatform.Python
open ApiSecurityPlatform.Proposals (Floats halfFloats)

set_option autoImplicit false

/-! ## The price -/

namespace KnownUsage

/-- Micro-dollars: 2 for an input token, 0.2 for a cached one, 2.5 for one written to the
cache, 12 for an output token. -/
def exactCost (u : KnownUsage) : ℚ :=
  2 * ((u.inputTokens : ℚ) - u.cachedInputTokens - u.cacheWriteTokens) + 1 / 5 * u.cachedInputTokens +
    5 / 2 * u.cacheWriteTokens + 12 * u.outputTokens

theorem cost_ceil (u : KnownUsage) : u.cost = ⌈u.exactCost⌉ := by
  refine (Int.ceil_eq_iff.2 ?_).symm
  have low := Int.mul_ediv_self_le (x := 20 * ((u.inputTokens : Int) - u.cachedInputTokens - u.cacheWriteTokens) +
    2 * u.cachedInputTokens + 25 * u.cacheWriteTokens + 120 * u.outputTokens + 9) (by decide : (10 : Int) ≠ 0)
  have high := Int.lt_mul_ediv_self_add (x := 20 * ((u.inputTokens : Int) - u.cachedInputTokens - u.cacheWriteTokens) +
    2 * u.cachedInputTokens + 25 * u.cacheWriteTokens + 120 * u.outputTokens + 9) (by decide : (0 : Int) < 10)
  have cost : (20 * ((u.inputTokens : Int) - u.cachedInputTokens - u.cacheWriteTokens) +
    2 * u.cachedInputTokens + 25 * u.cacheWriteTokens + 120 * u.outputTokens + 9) / 10 = u.cost := rfl
  rw [cost] at low high
  have low' : (10 * u.cost : ℚ) ≤ 20 * ((u.inputTokens : ℚ) - u.cachedInputTokens - u.cacheWriteTokens) +
    2 * u.cachedInputTokens + 25 * u.cacheWriteTokens + 120 * u.outputTokens + 9 := by exact_mod_cast low
  have high' : 20 * ((u.inputTokens : ℚ) - u.cachedInputTokens - u.cacheWriteTokens) + 2 * u.cachedInputTokens +
    25 * u.cacheWriteTokens + 120 * u.outputTokens + 10 ≤ 10 * u.cost + 10 := by
      have step : 20 * ((u.inputTokens : Int) - u.cachedInputTokens - u.cacheWriteTokens) + 2 * u.cachedInputTokens +
        25 * u.cacheWriteTokens + 120 * u.outputTokens + 10 ≤ 10 * u.cost + 10 := by omega
      exact_mod_cast step
  unfold exactCost
  constructor <;> linarith

theorem cost_mono {u u' : KnownUsage} (input : u.inputTokens = u'.inputTokens)
    (cached : u.cachedInputTokens = u'.cachedInputTokens) (written : u.cacheWriteTokens = u'.cacheWriteTokens)
    (output : u.outputTokens ≤ u'.outputTokens) : u.cost ≤ u'.cost := by
  unfold cost
  rw [input, cached, written]
  omega

/-- What one request may use. -/
def Limited (u : KnownUsage) : Prop := u.inputTokens ≤ 4096 ∧ u.outputTokens ≤ 1024

theorem Limited.cost {u : KnownUsage} (limited : u.Limited) : u.totalTokens ≤ 5120 ∧ u.cost ≤ 22528 := by
  obtain ⟨input, output⟩ := limited
  have cached := u.cached_le
  unfold totalTokens KnownUsage.cost
  constructor <;> omega

theorem Limited.actual {u : KnownUsage} (limited : u.Limited) :
    Accounting.actual (.known u) = .ok (amount u.totalTokens u.cost) ∧
      ∀ d, amount u.totalTokens u.cost d ≤ minimumReserved d := by
  obtain ⟨tokens, cost⟩ := limited.cost
  refine ⟨if_pos (cost.trans (by decide)), fun d => ?_⟩
  cases d with
  | tokens => exact tokens
  | microusd => exact cost

end KnownUsage

/-! ## Records -/

section Records

variable {F : Type} (D : Floats F) (U : Ports.Decimals)

theorem typed_n {v : Json F} (typed : Ports.Typed D U .n v) : ∃ n, v = .number (.int n) ∧ Ports.inRange n := by
  cases typed with
  | leaf admitted =>
      cases v with
      | number n =>
          cases n with
          | int n =>
              have inside := Except.ok.inj admitted
              rw [Bool.and_eq_true, decide_eq_true_eq, decide_eq_true_eq] at inside
              exact ⟨n, rfl, inside⟩
          | float f => cases admitted
      | null => cases admitted
      | bool b => cases admitted
      | string s => cases admitted
      | array items => cases admitted
      | object members => cases admitted

theorem typed_count {v : Json F} (typed : Ports.Typed D U (.nullable .n) v) :
    v.isNull = true ∨ ∃ n, v = .number (.int n) ∧ Ports.inRange n := by
  cases typed with
  | null => exact .inl rfl
  | present inner => exact .inr (typed_n D U inner)

/-- The counts of a known `UsageView`. -/
structure KnownUsage.Reads (u : KnownUsage) (members : List (Str × Json F)) : Prop where
  input : (u.inputTokens : Int) = (Json.get members "input_tokens".toList).asInt
  output : (u.outputTokens : Int) = (Json.get members "output_tokens".toList).asInt
  cached : (u.cachedInputTokens : Int) = (Json.get members "cached_input_tokens".toList).asInt
  written : (u.cacheWriteTokens : Int) = (Json.get members "cache_write_tokens".toList).asInt
  reasoning : Json.get members "reasoning_tokens".toList =
    u.reasoningTokens.elim .null fun n => .number (.int n)
  total : u.totalTokens = (Json.get members "total_tokens".toList).asInt

theorem rules_ok {name : Ports.Name} {has : String → Bool} {get : String → Json F}
    (related : Ports.rules U name has get = .ok ()) :
    (name = .reservation ∨ name = .bindingCore → 5120 ≤ (get "reserved_tokens").asInt ∧
      22528 ≤ (get "reserved_microusd").asInt) ∧ (name = .usageView → Ports.usageRule get) := by
  simp only [Ports.rules, seq_ok, Ports.require_ok] at related
  obtain ⟨-, -, -, reserve, usage, -⟩ := related
  exact ⟨reserve, usage⟩

/-- A known view that validates has counts that add up. -/
theorem known_of_view {members : List (Str × Json F)}
    (valid : Ports.validate D U (.of .usageView) (.object members) = .ok ())
    (known : Json.get members "state".toList = .string "known".toList) : ∃ u : KnownUsage, u.Reads members := by
  have typed := (Ports.validate_iff D U _ _).1 valid
  cases typed with
  | record format known_ all each related =>
      have rule := (rules_ok U related).2 rfl
      unfold Ports.usageRule at rule
      have state : Ports.isText (Json.get members "state".toList) "known" = true := by
        rw [known]
        exact beq_self_eq_true _
      rw [if_pos state] at rule
      dsimp only at rule
      obtain ⟨some_, cached, sum, reasoning⟩ := rule
      simp only [List.all_cons, List.all_nil, Bool.and_true, Bool.and_eq_true, Bool.not_eq_true'] at some_
      have count {v : Json F} (typed : Ports.Typed D U (.nullable .n) v) (present : v.isNull = false) :
          ∃ n : Nat, v = .number (.int n) ∧ (n : Int) ≤ maxN := by
        rcases typed_count D U typed with null | ⟨n, rfl, low, high⟩
        · rw [null] at present
          cases present
        · exact ⟨n.toNat, by rw [Int.toNat_of_nonneg low], by rw [Int.toNat_of_nonneg low]; exact high⟩
      simp only [List.forall_mem_cons] at each
      obtain ⟨-, input, output, read, written, thought, whole, -⟩ := each
      obtain ⟨some_, none_, others⟩ := some_
      obtain ⟨i, atInput, -⟩ := count input some_
      obtain ⟨o, atOutput, -⟩ := count output none_
      obtain ⟨c, atCached, -⟩ := count read others.1
      obtain ⟨w, atWritten, -⟩ := count written others.2.1
      obtain ⟨total, atTotal, fits⟩ := count whole others.2.2
      dsimp only [Ports.Layout.field] at atInput atOutput atCached atWritten atTotal
      rw [atInput, atCached, atWritten] at cached
      rw [atInput, atOutput, atTotal] at sum
      have cached' : c + w ≤ i := Int.ofNat_le.1 cached
      have sum' : i + o = total := Int.ofNat.inj sum
      have bound : ((i + o : Nat) : Int) ≤ maxN := sum' ▸ fits
      rcases typed_count D U thought with null | ⟨r, atReasoning, low, -⟩
      · refine ⟨⟨i, o, c, w, none, cached', bound, fun r mem => nomatch mem⟩, ?_⟩
        refine ⟨by rw [atInput]; rfl, by rw [atOutput]; rfl, by rw [atCached]; rfl, by rw [atWritten]; rfl,
          Ports.isNull_iff.1 null, ?_⟩
        rw [atTotal]
        exact sum
      · have nonNull : (Json.get members "reasoning_tokens".toList).isNull ≠ true := by
          rw [show Json.get members "reasoning_tokens".toList = _ from atReasoning]
          exact Bool.false_ne_true
        have small := reasoning.resolve_left nonNull
        rw [show Json.get members "reasoning_tokens".toList = _ from atReasoning, atOutput] at small
        refine ⟨⟨i, o, c, w, some r.toNat, cached', bound, fun n mem => ?_⟩, ?_⟩
        · obtain rfl := Option.some.inj mem
          exact Int.toNat_le.2 small
        · refine ⟨by rw [atInput]; rfl, by rw [atOutput]; rfl, by rw [atCached]; rfl, by rw [atWritten]; rfl, ?_, ?_⟩
          · show Json.get members "reasoning_tokens".toList = .number (.int (r.toNat : Int))
            rw [Int.toNat_of_nonneg low]
            exact atReasoning
          · rw [atTotal]
            exact sum

/-- A valid `Reservation` or `BindingCore` reserves the minimum. -/
theorem reserved_minimum {name : Ports.Name} {members : List (Str × Json F)}
    (reserves : name = .reservation ∨ name = .bindingCore)
    (valid : Ports.validate D U (.of name) (.object members) = .ok ()) :
    5120 ≤ (Json.get members "reserved_tokens".toList).asInt ∧
      22528 ≤ (Json.get members "reserved_microusd".toList).asInt := by
  rcases reserves with rfl | rfl
  · have typed := (Ports.validate_iff D U _ _).1 valid
    cases typed with
    | record format known_ all each related => exact (rules_ok U related).1 (.inl rfl)
  · have typed := (Ports.validate_iff D U _ _).1 valid
    cases typed with
    | record format known_ all each related => exact (rules_ok U related).1 (.inr rfl)

end Records

/-! ## The first settlement -/

variable {H : Hashes}

/-- A settlement that overruns no more than it settles above the reserve. -/
def Settlement.Backed (s : Settlement) (receipt : Receipt) : Prop :=
  ∀ d, s.overrun d ≤ max (s.settled d - receipt.reserved d) 0

/-- Until a call is settled, its reserve is held. -/
def Reservation.Unspent (row : Reservation) : Prop :=
  row.revision = 0 → ∀ d, row.actual d = 0 ∧ row.receipt.reserved d ≤ row.held d

/-- What a transaction that found the tables `base` has kept of that. -/
structure Txn.Backed (base : Db) (t : Txn) : Prop where
  unspent : t.row.Unspent
  own : ∀ s ∈ t.db.settlements, s.key = t.key → s.revision = 1 → s.Backed t.row.receipt
  others : ∀ s ∈ t.db.settlements, s.key ≠ t.key → s ∈ base.settlements

/-- A move that settles nothing. -/
theorem Txn.Backed.firm {base : Db} {t t' : Txn} (backed : t.Backed base) (firm : t.Firm t') (key : t'.key = t.key)
    (settlements : t'.db.settlements = t.db.settlements) (revision : t'.row.revision = t.row.revision) :
    t'.Backed base where
  unspent none_ d := by
    rw [revision] at none_
    rw [firm.actual, firm.receipt]
    exact ⟨(backed.unspent none_ d).1, (backed.unspent none_ d).2.trans (firm.held d)⟩
  own := by
    rw [settlements, key, firm.receipt]
    exact backed.own
  others := by
    rw [settlements, key]
    exact backed.others

theorem Move.backed {uuid : Uuids} {base : Db} {t t' : Txn} (move : Move H uuid t t') (backed : t.Backed base) :
    t'.Backed base := by
  cases move with
  | event written =>
      refine backed.firm (.event written) ?_ ?_ ?_ <;>
        obtain ⟨draws, rfl⟩ | ⟨eid, draws, -, -, rfl⟩ := Txn.event_cases written <;> rfl
  | note | close => exact ⟨backed.unspent, backed.own, backed.others⟩
  | @freeze kept state unsettled =>
      obtain ⟨⟨held, row⟩, settlements, -, -⟩ := t.retains_row kept
      refine backed.firm (.freeze t kept unsettled) (t.retains_fixed kept).1 settlements ?_
      rw [Txn.pause_row, row]
  | @settle _ event value record paid fits done =>
      obtain ⟨shape, -, -, key, -, -, row, -, -, settlements, -⟩ := Txn.settle_ok done
      have recordKey : record.key = t.key := by rw [shape]; rfl
      refine ⟨?_, ?_, ?_⟩
      · rw [row]
        exact fun none_ => nomatch none_
      · rw [settlements, key, row]
        intro s mem same first
        rcases List.mem_append.1 mem with old | new
        · exact backed.own s old same first
        · obtain rfl := List.mem_singleton.1 new
          rw [shape] at first ⊢
          intro d
          obtain ⟨zero, reserve⟩ := backed.unspent (Nat.succ.inj first) d
          show max (value d - t.row.actual d - t.row.held d) 0 ≤ max (value d - t.row.receipt.reserved d) 0
          exact max_le_max (by omega) le_rfl
      · rw [settlements, key]
        intro s mem other
        rcases List.mem_append.1 mem with old | new
        · exact backed.others s old other
        · exact (other (List.mem_singleton.1 new ▸ recordKey)).elim

/-- The same over the tables. -/
structure Backed (db : Db) : Prop where
  unspent : ∀ k row, db.Holds k row → row.Unspent
  own : ∀ s ∈ db.settlements, s.revision = 1 → ∀ row, db.Holds s.key row → s.Backed row.receipt

namespace Backed

variable {db db' : Db}

theorem transport (backed : Backed db) (settlements : db'.settlements = db.settlements)
    (rows : ∀ k row', db'.Holds k row' → ∃ row, db.Holds k row ∧ row'.receipt = row.receipt ∧ row'.held = row.held ∧
      row'.actual = row.actual ∧ row'.revision = row.revision) : Backed db' where
  unspent k row' holds := by
    obtain ⟨row, before, receipt, held, actual, revision⟩ := rows k row' holds
    have unspent := backed.unspent k row before
    unfold Reservation.Unspent at unspent ⊢
    rwa [receipt, held, actual, revision]
  own s mem first row' holds := by
    rw [settlements] at mem
    obtain ⟨row, before, receipt, -⟩ := rows s.key row' holds
    rw [receipt]
    exact backed.own s mem first row before

theorem insert (backed : Backed db) (projected : Projected db) {key : ReservationKey} {row : Reservation}
    {account task : Budget} {account' task' : Balance}
    (inserted : Inserted db db' key row account task account' task') : Backed db' := by
  obtain ⟨call, calls, -⟩ := inserted.calls
  have split {k : ReservationKey} {r : Reservation} (holds : db'.Holds k r) :
      (k = key ∧ r = row) ∨ (k ≠ key ∧ db.Holds k r) := by
    obtain ⟨c, found, reserved⟩ := holds
    rw [calls, Table.row_put] at found
    split at found
    · next same =>
      obtain rfl := Option.some.inj found
      exact .inl ⟨same, (Option.some.inj reserved).symm⟩
    · next other => exact .inr ⟨other, c, found, reserved⟩
  constructor
  · intro k r holds
    rcases split holds with ⟨rfl, rfl⟩ | ⟨-, before⟩
    · intro _ d
      rw [inserted.actual, inserted.held]
      exact ⟨rfl, le_rfl⟩
    · exact backed.unspent k r before
  · intro s mem first r holds
    rw [inserted.settlements] at mem
    rcases split holds with ⟨same, rfl⟩ | ⟨-, before⟩
    · have none_ := projected.unsettled inserted.absent
      have listed : s ∈ settlementsOf db key := List.mem_filter.2 ⟨mem, decide_eq_true same⟩
      rw [none_] at listed
      cases listed
    · exact backed.own s mem first r before

theorem transact (backed : Backed db) {key : ReservationKey} {t t' : Txn} {core : BindingCore} {uuid : Uuids}
    (opened : openCall H db key none = .ok (t, core)) (moves : Moves H uuid t t') : Backed t'.db := by
  obtain ⟨call, found, reserved, upon⟩ := openCall_over opened
  obtain ⟨-, atDb, atKey, -⟩ := openCall_ok opened
  have start : t.Backed db := by
    refine ⟨backed.unspent key t.row ⟨call, found, reserved⟩, ?_, ?_⟩
    · rw [atDb, atKey]
      intro s mem same first
      exact backed.own s mem first t.row (same ▸ ⟨call, found, reserved⟩)
    · rw [atDb]
      exact fun s mem _ => mem
  have kept := moves.preserves (fun _ _ => Move.backed) start
  have upon := moves.upon upon
  have split {k : ReservationKey} {r : Reservation} (holds : t'.db.Holds k r) :
      (k = t'.key ∧ r = t'.row) ∨ (k ≠ t'.key ∧ db.Holds k r) := by
    obtain ⟨c, at_, reserved'⟩ := holds
    rw [upon.calls, Table.row_put] at at_
    split at at_
    · next same =>
      obtain rfl := Option.some.inj at_
      exact .inl ⟨same, (Option.some.inj reserved').symm⟩
    · next other => exact .inr ⟨other, c, at_, reserved'⟩
  constructor
  · intro k r holds
    rcases split holds with ⟨rfl, rfl⟩ | ⟨-, before⟩
    · exact kept.unspent
    · exact backed.unspent k r before
  · intro s mem first r holds
    rcases split holds with ⟨same, rfl⟩ | ⟨other, before⟩
    · exact kept.own s mem same first
    · exact backed.own s (kept.others s mem other) first r before

theorem effect {shown : Shown} (backed : Backed db) (projected : Projected db) (effect : Effect H shown db db') :
    Backed db' := by
  cases effect with
  | aside budgets calls settlements postings quiet =>
      refine backed.transport settlements fun k row holds => ⟨row, ?_, rfl, rfl, rfl, rfl⟩
      unfold Db.Holds at holds
      rwa [calls] at holds
  | install | pause | resume => exact backed.transport rfl fun k row holds => ⟨row, holds, rfl, rfl, rfl, rfl⟩
  | reserve inserted | restore inserted => exact backed.insert projected inserted
  | suspend opened => exact backed.transact opened (.suspend (fun _ => 0) _)
  | contradict opened done => exact backed.transact opened (.conflict done)
  | reconcile hashes allowed transacted =>
      obtain ⟨t, t', core, opened, moves, rfl⟩ := transacted.moves
      exact backed.transact opened moves
  | @administer _ key call row row' found reserved kept calls budgets settlements postings quiet =>
      refine backed.transport settlements fun k r holds => ?_
      obtain ⟨c, at_, reserved'⟩ := holds
      rw [calls, Table.row_put] at at_
      split at at_
      · next same =>
        subst same
        obtain rfl := Option.some.inj at_
        obtain rfl := Option.some.inj reserved'
        exact ⟨row, ⟨call, found, reserved⟩, kept.receipt, kept.held, kept.actual, kept.revision⟩
      · exact ⟨r, ⟨c, at_, reserved'⟩, rfl, rfl, rfl, rfl⟩
  | @cancel id generation chosen =>
      refine backed.transport rfl fun k r' holds => ?_
      obtain ⟨c', found, reserved⟩ := holds
      obtain ⟨c, before, rfl⟩ := Option.map_eq_some_iff.1 found
      beta_reduce at reserved
      split at reserved
      · obtain ⟨r, was, rfl⟩ := Option.map_eq_some_iff.1 reserved
        exact ⟨r, ⟨c, before, was⟩, rfl, rfl, rfl, rfl⟩
      · exact ⟨r', ⟨c, before, reserved⟩, rfl, rfl, rfl, rfl⟩

theorem empty : Backed .empty := by
  constructor
  · rintro k row ⟨call, found, -⟩
    cases found
  · exact fun s mem => nomatch mem

theorem of_reachable (reach : (accounting H).Reachable db) : Backed db :=
  (Reachable.of_effects (I := fun db => Projected db ∧ Backed db) ⟨.empty, .empty⟩
    (fun _ _ _ step both => ⟨both.1.effect step, both.2.effect both.1 step⟩) reach).2

end Backed

/-- A first settlement within the limits of a request overruns nothing. -/
theorem Backed.settled {db : Db} (backed : Backed db) (projected : Projected db) {s : Settlement}
    (mem : s ∈ db.settlements) (first : s.revision = 1) (small : ∀ d, s.settled d ≤ minimumReserved d) (d : Dimension) :
    s.overrun d = 0 := by
  obtain ⟨c, row, found, reserved⟩ := projected.owned s mem
  have bound := backed.own s mem first row ⟨c, found, reserved⟩ d
  have reserve := row.receipt.minimum d
  have least := small d
  obtain ⟨delta, held, -, amounts⟩ := projected.books.entered s mem
  have positive := (amounts d).2
  omega

/-! ## Usage within limits -/

/-- **Usage within limits costs no more than was reserved for it.**  Every projection of what
a provider says becomes a `UsageView`, and a known view has counts that add up; the price of
such counts is the exact one rounded up once, and within the limits of a request it is below
every reserve.  The first settlement of a call with such usage overruns nothing; any
settlement overruns what it settles above what the call has settled and holds. -/
theorem usage_within_limits {F : Type} (D : Floats F) (U : Ports.Decimals) (H : Hashes) :
    (∀ (value : Json F) (terminal : Bool), ∃ view, Ports.usageView D U (Ports.projectUsage value terminal) = .ok view) ∧
    (∀ members : List (Str × Json F), Ports.validate D U (.of .usageView) (.object members) = .ok () →
      Json.get members "state".toList = .string "known".toList → ∃ u : KnownUsage, u.Reads members) ∧
    (∀ u : KnownUsage,
      (actual (.known u) = .ok (amount u.totalTokens u.cost) ∨ actual (.known u) = .error .limitExceeded) ∧
      (∀ value, actual (.known u) = .ok value → ∀ d, 0 ≤ value d) ∧ u.cost = ⌈u.exactCost⌉ ∧
      (∀ u' : KnownUsage, u.inputTokens = u'.inputTokens → u.cachedInputTokens = u'.cachedInputTokens →
        u.cacheWriteTokens = u'.cacheWriteTokens → u.outputTokens ≤ u'.outputTokens → u.cost ≤ u'.cost) ∧
      (u.Limited → ∃ value, actual (.known u) = .ok value ∧ value .tokens ≤ 5120 ∧ value .microusd ≤ 22528 ∧
        (∀ (core : BindingCore) d, value d ≤ core.reserved d) ∧ ∀ (receipt : Receipt) d, value d ≤ receipt.reserved d)) ∧
    (∀ (name : Ports.Name) (members : List (Str × Json F)), name = .reservation ∨ name = .bindingCore →
      Ports.validate D U (.of name) (.object members) = .ok () →
      5120 ≤ (Json.get members "reserved_tokens".toList).asInt ∧
        22528 ≤ (Json.get members "reserved_microusd".toList).asInt) ∧
    (∀ db, (accounting H).Reachable db → ∀ s ∈ db.settlements, s.revision = 1 →
      (∃ u : KnownUsage, u.Limited ∧ actual (.known u) = .ok s.settled) → ∀ d, s.overrun d = 0) ∧
    ∀ (t t' : Txn) (uuid : Uuids) (event : Observation) (value : Amount) (record : Settlement),
      t.settle H uuid event value = .ok (t', record) →
      ∀ d, record.overrun d = 0 ↔ value d ≤ t.row.actual d + t.row.held d := by
  refine ⟨Ports.usageView_projected D U, fun members => known_of_view D U, fun u => ?_,
    fun name members => reserved_minimum D U, ?_, ?_⟩
  · refine ⟨?_, fun value paid d => (actual_bounds paid d).1, u.cost_ceil,
      fun u' input cached written output => KnownUsage.cost_mono input cached written output, fun limited => ?_⟩
    · by_cases fits : u.cost ≤ maxN
      · exact .inl (if_pos fits)
      · exact .inr (if_neg fits)
    · obtain ⟨paid, small⟩ := limited.actual
      exact ⟨_, paid, limited.cost.1, limited.cost.2, fun core d => (small d).trans (core.minimum d),
        fun receipt d => (small d).trans (receipt.minimum d)⟩
  · rintro db reach s mem first ⟨u, limited, paid⟩
    obtain ⟨paid', small⟩ := limited.actual
    rw [paid'] at paid
    refine (Backed.of_reachable reach).settled (Projected.of_reachable reach) mem first fun d => ?_
    rw [← Except.ok.inj paid]
    exact small d
  · intro t t' uuid event value record done d
    obtain ⟨shape, -⟩ := Txn.settle_ok done
    rw [shape]
    show max (value d - t.row.actual d - t.row.held d) 0 = 0 ↔ _
    omega

/-! ## A second settlement -/

/-- Two finals, both within the limits. -/
def smallFinals : List Observation :=
  [sampleObservation 1 31 .finalUsage (sampleUsage 100 hundred_le_maxN),
    sampleObservation 1 32 .finalUsage (sampleUsage 200 (by decide))]

/-- Recovery 77 settles the smaller of the two, recovery 78 the other one. -/
def resettled : List Op :=
  recoveredCall ++
    [.reconcile (fun n => 60 + n) (.recovery ⟨sampleScope, sampleKey 1, 77, 9, 2⟩) (sampleKey 1)
        (steadyObserver smallFinals) (some 77) [31],
      .recoverCall sampleScope (sampleKey 1) 78 2 9 true,
      .reconcile (fun n => 70 + n) (.recovery ⟨sampleScope, sampleKey 1, 78, 9, 3⟩) (sampleKey 1)
        (steadyObserver (smallFinals ++ [sampleObservation 1 33 .finalUsage .unknown])) none [32]]

/-- The revisions of the settlements, with what each settles and overruns. -/
def Db.overruns (db : Db) : List (Nat × (Int × Int) × Int × Int) :=
  db.settlements.map fun s =>
    (s.revision, (s.settled .tokens, s.settled .microusd), s.overrun .tokens, s.overrun .microusd)

theorem resettled_overruns :
    (Db.after sampleHashes resettled).overruns = [(1, (100, 200), 0, 0), (2, (200, 400), 100, 200)] := by
  decide +kernel

theorem mem_overruns {db : Db} {revision : Nat} {tokens cost overTokens overCost : Int}
    (listed : (revision, (tokens, cost), overTokens, overCost) ∈ db.overruns) :
    ∃ s ∈ db.settlements, s.revision = revision ∧ s.settled = amount tokens cost ∧ s.overrun .tokens = overTokens ∧
      s.overrun .microusd = overCost := by
  obtain ⟨s, mem, same⟩ := List.mem_map.1 listed
  simp only [Prod.mk.injEq] at same
  obtain ⟨first, ⟨rfl, rfl⟩, rfl, rfl⟩ := same
  refine ⟨s, mem, first, ?_, rfl, rfl⟩
  funext d
  cases d <;> rfl

/-- A settlement of 200 tokens, within the limits, that overruns by 100. -/
theorem resettled_overrun :
    (accounting sampleHashes).Reachable (Db.after sampleHashes resettled) ∧
      ∃ s ∈ (Db.after sampleHashes resettled).settlements, (∃ u : KnownUsage, u.Limited ∧
        actual (.known u) = .ok s.settled) ∧ s.overrun .tokens = 100 ∧ s.overrun .microusd = 200 := by
  have second : (2, (200, 400), 100, 200) ∈ (Db.after sampleHashes resettled).overruns := by
    rw [resettled_overruns]
    exact .tail _ (.head _)
  obtain ⟨s, mem, -, settled, overTokens, overCost⟩ := mem_overruns second
  refine ⟨reachable_after _ _, s, mem, ⟨⟨200, 0, 0, 0, none, Nat.zero_le _, by decide, fun r mem => nomatch mem⟩,
    ⟨by decide, by decide⟩, ?_⟩, overTokens, overCost⟩
  rw [settled]
  rfl

private def hundredTokens : KnownUsage := ⟨100, 0, 0, 0, none, Nat.zero_le _, by decide, fun r mem => nomatch mem⟩

theorem usage_within_limits_first_settlement :
    (∃ s ∈ (Db.after sampleHashes firstSettlement).settlements, s.revision = 1 ∧ s.settled .tokens = 100 ∧
      ∀ d, s.overrun d = 0) ∧
    ∃ value, actual (.known hundredTokens) = .ok value ∧ value .tokens ≤ 5120 ∧ value .microusd ≤ 22528 := by
  have law := usage_within_limits halfFloats Ports.asciiDigits sampleHashes
  have limited : hundredTokens.Limited := ⟨by decide, by decide⟩
  have listed : (1, (100, 200), 0, 0) ∈ (Db.after sampleHashes firstSettlement).overruns := by decide +kernel
  obtain ⟨s, mem, first, settled, -, -⟩ := mem_overruns listed
  have paid : actual (.known hundredTokens) = .ok s.settled := by
    rw [settled]
    rfl
  refine ⟨⟨s, mem, first, by rw [settled]; rfl,
    law.2.2.2.2.1 _ (reachable_after _ _) s mem first ⟨hundredTokens, limited, paid⟩⟩, ?_⟩
  obtain ⟨value, priced, low, cost, -⟩ := (law.2.2.1 hundredTokens).2.2.2.2 limited
  exact ⟨value, priced, low, cost⟩

end ApiSecurityPlatform.Accounting
