/-
# Accounting.Ledger -- the mutable projection equals the append-only ledger

Settlements and postings are only ever appended, both by the one write of
`Txn.settle`.  A correction posts the difference to what was posted before, so the
deltas of a call telescope to its actual amount, whatever was held, released and
held again between two revisions.
-/
import ApiSecurityPlatform.Accounting.Conservation

namespace ApiSecurityPlatform.Accounting

open ApiSecurityPlatform.Theory

set_option autoImplicit false

/-- The settlement rows of a call, oldest first. -/
def settlementsOf (db : Db) (key : ReservationKey) : List Settlement :=
  db.settlements.filter fun s => s.key = key

/-- The sum a settlement posts to one scope and dimension. -/
def posted (db : Db) (sid : Id) (kind : ScopeKind) (d : Dimension) : Int :=
  ((db.postings.filter fun p => p.settlementId = sid ∧ p.scopeKind = kind ∧ p.dimension = d).map
    Posting.settledDelta).sum

theorem postedSum_eq (db : Db) (key : ReservationKey) (kind : ScopeKind) (d : Dimension) :
    postedSum db key kind d =
      ((settlementsOf db key).map fun s => posted db s.settlementId kind d).sum := rfl

/-- The four postings of a settlement on the balances of a scope. -/
def entries (scope : Scope) (sid : Id) (delta held : Amount) : List Posting :=
  [⟨sid, .account, .tokens, balanceId scope .account, delta .tokens, -held .tokens⟩,
    ⟨sid, .account, .microusd, balanceId scope .account, delta .microusd, -held .microusd⟩,
    ⟨sid, .task, .tokens, balanceId scope .task, delta .tokens, -held .tokens⟩,
    ⟨sid, .task, .microusd, balanceId scope .task, delta .microusd, -held .microusd⟩]

theorem mem_entries {scope : Scope} {sid : Id} {delta held : Amount} {p : Posting}
    (member : p ∈ entries scope sid delta held) : p.settlementId = sid ∧
      p.balanceId = balanceId scope p.scopeKind ∧ p.settledDelta = delta p.dimension ∧
      p.heldDelta = -held p.dimension := by
  simp only [entries, List.mem_cons, List.not_mem_nil, or_false] at member
  rcases member with rfl | rfl | rfl | rfl <;> exact ⟨rfl, rfl, rfl, rfl⟩

theorem entries_posted (scope : Scope) (sid : Id) (delta held : Amount) (kind : ScopeKind)
    (d : Dimension) : (((entries scope sid delta held).filter fun p => p.settlementId = sid ∧
      p.scopeKind = kind ∧ p.dimension = d).map Posting.settledDelta).sum = delta d := by
  cases kind <;> cases d <;> simp [entries]

/-! ## The books -/

/-- The settlement and posting tables agree with each other. -/
structure Books (db : Db) : Prop where
  distinct : (db.settlements.map Settlement.settlementId).Nodup
  attributed : ∀ p ∈ db.postings, ∃ s ∈ db.settlements, s.settlementId = p.settlementId
  entered : ∀ s ∈ db.settlements, ∃ delta held,
    (db.postings.filter fun p => p.settlementId = s.settlementId) =
      entries s.key.scope s.settlementId delta held ∧
    ∀ d, s.refund d = max (held d - delta d) 0 ∧ s.overrun d = max (delta d - held d) 0

/-- The columns of a reservation are what its ledger says. -/
structure Booked (db : Db) (key : ReservationKey) (row : Reservation) : Prop where
  revisions : (settlementsOf db key).map Settlement.revision = List.range' 1 row.revision
  sums : ∀ kind d, postedSum db key kind d = row.actual d
  settled : row.state = .settled →
    (settlementsOf db key).getLast?.map Settlement.settled = some row.actual ∧ ∀ d, row.held d = 0

theorem Booked.of_row {db db' : Db} {key : ReservationKey} {row row' : Reservation}
    (booked : Booked db key row) (settlements : db'.settlements = db.settlements)
    (postings : db'.postings = db.postings) (revision : row'.revision = row.revision)
    (actual : row'.actual = row.actual)
    (state : row'.state = .settled → row.state = .settled ∧ row'.held = row.held) :
    Booked db' key row' where
  revisions := by
    rw [settlementsOf, settlements, revision]
    exact booked.revisions
  sums kind d := by
    rw [postedSum, settlements, postings, actual]
    exact booked.sums kind d
  settled final := by
    obtain ⟨before, held⟩ := state final
    rw [settlementsOf, settlements, actual, held]
    exact booked.settled before

theorem Books.of_eq {db db' : Db} (books : Books db) (settlements : db'.settlements = db.settlements)
    (postings : db'.postings = db.postings) : Books db' := by
  obtain ⟨distinct, attributed, entered⟩ := books
  refine ⟨?_, ?_, ?_⟩
  · rwa [settlements]
  · rwa [settlements, postings]
  · rwa [settlements, postings]

/-! ## A settlement -/

/-- The tables with one more settlement and its postings. -/
structure Appended (db db' : Db) (s : Settlement) (delta held : Amount) : Prop where
  settlements : db'.settlements = db.settlements ++ [s]
  postings : db'.postings = db.postings ++ entries s.key.scope s.settlementId delta held
  fresh : ∀ old ∈ db.settlements, old.settlementId ≠ s.settlementId
  refund : ∀ d, s.refund d = max (held d - delta d) 0
  overrun : ∀ d, s.overrun d = max (delta d - held d) 0

namespace Appended

variable {db db' : Db} {s : Settlement} {delta held : Amount}

/-- No earlier posting carries the new id. -/
theorem unposted (appended : Appended db db' s delta held) (books : Books db) :
    ∀ p ∈ db.postings, p.settlementId ≠ s.settlementId := by
  intro p member same
  obtain ⟨old, present, attributed⟩ := books.attributed p member
  exact appended.fresh old present (attributed.trans same)

theorem posted_new (appended : Appended db db' s delta held) (books : Books db) (kind : ScopeKind)
    (d : Dimension) : posted db' s.settlementId kind d = delta d := by
  have before : (db.postings.filter fun p => p.settlementId = s.settlementId ∧ p.scopeKind = kind ∧
      p.dimension = d) = [] := by
    rw [List.filter_eq_nil_iff]
    intro p member
    simp [appended.unposted books p member]
  rw [posted, appended.postings, List.filter_append, before, List.nil_append, entries_posted]

theorem posted_old (appended : Appended db db' s delta held) {sid : Id} (other : sid ≠ s.settlementId)
    (kind : ScopeKind) (d : Dimension) : posted db' sid kind d = posted db sid kind d := by
  have after : ((entries s.key.scope s.settlementId delta held).filter fun p =>
      p.settlementId = sid ∧ p.scopeKind = kind ∧ p.dimension = d) = [] := by
    rw [List.filter_eq_nil_iff]
    intro p member
    simp [(mem_entries member).1, other.symm]
  rw [posted, appended.postings, List.filter_append, after, List.append_nil, posted]

theorem settlementsOf_self (appended : Appended db db' s delta held) :
    settlementsOf db' s.key = settlementsOf db s.key ++ [s] := by
  simp [settlementsOf, appended.settlements, List.filter_append]

theorem settlementsOf_other (appended : Appended db db' s delta held) {key : ReservationKey}
    (other : key ≠ s.key) : settlementsOf db' key = settlementsOf db key := by
  simp [settlementsOf, appended.settlements, List.filter_append, other.symm]

/-- The older settlements of any call post what they posted. -/
theorem old_sums (appended : Appended db db' s delta held) (key : ReservationKey) (kind : ScopeKind)
    (d : Dimension) : ((settlementsOf db key).map fun x => posted db' x.settlementId kind d) =
      (settlementsOf db key).map fun x => posted db x.settlementId kind d := by
  refine List.map_congr_left fun old member => ?_
  exact appended.posted_old (appended.fresh old (List.mem_filter.1 member).1) kind d

theorem books (appended : Appended db db' s delta held) (books : Books db) : Books db' where
  distinct := by
    rw [appended.settlements, List.map_append, List.map_singleton]
    refine books.distinct.append (List.nodup_singleton _) ?_
    simpa using fun old member same => appended.fresh old member same
  attributed p member := by
    rw [appended.settlements]
    rw [appended.postings] at member
    rcases List.mem_append.1 member with old | new
    · obtain ⟨x, present, same⟩ := books.attributed p old
      exact ⟨x, List.mem_append_left _ present, same⟩
    · exact ⟨s, by simp, (mem_entries new).1.symm⟩
  entered x member := by
    rw [appended.settlements] at member
    rw [appended.postings, List.filter_append]
    rcases List.mem_append.1 member with old | new
    · obtain ⟨delta', held', filtered, amounts⟩ := books.entered x old
      refine ⟨delta', held', ?_, amounts⟩
      have none_ : ((entries s.key.scope s.settlementId delta held).filter fun p =>
          p.settlementId = x.settlementId) = [] := by
        rw [List.filter_eq_nil_iff]
        intro p present
        simp [(mem_entries present).1, (appended.fresh x old).symm]
      rw [none_, List.append_nil, filtered]
    · obtain rfl := List.mem_singleton.1 new
      refine ⟨delta, held, ?_, fun d => ⟨appended.refund d, appended.overrun d⟩⟩
      have none_ : (db.postings.filter fun p => p.settlementId = x.settlementId) = [] := by
        rw [List.filter_eq_nil_iff]
        intro p present
        simp [appended.unposted books p present]
      have all : ((entries x.key.scope x.settlementId delta held).filter fun p =>
          p.settlementId = x.settlementId) = entries x.key.scope x.settlementId delta held := by
        rw [List.filter_eq_self]
        intro p present
        simpa using (mem_entries present).1
      rw [none_, List.nil_append, all]

/-- **The deltas telescope.**  A settlement posts the difference to the actual
amount so far. -/
theorem booked (appended : Appended db db' s delta held) (books : Books db) {row row' : Reservation}
    (booked : Booked db s.key row) (revision : s.revision = row.revision + 1)
    (revision' : row'.revision = row.revision + 1)
    (telescope : ∀ d, row.actual d + delta d = row'.actual d) (carried : s.settled = row'.actual)
    (released : ∀ d, row'.held d = 0) : Booked db' s.key row' where
  revisions := by
    rw [appended.settlementsOf_self, List.map_append, booked.revisions, List.map_singleton, revision,
      revision', List.range'_concat]
    simp [Nat.add_comm]
  sums kind d := by
    rw [postedSum_eq, appended.settlementsOf_self, List.map_append, List.sum_append,
      appended.old_sums, ← postedSum_eq, booked.sums kind d, List.map_singleton, List.sum_singleton,
      appended.posted_new books, telescope]
  settled _ := by
    rw [appended.settlementsOf_self, List.getLast?_concat, Option.map_some, carried]
    exact ⟨rfl, released⟩

theorem booked_other (appended : Appended db db' s delta held) {key : ReservationKey}
    {row : Reservation} (other : key ≠ s.key) (booked : Booked db key row) : Booked db' key row where
  revisions := by
    rw [appended.settlementsOf_other other]
    exact booked.revisions
  sums kind d := by
    rw [postedSum_eq, appended.settlementsOf_other other, appended.old_sums, ← postedSum_eq]
    exact booked.sums kind d
  settled final := by
    rw [appended.settlementsOf_other other]
    exact booked.settled final

end Appended

/-! ## One transaction -/

/-- The books of a transaction that found the tables `base`. -/
structure Txn.Kept (base : Db) (t : Txn) : Prop where
  books : Books t.db
  booked : Booked t.db t.key t.row
  elsewhere : ∀ key row, key ≠ t.key → Booked base key row → Booked t.db key row
  owned : ∀ s ∈ t.db.settlements, s.key = t.key ∨ s ∈ base.settlements

/-- A move that settles nothing. -/
theorem Txn.Kept.plain {base : Db} {t t' : Txn} (kept : t.Kept base) (key : t'.key = t.key)
    (settlements : t'.db.settlements = t.db.settlements) (postings : t'.db.postings = t.db.postings)
    (revision : t'.row.revision = t.row.revision) (actual : t'.row.actual = t.row.actual)
    (state : t'.row.state = .settled → t.row.state = .settled ∧ t'.row.held = t.row.held) :
    t'.Kept base where
  books := kept.books.of_eq settlements postings
  booked := by
    rw [key]
    exact kept.booked.of_row settlements postings revision actual state
  elsewhere k row other booked := by
    rw [key] at other
    exact (kept.elsewhere k row other booked).of_row settlements postings rfl rfl fun final =>
      ⟨final, rfl⟩
  owned s member := by
    rw [key]
    rw [settlements] at member
    exact kept.owned s member

/-- Re-holding touches one column of the reservation and no ledger. -/
theorem Txn.retains_row (t : Txn) (kept : List (Option Observation)) :
    (∃ held, (kept.foldl Txn.retain t).row = { t.row with held := held }) ∧
      (kept.foldl Txn.retain t).db.settlements = t.db.settlements ∧
      (kept.foldl Txn.retain t).db.postings = t.db.postings ∧
      (kept.foldl Txn.retain t).db.events = t.db.events := by
  induction kept generalizing t with
  | nil => exact ⟨⟨t.row.held, rfl⟩, rfl, rfl, rfl⟩
  | cons incoming rest ih =>
      obtain ⟨⟨held, row⟩, settlements, postings, events⟩ := ih (t.retain incoming)
      exact ⟨⟨held, row⟩, settlements, postings, events⟩

theorem Move.kept {H : Hashes} {uuid : Uuids} {base : Db} {t t' : Txn} (move : Move H uuid t t')
    (kept : t.Kept base) : t'.Kept base := by
  cases move with
  | event written =>
      obtain ⟨draws, rfl⟩ | ⟨eid, draws, -, -, rfl⟩ := Txn.event_cases written <;>
        exact kept.plain rfl rfl rfl rfl rfl fun final => ⟨final, rfl⟩
  | note | close => exact kept.plain rfl rfl rfl rfl rfl fun final => ⟨final, rfl⟩
  | @freeze held state unsettled =>
      obtain ⟨⟨amount, row⟩, settlements, postings, -⟩ := t.retains_row held
      refine kept.plain (t.retains_fixed held).1 settlements postings ?_ ?_ ?_
      · rw [Txn.pause_row, row]
      · rw [Txn.pause_row, row]
      · rw [Txn.pause_row]
        dsimp only
        split
        · exact fun final => nomatch final
        · exact fun final => absurd final unsettled
  | @settle _ event value record paid fits done =>
      obtain ⟨shape, -, fresh, key, -, -, row, -, -, settlements, postings, -⟩ := Txn.settle_ok done
      have appended : Appended t.db t'.db record (fun d => value d - t.row.actual d) t.row.held := by
        refine ⟨settlements, ?_, ?_, ?_, ?_⟩
        · rw [postings, shape]
          rfl
        · rw [shape]
          exact fresh
        · rw [shape]
          exact fun _ => rfl
        · rw [shape]
          exact fun _ => rfl
      have recordKey : record.key = t.key := by rw [shape]; rfl
      refine ⟨appended.books kept.books, ?_, ?_, ?_⟩
      · rw [key, ← recordKey]
        refine appended.booked kept.books (recordKey ▸ kept.booked) ?_ ?_ ?_ ?_ ?_
        · rw [shape]
          rfl
        · rw [row]
        · intro d
          rw [row]
          show t.row.actual d + (value d - t.row.actual d) = value d
          omega
        · rw [shape, row]
          rfl
        · rw [row]
          exact fun _ => rfl
      · intro k r other booked
        rw [key] at other
        exact appended.booked_other (recordKey ▸ other) (kept.elsewhere k r other booked)
      · intro s member
        rw [key]
        rw [settlements] at member
        rcases List.mem_append.1 member with old | new
        · exact kept.owned s old
        · exact .inl (List.mem_singleton.1 new ▸ recordKey)

/-! ## The tables -/

/-- The books, and every reservation booked in them. -/
structure Projected (db : Db) : Prop where
  books : Books db
  booked : ∀ k c r, db.calls.row k = some c → c.reservation = some r → Booked db k r
  owned : ∀ s ∈ db.settlements, ∃ c r, db.calls.row s.key = some c ∧ c.reservation = some r

namespace Projected

variable {H : Hashes} {db db' : Db}

theorem empty : Projected .empty := by
  refine ⟨⟨List.nodup_nil, ?_, ?_⟩, ?_, ?_⟩
  · exact fun p member => nomatch member
  · exact fun s member => nomatch member
  · exact fun k c r found => nomatch found
  · exact fun s member => nomatch member

/-- The ledger is untouched, and so are the columns it accounts for. -/
theorem transport (projected : Projected db) (settlements : db'.settlements = db.settlements)
    (postings : db'.postings = db.postings)
    (forward : ∀ k c r, db.calls.row k = some c → c.reservation = some r →
      ∃ c' r', db'.calls.row k = some c' ∧ c'.reservation = some r')
    (rows : ∀ k c' r', db'.calls.row k = some c' → c'.reservation = some r' →
      ∃ c r, db.calls.row k = some c ∧ c.reservation = some r ∧ r'.revision = r.revision ∧
        r'.actual = r.actual ∧ (r'.state = .settled → r.state = .settled ∧ r'.held = r.held)) :
    Projected db' where
  books := projected.books.of_eq settlements postings
  booked k c' r' found reserved := by
    obtain ⟨c, r, before, reserved, revision, actual, state⟩ := rows k c' r' found reserved
    exact (projected.booked k c r before reserved).of_row settlements postings revision actual state
  owned s member := by
    rw [settlements] at member
    obtain ⟨c, r, found, reserved⟩ := projected.owned s member
    exact forward s.key c r found reserved

/-- A call that had no reservation has no settlement. -/
theorem unsettled (projected : Projected db) {key : ReservationKey}
    (absent : ∀ old ∈ db.calls.row key, old.reservation = none) : settlementsOf db key = [] := by
  rw [settlementsOf, List.filter_eq_nil_iff]
  intro s member same
  obtain ⟨c, r, found, reserved⟩ := projected.owned s member
  rw [of_decide_eq_true same] at found
  rw [absent c found] at reserved
  cases reserved

theorem insert (projected : Projected db) {key : ReservationKey} {row : Reservation}
    {account task : Budget} {account' task' : Balance}
    (inserted : Inserted db db' key row account task account' task') : Projected db' := by
  obtain ⟨call, calls, -⟩ := inserted.calls
  have none_ := projected.unsettled inserted.absent
  refine ⟨projected.books.of_eq inserted.settlements inserted.postings, ?_, ?_⟩
  · intro k c r found reserved
    rw [calls, Table.row_put] at found
    split at found
    · rename_i same
      subst same
      obtain rfl := Option.some.inj found
      obtain rfl := Option.some.inj reserved
      have nothing : settlementsOf db' k = [] := by
        rw [settlementsOf, inserted.settlements]
        exact none_
      refine ⟨?_, fun kind d => ?_, ?_⟩
      · rw [nothing, inserted.revision]
        rfl
      · rw [postedSum_eq, nothing, inserted.actual]
        rfl
      · intro final
        rcases inserted.state with state | state <;> rw [state] at final <;> cases final
    · exact (projected.booked k c r found reserved).of_row inserted.settlements inserted.postings rfl
        rfl fun final => ⟨final, rfl⟩
  · intro s member
    rw [inserted.settlements] at member
    obtain ⟨c, r, found, reserved⟩ := projected.owned s member
    rw [calls, Table.row_put]
    split
    · exact ⟨_, row, rfl, rfl⟩
    · exact ⟨c, r, found, reserved⟩

theorem transact (projected : Projected db) {key : ReservationKey} {t t' : Txn} {core : BindingCore}
    {uuid : Uuids} (opened : openCall H db key none = .ok (t, core)) (moves : Moves H uuid t t') :
    Projected t'.db := by
  obtain ⟨call, found, reserved, upon⟩ := openCall_over opened
  obtain ⟨-, atDb, atKey, -⟩ := openCall_ok opened
  have start : t.Kept db := by
    refine ⟨?_, ?_, ?_, ?_⟩
    · rw [atDb]
      exact projected.books
    · rw [atDb, atKey]
      exact projected.booked key call t.row found reserved
    · rw [atDb]
      exact fun _ _ _ booked => booked
    · rw [atDb]
      exact fun s member => .inr member
  have kept := moves.preserves (fun _ _ => Move.kept) start
  have upon := moves.upon upon
  refine ⟨kept.books, ?_, ?_⟩
  · intro k c r at_ reserved
    rw [upon.calls, Table.row_put] at at_
    split at at_
    · rename_i same
      subst same
      obtain rfl := Option.some.inj at_
      obtain rfl := Option.some.inj reserved
      exact kept.booked
    · rename_i other
      exact kept.elsewhere k r other (projected.booked k c r at_ reserved)
  · intro s member
    rw [upon.calls, Table.row_put]
    split
    · exact ⟨_, t'.row, rfl, rfl⟩
    · rename_i other
      rcases kept.owned s member with here | old
      · exact absurd here other
      · exact projected.owned s old

theorem effect {shown : Shown} (projected : Projected db) (effect : Effect H shown db db') :
    Projected db' := by
  cases effect with
  | aside budgets calls settlements postings quiet =>
      exact projected.transport settlements postings
        (fun k c r found reserved => ⟨c, r, calls ▸ found, reserved⟩)
        (fun k c r found reserved => ⟨c, r, calls ▸ found, reserved, rfl, rfl, fun final => ⟨final, rfl⟩⟩)
  | install | pause | resume =>
      exact projected.transport rfl rfl (fun k c r found reserved => ⟨c, r, found, reserved⟩)
        (fun k c r found reserved => ⟨c, r, found, reserved, rfl, rfl, fun final => ⟨final, rfl⟩⟩)
  | reserve inserted | restore inserted => exact projected.insert inserted
  | suspend opened => exact projected.transact opened (.suspend (fun _ => 0) _)
  | contradict opened done => exact projected.transact opened (.conflict done)
  | reconcile hashes allowed transacted =>
      obtain ⟨t, t', core, opened, moves, rfl⟩ := transacted.moves
      exact projected.transact opened moves
  | @administer _ key call row row' found reserved kept calls budgets settlements postings quiet =>
      refine projected.transport settlements postings ?_ ?_
      · intro k c r at_ reserved
        rw [calls, Table.row_put]
        split
        · exact ⟨_, row', rfl, rfl⟩
        · exact ⟨c, r, at_, reserved⟩
      · intro k c r at_ reserved'
        rw [calls, Table.row_put] at at_
        split at at_
        · rename_i same
          subst same
          obtain rfl := Option.some.inj at_
          obtain rfl := Option.some.inj reserved'
          refine ⟨call, row, found, reserved, kept.revision, kept.actual, fun final => ⟨?_, kept.held⟩⟩
          rcases kept.state with same | ⟨-, moved⟩
          · rw [← same, final]
          · rcases moved with moved | moved <;> rw [moved] at final <;> cases final
        · exact ⟨c, r, at_, reserved', rfl, rfl, fun final => ⟨final, rfl⟩⟩
  | @cancel id generation chosen =>
      refine projected.transport rfl rfl ?_ ?_
      · intro k c r found reserved
        simp only [Table.row_map, found, Option.map_some]
        refine ⟨_, if chosen k then { r with cancelled := true } else r, rfl, ?_⟩
        split <;> simp [reserved]
      · intro k c' r' found reserved
        obtain ⟨c, before, same⟩ := Option.map_eq_some_iff.1 found
        subst same
        beta_reduce at reserved
        split at reserved
        · obtain ⟨r, was, same⟩ := Option.map_eq_some_iff.1 reserved
          subst same
          exact ⟨c, r, before, was, rfl, rfl, fun final => ⟨final, rfl⟩⟩
        · exact ⟨c, r', before, reserved, rfl, rfl, fun final => ⟨final, rfl⟩⟩

theorem of_reachable (reach : (accounting H).Reachable db) : Projected db :=
  Reachable.of_effects .empty (fun _ _ _ step projected => projected.effect step) reach

end Projected

/-! ## The projection equals the ledger -/

/-- Of increasing values the last is the largest. -/
theorem argmax_eq_getLast? {α : Type} {f : α → Nat} {l : List α}
    (increasing : (l.map f).Pairwise (· < ·)) : l.argmax f = l.getLast? := by
  induction l using List.reverseRecOn with
  | nil => rfl
  | append_singleton l a ih =>
      rw [List.map_append, List.pairwise_append] at increasing
      obtain ⟨front, -, below⟩ := increasing
      rw [List.argmax_concat, ih front, List.getLast?_concat]
      cases last : l.getLast? with
      | none => rfl
      | some c =>
          have member : c ∈ l := List.mem_of_getLast? last
          have less : f c < f a := below (f c) (List.mem_map_of_mem member) (f a) (by simp)
          simp [less]

theorem Booked.latest {db : Db} {key : ReservationKey} {row : Reservation}
    (booked : Booked db key row) : latestSettlement db key = (settlementsOf db key).getLast? := by
  refine argmax_eq_getLast? ?_
  rw [show (db.settlements.filter fun s => s.key = key) = settlementsOf db key from rfl,
    booked.revisions]
  exact List.pairwise_lt_range'

/-- The highest revision is the reservation's own. -/
theorem Booked.latest_revision {db : Db} {key : ReservationKey} {row : Reservation} {s : Settlement}
    (booked : Booked db key row) (last : (settlementsOf db key).getLast? = some s) :
    s.revision = row.revision := by
  have image := congrArg (Option.map Settlement.revision) last
  rw [← List.getLast?_map, booked.revisions, List.getLast?_range'] at image
  split at image
  · cases image
  · have same := Option.some.inj image
    omega

theorem Books.wellPosted {db : Db} (books : Books db) {c : Call} {s : Settlement}
    (member : s ∈ db.settlements) (account : c.accountBalance = balanceId s.key.scope .account)
    (task : c.taskBalance = balanceId s.key.scope .task) : wellPosted db c s.settlementId := by
  obtain ⟨delta, held, filtered, -⟩ := books.entered s member
  unfold Accounting.wellPosted
  rw [filtered]
  refine ⟨rfl, ?_, ?_⟩
  · intro kind dimension
    cases kind <;> cases dimension <;> simp [entries]
  · intro p present
    rw [(mem_entries present).2.1]
    cases p.scopeKind with
    | account => exact account.symm
    | task => exact task.symm

/-- **The mutable projection equals the append-only ledger.**  In every reachable
state, for every reservation: its settlements are the revisions 1 to `revision`,
each with exactly four postings on the two balances of its core; the posted deltas
add up to the actual amounts in both scopes; and a settled call carries the amounts
of its highest revision and holds nothing.  Every settlement balances what was held
against what was settled, as a refund or as an overrun and never both. -/
theorem projection_equals_ledger {H : Hashes} {db : Db} (reach : (accounting H).Reachable db) :
    (∀ k c r, db.calls.row k = some c → c.reservation = some r →
      (settlementsOf db k).map Settlement.revision = List.range' 1 r.revision ∧
      (∀ s ∈ settlementsOf db k, wellPosted db c s.settlementId) ∧
      (∀ kind d, postedSum db k kind d = r.actual d) ∧
      (r.state = .settled → (∃ s, latestSettlement db k = some s ∧ s.revision = r.revision ∧
        s.settled = r.actual) ∧ ∀ d, r.held d = 0)) ∧
    ∀ s ∈ db.settlements, ∃ delta held : Amount,
      (∀ p ∈ db.postings, p.settlementId = s.settlementId →
        p.settledDelta = delta p.dimension ∧ p.heldDelta = -held p.dimension) ∧
      ∀ d, s.refund d - s.overrun d = held d - delta d ∧ (s.refund d = 0 ∨ s.overrun d = 0) := by
  have projected := Projected.of_reachable reach
  have conserved := Conserved.of_reachable reach
  constructor
  · intro k c r found reserved
    have booked := projected.booked k c r found reserved
    refine ⟨booked.revisions, ?_, booked.sums, ?_⟩
    · intro s member
      obtain ⟨present, same⟩ := List.mem_filter.1 member
      obtain rfl := of_decide_eq_true same
      exact projected.books.wellPosted present (conserved.accountNamed _ c found)
        (conserved.taskNamed _ c found)
    · intro final
      obtain ⟨carried, released⟩ := booked.settled final
      obtain ⟨s, last, amounts⟩ := Option.map_eq_some_iff.1 carried
      exact ⟨⟨s, booked.latest.trans last, booked.latest_revision last, amounts⟩, released⟩
  · intro s member
    obtain ⟨delta, held, filtered, amounts⟩ := projected.books.entered s member
    refine ⟨delta, held, ?_, ?_⟩
    · intro p present same
      have entry : p ∈ entries s.key.scope s.settlementId delta held := by
        rw [← filtered, List.mem_filter]
        exact ⟨present, by simpa using same⟩
      exact (mem_entries entry).2.2
    · intro d
      obtain ⟨refund, overrun⟩ := amounts d
      rw [refund, overrun]
      omega

/-! ## A first settlement -/

/-- The first call, settled with 100 tokens. -/
def firstSettlement : List Op :=
  firstCall ++ [.reconcile (fun n => 10 + n) (.run (sampleRun 1)) (sampleKey 1)
    (steadyObserver [sampleObservation 1 30 .finalUsage (sampleUsage 100 hundred_le_maxN)]) none [30]]

theorem projection_equals_ledger_first_settlement :
    ∃ c r, (Db.after sampleHashes firstSettlement).calls.row (sampleKey 1) = some c ∧
      c.reservation = some r ∧ r.revision = 1 ∧ r.actual .tokens = 100 ∧
      postedSum (Db.after sampleHashes firstSettlement) (sampleKey 1) .account .tokens =
        r.actual .tokens ∧ ∀ d, r.held d = 0 := by
  have ledger := (projection_equals_ledger (reachable_after sampleHashes firstSettlement)).1
    (sampleKey 1) _ _ rfl rfl
  exact ⟨_, _, rfl, rfl, rfl, rfl, ledger.2.2.1 .account .tokens, (ledger.2.2.2 rfl).2⟩

end ApiSecurityPlatform.Accounting
