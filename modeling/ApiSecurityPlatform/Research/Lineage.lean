/-
# Research.Lineage -- a disabled lineage stays closed

A version is *closed* when the chain of what it supersedes reaches a disabled version.  The
operations that open something recompute the chain from a bounded read of the catalog, and
the read sees all of it: a superseded version is owned by the same context, and a shared one
is unique (`Catalogued`).  A disable reviews the pending feedback it closes, and no other
call closes a version (`Settled`).
-/
import ApiSecurityPlatform.Research.Knowledge
import Mathlib.Logic.Relation

namespace ApiSecurityPlatform.Research.Knowledge

open ApiSecurityPlatform.Python ApiSecurityPlatform.Theory

set_option autoImplicit false

/-! ## The loop -/

variable {C : Codec} {W : World} {db db' : Store} {k : Key} {v : Version} {ctx : Int}

theorem require_ok {α : Type} {fault : Fault} {found : Option α} {a : α} :
    require fault found = .ok a ↔ found = some a := by
  cases found <;> simp [require]

theorem stored_ok {catalog : Catalog} {reference : ExactRef} {content : Content} :
    stored catalog reference = .ok (some content) ↔
      ∃ row, catalog reference = some row ∧ row.version.content = some content := by
  unfold stored
  cases catalog reference with
  | none => simp
  | some row =>
      simp only [map_ok, Row.read, require_ok, Option.some.injEq, exists_eq_left']
      exact exists_eq_right

theorem ancestor_ok {catalog : Catalog} {disabled : List Key} {reference : ExactRef} {content : Content} :
    ancestor C catalog disabled reference = .ok (some content) ↔ stored catalog reference = .ok (some content) ∧
      ∃ row, catalog reference = some row ∧ C.digest content = row.version.digest ∧ row.key ∉ disabled := by
  rw [stored_ok]
  unfold ancestor
  cases catalog reference with
  | none => simp
  | some row =>
      by_cases closed : row.key ∈ disabled
      · simp [closed]
      · simp only [closed, if_false, bind_ok, Row.read, require_ok]
        constructor
        · rintro ⟨current, read, same⟩
          split at same
          · cases same
          · rename_i intact
            obtain rfl : current = content := Option.some.inj (Except.ok.inj same)
            exact ⟨⟨row, rfl, read⟩, row, rfl, not_not.1 intact, closed⟩
        · rintro ⟨⟨_, entry, read⟩, _, entry', intact, -⟩
          obtain rfl := Option.some.inj entry
          obtain rfl := Option.some.inj entry'
          exact ⟨content, read, by rw [if_neg (not_not.2 intact)]; rfl⟩

/-- **The loop of `_lineage_eligible`** answers true exactly when what a content supersedes is a
chain of at most 128 versions, each in the catalog, intact and not disabled. -/
theorem lineageEligible_iff {content : Content} {catalog : Catalog} {disabled : List Key} :
    lineageEligible C content catalog disabled = .ok true ↔
      ∃ chain, Trail (fun current : Content => current.supersedes) (stored catalog) content chain ∧
        (∀ step ∈ chain, ∃ row, catalog step.1 = some row ∧ C.digest step.2 = row.version.digest ∧
          row.key ∉ disabled) ∧
        chain.length ≤ maxVersions := by
  unfold lineageEligible
  rw [walk_true_iff]
  refine exists_congr fun chain => ?_
  rw [trail_filter_iff fun _ _ => ancestor_ok, and_assoc]

/-! ## Reads of the tables -/

theorem mem_rows {p : Key → Bool} {row : Row} :
    row ∈ db.rows p ↔ p row.key = true ∧ db.versions.row row.key = some row.version := by
  unfold Store.rows
  rw [List.mem_filterMap]
  constructor
  · rintro ⟨j, inside, read⟩
    obtain ⟨version, found, rfl⟩ := Option.map_eq_some_iff.1 read
    exact ⟨(List.mem_filter.1 inside).2, found⟩
  · rintro ⟨passes, found⟩
    exact ⟨row.key, List.mem_filter.2 ⟨Table.mem_of_row found, passes⟩, by rw [found]; rfl⟩

theorem scan_ok {rows : List Row} (done : scan db ctx = .ok rows) :
    rows = db.rows (visible ctx) ∧ rows.length ≤ maxScan := by
  unfold scan at done
  simp only [bind_ok, refuse_ok] at done
  obtain ⟨_, few, same⟩ := done
  obtain rfl := Except.ok.inj same
  rw [Nat.not_lt] at few
  refine ⟨List.take_of_length_le ?_, few⟩
  rw [List.length_take] at few
  simp only [maxScan] at few ⊢
  omega

theorem mem_scan {rows : List Row} (done : scan db ctx = .ok rows) {row : Row} :
    row ∈ rows ↔ visible ctx row.key = true ∧ db.versions.row row.key = some row.version := by
  rw [(scan_ok done).1, mem_rows]

theorem exactOwned_ok {reference : ExactRef} {row : Row} (done : exactOwned db ctx reference = .ok row) :
    row.key = reference.key ctx ∧ db.versions.row row.key = some row.version ∧ row.version.digest = reference.digest := by
  unfold exactOwned at done
  simp only [bind_ok, refuse_ok, require_ok, not_not] at done
  obtain ⟨version, found, _, digest, same⟩ := done
  obtain rfl := Except.ok.inj same
  exact ⟨rfl, found, digest⟩

theorem Row.ref_eq {row : Row} {reference : ExactRef} (key : row.key = reference.key ctx)
    (digest : row.version.digest = reference.digest) : row.ref = reference := by
  unfold Row.ref
  rw [key, digest]
  rfl

theorem audit_ok {a : Unit} (done : audit ctx db = (.ok a, db')) : db'.versions = db.versions := by
  unfold audit at done
  simp only [Tx.get_bind_ok, Tx.refuse_bind_ok, Tx.modify_ok] at done
  obtain ⟨-, rfl⟩ := done
  rfl

/-! ## Closed versions -/

/-- The version a version supersedes: `record` asks that its own context has it. -/
def Store.parent (db : Store) (k : Key) : Option Key :=
  (((db.versions.row k).bind Version.content).bind fun content => content.supersedes).map (·.key k.contextId)

def Store.Disabled (db : Store) (k : Key) : Prop :=
  ∃ version, db.versions.row k = some version ∧ ∃ event ∈ version.events, event.action = .disable

/-- The chain of what a version supersedes reaches another one. -/
def Store.Reaches (db : Store) : Key → Key → Prop := Relation.ReflTransGen fun a b => db.parent a = some b

def Store.Closed (db : Store) (k : Key) : Prop := ∃ d, db.Reaches k d ∧ db.Disabled d

theorem parent_context {p : Key} (link : db.parent k = some p) : p.contextId = k.contextId := by
  unfold Store.parent at link
  obtain ⟨reference, -, rfl⟩ := Option.map_eq_some_iff.1 link
  rfl

theorem reaches_context {d : Key} (reaches : db.Reaches k d) : d.contextId = k.contextId := by
  induction reaches with
  | refl => rfl
  | tail _ link ih => rw [parent_context link, ih]

/-- What holds of the catalog between calls. -/
structure Catalogued (C : Codec) (db : Store) : Prop where
  intact : ∀ k version, db.versions.row k = some version → ∃ content, version.content = some content ∧
    version.digest = C.digest content ∧ content.key k.contextId = k
  parents : ∀ k version content reference, db.versions.row k = some version → version.content = some content →
    content.supersedes = some reference →
    ∃ old, db.versions.row (reference.key k.contextId) = some old ∧ old.digest = reference.digest
  shared : ∀ j k, (db.versions.row j).isSome → (db.versions.row k).isSome → j.scope = .reusableSynthetic →
    k.scope = .reusableSynthetic → j.knowledgeId = k.knowledgeId → j.version = k.version → j = k
  few : ∀ k version, db.versions.row k = some version → version.events.length ≤ maxEvents

namespace Catalogued

variable {rows : List Row} {row : Row}

/-- Two versions a context sees differ in their references. -/
theorem ref_inj (cat : Catalogued C db) {a b : Row} (first : a ∈ db.rows (visible ctx))
    (second : b ∈ db.rows (visible ctx)) (same : a.ref = b.ref) : a = b := by
  obtain ⟨seeA, foundA⟩ := mem_rows.1 first
  obtain ⟨seeB, foundB⟩ := mem_rows.1 second
  obtain ⟨⟨contextA, scopeA, idA, numberA⟩, versionA⟩ := a
  obtain ⟨⟨contextB, scopeB, idB, numberB⟩, versionB⟩ := b
  simp only [Row.ref, ExactRef.mk.injEq] at same
  obtain ⟨rfl, rfl, rfl, -⟩ := same
  have keys : contextA = contextB := by
    cases scopeA with
    | project =>
        simp only [visible, reduceCtorEq, decide_false, Bool.or_false, decide_eq_true_eq] at seeA seeB
        rw [seeA, seeB]
    | reusableSynthetic =>
        have one := cat.shared _ _ (Option.isSome_of_eq_some foundA) (Option.isSome_of_eq_some foundB) rfl rfl rfl rfl
        exact congrArg Key.contextId one
  subst keys
  obtain rfl : versionA = versionB := Option.some.inj (foundA.symm.trans foundB)
  rfl

theorem catalogOf_ref (cat : Catalogued C db) (read : scan db ctx = .ok rows) (inside : row ∈ rows) :
    catalogOf rows row.ref = some row := by
  obtain ⟨rfl, -⟩ := scan_ok read
  unfold catalogOf
  have found : ((db.rows (visible ctx)).reverse.find? (·.ref = row.ref)).isSome = true :=
    List.find?_isSome.2 ⟨row, List.mem_reverse.2 inside, by simp⟩
  obtain ⟨other, there⟩ := Option.isSome_iff_exists.1 found
  have same : other.ref = row.ref := by simpa using List.find?_some there
  rw [there, cat.ref_inj (List.mem_reverse.1 (List.mem_of_find?_eq_some there)) inside same]

theorem mem_disabledKeys (cat : Catalogued C db) (read : scan db ctx = .ok rows) (inside : row ∈ rows)
    (disabled : db.Disabled row.key) : row.key ∈ disabledKeys rows := by
  obtain ⟨rfl, few⟩ := scan_ok read
  unfold disabledKeys
  rw [List.take_of_length_le]
  · obtain ⟨version, found, event, member, is_⟩ := disabled
    obtain rfl := Option.some.inj ((mem_rows.1 inside).2.symm.trans found)
    refine List.mem_flatMap.2 ⟨row, inside, List.mem_map.2 ⟨event, List.mem_filter.2 ⟨member, ?_⟩, rfl⟩⟩
    simpa using is_
  · rw [List.length_flatMap]
    have most : ∀ n ∈ (db.rows (visible ctx)).map fun row =>
        ((row.version.events.filter (·.action = .disable)).map fun _ => row.key).length, n ≤ maxEvents := by
      intro n member
      obtain ⟨other, there, rfl⟩ := List.mem_map.1 member
      rw [List.length_map]
      exact Nat.le_trans (List.length_filter_le _ _) (cat.few _ _ (mem_rows.1 there).2)
    have total : _ ≤ _ * maxEvents := List.sum_le_card_nsmul _ _ most
    rw [List.length_map] at total
    exact Nat.le_succ_of_le (Nat.le_trans total (Nat.mul_le_mul_right _ few))

/-- What a visible version supersedes is visible, and found under the reference. -/
theorem parent_row (cat : Catalogued C db) (read : scan db ctx = .ok rows) (inside : row ∈ rows) {content : Content}
    (body : row.version.content = some content) {reference : ExactRef} (link : content.supersedes = some reference) :
    ∃ old ∈ rows, old.key = reference.key row.key.contextId ∧ old.ref = reference := by
  obtain ⟨rfl, -⟩ := scan_ok read
  obtain ⟨see, found⟩ := mem_rows.1 inside
  obtain ⟨old, there, digest⟩ := cat.parents _ _ _ _ found body link
  refine ⟨⟨reference.key row.key.contextId, old⟩, mem_rows.2 ⟨?_, there⟩, rfl, Row.ref_eq rfl digest⟩
  have scope : reference.scope = content.scope := by
    have coherent := content.coherent
    simp only [Card.eligible, Bool.and_eq_true, link, Option.all_some, decide_eq_true_eq] at coherent
    exact coherent.2.1.1
  obtain ⟨own, same, -, key⟩ := cat.intact _ _ found
  obtain rfl := Option.some.inj (body.symm.trans same)
  have column : content.scope = row.key.scope := congrArg Key.scope key
  unfold visible at see ⊢
  rw [show (reference.key row.key.contextId).contextId = row.key.contextId from rfl,
    show (reference.key row.key.contextId).scope = row.key.scope from scope.trans column]
  exact see

theorem parent_eq (found : db.versions.row k = some v) {content : Content} (body : v.content = some content) :
    db.parent k = content.supersedes.map (·.key k.contextId) := by
  unfold Store.parent
  rw [found, Option.bind_some, body, Option.bind_some]

/-- No strict ancestor of a version with an eligible lineage is disabled. -/
theorem open_of_eligible (cat : Catalogued C db) (read : scan db ctx = .ok rows) (inside : row ∈ rows)
    {content : Content} (body : row.version.content = some content)
    (eligible : lineageEligible C content (catalogOf rows) (disabledKeys rows) = .ok true) :
    ∀ d, Relation.TransGen (fun a b => db.parent a = some b) row.key d → ¬ db.Disabled d := by
  obtain ⟨chain, trail, passes, -⟩ := lineageEligible_iff.1 eligible
  clear eligible
  induction trail generalizing row with
  | stop last =>
      intro d behind
      have none_ : db.parent row.key = none := by
        rw [parent_eq ((mem_scan read).1 inside).2 body, last, Option.map_none]
      obtain ⟨p, link, -⟩ := Relation.TransGen.head'_iff.1 behind
      nomatch none_.symm.trans link
  | @step current next reference rest link found _ ih =>
      intro d behind
      obtain ⟨old, there, key, ref⟩ := cat.parent_row read inside body link
      obtain ⟨first, others⟩ := List.forall_mem_cons.1 passes
      obtain ⟨row', entry, -, free⟩ := first
      obtain ⟨row'', entry', body'⟩ := stored_ok.1 found
      have lookup : catalogOf rows reference = some old := ref ▸ cat.catalogOf_ref read there
      obtain rfl := Option.some.inj (lookup.symm.trans entry)
      obtain rfl := Option.some.inj (lookup.symm.trans entry')
      have own := ((mem_scan read).1 inside).2
      have up : db.parent row.key = some old.key := by rw [parent_eq own body, link, key]; rfl
      obtain ⟨p, link', further⟩ := Relation.TransGen.head'_iff.1 behind
      obtain rfl := Option.some.inj (up.symm.trans link')
      rcases Relation.reflTransGen_iff_eq_or_transGen.1 further with rfl | further
      · exact fun disabled => free (cat.mem_disabledKeys read there disabled)
      · exact ih there body' others d further

theorem not_closed (cat : Catalogued C db) (read : scan db ctx = .ok rows) (inside : row ∈ rows) {content : Content}
    (body : row.version.content = some content)
    (eligible : lineageEligible C content (catalogOf rows) (disabledKeys rows) = .ok true)
    (own : ¬ db.Disabled row.key) : ¬ db.Closed row.key := by
  rintro ⟨d, reaches, disabled⟩
  rcases Relation.reflTransGen_iff_eq_or_transGen.1 reaches with rfl | behind
  · exact own disabled
  · exact cat.open_of_eligible read inside body eligible d behind disabled

/-! ### What asks for an open lineage -/

theorem live_ok (cat : Catalogued C db) {moment : Moment} {deadlines : List Time} (own : row.key.contextId = ctx)
    (found : db.versions.row row.key = some row.version) (done : live C W moment db ctx row = .ok deadlines) :
    ¬ db.Closed row.key := by
  unfold live ruleContent at done
  simp only [bind_ok, refuse_ok, Row.read, require_ok, not_not] at done
  obtain ⟨_, -, _, -, content, ⟨_, body, _, -, same⟩, rows, read, _, free, eligible, walked, _, isTrue, -⟩ := done
  obtain rfl := Except.ok.inj same
  have inside : row ∈ rows := (mem_scan read).2 ⟨by simp [visible, own], found⟩
  subst isTrue
  refine cat.not_closed read inside body walked fun disabled => free (.inl ?_)
  exact cat.mem_disabledKeys read inside disabled

theorem isAffected_ok (cat : Catalogued C db) (read : scan db ctx = .ok rows) (inside : row ∈ rows)
    (free : isAffected C rows row = .ok false) : ¬ db.Closed row.key := by
  unfold isAffected at free
  split at free
  · nomatch free
  · rename_i outside
    simp only [bind_ok, Row.read, require_ok] at free
    obtain ⟨content, body, eligible, walked, same⟩ := free
    have isTrue : eligible = true := by
      have negated : (!eligible) = false := Except.ok.inj same
      simpa using negated
    subst isTrue
    exact cat.not_closed read inside body walked fun disabled => outside (cat.mem_disabledKeys read inside disabled)

end Catalogued

theorem mem_affectedRows {rows some_ l : List Row} (done : affectedRows C rows l = .ok some_) {row : Row}
    (inside : row ∈ l) : row ∈ some_ ∨ isAffected C rows row = .ok false := by
  induction l generalizing some_ with
  | nil => nomatch inside
  | cons first rest ih =>
      simp only [affectedRows, bind_ok] at done
      obtain ⟨hit, answer, others, remaining, same⟩ := done
      obtain rfl := Except.ok.inj same
      rcases List.mem_cons.1 inside with rfl | later
      · cases hit with
        | true => exact .inl (by simp)
        | false => exact .inr answer
      · rcases ih remaining later with there | free
        · exact .inl (by split <;> simp [there])
        · exact .inr free

/-- A row that is not affected is open. -/
theorem Catalogued.mem_affected (cat : Catalogued C db) {rows : List Row} (read : scan db ctx = .ok rows) {row : Row}
    (inside : row ∈ rows) (closed : db.Closed row.key) : row ∈ affected C rows := by
  unfold affected
  split
  · rename_i some_ done
    rcases mem_affectedRows done inside with there | free
    · exact there
    · exact absurd closed (cat.isAffected_ok read inside free)
  · exact inside

theorem mem_readEvents {version : Version} (few : version.events.length ≤ maxEvents) {event : Event}
    (inside : event ∈ version.events) : event ∈ readEvents version := by
  unfold readEvents
  rw [List.take_of_length_le]
  · exact (List.mem_insertionSort _).2 inside
  · rw [List.length_insertionSort]
    omega

theorem publication_open {row : Row} {now : Time} {held : Publication} (done : publication C row now = some held) :
    ∀ event ∈ readEvents row.version, event.action ≠ .disable := by
  unfold publication at done
  simp only [Option.bind_eq_bind, Option.bind_eq_some_iff, Option.guard_eq_some'] at done
  obtain ⟨_, -, _, -, _, free, -⟩ := done
  intro event inside closed
  refine free (List.any_eq_true.2 ⟨event, inside, ?_⟩)
  simp [closed]

/-! ## Retrieval -/

/-- What is known of a row that `retrieve` returns. -/
structure Offered (C : Codec) (catalog : Catalog) (disabled : List Key) (row : Row) : Prop where
  eligible : ∃ content, row.version.content = some content ∧ lineageEligible C content catalog disabled = .ok true
  published : ∃ now held, publication C row now = some held

theorem considerRow_ok {q : QueryInput} {subject : Subject} {catalog : Catalog} {disabled : List Key} {row : Row}
    {reads reads' : Nat} {found : Match}
    (done : considerRow C W q subject catalog disabled row reads = (.ok (some found), reads')) :
    found.reference = row.ref ∧ Offered C catalog disabled row := by
  unfold considerRow at done
  simp only [Tx.bind_ok, Tx.lift_ok, Row.read, require_ok] at done
  obtain ⟨content, _, ⟨body, rfl⟩, done⟩ := done
  split at done
  · simp at done
  simp only [Tx.bind_ok, Tx.lift_ok] at done
  obtain ⟨eligible, _, ⟨walked, rfl⟩, done⟩ := done
  cases eligible with
  | false => simp at done
  | true =>
  simp only [not_true_eq_false, if_false] at done
  split at done
  · simp at done
  simp only [Tx.bind_ok, Tx.lift_ok] at done
  obtain ⟨now, _, -, done⟩ := done
  cases published : publication C row now with
  | none => simp [published] at done
  | some held =>
  simp only [published, Tx.bind_ok, Tx.lift_ok, Tx.pure_ok] at done
  obtain ⟨_, _, -, _, _, -, _, _, -, _, _, -, same, -⟩ := done
  split at same
  · cases same
  · split at same
    · cases same
    · obtain rfl := Option.some.inj same
      exact ⟨rfl, ⟨content, body, walked⟩, now, held, published⟩

theorem considerRows_ok {q : QueryInput} {subject : Subject} {catalog : Catalog} {disabled : List Key} {rows : List Row}
    {reads : Nat} {all : List Match × Bool}
    (done : considerRows C W ctx q subject catalog disabled reads rows = .ok all) :
    ∀ found ∈ all.1, ∃ row ∈ rows, found.reference = row.ref ∧ Offered C catalog disabled row := by
  induction rows generalizing reads all with
  | nil =>
      obtain rfl := Except.ok.inj done
      exact fun _ member => (nomatch member)
  | cons row rest ih =>
      have weaken : ∀ {later : List Match × Bool} {reads : Nat} {found : Match},
          considerRows C W ctx q subject catalog disabled reads rest = .ok later → found ∈ later.1 →
          ∃ other ∈ row :: rest, found.reference = other.ref ∧ Offered C catalog disabled other := by
        intro later reads found remaining member
        obtain ⟨other, inside, facts⟩ := ih remaining found member
        exact ⟨other, List.mem_cons_of_mem _ inside, facts⟩
      unfold considerRows at done
      intro found member
      split at done
      · exact weaken done member
      · split at done
        · rename_i answer reads' first
          simp only [bind_ok] at done
          obtain ⟨later, remaining, same⟩ := done
          obtain rfl := Except.ok.inj same
          rcases List.mem_append.1 member with here | there
          · obtain rfl := Option.mem_toList.1 here
            exact ⟨row, List.mem_cons_self, considerRow_ok first⟩
          · exact weaken remaining there
        · simp only [bind_ok] at done
          obtain ⟨_, -, later, remaining, same⟩ := done
          obtain rfl := Except.ok.inj same
          exact weaken remaining member

theorem retrieveBody_ok {q : QueryInput} {read : QueryRead} (done : retrieveBody C W ctx q db = (.ok read, db')) :
    db'.versions = db.versions ∧ ∃ rows, scan db ctx = .ok rows ∧ ∀ found ∈ read.found, ∃ row ∈ rows,
      found.reference = row.ref ∧ Offered C (catalogOf rows) (disabledKeys rows) row := by
  unfold retrieveBody at done
  simp only [Tx.get_bind_ok, Tx.refuse_bind_ok, Tx.lift_bind_ok] at done
  obtain ⟨-, subject, -, rows, scanned, all, considered, now, -, consumed, -, -, _, -, _, -, rest⟩ := done
  rw [Tx.bind_ok] at rest
  obtain ⟨_, after, audited, rest⟩ := rest
  simp only [Tx.lift_bind_ok, Tx.pure_ok] at rest
  obtain ⟨_, -, _, -, rfl, rfl⟩ := rest
  refine ⟨audit_ok audited, rows, scanned, fun found member => ?_⟩
  exact considerRows_ok considered found ((List.mem_insertionSort _).1 (List.mem_of_mem_take member))

/-- **Retrieval.**  A version that is returned is open. -/
theorem Catalogued.retrieveBody_open (cat : Catalogued C db) {q : QueryInput} {read : QueryRead}
    (done : retrieveBody C W ctx q db = (.ok read, db')) {found : Match} (member : found ∈ read.found) {row : Row}
    (inside : row ∈ db.rows (visible ctx)) (named : row.ref = found.reference) : ¬ db.Closed row.key := by
  obtain ⟨-, rows, scanned, offered⟩ := retrieveBody_ok done
  obtain ⟨other, there, same, ⟨⟨content, body, walked⟩, now, held, published⟩⟩ := offered found member
  have seen := there
  rw [(scan_ok scanned).1] at seen
  obtain rfl := cat.ref_inj inside seen (named.trans same)
  refine cat.not_closed scanned there body walked ?_
  rintro ⟨version, found, event, recorded, closed⟩
  obtain rfl := Option.some.inj ((mem_rows.1 inside).2.symm.trans found)
  exact publication_open published event (mem_readEvents (cat.few _ _ found) recorded) closed

/-! ## Rows that are rewritten -/

/-- Every row is rewritten by `g`, and no row comes or goes. -/
def Rewrites (db db' : Store) (g : Key → Version → Version) : Prop :=
  ∀ k, db'.versions.row k = (db.versions.row k).map (g k)

/-- The contents stay, and events are only added. -/
structure Keeps (g : Key → Version → Version) : Prop where
  content : ∀ k version, (g k version).content = version.content
  digest : ∀ k version, (g k version).digest = version.digest
  events : ∀ k version, version.events <+: (g k version).events

theorem rewrites_modify {f : Version → Version} (same : db'.versions = (db.modify k f).versions) :
    Rewrites db db' fun j version => if j = k then f version else version := by
  intro j
  rw [same]
  exact Table.row_modify _ _ _ _

namespace Rewrites

variable {g : Key → Version → Version}

theorem row (rewrites : Rewrites db db' g) {version : Version} (found : db'.versions.row k = some version) :
    ∃ old, db.versions.row k = some old ∧ g k old = version := by
  rw [rewrites k] at found
  exact Option.map_eq_some_iff.1 found

theorem row_of (rewrites : Rewrites db db' g) {version : Version} (found : db.versions.row k = some version) :
    db'.versions.row k = some (g k version) := by
  rw [rewrites k, found, Option.map_some]

theorem isSome (rewrites : Rewrites db db' g) (k : Key) : (db'.versions.row k).isSome = (db.versions.row k).isSome := by
  rw [rewrites k, Option.isSome_map]

theorem parent (rewrites : Rewrites db db' g) (keeps : Keeps g) (k : Key) : db'.parent k = db.parent k := by
  unfold Store.parent
  rw [rewrites k]
  cases db.versions.row k with
  | none => rfl
  | some version => simp only [Option.map_some, Option.bind_some, keeps.content]

theorem reaches (rewrites : Rewrites db db' g) (keeps : Keeps g) : db'.Reaches = db.Reaches := by
  unfold Store.Reaches
  simp only [rewrites.parent keeps]

theorem disabled (rewrites : Rewrites db db' g) (keeps : Keeps g) (was : db.Disabled k) : db'.Disabled k := by
  obtain ⟨version, found, event, inside, is_⟩ := was
  exact ⟨_, rewrites.row_of found, event, (keeps.events k version).subset inside, is_⟩

theorem catalogued (rewrites : Rewrites db db' g) (keeps : Keeps g) (cat : Catalogued C db)
    (few : ∀ k version, db.versions.row k = some version → (g k version).events.length ≤ maxEvents) :
    Catalogued C db' where
  intact k version found := by
    obtain ⟨old, there, rfl⟩ := rewrites.row found
    rw [keeps.content, keeps.digest]
    exact cat.intact k old there
  parents k version content reference found body link := by
    obtain ⟨old, there, rfl⟩ := rewrites.row found
    rw [keeps.content] at body
    obtain ⟨parent, above, digest⟩ := cat.parents k old content reference there body link
    exact ⟨_, rewrites.row_of above, by rw [keeps.digest, digest]⟩
  shared j k first second := by
    rw [rewrites.isSome] at first second
    exact cat.shared j k first second
  few k version found := by
    obtain ⟨old, there, rfl⟩ := rewrites.row found
    exact few k old there

/-- A rewrite that adds no disable event closes nothing. -/
theorem closed_iff (rewrites : Rewrites db db' g) (keeps : Keeps g)
    (quiet : ∀ k version, db.versions.row k = some version → ∀ event ∈ (g k version).events,
      event.action = .disable → event ∈ version.events) (k : Key) : db'.Closed k ↔ db.Closed k := by
  have same : ∀ d, db'.Disabled d ↔ db.Disabled d := by
    intro d
    refine ⟨?_, rewrites.disabled keeps⟩
    rintro ⟨version, found, event, inside, is_⟩
    obtain ⟨old, there, rfl⟩ := rewrites.row found
    exact ⟨old, there, event, quiet d old there event inside is_, is_⟩
  unfold Store.Closed
  simp only [rewrites.reaches keeps, same]

end Rewrites

/-! ## Pending feedback -/

/-- What holds of the feedback between calls. -/
structure Settled (db : Store) : Prop where
  pending : ∀ k version feedback, db.versions.row k = some version → feedback ∈ version.feedback →
    feedback.review = none → ¬ db.Closed k ∧
      ∀ correction, feedback.body.correction = some correction → ¬ db.Closed (correction.key k.contextId)
  corrections : ∀ k version feedback correction, db.versions.row k = some version → feedback ∈ version.feedback →
    feedback.body.correction = some correction →
    ∃ row, db.versions.row (correction.key k.contextId) = some row ∧ row.digest = correction.digest

/-- A rewrite that closes nothing, and whose feedback is settled. -/
theorem Settled.rewrites {g : Key → Version → Version} (settled : Settled db) (rewrites : Rewrites db db' g)
    (keeps : Keeps g) (closed : ∀ k, db'.Closed k ↔ db.Closed k)
    (fresh : ∀ k version feedback, db.versions.row k = some version → feedback ∈ (g k version).feedback →
      (∃ old ∈ version.feedback, old.body = feedback.body ∧ (feedback.review = none → old.review = none)) ∨
      (¬ db.Closed k ∧ ∀ correction, feedback.body.correction = some correction →
        ¬ db.Closed (correction.key k.contextId) ∧
        ∃ row, db.versions.row (correction.key k.contextId) = some row ∧ row.digest = correction.digest)) :
    Settled db' where
  pending k version feedback found inside open_ := by
    obtain ⟨old, there, rfl⟩ := rewrites.row found
    simp only [closed]
    rcases fresh k old feedback there inside with ⟨before, member, same, still⟩ | ⟨own, others⟩
    · rw [← same]
      exact settled.pending k old before there member (still open_)
    · exact ⟨own, fun correction names => (others correction names).1⟩
  corrections k version feedback correction found inside names := by
    obtain ⟨old, there, rfl⟩ := rewrites.row found
    have row : ∃ row, db.versions.row (correction.key k.contextId) = some row ∧ row.digest = correction.digest := by
      rcases fresh k old feedback there inside with ⟨before, member, same, -⟩ | ⟨-, others⟩
      · exact settled.corrections k old before correction there member (same ▸ names)
      · exact (others correction names).2
    obtain ⟨row, there', digest⟩ := row
    exact ⟨_, rewrites.row_of there', by rw [keeps.digest, digest]⟩

/-! ## A new version -/

structure Recorded (C : Codec) (db db' : Store) (content : Content) (version : Version) (ctx : Int) : Prop where
  put : db'.versions = db.versions.put (content.key ctx) version
  absent : db.versions.row (content.key ctx) = none
  unique : content.scope = .reusableSynthetic → ∀ k, (db.versions.row k).isSome → k.scope = .reusableSynthetic →
    ¬ (k.knowledgeId = content.knowledgeId ∧ k.version = content.version)
  body : version.content = some content
  digest : version.digest = C.digest content
  events : version.events = []
  feedback : version.feedback = []
  parent : ∀ reference, content.supersedes = some reference →
    ∃ old, db.versions.row (reference.key ctx) = some old ∧ old.digest = reference.digest

theorem recordBody_ok {p : RecordInput} {reference : ExactRef} (done : recordBody C W ctx p db = (.ok reference, db')) :
    ∃ version, Recorded C db db' p.content version ctx ∧ (db.rows (·.contextId = ctx)).length < maxVersions ∧
      (p.content.scope = .reusableSynthetic → (db.rows (·.scope = .reusableSynthetic)).length < maxVersions) := by
  unfold recordBody at done
  simp only [Tx.get_bind_ok, Tx.refuse_bind_ok, Tx.lift_bind_ok, Tx.modify_bind_ok] at done
  obtain ⟨-, -, _, above, _, -, own, shared, now, -, free, rest⟩ := done
  rw [Tx.bind_ok] at rest
  obtain ⟨_, after, audited, answer⟩ := rest
  obtain ⟨-, rfl⟩ := Tx.pure_ok.1 answer
  have absent : db.versions.row (p.content.key ctx) = none := by
    rw [taken, Bool.not_eq_true, Bool.or_eq_false_iff] at free
    simpa using free.1
  refine ⟨_, ⟨audit_ok audited, absent, fun isShared k there also named => free ?_, rfl, rfl, rfl, rfl,
    fun reference link => ?_⟩, Nat.not_le.1 own, fun isShared => Nat.not_le.1 fun full => shared ⟨isShared, full⟩⟩
  · unfold taken
    rw [Bool.or_eq_true, Bool.and_eq_true]
    refine .inr ⟨decide_eq_true isShared, List.any_eq_true.2 ⟨k, (db.versions.mem_keys k).2 there, ?_⟩⟩
    rw [Bool.and_eq_true, Bool.and_eq_true]
    exact ⟨⟨decide_eq_true also, decide_eq_true named.1⟩, decide_eq_true named.2⟩
  · unfold checkSuperseded at above
    rw [link] at above
    simp only [bind_ok] at above
    obtain ⟨old, read, -⟩ := above
    obtain ⟨key, found, digest⟩ := exactOwned_ok read
    exact ⟨old.version, key ▸ found, digest⟩

namespace Recorded

variable {content : Content} {version : Version}

theorem row_of (recorded : Recorded C db db' content version ctx) {old : Version}
    (found : db.versions.row k = some old) : db'.versions.row k = some old := by
  have other : k ≠ content.key ctx := by
    rintro rfl
    nomatch recorded.absent.symm.trans found
  rw [recorded.put, Table.row_put_of_ne _ _ other, found]

theorem row (recorded : Recorded C db db' content version ctx) {new : Version}
    (found : db'.versions.row k = some new) :
    (k = content.key ctx ∧ new = version) ∨ db.versions.row k = some new := by
  rw [recorded.put, Table.row_put] at found
  split at found
  · rename_i same
    exact .inl ⟨same, (Option.some.inj found).symm⟩
  · exact .inr found

theorem parent_eq (recorded : Recorded C db db' content version ctx) {old : Version}
    (found : db.versions.row k = some old) : db'.parent k = db.parent k := by
  unfold Store.parent
  rw [recorded.row_of found, found]

theorem disabled_iff (recorded : Recorded C db db' content version ctx) : db'.Disabled k ↔ db.Disabled k := by
  constructor
  · rintro ⟨new, found, event, inside, is_⟩
    rcases recorded.row found with ⟨-, rfl⟩ | found
    · rw [recorded.events] at inside
      nomatch inside
    · exact ⟨new, found, event, inside, is_⟩
  · rintro ⟨old, found, event, inside, is_⟩
    exact ⟨old, recorded.row_of found, event, inside, is_⟩

/-- What a version reaches stays, and nothing is added to it. -/
theorem reaches_iff (recorded : Recorded C db db' content version ctx) (cat : Catalogued C db) {d : Key}
    (there : (db.versions.row k).isSome) :
    (db'.Reaches k d ↔ db.Reaches k d) := by
  constructor
  · intro reaches
    suffices both : db.Reaches k d ∧ (db.versions.row d).isSome from both.1
    induction reaches with
    | refl => exact ⟨.refl, there⟩
    | tail _ link ih =>
        obtain ⟨before, present⟩ := ih
        obtain ⟨old, found⟩ := Option.isSome_iff_exists.1 present
        have up := recorded.parent_eq found ▸ link
        obtain ⟨body, is_, -, -⟩ := cat.intact _ _ found
        rw [Catalogued.parent_eq found is_] at up
        obtain ⟨reference, names, rfl⟩ := Option.map_eq_some_iff.1 up
        obtain ⟨above, found', -⟩ := cat.parents _ _ _ _ found is_ names
        refine ⟨before.tail ?_, Option.isSome_of_eq_some found'⟩
        rw [Catalogued.parent_eq found is_, names]
        rfl
  · intro reaches
    induction reaches with
    | refl => exact .refl
    | @tail b c _ link ih =>
        refine ih.tail ?_
        cases found : db.versions.row b with
        | none => simp [Store.parent, found] at link
        | some old => rw [recorded.parent_eq found, link]

theorem closed_iff (recorded : Recorded C db db' content version ctx) (cat : Catalogued C db)
    (there : (db.versions.row k).isSome) : db'.Closed k ↔ db.Closed k := by
  unfold Store.Closed
  simp only [recorded.reaches_iff cat there, recorded.disabled_iff]

theorem catalogued (recorded : Recorded C db db' content version ctx) (cat : Catalogued C db) : Catalogued C db' where
  intact k new found := by
    rcases recorded.row found with ⟨rfl, rfl⟩ | found
    · exact ⟨content, recorded.body, recorded.digest, rfl⟩
    · exact cat.intact k new found
  parents k new body reference found is_ link := by
    rcases recorded.row found with ⟨rfl, rfl⟩ | found
    · obtain rfl := Option.some.inj (recorded.body.symm.trans is_)
      obtain ⟨old, there, digest⟩ := recorded.parent reference link
      exact ⟨old, recorded.row_of there, digest⟩
    · obtain ⟨old, there, digest⟩ := cat.parents k new body reference found is_ link
      exact ⟨old, recorded.row_of there, digest⟩
  shared j k first second isJ isK id number := by
    obtain ⟨a, foundA⟩ := Option.isSome_iff_exists.1 first
    obtain ⟨b, foundB⟩ := Option.isSome_iff_exists.1 second
    rcases recorded.row foundA with ⟨rfl, rfl⟩ | foundA <;> rcases recorded.row foundB with ⟨rfl, rfl⟩ | foundB
    · rfl
    · exact absurd ⟨id.symm, number.symm⟩ (recorded.unique isJ k (Option.isSome_of_eq_some foundB) isK)
    · exact absurd ⟨id, number⟩ (recorded.unique isK j (Option.isSome_of_eq_some foundA) isJ)
    · exact cat.shared j k (Option.isSome_of_eq_some foundA) (Option.isSome_of_eq_some foundB) isJ isK id number
  few k new found := by
    rcases recorded.row found with ⟨rfl, rfl⟩ | found
    · rw [recorded.events]
      exact Nat.zero_le _
    · exact cat.few k new found

theorem settled (recorded : Recorded C db db' content version ctx) (cat : Catalogued C db) (settled : Settled db) :
    Settled db' where
  pending k new feedback found inside open_ := by
    rcases recorded.row found with ⟨rfl, rfl⟩ | found
    · rw [recorded.feedback] at inside
      nomatch inside
    · obtain ⟨own, others⟩ := settled.pending k new feedback found inside open_
      refine ⟨fun closed => own ((recorded.closed_iff cat (Option.isSome_of_eq_some found)).1 closed), ?_⟩
      intro correction names closed
      obtain ⟨row, there, -⟩ := settled.corrections k new feedback correction found inside names
      exact others correction names ((recorded.closed_iff cat (Option.isSome_of_eq_some there)).1 closed)
  corrections k new feedback correction found inside names := by
    rcases recorded.row found with ⟨rfl, rfl⟩ | found
    · rw [recorded.feedback] at inside
      nomatch inside
    · obtain ⟨row, there, digest⟩ := settled.corrections k new feedback correction found inside names
      exact ⟨row, recorded.row_of there, digest⟩

end Recorded

/-! ## Decisions -/

theorem decidePublished_ok {action : Action} {deadlines : List Time}
    (done : decidePublished C W k action db = (.ok deadlines, db')) : db = db' := by
  unfold decidePublished at done
  split at done
  · simp only [Tx.lift_bind_ok, Tx.get_bind_ok, Tx.pure_ok] at done
    obtain ⟨_, -, _, -, _, -, -, same⟩ := done
    exact same
  · exact (Tx.pure_ok.1 done).2

theorem invalidatePending_ok {a : Unit} (done : invalidatePending C W ctx db = (.ok a, db')) :
    ∃ rows, scan db ctx = .ok rows ∧ db' = db.invalidate W ctx (affected C rows) := by
  unfold invalidatePending at done
  simp only [Tx.get_bind_ok, Tx.lift_bind_ok, Tx.refuse_bind_ok, Tx.modify_ok] at done
  obtain ⟨rows, read, -, -, same⟩ := done
  exact ⟨rows, read, same.symm⟩

/-- The event a decision appends. -/
def Store.appendEvent (db : Store) (k : Key) (event : Event) : Store :=
  db.modify k fun version => { version with events := version.events ++ [event] }

theorem decideBody_ok {p : DecisionInput} {answer : Decided} (done : decideBody C W ctx p db = (.ok answer, db')) :
    ∃ row event, exactOwned db ctx p.reference = .ok row ∧ (readEvents row.version).length < maxEvents ∧
      event.action = p.action ∧ (p.action.opens = true → (readEvents row.version).length < maxEvents - 2) ∧
      (p.action = .publish → ∃ deadlines, live C W .entry db ctx row = .ok deadlines) ∧
      (p.action ≠ .disable → db'.versions = (db.appendEvent row.key event).versions) ∧
      (p.action = .disable → ∃ rows, scan (db.appendEvent row.key event) ctx = .ok rows ∧
        db'.versions = ((db.appendEvent row.key event).invalidate W ctx (affected C rows)).versions) := by
  unfold decideBody at done
  simp only [Tx.get_bind_ok, Tx.refuse_bind_ok, Tx.lift_bind_ok, Tx.modify_bind_ok] at done
  obtain ⟨row, read, closed, room, -, -, proven, proof_, sources, opened, now, -, rest⟩ := done
  simp only [Tx.bind_ok] at rest
  obtain ⟨published, _, held, _, middle, invalidated, _, after, audited, _, _, finished, answer⟩ := rest
  obtain rfl := decidePublished_ok held
  obtain rfl : after = db' := by
    obtain ⟨-, rfl⟩ := Tx.pure_ok.1 answer
    rcases Tx.when_ok.1 finished with ⟨-, lifted⟩ | ⟨-, same⟩
    · exact (Tx.lift_ok.1 lifted).2
    · exact same
  refine ⟨row, newEvent row (readEvents row.version) p now, read, ?_, rfl, fun opens => ?_, fun publishes => ?_,
    fun other => ?_, fun disables => ?_⟩
  · rw [not_or, Nat.not_le] at room
    exact room.2
  · simp only [decideSources, opens, if_true, bind_ok, refuse_ok, not_or, Nat.not_le] at opened
    obtain ⟨_, ⟨few, -⟩, -⟩ := opened
    exact few
  · cases given : p.validationRef with
    | none => exact absurd ⟨publishes, given⟩ closed
    | some reference =>
        simp only [decideProof, given, bind_ok] at proof_
        obtain ⟨_, -, deadlines, alive, -⟩ := proof_
        exact ⟨deadlines, alive⟩
  · rcases Tx.when_ok.1 invalidated with ⟨disables, -⟩ | ⟨-, rfl⟩
    · exact absurd disables other
    · exact audit_ok audited
  · rcases Tx.when_ok.1 invalidated with ⟨-, called⟩ | ⟨other, -⟩
    · obtain ⟨rows, scanned, rfl⟩ := invalidatePending_ok called
      exact ⟨rows, scanned, audit_ok audited⟩
    · exact absurd disables other

theorem rewrites_appendEvent {event : Event} (same : db'.versions = (db.appendEvent k event).versions) :
    Rewrites db db' fun j version =>
      if j = k then { version with events := version.events ++ [event] } else version :=
  rewrites_modify same

theorem keeps_appendEvent (k : Key) (event : Event) :
    Keeps fun j version => if j = k then { version with events := version.events ++ [event] } else version where
  content j version := by split <;> rfl
  digest j version := by split <;> rfl
  events j version := by
    split
    · exact List.prefix_append _ _
    · exact List.prefix_refl _

/-- What `invalidate_pending` makes of a version. -/
def invalidated (W : World) (ctx : Int) (some_ : List Row) (k : Key) (version : Version) : Version :=
  if k.contextId = ctx then
    { version with
      feedback := version.feedback.map fun feedback =>
        if feedback.hit k some_ then
          { feedback with review := some ⟨.invalidate, (W.time (.invalidated k feedback.number)).getD 0⟩ }
        else feedback }
  else version

theorem rewrites_invalidate {some_ : List Row} (same : db'.versions = (db.invalidate W ctx some_).versions) :
    Rewrites db db' (invalidated W ctx some_) := by
  intro k
  rw [same]
  rfl

theorem keeps_invalidate (W : World) (ctx : Int) (some_ : List Row) : Keeps (invalidated W ctx some_) where
  content k version := by unfold invalidated; split <;> rfl
  digest k version := by unfold invalidated; split <;> rfl
  events k version := by unfold invalidated; split <;> exact List.prefix_refl _

theorem readEvents_length (version : Version) :
    (readEvents version).length = min (maxEvents + 1) version.events.length := by
  rw [readEvents, List.length_take, List.length_insertionSort]

theorem Catalogued.appendEvent (cat : Catalogued C db) {row : Row} (event : Event)
    (found : db.versions.row row.key = some row.version) (room : (readEvents row.version).length < maxEvents) :
    Catalogued C (db.appendEvent row.key event) := by
  refine (rewrites_appendEvent rfl).catalogued (keeps_appendEvent _ _) cat fun k version there => ?_
  split
  · rename_i same
    subst same
    obtain rfl := Option.some.inj (found.symm.trans there)
    rw [readEvents_length] at room
    rw [List.length_append, List.length_singleton]
    omega
  · exact cat.few k version there

/-- What holds between calls. -/
structure Sound (C : Codec) (db : Store) : Prop where
  catalogued : Catalogued C db
  settled : Settled db

/-- What every call keeps of the versions: they stay, with what they supersede, and so do the
disable events. -/
structure Grows (db db' : Store) : Prop where
  reaches : ∀ k d, (db.versions.row k).isSome → (db'.Reaches k d ↔ db.Reaches k d)
  disabled : ∀ k, db.Disabled k → db'.Disabled k
  stays : ∀ k, (db.versions.row k).isSome → (db'.versions.row k).isSome

theorem Grows.refl (db : Store) : Grows db db := ⟨fun _ _ _ => Iff.rfl, fun _ was => was, fun _ was => was⟩

theorem Grows.trans {db'' : Store} (first : Grows db db') (second : Grows db' db'') : Grows db db'' where
  reaches k d there := (second.reaches k d (first.stays k there)).trans (first.reaches k d there)
  disabled k was := second.disabled k (first.disabled k was)
  stays k there := second.stays k (first.stays k there)

theorem Rewrites.grows {g : Key → Version → Version} (rewrites : Rewrites db db' g) (keeps : Keeps g) :
    Grows db db' where
  reaches k d _ := by rw [rewrites.reaches keeps]
  disabled k was := rewrites.disabled keeps was
  stays k there := by rwa [rewrites.isSome]

theorem Recorded.grows {content : Content} {version : Version} (recorded : Recorded C db db' content version ctx)
    (cat : Catalogued C db) : Grows db db' where
  reaches k d there := recorded.reaches_iff cat there
  disabled k was := recorded.disabled_iff.2 was
  stays k there := by
    obtain ⟨old, found⟩ := Option.isSome_iff_exists.1 there
    exact Option.isSome_of_eq_some (recorded.row_of found)

/-- A rewrite of one version that adds no events and no feedback that is not settled. -/
theorem Sound.modify (sound : Sound C db) {f : Version → Version} (same : db'.versions = (db.modify k f).versions)
    (content : ∀ version, (f version).content = version.content)
    (digest : ∀ version, (f version).digest = version.digest)
    (events : ∀ version, (f version).events = version.events)
    (fresh : ∀ version feedback, db.versions.row k = some version → feedback ∈ (f version).feedback →
      (∃ old ∈ version.feedback, old.body = feedback.body ∧ (feedback.review = none → old.review = none)) ∨
      (¬ db.Closed k ∧ ∀ correction, feedback.body.correction = some correction →
        ¬ db.Closed (correction.key k.contextId) ∧
        ∃ row, db.versions.row (correction.key k.contextId) = some row ∧ row.digest = correction.digest)) :
    Sound C db' ∧ Grows db db' := by
  have rewrites := rewrites_modify same
  have keeps : Keeps fun j version => if j = k then f version else version := by
    refine ⟨fun j version => ?_, fun j version => ?_, fun j version => ?_⟩
    · split
      · exact content version
      · rfl
    · split
      · exact digest version
      · rfl
    · split
      · rw [events version]
      · exact List.prefix_refl _
  have kept : ∀ j version, (if j = k then f version else version).events = version.events := by
    intro j version
    split
    · exact events version
    · rfl
  refine ⟨⟨rewrites.catalogued keeps sound.catalogued fun j version found => ?_, ?_⟩, rewrites.grows keeps⟩
  · rw [kept]
    exact sound.catalogued.few j version found
  · refine sound.settled.rewrites rewrites keeps
      (rewrites.closed_iff keeps fun j version _ event inside _ => by rwa [kept] at inside) ?_
    intro j version feedback found inside
    split at inside
    · rename_i here
      subst here
      exact fresh version feedback found inside
    · exact .inl ⟨feedback, inside, rfl, id⟩

theorem Sound.congr (sound : Sound C db) (same : db'.versions = db.versions) : Sound C db' ∧ Grows db db' := by
  obtain ⟨versions, audits⟩ := db
  obtain ⟨versions', audits'⟩ := db'
  obtain rfl : versions' = versions := same
  have rewrites : Rewrites ⟨versions', audits⟩ ⟨versions', audits'⟩ fun _ version => version := by
    intro k
    simp
  have keeps : Keeps fun _ version => version := ⟨fun _ _ => rfl, fun _ _ => rfl, fun _ _ => List.prefix_refl _⟩
  refine ⟨⟨rewrites.catalogued keeps sound.catalogued sound.catalogued.few, ?_⟩, rewrites.grows keeps⟩
  refine sound.settled.rewrites rewrites keeps
    (rewrites.closed_iff keeps fun _ _ _ event inside _ => inside) fun _ _ feedback _ inside => ?_
  exact .inl ⟨feedback, inside, rfl, id⟩

/-- A decision that does not disable closes nothing. -/
theorem Sound.appendEvent (sound : Sound C db) {row : Row} {event : Event}
    (found : db.versions.row row.key = some row.version) (room : (readEvents row.version).length < maxEvents)
    (other : event.action ≠ .disable) : Sound C (db.appendEvent row.key event) := by
  have rewrites : Rewrites db (db.appendEvent row.key event) _ := rewrites_appendEvent rfl
  have keeps := keeps_appendEvent row.key event
  refine ⟨sound.catalogued.appendEvent event found room, sound.settled.rewrites rewrites keeps
    (rewrites.closed_iff keeps ?_) ?_⟩
  · intro k version _ added inside disables
    split at inside
    · rcases List.mem_append.1 inside with old | new
      · exact old
      · rw [List.mem_singleton.1 new] at disables
        exact absurd disables other
    · exact inside
  · intro k version feedback _ inside
    refine .inl ⟨feedback, ?_, rfl, id⟩
    split at inside <;> exact inside

/-- A version of another context is not closed by a disable event. -/
theorem closed_of_appendEvent {event : Event} {d : Key} (other : k.contextId ≠ d.contextId)
    (closed : (db.appendEvent d event).Closed k) : db.Closed k := by
  have rewrites : Rewrites db (db.appendEvent d event) _ := rewrites_appendEvent rfl
  obtain ⟨target, reaches, version, found, added, inside, is_⟩ := closed
  rw [rewrites.reaches (keeps_appendEvent d event)] at reaches
  have away : target ≠ d := by
    rintro rfl
    exact other (reaches_context reaches).symm
  obtain ⟨old, there, rfl⟩ := rewrites.row found
  rw [if_neg away] at inside
  exact ⟨target, reaches, old, there, added, inside, is_⟩

/-- A disable reviews the pending feedback of what it closes. -/
theorem Sound.disable (sound : Sound C db) {row : Row} {event : Event}
    (found : db.versions.row row.key = some row.version) (own : row.key.contextId = ctx)
    (room : (readEvents row.version).length < maxEvents) {rows : List Row}
    (read : scan (db.appendEvent row.key event) ctx = .ok rows)
    (same : db'.versions = ((db.appendEvent row.key event).invalidate W ctx (affected C rows)).versions) :
    Sound C db' ∧ Grows db db' := by
  have first : Rewrites db (db.appendEvent row.key event) _ := rewrites_appendEvent rfl
  have cat := sound.catalogued.appendEvent event found room
  have second := rewrites_invalidate same
  have keeps := keeps_invalidate W ctx (affected C rows)
  have events : ∀ k version, (invalidated W ctx (affected C rows) k version).events = version.events := by
    intro k version
    unfold invalidated
    split <;> rfl
  have still := second.closed_iff keeps fun k version _ added inside _ => by rwa [events] at inside
  refine ⟨⟨second.catalogued keeps cat fun k version there => ?_, ?_⟩,
    (first.grows (keeps_appendEvent _ _)).trans (second.grows keeps)⟩
  · rw [events]
    exact cat.few k version there
  -- the feedback of a row before the event was appended
  have back : ∀ {k : Key} {version : Version}, (db.appendEvent row.key event).versions.row k = some version →
      ∃ old, db.versions.row k = some old ∧ version.feedback = old.feedback := by
    intro k version there
    obtain ⟨old, before, rfl⟩ := first.row there
    exact ⟨old, before, by split <;> rfl⟩
  have corrections : ∀ {k : Key} {version : Version} {feedback : Feedback} {correction : ExactRef},
      (db.appendEvent row.key event).versions.row k = some version → feedback ∈ version.feedback →
      feedback.body.correction = some correction →
      ∃ there, (db.appendEvent row.key event).versions.row (correction.key k.contextId) = some there ∧
        there.digest = correction.digest := by
    intro k version feedback correction there inside names
    obtain ⟨old, before, same⟩ := back there
    obtain ⟨target, at_, digest⟩ := sound.settled.corrections k old feedback correction before (same ▸ inside) names
    exact ⟨_, first.row_of at_, by rw [(keeps_appendEvent _ _).digest, digest]⟩
  constructor
  · intro k version feedback there inside open_
    simp only [still]
    obtain ⟨middle, before, rfl⟩ := second.row there
    by_cases here : k.contextId = ctx
    · -- the context of the disabled version: what is still pending was not hit
      rw [invalidated, if_pos here] at inside
      obtain ⟨pending, member, rfl⟩ := List.mem_map.1 inside
      by_cases hit : pending.hit k (affected C rows) = true
      · rw [if_pos hit] at open_
        nomatch open_
      rw [if_neg hit] at open_ ⊢
      simp only [Feedback.hit, open_, Option.isNone_none, Bool.true_and, Bool.or_eq_true, decide_eq_true_eq,
        not_or] at hit
      refine ⟨fun closed => hit.1 ?_, fun correction names closed => hit.2 ?_⟩
      · have inRows : (⟨k, middle⟩ : Row) ∈ rows := (mem_scan read).2 ⟨by simp [visible, here], before⟩
        exact List.mem_map.2 ⟨_, cat.mem_affected read inRows closed, rfl⟩
      · obtain ⟨target, at_, digest⟩ := corrections before member names
        have inRows : (⟨correction.key k.contextId, target⟩ : Row) ∈ rows :=
          (mem_scan read).2 ⟨by simp [visible, ExactRef.key, here], at_⟩
        rw [names, Option.any_some, decide_eq_true_eq]
        exact List.mem_map.2 ⟨_, cat.mem_affected read inRows closed, Row.ref_eq rfl digest⟩
    · rw [invalidated, if_neg here] at inside
      obtain ⟨old, earlier, same⟩ := back before
      obtain ⟨ownOpen, others⟩ := sound.settled.pending k old feedback earlier (same ▸ inside) open_
      rw [← own] at here
      exact ⟨fun closed => ownOpen (closed_of_appendEvent here closed),
        fun correction names closed => others correction names (closed_of_appendEvent here closed)⟩
  · intro k version feedback correction there inside names
    obtain ⟨middle, before, rfl⟩ := second.row there
    have earlier : ∃ old ∈ middle.feedback, old.body = feedback.body := by
      unfold invalidated at inside
      split at inside
      · obtain ⟨old, member, rfl⟩ := List.mem_map.1 inside
        exact ⟨old, member, by split <;> rfl⟩
      · exact ⟨feedback, inside, rfl⟩
    obtain ⟨old, member, body⟩ := earlier
    obtain ⟨target, at_, digest⟩ := corrections before member (body ▸ names)
    exact ⟨_, second.row_of at_, by rw [keeps.digest, digest]⟩

theorem decideBody_sound (sound : Sound C db) {p : DecisionInput} {answer : Decided}
    (done : decideBody C W ctx p db = (.ok answer, db')) : Sound C db' ∧ Grows db db' := by
  obtain ⟨row, event, read, room, action, -, -, other, disables⟩ := decideBody_ok done
  obtain ⟨key, found, -⟩ := exactOwned_ok read
  by_cases isDisable : p.action = .disable
  · obtain ⟨rows, scanned, same⟩ := disables isDisable
    exact sound.disable found (by rw [key]; rfl) room scanned same
  · obtain ⟨after, grows⟩ := (sound.appendEvent found room (by rwa [action])).congr (other isDisable)
    exact ⟨after, ((rewrites_appendEvent rfl).grows (keeps_appendEvent _ _)).trans grows⟩

/-! ## Validation and feedback -/

theorem validateBody_ok {p : ValidateInput} {answer : Validated} (done : validateBody C W ctx p db = (.ok answer, db')) :
    ∃ row deadlines evidence, exactOwned db ctx p.reference = .ok row ∧ live C W .entry db ctx row = .ok deadlines ∧
      db'.versions = (db.modify row.key fun version =>
        { version with validations := version.validations ++ [evidence] }).versions := by
  unfold validateBody at done
  simp only [Tx.get_bind_ok, Tx.refuse_bind_ok, Tx.lift_bind_ok, Tx.modify_bind_ok] at done
  obtain ⟨row, read, first, alive, now, -, -, _, -, content, -, report, -, second, -, -, -, rest⟩ := done
  rw [Tx.bind_ok] at rest
  obtain ⟨_, after, audited, rest⟩ := rest
  simp only [Tx.lift_bind_ok, Tx.pure_ok] at rest
  obtain ⟨_, -, -, rfl⟩ := rest
  exact ⟨row, first, _, read, alive, audit_ok audited⟩

theorem validateBody_sound (sound : Sound C db) {p : ValidateInput} {answer : Validated}
    (done : validateBody C W ctx p db = (.ok answer, db')) : Sound C db' ∧ Grows db db' := by
  obtain ⟨row, _, evidence, -, -, same⟩ := validateBody_ok done
  refine sound.modify same (fun _ => rfl) (fun _ => rfl) (fun _ => rfl) fun version feedback _ inside => ?_
  exact .inl ⟨feedback, inside, rfl, id⟩

/-- The subject and the correction of a proposal that passes are open. -/
theorem Catalogued.checkProposal_ok (cat : Catalogued C db) {submitted : Bool} {row : Row} {p : FeedbackInput}
    {deadlines : List Time} (own : row.key.contextId = ctx) (found : db.versions.row row.key = some row.version)
    (done : checkProposal C W submitted db ctx row p = .ok deadlines) :
    ¬ db.Closed row.key ∧ ∀ correction, p.correction = some correction → ¬ db.Closed (correction.key ctx) ∧
      ∃ old, db.versions.row (correction.key ctx) = some old ∧ old.digest = correction.digest := by
  unfold checkProposal at done
  simp only [bind_ok] at done
  obtain ⟨subject, alive, now, -, evidence, -, rest⟩ := done
  refine ⟨cat.live_ok own found alive, fun correction names => ?_⟩
  rw [names] at rest
  simp only [bind_ok] at rest
  obtain ⟨other, read, _, -, further, current, -⟩ := rest
  obtain ⟨key, there, digest⟩ := exactOwned_ok read
  rw [← key]
  exact ⟨cat.live_ok (by rw [key]; rfl) there current, other.version, there, digest⟩

theorem submitBody_ok {p : FeedbackInput} {number : Nat} (done : submitBody C W ctx p db = (.ok number, db')) :
    ∃ row deadlines feedback, exactOwned db ctx p.reference = .ok row ∧
      checkProposal C W true db ctx row p = .ok deadlines ∧ feedback.body = p ∧
      ((db.rows (·.contextId = ctx)).map fun row => row.version.feedback.length).sum < maxFeedback ∧
      db'.versions = (db.modify row.key fun version =>
        { version with feedback := version.feedback ++ [feedback] }).versions := by
  unfold submitBody at done
  simp only [Tx.get_bind_ok, Tx.lift_bind_ok, Tx.modify_bind_ok] at done
  obtain ⟨row, read, deadlines, proposed, _, room, now, -, rest⟩ := done
  rw [Tx.bind_ok] at rest
  obtain ⟨_, after, audited, rest⟩ := rest
  simp only [Tx.lift_bind_ok, Tx.pure_ok] at rest
  obtain ⟨_, -, -, rfl⟩ := rest
  exact ⟨row, deadlines, _, read, proposed, rfl, Nat.not_le.1 (refuse_ok.1 room), audit_ok audited⟩

theorem submitBody_sound (sound : Sound C db) {p : FeedbackInput} {number : Nat}
    (done : submitBody C W ctx p db = (.ok number, db')) : Sound C db' ∧ Grows db db' := by
  obtain ⟨row, deadlines, feedback, read, proposed, body, -, same⟩ := submitBody_ok done
  obtain ⟨key, found, -⟩ := exactOwned_ok read
  have own : row.key.contextId = ctx := by rw [key]; rfl
  refine sound.modify same (fun _ => rfl) (fun _ => rfl) (fun _ => rfl) fun version added _ inside => ?_
  rcases List.mem_append.1 inside with old | new
  · exact .inl ⟨added, old, rfl, id⟩
  · rw [List.mem_singleton.1 new, body, own]
    exact .inr (sound.catalogued.checkProposal_ok own found proposed)

theorem reviewBody_ok {p : FeedbackReviewInput} {decision : Verdict}
    (done : reviewBody C W ctx p db = (.ok decision, db')) :
    ∃ row number review middle, db'.versions = middle.versions ∧
      (middle = db.modify row (·.addReview number review) ∨ ∃ p answer, p.action = .disable ∧
        decideBody C W ctx p (db.modify row (·.addReview number review)) = (.ok answer, middle)) := by
  unfold reviewBody at done
  simp only [Tx.get_bind_ok, Tx.lift_bind_ok, Tx.refuse_bind_ok, Tx.modify_bind_ok] at done
  obtain ⟨row, read, feedback, -, -, deadlines, -, now, -, rest⟩ := done
  simp only [Tx.bind_ok] at rest
  obtain ⟨_, middle, accepted, _, after, audited, _, _, finished, answer⟩ := rest
  obtain ⟨-, rfl⟩ := Tx.lift_ok.1 finished
  obtain ⟨-, rfl⟩ := Tx.pure_ok.1 answer
  refine ⟨row.key, feedback.number, ⟨if p.accept = true then .accept else .reject, now⟩, middle, audit_ok audited, ?_⟩
  rcases Tx.when_ok.1 accepted with ⟨-, called⟩ | ⟨-, same⟩
  · simp only [acceptDisable, Tx.refuse_bind_ok] at called
    obtain ⟨-, -, rest⟩ := called
    obtain ⟨_, _, decided, answer⟩ := Tx.bind_ok.1 rest
    obtain ⟨-, rfl⟩ := Tx.pure_ok.1 answer
    exact .inr ⟨_, _, rfl, Tx.savepoint_ok.1 decided⟩
  · exact .inl same.symm

theorem reviewBody_sound (sound : Sound C db) {p : FeedbackReviewInput} {decision : Verdict}
    (done : reviewBody C W ctx p db = (.ok decision, db')) : Sound C db' ∧ Grows db db' := by
  obtain ⟨k, number, review, middle, same, decided⟩ := reviewBody_ok done
  obtain ⟨reviewed, first⟩ := sound.modify (k := k) (f := (·.addReview number review)) rfl (fun _ => rfl)
    (fun _ => rfl) (fun _ => rfl) (by
      intro version added _ inside
      obtain ⟨old, member, rfl⟩ := List.mem_map.1 inside
      refine .inl ⟨old, member, ?_⟩
      split
      · exact ⟨rfl, fun none_ => (nomatch none_)⟩
      · exact ⟨rfl, id⟩)
  have second : Sound C middle ∧ Grows (db.modify k (·.addReview number review)) middle := by
    rcases decided with rfl | ⟨_, _, -, called⟩
    · exact ⟨reviewed, .refl _⟩
    · exact decideBody_sound reviewed called
  obtain ⟨last, third⟩ := second.1.congr same
  exact ⟨last, first.trans (second.2.trans third)⟩

/-! ## All calls -/

theorem operation_ok {α : Type} {valid : Bool} {body : Op α} {a : α} (done : operation W valid body db = (.ok a, db')) :
    body db = (.ok a, db') := by
  unfold operation at done
  simp only [Tx.savepoint_ok, Tx.refuse_bind_ok] at done
  obtain ⟨-, -, rest⟩ := done
  obtain ⟨_, _, ran, rest⟩ := Tx.bind_ok.1 rest
  obtain ⟨-, answer⟩ := Tx.refuse_bind_ok.1 rest
  obtain ⟨rfl, rfl⟩ := Tx.pure_ok.1 answer
  exact Tx.savepoint_ok.1 ran

theorem map_ok_of {α : Type} {body : Op α} {f : α → Answer} {answer : Answer}
    (done : (do return f (← body) : Op Answer) db = (.ok answer, db')) : ∃ a, body db = (.ok a, db') ∧ f a = answer := by
  simp only [Tx.bind_ok, Tx.pure_ok] at done
  obtain ⟨a, _, ran, same, rfl⟩ := done
  exact ⟨a, ran, same⟩

variable {call : Call}

theorem run_sound (sound : Sound C db) {answer : Answer} (done : run C W call db = (.ok answer, db')) :
    Sound C db' ∧ Grows db db' := by
  cases call with
  | record ctx p =>
      obtain ⟨_, ran, -⟩ := map_ok_of (operation_ok done)
      obtain ⟨version, recorded, -⟩ := recordBody_ok ran
      exact ⟨⟨recorded.catalogued sound.catalogued, recorded.settled sound.catalogued sound.settled⟩,
        recorded.grows sound.catalogued⟩
  | decide ctx p =>
      obtain ⟨_, ran, -⟩ := map_ok_of (operation_ok done)
      exact decideBody_sound sound ran
  | validateRule ctx p =>
      obtain ⟨_, ran, -⟩ := map_ok_of (operation_ok done)
      exact validateBody_sound sound ran
  | submitFeedback ctx p =>
      obtain ⟨_, ran, -⟩ := map_ok_of (operation_ok done)
      exact submitBody_sound sound ran
  | reviewFeedback ctx p =>
      obtain ⟨_, ran, -⟩ := map_ok_of (operation_ok done)
      exact reviewBody_sound sound ran
  | retrieve ctx q =>
      obtain ⟨_, ran, -⟩ := map_ok_of (operation_ok done)
      exact sound.congr (retrieveBody_ok ran).1

theorem run_rejects (C : Codec) (W : World) (call : Call) : Tx.Rejects (run C W call) := by
  cases call <;> exact Tx.rejects_savepoint _

/-- **One call.** -/
theorem Sound.step (sound : Sound C db) (step : (catalogs C).step db (call, W) db') : Sound C db' ∧ Grows db db' := by
  have same : (Knowledge.run C W call db).2 = db' := step
  match result : Knowledge.run C W call db with
  | (.ok answer, after) =>
      rw [result] at same
      obtain rfl : after = db' := same
      exact run_sound sound result
  | (.error fault, after) =>
      rw [result] at same
      obtain rfl : after = db' := same
      obtain rfl := run_rejects C W call db fault _ result
      exact ⟨sound, .refl _⟩

theorem Sound.run {trace : List (Call × World)} (sound : Sound C db) (run : (catalogs C).Run db trace db') :
    Sound C db' ∧ Grows db db' := by
  induction run with
  | refl => exact ⟨sound, .refl _⟩
  | snoc _ last ih =>
      obtain ⟨before, grown⟩ := ih
      obtain ⟨after, further⟩ := before.step last
      exact ⟨after, grown.trans further⟩

theorem start_sound {db₀ : Store} (start : (catalogs C).init db₀) : Sound C db₀ := by
  obtain rfl : db₀ = ⟨.empty, fun _ => 0⟩ := start
  refine ⟨⟨fun _ _ found => (nomatch found), fun _ _ _ _ found => (nomatch found), fun _ _ first => (nomatch first),
    fun _ _ found => (nomatch found)⟩, fun _ _ _ found => (nomatch found), fun _ _ _ _ found => (nomatch found)⟩

/-! ## Calls on a closed version -/

theorem error_of_not_ok {α : Type} {x : Op α} (never : ∀ a db', x db ≠ (.ok a, db')) : ∃ fault, (x db).1 = .error fault := by
  match result : x db with
  | (.ok a, after) => exact absurd result (never a after)
  | (.error fault, _) => exact ⟨fault, rfl⟩

theorem Sound.validateRule_closed (sound : Sound C db) {p : ValidateInput} (closed : db.Closed (p.reference.key ctx)) :
    ∃ fault, (Knowledge.run C W (.validateRule ctx p) db).1 = .error fault := by
  refine error_of_not_ok fun answer after done => ?_
  obtain ⟨_, ran, -⟩ := map_ok_of (operation_ok done)
  obtain ⟨row, deadlines, _, read, alive, -⟩ := validateBody_ok ran
  obtain ⟨key, found, -⟩ := exactOwned_ok read
  exact sound.catalogued.live_ok (by rw [key]; rfl) found alive (key ▸ closed)

theorem Sound.submitFeedback_closed (sound : Sound C db) {p : FeedbackInput}
    (closed : db.Closed (p.reference.key ctx) ∨ ∃ correction, p.correction = some correction ∧
      db.Closed (correction.key ctx)) :
    ∃ fault, (Knowledge.run C W (.submitFeedback ctx p) db).1 = .error fault := by
  refine error_of_not_ok fun answer after done => ?_
  obtain ⟨_, ran, -⟩ := map_ok_of (operation_ok done)
  obtain ⟨row, deadlines, _, read, proposed, -⟩ := submitBody_ok ran
  obtain ⟨key, found, -⟩ := exactOwned_ok read
  obtain ⟨own, others⟩ := sound.catalogued.checkProposal_ok (by rw [key]; rfl) found proposed
  rcases closed with subject | ⟨correction, names, shut⟩
  · exact own (key ▸ subject)
  · exact (others correction names).1 shut

theorem Sound.publish_closed (sound : Sound C db) {p : DecisionInput} (publishes : p.action = .publish)
    (closed : db.Closed (p.reference.key ctx)) : ∃ fault, (Knowledge.run C W (.decide ctx p) db).1 = .error fault := by
  refine error_of_not_ok fun answer after done => ?_
  obtain ⟨_, ran, -⟩ := map_ok_of (operation_ok done)
  obtain ⟨row, _, read, -, -, -, alive, -⟩ := decideBody_ok ran
  obtain ⟨key, found, -⟩ := exactOwned_ok read
  obtain ⟨deadlines, alive⟩ := alive publishes
  exact sound.catalogued.live_ok (by rw [key]; rfl) found alive (key ▸ closed)

/-- The version a reference in an answer to `ctx` stands for. -/
def Store.Names (db : Store) (ctx : Int) (reference : ExactRef) (k : Key) : Prop :=
  ∃ version, db.versions.row k = some version ∧ visible ctx k = true ∧ (Row.mk k version).ref = reference

/-- **A disabled lineage stays closed.**  Once a version has a disable event it keeps it, and
whatever reached it still does.  From then on, for every version whose chain reaches it:
no retrieval returns it; `validate_rule`, `submit_feedback` (as the subject or as the
correction) and `publish` on it raise; and no feedback without a review names it.
`_lineage_eligible` answers true exactly for a chain of at most 128 strict ancestors that are
all in the catalog, intact and not disabled. -/
theorem disabled_lineage {db₀ : Store} {trace rest : List (Call × World)} {d : Key} (start : (catalogs C).init db₀)
    (before : (catalogs C).Run db₀ trace db) (disabled : db.Disabled d) (after : (catalogs C).Run db rest db') :
    db'.Disabled d ∧
    (∀ k, db.Reaches k d → db'.Reaches k d) ∧
    (∀ k, db'.Reaches k d →
      (∀ W ctx query read db'', Knowledge.run C W (.retrieve ctx query) db' = (.ok (.retrieved read), db'') →
        ∀ found ∈ read.found, ¬ db'.Names ctx found.reference k) ∧
      (∀ W ctx p, p.reference.key ctx = k → ∃ fault, (Knowledge.run C W (.validateRule ctx p) db').1 = .error fault) ∧
      (∀ W ctx p, p.reference.key ctx = k ∨ p.correction.map (·.key ctx) = some k →
        ∃ fault, (Knowledge.run C W (.submitFeedback ctx p) db').1 = .error fault) ∧
      (∀ W ctx p, p.action = .publish → p.reference.key ctx = k →
        ∃ fault, (Knowledge.run C W (.decide ctx p) db').1 = .error fault) ∧
      (∀ subject version feedback, db'.versions.row subject = some version → feedback ∈ version.feedback →
        feedback.review = none → subject ≠ k ∧ feedback.body.correction.map (·.key subject.contextId) ≠ some k)) ∧
    (∀ content catalog closed, lineageEligible C content catalog closed = .ok true ↔
      ∃ chain, Trail (fun current : Content => current.supersedes) (stored catalog) content chain ∧
        (∀ step ∈ chain, ∃ row, catalog step.1 = some row ∧ C.digest step.2 = row.version.digest ∧ row.key ∉ closed) ∧
        chain.length ≤ maxVersions) := by
  obtain ⟨earlier, -⟩ := (start_sound start).run before
  obtain ⟨sound, grows⟩ := earlier.run after
  have still : db'.Disabled d := grows.disabled d disabled
  refine ⟨still, fun k reaches => ?_, fun k reaches => ?_, fun content catalog closed => lineageEligible_iff⟩
  · refine (grows.reaches k d ?_).2 reaches
    rcases Relation.ReflTransGen.cases_head reaches with rfl | ⟨p, link, -⟩
    · obtain ⟨version, found, -⟩ := disabled
      exact Option.isSome_of_eq_some found
    · unfold Store.parent at link
      cases found : db.versions.row k with
      | none => simp [found] at link
      | some version => rfl
  have closed : db'.Closed k := ⟨d, reaches, still⟩
  refine ⟨fun W ctx query read db'' done found member named => ?_, fun W ctx p same => ?_, fun W ctx p same => ?_,
    fun W ctx p publishes same => ?_, fun subject version feedback found inside pending => ?_⟩
  · obtain ⟨version, there, see, ref⟩ := named
    obtain ⟨_, ran, same⟩ := map_ok_of (operation_ok done)
    obtain rfl := Answer.retrieved.inj same
    exact sound.catalogued.retrieveBody_open ran member (mem_rows.2 ⟨see, there⟩) ref closed
  · exact sound.validateRule_closed (same ▸ closed)
  · refine sound.submitFeedback_closed (same.imp (fun own => by rwa [own]) fun names => ?_)
    obtain ⟨correction, is_, rfl⟩ := Option.map_eq_some_iff.1 names
    exact ⟨correction, is_, closed⟩
  · exact sound.publish_closed publishes (same ▸ closed)
  · obtain ⟨own, others⟩ := sound.settled.pending subject version feedback found inside pending
    refine ⟨fun same => own (same ▸ closed), fun names => ?_⟩
    obtain ⟨correction, is_, same⟩ := Option.map_eq_some_iff.1 names
    exact others correction is_ (same ▸ closed)

/-! ## A correction recorded after the disable -/

def sampleCard : Card where
  scope := .project
  knowledgeId := "knowledge-1".toList
  version := 1
  category := .rule
  claim := .ownership
  tags := [.ownership]
  shape := .singleResourcePathGetJsonObject
  actors := [.bearer]
  requiresFacts := true
  sourceRefs := [.syntheticAuthored ⟨1, 1⟩]
  exampleRefs := [⟨1, 1⟩]
  counterexampleRefs := [⟨2, 1⟩]
  supersedes := none

def sampleRef : ExactRef := ⟨.project, "knowledge-1".toList, 1, List.replicate 64 'a'⟩

def sampleContent : Content := { sampleCard with bounds := by decide, coherent := by decide }

def sampleSuccessor : Content :=
  { sampleCard with version := 2, supersedes := some sampleRef, bounds := by decide, coherent := by decide }

def sampleCodec : Codec where
  digest content := List.replicate 64 (if content.version = 1 then 'a' else 'b')
  size _ := 1024
  evidenceDigest _ := List.replicate 64 'c'
  evidenceSize _ := 1024
  runChecks _ := .ok ⟨true, []⟩

def sampleWorld : World where
  locked := true
  time _ := some 10
  eligibleContext _ _ := true
  target _ _ := true
  sources _ _ _ := .ok []
  subject _ _ := none
  steady := true
  encoded := true
  borrowed := true
  guarded := true

/-- A version is recorded and disabled. -/
def sampleCalls : List (Call × World) :=
  [(.record 1 ⟨1, 7, sampleContent, ⟨1, 1⟩⟩, sampleWorld),
    (.decide 1 ⟨sampleRef, 0, .disable, ⟨1, 1⟩, none, none, none, none, none⟩, sampleWorld)]

def sampleStore : Store :=
  sampleCalls.foldl (fun db call => (run sampleCodec call.2 call.1 db).2) ⟨.empty, fun _ => 0⟩

/-- Its successor is recorded later. -/
def sampleLater : Store := (run sampleCodec sampleWorld (.record 1 ⟨1, 7, sampleSuccessor, ⟨1, 1⟩⟩) sampleStore).2

theorem disabled_lineage_successor :
    sampleLater.parent (sampleSuccessor.key 1) = some (sampleRef.key 1) ∧
    ∃ fault, (run sampleCodec sampleWorld
      (.validateRule 1 ⟨⟨.project, "knowledge-1".toList, 2, List.replicate 64 'b'⟩, 20⟩) sampleLater).1 = .error fault := by
  have link : sampleLater.parent (sampleSuccessor.key 1) = some (sampleRef.key 1) := by decide +kernel
  have disabled : sampleStore.Disabled (sampleRef.key 1) := by
    have some_ : ((sampleStore.versions.row (sampleRef.key 1)).any fun version =>
        version.events.any (·.action = .disable)) = true := by decide +kernel
    obtain ⟨version, found, closed⟩ := (Option.any_eq_true _ _).1 some_
    obtain ⟨event, inside, is_⟩ := List.any_eq_true.1 closed
    exact ⟨version, found, event, inside, of_decide_eq_true is_⟩
  have reached : (catalogs sampleCodec).Run ⟨.empty, fun _ => 0⟩ sampleCalls sampleStore := .cons rfl (.single rfl)
  have later : (catalogs sampleCodec).Run sampleStore
      [(.record 1 ⟨1, 7, sampleSuccessor, ⟨1, 1⟩⟩, sampleWorld)] sampleLater := .single rfl
  obtain ⟨-, -, shut, -⟩ := disabled_lineage rfl reached disabled later
  obtain ⟨-, refused, -⟩ := shut (sampleSuccessor.key 1) (.single link)
  exact ⟨link, refused sampleWorld 1 _ rfl⟩

end ApiSecurityPlatform.Research.Knowledge
