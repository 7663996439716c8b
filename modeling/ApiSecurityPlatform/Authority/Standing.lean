/-
# Authority.Standing -- what holds of every authority and its files

* `Base`: what every authority has, whatever has raised: the calls with a closed stream are closed,
  a body was taken under a permit that is used up, and where zero is proven the witness has
  accepted nothing, on its file either;
* `Issued`: while the gate is open, the permits of calls that are not closed are on record;
* `Gated`: while the gate is open, the operations of the authority are resolved, and so are those of
  its journal, unless an acknowledgement was lost behind the witness's note of it;
* `append_spec`: what one append leaves of it, whatever raises;
* `start_full`: a new process has all of it again.
-/
import ApiSecurityPlatform.Authority.Endpoint
import ApiSecurityPlatform.Theory.Keyed

namespace ApiSecurityPlatform.Authority.Endpoint

open ApiSecurityPlatform.Theory
open ApiSecurityPlatform.Theory.Chain
open ApiSecurityPlatform.Accounting (Id PortCode ReservationKey BindingCore Receipt UsageView Terminal Observation
  ObservationKind)

set_option autoImplicit false
set_option linter.dupNamespace false

/-! ## Calls and permits -/

/-- There is a call of the key, and it is closed. -/
structure Closed (calls : List Call) (key : ReservationKey) : Prop where
  known : ∃ c ∈ calls, c.key = key
  closed : ∀ c ∈ calls, c.key = key → c.closed = true

structure Marked (calls : List Call) (key : ReservationKey) : Prop where
  known : ∃ c ∈ calls, c.key = key
  marked : ∀ c ∈ calls, c.key = key → c.marked = true

/-- The permit can still be consumed. -/
def Permit.Live (p : Permit) : Prop := p.consumed = false ∧ p.revoked = false

def Spent (permits : List Permit) (key : ReservationKey) : Prop := ∀ p ∈ permits, p.record.key = key → ¬ p.Live

/-- What becomes of a call: nothing is taken back. -/
structure Call.Grew (c c' : Call) : Prop where
  key : c'.key = c.key
  closed : c.closed = true → c'.closed = true
  marked : c.marked = true → c'.marked = true

/-- The calls are those of before. -/
structure Grew (calls calls' : List Call) : Prop where
  back : ∀ c' ∈ calls', ∃ c ∈ calls, Call.Grew c c'
  on : ∀ c ∈ calls, ∃ c' ∈ calls', c'.key = c.key

theorem Call.Grew.refl (c : Call) : c.Grew c := ⟨rfl, id, id⟩

theorem Grew.refl (calls : List Call) : Grew calls calls := ⟨fun c mem => ⟨c, mem, .refl c⟩, fun c mem => ⟨c, mem, rfl⟩⟩

theorem grew_amend {calls : List Call} {key : ReservationKey} {f : Call → Call} (grew : ∀ c : Call, c.Grew (f c)) :
    Grew calls (amend Call.key calls key f) := by
  constructor
  · intro c' mem
    obtain ⟨c, here, ⟨-, rfl⟩ | ⟨-, rfl⟩⟩ := mem_amend mem
    · exact ⟨c, here, grew c⟩
    · exact ⟨c', here, .refl c'⟩
  · intro c mem
    refine ⟨_, List.mem_map_of_mem mem, ?_⟩
    split
    · exact (grew c).key
    · rfl

theorem Grew.known {calls calls' : List Call} (grew : Grew calls calls') {key : ReservationKey}
    (known : ∃ c ∈ calls, c.key = key) : ∃ c ∈ calls', c.key = key := by
  obtain ⟨c, mem, same⟩ := known
  obtain ⟨c', there, key'⟩ := grew.on c mem
  exact ⟨c', there, key'.trans same⟩

theorem Grew.closed {calls calls' : List Call} (grew : Grew calls calls') {key : ReservationKey}
    (closed : Closed calls key) : Closed calls' key := by
  refine ⟨grew.known closed.known, fun c' mem same => ?_⟩
  obtain ⟨c, here, on⟩ := grew.back c' mem
  exact on.closed (closed.closed c here (on.key ▸ same))

theorem Grew.marked {calls calls' : List Call} (grew : Grew calls calls') {key : ReservationKey}
    (marked : Marked calls key) : Marked calls' key := by
  refine ⟨grew.known marked.known, fun c' mem same => ?_⟩
  obtain ⟨c, here, on⟩ := grew.back c' mem
  exact on.marked (marked.marked c here (on.key ▸ same))

/-- A call of a new key leaves the others as they were. -/
theorem closed_assign {calls : List Call} {call : Call} (fresh : ∀ c ∈ calls, c.key ≠ call.key) {key : ReservationKey} :
    (Closed calls key → Closed (assign Call.key calls call) key) ∧
      (Marked calls key → Marked (assign Call.key calls call) key) := by
  have others (known : ∃ c ∈ calls, c.key = key) : key ≠ call.key ∧ ∃ c ∈ assign Call.key calls call, c.key = key := by
    obtain ⟨c, mem, same⟩ := known
    exact ⟨same ▸ fresh c mem, c, mem_assign_of_ne mem (fresh c mem), same⟩
  constructor
  · intro closed
    obtain ⟨other, known⟩ := others closed.known
    refine ⟨known, fun c mem same => ?_⟩
    rcases mem_assign mem with rfl | ⟨before, -⟩
    · exact absurd same.symm other
    · exact closed.closed c before same
  · intro marked
    obtain ⟨other, known⟩ := others marked.known
    refine ⟨known, fun c mem same => ?_⟩
    rcases mem_assign mem with rfl | ⟨before, -⟩
    · exact absurd same.symm other
    · exact marked.marked c before same

theorem call?_mem {a : FakeAuthority} {key : ReservationKey} {c : Call} (found : a.call? key = some c) :
    c ∈ a.calls ∧ c.key = key :=
  ⟨List.mem_of_find?_eq_some found, by simpa using List.find?_some found⟩

theorem permit?_mem {a : FakeAuthority} {permitId : Id} {p : Permit} (found : a.permit? permitId = some p) :
    p ∈ a.permits ∧ p.record.permitId = permitId :=
  ⟨List.mem_of_find?_eq_some found, by simpa using List.find?_some found⟩

/-! ## The journal -/

/-- An invalidation behind a permit has outrun it. -/
def Fenced (before after : Document) : Prop :=
  ∀ p ack, before = .permit p → after = .ack ack → ack.disposition = .pending →
    p.acceptanceGeneration < ack.acceptanceGeneration

/-- The keys the journal has evidence of. -/
def evidenced (documents : List Document) : List ReservationKey := documents.filterMap Document.evidence?

structure Journaled (closed clean cored : ReservationKey → Prop) (generation : Nat) (documents : List Document) : Prop where
  evidence : (evidenced documents).Nodup
  cored : ∀ k ∈ evidenced documents, cored k
  observed : ∀ o, .observation o ∈ documents → o.key ∈ evidenced documents
  closed : ∀ o, .observation o ∈ documents → o.kind = .streamClosed → closed o.key
  zeroed : ∀ o, .observation o ∈ documents → o.kind = .zeroProven →
    clean o.key ∧ ∃ c, .observation c ∈ documents ∧ c.kind = .streamClosed ∧ c.key = o.key
  generation : ∀ d ∈ documents, d.generation ≤ generation
  fenced : documents.Pairwise Fenced

namespace Journaled

variable {closed clean cored closed' clean' cored' : ReservationKey → Prop} {generation generation' : Nat}
  {documents : List Document}

theorem mono (journaled : Journaled closed clean cored generation documents)
    (closes : ∀ k, closed k → closed' k) (cleans : ∀ k, closed k → clean k → clean' k)
    (cores : ∀ k, cored k → cored' k) (grows : generation ≤ generation') :
    Journaled closed' clean' cored' generation' documents where
  evidence := journaled.evidence
  cored k mem := cores k (journaled.cored k mem)
  observed := journaled.observed
  closed o mem kind := closes o.key (journaled.closed o mem kind)
  zeroed o mem kind := by
    obtain ⟨clear, c, there, stream, same⟩ := journaled.zeroed o mem kind
    exact ⟨cleans _ (same ▸ journaled.closed c there stream) clear, c, there, stream, same⟩
  generation d mem := Nat.le_trans (journaled.generation d mem) grows
  fenced := journaled.fenced

theorem evidenced_snoc_of_none {d : Document} (other : d.evidence? = none) :
    evidenced (documents ++ [d]) = evidenced documents := by
  rw [evidenced, List.filterMap_append, List.filterMap_cons, other]
  exact List.append_nil _

/-- A document that is neither evidence nor an observation. -/
theorem snoc (journaled : Journaled closed clean cored generation documents) {d : Document} (evidence : d.evidence? = none)
    (observation : d.observation? = none) (low : d.generation ≤ generation)
    (fenced : ∀ before ∈ documents, Fenced before d) :
    Journaled closed clean cored generation (documents ++ [d]) := by
  have apart (o : Observation) (mem : .observation o ∈ documents ++ [d]) : .observation o ∈ documents := by
    rcases List.mem_append.1 mem with before | last
    · exact before
    · rw [← List.mem_singleton.1 last] at observation
      cases observation
  refine ⟨?_, ?_, ?_, fun o mem kind => journaled.closed o (apart o mem) kind, fun o mem kind => ?_, ?_, ?_⟩
  · rw [evidenced_snoc_of_none evidence]
    exact journaled.evidence
  · rw [evidenced_snoc_of_none evidence]
    exact journaled.cored
  · rw [evidenced_snoc_of_none evidence]
    exact fun o mem => journaled.observed o (apart o mem)
  · obtain ⟨clear, c, there, rest⟩ := journaled.zeroed o (apart o mem) kind
    exact ⟨clear, c, List.mem_append_left _ there, rest⟩
  · intro x mem
    rcases List.mem_append.1 mem with before | last
    · exact journaled.generation x before
    · rw [List.mem_singleton.1 last]
      exact low
  · refine List.pairwise_append.2 ⟨journaled.fenced, List.pairwise_singleton _ _, fun x mem y last => ?_⟩
    rw [List.mem_singleton.1 last]
    exact fenced x mem

theorem snoc_evidence (journaled : Journaled closed clean cored generation documents) {key : ReservationKey} (digest : Id)
    (fresh : key ∉ evidenced documents) (core : cored key) (positive : 1 ≤ generation) :
    Journaled closed clean cored generation (documents ++ [.evidence key digest]) := by
  have keys : evidenced (documents ++ [.evidence key digest]) = evidenced documents ++ [key] := by
    rw [evidenced, List.filterMap_append]
    rfl
  have apart (o : Observation) (mem : .observation o ∈ documents ++ [.evidence key digest]) : .observation o ∈ documents :=
    (List.mem_append.1 mem).resolve_right fun last => by cases List.mem_singleton.1 last
  refine ⟨?_, ?_, ?_, fun o mem kind => journaled.closed o (apart o mem) kind, fun o mem kind => ?_, ?_, ?_⟩
  · rw [keys, List.nodup_append]
    refine ⟨journaled.evidence, List.nodup_singleton _, ?_⟩
    rintro a mem b last rfl
    rw [List.mem_singleton] at last
    exact fresh (last ▸ mem)
  · rw [keys]
    intro k mem
    rcases List.mem_append.1 mem with before | last
    · exact journaled.cored k before
    · rw [List.mem_singleton.1 last]
      exact core
  · rw [keys]
    exact fun o mem => List.mem_append_left _ (journaled.observed o (apart o mem))
  · obtain ⟨clear, c, there, rest⟩ := journaled.zeroed o (apart o mem) kind
    exact ⟨clear, c, List.mem_append_left _ there, rest⟩
  · intro x mem
    rcases List.mem_append.1 mem with before | last
    · exact journaled.generation x before
    · rw [List.mem_singleton.1 last]
      exact positive
  · refine List.pairwise_append.2 ⟨journaled.fenced, List.pairwise_singleton _ _, fun x mem y last => ?_⟩
    rw [List.mem_singleton.1 last]
    intro p ack _ same
    cases same

theorem snoc_observation (journaled : Journaled closed clean cored generation documents) {o : Observation}
    (known : o.key ∈ evidenced documents) (stream : o.kind = .streamClosed → closed o.key)
    (zero : o.kind = .zeroProven →
      clean o.key ∧ ∃ c, .observation c ∈ documents ∧ c.kind = .streamClosed ∧ c.key = o.key)
    (low : o.acceptanceGeneration ≤ generation) :
    Journaled closed clean cored generation (documents ++ [.observation o]) := by
  have keys : evidenced (documents ++ [.observation o]) = evidenced documents := evidenced_snoc_of_none rfl
  have either (x : Observation) (mem : .observation x ∈ documents ++ [.observation o]) :
      .observation x ∈ documents ∨ x = o := (List.mem_append.1 mem).imp_right fun last =>
    Document.observation.inj (List.mem_singleton.1 last)
  refine ⟨keys ▸ journaled.evidence, keys ▸ journaled.cored, ?_, ?_, ?_, ?_, ?_⟩
  · rw [keys]
    intro x mem
    rcases either x mem with before | rfl
    · exact journaled.observed x before
    · exact known
  · intro x mem kind
    rcases either x mem with before | rfl
    · exact journaled.closed x before kind
    · exact stream kind
  · intro x mem kind
    have proof : clean x.key ∧ ∃ c, .observation c ∈ documents ∧ c.kind = .streamClosed ∧ c.key = x.key := by
      rcases either x mem with before | rfl
      · exact journaled.zeroed x before kind
      · exact zero kind
    obtain ⟨clear, c, there, rest⟩ := proof
    exact ⟨clear, c, List.mem_append_left _ there, rest⟩
  · intro x mem
    rcases List.mem_append.1 mem with before | last
    · exact journaled.generation x before
    · rw [List.mem_singleton.1 last]
      exact low
  · refine List.pairwise_append.2 ⟨journaled.fenced, List.pairwise_singleton _ _, fun x mem y last => ?_⟩
    rw [List.mem_singleton.1 last]
    intro p ack _ same
    cases same

end Journaled

/-! ## The witness -/

/-- The event counts a body of the key. -/
def Event.accepts (key : ReservationKey) : Event → Bool
  | .accepted k _ _ => k = key
  | .head _ _ => false

/-- Bodies that were counted were taken, and none was counted twice. -/
structure Counted (keys : List ReservationKey) (events : List Event) : Prop where
  taken : ∀ k, ∀ e ∈ events, e.accepts k = true → k ∈ keys
  once : ∀ k, events.countP (Event.accepts k) ≤ 1

theorem Counted.snoc {keys : List ReservationKey} {events : List Event} (counted : Counted keys events) {e : Event}
    (new : ∀ k, e.accepts k = true → k ∈ keys ∧ ∀ x ∈ events, x.accepts k = false) : Counted keys (events ++ [e]) := by
  constructor
  · intro k x mem accepts
    rcases List.mem_append.1 mem with before | last
    · exact counted.taken k x before accepts
    · rw [List.mem_singleton.1 last] at accepts
      exact (new k accepts).1
  · intro k
    rw [List.countP_append, List.countP_singleton]
    split
    · next accepts =>
      have none_ : events.countP (Event.accepts k) = 0 :=
        List.countP_eq_zero.2 fun x mem => by rw [(new k accepts).2 x mem]; exact Bool.false_ne_true
      omega
    · exact counted.once k

theorem Counted.mono {keys keys' : List ReservationKey} {events : List Event} (counted : Counted keys events)
    (more : ∀ k ∈ keys, k ∈ keys') : Counted keys' events :=
  ⟨fun k e mem accepts => more k (counted.taken k e mem accepts), counted.once⟩

section Witnesses

variable (g : Setting)

/-- A file of the log that the next process can start from. -/
def Usable (log : File Id Event) (out : List (Row Id Event)) : Prop :=
  g.log.load log = some out ∧ (Witness.applied g out).isSome = true

/-- The witness has counted nothing of the key, in memory or on its file. -/
def Clean (w : Witness) (log : File Id Event) (key : ReservationKey) : Prop :=
  (∀ x ∈ w.acceptances, x.key ≠ key) ∧ ∀ out, Usable g log out → ∀ row ∈ out, row.payload.accepts key = false

variable {g}

theorem applied_snoc {rows : List (Row Id Event)} {row : Row Id Event} :
    Witness.applied g (rows ++ [row]) = (Witness.applied g rows).bind fun w => w.apply row.payload := by
  rw [Witness.applied, Witness.applied, List.foldlM_append]
  refine Option.bind_congr fun w _ => ?_
  rw [List.foldlM_cons]
  cases w.apply row.payload <;> rfl

theorem apply_acceptances {w w' : Witness} {e : Event} (done : w.apply e = some w') :
    (∀ k, (∃ x ∈ w'.acceptances, x.key = k) ↔ (∃ x ∈ w.acceptances, x.key = k) ∨ e.accepts k = true) ∧ w'.rows = w.rows := by
  cases e with
  | accepted key eventId bodyDigest =>
      rw [Witness.apply] at done
      split at done
      · cases done
      · cases done
        refine ⟨fun k => ?_, rfl⟩
        simp only [List.mem_append, List.mem_singleton, Event.accepts, decide_eq_true_eq]
        constructor
        · rintro ⟨x, before | rfl, same⟩
          · exact .inl ⟨x, before, same⟩
          · exact .inr same
        · rintro (⟨x, before, same⟩ | same)
          · exact ⟨x, .inl before, same⟩
          · exact ⟨_, .inr rfl, same⟩
  | head sequence digest =>
      rw [Witness.apply] at done
      split at done
      · cases done
        exact ⟨fun k => by simp [Event.accepts], rfl⟩
      · cases done

/-- What is counted is what the rows count. -/
theorem applied_acceptances {rows : List (Row Id Event)} {w : Witness} (done : Witness.applied g rows = some w)
    (k : ReservationKey) : (∃ x ∈ w.acceptances, x.key = k) ↔ ∃ row ∈ rows, row.payload.accepts k = true := by
  induction rows using List.reverseRecOn generalizing w with
  | nil =>
      cases done
      simp
  | append_singleton rows row ih =>
      rw [applied_snoc] at done
      obtain ⟨before, first, last⟩ := Option.bind_eq_some_iff.1 done
      rw [(apply_acceptances last).1 k, ih first]
      simp only [List.mem_append, List.mem_singleton]
      constructor
      · rintro (⟨x, mem, accepts⟩ | accepts)
        · exact ⟨x, .inl mem, accepts⟩
        · exact ⟨row, .inr rfl, accepts⟩
      · rintro ⟨x, mem | rfl, accepts⟩
        · exact .inl ⟨x, mem, accepts⟩
        · exact .inr accepts

theorem apply_rows (w : Witness) (rows : List (Row Id Event)) (e : Event) :
    ({ w with rows := rows } : Witness).apply e = (w.apply e).map fun w => { w with rows := rows } := by
  cases e with
  | accepted key eventId bodyDigest =>
      simp only [Witness.apply]
      split <;> rfl
  | head sequence digest =>
      simp only [Witness.apply]
      split <;> rfl

/-- What a file that is used later is without its last row. -/
theorem Usable.snoc {log : File Id Event} {row : Row Id Event} {out : List (Row Id Event)}
    (usable : Usable g { log with rows := log.rows ++ [row] } out) : Usable g log log.rows ∧ out = log.rows ++ [row] := by
  obtain ⟨loaded, applied⟩ := usable
  have whole := (Scheme.load_eq_some loaded).1
  dsimp only at whole
  refine ⟨⟨(Scheme.load_snoc loaded).1, ?_⟩, whole⟩
  rw [whole, applied_snoc] at applied
  cases done : Witness.applied g log.rows with
  | none =>
      rw [done] at applied
      cases applied
  | some w => rfl

theorem Clean.append {w : Witness} {log : File Id Event} {key : ReservationKey} (clean : Clean g w log key) {e : Event}
    (other : e.accepts key = false) (rows : List (Row Id Event)) (write : Write) :
    Clean g w (g.log.append log rows e write).2.1 key := by
  refine ⟨clean.1, fun out usable => ?_⟩
  have longer (usable : Usable g { log with rows := log.rows ++ [g.log.next rows e] } out) :
      ∀ row ∈ out, row.payload.accepts key = false := by
    obtain ⟨before, rfl⟩ := usable.snoc
    intro row mem
    rcases List.mem_append.1 mem with old | last
    · exact clean.2 _ before row old
    · rw [List.mem_singleton.1 last]
      exact other
  rcases g.log.append_cases log rows e write with
    ⟨file', left, rfl | rfl | rfl⟩ | done
  · rw [left] at usable
    exact clean.2 out usable
  · rw [left] at usable
    cases usable.1
  · rw [left] at usable
    exact longer usable
  · rw [done] at usable
    exact longer usable

theorem Clean.apply {w w' : Witness} {log : File Id Event} {key : ReservationKey} (clean : Clean g w log key) {e : Event}
    (other : e.accepts key = false) (done : w.apply e = some w') : Clean g w' log key := by
  refine ⟨fun x mem same => ?_, clean.2⟩
  rcases ((apply_acceptances done).1 key).1 ⟨x, mem, same⟩ with ⟨y, before, same⟩ | accepts
  · exact clean.1 y before same
  · rw [other] at accepts
    cases accepts

end Witnesses

/-! ## What every authority has -/

/-- What the journal says. -/
def documents (a : FakeAuthority) : List Document := a.rows.map Row.payload

/-- The keys of the bodies that were taken. -/
def keys (taken : List Taken) : List ReservationKey := taken.map fun t => t.permit.key

/-- The permit and an admission of its key are on record. -/
structure Recorded (ds : List Document) (p : SendPermit) : Prop where
  permit : .permit p ∈ ds
  admitted : ∃ record, .admission record ∈ ds ∧ record.key = p.key

/-- What a body rests on that was taken. -/
structure Rested (g : Setting) (t : Taken) : Prop where
  opened : t.authority.state = .opened
  covered : t.authority.coverage g = true
  live : ∃ p ∈ t.authority.permits, p.record = t.permit ∧ p.Live
  current : t.permit.authorityEpoch = t.authority.epoch ∧ t.permit.acceptanceGeneration = t.authority.generation
  call : ∃ c ∈ t.authority.calls, c.key = t.permit.key ∧ c.bodyDigest = t.permit.bodyDigest ∧ g.digest t.body = c.bodyDigest
  recorded : Recorded (documents t.authority) t.permit
  /-- No stream of the key was closed. -/
  stream : ∀ o, .observation o ∈ documents t.authority → o.kind = .streamClosed → o.key ≠ t.permit.key
  /-- No invalidation came behind the permit. -/
  unfenced : ∀ before after, documents t.authority = before ++ .permit t.permit :: after →
    ∀ ack, .ack ack ∈ after → ack.disposition ≠ .pending

structure Base (g : Setting) (a : FakeAuthority) (f : Files) (taken : List Taken) : Prop where
  journal : g.journal.Kept (Journaled (Closed a.calls) (Clean g a.witness f.log) (· ∈ f.cores.map Prod.fst) a.generation)
    f.journal a.rows
  log : g.log.Kept (Counted (keys taken)) f.log a.witness.rows
  applied : ∀ w, Witness.applied g a.witness.rows = some w → w = { a.witness with rows := [] }
  calls : ∀ c ∈ a.calls, c.key ∈ evidenced (documents a) ∧
    ∀ record, c.admission = some record → record.key = c.key ∧ .admission record ∈ documents a
  tickets : ∀ t ∈ a.tickets, ∃ record, .admission record ∈ documents a ∧ record.key = t.keyDigest
  live : ∀ p ∈ a.permits, p.Live → Marked a.calls p.record.key ∧ p.record.key ∈ evidenced (documents a)
  single : ∀ p ∈ a.permits, ∀ q ∈ a.permits, p.Live → q.Live → p.record.key = q.record.key → p.record = q.record
  spent : ∀ t ∈ taken, Spent a.permits t.permit.key ∧ t.permit.key ∈ evidenced (documents a) ∧
    ∃ c ∈ a.calls, c.key = t.permit.key
  once : (keys taken).Nodup
  rested : ∀ t ∈ taken, Rested g t
  cores : ∀ m ∈ f.cores, ∀ value, m.2 = some value → value.admission = none
  positive : 1 ≤ a.generation

/-- What is known of the calls that are not closed while the gate is open. -/
structure Issued (a : FakeAuthority) (taken : List Taken) : Prop where
  recorded : a.state = .opened → ∀ p ∈ a.permits, p.Live → ¬ Closed a.calls p.record.key → Recorded (documents a) p.record
  done : a.state = .opened → ∀ t ∈ taken, ¬ Closed a.calls t.permit.key → Marked a.calls t.permit.key

/-- What the journal says last of an operation. -/
def latest (ds : List Document) (operationId : Id) : Option InvalidationAck :=
  (ds.filterMap Document.ack?).reverse.find? fun ack => ack.operationId = operationId

structure Gated (g : Setting) (strict : Prop) (a : FakeAuthority) : Prop where
  opened : a.state = .opened → a.level g = true ∧ (strict → ∀ ack ∈ a.operations, ack.disposition.final = true)
  known : strict → (∀ ack, .ack ack ∈ documents a → ∃ x ∈ a.operations, x.operationId = ack.operationId) ∨ a.level g = false
  single : ∀ x ∈ a.operations, ∀ y ∈ a.operations, x.operationId = y.operationId → x = y
  latest : ∀ x ∈ a.operations, x.disposition.final = true → latest (documents a) x.operationId = some x
  low : ∀ x ∈ a.operations, x.acceptanceGeneration ≤ a.generation

structure Full (g : Setting) (strict : Prop) (a : FakeAuthority) (f : Files) (taken : List Taken) : Prop where
  base : Base g a f taken
  issued : Issued a taken
  gated : Gated g strict a

section Steps

variable {g : Setting} {strict : Prop} {a : FakeAuthority} {f : Files} {taken : List Taken} {env : Nat → Env}

theorem documents_snoc {row : Row Id Document} : documents { a with rows := a.rows ++ [row] } = documents a ++ [row.payload] := by
  rw [documents, List.map_append]
  rfl

theorem Recorded.mono {ds ds' : List Document} {p : SendPermit} (recorded : Recorded ds p) (more : ds ⊆ ds') : Recorded ds' p := by
  obtain ⟨record, there, same⟩ := recorded.admitted
  exact ⟨more recorded.permit, record, more there, same⟩

theorem evidenced_mono {ds ds' : List Document} (more : ds ⊆ ds') {k : ReservationKey} (mem : k ∈ evidenced ds) :
    k ∈ evidenced ds' := by
  obtain ⟨d, there, same⟩ := List.mem_filterMap.1 mem
  exact List.mem_filterMap.2 ⟨d, more there, same⟩

/-- The rows in memory say what the journal may say. -/
theorem Base.journaled (base : Base g a f taken) :
    Journaled (Closed a.calls) (Clean g a.witness f.log) (· ∈ f.cores.map Prod.fst) a.generation (documents a) :=
  base.journal.memory

/-- A write to the journal. -/
theorem Base.written (base : Base g a f taken) {document : Document}
    (next : Journaled (Closed a.calls) (Clean g a.witness f.log) (· ∈ f.cores.map Prod.fst) a.generation
      (documents a ++ [document])) (write : Write) :
    Base g { a with rows := (g.journal.append f.journal a.rows document write).2.2 }
      { f with journal := (g.journal.append f.journal a.rows document write).2.1 } taken := by
  have kept := base.journal.append next write
  have more : documents a ⊆ documents { a with rows := (g.journal.append f.journal a.rows document write).2.2 } := by
    rcases g.journal.append_cases f.journal a.rows document write with
      ⟨file', left, -⟩ | done
    · rw [left]
      exact List.Subset.refl _
    · rw [done]
      dsimp only
      rw [documents_snoc]
      exact List.subset_append_left _ _
  refine { base with
    journal := kept
    calls := fun c mem => ?_
    tickets := fun t mem => ?_
    live := fun p mem live => ?_
    spent := fun t mem => ?_ }
  · obtain ⟨evidence, admission⟩ := base.calls c mem
    exact ⟨evidenced_mono more evidence, fun record set => ⟨(admission record set).1, more (admission record set).2⟩⟩
  · obtain ⟨record, there, same⟩ := base.tickets t mem
    exact ⟨record, more there, same⟩
  · obtain ⟨marked, evidence⟩ := base.live p mem live
    exact ⟨marked, evidenced_mono more evidence⟩
  · obtain ⟨spent, evidence, known⟩ := base.spent t mem
    exact ⟨spent, evidenced_mono more evidence, known⟩

/-- Another witness, which has counted no body of a closed call. -/
theorem Base.noted (base : Base g a f taken) {w : Witness} {log : File Id Event} (kept : g.log.Kept (Counted (keys taken)) log w.rows)
    (applied : ∀ x, Witness.applied g w.rows = some x → x = { w with rows := [] })
    (clean : ∀ k, Closed a.calls k → Clean g a.witness f.log k → Clean g w log k) :
    Base g { a with witness := w } { f with log := log } taken :=
  { base with
    journal := base.journal.mono fun _ holds => holds.mono (fun _ closed => closed) clean (fun _ mem => mem) (Nat.le_refl _)
    log := kept
    applied := applied }

/-- The log with one event more, before and after the witness has applied it. -/
theorem Base.logged (base : Base g a f taken) {e : Event}
    (new : ∀ k, e.accepts k = true → k ∈ keys taken ∧ (∀ x ∈ a.witness.rows.map Row.payload, x.accepts k = false) ∧
      ¬ Closed a.calls k) (write : Write) :
    let left := g.log.append f.log a.witness.rows e write
    (left.1 = none ∨ a.witness.apply e = none →
      Base g { a with witness := { a.witness with rows := left.2.2 } } { f with log := left.2.1 } taken) ∧
    (∀ row w, left.1 = some row → a.witness.apply e = some w →
      Base g { a with witness := { w with rows := left.2.2 } } { f with log := left.2.1 } taken ∧
      ∀ out, Usable g left.2.1 out → out = left.2.2) := by
  dsimp only
  have counted := base.log.memory.snoc fun k accepts => ⟨(new k accepts).1, (new k accepts).2.1⟩
  have kept := base.log.append counted write
  have silent (k : ReservationKey) (closed : Closed a.calls k) : e.accepts k = false :=
    Bool.eq_false_iff.2 fun accepts => (new k accepts).2.2 closed
  have next (x : Witness) (done : Witness.applied g (a.witness.rows ++ [g.log.next a.witness.rows e]) = some x) :
      (a.witness.apply e).map (fun w => { w with rows := [] }) = some x := by
    rw [applied_snoc] at done
    obtain ⟨before, first, last⟩ := Option.bind_eq_some_iff.1 done
    rw [base.applied before first, apply_rows] at last
    exact last
  have cases_ := g.log.append_cases f.log a.witness.rows e write
  refine ⟨fun failed => ?_, fun row w done applied => ?_⟩
  · refine base.noted kept (fun x done => ?_) fun k closed clean => clean.append (silent k closed) a.witness.rows write
    dsimp only at done ⊢
    rcases cases_ with ⟨file', left, -⟩ | left
    · rw [left] at done
      exact base.applied x done
    · rw [left] at failed done
      have unapplied : a.witness.apply e = none := failed.resolve_left (Option.some_ne_none _)
      have same := next x done
      rw [unapplied] at same
      cases same
  · rcases cases_ with ⟨file', left, -⟩ | left
    · rw [left] at done
      cases done
    refine ⟨base.noted kept (fun x done => ?_) fun k closed clean => ?_, fun out usable => ?_⟩
    · dsimp only at done ⊢
      rw [left] at done
      have same := next x done
      rw [applied] at same
      exact (Option.some.inj same).symm
    · have after := (clean.append (silent k closed) a.witness.rows write).apply (silent k closed) applied
      exact ⟨after.1, after.2⟩
    · rw [left] at usable ⊢
      exact base.log.exact usable.1

end Steps

/-! ## Rules for the operations -/

section Rules

variable {g : Setting} {strict : Prop} {a a' : FakeAuthority} {f : Files} {taken : List Taken} {env : Nat → Env}
  {E : Sys → Prop}

/-- The authority is `a`, whatever the clock has shown it. -/
def Holds (a : FakeAuthority) (f : Files) (taken : List Taken) (env : Nat → Env) (s : Sys) : Prop :=
  (∃ wall, s.authority = { a with lastWall := wall }) ∧ s.files = f ∧ s.taken = taken ∧ s.world = env

def Inv (g : Setting) (strict : Prop) (env : Nat → Env) (s : Sys) : Prop :=
  Full g strict s.authority s.files s.taken ∧ s.world = env

theorem triple_draw : Tx.Triple (Holds a f taken env) draw (fun e s => Holds a f taken env s ∧ ∃ n, e = env n) E := by
  intro s here
  refine ⟨⟨here.1, here.2.1, here.2.2.1, here.2.2.2⟩, s.turn, ?_⟩
  rw [← here.2.2.2]

theorem triple_self : Tx.Triple (Holds a f taken env) self
    (fun b s => Holds a f taken env s ∧ ∃ wall, b = { a with lastWall := wall }) E := fun _ here => ⟨here, here.1⟩

theorem triple_update {change : FakeAuthority → FakeAuthority} (b : FakeAuthority)
    (changes : ∀ wall, change { a with lastWall := wall } = { b with lastWall := wall }) :
    Tx.Triple (Holds a f taken env) (update change) (fun _ => Holds b f taken env) E := by
  rintro s ⟨⟨wall, same⟩, rest⟩
  refine ⟨⟨wall, ?_⟩, rest⟩
  show change s.authority = _
  rw [same, changes]

theorem triple_recover :
    Tx.Triple (Holds a f taken env) recover (fun _ => Holds { a with state := .recoveryRequired } f taken env) E :=
  triple_update _ fun _ => rfl

theorem triple_refuse (raised : ∀ s, Holds a f taken env s → E s) {p : Prop} [Decidable p] {refusal : Refusal} :
    Tx.Triple (Holds a f taken env) (Tx.refuse (¬ p) refusal) (fun _ s => Holds a f taken env s ∧ p) E :=
  (Tx.triple_refuse raised).post fun _ _ here => ⟨here.1, Decidable.not_not.1 here.2⟩

theorem triple_check (raised : ∀ s, Holds a f taken env s → E s) {p : Prop} [Decidable p] {code : PortCode} :
    Tx.Triple (Holds a f taken env) (check p code) (fun _ s => Holds a f taken env s ∧ p) E := triple_refuse raised

theorem triple_demand (raised : ∀ s, Holds a f taken env s → E s) {α : Type} {value : Option α} {refusal : Refusal} :
    Tx.Triple (Holds a f taken env) (demand value refusal) (fun x s => Holds a f taken env s ∧ value = some x) E := by
  unfold demand
  split
  · exact Tx.triple_raise raised
  · exact Tx.triple_pure fun s here => ⟨here, rfl⟩

theorem triple_hook {raises : Env → Bool} (raised : ∀ s, Holds a f taken env s → (∃ n, raises (env n) = true) → E s) :
    Tx.Triple (Holds a f taken env) (hook raises) (fun _ => Holds a f taken env) E := by
  refine Tx.triple_bind triple_draw fun e => Tx.triple_fact ?_
  rintro ⟨n, rfl⟩
  intro s here
  unfold Tx.refuse
  split
  · next raises => exact raised s here ⟨n, raises⟩
  · exact here

theorem triple_orRecover {α : Type} {P F : Sys → Prop} {Q : α → Sys → Prop} {x : Op α} (holds : Tx.Triple P x Q F)
    (recovers : ∀ s, F s → E { s with authority := { s.authority with state := .recoveryRequired } }) :
    Tx.Triple P (orRecover x) Q E := by
  refine Tx.triple_bind (Tx.triple_attempt (Q := fun r s => Tx.Ended Q F (r, s))
    (holds.mono (fun _ here => here) (fun _ _ here => here) fun _ here _ => here)) fun r => ?_
  cases r with
  | ok a => exact Tx.triple_pure fun s here => here
  | error refusal => exact fun s here => recovers s here

theorem triple_now (raised : ∀ s, Holds a f taken env s → E s) :
    Tx.Triple (Holds a f taken env) now (fun _ => Holds a f taken env) E := by
  refine Tx.triple_bind triple_draw fun e => Tx.triple_fact fun _ => ?_
  refine Tx.triple_bind triple_self fun b => Tx.triple_fact fun _ => ?_
  refine Tx.triple_bind (triple_check raised) fun _ => Tx.triple_fact fun _ => ?_
  refine Tx.triple_bind (Q := fun _ => Holds a f taken env) ?_ fun _ => Tx.triple_pure fun _ here => here
  rintro s ⟨⟨wall, same⟩, rest⟩
  refine ⟨⟨some e.wall, ?_⟩, rest⟩
  show { s.authority with lastWall := some e.wall } = _
  rw [same]

theorem triple_anyExpired (raised : ∀ s, Holds a f taken env s → E s) (calls : List Call) :
    Tx.Triple (Holds a f taken env) (anyExpired calls) (fun _ => Holds a f taken env) E := by
  induction calls with
  | nil => exact Tx.triple_pure fun _ here => here
  | cons call rest ih =>
      refine Tx.triple_bind (triple_now raised) fun time => ?_
      split
      · exact Tx.triple_pure fun _ here => here
      · exact ih

theorem triple_checkOpen (raised : ∀ s, Holds a f taken env s → E s)
    (recovered : ∀ s, Holds { a with state := .recoveryRequired } f taken env s → E s) :
    Tx.Triple (Holds a f taken env) (checkOpen g)
      (fun _ s => Holds a f taken env s ∧ a.state = .opened ∧ a.coverage g = true) E := by
  refine Tx.triple_bind triple_self fun b => Tx.triple_fact fun _ => ?_
  refine Tx.triple_bind (triple_anyExpired raised b.calls) fun expired => ?_
  by_cases late : expired = true
  · refine Tx.triple_bind (Q := fun _ => Holds { a with state := .recoveryRequired } f taken env)
      (Tx.triple_when (fun _ => triple_recover) fun _ _ not_ => absurd late not_) fun _ => ?_
    refine Tx.triple_bind triple_self fun b => Tx.triple_fact ?_
    rintro ⟨wall, rfl⟩
    refine (triple_check recovered).post fun _ s here => ?_
    cases here.2.1
  · refine Tx.triple_bind (Q := fun _ => Holds a f taken env)
      (Tx.triple_when (fun yes => absurd yes late) fun _ here _ => here) fun _ => ?_
    refine Tx.triple_bind triple_self fun b => Tx.triple_fact ?_
    rintro ⟨wall, rfl⟩
    exact triple_check raised

theorem triple_locked {α : Type} {x : Op α} {Q : α → Sys → Prop} (raised : ∀ s, Holds a f taken env s → E s)
    (holds : Tx.Triple (Holds a f taken env) x Q E) : Tx.Triple (Holds a f taken env) (locked x) Q E := by
  refine Tx.triple_bind triple_draw fun e => Tx.triple_fact fun _ => ?_
  exact Tx.triple_bind (triple_check raised) fun _ => Tx.triple_fact fun _ => holds

/-! ### Appending -/

/-- What a write of the witness that raised leaves. -/
def Unnoted (g : Setting) (a : FakeAuthority) (f : Files) (taken : List Taken) (env : Nat → Env) (s : Sys) : Prop :=
  ∃ w log, Holds { a with witness := w } { f with log := log } taken env s ∧
    Base g { a with witness := w } { f with log := log } taken ∧
    w.headSequence = a.witness.headSequence ∧ w.headDigest = a.witness.headDigest

theorem writeLog_spec (e : Event) (write : Write) :
    let left := g.log.append f.log a.witness.rows e write
    Tx.Triple (Holds a f taken env) (writeLog g e write)
      (fun _ s => Holds { a with witness := { a.witness with rows := left.2.2 } } { f with log := left.2.1 } taken env s ∧
        ∃ row, left.1 = some row)
      (fun s => Holds { a with witness := { a.witness with rows := left.2.2 } } { f with log := left.2.1 } taken env s ∧
        left.1 = none) := by
  rintro left s ⟨⟨wall, same⟩, files, rest⟩
  unfold writeLog
  rw [same, files]
  dsimp only
  cases done : (g.log.append f.log a.witness.rows e write).1 with
  | none => exact ⟨⟨⟨wall, rfl⟩, rfl, rest⟩, rfl⟩
  | some row => exact ⟨⟨⟨wall, rfl⟩, rfl, rest⟩, row, rfl⟩

theorem witness_spec (base : Base g a f taken) {e : Event}
    (new : ∀ k, e.accepts k = true → k ∈ keys taken ∧ (∀ x ∈ a.witness.rows.map Row.payload, x.accepts k = false) ∧
      ¬ Closed a.calls k) :
    Tx.Triple (Holds a f taken env) (witness g e)
      (fun _ s => ∃ w log, Holds { a with witness := w } { f with log := log } taken env s ∧
        Base g { a with witness := w } { f with log := log } taken ∧ (∀ out, Usable g log out → out = w.rows) ∧
        ∃ x, a.witness.apply e = some x ∧ w = { x with rows := w.rows })
      (Unnoted g a f taken env) := by
  refine Tx.triple_bind triple_draw fun e' => Tx.triple_fact fun _ => ?_
  obtain ⟨failed, done⟩ := base.logged new e'.log
  refine Tx.triple_bind ((writeLog_spec e e'.log).mono (fun _ here => here) (fun _ _ here => here) ?_) fun _ => ?_
  · rintro s ⟨here, left⟩
    exact ⟨_, _, here, failed (.inl left), rfl, rfl⟩
  refine Tx.triple_fact ?_
  rintro ⟨row, left⟩
  refine Tx.triple_bind triple_self fun b => Tx.triple_fact ?_
  rintro ⟨wall, rfl⟩
  dsimp only
  rw [apply_rows]
  cases applied : a.witness.apply e with
  | none =>
      refine Tx.triple_bind (Q := fun _ _ => False) (Tx.triple_raise fun s here => ?_) fun _ s never => never.elim
      exact ⟨_, _, here, failed (.inr applied), rfl, rfl⟩
  | some w =>
      obtain ⟨base', exact_⟩ := done row w left applied
      refine Tx.triple_bind (Q := fun x s => Holds _ _ taken env s ∧ x = _) (Tx.triple_pure fun s here => ⟨here, rfl⟩) fun x => ?_
      refine Tx.triple_fact fun same => ?_
      subst same
      refine (triple_update { a with witness := { w with rows := _ } } fun _ => rfl).post fun _ s here => ?_
      exact ⟨_, _, here, base', exact_, w, rfl, rfl⟩

/-- What an append that raised leaves, before the authority goes into recovery. -/
def Unacknowledged (g : Setting) (a : FakeAuthority) (taken : List Taken) (env : Nat → Env) (document : Document)
    (s : Sys) : Prop :=
  ∃ a' f', Holds a' f' taken env s ∧ Base g a' f' taken ∧ (a' = a ∨ a.level g = true ∧
    ∃ w, a' = { a with rows := a.rows ++ [g.journal.next a.rows document], witness := w } ∧
      (a'.level g = false ∨ ∃ n, (env n).beforeAck = true))

/-- What an append that returned leaves. -/
structure Acknowledged (g : Setting) (a : FakeAuthority) (f : Files) (taken : List Taken) (document : Document)
    (row : Row Id Document) (a' : FakeAuthority) (f' : Files) : Prop where
  next : row = g.journal.next a.rows document
  same : a' = { a with rows := a.rows ++ [row], witness := a'.witness }
  base : Base g a' f' taken
  level : a'.level g = true
  before : a.level g = true
  acceptances : a'.witness.acceptances = a.witness.acceptances
  exact : ∀ out, Usable g f'.log out → out = a'.witness.rows
  cores : f'.cores = f.cores

theorem head_snoc (S : Scheme Id Document) (rows : List (Row Id Document)) (row : Row Id Document) :
    S.head (rows ++ [row]) = row.digest := by
  rw [Scheme.head, List.getLast?_concat]
  rfl

theorem level_iff : a.level g = true ↔ a.rows.length = a.witness.headSequence ∧ g.journal.head a.rows = a.witness.headDigest := by
  rw [FakeAuthority.level, Bool.and_eq_true, decide_eq_true_eq, decide_eq_true_eq]

theorem level_of_behind (behind : a.rows.length ≠ a.witness.headSequence) : a.level g = false :=
  Bool.eq_false_iff.2 fun level => behind (level_iff.1 level).1

theorem writeJournal_spec (base : Base g a f taken) {document : Document}
    (next : Journaled (Closed a.calls) (Clean g a.witness f.log) (· ∈ f.cores.map Prod.fst) a.generation
      (documents a ++ [document])) (write : Write) :
    Tx.Triple (Holds a f taken env) (writeJournal g document write)
      (fun row s => row = g.journal.next a.rows document ∧ ∃ journal,
        Holds { a with rows := a.rows ++ [row] } { f with journal := journal } taken env s ∧
        Base g { a with rows := a.rows ++ [row] } { f with journal := journal } taken)
      (fun s => ∃ journal, Holds a { f with journal := journal } taken env s ∧
        Base g a { f with journal := journal } taken) := by
  rintro s ⟨⟨wall, same⟩, files, held, world⟩
  have base' := base.written next write
  unfold writeJournal
  rw [same, files]
  dsimp only
  rcases g.journal.append_cases f.journal a.rows document write with
    ⟨file', left, -⟩ | left
  · rw [left] at base' ⊢
    exact ⟨file', ⟨⟨wall, rfl⟩, rfl, held, world⟩, base'⟩
  · rw [left] at base' ⊢
    exact ⟨rfl, _, ⟨⟨wall, rfl⟩, rfl, held, world⟩, base'⟩

theorem journalRow_spec (base : Base g a f taken) {document : Document}
    (next : Journaled (Closed a.calls) (Clean g a.witness f.log) (· ∈ f.cores.map Prod.fst) a.generation
      (documents a ++ [document])) :
    Tx.Triple (Holds a f taken env) (journalRow g document)
      (fun row s => ∃ a' f', Holds a' f' taken env s ∧ Acknowledged g a f taken document row a' f')
      (Unacknowledged g a taken env document) := by
  have raised (s : Sys) (here : Holds a f taken env s) : Unacknowledged g a taken env document s :=
    ⟨a, f, here, base, .inl rfl⟩
  refine Tx.triple_bind triple_self fun b => Tx.triple_fact ?_
  rintro ⟨wall, rfl⟩
  refine Tx.triple_bind (triple_check raised) fun _ => Tx.triple_fact fun level => ?_
  have level : a.level g = true := level
  refine Tx.triple_bind (triple_hook fun s here _ => raised s here) fun _ => ?_
  refine Tx.triple_bind triple_draw fun e => Tx.triple_fact fun _ => ?_
  refine Tx.triple_bind ((writeJournal_spec base next e.journal).mono (fun _ here => here) (fun _ _ here => here) ?_) fun row => ?_
  · rintro s ⟨journal, here, base'⟩
    exact ⟨a, _, here, base', .inl rfl⟩
  intro s post
  obtain ⟨rfl, journal, here, base'⟩ := post
  have behind : ({ a with rows := a.rows ++ [g.journal.next a.rows document] } : FakeAuthority).rows.length ≠
      a.witness.headSequence := by
    rw [← (level_iff.1 level).1]
    dsimp only
    rw [List.length_append]
    exact Nat.succ_ne_self _
  revert s
  refine Tx.triple_bind (triple_hook fun s here _ => ?_) fun _ => ?_
  · exact ⟨_, _, here, base', .inr ⟨level, a.witness, rfl, .inl (level_of_behind behind)⟩⟩
  refine Tx.triple_bind ((witness_spec base' fun k accepts => (by cases accepts)).mono (fun _ here => here)
    (fun _ _ here => here) ?_) fun _ => ?_
  · rintro s ⟨w, log, here, base'', same, -⟩
    refine ⟨_, _, here, base'', .inr ⟨level, w, rfl, .inl (level_of_behind ?_)⟩⟩
    dsimp only
    rw [same]
    exact behind
  intro s post
  obtain ⟨w, log, here, base'', exact_, x, applied, same⟩ := post
  have noted : x.headSequence = a.rows.length + 1 ∧ x.headDigest = (g.journal.next a.rows document).digest ∧
      x.acceptances = a.witness.acceptances := by
    rw [Witness.apply] at applied
    split at applied
    · cases applied
      exact ⟨rfl, rfl, rfl⟩
    · cases applied
  have level' : ({ a with rows := a.rows ++ [g.journal.next a.rows document], witness := w } : FakeAuthority).level g = true := by
    rw [level_iff, same]
    refine ⟨?_, ?_⟩
    · dsimp only
      rw [List.length_append, noted.1]
      rfl
    · dsimp only
      rw [head_snoc, noted.2.1]
  revert s
  refine Tx.triple_bind (triple_hook fun s here before => ?_) fun _ => Tx.triple_pure fun s here => ?_
  · exact ⟨_, _, here, base'', .inr ⟨level, w, rfl, .inr before⟩⟩
  · refine ⟨_, _, here, rfl, rfl, base'', level', level, ?_, exact_, rfl⟩
    dsimp only
    rw [same]
    exact noted.2.2

/-! ### What is kept -/

theorem latest_snoc_of_none {ds : List Document} {d : Document} (other : d.ack? = none) (operationId : Id) :
    latest (ds ++ [d]) operationId = latest ds operationId := by
  rw [latest, List.filterMap_append, List.filterMap_cons, other, List.filterMap_nil, List.append_nil]
  rfl

theorem latest_snoc_ack (ds : List Document) (ack : InvalidationAck) (operationId : Id) :
    latest (ds ++ [.ack ack]) operationId = if ack.operationId = operationId then some ack else latest ds operationId := by
  rw [latest, List.filterMap_append]
  show ((ds.filterMap Document.ack? ++ [ack]).reverse.find? _) = _
  rw [List.reverse_append, List.reverse_singleton, List.singleton_append, List.find?_cons]
  split
  · next same => rw [if_pos (by simpa using same)]
  · next other =>
    rw [if_neg (by simpa using other)]
    rfl

theorem ack_of_snoc {ds : List Document} {d : Document} (other : d.ack? = none) {ack : InvalidationAck}
    (mem : .ack ack ∈ ds ++ [d]) : .ack ack ∈ ds := by
  refine (List.mem_append.1 mem).resolve_right fun last => ?_
  rw [← List.mem_singleton.1 last] at other
  cases other

/-- A row that is no acknowledgement. -/
theorem Gated.snoc (gated : Gated g strict a) {d : Document} (other : d.ack? = none) (level : a.level g = true)
    {rows : List (Row Id Document)} (rows_ : rows.map Row.payload = documents a ++ [d]) (w : Witness)
    (level' : a.state = .opened → ({ a with rows := rows, witness := w } : FakeAuthority).level g = true) :
    Gated g strict { a with rows := rows, witness := w } where
  opened open_ := ⟨level' open_, (gated.opened open_).2⟩
  known strictly := by
    refine .inl fun ack mem => ?_
    rw [documents, rows_] at mem
    rcases gated.known strictly with known | behind
    · exact known ack (ack_of_snoc other mem)
    · rw [level] at behind
      cases behind
  single := gated.single
  latest x mem final := by
    rw [documents, rows_, latest_snoc_of_none other]
    exact gated.latest x mem final
  low := gated.low

theorem Gated.recovered (gated : Gated g strict a) : Gated g strict { a with state := .recoveryRequired } :=
  { gated with opened := fun open_ => by cases open_ }

theorem Full.recovered (full : Full g strict a f taken) : Full g strict { a with state := .recoveryRequired } f taken where
  base := { full.base with }
  issued := ⟨fun open_ => (by cases open_), fun open_ => (by cases open_)⟩
  gated := full.gated.recovered

theorem Holds.inv (full : Full g strict a f taken) {s : Sys} (here : Holds a f taken env s) : Inv g strict env s := by
  obtain ⟨⟨wall, same⟩, rfl, rfl, world⟩ := here
  refine ⟨?_, world⟩
  rw [same]
  exact ⟨{ full.base with }, { full.issued with }, { full.gated with }⟩

/-- **What an append leaves**, where what it leaves of an acknowledgement is known. -/
theorem append_spec (base : Base g a f taken) {document : Document}
    (next : Journaled (Closed a.calls) (Clean g a.witness f.log) (· ∈ f.cores.map Prod.fst) a.generation
      (documents a ++ [document]))
    (lost : ∀ w, a.level g = true → (({ a with
        rows := a.rows ++ [g.journal.next a.rows document], witness := w } : FakeAuthority).level g = false ∨
          ∃ n, (env n).beforeAck = true) →
      Gated g strict { a with
        rows := a.rows ++ [g.journal.next a.rows document], witness := w, state := .recoveryRequired })
    (same : Gated g strict { a with state := .recoveryRequired }) :
    Tx.Triple (Holds a f taken env) (append g document)
      (fun row s => ∃ a' f', Holds a' f' taken env s ∧ Acknowledged g a f taken document row a' f') (Inv g strict env) := by
  refine triple_orRecover (journalRow_spec base next) ?_
  rintro s ⟨a', f', ⟨⟨wall, at_⟩, rest⟩, base', either⟩
  have gated : Gated g strict { a' with state := .recoveryRequired } := by
    rcases either with rfl | ⟨level, w, rfl, why⟩
    · exact same
    · exact lost w level why
  have full : Full g strict { a' with state := .recoveryRequired } f' taken :=
    ⟨{ base' with }, ⟨fun open_ => (by cases open_), fun open_ => (by cases open_)⟩, gated⟩
  refine Holds.inv full ⟨⟨wall, ?_⟩, rest⟩
  dsimp only
  rw [at_]

/-- As `append_spec`, of a document that is no acknowledgement. -/
theorem append_plain (base : Base g a f taken) (gated : Gated g strict a) {document : Document} (plain : document.ack? = none)
    (next : Journaled (Closed a.calls) (Clean g a.witness f.log) (· ∈ f.cores.map Prod.fst) a.generation
      (documents a ++ [document])) :
    Tx.Triple (Holds a f taken env) (append g document)
      (fun row s => ∃ a' f', Holds a' f' taken env s ∧ Acknowledged g a f taken document row a' f') (Inv g strict env) :=
  append_spec base next (fun w level _ =>
    gated.recovered.snoc plain level (Scheme.Kept.map_next a.rows document) w fun open_ => by cases open_) gated.recovered

/-- A row more, and nothing else. -/
theorem Acknowledged.documents {document : Document} {row : Row Id Document} {a' : FakeAuthority} {f' : Files}
    (acknowledged : Acknowledged g a f taken document row a' f') : documents a' = documents a ++ [document] := by
  have rows : a'.rows = a.rows ++ [row] := congrArg FakeAuthority.rows acknowledged.same
  rw [Endpoint.documents, rows, acknowledged.next]
  exact Scheme.Kept.map_next a.rows document

theorem Acknowledged.gated {document : Document} {row : Row Id Document} {a' : FakeAuthority} {f' : Files}
    (acknowledged : Acknowledged g a f taken document row a' f') (gated : Gated g strict a) (plain : document.ack? = none) :
    Gated g strict a' := by
  have level := acknowledged.level
  have rows : (a.rows ++ [row]).map Row.payload = Endpoint.documents a ++ [document] := by
    rw [acknowledged.next]
    exact Scheme.Kept.map_next a.rows document
  rw [acknowledged.same] at level ⊢
  exact gated.snoc plain acknowledged.before rows _ fun _ => level

theorem Acknowledged.issued {document : Document} {row : Row Id Document} {a' : FakeAuthority} {f' : Files}
    (acknowledged : Acknowledged g a f taken document row a' f') (issued : Issued a taken) : Issued a' taken := by
  have more : Endpoint.documents a ⊆ Endpoint.documents a' := by
    rw [acknowledged.documents]
    exact List.subset_append_left _ _
  rw [acknowledged.same] at more ⊢
  exact ⟨fun open_ p mem live open' => (issued.recorded open_ p mem live open').mono more, issued.done⟩

theorem Acknowledged.full {document : Document} {row : Row Id Document} {a' : FakeAuthority} {f' : Files}
    (acknowledged : Acknowledged g a f taken document row a' f') (full : Full g strict a f taken)
    (plain : document.ack? = none) : Full g strict a' f' taken :=
  ⟨acknowledged.base, acknowledged.issued full.issued, acknowledged.gated full.gated plain⟩

end Rules

/-! ## A new process -/

/-- What the rows say of the calls. -/
structure CallsRestored (ds : List Document) (calls : List Call) : Prop where
  keys : ∀ c ∈ calls, c.key ∈ evidenced ds
  back : ∀ k ∈ evidenced ds, ∃ c ∈ calls, c.key = k
  admission : ∀ c ∈ calls, ∀ record, c.admission = some record → record.key = c.key ∧ .admission record ∈ ds
  observed : ∀ o, .observation o ∈ ds → o.key ∈ evidenced ds
  closed : ∀ o, .observation o ∈ ds → o.kind = .streamClosed → Closed calls o.key

namespace CallsRestored

variable {ds : List Document} {calls : List Call}

theorem observation_of_snoc {d : Document} (other : d.observation? = none) {o : Observation}
    (mem : .observation o ∈ ds ++ [d]) : .observation o ∈ ds := by
  refine (List.mem_append.1 mem).resolve_right fun last => ?_
  rw [← List.mem_singleton.1 last] at other
  cases other

/-- Calls that have grown, behind a document without evidence or an observation. -/
theorem grown (restored : CallsRestored ds calls) {d : Document} (evidence : d.evidence? = none)
    (observation : d.observation? = none) {calls' : List Call} (grew : Grew calls calls')
    (admission : ∀ c ∈ calls', ∀ record, c.admission = some record → record.key = c.key ∧ .admission record ∈ ds ++ [d]) :
    CallsRestored (ds ++ [d]) calls' where
  keys c mem := by
    obtain ⟨before, here, on⟩ := grew.back c mem
    rw [Journaled.evidenced_snoc_of_none evidence, on.key]
    exact restored.keys before here
  back k mem := by
    rw [Journaled.evidenced_snoc_of_none evidence] at mem
    exact grew.known (restored.back k mem)
  admission := admission
  observed o mem := by
    rw [Journaled.evidenced_snoc_of_none evidence]
    exact restored.observed o (observation_of_snoc observation mem)
  closed o mem kind := grew.closed (restored.closed o (observation_of_snoc observation mem) kind)

theorem carried (restored : CallsRestored ds calls) {d : Document} (evidence : d.evidence? = none)
    (observation : d.observation? = none) : CallsRestored (ds ++ [d]) calls :=
  restored.grown evidence observation (.refl calls) fun c mem record set =>
    ⟨(restored.admission c mem record set).1, List.mem_append_left _ (restored.admission c mem record set).2⟩

theorem evidence (restored : CallsRestored ds calls) {key : ReservationKey} {digest : Id}
    (fresh : (evidenced (ds ++ [.evidence key digest])).Nodup) {call : Call} (of : call.key = key)
    (none_ : call.admission = none) : CallsRestored (ds ++ [.evidence key digest]) (assign Call.key calls call) := by
  have keys : evidenced (ds ++ [.evidence key digest]) = evidenced ds ++ [key] := by
    rw [evidenced, List.filterMap_append]
    rfl
  have apart (o : Observation) (mem : .observation o ∈ ds ++ [.evidence key digest]) :
      .observation o ∈ ds ∧ o.key ≠ key := by
    have before := observation_of_snoc rfl mem
    refine ⟨before, fun same => ?_⟩
    rw [keys, List.nodup_append] at fresh
    exact fresh.2.2 o.key (restored.observed o before) key List.mem_cons_self same
  refine ⟨?_, ?_, ?_, ?_, ?_⟩
  · intro c mem
    rw [keys]
    rcases mem_assign mem with rfl | ⟨before, -⟩
    · exact List.mem_append_right _ (List.mem_singleton.2 of)
    · exact List.mem_append_left _ (restored.keys c before)
  · intro k mem
    by_cases same : k = call.key
    · exact ⟨call, assign_self, same.symm⟩
    · rw [keys] at mem
      obtain ⟨c, there, rfl⟩ := restored.back k ((List.mem_append.1 mem).resolve_right fun last =>
        same ((List.mem_singleton.1 last).trans of.symm))
      exact ⟨c, mem_assign_of_ne there same, rfl⟩
  · intro c mem record set
    rcases mem_assign mem with rfl | ⟨before, -⟩
    · rw [none_] at set
      cases set
    · exact ⟨(restored.admission c before record set).1, List.mem_append_left _ (restored.admission c before record set).2⟩
  · intro o mem
    rw [keys]
    exact List.mem_append_left _ (restored.observed o (apart o mem).1)
  · intro o mem kind
    have closed := restored.closed o (apart o mem).1 kind
    obtain ⟨c, there, same⟩ := closed.known
    refine ⟨⟨c, mem_assign_of_ne there fun other => (apart o mem).2 (same.symm.trans (other.trans of)), same⟩,
      fun c there same => ?_⟩
    rcases mem_assign there with rfl | ⟨before, -⟩
    · exact absurd (same.symm.trans of) (apart o mem).2
    · exact closed.closed c before same

theorem observation (restored : CallsRestored ds calls) {o : Observation} (call : ∃ c ∈ calls, c.key = o.key) :
    CallsRestored (ds ++ [.observation o]) (amend Call.key calls o.key fun c => c.observed o) := by
  have known : o.key ∈ evidenced ds := by
    obtain ⟨c, mem, same⟩ := call
    exact same ▸ restored.keys c mem
  have keys : evidenced (ds ++ [.observation o]) = evidenced ds := Journaled.evidenced_snoc_of_none rfl
  have grew : Grew calls (amend Call.key calls o.key fun c => c.observed o) := grew_amend fun c =>
    ⟨rfl, fun closed => by rw [Call.observed, closed, Bool.true_or], fun marked => by rw [Call.observed, marked, Bool.true_or]⟩
  have either (x : Observation) (mem : .observation x ∈ ds ++ [.observation o]) : .observation x ∈ ds ∨ x = o :=
    (List.mem_append.1 mem).imp_right fun last => Document.observation.inj (List.mem_singleton.1 last)
  refine ⟨?_, ?_, ?_, ?_, ?_⟩
  · intro c mem
    obtain ⟨before, here, on⟩ := grew.back c mem
    rw [keys, on.key]
    exact restored.keys before here
  · intro k mem
    rw [keys] at mem
    exact grew.known (restored.back k mem)
  · intro c mem record set
    have same : ∃ before ∈ calls, c.key = before.key ∧ c.admission = before.admission := by
      obtain ⟨before, here, ⟨-, rfl⟩ | ⟨-, rfl⟩⟩ := mem_amend mem
      · exact ⟨before, here, rfl, rfl⟩
      · exact ⟨c, here, rfl, rfl⟩
    obtain ⟨before, here, key, admission⟩ := same
    rw [admission] at set
    rw [key]
    exact ⟨(restored.admission before here record set).1, List.mem_append_left _ (restored.admission before here record set).2⟩
  · intro x mem
    rw [keys]
    rcases either x mem with before | rfl
    · exact restored.observed x before
    · exact known
  · intro x mem kind
    rcases either x mem with before | rfl
    · exact grew.closed (restored.closed x before kind)
    · refine ⟨grew.known call, fun c there same => ?_⟩
      obtain ⟨before, here, ⟨-, rfl⟩ | ⟨other, rfl⟩⟩ := mem_amend there
      · show (before.closed || decide (x.kind = .streamClosed)) = true
        rw [decide_eq_true kind, Bool.or_true]
      · exact absurd same other

end CallsRestored

/-- What the rows say of the operations. -/
structure OperationsRestored (ds : List Document) (operations : List InvalidationAck) : Prop where
  mem : ∀ x ∈ operations, .ack x ∈ ds
  known : ∀ ack, .ack ack ∈ ds → ∃ x ∈ operations, x.operationId = ack.operationId
  latest : ∀ x ∈ operations, latest ds x.operationId = some x
  single : ∀ x ∈ operations, ∀ y ∈ operations, x.operationId = y.operationId → x = y

theorem OperationsRestored.carried {ds : List Document} {operations : List InvalidationAck}
    (restored : OperationsRestored ds operations) {d : Document} (other : d.ack? = none) :
    OperationsRestored (ds ++ [d]) operations :=
  ⟨fun x mem => List.mem_append_left _ (restored.mem x mem), fun ack mem => restored.known ack (ack_of_snoc other mem), fun x mem => by
    rw [latest_snoc_of_none other]
    exact restored.latest x mem, restored.single⟩

theorem single_assign {operations : List InvalidationAck} {ack : InvalidationAck}
    (single : ∀ x ∈ operations, ∀ y ∈ operations, x.operationId = y.operationId → x = y) :
    ∀ x ∈ assign InvalidationAck.operationId operations ack, ∀ y ∈ assign InvalidationAck.operationId operations ack,
      x.operationId = y.operationId → x = y := by
  intro x mem y there same
  rcases mem_assign mem with rfl | ⟨before, other⟩ <;> rcases mem_assign there with rfl | ⟨before', other'⟩
  · rfl
  · exact absurd same.symm other'
  · exact absurd same other
  · exact single x before y before' same

theorem OperationsRestored.ack {ds : List Document} {operations : List InvalidationAck}
    (restored : OperationsRestored ds operations) (ack : InvalidationAck) :
    OperationsRestored (ds ++ [.ack ack]) (assign InvalidationAck.operationId operations ack) := by
  refine ⟨fun x mem => ?_, fun x mem => ?_, fun x mem => ?_, single_assign restored.single⟩
  · rcases mem_assign mem with rfl | ⟨before, -⟩
    · exact List.mem_append_right _ List.mem_cons_self
    · exact List.mem_append_left _ (restored.mem x before)
  · by_cases same : ack.operationId = x.operationId
    · exact ⟨ack, assign_self, same⟩
    · have before : .ack x ∈ ds := (List.mem_append.1 mem).resolve_right fun last =>
        same (congrArg InvalidationAck.operationId (Document.ack.inj (List.mem_singleton.1 last))).symm
      obtain ⟨y, there, known⟩ := restored.known x before
      exact ⟨y, mem_assign_of_ne there fun other => same (other.symm.trans known), known⟩
  · rw [latest_snoc_ack]
    rcases mem_assign mem with rfl | ⟨before, other⟩
    · exact if_pos rfl
    · rw [if_neg fun same => other same.symm]
      exact restored.latest x before

/-- What a process has of the rows it has read. -/
structure Restored (ds : List Document) (a : FakeAuthority) : Prop where
  calls : CallsRestored ds a.calls
  operations : OperationsRestored ds a.operations
  revoked : ∀ p ∈ a.permits, p.revoked = true
  generation : ∀ d ∈ ds, d.generation ≤ a.generation
  positive : 1 ≤ a.generation
  tickets : a.tickets = []
  state : a.state = .recoveryRequired

theorem generation_snoc {ds : List Document} {n : Nat} (low : ∀ d ∈ ds, d.generation ≤ n) (d : Document) :
    ∀ x ∈ ds ++ [d], x.generation ≤ max n d.generation := by
  intro x mem
  rcases List.mem_append.1 mem with before | last
  · exact Nat.le_trans (low x before) (Nat.le_max_left _ _)
  · rw [List.mem_singleton.1 last]
    exact Nat.le_max_right _ _

section Restoring

variable {g : Setting} {cores : List (ReservationKey × Option CoreEvidence)} {ds : List Document} {a a' : FakeAuthority}

theorem restoreCall_cases {key : ReservationKey} {digest : Id} (done : restoreCall g cores key digest a = some a') :
    ∃ value call, cores.lookup key = some (some value) ∧ call.key = key ∧ call.admission = value.admission ∧
      a' = { a with calls := assign Call.key a.calls call } := by
  unfold restoreCall at done
  obtain ⟨file, found, rest⟩ := Option.bind_eq_some_iff.1 done
  obtain ⟨value, rfl, checked⟩ := Option.bind_eq_some_iff.1 rest
  split at checked
  · cases checked
  split at checked
  · cases checked
  split at checked
  · cases checked
  cases checked
  exact ⟨value, _, found, rfl, rfl, rfl⟩

theorem restoreCall_eq_some (bare : ∀ m ∈ cores, ∀ value, m.2 = some value → value.admission = none) {key : ReservationKey}
    {digest : Id} (done : restoreCall g cores key digest a = some a') :
    ∃ call, call.key = key ∧ call.admission = none ∧ a' = { a with calls := assign Call.key a.calls call } := by
  obtain ⟨value, call, found, of, admission, same⟩ := restoreCall_cases done
  exact ⟨call, of, admission.trans (bare _ (lookup_mem found) value rfl), same⟩

theorem restoreObservation_eq_some {sequence : Nat} {record : Observation}
    (done : a.restoreObservation sequence record = some a') :
    (∃ c, a.call? record.key = some c) ∧ a' = { a with
      observations := a'.observations
      calls := amend Call.key a.calls record.key fun c => c.observed record
      permits := a'.permits } ∧ ∀ p ∈ a'.permits, ∃ q ∈ a.permits, p.revoked = q.revoked := by
  unfold FakeAuthority.restoreObservation at done
  split at done
  · cases done
  split at done
  · cases done
  next there =>
  split at done
  · cases done
  cases done
  refine ⟨Option.ne_none_iff_exists'.1 (by simpa using there), rfl, fun p mem => ?_⟩
  dsimp only at mem
  split at mem
  · obtain ⟨q, here, ⟨-, rfl⟩ | ⟨-, rfl⟩⟩ := mem_amend mem
    · exact ⟨q, here, rfl⟩
    · exact ⟨p, here, rfl⟩
  · exact ⟨p, mem, rfl⟩

/-- Nothing was read. -/
theorem Restored.nil (calls : a.calls = []) (operations : a.operations = []) (permits : a.permits = []) (tickets : a.tickets = [])
    (positive : 1 ≤ a.generation) (state : a.state = .recoveryRequired) : Restored [] a := by
  refine ⟨⟨?_, ?_, ?_, ?_, ?_⟩, ⟨?_, ?_, ?_, ?_⟩, ?_, ?_, positive, tickets, state⟩ <;>
    simp only [calls, operations, permits, evidenced, List.filterMap_nil, List.not_mem_nil, false_implies, implies_true]

/-- **One row.** -/
theorem Restored.row (restored : Restored ds a) (bare : ∀ m ∈ cores, ∀ value, m.2 = some value → value.admission = none)
    {row : Row Id Document} (fresh : (evidenced (ds ++ [row.payload])).Nodup) (done : a.restoreRow g cores row = some a') :
    Restored (ds ++ [row.payload]) a' ∧ a'.rows = a.rows ∧ a'.witness = a.witness := by
  have generation := generation_snoc restored.generation row.payload
  have positive := Nat.le_trans restored.positive (Nat.le_max_left a.generation row.payload.generation)
  unfold FakeAuthority.restoreRow at done
  cases said : row.payload with
  | evidence key digest =>
      rw [said] at done fresh generation positive
      obtain ⟨call, of, none_, rfl⟩ := restoreCall_eq_some bare done
      exact ⟨⟨restored.calls.evidence fresh of none_, restored.operations.carried rfl, restored.revoked, generation, positive,
        restored.tickets, restored.state⟩, rfl, rfl⟩
  | admission record =>
      rw [said] at done generation positive
      dsimp only at done
      split at done
      · split at done
        · cases done
        cases done
        refine ⟨⟨restored.calls.grown rfl rfl (grew_amend fun c => ⟨rfl, id, id⟩) fun c mem x set => ?_,
          restored.operations.carried rfl, restored.revoked, generation, positive, restored.tickets, restored.state⟩, rfl, rfl⟩
        obtain ⟨before, here, ⟨of, rfl⟩ | ⟨-, rfl⟩⟩ := mem_amend mem
        · cases set
          exact ⟨of.symm, List.mem_append_right _ List.mem_cons_self⟩
        · exact ⟨(restored.calls.admission c here x set).1, List.mem_append_left _ (restored.calls.admission c here x set).2⟩
      · cases done
  | permit record =>
      rw [said] at done generation positive
      cases done
      refine ⟨⟨restored.calls.carried rfl rfl, restored.operations.carried rfl, fun p mem => ?_, generation, positive,
        restored.tickets, restored.state⟩, rfl, rfl⟩
      rcases mem_assign mem with rfl | ⟨before, -⟩
      · rfl
      · exact restored.revoked p before
  | observation record =>
      rw [said] at done generation positive
      obtain ⟨⟨c, found⟩, same, revoked⟩ := restoreObservation_eq_some done
      obtain ⟨mem, of⟩ := call?_mem found
      rw [same]
      refine ⟨⟨restored.calls.observation ⟨c, mem, of⟩, restored.operations.carried rfl, fun p mem => ?_,
        generation, positive, restored.tickets, restored.state⟩, rfl, rfl⟩
      obtain ⟨q, here, alike⟩ := revoked p mem
      rw [alike]
      exact restored.revoked q here
  | ack record =>
      rw [said] at done generation positive
      cases done
      exact ⟨⟨restored.calls.carried rfl rfl, restored.operations.ack record, restored.revoked, generation, positive,
        restored.tickets, restored.state⟩, rfl, rfl⟩
  | gate record =>
      rw [said] at done generation positive
      cases done
      exact ⟨⟨restored.calls.carried rfl rfl, restored.operations.carried rfl, restored.revoked, generation, positive,
        restored.tickets, restored.state⟩, rfl, rfl⟩

theorem restored_of_rows (bare : ∀ m ∈ cores, ∀ value, m.2 = some value → value.admission = none) {rows : List (Row Id Document)}
    {start : FakeAuthority} (begun : Restored [] start) (fresh : (evidenced (rows.map Row.payload)).Nodup)
    (done : rows.foldlM (FakeAuthority.restoreRow g cores) start = some a) :
    Restored (rows.map Row.payload) a ∧ a.rows = start.rows ∧ a.witness = start.witness := by
  induction rows using List.reverseRecOn generalizing a with
  | nil =>
      cases done
      exact ⟨begun, rfl, rfl⟩
  | append_singleton rows row ih =>
      rw [List.map_append, List.map_singleton] at fresh ⊢
      rw [List.foldlM_append] at done
      obtain ⟨before, first, last⟩ := Option.bind_eq_some_iff.1 done
      rw [List.foldlM_cons] at last
      obtain ⟨after, one, same⟩ := Option.bind_eq_some_iff.1 last
      obtain rfl : after = a := Option.some.inj same
      have fresh' : (evidenced (rows.map Row.payload)).Nodup := by
        rw [evidenced, List.filterMap_append] at fresh
        exact fresh.of_append_left
      obtain ⟨restored, rows', witness'⟩ := ih fresh' first
      obtain ⟨restored', rows'', witness''⟩ := restored.row bare fresh one
      exact ⟨restored', rows''.trans rows', witness''.trans witness'⟩

end Restoring

theorem applied_rows {g : Setting} {rows : List (Row Id Event)} {w : Witness} (done : Witness.applied g rows = some w) :
    w.rows = [] := by
  induction rows using List.reverseRecOn generalizing w with
  | nil =>
      cases done
      rfl
  | append_singleton rows row ih =>
      rw [applied_snoc] at done
      obtain ⟨before, first, last⟩ := Option.bind_eq_some_iff.1 done
      rw [(apply_acceptances last).2, ih first]

/-- **A new process has what the last one had.** -/
theorem start_full {g : Setting} {strict : Prop} {a a' : FakeAuthority} {f : Files} {taken : List Taken}
    (base : Base g a f taken) {epoch observerEpoch : Id} (started : FakeAuthority.start g f epoch observerEpoch = some a') :
    Full g strict a' f taken := by
  unfold FakeAuthority.start at started
  obtain ⟨rows, loaded, started⟩ := Option.bind_eq_some_iff.1 started
  obtain ⟨logged, read, started⟩ := Option.bind_eq_some_iff.1 started
  obtain ⟨w, replayed, started⟩ := Option.bind_eq_some_iff.1 started
  obtain ⟨x, applied, rfl⟩ := Option.map_eq_some_iff.1 replayed
  have journaled := base.journal.read rows loaded
  obtain ⟨restored, rows_, witness_⟩ := restored_of_rows base.cores
    (.nil rfl rfl rfl rfl (Nat.le_refl 1) rfl) journaled.evidence started
  dsimp only at rows_ witness_
  have documents_ : documents a' = rows.map Row.payload := by rw [documents, rows_]
  have more : documents a ⊆ rows.map Row.payload := (base.journal.payloads loaded).subset
  have revoked (p : Permit) (mem : p ∈ a'.permits) (live : p.Live) : False := by
    have gone := restored.revoked p mem
    rw [live.2] at gone
    cases gone
  refine ⟨?_, ?_, ?_⟩
  · refine ⟨?_, ?_, ?_, fun c mem => ?_, ?_, fun p mem live => (revoked p mem live).elim,
      fun p mem q _ live => (revoked p mem live).elim, fun t mem => ?_, base.once, base.rested, base.cores, restored.positive⟩
    · rw [rows_]
      have usable : Usable g f.log logged := ⟨read, by rw [applied]; rfl⟩
      have kept := base.journal.loaded loaded
      have next : Journaled (Closed a'.calls) (Clean g a'.witness f.log) (· ∈ f.cores.map Prod.fst) a'.generation
          (rows.map Row.payload) := by
        refine ⟨journaled.evidence, journaled.cored, journaled.observed, restored.calls.closed, fun o mem kind => ?_,
          restored.generation, journaled.fenced⟩
        obtain ⟨clean, stream⟩ := journaled.zeroed o mem kind
        refine ⟨⟨fun y there same => ?_, clean.2⟩, stream⟩
        rw [witness_] at there
        obtain ⟨row, here, accepts⟩ := (applied_acceptances applied o.key).1 ⟨y, there, same⟩
        rw [clean.2 logged usable row here] at accepts
        cases accepts
      exact ⟨next, fun out again => by cases loaded.symm.trans again; exact next, kept.lead⟩
    · rw [witness_]
      exact base.log.loaded read
    · rw [witness_]
      intro y again
      cases applied.symm.trans again
      obtain ⟨rows', acceptances, sequence, digest⟩ := x
      rw [show rows' = [] from applied_rows applied]
    · rw [documents_]
      exact ⟨restored.calls.keys c mem, restored.calls.admission c mem⟩
    · intro t mem
      rw [restored.tickets] at mem
      cases mem
    · rw [documents_]
      have evidence := evidenced_mono more (base.spent t mem).2.1
      exact ⟨fun p mem' _ live => revoked p mem' live, evidence, restored.calls.back _ evidence⟩
  · refine ⟨fun open_ => ?_, fun open_ => ?_⟩ <;>
    · rw [restored.state] at open_
      cases open_
  · refine ⟨fun open_ => ?_, fun _ => .inl ?_, restored.operations.single, fun y mem _ => ?_, fun y mem => ?_⟩
    · rw [restored.state] at open_
      cases open_
    · rw [documents_]
      exact restored.operations.known
    · rw [documents_]
      exact restored.operations.latest y mem
    · exact restored.generation _ (restored.operations.mem y mem)

end ApiSecurityPlatform.Authority.Endpoint
