/-
# Authority.Acceptance -- one operation at a time

Whatever raises, and whatever becomes of a write: every operation keeps what `Authority.Standing`
says of an authority and its files (`Keeps`).

* `event_spec`: what an event of a call leaves, one that reuses its identifier included;
* `keeps_issue`, `keeps_consumeWrite`: a permit, and the body that is taken under it;
* `keeps_closeFirst`: a stream is closed, and proven empty where nothing was counted;
* `keeps_invalidate`, `keeps_lookup`, `keeps_resolve`, `keeps_reopen`: the gate.
-/
import ApiSecurityPlatform.Authority.Standing

namespace ApiSecurityPlatform.Authority.Endpoint

open ApiSecurityPlatform.Theory
open ApiSecurityPlatform.Theory.Chain
open ApiSecurityPlatform.Accounting (Id PortCode ReservationKey BindingCore Receipt UsageView Terminal Observation
  ObservationKind)

set_option autoImplicit false
set_option linter.dupNamespace false

section Operations

variable {g : Setting} {strict : Prop} {a : FakeAuthority} {f : Files} {taken : List Taken} {env : Nat → Env}

/-- Whatever comes of it, an operation keeps what every authority has. -/
abbrev Keeps (g : Setting) (strict : Prop) (a : FakeAuthority) (f : Files) (taken : List Taken) (env : Nat → Env) {α : Type}
    (x : Op α) : Prop := Tx.Triple (Holds a f taken env) x (fun _ => Inv g strict env) (Inv g strict env)

/-! ## Changes that keep it -/

theorem Full.raised (full : Full g strict a f taken) : ∀ s, Holds a f taken env s → Inv g strict env s :=
  fun _ here => here.inv full

/-- Calls that have grown. -/
theorem Base.recalled (base : Base g a f taken) {calls : List Call} (grew : Grew a.calls calls)
    (admission : ∀ c ∈ calls, ∀ record, c.admission = some record → record.key = c.key ∧ .admission record ∈ documents a) :
    Base g { a with calls := calls } f taken :=
  { base with
    journal := base.journal.mono fun _ holds =>
      holds.mono (fun _ closed => grew.closed closed) (fun _ _ clean => clean) (fun _ mem => mem) (Nat.le_refl _)
    calls := fun c mem => by
      obtain ⟨before, here, on⟩ := grew.back c mem
      exact ⟨on.key ▸ (base.calls before here).1, admission c mem⟩
    live := fun p mem live => ⟨grew.marked (base.live p mem live).1, (base.live p mem live).2⟩
    spent := fun t mem => ⟨(base.spent t mem).1, (base.spent t mem).2.1, grew.known (base.spent t mem).2.2⟩ }

theorem Issued.recalled (issued : Issued a taken) {calls : List Call} (grew : Grew a.calls calls) :
    Issued { a with calls := calls } taken where
  recorded opened p mem live open_ := issued.recorded opened p mem live fun closed => open_ (grew.closed closed)
  done opened t mem open_ := grew.marked (issued.done opened t mem fun closed => open_ (grew.closed closed))

theorem Full.recalled (full : Full g strict a f taken) {calls : List Call} (grew : Grew a.calls calls)
    (admission : ∀ c ∈ calls, ∀ record, c.admission = some record → record.key = c.key ∧ .admission record ∈ documents a) :
    Full g strict { a with calls := calls } f taken :=
  ⟨full.base.recalled grew admission, full.issued.recalled grew, { full.gated with }⟩

theorem admission_amend (base : Base g a f taken) {key : ReservationKey} {change : Call → Call}
    (admission : ∀ c, c.key = key → ∀ record, (change c).admission = some record → c.admission = some record ∨
      record.key = key ∧ .admission record ∈ documents a) (same : ∀ c, (change c).key = c.key) :
    ∀ c ∈ amend Call.key a.calls key change, ∀ record, c.admission = some record →
      record.key = c.key ∧ .admission record ∈ documents a := by
  intro c mem record set
  obtain ⟨before, here, ⟨of, rfl⟩ | ⟨-, rfl⟩⟩ := mem_amend mem
  · rw [same]
    rcases admission before of record set with old | new
    · exact (base.calls before here).2 record old
    · exact ⟨new.1.trans of.symm, new.2⟩
  · exact (base.calls c here).2 record set

/-- A change of one call that leaves its admission. -/
theorem Full.amended (full : Full g strict a f taken) (key : ReservationKey) (change : Call → Call)
    (grew : ∀ c : Call, c.Grew (change c)) (admission : ∀ c, (change c).admission = c.admission) :
    Full g strict { a with calls := amend Call.key a.calls key change } f taken :=
  full.recalled (grew_amend grew) (admission_amend full.base (fun c _ _ set => .inl ((admission c).symm.trans set))
    fun c => (grew c).key)

/-- Permits of which none has come alive. -/
theorem Base.repermitted (base : Base g a f taken) {permits : List Permit}
    (back : ∀ p ∈ permits, ∃ q ∈ a.permits, p.record = q.record ∧ (p.Live → q.Live)) :
    Base g { a with permits := permits } f taken :=
  { base with
    live := fun p mem live => by
      obtain ⟨q, here, same, alive⟩ := back p mem
      rw [same]
      exact base.live q here (alive live)
    single := fun p mem p' mem' live live' same => by
      obtain ⟨q, here, record, alive⟩ := back p mem
      obtain ⟨q', here', record', alive'⟩ := back p' mem'
      rw [record, record']
      exact base.single q here q' here' (alive live) (alive' live') (by rw [← record, ← record', same])
    spent := fun t mem => by
      obtain ⟨spent, rest⟩ := base.spent t mem
      refine ⟨fun p there same live => ?_, rest⟩
      obtain ⟨q, here, record, alive⟩ := back p there
      exact spent q here (record ▸ same) (alive live) }

theorem Issued.repermitted (issued : Issued a taken) {permits : List Permit}
    (back : ∀ p ∈ permits, ∃ q ∈ a.permits, p.record = q.record ∧ (p.Live → q.Live)) :
    Issued { a with permits := permits } taken where
  recorded opened p mem live open_ := by
    obtain ⟨q, here, same, alive⟩ := back p mem
    rw [same] at open_ ⊢
    exact issued.recorded opened q here (alive live) open_
  done := issued.done

theorem Full.repermitted (full : Full g strict a f taken) {permits : List Permit}
    (back : ∀ p ∈ permits, ∃ q ∈ a.permits, p.record = q.record ∧ (p.Live → q.Live)) :
    Full g strict { a with permits := permits } f taken :=
  ⟨full.base.repermitted back, full.issued.repermitted back, { full.gated with }⟩

theorem Full.observations (full : Full g strict a f taken) (observations : List Observation) :
    Full g strict { a with observations := observations } f taken :=
  ⟨{ full.base with }, { full.issued with }, { full.gated with }⟩

theorem Full.shut (full : Full g strict a f taken) : Full g strict { a with state := .closed } f taken where
  base := { full.base with }
  issued := ⟨fun open_ => (by cases open_), fun open_ => (by cases open_)⟩
  gated := { full.gated with opened := fun open_ => by cases open_ }

theorem Inv.recovered {s : Sys} (inv : Inv g strict env s) :
    Inv g strict env { s with authority := { s.authority with state := .recoveryRequired } } :=
  ⟨inv.1.recovered, inv.2⟩

/-! ## Observations -/

/-- What an event of a call leaves. -/
structure After (g : Setting) (strict : Prop) (a : FakeAuthority) (taken : List Taken) (contents : Contents)
    (eventId : Option Id) (o : Observation) (a' : FakeAuthority) (f' : Files) : Prop where
  full : Full g strict a' f' taken
  grew : Grew a.calls a'.calls
  recorded : eventId = none → .observation o ∈ documents a' ∧ contentsOf o = contents ∧
    ∀ out, Usable g f'.log out → out = a'.witness.rows

/-- What an event of the contents may say. -/
structure Sayable (g : Setting) (a : FakeAuthority) (f : Files) (contents : Contents) : Prop where
  stream : contents.kind = .streamClosed → Closed a.calls contents.key
  zero : contents.kind = .zeroProven → Clean g a.witness f.log contents.key ∧
    ∃ c, .observation c ∈ documents a ∧ c.kind = .streamClosed ∧ c.key = contents.key

theorem sayable_plain {contents : Contents} (stream : contents.kind ≠ .streamClosed) (zero : contents.kind ≠ .zeroProven) :
    Sayable g a f contents := ⟨fun kind => absurd kind stream, fun kind => absurd kind zero⟩

theorem recordObservation_spec (full : Full g strict a f taken) {contents : Contents} (sayable : Sayable g a f contents)
    (known : ∃ c ∈ a.calls, c.key = contents.key) (eventId evidence : Option Id) :
    Tx.Triple (Holds a f taken env) (recordObservation g contents eventId evidence)
      (fun o s => ∃ a' f', Holds a' f' taken env s ∧ After g strict a taken contents none o a' f') (Inv g strict env) := by
  refine Tx.triple_bind triple_draw fun e => Tx.triple_fact fun _ => ?_
  refine Tx.triple_bind (triple_now full.raised) fun time => ?_
  refine Tx.triple_bind triple_self fun b => Tx.triple_fact ?_
  rintro ⟨wall, rfl⟩
  dsimp only
  generalize made : enveloped g { a with lastWall := wall } contents (eventId.getD e.uuid) time evidence = event
  have said : contentsOf event = contents ∧ event.acceptanceGeneration = a.generation := by
    rw [← made]
    exact ⟨rfl, rfl⟩
  have key : event.key = contents.key := congrArg Contents.key said.1
  have kind : event.kind = contents.kind := congrArg Contents.kind said.1
  have evidenced_ : event.key ∈ evidenced (documents a) := by
    obtain ⟨c, mem, same⟩ := known
    rw [key, ← same]
    exact (full.base.calls c mem).1
  have next := full.base.journaled.snoc_observation evidenced_ (fun stream => key ▸ sayable.stream (kind ▸ stream))
    (fun zero => key ▸ sayable.zero (kind ▸ zero)) (Nat.le_of_eq said.2)
  refine Tx.triple_bind (triple_check full.raised) fun _ => Tx.triple_fact fun _ => ?_
  refine Tx.triple_bind (append_plain full.base full.gated rfl next) fun row => ?_
  rintro s ⟨a', f', here, acknowledged⟩
  have full' := acknowledged.full full rfl
  have mem : .observation event ∈ documents a' := by
    rw [acknowledged.documents]
    exact List.mem_append_right _ List.mem_cons_self
  have calls : a'.calls = a.calls := by rw [acknowledged.same]
  have exact_ := acknowledged.exact
  revert s
  refine Tx.triple_bind (triple_update { a' with
    observations := a'.observations ++ [event]
    calls := amend Call.key a'.calls contents.key fun c => { c with events := c.events + 1 } } fun _ => rfl) fun _ => ?_
  refine Tx.triple_pure fun s here => ⟨_, f', here, ?_, ?_, fun _ => ⟨mem, said.1, exact_⟩⟩
  · exact (full'.amended contents.key (fun c => { c with events := c.events + 1 }) (fun c => ⟨rfl, id, id⟩)
      fun _ => rfl).observations _
  · rw [← calls]
    exact grew_amend fun c => ⟨rfl, id, id⟩

theorem appendObservation_spec (full : Full g strict a f taken) {contents : Contents} (sayable : Sayable g a f contents)
    (eventId evidence : Option Id) :
    Tx.Triple (Holds a f taken env) (appendObservation g contents eventId evidence)
      (fun o s => ∃ a' f', Holds a' f' taken env s ∧ After g strict a taken contents none o a' f') (Inv g strict env) := by
  refine Tx.triple_bind triple_self fun b => Tx.triple_fact ?_
  rintro ⟨wall, rfl⟩
  refine Tx.triple_bind (triple_demand full.raised) fun call => Tx.triple_fact fun found => ?_
  split
  · refine Tx.triple_bind (Q := fun _ => Inv g strict env) (Tx.triple_when ?_ fun s here _ => full.raised s here) fun _ =>
      Tx.triple_raise fun _ inv => inv
    exact fun _ => triple_recover.post fun _ s here => here.inv full.recovered
  · obtain ⟨mem, same⟩ := call?_mem (a := { a with lastWall := wall }) found
    exact recordObservation_spec full sayable ⟨call, mem, same⟩ eventId evidence

/-- An event that was there already. -/
theorem After.same (full : Full g strict a f taken) {contents : Contents} {eventId : Id} {o : Observation} :
    After g strict a taken contents (some eventId) o a f := ⟨full, .refl _, fun none_ => by cases none_⟩

theorem reuse_spec (full : Full g strict a f taken) {contents : Contents} (eventId : Id) (original : Observation) (asObservation : Bool) :
    Tx.Triple (Holds a f taken env) (reuse g contents original asObservation)
      (fun o s => ∃ a' f', Holds a' f' taken env s ∧ After g strict a taken contents (some eventId) o a' f')
      (Inv g strict env) := by
  unfold reuse
  split
  · exact Tx.triple_pure fun s here => ⟨a, f, here, .same full⟩
  refine Tx.triple_bind triple_recover fun _ => ?_
  have full' := full.recovered
  refine Tx.triple_bind (Q := fun o s => ∃ a' f', Holds a' f' taken env s ∧
    After g strict a taken contents (some eventId) o a' f') ?_ fun conflict => ?_
  · refine Tx.triple_bind triple_self fun b => Tx.triple_fact fun _ => ?_
    split
    · exact Tx.triple_pure fun s here => ⟨_, f, here, full', .refl _, fun none_ => by cases none_⟩
    · refine (appendObservation_spec full' (sayable_plain (fun kind => by cases kind) fun kind => by cases kind) none _).post ?_
      rintro o s ⟨a', f', here, after⟩
      exact ⟨a', f', here, after.full, after.grew, fun none_ => by cases none_⟩
  · split
    · exact Tx.triple_pure fun s here => here
    · exact Tx.triple_raise fun s ⟨a', f', here, after⟩ => here.inv after.full

/-- **An event of a call.** -/
theorem event_spec (full : Full g strict a f taken) {contents : Contents} (sayable : Sayable g a f contents)
    (eventId : Option Id) (asObservation : Bool) :
    Tx.Triple (Holds a f taken env) (event g contents eventId asObservation)
      (fun o s => ∃ a' f', Holds a' f' taken env s ∧ After g strict a taken contents eventId o a' f')
      (Inv g strict env) := by
  refine Tx.triple_bind triple_self fun b => Tx.triple_fact ?_
  rintro ⟨wall, rfl⟩
  split
  · next original found =>
    obtain ⟨i, rfl, -⟩ := Option.bind_eq_some_iff.1 found
    exact reuse_spec full i original asObservation
  by_cases late : contradicted { a with lastWall := wall } contents = true
  · refine Tx.triple_bind (Q := fun _ => Holds { a with state := .recoveryRequired } f taken env)
      (Tx.triple_when (fun _ => triple_recover) fun _ _ not_ => absurd late not_) fun _ => ?_
    refine (appendObservation_spec full.recovered ⟨sayable.stream, sayable.zero⟩ eventId none).post ?_
    rintro o s ⟨a', f', here, after⟩
    exact ⟨a', f', here, after.full, after.grew, fun _ => after.recorded rfl⟩
  · refine Tx.triple_bind (Q := fun _ => Holds a f taken env)
      (Tx.triple_when (fun yes => absurd yes late) fun _ here _ => here) fun _ => ?_
    refine (appendObservation_spec full sayable eventId none).post ?_
    rintro o s ⟨a', f', here, after⟩
    exact ⟨a', f', here, after.full, after.grew, fun _ => after.recorded rfl⟩

/-! ## One operation at a time -/

theorem keeps_locked (full : Full g strict a f taken) {α : Type} {x : Op α} (keeps : Keeps g strict a f taken env x) :
    Keeps g strict a f taken env (locked x) := triple_locked full.raised keeps

theorem keeps_checkOpen (full : Full g strict a f taken) : Keeps g strict a f taken env (checkOpen g) :=
  (triple_checkOpen full.raised full.recovered.raised).post fun _ _ here => here.1.inv full

theorem keeps_recover (full : Full g strict a f taken) : Keeps g strict a f taken env recover :=
  triple_recover.post fun _ _ here => here.inv full.recovered

/-- The last change of an operation, and its answer. -/
theorem keeps_settled {b : FakeAuthority} (full : Full g strict b f taken) {change : FakeAuthority → FakeAuthority}
    (changes : ∀ wall, change { a with lastWall := wall } = { b with lastWall := wall }) {α : Type} (answer : α) :
    Keeps g strict a f taken env (do
      update change
      pure answer) :=
  Tx.triple_bind (triple_update b changes) fun _ => Tx.triple_pure fun _ here => here.inv full

/-- An event, and nothing behind it. -/
theorem keeps_event (full : Full g strict a f taken) {contents : Contents} (sayable : Sayable g a f contents)
    (eventId : Option Id) (asObservation : Bool) : Keeps g strict a f taken env (event g contents eventId asObservation) :=
  (event_spec full sayable eventId asObservation).post fun _ _ ⟨_, _, here, after⟩ => here.inv after.full

theorem keeps_registerCall (full : Full g strict a f taken) (key : ReservationKey) (run : Run) (admission : Admission) :
    Keeps g strict a f taken env (registerCall g key run admission) := by
  refine Tx.triple_bind (triple_check full.raised) fun _ => Tx.triple_fact fun matched => ?_
  refine Tx.triple_bind (triple_check full.raised) fun _ => Tx.triple_fact fun _ => ?_
  refine keeps_locked full ?_
  refine Tx.triple_bind (triple_checkOpen full.raised full.recovered.raised) fun _ => Tx.triple_fact fun _ => ?_
  refine Tx.triple_bind triple_self fun b => Tx.triple_fact ?_
  rintro ⟨wall, rfl⟩
  refine Tx.triple_bind (triple_demand full.raised) fun call => Tx.triple_fact fun found => ?_
  refine Tx.triple_bind (triple_check full.raised) fun _ => Tx.triple_fact fun _ => ?_
  have next := full.base.journaled.snoc (d := .admission admission) rfl rfl full.base.positive
    fun before _ p ack _ same => by cases same
  refine Tx.triple_bind (append_plain full.base full.gated rfl next) fun row => ?_
  rintro s ⟨a', f', here, acknowledged⟩
  have full' := acknowledged.full full rfl
  have mem : .admission admission ∈ documents a' := by
    rw [acknowledged.documents]
    exact List.mem_append_right _ List.mem_cons_self
  have recalled : Full g strict { a' with calls := amend Call.key a'.calls key fun c => { c with admission := some admission } }
      f' taken := by
    refine full'.recalled (grew_amend fun c => ⟨rfl, id, id⟩) (admission_amend full'.base (fun c _ record set => ?_) fun _ => rfl)
    obtain rfl : admission = record := Option.some.inj set
    exact .inr ⟨matched.2.2, mem⟩
  exact (triple_update _ fun _ => rfl).post (fun _ s here => here.inv recalled) s here

/-! ### New calls -/

theorem writeCore_spec (full : Full g strict a f taken) {value : CoreEvidence} (bare : value.admission = none) (write : Write) :
    Tx.Triple (Holds a f taken env) (writeCore value write)
      (fun _ s => value.key ∉ f.cores.map Prod.fst ∧ ∃ cores, Holds a { f with cores := cores } taken env s ∧
        Full g strict a { f with cores := cores } taken ∧ value.key ∈ cores.map Prod.fst)
      (Inv g strict env) := by
  have more (file : Option CoreEvidence) (same : ∀ v, file = some v → v = value) :
      Full g strict a { f with cores := f.cores ++ [(value.key, file)] } taken := by
    refine ⟨{ full.base with journal := ?_, cores := ?_ }, full.issued, full.gated⟩
    · refine full.base.journal.mono fun _ holds => holds.mono (fun _ closed => closed) (fun _ _ clean => clean) (fun k mem => ?_)
        (Nat.le_refl _)
      rw [List.map_append]
      exact List.mem_append_left _ mem
    · intro m mem v set
      rcases List.mem_append.1 mem with before | last
      · exact full.base.cores m before v set
      · rw [List.mem_singleton.1 last] at set
        rw [same v set, bare]
  rintro s ⟨at_, rfl, held, world⟩
  unfold writeCore
  dsimp only
  split
  · next there => exact Holds.inv full ⟨at_, rfl, held, world⟩
  next fresh =>
  have fresh : value.key ∉ s.files.cores.map Prod.fst := fun mem => by
    obtain ⟨file, found⟩ := lookup_of_key mem
    rw [found] at fresh
    exact fresh rfl
  cases write with
  | nothing => exact Holds.inv full ⟨at_, rfl, held, world⟩
  | torn => exact Holds.inv (more none fun v set => by cases set) ⟨at_, rfl, held, world⟩
  | whole => exact Holds.inv (more (some value) fun v set => (Option.some.inj set).symm) ⟨at_, rfl, held, world⟩
  | synced =>
      refine ⟨fresh, _, ⟨at_, rfl, held, world⟩, more (some value) fun v set => (Option.some.inj set).symm, ?_⟩
      rw [List.map_append]
      exact List.mem_append_right _ List.mem_cons_self

/-- A call of a new key. -/
theorem Full.restored (full : Full g strict a f taken) (call : Call) (fresh : ∀ c ∈ a.calls, c.key ≠ call.key)
    (bare : call.admission = none) (evidence : call.key ∈ evidenced (documents a)) :
    Full g strict { a with calls := assign Call.key a.calls call } f taken := by
  have known {key : ReservationKey} (known : ∃ c ∈ a.calls, c.key = key) :
      ∃ c ∈ assign Call.key a.calls call, c.key = key := by
    obtain ⟨c, mem, same⟩ := known
    exact ⟨c, mem_assign_of_ne mem (fresh c mem), same⟩
  refine ⟨{ full.base with journal := ?_, calls := ?_, live := ?_, spent := ?_ }, ⟨?_, ?_⟩, { full.gated with }⟩
  · exact full.base.journal.mono fun _ holds =>
      holds.mono (fun _ closed => (closed_assign fresh).1 closed) (fun _ _ clean => clean) (fun _ mem => mem) (Nat.le_refl _)
  · intro c mem
    rcases mem_assign mem with rfl | ⟨before, -⟩
    · refine ⟨evidence, fun record set => ?_⟩
      rw [bare] at set
      cases set
    · exact full.base.calls c before
  · intro p mem live
    exact ⟨(closed_assign fresh).2 (full.base.live p mem live).1, (full.base.live p mem live).2⟩
  · intro t mem
    obtain ⟨spent, evidence, there⟩ := full.base.spent t mem
    exact ⟨spent, evidence, known there⟩
  · exact fun opened p mem live open_ =>
      full.issued.recorded opened p mem live fun closed => open_ ((closed_assign fresh).1 closed)
  · exact fun opened t mem open_ =>
      (closed_assign fresh).2 (full.issued.done opened t mem fun closed => open_ ((closed_assign fresh).1 closed))

theorem restoreOne_spec (full : Full g strict a f taken) {key : ReservationKey} {digest : Id}
    (fresh : ∀ c ∈ a.calls, c.key ≠ key) (evidence : key ∈ evidenced (documents a)) :
    Keeps g strict a f taken env (restoreOne g key digest) := by
  rintro s ⟨⟨wall, same⟩, rfl, held, world⟩
  unfold restoreOne
  split
  · next a' done =>
    rw [same] at done
    obtain ⟨call, of, bare, rfl⟩ := restoreCall_eq_some full.base.cores done
    exact Holds.inv (full.restored call (of ▸ fresh) bare (of ▸ evidence)) ⟨⟨wall, rfl⟩, rfl, held, world⟩
  · exact Holds.inv full ⟨⟨wall, same⟩, rfl, held, world⟩

theorem keeps_registerNew (full : Full g strict a f taken) {value : CoreEvidence} (bare : value.admission = none)
    (none_ : ∀ c ∈ a.calls, c.key ≠ value.key) : Keeps g strict a f taken env (registerNew g value) := by
  refine Tx.triple_bind (triple_check full.raised) fun _ => Tx.triple_fact fun _ => ?_
  refine Tx.triple_bind triple_draw fun e => Tx.triple_fact fun _ => ?_
  refine Tx.triple_bind (writeCore_spec full bare e.core) fun _ => ?_
  rintro s ⟨fresh, cores, here, full', stored⟩
  have unseen : value.key ∉ evidenced (documents a) := fun mem => fresh (full.base.journaled.cored _ mem)
  have next := full'.base.journaled.snoc_evidence (g.coreDigest value) unseen stored full'.base.positive
  revert s
  refine Tx.triple_bind (append_plain full'.base full'.gated rfl next) fun row => ?_
  rintro s ⟨a', f', here, acknowledged⟩
  have calls : a'.calls = a.calls := by rw [acknowledged.same]
  refine restoreOne_spec (acknowledged.full full' rfl) (calls ▸ none_) ?_ s here
  rw [acknowledged.documents]
  exact List.mem_filterMap.2 ⟨_, List.mem_append_right _ List.mem_cons_self, rfl⟩

theorem keeps_registerReserved (full : Full g strict a f taken) (key : ReservationKey) (core : BindingCore)
    (manifestDigest : Id) (run : Run) (reservation : Receipt) :
    Keeps g strict a f taken env (registerReserved g key core manifestDigest run reservation) := by
  refine keeps_locked full ?_
  refine Tx.triple_bind triple_self fun b => Tx.triple_fact ?_
  rintro ⟨wall, rfl⟩
  refine Tx.triple_bind (triple_check full.raised) fun _ => Tx.triple_fact fun _ => ?_
  split
  · exact (triple_check full.raised).post fun _ s here => here.1.inv full
  · next none_ =>
    refine keeps_registerNew full rfl fun c mem same => ?_
    have unseen := List.find?_eq_none.1 (show a.calls.find? (fun c => c.key = key) = none from none_) c mem
    exact unseen (decide_eq_true same)

theorem keeps_scriptFinal (full : Full g strict a f taken) (key : ReservationKey) (usage : UsageView) (terminal : Terminal) :
    Keeps g strict a f taken env (scriptFinal key usage terminal) := by
  refine Tx.triple_bind (triple_check full.raised) fun _ => Tx.triple_fact fun _ => ?_
  refine Tx.triple_bind triple_self fun b => Tx.triple_fact fun _ => ?_
  refine Tx.triple_bind (triple_demand full.raised) fun call => Tx.triple_fact fun _ => ?_
  have amended := full.amended key (fun c => { c with usage := usage, terminal := terminal }) (fun c => ⟨rfl, id, id⟩)
    fun _ => rfl
  exact (triple_update _ fun _ => rfl).post fun _ s here => here.inv amended

/-! ### Tickets and permits -/

theorem keeps_beginAcceptance (full : Full g strict a f taken) (run : Run) (admission : Admission) (bodyDigest : Id) :
    Keeps g strict a f taken env (beginAcceptance g run admission bodyDigest) := by
  refine keeps_locked full ?_
  refine Tx.triple_bind (triple_checkOpen full.raised full.recovered.raised) fun _ => Tx.triple_fact fun _ => ?_
  refine Tx.triple_bind triple_self fun b => Tx.triple_fact ?_
  rintro ⟨wall, rfl⟩
  refine Tx.triple_bind (triple_demand full.raised) fun call => Tx.triple_fact fun found => ?_
  obtain ⟨mem, of⟩ := call?_mem (a := { a with lastWall := wall }) found
  refine Tx.triple_bind (triple_check full.raised) fun _ => Tx.triple_fact fun checked => ?_
  refine Tx.triple_bind (triple_now full.raised) fun time => ?_
  refine Tx.triple_bind (triple_check full.raised) fun _ => Tx.triple_fact fun _ => ?_
  refine Tx.triple_bind (triple_check full.raised) fun _ => Tx.triple_fact fun _ => ?_
  refine Tx.triple_bind triple_draw fun e => Tx.triple_fact fun _ => ?_
  dsimp only at checked ⊢
  generalize made : (⟨e.uuid, admission.key, g.deployment, a.epoch, a.generation, run.context.ownerGeneration, bodyDigest,
    call.expiry⟩ : AcceptanceTicket) = ticket
  have key : ticket.keyDigest = admission.key := by rw [← made]
  refine Tx.triple_bind (triple_update { a with tickets := assign AcceptanceTicket.ticketId a.tickets ticket } fun _ => rfl)
    fun _ => Tx.triple_pure fun s here => here.inv ?_
  refine ⟨{ full.base with tickets := fun t there => ?_ }, { full.issued with }, { full.gated with }⟩
  rcases mem_assign there with rfl | ⟨before, -⟩
  · exact ⟨admission, ((full.base.calls call mem).2 admission checked.2.1).2, key.symm⟩
  · exact full.base.tickets t before

theorem keeps_issue (full : Full g strict a f taken) (run : Run) (admission : Admission) (ticket : AcceptanceTicket)
    (markerEventId guardEpoch : Id) :
    Keeps g strict a f taken env (issue g run admission ticket markerEventId guardEpoch) := by
  refine keeps_locked full ?_
  refine Tx.triple_bind (triple_checkOpen full.raised full.recovered.raised) fun _ => Tx.triple_fact fun open_ => ?_
  refine Tx.triple_bind triple_self fun b => Tx.triple_fact ?_
  rintro ⟨wall, rfl⟩
  refine Tx.triple_bind (triple_demand full.raised) fun call => Tx.triple_fact fun found => ?_
  obtain ⟨mem, of⟩ := call?_mem (a := { a with lastWall := wall }) found
  refine Tx.triple_bind (triple_check full.raised) fun _ => Tx.triple_fact fun checked => ?_
  obtain ⟨ticketed, unmarked, -, current, -, -⟩ := checked
  refine Tx.triple_bind (triple_now full.raised) fun time => ?_
  refine Tx.triple_bind (triple_check full.raised) fun _ => Tx.triple_fact fun checked => ?_
  refine Tx.triple_bind triple_draw fun e => Tx.triple_fact fun _ => ?_
  dsimp only at mem unmarked ⊢
  generalize made : (⟨call.key, e.uuid, admission.admissionId, run.context.ownerGeneration, guardEpoch, a.epoch, a.generation,
    ticket.ticketId, ticket.bodyDigest, markerEventId, a.observerEpoch, ticket.expiresAt⟩ : SendPermit) = permit
  have key : permit.key = call.key := by rw [← made]
  have generation : permit.acceptanceGeneration = a.generation := by rw [← made]
  have unmarked_ (marked : Marked a.calls call.key) : False := by
    rw [marked.marked call mem rfl] at unmarked
    cases unmarked
  have open' : ¬ Closed a.calls call.key := fun closed => by
    have shut := closed.closed call mem rfl
    rw [checked.2] at shut
    cases shut
  have grew : Grew a.calls (amend Call.key a.calls ticket.keyDigest fun c => { c with marked := true }) :=
    grew_amend fun c => ⟨rfl, id, fun _ => rfl⟩
  have marked : Marked (amend Call.key a.calls ticket.keyDigest fun c => { c with marked := true }) call.key := by
    refine ⟨grew.known ⟨call, mem, rfl⟩, fun c there same => ?_⟩
    obtain ⟨before, -, ⟨-, rfl⟩ | ⟨other, rfl⟩⟩ := mem_amend there
    · rfl
    · exact absurd (same.trans of) other
  have lone (q : Permit) (there : q ∈ a.permits) (live : q.Live) : q.record.key ≠ permit.key := fun same =>
    unmarked_ (key ▸ same ▸ (full.base.live q there live).1)
  have evidence : permit.key ∈ evidenced (documents a) := key ▸ (full.base.calls call mem).1
  have base : Base g { a with
      calls := amend Call.key a.calls ticket.keyDigest fun c => { c with marked := true }
      permits := assign (fun p => p.record.permitId) a.permits ⟨permit, false, false⟩ } f taken := by
    have recalled := full.base.recalled grew (admission_amend full.base (fun c _ _ set => .inl set) fun _ => rfl)
    refine { recalled with live := ?_, single := ?_, spent := ?_ }
    · intro p there live
      rcases mem_assign there with rfl | ⟨before, -⟩
      · exact ⟨key ▸ marked, evidence⟩
      · exact recalled.live p before live
    · intro p there q there' live live' same
      rcases mem_assign there with rfl | ⟨before, -⟩ <;> rcases mem_assign there' with rfl | ⟨before', -⟩
      · rfl
      · exact absurd same.symm (lone q before' live')
      · exact absurd same (lone p before live)
      · exact full.base.single p before q before' live live' same
    · intro t there
      obtain ⟨spent, rest⟩ := recalled.spent t there
      refine ⟨fun p there' same live => ?_, rest⟩
      rcases mem_assign there' with rfl | ⟨before, -⟩
      · have same : t.permit.key = call.key := same.symm.trans key
        exact unmarked_ (same ▸ full.issued.done open_.1 t there (same ▸ open'))
      · exact spent p before same live
  have gated : Gated g strict { a with
      calls := amend Call.key a.calls ticket.keyDigest fun c => { c with marked := true }
      permits := assign (fun p => p.record.permitId) a.permits ⟨permit, false, false⟩ } := { full.gated with }
  refine Tx.triple_bind (triple_update { a with
      calls := amend Call.key a.calls ticket.keyDigest fun c => { c with marked := true }
      permits := assign (fun p => p.record.permitId) a.permits ⟨permit, false, false⟩ } fun _ => rfl) fun _ => ?_
  have next := base.journaled.snoc (d := .permit permit) rfl rfl (Nat.le_of_eq generation) fun before _ p ack _ same => by cases same
  refine Tx.triple_bind (append_plain base gated rfl next) fun row => ?_
  rintro s ⟨a', f', here, acknowledged⟩
  have full' : Full g strict a' f' taken := by
    have more := acknowledged.documents
    refine ⟨acknowledged.base, ?_, acknowledged.gated gated rfl⟩
    rw [acknowledged.same] at more ⊢
    refine ⟨fun _ p there live shut => ?_, fun _ t there shut => ?_⟩
    · rw [more]
      rcases mem_assign there with rfl | ⟨before, -⟩
      · obtain ⟨record, admitted, same⟩ := full.base.tickets ticket (List.mem_of_find?_eq_some ticketed)
        exact ⟨List.mem_append_right _ List.mem_cons_self, record, List.mem_append_left _ admitted,
          same.trans (of.symm.trans key.symm)⟩
      · exact ((full.issued.recalled grew).recorded open_.1 p before live shut).mono (List.subset_append_left _ _)
    · exact (full.issued.recalled grew).done open_.1 t there shut
  have plain : Sayable g a' f' (contentsFor call (some permit) .permitIssued .unknown .none) :=
    sayable_plain (fun kind => by cases kind) fun kind => by cases kind
  exact Tx.triple_bind (R := fun _ => Inv g strict env) (keeps_event full' plain none false)
    (fun _ => Tx.triple_pure fun _ inv => inv) s here

/-! ### Bodies -/

theorem Rested.of (full : Full g strict a f taken) {p : Permit} {permit : SendPermit} (there : p ∈ a.permits)
    (record : p.record = permit) (live : p.Live) {c : Call} (mem : c ∈ a.calls) (key : c.key = permit.key)
    (open_ : c.closed = false) (opened : a.state = .opened) (covered : a.coverage g = true)
    (current : permit.authorityEpoch = a.epoch ∧ permit.acceptanceGeneration = a.generation) {body : Id}
    (digest : g.digest body = permit.bodyDigest) (bound : permit.bodyDigest = c.bodyDigest) (wall : Option Int) :
    Rested g ⟨{ a with lastWall := wall }, permit, body⟩ := by
  have open' : ¬ Closed a.calls permit.key := fun closed => by
    have shut := closed.closed c mem key
    rw [open_] at shut
    cases shut
  refine ⟨opened, covered, ⟨p, there, record, live⟩, current, ⟨c, mem, key, bound.symm, digest.trans bound⟩,
    record ▸ full.issued.recorded opened p there live (record ▸ open'), fun o said kind same => ?_,
    fun before after split ack said pending => ?_⟩
  · exact open' (same ▸ full.base.journaled.closed o said kind)
  · have split : documents a = before ++ .permit permit :: after := split
    have fenced := full.base.journaled.fenced
    rw [split] at fenced
    have outrun := (List.pairwise_cons.1 (List.pairwise_append.1 fenced).2.1).1 _ said permit ack rfl rfl pending
    have low := full.base.journaled.generation (.ack ack) (by
      rw [split]
      exact List.mem_append_right _ (List.mem_cons_of_mem _ said))
    have low : ack.acceptanceGeneration ≤ a.generation := low
    rw [← current.2] at low
    exact absurd outrun (Nat.not_lt.2 low)

/-- What is left once a body was taken. -/
theorem Full.took (full : Full g strict a f taken) {p : Permit} {permit : SendPermit} (there : p ∈ a.permits)
    (record : p.record = permit) (live : p.Live) {t : Taken} (of : t.permit = permit) (rested : Rested g t) :
    Full g strict { a with
      permits := amend (fun p => p.record.permitId) a.permits permit.permitId fun p => { p with consumed := true } } f
      (taken ++ [t]) := by
  have back : ∀ q ∈ amend (fun p => p.record.permitId) a.permits permit.permitId (fun p => { p with consumed := true }),
      ∃ x ∈ a.permits, q.record = x.record ∧ (q.Live → x.Live) := by
    intro q mem
    obtain ⟨x, here, ⟨-, rfl⟩ | ⟨-, rfl⟩⟩ := mem_amend mem
    · exact ⟨x, here, rfl, fun live => by cases live.1⟩
    · exact ⟨q, here, rfl, id⟩
  have spent : Spent (amend (fun p => p.record.permitId) a.permits permit.permitId fun p => { p with consumed := true })
      permit.key := by
    intro q mem same alive
    obtain ⟨x, here, ⟨-, rfl⟩ | ⟨other, rfl⟩⟩ := mem_amend mem
    · cases alive.1
    · have one := full.base.single q here p there alive live (same.trans (congrArg SendPermit.key record.symm))
      exact other (congrArg SendPermit.permitId (one.trans record))
  have fresh : permit.key ∉ keys taken := fun mem => by
    obtain ⟨u, earlier, same⟩ := List.mem_map.1 mem
    exact (full.base.spent u earlier).1 p there (record ▸ same.symm) live
  have keys_ : keys (taken ++ [t]) = keys taken ++ [permit.key] := by
    rw [keys, List.map_append, List.map_singleton, of]
    rfl
  have marked := full.base.live p there live
  rw [record] at marked
  have base := full.base.repermitted back
  have issued := full.issued.repermitted back
  refine ⟨{ base with log := ?_, spent := ?_, once := ?_, rested := ?_ }, ⟨issued.recorded, ?_⟩, { full.gated with }⟩
  · refine full.base.log.mono fun _ counted => counted.mono fun k mem => ?_
    rw [keys_]
    exact List.mem_append_left _ mem
  · intro u mem
    rcases List.mem_append.1 mem with before | last
    · exact base.spent u before
    · rw [List.mem_singleton.1 last, of]
      exact ⟨spent, marked.2, marked.1.known⟩
  · rw [keys_, List.nodup_append]
    refine ⟨full.base.once, List.nodup_singleton _, ?_⟩
    rintro x mem y last rfl
    rw [List.mem_singleton] at last
    exact fresh (last ▸ mem)
  · intro u mem
    rcases List.mem_append.1 mem with before | last
    · exact full.base.rested u before
    · rw [List.mem_singleton.1 last]
      exact rested
  · intro opened u mem open_
    rcases List.mem_append.1 mem with before | last
    · exact issued.done opened u before open_
    · rw [List.mem_singleton.1 last, of]
      exact marked.1

/-- The witness alone has changed, and not where the journal stands. -/
theorem Gated.noted (gated : Gated g strict a) {w : Witness} (sequence : w.headSequence = a.witness.headSequence)
    (digest : w.headDigest = a.witness.headDigest) : Gated g strict { a with witness := w } := by
  have level : ({ a with witness := w } : FakeAuthority).level g = a.level g := by
    unfold FakeAuthority.level
    rw [sequence, digest]
  exact { gated with
    opened := fun open_ => ⟨level.trans (gated.opened open_).1, (gated.opened open_).2⟩
    known := fun strictly => (gated.known strictly).imp_right fun behind => level.trans behind }

theorem keeps_accept (full : Full g strict a f taken) {permit : SendPermit} (eventId : Id) (counted : permit.key ∈ keys taken)
    (fresh : ∀ x ∈ a.witness.rows.map Row.payload, x.accepts permit.key = false) (open_ : ¬ Closed a.calls permit.key) :
    Keeps g strict a f taken env (accept g permit eventId) := by
  refine Tx.triple_bind ((witness_spec full.base fun k accepts => ?_).mono (fun _ here => here) (fun _ _ here => here) ?_)
    fun _ => ?_
  · have same : permit.key = k := of_decide_eq_true accepts
    subst same
    exact ⟨counted, fresh, open_⟩
  · rintro s ⟨w, log, here, base, sequence, digest⟩
    exact here.inv ⟨base, { full.issued with }, full.gated.noted sequence digest⟩
  rintro s ⟨w, log, here, base, -, x, applied, same⟩
  have full' : Full g strict { a with witness := w } { f with log := log } taken := by
    refine ⟨base, { full.issued with }, full.gated.noted ?_ ?_⟩ <;>
    · rw [same]
      rw [Witness.apply] at applied
      split at applied
      · cases applied
      · cases applied
        rfl
  revert s
  refine Tx.triple_bind (triple_hook fun s here _ => here.inv full') fun _ => ?_
  refine Tx.triple_bind triple_self fun b => Tx.triple_fact ?_
  rintro ⟨wall, rfl⟩
  refine Tx.triple_bind (triple_demand full'.raised) fun call => Tx.triple_fact fun _ => ?_
  refine Tx.triple_bind (event_spec full' (sayable_plain (fun kind => by cases kind) fun kind => by cases kind) _ _) fun o => ?_
  rintro s ⟨a', f', here, after⟩
  have full'' := after.full
  revert s
  refine Tx.triple_bind (triple_hook fun s here _ => here.inv full'') fun _ => ?_
  refine Tx.triple_bind (Q := fun _ => Inv g strict env) (Tx.triple_when (fun _ => ?_) fun s here _ => here.inv full'')
    fun _ => Tx.triple_pure fun _ inv => inv
  exact Tx.triple_bind (R := fun _ => Inv g strict env) (keeps_event full''
    (sayable_plain (fun kind => by cases kind) fun kind => by cases kind) _ _) fun _ => Tx.triple_pure fun _ inv => inv

theorem keeps_consumeWrite (full : Full g strict a f taken) (permit : SendPermit) (body : Id) :
    Keeps g strict a f taken env (consumeWrite g permit body) := by
  refine keeps_locked full ?_
  refine Tx.triple_bind (triple_checkOpen full.raised full.recovered.raised) fun _ => Tx.triple_fact fun open_ => ?_
  refine Tx.triple_bind triple_self fun b => Tx.triple_fact ?_
  rintro ⟨wall, rfl⟩
  refine Tx.triple_bind (triple_demand full.raised) fun stored => Tx.triple_fact fun held => ?_
  refine Tx.triple_bind (triple_demand full.raised) fun call => Tx.triple_fact fun found => ?_
  obtain ⟨there, -⟩ := permit?_mem (a := { a with lastWall := wall }) held
  obtain ⟨mem, of⟩ := call?_mem (a := { a with lastWall := wall }) found
  refine Tx.triple_bind (triple_check full.raised) fun _ => Tx.triple_fact fun record => ?_
  refine Tx.triple_bind (triple_check full.raised) fun _ => Tx.triple_fact fun checked => ?_
  obtain ⟨unconsumed, unrevoked, unclosed, -, epoch, generation, -⟩ := checked
  refine Tx.triple_bind (triple_now full.raised) fun time => ?_
  refine Tx.triple_bind (triple_check full.raised) fun _ => Tx.triple_fact fun checked => ?_
  refine Tx.triple_bind triple_draw fun e => Tx.triple_fact fun _ => ?_
  have live : stored.Live := ⟨unconsumed, unrevoked⟩
  have rested := Rested.of full there record live mem of unclosed open_.1 open_.2 ⟨epoch, generation⟩ checked.2.1 checked.2.2
  have fresh : ∀ x ∈ a.witness.rows.map Row.payload, x.accepts permit.key = false := fun x said => by
    refine Bool.eq_false_iff.2 fun accepts => ?_
    obtain ⟨u, earlier, same⟩ := List.mem_map.1 (full.base.log.memory.taken _ x said accepts)
    exact (full.base.spent u earlier).1 stored there (record ▸ same.symm) live
  have open' : ¬ Closed a.calls permit.key := fun closed => by
    have shut := closed.closed call mem of
    rw [unclosed] at shut
    cases shut
  rintro s ⟨⟨wall', same⟩, files, held', world⟩
  have took := full.took there record live (t := ⟨s.authority, permit, body⟩) rfl (same ▸ rested wall')
  refine triple_orRecover (keeps_accept took e.uuid ?_ fresh open') (fun s inv => inv.recovered)
    { s with
      authority := { s.authority with
        permits := amend (fun p => p.record.permitId) s.authority.permits permit.permitId fun p => { p with consumed := true } }
      taken := s.taken ++ [⟨s.authority, permit, body⟩] } ⟨⟨wall', ?_⟩, files, ?_, world⟩
  · rw [keys, List.map_append]
    exact List.mem_append_right _ List.mem_cons_self
  · dsimp only
    rw [same]
  · dsimp only
    rw [held']

/-! ### Streams -/

/-- Where the witness has counted nothing and its file has nothing more, nothing is counted. -/
theorem clean_of_exact (base : Base g a f taken) (exact_ : ∀ out, Usable g f.log out → out = a.witness.rows)
    {key : ReservationKey} (none_ : a.witness.accepted key = 0) : Clean g a.witness f.log key := by
  have quiet : ∀ x ∈ a.witness.acceptances, x.key ≠ key := fun x mem same =>
    List.countP_eq_zero.1 none_ x mem (decide_eq_true same)
  refine ⟨quiet, fun out usable row mem => Bool.eq_false_iff.2 fun accepts => ?_⟩
  obtain rfl := exact_ out usable
  obtain ⟨w, applied⟩ := Option.isSome_iff_exists.1 usable.2
  obtain ⟨x, counted, same⟩ := (applied_acceptances applied key).2 ⟨row, mem, accepts⟩
  rw [base.applied w applied] at counted
  exact quiet x counted same

theorem keeps_recordClosed (full : Full g strict a f taken) {call : Call} (closed : Closed a.calls call.key)
    (permit : Option SendPermit) : Keeps g strict a f taken env (recordClosed g call permit) := by
  have sayable : Sayable g a f (contentsFor call permit .streamClosed .unknown .none) :=
    ⟨fun _ => closed, fun kind => by cases kind⟩
  refine Tx.triple_bind (event_spec full sayable none false) fun o => ?_
  rintro s ⟨a', f', here, after⟩
  obtain ⟨mem, said, exact_⟩ := after.recorded rfl
  have full' := after.full
  revert s
  refine Tx.triple_bind triple_self fun b => Tx.triple_fact ?_
  rintro ⟨wall, rfl⟩
  refine Tx.triple_when (fun none_ => ?_) fun s here _ => here.inv full'
  have sayable' : Sayable g a' f' (contentsFor call permit .zeroProven g.zeroUsage .none) := by
    refine ⟨fun kind => (by cases kind), fun _ => ⟨clean_of_exact full'.base exact_ none_.2, o, mem, ?_, ?_⟩⟩
    · exact congrArg Contents.kind said
    · exact congrArg Contents.key said
  exact Tx.triple_bind (R := fun _ => Inv g strict env) (keeps_event full' sayable' none false)
    fun _ => Tx.triple_pure fun _ inv => inv

theorem keeps_closeFirst (full : Full g strict a f taken) {call : Call} (mem : call ∈ a.calls) :
    Keeps g strict a f taken env (closeFirst g call) := by
  have grew : Grew a.calls (amend Call.key a.calls call.key fun c => { c with closed := true }) :=
    grew_amend fun c => ⟨rfl, fun _ => rfl, id⟩
  have shut : Closed (amend Call.key a.calls call.key fun c => { c with closed := true }) call.key := by
    refine ⟨grew.known ⟨call, mem, rfl⟩, fun c there same => ?_⟩
    obtain ⟨before, -, ⟨-, rfl⟩ | ⟨other, rfl⟩⟩ := mem_amend there
    · rfl
    · exact absurd same other
  have full' : Full g strict { a with
      calls := amend Call.key a.calls call.key fun c => { c with closed := true }
      permits := a.permits.map fun p => if p.record.key = call.key then { p with revoked := true } else p } f taken := by
    refine (full.amended call.key (fun c => { c with closed := true }) (fun c => ⟨rfl, fun _ => rfl, id⟩)
      fun _ => rfl).repermitted fun p there => ?_
    obtain ⟨q, before, rfl⟩ := List.mem_map.1 there
    refine ⟨q, before, ?_⟩
    split
    · exact ⟨rfl, fun live => by cases live.2⟩
    · exact ⟨rfl, id⟩
  refine Tx.triple_bind (triple_update { a with
      calls := amend Call.key a.calls call.key fun c => { c with closed := true }
      permits := a.permits.map fun p => if p.record.key = call.key then { p with revoked := true } else p } fun _ => rfl)
    fun _ => ?_
  refine Tx.triple_bind triple_self fun b => Tx.triple_fact fun _ => ?_
  split
  · exact keeps_recover full'
  · exact keeps_recordClosed full' shut _

/-- Reading leaves everything as it is. -/
theorem keeps_events (key : ReservationKey) {P : Sys → Prop} {E : Sys → Prop} : Tx.Triple P (events key) (fun _ => P) E :=
  Tx.triple_bind (Q := fun _ => P) (fun _ here => here) fun _ => Tx.triple_pure fun _ here => here

theorem keeps_closeCall (full : Full g strict a f taken) (key : ReservationKey) :
    Keeps g strict a f taken env (closeCall g key) := by
  refine keeps_locked full ?_
  refine Tx.triple_bind triple_self fun b => Tx.triple_fact ?_
  rintro ⟨wall, rfl⟩
  refine Tx.triple_bind (triple_demand full.raised) fun call => Tx.triple_fact fun found => ?_
  obtain ⟨mem, -⟩ := call?_mem (a := { a with lastWall := wall }) found
  refine Tx.triple_bind (Q := fun _ => Inv g strict env) (Tx.triple_when (fun _ => keeps_closeFirst full mem)
    fun s here _ => here.inv full) fun _ => keeps_events key

theorem keeps_lateUsage (full : Full g strict a f taken) (key : ReservationKey) (usage : UsageView) (terminal : Terminal)
    (eventId : Option Id) : Keeps g strict a f taken env (lateUsage g key usage terminal eventId) := by
  refine keeps_locked full ?_
  refine Tx.triple_bind triple_self fun b => Tx.triple_fact fun _ => ?_
  refine Tx.triple_bind (triple_check full.raised) fun _ => Tx.triple_fact fun _ => ?_
  refine Tx.triple_bind (triple_demand full.raised) fun call => Tx.triple_fact fun _ => ?_
  refine Tx.triple_bind (triple_demand full.raised) fun permit => Tx.triple_fact fun _ => ?_
  exact keeps_event full (sayable_plain (fun kind => by cases kind) fun kind => by cases kind) eventId true

theorem keeps_observe (full : Full g strict a f taken) (scope : Accounting.Scope) (event : Observation) :
    Keeps g strict a f taken env (observe g scope event) := by
  refine keeps_locked full ?_
  refine Tx.triple_bind triple_self fun b => Tx.triple_fact fun _ => ?_
  refine Tx.triple_bind (triple_check full.raised) fun _ => Tx.triple_fact fun _ => ?_
  refine Tx.triple_bind (triple_demand full.raised) fun call => Tx.triple_fact fun _ => ?_
  refine Tx.triple_bind (triple_check full.raised) fun _ => Tx.triple_fact fun _ => ?_
  exact Tx.triple_pure full.raised

theorem keeps_qualifyConsumption (full : Full g strict a f taken) (permit : SendPermit) :
    Keeps g strict a f taken env (qualifyConsumption g permit) := by
  refine keeps_locked full ?_
  refine Tx.triple_bind (triple_checkOpen full.raised full.recovered.raised) fun _ => Tx.triple_fact fun _ => ?_
  refine Tx.triple_bind triple_self fun b => Tx.triple_fact fun _ => ?_
  refine Tx.triple_bind (triple_check full.raised) fun _ => Tx.triple_fact fun _ => ?_
  exact (triple_check full.raised).post fun _ _ here => here.1.inv full

/-! ### Invalidations -/

theorem unknown_of_none {operationId : Id} (unseen : (a.operations.find? fun ack => ack.operationId = operationId) = none) :
    ∀ x ∈ a.operations, x.operationId ≠ operationId := fun x mem same =>
  List.find?_eq_none.1 unseen x mem (decide_eq_true same)

/-- An acknowledgement of an operation that is unresolved, or new, while the gate is shut. -/
theorem Gated.ack (gated : Gated g strict a) (level : a.level g = true) (ack : InvalidationAck)
    (unresolved : ∀ x ∈ a.operations, x.operationId = ack.operationId → x.disposition.final = false)
    {rows : List (Row Id Document)} (rows_ : rows.map Row.payload = documents a ++ [.ack ack]) (w : Witness)
    (known : strict → (∃ x ∈ a.operations, x.operationId = ack.operationId) ∨
      ({ a with rows := rows, witness := w } : FakeAuthority).level g = false) :
    Gated g strict { a with rows := rows, witness := w, state := .recoveryRequired } where
  opened open_ := by cases open_
  known strictly := by
    refine (known strictly).imp_left fun here x mem => ?_
    rw [documents, rows_] at mem
    rcases gated.known strictly with old | behind
    · rcases List.mem_append.1 mem with before | last
      · exact old x before
      · rw [Document.ack.inj (List.mem_singleton.1 last)]
        exact here
    · rw [level] at behind
      cases behind
  single := gated.single
  latest x mem final := by
    rw [documents, rows_, latest_snoc_ack, if_neg fun same => ?_]
    · exact gated.latest x mem final
    · rw [unresolved x mem same.symm] at final
      cases final
  low := gated.low

/-- The acknowledgement takes its place among the operations. -/
theorem Gated.acknowledged (gated : Gated g strict a) {ack : InvalidationAck} {row : Row Id Document} {a' : FakeAuthority}
    {f' : Files} (acknowledged : Acknowledged g a f taken (.ack ack) row a' f') (low : ack.acceptanceGeneration ≤ a.generation)
    (shut : strict → a.state ≠ .opened) :
    Gated g strict { a' with operations := assign InvalidationAck.operationId a'.operations ack } := by
  have more := acknowledged.documents
  have level := acknowledged.level
  rw [acknowledged.same] at more level ⊢
  refine ⟨fun open_ => ⟨level, fun strictly => absurd open_ (shut strictly)⟩, fun strictly => .inl fun x mem => ?_,
    single_assign gated.single, fun x mem final => ?_, fun x mem => ?_⟩
  · have mem : .ack x ∈ documents a ++ [.ack ack] := more ▸ mem
    rcases List.mem_append.1 mem with before | last
    · rcases gated.known strictly with known | behind
      · obtain ⟨y, there, same⟩ := known x before
        by_cases it : y.operationId = ack.operationId
        · exact ⟨ack, assign_self, it.symm.trans same⟩
        · exact ⟨y, mem_assign_of_ne there it, same⟩
      · rw [acknowledged.before] at behind
        cases behind
    · exact ⟨ack, assign_self, congrArg InvalidationAck.operationId (Document.ack.inj (List.mem_singleton.1 last)).symm⟩
  · show Endpoint.latest (documents _) _ = _
    rw [show documents { a with
        rows := a.rows ++ [row]
        witness := a'.witness
        operations := assign InvalidationAck.operationId a.operations ack } = documents a ++ [.ack ack] from more,
      latest_snoc_ack]
    rcases mem_assign mem with rfl | ⟨before, other⟩
    · exact if_pos rfl
    · rw [if_neg fun same => other same.symm]
      exact gated.latest x before final
  · rcases mem_assign mem with rfl | ⟨before, -⟩
    · exact low
    · exact gated.low x before

theorem keeps_invalidateNew (full : Full g strict a f taken) (request : InvalidationRequest)
    (unseen : ∀ x ∈ a.operations, x.operationId ≠ request.operationId) (calm : strict → ∀ n, (env n).beforeAck = false) :
    Keeps g strict a f taken env (invalidateNew g request) := by
  refine Tx.triple_bind (triple_update { a with state := .closed } fun _ => rfl) fun _ => ?_
  refine Tx.triple_bind triple_self fun b => Tx.triple_fact ?_
  rintro ⟨wall, rfl⟩
  split
  · exact Tx.triple_bind (Q := fun _ => Inv g strict env) (keeps_recover full.shut) fun _ => Tx.triple_raise fun _ inv => inv
  have base : Base g { a with state := .closed, generation := a.generation + 1 } f taken :=
    { full.shut.base with
      journal := full.base.journal.mono fun _ holds =>
        holds.mono (fun _ closed => closed) (fun _ _ clean => clean) (fun _ mem => mem) (Nat.le_succ _)
      positive := Nat.le_succ_of_le full.base.positive }
  have gated : Gated g strict { a with state := .closed, generation := a.generation + 1 } :=
    { full.shut.gated with low := fun x mem => Nat.le_succ_of_le (full.gated.low x mem) }
  refine Tx.triple_bind (triple_update { a with state := .closed, generation := a.generation + 1 } fun _ => rfl) fun _ => ?_
  dsimp only
  generalize made : (⟨request.operationId, request.operationDigest, g.deployment, a.epoch, a.generation + 1, a.rows.length + 1,
    .pending, g.journal.head a.rows⟩ : InvalidationAck) = ack
  have operation : ack.operationId = request.operationId := by rw [← made]
  have generation : ack.acceptanceGeneration = a.generation + 1 := by rw [← made]
  have next := base.journaled.snoc (d := .ack ack) rfl rfl (Nat.le_of_eq generation) fun before said p x permit same _ => by
    subst permit
    cases same
    rw [generation]
    exact Nat.lt_succ_of_le (full.base.journaled.generation _ said)
  refine Tx.triple_bind (append_spec base next (fun w level why => ?_) gated.recovered) fun row => ?_
  · refine gated.ack level ack (fun x mem same => absurd (same.trans operation) (unseen x mem))
      (Scheme.Kept.map_next a.rows _) w fun strictly => ?_
    rcases why with behind | ⟨n, lost⟩
    · exact .inr behind
    · rw [calm strictly n] at lost
      cases lost
  rintro s ⟨a', f', here, acknowledged⟩
  have issued : Issued { a with state := .closed, generation := a.generation + 1 } taken :=
    ⟨fun open_ => (by cases open_), fun open_ => (by cases open_)⟩
  have full' : Full g strict { a' with operations := assign InvalidationAck.operationId a'.operations ack } f' taken :=
    ⟨{ acknowledged.base with }, { acknowledged.issued issued with },
      gated.acknowledged acknowledged (Nat.le_of_eq generation) fun _ open_ => by cases open_⟩
  exact keeps_settled full' (fun _ => rfl) _ s here

theorem keeps_invalidate (full : Full g strict a f taken) (ctx : InvalidationContext) (request : InvalidationRequest)
    (calm : strict → ∀ n, (env n).beforeAck = false) : Keeps g strict a f taken env (invalidate g ctx request) := by
  refine Tx.triple_bind (triple_check full.raised) fun _ => Tx.triple_fact fun _ => keeps_locked full ?_
  refine Tx.triple_bind (triple_now full.raised) fun time => ?_
  refine Tx.triple_bind (triple_check full.raised) fun _ => Tx.triple_fact fun _ => ?_
  refine Tx.triple_bind triple_self fun b => Tx.triple_fact ?_
  rintro ⟨wall, rfl⟩
  split
  · unfold invalidateAgain
    split
    · exact Tx.triple_bind (Q := fun _ => Inv g strict env) (keeps_recover full) fun _ => Tx.triple_raise fun _ inv => inv
    · exact Tx.triple_pure full.raised
  · next unseen => exact keeps_invalidateNew full request (unknown_of_none (a := a) unseen) calm

/-- What the journal says of an operation the authority has forgotten. -/
theorem Full.looked (full : Full g strict a f taken) {operationId : Id} {ack : InvalidationAck}
    (unseen : ∀ x ∈ a.operations, x.operationId ≠ operationId)
    (found : (a.rows.filterMap fun row => row.payload.ack?).reverse.find? (fun x => x.operationId = operationId) = some ack) :
    Full g strict { a with operations := assign InvalidationAck.operationId a.operations ack } f taken := by
  have same : ack.operationId = operationId := by simpa using List.find?_some found
  have acks : (documents a).filterMap Document.ack? = a.rows.filterMap fun row => row.payload.ack? := by
    rw [documents, List.filterMap_map]
    rfl
  have said : .ack ack ∈ documents a := by
    have mem := List.mem_reverse.1 (List.mem_of_find?_eq_some found)
    rw [← acks] at mem
    obtain ⟨d, there, is⟩ := List.mem_filterMap.1 mem
    cases d <;> cases is
    exact there
  have latest_ : latest (documents a) ack.operationId = some ack := by
    rw [latest, acks, same]
    exact found
  refine ⟨{ full.base with }, { full.issued with }, ⟨fun open_ => ⟨(full.gated.opened open_).1, fun strictly => ?_⟩,
    fun strictly => (full.gated.known strictly).imp_left fun known x mem => ?_, single_assign full.gated.single,
    fun x mem final => ?_, fun x mem => ?_⟩⟩
  · -- an open gate has forgotten nothing
    rcases full.gated.known strictly with known | behind
    · obtain ⟨x, mem, it⟩ := known ack said
      exact absurd (it.trans same) (unseen x mem)
    · have behind : a.level g = false := behind
      rw [(full.gated.opened open_).1] at behind
      cases behind
  · obtain ⟨y, there, it⟩ := known x mem
    exact ⟨y, mem_assign_of_ne there fun other => unseen y there (other.trans same), it⟩
  · rcases mem_assign mem with rfl | ⟨before, -⟩
    · exact latest_
    · exact full.gated.latest x before final
  · rcases mem_assign mem with rfl | ⟨before, -⟩
    · exact full.base.journaled.generation _ said
    · exact full.gated.low x before

theorem keeps_lookup (full : Full g strict a f taken) (ctx : InvalidationContext) (operationId operationDigest : Id) :
    Keeps g strict a f taken env (lookup g ctx operationId operationDigest) := by
  refine keeps_locked full ?_
  refine Tx.triple_bind (triple_check full.raised) fun _ => Tx.triple_fact fun _ => ?_
  refine Tx.triple_bind (Q := fun _ s => ∃ b, Holds b f taken env s ∧ Full g strict b f taken) ?_ fun ack => ?_
  · refine Tx.triple_bind triple_self fun b => Tx.triple_fact ?_
    rintro ⟨wall, rfl⟩
    split
    · exact Tx.triple_pure fun s here => ⟨a, here, full⟩
    · next unseen =>
      refine Tx.triple_bind (triple_demand full.raised) fun ack => Tx.triple_fact fun found => ?_
      have looked := full.looked (unknown_of_none (a := a) unseen) found
      exact Tx.triple_bind (triple_update _ fun _ => rfl) fun _ => Tx.triple_pure fun s here => ⟨_, here, looked⟩
  · rintro s ⟨b, here, full'⟩
    exact Tx.triple_bind (R := fun _ => Inv g strict env) (triple_check full'.raised)
      (fun _ => Tx.triple_pure fun _ there => there.1.inv full') s here

theorem keeps_resolveFirst (full : Full g strict a f taken) {old : InvalidationAck} (mem : old ∈ a.operations)
    (unresolved : old.disposition.final = false) {outcome : Disposition} (decided : outcome ≠ .pending) :
    Keeps g strict a f taken env (resolveFirst g old outcome) := by
  have next := full.base.journaled.snoc (d := .ack { old with disposition := outcome }) rfl rfl (full.gated.low old mem)
    fun before _ p x _ same pending => by
      cases same
      exact absurd pending decided
  have lone (x : InvalidationAck) (there : x ∈ a.operations) (same : x.operationId = old.operationId) :
      x.disposition.final = false := by rw [full.gated.single x there old mem same, unresolved]
  refine Tx.triple_bind (append_spec full.base next (fun w level _ => full.gated.ack level { old with disposition := outcome }
    lone (Scheme.Kept.map_next a.rows _) w fun _ => .inl ⟨old, mem, rfl⟩) full.gated.recovered) fun row => ?_
  rintro s ⟨a', f', here, acknowledged⟩
  have full' : Full g strict { a' with
      operations := assign InvalidationAck.operationId a'.operations { old with disposition := outcome } } f' taken := by
    refine ⟨{ acknowledged.base with }, { acknowledged.issued full.issued with },
      full.gated.acknowledged acknowledged (full.gated.low old mem) fun strictly open_ => ?_⟩
    rw [(full.gated.opened open_).2 strictly old mem] at unresolved
    cases unresolved
  exact keeps_settled full' (fun _ => rfl) _ s here

theorem keeps_resolve (full : Full g strict a f taken) (ctx : InvalidationContext) (resolution : InvalidationResolution)
    (verified : Disposition × Option Id) : Keeps g strict a f taken env (resolve g ctx resolution verified) := by
  refine keeps_locked full ?_
  refine Tx.triple_bind (triple_check full.raised) fun _ => Tx.triple_fact fun decided => ?_
  refine Tx.triple_bind triple_self fun b => Tx.triple_fact ?_
  rintro ⟨wall, rfl⟩
  refine Tx.triple_bind (triple_demand full.raised) fun old => Tx.triple_fact fun found => ?_
  refine Tx.triple_bind (triple_check full.raised) fun _ => Tx.triple_fact fun _ => ?_
  refine Tx.triple_bind (triple_check full.raised) fun _ => Tx.triple_fact fun _ => ?_
  refine Tx.triple_bind (triple_check full.raised) fun _ => Tx.triple_fact fun _ => ?_
  split
  · exact Tx.triple_bind (R := fun _ => Inv g strict env) (triple_check full.raised)
      fun _ => Tx.triple_pure fun _ here => here.1.inv full
  · next unresolved =>
    exact keeps_resolveFirst full (List.mem_of_find?_eq_some found) (Bool.eq_false_iff.2 unresolved) decided

theorem keeps_reopen (full : Full g strict a f taken) (ctx : InvalidationContext) (request : ReopenRequest)
    (evidence : ReopenEvidence) : Keeps g strict a f taken env (reopen g ctx request evidence) := by
  refine keeps_locked full ?_
  refine Tx.triple_bind triple_self fun b => Tx.triple_fact ?_
  rintro ⟨wall, rfl⟩
  refine Tx.triple_bind (triple_check full.raised) fun _ => Tx.triple_fact fun _ => ?_
  refine Tx.triple_bind (triple_check full.raised) fun _ => Tx.triple_fact fun _ => ?_
  refine Tx.triple_bind (triple_check full.raised) fun _ => Tx.triple_fact fun resolved => ?_
  refine Tx.triple_bind (triple_check full.raised) fun _ => Tx.triple_fact fun shut => ?_
  refine Tx.triple_bind (triple_refuse full.raised) fun _ => Tx.triple_fact fun _ => ?_
  refine Tx.triple_bind (triple_now full.raised) fun time => ?_
  refine Tx.triple_bind (triple_refuse full.raised) fun _ => Tx.triple_fact fun _ => ?_
  refine Tx.triple_bind (triple_check full.raised) fun _ => Tx.triple_fact fun _ => ?_
  dsimp only at resolved shut ⊢
  have next := full.base.journaled.snoc (d := .gate ⟨g.deployment, a.epoch, a.generation, a.rows.length + 1,
    g.journal.head a.rows⟩) rfl rfl (Nat.le_refl a.generation) fun before _ p x _ same => by cases same
  refine Tx.triple_bind (append_plain full.base full.gated rfl next) fun row => ?_
  rintro s ⟨a', f', here, acknowledged⟩
  have full' := acknowledged.full full rfl
  have calls : a'.calls = a.calls := by rw [acknowledged.same]
  have operations : a'.operations = a.operations := by rw [acknowledged.same]
  have closed {key : ReservationKey} (known : ∃ c ∈ a'.calls, c.key = key) : Closed a'.calls key :=
    ⟨known, fun c mem _ => List.all_eq_true.1 shut c (calls ▸ mem)⟩
  have opened : Full g strict { a' with state := .opened } f' taken := by
    refine ⟨{ full'.base with }, ⟨fun _ p mem live open_ => ?_, fun _ t mem open_ => ?_⟩,
      { full'.gated with opened := fun _ => ⟨acknowledged.level, fun _ x mem => ?_⟩ }⟩
    · exact absurd (closed (full'.base.live p mem live).1.known) open_
    · exact absurd (closed (full'.base.spent t mem).2.2) open_
    · exact List.all_eq_true.1 resolved x (operations ▸ mem)
  exact keeps_settled opened (fun _ => rfl) _ s here

end Operations

end ApiSecurityPlatform.Authority.Endpoint
