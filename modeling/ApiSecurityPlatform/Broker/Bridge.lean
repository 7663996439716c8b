/-
# Broker.Bridge -- the controller's view of the broker

A controller reads the broker's events page by page (`refresh`), while other operations go on
between the pages, and keeps the last view it could put together, the observations in it and a
floor of what its call owes.  A client is pinned to the broker process it was made for.
-/
import ApiSecurityPlatform.Broker.Sends
import ApiSecurityPlatform.Accounting.Ledger

namespace ApiSecurityPlatform.Broker

open ApiSecurityPlatform.Theory
open ApiSecurityPlatform.Accounting (Id PortCode ReservationKey Observation)
open ApiSecurityPlatform.Authority

set_option autoImplicit false
set_option linter.dupNamespace false

/-- `BrokerClient`. -/
structure Client (D : Type) where
  /-- `inode` and `pid`. -/
  process : Nat
  available : Bool
  view : Option (View D)
  retained : Liability
  calls : Option (ReservationKey × Bool)
  coreEvidence : Option Binding
  observations : List Observation
  /-- The `view` of a `refresh` that has calls left. -/
  pending : Option (View D)

/-- `__init__`. -/
def Client.start {D : Type} (process : Nat) : Client D := ⟨process, false, none, .nothing, none, none, [], none⟩

section Client

variable {D : Type} [DecidableEq D] (g : Setting D)

/-- The chain of the events, and the acknowledgements of the first of them. -/
def checkChain (previous : D) : Nat → List (Event D Data) → List (Ack D) → Bool
  | _, [], _ => true
  | index, value :: rest, acks =>
      validateEvent g.p value && decide (value.sequence = index + 1) && decide (value.previous = previous) &&
        (match acks.head? with
          | none => true
          | some ack => decide (ack = { acknowledgement g.p value with witness := ack.witness })) &&
        checkChain value.digest (index + 1) rest acks.tail

/-- `self.observations[event.event_id] = event`. -/
def setItem (items : List Observation) (item : Observation) : List Observation :=
  if items.any fun o => o.eventId = item.eventId then
    items.map fun o => if o.eventId = item.eventId then item else o
  else items ++ [item]

/-- `data['terminal'] if kind == 'FINAL_USAGE' else 'NONE'`. -/
def terminalOf (value : Event D Data) : Option Accounting.Terminal :=
  if value.kind = .finalUsage then value.data.body.evidence?.map Evidence.terminal else some .none

/-- The usage of a final event, and `Usage()` of any other. -/
def usageOf (value : Event D Data) : Option Accounting.UsageView :=
  if value.kind = .finalUsage then value.data.body.usage? else some .unknown

/-- The observation of one event. -/
def observation (view : View D) (key : ReservationKey) (bound : Binding) (permit : Option SendPermit)
    (value : Event D Data) : Option Observation := do
  let epoch := view.events.head?.bind fun v => v.data.body.epoch?
  let observerEpoch ← (permit.map SendPermit.observerEpoch).or epoch
  let authorityEpoch ← (permit.map SendPermit.authorityEpoch).or epoch
  let terminal ← terminalOf value
  let usage ← usageOf value
  return ⟨key, key.callRef, g.eventRef value.stream value.eventId, observerEpoch, authorityEpoch,
    (permit.map SendPermit.acceptanceGeneration).getD 1, value.sequence, bound.run.context.ownerGeneration,
    if value.kind = .finalUsage then .finalUsage else .streamClosed, permit.map SendPermit.permitId, bound.core.bodyDigest,
    value.data.observedAt, terminal, usage, g.digestRef value.digest⟩

/-- One turn of the loop over the events. -/
def observe (view : View D) (key : ReservationKey) (bound : Binding) (permit : Option SendPermit)
    (value : Event D Data) : Tx PortCode (Client D) Unit :=
  if value.kind ≠ .finalUsage ∧ value.kind ≠ .closed then pure ()
  else if value.sequence > view.acks.length then pure ()
  else do
    let item ← demand (observation g view key bound permit value) .invalidRecord
    Tx.modify fun c => { c with observations := setItem c.observations item }

omit [DecidableEq D] in
/-- The permit on record, where there is one. -/
def permitOf (view : View D) : Tx PortCode (Client D) (Option SendPermit) :=
  match view.events.find? fun v => v.kind = .permit with
  | none => pure none
  | some row => do
      let permit ← demand row.data.body.permit? .invalidRecord
      pure (some permit)

/-- `refresh`, once the last page is there. -/
def conclude (view : View D) : Tx PortCode (Client D) Unit := do
  Tx.refuse (¬ (view.next = view.total ∧ view.total = view.events.length)) .observerUnavailable
  Tx.refuse (¬ (view.events.length ≤ 256 ∧ view.acks.length ≤ view.events.length)) .invalidRecord
  Tx.refuse (checkChain g g.p.zero 0 view.events view.acks = false) .observerUnavailable
  Tx.refuse (view.complete = true ∧ view.acks.length ≠ view.events.length) .observerUnavailable
  let low ← demand (g.p.liability view.events) .observerUnavailable
  let reported ← demand (amount view.liability.keyDigest view.liability.owed) .observerUnavailable
  let retained ← demand (merge low reported) .observerUnavailable
  let c ← Tx.get
  let retained ← demand (merge c.retained retained) .observerUnavailable
  Tx.modify fun c => { c with
    retained, view := some { view with liability := retained }, calls := none, coreEvidence := none, observations := [] }
  match view.events.find? fun v => v.kind = .binding with
  | none => Tx.modify fun c => { c with available := true }
  | some row => do
      let bound ← demand row.data.body.binding? .invalidRecord
      let permit ← permitOf view
      Tx.modify fun c => { c with coreEvidence := some bound, calls := some (bound.key, view.closed) }
      view.events.forM (observe g view bound.key bound permit)
      Tx.modify fun c => { c with available := true }

omit [DecidableEq D] in
/-- The first page, or none. -/
def Client.first (c : Client D) (reply : Option (View D)) : Client D :=
  { c with
    available := false
    pending := reply.filter fun view => decide (view.offset = 0 ∧ view.total ≤ 256) }

/-- The fields that have to be the same on every page. -/
def View.Same (page view : View D) : Prop :=
  page.head = view.head ∧ page.total = view.total ∧ page.epoch = view.epoch ∧ page.generation = view.generation ∧
    page.state = view.state ∧ page.closed = view.closed ∧ page.complete = view.complete ∧ page.liability = view.liability

instance (page view : View D) : Decidable (View.Same page view) := inferInstanceAs (Decidable (_ ∧ _))

/-- A later page, or none. -/
def Client.next (c : Client D) (view : View D) : Option (View D) → Client D
  | none => { c with available := false, pending := none }
  | some page =>
      if View.Same page view ∧ page.offset = view.next ∧ page.offset < page.next then
        { c with
          pending := some { view with
            events := view.events ++ page.events
            acks := view.acks ++ page.acks
            next := page.next } }
      else { c with pending := none }

/-- `coverage`. -/
def Client.coverage (c : Client D) : Bool :=
  c.available && (match c.view with
    | none => false
    | some view => view.complete)

/-- `proves_response`. -/
def Client.provesResponse (c : Client D) (key : ReservationKey) : Bool :=
  c.coverage && decide (c.calls.map Prod.fst = some key) && (match c.view with
    | none => false
    | some view => view.events.any fun v => v.kind = .peerResponse)

/-- `proves_final`. -/
def Client.provesFinal (c : Client D) (key : ReservationKey) (event : Observation) : Bool :=
  c.provesResponse key && decide (c.observations.find? (fun o => o.eventId = event.eventId) = some event) &&
    decide (event.kind = .finalUsage)

end Client

/-! ## The broker, its witness and a controller -/

section Sites

variable {D : Type}

structure Site (D : Type) where
  world : World D
  /-- How many brokers have been started. -/
  process : Nat
  client : Client D

/-- What becomes of a call. -/
inductive Ipc where
  | unsent
  | unanswered
  | answered
deriving DecidableEq

inductive Turn (D : Type) where
  | world (step : Step D)
  /-- A client for the broker that runs. -/
  | attach
  | refresh (ipc : Ipc) (world : Nat → Env)
  | page (ipc : Ipc) (world : Nat → Env)
  | conclude
  /-- `suspend`, and any other call that fails. -/
  | suspend

variable [DecidableEq D] (g : Setting D)

/-- `call('snapshot', ...)`. -/
def Site.call (s : Site D) (ask : Option (Nat × D)) (ipc : Ipc) (world : Nat → Env) : World D × Option (View D) :=
  if ipc = .unsent ∨ s.client.process ≠ s.process then (s.world, none)
  else
    match s.world.step g (.run (.snapshot ask) world) with
    | none => (s.world, none)
    | some (v, shown) =>
        (v, match ipc, shown.reply with
          | .answered, some (.view view) => some view
          | _, _ => none)

def Site.step (s : Site D) : Turn D → Option (Site D)
  | .world (.replaceJ _) => none
  | .world (.startB launch) =>
      (s.world.step g (.startB launch)).map fun r => { s with world := r.1, process := s.process + 1 }
  | .world step => (s.world.step g step).map fun r => { s with world := r.1 }
  | .attach =>
      match s.world.j with
      | .down _ => none
      | .up _ => some { s with client := .start s.process }
  | .refresh ipc world =>
      let r := s.call g none ipc world
      some { s with world := r.1, client := s.client.first r.2 }
  | .page ipc world =>
      match s.client.pending with
      | none => none
      | some view =>
          if view.next < view.total then
            let r := s.call g (some (view.next, view.head)) ipc world
            some { s with world := r.1, client := s.client.next view r.2 }
          else none
  | .conclude =>
      match s.client.pending with
      | none => none
      | some view =>
          if view.next < view.total then none
          else some { s with client := (conclude g view { s.client with pending := none }).2 }
  | .suspend => some { s with client := { s.client with available := false } }

/-- J, as what runs of it or its file, and W. -/
def World.stores (v : World D) : Stores D Data Liability :=
  ⟨match v.j with
    | .down file => .down file
    | .up b => .up b.j, v.w⟩

/-- Two files that fit together, and a client that has seen nothing. -/
def Site.Init (s : Site D) : Prop :=
  World.Init s.world ∧ s.world.stores.Inv g.p ∧ s.process = 0 ∧ s.client = .start 0

def controllers : System (Site D) (Turn D) := System.ofStep (Site.Init g) (Site.step g)

end Sites

/-! ## J and W, as long as nobody else writes J -/

section Stores

variable {D : Type} [DecidableEq D] {g : Setting D} {v v' : World D}

theorem load_stores {launch : Launch} {file : File (JRow D Data)} {b : Broker D}
    (loaded : Broker.load g launch file = some b) : Observations.load g.p launch.stream file = some b.j := by
  obtain ⟨j, read, rest⟩ := Option.bind_eq_some_iff.1 loaded
  obtain ⟨b', restored, built⟩ := Option.bind_eq_some_iff.1 rest
  have same := (@System.Run.of_foldlM _ _ (fun _ => True) _ _ _ _ restored).preserves
    (I := fun b' : Broker D => b'.j = j) (fun b' event b'' here step => (restore_kept step).2.trans here) rfl
  obtain rfl := Option.some.inj built
  rw [read]
  exact congrArg some same.symm

/-- What one step does to J and W. -/
theorem World.Inv.stores {a : Step D} {shown : Shown D} (inv : v.Inv g) (stepped : v.step g a = some (v', shown))
    (ours : ∀ file, a ≠ .replaceJ file) (fits : v.stores.Inv g.p) :
    v'.stores.Inv g.p ∧ ∀ b b', v.j = .up b → v'.j = .up b' → b.j.Grew b'.j := by
  obtain ⟨j, w⟩ := v
  cases a with
  | startB launch =>
      simp only [World.step] at stepped
      split at stepped
      · cases stepped
      next file =>
      obtain ⟨b, loaded, same⟩ := Option.map_eq_some_iff.1 stepped
      obtain ⟨rfl, -⟩ := Prod.mk.inj same
      refine ⟨@Stores.Inv.step _ _ _ g.p launch.stream _ _ _ _ _ .startJ fits ?_, by rintro _ _ ⟨⟩⟩
      simp only [Stores.step, World.stores]
      rw [load_stores loaded]
      rfl
  | crashB =>
      simp only [World.step] at stepped
      split at stepped
      · cases stepped
      next b =>
      obtain ⟨rfl, -⟩ := Prod.mk.inj (Option.some.inj stepped)
      exact ⟨restart fits .crashJ rfl, by rintro _ _ _ ⟨⟩⟩
  | replaceJ file => exact absurd rfl (ours file)
  | startW =>
      simp only [World.step] at stepped
      split at stepped
      · cases stepped
      next file =>
      obtain ⟨x, loaded, same⟩ := Option.map_eq_some_iff.1 stepped
      obtain ⟨rfl, -⟩ := Prod.mk.inj same
      refine ⟨restart fits .startW ?_, fun b b' up up' => ?_⟩
      · simp only [Stores.step, World.stores]
        rw [loaded]
        rfl
      · obtain rfl := Process.up.inj (up.symm.trans up')
        exact .same rfl rfl
  | crashW =>
      simp only [World.step] at stepped
      split at stepped
      · cases stepped
      next x =>
      obtain ⟨rfl, -⟩ := Prod.mk.inj (Option.some.inj stepped)
      refine ⟨restart fits .crashW rfl, fun b b' up up' => ?_⟩
      obtain rfl := Process.up.inj (up.symm.trans up')
      exact .same rfl rfl
  | run operation world =>
      simp only [World.step] at stepped
      split at stepped
      · cases stepped
      next b =>
      obtain ⟨rfl, -⟩ := Prod.mk.inj (Option.some.inj stepped)
      have ended := operate_outcome (s := ⟨b, w, [], world, 0⟩) (inv.2 b rfl) operation _ rfl
      generalize operate g operation ⟨b, w, [], world, 0⟩ = result at ended ⊢
      have either : Either g ⟨b, w, [], world, 0⟩ result.2.broker result.2.w result.2.sent := by
        obtain ⟨code | reply, t⟩ := result
        · exact ended
        · exact ended.1
      refine ⟨?_, ?_⟩
      · rcases either with ⟨-, moved⟩ | wrote
        · exact moved.inv fits
        · exact wrote.inv fits
      · rintro _ _ ⟨⟩ ⟨⟩
        rcases either with ⟨-, moved⟩ | wrote
        · exact moved.grew
        · exact wrote.grew

/-- A reply to `snapshot` is a page of the broker, as it is after the call. -/
theorem snapshot_page {ask : Option (Nat × D)} {world : Nat → Env} {shown : Shown D} {view : View D} (inv : v.Inv g)
    (stepped : v.step g (.run (.snapshot ask) world) = some (v', shown)) (replied : shown.reply = some (.view view)) :
    ∃ b, v'.j = .up b ∧ PageOf g ask b view := by
  obtain ⟨j, w⟩ := v
  simp only [World.step] at stepped
  split at stepped
  · cases stepped
  next b =>
  obtain ⟨rfl, rfl⟩ := Prod.mk.inj (Option.some.inj stepped)
  refine ⟨_, rfl, ?_⟩
  have page := keeps_snapshot g ⟨b, w, [], world, 0⟩ b ask ⟨b, w, [], world, 0⟩ ⟨.self (inv.2 b rfl), rfl⟩
  simp only [operate, Tx.bind_apply] at replied ⊢
  generalize snapshot g ask ⟨b, w, [], world, 0⟩ = result at page replied ⊢
  obtain ⟨code | v, t⟩ := result
  · cases replied
  · cases replied
    exact page.2

end Stores

/-! ## What a final usage rests on -/

section Finals

variable {D : Type} [DecidableEq D] {p : Protocol D Data Unit} {fingerprint : Accounting.BindingCore → Id}
  {events : List (Event D Data)} {l : Liability} {e : Event D Data}

/-- A final usage in a stream that is read, and the four events it rests on. -/
structure Final (events : List (Event D Data)) (l : Liability) (e : Event D Data) (bound : Binding) (permit : SendPermit)
    (evidence : Evidence) (usage : Accounting.UsageView) : Prop where
  inOrder : ∃ e₁ e₂ e₃ e₄, List.Sublist [e₁, e₂, e₃, e₄, e] events ∧ Says .binding Body.binding? e₁ bound ∧
    Says .permit Body.permit? e₂ permit ∧ Says .intent Body.permit? e₃ permit ∧
    Says .peerResponse Body.evidence? e₄ evidence
  reported : Says .finalUsage Body.usage? e usage ∧ e.data.body.evidence? = some evidence
  permitted : permit.key = bound.key ∧ permit.bodyDigest = bound.core.bodyDigest
  answers : Answers bound permit evidence
  paid : ∃ value, Accounting.actual usage = .ok value ∧ l.keyDigest = some bound.key ∧ ∀ d, value d ≤ l.owed d

theorem liability_prefix {more : List (Event D Data)} (owed : liability p fingerprint (events ++ more) = some l) :
    ∃ low, liability p fingerprint events = some low ∧ liabilities.Below low l := by
  obtain ⟨t, read, rfl⟩ := readEvents_of_liability owed
  obtain ⟨s, read', below⟩ := readEvents_append read
  exact ⟨s.result, by rw [liability, read']; rfl, below⟩

theorem final_rests (owed : liability p fingerprint events = some l) (mem : e ∈ events) (kind : e.kind = .finalUsage) :
    ∃ bound permit evidence usage, Final events l e bound permit evidence usage := by
  obtain ⟨s, read, rfl⟩ := readEvents_of_liability owed
  have rests := readEvents_iff.1 ⟨s, read⟩
  obtain ⟨before, after, rfl⟩ := List.append_of_mem mem
  obtain ⟨-, reports⟩ := rests before e after rfl
  simp only [Preceded, kind] at reports
  obtain ⟨evidence, usage, value, reads, used, paid, ⟨e₄, mem₄, said₄⟩, -⟩ := reports
  obtain ⟨front, middle, rfl⟩ := List.append_of_mem mem₄
  obtain ⟨-, responds⟩ := rests front e₄ (middle ++ e :: after) (by simp)
  simp only [Preceded, said₄.1] at responds
  obtain ⟨evidence', reads', ⟨bound, permit, ⟨e₀, mem₀, said₀⟩, ⟨e₃, mem₃, said₃⟩, answers⟩, -⟩ := responds
  obtain rfl := Option.some.inj (reads'.symm.trans said₄.2)
  have whole : front ++ e₄ :: middle ++ e :: after = front ++ (e₄ :: middle ++ e :: after) := List.append_assoc _ _ _
  obtain ⟨low, owed', -⟩ := liability_prefix (whole ▸ owed)
  obtain ⟨e₁, e₂, bound', order, said₁, said₂, key, digest, -⟩ := intent_rests owed' mem₃ said₃
  -- there is one binding
  have known := (readEvents_reads read).known
  have front_mem {x : Event D Data} (here : x ∈ front) : x ∈ front ++ e₄ :: middle ++ e :: after := by simp [here]
  have set := known.binding.eq_some_iff.2 ⟨e₀, front_mem mem₀, said₀⟩
  have mem₁ : e₁ ∈ front := order.subset List.mem_cons_self
  obtain rfl := Option.some.inj (set.symm.trans (known.binding.eq_some_iff.2 ⟨e₁, front_mem mem₁, said₁⟩))
  refine ⟨bound, permit, evidence', usage, ⟨e₁, e₂, e₃, e₄, ?_, said₁, said₂, said₃, said₄⟩, ⟨⟨kind, used⟩, reads⟩,
    ⟨key, digest⟩, answers, value, paid, (known.owes.reserved set).1, fun d => ?_⟩
  · have last : List.Sublist [e] (middle ++ e :: after) :=
      (List.singleton_sublist.2 List.mem_cons_self).trans (List.sublist_append_right middle _)
    rw [whole]
    exact order.append (.cons_cons e₄ last)
  · have owes := known.owes
    simp only [Owes, set, known.final.eq_some_iff.2 ⟨e, mem, kind, used⟩] at owes
    obtain ⟨-, value', paid', most⟩ := owes
    obtain rfl := Except.ok.inj (paid'.symm.trans paid)
    rw [most d]
    exact Int.le_max_right _ _

end Finals

/-! ## A view, put together -/

section Views

variable {D : Type} [DecidableEq D] {g : Setting D} {c : Client D} {view : View D}
  {w w' : Process (File (WRow D Data)) (Witness D Data)}

/-- The observation is of an acknowledged event. -/
def Observed (g : Setting D) (view : View D) (o : Observation) : Prop := ∃ row bound permit value,
  view.events.find? (fun v => v.kind = .binding) = some row ∧ row.data.body.binding? = some bound ∧
    value ∈ view.events.take view.acks.length ∧ observation g view bound.key bound permit value = some o

/-- What a client holds is on W's file, and under its floor. -/
structure Seen (g : Setting D) (c : Client D) (w : Process (File (WRow D Data)) (Witness D Data)) : Prop where
  view : ∀ v, c.view = some v → v.events.take v.acks.length <+: logged w ∧
    (v.complete = true → v.acks.length = v.events.length) ∧
    ∃ low, g.p.liability v.events = some low ∧ liabilities.Below low c.retained
  calls : ∀ key closed, c.calls = some (key, closed) → ∃ v row bound, c.view = some v ∧
    v.events.find? (fun v => v.kind = .binding) = some row ∧ row.data.body.binding? = some bound ∧ key = bound.key
  observed : ∀ o ∈ c.observations, ∃ v, c.view = some v ∧ Observed g v o

theorem Seen.mono (seen : Seen g c w) (grows : logged w <+: logged w') : Seen g c w' where
  view v held := ⟨(seen.view v held).1.trans grows, (seen.view v held).2⟩
  calls := seen.calls
  observed := seen.observed

theorem seen_start (process : Nat) : Seen g (.start process) w where
  view v held := by cases held
  calls key closed held := by cases held
  observed o mem := absurd mem List.not_mem_nil

/-- The parts of a client that tell nothing. -/
theorem Seen.of_same (seen : Seen g c w) {c' : Client D} (view : c'.view = c.view) (retained : c'.retained = c.retained)
    (calls : c'.calls = c.calls) (observations : c'.observations = c.observations) : Seen g c' w where
  view v held := by
    rw [retained]
    exact seen.view v (view ▸ held)
  calls key closed held := by
    rw [view]
    exact seen.calls key closed (calls ▸ held)
  observed o mem := by
    rw [view]
    exact seen.observed o (observations ▸ mem)

theorem mem_setItem {items : List Observation} {item o : Observation} (mem : o ∈ setItem items item) :
    o = item ∨ o ∈ items := by
  unfold setItem at mem
  split at mem
  · obtain ⟨x, here, same⟩ := List.mem_map.1 mem
    split at same
    · exact .inl same.symm
    · exact .inr (same ▸ here)
  · exact (List.mem_append.1 mem).symm.imp_left List.mem_singleton.1

/-- The events of a checked chain are numbered. -/
theorem checkChain_sequence {previous : D} {index : Nat} {events : List (Event D Data)} {acks : List (Ack D)}
    (checked : checkChain g previous index events acks = true) {i : Nat} {value : Event D Data}
    (found : events[i]? = some value) : value.sequence = index + i + 1 := by
  induction events generalizing previous index acks i with
  | nil => cases found
  | cons first rest ih =>
      simp only [checkChain, Bool.and_eq_true, decide_eq_true_eq] at checked
      cases i with
      | zero =>
          cases found
          exact checked.1.1.1.2
      | succ i =>
          rw [ih checked.2 found]
          omega

omit [DecidableEq D] in
theorem triple_demand {σ α : Type} {P E : σ → Prop} {value : Option α} {code : PortCode} (raised : ∀ s, P s → E s) :
    Tx.Triple P (demand value code) (fun a s => P s ∧ value = some a) E := by
  cases value with
  | none => exact Tx.triple_raise raised
  | some a => exact Tx.triple_pure fun s here => ⟨here, rfl⟩

theorem mem_take_of_sequence {events : List (Event D Data)} {acks : List (Ack D)} {value : Event D Data}
    (checked : checkChain g g.p.zero 0 events acks = true) (mem : value ∈ events) (early : value.sequence ≤ acks.length) :
    value ∈ events.take acks.length := by
  obtain ⟨i, found⟩ := List.getElem?_of_mem mem
  have numbered := checkChain_sequence checked found
  refine List.mem_of_getElem? (i := i) ?_
  rw [List.getElem?_take_of_lt (by omega), found]

/-- What `conclude` leaves, whether it returns or raises. -/
structure Concluded (g : Setting D) (c : Client D) (view : View D) (w : Process (File (WRow D Data)) (Witness D Data))
    (c' : Client D) : Prop where
  seen : Seen g c' w
  floor : liabilities.Below c.retained c'.retained
  process : c'.process = c.process
  pending : c'.pending = c.pending
  origin : ∀ v, c'.view = some v →
    c.view = some v ∨ view.next = view.total ∧ v.events = view.events ∧ v.acks = view.acks

theorem conclude_seen (seen : Seen g c w)
    (ready : view.next = view.total → view.events.take view.acks.length <+: logged w) :
    Tx.Triple (fun s => s = c) (conclude g view) (fun _ => Concluded g c view w) (Concluded g c view w) := by
  have stays (s : Client D) (same : s = c) : Concluded g c view w s := by
    rw [same]
    exact ⟨seen, .refl _, rfl, rfl, fun v held => .inl held⟩
  have demands {α : Type} (value : Option α) (code : PortCode) : Tx.Triple (fun s => s = c) (demand value code)
      (fun a s => s = c ∧ value = some a) (Concluded g c view w) := triple_demand stays
  refine Tx.triple_bind (Tx.triple_refuse stays) fun _ => Tx.triple_fact fun whole => ?_
  refine Tx.triple_bind (Tx.triple_refuse stays) fun _ => Tx.triple_fact fun bounded => ?_
  refine Tx.triple_bind (Tx.triple_refuse stays) fun _ => Tx.triple_fact fun checked => ?_
  refine Tx.triple_bind (Tx.triple_refuse stays) fun _ => Tx.triple_fact fun complete => ?_
  refine Tx.triple_bind (demands _ _) fun low => Tx.triple_fact fun owed => ?_
  refine Tx.triple_bind (demands _ _) fun reported => Tx.triple_fact fun _ => ?_
  refine Tx.triple_bind (demands _ _) fun offer => Tx.triple_fact fun merged => ?_
  refine Tx.triple_bind (Q := fun a s => s = c ∧ a = c) (Tx.triple_get fun s same => ⟨same, same⟩) fun c₀ =>
    Tx.triple_fact fun same => ?_
  subst same
  refine Tx.triple_bind (demands _ _) fun retained => Tx.triple_fact fun raised => ?_
  -- from here on the view is the new one
  obtain ⟨whole, total⟩ := not_not.1 whole
  have floor := PartialJoin.below_left (J := liabilities) raised
  have owed' : ∃ low, g.p.liability view.events = some low ∧ liabilities.Below low retained :=
    ⟨low, owed, (PartialJoin.below_left (J := liabilities) merged).trans (PartialJoin.below_right (J := liabilities) raised)⟩
  have acked : view.complete = true → view.acks.length = view.events.length := fun holds =>
    not_not.1 fun differ => complete ⟨holds, differ⟩
  have origin (v : View D) (held : some { view with liability := retained } = some v) :
      c₀.view = some v ∨ view.next = view.total ∧ v.events = view.events ∧ v.acks = view.acks := by
    obtain rfl := Option.some.inj held
    exact .inr ⟨whole, rfl, rfl⟩
  have first : Concluded g c₀ view w { c₀ with
      retained, view := some { view with liability := retained }, calls := none, coreEvidence := none, observations := [] } := by
    refine ⟨⟨fun v held => ?_, by rintro _ _ ⟨⟩, fun o mem => absurd mem List.not_mem_nil⟩, floor, rfl, rfl, origin⟩
    obtain rfl := Option.some.inj held
    exact ⟨ready whole, acked, owed'⟩
  refine Tx.triple_bind (Q := fun _ s => s = { c₀ with
    retained, view := some { view with liability := retained }, calls := none, coreEvidence := none, observations := [] })
    (Tx.triple_modify fun s same => by rw [same]) fun _ => ?_
  have available {s : Client D} (here : Concluded g c₀ view w s) : Concluded g c₀ view w { s with available := true } :=
    ⟨here.seen.of_same rfl rfl rfl rfl, here.floor, here.process, here.pending, here.origin⟩
  split
  · exact Tx.triple_modify fun s same => available (same ▸ first)
  next row found =>
  refine Tx.triple_bind (triple_demand fun s same => same ▸ first) fun bound => Tx.triple_fact fun read => ?_
  refine Tx.triple_bind (Q := fun _ s => s = { c₀ with
    retained, view := some { view with liability := retained }, calls := none, coreEvidence := none, observations := [] })
    ?_ fun permit => ?_
  · unfold permitOf
    split
    · exact Tx.triple_pure fun s same => same
    · refine Tx.triple_bind (triple_demand fun s same => same ▸ first) fun permit => Tx.triple_fact fun _ => ?_
      exact Tx.triple_pure fun s same => same
  have evident : Concluded g c₀ view w { c₀ with
      retained, view := some { view with liability := retained }, observations := []
      coreEvidence := some bound, calls := some (bound.key, view.closed) } := by
    refine ⟨⟨first.seen.view, ?_, fun o mem => absurd mem List.not_mem_nil⟩, floor, rfl, rfl, origin⟩
    rintro _ _ ⟨⟩
    exact ⟨_, row, bound, rfl, found, read, rfl⟩
  refine Tx.triple_bind (Q := fun _ s => Concluded g c₀ view w s ∧ s.view = some { view with liability := retained })
    (Tx.triple_modify fun s same => by rw [same]; exact ⟨evident, rfl⟩) fun _ => ?_
  refine Tx.triple_bind (Tx.triple_forM fun value mem => ?_) fun _ => Tx.triple_modify fun s here => available here.1
  -- one event: what is observed of it is acknowledged
  unfold observe
  split
  · exact Tx.triple_pure fun s here => here
  split
  · exact Tx.triple_pure fun s here => here
  next early =>
  refine Tx.triple_bind (triple_demand fun s here => here.1) fun item => Tx.triple_fact fun made => ?_
  refine Tx.triple_modify fun s here => ?_
  obtain ⟨concluded, held⟩ := here
  refine ⟨⟨⟨concluded.seen.view, concluded.seen.calls, fun o there => ?_⟩, concluded.floor, concluded.process,
    concluded.pending, concluded.origin⟩, held⟩
  rcases mem_setItem there with rfl | before
  · have chain : checkChain g g.p.zero 0 view.events view.acks = true := Bool.eq_true_of_not_eq_false checked
    exact ⟨_, held, row, bound, permit, value, found, read, mem_take_of_sequence chain mem (Nat.not_lt.1 early), made⟩
  · exact concluded.seen.observed o before

end Views

/-! ## Runs -/

section Runs

variable {D : Type} [DecidableEq D] {g : Setting D} {s t : Site D}

/-- A view that has calls left is of the broker it was begun with, as long as that has no new event. -/
structure Paged (s : Site D) (v : View D) : Prop where
  current : s.client.process = s.process → ∀ b, s.world.j = .up b → v.next ≤ v.total ∧ v.total ≤ b.j.events.length ∧
    (b.j.events.length = v.total → v.events = b.j.events.take v.next ∧ v.acks = b.j.acks.take v.next)
  ended : v.next = v.total → v.events.take v.acks.length <+: logged s.world.w

structure Site.Inv (g : Setting D) (s : Site D) : Prop where
  world : s.world.Inv g
  fits : s.world.stores.Inv g.p
  pinned : s.client.process ≤ s.process
  seen : Seen g s.client s.world.w
  pending : ∀ v, s.client.pending = some v → Paged s v

/-- The view is J, as it is now. -/
def Snap (s : Site D) (v : View D) : Prop := ∃ b, s.world.j = .up b ∧ v.events = b.j.events ∧ v.acks = b.j.acks

/-- The client has the whole of this view. -/
def Had (s : Site D) (v : View D) : Prop :=
  s.client.view = some v ∨ s.client.pending = some v ∧ v.next = v.total

/-- What one step does. -/
structure Site.Stepped (g : Setting D) (s t : Site D) : Prop where
  inv : t.Inv g
  origin : ∀ v, Had t v → Snap t v ∨ ∃ v', Had s v' ∧ v'.events = v.events ∧ v'.acks = v.acks

omit [DecidableEq D] in
/-- J and W after a step of theirs, with the client as it was. -/
theorem Paged.moved {v : View D} (paged : Paged s v) {world : World D} (grows : logged s.world.w <+: logged world.w)
    (grew : ∀ b', world.j = .up b' → ∃ b, s.world.j = .up b ∧ b.j.Grew b'.j) : Paged { s with world := world } v where
  current same b' up := by
    obtain ⟨b, before, events, acks⟩ := grew b' up
    obtain ⟨next, total, slice⟩ := paged.current same b before
    have most := events.length_le
    refine ⟨next, total.trans most, fun whole => ?_⟩
    have same_ : b'.j.events.length = b.j.events.length := by omega
    rw [acks same_, ← events.eq_of_length same_.symm]
    exact slice (by omega)
  ended last := (paged.ended last).trans grows

/-- The last page. -/
theorem Stores.Inv.acknowledged {b : Broker D} {w : Process (File (WRow D Data)) (Witness D Data)}
    (fits : Stores.Inv g.p ⟨.up b.j, w⟩) : b.j.events.take b.j.acks.length <+: logged w ∧
      b.j.acks.length ≤ b.j.events.length := by
  have aligned := fits.aligned (b.j.events, b.j.acks) (by simp [Stores.kept, Observations.kept]) _ (Stores.wFile_seen _)
  rw [wFile_logged] at aligned
  refine ⟨?_, aligned.acked.trans aligned.witnessed.length_le⟩
  exact List.prefix_of_prefix_length_le (List.take_prefix _ _) aligned.witnessed
    ((List.length_take_le _ _).trans aligned.acked)

/-- What a call leaves of J and W, and what its reply says. -/
structure Called (g : Setting D) (s : Site D) (ask : Option (Nat × D)) (r : World D × Option (View D)) : Prop where
  world : r.1.Inv g
  fits : r.1.stores.Inv g.p
  grows : logged s.world.w <+: logged r.1.w
  grew : ∀ b', r.1.j = .up b' → ∃ b, s.world.j = .up b ∧ b.j.Grew b'.j
  replied : ∀ view, r.2 = some view → s.client.process = s.process ∧ ∃ b', r.1.j = .up b' ∧ PageOf g ask b' view

theorem Site.Inv.call (inv : s.Inv g) (ask : Option (Nat × D)) (ipc : Ipc) (world : Nat → Env) :
    Called g s ask (s.call g ask ipc world) := by
  have silent : Called g s ask (s.world, none) :=
    ⟨inv.world, inv.fits, List.prefix_refl _, fun b' up => ⟨b', up, .same rfl rfl⟩, by rintro _ ⟨⟩⟩
  unfold Site.call
  split
  · exact silent
  next sent =>
  split
  · exact silent
  next v shown stepped =>
  obtain ⟨fits, grew⟩ := inv.world.stores stepped (by rintro _ ⟨⟩) inv.fits
  have moved := inv.world.step stepped
  refine ⟨moved.inv, fits, moved.grows, fun b' up => ?_, fun view replied => ?_⟩
  · cases before : s.world.j with
    | down file =>
        rw [World.step, before] at stepped
        cases stepped
    | up b => exact ⟨b, rfl, grew b b' before up⟩
  · push Not at sent
    refine ⟨sent.2, ?_⟩
    split at replied
    · next given =>
      cases replied
      exact snapshot_page inv.world stepped given
    · cases replied

/-- The whole of a view that fits J is J. -/
theorem PageOf.whole {b : Broker D} {v : View D} {w : Process (File (WRow D Data)) (Witness D Data)}
    (fits : Stores.Inv g.p ⟨.up b.j, w⟩) (ended : v.next = b.j.events.length) (events : v.events = b.j.events.take v.next)
    (acks : v.acks = b.j.acks.take v.next) : v.events = b.j.events ∧ v.acks = b.j.acks ∧
      v.events.take v.acks.length <+: logged w := by
  obtain ⟨acked, fewer⟩ := fits.acknowledged
  have events' : v.events = b.j.events := by rw [events, ended, List.take_length]
  have acks' : v.acks = b.j.acks := by rw [acks, ended, List.take_of_length_le fewer]
  refine ⟨events', acks', ?_⟩
  rw [events', acks']
  exact acked

theorem stores_up {world : World D} {b : Broker D} (up : world.j = .up b) (fits : world.stores.Inv g.p) :
    Stores.Inv g.p ⟨.up b.j, world.w⟩ := by
  rw [World.stores, up] at fits
  exact fits

omit [DecidableEq D] in
/-- A client whose view is as before. -/
theorem Had.of_view {v : View D} (had : Had t v) (view : t.client.view = s.client.view)
    (pending : t.client.pending = some v → v.next = v.total → Snap t v ∨ s.client.pending = some v) :
    Snap t v ∨ ∃ v', Had s v' ∧ v'.events = v.events ∧ v'.acks = v.acks := by
  rcases had with held | ⟨held, ended⟩
  · exact .inr ⟨v, .inl (view ▸ held), rfl, rfl⟩
  · exact (pending held ended).imp_right fun before => ⟨v, .inr ⟨before, ended⟩, rfl, rfl⟩

theorem Site.Inv.world_step {world : World D} {process : Nat} (inv : s.Inv g) (good : world.Inv g)
    (fits : world.stores.Inv g.p) (grows : logged s.world.w <+: logged world.w)
    (same : process = s.process ∧ (∀ b', world.j = .up b' → ∃ b, s.world.j = .up b ∧ b.j.Grew b'.j) ∨
      process = s.process + 1) : Site.Stepped g s { s with world := world, process := process } where
  inv := by
    refine ⟨good, fits, ?_, inv.seen.mono grows, fun v held => ?_⟩
    · have pinned := inv.pinned
      dsimp only
      omega
    · have paged := inv.pending v held
      rcases same with ⟨rfl, grew⟩ | rfl
      · exact paged.moved grows grew
      · have pinned := inv.pinned
        exact ⟨fun same => absurd (show s.client.process = s.process + 1 from same) (by omega),
          fun ended => (paged.ended ended).trans grows⟩
  origin v had := had.of_view rfl fun held _ => .inr held

/-- What a view that is put together holds of the broker. -/
structure Slice (world : World D) (v : View D) : Prop where
  broker : ∃ b, world.j = .up b ∧ v.total = b.j.events.length ∧ v.next ≤ v.total ∧ v.events = b.j.events.take v.next ∧
    v.acks = b.j.acks.take v.next

/-- A call of a refresh. -/
theorem Called.stepped {ask : Option (Nat × D)} {r : World D × Option (View D)} (called : Called g s ask r) (inv : s.Inv g)
    {c : Client D} (process : c.process = s.client.process) (view : c.view = s.client.view)
    (retained : c.retained = s.client.retained) (calls : c.calls = s.client.calls)
    (observations : c.observations = s.client.observations) (slice : ∀ v, c.pending = some v → Slice r.1 v) :
    Site.Stepped g s { s with world := r.1, client := c } where
  inv := by
    refine ⟨called.world, called.fits, process ▸ inv.pinned,
      (inv.seen.mono called.grows).of_same view retained calls observations, fun v held => ?_⟩
    obtain ⟨b, up, total, within, events, acks⟩ := (slice v held).broker
    refine ⟨fun _ b' up' => ?_, fun ended => ?_⟩
    · obtain rfl := Process.up.inj (up.symm.trans up')
      exact ⟨within, total.le, fun _ => ⟨events, acks⟩⟩
    · exact (PageOf.whole (stores_up up called.fits) (ended.trans total) events acks).2.2
  origin v had := by
    refine had.of_view view fun held ended => .inl ?_
    obtain ⟨b, up, total, -, events, acks⟩ := (slice v held).broker
    obtain ⟨events', acks', -⟩ := PageOf.whole (stores_up up called.fits) (ended.trans total) events acks
    exact ⟨b, up, events', acks'⟩

theorem Site.Inv.refresh (inv : s.Inv g) (ipc : Ipc) (world : Nat → Env) : Site.Stepped g s
    { s with world := (s.call g none ipc world).1, client := s.client.first (s.call g none ipc world).2 } := by
  have called := inv.call none ipc world
  generalize s.call g none ipc world = r at called ⊢
  refine called.stepped inv rfl rfl rfl rfl rfl fun v held => ⟨?_⟩
  obtain ⟨replied, started⟩ := Option.filter_eq_some_iff.1 held
  obtain ⟨-, b, up, page⟩ := called.replied v replied
  obtain ⟨n, next, events, acks⟩ := page.slice
  simp only [decide_eq_true_eq] at started
  rw [started.1, Nat.zero_add] at next
  rw [started.1, List.drop_zero, ← next] at events acks
  exact ⟨b, up, page.total, page.within, events, acks⟩

theorem Site.Inv.page {view : View D} (inv : s.Inv g) (pending : s.client.pending = some view) (ipc : Ipc)
    (world : Nat → Env) : Site.Stepped g s
      { s with
        world := (s.call g (some (view.next, view.head)) ipc world).1
        client := s.client.next view (s.call g (some (view.next, view.head)) ipc world).2 } := by
  have called := inv.call (some (view.next, view.head)) ipc world
  generalize s.call g (some (view.next, view.head)) ipc world = r at called ⊢
  have paged := inv.pending view pending
  cases replied : r.2 with
  | none => exact called.stepped inv rfl rfl rfl rfl rfl (by rintro v ⟨⟩)
  | some page =>
      unfold Client.next
      dsimp only
      split
      swap
      · exact called.stepped inv rfl rfl rfl rfl rfl (by rintro v ⟨⟩)
      next same =>
      obtain ⟨⟨-, total, -⟩, offset, -⟩ := same
      refine called.stepped inv rfl rfl rfl rfl rfl ?_
      rintro v ⟨⟩
      obtain ⟨pinned, b', up, ofPage⟩ := called.replied page replied
      obtain ⟨b, before, events, acks⟩ := called.grew b' up
      obtain ⟨n, next, events', acks'⟩ := ofPage.slice
      obtain ⟨-, most, slice⟩ := paged.current pinned b before
      -- the same total, so no event since the first page
      have length : b'.j.events.length = view.total := ofPage.total.symm.trans total
      have same : b'.j.events.length = b.j.events.length := by
        have fewer := events.length_le
        omega
      rw [events.eq_of_length same.symm, ← acks same] at slice
      obtain ⟨first, firstAcks⟩ := slice length
      refine ⟨b', up, length.symm, ofPage.within.trans total.le, ?_, ?_⟩
      · dsimp only
        rw [events', offset, first, next, offset, List.take_add]
      · dsimp only
        rw [acks', offset, firstAcks, next, offset, List.take_add]

/-- Only a start brings a broker up. -/
theorem step_up {v v' : World D} {a : Step D} {shown : Shown D} (stepped : v.step g a = some (v', shown))
    (other : ∀ launch, a ≠ .startB launch) {b' : Broker D} (up : v'.j = .up b') : ∃ b, v.j = .up b := by
  obtain ⟨j, w⟩ := v
  cases j with
  | up b => exact ⟨b, rfl⟩
  | down file =>
      cases a with
      | startB launch => exact absurd rfl (other launch)
      | crashB | run => cases stepped
      | replaceJ file =>
          cases stepped
          cases up
      | startW =>
          simp only [World.step] at stepped
          split at stepped
          · cases stepped
          obtain ⟨x, -, same⟩ := Option.map_eq_some_iff.1 stepped
          cases same
          cases up
      | crashW =>
          simp only [World.step] at stepped
          split at stepped
          · cases stepped
          cases stepped
          cases up

theorem Site.Inv.concluded {view : View D} (inv : s.Inv g) (pending : s.client.pending = some view) :
    Concluded g { s.client with pending := none } view s.world.w
      (conclude g view { s.client with pending := none }).2 := by
  have start : Seen g { s.client with pending := none } s.world.w := inv.seen.of_same rfl rfl rfl rfl
  have ended := conclude_seen start (inv.pending view pending).ended _ rfl
  generalize conclude g view { s.client with pending := none } = result at ended ⊢
  obtain ⟨code | _, c⟩ := result
  · exact ended
  · exact ended

/-- **Step.** -/
theorem Site.Inv.step {a : Turn D} (inv : s.Inv g) (stepped : s.step g a = some t) : Site.Stepped g s t := by
  cases a with
  | world step =>
      have plain (ours : ∀ file, step ≠ .replaceJ file) (other : ∀ launch, step ≠ .startB launch)
          (stepped : ((s.world.step g step).map fun r => { s with world := r.1 }) = some t) : Site.Stepped g s t := by
        obtain ⟨⟨world, shown⟩, moved, rfl⟩ := Option.map_eq_some_iff.1 stepped
        obtain ⟨fits, grew⟩ := inv.world.stores moved ours inv.fits
        have one := inv.world.step moved
        refine inv.world_step one.inv fits one.grows (.inl ⟨rfl, fun b' up => ?_⟩)
        obtain ⟨b, before⟩ := step_up moved other up
        exact ⟨b, before, grew b b' before up⟩
      cases step with
      | startB launch =>
          obtain ⟨⟨world, shown⟩, moved, rfl⟩ := Option.map_eq_some_iff.1 stepped
          have one := inv.world.step moved
          exact inv.world_step one.inv (inv.world.stores moved (by rintro _ ⟨⟩) inv.fits).1 one.grows (.inr rfl)
      | replaceJ file => cases stepped
      | crashB | startW | crashW | run => exact plain (by rintro _ ⟨⟩) (by rintro _ ⟨⟩) stepped
  | attach =>
      simp only [Site.step] at stepped
      split at stepped
      · cases stepped
      cases stepped
      refine ⟨⟨inv.world, inv.fits, Nat.le_refl _, seen_start _, by rintro v ⟨⟩⟩, fun v had => ?_⟩
      rcases had with held | ⟨held, -⟩
      · cases held
      · cases held
  | refresh ipc world =>
      cases stepped
      exact inv.refresh ipc world
  | page ipc world =>
      simp only [Site.step] at stepped
      split at stepped
      · cases stepped
      next view pending =>
      split at stepped
      · cases stepped
        exact inv.page pending ipc world
      · cases stepped
  | conclude =>
      simp only [Site.step] at stepped
      split at stepped
      · cases stepped
      next view pending =>
      split at stepped
      · cases stepped
      cases stepped
      have concluded := inv.concluded pending
      refine ⟨⟨inv.world, inv.fits, concluded.process.le.trans inv.pinned, concluded.seen, fun v held => ?_⟩, fun v had => ?_⟩
      · exact absurd (held.symm.trans concluded.pending) (Option.some_ne_none v)
      · rcases had with held | ⟨held, -⟩
        · rcases concluded.origin v held with before | ⟨whole, events, acks⟩
          · exact .inr ⟨v, .inl before, rfl, rfl⟩
          · exact .inr ⟨view, .inr ⟨pending, whole⟩, events.symm, acks.symm⟩
        · exact absurd (held.symm.trans concluded.pending) (Option.some_ne_none v)
  | suspend =>
      cases stepped
      exact ⟨⟨inv.world, inv.fits, inv.pinned, inv.seen.of_same rfl rfl rfl rfl, fun v held =>
        ⟨(inv.pending v held).current, (inv.pending v held).ended⟩⟩, fun v had => had.of_view rfl fun held _ => .inr held⟩

/-- The floor does not fall in a step of the same client. -/
theorem Site.Inv.floor {a : Turn D} (inv : s.Inv g) (stepped : s.step g a = some t) (same : a ≠ .attach) :
    liabilities.Below s.client.retained t.client.retained := by
  cases a with
  | world step =>
      cases step with
      | replaceJ file => cases stepped
      | startB | crashB | startW | crashW | run =>
          obtain ⟨r, -, rfl⟩ := Option.map_eq_some_iff.1 stepped
          exact .refl _
  | attach => exact absurd rfl same
  | refresh ipc world =>
      cases stepped
      exact .refl _
  | page ipc world =>
      simp only [Site.step] at stepped
      split at stepped
      · cases stepped
      next view pending =>
      split at stepped
      · cases stepped
        unfold Client.next
        split
        · exact .refl _
        · split
          · exact .refl _
          · exact .refl _
      · cases stepped
  | conclude =>
      simp only [Site.step] at stepped
      split at stepped
      · cases stepped
      next view pending =>
      split at stepped
      · cases stepped
      cases stepped
      exact (inv.concluded pending).floor
  | suspend =>
      cases stepped
      exact .refl _

/-! ## What a client holds -/

omit [DecidableEq D] in
theorem observation_final {view : View D} {key : ReservationKey} {bound : Binding} {permit : Option SendPermit}
    {value : Event D Data} {o : Observation} (made : observation g view key bound permit value = some o)
    (final : o.kind = .finalUsage) : value.kind = .finalUsage ∧ o.key = key ∧ value.data.body.usage? = some o.usage := by
  unfold observation at made
  obtain ⟨observer, -, made⟩ := Option.bind_eq_some_iff.1 made
  obtain ⟨authority, -, made⟩ := Option.bind_eq_some_iff.1 made
  obtain ⟨terminal, -, made⟩ := Option.bind_eq_some_iff.1 made
  obtain ⟨usage, used, made⟩ := Option.bind_eq_some_iff.1 made
  obtain rfl := Option.some.inj made
  dsimp only at final
  by_cases kind : value.kind = .finalUsage
  · rw [usageOf, if_pos kind] at used
    exact ⟨kind, rfl, used⟩
  · rw [if_neg kind] at final
    cases final

/-- A final observation is of a final usage on W's file, with all that it rests on before it. -/
theorem Seen.final {c : Client D} {w : Process (File (WRow D Data)) (Witness D Data)} (seen : Seen g c w) {o : Observation}
    (mem : o ∈ c.observations) (final : o.kind = .finalUsage) : ∃ e bound permit evidence,
      Final (logged w) c.retained e bound permit evidence o.usage ∧ o.key = bound.key ∧ ∃ v row, c.view = some v ∧
        v.events.find? (fun v => v.kind = .binding) = some row ∧ row.data.body.binding? = some bound := by
  obtain ⟨v, held, row, bound, permit, e, found, read, acked, made⟩ := seen.observed o mem
  obtain ⟨onFile, -, low, owed, below⟩ := seen.view v held
  obtain ⟨kind, key, used⟩ := observation_final made final
  have whole : v.events = v.events.take v.acks.length ++ v.events.drop v.acks.length := (List.take_append_drop _ _).symm
  have owed : liability g.base g.fingerprint (v.events.take v.acks.length ++ v.events.drop v.acks.length) = some low :=
    whole ▸ owed
  obtain ⟨l, owed', least⟩ := liability_prefix owed
  obtain ⟨bound', permit', evidence, usage, rests⟩ := final_rests owed' acked kind
  obtain rfl := Option.some.inj (rests.reported.1.2.symm.trans used)
  obtain ⟨e₁, e₂, e₃, e₄, order, said₁, said₂, said₃, said₄⟩ := rests.inOrder
  -- the first binding of the view is the binding of the chain
  obtain ⟨s, read', -⟩ := readEvents_of_liability owed
  have known := (readEvents_reads read').known
  rw [← whole] at known
  have first : Says .binding Body.binding? row bound := ⟨by simpa using List.find?_some found, read⟩
  have one := known.binding.eq_some_iff.2 ⟨row, List.mem_of_find?_eq_some found, first⟩
  have two := known.binding.eq_some_iff.2 ⟨e₁, List.take_subset _ _ (order.subset List.mem_cons_self), said₁⟩
  obtain rfl := Option.some.inj (one.symm.trans two)
  refine ⟨e, bound, permit', evidence, ⟨⟨e₁, e₂, e₃, e₄, order.trans onFile.sublist, said₁, said₂, said₃, said₄⟩,
    rests.reported, rests.permitted, rests.answers, ?_⟩, key, v, row, held, found, read⟩
  obtain ⟨value, paid, owner, most⟩ := rests.paid
  have floor : liabilities.Below l c.retained := least.trans below
  obtain ⟨agree, keys, owes⟩ := merge_eq_some.1 floor
  refine ⟨value, paid, ?_, fun d => (most d).trans ?_⟩
  · rw [keys, owner]
    rfl
  · rw [owes d]
    exact Int.le_max_left _ _

/-! ## Whole runs -/

variable {s₀ : Site D} {trace : List (Turn D)}

theorem Site.Init.inv (initial : Site.Init g s₀) : s₀.Inv g := by
  obtain ⟨files, fits, -, fresh⟩ := initial
  refine ⟨files.inv, fits, ?_, ?_, fun v held => ?_⟩
  · rw [fresh]
    exact Nat.zero_le _
  · rw [fresh]
    exact seen_start _
  · rw [fresh] at held
    cases held

theorem Site.Inv.run (inv : s₀.Inv g) (run : (controllers g).Run s₀ trace s) : s.Inv g :=
  run.preserves (fun s _ _ (inv : s.Inv g) stepped => (inv.step stepped).inv) inv

theorem run_inv (initial : Site.Init g s₀) (run : (controllers g).Run s₀ trace s) : s.Inv g := initial.inv.run run

/-- A view that a client has was J at one instant of the run. -/
theorem run_origin (initial : Site.Init g s₀) (run : (controllers g).Run s₀ trace s) (v : View D) (had : Had s v) :
    ∃ before t, before <+: trace ∧ (controllers g).Run s₀ before t ∧ Snap t v := by
  induction run generalizing v with
  | refl =>
      obtain ⟨-, -, -, fresh⟩ := initial
      unfold Had at had
      rw [fresh] at had
      rcases had with held | ⟨held, -⟩
      · cases held
      · cases held
  | @snoc t u trace a run last ih =>
      rcases ((run_inv initial run).step last).origin v had with now | ⟨v', before, events, acks⟩
      · exact ⟨_, u, List.prefix_refl _, run.snoc last, now⟩
      · obtain ⟨front, t', cut, earlier, b, up, events', acks'⟩ := ih v' before
        exact ⟨front, t', cut.trans (List.prefix_append _ _), earlier, b, up, events.symm.trans events', acks.symm.trans acks'⟩

theorem run_floor (inv : s₀.Inv g) (run : (controllers g).Run s₀ trace s) (same : ∀ a ∈ trace, a ≠ .attach) :
    liabilities.Below s₀.client.retained s.client.retained := by
  induction run with
  | refl => exact .refl _
  | snoc run last ih =>
      refine (ih fun a mem => same a (List.mem_append_left _ mem)).trans ((inv.run run).floor last (same _ ?_))
      exact List.mem_append_right _ List.mem_cons_self

/-- **What a controller holds.**  Operations of the broker go on between the pages of a refresh, calls
are lost, broker and witness crash and start again, and clients are made anew.  Still every view is
what J was at one instant; what a client takes for covered is on W's file, and it never forgets a floor;
a final observation is of a final usage on W's file behind the binding, the permit, the intent and the
response it rests on, and its amount is under the floor. -/
theorem controller_views (g : Setting D) {s₀ s : Site D} {trace : List (Turn D)} (initial : Site.Init g s₀)
    (run : (controllers g).Run s₀ trace s) :
    (∀ v, s.client.view = some v → ∃ before t b, before <+: trace ∧ (controllers g).Run s₀ before t ∧
      t.world.j = .up b ∧ v.events = b.j.events ∧ v.acks = b.j.acks) ∧
    (s.client.coverage = true → ∃ v low, s.client.view = some v ∧ v.events <+: logged s.world.w ∧
      g.p.liability v.events = some low ∧ liabilities.Below low s.client.retained) ∧
    (∀ key o, s.client.provesFinal key o = true → o.key = key ∧ ∃ e bound permit evidence, bound.key = key ∧
      Final (logged s.world.w) s.client.retained e bound permit evidence o.usage) ∧
    ∀ before after t, trace = before ++ after → (controllers g).Run s₀ before t → (controllers g).Run t after s →
      (∀ a ∈ after, a ≠ .attach) → liabilities.Below t.client.retained s.client.retained := by
  have inv := run_inv initial run
  have covered (held : s.client.coverage = true) : ∃ v, s.client.view = some v ∧ v.complete = true := by
    unfold Client.coverage at held
    obtain ⟨-, shown⟩ := Bool.and_eq_true_iff.1 held
    split at shown
    · cases shown
    next v view => exact ⟨v, view, shown⟩
  refine ⟨fun v held => ?_, fun held => ?_, fun key o proved => ?_, fun before after t _ first second same => ?_⟩
  · obtain ⟨before, t, cut, earlier, b, up, events, acks⟩ := run_origin initial run v (.inl held)
    exact ⟨before, t, b, cut, earlier, up, events, acks⟩
  · obtain ⟨v, view, complete⟩ := covered held
    obtain ⟨onFile, whole, low, owed, below⟩ := inv.seen.view v view
    rw [whole complete, List.take_length] at onFile
    exact ⟨v, low, view, onFile, owed, below⟩
  · unfold Client.provesFinal at proved
    simp only [Bool.and_eq_true, decide_eq_true_eq] at proved
    obtain ⟨⟨responded, found⟩, final⟩ := proved
    have mem := List.mem_of_find?_eq_some found
    obtain ⟨e, bound, permit, evidence, rests, owner, v, row, held, first, read⟩ := inv.seen.final mem final
    -- the key the client knows is the key of the same binding
    unfold Client.provesResponse at responded
    simp only [Bool.and_eq_true, decide_eq_true_eq] at responded
    obtain ⟨⟨key', closed⟩, called, rfl⟩ := Option.map_eq_some_iff.1 responded.1.2
    obtain ⟨v', row', bound', held', first', read', same⟩ := inv.seen.calls key' closed called
    obtain rfl := Option.some.inj (held.symm.trans held')
    obtain rfl := Option.some.inj (first.symm.trans first')
    obtain rfl := Option.some.inj (read.symm.trans read')
    exact ⟨owner.trans same.symm, e, bound, permit, evidence, same.symm, rests⟩
  · exact run_floor (run_inv initial first) second same

end Runs

/-! ## A call that is paid -/

/-- The call, answered and closed, and a refresh of two pages. -/
def sampleTurns : List (Turn Nat) :=
  let run : Authority.Run := ⟨Accounting.sampleRun 1, 0⟩
  [.world (.startB ⟨6, "j", 0, 0, 2, 3⟩), .world .startW, .attach] ++
    ([.bootstrap 6 true, .bind (Accounting.sampleKey 1) (Accounting.sampleCore 1) run sampleReceipt 0, .prepareStart 1,
      .prepareFinish, .ticket run sampleAdmission 1, .authorize ⟨run, sampleAdmission, sampleTicket, 4, 6⟩,
      .write samplePermit, .receiveStart,
      .receiveOutcome 200 .completed (Accounting.sampleUsage 100 Accounting.hundred_le_maxN) none 12, .receiveEnd].map
        fun operation => .world (.run operation calm)) ++
    [.refresh .answered calm, .page .answered calm, .conclude]

def sampleSite : Site Nat := ⟨⟨.down ⟨[], false⟩, .down ⟨[], false⟩⟩, 0, .start 0⟩

theorem sampleSite_init : Site.Init sampleSetting sampleSite := by
  have reached : (stores sampleSetting.p "j").Reachable sampleSite.world.stores := ⟨_, [], ⟨rfl, rfl⟩, .refl _⟩
  exact ⟨⟨_, _, rfl⟩, Stores.Inv.reachable reached, rfl, rfl⟩

/-- The final usage is observed, behind the events it rests on. -/
theorem controller_views_call : ∃ trace s o, (controllers sampleSetting).Run sampleSite trace s ∧
    s.client.provesFinal (Accounting.sampleKey 1) o = true ∧ o.key = Accounting.sampleKey 1 ∧
    (s.client.view.map fun v => v.events.length) = some 8 := by
  obtain ⟨s, run, shown⟩ := System.Run.exists_of_map (Site.Init sampleSetting) (Site.step sampleSetting) sampleSite sampleTurns
    (fun s => (s.client.observations.map fun o => (o.kind, s.client.provesFinal (Accounting.sampleKey 1) o),
      s.client.view.map fun v => v.events.length))
    ([(.finalUsage, true), (.streamClosed, false)], some 8) (by decide +kernel)
  obtain ⟨observed, viewed⟩ := Prod.mk.inj shown
  obtain ⟨o, rest, -, first, -⟩ := List.map_eq_cons_iff.1 observed
  have proved : s.client.provesFinal (Accounting.sampleKey 1) o = true := (Prod.mk.inj first).2
  exact ⟨_, s, o, run, proved, ((controller_views sampleSetting sampleSite_init run).2.2.1 _ o proved).1, viewed⟩

end ApiSecurityPlatform.Broker
