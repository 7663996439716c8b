/-
# Broker.Recovery -- a lower bound on what one call owes

`liability` reads the events of a stream in order and gives the least a call owes by them: the
reservation once it is bound, and at least the final usage once that is reported.

`liability_exact`: it is defined on exactly the streams whose every event has what it rests on
before it (`Preceded`), what it is there, and that it grows with the stream.

`merge` is a partial join (`liabilities`): a floor that merges whatever it is offered never falls.
-/
import ApiSecurityPlatform.Broker.Payload
import ApiSecurityPlatform.Theory.Opinion
import Mathlib.Data.List.Induction

namespace ApiSecurityPlatform.Broker

open ApiSecurityPlatform.Theory
open ApiSecurityPlatform.Accounting (Id Amount Dimension ReservationKey BindingCore UsageView maxN actual actual_bounds)
open ApiSecurityPlatform.Authority

set_option autoImplicit false

/-! ## Amounts -/

/-- What `amount` lets through. -/
@[ext]
structure Liability where
  keyDigest : Option ReservationKey
  owed : Amount
  ranges : ∀ d, 0 ≤ owed d ∧ owed d ≤ maxN
  unkeyed : keyDigest = none → ∀ d, owed d = 0

instance : DecidableEq Liability := fun a b =>
  decidable_of_iff (a.keyDigest = b.keyDigest ∧ a.owed = b.owed) Liability.ext_iff.symm

def amount (keyDigest : Option ReservationKey) (owed : Amount) : Option Liability :=
  if fits : (∀ d, 0 ≤ owed d ∧ owed d ≤ maxN) ∧ (keyDigest = none → ∀ d, owed d = 0) then
    some ⟨keyDigest, owed, fits.1, fits.2⟩
  else none

theorem zero_ranges (d : Dimension) : 0 ≤ (0 : Amount) d ∧ (0 : Amount) d ≤ maxN := by
  cases d <;> decide

/-- `amount()`. -/
def Liability.nothing : Liability := ⟨none, 0, zero_ranges, fun _ _ => rfl⟩

/-- The keys of two amounts that may be merged. -/
def Agree (left right : Option ReservationKey) : Prop := left = none ∨ right = none ∨ left = right

instance (left right : Option ReservationKey) : Decidable (Agree left right) :=
  inferInstanceAs (Decidable (_ ∨ _ ∨ _))

def merge (left right : Liability) : Option Liability :=
  if Agree left.keyDigest right.keyDigest then
    amount (left.keyDigest.or right.keyDigest) fun d => max (left.owed d) (right.owed d)
  else none

theorem amount_eq_some {keyDigest : Option ReservationKey} {owed : Amount} {l : Liability} :
    amount keyDigest owed = some l ↔ l.keyDigest = keyDigest ∧ l.owed = owed := by
  unfold amount
  constructor
  · intro made
    split at made
    · obtain rfl := Option.some.inj made
      exact ⟨rfl, rfl⟩
    · cases made
  · rintro ⟨rfl, rfl⟩
    rw [dif_pos ⟨l.ranges, l.unkeyed⟩]

theorem amount_of_ranges (key : ReservationKey) {owed : Amount} (ranges : ∀ d, 0 ≤ owed d ∧ owed d ≤ maxN) :
    amount (some key) owed = some ⟨some key, owed, ranges, fun none_ => absurd none_ (Option.some_ne_none key)⟩ :=
  amount_eq_some.2 ⟨rfl, rfl⟩

theorem merge_eq_some {left right l : Liability} : merge left right = some l ↔
    Agree left.keyDigest right.keyDigest ∧ l.keyDigest = left.keyDigest.or right.keyDigest ∧
      ∀ d, l.owed d = max (left.owed d) (right.owed d) := by
  unfold merge
  split
  next agree => rw [amount_eq_some, funext_iff, and_iff_right agree]
  next differ => simp [differ]

/-- Amounts whose keys agree are merged. -/
theorem merge_defined {left right : Liability} (agree : Agree left.keyDigest right.keyDigest) :
    ∃ l, merge left right = some l := by
  have ranges (d : Dimension) : 0 ≤ max (left.owed d) (right.owed d) ∧ max (left.owed d) (right.owed d) ≤ maxN :=
    ⟨(left.ranges d).1.trans (Int.le_max_left _ _), Int.max_le.2 ⟨(left.ranges d).2, (right.ranges d).2⟩⟩
  have unkeyed (none_ : left.keyDigest.or right.keyDigest = none) (d : Dimension) :
      max (left.owed d) (right.owed d) = 0 := by
    obtain ⟨first, second⟩ := Option.or_eq_none_iff.1 none_
    rw [left.unkeyed first d, right.unkeyed second d]
    rfl
  exact ⟨⟨_, _, ranges, unkeyed⟩, merge_eq_some.2 ⟨agree, rfl, fun _ => rfl⟩⟩

theorem Agree.or_comm {left right : Option ReservationKey} (agree : Agree left right) : left.or right = right.or left := by
  rcases agree with rfl | rfl | rfl
  · exact Option.or_none.symm
  · exact Option.or_none
  · rfl

theorem Agree.symm {left right : Option ReservationKey} (agree : Agree left right) : Agree right left := by
  rcases agree with none_ | none_ | same
  · exact .inr (.inl none_)
  · exact .inl none_
  · exact .inr (.inr same.symm)

/-- Three keys agree in whatever order they are compared. -/
theorem Agree.assoc {a b c : Option ReservationKey} :
    Agree a b ∧ Agree (a.or b) c ↔ Agree b c ∧ Agree a (b.or c) := by
  cases a with
  | none => simp [Agree]
  | some a =>
      cases b with
      | none => simp [Agree]
      | some b =>
          cases c with
          | none => simp [Agree]
          | some c =>
              simp only [Agree, reduceCtorEq, false_or, Option.some.injEq, Option.some_or]
              constructor
              · rintro ⟨rfl, same⟩
                exact ⟨same, rfl⟩
              · rintro ⟨rfl, rfl⟩
                exact ⟨rfl, rfl⟩

theorem merge_comm (left right : Liability) : merge left right = merge right left := by
  have flip {a b l : Liability} (merged : merge a b = some l) : merge b a = some l := by
    obtain ⟨agree, key, owed⟩ := merge_eq_some.1 merged
    exact merge_eq_some.2 ⟨agree.symm, key.trans agree.or_comm, fun d => (owed d).trans (Int.max_comm _ _)⟩
  ext l
  exact ⟨flip, flip⟩

theorem merge_self (l : Liability) : merge l l = some l :=
  merge_eq_some.2 ⟨.inr (.inr rfl), Option.or_self.symm, fun _ => (Int.max_self _).symm⟩

theorem nothing_merge (l : Liability) : merge .nothing l = some l :=
  merge_eq_some.2 ⟨.inl rfl, rfl, fun d => (Int.max_eq_right (l.ranges d).1).symm⟩

theorem merge_left_iff {a b c l : Liability} : ((merge a b).bind fun m => merge m c) = some l ↔
    (Agree a.keyDigest b.keyDigest ∧ Agree (a.keyDigest.or b.keyDigest) c.keyDigest) ∧
      l.keyDigest = (a.keyDigest.or b.keyDigest).or c.keyDigest ∧
      ∀ d, l.owed d = max (max (a.owed d) (b.owed d)) (c.owed d) := by
  rw [Option.bind_eq_some_iff]
  constructor
  · rintro ⟨m, first, second⟩
    obtain ⟨agree, key, owed⟩ := merge_eq_some.1 first
    obtain ⟨agree', key', owed'⟩ := merge_eq_some.1 second
    rw [key] at agree' key'
    exact ⟨⟨agree, agree'⟩, key', fun d => by rw [owed' d, owed d]⟩
  · rintro ⟨⟨agree, agree'⟩, key, owed⟩
    obtain ⟨m, first⟩ := merge_defined agree
    obtain ⟨-, key', owed'⟩ := merge_eq_some.1 first
    refine ⟨m, first, merge_eq_some.2 ⟨?_, ?_, fun d => ?_⟩⟩
    · rw [key']
      exact agree'
    · rw [key', key]
    · rw [owed' d, owed d]

theorem merge_assoc (a b c : Liability) :
    ((merge a b).bind fun m => merge m c) = (merge b c).bind fun m => merge a m := by
  ext l
  have swap : (fun m => merge a m) = fun m => merge m a := funext fun m => merge_comm a m
  rw [swap, merge_left_iff, merge_left_iff, Agree.assoc]
  constructor
  · rintro ⟨⟨first, second⟩, key, owed⟩
    refine ⟨⟨first, second.symm⟩, ?_, fun d => ?_⟩
    · rw [key, Option.or_assoc, second.or_comm]
    · rw [owed d, Int.max_assoc, Int.max_comm]
  · rintro ⟨⟨first, second⟩, key, owed⟩
    refine ⟨⟨first, second.symm⟩, ?_, fun d => ?_⟩
    · rw [key, second.or_comm, Option.or_assoc]
    · rw [owed d, Int.max_comm, Int.max_assoc]

/-- Dimension-wise maxima of amounts for the same call. -/
def liabilities : PartialJoin Liability where
  join := merge
  bottom := .nothing
  comm := merge_comm
  idem := merge_self
  bottom_join := nothing_merge
  assoc := merge_assoc

/-! ## Reading a stream -/

/-- What `liability` has read so far; `binding` is `key` and `core`. -/
structure Reading (D : Type) where
  result : Liability
  binding : Option Binding
  permit : Option SendPermit
  intent : Option SendPermit
  response : Option Evidence
  final : Option UsageView
  sequence : Nat
  previous : D
  stream : Option String

section Reading

variable {D L : Type} [DecidableEq D] (p : Protocol D Data L) (fingerprint : BindingCore → Id)

/-- The binding is of one call; rate card, mapping and currency have one value each. -/
def Coherent (b : Binding) : Prop :=
  b.key = b.reservation.key ∧ b.key.coreDigest = fingerprint b.core ∧ b.key.scope = b.core.scope ∧
    b.key.callRef = b.core.callRef ∧ b.core.reserved = b.reservation.reserved

instance (b : Binding) : Decidable (Coherent fingerprint b) := inferInstanceAs (Decidable (_ ∧ _ ∧ _ ∧ _ ∧ _))

/-- The response is to the permitted request. -/
def Answers (b : Binding) (permit : SendPermit) (evidence : Evidence) : Prop :=
  evidence.exchangeId = permit.permitId ∧ evidence.bodyDigest = b.core.bodyDigest ∧ isTerminal evidence.terminal = true

instance (b : Binding) (permit : SendPermit) (evidence : Evidence) : Decidable (Answers b permit evidence) :=
  inferInstanceAs (Decidable (_ ∧ _ ∧ _))

/-- `merge(result, amount(key.fingerprint(), *actual(usage)))`. -/
def charge (result : Liability) (key : ReservationKey) (usage : UsageView) : Option Liability :=
  match actual usage with
  | .error _ => none
  | .ok value => (amount (some key) value).bind (merge result)

namespace Reading

def start : Reading D := ⟨.nothing, none, none, none, none, none, 0, p.zero, none⟩

/-- The branch of one kind; `none` where it raises. -/
def read (s : Reading D) (body : Body) : Kind → Option (Reading D)
  | .binding =>
      match body.binding? with
      | none => none
      | some b =>
          if s.binding = none ∧ Coherent fingerprint b then
            (amount (some b.key) b.reservation.reserved).map fun result => { s with binding := some b, result }
          else none
  | .permit =>
      match s.binding, body.permit? with
      | some b, some permit =>
          if s.permit = none ∧ permit.key = b.key ∧ permit.bodyDigest = b.core.bodyDigest then
            some { s with permit := some permit }
          else none
      | _, _ => none
  | .intent =>
      match body.permit? with
      | none => none
      | some permit => if s.permit = some permit then some { s with intent := some permit } else none
  | .peerResponse =>
      match s.binding, s.permit, body.evidence? with
      | some b, some permit, some evidence =>
          if s.intent ≠ none ∧ Answers b permit evidence ∧ (s.response = none ∨ s.response = some evidence) then
            some { s with response := some evidence }
          else none
      | _, _, _ => none
  | .finalUsage =>
      match s.binding, s.permit, body.evidence?, body.usage? with
      | some b, some permit, some evidence, some usage =>
          if s.intent ≠ none ∧ Answers b permit evidence ∧ s.response = some evidence ∧ (s.final = none ∨ s.final = some usage) then
            (charge s.result b.key usage).map fun result => { s with final := some usage, result }
          else none
      | _, _, _, _ => none
  | _ => some s

/-- One turn of the loop. -/
def step (s : Reading D) (event : Event D Data) : Option (Reading D) :=
  if validateEvent p event = true ∧ event.sequence = s.sequence + 1 ∧ event.previous = s.previous ∧
      (s.stream = none ∨ s.stream = some event.stream) then
    { s with sequence := s.sequence + 1, previous := event.digest, stream := some event.stream }.read
      fingerprint event.data.body event.kind
  else none

end Reading

def readEvents (events : List (Event D Data)) : Option (Reading D) :=
  events.foldlM (Reading.step p fingerprint) (.start p)

/-- `liability`; `none` where it raises. -/
def liability (events : List (Event D Data)) : Option Liability := (readEvents p fingerprint events).map Reading.result

end Reading

/-! ## What an event rests on -/

section Rests

variable {D L : Type} (p : Protocol D Data L) (fingerprint : BindingCore → Id)

/-- An event of this kind says `v`. -/
def Says {α : Type} (kind : Kind) (reader : Body → Option α) (e : Event D Data) (v : α) : Prop :=
  e.kind = kind ∧ reader e.data.body = some v

/-- An event and what was there before it. -/
def Preceded (before : List (Event D Data)) (e : Event D Data) : Prop :=
  match e.kind with
  | .binding => ∃ b, e.data.body.binding? = some b ∧ Coherent fingerprint b ∧ ∀ x ∈ before, x.kind ≠ .binding
  | .permit =>
      ∃ permit, e.data.body.permit? = some permit ∧ (∀ x ∈ before, x.kind ≠ .permit) ∧
        ∃ b, (∃ x ∈ before, Says .binding Body.binding? x b) ∧ permit.key = b.key ∧
          permit.bodyDigest = b.core.bodyDigest
  | .intent => ∃ permit, e.data.body.permit? = some permit ∧ ∃ x ∈ before, Says .permit Body.permit? x permit
  | .peerResponse =>
      ∃ evidence, e.data.body.evidence? = some evidence ∧
        (∃ b permit, (∃ x ∈ before, Says .binding Body.binding? x b) ∧
          (∃ x ∈ before, Says .intent Body.permit? x permit) ∧ Answers b permit evidence) ∧
        ∀ x ∈ before, x.kind = .peerResponse → x.data.body.evidence? = some evidence
  | .finalUsage =>
      ∃ evidence usage value, e.data.body.evidence? = some evidence ∧ e.data.body.usage? = some usage ∧
        actual usage = .ok value ∧ (∃ x ∈ before, Says .peerResponse Body.evidence? x evidence) ∧
        ∀ x ∈ before, x.kind = .finalUsage → x.data.body.usage? = some usage
  | _ => True

/-- The chain rule `liability` checks. -/
def Chained [DecidableEq D] (before : List (Event D Data)) (e : Event D Data) : Prop :=
  validateEvent p e = true ∧ e.sequence = before.length + 1 ∧ e.previous = lastDigest p before ∧
    ∀ last ∈ before.getLast?, last.stream = e.stream

/-! ## The invariant -/

/-- A field holds what the events of one kind say. -/
structure Tracks {α : Type} (field : Option α) (kind : Kind) (reader : Body → Option α) (events : List (Event D Data)) :
    Prop where
  said : ∀ v, field = some v → ∃ x ∈ events, Says kind reader x v
  heard : ∀ x ∈ events, x.kind = kind → field ≠ none ∧ reader x.data.body = field

namespace Tracks

variable {α : Type} {field : Option α} {kind : Kind} {reader : Body → Option α} {events : List (Event D Data)}
  {e : Event D Data}

theorem nil : Tracks (none : Option α) kind reader ([] : List (Event D Data)) where
  said _ set := absurd set.symm (Option.some_ne_none _)
  heard _ mem := absurd mem List.not_mem_nil

/-- An event of another kind. -/
theorem other (tracks : Tracks field kind reader events) (differ : e.kind ≠ kind) :
    Tracks field kind reader (events ++ [e]) := by
  refine ⟨fun v set => ?_, fun x mem same => ?_⟩
  · obtain ⟨x, mem, told⟩ := tracks.said v set
    exact ⟨x, List.mem_append_left [e] mem, told⟩
  · rcases List.mem_append.1 mem with old | new
    · exact tracks.heard x old same
    · rw [List.mem_singleton.1 new] at same
      exact absurd same differ

/-- The first event of the kind, or one that says the same. -/
theorem set {v : α} (tracks : Tracks field kind reader events) (kept : field = none ∨ field = some v)
    (same : e.kind = kind) (reads : reader e.data.body = some v) : Tracks (some v) kind reader (events ++ [e]) := by
  refine ⟨fun w set => ⟨e, List.mem_append_right events List.mem_cons_self, same, reads.trans set⟩, fun x mem is => ?_⟩
  rcases List.mem_append.1 mem with old | new
  · obtain ⟨full, read⟩ := tracks.heard x old is
    exact ⟨Option.some_ne_none v, read.trans (kept.resolve_left full)⟩
  · rw [List.mem_singleton.1 new]
    exact ⟨Option.some_ne_none v, reads⟩

theorem eq_none_iff (tracks : Tracks field kind reader events) : field = none ↔ ∀ x ∈ events, x.kind ≠ kind := by
  constructor
  · intro empty x mem same
    exact (tracks.heard x mem same).1 empty
  · intro silent
    cases set : field with
    | none => rfl
    | some v =>
        obtain ⟨x, mem, same, -⟩ := tracks.said v set
        exact absurd same (silent x mem)

theorem eq_some_iff (tracks : Tracks field kind reader events) {v : α} :
    field = some v ↔ ∃ x ∈ events, Says kind reader x v := by
  constructor
  · exact tracks.said v
  · rintro ⟨x, mem, same, reads⟩
    exact (tracks.heard x mem same).2.symm.trans reads

/-- Nothing was said yet, or the same. -/
theorem kept_iff (tracks : Tracks field kind reader events) {v : α} :
    (field = none ∨ field = some v) ↔ ∀ x ∈ events, x.kind = kind → reader x.data.body = some v := by
  constructor
  · intro kept x mem same
    obtain ⟨full, said⟩ := tracks.heard x mem same
    exact said.trans (kept.resolve_left full)
  · intro same
    by_cases empty : field = none
    · exact .inl empty
    · obtain ⟨w, set⟩ := Option.ne_none_iff_exists'.1 empty
      obtain ⟨x, mem, is, said⟩ := tracks.said w set
      exact .inr (set.trans (said.symm.trans (same x mem is)))

end Tracks

/-- What the reservation and the final usage of a call come to. -/
def Owes (s : Reading D) : Prop :=
  match s.binding with
  | none => s.result = .nothing
  | some b => s.result.keyDigest = some b.key ∧
      match s.final with
      | none => s.result.owed = b.reservation.reserved
      | some usage => ∃ value, actual usage = .ok value ∧ ∀ d, s.result.owed d = max (b.reservation.reserved d) (value d)

/-- What the fields of a reading hold of `events`. -/
structure Known (events : List (Event D Data)) (s : Reading D) : Prop where
  binding : Tracks s.binding .binding Body.binding? events
  permit : Tracks s.permit .permit Body.permit? events
  intent : Tracks s.intent .intent Body.permit? events
  response : Tracks s.response .peerResponse Body.evidence? events
  final : Tracks s.final .finalUsage Body.usage? events
  /-- A permit is of the binding. -/
  permitted : s.permit ≠ none → s.binding ≠ none
  /-- An intent is of the permit. -/
  intended : ∀ permit, s.intent = some permit → s.permit = some permit
  /-- A response is to the permitted request. -/
  answered : ∀ evidence, s.response = some evidence →
    s.intent ≠ none ∧ ∃ b permit, s.binding = some b ∧ s.permit = some permit ∧ Answers b permit evidence
  /-- A final usage is of the response. -/
  reported : s.final ≠ none → s.response ≠ none
  owes : Owes s

/-- `s` is what has been read of `events`. -/
structure Reads (events : List (Event D Data)) (s : Reading D) : Prop where
  known : Known events s
  sequence : s.sequence = events.length
  previous : s.previous = lastDigest p events
  stream : s.stream = events.getLast?.map Event.stream

end Rests

section Steps

variable {D L : Type} {fingerprint : BindingCore → Id} {s t : Reading D} {body : Body}

namespace Reading

theorem read_binding : s.read fingerprint body .binding = some t ↔ ∃ b result, body.binding? = some b ∧
    s.binding = none ∧ Coherent fingerprint b ∧ amount (some b.key) b.reservation.reserved = some result ∧
      t = { s with binding := some b, result } := by
  simp only [read]
  cases body.binding? with
  | none => simp
  | some b =>
      dsimp only
      split
      · next holds => simp [holds, eq_comm]
      · next fails =>
        constructor
        · intro none_
          cases none_
        · rintro ⟨b', result, same, free, coherent, -⟩
          obtain rfl := Option.some.inj same
          exact absurd ⟨free, coherent⟩ fails

theorem read_permit : s.read fingerprint body .permit = some t ↔ ∃ b permit, s.binding = some b ∧
    body.permit? = some permit ∧ s.permit = none ∧ permit.key = b.key ∧ permit.bodyDigest = b.core.bodyDigest ∧
      t = { s with permit := some permit } := by
  simp only [read]
  cases s.binding with
  | none => simp
  | some b =>
      cases body.permit? with
      | none => simp
      | some permit => simp [and_assoc, eq_comm]

theorem read_intent : s.read fingerprint body .intent = some t ↔ ∃ permit, body.permit? = some permit ∧
    s.permit = some permit ∧ t = { s with intent := some permit } := by
  simp only [read]
  cases body.permit? with
  | none => simp
  | some permit => simp [eq_comm]

theorem read_response : s.read fingerprint body .peerResponse = some t ↔ ∃ b permit evidence, s.binding = some b ∧
    s.permit = some permit ∧ body.evidence? = some evidence ∧ s.intent ≠ none ∧ Answers b permit evidence ∧
      (s.response = none ∨ s.response = some evidence) ∧ t = { s with response := some evidence } := by
  simp only [read]
  cases s.binding with
  | none => simp
  | some b =>
      cases s.permit with
      | none => simp
      | some permit =>
          cases body.evidence? with
          | none => simp
          | some evidence => simp [and_assoc, eq_comm]

theorem read_final : s.read fingerprint body .finalUsage = some t ↔ ∃ b permit evidence usage result,
    s.binding = some b ∧ s.permit = some permit ∧ body.evidence? = some evidence ∧ body.usage? = some usage ∧
      s.intent ≠ none ∧ Answers b permit evidence ∧ s.response = some evidence ∧
      (s.final = none ∨ s.final = some usage) ∧ charge s.result b.key usage = some result ∧
      t = { s with final := some usage, result } := by
  simp only [read]
  cases s.binding with
  | none => simp
  | some b =>
      cases s.permit with
      | none => simp
      | some permit =>
          cases body.evidence? with
          | none => simp
          | some evidence =>
              cases body.usage? with
              | none => simp
              | some usage => simp [and_assoc, eq_comm]

theorem read_chain {kind : Kind} (read : s.read fingerprint body kind = some t) :
    t.sequence = s.sequence ∧ t.previous = s.previous ∧ t.stream = s.stream := by
  cases kind with
  | binding =>
      obtain ⟨b, result, -, -, -, -, rfl⟩ := read_binding.1 read
      exact ⟨rfl, rfl, rfl⟩
  | permit =>
      obtain ⟨b, permit, -, -, -, -, -, rfl⟩ := read_permit.1 read
      exact ⟨rfl, rfl, rfl⟩
  | intent =>
      obtain ⟨permit, -, -, rfl⟩ := read_intent.1 read
      exact ⟨rfl, rfl, rfl⟩
  | peerResponse =>
      obtain ⟨b, permit, evidence, -, -, -, -, -, -, rfl⟩ := read_response.1 read
      exact ⟨rfl, rfl, rfl⟩
  | finalUsage =>
      obtain ⟨b, permit, evidence, usage, result, -, -, -, -, -, -, -, -, -, rfl⟩ := read_final.1 read
      exact ⟨rfl, rfl, rfl⟩
  | bootstrap | localWrite | closed | barrier | disposition =>
      obtain rfl := Option.some.inj read
      exact ⟨rfl, rfl, rfl⟩

end Reading

theorem charge_eq_some {result l : Liability} {key : ReservationKey} {usage : UsageView}
    (owner : result.keyDigest = some key) : charge result key usage = some l ↔
      ∃ value, actual usage = .ok value ∧ l.keyDigest = some key ∧ ∀ d, l.owed d = max (result.owed d) (value d) := by
  unfold charge
  cases paid : actual usage with
  | error _ => simp
  | ok value =>
      dsimp only
      rw [amount_of_ranges key (actual_bounds paid), Option.bind_some, merge_eq_some, owner]
      simp [Agree]

theorem charge_defined {result : Liability} {key : ReservationKey} {usage : UsageView} {value : Amount}
    (owner : result.keyDigest = some key) (paid : actual usage = .ok value) : ∃ l, charge result key usage = some l := by
  simp only [charge, paid, amount_of_ranges key (actual_bounds paid), Option.bind_some]
  exact merge_defined (.inr (.inr owner))

variable {events : List (Event D Data)} {e : Event D Data}

theorem below_of_owed {low high : Liability} (agree : Agree low.keyDigest high.keyDigest)
    (key : high.keyDigest = low.keyDigest.or high.keyDigest) (owed : ∀ d, low.owed d ≤ high.owed d) :
    liabilities.Below low high :=
  merge_eq_some.2 ⟨agree, key, fun d => (Int.max_eq_right (owed d)).symm⟩

namespace Known

theorem unbound (known : Known events s) (free : s.binding = none) :
    s.intent = none ∧ s.response = none ∧ s.final = none ∧ s.result = .nothing := by
  have intent : s.intent = none := by
    by_contra some_
    obtain ⟨permit, set⟩ := Option.ne_none_iff_exists'.1 some_
    exact known.permitted (by rw [known.intended permit set]; exact Option.some_ne_none permit) free
  have response : s.response = none := by
    by_contra some_
    obtain ⟨evidence, set⟩ := Option.ne_none_iff_exists'.1 some_
    exact (known.answered evidence set).1 intent
  have owes := known.owes
  unfold Owes at owes
  rw [free] at owes
  exact ⟨intent, response, by_contra fun some_ => known.reported some_ response, owes⟩

theorem owner {b : Binding} (known : Known events s) (set : s.binding = some b) : s.result.keyDigest = some b.key := by
  have owes := known.owes
  unfold Owes at owes
  rw [set] at owes
  exact owes.1

/-- An event of a kind `liability` does not read. -/
theorem quiet (known : Known events s) (binding : e.kind ≠ .binding) (permit : e.kind ≠ .permit)
    (intent : e.kind ≠ .intent) (response : e.kind ≠ .peerResponse) (final : e.kind ≠ .finalUsage) :
    Known (events ++ [e]) s :=
  { known with
    binding := known.binding.other binding
    permit := known.permit.other permit
    intent := known.intent.other intent
    response := known.response.other response
    final := known.final.other final }

theorem read_binding (known : Known events s) (kind : e.kind = .binding)
    (read : s.read fingerprint e.data.body .binding = some t) :
    Known (events ++ [e]) t ∧ liabilities.Below s.result t.result := by
  obtain ⟨b, result, reads, free, -, made, rfl⟩ := Reading.read_binding.1 read
  obtain ⟨intent, response, final, nothing⟩ := known.unbound free
  refine ⟨⟨known.binding.set (.inl free) kind reads, known.permit.other (by simp [kind]),
    known.intent.other (by simp [kind]), known.response.other (by simp [kind]), known.final.other (by simp [kind]),
    fun _ => Option.some_ne_none b, known.intended, fun evidence set => ?_, known.reported, ?_⟩, ?_⟩
  · exact absurd intent (known.answered evidence set).1
  · simp only [Owes, final]
    exact amount_eq_some.1 made
  · rw [nothing]
    exact PartialJoin.Below.bottom result

theorem read_permit (known : Known events s) (kind : e.kind = .permit)
    (read : s.read fingerprint e.data.body .permit = some t) :
    Known (events ++ [e]) t ∧ liabilities.Below s.result t.result := by
  obtain ⟨b, permit, bound, reads, free, -, -, rfl⟩ := Reading.read_permit.1 read
  have unintended : s.intent = none := by
    by_contra some_
    obtain ⟨q, set⟩ := Option.ne_none_iff_exists'.1 some_
    exact Option.some_ne_none q ((known.intended q set).symm.trans free)
  refine ⟨⟨known.binding.other (by simp [kind]), known.permit.set (.inl free) kind reads,
    known.intent.other (by simp [kind]), known.response.other (by simp [kind]), known.final.other (by simp [kind]),
    fun _ => by simp [bound], fun q set => ?_, fun evidence set => ?_, known.reported, known.owes⟩, .refl _⟩
  · exact absurd (unintended.symm.trans set) (Option.some_ne_none q).symm
  · exact absurd unintended (known.answered evidence set).1

theorem read_intent (known : Known events s) (kind : e.kind = .intent)
    (read : s.read fingerprint e.data.body .intent = some t) :
    Known (events ++ [e]) t ∧ liabilities.Below s.result t.result := by
  obtain ⟨permit, reads, set, rfl⟩ := Reading.read_intent.1 read
  have kept : s.intent = none ∨ s.intent = some permit := by
    cases intent : s.intent with
    | none => exact .inl rfl
    | some q => exact .inr ((known.intended q intent).symm.trans set)
  refine ⟨⟨known.binding.other (by simp [kind]), known.permit.other (by simp [kind]),
    known.intent.set kept kind reads, known.response.other (by simp [kind]), known.final.other (by simp [kind]),
    known.permitted, fun q same => ?_, fun evidence set => ?_, known.reported, known.owes⟩, .refl _⟩
  · exact set.trans same
  · exact ⟨Option.some_ne_none permit, (known.answered evidence set).2⟩

theorem read_response (known : Known events s) (kind : e.kind = .peerResponse)
    (read : s.read fingerprint e.data.body .peerResponse = some t) :
    Known (events ++ [e]) t ∧ liabilities.Below s.result t.result := by
  obtain ⟨b, permit, evidence, bound, permitted, reads, intended, answers, kept, rfl⟩ := Reading.read_response.1 read
  refine ⟨⟨known.binding.other (by simp [kind]), known.permit.other (by simp [kind]),
    known.intent.other (by simp [kind]), known.response.set kept kind reads, known.final.other (by simp [kind]),
    known.permitted, known.intended, fun evidence' set => ?_, fun _ => Option.some_ne_none evidence, known.owes⟩,
    .refl _⟩
  obtain rfl := Option.some.inj set
  exact ⟨intended, b, permit, bound, permitted, answers⟩

theorem read_final (known : Known events s) (kind : e.kind = .finalUsage)
    (read : s.read fingerprint e.data.body .finalUsage = some t) :
    Known (events ++ [e]) t ∧ liabilities.Below s.result t.result := by
  obtain ⟨b, permit, evidence, usage, result, bound, permitted, -, reads, intended, answers, response, kept, charged,
    rfl⟩ := Reading.read_final.1 read
  have owner := known.owner bound
  obtain ⟨value, paid, key, owed⟩ := (charge_eq_some owner).1 charged
  refine ⟨⟨known.binding.other (by simp [kind]), known.permit.other (by simp [kind]),
    known.intent.other (by simp [kind]), known.response.other (by simp [kind]), known.final.set kept kind reads,
    known.permitted, known.intended, known.answered, fun _ => by simp [response], ?_⟩, ?_⟩
  · simp only [Owes, bound]
    refine ⟨key, value, paid, fun d => ?_⟩
    have owes := known.owes
    simp only [Owes, bound] at owes
    rw [owed d]
    rcases kept with none_ | same
    · rw [none_] at owes
      rw [owes.2]
    · rw [same] at owes
      obtain ⟨-, value', paid', owed'⟩ := owes
      obtain rfl := Except.ok.inj (paid'.symm.trans paid)
      rw [owed' d, Int.max_assoc, Int.max_self]
  · exact below_of_owed (.inr (.inr (owner.trans key.symm))) (by rw [owner, key]; rfl)
      fun d => (owed d).symm ▸ Int.le_max_left _ _

/-- **One event.**  What is read stays what the events say, and the bound does not fall. -/
theorem read (known : Known events s) (read : s.read fingerprint e.data.body e.kind = some t) :
    Known (events ++ [e]) t ∧ liabilities.Below s.result t.result := by
  cases kind : e.kind with
  | binding => exact known.read_binding kind (kind ▸ read)
  | permit => exact known.read_permit kind (kind ▸ read)
  | intent => exact known.read_intent kind (kind ▸ read)
  | peerResponse => exact known.read_response kind (kind ▸ read)
  | finalUsage => exact known.read_final kind (kind ▸ read)
  | bootstrap | localWrite | closed | barrier | disposition =>
      rw [kind] at read
      obtain rfl := Option.some.inj read
      exact ⟨known.quiet (by simp [kind]) (by simp [kind]) (by simp [kind]) (by simp [kind]) (by simp [kind]), .refl _⟩

/-! An event is read exactly where it is preceded by what it rests on. -/

theorem binding_read (known : Known events s) (kind : e.kind = .binding) :
    (∃ t, s.read fingerprint e.data.body .binding = some t) ↔ Preceded fingerprint events e := by
  simp only [Preceded, kind]
  constructor
  · rintro ⟨t, read⟩
    obtain ⟨b, -, reads, free, coherent, -⟩ := Reading.read_binding.1 read
    exact ⟨b, reads, coherent, known.binding.eq_none_iff.1 free⟩
  · rintro ⟨b, reads, coherent, first⟩
    have made := amount_of_ranges b.key fun d => ⟨b.reservation.reserved_nonneg d, b.reservation.maximum d⟩
    exact ⟨_, Reading.read_binding.2 ⟨b, _, reads, known.binding.eq_none_iff.2 first, coherent, made, rfl⟩⟩

theorem permit_read (known : Known events s) (kind : e.kind = .permit) :
    (∃ t, s.read fingerprint e.data.body .permit = some t) ↔ Preceded fingerprint events e := by
  simp only [Preceded, kind]
  constructor
  · rintro ⟨t, read⟩
    obtain ⟨b, permit, bound, reads, free, key, digest, -⟩ := Reading.read_permit.1 read
    exact ⟨permit, reads, known.permit.eq_none_iff.1 free, b, known.binding.eq_some_iff.1 bound, key, digest⟩
  · rintro ⟨permit, reads, first, b, bound, key, digest⟩
    exact ⟨_, Reading.read_permit.2 ⟨b, permit, known.binding.eq_some_iff.2 bound, reads,
      known.permit.eq_none_iff.2 first, key, digest, rfl⟩⟩

theorem intent_read (known : Known events s) (kind : e.kind = .intent) :
    (∃ t, s.read fingerprint e.data.body .intent = some t) ↔ Preceded fingerprint events e := by
  simp only [Preceded, kind]
  constructor
  · rintro ⟨t, read⟩
    obtain ⟨permit, reads, set, -⟩ := Reading.read_intent.1 read
    exact ⟨permit, reads, known.permit.eq_some_iff.1 set⟩
  · rintro ⟨permit, reads, issued⟩
    exact ⟨_, Reading.read_intent.2 ⟨permit, reads, known.permit.eq_some_iff.2 issued, rfl⟩⟩

theorem response_read (known : Known events s) (kind : e.kind = .peerResponse) :
    (∃ t, s.read fingerprint e.data.body .peerResponse = some t) ↔ Preceded fingerprint events e := by
  simp only [Preceded, kind]
  constructor
  · rintro ⟨t, read⟩
    obtain ⟨b, permit, evidence, bound, permitted, reads, intended, answers, kept, -⟩ := Reading.read_response.1 read
    obtain ⟨permit', set⟩ := Option.ne_none_iff_exists'.1 intended
    obtain rfl := Option.some.inj ((known.intended permit' set).symm.trans permitted)
    exact ⟨evidence, reads, ⟨b, permit', known.binding.eq_some_iff.1 bound, known.intent.eq_some_iff.1 set, answers⟩,
      known.response.kept_iff.1 kept⟩
  · rintro ⟨evidence, reads, ⟨b, permit, bound, intended, answers⟩, same⟩
    have set := known.intent.eq_some_iff.2 intended
    exact ⟨_, Reading.read_response.2 ⟨b, permit, evidence, known.binding.eq_some_iff.2 bound, known.intended permit set,
      reads, by simp [set], answers, known.response.kept_iff.2 same, rfl⟩⟩

theorem final_read (known : Known events s) (kind : e.kind = .finalUsage) :
    (∃ t, s.read fingerprint e.data.body .finalUsage = some t) ↔ Preceded fingerprint events e := by
  simp only [Preceded, kind]
  constructor
  · rintro ⟨t, read⟩
    obtain ⟨b, permit, evidence, usage, result, bound, -, evident, reads, -, -, response, kept, charged, -⟩ :=
      Reading.read_final.1 read
    obtain ⟨value, paid, -⟩ := (charge_eq_some (known.owner bound)).1 charged
    exact ⟨evidence, usage, value, evident, reads, paid, known.response.eq_some_iff.1 response,
      known.final.kept_iff.1 kept⟩
  · rintro ⟨evidence, usage, value, evident, reads, paid, response, same⟩
    have set := known.response.eq_some_iff.2 response
    obtain ⟨intended, b, permit, bound, permitted, answers⟩ := known.answered evidence set
    obtain ⟨result, charged⟩ := charge_defined (known.owner bound) paid
    exact ⟨_, Reading.read_final.2 ⟨b, permit, evidence, usage, result, bound, permitted, evident, reads, intended,
      answers, set, known.final.kept_iff.2 same, charged, rfl⟩⟩

theorem read_iff (known : Known events s) :
    (∃ t, s.read fingerprint e.data.body e.kind = some t) ↔ Preceded fingerprint events e := by
  cases kind : e.kind with
  | binding => exact known.binding_read kind
  | permit => exact known.permit_read kind
  | intent => exact known.intent_read kind
  | peerResponse => exact known.response_read kind
  | finalUsage => exact known.final_read kind
  | bootstrap | localWrite | closed | barrier | disposition =>
      simp only [Preceded, kind, iff_true]
      exact ⟨s, rfl⟩

end Known

end Steps

/-! ## Whole streams -/

section Streams

variable {D L : Type} {p : Protocol D Data L} {fingerprint : BindingCore → Id} {s t : Reading D}
  {events : List (Event D Data)} {e : Event D Data}

theorem Reads.start : Reads p [] (Reading.start p) where
  known :=
    { binding := .nil, permit := .nil, intent := .nil, response := .nil, final := .nil
      permitted := fun full => absurd rfl full
      intended := fun _ set => set
      answered := fun evidence set => absurd set.symm (Option.some_ne_none evidence)
      reported := fun full => absurd rfl full
      owes := rfl }
  sequence := rfl
  previous := rfl
  stream := rfl

/-- What a stream of one call comes to. -/
theorem Reads.value (reads : Reads p events s) :
    ((∀ e ∈ events, e.kind ≠ .binding) → s.result = .nothing) ∧
    ∀ e ∈ events, ∀ b, Says .binding Body.binding? e b → s.result.keyDigest = some b.key ∧
      ((∀ x ∈ events, x.kind ≠ .finalUsage) → s.result.owed = b.reservation.reserved) ∧
      ∀ x ∈ events, ∀ usage, Says .finalUsage Body.usage? x usage → ∃ value, actual usage = .ok value ∧
        ∀ d, s.result.owed d = max (b.reservation.reserved d) (value d) := by
  have known := reads.known
  have owes := known.owes
  refine ⟨fun silent => (known.unbound (known.binding.eq_none_iff.2 silent)).2.2.2, fun e mem b bound => ?_⟩
  have set := known.binding.eq_some_iff.2 ⟨e, mem, bound⟩
  simp only [Owes, set] at owes
  refine ⟨owes.1, fun silent => ?_, fun x here usage said => ?_⟩
  · rw [known.final.eq_none_iff.2 silent] at owes
    exact owes.2
  · rw [known.final.eq_some_iff.2 ⟨x, here, said⟩] at owes
    exact owes.2

variable [DecidableEq D]

theorem Reads.chained (reads : Reads p events s) : (validateEvent p e = true ∧ e.sequence = s.sequence + 1 ∧
    e.previous = s.previous ∧ (s.stream = none ∨ s.stream = some e.stream)) ↔ Chained p events e := by
  rw [reads.sequence, reads.previous, reads.stream, Chained]
  refine and_congr_right fun _ => and_congr_right fun _ => and_congr_right fun _ => ?_
  cases events.getLast? <;> simp

/-- **Step.** -/
theorem Reads.step (reads : Reads p events s) (stepped : s.step p fingerprint e = some t) :
    Reads p (events ++ [e]) t ∧ liabilities.Below s.result t.result := by
  unfold Reading.step at stepped
  split at stepped
  swap
  · cases stepped
  have known : Known events { s with sequence := s.sequence + 1, previous := e.digest, stream := some e.stream } :=
    { reads.known with }
  obtain ⟨kept, below⟩ := known.read stepped
  obtain ⟨sequence, previous, stream⟩ := Reading.read_chain stepped
  refine ⟨⟨kept, ?_, ?_, ?_⟩, below⟩
  · rw [sequence, reads.sequence, List.length_append]
    rfl
  · rw [previous, lastDigest, List.getLast?_concat]
    rfl
  · rw [stream, List.getLast?_concat]
    rfl

theorem Reads.step_iff (reads : Reads p events s) :
    (∃ t, s.step p fingerprint e = some t) ↔ Chained p events e ∧ Preceded fingerprint events e := by
  have known : Known events { s with sequence := s.sequence + 1, previous := e.digest, stream := some e.stream } :=
    { reads.known with }
  rw [← reads.chained, ← known.read_iff]
  unfold Reading.step
  constructor
  · rintro ⟨t, stepped⟩
    split at stepped
    next chained => exact ⟨chained, t, stepped⟩
    next => cases stepped
  · rintro ⟨chained, t, read⟩
    exact ⟨t, by rw [if_pos chained, read]⟩

theorem readEvents_snoc : readEvents p fingerprint (events ++ [e]) =
    (readEvents p fingerprint events).bind fun s => s.step p fingerprint e := by
  simp only [readEvents, List.foldlM_append, List.foldlM_cons, List.foldlM_nil, bind_pure]
  rfl

theorem readEvents_reads (read : readEvents p fingerprint events = some s) : Reads p events s := by
  induction events using List.reverseRecOn generalizing s with
  | nil =>
      obtain rfl := Option.some.inj read
      exact .start
  | append_singleton events e ih =>
      rw [readEvents_snoc] at read
      obtain ⟨u, before, stepped⟩ := Option.bind_eq_some_iff.1 read
      exact ((ih before).step stepped).1

/-- A stream that is read is read at every prefix. -/
theorem readEvents_append {more : List (Event D Data)} (read : readEvents p fingerprint (events ++ more) = some t) :
    ∃ s, readEvents p fingerprint events = some s ∧ liabilities.Below s.result t.result := by
  induction more using List.reverseRecOn generalizing t with
  | nil => exact ⟨t, by rwa [List.append_nil] at read, .refl t.result⟩
  | append_singleton more e ih =>
      rw [← List.append_assoc, readEvents_snoc] at read
      obtain ⟨u, before, stepped⟩ := Option.bind_eq_some_iff.1 read
      obtain ⟨s, read', below⟩ := ih before
      exact ⟨s, read', below.trans ((readEvents_reads before).step stepped).2⟩

/-- **Exactly the streams in which every event has what it rests on before it.** -/
theorem readEvents_iff : (∃ s, readEvents p fingerprint events = some s) ↔
    ∀ before e after, events = before ++ e :: after → Chained p before e ∧ Preceded fingerprint before e := by
  induction events using List.reverseRecOn with
  | nil =>
      refine iff_of_true ⟨_, rfl⟩ fun before e after cut => ?_
      exact absurd cut.symm (List.append_ne_nil_of_right_ne_nil before (List.cons_ne_nil e after))
  | append_singleton events last ih =>
      rw [readEvents_snoc]
      constructor
      · rintro ⟨t, read⟩ before e after cut
        obtain ⟨s, earlier, stepped⟩ := Option.bind_eq_some_iff.1 read
        rcases List.eq_nil_or_concat after with rfl | ⟨after', x, rfl⟩
        · obtain ⟨rfl, same⟩ := List.append_inj' cut rfl
          obtain rfl := List.singleton_inj.1 same
          exact (readEvents_reads earlier).step_iff.1 ⟨t, stepped⟩
        · rw [List.concat_eq_append, ← List.cons_append, ← List.append_assoc] at cut
          obtain ⟨front, -⟩ := List.append_inj' cut rfl
          exact ih.1 ⟨s, earlier⟩ before e after' front
      · intro each
        obtain ⟨s, earlier⟩ := ih.2 fun before e after cut =>
          each before e (after ++ [last]) (by rw [cut, List.append_assoc, List.cons_append])
        obtain ⟨t, stepped⟩ := (readEvents_reads earlier).step_iff.2 (each events last [] rfl)
        exact ⟨t, by rw [earlier]; exact stepped⟩

theorem readEvents_of_liability {l : Liability} (owed : liability p fingerprint events = some l) :
    ∃ s, readEvents p fingerprint events = some s ∧ s.result = l := Option.map_eq_some_iff.1 owed

/-- **The bound on what a call owes.**  It is defined on exactly the streams in which every event
continues the chain and has what it rests on before it.  There it never falls as the stream
grows; it is nothing before a binding, the reservation after it, and the larger of the
reservation and the final usage once one is reported. -/
theorem liability_exact (p : Protocol D Data L) (fingerprint : BindingCore → Id) (events : List (Event D Data)) :
    ((∃ l, liability p fingerprint events = some l) ↔ ∀ before e after, events = before ++ e :: after →
      Chained p before e ∧ Preceded fingerprint before e) ∧
    ∀ l, liability p fingerprint events = some l →
      (∀ earlier, earlier <+: events → ∃ low, liability p fingerprint earlier = some low ∧ liabilities.Below low l) ∧
      ((∀ e ∈ events, e.kind ≠ .binding) → l = .nothing) ∧
      ∀ e ∈ events, ∀ b, Says .binding Body.binding? e b → l.keyDigest = some b.key ∧
        ((∀ x ∈ events, x.kind ≠ .finalUsage) → l.owed = b.reservation.reserved) ∧
        ∀ x ∈ events, ∀ usage, Says .finalUsage Body.usage? x usage → ∃ value, actual usage = .ok value ∧
          ∀ d, l.owed d = max (b.reservation.reserved d) (value d) := by
  refine ⟨?_, fun l owed => ?_⟩
  · rw [← readEvents_iff]
    constructor
    · rintro ⟨l, owed⟩
      obtain ⟨s, read, -⟩ := readEvents_of_liability owed
      exact ⟨s, read⟩
    · rintro ⟨s, read⟩
      exact ⟨s.result, by rw [liability, read]; rfl⟩
  · obtain ⟨s, read, rfl⟩ := readEvents_of_liability owed
    refine ⟨?_, (readEvents_reads read).value⟩
    rintro earlier ⟨more, rfl⟩
    obtain ⟨u, read', below⟩ := readEvents_append read
    exact ⟨u.result, by rw [liability, read']; rfl, below⟩

end Streams

/-! ## The floor a process keeps -/

section Floors

variable {D L : Type} [DecidableEq D]

/-- The protocol with the bound above. -/
def recovering (base : Protocol D Data L) (fingerprint : BindingCore → Id) : Protocol D Data Liability where
  zero := base.zero
  hash := base.hash
  fits := base.fits
  small := base.small
  liability := liability base fingerprint
  merge := merge
  nothing := .nothing
  identity := base.identity

/-- `recovery_liability`. -/
def Observations.recoveryLiability (p : Protocol D Data Liability) (o : Observations D Data Liability) :
    Option Liability × Observations D Data Liability :=
  match (p.liability o.events).bind (p.merge o.retained) with
  | none => (none, o)
  | some retained => (some retained, { o with retained })

end Floors

end ApiSecurityPlatform.Broker
