/-
# Broker.Coverage -- J and W stay within one event

An append writes three records in two files.  After a fault anywhere between them the
observer refuses every further append until it is loaded again, and a load finds an
event without its acknowledgement, which coverage refuses for good.  So the files are
never further apart than one record (`Aligned`), and coverage means that they agree.
-/
import ApiSecurityPlatform.Broker.Journal
import Mathlib.Data.List.Infix

namespace ApiSecurityPlatform.Broker

open ApiSecurityPlatform.Theory

set_option autoImplicit false

variable {D P L : Type}

/-! ## Runs -/

/-- A process that runs, or the file it has left. -/
inductive Process (F M : Type) where
  | down (file : F)
  | up (state : M)

/-- J and W. -/
structure Stores (D P L : Type) where
  j : Process (File (JRow D P)) (Observations D P L)
  w : Process (File (WRow D P)) (Witness D P)

namespace Stores

def jFile (s : Stores D P L) : File (JRow D P) :=
  match s.j with
  | .down file => file
  | .up o => o.journal.file

def wFile (s : Stores D P L) : File (WRow D P) :=
  match s.w with
  | .down file => file
  | .up w => w.journal.file

def witness? (s : Stores D P L) : Option (Witness D P) :=
  match s.w with
  | .down _ => none
  | .up w => some w

end Stores

inductive Call (P : Type) where
  | startJ
  | startW
  | crashJ
  | crashW
  | append (eventId : String) (kind : Kind) (data : P) (faults : Faults)
  | coverage (faults : Faults)

/-- W after a call of J's. -/
def Stores.withWitness (s : Stores D P L) (w : Option (Witness D P)) :
    Process (File (WRow D P)) (Witness D P) :=
  match w with
  | none => s.w
  | some w => .up w

section Steps

variable [DecidableEq D] [DecidableEq P] [DecidableEq L] (p : Protocol D P L) (stream : String)

def Stores.step (s : Stores D P L) : Call P → Option (Stores D P L)
  | .startJ =>
      match s.j with
      | .up _ => none
      | .down file => (Observations.load p stream file).map fun o => { s with j := .up o }
  | .startW =>
      match s.w with
      | .up _ => none
      | .down file => (Witness.load p file).map fun w => { s with w := .up w }
  | .crashJ => some { s with j := .down s.jFile }
  | .crashW => some { s with w := .down s.wFile }
  | .append eventId kind data faults =>
      match s.j with
      | .down _ => none
      | .up o =>
          let result := o.append p s.witness? eventId kind data faults
          some ⟨.up result.2.1, s.withWitness result.2.2⟩
  | .coverage faults =>
      match s.j with
      | .down _ => none
      | .up o => some { s with j := .up (o.coverage p (Observations.reach p s.witness? faults)).2 }

/-- Two empty files. -/
def Stores.Init (s : Stores D P L) : Prop := s.j = .down ⟨[], false⟩ ∧ s.w = .down ⟨[], false⟩

def stores : System (Stores D P L) (Call P) := System.ofStep Stores.Init (Stores.step p stream)

end Steps

/-! ## Alignment -/

def File.jEvents (file : File (JRow D P)) : List (Event D P) := file.rows.filterMap JRow.event?

def File.acks (file : File (JRow D P)) : List (Ack D) := file.rows.filterMap JRow.ack?

def File.wEvents (file : File (WRow D P)) : List (Event D P) := file.rows.filterMap WRow.event?

/-- Witnessed events are a prefix of J's, acknowledgements are of witnessed events in
order, and at most the last event is without one. -/
structure Aligned (p : Protocol D P L) (events : List (Event D P)) (acks : List (Ack D))
    (seen : List (Event D P)) : Prop where
  witnessed : seen <+: events
  acked : acks.length ≤ seen.length
  pending : events.length ≤ acks.length + 1
  inOrder : acks = (events.take acks.length).map (acknowledgement p)

namespace Aligned

variable {p : Protocol D P L} {events : List (Event D P)} {acks : List (Ack D)}

theorem nil (p : Protocol D P L) : Aligned p ([] : List (Event D P)) [] [] :=
  ⟨List.prefix_rfl, Nat.le_refl _, Nat.le_succ _, rfl⟩

/-- Every event acknowledged. -/
def Complete (p : Protocol D P L) (events : List (Event D P)) (acks : List (Ack D)) : Prop :=
  acks = events.map (acknowledgement p)

theorem Complete.length (complete : Complete p events acks) : acks.length = events.length := by
  rw [complete, List.length_map]

theorem complete {seen : List (Event D P)} (aligned : Aligned p events acks seen)
    (same : events.length = acks.length) : Complete p events acks ∧ seen = events := by
  have whole : acks = events.map (acknowledgement p) := by
    have acked := aligned.inOrder
    rwa [← same, List.take_length] at acked
  refine ⟨whole, aligned.witnessed.eq_of_length_le ?_⟩
  rw [same]
  exact aligned.acked

theorem of_complete (complete : Complete p events acks) : Aligned p events acks events := by
  refine ⟨List.prefix_rfl, Nat.le_of_eq complete.length, by rw [complete.length]; exact Nat.le_succ _, ?_⟩
  rw [complete.length, List.take_length]
  exact complete

theorem of_pending (complete : Complete p events acks) (value : Event D P) :
    Aligned p (events ++ [value]) acks events := by
  refine ⟨List.prefix_append _ _, Nat.le_of_eq complete.length, by simp [complete.length], ?_⟩
  rw [complete.length, List.take_left']
  · exact complete
  · rfl

theorem of_witnessed (complete : Complete p events acks) (value : Event D P) :
    Aligned p (events ++ [value]) acks (events ++ [value]) := by
  have pending := of_pending complete value
  exact ⟨List.prefix_rfl, by simp [complete.length], pending.pending, pending.inOrder⟩

theorem Complete.snoc (complete : Complete p events acks) (value : Event D P) :
    Complete p (events ++ [value]) (acks ++ [acknowledgement p value]) := by
  rw [Complete, complete, List.map_append]
  rfl

end Aligned

/-! ## Loading -/

section Loading

variable [DecidableEq D] [DecidableEq P] (p : Protocol D P L)

/-- A load reads the events and the acknowledgements out of the rows. -/
theorem loadRows_eq {stream : String} {rows : List (JRow D P)} {state result : List (Event D P) × List (Ack D)}
    (loaded : rows.foldlM (Observations.loadRow p stream) state = some result) :
    result = (state.1 ++ rows.filterMap JRow.event?, state.2 ++ rows.filterMap JRow.ack?) := by
  induction rows generalizing state with
  | nil =>
      obtain rfl := Option.some.inj loaded
      simp
  | cons row rest ih =>
      rw [List.foldlM_cons] at loaded
      obtain ⟨middle, first, remaining⟩ := Option.bind_eq_some_iff.1 loaded
      rw [ih remaining]
      cases row with
      | event value =>
          simp only [Observations.loadRow] at first
          split at first
          · obtain rfl := Option.some.inj first
            simp [List.filterMap_cons, JRow.event?, JRow.ack?]
          · cases first
      | ack value =>
          simp only [Observations.loadRow] at first
          split at first
          · obtain rfl := Option.some.inj first
            simp [List.filterMap_cons, JRow.event?, JRow.ack?]
          · cases first

theorem loadWitness_eq {rows : List (WRow D P)} {state result : List (Event D P) × Bool}
    (loaded : rows.foldlM (Witness.loadRow p) state = some result) :
    result.1 = state.1 ++ rows.filterMap WRow.event? := by
  induction rows generalizing state with
  | nil =>
      obtain rfl := Option.some.inj loaded
      simp
  | cons row rest ih =>
      rw [List.foldlM_cons] at loaded
      obtain ⟨middle, first, remaining⟩ := Option.bind_eq_some_iff.1 loaded
      rw [ih remaining]
      cases row with
      | event value =>
          simp only [Witness.loadRow] at first
          split at first
          · obtain rfl := Option.some.inj first
            simp [WRow.event?]
          · cases first
      | conflict incoming previous =>
          obtain rfl := Option.some.inj first
          simp [List.filterMap_cons, WRow.event?]

end Loading

/-! ## Memory and files -/

/-- The observer knows its file. -/
structure Observations.Synced (o : Observations D P L) : Prop where
  events : o.events = o.journal.file.jEvents
  acks : o.acks = o.journal.file.acks

def Witness.Synced (w : Witness D P) : Prop := w.events = w.journal.file.wEvents

section Writes

variable {R : Type} [DecidableEq R] (j : Journal R) (small : Bool) (value : R) (fault : Option Written)

/-- What an append leaves: an append that returned has written the row, one that raised
may have. -/
theorem Journal.append_cases :
    ((j.append small value fault).1 = true ∧
      (j.append small value fault).2 = { j with
        file := { j.file with rows := j.file.rows ++ [value] }, rows := j.rows ++ [value] }) ∨
    ((j.append small value fault).1 = false ∧
      ((j.append small value fault).2.file.rows = j.file.rows ∨
        (j.append small value fault).2.file.rows = j.file.rows ++ [value])) := by
  unfold Journal.append
  split
  · exact .inr ⟨rfl, .inl rfl⟩
  split
  · exact .inl ⟨rfl, rfl⟩
  · exact .inr ⟨rfl, .inl rfl⟩
  · exact .inr ⟨rfl, .inl rfl⟩
  · exact .inr ⟨rfl, .inr rfl⟩

end Writes

section Witnesses

variable [DecidableEq D] [DecidableEq P] (p : Protocol D P L) (w : Witness D P) (value : Event D P)
  (fault conflictFault : Option Written)

theorem Witness.conflicted_events : (w.conflicted p value fault).conflict = true ∧
    (w.conflicted p value fault).events = w.events ∧
    (w.conflicted p value fault).journal.file.wEvents = w.journal.file.wEvents := by
  unfold Witness.conflicted
  split
  · refine ⟨rfl, rfl, ?_⟩
    rcases Journal.append_cases w.journal true (.conflict value.digest (lastDigest p w.events)) fault with
      ⟨-, written⟩ | ⟨-, same | longer⟩
    · simp [File.wEvents, written, WRow.event?]
    · simp [File.wEvents, same]
    · simp [File.wEvents, longer, WRow.event?]
  · exact ⟨rfl, rfl, rfl⟩

/-- What W makes of an event it has not seen. -/
theorem Witness.append_spec (synced : w.Synced) (fresh : ∀ e ∈ w.events, e.eventId ≠ value.eventId) :
    ((w.append p value fault conflictFault).1 = some (acknowledgement p value) ∧
        (w.append p value fault conflictFault).2.events = w.events ++ [value] ∧
        (w.append p value fault conflictFault).2.Synced) ∨
      ((w.append p value fault conflictFault).1 = none ∧
        (w.append p value fault conflictFault).2.events = w.events ∧
        ((w.append p value fault conflictFault).2.conflict = true ∨
          (w.append p value fault conflictFault).2.Synced) ∧
        ((w.append p value fault conflictFault).2.journal.file.wEvents = w.events ∨
          (w.append p value fault conflictFault).2.journal.file.wEvents = w.events ++ [value])) := by
  have unseen : w.events.find? (fun r => r.eventId = value.eventId) = none := by
    rw [List.find?_eq_none]
    intro e mem same
    exact fresh e mem (of_decide_eq_true same)
  unfold Witness.append
  split
  · exact .inr ⟨rfl, rfl, .inr synced, .inl synced.symm⟩
  rw [unseen]
  dsimp only
  split
  · obtain ⟨conflict, events, file⟩ := Witness.conflicted_events p w value conflictFault
    exact .inr ⟨rfl, events, .inl conflict, .inl (file.trans synced.symm)⟩
  rcases Journal.append_cases w.journal (p.small value) (.event value) fault with
    ⟨returned, written⟩ | ⟨raised, rows⟩
  · rw [returned, if_pos rfl]
    refine .inl ⟨rfl, rfl, ?_⟩
    simp only [Witness.Synced, File.wEvents, written] at synced ⊢
    simp [synced, WRow.event?]
  · rw [raised, if_neg (by simp)]
    obtain ⟨conflict, events, file⟩ := Witness.conflicted_events p
      { w with journal := (w.journal.append (p.small value) (.event value) fault).2 } value conflictFault
    refine .inr ⟨rfl, events, .inl conflict, ?_⟩
    rw [file]
    simp only [Witness.Synced, File.wEvents] at synced ⊢
    rcases rows with same | longer
    · left
      rw [same, synced]
    · right
      rw [longer, List.filterMap_append, ← synced]
      rfl

end Witnesses

/-! ## The invariant -/

/-- The events and acknowledgements of J, on the file and in memory. -/
def Observations.kept (o : Observations D P L) : List (List (Event D P) × List (Ack D)) :=
  [(o.journal.file.jEvents, o.journal.file.acks), (o.events, o.acks)]

/-- The events of W, on the file and in memory. -/
def Witness.seen (w : Witness D P) : List (List (Event D P)) := [w.journal.file.wEvents, w.events]

namespace Stores

def kept (s : Stores D P L) : List (List (Event D P) × List (Ack D)) :=
  match s.j with
  | .down file => [(file.jEvents, file.acks)]
  | .up o => o.kept

def seen (s : Stores D P L) : List (List (Event D P)) :=
  match s.w with
  | .down file => [file.wEvents]
  | .up w => w.seen

theorem jFile_kept (s : Stores D P L) : (s.jFile.jEvents, s.jFile.acks) ∈ s.kept := by
  unfold jFile kept
  split <;> simp [Observations.kept]

theorem wFile_seen (s : Stores D P L) : s.wFile.wEvents ∈ s.seen := by
  unfold wFile seen
  split <;> simp [Witness.seen]

structure Inv (p : Protocol D P L) (s : Stores D P L) : Prop where
  aligned : ∀ kept ∈ s.kept, ∀ seen ∈ s.seen, Aligned p kept.1 kept.2 seen
  j : ∀ o, s.j = .up o → o.failed = true ∨ o.Synced
  w : ∀ w, s.w = .up w → w.conflict = true ∨ w.Synced

/-- An observer and a witness that may be seen together. -/
structure Paired (p : Protocol D P L) (o : Observations D P L) (w : Witness D P) : Prop where
  aligned : ∀ kept ∈ o.kept, ∀ seen ∈ w.seen, Aligned p kept.1 kept.2 seen
  j : o.failed = true ∨ o.Synced
  w : w.conflict = true ∨ w.Synced

variable {p : Protocol D P L} {s : Stores D P L}

theorem Paired.inv {o : Observations D P L} {w : Witness D P} (paired : Paired p o w) :
    Inv p ⟨.up o, .up w⟩ := by
  refine ⟨paired.aligned, ?_, ?_⟩
  · rintro o' ⟨⟩
    exact paired.j
  · rintro w' ⟨⟩
    exact paired.w

end Stores

section Agreement

variable [DecidableEq D] [DecidableEq P] {p : Protocol D P L} {o : Observations D P L}

/-- Everything J and W know and have written is one list. -/
structure Agreed (p : Protocol D P L) (o : Observations D P L) (w : Witness D P) : Prop where
  complete : Aligned.Complete p o.events o.acks
  events : w.events = o.events
  j : o.Synced
  w : w.Synced

/-- W's status only tells what W has. -/
theorem Observations.reach_eq_some {w : Option (Witness D P)} {faults : Faults} {status : Status D L}
    (reached : Observations.reach p w faults = some status) :
    ∃ w', w = some w' ∧ w'.conflict = false ∧ status.sequence = w'.events.length := by
  unfold Observations.reach at reached
  split at reached
  · cases reached
  obtain ⟨w', rfl, answered⟩ := Option.bind_eq_some_iff.1 reached
  unfold Witness.status at answered
  split at answered
  next up =>
    obtain ⟨recovery, -, rfl⟩ := Option.map_eq_some_iff.1 answered
    exact ⟨w', rfl, up.2, rfl⟩
  next => cases answered

variable [DecidableEq L]

/-- The floor is all that a look at coverage changes. -/
theorem Observations.coverage_state (status : Option (Status D L)) :
    ∃ retained, (o.coverage p status).2 = { o with retained } := by
  unfold Observations.coverage
  split
  · exact ⟨_, rfl⟩
  split
  · exact ⟨_, rfl⟩
  split
  · exact ⟨_, rfl⟩
  dsimp only
  split
  · exact ⟨_, rfl⟩
  · exact ⟨_, rfl⟩

theorem Observations.coverage_local {status : Option (Status D L)}
    (covered : (o.coverage p status).1 = true) :
    o.failed = false ∧ o.events.length = o.acks.length ∧
      ∃ answer, status = some answer ∧ answer.sequence = o.events.length := by
  unfold Observations.coverage at covered
  split at covered
  · cases covered
  next answer =>
  split at covered
  · cases covered
  split at covered
  · cases covered
  dsimp only at covered
  split at covered
  · cases covered
  obtain ⟨complete, same⟩ := Bool.and_eq_true_iff.1 covered
  simp only [Bool.and_eq_true, Bool.not_eq_true', decide_eq_true_eq] at complete same
  exact ⟨complete.1.1, complete.2, answer, rfl, by rw [same]⟩

/-- Coverage is agreement. -/
theorem Stores.Inv.agreed {s : Stores D P L} {faults : Faults} (inv : s.Inv p) (up : s.j = .up o)
    (covered : (o.coverage p (Observations.reach p s.witness? faults)).1 = true) :
    ∃ w, s.w = .up w ∧ Agreed p o w := by
  obtain ⟨live, whole, answer, reached, sequence⟩ := Observations.coverage_local covered
  obtain ⟨w, found, quiet, counted⟩ := Observations.reach_eq_some reached
  have running : s.w = .up w := by
    unfold Stores.witness? at found
    split at found
    · cases found
    next w' eq =>
      cases found
      exact eq
  have jSynced : o.Synced := (inv.j o up).resolve_left (by simp [live])
  have wSynced : w.Synced := (inv.w w running).resolve_left (by simp [quiet])
  have aligned : Aligned p o.events o.acks w.events := by
    refine inv.aligned (o.events, o.acks) ?_ w.events ?_
    · simp [Stores.kept, up, Observations.kept]
    · simp [Stores.seen, running, Witness.seen]
  obtain ⟨complete, same⟩ := aligned.complete whole
  exact ⟨w, running, complete, same, jSynced, wSynced⟩

end Agreement

/-! ## One append -/

section Appends

variable {p : Protocol D P L} {o : Observations D P L} {w : Witness D P} {value : Event D P}

/-- What J's file holds. -/
def File.lists (file : File (JRow D P)) : List (Event D P) × List (Ack D) := (file.jEvents, file.acks)

theorem File.lists_same {file file' : File (JRow D P)} (same : file'.rows = file.rows) :
    file'.lists = file.lists := by
  rw [File.lists, File.lists, File.jEvents, File.acks, same]
  rfl

theorem File.lists_event {file file' : File (JRow D P)} (longer : file'.rows = file.rows ++ [.event value]) :
    file'.lists = (file.jEvents ++ [value], file.acks) := by
  rw [File.lists, File.jEvents, File.acks, longer, List.filterMap_append, List.filterMap_append]
  simp [File.jEvents, File.acks, JRow.event?, JRow.ack?]

theorem File.lists_ack {file file' : File (JRow D P)} {ack : Ack D}
    (longer : file'.rows = file.rows ++ [.ack ack]) :
    file'.lists = (file.jEvents, file.acks ++ [ack]) := by
  rw [File.lists, File.jEvents, File.acks, longer, List.filterMap_append, List.filterMap_append]
  simp [File.jEvents, File.acks, JRow.event?, JRow.ack?]

theorem Observations.Synced.lists (synced : o.Synced) : o.journal.file.lists = (o.events, o.acks) := by
  rw [File.lists, ← synced.events, ← synced.acks]

theorem Observations.Synced.of_lists (same : o.journal.file.lists = (o.events, o.acks)) : o.Synced :=
  ⟨(congrArg Prod.fst same).symm, (congrArg Prod.snd same).symm⟩

/-- What J holds before W answers, with what W holds then. -/
theorem Stores.Paired.of_unwitnessed (agreed : Agreed p o w) (value : Event D P) {o' : Observations D P L}
    (file : o'.journal.file.lists = (o.events, o.acks) ∨
      o'.journal.file.lists = (o.events ++ [value], o.acks))
    (memory : (o'.events, o'.acks) = (o.events, o.acks) ∨
      (o'.events, o'.acks) = (o.events ++ [value], o.acks)) :
    Stores.Paired p o'.fail w := by
  have stage : ∀ k, k = (o.events, o.acks) ∨ k = (o.events ++ [value], o.acks) →
      Aligned p k.1 k.2 o.events := by
    rintro k (rfl | rfl)
    · exact .of_complete agreed.complete
    · exact .of_pending agreed.complete value
  refine ⟨fun k mem seen here => ?_, .inl rfl, .inr agreed.w⟩
  have same : seen = o.events := by
    rcases List.mem_pair.1 here with rfl | rfl
    · rw [← agreed.w, agreed.events]
    · exact agreed.events
  subst same
  rcases List.mem_pair.1 mem with rfl | rfl
  · exact stage _ file
  · exact stage _ memory

/-- What J holds until it has W's acknowledgement. -/
theorem Stores.Paired.of_pending (agreed : Agreed p o w) (value : Event D P) {o' : Observations D P L}
    {w' : Witness D P} (synced : o'.Synced) (memory : (o'.events, o'.acks) = (o.events ++ [value], o.acks))
    (seen : ∀ v ∈ w'.seen, v = o.events ∨ v = o.events ++ [value])
    (honest : w'.conflict = true ∨ w'.Synced) : Stores.Paired p o'.fail w' := by
  refine ⟨fun k mem v here => ?_, .inl rfl, honest⟩
  have same : k = (o.events ++ [value], o.acks) := by
    rcases List.mem_pair.1 mem with rfl | rfl
    · exact synced.lists.trans memory
    · exact memory
  subst same
  rcases seen v here with rfl | rfl
  · exact .of_pending agreed.complete value
  · exact .of_witnessed agreed.complete value

/-- What J holds once W has the event. -/
theorem Stores.Paired.of_acknowledged (agreed : Agreed p o w) (value : Event D P)
    {o' : Observations D P L} {w' : Witness D P}
    (file : o'.journal.file.lists = (o.events ++ [value], o.acks) ∨
      o'.journal.file.lists = (o.events ++ [value], o.acks ++ [acknowledgement p value]))
    (memory : (o'.events, o'.acks) = (o.events ++ [value], o.acks) ∨
      (o'.events, o'.acks) = (o.events ++ [value], o.acks ++ [acknowledgement p value]))
    (failed : o'.failed = true ∨ o'.Synced) (synced : w'.Synced)
    (events : w'.events = o.events ++ [value]) : Stores.Paired p o' w' := by
  have stage : ∀ k, k = (o.events ++ [value], o.acks) ∨
      k = (o.events ++ [value], o.acks ++ [acknowledgement p value]) →
      Aligned p k.1 k.2 (o.events ++ [value]) := by
    rintro k (rfl | rfl)
    · exact .of_witnessed agreed.complete value
    · exact .of_complete (agreed.complete.snoc value)
  refine ⟨fun k mem seen here => ?_, failed, .inr synced⟩
  have same : seen = o.events ++ [value] := by
    rcases List.mem_pair.1 here with rfl | rfl
    · rw [← synced, events]
    · exact events
  subst same
  rcases List.mem_pair.1 mem with rfl | rfl
  · exact stage _ file
  · exact stage _ memory

variable [DecidableEq D] [DecidableEq P]

/-- W's part of an append. -/
theorem Observations.request_cases (agreed : Agreed p o w)
    (fresh : ∀ e ∈ o.events, e.eventId ≠ value.eventId) (faults : Faults) :
    ∃ w', (Observations.request p (some w) value faults).2 = some w' ∧
      (w'.conflict = true ∨ w'.Synced) ∧
      (∀ v ∈ w'.seen, v = o.events ∨ v = o.events ++ [value]) ∧
      ((Observations.request p (some w) value faults).1 ≠ none →
        w'.Synced ∧ w'.events = o.events ++ [value]) := by
  have stored : w.journal.file.wEvents = o.events := by rw [← agreed.w, agreed.events]
  unfold Observations.request
  dsimp only
  split
  · refine ⟨w, rfl, .inr agreed.w, fun v here => .inl ?_, fun answered => absurd rfl answered⟩
    rcases List.mem_pair.1 here with rfl | rfl
    · exact stored
    · exact agreed.events
  rw [← agreed.events] at fresh
  refine ⟨_, rfl, ?_⟩
  rcases Witness.append_spec p w value faults.witness faults.conflict agreed.w fresh with
    ⟨-, events, synced⟩ | ⟨silent, events, honest, file⟩
  · rw [agreed.events] at events
    refine ⟨.inr synced, fun v here => .inr ?_, fun _ => ⟨synced, events⟩⟩
    rcases List.mem_pair.1 here with rfl | rfl
    · rw [← synced, events]
    · exact events
  · rw [agreed.events] at events file
    refine ⟨honest, fun v here => ?_, fun answered => ?_⟩
    · rcases List.mem_pair.1 here with rfl | rfl
      · exact file
      · exact .inl events
    · rw [silent] at answered
      split at answered <;> exact absurd rfl answered

/-- An append of J's, on agreement. -/
theorem Observations.record_paired (agreed : Agreed p o w)
    (fresh : ∀ e ∈ o.events, e.eventId ≠ value.eventId) (faults : Faults) :
    ∃ w', (o.record p (some w) value faults).2.2 = some w' ∧
      Stores.Paired p (o.record p (some w) value faults).2.1 w' := by
  have lists := agreed.j.lists
  unfold Observations.record
  split
  · exact ⟨w, rfl, .of_unwitnessed agreed value (.inl lists) (.inl rfl)⟩
  dsimp only
  rcases Journal.append_cases o.journal (p.small value) (.event value) faults.event with
    ⟨returned, written⟩ | ⟨raised, file⟩
  swap
  · rw [raised, if_pos rfl]
    refine ⟨w, rfl, .of_unwitnessed agreed value ?_ (.inl rfl)⟩
    rcases file with same | longer
    · exact .inl ((File.lists_same same).trans lists)
    · right
      rw [File.lists_event longer, agreed.j.events, agreed.j.acks]
  rw [returned, if_neg (by simp), written]
  -- J has the event
  have journaled : Observations.Synced { o with
      events := o.events ++ [value], journal := { o.journal with
        file := { o.journal.file with rows := o.journal.file.rows ++ [.event value] }
        rows := o.journal.rows ++ [.event value] } } := by
    refine .of_lists ?_
    rw [File.lists_event rfl, agreed.j.events, agreed.j.acks]
  split
  · exact ⟨w, rfl, .of_unwitnessed agreed value (.inr journaled.lists) (.inr rfl)⟩
  obtain ⟨w', answered, honest, seen, acked⟩ := Observations.request_cases agreed fresh faults
  rw [answered]
  split
  · exact ⟨w', rfl, .of_pending agreed value journaled rfl seen honest⟩
  next ack given =>
  obtain ⟨synced, events⟩ := acked (by simp [given])
  split
  · exact ⟨w', rfl, .of_pending agreed value journaled rfl seen honest⟩
  next matching =>
  obtain rfl := not_not.1 matching
  split
  · exact ⟨w', rfl, .of_pending agreed value journaled rfl seen honest⟩
  -- W has it too
  rcases Journal.append_cases { o.journal with
      file := { o.journal.file with rows := o.journal.file.rows ++ [.event value] }
      rows := o.journal.rows ++ [.event value] } true (.ack (acknowledgement p value)) faults.ack with
    ⟨returned, written⟩ | ⟨raised, file⟩
  swap
  · rw [raised, if_pos rfl]
    refine ⟨w', rfl, .of_acknowledged agreed value ?_ (.inl rfl) (.inl rfl) synced events⟩
    rcases file with same | longer
    · exact .inl ((File.lists_same same).trans journaled.lists)
    · right
      rw [Observations.fail, File.lists_ack longer, ← journaled.events, ← journaled.acks]
  rw [returned, if_neg (by simp), written]
  have acknowledged : File.lists { o.journal.file with
      rows := o.journal.file.rows ++ [.event value] ++ [.ack (acknowledgement p value)] } =
      (o.events ++ [value], o.acks ++ [acknowledgement p value]) := by
    have longer := @File.lists_ack D P { o.journal.file with rows := o.journal.file.rows ++ [.event value] }
      { o.journal.file with
        rows := o.journal.file.rows ++ [.event value] ++ [.ack (acknowledgement p value)] } _ rfl
    rw [longer, ← journaled.events, ← journaled.acks]
  split
  · exact ⟨w', rfl, .of_acknowledged agreed value (.inr acknowledged) (.inr rfl) (.inl rfl) synced events⟩
  · exact ⟨w', rfl, .of_acknowledged agreed value (.inr acknowledged) (.inr rfl) (.inr (.of_lists acknowledged))
      synced events⟩

end Appends

/-! ## Whole runs -/

section Runs

variable {p : Protocol D P L} {stream : String} {s t : Stores D P L} {o : Observations D P L}

/-- An observer that has only looked, or failed, or kept its floor. -/
theorem Stores.Inv.of_quiet (inv : s.Inv p) (up : s.j = .up o) {o' : Observations D P L}
    (journal : o'.journal = o.journal) (events : o'.events = o.events) (acks : o'.acks = o.acks)
    (failed : o.failed = true → o'.failed = true) : Inv p { s with j := .up o' } := by
  refine ⟨?_, ?_, inv.w⟩
  · have same : Stores.kept { s with j := .up o' } = s.kept := by
      rw [Stores.kept, Stores.kept, up]
      simp only [Observations.kept, journal, events, acks]
    rw [same]
    exact inv.aligned
  · rintro _ ⟨⟩
    refine (inv.j o up).imp failed fun synced => ⟨?_, ?_⟩
    · rw [events, journal, synced.events]
    · rw [acks, journal, synced.acks]

theorem Stores.withWitness_self (s : Stores D P L) : s.withWitness s.witness? = s.w := by
  unfold Stores.withWitness Stores.witness?
  cases s.w <;> rfl

theorem makeEvent_eventId {stream : String} {sequence : Nat} {previous : D} {eventId : String} {kind : Kind}
    {data : P} {value : Event D P}
    (made : makeEvent p stream sequence previous eventId kind data = some value) : value.eventId = eventId := by
  unfold makeEvent at made
  dsimp only at made
  split at made
  · cases made
    rfl
  · cases made

variable [DecidableEq D] [DecidableEq P]

theorem Observations.load_synced {file : File (JRow D P)} (loaded : Observations.load p stream file = some o) :
    o.journal.file = file ∧ o.Synced := by
  unfold Observations.load at loaded
  obtain ⟨journal, opened, rest⟩ := Option.bind_eq_some_iff.1 loaded
  obtain ⟨lists, read, built⟩ := Option.bind_eq_some_iff.1 rest
  unfold Journal.load at opened
  split at opened
  · cases opened
    cases built
    have same := loadRows_eq p read
    rw [List.nil_append, List.nil_append] at same
    exact ⟨rfl, congrArg Prod.fst same, congrArg Prod.snd same⟩
  · cases opened

theorem Witness.load_synced {file : File (WRow D P)} {w : Witness D P} (loaded : Witness.load p file = some w) :
    w.journal.file = file ∧ w.Synced := by
  unfold Witness.load at loaded
  obtain ⟨journal, opened, rest⟩ := Option.bind_eq_some_iff.1 loaded
  obtain ⟨lists, read, built⟩ := Option.bind_eq_some_iff.1 rest
  unfold Journal.load at opened
  split at opened
  · cases opened
    cases built
    have same := loadWitness_eq p read
    rw [List.nil_append] at same
    exact ⟨rfl, same⟩
  · cases opened

variable [DecidableEq L]

theorem Stores.Inv.append (inv : s.Inv p) (up : s.j = .up o) (eventId : String) (kind : Kind) (data : P)
    (faults : Faults) :
    Inv p ⟨.up (o.append p s.witness? eventId kind data faults).2.1,
      s.withWitness (o.append p s.witness? eventId kind data faults).2.2⟩ := by
  unfold Observations.append
  split
  · -- a redelivery writes nothing
    next old found =>
    dsimp only
    generalize named : (if old.kind ≠ kind ∨ old.data ≠ data then o.fail else o) = latched
    have quiet : latched.journal = o.journal ∧ latched.events = o.events ∧ latched.acks = o.acks ∧
        (o.failed = true → latched.failed = true) := by
      rw [← named]
      split
      · exact ⟨rfl, rfl, rfl, fun _ => rfl⟩
      · exact ⟨rfl, rfl, rfl, id⟩
    obtain ⟨journal, events, acks, failed⟩ := quiet
    split
    · rw [Stores.withWitness_self]
      exact inv.of_quiet up journal events acks failed
    · obtain ⟨retained, looked⟩ :=
        Observations.coverage_state (p := p) (o := latched) (Observations.reach p s.witness? faults)
      rw [Stores.withWitness_self, looked]
      exact inv.of_quiet up journal events acks failed
  next unseen =>
  dsimp only
  obtain ⟨retained, looked⟩ :=
    Observations.coverage_state (p := p) (o := o) (Observations.reach p s.witness? faults)
  rw [looked]
  have watched : Inv p { s with j := .up { o with retained } } := inv.of_quiet up rfl rfl rfl id
  split
  · rw [Stores.withWitness_self]
    exact watched
  next covered =>
  obtain ⟨w, running, agreed⟩ := inv.agreed up (by simpa using covered)
  split
  · rw [Stores.withWitness_self]
    exact watched
  next value made =>
  have fresh : ∀ e ∈ o.events, e.eventId ≠ value.eventId := by
    intro e mem same
    have differs := List.find?_eq_none.1 unseen e mem
    rw [makeEvent_eventId made] at same
    exact differs (decide_eq_true same)
  have kept : Agreed p { o with retained } w :=
    ⟨agreed.complete, agreed.events, ⟨agreed.j.events, agreed.j.acks⟩, agreed.w⟩
  have witness : s.witness? = some w := by rw [Stores.witness?, running]
  rw [witness]
  obtain ⟨w', answered, paired⟩ := Observations.record_paired kept fresh faults
  rw [answered]
  exact paired.inv

theorem Stores.Inv.step {call : Call P} (inv : s.Inv p) (stepped : s.step p stream call = some t) : t.Inv p := by
  cases call with
  | startJ =>
      simp only [Stores.step] at stepped
      split at stepped
      · cases stepped
      next file down =>
      obtain ⟨o, loaded, rfl⟩ := Option.map_eq_some_iff.1 stepped
      obtain ⟨rfl, synced⟩ := Observations.load_synced loaded
      refine ⟨fun k mem seen here => ?_, ?_, inv.w⟩
      · have same : k = o.journal.file.lists := by
          rcases List.mem_pair.1 mem with rfl | rfl
          · rfl
          · exact synced.lists.symm
        rw [same]
        refine inv.aligned o.journal.file.lists ?_ seen here
        rw [Stores.kept, down]
        exact List.mem_singleton_self _
      · rintro _ ⟨⟩
        exact .inr synced
  | startW =>
      simp only [Stores.step] at stepped
      split at stepped
      · cases stepped
      next file down =>
      obtain ⟨w, loaded, rfl⟩ := Option.map_eq_some_iff.1 stepped
      obtain ⟨rfl, synced⟩ := Witness.load_synced loaded
      refine ⟨fun k mem seen here => ?_, inv.j, ?_⟩
      · have same : seen = w.journal.file.wEvents := by
          rcases List.mem_pair.1 here with rfl | rfl
          · rfl
          · exact synced
        rw [same]
        refine inv.aligned k mem w.journal.file.wEvents ?_
        rw [Stores.seen, down]
        exact List.mem_singleton_self _
      · rintro _ ⟨⟩
        exact .inr synced
  | crashJ =>
      obtain rfl := Option.some.inj stepped
      refine ⟨fun k mem => ?_, fun _ up => (nomatch up), inv.w⟩
      rw [List.mem_singleton.1 mem]
      exact inv.aligned _ s.jFile_kept
  | crashW =>
      obtain rfl := Option.some.inj stepped
      refine ⟨fun k mem seen here => ?_, inv.j, fun _ up => (nomatch up)⟩
      rw [List.mem_singleton.1 here]
      exact inv.aligned k mem _ s.wFile_seen
  | append eventId kind data faults =>
      simp only [Stores.step] at stepped
      split at stepped
      · cases stepped
      next o up =>
      obtain rfl := Option.some.inj stepped
      exact inv.append up eventId kind data faults
  | coverage faults =>
      simp only [Stores.step] at stepped
      split at stepped
      · cases stepped
      next o up =>
      obtain rfl := Option.some.inj stepped
      obtain ⟨retained, looked⟩ :=
        Observations.coverage_state (p := p) (o := o) (Observations.reach p s.witness? faults)
      rw [looked]
      exact inv.of_quiet up rfl rfl rfl id

theorem Stores.Inv.reachable (reached : (stores p stream).Reachable s) : s.Inv p := by
  refine System.Reachable.invariant (fun s initial => ?_) (fun s call t inv stepped => inv.step stepped) reached
  obtain ⟨j, w⟩ := s
  obtain ⟨rfl, rfl⟩ := initial
  refine ⟨fun k mem seen here => ?_, fun _ up => (nomatch up), fun _ up => (nomatch up)⟩
  rw [List.mem_singleton.1 mem, List.mem_singleton.1 here]
  exact .nil p

/-- **J and W stay within one event.**  What is said of J's lists and W's holds on the
files and in the memory of the processes alike. -/
theorem stores_within_one (reached : (stores p stream).Reachable s) :
    (∀ kept ∈ s.kept, ∀ seen ∈ s.seen, seen <+: kept.1 ∧ kept.1.length ≤ seen.length + 1) ∧
    (∀ kept ∈ s.kept, kept.2 <+: kept.1.map (acknowledgement p) ∧ kept.1.length ≤ kept.2.length + 1) ∧
    ∀ o faults, s.j = .up o → (o.coverage p (Observations.reach p s.witness? faults)).1 = true →
      (∀ kept ∈ s.kept, kept = (o.events, o.events.map (acknowledgement p))) ∧
      ∀ seen ∈ s.seen, seen = o.events := by
  have inv := Stores.Inv.reachable reached
  refine ⟨fun kept mem seen here => ?_, fun kept mem => ?_, fun o faults up covered => ?_⟩
  · have aligned := inv.aligned kept mem seen here
    exact ⟨aligned.witnessed, aligned.pending.trans (Nat.succ_le_succ aligned.acked)⟩
  · have aligned := inv.aligned kept mem _ s.wFile_seen
    refine ⟨?_, aligned.pending⟩
    rw [aligned.inOrder, List.map_take]
    exact List.take_prefix _ _
  · obtain ⟨w, running, agreed⟩ := inv.agreed up covered
    refine ⟨fun kept mem => ?_, fun seen here => ?_⟩
    · rw [Stores.kept, up] at mem
      rw [← agreed.complete]
      rcases List.mem_pair.1 mem with rfl | rfl
      · exact agreed.j.lists
      · rfl
    · rw [Stores.seen, running] at here
      rcases List.mem_pair.1 here with rfl | rfl
      · rw [← agreed.w, agreed.events]
      · exact agreed.events

end Runs

/-! ## A run -/

/-- Digests that are numbers, one for each event id. -/
def plainProtocol : Protocol Nat Nat Nat where
  zero := 0
  hash _ sequence previous _ _ data := previous * 8 + sequence + data
  fits _ := true
  small _ := true
  liability _ := some 0
  merge retained reported := some (max retained reported)
  nothing := 0
  identity := "w"

def noFaults : Faults := ⟨false, none, none, false, none, none, false, none⟩

/-- One event goes through; W's reply to the next is lost, and both are started again. -/
theorem stores_within_one_reply_lost :
    ∃ s : Stores Nat Nat Nat, (stores plainProtocol "j").Reachable s ∧
      (s.kept.map fun kept => (kept.1.length, kept.2.length)) = [(2, 1), (2, 1)] ∧
      (s.seen.map List.length) = [2, 2] ∧
      ∀ kept ∈ s.kept, ∀ seen ∈ s.seen, seen <+: kept.1 ∧ kept.1.length ≤ seen.length + 1 := by
  obtain ⟨s, run, shown⟩ := System.Run.exists_of_map Stores.Init (Stores.step plainProtocol "j")
    ⟨.down ⟨[], false⟩, .down ⟨[], false⟩⟩
    [.startJ, .startW, .append "a" .bootstrap 1 noFaults,
      .append "b" .barrier 2 { noFaults with reply := true }, .crashJ, .crashW, .startW, .startJ]
    (fun s => ((s.kept.map fun kept => (kept.1.length, kept.2.length)), s.seen.map List.length))
    ([(2, 1), (2, 1)], [2, 2]) (by decide +kernel)
  have reached : (stores plainProtocol "j").Reachable s := ⟨_, _, ⟨rfl, rfl⟩, run⟩
  obtain ⟨kept, seen⟩ := Prod.mk.inj shown
  exact ⟨s, reached, kept, seen, (stores_within_one reached).1⟩

end ApiSecurityPlatform.Broker
