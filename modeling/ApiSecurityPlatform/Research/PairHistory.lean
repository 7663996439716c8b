/-
# Research.PairHistory -- pairs in every reachable state

`verify_pair` is the only writer of pairs, and a trigger refuses every change of a row of an
intent or of a pair.  Whatever else happens to the tables between its calls (`Elsewhere`), a
stored pair says what the witnesses under its references say (`Stored`), and there is one for an
intent.  So a call that returns has a qualified pair behind its outcome, whether it made the
pair or found it (`pair_qualified`).
-/
import ApiSecurityPlatform.Research.PairBacking
import Mathlib.Logic.Function.Basic

namespace ApiSecurityPlatform.Research.PairVerification

open ApiSecurityPlatform.Theory
open ApiSecurityPlatform.Python (Str)
open ApiSecurityPlatform.Research.VerificationClock

set_option autoImplicit false

section

variable {R : Type} (E : Setting R)

/-! ## The system -/

/-- The keys of the intents, which are unique. -/
structure Keys (db : Db R) : Prop where
  ids : (db.intents.map IntentRow.id).Nodup
  versions : (db.intents.map fun row => (row.contextId, row.number, row.version)).Nodup

/-- What the other services may do: anything but to touch a pair, to change an intent or to
delete one. -/
structure Elsewhere (db db' : Db R) : Prop where
  pairs : db'.pairs = db.pairs
  intents : ∀ row ∈ db.intents, row ∈ db'.intents
  keys : Keys db'

/-- The tables, and the fences of the clocks. -/
structure World (R : Type) where
  db : Db R
  store : Store

inductive Event where
  | verified
  | refused
  | elsewhere

/-- A call of `verify_pair` commits or rolls back; a fence stays in both cases. -/
def pairSystem : System (World R) Event where
  init w := w.db.pairs = [] ∧ Keys w.db
  step w event w' :=
    match event with
    | .verified => ∃ project ctx p s value t, s.clock.store = w.store ∧
        verifyPair E w.db project ctx p s = (.ok (value, w'.db), t) ∧ w'.store = t.clock.store
    | .refused => ∃ project ctx p s e t, s.clock.store = w.store ∧
        verifyPair E w.db project ctx p s = (.error e, t) ∧ w' = ⟨w.db, t.clock.store⟩
    | .elsewhere => Elsewhere w.db w'.db

/-! ## Stored pairs -/

/-- A pair says what two witnesses say whose digests it has. -/
def Stored (db : Db R) (pair : PairRow) : Prop :=
  ∃ core ∈ db.intents, ∃ baseline probe expected, Says core baseline probe expected pair ∧
    secondExpected core = .ok expected ∧ E.witnessDigest baseline.body = baseline.digest ∧
    ∀ w ∈ probe, E.witnessDigest w.body = w.digest

structure Sound (w : World R) : Prop where
  keys : Keys w.db
  once : (w.db.pairs.map PairRow.intentId).Nodup
  stored : ∀ pair ∈ w.db.pairs, Stored E w.db pair

variable {E}

theorem Consumed.digest {db : Db R} {ctx : Int} {core : IntentRow} {reference : EvidenceRef} {role : Role} {row : WitnessRow}
    (consumed : Consumed E db ctx core reference role row) : E.witnessDigest row.body = row.digest := by
  obtain ⟨original, passed, -⟩ := consumed.witnessed
  obtain ⟨-, ⟨from_⟩⟩ := witness_ok passed
  exact from_.digests.1

theorem Stored.mono {db db' : Db R} {pair : PairRow} (stored : Stored E db pair)
    (intents : ∀ row ∈ db.intents, row ∈ db'.intents) : Stored E db' pair := by
  obtain ⟨core, mem, rest⟩ := stored
  exact ⟨core, intents core mem, rest⟩

theorem sound_step {w w' : World R} {event : Event} (sound : Sound E w) (step : (pairSystem E).step w event w') :
    Sound E w' := by
  cases event with
  | elsewhere =>
      have change : Elsewhere w.db w'.db := step
      refine ⟨change.keys, by rw [change.pairs]; exact sound.once, fun pair mem => ?_⟩
      rw [change.pairs] at mem
      exact (sound.stored pair mem).mono change.intents
  | refused =>
      obtain ⟨_, _, _, _, _, _, -, -, rfl⟩ := step
      exact ⟨sound.keys, sound.once, sound.stored⟩
  | verified =>
      obtain ⟨project, ctx, p, s, value, t, -, ran, -⟩ := step
      obtain ⟨core, baseline, probe, expected, verified, intents, pair, -, -, change⟩ := verifyPair_ok ran
      have keys : Keys w'.db := ⟨by rw [intents]; exact sound.keys.ids, by rw [intents]; exact sound.keys.versions⟩
      have kept : ∀ row ∈ w.db.intents, row ∈ w'.db.intents := fun row mem => by rw [intents]; exact mem
      rcases change with ⟨-, -, pairs, -, -⟩ | ⟨fresh, pairs, made⟩
      · refine ⟨keys, by rw [pairs]; exact sound.once, fun old mem => ?_⟩
        rw [pairs] at mem
        exact (sound.stored old mem).mono kept
      · refine ⟨keys, ?_, fun old mem => ?_⟩
        · rw [pairs, List.map_append, List.nodup_append]
          refine ⟨sound.once, List.nodup_singleton _, ?_⟩
          intro id mem id' mem' same
          obtain ⟨old, inside, rfl⟩ := List.mem_map.1 mem
          obtain ⟨new, isPair, rfl⟩ := List.mem_map.1 mem'
          obtain rfl := List.mem_singleton.1 isPair
          exact fresh old inside (same.trans made.intentId)
        · rw [pairs] at mem
          rcases List.mem_append.1 mem with before | new
          · exact (sound.stored old before).mono kept
          · obtain rfl := List.mem_singleton.1 new
            refine ⟨core, kept core verified.core_mem, baseline, probe, expected, made, verified.expected_,
              verified.first.digest, fun row inside => ?_⟩
            obtain ⟨reference, -, consumed⟩ := verified.second row inside
            exact consumed.digest

theorem sound_reachable {w : World R} (reach : (pairSystem E).Reachable w) : Sound E w := by
  refine reach.invariant (fun w start => ?_) fun w event w' sound step => sound_step sound step
  obtain ⟨none_, keys⟩ := start
  refine ⟨keys, by rw [none_]; exact List.nodup_nil, fun pair mem => ?_⟩
  rw [none_] at mem
  nomatch mem

/-! ## A qualified pair -/

/-- What stands behind the outcome of a pair when a call returns in the state `t`. -/
structure Backing (E : Setting R) (db : Db R) (ctx : Int) (p : PairInput) (body : PairBody) (t : Session) where
  core : IntentRow
  baseline : WitnessRow
  probe : WitnessRow
  baselineFrom : Provenance E db ctx baseline core
  probeFrom : Provenance E db ctx probe core
  business : core.body.purpose = .business
  current : core.reference = p.intent ∧ Newest db core
  named : p.baseline = baseline.ref ∧ p.probe = some probe.ref
  roles : baselineFrom.member.role = .baseline ∧ probeFrom.member.role = .probe
  distinct : baseline.planId ≠ probe.planId
  approved : currentApproval db core baseline.planId = .ok () ∧ currentApproval db core probe.planId = .ok ()
  qualified : baseline.body.temporalStatus = .qualified ∧ probe.body.temporalStatus = .qualified
  read : baseline.body.outcome = .objectRead
  determined : ∃ expected, secondExpected core = .ok expected ∧ body.expectedAccess = expected ∧
    (body.outcome, body.reason) = pairOutcome expected .objectRead (some probe.body.outcome)
  refs : body.baseline = baseline.ref ∧ body.probe = some probe.ref
  domain : baseline.body.complete.clockDomain = E.domain ∧ probe.body.send.clockDomain = E.domain
  wall : ∃ complete sent, E.timestamp baseline.body.complete.written = some complete ∧
    E.timestamp probe.body.send.written = some sent ∧ complete ≤ sent
  ticks : ∃ complete sent, baseline.body.complete.monotonicNs = some complete ∧
    probe.body.send.monotonicNs = some sent ∧ complete ≤ sent
  /-- The last reading is less than thirty seconds after the baseline, on both clocks. -/
  fresh : ∃ at_ ns complete completeNs, t.clock.last = some (at_, ns) ∧
    E.timestamp baseline.body.complete.written = some complete ∧
    baseline.body.complete.monotonicNs = some completeNs ∧
    (0 ≤ at_ - complete ∧ at_ - complete < 30 * 1000000) ∧ (0 ≤ ns - completeNs ∧ ns - completeNs < 30 * 1000000000)

theorem eq_of_id {db : Db R} (keys : Keys db) {row other : IntentRow} (mem : row ∈ db.intents) (mem' : other ∈ db.intents)
    (same : row.id = other.id) : row = other :=
  List.inj_on_of_nodup_map keys.ids mem mem' same

/-- The provenance of a consumed witness, in the intent of the call. -/
theorem Consumed.provenance {db : Db R} (keys : Keys db) {ctx : Int} {core : IntentRow} (mem : core ∈ db.intents)
    {reference : EvidenceRef} {role : Role} {row : WitnessRow} (consumed : Consumed E db ctx core reference role row) :
    row.ref = reference ∧ Nonempty (Provenance E db ctx row core) := by
  obtain ⟨original, passed, same⟩ := consumed.witnessed
  obtain ⟨named, ⟨from_⟩⟩ := witness_ok passed
  obtain rfl := eq_of_id keys from_.core_mem mem same
  exact ⟨named, ⟨from_⟩⟩

/-- An outcome that is not inconclusive needs a baseline that was read, and a probe. -/
theorem pairOutcome_conclusive {expected : Str} {baseline : Outcome} {probe : Option Outcome}
    (conclusive : (pairOutcome expected baseline probe).1 ≠ .inconclusive) : baseline = .objectRead ∧ probe ≠ none := by
  unfold pairOutcome at conclusive
  split at conclusive
  · exact absurd rfl conclusive
  split at conclusive
  · exact absurd rfl conclusive
  next read =>
  refine ⟨not_not.1 read, ?_⟩
  rintro rfl
  rw [if_neg (fun same => nomatch same), if_neg (fun same => nomatch same)] at conclusive
  exact absurd rfl conclusive

/-- What the receipt says is what the witnesses of this call say. -/
theorem determined {db db' : Db R} (free : Function.Injective E.witnessDigest) {w : World R} (sound : Sound E w)
    (tables : w.db = db) {ctx : Int} {p : PairInput} {t : Session} {core : IntentRow} {baseline : WitnessRow}
    {probe : Option WitnessRow} {expected : Str} (verified : Verified E db ctx p t core baseline probe expected)
    {pair : PairRow}
    (change : (pair ∈ db.pairs ∧ pair.intentId = core.id ∧ db'.pairs = db.pairs ∧ pair.body.baseline = baseline.ref ∧
        pair.body.probe = probe.map fun w => w.ref) ∨
      ((∀ old ∈ db.pairs, old.intentId ≠ core.id) ∧ db'.pairs = db.pairs ++ [pair] ∧
        Says core baseline probe expected pair)) :
    pair.body.baseline = baseline.ref ∧ pair.body.probe = (probe.map fun w => w.ref) ∧ pair.body.expectedAccess = expected ∧
      (pair.body.outcome, pair.body.reason) =
        pairOutcome expected baseline.body.outcome (probe.map fun w => w.body.outcome) := by
  subst tables
  rcases change with ⟨mem, same, -, sameBaseline, sameProbe⟩ | ⟨-, -, made⟩
  · obtain ⟨core', mem', baseline', probe', expected', said, expects, digest, digests⟩ := sound.stored pair mem
    obtain rfl := eq_of_id sound.keys mem' verified.core_mem (said.intentId.symm.trans same)
    obtain rfl := Except.ok.inj (expects.symm.trans verified.expected_)
    have bodies {row row' : WitnessRow} (one : E.witnessDigest row.body = row.digest)
        (other : E.witnessDigest row'.body = row'.digest) (ref : row.ref = row'.ref) : row.body = row'.body :=
      free (one.trans ((congrArg EvidenceRef.digest ref).trans other.symm))
    have first : baseline'.body = baseline.body :=
      bodies digest verified.first.digest (said.baselineRef.symm.trans sameBaseline)
    have second : (probe'.map fun w => w.body.outcome) = probe.map fun w => w.body.outcome := by
      have refs : (probe'.map fun w => w.ref) = probe.map fun w => w.ref := said.probeRef.symm.trans sameProbe
      cases probe' with
      | none =>
          cases probe with
          | none => rfl
          | some row => nomatch refs
      | some row' =>
          cases probe with
          | none => nomatch refs
          | some row =>
              obtain ⟨reference, -, consumed⟩ := verified.second row rfl
              have body := bodies (digests row' rfl) consumed.digest (Option.some.inj refs)
              exact congrArg (fun body : WitnessBody => some body.outcome) body
    refine ⟨sameBaseline, sameProbe, said.expected_, ?_⟩
    rw [said.outcome, first, second]
  · exact ⟨made.baselineRef, made.probeRef, made.expected_, made.outcome⟩

theorem backed (free : Function.Injective E.witnessDigest) {w : World R} (sound : Sound E w) {project ctx : Int}
    {p : PairInput} {s t : Session} {value : Receipt} {db' : Db R}
    (ran : verifyPair E w.db project ctx p s = (.ok (value, db'), t)) (conclusive : value.body.outcome ≠ .inconclusive) :
    Nonempty (Backing E w.db ctx p value.body t) := by
  obtain ⟨core, baseline, probe, expected, verified, -, pair, -, body, change⟩ := verifyPair_ok ran
  obtain ⟨baselineRef, probeRef, access, outcome⟩ := determined free sound rfl verified change
  rw [body] at conclusive ⊢
  have positive : (pairOutcome expected baseline.body.outcome (probe.map fun w => w.body.outcome)).1 ≠ .inconclusive := by
    rw [← outcome]
    exact conclusive
  obtain ⟨read, present⟩ := pairOutcome_conclusive positive
  cases probe with
  | none => exact absurd rfl present
  | some probe =>
  obtain ⟨reference, asked, second⟩ := verified.second probe rfl
  have after := verified.after probe rfl
  obtain ⟨named, ⟨baselineFrom⟩⟩ := verified.first.provenance sound.keys verified.core_mem
  obtain ⟨named', ⟨probeFrom⟩⟩ := second.provenance sound.keys verified.core_mem
  have roleBaseline : baselineFrom.member.role = .baseline := baselineFrom.role.1.symm.trans verified.first.role
  have roleProbe : probeFrom.member.role = .probe := probeFrom.role.1.symm.trans second.role
  obtain ⟨at_, ns, end_, last, start, mark, fresh⟩ := verified.fresh
  obtain ⟨sendComplete, completeClock⟩ := probeFrom.domain second.qualified
  refine ⟨{
    core, baseline, probe, baselineFrom, probeFrom
    business := verified.business
    current := ⟨verified.named, verified.newest⟩
    named := ⟨named.symm, by rw [asked, named']⟩
    roles := ⟨roleBaseline, roleProbe⟩
    distinct := fun same => ?_
    approved := ⟨verified.first.approved, second.approved⟩
    qualified := ⟨verified.first.qualified, second.qualified⟩
    read
    determined := ⟨expected, verified.expected_, access, by rw [outcome, read]; rfl⟩
    refs := ⟨baselineRef, probeRef⟩
    domain := ⟨fresh.domain_, sendComplete.trans (completeClock.trans after.domain)⟩
    wall := after.wall
    ticks := after.ticks
    fresh := ⟨at_, ns, start, mark, last, fresh.written, fresh.counted, ⟨fresh.wall, (fresh.seconds 30 rfl).1⟩,
      fresh.elapsed, (fresh.seconds 30 rfl).2⟩ }⟩
  -- one plan has one member, and a member one role
  have one : baselineFrom.member = probeFrom.member := by
    have joined := baselineFrom.joined
    rw [same, probeFrom.joined] at joined
    exact (Option.some.inj joined).symm
  rw [one, roleProbe] at roleBaseline
  nomatch roleBaseline

/-! ## Stored pairs stay -/

theorem pairs_kept {w w' : World R} {event : Event} (step : (pairSystem E).step w event w') {pair : PairRow}
    (mem : pair ∈ w.db.pairs) : pair ∈ w'.db.pairs := by
  cases event with
  | elsewhere =>
      have change : Elsewhere w.db w'.db := step
      rw [change.pairs]
      exact mem
  | refused =>
      obtain ⟨_, _, _, _, _, _, -, -, rfl⟩ := step
      exact mem
  | verified =>
      obtain ⟨_, _, _, _, _, _, -, ran, -⟩ := step
      obtain ⟨_, _, _, _, -, -, _, -, -, change⟩ := verifyPair_ok ran
      rcases change with ⟨-, -, pairs, -, -⟩ | ⟨-, pairs, -⟩
      · rw [pairs]
        exact mem
      · rw [pairs]
        exact List.mem_append_left _ mem

/-- A call for the intent of a stored pair returns that pair, and stores nothing. -/
theorem second_call {w : World R} (sound : Sound E w) {pair : PairRow} (mem : pair ∈ w.db.pairs) {project ctx : Int}
    {p : PairInput} {s t : Session} {value : Receipt} {db' : Db R}
    (ran : verifyPair E w.db project ctx p s = (.ok (value, db'), t)) {core : IntentRow} (core_mem : core ∈ w.db.intents)
    (id : core.id = pair.intentId) (context : core.contextId = ctx) (named : core.reference = p.intent) :
    value.reference = pair.ref ∧ value.body = pair.body ∧ db'.pairs = w.db.pairs := by
  obtain ⟨core', _, _, _, verified, -, found, reference, body, change⟩ := verifyPair_ok ran
  have same : core' = core := by
    refine List.inj_on_of_nodup_map sound.keys.versions verified.core_mem core_mem ?_
    have refs := verified.named.trans named.symm
    show (core'.contextId, core'.number, core'.version) = (core.contextId, core.number, core.version)
    rw [verified.context, context]
    exact congrArg (ctx, ·) (Prod.ext (congrArg Reference.number refs) (congrArg Reference.version refs))
  subst same
  rcases change with ⟨inside, theirs, pairs, -, -⟩ | ⟨fresh, -, -⟩
  · obtain rfl := List.inj_on_of_nodup_map sound.once inside mem (theirs.trans id)
    exact ⟨reference, body, pairs⟩
  · exact absurd id.symm (fresh pair mem)

/-- **A conclusive pair is backed by a qualified pair of witnesses** in every reachable state,
and a stored pair stays the only one of its intent and the only one returned for it. -/
theorem pair_qualified (E : Setting R) (free : Function.Injective E.witnessDigest) (w : World R)
    (reach : (pairSystem E).Reachable w) :
    (∀ project ctx p s value db' t, verifyPair E w.db project ctx p s = (.ok (value, db'), t) →
      value.body.outcome ≠ .inconclusive → Nonempty (Backing E w.db ctx p value.body t)) ∧
    ∀ pair ∈ w.db.pairs, ∀ trace w', (pairSystem E).Run w trace w' →
      pair ∈ w'.db.pairs ∧ (∀ other ∈ w'.db.pairs, other.intentId = pair.intentId → other = pair) ∧
      ∀ project ctx p s value db' t, verifyPair E w'.db project ctx p s = (.ok (value, db'), t) →
        ∀ core ∈ w'.db.intents, core.id = pair.intentId → core.contextId = ctx → core.reference = p.intent →
          value.reference = pair.ref ∧ value.body = pair.body ∧ db'.pairs = w'.db.pairs := by
  have sound := sound_reachable reach
  refine ⟨fun project ctx p s value db' t ran conclusive => backed free sound ran conclusive, ?_⟩
  intro pair mem trace w' run
  have sound' : Sound E w' := run.preserves (fun _ _ _ sound step => sound_step sound step) sound
  have kept : pair ∈ w'.db.pairs := run.preserves (fun _ _ _ mem step => pairs_kept step mem) mem
  refine ⟨kept, fun other inside same => List.inj_on_of_nodup_map sound'.once inside kept same, ?_⟩
  intro project ctx p s value db' t ran core core_mem id context named
  exact second_call sound' kept ran core_mem id context named

end

/-! ## One suspected violation -/

/-- Two texts as one, the first behind its length. -/
private def joined (a b : Str) : Str := List.replicate a.length '|' ++ '.' :: (a ++ b)

private theorem joined_inj {a b c d : Str} : joined a b = joined c d ↔ a = c ∧ b = d := by
  constructor
  · intro same
    have bars (a rest : Str) : (List.replicate a.length '|' ++ '.' :: rest).takeWhile (· == '|') =
        List.replicate a.length '|' := by
      rw [List.takeWhile_append_of_pos (by simp)]
      exact List.append_nil _
    have length : a.length = c.length := by
      have front := congrArg (List.takeWhile (· == '|')) same
      rw [joined, joined, bars, bars] at front
      simpa using congrArg List.length front
    rw [joined, joined, length] at same
    have tails := List.append_cancel_left same
    exact List.append_inj (List.cons.inj tails).2 length
  · rintro ⟨rfl, rfl⟩
    rfl

private def natText (n : Nat) : Str := List.replicate n '1'

private theorem natText_inj {n m : Nat} : natText n = natText m ↔ n = m :=
  ⟨fun same => by simpa [natText] using congrArg List.length same, congrArg natText⟩

private def intText : Int → Str
  | .ofNat n => '+' :: natText n
  | .negSucc n => '-' :: natText n

private theorem intText_inj {n m : Int} : intText n = intText m ↔ n = m := by
  cases n <;> cases m <;> simp [intText, natText_inj, -Int.ofNat_eq_natCast]

private def optionText {α : Type} (text : α → Str) (x : Option α) : Str := x.elim [] fun a => '!' :: text a

private theorem optionText_inj {α : Type} {text : α → Str} (inj : ∀ {a b : α}, text a = text b ↔ a = b) {x y : Option α} :
    optionText text x = optionText text y ↔ x = y := by
  cases x <;> cases y <;> simp [optionText, inj]

private def markText (m : Mark) : Str := joined m.written (joined (optionText intText m.monotonicNs) m.clockDomain)

private theorem markText_inj {m n : Mark} : markText m = markText n ↔ m = n := by
  cases m
  cases n
  simp only [markText, joined_inj, optionText_inj intText_inj, Mark.mk.injEq]

private def roleText : Role → Str
  | .baseline => ['b']
  | .probe => ['p']
  | .health => ['h']
  | .healthBaseline => ['h', 'b']
  | .healthProbe => ['h', 'p']

private theorem roleText_inj {r q : Role} : roleText r = roleText q ↔ r = q := by
  cases r <;> cases q <;> decide

private def statusText : Outcome × TemporalStatus → Str
  | (o, t) => (match o with
      | .healthy => ['h']
      | .objectRead => ['o']
      | .businessDenied => ['b']
      | .inconclusive => ['i']) ++ match t with
      | .qualified => ['q']
      | .dependencyUnavailable => ['d']
      | .networkIncomplete => ['n']
      | .clockOrDeadlineInvalid => ['c']

private theorem statusText_inj {a b : Outcome × TemporalStatus} : statusText a = statusText b ↔ a = b := by
  obtain ⟨o, t⟩ := a
  obtain ⟨o', t'⟩ := b
  cases o <;> cases t <;> cases o' <;> cases t' <;> decide

private def witnessText (b : WitnessBody) : Str :=
  joined b.protocol <| joined (intText b.intent.number) <| joined (intText b.intent.version) <|
  joined b.intent.digest <| joined b.linkDigest <| joined (natText b.attempt.id) <| joined b.attempt.digest <|
  joined (natText b.planId) <| joined (natText b.actionId) <| joined (natText b.runId) <| joined (roleText b.role) <|
  joined (optionText natText b.credentialVersionId) <| joined (markText b.send) <| joined (markText b.complete) <|
  joined (optionText intText b.responseStatus) <| joined b.requestDigest <| joined b.interpreter <|
  joined (statusText (b.outcome, b.temporalStatus)) <| joined b.eligibilityUntil <| joined b.recordedAt (markText b.clock)

private theorem witnessText_injective : Function.Injective witnessText := by
  intro a b same
  obtain ⟨_, ⟨_, _, _⟩, _, ⟨_, _⟩, _, _, _, _, _, _, _, _, _, _, _, _, _, _, _⟩ := a
  obtain ⟨_, ⟨_, _, _⟩, _, ⟨_, _⟩, _, _, _, _, _, _, _, _, _, _, _, _, _, _, _⟩ := b
  simp only [witnessText, joined_inj, natText_inj, intText_inj, roleText_inj, optionText_inj natText_inj,
    optionText_inj intText_inj, markText_inj, statusText_inj, Prod.mk.injEq] at same
  simp only [WitnessBody.mk.injEq, Reference.mk.injEq, EvidenceRef.mk.injEq]
  tauto

private def tally (n : Int) : Str := List.replicate n.toNat '1'

/-- Instants are tallies, and nothing else is asked of the intent. -/
private def plainSetting : Setting Unit where
  timestamp written := some written.length
  stamp := tally
  domain := ['d']
  definition := ['f']
  intentDigest _ := ['i']
  linkDigest _ := ['l']
  attemptDigest _ := ['a']
  witnessDigest := witnessText
  pairDigest _ := ['p']
  requestDigest text := text
  dependencies _ _ := pure []
  contract _ _ := pure []

private def tick (n : Int) : Mark := ⟨tally n, some n, ['d']⟩

private def businessIntent : IntentRow where
  id := 1
  contextId := 1
  number := 1
  version := 1
  body := ⟨"ra-intent/1".toList, 1, 1, tally 1, tally 50, .business, ⟨1, 1, []⟩, 1,
    [⟨.baseline, "allowed".toList⟩, ⟨.probe, "denied".toList⟩], ⟨1, 1, []⟩, 2⟩
  digest := ['i']
  recordedAt := 1
  validUntil := 50
  link := ⟨[], ['i'], [⟨.baseline, 1, [], 1, 1⟩, ⟨.probe, 2, [], 2, 2⟩]⟩
  linkDigest := ['l']

private def planAttempt (plan : Nat) (role : Role) : AttemptRow :=
  { id := plan, contextId := 1, digest := ['a'], recordedAt := 2, manifestId := 1, intentId := 1, planId := plan, slot := role
    body := ⟨"ra-dispatch-attempt/1".toList, ⟨1, 1, ['i']⟩, ['l'], ⟨1, 1, []⟩, plan, plan, role, [], none, none, 1, tick 2, tally 2⟩ }

private def planWitness (plan : Nat) (role : Role) (send : Int) : WitnessRow :=
  let body : WitnessBody := ⟨"ra-execution-witness/1".toList, ⟨1, 1, ['i']⟩, ['l'], ⟨plan, ['a']⟩, plan, plan, plan, role, none,
    tick send, tick (send + 1), some 200, [], ['f'], .objectRead, .qualified, tally 40, tally (send + 2), tick (send + 2)⟩
  { id := plan, contextId := 1, body, digest := witnessText body, recordedAt := send + 2, intentId := 1, planId := plan,
    runId := plan, attemptId := plan }

private def twoRuns : Db Unit where
  contexts := [⟨1, 1⟩]
  intents := [businessIntent]
  manifests := [⟨1, 1, 1, 1⟩]
  planMembers := [⟨1, .baseline, 1, 1, 1⟩, ⟨1, .probe, 2, 2, 2⟩]
  attempts := [planAttempt 1 .baseline, planAttempt 2 .probe]
  witnesses := [planWitness 1 .baseline 3, planWitness 2 .probe 6]
  runs := [⟨1, some 1, 1, some 1, none, some 200, [], none⟩, ⟨2, some 2, 2, some 1, none, some 200, [], none⟩]
  progress := [⟨1, .networkStarted, 1⟩, ⟨2, .networkStarted, 1⟩]
  revisions := [⟨1, false⟩]
  approvals := []
  plans := [⟨1, [], []⟩, ⟨2, [], []⟩]
  cancellations := []
  pairs := []
  audits := []
  sequence := 0
  rest := ()

private def twoWitnesses : PairInput :=
  ⟨⟨1, 1, ['i']⟩, (planWitness 1 .baseline 3).ref, some (planWitness 2 .probe 6).ref⟩

private def tenth : Session := ⟨.new .empty, fun _ => ⟨some 10, some 10⟩⟩

theorem pair_qualified_violation :
    ∃ value db' t, verifyPair plainSetting twoRuns 1 1 twoWitnesses tenth = (.ok (value, db'), t) ∧
      value.body.outcome = .suspectedViolation ∧ Nonempty (Backing plainSetting twoRuns 1 twoWitnesses value.body t) := by
  have outcome : (verifyPair plainSetting twoRuns 1 1 twoWitnesses tenth).1.toOption.map (fun r => r.1.body.outcome) =
      some .suspectedViolation := by
    decide +kernel
  have start : (pairSystem plainSetting).Reachable ⟨twoRuns, .empty⟩ :=
    ⟨_, [], ⟨rfl, by decide +kernel, by decide +kernel⟩, .refl _⟩
  cases ran : verifyPair plainSetting twoRuns 1 1 twoWitnesses tenth with
  | mk result t =>
      rw [ran] at outcome
      cases result with
      | error e => nomatch outcome
      | ok made =>
          have violation : made.1.body.outcome = .suspectedViolation := Option.some.inj outcome
          refine ⟨made.1, made.2, t, rfl, violation, ?_⟩
          refine (pair_qualified plainSetting witnessText_injective _ start).1 1 1 twoWitnesses tenth _ _ _ ran ?_
          rw [violation]
          decide

end ApiSecurityPlatform.Research.PairVerification
