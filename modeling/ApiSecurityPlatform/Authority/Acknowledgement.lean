/-
# Authority.Acknowledgement -- acknowledged rows and what reopening finds

The journal in memory moves on only when an append succeeds, the file also when it fails.  As
long as no append succeeds behind bytes that are not its own frame, the acknowledged rows are
the leading frames of the file (`Kept`, `appendAll_kept`), whatever fails; so they are read again
in their order (`acknowledged_rows_lead`).

`unsynced_row_leads`: a row behind a whole frame that was never acknowledged is not read again.
-/
import ApiSecurityPlatform.Authority.Journal

namespace ApiSecurityPlatform.Authority

open ApiSecurityPlatform.Theory
open ApiSecurityPlatform.Python
open ApiSecurityPlatform.Ports
open ApiSecurityPlatform.Proposals (Bytes Floats canonical halfFloats)

set_option autoImplicit false

/-- One call of `append`, with what the disk does. -/
structure Call (F : Type) where
  payload : Json F
  disk : Disk

section Runs

variable {F : Type} (D : Floats F) (sha256 : Bytes → Str)

/-- The rows that the calls return, and the journal behind them. -/
def appendAll : List (Call F) → Journal F → List (Json F) × Journal F
  | [], j => ([], j)
  | call :: rest, j =>
      match append D sha256 call.disk call.payload j with
      | (.ok row, k) => (row :: (appendAll rest k).1, (appendAll rest k).2)
      | (.error _, k) => appendAll rest k

/-- Nothing is behind the acknowledged rows, or a whole frame of the row that is to be written. -/
def Clear (j : Journal F) (payload : Json F) : Prop :=
  j.file.drop j.bytes = [] ∨ frameOf D (j.row D sha256 payload) <+: j.file.drop j.bytes

/-- Every call that succeeds finds its place clear. -/
def ClearAlong : List (Call F) → Journal F → Prop
  | [], _ => True
  | call :: rest, j =>
      match append D sha256 call.disk call.payload j with
      | (.ok _, k) => Clear D sha256 j call.payload ∧ ClearAlong rest k
      | (.error _, k) => ClearAlong rest k

/-- The rows lead the file, and the journal stands behind them. -/
structure Kept (first rows : List (Json F)) (j : Journal F) : Prop where
  entries : j.entries = first ++ rows
  split : ∃ data behind, j.file = data ++ behind ∧ data.length = j.bytes ∧
    Frames (readFrame D sha256) .start data ⟨first ++ rows.map Json.sorted, j.head, j.bytes⟩
  head : j.head.length = 64
  room : j.bytes ≤ maximumFile

variable {D sha256}

theorem Kept.opened (hashes : ∀ raw, (sha256 raw).length = 64) {file : Bytes} {j : Journal F}
    (opened : openJournal D sha256 file = .ok j) : Kept D sha256 j.entries [] j ∧ j.file.length = j.bytes := by
  obtain ⟨small, s, frames, rfl⟩ := (openJournal_ok D).1 opened
  obtain ⟨bytes, head⟩ := frames_progress D frames
  have all : s.bytes = file.length := bytes.trans (Nat.zero_add _)
  have linked : s.head.length = 64 := by
    rcases head with rfl | ⟨raw, hashed⟩
    · exact List.length_replicate
    · rw [hashed, hashes]
  refine ⟨⟨(List.append_nil _).symm, ⟨file, [], (List.append_nil _).symm, all.symm, ?_⟩, linked, ?_⟩, all.symm⟩
  · rw [List.map_nil, List.append_nil]
    exact frames
  · show s.bytes ≤ maximumFile
    rw [all]
    exact small

/-- A call that raises leaves the rows where they are. -/
theorem Kept.grown {first rows : List (Json F)} {j : Journal F} (kept : Kept D sha256 first rows j) (written : Bytes) :
    Kept D sha256 first rows { j with file := j.file ++ written } := by
  obtain ⟨data, behind, file, bytes, frames⟩ := kept.split
  exact ⟨kept.entries, ⟨data, behind ++ written, by rw [← List.append_assoc, ← file], bytes, frames⟩, kept.head, kept.room⟩

/-- Behind the rows the frame of the next one is read. -/
theorem Kept.reads (hashes : ∀ raw, (sha256 raw).length = 64) {first rows : List (Json F)} {j : Journal F}
    (kept : Kept D sha256 first rows j) {payload : Json F} (readable : Readable D payload)
    (few : j.entries.length < 65536) (small : (canonical D payload).length ≤ 4096) (behind : Bytes) :
    readFrame D sha256 ⟨first ++ rows.map Json.sorted, j.head, j.bytes⟩ (frameOf D (j.row D sha256 payload) ++ behind) =
      .ok (⟨first ++ rows.map Json.sorted ++ [(j.row D sha256 payload).sorted],
        digestOf D sha256 (undigested (j.entries.length + 1) j.head payload),
        j.bytes + (frameOf D (j.row D sha256 payload)).length⟩, behind) := by
  have count : (first ++ rows.map Json.sorted).length = j.entries.length := by
    rw [kept.entries, List.length_append, List.length_append, List.length_map]
  have next := readFrame_row D hashes (s := ⟨first ++ rows.map Json.sorted, j.head, j.bytes⟩) (by rwa [count]) kept.head
    readable small behind
  dsimp only at next
  rw [count] at next
  exact next

/-- **One acknowledged row more.** -/
theorem Kept.acknowledged (hashes : ∀ raw, (sha256 raw).length = 64) {first rows : List (Json F)} {j : Journal F}
    (kept : Kept D sha256 first rows j) {payload : Json F} (readable : Readable D payload)
    (few : j.entries.length < 65536) (small : (canonical D payload).length ≤ 4096)
    (room : j.bytes + (frameOf D (j.row D sha256 payload)).length ≤ maximumFile) (clear : Clear D sha256 j payload) :
    Kept D sha256 first (rows ++ [j.row D sha256 payload]) (j.acknowledged D sha256 payload) := by
  obtain ⟨data, behind, file, bytes, frames⟩ := kept.split
  have more := frames.more (frameOf_ne_nil D _) (kept.reads hashes readable few small)
  refine ⟨?_, ⟨data ++ frameOf D (j.row D sha256 payload), ?_⟩, hashes _, room⟩
  · show j.entries ++ [j.row D sha256 payload] = _
    rw [kept.entries, List.append_assoc]
  · have behind_ : j.file.drop j.bytes = behind := by rw [file, List.drop_left' bytes]
    rw [Clear, behind_] at clear
    -- the frame that is read is the new one, or the copy that stood there
    obtain ⟨left, written⟩ : ∃ left, behind ++ frameOf D (j.row D sha256 payload) =
        frameOf D (j.row D sha256 payload) ++ left := by
      rcases clear with rfl | ⟨left, rfl⟩
      · exact ⟨[], by rw [List.nil_append, List.append_nil]⟩
      · exact ⟨left ++ frameOf D (j.row D sha256 payload), by rw [List.append_assoc]⟩
    refine ⟨left, ?_, ?_, ?_⟩
    · show j.file ++ _ = _
      rw [file, List.append_assoc, written, List.append_assoc]
    · show _ = j.bytes + _
      rw [List.length_append, bytes]
    · rw [List.map_append, List.map_singleton, ← List.append_assoc]
      exact more

variable (D sha256) (U : Decimals)

/-- **Whatever fails, the acknowledged rows lead the file.** -/
theorem appendAll_kept (hashes : ∀ raw, (sha256 raw).length = 64) {first rows : List (Json F)} {j : Journal F}
    (kept : Kept D sha256 first rows j) (calls : List (Call F)) (payloads : ∀ call ∈ calls, Payload D U call.payload)
    (clear : ClearAlong D sha256 calls j) :
    Kept D sha256 first (rows ++ (appendAll D sha256 calls j).1) (appendAll D sha256 calls j).2 := by
  induction calls generalizing rows j with
  | nil =>
      rw [appendAll, List.append_nil]
      exact kept
  | cons call rest ih =>
      obtain ⟨payload, others⟩ := List.forall_mem_cons.1 payloads
      rw [ClearAlong] at clear
      rw [appendAll]
      rcases append_cases D sha256 call.disk call.payload j with ⟨e, written, raised, -⟩ | ⟨done, few, small, room⟩
      · rw [raised] at clear ⊢
        exact ih (kept.grown written) others clear
      · rw [done] at clear ⊢
        have more := ih (kept.acknowledged hashes (payload.readable D U) few small room clear.1) others clear.2
        rwa [List.append_assoc] at more

/-- Without failures nothing is left behind the acknowledged rows. -/
theorem appendAll_sound {j : Journal F} (full : j.file.length = j.bytes) (calls : List (Call F))
    (sound : ∀ call ∈ calls, call.disk.Sound) :
    ClearAlong D sha256 calls j ∧ (appendAll D sha256 calls j).2.file.length = (appendAll D sha256 calls j).2.bytes ∧
      (appendAll D sha256 calls j).2.opened = j.opened := by
  induction calls generalizing j with
  | nil => exact ⟨trivial, full, rfl⟩
  | cons call rest ih =>
      obtain ⟨first, others⟩ := List.forall_mem_cons.1 sound
      rw [ClearAlong, appendAll]
      rcases append_cases D sha256 call.disk call.payload j with ⟨e, written, raised, none_⟩ | ⟨done, -⟩
      · rw [raised]
        obtain rfl := none_ first
        exact ih (by rw [List.append_nil]; exact full) others
      · rw [done]
        obtain ⟨clear, full', opened⟩ := ih (j := j.acknowledged D sha256 call.payload)
          (by show (j.file ++ _).length = j.bytes + _; rw [List.length_append, full]) others
        exact ⟨⟨.inl (List.drop_of_length_le (Nat.le_of_eq full)), clear⟩, full', opened⟩

/-- **Acknowledged rows stay readable** as long as every append that succeeds finds nothing, or
a whole frame of its own, behind the acknowledged rows: they are the first rows of the file, a
file that opens has them in their order, and without failures it opens with the same entries,
head and size. -/
theorem acknowledged_rows_lead (hashes : ∀ raw, (sha256 raw).length = 64) {file : Bytes} {j : Journal F}
    (opened : openJournal D sha256 file = .ok j) (calls : List (Call F))
    (payloads : ∀ call ∈ calls, Payload D U call.payload) :
    (ClearAlong D sha256 calls j →
      (appendAll D sha256 calls j).2.entries = j.entries ++ (appendAll D sha256 calls j).1 ∧
      j.entries ++ (appendAll D sha256 calls j).1.map Json.sorted <+:
        (leading D sha256 (appendAll D sha256 calls j).2.file).2.entries ∧
      ∀ k, openJournal D sha256 (appendAll D sha256 calls j).2.file = .ok k →
        j.entries ++ (appendAll D sha256 calls j).1.map Json.sorted <+: k.entries) ∧
    ((∀ call ∈ calls, call.disk.Sound) →
      openJournal D sha256 (appendAll D sha256 calls j).2.file = .ok { (appendAll D sha256 calls j).2 with
        entries := j.entries ++ (appendAll D sha256 calls j).1.map Json.sorted }) := by
  obtain ⟨kept, full⟩ := Kept.opened hashes opened
  have openedFlag : j.opened = true := by
    obtain ⟨-, s, -, rfl⟩ := (openJournal_ok D).1 opened
    rfl
  constructor
  · intro clear
    have kept' := appendAll_kept D sha256 U hashes kept calls payloads clear
    rw [List.nil_append] at kept'
    obtain ⟨data, behind, split, -, frames⟩ := kept'.split
    have lead : j.entries ++ (appendAll D sha256 calls j).1.map Json.sorted <+:
        (leading D sha256 (appendAll D sha256 calls j).2.file).2.entries := by
      rw [leading, split, readFrames_append (consumes_readFrame D) frames]
      exact entries_prefix D sha256 ⟨_, _, _⟩ behind
    refine ⟨kept'.entries, lead, fun k reopened => ?_⟩
    obtain ⟨-, s, whole, rfl⟩ := (openJournal_ok D).1 reopened
    rw [leading, readFrames_whole (consumes_readFrame D) whole] at lead
    exact lead
  · intro sound
    obtain ⟨clear, full', same⟩ := appendAll_sound D sha256 full calls sound
    have kept' := appendAll_kept D sha256 U hashes kept calls payloads clear
    rw [List.nil_append] at kept'
    obtain ⟨data, behind, split, bytes, frames⟩ := kept'.split
    have none_ : behind = [] := by
      rw [split, List.length_append, bytes] at full'
      exact List.eq_nil_of_length_eq_zero (by omega)
    rw [none_, List.append_nil] at split
    refine (openJournal_ok D).2 ⟨?_, _, by rw [split]; exact frames, ?_⟩
    · rw [full']
      exact kept'.room
    · rw [openedFlag] at same
      rw [← same]

variable {D sha256}

/-- A call whose frame goes to the file as a whole. -/
theorem append_whole {j : Journal F} {payload : Json F} (opened : j.opened = true) (few : j.entries.length < 65536)
    (small : (canonical D payload).length ≤ 4096)
    (room : j.bytes + (frameOf D (j.row D sha256 payload)).length ≤ maximumFile) (synced : Bool) :
    append D sha256 ⟨none, synced⟩ payload j =
      if synced = false then (.error .os, { j with file := j.file ++ frameOf D (j.row D sha256 payload) })
      else (.ok (j.row D sha256 payload), j.acknowledged D sha256 payload) := by
  have whole (framed : Bytes) : Disk.written ⟨none, synced⟩ framed = framed := rfl
  rw [append, Tx.bind_apply]
  dsimp only [Tx.get]
  rw [Tx.refuse_bind, if_neg (not_not.2 ⟨opened, few⟩), Tx.refuse_bind, if_neg (not_not.2 small), Tx.refuse_bind,
    if_neg (not_not.2 room), Tx.bind_apply]
  dsimp only [Tx.modify]
  rw [whole, Tx.refuse_bind, if_neg (not_not.2 rfl), Tx.refuse_bind]
  rfl

/-- **A whole frame that no fsync confirmed takes the place of the next row**, for good. -/
theorem unsynced_row_leads (hashes : ∀ raw, (sha256 raw).length = 64) {first rows : List (Json F)} {j : Journal F}
    (kept : Kept D sha256 first rows j) (full : j.file.length = j.bytes) {lost other : Json F}
    (readable : Readable D lost) (few : j.entries.length < 65536) (small : (canonical D lost).length ≤ 4096)
    (apart : lost.sorted ≠ other.sorted) :
    ¬ first ++ rows.map Json.sorted ++ [(j.row D sha256 other).sorted] <+:
      (leading D sha256 (j.file ++ frameOf D (j.row D sha256 lost) ++ frameOf D (j.row D sha256 other))).2.entries := by
  obtain ⟨data, behind, file, bytes, frames⟩ := kept.split
  have none_ : behind = [] := by
    rw [file, List.length_append, bytes] at full
    exact List.eq_nil_of_length_eq_zero (by omega)
  rw [none_, List.append_nil] at file
  have lead := entries_prefix D sha256 ⟨first ++ rows.map Json.sorted ++ [(j.row D sha256 lost).sorted],
    digestOf D sha256 (undigested (j.entries.length + 1) j.head lost),
    j.bytes + (frameOf D (j.row D sha256 lost)).length⟩ (frameOf D (j.row D sha256 other))
  rw [leading, file, readFrames_append (consumes_readFrame D) 
    (frames.more (frameOf_ne_nil D _) (kept.reads hashes readable few small))]
  intro lead'
  have same := List.append_cancel_left ((List.prefix_of_prefix_length_le lead lead' (by simp)).eq_of_length (by simp))
  have row := List.head_eq_of_cons_eq same
  rw [Journal.row, Journal.row, rowOf_sorted, rowOf_sorted] at row
  have members := Json.object.inj row
  simp only [List.cons.injEq, Prod.mk.injEq] at members
  exact apart members.2.1.2

end Runs

section Poles

/-- A digest that tells nothing apart. -/
private def oneDigest : Bytes → Str := fun _ => noHead

private theorem oneDigest_length (raw : Bytes) : (oneDigest raw).length = 64 := List.length_replicate

private def firstEvent : Json Unit := acceptedEvent ['k'] ['1'] ['b']

private def secondEvent : Json Unit := acceptedEvent ['k'] ['2'] ['b']

private def newJournal : Journal Unit := ⟨true, [], [], noHead, 0⟩

private theorem newJournal_opened : openJournal halfFloats oneDigest [] = .ok newJournal := rfl

private theorem first_room (j : Journal Unit) (none_ : j.entries = []) (head : j.head = noHead) (bytes : j.bytes = 0)
    (payload : Json Unit) (small : (canonical halfFloats payload).length ≤ 4096) :
    j.bytes + (frameOf halfFloats (j.row halfFloats oneDigest payload)).length ≤ maximumFile := by
  have one : 1 ≤ 65536 := by decide
  have linked : noHead.length = 64 := by decide
  have large := rowOf_size halfFloats oneDigest_length one linked small
  rw [bytes, frameOf, List.length_append, pack_length, Journal.row, none_, head, maximumFile]
  exact Nat.le_trans (Nat.add_le_add_left (Nat.add_le_add_left large 4) 0) (by decide)

/-- What the file has after an append whose fsync failed. -/
private def unsynced (payload : Json Unit) : Journal Unit :=
  { newJournal with file := newJournal.file ++ frameOf halfFloats (newJournal.row halfFloats oneDigest payload) }

/-- An append of `lost` whose fsync fails, and one of `other` that succeeds. -/
private def lostThen (lost other : Json Unit) : List (Call Unit) := [⟨lost, ⟨none, false⟩⟩, ⟨other, ⟨none, true⟩⟩]

private theorem append_lost {lost : Json Unit} (small : (canonical halfFloats lost).length ≤ 4096) :
    append halfFloats oneDigest ⟨none, false⟩ lost newJournal = (.error .os, unsynced lost) := by
  have failed := @append_whole _ halfFloats oneDigest newJournal lost rfl (by decide) small
    (first_room newJournal rfl rfl rfl lost small) false
  rwa [if_pos rfl] at failed

private theorem append_behind {lost other : Json Unit} (small : (canonical halfFloats other).length ≤ 4096) :
    append halfFloats oneDigest ⟨none, true⟩ other (unsynced lost) =
      (.ok (newJournal.row halfFloats oneDigest other), (unsynced lost).acknowledged halfFloats oneDigest other) := by
  have stored := @append_whole _ halfFloats oneDigest (unsynced lost) other rfl (by show 0 < 65536; decide) small
    (first_room _ rfl rfl rfl other small) true
  rwa [if_neg (fun lost => nomatch lost)] at stored

private theorem appendAll_lostThen {lost other : Json Unit} (small : (canonical halfFloats lost).length ≤ 4096)
    (small' : (canonical halfFloats other).length ≤ 4096) :
    appendAll halfFloats oneDigest (lostThen lost other) newJournal =
      ([newJournal.row halfFloats oneDigest other], (unsynced lost).acknowledged halfFloats oneDigest other) := by
  rw [lostThen, appendAll, append_lost small]
  dsimp only
  rw [appendAll, append_behind small']
  rfl

/-- The retry writes the frame again that is there already. -/
private theorem clearAlong_retry {lost : Json Unit} (small : (canonical halfFloats lost).length ≤ 4096) :
    ClearAlong halfFloats oneDigest (lostThen lost lost) newJournal := by
  rw [lostThen, ClearAlong, append_lost small]
  dsimp only
  rw [ClearAlong, append_behind small]
  exact ⟨.inr List.prefix_rfl, trivial⟩

private theorem firstEvent_small : (canonical halfFloats firstEvent).length ≤ 4096 := by decide

/-- Two events of a new journal on a sound disk; and an event whose fsync fails, and that is appended again. -/
theorem acknowledged_rows_lead_events :
    openJournal halfFloats oneDigest (appendAll halfFloats oneDigest
      [⟨firstEvent, ⟨none, true⟩⟩, ⟨secondEvent, ⟨none, true⟩⟩] newJournal).2.file =
    .ok { (appendAll halfFloats oneDigest [⟨firstEvent, ⟨none, true⟩⟩, ⟨secondEvent, ⟨none, true⟩⟩] newJournal).2 with
      entries := [] ++ (appendAll halfFloats oneDigest
        [⟨firstEvent, ⟨none, true⟩⟩, ⟨secondEvent, ⟨none, true⟩⟩] newJournal).1.map Json.sorted } ∧
    (appendAll halfFloats oneDigest (lostThen firstEvent firstEvent) newJournal).1 =
      [newJournal.row halfFloats oneDigest firstEvent] ∧
    [(newJournal.row halfFloats oneDigest firstEvent).sorted] <+: (leading halfFloats oneDigest
      (appendAll halfFloats oneDigest (lostThen firstEvent firstEvent) newJournal).2.file).2.entries := by
  have rows := congrArg Prod.fst (appendAll_lostThen firstEvent_small firstEvent_small)
  have retried (lost : Json Unit) (small : (canonical halfFloats lost).length ≤ 4096)
      (payload : Payload halfFloats asciiDigits lost) : [(newJournal.row halfFloats oneDigest lost).sorted] <+:
        (leading halfFloats oneDigest (appendAll halfFloats oneDigest (lostThen lost lost) newJournal).2.file).2.entries := by
    have payloads : ∀ call ∈ lostThen lost lost, Payload halfFloats asciiDigits call.payload := by
      intro call mem
      simp only [lostThen, List.mem_cons, List.not_mem_nil, or_false] at mem
      rcases mem with rfl | rfl
      · exact payload
      · exact payload
    obtain ⟨-, lead, -⟩ := (acknowledged_rows_lead halfFloats oneDigest asciiDigits oneDigest_length newJournal_opened
      (lostThen lost lost) payloads).1 (clearAlong_retry small)
    rw [appendAll_lostThen small small] at lead ⊢
    exact lead
  refine ⟨?_, rows, retried firstEvent firstEvent_small (.accepted ['k'] ['1'] ['b'])⟩
  refine (acknowledged_rows_lead halfFloats oneDigest asciiDigits oneDigest_length newJournal_opened _ ?_).2 ?_
  · intro call mem
    simp only [List.mem_cons, List.not_mem_nil, or_false] at mem
    rcases mem with rfl | rfl
    · exact .accepted ['k'] ['1'] ['b']
    · exact .accepted ['k'] ['2'] ['b']
  · intro call mem
    simp only [List.mem_cons, List.not_mem_nil, or_false] at mem
    rcases mem with rfl | rfl <;> exact ⟨rfl, rfl⟩

/-- An fsync fails and the next append succeeds: the row it returns is not among the leading
frames of the file. -/
theorem overtaken_row_unread :
    openJournal halfFloats oneDigest [] = .ok newJournal ∧ Payload halfFloats asciiDigits firstEvent ∧
    Payload halfFloats asciiDigits secondEvent ∧
    (appendAll halfFloats oneDigest [⟨firstEvent, ⟨none, false⟩⟩, ⟨secondEvent, ⟨none, true⟩⟩] newJournal).1 =
      [newJournal.row halfFloats oneDigest secondEvent] ∧
    ¬ [(newJournal.row halfFloats oneDigest secondEvent).sorted] <+: (leading halfFloats oneDigest
      (appendAll halfFloats oneDigest [⟨firstEvent, ⟨none, false⟩⟩, ⟨secondEvent, ⟨none, true⟩⟩] newJournal).2.file).2.entries := by
  have small' : (canonical halfFloats secondEvent).length ≤ 4096 := by decide
  have payload : Payload halfFloats asciiDigits firstEvent := .accepted ['k'] ['1'] ['b']
  have run := appendAll_lostThen firstEvent_small small'
  rw [lostThen] at run
  obtain ⟨kept, full⟩ := Kept.opened oneDigest_length newJournal_opened
  have apart : firstEvent.sorted ≠ secondEvent.sorted := by
    intro same
    have value (s : Str) : Json.get (acceptedEvent ['k'] s ['b'] : Json Unit).sorted.asMembers "event_id".toList =
        .string s := by
      rw [acceptedEvent, Json.sorted_object, Json.asMembers, Json.get_sorted (by
        show ["kind".toList, "key_digest".toList, "event_id".toList, "body_digest".toList].Nodup
        decide)]
      rfl
    have other := (value ['1']).symm.trans ((congrArg (fun v => Json.get v.asMembers "event_id".toList) same).trans
      (value ['2']))
    cases other
  have unread := unsynced_row_leads oneDigest_length kept full (payload.readable halfFloats asciiDigits) (by decide)
    firstEvent_small apart
  refine ⟨newJournal_opened, payload, .accepted ['k'] ['2'] ['b'], by rw [run], ?_⟩
  have file : ((unsynced firstEvent).acknowledged halfFloats oneDigest secondEvent).file =
      newJournal.file ++ frameOf halfFloats (newJournal.row halfFloats oneDigest firstEvent) ++
        frameOf halfFloats (newJournal.row halfFloats oneDigest secondEvent) := rfl
  have front : newJournal.entries ++ List.map Json.sorted [] ++
      [(newJournal.row halfFloats oneDigest secondEvent).sorted] =
      [(newJournal.row halfFloats oneDigest secondEvent).sorted] := rfl
  rw [run]
  dsimp only
  rw [file]
  rwa [front] at unread

end Poles

end ApiSecurityPlatform.Authority
