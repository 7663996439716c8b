/-
# Authority.Journal -- an append-only journal of length frames

`append` writes a frame and lets the fsync return before it acknowledges the row; a frame that
was written in part, or that no fsync confirmed, stays in the file.  `readFrame` reads a frame
back, and `openJournal` the whole file.

* `append_cases`: what a call does to the file, and when it acknowledges;
* `readFrame_row`: the frame of a row is read back, whatever lies behind it.
-/
import ApiSecurityPlatform.Ports.Extent
import ApiSecurityPlatform.Ports.Ipc
import ApiSecurityPlatform.Theory.Frames

namespace ApiSecurityPlatform.Authority

open ApiSecurityPlatform.Theory
open ApiSecurityPlatform.Python
open ApiSecurityPlatform.Ports
open ApiSecurityPlatform.Proposals (Bytes Failure Floats Limits boundedJson boundedJson_canonical canonical canonicalSize
  canonical_length membersSize size size_append size_cons size_escapeChar size_literal)

set_option autoImplicit false

inductive JournalError where
  | port (code : PortCode)
  /-- A `ProposalRejected` of `bounded_json`. -/
  | json (failure : Failure)
  /-- An `OSError` of the file. -/
  | os
deriving DecidableEq

/-- What the disk does with one append. -/
structure Disk where
  /-- The most bytes `os.write` takes, if there is a bound. -/
  room : Option Nat
  /-- `os.fsync` returns. -/
  synced : Bool
deriving DecidableEq

/-- What `os.write` leaves in the file. -/
def Disk.written (disk : Disk) (framed : Bytes) : Bytes := disk.room.elim framed framed.take

/-- Neither a short write nor an fsync error. -/
def Disk.Sound (disk : Disk) : Prop := disk.room = none ∧ disk.synced = true

structure Journal (F : Type) where
  /-- `fd` is not `None`. -/
  opened : Bool
  file : Bytes
  entries : List (Json F)
  head : Str
  bytes : Nat

/-- What the loop of `__init__` has read. -/
structure Progress (F : Type) where
  entries : List (Json F)
  head : Str
  bytes : Nat

/-- `'0'*64`. -/
def noHead : Str := List.replicate 64 '0'

def Progress.start {F : Type} : Progress F := ⟨[], noHead, 0⟩

def maximumFile : Nat := 64 * 1024 * 1024

def rowLimits : Limits := ⟨8192, 8, 2048⟩

section Rows

variable {F : Type} (D : Floats F) (sha256 : Bytes → Str)

/-- `v == n` in Python, of a positive `n`. -/
def equalsNat (v : Json F) (n : Nat) : Bool :=
  match v with
  | .bool b => b && n == 1
  | .number m =>
      let token := m.token D.toDoubles
      !token.neg && token.unscaled * 10 ^ (token.power - (intToken n).power).toNat ==
        (intToken n).unscaled * 10 ^ ((intToken n).power - token.power).toNat
  | _ => false

/-- `v == s` in Python. -/
def equalsText (v : Json F) (s : Str) : Bool :=
  match v with
  | .string t => t == s
  | _ => false

/-- `sha256(canonical(members)).hexdigest()`. -/
def digestOf (members : List (Str × Json F)) : Str := sha256 (canonical D (.object members))

/-- A row before it has its digest. -/
def undigested (sequence : Nat) (previous : Str) (payload : Json F) : List (Str × Json F) :=
  [("sequence".toList, .number (.int sequence)), ("previous".toList, .string previous), ("payload".toList, payload)]

def rowOf (sequence : Nat) (previous : Str) (payload : Json F) : Json F :=
  .object (undigested sequence previous payload ++
    [("digest".toList, .string (digestOf D sha256 (undigested sequence previous payload)))])

/-- `struct.pack('!I', len(raw)) + raw`. -/
def frameOf (row : Json F) : Bytes := pack (canonical D row).length ++ canonical D row

def rowKeys : List Str := ["sequence".toList, "previous".toList, "payload".toList, "digest".toList]

/-- One round of the loop of `__init__`. -/
def readFrame (s : Progress F) (rest : Bytes) : Except JournalError (Progress F × Bytes) := do
  let header := rest.take 4
  refuse (¬ header.length = 4) (.port .observerUnavailable)
  let length := ofDigits 256 (header.map UInt8.toNat)
  refuse (¬ (0 < length ∧ length ≤ 8192)) (.port .observerUnavailable)
  let raw := (rest.drop 4).take length
  refuse (¬ raw.length = length) (.port .observerUnavailable)
  let row ← (boundedJson D rowLimits .outputLimit raw).mapError .json
  refuse (¬ (row.asMembers.map Prod.fst ⊆ rowKeys ∧ rowKeys ⊆ row.asMembers.map Prod.fst)) (.port .observerUnavailable)
  let digest := digestOf D sha256 (row.asMembers.filter fun m => m.1 != "digest".toList)
  let get := fun key : String => Json.get row.asMembers key.toList
  refuse (¬ (equalsNat D (get "sequence") (s.entries.length + 1) = true ∧ equalsText (get "previous") s.head = true ∧
    equalsText (get "digest") digest = true)) (.port .observerUnavailable)
  return (⟨s.entries ++ [row], digest, s.bytes + (length + 4)⟩, (rest.drop 4).drop length)

/-- The leading well-formed frames of a file, and how the reading ended. -/
def leading (file : Bytes) : Except JournalError Unit × Progress F := readFrames (readFrame D sha256) .start file

/-- `Journal.__init__`, of a file that can be opened and locked.  `self.bytes < size` is that
something is left. -/
def openJournal (file : Bytes) : Except JournalError (Journal F) := do
  refuse (¬ file.length ≤ maximumFile) (.port .observerUnavailable)
  (leading D sha256 file).1
  let read := (leading D sha256 file).2
  return ⟨true, file, read.entries, read.head, read.bytes⟩

/-- The row `append` writes. -/
def Journal.row (j : Journal F) (payload : Json F) : Json F := rowOf D sha256 (j.entries.length + 1) j.head payload

/-- `append`. -/
def append (disk : Disk) (payload : Json F) : Tx JournalError (Journal F) (Json F) := do
  let j ← Tx.get
  Tx.refuse (¬ (j.opened = true ∧ j.entries.length < 65536)) (.port .observerUnavailable)
  Tx.refuse (¬ (canonical D payload).length ≤ 4096) (.port .limitExceeded)
  let row := j.row D sha256 payload
  let digest := digestOf D sha256 (undigested (j.entries.length + 1) j.head payload)
  let framed := frameOf D row
  Tx.refuse (¬ j.bytes + framed.length ≤ maximumFile) (.port .observerUnavailable)
  Tx.modify fun j => { j with file := j.file ++ disk.written framed }
  Tx.refuse (¬ (disk.written framed).length = framed.length) (.port .observerUnavailable)
  Tx.refuse (disk.synced = false) .os
  Tx.modify fun j => { j with entries := j.entries ++ [row], head := digest, bytes := j.bytes + framed.length }
  return row

/-! ## What is journaled -/

/-- The event of `EndpointWitness.accepted_once`. -/
def acceptedEvent (keyDigest eventId bodyDigest : Str) : Json F :=
  .object [("kind".toList, .string "ACCEPTED".toList), ("key_digest".toList, .string keyDigest),
    ("event_id".toList, .string eventId), ("body_digest".toList, .string bodyDigest)]

/-- The event of `EndpointWitness.head`. -/
def headEvent (sequence : Nat) (digest : Str) : Json F :=
  .object [("kind".toList, .string "HEAD".toList), ("sequence".toList, .number (.int sequence)),
    ("digest".toList, .string digest)]

variable (U : Decimals)

/-- Documents of records, and witness events.  `head` is told rows of a journal, and a journal
has no more than 65536. -/
inductive Payload : Json F → Prop where
  | record {name : Name} {raw : Bytes} {r : Frozen} (decoded : decode D U name raw = .ok r) : Payload r.document
  | accepted (keyDigest eventId bodyDigest : Str) : Payload (acceptedEvent keyDigest eventId bodyDigest)
  | head {sequence : Nat} (digest : Str) (few : sequence ≤ 65536) : Payload (headEvent sequence digest)

/-- What the limits of a row need of its payload. -/
structure Readable (v : Json F) : Prop where
  distinct : v.Distinct
  short : v.Short
  height : v.height ≤ 7
  values : canonicalSize D v ≤ 4096 → v.values ≤ 2044

theorem nat_text {n : Nat} (few : n ≤ 65536) : (intToken n).text.length ≤ 5 := by
  rw [Number.int_text, if_neg (by omega), List.nil_append, Int.natAbs_natCast]
  exact (Nat.length_toDigits_le_iff (by decide) (by decide)).2 (by omega)

theorem Payload.readable {v : Json F} (payload : Payload D U v) : Readable D v := by
  cases payload with
  | @record name raw r decoded =>
      rw [decode] at decoded
      cases layout : Layout.of name with
      | mk name' fields =>
          rw [layout] at decoded
          obtain ⟨v, accepted, typed, -, froze⟩ := (decodeLayout_ok D U).1 decoded
          rw [freeze_document froze]
          obtain ⟨before, text, after, -, -, -, written⟩ := accepted.text
          have deep := typed.height D U accepted.distinct
          have low := height_of name
          rw [layout] at low
          have many := record_values D U typed
          exact ⟨accepted.distinct, Proposals.ValueText.short D v written, Nat.le_trans deep (Nat.le_trans low (by decide)),
            fun small => by omega⟩
  | accepted keyDigest eventId bodyDigest =>
      refine ⟨⟨?_, trivial, trivial, trivial, trivial, trivial⟩, ⟨trivial, trivial, trivial, trivial, trivial⟩, ?_,
        fun _ => ?_⟩
      · show ["kind".toList, "key_digest".toList, "event_id".toList, "body_digest".toList].Nodup
        decide
      · show 1 ≤ 7
        decide
      · show 5 ≤ 2044
        decide
  | @head sequence digest few =>
      refine ⟨⟨?_, trivial, trivial, trivial, trivial⟩, ⟨trivial, ?_, trivial, trivial⟩, ?_, fun _ => ?_⟩
      · show ["kind".toList, "sequence".toList, "digest".toList].Nodup
        decide
      · exact Nat.le_trans (nat_text few) (by decide)
      · show 1 ≤ 7
        decide
      · show 4 ≤ 2044
        decide

/-! ## A row is read back -/

variable {sha256}

theorem size_closeString_le (s : Str) : size (closeString s) ≤ 6 * s.length + 1 := by
  induction s with
  | nil => decide
  | cons c rest ih =>
      have one := size_escapeChar c
      rw [closeString, size_append, List.length_cons]
      omega

theorem size_le (s : Str) : size s ≤ 4 * s.length := by
  induction s with
  | nil => exact Nat.le_refl 0
  | cons c rest ih =>
      have four := c.utf8Size_le_four
      rw [size_cons, List.length_cons]
      omega

variable (sha256) in
theorem rowOf_sorted (sequence : Nat) (previous : Str) (payload : Json F) :
    (rowOf D sha256 sequence previous payload).sorted = .object [
      ("digest".toList, .string (digestOf D sha256 (undigested sequence previous payload))),
      ("payload".toList, payload.sorted), ("previous".toList, .string previous),
      ("sequence".toList, .number (.int sequence))] := rfl

theorem rowOf_size (hashes : ∀ raw, (sha256 raw).length = 64) {sequence : Nat} (few : sequence ≤ 65536) {previous : Str}
    (linked : previous.length = 64) {payload : Json F} (small : (canonical D payload).length ≤ 4096) :
    (canonical D (rowOf D sha256 sequence previous payload)).length ≤ 8192 := by
  have first := size_closeString_le previous
  have second := size_closeString_le (digestOf D sha256 (undigested sequence previous payload))
  rw [digestOf, hashes] at second
  rw [linked] at first
  have keys : size (closeString "sequence".toList) = 9 ∧ size (closeString "previous".toList) = 9 ∧
      size (closeString "payload".toList) = 8 ∧ size (closeString "digest".toList) = 7 := by decide +kernel
  obtain ⟨one, two, three, four⟩ := keys
  have number := Nat.le_trans (size_le (intToken (sequence : Int)).text) (Nat.mul_le_mul_left 4 (nat_text few))
  rw [canonical_length] at small ⊢
  show 1 + (1 + size (closeString "sequence".toList) + 1 + size (intToken (sequence : Int)).text + 1 +
    (1 + size (closeString "previous".toList) + 1 + (1 + size (closeString previous)) + 1 +
    (1 + size (closeString "payload".toList) + 1 + canonicalSize D payload + 1 +
    (1 + size (closeString "digest".toList) + 1 +
      (1 + size (closeString (sha256 (canonical D (.object (undigested sequence previous payload)))))) + 1 + 0)))) ≤ 8192
  omega

variable (sha256) in
theorem rowOf_readable {sequence : Nat} (few : sequence ≤ 65536) (previous : Str) {payload : Json F}
    (readable : Readable D payload) (small : (canonical D payload).length ≤ 4096) :
    (rowOf D sha256 sequence previous payload).Distinct ∧ (rowOf D sha256 sequence previous payload).Short ∧
      (rowOf D sha256 sequence previous payload).height ≤ 8 ∧
      (rowOf D sha256 sequence previous payload).values ≤ 2048 := by
  have many := readable.values (by rwa [← canonical_length])
  have deep := readable.height
  refine ⟨⟨?_, trivial, trivial, readable.distinct, trivial, trivial⟩,
    ⟨Nat.le_trans (nat_text few) (by decide), trivial, readable.short, trivial, trivial⟩, ?_, ?_⟩
  · show ["sequence".toList, "previous".toList, "payload".toList, "digest".toList].Nodup
    decide
  · show max 1 (max 1 (max (payload.height + 1) (max 1 0))) ≤ 8
    omega
  · show 1 + (1 + (1 + (payload.values + (1 + 0)))) ≤ 2048
    omega

/-- A row comes back from its bytes, with its members sorted. -/
theorem boundedJson_row (hashes : ∀ raw, (sha256 raw).length = 64) {sequence : Nat} (few : sequence ≤ 65536)
    {previous : Str} (linked : previous.length = 64) {payload : Json F} (readable : Readable D payload)
    (small : (canonical D payload).length ≤ 4096) :
    boundedJson D rowLimits .outputLimit (canonical D (rowOf D sha256 sequence previous payload)) =
      .ok (rowOf D sha256 sequence previous payload).sorted := by
  obtain ⟨distinct, short, height, values⟩ := rowOf_readable D sha256 few previous readable small
  exact boundedJson_canonical D rowLimits .outputLimit _ rfl distinct short (rowOf_size D hashes few linked small) height
    values

theorem equalsNat_self (n : Nat) : equalsNat D (.number (.int n)) n = true := by
  show (!decide ((n : Int) < 0) && _ == _) = true
  rw [decide_eq_false (by omega)]
  exact beq_self_eq_true _

/-- The digest is taken again from what was read. -/
theorem remaining_digest (sequence : Nat) (previous : Str) (payload digest : Json F) :
    digestOf D sha256 ((Json.asMembers (.object [("digest".toList, digest), ("payload".toList, payload.sorted),
      ("previous".toList, .string previous), ("sequence".toList, .number (.int sequence))])).filter
        fun m => m.1 != "digest".toList) = digestOf D sha256 (undigested sequence previous payload) := by
  have sorted : (Json.object (undigested sequence previous payload)).sorted = .object [("payload".toList, payload.sorted),
      ("previous".toList, .string previous), ("sequence".toList, .number (.int sequence))] := rfl
  rw [digestOf, digestOf, ← canonical_sorted D (.object (undigested sequence previous payload)), sorted]
  rfl

/-- **The frame of a row is read back, whatever lies behind it.** -/
theorem readFrame_row (hashes : ∀ raw, (sha256 raw).length = 64) {s : Progress F} (few : s.entries.length < 65536)
    (linked : s.head.length = 64) {payload : Json F} (readable : Readable D payload)
    (small : (canonical D payload).length ≤ 4096) (behind : Bytes) :
    readFrame D sha256 s (frameOf D (rowOf D sha256 (s.entries.length + 1) s.head payload) ++ behind) =
      .ok (⟨s.entries ++ [(rowOf D sha256 (s.entries.length + 1) s.head payload).sorted],
        digestOf D sha256 (undigested (s.entries.length + 1) s.head payload),
        s.bytes + (frameOf D (rowOf D sha256 (s.entries.length + 1) s.head payload)).length⟩, behind) := by
  have read := boundedJson_row D hashes (Nat.succ_le_of_lt few) linked readable small
  have large := rowOf_size D hashes (Nat.succ_le_of_lt few) linked small
  have some_ := canonical_pos D (rowOf D sha256 (s.entries.length + 1) s.head payload)
  have rest := rowOf_sorted D sha256 (s.entries.length + 1) s.head payload
  generalize rowOf D sha256 (s.entries.length + 1) s.head payload = row at *
  have four := pack_length (canonical D row).length
  have number : ofDigits 256 ((pack (canonical D row).length).map UInt8.toNat) = (canonical D row).length :=
    ofDigits_pack (Nat.lt_of_le_of_lt large (by decide))
  have front : (frameOf D row ++ behind).take 4 = pack (canonical D row).length := by
    rw [frameOf, List.append_assoc, List.take_left' four]
  have back : (frameOf D row ++ behind).drop 4 = canonical D row ++ behind := by
    rw [frameOf, List.append_assoc, List.drop_left' four]
  unfold readFrame
  dsimp only
  rw [front, back, four, number, List.take_left' rfl, List.drop_left' rfl, read, seq_ok, refuse_ok, seq_ok, refuse_ok,
    seq_ok, refuse_ok, bind_ok]
  refine ⟨not_not.2 rfl, not_not.2 ⟨some_, large⟩, not_not.2 rfl, row.sorted, rfl, ?_⟩
  rw [rest, seq_ok, refuse_ok, seq_ok, refuse_ok, remaining_digest]
  have keys : ["digest".toList, "payload".toList, "previous".toList, "sequence".toList] ⊆ rowKeys ∧
      rowKeys ⊆ ["digest".toList, "payload".toList, "previous".toList, "sequence".toList] := by decide
  refine ⟨not_not.2 keys, not_not.2 ⟨equalsNat_self D _, beq_self_eq_true s.head, beq_self_eq_true _⟩, ?_⟩
  rw [frameOf, List.length_append, four, Nat.add_comm 4]
  rfl

/-- **What reading a frame does**: it takes the frame, whatever lies behind it, and adds its row. -/
theorem readFrame_cases {s t : Progress F} {rest left : Bytes} (read : readFrame D sha256 s rest = .ok (t, left)) :
    ∃ frame row, rest = frame ++ left ∧ 4 ≤ frame.length ∧ t.entries = s.entries ++ [row] ∧
      t.bytes = s.bytes + frame.length ∧ (∃ raw, t.head = sha256 raw) ∧
      ∀ behind, readFrame D sha256 s (frame ++ behind) = .ok (t, behind) := by
  have again := read
  unfold readFrame at read
  dsimp only at read
  rw [seq_ok, refuse_ok, not_not, seq_ok, refuse_ok, not_not, seq_ok, refuse_ok, not_not, bind_ok] at read
  obtain ⟨four, ⟨some_, large⟩, whole, row, parsed, read⟩ := read
  rw [seq_ok, refuse_ok, not_not, seq_ok, refuse_ok, not_not] at read
  obtain ⟨keys, linked, read⟩ := read
  obtain ⟨rfl, rfl⟩ := Prod.mk.inj (Except.ok.inj read)
  refine ⟨rest.take 4 ++ (rest.drop 4).take (ofDigits 256 ((rest.take 4).map UInt8.toNat)), row, ?_, ?_, rfl, ?_,
    ⟨_, rfl⟩, fun behind => ?_⟩
  · rw [List.append_assoc, List.take_append_drop, List.take_append_drop]
  · rw [List.length_append, four]
    exact Nat.le_add_right 4 _
  · rw [List.length_append, four, whole, Nat.add_comm 4]
  · have front : ((rest.take 4 ++ (rest.drop 4).take (ofDigits 256 ((rest.take 4).map UInt8.toNat))) ++ behind).take 4 =
        rest.take 4 := by rw [List.append_assoc, List.take_left' four]
    have back : ((rest.take 4 ++ (rest.drop 4).take (ofDigits 256 ((rest.take 4).map UInt8.toNat))) ++ behind).drop 4 =
        (rest.drop 4).take (ofDigits 256 ((rest.take 4).map UInt8.toNat)) ++ behind := by
      rw [List.append_assoc, List.drop_left' four]
    unfold readFrame
    dsimp only
    rw [front, back, List.take_left' whole, List.drop_left' whole, seq_ok, refuse_ok, not_not, seq_ok, refuse_ok, not_not,
      seq_ok, refuse_ok, not_not, bind_ok]
    refine ⟨four, ⟨some_, large⟩, whole, row, parsed, ?_⟩
    rw [seq_ok, refuse_ok, not_not, seq_ok, refuse_ok, not_not]
    exact ⟨keys, linked, rfl⟩

theorem frameOf_ne_nil (row : Json F) : frameOf D row ≠ [] := by
  intro empty
  have length := congrArg List.length empty
  rw [frameOf, List.length_append, pack_length] at length
  exact Nat.succ_ne_zero _ ((Nat.add_comm _ _).trans length)

theorem consumes_readFrame : Consumes (readFrame D sha256) := by
  intro s data t left read
  obtain ⟨frame, row, rfl, some_, -⟩ := readFrame_cases D read
  rw [List.length_append]
  omega

variable (sha256) in
/-- Reading never takes a row back. -/
theorem entries_prefix (s : Progress F) (data : Bytes) :
    s.entries <+: (readFrames (readFrame D sha256) s data).2.entries := by
  refine readFrames_keeps (R := fun s t : Progress F => s.entries <+: t.entries) (fun s => List.prefix_refl _)
    (fun s t u => List.IsPrefix.trans) (fun s data t left read => ?_) s data
  obtain ⟨frame, row, -, -, entries, -⟩ := readFrame_cases D read
  exact ⟨[row], entries.symm⟩

/-! ## Opening -/

theorem openJournal_ok {file : Bytes} {j : Journal F} :
    openJournal D sha256 file = .ok j ↔ file.length ≤ maximumFile ∧ ∃ s,
      Frames (readFrame D sha256) .start file s ∧ j = ⟨true, file, s.entries, s.head, s.bytes⟩ := by
  rw [openJournal, seq_ok, refuse_ok, not_not, seq_ok]
  refine and_congr_right fun _ => ?_
  constructor
  · rintro ⟨whole, made⟩
    refine ⟨(leading D sha256 file).2, ?_, (Except.ok.inj made).symm⟩
    refine frames_of_readFrames (consumes_readFrame D) (fun s data t left read => ?_) (Prod.ext whole rfl)
    obtain ⟨frame, row, split, -, -, -, -, again⟩ := readFrame_cases D read
    exact ⟨frame, split, again⟩
  · rintro ⟨s, frames, rfl⟩
    have read : leading D sha256 file = (.ok (), s) := readFrames_whole (consumes_readFrame D) frames
    rw [read]
    exact ⟨rfl, rfl⟩

/-- What whole frames leave. -/
theorem frames_progress {s t : Progress F} {data : Bytes} (frames : Frames (readFrame D sha256) s data t) :
    t.bytes = s.bytes + data.length ∧ (t = s ∨ ∃ raw, t.head = sha256 raw) := by
  induction frames with
  | none => exact ⟨rfl, .inl rfl⟩
  | @more t u data frame before some_ last ih =>
      obtain ⟨frame', row, split, -, -, bytes, hashed, -⟩ := readFrame_cases D (last [])
      rw [List.append_nil, List.append_nil] at split
      subst split
      refine ⟨?_, .inr hashed⟩
      rw [bytes, ih.1, List.length_append, Nat.add_assoc]

/-! ## Appending -/

variable (sha256)

/-- The journal behind an acknowledged row. -/
def Journal.acknowledged (j : Journal F) (payload : Json F) : Journal F :=
  { j with
    file := j.file ++ frameOf D (j.row D sha256 payload)
    entries := j.entries ++ [j.row D sha256 payload]
    head := digestOf D sha256 (undigested (j.entries.length + 1) j.head payload)
    bytes := j.bytes + (frameOf D (j.row D sha256 payload)).length }

/-- **What a call does**: it acknowledges a row that is whole in the file, or raises and leaves
some bytes there. -/
theorem append_cases (disk : Disk) (payload : Json F) (j : Journal F) :
    (∃ e written, append D sha256 disk payload j = (.error e, { j with file := j.file ++ written }) ∧
      (disk.Sound → written = [])) ∨
    append D sha256 disk payload j = (.ok (j.row D sha256 payload), j.acknowledged D sha256 payload) ∧
      j.entries.length < 65536 ∧ (canonical D payload).length ≤ 4096 ∧
      j.bytes + (frameOf D (j.row D sha256 payload)).length ≤ maximumFile := by
  have unwritten : j = { j with file := j.file ++ [] } := by rw [List.append_nil]
  rw [append, Tx.bind_apply]
  dsimp only [Tx.get]
  rw [Tx.refuse_bind]
  split
  · exact .inl ⟨_, [], by rw [← unwritten], fun _ => rfl⟩
  next serving =>
  rw [Tx.refuse_bind]
  split
  · exact .inl ⟨_, [], by rw [← unwritten], fun _ => rfl⟩
  next small =>
  rw [Tx.refuse_bind]
  split
  · exact .inl ⟨_, [], by rw [← unwritten], fun _ => rfl⟩
  next room =>
  rw [Tx.bind_apply]
  dsimp only [Tx.modify]
  rw [Tx.refuse_bind]
  split
  · next short =>
    refine .inl ⟨_, disk.written (frameOf D (j.row D sha256 payload)), rfl, fun sound => (short ?_).elim⟩
    rw [Disk.written, sound.1]
    rfl
  next full =>
  have whole : disk.written (frameOf D (j.row D sha256 payload)) = frameOf D (j.row D sha256 payload) := by
    unfold Disk.written at full ⊢
    cases bound : disk.room with
    | none => rfl
    | some n =>
        rw [bound] at full
        exact List.take_of_length_le (by
          have taken : (List.take n (frameOf D (j.row D sha256 payload))).length =
            (frameOf D (j.row D sha256 payload)).length := not_not.1 full
          rw [List.length_take] at taken
          omega)
  rw [whole, Tx.refuse_bind]
  split
  · next lost =>
    refine .inl ⟨_, frameOf D (j.row D sha256 payload), rfl, fun sound => ?_⟩
    rw [sound.2] at lost
    cases lost
  · exact .inr ⟨rfl, (not_not.1 serving).2, not_not.1 small, not_not.1 room⟩

end Rows

end ApiSecurityPlatform.Authority
