/-
# Ports.Ipc -- frames over a socket

`send_frame` and `receive_frame` check the sizes of a frame on their own.  Their limits are
the same, so a frame that is sent is read whole and no further (`receiveFrame_sent`), whatever
the pieces it arrives in; but only the receiver reads the metadata as bounded JSON, and it
refuses an integer of more than 64 characters (`long_integer_refused`).
-/
import ApiSecurityPlatform.Ports.Time
import ApiSecurityPlatform.Proposals.Reading
import ApiSecurityPlatform.Theory.Feed

namespace ApiSecurityPlatform.Ports

open ApiSecurityPlatform.Theory
open ApiSecurityPlatform.Python
open ApiSecurityPlatform.Proposals (Bytes Failure Floats halfFloats Limits boundedJson boundedJson_iff bounded_canonical_iff
  canonical)

set_option autoImplicit false

inductive IpcError where
  | port (code : PortCode)
  /-- A `ProposalRejected` of `bounded_json`. -/
  | json (failure : Failure)
  /-- An `OSError` of the socket. -/
  | os
deriving DecidableEq

abbrev Connection := Feed IpcError UInt8

/-- `receive_exact`: `recv` of 4096 bytes at most. -/
def receiveExact (length : Nat) : Tx IpcError Connection Bytes :=
  Feed.exact (min 4096) (.port .observerUnavailable) length

/-- `struct.pack('!I', n)`. -/
def pack (n : Nat) : Bytes := (digits 256 4 n).map UInt8.ofNat

/-- `struct.unpack('!II', header)`. -/
def unpack (header : Bytes) : Nat × Nat :=
  (ofDigits 256 ((header.take 4).map UInt8.toNat), ofDigits 256 ((header.drop 4).map UInt8.toNat))

/-- The sizes both ends allow. -/
def Sized (metadata body : Nat) : Prop :=
  metadata ≤ (if body = 0 then 8192 else 4096) ∧ body ≤ 32768 ∧ 8 + metadata + body ≤ 40960

instance (metadata body : Nat) : Decidable (Sized metadata body) := by
  unfold Sized
  infer_instance

def frameLimits : Limits := ⟨8192, 8, 4096⟩

section Frames

variable {F : Type} (D : Floats F)

/-- `receive_frame`. -/
def receiveFrame : Tx IpcError Connection (Json F × Bytes) := do
  let header ← receiveExact 8
  Tx.refuse (¬ (0 < (unpack header).1 ∧ Sized (unpack header).1 (unpack header).2)) (.port .limitExceeded)
  let raw ← receiveExact (unpack header).1
  let metadata ← Tx.lift ((boundedJson D frameLimits .outputLimit raw).mapError .json)
  let body ← receiveExact (unpack header).2
  pure (metadata, body)

/-- `send_frame`, with what it gives to `sendall`. -/
def sendFrame (metadata : Json F) (body : Bytes) : Except IpcError Bytes :=
  if Sized (canonical D metadata).length body.length then
    .ok (pack (canonical D metadata).length ++ pack body.length ++ canonical D metadata ++ body)
  else .error (.port .limitExceeded)

/-- `receive_frame`, again and again. -/
def receiveFrames : Nat → Tx IpcError Connection (List (Json F × Bytes))
  | 0 => pure []
  | n + 1 => do
      let frame ← receiveFrame D
      let others ← receiveFrames n
      pure (frame :: others)

end Frames

/-! ## The header -/

theorem modest_recv : Feed.Modest (min 4096) := fun n => ⟨Nat.min_le_right _ _, by omega⟩

theorem pack_length (n : Nat) : (pack n).length = 4 := by
  rw [pack, List.length_map, length_digits]

theorem ofDigits_pack {n : Nat} (small : n < 2 ^ 32) : ofDigits 256 ((pack n).map UInt8.toNat) = n := by
  have bytes : (pack n).map UInt8.toNat = digits 256 4 n := by
    rw [pack, List.map_map]
    refine (List.map_congr_left fun d mem => ?_).trans (List.map_id _)
    have below := mem_digits (by decide : 0 < 256) mem
    exact UInt8.toNat_ofNat_of_lt' below
  rw [bytes]
  exact ofDigits_digits small

theorem unpack_pack {m b : Nat} (small : m < 2 ^ 32) (small' : b < 2 ^ 32) : unpack (pack m ++ pack b) = (m, b) := by
  rw [unpack, List.take_left' (pack_length m), List.drop_left' (pack_length m), ofDigits_pack small, ofDigits_pack small']

theorem Sized.small {m b : Nat} (sized : Sized m b) : m < 2 ^ 32 ∧ b < 2 ^ 32 := by
  obtain ⟨-, -, total⟩ := sized
  omega

section Frames

variable {F : Type} (D : Floats F)

theorem sendFrame_ok {metadata : Json F} {body frame : Bytes} :
    sendFrame D metadata body = .ok frame ↔ Sized (canonical D metadata).length body.length ∧
      frame = pack (canonical D metadata).length ++ pack body.length ++ canonical D metadata ++ body := by
  unfold sendFrame
  split
  · next sized => simp [sized, eq_comm]
  · next other => simp [other]

theorem canonical_pos (v : Json F) : 0 < (canonical D v).length := by
  obtain ⟨c, rest, lead, -⟩ := Proposals.render_solid D v.sorted
  have size := Proposals.length_le_size (v.sorted.render D.toDoubles)
  rw [lead, List.length_cons, ← lead] at size
  exact Nat.lt_of_lt_of_le (Nat.succ_pos _) size

/-! ## One frame -/

/-- A frame that was sent is read up to its metadata, and then to its end. -/
theorem receiveFrame_sent {metadata : Json F} {body frame behind : Bytes} {s : Connection}
    (sent : sendFrame D metadata body = .ok frame) (silent : s.Silent) (rest : s.rest = frame ++ behind) :
    (∀ w, boundedJson D frameLimits .outputLimit (canonical D metadata) = .ok w →
      ∃ t, receiveFrame D s = (.ok (w, body), t) ∧ t.Silent ∧ t.rest = behind) ∧
    ∀ failed, boundedJson D frameLimits .outputLimit (canonical D metadata) = .error failed →
      (receiveFrame D s).1 = .error (.json failed) := by
  obtain ⟨sized, rfl⟩ := (sendFrame_ok D).1 sent
  obtain ⟨small, small'⟩ := sized.small
  have header : (pack (canonical D metadata).length ++ pack body.length).length = 8 := by
    rw [List.length_append, pack_length, pack_length]
  have read := unpack_pack small small'
  have parts : s.rest = (pack (canonical D metadata).length ++ pack body.length) ++
      (canonical D metadata ++ (body ++ behind)) := by
    rw [rest]
    simp only [List.append_assoc]
  obtain ⟨t₁, first, took₁, rest₁⟩ := Feed.exact_returns (e := .port .observerUnavailable) modest_recv silent parts
  have silent₁ := took₁.silent silent
  obtain ⟨t₂, second, took₂, rest₂⟩ := Feed.exact_returns (e := .port .observerUnavailable) modest_recv silent₁ rest₁
  have silent₂ := took₂.silent silent₁
  obtain ⟨t₃, third, took₃, rest₃⟩ := Feed.exact_returns (e := .port .observerUnavailable) modest_recv silent₂ rest₂
  rw [header] at first
  have allowed : ¬ ¬ (0 < (canonical D metadata).length ∧ Sized (canonical D metadata).length body.length) :=
    not_not.2 ⟨canonical_pos D metadata, sized⟩
  constructor
  · intro w accepted
    refine ⟨t₃, ?_, took₃.silent silent₂, rest₃⟩
    refine Tx.bind_ok.2 ⟨_, t₁, first, ?_⟩
    rw [read]
    refine Tx.refuse_bind_ok.2 ⟨allowed, Tx.bind_ok.2 ⟨_, t₂, second, ?_⟩⟩
    refine Tx.bind_ok.2 ⟨w, t₂, Tx.lift_ok.2 ⟨by rw [accepted]; rfl, rfl⟩, ?_⟩
    exact Tx.bind_ok.2 ⟨body, t₃, third, Tx.pure_ok.2 ⟨rfl, rfl⟩⟩
  · intro failed refused
    unfold receiveFrame receiveExact
    rw [Tx.bind_apply, first]
    dsimp only
    rw [read, Tx.bind_apply, Tx.refuse, if_neg allowed]
    show (((Feed.exact (min 4096) _ (canonical D metadata).length) >>= _) t₁).1 = _
    rw [Tx.bind_apply, second]
    dsimp only
    rw [Tx.bind_apply, refused]
    rfl

/-- **No frame costs more than 40960 bytes**, however the read ends. -/
theorem receiveFrame_within : Feed.Within (receiveFrame D) 40960 := by
  refine Feed.within_bind fun s => ?_
  obtain ⟨data, took, bound⟩ := Feed.exact_within (e := .port .observerUnavailable) modest_recv s
  refine ⟨data, took, Nat.le_trans bound (by decide), fun header came => ?_⟩
  intro u
  by_cases allowed : 0 < (unpack header).1 ∧ Sized (unpack header).1 (unpack header).2
  · have total := allowed.2.2.2
    refine (Feed.within_refuse ?_).mono (show (unpack header).1 + (0 + (unpack header).2) ≤ 40960 - data.length by omega) u
    refine Feed.within_then (Feed.exact_within modest_recv) fun raw => ?_
    refine Feed.within_then (fun v => ⟨[], .refl v, Nat.zero_le _⟩) fun metadata => ?_
    exact (Feed.within_then (Feed.exact_within modest_recv) fun body => Feed.within_pure _ 0)
  · refine ⟨[], ?_, Nat.zero_le _⟩
    rw [Tx.bind_apply, Tx.refuse, if_pos allowed]
    exact .refl u

/-! ## Sequences of frames -/

/-- A dict within the limits of the receiver, its integers apart. -/
structure Sendable (metadata : Json F) : Prop where
  object : Proposals.isObject metadata = true
  distinct : metadata.Distinct
  height : metadata.height ≤ 8
  values : metadata.values ≤ 4096

theorem sent_reads {metadata : Json F} {body frame : Bytes} (sent : sendFrame D metadata body = .ok frame)
    (sendable : Sendable metadata) (short : metadata.Short) :
    boundedJson D frameLimits .outputLimit (canonical D metadata) = .ok metadata.sorted := by
  obtain ⟨⟨most, -, -⟩, -⟩ := (sendFrame_ok D).1 sent
  have size : (canonical D metadata).length ≤ 8192 := by
    split at most <;> omega
  exact (boundedJson_iff D frameLimits .outputLimit).2 ((bounded_canonical_iff D).2
    ⟨rfl, sendable.object, sendable.distinct, short, size, sendable.height, sendable.values⟩)

/-- **Frames arrive as they were sent.** -/
theorem receiveFrames_sent {frames : List (Json F × Bytes)} {raws : List Bytes}
    (sent : List.Forall₂ (fun frame raw => sendFrame D frame.1 frame.2 = .ok raw) frames raws)
    (good : ∀ frame ∈ frames, Sendable frame.1 ∧ frame.1.Short) {s : Connection} {behind : Bytes} (silent : s.Silent)
    (rest : s.rest = raws.flatten ++ behind) :
    ∃ t, receiveFrames D frames.length s = (.ok (frames.map fun frame => (frame.1.sorted, frame.2)), t) ∧
      t.rest = behind := by
  induction sent generalizing s with
  | nil => exact ⟨s, rfl, rest⟩
  | @cons frame raw frames raws first others ih =>
      obtain ⟨sendable, short⟩ := good frame List.mem_cons_self
      rw [List.flatten_cons, List.append_assoc] at rest
      obtain ⟨t, received, silent', next⟩ :=
        (receiveFrame_sent D first silent rest).1 _ (sent_reads D first sendable short)
      obtain ⟨u, more, ended⟩ := ih (fun f mem => good f (List.mem_cons_of_mem _ mem)) silent' next
      refine ⟨u, ?_, ended⟩
      exact Tx.bind_ok.2 ⟨_, t, received, Tx.bind_ok.2 ⟨_, u, more, Tx.pure_ok.2 ⟨rfl, rfl⟩⟩⟩

/-- A frame that was sent is received exactly when no integer is too long. -/
theorem receiveFrame_iff {metadata : Json F} {body raw behind : Bytes} {s : Connection}
    (sent : sendFrame D metadata body = .ok raw) (sendable : Sendable metadata) (silent : s.Silent)
    (rest : s.rest = raw ++ behind) : (∃ frame t, receiveFrame D s = (.ok frame, t)) ↔ metadata.Short := by
  obtain ⟨accepts, refuses⟩ := receiveFrame_sent D sent silent rest
  constructor
  · rintro ⟨frame, t, received⟩
    cases read : boundedJson D frameLimits .outputLimit (canonical D metadata) with
    | ok w => exact ((bounded_canonical_iff D).1 ((boundedJson_iff D frameLimits .outputLimit).1 read)).2.2.2.1
    | error failed =>
        have refused := refuses failed read
        rw [received] at refused
        cases refused
  · intro short
    obtain ⟨t, received, -, -⟩ := accepts _ (sent_reads D sent sendable short)
    exact ⟨_, t, received⟩

/-- **IPC frames round-trip under any fragmentation**, where no integer of the metadata has more
than 64 characters; a frame with a longer one is refused.  No frame costs the receiver more
than 40960 bytes, whatever comes. -/
theorem ipc_round_trip :
    (∀ (frames : List (Json F × Bytes)) (raws : List Bytes) (s : Connection) (behind : Bytes),
      List.Forall₂ (fun frame raw => sendFrame D frame.1 frame.2 = .ok raw) frames raws →
      (∀ frame ∈ frames, Sendable frame.1 ∧ frame.1.Short) → s.Silent → s.rest = raws.flatten ++ behind →
        ∃ t, receiveFrames D frames.length s = (.ok (frames.map fun frame => (frame.1.sorted, frame.2)), t) ∧
          t.rest = behind) ∧
    (∀ (metadata : Json F) (body raw : Bytes) (s : Connection) (behind : Bytes),
      sendFrame D metadata body = .ok raw → Sendable metadata → s.Silent → s.rest = raw ++ behind →
        ((∃ frame t, receiveFrame D s = (.ok frame, t)) ↔ metadata.Short)) ∧
    ∀ s : Connection, ∃ data, s.Took (receiveFrame D s).2 data ∧ data.length ≤ 40960 :=
  ⟨fun _ _ _ _ sent good silent rest => receiveFrames_sent D sent good silent rest,
    fun _ _ _ _ _ sent sendable silent rest => receiveFrame_iff D sent sendable silent rest,
    receiveFrame_within D⟩

end Frames

section Poles

/-- A byte at a time. -/
private def byByte (rest : Bytes) : Connection := ⟨rest, fun _ => 0, fun _ => none, 0⟩

/-- `{"n": 7}`, then `{"n": 7}` with a body of two bytes. -/
theorem ipc_round_trip_pair :
    ∃ frame frame' t,
      sendFrame halfFloats (.object [(['n'], .number (.int 7))]) [] = .ok frame ∧
      sendFrame halfFloats (.object [(['n'], .number (.int 7))]) [1, 2] = .ok frame' ∧
      receiveFrames halfFloats 2 (byByte (frame ++ frame')) =
        (.ok [(.object [(['n'], .number (.int 7))], []), (.object [(['n'], .number (.int 7))], [1, 2])], t) ∧
      t.rest = [] := by
  have law := ipc_round_trip halfFloats
  have good : Sendable (.object [(['n'], .number (.int 7))] : Json Unit) := ⟨rfl, ⟨by decide, trivial, trivial⟩,
    by decide, by decide⟩
  have short : (.object [(['n'], .number (.int 7))] : Json Unit).Short := ⟨by show _ ≤ _; decide, trivial⟩
  have sized (body : Bytes) (small : body.length ≤ 2) :
      Sized (canonical halfFloats (.object [(['n'], .number (.int 7))])).length body.length := by
    have length : (canonical halfFloats (.object [(['n'], .number (.int 7))])).length = 7 := by decide
    rw [length]
    refine ⟨?_, by omega, by omega⟩
    split <;> omega
  obtain ⟨frame, first⟩ : ∃ frame, sendFrame halfFloats (.object [(['n'], .number (.int 7))]) [] = .ok frame :=
    ⟨_, (sendFrame_ok halfFloats).2 ⟨sized [] (by decide), rfl⟩⟩
  obtain ⟨frame', second⟩ : ∃ frame, sendFrame halfFloats (.object [(['n'], .number (.int 7))]) [1, 2] = .ok frame :=
    ⟨_, (sendFrame_ok halfFloats).2 ⟨sized [1, 2] (by decide), rfl⟩⟩
  obtain ⟨t, received, ended⟩ := law.1 [(_, []), (_, [1, 2])] [frame, frame'] (byByte (frame ++ frame')) []
    (.cons first (.cons second .nil)) (by simp [good, short]) (fun k _ => rfl) (by simp [byByte])
  exact ⟨frame, frame', t, first, second, received, ended⟩

/-- `{"n": 10 ** 64}` is sent and cannot be received. -/
theorem long_integer_refused :
    ∃ frame, sendFrame halfFloats (.object [(['n'], .number (.int (10 ^ 64)))]) [] = .ok frame ∧
      Sendable (.object [(['n'], .number (.int (10 ^ 64)))] : Json Unit) ∧
      ∀ r t, receiveFrame halfFloats (byByte frame) ≠ (.ok r, t) := by
  have sized : Sized (canonical halfFloats (.object [(['n'], .number (.int (10 ^ 64)))])).length ([] : Bytes).length := by
    have length : (canonical halfFloats (.object [(['n'], .number (.int (10 ^ 64)))])).length = 71 := by
      decide
    rw [length]
    decide
  have sendable : Sendable (.object [(['n'], .number (.int (10 ^ 64)))] : Json Unit) :=
    ⟨rfl, ⟨by decide, trivial, trivial⟩, by decide, by decide⟩
  obtain ⟨frame, sent⟩ : ∃ frame, sendFrame halfFloats (.object [(['n'], .number (.int (10 ^ 64)))]) [] = .ok frame :=
    ⟨_, (sendFrame_ok halfFloats).2 ⟨sized, rfl⟩⟩
  refine ⟨frame, sent, sendable, fun r t received => ?_⟩
  have whole : (byByte frame).rest = frame ++ [] := (List.append_nil frame).symm
  have short := (receiveFrame_iff halfFloats sent sendable (fun k _ => rfl) whole).1 ⟨r, t, received⟩
  have long : ¬ (intToken (10 ^ 64)).text.length ≤ 64 := by decide
  exact long short.1

end Poles

end ApiSecurityPlatform.Ports
