/-
# Scanners.OpenApiDecoding -- the body of a compressed document

`decode_openapi_document` feeds a `zlib.decompressobj` chunks of 64 KiB and asks it for one byte
more than there is room for.  Of zlib only the contract of its streaming interface is used
(`Decoder.Decodes`), so what is returned does not depend on how it splits its output, and an error
does only where a body turns out corrupt one byte beyond the limit (`decode_document_exact`,
`decode_document_split`).  The trace keeps what was asked for and what was held after each call.
-/
import ApiSecurityPlatform.Python.Text
import ApiSecurityPlatform.Theory.Decoder
import ApiSecurityPlatform.Theory.Transaction

namespace ApiSecurityPlatform.Scanners.OpenApi

open ApiSecurityPlatform.Python ApiSecurityPlatform.Theory

set_option autoImplicit false

def maxOpenapiDecompressedBytes : Nat := 1000000

/-- The codes of `decode_openapi_document`; `stuck` is a loop out of fuel. -/
inductive DecodeFault where
  | openapiContentEncodingNotSupported
  | openapiDecompressedBodyTooLarge
  | openapiCompressedBodyInvalid
  | stuck
deriving DecidableEq, Repr

/-- A call to the decompressor: the length it was given, and `len(decoded)` after it. -/
structure Request where
  length : Int
  held : Nat
deriving DecidableEq, Repr

abbrev Decoding := Tx DecodeFault (List Request)

abbrev Body := List UInt8

variable {ε σ : Type} (D : Decoder ε UInt8 σ)

/-- `MAX_OPENAPI_DECOMPRESSED_BYTES - len(decoded) + 1`. -/
def room (decoded : Body) : Int := maxOpenapiDecompressedBytes - decoded.length + 1

def note (length : Int) (held : Nat) : Decoding Unit := Tx.modify (· ++ [⟨length, held⟩])

/-- `while chunk:`. -/
def chunkLoop (pending : Body) : Nat → σ → Body → Body → Decoding (σ × Body)
  | _, decoder, decoded, [] => pure (decoder, decoded)
  | 0, _, _, _ :: _ => Tx.raise .stuck
  | fuel + 1, decoder, decoded, b :: rest =>
      match D.decompress decoder (b :: rest) (room decoded) with
      | .error _ => do
          note (room decoded) decoded.length
          Tx.raise .openapiCompressedBodyInvalid
      | .ok (output, decoder) => do
          note (room decoded) (decoded ++ output).length
          Tx.refuse (maxOpenapiDecompressedBytes < (decoded ++ output).length) .openapiDecompressedBodyTooLarge
          if D.eof decoder then do
            Tx.refuse (D.unusedData decoder ≠ [] ∨ D.unconsumedTail decoder ≠ [] ∨ pending ≠ [])
              .openapiCompressedBodyInvalid
            return (decoder, decoded ++ output)
          else chunkLoop pending fuel decoder (decoded ++ output) (D.unconsumedTail decoder)

/-- `while pending:`; the decoder is not asked again after its end, since `pending` is empty then. -/
def pendingLoop (fuel : Nat) (decoder : σ) (decoded : Body) (pending : Body) : Decoding (σ × Body) :=
  match pending with
  | [] => pure (decoder, decoded)
  | b :: rest => do
      let later := (b :: rest).drop 65536
      let (decoder, decoded) ← chunkLoop D later fuel decoder decoded ((b :: rest).take 65536)
      pendingLoop fuel decoder decoded later
termination_by pending.length
decreasing_by
  rw [List.length_drop, List.length_cons]
  omega

/-- The branch of `gzip`. -/
def decompressBody (fuel : Nat) (wireBody : Body) : Decoding Body := do
  let (decoder, decoded) ← pendingLoop D fuel D.fresh [] wireBody
  Tx.refuse (D.eof decoder = false) .openapiCompressedBodyInvalid
  match D.flush decoder (room decoded) with
  | .error _ => do
      note (room decoded) decoded.length
      Tx.raise .openapiCompressedBodyInvalid
  | .ok output => do
      note (room decoded) (decoded ++ output).length
      Tx.refuse (maxOpenapiDecompressedBytes < (decoded ++ output).length) .openapiDecompressedBodyTooLarge
      return decoded ++ output

/-- `"identity" if content_encoding is None else content_encoding.strip().lower()`. -/
def normalizedEncoding (U : Unicode) : Option Str → Str
  | none => "identity".toList
  | some encoding => U.lower (strip encoding)

def decodeOpenapiDocument (U : Unicode) (fuel : Nat) (wireBody : Body) (contentEncoding : Option Str) :
    Decoding (Str × Body) := do
  let normalized := normalizedEncoding U contentEncoding
  if normalized = "identity".toList then
    Tx.refuse (maxOpenapiDecompressedBytes < wireBody.length) .openapiDecompressedBodyTooLarge
    return (normalized, wireBody)
  else if normalized = "gzip".toList then
    let decoded ← decompressBody D fuel wireBody
    return (normalized, decoded)
  else Tx.raise .openapiContentEncodingNotSupported

/-! ## What a body comes to -/

/-- A call that is within bounds. -/
def Request.Modest (r : Request) : Prop := 0 < r.length ∧ r.held ≤ maxOpenapiDecompressedBytes + 1

/-- Only calls within bounds are added. -/
def Modestly (t t' : List Request) : Prop := ∀ r ∈ t', r ∈ t ∨ r.Modest

instance : Std.Refl Modestly := ⟨fun _ _ mem => .inl mem⟩

instance : Trans Modestly Modestly Modestly :=
  ⟨fun first second r mem => (second r mem).elim (first r) .inr⟩

theorem note_modestly {E : DecodeFault → Prop} {length : Int} {held : Nat} (modest : (Request.mk length held).Modest) :
    Tx.Ensures Modestly (fun _ => True) E (note length held) := by
  refine Tx.ensures_modify fun t r mem => ?_
  rcases List.mem_append.1 mem with old | new
  · exact .inl old
  · obtain rfl := List.mem_singleton.1 new
    exact .inr modest

section Contract

variable {D} {G : Format UInt8} (decodes : D.Decodes G)

/-- What an error says about the body. -/
def DecodeFault.Means (G : Format UInt8) (body : Body) : DecodeFault → Prop
  | .openapiDecompressedBodyTooLarge => G.Overflows maxOpenapiDecompressedBytes body
  | .openapiCompressedBodyInvalid => G.Refused maxOpenapiDecompressedBytes body ∨ G.Verges maxOpenapiDecompressedBytes body
  | _ => False

/-- `used` has gone through the decoder, and what came out of it is small enough. -/
structure Fits (D : Decoder ε UInt8 σ) (decoder : σ) (used decoded : Body) : Prop where
  fed : D.Fed decoder used decoded
  small : decoded.length ≤ maxOpenapiDecompressedBytes

theorem Fits.room_pos {decoder : σ} {used decoded : Body} (fits : Fits D decoder used decoded) : 0 < room decoded := by
  have := fits.small
  unfold room
  omega

/-- After the loops over some input. -/
structure Passed (D : Decoder ε UInt8 σ) (G : Format UInt8) (used chunk pending : Body) (result : σ × Body) : Prop where
  fits : Fits D result.1 (used ++ chunk) result.2
  ended : D.eof result.1 = true → pending = []
  running : D.eof result.1 = false → chunk = [] ∨ (¬ G.ended (used ++ chunk) ∧ G.output (used ++ chunk) = result.2)

/-- The loops went on after some of the input. -/
theorem Passed.after {used part rest pending : Body} {result : σ × Body}
    (passed : Passed D G (used ++ part) rest pending result) (some_ : rest ≠ []) :
    Passed D G used (part ++ rest) pending result := by
  obtain ⟨fits, ended, running⟩ := passed
  rw [List.append_assoc] at fits running
  exact ⟨fits, ended, fun going => .inr ((running going).resolve_left some_)⟩

section Call

variable {decoder next : σ} {body used part chunk pending decoded output : Body}

/-- One call that has returned: what it used, and what is held now. -/
structure Called (D : Decoder ε UInt8 σ) (next : σ) (used part chunk decoded output : Body) : Prop where
  cut : part ++ D.leftover next = chunk
  fed : D.Fed next (used ++ part) (decoded ++ output)
  held : (decoded ++ output).length ≤ maxOpenapiDecompressedBytes + 1

include decodes

theorem Fits.called (fits : Fits D decoder used decoded) (running : D.eof decoder = false) (some_ : chunk ≠ [])
    (answer : D.decompress decoder chunk (room decoded) = .ok (output, next)) :
    ∃ part, Called D next used part chunk decoded output := by
  obtain ⟨⟨part, cut⟩, -⟩ := decodes.returned fits.fed running some_ fits.room_pos answer
  refine ⟨part, cut, fits.fed.call running some_ fits.room_pos answer cut.symm, ?_⟩
  have bound := decodes.bounded fits.fed running some_ fits.room_pos answer
  rw [List.length_append]
  unfold room at bound
  omega

/-- A call that raises. -/
theorem Fits.raised {e : ε} (fits : Fits D decoder used decoded) (running : D.eof decoder = false) (some_ : chunk ≠ [])
    (start : used ++ chunk <+: body) (raised : D.decompress decoder chunk (room decoded) = .error e) :
    DecodeFault.openapiCompressedBodyInvalid.Means G body := by
  obtain ⟨corrupt, near⟩ := decodes.raises fits.fed running some_ fits.room_pos raised
  refine Format.refused_or_verges corrupt start ?_
  unfold room at near
  omega

/-- A call that gives too much. -/
theorem Called.overflows (called : Called D next used part chunk decoded output) (start : used ++ part <+: body)
    (large : maxOpenapiDecompressedBytes < (decoded ++ output).length) :
    DecodeFault.openapiDecompressedBodyTooLarge.Means G body :=
  Nat.lt_of_lt_of_le large ((decodes.sound called.fed).trans (G.output_mono start)).length_le

/-- A call that comes to the end of the stream, with something left. -/
theorem Called.trailing (called : Called D next used part chunk decoded output) (start : used ++ part <+: body)
    (small : (decoded ++ output).length ≤ maxOpenapiDecompressedBytes) (eof : D.eof next = true)
    (more : body ≠ used ++ part) : DecodeFault.openapiCompressedBodyInvalid.Means G body := by
  obtain ⟨ended, out⟩ := decodes.ended called.fed eof
  obtain ⟨-, same, last⟩ := G.ended_mono ended start
  refine .inl ⟨fun whole => more (last whole), ?_⟩
  rwa [same, out]

omit decodes in
/-- What is left after the end is in `unused_data` or still pending. -/
theorem Called.more (called : Called D next used part chunk decoded output) (split : body = used ++ chunk ++ pending)
    (eof : D.eof next = true) (tail : D.unconsumedTail next = [] ∨ D.unconsumedTail next = D.unusedData next)
    (more : D.unusedData next ≠ [] ∨ D.unconsumedTail next ≠ [] ∨ pending ≠ []) : body ≠ used ++ part := by
  intro same
  have cut := called.cut
  rw [Decoder.leftover, if_pos eof] at cut
  have left : D.unusedData next = [] ∧ pending = [] := by
    rw [split, ← cut, ← List.append_assoc, List.append_assoc _ _ pending] at same
    exact List.append_eq_nil_iff.1 (List.self_eq_append_right.1 same.symm)
  rcases more with data | back | later
  · exact data left.1
  · rcases tail with empty | again
    · exact back empty
    · exact back (again.trans left.1)
  · exact later left.2

/-- A call that uses its chunk, with the stream going on. -/
theorem Called.passed (called : Called D next used part chunk decoded output) (fits : Fits D decoder used decoded)
    (running : D.eof decoder = false) (some_ : chunk ≠ [])
    (answer : D.decompress decoder chunk (room decoded) = .ok (output, next)) (going : D.eof next = false)
    (small : (decoded ++ output).length ≤ maxOpenapiDecompressedBytes) (empty : D.unconsumedTail next = []) :
    Passed D G used chunk pending (next, decoded ++ output) := by
  have cut := called.cut
  have fed := called.fed
  rw [Decoder.leftover, if_neg (by simp [going]), empty, List.append_nil] at cut
  rw [cut] at fed
  have room_ : (output.length : Int) < room decoded := by
    rw [List.length_append] at small
    unfold room
    omega
  refine ⟨⟨fed, small⟩, fun eof => ?_, fun _ => .inr ?_⟩
  · rw [going] at eof
    cases eof
  · exact decodes.drained fits.fed running some_ fits.room_pos answer going empty room_

/-- A call that leaves some of its chunk has used or given something. -/
theorem Called.less (called : Called D next used part chunk decoded output) (fits : Fits D decoder used decoded)
    (running : D.eof decoder = false) (some_ : chunk ≠ [])
    (answer : D.decompress decoder chunk (room decoded) = .ok (output, next)) (going : D.eof next = false)
    (small : (decoded ++ output).length ≤ maxOpenapiDecompressedBytes) :
    (D.unconsumedTail next).length + (maxOpenapiDecompressedBytes - (decoded ++ output).length) <
      chunk.length + (maxOpenapiDecompressedBytes - decoded.length) := by
  have cut := called.cut
  rw [Decoder.leftover, if_neg (by simp [going])] at cut
  have length := congrArg List.length cut
  rw [List.length_append] at length small
  rw [List.length_append]
  rcases decodes.progress fits.fed running some_ fits.room_pos answer going with used_ | given
  · have : part.length ≠ 0 := fun none_ => used_ (by rw [← cut, List.eq_nil_of_length_eq_zero none_, List.nil_append])
    omega
  · have : output.length ≠ 0 := fun none_ => given (List.eq_nil_of_length_eq_zero none_)
    omega

end Call

include decodes

/-- By induction on the fuel, along the outcomes of one call. -/
theorem chunkLoop_ensures {body used chunk pending decoded : Body} {decoder : σ} {fuel : Nat}
    (fits : Fits D decoder used decoded) (running : D.eof decoder = false) (split : body = used ++ chunk ++ pending)
    (enough : chunk.length + (maxOpenapiDecompressedBytes - decoded.length) < fuel) :
    Tx.Ensures Modestly (Passed D G used chunk pending) (DecodeFault.Means G body)
      (chunkLoop D pending fuel decoder decoded chunk) := by
  induction fuel generalizing used chunk decoder decoded with
  | zero => exact absurd enough (Nat.not_lt_zero _)
  | succ fuel ih =>
      cases chunk with
      | nil =>
          refine Tx.ensures_pure ⟨?_, fun eof => absurd (running.symm.trans eof) Bool.false_ne_true, fun _ => .inl rfl⟩
          rwa [List.append_nil]
      | cons b rest =>
          have some_ : b :: rest ≠ [] := List.cons_ne_nil b rest
          have start : used ++ b :: rest <+: body := ⟨pending, split.symm⟩
          rw [chunkLoop]
          split
          · next e raised =>
            refine Tx.ensures_bind (note_modestly ⟨fits.room_pos, fits.small.trans (Nat.le_succ _)⟩) fun _ _ => ?_
            exact Tx.ensures_raise (fits.raised decodes running some_ start raised)
          · next output next_ answer =>
            obtain ⟨part, called⟩ := fits.called decodes running some_ answer
            have onward : used ++ part <+: body := by
              refine .trans ?_ start
              rw [← called.cut, ← List.append_assoc]
              exact List.prefix_append _ _
            refine Tx.ensures_bind (note_modestly ⟨fits.room_pos, called.held⟩) fun _ _ => ?_
            refine Tx.ensures_bind (Tx.ensures_refuse (called.overflows decodes onward)) fun _ small => ?_
            rw [Nat.not_lt] at small
            split
            · next eof =>
              obtain ⟨-, tail⟩ := decodes.returned fits.fed running some_ fits.room_pos answer
              refine Tx.ensures_bind (Tx.ensures_refuse fun more => ?_) fun _ none_ => ?_
              · exact called.trailing decodes onward small eof (called.more split eof (tail eof) more)
              · push Not at none_
                have cut := called.cut
                rw [Decoder.leftover, if_pos eof, none_.1, List.append_nil] at cut
                refine Tx.ensures_pure ⟨⟨cut ▸ called.fed, small⟩, fun _ => none_.2.2, fun going => ?_⟩
                exact absurd (going.symm.trans eof) Bool.false_ne_true
            · next open_ =>
              have going : D.eof next_ = false := by simpa using open_
              cases empty : D.unconsumedTail next_ with
              | nil =>
                  unfold chunkLoop
                  exact Tx.ensures_pure (called.passed decodes fits running some_ answer going small empty)
              | cons t more =>
                  have cut := called.cut
                  rw [Decoder.leftover, if_neg open_, empty] at cut
                  have less := called.less decodes fits running some_ answer going small
                  rw [empty] at less
                  have split' : body = used ++ part ++ t :: more ++ pending := by
                    rw [split, ← cut, ← List.append_assoc used part]
                  have again := ih ⟨called.fed, small⟩ going split' (by omega)
                  exact again.mono (fun result passed => cut ▸ passed.after (List.cons_ne_nil _ _)) fun _ => id

theorem pendingLoop_ensures {body used pending decoded : Body} {decoder : σ} {fuel : Nat} (fits : Fits D decoder used decoded)
    (running : D.eof decoder = false) (split : body = used ++ pending)
    (enough : body.length + maxOpenapiDecompressedBytes < fuel) :
    Tx.Ensures Modestly (Passed D G used pending []) (DecodeFault.Means G body) (pendingLoop D fuel decoder decoded pending) := by
  induction size : pending.length using Nat.strong_induction_on generalizing used pending decoder decoded with
  | _ n ih =>
      subst size
      cases pending with
      | nil =>
          rw [pendingLoop]
          refine Tx.ensures_pure ⟨?_, fun _ => rfl, fun _ => .inl rfl⟩
          rwa [List.append_nil]
      | cons b rest =>
          rw [pendingLoop]
          have cut := List.take_append_drop 65536 (b :: rest)
          have split' : body = used ++ (b :: rest).take 65536 ++ (b :: rest).drop 65536 := by
            rw [List.append_assoc, cut, split]
          have length : body.length = used.length + (b :: rest).length := by rw [split, List.length_append]
          have taken : ((b :: rest).take 65536).length ≤ (b :: rest).length := List.length_take_le' _ _
          have enough' : ((b :: rest).take 65536).length + (maxOpenapiDecompressedBytes - decoded.length) < fuel := by omega
          refine Tx.ensures_bind (chunkLoop_ensures decodes fits running split' enough') fun result passed => ?_
          cases later_ : (b :: rest).drop 65536 with
          | nil =>
              rw [later_, List.append_nil] at cut
              rw [cut] at passed
              unfold pendingLoop
              exact Tx.ensures_pure ⟨passed.fits, fun _ => rfl, passed.running⟩
          | cons t more =>
              have eof : D.eof result.1 = false := by
                by_contra beyond
                rw [passed.ended (by simpa using beyond)] at later_
                cases later_
              have shorter : (t :: more).length < (b :: rest).length := by
                rw [← later_, List.length_drop, List.length_cons]
                omega
              rw [later_] at cut split'
              have later := ih _ shorter passed.fits eof split' rfl
              exact later.mono (fun last passed => cut ▸ passed.after (List.cons_ne_nil _ _)) fun _ => id

theorem decompressBody_ensures {body : Body} {fuel : Nat} (enough : body.length + maxOpenapiDecompressedBytes < fuel) :
    Tx.Ensures Modestly (G.Whole maxOpenapiDecompressedBytes body) (DecodeFault.Means G body) (decompressBody D fuel body) := by
  have start : Fits D D.fresh [] [] := ⟨.fresh, Nat.zero_le _⟩
  refine Tx.ensures_bind (pendingLoop_ensures decodes start decodes.running rfl enough) fun result passed => ?_
  obtain ⟨fits, -, going⟩ := passed
  rw [List.nil_append] at fits going
  refine Tx.ensures_bind (Tx.ensures_refuse fun running => ?_) fun _ eof => ?_
  · -- a stream that has not ended yet
    rcases going running with rfl | ⟨open_, all⟩
    · exact .inl ⟨G.not_ended_nil, by rw [G.output_nil]; exact Nat.zero_le _⟩
    · exact .inl ⟨open_, all ▸ fits.small⟩
  · rw [Bool.not_eq_false] at eof
    rw [decodes.flushed fits.fed eof fits.room_pos]
    have held : (result.2 ++ []).length ≤ maxOpenapiDecompressedBytes := by
      rw [List.append_nil]
      exact fits.small
    refine Tx.ensures_bind (note_modestly ⟨fits.room_pos, held.trans (Nat.le_succ _)⟩) fun _ _ => ?_
    refine Tx.ensures_bind (Tx.ensures_refuse fun large => absurd held (Nat.not_le.2 large)) fun _ _ => ?_
    rw [List.append_nil]
    obtain ⟨ended, out⟩ := decodes.ended fits.fed eof
    exact Tx.ensures_pure ⟨ended, out, fits.small⟩

end Contract

/-! ## The document -/

section Document

variable {D} {G : Format UInt8} {U : Unicode} {body : Body} {contentEncoding : Option Str}

/-- What comes of a gzip body. -/
inductive Verdict (G : Format UInt8) (body : Body) : Except DecodeFault (Str × Body) → Prop where
  | whole {d : Body} (whole : G.Whole maxOpenapiDecompressedBytes body d) : Verdict G body (.ok ("gzip".toList, d))
  | refused {fault : DecodeFault} (means : fault.Means G body) : Verdict G body (.error fault)

theorem DecodeFault.Means.not_whole {fault : DecodeFault} {d : Body} (means : fault.Means G body) :
    ¬ G.Whole maxOpenapiDecompressedBytes body d := by
  intro whole
  cases fault with
  | openapiContentEncodingNotSupported => exact means
  | openapiDecompressedBodyTooLarge => exact whole.not_overflows means
  | openapiCompressedBodyInvalid => exact means.elim whole.not_refused whole.not_verges
  | stuck => exact means

/-- Off the verge a body has one error. -/
theorem DecodeFault.Means.unique {fault fault' : DecodeFault} (means : fault.Means G body) (means' : fault'.Means G body)
    (off : ¬ G.Verges maxOpenapiDecompressedBytes body) : fault' = fault := by
  cases fault with
  | openapiContentEncodingNotSupported => exact absurd means id
  | stuck => exact absurd means id
  | openapiDecompressedBodyTooLarge =>
      cases fault' with
      | openapiContentEncodingNotSupported => exact absurd means' id
      | stuck => exact absurd means' id
      | openapiDecompressedBodyTooLarge => rfl
      | openapiCompressedBodyInvalid => exact absurd (means'.resolve_right off) (Format.Overflows.not_refused means)
  | openapiCompressedBodyInvalid =>
      cases fault' with
      | openapiContentEncodingNotSupported => exact absurd means' id
      | stuck => exact absurd means' id
      | openapiDecompressedBodyTooLarge => exact absurd (means.resolve_right off) (Format.Overflows.not_refused means')
      | openapiCompressedBodyInvalid => rfl

theorem Verdict.whole_iff {result : Except DecodeFault (Str × Body)} (verdict : Verdict G body result) (d : Body) :
    result = .ok ("gzip".toList, d) ↔ G.Whole maxOpenapiDecompressedBytes body d := by
  cases verdict with
  | @whole d' whole =>
      constructor
      · intro same
        obtain rfl := (Prod.mk.inj (Except.ok.inj same)).2
        exact whole
      · intro whole'
        rw [← whole.2.1, whole'.2.1]
  | refused means => exact ⟨(fun same => nomatch same), fun whole => absurd whole means.not_whole⟩

/-- Off the verge the body decides. -/
theorem Verdict.unique {result result' : Except DecodeFault (Str × Body)} (verdict : Verdict G body result)
    (verdict' : Verdict G body result') (off : ¬ G.Verges maxOpenapiDecompressedBytes body) : result' = result := by
  cases verdict with
  | whole whole => exact (verdict'.whole_iff _).2 whole
  | refused means =>
      cases verdict' with
      | whole whole => exact absurd whole means.not_whole
      | refused means' => rw [means.unique means' off]

theorem decodeOpenapiDocument_ensures (decodes : D.Decodes G) (gzip : normalizedEncoding U contentEncoding = "gzip".toList)
    {fuel : Nat} (enough : body.length + maxOpenapiDecompressedBytes < fuel) :
    Tx.Ensures Modestly (fun result => Verdict G body (.ok result)) (fun fault => Verdict G body (.error fault))
      (decodeOpenapiDocument D U fuel body contentEncoding) := by
  have unlike : "gzip".toList ≠ "identity".toList := by decide
  rw [decodeOpenapiDocument, gzip, if_neg unlike, if_pos rfl]
  have decompressed := (decompressBody_ensures decodes enough).mono (fun _ => id) fun _ => Verdict.refused
  exact Tx.ensures_bind decompressed fun d whole => Tx.ensures_pure (.whole whole)

theorem decodeOpenapiDocument_verdict (decodes : D.Decodes G) (gzip : normalizedEncoding U contentEncoding = "gzip".toList)
    {fuel : Nat} (enough : body.length + maxOpenapiDecompressedBytes < fuel) :
    Verdict G body (decodeOpenapiDocument D U fuel body contentEncoding []).1 := by
  have holds := (decodeOpenapiDocument_ensures decodes gzip enough []).2
  revert holds
  cases (decodeOpenapiDocument D U fuel body contentEncoding []).1 with
  | ok result => exact id
  | error fault => exact id

/-- **Exactly, or not at all.**  A gzip body is decoded just when it is one member, nothing follows and its
content is within the limit; the loops end, every call asks for a positive length, and no more than one byte beyond the
limit is ever held.  Another decompressor that keeps the contract brings the same content or an error too, and the same
error unless the body is corrupt with one byte beyond the limit out. -/
theorem decode_document_exact {ε' σ' : Type} {D' : Decoder ε' UInt8 σ'} (decodes : D.Decodes G) (decodes' : D'.Decodes G)
    (gzip : normalizedEncoding U contentEncoding = "gzip".toList) {fuel fuel' : Nat}
    (enough : body.length + maxOpenapiDecompressedBytes < fuel) (enough' : body.length + maxOpenapiDecompressedBytes < fuel') :
    (∀ d, (decodeOpenapiDocument D U fuel body contentEncoding []).1 = .ok ("gzip".toList, d) ↔
      G.ended body ∧ G.output body = d ∧ d.length ≤ maxOpenapiDecompressedBytes) ∧
    (decodeOpenapiDocument D U fuel body contentEncoding []).1 ≠ .error .stuck ∧
    (∀ r ∈ (decodeOpenapiDocument D U fuel body contentEncoding []).2,
      0 < r.length ∧ r.held ≤ maxOpenapiDecompressedBytes + 1) ∧
    (∀ d, (decodeOpenapiDocument D' U fuel' body contentEncoding []).1 = .ok ("gzip".toList, d) ↔
      (decodeOpenapiDocument D U fuel body contentEncoding []).1 = .ok ("gzip".toList, d)) ∧
    (¬ (G.corrupt body ∧ (G.output body).length = maxOpenapiDecompressedBytes + 1) →
      (decodeOpenapiDocument D' U fuel' body contentEncoding []).1 =
        (decodeOpenapiDocument D U fuel body contentEncoding []).1) := by
  have verdict := decodeOpenapiDocument_verdict decodes gzip enough
  have verdict' := decodeOpenapiDocument_verdict decodes' gzip enough'
  refine ⟨verdict.whole_iff, fun stuck => ?_, fun r mem => ?_, fun d => (verdict'.whole_iff d).trans (verdict.whole_iff d).symm,
    verdict.unique verdict'⟩
  · rw [stuck] at verdict
    cases verdict with
    | refused means => exact means
  · exact ((decodeOpenapiDocument_ensures decodes gzip enough []).1 r mem).resolve_left List.not_mem_nil

end Document

/-! ## One member -/

section Pole

variable {β : Type} [DecidableEq β] (head trail content : List β) (eager : Bool)

/-- Not the beginning of the member, nor the member and more. -/
def Strange (read : List β) : Prop := ¬ read <+: head ++ trail ∧ ¬ head ++ trail <+: read

instance (read : List β) : Decidable (Strange head trail read) := inferInstanceAs (Decidable (_ ∧ _))

/-- What comes out of a stream that begins with `read`: all of the content behind `head`. -/
def singleOutput (read : List β) : List β := if head <+: read then content else []

variable {head trail content}

omit [DecidableEq β] in
theorem Strange.mono {p q : List β} (strange : Strange head trail p) (before : p <+: q) : Strange head trail q := by
  refine ⟨fun inside => strange.1 (before.trans inside), fun whole => ?_⟩
  exact (List.prefix_or_prefix_of_prefix before whole).elim strange.1 strange.2

/-- What is strange is so in `head` already, or behind it. -/
theorem Strange.output {p q : List β} (strange : Strange head trail p) (before : p <+: q) :
    singleOutput head content q = singleOutput head content p := by
  unfold singleOutput
  by_cases whole : head <+: q
  · have behind : head <+: p := by
      refine (List.prefix_or_prefix_of_prefix before whole).resolve_left fun inside => ?_
      exact strange.1 (inside.trans (List.prefix_append _ _))
    rw [if_pos whole, if_pos behind]
  · rw [if_neg whole, if_neg fun behind => whole (behind.trans before)]

variable (head trail content)

/-- The format whose one stream is `head ++ trail`. -/
def singleFormat (some_ : head ≠ []) : Format β where
  output := singleOutput head content
  corrupt := Strange head trail
  ended p := p = head ++ trail
  output_nil := if_neg fun none_ => some_ (List.prefix_nil.1 none_)
  output_mono := by
    intro p q before
    unfold singleOutput
    split
    · next behind => rw [if_pos (behind.trans before)]
    · exact List.nil_prefix
  corrupt_mono := fun strange before => ⟨strange.mono before, strange.output before⟩
  ended_mono := by
    rintro p q rfl before
    have behind : head <+: head ++ trail := List.prefix_append _ _
    refine ⟨fun strange => strange.2 before, ?_, id⟩
    rw [singleOutput, singleOutput, if_pos behind, if_pos (behind.trans before)]
  not_ended_nil := fun none_ => some_ (List.append_eq_nil_iff.1 none_.symm).1

/-- A decoder in the middle of that stream, or at its end. -/
structure Progress (β : Type) where
  used : List β
  given : List β
  tail : List β
  unused : List β
  eof : Bool

/-- A decoder of that format.  An `eager` one looks behind the content as soon as all of it is out; the other one
gives it first. -/
def single : Decoder Unit β (Progress β) where
  fresh := ⟨[], [], [], [], false⟩
  decompress s chunk n :=
    let read := s.used ++ chunk
    let output := (content.drop s.given.length).take n.toNat
    if head <+: read then
      if s.given.length + output.length < content.length ∨ (Strange head trail read ∧ eager = false ∧ output ≠ []) then
        .ok (output, ⟨head, s.given ++ output, read.drop head.length, [], false⟩)
      else if head ++ trail <+: read then
        .ok (output, ⟨head ++ trail, s.given ++ output, [], read.drop (head ++ trail).length, true⟩)
      else if read <+: head ++ trail then .ok (output, ⟨read, s.given ++ output, [], [], false⟩)
      else .error ()
    else if read <+: head then .ok ([], ⟨read, s.given, [], [], false⟩)
    else .error ()
  flush _ _ := .ok []
  unconsumedTail s := s.tail
  unusedData s := s.unused
  eof s := s.eof

/-- What a call comes to. -/
inductive Turn (s : Progress β) (chunk output : List β) : List β → Progress β → Prop where
  /-- It stops at the content. -/
  | stops (behind : head <+: s.used ++ chunk)
      (unfinished : s.given.length + output.length < content.length ∨ (Strange head trail (s.used ++ chunk) ∧ output ≠ [])) :
      Turn s chunk output output ⟨head, s.given ++ output, (s.used ++ chunk).drop head.length, [], false⟩
  | ends (all : content.length ≤ s.given.length + output.length) (whole : head ++ trail <+: s.used ++ chunk) :
      Turn s chunk output output
        ⟨head ++ trail, s.given ++ output, [], (s.used ++ chunk).drop (head ++ trail).length, true⟩
  | goes (all : content.length ≤ s.given.length + output.length) (behind : head <+: s.used ++ chunk)
      (part : ¬ head ++ trail <+: s.used ++ chunk) (inside : s.used ++ chunk <+: head ++ trail) :
      Turn s chunk output output ⟨s.used ++ chunk, s.given ++ output, [], [], false⟩
  | reads (early : ¬ head <+: s.used ++ chunk) (inside : s.used ++ chunk <+: head) :
      Turn s chunk output [] ⟨s.used ++ chunk, s.given, [], [], false⟩

variable {head trail content eager}

theorem single_decompress {s s' : Progress β} {chunk out : List β} {n : Int}
    (answer : (single head trail content eager).decompress s chunk n = .ok (out, s')) :
    Turn head trail content s chunk ((content.drop s.given.length).take n.toNat) out s' := by
  simp only [single] at answer
  split at answer
  · next behind =>
    split at answer
    · next unfinished =>
      obtain ⟨rfl, rfl⟩ := Prod.mk.inj (Except.ok.inj answer)
      exact .stops behind (unfinished.imp_right fun strange => ⟨strange.1, strange.2.2⟩)
    · next finished =>
      have all := Nat.not_lt.1 fun short => finished (.inl short)
      split at answer
      · next whole =>
        obtain ⟨rfl, rfl⟩ := Prod.mk.inj (Except.ok.inj answer)
        exact .ends all whole
      · next part =>
        split at answer
        · next inside =>
          obtain ⟨rfl, rfl⟩ := Prod.mk.inj (Except.ok.inj answer)
          exact .goes all behind part inside
        · cases answer
  · next early =>
    split at answer
    · next inside =>
      obtain ⟨rfl, rfl⟩ := Prod.mk.inj (Except.ok.inj answer)
      exact .reads early inside
    · cases answer

/-- An error: the bytes are strange, and all that comes out of them is out. -/
theorem single_raises {s : Progress β} {chunk : List β} {n : Int} {e : Unit}
    (raised : (single head trail content eager).decompress s chunk n = .error e) :
    Strange head trail (s.used ++ chunk) ∧ (head <+: s.used ++ chunk →
      content.length ≤ s.given.length + ((content.drop s.given.length).take n.toNat).length) := by
  simp only [single] at raised
  split at raised
  · split at raised
    · cases raised
    · next finished =>
      have all := Nat.not_lt.1 fun short => finished (.inl short)
      split at raised
      · cases raised
      · next part =>
        split at raised
        · cases raised
        · next outside => exact ⟨⟨outside, part⟩, fun _ => all⟩
  · next early =>
    split at raised
    · cases raised
    · next outside =>
      refine ⟨⟨fun inside => ?_, fun whole => early ((List.prefix_append _ _).trans whole)⟩, fun behind => absurd behind early⟩
      exact (List.prefix_or_prefix_of_prefix inside (List.prefix_append head trail)).elim outside early

/-- There was room for all that comes out of them. -/
theorem single_near {s : Progress β} {chunk : List β} {n : Int} {e : Unit} (positive : 0 < n)
    (raised : (single head trail content eager).decompress s chunk n = .error e) :
    ((singleOutput head content (s.used ++ chunk)).length : Int) ≤ s.given.length + n := by
  unfold singleOutput
  split
  · next behind =>
    have all := (single_raises raised).2 behind
    rw [List.length_take] at all
    omega
  · rw [List.length_nil]
    omega

/-- Where the decoder is after it was fed. -/
structure Keeps (head trail content : List β) (s : Progress β) (used given : List β) : Prop where
  atUsed : s.used = used
  atGiven : s.given = given
  inside : used <+: head ++ trail
  begun : given <+: content
  early : ¬ head <+: used → given = []
  late : ¬ used <+: head → given = content
  ended : s.eof = true → used = head ++ trail ∧ given = content

omit [DecidableEq β] in
theorem given_within {given : List β} (before : given <+: content) (n : Nat) :
    given ++ (content.drop given.length).take n <+: content := by
  obtain ⟨rest, rfl⟩ := before
  rw [List.drop_left]
  exact (List.prefix_append_right_inj _).2 (List.take_prefix _ _)

omit [DecidableEq β] in
/-- What is left of the chunk, and what was used of it. -/
theorem leftover_part {used part chunk upTo : List β} (whole : upTo <+: used ++ chunk)
    (split : chunk = part ++ (used ++ chunk).drop upTo.length) : used ++ part = upTo := by
  obtain ⟨rest, same⟩ := whole
  rw [← same, List.drop_left] at split
  rw [split, ← List.append_assoc] at same
  exact (List.append_cancel_right same).symm

/-- A call that stops at the content has not gone beyond it before. -/
theorem Keeps.behind {s : Progress β} {used given chunk : List β} {n : Nat} (keeps : Keeps head trail content s used given)
    (unfinished : given.length + ((content.drop given.length).take n).length < content.length ∨
      (Strange head trail chunk ∧ (content.drop given.length).take n ≠ [])) : used <+: head := by
  by_contra beyond
  rw [keeps.late beyond, List.drop_length, List.take_nil] at unfinished
  rcases unfinished with short | ⟨-, some_⟩
  · exact absurd short (by omega)
  · exact some_ rfl

theorem Keeps.of_fed {s : Progress β} {used given : List β} (fed : (single head trail content eager).Fed s used given) :
    Keeps head trail content s used given := by
  induction fed with
  | fresh =>
      refine ⟨rfl, rfl, List.nil_prefix, List.nil_prefix, fun _ => rfl, ?_, (fun beyond => nomatch beyond)⟩
      exact fun beyond => absurd List.nil_prefix beyond
  | @call s s' used given chunk part out n before running some_ positive answer split ih =>
      have atUsed := ih.atUsed
      have atGiven := ih.atGiven
      subst atUsed atGiven
      have within := given_within ih.begun n.toNat
      have full (all : content.length ≤ s.given.length + ((content.drop s.given.length).take n.toNat).length) :
          s.given ++ (content.drop s.given.length).take n.toNat = content :=
        within.eq_of_length_le (by rwa [List.length_append])
      cases single_decompress answer with
      | stops behind unfinished =>
          rw [leftover_part behind split]
          refine ⟨rfl, rfl, List.prefix_append _ _, within, fun out => absurd List.prefix_rfl out,
            fun beyond => absurd List.prefix_rfl beyond, (fun beyond => nomatch beyond)⟩
      | ends all whole =>
          rw [leftover_part whole split]
          exact ⟨rfl, rfl, List.prefix_rfl, within, fun out => absurd (List.prefix_append _ _) out, fun _ => full all,
            fun _ => ⟨rfl, full all⟩⟩
      | goes all behind part_ inside =>
          obtain rfl : chunk = part := split.trans (List.append_nil _)
          exact ⟨rfl, rfl, inside, within, fun out => absurd behind out, fun _ => full all, (fun beyond => nomatch beyond)⟩
      | reads early inside =>
          obtain rfl : chunk = part := split.trans (List.append_nil _)
          have nothing : s.given = [] := ih.early fun behind => early (behind.trans (List.prefix_append _ _))
          refine ⟨rfl, (List.append_nil _).symm, inside.trans (List.prefix_append _ _), ?_, fun _ => ?_,
            fun beyond => absurd inside beyond, (fun beyond => nomatch beyond)⟩
          · rw [List.append_nil]
            exact ih.begun
          · rw [List.append_nil, nothing]

/-- A call that could have given more and leaves nothing of its chunk has given all there is. -/
theorem Keeps.drained {s s' : Progress β} {chunk out : List β} {n : Int}
    (keeps : Keeps head trail content s s.used s.given)
    (answer : (single head trail content eager).decompress s chunk n = .ok (out, s')) (going : s'.eof = false)
    (empty : s'.tail = []) (less : (out.length : Int) < n) :
    s.used ++ chunk ≠ head ++ trail ∧ singleOutput head content (s.used ++ chunk) = s.given ++ out := by
  cases single_decompress answer with
  | stops behind unfinished =>
      rcases unfinished with short | ⟨strange, -⟩
      · rw [List.length_take, List.length_drop] at less short
        omega
      · have upTo : s.used ++ chunk <+: head := by
          obtain ⟨rest, same⟩ := behind
          have none_ : (s.used ++ chunk).drop head.length = [] := empty
          rw [← same, List.drop_left] at none_
          rw [← same, none_, List.append_nil]
        exact absurd (upTo.trans (List.prefix_append _ _)) strange.1
  | ends => cases going
  | goes all behind part inside =>
      refine ⟨fun whole => part (whole ▸ List.prefix_rfl), ?_⟩
      refine (if_pos behind).trans ((given_within keeps.begun n.toNat).eq_of_length_le ?_).symm
      rwa [List.length_append]
  | reads early inside =>
      refine ⟨fun whole => early (whole ▸ List.prefix_append _ _), (if_neg early).trans ?_⟩
      rw [List.append_nil, keeps.early fun behind => early (behind.trans (List.prefix_append _ _))]

/-- Either decoder keeps the contract. -/
theorem single_decodes (some_ : head ≠ []) : (single head trail content eager).Decodes (singleFormat head trail content some_) where
  running := rfl
  bounded := by
    intro s s' used given chunk out n fed running _ positive answer
    have := List.length_take_le n.toNat (content.drop s.given.length)
    cases single_decompress answer with
    | stops | ends | goes => omega
    | reads => exact Int.le_of_lt positive
  returned := by
    intro s s' used given chunk out n fed running _ positive answer
    have keeps := Keeps.of_fed fed
    have rest {upTo : List β} (before : s.used <+: upTo) : (s.used ++ chunk).drop upTo.length <:+ chunk := by
      rw [List.drop_append, List.drop_eq_nil_of_le before.length_le, List.nil_append]
      exact List.drop_suffix _ _
    cases single_decompress answer with
    | stops behind unfinished =>
        have atUsed := keeps.atUsed
        have atGiven := keeps.atGiven
        subst atUsed atGiven
        exact ⟨rest (keeps.behind unfinished), (fun beyond => nomatch beyond)⟩
    | ends all whole => exact ⟨rest (keeps.atUsed ▸ keeps.inside), fun _ => .inl rfl⟩
    | goes | reads => exact ⟨List.nil_suffix, (fun beyond => nomatch beyond)⟩
  progress := by
    intro s s' used given chunk out n fed running nonempty positive answer going
    cases single_decompress answer with
    | stops behind unfinished =>
        refine .inr fun none_ => ?_
        rcases unfinished with short | ⟨-, more⟩
        · have length := congrArg List.length none_
          rw [List.length_take, List.length_drop, List.length_nil] at length
          rw [none_, List.length_nil] at short
          omega
        · exact more none_
    | ends => cases going
    | goes | reads => exact .inl (Ne.symm nonempty)
  sound := by
    intro s used given fed
    have keeps := Keeps.of_fed fed
    show given <+: singleOutput head content used
    by_cases behind : head <+: used
    · rw [singleOutput, if_pos behind]
      exact keeps.begun
    · rw [keeps.early behind]
      exact List.nil_prefix
  ended := by
    intro s used given fed beyond
    obtain ⟨rfl, rfl⟩ := (Keeps.of_fed fed).ended beyond
    exact ⟨rfl, if_pos (List.prefix_append _ _)⟩
  drained := by
    intro s s' used given chunk out n fed running _ positive answer going empty less
    have keeps := Keeps.of_fed fed
    have atUsed := keeps.atUsed
    have atGiven := keeps.atGiven
    subst atUsed atGiven
    exact keeps.drained answer going empty less
  raises := by
    intro s used given chunk n e fed running _ positive raised
    have keeps := Keeps.of_fed fed
    have atUsed := keeps.atUsed
    have atGiven := keeps.atGiven
    subst atUsed atGiven
    exact ⟨(single_raises raised).1, single_near positive raised⟩
  flushed := fun _ _ _ => rfl

end Pole

/-- `{}`, as gzip has it: the header and the data, and the check of them. -/
def emptyObjectHead : Body := [31, 139, 8, 0, 0, 0, 0, 0, 2, 3, 171, 174, 5, 0]

def emptyObjectTrail : Body := [67, 191, 166, 163, 2, 0, 0, 0]

private def gzipText : Unicode := ⟨id, id, id, id⟩

theorem decode_document_exact_empty_object :
    (decodeOpenapiDocument (single emptyObjectHead emptyObjectTrail [123, 125] true) gzipText 1000100
      (emptyObjectHead ++ emptyObjectTrail) (some "gzip".toList) []).1 = .ok ("gzip".toList, [123, 125]) := by
  have some_ : emptyObjectHead ≠ [] := by decide
  have decodes (eager : Bool) : (single emptyObjectHead emptyObjectTrail [123, 125] eager).Decodes
    (singleFormat emptyObjectHead emptyObjectTrail [123, 125] some_) := single_decodes some_
  have enough : (emptyObjectHead ++ emptyObjectTrail).length + maxOpenapiDecompressedBytes < 1000100 := by decide
  refine ((decode_document_exact (U := gzipText) (decodes true) (decodes false) (by decide) enough enough).1 _).2 ⟨rfl, ?_, by decide⟩
  show singleOutput emptyObjectHead [123, 125] (emptyObjectHead ++ emptyObjectTrail) = [123, 125]
  exact if_pos (List.prefix_append _ _)

/-- The head of a member, and a byte that is not the member's next one. -/
def vergingBody : Body := [31, 139, 8, 1]

section Verge

variable {content : Body} (verge : content.length = maxOpenapiDecompressedBytes + 1) (eager : Bool)

include verge

theorem decompress_verging :
    (single [31, 139, 8] [0] content eager).decompress ⟨[], [], [], [], false⟩ vergingBody (room []) =
      if eager then .error () else .ok (content, ⟨[31, 139, 8], content, [1], [], false⟩) := by
  have room_ : (room []).toNat = content.length := by
    rw [verge]
    decide
  have all : (content.drop ([] : Body).length).take (room []).toNat = content := by
    rw [room_]
    exact List.take_length
  have some_ : content ≠ [] := List.ne_nil_of_length_eq_add_one verge
  have strange : Strange [31, 139, 8] [0] ([] ++ vergingBody) := by decide
  have behind : [31, 139, 8] <+: [] ++ vergingBody := by decide
  simp only [single, all, if_pos behind]
  cases eager with
  | true =>
      rw [if_neg (by simp), if_neg strange.2, if_neg strange.1]
      rfl
  | false =>
      rw [if_pos (.inr ⟨strange, rfl, some_⟩)]
      rfl

/-- The first call decides. -/
theorem chunkLoop_verging (pending : Body) (fuel : Nat) :
    ∃ t, chunkLoop (single [31, 139, 8] [0] content eager) pending (fuel + 1) ⟨[], [], [], [], false⟩ [] vergingBody [] =
      (.error (if eager then .openapiCompressedBodyInvalid else .openapiDecompressedBodyTooLarge), t) := by
  have large : maxOpenapiDecompressedBytes < ([] ++ content).length := by
    rw [List.nil_append, verge]
    exact Nat.lt_succ_self _
  have answer := decompress_verging verge eager
  unfold vergingBody at answer
  unfold vergingBody chunkLoop
  rw [answer]
  cases eager with
  | true => exact ⟨_, rfl⟩
  | false =>
      simp only [Bool.false_eq_true, if_false, Tx.refuse, if_pos large]
      exact ⟨_, rfl⟩

theorem decode_verging :
    (decodeOpenapiDocument (single [31, 139, 8] [0] content eager) gzipText 1000100 vergingBody (some "gzip".toList) []).1 =
      .error (if eager then .openapiCompressedBodyInvalid else .openapiDecompressedBodyTooLarge) := by
  obtain ⟨t, first⟩ := chunkLoop_verging verge eager [] 1000099
  have pending : pendingLoop (single [31, 139, 8] [0] content eager) 1000100 ⟨[], [], [], [], false⟩ [] vergingBody [] =
      (.error (if eager then .openapiCompressedBodyInvalid else .openapiDecompressedBodyTooLarge), t) := by
    unfold vergingBody
    rw [pendingLoop]
    exact Tx.bind_of_error first
  have decompressed : decompressBody (single [31, 139, 8] [0] content eager) 1000100 vergingBody [] =
      (.error (if eager then .openapiCompressedBodyInvalid else .openapiDecompressedBodyTooLarge), t) :=
    Tx.bind_of_error pending
  have gzip : normalizedEncoding gzipText (some "gzip".toList) = "gzip".toList := by decide
  have unlike : "gzip".toList ≠ "identity".toList := by decide
  rw [decodeOpenapiDocument, gzip, if_neg unlike, if_pos rfl, Tx.bind_of_error decompressed]

end Verge

def vergingContent : Body := List.replicate (maxOpenapiDecompressedBytes + 1) 0

/-- Of two decompressors of one format the one that looks behind the content calls the body invalid, the other one too
large. -/
theorem decode_document_split :
    (single [31, 139, 8] [0] vergingContent true).Decodes (singleFormat [31, 139, 8] [0] vergingContent (List.cons_ne_nil _ _)) ∧
    (single [31, 139, 8] [0] vergingContent false).Decodes (singleFormat [31, 139, 8] [0] vergingContent (List.cons_ne_nil _ _)) ∧
    (decodeOpenapiDocument (single [31, 139, 8] [0] vergingContent true) gzipText 1000100 vergingBody
      (some "gzip".toList) []).1 = .error .openapiCompressedBodyInvalid ∧
    (decodeOpenapiDocument (single [31, 139, 8] [0] vergingContent false) gzipText 1000100 vergingBody
      (some "gzip".toList) []).1 = .error .openapiDecompressedBodyTooLarge := by
  have verge : vergingContent.length = maxOpenapiDecompressedBytes + 1 := List.length_replicate
  exact ⟨single_decodes _, single_decodes _, decode_verging verge true, decode_verging verge false⟩

end ApiSecurityPlatform.Scanners.OpenApi
