import AbletonLink.Audio.AudioBuffer
import AbletonLink.Audio.ByteStreamLaws
import AbletonLink.Library.MachineInt

/-! Audio buffers with the integer period of a tempo in its place.  The codec on them is lossless,
refuses data that ends too early, and the codec on tempos is its image. -/

namespace AbletonLink.Audio

open Library Library.Bytes Library.MachineInt Library.Rounding Link Wire ByteStreamReader

/-- A chunk with the microseconds of a beat for its tempo. -/
structure PeriodChunk where
  count : UInt64
  numFrames : UInt16
  beginBeats : Beats
  period : Int64
  deriving DecidableEq

structure PeriodBuffer where
  channelId : Id
  sessionId : Id
  chunks : List PeriodChunk
  codec : Codec
  sampleRate : UInt32
  numChannels : UInt8
  bytes : Bytes
  deriving DecidableEq

namespace PeriodChunk

def encode (chunk : PeriodChunk) : Bytes :=
  toBe 8 chunk.count.toNat ++ encodeU16 chunk.numFrames ++ encodeI64 chunk.beginBeats.value ++
    encodeI64 chunk.period

def decode : ByteStreamReader PeriodChunk := do
  let count ← readU64
  let numFrames ← readU16
  let beginBeats ← readI64
  let period ← readI64
  return { count, numFrames, beginBeats := ⟨beginBeats⟩, period }

def toChunk (chunk : PeriodChunk) : Chunk where
  count := chunk.count
  numFrames := chunk.numFrames
  beginBeats := chunk.beginBeats
  tempo := if chunk.period = 0 then ⟨0.0⟩ else .fromPeriod (.microseconds chunk.period)

end PeriodChunk

def Chunk.toPeriod (chunk : Chunk) : PeriodChunk where
  count := chunk.count
  numFrames := chunk.numFrames
  beginBeats := chunk.beginBeats
  period := chunk.tempo.microsPerBeat.micros

namespace PeriodBuffer

def numFrames (buffer : PeriodBuffer) : UInt32 :=
  (buffer.chunks.map fun chunk => chunk.numFrames.toUInt32).sum

def encodeRaw (buffer : PeriodBuffer) : Bytes :=
  NodeId.encodeTo buffer.channelId ++ NodeId.encodeTo buffer.sessionId ++
    (encodeU32 (UInt32.ofNat buffer.chunks.length) ++ buffer.chunks.flatMap PeriodChunk.encode) ++
    [buffer.codec.toU8] ++ encodeU32 buffer.sampleRate ++ [buffer.numChannels] ++
    encodeU16 (UInt16.ofNat buffer.bytes.length) ++ buffer.bytes

def decodeAudio (channelId sessionId : Id) (chunks : List PeriodChunk) (codec : Codec)
    (sampleRate : UInt32) : ByteStreamReader PeriodBuffer := do
  let numChannels ← readU8
  if numChannels ≠ 1 ∧ numChannels ≠ 2 then fail (.invalid "invalid channel count")
  else do
    let numBytes := (← readU16).toNat
    if numBytes > AudioBuffer.MAX_AUDIO_BYTES then fail (.range "byte count exceeds maximum")
    else
      let buffer : PeriodBuffer :=
        { channelId, sessionId, chunks, codec, sampleRate, numChannels, bytes := [] }
      if buffer.numFrames.toNat * numChannels.toNat * 2 ≠ numBytes then
        fail (.invalid "byte count / frame count mismatch")
      else do
        let bytes ← readBytes numBytes
        return { buffer with bytes }

def decodeBody : ByteStreamReader PeriodBuffer := do
  let channelId ← readId
  let sessionId ← readId
  let chunks ← readVec PeriodChunk.decode
  if chunks.isEmpty then fail (.invalid "audio buffer has no chunks")
  else if chunks.any fun chunk => chunk.period ≤ 0 then fail (.invalid "invalid tempo")
  else do
    let codec := Codec.fromU8 (← readU8)
    if codec ≠ .pcmI16 then fail (.invalid "unknown codec")
    else do
      let sampleRate ← readU32
      if sampleRate = 0 then fail (.invalid "invalid sample rate")
      else decodeAudio channelId sessionId chunks codec sampleRate

def decodeRaw (data : Bytes) : Except AudioError PeriodBuffer :=
  (decodeBody data).map Prod.fst

def toBuffer (buffer : PeriodBuffer) : AudioBuffer where
  channelId := buffer.channelId
  sessionId := buffer.sessionId
  chunks := buffer.chunks.map PeriodChunk.toChunk
  codec := buffer.codec
  sampleRate := buffer.sampleRate
  numChannels := buffer.numChannels
  bytes := buffer.bytes

end PeriodBuffer

def AudioBuffer.toPeriods (buffer : AudioBuffer) : PeriodBuffer where
  channelId := buffer.channelId
  sessionId := buffer.sessionId
  chunks := buffer.chunks.map Chunk.toPeriod
  codec := buffer.codec
  sampleRate := buffer.sampleRate
  numChannels := buffer.numChannels
  bytes := buffer.bytes

/-! The codec on periods. -/

namespace PeriodChunk

theorem parses (chunk : PeriodChunk) : Parses decode chunk chunk.encode := by
  have period := (Parses.readI64 chunk.period).map fun period =>
    (⟨chunk.count, chunk.numFrames, chunk.beginBeats, period⟩ : PeriodChunk)
  rw [encode, List.append_assoc, List.append_assoc]
  exact (Parses.readU64 _).bind ((Parses.readU16 _).bind ((Parses.readI64 _).bind period))

theorem takes : Takes decode Chunk.SIZE :=
  @Takes.bind _ _ _ _ 8 18 .readU64 fun _ => @Takes.bind _ _ _ _ 2 16 .readU16 fun _ =>
    @Takes.bind _ _ _ _ 8 8 .readI64 fun _ => .map .readI64 _

theorem encode_ne_nil (chunk : PeriodChunk) : chunk.encode ≠ [] := by
  simp [encode, toBe]

end PeriodChunk

namespace PeriodBuffer

/-- What `decode_body` asks of a buffer. -/
structure Accepted (buffer : PeriodBuffer) : Prop where
  chunks : buffer.chunks ≠ []
  few : buffer.chunks.length < 2 ^ 32
  positive : ∀ chunk ∈ buffer.chunks, 0 < chunk.period
  codec : buffer.codec = .pcmI16
  sampleRate : buffer.sampleRate ≠ 0
  numChannels : buffer.numChannels = 1 ∨ buffer.numChannels = 2
  small : buffer.bytes.length ≤ AudioBuffer.MAX_AUDIO_BYTES
  frames : buffer.numFrames.toNat * buffer.numChannels.toNat * 2 = buffer.bytes.length

theorem parses_audio {buffer : PeriodBuffer} (h : buffer.Accepted) :
    Parses (decodeAudio buffer.channelId buffer.sessionId buffer.chunks .pcmI16 buffer.sampleRate)
      buffer ([buffer.numChannels] ++ (encodeU16 (UInt16.ofNat buffer.bytes.length) ++
        buffer.bytes)) := by
  have small := h.small
  have length : (UInt16.ofNat buffer.bytes.length).toNat = buffer.bytes.length :=
    UInt16.toNat_ofNat_of_lt' (Nat.lt_of_le_of_lt small (by decide))
  have channels : ¬(buffer.numChannels ≠ 1 ∧ buffer.numChannels ≠ 2) := by
    have := h.numChannels
    tauto
  have agree : ¬buffer.numFrames.toNat * buffer.numChannels.toNat * 2 ≠ buffer.bytes.length :=
    fun differ => differ h.frames
  refine (Parses.readU8 buffer.numChannels).bind ?_
  rw [if_neg channels]
  refine (Parses.readU16 _).bind ?_
  rw [length, if_neg (Nat.not_lt.mpr small)]
  have bytes := (Parses.take (rfl : buffer.bytes.length = buffer.bytes.length)).map fun bytes =>
    ({ buffer with bytes } : PeriodBuffer)
  have codec := h.codec
  cases buffer with
  | mk channelId sessionId chunks codec' sampleRate numChannels bytes' =>
    subst codec
    exact (if_neg agree : _ = _) ▸ bytes

theorem starves (channelId sessionId : Id) (chunks : List PeriodChunk) :
    Fails (if chunks.isEmpty then fail (.invalid "audio buffer has no chunks")
      else if chunks.any fun chunk => chunk.period ≤ 0 then fail (.invalid "invalid tempo")
      else do
        let codec := Codec.fromU8 (← readU8)
        if codec ≠ .pcmI16 then fail (.invalid "unknown codec")
        else do
          let sampleRate ← readU32
          if sampleRate = 0 then fail (.invalid "invalid sample rate")
          else decodeAudio channelId sessionId chunks codec sampleRate) [] := by
  split
  · exact .fail _
  · split
    · exact .fail _
    · exact Fails.readU8_nil.bind

theorem parses {buffer : PeriodBuffer} (h : buffer.Accepted) :
    Parses decodeBody buffer buffer.encodeRaw := by
  have chunks : buffer.chunks.isEmpty = false := by
    simp [h.chunks]
  have positive : ¬(buffer.chunks.any fun chunk => chunk.period ≤ 0) = true := by
    simpa using h.positive
  have codec : Codec.fromU8 buffer.codec.toU8 = .pcmI16 := by
    rw [h.codec]
    rfl
  simp only [encodeRaw, List.append_assoc]
  refine (Parses.readId _).bind ((Parses.readId _).bind ?_)
  rw [← List.append_assoc (encodeU32 _)]
  have each : ∀ chunk ∈ buffer.chunks, Parses PeriodChunk.decode (id chunk) chunk.encode :=
    fun chunk _ => chunk.parses
  refine Parses.readVec_bind h.few each (fun chunk _ => chunk.encode_ne_nil)
    (starves buffer.channelId buffer.sessionId) ?_
  rw [List.map_id, chunks, if_neg Bool.false_ne_true, if_neg positive]
  refine (Parses.readU8 _).bind ?_
  simp only [codec, ne_eq, not_true_eq_false, if_false]
  refine (Parses.readU32 _).bind ?_
  rw [if_neg h.sampleRate]
  exact parses_audio h

theorem decodeRaw_encodeRaw {buffer : PeriodBuffer} (h : buffer.Accepted) :
    decodeRaw buffer.encodeRaw = .ok buffer := by
  have whole := (parses h).reads []
  rw [List.append_nil] at whole
  rw [decodeRaw, whole]
  rfl

theorem accepted_of_decodeAudio {channelId sessionId : Id} {chunks : List PeriodChunk}
    {codec : Codec} {sampleRate : UInt32} {data rest : Bytes} {buffer : PeriodBuffer}
    (ok : decodeAudio channelId sessionId chunks codec sampleRate data = .ok (buffer, rest)) :
    buffer.chunks = chunks ∧ buffer.codec = codec ∧ buffer.sampleRate = sampleRate ∧
      (buffer.numChannels = 1 ∨ buffer.numChannels = 2) ∧
      buffer.bytes.length ≤ AudioBuffer.MAX_AUDIO_BYTES ∧
      buffer.numFrames.toNat * buffer.numChannels.toNat * 2 = buffer.bytes.length := by
  obtain ⟨numChannels, data, -, ok⟩ := bind_ok.mp ok
  split at ok
  · cases ok
  rename_i channels
  obtain ⟨numBytes, data, -, ok⟩ := bind_ok.mp ok
  dsimp only at ok
  split at ok
  · cases ok
  rename_i small
  split at ok
  · cases ok
  rename_i frames
  obtain ⟨bytes, data, taken, ⟨⟩⟩ := bind_ok.mp ok
  have length : bytes.length = numBytes.toNat := by
    unfold readBytes take at taken
    split at taken
    · cases taken
    · cases taken
      rw [List.length_take]
      omega
  refine ⟨rfl, rfl, rfl, by tauto, ?_, ?_⟩
  · rw [length]
    exact Nat.not_lt.mp small
  · rw [length]
    exact not_not.mp frames

theorem accepted_of_decodeBody {data rest : Bytes} {buffer : PeriodBuffer}
    (ok : decodeBody data = .ok (buffer, rest)) :
    buffer.Accepted ∧ buffer.chunks.length * Chunk.SIZE ≤ data.length := by
  obtain ⟨channelId, data₁, readChannel, ok⟩ := bind_ok.mp ok
  obtain ⟨sessionId, data₂, readSession, ok⟩ := bind_ok.mp ok
  obtain ⟨chunks, data₃, readChunks, ok⟩ := bind_ok.mp ok
  split at ok
  · cases ok
  rename_i some
  split at ok
  · cases ok
  rename_i positive
  obtain ⟨code, data₄, -, ok⟩ := bind_ok.mp ok
  split at ok
  · cases ok
  rename_i known
  obtain ⟨sampleRate, data₅, -, ok⟩ := bind_ok.mp ok
  split at ok
  · cases ok
  rename_i nonzero
  obtain ⟨rfl, codec, rate, channels, small, frames⟩ := accepted_of_decodeAudio ok
  obtain ⟨room, few⟩ := readVec_length PeriodChunk.takes readChunks
  have := Takes.readId _ _ _ readChannel
  have := Takes.readId _ _ _ readSession
  refine ⟨⟨by simpa using some, few, by simpa using positive, codec.trans (not_not.mp known),
    rate ▸ nonzero, channels, small, frames⟩, by omega⟩

end PeriodBuffer

/-! The codec on tempos is the image of the one on periods. -/

theorem PeriodChunk.mirrors : Mirrors PeriodChunk.toChunk PeriodChunk.decode Chunk.decode :=
  .bind_same _ fun _ => .bind_same _ fun _ => .bind_same _ fun _ => .bind_same _ fun _ => .pure _

theorem PeriodChunk.invalidTempo_toChunk (chunk : PeriodChunk) :
    AudioBuffer.invalidTempo chunk.toChunk = decide (chunk.period ≤ 0) := by
  have order : chunk.period ≤ 0 ↔ chunk.period.toInt ≤ 0 := Int64.le_iff_toInt_le
  unfold toChunk AudioBuffer.invalidTempo
  by_cases zero : chunk.period = 0
  · simp only [zero, if_true]
    decide
  · have nonzero : chunk.period.toInt ≠ 0 := fun h => zero (Int64.toInt_inj.mp h)
    obtain ⟨-, v, normal, -⟩ := Tempo.fromPeriod_normal nonzero
    simp only [if_neg zero, Tempo.bpm, normal.isFinite, Bool.not_true, Bool.false_or]
    by_cases negative : chunk.period.toInt < 0
    · rw [show Tempo.signOf chunk.period.toInt = .negative from if_pos negative] at normal
      rw [decide_eq_decide]
      exact iff_of_true normal.le_zero (order.mpr negative.le)
    · rw [show Tempo.signOf chunk.period.toInt = .positive from if_neg negative] at normal
      rw [decide_eq_decide]
      exact iff_of_false normal.not_le_zero (mt order.mp (by omega))

namespace PeriodBuffer

theorem numFrames_toBuffer (buffer : PeriodBuffer) :
    buffer.toBuffer.numFrames = buffer.numFrames := by
  simp [numFrames, AudioBuffer.numFrames, toBuffer, Function.comp_def, PeriodChunk.toChunk]

theorem mirrors_audio (channelId sessionId : Id) (chunks : List PeriodChunk) (codec : Codec)
    (sampleRate : UInt32) :
    Mirrors toBuffer (decodeAudio channelId sessionId chunks codec sampleRate)
      (AudioBuffer.decodeAudio channelId sessionId (chunks.map PeriodChunk.toChunk) codec
        sampleRate) := by
  refine .bind_same _ fun numChannels => .ite _ (fun _ => .fail _) fun _ => ?_
  refine .bind_same _ fun numBytes => .ite _ (fun _ => .fail _) fun _ => ?_
  have frames := numFrames_toBuffer
    { channelId, sessionId, chunks, codec, sampleRate, numChannels, bytes := [] }
  unfold toBuffer at frames
  dsimp only at frames ⊢
  rw [frames]
  exact .ite _ (fun _ => .fail _) fun _ => .bind_same _ fun _ => .pure _

theorem mirrors : Mirrors toBuffer decodeBody AudioBuffer.decodeBody := by
  refine .bind_same _ fun channelId => .bind_same _ fun sessionId =>
    PeriodChunk.mirrors.readVec.bind fun chunks => ?_
  have invalid : (chunks.map PeriodChunk.toChunk).any AudioBuffer.invalidTempo =
      chunks.any fun chunk => chunk.period ≤ 0 := by
    rw [List.any_map]
    congr 1
    funext chunk
    exact chunk.invalidTempo_toChunk
  rw [List.isEmpty_map, invalid]
  refine .ite _ (fun _ => .fail _) fun _ => .ite _ (fun _ => .fail _) fun _ => ?_
  refine .bind_same _ fun code => .ite _ (fun _ => .fail _) fun _ => ?_
  exact .bind_same _ fun rate => .ite _ (fun _ => .fail _) fun _ => mirrors_audio _ _ _ _ _

theorem decodeRaw_eq (data : Bytes) :
    AudioBuffer.decodeRaw data = (decodeRaw data).map toBuffer := by
  unfold AudioBuffer.decodeRaw decodeRaw
  rw [mirrors]
  cases decodeBody data <;> rfl

end PeriodBuffer

theorem AudioBuffer.encodeRaw_eq (buffer : AudioBuffer) :
    buffer.encodeRaw = buffer.toPeriods.encodeRaw := by
  simp only [encodeRaw, PeriodBuffer.encodeRaw, toPeriods, List.length_map, List.flatMap_map]
  rfl

theorem AudioBuffer.decodeRaw_encodeRaw {buffer : AudioBuffer} (h : buffer.Acceptable) :
    decodeRaw buffer.encodeRaw = .ok buffer.received := by
  have frames : buffer.toPeriods.numFrames = buffer.numFrames := by
    simp [PeriodBuffer.numFrames, numFrames, toPeriods, Function.comp_def, Chunk.toPeriod]
  have positive : ∀ chunk ∈ buffer.chunks, 0 < chunk.toPeriod.period := by
    intro chunk member
    exact Int64.lt_iff_toInt_lt.mpr (h.sounding chunk member)
  have accepted : buffer.toPeriods.Accepted :=
    { chunks := by simp [toPeriods, h.chunks]
      few := by simpa [toPeriods] using h.few
      positive := by simpa [toPeriods] using positive
      codec := h.codec
      sampleRate := h.sampleRate
      numChannels := h.numChannels
      small := h.small
      frames := frames ▸ h.frames }
  have chunks : (buffer.chunks.map Chunk.toPeriod).map PeriodChunk.toChunk =
      buffer.chunks.map Chunk.received := by
    rw [List.map_map]
    refine List.map_congr_left fun chunk member => ?_
    have nonzero : ¬chunk.toPeriod.period = 0 := by
      intro zero
      have := positive chunk member
      rw [zero] at this
      exact absurd this (by decide)
    show PeriodChunk.toChunk chunk.toPeriod = chunk.received
    unfold PeriodChunk.toChunk
    rw [if_neg nonzero]
    rfl
  have arrived : buffer.toPeriods.toBuffer = buffer.received := by
    unfold PeriodBuffer.toBuffer received
    rw [← chunks]
    rfl
  rw [buffer.encodeRaw_eq, PeriodBuffer.decodeRaw_eq, PeriodBuffer.decodeRaw_encodeRaw accepted,
    ← arrived]
  rfl

namespace PeriodBuffer

/-! The conditions in whole numbers. -/

def totalFrames (buffer : PeriodBuffer) : Nat :=
  (buffer.chunks.map fun chunk => chunk.numFrames.toNat).sum

/-- A buffer of whole frames within the limit. -/
structure Conforms (buffer : PeriodBuffer) : Prop where
  chunks : buffer.chunks ≠ []
  positive : ∀ chunk ∈ buffer.chunks, 0 < chunk.period
  codec : buffer.codec = .pcmI16
  sampleRate : buffer.sampleRate ≠ 0
  numChannels : buffer.numChannels = 1 ∨ buffer.numChannels = 2
  small : buffer.bytes.length ≤ AudioBuffer.MAX_AUDIO_BYTES
  frames : buffer.bytes.length = buffer.totalFrames * buffer.numChannels.toNat * 2

theorem toNat_numFrames {buffer : PeriodBuffer} (fits : buffer.totalFrames < 2 ^ 32) :
    buffer.numFrames.toNat = buffer.totalFrames :=
  toNat_sum_u32 (fun chunk => (UInt32.ofNat_uInt16ToNat chunk.numFrames).symm) fits

theorem totalFrames_le (buffer : PeriodBuffer) :
    buffer.totalFrames ≤ buffer.chunks.length * 65535 := by
  have bound (chunks : List PeriodChunk) :
      (chunks.map fun chunk => chunk.numFrames.toNat).sum ≤ chunks.length * 65535 := by
    induction chunks with
    | nil => simp
    | cons chunk chunks ih =>
      have := chunk.numFrames.toNat_lt
      rw [List.map_cons, List.sum_cons, List.length_cons]
      omega
  exact bound buffer.chunks

theorem Conforms.accepted {buffer : PeriodBuffer} (h : buffer.Conforms)
    (few : buffer.chunks.length < 2 ^ 32) : buffer.Accepted := by
  have frames := h.frames
  have small := h.small
  rw [show AudioBuffer.MAX_AUDIO_BYTES = 1126 from rfl] at small
  have total : buffer.totalFrames ≤ 1126 := by
    obtain mono | stereo := h.numChannels
    · rw [mono, show (1 : UInt8).toNat = 1 from rfl] at frames
      omega
    · rw [stereo, show (2 : UInt8).toNat = 2 from rfl] at frames
      omega
  exact ⟨h.chunks, few, h.positive, h.codec, h.sampleRate, h.numChannels, h.small,
    by rw [toNat_numFrames (by omega), frames]⟩

theorem Accepted.conforms {buffer : PeriodBuffer} (h : buffer.Accepted)
    (fits : buffer.totalFrames < 2 ^ 32) : buffer.Conforms :=
  ⟨h.chunks, h.positive, h.codec, h.sampleRate, h.numChannels, h.small,
    by rw [← h.frames, toNat_numFrames fits]⟩

theorem decodeRaw_encodeRaw_of_wrapped {buffer : PeriodBuffer}
    (wrapped : UInt32.ofNat buffer.chunks.length = 0) :
    decodeRaw buffer.encodeRaw = .error (.invalid "audio buffer has no chunks") := by
  have none : Reads (readVec PeriodChunk.decode) [] (encodeU32 0) := by
    have empty : Reads (readVec PeriodChunk.decode) (([] : List PeriodChunk).map id)
        (encodeU32 (UInt32.ofNat 0) ++ ([] : List PeriodChunk).flatMap PeriodChunk.encode) :=
      Reads.readVec (by decide) nofun nofun
    simpa using empty
  have failed : decodeBody buffer.encodeRaw =
      .error (.invalid "audio buffer has no chunks") := by
    simp only [encodeRaw, List.append_assoc, wrapped]
    unfold decodeBody
    rw [bind_of_reads (.readId _), bind_of_reads (.readId _), bind_of_reads none]
    rfl
  rw [decodeRaw, failed]
  rfl

end PeriodBuffer

open PeriodBuffer

/-- A buffer of whole frames with chunks enough for their count comes back from its encoding, and
from no proper front of it; every datagram that is accepted holds such a buffer; and the codec on
tempos is the one on their periods. -/
theorem audioBuffer_codec :
    (∀ buffer : PeriodBuffer, buffer.Conforms →
      (decodeRaw buffer.encodeRaw = .ok buffer ↔ buffer.chunks.length < 2 ^ 32) ∧
      (buffer.chunks.length < 2 ^ 32 → ∀ front, front <+: buffer.encodeRaw →
        front ≠ buffer.encodeRaw → ∃ error, decodeRaw front = .error error)) ∧
    (∀ data : Bytes, data.length ≤ 65535 → ∀ buffer, decodeRaw data = .ok buffer →
      buffer.Conforms) ∧
    (∀ data, AudioBuffer.decodeRaw data = (decodeRaw data).map toBuffer) ∧
    (∀ buffer : AudioBuffer, buffer.encodeRaw = buffer.toPeriods.encodeRaw) := by
  have accepted {data : Bytes} {buffer : PeriodBuffer} (ok : decodeRaw data = .ok buffer) :
      buffer.Accepted ∧ buffer.chunks.length * Chunk.SIZE ≤ data.length := by
    unfold decodeRaw at ok
    cases body : PeriodBuffer.decodeBody data with
    | error error =>
      rw [body] at ok
      cases ok
    | ok both =>
      rw [body] at ok
      cases ok
      exact accepted_of_decodeBody body
  refine ⟨fun buffer h => ⟨⟨fun ok => (accepted ok).1.few, fun few => ?_⟩,
    fun few front prefix' proper => ?_⟩, fun data small buffer ok => ?_, decodeRaw_eq,
    AudioBuffer.encodeRaw_eq⟩
  · exact decodeRaw_encodeRaw (h.accepted few)
  · obtain ⟨error, failed⟩ := (parses (h.accepted few)).cuts front prefix' proper
    refine ⟨error, ?_⟩
    rw [decodeRaw, failed]
    rfl
  · obtain ⟨passed, room⟩ := accepted ok
    have frames := buffer.totalFrames_le
    rw [show Chunk.SIZE = 26 from rfl] at room
    exact passed.conforms (by omega)

theorem audioBuffer_codec_overlong :
    let buffer : PeriodBuffer :=
      { channelId := default, sessionId := default
        chunks := List.replicate (2 ^ 32) ⟨1, 0, ⟨0⟩, 500000⟩
        codec := .pcmI16, sampleRate := 44100, numChannels := 2, bytes := [] }
    buffer.Conforms ∧
      decodeRaw buffer.encodeRaw = .error (.invalid "audio buffer has no chunks") := by
  intro buffer
  have frames : buffer.totalFrames = 0 := by
    show ((List.replicate (2 ^ 32) _).map _).sum = 0
    rw [List.map_replicate, List.sum_replicate]
    rfl
  constructor
  · refine ⟨?_, ?_, rfl, by decide, .inr rfl, by decide, ?_⟩
    · exact List.ne_nil_of_length_pos (by rw [List.length_replicate]; decide)
    · intro chunk member
      rw [List.eq_of_mem_replicate member]
      decide
    · rw [frames]
      rfl
  · apply decodeRaw_encodeRaw_of_wrapped
    rw [List.length_replicate]
    decide

end AbletonLink.Audio
