import AbletonLink.Audio.ByteStream
import AbletonLink.Wire.Period

/-! Audio buffers: chunks of constant tempo and the bytes of their samples. -/

namespace AbletonLink.Audio

open Library Library.Bytes Library.Rounding Link Wire ByteStreamReader

inductive Codec
  | invalid
  | pcmI16
  deriving DecidableEq

namespace Codec

def toU8 : Codec → UInt8
  | .invalid => 0
  | .pcmI16 => 1

def fromU8 (v : UInt8) : Codec := if v = 1 then .pcmI16 else .invalid

end Codec

/-- A contiguous run of frames that shares one tempo and beat origin. -/
structure Chunk where
  count : UInt64
  numFrames : UInt16
  beginBeats : Beats
  tempo : Tempo
  deriving DecidableEq

namespace Chunk

def SIZE : Nat := 8 + 2 + 8 + 8

def encode (chunk : Chunk) : Bytes :=
  toBe 8 chunk.count.toNat ++ encodeU16 chunk.numFrames ++ encodeI64 chunk.beginBeats.value ++
    encodeI64 chunk.tempo.microsPerBeat.micros

def decode : ByteStreamReader Chunk := do
  let count ← readU64
  let numFrames ← readU16
  let beginBeats ← readI64
  let microsPerBeat ← readI64
  let tempo :=
    if microsPerBeat = 0 then ⟨0.0⟩ else Tempo.fromPeriod (.microseconds microsPerBeat)
  return { count, numFrames, beginBeats := ⟨beginBeats⟩, tempo }

end Chunk

structure AudioBuffer where
  channelId : Id
  sessionId : Id
  chunks : List Chunk
  codec : Codec
  sampleRate : UInt32
  numChannels : UInt8
  bytes : Bytes
  deriving DecidableEq

namespace AudioBuffer

def headerSize : Nat := 24
def maxPayloadSize : Nat := 1200 - headerSize
def NON_AUDIO_BYTES : Nat := 50
def MAX_AUDIO_BYTES : Nat := maxPayloadSize - NON_AUDIO_BYTES

def numFrames (buffer : AudioBuffer) : UInt32 :=
  (buffer.chunks.map fun chunk => chunk.numFrames.toUInt32).sum

def encodeRaw (buffer : AudioBuffer) : Bytes :=
  NodeId.encodeTo buffer.channelId ++ NodeId.encodeTo buffer.sessionId ++
    (encodeU32 (UInt32.ofNat buffer.chunks.length) ++ buffer.chunks.flatMap Chunk.encode) ++
    [buffer.codec.toU8] ++ encodeU32 buffer.sampleRate ++ [buffer.numChannels] ++
    encodeU16 (UInt16.ofNat buffer.bytes.length) ++ buffer.bytes

def invalidTempo (chunk : Chunk) : Bool := !chunk.tempo.bpm.isFinite || chunk.tempo.bpm ≤ 0.0

def decodeAudio (channelId sessionId : Id) (chunks : List Chunk) (codec : Codec)
    (sampleRate : UInt32) : ByteStreamReader AudioBuffer := do
  let numChannels ← readU8
  if numChannels ≠ 1 ∧ numChannels ≠ 2 then fail (.invalid "invalid channel count")
  else do
    let numBytes := (← readU16).toNat
    if numBytes > MAX_AUDIO_BYTES then fail (.range "byte count exceeds maximum")
    else
      let buffer : AudioBuffer :=
        { channelId, sessionId, chunks, codec, sampleRate, numChannels, bytes := [] }
      if buffer.numFrames.toNat * numChannels.toNat * 2 ≠ numBytes then
        fail (.invalid "byte count / frame count mismatch")
      else do
        let bytes ← readBytes numBytes
        return { buffer with bytes }

def decodeBody : ByteStreamReader AudioBuffer := do
  let channelId ← readId
  let sessionId ← readId
  let chunks ← readVec Chunk.decode
  if chunks.isEmpty then fail (.invalid "audio buffer has no chunks")
  else if chunks.any invalidTempo then fail (.invalid "invalid tempo")
  else do
    let codec := Codec.fromU8 (← readU8)
    if codec ≠ .pcmI16 then fail (.invalid "unknown codec")
    else do
      let sampleRate ← readU32
      if sampleRate = 0 then fail (.invalid "invalid sample rate")
      else decodeAudio channelId sessionId chunks codec sampleRate

def decodeRaw (data : Bytes) : Except AudioError AudioBuffer :=
  (decodeBody data).map Prod.fst

end AudioBuffer

/-! Buffers that are accepted once encoded. -/

def Sounding (tempo : Tempo) : Prop := 1 ≤ tempo.microsPerBeat.micros.toInt

namespace Chunk

def received (chunk : Chunk) : Chunk :=
  { chunk with tempo := .fromPeriod (.microseconds chunk.tempo.microsPerBeat.micros) }

@[simp] theorem count_received (chunk : Chunk) : chunk.received.count = chunk.count := rfl

@[simp] theorem numFrames_received (chunk : Chunk) : chunk.received.numFrames = chunk.numFrames :=
  rfl

end Chunk

namespace AudioBuffer

/-- A buffer that `decode_raw` has no reason to refuse. -/
structure Acceptable (buffer : AudioBuffer) : Prop where
  chunks : buffer.chunks ≠ []
  few : buffer.chunks.length < 2 ^ 32
  sounding : ∀ chunk ∈ buffer.chunks, Sounding chunk.tempo
  codec : buffer.codec = .pcmI16
  sampleRate : buffer.sampleRate ≠ 0
  numChannels : buffer.numChannels = 1 ∨ buffer.numChannels = 2
  small : buffer.bytes.length ≤ MAX_AUDIO_BYTES
  frames : buffer.numFrames.toNat * buffer.numChannels.toNat * 2 = buffer.bytes.length

def received (buffer : AudioBuffer) : AudioBuffer :=
  { buffer with chunks := buffer.chunks.map Chunk.received }

end AudioBuffer

end AbletonLink.Audio
