import AbletonLink.Audio.Resizer

/-! Samples as interleaved 16-bit integers in network byte order. -/

namespace AbletonLink.Audio

open Library Library.Bytes Link Wire

def headerSize : Nat := AudioBuffer.headerSize

def MAX_AUDIO_BYTES : Nat := 576 - headerSize - AudioBuffer.NON_AUDIO_BYTES

def encodeI16 (v : Int16) : Bytes := encodeU16 v.toUInt16

class AudioBufferSender (S : Type) where
  send : S → AudioBuffer → S

instance : AudioBufferSender (List AudioBuffer) := ⟨fun sent buffer => sent ++ [buffer]⟩

structure PcmEncoder (S : Type) where
  output : AudioBuffer
  sender : S

namespace PcmEncoder

variable {S : Type} [AudioBufferSender S]

def new (sender : S) (channelId : Id) : PcmEncoder S where
  output :=
    { channelId, sessionId := default, chunks := [], codec := .invalid, sampleRate := 0
      numChannels := 0, bytes := [] }
  sender

def flush (encoder : PcmEncoder S) (block : Block) : PcmEncoder S :=
  let output :=
    { encoder.output with
      chunks := block.chunks
      codec := .pcmI16
      sampleRate := block.sampleRate
      numChannels := block.numChannels.toUInt8
      sessionId := block.sessionId }
  let numSamples :=
    min (output.numFrames.toNat * block.numChannels.toNat) block.samples.length
  let output := { output with bytes := (block.samples.take numSamples).flatMap encodeI16 }
  if output.numFrames.toNat * block.numChannels.toNat ≠ numSamples then { encoder with output }
  else { output, sender := AudioBufferSender.send encoder.sender output }

instance : ResizerSink (PcmEncoder S) := ⟨flush⟩

end PcmEncoder

structure Encoder (S : Type) where
  resizer : Resizer (PcmEncoder S)

namespace Encoder

variable {S : Type} [AudioBufferSender S]

def new (sender : S) (channelId : Id) : Encoder S :=
  ⟨.new (.new sender channelId) MAX_AUDIO_BYTES⟩

def encode (encoder : Encoder S) (input : Buffer) : Encoder S := ⟨encoder.resizer.process input⟩

def flush (encoder : Encoder S) : Encoder S := ⟨encoder.resizer.flush⟩

end Encoder

structure BufferInfo where
  numChannels : Nat
  numFrames : Nat
  sampleRate : UInt32
  count : UInt64
  sessionBeatTime : Float
  tempo : Float
  sessionId : Id

structure BufferCallbackHandle where
  samples : List Int16
  info : BufferInfo

/-- The cache keeps what earlier buffers left in it. -/
structure PcmDecoder where
  samples : List Int16

namespace PcmDecoder

def new (cacheSize : Nat) : PcmDecoder := ⟨List.replicate cacheSize 0⟩

/-- The loop that fills the cache; every round takes two bytes, so `fuel` bytes are read. -/
def fill (samples : List Int16) (numSamples : Nat) : Nat → Bytes → List Int16 × Nat
  | 0, _ => (samples, numSamples)
  | fuel + 1, data =>
    if data.isEmpty then (samples, numSamples)
    else
      match ByteStreamReader.readI16 data with
      | .ok (sample, rest) =>
        fill (if numSamples = samples.length then samples ++ [sample]
          else samples.set numSamples sample) (numSamples + 1) fuel rest
      | .error _ => (samples, numSamples)

def handles (samples : List Int16) (numSamples : Nat) (input : AudioBuffer) :
    Nat → List Chunk → List BufferCallbackHandle
  | _, [] => []
  | offset, chunk :: chunks =>
    let numChannels := input.numChannels.toNat
    let chunkSamples := chunk.numFrames.toNat * numChannels
    if offset + chunkSamples > numSamples then []
    else
      { samples := (samples.take (offset + chunkSamples)).drop offset
        info :=
          { numChannels
            numFrames := chunk.numFrames.toNat
            sampleRate := input.sampleRate
            count := chunk.count
            sessionBeatTime := chunk.beginBeats.floating
            tempo := chunk.tempo.bpm
            sessionId := input.sessionId } } ::
        handles samples numSamples input (offset + chunkSamples) chunks

def decode (decoder : PcmDecoder) (input : AudioBuffer) :
    PcmDecoder × List BufferCallbackHandle :=
  if input.codec ≠ .pcmI16 ∨ input.numChannels = 0 then (decoder, [])
  else
    let (samples, numSamples) := fill decoder.samples 0 input.bytes.length input.bytes
    (⟨samples⟩, handles samples numSamples input 0 input.chunks)

def play (decoder : PcmDecoder) : List AudioBuffer → List Int16
  | [] => []
  | input :: inputs =>
    let (decoder, blocks) := decoder.decode input
    blocks.flatMap BufferCallbackHandle.samples ++ play decoder inputs

end PcmDecoder

end AbletonLink.Audio
