import AbletonLink.Audio.AudioBuffer

/-! The resizer, which collects application buffers into blocks of at most `maxNumBytes` bytes.
Products and sums of the source's fixed-width integers are reduced where they are formed. -/

namespace AbletonLink.Audio

open Link

structure Buffer where
  sampleRate : UInt32
  numChannels : UInt32
  numFrames : UInt32
  samples : List Int16
  beginBeats : Beats
  tempo : Tempo
  sessionId : Id

/-- A block of interleaved samples and the chunks that describe it. -/
structure Block where
  samples : List Int16
  chunks : List Chunk
  numChannels : UInt32
  sampleRate : UInt32
  sessionId : Id

class ResizerSink (S : Type) where
  flush : S → Block → S

structure Resizer (S : Type) where
  successor : S
  maxNumBytes : Nat
  cache : List Int16
  cachedFrames : Nat
  availableFrames : Nat
  numChannels : UInt32
  sampleRate : UInt32
  sessionId : Id
  chunks : List Chunk
  count : UInt64

namespace Resizer

variable {S : Type} [ResizerSink S]

def beatTimingTolerance : Beats := ⟨1⟩

def sampleBytes : Nat := 2

def new (successor : S) (maxNumBytes : Nat) : Resizer S where
  successor
  maxNumBytes
  cache := List.replicate (maxNumBytes / sampleBytes) 0
  cachedFrames := 0
  availableFrames := 0
  numChannels := 0
  sampleRate := 0
  sessionId := default
  chunks := []
  count := 0

def flush (r : Resizer S) : Resizer S :=
  if r.chunks.isEmpty then { r with cachedFrames := 0 }
  else
    let numSamples := r.cachedFrames * r.numChannels.toNat
    { r with
      successor := ResizerSink.flush r.successor
        { samples := r.cache.take (min numSamples r.cache.length)
          chunks := r.chunks
          numChannels := r.numChannels
          sampleRate := r.sampleRate
          sessionId := r.sessionId }
      cachedFrames := 0
      chunks := [] }

def chunkEndBeats (r : Resizer S) (chunk : Chunk) : Beats :=
  if r.sampleRate = 0 ∨ chunk.tempo.bpm == 0.0 then chunk.beginBeats
  else
    let secondsPerBeat := 60.0 / chunk.tempo.bpm
    let rangeDuration := Float.ofNat chunk.numFrames.toNat / Float.ofNat r.sampleRate.toNat
    chunk.beginBeats + Beats.new (rangeDuration / secondsPerBeat)

/-- The end of `new_chunk`: the chunk is opened and leaves room for `availableFrames` frames. -/
def openChunk (r : Resizer S) (chunk : Chunk) : Resizer S :=
  let r := { r with chunks := r.chunks ++ [chunk] }
  let extraChunkBytes := (r.chunks.length - 1) * Chunk.SIZE
  { r with
    availableFrames := (r.maxNumBytes - extraChunkBytes) / (r.numChannels.toNat * sampleBytes) }

def newChunk (r : Resizer S) (beats : Beats) (tempo : Tempo) : Resizer S :=
  let r := { r with count := r.count + 1 }
  let bytesPerFrame := r.numChannels.toNat * sampleBytes
  -- The allowance already accounts for one chunk; further chunks share it with the samples.
  let full := (r.cachedFrames + 1) * bytesPerFrame + r.chunks.length * Chunk.SIZE > r.maxNumBytes
  openChunk (if full then r.flush else r)
    { count := r.count, numFrames := 0, beginBeats := beats, tempo }

def copyFrame (samples : List Int16) (numChannels frame cachedFrames : Nat) (cache : List Int16) :
    List Nat → List Int16
  | [] => cache
  | channel :: channels =>
    let src := (numChannels * frame + channel) % 2 ^ 32
    let dst := (numChannels * cachedFrames + channel) % 2 ^ 32
    match samples[src]? with
    | none => cache
    | some sample =>
      if dst ≥ cache.length then cache
      else copyFrame samples numChannels frame cachedFrames (cache.set dst sample) channels

def countFrame (chunks : List Chunk) : List Chunk :=
  match chunks.getLast? with
  | none => chunks
  | some last => chunks.dropLast ++ [{ last with numFrames := last.numFrames + 1 }]

def processFrame (r : Resizer S) (input : Buffer) (frame : Nat) : Resizer S :=
  let numChannels := input.numChannels.toNat
  let r :=
    { r with
      cache := copyFrame input.samples numChannels frame r.cachedFrames r.cache
        (List.range numChannels)
      cachedFrames := r.cachedFrames + 1
      chunks := countFrame r.chunks }
  if r.cachedFrames ≥ r.availableFrames then
    let nextChunkBeginBeats := (r.chunks.getLast?.map r.chunkEndBeats).getD input.beginBeats
    let r := r.flush
    if frame + 1 < input.numFrames.toNat then r.newChunk nextChunkBeginBeats input.tempo else r
  else r

def process (r : Resizer S) (input : Buffer) : Resizer S :=
  if input.numChannels = 0 then r
  else
    let r :=
      if r.cachedFrames ≠ 0 ∧ (input.numChannels ≠ r.numChannels ∨
          input.sampleRate ≠ r.sampleRate ∨ input.sessionId ≠ r.sessionId) then r.flush
      else r
    if input.numFrames = 0 then r
    else
      let r :=
        if r.cachedFrames = 0 then
          newChunk
            { r with
              sampleRate := input.sampleRate
              numChannels := input.numChannels
              sessionId := input.sessionId
              chunks := [] }
            input.beginBeats input.tempo
        else
          match r.chunks.getLast? with
          | none => r
          | some last =>
            if !(input.tempo == last.tempo) ∨
                (input.beginBeats - r.chunkEndBeats last).abs > beatTimingTolerance then
              r.newChunk input.beginBeats input.tempo
            else r
      (List.range input.numFrames.toNat).foldl (fun r frame => r.processFrame input frame) r

end Resizer

end AbletonLink.Audio
