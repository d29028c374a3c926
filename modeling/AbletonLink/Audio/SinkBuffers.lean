import AbletonLink.Audio.Codec
import AbletonLink.Audio.SlotQueue
import AbletonLink.Link.Phase

/-! A sink and the reader of its buffers.  Every access to shared state is one step, so requests,
the threads that use the writer and the reader's thread interleave inside their operations too.
Sizes that are only compared are natural numbers; `usize` has 64 bits where it is computed with. -/

namespace AbletonLink.Audio

open Library Library.Run Link

def globalBeatAtBeat (timeline : Timeline) (targetBeat quantum : Beats) : Beats :=
  targetBeat - toPhaseEncodedBeats timeline timeline.timeOrigin quantum

namespace Buffer

def new (numSamples : Nat) : Buffer where
  sampleRate := 0
  numChannels := 0
  numFrames := 0
  samples := List.replicate numSamples 0
  beginBeats := Beats.new 0.0
  tempo := ⟨0.0⟩
  sessionId := default

def clearTiming (buffer : Buffer) : Buffer :=
  { buffer with beginBeats := Beats.new 0.0, tempo := ⟨0.0⟩ }

def grow (maxNumSamples : Nat) (buffer : Buffer) : Buffer :=
  if buffer.samples.length < maxNumSamples then
    { buffer with
      samples := buffer.samples ++ List.replicate (maxNumSamples - buffer.samples.length) 0 }
  else buffer

end Buffer

structure Commit where
  timeline : Timeline
  sessionId : NodeId
  beatsAtBufferBegin : Float
  quantum : Float
  numFrames : UInt64
  numChannels : UInt64
  sampleRate : UInt32

namespace Commit

def Accepted (commit : Commit) (maxNumSamples : Nat) : Prop :=
  ¬(commit.numChannels = 0 ∨ commit.sampleRate = 0 ∨
    (commit.numFrames * commit.numChannels).toNat > maxNumSamples)

instance (commit : Commit) (maxNumSamples : Nat) : Decidable (commit.Accepted maxNumSamples) :=
  inferInstanceAs (Decidable (¬_))

def write (commit : Commit) (buffer : Buffer) : Buffer :=
  { buffer with
    beginBeats := globalBeatAtBeat commit.timeline (Beats.new commit.beatsAtBufferBegin)
      (Beats.new commit.quantum)
    tempo := commit.timeline.tempo
    numChannels := commit.numChannels.toUInt32
    sampleRate := commit.sampleRate
    numFrames := commit.numFrames.toUInt32
    sessionId := commit.sessionId }

end Commit

/-- Where the thread that has the writer's lock stands; `limit` is the size it has loaded. -/
inductive SinkAt
  | idle
  | locked
  | taking
  | sizing
  | growing (limit : Nat)
  | holding
  | committing (commit : Commit) (limit : Nat)

instance : ResizerSink (List Block) := ⟨fun blocks block => blocks ++ [block]⟩

/-- `waiting` counts the threads that found the sink connected and wait for the writer's lock. -/
structure SinkBuffers where
  maxNumSamples : Nat
  isConnected : Bool
  waiting : Nat
  place : SinkAt
  queue : SlotQueue Buffer
  readerLimit : Nat
  resizer : Resizer (List Block)

inductive ReaderOp
  | retain
  | step
  | release
  | discard

def ReaderOp.queueOp : ReaderOp → QueueOp Buffer
  | .retain => .readerRetain
  | .step => .readerStep
  | .release => .readerRelease
  | .discard => .readerDiscard

inductive SinkOp
  | setIsConnected (isConnected : Bool)
  | requestMaxNumSamples (numSamples : Nat)
  | retainBuffer
  | lock
  | advance
  | writeSample (i : Nat) (sample : Int16)
  | commit (commit : Commit)
  | release
  | readerSize
  | readerEncode
  | readerGrow
  | readerRenew
  | reader (op : ReaderOp)

namespace SinkBuffers

def SINK_QUEUE_SIZE : Nat := 128

def new (maxNumSamples : Nat) : SinkBuffers where
  maxNumSamples
  isConnected := false
  waiting := 0
  place := .idle
  queue := .new SINK_QUEUE_SIZE (Buffer.new maxNumSamples)
  readerLimit := 0
  resizer := .new [] MAX_AUDIO_BYTES

def handOver (s : SinkBuffers) (f : Buffer → Buffer) : SinkBuffers :=
  { s with queue := (s.queue.step (.writerWrite f)).step .writerRelease, place := .idle }

def advance (s : SinkBuffers) : SinkBuffers :=
  match s.place with
  | .locked =>
    if s.queue.writer.current.isSome then { s with place := .idle }
    else { s with queue := s.queue.step .writerRetain, place := .taking }
  | .taking =>
    let queue := s.queue.step .writerTake
    { s with queue, place := if queue.writer.current.isSome then .sizing else .idle }
  | .sizing => { s with place := .growing s.maxNumSamples }
  | .growing limit =>
    { s with queue := s.queue.step (.writerWrite (Buffer.grow limit)), place := .holding }
  -- A commit that returns `false` drops the handle.
  | .committing commit limit =>
    s.handOver (if commit.Accepted limit then commit.write else Buffer.clearTiming)
  | _ => s

def step (s : SinkBuffers) : SinkOp → SinkBuffers
  | .setIsConnected isConnected => { s with isConnected }
  | .requestMaxNumSamples numSamples =>
    { s with maxNumSamples := max s.maxNumSamples numSamples }
  | .retainBuffer => if s.isConnected then { s with waiting := s.waiting + 1 } else s
  | .lock =>
    match s.place, s.waiting with
    | .idle, waiting + 1 => { s with waiting, place := .locked }
    | _, _ => s
  | .advance => s.advance
  | .writeSample i sample =>
    match s.place with
    | .holding =>
      { s with queue := s.queue.step (.writerWrite fun buffer =>
          { buffer with samples := buffer.samples.set i sample }) }
    | _ => s
  | .commit commit =>
    match s.place with
    | .holding => { s with place := .committing commit s.maxNumSamples }
    | _ => s
  | .release =>
    match s.place with
    | .holding => s.handOver Buffer.clearTiming
    | _ => s
  | .readerSize => { s with readerLimit := s.maxNumSamples }
  | .readerEncode =>
    match s.queue.reader.place, s.queue.reader.current with
    | .idle, some slot =>
      if slot.value.tempo.bpm > 0.0 then { s with resizer := s.resizer.process slot.value } else s
    | _, _ => s
  -- The sink's encoder is replaced when its buffers are discarded.
  | .readerRenew => { s with resizer := .new [] MAX_AUDIO_BYTES }
  | .readerGrow => { s with queue := s.queue.step (.readerWrite (Buffer.grow s.readerLimit)) }
  | .reader op => { s with queue := s.queue.step op.queueOp }

def loads (s : SinkBuffers) : SinkOp → List Nat
  | .advance =>
    match s.place with
    | .sizing => [s.maxNumSamples]
    | _ => []
  | _ => []

def encodes (s : SinkBuffers) : SinkOp → List (Option Buffer)
  | .readerEncode =>
    match s.queue.reader.place, s.queue.reader.current with
    | .idle, some slot => if slot.value.tempo.bpm > 0.0 then [some slot.value] else []
    | _, _ => []
  | .readerRenew => [none]
  | _ => []

end SinkBuffers

end AbletonLink.Audio
