import AbletonLink.Audio.Engine
import AbletonLink.Audio.Stream

/-! What a sink sends comes from the buffers its writer released, although the outbox is emptied
round by round. -/

namespace AbletonLink.Audio

open Link

namespace Resizer

variable {S : Type}

def mapSuccessor (f : S → S) (r : Resizer S) : Resizer S := { r with successor := f r.successor }

variable [ResizerSink S]

def adapt (r : Resizer S) (input : Buffer) : Resizer S :=
  if r.cachedFrames ≠ 0 ∧ (input.numChannels ≠ r.numChannels ∨
    input.sampleRate ≠ r.sampleRate ∨ input.sessionId ≠ r.sessionId) then r.flush else r

def place (r : Resizer S) (input : Buffer) : Resizer S :=
  if r.cachedFrames = 0 then
    newChunk
      { r with
        sampleRate := input.sampleRate
        numChannels := input.numChannels
        sessionId := input.sessionId
        chunks := [] }
      input.beginBeats input.tempo
  else
    match r.chunks.getLast? with
    | none => r
    | some last =>
      if !(input.tempo == last.tempo) ∨
          (input.beginBeats - r.chunkEndBeats last).abs > beatTimingTolerance then
        r.newChunk input.beginBeats input.tempo
      else r

theorem process_eq (r : Resizer S) (input : Buffer) :
    r.process input =
      if input.numChannels = 0 then r
      else if input.numFrames = 0 then r.adapt input
      else (List.range input.numFrames.toNat).foldl (fun r frame => r.processFrame input frame)
        ((r.adapt input).place input) := rfl

section Natural

variable {f : S → S}
  (natural : ∀ s block, ResizerSink.flush (f s) block = f (ResizerSink.flush s block))
include natural

theorem mapSuccessor_flush (r : Resizer S) :
    (r.mapSuccessor f).flush = r.flush.mapSuccessor f := by
  show (if r.chunks.isEmpty then _ else _) = mapSuccessor f (if r.chunks.isEmpty then _ else _)
  split
  · rfl
  · dsimp only [mapSuccessor]
    rw [natural]

theorem mapSuccessor_newChunk (r : Resizer S) (beats : Beats) (tempo : Tempo) :
    (r.mapSuccessor f).newChunk beats tempo = (r.newChunk beats tempo).mapSuccessor f := by
  let counted : Resizer S := { r with count := r.count + 1 }
  let full := (r.cachedFrames + 1) * (r.numChannels.toNat * sampleBytes) +
    r.chunks.length * Chunk.SIZE > r.maxNumBytes
  show openChunk (if full then (counted.mapSuccessor f).flush else counted.mapSuccessor f) _ =
    (openChunk (if full then counted.flush else counted) _).mapSuccessor f
  rw [mapSuccessor_flush natural]
  split <;> rfl

theorem mapSuccessor_processFrame (r : Resizer S) (input : Buffer) (frame : Nat) :
    (r.mapSuccessor f).processFrame input frame = (r.processFrame input frame).mapSuccessor f := by
  let copied := r.withFrame input frame
  let beats := (copied.chunks.getLast?.map copied.chunkEndBeats).getD input.beginBeats
  show (if copied.cachedFrames ≥ copied.availableFrames then
      if frame + 1 < input.numFrames.toNat then
        (copied.mapSuccessor f).flush.newChunk beats input.tempo
      else (copied.mapSuccessor f).flush
    else copied.mapSuccessor f) =
    mapSuccessor f (if copied.cachedFrames ≥ copied.availableFrames then
      if frame + 1 < input.numFrames.toNat then copied.flush.newChunk beats input.tempo
      else copied.flush
    else copied)
  rw [mapSuccessor_flush natural, mapSuccessor_newChunk natural]
  split
  · split <;> rfl
  · rfl

theorem mapSuccessor_adapt (r : Resizer S) (input : Buffer) :
    (r.mapSuccessor f).adapt input = (r.adapt input).mapSuccessor f := by
  unfold adapt
  rw [apply_ite (mapSuccessor f), mapSuccessor_flush natural]
  rfl

theorem mapSuccessor_place (r : Resizer S) (input : Buffer) :
    (r.mapSuccessor f).place input = (r.place input).mapSuccessor f := by
  unfold place
  rw [apply_ite (mapSuccessor f), ← mapSuccessor_newChunk natural]
  refine if_congr Iff.rfl rfl ?_
  show (match r.chunks.getLast? with
    | none => r.mapSuccessor f
    | some last => _) = _
  cases r.chunks.getLast? with
  | none => rfl
  | some last =>
    dsimp only
    rw [apply_ite (mapSuccessor f), ← mapSuccessor_newChunk natural]
    rfl

theorem mapSuccessor_process (r : Resizer S) (input : Buffer) :
    (r.mapSuccessor f).process input = (r.process input).mapSuccessor f := by
  have frames : ∀ (frames : List Nat) (r : Resizer S),
      frames.foldl (fun r frame => r.processFrame input frame) (r.mapSuccessor f) =
        (frames.foldl (fun r frame => r.processFrame input frame) r).mapSuccessor f := by
    intro frames
    induction frames with
    | nil => exact fun _ => rfl
    | cons frame frames ih =>
      intro r
      rw [List.foldl_cons, List.foldl_cons, mapSuccessor_processFrame natural]
      exact ih _
  rw [process_eq, process_eq, mapSuccessor_adapt natural, mapSuccessor_place natural, frames,
    apply_ite (mapSuccessor f), apply_ite (mapSuccessor f)]

end Natural

end Resizer

theorem infix_flatMap_of_mem {α β : Type*} {f : α → List β} {a : α} {l : List α} (member : a ∈ l) :
    f a <:+: l.flatMap f := by
  obtain ⟨before, after, rfl⟩ := List.append_of_mem member
  exact ⟨before.flatMap f, after.flatMap f, by simp⟩

def Buffer.audible (buffer : Buffer) : Bool := decide (buffer.tempo.bpm > 0.0)

/-- A buffer on the wire carries a part of what was captured for its channel, without a gap. -/
def CarriesOf (captured : List Buffer) (channelId : Id) (sent : AudioBuffer) : Prop :=
  ∃ block : Block, sent = block.buffer channelId ∧ block.Sound .decodable MAX_AUDIO_BYTES ∧
    ∃ buffers, buffers <:+: captured ∧
      block.samples <:+: (buffers.filter Buffer.audible).flatMap Buffer.used

theorem CarriesOf.more {captured : List Buffer} {channelId : Id} {sent : AudioBuffer}
    (h : CarriesOf captured channelId sent) (more : List Buffer) :
    CarriesOf (captured ++ more) channelId sent := by
  obtain ⟨block, same, sound, buffers, part, samples⟩ := h
  exact ⟨block, same, sound, buffers, part.trans (List.prefix_append captured more).isInfix,
    samples⟩

namespace Encoder

def putBack (drained : List AudioBuffer) (pcm : PcmEncoder (List AudioBuffer)) :
    PcmEncoder (List AudioBuffer) := { pcm with sender := drained ++ pcm.sender }

theorem putBack_flush (drained : List AudioBuffer) (pcm : PcmEncoder (List AudioBuffer))
    (block : Block) : ResizerSink.flush (putBack drained pcm) block =
      putBack drained (ResizerSink.flush pcm block) := by
  show PcmEncoder.flush _ _ = putBack drained (PcmEncoder.flush _ _)
  unfold PcmEncoder.flush
  extract_lets output numSamples complete
  rw [apply_ite (putBack drained)]
  refine if_congr Iff.rfl rfl ?_
  dsimp only [putBack, AudioBufferSender.send]
  rw [List.append_assoc]
  rfl

def whole (encoder : Encoder (List AudioBuffer)) (drained : List AudioBuffer) :
    Resizer (PcmEncoder (List AudioBuffer)) := encoder.resizer.mapSuccessor (putBack drained)

/-- Since it was made the encoder was given `inputs`. -/
def Follows (encoder : Encoder (List AudioBuffer)) (channelId : Id) (inputs : List Buffer) : Prop :=
  ∃ drained frames, (encoder.whole drained).Resting .decodable ∧
    (encoder.whole drained).Carries .decodable (.new (.new [] channelId) MAX_AUDIO_BYTES)
      (inputs.flatMap Buffer.used) frames

variable {encoder : Encoder (List AudioBuffer)} {channelId : Id} {inputs : List Buffer}

theorem follows_new (channelId : Id) : (Encoder.new [] channelId).Follows channelId [] := by
  have most : MAX_AUDIO_BYTES < 2 ^ 16 := by decide
  exact ⟨[], 0, .inl ⟨rfl, rfl⟩, Resizer.carries_new (PcmEncoder.new [] channelId) most⟩

theorem Follows.encode (h : encoder.Follows channelId inputs) {input : Buffer}
    (playable : input.Playable) : (encoder.encode input).Follows channelId (inputs ++ [input]) := by
  obtain ⟨drained, frames, resting, carries⟩ := h
  have least : 4 ≤ MAX_AUDIO_BYTES := by decide
  obtain ⟨carries, resting⟩ := Resizer.process_carries resting carries (playable.whole least)
  have same : (encoder.encode input).whole drained = (encoder.whole drained).process input :=
    (Resizer.mapSuccessor_process (putBack_flush drained) _ _).symm
  rw [← same] at carries resting
  have input_eq : (inputs ++ [input]).flatMap Buffer.used =
      inputs.flatMap Buffer.used ++ input.used := by
    rw [List.flatMap_append, List.flatMap_singleton]
  rw [← input_eq] at carries
  exact ⟨drained, _, resting, carries⟩

theorem Follows.encodeAll (h : encoder.Follows channelId inputs) {more : List Buffer}
    (playable : ∀ input ∈ more, input.Playable) :
    (more.foldl Encoder.encode encoder).Follows channelId (inputs ++ more) := by
  induction more generalizing encoder inputs with
  | nil =>
    rw [List.append_nil]
    exact h
  | cons input more ih =>
    obtain ⟨here, others⟩ := List.forall_mem_cons.mp playable
    have rest := ih (h.encode here) others
    rwa [List.append_assoc] at rest

theorem Follows.drain (h : encoder.Follows channelId inputs) :
    (SinkEntry.drain encoder).1.Follows channelId inputs := by
  obtain ⟨drained, frames, resting, carries⟩ := h
  have same : (SinkEntry.drain encoder).1.whole (drained ++ encoder.sent) =
      encoder.whole drained := by
    show Resizer.mapSuccessor _ _ = Resizer.mapSuccessor _ _
    unfold Resizer.mapSuccessor putBack
    dsimp only [SinkEntry.drain, Encoder.sent]
    rw [List.append_nil]
  rw [← same] at resting carries
  exact ⟨drained ++ encoder.sent, frames, resting, carries⟩

theorem Follows.sent (h : encoder.Follows channelId inputs) {sent : AudioBuffer}
    (member : sent ∈ (SinkEntry.drain encoder).2) :
    ∃ block : Block, sent = block.buffer channelId ∧ block.Sound .decodable MAX_AUDIO_BYTES ∧
      block.samples <:+: inputs.flatMap Buffer.used := by
  obtain ⟨drained, frames, -, -, blocks, history⟩ := h
  have limit : (encoder.whole drained).maxNumBytes = MAX_AUDIO_BYTES := history.limit
  have sound := history.sound
  rw [limit] at sound
  have sender : drained ++ encoder.sent = blocks.map (Block.buffer channelId) := by
    have flushed : (blocks.foldl ResizerSink.flush (PcmEncoder.new [] channelId)).sender = _ :=
      PcmEncoder.flush_blocks sound (by decide)
    have successor := congrArg PcmEncoder.sender history.successor
    exact successor.trans flushed
  have among : sent ∈ blocks.map (Block.buffer channelId) := by
    rw [← sender]
    exact List.mem_append_right drained member
  obtain ⟨block, inside, same⟩ := List.mem_map.mp among
  refine ⟨block, same.symm, sound block inside, ?_⟩
  have samples := history.samples
  rw [← samples]
  exact (infix_flatMap_of_mem inside).trans (List.prefix_append _ _).isInfix

end Encoder

namespace SinkEntry

/-- The encoder was given what the reader took since the last discard, and the rest is pending. -/
def Follows (entry : SinkEntry) (captured : List Buffer) : Prop :=
  ∃ before inputs, captured = before ++ inputs ++ entry.pending ∧
    entry.encoder.Follows entry.sink.id (inputs.filter Buffer.audible)

variable {entry : SinkEntry} {captured : List Buffer}

theorem Follows.release (h : entry.Follows captured) (buffer : Buffer) :
    Follows { entry with pending := entry.pending ++ [buffer] } (captured ++ [buffer]) := by
  obtain ⟨before, inputs, split, follows⟩ := h
  refine ⟨before, inputs, ?_, follows⟩
  rw [split, List.append_assoc _ entry.pending]

theorem follows_of_discarded (captured : List Buffer) (pending : entry.pending = [])
    (encoder : entry.encoder = .new [] entry.sink.id) : entry.Follows captured := by
  refine ⟨captured, [], ?_, ?_⟩
  · rw [pending, List.append_nil, List.append_nil]
  · rw [encoder]
    exact Encoder.follows_new entry.sink.id

theorem Follows.process (h : entry.Follows captured)
    (playable : ∀ buffer ∈ captured, buffer.audible = true → buffer.Playable) (now : Instant) :
    (entry.process now).1.Follows captured ∧
      ∀ message ∈ (entry.process now).2, CarriesOf captured entry.sink.id message.1 := by
  obtain ⟨before, inputs, split, follows⟩ := h
  have fits : ∀ input ∈ entry.pending.filter Buffer.audible, input.Playable := by
    intro input member
    obtain ⟨pending, audible⟩ := List.mem_filter.mp member
    refine playable input ?_ audible
    rw [split]
    exact List.mem_append_right _ pending
  have encoded := follows.encodeAll fits
  rw [← List.filter_append] at encoded
  constructor
  · refine ⟨before, inputs ++ entry.pending, ?_, encoded.drain⟩
    show captured = before ++ (inputs ++ entry.pending) ++ []
    rw [split, List.append_nil, List.append_assoc]
  · intro message member
    obtain ⟨buffer, inside, pair⟩ := List.mem_flatMap.mp member
    obtain ⟨endpoint, -, rfl⟩ := List.mem_map.mp pair
    obtain ⟨block, same, sound, samples⟩ := encoded.sent inside
    refine ⟨block, same, sound, inputs ++ entry.pending, ?_, samples⟩
    rw [split, List.append_assoc]
    exact (List.suffix_append before _).isInfix

end SinkEntry

end AbletonLink.Audio
