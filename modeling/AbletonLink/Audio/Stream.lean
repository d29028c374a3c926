import AbletonLink.Audio.Codec
import AbletonLink.Audio.PeriodBuffer
import AbletonLink.Audio.ResizerLaws

/-! The audio stream from application buffers over the wire and back to samples. -/

namespace AbletonLink.Audio

open Library Library.Bytes Link Wire

@[simp] theorem length_encodeI16 (v : Int16) : (encodeI16 v).length = 2 := by
  simp [encodeI16]

def Block.buffer (channelId : Id) (block : Block) : AudioBuffer where
  channelId
  sessionId := block.sessionId
  chunks := block.chunks
  codec := .pcmI16
  sampleRate := block.sampleRate
  numChannels := block.numChannels.toUInt8
  bytes := block.samples.flatMap encodeI16

theorem Block.length_bytes (channelId : Id) (block : Block) :
    (block.buffer channelId).bytes.length = 2 * block.samples.length := by
  simp [Block.buffer, List.length_flatMap]
  omega

theorem toNat_numFrames {buffer : AudioBuffer} (small : framesOf buffer.chunks < 2 ^ 32) :
    buffer.numFrames.toNat = framesOf buffer.chunks :=
  MachineInt.toNat_sum_u32 (fun chunk => (UInt32.ofNat_uInt16ToNat chunk.numFrames).symm) small

namespace Block.Sound

variable {block : Block} {maxNumBytes : Nat}

theorem toNat_channels (h : block.Sound .decodable maxNumBytes) :
    block.numChannels.toUInt8.toNat = block.numChannels.toNat ∧ 0 < block.numChannels.toNat := by
  cases h.format.1 with
  | inl mono => rw [mono]; decide
  | inr stereo => rw [stereo]; decide

theorem numFrames (h : block.Sound .decodable maxNumBytes) (few : maxNumBytes < 2 ^ 16)
    {buffer : AudioBuffer} (chunks : buffer.chunks = block.chunks) :
    buffer.numFrames.toNat * block.numChannels.toNat = block.samples.length := by
  have samples := h.samples
  have small := h.small
  have frames : framesOf block.chunks ≤ framesOf block.chunks * block.numChannels.toNat :=
    Nat.le_mul_of_pos_right _ h.toNat_channels.2
  rw [toNat_numFrames (by rw [chunks]; omega), chunks, samples]

theorem acceptable (h : block.Sound .decodable maxNumBytes)
    (few : maxNumBytes ≤ AudioBuffer.MAX_AUDIO_BYTES)
    (channelId : Id) : (block.buffer channelId).Acceptable := by
  have small := h.small
  have chunks : 0 < block.chunks.length := List.length_pos_iff.mpr h.chunks
  have limit : AudioBuffer.MAX_AUDIO_BYTES = 1126 := rfl
  have size : Chunk.SIZE = 26 := rfl
  rw [limit] at few
  rw [size] at small
  have frames := h.numFrames (by omega)
    (show (block.buffer channelId).chunks = block.chunks from rfl)
  refine
    { chunks := h.chunks
      few := ?_
      sounding := h.tempo
      codec := rfl
      sampleRate := h.format.2
      numChannels := ?_
      small := ?_
      frames := ?_ }
  · show block.chunks.length < 2 ^ 32
    omega
  · show block.numChannels.toUInt8 = 1 ∨ block.numChannels.toUInt8 = 2
    cases h.format.1 with
    | inl mono => exact .inl (by rw [mono]; rfl)
    | inr stereo => exact .inr (by rw [stereo]; rfl)
  · rw [block.length_bytes, limit]
    omega
  · show (block.buffer channelId).numFrames.toNat * block.numChannels.toUInt8.toNat * 2 = _
    rw [h.toNat_channels.1, frames, block.length_bytes]
    omega

end Block.Sound

namespace PcmEncoder

theorem flush_sound {encoder : PcmEncoder (List AudioBuffer)} {block : Block} {maxNumBytes : Nat}
    (h : block.Sound .decodable maxNumBytes) (few : maxNumBytes < 2 ^ 16) :
    encoder.flush block =
      ⟨block.buffer encoder.output.channelId,
        encoder.sender ++ [block.buffer encoder.output.channelId]⟩ := by
  have frames : (block.chunks.map fun chunk : Chunk => chunk.numFrames.toUInt32).sum.toNat *
      block.numChannels.toNat = block.samples.length :=
    h.numFrames few (show (block.buffer encoder.output.channelId).chunks = block.chunks from rfl)
  simp only [flush, AudioBuffer.numFrames, frames, Nat.min_self, List.take_length, ne_eq,
    not_true_eq_false, if_false]
  rfl

theorem flush_blocks {encoder : PcmEncoder (List AudioBuffer)} {blocks : List Block}
    {maxNumBytes : Nat} (h : ∀ block ∈ blocks, block.Sound .decodable maxNumBytes)
    (few : maxNumBytes < 2 ^ 16) :
    (blocks.foldl ResizerSink.flush encoder).sender =
      encoder.sender ++ blocks.map (Block.buffer encoder.output.channelId) := by
  induction blocks generalizing encoder with
  | nil => simp
  | cons block blocks ih =>
    obtain ⟨here, others⟩ := List.forall_mem_cons.mp h
    have sent : ResizerSink.flush encoder block = _ := flush_sound here few
    rw [List.foldl_cons, sent, ih others]
    simp [Block.buffer]

end PcmEncoder

namespace PcmDecoder

theorem readI16_encode (v : Int16) (rest : Bytes) :
    ByteStreamReader.readI16 (encodeI16 v ++ rest) = .ok (v, rest) := by
  have read := (ByteStreamReader.Reads.readU16 v.toUInt16).map UInt16.toInt16
  rw [Int16.toInt16_toUInt16] at read
  exact read rest

theorem store_sample (cache before : List Int16) (sample : Int16)
    (room : before.length ≤ cache.length) (front : cache.take before.length = before) :
    let cache' := if before.length = cache.length then cache ++ [sample]
      else cache.set before.length sample
    (before ++ [sample]).length ≤ cache'.length ∧
      cache'.take (before ++ [sample]).length = before ++ [sample] := by
  simp only [List.length_append, List.length_singleton]
  split
  next full =>
    rw [full, List.take_length] at front
    rw [front]
    simp
  next =>
    have inside : before.length < cache.length := by omega
    refine ⟨by rw [List.length_set]; omega, ?_⟩
    rw [List.take_add_one, List.take_set_of_le (Nat.le_refl _), front]
    simp [inside]

theorem fill_samples (cache before samples : List Int16) {fuel : Nat}
    (room : before.length ≤ cache.length) (front : cache.take before.length = before)
    (enough : samples.length ≤ fuel) :
    ∃ cache', fill cache before.length fuel (samples.flatMap encodeI16) =
        (cache', (before ++ samples).length) ∧
      (before ++ samples).length ≤ cache'.length ∧
      cache'.take (before ++ samples).length = before ++ samples := by
  induction samples generalizing cache before fuel with
  | nil =>
    refine ⟨cache, ?_, ?_, ?_⟩
    · cases fuel <;> simp [fill]
    · simpa using room
    · simpa using front
  | cons sample samples ih =>
    cases fuel with
    | zero => exact absurd enough (by simp)
    | succ fuel =>
      obtain ⟨room', front'⟩ := store_sample cache before sample room front
      have rest := ih _ (before ++ [sample]) room' front' (Nat.le_of_succ_le_succ enough)
      rw [List.append_assoc, List.singleton_append] at rest
      have some : (List.flatMap encodeI16 (sample :: samples)).isEmpty = false := by
        simp [encodeI16, encodeU16, toBe]
      have read : ByteStreamReader.readI16 (List.flatMap encodeI16 (sample :: samples)) =
          .ok (sample, samples.flatMap encodeI16) := readI16_encode sample _
      rw [fill, some]
      simp only [read, Bool.false_eq_true, if_false]
      rw [List.length_append, List.length_singleton] at rest
      exact rest

theorem handles_samples (samples : List Int16) (numSamples : Nat) (input : AudioBuffer)
    (offset : Nat) (chunks : List Chunk)
    (enough : offset + framesOf chunks * input.numChannels.toNat ≤ numSamples) :
    (handles samples numSamples input offset chunks).flatMap BufferCallbackHandle.samples =
      (samples.drop offset).take (framesOf chunks * input.numChannels.toNat) := by
  induction chunks generalizing offset with
  | nil => simp [handles]
  | cons chunk chunks ih =>
    have split : framesOf (chunk :: chunks) * input.numChannels.toNat =
        chunk.numFrames.toNat * input.numChannels.toNat +
          framesOf chunks * input.numChannels.toNat := by
      rw [← Nat.add_mul]
      rfl
    rw [split] at enough ⊢
    have inside : ¬offset + chunk.numFrames.toNat * input.numChannels.toNat > numSamples := by
      omega
    rw [handles]
    simp only [if_neg inside]
    have first : (samples.take (offset + chunk.numFrames.toNat * input.numChannels.toNat)).drop
        offset = (samples.drop offset).take (chunk.numFrames.toNat * input.numChannels.toNat) := by
      rw [List.drop_take, Nat.add_sub_cancel_left]
    rw [List.flatMap_cons, ih _ (by omega), first, List.take_add, List.drop_drop]

theorem decode_buffer {block : Block} {maxNumBytes : Nat} (h : block.Sound .decodable maxNumBytes)
    (decoder : PcmDecoder) {input : AudioBuffer} (codec : input.codec = .pcmI16)
    (channels : input.numChannels = block.numChannels.toUInt8)
    (frames : framesOf input.chunks = framesOf block.chunks)
    (bytes : input.bytes = block.samples.flatMap encodeI16) :
    (decoder.decode input).2.flatMap BufferCallbackHandle.samples = block.samples := by
  obtain ⟨toNat, positive⟩ := h.toNat_channels
  have some : ¬(input.codec ≠ .pcmI16 ∨ input.numChannels = 0) := by
    rintro (other | zero)
    · exact other codec
    · rw [channels] at zero
      rw [← toNat, zero] at positive
      exact absurd positive (by decide)
  have enough : block.samples.length ≤ input.bytes.length := by
    rw [bytes]
    simp [List.length_flatMap]
    omega
  obtain ⟨cache, filled, room, front⟩ := fill_samples decoder.samples [] block.samples (by simp)
    (by simp) enough
  rw [List.nil_append] at filled room front
  rw [List.length_nil, ← bytes] at filled
  have count : framesOf input.chunks * input.numChannels.toNat = block.samples.length := by
    rw [frames, channels, toNat, h.samples]
  rw [decode, if_neg some, filled]
  show (handles _ _ _ _ _).flatMap _ = _
  rw [handles_samples _ _ _ _ _ (by omega), count, List.drop_zero, front]

theorem play_blocks (decoder : PcmDecoder) {blocks : List Block} {maxNumBytes : Nat}
    (h : ∀ block ∈ blocks, block.Sound .decodable maxNumBytes) (carrier : Block → AudioBuffer)
    (codec : ∀ block, (carrier block).codec = .pcmI16)
    (channels : ∀ block, (carrier block).numChannels = block.numChannels.toUInt8)
    (frames : ∀ block, framesOf (carrier block).chunks = framesOf block.chunks)
    (bytes : ∀ block, (carrier block).bytes = block.samples.flatMap encodeI16) :
    decoder.play (blocks.map carrier) = blocks.flatMap Block.samples := by
  induction blocks generalizing decoder with
  | nil => rfl
  | cons block blocks ih =>
    obtain ⟨here, others⟩ := List.forall_mem_cons.mp h
    have first := decode_buffer here decoder (codec block) (channels block) (frames block)
      (bytes block)
    rw [List.map_cons, play, List.flatMap_cons]
    exact congrArg₂ (· ++ ·) first (ih _ others)

end PcmDecoder

/-- The encoder after a run of application buffers and the final flush. -/
def Encoder.run (channelId : Id) (inputs : List Buffer) : Encoder (List AudioBuffer) :=
  (inputs.foldl Encoder.encode (Encoder.new [] channelId)).flush

def Encoder.sent {S : Type} (encoder : Encoder S) : S := encoder.resizer.successor.sender

theorem Encoder.foldl_encode {S : Type} [AudioBufferSender S] (encoder : Encoder S)
    (inputs : List Buffer) : (inputs.foldl Encoder.encode encoder).resizer =
      inputs.foldl Resizer.process encoder.resizer := by
  induction inputs generalizing encoder with
  | nil => rfl
  | cons input inputs ih => exact ih _

/-- The stream survives encoding: every buffer sent is accepted as it was encoded, both what is sent
and what is received plays the used samples of the inputs in order, and the chunks are numbered
without a gap, not empty, and have as many frames as the inputs. -/
theorem stream_survives (channelId : Id) (inputs : List Buffer)
    (playable : ∀ input ∈ inputs, input.Playable) (decoder : PcmDecoder) :
    let sent := (Encoder.run channelId inputs).sent
    let chunks := sent.flatMap AudioBuffer.chunks
    (∀ buffer ∈ sent, AudioBuffer.decodeRaw buffer.encodeRaw = .ok buffer.received) ∧
      decoder.play sent = inputs.flatMap Buffer.used ∧
      decoder.play (sent.map AudioBuffer.received) = inputs.flatMap Buffer.used ∧
      chunks.map Chunk.count = (List.range chunks.length).map (fun i => UInt64.ofNat (i + 1)) ∧
      (∀ chunk ∈ chunks, 0 < chunk.numFrames.toNat) ∧
      (chunks.map fun chunk => chunk.numFrames.toNat).sum =
        (inputs.map fun input => input.numFrames.toNat).sum := by
  obtain ⟨blocks, successor, sound, samples, ⟨count, numbered⟩, frames⟩ :=
    Resizer.blocks_of_buffers (PcmEncoder.new ([] : List AudioBuffer) channelId)
      (show 4 ≤ MAX_AUDIO_BYTES by decide) (by decide) playable
  have sent : (Encoder.run channelId inputs).sent = blocks.map (Block.buffer channelId) := by
    show (inputs.foldl Encoder.encode
      (Encoder.new [] channelId)).resizer.flush.successor.sender = _
    rw [Encoder.foldl_encode]
    exact (congrArg PcmEncoder.sender successor).trans (PcmEncoder.flush_blocks sound (by decide))
  have chunks : (blocks.map (Block.buffer channelId)).flatMap AudioBuffer.chunks =
      blocks.flatMap Block.chunks := by
    rw [List.flatMap_map]
    rfl
  simp only [sent, chunks]
  refine ⟨?_, ?_, ?_, numbered.counts, ?_, frames⟩
  · intro buffer member
    obtain ⟨block, inside, rfl⟩ := List.mem_map.mp member
    exact AudioBuffer.decodeRaw_encodeRaw ((sound block inside).acceptable (by decide) channelId)
  · rw [← samples]
    exact PcmDecoder.play_blocks decoder sound _ (fun _ => rfl) (fun _ => rfl) (fun _ => rfl)
      fun _ => rfl
  · rw [← samples, List.map_map]
    refine PcmDecoder.play_blocks decoder sound _ (fun _ => rfl) (fun _ => rfl) (fun block => ?_)
      fun _ => rfl
    simp [framesOf, AudioBuffer.received, Block.buffer, Function.comp_def]
  · intro chunk member
    obtain ⟨block, inside, member⟩ := List.mem_flatMap.mp member
    exact (sound block inside).frames chunk member

def stereoBuffer : Buffer where
  sampleRate := 48000
  numChannels := 2
  numFrames := 3
  samples := [1, -2, 3, -4, 5, -6, 7]
  beginBeats := ⟨0⟩
  tempo := ⟨120.0⟩
  sessionId := default

theorem stereoBuffer_survives :
    PcmDecoder.play (.new 4) (Encoder.run default [stereoBuffer, stereoBuffer]).sent =
      [1, -2, 3, -4, 5, -6, 1, -2, 3, -4, 5, -6] := by
  have playable : stereoBuffer.Playable :=
    { numChannels := .inr rfl
      sampleRate := by decide
      sounding := by
        unfold Sounding
        decide +kernel
      enough := by decide
      indexed := by decide }
  exact (stream_survives default [stereoBuffer, stereoBuffer] (by simp [playable]) (.new 4)).2.1

end AbletonLink.Audio
