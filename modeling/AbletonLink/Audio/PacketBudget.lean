import AbletonLink.Audio.Messages
import AbletonLink.Audio.Stream

/-! Every audio packet fits the budget of a datagram. -/

namespace AbletonLink.Audio

open Library Library.Bytes Link Wire

namespace Resizer

section Checked

variable {S : Type} [ResizerSink S]

def checkedOpenChunk (r : Resizer S) (chunk : Chunk) : Option (Resizer S) :=
  let extraChunkBytes := ((r.chunks ++ [chunk]).length - 1) * Chunk.SIZE
  if extraChunkBytes > r.maxNumBytes then none else some (r.openChunk chunk)

def checkedNewChunk (r : Resizer S) (beats : Beats) (tempo : Tempo) : Option (Resizer S) :=
  let r := { r with count := r.count + 1 }
  let bytesPerFrame := r.numChannels.toNat * sampleBytes
  let full := (r.cachedFrames + 1) * bytesPerFrame + r.chunks.length * Chunk.SIZE > r.maxNumBytes
  checkedOpenChunk (if full then r.flush else r)
    { count := r.count, numFrames := 0, beginBeats := beats, tempo }

/-- `copyFrame` with every index into the cache checked, also where the samples end before it. -/
def checkedCopyFrame (samples : List Int16) (numChannels frame cachedFrames : Nat)
    (cache : List Int16) : List Nat → Option (List Int16)
  | [] => some cache
  | channel :: channels =>
    let src := (numChannels * frame + channel) % 2 ^ 32
    let dst := numChannels * cachedFrames + channel
    if dst ≥ cache.length ∨ dst ≥ 2 ^ 32 then none
    else
      match samples[src]? with
      | none => some cache
      | some sample =>
        checkedCopyFrame samples numChannels frame cachedFrames (cache.set dst sample) channels

def checkedProcessFrame (r : Resizer S) (input : Buffer) (frame : Nat) : Option (Resizer S) := do
  let numChannels := input.numChannels.toNat
  let cache ← checkedCopyFrame input.samples numChannels frame r.cachedFrames r.cache
    (List.range numChannels)
  let r :=
    { r with
      cache
      cachedFrames := r.cachedFrames + 1
      chunks := countFrame r.chunks }
  if r.cachedFrames ≥ r.availableFrames then
    let nextChunkBeginBeats := (r.chunks.getLast?.map r.chunkEndBeats).getD input.beginBeats
    let r := r.flush
    if frame + 1 < input.numFrames.toNat then r.checkedNewChunk nextChunkBeginBeats input.tempo
    else some r
  else some r

def checkedProcess (r : Resizer S) (input : Buffer) : Option (Resizer S) :=
  if input.numChannels = 0 then some r
  else
    let r :=
      if r.cachedFrames ≠ 0 ∧ (input.numChannels ≠ r.numChannels ∨
          input.sampleRate ≠ r.sampleRate ∨ input.sessionId ≠ r.sessionId) then r.flush
      else r
    if input.numFrames = 0 then some r
    else do
      let r ←
        if r.cachedFrames = 0 then
          checkedNewChunk
            { r with
              sampleRate := input.sampleRate
              numChannels := input.numChannels
              sessionId := input.sessionId
              chunks := [] }
            input.beginBeats input.tempo
        else
          match r.chunks.getLast? with
          | none => some r
          | some last =>
            if !(input.tempo == last.tempo) ∨
                (input.beginBeats - r.chunkEndBeats last).abs > beatTimingTolerance then
              r.checkedNewChunk input.beginBeats input.tempo
            else some r
      (List.range input.numFrames.toNat).foldlM
        (fun r frame => r.checkedProcessFrame input frame) r

end Checked

def Budget {S : Type} (r : Resizer S) : Prop :=
  (r.chunks.length - 1) * Chunk.SIZE + r.cachedFrames * (r.numChannels.toNat * 2) ≤ r.maxNumBytes

/-- A chunk is open, and a frame of at least one channel fits behind what is cached. -/
structure Room {S : Type} (r : Resizer S) : Prop where
  channels : 0 < r.numChannels.toNat
  available : r.availableFrames =
    (r.maxNumBytes - (r.chunks.length - 1) * Chunk.SIZE) / (r.numChannels.toNat * 2)
  room : (r.chunks.length - 1) * Chunk.SIZE + (r.cachedFrames + 1) * (r.numChannels.toNat * 2) ≤
    r.maxNumBytes

theorem Room.budget {S : Type} {r : Resizer S} (h : r.Room) : r.Budget := by
  have room := h.room
  rw [Nat.succ_mul] at room
  unfold Budget
  omega

theorem Empty.budget {S : Type} {r : Resizer S} (h : r.Empty) : r.Budget := by
  simp [Budget, h.cachedFrames, h.chunks]

end Resizer

def AudioBuffer.Fits (buffer : AudioBuffer) : Prop :=
  (buffer.chunks.length - 1) * Chunk.SIZE + buffer.bytes.length ≤ Audio.MAX_AUDIO_BYTES

theorem AudioBuffer.length_encodeRaw (buffer : AudioBuffer) :
    buffer.encodeRaw.length = 28 + buffer.chunks.length * Chunk.SIZE + buffer.bytes.length := by
  have chunk (chunk : Chunk) : chunk.encode.length = Chunk.SIZE := by
    simp [Chunk.encode, Chunk.SIZE]
  simp [AudioBuffer.encodeRaw, List.length_flatMap, chunk, Chunk.SIZE]
  omega

theorem AudioBuffer.Fits.message {buffer : AudioBuffer} (h : buffer.Fits) (sender : NodeId) :
    ∃ message, audioBufferMessage sender buffer.encodeRaw = .ok message ∧
      message.length ≤ 576 := by
  have limit : Audio.MAX_AUDIO_BYTES = 502 := rfl
  have size : Chunk.SIZE = 26 := rfl
  have header : protocolHeaderSize + messageHeaderSize = 20 := rfl
  have most : maxMessageSize = 1200 := rfl
  have length := buffer.length_encodeRaw
  unfold AudioBuffer.Fits at h
  rw [size] at h length
  obtain ⟨message, sent, exact⟩ := encodeMessage_of_fits sender 0 typeAudioBuffer
    (show protocolHeaderSize + messageHeaderSize + buffer.encodeRaw.length ≤ maxMessageSize by
      omega)
  exact ⟨message, sent, by omega⟩

theorem PcmEncoder.flush_fits {encoder : PcmEncoder (List AudioBuffer)} {block : Block}
    (h : ∀ buffer ∈ encoder.sender, buffer.Fits)
    (fits : (block.chunks.length - 1) * Chunk.SIZE + 2 * block.samples.length ≤ MAX_AUDIO_BYTES) :
    ∀ buffer ∈ (encoder.flush block).sender, buffer.Fits := by
  unfold PcmEncoder.flush
  simp only
  split
  next => exact h
  next =>
    intro buffer member
    cases List.mem_append.mp member with
    | inl old => exact h buffer old
    | inr fresh =>
      obtain rfl := List.mem_singleton.mp fresh
      refine le_trans (Nat.add_le_add_left ?_ _) fits
      simp [List.length_flatMap]
      omega

namespace Resizer

structure Packed (r : Resizer (PcmEncoder (List AudioBuffer))) : Prop where
  limit : r.maxNumBytes = MAX_AUDIO_BYTES
  cache : r.cache.length = r.maxNumBytes / 2
  sent : ∀ buffer ∈ r.successor.sender, buffer.Fits

variable {r : Resizer (PcmEncoder (List AudioBuffer))}

theorem Packed.flush (h : r.Packed) (budget : r.Budget) : r.flush.Packed := by
  refine ⟨by rw [maxNumBytes_flush, h.limit], by rw [cache_flush, maxNumBytes_flush, h.cache], ?_⟩
  unfold Resizer.flush
  split
  next => exact h.sent
  next =>
    refine PcmEncoder.flush_fits h.sent ?_
    have samples : (r.cache.take (min (r.cachedFrames * r.numChannels.toNat)
        r.cache.length)).length ≤ r.cachedFrames * r.numChannels.toNat := by
      rw [List.length_take]
      omega
    unfold Budget at budget
    rw [← Nat.mul_assoc, h.limit] at budget
    show (r.chunks.length - 1) * Chunk.SIZE + 2 * (r.cache.take _).length ≤ MAX_AUDIO_BYTES
    omega

theorem Packed.openChunk (h : r.Packed) (channels : 0 < r.numChannels.toNat)
    (room : r.chunks.length * Chunk.SIZE + (r.cachedFrames + 1) * (r.numChannels.toNat * 2) ≤
      r.maxNumBytes) (chunk : Chunk) :
    r.checkedOpenChunk chunk = some (r.openChunk chunk) ∧ (r.openChunk chunk).Packed ∧
      (r.openChunk chunk).Room ∧ (r.openChunk chunk).numChannels = r.numChannels := by
  have length : (r.chunks ++ [chunk]).length - 1 = r.chunks.length := by simp
  refine ⟨if_neg ?_, ⟨h.limit, h.cache, h.sent⟩, ⟨channels, rfl, ?_⟩, rfl⟩
  · rw [length]
    omega
  · show ((r.chunks ++ [chunk]).length - 1) * Chunk.SIZE + _ ≤ _
    rw [length]
    exact room

theorem Packed.newChunk (h : r.Packed) (budget : r.Budget) (channels : 0 < r.numChannels.toNat)
    (few : 2 * r.numChannels.toNat ≤ MAX_AUDIO_BYTES) (beats : Beats) (tempo : Tempo) :
    r.checkedNewChunk beats tempo = some (r.newChunk beats tempo) ∧
      (r.newChunk beats tempo).Packed ∧ (r.newChunk beats tempo).Room ∧
      (r.newChunk beats tempo).numChannels = r.numChannels := by
  have counted : Packed { r with count := r.count + 1 } := ⟨h.limit, h.cache, h.sent⟩
  unfold checkedNewChunk Resizer.newChunk
  simp only
  split
  next full =>
    have empty := empty_flush { r with count := r.count + 1 }
    have room := (counted.flush budget).openChunk (by rwa [numChannels_flush])
      (by
        rw [empty.chunks, empty.cachedFrames, numChannels_flush, maxNumBytes_flush]
        rw [← h.limit] at few
        simp only [List.length_nil]
        omega)
      { count := r.count + 1, numFrames := 0, beginBeats := beats, tempo }
    rwa [numChannels_flush] at room
  next space =>
    exact counted.openChunk channels
      (by
        rw [sampleBytes] at space
        show r.chunks.length * Chunk.SIZE + (r.cachedFrames + 1) * (r.numChannels.toNat * 2) ≤
          r.maxNumBytes
        omega) _

theorem checkedCopyFrame_eq (samples : List Int16) (numChannels frame cachedFrames : Nat)
    (cache : List Int16) (channels : List Nat) (small : cache.length ≤ 2 ^ 32)
    (inside : ∀ channel ∈ channels, numChannels * cachedFrames + channel < cache.length) :
    checkedCopyFrame samples numChannels frame cachedFrames cache channels =
        some (copyFrame samples numChannels frame cachedFrames cache channels) ∧
      (copyFrame samples numChannels frame cachedFrames cache channels).length = cache.length := by
  induction channels generalizing cache with
  | nil => exact ⟨rfl, rfl⟩
  | cons channel channels ih =>
    obtain ⟨here, others⟩ := List.forall_mem_cons.mp inside
    have index : (numChannels * cachedFrames + channel) % 2 ^ 32 =
        numChannels * cachedFrames + channel := Nat.mod_eq_of_lt (by omega)
    have within : ¬(numChannels * cachedFrames + channel ≥ cache.length ∨
        numChannels * cachedFrames + channel ≥ 2 ^ 32) := by
      omega
    rw [checkedCopyFrame, copyFrame]
    simp only [if_neg within, index]
    cases samples[(numChannels * frame + channel) % 2 ^ 32]? with
    | none => exact ⟨rfl, rfl⟩
    | some sample =>
      simp only [if_neg (Nat.not_le.mpr here)]
      have length : (cache.set (numChannels * cachedFrames + channel) sample).length =
          cache.length := List.length_set ..
      have rest := ih (cache.set (numChannels * cachedFrames + channel) sample)
        (by rwa [length]) (by rwa [length])
      rwa [length] at rest

@[simp] theorem length_countFrame (chunks : List Chunk) :
    (countFrame chunks).length = chunks.length := by
  unfold countFrame
  split
  next => rfl
  next last found =>
    have some : chunks ≠ [] := by
      rintro rfl
      exact nomatch found
    have positive : 0 < chunks.length := List.length_pos_iff.mpr some
    simp
    omega

theorem Packed.withFrame (h : r.Packed) (room : r.Room) {input : Buffer}
    (same : r.numChannels = input.numChannels) (frame : Nat) :
    checkedCopyFrame input.samples input.numChannels.toNat frame r.cachedFrames r.cache
        (List.range input.numChannels.toNat) = some (r.withFrame input frame).cache ∧
      (r.withFrame input frame).Packed ∧ (r.withFrame input frame).Budget ∧
      (r.cachedFrames + 1 < r.availableFrames → (r.withFrame input frame).Room) := by
  have limit := h.limit
  have value : MAX_AUDIO_BYTES = 502 := rfl
  have cache := h.cache
  have fits := room.room
  have front : (r.cachedFrames + 1) * (r.numChannels.toNat * 2) =
      2 * (r.numChannels.toNat * r.cachedFrames + r.numChannels.toNat) := by ring
  have chunks : (r.withFrame input frame).chunks.length = r.chunks.length :=
    length_countFrame r.chunks
  obtain ⟨checked, length⟩ := checkedCopyFrame_eq input.samples input.numChannels.toNat frame
    r.cachedFrames r.cache (List.range input.numChannels.toNat) (by omega)
    (by
      intro channel member
      have inside := List.mem_range.mp member
      rw [← same] at inside ⊢
      omega)
  refine ⟨checked, ⟨h.limit, length.trans h.cache, h.sent⟩, ?_, ?_⟩
  · unfold Budget
    rw [chunks]
    exact room.room
  · intro space
    have available := room.available
    have positive := room.channels
    have next : (r.cachedFrames + 1 + 1) * (r.numChannels.toNat * 2) ≤
        r.maxNumBytes - (r.chunks.length - 1) * Chunk.SIZE := by
      apply (Nat.le_div_iff_mul_le (by omega)).mp
      omega
    refine ⟨positive, by rw [chunks]; exact available, ?_⟩
    rw [chunks]
    show _ + (r.cachedFrames + 1 + 1) * (r.numChannels.toNat * 2) ≤ r.maxNumBytes
    omega

def Rests {S : Type} (r : Resizer S) : Prop := r.Empty ∨ r.Room ∧ r.cachedFrames ≠ 0

theorem Rests.budget {S : Type} {r : Resizer S} (h : r.Rests) : r.Budget := by
  cases h with
  | inl empty => exact empty.budget
  | inr room => exact room.1.budget

theorem Packed.processFrame (h : r.Packed) (room : r.Room) {input : Buffer}
    (same : r.numChannels = input.numChannels)
    (few : 2 * input.numChannels.toNat ≤ MAX_AUDIO_BYTES) (frame : Nat) :
    r.checkedProcessFrame input frame = some (r.processFrame input frame) ∧
      (r.processFrame input frame).Packed ∧
      (r.processFrame input frame).numChannels = input.numChannels ∧
      (frame + 1 < input.numFrames.toNat → (r.processFrame input frame).Room) ∧
      (¬frame + 1 < input.numFrames.toNat → (r.processFrame input frame).Rests) := by
  obtain ⟨copied, packed, budget, space⟩ := h.withFrame room same frame
  have positive := room.channels
  have checked : r.checkedProcessFrame input frame =
      if r.cachedFrames + 1 ≥ r.availableFrames then
        if frame + 1 < input.numFrames.toNat then
          (r.withFrame input frame).flush.checkedNewChunk
            (((r.withFrame input frame).chunks.getLast?.map
              (r.withFrame input frame).chunkEndBeats).getD input.beginBeats) input.tempo
        else some (r.withFrame input frame).flush
      else some (r.withFrame input frame) := by
    unfold checkedProcessFrame
    simp only [copied]
    rfl
  rw [checked, processFrame_eq]
  split
  next =>
    have flushed := packed.flush budget
    have empty := (r.withFrame input frame).empty_flush
    have channels : (r.withFrame input frame).flush.numChannels = r.numChannels :=
      numChannels_flush _
    split
    next more =>
      obtain ⟨opened, packed', room', channels'⟩ := flushed.newChunk empty.budget
        (by rwa [channels]) (by rwa [channels, same])
        (((r.withFrame input frame).chunks.getLast?.map
          (r.withFrame input frame).chunkEndBeats).getD input.beginBeats) input.tempo
      exact ⟨opened, packed', by rw [channels', channels, same], fun _ => room',
        fun finished => absurd more finished⟩
    next finished =>
      exact ⟨rfl, flushed, by rw [channels, same], fun more => absurd more finished,
        fun _ => .inl empty⟩
  next full =>
    have next := space (by omega)
    exact ⟨rfl, packed, same, fun _ => next, fun _ => .inr ⟨next, Nat.succ_ne_zero _⟩⟩

theorem Packed.processFrames (h : r.Packed) (room : r.Room) {input : Buffer}
    (same : r.numChannels = input.numChannels)
    (few : 2 * input.numChannels.toNat ≤ MAX_AUDIO_BYTES) (n : Nat)
    (inside : n < input.numFrames.toNat) :
    let r' := (List.range (n + 1)).foldl (fun r frame => r.processFrame input frame) r
    (List.range (n + 1)).foldlM (fun r frame => r.checkedProcessFrame input frame) r = some r' ∧
      r'.Packed ∧ r'.numChannels = input.numChannels ∧
      (n + 1 < input.numFrames.toNat → r'.Room) ∧
      (¬n + 1 < input.numFrames.toNat → r'.Rests) := by
  induction n with
  | zero => simpa using h.processFrame room same few 0
  | succ n ih =>
    obtain ⟨before, packed, channels, open', -⟩ := ih (by omega)
    have next := packed.processFrame (open' inside) channels few (n + 1)
    rw [List.range_succ, List.foldlM_append, List.foldl_append, before]
    simpa using next

theorem Packed.processAll (h : r.Packed) (room : r.Room) {input : Buffer}
    (same : r.numChannels = input.numChannels)
    (few : 2 * input.numChannels.toNat ≤ MAX_AUDIO_BYTES) (frames : input.numFrames ≠ 0) :
    let r' := (List.range input.numFrames.toNat).foldl
      (fun r frame => r.processFrame input frame) r
    (List.range input.numFrames.toNat).foldlM
        (fun r frame => r.checkedProcessFrame input frame) r = some r' ∧ r'.Packed ∧ r'.Rests := by
  have positive : 0 < input.numFrames.toNat :=
    Nat.pos_of_ne_zero fun zero => frames (UInt32.toNat_inj.mp zero)
  obtain ⟨checked, packed, -, -, rests⟩ :=
    h.processFrames room same few (input.numFrames.toNat - 1) (by omega)
  rw [Nat.sub_add_cancel positive] at checked packed rests
  exact ⟨checked, packed, rests (Nat.lt_irrefl _)⟩

theorem Packed.process (h : r.Packed) (rests : r.Rests) {input : Buffer}
    (some : 0 < input.numChannels.toNat)
    (few : 2 * input.numChannels.toNat ≤ MAX_AUDIO_BYTES) :
    r.checkedProcess input = .some (r.process input) ∧ (r.process input).Packed ∧
      (r.process input).Rests := by
  have channels : ¬input.numChannels = 0 := by
    intro zero
    rw [zero] at some
    exact absurd some (by decide)
  rw [checkedProcess, Resizer.process, if_neg channels, if_neg channels]
  -- after the flush at a change of format, what is still cached has the format of the input
  have start : ∀ r₁ : Resizer (PcmEncoder (List AudioBuffer)),
      r₁ = (if r.cachedFrames ≠ 0 ∧ (input.numChannels ≠ r.numChannels ∨
        input.sampleRate ≠ r.sampleRate ∨ input.sessionId ≠ r.sessionId) then r.flush else r) →
      r₁.Packed ∧ r₁.Rests ∧ (r₁.cachedFrames ≠ 0 → r₁.numChannels = input.numChannels) := by
    rintro r₁ rfl
    split
    next => exact ⟨h.flush rests.budget, .inl r.empty_flush,
        fun cached => absurd r.empty_flush.cachedFrames cached⟩
    next same =>
      refine ⟨h, rests, fun cached => ?_⟩
      by_contra differ
      exact same ⟨cached, .inl (Ne.symm differ)⟩
  obtain ⟨packed, rests', same⟩ := start _ rfl
  generalize (if r.cachedFrames ≠ 0 ∧ (input.numChannels ≠ r.numChannels ∨
    input.sampleRate ≠ r.sampleRate ∨ input.sessionId ≠ r.sessionId) then r.flush
    else r) = r₁ at packed rests' same ⊢
  simp only
  split
  next => exact ⟨rfl, packed, rests'⟩
  next frames =>
    cases rests' with
    | inl empty =>
      have renamed : Packed { r₁ with
          sampleRate := input.sampleRate
          numChannels := input.numChannels
          sessionId := input.sessionId
          chunks := [] } := ⟨packed.limit, packed.cache, packed.sent⟩
      have empty' : Empty { r₁ with
          sampleRate := input.sampleRate
          numChannels := input.numChannels
          sessionId := input.sessionId
          chunks := [] } := ⟨empty.cachedFrames, rfl⟩
      obtain ⟨opened, packed', room, channels'⟩ :=
        renamed.newChunk empty'.budget some few input.beginBeats input.tempo
      rw [if_pos empty.cachedFrames, if_pos empty.cachedFrames, opened]
      exact packed'.processAll room channels' few frames
    | inr holds =>
      obtain ⟨room, cached⟩ := holds
      have same := same cached
      rw [if_neg cached, if_neg cached]
      cases r₁.chunks.getLast? with
      | none => exact packed.processAll room same few frames
      | some last =>
        simp only
        split
        next =>
          obtain ⟨opened, packed', room', channels'⟩ := packed.newChunk room.budget room.channels
            (by rwa [same]) input.beginBeats input.tempo
          rw [opened]
          exact packed'.processAll room' (channels'.trans same) few frames
        next => exact packed.processAll room same few frames

end Resizer

inductive EncoderOp
  | encode (input : Buffer)
  | flush

namespace EncoderOp

def Valid : EncoderOp → Prop
  | .encode input => 1 ≤ input.numChannels.toNat ∧ 2 * input.numChannels.toNat ≤ MAX_AUDIO_BYTES
  | .flush => True

def apply (encoder : Encoder (List AudioBuffer)) : EncoderOp → Encoder (List AudioBuffer)
  | .encode input => encoder.encode input
  | .flush => encoder.flush

def checkedApply (encoder : Encoder (List AudioBuffer)) :
    EncoderOp → Option (Encoder (List AudioBuffer))
  | .encode input => do return ⟨← encoder.resizer.checkedProcess input⟩
  | .flush => some encoder.flush

theorem checkedApply_eq {encoder : Encoder (List AudioBuffer)} (packed : encoder.resizer.Packed)
    (rests : encoder.resizer.Rests) {op : EncoderOp} (valid : op.Valid) :
    checkedApply encoder op = some (apply encoder op) ∧ (apply encoder op).resizer.Packed ∧
      (apply encoder op).resizer.Rests := by
  cases op with
  | encode input =>
    obtain ⟨checked, packed', rests'⟩ := packed.process rests valid.1 valid.2
    refine ⟨?_, packed', rests'⟩
    rw [checkedApply, checked]
    rfl
  | flush => exact ⟨rfl, packed.flush rests.budget, .inl encoder.resizer.empty_flush⟩

theorem foldlM_checkedApply {encoder : Encoder (List AudioBuffer)}
    (packed : encoder.resizer.Packed) (rests : encoder.resizer.Rests) {ops : List EncoderOp}
    (valid : ∀ op ∈ ops, op.Valid) :
    ops.foldlM checkedApply encoder = some (ops.foldl apply encoder) ∧
      (ops.foldl apply encoder).resizer.Packed := by
  induction ops generalizing encoder with
  | nil => exact ⟨rfl, packed⟩
  | cons op ops ih =>
    obtain ⟨here, others⟩ := List.forall_mem_cons.mp valid
    obtain ⟨checked, packed', rests'⟩ := checkedApply_eq packed rests here
    obtain ⟨later, last⟩ := ih packed' rests' others
    rw [List.foldlM_cons, checked]
    exact ⟨later, last⟩

end EncoderOp

/-- Every buffer sent makes a message within the budget, and in no call does the allowance for the
chunks underflow or an index leave the cache. -/
theorem packets_fit (channelId sender : Id) (ops : List EncoderOp)
    (valid : ∀ op ∈ ops, op.Valid) :
    let encoder := ops.foldl EncoderOp.apply (Encoder.new [] channelId)
    ops.foldlM EncoderOp.checkedApply (Encoder.new [] channelId) = some encoder ∧
      ∀ buffer ∈ encoder.sent, ∃ message,
        audioBufferMessage sender buffer.encodeRaw = .ok message ∧ message.length ≤ 576 := by
  have packed : (Encoder.new ([] : List AudioBuffer) channelId).resizer.Packed :=
    ⟨rfl, List.length_replicate, fun _ member => absurd member List.not_mem_nil⟩
  obtain ⟨checked, last⟩ := EncoderOp.foldlM_checkedApply packed (.inl ⟨rfl, rfl⟩) valid
  exact ⟨checked, fun buffer member => (last.sent buffer member).message sender⟩

theorem packets_fit_stereo :
    let ops : List EncoderOp :=
      [.encode stereoBuffer, .encode { stereoBuffer with tempo := ⟨90.0⟩ },
        .encode { stereoBuffer with numChannels := 1 }, .flush]
    let encoder := ops.foldl EncoderOp.apply (Encoder.new [] default)
    ops.foldlM EncoderOp.checkedApply (Encoder.new [] default) = some encoder ∧
      ∀ buffer ∈ encoder.sent, ∃ message,
        audioBufferMessage default buffer.encodeRaw = .ok message ∧ message.length ≤ 576 :=
  packets_fit default default _ (by
    intro op member
    fin_cases member
    · exact ⟨by decide, by decide⟩
    · exact ⟨by decide, by decide⟩
    · exact ⟨by decide, by decide⟩
    · trivial)

end AbletonLink.Audio
