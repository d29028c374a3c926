import AbletonLink.Audio.Resizer

/-! The blocks of a resizer are the samples it was given, in order. -/

namespace AbletonLink.Audio

open Link

def framesOf (chunks : List Chunk) : Nat := (chunks.map fun chunk => chunk.numFrames.toNat).sum

@[simp] theorem framesOf_nil : framesOf [] = 0 := rfl

@[simp] theorem framesOf_append (chunks chunks' : List Chunk) :
    framesOf (chunks ++ chunks') = framesOf chunks + framesOf chunks' := by
  simp [framesOf]

@[simp] theorem framesOf_singleton (chunk : Chunk) : framesOf [chunk] = chunk.numFrames.toNat := by
  simp [framesOf]

/-- The chunks are counted from one, and the last number drawn is `count`. -/
structure Numbered (chunks : List Chunk) (count : UInt64) : Prop where
  counts : chunks.map Chunk.count = (List.range chunks.length).map fun i => UInt64.ofNat (i + 1)
  last : count = UInt64.ofNat chunks.length

theorem Numbered.concat {chunks : List Chunk} {count : UInt64} (h : Numbered chunks count)
    {chunk : Chunk} (next : chunk.count = count + 1) :
    Numbered (chunks ++ [chunk]) (count + 1) := by
  have number : count + 1 = UInt64.ofNat (chunks.length + 1) := by
    rw [h.last, UInt64.ofNat_add]
    rfl
  refine ⟨?_, ?_⟩
  · rw [List.map_append, h.counts, List.length_append, List.length_singleton, List.range_succ,
      List.map_append]
    simp [next, number]
  · rw [number]
    simp

/-- What buffers may have in common, and then the blocks made of them: something about the channels
and the sample rate, and something about the tempo. -/
structure Demand where
  format : UInt32 → UInt32 → Prop
  tempo : Tempo → Prop

namespace Demand

def any : Demand := ⟨fun _ _ => True, fun _ => True⟩

def decodable : Demand where
  format numChannels sampleRate := (numChannels = 1 ∨ numChannels = 2) ∧ sampleRate ≠ 0
  tempo := Sounding

end Demand

structure Block.Sound (demand : Demand) (block : Block) (maxNumBytes : Nat) : Prop where
  format : demand.format block.numChannels block.sampleRate
  chunks : block.chunks ≠ []
  frames : ∀ chunk ∈ block.chunks, 0 < chunk.numFrames.toNat
  tempo : ∀ chunk ∈ block.chunks, demand.tempo chunk.tempo
  samples : block.samples.length = framesOf block.chunks * block.numChannels.toNat
  small : (block.chunks.length - 1) * Chunk.SIZE + block.samples.length * 2 ≤ maxNumBytes

structure Buffer.Playable (input : Buffer) : Prop where
  numChannels : input.numChannels = 1 ∨ input.numChannels = 2
  sampleRate : input.sampleRate ≠ 0
  sounding : Sounding input.tempo
  enough : input.numFrames.toNat * input.numChannels.toNat ≤ input.samples.length
  indexed : input.numFrames.toNat * input.numChannels.toNat < 2 ^ 32

/-- A buffer that meets the demand, whose frames fit the cache one at a time and are all there. -/
structure Buffer.Whole (demand : Demand) (maxNumBytes : Nat) (input : Buffer) : Prop where
  channels : 0 < input.numChannels.toNat ∧ input.numChannels.toNat * 2 ≤ maxNumBytes
  format : demand.format input.numChannels input.sampleRate
  tempo : demand.tempo input.tempo
  enough : input.numFrames.toNat * input.numChannels.toNat ≤ input.samples.length
  indexed : input.numFrames.toNat * input.numChannels.toNat ≤ 2 ^ 32

theorem Buffer.Playable.whole {input : Buffer} (h : input.Playable) {maxNumBytes : Nat}
    (least : 4 ≤ maxNumBytes) : input.Whole .decodable maxNumBytes where
  channels := by
    have few : 0 < input.numChannels.toNat ∧ input.numChannels.toNat ≤ 2 := by
      cases h.numChannels with
      | inl mono => rw [mono]; decide
      | inr stereo => rw [stereo]; decide
    omega
  format := ⟨h.numChannels, h.sampleRate⟩
  tempo := h.sounding
  enough := h.enough
  indexed := h.indexed.le

def Buffer.used (input : Buffer) : List Int16 :=
  input.samples.take (input.numFrames.toNat * input.numChannels.toNat)

theorem copyFrame_range (samples cache : List Int16)
    (numChannels frame cachedFrames channel n : Nat)
    (source : numChannels * frame + (channel + n) ≤ samples.length)
    (room : numChannels * cachedFrames + (channel + n) ≤ cache.length)
    (indexed : numChannels * frame + (channel + n) ≤ 2 ^ 32)
    (indexed' : numChannels * cachedFrames + (channel + n) ≤ 2 ^ 32) :
    (Resizer.copyFrame samples numChannels frame cachedFrames cache
        (List.range' channel n)).length = cache.length ∧
      (Resizer.copyFrame samples numChannels frame cachedFrames cache
        (List.range' channel n)).take (numChannels * cachedFrames + (channel + n)) =
        cache.take (numChannels * cachedFrames + channel) ++
          (samples.drop (numChannels * frame + channel)).take n := by
  induction n generalizing channel cache with
  | zero => simp [Resizer.copyFrame]
  | succ n ih =>
    have source' : numChannels * frame + channel < samples.length := by omega
    have room' : numChannels * cachedFrames + channel < cache.length := by omega
    have src : (numChannels * frame + channel) % 2 ^ 32 = numChannels * frame + channel :=
      Nat.mod_eq_of_lt (by omega)
    have dst : (numChannels * cachedFrames + channel) % 2 ^ 32 =
        numChannels * cachedFrames + channel := Nat.mod_eq_of_lt (by omega)
    rw [List.range'_succ, Resizer.copyFrame]
    simp only [src, dst, List.getElem?_eq_getElem source', if_neg (Nat.not_le.mpr room')]
    obtain ⟨length, front⟩ := ih (cache.set (numChannels * cachedFrames + channel)
      samples[numChannels * frame + channel]) (channel + 1) (by omega)
      (by rw [List.length_set]; omega) (by omega) (by omega)
    refine ⟨length.trans (List.length_set ..), ?_⟩
    have shift : channel + 1 + n = channel + (n + 1) := by omega
    have stored : (cache.set (numChannels * cachedFrames + channel)
        samples[numChannels * frame + channel]).take (numChannels * cachedFrames + (channel + 1)) =
        cache.take (numChannels * cachedFrames + channel) ++
          [samples[numChannels * frame + channel]] := by
      rw [← Nat.add_assoc, List.take_add_one, List.take_set_of_le (Nat.le_refl _)]
      simp [room']
    rw [shift] at front
    rw [front, stored, List.append_assoc, ← Nat.add_assoc (numChannels * frame),
      List.drop_eq_getElem_cons source', List.take_succ_cons]
    rfl

theorem copyFrame_frame (samples cache : List Int16) (numChannels frame cachedFrames : Nat)
    (source : numChannels * (frame + 1) ≤ samples.length)
    (room : numChannels * (cachedFrames + 1) ≤ cache.length)
    (indexed : numChannels * (frame + 1) ≤ 2 ^ 32)
    (indexed' : numChannels * (cachedFrames + 1) ≤ 2 ^ 32) :
    (Resizer.copyFrame samples numChannels frame cachedFrames cache
        (List.range numChannels)).length = cache.length ∧
      (Resizer.copyFrame samples numChannels frame cachedFrames cache
        (List.range numChannels)).take (numChannels * (cachedFrames + 1)) =
        cache.take (numChannels * cachedFrames) ++
          (samples.drop (numChannels * frame)).take numChannels := by
  simp only [Nat.mul_succ] at source room indexed indexed'
  have copied := copyFrame_range samples cache numChannels frame cachedFrames 0 numChannels
    (by omega) (by omega) (by omega) (by omega)
  simpa only [List.range_eq_range', Nat.mul_succ, Nat.zero_add, Nat.add_zero] using copied

namespace Resizer

variable {S : Type}

def pending (r : Resizer S) : List Int16 := r.cache.take (r.numChannels.toNat * r.cachedFrames)

structure Sized (r : Resizer S) : Prop where
  most : r.maxNumBytes < 2 ^ 16
  cache : r.cache.length = r.maxNumBytes / 2

structure Empty (r : Resizer S) : Prop where
  cachedFrames : r.cachedFrames = 0
  chunks : r.chunks = []

structure Format (demand : Demand) (r : Resizer S) : Prop where
  channels : 0 < r.numChannels.toNat ∧ r.numChannels.toNat * 2 ≤ r.maxNumBytes
  format : demand.format r.numChannels r.sampleRate

/-- Frames are cached, and they can be sent. -/
structure Holding (demand : Demand) (r : Resizer S) : Prop where
  format : r.Format demand
  chunks : r.chunks ≠ []
  nonempty : ∀ chunk ∈ r.chunks, 0 < chunk.numFrames.toNat
  tempo : ∀ chunk ∈ r.chunks, demand.tempo chunk.tempo
  frames : framesOf r.chunks = r.cachedFrames
  small : (r.chunks.length - 1) * Chunk.SIZE + r.cachedFrames * (r.numChannels.toNat * 2) ≤
    r.maxNumBytes

/-- The last chunk is open, and there is room for a frame. -/
structure Open (demand : Demand) (front : List Chunk) (last : Chunk) (r : Resizer S) : Prop where
  format : r.Format demand
  chunks : r.chunks = front ++ [last]
  nonempty : ∀ chunk ∈ front, 0 < chunk.numFrames.toNat
  tempo : ∀ chunk ∈ r.chunks, demand.tempo chunk.tempo
  frames : framesOf r.chunks = r.cachedFrames
  available : r.availableFrames =
    (r.maxNumBytes - front.length * Chunk.SIZE) / (r.numChannels.toNat * 2)
  room : front.length * Chunk.SIZE + (r.cachedFrames + 1) * (r.numChannels.toNat * 2) ≤
    r.maxNumBytes

def Resting (demand : Demand) (r : Resizer S) : Prop :=
  r.Empty ∨ r.Holding demand ∧ ∃ front last, r.Open demand front last

variable {demand : Demand}

theorem Holding.cached {r : Resizer S} (h : r.Holding demand) : r.cachedFrames ≠ 0 := by
  obtain ⟨chunk, member⟩ := List.exists_mem_of_ne_nil _ h.chunks
  have some := h.nonempty chunk member
  have least : chunk.numFrames.toNat ≤ framesOf r.chunks :=
    List.le_sum_of_mem (List.mem_map_of_mem member)
  rw [h.frames] at least
  omega

theorem Empty.pending {r : Resizer S} (h : r.Empty) : r.pending = [] := by
  simp [Resizer.pending, h.cachedFrames]

theorem open_openChunk {r : Resizer S} {chunk : Chunk} (format : r.Format demand)
    (nonempty : ∀ chunk ∈ r.chunks, 0 < chunk.numFrames.toNat)
    (tempos : ∀ chunk ∈ r.chunks, demand.tempo chunk.tempo)
    (frames : framesOf r.chunks = r.cachedFrames)
    (room : r.chunks.length * Chunk.SIZE + (r.cachedFrames + 1) * (r.numChannels.toNat * 2) ≤
      r.maxNumBytes)
    (fresh : chunk.numFrames = 0) (last : demand.tempo chunk.tempo) :
    (r.openChunk chunk).Open demand r.chunks chunk where
  format := ⟨format.channels, format.format⟩
  chunks := rfl
  nonempty := nonempty
  tempo other member := by
    cases List.mem_append.mp member with
    | inl old => exact tempos other old
    | inr fresh => exact List.mem_singleton.mp fresh ▸ last
  frames := by
    show framesOf (r.chunks ++ [chunk]) = r.cachedFrames
    rw [framesOf_append, frames, framesOf_singleton, fresh]
    rfl
  available := by
    show (r.maxNumBytes - ((r.chunks ++ [chunk]).length - 1) * Chunk.SIZE) / _ = _
    rw [List.length_append, List.length_singleton, Nat.add_sub_cancel]
    rfl
  room := room

theorem Open.countFrame {r : Resizer S} {front : List Chunk} {last : Chunk}
    (h : r.Open demand front last) : Resizer.countFrame r.chunks =
    front ++ [{ last with numFrames := last.numFrames + 1 }] := by
  rw [h.chunks]
  simp [Resizer.countFrame]

theorem Open.frames_last {r : Resizer S} {front : List Chunk} {last : Chunk}
    (h : r.Open demand front last) (sized : r.Sized) :
    (last.numFrames + 1).toNat = last.numFrames.toNat + 1 := by
  have channels := h.format.channels
  have frames := h.frames
  have most := sized.most
  have cached : r.cachedFrames + 1 ≤ (r.cachedFrames + 1) * (r.numChannels.toNat * 2) :=
    Nat.le_mul_of_pos_right _ (by omega)
  have room := h.room
  rw [h.chunks, framesOf_append, framesOf_singleton] at frames
  rw [UInt16.toNat_add]
  exact Nat.mod_eq_of_lt (by show last.numFrames.toNat + 1 < 2 ^ 16; omega)

def withFrame (r : Resizer S) (input : Buffer) (frame : Nat) : Resizer S :=
  { r with
    cache := copyFrame input.samples input.numChannels.toNat frame r.cachedFrames r.cache
      (List.range input.numChannels.toNat)
    cachedFrames := r.cachedFrames + 1
    chunks := countFrame r.chunks }

theorem Open.holding {r : Resizer S} {front : List Chunk} {last : Chunk}
    (h : r.Open demand front last) (sized : r.Sized) (buffer : Buffer) (frame : Nat) :
    (r.withFrame buffer frame).Holding demand := by
  have chunks : (r.withFrame buffer frame).chunks = _ := h.countFrame
  have counted := h.frames_last sized
  have frames := h.frames
  rw [h.chunks, framesOf_append, framesOf_singleton] at frames
  refine ⟨⟨h.format.channels, h.format.format⟩, ?_, ?_, ?_, ?_, ?_⟩
  · simp [chunks]
  · rw [chunks]
    intro chunk member
    cases List.mem_append.mp member with
    | inl old => exact h.nonempty chunk old
    | inr fresh =>
      obtain rfl := List.mem_singleton.mp fresh
      show 0 < (last.numFrames + 1).toNat
      omega
  · rw [chunks]
    intro chunk member
    cases List.mem_append.mp member with
    | inl old => exact h.tempo chunk (by rw [h.chunks]; exact List.mem_append_left _ old)
    | inr fresh =>
      obtain rfl := List.mem_singleton.mp fresh
      exact h.tempo last (by rw [h.chunks]; simp)
  · rw [chunks, framesOf_append, framesOf_singleton]
    show framesOf front + (last.numFrames + 1).toNat = r.cachedFrames + 1
    omega
  · rw [chunks, List.length_append, List.length_singleton, Nat.add_sub_cancel]
    exact h.room

variable [ResizerSink S]

/-- Since `start` the sink has been given `blocks`, which with what is cached are the input. -/
structure History (demand : Demand) (r start : Resizer S) (input : List Int16) (frames : Nat)
    (blocks : List Block) : Prop where
  limit : r.maxNumBytes = start.maxNumBytes
  successor : r.successor = blocks.foldl ResizerSink.flush start.successor
  sound : ∀ block ∈ blocks, block.Sound demand r.maxNumBytes
  samples : blocks.flatMap Block.samples ++ r.pending = input
  numbered : Numbered (blocks.flatMap Block.chunks ++ r.chunks) r.count
  frames : framesOf (blocks.flatMap Block.chunks) + r.cachedFrames = frames

structure Carries (demand : Demand) (r start : Resizer S) (input : List Int16) (frames : Nat) :
    Prop where
  sized : r.Sized
  history : ∃ blocks, r.History demand start input frames blocks

@[simp] theorem numChannels_flush (r : Resizer S) : r.flush.numChannels = r.numChannels := by
  unfold flush
  split <;> rfl

@[simp] theorem sampleRate_flush (r : Resizer S) : r.flush.sampleRate = r.sampleRate := by
  unfold flush
  split <;> rfl

@[simp] theorem maxNumBytes_flush (r : Resizer S) : r.flush.maxNumBytes = r.maxNumBytes := by
  unfold flush
  split <;> rfl

@[simp] theorem cache_flush (r : Resizer S) : r.flush.cache = r.cache := by
  unfold flush
  split <;> rfl

@[simp] theorem count_flush (r : Resizer S) : r.flush.count = r.count := by
  unfold flush
  split <;> rfl

theorem empty_flush (r : Resizer S) : r.flush.Empty := by
  unfold flush
  split
  · rename_i none
    exact ⟨rfl, List.isEmpty_iff.mp none⟩
  · exact ⟨rfl, rfl⟩

theorem Format.flush {r : Resizer S} (h : r.Format demand) : r.flush.Format demand :=
  ⟨by rw [numChannels_flush, maxNumBytes_flush]; exact h.channels,
    by rw [numChannels_flush, sampleRate_flush]; exact h.format⟩

theorem Carries.flush {start : Resizer S} {input : List Int16} {frames : Nat} {r : Resizer S}
    (h : r.Carries demand start input frames) (holding : r.Holding demand) :
    r.flush.Carries demand start input frames := by
  obtain ⟨sized, blocks, history⟩ := h
  have empty := r.empty_flush
  have some : r.chunks.isEmpty = false := by simp [holding.chunks]
  have fits : r.numChannels.toNat * r.cachedFrames ≤ r.cache.length := by
    have small := holding.small
    rw [← Nat.mul_assoc, Nat.mul_comm r.cachedFrames] at small
    rw [sized.cache]
    omega
  have samples : r.cache.take (min (r.cachedFrames * r.numChannels.toNat) r.cache.length) =
      r.pending := by
    rw [Nat.mul_comm, Nat.min_eq_left fits, Resizer.pending]
  have length : r.pending.length = framesOf r.chunks * r.numChannels.toNat := by
    rw [holding.frames, Resizer.pending, List.length_take, Nat.min_eq_left fits, Nat.mul_comm]
  have block : (⟨r.pending, r.chunks, r.numChannels, r.sampleRate, r.sessionId⟩ : Block).Sound
      demand r.maxNumBytes :=
    { format := holding.format.format
      chunks := holding.chunks
      frames := holding.nonempty
      tempo := holding.tempo
      samples := length
      small := by
        have small := holding.small
        show (r.chunks.length - 1) * Chunk.SIZE + r.pending.length * 2 ≤ r.maxNumBytes
        rwa [length, holding.frames, Nat.mul_assoc] }
  refine ⟨⟨?_, ?_⟩,
    blocks ++ [⟨r.pending, r.chunks, r.numChannels, r.sampleRate, r.sessionId⟩],
    by rw [maxNumBytes_flush, history.limit], ?_, ?_, ?_, ?_, ?_⟩
  · rw [maxNumBytes_flush]
    exact sized.most
  · rw [maxNumBytes_flush, cache_flush]
    exact sized.cache
  · rw [List.foldl_append, ← history.successor, ← samples]
    simp [Resizer.flush, some]
  · rw [maxNumBytes_flush]
    intro other member
    cases List.mem_append.mp member with
    | inl old => exact history.sound other old
    | inr fresh => exact List.mem_singleton.mp fresh ▸ block
  · rw [empty.pending, List.append_nil, List.flatMap_append, ← history.samples]
    simp
  · rw [empty.chunks, count_flush, List.append_nil, List.flatMap_append]
    simpa using history.numbered
  · rw [empty.cachedFrames, List.flatMap_append, framesOf_append, ← history.frames,
      ← holding.frames]
    simp

theorem flush_withCount (r : Resizer S) (count : UInt64) :
    flush { r with count } = { r.flush with count } := by
  cases empty : r.chunks.isEmpty <;> simp [flush, empty]

theorem newChunk_eq (r : Resizer S) (beats : Beats) (tempo : Tempo) :
    r.newChunk beats tempo = openChunk
      { (if (r.cachedFrames + 1) * (r.numChannels.toNat * 2) + r.chunks.length * Chunk.SIZE >
          r.maxNumBytes then r.flush else r) with count := r.count + 1 }
      { count := r.count + 1, numFrames := 0, beginBeats := beats, tempo } := by
  show openChunk (if (r.cachedFrames + 1) * (r.numChannels.toNat * 2) +
    r.chunks.length * Chunk.SIZE > r.maxNumBytes then flush { r with count := r.count + 1 }
    else { r with count := r.count + 1 }) _ = _
  split
  · rw [flush_withCount]
  · rfl

theorem Carries.openChunk {start : Resizer S} {input : List Int16} {frames : Nat} {r : Resizer S}
    (h : r.Carries demand start input frames) {chunk : Chunk} (count : chunk.count = r.count + 1) :
    (Resizer.openChunk { r with count := r.count + 1 } chunk).Carries demand start input
      frames := by
  obtain ⟨sized, blocks, history⟩ := h
  refine ⟨⟨sized.most, sized.cache⟩, blocks, history.limit, history.successor, history.sound,
    history.samples, ?_, history.frames⟩
  rw [Resizer.openChunk, ← List.append_assoc]
  exact history.numbered.concat count

theorem Empty.newChunk {start : Resizer S} {input : List Int16} {frames : Nat} {r : Resizer S}
    (h : r.Empty) (carries : r.Carries demand start input frames) (format : r.Format demand)
    (beats : Beats) {tempo : Tempo} (sounding : demand.tempo tempo) :
    (r.newChunk beats tempo).Carries demand start input frames ∧
      ∃ front last, (r.newChunk beats tempo).Open demand front last := by
  have channels := format.channels
  have room : r.chunks.length * Chunk.SIZE + (r.cachedFrames + 1) * (r.numChannels.toNat * 2) ≤
      r.maxNumBytes := by
    rw [h.chunks, h.cachedFrames]
    simp only [List.length_nil]
    omega
  rw [newChunk_eq, if_neg (by omega)]
  refine ⟨carries.openChunk rfl, _, _, open_openChunk ⟨format.channels, format.format⟩
    ?_ ?_ ?_ room rfl sounding⟩
  · simp [h.chunks]
  · simp [h.chunks]
  · simp [h.chunks, h.cachedFrames]

theorem Holding.newChunk {start : Resizer S} {input : List Int16} {frames : Nat} {r : Resizer S}
    (h : r.Holding demand) (carries : r.Carries demand start input frames) (beats : Beats)
    {tempo : Tempo} (sounding : demand.tempo tempo) :
    (r.newChunk beats tempo).Carries demand start input frames ∧
      ∃ front last, (r.newChunk beats tempo).Open demand front last := by
  by_cases full : (r.cachedFrames + 1) * (r.numChannels.toNat * 2) +
      r.chunks.length * Chunk.SIZE > r.maxNumBytes
  · have again := r.empty_flush.newChunk (carries.flush h) h.format.flush beats sounding
    have idle : ¬(r.flush.cachedFrames + 1) * (r.flush.numChannels.toNat * 2) +
        r.flush.chunks.length * Chunk.SIZE > r.flush.maxNumBytes := by
      have channels := h.format.channels
      rw [r.empty_flush.chunks, r.empty_flush.cachedFrames, numChannels_flush, maxNumBytes_flush]
      simp only [List.length_nil]
      omega
    rw [newChunk_eq, if_neg idle, count_flush] at again
    rw [newChunk_eq, if_pos full]
    exact again
  · have room : r.chunks.length * Chunk.SIZE + (r.cachedFrames + 1) * (r.numChannels.toNat * 2) ≤
        r.maxNumBytes := by
      omega
    rw [newChunk_eq, if_neg full]
    exact ⟨carries.openChunk rfl, _, _, open_openChunk ⟨h.format.channels, h.format.format⟩
      h.nonempty h.tempo h.frames room rfl sounding⟩

@[simp] theorem numChannels_newChunk (r : Resizer S) (beats : Beats) (tempo : Tempo) :
    (r.newChunk beats tempo).numChannels = r.numChannels := by
  rw [newChunk_eq]
  show (if _ then r.flush else r).numChannels = _
  split <;> simp

theorem processFrame_eq (r : Resizer S) (input : Buffer) (frame : Nat) :
    r.processFrame input frame =
      if r.cachedFrames + 1 ≥ r.availableFrames then
        if frame + 1 < input.numFrames.toNat then
          (r.withFrame input frame).flush.newChunk
            (((r.withFrame input frame).chunks.getLast?.map
              (r.withFrame input frame).chunkEndBeats).getD input.beginBeats) input.tempo
        else (r.withFrame input frame).flush
      else r.withFrame input frame := rfl

section Frame

variable {start : Resizer S} {input : List Int16} {frames : Nat} {r : Resizer S}
  {front : List Chunk} {last : Chunk} {buffer : Buffer} {frame : Nat}

theorem Open.carries (h : r.Open demand front last) (carries : r.Carries demand start input frames)
    (whole : buffer.Whole demand start.maxNumBytes) (same : r.numChannels = buffer.numChannels)
    (inside : frame < buffer.numFrames.toNat) :
    (r.withFrame buffer frame).Carries demand start
      (input ++ (buffer.samples.drop (buffer.numChannels.toNat * frame)).take
        buffer.numChannels.toNat) (frames + 1) := by
  obtain ⟨sized, blocks, history⟩ := carries
  have room := h.room
  have most := sized.most
  have reach : buffer.numChannels.toNat * (frame + 1) ≤
      buffer.numFrames.toNat * buffer.numChannels.toNat := by
    rw [Nat.mul_comm]
    exact Nat.mul_le_mul_right _ inside
  have enough := whole.enough
  have indexed := whole.indexed
  have cached : buffer.numChannels.toNat * (r.cachedFrames + 1) * 2 ≤ r.maxNumBytes := by
    rw [← same, Nat.mul_comm r.numChannels.toNat, Nat.mul_assoc]
    omega
  have cache := sized.cache
  obtain ⟨length, copied⟩ := copyFrame_frame buffer.samples r.cache buffer.numChannels.toNat frame
    r.cachedFrames (by omega) (by omega) (by omega) (by omega)
  refine ⟨⟨sized.most, length.trans sized.cache⟩, blocks, history.limit,
    history.successor, history.sound, ?_, ?_, ?_⟩
  · have pending : (r.withFrame buffer frame).pending = r.pending ++
        (buffer.samples.drop (buffer.numChannels.toNat * frame)).take buffer.numChannels.toNat := by
      show List.take (r.numChannels.toNat * (r.cachedFrames + 1)) _ =
        r.cache.take (r.numChannels.toNat * r.cachedFrames) ++ _
      rw [same]
      exact copied
    rw [pending, ← List.append_assoc, history.samples]
  · have counts : (blocks.flatMap Block.chunks ++ Resizer.countFrame r.chunks).map Chunk.count =
        (blocks.flatMap Block.chunks ++ r.chunks).map Chunk.count := by
      rw [h.countFrame, h.chunks]
      simp
    have length : (blocks.flatMap Block.chunks ++ Resizer.countFrame r.chunks).length =
        (blocks.flatMap Block.chunks ++ r.chunks).length := by
      rw [h.countFrame, h.chunks]
      simp
    refine ⟨?_, history.numbered.last.trans (congrArg UInt64.ofNat length.symm)⟩
    show List.map Chunk.count (_ ++ Resizer.countFrame r.chunks) = _
    rw [counts, history.numbered.counts, ← length]
    rfl
  · show _ + (r.cachedFrames + 1) = _
    rw [← history.frames, Nat.add_assoc]

theorem Open.processFrame (h : r.Open demand front last)
    (carries : r.Carries demand start input frames)
    (whole : buffer.Whole demand start.maxNumBytes) (same : r.numChannels = buffer.numChannels)
    (inside : frame < buffer.numFrames.toNat) :
    (r.processFrame buffer frame).Carries demand start
        (input ++ (buffer.samples.drop (buffer.numChannels.toNat * frame)).take
          buffer.numChannels.toNat) (frames + 1) ∧
      (r.processFrame buffer frame).numChannels = buffer.numChannels ∧
      (frame + 1 < buffer.numFrames.toNat →
        ∃ front last, (r.processFrame buffer frame).Open demand front last) ∧
      (frame + 1 = buffer.numFrames.toNat → (r.processFrame buffer frame).Resting demand) := by
  have holding := h.holding carries.sized buffer frame
  have carried := h.carries carries whole same inside
  rw [processFrame_eq]
  split
  next =>
    have flushed := carried.flush holding
    have empty := (r.withFrame buffer frame).empty_flush
    split
    next more =>
      obtain ⟨carried', opened⟩ := empty.newChunk flushed holding.format.flush
        (((r.withFrame buffer frame).chunks.getLast?.map
          (r.withFrame buffer frame).chunkEndBeats).getD buffer.beginBeats) whole.tempo
      exact ⟨carried', by rw [numChannels_newChunk, numChannels_flush]; exact same,
        fun _ => opened, fun finished => by omega⟩
    next finished =>
      exact ⟨flushed, by rw [numChannels_flush]; exact same, fun more => absurd more finished,
        fun _ => .inl empty⟩
  next space =>
    have available := h.available
    have channels := h.format.channels
    have room : (r.cachedFrames + 1 + 1) * (r.numChannels.toNat * 2) ≤
        r.maxNumBytes - front.length * Chunk.SIZE := by
      apply (Nat.le_div_iff_mul_le (by omega)).mp
      omega
    have least : front.length * Chunk.SIZE ≤ r.maxNumBytes :=
      Nat.le_trans (Nat.le_add_right _ _) h.room
    have opened : (r.withFrame buffer frame).Open demand front
        { last with numFrames := last.numFrames + 1 } :=
      { format := holding.format
        chunks := h.countFrame
        nonempty := h.nonempty
        tempo := holding.tempo
        frames := holding.frames
        available := h.available
        room := by
          show front.length * Chunk.SIZE + (r.cachedFrames + 1 + 1) * (r.numChannels.toNat * 2) ≤
            r.maxNumBytes
          omega }
    exact ⟨carried, same, fun _ => ⟨_, _, opened⟩, fun _ => .inr ⟨holding, _, _, opened⟩⟩

theorem Open.processFrames (h : r.Open demand front last)
    (carries : r.Carries demand start input frames)
    (whole : buffer.Whole demand start.maxNumBytes) (same : r.numChannels = buffer.numChannels)
    (n : Nat) (inside : n < buffer.numFrames.toNat) :
    let r' := (List.range (n + 1)).foldl (fun r frame => r.processFrame buffer frame) r
    r'.Carries demand start (input ++ buffer.samples.take (buffer.numChannels.toNat * (n + 1)))
        (frames + (n + 1)) ∧
      r'.numChannels = buffer.numChannels ∧
      (n + 1 < buffer.numFrames.toNat → ∃ front last, r'.Open demand front last) ∧
      (n + 1 = buffer.numFrames.toNat → r'.Resting demand) := by
  induction n with
  | zero =>
    have first := h.processFrame carries whole same inside
    simpa using first
  | succ n ih =>
    obtain ⟨carries, same, opened, -⟩ := ih (by omega)
    obtain ⟨front, last, h⟩ := opened inside
    have next := h.processFrame carries whole same inside
    rw [List.range_succ, List.foldl_append]
    rw [List.append_assoc, ← List.take_add, ← Nat.mul_succ, Nat.add_assoc] at next
    exact next

end Frame

theorem Empty.carries_process {start : Resizer S} {input : List Int16} {frames : Nat}
    {r : Resizer S} (h : r.Empty) (carries : r.Carries demand start input frames)
    (numChannels sampleRate : UInt32) (sessionId : Id) :
    Carries demand { r with numChannels, sampleRate, sessionId, chunks := [] } start input
      frames := by
  obtain ⟨sized, blocks, history⟩ := carries
  refine ⟨⟨sized.most, sized.cache⟩, blocks, history.limit, history.successor,
    history.sound, ?_, ?_, history.frames⟩
  · have samples := history.samples
    rw [h.pending] at samples
    rw [← samples, Resizer.pending, h.cachedFrames]
    simp
  · have numbered := history.numbered
    rw [h.chunks] at numbered
    exact numbered

theorem Open.processAll {start : Resizer S} {input : List Int16} {frames : Nat} {r : Resizer S}
    {front : List Chunk} {last : Chunk} {buffer : Buffer} (h : r.Open demand front last)
    (carries : r.Carries demand start input frames) (whole : buffer.Whole demand start.maxNumBytes)
    (same : r.numChannels = buffer.numChannels) (some : 0 < buffer.numFrames.toNat) :
    let r' := (List.range buffer.numFrames.toNat).foldl
      (fun r frame => r.processFrame buffer frame) r
    r'.Carries demand start (input ++ buffer.used) (frames + buffer.numFrames.toNat) ∧
      r'.Resting demand := by
  obtain ⟨carried, -, -, resting⟩ := h.processFrames carries whole same
    (buffer.numFrames.toNat - 1) (by omega)
  rw [Nat.sub_add_cancel some] at carried resting
  rw [Nat.mul_comm] at carried
  exact ⟨carried, resting rfl⟩

theorem Resting.flush_if {start : Resizer S} {input : List Int16} {frames : Nat} {r : Resizer S}
    (h : r.Resting demand) (carries : r.Carries demand start input frames) (change : Prop)
    [Decidable change] :
    (if r.cachedFrames ≠ 0 ∧ change then r.flush else r).Carries demand start input frames ∧
      (if r.cachedFrames ≠ 0 ∧ change then r.flush else r).Resting demand := by
  split
  next cached =>
    cases h with
    | inl empty => exact absurd empty.cachedFrames cached.1
    | inr holds => exact ⟨carries.flush holds.1, .inl r.empty_flush⟩
  next => exact ⟨carries, h⟩

theorem process_silent {start : Resizer S} {input : List Int16} {frames : Nat} {r : Resizer S}
    (h : r.Resting demand) (carries : r.Carries demand start input frames) {buffer : Buffer}
    (silent : buffer.numChannels = 0 ∨ buffer.numFrames = 0) :
    (r.process buffer).Carries demand start input frames ∧ (r.process buffer).Resting demand := by
  unfold process
  split
  next => exact ⟨carries, h⟩
  next some =>
    rw [if_pos (silent.resolve_left some)]
    exact h.flush_if carries _

theorem process_carries {start : Resizer S} {input : List Int16} {frames : Nat} {r : Resizer S}
    (h : r.Resting demand) (carries : r.Carries demand start input frames) {buffer : Buffer}
    (whole : buffer.Whole demand start.maxNumBytes) :
    (r.process buffer).Carries demand start (input ++ buffer.used)
        (frames + buffer.numFrames.toNat) ∧
      (r.process buffer).Resting demand := by
  have channels : ¬buffer.numChannels = 0 := by
    intro none
    have some := whole.channels.1
    rw [none] at some
    exact absurd some (by decide)
  have format : ∀ r : Resizer S, r.maxNumBytes = start.maxNumBytes →
      r.numChannels = buffer.numChannels → r.sampleRate = buffer.sampleRate →
      r.Format demand := by
    intro r limit channels rate
    exact ⟨by rw [limit, channels]; exact whole.channels, by
      rw [channels, rate]; exact whole.format⟩
  rw [process, if_neg channels]
  obtain ⟨carried, resting⟩ := h.flush_if carries (buffer.numChannels ≠ r.numChannels ∨
    buffer.sampleRate ≠ r.sampleRate ∨ buffer.sessionId ≠ r.sessionId)
  have unchanged : (if r.cachedFrames ≠ 0 ∧ (buffer.numChannels ≠ r.numChannels ∨
      buffer.sampleRate ≠ r.sampleRate ∨ buffer.sessionId ≠ r.sessionId) then r.flush
      else r).cachedFrames ≠ 0 → (if r.cachedFrames ≠ 0 ∧ (buffer.numChannels ≠ r.numChannels ∨
      buffer.sampleRate ≠ r.sampleRate ∨ buffer.sessionId ≠ r.sessionId) then r.flush
      else r).numChannels = buffer.numChannels := by
    split
    next => exact fun cached => absurd r.empty_flush.cachedFrames cached
    next same =>
      intro cached
      by_contra differ
      exact same ⟨cached, .inl (Ne.symm differ)⟩
  generalize (if r.cachedFrames ≠ 0 ∧ (buffer.numChannels ≠ r.numChannels ∨
    buffer.sampleRate ≠ r.sampleRate ∨ buffer.sessionId ≠ r.sessionId) then r.flush
    else r) = r₁ at carried resting unchanged ⊢
  simp only
  split
  next none =>
    have used : buffer.used = [] := by simp [Buffer.used, none]
    rw [used, none, List.append_nil]
    exact ⟨carried, resting⟩
  next some =>
    have some : 0 < buffer.numFrames.toNat := by
      apply Nat.pos_of_ne_zero
      exact fun zero => some (UInt32.toNat_inj.mp zero)
    have limit : r₁.maxNumBytes = start.maxNumBytes := by
      obtain ⟨-, blocks, history⟩ := carried
      exact history.limit
    cases resting with
    | inl empty =>
      rw [if_pos empty.cachedFrames]
      have carried' := empty.carries_process carried buffer.numChannels buffer.sampleRate
        buffer.sessionId
      have empty' : Empty { r₁ with
          numChannels := buffer.numChannels
          sampleRate := buffer.sampleRate
          sessionId := buffer.sessionId
          chunks := [] } := ⟨empty.cachedFrames, rfl⟩
      obtain ⟨carried'', front, last, opened⟩ := empty'.newChunk carried'
        (format _ limit rfl rfl) buffer.beginBeats whole.tempo
      exact opened.processAll carried'' whole (by rw [numChannels_newChunk]) some
    | inr holds =>
      obtain ⟨holding, front, last, opened⟩ := holds
      have same := unchanged holding.cached
      rw [if_neg holding.cached]
      split
      next none => exact absurd (List.getLast?_eq_none_iff.mp none) holding.chunks
      next =>
        split
        next =>
          obtain ⟨carried', front, last, opened'⟩ := holding.newChunk carried buffer.beginBeats
            whole.tempo
          exact opened'.processAll carried' whole (by rw [numChannels_newChunk, same]) some
        next => exact opened.processAll carried whole same some

theorem Resting.flush {start : Resizer S} {input : List Int16} {frames : Nat} {r : Resizer S}
    (h : r.Resting demand) (carries : r.Carries demand start input frames) :
    r.flush.Carries demand start input frames := by
  cases h with
  | inl empty =>
    have idle : r.flush = { r with cachedFrames := 0 } := by simp [Resizer.flush, empty.chunks]
    have same : ({ r with cachedFrames := 0 } : Resizer S) = r := by
      rw [← empty.cachedFrames]
    rwa [idle, same]
  | inr holds => exact carries.flush holds.1

theorem processAll_carries {start r : Resizer S} {input : List Int16} {frames : Nat}
    (h : r.Resting demand) (carries : r.Carries demand start input frames) {buffers : List Buffer}
    (whole : ∀ buffer ∈ buffers, buffer.Whole demand start.maxNumBytes) :
    (buffers.foldl process r).Carries demand start (input ++ buffers.flatMap Buffer.used)
        (frames + (buffers.map fun buffer => buffer.numFrames.toNat).sum) ∧
      (buffers.foldl process r).Resting demand := by
  induction buffers generalizing r input frames with
  | nil => simpa using ⟨carries, h⟩
  | cons buffer buffers ih =>
    obtain ⟨here, others⟩ := List.forall_mem_cons.mp whole
    obtain ⟨carried, resting⟩ := process_carries h carries here
    have rest := ih resting carried others
    rw [List.append_assoc, Nat.add_assoc] at rest
    exact rest

theorem carries_new (start : S) {maxNumBytes : Nat} (most : maxNumBytes < 2 ^ 16) :
    (new start maxNumBytes).Carries demand (new start maxNumBytes) [] 0 := by
  refine ⟨⟨most, by simp [new, sampleBytes]⟩, [], rfl, rfl, ?_, ?_, ?_, rfl⟩
  · simp
  · simp [pending, new]
  · exact ⟨rfl, rfl⟩

theorem blocks_of_buffers (start : S) {maxNumBytes : Nat} (least : 4 ≤ maxNumBytes)
    (most : maxNumBytes < 2 ^ 16) {buffers : List Buffer}
    (playable : ∀ buffer ∈ buffers, buffer.Playable) :
    ∃ blocks : List Block,
      ((buffers.foldl process (new start maxNumBytes)).flush).successor =
        blocks.foldl ResizerSink.flush start ∧
      (∀ block ∈ blocks, block.Sound .decodable maxNumBytes) ∧
      blocks.flatMap Block.samples = buffers.flatMap Buffer.used ∧
      (∃ count, Numbered (blocks.flatMap Block.chunks) count) ∧
      framesOf (blocks.flatMap Block.chunks) =
        (buffers.map fun buffer => buffer.numFrames.toNat).sum := by
  obtain ⟨carried, resting⟩ := processAll_carries (.inl ⟨rfl, rfl⟩) (carries_new start most)
    fun buffer member => (playable buffer member).whole least
  obtain ⟨-, blocks, history⟩ := resting.flush carried
  have empty := (buffers.foldl process (new start maxNumBytes)).empty_flush
  have sound := history.sound
  have samples := history.samples
  have numbered := history.numbered
  have frames := history.frames
  rw [history.limit] at sound
  rw [empty.pending, List.append_nil] at samples
  rw [empty.chunks, List.append_nil] at numbered
  rw [empty.cachedFrames, Nat.add_zero, Nat.zero_add] at frames
  exact ⟨blocks, history.successor, sound, samples, ⟨_, numbered⟩, frames⟩

end Resizer

end AbletonLink.Audio
