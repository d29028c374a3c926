import AbletonLink.Audio.ResizerLaws
import AbletonLink.Audio.SinkBuffers
import AbletonLink.Audio.SlotValues

/-! When the buffers that a sink hands to its reader are in bounds, and what the resizer then makes
of them. -/

namespace AbletonLink.Audio

open Library Library.Run Link

namespace Buffer

def InBounds (buffer : Buffer) : Prop :=
  buffer.tempo.bpm > 0.0 →
    buffer.numFrames.toNat * buffer.numChannels.toNat ≤ buffer.samples.length

instance (buffer : Buffer) : Decidable buffer.InBounds := inferInstanceAs (Decidable (_ → _))

def Narrow (buffer : Buffer) : Prop :=
  buffer.tempo.bpm > 0.0 → buffer.numFrames.toNat = 0 ∨
    buffer.numChannels.toNat * 2 ≤ MAX_AUDIO_BYTES ∧
      buffer.numFrames.toNat * buffer.numChannels.toNat ≤ 2 ^ 32

def Covers (buffer : Buffer) : Prop :=
  ∀ frame < buffer.numFrames.toNat, ∀ channel < buffer.numChannels.toNat, ∃ sample,
    buffer.samples[(buffer.numChannels.toNat * frame + channel) % 2 ^ 32]? = some sample

structure Stable (good : Buffer → Prop) : Prop where
  clearTiming : ∀ buffer : Buffer, good buffer.clearTiming
  grow : ∀ (buffer : Buffer) (maxNumSamples : Nat), good buffer → good (buffer.grow maxNumSamples)

theorem clearTiming_silent (buffer : Buffer) : ¬buffer.clearTiming.tempo.bpm > 0.0 := by
  show ¬(0.0 : Float) > 0.0
  decide +kernel

theorem stable_inBounds : Stable InBounds where
  clearTiming buffer audio := absurd audio buffer.clearTiming_silent
  grow buffer maxNumSamples h := by
    unfold Buffer.grow
    split
    next => exact fun audio => (h audio).trans (by simp)
    next => exact h

theorem stable_narrow : Stable Narrow where
  clearTiming buffer audio := absurd audio buffer.clearTiming_silent
  grow buffer maxNumSamples h := by
    unfold Buffer.grow
    split
    next => exact h
    next => exact h

theorem samples_clearTiming (buffer : Buffer) : buffer.clearTiming.samples = buffer.samples := by
  simp only [clearTiming]

theorem samples_write (commit : Commit) (buffer : Buffer) :
    (commit.write buffer).samples = buffer.samples := by
  simp only [Commit.write]

theorem length_grow (maxNumSamples : Nat) (buffer : Buffer) :
    (buffer.grow maxNumSamples).samples.length = max buffer.samples.length maxNumSamples := by
  unfold Buffer.grow
  split
  next less =>
    rw [List.length_append, List.length_replicate]
    omega
  next => omega

theorem InBounds.covers {buffer : Buffer} (h : buffer.InBounds) (audio : buffer.tempo.bpm > 0.0) :
    buffer.Covers := by
  intro frame inside channel inside'
  have bound := h audio
  have rows : buffer.numChannels.toNat * (frame + 1) ≤
      buffer.numFrames.toNat * buffer.numChannels.toNat := by
    rw [Nat.mul_comm]
    exact Nat.mul_le_mul_right _ inside
  rw [Nat.mul_succ] at rows
  have index : (buffer.numChannels.toNat * frame + channel) % 2 ^ 32 ≤
      buffer.numChannels.toNat * frame + channel := Nat.mod_le _ _
  exact ⟨_, List.getElem?_eq_getElem (by omega)⟩

end Buffer

namespace SinkBuffers

def Commits (s : SinkBuffers) (op : SinkOp) (commit : Commit) (limit : Nat) : Prop :=
  op = .advance ∧ s.place = .committing commit limit

inductive Effect (s : SinkBuffers) : SinkOp → SlotQueue Buffer → Prop
  | quiet {op : SinkOp} (other : ∀ commit limit, ¬s.Commits op commit limit) :
      Effect s op s.queue
  | queue {op : SinkOp} (queueOp : QueueOp Buffer)
      (other : ∀ commit limit, ¬s.Commits op commit limit) (kept : queueOp ≠ .writerRelease)
      (grows : ∀ f, queueOp = .readerWrite f → ∃ limit, f = Buffer.grow limit) :
      Effect s op (s.queue.step queueOp)
  | dropped {op : SinkOp} (other : ∀ commit limit, ¬s.Commits op commit limit) :
      Effect s op (s.handOver Buffer.clearTiming).queue
  | committed {op : SinkOp} {commit : Commit} {limit : Nat} (commits : s.Commits op commit limit) :
      Effect s op
        (s.handOver (if commit.Accepted limit then commit.write else Buffer.clearTiming)).queue

theorem Effect.still {s : SinkBuffers} {op : SinkOp} (other : op ≠ .advance)
    (same : (s.step op).queue = s.queue) : s.Effect op (s.step op).queue := by
  rw [same]
  exact .quiet fun _ _ commits => other commits.1

theorem effect_advance (s : SinkBuffers) : s.Effect .advance s.advance.queue := by
  cases place : s.place with
  | committing commit limit =>
    have effect := @Effect.committed s .advance commit limit ⟨rfl, place⟩
    simpa only [SinkBuffers.advance, place] using effect
  | locked =>
    have other (commit : Commit) (limit : Nat) : ¬s.Commits .advance commit limit := by
      simp [Commits, place]
    simp only [SinkBuffers.advance, place]
    split
    next => exact .quiet other
    next => refine .queue .writerRetain other ?_ ?_ <;> simp
  | taking =>
    have other (commit : Commit) (limit : Nat) : ¬s.Commits .advance commit limit := by
      simp [Commits, place]
    simp only [SinkBuffers.advance, place]
    refine .queue .writerTake other ?_ ?_ <;> simp
  | growing limit =>
    have other (commit : Commit) (limit : Nat) : ¬s.Commits .advance commit limit := by
      simp [Commits, place]
    simp only [SinkBuffers.advance, place]
    refine .queue (.writerWrite (Buffer.grow limit)) other ?_ ?_ <;> simp
  | idle | holding | sizing =>
    have other (commit : Commit) (limit : Nat) : ¬s.Commits .advance commit limit := by
      simp [Commits, place]
    simp only [SinkBuffers.advance, place]
    exact .quiet other

theorem effect_step (s : SinkBuffers) (op : SinkOp) : s.Effect op (s.step op).queue := by
  cases op with
  | setIsConnected isConnected => exact .still (by simp) rfl
  | requestMaxNumSamples numSamples => exact .still (by simp) rfl
  | retainBuffer =>
    refine .still (by simp) ?_
    simp only [step]
    split <;> rfl
  | lock =>
    refine .still (by simp) ?_
    simp only [step]
    split <;> rfl
  | advance => exact s.effect_advance
  | writeSample i sample =>
    simp only [step]
    split
    next =>
      refine .queue (.writerWrite fun buffer =>
        { buffer with samples := buffer.samples.set i sample }) ?_ ?_ ?_
      · simp [Commits]
      · simp
      · simp
    next => exact .quiet (by simp [Commits])
  | commit commit =>
    refine .still (by simp) ?_
    simp only [step]
    split <;> rfl
  | release =>
    simp only [step]
    split
    next => exact .dropped (by simp [Commits])
    next => exact .quiet (by simp [Commits])
  | readerSize => exact .still (by simp) rfl
  | readerRenew => exact .still (by simp) rfl
  | readerEncode =>
    refine .still (by simp) ?_
    simp only [step]
    split
    next => split <;> rfl
    next => rfl
  | readerGrow =>
    refine .queue (.readerWrite (Buffer.grow s.readerLimit)) ?_ ?_ ?_
    · simp [Commits]
    · simp
    · rintro f ⟨⟩
      exact ⟨_, rfl⟩
  | reader op =>
    refine .queue op.queueOp ?_ ?_ ?_
    · simp [Commits]
    · cases op <;> simp [ReaderOp.queueOp]
    · cases op <;> simp [ReaderOp.queueOp]

variable {s : SinkBuffers} {op : SinkOp} {good : Buffer → Prop}

theorem Effect.conserved {queue : SlotQueue Buffer} (h : s.queue.Conserved)
    (effect : s.Effect op queue) : queue.Conserved := by
  cases effect with
  | quiet => exact h
  | queue queueOp => exact h.step queueOp
  | dropped | committed => exact (h.step (.writerWrite _)).step .writerRelease

def Makes (good : Buffer → Prop) (s : SinkBuffers) (op : SinkOp) : Prop :=
  ∀ commit limit, s.Commits op commit limit → commit.Accepted limit →
    ∀ slot ∈ s.queue.writer.current, good (commit.write slot.value)

theorem Effect.sent_iff {queue : SlotQueue Buffer} (stable : Buffer.Stable good)
    (h : s.queue.Conserved) (before : s.queue.Sent good) (effect : s.Effect op queue) :
    queue.Sent good ↔ s.Makes good op := by
  cases effect with
  | quiet other => exact iff_of_true before fun commit limit commits => absurd commits (other _ _)
  | queue queueOp other kept grows =>
    refine iff_of_true ?_ fun commit limit commits => absurd commits (other _ _)
    refine before.of_change (h.change queueOp) kept fun f write value here => ?_
    obtain ⟨limit, rfl⟩ := grows f write
    exact stable.grow value limit here
  | dropped other =>
    refine iff_of_true ?_ fun commit limit commits => absurd commits (other _ _)
    exact (SlotQueue.sent_handOver h _).mpr ⟨before, fun slot _ => stable.clearTiming slot.value⟩
  | committed commits =>
    rw [handOver, SlotQueue.sent_handOver h]
    constructor
    · rintro ⟨-, made⟩ commit' limit' commits' accepted slot held
      cases commits.2.symm.trans commits'.2
      have good := made slot held
      rwa [if_pos accepted] at good
    · intro makes
      refine ⟨before, fun slot held => ?_⟩
      split
      next accepted => exact makes _ _ commits accepted slot held
      next => exact stable.clearTiming slot.value

/-! The length of the retained buffer. -/

def loaded (log : List Nat) : Nat := log.getLast?.getD 0

@[simp] theorem loaded_concat (log : List Nat) (limit : Nat) : loaded (log ++ [limit]) = limit := by
  simp [loaded]

/-- No buffer is longer than was asked for, and the retained one is just as long as its
`retain_buffer` found it had to be. -/
structure Sized (log : List Nat) (s : SinkBuffers) : Prop where
  every : s.queue.Every fun buffer => buffer.samples.length ≤ s.maxNumSamples
  reader : s.readerLimit ≤ s.maxNumSamples
  sizing : s.place = .sizing → s.queue.writer.current.isSome = true
  growing : ∀ limit, s.place = .growing limit → limit = loaded log ∧ limit ≤ s.maxNumSamples ∧
    ∃ slot, s.queue.writer.current = some slot ∧ slot.value.samples.length ≤ limit
  held : s.place = .holding ∨ (∃ commit limit, s.place = .committing commit limit) →
    ∃ slot, s.queue.writer.current = some slot ∧ slot.value.samples.length = loaded log

theorem sized_new (maxNumSamples : Nat) : (new maxNumSamples).Sized [] := by
  refine ⟨⟨?_, nofun, nofun, nofun, nofun⟩, Nat.zero_le _, nofun, nofun, ?_⟩
  · intro slot mem
    obtain ⟨id, -, rfl⟩ := List.mem_map.mp mem
    simp [new, Buffer.new]
  · rintro (idle | ⟨commit, limit, idle⟩) <;> cases idle

theorem Sized.queue_handOver {log : List Nat} (h : s.Sized log) (conserved : s.queue.Conserved)
    {f : Buffer → Buffer} (same : ∀ buffer, (f buffer).samples = buffer.samples) :
    (s.handOver f).Sized log := by
  have written : (s.queue.step (.writerWrite f)).Every fun buffer =>
      buffer.samples.length ≤ s.maxNumSamples := by
    refine h.every.of_change (conserved.change (.writerWrite f)) fun g write value fits => ?_
    rcases write with write | write <;> cases write
    rw [same]
    exact fits
  have released := (conserved.step (.writerWrite f)).change .writerRelease
  refine ⟨written.of_change released (by rintro g (write | write) <;> cases write), h.reader, nofun,
    nofun, ?_⟩
  rintro (idle | ⟨commit, limit, idle⟩) <;> cases idle

theorem Sized.queue_reader {log : List Nat} (h : s.Sized log) (conserved : s.queue.Conserved)
    {op : QueueOp Buffer} (reader : op.ofWriter = false)
    (writes : ∀ f, op = .readerWrite f → f = Buffer.grow s.readerLimit) :
    { s with queue := s.queue.step op }.Sized log := by
  have change := conserved.change op
  have same := change.ofReader reader
  refine ⟨h.every.of_change change fun f write value fits => ?_, h.reader, ?_, ?_, ?_⟩
  · rcases write with rfl | write
    · cases reader
    · rw [writes f write, Buffer.length_grow]
      exact max_le fits h.reader
  · intro sizing
    show (s.queue.step op).writer.current.isSome = true
    rw [same]
    exact h.sizing sizing
  · intro limit growing
    show _ ∧ _ ∧ ∃ slot, (s.queue.step op).writer.current = some slot ∧ _
    rw [same]
    exact h.growing limit growing
  · intro held
    show ∃ slot, (s.queue.step op).writer.current = some slot ∧ _
    rw [same]
    exact h.held held

theorem Sized.queue_writer {log : List Nat} (h : s.Sized log) (conserved : s.queue.Conserved)
    {op : QueueOp Buffer} (writes : ∀ f, op ≠ .writerWrite f ∧ op ≠ .readerWrite f) {place : SinkAt}
    (elsewhere : place = .idle ∨ place = .taking ∨ place = .sizing)
    (took : place = .sizing → (s.queue.step op).writer.current.isSome = true) :
    { s with queue := s.queue.step op, place }.Sized log := by
  refine ⟨h.every.of_change (conserved.change op) fun f write => ?_, h.reader, took, ?_, ?_⟩
  · exact absurd write (not_or.mpr (writes f))
  · intro limit growing
    rcases elsewhere with rfl | rfl | rfl <;> cases growing
  · rintro (holding | ⟨commit, limit, holding⟩) <;> rcases elsewhere with rfl | rfl | rfl <;>
      cases holding

theorem Sized.advance {log : List Nat} (h : s.Sized log) (conserved : s.queue.Conserved) :
    s.advance.Sized (log ++ s.loads .advance) := by
  cases place : s.place with
  | idle | holding =>
    simp only [SinkBuffers.advance, loads, place, List.append_nil]
    exact h
  | locked =>
    simp only [SinkBuffers.advance, loads, place, List.append_nil]
    split
    next =>
      refine { h with sizing := nofun, growing := nofun, held := ?_ }
      rintro (idle | ⟨commit, limit, idle⟩) <;> cases idle
    next => exact h.queue_writer conserved (fun f => ⟨by simp, by simp⟩) (.inr (.inl rfl)) nofun
  | taking =>
    simp only [SinkBuffers.advance, loads, place, List.append_nil]
    refine h.queue_writer conserved (fun f => ⟨by simp, by simp⟩) ?_ ?_
    · split
      next => exact .inr (.inr rfl)
      next => exact .inl rfl
    · intro sizing
      by_contra none
      rw [if_neg none] at sizing
      cases sizing
  | sizing =>
    simp only [SinkBuffers.advance, loads, place]
    refine { h with sizing := nofun, growing := ?_, held := ?_ }
    · rintro limit ⟨⟩
      obtain ⟨slot, held⟩ := Option.isSome_iff_exists.mp (h.sizing place)
      exact ⟨(loaded_concat ..).symm, Nat.le_refl _, slot, held, h.every.writer slot held⟩
    · rintro (holding | ⟨commit, limit, holding⟩) <;> cases holding
  | growing limit =>
    simp only [SinkBuffers.advance, loads, place, List.append_nil]
    obtain ⟨same, most, slot, held, fits⟩ := h.growing limit place
    refine ⟨h.every.of_change (conserved.change (.writerWrite (Buffer.grow limit)))
      fun f write value fits => ?_, h.reader, nofun, nofun, fun _ => ?_⟩
    · rcases write with write | write <;> cases write
      rw [Buffer.length_grow]
      exact max_le fits most
    · refine ⟨{ slot with value := slot.value.grow limit }, ?_, ?_⟩
      · simp [SlotQueue.step, held]
      · rw [Buffer.length_grow, ← same]
        exact max_eq_right fits
  | committing commit limit =>
    simp only [SinkBuffers.advance, loads, place, List.append_nil]
    refine h.queue_handOver conserved fun buffer => ?_
    split
    next => exact buffer.samples_write commit
    next => exact buffer.samples_clearTiming

theorem Sized.still {log : List Nat} (h : s.Sized log) (conserved : s.queue.Conserved)
    (other : op ≠ .advance) : (s.step op).Sized log := by
  cases op with
  | advance => exact absurd rfl other
  | setIsConnected isConnected => exact { h with }
  | requestMaxNumSamples numSamples =>
    have more : s.maxNumSamples ≤ max s.maxNumSamples numSamples := le_max_left _ _
    refine ⟨h.every.mono fun buffer fits => fits.trans more, h.reader.trans more, h.sizing, ?_,
      h.held⟩
    intro limit growing
    obtain ⟨same, most, fits⟩ := h.growing limit growing
    exact ⟨same, most.trans more, fits⟩
  | retainBuffer =>
    simp only [SinkBuffers.step]
    split
    next => exact { h with }
    next => exact h
  | lock =>
    simp only [SinkBuffers.step]
    split
    next =>
      refine { h with sizing := by rintro ⟨⟩, growing := by rintro _ ⟨⟩, held := ?_ }
      rintro (holding | ⟨commit, limit, holding⟩) <;> cases holding
    next => exact h
  | writeSample i sample =>
    simp only [SinkBuffers.step]
    split
    next holding =>
      have change := conserved.change (.writerWrite fun buffer =>
        { buffer with samples := buffer.samples.set i sample })
      obtain ⟨slot, held, length⟩ := h.held (.inl holding)
      refine ⟨h.every.of_change change fun f write value fits => ?_, h.reader, ?_, ?_, fun _ => ?_⟩
      · rcases write with write | write <;> cases write
        rw [List.length_set]
        exact fits
      · intro sizing
        rw [holding] at sizing
        cases sizing
      · intro limit growing
        rw [holding] at growing
        cases growing
      · refine ⟨{ slot with value := { slot.value with
            samples := slot.value.samples.set i sample } }, ?_, ?_⟩
        · simp [SlotQueue.step, held]
        · rw [List.length_set]
          exact length
    next => exact h
  | commit commit =>
    simp only [SinkBuffers.step]
    split
    next holding =>
      exact { h with
        sizing := by rintro ⟨⟩
        growing := by rintro _ ⟨⟩
        held := fun _ => h.held (.inl holding) }
    next => exact h
  | release =>
    simp only [SinkBuffers.step]
    split
    next => exact h.queue_handOver conserved Buffer.samples_clearTiming
    next => exact h
  | readerSize => exact { h with reader := Nat.le_refl _ }
  | readerEncode =>
    simp only [SinkBuffers.step]
    split
    next =>
      split
      next => exact { h with }
      next => exact h
    next => exact h
  | readerGrow =>
    refine h.queue_reader conserved rfl ?_
    rintro f ⟨⟩
    rfl
  | readerRenew => exact { h with }
  | reader op =>
    refine h.queue_reader conserved ?_ ?_ <;> cases op
    all_goals first | rfl | simp [ReaderOp.queueOp]

theorem Sized.step {log : List Nat} (h : s.Sized log) (conserved : s.queue.Conserved)
    (op : SinkOp) : (s.step op).Sized (log ++ s.loads op) := by
  by_cases advance : op = .advance
  · rw [advance]
    exact h.advance conserved
  · have none : s.loads op = [] := by
      cases op <;> first | rfl | exact absurd rfl advance
    rw [none, List.append_nil]
    exact h.still conserved advance

theorem sized_run (maxNumSamples : Nat) (ops : List SinkOp) :
    (run step (new maxNumSamples) ops).Sized (logged step loads (new maxNumSamples) ops) := by
  have both : (run step (new maxNumSamples) ops).queue.Conserved ∧
      (run step (new maxNumSamples) ops).Sized
        ([] ++ logged step loads (new maxNumSamples) ops) := by
    refine run_logged (I := fun log (s : SinkBuffers) => s.queue.Conserved ∧ s.Sized log)
      (P := fun _ _ => True) ?_ ⟨SlotQueue.conserved_new _ _, sized_new maxNumSamples⟩
      (along_of_forall (fun _ _ => trivial) _ _)
    rintro log s op ⟨conserved, sized⟩ -
    exact ⟨(s.effect_step op).conserved conserved, sized.step conserved op⟩
  exact both.2

end SinkBuffers

namespace Commit

/-- The limit was raised between the `retain_buffer`, which loaded `loaded`, and the `commit`, which
loaded `limit`, and the commit makes use of it. -/
def Raised (commit : Commit) (loaded limit : Nat) : Prop :=
  commit.numFrames.toNat < 2 ^ 32 ∧ commit.numChannels.toNat < 2 ^ 32 ∧
    loaded < commit.numFrames.toNat * commit.numChannels.toNat ∧
    commit.numFrames.toNat * commit.numChannels.toNat ≤ limit

def Wrapped (commit : Commit) (loaded limit : Nat) : Prop :=
  (2 ^ 32 ≤ commit.numFrames.toNat ∨ 2 ^ 32 ≤ commit.numChannels.toNat) ∧
    commit.numFrames.toNat * commit.numChannels.toNat % 2 ^ 64 ≤ limit ∧
    loaded < commit.numFrames.toNat % 2 ^ 32 * (commit.numChannels.toNat % 2 ^ 32)

def Narrow (commit : Commit) : Prop :=
  commit.numFrames.toNat % 2 ^ 32 = 0 ∨
    commit.numChannels.toNat % 2 ^ 32 * 2 ≤ MAX_AUDIO_BYTES ∧
      commit.numFrames.toNat % 2 ^ 32 * (commit.numChannels.toNat % 2 ^ 32) ≤ 2 ^ 32

variable {commit : Commit} {limit : Nat} {buffer : Buffer}

theorem inBounds_write_iff (accepted : commit.Accepted limit)
    (audio : commit.timeline.tempo.bpm > 0.0) :
    (commit.write buffer).InBounds ↔ ¬commit.Raised buffer.samples.length limit ∧
      ¬commit.Wrapped buffer.samples.length limit := by
  have product : commit.numFrames.toNat * commit.numChannels.toNat % 2 ^ 64 ≤ limit := by
    by_contra more
    rw [← UInt64.toNat_mul] at more
    exact accepted (.inr (.inr (by omega)))
  have written : (commit.write buffer).InBounds ↔
      commit.numFrames.toNat % 2 ^ 32 * (commit.numChannels.toNat % 2 ^ 32) ≤
        buffer.samples.length := by
    rw [← UInt64.toNat_toUInt32, ← UInt64.toNat_toUInt32]
    exact ⟨fun h => h audio, fun h _ => h⟩
  rw [written]
  by_cases fit : commit.numFrames.toNat < 2 ^ 32 ∧ commit.numChannels.toNat < 2 ^ 32
  · obtain ⟨frames, channels⟩ := fit
    have short : commit.numFrames.toNat * commit.numChannels.toNat < 2 ^ 32 * 2 ^ 32 :=
      Nat.mul_lt_mul'' frames channels
    rw [Nat.mod_eq_of_lt (by omega)] at product
    rw [Nat.mod_eq_of_lt frames, Nat.mod_eq_of_lt channels]
    constructor
    · intro fits
      exact ⟨fun raised => Nat.not_lt.mpr fits raised.2.2.1, fun wrapped => by
        rcases wrapped.1 with more | more <;> omega⟩
    · rintro ⟨unraised, -⟩
      exact Nat.not_lt.mp fun more => unraised ⟨frames, channels, more, product⟩
  · have wide : 2 ^ 32 ≤ commit.numFrames.toNat ∨ 2 ^ 32 ≤ commit.numChannels.toNat := by omega
    constructor
    · intro fits
      exact ⟨fun raised => fit ⟨raised.1, raised.2.1⟩, fun wrapped =>
        Nat.not_lt.mpr fits wrapped.2.2⟩
    · rintro ⟨-, unwrapped⟩
      exact Nat.not_lt.mp fun more => unwrapped ⟨wide, product, more⟩

theorem narrow_write (narrow : commit.Narrow) : (commit.write buffer).Narrow := by
  intro _
  show commit.numFrames.toUInt32.toNat = 0 ∨ commit.numChannels.toUInt32.toNat * 2 ≤ _ ∧
    commit.numFrames.toUInt32.toNat * commit.numChannels.toUInt32.toNat ≤ _
  rw [UInt64.toNat_toUInt32, UInt64.toNat_toUInt32]
  exact narrow

end Commit

/-! What the resizer makes of the buffers. -/

/-- The blocks are made of the samples of the inputs, each once and in their order, and no block
reports a frame it does not hold. -/
structure Copied (inputs : List Buffer) (r : Resizer (List Block)) : Prop where
  samples : r.successor.flatMap Block.samples ++ r.pending = inputs.flatMap Buffer.used
  frames : ∀ block ∈ r.successor,
    block.samples.length = framesOf block.chunks * block.numChannels.toNat

namespace SinkBuffers

variable {s : SinkBuffers} {op : SinkOp}

def given (log : List (Option Buffer)) : List Buffer :=
  log.foldl (fun inputs event => event.elim [] fun buffer => inputs ++ [buffer]) []

theorem given_concat (log : List (Option Buffer)) (event : Option Buffer) :
    given (log ++ [event]) = event.elim [] fun buffer => given log ++ [buffer] :=
  List.foldl_concat ..

def Carried (log : List (Option Buffer)) (s : SinkBuffers) : Prop :=
  s.resizer.Resting .any ∧ ∃ frames, s.resizer.Carries .any (.new [] MAX_AUDIO_BYTES)
    ((given log).flatMap Buffer.used) frames

theorem carried_new (maxNumSamples : Nat) : (new maxNumSamples).Carried [] := by
  have most : MAX_AUDIO_BYTES < 2 ^ 16 := by decide
  exact ⟨.inl ⟨rfl, rfl⟩, 0, Resizer.carries_new [] most⟩

theorem Carried.encode {log : List (Option Buffer)} (h : s.Carried log) {buffer : Buffer}
    (audio : buffer.tempo.bpm > 0.0) (inBounds : buffer.InBounds) (narrow : buffer.Narrow) :
    { s with resizer := s.resizer.process buffer }.Carried (log ++ [some buffer]) := by
  obtain ⟨resting, frames, carries⟩ := h
  have inputs : (given (log ++ [some buffer])).flatMap Buffer.used =
      (given log).flatMap Buffer.used ++ buffer.used := by
    rw [given_concat]
    simp
  show Resizer.Resting _ _ ∧ ∃ frames, Resizer.Carries _ _ _
    ((given (log ++ [some buffer])).flatMap Buffer.used) frames
  rw [inputs]
  by_cases silent : buffer.numChannels = 0 ∨ buffer.numFrames = 0
  · have none : buffer.used = [] := by
      rcases silent with zero | zero <;> simp [Buffer.used, zero]
    obtain ⟨carries, resting⟩ := Resizer.process_silent resting carries silent
    rw [none, List.append_nil]
    exact ⟨resting, frames, carries⟩
  · obtain ⟨channels, some⟩ := not_or.mp silent
    have narrow := (narrow audio).resolve_left fun zero => some (UInt32.toNat_inj.mp zero)
    have whole : buffer.Whole .any MAX_AUDIO_BYTES :=
      { channels := ⟨Nat.pos_of_ne_zero fun zero => channels (UInt32.toNat_inj.mp zero), narrow.1⟩
        format := trivial
        tempo := trivial
        enough := inBounds audio
        indexed := narrow.2 }
    obtain ⟨carries, resting⟩ := Resizer.process_carries resting carries whole
    exact ⟨resting, _, carries⟩

theorem resizer_advance (s : SinkBuffers) : s.advance.resizer = s.resizer := by
  cases place : s.place with
  | locked =>
    simp only [SinkBuffers.advance, place]
    split <;> rfl
  | _ => simp only [SinkBuffers.advance, place, handOver]

theorem Carried.step {log : List (Option Buffer)} (h : s.Carried log)
    (good : ∀ slot ∈ s.queue.reader.current, slot.value.InBounds ∧ slot.value.Narrow) :
    (s.step op).Carried (log ++ s.encodes op) := by
  have still (silent : s.encodes op = []) (same : (s.step op).resizer = s.resizer) :
      (s.step op).Carried (log ++ s.encodes op) := by
    rw [silent, List.append_nil]
    unfold Carried at h ⊢
    rwa [same]
  cases op with
  | readerEncode =>
    cases place : s.queue.reader.place with
    | idle =>
      cases current : s.queue.reader.current with
      | none =>
        refine still ?_ ?_
        · simp only [encodes, place, current]
        · simp only [SinkBuffers.step, place, current]
      | some slot =>
        by_cases audio : slot.value.tempo.bpm > 0.0
        · obtain ⟨inBounds, narrow⟩ := good slot current
          simp only [SinkBuffers.step, encodes, place, current, if_pos audio]
          exact h.encode audio inBounds narrow
        · refine still ?_ ?_
          · simp only [encodes, place, current, if_neg audio]
          · simp only [SinkBuffers.step, place, current, if_neg audio]
    | _ =>
      refine still ?_ ?_
      · simp only [encodes, place]
      · simp only [SinkBuffers.step, place]
  | readerRenew =>
    have most : MAX_AUDIO_BYTES < 2 ^ 16 := by decide
    refine ⟨.inl ⟨rfl, rfl⟩, 0, ?_⟩
    rw [encodes, given_concat]
    exact Resizer.carries_new [] most
  | advance => exact still rfl s.resizer_advance
  | retainBuffer | lock | writeSample | commit | release =>
    refine still rfl ?_
    simp only [SinkBuffers.step]
    split <;> rfl
  | _ => exact still rfl rfl

theorem Carried.copied {log : List (Option Buffer)} (h : s.Carried log) :
    Copied (given log) s.resizer := by
  obtain ⟨-, frames, -, blocks, history⟩ := h
  have collected (blocks sent : List Block) :
      blocks.foldl ResizerSink.flush sent = sent ++ blocks := by
    induction blocks generalizing sent with
    | nil => simp
    | cons block blocks ih =>
      rw [List.foldl_cons, ih]
      exact List.append_assoc sent [block] blocks
  have same : s.resizer.successor = blocks := history.successor.trans (collected blocks [])
  rw [← same] at history
  exact ⟨history.samples, fun block mem => (history.sound block mem).samples⟩

/-! The commits of a run. -/

/-- Something holds of every commit at a positive tempo that passes the check, of the size that its
`retain_buffer` has loaded and of the one it has loaded itself. -/
def EveryCommit (maxNumSamples : Nat) (ops : List SinkOp)
    (fine : Commit → Nat → Nat → Prop) : Prop :=
  ∀ before op after, ops = before ++ op :: after → ∀ commit limit,
    (run step (new maxNumSamples) before).Commits op commit limit → commit.Accepted limit →
      commit.timeline.tempo.bpm > 0.0 →
        fine commit (loaded (logged step loads (new maxNumSamples) before)) limit

/-- Every buffer handed over as audio is in bounds, and in the reader's hand the samples do not end
before the frames do. -/
structure InBounds (s : SinkBuffers) : Prop where
  sent : s.queue.Sent Buffer.InBounds
  covers : ∀ slot ∈ s.queue.reader.current, slot.value.tempo.bpm > 0.0 → slot.value.Covers

theorem inBounds_iff : s.InBounds ↔ s.queue.Sent Buffer.InBounds :=
  ⟨InBounds.sent, fun sent => ⟨sent, fun slot held => (sent.reader slot held).covers⟩⟩

theorem sent_new {good : Buffer → Prop} (maxNumSamples : Nat) :
    (new maxNumSamples).queue.Sent good where
  filled entry none := by cases none
  checking entry none := by cases none
  reader slot none := by cases none

theorem makes_inBounds_iff (maxNumSamples : Nat) (before : List SinkOp) (op : SinkOp) :
    (run step (new maxNumSamples) before).Makes Buffer.InBounds op ↔
      ∀ commit limit, (run step (new maxNumSamples) before).Commits op commit limit →
        commit.Accepted limit → commit.timeline.tempo.bpm > 0.0 →
          ¬commit.Raised (loaded (logged step loads (new maxNumSamples) before)) limit ∧
            ¬commit.Wrapped (loaded (logged step loads (new maxNumSamples) before)) limit := by
  have sized := sized_run maxNumSamples before
  constructor
  · intro makes commit limit commits accepted audio
    obtain ⟨slot, held, length⟩ := sized.held (.inr ⟨commit, limit, commits.2⟩)
    have bound := makes commit limit commits accepted slot held
    rwa [Commit.inBounds_write_iff accepted audio, length] at bound
  · intro fine commit limit commits accepted slot held audio
    obtain ⟨slot', held', length⟩ := sized.held (.inr ⟨commit, limit, commits.2⟩)
    cases held.symm.trans held'
    have bound := fine commit limit commits accepted audio
    rw [← length, ← Commit.inBounds_write_iff accepted audio] at bound
    exact bound audio

/-- In every run the buffers handed over are in bounds all along exactly when no commit makes use of
a limit that was raised since its buffer was retained, nor of a product that wraps; and if every
commit is narrow besides, the resizer copies every frame it reports. -/
theorem committed_inBounds_iff (maxNumSamples : Nat) (ops : List SinkOp) :
    ((∀ before, before <+: ops → (run step (new maxNumSamples) before).InBounds) ↔
      EveryCommit maxNumSamples ops fun commit loaded limit =>
        ¬commit.Raised loaded limit ∧ ¬commit.Wrapped loaded limit) ∧
    ((EveryCommit maxNumSamples ops fun commit loaded limit =>
        ¬commit.Raised loaded limit ∧ ¬commit.Wrapped loaded limit ∧ commit.Narrow) →
      Copied (given (logged step encodes (new maxNumSamples) ops))
        (run step (new maxNumSamples) ops).resizer) := by
  constructor
  · have exactly := prefix_iff_along (A := fun s : SinkBuffers => s.queue.Conserved)
      (G := fun s => s.queue.Sent Buffer.InBounds)
      (fun s op h => (s.effect_step op).conserved h)
      (fun s op h before => (s.effect_step op).sent_iff Buffer.stable_inBounds h before)
      (SlotQueue.conserved_new SINK_QUEUE_SIZE (Buffer.new maxNumSamples))
      (sent_new maxNumSamples) ops
    rw [forall₂_congr fun before _ => inBounds_iff, exactly, along_iff]
    exact forall₄_congr fun before op after split => makes_inBounds_iff maxNumSamples before op
  · intro fine
    have stable : Buffer.Stable fun buffer => buffer.InBounds ∧ buffer.Narrow :=
      { clearTiming := fun buffer =>
          ⟨Buffer.stable_inBounds.clearTiming buffer, Buffer.stable_narrow.clearTiming buffer⟩
        grow := fun buffer limit good =>
          ⟨Buffer.stable_inBounds.grow buffer limit good.1,
            Buffer.stable_narrow.grow buffer limit good.2⟩ }
    have makes : Along step (Makes fun buffer => buffer.InBounds ∧ buffer.Narrow)
        (new maxNumSamples) ops := by
      rw [along_iff]
      intro before op after split commit limit commits accepted slot held
      constructor
      · refine (makes_inBounds_iff maxNumSamples before op).mpr ?_ commit limit commits accepted
          slot held
        intro commit limit commits accepted audio
        obtain ⟨unraised, unwrapped, -⟩ :=
          fine before op after split commit limit commits accepted audio
        exact ⟨unraised, unwrapped⟩
      · intro audio
        have narrow := (fine before op after split commit limit commits accepted audio).2.2
        exact Commit.narrow_write narrow audio
    have all : (run step (new maxNumSamples) ops).queue.Conserved ∧
        ((run step (new maxNumSamples) ops).queue.Sent fun buffer =>
          buffer.InBounds ∧ buffer.Narrow) ∧
        (run step (new maxNumSamples) ops).Carried
          ([] ++ logged step encodes (new maxNumSamples) ops) := by
      refine run_logged (I := fun log (s : SinkBuffers) => s.queue.Conserved ∧
        (s.queue.Sent fun buffer => buffer.InBounds ∧ buffer.Narrow) ∧ s.Carried log) ?_
        ⟨SlotQueue.conserved_new _ _, sent_new maxNumSamples, carried_new maxNumSamples⟩ makes
      rintro log s op ⟨conserved, sent, carried⟩ makes
      have effect := s.effect_step op
      exact ⟨effect.conserved conserved, (effect.sent_iff stable conserved sent).mpr makes,
        carried.step sent.reader⟩
    exact all.2.2.copied

def commitOf (numFrames numChannels : UInt64) : Commit where
  timeline := { tempo := ⟨120.0⟩, beatOrigin := ⟨0⟩, timeOrigin := .zero }
  sessionId := default
  beatsAtBufferBegin := 0.0
  quantum := 4.0
  numFrames
  numChannels
  sampleRate := 48000

def handedOver (size numSamples : Nat) (commit : Commit) : SinkBuffers :=
  run step (new size)
    [.setIsConnected true, .retainBuffer, .lock, .advance, .advance, .advance, .advance,
      .requestMaxNumSamples numSamples, .commit commit, .advance, .reader .retain, .reader .step,
      .reader .step]

def inHand (s : SinkBuffers) : Option Buffer := s.queue.reader.current.map Slot.value

def blocks (s : SinkBuffers) : List (Nat × UInt32 × Nat) :=
  (s.step .readerEncode).resizer.flush.successor.map fun block =>
    (framesOf block.chunks, block.numChannels, block.samples.length)

theorem committed_out_of_bounds :
    (∃ buffer ∈ (handedOver 8 32 (commitOf 32 1)).inHand, ¬buffer.InBounds ∧
      buffer.samples.length = 8) ∧
    (handedOver 8 32 (commitOf 32 1)).blocks = [(32, 1, 32)] ∧
    (∃ buffer ∈ (handedOver 8 0 (commitOf 3 0xAAAAAAAAAAAAAAAB)).inHand, ¬buffer.InBounds ∧
      buffer.samples.length = 8) ∧
    (∃ buffer ∈ (handedOver 300 0 (commitOf 1 300)).inHand, buffer.InBounds ∧
      buffer.samples.length = 300) ∧
    (handedOver 300 0 (commitOf 1 300)).blocks = [(1, 300, 251)] ∧
    ¬∀ maxNumSamples ops, (run step (new maxNumSamples) ops).InBounds := by
  have raised : ∃ buffer ∈ (handedOver 8 32 (commitOf 32 1)).inHand, ¬buffer.InBounds ∧
      buffer.samples.length = 8 := by
    decide +kernel
  refine ⟨raised, by decide +kernel, by decide +kernel, by decide +kernel, by decide +kernel,
    fun always => ?_⟩
  obtain ⟨buffer, held, beyond, -⟩ := raised
  obtain ⟨slot, current, rfl⟩ := Option.mem_map.mp held
  exact beyond ((always 8 _).sent.reader slot current)

end SinkBuffers

end AbletonLink.Audio
