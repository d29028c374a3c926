import AbletonLink.Audio.SlotQueue

/-! What the two halves of a slot queue do over a run: messages are settled in the order they were
sent, a slot taken before a discard is not delivered after it, and the calls of the reader do their
work whatever the writer does meanwhile. -/

universe u

namespace AbletonLink.Audio

open Library.Run

namespace QueueEvent

variable {T : Type u}

def releases (log : List (QueueEvent T)) : List (Filled T) :=
  log.filterMap fun event =>
    match event with
    | .released entry => some entry
    | _ => none

def settlements (log : List (QueueEvent T)) : List (Filled T) :=
  log.filterMap fun event =>
    match event with
    | .settled entry _ => some entry
    | _ => none

def takes (log : List (QueueEvent T)) : List (Slot T) :=
  log.filterMap fun event =>
    match event with
    | .taken slot => some slot
    | _ => none

def discards (log : List (QueueEvent T)) : Nat :=
  log.countP fun event =>
    match event with
    | .discarded => true
    | _ => false

variable {log events : List (QueueEvent T)}

@[simp] theorem releases_append : releases (log ++ events) = releases log ++ releases events :=
  List.filterMap_append

@[simp] theorem settlements_append :
    settlements (log ++ events) = settlements log ++ settlements events :=
  List.filterMap_append

@[simp] theorem takes_append : takes (log ++ events) = takes log ++ takes events :=
  List.filterMap_append

@[simp] theorem discards_append : discards (log ++ events) = discards log + discards events :=
  List.countP_append

def Stamped (log : List (QueueEvent T)) (id epoch : Nat) : Prop :=
  ∃ before slot after, log = before ++ .taken slot :: after ∧ slot.id = id ∧
    epoch ≤ discards before ∧ ∀ other, .taken other ∈ after → other.id ≠ id

def Fresh (log : List (QueueEvent T)) (id : Nat) : Prop :=
  ∃ before slot after, log = before ++ .taken slot :: after ∧ slot.id = id ∧ .discarded ∉ after ∧
    ∀ other, .taken other ∈ after → other.id ≠ id

theorem Stamped.append {id epoch : Nat} (h : Stamped log id epoch)
    (apart : ∀ other, .taken other ∈ events → other.id ≠ id) :
    Stamped (log ++ events) id epoch := by
  obtain ⟨before, slot, after, rfl, same, stamp, last⟩ := h
  refine ⟨before, slot, after ++ events, by simp, same, stamp, fun other mem => ?_⟩
  exact (List.mem_append.mp mem).elim (last other) (apart other)

theorem Stamped.fresh {id epoch : Nat} (h : Stamped log id epoch) (now : epoch = discards log) :
    Fresh log id := by
  obtain ⟨before, slot, after, rfl, same, stamp, last⟩ := h
  refine ⟨before, slot, after, rfl, same, fun mem => ?_, last⟩
  have later : 0 < discards after := List.countP_pos_iff.mpr ⟨_, mem, rfl⟩
  rw [discards_append] at now
  have : discards (.taken slot :: after) = discards after := List.countP_cons_of_neg nofun
  omega

theorem split_append {event : QueueEvent T} {earlier later : List (QueueEvent T)}
    (split : log ++ events = earlier ++ event :: later) :
    (∃ later', log = earlier ++ event :: later') ∨
      ∃ middle, earlier = log ++ middle ∧ events = middle ++ event :: later := by
  rcases List.append_eq_append_iff.mp split with ⟨middle, here, there⟩ | ⟨middle, here, there⟩
  · exact .inr ⟨middle, here, there⟩
  · cases middle with
    | nil => exact .inr ⟨[], by simpa using here.symm, by simpa using there.symm⟩
    | cons first rest =>
      obtain ⟨rfl, -⟩ := List.cons.inj there
      exact .inl ⟨rest, here⟩

end QueueEvent

open QueueEvent

namespace SlotQueue

variable {T : Type u} {s s' : SlotQueue T} {op : QueueOp T} {log events : List (QueueEvent T)}

/-- Messages keep their order from the writer's release to the reader's verdict, and their epochs
tell when their slots were taken. -/
structure Recorded (log : List (QueueEvent T)) (s : SlotQueue T) : Prop where
  fifo : releases log = settlements log ++ s.reader.place.entry.toList ++ s.filled
  epoch : s.epoch = discards log
  loading : ∀ epoch ∈ s.writer.loading, epoch ≤ s.epoch
  held : ∀ slot ∈ s.writer.current, Stamped log slot.id s.writer.currentEpoch
  queued : ∀ entry ∈ s.reader.place.entry.toList ++ s.filled, Stamped log entry.slot.id entry.epoch
  fresh : ∀ earlier entry later, log = earlier ++ .settled entry true :: later →
    Fresh earlier entry.slot.id

theorem recorded_new (numSlots : Nat) (value : T) : Recorded [] (new numSlots value) where
  fifo := rfl
  epoch := rfl
  loading := nofun
  held := nofun
  queued := nofun
  fresh earlier entry later split := by simp at split

theorem Conserved.apart (h : s.Conserved) {slot : Slot T} {free : List (Slot T)}
    (available : s.free = slot :: free) {entry : Filled T}
    (mem : entry ∈ s.reader.place.entry.toList ++ s.filled) : slot.id ≠ entry.slot.id := by
  intro same
  have once : s.ids.count slot.id ≤ 1 := by
    rw [h.ids.count_eq]
    exact List.nodup_iff_count_le_one.mp List.nodup_range _
  rw [count_ids, available, List.map_cons, List.count_cons_self] at once
  rcases List.mem_append.mp mem with held | queued
  · have inHand : 0 < (s.reader.place.slot.toList.map Slot.id).count slot.id := by
      rw [List.count_pos_iff, same]
      cases place : s.reader.place with
      | checking left other =>
        rw [place] at held
        obtain rfl : entry = other := by simpa [ReaderAt.entry] using held
        simp [ReaderAt.slot]
      | _ => simp [place, ReaderAt.entry] at held
    omega
  · have inChannel : 0 < (s.filled.map fun entry => entry.slot.id).count slot.id := by
      rw [List.count_pos_iff, same]
      exact List.mem_map.mpr ⟨entry, queued, rfl⟩
    omega

theorem Recorded.undelivered (h : s.Recorded log) (silent : ∀ entry, .settled entry true ∉ events)
    {earlier later : List (QueueEvent T)} {entry : Filled T}
    (split : log ++ events = earlier ++ .settled entry true :: later) :
    Fresh earlier entry.slot.id := by
  rcases split_append split with ⟨later', before⟩ | ⟨middle, -, now⟩
  · exact h.fresh earlier entry later' before
  · exact absurd (by simp [now]) (silent entry)

theorem Recorded.of_turn {place : ReaderAt T} (h : s.Recorded log) (here : s.reader.place = place)
    (turn : Turn s place events s') : s'.Recorded (log ++ events) := by
  have fifo := h.fifo
  have queued := h.queued
  have held (mute : ∀ slot, .taken slot ∉ events) (slot : Slot T) (mem : slot ∈ s.writer.current) :
      Stamped (log ++ events) slot.id s.writer.currentEpoch :=
    (h.held slot mem).append fun other taken => absurd taken (mute other)
  cases turn with
  | rest => simpa using h
  | miss current ended | finish current ended =>
    rw [List.append_nil]
    rw [here] at fifo queued
    exact { h with fifo, queued }
  | receive current available =>
    rw [List.append_nil]
    rw [here, available] at fifo queued
    exact { h with fifo := by simpa [at_, ReaderAt.entry] using fifo, queued }
  | @deliver left entry current live =>
    rw [here] at fifo queued
    have stamped := queued entry (by simp [ReaderAt.entry])
    refine ⟨?_, ?_, h.loading, held (by simp), ?_, ?_⟩
    · simpa [releases, settlements, ReaderAt.entry] using fifo
    · simpa [discards] using h.epoch
    · intro other mem
      exact (queued other (List.mem_append_right _ mem)).append (by simp)
    · intro earlier other later split
      rcases split_append split with ⟨later', before⟩ | ⟨middle, before, now⟩
      · exact h.fresh earlier other later' before
      · cases middle with
        | nil =>
          obtain ⟨same, -⟩ := List.cons.inj now
          cases same
          rw [before, List.append_nil]
          exact stamped.fresh (live.trans h.epoch)
        | cons first rest => simp at now
  | refuse current stale =>
    rw [here] at fifo queued
    refine ⟨?_, ?_, h.loading, held (by simp), ?_, fun _ _ _ => h.undelivered (by simp)⟩
    · simpa [releases, settlements, at_, ReaderAt.entry] using fifo
    · simpa [discards, at_] using h.epoch
    · intro other mem
      exact (queued other (List.mem_append_right _ mem)).append (by simp)
  | putBack current | recycle current | letGo =>
    rw [List.append_nil]
    rw [here] at fifo queued
    exact { h with fifo, queued }
  | drain current available =>
    rw [here, available] at fifo queued
    refine ⟨?_, ?_, h.loading, held (by simp), ?_, fun _ _ _ => h.undelivered (by simp)⟩
    · simpa [releases, settlements, at_, ReaderAt.entry] using fifo
    · simpa [discards, at_] using h.epoch
    · intro other mem
      exact (queued other (List.mem_cons_of_mem _ mem)).append (by simp)

theorem Recorded.of_change (h : s.Recorded log) (conserved : s.Conserved)
    (change : Change s op events s') : s'.Recorded (log ++ events) := by
  have fifo := h.fifo
  have queued := h.queued
  cases change with
  | same => simpa using h
  | load current =>
    rw [List.append_nil]
    refine { h with loading := ?_ }
    rintro _ ⟨⟩
    exact Nat.le_refl _
  | missed =>
    rw [List.append_nil]
    exact { h with loading := nofun }
  | @take epoch slot free loading current available =>
    refine ⟨?_, ?_, nofun, ?_, ?_, fun _ _ _ => h.undelivered (by simp)⟩
    · simpa [releases, settlements] using fifo
    · simpa [discards] using h.epoch
    · rintro _ ⟨⟩
      exact ⟨log, slot, [], rfl, rfl, h.epoch ▸ h.loading epoch loading, by simp⟩
    · intro entry mem
      refine (queued entry mem).append fun other mem' => ?_
      obtain rfl : other = slot := by simpa using mem'
      exact conserved.apart available mem
  | write f =>
    rw [List.append_nil]
    refine { h with held := fun slot mem => ?_ }
    obtain ⟨before, held, rfl⟩ := Option.mem_map.mp mem
    exact h.held before held
  | @release slot current =>
    refine ⟨?_, ?_, h.loading, nofun, fun entry mem => ?_, fun _ _ _ => h.undelivered (by simp)⟩
    · rw [releases_append, settlements_append, fifo]
      simp [releases, settlements]
    · simpa [discards] using h.epoch
    · refine Stamped.append ?_ (by simp)
      rw [← List.append_assoc] at mem
      rcases List.mem_append.mp mem with old | new
      · exact queued entry old
      · rw [List.mem_singleton.mp new]
        exact h.held slot current
  | retain place current =>
    rw [List.append_nil]
    rw [place] at fifo queued
    exact { h with fifo, queued }
  | readerWrite f | readerRelease place =>
    rw [List.append_nil]
    exact { h with }
  | discard place =>
    rw [place] at fifo queued
    refine ⟨?_, ?_, ?_, ?_, ?_, fun _ _ _ => h.undelivered (by simp)⟩
    · simpa [releases, settlements, at_, ReaderAt.entry] using fifo
    · simpa [discards, at_] using h.epoch
    · exact fun epoch loaded => (h.loading epoch loaded).trans (Nat.le_succ _)
    · exact fun slot mem => (h.held slot mem).append (by simp)
    · exact fun entry mem => (queued entry mem).append (by simp)
  | turn here turn => exact h.of_turn here turn

structure Undiscarded (log : List (QueueEvent T)) (s : SlotQueue T) : Prop where
  none : discards log = 0
  place : s.reader.place = .idle ∨ (∃ left, s.reader.place = .retaining left) ∨
    ∃ left entry, s.reader.place = .checking left entry
  delivered : ∀ entry, .settled entry false ∉ log

theorem Undiscarded.of_turn {place : ReaderAt T} (h : s.Undiscarded log)
    (recorded : s.Recorded log) (here : s.reader.place = place) (turn : Turn s place events s') :
    s'.Undiscarded (log ++ events) := by
  obtain ⟨none, place', delivered⟩ := h
  rw [here] at place'
  cases turn with
  | rest => simpa using Undiscarded.mk none (here ▸ place') delivered
  | miss current ended =>
    rw [List.append_nil]
    exact ⟨none, .inl rfl, delivered⟩
  | receive current available =>
    rw [List.append_nil]
    exact ⟨none, .inr (.inr ⟨_, _, rfl⟩), delivered⟩
  | deliver current live => exact ⟨by simpa [discards] using none, .inl rfl, by simp [delivered]⟩
  | @refuse left entry current stale =>
    obtain ⟨before, slot, after, split, -, stamp, -⟩ :=
      recorded.queued entry (by simp [here, ReaderAt.entry])
    have epoch := recorded.epoch
    rw [split, discards_append] at none
    rw [split, discards_append] at epoch
    omega
  | putBack | letGo | finish | drain | recycle => simp at place'

theorem Undiscarded.of_change (h : s.Undiscarded log) (recorded : s.Recorded log)
    (kept : op ≠ .readerDiscard) (change : Change s op events s') :
    s'.Undiscarded (log ++ events) := by
  cases change with
  | same | load | missed | write | readerWrite | readerRelease =>
    rw [List.append_nil]
    exact { h with }
  | take | release =>
    exact ⟨by simpa [discards] using h.none, h.place, by simp [h.delivered]⟩
  | retain place current =>
    rw [List.append_nil]
    exact ⟨h.none, .inr (.inl ⟨_, rfl⟩), h.delivered⟩
  | discard place => exact absurd rfl kept
  | turn here turn => exact h.of_turn recorded here turn

end SlotQueue

/-! The calls of the two halves. -/

def QueueOp.ofWriter {T : Type u} : QueueOp T → Bool
  | .writerRetain | .writerTake | .writerWrite _ | .writerRelease => true
  | _ => false

def QueueOp.isTurn {T : Type u} : QueueOp T → Bool
  | .readerStep => true
  | _ => false

def ReaderAt.remaining {T : Type u} (numSlots : Nat) : ReaderAt T → Nat
  | .idle => 0
  | .retaining left => 3 * left + 1
  | .checking left _ => 3 * left + 3
  | .returning left _ => 3 * left + 2
  | .discarding => 2 * numSlots + 2
  | .draining left => 2 * left + 1
  | .recycling left _ => 2 * left + 2

namespace SlotQueue

variable {T : Type u} {s s' s₀ : SlotQueue T} {op : QueueOp T} {ops : List (QueueOp T)}
  {log events : List (QueueEvent T)}

def During (ops : List (QueueOp T)) : Prop := ∀ op ∈ ops, op.ofWriter = true ∨ op = .readerStep

def turns (ops : List (QueueOp T)) : Nat := ops.countP QueueOp.isTurn

theorem Change.ofWriter (change : Change s op events s') (writer : op.ofWriter = true) :
    s'.reader = s.reader ∧ s'.epoch = s.epoch ∧ s'.filled = s.filled ++ releases events ∧
      s.free = takes events ++ s'.free := by
  cases change with
  | same | load | missed | write => exact ⟨rfl, rfl, (List.append_nil _).symm, rfl⟩
  | take loading current available => exact ⟨rfl, rfl, by simp [releases], available⟩
  | release current => exact ⟨rfl, rfl, rfl, rfl⟩
  | _ => cases writer

theorem Turn.remaining {place : ReaderAt T} (turn : Turn s place events s') :
    s'.reader.place.remaining s'.numSlots ≤ place.remaining s.numSlots - 1 ∨
      place = .idle ∧ s' = s := by
  cases turn with
  | rest => exact .inr ⟨rfl, rfl⟩
  | miss | finish | deliver => exact .inl (Nat.zero_le _)
  | receive | refuse | putBack | letGo | drain | recycle =>
    left
    simp only [at_, ReaderAt.remaining]
    omega

theorem Conserved.returns (h : s.Conserved) (during : During ops)
    (enough : s.reader.place.remaining s.numSlots ≤ turns ops) :
    (run SlotQueue.step s ops).reader.place = .idle := by
  induction ops generalizing s with
  | nil =>
    have none : s.reader.place.remaining s.numSlots = 0 := Nat.le_zero.mp enough
    cases place : s.reader.place <;> rw [place] at none
    · exact place
    all_goals cases none
  | cons op ops ih =>
    obtain ⟨first, rest⟩ := List.forall_mem_cons.mp during
    refine ih (h.step op) rest ?_
    rcases first with writer | rfl
    · have change := h.change op
      have counted : turns (op :: ops) = turns ops := by
        cases op <;> first | rfl | cases writer
      rw [(change.ofWriter writer).1, numSlots_of_change change, ← counted]
      exact enough
    · have counted : turns (.readerStep :: ops) = turns ops + 1 := List.countP_cons_of_pos rfl
      rcases h.turn.remaining with less | ⟨idle, same⟩
      · exact less.trans (by omega)
      · have stays : s.step .readerStep = s := same
        rw [stays, idle]
        exact Nat.zero_le _

/-- Since the channels were those of `s₀` and until they hold `filled` and `free`, the reader has
received the messages `gone` and put back the slots `back`. -/
structure Flow (s₀ : SlotQueue T) (log : List (QueueEvent T)) (gone : List (Filled T))
    (back : List (Slot T)) (filled : List (Filled T)) (free : List (Slot T)) : Prop where
  filled : s₀.filled ++ releases log = gone ++ filled
  free : s₀.free ++ back = takes log ++ free

section Flow

variable {filled gone : List (Filled T)} {free back : List (Slot T)}

theorem Flow.start (s₀ : SlotQueue T) : Flow s₀ [] [] [] s₀.filled s₀.free :=
  ⟨List.append_nil _, List.append_nil _⟩

theorem Flow.append (h : Flow s₀ log gone back filled (takes events ++ free)) :
    Flow s₀ (log ++ events) gone back (filled ++ releases events) free where
  filled := by
    rw [releases_append, ← List.append_assoc, h.filled, List.append_assoc]
  free := by
    rw [takes_append, h.free, List.append_assoc]

theorem Flow.receive {entry : Filled T} (h : Flow s₀ log gone back (entry :: filled) free) :
    Flow s₀ log (gone ++ [entry]) back filled free where
  filled := by
    rw [h.filled, List.append_assoc]
    rfl
  free := h.free

theorem Flow.putBack (h : Flow s₀ log gone back filled free) (slots : List (Slot T)) :
    Flow s₀ log gone (back ++ slots) filled (free ++ slots) where
  filled := h.filled
  free := by
    rw [← List.append_assoc, h.free, List.append_assoc]

theorem Flow.settle (h : Flow s₀ log gone back filled free) (entry : Filled T)
    (delivered : Bool) : Flow s₀ (log ++ [.settled entry delivered]) gone back filled free where
  filled := by
    rw [releases_append, ← List.append_assoc, h.filled]
    exact List.append_nil _
  free := by
    rw [takes_append, h.free]
    exact congrArg (· ++ free) (List.append_nil _).symm

theorem Flow.length_le (h : Flow s₀ log gone back filled free) (empty : filled = []) :
    s₀.filled.length ≤ gone.length := by
  have all := congrArg List.length h.filled
  rw [empty, List.append_nil, List.length_append] at all
  omega

end Flow

theorem Conserved.fits (h : s.Conserved) : s.filled.length ≤ s.numSlots := by
  have length := h.length
  omega

theorem Conserved.during {I : List (QueueEvent T) → SlotQueue T → Prop} (h : s.Conserved)
    (during : During ops) (start : I [] s)
    (writes : ∀ log s events s' op, I log s → Change s op events s' → op.ofWriter = true →
      I (log ++ events) s')
    (turns : ∀ log s events s', I log s → Turn s s.reader.place events s' →
      I (log ++ events) s') :
    I (logged SlotQueue.step SlotQueue.events s ops) (run SlotQueue.step s ops) := by
  have both : (run SlotQueue.step s ops).Conserved ∧
      I ([] ++ logged SlotQueue.step SlotQueue.events s ops) (run SlotQueue.step s ops) := by
    refine run_logged (I := fun log s => Conserved s ∧ I log s)
      (P := fun _ op => op.ofWriter = true ∨ op = .readerStep) ?_ ⟨h, start⟩
      (along_of_mem during s)
    rintro past s op ⟨conserved, inv⟩ allowed
    refine ⟨conserved.step op, ?_⟩
    rcases allowed with writer | rfl
    · exact writes _ _ _ _ _ inv (conserved.change op) writer
    · exact turns _ _ _ _ inv conserved.turn
  exact both.2

/-- What a `retain_slot` of the reader has done: the messages it found stale are gone and their
slots are back, and it holds the one after them, or else it has gone through all that were there. -/
def Retained (s₀ : SlotQueue T) (log : List (QueueEvent T)) (s : SlotQueue T) : Prop :=
  ∃ stale : List (Filled T), (∀ entry ∈ stale, entry.epoch ≠ s₀.epoch) ∧
    ((∃ entry, entry.epoch = s₀.epoch ∧ s.reader.current = some entry.slot ∧
        Flow s₀ log (stale ++ [entry]) (stale.map Filled.slot) s.filled s.free) ∨
      s.reader.current = none ∧ s₀.filled.length ≤ stale.length ∧
        Flow s₀ log stale (stale.map Filled.slot) s.filled s.free)

inductive Retaining (s₀ : SlotQueue T) (log : List (QueueEvent T)) (s : SlotQueue T) :
    ReaderAt T → Prop
  | looping {stale : List (Filled T)} {left : Nat}
      (count : stale.length + left = s₀.numSlots)
      (refused : ∀ entry ∈ stale, entry.epoch ≠ s₀.epoch)
      (flow : Flow s₀ log stale (stale.map Filled.slot) s.filled s.free) :
      Retaining s₀ log s (.retaining left)
  | checking {stale : List (Filled T)} {left : Nat} {entry : Filled T}
      (count : stale.length + left + 1 = s₀.numSlots)
      (refused : ∀ entry ∈ stale, entry.epoch ≠ s₀.epoch)
      (flow : Flow s₀ log (stale ++ [entry]) (stale.map Filled.slot) s.filled s.free) :
      Retaining s₀ log s (.checking left entry)
  | returning {stale : List (Filled T)} {left : Nat} {entry : Filled T}
      (count : stale.length + left + 1 = s₀.numSlots)
      (refused : ∀ other ∈ stale ++ [entry], other.epoch ≠ s₀.epoch)
      (flow : Flow s₀ log (stale ++ [entry]) (stale.map Filled.slot) s.filled s.free) :
      Retaining s₀ log s (.returning left entry.slot)
  | done (retained : Retained s₀ log s) : Retaining s₀ log s .idle

theorem Retaining.writes {place : ReaderAt T} (h : Retaining s₀ log s place)
    (change : Change s op events s') (writer : op.ofWriter = true) :
    Retaining s₀ (log ++ events) s' place := by
  obtain ⟨reader, -, sent, got⟩ := change.ofWriter writer
  cases h with
  | looping count refused flow =>
    rw [got] at flow
    exact .looping count refused (sent ▸ flow.append)
  | checking count refused flow =>
    rw [got] at flow
    exact .checking count refused (sent ▸ flow.append)
  | returning count refused flow =>
    rw [got] at flow
    exact .returning count refused (sent ▸ flow.append)
  | done retained =>
    obtain ⟨stale, refused, ⟨entry, live, held, flow⟩ | ⟨empty, all, flow⟩⟩ := retained
    · rw [got] at flow
      exact .done ⟨stale, refused, .inl ⟨entry, live, reader ▸ held, sent ▸ flow.append⟩⟩
    · rw [got] at flow
      exact .done ⟨stale, refused, .inr ⟨reader ▸ empty, all, sent ▸ flow.append⟩⟩

theorem Retaining.turn {place : ReaderAt T} (h : Retaining s₀ log s place)
    (fits : s₀.filled.length ≤ s₀.numSlots) (epoch : s.epoch = s₀.epoch)
    (here : s.reader.place = place) (turn : Turn s place events s') :
    Retaining s₀ (log ++ events) s' s'.reader.place := by
  cases h with
  | looping count refused flow =>
    cases turn with
    | miss current ended =>
      have all : s₀.filled.length ≤ _ := ended.elim (fun _ => by omega) flow.length_le
      rw [List.append_nil]
      exact .done ⟨_, refused, .inr ⟨current, all, flow⟩⟩
    | receive current available =>
      rw [available] at flow
      rw [List.append_nil]
      exact .checking (by omega) refused flow.receive
  | checking count refused flow =>
    cases turn with
    | deliver current live =>
      exact .done ⟨_, refused, .inl ⟨_, live.trans epoch, rfl, flow.settle _ true⟩⟩
    | refuse current dead =>
      refine .returning count (fun other mem => ?_) (flow.settle _ false)
      rcases List.mem_append.mp mem with old | new
      · exact refused other old
      · rw [List.mem_singleton.mp new, ← epoch]
        exact dead
  | @returning stale left entry count refused flow =>
    cases turn with
    | putBack current =>
      have back := flow.putBack [entry.slot]
      rw [← List.map_singleton, ← List.map_append] at back
      rw [List.append_nil]
      refine .looping ?_ refused back
      rw [List.length_append, List.length_singleton]
      omega
  | done retained =>
    cases turn with
    | rest =>
      rw [List.append_nil, here]
      exact .done retained

theorem Turn.epoch {place : ReaderAt T} (turn : Turn s place events s') : s'.epoch = s.epoch := by
  cases turn <;> rfl

theorem Conserved.retained (h : s.Conserved) (place : s.reader.place = .idle)
    (current : s.reader.current = none) (during : During ops)
    (enough : 3 * s.numSlots + 1 ≤ turns ops) :
    let s' := run SlotQueue.step (s.step .readerRetain) ops
    s'.reader.place = .idle ∧
      Retained s (logged SlotQueue.step SlotQueue.events (s.step .readerRetain) ops) s' := by
  intro s'
  have called : s.step .readerRetain = s.at_ (.retaining s.numSlots) := by
    simp only [SlotQueue.step, place, current]
  have conserved := h.step .readerRetain
  rw [called] at conserved
  have idle : s'.reader.place = .idle := by
    show (run SlotQueue.step (s.step .readerRetain) ops).reader.place = .idle
    rw [called]
    exact conserved.returns during enough
  refine ⟨idle, ?_⟩
  have all : Retaining s (logged SlotQueue.step SlotQueue.events (s.step .readerRetain) ops) s'
      s'.reader.place ∧ s'.epoch = s.epoch := by
    show Retaining s _ (run SlotQueue.step (s.step .readerRetain) ops)
      (run SlotQueue.step (s.step .readerRetain) ops).reader.place ∧
        (run SlotQueue.step (s.step .readerRetain) ops).epoch = s.epoch
    rw [called]
    refine conserved.during (I := fun log s' =>
      Retaining s log s' s'.reader.place ∧ s'.epoch = s.epoch) during ?_ ?_ ?_
    · exact ⟨.looping (Nat.zero_add _) (fun entry mem => absurd mem List.not_mem_nil) (.start s),
        rfl⟩
    · rintro log t events t' op ⟨inv, epoch⟩ change writer
      obtain ⟨reader, same, -⟩ := change.ofWriter writer
      rw [reader]
      exact ⟨inv.writes change writer, same.trans epoch⟩
    · rintro log t events t' ⟨inv, epoch⟩ turn
      exact ⟨inv.turn h.fits epoch rfl turn, turn.epoch.trans epoch⟩
  obtain ⟨retaining, -⟩ := all
  rw [idle] at retaining
  cases retaining with
  | done retained => exact retained

def Discarded (s₀ : SlotQueue T) (log : List (QueueEvent T)) (s : SlotQueue T) : Prop :=
  s.reader.current = none ∧ ∃ gone : List (Filled T), s₀.filled.length ≤ gone.length ∧
    Flow s₀ log gone (s₀.reader.current.toList ++ gone.map Filled.slot) s.filled s.free

inductive Discarding (s₀ : SlotQueue T) (log : List (QueueEvent T)) (s : SlotQueue T) :
    ReaderAt T → Prop
  | starting (current : s.reader.current = s₀.reader.current)
      (flow : Flow s₀ log [] [] s.filled s.free) : Discarding s₀ log s .discarding
  | draining {gone : List (Filled T)} {left : Nat} (count : gone.length + left = s₀.numSlots)
      (flow : Flow s₀ log gone (s₀.reader.current.toList ++ gone.map Filled.slot) s.filled
        s.free) : Discarding s₀ log s (.draining left)
  | recycling {gone : List (Filled T)} {left : Nat} {entry : Filled T}
      (count : gone.length + left + 1 = s₀.numSlots)
      (flow : Flow s₀ log (gone ++ [entry]) (s₀.reader.current.toList ++ gone.map Filled.slot)
        s.filled s.free) : Discarding s₀ log s (.recycling left entry.slot)
  | done (discarded : Discarded s₀ log s) : Discarding s₀ log s .idle

theorem Discarding.writes {place : ReaderAt T} (h : Discarding s₀ log s place)
    (change : Change s op events s') (writer : op.ofWriter = true) :
    Discarding s₀ (log ++ events) s' place := by
  obtain ⟨reader, -, sent, got⟩ := change.ofWriter writer
  cases h with
  | starting current flow =>
    rw [got] at flow
    exact .starting (reader ▸ current) (sent ▸ flow.append)
  | draining count flow =>
    rw [got] at flow
    exact .draining count (sent ▸ flow.append)
  | recycling count flow =>
    rw [got] at flow
    exact .recycling count (sent ▸ flow.append)
  | done discarded =>
    obtain ⟨empty, gone, all, flow⟩ := discarded
    rw [got] at flow
    exact .done ⟨reader ▸ empty, gone, all, sent ▸ flow.append⟩

theorem Discarding.turn {place : ReaderAt T} (h : Discarding s₀ log s place)
    (fits : s₀.filled.length ≤ s₀.numSlots) (size : s.numSlots = s₀.numSlots)
    (here : s.reader.place = place) (turn : Turn s place events s') :
    Discarding s₀ (log ++ events) s' s'.reader.place := by
  cases h with
  | starting current flow =>
    cases turn with
    | letGo =>
      have back := flow.putBack s₀.reader.current.toList
      rw [← current] at back
      rw [List.append_nil]
      refine @Discarding.draining _ _ _ _ [] s.numSlots ?_ ?_
      · rw [List.length_nil, Nat.zero_add, size]
      · simpa [current] using back
  | draining count flow =>
    cases turn with
    | finish current ended =>
      have all : s₀.filled.length ≤ _ := ended.elim (fun _ => by omega) flow.length_le
      rw [List.append_nil]
      exact .done ⟨current, _, all, flow⟩
    | drain current available =>
      rw [available] at flow
      exact .recycling (by omega) (flow.receive.settle _ false)
  | @recycling gone left entry count flow =>
    cases turn with
    | recycle current =>
      have back := flow.putBack [entry.slot]
      rw [List.append_assoc, ← List.map_singleton, ← List.map_append] at back
      rw [List.append_nil]
      refine .draining ?_ back
      rw [List.length_append, List.length_singleton]
      omega
  | done discarded =>
    cases turn with
    | rest =>
      rw [List.append_nil, here]
      exact .done discarded

theorem Conserved.discarded (h : s.Conserved) (place : s.reader.place = .idle)
    (during : During ops) (enough : 2 * s.numSlots + 2 ≤ turns ops) :
    let s' := run SlotQueue.step (s.step .readerDiscard) ops
    s'.reader.place = .idle ∧ s'.epoch = s.epoch + 1 ∧
      Discarded s (logged SlotQueue.step SlotQueue.events (s.step .readerDiscard) ops) s' := by
  intro s'
  have called : s.step .readerDiscard = { s with epoch := s.epoch + 1 }.at_ .discarding := by
    simp only [SlotQueue.step, place]
  have conserved := h.step .readerDiscard
  rw [called] at conserved
  have idle : s'.reader.place = .idle := by
    show (run SlotQueue.step (s.step .readerDiscard) ops).reader.place = .idle
    rw [called]
    exact conserved.returns during enough
  have all : Discarding s (logged SlotQueue.step SlotQueue.events (s.step .readerDiscard) ops) s'
      s'.reader.place ∧ s'.numSlots = s.numSlots ∧ s'.epoch = s.epoch + 1 := by
    show Discarding s _ (run SlotQueue.step (s.step .readerDiscard) ops)
      (run SlotQueue.step (s.step .readerDiscard) ops).reader.place ∧
        (run SlotQueue.step (s.step .readerDiscard) ops).numSlots = s.numSlots ∧
          (run SlotQueue.step (s.step .readerDiscard) ops).epoch = s.epoch + 1
    rw [called]
    refine conserved.during (I := fun log s' => Discarding s log s' s'.reader.place ∧
      s'.numSlots = s.numSlots ∧ s'.epoch = s.epoch + 1) during ?_ ?_ ?_
    · exact ⟨.starting rfl (.start s), rfl, rfl⟩
    · rintro log t events t' op ⟨inv, size, epoch⟩ change writer
      obtain ⟨reader, same, -⟩ := change.ofWriter writer
      rw [reader]
      exact ⟨inv.writes change writer, (numSlots_of_change change).trans size, same.trans epoch⟩
    · rintro log t events t' ⟨inv, size, epoch⟩ turn
      exact ⟨inv.turn h.fits size rfl turn, (numSlots_of_change (.turn rfl turn)).trans size,
        turn.epoch.trans epoch⟩
  obtain ⟨discarding, -, epoch⟩ := all
  rw [idle] at discarding
  cases discarding with
  | done discarded => exact ⟨idle, epoch, discarded⟩

/-- What the writer's calls do, in the two steps of a `retain_slot` and the one of a
`release_slot`. -/
structure Writes (s : SlotQueue T) : Prop where
  load : s.writer.loading = none → s.writer.current = none →
    (s.step .writerRetain).writer.loading = some s.epoch
  take : ∀ epoch, s.writer.loading = some epoch →
    (s.step .writerTake).writer.loading = none ∧
      (s.step .writerTake).writer.current = s.free.head? ∧
      (s.step .writerTake).free = s.free.tail ∧
      (s.free ≠ [] → (s.step .writerTake).writer.currentEpoch = epoch)
  release : ∀ slot, s.writer.loading = none → s.writer.current = some slot →
    (s.step .writerRelease).writer.current = none ∧
      (s.step .writerRelease).filled = s.filled ++ [⟨s.writer.currentEpoch, slot⟩]

theorem Conserved.writes (h : s.Conserved) : s.Writes where
  load loading current := by simp only [SlotQueue.step, loading, current]
  take epoch loading := by
    have empty := h.writer.resolve_left (by simp [loading])
    cases free : s.free with
    | nil => simp [SlotQueue.step, loading, free, empty]
    | cons slot rest => simp [SlotQueue.step, loading, free]
  release slot loading current := by
    have room := (h.room (show slot ∈ s.hands by simp [hands, current])).2
    simp [SlotQueue.step, loading, current, sendFilled, room]

/-- What the reader's calls do, whatever the writer does meanwhile, and that they return after
enough turns of its thread. -/
structure Reads (s : SlotQueue T) : Prop where
  release : s.reader.place = .idle →
    (s.step .readerRelease).reader.current = none ∧
      (s.step .readerRelease).free = s.free ++ s.reader.current.toList
  retain : s.reader.place = .idle → s.reader.current = none → ∀ ops, During ops →
    3 * s.numSlots + 1 ≤ turns ops →
      let s' := run SlotQueue.step (s.step .readerRetain) ops
      s'.reader.place = .idle ∧
        Retained s (logged SlotQueue.step SlotQueue.events (s.step .readerRetain) ops) s'
  discard : s.reader.place = .idle → ∀ ops, During ops → 2 * s.numSlots + 2 ≤ turns ops →
    let s' := run SlotQueue.step (s.step .readerDiscard) ops
    s'.reader.place = .idle ∧ s'.epoch = s.epoch + 1 ∧
      Discarded s (logged SlotQueue.step SlotQueue.events (s.step .readerDiscard) ops) s'

theorem Conserved.reads (h : s.Conserved) : s.Reads where
  release place := by
    have released : s.step .readerRelease = s.readerRelease := by
      simp only [SlotQueue.step, place]
    rw [released, h.readerRelease_eq]
    exact ⟨rfl, rfl⟩
  retain place current _ := h.retained place current
  discard place _ := h.discarded place

/-- Slot queue safety over every interleaving of the two halves. -/
theorem slotQueue_safe (numSlots : Nat) (value : T) (ops : List (QueueOp T)) :
    let s := run step (new numSlots value) ops
    let log := logged step SlotQueue.events (new numSlots value) ops
    s.ids.Perm (List.range (max numSlots 1)) ∧
      releases log = settlements log ++ s.reader.place.entry.toList ++ s.filled ∧
      ((∀ op ∈ ops, op ≠ .readerDiscard) → ∀ entry, .settled entry false ∉ log) ∧
      (∀ earlier entry later, log = earlier ++ .settled entry true :: later →
        Fresh earlier entry.slot.id) ∧
      s.Writes ∧ s.Reads := by
  intro s log
  have invariant : s.Conserved ∧ s.Recorded log ∧ s.numSlots = max numSlots 1 := by
    refine run_logged (I := fun log (s : SlotQueue T) =>
      s.Conserved ∧ s.Recorded log ∧ s.numSlots = max numSlots 1) (P := fun _ _ => True) ?_
      ⟨conserved_new numSlots value, recorded_new numSlots value, rfl⟩
      (along_of_forall (fun _ _ => trivial) _ _)
    rintro past s op ⟨conserved, recorded, size⟩ -
    have change := conserved.change op
    exact ⟨conserved.of_change change, recorded.of_change conserved change,
      (numSlots_of_change change).trans size⟩
  obtain ⟨conserved, recorded, size⟩ := invariant
  refine ⟨size ▸ conserved.ids, recorded.fifo, fun kept => ?_, recorded.fresh, conserved.writes,
    conserved.reads⟩
  have undiscarded : s.Conserved ∧ s.Recorded log ∧ s.Undiscarded log := by
    refine run_logged (I := fun log (s : SlotQueue T) =>
      s.Conserved ∧ s.Recorded log ∧ s.Undiscarded log) ?_
      ⟨conserved_new numSlots value, recorded_new numSlots value, rfl, .inl rfl, by simp⟩
      (along_of_mem kept _)
    rintro past s op ⟨conserved, recorded, undiscarded⟩ kept
    have change := conserved.change op
    exact ⟨conserved.of_change change, recorded.of_change conserved change,
      undiscarded.of_change recorded kept change⟩
  exact undiscarded.2.2.delivered

theorem slotQueue_safe_handed :
    let ops := [.writerRetain, .writerTake, .writerWrite fun _ => 42, .writerRelease]
    let s := run step (new 2 0) ops
    let call := [.writerRetain, .writerTake] ++ List.replicate 7 .readerStep
    let s' := run step (s.step .readerRetain) call
    s'.reader.current.map Slot.value = some 42 ∧ s'.writer.current.map Slot.value = some 0 ∧
      Retained s (logged step SlotQueue.events (s.step .readerRetain) call) s' := by
  intro ops s call s'
  have during : During call := by simp [During, call, QueueOp.ofWriter]
  have reads : s.Reads := (slotQueue_safe 2 0 ops).2.2.2.2.2
  exact ⟨by decide, by decide, (reads.retain rfl rfl call during (by decide)).2⟩

end SlotQueue

end AbletonLink.Audio
