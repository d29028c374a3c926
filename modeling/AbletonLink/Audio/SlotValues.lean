import AbletonLink.Audio.SlotQueueLaws

/-! What holds of the values in the slots of a queue, and of those handed to the reader. -/

universe u

namespace AbletonLink.Audio

namespace SlotQueue

variable {T : Type u} {s s' : SlotQueue T} {op : QueueOp T} {events : List (QueueEvent T)}
  {good : T → Prop}

structure Every (good : T → Prop) (s : SlotQueue T) : Prop where
  free : ∀ slot ∈ s.free, good slot.value
  filled : ∀ entry ∈ s.filled, good entry.slot.value
  writer : ∀ slot ∈ s.writer.current, good slot.value
  reader : ∀ slot ∈ s.reader.current, good slot.value
  place : ∀ slot ∈ s.reader.place.slot, good slot.value

theorem Every.mono {good' : T → Prop} (h : s.Every good)
    (weaker : ∀ value, good value → good' value) :
    s.Every good' where
  free slot mem := weaker _ (h.free slot mem)
  filled entry mem := weaker _ (h.filled entry mem)
  writer slot mem := weaker _ (h.writer slot mem)
  reader slot mem := weaker _ (h.reader slot mem)
  place slot mem := weaker _ (h.place slot mem)

theorem Every.of_turn {place : ReaderAt T} (h : s.Every good) (here : s.reader.place = place)
    (turn : Turn s place events s') : s'.Every good := by
  have held := h.place
  rw [here] at held
  have back {slots : List (Slot T)} (put : ∀ slot ∈ slots, good slot.value) :
      ∀ slot ∈ s.free ++ slots, good slot.value :=
    List.forall_mem_append.mpr ⟨h.free, put⟩
  cases turn with
  | rest => exact h
  | miss | finish => exact { h with place := nofun }
  | receive current available | drain current available =>
    have filled := h.filled
    rw [available] at filled
    obtain ⟨first, rest⟩ := List.forall_mem_cons.mp filled
    exact { h with filled := rest, place := by rintro _ ⟨⟩; exact first }
  | deliver current live =>
    exact { h with reader := held, place := nofun }
  | refuse => exact { h with place := held }
  | putBack | recycle =>
    refine { h with free := back ?_, place := nofun }
    intro slot mem
    rw [List.mem_singleton.mp mem]
    exact held _ rfl
  | letGo =>
    have reader := h.reader
    refine { h with free := back fun slot mem => ?_, reader := nofun, place := nofun }
    exact reader slot (Option.mem_toList.mp mem)

theorem Every.of_change (h : s.Every good) (change : Change s op events s')
    (writes : ∀ f, op = .writerWrite f ∨ op = .readerWrite f → ∀ value, good value →
      good (f value)) : s'.Every good := by
  cases change with
  | same => exact h
  | load | missed => exact { h with }
  | take loading current available =>
    have free := h.free
    rw [available] at free
    obtain ⟨first, rest⟩ := List.forall_mem_cons.mp free
    exact { h with free := rest, writer := by rintro _ ⟨⟩; exact first }
  | write f =>
    refine { h with writer := fun slot mem => ?_ }
    obtain ⟨before, held, rfl⟩ := Option.mem_map.mp mem
    exact writes f (.inl rfl) _ (h.writer before held)
  | release current =>
    refine { h with writer := nofun, filled := List.forall_mem_append.mpr ⟨h.filled, ?_⟩ }
    intro entry mem
    rw [List.mem_singleton.mp mem]
    exact h.writer _ current
  | retain place current | discard place => exact { h with place := nofun }
  | readerWrite f =>
    refine { h with reader := fun slot mem => ?_ }
    obtain ⟨before, held, rfl⟩ := Option.mem_map.mp mem
    exact writes f (.inr rfl) _ (h.reader before held)
  | readerRelease place =>
    refine { h with reader := nofun, free := List.forall_mem_append.mpr ⟨h.free, ?_⟩ }
    intro slot mem
    exact h.reader slot (Option.mem_toList.mp mem)
  | turn here turn => exact h.of_turn here turn

theorem Change.ofReader (change : Change s op events s') (reader : op.ofWriter = false) :
    s'.writer = s.writer := by
  cases change with
  | same | retain | readerWrite | readerRelease | discard => rfl
  | turn here turn => cases turn <;> rfl
  | _ => cases reader

/-- Something holds of the values handed to the reader. -/
structure Sent (good : T → Prop) (s : SlotQueue T) : Prop where
  filled : ∀ entry ∈ s.filled, good entry.slot.value
  checking : ∀ entry ∈ s.reader.place.entry, good entry.slot.value
  reader : ∀ slot ∈ s.reader.current, good slot.value

theorem Sent.of_turn {place : ReaderAt T} (h : s.Sent good) (here : s.reader.place = place)
    (turn : Turn s place events s') : s'.Sent good := by
  have held := h.checking
  rw [here] at held
  cases turn with
  | rest => exact h
  | miss | finish | refuse | putBack | recycle => exact { h with checking := nofun }
  | receive current available =>
    have filled := h.filled
    rw [available] at filled
    obtain ⟨first, rest⟩ := List.forall_mem_cons.mp filled
    exact { h with filled := rest, checking := by rintro _ ⟨⟩; exact first }
  | deliver => exact { h with reader := by rintro _ ⟨⟩; exact held _ rfl, checking := nofun }
  | drain current available =>
    have filled := h.filled
    rw [available] at filled
    exact { h with filled := (List.forall_mem_cons.mp filled).2, checking := nofun }
  | letGo => exact { h with reader := nofun, checking := nofun }

theorem Sent.of_change (h : s.Sent good) (change : Change s op events s')
    (kept : op ≠ .writerRelease)
    (writes : ∀ f, op = .readerWrite f → ∀ value, good value → good (f value)) :
    s'.Sent good := by
  cases change with
  | same => exact h
  | load | missed | take | write => exact { h with }
  | release => exact absurd rfl kept
  | retain | discard => exact { h with checking := nofun }
  | readerWrite f =>
    refine { h with reader := fun slot mem => ?_ }
    obtain ⟨before, held, rfl⟩ := Option.mem_map.mp mem
    exact writes f rfl _ (h.reader before held)
  | readerRelease => exact { h with reader := nofun }
  | turn here turn => exact h.of_turn here turn

theorem sent_handOver (h : s.Conserved) (f : T → T) :
    ((s.step (.writerWrite f)).step .writerRelease).Sent good ↔
      s.Sent good ∧ ∀ slot ∈ s.writer.current, good (f slot.value) := by
  cases current : s.writer.current with
  | none =>
    have same : (s.step (.writerWrite f)).step .writerRelease = s.step (.writerWrite f) := by
      cases loading : s.writer.loading <;> simp [step, current, loading]
    rw [same]
    exact ⟨fun h => ⟨{ h with }, by rintro _ ⟨⟩⟩, fun h => { h.1 with }⟩
  | some slot =>
    have loading : s.writer.loading = none := h.writer.resolve_right (by simp [current])
    have room := (h.room (show slot ∈ s.hands by simp [hands, current])).2
    have handed : (s.step (.writerWrite f)).step .writerRelease =
        { s with
          writer := { s.writer with current := none }
          filled := s.filled ++
            [⟨s.writer.currentEpoch, { slot with value := f slot.value }⟩] } := by
      simp [step, current, loading, sendFilled, room]
    rw [handed]
    constructor
    · intro sent
      obtain ⟨filled, new⟩ := List.forall_mem_append.mp sent.filled
      refine ⟨{ sent with filled }, ?_⟩
      rintro _ ⟨⟩
      exact new _ (List.mem_singleton.mpr rfl)
    · rintro ⟨sent, new⟩
      refine { sent with filled := List.forall_mem_append.mpr ⟨sent.filled, ?_⟩ }
      intro entry mem
      rw [List.mem_singleton.mp mem]
      exact new slot rfl

end SlotQueue

end AbletonLink.Audio
