import AbletonLink.Library.Run

/-! The queue of pre-allocated audio slots.  Every access to the shared counter and every channel
operation is one step, so the two halves interleave inside their operations too.

A slot carries a number that names it for good. -/

universe u

namespace AbletonLink.Audio

open Library.Run

structure Slot (T : Type u) where
  id : Nat
  value : T

structure Filled (T : Type u) where
  epoch : Nat
  slot : Slot T

structure Writer (T : Type u) where
  current : Option (Slot T)
  currentEpoch : Nat
  loading : Option Nat

/-- Where the reader's thread stands; `left` counts the rounds of its loop. -/
inductive ReaderAt (T : Type u)
  | idle
  | retaining (left : Nat)
  | checking (left : Nat) (entry : Filled T)
  | returning (left : Nat) (slot : Slot T)
  | discarding
  | draining (left : Nat)
  | recycling (left : Nat) (slot : Slot T)

structure Reader (T : Type u) where
  current : Option (Slot T)
  place : ReaderAt T

structure SlotQueue (T : Type u) where
  numSlots : Nat
  free : List (Slot T)
  filled : List (Filled T)
  epoch : Nat
  writer : Writer T
  reader : Reader T

inductive QueueOp (T : Type u)
  | writerRetain
  | writerTake
  | writerWrite (f : T → T)
  | writerRelease
  | readerRetain
  | readerWrite (f : T → T)
  | readerRelease
  | readerDiscard
  | readerStep

namespace SlotQueue

variable {T : Type u}

def new (numSlots : Nat) (value : T) : SlotQueue T :=
  let numSlots := max numSlots 1
  { numSlots
    free := (List.range numSlots).map fun id => ⟨id, value⟩
    filled := []
    epoch := 0
    writer := { current := none, currentEpoch := 0, loading := none }
    reader := { current := none, place := .idle } }

def sendFree (s : SlotQueue T) (slot : Slot T) : SlotQueue T :=
  if s.free.length < s.numSlots then { s with free := s.free ++ [slot] }
  else s

def sendFilled (s : SlotQueue T) (entry : Filled T) : SlotQueue T :=
  if s.filled.length < s.numSlots then { s with filled := s.filled ++ [entry] } else s

def at_ (s : SlotQueue T) (place : ReaderAt T) : SlotQueue T :=
  { s with reader := { s.reader with place } }

def readerRelease (s : SlotQueue T) : SlotQueue T :=
  match s.reader.current with
  | none => s
  | some slot => { s with reader := { s.reader with current := none } }.sendFree slot

def readerStep (s : SlotQueue T) : SlotQueue T :=
  match s.reader.place with
  | .idle => s
  | .retaining 0 => s.at_ .idle
  | .retaining (left + 1) =>
    match s.filled with
    | [] => s.at_ .idle
    | entry :: filled => { s with filled }.at_ (.checking left entry)
  | .checking left entry =>
    if entry.epoch = s.epoch then
      { s with reader := { current := some entry.slot, place := .idle } }
    else s.at_ (.returning left entry.slot)
  | .returning left slot => (s.sendFree slot).at_ (.retaining left)
  | .discarding => s.readerRelease.at_ (.draining s.numSlots)
  | .draining 0 => s.at_ .idle
  | .draining (left + 1) =>
    match s.filled with
    | [] => s.at_ .idle
    | entry :: filled => { s with filled }.at_ (.recycling left entry.slot)
  | .recycling left slot => (s.sendFree slot).at_ (.draining left)

def step (s : SlotQueue T) : QueueOp T → SlotQueue T
  | .writerRetain =>
    match s.writer.loading, s.writer.current with
    | none, none => { s with writer := { s.writer with loading := some s.epoch } }
    | _, _ => s
  | .writerTake =>
    match s.writer.loading with
    | none => s
    | some epoch =>
      match s.free with
      | [] => { s with writer := { s.writer with loading := none } }
      | slot :: free =>
        { s with
          free
          writer := { current := some slot, currentEpoch := epoch, loading := none } }
  | .writerWrite f =>
    { s with writer := { s.writer with
        current := s.writer.current.map fun slot => { slot with value := f slot.value } } }
  | .writerRelease =>
    match s.writer.loading, s.writer.current with
    | none, some slot =>
      { s with writer := { s.writer with current := none } }.sendFilled
        ⟨s.writer.currentEpoch, slot⟩
    | _, _ => s
  | .readerRetain =>
    match s.reader.place, s.reader.current with
    | .idle, none => s.at_ (.retaining s.numSlots)
    | _, _ => s
  | .readerWrite f =>
    { s with reader := { s.reader with
        current := s.reader.current.map fun slot => { slot with value := f slot.value } } }
  | .readerRelease =>
    match s.reader.place with
    | .idle => s.readerRelease
    | _ => s
  | .readerDiscard =>
    match s.reader.place with
    | .idle => { s with epoch := s.epoch + 1 }.at_ .discarding
    | _ => s
  | .readerStep => s.readerStep

end SlotQueue

/-- What the two halves do with a message: the writer takes its slot from the free channel and sends
it, and the reader takes it from the filled channel to hold it or to put its slot back. -/
inductive QueueEvent (T : Type u)
  | taken (slot : Slot T)
  | released (entry : Filled T)
  | settled (entry : Filled T) (delivered : Bool)
  | discarded

namespace SlotQueue

variable {T : Type u}

def events (s : SlotQueue T) : QueueOp T → List (QueueEvent T)
  | .writerTake =>
    if s.writer.loading.isSome then (s.step .writerTake).writer.current.toList.map .taken else []
  | .writerRelease =>
    if s.writer.loading.isNone then
      s.writer.current.toList.map fun slot => .released ⟨s.writer.currentEpoch, slot⟩
    else []
  | .readerStep =>
    match s.reader.place with
    | .checking _ entry => [.settled entry (s.step .readerStep).reader.current.isSome]
    | .draining (_ + 1) => s.filled.head?.toList.map fun entry => .settled entry false
    | _ => []
  | .readerDiscard =>
    match s.reader.place with
    | .idle => [.discarded]
    | _ => []
  | _ => []

end SlotQueue

def ReaderAt.slot {T : Type u} : ReaderAt T → Option (Slot T)
  | .checking _ entry => some entry.slot
  | .returning _ slot => some slot
  | .recycling _ slot => some slot
  | _ => none

def ReaderAt.entry {T : Type u} : ReaderAt T → Option (Filled T)
  | .checking _ entry => some entry
  | _ => none

namespace SlotQueue

variable {T : Type u}

def hands (s : SlotQueue T) : List (Slot T) :=
  s.writer.current.toList ++ s.reader.current.toList ++ s.reader.place.slot.toList

def ids (s : SlotQueue T) : List Nat :=
  s.free.map Slot.id ++ (s.filled.map fun entry => entry.slot.id) ++ s.hands.map Slot.id

theorem count_ids (s : SlotQueue T) (id : Nat) :
    s.ids.count id = (s.free.map Slot.id).count id +
      (s.filled.map fun entry => entry.slot.id).count id +
      (s.writer.current.toList.map Slot.id).count id +
      (s.reader.current.toList.map Slot.id).count id +
      (s.reader.place.slot.toList.map Slot.id).count id := by
  simp only [ids, hands, List.map_append, List.count_append, Nat.add_assoc]

/-- The slots are the original ones, each in one place.  A half that is about to take a slot has its
hand free. -/
structure Conserved (s : SlotQueue T) : Prop where
  ids : s.ids.Perm (List.range s.numSlots)
  writer : s.writer.loading = none ∨ s.writer.current = none
  reader : s.reader.current = none ∨ s.reader.place = .idle ∨ s.reader.place = .discarding

theorem Conserved.length {s : SlotQueue T} (h : s.Conserved) :
    s.free.length + s.filled.length + s.hands.length = s.numSlots := by
  have length := h.ids.length_eq
  simpa [SlotQueue.ids, Nat.add_assoc] using length

theorem Conserved.room {s : SlotQueue T} (h : s.Conserved) {slot : Slot T}
    (held : slot ∈ s.hands) : s.free.length < s.numSlots ∧ s.filled.length < s.numSlots := by
  have length := h.length
  have := List.length_pos_of_mem held
  omega

theorem sendFree_eq {s : SlotQueue T} (room : s.free.length < s.numSlots) (slot : Slot T) :
    s.sendFree slot = { s with free := s.free ++ [slot] } := if_pos room

theorem sendFilled_eq {s : SlotQueue T} (room : s.filled.length < s.numSlots) (entry : Filled T) :
    s.sendFilled entry = { s with filled := s.filled ++ [entry] } := if_pos room

theorem Conserved.readerRelease_eq {s : SlotQueue T} (h : s.Conserved) :
    s.readerRelease = { s with
      free := s.free ++ s.reader.current.toList
      reader := { s.reader with current := none } } := by
  unfold SlotQueue.readerRelease
  cases held : s.reader.current with
  | none =>
    have same : s.reader = { s.reader with current := none } := by
      rw [← held]
    simp only [Option.toList_none, List.append_nil]
    rw [← same]
  | some slot =>
    have room := (h.room (show slot ∈ s.hands by simp [hands, held])).1
    exact sendFree_eq (s := { s with reader := { s.reader with current := none } }) room slot

/-- What a turn of the reader's thread can do at a place, while the slots are conserved: no message
finds its channel full. -/
inductive Turn (s : SlotQueue T) : ReaderAt T → List (QueueEvent T) → SlotQueue T → Prop
  | rest : Turn s .idle [] s
  | miss {left : Nat} (current : s.reader.current = none) (ended : left = 0 ∨ s.filled = []) :
      Turn s (.retaining left) [] (s.at_ .idle)
  | receive {left : Nat} {entry : Filled T} {filled : List (Filled T)}
      (current : s.reader.current = none) (available : s.filled = entry :: filled) :
      Turn s (.retaining (left + 1)) [] ({ s with filled }.at_ (.checking left entry))
  | deliver {left : Nat} {entry : Filled T} (current : s.reader.current = none)
      (live : entry.epoch = s.epoch) :
      Turn s (.checking left entry) [.settled entry true]
        { s with reader := { current := some entry.slot, place := .idle } }
  | refuse {left : Nat} {entry : Filled T} (current : s.reader.current = none)
      (stale : entry.epoch ≠ s.epoch) :
      Turn s (.checking left entry) [.settled entry false] (s.at_ (.returning left entry.slot))
  | putBack {left : Nat} {slot : Slot T} (current : s.reader.current = none) :
      Turn s (.returning left slot) [] ({ s with free := s.free ++ [slot] }.at_ (.retaining left))
  | letGo :
      Turn s .discarding []
        { s with
          free := s.free ++ s.reader.current.toList
          reader := { current := none, place := .draining s.numSlots } }
  | finish {left : Nat} (current : s.reader.current = none) (ended : left = 0 ∨ s.filled = []) :
      Turn s (.draining left) [] (s.at_ .idle)
  | drain {left : Nat} {entry : Filled T} {filled : List (Filled T)}
      (current : s.reader.current = none) (available : s.filled = entry :: filled) :
      Turn s (.draining (left + 1)) [.settled entry false]
        ({ s with filled }.at_ (.recycling left entry.slot))
  | recycle {left : Nat} {slot : Slot T} (current : s.reader.current = none) :
      Turn s (.recycling left slot) [] ({ s with free := s.free ++ [slot] }.at_ (.draining left))

inductive Change (s : SlotQueue T) : QueueOp T → List (QueueEvent T) → SlotQueue T → Prop
  | same {op : QueueOp T} (turn : op ≠ .readerStep) : Change s op [] s
  | load (current : s.writer.current = none) :
      Change s .writerRetain [] { s with writer := { s.writer with loading := some s.epoch } }
  | missed : Change s .writerTake [] { s with writer := { s.writer with loading := none } }
  | take {epoch : Nat} {slot : Slot T} {free : List (Slot T)}
      (loading : s.writer.loading = some epoch) (current : s.writer.current = none)
      (available : s.free = slot :: free) :
      Change s .writerTake [.taken slot]
        { s with
          free
          writer := { current := some slot, currentEpoch := epoch, loading := none } }
  | write (f : T → T) :
      Change s (.writerWrite f) []
        { s with writer := { s.writer with
            current := s.writer.current.map fun slot => { slot with value := f slot.value } } }
  | release {slot : Slot T} (current : s.writer.current = some slot) :
      Change s .writerRelease [.released ⟨s.writer.currentEpoch, slot⟩]
        { s with
          writer := { s.writer with current := none }
          filled := s.filled ++ [⟨s.writer.currentEpoch, slot⟩] }
  | retain (place : s.reader.place = .idle) (current : s.reader.current = none) :
      Change s .readerRetain [] (s.at_ (.retaining s.numSlots))
  | readerWrite (f : T → T) :
      Change s (.readerWrite f) []
        { s with reader := { s.reader with
            current := s.reader.current.map fun slot => { slot with value := f slot.value } } }
  | readerRelease (place : s.reader.place = .idle) :
      Change s .readerRelease []
        { s with
          free := s.free ++ s.reader.current.toList
          reader := { s.reader with current := none } }
  | discard (place : s.reader.place = .idle) :
      Change s .readerDiscard [.discarded] ({ s with epoch := s.epoch + 1 }.at_ .discarding)
  | turn {place : ReaderAt T} {events : List (QueueEvent T)} {s' : SlotQueue T}
      (here : s.reader.place = place) (turn : Turn s place events s') :
      Change s .readerStep events s'

theorem Conserved.turn {s : SlotQueue T} (h : s.Conserved) :
    Turn s s.reader.place (s.events .readerStep) s.readerStep := by
  have room {slot : Slot T} (held : s.reader.place.slot = some slot) :
      s.free.length < s.numSlots := (h.room (show slot ∈ s.hands by simp [hands, held])).1
  have empty (retaining : s.reader.place ≠ .idle) (discarding : s.reader.place ≠ .discarding) :
      s.reader.current = none :=
    h.reader.resolve_right (fun either => either.elim retaining discarding)
  cases place : s.reader.place with
  | idle =>
    simp only [events, readerStep, place]
    exact .rest
  | retaining left =>
    have empty := empty (by simp [place]) (by simp [place])
    cases left with
    | zero =>
      simp only [events, readerStep, place]
      exact .miss empty (.inl rfl)
    | succ left =>
      cases filled : s.filled with
      | nil =>
        simp only [events, readerStep, place, filled]
        exact .miss empty (.inr filled)
      | cons entry rest =>
        simp only [events, readerStep, place, filled]
        exact .receive empty filled
  | checking left entry =>
    have empty := empty (by simp [place]) (by simp [place])
    simp only [events, step, readerStep, place]
    split
    next live => exact .deliver empty live
    next stale =>
      have held : (s.at_ (.returning left entry.slot)).reader.current.isSome = false := by
        simp [at_, empty]
      rw [held]
      exact .refuse empty stale
  | returning left slot =>
    simp only [events, readerStep, place]
    rw [sendFree_eq (room (by rw [place]; rfl))]
    exact .putBack (empty (by simp [place]) (by simp [place]))
  | discarding =>
    simp only [events, readerStep, place]
    rw [h.readerRelease_eq]
    exact .letGo
  | draining left =>
    have empty := empty (by simp [place]) (by simp [place])
    cases left with
    | zero =>
      simp only [events, readerStep, place]
      exact .finish empty (.inl rfl)
    | succ left =>
      cases filled : s.filled with
      | nil =>
        simp only [events, readerStep, place, filled]
        exact .finish empty (.inr filled)
      | cons entry rest =>
        simp only [events, readerStep, place, filled]
        exact .drain empty filled
  | recycling left slot =>
    simp only [events, readerStep, place]
    rw [sendFree_eq (room (by rw [place]; rfl))]
    exact .recycle (empty (by simp [place]) (by simp [place]))

theorem Conserved.change {s : SlotQueue T} (h : s.Conserved) (op : QueueOp T) :
    Change s op (s.events op) (s.step op) := by
  cases op with
  | writerRetain =>
    cases loading : s.writer.loading with
    | some epoch =>
      simp only [events, step, loading]
      exact .same nofun
    | none =>
      cases current : s.writer.current with
      | some slot =>
        simp only [events, step, loading, current]
        exact .same nofun
      | none =>
        simp only [events, step, loading, current]
        rw [← current]
        exact .load current
  | writerTake =>
    cases loading : s.writer.loading with
    | none =>
      simp only [events, step, loading]
      exact .same nofun
    | some epoch =>
      have current := h.writer.resolve_left (by simp [loading])
      cases free : s.free with
      | nil =>
        have silent : s.events .writerTake = [] := by simp [events, step, loading, free, current]
        rw [silent]
        simp only [step, loading, free]
        rw [← free]
        exact .missed
      | cons slot rest =>
        have taken : s.events .writerTake = [.taken slot] := by
          simp [events, step, loading, free]
        rw [taken]
        simp only [step, loading, free]
        exact .take loading current free
  | writerWrite f => exact .write f
  | writerRelease =>
    cases loading : s.writer.loading with
    | some epoch =>
      simp only [events, step, loading]
      exact .same nofun
    | none =>
      cases current : s.writer.current with
      | none =>
        simp only [events, step, loading, current]
        exact .same nofun
      | some slot =>
        have room := (h.room (show slot ∈ s.hands by simp [hands, current])).2
        have sent : s.events .writerRelease = [.released ⟨s.writer.currentEpoch, slot⟩] := by
          simp [events, loading, current]
        rw [sent]
        simp only [step, loading, current]
        rw [sendFilled_eq (by exact room), ← loading]
        exact .release current
  | readerRetain =>
    cases place : s.reader.place with
    | idle =>
      cases current : s.reader.current with
      | none =>
        simp only [events, step, current, place]
        exact .retain place current
      | some slot =>
        simp only [events, step, current, place]
        exact .same nofun
    | _ =>
      simp only [events, step, place]
      exact .same nofun
  | readerWrite f => exact .readerWrite f
  | readerRelease =>
    cases place : s.reader.place with
    | idle =>
      simp only [events, step, place]
      rw [h.readerRelease_eq]
      exact .readerRelease place
    | _ =>
      simp only [events, step, place]
      exact .same nofun
  | readerDiscard =>
    cases place : s.reader.place with
    | idle =>
      simp only [events, step, place]
      exact .discard place
    | _ =>
      simp only [events, step, place]
      exact .same nofun
  | readerStep => exact .turn rfl h.turn

theorem Conserved.moved {s s' : SlotQueue T} (h : s.Conserved) (size : s'.numSlots = s.numSlots)
    (count : ∀ id, s'.ids.count id = s.ids.count id)
    (writer : s'.writer.loading = none ∨ s'.writer.current = none)
    (reader : s'.reader.current = none ∨ s'.reader.place = .idle ∨
      s'.reader.place = .discarding) : s'.Conserved :=
  ⟨size ▸ (List.perm_iff_count.mpr count).trans h.ids, writer, reader⟩

theorem Conserved.of_turn {s s' : SlotQueue T} {place : ReaderAt T}
    {events : List (QueueEvent T)} (h : s.Conserved) (here : s.reader.place = place)
    (turn : Turn s place events s') : s'.Conserved := by
  cases turn with
  | rest => exact h
  | miss current ended | finish current ended =>
    refine h.moved rfl (fun id => ?_) h.writer (.inr (.inl rfl))
    simp only [at_, count_ids, here, ReaderAt.slot]
  | receive current available | drain current available =>
    refine h.moved rfl (fun id => ?_) h.writer (.inl current)
    simp only [at_, count_ids, here, available, ReaderAt.slot, List.map_cons, List.count_cons,
      Option.toList_some, Option.toList_none, List.map_nil, List.count_nil]
    omega
  | deliver current live =>
    refine h.moved rfl (fun id => ?_) h.writer (.inr (.inl rfl))
    simp only [count_ids, here, current, ReaderAt.slot, Option.toList_some, Option.toList_none,
      List.map_nil, List.count_nil]
    omega
  | refuse current stale =>
    refine h.moved rfl (fun id => ?_) h.writer (.inl current)
    simp only [at_, count_ids, here, ReaderAt.slot]
  | putBack current | recycle current =>
    refine h.moved rfl (fun id => ?_) h.writer (.inl current)
    simp only [at_, count_ids, here, ReaderAt.slot, List.map_append, List.count_append,
      List.map_cons, Option.toList_some, Option.toList_none, List.map_nil, List.count_nil]
    omega
  | letGo =>
    refine h.moved rfl (fun id => ?_) h.writer (.inl rfl)
    simp only [count_ids, here, ReaderAt.slot, List.map_append, List.count_append,
      Option.toList_none, List.map_nil, List.count_nil]
    omega

theorem Conserved.of_change {s s' : SlotQueue T} {op : QueueOp T} {events : List (QueueEvent T)}
    (h : s.Conserved) (change : Change s op events s') : s'.Conserved := by
  cases change with
  | same => exact h
  | load current =>
    exact h.moved rfl (fun id => by simp only [count_ids]) (.inr current) h.reader
  | missed => exact h.moved rfl (fun id => by simp only [count_ids]) (.inl rfl) h.reader
  | take loading current available =>
    refine h.moved rfl (fun id => ?_) (.inl rfl) h.reader
    simp only [count_ids, current, available, List.map_cons, List.count_cons, Option.toList_some,
      Option.toList_none, List.map_nil, List.count_nil]
    omega
  | write f =>
    refine h.moved rfl (fun id => ?_) (h.writer.imp_right (by simp [·])) h.reader
    cases current : s.writer.current <;> simp [count_ids, current]
  | release current =>
    refine h.moved rfl (fun id => ?_) (.inr rfl) h.reader
    simp only [count_ids, current, List.map_append, List.count_append, List.map_cons,
      Option.toList_some, Option.toList_none, List.map_nil, List.count_nil]
    omega
  | retain place current =>
    refine h.moved rfl (fun id => ?_) h.writer (.inl current)
    simp only [at_, count_ids, place, ReaderAt.slot]
  | readerWrite f =>
    refine h.moved rfl (fun id => ?_) h.writer (h.reader.imp_left (by simp [·]))
    cases current : s.reader.current <;> simp [count_ids, current]
  | readerRelease place =>
    refine h.moved rfl (fun id => ?_) h.writer (.inl rfl)
    simp only [count_ids, List.map_append, List.count_append, Option.toList_none, List.map_nil,
      List.count_nil]
    omega
  | discard place =>
    refine h.moved rfl (fun id => ?_) h.writer (.inr (.inr rfl))
    simp only [at_, count_ids, place, ReaderAt.slot]
  | turn here turn => exact h.of_turn here turn

theorem conserved_new (numSlots : Nat) (value : T) : (new numSlots value).Conserved := by
  refine ⟨?_, .inl rfl, .inl rfl⟩
  have ids : (new numSlots value).ids = List.range (new numSlots value).numSlots := by
    simp [SlotQueue.ids, hands, new, ReaderAt.slot, Function.comp_def]
  rw [ids]

theorem numSlots_of_change {s s' : SlotQueue T} {op : QueueOp T} {events : List (QueueEvent T)}
    (change : Change s op events s') : s'.numSlots = s.numSlots := by
  cases change with
  | turn here turn => cases turn <;> rfl
  | _ => rfl

theorem Conserved.step {s : SlotQueue T} (h : s.Conserved) (op : QueueOp T) :
    (s.step op).Conserved := h.of_change (h.change op)

end SlotQueue

end AbletonLink.Audio
