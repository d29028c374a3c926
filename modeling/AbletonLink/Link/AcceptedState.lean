import AbletonLink.Library.Run

/-! The accepted state behind the audio thread's try-only reads: two slots, an index and a count
of pinned readers.  Each atomic operation and each lock operation is one step of one thread.

Publications are numbered in the order they take the pending lock; the initial state is number
zero.  `number`, `log`, `installed`, `overwritten`, `fresh`, `active` and `returned` only record
what happened and no operation reads them. -/

universe u v

namespace AbletonLink.Link

open Library.Run

def usizeMax : UInt64 := .ofNat (2 ^ 64 - 1)

structure Stamped (State : Type v) where
  number : Nat
  state : State

/-- A finished read.  `before` is what the reads that had finished when it started returned. -/
structure AcceptedRead (State : Type v) where
  before : List (Stamped State)
  value : Stamped State

/-- The fields of `AcceptedState`, and its locks.  `writing` and `guards` are the write guard and
the read guards out on each slot. -/
structure AcceptedMemory (Thread : Type u) (State : Type v) where
  slots : Bool → Stamped State
  published : Bool
  readers : UInt64
  pending : Option (Stamped State)
  mutex : Option Thread
  writing : Bool → Bool
  guards : Bool → Nat
  log : List (Stamped State)
  installed : List (Stamped State)
  overwritten : List (Stamped State)
  fresh : Option (Stamped State)
  active : Bool
  returned : List (AcceptedRead State)

inductive FlushCaller (State : Type v)
  | publish
  | read (before : List (Stamped State))
  | readApp (before : List (Stamped State))

inductive FlushAt (State : Type v)
  | readersLoad
  | publishedLoad (state : Stamped State)
  | tryWrite (state : Stamped State) (next : Bool)
  | write (state : Stamped State) (next : Bool)
  | dropSlot (state : Stamped State) (next : Bool)
  | publishedStore (state : Stamped State) (next : Bool)

inductive AcceptedAt (State : Type v)
  | idle
  | publishLock (state : State)
  | readTryLock (before : List (Stamped State))
  | appLock (before : List (Stamped State))
  | flush (caller : FlushCaller State) (place : FlushAt State)
  | flushed (caller : FlushCaller State)
  | readersLoad (before : List (Stamped State))
  | compareExchange (before : List (Stamped State)) (readers : UInt64)
  | publishedLoad (before : List (Stamped State))
  | tryRead (before : List (Stamped State)) (slot : Bool)
  | copy (before : List (Stamped State)) (slot : Bool)
  | dropGuard (before : List (Stamped State)) (slot : Bool) (value : Stamped State)
  | dropReader (before : List (Stamped State)) (value : Stamped State)
  | appRead (before : List (Stamped State)) (slot : Bool)
  | appCopy (before : List (Stamped State)) (slot : Bool)
  | appDropGuard (before : List (Stamped State)) (slot : Bool) (value : Stamped State)
  | appUnlock (before : List (Stamped State)) (value : Stamped State)
  | unreachable

def FlushCaller.resume {State : Type v} (caller : FlushCaller State) :
    Option (FlushAt State) → AcceptedAt State
  | some place => .flush caller place
  | none => .flushed caller

structure AcceptedState (Thread : Type u) (State : Type v) where
  memory : AcceptedMemory Thread State
  threads : Thread → AcceptedAt State

inductive AcceptedOp (Thread : Type u) (State : Type v)
  | publish (t : Thread) (state : State)
  | read (t : Thread)
  | readApp (t : Thread)
  | step (t : Thread)

namespace AcceptedMemory

variable {Thread : Type u} {State : Type v}

def seen (m : AcceptedMemory Thread State) : List (Stamped State) :=
  m.returned.map AcceptedRead.value

def request (m : AcceptedMemory Thread State) (t : Thread) (state : State) :
    AcceptedMemory Thread State :=
  let state := ⟨m.log.length + 1, state⟩
  { m with
    mutex := some t
    pending := some state
    log := m.log ++ [state]
    overwritten := m.overwritten ++ m.pending.toList }

def fill (m : AcceptedMemory Thread State) (state : Stamped State) (next : Bool) :
    AcceptedMemory Thread State :=
  { m with slots := Function.update m.slots next state, pending := none, fresh := some state }

def install (m : AcceptedMemory Thread State) (state : Stamped State) (next : Bool) :
    AcceptedMemory Thread State :=
  { m with
    published := next
    installed := m.installed ++ [state]
    fresh := none
    active := false }

def finish (m : AcceptedMemory Thread State) (before : List (Stamped State))
    (value : Stamped State) : AcceptedMemory Thread State :=
  { m with returned := m.returned ++ [⟨before, value⟩] }

def flush (m : AcceptedMemory Thread State) :
    FlushAt State → AcceptedMemory Thread State × Option (FlushAt State)
  | .readersLoad =>
    match m.pending with
    | none => (m, none)
    | some state =>
      if m.readers ≠ 0 then (m, none)
      else ({ m with active := true }, some (.publishedLoad state))
  | .publishedLoad state => (m, some (.tryWrite state (!m.published)))
  | .tryWrite state next =>
    if m.writing next ∨ 0 < m.guards next then ({ m with active := false }, none)
    else
      ({ m with writing := Function.update m.writing next true }, some (.write state next))
  | .write state next => (m.fill state next, some (.dropSlot state next))
  | .dropSlot state next =>
    ({ m with writing := Function.update m.writing next false },
      some (.publishedStore state next))
  | .publishedStore state next => (m.install state next, none)

def step (m : AcceptedMemory Thread State) (t : Thread) :
    AcceptedAt State → AcceptedMemory Thread State × AcceptedAt State
  | .idle => (m, .idle)
  | .publishLock state =>
    match m.mutex with
    | none => (m.request t state, .flush .publish .readersLoad)
    | some _ => (m, .publishLock state)
  | .readTryLock before =>
    match m.mutex with
    | none => ({ m with mutex := some t }, .flush (.read before) .readersLoad)
    | some _ => (m, .readersLoad before)
  | .appLock before =>
    match m.mutex with
    | none => ({ m with mutex := some t }, .flush (.readApp before) .readersLoad)
    | some _ => (m, .appLock before)
  | .flush caller place => ((m.flush place).1, caller.resume (m.flush place).2)
  | .flushed .publish => ({ m with mutex := none }, .idle)
  | .flushed (.read before) => ({ m with mutex := none }, .readersLoad before)
  | .flushed (.readApp before) => (m, .appRead before m.published)
  | .readersLoad before =>
    -- `checked_add` fails at the largest count: `ReaderExhausted`.
    if m.readers = usizeMax then (m, .idle)
    else (m, .compareExchange before m.readers)
  | .compareExchange before readers =>
    if m.readers = readers then ({ m with readers := readers + 1 }, .publishedLoad before)
    else (m, .idle)
  | .publishedLoad before => (m, .tryRead before m.published)
  | .tryRead before slot =>
    if m.writing slot then (m, .unreachable)
    else
      ({ m with guards := Function.update m.guards slot (m.guards slot + 1) },
        .copy before slot)
  | .copy before slot => (m, .dropGuard before slot (m.slots slot))
  | .dropGuard before slot value =>
    ({ m with guards := Function.update m.guards slot (m.guards slot - 1) },
      .dropReader before value)
  | .dropReader before value => ({ m with readers := m.readers - 1 }.finish before value, .idle)
  | .appRead before slot =>
    if m.writing slot then (m, .appRead before slot)
    else
      ({ m with guards := Function.update m.guards slot (m.guards slot + 1) },
        .appCopy before slot)
  | .appCopy before slot => (m, .appDropGuard before slot (m.slots slot))
  | .appDropGuard before slot value =>
    ({ m with guards := Function.update m.guards slot (m.guards slot - 1) },
      .appUnlock before value)
  | .appUnlock before value => ({ m with mutex := none }.finish before value, .idle)
  | .unreachable => (m, .unreachable)

end AcceptedMemory

namespace AcceptedState

open AcceptedMemory

variable {Thread : Type u} {State : Type v}

def new (initial : State) : AcceptedState Thread State where
  memory :=
    { slots := fun _ => ⟨0, initial⟩
      published := false
      readers := 0
      pending := none
      mutex := none
      writing := fun _ => false
      guards := fun _ => 0
      log := []
      installed := []
      overwritten := []
      fresh := none
      active := false
      returned := [] }
  threads := fun _ => .idle

variable [DecidableEq Thread]

def begin (s : AcceptedState Thread State) (t : Thread) (place : AcceptedAt State) :
    AcceptedState Thread State :=
  match s.threads t with
  | .idle => { s with threads := Function.update s.threads t place }
  | _ => s

def step (s : AcceptedState Thread State) :
    AcceptedOp Thread State → AcceptedState Thread State
  | .publish t state => s.begin t (.publishLock state)
  | .read t => s.begin t (.readTryLock s.memory.seen)
  | .readApp t => s.begin t (.appLock s.memory.seen)
  | .step t =>
    let (memory, place) := s.memory.step t (s.threads t)
    { memory, threads := Function.update s.threads t place }

end AcceptedState

/-! What holds in every reachable state. -/

namespace AcceptedMemory

variable {Thread : Type u} {State : Type v}

def current (m : AcceptedMemory Thread State) : Nat := (m.slots m.published).number

def known (initial : State) (m : AcceptedMemory Thread State) : List (Stamped State) :=
  ⟨0, initial⟩ :: m.log

def UpTo (before : List (Stamped State)) (n : Nat) : Prop := ∀ w ∈ before, w.number ≤ n

theorem UpTo.trans {before : List (Stamped State)} {n n' : Nat} (h : UpTo before n)
    (le : n ≤ n') : UpTo before n' := fun w hw => Nat.le_trans (h w hw) le

structure Quiet (m : AcceptedMemory Thread State) : Prop where
  active : m.active = false
  fresh : m.fresh = none
  writing : ∀ b, m.writing b = false

/-- A reader that loaded the index `slot` can still read that slot: it is the published one, or
no flush is under way to touch the other. -/
structure Reads (m : AcceptedMemory Thread State) (before : List (Stamped State))
    (slot : Bool) : Prop where
  kept : slot = m.published ∨ m.active = false
  since : UpTo before (m.slots slot).number
  le : (m.slots slot).number ≤ m.current

structure Has (initial : State) (m : AcceptedMemory Thread State)
    (before : List (Stamped State)) (value : Stamped State) : Prop where
  since : UpTo before value.number
  le : value.number ≤ m.current
  known : value ∈ m.known initial

def CallerFits (m : AcceptedMemory Thread State) : FlushCaller State → Prop
  | .publish => True
  | .read before | .readApp before => UpTo before m.current

/-- A flush past its check has not yet taken its publication out of `pending`. -/
structure Holds (m : AcceptedMemory Thread State) (state : Stamped State) : Prop where
  active : m.active = true
  fresh : m.fresh = none
  pending : m.pending = some state

structure Wrote (m : AcceptedMemory Thread State) (state : Stamped State) (next : Bool) :
    Prop where
  active : m.active = true
  fresh : m.fresh = some state
  other : next = !m.published
  slot : m.slots next = state

def FlushFits (m : AcceptedMemory Thread State) : FlushAt State → Prop
  | .readersLoad => m.Quiet
  | .publishedLoad state => m.Holds state ∧ ∀ b, m.writing b = false
  | .tryWrite state next =>
    m.Holds state ∧ (∀ b, m.writing b = false) ∧ next = !m.published
  | .write state next =>
    m.Holds state ∧ m.writing m.published = false ∧ next = !m.published
  | .dropSlot state next => m.Wrote state next ∧ m.writing m.published = false
  | .publishedStore state next => m.Wrote state next ∧ ∀ b, m.writing b = false

def Fits (initial : State) (m : AcceptedMemory Thread State) (t : Thread) :
    AcceptedAt State → Prop
  | .idle | .publishLock _ => True
  | .readTryLock before | .appLock before | .readersLoad before | .publishedLoad before =>
    UpTo before m.current
  | .compareExchange before readers => UpTo before m.current ∧ readers ≠ usizeMax
  | .flush caller place => m.mutex = some t ∧ m.CallerFits caller ∧ m.FlushFits place
  | .flushed caller => m.mutex = some t ∧ m.CallerFits caller ∧ m.Quiet
  | .tryRead before slot | .copy before slot => m.Reads before slot
  | .dropGuard before _ value | .dropReader before value => m.Has initial before value
  | .appRead before slot | .appCopy before slot =>
    m.mutex = some t ∧ m.Quiet ∧ m.Reads before slot
  | .appDropGuard before _ value | .appUnlock before value =>
    m.mutex = some t ∧ m.Quiet ∧ m.Has initial before value
  | .unreachable => False

structure Ledger (initial : State) (m : AcceptedMemory Thread State) : Prop where
  numbered : m.log.map Stamped.number = List.range' 1 m.log.length
  slots : ∀ b, m.slots b ∈ m.known initial
  unlocked : m.mutex = none → m.Quiet
  writing : ∀ b, m.writing b = true → m.active = true ∧ b = !m.published
  pending : ∀ state ∈ m.pending, state ∈ m.log ∧ m.current < state.number
  fresh : ∀ state ∈ m.fresh, state ∈ m.log ∧ m.current < state.number ∧ m.pending = none
  accounted :
    m.log.Perm (m.installed ++ m.overwritten ++ m.pending.toList ++ m.fresh.toList)
  ordered : m.installed.Pairwise fun a b => a.number < b.number
  latest : UpTo m.installed m.current
  shown : m.slots m.published = m.installed.getLast?.getD ⟨0, initial⟩
  returned : ∀ r ∈ m.returned, m.Has initial r.before r.value

theorem Ledger.number_le {initial : State} {m : AcceptedMemory Thread State}
    (h : m.Ledger initial) {state : Stamped State} (known : state ∈ m.known initial) :
    state.number ≤ m.log.length := by
  cases known with
  | head => exact Nat.zero_le _
  | tail _ logged =>
    have number := List.mem_map_of_mem (f := Stamped.number) logged
    rw [h.numbered, List.mem_range'_1] at number
    omega

theorem Ledger.current_le {initial : State} {m : AcceptedMemory Thread State}
    (h : m.Ledger initial) : m.current ≤ m.log.length := h.number_le (h.slots _)

theorem Has.mono {initial : State} {m m' : AcceptedMemory Thread State}
    {before : List (Stamped State)} {value : Stamped State} (h : m.Has initial before value)
    (current : m.current ≤ m'.current) (log : m.log ⊆ m'.log) :
    m'.Has initial before value where
  since := h.since
  le := Nat.le_trans h.le current
  known := List.cons_subset_cons _ log h.known

structure Frame (t : Thread) (m m' : AcceptedMemory Thread State) : Prop where
  current : m.current ≤ m'.current
  log : m.log ⊆ m'.log
  reads : m.readers ≠ 0 → ∀ slot, (slot = m.published ∨ m.active = false) →
    (slot = m'.published ∨ m'.active = false) ∧ m'.slots slot = m.slots slot
  locked : (m.mutex = none ∨ m.mutex = some t) ∨
    m'.mutex = m.mutex ∧ m'.slots = m.slots ∧ m'.published = m.published ∧
      m'.pending = m.pending ∧ m'.writing = m.writing ∧ m'.fresh = m.fresh ∧
      m'.active = m.active

end AcceptedMemory

def AcceptedAt.pinned {State : Type v} : AcceptedAt State → Bool
  | .publishedLoad _ | .tryRead _ _ | .copy _ _ | .dropGuard _ _ _ | .dropReader _ _ => true
  | _ => false

namespace AcceptedMemory

variable {Thread : Type u} {State : Type v} {initial : State} {m m' : AcceptedMemory Thread State}
  {t u : Thread}

theorem CallerFits.mono {caller : FlushCaller State} (h : m.CallerFits caller)
    (current : m.current ≤ m'.current) : m'.CallerFits caller := by
  cases caller with
  | publish => trivial
  | read before => exact UpTo.trans h current
  | readApp before => exact UpTo.trans h current

theorem Frame.reading (frame : Frame t m m') (pinned : m.readers ≠ 0)
    {before : List (Stamped State)} {slot : Bool} (h : m.Reads before slot) :
    m'.Reads before slot := by
  obtain ⟨kept, same⟩ := frame.reads pinned slot h.kept
  refine ⟨kept, ?_, ?_⟩
  · rw [same]
    exact h.since
  · rw [same]
    exact Nat.le_trans h.le frame.current

theorem Frame.holder (frame : Frame t m m') (other : u ≠ t) (held : m.mutex = some u) :
    m'.mutex = some u ∧ (m.Quiet → m'.Quiet) ∧ (∀ place, m.FlushFits place → m'.FlushFits place) ∧
      ∀ before slot, m.Reads before slot → m'.Reads before slot := by
  rcases frame.locked with (free | own) | ⟨mutex, slots, published, pending, writing, fresh, active⟩
  · rw [held] at free
    cases free
  · rw [held] at own
    cases own
    exact absurd rfl other
  · have holds {state : Stamped State} (h : m.Holds state) : m'.Holds state :=
      ⟨active.trans h.active, fresh.trans h.fresh, pending.trans h.pending⟩
    have wrote {state : Stamped State} {next : Bool} (h : m.Wrote state next) :
        m'.Wrote state next :=
      ⟨active.trans h.active, fresh.trans h.fresh, published ▸ h.other, slots ▸ h.slot⟩
    have quiet (h : m.Quiet) : m'.Quiet :=
      ⟨active.trans h.active, fresh.trans h.fresh, writing ▸ h.writing⟩
    refine ⟨mutex.trans held, quiet, ?_, ?_⟩
    · intro place h
      cases place with
      | readersLoad => exact quiet h
      | publishedLoad state => exact ⟨holds h.1, writing ▸ h.2⟩
      | tryWrite state next => exact ⟨holds h.1, writing ▸ h.2.1, published ▸ h.2.2⟩
      | write state next => exact ⟨holds h.1, writing ▸ published ▸ h.2.1, published ▸ h.2.2⟩
      | dropSlot state next => exact ⟨wrote h.1, writing ▸ published ▸ h.2⟩
      | publishedStore state next => exact ⟨wrote h.1, writing ▸ h.2⟩
    · intro before slot h
      have same : m'.current = m.current := by
        simp only [AcceptedMemory.current, slots, published]
      exact ⟨published ▸ active ▸ h.kept, slots ▸ h.since, same ▸ slots ▸ h.le⟩

theorem Frame.fits (frame : Frame t m m') (other : u ≠ t) {place : AcceptedAt State}
    (pinned : place.pinned = true → m.readers ≠ 0) (h : m.Fits initial u place) :
    m'.Fits initial u place := by
  cases place with
  | idle | publishLock => trivial
  | readTryLock before | appLock before | readersLoad before | publishedLoad before =>
    exact UpTo.trans h frame.current
  | compareExchange before readers => exact ⟨h.1.trans frame.current, h.2⟩
  | flush caller place =>
    obtain ⟨mutex, -, flush, -⟩ := frame.holder other h.1
    exact ⟨mutex, h.2.1.mono frame.current, flush place h.2.2⟩
  | flushed caller =>
    obtain ⟨mutex, quiet, -⟩ := frame.holder other h.1
    exact ⟨mutex, h.2.1.mono frame.current, quiet h.2.2⟩
  | tryRead before slot | copy before slot => exact frame.reading (pinned rfl) h
  | dropGuard before slot value | dropReader before value =>
    exact Has.mono h frame.current frame.log
  | appRead before slot | appCopy before slot =>
    obtain ⟨mutex, quiet, -, reads⟩ := frame.holder other h.1
    exact ⟨mutex, quiet h.2.1, reads before slot h.2.2⟩
  | appDropGuard before slot value | appUnlock before value =>
    obtain ⟨mutex, quiet, -⟩ := frame.holder other h.1
    exact ⟨mutex, quiet h.2.1, h.2.2.mono frame.current frame.log⟩
  | unreachable => exact h

/-- What a step of `t` to `place` owes: the record still balances, and every thread still fits. -/
structure Advance (initial : State) (t : Thread) (m m' : AcceptedMemory Thread State)
    (place : AcceptedAt State) : Prop where
  ledger : m'.Ledger initial
  frame : Frame t m m'
  own : m'.Fits initial t place

theorem Frame.refl (t : Thread) (m : AcceptedMemory Thread State) : Frame t m m where
  current := Nat.le_refl _
  log := List.Subset.refl _
  reads := fun _ _ h => ⟨h, rfl⟩
  locked := .inr ⟨rfl, rfl, rfl, rfl, rfl, rfl, rfl⟩

theorem Ledger.counts (h : m.Ledger initial) (readers : UInt64) (guards : Bool → Nat) :
    { m with readers, guards }.Ledger initial :=
  ⟨h.numbered, h.slots, fun free => ⟨(h.unlocked free).1, (h.unlocked free).2, (h.unlocked free).3⟩,
    h.writing, h.pending, h.fresh, h.accounted, h.ordered, h.latest, h.shown,
    fun r mem => (h.returned r mem).mono (Nat.le_refl _) (List.Subset.refl _)⟩

theorem Frame.counts (t : Thread) (m : AcceptedMemory Thread State) (readers : UInt64)
    (guards : Bool → Nat) (returned : List (AcceptedRead State)) :
    Frame t m { m with readers, guards, returned } where
  current := Nat.le_refl _
  log := List.Subset.refl _
  reads := fun _ _ h => ⟨h, rfl⟩
  locked := .inr ⟨rfl, rfl, rfl, rfl, rfl, rfl, rfl⟩

theorem Ledger.finish (h : m.Ledger initial) {before : List (Stamped State)}
    {value : Stamped State} (has : m.Has initial before value) :
    (m.finish before value).Ledger initial where
  numbered := h.numbered
  slots := h.slots
  unlocked := fun free => ⟨(h.unlocked free).1, (h.unlocked free).2, (h.unlocked free).3⟩
  writing := h.writing
  pending := h.pending
  fresh := h.fresh
  accounted := h.accounted
  ordered := h.ordered
  latest := h.latest
  shown := h.shown
  returned := by
    intro r mem
    have earlier : m.Has initial r.before r.value := by
      rcases List.mem_append.mp mem with old | new
      · exact h.returned r old
      · rw [List.mem_singleton.mp new]
        exact has
    exact earlier.mono (Nat.le_refl _) (List.Subset.refl _)

theorem Ledger.lock (h : m.Ledger initial) (quiet : m.Quiet) (mutex : Option Thread) :
    { m with mutex }.Ledger initial :=
  ⟨h.numbered, h.slots, fun _ => ⟨quiet.1, quiet.2, quiet.3⟩, h.writing, h.pending, h.fresh,
    h.accounted, h.ordered, h.latest, h.shown,
    fun r mem => (h.returned r mem).mono (Nat.le_refl _) (List.Subset.refl _)⟩

theorem Frame.lock (own : m.mutex = none ∨ m.mutex = some t) (mutex : Option Thread)
    (returned : List (AcceptedRead State)) : Frame t m { m with mutex, returned } where
  current := Nat.le_refl _
  log := List.Subset.refl _
  reads := fun _ _ h => ⟨h, rfl⟩
  locked := .inl own

theorem Ledger.request (h : m.Ledger initial) (free : m.mutex = none) (t : Thread)
    (state : State) : (m.request t state).Ledger initial where
  numbered := by
    simp only [AcceptedMemory.request, List.map_append, h.numbered, List.map_singleton,
      List.length_append, List.length_singleton, List.range'_concat, Nat.one_mul]
    rw [Nat.add_comm]
  slots := fun b => List.cons_subset_cons _ (List.subset_append_left _ _) (h.slots b)
  unlocked := nofun
  writing := h.writing
  pending := by
    intro state' mem
    cases mem
    exact ⟨List.mem_append_right _ (List.mem_singleton.mpr rfl),
      Nat.lt_succ_of_le h.current_le⟩
  fresh := by
    intro state' mem
    rw [show (m.request t state).fresh = none from (h.unlocked free).fresh] at mem
    cases mem
  accounted := by
    have fresh := (h.unlocked free).fresh
    have accounted := h.accounted
    simp only [fresh, Option.toList_none, List.append_nil] at accounted
    simp only [AcceptedMemory.request, fresh, Option.toList_none, List.append_nil,
      Option.toList_some, ← List.append_assoc]
    exact accounted.append_right _
  ordered := h.ordered
  latest := h.latest
  shown := h.shown
  returned := fun r mem =>
    (h.returned r mem).mono (Nat.le_refl _) (List.subset_append_left _ _)

theorem Frame.request (free : m.mutex = none) (t : Thread) (state : State) :
    Frame t m (m.request t state) where
  current := Nat.le_refl _
  log := List.subset_append_left _ _
  reads := fun _ _ h => ⟨h, rfl⟩
  locked := .inl (.inl free)

theorem Ledger.activate (h : m.Ledger initial) (own : m.mutex = some t) {active : Bool}
    (idle : ∀ b, m.writing b = false) : { m with active }.Ledger initial :=
  ⟨h.numbered, h.slots, fun free => (nomatch own.symm.trans free),
    fun b writing => (nomatch (idle b).symm.trans writing), h.pending, h.fresh, h.accounted,
    h.ordered, h.latest, h.shown,
    fun r mem => (h.returned r mem).mono (Nat.le_refl _) (List.Subset.refl _)⟩

theorem Ledger.guard (h : m.Ledger initial) (own : m.mutex = some t) {next : Bool}
    (active : m.active = true) (other : next = !m.published) (on : Bool) :
    { m with writing := Function.update m.writing next on }.Ledger initial := by
  refine ⟨h.numbered, h.slots, fun free => (nomatch own.symm.trans free), ?_, h.pending, h.fresh,
    h.accounted, h.ordered, h.latest, h.shown,
    fun r mem => (h.returned r mem).mono (Nat.le_refl _) (List.Subset.refl _)⟩
  intro b writing
  by_cases eq : b = next
  · exact ⟨active, eq.trans other⟩
  · exact h.writing b ((Function.update_of_ne eq ..).symm.trans writing)

theorem fill_published {next : Bool} (other : next = !m.published) (state : Stamped State) :
    (m.fill state next).slots m.published = m.slots m.published :=
  Function.update_of_ne (by simp [other]) _ _

theorem fill_current {next : Bool} (other : next = !m.published) (state : Stamped State) :
    (m.fill state next).current = m.current :=
  congrArg Stamped.number (fill_published other state)

theorem Ledger.fill (h : m.Ledger initial) (own : m.mutex = some t) {state : Stamped State}
    {next : Bool} (holds : m.Holds state) (other : next = !m.published) :
    (m.fill state next).Ledger initial where
  numbered := h.numbered
  slots := by
    intro b
    by_cases eq : b = next
    · rw [eq, show (m.fill state next).slots next = state from Function.update_self ..]
      exact List.mem_cons_of_mem _ (h.pending state holds.pending).1
    · rw [show (m.fill state next).slots b = m.slots b from Function.update_of_ne eq ..]
      exact h.slots b
  unlocked := fun free => (nomatch own.symm.trans free)
  writing := h.writing
  pending := nofun
  fresh := by
    intro state' mem
    cases mem
    rw [fill_current other]
    exact ⟨(h.pending state holds.pending).1, (h.pending state holds.pending).2, rfl⟩
  accounted := by
    have accounted := h.accounted
    simpa [AcceptedMemory.fill, holds.pending, holds.fresh] using accounted
  ordered := h.ordered
  latest := by
    rw [fill_current other]
    exact h.latest
  shown := (fill_published other state).trans h.shown
  returned := fun r mem =>
    (h.returned r mem).mono (Nat.le_of_eq (fill_current other state).symm) (List.Subset.refl _)

theorem install_current {state : Stamped State} {next : Bool} (wrote : m.Wrote state next) :
    (m.install state next).current = state.number := congrArg Stamped.number wrote.slot

theorem Ledger.install (h : m.Ledger initial) (own : m.mutex = some t) {state : Stamped State}
    {next : Bool} (wrote : m.Wrote state next) (idle : ∀ b, m.writing b = false) :
    (m.install state next).Ledger initial where
  numbered := h.numbered
  slots := h.slots
  unlocked := fun free => (nomatch own.symm.trans free)
  writing := fun b writing => (nomatch (idle b).symm.trans writing)
  pending := by
    intro state' mem
    rw [show (m.install state next).pending = none from (h.fresh state wrote.fresh).2.2] at mem
    cases mem
  fresh := nofun
  accounted := by
    have accounted := h.accounted
    have pending := (h.fresh state wrote.fresh).2.2
    simp only [wrote.fresh, pending, Option.toList_none, Option.toList_some,
      List.append_nil] at accounted
    simp only [AcceptedMemory.install, pending, Option.toList_none, List.append_nil]
    refine accounted.trans ?_
    rw [List.append_assoc, List.append_assoc]
    exact (List.perm_append_comm).append_left _
  ordered := by
    refine List.pairwise_append.mpr ⟨h.ordered, List.pairwise_singleton _ _, ?_⟩
    intro a mem b single
    rw [List.mem_singleton.mp single]
    exact Nat.lt_of_le_of_lt (h.latest a mem) (h.fresh state wrote.fresh).2.1
  latest := by
    intro a mem
    rw [install_current wrote]
    rcases List.mem_append.mp mem with old | new
    · exact Nat.le_trans (h.latest a old) (Nat.le_of_lt (h.fresh state wrote.fresh).2.1)
    · rw [List.mem_singleton.mp new]
  shown := by
    simpa [AcceptedMemory.install] using wrote.slot
  returned := by
    intro r mem
    refine (h.returned r mem).mono ?_ (List.Subset.refl _)
    rw [install_current wrote]
    exact Nat.le_of_lt (h.fresh state wrote.fresh).2.1

/-- One access of a flush.  It passes its check only while no reader is pinned, and from then on
it writes only the slot that is not published, until it publishes that slot. -/
theorem flush_advance (h : m.Ledger initial) (own : m.mutex = some t)
    {caller : FlushCaller State} {place : FlushAt State} (back : m.CallerFits caller)
    (fits : m.FlushFits place) :
    Advance initial t m (m.flush place).1 (caller.resume (m.flush place).2) := by
  cases place with
  | readersLoad =>
    cases pending : m.pending with
    | none =>
      have result : m.flush .readersLoad = (m, none) := by simp [AcceptedMemory.flush, pending]
      rw [result]
      exact ⟨h, .refl t m, own, back, fits⟩
    | some state =>
      by_cases pinned : m.readers ≠ 0
      · have result : m.flush .readersLoad = (m, none) := by
          simp [AcceptedMemory.flush, pending, pinned]
        rw [result]
        exact ⟨h, .refl t m, own, back, fits⟩
      · have result : m.flush .readersLoad =
            ({ m with active := true }, some (.publishedLoad state)) := by
          unfold AcceptedMemory.flush
          rw [pending]
          exact if_neg pinned
        rw [result]
        refine ⟨h.activate own fits.writing,
          ⟨Nat.le_refl _, List.Subset.refl _, ?_, .inl (.inr own)⟩, own, back,
          ⟨rfl, fits.fresh, pending⟩, fits.writing⟩
        intro readers
        exact absurd readers pinned
  | publishedLoad state => exact ⟨h, .refl t m, own, back, fits.1, fits.2, rfl⟩
  | tryWrite state next =>
    obtain ⟨holds, idle, other⟩ := fits
    by_cases blocked : m.writing next ∨ 0 < m.guards next
    · rw [show m.flush (.tryWrite state next) = _ from if_pos blocked]
      exact ⟨h.activate own idle,
        ⟨Nat.le_refl _, List.Subset.refl _, fun _ slot _ => ⟨.inr rfl, rfl⟩, .inl (.inr own)⟩,
        own, back, rfl, holds.fresh, idle⟩
    · rw [show m.flush (.tryWrite state next) = _ from if_neg blocked]
      refine ⟨h.guard own holds.active other true,
        ⟨Nat.le_refl _, List.Subset.refl _, fun _ slot kept => ⟨kept, rfl⟩, .inl (.inr own)⟩,
        own, back, ⟨holds.active, holds.fresh, holds.pending⟩, ?_, other⟩
      exact (Function.update_of_ne (by simp [other]) _ _).trans (idle _)
  | write state next =>
    obtain ⟨holds, idle, other⟩ := fits
    have current := fill_current other state
    refine ⟨h.fill own holds other,
      ⟨Nat.le_of_eq current.symm, List.Subset.refl _, ?_, .inl (.inr own)⟩,
      own, back.mono (Nat.le_of_eq current.symm),
      ⟨holds.active, rfl, other, Function.update_self ..⟩, idle⟩
    -- A pinned reader whose index is not the published one excludes an active flush.
    intro _ slot kept
    rcases kept with same | inactive
    · exact ⟨.inl same, same ▸ fill_published other state⟩
    · rw [holds.active] at inactive
      cases inactive
  | dropSlot state next =>
    obtain ⟨wrote, idle⟩ := fits
    refine ⟨h.guard own wrote.active wrote.other false,
      ⟨Nat.le_refl _, List.Subset.refl _, fun _ slot kept => ⟨kept, rfl⟩, .inl (.inr own)⟩,
      own, back, ⟨wrote.active, wrote.fresh, wrote.other, wrote.slot⟩, ?_⟩
    intro b
    by_cases eq : b = next
    · rw [eq]
      exact Function.update_self ..
    · have published : b = m.published := by
        rw [wrote.other] at eq
        simpa using eq
      exact (Function.update_of_ne eq ..).trans (published ▸ idle)
  | publishedStore state next =>
    obtain ⟨wrote, idle⟩ := fits
    have later : m.current ≤ (m.install state next).current := by
      rw [install_current wrote]
      exact Nat.le_of_lt (h.fresh state wrote.fresh).2.1
    exact ⟨h.install own wrote idle,
      ⟨later, List.Subset.refl _, fun _ slot _ => ⟨.inr rfl, rfl⟩, .inl (.inr own)⟩,
      own, back.mono later, rfl, rfl, idle⟩

theorem Reads.has (h : m.Ledger initial) {before : List (Stamped State)} {slot : Bool}
    (reads : m.Reads before slot) : m.Has initial before (m.slots slot) :=
  ⟨reads.since, reads.le, h.slots slot⟩

theorem Reads.counts {before : List (Stamped State)} {slot : Bool} (h : m.Reads before slot)
    (readers : UInt64) (guards : Bool → Nat) : { m with readers, guards }.Reads before slot :=
  ⟨h.kept, h.since, h.le⟩

theorem Ledger.readable (h : m.Ledger initial) {before : List (Stamped State)} {slot : Bool}
    (reads : m.Reads before slot) : m.writing slot = false := by
  cases writing : m.writing slot with
  | false => rfl
  | true =>
    obtain ⟨active, other⟩ := h.writing slot writing
    rcases reads.kept with same | inactive
    · rw [other] at same
      simp at same
    · rw [active] at inactive
      cases inactive

theorem step_advance (h : m.Ledger initial) {place : AcceptedAt State}
    (fits : m.Fits initial t place) :
    Advance initial t m (m.step t place).1 (m.step t place).2 := by
  cases place with
  | idle => exact ⟨h, .refl t m, trivial⟩
  | publishLock state =>
    cases free : m.mutex with
    | none =>
      have quiet := h.unlocked free
      simp only [AcceptedMemory.step, free]
      exact ⟨h.request free t state, .request free t state, rfl, trivial, quiet.1, quiet.2, quiet.3⟩
    | some holder =>
      simp only [AcceptedMemory.step, free]
      exact ⟨h, .refl t m, trivial⟩
  | readTryLock before =>
    cases free : m.mutex with
    | none =>
      have quiet := h.unlocked free
      simp only [AcceptedMemory.step, free]
      exact ⟨h.lock quiet _, .lock (.inl free) _ _, rfl, fits, quiet.1, quiet.2, quiet.3⟩
    | some holder =>
      simp only [AcceptedMemory.step, free]
      exact ⟨h, .refl t m, fits⟩
  | appLock before =>
    cases free : m.mutex with
    | none =>
      have quiet := h.unlocked free
      simp only [AcceptedMemory.step, free]
      exact ⟨h.lock quiet _, .lock (.inl free) _ _, rfl, fits, quiet.1, quiet.2, quiet.3⟩
    | some holder =>
      simp only [AcceptedMemory.step, free]
      exact ⟨h, .refl t m, fits⟩
  | flush caller place => exact flush_advance h fits.1 fits.2.1 fits.2.2
  | flushed caller =>
    obtain ⟨own, back, quiet⟩ := fits
    cases caller with
    | publish => exact ⟨h.lock quiet none, .lock (.inr own) none _, trivial⟩
    | read before => exact ⟨h.lock quiet none, .lock (.inr own) none _, back⟩
    | readApp before => exact ⟨h, .refl t m, own, quiet, .inl rfl, back, Nat.le_refl _⟩
  | readersLoad before =>
    by_cases exhausted : m.readers = usizeMax
    · rw [show m.step t (.readersLoad before) = _ from if_pos exhausted]
      exact ⟨h, .refl t m, trivial⟩
    · rw [show m.step t (.readersLoad before) = _ from if_neg exhausted]
      exact ⟨h, .refl t m, fits, exhausted⟩
  | compareExchange before readers =>
    by_cases same : m.readers = readers
    · rw [show m.step t (.compareExchange before readers) = _ from if_pos same]
      exact ⟨h.counts (readers + 1) m.guards, .counts t m (readers + 1) m.guards _, fits.1⟩
    · rw [show m.step t (.compareExchange before readers) = _ from if_neg same]
      exact ⟨h, .refl t m, trivial⟩
  | publishedLoad before => exact ⟨h, .refl t m, .inl rfl, fits, Nat.le_refl _⟩
  | tryRead before slot =>
    simp only [AcceptedMemory.step, h.readable fits]
    exact ⟨h.counts m.readers _, .counts t m m.readers _ _, Reads.counts fits m.readers _⟩
  | copy before slot => exact ⟨h, .refl t m, Reads.has h fits⟩
  | dropGuard before slot value =>
    exact ⟨h.counts m.readers _, .counts t m m.readers _ _,
      Has.mono fits (Nat.le_refl _) (List.Subset.refl _)⟩
  | dropReader before value =>
    have has : m.Has initial before value := fits
    exact ⟨(h.counts (m.readers - 1) m.guards).finish
      (has.mono (Nat.le_refl _) (List.Subset.refl _)), .counts t m _ _ _, trivial⟩
  | appRead before slot =>
    obtain ⟨own, quiet, reads⟩ := fits
    simp only [AcceptedMemory.step, h.readable reads]
    exact ⟨h.counts m.readers _, .counts t m m.readers _ _, own, ⟨quiet.1, quiet.2, quiet.3⟩,
      reads.counts m.readers _⟩
  | appCopy before slot => exact ⟨h, .refl t m, fits.1, fits.2.1, Reads.has h fits.2.2⟩
  | appDropGuard before slot value =>
    obtain ⟨own, quiet, has⟩ := fits
    exact ⟨h.counts m.readers _, .counts t m m.readers _ _, own, ⟨quiet.1, quiet.2, quiet.3⟩,
      has.mono (Nat.le_refl _) (List.Subset.refl _)⟩
  | appUnlock before value =>
    obtain ⟨own, quiet, has⟩ := fits
    exact ⟨(h.lock quiet none).finish (has.mono (Nat.le_refl _) (List.Subset.refl _)),
      .lock (.inr own) none _, trivial⟩
  | unreachable => exact fits.elim

@[simp] theorem flush_readers (m : AcceptedMemory Thread State) (place : FlushAt State) :
    (m.flush place).1.readers = m.readers := by
  cases place with
  | readersLoad =>
    unfold AcceptedMemory.flush
    grind
  | tryWrite state next =>
    unfold AcceptedMemory.flush
    grind
  | publishedLoad | write | dropSlot | publishedStore => rfl

@[simp] theorem resume_pinned (caller : FlushCaller State) (next : Option (FlushAt State)) :
    (caller.resume next).pinned = false := by
  cases next with
  | none => rfl
  | some place => rfl

/-- The count of readers moves with the pins: a successful exchange adds one, a drop takes one
away, and nothing else touches either. -/
inductive PinChange (m m' : AcceptedMemory Thread State) (place place' : AcceptedAt State) : Prop
  | same (readers : m'.readers = m.readers) (pinned : place'.pinned = place.pinned)
  | pin (room : m.readers ≠ usizeMax) (readers : m'.readers = m.readers + 1)
      (pinned : place.pinned = false) (pinned' : place'.pinned = true)
  | drop (readers : m'.readers = m.readers - 1) (pinned : place.pinned = true)
      (pinned' : place'.pinned = false)

theorem step_pins (h : m.Ledger initial) {place : AcceptedAt State}
    (fits : m.Fits initial t place) :
    PinChange m (m.step t place).1 place (m.step t place).2 := by
  cases place with
  | idle | publishedLoad | copy | dropGuard | appCopy | appDropGuard | appUnlock =>
    exact .same rfl rfl
  | publishLock | readTryLock | appLock =>
    unfold AcceptedMemory.step
    cases m.mutex with
    | none => exact .same rfl rfl
    | some holder => exact .same rfl rfl
  | flush caller place => exact .same (flush_readers m place) (resume_pinned caller _)
  | flushed caller =>
    cases caller with
    | publish | read | readApp => exact .same rfl rfl
  | readersLoad before =>
    by_cases exhausted : m.readers = usizeMax
    · rw [show m.step t (.readersLoad before) = _ from if_pos exhausted]
      exact .same rfl rfl
    · rw [show m.step t (.readersLoad before) = _ from if_neg exhausted]
      exact .same rfl rfl
  | compareExchange before readers =>
    by_cases same : m.readers = readers
    · rw [show m.step t (.compareExchange before readers) = _ from if_pos same]
      exact .pin (same ▸ fits.2) (same ▸ rfl) rfl rfl
    · rw [show m.step t (.compareExchange before readers) = _ from if_neg same]
      exact .same rfl rfl
  | tryRead before slot =>
    simp only [AcceptedMemory.step, h.readable fits]
    exact .same rfl rfl
  | appRead before slot =>
    simp only [AcceptedMemory.step, h.readable fits.2.2]
    exact .same rfl rfl
  | dropReader before value => exact .drop rfl rfl rfl
  | unreachable => exact fits.elim

inductive PendingChange (m m' : AcceptedMemory Thread State) (t : Thread) :
    AcceptedAt State → AcceptedAt State → Prop
  | same {place place' : AcceptedAt State} (pending : m'.pending = m.pending) (log : m'.log = m.log)
      (new : ∀ state, place' = .publishLock state → place = .publishLock state) :
      PendingChange m m' t place place'
  | replaced {state : State} {place' : AcceptedAt State} (free : m.mutex = none)
      (memory : m' = m.request t state) (new : ∀ state', place' ≠ .publishLock state') :
      PendingChange m m' t (.publishLock state) place'
  | written {caller : FlushCaller State} {state : Stamped State} {next : Bool}
      {place' : AcceptedAt State} (memory : m' = m.fill state next)
      (new : ∀ state', place' ≠ .publishLock state') :
      PendingChange m m' t (.flush caller (.write state next)) place'

theorem step_pending (m : AcceptedMemory Thread State) (t : Thread) (place : AcceptedAt State) :
    PendingChange m (m.step t place).1 t place (m.step t place).2 := by
  cases place with
  | publishLock state =>
    cases free : m.mutex with
    | none =>
      simp only [AcceptedMemory.step, free]
      exact .replaced free rfl nofun
    | some holder =>
      simp only [AcceptedMemory.step, free]
      exact .same rfl rfl (fun _ eq => eq)
  | flush caller place =>
    have new : ∀ state, (m.step t (.flush caller place)).2 ≠ .publishLock state := by
      intro state
      show caller.resume (m.flush place).2 ≠ .publishLock state
      cases (m.flush place).2 with
      | none => nofun
      | some place => nofun
    cases place with
    | readersLoad =>
      refine .same ?_ ?_ (fun state eq => absurd eq (new state))
      all_goals
        simp only [AcceptedMemory.step, AcceptedMemory.flush]
        grind
    | tryWrite state next =>
      refine .same ?_ ?_ (fun state eq => absurd eq (new state))
      all_goals
        simp only [AcceptedMemory.step, AcceptedMemory.flush]
        grind
    | write state next => exact .written rfl new
    | publishedLoad | dropSlot | publishedStore =>
      exact .same rfl rfl (fun state eq => absurd eq (new state))
  | flushed caller =>
    cases caller with
    | publish | read | readApp => exact .same rfl rfl nofun
  | readTryLock | appLock =>
    unfold AcceptedMemory.step
    cases m.mutex with
    | none => exact .same rfl rfl nofun
    | some holder => exact .same rfl rfl nofun
  | readersLoad before =>
    by_cases exhausted : m.readers = usizeMax
    · rw [show m.step t (.readersLoad before) = _ from if_pos exhausted]
      exact .same rfl rfl nofun
    · rw [show m.step t (.readersLoad before) = _ from if_neg exhausted]
      exact .same rfl rfl nofun
  | compareExchange before readers =>
    by_cases same : m.readers = readers
    · rw [show m.step t (.compareExchange before readers) = _ from if_pos same]
      exact .same rfl rfl nofun
    · rw [show m.step t (.compareExchange before readers) = _ from if_neg same]
      exact .same rfl rfl nofun
  | tryRead before slot =>
    by_cases writing : m.writing slot = true
    · rw [show m.step t (.tryRead before slot) = _ from if_pos writing]
      exact .same rfl rfl nofun
    · rw [show m.step t (.tryRead before slot) = _ from if_neg writing]
      exact .same rfl rfl nofun
  | appRead before slot =>
    by_cases writing : m.writing slot = true
    · rw [show m.step t (.appRead before slot) = _ from if_pos writing]
      exact .same rfl rfl nofun
    · rw [show m.step t (.appRead before slot) = _ from if_neg writing]
      exact .same rfl rfl nofun
  | idle | publishedLoad | copy | dropGuard | dropReader | appCopy | appDropGuard | appUnlock
  | unreachable => exact .same rfl rfl nofun

end AcceptedMemory

namespace AcceptedState

open AcceptedMemory

variable {Thread : Type u} {State : Type v} {initial : State} {s : AcceptedState Thread State}

def Counted (s : AcceptedState Thread State) : Prop :=
  ∃ pins : Finset Thread, (∀ t, t ∈ pins ↔ (s.threads t).pinned = true) ∧
    s.memory.readers.toNat = pins.card

structure Safe (initial : State) (s : AcceptedState Thread State) : Prop where
  ledger : s.memory.Ledger initial
  fits : ∀ t, s.memory.Fits initial t (s.threads t)
  counted : s.Counted

theorem Counted.zero_iff (h : s.Counted) :
    s.memory.readers = 0 ↔ ∀ t, (s.threads t).pinned = false := by
  obtain ⟨pins, pinned, card⟩ := h
  rw [← UInt64.toNat_inj, card, UInt64.toNat_zero, Finset.card_eq_zero,
    Finset.eq_empty_iff_forall_notMem]
  simp only [pinned, Bool.not_eq_true]

theorem safe_new (initial : State) : (new initial : AcceptedState Thread State).Safe initial where
  ledger :=
    { numbered := rfl
      slots := fun _ => List.mem_cons_self
      unlocked := fun _ => ⟨rfl, rfl, fun _ => rfl⟩
      writing := nofun
      pending := nofun
      fresh := nofun
      accounted := List.Perm.refl _
      ordered := List.Pairwise.nil
      latest := nofun
      shown := rfl
      returned := nofun }
  fits := fun _ => trivial
  counted := ⟨∅, by simp [new, AcceptedAt.pinned], rfl⟩

theorem Safe.seen (h : s.Safe initial) : UpTo s.memory.seen s.memory.current := by
  intro w mem
  obtain ⟨r, returned, rfl⟩ := List.mem_map.mp mem
  exact (h.ledger.returned r returned).le

variable [DecidableEq Thread]

theorem Counted.move (h : s.Counted) {t : Thread} {memory : AcceptedMemory Thread State}
    {place : AcceptedAt State} (change : PinChange s.memory memory (s.threads t) place) :
    Counted ⟨memory, Function.update s.threads t place⟩ := by
  obtain ⟨pins, pinned, card⟩ := h
  have others {u : Thread} (other : u ≠ t) :
      (Function.update s.threads t place u).pinned = (s.threads u).pinned := by
    rw [Function.update_of_ne other]
  cases change with
  | same readers same =>
    refine ⟨pins, fun u => ?_, readers ▸ card⟩
    by_cases other : u = t
    · rw [other, pinned t, ← same]
      simp
    · rw [pinned u, others other]
  | pin room readers unpinned pinned' =>
    have fresh : t ∉ pins := by simp [pinned t, unpinned]
    refine ⟨insert t pins, fun u => ?_, ?_⟩
    · by_cases other : u = t
      · simp [other, pinned']
      · simp [other, pinned u]
    · have room' : s.memory.readers.toNat ≠ 2 ^ 64 - 1 :=
        fun full => room (UInt64.toNat_inj.mp full)
      have small := s.memory.readers.toNat_lt
      rw [readers, UInt64.toNat_add, UInt64.toNat_one, Nat.mod_eq_of_lt (by omega), card,
        Finset.card_insert_of_notMem fresh]
  | drop readers held unpinned' =>
    have mem : t ∈ pins := (pinned t).mpr held
    refine ⟨pins.erase t, fun u => ?_, ?_⟩
    · by_cases other : u = t
      · simp [other, unpinned']
      · simp [other, pinned u]
    · have positive : 0 < pins.card := Finset.card_pos.mpr ⟨t, mem⟩
      have one : (1 : UInt64) ≤ s.memory.readers := by
        rw [UInt64.le_iff_toNat_le, card, UInt64.toNat_one]
        exact positive
      rw [readers, UInt64.toNat_sub_of_le _ _ one, card, UInt64.toNat_one,
        Finset.card_erase_of_mem mem]

theorem fits_update {m : AcceptedMemory Thread State} {t : Thread} {place : AcceptedAt State}
    {threads : Thread → AcceptedAt State} (own : m.Fits initial t place)
    (others : ∀ u, u ≠ t → m.Fits initial u (threads u)) (u : Thread) :
    m.Fits initial u (Function.update threads t place u) := by
  by_cases other : u = t
  · rw [other, Function.update_self]
    exact own
  · rw [Function.update_of_ne other]
    exact others u other

theorem Safe.begin (h : s.Safe initial) (t : Thread) {place : AcceptedAt State}
    (own : s.memory.Fits initial t place) (unpinned : place.pinned = false) :
    (s.begin t place).Safe initial := by
  unfold AcceptedState.begin
  split
  · rename_i idle
    exact ⟨h.ledger, fits_update own (fun u _ => h.fits u),
      h.counted.move (.same rfl (by rw [idle, unpinned]; rfl))⟩
  · exact h

theorem Safe.step (h : s.Safe initial) (op : AcceptedOp Thread State) :
    (s.step op).Safe initial := by
  cases op with
  | publish t state => exact h.begin t trivial rfl
  | read t => exact h.begin t h.seen rfl
  | readApp t => exact h.begin t h.seen rfl
  | step t =>
    have advance := step_advance h.ledger (h.fits t)
    refine ⟨advance.ledger, fits_update advance.own (fun u other => ?_),
      h.counted.move (step_pins h.ledger (h.fits t))⟩
    have pinned (held : (s.threads u).pinned = true) : s.memory.readers ≠ 0 := by
      intro zero
      rw [h.counted.zero_iff.mp zero u] at held
      cases held
    exact advance.frame.fits other pinned (h.fits u)

structure Called (P : State → Prop) (s : AcceptedState Thread State) : Prop where
  waiting : ∀ t state, s.threads t = .publishLock state → P state
  logged : ∀ x ∈ s.memory.log, P x.state

theorem Called.move {P : State → Prop} (h : s.Called P) {t : Thread}
    {m' : AcceptedMemory Thread State} {place : AcceptedAt State}
    (own : ∀ state, place = .publishLock state → P state) (logged : ∀ x ∈ m'.log, P x.state) :
    Called P ⟨m', Function.update s.threads t place⟩ := by
  refine ⟨fun u state eq => ?_, logged⟩
  by_cases other : u = t
  · rw [other] at eq
    exact own state ((Function.update_self t place s.threads).symm.trans eq)
  · exact h.waiting u state ((Function.update_of_ne other ..).symm.trans eq)

theorem Called.begin {P : State → Prop} (h : s.Called P) (t : Thread) {place : AcceptedAt State}
    (own : ∀ state, place = .publishLock state → P state) : (s.begin t place).Called P := by
  unfold AcceptedState.begin
  split
  · exact h.move own h.logged
  · exact h

theorem Called.step {P : State → Prop} (h : s.Called P) {op : AcceptedOp Thread State}
    (called : ∀ t state, op = .publish t state → P state) : (s.step op).Called P := by
  cases op with
  | publish t state =>
    refine h.begin t (fun state' eq => ?_)
    cases eq
    exact called t state rfl
  | read t => exact h.begin t nofun
  | readApp t => exact h.begin t nofun
  | step t =>
    have waiting := h.waiting t
    have change := step_pending s.memory t (s.threads t)
    show Called P ⟨(s.memory.step t (s.threads t)).1,
      Function.update s.threads t (s.memory.step t (s.threads t)).2⟩
    generalize s.memory.step t (s.threads t) = result at change ⊢
    generalize s.threads t = here at change waiting
    cases change with
    | same pending log new =>
      exact h.move (fun state eq => waiting state (new state eq)) (log ▸ h.logged)
    | replaced free memory new =>
      refine h.move (fun state eq => absurd eq (new state)) ?_
      rw [memory]
      intro x mem
      rcases List.mem_append.mp mem with old | last
      · exact h.logged x old
      · rw [List.mem_singleton.mp last]
        exact waiting _ rfl
    | written memory new =>
      exact h.move (fun state eq => absurd eq (new state)) (memory ▸ h.logged)

end AcceptedState

end AbletonLink.Link
