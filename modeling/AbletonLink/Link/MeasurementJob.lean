import AbletonLink.Link.Measurement

/-! How a measurement job reports: the listener, the task that finishes it, the timer and the task
that publishes share one buffer of samples and a channel for one result.  Every access to shared
state is one step and may come at any time; a task that is aborted takes no more steps. -/

universe u

namespace AbletonLink.Link

open Library Library.Run Measurement

namespace MeasurementJob

def numberMeasurements : Nat := 5

inductive Listener
  | collecting
  | signalling
  | signalled
  | stopped
  deriving DecidableEq

inductive Completion (α : Type u)
  | waiting
  | marking
  | taking
  | publishing (samples : List α)
  | notifying
  deriving DecidableEq

inductive Publisher (α : Type u)
  | noEndpoint
  | starting
  | sleeping
  | pinging
  | pausing
  | clearing
  | failing
  | receiving
  | closing (samples : List α)
  | forwarding (samples : List α)
  | finished
  deriving DecidableEq

end MeasurementJob

open MeasurementJob

variable {α : Type u}

/-- The last four are there for the laws: everything that was appended, what the timer cleared, what
`finish` took, and every result offered to the terminal channel. -/
structure MeasurementJob (α : Type u) where
  listener : Listener
  completion : Completion α
  publisher : Publisher α
  data : List α
  success : Bool
  started : Nat
  signal : Bool
  notified : Bool
  terminal : Option (List α)
  closed : Bool
  forwarded : List (List α)
  collected : List α
  cleared : List α
  taken : Option (List α)
  published : List (List α)

namespace MeasurementJob

def new (endpoint : Bool) : MeasurementJob α :=
  { listener := if endpoint then .collecting else .stopped
    completion := .waiting
    publisher := if endpoint then .starting else .noEndpoint
    data := []
    success := false
    started := 0
    signal := false
    notified := false
    terminal := none
    closed := false
    forwarded := []
    collected := []
    cleared := []
    taken := none
    published := [] }

def publishSamples (job : MeasurementJob α) (samples : List α) : MeasurementJob α :=
  { job with
    terminal := if job.closed then job.terminal else job.terminal.or (some samples)
    published := job.published ++ [samples] }

inductive Op (α : Type u)
  | append (samples : List α) (current : Bool)
  | signal
  | recvSignal
  | markSuccess
  | take
  | publishTaken
  | notifyFinished
  | initialPing (sent : Bool)
  | wake
  | timerPing (sent : Bool)
  | countMeasurement
  | clear
  | publishFailure
  | notified
  | receive
  | close
  | forward (sent : Bool)
  | reportMissing (sent : Bool)

def listenerStep (job : MeasurementJob α) : Op α → MeasurementJob α
  | .append samples current =>
    if job.listener ≠ .collecting then job
    else if current then
      { job with
        data := job.data ++ samples
        collected := job.collected ++ samples
        listener :=
          if (job.data ++ samples).length > numberDataPoints then .signalling else .collecting }
    else { job with listener := .stopped }
  | .signal =>
    if job.listener ≠ .signalling then job
    else { job with signal := true, listener := .signalled }
  | _ => job

def completionStep (job : MeasurementJob α) : Op α → MeasurementJob α
  | .recvSignal =>
    match job.completion with
    | .waiting =>
      if job.signal then { job with signal := false, completion := .marking } else job
    | _ => job
  | .markSuccess =>
    match job.completion with
    | .marking => { job with success := true, completion := .taking }
    | _ => job
  | .take =>
    match job.completion with
    | .taking =>
      { job with data := [], completion := .publishing job.data, taken := some job.data }
    | _ => job
  | .publishTaken =>
    match job.completion with
    | .publishing samples => { job.publishSamples samples with completion := .notifying }
    | _ => job
  | .notifyFinished =>
    match job.completion with
    | .notifying => { job with notified := true, completion := .waiting }
    | _ => job
  | _ => job

def publisherStep (job : MeasurementJob α) : Op α → MeasurementJob α
  | .initialPing sent =>
    match job.publisher with
    | .starting =>
      if sent then { job with publisher := .sleeping }
      else { job.publishSamples [] with notified := true, publisher := .sleeping }
    | _ => job
  | .wake =>
    match job.publisher with
    | .sleeping =>
      { job with publisher := if job.started < numberMeasurements then .pinging else .clearing }
    | _ => job
  | .timerPing sent =>
    match job.publisher with
    | .pinging =>
      if sent then { job with publisher := .pausing }
      else { job.publishSamples [] with publisher := .receiving }
    | _ => job
  | .countMeasurement =>
    match job.publisher with
    | .pausing => { job with started := job.started + 1, publisher := .sleeping }
    | _ => job
  | .clear =>
    match job.publisher with
    | .clearing =>
      { job with data := [], cleared := job.cleared ++ job.data, publisher := .failing }
    | _ => job
  | .publishFailure =>
    match job.publisher with
    | .failing => { job.publishSamples [] with publisher := .receiving }
    | _ => job
  | .notified =>
    -- The timer can be left only where it waits.
    match job.publisher with
    | .sleeping | .pinging | .pausing | .clearing =>
      if job.notified then { job with notified := false, publisher := .receiving } else job
    | _ => job
  | .receive =>
    match job.publisher, job.terminal with
    | .receiving, some samples => { job with terminal := none, publisher := .closing samples }
    | _, _ => job
  | .close =>
    match job.publisher with
    | .closing samples => { job with closed := true, publisher := .forwarding samples }
    | _ => job
  | .forward sent =>
    match job.publisher with
    | .forwarding samples =>
      { job with
        forwarded := if sent then job.forwarded ++ [samples] else job.forwarded
        publisher := .finished }
    | _ => job
  | .reportMissing sent =>
    match job.publisher with
    | .noEndpoint =>
      { job with
        forwarded := if sent then job.forwarded ++ [[]] else job.forwarded
        published := job.published ++ [[]]
        publisher := .finished }
    | _ => job
  | _ => job

def step (job : MeasurementJob α) : Op α → MeasurementJob α
  | op@(.append ..) | op@.signal => job.listenerStep op
  | op@.recvSignal | op@.markSuccess | op@.take | op@.publishTaken | op@.notifyFinished =>
    job.completionStep op
  | op => job.publisherStep op

/-- What becomes of the samples: they are in the buffer until `finish` takes them, but for those
the timer cleared, and they are published once. -/
structure Collects (job : MeasurementJob α) : Prop where
  unsignalled : job.listener ≠ .signalled →
    job.signal = false ∧ job.completion = .waiting ∧ job.taken = none
  signal : job.signal = true → job.completion = .waiting ∧ job.taken = none
  before : job.completion = .marking ∨ job.completion = .taking →
    job.signal = false ∧ job.taken = none
  enough : job.taken = none → job.listener = .signalling ∨ job.listener = .signalled →
    job.data = [] ∨ numberDataPoints < job.data.length
  buffered : job.taken = none → job.collected = job.cleared ++ job.data
  result : ∀ samples, job.taken = some samples → job.data = [] ∧ job.signal = false ∧
    job.collected = job.cleared ++ samples ∧ (samples = [] ∨ numberDataPoints < samples.length)
  unpublished : job.taken = none → job.published.flatten = []
  holds : ∀ samples, job.completion = .publishing samples →
    job.taken = some samples ∧ job.published.flatten = []
  once : ∀ samples, job.taken = some samples → (∀ held, job.completion ≠ .publishing held) →
    job.published.flatten = samples
  offered : ∀ samples ∈ job.published, samples = [] ∨ job.taken = some samples

structure Forwards (job : MeasurementJob α) : Prop where
  queued : ∀ samples, job.terminal = some samples → samples ∈ job.published
  received : ∀ samples, job.publisher = .closing samples ∨ job.publisher = .forwarding samples →
    samples ∈ job.published
  unfinished : job.publisher ≠ .finished → job.forwarded = []
  single : job.forwarded.length ≤ 1
  offered : job.forwarded ⊆ job.published

section Collects

variable {job : MeasurementJob α}

theorem Collects.new (endpoint : Bool) : (new endpoint : MeasurementJob α).Collects := by
  constructor <;> simp [MeasurementJob.new]

theorem Collects.listenerStep (h : job.Collects) (op : Op α) : (job.listenerStep op).Collects := by
  unfold MeasurementJob.listenerStep
  split
  case h_1 samples current =>
    split
    case isTrue => exact h
    case isFalse collecting =>
      have collecting : job.listener = .collecting := not_not.mp collecting
      obtain ⟨silent, waiting, none⟩ := h.unsignalled (by simp [collecting])
      split
      · have buffered : job.collected ++ samples = job.cleared ++ (job.data ++ samples) := by
          rw [h.buffered none, List.append_assoc]
        refine ⟨fun _ => ⟨silent, waiting, none⟩, fun _ => ⟨waiting, none⟩, h.before, ?_,
          fun _ => buffered, ?_, h.unpublished, h.holds, h.once, h.offered⟩
        · intro _ full
          dsimp only at full ⊢
          split at full
          case isTrue many => exact .inr many
          case isFalse => simp at full
        · intro taken some
          rw [none] at some
          cases some
      · refine ⟨fun _ => ⟨silent, waiting, none⟩, h.signal, h.before, fun _ full => ?_, h.buffered,
          h.result, h.unpublished, h.holds, h.once, h.offered⟩
        simp at full
  case h_2 =>
    split
    case isTrue => exact h
    case isFalse signalling =>
      have signalling : job.listener = .signalling := not_not.mp signalling
      obtain ⟨silent, waiting, none⟩ := h.unsignalled (by simp [signalling])
      refine ⟨fun other => absurd rfl other, fun _ => ⟨waiting, none⟩, ?_,
        fun _ _ => h.enough none (.inl signalling), h.buffered, ?_, h.unpublished, h.holds, h.once,
        h.offered⟩
      · intro early
        simp [waiting] at early
      · intro taken some
        rw [none] at some
        cases some
  case h_3 => exact h

theorem Collects.signalled (h : job.Collects) (working : job.completion ≠ .waiting) :
    job.listener = .signalled := by
  by_contra other
  exact working (h.unsignalled other).2.1

theorem Collects.completionStep (h : job.Collects) (op : Op α) :
    (job.completionStep op).Collects := by
  unfold MeasurementJob.completionStep
  cases op with
  | recvSignal =>
    cases phase : job.completion with
    | waiting =>
      cases signal : job.signal with
      | false => simpa [signal] using h
      | true =>
        have none := (h.signal signal).2
        have listener : job.listener = .signalled := by
          by_contra other
          rw [(h.unsignalled other).1] at signal
          cases signal
        simp only [if_pos]
        exact ⟨fun other => absurd listener other, nofun, fun _ => ⟨rfl, none⟩, h.enough,
          h.buffered, fun taken some => by simp [none] at some, h.unpublished, nofun,
          fun taken some => by simp [none] at some, h.offered⟩
    | _ => exact h
  | markSuccess =>
    cases phase : job.completion with
    | marking =>
      have listener := h.signalled (by simp [phase])
      obtain ⟨silent, none⟩ := h.before (.inl phase)
      exact ⟨fun other => absurd listener other, fun loud => by simp [silent] at loud,
        fun _ => ⟨silent, none⟩, h.enough, h.buffered, h.result, h.unpublished, nofun,
        fun taken some => by simp [none] at some, h.offered⟩
    | _ => exact h
  | take =>
    cases phase : job.completion with
    | taking =>
      have listener := h.signalled (by simp [phase])
      obtain ⟨silent, none⟩ := h.before (.inr phase)
      have empty := h.unpublished none
      refine ⟨fun other => absurd listener other, fun loud => by simp [silent] at loud,
        fun early => by simp at early, nofun, nofun, ?_, nofun, ?_, ?_, ?_⟩
      · intro samples some
        obtain rfl := Option.some.inj some
        exact ⟨rfl, silent, h.buffered none, h.enough none (.inr listener)⟩
      · intro samples holds
        obtain rfl := Completion.publishing.inj holds
        exact ⟨rfl, empty⟩
      · intro samples _ idle
        exact absurd rfl (idle job.data)
      · intro samples offered
        exact .inl (List.flatten_eq_nil_iff.mp empty samples offered)
    | _ => exact h
  | publishTaken =>
    cases phase : job.completion with
    | publishing samples =>
      have listener := h.signalled (by simp [phase])
      obtain ⟨some, empty⟩ := h.holds samples phase
      refine ⟨fun other => absurd listener other, fun loud => ?_, fun early => by simp at early,
        fun none => by simp [MeasurementJob.publishSamples, some] at none,
        fun none => by simp [MeasurementJob.publishSamples, some] at none, h.result,
        fun none => by simp [MeasurementJob.publishSamples, some] at none, nofun, ?_, ?_⟩
      · have silent := (h.result samples some).2.1
        simp [MeasurementJob.publishSamples, silent] at loud
      · intro taken same _
        obtain rfl := Option.some.inj (some.symm.trans same)
        simp [MeasurementJob.publishSamples, empty]
      · intro offered member
        cases List.mem_append.mp member with
        | inl old => exact h.offered offered old
        | inr fresh =>
          obtain rfl := List.mem_singleton.mp fresh
          exact .inr some
    | _ => exact h
  | notifyFinished =>
    cases phase : job.completion with
    | notifying =>
      have listener := h.signalled (by simp [phase])
      have silent : ¬job.signal = true := fun loud => by simp [(h.signal loud).1] at phase
      exact ⟨fun other => absurd listener other, fun loud => absurd loud silent,
        fun early => by simp at early, h.enough, h.buffered, h.result, h.unpublished, nofun,
        fun samples some _ => h.once samples some (by simp [phase]), h.offered⟩
    | _ => exact h
  | _ => exact h

theorem Collects.publishFailure (h : job.Collects) : (job.publishSamples []).Collects where
  unsignalled := h.unsignalled
  signal := h.signal
  before := h.before
  enough := h.enough
  buffered := h.buffered
  result := h.result
  unpublished none := by simpa [MeasurementJob.publishSamples] using h.unpublished none
  holds samples holding := by
    simpa [MeasurementJob.publishSamples] using h.holds samples holding
  once samples some idle := by
    simpa [MeasurementJob.publishSamples] using h.once samples some idle
  offered samples member := by
    cases List.mem_append.mp member with
    | inl old => exact h.offered samples old
    | inr fresh => exact .inl (List.mem_singleton.mp fresh)

theorem Collects.clear (h : job.Collects) :
    Collects { job with data := [], cleared := job.cleared ++ job.data } where
  unsignalled := h.unsignalled
  signal := h.signal
  before := h.before
  enough _ _ := .inl rfl
  buffered none := (h.buffered none).trans (List.append_nil _).symm
  result samples some := by
    obtain ⟨empty, silent, collected, many⟩ := h.result samples some
    refine ⟨rfl, silent, ?_, many⟩
    rw [collected, empty, List.append_nil]
  unpublished := h.unpublished
  holds := h.holds
  once := h.once
  offered := h.offered

theorem Collects.publisherStep (h : job.Collects) (op : Op α) :
    (job.publisherStep op).Collects := by
  have failed := h.publishFailure
  have cleared := h.clear
  -- The publisher's own fields play no part.
  have same {job' : MeasurementJob α} (h : job'.Collects) (publisher : Publisher α)
      (started : Nat) (notified : Bool) (terminal : Option (List α)) (closed : Bool)
      (forwarded : List (List α)) : Collects
        { job' with publisher, started, notified, terminal, closed, forwarded } :=
    ⟨h.unsignalled, h.signal, h.before, h.enough, h.buffered, h.result, h.unpublished, h.holds,
      h.once, h.offered⟩
  unfold MeasurementJob.publisherStep
  repeat' split
  all_goals first | exact h | exact same h .. | exact same failed .. | exact same cleared ..

end Collects

section Forwards

variable {job : MeasurementJob α}

theorem Forwards.new (endpoint : Bool) : (new endpoint : MeasurementJob α).Forwards := by
  constructor <;> simp [MeasurementJob.new]
  cases endpoint <;> simp

theorem Forwards.publishSamples (h : job.Forwards) (samples : List α) :
    (job.publishSamples samples).Forwards where
  queued result terminal := by
    have old (queued : job.terminal = some result) : result ∈ job.published ++ [samples] :=
      List.mem_append_left _ (h.queued result queued)
    unfold MeasurementJob.publishSamples at terminal
    dsimp only at terminal
    split at terminal
    · exact old terminal
    · cases queued : job.terminal with
      | some waiting =>
        rw [queued, Option.some_or] at terminal
        exact old (queued.trans terminal)
      | none =>
        rw [queued, Option.none_or] at terminal
        exact List.mem_append_right _ (List.mem_singleton.mpr (Option.some.inj terminal).symm)
  received result phase := List.mem_append_left _ (h.received result phase)
  unfinished := h.unfinished
  single := h.single
  offered := fun _ member => List.mem_append_left _ (h.offered member)

theorem Forwards.others (h : job.Forwards) (op : Op α) :
    (job.listenerStep op).Forwards ∧ (job.completionStep op).Forwards := by
  have same {job' : MeasurementJob α} (h : job'.Forwards) (listener : Listener)
      (completion : Completion α) (data : List α) (success signal notified : Bool)
      (collected : List α) (taken : Option (List α)) : Forwards
        { job' with listener, completion, data, success, signal, notified, collected, taken } :=
    ⟨h.queued, h.received, h.unfinished, h.single, h.offered⟩
  constructor
  · unfold MeasurementJob.listenerStep
    repeat' split
    all_goals first | exact h | exact same h ..
  · unfold MeasurementJob.completionStep
    repeat' split
    all_goals first | exact h | exact same h .. | exact same (h.publishSamples _) ..

theorem Forwards.forward (h : job.Forwards) (unfinished : job.publisher ≠ .finished)
    {samples : List α} (offered : samples ∈ job.published) (sent : Bool) :
    Forwards { job with
      forwarded := if sent then job.forwarded ++ [samples] else job.forwarded
      publisher := .finished } := by
  have none := h.unfinished unfinished
  refine ⟨h.queued, by simp, fun other => absurd rfl other, ?_, ?_⟩
  · cases sent <;> simp [none]
  · cases sent with
    | false => exact h.offered
    | true => simpa [none] using offered

theorem Forwards.publisherStep (h : job.Forwards) (op : Op α) :
    (job.publisherStep op).Forwards := by
  have failed := h.publishSamples []
  -- A phase that neither holds a result nor ends the job.
  have moves {job' : MeasurementJob α} (h : job'.Forwards) (unfinished : job'.publisher ≠ .finished)
      {publisher : Publisher α} (empty : ∀ samples, publisher ≠ .closing samples ∧
        publisher ≠ .forwarding samples) (data cleared : List α) (started : Nat)
      (notified : Bool) : Forwards { job' with publisher, data, cleared, started, notified } :=
    ⟨h.queued, fun samples phase => phase.elim (absurd · (empty samples).1)
      (absurd · (empty samples).2), fun _ => h.unfinished unfinished, h.single, h.offered⟩
  unfold MeasurementJob.publisherStep
  cases op with
  | receive =>
    cases phase : job.publisher with
    | receiving =>
      cases queued : job.terminal with
      | none => simpa only [phase, queued] using h
      | some samples =>
        refine ⟨nofun, fun result phase => ?_, fun _ => h.unfinished (by simp [phase]), h.single,
          h.offered⟩
        obtain rfl : samples = result := by simpa using phase
        exact h.queued samples queued
    | _ => exact h
  | close =>
    cases phase : job.publisher with
    | closing samples =>
      refine ⟨h.queued, fun result other => ?_, fun _ => h.unfinished (by simp [phase]), h.single,
        h.offered⟩
      obtain rfl : samples = result := by simpa using other
      exact h.received samples (.inl phase)
    | _ => exact h
  | forward sent =>
    cases phase : job.publisher with
    | forwarding samples =>
      exact h.forward (by simp [phase]) (h.received samples (.inr phase)) sent
    | _ => exact h
  | reportMissing sent =>
    cases phase : job.publisher with
    | noEndpoint =>
      have offered : Forwards { job with published := job.published ++ [[]] } :=
        ⟨fun samples queued => List.mem_append_left _ (h.queued samples queued),
          fun samples other => List.mem_append_left _ (h.received samples other), h.unfinished,
          h.single, fun _ member => List.mem_append_left _ (h.offered member)⟩
      exact offered.forward (by simp [phase])
        (List.mem_append_right _ (List.mem_singleton_self _)) sent
    | _ => exact h
  | initialPing sent =>
    cases phase : job.publisher with
    | starting =>
      cases sent with
      | true => exact moves h (by simp [phase]) (fun _ => by simp) ..
      | false =>
        exact moves failed (by simp [phase, MeasurementJob.publishSamples]) (fun _ => by simp) ..
    | _ => exact h
  | wake =>
    cases phase : job.publisher with
    | sleeping => exact moves h (by simp [phase]) (fun _ => by split <;> simp) ..
    | _ => exact h
  | timerPing sent =>
    cases phase : job.publisher with
    | pinging =>
      cases sent with
      | true => exact moves h (by simp [phase]) (fun _ => by simp) ..
      | false =>
        exact moves failed (by simp [phase, MeasurementJob.publishSamples]) (fun _ => by simp) ..
    | _ => exact h
  | countMeasurement =>
    cases phase : job.publisher with
    | pausing => exact moves h (by simp [phase]) (fun _ => by simp) ..
    | _ => exact h
  | clear =>
    cases phase : job.publisher with
    | clearing => exact moves h (by simp [phase]) (fun _ => by simp) ..
    | _ => exact h
  | publishFailure =>
    cases phase : job.publisher with
    | failing =>
      exact moves failed (by simp [phase, MeasurementJob.publishSamples]) (fun _ => by simp) ..
    | _ => exact h
  | notified =>
    cases phase : job.publisher with
    | sleeping | pinging | pausing | clearing =>
      dsimp only
      split
      · exact moves h (by simp [phase]) (fun _ => by simp) ..
      · exact h
    | _ => exact h
  | _ => exact h

end Forwards

variable {job : MeasurementJob α}

theorem keeps_step (h : job.Collects ∧ job.Forwards) (op : Op α) :
    (job.step op).Collects ∧ (job.step op).Forwards := by
  obtain ⟨collects, forwards⟩ := h
  unfold step
  split
  case h_1 | h_2 => exact ⟨collects.listenerStep _, (forwards.others _).1⟩
  case h_3 | h_4 | h_5 | h_6 | h_7 => exact ⟨collects.completionStep _, (forwards.others _).2⟩
  case h_8 => exact ⟨collects.publisherStep op, forwards.publisherStep op⟩

/-- A job forwards one result at most.  It is empty, or more than `NUMBER_DATA_POINTS` samples: all
that were appended, but for those that the timer had cleared.  No sample is in two results. -/
theorem reports_once (endpoint : Bool) (ops : List (Op α)) :
    let job := run step (new endpoint) ops
    job.forwarded.length ≤ 1 ∧
    (∀ samples ∈ job.forwarded, samples = [] ∨
      numberDataPoints < samples.length ∧ job.collected = job.cleared ++ samples) ∧
    job.forwarded ⊆ job.published ∧ job.published.flatten.Sublist job.collected := by
  intro job
  obtain ⟨collects, forwards⟩ : job.Collects ∧ job.Forwards :=
    run_keeps (I := fun job : MeasurementJob α => job.Collects ∧ job.Forwards)
      (fun _ op h => keeps_step h op) ops ⟨Collects.new endpoint, Forwards.new endpoint⟩
  refine ⟨forwards.single, fun samples member => ?_, forwards.offered, ?_⟩
  · by_cases empty : samples = []
    · exact .inl empty
    · have taken := (collects.offered samples (forwards.offered member)).resolve_left empty
      obtain ⟨-, -, collected, many⟩ := collects.result samples taken
      exact .inr ⟨many.resolve_left empty, collected⟩
  · cases taken : job.taken with
    | none =>
      rw [collects.unpublished taken]
      exact List.nil_sublist _
    | some samples =>
      obtain ⟨-, -, collected, -⟩ := collects.result samples taken
      rw [collected]
      refine List.Sublist.trans ?_ (List.sublist_append_right _ _)
      by_cases holding : ∃ held, job.completion = .publishing held
      · obtain ⟨held, phase⟩ := holding
        rw [(collects.holds held phase).2]
        exact List.nil_sublist _
      · rw [collects.once samples taken (not_exists.mp holding)]

def lateSamples : List (Op Nat) :=
  .initialPing true ::
    (List.replicate numberMeasurements [Op.wake, .timerPing true, .countMeasurement]).flatten ++
    [Op.append [0] true, .wake, .clear] ++
    (List.range 21).map (fun n => Op.append [n + 1] true) ++
    [Op.signal, .recvSignal, .markSuccess, .take, .publishTaken, .publishFailure, .receive, .close,
      .forward true]

theorem lateSamples_incomplete :
    let job := run step (new true) lateSamples
    job.forwarded = [(List.range 21).map (· + 1)] ∧ job.collected = List.range 22 ∧
      ¬∀ samples ∈ job.forwarded,
        samples = [] ∨ numberDataPoints < samples.length ∧ samples = job.collected := by
  decide +kernel

end MeasurementJob

theorem Measurement.append_job (m : Measurement) (job : MeasurementJob (Float × Float))
    (data : job.data = m.data) (listening : job.listener = .collecting) (pong : Nat)
    (current : Bool) (samples : List (Float × Float)) :
    (m.append pong current samples).data = (job.listenerStep (.append samples current)).data ∧
      ((m.append pong current samples).listening = true ↔
        (job.listenerStep (.append samples current)).listener = .collecting) := by
  have free : ¬job.listener ≠ .collecting := not_not.mpr listening
  cases current with
  | true =>
    simp only [Measurement.append, MeasurementJob.listenerStep, if_neg free, if_true, data]
    exact ⟨trivial, by split <;> simp_all⟩
  | false => simp [Measurement.append, MeasurementJob.listenerStep, free, data]

end AbletonLink.Link
