import AbletonLink.Library.Run
import AbletonLink.Link.SessionsLaws

/-! The queue of one proposal between the audio thread and the commit worker.  Every lock region
of the handler is one step; `locked` is whether a `try_lock` finds the mutex taken. -/

namespace AbletonLink.Link

open Library Library.Run

structure AudioCommitTicket where
  queue : Nat
  sequence : Nat
  deriving DecidableEq

inductive AudioQueueError
  | busy
  | ticketExhausted
  | unknownTicket
  deriving DecidableEq

abbrev CommitResult := Except CommitError Unit

structure PendingUpdate where
  sequence : Nat
  incoming : Option IncomingClientState
  result : Option CommitResult
  origin : Option SessionEditOrigin

structure RtHandler where
  queueId : Option Nat
  hasPendingUpdates : Bool
  pending : PendingUpdate

namespace RtHandler

/-- `SafeRtSessionStateHandler::new`; the queue id comes from the revision counter. -/
def new (supply : Supply) : RtHandler × Supply :=
  let (queueId, supply) := supply.newEditRevision
  ({ queueId, hasPendingUpdates := false,
     pending := { sequence := 0, incoming := none, result := none, origin := none } }, supply)

def updateRtClientStateFromOrigin (self : RtHandler) (locked : Bool)
    (incoming : IncomingClientState) (origin : Option SessionEditOrigin) :
    Except AudioQueueError AudioCommitTicket × RtHandler :=
  match self.queueId with
  | none => (.error .ticketExhausted, self)
  | some queue =>
    if locked then (.error .busy, self)
    else if self.pending.incoming.isSome || self.pending.result.isSome then (.error .busy, self)
    else if self.pending.sequence + 1 < 2 ^ 64 then
      let sequence := self.pending.sequence + 1
      (.ok ⟨queue, sequence⟩,
        { self with
          hasPendingUpdates := true
          pending := { self.pending with sequence, incoming := some incoming, origin } })
    else (.error .ticketExhausted, self)

def pendingUpdateFromOrigin (self : RtHandler) :
    Option (AudioCommitTicket × IncomingClientState × Option SessionEditOrigin) :=
  match self.queueId with
  | none => none
  | some queue =>
    self.pending.incoming.map fun incoming =>
      (⟨queue, self.pending.sequence⟩, incoming, self.pending.origin)

def completePendingUpdate (self : RtHandler) (ticket : AudioCommitTicket) (result : CommitResult) :
    Bool × RtHandler :=
  if self.queueId ≠ some ticket.queue then (false, self)
  else if ticket.sequence ≠ self.pending.sequence ∨ self.pending.incoming.isNone then (false, self)
  else
    (true,
      { self with
        hasPendingUpdates := false
        pending := { self.pending with incoming := none, origin := none, result := some result } })

def takeCommitResult (self : RtHandler) (locked : Bool) (ticket : AudioCommitTicket) :
    Except AudioQueueError (Option CommitResult) × RtHandler :=
  if self.queueId ≠ some ticket.queue then (.error .unknownTicket, self)
  else if locked then (.error .busy, self)
  else if ticket.sequence ≠ self.pending.sequence then (.error .unknownTicket, self)
  else if self.pending.incoming.isSome then (.ok none, self)
  else
    match self.pending.result with
    | some result =>
      (.ok (some result), { self with pending := { self.pending with result := none } })
    | none => (.error .unknownTicket, self)

def outstandingCommitTicket (self : RtHandler) (locked : Bool) :
    Except AudioQueueError (Option AudioCommitTicket) :=
  match self.queueId with
  | none => .ok none
  | some queue =>
    if locked then .error .busy
    else if self.pending.incoming.isSome || self.pending.result.isSome then
      .ok (some ⟨queue, self.pending.sequence⟩)
    else .ok none

theorem update_cases (self : RtHandler) (locked : Bool) (incoming : IncomingClientState)
    (origin : Option SessionEditOrigin) :
    (∃ error, self.updateRtClientStateFromOrigin locked incoming origin = (.error error, self)) ∨
      ∃ queue, self.queueId = some queue ∧ self.pending.incoming = none ∧
        self.pending.result = none ∧
        self.updateRtClientStateFromOrigin locked incoming origin =
          (.ok ⟨queue, self.pending.sequence + 1⟩,
            { self with
              hasPendingUpdates := true
              pending := { sequence := self.pending.sequence + 1, incoming := some incoming,
                           result := none, origin } }) := by
  unfold updateRtClientStateFromOrigin
  cases named : self.queueId with
  | none => exact .inl ⟨_, rfl⟩
  | some queue =>
    dsimp only
    split
    · exact .inl ⟨_, rfl⟩
    · split
      · exact .inl ⟨_, rfl⟩
      · rename_i occupied
        simp only [Bool.or_eq_true, not_or, Bool.not_eq_true, Option.isSome_eq_false_iff,
          Option.isNone_iff_eq_none] at occupied
        split
        · refine .inr ⟨queue, rfl, occupied.1, occupied.2, ?_⟩
          rw [occupied.2]
        · exact .inl ⟨_, rfl⟩

theorem complete_cases (self : RtHandler) (ticket : AudioCommitTicket) (result : CommitResult) :
    (¬ (self.queueId = some ticket.queue ∧ ticket.sequence = self.pending.sequence ∧
          self.pending.incoming.isSome = true) ∧
        self.completePendingUpdate ticket result = (false, self)) ∨
      (self.queueId = some ticket.queue ∧ ticket.sequence = self.pending.sequence ∧
        self.pending.incoming.isSome = true ∧
        self.completePendingUpdate ticket result =
          (true,
            { self with
              hasPendingUpdates := false
              pending := { sequence := self.pending.sequence, incoming := none,
                           result := some result, origin := none } })) := by
  unfold completePendingUpdate
  by_cases named : self.queueId = some ticket.queue
  · by_cases same : ticket.sequence = self.pending.sequence
    · cases held : self.pending.incoming with
      | none => exact .inl ⟨fun h => by simp at h, by simp [named]⟩
      | some _ => exact .inr ⟨named, same, rfl, by simp [named, same]⟩
    · exact .inl ⟨fun h => same h.2.1, by simp [named, same]⟩
  · exact .inl ⟨fun h => named h.1, by simp [named]⟩

theorem take_cases (self : RtHandler) (locked : Bool) (ticket : AudioCommitTicket) :
    (∃ error, self.takeCommitResult locked ticket = (.error error, self) ∧
        (error = .busy ∧ locked = true ∨ error = .unknownTicket ∧
          ¬ (self.queueId = some ticket.queue ∧ ticket.sequence = self.pending.sequence ∧
            (self.pending.incoming.isSome || self.pending.result.isSome) = true))) ∨
      (self.takeCommitResult locked ticket = (.ok none, self) ∧
        self.queueId = some ticket.queue ∧ ticket.sequence = self.pending.sequence ∧
        self.pending.incoming.isSome = true) ∨
      ∃ result, self.queueId = some ticket.queue ∧ ticket.sequence = self.pending.sequence ∧
        self.pending.incoming = none ∧ self.pending.result = some result ∧ locked = false ∧
        self.takeCommitResult locked ticket =
          (.ok (some result), { self with pending := { self.pending with result := none } }) := by
  unfold takeCommitResult
  by_cases named : self.queueId = some ticket.queue
  · cases locked with
    | true => exact .inl ⟨.busy, by simp [named], .inl ⟨rfl, rfl⟩⟩
    | false =>
      by_cases same : ticket.sequence = self.pending.sequence
      · cases held : self.pending.incoming with
        | some _ => exact .inr (.inl ⟨by simp [named, same], named, same, rfl⟩)
        | none =>
          cases done : self.pending.result with
          | some result =>
            exact .inr (.inr ⟨result, named, same, rfl, rfl, rfl, by simp [named, same, held]⟩)
          | none => exact .inl ⟨.unknownTicket, by simp [named, same], .inr ⟨rfl, by simp⟩⟩
      · exact .inl ⟨.unknownTicket, by simp [named, same], .inr ⟨rfl, fun h => same h.2.1⟩⟩
  · exact .inl ⟨.unknownTicket, by simp [named], .inr ⟨rfl, fun h => named h.1⟩⟩

end RtHandler

inductive TicketOp
  | update (locked : Bool) (incoming : IncomingClientState) (origin : Option SessionEditOrigin)
  | pendingUpdate
  | complete (ticket : AudioCommitTicket) (result : CommitResult)
  | take (locked : Bool) (ticket : AudioCommitTicket)
  | outstanding (locked : Bool)

/-- A handler beside what its callers were answered so far: the tickets `update` returned, the
results `complete` accepted and the results `take` delivered. -/
structure Ledger where
  handler : RtHandler
  issued : List AudioCommitTicket
  completed : List (AudioCommitTicket × CommitResult)
  taken : List (AudioCommitTicket × CommitResult)

namespace Ledger

def step (l : Ledger) : TicketOp → Ledger
  | .update locked incoming origin =>
    let (answer, handler) := l.handler.updateRtClientStateFromOrigin locked incoming origin
    { l with handler, issued := l.issued ++ answer.toOption.toList }
  | .complete ticket result =>
    let (accepted, handler) := l.handler.completePendingUpdate ticket result
    { l with handler, completed := l.completed ++ if accepted then [(ticket, result)] else [] }
  | .take locked ticket =>
    let (answer, handler) := l.handler.takeCommitResult locked ticket
    { l with handler, taken := l.taken ++ answer.toOption.join.toList.map (ticket, ·) }
  | .pendingUpdate | .outstanding _ => l

def queue (l : Ledger) : Nat := l.handler.queueId.getD 0

def current (l : Ledger) : AudioCommitTicket := ⟨l.queue, l.handler.pending.sequence⟩

/-- The slot holds what lies between the three records: a request that is issued and not
completed, or a result that is completed and not taken, never both. -/
structure Balanced (l : Ledger) : Prop where
  issued : l.issued = (List.range' 1 l.handler.pending.sequence).map (⟨l.queue, ·⟩)
  completed : l.issued = l.completed.map Prod.fst ++
    l.handler.pending.incoming.toList.map fun _ => l.current
  taken : l.completed = l.taken ++ l.handler.pending.result.toList.map (l.current, ·)
  single : l.handler.pending.incoming = none ∨ l.handler.pending.result = none
  named : l.handler.queueId = none → l.issued = []

theorem queue_eq {l : Ledger} {queue : Nat} (h : l.handler.queueId = some queue) :
    l.queue = queue := by
  rw [Ledger.queue, h, Option.getD_some]

theorem current_eq {l : Ledger} {ticket : AudioCommitTicket}
    (named : l.handler.queueId = some ticket.queue)
    (same : ticket.sequence = l.handler.pending.sequence) : l.current = ticket := by
  rw [current, queue_eq named, ← same]

theorem queueId_step (l : Ledger) (op : TicketOp) :
    (l.step op).handler.queueId = l.handler.queueId := by
  cases op with
  | update locked incoming origin =>
    rcases l.handler.update_cases locked incoming origin with ⟨_, h⟩ | ⟨_, -, -, -, h⟩ <;>
      simp only [step, h]
  | complete ticket result =>
    rcases l.handler.complete_cases ticket result with ⟨-, h⟩ | ⟨-, -, -, h⟩ <;>
      simp only [step, h]
  | take locked ticket =>
    rcases l.handler.take_cases locked ticket with ⟨_, h, -⟩ | ⟨h, -⟩ | ⟨_, -, -, -, -, -, h⟩ <;>
      simp only [step, h]
  | pendingUpdate => rfl
  | outstanding locked => rfl

theorem Balanced.update {l : Ledger} (h : l.Balanced) (locked : Bool)
    (incoming : IncomingClientState) (origin : Option SessionEditOrigin) :
    (l.step (.update locked incoming origin)).Balanced := by
  rcases l.handler.update_cases locked incoming origin with
    ⟨_, eq⟩ | ⟨queue, named, empty, free, eq⟩
  · simp only [step, eq, Except.toOption, Option.toList_none, List.append_nil]
    exact h
  · have issued := h.issued
    have completed := h.completed
    have taken := h.taken
    rw [queue_eq named] at issued
    rw [empty, Option.toList_none, List.map_nil, List.append_nil] at completed
    rw [free, Option.toList_none, List.map_nil, List.append_nil] at taken
    have own : (l.step (.update locked incoming origin)).queue = queue := by
      rw [Ledger.queue, queueId_step, named, Option.getD_some]
    refine ⟨?_, ?_, ?_, ?_, fun none => ?_⟩
    · rw [own]
      simp only [step, eq, Except.toOption, Option.toList_some]
      rw [List.range'_1_concat, List.map_append, ← issued, Nat.add_comm 1]
      rfl
    · rw [current, own]
      simp only [step, eq, Except.toOption, Option.toList_some, List.map_cons, List.map_nil]
      rw [completed]
    · simp only [step, eq, Option.toList_none, List.map_nil, List.append_nil]
      exact taken
    · simp only [step, eq, or_true]
    · rw [queueId_step, named] at none
      cases none

theorem Balanced.complete {l : Ledger} (h : l.Balanced) (ticket : AudioCommitTicket)
    (result : CommitResult) : (l.step (.complete ticket result)).Balanced := by
  rcases l.handler.complete_cases ticket result with ⟨-, eq⟩ | ⟨named, same, held, eq⟩
  · simp only [step, eq, Bool.false_eq_true, if_false, List.append_nil]
    exact h
  · obtain ⟨incoming, held⟩ := Option.isSome_iff_exists.mp held
    have own := current_eq named same
    have free : l.handler.pending.result = none := h.single.resolve_left (by simp [held])
    have issued := h.issued
    have completed := h.completed
    have taken := h.taken
    rw [queue_eq named] at issued
    rw [held, own] at completed
    rw [free, Option.toList_none, List.map_nil, List.append_nil] at taken
    have queue : (l.step (.complete ticket result)).queue = ticket.queue := by
      rw [Ledger.queue, queueId_step, named, Option.getD_some]
    have here : (l.step (.complete ticket result)).current = ticket := by
      rw [current, queue]
      simp only [step, eq, ← same]
    refine ⟨?_, ?_, ?_, ?_, fun none => ?_⟩
    · rw [queue]
      simp only [step, eq]
      exact issued
    · simp only [step, eq, if_true, Option.toList_none, List.map_nil, List.append_nil,
        List.map_append, List.map_cons]
      exact completed
    · rw [here]
      simp only [step, eq, if_true, Option.toList_some, List.map_cons, List.map_nil]
      rw [taken]
    · simp only [step, eq, true_or]
    · rw [queueId_step, named] at none
      cases none

theorem Balanced.take {l : Ledger} (h : l.Balanced) (locked : Bool) (ticket : AudioCommitTicket) :
    (l.step (.take locked ticket)).Balanced := by
  rcases l.handler.take_cases locked ticket with
    ⟨_, eq, -⟩ | ⟨eq, -⟩ | ⟨result, named, same, empty, done, -, eq⟩
  · simp only [step, eq, Except.toOption, Option.join_none, Option.toList_none, List.map_nil,
      List.append_nil]
    exact h
  · simp only [step, eq, Except.toOption, Option.join_some, Option.toList_none, List.map_nil,
      List.append_nil]
    exact h
  · have own := current_eq named same
    have taken := h.taken
    rw [done, own] at taken
    have queue : (l.step (.take locked ticket)).queue = l.queue := by
      rw [Ledger.queue, Ledger.queue, queueId_step]
    refine ⟨?_, ?_, ?_, ?_, fun none => ?_⟩
    · rw [queue]
      simp only [step, eq]
      exact h.issued
    · have completed := h.completed
      rw [empty] at completed
      simp only [step, eq, empty]
      exact completed
    · simp only [step, eq, Except.toOption, Option.join_some, Option.toList_some,
        Option.toList_none, List.map_cons, List.map_nil, List.append_nil]
      exact taken
    · simp only [step, eq, or_true]
    · rw [queueId_step, named] at none
      cases none

theorem Balanced.step {l : Ledger} (h : l.Balanced) (op : TicketOp) : (l.step op).Balanced := by
  cases op with
  | update locked incoming origin => exact h.update locked incoming origin
  | complete ticket result => exact h.complete ticket result
  | take locked ticket => exact h.take locked ticket
  | pendingUpdate => exact h
  | outstanding locked => exact h

theorem Balanced.nodup {l : Ledger} (h : l.Balanced) : l.issued.Nodup := by
  rw [h.issued]
  exact List.Nodup.map (fun a b same => congrArg AudioCommitTicket.sequence same) List.nodup_range'

theorem Balanced.completed_initial {l : Ledger} (h : l.Balanced) :
    l.completed.map Prod.fst <+: l.issued :=
  ⟨_, h.completed.symm⟩

theorem Balanced.taken_initial {l : Ledger} (h : l.Balanced) : l.taken <+: l.completed :=
  ⟨_, h.taken.symm⟩

theorem Balanced.outstanding {l : Ledger} (h : l.Balanced) {ticket : AudioCommitTicket}
    (issued : ticket ∈ l.issued) (open_ : ticket ∉ l.taken.map Prod.fst) :
    ticket = l.current ∧
      (l.handler.pending.incoming.isSome || l.handler.pending.result.isSome) = true := by
  rw [h.completed, h.taken] at issued
  simp only [List.map_append, List.mem_append, List.mem_map, Option.mem_toList,
    List.map_map, Function.comp_apply] at issued
  rcases issued with (taken | ⟨_, done, rfl⟩) | ⟨_, held, rfl⟩
  · exact absurd (List.mem_map.mpr taken) open_
  · exact ⟨rfl, by simp [Option.mem_def.mp done]⟩
  · exact ⟨rfl, by simp [Option.mem_def.mp held]⟩

theorem Balanced.current_mem {l : Ledger} (h : l.Balanced)
    (occupied : (l.handler.pending.incoming.isSome || l.handler.pending.result.isSome) = true) :
    l.current ∈ l.issued ∧ l.current ∉ l.taken.map Prod.fst ∧
      (l.handler.pending.incoming.isSome = true → l.current ∉ l.completed.map Prod.fst) := by
  have nodup := h.nodup
  have completed := h.completed
  cases held : l.handler.pending.incoming with
  | some incoming =>
    rw [held] at completed
    rw [completed] at nodup ⊢
    have fresh : l.current ∉ l.completed.map Prod.fst := fun mem =>
      (List.nodup_append.mp nodup).2.2 _ mem _ (List.mem_singleton.mpr rfl) rfl
    refine ⟨List.mem_append_right _ (List.mem_singleton.mpr rfl), fun mem => fresh ?_,
      fun _ => fresh⟩
    exact (h.taken_initial.map Prod.fst).subset mem
  | none =>
    rw [held, Option.isSome_none, Bool.false_or] at occupied
    obtain ⟨result, done⟩ := Option.isSome_iff_exists.mp occupied
    have taken := h.taken
    rw [done] at taken
    rw [held, taken] at completed
    simp only [Option.toList_some, Option.toList_none, List.map_append, List.map_cons,
      List.map_nil, List.append_nil] at completed
    rw [completed] at nodup ⊢
    refine ⟨List.mem_append_right _ (List.mem_singleton.mpr rfl), fun mem => ?_, fun held => ?_⟩
    · exact (List.nodup_append.mp nodup).2.2 _ mem _ (List.mem_singleton.mpr rfl) rfl
    · cases held

theorem request_kept (l : Ledger) (op : TicketOp)
    {request : AudioCommitTicket × IncomingClientState × Option SessionEditOrigin}
    (peeked : l.handler.pendingUpdateFromOrigin = some request) :
    (l.step op).handler.pendingUpdateFromOrigin = some request ∨
      ∃ result, op = .complete request.1 result := by
  have occupied : l.handler.pending.incoming.isSome = true := by
    cases held : l.handler.pending.incoming with
    | some _ => rfl
    | none =>
      cases named : l.handler.queueId <;> simp [RtHandler.pendingUpdateFromOrigin, *] at peeked
  cases op with
  | update locked incoming origin =>
    rcases l.handler.update_cases locked incoming origin with ⟨_, h⟩ | ⟨_, -, empty, -⟩
    · simp only [step, h]
      exact .inl peeked
    · simp [empty] at occupied
  | complete ticket result =>
    rcases l.handler.complete_cases ticket result with ⟨-, h⟩ | ⟨named, same, -⟩
    · simp only [step, h]
      exact .inl peeked
    · right
      obtain ⟨incoming, held⟩ := Option.isSome_iff_exists.mp occupied
      simp only [RtHandler.pendingUpdateFromOrigin, named, held, Option.map_some,
        Option.some.injEq, ← same] at peeked
      exact ⟨result, by rw [← peeked]⟩
  | take locked ticket =>
    rcases l.handler.take_cases locked ticket with ⟨_, h, -⟩ | ⟨h, -⟩ | ⟨_, -, -, empty, -⟩
    · simp only [step, h]
      exact .inl peeked
    · simp only [step, h]
      exact .inl peeked
    · simp [empty] at occupied
  | pendingUpdate => exact .inl peeked
  | outstanding locked => exact .inl peeked

theorem Balanced.complete_eq {l : Ledger} (h : l.Balanced) {ticket : AudioCommitTicket}
    (spent : ticket ∉ l.issued ∨ ticket ∈ l.completed.map Prod.fst) (result : CommitResult) :
    l.handler.completePendingUpdate ticket result = (false, l.handler) := by
  rcases l.handler.complete_cases ticket result with ⟨-, eq⟩ | ⟨named, same, held, -⟩
  · exact eq
  · have current := h.current_mem (by simp [held])
    rw [current_eq named same] at current
    cases spent with
    | inl foreign => exact absurd current.1 foreign
    | inr completed => exact absurd completed (current.2.2 held)

theorem Balanced.take_error {l : Ledger} (h : l.Balanced) {ticket : AudioCommitTicket}
    (spent : ticket ∉ l.issued ∨ ticket ∈ l.taken.map Prod.fst) (locked : Bool) :
    ∃ error, l.handler.takeCommitResult locked ticket = (.error error, l.handler) := by
  have absent (named : l.handler.queueId = some ticket.queue)
      (same : ticket.sequence = l.handler.pending.sequence)
      (occupied : (l.handler.pending.incoming.isSome || l.handler.pending.result.isSome) = true) :
      False := by
    have current := h.current_mem occupied
    rw [current_eq named same] at current
    exact spent.elim (fun foreign => foreign current.1) current.2.1
  rcases l.handler.take_cases locked ticket with
    ⟨error, eq, -⟩ | ⟨-, named, same, held⟩ | ⟨_, named, same, -, done, -⟩
  · exact ⟨error, eq⟩
  · exact (absent named same (by simp [held])).elim
  · exact (absent named same (by simp [done])).elim

theorem Balanced.take_ok {l : Ledger} (h : l.Balanced) {ticket : AudioCommitTicket}
    {result : CommitResult} (done : (ticket, result) ∈ l.completed)
    (open_ : ticket ∉ l.taken.map Prod.fst) :
    (l.handler.takeCommitResult false ticket).1 = .ok (some result) := by
  rw [h.taken, List.mem_append] at done
  cases done with
  | inl taken => exact absurd (List.mem_map_of_mem taken) open_
  | inr held =>
    obtain ⟨stored, hstored, same⟩ := List.mem_map.mp held
    have stored_eq := Option.mem_toList.mp hstored
    cases same
    have empty : l.handler.pending.incoming = none :=
      h.single.resolve_right (by rw [Option.mem_def.mp stored_eq]; simp)
    have named : l.handler.queueId = some l.queue := by
      cases named : l.handler.queueId with
      | some queue => rw [queue_eq named]
      | none =>
        have current := (h.current_mem (by simp [Option.mem_def.mp stored_eq])).1
        rw [h.named named] at current
        cases current
    simp [RtHandler.takeCommitResult, current, named, empty, Option.mem_def.mp stored_eq]

end Ledger

/-- The handlers of a process and the counter their queue ids come from.  `elsewhere` is a session
drawing a revision. -/
structure RtHandlers where
  ledgers : List Ledger
  supply : Supply

inductive RtOp
  | new
  | elsewhere
  | on (index : Nat) (op : TicketOp)

namespace RtHandlers

def step (s : RtHandlers) : RtOp → RtHandlers
  | .new =>
    let (handler, supply) := RtHandler.new s.supply
    { ledgers := s.ledgers ++ [⟨handler, [], [], []⟩], supply }
  | .elsewhere => { s with supply := s.supply.newEditRevision.2 }
  | .on index op => { s with ledgers := s.ledgers.modify index (Ledger.step · op) }

def queues (s : RtHandlers) : List Nat := s.ledgers.filterMap (·.handler.queueId)

structure Sound (s : RtHandlers) : Prop where
  balanced : ∀ l ∈ s.ledgers, l.Balanced
  distinct : s.queues.Nodup
  drawn : ∀ queue ∈ s.queues, queue < s.supply.revisions

theorem queues_modify (ledgers : List Ledger) (index : Nat) (op : TicketOp) :
    (ledgers.modify index (Ledger.step · op)).filterMap (·.handler.queueId) =
      ledgers.filterMap (·.handler.queueId) := by
  induction ledgers generalizing index with
  | nil => simp
  | cons l ledgers ih =>
    cases index with
    | zero => simp [List.filterMap_cons, l.queueId_step op]
    | succ index => simp [List.filterMap_cons, ih]

theorem balanced_modify {ledgers : List Ledger} (h : ∀ l ∈ ledgers, l.Balanced) (index : Nat)
    (op : TicketOp) : ∀ l ∈ ledgers.modify index (Ledger.step · op), l.Balanced := by
  induction ledgers generalizing index with
  | nil => simp
  | cons l ledgers ih =>
    obtain ⟨here, rest⟩ := List.forall_mem_cons.mp h
    cases index with
    | zero => exact List.forall_mem_cons.mpr ⟨here.step op, rest⟩
    | succ index => exact List.forall_mem_cons.mpr ⟨here, ih rest index⟩

theorem queues_new (s : RtHandlers) :
    (s.step .new).queues = s.queues ++ s.supply.newEditRevision.1.toList := by
  have fresh : (s.step .new).ledgers =
    s.ledgers ++ [⟨(RtHandler.new s.supply).1, [], [], []⟩] := rfl
  have named : (RtHandler.new s.supply).1.queueId = s.supply.newEditRevision.1 := rfl
  rw [queues, fresh, List.filterMap_append, List.filterMap_cons, named]
  cases s.supply.newEditRevision.1 <;> rfl

theorem Sound.step {s : RtHandlers} (h : s.Sound) (op : RtOp) : (s.step op).Sound := by
  have extends_ := s.supply.newEditRevision_extends
  cases op with
  | new =>
    have drawn := s.supply.newEditRevision_drawn
    refine ⟨?_, ?_, ?_⟩
    · intro l hl
      cases List.mem_append.mp hl with
      | inl old => exact h.balanced l old
      | inr new =>
        rw [List.mem_singleton.mp new]
        exact ⟨rfl, rfl, rfl, .inl rfl, fun _ => rfl⟩
    · rw [queues_new, List.nodup_append]
      refine ⟨h.distinct, ?_, ?_⟩
      · cases s.supply.newEditRevision.1 <;> simp
      · intro a ha b hb
        have below := h.drawn a ha
        have above := (drawn b (Option.mem_toList.mp hb)).1
        omega
    · intro queue hq
      rw [queues_new, List.mem_append] at hq
      cases hq with
      | inl old => exact Nat.lt_of_lt_of_le (h.drawn queue old) extends_.revisions
      | inr new => exact (drawn queue (Option.mem_toList.mp new)).2
  | elsewhere =>
    exact ⟨h.balanced, h.distinct, fun queue hq =>
      Nat.lt_of_lt_of_le (h.drawn queue hq) extends_.revisions⟩
  | on index op =>
    have queues : (s.step (.on index op)).queues = s.queues := queues_modify s.ledgers index op
    refine ⟨balanced_modify h.balanced index op, ?_, ?_⟩
    · rw [queues]
      exact h.distinct
    · rw [queues]
      exact h.drawn

theorem Sound.issued_nodup {s : RtHandlers} (h : s.Sound) :
    (s.ledgers.flatMap Ledger.issued).Nodup := by
  obtain ⟨balanced, distinct, -⟩ := h
  unfold queues at distinct
  generalize s.ledgers = ledgers at balanced distinct
  induction ledgers with
  | nil => exact List.nodup_nil
  | cons l ledgers ih =>
    obtain ⟨here, rest⟩ := List.forall_mem_cons.mp balanced
    rw [List.filterMap_cons] at distinct
    rw [List.flatMap_cons, List.nodup_append]
    cases named : l.handler.queueId with
    | none =>
      rw [named] at distinct
      rw [here.named named]
      exact ⟨List.nodup_nil, ih rest distinct, by simp⟩
    | some queue =>
      rw [named] at distinct
      obtain ⟨apart, distinct⟩ := List.nodup_cons.mp distinct
      refine ⟨here.nodup, ih rest distinct, ?_⟩
      -- Tickets of different handlers differ in their queue.
      rintro a ha b hb rfl
      obtain ⟨other, hother, hb⟩ := List.mem_flatMap.mp hb
      have balanced := rest other hother
      rw [here.issued, Ledger.queue_eq named] at ha
      obtain ⟨_, -, rfl⟩ := List.mem_map.mp ha
      cases named' : other.handler.queueId with
      | none =>
        rw [balanced.named named'] at hb
        cases hb
      | some queue' =>
        rw [balanced.issued, Ledger.queue_eq named'] at hb
        obtain ⟨_, -, same⟩ := List.mem_map.mp hb
        cases same
        exact apart (List.mem_filterMap.mpr ⟨other, hother, named'⟩)

/-- Commit tickets are exactly once: over any interleaving on any number of handlers no ticket is
issued twice, a handler has at most one that is not acknowledged, each is completed and delivered
at most once with the value it was completed with, and a call that finds nothing to do leaves the
handler as it was. -/
theorem tickets_exactly_once (supply : Supply) (ops : List RtOp) :
    let s := run RtHandlers.step ⟨[], supply⟩ ops
    (s.ledgers.flatMap Ledger.issued).Nodup ∧
      ∀ l ∈ s.ledgers,
        (∀ a ∈ l.issued, ∀ b ∈ l.issued, a ∉ l.taken.map Prod.fst → b ∉ l.taken.map Prod.fst →
          a = b) ∧
        (∀ op request, l.handler.pendingUpdateFromOrigin = some request →
          (l.step op).handler.pendingUpdateFromOrigin = some request ∨
            ∃ result, op = .complete request.1 result) ∧
        (l.completed.map Prod.fst).Nodup ∧ (∀ x ∈ l.completed, x.1 ∈ l.issued) ∧
        (l.taken.map Prod.fst).Nodup ∧ (∀ x ∈ l.taken, x ∈ l.completed) ∧
        (∀ ticket result, (ticket, result) ∈ l.completed → ticket ∉ l.taken.map Prod.fst →
          (l.handler.takeCommitResult false ticket).1 = .ok (some result)) ∧
        (∀ ticket result, ticket ∉ l.issued ∨ ticket ∈ l.completed.map Prod.fst →
          l.handler.completePendingUpdate ticket result = (false, l.handler)) ∧
        (∀ locked ticket, ticket ∉ l.issued ∨ ticket ∈ l.taken.map Prod.fst →
          ∃ error, l.handler.takeCommitResult locked ticket = (.error error, l.handler)) ∧
        (∀ locked ticket error, (l.handler.takeCommitResult locked ticket).1 = .error error →
          (l.handler.takeCommitResult locked ticket).2 = l.handler) ∧
        ∀ locked incoming origin error,
          (l.handler.updateRtClientStateFromOrigin locked incoming origin).1 = .error error →
          (l.handler.updateRtClientStateFromOrigin locked incoming origin).2 = l.handler := by
  intro s
  have sound : s.Sound := run_keeps (fun _ op h => h.step op) ops
    ⟨fun _ hl => absurd hl List.not_mem_nil, List.nodup_nil, fun _ hq => absurd hq List.not_mem_nil⟩
  refine ⟨sound.issued_nodup, fun l hl => ?_⟩
  have h := sound.balanced l hl
  have completed := h.completed_initial.sublist.nodup h.nodup
  refine ⟨?_, fun op _ peeked => l.request_kept op peeked, completed, ?_, ?_,
    fun x hx => h.taken_initial.subset hx, fun _ _ done open_ => h.take_ok done open_,
    fun _ result spent => h.complete_eq spent result,
    fun locked _ spent => h.take_error spent locked, ?_, ?_⟩
  · intro a ha b hb openA openB
    exact (h.outstanding ha openA).1.trans (h.outstanding hb openB).1.symm
  · intro x hx
    exact h.completed_initial.subset (List.mem_map_of_mem hx)
  · exact (h.taken_initial.map Prod.fst).sublist.nodup completed
  · intro locked ticket error refused
    rcases l.handler.take_cases locked ticket with ⟨_, eq, -⟩ | ⟨eq, -⟩ | ⟨_, -, -, -, -, -, eq⟩
    · rw [eq]
    · rw [eq]
    · rw [eq] at refused
      cases refused
  · intro locked incoming origin error refused
    rcases l.handler.update_cases locked incoming origin with ⟨_, eq⟩ | ⟨_, -, -, -, eq⟩
    · rw [eq]
    · rw [eq] at refused
      cases refused

end RtHandlers

end AbletonLink.Link
