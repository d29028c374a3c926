import AbletonLink.Library.Serialised
import AbletonLink.Link.AudioTickets
import AbletonLink.Link.CommitLaws
import AbletonLink.Link.Node

/-! The commits of the audio thread and of the application on their way into the session: one
consumer at a time, whose future may be dropped wherever it awaits. -/

universe u

namespace AbletonLink.Link

open Library Library.Run

structure Submission where
  ticket : AudioCommitTicket
  incoming : IncomingClientState
  origin : Option SessionEditOrigin

/-- `ledger` is the queue of the audio thread with what its callers were answered, `accepted` the
client state that audio captures.  `submitted` and `applied` are the proposals queued and those the
session has taken; `clients` are the client states there were, `accepted` the one at `seen`. -/
structure AudioCommits where
  ledger : Ledger
  commit : SessionCommit
  accepted : ClientState
  submitted : List Submission
  applied : List Submission
  clients : List ClientState
  seen : Nat

inductive CommitCall
  | process
  | commitApp (incoming : IncomingClientState) (origin : Option SessionEditOrigin)

inductive CommitAt
  | peeking
  | committing (request : Submission)
  | completing (request : Submission) (result : CommitResult)
  | editing (incoming : IncomingClientState) (origin : Option SessionEditOrigin)
  | refreshing
  | publishing (sample : ClientState) (index : Nat)

inductive CommitTurn
  | poll (clock : Clock)
  | cancel

inductive CommitOutside
  | update (locked : Bool) (incoming : IncomingClientState) (origin : Option SessionEditOrigin)
  | take (locked : Bool) (ticket : AudioCommitTicket)
  | session (op : Op)

def SessionCommit.commitIncoming (self : SessionCommit) (incoming : IncomingClientState)
    (clock : Clock) : Option SessionEditOrigin → SessionCommit × Option CommitResult
  | none => (self, some (.error .staleClientState))
  | some origin =>
    match self.clientEditFromOrigin incoming clock (some origin) with
    | (.waitingForPublication, self) => (self, none)
    | (.complete _, self) => (self, some (.ok ()))
    | (.rejected error, self) => (self, some (.error error))

namespace AudioCommits

def new (commit : SessionCommit) : AudioCommits where
  ledger := ⟨(RtHandler.new commit.supply).1, [], [], []⟩
  commit := { commit with toSessions.supply := (RtHandler.new commit.supply).2 }
  accepted := commit.client
  submitted := []
  applied := []
  clients := [commit.client]
  seen := 0

def setCommit (s : AudioCommits) (commit : SessionCommit) : AudioCommits :=
  { s with commit, clients := s.clients ++ [commit.client] }

def outside (s : AudioCommits) : CommitOutside → AudioCommits
  | .update locked incoming origin =>
    let tickets := (s.ledger.handler.updateRtClientStateFromOrigin locked incoming origin).1
    { s with
      ledger := s.ledger.step (.update locked incoming origin)
      submitted :=
        s.submitted ++ tickets.toOption.toList.map fun ticket => ⟨ticket, incoming, origin⟩ }
  | .take locked ticket => { s with ledger := s.ledger.step (.take locked ticket) }
  | .session op => s.setCommit (s.commit.step op)

def enter : CommitCall → CommitAt
  | .process => .peeking
  | .commitApp incoming origin => .editing incoming origin

/-- The next action of a call, which awaits the session in `committing`, `editing` and
`refreshing`.  To wait for the lock of the consumers is to take the step later. -/
def act (s : AudioCommits) (turn : CommitTurn) : CommitAt → AudioCommits × Option CommitAt
  | .peeking =>
    match s.ledger.handler.pendingUpdateFromOrigin with
    | some (ticket, incoming, origin) => (s, some (.committing ⟨ticket, incoming, origin⟩))
    | none => (s, some .refreshing)
  | .committing request =>
    match turn with
    | .cancel => (s, none)
    | .poll clock =>
      let (commit, result) := s.commit.commitIncoming request.incoming clock request.origin
      let s := s.setCommit commit
      match result with
      | none => (s, some (.committing request))
      | some result =>
        let applied := if result.isOk then s.applied ++ [request] else s.applied
        ({ s with applied }, some (.completing request result))
  | .completing request result =>
    ({ s with ledger := s.ledger.step (.complete request.ticket result) }, some .refreshing)
  | .editing incoming origin =>
    match turn with
    | .cancel => (s, none)
    | .poll clock =>
      let (commit, result) := s.commit.commitIncoming incoming clock origin
      let s := s.setCommit commit
      match result with
      | none => (s, some (.editing incoming origin))
      | some (.ok ()) => (s, some .refreshing)
      | some (.error _) => (s, none)
  | .refreshing =>
    match turn with
    | .cancel => (s, none)
    | .poll _ => (s, some (.publishing s.commit.client (s.clients.length - 1)))
  | .publishing sample index => ({ s with accepted := sample, seen := index }, none)

def critical : Critical AudioCommits CommitCall CommitAt CommitTurn CommitOutside where
  outside := outside
  enter := enter
  act := act

def pending (s : AudioCommits) : Option Submission :=
  s.ledger.handler.pendingUpdateFromOrigin.map fun (ticket, incoming, origin) =>
    ⟨ticket, incoming, origin⟩

end AudioCommits

def CommitAt.request : CommitAt → Option Submission
  | .committing request | .completing request _ => some request
  | _ => none

def CommitAt.unrecorded : CommitAt → Option Submission
  | .completing request (.ok ()) => some request
  | _ => none

def Ledger.acceptedTickets (l : Ledger) : List AudioCommitTicket :=
  (l.completed.filter (·.2.isOk)).map Prod.fst

theorem RtHandler.pending_eq {self : RtHandler} {ticket : AudioCommitTicket}
    {incoming : IncomingClientState} {origin : Option SessionEditOrigin}
    (peeked : self.pendingUpdateFromOrigin = some (ticket, incoming, origin)) :
    self.queueId = some ticket.queue ∧ ticket.sequence = self.pending.sequence ∧
      self.pending.incoming = some incoming ∧ self.pending.origin = origin := by
  unfold pendingUpdateFromOrigin at peeked
  cases named : self.queueId with
  | none =>
    rw [named] at peeked
    cases peeked
  | some queue =>
    rw [named] at peeked
    obtain ⟨_, held, same⟩ := Option.map_eq_some_iff.mp peeked
    cases same
    exact ⟨rfl, rfl, held, rfl⟩

namespace AudioCommits

/-- Every ticket stands for one proposal; the session took the ones recorded as accepted and the one
that the call with the lock is about to record. -/
structure Settling (s : AudioCommits) (place : Option CommitAt) : Prop where
  balanced : s.ledger.Balanced
  submitted : s.submitted.map Submission.ticket = s.ledger.issued
  held : ∀ request, s.pending = some request → request ∈ s.submitted
  applied : s.applied ⊆ s.submitted
  settled : s.applied.map Submission.ticket = s.ledger.acceptedTickets ++
    ((place.bind CommitAt.unrecorded).map Submission.ticket).toList
  peeked : ∀ request, place.bind CommitAt.request = some request → s.pending = some request

section Settling

variable {s s' : AudioCommits} {place place' : Option CommitAt}

theorem request_of_unrecorded {request : Submission}
    (found : place.bind CommitAt.unrecorded = some request) :
    place.bind CommitAt.request = some request := by
  obtain ⟨p, rfl, at_p⟩ := Option.bind_eq_some_iff.mp found
  cases p with
  | completing other result =>
    cases result with
    | ok => exact at_p
    | error error => cases at_p
  | _ => cases at_p

theorem pending_eq {request : Submission} (held : s.pending = some request) :
    s.ledger.current = request.ticket ∧ s.ledger.handler.queueId = some request.ticket.queue ∧
      request.ticket.sequence = s.ledger.handler.pending.sequence ∧
      s.ledger.handler.pending.incoming.isSome = true := by
  obtain ⟨⟨ticket, incoming, origin⟩, peeked, same⟩ := Option.map_eq_some_iff.mp held
  cases same
  obtain ⟨named, sequence, incoming, -⟩ := RtHandler.pending_eq peeked
  exact ⟨Ledger.current_eq named sequence, named, sequence,
    by rw [incoming, Option.isSome_some]⟩

theorem Settling.unanswered (h : s.Settling place) {request : Submission}
    (held : s.pending = some request) :
    request.ticket ∈ s.ledger.issued ∧ request.ticket ∉ s.ledger.completed.map Prod.fst := by
  obtain ⟨current, -, -, occupied⟩ := pending_eq held
  obtain ⟨issued, -, fresh⟩ := h.balanced.current_mem (by rw [occupied, Bool.true_or])
  rw [current] at issued fresh
  exact ⟨issued, fresh occupied⟩

theorem Settling.moved (h : s.Settling place) (commit : SessionCommit) (accepted : ClientState)
    (clients : List ClientState) (seen : Nat)
    (recorded : place.bind CommitAt.unrecorded = place'.bind CommitAt.unrecorded)
    (peeked : ∀ request, place'.bind CommitAt.request = some request →
      s.pending = some request) :
    { s with commit, accepted, clients, seen }.Settling place' where
  balanced := h.balanced
  submitted := h.submitted
  held := h.held
  applied := h.applied
  settled := by
    rw [← recorded]
    exact h.settled
  peeked := peeked

theorem Settling.left (h : s.Settling place) (commit : SessionCommit) (accepted : ClientState)
    (clients : List ClientState) (seen : Nat) (recorded : place.bind CommitAt.unrecorded = none)
    (idle : place'.bind CommitAt.request = none) :
    { s with commit, accepted, clients, seen }.Settling place' := by
  refine h.moved commit accepted clients seen ?_ (fun request peeked => ?_)
  · rw [recorded]
    cases found : place'.bind CommitAt.unrecorded with
    | none => rfl
    | some request =>
      rw [request_of_unrecorded found] at idle
      cases idle
  · rw [idle] at peeked
    cases peeked

theorem Settling.update (h : s.Settling place) (locked : Bool) (incoming : IncomingClientState)
    (origin : Option SessionEditOrigin) :
    (s.outside (.update locked incoming origin)).Settling place := by
  rcases s.ledger.handler.update_cases locked incoming origin with
    ⟨error, eq⟩ | ⟨queue, named, empty, free, eq⟩
  · simp only [outside, Ledger.step, eq, Except.toOption, Option.toList_none, List.map_nil,
      List.append_nil]
    exact h
  · have vacant : s.pending = none := by
      unfold AudioCommits.pending RtHandler.pendingUpdateFromOrigin
      rw [named, empty]
      rfl
    have quiet : ∀ request, place.bind CommitAt.request ≠ some request := by
      intro request peeked
      have held := h.peeked request peeked
      rw [vacant] at held
      cases held
    refine ⟨h.balanced.update locked incoming origin, ?_, ?_, ?_, ?_,
      fun request peeked => absurd peeked (quiet request)⟩
    · simp only [outside, Ledger.step, eq, Except.toOption, Option.toList_some, List.map_append,
        List.map_cons, List.map_nil, h.submitted]
    · intro request held
      simp only [AudioCommits.pending, outside, Ledger.step, eq, RtHandler.pendingUpdateFromOrigin,
        named, Option.map_some, Option.some.injEq] at held
      simp only [outside, eq, Except.toOption, Option.toList_some, List.map_cons, List.map_nil]
      rw [← held]
      exact List.mem_append_right _ (List.mem_singleton.mpr rfl)
    · simp only [outside, eq, Except.toOption, Option.toList_some, List.map_cons, List.map_nil]
      exact fun request applied => List.mem_append_left _ (h.applied applied)
    · simp only [outside, Ledger.step, eq]
      exact h.settled

theorem Settling.take (h : s.Settling place) (locked : Bool) (ticket : AudioCommitTicket) :
    (s.outside (.take locked ticket)).Settling place := by
  have completed : (s.ledger.step (.take locked ticket)).completed = s.ledger.completed := rfl
  have issued : (s.ledger.step (.take locked ticket)).issued = s.ledger.issued := rfl
  have pending : (s.outside (.take locked ticket)).pending = s.pending := by
    unfold AudioCommits.pending
    rcases s.ledger.handler.take_cases locked ticket with
      ⟨_, eq, -⟩ | ⟨eq, -⟩ | ⟨_, -, -, -, -, -, eq⟩ <;>
      simp only [outside, Ledger.step, eq, RtHandler.pendingUpdateFromOrigin]
  refine ⟨h.balanced.take locked ticket, ?_, ?_, h.applied, ?_, ?_⟩
  · exact h.submitted.trans issued.symm
  · rw [pending]
    exact h.held
  · exact h.settled
  · rw [pending]
    exact h.peeked

theorem Settling.outside (h : s.Settling place) (change : CommitOutside) :
    (s.outside change).Settling place := by
  cases change with
  | update locked incoming origin => exact h.update locked incoming origin
  | take locked ticket => exact h.take locked ticket
  | session op => exact h.moved _ _ _ _ rfl h.peeked

theorem recorded_eq {request : Submission} (held : s.pending = some request)
    (result : CommitResult) :
    (s.ledger.step (.complete request.ticket result)).completed =
        s.ledger.completed ++ [(request.ticket, result)] ∧
      { s with ledger := s.ledger.step (.complete request.ticket result) }.pending = none := by
  obtain ⟨-, named, same, occupied⟩ := pending_eq held
  rcases s.ledger.handler.complete_cases request.ticket result with
    ⟨refused, -⟩ | ⟨-, -, -, eq⟩
  · exact absurd ⟨named, same, occupied⟩ refused
  · simp only [AudioCommits.pending, Ledger.step, eq, RtHandler.pendingUpdateFromOrigin, named,
      Option.map_none, if_true, and_self]

theorem Settling.complete (h : s.Settling (some (.completing request result))) :
    { s with ledger := s.ledger.step (.complete request.ticket result) }.Settling
      (some .refreshing) := by
  obtain ⟨completed, vacant⟩ := recorded_eq (h.peeked request rfl) result
  refine ⟨h.balanced.complete request.ticket result, h.submitted, ?_, h.applied, ?_,
    by rintro _ ⟨⟩⟩
  · rw [vacant]
    rintro _ ⟨⟩
  · have settled := h.settled
    unfold Ledger.acceptedTickets at settled ⊢
    rw [completed, List.filter_append, List.map_append, settled, List.append_assoc]
    cases result with
    | ok => rfl
    | error error => rfl

theorem Settling.act (h : s.Settling (some p)) (turn : CommitTurn) :
    (s.act turn p).1.Settling (s.act turn p).2 := by
  cases p with
  | peeking =>
    unfold AudioCommits.act
    cases peeked : s.ledger.handler.pendingUpdateFromOrigin with
    | none => exact h.left _ _ _ _ rfl rfl
    | some request =>
      refine h.moved _ _ _ _ rfl ?_
      rintro _ ⟨⟩
      unfold AudioCommits.pending
      rw [peeked]
      rfl
  | committing request =>
    cases turn with
    | cancel => exact h.left _ _ _ _ rfl rfl
    | poll clock =>
      unfold AudioCommits.act
      dsimp only
      rcases s.commit.commitIncoming request.incoming clock request.origin with
        ⟨commit, _ | result⟩
      · exact h.moved _ _ _ _ rfl h.peeked
      · have held := h.peeked request rfl
        refine ⟨h.balanced, h.submitted, h.held, ?_, ?_, fun r peeked => ?_⟩
        · dsimp only
          split
          · exact List.append_subset.mpr
              ⟨h.applied, List.cons_subset.mpr ⟨h.held request held, List.nil_subset _⟩⟩
          · exact h.applied
        · have settled := h.settled
          cases result with
          | ok =>
            show (s.applied ++ [request]).map Submission.ticket =
              s.ledger.acceptedTickets ++ [request.ticket]
            rw [List.map_append, settled]
            exact congrArg (· ++ [request.ticket]) (List.append_nil _)
          | error error => exact settled
        · cases peeked
          exact held
  | completing request result => exact h.complete
  | editing incoming origin =>
    cases turn with
    | cancel => exact h.left _ _ _ _ rfl rfl
    | poll clock =>
      unfold AudioCommits.act
      dsimp only
      rcases s.commit.commitIncoming incoming clock origin with ⟨commit, _ | _ | _⟩ <;>
        exact h.left _ _ _ _ rfl rfl
  | refreshing =>
    cases turn with
    | cancel => exact h.left _ _ _ _ rfl rfl
    | poll clock => exact h.left _ _ _ _ rfl rfl
  | publishing sample index => exact h.left _ _ _ _ rfl rfl

theorem settling_keeps : Serialised.Keeps critical Settling fun _ _ => True where
  outside _ _ change h _ := h.outside change
  enter _ waiting h := by
    cases waiting <;> exact h.left _ _ _ _ rfl rfl
  act _ turn _ h := h.act turn

theorem settling_new (commit : SessionCommit) : (new commit).Settling none where
  balanced := ⟨rfl, rfl, rfl, .inl rfl, fun _ => rfl⟩
  submitted := rfl
  held request held := by
    obtain ⟨-, -, -, occupied⟩ := pending_eq held
    cases occupied
  applied := List.Subset.refl []
  settled := rfl
  peeked := by rintro _ ⟨⟩

theorem Settling.completed_nodup (h : s.Settling place) :
    (s.ledger.completed.map Prod.fst).Nodup :=
  h.balanced.nodup.sublist h.balanced.completed_initial.sublist

theorem Settling.not_mem_completed (h : s.Settling place) {ticket : AudioCommitTicket}
    (unrecorded : ticket ∈ ((place.bind CommitAt.unrecorded).map Submission.ticket).toList) :
    ticket ∉ s.ledger.completed.map Prod.fst := by
  obtain ⟨request, found, rfl⟩ := Option.map_eq_some_iff.mp (Option.mem_toList.mp unrecorded)
  exact (h.unanswered (h.peeked request (request_of_unrecorded found))).2

theorem Settling.answer (h : s.Settling place) {ticket : AudioCommitTicket} {result : CommitResult}
    (answered : (ticket, result) ∈ s.ledger.completed) :
    result = .ok () ↔ ticket ∈ s.applied.map Submission.ticket := by
  have mem : ticket ∈ s.ledger.completed.map Prod.fst := List.mem_map_of_mem answered
  rw [h.settled, List.mem_append]
  constructor
  · rintro rfl
    exact .inl (List.mem_map.mpr ⟨_, List.mem_filter.mpr ⟨answered, rfl⟩, rfl⟩)
  · rintro (accepted | unrecorded)
    · obtain ⟨⟨_, other⟩, found, rfl⟩ := List.mem_map.mp accepted
      obtain ⟨found, ok⟩ := List.mem_filter.mp found
      have same : other = result := by
        have := List.inj_on_of_nodup_map h.completed_nodup found answered rfl
        exact congrArg Prod.snd this
      cases result with
      | ok => rfl
      | error error =>
        rw [same] at ok
        cases ok
    · exact absurd mem (h.not_mem_completed unrecorded)

theorem Settling.applied_nodup (h : s.Settling place) :
    (s.applied.map Submission.ticket).Nodup := by
  have recorded : s.ledger.acceptedTickets.Sublist (s.ledger.completed.map Prod.fst) :=
    List.filter_sublist.map Prod.fst
  rw [h.settled, List.nodup_append]
  refine ⟨h.completed_nodup.sublist recorded, ?_, ?_⟩
  · cases place.bind CommitAt.unrecorded with
    | none => exact List.nodup_nil
    | some request => exact List.nodup_singleton _
  · rintro ticket accepted other unrecorded rfl
    exact h.not_mem_completed unrecorded (recorded.subset accepted)

end Settling

structure Viewed (before : List ClientState) (last : Nat) (s : AudioCommits)
    (place : Option CommitAt) : Prop where
  history : before <+: s.clients
  current : s.clients.getLast? = some s.commit.client
  accepted : s.clients[s.seen]? = some s.accepted
  forward : last ≤ s.seen
  sampled : ∀ sample index, place = some (.publishing sample index) →
    s.clients[index]? = some sample ∧ s.seen ≤ index

section Viewed

variable {s : AudioCommits} {place place' : Option CommitAt} {before : List ClientState}
  {last : Nat}

theorem getElem?_concat {clients : List ClientState} {index : Nat} {client : ClientState}
    (found : clients[index]? = some client) (next : ClientState) :
    (clients ++ [next])[index]? = some client := by
  obtain ⟨bound, -⟩ := List.getElem?_eq_some_iff.mp found
  rw [List.getElem?_append_left bound]
  exact found

theorem Viewed.moved (h : s.Viewed before last place)
    (sampled : ∀ sample index, place' ≠ some (.publishing sample index)) :
    s.Viewed before last place' :=
  { h with sampled := fun sample index here => absurd here (sampled sample index) }

theorem Viewed.setCommit (h : s.Viewed before last place) (commit : SessionCommit) :
    (s.setCommit commit).Viewed before last place where
  history := h.history.trans (List.prefix_append _ _)
  current := List.getLast?_concat
  accepted := getElem?_concat h.accepted commit.client
  forward := h.forward
  sampled sample index here :=
    ⟨getElem?_concat (h.sampled sample index here).1 commit.client, (h.sampled sample index here).2⟩

theorem Viewed.act (h : s.Viewed before last (some p)) (turn : CommitTurn) :
    (s.act turn p).1.Viewed before last (s.act turn p).2 := by
  cases p with
  | peeking =>
    unfold AudioCommits.act
    cases s.ledger.handler.pendingUpdateFromOrigin with
    | none => exact h.moved (by rintro _ _ ⟨⟩)
    | some request => exact h.moved (by rintro _ _ ⟨⟩)
  | committing request =>
    cases turn with
    | cancel => exact h.moved (by rintro _ _ ⟨⟩)
    | poll clock =>
      unfold AudioCommits.act
      dsimp only
      rcases s.commit.commitIncoming request.incoming clock request.origin with
        ⟨commit, _ | result⟩
      · exact (h.setCommit commit).moved (by rintro _ _ ⟨⟩)
      · have next := h.setCommit commit
        exact ⟨next.history, next.current, next.accepted, next.forward, by rintro _ _ ⟨⟩⟩
  | completing request result =>
    exact ⟨h.history, h.current, h.accepted, h.forward, by rintro _ _ ⟨⟩⟩
  | editing incoming origin =>
    cases turn with
    | cancel => exact h.moved (by rintro _ _ ⟨⟩)
    | poll clock =>
      unfold AudioCommits.act
      dsimp only
      rcases s.commit.commitIncoming incoming clock origin with ⟨commit, _ | _ | _⟩ <;>
        exact (h.setCommit commit).moved (by rintro _ _ ⟨⟩)
  | refreshing =>
    cases turn with
    | cancel => exact h.moved (by rintro _ _ ⟨⟩)
    | poll clock =>
      refine { h with sampled := ?_ }
      rintro _ _ ⟨⟩
      obtain ⟨bound, -⟩ := List.getElem?_eq_some_iff.mp h.accepted
      exact ⟨List.getLast?_eq_getElem?.symm.trans h.current, Nat.le_sub_one_of_lt bound⟩
  | publishing sample index =>
    -- No other call published since the sample was taken: this one has the lock.
    obtain ⟨known, later⟩ := h.sampled sample index rfl
    exact ⟨h.history, h.current, known, h.forward.trans later, by rintro _ _ ⟨⟩⟩

theorem viewed_keeps (before : List ClientState) (last : Nat) :
    Serialised.Keeps critical (Viewed before last) fun _ _ => True where
  outside s place change h _ := by
    cases change with
    | update locked incoming origin =>
      exact ⟨h.history, h.current, h.accepted, h.forward, h.sampled⟩
    | take locked ticket => exact ⟨h.history, h.current, h.accepted, h.forward, h.sampled⟩
    | session op => exact h.setCommit (s.commit.step op)
  enter _ waiting h := by
    cases waiting <;> exact h.moved (by rintro _ _ ⟨⟩)
  act _ turn _ h := h.act turn

theorem viewed_new (commit : SessionCommit) : (new commit).Viewed [] 0 none where
  history := List.nil_prefix
  current := rfl
  accepted := rfl
  forward := Nat.le_refl 0
  sampled := by rintro _ _ ⟨⟩

end Viewed

structure Answered (s s' : AudioCommits) (clock : Clock) (request : Submission)
    (result : CommitResult) : Prop where
  commits : s.commit.commitIncoming request.incoming clock request.origin =
    (s'.commit, some result)
  completed : s'.ledger.completed = s.ledger.completed ++ [(request.ticket, result)]
  applied : s'.applied = if result.isOk then s.applied ++ [request] else s.applied

section Undisturbed

theorem alone_done (turn : CommitTurn) (n : ℕ) (data : AudioCommits) :
    Serialised.alone critical turn n data none = (data, none) := by
  cases n <;> rfl

def refreshed (s : AudioCommits) : AudioCommits :=
  { s with accepted := s.commit.client, seen := s.clients.length - 1 }

theorem alone_refreshing (s : AudioCommits) (clock : Clock) (n : ℕ) :
    Serialised.alone critical (.poll clock) (n + 2) s (some .refreshing) =
      (s.refreshed, none) :=
  alone_done (.poll clock) n s.refreshed

theorem act_peeking (s : AudioCommits) (turn : CommitTurn) :
    s.act turn .peeking = (s, some (s.pending.elim .refreshing .committing)) := by
  unfold act AudioCommits.pending
  cases s.ledger.handler.pendingUpdateFromOrigin <;> rfl

def committed (s : AudioCommits) (commit : SessionCommit) (request : Submission)
    (result : CommitResult) : AudioCommits :=
  { s.setCommit commit with
    applied := if result.isOk then s.applied ++ [request] else s.applied }

def recorded (s : AudioCommits) (request : Submission) (result : CommitResult) : AudioCommits :=
  { s with ledger := s.ledger.step (.complete request.ticket result) }

theorem act_committing {s : AudioCommits} {clock : Clock} {request : Submission}
    {commit : SessionCommit} {result : CommitResult}
    (commits : s.commit.commitIncoming request.incoming clock request.origin =
      (commit, some result)) :
    s.act (.poll clock) (.committing request) =
      (s.committed commit request result, some (.completing request result)) := by
  unfold act
  dsimp only
  rw [commits]
  rfl

theorem act_completing (s : AudioCommits) (turn : CommitTurn) (request : Submission)
    (result : CommitResult) :
    s.act turn (.completing request result) = (s.recorded request result, some .refreshing) := rfl

theorem alone_process (s : AudioCommits) (clock : Clock)
    (ready : ∀ request, s.pending = some request →
      (s.commit.commitIncoming request.incoming clock request.origin).2 ≠ none) :
    ∃ s', Serialised.alone critical (.poll clock) 5 s (some .peeking) = (s', none) ∧
      s'.pending = none ∧ s'.accepted = s'.commit.client ∧
      ∀ request, s.pending = some request → ∃ result, Answered s s' clock request result := by
  cases held : s.pending with
  | none =>
    refine ⟨s.refreshed, ?_, held, rfl, by rintro _ ⟨⟩⟩
    rw [Serialised.alone_act (act_peeking s (.poll clock)), held]
    exact alone_refreshing s clock 2
  | some request =>
    obtain ⟨result, answer⟩ := Option.ne_none_iff_exists'.mp (ready request held)
    obtain ⟨commit, commits⟩ : ∃ commit, s.commit.commitIncoming request.incoming clock
        request.origin = (commit, some result) := ⟨_, Prod.ext rfl answer⟩
    obtain ⟨completed, vacant⟩ :=
      recorded_eq (show (s.committed commit request result).pending = some request from held) result
    refine ⟨((s.committed commit request result).recorded request result).refreshed, ?_, vacant,
      rfl, ?_⟩
    · rw [Serialised.alone_act (act_peeking s (.poll clock)), held]
      refine (Serialised.alone_act (act_committing commits) 3).trans ?_
      refine (Serialised.alone_act (act_completing _ (.poll clock) request result) 2).trans ?_
      exact alone_refreshing ((s.committed commit request result).recorded request result) clock 0
    · rintro _ ⟨⟩
      exact ⟨result, commits, completed, rfl⟩

end Undisturbed

section Runs

universe v

variable {Call : Type v} [DecidableEq Call]

abbrev System (Call : Type v) := Serialised AudioCommits Call CommitCall CommitAt

abbrev SystemOp (Call : Type v) := SerialOp CommitOutside Call CommitCall CommitTurn

def runFrom (s : System Call) (ops : List (SystemOp Call)) : System Call :=
  Run.run (Serialised.step critical) s ops

def start (commit : SessionCommit) : System Call := Serialised.initial (new commit)

theorem along (s : System Call) (ops : List (SystemOp Call)) :
    Run.Along (Serialised.step critical) (Serialised.Admits fun _ _ => True) s ops :=
  Run.along_of_forall (fun _ op => by cases op <;> trivial) s ops

theorem settling_run (commit : SessionCommit) (ops : List (SystemOp Call)) :
    (runFrom (start commit) ops).Exclusive ∧
      (runFrom (start commit) ops).data.Settling (runFrom (start commit) ops).place :=
  settling_keeps.run (Serialised.exclusive_initial _) (settling_new commit) (along _ _)

theorem viewed_run (commit : SessionCommit) (ops : List (SystemOp Call)) :
    (runFrom (start commit) ops).data.Viewed [] 0 (runFrom (start commit) ops).place :=
  ((viewed_keeps [] 0).run (Serialised.exclusive_initial _) (viewed_new commit) (along _ _)).2

/-- Whatever is interleaved with the calls and wherever they are dropped: the session takes a
proposal once at most and under its own ticket, and who takes a ticket's result is told success
exactly if it did.  Between two calls every proposal it took was recorded. -/
theorem tickets_settle_once (commit : SessionCommit) (ops : List (SystemOp Call)) :
    let s := runFrom (start commit) ops
    (s.data.submitted.map Submission.ticket).Nodup ∧
    (s.data.applied.map Submission.ticket).Nodup ∧ s.data.applied ⊆ s.data.submitted ∧
    (∀ ticket result, (ticket, result) ∈ s.data.ledger.taken →
      (result = .ok () ↔ ticket ∈ s.data.applied.map Submission.ticket)) ∧
    (s.holder = none → s.data.applied.map Submission.ticket = s.data.ledger.acceptedTickets) := by
  intro s
  obtain ⟨-, h⟩ := settling_run commit ops
  have issued := h.balanced.nodup
  refine ⟨?_, h.applied_nodup, h.applied, fun ticket result taken => ?_, fun free => ?_⟩
  · rw [h.submitted]
    exact issued
  · exact h.answer (h.balanced.taken_initial.subset taken)
  · have settled := h.settled
    rw [Serialised.place_eq_none free] at settled
    exact settled.trans (List.append_nil _)

/-- From any state of a run to any later one: what audio captures is a client state the session had,
and never an older one than before. -/
theorem accepted_moves_forward (commit : SessionCommit) (ops ops' : List (SystemOp Call)) :
    let s := runFrom (start commit) ops
    let s' := runFrom s ops'
    s.data.clients <+: s'.data.clients ∧ s.data.clients[s.data.seen]? = some s.data.accepted ∧
      s'.data.clients[s'.data.seen]? = some s'.data.accepted ∧ s.data.seen ≤ s'.data.seen := by
  intro s s'
  obtain ⟨exclusive, -⟩ := settling_run commit ops
  have here := viewed_run commit ops
  have from_here : s.data.Viewed s.data.clients s.data.seen s.place :=
    { here with history := List.prefix_rfl, forward := Nat.le_refl _ }
  obtain ⟨-, there⟩ :=
    (viewed_keeps s.data.clients s.data.seen).run exclusive from_here (along s ops')
  exact ⟨there.history, here.accepted, there.accepted, there.forward⟩

/-- Whatever was dropped before: a call of `process` that nothing disturbs and that no publication
makes wait answers the request that is pending with what the session made of it, and audio captures
the session's client state after it. -/
theorem undisturbed_process (s : System Call) (call : Call) (clock : Clock) :
    let s' := runFrom s (.call call .process :: List.replicate 6 (.step call (.poll clock)))
    s.holder = none → s.calls call = .idle →
      (∀ request, s.data.pending = some request →
        (s.data.commit.commitIncoming request.incoming clock request.origin).2 ≠ none) →
      s'.holder = none ∧ s'.data.pending = none ∧ s'.data.accepted = s'.data.commit.client ∧
        ∀ request, s.data.pending = some request →
          ∃ result, Answered s.data s'.data clock request result := by
  intro s' free idle ready
  obtain ⟨after, alone, vacant, shown, answered⟩ := alone_process s.data clock ready
  obtain ⟨data, left⟩ :=
    Serialised.run_alone (CommitTurn.poll clock) 5 .process free idle alone
  have data : s'.data = after := data
  rw [data]
  exact ⟨left, vacant, shown, answered⟩

theorem undisturbed_process_dropped :
    let incoming : IncomingClientState :=
      ⟨some ⟨⟨125.0⟩, ⟨0⟩, .zero⟩, none, ⟨5000000, by decide, by decide⟩⟩
    let origin := soloNode.current.editOrigin
    let clock : Clock := ⟨.zero, ⟨9000001, by decide, by decide⟩, .zero⟩
    let s := runFrom (start soloNode) [.outside (.update false incoming origin),
      .call 0 .process, .step (0 : Fin 1) (.poll clock), .step 0 (.poll clock), .step 0 .cancel]
    let s' := runFrom s (.call 0 .process :: List.replicate 6 (.step 0 (.poll clock)))
    s.data.ledger.completed = [] ∧ s'.data.pending = none ∧
      s'.data.accepted = s'.data.commit.client ∧
      ∃ result, Answered s.data s'.data clock ⟨s.data.ledger.current, incoming, origin⟩ result := by
  intro incoming origin clock s s'
  have held : s.data.pending = some ⟨s.data.ledger.current, incoming, origin⟩ := rfl
  have commits : (s.data.commit.commitIncoming incoming clock origin).2 ≠ none := by
    decide +kernel
  obtain ⟨-, vacant, shown, answered⟩ :=
    undisturbed_process s 0 clock rfl rfl (by
      intro request other
      rw [held] at other
      cases other
      exact commits)
  exact ⟨rfl, vacant, shown, answered _ held⟩

end Runs

end AudioCommits

end AbletonLink.Link
