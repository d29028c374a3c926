import AbletonLink.Discovery.NoZombies

/-! The workers that prune expired peers.  Each announcement cancels the worker before it and spawns
the next one; a worker ends, too, when it finds no peer or the gate closed.  Every region of the
timeouts' lock, every sleep and the two halves of the hand-over are one step. -/

namespace AbletonLink.Discovery

open Link Library

/-- Where the task of `schedule_next_pruning_in_epoch` is. -/
inductive PruneAt
  | starting
  | reading
  | sleeping (deadline : Instant)
  | reserving
  | removing
  | done
  deriving DecidableEq

/-- `cancelled` is set once the notification that the worker registered for was given. -/
structure PruneWorker where
  generation : Nat
  cancelled : Bool
  place : PruneAt
  deriving DecidableEq

/-- What the workers see of the dispatch gate; it is stopped once no permit is held any more and the
timeouts are cleared. -/
inductive LifecycleAt
  | opened (generation : Nat)
  | closing
  | stopped
  deriving DecidableEq

def LifecycleAt.isOpen : LifecycleAt → Bool
  | opened _ => true
  | _ => false

/-- `on_peer_state_in_epoch` after its commit, with the generation its event was admitted in. -/
inductive HandoverAt
  | idle
  | committed (generation : Nat)
  | notified (generation : Nat)
  deriving DecidableEq

structure Pruning where
  gateway : Gateway
  gate : LifecycleAt
  generation : Nat
  consumer : HandoverAt
  workers : List PruneWorker
  deriving DecidableEq

inductive PruningOp
  | peerState (msg : PeerStateMessage) (called now : Instant) (current : Bool)
  | notify
  | schedule
  | byebye (node : NodeId)
  | work (worker : Nat) (now : Instant) (reserved noticed : Bool)
  | receive
  | handle (o : Gateway.Observing)
  | abandon
  | close
  | clear
  | start

def milliseconds (n : Nat) : Nat := n * 1000000

def Gateway.commits (g : Gateway) (msg : PeerStateMessage) (called now : Instant)
    (current : Bool) : Bool :=
  (msg.observation.isNone || current) && !(0 < msg.ttl && msg.deadline called ≤ now) &&
    (msg.ttl ≠ 0 || g.tracks msg.ident)

namespace PruneAt

def permitted : PruneAt → Bool
  | starting | done => false
  | _ => true

def armed (deadline : Instant) : PruneAt → Prop
  | sleeping wake => wake ≤ deadline
  | done => False
  | _ => True

end PruneAt

namespace Pruning

def new : Pruning where
  gateway := .new
  gate := .opened 0
  generation := 0
  consumer := .idle
  workers := []

def cancelAll (workers : List PruneWorker) : List PruneWorker :=
  workers.map fun w => { w with cancelled := true }

/-- Where a worker gets with one step.  It wakes up 100 ms after the deadline it read; `noticed`
tells whether it looks at the notification and the gate again before this step. -/
def nextPlace (w : PruneWorker) (gate : LifecycleAt) (first : Option Instant) (now : Instant)
    (reserved noticed : Bool) : PruneAt :=
  if noticed && (w.cancelled || !gate.isOpen) then .done
  else
    match w.place with
    | .starting => if gate = .opened w.generation then .reading else .done
    | .reading =>
      match first with
      | none => .done
      | some deadline => .sleeping deadline
    | .sleeping deadline =>
      if deadline + milliseconds 100 ≤ now then .reserving else .sleeping deadline
    | .reserving => if reserved then .removing else .reserving
    | .removing => .reading
    | .done => .done

def work (s : Pruning) (worker : Nat) (now : Instant) (reserved noticed : Bool) : Pruning :=
  match s.workers[worker]? with
  | none => s
  | some w =>
    let first := s.gateway.peerTimeouts.head?.map Prod.fst
    let place := nextPlace w s.gate first now reserved noticed
    { s with
      gateway := if w.place = .removing && place = .reading then s.gateway.prune now else s.gateway
      workers := s.workers.set worker { w with place } }

def peerState (s : Pruning) (msg : PeerStateMessage) (called now : Instant) (current : Bool) :
    Pruning :=
  match s.gate, s.consumer with
  | .opened generation, .idle =>
    { s with
      gateway := s.gateway.onPeerState msg called now current
      consumer :=
        if s.gateway.commits msg called now current then .committed generation else .idle }
  | _, _ => s

def byebye (s : Pruning) (node : NodeId) : Pruning :=
  match s.gate, s.consumer with
  | .opened _, .idle =>
    let gateway := s.gateway.onByebye node
    { s with
      gateway
      workers := if gateway.peerTimeouts.isEmpty then cancelAll s.workers else s.workers }
  | _, _ => s

def notify (s : Pruning) : Pruning :=
  match s.consumer with
  | .committed generation =>
    { s with consumer := .notified generation, workers := cancelAll s.workers }
  | _ => s

def schedule (s : Pruning) : Pruning :=
  match s.consumer with
  | .notified generation =>
    { s with
      consumer := .idle, workers := s.workers ++ [⟨generation, false, .starting⟩] }
  | _ => s

def close (s : Pruning) : Pruning :=
  match s.gate with
  | .opened _ => { s with gate := .closing }
  | _ => s

def clear (s : Pruning) : Pruning :=
  if s.gate = .closing && s.consumer = .idle && s.workers.all fun w => !w.place.permitted then
    { s with gate := .stopped, gateway := { s.gateway with peerTimeouts := [] } }
  else s

def start (s : Pruning) : Pruning :=
  match s.gate with
  | .stopped => { s with gate := .opened (s.generation + 1), generation := s.generation + 1 }
  | _ => s

def step (s : Pruning) : PruningOp → Pruning
  | .peerState msg called now current => s.peerState msg called now current
  | .notify => s.notify
  | .schedule => s.schedule
  | .byebye node => s.byebye node
  | .work worker now reserved noticed => s.work worker now reserved noticed
  | .receive => { s with gateway := s.gateway.receive }
  | .handle o => { s with gateway := s.gateway.handle o }
  | .abandon => { s with gateway := s.gateway.abandon }
  | .close => s.close
  | .clear => s.clear
  | .start => s.start

def Guarded (s : Pruning) : Prop :=
  ∀ generation deadline node rest, s.gate = .opened generation → s.consumer = .idle →
    s.gateway.peerTimeouts = (deadline, node) :: rest →
      ∃ w ∈ s.workers, w.generation = generation ∧ w.cancelled = false ∧ w.place.armed deadline

structure Armed (s : Pruning) : Prop where
  sorted : s.gateway.peerTimeouts.Pairwise fun a b => a.1 ≤ b.1
  current : ∀ generation, s.gate = .opened generation → s.generation = generation
  admitted : ∀ generation, s.consumer = .committed generation ∨ s.consumer = .notified generation →
    s.gate ≠ .stopped ∧ s.generation = generation
  stopped : s.gate = .stopped → s.gateway.peerTimeouts = []
  guarded : s.Guarded

variable {s : Pruning}

theorem armed_mono {place : PruneAt} {deadline later : Instant} (armed : place.armed deadline)
    (le : deadline ≤ later) : place.armed later := by
  cases place with
  | sleeping wake => exact Nat.le_trans armed le
  | done => exact armed
  | starting => trivial
  | reading => trivial
  | reserving => trivial
  | removing => trivial

theorem head_le_of_sublist {timeouts less : List (Instant × NodeId)}
    (sorted : timeouts.Pairwise fun a b => a.1 ≤ b.1) (sub : less.Sublist timeouts)
    {deadline : Instant} {node : NodeId} {rest : List (Instant × NodeId)}
    (front : less = (deadline, node) :: rest) :
    ∃ first rest', timeouts = first :: rest' ∧ first.1 ≤ deadline := by
  subst front
  have member := sub.subset List.mem_cons_self
  cases timeouts with
  | nil => cases member
  | cons first rest' =>
    refine ⟨first, rest', rfl, ?_⟩
    rcases List.mem_cons.mp member with same | later
    · rw [← same]
    · exact (List.pairwise_cons.mp sorted).1 _ later

theorem Guarded.fewer (h : s.Guarded)
    (sorted : s.gateway.peerTimeouts.Pairwise fun a b => a.1 ≤ b.1) {g : Gateway}
    (sub : g.peerTimeouts.Sublist s.gateway.peerTimeouts) :
    Guarded { s with gateway := g } := by
  intro generation deadline node rest opened idle front
  obtain ⟨⟨first, node'⟩, rest', before, le⟩ := head_le_of_sublist sorted sub front
  obtain ⟨w, member, mine, live, armed⟩ := h generation first node' rest' opened idle before
  exact ⟨w, member, mine, live, armed_mono armed le⟩

section Timeouts

variable (g : Gateway)

theorem onPeerState_of_not_commits {msg : PeerStateMessage} {called now : Instant} {current : Bool}
    (refused : g.commits msg called now current = false) :
    g.onPeerState msg called now current = g := by
  unfold Gateway.commits at refused
  unfold Gateway.onPeerState
  dsimp only
  split
  next managed =>
    rw [managed, Bool.true_and, Bool.and_eq_false_iff, Bool.not_eq_false'] at refused
    unfold Gateway.publish
    split
    · rfl
    next expired =>
      rcases refused with late | unknown
      · exact absurd (by simpa using late) expired
      · simp only [Bool.or_eq_false_iff, decide_eq_false_iff_not, not_not] at unknown
        rw [if_pos unknown.1]
        exact if_neg fun tracked => Bool.false_ne_true (unknown.2.symm.trans tracked)
  · rfl

variable {g}

theorem sorted_onPeerState (sorted : g.peerTimeouts.Pairwise fun a b => a.1 ≤ b.1)
    (msg : PeerStateMessage) (called now : Instant) (current : Bool) :
    (g.onPeerState msg called now current).peerTimeouts.Pairwise fun a b => a.1 ≤ b.1 := by
  unfold Gateway.onPeerState Gateway.publish
  dsimp only
  split
  · split
    · exact sorted
    · split
      · split
        · exact sorted.filter _
        · exact sorted
      · show (Gateway.insertTimeout _ _).Pairwise _
        rw [Gateway.insertTimeout_eq]
        exact (sorted.filter _).orderedInsert _ _
  · exact sorted

theorem onByebye_sublist (node : NodeId) :
    (g.onByebye node).peerTimeouts.Sublist g.peerTimeouts := by
  unfold Gateway.onByebye
  split
  · exact List.filter_sublist
  · exact List.Sublist.refl _

theorem prune_sublist (now : Instant) : (g.prune now).peerTimeouts.Sublist g.peerTimeouts := by
  unfold Gateway.prune
  split
  · exact List.Sublist.refl _
  next time peer timeouts front =>
    split
    · rw [front]
      exact List.sublist_cons_self _ _
    · exact List.Sublist.refl _

theorem peerTimeouts_receive : g.receive.peerTimeouts = g.peerTimeouts := by
  unfold Gateway.receive
  split <;> rfl

theorem peerTimeouts_abandon : g.abandon.peerTimeouts = g.peerTimeouts := by
  unfold Gateway.abandon
  split <;> rfl

theorem peerTimeouts_observedPeer (msg : PeerStateMessage) (o : Gateway.Observing) :
    (g.observedPeer msg o).peerTimeouts = g.peerTimeouts := by
  unfold Gateway.observedPeer
  dsimp only
  repeat' split
  all_goals rfl

theorem peerTimeouts_handle (o : Gateway.Observing) :
    (g.handle o).peerTimeouts = g.peerTimeouts := by
  unfold Gateway.handle
  split
  · rfl
  · exact peerTimeouts_observedPeer _ o
  · rfl
  · rfl

end Timeouts

theorem Armed.fewer (h : s.Armed) {g : Gateway}
    (sub : g.peerTimeouts.Sublist s.gateway.peerTimeouts) : Armed { s with gateway := g } where
  sorted := h.sorted.sublist sub
  current := h.current
  admitted := h.admitted
  stopped stopped := by
    have none := h.stopped stopped
    rw [none] at sub
    exact List.sublist_nil.mp sub
  guarded := h.guarded.fewer h.sorted sub

theorem Armed.same (h : s.Armed) {g : Gateway}
    (same : g.peerTimeouts = s.gateway.peerTimeouts) : Armed { s with gateway := g } :=
  h.fewer (by rw [same])

theorem Armed.peerState (h : s.Armed) (msg : PeerStateMessage) (called now : Instant)
    (current : Bool) : (s.peerState msg called now current).Armed := by
  unfold Pruning.peerState
  split
  next generation opened idle =>
    cases commits : s.gateway.commits msg called now current with
    | false =>
      rw [onPeerState_of_not_commits s.gateway commits, if_neg Bool.false_ne_true, ← idle]
      exact h
    | true =>
      rw [if_pos rfl]
      exact
        { sorted := sorted_onPeerState h.sorted msg called now current
          current := h.current
          admitted := by
            rintro _ (⟨⟨⟩⟩ | ⟨⟨⟩⟩)
            refine ⟨?_, h.current generation opened⟩
            rw [opened]
            rintro ⟨⟩
          stopped := by
            intro stopped
            rw [opened] at stopped
            cases stopped
          guarded := by rintro _ _ _ _ _ ⟨⟩ }
  · exact h

theorem Armed.byebye (h : s.Armed) (node : NodeId) : (s.byebye node).Armed := by
  unfold Pruning.byebye
  split
  next generation opened idle =>
    have fewer := h.fewer (onByebye_sublist (g := s.gateway) node)
    cases none : (s.gateway.onByebye node).peerTimeouts with
    | nil =>
      dsimp only
      rw [none, List.isEmpty_nil, if_pos rfl]
      refine { fewer with guarded := ?_ }
      intro _ _ _ _ _ _ front
      rw [none] at front
      cases front
    | cons first rest =>
      dsimp only
      rw [none, List.isEmpty_cons, if_neg Bool.false_ne_true]
      exact fewer
  · exact h

theorem Armed.notify (h : s.Armed) : s.notify.Armed := by
  unfold Pruning.notify
  split
  next generation committed =>
    exact
      { sorted := h.sorted
        current := h.current
        admitted := by
          rintro _ (⟨⟨⟩⟩ | ⟨⟨⟩⟩)
          exact h.admitted generation (.inl committed)
        stopped := h.stopped
        guarded := by rintro _ _ _ _ _ ⟨⟩ }
  · exact h

theorem Armed.schedule (h : s.Armed) : s.schedule.Armed := by
  unfold Pruning.schedule
  split
  next generation notified =>
    have admitted := (h.admitted generation (.inr notified)).2
    exact
      { sorted := h.sorted
        current := h.current
        admitted := by rintro _ (⟨⟨⟩⟩ | ⟨⟨⟩⟩)
        stopped := h.stopped
        guarded := by
          intro generation' deadline node rest opened _ _
          refine ⟨_, List.mem_append_right _ (List.mem_singleton_self _), ?_, rfl, trivial⟩
          exact admitted.symm.trans (h.current generation' opened) }
  · exact h

theorem armed_nextPlace {w : PruneWorker} {generation : Nat} {deadline now : Instant}
    (opened : s.gate = .opened generation) (mine : w.generation = generation)
    (live : w.cancelled = false) (armed : w.place.armed deadline) (reserved noticed : Bool) :
    (nextPlace w s.gate (some deadline) now reserved noticed).armed deadline := by
  unfold nextPlace
  rw [live, opened]
  simp only [LifecycleAt.isOpen, Bool.not_true, Bool.or_self, Bool.and_false, Bool.false_eq_true,
    if_false]
  cases place : w.place with
  | starting =>
    dsimp only
    rw [mine, if_pos rfl]
    trivial
  | reading => exact Nat.le_refl deadline
  | sleeping wake =>
    rw [place] at armed
    dsimp only
    split
    · trivial
    · exact armed
  | reserving =>
    dsimp only
    split <;> trivial
  | removing => trivial
  | done =>
    rw [place] at armed
    exact armed

theorem Armed.work (h : s.Armed) (worker : Nat) (now : Instant) (reserved noticed : Bool) :
    (s.work worker now reserved noticed).Armed := by
  unfold Pruning.work
  cases here : s.workers[worker]? with
  | none => exact h
  | some v =>
    dsimp only
    generalize place_eq : nextPlace v s.gate (s.gateway.peerTimeouts.head?.map Prod.fst) now
      reserved noticed = place
    have sub : ((if v.place = .removing && place = .reading then s.gateway.prune now
        else s.gateway).peerTimeouts).Sublist s.gateway.peerTimeouts := by
      split
      · exact prune_sublist now
      · exact List.Sublist.refl _
    have moved : Armed { s with workers := s.workers.set worker { v with place } } := by
      refine { h with guarded := ?_ }
      intro generation deadline node rest opened idle front
      obtain ⟨w, member, mine, live, armed⟩ := h.guarded generation deadline node rest opened idle
        front
      obtain ⟨i, found⟩ := List.getElem?_of_mem member
      by_cases same : worker = i
      · subst same
        rw [here] at found
        cases found
        have next : (nextPlace v s.gate (some deadline) now reserved noticed).armed deadline :=
          armed_nextPlace opened mine live armed reserved noticed
        have first : s.gateway.peerTimeouts.head?.map Prod.fst = some deadline := by
          rw [show s.gateway.peerTimeouts = _ from front]
          rfl
        rw [← first, place_eq] at next
        have inside := (List.getElem?_eq_some_iff.mp here).1
        exact ⟨_, List.mem_set inside _, mine, live, next⟩
      · have stays : (s.workers.set worker { v with place })[i]? = some w := by
          rw [List.getElem?_set_ne same, found]
        exact ⟨w, List.mem_of_getElem? stays, mine, live, armed⟩
    exact moved.fewer sub

theorem Armed.close (h : s.Armed) : s.close.Armed := by
  unfold Pruning.close
  split
  next generation opened =>
    exact
      { sorted := h.sorted
        current := by rintro _ ⟨⟩
        admitted := by
          intro generation' busy
          refine ⟨?_, (h.admitted generation' busy).2⟩
          rintro ⟨⟩
        stopped := by rintro ⟨⟩
        guarded := by rintro _ _ _ _ ⟨⟩ }
  · exact h

theorem Armed.clear (h : s.Armed) : s.clear.Armed := by
  unfold Pruning.clear
  split
  next quiet =>
    simp only [Bool.and_eq_true, decide_eq_true_eq] at quiet
    have idle := quiet.1.2
    exact
      { sorted := List.Pairwise.nil
        current := by rintro _ ⟨⟩
        admitted := by
          intro generation busy
          dsimp only at busy
          rw [idle] at busy
          rcases busy with ⟨⟨⟩⟩ | ⟨⟨⟩⟩
        stopped := fun _ => rfl
        guarded := by rintro _ _ _ _ ⟨⟩ }
  · exact h

theorem Armed.start (h : s.Armed) : s.start.Armed := by
  unfold Pruning.start
  split
  next stopped =>
    have none := h.stopped stopped
    exact
      { sorted := h.sorted
        current := by
          rintro _ ⟨⟩
          rfl
        admitted := fun generation busy => absurd stopped (h.admitted generation busy).1
        stopped := by rintro ⟨⟩
        guarded := by
          intro _ _ _ _ _ _ front
          dsimp only at front
          rw [none] at front
          cases front }
  · exact h

theorem Armed.step (h : s.Armed) (op : PruningOp) : (s.step op).Armed := by
  cases op with
  | peerState msg called now current => exact h.peerState msg called now current
  | notify => exact h.notify
  | schedule => exact h.schedule
  | byebye node => exact h.byebye node
  | work worker now reserved noticed => exact h.work worker now reserved noticed
  | receive => exact h.same peerTimeouts_receive
  | handle o => exact h.same (peerTimeouts_handle o)
  | abandon => exact h.same peerTimeouts_abandon
  | close => exact h.close
  | clear => exact h.clear
  | start => exact h.start

theorem armed_new : new.Armed where
  sorted := List.Pairwise.nil
  current := by
    rintro _ ⟨⟩
    rfl
  admitted := by rintro _ (⟨⟨⟩⟩ | ⟨⟨⟩⟩)
  stopped := by rintro ⟨⟩
  guarded := by rintro _ _ _ _ _ _ ⟨⟩

theorem armed_run (ops : List PruningOp) : (Run.run step new ops).Armed :=
  Run.run_keeps (fun _ op h => h.step op) ops armed_new

def Prunes (s : Pruning) (worker : Nat) (now : Instant) (k : Nat) : Prop :=
  ∀ deadline node rest, s.gateway.peerTimeouts = (deadline, node) :: rest →
    deadline + milliseconds 100 ≤ now →
      let s' := Run.run step s (List.replicate k (.work worker now true true))
      s'.gateway.peerTimeouts = rest ∧
        s'.gateway.sent = s.gateway.sent ++ [.peerTimedOut node]

section Prunes

variable {w : PruneWorker} {worker generation : Nat} {deadline now : Instant}

theorem Prunes.next {place : PruneAt} {k : Nat} (here : s.workers[worker]? = some w)
    (early : w.place ≠ .removing)
    (moves : nextPlace w s.gate (s.gateway.peerTimeouts.head?.map Prod.fst) now true true = place)
    (rest : Prunes { s with workers := s.workers.set worker { w with place } } worker now k) :
    s.Prunes worker now (k + 1) := by
  intro deadline node timeouts front due
  have worked : s.step (.work worker now true true) =
      { s with workers := s.workers.set worker { w with place } } := by
    show s.work worker now true true = _
    unfold Pruning.work
    rw [here]
    dsimp only
    rw [moves]
    simp [early]
  intro s'
  have split : s' = Run.run Pruning.step { s with workers := s.workers.set worker { w with place } }
      (List.replicate k (.work worker now true true)) := by
    show Run.run Pruning.step s _ = _
    rw [List.replicate_succ, Run.run_cons, worked]
  rw [split]
  exact rest deadline node timeouts front due

theorem prunes_removing (here : s.workers[worker]? = some w) (live : w.cancelled = false)
    (opened : s.gate = .opened generation) (place : w.place = .removing) :
    s.Prunes worker now 1 := by
  intro deadline node rest front due
  have worked : (s.work worker now true true).gateway = s.gateway.prune now := by
    unfold Pruning.work
    rw [here]
    simp [nextPlace, live, opened, place, LifecycleAt.isOpen]
  have removed : s.gateway.prune now =
      { s.gateway with peerTimeouts := rest }.send (.peerTimedOut node) := by
    unfold Gateway.prune
    rw [front]
    exact if_pos (Nat.le_of_add_right_le due)
  show (s.work worker now true true).gateway.peerTimeouts = _ ∧
    (s.work worker now true true).gateway.sent = _
  rw [worked, removed]
  exact ⟨rfl, rfl⟩

theorem set_here (here : s.workers[worker]? = some w) (v : PruneWorker) :
    (s.workers.set worker v)[worker]? = some v :=
  List.getElem?_set_self (List.getElem?_eq_some_iff.mp here).1

theorem prunes_reserving (here : s.workers[worker]? = some w) (live : w.cancelled = false)
    (opened : s.gate = .opened generation) (place : w.place = .reserving) :
    s.Prunes worker now 2 := by
  refine Prunes.next here (by rw [place]; rintro ⟨⟩) ?_
    (prunes_removing (set_here here { w with place := .removing }) live opened rfl)
  simp [nextPlace, live, opened, place, LifecycleAt.isOpen]

theorem prunes_sleeping (here : s.workers[worker]? = some w) (live : w.cancelled = false)
    (opened : s.gate = .opened generation) (place : w.place = .sleeping deadline)
    (due : deadline + milliseconds 100 ≤ now) : s.Prunes worker now 3 := by
  refine Prunes.next here (by rw [place]; rintro ⟨⟩) ?_
    (prunes_reserving (set_here here { w with place := .reserving }) live opened rfl)
  simp [nextPlace, live, opened, place, due, LifecycleAt.isOpen]

theorem prunes_reading (here : s.workers[worker]? = some w) (live : w.cancelled = false)
    (opened : s.gate = .opened generation) (place : w.place = .reading)
    (first : s.gateway.peerTimeouts.head?.map Prod.fst = some deadline)
    (due : deadline + milliseconds 100 ≤ now) : s.Prunes worker now 4 := by
  refine Prunes.next here (by rw [place]; rintro ⟨⟩) ?_
    (prunes_sleeping (set_here here { w with place := .sleeping deadline }) live opened rfl due)
  simp [nextPlace, live, opened, place, first, LifecycleAt.isOpen]

theorem prunes_starting (here : s.workers[worker]? = some w) (live : w.cancelled = false)
    (opened : s.gate = .opened w.generation) (place : w.place = .starting)
    (first : s.gateway.peerTimeouts.head?.map Prod.fst = some deadline)
    (due : deadline + milliseconds 100 ≤ now) : s.Prunes worker now 5 := by
  refine Prunes.next here (by rw [place]; rintro ⟨⟩) ?_
    (prunes_reading (set_here here { w with place := .reading }) live opened rfl first due)
  simp [nextPlace, live, opened, place, LifecycleAt.isOpen]

end Prunes

/-- In every run, while the gate is open and no announcement is being handed over, the first peer
has a worker of this lifecycle that was not cancelled, sleeps no longer than the peer's own deadline
and needs at most five steps, 100 ms after it, to take the peer away and to report it. -/
theorem pruner_never_stranded (ops : List PruningOp) :
    let s := Run.run step new ops
    ∀ generation deadline node rest, s.gate = .opened generation → s.consumer = .idle →
      s.gateway.peerTimeouts = (deadline, node) :: rest →
        ∃ worker w, s.workers[worker]? = some w ∧ w.generation = generation ∧
          w.cancelled = false ∧ w.place.armed deadline ∧
          ∀ now, deadline + milliseconds 100 ≤ now → ∃ k ≤ 5, s.Prunes worker now k := by
  intro s generation deadline node rest opened idle front
  obtain ⟨w, member, mine, live, armed⟩ :=
    (armed_run ops).guarded generation deadline node rest opened idle front
  obtain ⟨worker, here⟩ := List.getElem?_of_mem member
  refine ⟨worker, w, here, mine, live, armed, fun now due => ?_⟩
  have first : s.gateway.peerTimeouts.head?.map Prod.fst = some deadline := by
    rw [front]
    rfl
  cases place : w.place with
  | starting =>
    rw [← mine] at opened
    exact ⟨5, Nat.le_refl 5, prunes_starting here live opened place first due⟩
  | reading => exact ⟨4, by omega, prunes_reading here live opened place first due⟩
  | sleeping wake =>
    rw [place] at armed
    have early : wake ≤ deadline := armed
    exact ⟨3, by omega,
      prunes_sleeping here live opened place (Nat.le_trans (Nat.add_le_add_right early _) due)⟩
  | reserving => exact ⟨2, by omega, prunes_reserving here live opened place⟩
  | removing => exact ⟨1, by omega, prunes_removing here live opened place⟩
  | done =>
    rw [place] at armed
    exact armed.elim

theorem pruner_never_stranded_announced :
    let timeline : Timeline := ⟨⟨500000⟩, ⟨0⟩, .zero⟩
    let msg : PeerStateMessage :=
      ⟨⟨default, default, timeline, default⟩, 5, none, none, none, none⟩
    let s := Run.run step new [.peerState msg 0 0 true, .notify, .schedule]
    s.gateway.peerTimeouts = [(seconds 3, default)] ∧
      ∃ worker w, s.workers[worker]? = some w ∧ w.generation = 0 ∧
        w.cancelled = false ∧ w.place.armed (seconds 3) ∧
        ∀ now, seconds 3 + milliseconds 100 ≤ now → ∃ k ≤ 5, s.Prunes worker now k := by
  intro timeline msg s
  have front : s.gateway.peerTimeouts = [(seconds 3, default)] := by decide
  exact ⟨front, pruner_never_stranded [.peerState msg 0 0 true, .notify, .schedule] 0 (seconds 3)
    default [] (by decide) (by decide) front⟩

end Pruning

end AbletonLink.Discovery
