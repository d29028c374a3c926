import AbletonLink.Link.Dispatch

/-! No lifecycle of the dispatch gate sees another one's work. -/

universe u

namespace AbletonLink.Link

open Library.Run

def ConsumerAt.permit {T : Type u} : ConsumerAt T → Bool
  | .checking | .checked | .parked _ | .polling _ | .discarding _ | .returned _ _ => true
  | _ => false

def WorkerAt.permit : WorkerAt → Bool
  | .checking _ | .comparing _ | .running _ | .polling _ => true
  | _ => false

def Permit.after (before : Bool) : Permit → Bool
  | .keep => before
  | .acquire => true
  | .drop => false

theorem Permit.mem_apply {task task' : Task} {held : List Task} (permit : Permit) :
    task' ∈ permit.apply task held ↔
      if task' = task then permit.after (decide (task ∈ held)) = true else task' ∈ held := by
  split
  next same =>
    subst same
    cases permit <;> simp [apply, after]
  next other =>
    cases permit <;> simp [apply, other]

theorem Consumer.step_permit {T : Type u} (gate : DispatchGate) (published : Nat)
    (queue : List (Item T)) (x : Consumer T) :
    (x.step gate published queue).1.place.permit =
      (x.step gate published queue).2.2.after x.place.permit := by
  unfold Consumer.step
  cases place : x.place with
  | drained state => cases state <;> rfl
  | draining | receiving | polling | discarding =>
    cases queue <;> simp [at_, Permit.after, ConsumerAt.permit, place]
  | _ =>
    dsimp only
    (try split) <;> rfl

theorem Consumer.cancel_permit {T : Type u} (x : Consumer T) :
    x.cancel.1.place.permit = x.cancel.2.after x.place.permit := by
  unfold Consumer.cancel
  cases place : x.place <;> simp [at_, Permit.after, ConsumerAt.permit, place]

theorem WorkerAt.step_permit (gate : DispatchGate) (finished : Bool) (x : WorkerAt) :
    (x.step gate finished).1.permit = (x.step gate finished).2.after x.permit := by
  cases x <;> simp only [WorkerAt.step] <;> (try split) <;> rfl

theorem WorkerAt.cancel_permit (x : WorkerAt) : x.cancel.1.permit = x.cancel.2.after x.permit := by
  cases x <;> rfl

@[simp] theorem DispatchGate.close_active (gate : DispatchGate) : gate.close.active = .closed := by
  unfold DispatchGate.close
  split <;> simp_all [DispatchGate.sendReplace]

theorem DispatchGate.close_frame (gate : DispatchGate) :
    gate.close.epoch = gate.epoch ∧ gate.close.locked = gate.locked ∧
      gate.close.subscribers = gate.subscribers ∧ gate.close.inFlight = gate.inFlight := by
  unfold DispatchGate.close
  split <;> exact ⟨rfl, rfl, rfl, rfl⟩

namespace Dispatch

variable {T : Type u}

def holds (s : Dispatch T) : Task → Bool
  | .consumer c => (s.consumers c).any fun x => x.place.permit
  | .worker w => (s.workers w).permit

/-- The epochs of the gate are isolated from each other.

* `fresh`: an item enqueued before `Preparing(e)` is never returned under an epoch from `e` on by
  a consumer subscribed before that `start`;
* `current`: a returned item is paired with the gate's epoch as long as its permit is held;
* `stop`: no `stop` returns while a permit is held;
* `work`: the work of `run_in_epoch(e)` is polled only while `e` is the gate's epoch;
* `drained`: when a `start` opens the gate, every live subscriber has drained its queue since the
  preparation of the gate's epoch was published. -/
structure Isolated (s : Dispatch T) : Prop where
  fresh : ∀ c x k item, s.consumers c = some x → x.place = .returned k item →
    ∀ e, item.sentIn < e → x.subscribedIn < e → ¬ e ≤ k
  current : ∀ c x k item, s.consumers c = some x → x.place = .returned k item → k = s.gate.epoch
  stop : ∀ task, s.holds task = true → s.step .stopReturn = s
  work : ∀ w e, s.workers w = .polling e → s.gate.epoch = e
  drained : ∀ i e, s.starts i = .opening e → s.published = s.gate.epoch ∧
    ∀ c x, s.consumers c = some x → s.gate.epoch ≤ x.drainedIn

/-- No `start` is under way, and the gate is open or a `stop` is waiting. -/
def Quiet (s : Dispatch T) : Prop :=
  (∀ i, s.starts i = .idle) ∧ (s.gate.active = .opened ∨ s.stopping = true)

def Served (s : Dispatch T) (x : Consumer T) : Prop :=
  x.subscribedIn < s.gate.epoch → s.gate.epoch ≤ x.preparedEpoch

def PlaceOk (s : Dispatch T) (x : Consumer T) : ConsumerAt T → Prop
  | .draining (.preparing e) => x.preparedEpoch ≤ e ∧ e ≤ s.published
  | .drained (.preparing e) => x.preparedEpoch ≤ e ∧ e ≤ x.drainedIn
  | .checked => s.Quiet ∧ s.Served x
  | .parked k | .polling k | .discarding k => s.Quiet ∧ s.Served x ∧ k = s.gate.epoch
  | .returned k item => s.Quiet ∧ s.Served x ∧ k = s.gate.epoch ∧ x.drainedIn ≤ item.sentIn
  | _ => True

structure ConsumerOk (s : Dispatch T) (queue : List (Item T)) (x : Consumer T) : Prop where
  prepared : x.preparedEpoch ≤ x.drainedIn
  drained : x.drainedIn ≤ s.published
  queue : ∀ item ∈ queue, x.drainedIn ≤ item.sentIn
  place : s.PlaceOk x x.place

def WorkerOk (s : Dispatch T) : WorkerAt → Prop
  | .comparing _ => s.Quiet
  | .running e | .polling e => s.Quiet ∧ e = s.gate.epoch
  | _ => True

def StartOk (s : Dispatch T) : StartAt → Prop
  | .idle | .checked => True
  | .bumped e => e = s.gate.epoch
  | .preparing e => e = s.gate.epoch ∧ s.published = e
  | .opening e => e = s.gate.epoch ∧ s.published = e ∧ s.gate.locked = true ∧
      ∀ c x, s.consumers c = some x → e ≤ x.preparedEpoch

/-- What the gate says on its own: one `start` at a time, from a gate that is not open. -/
structure GateOk (s : Dispatch T) : Prop where
  published : s.published ≤ s.gate.epoch
  alone : ∀ i j, s.starts i ≠ .idle → s.starts j ≠ .idle → i = j
  shut : ∀ i, s.starts i ≠ .idle → s.gate.active ≠ .opened
  starting : ∀ i, s.StartOk (s.starts i)
  preparing : ∀ e, s.gate.active = .preparing e → e = s.published
  opened : s.gate.active = .opened → ∀ c x, s.consumers c = some x → s.Served x
  listed : ∀ c x, s.consumers c = some x → c ∈ s.gate.subscribers

structure Inv (s : Dispatch T) : Prop where
  gate : s.GateOk
  consumers : ∀ c x, s.consumers c = some x → s.ConsumerOk (s.queues c) x
  workers : ∀ w, s.WorkerOk (s.workers w)
  permits : ∀ task, task ∈ s.gate.inFlight ↔ s.holds task = true

theorem inv_new {gate : DispatchGate} (fresh : gate = .new ∨ gate = .newOpen) :
    (new gate : Dispatch T).Inv := by
  have epoch : gate.epoch = 0 := by rcases fresh with rfl | rfl <;> rfl
  have inFlight : gate.inFlight = [] := by rcases fresh with rfl | rfl <;> rfl
  have active : ∀ e, gate.active ≠ .preparing e := by rcases fresh with rfl | rfl <;> nofun
  constructor
  · constructor
    · simp [new]
    · simp [new]
    · simp [new]
    · simp [new, StartOk]
    · exact fun e preparing => absurd preparing (active e)
    · simp [new]
    · simp [new]
  · simp [new]
  · simp [new, WorkerOk]
  · intro task
    cases task <;> simp [new, holds, inFlight, WorkerAt.permit]

theorem inv_isolated {s : Dispatch T} (h : s.Inv) : s.Isolated := by
  constructor
  · intro c x k item live place e sent subscribed below
    have ok := h.consumers c x live
    have prepared := ok.prepared
    have at_ := ok.place
    rw [place] at at_
    obtain ⟨-, served, rfl, drained⟩ := at_
    have := served (by omega)
    omega
  · intro c x k item live place
    have at_ := (h.consumers c x live).place
    rw [place] at at_
    exact at_.2.2.1
  · intro task holds
    have member := (h.permits task).mpr holds
    have nonempty : s.gate.inFlight ≠ [] := List.ne_nil_of_mem member
    simp [step, stopReturn, nonempty]
  · intro w e place
    have ok := h.workers w
    rw [place] at ok
    exact ok.2.symm
  · intro i e place
    have ok := h.gate.starting i
    rw [place] at ok
    obtain ⟨rfl, published, -, ready⟩ := ok
    refine ⟨published, fun c x live => ?_⟩
    exact (ready c x live).trans (h.consumers c x live).prepared

theorem ConsumerOk.frame {s s' : Dispatch T} {queue : List (Item T)} {x : Consumer T}
    (h : s.ConsumerOk queue x) (published : s.published ≤ s'.published)
    (quiet : s.Quiet → s'.Quiet ∧ s'.gate.epoch = s.gate.epoch) : s'.ConsumerOk queue x := by
  obtain ⟨prepared, drained, queue, place⟩ := h
  refine ⟨prepared, drained.trans published, queue, ?_⟩
  cases at_ : x.place with
  | draining state =>
    rw [at_] at place
    cases state with
    | preparing e => exact ⟨place.1, place.2.trans published⟩
    | _ => trivial
  | drained state =>
    rw [at_] at place
    cases state <;> exact place
  | checked | parked | polling | discarding | returned =>
    rw [at_] at place
    obtain ⟨quiet, epoch⟩ := quiet place.1
    simp only [PlaceOk, Served, epoch] at place ⊢
    exact ⟨quiet, place.2⟩
  | _ => trivial

theorem WorkerOk.frame {s s' : Dispatch T} {x : WorkerAt} (h : s.WorkerOk x)
    (quiet : s.Quiet → s'.Quiet ∧ s'.gate.epoch = s.gate.epoch) : s'.WorkerOk x := by
  cases x with
  | comparing e => exact (quiet h).1
  | running | polling =>
    obtain ⟨quiet, epoch⟩ := quiet h.1
    exact ⟨quiet, h.2.trans epoch.symm⟩
  | _ => trivial

theorem Inv.of_gate {s s' : Dispatch T} (h : s.Inv) (consumers : s'.consumers = s.consumers)
    (queues : s'.queues = s.queues) (workers : s'.workers = s.workers)
    (inFlight : s'.gate.inFlight = s.gate.inFlight) (published : s.published ≤ s'.published)
    (quiet : s.Quiet → s'.Quiet ∧ s'.gate.epoch = s.gate.epoch) (gate : s'.GateOk) : s'.Inv := by
  refine ⟨gate, fun c x live => ?_, fun w => ?_, fun task => ?_⟩
  · rw [queues]
    exact (h.consumers c x (consumers ▸ live)).frame published quiet
  · rw [workers]
    exact (h.workers w).frame quiet
  · rw [inFlight, h.permits]
    cases task <;> simp only [holds, consumers, workers]

theorem not_quiet {s : Dispatch T} {i : Nat} (busy : s.starts i ≠ .idle) : ¬ s.Quiet :=
  fun quiet => busy (quiet.1 i)

theorem StartOk.frame {s s' : Dispatch T} {place : StartAt} (h : s.StartOk place)
    (epoch : s'.gate.epoch = s.gate.epoch) (published : s'.published = s.published)
    (locked : s.gate.locked = true → s'.gate.locked = true)
    (consumers : s.gate.locked = true → ∀ c y, s'.consumers c = some y →
      ∃ x, s.consumers c = some x ∧ x.preparedEpoch ≤ y.preparedEpoch) : s'.StartOk place := by
  cases place with
  | idle | checked => trivial
  | bumped e => exact h.trans epoch.symm
  | preparing e => exact ⟨h.1.trans epoch.symm, published.trans h.2⟩
  | opening e =>
    obtain ⟨current, last, holds, ready⟩ := h
    refine ⟨current.trans epoch.symm, published.trans last, locked holds, fun c y live => ?_⟩
    obtain ⟨x, before, later⟩ := consumers holds c y live
    exact (ready c x before).trans later

def Continues (s : Dispatch T) (c : Nat) (y : Consumer T) : Prop :=
  (∃ x, s.consumers c = some x ∧ y.subscribedIn = x.subscribedIn ∧
    x.preparedEpoch ≤ y.preparedEpoch) ∨ s.gate.locked = false ∧ y.subscribedIn = s.gate.epoch

theorem GateOk.of_task {s s' : Dispatch T} (h : s.GateOk) (starts : s'.starts = s.starts)
    (active : s'.gate.active = s.gate.active) (epoch : s'.gate.epoch = s.gate.epoch)
    (locked : s'.gate.locked = s.gate.locked) (published : s'.published = s.published)
    (consumers : ∀ c y, s'.consumers c = some y → s.Continues c y)
    (listed : ∀ c y, s'.consumers c = some y → c ∈ s'.gate.subscribers) : s'.GateOk := by
  refine ⟨published ▸ epoch ▸ h.published, starts ▸ h.alone, starts ▸ active ▸ h.shut, fun i => ?_,
    published ▸ active ▸ h.preparing, fun opened c y live earlier => ?_, listed⟩
  · rw [starts]
    refine (h.starting i).frame epoch published locked.trans fun holds c y live => ?_
    cases consumers c y live with
    | inl going =>
      obtain ⟨x, before, -, later⟩ := going
      exact ⟨x, before, later⟩
    | inr new => simp [holds] at new
  · rw [epoch] at earlier ⊢
    cases consumers c y live with
    | inl going =>
      obtain ⟨x, before, same, later⟩ := going
      exact (h.opened (active ▸ opened) c x before (same ▸ earlier)).trans later
    | inr new => omega

theorem GateOk.quiet {s : Dispatch T} (h : s.GateOk) (opened : s.gate.isOpen = true) :
    s.Quiet := by
  have opened : s.gate.active = .opened := by simpa [DispatchGate.isOpen] using opened
  refine ⟨fun i => ?_, .inl opened⟩
  by_contra busy
  exact h.shut i busy opened

theorem GateOk.starts_update {s : Dispatch T} (h : s.GateOk) {i : Nat}
    (busy : s.starts i ≠ .idle) (place : StartAt) (j : Nat) :
    Function.update s.starts i place j = if j = i then place else .idle := by
  by_cases same : j = i
  · subst same
    simp
  · rw [Function.update_of_ne same, if_neg same]
    by_contra other
    exact same (h.alone j i other busy)

theorem GateOk.move_start {s s' : Dispatch T} (h : s.GateOk) {i : Nat} {place : StartAt}
    (busy : s.starts i ≠ .idle) (starts : s'.starts = Function.update s.starts i place)
    (published : s'.published ≤ s'.gate.epoch) (own : s'.StartOk place)
    (shut : place = .idle ∨ s'.gate.active ≠ .opened)
    (preparing : ∀ e, s'.gate.active = .preparing e → e = s'.published)
    (opened : s'.gate.active = .opened → ∀ c x, s'.consumers c = some x → s'.Served x)
    (listed : ∀ c x, s'.consumers c = some x → c ∈ s'.gate.subscribers) : s'.GateOk := by
  have at_ (j : Nat) : s'.starts j = if j = i then place else .idle := by
    rw [starts, h.starts_update busy place j]
  have only (j : Nat) (busy : s'.starts j ≠ .idle) : j = i := by
    by_contra other
    rw [at_, if_neg other] at busy
    exact busy rfl
  refine ⟨published, fun j k hj hk => (only j hj).trans (only k hk).symm, fun j hj => ?_,
    fun j => ?_, preparing, opened, listed⟩
  · have same := only j hj
    rw [at_, if_pos same] at hj
    exact shut.resolve_left hj
  · rw [at_]
    split
    · exact own
    · trivial

theorem mem_live {s : Dispatch T} {c : Nat} {x : Consumer T} (listed : c ∈ s.gate.subscribers)
    (live : s.consumers c = some x) : c ∈ s.live := by
  simp [Dispatch.live, listed, live]

theorem allReady_prepared {s : Dispatch T} (h : s.GateOk) {e : Nat} (ready : s.allReady e = true)
    (c : Nat) (x : Consumer T) (live : s.consumers c = some x) : e ≤ x.preparedEpoch := by
  have here := List.all_eq_true.mp ready c (mem_live (h.listed c x live) live)
  simpa [live] using here

/-- A `start` is called only when no earlier `start` or `stop` is still pending, and the counter of
epochs has not run out. -/
def StartsAlone (s : Dispatch T) : DispatchOp T → Prop
  | .start _ => s.stopping = false ∧ ∀ j, s.starts j = .idle
  | .startStep i => s.starts i = .checked → s.gate.epoch + 1 < 2 ^ 64
  | _ => True

theorem startStep_inv {s : Dispatch T} (h : s.Inv) (i : Nat)
    (alone : s.StartsAlone (.startStep i)) : (s.startStep i).Inv := by
  have gate := h.gate
  have own := gate.starting i
  cases place : s.starts i with
  | idle => simpa only [startStep, place] using h
  | checked =>
    have busy : s.starts i ≠ .idle := by simp [place]
    have shut := gate.shut i busy
    have bumped : s.gate.nextEpoch = s.gate.epoch + 1 := Nat.mod_eq_of_lt (alone place)
    simp only [startStep, place, bumped]
    refine h.of_gate rfl rfl rfl rfl (Nat.le_refl _) (fun quiet => absurd quiet (not_quiet busy)) ?_
    refine gate.move_start busy rfl (Nat.le_succ_of_le gate.published) rfl (.inr shut)
      gate.preparing (fun opened => absurd opened shut) gate.listed
  | bumped e =>
    have busy : s.starts i ≠ .idle := by simp [place]
    rw [place] at own
    have latest : max s.published e = e := by
      have := gate.published
      simp only [StartOk] at own
      omega
    simp only [startStep, place]
    refine h.of_gate rfl rfl rfl rfl (Nat.le_max_left _ _)
      (fun quiet => absurd quiet (not_quiet busy)) ?_
    refine gate.move_start busy rfl ?_ ⟨own, latest⟩ (.inr nofun) ?_ nofun gate.listed
    · exact latest.trans_le (Nat.le_of_eq own)
    · intro e' preparing
      cases preparing
      exact latest.symm
  | preparing e =>
    have busy : s.starts i ≠ .idle := by simp [place]
    have shut := gate.shut i busy
    have listed : ∀ c x, s.consumers c = some x → c ∈ s.live :=
      fun c x live => mem_live (gate.listed c x live) live
    rw [place] at own
    simp only [startStep, place]
    split
    · exact h
    split
    next ready =>
      refine h.of_gate rfl rfl rfl rfl (Nat.le_refl _)
        (fun quiet => absurd quiet (not_quiet busy)) ?_
      exact gate.move_start busy rfl gate.published
        ⟨own.1, own.2, rfl, allReady_prepared gate ready⟩ (.inr shut) gate.preparing
        (fun opened => absurd opened shut) listed
    next =>
      exact h.of_gate rfl rfl rfl rfl (Nat.le_refl _) (fun quiet => ⟨quiet, rfl⟩)
        ⟨gate.published, gate.alone, gate.shut, gate.starting, gate.preparing, gate.opened, listed⟩
  | opening e =>
    have busy : s.starts i ≠ .idle := by simp [place]
    rw [place] at own
    obtain ⟨rfl, published, -, ready⟩ := own
    simp only [startStep, place]
    refine h.of_gate rfl rfl rfl rfl (Nat.le_refl _)
      (fun quiet => absurd quiet (not_quiet busy)) ?_
    exact gate.move_start busy rfl gate.published trivial (.inl rfl) nofun
      (fun _ c x live _ => ready c x live) gate.listed

theorem start_inv {s : Dispatch T} (h : s.Inv) (i : Nat) (alone : s.StartsAlone (.start i)) :
    (s.step (.start i)).Inv := by
  obtain ⟨running, idle⟩ := alone
  have gate := h.gate
  simp only [step]
  split
  · exact h
  next closed =>
    have shut : s.gate.active ≠ .opened := by
      intro opened
      exact closed (.inl (by simp [DispatchGate.isOpen, opened]))
    have only (j : Nat) (busy : (s.startAt i .checked).starts j ≠ .idle) : j = i := by
      by_contra other
      exact busy (by simp [startAt, Function.update_of_ne other, idle])
    refine h.of_gate rfl rfl rfl rfl (Nat.le_refl _) (fun quiet => ?_) ?_
    · cases quiet.2 with
      | inl opened => exact absurd opened shut
      | inr stopping => simp [running] at stopping
    · refine ⟨gate.published, fun j k hj hk => (only j hj).trans (only k hk).symm,
        fun _ _ => shut, fun j => ?_, gate.preparing, gate.opened, gate.listed⟩
      by_cases same : j = i
      · subst same
        simp [startAt, StartOk]
      · simp [startAt, Function.update_of_ne same, idle, StartOk]

theorem publishFails_inv {s : Dispatch T} (h : s.Inv) (i : Nat) :
    (s.step (.publishFails i)).Inv := by
  have gate := h.gate
  have own := gate.starting i
  cases place : s.starts i with
  | opening e =>
    have busy : s.starts i ≠ .idle := by simp [place]
    have shut := gate.shut i busy
    rw [place] at own
    simp only [step, place]
    refine h.of_gate rfl rfl rfl rfl (Nat.le_refl _)
      (fun quiet => absurd quiet (not_quiet busy)) ?_
    exact gate.move_start busy rfl gate.published ⟨own.1, own.2.1⟩ (.inr shut) gate.preparing
      (fun opened => absurd opened shut) gate.listed
  | _ => simpa only [step, place] using h

theorem startCancel_inv {s : Dispatch T} (h : s.Inv) (i : Nat) : (s.step (.startCancel i)).Inv := by
  have gate := h.gate
  cases place : s.starts i with
  | preparing e =>
    have busy : s.starts i ≠ .idle := by simp [place]
    simp only [step, place]
    refine h.of_gate rfl rfl rfl rfl (Nat.le_refl _)
      (fun quiet => absurd quiet (not_quiet busy)) ?_
    exact gate.move_start busy rfl gate.published trivial (.inl rfl) gate.preparing gate.opened
      gate.listed
  | _ => simpa only [step, place] using h

theorem stop_inv {s : Dispatch T} (h : s.Inv) : (s.step .stop).Inv := by
  have gate := h.gate
  obtain ⟨epoch, locked, subscribers, inFlight⟩ := s.gate.close_frame
  refine h.of_gate rfl rfl rfl inFlight (Nat.le_refl _)
    (fun quiet => ⟨⟨quiet.1, .inr rfl⟩, epoch⟩) ?_
  refine ⟨epoch ▸ gate.published, gate.alone, fun _ _ => ?_, fun i => ?_, ?_, ?_, ?_⟩
  · simp [step]
  · refine (gate.starting i).frame epoch rfl locked.trans fun _ c x live => ⟨x, live, Nat.le_refl _⟩
  · simp [step]
  · simp [step]
  · simpa [step, subscribers] using gate.listed

theorem ConsumerOk.of_unheld {s s' : Dispatch T} {queue : List (Item T)} {x : Consumer T}
    (h : s.ConsumerOk queue x) (published : s'.published = s.published)
    (unheld : x.place.permit = false) : s'.ConsumerOk queue x := by
  obtain ⟨prepared, drained, queue, place⟩ := h
  refine ⟨prepared, published ▸ drained, queue, ?_⟩
  cases at_ : x.place with
  | draining state =>
    rw [at_] at place
    cases state with
    | preparing e => exact ⟨place.1, published ▸ place.2⟩
    | _ => trivial
  | drained state =>
    rw [at_] at place
    cases state <;> exact place
  | checked | parked | polling | discarding | returned => simp [at_, ConsumerAt.permit] at unheld
  | _ => trivial

theorem stopReturn_inv {s : Dispatch T} (h : s.Inv) : s.stopReturn.Inv := by
  have gate := h.gate
  unfold stopReturn
  split
  next none =>
    have unheld (task : Task) : s.holds task = false := by
      have := h.permits task
      simpa [none] using this
    refine ⟨⟨gate.published, gate.alone, gate.shut, gate.starting, gate.preparing, gate.opened,
      gate.listed⟩, fun c x live => ?_, fun w => ?_, h.permits⟩
    · refine (h.consumers c x live).of_unheld rfl ?_
      have live : s.consumers c = some x := live
      simpa [holds, live] using unheld (.consumer c)
    · have unheld := unheld (.worker w)
      show WorkerOk _ (s.workers w)
      cases place : s.workers w with
      | comparing | running | polling => simp [holds, place, WorkerAt.permit] at unheld
      | _ => trivial
  next => exact h

theorem Inv.of_consumer {s s' : Dispatch T} (h : s.Inv) (c : Nat) (y : Option (Consumer T))
    (queue : List (Item T)) (permit : Permit) {subscribers : List Nat}
    (next : s' = { s with
      gate := { s.gate with
        subscribers, inFlight := permit.apply (.consumer c) s.gate.inFlight }
      consumers := Function.update s.consumers c y
      queues := Function.update s.queues c queue })
    (listed : ∀ c' x, s.consumers c' = some x → c' ∈ subscribers)
    (own : ∀ x, y = some x → c ∈ subscribers ∧ s.Continues c x ∧ s.ConsumerOk queue x)
    (held : (y.any fun x => x.place.permit) = permit.after (s.holds (.consumer c))) : s'.Inv := by
  subst next
  have frame : s.Quiet → s.Quiet ∧ s.gate.epoch = s.gate.epoch := fun quiet => ⟨quiet, rfl⟩
  constructor
  · refine h.gate.of_task rfl rfl rfl rfl rfl (fun c' x live => ?_) (fun c' x live => ?_)
    all_goals
      dsimp only at live ⊢
      by_cases same : c' = c
      · subst same
        rw [Function.update_self] at live
        have own := own x live
        simp only [own]
      · rw [Function.update_of_ne same] at live
        first | exact listed c' x live | exact .inl ⟨x, live, rfl, Nat.le_refl _⟩
  · intro c' x live
    dsimp only at live ⊢
    by_cases same : c' = c
    · subst same
      rw [Function.update_self] at live ⊢
      exact (own x live).2.2.frame (Nat.le_refl _) frame
    · rw [Function.update_of_ne same] at live ⊢
      exact (h.consumers c' x live).frame (Nat.le_refl _) frame
  · exact fun w => (h.workers w).frame frame
  · intro task
    dsimp only
    rw [Permit.mem_apply]
    cases task with
    | worker w =>
      rw [if_neg nofun]
      exact h.permits (.worker w)
    | consumer c' =>
      by_cases same : c' = c
      · subst same
        simp [holds, h.permits, held]
      · have other : Task.consumer c' ≠ .consumer c := by simpa using same
        rw [if_neg other, h.permits]
        simp only [holds, Function.update_of_ne same]

theorem subscribe_inv {s : Dispatch T} (h : s.Inv) (c : Nat) : (s.subscribe c).Inv := by
  have listed : ∀ c' x, s.consumers c' = some x → c' ∈ s.live ++ [c] :=
    fun c' x live => List.mem_append_left _ (mem_live (h.gate.listed c' x live) live)
  unfold subscribe
  split
  next absent unlocked =>
    refine h.of_consumer c (some _) (s.queues c) .keep
      (by rw [Function.update_eq_self]; rfl) listed ?_ ?_
    · rintro x ⟨⟩
      refine ⟨by simp, .inr ⟨unlocked, rfl⟩, Nat.le_refl _, Nat.zero_le _, ?_, trivial⟩
      exact fun _ _ => Nat.zero_le _
    · simp [holds, absent, ConsumerAt.permit, Permit.after]
  next => exact h

theorem unsubscribe_inv {s : Dispatch T} (h : s.Inv) (c : Nat) : (s.step (.unsubscribe c)).Inv := by
  refine h.of_consumer c none (s.queues c) .drop ?_ h.gate.listed nofun rfl
  rw [Function.update_eq_self]
  rfl

theorem send_inv {s : Dispatch T} (h : s.Inv) (c : Nat) (value : T) :
    (s.step (.send c value)).Inv := by
  refine h.of_consumer c (s.consumers c) (s.queues c ++ [⟨value, s.published⟩]) .keep
    (by rw [Function.update_eq_self]; rfl) h.gate.listed (fun x live => ?_) rfl
  have ok := h.consumers c x live
  refine ⟨h.gate.listed c x live, .inl ⟨x, live, rfl, Nat.le_refl _⟩, ok.prepared, ok.drained, ?_,
    ok.place⟩
  intro item member
  cases List.mem_append.mp member with
  | inl old => exact ok.queue item old
  | inr new =>
    rw [List.mem_singleton.mp new]
    exact ok.drained

theorem Inv.set_consumer {s : Dispatch T} (h : s.Inv) {c : Nat} {x y : Consumer T}
    (live : s.consumers c = some x) (queue : List (Item T)) (permit : Permit)
    (subscribed : y.subscribedIn = x.subscribedIn) (prepared : x.preparedEpoch ≤ y.preparedEpoch)
    (ok : s.ConsumerOk queue y) (held : y.place.permit = permit.after x.place.permit) :
    ({ s with queues := Function.update s.queues c queue }.setConsumer c (some y) permit).Inv := by
  refine h.of_consumer c (some y) queue permit rfl h.gate.listed ?_ ?_
  · rintro _ ⟨⟩
    exact ⟨h.gate.listed c x live, .inl ⟨x, live, subscribed, prepared⟩, ok⟩
  · simpa [holds, live] using held

theorem ConsumerOk.tail {s : Dispatch T} {item : Item T} {rest : List (Item T)} {x : Consumer T}
    (h : s.ConsumerOk (item :: rest) x) : s.ConsumerOk rest x :=
  ⟨h.prepared, h.drained, fun item member => h.queue item (List.mem_cons_of_mem _ member), h.place⟩

theorem ConsumerOk.move {s : Dispatch T} {queue : List (Item T)} {x : Consumer T}
    (h : s.ConsumerOk queue x) (place : ConsumerAt T) (ok : s.PlaceOk x place) :
    s.ConsumerOk queue (x.at_ place) := by
  refine ⟨h.prepared, h.drained, h.queue, ?_⟩
  show s.PlaceOk (x.at_ place) place
  cases place with
  | draining state | drained state => cases state <;> exact ok
  | _ => exact ok

theorem Inv.consumer_step {s : Dispatch T} (h : s.Inv) {queue : List (Item T)} {x : Consumer T}
    (live : s.gate.active = .opened → s.Served x) (ok : s.ConsumerOk queue x) :
    let result := x.step s.gate s.published queue
    s.ConsumerOk result.2.1 result.1 ∧ result.1.subscribedIn = x.subscribedIn ∧
      x.preparedEpoch ≤ result.1.preparedEpoch := by
  have place := ok.place
  have emptied {e : Nat} : ∀ item ∈ ([] : List (Item T)), e ≤ item.sentIn := nofun
  have served (opened : s.gate.isOpen = true) : s.Served x :=
    live (by simpa [DispatchGate.isOpen] using opened)
  unfold Consumer.step
  cases at_ : x.place with
  | looping =>
    dsimp only
    split
    · exact ⟨⟨ok.prepared, ok.drained, ok.queue, trivial⟩, rfl, Nat.le_refl _⟩
    · refine ⟨⟨ok.prepared, ok.drained, ok.queue, ?_⟩, rfl, Nat.le_refl _⟩
      cases active : s.gate.active with
      | preparing e =>
        have latest := h.gate.preparing e active
        exact ⟨latest ▸ ok.prepared.trans ok.drained, Nat.le_of_eq latest⟩
      | _ => trivial
  | draining state =>
    rw [at_] at place
    cases queue with
    | cons item rest => exact ⟨ok.tail, rfl, Nat.le_refl _⟩
    | nil =>
      refine ⟨⟨ok.prepared.trans ok.drained, Nat.le_refl _, emptied, ?_⟩, rfl, Nat.le_refl _⟩
      cases state <;> exact place
  | drained state =>
    rw [at_] at place
    cases state with
    | preparing e => exact ⟨⟨place.2, ok.drained, ok.queue, trivial⟩, rfl, place.1⟩
    | _ => exact ⟨ok.move .waiting trivial, rfl, Nat.le_refl _⟩
  | waiting =>
    dsimp only
    split
    · exact ⟨ok.move .receiving trivial, rfl, Nat.le_refl _⟩
    · exact ⟨⟨ok.prepared, ok.drained, ok.queue, trivial⟩, rfl, Nat.le_refl _⟩
  | receiving =>
    cases queue with
    | nil => exact ⟨ok.move .waiting trivial, rfl, Nat.le_refl _⟩
    | cons item rest => exact ⟨ok.tail.move .looping trivial, rfl, Nat.le_refl _⟩
  | admitting => exact ⟨ok.move .checking trivial, rfl, Nat.le_refl _⟩
  | checking =>
    dsimp only
    split
    next opened => exact ⟨ok.move .checked ⟨h.gate.quiet opened, served opened⟩, rfl, Nat.le_refl _⟩
    next => exact ⟨ok.move .looping trivial, rfl, Nat.le_refl _⟩
  | checked =>
    rw [at_] at place
    exact ⟨ok.move (.parked _) ⟨place.1, place.2, rfl⟩, rfl, Nat.le_refl _⟩
  | parked k =>
    rw [at_] at place
    dsimp only
    split
    · exact ⟨ok.move (.polling k) place, rfl, Nat.le_refl _⟩
    · exact ⟨ok.move (.discarding k) place, rfl, Nat.le_refl _⟩
  | polling k =>
    rw [at_] at place
    cases queue with
    | nil => exact ⟨ok.move (.parked k) place, rfl, Nat.le_refl _⟩
    | cons item rest =>
      have fresh := ok.queue item List.mem_cons_self
      obtain ⟨quiet, served, current⟩ := place
      exact ⟨ok.tail.move (.returned k item) ⟨quiet, served, current, fresh⟩, rfl, Nat.le_refl _⟩
  | discarding k =>
    cases queue with
    | nil =>
      exact ⟨⟨ok.prepared.trans ok.drained, Nat.le_refl _, emptied, trivial⟩, rfl, Nat.le_refl _⟩
    | cons item rest => exact ⟨ok.tail, rfl, Nat.le_refl _⟩
  | returned k item => exact ⟨ok.move .looping trivial, rfl, Nat.le_refl _⟩

theorem consumerStep_inv {s : Dispatch T} (h : s.Inv) (c : Nat) : (s.consumerStep c).Inv := by
  unfold consumerStep
  cases live : s.consumers c with
  | none => exact h
  | some x =>
    obtain ⟨ok, subscribed, prepared⟩ :=
      h.consumer_step (fun opened => h.gate.opened opened c x live) (h.consumers c x live)
    exact h.set_consumer live _ _ subscribed prepared ok (x.step_permit _ _ _)

theorem consumerCancel_inv {s : Dispatch T} (h : s.Inv) (c : Nat) :
    (s.step (.consumerCancel c)).Inv := by
  simp only [step]
  cases live : s.consumers c with
  | none => exact h
  | some x =>
    have ok := h.consumers c x live
    have next : s.ConsumerOk (s.queues c) x.cancel.1 ∧ x.cancel.1.subscribedIn = x.subscribedIn ∧
        x.preparedEpoch ≤ x.cancel.1.preparedEpoch := by
      unfold Consumer.cancel
      cases x.place with
      | waiting | admitting | parked => exact ⟨ok.move .looping trivial, rfl, Nat.le_refl _⟩
      | _ => exact ⟨ok, rfl, Nat.le_refl _⟩
    obtain ⟨ok, subscribed, prepared⟩ := next
    have kept := h.set_consumer live (s.queues c) x.cancel.2 subscribed prepared ok x.cancel_permit
    rwa [Function.update_eq_self] at kept

theorem set_worker_inv {s : Dispatch T} (h : s.Inv) (w : Nat) (result : WorkerAt × Permit)
    (ok : s.WorkerOk result.1) (held : result.1.permit = result.2.after (s.workers w).permit) :
    (s.setWorker w result).Inv := by
  have frame : s.Quiet → s.Quiet ∧ s.gate.epoch = s.gate.epoch := fun quiet => ⟨quiet, rfl⟩
  constructor
  · exact h.gate.of_task rfl rfl rfl rfl rfl (fun c x live => .inl ⟨x, live, rfl, Nat.le_refl _⟩)
      h.gate.listed
  · exact fun c x live => (h.consumers c x live).frame (Nat.le_refl _) frame
  · intro w'
    by_cases same : w' = w
    · subst same
      simp only [setWorker, Function.update_self]
      exact ok.frame frame
    · simp only [setWorker, Function.update_of_ne same]
      exact (h.workers w').frame frame
  · intro task
    simp only [setWorker]
    rw [Permit.mem_apply]
    cases task with
    | consumer c =>
      rw [if_neg nofun]
      exact h.permits (.consumer c)
    | worker w' =>
      by_cases same : w' = w
      · subst same
        simp [holds, h.permits, held]
      · have other : Task.worker w' ≠ .worker w := by simpa using same
        rw [if_neg other, h.permits]
        simp only [holds, Function.update_of_ne same]

theorem worker_step {s : Dispatch T} (h : s.Inv) (finished : Bool) {x : WorkerAt}
    (ok : s.WorkerOk x) : s.WorkerOk (x.step s.gate finished).1 := by
  cases x with
  | idle | requested => trivial
  | checking e =>
    simp only [WorkerAt.step]
    split
    next opened => exact h.gate.quiet opened
    next => trivial
  | comparing e =>
    simp only [WorkerAt.step]
    split
    next same => exact ⟨ok, same.symm⟩
    next => trivial
  | running e | polling e =>
    simp only [WorkerAt.step]
    split
    all_goals first | exact ok | trivial

theorem step_inv {s : Dispatch T} (op : DispatchOp T) (h : s.Inv) (alone : s.StartsAlone op) :
    (s.step op).Inv := by
  cases op with
  | start i => exact start_inv h i alone
  | startStep i => exact startStep_inv h i alone
  | publishFails i => exact publishFails_inv h i
  | startCancel i => exact startCancel_inv h i
  | stop => exact stop_inv h
  | stopReturn => exact stopReturn_inv h
  | subscribe c => exact subscribe_inv h c
  | unsubscribe c => exact unsubscribe_inv h c
  | send c value => exact send_inv h c value
  | consumerStep c => exact consumerStep_inv h c
  | consumerCancel c => exact consumerCancel_inv h c
  | runInEpoch w epoch =>
    simp only [step]
    split
    next idle => exact set_worker_inv h w _ trivial (by rw [idle]; rfl)
    next => exact h
  | workerStep w finished =>
    exact set_worker_inv h w _ (worker_step h finished (h.workers w)) (WorkerAt.step_permit _ _ _)
  | workerCancel w =>
    refine set_worker_inv h w _ ?_ (WorkerAt.cancel_permit _)
    have ok := h.workers w
    cases place : s.workers w <;> simp_all [WorkerAt.cancel, WorkerOk]

/-- The dispatch epochs are isolated in every state of every run in which each `start` is called
with no earlier `start` or `stop` pending, as long as the epochs do not wrap. -/
theorem dispatch_epochs_isolated (gate : DispatchGate) (fresh : gate = .new ∨ gate = .newOpen)
    (ops : List (DispatchOp T)) (alone : Along step StartsAlone (new gate) ops) :
    (run step (new gate) ops).Isolated := by
  have invariant : (run step (new gate : Dispatch T) ops).Inv :=
    run_invariant (fun _ op h alone => step_inv op h alone) (inv_new fresh) alone
  exact inv_isolated invariant

def restarted : List (DispatchOp Nat) :=
  [.subscribe 0, .start 0, .startStep 0, .startStep 0] ++ List.replicate 3 (.consumerStep 0) ++
  [.startStep 0, .startStep 0, .send 0 7] ++ List.replicate 7 (.consumerStep 0) ++
  [.stop, .stopReturn, .consumerStep 0, .stopReturn, .start 0, .startStep 0, .startStep 0]

theorem restarted_isolated : (run step (new .new) restarted).Isolated :=
  dispatch_epochs_isolated .new (.inl rfl) restarted
    ⟨trivial, ⟨rfl, fun _ => rfl⟩, fun _ => by decide, nofun, trivial, trivial, trivial, nofun,
      nofun, trivial, trivial, trivial, trivial, trivial, trivial, trivial, trivial, trivial,
      trivial, trivial, trivial, ⟨rfl, fun j => by cases j <;> rfl⟩, fun _ => by decide, nofun,
      trivial⟩

def StartsAfterStops (s : Dispatch T) : DispatchOp T → Prop
  | .start _ => s.stopping = false
  | _ => True

/-- Two overlapping starts: the first one opens the gate in the second one's epoch, and the
consumer returns an item from before the second preparation. -/
def overlappingStarts : List (DispatchOp Nat) :=
  [.subscribe 0, .start 0, .startStep 0, .startStep 0] ++
  List.replicate 3 (.consumerStep 0) ++
  [.send 0 7, .start 1, .startStep 1, .startStep 1, .startStep 0, .startStep 0] ++
  List.replicate 7 (.consumerStep 0)

theorem overlapping_starts_leak :
    ¬ ∀ ops : List (DispatchOp Nat), Along step StartsAfterStops (new .new) ops →
      (run step (new .new) ops).Isolated := by
  intro all
  have along : Along step StartsAfterStops (new .new) overlappingStarts :=
    ⟨trivial, rfl, trivial, trivial, trivial, trivial, trivial, trivial, rfl, trivial, trivial,
      trivial, trivial, trivial, trivial, trivial, trivial, trivial, trivial, trivial, trivial⟩
  have fresh := (all overlappingStarts along).fresh 0 _ 2 ⟨7, 1⟩ rfl rfl 2
  exact fresh (by decide) (by decide) (by decide)

end Dispatch

end AbletonLink.Link
