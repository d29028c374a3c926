import AbletonLink.Library.Run

/-! Notifications of channel changes.  Every lock region, every read of `closed` and both ends of a
callback are one step; a re-entrant call is a call that starts while another one is `calling`.
Callbacks are named by the order in which they are installed. -/

universe u

namespace AbletonLink.Audio

open Library Library.Run

/-- The place of a call of `set` or `notify`.  `failure` is the first callback that panicked in it,
which a call that is over has `resumed`. -/
inductive CallAt
  | idle (resumed : Option Nat)
  | setting
  | notifying
  | draining (failure : Option Nat)
  | taken (callback : Nat) (failure : Option Nat)
  | calling (callback : Nat) (failure : Option Nat)
  | returning (callback : Option Nat) (failure : Option Nat)
  deriving DecidableEq

namespace CallAt

def isIdle : CallAt → Bool
  | idle _ => true
  | _ => false

def holds : CallAt → Option Nat
  | .taken callback _ | .calling callback _ | .returning (some callback) _ => some callback
  | _ => none

def active : CallAt → Bool
  | .taken .. | .calling .. | .returning .. => true
  | _ => false

def invokes : CallAt → Option Nat
  | .calling callback _ => some callback
  | _ => none

def toGo : CallAt → Nat
  | .idle _ => 0
  | .draining _ => 1
  | .setting | .returning .. => 2
  | .calling .. => 3
  | .taken .. => 4
  | .notifying => 6

end CallAt

structure ChannelNotifications (Call : Type u) where
  callback : Option Nat
  pending : Bool
  running : Bool
  closed : Bool
  installed : Nat
  calls : Call → CallAt

/-- `step` takes a call one step further; `panics` is how its callback ends. -/
inductive ChannelOp (Call : Type u)
  | set (call : Call)
  | notify (call : Call)
  | step (call : Call) (panics : Bool)
  | close

namespace ChannelNotifications

variable {Call : Type u} [DecidableEq Call]

def new : ChannelNotifications Call where
  callback := none
  pending := false
  running := false
  closed := false
  installed := 0
  calls := fun _ => .idle none

def at_ (s : ChannelNotifications Call) (call : Call) (place : CallAt) :
    ChannelNotifications Call :=
  { s with calls := Function.update s.calls call place }

def begin (s : ChannelNotifications Call) (call : Call) (place : CallAt) :
    ChannelNotifications Call :=
  if (s.calls call).isIdle then s.at_ call place else s

def drain (s : ChannelNotifications Call) (call : Call) (failure : Option Nat) :
    ChannelNotifications Call :=
  if s.closed then { s with pending := false }.at_ call (.idle failure)
  else if s.running ∨ s.pending = false then s.at_ call (.idle failure)
  else
    match s.callback with
    | none => s.at_ call (.idle failure)
    | some callback =>
      { s with callback := none, pending := false, running := true }.at_ call
        (.taken callback failure)

def stepCall (s : ChannelNotifications Call) (call : Call) (panics : Bool) :
    ChannelNotifications Call :=
  match s.calls call with
  | .idle _ => s
  | .setting =>
    { s with callback := some s.installed, installed := s.installed + 1 }.at_ call (.draining none)
  | .notifying =>
    if s.callback = none ∧ s.running = false then s.at_ call (.idle none)
    else { s with pending := true }.at_ call (.draining none)
  | .draining failure => s.drain call failure
  | .taken callback failure =>
    if s.closed then s.at_ call (.returning (some callback) failure)
    else s.at_ call (.calling callback failure)
  | .calling callback failure =>
    if panics then s.at_ call (.returning none (some (failure.getD callback)))
    else s.at_ call (.returning (some callback) failure)
  | .returning callback failure =>
    { s with
      running := false
      callback := if s.callback = none then callback else s.callback }.at_ call (.draining failure)

def step (s : ChannelNotifications Call) : ChannelOp Call → ChannelNotifications Call
  | .set call => s.begin call .setting
  | .notify call => s.begin call .notifying
  | .step call panics => s.stepCall call panics
  | .close => { s with closed := true }

/-- The lock region of a `notify` that finds a callback installed or running. -/
def Notifies (s : ChannelNotifications Call) (op : ChannelOp Call) : Prop :=
  ∃ call panics, op = .step call panics ∧ s.calls call = .notifying ∧
    (s.callback ≠ none ∨ s.running = true)

def Starts (s : ChannelNotifications Call) (callback : Nat) (op : ChannelOp Call) : Prop :=
  ∃ call panics, op = .step call panics ∧ (s.calls call).invokes = none ∧
    ((s.step op).calls call).invokes = some callback

def Panics (s : ChannelNotifications Call) (callback : Nat) (op : ChannelOp Call) : Prop :=
  ∃ call, op = .step call true ∧ (s.calls call).invokes = some callback

def Quiescent (s : ChannelNotifications Call) : Prop := ∀ call, (s.calls call).isIdle = true

end ChannelNotifications

namespace ChannelNotifications

variable {Call : Type u}

def held (s : ChannelNotifications Call) (active : Option Call) : Option Nat :=
  active.bind fun call => (s.calls call).holds

/-- What holds in every reachable state, with the one call that has taken a callback. -/
structure Safe (s : ChannelNotifications Call) (active : Option Call) : Prop where
  acts : ∀ call, (s.calls call).active = true ↔ active = some call
  running : s.running = active.isSome
  fresh : ∀ callback, s.callback = some callback ∨ s.held active = some callback →
    callback < s.installed
  owned : ∀ callback, s.callback = some callback → s.held active ≠ some callback
  drained : s.pending = true → active = none → s.callback ≠ none → s.closed = false →
    ∃ call failure, s.calls call = .draining failure

variable {s : ChannelNotifications Call} {active : Option Call} {call : Call}

namespace Safe

theorem inactive (h : s.Safe active) (place : (s.calls call).active = false) :
    active ≠ some call := by
  intro same
  rw [(h.acts call).mpr same] at place
  cases place

theorem work (h : s.Safe active) {failure : Option Nat}
    (draining : s.calls call = .draining failure) (pending : Bool) :
    Safe { s with pending } active :=
  { h with drained := fun _ _ _ _ => ⟨call, failure, draining⟩ }

theorem install (h : s.Safe active) {failure : Option Nat}
    (draining : s.calls call = .draining failure) :
    Safe { s with callback := some s.installed, installed := s.installed + 1 } active where
  acts := h.acts
  running := h.running
  fresh callback known := by
    rcases known with new | held
    · exact (Option.some.inj new).symm.le.trans_lt (Nat.lt_succ_self _)
    · exact (h.fresh callback (.inr held)).trans (Nat.lt_succ_self _)
  owned callback new held := by
    obtain rfl : s.installed = callback := Option.some.inj new
    exact absurd (h.fresh _ (.inr held)) (Nat.lt_irrefl _)
  drained _ _ _ _ := ⟨call, failure, draining⟩

theorem close (h : s.Safe active) : Safe { s with closed := true } active :=
  { h with drained := fun _ _ _ opened => Bool.noConfusion opened }

end Safe

variable [DecidableEq Call]

@[simp] theorem calls_at_ (place : CallAt) :
    (s.at_ call place).calls = Function.update s.calls call place := rfl

theorem held_at_other {place : CallAt} (other : active ≠ some call) :
    (s.at_ call place).held active = s.held active := by
  cases active with
  | none => rfl
  | some held =>
    have differ : held ≠ call := fun same => other (congrArg some same)
    simp [ChannelNotifications.held, differ]

theorem held_at_self (place : CallAt) : (s.at_ call place).held (some call) = place.holds := by
  simp [ChannelNotifications.held]

namespace Safe

theorem move (h : s.Safe active) {place : CallAt} (before : (s.calls call).active = false)
    (after : place.active = false)
    (drains : ∀ failure, s.calls call = .draining failure → s.pending = true → active = none →
      s.callback ≠ none → s.closed = false → ∃ failure, place = .draining failure) :
    (s.at_ call place).Safe active := by
  have other := h.inactive before
  refine ⟨fun caller => ?_, h.running, ?_, ?_, ?_⟩
  · by_cases same : caller = call
    · subst same
      simp [after, other]
    · simpa [same] using h.acts caller
  · rw [held_at_other other]
    exact h.fresh
  · rw [held_at_other other]
    exact h.owned
  · intro pending none some closed
    obtain ⟨caller, failure, draining⟩ := h.drained pending none some closed
    by_cases same : caller = call
    · subst same
      obtain ⟨failure, still⟩ := drains failure draining pending none some closed
      exact ⟨caller, failure, by simp [still]⟩
    · exact ⟨caller, failure, by simpa [same] using draining⟩

theorem leave (h : s.Safe active) {failure : Option Nat} (resumed : Option Nat)
    (draining : s.calls call = .draining failure)
    (idle : ¬(s.pending = true ∧ active = none ∧ s.callback ≠ none ∧ s.closed = false)) :
    (s.at_ call (.idle resumed)).Safe active :=
  h.move (by rw [draining]; rfl) rfl fun _ _ pending none some closed =>
    absurd ⟨pending, none, some, closed⟩ idle

theorem take (h : s.Safe none) {callback : Nat} {failure failure' : Option Nat}
    (draining : s.calls call = .draining failure') (found : s.callback = some callback) :
    ({ s with callback := none, pending := false, running := true }.at_ call
      (.taken callback failure)).Safe (some call) where
  acts caller := by
    by_cases same : caller = call
    · subst same
      simp [CallAt.active]
    · have inactive := h.acts caller
      simpa [same, Ne.symm same] using inactive
  running := rfl
  fresh other known := by
    rw [held_at_self] at known
    rcases known with none | same
    · cases none
    · exact h.fresh other (.inl (found.trans same))
  owned other none := by cases none
  drained pending := by cases pending

theorem keep (h : s.Safe (some call)) {place : CallAt} (after : place.active = true)
    (holds : ∀ callback, place.holds = some callback → (s.calls call).holds = some callback) :
    (s.at_ call place).Safe (some call) := by
  have held : ∀ callback, (s.at_ call place).held (some call) = some callback →
      s.held (some call) = some callback := by
    intro callback same
    rw [held_at_self] at same
    exact holds callback same
  refine ⟨fun caller => ?_, h.running, ?_, ?_, fun _ none => by cases none⟩
  · by_cases same : caller = call
    · subst same
      simp [after]
    · simpa [same] using h.acts caller
  · exact fun callback known => h.fresh callback (known.imp_right (held callback))
  · exact fun callback installed same => h.owned callback installed (held callback same)

theorem release (h : s.Safe (some call)) {callback failure : Option Nat}
    (returning : s.calls call = .returning callback failure) :
    ({ s with
      running := false
      callback := if s.callback = none then callback else s.callback }.at_ call
      (.draining failure)).Safe none := by
  have held : s.held (some call) = callback := by
    cases callback <;> simp [ChannelNotifications.held, returning, CallAt.holds]
  refine ⟨fun caller => ?_, rfl, ?_, nofun, fun _ _ _ _ => ⟨call, failure, by simp⟩⟩
  · by_cases same : caller = call
    · subst same
      simp [CallAt.active]
    · have inactive := h.acts caller
      simpa [same, Ne.symm same] using inactive
  · intro other known
    rcases known with installed | none
    · change (if s.callback = none then callback else s.callback) = some other at installed
      split at installed
      · exact h.fresh other (.inr (held.trans installed))
      · exact h.fresh other (.inl installed)
    · cases none

theorem begin (h : s.Safe active) {place : CallAt} (after : place.active = false) :
    (s.begin call place).Safe active := by
  unfold ChannelNotifications.begin
  split
  next idle =>
    cases here : s.calls call with
    | idle resumed =>
      refine h.move (by rw [here]; rfl) after fun failure draining => ?_
      rw [here] at draining
      cases draining
    | _ =>
      rw [here] at idle
      cases idle
  next => exact h

theorem drain (h : s.Safe active) {failure : Option Nat}
    (draining : s.calls call = .draining failure) :
    ∃ active, (s.drain call failure).Safe active := by
  unfold ChannelNotifications.drain
  split
  next closed =>
    have quiet : Safe { s with pending := false } active := h.work draining false
    exact ⟨active, quiet.leave failure draining fun work => by cases work.1⟩
  next opened =>
    split
    next busy =>
      refine ⟨active, h.leave failure draining fun work => ?_⟩
      obtain ⟨pending, none, -⟩ := work
      have running := h.running
      rw [none] at running
      simp [running, pending] at busy
    next free =>
      have none : active = none := by
        have running := h.running
        cases active with
        | none => rfl
        | some _ => simp [running] at free
      subst none
      cases found : s.callback with
      | none => exact ⟨_, h.leave failure draining fun work => work.2.2.1 found⟩
      | some callback => exact ⟨_, h.take draining found⟩

theorem stepCall (h : s.Safe active) (call : Call) (panics : Bool) :
    ∃ active, (s.stepCall call panics).Safe active := by
  have own {place : CallAt} (here : s.calls call = place) (acts : place.active = true) :
      s.Safe (some call) := (h.acts call).mp (here ▸ acts) ▸ h
  have begins {place : CallAt} (here : s.calls call = place) (quiet : place.active = false)
      (other : ∀ failure, place ≠ .draining failure) {next : CallAt} (after : next.active = false) :
      (s.at_ call next).Safe active :=
    h.move (by rw [here]; exact quiet) after fun failure draining =>
      absurd (here.symm.trans draining) (other failure)
  unfold ChannelNotifications.stepCall
  cases here : s.calls call with
  | idle resumed => exact ⟨active, h⟩
  | setting =>
    have moved : (s.at_ call (.draining none)).Safe active := begins here rfl (by simp) rfl
    have draining : (s.at_ call (.draining none)).calls call = .draining none := by simp
    exact ⟨active, moved.install draining⟩
  | notifying =>
    dsimp only
    split
    next => exact ⟨active, begins here rfl (by simp) rfl⟩
    next =>
      have moved : (s.at_ call (.draining none)).Safe active := begins here rfl (by simp) rfl
      have draining : (s.at_ call (.draining none)).calls call = .draining none := by simp
      exact ⟨active, moved.work draining true⟩
  | draining failure => exact h.drain here
  | taken callback failure =>
    have safe := own here rfl
    dsimp only
    split <;> exact ⟨_, safe.keep rfl (by simp [here, CallAt.holds])⟩
  | calling callback failure =>
    have safe := own here rfl
    dsimp only
    split <;> exact ⟨_, safe.keep rfl (by simp [here, CallAt.holds])⟩
  | returning callback failure => exact ⟨_, (own here rfl).release here⟩

theorem step (h : ∃ active, s.Safe active) (op : ChannelOp Call) :
    ∃ active, (s.step op).Safe active := by
  obtain ⟨active, h⟩ := h
  cases op with
  | set call => exact ⟨active, h.begin rfl⟩
  | notify call => exact ⟨active, h.begin rfl⟩
  | step call panics => exact h.stepCall call panics
  | close => exact ⟨active, h.close⟩

end Safe

theorem safe_run (ops : List (ChannelOp Call)) :
    ∃ active, (run step (new : ChannelNotifications Call) ops).Safe active := by
  refine run_keeps (I := fun s => ∃ active, Safe s active) (fun _ op h => Safe.step h op) ops
    ⟨none, ?_⟩
  constructor <;> simp [new, CallAt.active, held]

/-! Notifications that are due. -/

def Due (s : ChannelNotifications Call) : Prop :=
  s.closed = true ∨ s.pending = true ∨
    ∃ call callback failure, s.calls call = .taken callback failure

theorem due_notifies {op : ChannelOp Call} (notifies : s.Notifies op) : (s.step op).Due := by
  obtain ⟨call, panics, rfl, here, there⟩ := notifies
  refine .inr (.inl ?_)
  dsimp only [step, stepCall]
  rw [here]
  dsimp only
  rw [if_neg]
  · rfl
  · rintro ⟨none, idle⟩
    rw [none, idle] at there
    simp at there

theorem Due.move (h : s.Due) {place : CallAt}
    (other : ∀ callback failure, s.calls call ≠ .taken callback failure) :
    (s.at_ call place).Due := by
  rcases h with closed | pending | ⟨caller, callback, failure, taken⟩
  · exact .inl closed
  · exact .inr (.inl pending)
  · refine .inr (.inr ⟨caller, callback, failure, ?_⟩)
    have apart : caller ≠ call := fun same => other callback failure (same ▸ taken)
    simpa [apart] using taken

theorem Due.drain (h : s.Due) {failure : Option Nat} (here : s.calls call = .draining failure) :
    (s.drain call failure).Due := by
  have other : ∀ callback failure, s.calls call ≠ .taken callback failure := by simp [here]
  unfold ChannelNotifications.drain
  split
  next closed => exact .inl closed
  next =>
    split
    next => exact h.move other
    next =>
      cases s.callback with
      | none => exact h.move other
      | some callback => exact .inr (.inr ⟨call, callback, failure, by simp⟩)

theorem Due.step (h : s.Due) (op : ChannelOp Call) :
    (∃ callback, s.Starts callback op) ∨ (s.step op).Due := by
  cases op with
  | close => exact .inr (.inl rfl)
  | set call | notify call =>
    refine .inr ?_
    dsimp only [ChannelNotifications.step, ChannelNotifications.begin]
    split
    next idle => exact h.move fun callback failure taken => by simp [taken, CallAt.isIdle] at idle
    next => exact h
  | step call panics =>
    cases here : s.calls call with
    | taken callback failure =>
      cases closed : s.closed with
      | true =>
        refine .inr (.inl ?_)
        simp [ChannelNotifications.step, stepCall, here, closed, at_]
      | false =>
        refine .inl ⟨callback, call, panics, rfl, by rw [here]; rfl, ?_⟩
        simp [ChannelNotifications.step, stepCall, here, closed, CallAt.invokes]
    | _ =>
      refine .inr ?_
      have other : ∀ callback failure, s.calls call ≠ .taken callback failure := by simp [here]
      dsimp only [ChannelNotifications.step, stepCall]
      rw [here]
      first
        | exact h
        | exact h.drain here
        | exact h.move other
        | (dsimp only; split <;> first | exact h.move other | exact .inr (.inl rfl))

/-! Callbacks that panicked. -/

/-- Nobody has the callback any more, and it is not installed again. -/
structure Gone (s : ChannelNotifications Call) (callback : Nat) : Prop where
  old : callback < s.installed
  out : s.callback ≠ some callback
  free : ∀ call, (s.calls call).holds ≠ some callback

theorem Gone.move {callback : Nat} (h : s.Gone callback) {place : CallAt}
    (holds : place.holds ≠ some callback) : (s.at_ call place).Gone callback where
  old := h.old
  out := h.out
  free other := by
    by_cases same : other = call
    · subst same
      simpa using holds
    · simpa [same] using h.free other

theorem Gone.step {callback : Nat} (h : s.Gone callback) (op : ChannelOp Call) :
    (s.step op).Gone callback := by
  cases op with
  | close => exact { h with }
  | set call | notify call =>
    dsimp only [ChannelNotifications.step, ChannelNotifications.begin]
    split
    · exact h.move nofun
    · exact h
  | step call panics =>
    have free := h.free call
    dsimp only [ChannelNotifications.step, stepCall]
    cases here : s.calls call with
    | idle resumed => exact h
    | setting =>
      have installed : Gone { s with callback := some s.installed, installed := s.installed + 1 }
          callback :=
        { h with
          old := h.old.trans (Nat.lt_succ_self _)
          out := fun same => h.old.ne' (Option.some.inj same) }
      exact installed.move nofun
    | notifying =>
      dsimp only
      split
      · exact h.move nofun
      · have kept : Gone { s with pending := true } callback := { h with }
        exact kept.move nofun
    | draining failure =>
      dsimp only [drain]
      split
      · have kept : Gone { s with pending := false } callback := { h with }
        exact kept.move nofun
      · split
        · exact h.move nofun
        · cases found : s.callback with
          | none => exact h.move nofun
          | some next =>
            have apart : next ≠ callback := fun same => h.out (found.trans (congrArg some same))
            have taken : Gone { s with callback := none, pending := false, running := true }
                callback := { h with out := nofun }
            exact taken.move fun same => apart (Option.some.inj same)
    | taken next failure =>
      rw [here] at free
      dsimp only
      split <;> exact h.move free
    | calling next failure =>
      rw [here] at free
      dsimp only
      split
      · exact h.move nofun
      · exact h.move free
    | returning back failure =>
      rw [here] at free
      have apart : back ≠ some callback := by
        rintro rfl
        exact free rfl
      have out : (if s.callback = none then back else s.callback) ≠ some callback := by
        split
        · exact apart
        · exact h.out
      have returned : Gone { s with
          running := false
          callback := if s.callback = none then back else s.callback } callback :=
        { h with out }
      exact returned.move nofun

theorem gone_panics {callback : Nat} {op : ChannelOp Call} (h : s.Safe active)
    (panics : s.Panics callback op) : (s.step op).Gone callback := by
  obtain ⟨call, rfl, invokes⟩ := panics
  cases here : s.calls call with
  | calling next failure =>
    rw [here] at invokes
    obtain rfl : next = callback := Option.some.inj invokes
    obtain rfl := (h.acts call).mp (by rw [here]; rfl)
    have held : s.held (some call) = some next := by
      simp [ChannelNotifications.held, here, CallAt.holds]
    have stepped : s.step (.step call true) =
        s.at_ call (.returning none (some (failure.getD next))) := by
      simp [ChannelNotifications.step, stepCall, here]
    rw [stepped]
    refine ⟨h.fresh next (.inr held), fun installed => h.owned next installed held, ?_⟩
    intro other holds
    by_cases same : other = call
    · subst same
      simp [CallAt.holds] at holds
    · rw [calls_at_, Function.update_of_ne same] at holds
      have acts : (s.calls other).active = true := by
        cases place : s.calls other <;> simp [place, CallAt.holds, CallAt.active] at holds ⊢
      exact same (Option.some.inj ((h.acts other).mp acts)).symm
  | _ =>
    rw [here] at invokes
    cases invokes

theorem Gone.along {callback : Nat} (h : s.Gone callback) (ops : List (ChannelOp Call)) :
    Along ChannelNotifications.step (fun s op => ¬s.Starts callback op) s ops := by
  induction ops generalizing s with
  | nil => trivial
  | cons op ops ih =>
    refine ⟨?_, ih (h.step op)⟩
    rintro ⟨call, panics, rfl, -, invokes⟩
    refine (h.step (.step call panics)).free call ?_
    cases place : (s.step (.step call panics)).calls call <;>
      simp [place, CallAt.invokes, CallAt.holds] at invokes ⊢
    exact invokes

theorem callback_step {callback : Nat} (installed : s.callback = some callback)
    (op : ChannelOp Call) : (s.step op).callback = some callback ∨
      (∃ call panics, op = .step call panics ∧ s.calls call = .setting) ∨
      ∃ call failure, (s.step op).calls call = .taken callback failure := by
  cases op with
  | set call | notify call =>
    refine .inl ?_
    dsimp only [step, begin]
    split <;> exact installed
  | close => exact .inl installed
  | step call panics =>
    dsimp only [step, stepCall]
    cases here : s.calls call with
    | idle resumed => exact .inl installed
    | setting => exact .inr (.inl ⟨call, panics, rfl, here⟩)
    | notifying =>
      refine .inl ?_
      dsimp only
      split <;> exact installed
    | draining failure =>
      dsimp only [drain]
      split
      next => exact .inl installed
      next =>
        split
        next => exact .inl installed
        next =>
          rw [installed]
          exact .inr (.inr ⟨call, failure, by simp⟩)
    | taken _ failure | calling _ failure =>
      refine .inl ?_
      dsimp only
      split <;> exact installed
    | returning back failure =>
      refine .inl ?_
      show (if s.callback = none then back else s.callback) = some callback
      rw [installed]
      rfl

/-! Calls come to an end. -/

def toGo (s : ChannelNotifications Call) (call : Call) : Nat :=
  (s.calls call).toGo + if s.pending then 4 else 0

theorem toGo_at_ (place : CallAt) :
    (s.at_ call place).toGo call = place.toGo + if s.pending then 4 else 0 := by
  unfold toGo
  rw [calls_at_, Function.update_self]
  rfl

theorem stepCall_idle (idle : (s.calls call).isIdle = true) (panics : Bool) :
    s.stepCall call panics = s := by
  unfold stepCall
  cases here : s.calls call with
  | idle resumed => rfl
  | _ =>
    rw [here] at idle
    cases idle

theorem toGo_stepCall (call : Call) (panics : Bool) :
    (s.calls call).isIdle = true ∨ (s.stepCall call panics).toGo call < s.toGo call := by
  have before : s.toGo call = (s.calls call).toGo + if s.pending then 4 else 0 := rfl
  unfold stepCall
  rw [before]
  cases here : s.calls call with
  | idle resumed => exact .inl rfl
  | setting | returning =>
    refine .inr ?_
    rw [toGo_at_]
    exact Nat.add_lt_add_right (by simp [CallAt.toGo]) _
  | notifying =>
    refine .inr ?_
    dsimp only
    split
    · rw [toGo_at_]
      exact Nat.add_lt_add_right (by simp [CallAt.toGo]) _
    · rw [toGo_at_]
      exact Nat.lt_add_right _ (by simp [CallAt.toGo])
  | draining failure =>
    refine .inr ?_
    dsimp only [drain]
    split
    · rw [toGo_at_]
      exact Nat.lt_add_right _ (by simp [CallAt.toGo])
    · split
      · rw [toGo_at_]
        exact Nat.add_lt_add_right (by simp [CallAt.toGo]) _
      · rename_i work
        have pending : s.pending = true := by simpa using (not_or.mp work).2
        cases s.callback with
        | none =>
          rw [toGo_at_]
          exact Nat.add_lt_add_right (by simp [CallAt.toGo]) _
        | some callback =>
          rw [toGo_at_, pending]
          simp [CallAt.toGo]
  | taken callback failure | calling callback failure =>
    refine .inr ?_
    dsimp only
    split <;>
    · rw [toGo_at_]
      exact Nat.add_lt_add_right (by simp [CallAt.toGo]) _

theorem idle_of_alone {outcomes : List Bool}
    (enough : (s.calls call).isIdle = true ∨ s.toGo call ≤ outcomes.length) :
    ((run step s (outcomes.map (.step call))).calls call).isIdle = true := by
  induction outcomes generalizing s with
  | nil =>
    rcases enough with idle | none
    · exact idle
    · have none : (s.calls call).toGo = 0 := (Nat.add_eq_zero_iff.mp (Nat.le_zero.mp none)).1
      show (s.calls call).isIdle = true
      cases here : s.calls call <;> simp [here, CallAt.toGo, CallAt.isIdle] at none ⊢
  | cons panics outcomes ih =>
    show ((run step (s.stepCall call panics) _).calls call).isIdle = true
    refine ih ?_
    rcases enough with idle | enough
    · rw [stepCall_idle idle]
      exact .inl idle
    · rcases s.toGo_stepCall call panics with idle | less
      · rw [stepCall_idle idle]
        exact .inl idle
      · exact .inr (Nat.le_of_lt_succ (less.trans_le enough))

omit [DecidableEq Call] in
theorem toGo_le (s : ChannelNotifications Call) (call : Call) : s.toGo call ≤ 10 := by
  unfold toGo
  have place : (s.calls call).toGo ≤ 6 := by
    cases s.calls call <;> simp [CallAt.toGo]
  split <;> omega

/-- In every run: one callback at most is being invoked; every `notify` that finds a callback
installed or running is answered, once all calls are over, by a callback that started after it, by
the notification pending with no callback to take it, or by the end of all; a callback that panicked
is not invoked again; one that is installed stays until it is replaced or taken; and a call that
goes on alone ends. -/
theorem notifications_never_lost (ops : List (ChannelOp Call)) :
    let s := run step (new : ChannelNotifications Call) ops
    (∀ call other, (s.calls call).invokes.isSome = true → (s.calls other).invokes.isSome = true →
      call = other) ∧
    (∀ before op after, ops = before ++ op :: after → (run step new before).Notifies op →
      s.Quiescent → s.closed = true ∨
        (∃ between later rest callback, after = between ++ later :: rest ∧
          (run step new (before ++ op :: between)).Starts callback later) ∨
        s.callback = none ∧ s.pending = true) ∧
    (∀ before op after callback, ops = before ++ op :: after →
      (run step new before).Panics callback op →
        Along step (fun s later => ¬s.Starts callback later) (run step new (before ++ [op]))
          after) ∧
    (∀ op callback, s.callback = some callback → (s.step op).callback = some callback ∨
      (∃ call panics, op = .step call panics ∧ s.calls call = .setting) ∨
      ∃ call failure, (s.step op).calls call = .taken callback failure) ∧
    ∀ call (outcomes : List Bool), 10 ≤ outcomes.length →
      ((run step s (outcomes.map (.step call))).calls call).isIdle = true := by
  intro s
  obtain ⟨active, safe⟩ : ∃ active, s.Safe active := safe_run ops
  have acts {call : Call} (acting : (s.calls call).active = true) : active = some call :=
    (safe.acts call).mp acting
  refine ⟨?_, ?_, ?_, fun op callback installed => callback_step installed op,
    fun call outcomes enough => idle_of_alone (.inr ((toGo_le s call).trans enough))⟩
  · intro call other first second
    have invoking {call : Call} (invokes : (s.calls call).invokes.isSome = true) :
        active = some call := by
      refine acts ?_
      cases here : s.calls call <;> simp [here, CallAt.invokes, CallAt.active] at invokes ⊢
    exact Option.some.inj ((invoking first).symm.trans (invoking second))
  · rintro before op after rfl notifies quiet
    have due : (run step new (before ++ [op])).Due := by
      rw [run_append]
      exact due_notifies notifies
    have split : run step (run step new (before ++ [op])) after = s := by
      rw [← run_append, List.append_assoc]
      rfl
    rcases run_keeps_or (I := Due) (E := fun s op => ∃ callback, s.Starts callback op)
      (fun s op due => due.step op) due after with
      ⟨between, later, rest, rfl, callback, starts⟩ | due
    · rw [← run_append, List.append_assoc] at starts
      exact .inr (.inl ⟨between, later, rest, callback, rfl, starts⟩)
    · rw [split] at due
      cases opened : s.closed with
      | true => exact .inl rfl
      | false =>
        refine .inr (.inr ?_)
        rcases due with closed | pending | ⟨call, callback, failure, taken⟩
        · rw [opened] at closed
          cases closed
        · refine ⟨?_, pending⟩
          by_contra some
          have none : active = none := by
            cases active with
            | none => rfl
            | some call =>
              have acting := (safe.acts call).mpr rfl
              have idle := quiet call
              cases here : s.calls call <;>
                simp [here, CallAt.active, CallAt.isIdle] at acting idle
          obtain ⟨call, failure, draining⟩ := safe.drained pending none some opened
          have idle := quiet call
          rw [draining] at idle
          cases idle
        · have idle := quiet call
          rw [taken] at idle
          cases idle
  · rintro before op after callback rfl panics
    obtain ⟨active, safe⟩ := safe_run before
    have gone : (run step new (before ++ [op])).Gone callback := by
      rw [run_append]
      exact gone_panics safe panics
    exact gone.along after

def renotified : List (ChannelOp (Fin 2)) :=
  [.set 0, .step 0 false, .step 0 false, .notify 0, .step 0 false, .step 0 false, .step 0 false,
    .notify 1]

theorem notifications_never_lost_renotified :
    let after := ChannelOp.step 1 false :: List.replicate 7 (ChannelOp.step 0 false)
    let s := run step new (renotified ++ .step 1 false :: after)
    s.callback = some 0 ∧ s.closed = false ∧
      ∃ between later rest callback, after = between ++ later :: rest ∧
        (run step new (renotified ++ .step 1 false :: between)).Starts callback later := by
  intro after s
  have notifies : (run step new renotified).Notifies (.step 1 false) :=
    ⟨1, false, rfl, by decide, .inr (by decide)⟩
  have quiet : s.Quiescent := by
    unfold Quiescent
    decide
  have back : s.callback = some 0 := by decide
  rcases (notifications_never_lost (renotified ++ .step 1 false :: after)).2.1 renotified
    (.step 1 false) after rfl notifies quiet with closed | started | ⟨none, -⟩
  · exact absurd closed (by decide)
  · exact ⟨back, by decide, started⟩
  · exact absurd (none.symm.trans back) (by decide)

end ChannelNotifications

end AbletonLink.Audio
