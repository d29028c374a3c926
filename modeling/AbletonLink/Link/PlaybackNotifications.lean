import AbletonLink.Library.Mailbox
import AbletonLink.Library.Run

/-! Notifications of starts and stops.  Every lock region, every access to the last value notified
and both ends of the callback are one step; what the callback itself queues and dispatches is
another call, which runs while the first one is `calling`. -/

universe u

namespace AbletonLink.Link

open Library Library.Run

/-- The place of a call of `queue_playback_notification` and `dispatch_playback_notification`. -/
inductive DispatchAt
  | idle
  | queued
  | dispatching
  | taken (playing : Posted Bool)
  | locking (playing : Posted Bool)
  | refused (playing : Posted Bool)
  | calling (playing : Posted Bool)
  | storing (playing : Posted Bool)
  | leaving
  deriving DecidableEq

structure PlaybackNotifications (Call : Type u) where
  registered : Bool
  pending : Mailbox Bool
  last : Bool
  dispatch : Option Call
  calls : Call → DispatchAt

/-- `step` takes a call one step further; `contended` tells whether somebody else holds the
callback. -/
inductive PlaybackOp (Call : Type u)
  | queue (call : Call) (playing : Bool)
  | step (call : Call) (contended : Bool)

def PlaybackOp.call {Call : Type u} : PlaybackOp Call → Call
  | .queue call _ | .step call _ => call

namespace PlaybackNotifications

variable {Call : Type u} [DecidableEq Call]

def initial (registered : Bool) (pending : Option Bool) (last : Bool) :
    PlaybackNotifications Call where
  registered := registered
  pending := .ofOption pending
  last := last
  dispatch := none
  calls := fun _ => .idle

def at_ (s : PlaybackNotifications Call) (call : Call) (place : DispatchAt) :
    PlaybackNotifications Call :=
  { s with calls := Function.update s.calls call place }

def queue (s : PlaybackNotifications Call) (call : Call) (playing : Bool) :
    PlaybackNotifications Call :=
  if s.calls call = .idle then { s with pending := s.pending.post playing }.at_ call .queued else s

def stepCall (s : PlaybackNotifications Call) (call : Call) (contended : Bool) :
    PlaybackNotifications Call :=
  match s.calls call with
  | .idle => s
  | .queued =>
    if s.dispatch = none then { s with dispatch := some call }.at_ call .dispatching
    else s.at_ call .idle
  | .dispatching =>
    match s.pending.slot with
    | none => s.at_ call .leaving
    | some playing => { s with pending := s.pending.take }.at_ call (.taken playing)
  | .taken playing =>
    if s.last = playing.value then s.at_ call .leaving else s.at_ call (.locking playing)
  | .locking playing =>
    if s.registered = false then s.at_ call (.storing playing)
    else if contended then s.at_ call (.refused playing)
    else s.at_ call (.calling playing)
  | .refused playing => { s with pending := s.pending.putBack playing }.at_ call .leaving
  | .calling playing => s.at_ call (.storing playing)
  | .storing playing => { s with last := playing.value }.at_ call .leaving
  | .leaving => { s with dispatch := none }.at_ call .idle

def step (s : PlaybackNotifications Call) : PlaybackOp Call → PlaybackNotifications Call
  | .queue call playing => s.queue call playing
  | .step call contended => s.stepCall call contended

end PlaybackNotifications

namespace DispatchAt

def callback : DispatchAt → DispatchAt → List Bool
  | calling _, _ => []
  | _, calling playing => [playing.value]
  | _, _ => []

def active : DispatchAt → Bool
  | idle | queued => false
  | _ => true

def held : DispatchAt → Option (Posted Bool)
  | taken playing | locking playing | refused playing | calling playing | storing playing =>
    some playing
  | _ => none

def compared : DispatchAt → Option (Posted Bool)
  | locking playing | refused playing | calling playing | storing playing => some playing
  | _ => none

def announced : DispatchAt → Option (Posted Bool)
  | calling playing | storing playing => some playing
  | _ => none

def toGo : DispatchAt → Nat
  | idle => 0
  | leaving => 1
  | storing _ | refused _ => 2
  | calling _ => 3
  | locking _ => 4
  | taken _ => 5
  | dispatching => 6
  | queued => 7

end DispatchAt

namespace PlaybackNotifications

variable {Call : Type u}

section Ledger

variable [DecidableEq Call]

def queues (s : PlaybackNotifications Call) : PlaybackOp Call → List Bool
  | .queue call playing => if s.calls call = .idle then [playing] else []
  | .step .. => []

def delivers (s : PlaybackNotifications Call) (op : PlaybackOp Call) : List Bool :=
  (s.calls op.call).callback ((s.step op).calls op.call)

end Ledger

def place (s : PlaybackNotifications Call) : DispatchAt :=
  match s.dispatch with
  | some call => s.calls call
  | none => .idle

/-- What holds of the shared state with the dispatcher at a place, once the callback was called with
`delivered`. -/
structure Coherent (first : Bool) (delivered : List Bool) (s : PlaybackNotifications Call)
    (place : DispatchAt) : Prop where
  mailbox : s.pending.Inv place.held
  settled : place.held = none → s.pending.slot = none →
    ∀ v, s.pending.posted.getLast? = some v → s.last = v
  apart : ∀ p, place.compared = some p → s.last ≠ p.value
  alternate : List.IsChain (· ≠ ·) (first :: delivered)
  latest : s.registered = true →
    (first :: delivered).getLast? = some ((place.announced.map Posted.value).getD s.last)
  silent : s.registered = false → delivered = []

variable {first : Bool} {delivered : List Bool} {s : PlaybackNotifications Call}
  {place : DispatchAt}

theorem Coherent.post (h : Coherent first delivered s place) (playing : Bool) :
    Coherent first delivered { s with pending := s.pending.post playing } place :=
  { h with
    mailbox := .post playing
    settled := fun _ => nofun }

theorem Coherent.moved (h : Coherent first delivered s place) {place' : DispatchAt}
    (held : place'.held = place.held) (compared : place'.compared = place.compared)
    (announced : place'.announced = place.announced) : Coherent first delivered s place' where
  mailbox := by
    rw [held]
    exact h.mailbox
  settled := by
    rw [held]
    exact h.settled
  apart := by
    rw [compared]
    exact h.apart
  alternate := h.alternate
  latest := by
    rw [announced]
    exact h.latest
  silent := h.silent

theorem Coherent.take (h : Coherent first delivered s .dispatching) {p : Posted Bool}
    (found : s.pending.slot = some p) :
    Coherent first delivered { s with pending := s.pending.take } (.taken p) :=
  { h with
    mailbox := h.mailbox.take found
    settled := nofun
    apart := nofun }

theorem Coherent.same {p : Posted Bool} (h : Coherent first delivered s (.taken p))
    (same : s.last = p.value) : Coherent first delivered s .leaving :=
  { h with
    mailbox := h.mailbox.drop
    settled := by
      intro _ empty v last
      have latest := h.mailbox.held p rfl empty
      rw [latest.value] at last
      cases last
      exact same
    apart := nofun }

theorem Coherent.differ {p : Posted Bool} (h : Coherent first delivered s (.taken p))
    (apart : s.last ≠ p.value) : Coherent first delivered s (.locking p) :=
  { h with
    settled := nofun
    apart := by
      rintro q ⟨⟩
      exact apart }

theorem Coherent.deliver {p : Posted Bool} (h : Coherent first delivered s (.locking p))
    (registered : s.registered = true) :
    Coherent first (delivered ++ [p.value]) s (.calling p) :=
  { h with
    settled := nofun
    alternate := by
      rw [← List.cons_append]
      refine List.IsChain.append h.alternate (List.isChain_singleton _) ?_
      intro x last y head
      rw [h.latest registered] at last
      cases last
      cases head
      exact h.apart p rfl
    latest := fun _ => by
      rw [← List.cons_append, List.getLast?_concat]
      rfl
    silent := by
      intro silent
      rw [registered] at silent
      cases silent }

theorem Coherent.skip {p : Posted Bool} (h : Coherent first delivered s (.locking p))
    (registered : s.registered = false) : Coherent first delivered s (.storing p) :=
  { h with
    settled := nofun
    latest := by
      intro some
      rw [registered] at some
      cases some }

theorem Coherent.putBack {p : Posted Bool} (h : Coherent first delivered s (.refused p)) :
    Coherent first delivered { s with pending := s.pending.putBack p } .leaving :=
  { h with
    mailbox := h.mailbox.putBack
    settled := fun _ => nofun
    apart := nofun }

theorem Coherent.store {p : Posted Bool} (h : Coherent first delivered s (.storing p)) :
    Coherent first delivered { s with last := p.value } .leaving :=
  { h with
    mailbox := h.mailbox.drop
    settled := by
      intro _ empty v last
      have latest := h.mailbox.held p rfl empty
      rw [latest.value] at last
      cases last
      rfl
    apart := nofun }

structure Safe (first : Bool) (delivered : List Bool) (s : PlaybackNotifications Call) : Prop where
  acts : ∀ call, (s.calls call).active = true ↔ s.dispatch = some call
  coherent : Coherent first delivered s s.place

theorem safe_initial (registered : Bool) (pending : Option Bool) (last : Bool) :
    Safe last [] (initial registered pending last : PlaybackNotifications Call) where
  acts call := by simp [initial, DispatchAt.active]
  coherent :=
    { mailbox := Mailbox.inv_ofOption pending
      settled := by
        intro _ empty v last
        cases pending with
        | none => cases last
        | some value => cases empty
      apart := nofun
      alternate := List.isChain_singleton last
      latest := fun _ => rfl
      silent := fun _ => rfl }

theorem Safe.dispatches (safe : Safe first delivered s) {call : Call} (here : s.calls call = place)
    (active : place.active = true) : s.dispatch = some call ∧ Coherent first delivered s place := by
  have holder := (safe.acts call).mp (by rwa [here])
  have coherent := safe.coherent
  unfold PlaybackNotifications.place at coherent
  rw [holder] at coherent
  dsimp only at coherent
  rw [here] at coherent
  exact ⟨holder, coherent⟩

section Calls

variable [DecidableEq Call] {s' : PlaybackNotifications Call} {call : Call}

@[simp] theorem calls_at_ : (s.at_ call place).calls call = place := Function.update_self ..

theorem Safe.acts_update (safe : Safe first delivered s) {holder : Option Call}
    (moved : place.active = true ↔ holder = some call)
    (others : ∀ other ≠ call, s.dispatch = some other ↔ holder = some other) (other : Call) :
    (Function.update s.calls call place other).active = true ↔ holder = some other := by
  by_cases same : other = call
  · rw [same, Function.update_self]
    exact moved
  · rw [Function.update_of_ne same, safe.acts]
    exact others other same

theorem Safe.advance (safe : Safe first delivered s) (holder : s.dispatch = some call)
    (active : place.active = true) {delivered' : List Bool}
    (coherent : Coherent first delivered' s' place)
    (dispatch : s'.dispatch = s.dispatch) (calls : s'.calls = s.calls) :
    Safe first delivered' (s'.at_ call place) where
  acts other := by
    show (Function.update s'.calls call place other).active = true ↔ s'.dispatch = some other
    rw [dispatch, calls]
    exact safe.acts_update (iff_of_true active holder) (fun _ _ => Iff.rfl) other
  coherent := by
    have here : (s'.at_ call place).place = place := by
      show (match s'.dispatch with
        | some other => Function.update s'.calls call place other
        | none => .idle) = place
      rw [dispatch, holder]
      exact Function.update_self ..
    rw [here]
    exact { coherent with }

theorem Safe.leave (safe : Safe first delivered s) (here : s.calls call = .leaving) :
    Safe first delivered ({ s with dispatch := none }.at_ call .idle) where
  acts := by
    obtain ⟨holder, -⟩ := safe.dispatches here rfl
    refine safe.acts_update (iff_of_false nofun nofun) fun other apart => ?_
    rw [holder]
    exact iff_of_false (fun same => apart (Option.some.inj same).symm) nofun
  coherent := by
    obtain ⟨-, coherent⟩ := safe.dispatches here rfl
    have idle : Coherent first delivered s .idle := coherent.moved rfl rfl rfl
    exact { idle with }

theorem Safe.wait (safe : Safe first delivered s) (quiet : (s.calls call).active = false)
    (still : place.active = false) (coherent : Coherent first delivered s' s.place)
    (dispatch : s'.dispatch = s.dispatch) (calls : s'.calls = s.calls) :
    Safe first delivered (s'.at_ call place) where
  acts other := by
    show (Function.update s'.calls call place other).active = true ↔ s'.dispatch = some other
    rw [dispatch, calls]
    refine safe.acts_update ?_ (fun _ _ => Iff.rfl) other
    rw [still, ← quiet]
    exact safe.acts call
  coherent := by
    have here : (s'.at_ call place).place = s.place := by
      show (match s'.dispatch with
        | some other => Function.update s'.calls call place other
        | none => .idle) = s.place
      rw [dispatch, calls]
      unfold PlaybackNotifications.place
      cases holder : s.dispatch with
      | none => rfl
      | some other =>
        refine Function.update_of_ne ?_ _ _
        rintro rfl
        rw [(safe.acts other).mpr holder] at quiet
        cases quiet
    rw [here]
    exact { coherent with }

theorem Safe.enter (safe : Safe first delivered s) (free : s.dispatch = none) :
    Safe first delivered ({ s with dispatch := some call }.at_ call .dispatching) where
  acts := by
    refine safe.acts_update (iff_of_true rfl rfl) fun other apart => ?_
    rw [free]
    exact iff_of_false nofun fun same => apart (Option.some.inj same).symm
  coherent := by
    have coherent := safe.coherent
    have here : ({ s with dispatch := some call }.at_ call .dispatching).place = .dispatching :=
      Function.update_self ..
    unfold PlaybackNotifications.place at coherent
    rw [free] at coherent
    rw [here]
    have dispatching : Coherent first delivered s .dispatching := coherent.moved rfl rfl rfl
    exact { dispatching with }

theorem Safe.queue (safe : Safe first delivered s) (playing : Bool) :
    Safe first delivered (s.queue call playing) := by
  unfold PlaybackNotifications.queue
  split
  next idle =>
    exact safe.wait (by rw [idle]; rfl) rfl (safe.coherent.post playing) rfl rfl
  next => exact safe

theorem delivers_queue (playing : Bool) : s.delivers (.queue call playing) = [] := by
  unfold delivers
  dsimp only [PlaybackNotifications.step, PlaybackNotifications.queue, PlaybackOp.call]
  split
  next idle =>
    rw [calls_at_, idle]
    rfl
  next => cases s.calls call <;> rfl

theorem Safe.silent {before : DispatchAt} (safe : Safe first delivered (s'.at_ call place))
    (none : before.callback place = []) :
    Safe first (delivered ++ before.callback ((s'.at_ call place).calls call))
      (s'.at_ call place) := by
  rw [calls_at_, none, List.append_nil]
  exact safe

theorem Safe.stepCall (safe : Safe first delivered s) (contended : Bool) :
    Safe first (delivered ++ (s.calls call).callback ((s.stepCall call contended).calls call))
      (s.stepCall call contended) := by
  unfold PlaybackNotifications.stepCall
  cases here : s.calls call with
  | idle =>
    dsimp only
    rw [here, show DispatchAt.idle.callback .idle = [] from rfl, List.append_nil]
    exact safe
  | queued =>
    dsimp only
    split
    next free => exact (safe.enter free).silent rfl
    next => exact (safe.wait (by rw [here]; rfl) rfl safe.coherent rfl rfl).silent rfl
  | dispatching =>
    obtain ⟨holder, coherent⟩ := safe.dispatches here rfl
    dsimp only
    cases found : s.pending.slot with
    | none =>
      have moved : Coherent first delivered s .leaving := coherent.moved rfl rfl rfl
      exact (safe.advance holder rfl moved rfl rfl).silent rfl
    | some playing => exact (safe.advance holder rfl (coherent.take found) rfl rfl).silent rfl
  | taken playing =>
    obtain ⟨holder, coherent⟩ := safe.dispatches here rfl
    dsimp only
    split
    next same => exact (safe.advance holder rfl (coherent.same same) rfl rfl).silent rfl
    next apart => exact (safe.advance holder rfl (coherent.differ apart) rfl rfl).silent rfl
  | locking playing =>
    obtain ⟨holder, coherent⟩ := safe.dispatches here rfl
    dsimp only
    split
    next registered =>
      exact (safe.advance holder rfl (coherent.skip registered) rfl rfl).silent rfl
    next registered =>
      split
      · have moved : Coherent first delivered s (.refused playing) := coherent.moved rfl rfl rfl
        exact (safe.advance holder rfl moved rfl rfl).silent rfl
      · rw [calls_at_]
        exact safe.advance holder rfl (coherent.deliver (by simpa using registered)) rfl rfl
  | refused playing =>
    obtain ⟨holder, coherent⟩ := safe.dispatches here rfl
    exact (safe.advance holder rfl coherent.putBack rfl rfl).silent rfl
  | calling playing =>
    obtain ⟨holder, coherent⟩ := safe.dispatches here rfl
    have moved : Coherent first delivered s (.storing playing) := coherent.moved rfl rfl rfl
    exact (safe.advance holder rfl moved rfl rfl).silent rfl
  | storing playing =>
    obtain ⟨holder, coherent⟩ := safe.dispatches here rfl
    exact (safe.advance holder rfl coherent.store rfl rfl).silent rfl
  | leaving => exact (safe.leave here).silent rfl

theorem Safe.step (safe : Safe first delivered s) (op : PlaybackOp Call) :
    Safe first (delivered ++ s.delivers op) (s.step op) := by
  cases op with
  | queue call playing =>
    rw [delivers_queue, List.append_nil]
    exact safe.queue playing
  | step call contended => exact safe.stepCall contended

theorem safe_run (registered : Bool) (pending : Option Bool) (last : Bool)
    (ops : List (PlaybackOp Call)) :
    Safe last (logged step delivers (initial registered pending last) ops)
      (run step (initial registered pending last) ops) :=
  run_logged (P := fun _ _ => True) (fun _ _ op safe _ => safe.step op)
    (safe_initial registered pending last) (along_of_forall (fun _ _ => trivial) _ _)

theorem posted_step (s : PlaybackNotifications Call) (op : PlaybackOp Call) :
    (s.step op).pending.posted = s.pending.posted ++ s.queues op ∧
      (s.step op).registered = s.registered := by
  have still : s.pending.posted = s.pending.posted ++ [] := (List.append_nil _).symm
  cases op with
  | queue call playing =>
    dsimp only [PlaybackNotifications.step, PlaybackNotifications.queue, queues]
    split
    · exact ⟨rfl, rfl⟩
    · exact ⟨still, rfl⟩
  | step call contended =>
    dsimp only [PlaybackNotifications.step, PlaybackNotifications.stepCall, queues]
    cases s.calls call with
    | queued | taken =>
      dsimp only
      split <;> exact ⟨still, rfl⟩
    | dispatching =>
      dsimp only
      split <;> exact ⟨still, rfl⟩
    | locking playing =>
      dsimp only
      split
      · exact ⟨still, rfl⟩
      · split <;> exact ⟨still, rfl⟩
    | _ => exact ⟨still, rfl⟩

theorem posted_run (s : PlaybackNotifications Call) (ops : List (PlaybackOp Call)) :
    (run step s ops).pending.posted = s.pending.posted ++ logged step queues s ops ∧
      (run step s ops).registered = s.registered := by
  induction ops generalizing s with
  | nil => exact ⟨(List.append_nil _).symm, rfl⟩
  | cons op ops ih =>
    obtain ⟨posted, registered⟩ := s.posted_step op
    obtain ⟨later, same⟩ := ih (s.step op)
    rw [logged, ← List.append_assoc, ← posted]
    exact ⟨later, same.trans registered⟩

omit [DecidableEq Call] in
theorem Safe.settles (safe : Safe first delivered s) (quiet : ∀ call, (s.calls call).active = false)
    {v : Bool} (queued : s.pending.posted.getLast? = some v) :
    (∃ serial, s.pending.slot = some ⟨serial, v⟩) ∨ s.last = v := by
  have free : s.place = .idle := by
    unfold PlaybackNotifications.place
    cases holder : s.dispatch with
    | none => rfl
    | some call =>
      have busy := (safe.acts call).mpr holder
      rw [quiet call] at busy
      cases busy
  have coherent := safe.coherent
  rw [free] at coherent
  cases found : s.pending.slot with
  | some p =>
    have latest := (coherent.mailbox.slot p found).value
    rw [queued] at latest
    cases latest
    exact .inl ⟨p.serial, rfl⟩
  | none => exact .inr (coherent.settled rfl found v queued)

theorem Safe.slot_step (safe : Safe first delivered s) (op : PlaybackOp Call) {p : Posted Bool}
    (found : s.pending.slot = some p) :
    (s.step op).pending.slot = some p ∨ (s.step op).pending.slot = none ∨
      ∃ newer, (s.step op).pending.slot = some newer ∧ p.serial < newer.serial := by
  cases op with
  | queue call playing =>
    have latest := (safe.coherent.mailbox.slot p found).serial
    have newer : p.serial < s.pending.posted.length := by omega
    dsimp only [PlaybackNotifications.step, PlaybackNotifications.queue]
    split
    · exact .inr (.inr ⟨_, rfl, newer⟩)
    · exact .inl found
  | step call contended =>
    dsimp only [PlaybackNotifications.step, PlaybackNotifications.stepCall]
    cases s.calls call with
    | dispatching =>
      dsimp only
      rw [found]
      exact .inr (.inl rfl)
    | refused older => exact .inl (Mailbox.slot_putBack found older)
    | queued =>
      dsimp only
      split <;> exact .inl found
    | taken playing =>
      dsimp only
      split <;> exact .inl found
    | locking playing =>
      dsimp only
      split
      · exact .inl found
      · split <;> exact .inl found
    | idle => exact .inl found
    | calling playing => exact .inl found
    | storing playing => exact .inl found
    | leaving => exact .inl found

/-! A dispatch that nobody disturbs. -/

/-- The call is the only one that dispatches, and it does not give back what it takes. -/
structure Alone (s : PlaybackNotifications Call) (call : Call) : Prop where
  only : ∀ other, (s.calls other).active = true → other = call
  taken : s.calls call = .queued ∨ s.calls call = .dispatching ∨ s.pending.slot = none
  keeps : ∀ playing, s.calls call ≠ .refused playing

theorem Alone.at_ (h : s.Alone call) (calls : s'.calls = s.calls)
    (taken : place = .dispatching ∨ s'.pending.slot = none)
    (keeps : ∀ playing, place ≠ .refused playing) : (s'.at_ call place).Alone call where
  only other acts := by
    by_contra apart
    refine apart (h.only other ?_)
    simpa [PlaybackNotifications.at_, Function.update_of_ne apart, calls] using acts
  taken := by
    rw [calls_at_]
    exact .inr taken
  keeps playing := by
    rw [calls_at_]
    exact keeps playing

theorem Alone.step (h : s.Alone call) (safe : Safe first delivered s) :
    (s.stepCall call false).Alone call ∧
      ((s.stepCall call false).calls call).toGo ≤ (s.calls call).toGo - 1 := by
  have taken := h.taken
  unfold PlaybackNotifications.stepCall
  cases here : s.calls call with
  | idle => exact ⟨h, by rw [here]; exact Nat.zero_le _⟩
  | queued =>
    have free : s.dispatch = none := by
      by_contra busy
      obtain ⟨holder, held⟩ := Option.ne_none_iff_exists'.mp busy
      have acts := (safe.acts holder).mpr held
      have same := h.only holder acts
      rw [same, here] at acts
      cases acts
    dsimp only
    rw [if_pos free]
    exact ⟨h.at_ rfl (.inl rfl) (by simp), by rw [calls_at_]; decide⟩
  | dispatching =>
    dsimp only
    cases found : s.pending.slot with
    | none => exact ⟨h.at_ rfl (.inr found) (by simp), by rw [calls_at_]; decide⟩
    | some playing => exact ⟨h.at_ rfl (.inr rfl) (by simp), by rw [calls_at_]; exact le_refl 5⟩
  | taken playing =>
    have empty : s.pending.slot = none := by simpa [here] using taken
    dsimp only
    split
    · exact ⟨h.at_ rfl (.inr empty) (by simp), by rw [calls_at_]; exact Nat.le_add_left 1 3⟩
    · exact ⟨h.at_ rfl (.inr empty) (by simp), by rw [calls_at_]; exact le_refl 4⟩
  | locking playing =>
    have empty : s.pending.slot = none := by simpa [here] using taken
    dsimp only
    split
    · exact ⟨h.at_ rfl (.inr empty) (by simp), by rw [calls_at_]; exact Nat.le_succ 2⟩
    · rw [if_neg Bool.false_ne_true]
      exact ⟨h.at_ rfl (.inr empty) (by simp), by rw [calls_at_]; exact le_refl 3⟩
  | refused playing => exact absurd here (h.keeps playing)
  | calling playing =>
    have empty : s.pending.slot = none := by simpa [here] using taken
    exact ⟨h.at_ rfl (.inr empty) (by simp), by rw [calls_at_]; exact le_refl 2⟩
  | storing playing =>
    have empty : s.pending.slot = none := by simpa [here] using taken
    exact ⟨h.at_ rfl (.inr empty) (by simp), by rw [calls_at_]; exact le_refl 1⟩
  | leaving =>
    have empty : s.pending.slot = none := by simpa [here] using taken
    exact ⟨h.at_ rfl (.inr empty) (by simp), by rw [calls_at_]; exact le_refl 0⟩

theorem Alone.run {n : Nat} (h : s.Alone call) (safe : Safe first delivered s)
    (few : (s.calls call).toGo ≤ n) :
    let s' := run PlaybackNotifications.step s (List.replicate n (.step call false))
    s'.Alone call ∧ s'.calls call = .idle := by
  induction n generalizing s delivered with
  | zero =>
    refine ⟨h, ?_⟩
    show s.calls call = .idle
    cases here : s.calls call <;> simp [here, DispatchAt.toGo] at few ⊢
  | succ n ih =>
    obtain ⟨alone, less⟩ := h.step safe
    exact ih alone (safe.stepCall false) (less.trans (Nat.sub_le_of_le_add few))

/-- In every run: one callback at most is in progress; the values it was called with alternate from
the initial one on, and the last of them is the last one notified wherever no call is in it; the
pending value is the one queued last and gives way only to a later one or to the dispatcher; between
dispatches the value queued last is pending or was the last one notified; and a call that dispatches
undisturbed notifies it. -/
theorem notifications_serialised (registered : Bool) (pending : Option Bool) (last : Bool)
    (ops : List (PlaybackOp Call)) :
    let start : PlaybackNotifications Call := initial registered pending last
    let s := run step start ops
    let queued := pending.toList ++ logged step queues start ops
    let delivered := logged step delivers start ops
    (∀ call call' p p', s.calls call = .calling p → s.calls call' = .calling p' → call = call') ∧
    List.IsChain (· ≠ ·) (last :: delivered) ∧
    (registered = true → (∀ call, (s.calls call).announced = none) →
      (last :: delivered).getLast? = some s.last) ∧
    (∀ p, s.pending.slot = some p → queued.getLast? = some p.value ∧
      ∀ op, (s.step op).pending.slot = some p ∨ (s.step op).pending.slot = none ∨
        ∃ newer, (s.step op).pending.slot = some newer ∧ p.serial < newer.serial) ∧
    ((∀ call, (s.calls call).active = false) →
      (∀ v, queued.getLast? = some v → (∃ serial, s.pending.slot = some ⟨serial, v⟩) ∨ s.last = v) ∧
      ∀ call, s.calls call = .queued →
        let s' := run step s (List.replicate 7 (.step call false))
        s'.calls call = .idle ∧ s'.pending.slot = none ∧
          ∀ v, queued.getLast? = some v → s'.last = v) := by
  intro start s queued delivered
  have safe : Safe last delivered s := safe_run registered pending last ops
  have posted : s.pending.posted = queued := (posted_run start ops).1
  have same : s.registered = registered := (posted_run start ops).2
  refine ⟨?_, safe.coherent.alternate, ?_, ?_, fun quiet => ⟨fun v latest => ?_, ?_⟩⟩
  · intro call call' p p' here here'
    have holder := (safe.dispatches here rfl).1
    rw [(safe.dispatches here' rfl).1] at holder
    exact (Option.some.inj holder).symm
  · intro called between
    have outside : s.place.announced = none := by
      unfold PlaybackNotifications.place
      cases s.dispatch with
      | none => rfl
      | some call => exact between call
    have latest := safe.coherent.latest (same.trans called)
    rw [outside] at latest
    exact latest
  · intro p found
    rw [← posted]
    exact ⟨(safe.coherent.mailbox.slot p found).value, fun op => safe.slot_step op found⟩
  · rw [← posted] at latest
    exact safe.settles quiet latest
  · intro call here s'
    have alone : s.Alone call :=
      { only := fun other acts => by
          rw [quiet other] at acts
          cases acts
        taken := .inl here
        keeps := by simp [here] }
    have few : (s.calls call).toGo ≤ 7 := by
      rw [here]
      exact le_refl 7
    obtain ⟨after, idle⟩ := alone.run safe few
    have empty : s'.pending.slot = none := by
      rcases after.taken with queued | dispatching | empty
      · exact absurd (idle.symm.trans queued) nofun
      · exact absurd (idle.symm.trans dispatching) nofun
      · exact empty
    have later : s'.pending.posted = queued := by
      have nothing : logged step queues s (List.replicate 7 (.step call false)) = [] := rfl
      rw [← posted, (posted_run s _).1, nothing, List.append_nil]
    obtain ⟨delivered', safe'⟩ : ∃ delivered', Safe last delivered' s' :=
      ⟨_, run_logged (P := fun _ _ => True) (fun _ _ op safe _ => safe.step op) safe
        (along_of_forall (fun _ _ => trivial) _ _)⟩
    refine ⟨idle, empty, fun v latest => ?_⟩
    have quiet' (other : Call) : (s'.calls other).active = false := by
      cases acts : (s'.calls other).active with
      | false => rfl
      | true =>
        have here : s'.calls call = .idle := idle
        rw [after.only other acts, here] at acts
        cases acts
    rw [← later] at latest
    rcases safe'.settles quiet' latest with ⟨serial, pending⟩ | settled
    · rw [empty] at pending
      cases pending
    · exact settled

theorem notifications_serialised_refused :
    let start : PlaybackNotifications (Fin 2) := initial true none false
    let ops := [.queue 0 true, .step 0 false, .step 0 false, .step 0 false, .step 0 true,
      .step 0 false, .step 0 false, .queue 1 true]
    let s := run step start ops
    let s' := run step s (List.replicate 7 (.step 1 false))
    s.last = false ∧ s'.last = true ∧
      (false :: logged step delivers start (ops ++ List.replicate 7 (.step 1 false))).getLast? =
        some true := by
  intro start ops s s'
  have called := (notifications_serialised true none false
    (ops ++ List.replicate 7 (.step (1 : Fin 2) false))).2.2.1 rfl (by decide)
  obtain ⟨-, undisturbed⟩ := (notifications_serialised true none false ops).2.2.2.2 (by decide)
  have last : s'.last = true := (undisturbed 1 (by decide)).2.2 true (by decide)
  refine ⟨by decide, last, called.trans ?_⟩
  rw [run_append]
  exact congrArg some last

example :
    let s := run step (initial true none false : PlaybackNotifications (Fin 2))
      [.queue 0 true, .step 0 false, .step 0 false, .step 0 false, .step 0 true, .queue 1 false,
        .step 1 false, .step 0 false, .step 0 false]
    s.pending.slot = some ⟨1, false⟩ ∧ s.dispatch = none := by
  decide

end Calls

end PlaybackNotifications

end AbletonLink.Link
