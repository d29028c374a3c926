import AbletonLink.Library.Mailbox
import AbletonLink.Library.Serialised

/-! Notifications of tempo changes.  Every region of a lock and both ends of the callback are one
step of `dispatch`; what the callback itself calls is another call. -/

universe u v w

namespace AbletonLink.Link

open Library

structure Notification (Callback : Type u) (Bpm : Type v) where
  callback : Callback
  bpm : Posted Bpm
  deriving DecidableEq

namespace Notification

variable {Callback : Type u} {Bpm : Type v}

def seen (n : Notification Callback Bpm) : Callback × Bpm := (n.callback, n.bpm.value)

end Notification

/-- `registering` is the call of `register_tempo_callback` that has the lock of `registration`.
`tempos` are all tempos of the client state, the last one is the current one; `registered` are the
callbacks that were registered, `known` also those that are about to be or were installed in
another way, and `notified` is what was delivered. -/
structure TempoNotifications (Callback : Type u) (Bpm : Type v) where
  callback : Option Callback
  closed : Bool
  registration : Option Callback
  delivered : Option Callback × Bpm
  tempos : List Bpm
  registering : Option Callback
  registered : List Callback
  known : List Callback
  notified : List (Notification Callback Bpm)

inductive TempoAt (Callback : Type u) (Bpm : Type v)
  | installing (requested : Bool)
  | locking (requested initial : Bool) (callback : Callback)
  | reading (requested initial : Bool) (callback : Callback)
  | comparing (requested initial : Bool) (next : Notification Callback Bpm)
  | admitted (next : Notification Callback Bpm)
  | calling (next : Notification Callback Bpm)
  | storing (next : Notification Callback Bpm)
  | clearing (callback : Callback)
  deriving DecidableEq

inductive TempoChange (Callback : Type u) (Bpm : Type v)
  | lock (callback : Callback)
  | register
  | assign (callback : Option Callback)
  | retime (bpm : Bpm)
  | close

namespace TempoNotifications

variable {Callback : Type u} {Bpm : Type v} {Call : Type w}

def initial (bpm : Bpm) : TempoNotifications Callback Bpm where
  callback := none
  closed := false
  registration := none
  delivered := (none, bpm)
  tempos := [bpm]
  registering := none
  registered := []
  known := []
  notified := []

/-- The two steps of `register_tempo_callback` before its dispatch, direct writes of the field, new
client tempos and the end of the controller. -/
def change (s : TempoNotifications Callback Bpm) :
    TempoChange Callback Bpm → TempoNotifications Callback Bpm
  | .lock callback =>
    match s.registering with
    | none => { s with registering := some callback, known := s.known ++ [callback] }
    | some _ => s
  | .register =>
    match s.registering with
    | none => s
    | some callback =>
      { s with
        registration := some callback
        registering := none
        registered := s.registered ++ [callback] }
  | .assign callback => { s with callback, known := s.known ++ callback.toList }
  | .retime bpm => { s with tempos := s.tempos ++ [bpm] }
  | .close => { s with closed := true }

variable [DecidableEq Callback] [DecidableEq Bpm]

/-- `contended` tells whether somebody else holds the lock that a step tries, other than that of
`registration`. -/
def dispatch (s : TempoNotifications Callback Bpm) (contended : Bool) :
    TempoAt Callback Bpm → TempoNotifications Callback Bpm × Option (TempoAt Callback Bpm)
  | .installing requested =>
    if s.registering.isSome || contended then (s, none)
    else
      let installed := s.registration.or s.callback
      let s := { s with callback := installed }
      match installed with
      | none => (s, none)
      | some callback => (s, some (.locking requested s.registration.isSome callback))
  | .locking requested initial callback =>
    if contended then (s, none) else (s, some (.reading requested initial callback))
  | .reading requested initial callback =>
    if contended then (s, none)
    else
      match s.tempos.getLast? with
      | none => (s, none)
      | some bpm =>
        (s, some (.comparing requested initial ⟨callback, s.tempos.length - 1, bpm⟩))
  | .comparing requested initial next =>
    let sameCallback := s.delivered.1.all (· = next.callback)
    let initial := initial || (requested && s.delivered.1.isNone)
    if (!initial && sameCallback && s.delivered.2 = next.bpm.value) || s.closed then (s, none)
    else (s, some (.admitted next))
  | .admitted next => ({ s with notified := s.notified ++ [next] }, some (.calling next))
  | .calling next => (s, some (.storing next))
  | .storing next =>
    ({ s with delivered := (some next.callback, next.bpm.value) }, some (.clearing next.callback))
  | .clearing callback =>
    if s.registering.isNone && s.registration = some callback then
      ({ s with registration := none }, none)
    else (s, none)

def critical : Critical (TempoNotifications Callback Bpm) Bool (TempoAt Callback Bpm) Bool
    (TempoChange Callback Bpm) where
  outside := change
  enter := .installing
  act := dispatch

end TempoNotifications

namespace TempoAt

variable {Callback : Type u} {Bpm : Type v}

def chosen : TempoAt Callback Bpm → Option Callback
  | installing _ => none
  | locking _ _ callback | reading _ _ callback | clearing callback => some callback
  | comparing _ _ next | admitted next | calling next | storing next => some next.callback

def first : TempoAt Callback Bpm → Option Callback
  | locking _ true callback | reading _ true callback => some callback
  | comparing _ true next => some next.callback
  | _ => none

def upcoming : TempoAt Callback Bpm → Option (Notification Callback Bpm)
  | comparing _ _ next | admitted next => some next
  | _ => none

def passed : TempoAt Callback Bpm → Option (Notification Callback Bpm)
  | admitted next => some next
  | _ => none

def announced : TempoAt Callback Bpm → Option (Notification Callback Bpm)
  | calling next | storing next => some next
  | _ => none

def served : TempoAt Callback Bpm → Option Callback
  | calling next | storing next => some next.callback
  | clearing callback => some callback
  | _ => none

end TempoAt

namespace TempoNotifications

variable {Callback : Type u} {Bpm : Type v} {Call : Type w}

def Told (s : TempoNotifications Callback Bpm) (callback : Callback) : Prop :=
  ∃ n ∈ s.notified, n.callback = callback

structure Strange (s : TempoNotifications Callback Bpm) (place : Option (TempoAt Callback Bpm))
    (callback : Callback) : Prop where
  told : ¬s.Told callback
  installed : s.callback ≠ some callback
  registered : s.registration ≠ some callback
  chosen : place.bind TempoAt.chosen ≠ some callback

structure InOrder (s : TempoNotifications Callback Bpm) (place : Option (TempoAt Callback Bpm)) :
    Prop where
  nonempty : s.tempos ≠ []
  read : ∀ n ∈ s.notified, s.tempos[n.bpm.serial]? = some n.bpm.value
  order : s.notified.Pairwise fun n n' => n.bpm.serial ≤ n'.bpm.serial
  upcoming : ∀ n, place.bind TempoAt.upcoming = some n →
    s.tempos[n.bpm.serial]? = some n.bpm.value ∧ ∀ m ∈ s.notified, m.bpm.serial ≤ n.bpm.serial

structure Distinct (s : TempoNotifications Callback Bpm) (place : Option (TempoAt Callback Bpm)) :
    Prop where
  chain : s.notified.IsChain fun n n' => n.seen ≠ n'.seen
  last : s.notified.getLast?.map Notification.seen =
    ((place.bind TempoAt.announced).map Notification.seen).or
      (s.delivered.1.map fun callback => (callback, s.delivered.2))
  passed : ∀ n, place.bind TempoAt.passed = some n →
    ∀ m, s.notified.getLast? = some m → m.seen ≠ n.seen
  first : ∀ callback, place.bind TempoAt.first = some callback → ¬s.Told callback

structure Kept (s : TempoNotifications Callback Bpm) (place : Option (TempoAt Callback Bpm)) :
    Prop where
  pending : ∀ callback, s.registration = some callback → s.Told callback →
    place.bind TempoAt.served = some callback ∨ s.registering ≠ none
  served : ∀ callback, place.bind TempoAt.served = some callback → s.Told callback
  latest : ∀ callback, s.registered.getLast? = some callback →
    s.registration = some callback ∨ s.Told callback
  known : ∀ callback, callback ∉ s.known → s.Strange place callback
  registering : ∀ callback, s.registering = some callback →
    callback ∈ s.known ∧ s.Strange place callback

structure Coherent (s : TempoNotifications Callback Bpm) (place : Option (TempoAt Callback Bpm)) :
    Prop where
  order : s.InOrder place
  distinct : s.Distinct place
  kept : s.Kept place

def Fresh (s : TempoNotifications Callback Bpm) : TempoChange Callback Bpm → Prop
  | .lock callback => callback ∉ s.known
  | .assign callback => ∀ mine ∈ s.registering, callback ≠ some mine
  | _ => True

instance [DecidableEq Callback] (s : TempoNotifications Callback Bpm) : DecidablePred s.Fresh
  | .lock callback => inferInstanceAs (Decidable (callback ∉ s.known))
  | .assign callback => inferInstanceAs (Decidable (∀ mine ∈ s.registering, callback ≠ some mine))
  | .register => inferInstanceAs (Decidable True)
  | .retime _ => inferInstanceAs (Decidable True)
  | .close => inferInstanceAs (Decidable True)

variable {s : TempoNotifications Callback Bpm} {place place' : Option (TempoAt Callback Bpm)}
  {requested pending : Bool}

theorem Told.mono {callback : Callback} (told : s.Told callback)
    (more : List (Notification Callback Bpm)) :
    Told { s with notified := s.notified ++ more } callback := by
  obtain ⟨n, member, same⟩ := told
  exact ⟨n, List.mem_append_left more member, same⟩

theorem InOrder.serial_lt (order : s.InOrder place) {n : Notification Callback Bpm}
    (member : n ∈ s.notified) : n.bpm.serial < s.tempos.length :=
  (List.getElem?_eq_some_iff.mp (order.read n member)).1

theorem Coherent.moved (h : s.Coherent place)
    (chosen : ∀ c, place'.bind TempoAt.chosen = some c → place.bind TempoAt.chosen = some c)
    (first : ∀ c, place'.bind TempoAt.first = some c → place.bind TempoAt.first = some c)
    (upcoming : ∀ n, place'.bind TempoAt.upcoming = some n →
      place.bind TempoAt.upcoming = some n)
    (passed : ∀ n, place'.bind TempoAt.passed = some n → place.bind TempoAt.passed = some n)
    (announced : place'.bind TempoAt.announced = place.bind TempoAt.announced)
    (served : place'.bind TempoAt.served = place.bind TempoAt.served) : s.Coherent place' where
  order := { h.order with upcoming := fun n found => h.order.upcoming n (upcoming n found) }
  distinct :=
    { chain := h.distinct.chain
      last := by
        rw [announced]
        exact h.distinct.last
      passed := fun n found => h.distinct.passed n (passed n found)
      first := fun c found => h.distinct.first c (first c found) }
  kept :=
    { pending := by
        rw [served]
        exact h.kept.pending
      served := by
        rw [served]
        exact h.kept.served
      latest := h.kept.latest
      known := fun c unknown =>
        { h.kept.known c unknown with
          chosen := fun found => (h.kept.known c unknown).chosen (chosen c found) }
      registering := fun c found =>
        ⟨(h.kept.registering c found).1,
          { (h.kept.registering c found).2 with
            chosen := fun found' => (h.kept.registering c found).2.chosen (chosen c found') }⟩ }

theorem Coherent.giveUp (h : s.Coherent place) (announced : place.bind TempoAt.announced = none)
    (served : place.bind TempoAt.served = none) : s.Coherent none :=
  h.moved (by rintro _ ⟨⟩) (by rintro _ ⟨⟩) (by rintro _ ⟨⟩) (by rintro _ ⟨⟩) announced.symm
    served.symm

theorem Coherent.lock (h : s.Coherent place) {callback : Callback} (new : callback ∉ s.known) :
    Coherent { s with registering := some callback, known := s.known ++ [callback] } place where
  order := { h.order with }
  distinct := { h.distinct with }
  kept :=
    { pending := fun _ _ _ => .inr (Option.some_ne_none callback)
      served := h.kept.served
      latest := h.kept.latest
      known := by
        intro c unknown
        have strange := h.kept.known c fun member => unknown (List.mem_append_left _ member)
        exact { strange with }
      registering := by
        rintro c ⟨⟩
        refine ⟨List.mem_append_right _ (List.mem_singleton_self callback), ?_⟩
        exact { h.kept.known callback new with } }

theorem Coherent.register (h : s.Coherent place) {callback : Callback}
    (mine : s.registering = some callback) :
    Coherent
      { s with
        registration := some callback
        registering := none
        registered := s.registered ++ [callback] } place := by
  obtain ⟨known, strange⟩ := h.kept.registering callback mine
  exact
    { order := { h.order with }
      distinct := { h.distinct with }
      kept :=
        { pending := by
            rintro c ⟨⟩ told
            exact absurd told strange.told
          served := h.kept.served
          latest := by
            intro c last
            rw [List.getLast?_concat] at last
            exact .inl last
          known := by
            intro c unknown
            refine { h.kept.known c unknown with registered := ?_ }
            rintro ⟨⟩
            exact unknown known
          registering := by rintro _ ⟨⟩ } }

theorem Coherent.assign (h : s.Coherent place) {callback : Option Callback}
    (apart : ∀ mine ∈ s.registering, callback ≠ some mine) :
    Coherent { s with callback, known := s.known ++ callback.toList } place where
  order := { h.order with }
  distinct := { h.distinct with }
  kept :=
    { pending := h.kept.pending
      served := h.kept.served
      latest := h.kept.latest
      known := by
        intro c unknown
        have strange := h.kept.known c fun member => unknown (List.mem_append_left _ member)
        refine { strange with installed := ?_ }
        rintro rfl
        exact unknown (List.mem_append_right _ (List.mem_singleton_self c))
      registering := by
        intro c mine
        obtain ⟨known, strange⟩ := h.kept.registering c mine
        exact ⟨List.mem_append_left _ known, { strange with installed := apart c mine }⟩ }

theorem Coherent.retime (h : s.Coherent place) (bpm : Bpm) :
    Coherent { s with tempos := s.tempos ++ [bpm] } place where
  order :=
    { nonempty := List.append_ne_nil_of_right_ne_nil _ (List.cons_ne_nil bpm [])
      read := by
        intro n member
        rw [List.getElem?_append_left (h.order.serial_lt member)]
        exact h.order.read n member
      order := h.order.order
      upcoming := by
        intro n found
        obtain ⟨read, later⟩ := h.order.upcoming n found
        rw [List.getElem?_append_left (List.getElem?_eq_some_iff.mp read).1]
        exact ⟨read, later⟩ }
  distinct := { h.distinct with }
  kept :=
    { h.kept with
      known := fun c unknown => { h.kept.known c unknown with }
      registering := fun c mine =>
        ⟨(h.kept.registering c mine).1, { (h.kept.registering c mine).2 with }⟩ }

theorem Coherent.close (h : s.Coherent place) : Coherent { s with closed := true } place where
  order := { h.order with }
  distinct := { h.distinct with }
  kept :=
    { h.kept with
      known := fun c unknown => { h.kept.known c unknown with }
      registering := fun c mine =>
        ⟨(h.kept.registering c mine).1, { (h.kept.registering c mine).2 with }⟩ }

theorem Coherent.change (h : s.Coherent place) (change : TempoChange Callback Bpm)
    (fresh : s.Fresh change) : Coherent (s.change change) place := by
  cases change with
  | lock callback =>
    unfold TempoNotifications.change
    cases mine : s.registering with
    | none => exact h.lock fresh
    | some other => exact h
  | register =>
    unfold TempoNotifications.change
    cases mine : s.registering with
    | none => exact h
    | some callback => exact h.register mine
  | assign callback => exact h.assign fresh
  | retime bpm => exact h.retime bpm
  | close => exact h.close

theorem Coherent.install (h : s.Coherent (some (.installing requested)))
    (free : s.registering = none) {callback : Callback}
    (installed : s.registration.or s.callback = some callback) :
    Coherent { s with callback := some callback }
      (some (.locking requested s.registration.isSome callback)) where
  order := { h.order with upcoming := by rintro _ ⟨⟩ }
  distinct :=
    { chain := h.distinct.chain
      last := h.distinct.last
      passed := by rintro _ ⟨⟩
      first := by
        intro c found told
        cases pending : s.registration with
        | none =>
          rw [pending] at found
          cases found
        | some registered =>
          rw [pending] at found installed
          cases installed
          cases found
          rcases h.kept.pending _ pending told with served | locked
          · cases served
          · exact locked free }
  kept :=
    { pending := h.kept.pending
      served := by rintro _ ⟨⟩
      latest := h.kept.latest
      known := by
        intro c unknown
        have strange := h.kept.known c unknown
        have apart : some callback ≠ some c := by
          rw [← installed]
          intro same
          rcases Option.or_eq_some_iff.mp same with found | ⟨-, found⟩
          · exact strange.registered found
          · exact strange.installed found
        exact { strange with installed := apart, chosen := apart }
      registering := by
        intro c mine
        rw [free] at mine
        cases mine }

theorem Coherent.read {callback : Callback} {bpm : Bpm}
    (h : s.Coherent (some (.reading requested pending callback)))
    (current : s.tempos.getLast? = some bpm) :
    s.Coherent
      (some (.comparing requested pending ⟨callback, s.tempos.length - 1, bpm⟩)) where
  order :=
    { h.order with
      upcoming := by
        rintro n ⟨⟩
        refine ⟨by rw [← List.getLast?_eq_getElem?]; exact current, fun m member => ?_⟩
        have inside := h.order.serial_lt member
        dsimp only
        omega }
  distinct :=
    { h.distinct with
      passed := by rintro _ ⟨⟩
      first := by
        intro c found
        cases pending with
        | false => cases found
        | true => exact h.distinct.first c found }
  kept :=
    { h.kept with
      known := fun c unknown => { h.kept.known c unknown with }
      registering := fun c mine =>
        ⟨(h.kept.registering c mine).1, { (h.kept.registering c mine).2 with }⟩ }

theorem Coherent.deliver {next : Notification Callback Bpm}
    (h : s.Coherent (some (.admitted next))) :
    Coherent { s with notified := s.notified ++ [next] } (some (.calling next)) := by
  obtain ⟨read, later⟩ := h.order.upcoming next rfl
  have told : Told { s with notified := s.notified ++ [next] } next.callback :=
    ⟨next, List.mem_append_right _ (List.mem_singleton_self next), rfl⟩
  have before : ∀ {c}, Told { s with notified := s.notified ++ [next] } c →
      s.Told c ∨ c = next.callback := by
    rintro c ⟨n, member, same⟩
    rcases List.mem_append.mp member with old | new
    · exact .inl ⟨n, old, same⟩
    · rw [List.mem_singleton.mp new] at same
      exact .inr same.symm
  have strange : ∀ {c}, s.Strange (some (.admitted next)) c →
      Strange { s with notified := s.notified ++ [next] } (some (.calling next)) c := by
    intro c strange
    refine { strange with told := fun told => ?_ }
    rcases before told with old | rfl
    · exact strange.told old
    · exact strange.chosen rfl
  exact
    { order :=
        { nonempty := h.order.nonempty
          read := by
            intro n member
            rcases List.mem_append.mp member with old | new
            · exact h.order.read n old
            · rw [List.mem_singleton.mp new]
              exact read
          order := by
            refine List.pairwise_append.mpr ⟨h.order.order, List.pairwise_singleton _ _, ?_⟩
            intro n member n' new
            rw [List.mem_singleton.mp new]
            exact later n member
          upcoming := by rintro _ ⟨⟩ }
      distinct :=
        { chain := by
            refine List.IsChain.append h.distinct.chain (List.isChain_singleton _) ?_
            intro m last n head
            cases head
            exact h.distinct.passed next rfl m last
          last := by
            rw [List.getLast?_concat]
            rfl
          passed := by rintro _ ⟨⟩
          first := by rintro _ ⟨⟩ }
      kept :=
        { pending := by
            intro c pending told
            rcases before told with old | rfl
            · rcases h.kept.pending c pending old with served | locked
              · cases served
              · exact .inr locked
            · exact .inl rfl
          served := by
            rintro c ⟨⟩
            exact told
          latest := fun c last => (h.kept.latest c last).imp_right fun told => told.mono [next]
          known := fun c unknown => strange (h.kept.known c unknown)
          registering := fun c mine =>
            ⟨(h.kept.registering c mine).1, strange (h.kept.registering c mine).2⟩ } }

theorem Coherent.store {next : Notification Callback Bpm}
    (h : s.Coherent (some (.storing next))) :
    Coherent { s with delivered := (some next.callback, next.bpm.value) }
      (some (.clearing next.callback)) where
  order := { h.order with upcoming := by rintro _ ⟨⟩ }
  distinct :=
    { chain := h.distinct.chain
      last := h.distinct.last
      passed := by rintro _ ⟨⟩
      first := by rintro _ ⟨⟩ }
  kept :=
    { h.kept with
      known := fun c unknown => { h.kept.known c unknown with }
      registering := fun c mine =>
        ⟨(h.kept.registering c mine).1, { (h.kept.registering c mine).2 with }⟩ }

theorem Coherent.clear {callback : Callback} (h : s.Coherent (some (.clearing callback)))
    (pending : s.registration = some callback) :
    Coherent { s with registration := none } none where
  order := { h.order with upcoming := by rintro _ ⟨⟩ }
  distinct :=
    { chain := h.distinct.chain
      last := h.distinct.last
      passed := by rintro _ ⟨⟩
      first := by rintro _ ⟨⟩ }
  kept :=
    { pending := by rintro _ ⟨⟩
      served := by rintro _ ⟨⟩
      latest := by
        intro c last
        rcases h.kept.latest c last with same | told
        · rw [pending] at same
          cases same
          exact .inr (h.kept.served callback rfl)
        · exact .inr told
      known := fun c unknown =>
        { h.kept.known c unknown with registered := nofun, chosen := nofun }
      registering := fun c mine =>
        ⟨(h.kept.registering c mine).1,
          { (h.kept.registering c mine).2 with registered := nofun, chosen := nofun }⟩ }

theorem Coherent.leave {callback : Callback} (h : s.Coherent (some (.clearing callback)))
    (stays : s.registration = some callback → s.registering ≠ none) : s.Coherent none where
  order := { h.order with upcoming := by rintro _ ⟨⟩ }
  distinct :=
    { chain := h.distinct.chain
      last := h.distinct.last
      passed := by rintro _ ⟨⟩
      first := by rintro _ ⟨⟩ }
  kept :=
    { pending := by
        intro c pending told
        rcases h.kept.pending c pending told with served | locked
        · cases served
          exact .inr (stays pending)
        · exact .inr locked
      served := by rintro _ ⟨⟩
      latest := h.kept.latest
      known := fun c unknown => { h.kept.known c unknown with chosen := nofun }
      registering := fun c mine =>
        ⟨(h.kept.registering c mine).1, { (h.kept.registering c mine).2 with chosen := nofun }⟩ }

variable [DecidableEq Callback] [DecidableEq Bpm]

theorem Coherent.compare {next : Notification Callback Bpm}
    (h : s.Coherent (some (.comparing requested pending next)))
    (differs : ¬(!(pending || requested && s.delivered.1.isNone) &&
      s.delivered.1.all (· = next.callback) && s.delivered.2 = next.bpm.value) = true) :
    s.Coherent (some (.admitted next)) where
  order := { h.order with upcoming := h.order.upcoming }
  distinct :=
    { h.distinct with
      passed := by
        rintro n ⟨⟩ m last same
        have delivered : s.delivered.1 = some m.callback ∧ s.delivered.2 = m.bpm.value := by
          have stored := h.distinct.last
          rw [last] at stored
          obtain ⟨callback, found, pair⟩ := Option.map_eq_some_iff.mp stored.symm
          obtain ⟨rfl, value⟩ := Prod.mk.inj pair
          exact ⟨found, value⟩
        have told : s.Told next.callback :=
          ⟨m, List.mem_of_getLast? last, congrArg Prod.fst same⟩
        cases pending with
        | true => exact h.distinct.first next.callback rfl told
        | false =>
          obtain ⟨callback, bpm⟩ := Prod.mk.inj same
          apply differs
          rw [delivered.1, delivered.2, callback, bpm]
          simp
      first := by rintro _ ⟨⟩ }
  kept :=
    { h.kept with
      known := fun c unknown => { h.kept.known c unknown with }
      registering := fun c mine =>
        ⟨(h.kept.registering c mine).1, { (h.kept.registering c mine).2 with }⟩ }

theorem Coherent.dispatch {place : TempoAt Callback Bpm} (h : s.Coherent (some place))
    (contended : Bool) :
    Coherent (s.dispatch contended place).1 (s.dispatch contended place).2 := by
  unfold TempoNotifications.dispatch
  cases place with
  | installing requested =>
    dsimp only
    split
    · exact h.giveUp rfl rfl
    next free =>
      have free : s.registering = none := by
        cases mine : s.registering with
        | none => rfl
        | some callback => exact absurd (by rw [mine]; rfl) free
      cases installed : s.registration.or s.callback with
      | none =>
        have same : s.callback = none := (Option.or_eq_none_iff.mp installed).2
        dsimp only
        rw [← same]
        exact h.giveUp rfl rfl
      | some callback => exact h.install free installed
  | locking requested initial callback =>
    dsimp only
    split
    · exact h.giveUp rfl rfl
    · refine h.moved (fun _ found => found) ?_ (by rintro _ ⟨⟩) (by rintro _ ⟨⟩) rfl rfl
      cases initial <;> exact fun _ found => found
  | reading requested initial callback =>
    dsimp only
    split
    · exact h.giveUp rfl rfl
    · cases current : s.tempos.getLast? with
      | none => exact h.giveUp rfl rfl
      | some bpm => exact h.read current
  | comparing requested initial next =>
    dsimp only
    split
    · exact h.giveUp rfl rfl
    next passes =>
      rw [Bool.or_eq_true, not_or] at passes
      exact h.compare passes.1
  | admitted next => exact h.deliver
  | calling next =>
    exact h.moved (fun _ found => found) (by rintro _ ⟨⟩) (by rintro _ ⟨⟩) (by rintro _ ⟨⟩) rfl rfl
  | storing next => exact h.store
  | clearing callback =>
    dsimp only
    split
    next done =>
      rw [Bool.and_eq_true] at done
      exact h.clear (of_decide_eq_true done.2)
    next stays =>
      refine h.leave fun pending mine => stays ?_
      rw [mine, pending]
      simp

theorem keeps : Serialised.Keeps critical (@Coherent Callback Bpm) Fresh where
  outside _ _ change h fresh := h.change change fresh
  enter _ _ h := h.moved (by rintro _ ⟨⟩) (by rintro _ ⟨⟩) (by rintro _ ⟨⟩) (by rintro _ ⟨⟩) rfl rfl
  act _ contended _ h := h.dispatch contended

omit [DecidableEq Callback] [DecidableEq Bpm] in
theorem coherent_initial (bpm : Bpm) :
    (initial bpm : TempoNotifications Callback Bpm).Coherent none where
  order :=
    { nonempty := List.cons_ne_nil bpm []
      read := by rintro _ ⟨⟩
      order := .nil
      upcoming := by rintro _ ⟨⟩ }
  distinct :=
    { chain := .nil
      last := rfl
      passed := by rintro _ ⟨⟩
      first := by rintro _ ⟨⟩ }
  kept :=
    { pending := by rintro _ ⟨⟩
      served := by rintro _ ⟨⟩
      latest := by rintro _ ⟨⟩
      known := by
        refine fun c _ => ⟨?_, ?_, ?_, ?_⟩
        · rintro ⟨_, ⟨⟩, _⟩
        · rintro ⟨⟩
        · rintro ⟨⟩
        · rintro ⟨⟩
      registering := by rintro _ ⟨⟩ }

/-- After the end of the controller only the notification that had passed the check goes out. -/
structure Ending (notified : List (Notification Callback Bpm))
    (passed : Option (Notification Callback Bpm)) (s : TempoNotifications Callback Bpm)
    (place : Option (TempoAt Callback Bpm)) : Prop where
  closed : s.closed = true
  notified : (s.notified = notified ∧
      ∀ n, place.bind TempoAt.passed = some n → passed = some n) ∨
    ∃ n, passed = some n ∧ s.notified = notified ++ [n] ∧ place.bind TempoAt.passed = none

section Ending

variable {notified : List (Notification Callback Bpm)} {passed : Option (Notification Callback Bpm)}

omit [DecidableEq Callback] [DecidableEq Bpm] in
theorem Ending.moved {s' : TempoNotifications Callback Bpm} (h : Ending notified passed s place)
    (closed : s'.closed = s.closed) (same : s'.notified = s.notified)
    (stays : place'.bind TempoAt.passed = none) : Ending notified passed s' place' where
  closed := by rw [closed, h.closed]
  notified := by
    rw [same, stays]
    rcases h.notified with ⟨none, -⟩ | ⟨n, gone, one, -⟩
    · exact .inl ⟨none, by rintro _ ⟨⟩⟩
    · exact .inr ⟨n, gone, one, rfl⟩

theorem Ending.dispatch {place : TempoAt Callback Bpm} (h : Ending notified passed s (some place))
    (contended : Bool) :
    Ending notified passed (s.dispatch contended place).1 (s.dispatch contended place).2 := by
  unfold TempoNotifications.dispatch
  cases place with
  | installing requested =>
    dsimp only
    split
    · exact h.moved rfl rfl rfl
    · cases s.registration.or s.callback with
      | none => exact h.moved rfl rfl rfl
      | some callback => exact h.moved rfl rfl rfl
  | locking requested initial callback =>
    dsimp only
    split <;> exact h.moved rfl rfl rfl
  | reading requested initial callback =>
    dsimp only
    split
    · exact h.moved rfl rfl rfl
    · cases s.tempos.getLast? <;> exact h.moved rfl rfl rfl
  | comparing requested initial next =>
    dsimp only
    rw [h.closed, Bool.or_true, if_pos rfl]
    exact h.moved rfl rfl rfl
  | admitted next =>
    refine ⟨h.closed, ?_⟩
    rcases h.notified with ⟨none, mine⟩ | ⟨n, -, -, gone⟩
    · refine .inr ⟨next, mine next rfl, ?_, rfl⟩
      rw [none]
    · cases gone
  | calling next => exact h.moved rfl rfl rfl
  | storing next => exact h.moved rfl rfl rfl
  | clearing callback =>
    dsimp only
    split <;> exact h.moved rfl rfl rfl

omit [DecidableEq Callback] [DecidableEq Bpm] in
theorem Ending.change (h : Ending notified passed s place) (change : TempoChange Callback Bpm) :
    Ending notified passed (s.change change) place := by
  cases change with
  | lock callback =>
    unfold TempoNotifications.change
    cases s.registering <;> exact ⟨h.closed, h.notified⟩
  | register =>
    unfold TempoNotifications.change
    cases s.registering <;> exact ⟨h.closed, h.notified⟩
  | assign callback => exact ⟨h.closed, h.notified⟩
  | retime bpm => exact ⟨h.closed, h.notified⟩
  | close => exact ⟨rfl, h.notified⟩

theorem ending_keeps :
    Serialised.Keeps critical (Ending notified passed) fun _ _ => True where
  outside _ _ change h _ := h.change change
  enter _ _ h := h.moved rfl rfl rfl
  act _ contended _ h := h.dispatch contended

end Ending

section Alone

def repeated (s : TempoNotifications Callback Bpm) (requested pending : Bool)
    (next : Notification Callback Bpm) : Bool :=
  !(pending || requested && s.delivered.1.isNone) &&
    s.delivered.1.all (· = next.callback) && s.delivered.2 = next.bpm.value

def compared (s : TempoNotifications Callback Bpm) (requested pending : Bool)
    (next : Notification Callback Bpm) : TempoNotifications Callback Bpm :=
  if s.repeated requested pending next then s
  else
    { s with
      notified := s.notified ++ [next]
      delivered := (some next.callback, next.bpm.value)
      registration := if s.registration = some next.callback then none else s.registration }

@[simp] theorem compared_tempos (s : TempoNotifications Callback Bpm) (requested pending : Bool)
    (next : Notification Callback Bpm) :
    (s.compared requested pending next).tempos = s.tempos := by
  unfold compared
  split <;> rfl

@[simp] theorem compared_callback (s : TempoNotifications Callback Bpm) (requested pending : Bool)
    (next : Notification Callback Bpm) :
    (s.compared requested pending next).callback = s.callback := by
  unfold compared
  split <;> rfl

theorem alone_comparing (s : TempoNotifications Callback Bpm) (requested pending : Bool)
    (next : Notification Callback Bpm) (closed : s.closed = false)
    (free : s.registering = none) :
    Serialised.alone critical false 5 s (some (.comparing requested pending next)) =
      (s.compared requested pending next, none) := by
  have first : critical.act s false (.comparing requested pending next) =
      if s.repeated requested pending next then (s, none) else (s, some (.admitted next)) := by
    show (if s.repeated requested pending next || s.closed then (s, none)
      else (s, some (TempoAt.admitted next))) = _
    rw [closed, Bool.or_false]
  have last : critical.act
      { s with
        notified := s.notified ++ [next], delivered := (some next.callback, next.bpm.value) }
      false (.clearing next.callback) =
      ({ s with
        notified := s.notified ++ [next]
        delivered := (some next.callback, next.bpm.value)
        registration := if s.registration = some next.callback then none else s.registration },
      none) := by
    show (if s.registering.isNone && s.registration = some next.callback then _ else _) = _
    rw [free]
    by_cases mine : s.registration = some next.callback
    · simp [mine]
    · simp [mine]
  unfold compared
  by_cases same : s.repeated requested pending next = true
  · rw [if_pos same] at first
    rw [if_pos same, Serialised.alone_act first]
    rfl
  · rw [if_neg same] at first
    rw [if_neg same, Serialised.alone_act first]
    exact (Serialised.alone_act last 0).trans rfl

theorem alone_installing (s : TempoNotifications Callback Bpm) (requested : Bool)
    (free : s.registering = none) {callback : Callback} {bpm : Bpm}
    (installed : s.registration.or s.callback = some callback)
    (current : s.tempos.getLast? = some bpm) :
    Serialised.alone critical false 8 s (some (.installing requested)) =
      Serialised.alone critical false 5 { s with callback := some callback }
        (some (.comparing requested s.registration.isSome
          ⟨callback, s.tempos.length - 1, bpm⟩)) := by
  have first : critical.act s false (.installing requested) =
      ({ s with callback := some callback },
        some (.locking requested s.registration.isSome callback)) := by
    show dispatch s false (.installing requested) = _
    simp only [dispatch, free, installed]
    rfl
  have read : critical.act { s with callback := some callback } false
      (.reading requested s.registration.isSome callback) =
      ({ s with callback := some callback },
        some (.comparing requested s.registration.isSome
          ⟨callback, s.tempos.length - 1, bpm⟩)) := by
    show dispatch _ false (.reading requested _ callback) = _
    simp only [dispatch, current]
    rfl
  have lock : critical.act { s with callback := some callback } false
      (.locking requested s.registration.isSome callback) =
      ({ s with callback := some callback },
        some (.reading requested s.registration.isSome callback)) := rfl
  rw [Serialised.alone_act first, Serialised.alone_act lock, Serialised.alone_act read]

theorem alone_absent (s : TempoNotifications Callback Bpm) (requested : Bool)
    (free : s.registering = none) (absent : s.registration.or s.callback = none) :
    Serialised.alone critical false 8 s (some (.installing requested)) = (s, none) := by
  have first : critical.act s false (.installing requested) =
      ({ s with callback := none }, none) := by
    show dispatch s false (.installing requested) = _
    simp only [dispatch, free, absent]
    rfl
  have same : { s with callback := none } = s := by
    rw [← (Option.or_eq_none_iff.mp absent).2]
  rw [Serialised.alone_act first, same]
  rfl

end Alone

section Runs

variable [DecidableEq Call]

abbrev System (Callback : Type u) (Bpm : Type v) (Call : Type w) :=
  Serialised (TempoNotifications Callback Bpm) Call Bool (TempoAt Callback Bpm)

abbrev Op (Callback : Type u) (Bpm : Type v) (Call : Type w) :=
  SerialOp (TempoChange Callback Bpm) Call Bool Bool

def runFrom (s : System Callback Bpm Call) (ops : List (Op Callback Bpm Call)) :
    System Callback Bpm Call :=
  Run.run (Serialised.step critical) s ops

def start (bpm : Bpm) : System Callback Bpm Call := Serialised.initial (initial bpm)

abbrev FreshAlong (bpm : Bpm) (ops : List (Op Callback Bpm Call)) : Prop :=
  Run.Along (Serialised.step critical) (Serialised.Admits Fresh) (start bpm) ops

theorem coherent_run {bpm : Bpm} {ops : List (Op Callback Bpm Call)} (fresh : FreshAlong bpm ops) :
    (runFrom (start bpm) ops).Exclusive ∧
      (runFrom (start bpm) ops).data.Coherent (runFrom (start bpm) ops).place :=
  keeps.run (Serialised.exclusive_initial _) (coherent_initial bpm) fresh

/-- In every run: one callback at most is in progress, tempos are delivered in the order the client
had them, no notification repeats the one before, and the last registration is pending until its
callback was called. -/
theorem notifications_faithful {bpm : Bpm} {ops : List (Op Callback Bpm Call)}
    (fresh : FreshAlong bpm ops) :
    let s := runFrom (start bpm) ops
    (∀ call call' next next', s.calls call = .holding (.calling next) →
      s.calls call' = .holding (.calling next') → call = call') ∧
    (∀ n ∈ s.data.notified, s.data.tempos[n.bpm.serial]? = some n.bpm.value) ∧
    (s.data.notified.Pairwise fun n n' => n.bpm.serial ≤ n'.bpm.serial) ∧
    (s.data.notified.IsChain fun n n' => n.seen ≠ n'.seen) ∧
    ∀ callback, s.data.registered.getLast? = some callback →
      s.data.registration = some callback ∨ s.data.Told callback := by
  intro s
  obtain ⟨exclusive, coherent⟩ := coherent_run fresh
  exact ⟨fun _ _ _ _ here there => exclusive.unique here there, coherent.order.read,
    coherent.order.order, coherent.distinct.chain, coherent.kept.latest⟩

theorem notifications_faithful_retimed :
    let ops : List (Op ℕ ℕ (Fin 1)) :=
      [.outside (.lock 7), .outside .register, .call 0 true] ++
        List.replicate 9 (.step 0 false) ++ [.outside (.retime 125), .call 0 false] ++
        List.replicate 9 (.step 0 false)
    let s := runFrom (start 120) ops
    s.data.notified.map Notification.seen = [(7, 120), (7, 125)] ∧
      (s.data.notified.IsChain fun n n' => n.seen ≠ n'.seen) ∧
      (s.data.registration = some 7 ∨ s.data.Told 7) := by
  intro ops s
  have fresh : FreshAlong 120 ops := by decide
  have faithful := notifications_faithful fresh
  exact ⟨by decide, faithful.2.2.2.1, faithful.2.2.2.2 7 (by decide)⟩

/-- Once the controller is closed, one notification at most goes out in any further run: that of
the dispatch which had seen it open. -/
theorem closed_silences {bpm : Bpm} {before : List (Op Callback Bpm Call)}
    (fresh : FreshAlong bpm before) (after : List (Op Callback Bpm Call)) :
    let s := runFrom (start bpm) before
    let s' := runFrom s after
    s.data.closed = true → s'.data.notified = s.data.notified ∨
      ∃ n, s.place = some (.admitted n) ∧ s'.data.notified = s.data.notified ++ [n] := by
  intro s s' closed
  obtain ⟨exclusive, -⟩ := coherent_run fresh
  have ending : Ending s.data.notified (s.place.bind TempoAt.passed) s.data s.place :=
    ⟨closed, .inl ⟨rfl, fun _ found => found⟩⟩
  have admitted : Run.Along (Serialised.step critical)
      (Serialised.Admits fun _ _ => True) s after :=
    Run.along_of_forall (fun _ op => by cases op <;> trivial) s after
  obtain ⟨-, ended⟩ := ending_keeps.run exclusive ending admitted
  rcases ended.notified with ⟨same, -⟩ | ⟨n, passed, one, -⟩
  · exact .inl same
  · refine .inr ⟨n, ?_, one⟩
    cases here : s.place with
    | none =>
      rw [here] at passed
      cases passed
    | some place =>
      rw [here] at passed
      cases place <;> cases passed
      rfl

theorem closed_silences_admitted :
    let before : List (Op ℕ ℕ (Fin 2)) :=
      [.outside (.lock 7), .outside .register, .call 0 true] ++
        List.replicate 5 (.step 0 false) ++ [.outside .close]
    let after : List (Op ℕ ℕ (Fin 2)) :=
      List.replicate 4 (.step 0 false) ++ [.outside (.retime 125), .call 1 true]
    let s := runFrom (start 120) before
    let s' := runFrom s after
    s'.data.notified.length = 1 ∧ (s'.data.notified = s.data.notified ∨
      ∃ n, s.place = some (.admitted n) ∧ s'.data.notified = s.data.notified ++ [n]) := by
  intro before after s s'
  have fresh : FreshAlong 120 before := by decide
  have closed : s.data.closed = true := by decide
  have silences := closed_silences fresh after closed
  have one : s'.data.notified.length = 1 := by decide +kernel
  exact ⟨one, silences⟩

structure Settled (s : TempoNotifications Callback Bpm) (requested : Bool) : Prop where
  cleared : s.registration = none
  told : ∀ callback, s.callback = some callback →
    (∃ n, s.notified.getLast? = some n ∧ n.callback = callback ∧
      s.tempos.getLast? = some n.bpm.value) ∨
    (s.notified = [] ∧ requested = false ∧ s.tempos.getLast? = some s.delivered.2)

theorem Coherent.settled (h : s.Coherent none) (requested : Bool) {callback : Callback} {bpm : Bpm}
    (installed : s.registration.or s.callback = some callback)
    (current : s.tempos.getLast? = some bpm) :
    Settled (compared { s with callback := some callback } requested s.registration.isSome
      ⟨callback, s.tempos.length - 1, bpm⟩) requested := by
  have stored := h.distinct.last
  unfold compared
  split
  next repeated =>
    simp only [TempoNotifications.repeated, Bool.and_eq_true, Bool.not_eq_true',
      Bool.or_eq_false_iff] at repeated
    obtain ⟨⟨⟨known, quiet⟩, same⟩, value⟩ := repeated
    have value : s.delivered.2 = bpm := of_decide_eq_true value
    refine ⟨by simpa using known, ?_⟩
    rintro c ⟨⟩
    cases told : s.delivered.1 with
    | none =>
      rw [told] at stored quiet
      refine .inr ⟨?_, by simpa using quiet, ?_⟩
      · simpa using stored
      · rw [value]
        exact current
    | some last =>
      rw [told] at stored same
      obtain ⟨n, found, seen⟩ := Option.map_eq_some_iff.mp stored
      obtain ⟨who, what⟩ := Prod.mk.inj seen
      refine .inl ⟨n, found, who.trans (of_decide_eq_true same), ?_⟩
      rw [what, value]
      exact current
  next =>
    constructor
    · dsimp only
      split
      · rfl
      next other =>
        cases pending : s.registration with
        | none => rfl
        | some registered =>
          rw [pending] at installed other
          exact absurd installed other
    · rintro c ⟨⟩
      exact .inl ⟨_, List.getLast?_concat, rfl, current⟩

/-- Whatever was lost or refused before, a dispatch that nothing disturbs tells the callback that is
registered or installed the current tempo. -/
theorem undisturbed_settles {bpm : Bpm} {ops : List (Op Callback Bpm Call)}
    (fresh : FreshAlong bpm ops) (call : Call) (requested : Bool) :
    let s := runFrom (start bpm) ops
    let s' := runFrom s (.call call requested :: List.replicate 9 (.step call false))
    s.holder = none → s.calls call = .idle → s.data.closed = false →
      s.data.registering = none →
      s'.holder = none ∧ s'.data.Settled requested ∧ s'.data.tempos = s.data.tempos ∧
        s'.data.callback = s.data.registration.or s.data.callback := by
  intro s s' holder idle closed free
  obtain ⟨-, coherent⟩ := coherent_run fresh
  have place : s.place = none := Serialised.place_eq_none holder
  rw [place] at coherent
  cases installed : s.data.registration.or s.data.callback with
  | none =>
    obtain ⟨data, left⟩ := Serialised.run_alone false 8 requested holder idle
      (alone_absent s.data requested free installed)
    obtain ⟨cleared, absent⟩ := Option.or_eq_none_iff.mp installed
    refine ⟨left, ?_, congrArg tempos data, (congrArg callback data).trans absent⟩
    have settled : s.data.Settled requested := by
      refine ⟨cleared, fun c found => ?_⟩
      rw [absent] at found
      cases found
    rwa [← data] at settled
  | some c =>
    obtain ⟨bpm, current⟩ := Option.ne_none_iff_exists'.mp
      (mt List.getLast?_eq_none_iff.mp coherent.order.nonempty)
    have installs := alone_installing s.data requested free installed current
    have compares := alone_comparing { s.data with callback := some c } requested
      s.data.registration.isSome ⟨c, s.data.tempos.length - 1, bpm⟩ closed free
    obtain ⟨data, left⟩ := Serialised.run_alone false 8 requested holder idle
      (installs.trans compares)
    have settled := coherent.settled requested installed current
    refine ⟨left, ?_, (congrArg tempos data).trans (compared_tempos ..),
      (congrArg callback data).trans (compared_callback ..)⟩
    rwa [← data] at settled

theorem undisturbed_settles_refused :
    let ops : List (Op ℕ ℕ (Fin 2)) :=
      [.outside (.lock 7), .outside .register, .call 0 true, .step 0 false, .step 0 true,
        .outside (.retime 125)]
    let s := runFrom (start 120) ops
    let s' := runFrom s (.call 1 false :: List.replicate 9 (.step 1 false))
    s.data.notified = [] ∧ s'.data.notified.map Notification.seen = [(7, 125)] ∧
      s'.data.Settled false := by
  intro ops s s'
  have fresh : FreshAlong 120 ops := by decide
  have settles := undisturbed_settles fresh 1 false (by decide) (by decide) (by decide) (by decide)
  exact ⟨by decide, by decide, settles.2.1⟩

end Runs

end TempoNotifications

end AbletonLink.Link
