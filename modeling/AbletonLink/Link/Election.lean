import AbletonLink.Link.MeasurementTurns
import AbletonLink.Link.WireIds

/-! Which session becomes current when each session is always measured with one transform. -/

namespace AbletonLink.Link

open Library Library.Run

/-- The measurements of a coordinator: `pending` are the results whose join waits for capacity,
`measured` the keys of the results that were handled to their end. -/
structure Election where
  sessions : Sessions
  pending : List Decision
  measured : List SessionKey

inductive ElectionOp
  | decide (key : SessionKey) (timestamp now : Duration)
  | commit (index : Nat) (now : Duration)

def ElectionOp.readings : ElectionOp → List Duration
  | .decide _ timestamp now => [timestamp, now]
  | .commit _ now => [now]

namespace Election

variable (transforms : SessionId → GhostXForm)

def start (sessions : Sessions) : Election := { sessions, pending := [], measured := [] }

def step (e : Election) : ElectionOp → Election
  | .decide key timestamp now =>
    match e.sessions.decideMeasurement key (transforms key.sessionId) timestamp now with
    | (some decision, sessions) => { e with sessions, pending := e.pending ++ [decision] }
    | (none, sessions) => { e with sessions, measured := e.measured ++ [key] }
  | .commit index now =>
    match e.pending[index]? with
    | some decision =>
      { sessions := (e.sessions.commitMeasurement decision now).2
        pending := e.pending.eraseIdx index
        measured := e.measured ++ [decision.key] }
    | none => e

def ghostNanos (id : SessionId) (now : Duration) : Int :=
  ((transforms id).hostToGhost now).nanos

def Older (readings : List Duration) (a b : SessionId) : Prop :=
  a = b ∨ ∀ now ∈ readings, 500000000 < ghostNanos transforms a now - ghostNanos transforms b now

def Smaller (a b : SessionId) : Prop := b.node.lt a.node = false

/-- What decides between two of the sessions: the candidate that displaces the current session
leads it, and it is led by the current session that it does not displace. -/
structure Decides (leads : SessionId → SessionId → Prop) (ids : List SessionId)
    (readings : List Duration) : Prop where
  refl : ∀ a, leads a a
  trans : ∀ a b c, leads a b → leads b c → leads a c
  wins : ∀ (current : Session) (candidate : SessionId) (measurement : SessionMeasurement),
    current.sessionId ∈ ids → candidate ∈ ids →
    current.measurement.xForm = transforms current.sessionId →
    measurement.xForm = transforms candidate → ∀ now ∈ readings,
    if measurementWins current candidate measurement now then leads candidate current.sessionId
    else leads current.sessionId candidate

structure Led (leads : SessionId → SessionId → Prop) (first : Sessions)
    (readings : List Duration) (e : Election) : Prop where
  transform : e.sessions.current.measurement.xForm = transforms e.sessions.current.sessionId
  sameKeys : ∀ key, key ∈ e.sessions.keys ↔ key ∈ first.keys
  leadsFirst : leads e.sessions.current.sessionId first.current.sessionId
  recent : ∀ x ∈ e.sessions.others, leads e.sessions.current.sessionId x.sessionId ∨
    ∀ now ∈ readings, x.measurement.timestamp ≤ now
  measured : ∀ key ∈ first.keys, key ∈ e.measured → leads e.sessions.current.sessionId key.sessionId
  pending : ∀ d ∈ e.pending, d.measurement.xForm = transforms d.key.sessionId ∧
    d.measurement.timestamp ∈ readings ∧
    (d.wasCurrent = true → leads e.sessions.current.sessionId d.key.sessionId)

theorem measurementWins_iff {current : Session} {candidate : SessionId}
    {measurement : SessionMeasurement} {now : Duration} :
    measurementWins current candidate measurement now = true ↔
      500000000 < (measurement.xForm.hostToGhost now).nanos -
          (current.measurement.xForm.hostToGhost now).nanos ∨
        |(measurement.xForm.hostToGhost now).nanos -
            (current.measurement.xForm.hostToGhost now).nanos| < 500000000 ∧
          candidate.node.lt current.sessionId.node = true := by
  have close (diff : Int) : diff.natAbs < (500000000 : Int).natAbs ↔ |diff| < 500000000 := by
    rw [Int.abs_eq_natAbs]
    exact Int.ofNat_lt.symm
  simp only [measurementWins, Bool.or_eq_true, Bool.and_eq_true, decide_eq_true_eq, gt_iff_lt,
    close]

theorem displaces_asymm {a b : Session} {now : Duration}
    (displaced : measurementWins a b.sessionId b.measurement now = true) :
    measurementWins b a.sessionId a.measurement now = false := by
  refine Bool.eq_false_iff.mpr fun back => ?_
  obtain above | ⟨close, less⟩ := measurementWins_iff.mp displaced <;>
    obtain below | ⟨within, more⟩ := measurementWins_iff.mp back
  · omega
  · have := abs_lt.mp within
    omega
  · have := abs_lt.mp close
    omega
  · exact Bool.eq_false_iff.mp (NodeId.lt_asymm less) more

section Led

variable {transforms} {leads : SessionId → SessionId → Prop} {first : Sessions}
  {readings : List Duration} {e : Election}

theorem keys_found {s : Sessions} {key : SessionKey} (member : key ∈ s.keys)
    (other : key.matches s.current = false) : ∃ x, s.others.find? key.matches = some x := by
  cases List.mem_cons.mp member with
  | inl own => rw [SessionKey.matches_iff.mpr own] at other; cases other
  | inr candidate =>
    obtain ⟨x, inside, rfl⟩ := List.mem_map.mp candidate
    exact Option.isSome_iff_exists.mp
      (List.find?_isSome.mpr ⟨x, inside, SessionKey.matches_iff.mpr rfl⟩)

theorem keys_remeasured {s : Sessions} {key : SessionKey} {x : Session}
    (found : s.others.find? key.matches = some x) (measurement : SessionMeasurement) :
    Sessions.keys { s with others := replaceFirst key.matches { x with measurement } s.others } =
      s.keys :=
  congrArg (s.current.key :: ·) (map_replaceFirst found rfl)

theorem Led.ids_mem (h : e.Led transforms leads first readings) {key : SessionKey}
    (member : key ∈ e.sessions.keys) : key.sessionId ∈ first.wireIds :=
  first.wireIds_eq ▸ List.mem_map_of_mem ((h.sameKeys key).mp member)

theorem Led.of_change (h : e.Led transforms leads first readings)
    (decides : Decides transforms leads first.wireIds readings) {e' : Election}
    (same : ∀ key, key ∈ e'.sessions.keys ↔ key ∈ e.sessions.keys)
    (transform : e'.sessions.current.measurement.xForm = transforms e'.sessions.current.sessionId)
    (passes : leads e'.sessions.current.sessionId e.sessions.current.sessionId)
    (recent : ∀ x ∈ e'.sessions.others, x ∈ e.sessions.others ∨
      leads e'.sessions.current.sessionId x.sessionId)
    (measured : ∀ key ∈ first.keys, key ∈ e'.measured → key ∈ e.measured ∨
      leads e'.sessions.current.sessionId key.sessionId)
    (pending : ∀ d ∈ e'.pending, d ∈ e.pending ∨
      d.measurement.xForm = transforms d.key.sessionId ∧ d.measurement.timestamp ∈ readings ∧
      (d.wasCurrent = true → leads e'.sessions.current.sessionId d.key.sessionId)) :
    e'.Led transforms leads first readings := by
  have chain {id : SessionId} (led : leads e.sessions.current.sessionId id) :
      leads e'.sessions.current.sessionId id := decides.trans _ _ _ passes led
  refine ⟨transform, fun key => (same key).trans (h.sameKeys key), chain h.leadsFirst, ?_, ?_, ?_⟩
  · intro x inside
    obtain old | led := recent x inside
    · exact (h.recent x old).imp_left chain
    · exact .inl led
  · intro key member done
    obtain old | led := measured key member done
    · exact chain (h.measured key member old)
    · exact led
  · intro d inside
    obtain old | new := pending d inside
    · obtain ⟨form, read, led⟩ := h.pending d old
      exact ⟨form, read, fun own => chain (led own)⟩
    · exact new

variable (h : e.Led transforms leads first readings)
  (decides : Decides transforms leads first.wireIds readings)

include h decides

theorem Led.done {key : SessionKey}
    (led : key ∈ first.keys → leads e.sessions.current.sessionId key.sessionId) :
    Led transforms leads first readings { e with measured := e.measured ++ [key] } := by
  refine h.of_change decides (fun _ => Iff.rfl) h.transform (decides.refl _)
    (fun x inside => .inl inside) ?_ fun d inside => .inl inside
  intro other member done
  cases List.mem_append.mp done with
  | inl old => exact .inl old
  | inr new =>
    obtain rfl := List.mem_singleton.mp new
    exact .inr (led member)

theorem Led.compare {key : SessionKey} {x : Session}
    (found : e.sessions.others.find? key.matches = some x) {measurement : SessionMeasurement}
    (form : measurement.xForm = transforms key.sessionId) {now : Duration} (read : now ∈ readings) :
    if measurementWins e.sessions.current key.sessionId measurement now then
      leads key.sessionId e.sessions.current.sessionId
    else leads e.sessions.current.sessionId key.sessionId := by
  have candidate : key ∈ e.sessions.keys := by
    rw [SessionKey.matches_iff.mp (List.find?_some found)]
    exact List.mem_cons_of_mem _ (List.mem_map_of_mem (List.mem_of_find?_eq_some found))
  exact decides.wins e.sessions.current key.sessionId measurement
    (h.ids_mem (List.mem_cons_self ..)) (h.ids_mem candidate) h.transform form now read

theorem Led.remeasured {key : SessionKey} {x : Session}
    (found : e.sessions.others.find? key.matches = some x) (measurement : SessionMeasurement)
    (led : leads e.sessions.current.sessionId key.sessionId) :
    Led transforms leads first readings
      { e with
        sessions := { e.sessions with
          others := replaceFirst key.matches { x with measurement } e.sessions.others } } := by
  have own := SessionKey.matches_iff.mp (List.find?_some found)
  refine h.of_change decides (fun other => by rw [keys_remeasured found]) h.transform
    (decides.refl _) ?_ (fun _ _ done => .inl done) fun d inside => .inl inside
  intro y inside
  obtain rfl | old := mem_replaceFirst found inside
  · rw [own] at led
    exact .inr led
  · exact .inl old

theorem Led.decide {key : SessionKey} {timestamp now : Duration} (made : timestamp ∈ readings)
    (read : now ∈ readings) :
    (e.step transforms (.decide key timestamp now)).Led transforms leads first readings := by
  have waits (wasCurrent : Bool)
      (led : wasCurrent = true → leads e.sessions.current.sessionId key.sessionId) :
      Led transforms leads first readings
        { e with
          pending := e.pending ++ [⟨key, ⟨transforms key.sessionId, timestamp⟩, wasCurrent⟩] } := by
    refine h.of_change decides (fun _ => Iff.rfl) h.transform (decides.refl _)
      (fun x inside => .inl inside) (fun _ _ done => .inl done) ?_
    intro d inside
    cases List.mem_append.mp inside with
    | inl old => exact .inl old
    | inr new =>
      obtain rfl := List.mem_singleton.mp new
      exact .inr ⟨rfl, made, led⟩
  unfold step Sessions.decideMeasurement
  dsimp only
  cases own : key.matches e.sessions.current with
  | true =>
    rw [if_pos rfl]
    refine waits true fun _ => ?_
    rw [SessionKey.matches_iff.mp own]
    exact decides.refl _
  | false =>
    rw [if_neg (by simp)]
    cases found : e.sessions.others.find? key.matches with
    | none =>
      refine h.done decides fun member => ?_
      obtain ⟨x, some⟩ := keys_found ((h.sameKeys key).mpr member) own
      rw [found] at some
      cases some
    | some x =>
      have inside := List.mem_of_find?_eq_some found
      have same := SessionKey.matches_iff.mp (List.find?_some found)
      have compare := h.compare decides found
        (show SessionMeasurement.xForm ⟨transforms key.sessionId, timestamp⟩ = _ from rfl) read
      dsimp only
      by_cases newer : x.measurement.timestamp > timestamp
      · rw [if_pos newer]
        refine h.done decides fun _ => ?_
        obtain led | past := h.recent x inside
        · rw [same]
          exact led
        · exact absurd (past timestamp made) (Int.not_le.mpr newer)
      · rw [if_neg newer]
        cases wins : measurementWins e.sessions.current key.sessionId
            ⟨transforms key.sessionId, timestamp⟩ now with
        | false =>
          rw [wins, if_neg (by simp)] at compare
          rw [if_pos (by simp)]
          exact (h.remeasured decides found _ compare).done decides fun _ => compare
        | true =>
          rw [if_neg (by simp)]
          exact waits false fun no => nomatch no

theorem Led.promoted {d : Decision} {x : Session}
    (found : e.sessions.others.find? d.key.matches = some x)
    (form : d.measurement.xForm = transforms d.key.sessionId)
    (led : leads d.key.sessionId e.sessions.current.sessionId) (revision : Option Nat)
    (supply : Supply) :
    Led transforms leads first readings
      { e with
        sessions := { e.sessions with
          current := { x with measurement := d.measurement, editRevision := revision }
          others := replaceFirst d.key.matches e.sessions.current e.sessions.others
          supply } } := by
  have own := SessionKey.matches_iff.mp (List.find?_some found)
  have id : d.key.sessionId = x.sessionId := congrArg SessionKey.sessionId own
  rw [id] at form led
  obtain ⟨-, before, after, split, -, replaced⟩ := find?_split found
  refine h.of_change decides (fun key => ?_) form led ?_ (fun _ _ done => .inl done)
    fun d inside => .inl inside
  · show key ∈ x.key :: (replaceFirst d.key.matches e.sessions.current _).map Session.key ↔ _
    unfold Sessions.keys Sessions.known
    rw [replaced, split]
    simp only [List.map_append, List.map_cons, List.mem_cons, List.mem_append]
    tauto
  · intro y inside
    obtain rfl | old := mem_replaceFirst found inside
    · exact .inr led
    · exact .inl old

theorem Led.committed {d : Decision} {now : Duration} (read : now ∈ readings)
    (form : d.measurement.xForm = transforms d.key.sessionId)
    (made : d.measurement.timestamp ∈ readings)
    (led : d.wasCurrent = true → leads e.sessions.current.sessionId d.key.sessionId) :
    Led transforms leads first readings
        { e with sessions := (e.sessions.commitMeasurement d now).2 } ∧
      (d.key ∈ first.keys →
        leads (e.sessions.commitMeasurement d now).2.current.sessionId d.key.sessionId) := by
  unfold Sessions.commitMeasurement
  dsimp only
  cases own : d.key.matches e.sessions.current with
  | true =>
    have id : d.key.sessionId = e.sessions.current.sessionId :=
      congrArg SessionKey.sessionId (SessionKey.matches_iff.mp own)
    rw [if_neg (by simp), if_pos rfl]
    by_cases newer : e.sessions.current.measurement.timestamp > d.measurement.timestamp
    · rw [if_pos newer]
      exact ⟨h, fun _ => id ▸ decides.refl _⟩
    · rw [if_neg newer]
      rw [id] at form
      have remeasured (revision : Option Nat) (supply : Supply) :
          Led transforms leads first readings
            { e with
              sessions := { e.sessions with
                current := { e.sessions.current with
                  measurement := d.measurement, editRevision := revision }
                supply } } :=
        h.of_change decides (fun _ => Iff.rfl) form (decides.refl _) (fun x inside => .inl inside)
          (fun _ _ done => .inl done) fun d inside => .inl inside
      dsimp only
      split <;> exact ⟨remeasured _ _, fun _ => id ▸ decides.refl _⟩
  | false =>
    cases was : d.wasCurrent with
    | true => exact ⟨h, fun _ => led was⟩
    | false =>
      rw [if_neg (by simp), if_neg (by simp)]
      cases found : e.sessions.others.find? d.key.matches with
      | none =>
        refine ⟨h, fun member => ?_⟩
        obtain ⟨x, some⟩ := keys_found ((h.sameKeys d.key).mpr member) own
        rw [found] at some
        cases some
      | some x =>
        have inside := List.mem_of_find?_eq_some found
        have same := SessionKey.matches_iff.mp (List.find?_some found)
        have compare := h.compare decides found form read
        dsimp only
        by_cases newer : x.measurement.timestamp > d.measurement.timestamp
        · rw [if_pos newer]
          refine ⟨h, fun _ => ?_⟩
          obtain led | past := h.recent x inside
          · rw [same]
            exact led
          · exact absurd (past _ made) (Int.not_le.mpr newer)
        · rw [if_neg newer]
          cases wins : measurementWins e.sessions.current d.key.sessionId d.measurement now with
          | true =>
            rw [wins, if_pos rfl] at compare
            exact ⟨h.promoted decides found form compare _ _, fun _ => same ▸ decides.refl _⟩
          | false =>
            rw [wins, if_neg (by simp)] at compare
            rw [if_neg (by simp)]
            exact ⟨h.remeasured decides found _ compare, fun _ => compare⟩

theorem Led.step (op : ElectionOp) (read : ∀ now ∈ op.readings, now ∈ readings) :
    (e.step transforms op).Led transforms leads first readings := by
  cases op with
  | decide key timestamp now =>
    exact h.decide decides (read timestamp (by simp [ElectionOp.readings]))
      (read now (by simp [ElectionOp.readings]))
  | commit index now =>
    unfold Election.step
    cases waiting : e.pending[index]? with
    | none => simpa only [waiting] using h
    | some d =>
      obtain ⟨form, made, led⟩ := h.pending d (List.mem_of_getElem? waiting)
      obtain ⟨settles, leader⟩ :=
        h.committed decides (read now (by simp [ElectionOp.readings])) form made led
      have done := settles.done decides leader
      simp only [waiting]
      exact ⟨done.transform, done.sameKeys, done.leadsFirst, done.recent, done.measured,
        fun d inside => done.pending d (List.mem_of_mem_eraseIdx inside)⟩

end Led

section Run

variable {transforms} {first : Sessions} {ops : List ElectionOp}

theorem led_run {leads : SessionId → SessionId → Prop}
    (decides : Decides transforms leads first.wireIds (ops.flatMap ElectionOp.readings))
    (fixed : first.current.measurement.xForm = transforms first.current.sessionId)
    (past : ∀ x ∈ first.others, ∀ now ∈ ops.flatMap ElectionOp.readings,
      x.measurement.timestamp ≤ now) :
    (run (step transforms) (start first) ops).Led transforms leads first
      (ops.flatMap ElectionOp.readings) := by
  refine run_invariant (P := fun _ op => op ∈ ops)
    (fun e op h here => h.step decides op fun now read => List.mem_flatMap.mpr ⟨op, here, read⟩) ?_
    (along_of_mem (fun _ here => here) _)
  exact ⟨fixed, fun _ => Iff.rfl, decides.refl _, fun x inside => .inr (past x inside),
    fun _ _ done => (nomatch done), fun _ waiting => (nomatch waiting)⟩

theorem Led.all {leads : SessionId → SessionId → Prop} {readings : List Duration} {e : Election}
    (h : e.Led transforms leads first readings)
    (complete : ∀ x ∈ first.others, x.key ∈ e.measured) :
    e.sessions.current.sessionId ∈ first.wireIds ∧
      ∀ id ∈ first.wireIds, leads e.sessions.current.sessionId id := by
  refine ⟨h.ids_mem (List.mem_cons_self ..), fun id member => ?_⟩
  rw [Sessions.wireIds_eq] at member
  obtain ⟨key, inside, rfl⟩ := List.mem_map.mp member
  cases List.mem_cons.mp inside with
  | inl own => exact own ▸ h.leadsFirst
  | inr candidate =>
    obtain ⟨x, other, rfl⟩ := List.mem_map.mp candidate
    exact h.measured _ inside (complete x other)

theorem decides_older {ids : List SessionId} {readings : List Duration}
    (apart : ∀ a ∈ ids, ∀ b ∈ ids, a ≠ b → ∀ now ∈ readings,
      500000000 < |ghostNanos transforms a now - ghostNanos transforms b now|)
    (order : ∀ a ∈ ids, ∀ b ∈ ids, ∀ now ∈ readings, ∀ later ∈ readings,
      ghostNanos transforms a now < ghostNanos transforms b now →
        ghostNanos transforms a later < ghostNanos transforms b later) :
    Decides transforms (Older transforms readings) ids readings := by
  -- One reading tells the order at all of them.
  have older {a b : SessionId} (ha : a ∈ ids) (hb : b ∈ ids) (differ : a ≠ b) {now : Duration}
      (read : now ∈ readings) (below : ghostNanos transforms b now < ghostNanos transforms a now) :
      Older transforms readings a b := by
    refine .inr fun later here => ?_
    have gap := apart a ha b hb differ later here
    rwa [abs_of_pos (Int.sub_pos.mpr (order b hb a ha now read later here below))] at gap
  refine ⟨fun _ => .inl rfl, ?_, ?_⟩
  · rintro a b c (rfl | ab) (rfl | bc)
    · exact .inl rfl
    · exact .inr bc
    · exact .inr ab
    · refine .inr fun now read => ?_
      have := ab now read
      have := bc now read
      omega
  · intro current candidate measurement held joins form measured now read
    have wins_iff := @measurementWins_iff current candidate measurement now
    rw [form, measured] at wins_iff
    change _ ↔ 500000000 < ghostNanos transforms candidate now -
      ghostNanos transforms current.sessionId now ∨ _ at wins_iff
    by_cases same : candidate = current.sessionId
    · subst same
      split <;> exact .inl rfl
    · have gap := apart candidate joins current.sessionId held same now read
      split
      case isTrue wins =>
        obtain above | ⟨close, -⟩ := wins_iff.mp wins
        · exact older joins held same read (by omega)
        · exact absurd close (not_lt_of_gt gap)
      case isFalse stays =>
        have below := mt (fun above => wins_iff.mpr (.inl above)) stays
        have := lt_abs.mp gap
        exact older held joins (Ne.symm same) read (by omega)

theorem decides_smaller {ids : List SessionId} {readings : List Duration}
    (close : ∀ a ∈ ids, ∀ b ∈ ids, ∀ now ∈ readings,
      |ghostNanos transforms a now - ghostNanos transforms b now| < 500000000) :
    Decides transforms Smaller ids readings := by
  refine ⟨fun a => Bool.eq_false_iff.mpr fun own => ?_, fun a b c ab bc => ?_, ?_⟩
  · exact Bool.eq_false_iff.mp (NodeId.lt_asymm own) own
  · exact NodeId.not_lt_trans ab bc
  · intro current candidate measurement held joins form measured now read
    have wins_iff := @measurementWins_iff current candidate measurement now
    rw [form, measured] at wins_iff
    change _ ↔ 500000000 < ghostNanos transforms candidate now -
      ghostNanos transforms current.sessionId now ∨ _ at wins_iff
    have gap := close candidate joins current.sessionId held now read
    split
    case isTrue wins =>
      obtain above | ⟨-, less⟩ := wins_iff.mp wins
      · exact absurd (abs_lt.mp gap).2 (by omega)
      · exact NodeId.lt_asymm less
    case isFalse stays =>
      exact Bool.eq_false_iff.mpr fun less => stays (wins_iff.mpr (.inr ⟨gap, less⟩))

end Run

/-- Every order of the measurements elects the same session: the oldest one when the ghost times
lie apart, the one with the least id when they lie together.  Two sessions never displace each
other. -/
theorem election_winner :
    (∀ (first : Sessions) (ops : List ElectionOp),
      first.current.measurement.xForm = transforms first.current.sessionId →
      (∀ x ∈ first.others, ∀ now ∈ ops.flatMap ElectionOp.readings,
        x.measurement.timestamp ≤ now) →
      (∀ x ∈ first.others, x.key ∈ (run (step transforms) (start first) ops).measured) →
      let winner := (run (step transforms) (start first) ops).sessions.current.sessionId
      let readings := ops.flatMap ElectionOp.readings
      winner ∈ first.wireIds ∧
      ((∀ a ∈ first.wireIds, ∀ b ∈ first.wireIds, a ≠ b → ∀ now ∈ readings,
          500000000 < |ghostNanos transforms a now - ghostNanos transforms b now|) →
        (∀ a ∈ first.wireIds, ∀ b ∈ first.wireIds, ∀ now ∈ readings, ∀ later ∈ readings,
          ghostNanos transforms a now < ghostNanos transforms b now →
            ghostNanos transforms a later < ghostNanos transforms b later) →
        ∀ id ∈ first.wireIds, id ≠ winner → ∀ now ∈ readings,
          ghostNanos transforms id now < ghostNanos transforms winner now) ∧
      ((∀ a ∈ first.wireIds, ∀ b ∈ first.wireIds, ∀ now ∈ readings,
          |ghostNanos transforms a now - ghostNanos transforms b now| < 500000000) →
        ∀ id ∈ first.wireIds, id ≠ winner → winner.node.lt id.node = true)) ∧
    ∀ (a b : Session) (now : Duration),
      ¬(measurementWins a b.sessionId b.measurement now = true ∧
        measurementWins b a.sessionId a.measurement now = true) := by
  refine ⟨fun first ops fixed past complete => ⟨?_, ?_, ?_⟩, ?_⟩
  · have everyone : Decides transforms (fun _ _ => True) first.wireIds
        (ops.flatMap ElectionOp.readings) :=
      ⟨fun _ => trivial, fun _ _ _ _ _ => trivial, fun _ _ _ _ _ _ _ _ _ => by split <;> trivial⟩
    exact ((led_run everyone fixed past).all complete).1
  · intro apart order id member differ now read
    have led := ((led_run (decides_older apart order) fixed past).all complete).2 id member
    obtain same | older := led
    · exact absurd same.symm differ
    · have := older now read
      omega
  · intro close id member differ
    have led := ((led_run (decides_smaller close) fixed past).all complete).2 id member
    refine Bool.of_not_eq_false fun less => differ ?_
    exact congrArg SessionId.mk (NodeId.eq_of_not_lt led less)
  · rintro a b now ⟨displaced, back⟩
    exact Bool.eq_false_iff.mp (displaces_asymm displaced) back

theorem election_winner_ahead :
    let young : SessionId := ⟨⟨#v[1, 1, 1, 1, 1, 1, 1, 1]⟩⟩
    let old : SessionId := ⟨⟨#v[2, 2, 2, 2, 2, 2, 2, 2]⟩⟩
    let transforms (id : SessionId) : GhostXForm :=
      ⟨1.0, if id = old then .microseconds 1000000 else .zero⟩
    let current : Session := ⟨1, none, young, default, ⟨transforms young, .zero⟩⟩
    let first : Sessions :=
      ⟨current, current, [⟨2, none, old, default, default⟩], [], false, ⟨2, 1⟩⟩
    let ops := [ElectionOp.decide ⟨old, 2⟩ .zero .zero, .commit 0 .zero]
    let winner := (run (step transforms) (start first) ops).sessions.current.sessionId
    winner = old ∧ ∀ id ∈ first.wireIds, id ≠ winner → ∀ now ∈ ops.flatMap ElectionOp.readings,
      ghostNanos transforms id now < ghostNanos transforms winner now := by
  intro young old transforms current first ops winner
  have elected : winner = old := by decide +kernel
  have winners := ((election_winner transforms).1 first ops rfl (by decide +kernel)
    (by decide +kernel)).2.1
  exact ⟨elected, winners (by decide +kernel) (by decide +kernel)⟩

end Election

end AbletonLink.Link
