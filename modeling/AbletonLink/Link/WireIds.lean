import AbletonLink.Link.Candidates

/-! Which of the known sessions can share an incarnation or a wire id. -/

namespace AbletonLink.Link

open Library Library.Run

namespace Sessions

def keys (s : Sessions) : List SessionKey := s.known.map Session.key

def wireIds (s : Sessions) : List SessionId := s.known.map Session.sessionId

theorem wireIds_eq (s : Sessions) : s.wireIds = s.keys.map SessionKey.sessionId := by
  rw [wireIds, keys, List.map_map]
  rfl

theorem keys_map_if {others : List Session} {p : Session → Bool} {f : Session → Session}
    (same : ∀ x, p x = true → (f x).key = x.key) :
    (others.map fun x => if p x then f x else x).map Session.key = others.map Session.key := by
  rw [List.map_map]
  refine List.map_congr_left fun x _ => ?_
  show (if p x then f x else x).key = x.key
  split
  · rename_i matched
    exact same x matched
  · rfl

end Sessions

namespace SessionCommit

open Sessions

section Installs

variable (s : SessionCommit)

theorem keys_invalidateClientCaptures : s.invalidateClientCaptures.keys = s.keys :=
  congrArg (s.current.key :: ·) (keys_map_if fun _ _ => rfl)

theorem keys_installTiming (session : SessionState) (client : ClientState) :
    (s.installTiming session client).keys = s.keys := by
  unfold installTiming
  dsimp only
  split
  · exact s.keys_invalidateClientCaptures
  · rfl

theorem keys_editTimeline (key : SessionKey) (target : Timeline) (session : SessionState)
    (client : ClientState) : (s.editTimeline key target session client).keys = s.keys := by
  have current : (s.current.setTimeline target s.supply).1.key = s.current.key := by
    rw [Session.key, Session.sessionId_setTimeline, Session.incarnation_setTimeline]
    rfl
  exact congrArg₂ List.cons current (keys_map_if fun _ _ => rfl)

theorem keys_editStartStop (key : SessionKey) (state : ClientStartStopState)
    (proposed : Option StartStopState) : (s.editStartStop key state proposed).keys = s.keys :=
  congrArg (s.current.key :: ·) (keys_map_if fun _ _ => rfl)

theorem keys_installEdit (edit : Option (Timeline × SessionState × ClientState))
    (startStop : Option ClientStartStopState) (proposed : Option StartStopState) :
    (s.installEdit edit startStop proposed).keys = s.keys := by
  cases edit with
  | none =>
    cases startStop with
    | none => rfl
    | some state => exact s.invalidateCurrent.keys_editStartStop _ state proposed
  | some edit =>
    have edited := s.invalidateCurrent.keys_editTimeline s.current.key edit.1 edit.2.1 edit.2.2
    cases startStop with
    | none => exact edited
    | some state => exact (keys_editStartStop _ _ state proposed).trans edited

end Installs

def rejects (s : SessionCommit) : Op → Prop
  | .join queued clock fresh => (s.join queued clock fresh).1.isOk = false
  | .refreshTiming clock => (s.refreshTiming clock).1.isOk = false
  | .quiet (.reset clock fresh expected) => (s.resetIfPeerless clock fresh expected).1.isOk = false
  | _ => False

def Clashes (s : SessionCommit) : Prop :=
  s.published.matches s.current = false ∧
    ∃ x ∈ s.others, x.sessionId = s.published.sessionId ∧ s.published.matches x = false ∧
      s.current.matches x = false

/-- Unless it is refused, a step keeps or drops identities, adds one under a new wire id, or
starts over with one. -/
inductive Renamed (old : List SessionKey) : List SessionKey → Prop
  | fewer {new : List SessionKey} (h : new.Subperm old) : Renamed old new
  | added {key : SessionKey} (h : ∀ k ∈ old, k.sessionId ≠ key.sessionId) :
      Renamed old (old ++ [key])
  | alone {key : SessionKey} : Renamed old [key]

theorem renamed_of_filter {s s' : Sessions} {p : Session → Bool}
    (current : s'.current = s.current) (others : s'.others = s.others.filter p) :
    Renamed s.keys s'.keys := by
  refine .fewer (List.Sublist.subperm ?_)
  rw [keys, keys, known, known, current, others]
  exact (List.filter_sublist.cons_cons _).map _

theorem renamed_of_eq {old new : List SessionKey} (h : new = old) : Renamed old new :=
  .fewer (h ▸ .refl _)

theorem sighting_renamed (s : Sessions) (id : SessionId) (timeline : Timeline) (slot : Bool) :
    Renamed s.keys (s.trySighting id timeline slot).2.2.keys := by
  have key (x : Session) : (updateTimeline x timeline s.supply).1.key = x.key := by
    rcases updateTimeline_cases x timeline s.supply with ⟨-, h⟩ | ⟨-, h⟩
    · rw [h]
    · rw [h]
      rfl
  rcases s.trySighting_cases id timeline slot with
    ⟨-, _, h⟩ | ⟨-, _, x, found, h⟩ | ⟨foreign, absent, h | ⟨_, _, h⟩⟩
  · rw [h]
    exact renamed_of_eq (congrArg (· :: s.others.map Session.key) (key s.current))
  · rw [h]
    exact renamed_of_eq (congrArg (s.current.key :: ·) (map_replaceFirst found (key x)))
  · rw [h]
    exact renamed_of_eq rfl
  · rw [h]
    have added : Renamed s.keys
        (s.keys ++ [(Session.new id (clampTempo timeline) default s.supply).1.key]) := by
      refine .added fun k hk => ?_
      obtain ⟨x, hx, rfl⟩ := List.mem_map.mp hk
      rcases List.mem_cons.mp hx with rfl | hx
      · exact foreign
      · exact absent x hx
    simpa [keys, known] using added

def RefusesOrRenames (s : SessionCommit) (outcome : TimingResult × SessionCommit) : Prop :=
  outcome.1.isOk = false ∧ outcome.2 = s.rejectPendingTiming ∨
    ¬ outcome.1.isOk = false ∧ Renamed s.keys outcome.2.keys

theorem RefusesOrRenames.accepted {s s' : SessionCommit} (changed : Option Tempo)
    (h : Renamed s.keys s'.keys) : s.RefusesOrRenames (.ok changed, s') :=
  .inr ⟨fun refused => Bool.noConfusion refused, h⟩

theorem reset_refusesOrRenames (s : SessionCommit) (clock : Clock) (fresh : NodeId) :
    s.RefusesOrRenames (s.reset clock fresh) := by
  rcases s.reset_cases clock fresh with ⟨_, h⟩ | ⟨_, _, _, _, _, _, _, -, -, h⟩
  · rw [h]
    exact .inl ⟨rfl, rfl⟩
  · rw [h]
    exact .accepted _ .alone

theorem join_refusesOrRenames (s : SessionCommit) (clock : Clock) (fresh : NodeId)
    (queued : Session) : s.RefusesOrRenames (s.join queued clock fresh) := by
  rcases s.join_cases clock fresh queued with
    ⟨h, -⟩ | ⟨-, ⟨-, h⟩ | ⟨_, h⟩ | ⟨_, _, session, client, _, -, -, h⟩⟩
  · rw [h]
    exact .accepted _ (renamed_of_eq rfl)
  · rw [h]
    exact s.reset_refusesOrRenames clock fresh
  · rw [h]
    exact .inl ⟨rfl, rfl⟩
  · rw [h]
    exact .accepted _ (renamed_of_eq (s.withSession.keys_installTiming session client))

theorem refreshTiming_refusesOrRenames (s : SessionCommit) (clock : Clock) :
    s.RefusesOrRenames (s.refreshTiming clock) := by
  rcases s.refreshTiming_cases clock with ⟨h, -⟩ | ⟨-, -, ⟨_, h⟩ | ⟨_, session, client, -, h⟩⟩
  · rw [h]
    exact .accepted _ (renamed_of_eq rfl)
  · rw [h]
    exact .inl ⟨rfl, rfl⟩
  · rw [h]
    exact .accepted _ (renamed_of_eq (s.keys_installTiming session client))

theorem resetIfPeerless_refusesOrRenames (s : SessionCommit) (clock : Clock) (fresh : NodeId)
    (expected : Option SessionId) :
    s.RefusesOrRenames (s.resetIfPeerless clock fresh expected) := by
  rcases s.resetIfPeerless_cases clock fresh expected with h | ⟨-, h⟩
  · rw [h]
    exact .accepted _ (renamed_of_eq rfl)
  · rw [h]
    exact s.reset_refusesOrRenames clock fresh

theorem clientEdit_renamed (s : SessionCommit) (incoming : IncomingClientState) (clock : Clock)
    (origin : Option SessionEditOrigin) :
    Renamed s.keys (s.clientEditFromOrigin incoming clock origin).2.keys := by
  rcases s.clientEdit_cases clock incoming origin with ⟨-, h⟩ | ⟨_, edit, _, -, -, h, -⟩
  · rw [h]
    exact renamed_of_eq rfl
  · rw [h]
    exact renamed_of_eq (s.keys_installEdit ..)

theorem step_renamed (s : SessionCommit) (op : Op) :
    (s.rejects op ∧ s.step op = s.rejectPendingTiming) ∨
      (¬ s.rejects op ∧ Renamed s.keys (s.step op).keys) := by
  cases op with
  | join queued clock fresh => exact s.join_refusesOrRenames clock fresh queued
  | refreshTiming clock => exact s.refreshTiming_refusesOrRenames clock
  | sighting id timeline slot =>
    exact .inr ⟨not_false, sighting_renamed s.toSessions id timeline slot⟩
  | commitMeasurement decision now =>
    exact .inr ⟨not_false,
      .fewer (s.toSessions.commitMeasurement_remeasured decision now).keys.subperm⟩
  | quiet op =>
    cases op with
    | clientEdit incoming clock origin =>
      exact .inr ⟨not_false, s.clientEdit_renamed incoming clock origin⟩
    | receivedStartStop source advertised incoming clock =>
      refine .inr ⟨not_false, ?_⟩
      show Renamed s.keys (s.receivedStartStop source advertised incoming clock).2.keys
      rcases s.receivedStartStop_cases clock source advertised incoming with
        h | ⟨_, _, _, _, -, -, -, -, -, -, h⟩
      · rw [h]
        exact renamed_of_eq rfl
      · rw [h]
        exact renamed_of_eq s.keys_invalidateClientCaptures
    | reset clock fresh expected => exact s.resetIfPeerless_refusesOrRenames clock fresh expected
    | decideMeasurement key xForm timestamp now =>
      exact .inr ⟨not_false,
        .fewer (s.toSessions.decideMeasurement_remeasured key xForm timestamp now).keys.subperm⟩
    | failedMeasurement key =>
      refine .inr ⟨not_false, ?_⟩
      show Renamed s.keys (s.toSessions.handleFailedMeasurement key).2.keys
      rcases s.toSessions.handleFailedMeasurement_cases key with h | ⟨-, _, h⟩
      · rw [h]
        exact renamed_of_eq rfl
      · rw [h]
        exact renamed_of_filter rfl rfl
    | admitOwnedRequest key after =>
      refine .inr ⟨not_false, ?_⟩
      show Renamed s.keys (s.toSessions.admitOwnedRequest key after).2.2.keys
      cases s.toSessions.admitOwnedRequest_cases key after with
      | inl h =>
        rw [h]
        exact renamed_of_eq rfl
      | inr h =>
        rw [h]
        exact renamed_of_filter rfl rfl
    | observePeers peers => exact .inr ⟨not_false, renamed_of_filter rfl rfl⟩
    | refreshPeerCount => exact .inr ⟨not_false, renamed_of_eq rfl⟩
    | setStartStopSync enabled => exact .inr ⟨not_false, renamed_of_eq rfl⟩
    | elsewhere => exact .inr ⟨not_false, renamed_of_eq rfl⟩

theorem Renamed.nodup_map {β : Type} {f : SessionKey → β} {old new : List SessionKey}
    (h : Renamed old new) (apart : ∀ a b, a.sessionId ≠ b.sessionId → f a ≠ f b)
    (nodup : (old.map f).Nodup) : (new.map f).Nodup := by
  cases h with
  | fewer h =>
    obtain ⟨kept, perm, sublist⟩ := h
    exact (perm.map f).nodup_iff.mp ((sublist.map f).nodup nodup)
  | @added key h =>
    rw [List.map_append]
    refine nodup.append (List.nodup_singleton _) ?_
    intro view old_view new_view
    obtain ⟨k, hk, rfl⟩ := List.mem_map.mp old_view
    exact apart k key (h k hk) (List.mem_singleton.mp new_view)
  | alone => exact List.nodup_singleton _

theorem keys_rejectPendingTiming (s : SessionCommit) :
    (s.published.matches s.current = true ∧ s.rejectPendingTiming.keys = s.keys) ∨
      (s.published.matches s.current = false ∧
        s.rejectPendingTiming.keys = s.published.key ::
          (s.others.filter fun x => !s.published.matches x && !s.current.matches x).map
            Session.key) := by
  cases same : s.published.matches s.current with
  | true =>
    refine .inl ⟨rfl, ?_⟩
    have key := Session.matches_iff.mp same
    show s.published.key :: (rejectPendingTiming s).others.map Session.key = _
    unfold rejectPendingTiming
    dsimp only
    rw [if_neg (by simp [same]), keys_map_if fun x own => Session.matches_iff.mp own, key]
    rfl
  | false =>
    refine .inr ⟨rfl, ?_⟩
    show s.published.key :: (rejectPendingTiming s).others.map Session.key = _
    unfold rejectPendingTiming
    dsimp only
    rw [if_pos (by simp [same])]

theorem keys_nodup_rejectPendingTiming {s : SessionCommit} (nodup : s.keys.Nodup) :
    s.rejectPendingTiming.keys.Nodup := by
  rcases s.keys_rejectPendingTiming with ⟨-, h⟩ | ⟨-, h⟩
  · rw [h]
    exact nodup
  · rw [h]
    refine List.nodup_cons.mpr ⟨fun mem => ?_, ?_⟩
    · obtain ⟨x, hx, key⟩ := List.mem_map.mp mem
      have apart := (List.mem_filter.mp hx).2
      rw [Session.matches_iff.mpr key.symm] at apart
      cases apart
    · exact (List.filter_sublist.map _).nodup (List.nodup_cons.mp nodup).2

theorem wireIds_nodup_rejectPendingTiming {s : SessionCommit} (nodup : s.wireIds.Nodup) :
    s.rejectPendingTiming.wireIds.Nodup ↔ ¬ s.Clashes := by
  have tail := (List.nodup_cons.mp nodup).2
  rcases s.keys_rejectPendingTiming with ⟨same, h⟩ | ⟨apart, h⟩
  · rw [wireIds_eq, h, ← wireIds_eq]
    exact ⟨fun _ clash => absurd (same.symm.trans clash.1) (by decide), fun _ => nodup⟩
  · rw [wireIds_eq, h, List.map_cons, List.map_map, List.nodup_cons]
    constructor
    · rintro ⟨fresh, -⟩ ⟨-, x, hx, id, notPublished, notCurrent⟩
      refine fresh (List.mem_map.mpr ⟨x, List.mem_filter.mpr ⟨hx, ?_⟩, id⟩)
      rw [notPublished, notCurrent]
      rfl
    · intro free
      refine ⟨fun mem => ?_, (List.filter_sublist.map _).nodup tail⟩
      obtain ⟨x, hx, id⟩ := List.mem_map.mp mem
      obtain ⟨hx, neither⟩ := List.mem_filter.mp hx
      simp only [Bool.and_eq_true, Bool.not_eq_true'] at neither
      exact free ⟨apart, x, hx, id, neither.1, neither.2⟩

/-- After a reset the known sessions are distinct incarnations in every run, and their wire ids
are distinct all along a run exactly if no operation is refused while the published session
clashes with a candidate. -/
theorem known_distinct_after_reset {s : SessionCommit} {clock : Clock} {fresh : NodeId}
    (ok : (s.reset clock fresh).1.isOk = true) (ops : List Op) :
    (run step (s.reset clock fresh).2 ops).keys.Nodup ∧
      ((∀ before, before <+: ops → (run step (s.reset clock fresh).2 before).wireIds.Nodup) ↔
        Along step (fun s op => s.rejects op → ¬ s.Clashes) (s.reset clock fresh).2 ops) := by
  have start : (s.reset clock fresh).2.keys.Nodup ∧ (s.reset clock fresh).2.wireIds.Nodup := by
    rcases s.reset_cases clock fresh with ⟨_, h⟩ | ⟨_, _, _, _, _, _, _, -, -, h⟩
    · rw [h] at ok
      cases ok
    · rw [h]
      exact ⟨List.nodup_singleton _, List.nodup_singleton _⟩
  constructor
  · refine run_keeps (I := fun s : SessionCommit => s.keys.Nodup) ?_ ops start.1
    intro s op nodup
    rcases s.step_renamed op with ⟨-, h⟩ | ⟨-, renamed⟩
    · rw [h]
      exact keys_nodup_rejectPendingTiming nodup
    · have kept := renamed.nodup_map (f := id) (fun a b apart same => apart (congrArg _ same))
      simpa using kept (by simpa using nodup)
  · refine prefix_iff_along (A := fun _ => True) (G := fun s : SessionCommit => s.wireIds.Nodup)
      (fun _ _ _ => trivial) ?_ trivial start.2 ops
    intro s op _ nodup
    rcases s.step_renamed op with ⟨rejects, h⟩ | ⟨accepts, renamed⟩
    · rw [h, wireIds_nodup_rejectPendingTiming nodup]
      exact ⟨fun free _ => free, fun free => free rejects⟩
    · refine ⟨fun _ rejects => absurd rejects accepts, fun _ => ?_⟩
      rw [wireIds_eq] at nodup ⊢
      exact renamed.nodup_map (fun _ _ apart => apart) nodup

/-- The node is promoted into another session, its own session is retired and sighted again as a
new candidate, and the join of the promotion is then refused: the other session's time origin lies
too far away for the client's beat. -/
def promotedThenRefused : List Op :=
  let other : NodeId := ⟨#v[66, 66, 66, 66, 66, 66, 66, 66]⟩
  let third : NodeId := ⟨#v[67, 67, 67, 67, 67, 67, 67, 67]⟩
  let near : Timeline := ⟨⟨120.0⟩, ⟨0⟩, .zero⟩
  let far : Timeline := ⟨⟨120.0⟩, ⟨0⟩, .microseconds Int64.maxValue⟩
  let own : SessionId := soloNode.peer.sessionId
  let visitor : ControllerPeer :=
    { peerState :=
        { nodeState :=
            { nodeId := third, sessionId := own, timeline := near, startStopState := default }
          measurementEndpoint := none
          audioEndpoint := none } }
  let ahead : SessionMeasurement := ⟨⟨1.0, .microseconds 1000000⟩, .zero⟩
  [.quiet (.observePeers [soloPeer other far]),
    .sighting ⟨other⟩ far true,
    .quiet (.decideMeasurement ⟨⟨other⟩, 2⟩ ahead.xForm ahead.timestamp .zero),
    .commitMeasurement ⟨⟨⟨other⟩, 2⟩, ahead, false⟩ .zero,
    .quiet (.failedMeasurement ⟨own, 1⟩),
    .quiet (.observePeers [soloPeer other far, visitor]),
    .sighting own near true,
    .join ⟨2, none, ⟨other⟩, far, ahead⟩ ⟨.zero, .zero, .zero⟩ third]

theorem wireIds_clash_soloNode :
    (soloNode.reset ⟨.zero, .zero, .zero⟩ default).1.isOk = true ∧
      ¬ (run step (soloNode.reset ⟨.zero, .zero, .zero⟩ default).2
        promotedThenRefused).wireIds.Nodup := by
  decide +kernel

theorem known_distinct_after_reset_soloNode :
    (run step (soloNode.reset ⟨.zero, .zero, .zero⟩ default).2 promotedThenRefused).keys.Nodup ∧
      ¬ Along step (fun s op => s.rejects op → ¬ s.Clashes)
        (soloNode.reset ⟨.zero, .zero, .zero⟩ default).2 promotedThenRefused := by
  have ok : (soloNode.reset ⟨.zero, .zero, .zero⟩ default).1.isOk = true := by decide +kernel
  have clash : ¬ (run step (soloNode.reset ⟨.zero, .zero, .zero⟩ default).2
      promotedThenRefused).wireIds.Nodup := by decide +kernel
  have distinct := known_distinct_after_reset ok promotedThenRefused
  exact ⟨distinct.1, fun along => clash (distinct.2.mpr along _ (List.prefix_refl _))⟩

end SessionCommit

end AbletonLink.Link
