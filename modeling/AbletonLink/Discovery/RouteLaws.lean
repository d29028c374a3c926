import AbletonLink.Discovery.MeasurementRoutes

/-! The cache of measurement routes is bounded, evicts the hint that expires first and only for a
new key, keeps the newest observation, and fails closed. -/

namespace AbletonLink.Discovery

open Library Library.Run Link

namespace MeasurementRoutes

variable {routes : MeasurementRouteMap} {key other : NodeId × SocketAddrV4} {hint : RouteHint}

section Counts

theorem length_keys (routes : MeasurementRouteMap) :
    routes.keys.length = routes.entries.length := by
  simp [AList.keys, List.keys]

theorem mem_iff_exists : key ∈ routes ↔ ∃ hint, ⟨key, hint⟩ ∈ routes.entries := by
  simp only [← AList.lookup_isSome, Option.isSome_iff_exists, ← AList.mem_lookup_iff,
    Option.mem_def]

theorem length_erase (present : key ∈ routes) :
    (routes.erase key).entries.length + 1 = routes.entries.length := by
  rw [← length_keys, ← length_keys]
  exact (Bindings.keys_perm_erase present).length_eq.symm

theorem countOf_erase (present : key ∈ routes) (node : NodeId) :
    countOf node (routes.erase key) + (if key.1 = node then 1 else 0) = countOf node routes := by
  unfold countOf
  rw [(Bindings.keys_perm_erase present).countP_eq, List.countP_cons]
  simp only [decide_eq_true_eq]

theorem length_insert (absent : key ∉ routes) (hint : RouteHint) :
    (routes.insert key hint).entries.length = routes.entries.length + 1 := by
  rw [← length_keys, ← length_keys, Bindings.keys_insert_of_not_mem absent, List.length_cons]

theorem countOf_insert (absent : key ∉ routes) (hint : RouteHint) (node : NodeId) :
    countOf node (routes.insert key hint) =
      countOf node routes + if key.1 = node then 1 else 0 := by
  unfold countOf
  rw [Bindings.keys_insert_of_not_mem absent, List.countP_cons]
  simp only [decide_eq_true_eq]

theorem countOf_retain_le (keep : NodeId × SocketAddrV4 → RouteHint → Bool) (node : NodeId) :
    countOf node (routes.retain keep) ≤ countOf node routes :=
  (List.filter_sublist.map Sigma.fst).countP_le

theorem countOf_erase_le (routes : MeasurementRouteMap) (key : NodeId × SocketAddrV4)
    (node : NodeId) : countOf node (routes.erase key) ≤ countOf node routes :=
  ((List.kerase_sublist key routes.entries).map Sigma.fst).countP_le

/-- No more hints than the cache holds, nor than a node may have. -/
structure Bounded (routes : MeasurementRouteMap) : Prop where
  total : routes.entries.length ≤ maxMeasurementRoutes
  node : ∀ node, countOf node routes ≤ maxRoutesPerPeer

theorem Bounded.retain (h : Bounded routes) (keep : NodeId × SocketAddrV4 → RouteHint → Bool) :
    Bounded (routes.retain keep) where
  total := (Bindings.length_retain_le keep routes).trans h.total
  node node := (countOf_retain_le keep node).trans (h.node node)

theorem Bounded.sweep (h : Bounded routes) (now : Instant) (snapshot : TopologySnapshot) :
    Bounded (MeasurementRoutes.sweep now snapshot routes) := h.retain _

theorem Bounded.withdraw (h : Bounded routes) (peer : NodeId) (observed : Instant) :
    Bounded (MeasurementRoutes.withdraw peer observed routes) := h.retain _

theorem Bounded.erase (h : Bounded routes) (key : NodeId × SocketAddrV4) :
    Bounded (routes.erase key) where
  total := (List.kerase_sublist key routes.entries).length_le.trans h.total
  node node := (countOf_erase_le routes key node).trans (h.node node)

theorem Bounded.of_perm {order : MeasurementRouteMap} (h : Bounded routes)
    (perm : order.entries.Perm routes.entries) : Bounded order where
  total := perm.length_eq.trans_le h.total
  node node := ((perm.map Sigma.fst).countP_eq _).trans_le (h.node node)

theorem Bounded.refresh (h : Bounded routes) (present : key ∈ routes) (hint : RouteHint) :
    Bounded (routes.insert key hint) := by
  have absent := Bindings.not_mem_erase key routes
  rw [← Bindings.insert_erase]
  constructor
  · rw [length_insert absent, length_erase present]
    exact h.total
  · intro node
    rw [countOf_insert absent, countOf_erase present]
    exact h.node node

end Counts

section Evict

def FirstToExpire (admitted : NodeId × SocketAddrV4 → Bool) (routes : MeasurementRouteMap)
    (victim : NodeId × SocketAddrV4) : Prop :=
  admitted victim = true ∧ ∃ hint, ⟨victim, hint⟩ ∈ routes.entries ∧
    ∀ other held, ⟨other, held⟩ ∈ routes.entries → admitted other = true →
      hint.expires ≤ held.expires

theorem evict_eq_erase (admitted : NodeId × SocketAddrV4 → Bool) (present : key ∈ routes)
    (admits : admitted key = true) :
    ∃ victim, FirstToExpire admitted routes victim ∧
      evict admitted routes = routes.erase victim := by
  obtain ⟨hint, bound⟩ := mem_iff_exists.mp present
  unfold evict
  split
  next old found =>
    obtain ⟨held, admits⟩ := List.mem_filter.mp (List.argmin_mem found)
    refine ⟨old.1, ⟨admits, old.2, held, fun other hint bound admits => ?_⟩, rfl⟩
    have candidate : (⟨other, hint⟩ : Σ _, RouteHint) ∈
        routes.entries.filter fun binding => admitted binding.1 :=
      List.mem_filter.mpr ⟨bound, admits⟩
    exact List.le_of_mem_argmin (f := fun binding : Σ _, RouteHint => binding.2.expires) candidate
      found
  next none =>
    have empty := List.argmin_eq_none.mp none
    exact absurd (List.mem_filter.mpr ⟨bound, admits⟩) (empty ▸ List.not_mem_nil)

theorem FirstToExpire.mem {admitted : NodeId × SocketAddrV4 → Bool}
    (h : FirstToExpire admitted routes key) : key ∈ routes := by
  obtain ⟨-, hint, bound, -⟩ := h
  exact mem_iff_exists.mpr ⟨hint, bound⟩

theorem makeRoom_cases (h : Bounded routes) (peer : NodeId) :
    (countOf peer routes < maxRoutesPerPeer ∧ routes.entries.length < maxMeasurementRoutes ∧
      makeRoom peer routes = routes) ∨
    ∃ victim, makeRoom peer routes = routes.erase victim ∧
      if countOf peer routes < maxRoutesPerPeer then
        maxMeasurementRoutes ≤ routes.entries.length ∧ FirstToExpire (fun _ => true) routes victim
      else FirstToExpire (fun key => key.1 = peer) routes victim := by
  unfold makeRoom
  by_cases room : countOf peer routes < maxRoutesPerPeer
  · rw [if_neg (Nat.not_le.mpr room)]
    dsimp only
    split
    next full =>
      have some_hint : 0 < routes.keys.length := by
        rw [length_keys]
        exact Nat.lt_of_lt_of_le (by decide) full
      obtain ⟨key, member⟩ := List.exists_mem_of_length_pos some_hint
      obtain ⟨victim, first, evicted⟩ :=
        evict_eq_erase (fun _ => true) (AList.mem_keys.mpr member) rfl
      exact .inr ⟨victim, evicted, full, first⟩
    next space => exact .inl ⟨room, Nat.not_le.mp space, rfl⟩
  · have full := Nat.not_lt.mp room
    obtain ⟨key, member, own⟩ :=
      List.countP_pos_iff.mp (Nat.lt_of_lt_of_le (by decide : 0 < maxRoutesPerPeer) full)
    obtain ⟨victim, first, evicted⟩ :=
      evict_eq_erase (fun key => key.1 = peer) (AList.mem_keys.mpr member) own
    rw [if_pos full, evicted]
    dsimp only
    -- The hint of the node makes room for both limits.
    have space : ¬(routes.erase victim).entries.length ≥ maxMeasurementRoutes := by
      have erased := length_erase first.mem
      have total := h.total
      omega
    rw [if_neg space]
    exact .inr ⟨victim, rfl, by rw [if_neg room]; exact first⟩

theorem mem_of_mem_makeRoom {peer : NodeId}
    (member : ⟨key, hint⟩ ∈ (makeRoom peer routes).entries) : ⟨key, hint⟩ ∈ routes.entries := by
  have kept {limit : Prop} [Decidable limit] {admitted : NodeId × SocketAddrV4 → Bool}
      {routes : MeasurementRouteMap}
      (member : ⟨key, hint⟩ ∈ (if limit then evict admitted routes else routes).entries) :
      ⟨key, hint⟩ ∈ routes.entries := by
    split at member
    · unfold evict at member
      split at member
      · exact (Bindings.mem_erase_entries.mp member).2
      · exact member
    · exact member
  exact kept (kept member)

theorem Bounded.insert_makeRoom (h : Bounded routes) {peer : NodeId} {endpoint : SocketAddrV4}
    (absent : (peer, endpoint) ∉ routes) (hint : RouteHint) :
    Bounded ((makeRoom peer routes).insert (peer, endpoint) hint) := by
  rcases makeRoom_cases h peer with ⟨room, space, same⟩ | ⟨victim, same, first⟩
  · rw [same]
    constructor
    · rw [length_insert absent]
      exact space
    · intro node
      have before := h.node node
      rw [countOf_insert absent]
      split
      next own => rw [← own]; exact room
      next => exact before
  · have member : victim ∈ routes := by
      split at first
      · exact first.2.mem
      · exact first.mem
    have gone : (peer, endpoint) ∉ routes.erase victim :=
      fun member => absent (AList.mem_erase.mp member).2
    have erased := length_erase member
    rw [same]
    constructor
    · rw [length_insert gone, erased]
      exact h.total
    · intro node
      have before := h.node node
      have counted := countOf_erase member node
      rw [countOf_insert gone]
      split
      next own =>
        obtain rfl : peer = node := own
        split at first
        next room =>
          have fewer := countOf_erase_le routes victim peer
          omega
        next =>
          have own : victim.1 = peer := of_decide_eq_true first.1
          rw [if_pos own] at counted
          omega
      next => omega

end Evict

section Record

variable {now : Instant} {snapshot : TopologySnapshot} {peer : NodeId}
  {endpoint : Option SocketAddrV4} {observed expires : Instant} {route : MeasurementRoute}
  {existingOnly : Bool}

/-- What a recording makes of the hints that are live when it is called. -/
inductive RecordEffect (snapshot : TopologySnapshot) (peer : NodeId)
    (endpoint : Option SocketAddrV4) (observed expires : Instant) (route : MeasurementRoute)
    (existingOnly : Bool) (live : MeasurementRouteMap) : MeasurementRouteMap → Prop
  | kept (idle : endpoint = none → currentInSnapshot snapshot route = false) :
    RecordEffect snapshot peer endpoint observed expires route existingOnly live live
  | withdrawn (none : endpoint = none) :
    RecordEffect snapshot peer endpoint observed expires route existingOnly live
      (withdraw peer observed live)
  | ended (address : SocketAddrV4) (here : endpoint = some address) :
    RecordEffect snapshot peer endpoint observed expires route existingOnly live
      (live.erase (peer, address))
  | refreshed (address : SocketAddrV4) (here : endpoint = some address)
    (present : (peer, address) ∈ live)
    (newer : ∀ hint, ⟨(peer, address), hint⟩ ∈ live.entries → hint.observed ≤ observed) :
    RecordEffect snapshot peer endpoint observed expires route existingOnly live
      (live.insert (peer, address) { expires, observed, route })
  | inserted (address : SocketAddrV4) (here : endpoint = some address)
    (absent : (peer, address) ∉ live) (adds : existingOnly = false) :
    RecordEffect snapshot peer endpoint observed expires route existingOnly live
      ((makeRoom peer live).insert (peer, address) { expires, observed, route })

theorem record_effect (routes : MeasurementRouteMap) :
    RecordEffect snapshot peer endpoint observed expires route existingOnly
      (sweep now snapshot routes)
      (recordReceived now snapshot peer endpoint observed expires route existingOnly routes) := by
  unfold recordReceived
  cases current : currentInSnapshot snapshot route with
  | false => exact .kept fun _ => current
  | true =>
    cases endpoint with
    | none => exact .withdrawn rfl
    | some address =>
      have idle {P : Prop} (none : some address = none) : P := nomatch none
      dsimp only [Bool.not_true, Bool.false_eq_true, if_false]
      by_cases latest : ((sweep now snapshot routes).lookup (peer, address)).any
          (fun hint => hint.observed > observed) = true
      · rw [if_pos latest]
        exact .kept idle
      rw [if_neg latest]
      by_cases late : expires ≤ now
      · rw [if_pos late]
        exact .ended address rfl
      rw [if_neg late]
      by_cases absent : (peer, address) ∉ sweep now snapshot routes
      · rw [if_pos absent]
        cases existingOnly with
        | true =>
          have barred : (true && decide ((peer, address) ∉ sweep now snapshot routes)) = true := by
            simpa using absent
          rw [if_pos barred]
          exact .kept idle
        | false => exact .inserted address rfl absent rfl
      · have admitted :
            ¬(existingOnly && decide ((peer, address) ∉ sweep now snapshot routes)) = true := by
          simpa using fun _ => not_not.mp absent
        rw [if_neg absent, if_neg admitted]
        refine .refreshed address rfl (not_not.mp absent) fun hint bound => ?_
        rw [AList.mem_lookup_iff.mpr bound] at latest
        simpa using latest

variable {live after : MeasurementRouteMap}

theorem RecordEffect.bounded
    (h : RecordEffect snapshot peer endpoint observed expires route existingOnly live after)
    (bounded : Bounded live) : Bounded after := by
  cases h with
  | kept => exact bounded
  | withdrawn => exact bounded.withdraw peer observed
  | ended address => exact bounded.erase _
  | refreshed address here present newer => exact bounded.refresh present _
  | inserted address here absent adds => exact bounded.insert_makeRoom absent _

theorem RecordEffect.mem_of_existingOnly
    (h : RecordEffect snapshot peer endpoint observed expires route true live after)
    (member : key ∈ after) : key ∈ live := by
  cases h with
  | kept => exact member
  | withdrawn =>
    obtain ⟨hint, bound⟩ := mem_iff_exists.mp member
    exact mem_iff_exists.mpr ⟨hint, (Bindings.mem_retain.mp bound).1⟩
  | ended address => exact (AList.mem_erase.mp member).2
  | refreshed address here present newer =>
    rcases (AList.mem_insert live).mp member with rfl | old
    · exact present
    · exact old
  | inserted address here absent adds => cases adds

theorem RecordEffect.mem_cases
    (h : RecordEffect snapshot peer endpoint observed expires route existingOnly live after)
    (member : ⟨key, hint⟩ ∈ after.entries) :
    ⟨key, hint⟩ ∈ live.entries ∧ (endpoint = none → currentInSnapshot snapshot route = true →
      key.1 = peer → observed < hint.observed) ∨
    ∃ address, endpoint = some address ∧ key = (peer, address) ∧
      hint = { expires, observed, route } := by
  have addressed {address : SocketAddrV4} (here : endpoint = some address) {P : Prop}
      (none : endpoint = none) : P := by
    rw [here] at none
    cases none
  cases h with
  | kept idle =>
    refine .inl ⟨member, fun none current _ => ?_⟩
    rw [idle none] at current
    cases current
  | withdrawn none =>
    obtain ⟨old, keeps⟩ := Bindings.mem_retain.mp member
    refine .inl ⟨old, fun _ _ same => ?_⟩
    simpa [same] using keeps
  | ended address here =>
    exact .inl ⟨(Bindings.mem_erase_entries.mp member).2, addressed here⟩
  | refreshed address here present newer =>
    rcases Bindings.mem_insert_entries.mp member with ⟨rfl, rfl⟩ | ⟨-, old⟩
    · exact .inr ⟨address, here, rfl, rfl⟩
    · exact .inl ⟨old, addressed here⟩
  | inserted address here absent adds =>
    rcases Bindings.mem_insert_entries.mp member with ⟨rfl, rfl⟩ | ⟨-, old⟩
    · exact .inr ⟨address, here, rfl, rfl⟩
    · exact .inl ⟨mem_of_mem_makeRoom old, addressed here⟩

theorem RecordEffect.observed_le
    (h : RecordEffect snapshot peer endpoint observed expires route existingOnly live after)
    {old new : RouteHint} (before : ⟨key, old⟩ ∈ live.entries) (now : ⟨key, new⟩ ∈ after.entries) :
    old.observed ≤ new.observed := by
  have same (now : ⟨key, new⟩ ∈ live.entries) : old.observed ≤ new.observed :=
    (congrArg RouteHint.observed (Bindings.value_eq before now)).le
  cases h with
  | kept => exact same now
  | withdrawn => exact same (Bindings.mem_retain.mp now).1
  | ended => exact same (Bindings.mem_erase_entries.mp now).2
  | refreshed address here present newer =>
    rcases Bindings.mem_insert_entries.mp now with ⟨rfl, rfl⟩ | ⟨-, now⟩
    · exact newer old before
    · exact same now
  | inserted address here absent adds =>
    rcases Bindings.mem_insert_entries.mp now with ⟨rfl, rfl⟩ | ⟨-, now⟩
    · exact absurd (mem_iff_exists.mpr ⟨old, before⟩) absent
    · exact same (mem_of_mem_makeRoom now)

theorem RecordEffect.refresh_keeps {address : SocketAddrV4}
    (h : RecordEffect snapshot peer (some address) observed expires route existingOnly live after)
    (present : (peer, address) ∈ live) (different : other ≠ (peer, address)) :
    ⟨other, hint⟩ ∈ after.entries ↔ ⟨other, hint⟩ ∈ live.entries := by
  cases h with
  | kept => exact .rfl
  | withdrawn none => cases none
  | ended address here =>
    cases here
    simp [Bindings.mem_erase_entries, different]
  | refreshed address here present newer =>
    cases here
    rw [Bindings.mem_insert_entries]
    simp [different]
  | inserted address here absent adds =>
    cases here
    exact absurd present absent

/-- All the live hints are kept, or all but one: the first of the node to expire where the node is
at its limit, else the first of all, where the cache is full. -/
def EvictsAtMostOne (peer : NodeId) (live after : MeasurementRouteMap) : Prop :=
  (∀ key hint, ⟨key, hint⟩ ∈ live.entries → ⟨key, hint⟩ ∈ after.entries) ∨
  ∃ victim,
    (∀ key hint, ⟨key, hint⟩ ∈ live.entries → (⟨key, hint⟩ ∈ after.entries ↔ key ≠ victim)) ∧
    if countOf peer live < maxRoutesPerPeer then
      maxMeasurementRoutes ≤ live.entries.length ∧ FirstToExpire (fun _ => true) live victim
    else FirstToExpire (fun key => key.1 = peer) live victim

theorem RecordEffect.evicts {address : SocketAddrV4}
    (h : RecordEffect snapshot peer (some address) observed expires route existingOnly live after)
    (bounded : Bounded live) (absent : (peer, address) ∉ live) :
    EvictsAtMostOne peer live after := by
  have different {key : NodeId × SocketAddrV4} {hint : RouteHint}
      (bound : ⟨key, hint⟩ ∈ live.entries) : key ≠ (peer, address) := by
    rintro rfl
    exact absent (mem_iff_exists.mpr ⟨hint, bound⟩)
  cases h with
  | kept => exact .inl fun _ _ bound => bound
  | withdrawn none => cases none
  | ended address here =>
    cases here
    exact .inl fun key hint bound => Bindings.mem_erase_entries.mpr ⟨different bound, bound⟩
  | refreshed address here present newer =>
    cases here
    exact absurd present absent
  | inserted address here absent adds =>
    cases here
    rcases makeRoom_cases bounded peer with ⟨-, -, same⟩ | ⟨victim, same, first⟩
    · rw [same]
      exact .inl fun key hint bound =>
        Bindings.mem_insert_entries.mpr (.inr ⟨different bound, bound⟩)
    · rw [same]
      refine .inr ⟨victim, fun key hint bound => ?_, first⟩
      rw [Bindings.mem_insert_entries, Bindings.mem_erase_entries]
      simp [different bound, bound]

end Record

end MeasurementRoutes

namespace RouteOp

open MeasurementRoutes

variable {routes : MeasurementRouteMap} {key : NodeId × SocketAddrV4} {hint : RouteHint}

theorem bounded_step (op : RouteOp) (h : Bounded routes) : Bounded (op.step routes) := by
  cases op with
  | record now snapshot peer endpoint observed expires route existingOnly =>
    exact (record_effect routes).bounded (h.sweep now snapshot)
  | withdraw peer received => exact h.withdraw peer received
  | sweep now snapshot => exact h.sweep now snapshot
  | resolve now snapshot peer endpoint =>
    cases endpoint with
    | none => exact h
    | some address => exact h.sweep now snapshot
  | rehash order => exact h.of_perm (Bindings.rehash_perm order routes)

theorem bounded_run (ops : List RouteOp) : Bounded (run step ∅ ops) :=
  run_keeps (I := Bounded) (fun _ op h => bounded_step op h) ops
    ⟨Nat.zero_le _, fun _ => Nat.zero_le _⟩

theorem mem_of_mem_live {op : RouteOp} (member : ⟨key, hint⟩ ∈ (op.live routes).entries) :
    ⟨key, hint⟩ ∈ routes.entries := by
  cases op with
  | record => exact (Bindings.mem_retain.mp member).1
  | withdraw => exact member
  | sweep => exact (Bindings.mem_retain.mp member).1
  | resolve now snapshot peer endpoint =>
    cases endpoint with
    | none => exact member
    | some address => exact (Bindings.mem_retain.mp member).1
  | rehash => exact member

theorem step_resolve (now : Instant) (snapshot : TopologySnapshot) (peer : NodeId)
    (endpoint : Option SocketAddrV4) :
    (resolve now snapshot peer endpoint).step routes =
      (resolve now snapshot peer endpoint).live routes := by
  cases endpoint <;> rfl

theorem mem_step_cases {op : RouteOp} (member : ⟨key, hint⟩ ∈ (op.step routes).entries) :
    ⟨key, hint⟩ ∈ routes.entries ∧
      (∀ received, op.withdraws key.1 = some received → received < hint.observed) ∨
    ∃ now snapshot existingOnly,
      op = .record now snapshot key.1 (some key.2) hint.observed hint.expires hint.route
        existingOnly := by
  cases op with
  | record now snapshot peer endpoint observed expires route existingOnly =>
    rcases (record_effect routes).mem_cases member with ⟨old, stays⟩ | ⟨address, rfl, rfl, rfl⟩
    · refine .inl ⟨(Bindings.mem_retain.mp old).1, fun received withdrawn => ?_⟩
      cases endpoint with
      | some address => cases withdrawn
      | none =>
        simp only [withdraws, Option.ite_none_right_eq_some, Bool.and_eq_true, decide_eq_true_eq,
          Option.some.injEq] at withdrawn
        obtain ⟨⟨rfl, current⟩, rfl⟩ := withdrawn
        exact stays rfl current rfl
    · exact .inr ⟨now, snapshot, existingOnly, rfl⟩
  | withdraw peer received =>
    obtain ⟨old, keeps⟩ := Bindings.mem_retain.mp member
    refine .inl ⟨old, fun other withdrawn => ?_⟩
    simp only [withdraws, Option.ite_none_right_eq_some, Option.some.injEq] at withdrawn
    obtain ⟨rfl, rfl⟩ := withdrawn
    simpa using keeps
  | sweep now snapshot =>
    exact .inl ⟨(Bindings.mem_retain.mp member).1, fun _ none => nomatch none⟩
  | resolve now snapshot peer endpoint =>
    rw [step_resolve] at member
    exact .inl ⟨mem_of_mem_live member, fun _ none => nomatch none⟩
  | rehash order =>
    exact .inl ⟨(Bindings.rehash_perm order routes).mem_iff.mp member, fun _ none => nomatch none⟩

def Recorded (ops : List RouteOp) (key : NodeId × SocketAddrV4) (hint : RouteHint) : Prop :=
  ∃ earlier later now snapshot existingOnly,
    ops = earlier ++ .record now snapshot key.1 (some key.2) hint.observed hint.expires hint.route
      existingOnly :: later ∧
    ∀ op ∈ later, ∀ received, op.withdraws key.1 = some received → received < hint.observed

theorem recorded_run (ops : List RouteOp) (member : ⟨key, hint⟩ ∈ (run step ∅ ops).entries) :
    Recorded ops key hint := by
  induction ops using List.reverseRecOn with
  | nil => cases member
  | append_singleton ops op ih =>
    rw [run_append] at member
    rcases mem_step_cases member with ⟨old, stays⟩ | ⟨now, snapshot, existingOnly, rfl⟩
    · obtain ⟨earlier, later, now, snapshot, existingOnly, rfl, kept⟩ := ih old
      refine ⟨earlier, later ++ [op], now, snapshot, existingOnly, by simp, fun other among => ?_⟩
      rcases List.mem_append.mp among with before | last
      · exact kept other before
      · rw [List.mem_singleton.mp last]
        exact stays
    · exact ⟨ops, [], now, snapshot, existingOnly, rfl, List.forall_mem_nil _⟩

theorem observed_le_step {op : RouteOp} {old new : RouteHint}
    (before : ⟨key, old⟩ ∈ (op.live routes).entries)
    (after : ⟨key, new⟩ ∈ (op.step routes).entries) : old.observed ≤ new.observed := by
  have same (after : ⟨key, new⟩ ∈ routes.entries) : old.observed ≤ new.observed :=
    (congrArg RouteHint.observed (Bindings.value_eq (mem_of_mem_live before) after)).le
  cases op with
  | record => exact (record_effect routes).observed_le before after
  | withdraw => exact same (Bindings.mem_retain.mp after).1
  | sweep => exact same (Bindings.mem_retain.mp after).1
  | resolve now snapshot peer endpoint =>
    rw [step_resolve] at after
    exact same (mem_of_mem_live after)
  | rehash order => exact same ((Bindings.rehash_perm order routes).mem_iff.mp after)

theorem observed_le_run {ops : List RouteOp} {old new : RouteHint}
    (stays : Along step (fun routes op => key ∈ op.live routes ∧ key ∈ op.step routes) routes ops)
    (before : ⟨key, old⟩ ∈ routes.entries) (after : ⟨key, new⟩ ∈ (run step routes ops).entries) :
    old.observed ≤ new.observed := by
  induction ops generalizing routes old with
  | nil => exact (congrArg RouteHint.observed (Bindings.value_eq before after)).le
  | cons op ops ih =>
    obtain ⟨⟨live, there⟩, later⟩ := stays
    obtain ⟨held, bound⟩ := mem_iff_exists.mp live
    obtain ⟨next, written⟩ := mem_iff_exists.mp there
    rw [Bindings.value_eq before (mem_of_mem_live bound)]
    exact (observed_le_step bound written).trans (ih later written after)

theorem resolve_recorded {ops : List RouteOp} {now : Instant} {snapshot : TopologySnapshot}
    {peer : NodeId} {endpoint : Option SocketAddrV4} {route : MeasurementRoute}
    (found : (MeasurementRoutes.resolve now snapshot peer endpoint (run step ∅ ops)).2 =
      some route) :
    ∃ address hint, endpoint = some address ∧ hint.route = route ∧ now < hint.expires ∧
      currentInSnapshot snapshot route = true ∧ Recorded ops (peer, address) hint := by
  cases endpoint with
  | none => cases found
  | some address =>
    obtain ⟨hint, bound, rfl⟩ := Option.map_eq_some_iff.mp found
    obtain ⟨recorded, fresh⟩ := Bindings.mem_retain.mp (Bindings.mem_of_lookup bound)
    rw [Bool.and_eq_true, decide_eq_true_eq] at fresh
    exact ⟨address, hint, rfl, rfl, fresh.1, fresh.2, recorded_run ops recorded⟩

/-- After any calls, whatever the clock and the leases read in each: the limits hold, only the
insertion of a key evicts, and at most one live hint, the observation of a key that stays is never
older, and a lookup fails closed. -/
theorem routes_bounded_and_ordered (ops : List RouteOp) :
    let routes := run step ∅ ops
    (routes.entries.length ≤ maxMeasurementRoutes ∧
      ∀ node, countOf node routes ≤ maxRoutesPerPeer) ∧
    (∀ now snapshot peer address observed expires route existingOnly,
      let live := MeasurementRoutes.sweep now snapshot routes
      let after := recordReceived now snapshot peer (some address) observed expires route
        existingOnly routes
      ((peer, address) ∈ live → ∀ key hint, key ≠ (peer, address) →
        (⟨key, hint⟩ ∈ after.entries ↔ ⟨key, hint⟩ ∈ live.entries)) ∧
      ((peer, address) ∉ live → EvictsAtMostOne peer live after)) ∧
    (∀ now snapshot peer endpoint observed expires route,
      ∀ key ∈ recordReceived now snapshot peer endpoint observed expires route true routes,
        key ∈ MeasurementRoutes.sweep now snapshot routes) ∧
    (∀ later key old new,
      Along step (fun routes op => key ∈ op.live routes ∧ key ∈ op.step routes) routes later →
      ⟨key, old⟩ ∈ routes.entries → ⟨key, new⟩ ∈ (run step routes later).entries →
        old.observed ≤ new.observed) ∧
    ∀ now snapshot peer endpoint route,
      (MeasurementRoutes.resolve now snapshot peer endpoint routes).2 = some route →
        ∃ address hint, endpoint = some address ∧ hint.route = route ∧ now < hint.expires ∧
          currentInSnapshot snapshot route = true ∧ Recorded ops (peer, address) hint := by
  intro routes
  have bounded : Bounded routes := bounded_run ops
  refine ⟨⟨bounded.total, bounded.node⟩, ?_, ?_, ?_, ?_⟩
  · intro now snapshot peer address observed expires route existingOnly live after
    have effect : RecordEffect snapshot peer (some address) observed expires route existingOnly live
        after := record_effect routes
    exact ⟨fun present key hint different => effect.refresh_keeps present different,
      effect.evicts (bounded.sweep now snapshot)⟩
  · intro now snapshot peer endpoint observed expires route key member
    exact (record_effect routes).mem_of_existingOnly member
  · exact fun later key old new stays before after => observed_le_run stays before after
  · exact fun now snapshot peer endpoint route found => resolve_recorded found

theorem expired_hint_goes_back :
    let node : NodeId := ⟨.replicate 8 3⟩
    let key : NodeId × SocketAddrV4 := (node, ⟨1, 20808⟩)
    let route : MeasurementRoute := ⟨⟨⟨1, 1, "en0"⟩, 0, 0⟩, some 0⟩
    let snapshot : TopologySnapshot := ⟨[], fun _ => some 0⟩
    let first := RouteOp.record 10 snapshot node (some key.2) 10 11 route false
    let later := RouteOp.record 20 snapshot node (some key.2) 5 25 route false
    let routes := run step ∅ [first]
    ∃ old new, Along step (fun routes op => key ∈ routes ∧ key ∈ op.step routes) routes [later] ∧
      ⟨key, old⟩ ∈ routes.entries ∧ ⟨key, new⟩ ∈ (run step routes [later]).entries ∧
      ¬ old.observed ≤ new.observed := by
  intro node key route snapshot first later routes
  refine ⟨⟨11, 10, route⟩, ⟨25, 5, route⟩, ⟨⟨?_, ?_⟩, trivial⟩, ?_, ?_, ?_⟩ <;> decide +kernel

theorem routes_bounded_and_ordered_withdrawn :
    let node : NodeId := ⟨.replicate 8 3⟩
    let route : MeasurementRoute := ⟨⟨⟨1, 1, "en0"⟩, 0, 0⟩, some 0⟩
    let snapshot : TopologySnapshot := ⟨[], fun _ => some 0⟩
    let record := fun observed address => RouteOp.record observed snapshot node
      (some ⟨address, 20808⟩) observed (observed + 5) route false
    let ops := [record 0 1, record 1 2, .withdraw node 0]
    let routes := run step ∅ ops
    (MeasurementRoutes.resolve 2 snapshot node (some ⟨1, 20808⟩) routes).2 = none ∧
      ∃ address hint, some (⟨2, 20808⟩ : SocketAddrV4) = some address ∧ hint.route = route ∧
        2 < hint.expires ∧ currentInSnapshot snapshot route = true ∧
        Recorded ops (node, address) hint := by
  intro node route snapshot record ops routes
  obtain ⟨-, -, -, -, closed⟩ := routes_bounded_and_ordered ops
  exact ⟨by decide +kernel, closed 2 snapshot node (some ⟨2, 20808⟩) route (by decide +kernel)⟩

end RouteOp

end AbletonLink.Discovery
