import AbletonLink.Library.Turns
import AbletonLink.Link.Sessions

/-! The peers of a session take turns at being measured. -/

namespace AbletonLink.Link

open Library

namespace NodeId

variable {a b c : NodeId}

theorem lt_iff : a.lt b = true ↔ a.bytes.toList < b.bytes.toList := decide_eq_true_iff

theorem lt_eq_false_iff : a.lt b = false ↔ b.bytes.toList ≤ a.bytes.toList := by
  rw [← Bool.not_eq_true, lt_iff]
  exact Iff.rfl

theorem lt_asymm (h : a.lt b = true) : b.lt a = false :=
  lt_eq_false_iff.mpr (List.le_of_lt (lt_iff.mp h))

theorem not_lt_trans (h : b.lt a = false) (h' : c.lt b = false) : c.lt a = false :=
  lt_eq_false_iff.mpr (List.le_trans (lt_eq_false_iff.mp h) (lt_eq_false_iff.mp h'))

theorem eq_of_not_lt (h : a.lt b = false) (h' : b.lt a = false) : a = b := by
  have same := List.le_antisymm (lt_eq_false_iff.mp h') (lt_eq_false_iff.mp h)
  cases a
  cases b
  simpa [Vector.toList_inj] using same

end NodeId

section Order

variable {leader : NodeId} {a b : ControllerPeer}

theorem measurementOrder_iff :
    measurementOrder leader a b = true ↔
      (a.peerState.ident = leader ∧ b.peerState.ident ≠ leader) ∨
      (a.peerState.ident = leader ↔ b.peerState.ident = leader) ∧
        b.peerState.ident.lt a.peerState.ident = false := by
  unfold measurementOrder
  by_cases fa : a.peerState.ident = leader <;> by_cases fb : b.peerState.ident = leader <;>
    simp [fa, fb]

instance : Std.Total fun a b => measurementOrder leader a b = true where
  total a b := by
    rw [measurementOrder_iff, measurementOrder_iff]
    cases below : b.peerState.ident.lt a.peerState.ident with
    | false => tauto
    | true =>
      have above := NodeId.lt_asymm below
      tauto

instance : IsTrans ControllerPeer fun a b => measurementOrder leader a b = true where
  trans a b c hab hbc := by
    rw [measurementOrder_iff] at *
    have chain := @NodeId.not_lt_trans a.peerState.ident b.peerState.ident c.peerState.ident
    tauto

theorem ident_eq_of_measurementOrder (hab : measurementOrder leader a b = true)
    (hba : measurementOrder leader b a = true) : a.peerState.ident = b.peerState.ident := by
  rw [measurementOrder_iff] at hab hba
  have same := @NodeId.eq_of_not_lt a.peerState.ident b.peerState.ident
  tauto

end Order

/-- A peer of the session, and one with an endpoint if the session has such a peer. -/
def Eligible (peers : List ControllerPeer) (session : SessionId) (peer : ControllerPeer) : Prop :=
  peer.peerState.sessionId = session ∧
    ((∃ other ∈ peers, other.peerState.sessionId = session ∧
        other.peerState.measurementEndpoint.isSome = true) →
      peer.peerState.measurementEndpoint.isSome = true)

instance (peers : List ControllerPeer) (session : SessionId) (peer : ControllerPeer) :
    Decidable (Eligible peers session peer) :=
  inferInstanceAs (Decidable (_ ∧ (_ → _)))

def eligiblePeers (peers : List ControllerPeer) (session : SessionId) : List ControllerPeer :=
  peers.filter fun peer => Eligible peers session peer

def measurementTurns (peers : List ControllerPeer) (session : SessionId) : List ControllerPeer :=
  (eligiblePeers peers session).insertionSort fun a b => measurementOrder session.node a b = true

/-- The peers measured when each request follows the one before. -/
def measuredPeers (peers : List ControllerPeer) (session : SessionId) (after : Option NodeId) :
    Nat → Option ControllerPeer
  | 0 => measurementPeer peers session after
  | k + 1 => measurementPeer peers session
      ((measuredPeers peers session after k).map fun peer => peer.peerState.ident)

section Peers

variable (peers : List ControllerPeer) (session : SessionId)

theorem measurementPeer_eq_turn (after : Option NodeId) :
    measurementPeer peers session after =
      turn (fun peer => peer.peerState.ident) (measurementTurns peers session) after := by
  have eligible : eligiblePeers peers session =
      let eligible := peers.filter fun peer => peer.peerState.sessionId = session
      if eligible.any fun peer => peer.peerState.measurementEndpoint.isSome then
        eligible.filter fun peer => peer.peerState.measurementEndpoint.isSome
      else eligible := by
    unfold eligiblePeers
    dsimp only
    split
    · rename_i endpoint
      rw [List.filter_filter]
      simp only [List.any_filter, List.any_eq_true, decide_eq_true_eq, Bool.and_eq_true] at endpoint
      refine List.filter_congr fun peer _ => ?_
      rw [Bool.eq_iff_iff, decide_eq_true_iff, Bool.and_eq_true, decide_eq_true_iff]
      exact ⟨fun ⟨own, reach⟩ => ⟨reach endpoint, own⟩, fun ⟨reach, own⟩ => ⟨own, fun _ => reach⟩⟩
    · rename_i none
      simp only [List.any_filter, List.any_eq_true, decide_eq_true_eq, Bool.and_eq_true] at none
      refine List.filter_congr fun peer _ => ?_
      rw [decide_eq_decide]
      exact ⟨And.left, fun own => ⟨own, fun some => absurd some none⟩⟩
  unfold measurementPeer turn turnIndex measurementTurns
  exact eligible ▸ rfl

variable (after : Option NodeId)

theorem measuredPeers_eq_turns :
    measuredPeers peers session after =
      turns (fun peer => peer.peerState.ident) (measurementTurns peers session) after := by
  funext k
  induction k with
  | zero => exact measurementPeer_eq_turn peers session after
  | succ k ih => rw [measuredPeers, ih, measurementPeer_eq_turn, turns]

theorem mem_eligiblePeers {peer : ControllerPeer} :
    peer ∈ eligiblePeers peers session ↔ peer ∈ peers ∧ Eligible peers session peer := by
  simp [eligiblePeers]

theorem measurementTurns_perm :
    (measurementTurns peers session).Perm (eligiblePeers peers session) :=
  List.perm_insertionSort _ _

theorem measurementTurns_sorted : (measurementTurns peers session).Pairwise fun a b =>
    measurementOrder session.node a b = true :=
  List.pairwise_insertionSort _ _

theorem measurementTurns_eq_nil_iff :
    measurementTurns peers session = [] ↔ ∀ peer ∈ peers, peer.peerState.sessionId ≠ session := by
  rw [← List.length_eq_zero_iff, (measurementTurns_perm peers session).length_eq,
    List.length_eq_zero_iff, List.eq_nil_iff_forall_not_mem]
  simp only [mem_eligiblePeers, Eligible]
  constructor
  · intro none peer inside own
    by_cases endpoint : ∃ other ∈ peers, other.peerState.sessionId = session ∧
        other.peerState.measurementEndpoint.isSome = true
    · obtain ⟨other, inside, own, some⟩ := endpoint
      exact none other ⟨inside, own, fun _ => some⟩
    · exact none peer ⟨inside, own, fun some => absurd some endpoint⟩
  · intro foreign peer ⟨inside, own, _⟩
    exact foreign peer inside own

theorem eligible_of_perm {others : List ControllerPeer} (same : others.Perm peers)
    (peer : ControllerPeer) : Eligible others session peer ↔ Eligible peers session peer := by
  unfold Eligible
  simp only [same.mem_iff]

variable (unique : (peers.map fun peer => peer.peerState.ident).Nodup)

include unique

theorem distinct_measurementTurns :
    ((measurementTurns peers session).map fun peer => peer.peerState.ident).Nodup := by
  have permuted := (measurementTurns_perm peers session).map fun peer => peer.peerState.ident
  rw [permuted.nodup_iff]
  exact unique.sublist (List.filter_sublist.map _)

theorem eq_of_ident {a b : ControllerPeer} (ha : a ∈ peers) (hb : b ∈ peers)
    (same : a.peerState.ident = b.peerState.ident) : a = b :=
  List.inj_on_of_nodup_map unique ha hb same

theorem measurementTurns_of_perm {others : List ControllerPeer} (same : others.Perm peers) :
    measurementTurns others session = measurementTurns peers session := by
  have eligible : (eligiblePeers others session).Perm (eligiblePeers peers session) := by
    unfold eligiblePeers
    simp only [eligible_of_perm peers session same]
    exact same.filter _
  refine List.Perm.eq_of_pairwise ?_ (measurementTurns_sorted others session)
    (measurementTurns_sorted peers session) ?_
  · intro a b ha hb hab hba
    rw [(measurementTurns_perm _ _).mem_iff, mem_eligiblePeers] at ha hb
    exact eq_of_ident peers unique (same.mem_iff.mp ha.1) hb.1
      (ident_eq_of_measurementOrder hab hba)
  · exact (measurementTurns_perm others session).trans
      (eligible.trans (measurementTurns_perm peers session).symm)

theorem measurementPeer_none_iff (peer : ControllerPeer) :
    measurementPeer peers session none = some peer ↔
      peer ∈ eligiblePeers peers session ∧
        (peer.peerState.ident = session.node ∨
          ∀ other ∈ eligiblePeers peers session, other.peerState.ident ≠ session.node ∧
            (other ≠ peer → peer.peerState.ident.lt other.peerState.ident = true)) := by
  have members (other : ControllerPeer) :=
    (measurementTurns_perm peers session).mem_iff (a := other)
  have same {a b : ControllerPeer} (ha : a ∈ eligiblePeers peers session)
      (hb : b ∈ eligiblePeers peers session) :=
    eq_of_ident peers unique ((mem_eligiblePeers peers session).mp ha).1
      ((mem_eligiblePeers peers session).mp hb).1
  have sorted := measurementTurns_sorted peers session
  rw [measurementPeer_eq_turn, turn_none]
  cases turns : measurementTurns peers session with
  | nil =>
    rw [turns] at members
    simp [← members]
  | cons first rest =>
    rw [turns] at members sorted
    simp only [← members] at same ⊢
    have first_le := (List.pairwise_cons.mp sorted).1
    rw [List.head?_cons, Option.some_inj]
    constructor
    · rintro rfl
      refine ⟨List.mem_cons_self, or_iff_not_imp_left.mpr fun foreign other inside => ?_⟩
      obtain rfl | later := List.mem_cons.mp inside
      · exact ⟨foreign, fun apart => absurd rfl apart⟩
      · have order := first_le other later
        rw [measurementOrder_iff] at order
        refine ⟨by tauto, fun apart => ?_⟩
        by_contra notBelow
        exact apart (same inside List.mem_cons_self
          (NodeId.eq_of_not_lt (by tauto) (Bool.not_eq_true _ ▸ notBelow)))
    · rintro ⟨inside, least⟩
      obtain rfl | later := List.mem_cons.mp inside
      · rfl
      · have order := first_le peer later
        rw [measurementOrder_iff] at order
        obtain founder | least := least
        · have leader : first.peerState.ident = session.node := by tauto
          exact same List.mem_cons_self inside (leader.trans founder.symm)
        · obtain ⟨foreign, below⟩ := least first List.mem_cons_self
          by_contra apart
          have below := below apart
          simp [foreign, below] at order

end Peers

/-- The measurement of a session's peers goes around: it does not depend on the order of the
registry, is missing only without a peer, asks one with an endpoint if there is one, starts with
the founder or the least identity, and asks every eligible peer once in as many requests as there
are. -/
theorem measurementPeer_rotates (peers : List ControllerPeer)
    (unique : (peers.map fun peer => peer.peerState.ident).Nodup) (session : SessionId) :
    (∀ others, others.Perm peers → ∀ after,
      measurementPeer others session after = measurementPeer peers session after) ∧
    (∀ after, measurementPeer peers session after = none ↔
      ∀ peer ∈ peers, peer.peerState.sessionId ≠ session) ∧
    (∀ after peer, measurementPeer peers session after = some peer →
      peer ∈ peers ∧ peer.peerState.sessionId = session ∧
        ((∃ other ∈ peers, other.peerState.sessionId = session ∧
            other.peerState.measurementEndpoint.isSome = true) →
          peer.peerState.measurementEndpoint.isSome = true)) ∧
    (∀ peer, measurementPeer peers session none = some peer ↔
      peer ∈ eligiblePeers peers session ∧
        (peer.peerState.ident = session.node ∨
          ∀ other ∈ eligiblePeers peers session, other.peerState.ident ≠ session.node ∧
            (other ≠ peer → peer.peerState.ident.lt other.peerState.ident = true))) ∧
    (∀ after m, ((List.range (eligiblePeers peers session).length).map fun k =>
      measuredPeers peers session after (m + k)).Perm
        ((eligiblePeers peers session).map some)) := by
  refine ⟨?_, ?_, ?_, measurementPeer_none_iff peers session unique, ?_⟩
  · intro others same after
    rw [measurementPeer_eq_turn, measurementPeer_eq_turn,
      measurementTurns_of_perm peers session unique same]
  · intro after
    rw [measurementPeer_eq_turn, turn_eq_none_iff, measurementTurns_eq_nil_iff]
  · intro after peer found
    rw [measurementPeer_eq_turn] at found
    have inside := turn_mem _ _ found
    rw [(measurementTurns_perm peers session).mem_iff, mem_eligiblePeers] at inside
    exact inside
  · intro after m
    have permuted := measurementTurns_perm peers session
    rw [measuredPeers_eq_turns, ← permuted.length_eq]
    exact (turns_perm (distinct_measurementTurns peers session unique) after m).trans
      (permuted.map some)

theorem measurementPeer_rotates_three :
    let node (n : UInt8) : NodeId := ⟨Vector.replicate 8 n⟩
    let peer (n : UInt8) (endpoint : Option SocketAddrV4) : ControllerPeer :=
      ⟨⟨⟨node n, ⟨node 1⟩, default, default⟩, endpoint, none⟩⟩
    let peers := [peer 3 (some ⟨3, 20808⟩), peer 1 none, peer 2 (some ⟨2, 20808⟩)]
    measurementPeer peers ⟨node 1⟩ none = some (peer 2 (some ⟨2, 20808⟩)) ∧
      [measuredPeers peers ⟨node 1⟩ (some (node 2)) 5, measuredPeers peers ⟨node 1⟩
        (some (node 2)) 6].Perm [some (peer 3 (some ⟨3, 20808⟩)),
          some (peer 2 (some ⟨2, 20808⟩))] := by
  intro node peer peers
  obtain ⟨-, -, -, first, visits⟩ := measurementPeer_rotates peers (by decide) ⟨node 1⟩
  exact ⟨(first _).mpr (by decide), visits (some (node 2)) 5⟩

end AbletonLink.Link
