import AbletonLink.Discovery.Interfaces
import AbletonLink.Library.FirstMatch

/-! The interface registry is a set of registrations: what a call adds to it and what it takes out,
and whose memberships and tokens follow. -/

namespace AbletonLink.Discovery

open Library Library.Run

section RegistrationsOf

variable {sockets : Bindings UInt32 InterfaceSocket} {addr : UInt32} {group other : InterfaceSocket}

theorem registrationsOf_perm (found : sockets.lookup addr = some group) :
    (registrationsOf sockets).Perm (group.registrations ++ registrationsOf (sockets.erase addr)) :=
  (Bindings.perm_erase found).flatMap_right _

theorem registrationsOf_insert :
    registrationsOf (sockets.insert addr group) =
      group.registrations ++ registrationsOf (sockets.erase addr) := rfl

theorem registrationsOf_insert_erase :
    registrationsOf ((sockets.erase addr).insert addr group) =
      group.registrations ++ registrationsOf (sockets.erase addr) := by
  rw [registrationsOf_insert, Bindings.erase_of_lookup_eq_none (AList.lookup_erase addr sockets)]

def Filed (sockets : Bindings UInt32 InterfaceSocket) : Prop :=
  ∀ addr group, ⟨addr, group⟩ ∈ sockets.entries → ∀ r ∈ group.registrations, r.identity.addr = addr

theorem Filed.erase (h : Filed sockets) (addr : UInt32) : Filed (sockets.erase addr) :=
  fun other group member => h other group (Bindings.mem_erase_entries.mp member).2

theorem Filed.insert (h : Filed (sockets.erase addr))
    (here : ∀ r ∈ group.registrations, r.identity.addr = addr) :
    Filed (sockets.insert addr group) := by
  intro other held member
  rw [AList.entries_insert, List.mem_cons] at member
  rcases member with same | old
  · cases same
    exact here
  · exact h other held old

theorem Filed.of_perm {order : Bindings UInt32 InterfaceSocket} (h : Filed sockets)
    (perm : order.entries.Perm sockets.entries) : Filed order :=
  fun addr group member => h addr group (perm.mem_iff.mp member)

theorem Filed.lookup (h : Filed sockets) {r : Registration} (member : r ∈ registrationsOf sockets) :
    ∃ group, sockets.lookup r.identity.addr = some group ∧ r ∈ group.registrations := by
  obtain ⟨⟨addr, group⟩, bound, here⟩ := List.mem_flatMap.mp member
  rw [h addr group bound r here]
  exact ⟨group, AList.mem_lookup_iff.mpr bound, here⟩

end RegistrationsOf

namespace Interfaces

variable {self after : Interfaces} {entry : Registration}

structure Added (before after : Interfaces) (entry : Registration) : Prop where
  fresh : entry.identity ∉ before.registrations.map Registration.identity
  registrations : after.registrations.Perm (entry :: before.registrations)
  filed : Filed before.sockets → Filed after.sockets
  memberships : after.memberships =
    if before.registrations.any fun other => other.identity.index = entry.identity.index then
      before.memberships
    else entry.identity.index :: before.memberships
  cancelled : after.cancelled = before.cancelled
  token : entry.cancel = before.tokens
  tokens : after.tokens = before.tokens + 1

/-- A call has taken the entry out and cancelled it. -/
structure Removed (before after : Interfaces) (entry : Registration) : Prop where
  registrations : before.registrations.Perm (entry :: after.registrations)
  filed : Filed after.sockets
  memberships : after.memberships =
    if after.registrations.any fun other => other.identity.index = entry.identity.index then
      before.memberships
    else before.memberships.filter fun joined => joined ≠ entry.identity.index
  cancelled : after.cancelled = entry.cancel :: before.cancelled
  tokens : after.tokens = before.tokens

/-- A call has changed no registration. -/
structure Kept (before after : Interfaces) : Prop where
  registrations : after.registrations.Perm before.registrations
  filed : Filed before.sockets → Filed after.sockets
  memberships : after.memberships = before.memberships
  cancelled : after.cancelled = before.cancelled
  tokens : before.tokens ≤ after.tokens

theorem perm_file (self : Interfaces) (entry : Registration) :
    (self.file entry).registrations.Perm (entry :: self.registrations) := by
  unfold file
  cases found : self.sockets.lookup entry.identity.addr with
  | some group =>
    have split := (registrationsOf_perm found).symm.cons entry
    refine List.Perm.trans ?_ split
    change (group.root :: (group.siblings ++ [entry]) ++ _).Perm _
    rw [List.cons_append, List.append_assoc]
    exact @List.perm_middle _ entry (group.root :: group.siblings) _
  | none =>
    change (entry :: registrationsOf (self.sockets.erase entry.identity.addr)).Perm _
    rw [Bindings.erase_of_lookup_eq_none found]
    rfl

theorem filed_file (h : Filed self.sockets) (entry : Registration) :
    Filed (self.file entry).sockets := by
  refine (h.erase entry.identity.addr).insert fun r member => ?_
  cases found : self.sockets.lookup entry.identity.addr with
  | some group =>
    rw [found] at member
    rcases List.mem_append.mp (show r ∈ group.registrations ++ [entry] from member) with old | new
    · exact h _ group (Bindings.mem_of_lookup found) r old
    · rw [List.mem_singleton.mp new]
  | none =>
    rw [found] at member
    rw [List.mem_singleton.mp (show r ∈ [entry] from member)]

theorem addInterface_cases (self : Interfaces) (identity : Ipv4Interface) (generation : UInt64)
    (setup : Setup) :
    (∃ entry, (self.addInterface identity generation setup).2 = .ok entry ∧
      entry.identity = identity ∧ entry.generation = generation ∧
      Added self (self.addInterface identity generation setup).1 entry) ∨
    (∃ error, (self.addInterface identity generation setup).2 = .error error ∧
      (self.addInterface identity generation setup).1.sockets = self.sockets ∧
      Kept self (self.addInterface identity generation setup).1) := by
  have kept (tokens : Nat) (later : self.tokens ≤ tokens) : Kept self { self with tokens } :=
    ⟨.refl _, id, rfl, rfl, later⟩
  unfold addInterface
  split
  · exact .inr ⟨.socket, rfl, rfl, kept _ (Nat.le_refl _)⟩
  · dsimp only
    split
    · exact .inr ⟨.alreadyExists, rfl, rfl, kept _ (Nat.le_succ _)⟩
    next unknown =>
      have fresh : identity ∉ self.registrations.map Registration.identity := by
        simpa [registrations, List.any_eq_true] using unknown
      split
      · exact .inr ⟨.topology, rfl, rfl, kept _ (Nat.le_succ _)⟩
      · exact .inr ⟨.notConnected, rfl, rfl, kept _ (Nat.le_succ _)⟩
      · split
        next known =>
          refine .inl ⟨_, rfl, rfl, rfl, fresh, perm_file .., fun h => filed_file h _, ?_, rfl, rfl,
            rfl⟩
          exact (if_pos known).symm
        next unjoined =>
          split
          · exact .inr ⟨.membership, rfl, rfl, kept _ (Nat.le_succ _)⟩
          · refine .inl ⟨_, rfl, rfl, rfl, fresh, perm_file .., fun h => filed_file h _, ?_, rfl,
              rfl, rfl⟩
            exact (if_neg unjoined).symm

theorem removed_insert {addr : UInt32} {group rest : InterfaceSocket} (filed : Filed self.sockets)
    (found : self.sockets.lookup addr = some group)
    (split : group.registrations.Perm (entry :: rest.registrations)) :
    Removed self (self.leave ((self.sockets.erase addr).insert addr rest) entry) entry where
  registrations := by
    change (registrationsOf self.sockets).Perm
      (entry :: registrationsOf ((self.sockets.erase addr).insert addr rest))
    rw [registrationsOf_insert_erase, ← List.cons_append]
    exact (registrationsOf_perm found).trans (split.append_right _)
  filed := by
    refine Filed.insert ((filed.erase addr).erase addr) fun r member => ?_
    exact filed addr group (Bindings.mem_of_lookup found) r
      (split.mem_iff.mpr (List.mem_cons_of_mem _ member))
  memberships := rfl
  cancelled := rfl
  tokens := rfl

theorem removeInterface_cases (filed : Filed self.sockets) (identity : Ipv4Interface) :
    (∃ entry, entry.identity = identity ∧
      Removed self (self.removeInterface identity) entry) ∨
    identity ∉ self.registrations.map Registration.identity ∧
      Kept self (self.removeInterface identity) := by
  have elsewhere (absent : ∀ group, self.sockets.lookup identity.addr = some group →
      ∀ r ∈ group.registrations, r.identity ≠ identity) :
      identity ∉ self.registrations.map Registration.identity := by
    intro member
    obtain ⟨r, registered, rfl⟩ := List.mem_map.mp member
    obtain ⟨group, found, here⟩ := filed.lookup registered
    exact absent group found r here rfl
  unfold removeInterface
  cases found : self.sockets.lookup identity.addr with
  | none =>
    refine .inr ⟨elsewhere fun group here => ?_, .refl _, id, rfl, rfl, Nat.le_refl _⟩
    rw [found] at here
    cases here
  | some group =>
    dsimp only
    split
    next root =>
      cases last : group.siblings.getLast? with
      | none =>
        have alone : group.siblings = [] := List.getLast?_eq_none_iff.mp last
        refine .inl ⟨group.root, root, ?_, filed.erase identity.addr, rfl, rfl, rfl⟩
        have split := registrationsOf_perm found
        rwa [InterfaceSocket.registrations, alone] at split
      | some replacement =>
        refine .inl ⟨group.root, root, removed_insert filed found (List.Perm.cons _ ?_)⟩
        have whole := List.dropLast_append_getLast? replacement last
        rw [← whole, List.dropLast_concat]
        exact List.perm_append_singleton ..
    next notRoot =>
      cases located : group.siblings.findIdx? fun entry => entry.identity = identity with
      | none =>
        refine .inr ⟨elsewhere fun other here r member => ?_, ?_, ?_, rfl, rfl, Nat.le_refl _⟩
        · rw [found] at here
          cases here
          rcases List.mem_cons.mp member with rfl | sibling
          · exact notRoot
          · simpa using List.findIdx?_eq_none_iff.mp located r sibling
        · let others := self.sockets.erase identity.addr
          change (registrationsOf (others.insert identity.addr group)).Perm
            (registrationsOf self.sockets)
          rw [registrationsOf_insert_erase]
          exact (registrationsOf_perm found).symm
        · exact fun _ => Filed.insert ((filed.erase identity.addr).erase identity.addr)
            (filed identity.addr group (Bindings.mem_of_lookup found))
      | some position =>
        obtain ⟨inside, same, -⟩ := List.findIdx?_eq_some_iff_getElem.mp located
        dsimp only
        rw [List.getElem?_eq_getElem inside]
        refine .inl ⟨group.siblings[position], by simpa using same,
          removed_insert filed found ?_⟩
        exact ((List.getElem_cons_eraseIdx_perm inside).symm.cons group.root).trans (.swap ..)

/-- The registrations are distinct and filed, the memberships are those of the registrations, and
no registration is cancelled. -/
structure WellFormed (registry : Interfaces) : Prop where
  identities : (registry.registrations.map Registration.identity).Nodup
  filed : Filed registry.sockets
  joined : ∀ index,
    index ∈ registry.memberships ↔ ∃ r ∈ registry.registrations, r.identity.index = index
  tokens : (registry.registrations.map Registration.cancel).Nodup
  issued : ∀ r ∈ registry.registrations, r.cancel < registry.tokens
  ended : ∀ token ∈ registry.cancelled, token < registry.tokens
  live : ∀ r ∈ registry.registrations, r.cancel ∉ registry.cancelled

theorem wellFormed_new : new.WellFormed where
  identities := List.nodup_nil
  filed := fun _ _ none => nomatch none
  joined := by simp [new, registrations, registrationsOf]
  tokens := List.nodup_nil
  issued := fun _ none => nomatch none
  ended := fun _ none => nomatch none
  live := fun _ none => nomatch none

theorem WellFormed.kept {self after : Interfaces} (h : self.WellFormed) (kept : Kept self after) :
    after.WellFormed where
  identities := ((kept.registrations.map _).nodup_iff).mpr h.identities
  filed := kept.filed h.filed
  joined index := by simp only [kept.memberships, h.joined, kept.registrations.mem_iff]
  tokens := ((kept.registrations.map _).nodup_iff).mpr h.tokens
  issued r member := (h.issued r (kept.registrations.mem_iff.mp member)).trans_le kept.tokens
  ended token member := by
    rw [kept.cancelled] at member
    exact (h.ended token member).trans_le kept.tokens
  live r member := by
    rw [kept.cancelled]
    exact h.live r (kept.registrations.mem_iff.mp member)

theorem WellFormed.added {self after : Interfaces} (h : self.WellFormed)
    (added : Added self after entry) : after.WellFormed where
  identities := by
    rw [(added.registrations.map _).nodup_iff]
    exact List.nodup_cons.mpr ⟨added.fresh, h.identities⟩
  filed := added.filed h.filed
  joined index := by
    simp only [added.registrations.mem_iff, List.exists_mem_cons_iff, ← h.joined]
    rw [added.memberships]
    split
    next known =>
      have joined : entry.identity.index ∈ self.memberships :=
        (h.joined _).mpr (by simpa [List.any_eq_true] using known)
      exact ⟨.inr, fun either => either.elim (fun same => same ▸ joined) id⟩
    next => rw [List.mem_cons, eq_comm]
  tokens := by
    rw [(added.registrations.map _).nodup_iff]
    refine List.nodup_cons.mpr ⟨fun member => ?_, h.tokens⟩
    obtain ⟨r, registered, same⟩ := List.mem_map.mp member
    have earlier := h.issued r registered
    rw [same, added.token] at earlier
    exact Nat.lt_irrefl _ earlier
  issued r member := by
    rw [added.tokens]
    rcases List.mem_cons.mp (added.registrations.mem_iff.mp member) with rfl | old
    · exact added.token ▸ Nat.lt_succ_self _
    · exact (h.issued r old).trans (Nat.lt_succ_self _)
  ended token member := by
    rw [added.tokens]
    rw [added.cancelled] at member
    exact (h.ended token member).trans (Nat.lt_succ_self _)
  live r member := by
    rw [added.cancelled]
    rcases List.mem_cons.mp (added.registrations.mem_iff.mp member) with rfl | old
    · intro ended
      have earlier := h.ended _ ended
      rw [added.token] at earlier
      exact Nat.lt_irrefl _ earlier
    · exact h.live r old

theorem WellFormed.removed {self after : Interfaces} (h : self.WellFormed)
    (removed : Removed self after entry) : after.WellFormed := by
  have before {r : Registration} (member : r ∈ after.registrations) : r ∈ self.registrations :=
    removed.registrations.mem_iff.mpr (List.mem_cons_of_mem _ member)
  have identities := ((removed.registrations.map Registration.identity).nodup_iff).mp h.identities
  have tokens := ((removed.registrations.map Registration.cancel).nodup_iff).mp h.tokens
  refine ⟨(List.nodup_cons.mp identities).2, removed.filed, fun index => ?_,
    (List.nodup_cons.mp tokens).2, fun r member => ?_, fun token member => ?_,
    fun r member ended => ?_⟩
  · have joined := h.joined index
    simp only [removed.registrations.mem_iff, List.exists_mem_cons_iff] at joined
    rw [removed.memberships]
    split
    next others =>
      rw [joined]
      refine ⟨fun either => either.elim (fun same => ?_) id, .inr⟩
      obtain rfl := same
      simpa [List.any_eq_true] using others
    next last =>
      have none_left : ¬∃ r ∈ after.registrations, r.identity.index = entry.identity.index := by
        simpa [List.any_eq_true] using last
      rw [List.mem_filter, joined]
      simp only [ne_eq, decide_eq_true_eq]
      constructor
      · rintro ⟨same | left, other⟩
        · exact absurd same.symm other
        · exact left
      · intro left
        exact ⟨.inr left, fun same => none_left (same ▸ left)⟩
  · rw [removed.tokens]
    exact h.issued r (before member)
  · rw [removed.tokens]
    rw [removed.cancelled, List.mem_cons] at member
    rcases member with rfl | old
    · exact h.issued entry (removed.registrations.mem_iff.mpr (List.mem_cons_self ..))
    · exact h.ended token old
  · rw [removed.cancelled, List.mem_cons] at ended
    rcases ended with same | old
    · exact (List.nodup_cons.mp tokens).1 (same ▸ List.mem_map_of_mem member)
    · exact h.live r (before member) old

section Reached

variable {self : Interfaces}

theorem WellFormed.addInterface (h : self.WellFormed) (identity : Ipv4Interface)
    (generation : UInt64) (setup : Setup) :
    (self.addInterface identity generation setup).1.WellFormed := by
  rcases addInterface_cases self identity generation setup with
    ⟨_, -, -, -, added⟩ | ⟨_, -, -, kept⟩
  · exact h.added added
  · exact h.kept kept

theorem WellFormed.removeInterface (h : self.WellFormed) (identity : Ipv4Interface) :
    (self.removeInterface identity).WellFormed := by
  rcases removeInterface_cases h.filed identity with ⟨_, -, removed⟩ | ⟨-, kept⟩
  · exact h.removed removed
  · exact h.kept kept

theorem mem_removeInterface (h : self.WellFormed) (identity : Ipv4Interface) (r : Registration) :
    r ∈ (self.removeInterface identity).registrations ↔
      r ∈ self.registrations ∧ r.identity ≠ identity := by
  rcases removeInterface_cases h.filed identity with ⟨entry, rfl, removed⟩ | ⟨absent, kept⟩
  · have identities := ((removed.registrations.map Registration.identity).nodup_iff).mp h.identities
    rw [removed.registrations.mem_iff, List.mem_cons]
    constructor
    · intro member
      exact ⟨.inr member, fun same =>
        (List.nodup_cons.mp identities).1 (List.mem_map.mpr ⟨r, member, same⟩)⟩
    · rintro ⟨rfl | member, other⟩
      · exact absurd rfl other
      · exact member
  · rw [kept.registrations.mem_iff]
    exact ⟨fun member => ⟨member, fun same => absent (same ▸ List.mem_map_of_mem member)⟩, And.left⟩

theorem cancelled_removeInterface (h : self.WellFormed) (identity : Ipv4Interface)
    {r : Registration} (member : r ∈ self.registrations) :
    r.cancel ∈ (self.removeInterface identity).cancelled ↔ r.identity = identity := by
  rcases removeInterface_cases h.filed identity with ⟨entry, rfl, removed⟩ | ⟨absent, kept⟩
  · have here : entry ∈ self.registrations :=
      removed.registrations.mem_iff.mpr (List.mem_cons_self ..)
    rw [removed.cancelled, List.mem_cons]
    constructor
    · rintro (same | ended)
      · exact congrArg Registration.identity (List.inj_on_of_nodup_map h.tokens member here same)
      · exact absurd ended (h.live r member)
    · intro same
      exact .inl (congrArg Registration.cancel
        (List.inj_on_of_nodup_map h.identities member here same))
  · rw [kept.cancelled]
    exact ⟨fun ended => absurd ended (h.live r member),
      fun same => absurd (same ▸ List.mem_map_of_mem member) absent⟩

theorem wellFormed_foldl_removeInterface (identities : List Ipv4Interface) (h : self.WellFormed) :
    (identities.foldl Interfaces.removeInterface self).WellFormed := by
  induction identities generalizing self with
  | nil => exact h
  | cons identity identities ih => exact ih (h.removeInterface identity)

theorem mem_foldl_removeInterface (identities : List Ipv4Interface) (h : self.WellFormed)
    (r : Registration) :
    r ∈ (identities.foldl Interfaces.removeInterface self).registrations ↔
      r ∈ self.registrations ∧ r.identity ∉ identities := by
  induction identities generalizing self with
  | nil => simp
  | cons identity identities ih =>
    rw [List.foldl_cons, ih (h.removeInterface identity), mem_removeInterface h]
    simp only [List.mem_cons, not_or, and_assoc]

end Reached

section AddInterfaces

variable {generation : UInt64} {identity : Ipv4Interface} {others : List Ipv4Interface}
  {setups : Nat → Setup} {self : Interfaces}

theorem fst_addInterfaces_cons :
    (addInterfaces generation (identity :: others) setups self).1 =
      (addInterfaces generation others (fun n => setups (n + 1))
        (self.addInterface identity generation (setups 0)).1).1 := by
  simp only [addInterfaces]
  split <;> rfl

theorem mem_failures_cons {failure : Ipv4Interface × AddError} :
    failure ∈ (addInterfaces generation (identity :: others) setups self).2 ↔
      failure.1 = identity ∧
        (self.addInterface identity generation (setups 0)).2 = .error failure.2 ∨
      failure ∈ (addInterfaces generation others (fun n => setups (n + 1))
        (self.addInterface identity generation (setups 0)).1).2 := by
  simp only [addInterfaces]
  cases added : (self.addInterface identity generation (setups 0)).2 with
  | ok entry => simp
  | error error => simp [Prod.ext_iff, eq_comm]

theorem wellFormed_addInterfaces (identities : List Ipv4Interface) (setups : Nat → Setup)
    (h : self.WellFormed) : (addInterfaces generation identities setups self).1.WellFormed := by
  induction identities generalizing self setups with
  | nil => exact h
  | cons identity identities ih =>
    rw [fst_addInterfaces_cons]
    exact ih _ (h.addInterface ..)

theorem mem_addInterface_of_mem {setup : Setup} {r : Registration}
    (member : r ∈ self.registrations) :
    r ∈ (self.addInterface identity generation setup).1.registrations := by
  rcases addInterface_cases self identity generation setup with
    ⟨_, -, -, -, added⟩ | ⟨_, -, -, kept⟩
  · exact added.registrations.mem_iff.mpr (List.mem_cons_of_mem _ member)
  · exact kept.registrations.mem_iff.mpr member

theorem mem_addInterfaces_of_mem {r : Registration} (identities : List Ipv4Interface)
    (member : r ∈ self.registrations) :
    r ∈ (addInterfaces generation identities setups self).1.registrations := by
  induction identities generalizing self setups with
  | nil => exact member
  | cons identity identities ih =>
    rw [fst_addInterfaces_cons]
    exact ih (mem_addInterface_of_mem member)

theorem mem_addInterfaces {r : Registration} {identities : List Ipv4Interface}
    (member : r ∈ (addInterfaces generation identities setups self).1.registrations) :
    r ∈ self.registrations ∨ r.identity ∈ identities ∧ r.generation = generation := by
  induction identities generalizing self setups with
  | nil => exact .inl member
  | cons identity identities ih =>
    rw [fst_addInterfaces_cons] at member
    rcases ih member with here | ⟨later, same⟩
    · rcases addInterface_cases self identity generation (setups 0) with
        ⟨entry, -, rfl, rfl, added⟩ | ⟨_, -, -, kept⟩
      · rcases List.mem_cons.mp (added.registrations.mem_iff.mp here) with rfl | old
        · exact .inr ⟨List.mem_cons_self .., rfl⟩
        · exact .inl old
      · exact .inl (kept.registrations.mem_iff.mp here)
    · exact .inr ⟨List.mem_cons_of_mem _ later, same⟩

theorem addInterfaces_complete {identities : List Ipv4Interface} (member : identity ∈ identities) :
    (∃ r ∈ (addInterfaces generation identities setups self).1.registrations,
      r.identity = identity) ∨
    ∃ error, (identity, error) ∈ (addInterfaces generation identities setups self).2 := by
  induction identities generalizing self setups with
  | nil => cases member
  | cons first identities ih =>
    simp only [fst_addInterfaces_cons, mem_failures_cons]
    rcases List.mem_cons.mp member with rfl | later
    · rcases addInterface_cases self identity generation (setups 0) with
        ⟨entry, -, same, -, added⟩ | ⟨error, failed, -, -⟩
      · refine .inl ⟨entry, mem_addInterfaces_of_mem _ ?_, same⟩
        exact added.registrations.mem_iff.mpr (List.mem_cons_self ..)
      · exact .inr ⟨error, .inl ⟨rfl, failed⟩⟩
    · rcases ih later with registered | ⟨error, failed⟩
      · exact .inl registered
      · exact .inr ⟨error, .inr failed⟩

end AddInterfaces

section Reconcile

variable {self : Interfaces} {current : List Ipv4Interface} {generation : UInt64}
  {setups : Nat → Setup}

theorem mem_stale {identity : Ipv4Interface} :
    identity ∈ self.stale current generation ↔ ∃ r ∈ self.registrations, r.identity = identity ∧
      (r.identity ∉ current ∨ r.generation ≠ generation) := by
  simp only [stale, List.mem_map, List.mem_filter, Bool.or_eq_true, Bool.not_eq_true',
    decide_eq_true_eq, and_assoc]
  refine exists_congr fun r => and_congr_right fun _ => ?_
  rw [and_comm, ← Bool.not_eq_true, List.contains_iff_mem]

theorem WellFormed.reconcile (h : self.WellFormed) :
    (self.reconcileInterfaces current generation setups).1.WellFormed :=
  wellFormed_addInterfaces _ _ (wellFormed_foldl_removeInterface _ h)

theorem mem_reconcile (h : self.WellFormed) {r : Registration}
    (member : r ∈ (self.reconcileInterfaces current generation setups).1.registrations) :
    r.identity ∈ current ∧ r.generation = generation := by
  rcases mem_addInterfaces member with old | ⟨added, same⟩
  · obtain ⟨registered, fresh⟩ := (mem_foldl_removeInterface _ h r).mp old
    have kept := mt mem_stale.mpr fresh
    by_contra stale
    exact kept ⟨r, registered, rfl, not_and_or.mp stale⟩
  · exact ⟨(List.mem_filter.mp added).1, same⟩

theorem reconcile_complete (h : self.WellFormed) {identity : Ipv4Interface}
    (found : identity ∈ current) :
    (∃ r ∈ (self.reconcileInterfaces current generation setups).1.registrations,
      r.identity = identity) ∨
    ∃ error, (identity, error) ∈ (self.reconcileInterfaces current generation setups).2 := by
  by_cases stays : identity ∈ self.registrations.map Registration.identity ∧
      identity ∉ self.stale current generation
  · obtain ⟨known, fresh⟩ := stays
    obtain ⟨r, registered, rfl⟩ := List.mem_map.mp known
    have left := (mem_foldl_removeInterface (self.stale current generation) h r).mpr
      ⟨registered, fresh⟩
    exact .inl ⟨r, mem_addInterfaces_of_mem _ left, rfl⟩
  · refine addInterfaces_complete (List.mem_filter.mpr ⟨found, ?_⟩)
    rw [Bool.or_eq_true, Bool.not_eq_true', ← Bool.not_eq_true, List.contains_iff_mem,
      List.contains_iff_mem]
    exact (not_and_or.mp stays).imp_right not_not.mp

end Reconcile

theorem WellFormed.step {self : Interfaces} (h : self.WellFormed) (op : InterfaceOp) :
    (op.step self).WellFormed := by
  cases op with
  | add identity generation setup => exact h.addInterface identity generation setup
  | remove identity => exact h.removeInterface identity
  | reconcile current generation setups => exact h.reconcile
  | rehash order =>
    have perm := Bindings.rehash_perm order self.sockets
    exact h.kept ⟨perm.flatMap_right _, fun filed => filed.of_perm perm, rfl, rfl, Nat.le_refl _⟩

theorem wellFormed_run (ops : List InterfaceOp) : (run InterfaceOp.step new ops).WellFormed :=
  run_keeps (I := WellFormed) (fun _ op h => h.step op) ops wellFormed_new

/-- Whatever was called before, and in whatever order the map iterates: the registrations are
distinct and filed under their addresses, a removal takes out and cancels one of them, the group is
joined where one of them is, an addition that fails changes nothing, and a scan leaves what it
found. -/
theorem registry_is_set (ops : List InterfaceOp) :
    let self := run InterfaceOp.step new ops
    (self.registrations.map Registration.identity).Nodup ∧
    (∀ r ∈ self.registrations, ∃ group,
      self.sockets.lookup r.identity.addr = some group ∧ r ∈ group.registrations) ∧
    (∀ identity,
      (∀ r, r ∈ (self.removeInterface identity).registrations ↔
        r ∈ self.registrations ∧ r.identity ≠ identity) ∧
      ∀ r ∈ self.registrations,
        r.cancel ∈ (self.removeInterface identity).cancelled ↔ r.identity = identity) ∧
    (∀ index, index ∈ self.memberships ↔ ∃ r ∈ self.registrations, r.identity.index = index) ∧
    (∀ identity generation setup,
      match self.addInterface identity generation setup with
      | (after, .ok entry) => entry.identity = identity ∧ entry.generation = generation ∧
          ∀ r, r ∈ after.registrations ↔ r = entry ∨ r ∈ self.registrations
      | (after, .error _) =>
          after.sockets = self.sockets ∧ after.memberships = self.memberships) ∧
    ∀ current generation setups,
      let (after, failures) := self.reconcileInterfaces current generation setups
      (∀ r ∈ after.registrations, r.identity ∈ current ∧ r.generation = generation) ∧
      ∀ identity ∈ current, (∃ r ∈ after.registrations, r.identity = identity) ∨
        ∃ error, (identity, error) ∈ failures := by
  intro self
  have h : self.WellFormed := wellFormed_run ops
  refine ⟨h.identities, fun r member => h.filed.lookup member, fun identity => ?_, h.joined, ?_, ?_⟩
  · exact ⟨mem_removeInterface h identity,
      fun r member => cancelled_removeInterface h identity member⟩
  · intro identity generation setup
    rcases addInterface_cases self identity generation setup with
      ⟨entry, ok, same, current, added⟩ | ⟨error, failed, sockets, kept⟩
    · generalize self.addInterface identity generation setup = result at ok added
      obtain ⟨after, _⟩ := result
      subst ok
      refine ⟨same, current, fun r => ?_⟩
      rw [added.registrations.mem_iff, List.mem_cons]
    · generalize self.addInterface identity generation setup = result at failed sockets kept
      obtain ⟨after, _⟩ := result
      subst failed
      exact ⟨sockets, kept.memberships⟩
  · intro current generation setups
    exact ⟨fun r member => mem_reconcile h member, fun identity found => reconcile_complete h found⟩

theorem registry_is_set_shared :
    let first : Ipv4Interface := ⟨1, 1, "en0"⟩
    let second : Ipv4Interface := ⟨1, 2, "en1"⟩
    let third : Ipv4Interface := ⟨2, 2, "en1"⟩
    let add := fun identity => InterfaceOp.add identity 0 ⟨true, some (some 0), true⟩
    let self := run InterfaceOp.step new [add first, add second, add third]
    (∀ r, r ∈ (self.removeInterface first).registrations ↔
      r ∈ self.registrations ∧ r.identity ≠ first) ∧
    (self.removeInterface first).registrations.map Registration.identity = [second, third] ∧
    (self.removeInterface first).memberships = [2] := by
  intro first second third add self
  obtain ⟨-, -, removes, -⟩ := registry_is_set [add first, add second, add third]
  exact ⟨(removes first).1, by decide +kernel, by decide +kernel⟩

end Interfaces

end AbletonLink.Discovery
