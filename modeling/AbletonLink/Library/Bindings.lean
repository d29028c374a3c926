import Mathlib.Data.List.AList
import Mathlib.Tactic

/-! Hash maps as association lists.  The order of the bindings is the order of an iteration, and any
call may find it changed. -/

universe u v

namespace AbletonLink.Library

variable {K : Type u} {V : Type v}

abbrev Bindings (K : Type u) (V : Type v) := AList fun _ : K => V

namespace Bindings

def retain (keep : K → V → Bool) (m : Bindings K V) : Bindings K V where
  entries := m.entries.filter fun binding => keep binding.1 binding.2
  nodupKeys := m.nodupKeys.sublist List.filter_sublist

def rehash [DecidableEq K] [DecidableEq V] (order m : Bindings K V) : Bindings K V :=
  if order.entries.Perm m.entries then order else m

theorem mem_retain {keep : K → V → Bool} {m : Bindings K V} {k : K} {v : V} :
    ⟨k, v⟩ ∈ (m.retain keep).entries ↔ ⟨k, v⟩ ∈ m.entries ∧ keep k v = true := List.mem_filter

theorem length_retain_le (keep : K → V → Bool) (m : Bindings K V) :
    (m.retain keep).entries.length ≤ m.entries.length := List.length_filter_le ..

theorem rehash_perm [DecidableEq K] [DecidableEq V] (order m : Bindings K V) :
    (order.rehash m).entries.Perm m.entries := by
  unfold rehash
  split
  next perm => exact perm
  next => exact .refl _

variable [DecidableEq K] {m : Bindings K V} {k : K} {v : V}

theorem mem_of_lookup (found : m.lookup k = some v) : ⟨k, v⟩ ∈ m.entries :=
  AList.mem_lookup_iff.mp found

omit [DecidableEq K] in
theorem value_eq {w : V} (hv : ⟨k, v⟩ ∈ m.entries) (hw : ⟨k, w⟩ ∈ m.entries) : v = w :=
  eq_of_heq (Sigma.mk.inj (m.nodupKeys.eq_of_fst_eq hv hw rfl)).2

theorem mem_erase_entries {other : K} {w : V} :
    ⟨other, w⟩ ∈ (m.erase k).entries ↔ other ≠ k ∧ ⟨other, w⟩ ∈ m.entries := by
  rw [← AList.mem_lookup_iff, ← AList.mem_lookup_iff]
  by_cases same : other = k
  · rw [same, AList.lookup_erase]
    simp
  · rw [AList.lookup_erase_ne same]
    simp [same]

theorem mem_insert_entries {other : K} {w : V} :
    ⟨other, w⟩ ∈ (m.insert k v).entries ↔
      other = k ∧ w = v ∨ other ≠ k ∧ ⟨other, w⟩ ∈ m.entries := by
  rw [← AList.mem_lookup_iff, ← AList.mem_lookup_iff]
  by_cases same : other = k
  · rw [same, AList.lookup_insert]
    simp [eq_comm]
  · rw [AList.lookup_insert_ne same]
    simp [same]

theorem perm_erase (found : m.lookup k = some v) :
    m.entries.Perm (⟨k, v⟩ :: (m.erase k).entries) := by
  refine (List.perm_ext_iff_of_nodup m.nodupKeys.nodup ?_).mpr ?_
  · exact List.nodup_cons.mpr
      ⟨fun member => (mem_erase_entries.mp member).1 rfl, (m.erase k).nodupKeys.nodup⟩
  · rintro ⟨other, w⟩
    rw [List.mem_cons, mem_erase_entries]
    constructor
    · intro member
      by_cases same : other = k
      · subst same
        rw [value_eq member (mem_of_lookup found)]
        exact .inl rfl
      · exact .inr ⟨same, member⟩
    · rintro (same | ⟨-, member⟩)
      · rw [same]
        exact mem_of_lookup found
      · exact member

theorem keys_perm_erase (present : k ∈ m) : m.keys.Perm (k :: (m.erase k).keys) := by
  obtain ⟨v, found⟩ := Option.isSome_iff_exists.mp (AList.lookup_isSome.mpr present)
  exact (perm_erase found).map Sigma.fst

theorem keys_insert_of_not_mem (absent : k ∉ m) (v : V) : (m.insert k v).keys = k :: m.keys := by
  change (m.insert k v).entries.map Sigma.fst = k :: m.entries.map Sigma.fst
  rw [AList.entries_insert_of_notMem absent, List.map_cons]

theorem not_mem_erase (k : K) (m : Bindings K V) : k ∉ m.erase k :=
  fun member => (AList.mem_erase.mp member).1 rfl

theorem insert_erase (k : K) (v : V) (m : Bindings K V) : (m.erase k).insert k v = m.insert k v :=
  AList.ext ((AList.entries_insert_of_notMem (not_mem_erase k m)).trans AList.entries_insert.symm)

theorem erase_of_lookup_eq_none (absent : m.lookup k = none) : m.erase k = m :=
  AList.ext (List.kerase_of_notMem_keys (AList.lookup_eq_none.mp absent))

end Bindings

end AbletonLink.Library
