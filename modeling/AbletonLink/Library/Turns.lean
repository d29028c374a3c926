import Mathlib.Data.List.Rotate

/-! Taking turns: the entry after a given one, around the end of a list. -/

universe u v

namespace AbletonLink.Library

section Turns

variable {α : Type u} {β : Type v} [DecidableEq β] (key : α → β) (entries : List α)

/-- The index after the entry with a given key, and the first one without such an entry. -/
def turnIndex (after : Option β) : Nat :=
  match after.bind fun previous => entries.findIdx? fun entry => key entry = previous with
  | some index => (index + 1) % entries.length
  | none => 0

def turn (after : Option β) : Option α := entries[turnIndex key entries after]?

def turns (after : Option β) : Nat → Option α
  | 0 => turn key entries after
  | k + 1 => turn key entries ((turns after k).map key)

theorem turnIndex_lt (nonempty : 0 < entries.length) (after : Option β) :
    turnIndex key entries after < entries.length := by
  unfold turnIndex
  split
  · exact Nat.mod_lt _ nonempty
  · exact nonempty

@[simp] theorem turn_none : turn key entries none = entries.head? := by
  cases entries <;> rfl

theorem turn_mem {after : Option β} {entry : α} (found : turn key entries after = some entry) :
    entry ∈ entries := List.mem_of_getElem? found

theorem turn_eq_none_iff (after : Option β) : turn key entries after = none ↔ entries = [] := by
  unfold turn
  rw [List.getElem?_eq_none_iff]
  constructor
  · intro outside
    by_contra nonempty
    have inside := turnIndex_lt key entries (List.length_pos_iff.mpr nonempty) after
    omega
  · rintro rfl
    exact Nat.zero_le _

variable {key entries}

theorem turnIndex_key (distinct : (entries.map key).Nodup) {i : Nat} (inside : i < entries.length) :
    turnIndex key entries (some (key entries[i])) = (i + 1) % entries.length := by
  have found : entries.findIdx? (fun entry => key entry = key entries[i]) = some i := by
    rw [List.findIdx?_eq_some_iff_getElem]
    refine ⟨inside, by simp, ?_⟩
    intro j before
    have apart := List.pairwise_iff_getElem.mp distinct j i (by simp; omega) (by simpa) before
    simpa using apart
  unfold turnIndex
  rw [Option.bind_some, found]

theorem turns_eq (distinct : (entries.map key).Nodup) (nonempty : 0 < entries.length)
    (after : Option β) (k : Nat) :
    turns key entries after k = entries[(turnIndex key entries after + k) % entries.length]? := by
  induction k with
  | zero =>
    rw [Nat.add_zero, Nat.mod_eq_of_lt (turnIndex_lt key entries nonempty after)]
    rfl
  | succ k ih =>
    have inside := Nat.mod_lt (turnIndex key entries after + k) nonempty
    rw [turns, ih, List.getElem?_eq_getElem inside, Option.map_some, turn,
      turnIndex_key distinct inside, Nat.mod_add_mod]
    rfl

theorem turns_perm (distinct : (entries.map key).Nodup) (after : Option β) (m : Nat) :
    ((List.range entries.length).map fun k => turns key entries after (m + k)).Perm
      (entries.map some) := by
  have rotated : ((List.range entries.length).map fun k => turns key entries after (m + k)) =
      (entries.rotate (turnIndex key entries after + m)).map some := by
    apply List.ext_getElem
    · simp
    · intro k inside _
      have inside : k < entries.length := by simpa using inside
      have nonempty : 0 < entries.length := by omega
      have wrapped := Nat.mod_lt (turnIndex key entries after + (m + k)) nonempty
      simp only [List.getElem_map, List.getElem_range, List.getElem_rotate]
      rw [turns_eq distinct nonempty, List.getElem?_eq_getElem wrapped]
      congr 2
      rw [Nat.add_comm k, Nat.add_assoc]
  rw [rotated]
  exact (List.rotate_perm _ _).map _

end Turns

end AbletonLink.Library
