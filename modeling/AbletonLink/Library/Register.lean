import Mathlib.Tactic

/-! A register that keeps the value with the greatest key, and the earliest of those that tie. -/

universe u v

namespace AbletonLink.Library.Register

variable {α : Type u} {κ : Type v} [LinearOrder κ] (key : α → κ)

def keep (x y : α) : α := if key x < key y then y else x

def latest (x : α) (ys : List α) : α := ys.foldl (keep key) x

/-- Values that tie at the greatest key above the initial one are equal. -/
def Untied (x : α) (ys : List α) : Prop :=
  ∀ y ∈ ys, ∀ z ∈ ys, key x < key y → (∀ w ∈ ys, key w ≤ key y) → key z = key y → z = y

theorem key_keep (x y : α) : key x ≤ key (keep key x y) ∧ key y ≤ key (keep key x y) := by
  unfold keep
  split
  · rename_i newer
    exact ⟨newer.le, le_refl _⟩
  · rename_i older
    exact ⟨le_refl _, not_lt.mp older⟩

theorem latest_cases (x : α) (ys : List α) :
    latest key x ys = x ∨ latest key x ys ∈ ys ∧ key x < key (latest key x ys) := by
  induction ys generalizing x with
  | nil => exact .inl rfl
  | cons y ys ih =>
    show latest key (keep key x y) ys = x ∨ latest key (keep key x y) ys ∈ y :: ys ∧
      key x < key (latest key (keep key x y) ys)
    by_cases newer : key x < key y
    · rw [keep, if_pos newer]
      rcases ih y with same | ⟨member, later⟩
      · rw [same]
        exact .inr ⟨List.mem_cons_self .., newer⟩
      · exact .inr ⟨List.mem_cons_of_mem _ member, newer.trans later⟩
    · rw [keep, if_neg newer]
      exact (ih x).imp_right (And.imp_left (List.mem_cons_of_mem _))

theorem key_le_latest (x : α) (ys : List α) :
    key x ≤ key (latest key x ys) ∧ ∀ y ∈ ys, key y ≤ key (latest key x ys) := by
  induction ys generalizing x with
  | nil => exact ⟨le_refl _, by simp⟩
  | cons y ys ih =>
    obtain ⟨start, rest⟩ := ih (keep key x y)
    obtain ⟨left, right⟩ := key_keep key x y
    refine ⟨left.trans start, fun z hz => ?_⟩
    rcases List.mem_cons.mp hz with rfl | hz
    · exact right.trans start
    · exact rest z hz

theorem key_latest_le {x : α} {ys zs : List α} (sub : ys ⊆ zs) :
    key (latest key x ys) ≤ key (latest key x zs) := by
  obtain ⟨start, rest⟩ := key_le_latest key x zs
  rcases latest_cases key x ys with same | ⟨member, -⟩
  · rw [same]
    exact start
  · exact rest _ (sub member)

theorem key_latest_eq {x : α} {ys zs : List α} (same : ∀ a, a ∈ ys ↔ a ∈ zs) :
    key (latest key x ys) = key (latest key x zs) :=
  le_antisymm (key_latest_le key fun a => (same a).mp) (key_latest_le key fun a => (same a).mpr)

theorem latest_eq {x : α} {ys zs : List α} (same : ∀ a, a ∈ ys ↔ a ∈ zs)
    (untied : Untied key x ys) : latest key x ys = latest key x zs := by
  have keys := key_latest_eq key (x := x) same
  rcases latest_cases key x ys with left | ⟨left, later⟩
  · rcases latest_cases key x zs with right | ⟨-, later⟩
    · rw [left, right]
    · rw [← keys, left] at later
      exact absurd later (lt_irrefl _)
  · rcases latest_cases key x zs with right | ⟨right, -⟩
    · rw [keys, right] at later
      exact absurd later (lt_irrefl _)
    · exact (untied _ left _ ((same _).mpr right) later (key_le_latest key x ys).2 keys.symm).symm

end AbletonLink.Library.Register
