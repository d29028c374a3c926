import AbletonLink.Library.Run

/-! Optimistic commits: a value guarded by stamps from a counter that never repeats.  A reader
keeps a stamp beside the value it saw, and may write only while the stamp is still in play. -/

universe u v w

namespace AbletonLink.Library

open Run

variable {State : Type u} {Value : Type v} {Op : Type w}

structure Guard (State : Type u) (Value : Type v) where
  value : State → Value
  stamps : State → Set ℕ
  next : State → ℕ

namespace Guard

variable (g : Guard State Value)

def Fresh (s : State) : Prop := ∀ n ∈ g.stamps s, n < g.next s

/-- New stamps are drawn from the counter, and a changed value leaves no old stamp in play. -/
structure Respects (a b : State) : Prop where
  next : g.next a ≤ g.next b
  drawn : ∀ n ∈ g.stamps b, n ∈ g.stamps a ∨ g.next a ≤ n ∧ n < g.next b
  value : g.value b = g.value a ∨ ∀ n ∈ g.stamps b, g.next a ≤ n

variable {g}

theorem Respects.fresh {a b : State} (h : g.Respects a b) (fresh : g.Fresh a) : g.Fresh b := by
  intro n hn
  cases h.drawn n hn with
  | inl old => exact Nat.lt_of_lt_of_le (fresh n old) h.next
  | inr new => exact new.2

variable {step : State → Op → State} (respects : ∀ s op, g.Respects s (step s op))

include respects

theorem run_fresh {s : State} (fresh : g.Fresh s) (ops : List Op) : g.Fresh (run step s ops) :=
  run_keeps (fun s op => (respects s op).fresh) ops fresh

theorem notMem_run {s : State} {n : ℕ} (old : n < g.next s) (gone : n ∉ g.stamps s)
    (ops : List Op) : n ∉ g.stamps (run step s ops) := by
  refine (run_keeps (I := fun s => n < g.next s ∧ n ∉ g.stamps s) ?_ ops ⟨old, gone⟩).2
  rintro s op ⟨old, gone⟩
  refine ⟨Nat.lt_of_lt_of_le old (respects s op).next, fun hn => ?_⟩
  cases (respects s op).drawn n hn with
  | inl back => exact gone back
  | inr new => exact absurd new.1 (Nat.not_le.mpr old)

theorem value_run {s : State} {n : ℕ} (old : n < g.next s) (ops : List Op)
    (kept : n ∈ g.stamps (run step s ops)) : g.value (run step s ops) = g.value s := by
  induction ops generalizing s with
  | nil => rfl
  | cons op ops ih =>
    have later : n < g.next (step s op) := Nat.lt_of_lt_of_le old (respects s op).next
    have here : n ∈ g.stamps (step s op) := by
      by_contra gone
      exact notMem_run respects later gone ops kept
    have same : g.value (step s op) = g.value s := by
      cases (respects s op).value with
      | inl same => exact same
      | inr renewed => exact absurd (renewed n here) (Nat.not_le.mpr old)
    exact (ih later kept).trans same

theorem notMem_of_change {s : State} {n : ℕ} (old : n < g.next s) {before : List Op} {op : Op}
    (change : g.value (step (run step s before) op) ≠ g.value (run step s before))
    (after : List Op) : n ∉ g.stamps (run step s (before ++ op :: after)) := by
  have grown : n < g.next (run step s before) :=
    run_keeps (I := fun s => n < g.next s)
      (fun s op h => Nat.lt_of_lt_of_le h (respects s op).next) before old
  rw [run_append, run_cons]
  refine notMem_run respects (Nat.lt_of_lt_of_le grown (respects _ op).next) (fun hn => ?_) after
  cases (respects (run step s before) op).value with
  | inl same => exact change same
  | inr renewed => exact absurd (renewed n hn) (Nat.not_le.mpr grown)

end Guard

end AbletonLink.Library
