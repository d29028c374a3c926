import Mathlib.Data.List.TakeWhile
import Mathlib.Tactic

/-! Tables of leases in the order in which they are due, at most one to a key. -/

universe u v w

namespace AbletonLink.Library.Leases

variable {α : Type u} {K : Type v} {T : Type w} [DecidableEq K] [LinearOrder T]

inductive Event (α : Type u) (K : Type v) (T : Type w)
  | grant (lease : α)
  | release (k : K)
  | retain (keep : K → Bool)
  | expire (now : T)

variable (key : α → K) (due : α → T)

def insert (lease : α) (table : List α) : List α :=
  let (sooner, later) := table.span fun l => due l ≤ due lease
  sooner ++ lease :: later

def apply (table : List α) : Event α K T → List α
  | .grant lease => insert due lease (table.filter fun l => key l ≠ key lease)
  | .release k => table.filter fun l => key l ≠ k
  | .retain keep => table.filter fun l => keep (key l)
  | .expire now => table.filter fun l => now < due l

def Event.Ends (lease : α) : Event α K T → Prop
  | .grant other => key other = key lease
  | .release k => k = key lease
  | .retain keep => keep (key lease) = false
  | .expire now => due lease ≤ now

structure WellFormed (table : List α) : Prop where
  sorted : table.Pairwise fun a b => due a ≤ due b
  unique : (table.map key).Nodup

variable {key due} {table : List α}

theorem perm_insert (lease : α) : (insert due lease table).Perm (lease :: table) := by
  unfold insert
  rw [List.span_eq_takeWhile_dropWhile]
  refine List.perm_middle.trans (List.Perm.cons lease ?_)
  rw [List.takeWhile_append_dropWhile]

theorem mem_insert {lease l : α} : l ∈ insert due lease table ↔ l = lease ∨ l ∈ table := by
  rw [(perm_insert lease).mem_iff, List.mem_cons]

theorem later_of_mem_dropWhile (sorted : table.Pairwise fun a b => due a ≤ due b) {lease l : α}
    (member : l ∈ table.dropWhile fun l => due l ≤ due lease) : due lease < due l := by
  have back := sorted.sublist (List.dropWhile_sublist fun l => decide (due l ≤ due lease))
  have front := List.head?_dropWhile_not (fun l => decide (due l ≤ due lease)) table
  cases rest : table.dropWhile fun l => decide (due l ≤ due lease) with
  | nil =>
    rw [rest] at member
    cases member
  | cons first rest' =>
    rw [rest] at back front member
    have first_later : due lease < due first := by simpa using front
    obtain rfl | member := List.mem_cons.mp member
    · exact first_later
    · exact first_later.trans_le (List.rel_of_pairwise_cons back member)

theorem sorted_insert (sorted : table.Pairwise fun a b => due a ≤ due b) (lease : α) :
    (insert due lease table).Pairwise fun a b => due a ≤ due b := by
  unfold insert
  rw [List.span_eq_takeWhile_dropWhile]
  have parts := sorted
  rw [← List.takeWhile_append_dropWhile (p := fun l => decide (due l ≤ due lease)) (l := table),
    List.pairwise_append] at parts
  obtain ⟨front, back, across⟩ := parts
  refine List.pairwise_append.mpr ⟨front, List.pairwise_cons.mpr ⟨?_, back⟩, ?_⟩
  · exact fun l member => (later_of_mem_dropWhile sorted member).le
  · intro l sooner l' member
    obtain rfl | member := List.mem_cons.mp member
    · have first := List.mem_takeWhile_imp sooner
      exact of_decide_eq_true first
    · exact across l sooner l' member

omit [DecidableEq K] in
theorem wellFormed_nil : WellFormed key due ([] : List α) := ⟨List.Pairwise.nil, List.nodup_nil⟩

omit [DecidableEq K] in
theorem WellFormed.filter (good : WellFormed key due table) (keep : α → Bool) :
    WellFormed key due (table.filter keep) where
  sorted := good.sorted.filter keep
  unique := good.unique.sublist (List.filter_sublist.map key)

theorem WellFormed.apply (good : WellFormed key due table) (event : Event α K T) :
    WellFormed key due (apply key due table event) := by
  cases event with
  | grant lease =>
    have others := good.filter fun l => key l ≠ key lease
    refine ⟨sorted_insert others.sorted lease, ?_⟩
    refine ((perm_insert lease).map key).nodup_iff.mpr (List.nodup_cons.mpr ⟨?_, others.unique⟩)
    intro member
    obtain ⟨l, kept, same⟩ := List.mem_map.mp member
    exact of_decide_eq_true (List.mem_filter.mp kept).2 same
  | release k => exact good.filter _
  | retain keep => exact good.filter _
  | expire now => exact good.filter _

theorem mem_apply {lease : α} {event : Event α K T} :
    lease ∈ apply key due table event ↔
      event = .grant lease ∨ lease ∈ table ∧ ¬event.Ends key due lease := by
  cases event with
  | grant other =>
    unfold Leases.apply Event.Ends
    rw [mem_insert, List.mem_filter, Event.grant.injEq, decide_eq_true_eq, eq_comm,
      ne_comm (a := key lease)]
  | release k => simp [Leases.apply, Event.Ends, eq_comm (a := k)]
  | retain keep => simp [Leases.apply, Event.Ends]
  | expire now => simp [Leases.apply, Event.Ends]

end AbletonLink.Library.Leases
