import AbletonLink.Library.FirstMatch
import Mathlib.Data.List.Induction
import Mathlib.Data.List.ModifyLast

/-! Next fit: an item goes into the last bin, or into a fresh one where the last has no room. -/

universe u v

namespace AbletonLink.Library

section NextFit

variable {α : Type u} {β : Type v} (fresh : β) (add : β → α → β) (full : List β → α → Prop)
  [DecidableRel full]

def insertNext (bins : List β) (item : α) : List β :=
  (if full bins item then bins ++ [fresh] else bins).modifyLast fun bin => add bin item

def nextFit (items : List α) : List β := items.foldl (insertNext fresh add full) [fresh]

theorem insertNext_concat (front : List β) (last : β) (item : α) :
    insertNext fresh add full (front ++ [last]) item =
      if full (front ++ [last]) item then front ++ [last] ++ [add fresh item]
      else front ++ [add last item] := by
  unfold insertNext
  split <;> exact List.modifyLast_concat ..

theorem nextFit_concat (items : List α) (item : α) :
    nextFit fresh add full (items ++ [item]) =
      insertNext fresh add full (nextFit fresh add full items) item := by
  simp [nextFit, List.foldl_append]

theorem nextFit_eq_concat (items : List α) :
    ∃ front last, nextFit fresh add full items = front ++ [last] := by
  induction items using List.reverseRecOn with
  | nil => exact ⟨[], fresh, rfl⟩
  | append_singleton items item ih =>
    obtain ⟨front, last, bins⟩ := ih
    rw [nextFit_concat, bins, insertNext_concat]
    split
    next => exact ⟨_, _, rfl⟩
    next => exact ⟨_, _, rfl⟩

theorem nextFit_ne_nil (items : List α) : nextFit fresh add full items ≠ [] := by
  obtain ⟨front, last, bins⟩ := nextFit_eq_concat fresh add full items
  simp [bins]

/-- A property of the bins by their numbers, which items put into a bin with room and items put
into a fresh bin keep. -/
theorem good_of_nextFit (good : Nat → β → Prop) (items : List α) (start : good 0 fresh)
    (added : ∀ front last item, item ∈ items → good front.length last →
      ¬full (front ++ [last]) item → good front.length (add last item))
    (opened : ∀ front last item, item ∈ items → full (front ++ [last]) item →
      good (front.length + 1) (add fresh item)) {i : Nat} {bin : β}
    (found : (nextFit fresh add full items)[i]? = some bin) : good i bin := by
  induction items using List.reverseRecOn generalizing i bin with
  | nil =>
    cases getElem?_concat_cases (l := []) found with
    | inl none => simp at none
    | inr first => exact first.1 ▸ first.2 ▸ start
  | append_singleton items item ih =>
    have before {i : Nat} {bin : β} (found : (nextFit fresh add full items)[i]? = some bin) :
        good i bin :=
      ih (fun front last other member => added front last other (List.mem_append_left _ member))
        (fun front last other member => opened front last other (List.mem_append_left _ member))
        found
    have member : item ∈ items ++ [item] := by simp
    obtain ⟨front, last, bins⟩ := nextFit_eq_concat fresh add full items
    rw [bins] at before
    rw [nextFit_concat, bins, insertNext_concat] at found
    split at found
    next space =>
      cases getElem?_concat_cases found with
      | inl old => exact before old
      | inr new =>
        obtain ⟨rfl, rfl⟩ := new
        rw [List.length_append]
        exact opened front last item member space
    next space =>
      cases getElem?_concat_cases found with
      | inl old =>
        have inside : i < front.length := (List.getElem?_eq_some_iff.mp old).1
        exact before ((List.getElem?_append_left inside).trans old)
      | inr new =>
        obtain ⟨rfl, rfl⟩ := new
        exact added front last item member (before (by simp)) space

theorem flatMap_nextFit {γ : Type*} (contents : β → List γ) (one : α → γ)
    (empty : contents fresh = [])
    (push : ∀ bin item, contents (add bin item) = contents bin ++ [one item]) (items : List α) :
    (nextFit fresh add full items).flatMap contents = items.map one := by
  induction items using List.reverseRecOn with
  | nil => simp [nextFit, empty]
  | append_singleton items item ih =>
    obtain ⟨front, last, bins⟩ := nextFit_eq_concat fresh add full items
    rw [bins] at ih
    rw [nextFit_concat, bins, insertNext_concat, List.map_append, ← ih]
    split <;> simp [push, empty]

end NextFit

end AbletonLink.Library
