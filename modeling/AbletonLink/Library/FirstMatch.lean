import Mathlib.Tactic

/-! Lists as rows of slots: a row with one more slot, replacing the first element that satisfies a
test, and relating two rows slot by slot. -/

universe u v

namespace AbletonLink.Library

variable {α : Type u}

theorem getElem?_concat_cases {l : List α} {a b : α} {i : Nat} (found : (l ++ [a])[i]? = some b) :
    l[i]? = some b ∨ i = l.length ∧ b = a := by
  rw [List.getElem?_append] at found
  split at found
  next => exact .inl found
  next past =>
    rw [List.getElem?_singleton] at found
    split at found
    next zero =>
      cases found
      exact .inr ⟨by omega, rfl⟩
    next => exact nomatch found

theorem nodup_map_concat {β : Type v} {f : α → β} {l : List α} {a : α} (h : (l.map f).Nodup)
    (fresh : ∀ b ∈ l, f b ≠ f a) : ((l ++ [a]).map f).Nodup := by
  rw [List.map_append]
  refine List.nodup_append.mpr ⟨h, List.nodup_singleton _, fun x member y single => ?_⟩
  obtain ⟨b, held, rfl⟩ := List.mem_map.mp member
  rw [List.mem_singleton.mp single]
  exact fresh b held

def replaceFirst (p : α → Bool) (y : α) : List α → List α
  | [] => []
  | x :: xs => if p x then y :: xs else x :: replaceFirst p y xs

theorem find?_split {p : α → Bool} {x : α} {xs : List α} (h : xs.find? p = some x) :
    p x = true ∧ ∃ before after, xs = before ++ x :: after ∧ (∀ z ∈ before, p z = false) ∧
      ∀ y, replaceFirst p y xs = before ++ y :: after := by
  induction xs with
  | nil => simp at h
  | cons z zs ih =>
    by_cases hz : p z = true
    · rw [List.find?_cons_of_pos hz] at h
      cases h
      exact ⟨hz, [], zs, rfl, by simp, fun y => by simp [replaceFirst, hz]⟩
    · rw [List.find?_cons_of_neg hz] at h
      obtain ⟨hx, before, after, rfl, hbefore, hreplace⟩ := ih h
      refine ⟨hx, z :: before, after, rfl, ?_, ?_⟩
      · intro w hw
        rcases List.mem_cons.mp hw with rfl | hw
        · simpa using hz
        · exact hbefore w hw
      · intro y
        simp [replaceFirst, hz, hreplace]

theorem findIdx?_split {p : α → Bool} {xs : List α} {index : Nat}
    (h : xs.findIdx? p = some index) :
    ∃ before x after, xs = before ++ x :: after ∧ p x = true ∧ (∀ z ∈ before, p z = false) ∧
      ∀ y, xs.set index y = before ++ y :: after := by
  induction xs generalizing index with
  | nil => cases h
  | cons z zs ih =>
    rw [List.findIdx?_cons] at h
    cases hz : p z with
    | true =>
      rw [hz, if_pos rfl] at h
      cases h
      exact ⟨[], z, zs, rfl, hz, by simp, fun y => rfl⟩
    | false =>
      rw [hz, if_neg Bool.false_ne_true, Option.map_eq_some_iff] at h
      obtain ⟨index, h, rfl⟩ := h
      obtain ⟨before, x, after, rfl, hx, hbefore, hset⟩ := ih h
      exact ⟨z :: before, x, after, rfl, hx, List.forall_mem_cons.mpr ⟨hz, hbefore⟩,
        fun y => congrArg (z :: ·) (hset y)⟩

theorem mem_replaceFirst {p : α → Bool} {x y z : α} {xs : List α} (h : xs.find? p = some x)
    (hz : z ∈ replaceFirst p y xs) : z = y ∨ z ∈ xs := by
  obtain ⟨-, before, after, rfl, -, hreplace⟩ := find?_split h
  rw [hreplace] at hz
  simp only [List.mem_append, List.mem_cons] at hz ⊢
  tauto

theorem mem_replaceFirst_self {p : α → Bool} {x : α} {xs : List α} (h : xs.find? p = some x)
    (y : α) : y ∈ replaceFirst p y xs := by
  obtain ⟨-, before, after, rfl, -, hreplace⟩ := find?_split h
  rw [hreplace]
  simp

theorem mem_replaceFirst_of_mem {p : α → Bool} {x z : α} {xs : List α}
    (h : xs.find? p = some x) (hz : z ∈ xs) (y : α) : z = x ∨ z ∈ replaceFirst p y xs := by
  obtain ⟨-, before, after, rfl, -, hreplace⟩ := find?_split h
  rw [hreplace]
  simp only [List.mem_append, List.mem_cons] at hz ⊢
  tauto

theorem find?_replaceFirst {p : α → Bool} {x y : α} {xs : List α} (h : xs.find? p = some x)
    (hy : p y = true) : (replaceFirst p y xs).find? p = some y := by
  obtain ⟨-, before, after, rfl, hbefore, hreplace⟩ := find?_split h
  rw [hreplace, List.find?_append, List.find?_eq_none.mpr, Option.none_or,
    List.find?_cons_of_pos hy]
  intro z hz
  rw [hbefore z hz]
  exact Bool.false_ne_true

theorem find?_replaceFirst_of_not {p q : α → Bool} {x y : α} {xs : List α}
    (h : xs.find? p = some x) (hx : q x = false) (hy : q y = false) :
    (replaceFirst p y xs).find? q = xs.find? q := by
  obtain ⟨-, before, after, rfl, -, hreplace⟩ := find?_split h
  rw [hreplace, List.find?_append, List.find?_append, List.find?_cons, List.find?_cons, hx, hy]

theorem map_replaceFirst_comp {β : Type v} (f : α → β) (q : β → Bool) (y : α) (xs : List α) :
    (replaceFirst (q ∘ f) y xs).map f = replaceFirst q (f y) (xs.map f) := by
  induction xs with
  | nil => rfl
  | cons z zs ih =>
    by_cases here : q (f z) = true
    · simp [replaceFirst, here]
    · simp [replaceFirst, here, ih]

theorem replaceFirst_swap {p : α → Bool} {x : α} {xs : List α} (h : xs.find? p = some x)
    (y z : α) : (y :: replaceFirst p z xs).Perm (z :: replaceFirst p y xs) := by
  obtain ⟨-, before, after, rfl, -, hreplace⟩ := find?_split h
  rw [hreplace, hreplace]
  have left := (@List.perm_middle _ z before after).cons y
  have right := (@List.perm_middle _ y before after).cons z
  exact (left.trans (List.Perm.swap ..)).trans right.symm

theorem replaceFirst_forall₂ {R : α → α → Prop} (refl : ∀ z, R z z) {p : α → Bool} {x y : α}
    {xs : List α} (h : xs.find? p = some x) (hy : R x y) :
    List.Forall₂ R xs (replaceFirst p y xs) := by
  obtain ⟨-, before, after, rfl, -, hreplace⟩ := find?_split h
  rw [hreplace]
  exact List.rel_append (List.forall₂_same.mpr fun z _ => refl z)
    (.cons hy (List.forall₂_same.mpr fun z _ => refl z))

theorem map_replaceFirst {β : Type v} {f : α → β} {p : α → Bool} {x y : α} {xs : List α}
    (h : xs.find? p = some x) (hy : f y = f x) : (replaceFirst p y xs).map f = xs.map f := by
  obtain ⟨-, before, after, rfl, -, hreplace⟩ := find?_split h
  rw [hreplace, List.map_append, List.map_append, List.map_cons, List.map_cons, hy]

theorem exists_right_of_forall₂ {R : α → α → Prop} {xs ys : List α} (h : List.Forall₂ R xs ys)
    {x : α} (hx : x ∈ xs) : ∃ y ∈ ys, R x y := by
  induction h with
  | nil => cases hx
  | @cons a b _ _ related _ ih =>
    rcases List.mem_cons.mp hx with rfl | hx
    · exact ⟨b, List.mem_cons_self .., related⟩
    · obtain ⟨y, hy, hxy⟩ := ih hx
      exact ⟨y, List.mem_cons_of_mem _ hy, hxy⟩

theorem exists_left_of_forall₂ {R : α → α → Prop} {xs ys : List α} (h : List.Forall₂ R xs ys)
    {y : α} (hy : y ∈ ys) : ∃ x ∈ xs, R x y :=
  exists_right_of_forall₂ (R := flip R) (List.Forall₂.flip h) hy

end AbletonLink.Library
