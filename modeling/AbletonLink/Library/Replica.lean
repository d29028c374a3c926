import Mathlib.Data.Set.Basic

/-! A directory that is copied through notes, which may be lost, come again or overtake each
other. -/

universe u v

namespace AbletonLink.Library

structure Note (κ : Type u) (ν : Type v) where
  drops : List κ
  adds : List ν

namespace Note

variable {κ : Type u} {ν : Type v} (key : ν → κ)

def keys (note : Note κ ν) : List κ := note.drops ++ note.adds.map key

def apply (note : Note κ ν) (view : Set ν) : Set ν :=
  {entry | entry ∈ note.adds ∨ entry ∈ view ∧ key entry ∉ note.keys key}

structure Agrees (current : Set ν) (note : Note κ ν) : Prop where
  adds : ∀ entry ∈ note.adds, entry ∈ current
  keys : ∀ entry ∈ current, key entry ∈ note.keys key → entry ∈ note.adds

variable {key} {note : Note κ ν} {view all current : Set ν}

theorem apply_subset (held : view ⊆ all) (told : ∀ entry ∈ note.adds, entry ∈ all) :
    note.apply key view ⊆ all := by
  rintro entry (added | ⟨old, -⟩)
  · exact told entry added
  · exact held old

theorem Agrees.keeps (agrees : note.Agrees key current) {entry : ν} (mine : entry ∈ current)
    (held : entry ∈ view) : entry ∈ note.apply key view := by
  by_cases told : key entry ∈ note.keys key
  · exact .inl (agrees.keys entry mine told)
  · exact .inr ⟨held, told⟩

theorem agrees_drop {keys : List κ} (gone : ∀ entry ∈ current, key entry ∉ keys) :
    (⟨keys, []⟩ : Note κ ν).Agrees key current where
  adds := by rintro _ ⟨⟩
  keys entry mine told := by
    rw [Note.keys, List.map_nil, List.append_nil] at told
    exact absurd told (gone entry mine)

theorem agrees_add {entries : List ν} (inj : Set.InjOn key current)
    (told : ∀ entry ∈ entries, entry ∈ current) :
    (⟨[], entries⟩ : Note κ ν).Agrees key current where
  adds := told
  keys entry mine named := by
    rw [Note.keys, List.nil_append] at named
    obtain ⟨other, added, same⟩ := List.mem_map.mp named
    rwa [← inj (told other added) mine same]

end Note

/-- A copy that held `before` and has since heard what agrees with `current`. -/
structure Settling {κ : Type u} {ν : Type v} (key : ν → κ) (current before : Set ν)
    (heard : List (Note κ ν)) (view : Set ν) : Prop where
  lists : ∀ note ∈ heard, ∀ entry ∈ note.adds, entry ∈ view
  keeps : ∀ entry ∈ view, entry ∈ current ∨
    entry ∈ before ∧ ∀ note ∈ heard, key entry ∉ note.keys key
  told : ∀ note ∈ heard, ∀ entry ∈ note.adds, entry ∈ current

namespace Settling

variable {κ : Type u} {ν : Type v} {key : ν → κ} {current before view view' : Set ν}
  {heard : List (Note κ ν)}

theorem start (key : ν → κ) (current view : Set ν) : Settling key current view [] view where
  lists := by rintro _ ⟨⟩
  keeps _ held := .inr ⟨held, by rintro _ ⟨⟩⟩
  told := by rintro _ ⟨⟩

theorem overhear (h : Settling key current before heard view) {note : Note κ ν}
    (agrees : note.Agrees key current) :
    Settling key current before heard (note.apply key view) where
  lists other inside entry added :=
    agrees.keeps (h.told other inside entry added) (h.lists other inside entry added)
  keeps entry held := by
    rcases held with added | ⟨old, -⟩
    · exact .inl (agrees.adds entry added)
    · exact h.keeps entry old
  told := h.told

theorem hear (h : Settling key current before heard view) {note : Note κ ν}
    (agrees : note.Agrees key current) :
    Settling key current before (heard ++ [note]) (note.apply key view) where
  lists other inside entry added := by
    rcases List.mem_append.mp inside with old | new
    · exact (h.overhear agrees).lists other old entry added
    · rw [List.mem_singleton.mp new] at added
      exact .inl added
  keeps entry held := by
    rcases held with added | ⟨old, other⟩
    · exact .inl (agrees.adds entry added)
    · refine (h.keeps entry old).imp_right fun stale => ⟨stale.1, fun note' inside => ?_⟩
      rcases List.mem_append.mp inside with old | new
      · exact stale.2 note' old
      · rwa [List.mem_singleton.mp new]
  told other inside entry added := by
    rcases List.mem_append.mp inside with old | new
    · exact h.told other old entry added
    · rw [List.mem_singleton.mp new] at added
      exact agrees.adds entry added

theorem lose (h : Settling key current before heard view) (fewer : view' ⊆ view)
    (kept : ∀ entry ∈ current, entry ∈ view → entry ∈ view') :
    Settling key current before heard view' where
  lists note inside entry added :=
    kept entry (h.told note inside entry added) (h.lists note inside entry added)
  keeps entry held := h.keeps entry (fewer held)
  told := h.told

theorem settled (h : Settling key current before heard view)
    (all : ∀ entry ∈ current, ∃ note ∈ heard, entry ∈ note.adds) :
    current ⊆ view ∧ ∀ entry ∈ view, entry ∈ current ∨
      entry ∈ before ∧ ∀ note ∈ heard, key entry ∉ note.keys key := by
  refine ⟨fun entry mine => ?_, h.keeps⟩
  obtain ⟨note, inside, added⟩ := all entry mine
  exact h.lists note inside entry added

end Settling

end AbletonLink.Library
