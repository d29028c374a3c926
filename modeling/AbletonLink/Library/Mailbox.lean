import Mathlib.Tactic

/-! A slot that keeps the last value posted, for one reader that may put back what it took. -/

universe u

namespace AbletonLink.Library

structure Posted (α : Type u) where
  serial : ℕ
  value : α
  deriving DecidableEq

/-- `posted` is everything that was ever posted. -/
structure Mailbox (α : Type u) where
  slot : Option (Posted α)
  posted : List α
  deriving DecidableEq

namespace Mailbox

variable {α : Type u}

def ofOption (value : Option α) : Mailbox α := ⟨value.map (⟨0, ·⟩), value.toList⟩

def post (m : Mailbox α) (value : α) : Mailbox α :=
  ⟨some ⟨m.posted.length, value⟩, m.posted ++ [value]⟩

def take (m : Mailbox α) : Mailbox α := { m with slot := none }

def putBack (m : Mailbox α) (p : Posted α) : Mailbox α := { m with slot := some (m.slot.getD p) }

structure Latest (m : Mailbox α) (p : Posted α) : Prop where
  value : m.posted.getLast? = some p.value
  serial : p.serial + 1 = m.posted.length

/-- The slot has the last value posted; what the reader holds is that value, too, as long as the
slot is empty. -/
structure Inv (m : Mailbox α) (held : Option (Posted α)) : Prop where
  slot : ∀ p, m.slot = some p → m.Latest p
  held : ∀ p, held = some p → m.slot = none → m.Latest p

variable {m : Mailbox α} {held : Option (Posted α)} {p : Posted α}

theorem inv_ofOption (value : Option α) : (ofOption value).Inv none := by
  constructor
  · intro p found
    obtain ⟨v, rfl, rfl⟩ := Option.map_eq_some_iff.mp found
    exact ⟨rfl, rfl⟩
  · rintro p ⟨⟩

theorem latest_post (m : Mailbox α) (value : α) : (m.post value).Latest ⟨m.posted.length, value⟩ :=
  ⟨List.getLast?_concat, by simp [post]⟩

theorem Inv.post (value : α) : (m.post value).Inv held := by
  constructor
  · intro p found
    cases found
    exact m.latest_post value
  · rintro p - ⟨⟩

theorem Inv.take (inv : m.Inv none) (found : m.slot = some p) : m.take.Inv (some p) := by
  have latest := inv.slot p found
  constructor
  · rintro q ⟨⟩
  · rintro q held -
    cases held
    exact ⟨latest.value, latest.serial⟩

theorem Inv.putBack (inv : m.Inv (some p)) : (m.putBack p).Inv none := by
  constructor
  · intro q found
    cases slot : m.slot with
    | none =>
      unfold Mailbox.putBack at found
      rw [slot] at found
      cases found
      have latest := inv.held p rfl slot
      exact ⟨latest.value, latest.serial⟩
    | some newer =>
      unfold Mailbox.putBack at found
      rw [slot] at found
      cases found
      have latest := inv.slot newer slot
      exact ⟨latest.value, latest.serial⟩
  · rintro q ⟨⟩

theorem Inv.drop (inv : m.Inv held) : m.Inv none := ⟨inv.slot, nofun⟩

theorem slot_putBack (found : m.slot = some p) (older : Posted α) :
    (m.putBack older).slot = some p := by
  unfold putBack
  rw [found]
  rfl

end Mailbox

end AbletonLink.Library
