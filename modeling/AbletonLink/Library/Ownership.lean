import AbletonLink.Library.Bindings

/-! Shared maps whose entries have owners.  An owner puts its token under a key, others may replace
it, and the owner takes the entry back only where it still finds its own token. -/

universe u v

namespace AbletonLink.Library

/-- The serial number is there for the laws, the token is all that is compared. -/
structure Owner (K : Type u) (T : Type v) where
  serial : ℕ
  key : K
  token : T

structure Owned (T : Type v) where
  token : T
  installer : ℕ
  deriving DecidableEq

abbrev OwnedMap (K : Type u) (T : Type v) := Bindings K (Owned T)

namespace OwnedMap

variable {K : Type u} {T : Type v} [DecidableEq K] [DecidableEq T]

def install (owner : Owner K T) (m : OwnedMap K T) : OwnedMap K T :=
  m.insert owner.key ⟨owner.token, owner.serial⟩

def release (owner : Owner K T) (m : OwnedMap K T) : OwnedMap K T :=
  if (m.lookup owner.key).any fun entry => entry.token = owner.token then m.erase owner.key else m

def Held (owners : Set (Owner K T)) (m : OwnedMap K T) : Prop :=
  ∀ key entry, m.lookup key = some entry → ⟨entry.installer, key, entry.token⟩ ∈ owners

/-- No two owners have one token. -/
structure Distinct (owners : Set (Owner K T)) : Prop where
  serials : Set.InjOn Owner.serial owners
  tokens : Set.InjOn Owner.token owners

variable {owners owners' : Set (Owner K T)} {owner : Owner K T} {m : OwnedMap K T}

omit [DecidableEq K] [DecidableEq T] in
theorem Distinct.image {ι : Type*} {f : ι → Owner K T} {holders : Set ι}
    (serials : Set.InjOn (fun i => (f i).serial) holders)
    (tokens : Set.InjOn (fun i => (f i).token) holders) : Distinct (f '' holders) :=
  ⟨Set.InjOn.image_of_comp serials, Set.InjOn.image_of_comp tokens⟩

omit [DecidableEq T]

theorem held_empty : Held owners (∅ : OwnedMap K T) := by
  intro key entry found
  rw [AList.lookup_empty] at found
  cases found

theorem Held.mono (held : Held owners m) (more : owners ⊆ owners') : Held owners' m :=
  fun key entry found => more (held key entry found)

theorem Held.install (held : Held owners m) (member : owner ∈ owners) :
    Held owners (m.install owner) := by
  intro key entry found
  unfold OwnedMap.install at found
  by_cases same : key = owner.key
  · rw [same, AList.lookup_insert] at found
    cases found
    rwa [same]
  · rw [AList.lookup_insert_ne same] at found
    exact held key entry found

theorem Held.erase (held : Held owners m) (k : K) : Held owners (m.erase k) := by
  intro key entry found
  by_cases same : key = k
  · rw [same, AList.lookup_erase] at found
    cases found
  · rw [AList.lookup_erase_ne same] at found
    exact held key entry found

theorem Held.eq_empty (held : Held (∅ : Set (Owner K T)) m) : m = ∅ := by
  refine AList.ext (List.eq_nil_iff_forall_not_mem.mpr ?_)
  rintro ⟨key, entry⟩ member
  exact held key entry (AList.mem_lookup_iff.mpr member)

variable [DecidableEq T]

theorem lookup_release (held : Held owners m) (distinct : Distinct owners) (member : owner ∈ owners)
    (key : K) :
    (m.release owner).lookup key =
      (m.lookup key).filter fun entry => entry.installer ≠ owner.serial := by
  unfold OwnedMap.release
  cases found : m.lookup key with
  | none =>
    split
    · exact AList.lookup_eq_none.mpr fun present =>
        AList.lookup_eq_none.mp found (AList.mem_erase.mp present).2
    · exact found
  | some entry =>
    have holder := held key entry found
    by_cases own : entry.installer = owner.serial
    · have same := distinct.serials holder member own
      subst same
      rw [found, if_pos (by simp), AList.lookup_erase, Option.filter_some, if_neg (by simp)]
    · have kept : Option.filter (fun entry => entry.installer ≠ owner.serial) (some entry) =
          some entry := by
        rw [Option.filter_some, if_pos (decide_eq_true own)]
      rw [kept]
      split
      next still =>
        obtain ⟨entry', there, token⟩ := (Option.any_eq_true _ _).mp still
        have apart : key ≠ owner.key := by
          intro same
          rw [← same, found] at there
          cases there
          -- One token under one key belongs to one owner.
          have one := distinct.tokens holder member (of_decide_eq_true token)
          exact own (congrArg Owner.serial one)
        rw [AList.lookup_erase_ne apart]
        exact found
      next => exact found

theorem Held.release (held : Held owners m) (distinct : Distinct owners) (member : owner ∈ owners) :
    Held (owners \ {owner}) (m.release owner) := by
  intro key entry found
  rw [lookup_release held distinct member, Option.filter_eq_some_iff] at found
  obtain ⟨found, other⟩ := found
  refine ⟨held key entry found, ?_⟩
  intro same
  exact of_decide_eq_true other (congrArg Owner.serial same)

end OwnedMap

end AbletonLink.Library
