import AbletonLink.Library.FirstMatch

/-! A roster of names and addresses that is fed from snapshots: an address is entered once, a name
without an address is struck off, and names outside the snapshot are dropped at its end. -/

universe u v

namespace AbletonLink.Library.Roster

variable {ι : Type u} {ε : Type v} [DecidableEq ι] [DecidableEq ε]

def saw (roster : List (ι × ε)) (line : ι × Option ε) : List (ι × ε) :=
  match line.2 with
  | some address =>
    if roster.any fun p => p.2 = address then roster else roster ++ [(line.1, address)]
  | none => roster.filter fun p => p.1 ≠ line.1

def round (roster : List (ι × ε)) (snapshot : List (ι × Option ε)) : List (ι × ε) :=
  (snapshot.foldl saw roster).filter fun p => (snapshot.map Prod.fst).contains p.1

def advertised (snapshot : List (ι × Option ε)) : List (ι × ε) :=
  snapshot.filterMap fun line => line.2.map fun address => (line.1, address)

structure Distinct (snapshot : List (ι × Option ε)) : Prop where
  names : (snapshot.map Prod.fst).Nodup
  addresses : (snapshot.filterMap Prod.snd).Nodup

def Freed (roster : List (ι × ε)) (snapshot : List (ι × Option ε)) (name : ι) (address : ε) :
    Prop :=
  ∃ before after, snapshot = before ++ (name, some address) :: after ∧
    ∀ holder, (holder, address) ∈ roster → (holder, none) ∈ before

/-- No name changes its address directly, and no address passes to another name, but for one that
its holder gives up earlier in the snapshot. -/
structure Clean (roster : List (ι × ε)) (snapshot : List (ι × Option ε)) : Prop where
  kept : ∀ name address other, (name, address) ∈ roster → (name, some other) ∈ snapshot →
    address = other
  passed : ∀ holder name address, (holder, address) ∈ roster → (name, some address) ∈ snapshot →
    holder = name ∨ Freed roster snapshot name address

omit [DecidableEq ι] [DecidableEq ε] in
theorem mem_advertised {snapshot : List (ι × Option ε)} {name : ι} {address : ε} :
    (name, address) ∈ advertised snapshot ↔ (name, some address) ∈ snapshot := by
  simp only [advertised, List.mem_filterMap, Option.map_eq_some_iff, Prod.mk.injEq]
  constructor
  · rintro ⟨⟨_, _⟩, member, _, rfl, rfl, rfl⟩
    exact member
  · exact fun member => ⟨_, member, address, rfl, rfl, rfl⟩

section Distinct

variable {snapshot : List (ι × Option ε)}

omit [DecidableEq ι] [DecidableEq ε] in
theorem Distinct.address_eq (h : Distinct snapshot) {name : ι} {a b : Option ε}
    (ha : (name, a) ∈ snapshot) (hb : (name, b) ∈ snapshot) : a = b :=
  congrArg Prod.snd (List.inj_on_of_nodup_map h.names ha hb rfl)

omit [DecidableEq ι] [DecidableEq ε] in
theorem Distinct.of_append {before after : List (ι × Option ε)}
    (h : Distinct (before ++ after)) : Distinct before where
  names := by
    have names := h.names
    rw [List.map_append] at names
    exact (List.nodup_append.mp names).1
  addresses := by
    have addresses := h.addresses
    rw [List.filterMap_append] at addresses
    exact (List.nodup_append.mp addresses).1

end Distinct

section Round

variable {roster : List (ι × ε)} {snapshot : List (ι × Option ε)}

theorem nodup_saw (h : (roster.map Prod.snd).Nodup) (line : ι × Option ε) :
    ((saw roster line).map Prod.snd).Nodup := by
  unfold saw
  split
  · split
    case isTrue => exact h
    case isFalse address _ absent =>
      refine nodup_map_concat h fun p member same => absent ?_
      exact List.any_eq_true.mpr ⟨p, member, by simpa using same⟩
  · exact h.sublist (List.filter_sublist.map _)

theorem nodup_round (h : (roster.map Prod.snd).Nodup) (snapshot : List (ι × Option ε)) :
    ((round roster snapshot).map Prod.snd).Nodup := by
  have seen : ((snapshot.foldl saw roster).map Prod.snd).Nodup := by
    induction snapshot generalizing roster with
    | nil => exact h
    | cons line snapshot ih => exact ih (nodup_saw h line)
  exact seen.sublist (List.filter_sublist.map _)

theorem mem_saw_some {name n : ι} {address a : ε} :
    (n, a) ∈ saw roster (name, some address) ↔ (n, a) ∈ roster ∨
      n = name ∧ a = address ∧ ∀ holder, (holder, address) ∉ roster := by
  have taken : (roster.any fun p => p.2 = address) = true ↔
      ∃ holder, (holder, address) ∈ roster := by
    simp [List.any_eq_true]
  unfold saw
  dsimp only
  split
  case isTrue found =>
    obtain ⟨holder, member⟩ := taken.mp found
    exact ⟨.inl, fun either => either.elim id fun free => absurd member (free.2.2 holder)⟩
  case isFalse absent =>
    have free := not_exists.mp (mt taken.mpr absent)
    simp only [List.mem_append, List.mem_singleton, Prod.mk.injEq]
    exact or_congr_right ⟨fun same => ⟨same.1, same.2, free⟩, fun same => ⟨same.1, same.2.1⟩⟩

theorem mem_saw_none {name n : ι} {a : ε} :
    (n, a) ∈ saw roster (name, none) ↔ (n, a) ∈ roster ∧ n ≠ name := by
  simp [saw]

omit [DecidableEq ι] [DecidableEq ε] in
theorem freed_append_iff {before : List (ι × Option ε)} {line : ι × Option ε} {n : ι} {a : ε}
    (fresh : line ≠ (n, some a)) :
    Freed roster (before ++ [line]) n a ↔ Freed roster before n a := by
  constructor
  · rintro ⟨front, back, split, struck⟩
    cases back using List.reverseRecOn with
    | nil =>
      have last := (List.append_inj' split rfl).2
      exact absurd (List.singleton_inj.mp last) fresh
    | append_singleton back last =>
      rw [← List.cons_append, ← List.append_assoc] at split
      exact ⟨front, back, (List.append_inj' split rfl).1, struck⟩
  · rintro ⟨front, back, rfl, struck⟩
    exact ⟨front, back ++ [line], by simp, struck⟩

/-- Who is on the roster after the lines: the old ones that were not struck off and the new ones
whose address was free when their line came. -/
theorem mem_foldl_saw (distinct : Distinct snapshot) {n : ι} {a : ε} :
    (n, a) ∈ snapshot.foldl saw roster ↔
      (n, a) ∈ roster ∧ (n, none) ∉ snapshot ∨ Freed roster snapshot n a := by
  induction snapshot using List.reverseRecOn generalizing n a with
  | nil => simp [Freed]
  | append_singleton before line ih =>
    have ih {n : ι} {a : ε} := @ih distinct.of_append n a
    obtain ⟨name, address⟩ := line
    rw [List.foldl_append, List.foldl_cons, List.foldl_nil]
    cases address with
    | none =>
      have struck : Freed roster before n a → n ≠ name := by
        rintro ⟨front, back, rfl, -⟩ rfl
        have eq := distinct.address_eq (show (n, some a) ∈ _ by simp) (show (n, none) ∈ _ by simp)
        cases eq
      rw [mem_saw_none, ih, freed_append_iff (by simp)]
      simp only [List.mem_append, List.mem_singleton, Prod.mk.injEq, and_true, not_or]
      tauto
    | some address =>
      have stays : (n, none) ∈ before ++ [(name, some address)] ↔ (n, none) ∈ before := by simp
      rw [mem_saw_some, ih, stays]
      by_cases own : n = name ∧ a = address
      · obtain ⟨rfl, rfl⟩ := own
        have fresh : a ∉ before.filterMap Prod.snd := by
          have addresses := distinct.addresses
          rw [List.filterMap_append] at addresses
          exact fun member =>
            (List.nodup_append.mp addresses).2.2 a member a (List.mem_singleton_self a) rfl
        have first {holder : ι} {front back : List (ι × Option ε)}
            (split : before = front ++ (holder, some a) :: back) : False :=
          fresh (List.mem_filterMap.mpr ⟨(holder, some a), by simp [split], rfl⟩)
        constructor
        · rintro ((old | ⟨front, back, split, -⟩) | ⟨-, -, free⟩)
          · exact .inl old
          · exact (first split).elim
          · exact .inr ⟨before, [], rfl, fun holder member => by_contra fun unstruck =>
              free holder (ih.mpr (.inl ⟨member, unstruck⟩))⟩
        · rintro (old | ⟨front, back, split, struck⟩)
          · exact .inl (.inl old)
          · cases back using List.reverseRecOn with
            | nil =>
              obtain ⟨rfl, -⟩ := List.append_inj' split rfl
              refine .inr ⟨rfl, rfl, fun holder member => ?_⟩
              rcases ih.mp member with ⟨old, unstruck⟩ | ⟨front, back, split, -⟩
              · exact unstruck (struck holder old)
              · exact first split
            | append_singleton back last =>
              rw [← List.cons_append, ← List.append_assoc] at split
              exact (first (List.append_inj' split rfl).1).elim
      · rw [freed_append_iff (fun same => own (by simpa [eq_comm] using same))]
        constructor
        · rintro (old | ⟨same, again, -⟩)
          · exact old
          · exact absurd ⟨same, again⟩ own
        · exact .inl

theorem mem_round (distinct : Distinct snapshot) {n : ι} {a : ε} :
    (n, a) ∈ round roster snapshot ↔
      ((n, a) ∈ roster ∧ (n, none) ∉ snapshot ∨ Freed roster snapshot n a) ∧
        n ∈ snapshot.map Prod.fst := by
  rw [round, List.mem_filter, mem_foldl_saw distinct, List.contains_iff_mem]

theorem mem_round_iff_clean (distinct : Distinct snapshot) (nodup : (roster.map Prod.snd).Nodup) :
    (∀ n a, (n, a) ∈ round roster snapshot ↔ (n, some a) ∈ snapshot) ↔
      Clean roster snapshot := by
  have named {n : ι} {address : Option ε} (line : (n, address) ∈ snapshot) :
      n ∈ snapshot.map Prod.fst := List.mem_map_of_mem line
  have addressed {n : ι} {a : ε} (line : (n, some a) ∈ snapshot) : (n, none) ∉ snapshot :=
    fun struck => nomatch distinct.address_eq line struck
  constructor
  · intro same
    refine ⟨fun n a other held line => ?_, fun holder n a held line => ?_⟩
    · have stays := (mem_round distinct).mpr ⟨.inl ⟨held, addressed line⟩, named line⟩
      exact Option.some.inj (distinct.address_eq ((same n a).mp stays) line)
    · rcases ((mem_round distinct).mp ((same n a).mpr line)).1 with ⟨old, -⟩ | freed
      · exact .inl (congrArg Prod.fst (List.inj_on_of_nodup_map nodup held old rfl))
      · exact .inr freed
  · intro clean n a
    rw [mem_round distinct]
    constructor
    · rintro ⟨⟨held, unstruck⟩ | ⟨before, after, rfl, -⟩, member⟩
      · obtain ⟨⟨_, address⟩, line, rfl⟩ := List.mem_map.mp member
        cases address with
        | none => exact absurd line unstruck
        | some other => rwa [clean.kept _ _ _ held line]
      · simp
    · intro line
      refine ⟨?_, named line⟩
      by_cases holders : ∃ holder, (holder, a) ∈ roster
      · obtain ⟨holder, held⟩ := holders
        rcases clean.passed holder n a held line with rfl | freed
        · exact .inl ⟨held, addressed line⟩
        · exact .inr freed
      · obtain ⟨before, after, split⟩ := List.mem_iff_append.mp line
        exact .inr ⟨before, after, split, fun holder held => absurd ⟨holder, held⟩ holders⟩

omit [DecidableEq ι] [DecidableEq ε] in
theorem nodup_advertised (distinct : Distinct snapshot) :
    ((advertised snapshot).map Prod.snd).Nodup := by
  have same : (advertised snapshot).map Prod.snd = snapshot.filterMap Prod.snd := by
    rw [advertised, List.map_filterMap]
    refine congrArg (List.filterMap · snapshot) (funext fun line => ?_)
    cases line.2 <;> rfl
  rw [same]
  exact distinct.addresses

theorem round_perm_iff (distinct : Distinct snapshot) (nodup : (roster.map Prod.snd).Nodup) :
    (round roster snapshot).Perm (advertised snapshot) ↔ Clean roster snapshot := by
  rw [← mem_round_iff_clean distinct nodup, List.perm_ext_iff_of_nodup
    (nodup_round nodup snapshot).of_map (nodup_advertised distinct).of_map]
  exact ⟨fun same n a => (same (n, a)).trans mem_advertised,
    fun same line => (same line.1 line.2).trans mem_advertised.symm⟩

omit [DecidableEq ι] [DecidableEq ε] in
theorem Clean.of_perm {other : List (ι × ε)} (h : Clean roster snapshot)
    (perm : roster.Perm other) : Clean other snapshot where
  kept name address new held := h.kept name address new (perm.mem_iff.mpr held)
  passed holder name address held line := by
    refine (h.passed holder name address (perm.mem_iff.mpr held) line).imp_right ?_
    rintro ⟨before, after, split, struck⟩
    exact ⟨before, after, split, fun holder held => struck holder (perm.mem_iff.mpr held)⟩

end Round

def CleanRun : List (ι × ε) → List (List (ι × Option ε)) → Prop
  | _, [] => True
  | held, snapshot :: snapshots => Clean held snapshot ∧ CleanRun (advertised snapshot) snapshots

omit [DecidableEq ι] [DecidableEq ε] in
theorem cleanRun_of_perm {held other : List (ι × ε)} (perm : held.Perm other)
    {snapshots : List (List (ι × Option ε))} (h : CleanRun held snapshots) :
    CleanRun other snapshots := by
  cases snapshots with
  | nil => trivial
  | cons snapshot snapshots => exact ⟨h.1.of_perm perm, h.2⟩

theorem rounds_perm_iff {roster : List (ι × ε)} (nodup : (roster.map Prod.snd).Nodup)
    {snapshots : List (List (ι × Option ε))} (distinct : ∀ s ∈ snapshots, Distinct s) :
    (∀ before snapshot, before ++ [snapshot] <+: snapshots →
      (round (before.foldl round roster) snapshot).Perm (advertised snapshot)) ↔
        CleanRun roster snapshots := by
  induction snapshots generalizing roster with
  | nil => simp [CleanRun]
  | cons snapshot snapshots ih =>
    obtain ⟨here, later⟩ := List.forall_mem_cons.mp distinct
    have ih := ih (nodup_round nodup snapshot) later
    constructor
    · intro all
      have followed := all [] snapshot (by simp)
      refine ⟨(round_perm_iff here nodup).mp followed, cleanRun_of_perm followed (ih.mp ?_)⟩
      intro before next shorter
      exact all (snapshot :: before) next (List.cons_prefix_cons.mpr ⟨rfl, shorter⟩)
    · rintro ⟨clean, rest⟩ before next shorter
      have followed := (round_perm_iff here nodup).mpr clean
      cases before with
      | nil =>
        obtain ⟨rfl, -⟩ := List.cons_prefix_cons.mp shorter
        exact followed
      | cons first before =>
        obtain ⟨rfl, tail⟩ := List.cons_prefix_cons.mp shorter
        exact ih.mpr (cleanRun_of_perm followed.symm rest) before next tail

end AbletonLink.Library.Roster
