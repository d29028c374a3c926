import AbletonLink.Audio.ByteStream

/-! What a reader does with data that ends too early, and how much it consumes. -/

namespace AbletonLink.Audio.ByteStreamReader

open Library Library.Bytes Wire

variable {α β : Type}

theorem bind_ok {r : ByteStreamReader α} {f : α → ByteStreamReader β} {data rest : Bytes}
    {value : β} : (r >>= f) data = .ok (value, rest) ↔
      ∃ first after, r data = .ok (first, after) ∧ f first after = .ok (value, rest) := by
  show ByteStreamReader.bind r f data = _ ↔ _
  unfold ByteStreamReader.bind
  cases r data with
  | ok both =>
    obtain ⟨first, after⟩ := both
    constructor
    · intro ok
      exact ⟨first, after, rfl, ok⟩
    · rintro ⟨_, _, ⟨⟩, ok⟩
      exact ok
  | error error =>
    constructor
    · rintro ⟨⟩
    · rintro ⟨_, _, ⟨⟩, _⟩

theorem map_ok {r : ByteStreamReader α} {f : α → β} {data rest : Bytes} {value : β} :
    (do return f (← r) : ByteStreamReader β) data = .ok (value, rest) ↔
      ∃ first, r data = .ok (first, rest) ∧ f first = value := by
  rw [bind_ok]
  constructor
  · rintro ⟨first, _, ok, ⟨⟩⟩
    exact ⟨first, ok, rfl⟩
  · rintro ⟨first, ok, rfl⟩
    exact ⟨first, rest, ok, rfl⟩

theorem bind_of_reads {r : ByteStreamReader α} {f : α → ByteStreamReader β} {value : α}
    {bytes : Bytes} (reads : Reads r value bytes) (rest : Bytes) :
    (r >>= f) (bytes ++ rest) = f value rest := by
  show ByteStreamReader.bind r f _ = _
  rw [ByteStreamReader.bind, reads]

/-! Failing reads. -/

def Fails (r : ByteStreamReader α) (data : Bytes) : Prop := ∃ error, r data = .error error

namespace Fails

variable {r : ByteStreamReader α} {f : α → ByteStreamReader β} {data rest : Bytes} {value : α}

theorem fail (error : AudioError) : Fails (ByteStreamReader.fail error : ByteStreamReader α) data :=
  ⟨error, rfl⟩

theorem bind (fails : Fails r data) : Fails (r >>= f) data := by
  obtain ⟨error, failed⟩ := fails
  refine ⟨error, ?_⟩
  show ByteStreamReader.bind r f data = _
  rw [ByteStreamReader.bind, failed]

theorem bind_of_ok (ok : r data = .ok (value, rest)) (fails : Fails (f value) rest) :
    Fails (r >>= f) data := by
  obtain ⟨error, failed⟩ := fails
  refine ⟨error, ?_⟩
  show ByteStreamReader.bind r f data = _
  rw [ByteStreamReader.bind, ok]
  exact failed

theorem take {n : Nat} (short : data.length < n) : Fails (ByteStreamReader.take n) data :=
  ⟨_, if_pos short⟩

theorem readU8_nil : Fails readU8 [] := (take (by decide)).bind

end Fails

/-- A part of `bytes` from the front is the whole, or another front, or reaches into what
follows. -/
theorem front_cases {bytes bytes' front : Bytes} (prefix' : front <+: bytes ++ bytes')
    (proper : front ≠ bytes ++ bytes') :
    (front <+: bytes ∧ front ≠ bytes) ∨
      ∃ front', front = bytes ++ front' ∧ front' <+: bytes' ∧ front' ≠ bytes' := by
  obtain ⟨tail, whole⟩ := prefix'
  obtain ⟨more, split, -⟩ | ⟨more, split, tail'⟩ := List.append_eq_append_iff.mp whole
  · by_cases reached : front = bytes
    · refine .inr ⟨[], by rw [List.append_nil, reached], List.nil_prefix, ?_⟩
      rintro rfl
      rw [List.append_nil] at proper
      exact proper reached
    · exact .inl ⟨⟨more, split.symm⟩, reached⟩
  · refine .inr ⟨more, split, ⟨tail, tail'.symm⟩, ?_⟩
    rintro rfl
    exact proper split

/-- `r` fails on every proper front of `bytes`. -/
def Cuts (r : ByteStreamReader α) (bytes : Bytes) : Prop :=
  ∀ front, front <+: bytes → front ≠ bytes → Fails r front

/-- `r` fails on a proper front of `bytes` or takes all of it. -/
def Drains (r : ByteStreamReader α) (bytes : Bytes) : Prop :=
  ∀ front, front <+: bytes → front ≠ bytes → Fails r front ∨ ∃ value, r front = .ok (value, [])

theorem Cuts.nil (r : ByteStreamReader α) : Cuts r [] := by
  intro front prefix' proper
  exact absurd (List.prefix_nil.mp prefix') proper

theorem Cuts.drains {r : ByteStreamReader α} {bytes : Bytes} (cuts : Cuts r bytes) :
    Drains r bytes :=
  fun front prefix' proper => .inl (cuts front prefix' proper)

/-- `r` reads `value` off `bytes` and off nothing shorter. -/
structure Parses (r : ByteStreamReader α) (value : α) (bytes : Bytes) : Prop where
  reads : Reads r value bytes
  cuts : Cuts r bytes

namespace Parses

variable {r : ByteStreamReader α} {f : α → ByteStreamReader β} {value : α} {value' : β}
  {bytes bytes' : Bytes}

theorem bind_of_drains (reads : Reads r value bytes) (drains : Drains r bytes)
    (starves : ∀ value, Fails (f value) []) (later : Parses (f value) value' bytes') :
    Parses (r >>= f) value' (bytes ++ bytes') := by
  refine ⟨reads.bind later.reads, fun front prefix' proper => ?_⟩
  obtain ⟨early, before⟩ | ⟨front', rfl, early, before⟩ := front_cases prefix' proper
  · obtain fails | ⟨short, ok⟩ := drains front early before
    · exact fails.bind
    · exact .bind_of_ok ok (starves short)
  · exact .bind_of_ok (reads front') (later.cuts front' early before)

theorem bind (first : Parses r value bytes) (later : Parses (f value) value' bytes') :
    Parses (r >>= f) value' (bytes ++ bytes') := by
  refine ⟨first.reads.bind later.reads, fun front prefix' proper => ?_⟩
  obtain ⟨early, before⟩ | ⟨front', rfl, early, before⟩ := front_cases prefix' proper
  · exact (first.cuts front early before).bind
  · exact .bind_of_ok (first.reads front') (later.cuts front' early before)

theorem map (parses : Parses r value bytes) (f : α → β) :
    Parses (do return f (← r)) (f value) bytes :=
  ⟨parses.reads.map f, fun front prefix' proper => (parses.cuts front prefix' proper).bind⟩

theorem take {n : Nat} (length : bytes.length = n) :
    Parses (ByteStreamReader.take n) bytes bytes := by
  refine ⟨.take length, fun front prefix' proper => Fails.take ?_⟩
  have shorter := prefix'.length_le
  have apart : front.length ≠ bytes.length := fun same => proper (prefix'.eq_of_length same)
  omega

theorem readU8 (v : UInt8) : Parses ByteStreamReader.readU8 v [v] :=
  ⟨.readU8 v, ((take rfl).map _).cuts⟩

theorem readU16 (v : UInt16) : Parses ByteStreamReader.readU16 v (encodeU16 v) :=
  ⟨.readU16 v, ((take (length_encodeU16 v)).map _).cuts⟩

theorem readU32 (v : UInt32) : Parses ByteStreamReader.readU32 v (encodeU32 v) :=
  ⟨.readU32 v, ((take (length_encodeU32 v)).map _).cuts⟩

theorem readU64 (v : UInt64) : Parses ByteStreamReader.readU64 v (toBe 8 v.toNat) :=
  ⟨.readU64 v, ((take (length_toBe 8 v.toNat)).map _).cuts⟩

theorem readI64 (v : Int64) : Parses ByteStreamReader.readI64 v (encodeI64 v) :=
  ⟨.readI64 v, ((readU64 v.toUInt64).map _).cuts⟩

theorem readId (id : Id) : Parses ByteStreamReader.readId id (NodeId.encodeTo id) :=
  ⟨.readId id, ((take (NodeId.length_encodeTo id)).map _).cuts⟩

end Parses

theorem Drains.readItems {r : ByteStreamReader β} {read : α → β} {encode : α → Bytes}
    (items : List α) (each : ∀ item ∈ items, Parses r (read item) (encode item)) :
    Drains (ByteStreamReader.readItems r items.length) (items.flatMap encode) := by
  induction items with
  | nil => exact (Cuts.nil _).drains
  | cons item items ih =>
    obtain ⟨here, others⟩ := List.forall_mem_cons.mp each
    intro front prefix' proper
    by_cases empty : front = []
    · subst empty
      exact .inr ⟨[], rfl⟩
    · have more : ¬front.isEmpty = true := by simpa using empty
      have unfolded : ByteStreamReader.readItems r (items.length + 1) front = (do
          let item ← r
          let items ← ByteStreamReader.readItems r items.length
          return item :: items : ByteStreamReader (List β)) front := if_neg more
      obtain ⟨early, before⟩ | ⟨front', rfl, early, before⟩ := front_cases prefix' proper
      · obtain ⟨error, failed⟩ := Fails.bind (f := fun item => do
          let items ← ByteStreamReader.readItems r items.length
          return item :: items) (here.cuts front early before)
        exact .inl ⟨error, unfolded.trans failed⟩
      · obtain ⟨error, failed⟩ | ⟨short, ok⟩ := ih others front' early before
        · obtain ⟨error, failed⟩ := Fails.bind_of_ok (f := fun item => do
            let items ← ByteStreamReader.readItems r items.length
            return item :: items) (here.reads front') (Fails.bind ⟨error, failed⟩)
          exact .inl ⟨error, unfolded.trans failed⟩
        · refine .inr ⟨read item :: short, unfolded.trans ?_⟩
          exact bind_ok.mpr ⟨read item, front', here.reads front', bind_ok.mpr ⟨short, [], ok, rfl⟩⟩

theorem Parses.readVec_bind {r : ByteStreamReader β} {read : α → β} {encode : α → Bytes}
    {items : List α} (few : items.length < 2 ^ 32)
    (each : ∀ item ∈ items, Parses r (read item) (encode item))
    (nonempty : ∀ item ∈ items, encode item ≠ []) {γ : Type} {f : List β → ByteStreamReader γ}
    {value : γ} {bytes : Bytes} (starves : ∀ items, Fails (f items) [])
    (later : Parses (f (items.map read)) value bytes) :
    Parses (ByteStreamReader.readVec r >>= f) value
      (encodeU32 (UInt32.ofNat items.length) ++ items.flatMap encode ++ bytes) := by
  have count : (UInt32.ofNat items.length).toNat = items.length := UInt32.toNat_ofNat_of_lt' few
  have reads := Reads.readVec few (fun item member => (each item member).reads) nonempty
  refine .bind_of_drains reads ?_ starves later
  intro front prefix' proper
  obtain ⟨early, before⟩ | ⟨front', rfl, early, before⟩ := front_cases prefix' proper
  · exact .inl ((Parses.readU32 _).cuts front early before).bind
  · have items' := Drains.readItems items each front' early before
    rw [← count] at items'
    obtain fails | ⟨short, ok⟩ := items'
    · exact .inl (.bind_of_ok ((Parses.readU32 _).reads front') fails)
    · exact .inr ⟨short, bind_ok.mpr ⟨_, front', (Parses.readU32 _).reads front', ok⟩⟩

def Takes (r : ByteStreamReader α) (n : Nat) : Prop :=
  ∀ data value rest, r data = .ok (value, rest) → rest.length + n ≤ data.length

section Takes

variable {r : ByteStreamReader α} {f : α → ByteStreamReader β} {n m : Nat}

theorem Takes.take (n : Nat) : Takes (ByteStreamReader.take n) n := by
  intro data value rest ok
  unfold ByteStreamReader.take at ok
  split at ok
  · cases ok
  · cases ok
    rw [List.length_drop]
    omega

theorem Takes.bind (first : Takes r n) (second : ∀ value, Takes (f value) m) :
    Takes (r >>= f) (n + m) := by
  intro data value rest ok
  obtain ⟨between, after, ok, ok'⟩ := bind_ok.mp ok
  have := first _ _ _ ok
  have := second _ _ _ _ ok'
  omega

theorem Takes.map (takes : Takes r n) (f : α → β) : Takes (do return f (← r)) n := by
  intro data value rest ok
  obtain ⟨first, ok, -⟩ := map_ok.mp ok
  exact takes _ _ _ ok

theorem Takes.readU16 : Takes ByteStreamReader.readU16 2 := (Takes.take 2).map _
theorem Takes.readU32 : Takes ByteStreamReader.readU32 4 := (Takes.take 4).map _
theorem Takes.readU64 : Takes ByteStreamReader.readU64 8 := (Takes.take 8).map _
theorem Takes.readI64 : Takes ByteStreamReader.readI64 8 := Takes.readU64.map _
theorem Takes.readId : Takes ByteStreamReader.readId 8 := (Takes.take 8).map _

theorem readItems_length (takes : Takes r n) {count : Nat} {data rest : Bytes} {items : List α}
    (ok : ByteStreamReader.readItems r count data = .ok (items, rest)) :
    rest.length + items.length * n ≤ data.length ∧ items.length ≤ count := by
  induction count generalizing data rest items with
  | zero =>
    cases ok
    simp
  | succ count ih =>
    unfold ByteStreamReader.readItems at ok
    split at ok
    · cases ok
      simp
    · obtain ⟨item, after, here, ok⟩ := bind_ok.mp ok
      obtain ⟨others, _, ok, ⟨⟩⟩ := bind_ok.mp ok
      have := takes _ _ _ here
      obtain ⟨room, few⟩ := ih ok
      rw [List.length_cons, Nat.succ_mul]
      omega

theorem readVec_length (takes : Takes r n) {data rest : Bytes} {items : List α}
    (ok : ByteStreamReader.readVec r data = .ok (items, rest)) :
    rest.length + items.length * n ≤ data.length ∧ items.length < 2 ^ 32 := by
  obtain ⟨count, after, counted, ok⟩ := bind_ok.mp ok
  obtain ⟨room, few⟩ := readItems_length takes ok
  have := Takes.readU32 _ _ _ counted
  have := count.toNat_lt
  omega

end Takes

/-- `r'` reads the image of what `r` reads, and fails with it. -/
def Mirrors (f : α → β) (r : ByteStreamReader α) (r' : ByteStreamReader β) : Prop :=
  ∀ data, r' data = (r data).map fun (value, rest) => (f value, rest)

namespace Mirrors

variable {γ δ : Type} {f : α → β} {g : γ → δ}

theorem pure (value : α) : Mirrors f (Pure.pure value) (Pure.pure (f value)) := fun _ => rfl

theorem fail (error : AudioError) :
    Mirrors f (ByteStreamReader.fail error) (ByteStreamReader.fail error) := fun _ => rfl

theorem bind {r : ByteStreamReader γ} {r' : ByteStreamReader δ} {k : γ → ByteStreamReader α}
    {k' : δ → ByteStreamReader β} (first : Mirrors g r r')
    (later : ∀ value, Mirrors f (k value) (k' (g value))) : Mirrors f (r >>= k) (r' >>= k') := by
  intro data
  show ByteStreamReader.bind r' k' data = (ByteStreamReader.bind r k data).map _
  rw [ByteStreamReader.bind, ByteStreamReader.bind, first]
  cases r data with
  | ok both => exact later _ _
  | error error => rfl

theorem bind_same (r : ByteStreamReader γ) {k : γ → ByteStreamReader α}
    {k' : γ → ByteStreamReader β} (later : ∀ value, Mirrors f (k value) (k' value)) :
    Mirrors f (r >>= k) (r >>= k') := by
  have same : Mirrors id r r := by
    intro data
    cases r data <;> rfl
  exact same.bind later

theorem ite (p : Prop) [Decidable p] {r s : ByteStreamReader α} {r' s' : ByteStreamReader β}
    (yes : p → Mirrors f r r') (no : ¬p → Mirrors f s s') :
    Mirrors f (if p then r else s) (if p then r' else s') := by
  by_cases h : p
  · rw [if_pos h, if_pos h]
    exact yes h
  · rw [if_neg h, if_neg h]
    exact no h

theorem readItems {r : ByteStreamReader α} {r' : ByteStreamReader β} (each : Mirrors f r r')
    (count : Nat) :
    Mirrors (List.map f) (ByteStreamReader.readItems r count)
      (ByteStreamReader.readItems r' count) := by
  induction count with
  | zero => exact pure []
  | succ count ih =>
    intro data
    by_cases empty : data.isEmpty = true
    · simp only [ByteStreamReader.readItems, empty, if_true]
      rfl
    · simp only [ByteStreamReader.readItems, empty, if_false, Bool.false_eq_true]
      exact each.bind (fun item => ih.bind fun items => pure (item :: items)) data

theorem readVec {r : ByteStreamReader α} {r' : ByteStreamReader β} (each : Mirrors f r r') :
    Mirrors (List.map f) (ByteStreamReader.readVec r) (ByteStreamReader.readVec r') :=
  bind_same _ fun count => each.readItems count.toNat

end Mirrors

end AbletonLink.Audio.ByteStreamReader
