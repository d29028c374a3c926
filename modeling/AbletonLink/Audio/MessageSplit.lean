import AbletonLink.Audio.Engine
import AbletonLink.Audio.Entries
import AbletonLink.Library.MachineInt
import AbletonLink.Library.NextFit

/-! Announcements and byes are split into messages that fit, and arrive as they were sent. -/

namespace AbletonLink.Audio

open Library Library.Bytes Library.MachineInt Link Wire ByteStreamReader AudioBuffer

namespace EngineState

def channelAnnouncements (state : EngineState) : List ChannelAnnouncement :=
  state.sinks.map fun entry => { name := entry.sink.name, id := entry.sink.id }

def announcements (state : EngineState) (peerName : String) : List PeerAnnouncement :=
  let base : PeerAnnouncement :=
    { nodeId := state.nodeId
      sessionId := state.sessionId
      peerInfo := PeerInfo.new peerName
      channels := [] }
  let pingSize := Entry.sizeInByteStream (HostTime.mk .zero)
  state.channelAnnouncements.foldl
    (fun announcements channel =>
      let channelSize := channel.sizeInByteStream
      let addedSize := if announcements.length = 1 then channelSize + pingSize else channelSize
      let currentSize := (announcements.getLast?.map PeerAnnouncement.payloadSize).getD 0
      let announcements :=
        if currentSize + addedSize > UInt32.ofNat maxPayloadSize then announcements ++ [base]
        else announcements
      announcements.modifyLast fun last => { last with channels := last.channels ++ [channel] })
    [base]

end EngineState

/-- Splits channel byes into payloads that fit a single message. -/
def splitByes (ids : List Id) : List ChannelByes :=
  let result := ids.foldl
    (fun result bye =>
      let addedSize := ChannelBye.sizeInByteStream bye
      let result :=
        if result.getLast?.any fun last =>
            Entry.sizeInByteStream last + addedSize > UInt32.ofNat maxPayloadSize then
          result ++ [[]]
        else result
      result.modifyLast fun last => last ++ [bye])
    [[]]
  result.filter fun byes => !byes.isEmpty

/-! Sizes as natural numbers. -/

theorem exceeds_iff {n : Nat} (small : n < 2 ^ 32) :
    UInt32.ofNat n > UInt32.ofNat maxPayloadSize ↔ maxPayloadSize < n := by
  have limit : (UInt32.ofNat maxPayloadSize).toNat = maxPayloadSize := rfl
  rw [gt_iff_lt, UInt32.lt_iff_toNat_lt, UInt32.toNat_ofNat_of_lt' small, limit]

namespace ChannelAnnouncement

def wireSize (channel : ChannelAnnouncement) : Nat := 4 + channel.name.utf8ByteSize + 8

def Named (channel : ChannelAnnouncement) : Prop := channel.name.utf8ByteSize ≤ maxNameSize

theorem sizeInByteStream_eq (channel : ChannelAnnouncement) :
    channel.sizeInByteStream = UInt32.ofNat channel.wireSize := by
  rw [sizeInByteStream, sizeOfString_eq]
  exact (UInt32.ofNat_add ..).symm

@[simp] theorem length_encode (channel : ChannelAnnouncement) :
    channel.encode.length = channel.wireSize := by
  simp [encode, wireSize]

theorem Named.reads {channel : ChannelAnnouncement} (h : channel.Named) :
    Reads ChannelAnnouncement.decode channel channel.encode :=
  (reads_readString h).bind ((Reads.readId channel.id).map _)

end ChannelAnnouncement

theorem sized_session (sessionId : SessionId) : Entry.Sized (SessionMembership.mk sessionId) := by
  show 8 = UInt32.ofNat (NodeId.encodeTo _).length
  rw [NodeId.length_encodeTo]
  rfl

theorem sized_peerInfo (info : PeerInfo) : Entry.Sized info := by
  show sizeOfString info.name = UInt32.ofNat (writeString info.name).length
  rw [sizeOfString_eq, length_writeString]

theorem sized_channels (channels : ChannelAnnouncements) : Entry.Sized channels := by
  show 4 + (channels.map _).sum = UInt32.ofNat (_ ++ channels.flatMap _).length
  rw [sum_u32 channels ChannelAnnouncement.sizeInByteStream_eq, List.length_append,
    length_encodeU32, List.length_flatMap, UInt32.ofNat_add]
  simp only [ChannelAnnouncement.length_encode]
  rfl

theorem sized_byes (byes : ChannelByes) : Entry.Sized byes := by
  show 4 + (byes.map _).sum = UInt32.ofNat (_ ++ byes.flatMap _).length
  have eight (id : Id) : ChannelBye.sizeInByteStream id = UInt32.ofNat 8 := rfl
  rw [sum_u32 byes eight, List.length_append, length_encodeU32, List.length_flatMap,
    UInt32.ofNat_add]
  simp only [NodeId.length_encodeTo]
  rfl

theorem length_encode_channels (channels : ChannelAnnouncements) :
    (Entry.encode channels).length = 12 + (channels.map ChannelAnnouncement.wireSize).sum := by
  rw [(sized_channels channels).encode_eq, length_frame]
  show 8 + (encodeU32 _ ++ channels.flatMap ChannelAnnouncement.encode).length = _
  rw [List.length_append, length_encodeU32, List.length_flatMap]
  simp only [ChannelAnnouncement.length_encode]
  show 8 + (4 + (channels.map ChannelAnnouncement.wireSize).sum) = _
  omega

theorem length_encode_byes (byes : ChannelByes) :
    (Entry.encode byes).length = 12 + 8 * byes.length := by
  rw [(sized_byes byes).encode_eq, length_frame]
  show 8 + (encodeU32 _ ++ byes.flatMap NodeId.encodeTo).length = _
  rw [List.length_append, length_encodeU32, List.length_flatMap]
  simp
  omega

theorem length_encode_ping (ping : HostTime) : (Entry.encode ping).length = 16 := by
  show (encodeU32 _ ++ encodeU32 _ ++ encodeI64 _).length = 16
  simp

theorem ok_bind {α β : Type} (value : α) (f : α → Except AudioError β) :
    (.ok value >>= f) = f value := rfl

namespace PeerAnnouncement

def wireSize (announcement : PeerAnnouncement) : Nat :=
  40 + announcement.peerInfo.name.utf8ByteSize +
    (announcement.channels.map ChannelAnnouncement.wireSize).sum

theorem length_toPayload (announcement : PeerAnnouncement) :
    announcement.toPayload.length = announcement.wireSize := by
  have session : (Entry.encode (SessionMembership.mk announcement.sessionId)).length = 16 := by
    show (encodeU32 _ ++ encodeU32 _ ++ NodeId.encodeTo _).length = 16
    simp
  have info : (Entry.encode announcement.peerInfo).length =
      12 + announcement.peerInfo.name.utf8ByteSize := by
    show (encodeU32 _ ++ encodeU32 _ ++ writeString _).length = _
    simp
    omega
  rw [toPayload, List.length_append, List.length_append, session, info, length_encode_channels,
    wireSize]
  omega

theorem payloadSize_eq (announcement : PeerAnnouncement) :
    announcement.payloadSize = UInt32.ofNat announcement.wireSize := by
  rw [← length_toPayload, toPayload, List.length_append, List.length_append, UInt32.ofNat_add,
    UInt32.ofNat_add, ← (sized_session _).sizeInByteStream_eq,
    ← (sized_peerInfo _).sizeInByteStream_eq, ← (sized_channels _).sizeInByteStream_eq]
  rfl

/-- An announcement of names that fit and of few enough channels. -/
structure Fits (announcement : PeerAnnouncement) : Prop where
  name : announcement.peerInfo.name.utf8ByteSize ≤ maxNameSize
  channels : ∀ channel ∈ announcement.channels, channel.Named
  small : announcement.wireSize ≤ maxPayloadSize

theorem Fits.reads_channels {announcement : PeerAnnouncement} (h : announcement.Fits) :
    Reads (readVec ChannelAnnouncement.decode) announcement.channels
      (Entry.encodeBody announcement.channels) := by
  have small := h.small
  have limit : maxPayloadSize = 1176 := rfl
  have few : announcement.channels.length ≤
      (announcement.channels.map ChannelAnnouncement.wireSize).sum := by
    refine (List.length_map ..).symm.trans_le (List.length_le_sum_of_one_le _ ?_)
    intro size member
    obtain ⟨channel, -, rfl⟩ := List.mem_map.mp member
    unfold ChannelAnnouncement.wireSize
    omega
  unfold wireSize at small
  have read : Reads (readVec ChannelAnnouncement.decode) (announcement.channels.map id)
      (Entry.encodeBody announcement.channels) :=
    Reads.readVec (by omega) (fun channel member => (h.channels channel member).reads)
      fun channel _ => List.ne_nil_of_length_pos (by
        rw [ChannelAnnouncement.length_encode, ChannelAnnouncement.wireSize]
        omega)
  rwa [List.map_id] at read

def entries (announcement : PeerAnnouncement) : List (UInt32 × Bytes) :=
  [(Entry.KEY SessionMembership, Entry.encodeBody (SessionMembership.mk announcement.sessionId)),
    (Entry.KEY PeerInfo, Entry.encodeBody announcement.peerInfo),
    (Entry.KEY ChannelAnnouncements, Entry.encodeBody announcement.channels)]

theorem toPayload_eq (announcement : PeerAnnouncement) :
    announcement.toPayload = announcement.entries.flatMap frame := by
  rw [toPayload, (sized_session _).encode_eq, (sized_peerInfo _).encode_eq,
    (sized_channels _).encode_eq, entries]
  simp only [List.flatMap_cons, List.flatMap_nil, List.append_nil, List.append_assoc]

theorem Fits.entries_small {announcement : PeerAnnouncement} (h : announcement.Fits)
    {entry : UInt32 × Bytes} (member : entry ∈ announcement.entries) :
    entry.2.length < 2 ^ 32 := by
  have small := h.small
  have limit : maxPayloadSize = 1176 := rfl
  have part : (frame entry).length ≤ announcement.toPayload.length := by
    rw [toPayload_eq, List.length_flatMap]
    exact List.le_sum_of_mem (List.mem_map_of_mem member)
  rw [length_frame, length_toPayload] at part
  omega

theorem visit_session (sessionId : SessionId) (found : PeerAnnouncement) :
    visit (Entry.KEY SessionMembership) (Entry.encodeBody (SessionMembership.mk sessionId)) found =
      .ok { found with sessionId } := by
  have read : decodeBody readId (Entry.encodeBody (SessionMembership.mk sessionId)) =
      .ok sessionId.node := decodeBody_of_reads (Reads.readId _)
  rw [visit, if_pos key_session, read]
  rfl

theorem visit_peerInfo {info : PeerInfo} (small : info.name.utf8ByteSize ≤ maxNameSize)
    (found : PeerAnnouncement) :
    visit (Entry.KEY PeerInfo) (Entry.encodeBody info) found =
      .ok { found with peerInfo := info } := by
  have read : decodeBody PeerInfo.decode (Entry.encodeBody info) = .ok info :=
    decodeBody_of_reads ((reads_readString small).map PeerInfo.mk)
  rw [visit, if_neg (by decide), if_pos key_peerInfo, read]
  rfl

theorem visit_channels {channels : ChannelAnnouncements}
    (reads : Reads (readVec ChannelAnnouncement.decode) channels (Entry.encodeBody channels))
    (found : PeerAnnouncement) :
    visit (Entry.KEY ChannelAnnouncements) (Entry.encodeBody channels) found =
      .ok { found with channels } := by
  rw [visit, if_neg (by decide), if_neg (by decide), if_pos key_channels,
    decodeBody_of_reads reads]
  rfl

theorem Fits.visit_entries {announcement : PeerAnnouncement} (h : announcement.Fits)
    (found : PeerAnnouncement) :
    announcement.entries.foldlM (fun found entry => visit entry.1 entry.2 found) found =
      .ok { announcement with nodeId := found.nodeId } := by
  simp only [entries, List.foldlM_cons, List.foldlM_nil, visit_session, visit_peerInfo h.name,
    visit_channels h.reads_channels, ok_bind]
  rfl

theorem Fits.fromPayload {announcement : PeerAnnouncement} (h : announcement.Fits)
    (others : List (UInt32 × Bytes)) (few : ∀ entry ∈ others, entry.2.length < 2 ^ 32)
    (unknown : ∀ entry ∈ others, ∀ found, visit entry.1 entry.2 found = .ok found) :
    PeerAnnouncement.fromPayload announcement.nodeId
      (announcement.toPayload ++ others.flatMap frame) = .ok announcement := by
  have ignored (found : PeerAnnouncement) :
      others.foldlM (fun found entry => visit entry.1 entry.2 found) found = .ok found := by
    clear few
    induction others with
    | nil => rfl
    | cons entry others ih =>
      obtain ⟨here, rest⟩ := List.forall_mem_cons.mp unknown
      rw [List.foldlM_cons, here found]
      exact ih rest
  have visited : (announcement.entries ++ others).foldlM
      (fun found entry => visit entry.1 entry.2 found)
      ⟨announcement.nodeId, ⟨default⟩, ⟨""⟩, []⟩ = .ok announcement := by
    rw [List.foldlM_append, h.visit_entries]
    exact ignored announcement
  have small : ∀ entry ∈ announcement.entries ++ others, entry.2.length < 2 ^ 32 := by
    intro entry member
    cases List.mem_append.mp member with
    | inl own => exact h.entries_small own
    | inr other => exact few entry other
  rw [toPayload_eq, ← List.flatMap_append, PeerAnnouncement.fromPayload, Audio.fromPayload,
    parsePayload_frames visit _ small visited]

end PeerAnnouncement

namespace EngineState

def baseAnnouncement (state : EngineState) (peerName : String) : PeerAnnouncement where
  nodeId := state.nodeId
  sessionId := state.sessionId
  peerInfo := PeerInfo.new peerName
  channels := []

theorem announcements_eq (state : EngineState) (peerName : String) :
    state.announcements peerName = nextFit (state.baseAnnouncement peerName)
      (fun last channel => { last with channels := last.channels ++ [channel] })
      (fun announcements channel =>
        (announcements.getLast?.map PeerAnnouncement.payloadSize).getD 0 +
          (if announcements.length = 1 then
            channel.sizeInByteStream + Entry.sizeInByteStream (HostTime.mk .zero)
          else channel.sizeInByteStream) > UInt32.ofNat maxPayloadSize)
      state.channelAnnouncements := rfl

/-- The announcement at an index, the first of which leaves room for a ping. -/
structure Announced (state : EngineState) (i : Nat) (announcement : PeerAnnouncement) : Prop where
  nodeId : announcement.nodeId = state.nodeId
  name : announcement.peerInfo.name.utf8ByteSize ≤ maxNameSize
  channels : ∀ channel ∈ announcement.channels, channel.Named
  room : announcement.wireSize + (if i = 0 then 16 else 0) ≤ maxPayloadSize

theorem Announced.fits {state : EngineState} {i : Nat} {announcement : PeerAnnouncement}
    (h : state.Announced i announcement) : announcement.Fits :=
  ⟨h.name, h.channels, Nat.le_of_add_right_le h.room⟩

theorem announced {state : EngineState} (peerName : String)
    (named : ∀ channel ∈ state.channelAnnouncements, channel.Named) {i : Nat}
    {announcement : PeerAnnouncement}
    (found : (state.announcements peerName)[i]? = some announcement) :
    state.Announced i announcement := by
  have limit : maxPayloadSize = 1176 := rfl
  have most : maxNameSize = 256 := rfl
  have name : (PeerInfo.new peerName).name.utf8ByteSize ≤ maxNameSize :=
    utf8ByteSize_truncateName peerName
  have base : (state.baseAnnouncement peerName).wireSize ≤ 296 := by
    show 40 + (PeerInfo.new peerName).name.utf8ByteSize + 0 ≤ 296
    omega
  have pushed (last : PeerAnnouncement) (channel : ChannelAnnouncement) :
      ({ last with channels := last.channels ++ [channel] } : PeerAnnouncement).wireSize =
        last.wireSize + channel.wireSize := by
    simp [PeerAnnouncement.wireSize, Nat.add_assoc]
  have size {channel : ChannelAnnouncement} (member : channel ∈ state.channelAnnouncements) :
      channel.wireSize ≤ 268 := by
    have small := named channel member
    unfold ChannelAnnouncement.Named at small
    unfold ChannelAnnouncement.wireSize
    omega
  rw [announcements_eq] at found
  refine good_of_nextFit _ _ _ state.Announced _ ?_ ?_ ?_ found
  · refine ⟨rfl, name, by simp [baseAnnouncement], ?_⟩
    rw [if_pos rfl]
    omega
  · intro front last channel member good space
    refine ⟨good.nodeId, good.name, ?_, ?_⟩
    · intro other inside
      cases List.mem_append.mp inside with
      | inl old => exact good.channels other old
      | inr new => exact List.mem_singleton.mp new ▸ named channel member
    · have room := good.room
      have fresh := size member
      have ping : Entry.sizeInByteStream (HostTime.mk .zero) = UInt32.ofNat 16 := rfl
      rw [pushed]
      simp only [List.getLast?_append, List.getLast?_singleton, Option.some_or, Option.map_some,
        Option.getD_some, PeerAnnouncement.payloadSize_eq, List.length_append,
        List.length_singleton, channel.sizeInByteStream_eq, ping, ← UInt32.ofNat_add] at space
      by_cases first : front.length = 0
      · rw [if_pos first] at room ⊢
        rw [if_pos (by omega), ← UInt32.ofNat_add, exceeds_iff (by omega)] at space
        omega
      · rw [if_neg first] at room ⊢
        rw [if_neg (by omega), ← UInt32.ofNat_add, exceeds_iff (by omega)] at space
        omega
  · intro front last channel member space
    refine ⟨rfl, name, ?_, ?_⟩
    · intro other inside
      rw [baseAnnouncement] at inside
      obtain rfl : other = channel := by simpa using inside
      exact named other member
    · have fresh := size member
      rw [pushed, if_neg (by omega)]
      omega

end EngineState

theorem announcements_ne_nil (state : EngineState) (peerName : String) :
    state.announcements peerName ≠ [] := by
  rw [EngineState.announcements_eq]
  apply nextFit_ne_nil

theorem announcements_channels (state : EngineState) (peerName : String) :
    (state.announcements peerName).flatMap PeerAnnouncement.channels =
      state.channelAnnouncements := by
  rw [EngineState.announcements_eq]
  refine (flatMap_nextFit _ _ _ PeerAnnouncement.channels id rfl (fun _ _ => rfl) _).trans ?_
  exact List.map_id _

theorem PeerAnnouncement.Fits.fromPayload_ping {announcement : PeerAnnouncement}
    (h : announcement.Fits) (ping : HostTime) :
    PeerAnnouncement.fromPayload announcement.nodeId
      (announcement.toPayload ++ Entry.encode ping) = .ok announcement := by
  have sized : Entry.Sized ping := by
    show 8 = UInt32.ofNat (encodeI64 _).length
    rw [length_encodeI64]
    rfl
  have small : (Entry.encodeBody ping).length < 2 ^ 32 := by
    show (encodeI64 _).length < 2 ^ 32
    rw [length_encodeI64]
    decide
  have ignored (found : PeerAnnouncement) :
      visit (Entry.KEY HostTime) (Entry.encodeBody ping) found = .ok found := by
    rw [visit, if_neg (by decide), if_neg (by decide), if_neg (by decide)]
  have read := h.fromPayload [(Entry.KEY HostTime, Entry.encodeBody ping)]
    (by simpa using small) (by simpa using ignored)
  rwa [List.flatMap_singleton, ← sized.encode_eq] at read

/-! Byes. -/

theorem splitByes_eq (ids : List Id) :
    splitByes ids = (nextFit [] (fun last bye => last ++ [bye])
      (fun (result : List ChannelByes) bye => result.getLast?.any (fun last =>
        Entry.sizeInByteStream last + ChannelBye.sizeInByteStream bye >
          UInt32.ofNat maxPayloadSize) = true)
      ids).filter fun byes => !byes.isEmpty := rfl

theorem flatten_splitByes (ids : List Id) : (splitByes ids).flatten = ids := by
  have whole := flatMap_nextFit ([] : ChannelByes) (fun last bye => last ++ [bye])
    (fun (result : List ChannelByes) bye => result.getLast?.any (fun last =>
        Entry.sizeInByteStream last + ChannelBye.sizeInByteStream bye >
          UInt32.ofNat maxPayloadSize) = true) id id rfl (fun _ _ => rfl) ids
  rw [splitByes_eq, List.flatten_filter_not_isEmpty, ← List.flatMap_id, whole, List.map_id]

theorem length_splitByes {ids : List Id} {byes : ChannelByes} (member : byes ∈ splitByes ids) :
    byes ≠ [] ∧ (Entry.encode byes).length ≤ maxPayloadSize := by
  have limit : maxPayloadSize = 1176 := rfl
  rw [splitByes_eq, List.mem_filter] at member
  obtain ⟨i, found⟩ := List.getElem?_of_mem member.1
  refine ⟨by simpa using member.2, ?_⟩
  refine good_of_nextFit _ _ _ (fun _ byes => (Entry.encode byes).length ≤ maxPayloadSize) ids
    ?_ ?_ ?_ found
  · rw [length_encode_byes]
    decide
  · intro front last bye _ good space
    rw [length_encode_byes] at good ⊢
    have size : ChannelBye.sizeInByteStream bye = UInt32.ofNat 8 := rfl
    simp only [List.getLast?_append, List.getLast?_singleton, Option.some_or, Option.any_some,
      decide_eq_true_eq, (sized_byes last).sizeInByteStream_eq, length_encode_byes, size,
      ← UInt32.ofNat_add] at space
    rw [exceeds_iff (by omega)] at space
    rw [List.length_append, List.length_singleton]
    omega
  · intro _ _ bye _ _
    rw [length_encode_byes]
    show 12 + 8 * 1 ≤ maxPayloadSize
    decide

theorem byesOf_encode {byes : ChannelByes} (small : (Entry.encode byes).length ≤ maxPayloadSize) :
    byesOf (Entry.encode byes) = byes := by
  have limit : maxPayloadSize = 1176 := rfl
  rw [length_encode_byes] at small
  have read : Reads (readVec readId) byes (Entry.encodeBody byes) := by
    have items : Reads (readVec readId) (byes.map id) (Entry.encodeBody byes) :=
      Reads.readVec (show byes.length < 2 ^ 32 by omega) (fun bye _ => Reads.readId bye)
        fun bye _ => List.ne_nil_of_length_pos (by simp)
    rwa [List.map_id] at items
  have body : (Entry.encodeBody byes).length < 2 ^ 32 := by
    have size : entryHeaderSize + (Entry.encodeBody byes).length = 12 + 8 * byes.length := by
      rw [← length_encode_byes, (sized_byes byes).encode_eq, length_frame]
    omega
  have visited : [(Entry.KEY ChannelByes, Entry.encodeBody byes)].foldlM
      (fun (found : ChannelByes) entry => if entry.1 = channelByesKey then
        decodeBody (readVec readId) entry.2 else .ok found) [] = .ok byes := by
    rw [List.foldlM_cons]
    simp only [if_pos key_byes, decodeBody_of_reads read, ok_bind]
    rfl
  rw [byesOf, (sized_byes byes).encode_eq, ← List.flatMap_singleton frame,
    parsePayload_frames _ _ (by simpa using body) visited]

/-- Announcements and byes are split without loss into messages that fit, the first with a ping, and
every message is read back as it was sent. -/
theorem messages_split (state : EngineState) (peerName : String)
    (truncated : ∀ entry ∈ state.sinks, ∃ given, entry.sink.name = truncateName given) :
    (∀ announcement ∈ state.announcements peerName,
      announcement.toPayload.length = announcement.payloadSize.toNat ∧
      announcement.payloadSize.toNat ≤ maxPayloadSize ∧
      PeerAnnouncement.fromPayload state.nodeId announcement.toPayload = .ok announcement ∧
      ∀ ping : HostTime, PeerAnnouncement.fromPayload state.nodeId
        (announcement.toPayload ++ Entry.encode ping) = .ok announcement) ∧
    (∃ first others, state.announcements peerName = first :: others ∧
      ∀ ping : HostTime, (Entry.encode ping).length = 16 ∧
        (first.toPayload ++ Entry.encode ping).length ≤ maxPayloadSize) ∧
    (state.announcements peerName).flatMap PeerAnnouncement.channels =
      state.sinks.map (fun entry => ⟨entry.sink.name, entry.sink.id⟩) ∧
    ∀ ids, (splitByes ids).flatten = ids ∧ ∀ byes ∈ splitByes ids, byes ≠ [] ∧
      (Entry.encode byes).length = (Entry.sizeInByteStream byes).toNat ∧
      (Entry.encode byes).length ≤ maxPayloadSize ∧ byesOf (Entry.encode byes) = byes := by
  have limit : maxPayloadSize = 1176 := rfl
  have named : ∀ channel ∈ state.channelAnnouncements, channel.Named := by
    intro channel member
    obtain ⟨entry, inside, rfl⟩ := List.mem_map.mp member
    obtain ⟨given, name⟩ := truncated entry inside
    show entry.sink.name.utf8ByteSize ≤ maxNameSize
    rw [name]
    exact utf8ByteSize_truncateName given
  refine ⟨?_, ?_, announcements_channels state peerName, ?_⟩
  · intro announcement member
    obtain ⟨i, found⟩ := List.getElem?_of_mem member
    have good := EngineState.announced peerName named found
    have small := good.fits.small
    have size : announcement.payloadSize.toNat = announcement.wireSize := by
      rw [announcement.payloadSize_eq]
      exact UInt32.toNat_ofNat_of_lt' (show announcement.wireSize < 2 ^ 32 by omega)
    rw [size, announcement.length_toPayload, ← good.nodeId]
    refine ⟨rfl, small, ?_, good.fits.fromPayload_ping⟩
    have read := good.fits.fromPayload [] (by simp) (by simp)
    rwa [List.flatMap_nil, List.append_nil] at read
  · cases messages : state.announcements peerName with
    | nil => exact absurd messages (announcements_ne_nil state peerName)
    | cons first others =>
      refine ⟨first, others, rfl, fun ping => ⟨length_encode_ping ping, ?_⟩⟩
      have good := EngineState.announced peerName named (i := 0)
        (show _ = some first by rw [messages]; rfl)
      have room := good.room
      rw [if_pos rfl] at room
      rwa [List.length_append, first.length_toPayload, length_encode_ping]
  · intro ids
    refine ⟨flatten_splitByes ids, fun byes member => ?_⟩
    obtain ⟨some, small⟩ := length_splitByes member
    refine ⟨some, ?_, small, byesOf_encode small⟩
    rw [(sized_byes byes).sizeInByteStream_eq]
    exact (UInt32.toNat_ofNat_of_lt' (show _ < 2 ^ 32 by omega)).symm

def longName : String := String.ofList (List.replicate 200 '€')

/-- An engine with one sink, whose name is cut before a character of three bytes. -/
def oneSink : EngineState where
  nodeId := default
  sessionId := default
  gatewayAddr := 0
  peers := []
  channels := .new
  sinks :=
    [{ sink :=
        { id := default
          name := truncateName longName
          isConnected := false }
       pending := []
       receivers := .new
       encoder := .new [] default }]
  sources := []

theorem messages_split_oneSink :
    (oneSink.announcements "peer").flatMap PeerAnnouncement.channels =
      oneSink.sinks.map (fun entry => ⟨entry.sink.name, entry.sink.id⟩) :=
  (messages_split oneSink "peer" (List.forall_mem_singleton.mpr
    ⟨longName, by simp only⟩)).2.2.1

end AbletonLink.Audio
