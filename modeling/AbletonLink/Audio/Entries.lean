import AbletonLink.Audio.Messages
import AbletonLink.Audio.Utf8

/-! The entries of audio payloads as they are written. -/

namespace AbletonLink.Audio

open Library Library.Bytes Link Wire ByteStreamReader

def maxNameSize : Nat := 256

/-- The loop of `truncate_name`, which steps back to a boundary between characters. -/
def truncateTo (name : String) : Nat → String
  | 0 => ""
  | last + 1 =>
    match name.pos? ⟨last + 1⟩ with
    | some position => (name.sliceTo position).copy
    | none => truncateTo name last

def truncateName (name : String) : String :=
  if name.utf8ByteSize ≤ maxNameSize then name else truncateTo name maxNameSize

def sizeOfString (s : String) : UInt32 := 4 + UInt32.ofNat s.utf8ByteSize

def writeString (s : String) : Bytes := encodeU32 (UInt32.ofNat s.utf8ByteSize) ++ asBytes s

class Entry (α : Type) where
  KEY : UInt32
  bodySize : α → UInt32
  encodeBody : α → Bytes

namespace Entry

variable {α : Type} [Entry α]

def sizeInByteStream (entry : α) : UInt32 := UInt32.ofNat entryHeaderSize + bodySize entry

def encode (entry : α) : Bytes :=
  encodeU32 (KEY α) ++ encodeU32 (bodySize entry) ++ encodeBody entry

end Entry

instance : Entry PeerInfo where
  KEY := peerInfoKey
  bodySize info := sizeOfString info.name
  encodeBody info := writeString info.name

def PeerInfo.new (name : String) : PeerInfo := ⟨truncateName name⟩

structure SessionMembership where
  sessionId : SessionId

instance : Entry SessionMembership where
  KEY := sessionMembershipKey
  bodySize _ := 8
  encodeBody membership := NodeId.encodeTo membership.sessionId.node

instance : Entry HostTime where
  KEY := hostTimeKey
  bodySize _ := 8
  encodeBody hostTime := encodeI64 (hostTime.time.numMicroseconds.getD 0)

namespace ChannelAnnouncement

def sizeInByteStream (channel : ChannelAnnouncement) : UInt32 := sizeOfString channel.name + 8

def encode (channel : ChannelAnnouncement) : Bytes :=
  writeString channel.name ++ NodeId.encodeTo channel.id

end ChannelAnnouncement

abbrev ChannelAnnouncements := List ChannelAnnouncement

instance : Entry ChannelAnnouncements where
  KEY := channelAnnouncementsKey
  bodySize channels := 4 + (channels.map ChannelAnnouncement.sizeInByteStream).sum
  encodeBody channels :=
    encodeU32 (UInt32.ofNat channels.length) ++ channels.flatMap ChannelAnnouncement.encode

abbrev ChannelByes := List Id

def ChannelBye.sizeInByteStream (_ : Id) : UInt32 := 8

instance : Entry ChannelByes where
  KEY := channelByesKey
  bodySize byes := 4 + (byes.map ChannelBye.sizeInByteStream).sum
  encodeBody byes := encodeU32 (UInt32.ofNat byes.length) ++ byes.flatMap NodeId.encodeTo

namespace PeerAnnouncement

def payloadSize (announcement : PeerAnnouncement) : UInt32 :=
  Entry.sizeInByteStream (SessionMembership.mk announcement.sessionId) +
    Entry.sizeInByteStream announcement.peerInfo + Entry.sizeInByteStream announcement.channels

def toPayload (announcement : PeerAnnouncement) : Bytes :=
  Entry.encode (SessionMembership.mk announcement.sessionId) ++
    Entry.encode announcement.peerInfo ++ Entry.encode announcement.channels

end PeerAnnouncement

@[simp] theorem key_peerInfo : Entry.KEY PeerInfo = peerInfoKey := rfl
@[simp] theorem key_session : Entry.KEY SessionMembership = sessionMembershipKey := rfl
@[simp] theorem key_hostTime : Entry.KEY HostTime = hostTimeKey := rfl
@[simp] theorem key_channels : Entry.KEY ChannelAnnouncements = channelAnnouncementsKey := rfl
@[simp] theorem key_byes : Entry.KEY ChannelByes = channelByesKey := rfl

/-! Names. -/

theorem offset_of_pos? {s : String} {offset : String.Pos.Raw} {position : s.Pos}
    (found : s.pos? offset = some position) : position.offset = offset := by
  obtain ⟨slice, inside, rfl⟩ := Option.map_eq_some_iff.mp found
  unfold String.Slice.pos? at inside
  split at inside
  next => cases inside; rfl
  next => exact nomatch inside

theorem utf8ByteSize_truncateTo (name : String) (last : Nat) :
    (truncateTo name last).utf8ByteSize ≤ last := by
  induction last with
  | zero => exact Nat.le_refl 0
  | succ last ih =>
    unfold truncateTo
    split
    next position found =>
      rw [String.Slice.utf8ByteSize_copy, String.utf8ByteSize_sliceTo, offset_of_pos? found]
    next => omega

theorem utf8ByteSize_truncateName (name : String) :
    (truncateName name).utf8ByteSize ≤ maxNameSize := by
  unfold truncateName
  split
  next small => exact small
  next => exact utf8ByteSize_truncateTo name maxNameSize

example : truncateTo "a€€" 6 = "a€" := by decide +kernel

@[simp] theorem length_writeString (s : String) : (writeString s).length = 4 + s.utf8ByteSize := by
  simp [writeString, length_asBytes]

theorem sizeOfString_eq (s : String) :
    sizeOfString s = UInt32.ofNat (4 + s.utf8ByteSize) := (UInt32.ofNat_add ..).symm

theorem reads_readString {s : String} (small : s.utf8ByteSize ≤ maxNameSize) :
    Reads readString s (writeString s) := by
  have limit : maxNameSize = 256 := rfl
  have size : (UInt32.ofNat s.utf8ByteSize).toNat = s.utf8ByteSize :=
    UInt32.toNat_ofNat_of_lt' (show s.utf8ByteSize < 2 ^ 32 by omega)
  have body := (Reads.take (length_asBytes s)).map fromUtf8Lossy
  rw [fromUtf8Lossy_asBytes] at body
  refine (Reads.readU32 _).bind ?_
  rw [size]
  exact body

/-! Entries one behind the other. -/

/-- The bytes of an entry with the given key and body. -/
def frame (entry : UInt32 × Bytes) : Bytes :=
  encodeU32 entry.1 ++ encodeU32 (UInt32.ofNat entry.2.length) ++ entry.2

theorem length_frame (entry : UInt32 × Bytes) :
    (frame entry).length = entryHeaderSize + entry.2.length := by
  simp [frame, entryHeaderSize]
  omega

theorem reads_readEntry {entry : UInt32 × Bytes} (small : entry.2.length < 2 ^ 32) :
    Reads readEntry entry (frame entry) := by
  have size : (UInt32.ofNat entry.2.length).toNat = entry.2.length :=
    UInt32.toNat_ofNat_of_lt' small
  have body := (Reads.take (rfl : entry.2.length = entry.2.length)).map fun body => (entry.1, body)
  rw [frame, List.append_assoc]
  refine (Reads.readU32 _).bind ((Reads.readU32 _).bind ?_)
  rw [size]
  exact body

theorem parseEntries_frames {α : Type} (visit : UInt32 → Bytes → α → Except AudioError α)
    (entries : List (UInt32 × Bytes)) (small : ∀ entry ∈ entries, entry.2.length < 2 ^ 32)
    {found last : α} {fuel : Nat} (enough : entries.length ≤ fuel)
    (visited : entries.foldlM (fun found entry => visit entry.1 entry.2 found) found = .ok last) :
    parseEntries visit fuel found (entries.flatMap frame) = (last, none) := by
  induction entries generalizing found fuel with
  | nil =>
    cases visited
    cases fuel <;> rfl
  | cons entry entries ih =>
    cases fuel with
    | zero => exact absurd enough (by simp)
    | succ fuel =>
      obtain ⟨here, others⟩ := List.forall_mem_cons.mp small
      have header : ¬((entry :: entries).flatMap frame).length < entryHeaderSize := by
        rw [List.flatMap_cons, List.length_append, length_frame]
        omega
      rw [parseEntries, if_neg header, List.flatMap_cons, reads_readEntry here]
      rw [List.foldlM_cons] at visited
      cases next : visit entry.1 entry.2 found with
      | error error =>
        rw [next] at visited
        exact nomatch visited
      | ok found' =>
        rw [next] at visited
        simp only [next]
        exact ih others (Nat.le_of_succ_le_succ enough) visited

theorem parsePayload_frames {α : Type} (visit : UInt32 → Bytes → α → Except AudioError α)
    (entries : List (UInt32 × Bytes)) (small : ∀ entry ∈ entries, entry.2.length < 2 ^ 32)
    {found last : α}
    (visited : entries.foldlM (fun found entry => visit entry.1 entry.2 found) found = .ok last) :
    parsePayload visit found (entries.flatMap frame) = (last, none) := by
  refine parseEntries_frames visit entries small ?_ visited
  rw [List.length_flatMap]
  refine (List.length_map ..).symm.trans_le (List.length_le_sum_of_one_le _ ?_)
  intro size member
  obtain ⟨entry, -, rfl⟩ := List.mem_map.mp member
  rw [length_frame]
  exact Nat.le_trans (show 1 ≤ entryHeaderSize by decide) (Nat.le_add_right _ _)

def Entry.Sized {α : Type} [Entry α] (entry : α) : Prop :=
  bodySize entry = UInt32.ofNat (encodeBody entry).length

theorem Entry.Sized.encode_eq {α : Type} [Entry α] {entry : α} (h : Sized entry) :
    encode entry = frame (KEY α, encodeBody entry) := by
  rw [encode, h]
  rfl

theorem Entry.Sized.sizeInByteStream_eq {α : Type} [Entry α] {entry : α} (h : Sized entry) :
    sizeInByteStream entry = UInt32.ofNat (encode entry).length := by
  rw [h.encode_eq, length_frame, sizeInByteStream, h, UInt32.ofNat_add]

theorem decodeBody_of_reads {α : Type} {reader : ByteStreamReader α} {value : α} {body : Bytes}
    (reads : Reads reader value body) : decodeBody reader body = .ok value := by
  have read := reads []
  rw [List.append_nil] at read
  rw [decodeBody, read]
  rfl

end AbletonLink.Audio
