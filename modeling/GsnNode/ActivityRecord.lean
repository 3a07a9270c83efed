import GsnNode.ByteWords
import GsnNode.CallResult

/-! `activity`: a record of the log, its hashes and its serial form. SHA-512 is a
parameter, a function of the bytes that are hashed. -/

set_option autoImplicit false

namespace GsnNode
open ByteWords MemoryRegion

abbrev Hash512 := Block 64
abbrev Hash2048 := Block 256

structure ActivityType where
  raw : Int32
  deriving DecidableEq

/-- A structure of 344 bytes. Copies keep all of them. -/
structure ActivityHeader where
  hash : Hash512
  timestamp : Int64
  type : ActivityType
  /-- the bytes that align `msg_size` -/
  padding : Block 4
  msgSize : UInt64
  signature : Hash2048
  deriving DecidableEq

namespace ActivityHeader

def sizeOf : Nat := 344

def bytesPartial (h : ActivityHeader) : List UInt8 :=
  leBytes 8 h.timestamp.toUInt64.toNat ++ (leBytes 4 h.type.raw.toUInt32.toNat ++
    (h.padding.data ++ (leBytes 8 h.msgSize.toNat ++ h.signature.data)))

def bytes (h : ActivityHeader) : List UInt8 := h.hash.data ++ h.bytesPartial

def ofBytes (bs : List UInt8) : ActivityHeader where
  hash := Block.ofList 64 bs
  timestamp := (UInt64.ofNat (leValue ((bs.drop 64).take 8))).toInt64
  type := ⟨(UInt32.ofNat (leValue ((bs.drop 72).take 4))).toInt32⟩
  padding := Block.ofList 4 (bs.drop 76)
  msgSize := UInt64.ofNat (leValue ((bs.drop 80).take 8))
  signature := Block.ofList 256 (bs.drop 88)

end ActivityHeader

/-- A text that a `std::string` can hold. -/
structure MsgContent where
  text : Text
  length_le : text.length ≤ maxStringSize
  deriving DecidableEq

namespace MsgContent

def empty : MsgContent := ⟨[],Nat.zero_le _⟩

def ofText (s : Text) : Call MsgContent :=
  if h : s.length ≤ maxStringSize then pure ⟨s,h⟩ else throws .lengthError

def size (c : MsgContent) : UInt64 := UInt64.ofNat c.text.length

end MsgContent

structure Activity where
  header : ActivityHeader
  content : MsgContent
  deriving DecidableEq

namespace Activity

def size (a : Activity) : Nat := ActivityHeader.sizeOf + a.content.text.length

def serialise (a : Activity) : List UInt8 := a.header.bytes ++ a.content.text

def serialisePartial (a : Activity) : List UInt8 := a.header.bytesPartial ++ a.content.text

def deserialise (serial : Region) (off : Nat) : Call Activity := do
  let bs ← load serial off ActivityHeader.sizeOf
  let header := ActivityHeader.ofBytes bs
  let n := header.msgSize.toNat
  let text ← assign n (load serial (off + ActivityHeader.sizeOf) n)
  let content ← MsgContent.ofText text
  pure ⟨header,content⟩

section Hashes
variable (sha : List UInt8 → Hash512)

def withHash (a : Activity) (hash : Hash512) : Activity :=
  { a with header := { a.header with hash := hash } }

def partialHash (a : Activity) : Activity := a.withHash (sha a.serialisePartial)

def rehash (a : Activity) (salt : Hash512) : Activity :=
  (a.withHash salt).withHash (sha (a.withHash salt).serialise)

/-- `activity(hdr)`, which keeps the size in the header. -/
def ofHeader (hdr : ActivityHeader) : Activity := partialHash sha ⟨hdr,.empty⟩

/-- `activity(hdr, msg)` -/
def ofContent (hdr : ActivityHeader) (msg : MsgContent) : Activity :=
  partialHash sha ⟨{ hdr with msgSize := msg.size },msg⟩

/-- `activity(hdr, msg, salt)` -/
def salted (hdr : ActivityHeader) (msg : MsgContent) (salt : Hash512) : Activity :=
  rehash sha ⟨{ hdr with msgSize := msg.size },msg⟩ salt

/-- `activity(hdr, salt)` -/
def saltedHeader (hdr : ActivityHeader) (salt : Hash512) : Activity :=
  rehash sha ⟨{ hdr with msgSize := MsgContent.empty.size },.empty⟩ salt

end Hashes

/-! ### The serial form -/

/-- The header has the size of the content. -/
def WellFormed (a : Activity) : Prop := a.header.msgSize.toNat = a.content.text.length

instance (a : Activity) : Decidable a.WellFormed :=
  inferInstanceAs (Decidable (a.header.msgSize.toNat = a.content.text.length))

end Activity

@[simp] theorem MsgContent.size_toNat (c : MsgContent) : c.size.toNat = c.text.length := by
  have hlen : c.text.length < UInt64.size := lt_of_le_of_lt c.length_le (by decide)
  exact UInt64.toNat_ofNat_of_lt' hlen

@[simp] theorem ActivityHeader.bytesPartial_length (h : ActivityHeader) :
    h.bytesPartial.length = 280 := by
  simp [bytesPartial]

@[simp] theorem ActivityHeader.bytes_length (h : ActivityHeader) :
    h.bytes.length = ActivityHeader.sizeOf := by
  simp [bytes, sizeOf]

theorem ActivityHeader.ofBytes_bytes (h : ActivityHeader) : ofBytes h.bytes = h := by
  obtain ⟨hash,timestamp,⟨type⟩,padding,msgSize,signature⟩ := h
  generalize hbs : bytes ⟨hash,timestamp,⟨type⟩,padding,msgSize,signature⟩ = bs
  have hall : bs = hash.data ++ (leBytes 8 timestamp.toUInt64.toNat ++
      (leBytes 4 type.toUInt32.toNat ++ (padding.data ++ (leBytes 8 msgSize.toNat ++
        signature.data)))) := hbs.symm
  have h64 : bs.drop 64 = leBytes 8 timestamp.toUInt64.toNat ++ (leBytes 4 type.toUInt32.toNat ++
      (padding.data ++ (leBytes 8 msgSize.toNat ++ signature.data))) := by
    rw [hall, List.drop_left' hash.size_eq]
  have h72 : bs.drop 72 = leBytes 4 type.toUInt32.toNat ++
      (padding.data ++ (leBytes 8 msgSize.toNat ++ signature.data)) := by
    rw [← List.drop_drop (i := 8) (j := 64), h64, List.drop_left' (leBytes_length 8 _)]
  have h76 : bs.drop 76 = padding.data ++ (leBytes 8 msgSize.toNat ++ signature.data) := by
    rw [← List.drop_drop (i := 4) (j := 72), h72, List.drop_left' (leBytes_length 4 _)]
  have h80 : bs.drop 80 = leBytes 8 msgSize.toNat ++ signature.data := by
    rw [← List.drop_drop (i := 4) (j := 76), h76, List.drop_left' padding.size_eq]
  have h88 : bs.drop 88 = signature.data := by
    rw [← List.drop_drop (i := 8) (j := 80), h80, List.drop_left' (leBytes_length 8 _)]
  simp only [ofBytes, h64, h72, h76, h80, h88, List.take_left' (leBytes_length 8 _),
    List.take_left' (leBytes_length 4 _), uint64_leValue_leBytes, uint32_leValue_leBytes,
    Block.ofList_data_append, Block.ofList_data]
  rw [hall, Block.ofList_data_append]
  simp

theorem Activity.serialise_length (a : Activity) : a.serialise.length = a.size := by
  simp [serialise, size]

theorem load_slice (pre mid post : List UInt8) (beyond : Nat → Option UInt8) {n : Nat}
    (h : mid.length = n) : load ⟨pre ++ (mid ++ post),beyond⟩ pre.length n = .ok mid := by
  rw [load_inside _ (by simp only [List.length_append]; omega)]
  simp only [List.drop_left, ← h, List.take_left]

theorem Activity.deserialise_serialise {a : Activity} (ha : a.WellFormed) (pre post : List UInt8)
    (beyond : Nat → Option UInt8) :
    deserialise ⟨pre ++ (a.serialise ++ post),beyond⟩ pre.length = .ok a := by
  have hheader : load ⟨pre ++ (a.serialise ++ post),beyond⟩ pre.length ActivityHeader.sizeOf =
      .ok a.header.bytes := by
    rw [serialise, List.append_assoc]
    exact load_slice pre a.header.bytes _ beyond a.header.bytes_length
  have hcontent : load ⟨pre ++ (a.serialise ++ post),beyond⟩ (pre.length + ActivityHeader.sizeOf)
      a.content.text.length = .ok a.content.text := by
    have hslice := load_slice (pre ++ a.header.bytes) a.content.text post beyond rfl
    rw [List.length_append, a.header.bytes_length] at hslice
    simpa [serialise, List.append_assoc] using hslice
  have hshort : ¬ maxStringSize < a.content.text.length := not_lt.mpr a.content.length_le
  have hsize : a.header.msgSize.toNat = a.content.text.length := ha
  simp only [deserialise, hheader, ok_bind, ActivityHeader.ofBytes_bytes, hsize, hcontent, assign,
    if_neg hshort, MsgContent.ofText, dif_pos a.content.length_le, pure_eq_ok]

/-- A digest that shows the length only. -/
def lengthHash : List UInt8 → Hash512 := fun bs => Block.ofList 64 [UInt8.ofNat bs.length]

def openingRecord (content : MsgContent) : Activity :=
  .ofContent lengthHash ⟨default,0,⟨0⟩,default,0,default⟩ content

/-- A record that is linked to the first one. -/
def linkedRecord (first second : MsgContent) : Activity :=
  .salted lengthHash ⟨default,1,⟨0⟩,default,0,default⟩ second (openingRecord first).header.hash

def linkedPair (first second : MsgContent) : List Activity :=
  [openingRecord first,linkedRecord first second]

end GsnNode
