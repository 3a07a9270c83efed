import GsnNode.AddressText

/-! `dvsp_packet`: the packed header, the content buffer and the serial form. -/

set_option autoImplicit false

namespace GsnNode
open ByteWords MemoryRegion

structure DvspMsgtype where
  raw : UInt8
  deriving DecidableEq, Repr

namespace DvspMsgtype
def undefined : DvspMsgtype := ⟨0⟩
def gsnRegisterHost : DvspMsgtype := ⟨1⟩
def gsnUnregisterHost : DvspMsgtype := ⟨2⟩
def gsnResolution : DvspMsgtype := ⟨3⟩
def gsnLocalArea : DvspMsgtype := ⟨4⟩
def gsnRootNodes : DvspMsgtype := ⟨5⟩
def gsnHostname : DvspMsgtype := ⟨6⟩
def gsnRequest : DvspMsgtype := ⟨7⟩
def gsnResponse : DvspMsgtype := ⟨8⟩
def gsnPayload : DvspMsgtype := ⟨9⟩
def gtnRootNodes : DvspMsgtype := ⟨10⟩
def managementEcho : DvspMsgtype := ⟨11⟩
end DvspMsgtype

structure DvspHeader where
  type : DvspMsgtype
  part : UInt8
  size : UInt32
  addrOrig : NetspaceIpv4
  addrDest : NetspaceIpv4
  deriving DecidableEq

namespace DvspHeader

def init : DvspHeader := ⟨.undefined,0,0,default,default⟩

def sizeOf : Nat := 14

def bytes (h : DvspHeader) : List UInt8 :=
  h.type.raw :: h.part :: (leBytes 4 h.size.toNat ++ h.addrOrig.data ++ h.addrDest.data)

def ofBytes (bs : List UInt8) : DvspHeader where
  type := ⟨bs.getD 0 0⟩
  part := bs.getD 1 0
  size := UInt32.ofNat (leValue ((bs.drop 2).take 4))
  addrOrig := Block.ofList 4 (bs.drop 6)
  addrDest := Block.ofList 4 (bs.drop 10)

end DvspHeader

/-- `m_content`: null, a buffer, or the address of a buffer that was released. -/
inductive Content where
  | null
  | live : List UInt8 → Content
  | released
  deriving DecidableEq

abbrev Beyond := Nat → Option UInt8

def Content.read (c : Content) (beyond : Beyond) (off n : Nat) : Call (List UInt8) :=
  match c with
  | .live bs => load ⟨bs,beyond⟩ off n
  | .null | .released => if n = 0 then pure [] else undefined

theorem Content.read_length {content : Content} {beyond : Beyond} {off n : Nat} {bs : List UInt8}
    (h : content.read beyond off n = .ok bs) : bs.length = n := by
  cases content with
  | live => exact load_length h
  | null | released =>
    by_cases hn : n = 0
    · obtain rfl : [] = bs := by simpa [Content.read, hn] using h
      exact hn.symm
    · simp [Content.read, hn, undefined] at h

structure DvspPacket where
  header : DvspHeader
  content : Content
  deriving DecidableEq

namespace DvspPacket

def init : DvspPacket := ⟨.init,.null⟩

/-- `reset(size)` together with the copy into the new buffer, which follows it in
every caller. A size of 0 leaves the pointer to the released buffer in place. -/
def reset (p : DvspPacket) (data : List UInt8) : Call DvspPacket :=
  let header := { p.header with size := UInt32.ofNat data.length }
  match p.content with
  | .null => pure ⟨header,if data = [] then .null else .live data⟩
  | .live _ => pure ⟨header,if data = [] then .released else .live data⟩
  | .released => undefined

def clear (p : DvspPacket) : Call DvspPacket := reset { p with header := .init } []

def strContent (p : DvspPacket) (data : Text) : Call DvspPacket := p.reset data

def copyContent (p : DvspPacket) (data : List UInt8) : Call DvspPacket := p.reset data

/-- The copy constructor allocates also for a size of 0. -/
def copy (orig : DvspPacket) (beyond : Beyond) : Call DvspPacket := do
  let bs ← orig.content.read beyond 0 orig.header.size.toNat
  pure ⟨orig.header,.live bs⟩

def destroy (p : DvspPacket) : Call Unit :=
  match p.content with
  | .null | .live _ => pure ()
  | .released => undefined

/-- `content_as<T>(offset)`, as the bytes of the `n = sizeof(T)` long result. -/
def contentAs (p : DvspPacket) (beyond : Beyond) (off n : Nat) : Call (List UInt8) :=
  p.content.read beyond off n

def toString (p : DvspPacket) (beyond : Beyond) (off : Nat) : Call Text :=
  if p.header.size = 0 ∨ p.content = .null then throws .dvspEmptyContent
  else
    -- the difference of two `size_t`
    let n := (p.header.size.toNat + 2 ^ 64 - off) % 2 ^ 64
    assign n (p.content.read beyond off n)

def serialise (p : DvspPacket) (beyond : Beyond) : Call (List UInt8) :=
  if p.header.size ≠ 0 ∧ p.content = .null then throws .dvspEmptyContent
  else do
    let bs ← p.content.read beyond 0 p.header.size.toNat
    pure (p.header.bytes ++ bs)

def size (p : DvspPacket) : Nat := DvspHeader.sizeOf + p.header.size.toNat

def deserialise (serial : Region) : Call DvspPacket := do
  let bs ← load serial 0 DvspHeader.sizeOf
  let header := DvspHeader.ofBytes bs
  if header.size = 0 then pure ⟨header,.null⟩
  else do
    let content ← load serial DvspHeader.sizeOf header.size.toNat
    pure ⟨header,.live content⟩

/-! ### Packets that hold what their header says -/

def bytes (p : DvspPacket) : List UInt8 :=
  match p.content with
  | .live bs => bs
  | .null | .released => []

/-- The buffer, if any, is as long as the header says. -/
structure WellFormed (p : DvspPacket) : Prop where
  held : p.content ≠ .released
  size_eq : p.bytes.length = p.header.size.toNat

instance (p : DvspPacket) : Decidable p.WellFormed :=
  decidable_of_iff (p.content ≠ .released ∧ p.bytes.length = p.header.size.toNat)
    ⟨fun h => ⟨h.1,h.2⟩,fun h => ⟨h.held,h.size_eq⟩⟩

theorem init_wellFormed : init.WellFormed := by decide

theorem WellFormed.length_lt {p : DvspPacket} (h : p.WellFormed) : p.bytes.length < 2 ^ 32 := by
  rw [h.size_eq]
  exact p.header.size.toNat_lt

theorem WellFormed.size_eq_zero {p : DvspPacket} (h : p.WellFormed) :
    p.header.size = 0 ↔ p.bytes = [] := by
  rw [← List.length_eq_zero_iff, h.size_eq, ← UInt32.toNat_inj]
  rfl

theorem WellFormed.read_inside {p : DvspPacket} (h : p.WellFormed) (beyond : Beyond)
    {off n : Nat} (hn : off + n ≤ p.bytes.length) :
    p.content.read beyond off n = .ok ((p.bytes.drop off).take n) := by
  obtain ⟨header,content⟩ := p
  cases content with
  | live bs => exact load_inside ⟨bs,beyond⟩ hn
  | null =>
    obtain ⟨rfl,rfl⟩ : off = 0 ∧ n = 0 := by simpa [bytes] using hn
    rfl
  | released => exact absurd rfl h.held

theorem WellFormed.read_all {p : DvspPacket} (h : p.WellFormed) (beyond : Beyond) :
    p.content.read beyond 0 p.header.size.toNat = .ok p.bytes := by
  rw [← h.size_eq, h.read_inside beyond (by simp)]
  simp

theorem read_outside (p : DvspPacket) {off n : Nat} (hn : p.bytes.length < off + n) (h : 0 < n) :
    p.content.read (fun _ => none) off n = undefined := by
  obtain ⟨header,content⟩ := p
  cases content with
  | live bs =>
    have hread := Region.read_unmapped (r := ⟨bs,fun _ => none⟩) (fun _ => rfl) hn h
    simp [Content.read, load, hread]
  | null => simp [Content.read, Nat.ne_of_gt h]
  | released => simp [Content.read, Nat.ne_of_gt h]

theorem WellFormed.contentAs {p : DvspPacket} (h : p.WellFormed) (beyond : Beyond) {n : Nat}
    (hn : n ≤ p.bytes.length) : p.contentAs beyond 0 n = .ok (p.bytes.take n) := by
  have hread := h.read_inside beyond (show 0 + n ≤ _ by omega)
  simpa [DvspPacket.contentAs] using hread

theorem WellFormed.destroy {p : DvspPacket} (h : p.WellFormed) : p.destroy = .ok () := by
  obtain ⟨header,content⟩ := p
  cases content with
  | null => rfl
  | live bs => rfl
  | released => exact absurd rfl h.held

theorem WellFormed.copy {p : DvspPacket} (h : p.WellFormed) (beyond : Beyond) :
    p.copy beyond = .ok ⟨p.header,.live p.bytes⟩ := by
  simp [DvspPacket.copy, h.read_all beyond]

theorem WellFormed.toString_from {p : DvspPacket} (h : p.WellFormed) (beyond : Beyond) {off : Nat}
    (hoff : off ≤ p.bytes.length) (hne : p.bytes ≠ []) :
    p.toString beyond off = .ok (p.bytes.drop off) := by
  have hlen := h.length_lt
  have hnull : p.content ≠ .null := by
    intro hnull
    simp [bytes, hnull] at hne
  have hsize : p.header.size ≠ 0 := fun hz => hne (h.size_eq_zero.mp hz)
  have hn : (p.header.size.toNat + 2 ^ 64 - off) % 2 ^ 64 = p.bytes.length - off := by
    rw [← h.size_eq]
    omega
  have hshort : ¬ maxStringSize < p.bytes.length - off := by
    rw [maxStringSize]
    omega
  have hread := h.read_inside beyond (show off + (p.bytes.length - off) ≤ _ by omega)
  rw [DvspPacket.toString, if_neg (by simp [hsize, hnull])]
  simp only [hn, hread, assign, if_neg hshort]
  rw [List.take_of_length_le (by simp)]

theorem WellFormed.toString {p : DvspPacket} (h : p.WellFormed) (beyond : Beyond) :
    p.toString beyond 0 = if p.bytes = [] then throws .dvspEmptyContent else .ok p.bytes := by
  by_cases hempty : p.bytes = []
  · simp [DvspPacket.toString, hempty, h.size_eq_zero.mpr hempty]
  · rw [h.toString_from beyond (Nat.zero_le _) hempty, if_neg hempty, List.drop_zero]

theorem WellFormed.serialise {p : DvspPacket} (h : p.WellFormed) (beyond : Beyond) :
    p.serialise beyond = .ok (p.header.bytes ++ p.bytes) := by
  have hthrow : ¬ (p.header.size ≠ 0 ∧ p.content = .null) := by
    rintro ⟨hsize,hnull⟩
    exact hsize (h.size_eq_zero.mpr (by simp [bytes, hnull]))
  rw [DvspPacket.serialise, if_neg hthrow, h.read_all beyond]
  rfl

theorem reset_null (header : DvspHeader) {data : List UInt8} (hne : data ≠ []) :
    reset ⟨header,.null⟩ data =
      .ok ⟨{ header with size := UInt32.ofNat data.length },.live data⟩ := by
  simp [reset, hne]

end DvspPacket
end GsnNode
