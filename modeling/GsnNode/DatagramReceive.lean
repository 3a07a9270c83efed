import GsnNode.PacketAnswers

/-! `resolution_service::receive`: which datagrams are read from their own bytes
only. The buffer is shared by all datagrams, and the number of bytes received is
not looked at. -/

set_option autoImplicit false

namespace GsnNode
open ByteWords MemoryRegion ProtocolHandler Handler

def recvSize : Nat := 1024

/-- `m_recv` after a datagram has been written over its old content, and what is
behind it. -/
def received (datagram old : List UInt8) (beyond : Beyond) : Region :=
  ⟨datagram ++ old.drop datagram.length,beyond⟩

section Receive
variable {V6 : Type} [DecidableEq V6] (env : Surroundings V6) (left : Leftover)

/-- The bytes that are sent back. -/
def receive (mRecv : Region) (sender : NetspaceAddr V6) : Handler V6 (List UInt8) := do
  let packet ← call (DvspPacket.deserialise mRecv)
  let out ← processPacket env left packet sender
  call (out.serialise left.afterContent)

/-! ### Datagrams that hold a whole packet -/

/-- The header is there, and the size in it is that of bytes which are there. -/
def WholePacket (datagram : List UInt8) : Prop :=
  DvspHeader.sizeOf ≤ datagram.length ∧
    (DvspHeader.ofBytes (datagram.take DvspHeader.sizeOf)).size.toNat ≤
      datagram.length - DvspHeader.sizeOf

def datagramPacket (datagram : List UInt8) : DvspPacket :=
  let header := DvspHeader.ofBytes (datagram.take DvspHeader.sizeOf)
  ⟨header,if header.size = 0 then .null
    else .live ((datagram.drop DvspHeader.sizeOf).take header.size.toNat)⟩

theorem deserialise_whole {datagram : List UInt8} (h : WholePacket datagram)
    (old : List UInt8) (beyond : Beyond) :
    DvspPacket.deserialise (received datagram old beyond) = .ok (datagramPacket datagram) := by
  obtain ⟨hheader,hcontent⟩ := h
  have hbytes : load (received datagram old beyond) 0 DvspHeader.sizeOf =
      .ok (datagram.take DvspHeader.sizeOf) := by
    rw [load_inside _ (by simp only [received, List.length_append]; omega), received,
      List.drop_zero, List.take_append_of_le_length hheader]
  have hload : load (received datagram old beyond) DvspHeader.sizeOf
      (DvspHeader.ofBytes (datagram.take DvspHeader.sizeOf)).size.toNat =
        .ok ((datagram.drop DvspHeader.sizeOf).take
          (DvspHeader.ofBytes (datagram.take DvspHeader.sizeOf)).size.toNat) := by
    rw [load_inside _ (by simp only [received, List.length_append]; omega), received,
      List.drop_append_of_le_length hheader,
      List.take_append_of_le_length (by rw [List.length_drop]; exact hcontent)]
  simp only [DvspPacket.deserialise, hbytes, ok_bind, hload, datagramPacket]
  split <;> rfl

/-! ### Datagrams that do not -/

def filled (datagram : List UInt8) (v : UInt8) : Region :=
  received datagram (List.replicate recvSize v) fun _ => some v

theorem filled_other {datagram : List UInt8} (v : UInt8) {i : Nat} (h : datagram.length ≤ i) :
    (filled datagram v).byteAt i = some v := by
  have hlen : (datagram ++ (List.replicate recvSize v).drop datagram.length).length =
      datagram.length + (recvSize - datagram.length) := by
    simp only [List.length_append, List.length_drop, List.length_replicate]
  simp only [filled, received, Region.byteAt, hlen]
  by_cases hi : i < datagram.length + (recvSize - datagram.length)
  · rw [if_pos hi, List.getElem?_append_right h, List.drop_replicate, List.getElem?_replicate,
      if_pos (by omega)]
  · rw [if_neg hi]

theorem deserialise_filled (datagram : List UInt8) (v : UInt8) :
    ∃ p bs, DvspPacket.deserialise (filled datagram v) = .ok p ∧
      (filled datagram v).read 0 DvspHeader.sizeOf = some bs ∧ p.header = DvspHeader.ofBytes bs ∧
      (p.header.size ≠ 0 →
        (filled datagram v).read DvspHeader.sizeOf p.header.size.toNat = some p.bytes) := by
  have hmapped := fun off n => (filled datagram v).read_mapped (fun _ => rfl) off n
  obtain ⟨bs,hbs⟩ := hmapped 0 DvspHeader.sizeOf
  obtain ⟨content,hcontent⟩ := hmapped DvspHeader.sizeOf (DvspHeader.ofBytes bs).size.toNat
  by_cases hsize : (DvspHeader.ofBytes bs).size = 0
  · refine ⟨⟨DvspHeader.ofBytes bs,.null⟩,bs,?_,hbs,rfl,fun h => absurd hsize h⟩
    simp [DvspPacket.deserialise, load, hbs, hsize]
  · refine ⟨⟨DvspHeader.ofBytes bs,.live content⟩,bs,?_,hbs,rfl,fun _ => hcontent⟩
    simp [DvspPacket.deserialise, load, hbs, hsize, hcontent]

/-- A read over the end of the datagram ends with a byte that was not received. -/
theorem read_filled_last {datagram bs : List UInt8} {v : UInt8} {off n : Nat}
    (hread : (filled datagram v).read off n = some bs) (hn : 0 < n)
    (hpast : datagram.length < off + n) : bs[n - 1]? = some v := by
  rw [Region.read_getElem? hread (show n - 1 < n by omega)]
  exact filled_other v (by omega)

theorem read_filled_header {datagram bs : List UInt8} {v : UInt8}
    (hlen : DvspHeader.sizeOf ≤ datagram.length)
    (hread : (filled datagram v).read 0 DvspHeader.sizeOf = some bs) :
    bs = datagram.take DvspHeader.sizeOf := by
  have hinside := @Region.read_inside (filled datagram v) 0 DvspHeader.sizeOf
    (by simp only [filled, received, List.length_append]; omega)
  rw [hread, Option.some.injEq] at hinside
  rw [hinside, filled, received, List.drop_zero, List.take_append_of_le_length hlen]

theorem ofBytes_last {bs : List UInt8} (h : bs.length = DvspHeader.sizeOf) :
    (DvspHeader.ofBytes bs).addrDest.data[3]? = bs[13]? := by
  rw [DvspHeader.ofBytes, Block.data_ofList (by rw [List.length_drop, h]; rfl),
    List.getElem?_drop]

/-- The packet depends on bytes that were not received. -/
theorem deserialise_filled_ne {datagram : List UInt8} (h : ¬ WholePacket datagram) :
    DvspPacket.deserialise (filled datagram 0) ≠ DvspPacket.deserialise (filled datagram 1) := by
  obtain ⟨p,bs,hp,hbs,hheader,hcontent⟩ := deserialise_filled datagram 0
  obtain ⟨q,cs,hq,hcs,hheader',hcontent'⟩ := deserialise_filled datagram 1
  rw [hp, hq, ne_eq, Except.ok.injEq]
  rintro rfl
  by_cases hlen : DvspHeader.sizeOf ≤ datagram.length
  · -- the content runs over the end of the datagram
    have hsize : ¬ p.header.size.toNat ≤ datagram.length - DvspHeader.sizeOf := by
      rw [hheader, read_filled_header hlen hbs]
      exact fun hle => h ⟨hlen,hle⟩
    have hne : p.header.size ≠ 0 := by
      intro hzero
      rw [hzero] at hsize
      exact hsize (Nat.zero_le _)
    have h₀ := read_filled_last (hcontent hne) (by omega) (by omega)
    have h₁ := read_filled_last (hcontent' hne) (by omega) (by omega)
    rw [h₀] at h₁
    contradiction
  · -- the last byte of the header was not received
    have hsame : bs[13]? = cs[13]? := by
      rw [← ofBytes_last (Region.read_length hbs), ← ofBytes_last (Region.read_length hcs),
        ← hheader, ← hheader']
    have h₀ := read_filled_last hbs (by decide) (by omega)
    have h₁ := read_filled_last hcs (by decide) (by omega)
    rw [DvspHeader.sizeOf] at h₀ h₁
    rw [h₀, h₁] at hsame
    contradiction

/-! ### Independence of earlier datagrams -/

/-- Neither what was in the buffer before nor what is behind it makes a difference,
and a size that is not covered by the datagram is refused. -/
structure OwnBytesOnly (datagram : List UInt8) (sender : NetspaceAddr V6)
    (table : NetspaceTable V6) : Prop where
  packet : ∀ old old' beyond beyond', old.length = recvSize → old'.length = recvSize →
    DvspPacket.deserialise (received datagram old beyond) =
      DvspPacket.deserialise (received datagram old' beyond')
  reply : ∀ old old' beyond beyond', old.length = recvSize → old'.length = recvSize →
    receive env left (received datagram old beyond) sender table =
      receive env left (received datagram old' beyond') sender table
  refused : ∀ old beyond p, old.length = recvSize →
    DvspPacket.deserialise (received datagram old beyond) = .ok p →
      p.header.size.toNat ≤ datagram.length - DvspHeader.sizeOf

theorem ownBytesOnly_iff (datagram : List UInt8) (sender : NetspaceAddr V6)
    (table : NetspaceTable V6) :
    OwnBytesOnly env left datagram sender table ↔ WholePacket datagram := by
  constructor
  · intro h
    by_contra hpartial
    exact deserialise_filled_ne hpartial
      (h.packet _ _ _ _ List.length_replicate List.length_replicate)
  · intro h
    refine ⟨fun old old' beyond beyond' _ _ => ?_,fun old old' beyond beyond' _ _ => ?_,
      fun old beyond p _ hp => ?_⟩
    · rw [deserialise_whole h, deserialise_whole h]
    · simp only [receive, deserialise_whole h]
    · rw [deserialise_whole h, Except.ok.injEq] at hp
      subst p
      exact h.2

end Receive

def hostnameHeader : List UInt8 :=
  { DvspHeader.init with type := .gsnHostname, size := 4 }.bytes

def staleBuffer : Block recvSize := Block.ofList recvSize (List.replicate 14 0 ++ [127,0,0,1])

/-- The address that an earlier datagram left in the buffer is looked up. -/
theorem stale_address_looked_up :
    (receive isolated unmapped (received hostnameHeader staleBuffer.data fun _ => none) localhost
        [loopback (ascii "node") (ascii "unit")]).1 ≠
      (receive isolated unmapped (received hostnameHeader (Block.zero recvSize).data fun _ => none)
        localhost [loopback (ascii "node") (ascii "unit")]).1 ∧
    ¬ OwnBytesOnly isolated unmapped hostnameHeader localhost
      [loopback (ascii "node") (ascii "unit")] := by
  have hdiffer : (receive isolated unmapped (received hostnameHeader staleBuffer.data fun _ => none)
        localhost [loopback (ascii "node") (ascii "unit")]).1 ≠
      (receive isolated unmapped (received hostnameHeader (Block.zero recvSize).data fun _ => none)
        localhost [loopback (ascii "node") (ascii "unit")]).1 := by
    decide +kernel
  refine ⟨hdiffer,fun h => hdiffer ?_⟩
  rw [h.reply _ (Block.zero recvSize).data _ (fun _ => none) staleBuffer.size_eq
    (Block.zero recvSize).size_eq]

end GsnNode
