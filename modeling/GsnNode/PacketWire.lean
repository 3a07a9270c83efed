import GsnNode.DvspPacket

/-! The serial form of a packet, written and read. -/

set_option autoImplicit false

namespace GsnNode
open ByteWords MemoryRegion

namespace DvspHeader

@[simp] theorem bytes_length (h : DvspHeader) : h.bytes.length = sizeOf := by
  simp [bytes, sizeOf]

theorem ofBytes_bytes (h : DvspHeader) : ofBytes h.bytes = h := by
  have hsize : (leBytes 4 h.size.toNat ++ h.addrOrig.data ++ h.addrDest.data).take 4 =
      leBytes 4 h.size.toNat := by
    rw [List.append_assoc]
    exact List.take_left' (leBytes_length 4 _)
  have horig : (leBytes 4 h.size.toNat ++ h.addrOrig.data ++ h.addrDest.data).drop 4 =
      h.addrOrig.data ++ h.addrDest.data := by
    rw [List.append_assoc]
    exact List.drop_left' (leBytes_length 4 _)
  have hdest : (leBytes 4 h.size.toNat ++ h.addrOrig.data ++ h.addrDest.data).drop 8 =
      h.addrDest.data := List.drop_left' (by simp)
  simp only [ofBytes, bytes, List.getD_cons_zero, List.getD_cons_succ, List.drop_succ_cons,
    List.drop_zero, hsize, horig, hdest, uint32_leValue_leBytes, Block.ofList_data_append,
    Block.ofList_data]

theorem bytes_ofBytes {bs : List UInt8} (h : bs.length = sizeOf) : (ofBytes bs).bytes = bs := by
  match bs, h with
  | type :: part :: rest, h =>
    have hlen : rest.length = 12 := by simpa [sizeOf] using h
    have hfour : (rest.take 4).length = 4 := by simp [hlen]
    have hbytes := leBytes_leValue (rest.take 4)
    rw [hfour] at hbytes
    have hsize : leBytes 4 (UInt32.ofNat (leValue (rest.take 4))).toNat = rest.take 4 := by
      rw [uint32_toNat_leValue hfour, hbytes]
    have horig : (Block.ofList 4 (rest.drop 4)).data = (rest.drop 4).take 4 :=
      Block.data_ofList_take (by simp [hlen])
    have hdest : (Block.ofList 4 (rest.drop 8)).data = rest.drop 8 :=
      Block.data_ofList (by simp [hlen])
    have hsplit : (rest.drop 4).take 4 ++ rest.drop 8 = rest.drop 4 := by
      conv_rhs => rw [← List.take_append_drop 4 (rest.drop 4), List.drop_drop]
    simp only [ofBytes, bytes, List.getD_cons_zero, List.getD_cons_succ, List.drop_succ_cons,
      List.drop_zero, hsize, horig, hdest, List.append_assoc, hsplit, List.take_append_drop]

end DvspHeader

namespace DvspPacket

/-- The two directions need the length only: a pointer to a released buffer is not
followed for a size of 0. -/
theorem serialise_sized {p : DvspPacket} (h : p.bytes.length = p.header.size.toNat)
    (beyond : Beyond) : p.serialise beyond = .ok (p.header.bytes ++ p.bytes) := by
  obtain ⟨header,content⟩ := p
  cases content with
  | live bs => exact WellFormed.serialise ⟨by simp,h⟩ beyond
  | null => exact WellFormed.serialise ⟨by simp,h⟩ beyond
  | released =>
    have hsize : header.size = 0 := UInt32.toNat_inj.mp (by simpa [bytes] using h.symm)
    simp [DvspPacket.serialise, Content.read, bytes, hsize]

theorem deserialise_append (header : DvspHeader) {content : List UInt8}
    (h : content.length = header.size.toNat) (beyond : Beyond) :
    deserialise ⟨header.bytes ++ content,beyond⟩ =
      .ok ⟨header,if content = [] then .null else .live content⟩ := by
  have hheader : load ⟨header.bytes ++ content,beyond⟩ 0 DvspHeader.sizeOf = .ok header.bytes := by
    rw [load_inside _ (by simp), List.drop_zero, List.take_left' header.bytes_length]
  have hcontent : load ⟨header.bytes ++ content,beyond⟩ DvspHeader.sizeOf header.size.toNat =
      .ok content := by
    rw [load_inside _ (by simp [h]), List.drop_left' header.bytes_length,
      List.take_of_length_le h.le]
  have hempty : header.size = 0 ↔ content = [] := by
    rw [← List.length_eq_zero_iff, h, ← UInt32.toNat_inj]
    rfl
  simp only [deserialise, hheader, ok_bind, DvspHeader.ofBytes_bytes, hcontent, hempty]
  split <;> rfl

/-- A packet that was deserialised has no buffer for an empty content. -/
theorem bytes_ite (header : DvspHeader) (content : List UInt8) :
    bytes ⟨header,if content = [] then .null else .live content⟩ = content := by
  by_cases hempty : content = [] <;> simp [bytes, hempty]

theorem read_error {content : Content} {beyond : Beyond} {off n : Nat} {e : Stop}
    (h : content.read beyond off n = .error e) : e = .undefined := by
  cases content with
  | live bs =>
    simp only [Content.read, load] at h
    split at h
    · contradiction
    · exact (Except.error.inj h).symm
  | null | released =>
    simp only [Content.read] at h
    split at h
    · contradiction
    · exact (Except.error.inj h).symm

theorem serialise_ok {p : DvspPacket} {beyond : Beyond} {serial : List UInt8}
    (h : p.serialise beyond = .ok serial) :
    ∃ bs, p.content.read beyond 0 p.header.size.toNat = .ok bs ∧
      bs.length = p.header.size.toNat ∧ serial = p.header.bytes ++ bs := by
  rw [DvspPacket.serialise] at h
  split at h
  · contradiction
  · obtain ⟨bs,hread,hserial⟩ := bind_eq_ok.mp h
    exact ⟨bs,hread,Content.read_length hread,(Except.ok.inj hserial).symm⟩

theorem serialise_throws_iff (p : DvspPacket) (beyond : Beyond) :
    p.serialise beyond = throws .dvspEmptyContent ↔ p.header.size ≠ 0 ∧ p.content = .null := by
  by_cases h : p.header.size ≠ 0 ∧ p.content = .null
  · simp [DvspPacket.serialise, h]
  · simp only [h, iff_false]
    rw [DvspPacket.serialise, if_neg h]
    cases hread : p.content.read beyond 0 p.header.size.toNat with
    | ok bs => simp [throws]
    | error e =>
      rw [read_error hread]
      simp [throws]

theorem reset_sized {old : DvspPacket} (h : old.content ≠ .released) {data : List UInt8}
    (hlen : data.length < 2 ^ 32) : ∃ p, old.reset data = .ok p ∧
      p.header = { old.header with size := UInt32.ofNat data.length } ∧
      p.header.size.toNat = data.length ∧ p.bytes = data := by
  have hsize : (UInt32.ofNat data.length).toNat = data.length := UInt32.toNat_ofNat_of_lt' hlen
  cases hc : old.content with
  | released => exact absurd hc h
  | null =>
    by_cases hdata : data = []
    · subst hdata
      exact ⟨_,by simp only [reset, hc]; rfl,rfl,rfl,rfl⟩
    · exact ⟨_,by simp only [reset, hc, hdata]; rfl,rfl,hsize,rfl⟩
  | live bs =>
    by_cases hdata : data = []
    · subst hdata
      exact ⟨_,by simp only [reset, hc]; rfl,rfl,rfl,rfl⟩
    · exact ⟨_,by simp only [reset, hc, hdata]; rfl,rfl,hsize,rfl⟩

theorem content_wire {old : DvspPacket} (h : old.content ≠ .released) {content : Text}
    (hlen : content.length < 2 ^ 32) (beyond beyond' : Beyond) :
    ∃ p serial q, old.strContent content = .ok p ∧ old.copyContent content = .ok p ∧
      p.header = { old.header with size := UInt32.ofNat content.length } ∧
      p.serialise beyond = .ok serial ∧ p.size = serial.length ∧
      deserialise ⟨serial,beyond'⟩ = .ok q ∧ q.header = p.header ∧
      q.header.size.toNat = content.length ∧ q.bytes = content := by
  obtain ⟨p,hp,hheader,hsize,hbytes⟩ := reset_sized h hlen
  have hserial := serialise_sized (by rw [hbytes, hsize]) beyond
  rw [hbytes] at hserial
  refine ⟨p,_,_,hp,hp,hheader,hserial,?_,deserialise_append p.header hsize.symm beyond',rfl,hsize,
    bytes_ite p.header content⟩
  simp [size, hsize]

/-- A true size field divides the bytes into a header and its content. -/
theorem split_sized {bs : List UInt8}
    (h : bs.length = DvspHeader.sizeOf + leValue ((bs.drop 2).take 4)) :
    ∃ (header : DvspHeader) (content : List UInt8),
      bs = header.bytes ++ content ∧ content.length = header.size.toNat := by
  have hheader : (bs.take DvspHeader.sizeOf).length = DvspHeader.sizeOf := by
    rw [List.length_take]
    omega
  have hfield : ((bs.take DvspHeader.sizeOf).drop 2).take 4 = (bs.drop 2).take 4 := by
    rw [List.drop_take, List.take_take]
    rfl
  have hfour : ((bs.drop 2).take 4).length = 4 := by
    simp only [DvspHeader.sizeOf] at h
    simp only [List.length_take, List.length_drop]
    omega
  refine ⟨DvspHeader.ofBytes (bs.take DvspHeader.sizeOf),bs.drop DvspHeader.sizeOf,?_,?_⟩
  · rw [DvspHeader.bytes_ofBytes hheader, List.take_append_drop]
  · simp only [DvspHeader.ofBytes, hfield, uint32_toNat_leValue hfour, List.length_drop]
    omega

theorem bytes_wire {bs : List UInt8}
    (h : bs.length = DvspHeader.sizeOf + leValue ((bs.drop 2).take 4)) (beyond beyond' : Beyond) :
    ∃ q, deserialise ⟨bs,beyond⟩ = .ok q ∧ q.serialise beyond' = .ok bs := by
  obtain ⟨header,content,rfl,hlen⟩ := split_sized h
  refine ⟨_,deserialise_append header hlen beyond,?_⟩
  rw [serialise_sized (by rw [bytes_ite]; exact hlen), bytes_ite]

/-- A packet whose content was set comes back as it was sent, bytes with a true size
field are written as they were read, and only a packet without its content throws. -/
theorem wire_format :
    (∀ (old : DvspPacket) (content : Text) (beyond beyond' : Beyond),
      old.content ≠ .released → content.length < 2 ^ 32 →
        ∃ p serial q, old.strContent content = .ok p ∧ old.copyContent content = .ok p ∧
          p.header = { old.header with size := UInt32.ofNat content.length } ∧
          p.serialise beyond = .ok serial ∧ p.size = serial.length ∧
          deserialise ⟨serial,beyond'⟩ = .ok q ∧ q.header = p.header ∧
          q.header.size.toNat = content.length ∧ q.bytes = content) ∧
    (∀ (bs : List UInt8) (beyond beyond' : Beyond),
      bs.length = DvspHeader.sizeOf + leValue ((bs.drop 2).take 4) →
        ∃ q, deserialise ⟨bs,beyond⟩ = .ok q ∧ q.serialise beyond' = .ok bs) ∧
    ∀ (p : DvspPacket) (beyond : Beyond),
      p.serialise beyond = throws .dvspEmptyContent ↔ p.header.size ≠ 0 ∧ p.content = .null := by
  refine ⟨?_,?_,serialise_throws_iff⟩
  · exact fun old content beyond beyond' hold hlen => content_wire hold hlen beyond beyond'
  · exact fun bs beyond beyond' hlen => bytes_wire hlen beyond beyond'

/-- A packet for another host, which is sent with a content and cannot be sent without the one
that its header says. -/
def addressed (size : UInt32) : DvspPacket :=
  ⟨⟨.gsnResolution,1,size,Block.ofList 4 [10,0,0,1],Block.ofList 4 [10,0,0,2]⟩,.null⟩

theorem wire_format_addressed :
    (∃ p serial q, (addressed 0).strContent (ascii "spring://b.a") = .ok p ∧
      p.serialise (fun _ => none) = .ok serial ∧ p.size = serial.length ∧
      deserialise ⟨serial,fun _ => none⟩ = .ok q ∧
      q.header = { (addressed 0).header with size := 12 } ∧ q.bytes = ascii "spring://b.a") ∧
      (addressed 12).serialise (fun _ => none) = throws .dvspEmptyContent := by
  obtain ⟨hcontent,-,hempty⟩ := wire_format
  obtain ⟨p,serial,q,hp,-,hheader,hserial,hsize,hq,hsame,-,hbytes⟩ :=
    hcontent (addressed 0) (ascii "spring://b.a") (fun _ => none) (fun _ => none) (by decide)
      (by decide)
  refine ⟨⟨p,serial,q,hp,hserial,hsize,hq,hsame.trans hheader,hbytes⟩,?_⟩
  exact (hempty (addressed 12) _).mpr ⟨by decide,rfl⟩

end DvspPacket
end GsnNode
