import GsnNode.ResolutionChain

/-! When the frame of a registration can be read, and what the tables are like
that a node can get into. -/

set_option autoImplicit false

namespace GsnNode
open KeyedList ByteWords MemoryRegion ProtocolHandler

theorem charValue_bounds (b : UInt8) : -128 ≤ charValue b ∧ charValue b ≤ 127 := by
  have hb := b.toNat_lt
  rw [charValue_eq]
  split <;> omega

theorem sizeOfInt_charValue {b : UInt8} (h : 0 ≤ charValue b) :
    sizeOfInt (charValue b) = (charValue b).toNat := by
  have hb := charValue_bounds b
  rw [sizeOfInt, Int.emod_eq_of_lt h (by omega)]

theorem sizeOfInt_negative {b : UInt8} (h : charValue b < 0) :
    maxStringSize < sizeOfInt (charValue b) := by
  have hb := charValue_bounds b
  have hsize : charValue b % 2 ^ 64 = charValue b + 2 ^ 64 := by
    rw [← Int.add_emod_right, Int.emod_eq_of_lt (by omega) (by omega)]
  rw [sizeOfInt, hsize, maxStringSize]
  omega

namespace ProtocolHandler
variable {V6 : Type} (left : Leftover)

theorem frameText_length {st : FrameRegister} {tmp : Text} (h : frameText left st = .ok tmp) :
    0 ≤ charValue st.len ∧ tmp.length = (charValue st.len).toNat ∧
      load ⟨st.hostname.data,left.afterRegister⟩ 0 (charValue st.len).toNat = .ok tmp := by
  by_cases hneg : charValue st.len < 0
  · simp only [frameText, assign, if_pos (sizeOfInt_negative hneg)] at h
    contradiction
  · have hsize := sizeOfInt_charValue (not_lt.mp hneg)
    have hb := charValue_bounds st.len
    have hshort : ¬ maxStringSize < (charValue st.len).toNat := by
      rw [maxStringSize]
      omega
    simp only [frameText, assign, hsize, if_neg hshort] at h
    exact ⟨not_lt.mp hneg,load_length h,h⟩

theorem frameText_ok {st : FrameRegister} (h : 0 ≤ charValue st.len)
    (h' : charValue st.len ≤ 125) :
    frameText left st = .ok (st.hostname.data.take (charValue st.len).toNat) := by
  have hload := @load_inside ⟨st.hostname.data,left.afterRegister⟩ 0 (charValue st.len).toNat
    (by rw [st.hostname.size_eq]; omega)
  have hshort : ¬ maxStringSize < (charValue st.len).toNat := by
    rw [maxStringSize]
    omega
  simpa only [frameText, assign, sizeOfInt_charValue h, if_neg hshort, List.drop_zero] using hload

theorem frameText_unmapped {st : FrameRegister} {tmp : Text}
    (hleft : ∀ i, left.afterRegister i = none) (h : frameText left st = .ok tmp) :
    0 ≤ charValue st.len ∧ charValue st.len ≤ 125 := by
  obtain ⟨hpos,-,hload⟩ := frameText_length left h
  refine ⟨hpos,?_⟩
  by_contra hlong
  have hread : (Region.mk st.hostname.data left.afterRegister).read 0
      (charValue st.len).toNat = none :=
    Region.read_unmapped hleft (by simp only [st.hostname.size_eq]; omega) (by omega)
  rw [load, hread] at hload
  contradiction

theorem frameNames_eq {st : FrameRegister} {tmp : Text} (h : frameText left st = .ok tmp) :
    ∃ suid, frameNames left st = .ok (tmp.take (find tmp bar),suid) := by
  obtain ⟨-,hlen,-⟩ := frameText_length left h
  have hb := charValue_bounds st.len
  have hle : (find tmp bar + 1) % 2 ^ 64 ≤ tmp.length := by
    have hidx : tmp.findIdx (· = bar) ≤ tmp.length := List.findIdx_le_length
    by_cases hbar : tmp.findIdx (· = bar) = tmp.length
    · have hfind : find tmp bar = npos := if_pos hbar
      simp [hfind, npos]
    · have hfind : find tmp bar = tmp.findIdx (· = bar) := if_neg hbar
      omega
  refine ⟨(tmp.drop ((find tmp bar + 1) % 2 ^ 64)).take npos,?_⟩
  simp only [frameNames, h, ok_bind, substr, Nat.not_lt_zero, if_false, List.drop_zero]
  rw [if_neg (by omega)]
  rfl

theorem Registration.hostname_length {packet : DvspPacket} {st : FrameRegister}
    {hostname suid : Text} (h : Registration left packet st hostname suid) :
    hostname.length < 128 := by
  obtain ⟨tmp,htmp,-⟩ := bind_eq_ok.mp h.names
  obtain ⟨-,hlen,-⟩ := frameText_length left htmp
  have hb := charValue_bounds st.len
  obtain ⟨suid',hnames⟩ := frameNames_eq left htmp
  have heq := hnames.symm.trans h.names
  simp only [Except.ok.injEq, Prod.mk.injEq] at heq
  rw [← heq.1, List.length_take]
  omega

/-! ### When a registration is answered -/

variable (env : Surroundings V6)

/-- A frame that is all there, and whose text, if it is looked at, lies in its array. -/
def RegisterReadable (packet : DvspPacket) : Prop :=
  FrameRegister.sizeOf ≤ packet.bytes.length ∧
    let st := FrameRegister.ofBytes (packet.bytes.take FrameRegister.sizeOf)
    charValue NetnodeType.final.raw ≤ charValue st.type ∨
      (0 ≤ charValue st.len ∧ charValue st.len ≤ 125)

theorem registerHost_ok {packet : DvspPacket} (hp : packet.WellFormed)
    (h : RegisterReadable packet) (addr : NetspaceAddr V6) (table : NetspaceTable V6) :
    ∃ reply, (registerHost env left packet addr table).1 = .ok reply := by
  have hframe : packet.contentAs left.afterContent 0 FrameRegister.sizeOf =
      .ok (packet.bytes.take FrameRegister.sizeOf) := hp.contentAs left.afterContent h.1
  rcases registerHost_cases env left packet addr table with
    ⟨st,hostname,suid,-,-,-,heq⟩ | ⟨st,hostname,suid,-,-,heq⟩ | ⟨bs,-,-,heq⟩ | ⟨e,he,heq⟩
  · exact ⟨_,by rw [heq]⟩
  · exact ⟨_,by rw [heq]⟩
  · exact ⟨_,by rw [heq]⟩
  · exfalso
    cases he with
    | frame hbad =>
      rw [hframe] at hbad
      contradiction
    | @names bs hbs htype hbad =>
      obtain rfl : packet.bytes.take FrameRegister.sizeOf = bs := by
        simpa [hframe] using hbs
      rcases h.2 with hfinal | ⟨hpos,hmax⟩
      · omega
      · obtain ⟨suid,hnames⟩ := frameNames_eq left (frameText_ok left hpos hmax)
        rw [hnames] at hbad
        contradiction

theorem registerHost_unmapped {packet : DvspPacket} (hp : packet.WellFormed)
    (hcontent : left.afterContent = fun _ => none) (hregister : ∀ i, left.afterRegister i = none)
    {addr : NetspaceAddr V6} {table : NetspaceTable V6} {reply : DvspPacket}
    (h : (registerHost env left packet addr table).1 = .ok reply) : RegisterReadable packet := by
  by_cases hlen : FrameRegister.sizeOf ≤ packet.bytes.length
  · have hframe : packet.contentAs left.afterContent 0 FrameRegister.sizeOf =
        .ok (packet.bytes.take FrameRegister.sizeOf) := hp.contentAs left.afterContent hlen
    have hnames {st : FrameRegister} {hostname suid : Text}
        (hst : Registration left packet st hostname suid) : RegisterReadable packet := by
      obtain ⟨bs,hbs,rfl⟩ := hst.frame
      obtain rfl : packet.bytes.take FrameRegister.sizeOf = bs := by simpa [hframe] using hbs
      obtain ⟨tmp,htmp,-⟩ := bind_eq_ok.mp hst.names
      exact ⟨hlen,.inr (frameText_unmapped left hregister htmp)⟩
    rcases registerHost_cases env left packet addr table with
      ⟨st,hostname,suid,hst,-,-,-⟩ | ⟨st,hostname,suid,hst,-,-⟩ | ⟨bs,hbs,htype,-⟩ | ⟨e,-,heq⟩
    · exact hnames hst
    · exact hnames hst
    · obtain rfl : packet.bytes.take FrameRegister.sizeOf = bs := by simpa [hframe] using hbs
      exact ⟨hlen,.inl htype⟩
    · rw [heq] at h
      contradiction
  · have hfault : packet.contentAs left.afterContent 0 FrameRegister.sizeOf = undefined := by
      rw [hcontent]
      exact DvspPacket.read_outside packet (by omega) (by decide)
    simp [registerHost, Handler.bind_apply, hfault, undefined] at h

end ProtocolHandler

/-! ### Tables that a node can get into -/

section Reachable
variable {V6 : Type} [DecidableEq V6]

/-- A table that calls from IPv4 addresses have made out of the empty one. -/
def Reachable (table : NetspaceTable V6) : Prop :=
  ∃ calls : List (PacketCall V6), (∀ c ∈ calls, ∃ a, c.addr = .v4 a) ∧ runCalls calls [] = table

/-- What is known of every node of such a table. -/
def Inbound (table : NetspaceTable V6) : Prop :=
  ∀ n ∈ table, (∃ a, n.addr = .v4 a) ∧ n.hostname.length < 128

theorem Inbound.step {c : PacketCall V6} (hc : ∃ a, c.addr = .v4 a) {table : NetspaceTable V6}
    (h : Inbound table) : Inbound (c.step table) := by
  rcases c.step_cases table with ⟨st,hostname,suid,-,hst,-,-,-,heq⟩ |
    ⟨before,n,after,-,htable,-,-,-,heq⟩ | ⟨-,heq⟩
  · rw [heq]
    intro m hm
    rcases List.mem_append.mp hm with hm | hm
    · exact h m hm
    · rw [List.mem_singleton.mp hm]
      exact ⟨hc,hst.hostname_length⟩
  · rw [heq]
    subst htable
    intro m hm
    apply h
    rcases List.mem_append.mp hm with hm | hm <;> simp [hm]
  · rw [heq]
    exact h

theorem Reachable.inbound {table : NetspaceTable V6} (h : Reachable table) : Inbound table := by
  obtain ⟨calls,hcalls,rfl⟩ := h
  exact runCalls_invariant (fun c hc table ht => ht.step (hcalls c hc)) (by simp [Inbound])

theorem reachable_nil : Reachable ([] : NetspaceTable V6) := ⟨[],by simp,rfl⟩

end Reachable
end GsnNode
