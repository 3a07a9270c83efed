import GsnNode.CString
import GsnNode.ForgeClient

/-! Replies with a `frame_service`: what is read of them, and what is in the frame
that a service builds. -/

set_option autoImplicit false

namespace GsnNode
open ByteWords MemoryRegion ProtocolHandler

/-! ### Reading a reply -/

/-- No byte is read that the reply does not have, and a reply that is too short for
a `frame_service` gives no text. -/
structure ReadsWithin (recv : DvspPacket) : Prop where
  /-- also with nothing mapped behind the content -/
  inside : ∀ left it, left.afterReply it = (fun _ => none) → replyText left it recv ≠ undefined
  /-- `header.size - offset` where `to_string` is called -/
  no_wrap : ∀ (left : Leftover) (it : Nat) (bs : List UInt8), recv.header.type = .gsnResponse →
    recv.contentAs (left.afterReply it) 0 FrameService.sizeOf = .ok bs →
      (FrameService.ofBytes bs).response = .ok → FrameService.sizeOf ≤ recv.header.size.toNat
  short : recv.bytes.length < FrameService.sizeOf →
    ∀ left it, replyText left it recv = .ok none

theorem readsWithin_other {recv : DvspPacket} (htype : recv.header.type ≠ .gsnResponse) :
    ReadsWithin recv := by
  have htext := fun left it => replyText_other left it htype
  refine ⟨fun left it _ => ?_,fun left it bs h => absurd h htype,fun _ => htext⟩
  simp [htext, undefined]

theorem readsWithin_long {recv : DvspPacket} (hr : recv.WellFormed)
    (hlen : FrameService.sizeOf ≤ recv.bytes.length) : ReadsWithin recv := by
  refine ⟨fun left it _ => ?_,fun left it bs _ _ _ => ?_,fun hshort => absurd hlen (by omega)⟩
  · obtain ⟨str,hstr⟩ := replyText_ok left it hr fun _ => hlen
    simp [hstr, undefined]
  · rw [← hr.size_eq]
    exact hlen

theorem readsWithin_iff (recv : ReceivedPacket) :
    ReadsWithin recv.val ↔
      recv.val.header.type ≠ .gsnResponse ∨ FrameService.sizeOf ≤ recv.val.bytes.length := by
  constructor
  · intro h
    by_contra hno
    simp only [not_or, not_not, not_le] at hno
    obtain ⟨htype,hshort⟩ := hno
    exact absurd (replyText_unmapped unmapped rfl (h.short hshort unmapped 0) htype)
      (not_le.mpr hshort)
  · intro h
    rcases h with htype | hlen
    · exact readsWithin_other htype
    · exact readsWithin_long recv.2 hlen

/-- A response with the four bytes of the code ok. -/
def okReply : ReceivedPacket := ⟨packetOf .gsnResponse DvspRcode.ok.bytes,by decide +kernel⟩

/-- A byte 0 behind every reply. -/
def zeroBehind : Leftover := { unmapped with afterReply := fun _ _ => some 0 }

theorem ok_code_escapes : ¬ ReadsWithin okReply.val := by
  intro h
  have hthrows : replyText zeroBehind 0 okReply.val = throws .lengthError := by decide +kernel
  have hshort : okReply.val.bytes.length < FrameService.sizeOf := by decide +kernel
  rw [h.short hshort zeroBehind 0] at hthrows
  contradiction

/-! ### Building a reply -/

def FrameService.bytes (f : FrameService) : List UInt8 := f.response.bytes ++ [f.len]

/-- `construct_frame_service(result)` in a new buffer with this content. The string is
not copied into the buffer: `result.assign(ptr)` reads a string out of it. -/
def constructFrameService (result : Text) (heap : Block (FrameService.sizeOf + result.length))
    (beyond : Beyond) : Call (List UInt8) := do
  let f : FrameService := ⟨.ok,UInt8.ofNat result.length⟩
  let buffer := f.bytes ++ heap.data.drop FrameService.sizeOf
  let n ← strlen ⟨buffer,beyond⟩ FrameService.sizeOf
  let _ ← assign n (load ⟨buffer,beyond⟩ FrameService.sizeOf n)
  pure buffer

/-- The frame has the length of the text, and a reply with it is read as the text. -/
def DeliversPayload (result : Text) (heap : Block (FrameService.sizeOf + result.length))
    (beyond : Beyond) : Prop :=
  ∃ buffer, constructFrameService result heap beyond = .ok buffer ∧
    charValue (FrameService.ofBytes buffer).len = result.length ∧
    ∀ (left : Leftover) (it : Nat) (recv : ReceivedPacket), recv.val.header.type = .gsnResponse →
      recv.val.bytes = buffer → replyText left it recv.val = .ok (some result)

/-- A NUL in the text or in the memory behind it. -/
def NulFollows (text : Text) (beyond : Beyond) : Prop :=
  ∃ n ≤ maxStringSize, (Region.mk text beyond).StopsAt (· != nul) 0 n

@[simp] theorem FrameService.bytes_length (f : FrameService) :
    f.bytes.length = FrameService.sizeOf := by
  simp [bytes, sizeOf]

theorem FrameService.ofBytes_append (f : FrameService) (rest : List UInt8) :
    FrameService.ofBytes (f.bytes ++ rest) = f := by
  obtain ⟨⟨raw⟩,len⟩ := f
  have hcode : (leBytes 4 raw.toNat ++ ([len] ++ rest)).take 4 = leBytes 4 raw.toNat :=
    List.take_left' (leBytes_length 4 _)
  have hlen : (leBytes 4 raw.toNat ++ ([len] ++ rest)).getD 4 0 = len := by
    rw [List.getD_append_right _ _ _ _ (leBytes_length 4 _).le, leBytes_length]
    rfl
  simp only [ofBytes, bytes, DvspRcode.bytes, DvspRcode.ofBytes, List.append_assoc, hcode,
    uint32_leValue_leBytes, hlen]

section Construct
variable {result : Text} {heap : Block (FrameService.sizeOf + result.length)} {beyond : Beyond}

theorem constructFrameService_ok {buffer : List UInt8} :
    constructFrameService result heap beyond = .ok buffer ↔
      buffer = FrameService.bytes ⟨.ok,UInt8.ofNat result.length⟩ ++
          heap.data.drop FrameService.sizeOf ∧
        NulFollows (heap.data.drop FrameService.sizeOf) beyond := by
  have hscan : ∀ n, strlen ⟨FrameService.bytes ⟨.ok,UInt8.ofNat result.length⟩ ++
      heap.data.drop FrameService.sizeOf,beyond⟩ FrameService.sizeOf = .ok n ↔
        (Region.mk (heap.data.drop FrameService.sizeOf) beyond).StopsAt (· != nul) 0 n ∧
          n < addressSpace := by
    intro n
    have hshift := @Region.stopsAt_append (· != nul) n
      (FrameService.bytes ⟨.ok,UInt8.ofNat result.length⟩) (heap.data.drop FrameService.sizeOf) beyond
    rw [FrameService.bytes_length] at hshift
    rw [strlen_ok, hshift]
  constructor
  · intro h
    obtain ⟨n,hn,h⟩ := bind_eq_ok.mp h
    obtain ⟨copied,hcopied,h⟩ := bind_eq_ok.mp h
    refine ⟨(Except.ok.inj h).symm,n,?_,((hscan n).mp hn).1⟩
    by_contra hlong
    rw [assign, if_pos (not_le.mp hlong)] at hcopied
    contradiction
  · intro h
    obtain ⟨rfl,n,hmax,hstop⟩ := h
    have hn := (hscan n).mpr ⟨hstop,by rw [maxStringSize] at hmax; rw [addressSpace]; omega⟩
    obtain ⟨bs,hbs⟩ := Option.isSome_iff_exists.mp (strlen_ok.mp hn).1.read_isSome
    rw [Nat.add_sub_cancel_left] at hbs
    simp only [constructFrameService, hn, ok_bind, assign, if_neg (not_lt.mpr hmax), load, hbs,
      pure_eq_ok]

theorem service_reply {recv : ReceivedPacket} (htype : recv.val.header.type = .gsnResponse)
    {len : UInt8} {text : Text} (hbytes : recv.val.bytes = FrameService.bytes ⟨.ok,len⟩ ++ text)
    (left : Leftover) (it : Nat) : replyText left it recv.val = .ok (some text) := by
  have hlen : FrameService.sizeOf ≤ recv.val.bytes.length := by
    rw [hbytes, List.length_append, FrameService.bytes_length]
    omega
  have hdrop : recv.val.bytes.drop FrameService.sizeOf = text := by
    rw [hbytes, List.drop_left' (FrameService.bytes_length _)]
  rw [replyText_eq left it recv.2 htype hlen, hdrop, hbytes, FrameService.ofBytes_append, if_pos rfl]

theorem charValue_len_iff (n : Nat) : charValue (UInt8.ofNat n) = n ↔ n ≤ 127 := by
  have hb := charValue_bounds (UInt8.ofNat n)
  constructor
  · intro h
    omega
  · exact fun h => charValue_ofNat (by omega)

theorem deliversPayload_iff :
    DeliversPayload result heap beyond ↔
      heap.data.drop FrameService.sizeOf = result ∧ result.length ≤ 127 ∧
        NulFollows result beyond := by
  have hpayload : (heap.data.drop FrameService.sizeOf).length = result.length := by
    rw [List.length_drop, heap.size_eq, Nat.add_sub_cancel_left]
  constructor
  · intro h
    obtain ⟨buffer,hbuffer,hlen,hread⟩ := h
    obtain ⟨rfl,hnul⟩ := constructFrameService_ok.mp hbuffer
    rw [FrameService.ofBytes_append, charValue_len_iff] at hlen
    have hsize : (FrameService.bytes ⟨.ok,UInt8.ofNat result.length⟩ ++
        heap.data.drop FrameService.sizeOf).length < 2 ^ 32 := by
      rw [List.length_append, FrameService.bytes_length, hpayload, FrameService.sizeOf]
      omega
    have hwf : (packetOf .gsnResponse (FrameService.bytes ⟨.ok,UInt8.ofNat result.length⟩ ++
        heap.data.drop FrameService.sizeOf)).WellFormed := by
      refine ⟨by simp [packetOf],?_⟩
      simp only [packetOf, DvspPacket.bytes, UInt32.toNat_ofNat']
      omega
    have hsame := (hread unmapped 0 ⟨_,hwf⟩ rfl rfl).symm.trans
      (@service_reply ⟨_,hwf⟩ rfl _ _ rfl unmapped 0)
    simp only [Except.ok.injEq, Option.some.injEq] at hsame
    rw [← hsame] at hnul
    exact ⟨hsame.symm,hlen,hnul⟩
  · intro h
    obtain ⟨hheap,hlen,hnul⟩ := h
    refine ⟨_,constructFrameService_ok.mpr ⟨rfl,by rw [hheap]; exact hnul⟩,?_,?_⟩
    · rw [FrameService.ofBytes_append]
      exact (charValue_len_iff _).mpr hlen
    · intro left it recv htype hbytes
      rw [hheap] at hbytes
      exact service_reply htype hbytes left it

end Construct

theorem payload_not_copied : ¬ DeliversPayload (ascii "ok") default (fun _ => none) := by
  intro ⟨buffer,hbuffer,_,hread⟩
  have hzero : constructFrameService (ascii "ok") default (fun _ => none) =
      .ok [200,0,0,0,2,0,0] := by decide +kernel
  obtain rfl := Except.ok.inj (hzero.symm.trans hbuffer)
  have htext := hread unmapped 0 ⟨packetOf .gsnResponse [200,0,0,0,2,0,0],by decide +kernel⟩ rfl rfl
  exact absurd htext (by decide +kernel)

end GsnNode
