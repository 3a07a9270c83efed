import GsnNode.ForgeClient
import GsnNode.KeptRegistration

/-! Which registrations are refused, and how much of the text of a registration is
kept. -/

set_option autoImplicit false

namespace GsnNode
open ByteWords MemoryRegion KeyedList ProtocolHandler

/-- The text up to the first separator, and what follows it. Without a separator
each of the two is the whole text. -/
def splitNames (text : Text) : Text × Text :=
  if bar ∈ text then (text.takeWhile (· ≠ bar),(text.dropWhile (· ≠ bar)).drop 1)
  else (text,text)

theorem splitNames_separated {hostname suid : Text} (h : bar ∉ hostname) :
    splitNames (hostname ++ bar :: suid) = (hostname,suid) := by
  have hbefore : ∀ c ∈ hostname, (decide (c ≠ bar)) = true := by
    intro c hc
    simpa using fun heq : c = bar => h (heq ▸ hc)
  have htake : (hostname ++ bar :: suid).takeWhile (· ≠ bar) = hostname := by
    rw [List.takeWhile_append_of_pos hbefore]
    simp
  have hdrop : (hostname ++ bar :: suid).dropWhile (· ≠ bar) = bar :: suid := by
    rw [List.dropWhile_append_of_pos hbefore]
    simp
  rw [splitNames, if_pos (by simp), htake, hdrop]
  rfl

theorem frameNames_whole {left : Leftover} {st : FrameRegister} {text : Text}
    (htext : frameText left st = .ok text) (hbar : bar ∉ text) (hlen : text.length < 2 ^ 64) :
    frameNames left st = .ok (text,text) := by
  have hidx : text.findIdx (· = bar) = text.length := by
    simpa [List.findIdx_eq_length] using fun c hc (heq : c = bar) => hbar (heq ▸ hc)
  have hfind : find text bar = npos := by rw [find, hidx, if_pos rfl]
  have hnext : (npos + 1) % 2 ^ 64 = 0 := by decide
  have htake : text.take npos = text := List.take_of_length_le (by rw [npos]; omega)
  simp only [frameNames, htext, ok_bind, hfind, hnext, substr, Nat.not_lt_zero, if_false,
    List.drop_zero, htake, pure_eq_ok]

theorem frameNames_split {left : Leftover} {st : FrameRegister} {text : Text}
    (htext : frameText left st = .ok text) (hlen : text.length < 2 ^ 64) :
    frameNames left st = .ok (splitNames text) := by
  by_cases hbar : bar ∈ text
  · obtain ⟨hostname,c,suid,rfl,hbefore,hc⟩ := @exists_first _ (fun c => decide (c = bar)) text
      ⟨bar,hbar,by simp⟩
    obtain rfl : c = bar := by simpa using hc
    have hfirst : bar ∉ hostname := fun hmem => by simpa using hbefore bar hmem
    rw [splitNames_separated hfirst]
    exact frameNames_separated htext hfirst hlen
  · rw [splitNames, if_neg hbar]
    exact frameNames_whole htext hbar hlen

/-! ### Malformed registrations -/

def registerOf (packet : DvspPacket) : FrameRegister :=
  FrameRegister.ofBytes (packet.bytes.take FrameRegister.sizeOf)

/-- The length is one that the array of the frame has. -/
def FrameRegister.LenFits (st : FrameRegister) : Prop :=
  0 ≤ charValue st.len ∧ charValue st.len ≤ 125

/-- The bytes of the array that the length names. -/
def FrameRegister.text (st : FrameRegister) : Text :=
  st.hostname.data.take (charValue st.len).toNat

structure WellFormedRegistration (packet : DvspPacket) : Prop where
  whole : FrameRegister.sizeOf ≤ packet.bytes.length
  fits : (registerOf packet).LenFits

section Malformed
variable {V6 : Type} (env : Surroundings V6) (left : Leftover)

structure RefusesMalformed (packet : DvspPacket) (addr : NetspaceAddr V6)
    (table : NetspaceTable V6) : Prop where
  refused : ¬ WellFormedRegistration packet →
    registerHost env left packet addr table = (.ok (responsePacket .malformedContent),table)
  stored : WellFormedRegistration packet →
    (registerHost env left packet addr table).2 = table ∨
      (registerHost env left packet addr table).2 = table ++
        [registeredNode (registerOf packet) (splitNames (registerOf packet).text).1
          (splitNames (registerOf packet).text).2 addr]

theorem registration_frame {packet : DvspPacket} (hp : packet.WellFormed)
    (hlen : FrameRegister.sizeOf ≤ packet.bytes.length) :
    packet.contentAs left.afterContent 0 FrameRegister.sizeOf =
      .ok (packet.bytes.take FrameRegister.sizeOf) := hp.contentAs left.afterContent hlen

theorem registration_names {packet : DvspPacket} (hp : packet.WellFormed)
    (hwf : WellFormedRegistration packet) {st : FrameRegister} {hostname suid : Text}
    (h : Registration left packet st hostname suid) :
    st = registerOf packet ∧ (hostname,suid) = splitNames (registerOf packet).text := by
  obtain ⟨bs,hbs,rfl⟩ := h.frame
  rw [registration_frame left hp hwf.whole, Except.ok.injEq] at hbs
  subst hbs
  have htext := frameText_ok left hwf.fits.1 hwf.fits.2
  have hb := charValue_bounds (registerOf packet).len
  have hnames := frameNames_split htext (by rw [List.length_take]; omega)
  exact ⟨rfl,Except.ok.inj (h.names.symm.trans hnames)⟩

theorem stored_names {packet : DvspPacket} (hp : packet.WellFormed)
    (hwf : WellFormedRegistration packet) (addr : NetspaceAddr V6) (table : NetspaceTable V6) :
    (registerHost env left packet addr table).2 = table ∨
      (registerHost env left packet addr table).2 = table ++
        [registeredNode (registerOf packet) (splitNames (registerOf packet).text).1
          (splitNames (registerOf packet).text).2 addr] := by
  rcases registerHost_cases env left packet addr table with
    ⟨st,hostname,suid,hst,-,-,heq⟩ | ⟨st,hostname,suid,-,-,heq⟩ | ⟨bs,-,-,heq⟩ | ⟨e,-,heq⟩
  · obtain ⟨rfl,hnames⟩ := registration_names left hp hwf hst
    exact .inr (by rw [heq, ← hnames])
  · exact .inl (by rw [heq])
  · exact .inl (by rw [heq])
  · exact .inl (by rw [heq])

theorem refusesMalformed_iff {packet : DvspPacket} (hp : packet.WellFormed)
    (addr : NetspaceAddr V6) :
    (∀ left table, RefusesMalformed env left packet addr table) ↔
      FrameRegister.sizeOf ≤ packet.bytes.length ∧
        ((registerOf packet).LenFits ∨
          charValue NetnodeType.final.raw ≤ charValue (registerOf packet).type) := by
  constructor
  · intro h
    by_cases hwf : WellFormedRegistration packet
    · exact ⟨hwf.whole,.inl hwf.fits⟩
    · have hrefused := (h unmapped []).refused hwf
      have hread := registerHost_unmapped unmapped env hp rfl (fun _ => rfl)
        (congrArg Prod.fst hrefused)
      exact ⟨hread.1,hread.2.symm⟩
  · intro ⟨hlen,hcase⟩ left table
    refine ⟨fun hwf => ?_,fun hwf => stored_names env left hp hwf addr table⟩
    rcases hcase with hfits | htype
    · exact absurd ⟨hlen,hfits⟩ hwf
    · exact registerHost_refused env left (registration_frame left hp hlen) htype addr table

end Malformed

/-- The length byte is 255, that is -1. -/
def negativeRegistration : DvspPacket :=
  packetOf .gsnRegisterHost ([2,255,0] ++ List.replicate 125 0)

/-- A registration that is well formed, and one with a negative length. -/
theorem refusesMalformed_iff_length :
    (∀ left table, RefusesMalformed isolated left (packetOf .gsnRegisterHost
        (registerFrame (ascii "b|a"))) localhost table) ∧
      ¬ ∀ left table, RefusesMalformed isolated left negativeRegistration localhost table := by
  constructor
  · exact (refusesMalformed_iff isolated (by decide +kernel) localhost).mpr
      ⟨by decide +kernel,.inl ⟨by decide +kernel,by decide +kernel⟩⟩
  · intro h
    obtain ⟨-,hfits | htype⟩ := (refusesMalformed_iff isolated (by decide +kernel) localhost).mp h
    · exact absurd hfits.1 (by decide +kernel)
    · exact absurd htype (by decide +kernel)

theorem negative_length_escapes :
    ¬ RefusesMalformed isolated unmapped negativeRegistration localhost [] := by
  intro h
  have hthrows : (registerHost isolated unmapped negativeRegistration localhost []).1 =
      throws .lengthError := by decide +kernel
  have hwf : ¬ WellFormedRegistration negativeRegistration :=
    fun hwf => absurd hwf.fits.1 (by decide +kernel)
  rw [h.refused hwf] at hthrows
  exact absurd hthrows (by simp [throws])

/-! ### Text from the client -/

section Carried
variable {V6 : Type} (env : Surroundings V6) (left : Leftover) (uninit : Block 125)

/-- The frame of the client is registered as it is meant, or answered with an error
that changes nothing. -/
def CarriedIntact (type : NetnodeType) (proto : ServiceProtocol) (hostname suid : Text)
    (a : NetspaceIpv4) (table : NetspaceTable V6) : Prop :=
  ∃ frame, constructFrameRegister uninit type (hostname ++ bar :: suid) proto = .ok frame ∧
    ∀ packet : DvspPacket, packet.WellFormed → packet.header.type = .gsnRegisterHost →
      packet.bytes = frame.bytes →
        registerHost env left packet (.v4 a) table =
            (.ok (responsePacket .ok),table ++ [⟨type,.v4 a,hostname,proto,suid⟩]) ∨
          ∃ code, code ≠ .ok ∧
            registerHost env left packet (.v4 a) table = (.ok (responsePacket code),table)

theorem constructFrameRegister_ok (type : NetnodeType) {text : Text} (proto : ServiceProtocol)
    (h : text.length ≤ 125) : ∃ frame, constructFrameRegister uninit type text proto = .ok frame ∧
      frame.type = type.raw ∧ frame.protocol = proto.raw ∧ frame.LenFits ∧ frame.text = text := by
  have hchar := @charValue_ofNat text.length (by omega)
  have hlen : (text ++ uninit.data.drop text.length).length = 125 := by
    simp only [List.length_append, List.length_drop, uninit.size_eq]
    omega
  refine ⟨_,by rw [constructFrameRegister, if_pos h]; rfl,rfl,rfl,?_,?_⟩
  · rw [FrameRegister.LenFits, hchar]
    omega
  · rw [FrameRegister.text, hchar, Block.data_ofList hlen]
    exact List.take_left

/-- Out of the whole frame the node reads what the client has put into it. -/
theorem whole_registration {packet : DvspPacket} (hp : packet.WellFormed) {frame : FrameRegister}
    (hbytes : packet.bytes = frame.bytes) {type : NetnodeType}
    (htype : type.raw < NetnodeType.final.raw) (hframe : frame.type = type.raw)
    (hfits : frame.LenFits) {hostname suid : Text} (hbar : bar ∉ hostname)
    (htext : frame.text = hostname ++ bar :: suid) :
    Registration left packet frame hostname suid := by
  have hread := frameText_ok left hfits.1 hfits.2
  rw [← FrameRegister.text, htext] at hread
  have hlt : charValue frame.type < charValue NetnodeType.final.raw := by
    have hraw : type.raw.toNat < 5 := htype
    have hfinal : charValue NetnodeType.final.raw = 5 := by decide
    rw [hframe, hfinal, charValue_eq, if_pos (by omega)]
    omega
  have hlen : FrameRegister.sizeOf ≤ packet.bytes.length := by
    rw [hbytes, frame.bytes_length]
  have hwhole : packet.bytes.take FrameRegister.sizeOf = frame.bytes := by
    rw [hbytes, List.take_of_length_le frame.bytes_length.le]
  have hnames := congrArg List.length htext
  rw [FrameRegister.text, List.length_take, frame.hostname.size_eq] at hnames
  exact ⟨⟨_,registration_frame left hp hlen,by rw [hwhole, frame.ofBytes_bytes]⟩,hlt,
    frameNames_separated hread hbar (by omega)⟩

theorem carriedIntact_iff {type : NetnodeType} (htype : type.raw < NetnodeType.final.raw)
    (proto : ServiceProtocol) {hostname suid : Text} (hbar : bar ∉ hostname) (a : NetspaceIpv4)
    {table : NetspaceTable V6} (hhost : ∀ m ∈ table, m.hostname ≠ hostname)
    (hsuid : ∀ m ∈ table, m.suid ≠ suid) :
    CarriedIntact env left uninit type proto hostname suid a table ↔
      (hostname ++ bar :: suid).length ≤ 125 := by
  constructor
  · intro ⟨frame,hframe,_⟩
    by_contra hlong
    rw [constructFrameRegister, if_neg hlong] at hframe
    contradiction
  · intro hshort
    obtain ⟨frame,hframe,hty,hpr,hfits,htext⟩ := constructFrameRegister_ok uninit type proto hshort
    refine ⟨frame,hframe,fun packet hp hregister hbytes => .inl ?_⟩
    have hst := whole_registration left hp hbytes htype hty hfits hbar htext
    have haccepts : Accepts ⟨env,left,packet,.v4 a⟩ table frame hostname suid :=
      ⟨hregister,hst,hhost,hsuid⟩
    have heq := haccepts.registerHost_eq
    rw [registeredNode, hty, hpr] at heq
    exact heq

end Carried

/-- Beside another node, a text that fits the frame, and one that does not. -/
theorem carriedIntact_iff_length :
    CarriedIntact isolated unmapped default .org .dvsp (ascii "b") (ascii "a")
        (Block.ofList 4 [127,0,0,1]) [⟨.org,localhost,ascii "d",.dvsp,ascii "c"⟩] ∧
      ¬ CarriedIntact isolated unmapped default .org .dvsp (List.replicate 125 120) (ascii "a")
        (Block.ofList 4 [127,0,0,1]) [⟨.org,localhost,ascii "d",.dvsp,ascii "c"⟩] := by
  constructor
  · exact (carriedIntact_iff isolated unmapped default (by decide) .dvsp (by decide)
      (Block.ofList 4 [127,0,0,1]) (by decide +kernel) (by decide +kernel)).mpr (by decide)
  · intro h
    exact absurd ((carriedIntact_iff isolated unmapped default (by decide) .dvsp
      (by decide +kernel) (Block.ofList 4 [127,0,0,1]) (by decide +kernel)
        (by decide +kernel)).mp h) (by decide +kernel)

theorem long_text_overruns :
    ¬ CarriedIntact isolated unmapped default .org .dvsp (List.replicate 125 120) (ascii "a")
        (Block.ofList 4 [127,0,0,1]) [] := by
  intro ⟨frame,hframe,_⟩
  rw [constructFrameRegister, if_neg (by decide +kernel)] at hframe
  contradiction

end GsnNode
