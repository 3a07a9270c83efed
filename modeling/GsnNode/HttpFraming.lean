import GsnNode.AcceptedNodes
import GsnNode.LineText
import GsnNode.PacketWire

/-! The request that a frame is sent in, read line by line. -/

set_option autoImplicit false

namespace GsnNode
open ByteWords MemoryRegion DecimalText LineText ProtocolHandler StepRuns

def crByte : UInt8 := 13
def lfByte : UInt8 := 10

theorem crByte_ne_lfByte : crByte ≠ lfByte := by decide

/-- No CR LF in the hostname. -/
abbrev OneLine (hostname : Text) : Prop := LineFree crByte lfByte hostname

def hostField : Text := ascii "Host: "

def lengthField : Text := ascii "Content-Length: "

/-- The lines of the text that begin with the name of the field. -/
def fieldLines (field text : Text) : List Text :=
  (linesOf crByte lfByte text).filter fun line => field.isPrefixOf line

/-- The bytes are one request, with `serial` for its body. -/
structure OneRequest (hostname : Text) (frame : HttpFrame) (serial bytes : List UInt8) : Prop where
  body : bytes = frame.header ++ serial
  blank : ∃ front, frame.header = front ++ HttpFrame.crlf ++ HttpFrame.crlf
  first_blank : ∀ pre post, bytes = pre ++ HttpFrame.crlf ++ HttpFrame.crlf ++ post →
    frame.header.length ≤ (pre ++ HttpFrame.crlf ++ HttpFrame.crlf).length
  content_length : fieldLines lengthField frame.header = [lengthField ++ decimal serial.length]
  host : fieldLines hostField frame.header = [hostField ++ hostname]
  size_eq : frame.size = bytes.length

/-- Every packet that can be serialised is sent in one request to this host. -/
def FramesAll (hostname : Text) : Prop :=
  ∀ (beyond : Beyond) (p : DvspPacket) (serial : List UInt8), p.serialise beyond = .ok serial →
    ∃ frame bytes, HttpFrame.ofPacket beyond p hostname = .ok frame ∧
      frame.serialise beyond = .ok bytes ∧ OneRequest hostname frame serial bytes

/-! ### The header -/

def headLines (hostname : Text) (length : Nat) : List Text :=
  [ascii "POST /spring/spring_hook.php HTTP/1.1",hostField ++ hostname,
    ascii "User-Agent: SpringDVS",ascii "Content-Type: application/octet-stream",
    lengthField ++ decimal length]

theorem generateHeader_append (p : DvspPacket) (hostname : Text) (body : List UInt8) :
    HttpFrame.generateHeader p hostname ++ body =
      withHead crByte lfByte (headLines hostname p.size) body := by
  simp [HttpFrame.generateHeader, withHead, headLines, HttpFrame.crlf, hostField, lengthField,
    DvspPacket.size, crByte, lfByte]

theorem crByte_not_mem_decimal (n : Nat) : crByte ∉ decimal n :=
  DelimitedText.not_mem_of_forall (decimal_isDigit n) (by decide)

theorem headLines_free {hostname : Text} (h : OneLine hostname) (length : Nat) :
    ∀ l ∈ headLines hostname length, OneLine l ∧ l ≠ [] := by
  have hhost : OneLine (hostField ++ hostname) := LineFree.append (by decide) h
  have hlength : OneLine (lengthField ++ decimal length) :=
    LineFree.append (by decide) (lineFree_of_not_mem (crByte_not_mem_decimal length))
  have hne : ∀ field rest : Text, field ≠ [] → field ++ rest ≠ [] :=
    fun field rest hf hnil => hf (List.append_eq_nil_iff.mp hnil).1
  simp only [headLines, List.forall_mem_cons]
  exact ⟨⟨lineFree_of_not_mem (by decide),by decide⟩,⟨hhost,hne _ _ (by decide)⟩,
    ⟨lineFree_of_not_mem (by decide),by decide⟩,⟨lineFree_of_not_mem (by decide),by decide⟩,
    ⟨hlength,hne _ _ (by decide)⟩,by simp⟩

theorem linesOf_generateHeader (p : DvspPacket) {hostname : Text} (h : OneLine hostname) :
    linesOf crByte lfByte (HttpFrame.generateHeader p hostname) =
      headLines hostname p.size ++ [[],[]] := by
  have hlines := linesOf_withHead crByte_ne_lfByte
    (fun l hl => (headLines_free h p.size l hl).1) (by simp [headLines]) []
  rw [← generateHeader_append, List.append_nil] at hlines
  rw [hlines]
  rfl

theorem fieldLines_hostField (p : DvspPacket) {hostname : Text} (h : OneLine hostname) :
    fieldLines hostField (HttpFrame.generateHeader p hostname) = [hostField ++ hostname] := by
  rw [fieldLines, linesOf_generateHeader p h]
  rfl

theorem fieldLines_lengthField (p : DvspPacket) {hostname : Text} (h : OneLine hostname) :
    fieldLines lengthField (HttpFrame.generateHeader p hostname) =
      [lengthField ++ decimal p.size] := by
  rw [fieldLines, linesOf_generateHeader p h]
  rfl

theorem generateHeader_blank (p : DvspPacket) (hostname : Text) :
    HttpFrame.generateHeader p hostname =
      HttpFrame.crlf.intercalate (headLines hostname p.size) ++ HttpFrame.crlf ++ HttpFrame.crlf := by
  have hhead := generateHeader_append p hostname []
  rw [List.append_nil] at hhead
  rw [hhead, withHead, List.append_assoc]
  rfl

theorem generateHeader_first_blank (p : DvspPacket) {hostname : Text} (h : OneLine hostname)
    {body pre post : List UInt8} (heq : HttpFrame.generateHeader p hostname ++ body =
      pre ++ HttpFrame.crlf ++ HttpFrame.crlf ++ post) :
    (HttpFrame.generateHeader p hostname).length ≤ (pre ++ HttpFrame.crlf ++ HttpFrame.crlf).length := by
  rw [generateHeader_append, List.append_assoc, List.append_assoc] at heq
  have hpre := withHead_first_blank crByte_ne_lfByte (headLines_free h p.size)
    (by simp [headLines]) heq
  rw [generateHeader_blank]
  simp only [List.length_append]
  exact Nat.add_le_add_right (Nat.add_le_add_right hpre _) _

/-! ### The frame of a packet -/

/-- The two copies that a frame makes are whole, so it sends what the packet is. -/
theorem HttpFrame.ofPacket_serialise {p : DvspPacket} {beyond : Beyond} {serial : List UInt8}
    (h : p.serialise beyond = .ok serial) (hostname : Text) :
    ∃ frame, HttpFrame.ofPacket beyond p hostname = .ok frame ∧
      frame.header = HttpFrame.generateHeader p hostname ∧
      frame.serialise beyond = .ok (frame.header ++ serial) ∧
      frame.size = (frame.header ++ serial).length ∧ p.size = serial.length := by
  obtain ⟨bs,hread,hlen,rfl⟩ := DvspPacket.serialise_ok h
  have hcopy : p.copy beyond = .ok ⟨p.header,.live bs⟩ := by simp [DvspPacket.copy, hread]
  have hwell : DvspPacket.WellFormed ⟨p.header,.live bs⟩ := ⟨by simp,hlen⟩
  have hsize : p.size = (p.header.bytes ++ bs).length := by
    simp [DvspPacket.size, hlen]
  have hsize' : DvspPacket.size ⟨p.header,.live bs⟩ = (p.header.bytes ++ bs).length := hsize
  refine ⟨⟨⟨p.header,.live bs⟩,hostname,HttpFrame.generateHeader p hostname,p.header.addrDest⟩,?_,
    rfl,?_,?_,hsize⟩
  · simp only [HttpFrame.ofPacket, hcopy, ok_bind, hwell.copy beyond]
    rfl
  · simp only [HttpFrame.serialise, hwell.serialise beyond, ok_bind, hsize']
    rw [DvspPacket.bytes, List.take_length]
    rfl
  · rw [List.length_append, HttpFrame.size, hsize']

theorem framesAll_iff (hostname : Text) : FramesAll hostname ↔ OneLine hostname := by
  constructor
  · intro h
    obtain ⟨frame,bytes,hframe,-,hone⟩ := h (fun _ => none) .init _ (DvspPacket.init_wellFormed.serialise _)
    have hmem : hostField ++ hostname ∈ fieldLines hostField frame.header := by
      rw [hone.host]
      exact List.mem_cons_self
    exact (lineFree_of_mem (List.mem_of_mem_filter hmem)).of_append
  · intro h beyond p serial hserial
    obtain ⟨frame,hframe,hheader,hbytes,hsize,hlen⟩ := HttpFrame.ofPacket_serialise hserial hostname
    refine ⟨frame,_,hframe,hbytes,rfl,?_,?_,?_,?_,hsize⟩
    · exact ⟨_,hheader.trans (generateHeader_blank p hostname)⟩
    · rw [hheader]
      exact fun pre post heq => generateHeader_first_blank p h heq
    · rw [hheader, fieldLines_lengthField p h, hlen]
    · rw [hheader, fieldLines_hostField p h]

/-- Every node of a run gets every packet in one request exactly if every hostname
that a registration was accepted with is one line. -/
theorem framesAll_throughout {V6 : Type} [DecidableEq V6] (calls : List (PacketCall V6)) :
    TablesMeet (fun table => ∀ n ∈ table, FramesAll n.hostname) calls ↔
      AcceptedMeet (fun _ _ _ hostname _ => OneLine hostname) calls := by
  simp only [framesAll_iff]
  exact nodesMeet_iff (fun n => OneLine n.hostname) calls

/-- The hostname of this registration goes on with a header line of its own. -/
def splittingCall : PacketCall Empty :=
  ⟨isolated,unmapped,packetOf .gsnRegisterHost
    (registerFrame (ascii "b" ++ HttpFrame.crlf ++ ascii "Host: c|a")),localhost⟩

theorem splitting_hostname :
    ¬ TablesMeet (fun table => ∀ n ∈ table, FramesAll n.hostname) [splittingCall] := by
  intro h
  have hrun : runCalls [splittingCall] [] =
      [⟨.org,localhost,ascii "b" ++ HttpFrame.crlf ++ ascii "Host: c",.dvsp,ascii "a"⟩] := by
    decide +kernel
  have hlast : ∀ n ∈ runCalls [splittingCall] [], FramesAll n.hostname := h.last
  rw [hrun] at hlast
  have hline := (framesAll_iff _).mp (hlast _ List.mem_cons_self)
  exact absurd hline (by decide +kernel)

end GsnNode
