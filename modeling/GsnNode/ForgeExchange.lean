import GsnNode.ForgeView
import GsnNode.KeptRegistration
import GsnNode.ListingEntries
import GsnNode.NodeAvailability

/-! One command of the forge client against a node: the request goes out as a datagram,
and the reply comes into a buffer of the client. -/

set_option autoImplicit false

namespace GsnNode
namespace Forge
open ByteWords MemoryRegion ProtocolHandler Handler

/-- `sizeof(recv_buf)` -/
def bufSize : Nat := 512

/-- What neither of the two decides. -/
structure ExchangeMemory where
  /-- the array of the `frame_register` -/
  registerArray : Block 125
  recvBuf : Block bufSize
  /-- behind `recv_buf` -/
  beyond : Beyond
  view : ViewMemory
  left : Leftover
  mRecv : Block recvSize
  /-- behind `m_recv` -/
  behindRecv : Beyond

def forging (type : DvspMsgtype) : Text :=
  if type = .gsnRegisterHost then ascii "Forging `gsn_register_host`... "
  else if type = .gsnUnregisterHost then ascii "Forging `gsn_unregister_host`... "
  else if type = .gsnLocalArea then ascii "Forging `gsn_local_area`... "
  else if type = .gsnHostname then ascii "Forging `gsn_local_area`... "
  else ascii "Forging `gsn_request`... "

section Exchange
variable {V6 : Type} [DecidableEq V6] (env : Surroundings V6) (m : ExchangeMemory)

/-- A datagram is cut off at the end of the buffer that it is received into. -/
def dispatchPacket (orig client : NetspaceIpv4) (packet : DvspPacket) : Handler V6 DvspPacket := do
  let serial ← call (DvspPacket.serialise { packet with header.addrOrig := orig } fun _ => none)
  let reply ← receive env m.left (received (serial.take recvSize) m.mRecv.data m.behindRecv)
    (.v4 client)
  call (DvspPacket.deserialise (received (reply.take bufSize) m.recvBuf.data m.beyond))

/-- What a command prints. The local address of the socket need not be the one that the
node sees. -/
def runForge (type : DvspMsgtype) (target : NetspaceAddr V6) (content : Text)
    (proto : ServiceProtocol) (orig client : NetspaceIpv4) : Handler V6 Text :=
  match GsnNode.runForge env.asio m.registerArray type target content proto with
  | none => pure (ascii "Unimplemented frame" ++ endl)
  | some forge => do
    let forged ← call forge
    let reply ← dispatchPacket env m orig client forged.packet
    let out ← call (viewReply type m.view reply)
    pure (forging type ++ ascii "OK" ++ endl ++ out)

end Exchange

/-! ### The packets that are forged -/

section Forging
variable {V6 : Type} (asio : Ipv6Text V6) (array : Block 125)

def Implemented (type : DvspMsgtype) : Prop :=
  type = .gsnRegisterHost ∨ type = .gsnUnregisterHost ∨ type = .gsnLocalArea ∨
    type = .gsnHostname ∨ type = .gsnRequest

/-- The content of the request. -/
def payload (type : DvspMsgtype) (content : Text) (proto : ServiceProtocol) : Call (List UInt8) :=
  if type = .gsnRegisterHost then do
    let frame ← constructFrameRegister array .org content proto
    pure frame.bytes
  else if type = .gsnHostname then do
    let named ← NetspaceAddr.fromString asio content
    let addr ← named.toV4
    pure addr.data
  else if type = .gsnRequest then pure content
  else pure []

/-- The size in the header is cut to 32 bits, and with it what is sent. -/
def sentText (data : Text) : Text := data.take (UInt32.ofNat data.length).toNat

def forgedHeader (type : DvspMsgtype) (orig dest : NetspaceIpv4) (data : Text) : DvspHeader :=
  ⟨type,0,UInt32.ofNat data.length,orig,dest⟩

/-- The request as it is on the wire. -/
def wirePacket (type : DvspMsgtype) (orig dest : NetspaceIpv4) (data : Text) : DvspPacket :=
  ⟨forgedHeader type orig dest data,
    if sentText data = [] then .null else .live (sentText data)⟩

theorem runForge_unimplemented {type : DvspMsgtype} (h : ¬ Implemented type)
    (target : NetspaceAddr V6) (content : Text) (proto : ServiceProtocol) :
    GsnNode.runForge asio array type target content proto = none := by
  simp only [Implemented, not_or] at h
  obtain ⟨hreg,hunreg,harea,hname,hreq⟩ := h
  simp only [GsnNode.runForge, hreg, hunreg, harea, hname, hreq, if_false]

theorem forgePacket_eq (type : DvspMsgtype) (target : NetspaceAddr V6) :
    forgePacket type target = (do
      let dest ← target.toV4
      pure ⟨{ DvspHeader.init with type := type, addrDest := dest },.null⟩) := rfl

theorem runForge_implemented {type : DvspMsgtype} (h : Implemented type)
    (target : NetspaceAddr V6) (content : Text) (proto : ServiceProtocol) :
    ∃ view, PrintsCode (viewReply type) view ∧
      GsnNode.runForge asio array type target content proto = some (do
        let dest ← target.toV4
        let data ← payload asio array type content proto
        pure ⟨⟨forgedHeader type default dest data,if data = [] then .null else .live data⟩,
          view⟩) := by
  rcases h with rfl | rfl | rfl | rfl | rfl
  · refine ⟨GsnNode.viewFrameResponse,viewFrameResponse_prints,congrArg some ?_⟩
    cases hdest : target.toV4 with
    | error e => simp only [forgeGsnRegisterHost, forgePacket_eq, hdest, error_bind]
    | ok dest =>
      simp only [forgeGsnRegisterHost, forgePacket_eq, hdest, ok_bind, pure_eq_ok, payload, if_true]
      cases constructFrameRegister array .org content proto <;> rfl
  · refine ⟨GsnNode.viewFrameResponse,viewFrameResponse_prints,congrArg some ?_⟩
    cases hdest : target.toV4 with
    | error e => simp only [forgeGsnUnregisterHost, forgePacket_eq, hdest, error_bind]
    | ok dest =>
      simp only [forgeGsnUnregisterHost, forgePacket_eq, hdest, ok_bind]
      rfl
  · refine ⟨GsnNode.viewFrameResponse,viewFrameResponse_prints,congrArg some ?_⟩
    cases hdest : target.toV4 with
    | error e => simp only [forgeGsnLocalArea, forgePacket_eq, hdest, error_bind]
    | ok dest =>
      simp only [forgeGsnLocalArea, forgePacket_eq, hdest, ok_bind]
      rfl
  · refine ⟨GsnNode.viewFrameHostname,viewFrameHostname_prints,congrArg some ?_⟩
    cases hdest : target.toV4 with
    | error e => simp only [forgeGsnHostname, forgePacket_eq, hdest, error_bind]
    | ok dest =>
      have hne : DvspMsgtype.gsnHostname ≠ .gsnRegisterHost := by decide
      simp only [forgeGsnHostname, forgePacket_eq, hdest, ok_bind, pure_eq_ok, payload, if_neg hne,
        if_true]
      cases hnamed : NetspaceAddr.fromString asio content with
      | error e => rfl
      | ok named => cases haddr : named.toV4 <;> simp only [ok_bind, haddr] <;> rfl
  · refine ⟨GsnNode.viewFrameNetwork,viewFrameNetwork_prints,congrArg some ?_⟩
    cases hdest : target.toV4 with
    | error e => simp only [forgeGsnRequest, forgePacket_eq, hdest, error_bind]
    | ok dest =>
      simp only [forgeGsnRequest, forgePacket_eq, hdest, ok_bind]
      rfl

theorem sentText_length (data : Text) :
    (sentText data).length = (UInt32.ofNat data.length).toNat := by
  rw [sentText, List.length_take, UInt32.toNat_ofNat']
  exact min_eq_left (Nat.mod_le _ _)

theorem sentText_of_lt {data : Text} (h : data.length < 2 ^ 32) : sentText data = data := by
  rw [sentText, UInt32.toNat_ofNat_of_lt' h, List.take_length]

theorem wirePacket_bytes (type : DvspMsgtype) (orig dest : NetspaceIpv4) (data : Text) :
    (wirePacket type orig dest data).bytes = sentText data := DvspPacket.bytes_ite _ _

theorem wirePacket_wellFormed (type : DvspMsgtype) (orig dest : NetspaceIpv4) (data : Text) :
    (wirePacket type orig dest data).WellFormed := by
  refine ⟨?_,by rw [wirePacket_bytes, sentText_length]; rfl⟩
  rw [wirePacket]
  split <;> simp

theorem serialise_forged (type : DvspMsgtype) (orig dest : NetspaceIpv4) (data : Text) :
    DvspPacket.serialise ⟨forgedHeader type orig dest data,if data = [] then .null else .live data⟩
      (fun _ => none) = .ok ((forgedHeader type orig dest data).bytes ++ sentText data) := by
  by_cases hdata : data = []
  · subst hdata
    rfl
  · have hread := @load_inside ⟨data,fun _ => none⟩ 0 (UInt32.ofNat data.length).toNat
      (by rw [UInt32.toNat_ofNat', Nat.zero_add]; exact Nat.mod_le _ _)
    rw [List.drop_zero] at hread
    simp only [DvspPacket.serialise, hdata, if_false, Content.read, forgedHeader, hread, ok_bind]
    rw [if_neg (by simp)]
    rfl

end Forging

/-! ### Buffers -/

theorem wholePacket_serial (header : DvspHeader) {content : List UInt8}
    (h : content.length = header.size.toNat) : WholePacket (header.bytes ++ content) := by
  have hheader : (header.bytes ++ content).take DvspHeader.sizeOf = header.bytes :=
    List.take_left' header.bytes_length
  refine ⟨by simp,?_⟩
  rw [hheader, DvspHeader.ofBytes_bytes, List.length_append, header.bytes_length, h]
  omega

/-- What fits the buffer is read as it was sent. -/
theorem deserialise_fits (header : DvspHeader) {content : List UInt8}
    (h : content.length = header.size.toNat) {size : Nat}
    (hfits : DvspHeader.sizeOf + content.length ≤ size) (old : List UInt8) (beyond : Beyond) :
    DvspPacket.deserialise (received ((header.bytes ++ content).take size) old beyond) =
      .ok ⟨header,if content = [] then .null else .live content⟩ := by
  have hwhole := wholePacket_serial header h
  rw [List.take_of_length_le (by simpa using hfits), deserialise_whole hwhole,
    ← deserialise_bytes hwhole fun _ => none, DvspPacket.deserialise_append header h]

/-- Of what does not, the rest of the content is looked for behind the buffer. -/
theorem deserialise_cut (header : DvspHeader) {content : List UInt8}
    (h : content.length = header.size.toNat) {size : Nat} (hsize : DvspHeader.sizeOf ≤ size)
    (hcut : size < DvspHeader.sizeOf + content.length) {old : List UInt8} (hold : old.length = size) :
    DvspPacket.deserialise (received ((header.bytes ++ content).take size) old fun _ => none) =
      undefined := by
  have hlen : ((header.bytes ++ content).take size).length = size := by
    rw [List.length_take, List.length_append, header.bytes_length]
    omega
  have hbuf : received ((header.bytes ++ content).take size) old (fun _ => none) =
      ⟨(header.bytes ++ content).take size,fun _ => none⟩ := by
    rw [received, hlen, List.drop_of_length_le hold.le, List.append_nil]
  have hheader : load ⟨(header.bytes ++ content).take size,fun _ => none⟩ 0 DvspHeader.sizeOf =
      .ok header.bytes := by
    rw [load_inside _ (by simpa [hlen] using hsize), List.drop_zero, List.take_take, min_eq_left hsize,
      List.take_left' header.bytes_length]
  have hpos : 0 < header.size.toNat := by
    rw [← h]
    omega
  have hne : header.size ≠ 0 := fun hzero => absurd hpos (by simp [hzero])
  have hread := @Region.read_unmapped ⟨(header.bytes ++ content).take size,fun _ => none⟩
    DvspHeader.sizeOf header.size.toNat (fun _ => rfl) (by simp only [hlen]; omega) hpos
  have hcontent : load ⟨(header.bytes ++ content).take size,fun _ => none⟩ DvspHeader.sizeOf
      header.size.toNat = undefined := by simp only [load, hread, undefined]
  simp only [DvspPacket.deserialise, hbuf, hheader, ok_bind, DvspHeader.ofBytes_bytes, if_neg hne,
    hcontent, undefined, error_bind]

/-- What the client gets of a reply. -/
def replyPacket (reply : DvspPacket) : DvspPacket :=
  ⟨reply.header,if sentContent reply = [] then .null else .live (sentContent reply)⟩

theorem replyPacket_bytes (reply : DvspPacket) : (replyPacket reply).bytes = sentContent reply :=
  DvspPacket.bytes_ite _ _

theorem read_sent (p : DvspPacket) (beyond : Beyond) {n : Nat} (h : n ≤ p.bytes.length) :
    p.content.read beyond 0 n = .ok (p.bytes.take n) := by
  obtain ⟨header,content⟩ := p
  cases content with
  | live bs => exact load_inside ⟨bs,beyond⟩ (by rw [Nat.zero_add]; exact h)
  | null | released =>
    obtain rfl : n = 0 := by simpa [DvspPacket.bytes] using h
    rfl

theorem sendable_serialise {reply : DvspPacket} (h : reply.Sendable) (beyond : Beyond) :
    reply.serialise beyond = .ok (reply.header.bytes ++ sentContent reply) ∧
      (sentContent reply).length = reply.header.size.toNat := by
  have hinside : reply.header.size.toNat ≤ reply.bytes.length := by
    by_contra hout
    obtain ⟨serial,hserial⟩ := h fun _ => none
    obtain ⟨bs,hbs,-⟩ := DvspPacket.serialise_ok hserial
    have hfault : reply.content.read (fun _ => none) 0 reply.header.size.toNat = undefined :=
      DvspPacket.read_outside reply (by omega) (by omega)
    rw [hfault] at hbs
    contradiction
  have hsent : (sentContent reply).length = reply.header.size.toNat := by
    rw [sentContent, List.length_take]
    omega
  obtain ⟨serial,hserial⟩ := h beyond
  obtain ⟨bs,hbs,-,rfl⟩ := DvspPacket.serialise_ok hserial
  rw [read_sent reply beyond hinside] at hbs
  obtain rfl := Except.ok.inj hbs
  exact ⟨hserial,hsent⟩

theorem replyPacket_wellFormed {reply : DvspPacket} (h : reply.Sendable) :
    (replyPacket reply).WellFormed := by
  refine ⟨?_,by rw [replyPacket_bytes, (sendable_serialise h fun _ => none).2]; rfl⟩
  rw [replyPacket]
  split <;> simp

/-! ### One command -/

section Exchange
variable {V6 : Type} [DecidableEq V6] (env : Surroundings V6)

/-- The node reads the request as it was forged, if it gets all of it. -/
theorem receive_wire (left : Leftover) (type : DvspMsgtype) (orig dest client : NetspaceIpv4)
    {data : Text} (hfits : DvspHeader.sizeOf + (sentText data).length ≤ recvSize)
    (mRecv : List UInt8) (beyond : Beyond) :
    receive env left (received (((forgedHeader type orig dest data).bytes ++
        sentText data).take recvSize) mRecv beyond) (.v4 client) =
      answer env left (wirePacket type orig dest data) (.v4 client) := by
  rw [receive_eq, deserialise_fits _ (sentText_length data) hfits]
  rfl

variable (m : ExchangeMemory) {type : DvspMsgtype} (htype : Implemented type)
  {dest : NetspaceIpv4} {content : Text} {proto : ServiceProtocol} (orig client : NetspaceIpv4)
  {data : Text} {table table' : NetspaceTable V6}

/-- What the client does with the answer to its request. -/
def printReply (type : DvspMsgtype) (reply : DvspPacket) : Call Text := do
  let reply ← DvspPacket.deserialise (received
    ((reply.header.bytes ++ sentContent reply).take bufSize) m.recvBuf.data m.beyond)
  let out ← viewReply type m.view reply
  pure (forging type ++ ascii "OK" ++ endl ++ out)

include htype in
theorem runForge_dispatch (hdata : payload env.asio m.registerArray type content proto = .ok data)
    (table : NetspaceTable V6) :
    runForge env m type (.v4 dest) content proto orig client table = (do
      let reply ← dispatchPacket env m orig client
        ⟨forgedHeader type default dest data,if data = [] then .null else .live data⟩
      let out ← call (viewReply type m.view reply)
      pure (forging type ++ ascii "OK" ++ endl ++ out) : Handler V6 Text) table := by
  obtain ⟨view,-,hview⟩ := runForge_implemented env.asio m.registerArray htype (.v4 dest) content proto
  simp only [runForge, hview, NetspaceAddr.toV4, hdata, pure_eq_ok, ok_bind]
  rfl

theorem dispatchPacket_forged (data : Text) :
    dispatchPacket env m orig client
        ⟨forgedHeader type default dest data,if data = [] then .null else .live data⟩ = (do
      let reply ← receive env m.left (received (((forgedHeader type orig dest data).bytes ++
        sentText data).take recvSize) m.mRecv.data m.behindRecv) (.v4 client)
      call (DvspPacket.deserialise (received (reply.take bufSize) m.recvBuf.data m.beyond))) := by
  have hserial : DvspPacket.serialise { (⟨forgedHeader type default dest data,
      if data = [] then .null else .live data⟩ : DvspPacket) with header.addrOrig := orig }
        (fun _ => none) = .ok ((forgedHeader type orig dest data).bytes ++ sentText data) :=
    serialise_forged type orig dest data
  funext table
  rw [dispatchPacket, hserial]
  rfl

include htype in
theorem runForge_answered (hdata : payload env.asio m.registerArray type content proto = .ok data)
    (hfits : DvspHeader.sizeOf + (sentText data).length ≤ recvSize) {reply : DvspPacket}
    (hreply : processPacket env m.left (wirePacket type orig dest data) (.v4 client) table =
      (.ok reply,table')) :
    runForge env m type (.v4 dest) content proto orig client table =
      (printReply m type reply,table') := by
  have hsendable := processPacket_sendable env m.left (congrArg Prod.fst hreply)
  have hanswer : answer env m.left (wirePacket type orig dest data) (.v4 client) table =
      (.ok (reply.header.bytes ++ sentContent reply),table') := by
    simp only [answer, bind_apply, hreply, call_apply,
      (sendable_serialise hsendable m.left.afterContent).1]
  rw [runForge_dispatch env m htype orig client hdata, dispatchPacket_forged,
    receive_wire env m.left type orig dest client hfits]
  simp only [bind_apply, hanswer, call_apply, printReply]
  cases DvspPacket.deserialise (received ((reply.header.bytes ++ sentContent reply).take bufSize)
    m.recvBuf.data m.beyond) with
  | error e => rfl
  | ok p =>
    simp only [ok_bind]
    cases viewReply type m.view p <;> rfl

include htype in
theorem runForge_unanswered (hdata : payload env.asio m.registerArray type content proto = .ok data)
    (hfits : DvspHeader.sizeOf + (sentText data).length ≤ recvSize) {e : Stop}
    (hreply : processPacket env m.left (wirePacket type orig dest data) (.v4 client) table =
      (.error e,table')) :
    runForge env m type (.v4 dest) content proto orig client table = (.error e,table') := by
  rw [runForge_dispatch env m htype orig client hdata, dispatchPacket_forged,
    receive_wire env m.left type orig dest client hfits]
  simp only [bind_apply, answer, hreply]

include htype in
/-- A request that is too long for the buffer of the node is read from behind it. -/
theorem runForge_cut (hdata : payload env.asio m.registerArray type content proto = .ok data)
    (hcut : recvSize < DvspHeader.sizeOf + (sentText data).length)
    (hbehind : m.behindRecv = fun _ => none) :
    (runForge env m type (.v4 dest) content proto orig client table).1 = undefined := by
  have hdeserialise := deserialise_cut (forgedHeader type orig dest data) (sentText_length data)
    (by decide) hcut m.mRecv.size_eq
  rw [runForge_dispatch env m htype orig client hdata, dispatchPacket_forged, hbehind]
  simp only [bind_apply, receive_eq, hdeserialise, call_apply, undefined]

include htype in
theorem runForge_unsent {e : Stop}
    (hdata : payload env.asio m.registerArray type content proto = .error e)
    (table : NetspaceTable V6) :
    (runForge env m type (.v4 dest) content proto orig client table).1 = .error e := by
  obtain ⟨view,-,hview⟩ := runForge_implemented env.asio m.registerArray htype (.v4 dest) content proto
  simp only [runForge, hview, NetspaceAddr.toV4, hdata, pure_eq_ok, ok_bind, error_bind, bind_apply,
    call_apply]

omit [DecidableEq V6] in
theorem printReply_fits {reply : DvspPacket} (hreply : reply.Sendable)
    (hfits : (sentContent reply).length ≤ bufSize - DvspHeader.sizeOf) :
    printReply m type reply = (do
      let out ← viewReply type m.view (replyPacket reply)
      pure (forging type ++ ascii "OK" ++ endl ++ out)) := by
  have hlen : DvspHeader.sizeOf + (sentContent reply).length ≤ bufSize := by
    simp only [bufSize, DvspHeader.sizeOf] at hfits ⊢
    omega
  rw [printReply, deserialise_fits _ (sendable_serialise hreply fun _ => none).2 hlen]
  rfl

/-- Nothing is mapped where nothing was written. -/
def bareMemory (array : Block 125) (left : Leftover) : ExchangeMemory :=
  ⟨array,Block.zero bufSize,fun _ => none,noMemory,left,Block.zero recvSize,fun _ => none⟩

/-- What is printed of a reply does not depend on the memory exactly if it fits the buffer of
the client and the view finds in it what it reads. -/
theorem printReply_iff (type : DvspMsgtype) {reply : DvspPacket} (hreply : reply.Sendable) :
    (∀ m, ∃ out, printReply m type reply = .ok out) ↔
      (sentContent reply).length ≤ bufSize - DvspHeader.sizeOf ∧
        ViewWithin type (sentContent reply) := by
  have hshows := viewReply_shows_iff (replyPacket_wellFormed hreply) type
  rw [replyPacket_bytes] at hshows
  constructor
  · intro h
    obtain ⟨out,hout⟩ := h (bareMemory default unmapped)
    have hfits : (sentContent reply).length ≤ bufSize - DvspHeader.sizeOf := by
      by_contra hlong
      have hcut := deserialise_cut reply.header (sendable_serialise hreply fun _ => none).2
        (by decide) (by simp only [bufSize, DvspHeader.sizeOf] at hlong ⊢; omega)
        (Block.zero bufSize).size_eq
      simp only [printReply, bareMemory, hcut, undefined, error_bind] at hout
      contradiction
    rw [printReply_fits _ hreply hfits] at hout
    obtain ⟨text,htext,-⟩ := bind_eq_ok.mp hout
    have hwithin := viewReply_within (replyPacket_wellFormed hreply) type htext
    rw [replyPacket_bytes] at hwithin
    exact ⟨hfits,hwithin⟩
  · intro h m
    obtain ⟨out,hout⟩ := hshows.mpr h.2
    exact ⟨_,by rw [printReply_fits m hreply h.1, hout m.view, ok_bind]; rfl⟩

/-- The node answers, and the client can print the answer. -/
def AnsweredWithin (type : DvspMsgtype) (request : DvspPacket) (client : NetspaceIpv4)
    (table : NetspaceTable V6) : Prop :=
  ∀ left, ∃ reply, (processPacket env left request (.v4 client) table).1 = .ok reply ∧
    (sentContent reply).length ≤ bufSize - DvspHeader.sizeOf ∧ ViewWithin type (sentContent reply)

include htype in
theorem runForge_returns_iff (dest : NetspaceIpv4) (content : Text) (proto : ServiceProtocol)
    (table : NetspaceTable V6) :
    (∀ m, ∃ out, (runForge env m type (.v4 dest) content proto orig client table).1 = .ok out) ↔
      ∀ array, ∃ data, payload env.asio array type content proto = .ok data ∧
        DvspHeader.sizeOf + (sentText data).length ≤ recvSize ∧
          AnsweredWithin env type (wirePacket type orig dest data) client table := by
  constructor
  · intro h array
    cases hdata : payload env.asio array type content proto with
    | error e =>
      obtain ⟨out,hout⟩ := h (bareMemory array unmapped)
      rw [runForge_unsent env (bareMemory array unmapped) htype orig client hdata] at hout
      contradiction
    | ok data =>
      have hfits : DvspHeader.sizeOf + (sentText data).length ≤ recvSize := by
        by_contra hcut
        obtain ⟨out,hout⟩ := h (bareMemory array unmapped)
        rw [runForge_cut env (bareMemory array unmapped) htype orig client hdata (not_le.mp hcut) rfl] at hout
        contradiction
      refine ⟨data,rfl,hfits,fun left => ?_⟩
      cases hanswer : processPacket env left (wirePacket type orig dest data) (.v4 client) table with
      | mk r table' =>
        cases r with
        | error e =>
          obtain ⟨out,hout⟩ := h (bareMemory array left)
          rw [runForge_unanswered env (bareMemory array left) htype orig client hdata hfits hanswer] at hout
          contradiction
        | ok reply =>
          have hsendable := processPacket_sendable env left (congrArg Prod.fst hanswer)
          refine ⟨reply,rfl,(printReply_iff type hsendable).mp fun m => ?_⟩
          obtain ⟨out,hout⟩ := h { m with registerArray := array, left := left }
          rw [runForge_answered env { m with registerArray := array, left := left } htype orig client
            hdata hfits hanswer] at hout
          exact ⟨out,hout⟩
  · intro h m
    obtain ⟨data,hdata,hfits,hanswered⟩ := h m.registerArray
    obtain ⟨reply,hreply,hshown⟩ := hanswered m.left
    have hsendable := processPacket_sendable env m.left hreply
    obtain ⟨out,hout⟩ := (printReply_iff type hsendable).mpr hshown m
    have hanswer : processPacket env m.left (wirePacket type orig dest data) (.v4 client) table =
        (.ok reply,(processPacket env m.left (wirePacket type orig dest data) (.v4 client) table).2) :=
      Prod.ext hreply rfl
    exact ⟨out,by rw [runForge_answered env m htype orig client hdata hfits hanswer, hout]⟩

end Exchange

end Forge
end GsnNode
