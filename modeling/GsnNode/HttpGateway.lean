import GsnNode.AggregatedAnswer
import GsnNode.HttpSession
import GsnNode.ServiceReplies

/-! `http_service::send_frame`: a host answers in hex digits too, and what it says
reaches the one who asked. -/

set_option autoImplicit false

namespace GsnNode
open ByteWords MemoryRegion ProtocolHandler

namespace HttpService

/-- `sizeof(reply)` -/
def replySize : Nat := 4096

/-- What comes back from a host, and the memory that `reply` is in. -/
structure Exchange where
  chunk : Text
  reply : List UInt8
  beyond : Beyond
  memory : HexMemory

def readReply (e : Exchange) : Call DvspPacket := do
  let reply := received e.chunk e.reply e.beyond
  -- the string `r`, which is not used
  let len ← strlen reply 0
  let _ ← assign len (load reply 0 len)
  let raw ← httpToBin e.memory.behindPair reply
  DvspPacket.deserialise ⟨raw,e.memory.afterBytes⟩

/-- None where the connection fails. Whatever is thrown is thrown again as a plain
`std::exception`. -/
def sendFrame : Option Exchange → Call DvspPacket
  | none => throws .sendFailed
  | some e =>
    match readReply e with
    | .error (.throws _) => throws .sendFailed
    | r => r

/-- The characters that came are the digits of `b` behind a blank line. -/
structure HexMessage (e : Exchange) (head body rest : Text) (b : List UInt8) : Prop where
  chunk_eq : e.chunk = hexChunk head body rest
  length_le : e.chunk.length ≤ replySize
  head_free : nul ∉ head
  head_blank : ¬ blankLine <:+: head
  head_end : ¬ HttpFrame.crlf <:+ head
  digits : HexText body b
  kept : ∀ i (h : i < b.length), KeepsByte (e.memory.behindPair i) b[i]

theorem readReply_hex {e : Exchange} {head body rest : Text} {b : List UInt8}
    (h : HexMessage e head body rest b) :
    readReply e = DvspPacket.deserialise ⟨b,e.memory.afterBytes⟩ := by
  have hlen := h.length_le
  rw [h.chunk_eq] at hlen
  have htext := hexChunk_holdsText h.head_free h.digits rest e.reply e.beyond
  rw [← h.chunk_eq] at htext
  have hshort : (head ++ blankLine ++ body).length ≤ replySize := by
    rw [hexChunk, List.length_append] at hlen
    omega
  have hstrlen := strlen_text htext (hshort.trans_lt (by decide))
  have hload : load (received e.chunk e.reply e.beyond) 0 (head ++ blankLine ++ body).length =
      .ok (head ++ blankLine ++ body) := load_eq_ok.mpr htext.read
  have hbytes := httpToBin_hexChunk h.head_free h.head_blank h.head_end h.digits
    (hlen.trans (by decide)) h.kept e.reply e.beyond
  rw [← h.chunk_eq] at hbytes
  have hmax : ¬ maxStringSize < (head ++ blankLine ++ body).length :=
    Nat.not_lt.mpr (hshort.trans (by decide))
  simp only [readReply, hstrlen, ok_bind, hload, assign, if_neg hmax, hbytes]

/-- The message is a response that is ok, with this text. -/
def Speaks (e : Exchange) (text : Text) : Prop :=
  ∃ (head body rest : Text) (header : DvspHeader) (len : UInt8), header.type = .gsnResponse ∧
    header.size.toNat = FrameService.sizeOf + text.length ∧
    HexMessage e head body rest (header.bytes ++ (FrameService.bytes ⟨.ok,len⟩ ++ text))

theorem sendFrame_speaks {e : Exchange} {text : Text} (h : Speaks e text) :
    ∃ (p : DvspPacket) (len : UInt8), sendFrame (some e) = .ok p ∧ p.header.type = .gsnResponse ∧
      p.bytes = FrameService.bytes ⟨.ok,len⟩ ++ text := by
  obtain ⟨head,body,rest,header,len,htype,hsize,hmessage⟩ := h
  have hlen : (FrameService.bytes ⟨.ok,len⟩ ++ text).length = header.size.toNat := by
    rw [List.length_append, FrameService.bytes_length, hsize]
  refine ⟨_,len,?_,htype,DvspPacket.bytes_ite header _⟩
  rw [sendFrame, readReply_hex hmessage, DvspPacket.deserialise_append header hlen]

end HttpService

section Gateway
open HttpService
variable {V6 : Type}

/-- The hosts are contacted with `send_frame`. -/
def Reaches (env : Surroundings V6) (hosts : Nat → HttpFrame → NetspaceIpv4 → Option Exchange) :
    Prop :=
  ∀ it frame a, ProtocolHandler.sendFrame env it frame a = HttpService.sendFrame (hosts it frame a)

/-- A host that is sent this query says its text. -/
def HostsSay (hosts : Nat → HttpFrame → NetspaceIpv4 → Option Exchange) (query : Text)
    (table : NetspaceTable V6) (texts : Nat → Text) : Prop :=
  ∀ it node a frame, table[it]? = some node → node.addr = .v4 a → frame.dvspFrame.WellFormed →
    frame.dvspFrame.bytes = query → ∃ e, hosts it frame a = some e ∧ Speaks e (texts it)

/-- What the first segment of a request asks for: the texts of all HTTP hosts, or that of
one host. -/
def relayedText (front : Text) (table : NetspaceTable V6) (texts : Nat → Text) : Text :=
  if front = ascii "esusx" then
    [colon,colon].intercalate
      (table.zipIdx.filterMap fun p => if p.1.proto = .http then some (texts p.2) else none)
  else
    match table.node? (table.findSuid front) with
    | some _ => texts (table.findSuid front)
    | none => []

variable {env : Surroundings V6} {hosts : Nat → HttpFrame → NetspaceIpv4 → Option Exchange}

theorem hostAnswer_speaks (hreaches : Reaches env hosts) {it : Nat} {frame : HttpFrame}
    {a : NetspaceIpv4} {text : Text} (h : ∃ e, hosts it frame a = some e ∧ Speaks e text) :
    HostReplies env it frame a ∧ hostAnswer env it frame a = some text := by
  obtain ⟨e,he,hspeaks⟩ := h
  obtain ⟨p,len,hp,htype,hbytes⟩ := sendFrame_speaks hspeaks
  have hsent := hreaches it frame a
  rw [he, hp, ProtocolHandler.sendFrame] at hsent
  cases hrecv : env.sendFrame it frame a with
  | none => simp [hrecv, throws] at hsent
  | some recv =>
    obtain rfl : recv.val = p := by simpa [hrecv] using hsent
    have hcode : (FrameService.ofBytes recv.val.bytes).response = .ok := by
      rw [hbytes, FrameService.ofBytes_append]
    refine ⟨⟨recv,hrecv,fun _ => ?_⟩,?_⟩
    · rw [hbytes, List.length_append, FrameService.bytes_length]
      omega
    · simp only [hostAnswer, hrecv]
      rw [if_pos ⟨htype,hcode⟩, hbytes, List.drop_left' (FrameService.bytes_length _)]

section Relayed
variable (hreaches : Reaches env hosts) {packet : DvspPacket} {query : Text}
  {table : NetspaceTable V6} {texts : Nat → Text} (hsay : HostsSay hosts query table texts)
  (hlen : query.length < 2 ^ 32)
include hreaches hsay hlen

theorem frameAll_speaks {it : Nat} {node : NetspaceNode V6} {a : NetspaceIpv4}
    (hnode : table[it]? = some node) (ha : node.addr = .v4 a) :
    HostReplies env it (frameAll packet query node a) a ∧
      hostAnswer env it (frameAll packet query node a) a = some (texts it) :=
  hostAnswer_speaks hreaches
    (hsay it node a _ hnode ha (queryPacket_wellFormed packet hlen a) rfl)

theorem frameOne_speaks {it : Nat} {node : NetspaceNode V6} {a : NetspaceIpv4}
    (hnode : table[it]? = some node) (ha : node.addr = .v4 a) :
    HostReplies env it (frameOne packet query node) a ∧
      hostAnswer env it (frameOne packet query node) a = some (texts it) :=
  hostAnswer_speaks hreaches
    (hsay it node a _ hnode ha (queryPacket_wellFormed packet hlen _) rfl)

theorem joinedAnswers_speaks (htable : Ipv4Table table) (front : Text) :
    joinedAnswers env packet front query table = relayedText front table texts := by
  unfold joinedAnswers relayedText
  by_cases hall : front = ascii "esusx"
  · rw [if_pos hall, if_pos hall, answersFrom]
    congr 1
    refine List.filterMap_congr fun p hp => ?_
    have hnode : table[p.2]? = some p.1 := List.mem_zipIdx_iff_getElem?.mp hp
    obtain ⟨a,ha⟩ := htable p.1 (List.mem_of_getElem? hnode)
    simp only [nodeAnswer, ha, (frameAll_speaks hreaches hsay hlen hnode ha).2]
  · rw [if_neg hall, if_neg hall]
    cases hnode : table.node? (table.findSuid front) with
    | none => rfl
    | some node =>
      obtain ⟨a,ha⟩ := htable node (List.mem_of_getElem? hnode)
      simp only [ha, (frameOne_speaks hreaches hsay hlen hnode ha).2, Option.getD_some]

end Relayed

/-- A request comes back with exactly what the hosts said to it, through two packets, two
HTTP messages and the frame of the service. -/
theorem gateway_reply [DecidableEq V6] (hreaches : Reaches env hosts) {packet : DvspPacket}
    (hp : packet.WellFormed) (htype : packet.header.type = .gsnRequest) {u : NetspaceUrl}
    (hu : NetspaceUrl.decode packet.bytes = .ok u) (hquery : u.spq ≠ []) {front : Text}
    (hfront : u.gsn.head? = some front) {table : NetspaceTable V6} (htable : Ipv4Table table)
    {texts : Nat → Text} (hsay : HostsSay hosts u.spq table texts) (left : Leftover)
    (addr : NetspaceAddr V6) :
    ∃ reply, processPacket env left packet addr table = (.ok reply,table) ∧
      reply.header.type = .gsnResponse ∧ reply.bytes = relayedText front table texts := by
  have hlen := spq_length_lt hp hu
  have hhosts : HostsReply env packet u table := by
    unfold HostsReply
    by_cases hall : u.gsn.head? = some (ascii "esusx")
    · rw [if_pos hall]
      exact .inr ⟨hquery,fun it node a hnode _ ha =>
        (frameAll_speaks hreaches hsay hlen hnode ha).1⟩
    · rw [if_neg hall]
      exact fun _ node a _ hnode ha => ⟨hquery,(frameOne_speaks hreaches hsay hlen hnode ha).1⟩
  have hreply := query_reply env left hp hu hfront htable hhosts
  rw [joinedAnswers_speaks hreaches hsay hlen htable front] at hreply
  obtain ⟨out,hout,-⟩ := strContent_new { DvspHeader.init with type := .gsnResponse }
    (relayedText front table texts) fun _ => none
  refine ⟨out,?_,?_,?_⟩
  · rw [processPacket_request env left htype, hreply]
    exact congrArg (·,table) hout
  · exact reset_type hout
  · exact (Except.ok.inj hout) ▸ DvspPacket.bytes_ite _ _

end Gateway

def serviceMessage (text : Text) : HttpService.Exchange :=
  ⟨hexChunk (ascii "HTTP/1.1 200 OK")
    (((serviceReply text).header.bytes ++ (FrameService.bytes ⟨.ok,UInt8.ofNat text.length⟩ ++
      text)).flatMap hexField) [],[],fun _ => none,zeroMemory⟩

/-- A node whose only host says the same to everyone. -/
def oneHost : Surroundings Empty :=
  { isolated with sendFrame := fun _ _ _ => some ⟨serviceReply (ascii "hi"),by decide +kernel⟩ }

theorem gateway_reply_one_host :
    ∃ reply, processPacket oneHost unmapped (packetOf .gsnRequest (ascii "spring://a?news")) localhost
        [httpNode] = (.ok reply,[httpNode]) ∧
      reply.header.type = .gsnResponse ∧ reply.bytes = ascii "hi" := by
  have hmessage : HttpService.HexMessage (serviceMessage (ascii "hi")) (ascii "HTTP/1.1 200 OK")
      (((serviceReply (ascii "hi")).header.bytes ++ (FrameService.bytes ⟨.ok,2⟩ ++
        ascii "hi")).flatMap hexField) [] ((serviceReply (ascii "hi")).header.bytes ++
          (FrameService.bytes ⟨.ok,2⟩ ++ ascii "hi")) :=
    ⟨rfl,by decide +kernel,by decide +kernel,by decide +kernel,by decide +kernel,hexField_hexText _,
      fun _ _ => keepsByte_nul_behind _⟩
  have hspeaks : HttpService.Speaks (serviceMessage (ascii "hi")) (ascii "hi") :=
    ⟨_,_,_,_,_,rfl,by decide +kernel,hmessage⟩
  have hreaches : Reaches oneHost fun _ _ _ => some (serviceMessage (ascii "hi")) := by
    intro it frame a
    rw [HttpService.sendFrame, HttpService.readReply_hex hmessage,
      DvspPacket.deserialise_append _ (by decide +kernel)]
    rfl
  have htable : Ipv4Table [httpNode] := by
    intro n hn
    rw [List.mem_singleton.mp hn]
    exact ⟨_,rfl⟩
  have hu : NetspaceUrl.decode (packetOf .gsnRequest (ascii "spring://a?news")).bytes =
      .ok ⟨ascii "spring://a?news",[ascii "a"],[],[],ascii "news"⟩ := by decide +kernel
  have hsay : HostsSay (fun _ _ _ => some (serviceMessage (ascii "hi"))) (ascii "news") [httpNode]
      fun _ => ascii "hi" := fun _ _ _ _ _ _ _ _ => ⟨_,rfl,hspeaks⟩
  exact gateway_reply hreaches (by decide +kernel) rfl hu (by decide) rfl htable hsay unmapped localhost

end GsnNode
