import GsnNode.HttpFraming
import GsnNode.HttpGateway
import GsnNode.NodeAvailability

/-! A root node at both ends of an HTTP connection. `send_frame` writes a packet as it is,
and reads hex digits; `http_session` reads hex digits, and writes a packet as it is. -/

set_option autoImplicit false

namespace GsnNode
open ByteWords MemoryRegion ProtocolHandler

/-! ### The second byte of a packet -/

section Part

/-- The second byte of a packet of part 0 is a NUL. -/
theorem DvspHeader.bytes_part {header : DvspHeader} (h : header.part = 0) :
    ∃ rest, header.bytes = header.type.raw :: nul :: rest :=
  ⟨_,by rw [DvspHeader.bytes, h]; rfl⟩

theorem reset_part {p q : DvspPacket} {data : List UInt8} (h : p.reset data = .ok q) :
    q.header.part = p.header.part := by
  obtain ⟨header,content⟩ := p
  cases content with
  | null => exact (Except.ok.inj h) ▸ rfl
  | live bs => exact (Except.ok.inj h) ▸ rfl
  | released => contradiction

variable {V6 : Type} (env : Surroundings V6) (left : Leftover) {packet reply : DvspPacket}
  {table : NetspaceTable V6}

theorem response_part {code : DvspRcode} (h : response code = .ok reply) :
    reply.header.part = 0 := by
  unfold response at h
  exact (reset_part h :)

theorem addressReply_part {node : NetspaceNode V6} (h : addressReply packet node = .ok reply) :
    reply.header.part = packet.header.part := by
  obtain ⟨frame,-,hreply⟩ := bind_eq_ok.mp h
  exact (reset_part hreply :)

theorem forwardRequest_part {url : NetspaceUrl} {node : NetspaceNode V6}
    (h : forwardRequest packet url node = .ok reply) : reply.header.part = packet.header.part := by
  obtain ⟨text,-,h⟩ := bind_eq_ok.mp h
  obtain ⟨p,hp,h⟩ := bind_eq_ok.mp h
  obtain ⟨a,-,h⟩ := bind_eq_ok.mp h
  obtain rfl : _ = reply := Except.ok.inj h
  exact (reset_part hp :)

theorem listingReply_part {nodes : List (NetspaceNode V6)}
    (h : listingReply env packet nodes = .ok reply) : reply.header.part = packet.header.part := by
  unfold listingReply at h
  exact (reset_part h :)

theorem resolveGsn_part (hpart : packet.header.part = 0)
    (h : resolveGsn env left packet table = .ok reply) : reply.header.part = 0 := by
  obtain ⟨text,-,h⟩ := bind_eq_ok.mp h
  obtain ⟨url,-,h⟩ := bind_eq_ok.mp h
  simp only at h
  split at h
  · obtain ⟨host,-,h⟩ := bind_eq_ok.mp h
    split at h
    · exact response_part h
    · exact (addressReply_part h).trans hpart
  · split at h
    · contradiction
    · split at h
      · exact response_part h
      · split at h
        · exact (addressReply_part h).trans hpart
        · exact (forwardRequest_part h).trans hpart

theorem query_part (h : query env left packet table = .ok reply) : reply.header.part = 0 := by
  obtain ⟨copy,-,h⟩ := bind_eq_ok.mp h
  obtain ⟨text,-,h⟩ := bind_eq_ok.mp (unwinding_ok h)
  obtain ⟨url,-,h⟩ := bind_eq_ok.mp h
  cases hfront : url.gsn.head? with
  | none =>
    simp only [hfront] at h
    contradiction
  | some front =>
    simp only [hfront] at h
    obtain ⟨ss,-,h⟩ := bind_eq_ok.mp h
    obtain ⟨out,hout,h⟩ := bind_eq_ok.mp h
    obtain ⟨serial,-,h⟩ := bind_eq_ok.mp h
    obtain ⟨u,-,h⟩ := bind_eq_ok.mp h
    obtain rfl : out = reply := Except.ok.inj h
    exact (reset_part hout :)

theorem registerHost_part {addr : NetspaceAddr V6}
    (h : (registerHost env left packet addr table).1 = .ok reply) : reply.header.part = 0 := by
  rcases registerHost_cases env left packet addr table with
    ⟨st,hostname,suid,-,-,-,heq⟩ | ⟨st,hostname,suid,-,-,heq⟩ | ⟨bs,-,-,heq⟩ | ⟨e,-,heq⟩
  · rw [heq] at h
    exact Except.ok.inj h ▸ rfl
  · rw [heq] at h
    exact Except.ok.inj h ▸ rfl
  · rw [heq] at h
    exact Except.ok.inj h ▸ rfl
  · rw [heq] at h
    contradiction

theorem hostname_part [DecidableEq V6] (h : hostname left packet table = .ok reply) :
    reply.header.part = 0 := by
  obtain ⟨bs,-,h⟩ := bind_eq_ok.mp h
  simp only at h
  split at h
  · exact response_part h
  · obtain ⟨fh,-,h⟩ := bind_eq_ok.mp h
    exact (reset_part h :)

theorem unregisterHost_part [DecidableEq V6] {addr : NetspaceAddr V6}
    (h : (unregisterHost env addr table).1 = .ok reply) : reply.header.part = 0 := by
  rcases unregisterHost_cases env addr table with ⟨before,n,after,-,-,-,heq⟩ | ⟨-,heq⟩
  · rw [heq] at h
    exact Except.ok.inj h ▸ rfl
  · rw [heq] at h
    exact Except.ok.inj h ▸ rfl

/-- The replies that take the part over take it from the request. -/
theorem processPacket_part [DecidableEq V6] (hpart : packet.header.part = 0)
    {addr : NetspaceAddr V6} (h : (processPacket env left packet addr table).1 = .ok reply) :
    reply.header.part = 0 := by
  unfold processPacket at h
  split_ifs at h
  · exact registerHost_part env left h
  · exact unregisterHost_part env h
  · exact resolveGsn_part env left hpart h
  · exact (listingReply_part env h).trans hpart
  · exact (listingReply_part env h).trans hpart
  · exact hostname_part left h
  · exact query_part env left h
  · exact response_part h

variable [DecidableEq V6]

/-- What goes out begins with the type and a NUL. -/
theorem answer_part (hpart : packet.header.part = 0) {addr : NetspaceAddr V6}
    {table' : NetspaceTable V6} {serial : List UInt8}
    (h : answer env left packet addr table = (.ok serial,table')) :
    ∃ type rest, serial = type :: nul :: rest := by
  obtain ⟨reply,_,hreply,hserial⟩ := Handler.bind_ok_iff.mp h
  obtain ⟨bs,-,-,rfl⟩ := DvspPacket.serialise_ok (congrArg Prod.fst hserial)
  obtain ⟨rest,hrest⟩ :=
    DvspHeader.bytes_part (processPacket_part env left hpart (congrArg Prod.fst hreply))
  exact ⟨_,rest ++ bs,by rw [hrest]; rfl⟩

end Part

/-! ### The request -/

section Request
variable {p : DvspPacket} {beyond : Beyond} {serial bytes : List UInt8} {hostname : Text}
  {frame : HttpFrame}

/-- In the eyes of the session the message ends with the type of the packet. -/
theorem frame_text (hserial : p.serialise beyond = .ok serial) (hpart : p.header.part = 0)
    (hframe : HttpFrame.ofPacket beyond p hostname = .ok frame)
    (hbytes : frame.serialise beyond = .ok bytes) {chunk : Text} (hchunk : chunk <+: bytes)
    (hlen : frame.header.length + 2 ≤ chunk.length) :
    ∃ rest, chunk = HttpFrame.generateHeader p hostname ++ [p.header.type.raw] ++ nul :: rest := by
  obtain ⟨frame',hframe',hheader,hbytes',-,-⟩ := HttpFrame.ofPacket_serialise hserial hostname
  obtain rfl := Except.ok.inj (hframe'.symm.trans hframe)
  obtain rfl := Except.ok.inj (hbytes'.symm.trans hbytes)
  obtain ⟨bs,-,-,rfl⟩ := DvspPacket.serialise_ok hserial
  obtain ⟨rest,hrest⟩ := DvspHeader.bytes_part hpart
  have hprefix : HttpFrame.generateHeader p hostname ++ [p.header.type.raw] ++ [nul] <+: chunk := by
    refine List.prefix_of_prefix_length_le ⟨rest ++ bs,?_⟩ hchunk ?_
    · simp [hheader, hrest]
    · simp only [List.length_append, List.length_singleton, ← hheader]
      omega
  obtain ⟨rest',hrest'⟩ := hprefix
  exact ⟨rest',by rw [← hrest']; simp⟩

theorem generateHeader_free (p : DvspPacket) {hostname : Text} (h : nul ∉ hostname) :
    nul ∉ HttpFrame.generateHeader p hostname := by
  have hdecimal : nul ∉ DecimalText.decimal p.size :=
    DelimitedText.not_mem_of_forall (DecimalText.decimal_isDigit p.size) (by decide)
  have hlines : ∀ l ∈ headLines hostname p.size, nul ∉ l := by
    simp only [headLines, List.forall_mem_cons, List.mem_append, not_or]
    exact ⟨by decide,⟨by decide,h⟩,by decide,by decide,⟨by decide,hdecimal⟩,by simp⟩
  rw [generateHeader_blank]
  intro hmem
  rw [List.append_assoc] at hmem
  rcases List.mem_append.mp hmem with hmem | hmem
  · rcases DelimitedText.mem_intercalate hmem with ⟨l,hl,hin⟩ | hin
    · exact hlines l hl hin
    · exact absurd hin (by decide)
  · exact absurd hmem (by decide)

theorem frame_body {front : Text} (hline : OneLine hostname) :
    BodyAt (HttpFrame.generateHeader p hostname ++ front)
      (HttpFrame.crlf.intercalate (headLines hostname p.size)) front := by
  refine ⟨?_,fun pre post heq => ?_⟩
  · rw [generateHeader_blank, blankLine, List.append_assoc _ HttpFrame.crlf HttpFrame.crlf]
  · have hpre := @generateHeader_first_blank p hostname hline front pre post
      (by rw [heq, blankLine]; simp only [List.append_assoc])
    rw [generateHeader_blank] at hpre
    simp only [List.length_append] at hpre
    omega

/-- The type alone is no pair of digits. -/
theorem frame_unread (hserial : p.serialise beyond = .ok serial) (hpart : p.header.part = 0)
    (htype : p.header.type.raw ≠ nul) (hline : OneLine hostname) (hhost : nul ∉ hostname)
    (hframe : HttpFrame.ofPacket beyond p hostname = .ok frame)
    (hbytes : frame.serialise beyond = .ok bytes) {chunk : Text} (hchunk : chunk <+: bytes)
    (hlen : frame.header.length + 2 ≤ chunk.length) (hshort : chunk.length ≤ sessionSize)
    (memory : HexMemory) (mData : List UInt8) (beyond' : Beyond) (packet : DvspPacket) :
    requestPacket memory (received chunk mData beyond') ≠ .ok packet := by
  intro h
  obtain ⟨rest,rfl⟩ := frame_text hserial hpart hframe hbytes hchunk hlen
  have hnul : nul ∉ HttpFrame.generateHeader p hostname ++ [p.header.type.raw] := by
    rw [List.mem_append, List.mem_singleton]
    exact fun hmem => hmem.elim (generateHeader_free p hhost) fun heq => htype heq.symm
  have htext : (received (HttpFrame.generateHeader p hostname ++ [p.header.type.raw] ++ nul :: rest)
      mData beyond').HoldsText (HttpFrame.generateHeader p hostname ++ [p.header.type.raw]) := by
    rw [received, List.append_assoc _ (nul :: rest), List.cons_append]
    exact Region.holdsText_inside hnul _ _
  have hmax : (HttpFrame.generateHeader p hostname ++ [p.header.type.raw]).length ≤
      maxStringSize := by
    rw [List.length_append] at hshort
    unfold sessionSize at hshort
    unfold maxStringSize
    omega
  obtain ⟨out,hout,-⟩ := bind_eq_ok.mp h
  rw [httpToBin_text htext hmax, httpToBin_body hnul hmax (frame_body hline)] at hout
  have hodd := binLoop_length hout
  rw [List.length_singleton] at hodd
  omega

/-- However much of the frame comes, if it is the header and two bytes at least. -/
def SessionUnreadable (frame : HttpFrame) : Prop :=
  ∀ beyond bytes, frame.serialise beyond = .ok bytes → ∀ chunk, chunk <+: bytes →
    frame.header.length + 2 ≤ chunk.length → chunk.length ≤ sessionSize →
      ∀ memory mData beyond' packet, requestPacket memory (received chunk mData beyond') ≠ .ok packet

theorem queryFrame_unreadable {packet : DvspPacket} (hpart : packet.header.part = 0)
    (htype : packet.header.type.raw ≠ nul) {query : Text} (h : query.length < 2 ^ 32)
    (dest : NetspaceIpv4) (hline : OneLine hostname) (hhost : nul ∉ hostname) :
    SessionUnreadable (queryFrame (queryPacket packet query dest) hostname) := by
  intro beyond bytes hbytes chunk hchunk hlen hshort
  exact frame_unread ((queryPacket_wellFormed packet h dest).serialise beyond) hpart htype hline hhost
    (ofPacket_queryPacket packet h dest hostname beyond) hbytes hchunk hlen hshort

end Request

/-! ### The reply -/

/-- What came of the answer of a node to a packet of part 0. -/
structure NodeReply (V6 : Type) [DecidableEq V6] (e : HttpService.Exchange) : Prop where
  answered : ∃ (env : Surroundings V6) (left : Leftover) (packet : DvspPacket)
    (addr : NetspaceAddr V6) (table table' : NetspaceTable V6) (serial : List UInt8),
      packet.header.part = 0 ∧ answer env left packet addr table = (.ok serial,table') ∧
        e.chunk <+: serial
  length_ge : 2 ≤ e.chunk.length
  length_le : e.chunk.length ≤ HttpService.replySize

section Reply
variable {V6 : Type} [DecidableEq V6] {e : HttpService.Exchange}

/-- It is the text of its type at most. -/
theorem NodeReply.text (h : NodeReply V6 e) :
    ∃ text, (received e.chunk e.reply e.beyond).HoldsText text ∧ text.length ≤ 1 := by
  obtain ⟨env,left,packet,addr,table,table',serial,hpart,hanswer,hchunk⟩ := h.answered
  obtain ⟨type,rest,rfl⟩ := answer_part env left hpart hanswer
  have hprefix : [type,nul] <+: e.chunk :=
    List.prefix_of_prefix_length_le ⟨rest,rfl⟩ hchunk h.length_ge
  obtain ⟨rest',hrest⟩ := hprefix
  by_cases htype : type = nul
  · refine ⟨[],?_,Nat.zero_le _⟩
    rw [received, ← hrest, htype]
    exact Region.holdsText_inside List.not_mem_nil _ _
  · refine ⟨[type],?_,le_rfl⟩
    rw [received, ← hrest]
    exact Region.holdsText_inside (fun hmem => htype (List.mem_singleton.mp hmem).symm) _ _

/-- There is no blank line in so short a text, and `substr(3)` throws. -/
theorem NodeReply.sendFrame (h : NodeReply V6 e) :
    HttpService.sendFrame (some e) = throws .sendFailed := by
  obtain ⟨text,htext,hlen⟩ := h.text
  have hmax : text.length ≤ maxStringSize := hlen.trans (by decide)
  have hblank : ¬ blankLine <:+: text := by
    intro hinfix
    have hle := hinfix.length_le
    rw [blankLine_length] at hle
    omega
  have hread : HttpService.readReply e = throws .outOfRange := by
    have hstrlen := strlen_text htext (hlen.trans_lt (by decide))
    have hload : load (received e.chunk e.reply e.beyond) 0 text.length = .ok text :=
      load_eq_ok.mpr htext.read
    simp only [HttpService.readReply, hstrlen, ok_bind, hload, assign, if_neg (Nat.not_lt.mpr hmax),
      httpToBin_text htext hmax, httpToBin_header htext.free hmax hblank,
      if_pos (show text.length < 3 by omega)]
    rfl
  rw [HttpService.sendFrame, hread]
  rfl

end Reply

/-! ### Both together -/

section Relay
variable {V6 : Type} {env : Surroundings V6} {left : Leftover}
  {hosts : Nat → HttpFrame → NetspaceIpv4 → Option HttpService.Exchange}

/-- There is a node that the request goes to. -/
def GoesOn (front : Text) (table : NetspaceTable V6) : Prop :=
  if front = ascii "esusx" then ∃ node ∈ table, node.proto = .http
  else ∃ node, table.node? (table.findSuid front) = some node

/-- All hosts are nodes. -/
def Nodes (V6 : Type) [DecidableEq V6]
    (hosts : Nat → HttpFrame → NetspaceIpv4 → Option HttpService.Exchange) : Prop :=
  ∀ it frame a e, hosts it frame a = some e → NodeReply V6 e

theorem contact_unread [DecidableEq V6] (hreaches : Reaches env hosts) (hnodes : Nodes V6 hosts)
    {it : Nat} {frame : HttpFrame} {a : NetspaceIpv4} (str : Option Text) :
    contact env left it frame a ≠ .ok str := by
  intro h
  obtain ⟨recv,hrecv,-⟩ := bind_eq_ok.mp h
  rw [hreaches] at hrecv
  cases he : hosts it frame a with
  | none =>
    rw [he] at hrecv
    contradiction
  | some e =>
    rw [he, (hnodes it frame a e he).sendFrame] at hrecv
    contradiction

theorem toV4_ok {addr : NetspaceAddr V6} {a : NetspaceIpv4} (h : addr.toV4 = .ok a) :
    ∃ a, addr = .v4 a := by
  cases addr with
  | v4 a => exact ⟨a,rfl⟩
  | v6 a => contradiction

theorem queryStep_ipv4 {query : Text} {s s' : QueryState} {node : NetspaceNode V6} {it : Nat}
    (h : queryStep env left query s node it = .ok s') : ∃ a, node.addr = .v4 a := by
  obtain ⟨packet,-,h⟩ := bind_eq_ok.mp h
  obtain ⟨dest,hdest,-⟩ := bind_eq_ok.mp (unwinding_ok h)
  exact toV4_ok hdest

/-- A query to all hosts that comes to its end has met no IPv6 node. -/
theorem queryLoop_ipv4 {query : Text} {nodes : NetspaceTable V6} {k : Nat} {s s' : QueryState}
    (h : queryLoop env left query nodes k s = .ok s') : Ipv4Table nodes := by
  induction nodes generalizing k s with
  | nil => simp [Ipv4Table]
  | cons node nodes ih =>
    rw [queryLoop_cons] at h
    obtain ⟨t,ht,h⟩ := bind_eq_ok.mp h
    exact List.forall_mem_cons.mpr ⟨queryStep_ipv4 ht,ih h⟩

theorem queryAll_ipv4 {packet : DvspPacket} {query text : Text} {table : NetspaceTable V6}
    (h : queryAll env left packet query table = .ok text) : Ipv4Table table := by
  obtain ⟨copy,-,h⟩ := bind_eq_ok.mp h
  obtain ⟨s,hs,-⟩ := bind_eq_ok.mp h
  exact queryLoop_ipv4 hs

theorem queryOne_ipv4 {packet : DvspPacket} {suid query text : Text} {table : NetspaceTable V6}
    {node : NetspaceNode V6} (hnode : table.node? (table.findSuid suid) = some node)
    (h : queryOne env left packet suid query table = .ok text) : ∃ a, node.addr = .v4 a := by
  obtain ⟨copy,-,h⟩ := bind_eq_ok.mp h
  simp only [hnode] at h
  obtain ⟨p,-,h⟩ := bind_eq_ok.mp h
  obtain ⟨str,hstr,-⟩ := bind_eq_ok.mp h
  obtain ⟨frame,-,hstr⟩ := bind_eq_ok.mp (unwinding_ok hstr)
  obtain ⟨dest,hdest,-⟩ := bind_eq_ok.mp hstr
  exact toV4_ok hdest

theorem askHosts_unread [DecidableEq V6] (hreaches : Reaches env hosts) (hnodes : Nodes V6 hosts)
    {packet : DvspPacket} (hp : packet.WellFormed) {front query : Text}
    (hlen : query.length < 2 ^ 32) {table : NetspaceTable V6} (hgoes : GoesOn front table)
    (text : Text) : askHosts env left packet front query table ≠ .ok text := by
  intro h
  unfold GoesOn at hgoes
  unfold askHosts at h
  split at h
  · rename_i hall
    rw [if_pos hall] at hgoes
    obtain ⟨node,hnode,hproto⟩ := hgoes
    by_cases hq : query = []
    · subst hq
      exact queryAll_empty env left hp (List.ne_nil_of_mem hnode) text h
    · have htable := queryAll_ipv4 h
      obtain ⟨a,ha⟩ := htable node hnode
      obtain ⟨it,hit⟩ := List.mem_iff_getElem?.mp hnode
      obtain ⟨str,hstr⟩ := (queryAll_ok env left hp hq hlen htable).mp ⟨text,h⟩ (node,it)
        (List.mem_zipIdx_iff_getElem?.mpr hit) hproto a ha
      exact contact_unread hreaches hnodes str hstr
  · rename_i hall
    rw [if_neg hall] at hgoes
    obtain ⟨node,hnode⟩ := hgoes
    by_cases hq : query = []
    · subst hq
      exact queryOne_empty env left hp hnode text h
    · obtain ⟨a,ha⟩ := queryOne_ipv4 hnode h
      rw [queryOne_known env left hp hq hlen hnode ha] at h
      cases hcontact : contact env left (table.findSuid front) (frameOne packet query node) a with
      | error e =>
        rw [hcontact] at h
        contradiction
      | ok str => exact contact_unread hreaches hnodes str hcontact

/-- Root nodes cannot serve each other's requests: neither can the one who is asked read what
it is sent, nor the one who asks what it is answered. -/
theorem nodes_cannot_relay [DecidableEq V6] (hreaches : Reaches env hosts)
    (hnodes : Nodes V6 hosts) {packet : DvspPacket} (hp : packet.WellFormed)
    (hpart : packet.header.part = 0) (htype : packet.header.type = .gsnRequest) {u : NetspaceUrl}
    (hu : NetspaceUrl.decode packet.bytes = .ok u) {front : Text} (hfront : u.gsn.head? = some front)
    (table : NetspaceTable V6) :
    (∀ node ∈ table, OneLine node.hostname → nul ∉ node.hostname →
      SessionUnreadable (frameOne packet u.spq node) ∧
        ∀ a, SessionUnreadable (frameAll packet u.spq node a)) ∧
      (GoesOn front table → ∀ left addr reply,
        (processPacket env left packet addr table).1 ≠ .ok reply) := by
  have hlen := spq_length_lt hp hu
  have hraw : packet.header.type.raw ≠ nul := by
    rw [htype]
    decide
  constructor
  · intro node _ hline hhost
    exact ⟨queryFrame_unreadable hpart hraw hlen _ hline hhost,
      fun a => queryFrame_unreadable hpart hraw hlen a hline hhost⟩
  · intro hgoes left addr reply h
    rw [processPacket_request env left htype] at h
    obtain ⟨text,htext⟩ := (query_ok_iff env left hp hu hfront table).mp ⟨reply,h⟩
    exact askHosts_unread hreaches hnodes hp hlen hgoes text htext

end Relay

/-- What a session answers to a packet that it does not know. -/
def malformedReply : HttpService.Exchange :=
  ⟨(responsePacket .malformedContent).header.bytes ++ DvspRcode.malformedContent.bytes,[],
    fun _ => none,⟨fun _ _ => none,fun _ => none⟩⟩

theorem malformedReply_nodeReply : NodeReply Empty malformedReply :=
  ⟨⟨isolated,unmapped,packetOf .undefined [],localhost,[],[],malformedReply.chunk,rfl,
    Prod.ext (by decide +kernel) (by decide +kernel),List.prefix_refl _⟩,by decide,by decide⟩

theorem nodes_cannot_relay_to_one :
    (SessionUnreadable (frameOne (packetOf .gsnRequest (ascii "spring://a?news")) (ascii "news")
      httpNode) ∧
        ∀ a, SessionUnreadable (frameAll (packetOf .gsnRequest (ascii "spring://a?news"))
          (ascii "news") httpNode a)) ∧
      ∀ left addr reply, (processPacket isolated left
        (packetOf .gsnRequest (ascii "spring://a?news")) addr [httpNode]).1 ≠ .ok reply := by
  have hreaches : Reaches isolated fun _ _ _ => some malformedReply := by
    intro it frame a
    rw [malformedReply_nodeReply.sendFrame]
    rfl
  have hnodes : Nodes Empty fun _ _ _ => some malformedReply :=
    fun _ _ _ e he => Option.some.inj he ▸ malformedReply_nodeReply
  have hu : NetspaceUrl.decode (packetOf .gsnRequest (ascii "spring://a?news")).bytes =
      .ok ⟨ascii "spring://a?news",[ascii "a"],[],[],ascii "news"⟩ := by decide +kernel
  have hgoes : GoesOn (ascii "a") [httpNode] := by
    rw [GoesOn, if_neg (by decide)]
    exact ⟨httpNode,by decide⟩
  have hrelay := nodes_cannot_relay hreaches hnodes (by decide +kernel) rfl rfl hu rfl [httpNode]
  exact ⟨hrelay.1 httpNode List.mem_cons_self (by decide +kernel) (by decide),hrelay.2 hgoes⟩

end GsnNode
