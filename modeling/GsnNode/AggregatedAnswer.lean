import GsnNode.JoinedAnswers
import GsnNode.UnknownPlace

/-! The answer to a query that goes to all hosts, out of any replies that are long
enough to be read. -/

set_option autoImplicit false

namespace GsnNode
open ByteWords ProtocolHandler DelimitedText

/-- A frame that carries the query to this address. -/
structure Asks (frame : HttpFrame) (query : Text) (a : NetspaceIpv4) : Prop where
  wellFormed : frame.dvspFrame.WellFormed
  content : frame.dvspFrame.bytes = query
  dest : frame.dvspFrame.header.addrDest = a
  address : frame.address = a

section Aggregated
variable {V6 : Type}

/-- Each http node that is asked has its reply, which has a whole `frame_service`.
Nothing is said of other frames and addresses: for them an exception may be thrown. -/
structure Replies (env : Surroundings V6) (query : Text) (table : NetspaceTable V6)
    (replies : Nat → ReceivedPacket) : Prop where
  sent : ∀ it node a frame, table[it]? = some node → node.proto = .http → node.addr = .v4 a →
    Asks frame query a → env.sendFrame it frame a = some (replies it)
  long : ∀ it node, table[it]? = some node → node.proto = .http →
    FrameService.sizeOf ≤ (replies it).val.bytes.length

def goodReply (recv : DvspPacket) : Prop :=
  recv.header.type = .gsnResponse ∧ (FrameService.ofBytes recv.bytes).response = .ok

instance (recv : DvspPacket) : Decidable (goodReply recv) := by
  unfold goodReply
  infer_instance

def payload (recv : DvspPacket) : Text := recv.bytes.drop FrameService.sizeOf

def goodPayload (replies : Nat → ReceivedPacket) (p : NetspaceNode V6 × Nat) : Option Text :=
  if p.1.proto = .http ∧ goodReply (replies p.2).val then some (payload (replies p.2).val) else none

/-- The payloads of the good replies in the order of the table. -/
def goodPayloads (replies : Nat → ReceivedPacket) (table : NetspaceTable V6) : List Text :=
  table.zipIdx.filterMap (goodPayload replies)

theorem frameAll_asks (packet : DvspPacket) {query : Text} (h : query.length < 2 ^ 32)
    (node : NetspaceNode V6) (a : NetspaceIpv4) : Asks (frameAll packet query node a) query a :=
  ⟨queryPacket_wellFormed packet h a,rfl,rfl,rfl⟩

variable {env : Surroundings V6} {packet : DvspPacket} {query : Text} {table : NetspaceTable V6}
  {replies : Nat → ReceivedPacket}

theorem Replies.hostReplies (h : Replies env query table replies) (hlen : query.length < 2 ^ 32)
    {it : Nat} {node : NetspaceNode V6} {a : NetspaceIpv4} (hnode : table[it]? = some node)
    (hproto : node.proto = .http) (ha : node.addr = .v4 a) :
    HostReplies env it (frameAll packet query node a) a :=
  ⟨replies it,h.sent it node a _ hnode hproto ha (frameAll_asks packet hlen node a),
    fun _ => h.long it node hnode hproto⟩

theorem Replies.nodeAnswer_eq (h : Replies env query table replies) (hlen : query.length < 2 ^ 32)
    {it : Nat} {node : NetspaceNode V6} {a : NetspaceIpv4} (hnode : table[it]? = some node)
    (ha : node.addr = .v4 a) :
    nodeAnswer env packet query (node,it) = goodPayload replies (node,it) := by
  by_cases hproto : node.proto = .http
  · have hsent := h.sent it node a _ hnode hproto ha (frameAll_asks packet hlen node a)
    simp only [nodeAnswer, ha, hproto, if_true, hostAnswer, hsent, goodPayload, goodReply, payload,
      true_and]
  · simp [nodeAnswer, ha, hproto, goodPayload]

theorem Replies.answers_eq (h : Replies env query table replies) (hlen : query.length < 2 ^ 32)
    (htable : Ipv4Table table) :
    answersFrom env packet query 0 table = goodPayloads replies table := by
  refine List.filterMap_congr fun p hp => ?_
  have hnode : table[p.2]? = some p.1 := List.mem_zipIdx_iff_getElem?.mp hp
  obtain ⟨a,ha⟩ := htable p.1 (List.mem_of_getElem? hnode)
  exact h.nodeAnswer_eq hlen hnode ha

variable (left : Leftover) (hp : packet.WellFormed) (hq : query ≠ []) (hlen : query.length < 2 ^ 32)
  (htable : Ipv4Table table)

include hp hq hlen htable

theorem queryAll_joined (h : Replies env query table replies) :
    queryAll env left packet query table =
      .ok ([colon,colon].intercalate (goodPayloads replies table)) := by
  have hcontacted : ∀ p ∈ table.zipIdx, Contacted env left packet query p.1 p.2 := by
    intro p hp hproto a ha
    have hnode : table[p.2]? = some p.1 := List.mem_zipIdx_iff_getElem?.mp hp
    exact contact_ok env left (h.hostReplies hlen hnode hproto ha)
  obtain ⟨text,htext⟩ := (queryAll_ok env left hp hq hlen htable).mpr hcontacted
  have hstart : QueryState.Holds
      ⟨queryPacket packet packet.bytes packet.header.addrDest,[],true⟩ [] := ⟨by simp,by simp⟩
  have hrun := htext
  simp only [queryAll, copy_eq_queryPacket hp, ok_bind] at hrun
  obtain ⟨s,hs,hrun⟩ := bind_eq_ok.mp hrun
  obtain ⟨u,-,hrun⟩ := bind_eq_ok.mp hrun
  have hend := queryLoop_holds env left hq hlen ⟨_,_,rfl⟩ hstart htable
    (fun node it a hn hproto ha =>
      h.hostReplies hlen (List.mem_zipIdx_iff_getElem?.mp hn) hproto ha) hs
  rw [htext, ← Except.ok.inj hrun, hend.ss_eq, List.nil_append, h.answers_eq hlen htable]

/-- There is no answer before every http node has been sent the query. -/
theorem queryAll_asks {text : Text} (h : queryAll env left packet query table = .ok text) {it : Nat}
    {node : NetspaceNode V6} (hnode : table[it]? = some node) (hproto : node.proto = .http) :
    ∃ a frame recv, node.addr = .v4 a ∧ Asks frame query a ∧
      env.sendFrame it frame a = some recv := by
  obtain ⟨a,ha⟩ := htable node (List.mem_of_getElem? hnode)
  have hcontacted := (queryAll_ok env left hp hq hlen htable).mp ⟨text,h⟩ (node,it)
    (List.mem_zipIdx_iff_getElem?.mpr hnode)
  obtain ⟨str,hstr⟩ := hcontacted hproto a ha
  cases hrecv : env.sendFrame it (frameAll packet query node a) a with
  | none => simp [contact, sendFrame, hrecv, throws] at hstr
  | some recv => exact ⟨a,_,recv,ha,frameAll_asks packet hlen node a,hrecv⟩

theorem aggregated_answer :
    (∀ (env : Surroundings V6) (replies : Nat → ReceivedPacket), Replies env query table replies →
      queryAll env left packet query table =
        .ok ([colon,colon].intercalate (goodPayloads replies table))) ∧
    ∀ (env : Surroundings V6) (text : Text), queryAll env left packet query table = .ok text →
      ∀ (it : Nat) (node : NetspaceNode V6), table[it]? = some node → node.proto = .http →
        ∃ a frame recv, node.addr = .v4 a ∧ Asks frame query a ∧
          env.sendFrame it frame a = some recv :=
  ⟨fun _ _ h => queryAll_joined left hp hq hlen htable h,
    fun _ _ h _ _ hnode hproto => queryAll_asks left hp hq hlen htable h hnode hproto⟩

end Aggregated

def httpNode : NetspaceNode Empty := ⟨.org,localhost,ascii "b",.http,ascii "a"⟩

theorem httpNodes_ipv4 : Ipv4Table [httpNode,httpNode] := by
  intro n hn
  rcases List.mem_pair.mp hn with rfl | rfl
  · exact ⟨_,rfl⟩
  · exact ⟨_,rfl⟩

def serviceReply (text : Text) : DvspPacket :=
  packetOf .gsnResponse (DvspRcode.ok.bytes ++ UInt8.ofNat text.length :: text)

/-- The first host has an answer, the other one an empty one. -/
def twoReplies (it : Nat) : ReceivedPacket :=
  if it = 0 then ⟨serviceReply (ascii "x"),by decide +kernel⟩
  else ⟨serviceReply [],by decide +kernel⟩

def twoHosts : Surroundings Empty :=
  { isolated with sendFrame := fun it _ _ => some (twoReplies it) }

theorem twoHosts_replies : Replies twoHosts (ascii "q") [httpNode,httpNode] twoReplies := by
  constructor
  · intro it node a frame _ _ _ _
    rfl
  · intro it node _ _
    by_cases hfirst : it = 0
    · rw [twoReplies, if_pos hfirst]
      decide +kernel
    · rw [twoReplies, if_neg hfirst]
      decide +kernel

theorem aggregated_answer_two_nodes :
    queryAll twoHosts unmapped (packetOf .gsnRequest (ascii "q")) (ascii "q") [httpNode,httpNode] =
        .ok (ascii "x::") ∧
      ∃ a frame recv, httpNode.addr = .v4 a ∧ Asks frame (ascii "q") a ∧
        twoHosts.sendFrame 1 frame a = some recv := by
  have hanswer := @aggregated_answer _ (packetOf .gsnRequest (ascii "q")) (ascii "q")
    [httpNode,httpNode] unmapped (by decide +kernel) (by decide +kernel) (by decide +kernel)
    httpNodes_ipv4
  have hjoined := hanswer.1 twoHosts twoReplies twoHosts_replies
  have htext : [colon,colon].intercalate (goodPayloads twoReplies [httpNode,httpNode]) =
      ascii "x::" := by
    decide +kernel
  exact ⟨hjoined.trans (by rw [htext]),hanswer.2 twoHosts _ hjoined 1 httpNode rfl rfl⟩

/-- One IPv6 address. -/
def loopback6 : Ipv6Text Unit where
  toText _ := ascii "::1"
  fromText s := if s = ascii "::1" then some () else none
  fromText_toText _ := rfl
  toText_nul _ := by decide
  fromText_colon s _ h := by
    obtain rfl : s = ascii "::1" := by simpa using h
    decide +kernel
  fromText_chars s _ h := by
    obtain rfl : s = ascii "::1" := by simpa using h
    decide +kernel

def beyondIpv4 : Surroundings Unit := ⟨loopback6,emptyDb,fun _ _ _ => none⟩

def ipv6Node : NetspaceNode Unit := ⟨.org,.v6 (),ascii "b",.dvsp,ascii "a"⟩

def emptyReply : ReceivedPacket := ⟨.init,DvspPacket.init_wellFormed⟩

theorem ipv6_node_throws :
    Replies beyondIpv4 (ascii "q") [ipv6Node] (fun _ => emptyReply) ∧
      queryAll beyondIpv4 unmapped (packetOf .gsnRequest (ascii "q")) (ascii "q") [ipv6Node] ≠
        .ok ([colon,colon].intercalate (goodPayloads (fun _ => emptyReply) [ipv6Node])) := by
  have hproto : ∀ (it : Nat) (node : NetspaceNode Unit), [ipv6Node][it]? = some node →
      node.proto ≠ .http := by
    intro it node hnode
    obtain rfl : node = ipv6Node := by simpa using List.mem_of_getElem? hnode
    decide
  refine ⟨⟨fun it node a frame hnode h => ?_,fun it node hnode h => ?_⟩,by decide +kernel⟩
  · exact absurd h (hproto it node hnode)
  · exact absurd h (hproto it node hnode)

end GsnNode
