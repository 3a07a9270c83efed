import GsnNode.UrlDecoding
import GsnNode.RegistryRuns

/-! When `query` is answered: what is sent to the hosts, and which of their replies
can be looked at. -/

set_option autoImplicit false

namespace GsnNode
open ByteWords MemoryRegion KeyedList

namespace ProtocolHandler
variable {V6 : Type} (env : Surroundings V6) (left : Leftover)

def queryPacket (packet : DvspPacket) (query : Text) (dest : NetspaceIpv4) : DvspPacket :=
  ⟨{ packet.header with size := UInt32.ofNat query.length, addrDest := dest },.live query⟩

def queryFrame (p : DvspPacket) (hostname : Text) : HttpFrame :=
  ⟨p,hostname,HttpFrame.generateHeader p hostname,p.header.addrDest⟩

/-- A host sends a packet, and if it is a response, the packet has a whole
`frame_service`. -/
def HostReplies (it : Nat) (frame : HttpFrame) (address : NetspaceIpv4) : Prop :=
  ∃ recv, env.sendFrame it frame address = some recv ∧
    (recv.val.header.type = .gsnResponse → FrameService.sizeOf ≤ recv.val.bytes.length)

/-! ### One exchange -/

theorem replyText_ok (it : Nat) {recv : DvspPacket} (hr : recv.WellFormed)
    (h : recv.header.type = .gsnResponse → FrameService.sizeOf ≤ recv.bytes.length) :
    ∃ str, replyText left it recv = .ok str := by
  by_cases htype : recv.header.type = .gsnResponse
  · have hlen := h htype
    have hne : recv.bytes ≠ [] := by
      apply List.length_pos_iff.mp
      rw [FrameService.sizeOf] at hlen
      omega
    simp only [replyText, if_pos htype, hr.contentAs (left.afterReply it) hlen, ok_bind,
      hr.toString_from (left.afterReply it) hlen hne]
    split <;> exact ⟨_,rfl⟩
  · exact ⟨none,by simp [replyText, htype]⟩

theorem replyText_unmapped {it : Nat} {recv : DvspPacket}
    (hleft : left.afterReply it = fun _ => none) {str : Option Text}
    (h : replyText left it recv = .ok str) (htype : recv.header.type = .gsnResponse) :
    FrameService.sizeOf ≤ recv.bytes.length := by
  by_contra hlen
  have hfault : recv.contentAs (left.afterReply it) 0 FrameService.sizeOf = undefined := by
    rw [hleft]
    exact DvspPacket.read_outside recv (by omega) (by decide)
  simp [replyText, htype, hfault, undefined] at h

theorem contact_ok {it : Nat} {frame : HttpFrame} {address : NetspaceIpv4}
    (h : HostReplies env it frame address) : ∃ str, contact env left it frame address = .ok str := by
  obtain ⟨recv,hrecv,hlen⟩ := h
  simpa [contact, sendFrame, hrecv] using replyText_ok left it recv.2 hlen

theorem contact_unmapped {it : Nat} {frame : HttpFrame} {address : NetspaceIpv4}
    (hleft : left.afterReply it = fun _ => none) {str : Option Text}
    (h : contact env left it frame address = .ok str) : HostReplies env it frame address := by
  cases hrecv : env.sendFrame it frame address with
  | none => simp [contact, sendFrame, hrecv, throws] at h
  | some recv =>
    simp only [contact, sendFrame, hrecv, pure_eq_ok, ok_bind] at h
    exact ⟨recv,hrecv,replyText_unmapped left hleft h⟩

/-! ### Packets with a query -/

theorem queryPacket_wellFormed (packet : DvspPacket) {query : Text} (h : query.length < 2 ^ 32)
    (dest : NetspaceIpv4) : (queryPacket packet query dest).WellFormed := by
  refine ⟨by simp [queryPacket],?_⟩
  simp only [queryPacket, DvspPacket.bytes, UInt32.toNat_ofNat']
  omega

theorem copy_eq_queryPacket {packet : DvspPacket} (hp : packet.WellFormed) (beyond : Beyond) :
    packet.copy beyond = .ok (queryPacket packet packet.bytes packet.header.addrDest) := by
  have hsize : UInt32.ofNat packet.bytes.length = packet.header.size := by
    rw [hp.size_eq]
    exact UInt32.ofNat_toNat
  rw [hp.copy]
  simp [queryPacket, hsize]

theorem strContent_queryPacket (packet : DvspPacket) (old : Text) {query : Text}
    (hq : query ≠ []) (dest : NetspaceIpv4) :
    (queryPacket packet old dest).strContent query = .ok (queryPacket packet query dest) := by
  simp [queryPacket, DvspPacket.strContent, DvspPacket.reset, hq]

theorem strContent_nil (packet : DvspPacket) (old : Text) (dest : NetspaceIpv4) :
    (queryPacket packet old dest).strContent [] =
      .ok ⟨{ packet.header with size := 0, addrDest := dest },.released⟩ := by
  simp [queryPacket, DvspPacket.strContent, DvspPacket.reset]

theorem ofPacket_queryPacket (packet : DvspPacket) {query : Text} (h : query.length < 2 ^ 32)
    (dest : NetspaceIpv4) (hostname : Text) (beyond : Beyond) :
    HttpFrame.ofPacket beyond (queryPacket packet query dest) hostname =
      .ok (queryFrame (queryPacket packet query dest) hostname) := by
  have hcopy := (queryPacket_wellFormed packet h dest).copy beyond
  have hsame : (⟨(queryPacket packet query dest).header,
      .live (queryPacket packet query dest).bytes⟩ : DvspPacket) =
        queryPacket packet query dest := rfl
  rw [hsame] at hcopy
  simp only [HttpFrame.ofPacket, hcopy, ok_bind, pure_eq_ok, queryFrame]

theorem unwinding_queryPacket {α : Type} (packet : DvspPacket) (query : Text)
    (dest : NetspaceIpv4) (r : Call α) : unwinding (queryPacket packet query dest) r = r := by
  match r with
  | .ok a => rfl
  | .error (.throws e) => rfl
  | .error .terminates => rfl
  | .error .hangs => rfl
  | .error .undefined => rfl

/-- An exception that leaves the scope of a packet without its buffer is a
double free. -/
theorem unwinding_released {α : Type} (header : DvspHeader) {r : Call α} {a : α}
    (h : unwinding ⟨header,.released⟩ r = .ok a) : r = .ok a := by
  match r with
  | .ok a => exact h
  | .error (.throws e) => contradiction
  | .error .terminates => contradiction
  | .error .hangs => contradiction
  | .error .undefined => contradiction

/-! ### One host -/

/-- The frame that `query_one` sends, which still has the old destination. -/
def frameOne (packet : DvspPacket) (query : Text) (node : NetspaceNode V6) : HttpFrame :=
  queryFrame (queryPacket packet query packet.header.addrDest) node.hostname

theorem queryOne_unknown {packet : DvspPacket} (hp : packet.WellFormed) {suid : Text}
    (query : Text) {table : NetspaceTable V6}
    (hnode : table.node? (table.findSuid suid) = none) :
    queryOne env left packet suid query table = .ok [] := by
  simp only [queryOne, copy_eq_queryPacket hp, ok_bind, hnode]
  rfl

theorem queryOne_known {packet : DvspPacket} (hp : packet.WellFormed) {suid query : Text}
    (hq : query ≠ []) (hlen : query.length < 2 ^ 32) {table : NetspaceTable V6}
    {node : NetspaceNode V6} (hnode : table.node? (table.findSuid suid) = some node)
    {a : NetspaceIpv4} (ha : node.addr = .v4 a) :
    queryOne env left packet suid query table =
      (contact env left (table.findSuid suid) (frameOne packet query node) a).map (·.getD []) := by
  simp only [queryOne, copy_eq_queryPacket hp, ok_bind, hnode,
    strContent_queryPacket packet packet.bytes hq, unwinding_queryPacket,
    ofPacket_queryPacket packet hlen, ha, NetspaceAddr.toV4, frameOne]
  cases contact env left (table.findSuid suid)
    (queryFrame (queryPacket packet query packet.header.addrDest) node.hostname) a <;> rfl

theorem queryOne_empty {packet : DvspPacket} (hp : packet.WellFormed) {suid : Text}
    {table : NetspaceTable V6} {node : NetspaceNode V6}
    (hnode : table.node? (table.findSuid suid) = some node) (text : Text) :
    queryOne env left packet suid [] table ≠ .ok text := by
  intro h
  simp only [queryOne, copy_eq_queryPacket hp, ok_bind, hnode, strContent_nil] at h
  obtain ⟨str,-,h⟩ := bind_eq_ok.mp h
  contradiction

/-! ### All hosts -/

def frameAll (packet : DvspPacket) (query : Text) (node : NetspaceNode V6) (dest : NetspaceIpv4) :
    HttpFrame :=
  queryFrame (queryPacket packet query dest) node.hostname

def QueryState.Of (packet : DvspPacket) (s : QueryState) : Prop :=
  ∃ query dest, s.packet = queryPacket packet query dest

theorem queryStep_eq {packet : DvspPacket} {query : Text} (hq : query ≠ [])
    (hlen : query.length < 2 ^ 32) {s : QueryState} (hs : s.Of packet) {node : NetspaceNode V6}
    {a : NetspaceIpv4} (ha : node.addr = .v4 a) (it : Nat) :
    queryStep env left query s node it =
      (if node.proto = .http then contact env left it (frameAll packet query node a) a
        else pure none).map (s.addReply (queryPacket packet query a)) := by
  obtain ⟨old,dest,hs⟩ := hs
  have hserial := (queryPacket_wellFormed packet hlen a).serialise left.afterContent
  have hdest : ({ queryPacket packet query dest with
      header.addrDest := a } : DvspPacket) = queryPacket packet query a := rfl
  simp only [queryStep, hs, strContent_queryPacket packet old hq, ok_bind, unwinding_queryPacket, ha,
    NetspaceAddr.toV4, hdest, hserial, ofPacket_queryPacket packet hlen, frameAll]
  split
  · cases contact env left it (queryFrame (queryPacket packet query a) node.hostname) a <;> rfl
  · rfl

theorem QueryState.Of.addReply {packet : DvspPacket} (s : QueryState) (query : Text)
    (dest : NetspaceIpv4) (str : Option Text) :
    (s.addReply (queryPacket packet query dest) str).Of packet := by
  cases str <;> exact ⟨query,dest,rfl⟩

def Contacted (packet : DvspPacket) (query : Text) (node : NetspaceNode V6) (it : Nat) : Prop :=
  node.proto = .http → ∀ a, node.addr = .v4 a →
    ∃ str, contact env left it (frameAll packet query node a) a = .ok str

theorem queryStep_ok {packet : DvspPacket} {query : Text} (hq : query ≠ [])
    (hlen : query.length < 2 ^ 32) {s : QueryState} (hs : s.Of packet) {node : NetspaceNode V6}
    (hnode : ∃ a, node.addr = .v4 a) (it : Nat) :
    (∃ s', queryStep env left query s node it = .ok s') ↔
      Contacted env left packet query node it := by
  obtain ⟨a,ha⟩ := hnode
  rw [queryStep_eq env left hq hlen hs ha, Contacted]
  by_cases hproto : node.proto = .http
  · simp only [hproto, if_true, true_imp_iff]
    cases hc : contact env left it (frameAll packet query node a) a with
    | ok str => exact ⟨fun _ b hb => ⟨str,by rw [ha] at hb; cases hb; exact hc⟩,fun _ => ⟨_,rfl⟩⟩
    | error e =>
      constructor
      · rintro ⟨s',hs'⟩
        contradiction
      · intro h
        obtain ⟨str,hstr⟩ := h a ha
        rw [hc] at hstr
        contradiction
  · simp only [hproto, if_false, false_imp_iff, iff_true]
    exact ⟨_,rfl⟩

theorem queryStep_of {packet : DvspPacket} {query : Text} (hq : query ≠ [])
    (hlen : query.length < 2 ^ 32) {s s' : QueryState} (hs : s.Of packet) {node : NetspaceNode V6}
    (hnode : ∃ a, node.addr = .v4 a) {it : Nat}
    (h : queryStep env left query s node it = .ok s') : s'.Of packet := by
  obtain ⟨a,ha⟩ := hnode
  rw [queryStep_eq env left hq hlen hs ha] at h
  cases hr : (if node.proto = .http then contact env left it (frameAll packet query node a) a
      else pure none) with
  | error e =>
    rw [hr] at h
    contradiction
  | ok str =>
    rw [hr] at h
    obtain rfl : s.addReply (queryPacket packet query a) str = s' := by
      simpa [Except.map] using h
    exact .addReply s query a str

theorem queryLoop_cons (query : Text) (node : NetspaceNode V6) (nodes : NetspaceTable V6) (k : Nat)
    (s : QueryState) : queryLoop env left query (node :: nodes) k s =
      (queryStep env left query s node k >>= fun s' => queryLoop env left query nodes (k + 1) s') := by
  rw [queryLoop, List.zipIdx_cons, List.foldlM_cons]
  rfl

theorem queryLoop_ok {packet : DvspPacket} {query : Text} (hq : query ≠ [])
    (hlen : query.length < 2 ^ 32) {nodes : NetspaceTable V6}
    (hnodes : ∀ n ∈ nodes, ∃ a, n.addr = .v4 a) (k : Nat) {s : QueryState} (hs : s.Of packet) :
    (∃ s', queryLoop env left query nodes k s = .ok s') ↔
      ∀ p ∈ nodes.zipIdx k, Contacted env left packet query p.1 p.2 := by
  induction nodes generalizing k s with
  | nil => simp [queryLoop]
  | cons node nodes ih =>
    have hnode := hnodes node List.mem_cons_self
    have hrest : ∀ n ∈ nodes, ∃ a, n.addr = .v4 a := fun n hn => hnodes n (List.mem_cons_of_mem _ hn)
    have hstep := queryStep_ok env left hq hlen hs hnode k
    rw [queryLoop_cons, List.zipIdx_cons, List.forall_mem_cons, ← hstep]
    cases hs' : queryStep env left query s node k with
    | error e => simp
    | ok s' => simpa using ih hrest (k + 1) (queryStep_of env left hq hlen hs hnode hs')

theorem queryLoop_of {packet : DvspPacket} {query : Text} (hq : query ≠ [])
    (hlen : query.length < 2 ^ 32) {nodes : NetspaceTable V6}
    (hnodes : ∀ n ∈ nodes, ∃ a, n.addr = .v4 a) {k : Nat} {s s' : QueryState} (hs : s.Of packet)
    (h : queryLoop env left query nodes k s = .ok s') : s'.Of packet := by
  induction nodes generalizing k s with
  | nil =>
    obtain rfl : s = s' := by simpa [queryLoop] using h
    exact hs
  | cons node nodes ih =>
    rw [queryLoop_cons] at h
    obtain ⟨t,ht,h⟩ := bind_eq_ok.mp h
    exact ih (fun n hn => hnodes n (List.mem_cons_of_mem _ hn))
      (queryStep_of env left hq hlen hs (hnodes node List.mem_cons_self) ht) h

theorem queryAll_ok {packet : DvspPacket} (hp : packet.WellFormed) {query : Text} (hq : query ≠ [])
    (hlen : query.length < 2 ^ 32) {table : NetspaceTable V6}
    (htable : ∀ n ∈ table, ∃ a, n.addr = .v4 a) :
    (∃ text, queryAll env left packet query table = .ok text) ↔
      ∀ p ∈ table.zipIdx, Contacted env left packet query p.1 p.2 := by
  have hstart : (⟨queryPacket packet packet.bytes packet.header.addrDest,[],true⟩ : QueryState).Of
      packet := ⟨_,_,rfl⟩
  rw [← queryLoop_ok env left hq hlen htable 0 hstart]
  simp only [queryAll, copy_eq_queryPacket hp, ok_bind]
  cases hs' : queryLoop env left query table 0
      ⟨queryPacket packet packet.bytes packet.header.addrDest,[],true⟩ with
  | error e => simp
  | ok s' =>
    obtain ⟨query',dest,hpacket⟩ := queryLoop_of env left hq hlen htable hstart hs'
    have hdestroy : s'.packet.destroy = .ok () := by rw [hpacket]; rfl
    simp [hdestroy]

theorem queryLoop_released (query : Text) {nodes : NetspaceTable V6} {k : Nat} {s s' : QueryState}
    (hs : s.packet.content = .released) (h : queryLoop env left query nodes k s = .ok s') :
    s'.packet.content = .released := by
  cases nodes with
  | nil =>
    obtain rfl : s = s' := by simpa [queryLoop] using h
    exact hs
  | cons node nodes =>
    have hreset : s.packet.strContent query = undefined := by
      simp [DvspPacket.strContent, DvspPacket.reset, hs]
    simp [queryLoop_cons, queryStep, hreset, undefined] at h

theorem QueryState.addReply_packet (s : QueryState) (packet : DvspPacket) (str : Option Text) :
    (s.addReply packet str).packet = packet := by
  cases str <;> rfl

/-- Without a query text the first node of a table already leaves the packet
without its buffer. -/
theorem queryAll_empty {packet : DvspPacket} (hp : packet.WellFormed) {table : NetspaceTable V6}
    (hne : table ≠ []) (text : Text) : queryAll env left packet [] table ≠ .ok text := by
  obtain ⟨node,nodes,rfl⟩ := List.exists_cons_of_ne_nil hne
  intro h
  simp only [queryAll, copy_eq_queryPacket hp, ok_bind, queryLoop_cons] at h
  obtain ⟨s',hs',h⟩ := bind_eq_ok.mp h
  obtain ⟨s,hs,hs'⟩ := bind_eq_ok.mp hs'
  have hreleased : s.packet.content = .released := by
    simp only [queryStep, strContent_nil, ok_bind] at hs
    have hbody := unwinding_released _ hs
    obtain ⟨a,-,hbody⟩ := bind_eq_ok.mp hbody
    obtain ⟨serial,-,hbody⟩ := bind_eq_ok.mp hbody
    split at hbody
    · obtain ⟨frame,-,hbody⟩ := bind_eq_ok.mp hbody
      obtain ⟨str,-,hbody⟩ := bind_eq_ok.mp hbody
      obtain rfl : _ = s := by simpa using hbody
      simp [QueryState.addReply_packet]
    · obtain rfl : _ = s := by simpa using hbody
      simp [QueryState.addReply_packet]
  have hend := queryLoop_released env left [] hreleased hs'
  obtain ⟨u,hu,-⟩ := bind_eq_ok.mp h
  simp [DvspPacket.destroy, hend, undefined] at hu

end ProtocolHandler
end GsnNode
