import GsnNode.UrlDecoding
import GsnNode.RegistryRuns

/-! Resolution over several nodes: what one node does with a request, and where
the chain of forwarded requests ends. -/

set_option autoImplicit false

namespace GsnNode
open KeyedList ByteWords ProtocolHandler

section Chain
variable {V6 : Type}

def Ipv4Table (table : NetspaceTable V6) : Prop := ∀ n ∈ table, ∃ a, n.addr = .v4 a

def nodeNamed (table : NetspaceTable V6) (host : Text) : Option (NetspaceNode V6) :=
  table.find? fun v => v.hostname = host

theorem node?_findHost (table : NetspaceTable V6) (host : Text) :
    table.node? (table.findHost host) = nodeNamed table host :=
  getElem?_findIdx _ _

/-- A resolution request for a route, with the other sections of `u`. -/
structure Carries (u : NetspaceUrl) (route : List Text) (packet : DvspPacket) : Prop where
  wellFormed : packet.WellFormed
  type_eq : packet.header.type = .gsnResolution
  decoded : ∃ v, NetspaceUrl.decode packet.bytes = .ok v ∧ v.gsn = route ∧ v.glq = u.glq ∧
    v.res = u.res ∧ v.spq = u.spq

structure GivesAddress (node : NetspaceNode V6) (reply : DvspPacket) : Prop where
  wellFormed : reply.WellFormed
  type_eq : reply.header.type = .gsnResponse
  frame : ∃ a, node.addr = .v4 a ∧ reply.bytes = FrameAddress.bytes ⟨.ok,node.proto,a⟩

/-- No node is the next host, and the reply says so. -/
structure Refused (table : NetspaceTable V6) (route : List Text) (reply : DvspPacket) : Prop where
  unknown : ∀ m ∈ table, some m.hostname ≠ route.dropLast.getLast?
  reply_eq : reply = responsePacket .netspaceError

/-- The next host is the last one. -/
structure Arrived (table : NetspaceTable V6) (route : List Text) (reply : DvspPacket) : Prop where
  length_eq : route.length = 2
  address : ∃ s₁ node, route.head? = some s₁ ∧ nodeNamed table s₁ = some node ∧
    GivesAddress node reply

/-- The request goes on to the next host, for the route without its last segment. -/
structure Forwarded (table : NetspaceTable V6) (u : NetspaceUrl) (route : List Text)
    (packet reply : DvspPacket) : Prop where
  length_le : 3 ≤ route.length
  carries : Carries u route.dropLast reply
  part_eq : reply.header.part = packet.header.part
  orig_eq : reply.header.addrOrig = packet.header.addrOrig
  dest : ∃ host node a, route.dropLast.getLast? = some host ∧ nodeNamed table host = some node ∧
    node.addr = .v4 a ∧ reply.header.addrDest = a

/-! ### One node -/

theorem addressReply_eq (packet : DvspPacket) {node : NetspaceNode V6} {a : NetspaceIpv4}
    (ha : node.addr = .v4 a) : ∃ reply, addressReply packet node = .ok reply ∧
      GivesAddress node reply := by
  have hframe := (FrameAddress.mk .ok node.proto a).bytes_ne_nil
  refine ⟨⟨{ packet.header with type := .gsnResponse, size := 9 },
    .live (FrameAddress.bytes ⟨.ok,node.proto,a⟩)⟩,?_,?_⟩
  · simp only [addressReply, constructFrameAddress, ha, NetspaceAddr.toV4, ok_bind, pure_eq_ok,
      DvspPacket.copyContent, DvspPacket.init, DvspPacket.reset_null _ hframe]
    simp [FrameAddress.bytes]
  · refine ⟨⟨by simp,?_⟩,rfl,a,ha,rfl⟩
    simp [DvspPacket.bytes, FrameAddress.bytes]

/-- The URL that is passed on is read by the next node as it was meant. -/
theorem forwardRequest_eq {packet : DvspPacket} (hp : packet.WellFormed)
    {v : NetspaceUrl} (hv : NetspaceUrl.decode packet.bytes = .ok v) (hlen : 3 ≤ v.gsn.length)
    {node : NetspaceNode V6} {a : NetspaceIpv4} (ha : node.addr = .v4 a) :
    ∃ reply, forwardRequest packet v.popRoute node = .ok reply ∧ reply.WellFormed ∧
      reply.header.type = packet.header.type ∧ reply.header.part = packet.header.part ∧
      reply.header.addrOrig = packet.header.addrOrig ∧ reply.header.addrDest = a ∧
      ∃ w, NetspaceUrl.decode reply.bytes = .ok w ∧ w.gsn = v.gsn.dropLast ∧ w.glq = v.glq ∧
        w.res = v.res ∧ w.spq = v.spq := by
  have hsize := hp.length_lt
  have hbound := NetspaceUrl.decode_body_length hv
  have hroute := NetspaceUrl.decode_route_length hv
  have hshort := NetspaceUrl.body_popRoute_length (u := v) (by omega)
  have hpop : v.popRoute.gsn.length = v.gsn.length - 1 := List.length_dropLast
  rw [NetspaceUrl.springPrefix_length] at hbound
  have hne : v.popRoute.gsn ≠ [] := List.length_pos_iff.mp (by omega)
  have hbody := NetspaceUrl.body_popRoute_ne_nil hlen
  have hdecode := NetspaceUrl.decode_written hne (NetspaceUrl.decode_plain hv).popRoute hbody
    (by omega)
  have htext : v.popRoute.toString = _ := NetspaceUrl.toString_eq (by omega)
  have htextne : springPrefix ++ v.popRoute.body ≠ [] := by simp [hbody]
  refine ⟨⟨{ packet.header with
      size := UInt32.ofNat (springPrefix ++ v.popRoute.body).length, addrDest := a },
    .live (springPrefix ++ v.popRoute.body)⟩,?_,⟨by simp,?_⟩,rfl,rfl,rfl,rfl,_,hdecode,rfl,rfl,rfl,rfl⟩
  · simp only [forwardRequest, htext, ok_bind, DvspPacket.strContent, DvspPacket.init,
      DvspPacket.reset_null _ htextne, ha, NetspaceAddr.toV4, pure_eq_ok]
  · simp only [DvspPacket.bytes, List.length_append, NetspaceUrl.springPrefix_length,
      UInt32.toNat_ofNat']
    omega

theorem resolveGsn_route (env : Surroundings V6) (left : Leftover) {packet : DvspPacket}
    (hp : packet.WellFormed) {v : NetspaceUrl} (hv : NetspaceUrl.decode packet.bytes = .ok v)
    {host : Text} (hhost : v.gsn.dropLast.getLast? = some host) (table : NetspaceTable V6) :
    resolveGsn env left packet table =
      match nodeNamed table host with
      | none => response .netspaceError
      | some node =>
        if v.gsn.length = 2 then addressReply packet node
        else forwardRequest packet v.popRoute node := by
  have hne := NetspaceUrl.decode_ne_nil hv
  have hroute : v.gsn.dropLast ≠ [] := by
    intro hnil
    simp [hnil] at hhost
  have hlen := List.length_pos_iff.mpr hroute
  have htwo : (v.gsn.dropLast.length = 1) = (v.gsn.length = 2) := by
    rw [List.length_dropLast] at hlen ⊢
    apply propext
    omega
  simp only [resolveGsn, hp.toString, if_neg hne, ok_bind, hv, hhost, node?_findHost, htwo]
  rw [if_neg (by simp only [not_and_or]; left; omega)]
  rfl

/-- A place is looked up under the hostname that the database gives for it. -/
theorem resolveGsn_place (env : Surroundings V6) (left : Leftover) {packet : DvspPacket}
    (hp : packet.WellFormed) {v : NetspaceUrl} (hv : NetspaceUrl.decode packet.bytes = .ok v)
    (hlen : v.gsn.length = 1) (hglq : v.glq ≠ []) (table : NetspaceTable V6) :
    resolveGsn env left packet table =
      (MetaspaceGsn.resolveGsn env.metaspace v.glq >>= fun host =>
        match nodeNamed table host with
        | none => response .netspaceError
        | some node => addressReply packet node) := by
  have hne := NetspaceUrl.decode_ne_nil hv
  cases hhost : MetaspaceGsn.resolveGsn env.metaspace v.glq with
  | error e => simp [resolveGsn, hp.toString, hne, hv, hlen, hglq, hhost]
  | ok host =>
    cases hnode : nodeNamed table host <;>
      simp [resolveGsn, hp.toString, hne, hv, hlen, hglq, hhost, node?_findHost, hnode]

/-- What one node does with a request that names a next host. -/
theorem resolveGsn_outcome (env : Surroundings V6) (left : Leftover) {u : NetspaceUrl}
    {route : List Text} {packet : DvspPacket} (hc : Carries u route packet)
    (hlen : 2 ≤ route.length) {table : NetspaceTable V6} (htable : Ipv4Table table) :
    ∃ reply, resolveGsn env left packet table = .ok reply ∧
      (Refused table route reply ∨ Arrived table route reply ∨
        Forwarded table u route packet reply) := by
  obtain ⟨v,hv,hgsn,hglq,hres,hspq⟩ := hc.decoded
  subst route
  obtain ⟨host,hhost⟩ : ∃ host, v.gsn.dropLast.getLast? = some host := by
    apply Option.ne_none_iff_exists'.mp
    rw [ne_eq, List.getLast?_eq_none_iff]
    exact NetspaceUrl.dropLast_gsn_ne_nil hlen
  rw [resolveGsn_route env left hc.wellFormed hv hhost]
  cases hnode : nodeNamed table host with
  | none =>
    refine ⟨responsePacket .netspaceError,response_eq _,.inl ⟨?_,rfl⟩⟩
    intro m hm heq
    rw [hhost, Option.some.injEq] at heq
    have := List.find?_eq_none.mp hnode m hm
    simp [heq] at this
  | some node =>
    obtain ⟨a,ha⟩ := htable node (List.mem_of_find?_eq_some hnode)
    by_cases htwo : v.gsn.length = 2
    · obtain ⟨reply,hreply,hgives⟩ := addressReply_eq packet ha
      refine ⟨reply,by simp only [if_pos htwo, hreply],.inr (.inl ⟨htwo,host,node,?_,hnode,hgives⟩)⟩
      match hg : v.gsn, htwo with
      | [s₁,s₂], _ =>
        rw [hg] at hhost
        simpa using hhost
    · obtain ⟨reply,hreply,hwf,htype,hpart,horig,hdest,w,hw,hwgsn,hwglq,hwres,hwspq⟩ :=
        forwardRequest_eq hc.wellFormed hv (by omega) ha
      refine ⟨reply,by simp only [if_neg htwo, hreply],.inr (.inr ⟨by omega,⟨hwf,?_,w,hw,hwgsn,?_,?_,?_⟩,
        hpart,horig,host,node,a,hhost,hnode,ha,hdest⟩)⟩
      · rw [htype, hc.type_eq]
      · rw [hwglq, hglq]
      · rw [hwres, hres]
      · rw [hwspq, hspq]

structure Hop (V6 : Type) where
  env : Surroundings V6
  left : Leftover
  addr : NetspaceAddr V6
  table : NetspaceTable V6

variable [DecidableEq V6]

def Hop.answer (hop : Hop V6) (packet : DvspPacket) : Call DvspPacket :=
  (processPacket hop.env hop.left packet hop.addr hop.table).1

/-- `packet` becomes `reply` when it is forwarded by the first `k` of the nodes. -/
inductive Forwards (hops : Nat → Hop V6) (packet : DvspPacket) : Nat → DvspPacket → Prop where
  | start : Forwards hops packet 0 packet
  | hop {k : Nat} {q r : DvspPacket} : Forwards hops packet k q → (hops k).answer q = .ok r →
      r.header.type = .gsnResolution → Forwards hops packet (k + 1) r

theorem Hop.answer_forwarded (hop : Hop V6) (htable : Ipv4Table hop.table) {u : NetspaceUrl}
    {route : List Text} {packet r : DvspPacket} (hc : Carries u route packet)
    (hlen : 2 ≤ route.length) (hr : hop.answer packet = .ok r)
    (htype : r.header.type = .gsnResolution) : Forwarded hop.table u route packet r := by
  obtain ⟨reply,hreply,hout⟩ := resolveGsn_outcome hop.env hop.left hc hlen htable
  rw [answer, processPacket_resolution hop.env hop.left hc.type_eq, hreply] at hr
  obtain rfl : reply = r := by simpa using hr
  have hresponse : DvspMsgtype.gsnResponse ≠ .gsnResolution := by decide
  rcases hout with hout | hout | hout
  · rw [hout.reply_eq] at htype
    exact absurd htype hresponse
  · obtain ⟨_,_,_,_,hgives⟩ := hout.address
    exact absurd (hgives.type_eq.symm.trans htype) hresponse
  · exact hout

/-- After `k` forwards `k` segments are gone, and two are left at least. -/
theorem Forwards.carries {hops : Nat → Hop V6} (htables : ∀ i, Ipv4Table (hops i).table)
    {u : NetspaceUrl} {route : List Text} {packet r : DvspPacket} {k : Nat}
    (hc : Carries u route packet) (hlen : 2 ≤ route.length) (h : Forwards hops packet k r) :
    k + 2 ≤ route.length ∧ Carries u (route.take (route.length - k)) r := by
  induction h with
  | start => exact ⟨by omega,by simpa using hc⟩
  | @hop k q r _ hr htype ih =>
    obtain ⟨hk,hq⟩ := ih
    have htake : (route.take (route.length - k)).length = route.length - k := by
      rw [List.length_take]
      omega
    have hout := (hops k).answer_forwarded (htables k) hq (by omega) hr htype
    have hthree := hout.length_le
    have hdrop : (route.take (route.length - k)).dropLast =
        route.take (route.length - (k + 1)) := by
      rw [List.dropLast_eq_take, htake, List.take_take]
      congr 1
      omega
    exact ⟨by omega,hdrop ▸ hout.carries⟩

end Chain

def twoHopRequest : DvspPacket := packetOf .gsnResolution (ascii "spring://b.a")

end GsnNode
