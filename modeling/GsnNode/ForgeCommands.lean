import GsnNode.ForgeExchange
import GsnNode.RegistrationText

/-! Which commands of the forge client come back, and what a registration looks like from
other clients. -/

set_option autoImplicit false

namespace GsnNode
namespace Forge
open ByteWords MemoryRegion ProtocolHandler KeyedList

section Replies
variable {V6 : Type} [DecidableEq V6] (env : Surroundings V6) (left : Leftover)
  {packet reply : DvspPacket} {addr : NetspaceAddr V6} {table : NetspaceTable V6}

theorem sentContent_response (code : DvspRcode) :
    sentContent (responsePacket code) = code.bytes := by
  simp [sentContent, responsePacket, DvspPacket.bytes]

theorem register_reply (htype : packet.header.type = .gsnRegisterHost)
    (h : (processPacket env left packet addr table).1 = .ok reply) :
    ∃ code, reply = responsePacket code := by
  rw [processPacket_register env left htype] at h
  rcases registerHost_cases env left packet addr table with
    ⟨st,hostname,suid,-,-,-,heq⟩ | ⟨st,hostname,suid,-,-,heq⟩ | ⟨bs,-,-,heq⟩ | ⟨e,-,heq⟩
  · exact ⟨.ok,(Except.ok.inj ((congrArg Prod.fst heq).symm.trans h)).symm⟩
  · exact ⟨.netspaceDuplicate,(Except.ok.inj ((congrArg Prod.fst heq).symm.trans h)).symm⟩
  · exact ⟨.malformedContent,(Except.ok.inj ((congrArg Prod.fst heq).symm.trans h)).symm⟩
  · rw [heq] at h
    contradiction

theorem unregister_reply (htype : packet.header.type = .gsnUnregisterHost) :
    ∃ code, (processPacket env left packet addr table).1 = .ok (responsePacket code) := by
  rw [processPacket_unregister env left htype]
  rcases unregisterHost_cases env addr table with ⟨before,n,after,-,-,-,heq⟩ | ⟨-,heq⟩
  · exact ⟨.ok,by rw [heq]⟩
  · exact ⟨.netspaceError,by rw [heq]⟩

theorem localArea_reply (packet : DvspPacket) (addr : NetspaceAddr V6) (table : NetspaceTable V6)
    (htype : packet.header.type = .gsnLocalArea) :
    ∃ reply, (processPacket env left packet addr table).1 = .ok reply ∧
      sentContent reply = sentText (constructFrameNetwork env.asio (nodesOf .org table)) := by
  obtain ⟨reply,hreply,hsent⟩ := listingReply_sent env packet (nodesOf .org table)
  refine ⟨reply,?_,?_⟩
  · rw [processPacket_localArea env left htype, localGsn, hreply]
  · rw [hsent, sentText, UInt32.toNat_ofNat']

end Replies

/-! ### The commands one by one -/

section Commands
variable {V6 : Type} [DecidableEq V6] (env : Surroundings V6) (orig dest client : NetspaceIpv4)
  (content : Text) (proto : ServiceProtocol) (table : NetspaceTable V6)

/-- The command comes back with its output, and not with what is in memory. -/
def Returns (type : DvspMsgtype) (target : NetspaceAddr V6) : Prop :=
  ∀ m, ∃ out, (runForge env m type target content proto orig client table).1 = .ok out

theorem answeredWithin_code {type : DvspMsgtype} {request : DvspPacket}
    (hview : ViewWithin type = ResponseWithin)
    (h : ∀ left, ∃ code, (processPacket env left request (.v4 client) table).1 =
      .ok (responsePacket code)) : AnsweredWithin env type request client table := by
  intro left
  obtain ⟨code,hcode⟩ := h left
  refine ⟨_,hcode,?_,?_⟩
  · rw [sentContent_response, code.bytes_length]
    decide
  · rw [hview, sentContent_response, ResponseWithin, code.bytes_length]
    exact le_rfl

theorem returns_register :
    Returns env orig client content proto table .gsnRegisterHost (.v4 dest) ↔
      content.length ≤ 125 := by
  rw [Returns, runForge_returns_iff env (.inl rfl)]
  constructor
  · intro h
    obtain ⟨data,hdata,-⟩ := h default
    by_contra hlong
    simp only [payload, if_true, constructFrameRegister, if_neg hlong, undefined, error_bind] at hdata
    contradiction
  · intro hshort array
    obtain ⟨frame,hframe,-⟩ := constructFrameRegister_ok array .org proto hshort
    have hlen : frame.bytes.length = FrameRegister.sizeOf := frame.bytes_length
    have hsent : sentText frame.bytes = frame.bytes := sentText_of_lt (by rw [hlen]; decide)
    refine ⟨frame.bytes,by simp only [payload, if_true, hframe, ok_bind, pure_eq_ok],?_,?_⟩
    · rw [hsent, hlen]
      decide
    · refine answeredWithin_code env client table rfl fun left => ?_
      have hbytes : (wirePacket .gsnRegisterHost orig dest frame.bytes).bytes = frame.bytes := by
        rw [wirePacket_bytes, hsent]
      obtain ⟨reply,hreply⟩ := registerHost_ok left env
        (wirePacket_wellFormed .gsnRegisterHost orig dest frame.bytes)
        (constructFrameRegister_readable hframe hbytes) (.v4 client) table
      rw [← processPacket_register env left rfl] at hreply
      obtain ⟨code,rfl⟩ := register_reply env left rfl hreply
      exact ⟨code,hreply⟩

theorem returns_unregister :
    Returns env orig client content proto table .gsnUnregisterHost (.v4 dest) := by
  refine (runForge_returns_iff env (.inr (.inl rfl)) orig client dest content proto table).mpr
    fun array => ⟨[],rfl,by decide,?_⟩
  exact answeredWithin_code env client table rfl fun left => unregister_reply env left rfl

theorem returns_localArea :
    Returns env orig client content proto table .gsnLocalArea (.v4 dest) ↔
      FrameResponseCode.sizeOf ≤
          (sentText (constructFrameNetwork env.asio (nodesOf .org table))).length ∧
        (sentText (constructFrameNetwork env.asio (nodesOf .org table))).length ≤
          bufSize - DvspHeader.sizeOf := by
  have hpayload : ∀ array, payload env.asio array .gsnLocalArea content proto = .ok [] :=
    fun _ => rfl
  rw [Returns, runForge_returns_iff env (.inr (.inr (.inl rfl)))]
  simp only [hpayload, Except.ok.injEq, exists_eq_left', forall_const]
  constructor
  · intro h
    obtain ⟨reply,hreply,hfits,hview⟩ := h.2 unmapped
    obtain ⟨reply',hreply',hsent⟩ := localArea_reply env unmapped
      (wirePacket .gsnLocalArea orig dest []) (.v4 client) table rfl
    obtain rfl := Except.ok.inj (hreply.symm.trans hreply')
    rw [hsent] at hfits hview
    exact ⟨hview,hfits⟩
  · intro h
    refine ⟨by decide,fun left => ?_⟩
    obtain ⟨reply,hreply,hsent⟩ := localArea_reply env left
      (wirePacket .gsnLocalArea orig dest []) (.v4 client) table rfl
    exact ⟨reply,hreply,by rw [hsent]; exact h.2,by rw [hsent]; exact h.1⟩

theorem hostnameWithin_code (code : DvspRcode) : ¬ HostnameWithin code.bytes := by
  intro h
  have hlen := h.1
  rw [code.bytes_length] at hlen
  exact absurd hlen (by decide)

theorem sentContent_wellFormed {p : DvspPacket} (hp : p.WellFormed) : sentContent p = p.bytes := by
  rw [sentContent, ← hp.size_eq, List.take_length]

theorem hostnameWithin_frame {fh : FrameHostname} {hostname : Text}
    (hlen : charValue fh.len = hostname.length) (hshort : hostname.length ≤ 125) :
    HostnameWithin fh.bytes := by
  have hbytes := fh.bytes_length
  refine ⟨hbytes.ge,fun _ => ?_⟩
  rw [List.take_of_length_le hbytes.le, fh.ofBytes_bytes, hlen]
  omega

theorem answeredWithin_hostname (hinbound : Inbound table) (a : NetspaceIpv4) :
    AnsweredWithin env .gsnHostname (wirePacket .gsnHostname orig dest a.data) client table ↔
      ∃ n, table.find? (fun v => v.addr = .v4 a) = some n ∧ n.hostname.length ≤ 125 := by
  have hlen : a.data.length = 4 := a.size_eq
  have hbytes : (wirePacket .gsnHostname orig dest a.data).bytes = a.data := by
    rw [wirePacket_bytes, sentText_of_lt (by omega)]
  have hread := fun left => hostname_read left
    (wirePacket_wellFormed .gsnHostname orig dest a.data) (by rw [hbytes, hlen]) table
  rw [hbytes, List.take_of_length_le hlen.le, Block.ofList_data] at hread
  have htype : (wirePacket .gsnHostname orig dest a.data).header.type = .gsnHostname := rfl
  have hprocess := fun left => congrArg Prod.fst
    (processPacket_hostname env left htype (.v4 client) table)
  have hasks : AsksFor (wirePacket .gsnHostname orig dest a.data) a :=
    ⟨wirePacket_wellFormed _ _ _ _,rfl,by rw [hbytes, List.take_of_length_le hlen.le]⟩
  cases hfind : table.find? fun v => v.addr = .v4 a with
  | none =>
    refine iff_of_false (fun h => ?_) (by simp)
    obtain ⟨reply,hreply,-,hview⟩ := h unmapped
    rw [hprocess, hostname_unknown unmapped (hread unmapped).1 ((hread unmapped).2.trans hfind),
      response_eq] at hreply
    obtain rfl := Except.ok.inj hreply
    rw [sentContent_response] at hview
    exact hostnameWithin_code _ hview
  | some node =>
    simp only [Option.some.injEq, exists_eq_left']
    have hnode := fun left => (hread left).2.trans hfind
    by_cases hshort : node.hostname.length ≤ 125
    · refine iff_of_true (fun left => ?_) hshort
      obtain ⟨reply,hreply,hcarries⟩ := hostname_reply (hnode unmapped) hshort env left hasks
        (.v4 client)
      obtain ⟨fh,hfh,-,-,hchar,-⟩ := hcarries.frame
      refine ⟨reply,congrArg Prod.fst hreply,?_,?_⟩
      · rw [sentContent_wellFormed hcarries.wellFormed, hfh, fh.bytes_length]
        decide
      · rw [sentContent_wellFormed hcarries.wellFormed, hfh]
        exact hostnameWithin_frame hchar hshort
    · refine iff_of_false (fun h => ?_) hshort
      obtain ⟨reply,hreply,-⟩ := h unmapped
      have hlt := (hinbound node (List.mem_of_find?_eq_some hfind)).2
      rw [hprocess, hostname_known unmapped (hread unmapped).1 (hnode unmapped),
        constructFrameHostname_overrun _ _ (by omega) hlt] at hreply
      contradiction

theorem returns_hostname (hinbound : Inbound table) :
    Returns env orig client content proto table .gsnHostname (.v4 dest) ↔
      ∃ a n, NetspaceAddr.fromString env.asio content = .ok (.v4 a) ∧
        table.find? (fun v => v.addr = .v4 a) = some n ∧ n.hostname.length ≤ 125 := by
  have hpayload : ∀ array, payload env.asio array .gsnHostname content proto = (do
      let named ← NetspaceAddr.fromString env.asio content
      let addr ← named.toV4
      pure addr.data) := fun _ => rfl
  rw [Returns, runForge_returns_iff env (.inr (.inr (.inr (.inl rfl))))]
  simp only [hpayload, forall_const]
  constructor
  · intro h
    obtain ⟨data,hdata,-,hanswered⟩ := h
    obtain ⟨named,hnamed,hdata⟩ := bind_eq_ok.mp hdata
    obtain ⟨a,ha,hdata⟩ := bind_eq_ok.mp hdata
    obtain rfl := Except.ok.inj hdata
    obtain ⟨n,hn⟩ := (answeredWithin_hostname env orig dest client table hinbound a).mp hanswered
    cases named with
    | v4 b =>
      obtain rfl := Except.ok.inj ha
      exact ⟨b,n,hnamed,hn⟩
    | v6 b => contradiction
  · intro h
    obtain ⟨a,n,hnamed,hn⟩ := h
    refine ⟨a.data,?_,?_,(answeredWithin_hostname env orig dest client table hinbound a).mpr ⟨n,hn⟩⟩
    · rw [hnamed]
      rfl
    · rw [sentText_of_lt (by rw [a.size_eq]; decide), a.size_eq]
      decide

/-- Every host that is asked replies, and the joined replies are what the client can print. -/
def RequestReturns : Prop :=
  DvspHeader.sizeOf + (sentText content).length ≤ recvSize ∧
    ∃ u front, NetspaceUrl.decode (sentText content) = .ok u ∧
      HostsReply env (wirePacket .gsnRequest orig dest content) u table ∧
      u.gsn.head? = some front ∧
        (sentText (joinedAnswers env (wirePacket .gsnRequest orig dest content) front u.spq
          table)).length ≤ bufSize - DvspHeader.sizeOf ∧
        NetworkWithin (sentText (joinedAnswers env (wirePacket .gsnRequest orig dest content) front
          u.spq table))

theorem sentContent_strContent {header : DvspHeader} {text : Text} {reply : DvspPacket}
    (h : DvspPacket.strContent ⟨header,.null⟩ text = .ok reply) :
    sentContent reply = sentText text := by
  obtain rfl := Except.ok.inj h
  rw [sentContent, DvspPacket.bytes_ite]
  rfl

theorem answeredWithin_request (htable : Ipv4Table table) :
    AnsweredWithin env .gsnRequest (wirePacket .gsnRequest orig dest content) client table ↔
      ∃ u front, NetspaceUrl.decode (sentText content) = .ok u ∧
        HostsReply env (wirePacket .gsnRequest orig dest content) u table ∧
        u.gsn.head? = some front ∧
          (sentText (joinedAnswers env (wirePacket .gsnRequest orig dest content) front u.spq
            table)).length ≤ bufSize - DvspHeader.sizeOf ∧
          NetworkWithin (sentText (joinedAnswers env (wirePacket .gsnRequest orig dest content) front
            u.spq table)) := by
  have hp := wirePacket_wellFormed .gsnRequest orig dest content
  have hbytes := wirePacket_bytes .gsnRequest orig dest content
  have htype : (wirePacket .gsnRequest orig dest content).header.type = .gsnRequest := rfl
  have hprocess := fun left => congrArg Prod.fst
    (processPacket_request env left htype (.v4 client) table)
  simp only [AnsweredWithin, hprocess]
  rw [← hbytes]
  constructor
  · intro h
    obtain ⟨u,hu,hhosts⟩ := (query_answered env hp htable).mp fun left => by
      obtain ⟨reply,hreply,-⟩ := h left
      exact ⟨reply,hreply⟩
    obtain ⟨-,-,-,hgsn,-⟩ := NetspaceUrl.decode_ok hu
    obtain ⟨front,rest,hroute⟩ := List.exists_cons_of_ne_nil hgsn
    have hfront : u.gsn.head? = some front := by rw [hroute]; rfl
    obtain ⟨reply,hreply,hfits,hview⟩ := h unmapped
    rw [query_reply env unmapped hp hu hfront htable hhosts] at hreply
    rw [sentContent_strContent hreply] at hfits hview
    exact ⟨u,front,hu,hhosts,hfront,hfits,hview⟩
  · intro h left
    obtain ⟨u,front,hu,hhosts,hfront,hfits,hview⟩ := h
    refine ⟨_,query_reply env left hp hu hfront htable hhosts,?_⟩
    rw [sentContent_strContent rfl]
    exact ⟨hfits,hview⟩

theorem returns_request (htable : Ipv4Table table) :
    Returns env orig client content proto table .gsnRequest (.v4 dest) ↔
      RequestReturns env orig dest content table := by
  have hpayload : ∀ array, payload env.asio array .gsnRequest content proto = .ok content :=
    fun _ => rfl
  rw [Returns, runForge_returns_iff env (.inr (.inr (.inr (.inr rfl))))]
  simp only [hpayload, Except.ok.injEq, exists_eq_left', forall_const,
    answeredWithin_request env orig dest client content table htable]
  rfl

/-- What each command needs. -/
structure Returnable (type : DvspMsgtype) (target : NetspaceAddr V6) : Prop where
  ipv4 : Implemented type → ∃ dest, target = .v4 dest
  register : type = .gsnRegisterHost → content.length ≤ 125
  localArea : type = .gsnLocalArea →
    FrameResponseCode.sizeOf ≤
        (sentText (constructFrameNetwork env.asio (nodesOf .org table))).length ∧
      (sentText (constructFrameNetwork env.asio (nodesOf .org table))).length ≤
        bufSize - DvspHeader.sizeOf
  hostname : type = .gsnHostname → ∃ a n, NetspaceAddr.fromString env.asio content = .ok (.v4 a) ∧
    table.find? (fun v => v.addr = .v4 a) = some n ∧ n.hostname.length ≤ 125
  request : type = .gsnRequest → ∀ dest, target = .v4 dest →
    RequestReturns env orig dest content table

theorem returnable_unimplemented {type : DvspMsgtype} (h : ¬ Implemented type)
    (target : NetspaceAddr V6) : Returnable env orig content table type target := by
  refine ⟨fun himp => absurd himp h,?_,?_,?_,?_⟩ <;> intro htype <;> subst htype <;>
    exact absurd (by simp [Implemented]) h

theorem returns_unimplemented {type : DvspMsgtype} (h : ¬ Implemented type)
    (target : NetspaceAddr V6) : Returns env orig client content proto table type target := by
  intro m
  refine ⟨ascii "Unimplemented frame" ++ endl,?_⟩
  simp only [runForge, runForge_unimplemented env.asio m.registerArray h]
  rfl

theorem not_returns_ipv6 {type : DvspMsgtype} (h : Implemented type) (a : V6) :
    ¬ Returns env orig client content proto table type (.v6 a) := by
  intro hreturns
  obtain ⟨out,hout⟩ := hreturns (bareMemory default unmapped)
  obtain ⟨view,-,hview⟩ := runForge_implemented env.asio
    (bareMemory default unmapped).registerArray h (.v6 a) content proto
  simp only [runForge, hview, NetspaceAddr.toV4, throws, error_bind, Handler.bind_apply,
    Handler.call_apply] at hout
  contradiction

/-- A command of the client comes back with an output exactly if its request and the reply fit
the buffers that they are received into, the node has an answer, and the view finds in the
answer what it reads. -/
theorem forge_returns_iff (type : DvspMsgtype) (target : NetspaceAddr V6)
    (htable : Reachable table) :
    Returns env orig client content proto table type target ↔
      Returnable env orig content table type target := by
  have hinbound := htable.inbound
  have hv4 : Ipv4Table table := fun n hn => (hinbound n hn).1
  by_cases himp : Implemented type
  · cases target with
    | v6 a =>
      refine iff_of_false (not_returns_ipv6 env orig client content proto table himp a) fun h => ?_
      obtain ⟨dest,hdest⟩ := h.ipv4 himp
      contradiction
    | v4 dest =>
      have hdest : Implemented type → ∃ d, NetspaceAddr.v4 dest = (.v4 d : NetspaceAddr V6) :=
        fun _ => ⟨dest,rfl⟩
      rcases himp with rfl | rfl | rfl | rfl | rfl
      · rw [returns_register]
        refine ⟨fun h => ⟨hdest,fun _ => h,?_,?_,?_⟩,fun h => h.register rfl⟩ <;>
          exact fun hother => absurd hother (by decide)
      · refine iff_of_true (returns_unregister env orig dest client content proto table)
          ⟨hdest,?_,?_,?_,?_⟩ <;> exact fun hother => absurd hother (by decide)
      · rw [returns_localArea]
        refine ⟨fun h => ⟨hdest,?_,fun _ => h,?_,?_⟩,fun h => h.localArea rfl⟩ <;>
          exact fun hother => absurd hother (by decide)
      · rw [returns_hostname env orig dest client content proto table hinbound]
        refine ⟨fun h => ⟨hdest,?_,?_,fun _ => h,?_⟩,fun h => h.hostname rfl⟩ <;>
          exact fun hother => absurd hother (by decide)
      · rw [returns_request env orig dest client content proto table hv4]
        refine ⟨fun h => ⟨hdest,?_,?_,?_,fun _ d hd => ?_⟩,fun h => h.request rfl dest rfl⟩
        · exact fun hother => absurd hother (by decide)
        · exact fun hother => absurd hother (by decide)
        · exact fun hother => absurd hother (by decide)
        · rwa [← NetspaceAddr.v4.inj hd]
  · exact iff_of_true (returns_unimplemented env orig client content proto table himp target)
      (returnable_unimplemented env orig content table himp target)

end Commands

/-- The listing of one organisation is shown. A node without any organisation sends a listing
without any code. -/
theorem forge_returns_iff_listing :
    Returns isolated localhostIpv4 localhostIpv4 [] .dvsp
        (runCalls [registerFrom localhost (ascii "b|a")] []) .gsnLocalArea (.v4 localhostIpv4) ∧
      ¬ Returns isolated localhostIpv4 localhostIpv4 [] .dvsp [] .gsnLocalArea
        (.v4 localhostIpv4) := by
  constructor
  · have hreachable : Reachable (runCalls [registerFrom localhost (ascii "b|a")] []) :=
      ⟨_,by simp [registerFrom, localhost],rfl⟩
    refine (forge_returns_iff isolated localhostIpv4 localhostIpv4 [] .dvsp _ .gsnLocalArea
      (.v4 localhostIpv4) hreachable).mpr ⟨fun _ => ⟨_,rfl⟩,?_,fun _ => ?_,?_,?_⟩
    · exact fun hother => absurd hother (by decide)
    · exact ⟨by decide +kernel,by decide +kernel⟩
    · exact fun hother => absurd hother (by decide)
    · exact fun hother => absurd hother (by decide)
  · rw [forge_returns_iff isolated localhostIpv4 localhostIpv4 [] .dvsp [] .gsnLocalArea
      (.v4 localhostIpv4) reachable_nil]
    intro h
    exact absurd (h.localArea rfl).1 (by decide +kernel)

/-! ### The code in the output -/

section Output
variable {V6 : Type} [DecidableEq V6] (env : Surroundings V6) (m : ExchangeMemory)

end Output

end Forge
end GsnNode
