import GsnNode.RootNode

/-! What ends the root node: an answer is always sent, so it is only a packet without
an answer. -/

set_option autoImplicit false

namespace GsnNode
open ByteWords MemoryRegion ProtocolHandler

/-- Serialising the packet neither throws nor reads what is not there. -/
def DvspPacket.Sendable (p : DvspPacket) : Prop :=
  ∀ beyond, ∃ serial, p.serialise beyond = .ok serial

theorem sendable_reset {header : DvspHeader} {data : List UInt8} {p : DvspPacket}
    (h : DvspPacket.reset ⟨header,.null⟩ data = .ok p) : p.Sendable := by
  intro beyond
  obtain ⟨out,hout,serial,hserial⟩ := strContent_new header data beyond
  obtain rfl : out = p := Except.ok.inj (hout.symm.trans h)
  exact ⟨serial,hserial⟩

theorem DvspPacket.Sendable.addrDest {p : DvspPacket} (h : p.Sendable) (a : NetspaceIpv4) :
    DvspPacket.Sendable { p with header.addrDest := a } := by
  intro beyond
  obtain ⟨serial,hserial⟩ := h beyond
  unfold DvspPacket.serialise at hserial ⊢
  split at hserial
  · contradiction
  · rename_i hcontent
    obtain ⟨bs,hbs,-⟩ := bind_eq_ok.mp hserial
    rw [if_neg hcontent]
    exact ⟨_,bind_eq_ok.mpr ⟨bs,hbs,rfl⟩⟩

theorem unwinding_ok {α : Type} {packet : DvspPacket} {r : Call α} {a : α}
    (h : unwinding packet r = .ok a) : r = .ok a := by
  match r with
  | .ok a => exact h
  | .error (.throws e) =>
    obtain ⟨u,-,hthrows⟩ := bind_eq_ok.mp h
    contradiction
  | .error .terminates => contradiction
  | .error .hangs => contradiction
  | .error .undefined => contradiction

section Replies
variable {V6 : Type} (env : Surroundings V6) (left : Leftover) {packet reply : DvspPacket}
  {table : NetspaceTable V6}

theorem response_sendable {code : DvspRcode} (h : response code = .ok reply) : reply.Sendable :=
  sendable_reset h

theorem addressReply_sendable {node : NetspaceNode V6} (h : addressReply packet node = .ok reply) :
    reply.Sendable := by
  obtain ⟨frame,-,hreply⟩ := bind_eq_ok.mp h
  exact sendable_reset hreply

theorem forwardRequest_sendable {url : NetspaceUrl} {node : NetspaceNode V6}
    (h : forwardRequest packet url node = .ok reply) : reply.Sendable := by
  obtain ⟨text,-,h⟩ := bind_eq_ok.mp h
  obtain ⟨p,hp,h⟩ := bind_eq_ok.mp h
  obtain ⟨a,-,h⟩ := bind_eq_ok.mp h
  obtain rfl : _ = reply := Except.ok.inj h
  exact (sendable_reset hp).addrDest a

theorem resolveGsn_sendable (h : resolveGsn env left packet table = .ok reply) :
    reply.Sendable := by
  obtain ⟨text,-,h⟩ := bind_eq_ok.mp h
  obtain ⟨url,-,h⟩ := bind_eq_ok.mp h
  simp only at h
  split at h
  · obtain ⟨host,-,h⟩ := bind_eq_ok.mp h
    split at h
    · exact response_sendable h
    · exact addressReply_sendable h
  · split at h
    · contradiction
    · split at h
      · exact response_sendable h
      · split at h
        · exact addressReply_sendable h
        · exact forwardRequest_sendable h

theorem query_sendable (h : query env left packet table = .ok reply) : reply.Sendable := by
  obtain ⟨copy,-,h⟩ := bind_eq_ok.mp h
  obtain ⟨text,-,h⟩ := bind_eq_ok.mp (unwinding_ok h)
  obtain ⟨url,-,h⟩ := bind_eq_ok.mp h
  split at h
  · contradiction
  · obtain ⟨ss,-,h⟩ := bind_eq_ok.mp h
    obtain ⟨out,hout,h⟩ := bind_eq_ok.mp h
    obtain ⟨serial,-,h⟩ := bind_eq_ok.mp h
    obtain ⟨u,-,h⟩ := bind_eq_ok.mp h
    obtain rfl : out = reply := Except.ok.inj h
    exact sendable_reset hout

theorem registerHost_sendable {addr : NetspaceAddr V6}
    (h : (registerHost env left packet addr table).1 = .ok reply) : reply.Sendable := by
  have hresponse := fun code => response_sendable (response_eq code)
  rcases registerHost_cases env left packet addr table with
    ⟨st,hostname,suid,-,-,-,heq⟩ | ⟨st,hostname,suid,-,-,heq⟩ | ⟨bs,-,-,heq⟩ | ⟨e,-,heq⟩
  · rw [heq] at h
    exact Except.ok.inj h ▸ hresponse .ok
  · rw [heq] at h
    exact Except.ok.inj h ▸ hresponse .netspaceDuplicate
  · rw [heq] at h
    exact Except.ok.inj h ▸ hresponse .malformedContent
  · rw [heq] at h
    contradiction

variable [DecidableEq V6]

theorem hostname_sendable (h : hostname left packet table = .ok reply) : reply.Sendable := by
  obtain ⟨bs,-,h⟩ := bind_eq_ok.mp h
  split at h
  · exact response_sendable h
  · obtain ⟨fh,-,h⟩ := bind_eq_ok.mp h
    exact sendable_reset h

theorem unregisterHost_sendable {addr : NetspaceAddr V6}
    (h : (unregisterHost env addr table).1 = .ok reply) : reply.Sendable := by
  have hresponse := fun code => response_sendable (response_eq code)
  rcases unregisterHost_cases env addr table with ⟨before,n,after,-,-,-,heq⟩ | ⟨-,heq⟩
  · rw [heq] at h
    exact Except.ok.inj h ▸ hresponse .ok
  · rw [heq] at h
    exact Except.ok.inj h ▸ hresponse .netspaceError

/-- Every reply of the node can be sent. -/
theorem processPacket_sendable {addr : NetspaceAddr V6}
    (h : (processPacket env left packet addr table).1 = .ok reply) : reply.Sendable := by
  unfold processPacket at h
  split_ifs at h
  · exact registerHost_sendable env left h
  · exact unregisterHost_sendable env h
  · exact resolveGsn_sendable env left h
  · exact sendable_reset h
  · exact sendable_reset h
  · exact hostname_sendable left h
  · exact query_sendable env left h
  · exact response_sendable h

end Replies

/-! ### What ends the loop -/

theorem datagramPacket_wellFormed {b : List UInt8} (h : WholePacket b) :
    (datagramPacket b).WellFormed := by
  obtain ⟨hheader,hcontent⟩ := h
  rw [datagramPacket]
  by_cases hsize : (DvspHeader.ofBytes (b.take DvspHeader.sizeOf)).size = 0
  · simp only [if_pos hsize]
    exact ⟨by simp,by simp [DvspPacket.bytes, hsize]⟩
  · simp only [if_neg hsize]
    refine ⟨by simp,?_⟩
    simp only [DvspPacket.bytes, List.length_take, List.length_drop]
    omega

namespace RootNode
variable {V6 : Type} [DecidableEq V6]

/-- Replies leave at once, and the memory behind two digits does not spoil their byte. -/
structure Kind (c : Circumstances) : Prop where
  ready : c.ready = true
  kept : ∀ i b, KeepsByte (c.memory.behindPair i) b

/-- The event brings a whole packet, over either transport. -/
inductive Brings (b : List UInt8) (addr : NetspaceIpv4) (env : Surroundings V6) : Event V6 → Prop where
  | datagram : WholePacket b → Brings b addr env (.datagram b addr env)
  | characters {session : Nat} {head body rest : Text} : WholePacket b → nul ∉ head →
      ¬ blankLine <:+: head → ¬ HttpFrame.crlf <:+ head → HexText body b →
        Brings b addr env (.characters session (hexChunk head body rest) (some addr) env)

theorem perform_returns {env : Surroundings V6} {left : Leftover} {packet : DvspPacket}
    {addr : NetspaceAddr V6} {table : NetspaceTable V6} :
    (∃ r, perform (answer env left packet addr) table = .ok r) ↔
      ∃ reply, (processPacket env left packet addr table).1 = .ok reply := by
  have hcall := @perform_answer _ _ ⟨env,left,packet,addr⟩ table
  constructor
  · intro h
    obtain ⟨r,hr⟩ := h
    obtain ⟨reply,hreply,-,-⟩ := hcall.mp hr
    exact ⟨reply,hreply⟩
  · intro h
    obtain ⟨reply,hreply⟩ := h
    obtain ⟨serial,hserial⟩ := processPacket_sendable env left hreply left.afterContent
    exact ⟨(serial,_),hcall.mpr ⟨reply,hreply,hserial,rfl⟩⟩

/-- A handler that gets a whole packet returns if the packet is answered. -/
theorem handle_returns {b : List UInt8} {addr : NetspaceIpv4} {env : Surroundings V6}
    {event : Event V6} (hbrings : Brings b addr env event) {node : RootNode V6}
    (henabled : node.Enabled event) {c : Circumstances} (hkind : Kind c) :
    (∃ r, handle c node event = .ok r) ↔
      ∃ reply, (processPacket env c.left (datagramPacket b) (.v4 addr) node.table).1 = .ok reply := by
  rw [← perform_returns]
  cases hbrings with
  | datagram hb =>
    have hreceive : receive env c.left (received b node.mRecv.data c.beyond) (.v4 addr) =
        answer env c.left (datagramPacket b) (.v4 addr) := by
      rw [receive_eq, deserialise_whole hb]
      rfl
    simp only [handle, hreceive, hkind.ready, if_true]
    cases perform (answer env c.left (datagramPacket b) (.v4 addr)) node.table <;> simp
  | characters hb hnul hblank hend hhex =>
    have hpacket := requestPacket_whole (httpToBin_hexChunk hnul hblank hend hhex
      (henabled.2.2.trans (by decide)) (fun i _ => hkind.kept i _) c.mData.data c.beyond) hb
    simp only [handle, hpacket, mapError_eq_ok.mpr rfl, ok_bind, hkind.ready, if_true]
    cases perform (answer env c.left (datagramPacket b) (.v4 addr)) node.table <;> simp

theorem runs_reachable {mRecv : Block recvSize} {events : List (Event V6 × Circumstances)}
    {sent : List Sent} {now : RootNode V6} (h : Runs (start mRecv) events sent now) :
    Reachable now.table := by
  induction h with
  | start => exact reachable_nil
  | step hruns henabled hhandle ih =>
    rcases handle_cases hhandle with ⟨hquiet,rfl,rfl⟩ | ⟨s,reply,m,-,rfl,htakes,hanswers,-⟩
    · rename_i now event c
      have htable : (advance now event).table = now.table := by cases event <;> rfl
      rwa [htable]
    · obtain ⟨calls,hcalls,htable⟩ := ih
      refine ⟨calls ++ [s.call],?_,?_⟩
      · intro call hcall
        rcases List.mem_append.mp hcall with hcall | hcall
        · exact hcalls call hcall
        · rw [List.mem_singleton.mp hcall]
          cases htakes <;> exact ⟨_,rfl⟩
      · rw [runCalls_snoc, htable, hanswers.table_eq]

theorem survives_iff {now : RootNode V6} (htable : Inbound now.table) {b : List UInt8}
    {addr : NetspaceIpv4} {env : Surroundings V6} {event : Event V6}
    (hbrings : Brings b addr env event) (henabled : now.Enabled event) :
    (∀ c, Kind c → ∃ r, handle c now event = .ok r) ↔
      Answerable env (datagramPacket b) now.table := by
  have hb : WholePacket b := by cases hbrings <;> assumption
  rw [← replies_iff env (datagramPacket_wellFormed hb) (.v4 addr) htable]
  constructor
  · intro h left
    have hkind : Kind ⟨left,fun _ => none,Block.zero sessionSize,zeroMemory,true⟩ :=
      ⟨rfl,fun _ => keepsByte_nul_behind⟩
    exact (handle_returns hbrings henabled hkind).mp (h _ hkind)
  · exact fun h c hkind => (handle_returns hbrings henabled hkind).mpr (h c.left)

/-- Whatever the memory is otherwise, the loop gets through the events. -/
def StaysUp (node : RootNode V6) : List (Event V6) → Prop
  | [] => True
  | event :: events => ∀ c, Kind c → node.Enabled event →
      ∃ next out, handle c node event = .ok (next,out) ∧ StaysUp next events

/-- Each packet has an answer in every state in which it can come. -/
def AllAnswerable (node : RootNode V6) : List (Event V6) → Prop
  | [] => True
  | event :: events => (node.Enabled event → ∀ b addr env, Brings b addr env event →
      Answerable env (datagramPacket b) node.table) ∧
        ∀ c next out, Kind c → node.Enabled event → handle c node event = .ok (next,out) →
          AllAnswerable next events

/-- Whole packets, and everything that is no request. -/
def Proper (event : Event V6) : Prop :=
  isRequest event = false ∨ ∃ b addr env, Brings b addr env event

theorem handle_quiet {event : Event V6} (h : isRequest event = false) (c : Circumstances)
    (node : RootNode V6) : ∃ next, handle c node event = .ok (next,[]) := by
  cases event with
  | receiveError | acceptError | connection | readError => exact ⟨_,rfl⟩
  | datagram bytes sender env => contradiction
  | characters session chunk peer env => contradiction

/-- One packet without an answer ends the whole node, over either transport. Packets with an answer
do not, where the sockets take each reply at once and no pair of digits is spoilt. -/
theorem staysUp_iff {mRecv : Block recvSize} {before : List (Event V6 × Circumstances)}
    {sent : List Sent} {now : RootNode V6} (h : Runs (start mRecv) before sent now)
    {events : List (Event V6)} (hproper : ∀ event ∈ events, Proper event) :
    StaysUp now events ↔ AllAnswerable now events := by
  induction events generalizing before sent now with
  | nil => exact Iff.rfl
  | cons event events ih =>
    have hrest := fun c next out (henabled : now.Enabled event)
        (hhandle : handle c now event = .ok (next,out)) =>
      ih (h.step henabled hhandle) fun e he => hproper e (List.mem_cons_of_mem event he)
    have hinbound := (runs_reachable h).inbound
    constructor
    · intro hup
      refine ⟨fun henabled b addr env hbrings => ?_,fun c next out hkind henabled hhandle => ?_⟩
      · refine (survives_iff hinbound hbrings henabled).mp fun c hkind => ?_
        obtain ⟨next,out,hhandle,-⟩ := hup c hkind henabled
        exact ⟨_,hhandle⟩
      · obtain ⟨next',out',hhandle',hnext⟩ := hup c hkind henabled
        obtain ⟨rfl,rfl⟩ := Prod.mk.inj (Except.ok.inj (hhandle.symm.trans hhandle'))
        exact (hrest c next out henabled hhandle).mp hnext
    · intro hall c hkind henabled
      obtain ⟨hanswerable,hlater⟩ := hall
      obtain ⟨⟨next,out⟩,hhandle⟩ : ∃ r, handle c now event = .ok r := by
        rcases hproper event List.mem_cons_self with hquiet | ⟨b,addr,env,hbrings⟩
        · obtain ⟨next,hnext⟩ := handle_quiet hquiet c now
          exact ⟨_,hnext⟩
        · exact (survives_iff hinbound hbrings henabled).mpr
            (hanswerable henabled b addr env hbrings) c hkind
      exact ⟨next,out,hhandle,
        (hrest c next out henabled hhandle).mpr (hlater c next out hkind henabled hhandle)⟩

/-- A listing of an empty table is answered, and a resolution without a content ends the node. -/
theorem staysUp_iff_listing_and_resolution :
    StaysUp (start (Block.zero recvSize))
        [.datagram { DvspHeader.init with type := .gsnLocalArea }.bytes localhostIpv4 isolated] ∧
      ¬ StaysUp (start (Block.zero recvSize))
        [.datagram emptyResolution.header.bytes localhostIpv4 isolated] := by
  have hlisting : WholePacket { DvspHeader.init with type := .gsnLocalArea }.bytes :=
    ⟨by decide +kernel,by decide +kernel⟩
  have hresolution : WholePacket emptyResolution.header.bytes :=
    ⟨by decide +kernel,by decide +kernel⟩
  constructor
  · refine (staysUp_iff .start fun event he => ?_).mpr ⟨fun _ b addr env hbrings => ?_,
      fun _ _ _ _ _ _ => trivial⟩
    · rw [List.mem_singleton.mp he]
      exact .inr ⟨_,_,_,.datagram hlisting⟩
    · cases hbrings
      exact ⟨fun h => absurd h (by decide +kernel),fun h => absurd h (by decide +kernel),
        fun h => absurd h (by decide +kernel),fun h => absurd h (by decide +kernel)⟩
  · intro hup
    obtain ⟨hanswerable,-⟩ := (staysUp_iff .start fun event he => by
      rw [List.mem_singleton.mp he]
      exact .inr ⟨_,_,_,.datagram hresolution⟩).mp hup
    obtain ⟨u,hu,-⟩ :=
      (hanswerable ⟨rfl,by decide +kernel⟩ _ _ _ (.datagram hresolution)).resolution
        (by decide +kernel)
    rw [show (datagramPacket emptyResolution.header.bytes).bytes = [] by decide +kernel] at hu
    contradiction

end RootNode
end GsnNode
