import GsnNode.KeyedList
import GsnNode.ProtocolHandler
import GsnNode.StepRuns

/-! The registry over whole runs: what a call can do to the table, and what no
sequence of calls can break. -/

set_option autoImplicit false

namespace GsnNode
open KeyedList ByteWords

namespace NetspaceTable
variable {V6 : Type}

theorem findHost_eq_length (table : NetspaceTable V6) (host : Text) :
    table.findHost host = table.length ↔ ∀ m ∈ table, m.hostname ≠ host := by
  simp [findHost, List.findIdx_eq_length]

theorem findSuid_eq_length (table : NetspaceTable V6) (suid : Text) :
    table.findSuid suid = table.length ↔ ∀ m ∈ table, m.suid ≠ suid := by
  simp [findSuid, List.findIdx_eq_length]

theorem eraseNode_of_ne {table : NetspaceTable V6} {it : Nat} (h : it ≠ table.length) :
    table.eraseNode it = table.eraseIdx it := by
  simp [eraseNode, h]

end NetspaceTable

namespace ProtocolHandler
open Handler MemoryRegion
variable {V6 : Type} (env : Surroundings V6) (left : Leftover)

def responsePacket (code : DvspRcode) : DvspPacket :=
  ⟨{ DvspHeader.init with type := .gsnResponse, size := 4 },.live code.bytes⟩

theorem response_eq (code : DvspRcode) : response code = .ok (responsePacket code) := by
  have h := DvspPacket.reset_null { DvspHeader.init with type := .gsnResponse }
    (constructFrameResponseCode code).bytes_ne_nil
  simpa [response, DvspPacket.copyContent, DvspPacket.init, responsePacket,
    constructFrameResponseCode, FrameResponseCode.bytes] using h

theorem responsePacket_inj {code code' : DvspRcode}
    (h : responsePacket code = responsePacket code') : code.bytes = code'.bytes := by
  simpa [responsePacket] using h

/-- The frame and the names of a registration that passed the checks on them. -/
structure Registration (packet : DvspPacket) (st : FrameRegister) (hostname suid : Text) :
    Prop where
  frame : ∃ bs, packet.contentAs left.afterContent 0 FrameRegister.sizeOf = .ok bs ∧
    st = FrameRegister.ofBytes bs
  type_lt : charValue st.type < charValue NetnodeType.final.raw
  names : frameNames left st = .ok (hostname,suid)

def registeredNode (st : FrameRegister) (hostname suid : Text) (addr : NetspaceAddr V6) :
    NetspaceNode V6 :=
  ⟨⟨st.type⟩,addr,hostname,⟨st.protocol⟩,suid⟩

theorem registerHost_refused {packet : DvspPacket} {bs : List UInt8}
    (hframe : packet.contentAs left.afterContent 0 FrameRegister.sizeOf = .ok bs)
    (htype : charValue NetnodeType.final.raw ≤ charValue (FrameRegister.ofBytes bs).type)
    (addr : NetspaceAddr V6) (table : NetspaceTable V6) :
    registerHost env left packet addr table = (.ok (responsePacket .malformedContent),table) := by
  simp [registerHost, bind_apply, hframe, htype, response_eq]

inductive Unreadable (packet : DvspPacket) (e : Stop) : Prop where
  | frame : packet.contentAs left.afterContent 0 FrameRegister.sizeOf = .error e →
      Unreadable packet e
  | names {bs : List UInt8} : packet.contentAs left.afterContent 0 FrameRegister.sizeOf = .ok bs →
      charValue (FrameRegister.ofBytes bs).type < charValue NetnodeType.final.raw →
      frameNames left (FrameRegister.ofBytes bs) = .error e → Unreadable packet e

/-- Everything that a registration can do. -/
theorem registerHost_cases (packet : DvspPacket) (addr : NetspaceAddr V6)
    (table : NetspaceTable V6) :
    (∃ st hostname suid, Registration left packet st hostname suid ∧
        (∀ m ∈ table, m.hostname ≠ hostname) ∧ (∀ m ∈ table, m.suid ≠ suid) ∧
        registerHost env left packet addr table =
          (.ok (responsePacket .ok),table ++ [registeredNode st hostname suid addr])) ∨
      (∃ st hostname suid, Registration left packet st hostname suid ∧
        ((∃ m ∈ table, m.hostname = hostname) ∨ ∃ m ∈ table, m.suid = suid) ∧
        registerHost env left packet addr table =
          (.ok (responsePacket .netspaceDuplicate),table)) ∨
      (∃ bs, packet.contentAs left.afterContent 0 FrameRegister.sizeOf = .ok bs ∧
        charValue NetnodeType.final.raw ≤ charValue (FrameRegister.ofBytes bs).type ∧
        registerHost env left packet addr table =
          (.ok (responsePacket .malformedContent),table)) ∨
      (∃ e, Unreadable left packet e ∧ registerHost env left packet addr table = (.error e,table)) := by
  cases hframe : packet.contentAs left.afterContent 0 FrameRegister.sizeOf with
  | error e =>
    right; right; right
    exact ⟨e,.frame hframe,by simp [registerHost, bind_apply, hframe]⟩
  | ok bs =>
    by_cases htype : charValue NetnodeType.final.raw ≤ charValue (FrameRegister.ofBytes bs).type
    · right; right; left
      exact ⟨bs,rfl,htype,registerHost_refused env left hframe htype addr table⟩
    cases hnames : frameNames left (FrameRegister.ofBytes bs) with
    | error e =>
      right; right; right
      exact ⟨e,.names hframe (not_le.mp htype) hnames,
        by simp [registerHost, bind_apply, hframe, htype, hnames]⟩
    | ok names =>
      obtain ⟨hostname,suid⟩ := names
      have hreg : Registration left packet (FrameRegister.ofBytes bs) hostname suid :=
        ⟨⟨bs,hframe,rfl⟩,not_le.mp htype,hnames⟩
      by_cases hhost : table.findHost hostname = table.length
      · by_cases hsuid : table.findSuid suid = table.length
        · left
          refine ⟨_,hostname,suid,hreg,(table.findHost_eq_length hostname).mp hhost,
            (table.findSuid_eq_length suid).mp hsuid,?_⟩
          simp [registerHost, bind_apply, hframe, htype, hnames, hhost, hsuid,
            NetspaceNode.ofHost, NetspaceAddr.fromString_toString, response_eq, registeredNode,
            NetspaceTable.addNode]
        · right; left
          refine ⟨_,hostname,suid,hreg,.inr ?_,?_⟩
          · simpa using mt (table.findSuid_eq_length suid).mpr hsuid
          · simp [registerHost, bind_apply, hframe, htype, hnames, hhost, hsuid, response_eq]
      · right; left
        refine ⟨_,hostname,suid,hreg,.inl ?_,?_⟩
        · simpa using mt (table.findHost_eq_length hostname).mpr hhost
        · simp [registerHost, bind_apply, hframe, htype, hnames, hhost, response_eq]

variable [DecidableEq V6]

theorem unregisterHost_cases (addr : NetspaceAddr V6) (table : NetspaceTable V6) :
    (∃ before n after, table = before ++ n :: after ∧ n.addr = addr ∧
        (∀ m ∈ before, m.addr ≠ addr) ∧
        unregisterHost env addr table = (.ok (responsePacket .ok),before ++ after)) ∨
      ((∀ m ∈ table, m.addr ≠ addr) ∧
        unregisterHost env addr table = (.ok (responsePacket .netspaceError),table)) := by
  have hfind : table.findAddrText env.asio (addr.toString env.asio) = .ok (table.findAddr addr) := by
    simp [NetspaceTable.findAddrText, NetspaceAddr.fromString_toString]
  by_cases hit : table.findAddr addr = table.length
  · right
    refine ⟨by simpa [NetspaceTable.findAddr, List.findIdx_eq_length] using hit,?_⟩
    simp [unregisterHost, bind_apply, hfind, hit, response_eq]
  · left
    obtain ⟨before,n,after,rfl,hn,hbefore,hidx⟩ := findIdx_split hit
    have herase : NetspaceTable.eraseNode (before ++ n :: after)
        (NetspaceTable.findAddr (before ++ n :: after) addr) = before ++ after := by
      rw [NetspaceTable.eraseNode_of_ne hit, NetspaceTable.findAddr, hidx]
      simp [List.eraseIdx_append]
    refine ⟨before,n,after,rfl,by simpa using hn,by simpa using hbefore,?_⟩
    simp only [unregisterHost, bind_apply, get_apply, call_apply, hfind, if_neg hit, modify_apply,
      herase, response_eq]

theorem processPacket_register {packet : DvspPacket} (h : packet.header.type = .gsnRegisterHost)
    (addr : NetspaceAddr V6) (table : NetspaceTable V6) :
    processPacket env left packet addr table = registerHost env left packet addr table := by
  simp [processPacket, h]

theorem processPacket_unregister {packet : DvspPacket}
    (h : packet.header.type = .gsnUnregisterHost) (addr : NetspaceAddr V6)
    (table : NetspaceTable V6) :
    processPacket env left packet addr table = unregisterHost env addr table := by
  simp [processPacket, h, DvspMsgtype.gsnRegisterHost, DvspMsgtype.gsnUnregisterHost]

theorem processPacket_resolution {packet : DvspPacket} (h : packet.header.type = .gsnResolution)
    (addr : NetspaceAddr V6) (table : NetspaceTable V6) :
    processPacket env left packet addr table = (resolveGsn env left packet table,table) := by
  simp [processPacket, h, DvspMsgtype.gsnRegisterHost, DvspMsgtype.gsnUnregisterHost,
    DvspMsgtype.gsnResolution]

theorem processPacket_localArea {packet : DvspPacket} (h : packet.header.type = .gsnLocalArea)
    (addr : NetspaceAddr V6) (table : NetspaceTable V6) :
    processPacket env left packet addr table = (localGsn env packet table,table) := by
  simp [processPacket, h, DvspMsgtype.gsnRegisterHost, DvspMsgtype.gsnUnregisterHost,
    DvspMsgtype.gsnResolution, DvspMsgtype.gsnLocalArea]

theorem processPacket_rootNodes {packet : DvspPacket} (h : packet.header.type = .gtnRootNodes)
    (addr : NetspaceAddr V6) (table : NetspaceTable V6) :
    processPacket env left packet addr table = (rootNodes env packet table,table) := by
  simp [processPacket, h, DvspMsgtype.gsnRegisterHost, DvspMsgtype.gsnUnregisterHost,
    DvspMsgtype.gsnResolution, DvspMsgtype.gsnLocalArea, DvspMsgtype.gtnRootNodes]

theorem processPacket_hostname {packet : DvspPacket} (h : packet.header.type = .gsnHostname)
    (addr : NetspaceAddr V6) (table : NetspaceTable V6) :
    processPacket env left packet addr table = (hostname left packet table,table) := by
  simp [processPacket, h, DvspMsgtype.gsnRegisterHost, DvspMsgtype.gsnUnregisterHost,
    DvspMsgtype.gsnResolution, DvspMsgtype.gsnLocalArea, DvspMsgtype.gtnRootNodes,
    DvspMsgtype.gsnHostname]

theorem hostname_unknown {packet : DvspPacket} {a : NetspaceIpv4} {table : NetspaceTable V6}
    (hread : packet.contentAs left.afterContent 0 4 = .ok a.data)
    (hnode : table.node? (table.findAddr (.v4 a)) = none) :
    hostname left packet table = response .netspaceError := by
  simp only [hostname, hread, ok_bind, Block.ofList_data, hnode]

theorem hostname_known {packet : DvspPacket} {a : NetspaceIpv4} {table : NetspaceTable V6}
    {node : NetspaceNode V6} (hread : packet.contentAs left.afterContent 0 4 = .ok a.data)
    (hnode : table.node? (table.findAddr (.v4 a)) = some node) :
    hostname left packet table =
      constructFrameHostname left.hostnameArray node.hostname node.proto >>= fun fh =>
        DvspPacket.copyContent { DvspPacket.init with header.type := .gsnResponse } fh.bytes := by
  simp only [hostname, hread, ok_bind, Block.ofList_data, hnode]

theorem processPacket_request {packet : DvspPacket} (h : packet.header.type = .gsnRequest)
    (addr : NetspaceAddr V6) (table : NetspaceTable V6) :
    processPacket env left packet addr table = (query env left packet table,table) := by
  simp [processPacket, h, DvspMsgtype.gsnRegisterHost, DvspMsgtype.gsnUnregisterHost,
    DvspMsgtype.gsnResolution, DvspMsgtype.gsnLocalArea, DvspMsgtype.gtnRootNodes,
    DvspMsgtype.gsnHostname, DvspMsgtype.gsnRequest]

theorem processPacket_other {packet : DvspPacket} (hreg : packet.header.type ≠ .gsnRegisterHost)
    (hunreg : packet.header.type ≠ .gsnUnregisterHost) (addr : NetspaceAddr V6)
    (table : NetspaceTable V6) : (processPacket env left packet addr table).2 = table := by
  simp only [processPacket, if_neg hreg, if_neg hunreg]
  split_ifs <;> rfl

end ProtocolHandler

/-! ### Runs -/

section Runs
open ProtocolHandler
variable {V6 : Type} [DecidableEq V6]

/-- One call of `process_packet` with all that it depends on besides the table. -/
structure PacketCall (V6 : Type) where
  env : Surroundings V6
  left : Leftover
  packet : DvspPacket
  addr : NetspaceAddr V6

def PacketCall.result (c : PacketCall V6) (table : NetspaceTable V6) : Call DvspPacket :=
  (processPacket c.env c.left c.packet c.addr table).1

def PacketCall.step (c : PacketCall V6) (table : NetspaceTable V6) : NetspaceTable V6 :=
  (processPacket c.env c.left c.packet c.addr table).2

def runCalls (calls : List (PacketCall V6)) (table : NetspaceTable V6) : NetspaceTable V6 :=
  calls.foldl (fun table c => c.step table) table

theorem runCalls_snoc (calls : List (PacketCall V6)) (c : PacketCall V6)
    (table : NetspaceTable V6) : runCalls (calls ++ [c]) table = c.step (runCalls calls table) := by
  simp [runCalls]

theorem runCalls_append_cons (before after : List (PacketCall V6)) (c : PacketCall V6)
    (table : NetspaceTable V6) :
    runCalls (before ++ c :: after) table = runCalls after (c.step (runCalls before table)) := by
  simp [runCalls]

theorem runCalls_invariant {Inv : NetspaceTable V6 → Prop} {calls : List (PacketCall V6)}
    (hstep : ∀ c ∈ calls, ∀ table, Inv table → Inv (c.step table)) {table : NetspaceTable V6}
    (h : Inv table) : Inv (runCalls calls table) :=
  (StepRuns.invariant hstep h).last

theorem response_ne_ok {code : DvspRcode} (hcode : code.bytes ≠ DvspRcode.ok.bytes) :
    response code ≠ response .ok := by
  intro heq
  rw [response_eq, response_eq, Except.ok.injEq] at heq
  exact hcode (responsePacket_inj heq)

theorem PacketCall.step_cases (c : PacketCall V6) (table : NetspaceTable V6) :
    (∃ st hostname suid, c.packet.header.type = .gsnRegisterHost ∧
        Registration c.left c.packet st hostname suid ∧
        (∀ m ∈ table, m.hostname ≠ hostname) ∧ (∀ m ∈ table, m.suid ≠ suid) ∧
        c.result table = response .ok ∧
        c.step table = table ++ [registeredNode st hostname suid c.addr]) ∨
      (∃ before n after, c.packet.header.type = .gsnUnregisterHost ∧
        table = before ++ n :: after ∧ n.addr = c.addr ∧ (∀ m ∈ before, m.addr ≠ c.addr) ∧
        c.result table = response .ok ∧ c.step table = before ++ after) ∨
      ((c.packet.header.type = .gsnRegisterHost ∨ c.packet.header.type = .gsnUnregisterHost →
        c.result table ≠ response .ok) ∧ c.step table = table) := by
  by_cases hreg : c.packet.header.type = .gsnRegisterHost
  · simp only [result, step, processPacket_register c.env c.left hreg]
    rcases registerHost_cases c.env c.left c.packet c.addr table with
      ⟨st,hostname,suid,hst,hhost,hsuid,heq⟩ | ⟨st,hostname,suid,-,-,heq⟩ | ⟨bs,-,-,heq⟩ | ⟨e,-,heq⟩
    · exact .inl ⟨st,hostname,suid,hreg,hst,hhost,hsuid,by rw [heq, response_eq],by rw [heq]⟩
    · refine .inr (.inr ⟨fun _ => ?_,by rw [heq]⟩)
      rw [heq, ← response_eq]
      exact response_ne_ok (by decide)
    · refine .inr (.inr ⟨fun _ => ?_,by rw [heq]⟩)
      rw [heq, ← response_eq]
      exact response_ne_ok (by decide)
    · refine .inr (.inr ⟨fun _ => ?_,by rw [heq]⟩)
      rw [heq, response_eq]
      simp
  by_cases hunreg : c.packet.header.type = .gsnUnregisterHost
  · simp only [result, step, processPacket_unregister c.env c.left hunreg]
    rcases unregisterHost_cases c.env c.addr table with
      ⟨before,n,after,htable,hn,hbefore,heq⟩ | ⟨hnone,heq⟩
    · exact .inr (.inl ⟨before,n,after,hunreg,htable,hn,hbefore,by rw [heq, response_eq],by rw [heq]⟩)
    · refine .inr (.inr ⟨fun _ => ?_,by rw [heq]⟩)
      rw [heq, ← response_eq]
      exact response_ne_ok (by decide)
  · exact .inr (.inr ⟨fun h => absurd h (by simp [hreg, hunreg]),
      processPacket_other c.env c.left hreg hunreg c.addr table⟩)

structure DistinctNames (table : NetspaceTable V6) : Prop where
  hostnames : Distinct NetspaceNode.hostname table
  suids : Distinct NetspaceNode.suid table

theorem DistinctNames.step {table : NetspaceTable V6} (h : DistinctNames table)
    (c : PacketCall V6) : DistinctNames (c.step table) := by
  rcases c.step_cases table with ⟨st,hostname,suid,-,-,hhost,hsuid,-,heq⟩ |
    ⟨before,n,after,-,htable,-,-,-,heq⟩ | ⟨-,heq⟩
  · rw [heq]
    exact ⟨h.hostnames.append_fresh hhost,h.suids.append_fresh hsuid⟩
  · rw [heq]
    subst htable
    have hsub : (before ++ after).Sublist (before ++ n :: after) :=
      (List.sublist_cons_self n after).append_left before
    exact ⟨h.hostnames.sublist hsub,h.suids.sublist hsub⟩
  · rw [heq]
    exact h

/-- The changes of the table that each kind of call is allowed. -/
structure AllowedChange (c : PacketCall V6) (table table' : NetspaceTable V6) : Prop where
  registered : c.packet.header.type = .gsnRegisterHost → c.result table = response .ok →
    ∃ n, table' = table ++ [n] ∧ n.addr = c.addr
  unregistered : c.packet.header.type = .gsnUnregisterHost → c.result table = response .ok →
    ∃ before n after, table = before ++ n :: after ∧ n.addr = c.addr ∧
      (∀ m ∈ before, m.addr ≠ c.addr) ∧ table' = before ++ after
  kept : (c.packet.header.type ≠ .gsnRegisterHost ∧ c.packet.header.type ≠ .gsnUnregisterHost) ∨
    c.result table ≠ response .ok → table' = table

theorem PacketCall.step_allowed (c : PacketCall V6) (table : NetspaceTable V6) :
    AllowedChange c table (c.step table) := by
  have hne : DvspMsgtype.gsnRegisterHost ≠ .gsnUnregisterHost := by decide
  rcases c.step_cases table with ⟨st,hostname,suid,htype,-,-,-,hok,heq⟩ |
    ⟨before,n,after,htype,htable,hn,hbefore,hok,heq⟩ | ⟨hno,heq⟩
  · refine ⟨fun _ _ => ⟨_,heq,rfl⟩,fun h _ => absurd (htype ▸ h) hne,?_⟩
    rintro (h | h)
    · exact absurd htype h.1
    · exact absurd hok h
  · refine ⟨fun h _ => absurd (h ▸ htype) hne,
      fun _ _ => ⟨before,n,after,htable,hn,hbefore,heq⟩,?_⟩
    rintro (h | h)
    · exact absurd htype h.2
    · exact absurd hok h
  · exact ⟨fun h hok => absurd hok (hno (.inl h)),fun h hok => absurd hok (hno (.inr h)),fun _ => heq⟩

/-- In every run from a table with distinct names the names stay distinct, and
each call changes the table in its own way only. -/
theorem registry_integrity (calls : List (PacketCall V6)) {table : NetspaceTable V6}
    (h : DistinctNames table) :
    DistinctNames (runCalls calls table) ∧
      ∀ before c after, calls = before ++ c :: after →
        AllowedChange c (runCalls before table) (runCalls (before ++ [c]) table) := by
  refine ⟨runCalls_invariant (fun c _ table ht => ht.step c) h,?_⟩
  intro before c after _
  rw [runCalls_snoc]
  exact c.step_allowed _

end Runs

/-! ### A node without neighbours -/

/-- No IPv6, an empty database and no host that answers. -/
def isolated : Surroundings Empty := ⟨ipv4Only,⟨fun _ => .noRow,fun _ => .noRow⟩,fun _ _ _ => none⟩

def unmapped : Leftover := ⟨fun _ => none,fun _ => none,fun _ _ => none,default⟩

def packetOf (type : DvspMsgtype) (content : List UInt8) : DvspPacket :=
  ⟨{ DvspHeader.init with type := type, size := UInt32.ofNat content.length },.live content⟩

def registerFrame (names : Text) : List UInt8 :=
  [2,UInt8.ofNat names.length,0] ++ (Block.ofList 125 names).data

def registerFrom (addr : NetspaceAddr Empty) (names : Text) : PacketCall Empty :=
  ⟨isolated,unmapped,packetOf .gsnRegisterHost (registerFrame names),addr⟩

def unregisterFrom (addr : NetspaceAddr Empty) : PacketCall Empty :=
  ⟨isolated,unmapped,packetOf .gsnUnregisterHost [],addr⟩

def neighbour : NetspaceAddr Empty := .v4 (Block.ofList 4 [10,0,0,1])

/-- The second registration asks for a hostname that is taken. -/
def registryCalls : List (PacketCall Empty) :=
  [registerFrom localhost (ascii "b|a"),registerFrom neighbour (ascii "b|c"),
    registerFrom neighbour (ascii "d|c"),unregisterFrom localhost]

theorem registry_integrity_calls :
    (runCalls registryCalls []).map (fun n => (n.hostname,n.suid)) = [(ascii "d",ascii "c")] ∧
      DistinctNames (runCalls registryCalls []) ∧
      ∀ before c after, registryCalls = before ++ c :: after →
        AllowedChange c (runCalls before []) (runCalls (before ++ [c]) []) :=
  ⟨by decide +kernel,registry_integrity registryCalls ⟨Distinct.nil _,Distinct.nil _⟩⟩

end GsnNode
