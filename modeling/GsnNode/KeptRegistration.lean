import GsnNode.AddressOwners
import GsnNode.ReachableTables

/-! What stays of a registration when only others send packets. -/

set_option autoImplicit false

namespace GsnNode
open KeyedList ByteWords ProtocolHandler StepRuns

section Kept
variable {V6 : Type} [DecidableEq V6]

/-- A node that has its names and its address for itself. -/
structure Undisturbed (node : NetspaceNode V6) (table : NetspaceTable V6) : Prop where
  names : DistinctNames table
  mem : node ∈ table
  alone : ∀ m ∈ table, m.addr = node.addr → m = node

theorem Undisturbed.step {node : NetspaceNode V6} {table : NetspaceTable V6}
    (h : Undisturbed node table) {c : PacketCall V6} (hc : c.addr ≠ node.addr) :
    Undisturbed node (c.step table) := by
  refine ⟨h.names.step c,?_,?_⟩
  · rcases c.step_cases table with ⟨st,hostname,suid,-,-,-,-,-,heq⟩ |
      ⟨before,n,after,-,htable,hn,-,-,heq⟩ | ⟨-,heq⟩
    · rw [heq]
      exact List.mem_append_left _ h.mem
    · -- the node that goes has another address
      have hne : node ≠ n := by
        rintro rfl
        exact hc hn.symm
      have hmem := h.mem
      rw [heq]
      rw [htable] at hmem
      simpa [hne] using hmem
    · rw [heq]
      exact h.mem
  · intro m hm haddr
    rcases c.accepts_or_sublist table with ⟨st,hostname,suid,ha⟩ | ⟨-,hsub⟩
    · rw [ha.step_eq] at hm
      rcases List.mem_append.mp hm with hm | hm
      · exact h.alone m hm haddr
      · rw [List.mem_singleton.mp hm] at haddr
        exact absurd haddr hc
    · exact h.alone m (hsub.subset hm) haddr

theorem Undisturbed.run {node : NetspaceNode V6} {table : NetspaceTable V6}
    (h : Undisturbed node table) {calls : List (PacketCall V6)}
    (hcalls : ∀ c ∈ calls, c.addr ≠ node.addr) : Undisturbed node (runCalls calls table) :=
  runCalls_invariant (fun c hc _ ht => ht.step (hcalls c hc)) h

/-! ### What is seen of the node -/

/-- The three searches end at one position, and the node is there. -/
structure FoundAt (node : NetspaceNode V6) (table : NetspaceTable V6) (it : Nat) : Prop where
  by_hostname : table.findHost node.hostname = it
  by_suid : table.findSuid node.suid = it
  by_addr : table.findAddr node.addr = it
  node_eq : table.node? it = some node

theorem Undisturbed.found {node : NetspaceNode V6} {table : NetspaceTable V6}
    (h : Undisturbed node table) : ∃ it, FoundAt node table it := by
  obtain ⟨before,after,rfl⟩ := List.append_of_mem h.mem
  have hother : ∀ m ∈ before, m.hostname ≠ node.hostname ∧ m.suid ≠ node.suid ∧
      m.addr ≠ node.addr := by
    intro m hm
    have hmem : m ∈ before ++ after := List.mem_append_left after hm
    have hhost := h.names.hostnames.others_ne m hmem
    refine ⟨hhost,h.names.suids.others_ne m hmem,fun haddr => ?_⟩
    exact hhost (congrArg NetspaceNode.hostname (h.alone m (List.mem_append_left _ hm) haddr))
  refine ⟨before.length,?_,?_,?_,by simp [NetspaceTable.node?]⟩
  · exact findIdx_append_cons (by simpa using fun m hm => (hother m hm).1) (by simp)
  · exact findIdx_append_cons (by simpa using fun m hm => (hother m hm).2.1) (by simp)
  · exact findIdx_append_cons (by simpa using fun m hm => (hother m hm).2.2) (by simp)

theorem Undisturbed.listed {node : NetspaceNode V6} {table : NetspaceTable V6}
    (h : Undisturbed node table) (x : NetnodeType) :
    (nodesOf x table).count node = if x = node.type then 1 else 0 := by
  by_cases hx : x = node.type
  · rw [if_pos hx]
    refine List.count_eq_one_of_mem (h.names.hostnames.nodup.filter _) ?_
    simp [nodesOf, h.mem, hx]
  · rw [if_neg hx]
    refine List.count_eq_zero_of_not_mem ?_
    simp [nodesOf, h.mem, Ne.symm hx]

/-- A `frame_hostname` that carries this hostname and this protocol. -/
structure CarriesHostname (reply : DvspPacket) (hostname : Text) (proto : ServiceProtocol) :
    Prop where
  wellFormed : reply.WellFormed
  type_eq : reply.header.type = .gsnResponse
  frame : ∃ fh : FrameHostname, reply.bytes = fh.bytes ∧ fh.response = .ok ∧
    fh.protocol = proto ∧ charValue fh.len = hostname.length ∧
    fh.hostname.data.take hostname.length = hostname

theorem hostname_reply {node : NetspaceNode V6} {table : NetspaceTable V6} {a : NetspaceIpv4}
    (hnode : table.node? (table.findAddr (.v4 a)) = some node)
    (hshort : node.hostname.length ≤ 125) (env : Surroundings V6) (left : Leftover)
    {packet : DvspPacket} (hask : AsksFor packet a) (inbound : NetspaceAddr V6) :
    ∃ reply, processPacket env left packet inbound table = (.ok reply,table) ∧
      CarriesHostname reply node.hostname node.proto := by
  have hlen : (node.hostname ++ left.hostnameArray.data.drop node.hostname.length).length = 125 := by
    simp only [List.length_append, List.length_drop, left.hostnameArray.size_eq]
    omega
  have hreset := DvspPacket.reset_null { DvspHeader.init with type := .gsnResponse }
    (FrameHostname.bytes_ne_nil ⟨.ok,node.proto,UInt8.ofNat node.hostname.length,
      Block.ofList 125 (node.hostname ++ left.hostnameArray.data.drop node.hostname.length)⟩)
  rw [processPacket_hostname env left hask.2.1, hostname_known left (hask.read left) hnode,
    constructFrameHostname_ok hshort]
  refine ⟨_,congrArg (·,table) hreset,⟨by simp,?_⟩,rfl,_,rfl,rfl,rfl,?_,?_⟩
  · simp [DvspPacket.bytes, FrameHostname.bytes]
  · exact charValue_ofNat (by omega)
  · rw [Block.data_ofList hlen]
    exact List.take_left

/-! ### The registration -/

/-- A `frame_register` whose text fits and has a separator. -/
structure RegistersAs (c : PacketCall V6) (st : FrameRegister) (hostname suid : Text) : Prop where
  type_eq : c.packet.header.type = .gsnRegisterHost
  frame : ∃ bs, c.packet.contentAs c.left.afterContent 0 FrameRegister.sizeOf = .ok bs ∧
    st = FrameRegister.ofBytes bs
  fits : 0 ≤ charValue st.len ∧ charValue st.len ≤ 125
  text : st.hostname.data.take (charValue st.len).toNat = hostname ++ bar :: suid
  first_bar : bar ∉ hostname

theorem frameNames_separated {left : Leftover} {st : FrameRegister} {hostname suid : Text}
    (htext : frameText left st = .ok (hostname ++ bar :: suid)) (hbar : bar ∉ hostname)
    (hlen : (hostname ++ bar :: suid).length < 2 ^ 64) :
    frameNames left st = .ok (hostname,suid) := by
  have hbefore : ∀ m ∈ hostname, decide (m = bar) = false := by
    intro m hm
    simpa using fun heq : m = bar => hbar (heq ▸ hm)
  have hidx : (hostname ++ bar :: suid).findIdx (· = bar) = hostname.length :=
    findIdx_append_cons hbefore (by simp)
  have hlength : (hostname ++ bar :: suid).length = hostname.length + (suid.length + 1) := by simp
  have hfind : find (hostname ++ bar :: suid) bar = hostname.length := by
    rw [find, hidx]
    exact if_neg (by omega)
  have hnext : (hostname.length + 1) % 2 ^ 64 = hostname.length + 1 := Nat.mod_eq_of_lt (by omega)
  have hsuid : ((hostname ++ bar :: suid).drop (hostname.length + 1)).take npos = suid := by
    rw [List.append_cons, List.drop_left' (by simp)]
    exact List.take_of_length_le (by rw [npos]; omega)
  simp only [frameNames, htext, ok_bind, hfind, hnext, substr, Nat.not_lt_zero, if_false,
    List.drop_zero, List.take_left, hsuid]
  rw [if_neg (by omega)]
  rfl

theorem RegistersAs.accepted {c : PacketCall V6} {st : FrameRegister} {hostname suid : Text}
    (h : RegistersAs c st hostname suid) {table : NetspaceTable V6}
    (hok : c.result table = response .ok) : Accepts c table st hostname suid := by
  obtain ⟨st',hostname',suid',ha⟩ := accepts_of_result h.type_eq hok
  obtain ⟨bs,hbs,rfl⟩ := h.frame
  obtain ⟨bs',hbs',rfl⟩ := ha.registration.frame
  obtain rfl : bs = bs' := Except.ok.inj (hbs.symm.trans hbs')
  have htext := frameText_ok c.left h.fits.1 h.fits.2
  rw [h.text] at htext
  have hlen := congrArg List.length h.text
  have hb := charValue_bounds (FrameRegister.ofBytes bs).len
  rw [List.length_take] at hlen
  have hnames := frameNames_separated htext h.first_bar (by omega)
  obtain ⟨rfl,rfl⟩ : hostname = hostname' ∧ suid = suid' := by
    simpa using hnames.symm.trans ha.registration.names
  exact ha

/-- What everyone sees of a node that keeps its registration. -/
structure StillThere (node : NetspaceNode V6) (a : NetspaceIpv4) (table : NetspaceTable V6) :
    Prop where
  found : ∃ it, FoundAt node table it
  named : ∀ (env : Surroundings V6) (left : Leftover) (packet : DvspPacket)
    (inbound : NetspaceAddr V6), AsksFor packet a →
      ∃ reply, processPacket env left packet inbound table = (.ok reply,table) ∧
        CarriesHostname reply node.hostname node.proto
  listed : ∀ x, (nodesOf x table).count node = if x = node.type then 1 else 0

theorem Undisturbed.stillThere {node : NetspaceNode V6} {table : NetspaceTable V6}
    (h : Undisturbed node table) {a : NetspaceIpv4} (ha : node.addr = .v4 a)
    (hshort : node.hostname.length ≤ 125) : StillThere node a table := by
  obtain ⟨it,hit⟩ := h.found
  refine ⟨⟨it,hit⟩,fun env left packet inbound hask => ?_,h.listed⟩
  have hnode : table.node? (table.findAddr (.v4 a)) = some node := by
    rw [← ha, hit.by_addr, hit.node_eq]
  exact hostname_reply hnode hshort env left hask inbound

/-- A registration from an address without a node stays as it was stored whatever
packets come from other addresses. -/
theorem registration_kept {before after : List (PacketCall V6)} {c : PacketCall V6}
    {st : FrameRegister} {hostname suid : Text} {a : NetspaceIpv4}
    (hnone : ∀ m ∈ runCalls before [], m.addr ≠ .v4 a) (haddr : c.addr = .v4 a)
    (hreg : RegistersAs c st hostname suid) (hok : c.result (runCalls before []) = response .ok)
    (hothers : ∀ d ∈ after, d.addr ≠ .v4 a) :
    StillThere ⟨⟨st.type⟩,.v4 a,hostname,⟨st.protocol⟩,suid⟩ a
      (runCalls (before ++ c :: after) []) := by
  have hnames : DistinctNames (runCalls before ([] : NetspaceTable V6)) :=
    runCalls_invariant (fun d _ table ht => ht.step d) ⟨Distinct.nil _,Distinct.nil _⟩
  have hacc := hreg.accepted hok
  have hshort : hostname.length ≤ 125 := by
    have hlen := congrArg List.length hreg.text
    have hfits := hreg.fits
    simp only [List.length_take, List.length_append, List.length_cons] at hlen
    omega
  have hstored : Undisturbed ⟨⟨st.type⟩,.v4 a,hostname,⟨st.protocol⟩,suid⟩
      (c.step (runCalls before [])) := by
    have hstep := hacc.step_eq
    rw [registeredNode, haddr] at hstep
    refine ⟨hnames.step c,by simp [hstep],?_⟩
    intro m hm hsame
    rw [hstep] at hm
    rcases List.mem_append.mp hm with hm | hm
    · exact absurd hsame (hnone m hm)
    · exact List.mem_singleton.mp hm
  rw [runCalls_append_cons]
  exact (hstored.run hothers).stillThere rfl hshort

end Kept

theorem registration_kept_alone :
    StillThere ⟨.org,.v4 ⟨[127,0,0,1],rfl⟩,ascii "b",.dvsp,ascii "a"⟩ ⟨[127,0,0,1],rfl⟩
      (runCalls ([] ++ ⟨isolated,unmapped,packetOf .gsnRegisterHost
        (registerFrame (ascii "b|a")),localhost⟩ ::
          [⟨isolated,unmapped,packetOf .gsnUnregisterHost [],.v4 ⟨[10,0,0,1],rfl⟩⟩]) []) := by
  have hreg : RegistersAs (⟨isolated,unmapped,packetOf .gsnRegisterHost
      (registerFrame (ascii "b|a")),localhost⟩ : PacketCall Empty)
        (FrameRegister.ofBytes (registerFrame (ascii "b|a"))) (ascii "b") (ascii "a") :=
    ⟨rfl,⟨_,by decide +kernel,rfl⟩,by decide +kernel,by decide +kernel,by decide +kernel⟩
  exact registration_kept (by simp [runCalls]) rfl hreg (by decide +kernel)
    (by simp)

end GsnNode
