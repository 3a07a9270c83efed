import GsnNode.AcceptedNodes
import GsnNode.ReachableTables

/-! The entries that a client can cut out of a listing. -/

set_option autoImplicit false

namespace GsnNode
open KeyedList ByteWords ProtocolHandler StepRuns DelimitedText

section Entries
variable {V6 : Type}

/-- The content that a reply is sent with. -/
def sentContent (p : DvspPacket) : Text := p.bytes.take p.header.size.toNat

def entriesOf (content : Text) : List (List Text) := rowsOf semicolon bar content

def entryFields (asio : Ipv6Text V6) (n : NetspaceNode V6) : List Text :=
  [n.hostname,n.suid,n.addr.toString asio]

/-- One entry for each node, and the empty rest behind the last separator. -/
def ownEntries (asio : Ipv6Text V6) (nodes : List (NetspaceNode V6)) : List (List Text) :=
  nodes.map (entryFields asio) ++ [[[]]]

def SeparatorFree (w : Text) : Prop := semicolon ∉ w ∧ bar ∉ w

/-- Names without separators, and a listing whose length fits the header. -/
structure Separable (asio : Ipv6Text V6) (nodes : List (NetspaceNode V6)) : Prop where
  length_lt : (constructFrameNetwork asio nodes).length < 2 ^ 32
  names : ∀ n ∈ nodes, SeparatorFree n.hostname ∧ SeparatorFree n.suid

theorem constructFrameNetwork_joined (asio : Ipv6Text V6) (nodes : List (NetspaceNode V6)) :
    constructFrameNetwork asio nodes =
      [semicolon].intercalate ((ownEntries asio nodes).map [bar].intercalate) := by
  have hentry : ∀ n : NetspaceNode V6, [bar].intercalate (entryFields asio n) = entryText asio n := by
    intro n
    simp [entryFields, entryText]
  have hparts : (ownEntries asio nodes).map [bar].intercalate = nodes.map (entryText asio) ++ [[]] := by
    simp [ownEntries, hentry]
  rw [hparts, ← flatten_dropLast_append_getLast _ _ (by simp), constructFrameNetwork_eq]
  simp [Function.comp_def]

theorem ipv4_separatorFree (a : NetspaceIpv4) : SeparatorFree (ipv4ToString a) :=
  ⟨ipv4ToString_free a (by decide),ipv4ToString_free a (by decide)⟩

theorem entryFields_free_iff (asio : Ipv6Text V6) {n : NetspaceNode V6} (hn : ∃ a, n.addr = .v4 a) :
    (∀ f ∈ entryFields asio n, SeparatorFree f) ↔
      SeparatorFree n.hostname ∧ SeparatorFree n.suid := by
  obtain ⟨a,ha⟩ := hn
  simp [entryFields, ha, NetspaceAddr.toString, ipv4_separatorFree a]

/-- What is sent of the listing is cut up into the entries of its nodes. -/
theorem entries_sent_iff (asio : Ipv6Text V6) {nodes : List (NetspaceNode V6)}
    (hnodes : ∀ n ∈ nodes, ∃ a, n.addr = .v4 a) :
    entriesOf ((constructFrameNetwork asio nodes).take
        ((constructFrameNetwork asio nodes).length % 2 ^ 32)) = ownEntries asio nodes ↔
      Separable asio nodes := by
  have hne : ownEntries asio nodes ≠ [] := by simp [ownEntries]
  have hrows : ∀ r ∈ ownEntries asio nodes, r ≠ [] := by
    intro r hr
    rcases List.mem_append.mp hr with hr | hr
    · obtain ⟨n,-,rfl⟩ := List.mem_map.mp hr
      simp [entryFields]
    · rw [List.mem_singleton.mp hr]
      simp
  have hfree : (∀ r ∈ ownEntries asio nodes, ∀ f ∈ r, semicolon ∉ f ∧ bar ∉ f) ↔
      ∀ n ∈ nodes, SeparatorFree n.hostname ∧ SeparatorFree n.suid := by
    simp only [ownEntries, List.forall_mem_append, List.forall_mem_map]
    constructor
    · exact fun h n hn => (entryFields_free_iff asio (hnodes n hn)).mp (h.1 n hn)
    · exact fun h => ⟨fun n hn => (entryFields_free_iff asio (hnodes n hn)).mpr (h n hn),by simp⟩
  rw [entriesOf, rowsOf_eq_iff (by decide) hne hrows, ← constructFrameNetwork_joined, hfree,
    List.take_eq_self_iff]
  constructor
  · exact fun ⟨hlen,hnames⟩ => ⟨by omega,hnames⟩
  · exact fun h => ⟨by have := h.length_lt; omega,h.names⟩

theorem listingReply_sent (env : Surroundings V6) (packet : DvspPacket)
    (nodes : List (NetspaceNode V6)) : ∃ reply, listingReply env packet nodes = .ok reply ∧
      sentContent reply = (constructFrameNetwork env.asio nodes).take
        ((constructFrameNetwork env.asio nodes).length % 2 ^ 32) := by
  by_cases hempty : constructFrameNetwork env.asio nodes = []
  · simp only [listingReply, DvspPacket.strContent, DvspPacket.reset, DvspPacket.init, hempty]
    exact ⟨_,rfl,rfl⟩
  · refine ⟨_,DvspPacket.reset_null _ hempty,?_⟩
    simp [sentContent, DvspPacket.bytes]

theorem nodesOf_subset {type : NetnodeType} {table : NetspaceTable V6} {n : NetspaceNode V6}
    (h : n ∈ nodesOf type table) : n ∈ table := List.mem_of_mem_filter h

theorem nodesOf_append (type : NetnodeType) (table : NetspaceTable V6) (n : NetspaceNode V6) :
    nodesOf type (table ++ [n]) = nodesOf type table ++ if n.type = type then [n] else [] := by
  by_cases h : n.type = type <;> simp [nodesOf, h]

theorem constructFrameNetwork_length (asio : Ipv6Text V6) (nodes : List (NetspaceNode V6)) :
    (constructFrameNetwork asio nodes).length =
      (nodes.map fun n => (entryText asio n).length + 1).sum := by
  simp [constructFrameNetwork_eq, List.length_flatten, Function.comp_def]

theorem Separable.sublist {asio : Ipv6Text V6} {nodes nodes' : List (NetspaceNode V6)}
    (h : Separable asio nodes) (hsub : nodes'.Sublist nodes) : Separable asio nodes' := by
  refine ⟨?_,fun n hn => h.names n (hsub.subset hn)⟩
  have hlen := h.length_lt
  have hle := (hsub.map fun n => (entryText asio n).length + 1).sum_le_sum (by simp)
  rw [constructFrameNetwork_length] at hlen ⊢
  omega

/-- A new node of this type must have names without separators, and leave the
listing short enough. -/
def AddsEntry (asio : Ipv6Text V6) (type : NetnodeType) (table : NetspaceTable V6)
    (n : NetspaceNode V6) : Prop :=
  n.type = type → (constructFrameNetwork asio (nodesOf type (table ++ [n]))).length < 2 ^ 32 ∧
    SeparatorFree n.hostname ∧ SeparatorFree n.suid

theorem separable_append_iff {asio : Ipv6Text V6} {type : NetnodeType} {table : NetspaceTable V6}
    (h : Separable asio (nodesOf type table)) (n : NetspaceNode V6) :
    Separable asio (nodesOf type (table ++ [n])) ↔ AddsEntry asio type table n := by
  by_cases htype : n.type = type
  · have happend : nodesOf type (table ++ [n]) = nodesOf type table ++ [n] := by
      simp [nodesOf_append, htype]
    simp only [AddsEntry, htype, true_imp_iff]
    constructor
    · exact fun hs => ⟨hs.length_lt,hs.names n (by simp [happend])⟩
    · intro ⟨hlen,hnames⟩
      refine ⟨hlen,fun m hm => ?_⟩
      rw [happend] at hm
      rcases List.mem_append.mp hm with hm | hm
      · exact h.names m hm
      · exact List.mem_singleton.mp hm ▸ hnames
  · simpa [AddsEntry, htype, nodesOf_append] using h

variable [DecidableEq V6]

/-- Whoever asks for this listing can cut it up into the nodes of that type. -/
def ListsNodes (env : Surroundings V6) (request : DvspMsgtype) (type : NetnodeType)
    (table : NetspaceTable V6) : Prop :=
  ∀ (left : Leftover) (packet : DvspPacket) (addr : NetspaceAddr V6),
    packet.header.type = request →
      ∃ reply, processPacket env left packet addr table = (.ok reply,table) ∧
        entriesOf (sentContent reply) = ownEntries env.asio (nodesOf type table)

structure UnforgedListings (env : Surroundings V6) (table : NetspaceTable V6) : Prop where
  localArea : ListsNodes env .gsnLocalArea .org table
  rootNodes : ListsNodes env .gtnRootNodes .root table

theorem listsNodes_iff {env : Surroundings V6} {request : DvspMsgtype} {type : NetnodeType}
    {table : NetspaceTable V6}
    (hrequest : ∀ (left : Leftover) (packet : DvspPacket) (addr : NetspaceAddr V6),
      packet.header.type = request →
        processPacket env left packet addr table =
          (listingReply env packet (nodesOf type table),table))
    (htable : Ipv4Table table) :
    ListsNodes env request type table ↔ Separable env.asio (nodesOf type table) := by
  rw [← entries_sent_iff env.asio (fun n hn => htable n (nodesOf_subset hn))]
  constructor
  · intro h
    obtain ⟨reply,hreply,hentries⟩ := h unmapped
      ⟨{ DvspHeader.init with type := request },.null⟩ (.v4 default) rfl
    obtain ⟨reply',hreply',hsent⟩ := listingReply_sent env
      ⟨{ DvspHeader.init with type := request },.null⟩ (nodesOf type table)
    rw [hrequest _ _ _ rfl, hreply', Prod.mk.injEq, Except.ok.injEq] at hreply
    rw [← hsent, hreply.1, hentries]
  · intro h left packet addr htype
    obtain ⟨reply,hreply,hsent⟩ := listingReply_sent env packet (nodesOf type table)
    exact ⟨reply,by rw [hrequest left packet addr htype, hreply],by rw [hsent, h]⟩

theorem unforgedListings_iff {env : Surroundings V6} {table : NetspaceTable V6}
    (htable : Ipv4Table table) :
    UnforgedListings env table ↔ Separable env.asio (nodesOf .org table) ∧
      Separable env.asio (nodesOf .root table) := by
  have horg := @listsNodes_iff V6 _ env .gsnLocalArea .org table
    (fun left _ addr htype => processPacket_localArea env left htype addr table) htable
  have hroot := @listsNodes_iff V6 _ env .gtnRootNodes .root table
    (fun left _ addr htype => processPacket_rootNodes env left htype addr table) htable
  rw [← horg, ← hroot]
  exact ⟨fun h => ⟨h.localArea,h.rootNodes⟩,fun h => ⟨h.1,h.2⟩⟩

theorem inbound_throughout {calls : List (PacketCall V6)} (hcalls : ∀ c ∈ calls, ∃ a, c.addr = .v4 a) :
    TablesMeet Inbound calls :=
  invariant (fun c hc _ ht => ht.step (hcalls c hc)) (by simp [Inbound])

/-- The listings of a run show the registered nodes exactly if every accepted
registration of an org or a root node has names without separators, and leaves its
listing shorter than the size field can say. -/
theorem unforgedListings_throughout (env : Surroundings V6) {calls : List (PacketCall V6)}
    (hcalls : ∀ c ∈ calls, ∃ a, c.addr = .v4 a) :
    TablesMeet (UnforgedListings env) calls ↔
      AcceptedMeet (fun c table st hostname suid =>
        AddsEntry env.asio .org table (registeredNode st hostname suid c.addr) ∧
          AddsEntry env.asio .root table (registeredNode st hostname suid c.addr)) calls := by
  have hbase := inbound_throughout hcalls
  have hiff := throughout_congr hbase fun table (ht : Inbound table) =>
    @unforgedListings_iff V6 _ env table fun n hn => (ht n hn).1
  refine hiff.trans (tablesMeet_iff ?_ ?_ ?_ calls)
  · exact fun table table' hsub h =>
      ⟨h.1.sublist (hsub.filter _),h.2.sublist (hsub.filter _)⟩
  · intro c table st hostname suid h _
    rw [separable_append_iff h.1, separable_append_iff h.2]
  · have hnil : ∀ type, Separable env.asio (nodesOf type ([] : NetspaceTable V6)) :=
      fun type => ⟨by simp [nodesOf, constructFrameNetwork],by simp [nodesOf]⟩
    exact ⟨hnil .org,hnil .root⟩

end Entries

/-- The suid of this registration ends its entry and begins another one. -/
def forgingCall : PacketCall Empty := registerFrom localhost (ascii "b|a;c|d|10.0.0.1")

def listedCalls : List (PacketCall Empty) :=
  [registerFrom localhost (ascii "b|a"),registerFrom neighbour (ascii "d|c")]

/-- Two registrations with names without separators, and one that forges. -/
theorem unforgedListings_throughout_registrations :
    TablesMeet (UnforgedListings isolated) listedCalls ∧
      ¬ TablesMeet (UnforgedListings isolated) [forgingCall] := by
  constructor
  · refine (unforgedListings_throughout isolated (by simp [listedCalls, registerFrom, localhost, neighbour])).mpr
      (eachStep_cons.mpr ⟨?_,eachStep_cons.mpr ⟨?_,eachStep_nil⟩⟩)
    · intro st hostname suid ha
      have hreg : Registration unmapped (packetOf .gsnRegisterHost (registerFrame (ascii "b|a")))
          (FrameRegister.ofBytes (registerFrame (ascii "b|a"))) (ascii "b") (ascii "a") :=
        ⟨⟨_,by decide +kernel,rfl⟩,by decide +kernel,by decide +kernel⟩
      obtain ⟨rfl,rfl,rfl⟩ := ha.registration.unique hreg
      exact ⟨fun _ => ⟨by decide +kernel,⟨by decide +kernel,by decide +kernel⟩,
        by decide +kernel,by decide +kernel⟩,fun htype => absurd htype (by decide +kernel)⟩
    · intro st hostname suid ha
      have hreg : Registration unmapped (packetOf .gsnRegisterHost (registerFrame (ascii "d|c")))
          (FrameRegister.ofBytes (registerFrame (ascii "d|c"))) (ascii "d") (ascii "c") :=
        ⟨⟨_,by decide +kernel,rfl⟩,by decide +kernel,by decide +kernel⟩
      obtain ⟨rfl,rfl,rfl⟩ := ha.registration.unique hreg
      exact ⟨fun _ => ⟨by decide +kernel,⟨by decide +kernel,by decide +kernel⟩,
        by decide +kernel,by decide +kernel⟩,fun htype => absurd htype (by decide +kernel)⟩
  · intro h
    have hreg : Registration unmapped (packetOf .gsnRegisterHost
        (registerFrame (ascii "b|a;c|d|10.0.0.1")))
          (FrameRegister.ofBytes (registerFrame (ascii "b|a;c|d|10.0.0.1"))) (ascii "b")
            (ascii "a;c|d|10.0.0.1") :=
      ⟨⟨_,by decide +kernel,rfl⟩,by decide +kernel,by decide +kernel⟩
    have hadds := (unforgedListings_throughout isolated (by simp [forgingCall, registerFrom, localhost])).mp h
      [] forgingCall [] rfl _ _ _ ⟨rfl,hreg,by simp,by simp⟩
    exact absurd (hadds.1 rfl).2.2.1 (by decide +kernel)

theorem forged_entry : ¬ TablesMeet (UnforgedListings isolated) [forgingCall] := by
  intro h
  have hrun : runCalls [forgingCall] [] =
      [⟨.org,localhost,ascii "b",.dvsp,ascii "a;c|d|10.0.0.1"⟩] := by decide +kernel
  have hlast : UnforgedListings isolated (runCalls [forgingCall] []) := h.last
  rw [hrun, unforgedListings_iff (by simp [Ipv4Table, localhost])] at hlast
  have hfree := hlast.1.names ⟨.org,localhost,ascii "b",.dvsp,ascii "a;c|d|10.0.0.1"⟩
    (by simp [nodesOf])
  exact absurd hfree.2.1 (by decide +kernel)

end GsnNode
