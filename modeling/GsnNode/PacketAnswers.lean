import GsnNode.HostReplies
import GsnNode.ReachableTables

/-! Which packets the node answers, whatever it finds behind its buffers. -/

set_option autoImplicit false

namespace GsnNode
open ByteWords MemoryRegion KeyedList ProtocolHandler

section Answers
variable {V6 : Type} (env : Surroundings V6) (left : Leftover)

/-! ### Requests -/

theorem NetspaceUrl.spq_length_le {u : NetspaceUrl} : u.spq.length ≤ u.body.length := by
  simp only [NetspaceUrl.body, NetspaceUrl.section_, List.length_append]
  by_cases h : u.spq = [] <;> simp [h]
  omega

theorem strContent_new (header : DvspHeader) (text : Text) (beyond : Beyond) :
    ∃ out, DvspPacket.strContent ⟨header,.null⟩ text = .ok out ∧
      ∃ serial, out.serialise beyond = .ok serial := by
  by_cases hne : text = []
  · subst hne
    exact ⟨⟨{ header with size := 0 },.null⟩,rfl,_,rfl⟩
  · refine ⟨_,DvspPacket.reset_null header hne,?_⟩
    have hinside : (UInt32.ofNat text.length).toNat ≤ text.length := by
      rw [UInt32.toNat_ofNat']
      exact Nat.mod_le _ _
    have hread := @load_inside ⟨text,beyond⟩ 0 (UInt32.ofNat text.length).toNat
      (by simpa using hinside)
    rw [DvspPacket.serialise, if_neg (by simp)]
    simp only [Content.read, hread, ok_bind]
    exact ⟨_,rfl⟩

theorem spq_length_lt {packet : DvspPacket} (hp : packet.WellFormed) {u : NetspaceUrl}
    (hu : NetspaceUrl.decode packet.bytes = .ok u) : u.spq.length < 2 ^ 32 := by
  have hbody := NetspaceUrl.decode_body_length hu
  have hspq := u.spq_length_le
  have hlen := hp.length_lt
  omega

theorem query_eq {packet : DvspPacket} (hp : packet.WellFormed) {u : NetspaceUrl}
    (hu : NetspaceUrl.decode packet.bytes = .ok u) {front : Text}
    (hfront : u.gsn.head? = some front) (table : NetspaceTable V6) :
    query env left packet table = askHosts env left packet front u.spq table >>= fun ss =>
      DvspPacket.strContent { DvspPacket.init with header.type := .gsnResponse } ss := by
  have hne := NetspaceUrl.decode_ne_nil hu
  have hdestroy : (queryPacket packet packet.bytes packet.header.addrDest).destroy = .ok () := rfl
  simp only [query, copy_eq_queryPacket hp, ok_bind, unwinding_queryPacket, hp.toString,
    if_neg hne, hu, hfront, hdestroy]
  cases hss : askHosts env left packet front u.spq table with
  | error e => rfl
  | ok ss =>
    obtain ⟨out,hout,serial,hserial⟩ := strContent_new
      { DvspHeader.init with type := .gsnResponse } ss left.afterContent
    have hnew : DvspPacket.strContent { DvspPacket.init with header.type := .gsnResponse } ss =
        .ok out := hout
    rw [ok_bind, ok_bind, hnew, ok_bind, hserial]
    rfl

theorem query_ok_iff {packet : DvspPacket} (hp : packet.WellFormed) {u : NetspaceUrl}
    (hu : NetspaceUrl.decode packet.bytes = .ok u) {front : Text}
    (hfront : u.gsn.head? = some front) (table : NetspaceTable V6) :
    (∃ reply, query env left packet table = .ok reply) ↔
      ∃ text, askHosts env left packet front u.spq table = .ok text := by
  rw [query_eq env left hp hu hfront]
  cases askHosts env left packet front u.spq table with
  | error e => simp
  | ok ss =>
    obtain ⟨out,hout,-⟩ := strContent_new { DvspHeader.init with type := .gsnResponse } ss
      left.afterContent
    exact ⟨fun _ => ⟨ss,rfl⟩,fun _ => ⟨out,hout⟩⟩

/-- Every host that a request goes to replies, and there is a query if there is a host. -/
def HostsReply (packet : DvspPacket) (u : NetspaceUrl) (table : NetspaceTable V6) : Prop :=
  if u.gsn.head? = some (ascii "esusx") then
    table = [] ∨ (u.spq ≠ [] ∧ ∀ it node a, table[it]? = some node → node.proto = .http →
      node.addr = .v4 a → HostReplies env it (frameAll packet u.spq node a) a)
  else
    ∀ front node a, u.gsn.head? = some front → table.node? (table.findSuid front) = some node →
      node.addr = .v4 a →
        u.spq ≠ [] ∧ HostReplies env (table.findSuid front) (frameOne packet u.spq node) a

theorem contacted_iff {packet : DvspPacket} {query : Text} {node : NetspaceNode V6} {it : Nat} :
    (∀ left, Contacted env left packet query node it) ↔
      (node.proto = .http → ∀ a, node.addr = .v4 a →
        HostReplies env it (frameAll packet query node a) a) := by
  constructor
  · intro h hproto a ha
    obtain ⟨str,hstr⟩ := h unmapped hproto a ha
    exact contact_unmapped env unmapped rfl hstr
  · intro h left hproto a ha
    exact contact_ok env left (h hproto a ha)

theorem queryAll_answered {packet : DvspPacket} (hp : packet.WellFormed) {query : Text}
    (hlen : query.length < 2 ^ 32) {table : NetspaceTable V6}
    (htable : ∀ n ∈ table, ∃ a, n.addr = .v4 a) :
    (∀ left, ∃ text, queryAll env left packet query table = .ok text) ↔
      table = [] ∨ (query ≠ [] ∧ ∀ it node a, table[it]? = some node → node.proto = .http →
        node.addr = .v4 a → HostReplies env it (frameAll packet query node a) a) := by
  by_cases hempty : table = []
  · subst hempty
    simp only [true_or, iff_true]
    intro left
    exact ⟨[],by simp only [queryAll, copy_eq_queryPacket hp, ok_bind]; rfl⟩
  by_cases hq : query = []
  · subst hq
    simp only [hempty, ne_eq, not_true_eq_false, false_and, or_self, iff_false]
    intro h
    obtain ⟨text,htext⟩ := h unmapped
    exact queryAll_empty env unmapped hp hempty text htext
  · simp only [queryAll_ok env _ hp hq hlen htable, hempty, hq, ne_eq, not_false_iff, true_and,
      false_or]
    constructor
    · intro h it node a hnode hproto ha
      have hmem : (node,it) ∈ table.zipIdx := List.mem_zipIdx_iff_getElem?.mpr hnode
      exact (contacted_iff env).mp (fun left => h left (node,it) hmem) hproto a ha
    · intro h left p hp
      have hnode : table[p.2]? = some p.1 := List.mem_zipIdx_iff_getElem?.mp hp
      exact (contacted_iff env).mpr (fun hproto a ha => h p.2 p.1 a hnode hproto ha) left

theorem queryOne_answered {packet : DvspPacket} (hp : packet.WellFormed) {suid query : Text}
    (hlen : query.length < 2 ^ 32) {table : NetspaceTable V6}
    (htable : ∀ n ∈ table, ∃ a, n.addr = .v4 a) :
    (∀ left, ∃ text, queryOne env left packet suid query table = .ok text) ↔
      ∀ node a, table.node? (table.findSuid suid) = some node → node.addr = .v4 a →
        query ≠ [] ∧ HostReplies env (table.findSuid suid) (frameOne packet query node) a := by
  cases hnode : table.node? (table.findSuid suid) with
  | none => simp [queryOne_unknown env _ hp query hnode]
  | some node =>
    obtain ⟨a,ha⟩ := htable node (List.mem_of_getElem? hnode)
    by_cases hq : query = []
    · subst hq
      constructor
      · intro h
        obtain ⟨text,htext⟩ := h unmapped
        exact absurd htext (queryOne_empty env unmapped hp hnode text)
      · intro h
        exact absurd rfl (h node a rfl ha).1
    · have hknown := fun left => queryOne_known env left hp hq hlen hnode ha
      constructor
      · intro h node' b hnode' hb
        obtain rfl : node = node' := by simpa using hnode'
        obtain rfl : a = b := by simpa [ha] using hb
        obtain ⟨text,htext⟩ := h unmapped
        rw [hknown] at htext
        cases hc : contact env unmapped (table.findSuid suid) (frameOne packet query node) a with
        | error e =>
          rw [hc] at htext
          contradiction
        | ok str => exact ⟨hq,contact_unmapped env unmapped rfl hc⟩
      · intro h left
        obtain ⟨str,hstr⟩ := contact_ok env left (h node a rfl ha).2
        exact ⟨str.getD [],by rw [hknown, hstr]; rfl⟩

theorem query_answered {packet : DvspPacket} (hp : packet.WellFormed) {table : NetspaceTable V6}
    (htable : ∀ n ∈ table, ∃ a, n.addr = .v4 a) :
    (∀ left, ∃ reply, query env left packet table = .ok reply) ↔
      ∃ u, NetspaceUrl.decode packet.bytes = .ok u ∧ HostsReply env packet u table := by
  have hhosts {u : NetspaceUrl} (hu : NetspaceUrl.decode packet.bytes = .ok u) :
      (∀ left, ∃ reply, query env left packet table = .ok reply) ↔
        HostsReply env packet u table := by
    obtain ⟨-,-,-,hgsn,-⟩ := NetspaceUrl.decode_ok hu
    obtain ⟨front,rest,hroute⟩ := List.exists_cons_of_ne_nil hgsn
    have hfront : u.gsn.head? = some front := by rw [hroute]; rfl
    have hlen := spq_length_lt hp hu
    simp only [query_ok_iff env _ hp hu hfront, askHosts, HostsReply, hfront, Option.some.injEq]
    by_cases hall : front = ascii "esusx"
    · simp only [if_pos hall]
      exact queryAll_answered env hp hlen htable
    · simp only [if_neg hall, queryOne_answered env hp hlen htable]
      exact ⟨fun h front' node a hf => hf ▸ h node a,fun h node a => h front node a rfl⟩
  constructor
  · intro h
    obtain ⟨reply,hreply⟩ := h unmapped
    simp only [query, copy_eq_queryPacket hp, ok_bind, unwinding_queryPacket, hp.toString] at hreply
    obtain ⟨text,htext,hreply⟩ := bind_eq_ok.mp hreply
    obtain ⟨u,hu,-⟩ := bind_eq_ok.mp hreply
    split at htext
    · contradiction
    · obtain rfl : packet.bytes = text := by simpa using htext
      exact ⟨u,hu,(hhosts hu).mp h⟩
  · rintro ⟨u,hu,h⟩
    exact (hhosts hu).mpr h

/-! ### Resolutions -/

/-- An accepted URL that names a next host or a place that can be looked up. -/
def Resolvable (packet : DvspPacket) : Prop :=
  ∃ u, NetspaceUrl.decode packet.bytes = .ok u ∧
    (2 ≤ u.gsn.length ∨
      (u.glq ≠ [] ∧ ∃ host, MetaspaceGsn.resolveGsn env.metaspace u.glq = .ok host))

theorem resolveGsn_next_ok {packet : DvspPacket} (hp : packet.WellFormed) {u : NetspaceUrl}
    (hu : NetspaceUrl.decode packet.bytes = .ok u) (hlen : 2 ≤ u.gsn.length)
    {table : NetspaceTable V6} (htable : Ipv4Table table) :
    ∃ reply, resolveGsn env left packet table = .ok reply := by
  have hroute := NetspaceUrl.dropLast_gsn_ne_nil hlen
  rw [resolveGsn_route env left hp hu (List.getLast?_eq_some_getLast hroute)]
  cases hnode : nodeNamed table (u.gsn.dropLast.getLast hroute) with
  | none => exact ⟨_,response_eq _⟩
  | some node =>
    obtain ⟨a,ha⟩ := htable node (List.mem_of_find?_eq_some hnode)
    by_cases hlast : u.gsn.length = 2
    · obtain ⟨reply,hreply,-⟩ := addressReply_eq packet ha
      exact ⟨reply,by simp only [if_pos hlast, hreply]⟩
    · obtain ⟨reply,hreply,-⟩ := forwardRequest_eq hp hu (by omega) ha
      exact ⟨reply,by simp only [if_neg hlast, hreply]⟩

/-- A route of one segment is gone when its last one is dropped: without a geosub
to look up, `back()` is asked of an empty vector. -/
theorem resolveGsn_empty_route {packet : DvspPacket} (hp : packet.WellFormed) {u : NetspaceUrl}
    (hu : NetspaceUrl.decode packet.bytes = .ok u) (hlen : u.gsn.length = 1) (hglq : u.glq = [])
    (table : NetspaceTable V6) : resolveGsn env left packet table = undefined := by
  have hne := NetspaceUrl.decode_ne_nil hu
  have hempty := NetspaceUrl.dropLast_gsn_eq_nil hlen
  simp [resolveGsn, hp.toString, hne, hu, hempty, hglq]

theorem resolveGsn_single {packet : DvspPacket} (hp : packet.WellFormed) {u : NetspaceUrl}
    (hu : NetspaceUrl.decode packet.bytes = .ok u) (hlen : u.gsn.length = 1)
    {table : NetspaceTable V6} (htable : Ipv4Table table) :
    (∃ reply, resolveGsn env left packet table = .ok reply) ↔
      u.glq ≠ [] ∧ ∃ host, MetaspaceGsn.resolveGsn env.metaspace u.glq = .ok host := by
  by_cases hglq : u.glq = []
  · rw [resolveGsn_empty_route env left hp hu hlen hglq]
    simp [undefined, hglq]
  · rw [resolveGsn_place env left hp hu hlen hglq]
    simp only [ne_eq, hglq, not_false_iff, true_and]
    cases hhost : MetaspaceGsn.resolveGsn env.metaspace u.glq with
    | error e => simp
    | ok host =>
      simp only [ok_bind, Except.ok.injEq, exists_eq', iff_true]
      cases hnode : nodeNamed table host with
      | none => exact ⟨_,response_eq _⟩
      | some node =>
        obtain ⟨a,ha⟩ := htable node (List.mem_of_find?_eq_some hnode)
        obtain ⟨reply,hreply,-⟩ := addressReply_eq packet ha
        exact ⟨reply,hreply⟩

theorem resolveGsn_answered {packet : DvspPacket} (hp : packet.WellFormed)
    {table : NetspaceTable V6} (htable : Ipv4Table table) :
    (∃ reply, resolveGsn env left packet table = .ok reply) ↔ Resolvable env packet := by
  cases hu : NetspaceUrl.decode packet.bytes with
  | error e =>
    have hno : ¬ Resolvable env packet := by
      rintro ⟨u,hu',-⟩
      rw [hu] at hu'
      contradiction
    simp only [hno, iff_false]
    rintro ⟨reply,h⟩
    simp only [resolveGsn, hp.toString] at h
    obtain ⟨text,htext,h⟩ := bind_eq_ok.mp h
    split at htext
    · contradiction
    · obtain rfl : packet.bytes = text := by simpa using htext
      simp [hu] at h
  | ok u =>
    have hresolvable : Resolvable env packet ↔ 2 ≤ u.gsn.length ∨
        (u.glq ≠ [] ∧ ∃ host, MetaspaceGsn.resolveGsn env.metaspace u.glq = .ok host) := by
      simp [Resolvable, hu]
    obtain ⟨-,-,-,hgsn,-⟩ := NetspaceUrl.decode_ok hu
    have hpos := List.length_pos_iff.mpr hgsn
    rw [hresolvable]
    by_cases htwo : 2 ≤ u.gsn.length
    · exact iff_of_true (resolveGsn_next_ok env left hp hu htwo htable) (.inl htwo)
    · rw [resolveGsn_single env left hp hu (by omega) htable]
      simp [htwo]

/-! ### The other messages -/

theorem listingReply_ok (packet : DvspPacket) (nodes : List (NetspaceNode V6)) :
    ∃ reply, listingReply env packet nodes = .ok reply := by
  obtain ⟨out,hout,-⟩ := strContent_new { packet.header with type := .gsnResponse }
    (constructFrameNetwork env.asio nodes) (fun _ => none)
  exact ⟨out,hout⟩

variable [DecidableEq V6]

/-- A whole address is asked for, and the hostname of its node fits the frame. -/
def HostnameReadable (packet : DvspPacket) (table : NetspaceTable V6) : Prop :=
  4 ≤ packet.bytes.length ∧
    ∀ n, table.find? (fun v => v.addr = .v4 (Block.ofList 4 (packet.bytes.take 4))) = some n →
      n.hostname.length ≤ 125

theorem hostname_read {packet : DvspPacket} (hp : packet.WellFormed)
    (hlen : 4 ≤ packet.bytes.length) (table : NetspaceTable V6) :
    packet.contentAs left.afterContent 0 4 = .ok (Block.ofList 4 (packet.bytes.take 4)).data ∧
      table.node? (table.findAddr (.v4 (Block.ofList 4 (packet.bytes.take 4)))) =
        table.find? fun v => v.addr = .v4 (Block.ofList 4 (packet.bytes.take 4)) := by
  refine ⟨?_,getElem?_findIdx _ _⟩
  rw [Block.data_ofList (by rw [List.length_take]; omega)]
  exact hp.contentAs left.afterContent hlen

theorem hostname_answered {packet : DvspPacket} (hp : packet.WellFormed)
    {table : NetspaceTable V6} (htable : Inbound table) :
    (∀ left, ∃ reply, hostname left packet table = .ok reply) ↔ HostnameReadable packet table := by
  by_cases hlen : 4 ≤ packet.bytes.length
  · have hread := fun left => hostname_read left hp hlen table
    simp only [HostnameReadable, hlen, true_and]
    cases hfind : table.find? (fun v => v.addr = .v4 (Block.ofList 4 (packet.bytes.take 4))) with
    | none =>
      have hreply := fun left => hostname_unknown left (hread left).1 ((hread left).2.trans hfind)
      simp [hreply, response_eq]
    | some node =>
      have hreply := fun left => hostname_known left (hread left).1 ((hread left).2.trans hfind)
      simp only [hreply, Option.some.injEq, forall_eq']
      have hshort := (htable node (List.mem_of_find?_eq_some hfind)).2
      by_cases hfits : node.hostname.length ≤ 125
      · simp only [hfits, iff_true]
        intro left
        rw [constructFrameHostname_ok hfits, ok_bind]
        exact ⟨_,DvspPacket.reset_null _ (FrameHostname.bytes_ne_nil _)⟩
      · simp only [hfits, iff_false]
        intro h
        obtain ⟨reply,hreply⟩ := h unmapped
        rw [constructFrameHostname_overrun _ _ (by omega) hshort] at hreply
        contradiction
  · have hfault : packet.contentAs (fun _ => none) 0 4 = undefined :=
      DvspPacket.read_outside packet (by omega) (by decide)
    simp only [HostnameReadable, hlen, false_and, iff_false]
    intro h
    obtain ⟨reply,hreply⟩ := h unmapped
    simp [hostname, unmapped, hfault, undefined] at hreply

/-! ### Every message -/

theorem processPacket_plain {packet : DvspPacket} (hreg : packet.header.type ≠ .gsnRegisterHost)
    (hres : packet.header.type ≠ .gsnResolution) (hname : packet.header.type ≠ .gsnHostname)
    (hreq : packet.header.type ≠ .gsnRequest) (addr : NetspaceAddr V6) (table : NetspaceTable V6) :
    ∃ reply, (processPacket env left packet addr table).1 = .ok reply := by
  simp only [processPacket, if_neg hreg, if_neg hres, if_neg hname, if_neg hreq]
  split_ifs
  · rcases unregisterHost_cases env addr table with ⟨before,n,after,-,-,-,heq⟩ | ⟨-,heq⟩
    · exact ⟨_,by rw [heq]⟩
    · exact ⟨_,by rw [heq]⟩
  · exact listingReply_ok env packet _
  · exact listingReply_ok env packet _
  · exact ⟨_,response_eq _⟩

/-- What each kind of message needs to be answered. -/
structure Answerable (packet : DvspPacket) (table : NetspaceTable V6) : Prop where
  register : packet.header.type = .gsnRegisterHost → RegisterReadable packet
  resolution : packet.header.type = .gsnResolution → Resolvable env packet
  hostname : packet.header.type = .gsnHostname → HostnameReadable packet table
  request : packet.header.type = .gsnRequest →
    ∃ u, NetspaceUrl.decode packet.bytes = .ok u ∧ HostsReply env packet u table

theorem replies_iff {packet : DvspPacket} (hp : packet.WellFormed) (addr : NetspaceAddr V6)
    {table : NetspaceTable V6} (htable : Inbound table) :
    (∀ left, ∃ reply, (processPacket env left packet addr table).1 = .ok reply) ↔
      Answerable env packet table := by
  have hv4 : Ipv4Table table := fun n hn => (htable n hn).1
  constructor
  · intro h
    obtain ⟨reply,hreply⟩ := h unmapped
    refine ⟨fun htype => ?_,fun htype => ?_,fun htype => ?_,fun htype => ?_⟩
    · rw [processPacket_register env _ htype] at hreply
      exact registerHost_unmapped unmapped env hp rfl (fun _ => rfl) hreply
    · rw [processPacket_resolution env _ htype] at hreply
      exact (resolveGsn_answered env unmapped hp hv4).mp ⟨reply,hreply⟩
    · simp only [processPacket_hostname env _ htype] at h
      exact (hostname_answered hp htable).mp h
    · simp only [processPacket_request env _ htype] at h
      exact (query_answered env hp hv4).mp h
  · intro h left
    by_cases hreg : packet.header.type = .gsnRegisterHost
    · rw [processPacket_register env left hreg]
      exact registerHost_ok left env hp (h.register hreg) addr table
    by_cases hres : packet.header.type = .gsnResolution
    · rw [processPacket_resolution env left hres]
      exact (resolveGsn_answered env left hp hv4).mpr (h.resolution hres)
    by_cases hname : packet.header.type = .gsnHostname
    · rw [processPacket_hostname env left hname]
      exact (hostname_answered hp htable).mpr (h.hostname hname) left
    by_cases hreq : packet.header.type = .gsnRequest
    · rw [processPacket_request env left hreq]
      exact (query_answered env hp hv4).mpr (h.request hreq) left
    · exact processPacket_plain env left hreg hres hname hreq addr table

/-- The node replies, whatever is behind its buffers, and a request that is not an
accepted URL is answered as malformed. -/
def AnswersPacket (packet : DvspPacket) (addr : NetspaceAddr V6) (table : NetspaceTable V6) : Prop :=
  ∀ left, (∃ reply, (processPacket env left packet addr table).1 = .ok reply) ∧
    (packet.header.type = .gsnResolution ∨ packet.header.type = .gsnRequest →
      (∀ u, NetspaceUrl.decode packet.bytes ≠ .ok u) →
        processPacket env left packet addr table = (.ok (responsePacket .malformedContent),table))

theorem answersPacket_iff {packet : DvspPacket} (hp : packet.WellFormed) (a : NetspaceIpv4)
    {table : NetspaceTable V6} (htable : Reachable table) :
    AnswersPacket env packet (.v4 a) table ↔ Answerable env packet table := by
  rw [← replies_iff env hp (.v4 a) htable.inbound]
  constructor
  · exact fun h left => (h left).1
  · intro h left
    refine ⟨h left,fun htype hbad => ?_⟩
    -- a URL that is not accepted is not answered at all
    have hanswerable := (replies_iff env hp (.v4 a) htable.inbound).mp h
    rcases htype with htype | htype
    · obtain ⟨u,hu,-⟩ := hanswerable.resolution htype
      exact absurd hu (hbad u)
    · obtain ⟨u,hu,-⟩ := hanswerable.request htype
      exact absurd hu (hbad u)

end Answers

def emptyResolution : DvspPacket :=
  ⟨{ DvspHeader.init with type := .gsnResolution },.null⟩

/-- A resolution over two hops, and one without a content. -/
theorem answersPacket_iff_resolution :
    AnswersPacket isolated twoHopRequest localhost [] ∧
      ¬ AnswersPacket isolated emptyResolution localhost [] := by
  constructor
  · refine (answersPacket_iff isolated (by decide +kernel) _ reachable_nil).mpr ⟨?_,?_,?_,?_⟩
    · exact fun hother => absurd hother (by decide)
    · exact fun _ => ⟨⟨ascii "spring://b.a",[ascii "b",ascii "a"],[],[],[]⟩,by decide +kernel,
        .inl (by decide)⟩
    · exact fun hother => absurd hother (by decide)
    · exact fun hother => absurd hother (by decide)
  · intro h
    have hanswerable := (answersPacket_iff isolated (by decide) _ reachable_nil).mp h
    obtain ⟨u,hu,-⟩ := hanswerable.resolution rfl
    contradiction

theorem empty_resolution_escapes :
    emptyResolution.WellFormed ∧ Reachable ([] : NetspaceTable Empty) ∧
      ¬ AnswersPacket isolated emptyResolution localhost [] := by
  refine ⟨by decide,reachable_nil,fun h => ?_⟩
  obtain ⟨reply,hreply⟩ := (h unmapped).1
  contradiction

end GsnNode
