import GsnNode.PacketAnswers

/-! The text that `query` puts together out of the replies of the hosts. -/

set_option autoImplicit false

namespace GsnNode
open ByteWords MemoryRegion ProtocolHandler DelimitedText

section Joined
variable {V6 : Type} (env : Surroundings V6)

/-- What a host says in a response that is ok. -/
def hostAnswer (it : Nat) (frame : HttpFrame) (address : NetspaceIpv4) : Option Text :=
  match env.sendFrame it frame address with
  | some recv =>
    if recv.val.header.type = .gsnResponse ∧ (FrameService.ofBytes recv.val.bytes).response = .ok then
      some (recv.val.bytes.drop FrameService.sizeOf)
    else none
  | none => none

/-- What is asked of the node at this position when all are asked. -/
def nodeAnswer (packet : DvspPacket) (query : Text) (p : NetspaceNode V6 × Nat) : Option Text :=
  match p.1.addr with
  | .v4 a =>
    if p.1.proto = .http then hostAnswer env p.2 (frameAll packet query p.1 a) a else none
  | .v6 _ => none

def answersFrom (packet : DvspPacket) (query : Text) (k : Nat) (table : NetspaceTable V6) :
    List Text :=
  (table.zipIdx k).filterMap (nodeAnswer env packet query)

def joinedAnswers (packet : DvspPacket) (front query : Text) (table : NetspaceTable V6) : Text :=
  if front = ascii "esusx" then [colon,colon].intercalate (answersFrom env packet query 0 table)
  else
    match table.node? (table.findSuid front) with
    | some node =>
      match node.addr with
      | .v4 a => (hostAnswer env (table.findSuid front) (frameOne packet query node) a).getD []
      | .v6 _ => []
    | none => []

/-- The text of a response that is long enough. -/
theorem replyText_eq (left : Leftover) (it : Nat) {recv : DvspPacket} (hr : recv.WellFormed)
    (htype : recv.header.type = .gsnResponse) (hlen : FrameService.sizeOf ≤ recv.bytes.length) :
    replyText left it recv = .ok (if (FrameService.ofBytes recv.bytes).response = .ok then
      some (recv.bytes.drop FrameService.sizeOf) else none) := by
  have hne : recv.bytes ≠ [] := by
    apply List.length_pos_iff.mp
    rw [FrameService.sizeOf] at hlen
    omega
  have hcode : (FrameService.ofBytes (recv.bytes.take FrameService.sizeOf)).response =
      (FrameService.ofBytes recv.bytes).response := by
    simp [FrameService.ofBytes, DvspRcode.ofBytes, FrameService.sizeOf, List.take_take]
  simp only [replyText, htype, if_true, hr.contentAs (left.afterReply it) hlen, ok_bind, hcode,
    hr.toString_from (left.afterReply it) hlen hne]
  split <;> rfl

theorem replyText_other (left : Leftover) (it : Nat) {recv : DvspPacket}
    (htype : recv.header.type ≠ .gsnResponse) : replyText left it recv = .ok none := by
  simp [replyText, htype]

theorem contact_eq (left : Leftover) {it : Nat} {frame : HttpFrame} {address : NetspaceIpv4}
    (h : HostReplies env it frame address) :
    contact env left it frame address = .ok (hostAnswer env it frame address) := by
  obtain ⟨recv,hrecv,hlen⟩ := h
  simp only [contact, sendFrame, hrecv, pure_eq_ok, ok_bind, hostAnswer]
  by_cases htype : recv.val.header.type = .gsnResponse
  · simp only [replyText_eq left it recv.2 htype (hlen htype), htype, true_and]
  · rw [replyText_other left it htype, if_neg (fun h => htype h.1)]

/-- The answers that are already in the stream. -/
structure ProtocolHandler.QueryState.Holds (s : QueryState) (answers : List Text) : Prop where
  ss_eq : s.ss = [colon,colon].intercalate answers
  first_iff : s.first = true ↔ answers = []

theorem ProtocolHandler.QueryState.Holds.addReply {s : QueryState} {answers : List Text} (h : s.Holds answers)
    (packet : DvspPacket) (str : Option Text) :
    (s.addReply packet str).Holds (answers ++ str.toList) := by
  cases str with
  | none => simpa using ⟨h.ss_eq,h.first_iff⟩
  | some str =>
    refine ⟨?_,by simp [QueryState.addReply]⟩
    by_cases hfirst : answers = []
    · have hss : s.ss = [] := by simp [h.ss_eq, hfirst]
      simp [QueryState.addReply, h.first_iff.mpr hfirst, hfirst, hss]
    · have hlater : s.first = false := by
        rw [Bool.eq_false_iff]
        exact fun hf => hfirst (h.first_iff.mp hf)
      have hsep : ascii "::" = [colon,colon] := by decide
      simp only [QueryState.addReply, hlater, Bool.false_eq_true, if_false, Option.toList_some, hsep]
      rw [intercalate_append_singleton _ hfirst, h.ss_eq]

theorem queryStep_holds (left : Leftover) {packet : DvspPacket} {query : Text} (hq : query ≠ [])
    (hlen : query.length < 2 ^ 32) {s s' : QueryState} (hs : s.Of packet) {answers : List Text}
    (hh : s.Holds answers) {node : NetspaceNode V6} {a : NetspaceIpv4} (ha : node.addr = .v4 a)
    {it : Nat} (hreply : node.proto = .http → HostReplies env it (frameAll packet query node a) a)
    (h : queryStep env left query s node it = .ok s') :
    s'.Holds (answers ++ (nodeAnswer env packet query (node,it)).toList) := by
  rw [queryStep_eq env left hq hlen hs ha] at h
  by_cases hproto : node.proto = .http
  · rw [if_pos hproto, contact_eq env left (hreply hproto)] at h
    obtain rfl : s.addReply _ _ = s' := by simpa [Except.map] using h
    have hanswer : nodeAnswer env packet query (node,it) =
        hostAnswer env it (frameAll packet query node a) a := by simp [nodeAnswer, ha, hproto]
    rw [hanswer]
    exact hh.addReply _ _
  · rw [if_neg hproto] at h
    obtain rfl : s.addReply _ none = s' := by simpa [Except.map] using h
    have hanswer : nodeAnswer env packet query (node,it) = none := by
      simp [nodeAnswer, ha, hproto]
    rw [hanswer]
    exact hh.addReply _ _

theorem queryLoop_holds (left : Leftover) {packet : DvspPacket} {query : Text} (hq : query ≠ [])
    (hlen : query.length < 2 ^ 32) {nodes : NetspaceTable V6} {k : Nat} {s s' : QueryState}
    (hs : s.Of packet) {answers : List Text} (hh : s.Holds answers) (htable : Ipv4Table nodes)
    (hreply : ∀ node it a, (node,it) ∈ nodes.zipIdx k → node.proto = .http → node.addr = .v4 a →
      HostReplies env it (frameAll packet query node a) a)
    (h : queryLoop env left query nodes k s = .ok s') :
    s'.Holds (answers ++ answersFrom env packet query k nodes) := by
  induction nodes generalizing k s answers with
  | nil =>
    obtain rfl : s = s' := by simpa [queryLoop] using h
    simpa [answersFrom] using hh
  | cons node nodes ih =>
    rw [queryLoop_cons] at h
    obtain ⟨t,ht,h⟩ := bind_eq_ok.mp h
    obtain ⟨a,ha⟩ := htable node List.mem_cons_self
    have hrest : Ipv4Table nodes := fun n hn => htable n (List.mem_cons_of_mem _ hn)
    have hnext := queryStep_holds env left hq hlen hs hh ha
      (fun hproto => hreply node k a (by simp) hproto ha) ht
    have hof := queryStep_of env left hq hlen hs ⟨a,ha⟩ ht
    have hend := ih hof hnext hrest
      (fun n it b hn => hreply n it b (by simp [List.zipIdx_cons, hn])) h
    rw [List.append_assoc] at hend
    have hcons : answersFrom env packet query k (node :: nodes) =
        (nodeAnswer env packet query (node,k)).toList ++ answersFrom env packet query (k + 1) nodes := by
      rw [answersFrom, List.zipIdx_cons, List.filterMap_cons]
      cases nodeAnswer env packet query (node,k) <;> rfl
    rw [hcons]
    exact hend

/-- The hosts that reply determine the text, whatever lies behind the buffers. -/
theorem askHosts_eq (left : Leftover) {packet : DvspPacket} (hp : packet.WellFormed)
    {u : NetspaceUrl} {front : Text} (hfront : u.gsn.head? = some front)
    (hlen : u.spq.length < 2 ^ 32) {table : NetspaceTable V6} (htable : Ipv4Table table)
    (hhosts : HostsReply env packet u table) {text : Text}
    (h : askHosts env left packet front u.spq table = .ok text) :
    text = joinedAnswers env packet front u.spq table := by
  simp only [HostsReply, hfront, Option.some.injEq] at hhosts
  by_cases hall : front = ascii "esusx"
  · simp only [if_pos hall] at hhosts
    simp only [askHosts, joinedAnswers, if_pos hall] at h ⊢
    simp only [queryAll, copy_eq_queryPacket hp, ok_bind] at h
    obtain ⟨s,hs,h⟩ := bind_eq_ok.mp h
    obtain ⟨u',-,h⟩ := bind_eq_ok.mp h
    obtain rfl : s.ss = text := by simpa using h
    have hstart : QueryState.Holds
        ⟨queryPacket packet packet.bytes packet.header.addrDest,[],true⟩ [] := ⟨by simp,by simp⟩
    rcases hhosts with rfl | ⟨hq,hhosts⟩
    · obtain rfl : _ = s := by simpa [queryLoop] using hs
      simp [answersFrom]
    · have hend := queryLoop_holds env left hq hlen ⟨_,_,rfl⟩ hstart htable
        (fun node it a hn => hhosts it node a (List.mem_zipIdx_iff_getElem?.mp hn)) hs
      exact hend.ss_eq
  · simp only [if_neg hall] at hhosts
    simp only [askHosts, joinedAnswers, if_neg hall] at h ⊢
    cases hnode : table.node? (table.findSuid front) with
    | none =>
      rw [queryOne_unknown env left hp _ hnode] at h
      exact (Except.ok.inj h).symm
    | some node =>
      obtain ⟨a,ha⟩ := htable node (List.mem_of_getElem? hnode)
      obtain ⟨hq,hreply⟩ := hhosts front node a rfl hnode ha
      rw [queryOne_known env left hp hq hlen hnode ha, contact_eq env left hreply] at h
      simp only [ha]
      exact (Except.ok.inj h).symm

theorem query_reply (left : Leftover) {packet : DvspPacket} (hp : packet.WellFormed)
    {u : NetspaceUrl} (hu : NetspaceUrl.decode packet.bytes = .ok u) {front : Text}
    (hfront : u.gsn.head? = some front) {table : NetspaceTable V6} (htable : Ipv4Table table)
    (hhosts : HostsReply env packet u table) :
    query env left packet table = DvspPacket.strContent
      { DvspPacket.init with header.type := .gsnResponse }
      (joinedAnswers env packet front u.spq table) := by
  have hanswered := (query_answered env hp htable).mpr ⟨u,hu,hhosts⟩ left
  obtain ⟨text,htext⟩ := (query_ok_iff env left hp hu hfront table).mp hanswered
  obtain rfl := askHosts_eq env left hp hfront (spq_length_lt hp hu) htable hhosts htext
  rw [query_eq env left hp hu hfront, htext, ok_bind]

end Joined
end GsnNode
