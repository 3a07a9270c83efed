import GsnNode.PacketAnswers
import GsnNode.UnknownPlace

/-! The host that a URL is resolved through, and the URLs that leave none. -/

set_option autoImplicit false

namespace GsnNode
open ByteWords ProtocolHandler

/-- The next host of the route without its last segment, or the one that the
database gives for the geosub query when nothing is left of the route. -/
def nextHost (db : MetaspaceDb) (u : NetspaceUrl) : Call (Option Text) :=
  if u.gsn.dropLast = [] ∧ u.glq ≠ [] then (MetaspaceGsn.resolveGsn db u.glq).map some
  else pure u.gsn.dropLast.getLast?

section Answers
variable {V6 : Type} (env : Surroundings V6) (left : Leftover)

/-- A URL without a next host, or with one that is not in the table, is refused, and
no route is looked into that is empty. -/
structure ResolutionAnswers (packet : DvspPacket) (u : NetspaceUrl) (table : NetspaceTable V6) :
    Prop where
  defined : resolveGsn env left packet table ≠ undefined
  refused : ∀ next, nextHost env.metaspace u = .ok next →
    (∀ host ∈ next, ∀ m ∈ table, m.hostname ≠ host) →
      resolveGsn env left packet table = response .netspaceError

variable {packet : DvspPacket} (hp : packet.WellFormed) {u : NetspaceUrl}
  (hu : NetspaceUrl.decode packet.bytes = .ok u)

theorem response_defined (code : DvspRcode) : response code ≠ undefined := by
  simp [response_eq, undefined]

theorem addressReply_defined (packet : DvspPacket) (node : NetspaceNode V6) :
    addressReply packet node ≠ undefined := by
  cases haddr : node.addr with
  | v4 a =>
    obtain ⟨reply,hreply,-⟩ := addressReply_eq packet haddr
    simp [hreply, undefined]
  | v6 a => simp [addressReply, constructFrameAddress, haddr, NetspaceAddr.toV4, throws, undefined]

include hp hu in
theorem forwardRequest_defined (hlen : 3 ≤ u.gsn.length) (node : NetspaceNode V6) :
    forwardRequest packet u.popRoute node ≠ undefined := by
  -- up to the address nothing depends on the node
  obtain ⟨reply,hreply,-⟩ := @forwardRequest_eq V6 packet hp u hu hlen
    { node with addr := .v4 default } default rfl
  obtain ⟨text,htext,hreply⟩ := bind_eq_ok.mp hreply
  obtain ⟨p,hp,-⟩ := bind_eq_ok.mp hreply
  simp only [forwardRequest, htext, ok_bind, hp]
  cases node.addr <;> simp [NetspaceAddr.toV4, throws, undefined]

theorem metaspace_defined (db : MetaspaceDb) (query : Text) :
    MetaspaceGsn.resolveGsn db query ≠ undefined := by
  have hgeosub : ∀ answer, MetaspaceGsn.geosubOf answer ≠ undefined := by
    intro answer
    cases answer <;> simp [MetaspaceGsn.geosubOf, throws, undefined]
  unfold MetaspaceGsn.resolveGsn
  split
  · simp [throws, undefined]
  · split
    · exact hgeosub _
    · exact hgeosub _

include hp hu

theorem resolutionAnswers_route (hlen : 2 ≤ u.gsn.length) (table : NetspaceTable V6) :
    ResolutionAnswers env left packet u table := by
  have hroute := NetspaceUrl.dropLast_gsn_ne_nil hlen
  have hlast := List.getLast?_eq_some_getLast hroute
  have heq := resolveGsn_route env left hp hu hlast table
  constructor
  · rw [heq]
    cases hnode : nodeNamed table (u.gsn.dropLast.getLast hroute) with
    | none => exact response_defined _
    | some node =>
      by_cases htwo : u.gsn.length = 2
      · simpa [htwo] using addressReply_defined packet node
      · simpa [htwo] using forwardRequest_defined hp hu (by omega) node
  · intro next hnext hunknown
    have hsome : some (u.gsn.dropLast.getLast hroute) = next := by
      simpa [nextHost, hroute, hlast] using hnext
    subst hsome
    have hnone := (nodeNamed_eq_none table _).mpr (hunknown _ rfl)
    rw [heq, hnone]

theorem resolutionAnswers_place (hlen : u.gsn.length = 1) (hglq : u.glq ≠ [])
    (table : NetspaceTable V6) : ResolutionAnswers env left packet u table := by
  have hempty := NetspaceUrl.dropLast_gsn_eq_nil hlen
  have heq := resolveGsn_place env left hp hu hlen hglq table
  constructor
  · rw [heq]
    cases hhost : MetaspaceGsn.resolveGsn env.metaspace u.glq with
    | error e =>
      intro h
      exact metaspace_defined env.metaspace u.glq (by simpa [undefined, hhost] using h)
    | ok host =>
      rw [ok_bind]
      cases hnode : nodeNamed table host with
      | none => exact response_defined _
      | some node => exact addressReply_defined packet node
  · intro next hnext hunknown
    rw [heq]
    cases hhost : MetaspaceGsn.resolveGsn env.metaspace u.glq with
    | error e => simp [nextHost, hempty, hglq, hhost, Except.map] at hnext
    | ok host =>
      have hsome : some host = next := by
        simpa [nextHost, hempty, hglq, hhost, Except.map] using hnext
      subst hsome
      have hnone := (nodeNamed_eq_none table host).mpr (hunknown host rfl)
      rw [ok_bind, hnone]

theorem resolutionAnswers_iff (table : NetspaceTable V6) :
    ResolutionAnswers env left packet u table ↔ 2 ≤ u.gsn.length ∨ u.glq ≠ [] := by
  obtain ⟨-,-,-,hgsn,-⟩ := NetspaceUrl.decode_ok hu
  have hpos := List.length_pos_iff.mpr hgsn
  by_cases hlen : 2 ≤ u.gsn.length
  · exact iff_of_true (resolutionAnswers_route env left hp hu hlen table) (.inl hlen)
  by_cases hglq : u.glq = []
  · have hempty := resolveGsn_empty_route env left hp hu (by omega) hglq table
    exact iff_of_false (fun h => h.defined hempty) (by simp [hlen, hglq])
  · exact iff_of_true (resolutionAnswers_place env left hp hu (by omega) hglq table) (.inr hglq)

end Answers

/-- Three hops, and a host of its own. -/
theorem resolutionAnswers_iff_hops :
    ResolutionAnswers isolated unmapped (packetOf .gsnResolution (ascii "spring://c.b.a"))
        ⟨ascii "spring://c.b.a",[ascii "c",ascii "b",ascii "a"],[],[],[]⟩ [] ∧
      ¬ ResolutionAnswers isolated unmapped (packetOf .gsnResolution (ascii "spring://inv"))
        ⟨ascii "spring://inv",[ascii "inv"],[],[],[]⟩ [] := by
  constructor
  · exact (resolutionAnswers_iff isolated unmapped (by decide +kernel) (by decide +kernel) []).mpr
      (.inl (by decide))
  · intro h
    exact absurd ((resolutionAnswers_iff isolated unmapped (by decide +kernel) (by decide +kernel)
      []).mp h) (by decide)

theorem single_segment_unanswered :
    ∃ u, NetspaceUrl.decode (packetOf .gsnResolution (ascii "spring://inv")).bytes = .ok u ∧
      ¬ ResolutionAnswers isolated unmapped (packetOf .gsnResolution (ascii "spring://inv")) u [] := by
  have hu : NetspaceUrl.decode (packetOf .gsnResolution (ascii "spring://inv")).bytes =
      .ok ⟨ascii "spring://inv",[ascii "inv"],[],[],[]⟩ := by decide +kernel
  refine ⟨_,hu,fun h => ?_⟩
  exact h.defined (resolveGsn_empty_route isolated unmapped (by decide +kernel) hu rfl rfl [])

end GsnNode
