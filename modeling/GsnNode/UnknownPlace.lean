import GsnNode.AcceptedNodes
import GsnNode.ResolutionChain

/-! What is answered when the database knows nothing of a place. The empty text that
stands for this is looked up in the table like any hostname. -/

set_option autoImplicit false

namespace GsnNode
open KeyedList ByteWords ProtocolHandler StepRuns

section Unknown
variable {V6 : Type}

/-- A resolution request for a place that the database does not know. -/
structure AsksUnknownPlace (db : MetaspaceDb) (packet : DvspPacket) : Prop where
  wellFormed : packet.WellFormed
  type_eq : packet.header.type = .gsnResolution
  url : ∃ u, NetspaceUrl.decode packet.bytes = .ok u ∧ u.gsn.length = 1 ∧ u.glq ≠ [] ∧
    MetaspaceGsn.resolveGsn db u.glq = .ok []

theorem nodeNamed_eq_none (table : NetspaceTable V6) (host : Text) :
    nodeNamed table host = none ↔ ∀ m ∈ table, m.hostname ≠ host := by
  simp [nodeNamed]

theorem addressReply_ne_refusal (packet : DvspPacket) (node : NetspaceNode V6) :
    addressReply packet node ≠ response .netspaceError := by
  cases haddr : node.addr with
  | v4 a =>
    obtain ⟨reply,hreply,hgives⟩ := addressReply_eq packet haddr
    obtain ⟨b,-,hbytes⟩ := hgives.frame
    rw [hreply, response_eq]
    intro heq
    rw [Except.ok.inj heq] at hbytes
    simpa [responsePacket, DvspPacket.bytes, FrameAddress.bytes] using congrArg List.length hbytes
  | v6 a =>
    rw [response_eq]
    simp [addressReply, constructFrameAddress, haddr, NetspaceAddr.toV4, throws]

variable [DecidableEq V6]

def RefusesUnknownPlaces (env : Surroundings V6) (table : NetspaceTable V6) : Prop :=
  ∀ (db : MetaspaceDb) (left : Leftover) (packet : DvspPacket) (addr : NetspaceAddr V6),
    AsksUnknownPlace db packet →
      processPacket { env with metaspace := db } left packet addr table =
        (response .netspaceError,table)

theorem AsksUnknownPlace.answer {env : Surroundings V6} {packet : DvspPacket}
    (h : AsksUnknownPlace env.metaspace packet) (left : Leftover) (addr : NetspaceAddr V6)
    (table : NetspaceTable V6) :
    processPacket env left packet addr table =
      (match nodeNamed table [] with
        | none => response .netspaceError
        | some node => addressReply packet node,table) := by
  obtain ⟨u,hu,hlen,hglq,hhost⟩ := h.url
  rw [processPacket_resolution env left h.type_eq,
    resolveGsn_place env left h.wellFormed hu hlen hglq, hhost]
  rfl

def emptyDb : MetaspaceDb := ⟨fun _ => .noRow,fun _ => .noRow⟩

def placeRequest : DvspPacket := packetOf .gsnResolution (ascii "spring://uk:tn98")

theorem placeRequest_unknown : AsksUnknownPlace emptyDb placeRequest :=
  ⟨by decide +kernel,rfl,⟨ascii "spring://uk:tn98",[ascii "uk"],ascii "tn98",[],[]⟩,by decide +kernel,
    by decide +kernel,by decide +kernel,by decide +kernel⟩

theorem refusesUnknownPlaces_iff (env : Surroundings V6) (table : NetspaceTable V6) :
    RefusesUnknownPlaces env table ↔ ∀ m ∈ table, m.hostname ≠ [] := by
  rw [← nodeNamed_eq_none]
  constructor
  · intro h
    have hanswer := h emptyDb unmapped placeRequest (.v4 default) placeRequest_unknown
    rw [@AsksUnknownPlace.answer V6 _ { env with metaspace := emptyDb } _ placeRequest_unknown,
      Prod.mk.injEq] at hanswer
    cases hnode : nodeNamed table [] with
    | none => rfl
    | some node =>
      rw [hnode] at hanswer
      exact absurd hanswer.1 (addressReply_ne_refusal placeRequest node)
  · intro h db left packet addr hask
    rw [@AsksUnknownPlace.answer V6 _ { env with metaspace := db } _ hask, h]

/-- Unknown places are refused throughout a run exactly if no registration with an
empty hostname is accepted in it. -/
theorem refusesUnknownPlaces_throughout (env : Surroundings V6) (calls : List (PacketCall V6)) :
    TablesMeet (RefusesUnknownPlaces env) calls ↔
      AcceptedMeet (fun _ _ _ hostname _ => hostname ≠ []) calls :=
  (throughout_congr (tablesMeet_true calls) fun table _ => refusesUnknownPlaces_iff env table).trans
    (nodesMeet_iff (fun n => n.hostname ≠ []) calls)

end Unknown

/-- The text of this registration begins with the separator. -/
def namelessCall : PacketCall Empty :=
  ⟨isolated,unmapped,packetOf .gsnRegisterHost (registerFrame (ascii "|s")),localhost⟩

theorem unknown_place_found : ¬ TablesMeet (RefusesUnknownPlaces isolated) [namelessCall] := by
  intro h
  have hrun : runCalls [namelessCall] [] = [⟨.org,localhost,[],.dvsp,ascii "s"⟩] := by decide +kernel
  have hlast : RefusesUnknownPlaces isolated (runCalls [namelessCall] []) := h.last
  rw [hrun, refusesUnknownPlaces_iff] at hlast
  exact hlast _ List.mem_cons_self rfl

end GsnNode
