import GsnNode.AcceptedNodes

/-! Whether an address belongs to one node at a time. -/

set_option autoImplicit false

namespace GsnNode
open KeyedList ByteWords ProtocolHandler StepRuns

section Addresses
variable {V6 : Type} [DecidableEq V6]

theorem NetspaceTable.findAddr_eq_length (table : NetspaceTable V6) (addr : NetspaceAddr V6) :
    table.findAddr addr = table.length ↔ ∀ m ∈ table, m.addr ≠ addr := by
  simp [findAddr, List.findIdx_eq_length]

/-- The address that a `gsn_hostname` request asks for. -/
def AsksFor (packet : DvspPacket) (a : NetspaceIpv4) : Prop :=
  packet.WellFormed ∧ packet.header.type = .gsnHostname ∧ packet.bytes.take 4 = a.data

/-- The address is gone: it is not found, and whoever asks for its hostname is told so. -/
structure AddressGone (addr : NetspaceAddr V6) (table : NetspaceTable V6) : Prop where
  not_found : table.findAddr addr = table.length
  refused : ∀ a, addr = .v4 a → ∀ (env : Surroundings V6) (left : Leftover) (packet : DvspPacket)
    (inbound : NetspaceAddr V6), AsksFor packet a →
      processPacket env left packet inbound table = (response .netspaceError,table)

/-- One node for each address, whatever the calls are. -/
structure AddressesOwned (calls : List (PacketCall V6)) : Prop where
  distinct : TablesMeet (Distinct NetspaceNode.addr) calls
  refused : ∀ before c after, calls = before ++ c :: after →
    c.packet.header.type = .gsnRegisterHost → (∃ m ∈ runCalls before [], m.addr = c.addr) →
      c.result (runCalls before []) ≠ response .ok
  removed : ∀ before c after, calls = before ++ c :: after →
    c.packet.header.type = .gsnUnregisterHost → c.result (runCalls before []) = response .ok →
      AddressGone c.addr (runCalls (before ++ [c]) [])

theorem AsksFor.read {packet : DvspPacket} {a : NetspaceIpv4} (h : AsksFor packet a)
    (left : Leftover) : packet.contentAs left.afterContent 0 4 = .ok a.data := by
  obtain ⟨hp,-,hbytes⟩ := h
  have hlen : 4 ≤ packet.bytes.length := by
    have := congrArg List.length hbytes
    simp only [List.length_take, a.size_eq] at this
    omega
  rw [hp.contentAs left.afterContent hlen, hbytes]

theorem addressGone_iff (addr : NetspaceAddr V6) (table : NetspaceTable V6) :
    AddressGone addr table ↔ ∀ m ∈ table, m.addr ≠ addr := by
  rw [← table.findAddr_eq_length]
  refine ⟨fun h => h.not_found,fun h => ⟨h,?_⟩⟩
  rintro a rfl env left packet inbound hask
  have hnode : table.node? (table.findAddr (.v4 a)) = none := by
    rw [h]
    exact List.getElem?_eq_none le_rfl
  rw [processPacket_hostname env left hask.2.1, hostname_unknown left (hask.read left) hnode]

theorem distinct_iff (calls : List (PacketCall V6)) :
    TablesMeet (Distinct NetspaceNode.addr) calls ↔
      AcceptedMeet (fun c table _ _ _ => ∀ m ∈ table, m.addr ≠ c.addr) calls := by
  refine tablesMeet_iff (fun table table' hsub h => h.sublist hsub) ?_ (Distinct.nil _) calls
  intro c table st hostname suid h _
  rw [distinct_append_singleton]
  exact ⟨fun hd => hd.2,fun hfresh => ⟨h,hfresh⟩⟩

theorem removed_gone {c : PacketCall V6} {table : NetspaceTable V6}
    (hd : Distinct NetspaceNode.addr table) (htype : c.packet.header.type = .gsnUnregisterHost)
    (hok : c.result table = response .ok) : AddressGone c.addr (c.step table) := by
  obtain ⟨before,n,after,rfl,hn,-,heq⟩ := (c.step_allowed table).unregistered htype hok
  rw [addressGone_iff, heq, ← hn]
  exact hd.others_ne

/-- Every address has one node throughout a run exactly if no registration is
accepted from an address that has one. -/
theorem addressesOwned_iff (calls : List (PacketCall V6)) :
    AddressesOwned calls ↔ AcceptedMeet (fun c table _ _ _ => ∀ m ∈ table, m.addr ≠ c.addr) calls := by
  constructor
  · exact fun h => (distinct_iff calls).mp h.distinct
  · intro h
    have hd := (distinct_iff calls).mpr h
    refine ⟨hd,?_,?_⟩
    · rintro before c after heq htype ⟨m,hm,haddr⟩ hok
      obtain ⟨st,hostname,suid,ha⟩ := accepts_of_result htype hok
      exact h before c after heq st hostname suid ha m hm haddr
    · intro before c after heq htype hok
      rw [runCalls_snoc]
      exact removed_gone (hd before (c :: after) heq) htype hok

end Addresses

/-- Two registrations from one address, with different names. -/
def registeredTwice : List (PacketCall Empty) :=
  [⟨isolated,unmapped,packetOf .gsnRegisterHost (registerFrame (ascii "b|a")),localhost⟩,
    ⟨isolated,unmapped,packetOf .gsnRegisterHost (registerFrame (ascii "d|c")),localhost⟩]

theorem registeredTwice_not_owned : ¬ AddressesOwned registeredTwice := by
  intro h
  have hd := h.distinct registeredTwice [] (by simp)
  exact absurd hd (by decide +kernel)

end GsnNode
