import GsnNode.AcceptedNodes

/-! The kinds of the nodes of a table, which come from two bytes of a frame. -/

set_option autoImplicit false

namespace GsnNode
open ByteWords ProtocolHandler StepRuns

def NetnodeType.Known (type : NetnodeType) : Prop :=
  type ∈ [undefined,root,org,trusted,georoot]

def ServiceProtocol.Known (proto : ServiceProtocol) : Prop := proto ∈ [dvsp,http]

instance (type : NetnodeType) : Decidable type.Known :=
  inferInstanceAs (Decidable (type ∈ _))

instance (proto : ServiceProtocol) : Decidable proto.Known :=
  inferInstanceAs (Decidable (proto ∈ _))

def FrameRegister.KnownKind (st : FrameRegister) : Prop :=
  NetnodeType.Known ⟨st.type⟩ ∧ ServiceProtocol.Known ⟨st.protocol⟩

/-- The only check that the handler makes on the two bytes. -/
def FrameRegister.TypeRefused (st : FrameRegister) : Prop :=
  charValue NetnodeType.final.raw ≤ charValue st.type

/-- The bytes of a known kind, or a type from the bound on that is not negative. -/
def FrameRegister.BytesInRange (st : FrameRegister) : Prop :=
  (st.type.toNat < 5 ∧ st.protocol.toNat < 2) ∨ (5 ≤ st.type.toNat ∧ st.type.toNat < 128)

theorem NetnodeType.known_iff (b : UInt8) : NetnodeType.Known ⟨b⟩ ↔ b.toNat < 5 := by
  simp only [Known, undefined, root, org, trusted, georoot, List.mem_cons, List.not_mem_nil,
    or_false, NetnodeType.mk.injEq, ← UInt8.toNat_inj]
  change b.toNat = 0 ∨ b.toNat = 1 ∨ b.toNat = 2 ∨ b.toNat = 3 ∨ b.toNat = 4 ↔ _
  omega

theorem ServiceProtocol.known_iff (b : UInt8) : ServiceProtocol.Known ⟨b⟩ ↔ b.toNat < 2 := by
  simp only [Known, dvsp, http, List.mem_cons, List.not_mem_nil, or_false,
    ServiceProtocol.mk.injEq, ← UInt8.toNat_inj]
  change b.toNat = 0 ∨ b.toNat = 1 ↔ _
  omega

theorem FrameRegister.bytesInRange_iff (st : FrameRegister) :
    st.BytesInRange ↔ st.KnownKind ∨ st.TypeRefused := by
  have hb := st.type.toNat_lt
  have hfinal : charValue NetnodeType.final.raw = 5 := by decide
  have hrefused : st.TypeRefused ↔ 5 ≤ st.type.toNat ∧ st.type.toNat < 128 := by
    rw [TypeRefused, hfinal, charValue_eq]
    split <;> omega
  rw [BytesInRange, KnownKind, NetnodeType.known_iff, ServiceProtocol.known_iff, hrefused]

section Kinds
variable {V6 : Type}

def NetspaceNode.KnownKind (n : NetspaceNode V6) : Prop := n.type.Known ∧ n.proto.Known

instance (n : NetspaceNode V6) : Decidable n.KnownKind :=
  inferInstanceAs (Decidable (n.type.Known ∧ n.proto.Known))

/-- The frame of the call, if it is a registration and is read at all. -/
def PacketCall.FrameInRange (c : PacketCall V6) : Prop :=
  c.packet.header.type = .gsnRegisterHost →
    ∀ bs, c.packet.contentAs c.left.afterContent 0 FrameRegister.sizeOf = .ok bs →
      (FrameRegister.ofBytes bs).BytesInRange

/-- What is accepted has passed the check of the type. -/
theorem Accepts.knownKind {c : PacketCall V6} {table : NetspaceTable V6} {st : FrameRegister}
    {hostname suid : Text} (ha : Accepts c table st hostname suid) (hc : c.FrameInRange) :
    (registeredNode st hostname suid c.addr).KnownKind := by
  obtain ⟨bs,hbs,rfl⟩ := ha.registration.frame
  have hpassed : ¬ (FrameRegister.ofBytes bs).TypeRefused := not_le.mpr ha.registration.type_lt
  have hrange := (FrameRegister.bytesInRange_iff _).mp (hc ha.type_eq bs hbs)
  exact hrange.resolve_right hpassed

theorem registerHost_not_refused {env : Surroundings V6} {left : Leftover} {packet : DvspPacket}
    {bs : List UInt8}
    (hframe : packet.contentAs left.afterContent 0 FrameRegister.sizeOf = .ok bs)
    (htype : ¬ (FrameRegister.ofBytes bs).TypeRefused) (addr : NetspaceAddr V6)
    (table : NetspaceTable V6) :
    (registerHost env left packet addr table).1 ≠ .ok (responsePacket .malformedContent) := by
  have hcode {code : DvspRcode} (hne : code.bytes ≠ DvspRcode.malformedContent.bytes) :
      responsePacket code ≠ responsePacket .malformedContent := fun h => hne (responsePacket_inj h)
  rcases registerHost_cases env left packet addr table with
    ⟨st,hostname,suid,-,-,-,heq⟩ | ⟨st,hostname,suid,-,-,heq⟩ | ⟨bs',hbs',htype',-⟩ | ⟨e,-,heq⟩
  · rw [heq]
    exact fun h => hcode (by decide) (Except.ok.inj h)
  · rw [heq]
    exact fun h => hcode (by decide) (Except.ok.inj h)
  · obtain rfl : bs = bs' := Except.ok.inj (hframe.symm.trans hbs')
    exact absurd htype' htype
  · rw [heq]
    simp

variable [DecidableEq V6]

/-- A frame of another kind is answered as malformed, and the table stays. -/
def PacketCall.RefusesUnknown (c : PacketCall V6) (table : NetspaceTable V6) : Prop :=
  c.packet.header.type = .gsnRegisterHost →
    ∀ bs, c.packet.contentAs c.left.afterContent 0 FrameRegister.sizeOf = .ok bs →
      ¬ (FrameRegister.ofBytes bs).KnownKind →
        c.result table = .ok (responsePacket .malformedContent) ∧ c.step table = table

def OnlyKnownKinds (calls : List (PacketCall V6)) : Prop :=
  TablesMeet (fun table => ∀ n ∈ table, n.KnownKind) calls ∧
    EachStep (fun table c => c.step table) (fun table c => c.RefusesUnknown table) [] calls

theorem PacketCall.refusesUnknown_iff (c : PacketCall V6) (table : NetspaceTable V6) :
    c.RefusesUnknown table ↔ c.FrameInRange := by
  constructor
  · intro h hregister bs hframe
    rw [FrameRegister.bytesInRange_iff]
    by_cases hknown : (FrameRegister.ofBytes bs).KnownKind
    · exact Or.inl hknown
    · obtain ⟨hanswer,-⟩ := h hregister bs hframe hknown
      rw [result, processPacket_register c.env c.left hregister] at hanswer
      by_contra hnot
      exact registerHost_not_refused hframe (not_or.mp hnot).2 c.addr table hanswer
  · intro h hregister bs hframe hunknown
    have hrange := (FrameRegister.bytesInRange_iff _).mp (h hregister bs hframe)
    have hrefused := registerHost_refused c.env c.left hframe (hrange.resolve_left hunknown)
      c.addr table
    rw [result, step, processPacket_register c.env c.left hregister, hrefused]
    exact ⟨rfl,rfl⟩

/-- Every table of a run has only nodes of known kinds, and every other frame is
refused, exactly if no frame has a negative type or a type of the table with another
protocol. -/
theorem onlyKnownKinds_iff (calls : List (PacketCall V6)) :
    OnlyKnownKinds calls ↔ ∀ c ∈ calls, c.FrameInRange := by
  have hrefuses : EachStep (fun table c => c.step table)
      (fun table (c : PacketCall V6) => c.RefusesUnknown table) [] calls ↔
        ∀ c ∈ calls, c.FrameInRange := by
    simp only [PacketCall.refusesUnknown_iff, eachStep_forall]
  rw [OnlyKnownKinds, hrefuses, nodesMeet_iff]
  refine and_iff_right_of_imp fun h => ?_
  intro before c after heq st hostname suid ha
  exact ha.knownKind (h c (by simp [heq]))

end Kinds

/-- The frame of a registration of the names `b|a`. -/
def kindFrame (type proto : UInt8) : List UInt8 :=
  [type,3,proto] ++ (Block.ofList 125 (ascii "b|a")).data

def kindCall (type proto : UInt8) : PacketCall Empty :=
  ⟨isolated,unmapped,packetOf .gsnRegisterHost (kindFrame type proto),localhost⟩

/-- The type byte is 255, that is -1. -/
theorem unknown_kinds_stored :
    ¬ OnlyKnownKinds [kindCall 255 0] ∧ ¬ OnlyKnownKinds [kindCall 2 7] := by
  constructor
  · intro h
    have hnodes : ∀ n ∈ (kindCall 255 0).step [], n.KnownKind := h.1 [kindCall 255 0] [] rfl
    exact absurd hnodes (by decide +kernel)
  · intro h
    have hnodes : ∀ n ∈ (kindCall 2 7).step [], n.KnownKind := h.1 [kindCall 2 7] [] rfl
    exact absurd hnodes (by decide +kernel)

end GsnNode
