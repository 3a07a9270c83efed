import GsnNode.RegistryRuns

/-! Which registrations are accepted, and when all the nodes of a run have a property. -/

set_option autoImplicit false

namespace GsnNode
open KeyedList ByteWords ProtocolHandler StepRuns

section Accepted
variable {V6 : Type}

/-- A registration that passes every check: its frame is read as `st`, and no node
of the table has its names. -/
structure Accepts (c : PacketCall V6) (table : NetspaceTable V6) (st : FrameRegister)
    (hostname suid : Text) : Prop where
  type_eq : c.packet.header.type = .gsnRegisterHost
  registration : Registration c.left c.packet st hostname suid
  fresh_hostname : ∀ m ∈ table, m.hostname ≠ hostname
  fresh_suid : ∀ m ∈ table, m.suid ≠ suid

theorem ProtocolHandler.Registration.unique {left : Leftover} {packet : DvspPacket} {st st' : FrameRegister}
    {hostname hostname' suid suid' : Text} (h : Registration left packet st hostname suid)
    (h' : Registration left packet st' hostname' suid') :
    st = st' ∧ hostname = hostname' ∧ suid = suid' := by
  obtain ⟨bs,hbs,rfl⟩ := h.frame
  obtain ⟨bs',hbs',rfl⟩ := h'.frame
  obtain rfl : bs = bs' := Except.ok.inj (hbs.symm.trans hbs')
  have hnames := h.names.symm.trans h'.names
  simpa using hnames

variable {c : PacketCall V6} {table : NetspaceTable V6} {st : FrameRegister} {hostname suid : Text}

theorem Accepts.registerHost_eq (h : Accepts c table st hostname suid) :
    registerHost c.env c.left c.packet c.addr table =
      (.ok (responsePacket .ok),table ++ [registeredNode st hostname suid c.addr]) := by
  rcases registerHost_cases c.env c.left c.packet c.addr table with
    ⟨st',host',suid',hst,-,-,heq⟩ | ⟨st',host',suid',hst,hdup,-⟩ | ⟨bs,hbs,htype,-⟩ | ⟨e,he,-⟩
  · obtain ⟨rfl,rfl,rfl⟩ := h.registration.unique hst
    exact heq
  · obtain ⟨rfl,rfl,rfl⟩ := h.registration.unique hst
    rcases hdup with ⟨m,hm,heq⟩ | ⟨m,hm,heq⟩
    · exact absurd heq (h.fresh_hostname m hm)
    · exact absurd heq (h.fresh_suid m hm)
  · obtain ⟨bs',hbs',rfl⟩ := h.registration.frame
    obtain rfl : bs = bs' := Except.ok.inj (hbs.symm.trans hbs')
    exact absurd h.registration.type_lt (not_lt.mpr htype)
  · obtain ⟨bs',hbs',rfl⟩ := h.registration.frame
    cases he with
    | frame hbad =>
      rw [hbs'] at hbad
      contradiction
    | @names bs hbs _ hbad =>
      obtain rfl : bs = bs' := Except.ok.inj (hbs.symm.trans hbs')
      rw [h.registration.names] at hbad
      contradiction

variable [DecidableEq V6]

theorem Accepts.step_eq (h : Accepts c table st hostname suid) :
    c.step table = table ++ [registeredNode st hostname suid c.addr] := by
  rw [PacketCall.step, processPacket, if_pos h.type_eq, h.registerHost_eq]

/-- A call that is no accepted registration only leaves nodes out. -/
theorem PacketCall.accepts_or_sublist (c : PacketCall V6) (table : NetspaceTable V6) :
    (∃ st hostname suid, Accepts c table st hostname suid) ∨
      ((∀ st hostname suid, ¬ Accepts c table st hostname suid) ∧ (c.step table).Sublist table) := by
  by_cases h : ∃ st hostname suid, Accepts c table st hostname suid
  · exact .inl h
  · refine .inr ⟨by simpa using h,?_⟩
    rcases c.step_cases table with ⟨st,hostname,suid,htype,hst,hhost,hsuid,-,-⟩ |
      ⟨before,n,after,-,htable,-,-,-,heq⟩ | ⟨-,heq⟩
    · exact absurd ⟨st,hostname,suid,htype,hst,hhost,hsuid⟩ h
    · rw [heq, htable]
      exact (List.sublist_cons_self n after).append_left before
    · rw [heq]

theorem accepts_of_result (htype : c.packet.header.type = .gsnRegisterHost)
    (h : c.result table = response .ok) : ∃ st hostname suid, Accepts c table st hostname suid := by
  rcases c.step_cases table with ⟨st,hostname,suid,_,hst,hhost,hsuid,-,-⟩ |
    ⟨before,n,after,hunreg,-,-,-,-,-⟩ | ⟨hno,-⟩
  · exact ⟨st,hostname,suid,htype,hst,hhost,hsuid⟩
  · exact absurd (htype.symm.trans hunreg) (by decide)
  · exact absurd h (hno (.inl htype))

/-! ### Runs -/

/-- The tables that the calls go through. -/
def TablesMeet (P : NetspaceTable V6 → Prop) (calls : List (PacketCall V6)) : Prop :=
  Throughout (fun table c => c.step table) P [] calls

/-- Every registration that is accepted on the way. -/
def AcceptedMeet (Q : PacketCall V6 → NetspaceTable V6 → FrameRegister → Text → Text → Prop)
    (calls : List (PacketCall V6)) : Prop :=
  EachStep (fun table c => c.step table)
    (fun table c => ∀ st hostname suid, Accepts c table st hostname suid → Q c table st hostname suid)
    [] calls

theorem tablesMeet_true (calls : List (PacketCall V6)) : TablesMeet (fun _ => True) calls :=
  fun _ _ _ => trivial

/-- A property of tables that goes over to sublists is kept by all steps but
accepted registrations. -/
theorem tablesMeet_iff {P : NetspaceTable V6 → Prop}
    {Q : PacketCall V6 → NetspaceTable V6 → FrameRegister → Text → Text → Prop}
    (hsub : ∀ table table' : NetspaceTable V6, table'.Sublist table → P table → P table')
    (hstep : ∀ c table st hostname suid, P table → Accepts c table st hostname suid →
      (P (table ++ [registeredNode st hostname suid c.addr]) ↔ Q c table st hostname suid))
    (h : P []) (calls : List (PacketCall V6)) : TablesMeet P calls ↔ AcceptedMeet Q calls := by
  refine throughout_iff (.of_forall ?_) h
  intro table c hp
  rcases c.accepts_or_sublist table with ⟨st,hostname,suid,ha⟩ | ⟨hnone,hkeep⟩
  · rw [ha.step_eq, hstep c _ st hostname suid hp ha]
    constructor
    · intro hq st' hostname' suid' ha'
      obtain ⟨rfl,rfl,rfl⟩ := ha.registration.unique ha'.registration
      exact hq
    · exact fun hq => hq st hostname suid ha
  · exact iff_of_true (hsub _ _ hkeep hp)
      (fun st hostname suid ha => absurd ha (hnone st hostname suid))

/-- All the nodes of a run are good exactly if every accepted registration brings a
good one. -/
theorem nodesMeet_iff (Q : NetspaceNode V6 → Prop) (calls : List (PacketCall V6)) :
    TablesMeet (fun table => ∀ n ∈ table, Q n) calls ↔
      AcceptedMeet (fun c _ st hostname suid => Q (registeredNode st hostname suid c.addr)) calls := by
  refine tablesMeet_iff ?_ ?_ (by simp) calls
  · exact fun table table' hsub h n hn => h n (hsub.subset hn)
  · intro c table st hostname suid h _
    simp only [List.mem_append, List.mem_singleton]
    exact ⟨fun hq => hq _ (.inr rfl),fun hq n hn => hn.elim (h n) (fun heq => heq ▸ hq)⟩

end Accepted
end GsnNode
