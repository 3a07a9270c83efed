import GsnNode.AddressQueues

/-! Clients that ask for different names do not notice each other, in whatever order
their packets come. -/

set_option autoImplicit false

namespace GsnNode
open KeyedList ByteWords ProtocolHandler StepRuns

section Names
variable {V6 : Type}

/-- The node that a call asks for, where the type in its frame is not refused. -/
def PacketCall.requested (c : PacketCall V6) : Option (NetspaceNode V6) :=
  if c.packet.header.type = .gsnRegisterHost then
    (requestedNode c).toOption.filter fun n => charValue n.type.raw < charValue NetnodeType.final.raw
  else none

/-- Whoever is in the group asks for other names than whoever is not. -/
def NamesApart (group : NetspaceAddr V6 → Bool) (calls : List (PacketCall V6)) : Prop :=
  ∀ c ∈ calls, ∀ d ∈ calls, group c.addr = true → group d.addr = false →
    ∀ n ∈ c.requested, ∀ m ∈ d.requested, n.hostname ≠ m.hostname ∧ n.suid ≠ m.suid

instance (group : NetspaceAddr V6 → Bool) (calls : List (PacketCall V6)) :
    Decidable (NamesApart group calls) :=
  inferInstanceAs (Decidable (∀ c ∈ calls, ∀ d ∈ calls, group c.addr = true → group d.addr = false →
    ∀ n ∈ c.requested, ∀ m ∈ d.requested, n.hostname ≠ m.hostname ∧ n.suid ≠ m.suid))

theorem requested_of {c : PacketCall V6} {st : FrameRegister} {hostname suid : Text}
    (htype : c.packet.header.type = .gsnRegisterHost)
    (h : Registration c.left c.packet st hostname suid) :
    c.requested = some (registeredNode st hostname suid c.addr) := by
  rw [PacketCall.requested, if_pos htype, requestedNode_eq h]
  simp [Except.toOption, registeredNode, h.type_lt]

/-- Every node was asked for by one of the calls. -/
def RequestedBy (calls : List (PacketCall V6)) (table : NetspaceTable V6) : Prop :=
  ∀ n ∈ table, ∃ c ∈ calls, c.addr = n.addr ∧ c.requested = some n

theorem RequestedBy.step [DecidableEq V6] {calls : List (PacketCall V6)} {table : NetspaceTable V6}
    (h : RequestedBy calls table) {c : PacketCall V6} (hc : c ∈ calls) :
    RequestedBy calls (c.step table) := by
  intro n hn
  rcases c.step_cases table with ⟨st,hostname,suid,htype,hst,-,-,-,heq⟩ |
    ⟨before,m,after,-,htable,-,-,-,heq⟩ | ⟨-,heq⟩
  · rw [heq] at hn
    rcases List.mem_append.mp hn with hn | hn
    · exact h n hn
    · rw [List.mem_singleton.mp hn]
      exact ⟨c,hc,rfl,requested_of htype hst⟩
  · rw [heq] at hn
    refine h n ?_
    rw [htable]
    exact ((List.sublist_cons_self m after).append_left before).subset hn
  · rw [heq] at hn
    exact h n hn

end Names

/-! ### What the table holds for some of the addresses -/

section Part
variable {V6 : Type}

def only [DecidableEq V6] (addr : NetspaceAddr V6) : NetspaceAddr V6 → Bool := fun a => a = addr

def part (group : NetspaceAddr V6 → Bool) (table : NetspaceTable V6) : NetspaceTable V6 :=
  table.filter fun n => group n.addr

theorem mem_part {group : NetspaceAddr V6 → Bool} {table : NetspaceTable V6} {n : NetspaceNode V6} :
    n ∈ part group table ↔ n ∈ table ∧ group n.addr = true := by
  simp [part]

/-- What a registration does depends on the table only where it has names, and then on whether
these are taken. -/
theorem registerHost_uniform (env : Surroundings V6) (left : Leftover) (packet : DvspPacket)
    (addr : NetspaceAddr V6) :
    (∃ st hostname suid, Registration left packet st hostname suid ∧
        ∀ table, registerHost env left packet addr table =
          if (∀ m ∈ table, m.hostname ≠ hostname) ∧ ∀ m ∈ table, m.suid ≠ suid then
            (.ok (responsePacket .ok),table ++ [registeredNode st hostname suid addr])
          else (.ok (responsePacket .netspaceDuplicate),table)) ∨
      ∃ reply, ∀ table, registerHost env left packet addr table = (reply,table) := by
  cases hframe : packet.contentAs left.afterContent 0 FrameRegister.sizeOf with
  | error e => exact .inr ⟨.error e,fun table => by simp [registerHost, Handler.bind_apply, hframe]⟩
  | ok bs =>
    by_cases htype : charValue NetnodeType.final.raw ≤ charValue (FrameRegister.ofBytes bs).type
    · exact .inr ⟨_,registerHost_refused env left hframe htype addr⟩
    cases hnames : frameNames left (FrameRegister.ofBytes bs) with
    | error e =>
      exact .inr ⟨.error e,fun table => by
        simp [registerHost, Handler.bind_apply, hframe, htype, hnames]⟩
    | ok names =>
      obtain ⟨hostname,suid⟩ := names
      have hst : Registration left packet (FrameRegister.ofBytes bs) hostname suid :=
        ⟨⟨bs,hframe,rfl⟩,not_le.mp htype,hnames⟩
      refine .inl ⟨_,hostname,suid,hst,fun table => ?_⟩
      rcases registerHost_cases env left packet addr table with
        ⟨st',host',suid',hst',hhost,hsuid,heq⟩ | ⟨st',host',suid',hst',htaken,heq⟩ |
        ⟨bs',hbs',htype',-⟩ | ⟨e,he,-⟩
      · obtain ⟨rfl,rfl,rfl⟩ := hst.unique hst'
        rw [heq, if_pos ⟨hhost,hsuid⟩]
      · obtain ⟨rfl,rfl,rfl⟩ := hst.unique hst'
        rw [heq, if_neg]
        rintro ⟨hhost,hsuid⟩
        rcases htaken with ⟨m,hm,hmeq⟩ | ⟨m,hm,hmeq⟩
        · exact hhost m hm hmeq
        · exact hsuid m hm hmeq
      · obtain rfl := Except.ok.inj (hframe.symm.trans hbs')
        exact absurd htype' htype
      · cases he with
        | frame hbs' => cases hframe.symm.trans hbs'
        | names hbs' _ hnames' =>
          obtain rfl := Except.ok.inj (hframe.symm.trans hbs')
          cases hnames.symm.trans hnames'

variable [DecidableEq V6]

theorem unregisterHost_eraseP (env : Surroundings V6) (addr : NetspaceAddr V6)
    (table : NetspaceTable V6) :
    unregisterHost env addr table =
      (.ok (responsePacket (if queueOf NetspaceNode.addr addr table = [] then .netspaceError else .ok)),
        table.eraseP fun n => n.addr = addr) := by
  rcases unregisterHost_cases env addr table with ⟨before,n,after,htable,hn,hbefore,heq⟩ | ⟨hnone,heq⟩
  · have hqueue : queueOf NetspaceNode.addr addr table ≠ [] := by
      rw [htable, queueOf_pop hn hbefore]
      exact List.cons_ne_nil _ _
    rw [heq, if_neg hqueue, htable, List.eraseP_append_right _ (by simpa using hbefore),
      List.eraseP_cons_of_pos (by simpa using hn)]
  · rw [heq, if_pos (queueOf_eq_nil.mpr hnone), List.eraseP_of_forall_not (by simpa using hnone)]

/-! ### Calls of the group -/

variable {group : NetspaceAddr V6 → Bool} {table : NetspaceTable V6} {c : PacketCall V6}

theorem queueOf_part {addr : NetspaceAddr V6} (h : group addr = true) :
    queueOf NetspaceNode.addr addr (part group table) = queueOf NetspaceNode.addr addr table := by
  rw [queueOf, queueOf, part, List.filter_filter]
  refine List.filter_congr fun n _ => ?_
  by_cases hn : n.addr = addr <;> simp [hn, h]

/-- The names that a call of the group asks for are taken in the table only if they are taken in
the part of the group. -/
def NamesAside (group : NetspaceAddr V6 → Bool) (c : PacketCall V6) (table : NetspaceTable V6) :
    Prop :=
  ∀ n ∈ c.requested, ∀ m ∈ table, group m.addr = false → n.hostname ≠ m.hostname ∧ n.suid ≠ m.suid

omit [DecidableEq V6] in
theorem NamesApart.aside {calls : List (PacketCall V6)} (h : NamesApart group calls)
    (htable : RequestedBy calls table) (hc : c ∈ calls) (hgroup : group c.addr = true) :
    NamesAside group c table := by
  intro n hn m hm hother
  obtain ⟨d,hd,haddr,hrequested⟩ := htable m hm
  exact h c hc d hd hgroup (haddr ▸ hother) n hn m hrequested

omit [DecidableEq V6] in
/-- The names that a call of the group asks for are free in the table if they are in its part. -/
theorem NamesAside.fresh_iff (h : NamesAside group c table)
    (htype : c.packet.header.type = .gsnRegisterHost) {st : FrameRegister} {hostname suid : Text}
    (hst : Registration c.left c.packet st hostname suid) :
    ((∀ m ∈ table, m.hostname ≠ hostname) ∧ ∀ m ∈ table, m.suid ≠ suid) ↔
      (∀ m ∈ part group table, m.hostname ≠ hostname) ∧ ∀ m ∈ part group table, m.suid ≠ suid := by
  constructor
  · exact fun hfree => ⟨fun m hm => hfree.1 m (mem_part.mp hm).1,fun m hm => hfree.2 m (mem_part.mp hm).1⟩
  · intro hfree
    have hboth : ∀ m ∈ table, m.hostname ≠ hostname ∧ m.suid ≠ suid := by
      intro m hm
      cases hm' : group m.addr with
      | true => exact ⟨hfree.1 m (mem_part.mpr ⟨hm,hm'⟩),hfree.2 m (mem_part.mpr ⟨hm,hm'⟩)⟩
      | false =>
        obtain ⟨hhost,hsuid⟩ := h _ (requested_of htype hst) m hm hm'
        exact ⟨Ne.symm hhost,Ne.symm hsuid⟩
    exact ⟨fun m hm => (hboth m hm).1,fun m hm => (hboth m hm).2⟩

theorem register_part (htype : c.packet.header.type = .gsnRegisterHost)
    (hgroup : group c.addr = true) (haside : NamesAside group c table) :
    c.result table = c.result (part group table) ∧
      part group (c.step table) = c.step (part group table) := by
  simp only [PacketCall.result, PacketCall.step, processPacket_register c.env c.left htype]
  rcases registerHost_uniform c.env c.left c.packet c.addr with
    ⟨st,hostname,suid,hst,heq⟩ | ⟨reply,heq⟩
  · have hfresh := haside.fresh_iff htype hst
    rw [heq, heq]
    by_cases h : (∀ m ∈ table, m.hostname ≠ hostname) ∧ ∀ m ∈ table, m.suid ≠ suid
    · rw [if_pos h, if_pos (hfresh.mp h)]
      exact ⟨rfl,by simp [part, registeredNode, hgroup]⟩
    · rw [if_neg h, if_neg (mt hfresh.mpr h)]
      exact ⟨rfl,rfl⟩
  · rw [heq, heq]
    exact ⟨rfl,rfl⟩

theorem unregister_part (htype : c.packet.header.type = .gsnUnregisterHost)
    (hgroup : group c.addr = true) :
    c.result table = c.result (part group table) ∧
      part group (c.step table) = c.step (part group table) := by
  simp only [PacketCall.result, PacketCall.step, processPacket_unregister c.env c.left htype,
    unregisterHost_eraseP, queueOf_part hgroup, true_and]
  rw [part, part, List.eraseP_filter]
  congr 2
  funext n
  by_cases hn : n.addr = c.addr <;> simp [hn, hgroup]

theorem step_part (hgroup : group c.addr = true) (haside : NamesAside group c table) :
    part group (c.step table) = c.step (part group table) := by
  by_cases hreg : c.packet.header.type = .gsnRegisterHost
  · exact (register_part hreg hgroup haside).2
  by_cases hunreg : c.packet.header.type = .gsnUnregisterHost
  · exact (unregister_part hunreg hgroup).2
  · simp only [PacketCall.step, processPacket_other c.env c.left hreg hunreg]

/-- A call of somebody else. -/
theorem step_other (hgroup : group c.addr = false) :
    part group (c.step table) = part group table := by
  rcases c.step_cases table with ⟨st,hostname,suid,-,-,-,-,-,heq⟩ |
    ⟨before,n,after,-,htable,hn,-,-,heq⟩ | ⟨-,heq⟩
  · simp [heq, part, registeredNode, hgroup]
  · have hout : group n.addr = false := hn ▸ hgroup
    rw [heq, htable]
    simp [part, hout]
  · rw [heq]

/-! ### What a call of the group is answered -/

/-- The group registers, or unregisters, or somebody asks who one of the group is. -/
inductive Concerns (group : NetspaceAddr V6 → Bool) (c : PacketCall V6) : Prop where
  | register : group c.addr = true → c.packet.header.type = .gsnRegisterHost → Concerns group c
  | unregister : group c.addr = true → c.packet.header.type = .gsnUnregisterHost → Concerns group c
  | lookup {a : NetspaceIpv4} : group (.v4 a) = true → AsksFor c.packet a → Concerns group c

theorem lookup_part {a : NetspaceIpv4} (hgroup : group (.v4 a) = true) (hask : AsksFor c.packet a) :
    c.result table = c.result (part group table) := by
  have hfound : (part group table).node? ((part group table).findAddr (.v4 a)) =
      table.node? (table.findAddr (.v4 a)) := by
    have hhead := congrArg List.head? (@queueOf_part V6 _ group table (.v4 a) hgroup)
    rw [head?_queueOf, head?_queueOf] at hhead
    exact hhead
  simp only [PacketCall.result, processPacket_hostname c.env c.left hask.2.1]
  cases hnode : table.node? (table.findAddr (.v4 a)) with
  | none =>
    rw [hostname_unknown c.left (hask.read c.left) hnode,
      hostname_unknown c.left (hask.read c.left) (hfound.trans hnode)]
  | some node =>
    rw [hostname_known c.left (hask.read c.left) hnode,
      hostname_known c.left (hask.read c.left) (hfound.trans hnode)]

theorem result_part (hc : Concerns group c) (haside : group c.addr = true → NamesAside group c table) :
    c.result table = c.result (part group table) := by
  cases hc with
  | register hgroup htype => exact (register_part htype hgroup (haside hgroup)).1
  | unregister hgroup htype => exact (unregister_part htype hgroup).1
  | lookup hgroup hask => exact lookup_part hgroup hask

end Part

/-! ### Runs -/

section Runs
variable {V6 : Type} [DecidableEq V6] {group : NetspaceAddr V6 → Bool}
  {calls : List (PacketCall V6)}

theorem requestedBy_run {before : List (PacketCall V6)} (h : ∀ c ∈ before, c ∈ calls) :
    RequestedBy calls (runCalls before []) :=
  runCalls_invariant (fun c hc _ ht => ht.step (h c hc)) fun n hn => by cases hn

/-- The part of the group is what the group would have had for itself. -/
theorem part_run (h : NamesApart group calls) {before : List (PacketCall V6)}
    (hbefore : ∀ c ∈ before, c ∈ calls) :
    part group (runCalls before []) = runCalls (before.filter fun c => group c.addr) [] := by
  refine EachStep.purge (part group) (fun c : PacketCall V6 => group c.addr) ?_
  intro front c back heq
  have hmem : ∀ d ∈ front, d ∈ calls := fun d hd => hbefore d (by simp [heq, hd])
  cases hgroup : group c.addr with
  | true => exact step_part hgroup (h.aside (requestedBy_run hmem) (hbefore c (by simp [heq])) hgroup)
  | false => exact step_other hgroup

/-- A group of clients that nobody else wants the names of does not notice anybody else: what it
registers and unregisters is answered, and what is said about it, as if the others had sent nothing. -/
theorem clients_unnoticed (h : NamesApart group calls) :
    part group (runCalls calls []) = runCalls (calls.filter fun c => group c.addr) [] ∧
      ∀ before c after, calls = before ++ c :: after → Concerns group c →
        c.result (runCalls before []) =
          c.result (runCalls (before.filter fun c => group c.addr) []) := by
  refine ⟨part_run h fun c hc => hc,fun before c after heq hc => ?_⟩
  have hmem : ∀ d ∈ before, d ∈ calls := fun d hd => by simp [heq, hd]
  rw [← part_run h hmem]
  exact result_part hc fun hgroup => h.aside (requestedBy_run hmem) (by simp [heq]) hgroup

end Runs

def neighbourCall (type : DvspMsgtype) (content : List UInt8) : PacketCall Empty :=
  ⟨isolated,unmapped,packetOf type content,.v4 ⟨[10,0,0,1],rfl⟩⟩

def twoClients : List (PacketCall Empty) :=
  [registerFrom localhost (ascii "b|a"),neighbourCall .gsnRegisterHost (registerFrame (ascii "d|c")),
    neighbourCall .gsnUnregisterHost []]

theorem clients_unnoticed_two :
    part (only localhost) (runCalls twoClients []) =
        runCalls (twoClients.filter fun c => only localhost c.addr) [] ∧
      ∀ before c after, twoClients = before ++ c :: after → Concerns (only localhost) c →
        c.result (runCalls before []) =
          c.result (runCalls (before.filter fun c => only localhost c.addr) []) :=
  clients_unnoticed (by decide +kernel)

/-! ### Interleavings -/

section Interleavings
variable {V6 : Type} [DecidableEq V6] {calls : List (PacketCall V6)}

/-- What the address is answered when it registers and unregisters. -/
def told (addr : NetspaceAddr V6) :
    List (PacketCall V6) → NetspaceTable V6 → List (Call DvspPacket)
  | [], _ => []
  | c :: calls, table =>
    if c.addr = addr ∧ (c.packet.header.type = .gsnRegisterHost ∨
        c.packet.header.type = .gsnUnregisterHost) then
      c.result table :: told addr calls (c.step table)
    else told addr calls (c.step table)

/-- No two addresses ask for the same name. -/
def NamesOwned (calls : List (PacketCall V6)) : Prop :=
  ∀ c ∈ calls, ∀ d ∈ calls, c.addr ≠ d.addr →
    ∀ n ∈ c.requested, ∀ m ∈ d.requested, n.hostname ≠ m.hostname ∧ n.suid ≠ m.suid

instance (calls : List (PacketCall V6)) : Decidable (NamesOwned calls) :=
  inferInstanceAs (Decidable (∀ c ∈ calls, ∀ d ∈ calls, c.addr ≠ d.addr →
    ∀ n ∈ c.requested, ∀ m ∈ d.requested, n.hostname ≠ m.hostname ∧ n.suid ≠ m.suid))

theorem NamesOwned.apart (h : NamesOwned calls) (addr : NetspaceAddr V6) :
    NamesApart (only addr) calls := by
  intro c hc d hd hown hother
  refine h c hc d hd fun heq => ?_
  rw [heq, hother] at hown
  cases hown

/-- Every address sends the same packets in the same order. -/
def SameOrder (calls calls' : List (PacketCall V6)) : Prop :=
  ∀ addr, calls.filter (fun c => only addr c.addr) = calls'.filter fun c => only addr c.addr

theorem SameOrder.mem {calls' : List (PacketCall V6)} (h : SameOrder calls calls')
    {c : PacketCall V6} (hc : c ∈ calls') : c ∈ calls := by
  have hown : c ∈ calls'.filter fun d => only c.addr d.addr :=
    List.mem_filter.mpr ⟨hc,by simp [only]⟩
  rw [← h c.addr] at hown
  exact (List.mem_filter.mp hown).1

/-- An address is told the same where nobody else sends anything. -/
theorem told_only {addr : NetspaceAddr V6} (h : NamesApart (only addr) calls)
    {rest : List (PacketCall V6)} (hrest : ∀ c ∈ rest, c ∈ calls) {table : NetspaceTable V6}
    (htable : RequestedBy calls table) :
    told addr rest table =
      told addr (rest.filter fun c => only addr c.addr) (part (only addr) table) := by
  induction rest generalizing table with
  | nil => rfl
  | cons c rest ih =>
    have hc : c ∈ calls := hrest c List.mem_cons_self
    have hnext := ih (fun d hd => hrest d (List.mem_cons_of_mem c hd)) (htable.step hc)
    by_cases haddr : c.addr = addr
    · have hgroup : only addr c.addr = true := by simp [only, haddr]
      have haside := h.aside htable hc hgroup
      rw [List.filter_cons, if_pos hgroup, told, told, hnext, step_part hgroup haside]
      by_cases htype : c.packet.header.type = .gsnRegisterHost ∨
          c.packet.header.type = .gsnUnregisterHost
      · have hresult : c.result table = c.result (part (only addr) table) := by
          rcases htype with htype | htype
          · exact (register_part htype hgroup haside).1
          · exact (unregister_part htype hgroup).1
        rw [if_pos ⟨haddr,htype⟩, if_pos ⟨haddr,htype⟩, hresult]
      · rw [if_neg fun hboth => htype hboth.2, if_neg fun hboth => htype hboth.2]
    · have hgroup : only addr c.addr = false := by simp [only, haddr]
      rw [List.filter_cons, if_neg (by simp [hgroup]), told, if_neg fun hboth => haddr hboth.1,
        hnext, step_other hgroup]

/-- Clients that ask for different names can be interleaved in any way: each one is told the same
and has the same queue of nodes, and the tables are equal but for their order. -/
theorem interleavings_agree {calls' : List (PacketCall V6)} (h : NamesOwned calls)
    (hsame : SameOrder calls calls') :
    (runCalls calls []).Perm (runCalls calls' []) ∧
      ∀ addr, queueOf NetspaceNode.addr addr (runCalls calls []) =
          queueOf NetspaceNode.addr addr (runCalls calls' []) ∧
        told addr calls [] = told addr calls' [] := by
  have hempty : RequestedBy calls ([] : NetspaceTable V6) := fun n hn => by cases hn
  have hqueue : ∀ addr, queueOf NetspaceNode.addr addr (runCalls calls []) =
      queueOf NetspaceNode.addr addr (runCalls calls' []) := by
    intro addr
    calc queueOf NetspaceNode.addr addr (runCalls calls [])
        = runCalls (calls.filter fun c => only addr c.addr) [] := part_run (h.apart addr) fun c hc => hc
      _ = runCalls (calls'.filter fun c => only addr c.addr) [] := by rw [hsame addr]
      _ = queueOf NetspaceNode.addr addr (runCalls calls' []) :=
          (part_run (h.apart addr) fun c hc => hsame.mem hc).symm
  refine ⟨perm_of_queueOf hqueue,fun addr => ⟨hqueue addr,?_⟩⟩
  calc told addr calls []
      = told addr (calls.filter fun c => only addr c.addr) [] :=
        told_only (h.apart addr) (fun c hc => hc) hempty
    _ = told addr (calls'.filter fun c => only addr c.addr) [] := by rw [hsame addr]
    _ = told addr calls' [] := (told_only (h.apart addr) (fun c hc => hsame.mem hc) hempty).symm

end Interleavings

/-- The second one first. -/
def theOtherWayRound : List (PacketCall Empty) :=
  [neighbourCall .gsnRegisterHost (registerFrame (ascii "d|c")),
    neighbourCall .gsnUnregisterHost [],registerFrom localhost (ascii "b|a")]

theorem interleavings_agree_two :
    (runCalls twoClients []).Perm (runCalls theOtherWayRound []) ∧
      ∀ addr, queueOf NetspaceNode.addr addr (runCalls twoClients []) =
          queueOf NetspaceNode.addr addr (runCalls theOtherWayRound []) ∧
        told addr twoClients [] = told addr theOtherWayRound [] := by
  refine interleavings_agree (by decide +kernel) fun addr => ?_
  by_cases h : addr = localhost
  · subst h
    rfl
  · simp [twoClients, theOtherWayRound, only, registerFrom, List.filter_cons, Ne.symm h]

end GsnNode
