import GsnNode.AddressOwners

/-! An address may register any number of times. What the table holds for it is a queue:
a registration is put in at the end, and unregistering takes out the oldest. -/

set_option autoImplicit false

namespace GsnNode
open KeyedList ByteWords ProtocolHandler

section Queues
variable {V6 : Type}

/-- The node that a registration asks for. -/
def requestedNode (c : PacketCall V6) : Call (NetspaceNode V6) := do
  let bs ← c.packet.contentAs c.left.afterContent 0 FrameRegister.sizeOf
  let st := FrameRegister.ofBytes bs
  let names ← frameNames c.left st
  pure (registeredNode st names.1 names.2 c.addr)

theorem requestedNode_eq {c : PacketCall V6} {st : FrameRegister} {hostname suid : Text}
    (h : Registration c.left c.packet st hostname suid) :
    requestedNode c = .ok (registeredNode st hostname suid c.addr) := by
  obtain ⟨bs,hbs,rfl⟩ := h.frame
  simp only [requestedNode, hbs, ok_bind, h.names, pure_eq_ok]

variable [DecidableEq V6]

/-- The nodes that were registered from the address, in the order of the calls. -/
def registrations (addr : NetspaceAddr V6) :
    List (PacketCall V6) → NetspaceTable V6 → List (NetspaceNode V6)
  | [], _ => []
  | c :: calls, table =>
    if c.addr = addr ∧ c.packet.header.type = .gsnRegisterHost ∧ c.result table = response .ok then
      (requestedNode c).toOption.toList ++ registrations addr calls (c.step table)
    else registrations addr calls (c.step table)

/-- How often the address was unregistered. -/
def removals (addr : NetspaceAddr V6) : List (PacketCall V6) → NetspaceTable V6 → Nat
  | [], _ => 0
  | c :: calls, table =>
    if c.addr = addr ∧ c.packet.header.type = .gsnUnregisterHost ∧ c.result table = response .ok then
      removals addr calls (c.step table) + 1
    else removals addr calls (c.step table)

/-- One call on the queue of one address. -/
inductive QueueStep (addr : NetspaceAddr V6) (c : PacketCall V6) (table : NetspaceTable V6) : Prop where
  | push {n : NetspaceNode V6} : c.addr = addr → c.packet.header.type = .gsnRegisterHost →
      c.result table = response .ok → requestedNode c = .ok n →
      queueOf NetspaceNode.addr addr (c.step table) = queueOf NetspaceNode.addr addr table ++ [n] →
        QueueStep addr c table
  | pop {n : NetspaceNode V6} : c.addr = addr → c.packet.header.type = .gsnUnregisterHost →
      c.result table = response .ok →
      queueOf NetspaceNode.addr addr table = n :: queueOf NetspaceNode.addr addr (c.step table) →
        QueueStep addr c table
  | other : ¬ (c.addr = addr ∧ c.packet.header.type = .gsnRegisterHost ∧
        c.result table = response .ok) →
      ¬ (c.addr = addr ∧ c.packet.header.type = .gsnUnregisterHost ∧
        c.result table = response .ok) →
      queueOf NetspaceNode.addr addr (c.step table) = queueOf NetspaceNode.addr addr table →
        QueueStep addr c table

theorem queueStep (addr : NetspaceAddr V6) (c : PacketCall V6) (table : NetspaceTable V6) :
    QueueStep addr c table := by
  rcases c.step_cases table with ⟨st,hostname,suid,htype,hst,-,-,hok,heq⟩ |
    ⟨before,n,after,htype,htable,hn,hbefore,hok,heq⟩ | ⟨hno,heq⟩
  · have haddr : (registeredNode st hostname suid c.addr).addr = c.addr := rfl
    by_cases hc : c.addr = addr
    · exact .push hc htype hok (requestedNode_eq hst)
        (by rw [heq, queueOf_push (haddr.trans hc)])
    · exact .other (fun h => hc h.1) (fun h => hc h.1)
        (by rw [heq, queueOf_push_other (fun h => hc (haddr.symm.trans h))])
  · by_cases hc : c.addr = addr
    · refine .pop (n := n) hc htype hok ?_
      rw [heq, htable, queueOf_pop (hn.trans hc) fun m hm => hc ▸ hbefore m hm]
    · refine .other (fun h => hc h.1) (fun h => hc h.1) ?_
      rw [heq, htable, queueOf_pop_other fun h => hc (hn.symm.trans h)]
  · exact .other (fun h => hno (.inl h.2.1) h.2.2) (fun h => hno (.inr h.2.1) h.2.2) (by rw [heq])

/-- What was put in, without as many of the oldest as were taken out. -/
theorem queueOf_run (addr : NetspaceAddr V6) (calls : List (PacketCall V6))
    (table : NetspaceTable V6) :
    removals addr calls table ≤
        (queueOf NetspaceNode.addr addr table ++ registrations addr calls table).length ∧
      queueOf NetspaceNode.addr addr (runCalls calls table) =
        (queueOf NetspaceNode.addr addr table ++ registrations addr calls table).drop
          (removals addr calls table) := by
  induction calls generalizing table with
  | nil => simp [removals, registrations, runCalls]
  | cons c calls ih =>
    obtain ⟨hle,heq⟩ := ih (c.step table)
    have hrun : runCalls (c :: calls) table = runCalls calls (c.step table) := rfl
    rw [hrun, heq]
    have hne : DvspMsgtype.gsnRegisterHost ≠ .gsnUnregisterHost := by decide
    cases queueStep addr c table with
    | @push n hc htype hok hnode hqueue =>
      have hpush : ¬ (c.addr = addr ∧ c.packet.header.type = .gsnUnregisterHost ∧
          c.result table = response .ok) := fun h => hne (htype.symm.trans h.2.1)
      have hregs : queueOf NetspaceNode.addr addr table ++ registrations addr (c :: calls) table =
          queueOf NetspaceNode.addr addr (c.step table) ++ registrations addr calls (c.step table) := by
        rw [registrations, if_pos ⟨hc,htype,hok⟩, hnode, hqueue, List.append_assoc]
        rfl
      rw [removals, if_neg hpush, hregs]
      exact ⟨hle,rfl⟩
    | @pop n hc htype hok hqueue =>
      have hpop : ¬ (c.addr = addr ∧ c.packet.header.type = .gsnRegisterHost ∧
          c.result table = response .ok) := fun h => hne (h.2.1.symm.trans htype)
      rw [removals, registrations, if_pos ⟨hc,htype,hok⟩, if_neg hpop, hqueue]
      exact ⟨Nat.succ_le_succ hle,rfl⟩
    | other hpush hpop hqueue =>
      rw [removals, registrations, if_neg hpop, if_neg hpush, ← hqueue]
      exact ⟨hle,rfl⟩

theorem unregister_ok_iff {c : PacketCall V6} (h : c.packet.header.type = .gsnUnregisterHost)
    (table : NetspaceTable V6) :
    c.result table = response .ok ↔ queueOf NetspaceNode.addr c.addr table ≠ [] := by
  rw [ne_eq, queueOf_eq_nil, PacketCall.result, processPacket_unregister c.env c.left h]
  rcases unregisterHost_cases c.env c.addr table with
    ⟨before,n,after,htable,hn,-,heq⟩ | ⟨hnone,heq⟩
  · refine iff_of_true (by rw [heq, response_eq]) fun hall => ?_
    exact hall n (by rw [htable]; simp) hn
  · refine iff_of_false ?_ (not_not_intro hnone)
    rw [heq, ← response_eq]
    exact response_ne_ok (by decide)

/-- In every run each address has a queue of its own: its registrations go in at the end,
and each time that it unregisters the oldest goes, which is also the one that is found. -/
theorem addresses_are_queues (addr : NetspaceAddr V6) (calls : List (PacketCall V6)) :
    removals addr calls [] ≤ (registrations addr calls []).length ∧
      queueOf NetspaceNode.addr addr (runCalls calls []) =
        (registrations addr calls []).drop (removals addr calls []) ∧
      (runCalls calls []).node? ((runCalls calls []).findAddr addr) =
        (registrations addr calls [])[removals addr calls []]? ∧
      ∀ c : PacketCall V6, c.addr = addr → c.packet.header.type = .gsnUnregisterHost →
        (c.result (runCalls calls []) = response .ok ↔
          removals addr calls [] < (registrations addr calls []).length) := by
  obtain ⟨hle,hqueue⟩ := queueOf_run addr calls []
  have hnone : queueOf NetspaceNode.addr addr ([] : NetspaceTable V6) = [] := rfl
  rw [hnone, List.nil_append] at hle hqueue
  refine ⟨hle,hqueue,?_,fun c hc htype => ?_⟩
  · have hhead := @head?_queueOf _ _ _ NetspaceNode.addr addr (runCalls calls [])
    rw [hqueue, List.head?_drop] at hhead
    exact hhead.symm
  · rw [unregister_ok_iff htype, hc, hqueue, ne_eq, List.drop_eq_nil_iff, not_le]

end Queues

/-- The second registration from the address is still there when it has unregistered once. -/
example : (runCalls [registerFrom localhost (ascii "b|a"),registerFrom localhost (ascii "d|c"),
    unregisterFrom localhost] []).map NetspaceNode.hostname =
      [ascii "d"] := by
  decide +kernel

end GsnNode
