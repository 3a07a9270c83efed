import GsnNode.ForgeClient

/-! What the forge client prints of a reply, and which replies are long enough for it. -/

set_option autoImplicit false

namespace GsnNode

theorem FrameHostname.bytes_length (f : FrameHostname) : f.bytes.length = FrameHostname.sizeOf := by
  simp [FrameHostname.bytes, FrameHostname.sizeOf]

theorem FrameHostname.ofBytes_bytes (f : FrameHostname) : FrameHostname.ofBytes f.bytes = f := by
  have hcode : DvspRcode.ofBytes f.bytes = f.response :=
    (DvspRcode.ofBytes_eq_iff f.response (by rw [f.bytes_length]; decide)).mpr
      (List.prefix_append _ _)
  have hrest : f.bytes.drop 4 = f.protocol.raw :: f.len :: f.hostname.data :=
    List.drop_left' f.response.bytes_length
  have harray : f.bytes.drop 6 = f.hostname.data := by
    rw [← List.drop_drop (i := 2) (j := 4), hrest]
    rfl
  have hproto : f.bytes.getD 4 0 = f.protocol.raw := by
    have hget := congrArg (fun l : List UInt8 => l.getD 0 0) hrest
    simpa [List.getD_eq_getElem?_getD, List.getElem?_drop] using hget
  have hlen : f.bytes.getD 5 0 = f.len := by
    have hget := congrArg (fun l : List UInt8 => l.getD 1 0) hrest
    simpa [List.getD_eq_getElem?_getD, List.getElem?_drop] using hget
  rw [FrameHostname.ofBytes, hcode, hproto, hlen, harray, ByteWords.Block.ofList_data]

namespace Forge
open ByteWords MemoryRegion ProtocolHandler

def endl : Text := [10]

def rcodeToString (code : DvspRcode) : Text :=
  if code = .ok then ascii "ok"
  else if code = .malformedContent then ascii "malformed_content"
  else if code = .netspaceError then ascii "netspace_error"
  else if code = .networkError then ascii "network_error"
  else ascii "undefined"

def responseLine (code : DvspRcode) : Text := ascii "Response: " ++ rcodeToString code ++ endl

/-- The memory that a view may read although nothing was written there for it. -/
structure ViewMemory where
  afterContent : Beyond
  /-- behind the copy of the `frame_hostname` -/
  afterFrame : Beyond

def viewFrameResponse (memory : ViewMemory) (packet : DvspPacket) : Call Text := do
  let bs ← packet.contentAs memory.afterContent 0 FrameResponseCode.sizeOf
  pure (responseLine (FrameResponseCode.ofBytes bs).response ++ endl)

def printNode (memory : ViewMemory) (packet : DvspPacket) (out : Text) (i : Nat) : Call Text := do
  let node ← packet.contentAs memory.afterContent (FrameNetwork.sizeOf + 1 + 4 * i) 4
  pure (out ++ ipv4ToString (Block.ofList 4 node) ++ endl)

def viewFrameNetwork (memory : ViewMemory) (packet : DvspPacket) : Call Text := do
  let bs ← packet.contentAs memory.afterContent 0 FrameNetwork.sizeOf
  let frame := FrameNetwork.ofBytes bs
  if frame.response ≠ .ok then pure (responseLine frame.response ++ endl)
  else do
    -- `total` is a `char`
    let out ← (List.range (charValue frame.total).toNat).foldlM (printNode memory packet)
      (responseLine frame.response)
    pure (out ++ endl)

def protocolText (proto : ServiceProtocol) : Text :=
  if proto = .http then ascii "http" else ascii "dvsp"

def viewFrameHostname (memory : ViewMemory) (packet : DvspPacket) : Call Text := do
  let bs ← packet.contentAs memory.afterContent 0 FrameHostname.sizeOf
  let frame := FrameHostname.ofBytes bs
  if frame.response ≠ .ok then pure (responseLine frame.response ++ endl)
  else do
    let len := sizeOfInt (charValue frame.len)
    let hostname ← assign len (load ⟨frame.hostname.data,memory.afterFrame⟩ 0 len)
    pure (responseLine frame.response ++ hostname ++ ascii ":" ++ protocolText frame.protocol ++
      endl ++ endl)

/-- The view that `run_forge` gives the reply to. -/
def viewReply (type : DvspMsgtype) : ViewMemory → DvspPacket → Call Text :=
  if type = .gsnHostname then viewFrameHostname
  else if type = .gsnRequest then viewFrameNetwork
  else viewFrameResponse

/-! ### The code in the first line -/

theorem viewFrame_contentAs {n : Nat} {response : List UInt8 → DvspRcode} {beyond : Beyond}
    {p : DvspPacket} {bs : List UInt8} (h : p.contentAs beyond 0 n = .ok bs) :
    viewFrame n response beyond p = .ok (response bs) := by
  rw [viewFrame, h]
  rfl

/-- What is printed begins with the code that the view reads. -/
def PrintsCode (print : ViewMemory → DvspPacket → Call Text)
    (view : Beyond → DvspPacket → Call DvspRcode) : Prop :=
  ∀ memory p out, print memory p = .ok out →
    ∃ code rest, view memory.afterContent p = .ok code ∧ out = responseLine code ++ rest

theorem viewFrameResponse_prints : PrintsCode viewFrameResponse GsnNode.viewFrameResponse := by
  intro memory p out h
  obtain ⟨bs,hbs,h⟩ := bind_eq_ok.mp h
  exact ⟨_,endl,viewFrame_contentAs hbs,(Except.ok.inj h).symm⟩

/-- The addresses are printed behind what is there already. -/
theorem printNodes_append {memory : ViewMemory} {p : DvspPacket} {is : List Nat} {out out' : Text}
    (h : is.foldlM (printNode memory p) out = .ok out') : ∃ lines, out' = out ++ lines := by
  induction is generalizing out with
  | nil => exact ⟨[],by rw [List.append_nil]; exact (Except.ok.inj h).symm⟩
  | cons i is ih =>
    rw [List.foldlM_cons] at h
    obtain ⟨next,hnext,h⟩ := bind_eq_ok.mp h
    obtain ⟨node,-,hnext⟩ := bind_eq_ok.mp hnext
    obtain rfl := Except.ok.inj hnext
    obtain ⟨lines,rfl⟩ := ih h
    exact ⟨ipv4ToString (Block.ofList 4 node) ++ endl ++ lines,by simp only [List.append_assoc]⟩

theorem viewFrameNetwork_prints : PrintsCode viewFrameNetwork GsnNode.viewFrameNetwork := by
  intro memory p out h
  obtain ⟨bs,hbs,h⟩ := bind_eq_ok.mp h
  refine ⟨(FrameNetwork.ofBytes bs).response,?_⟩
  simp only at h
  split at h
  · exact ⟨endl,viewFrame_contentAs hbs,(Except.ok.inj h).symm⟩
  · obtain ⟨text,htext,h⟩ := bind_eq_ok.mp h
    obtain ⟨lines,rfl⟩ := printNodes_append htext
    exact ⟨lines ++ endl,viewFrame_contentAs hbs,by
      rw [← List.append_assoc]; exact (Except.ok.inj h).symm⟩

theorem viewFrameHostname_prints : PrintsCode viewFrameHostname GsnNode.viewFrameHostname := by
  intro memory p out h
  obtain ⟨bs,hbs,h⟩ := bind_eq_ok.mp h
  refine ⟨(FrameHostname.ofBytes bs).response,?_⟩
  simp only at h
  split at h
  · exact ⟨endl,viewFrame_contentAs hbs,(Except.ok.inj h).symm⟩
  · obtain ⟨text,-,h⟩ := bind_eq_ok.mp h
    exact ⟨_,viewFrame_contentAs hbs,by
      simpa only [List.append_assoc] using (Except.ok.inj h).symm⟩

/-! ### Replies that are long enough -/

/-- The code is there. -/
def ResponseWithin (content : Text) : Prop := FrameResponseCode.sizeOf ≤ content.length

/-- The frame is there, and behind it and another byte so are the addresses that are printed. -/
def NetworkWithin (content : Text) : Prop :=
  let frame := FrameNetwork.ofBytes (content.take FrameNetwork.sizeOf)
  FrameNetwork.sizeOf ≤ content.length ∧ (frame.response = .ok → 0 < charValue frame.total →
    FrameNetwork.sizeOf + 1 + 4 * (charValue frame.total).toNat ≤ content.length)

/-- The frame is there, and the hostname is in its array. -/
def HostnameWithin (content : Text) : Prop :=
  let frame := FrameHostname.ofBytes (content.take FrameHostname.sizeOf)
  FrameHostname.sizeOf ≤ content.length ∧
    (frame.response = .ok → 0 ≤ charValue frame.len ∧ charValue frame.len ≤ 125)

def ViewWithin (type : DvspMsgtype) : Text → Prop :=
  if type = .gsnHostname then HostnameWithin
  else if type = .gsnRequest then NetworkWithin
  else ResponseWithin

/-- Whatever the memory is, the view prints the same. -/
def Shows (view : ViewMemory → DvspPacket → Call Text) (packet : DvspPacket) : Prop :=
  ∃ out, ∀ memory, view memory packet = .ok out

def noMemory : ViewMemory := ⟨fun _ => none,fun _ => none⟩

section Views
variable {p : DvspPacket} (hp : p.WellFormed)

theorem contentAs_noMemory {off n : Nat} {bs : List UInt8} (hn : 0 < n)
    (h : p.contentAs noMemory.afterContent off n = .ok bs) : off + n ≤ p.bytes.length := by
  by_contra hout
  have hfault : p.contentAs noMemory.afterContent off n = undefined :=
    DvspPacket.read_outside p (not_le.mp hout) hn
  rw [hfault] at h
  contradiction

theorem viewFrameResponse_within {out : Text} (h : viewFrameResponse noMemory p = .ok out) :
    ResponseWithin p.bytes := by
  obtain ⟨bs,hbs,-⟩ := bind_eq_ok.mp h
  simpa [ResponseWithin] using contentAs_noMemory (by decide) hbs

/-- As many addresses as are there. -/
def networkLines (content : Text) (k : Nat) (out : Text) : Text :=
  (List.range k).foldl (fun out i =>
    out ++ ipv4ToString (Block.ofList 4
      ((content.drop (FrameNetwork.sizeOf + 1 + 4 * i)).take 4)) ++ endl) out

theorem printNodes_noMemory {k : Nat} {out out' : Text}
    (h : (List.range k).foldlM (printNode noMemory p) out = .ok out') (hk : 0 < k) :
    FrameNetwork.sizeOf + 1 + 4 * k ≤ p.bytes.length := by
  cases k with
  | zero => omega
  | succ k =>
    rw [List.range_succ, List.foldlM_append] at h
    obtain ⟨mid,-,h⟩ := bind_eq_ok.mp h
    rw [List.foldlM_cons] at h
    obtain ⟨last,hlast,-⟩ := bind_eq_ok.mp h
    obtain ⟨node,hnode,-⟩ := bind_eq_ok.mp hlast
    have hread := contentAs_noMemory (by decide) hnode
    omega

theorem viewFrameNetwork_within (hp : p.WellFormed) {out : Text}
    (h : viewFrameNetwork noMemory p = .ok out) : NetworkWithin p.bytes := by
  obtain ⟨bs,hbs,h⟩ := bind_eq_ok.mp h
  have hlen : FrameNetwork.sizeOf ≤ p.bytes.length := by
    simpa using contentAs_noMemory (by decide) hbs
  obtain rfl := Except.ok.inj ((hp.contentAs _ hlen).symm.trans hbs)
  refine ⟨hlen,fun hok htotal => ?_⟩
  simp only [hok, ne_eq, not_true_eq_false, if_false] at h
  obtain ⟨lines,hlines,-⟩ := bind_eq_ok.mp h
  exact printNodes_noMemory hlines (by omega)

/-- The text that `assign` is given lies in the array, or is not read at all. -/
theorem arrayText_noMemory {array : Block 125} {len : UInt8} {text : Text}
    (h : assign (sizeOfInt (charValue len))
      (load ⟨array.data,noMemory.afterFrame⟩ 0 (sizeOfInt (charValue len))) = .ok text) :
    0 ≤ charValue len ∧ charValue len ≤ 125 :=
  @frameText_unmapped unmapped ⟨0,len,0,array⟩ text (fun _ => rfl) h

theorem arrayText_ok (memory : ViewMemory) {array : Block 125} {len : UInt8}
    (h : 0 ≤ charValue len ∧ charValue len ≤ 125) :
    assign (sizeOfInt (charValue len))
      (load ⟨array.data,memory.afterFrame⟩ 0 (sizeOfInt (charValue len))) =
        .ok (array.data.take (charValue len).toNat) :=
  @frameText_ok { unmapped with afterRegister := memory.afterFrame } ⟨0,len,0,array⟩ h.1 h.2

theorem viewFrameHostname_within (hp : p.WellFormed) {out : Text}
    (h : viewFrameHostname noMemory p = .ok out) : HostnameWithin p.bytes := by
  obtain ⟨bs,hbs,h⟩ := bind_eq_ok.mp h
  have hlen : FrameHostname.sizeOf ≤ p.bytes.length := by
    simpa using contentAs_noMemory (by decide) hbs
  obtain rfl := Except.ok.inj ((hp.contentAs _ hlen).symm.trans hbs)
  refine ⟨hlen,fun hok => ?_⟩
  simp only [hok, ne_eq, not_true_eq_false, if_false] at h
  obtain ⟨text,htext,-⟩ := bind_eq_ok.mp h
  exact arrayText_noMemory htext

include hp

theorem viewFrameResponse_shows (h : ResponseWithin p.bytes) : Shows viewFrameResponse p := by
  refine ⟨responseLine (FrameResponseCode.ofBytes (p.bytes.take FrameResponseCode.sizeOf)).response ++
    endl,fun memory => ?_⟩
  rw [viewFrameResponse, hp.contentAs memory.afterContent h]
  rfl

theorem printNodes_eq (memory : ViewMemory) {k : Nat}
    (h : FrameNetwork.sizeOf + 1 + 4 * k ≤ p.bytes.length) (out : Text) :
    (List.range k).foldlM (printNode memory p) out = .ok (networkLines p.bytes k out) := by
  induction k with
  | zero => rfl
  | succ k ih =>
    have hread := hp.read_inside memory.afterContent
      (show FrameNetwork.sizeOf + 1 + 4 * k + 4 ≤ _ by omega)
    have hline : printNode memory p (networkLines p.bytes k out) k =
        .ok (networkLines p.bytes (k + 1) out) := by
      rw [printNode, DvspPacket.contentAs, hread, networkLines, networkLines, List.range_succ,
        List.foldl_append]
      rfl
    rw [List.range_succ, List.foldlM_append, ih (by omega), ok_bind, List.foldlM_cons, hline]
    rfl

theorem viewFrameNetwork_shows (h : NetworkWithin p.bytes) : Shows viewFrameNetwork p := by
  obtain ⟨hlen,hnodes⟩ := h
  by_cases hok : (FrameNetwork.ofBytes (p.bytes.take FrameNetwork.sizeOf)).response = .ok
  · refine ⟨networkLines p.bytes (charValue (FrameNetwork.ofBytes
      (p.bytes.take FrameNetwork.sizeOf)).total).toNat (responseLine .ok) ++ endl,fun memory => ?_⟩
    simp only [viewFrameNetwork, hp.contentAs memory.afterContent hlen, ok_bind, hok, ne_eq,
      not_true_eq_false, if_false]
    by_cases htotal : 0 < charValue (FrameNetwork.ofBytes (p.bytes.take FrameNetwork.sizeOf)).total
    · rw [printNodes_eq hp memory (hnodes hok htotal)]
      rfl
    · rw [Int.toNat_eq_zero.mpr (not_lt.mp htotal)]
      rfl
  · refine ⟨responseLine (FrameNetwork.ofBytes (p.bytes.take FrameNetwork.sizeOf)).response ++ endl,
      fun memory => ?_⟩
    simp only [viewFrameNetwork, hp.contentAs memory.afterContent hlen, ok_bind, ne_eq, hok,
      not_false_eq_true, if_true]
    rfl

theorem viewFrameHostname_eq (memory : ViewMemory) (hlen : FrameHostname.sizeOf ≤ p.bytes.length)
    {frame : FrameHostname}
    (hframe : FrameHostname.ofBytes (p.bytes.take FrameHostname.sizeOf) = frame)
    (hok : frame.response = .ok) (hfits : 0 ≤ charValue frame.len ∧ charValue frame.len ≤ 125) :
    viewFrameHostname memory p = .ok (responseLine .ok ++
      frame.hostname.data.take (charValue frame.len).toNat ++ ascii ":" ++
        protocolText frame.protocol ++ endl ++ endl) := by
  simp only [viewFrameHostname, hp.contentAs memory.afterContent hlen, ok_bind, hframe, hok, ne_eq,
    not_true_eq_false, if_false, arrayText_ok memory hfits]
  rfl

theorem viewFrameHostname_shows (h : HostnameWithin p.bytes) : Shows viewFrameHostname p := by
  obtain ⟨hlen,hfits⟩ := h
  by_cases hok : (FrameHostname.ofBytes (p.bytes.take FrameHostname.sizeOf)).response = .ok
  · exact ⟨_,fun memory => viewFrameHostname_eq hp memory hlen rfl hok (hfits hok)⟩
  · refine ⟨responseLine (FrameHostname.ofBytes (p.bytes.take FrameHostname.sizeOf)).response ++ endl,
      fun memory => ?_⟩
    simp only [viewFrameHostname, hp.contentAs memory.afterContent hlen, ok_bind, ne_eq, hok,
      not_false_eq_true, if_true]
    rfl

theorem viewReply_within (type : DvspMsgtype) {out : Text}
    (h : viewReply type noMemory p = .ok out) : ViewWithin type p.bytes := by
  unfold viewReply at h
  unfold ViewWithin
  split_ifs at h ⊢
  · exact viewFrameHostname_within hp h
  · exact viewFrameNetwork_within hp h
  · exact viewFrameResponse_within h

/-- A reply is shown, and always the same way, exactly if the view finds in it what it reads. -/
theorem viewReply_shows_iff (type : DvspMsgtype) :
    Shows (viewReply type) p ↔ ViewWithin type p.bytes := by
  constructor
  · intro h
    obtain ⟨out,hout⟩ := h
    exact viewReply_within hp type (hout noMemory)
  · unfold viewReply ViewWithin
    split_ifs
    · exact viewFrameHostname_shows hp
    · exact viewFrameNetwork_shows hp
    · exact viewFrameResponse_shows hp

end Views

end Forge
end GsnNode
