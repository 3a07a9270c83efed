import GsnNode.JoinedAnswers
import GsnNode.PacketWire

/-! The forge client, and the codes that it reads in the replies of the node. -/

set_option autoImplicit false

namespace GsnNode
open ByteWords MemoryRegion ProtocolHandler DelimitedText

/-! ### The client -/

/-- A view copies its whole frame out of the content, and reads the code in it. -/
def viewFrame (size : Nat) (response : List UInt8 → DvspRcode) (beyond : Beyond)
    (packet : DvspPacket) : Call DvspRcode := do
  let bs ← packet.contentAs beyond 0 size
  pure (response bs)

def viewFrameResponse : Beyond → DvspPacket → Call DvspRcode :=
  viewFrame FrameResponseCode.sizeOf fun bs => (FrameResponseCode.ofBytes bs).response

def viewFrameNetwork : Beyond → DvspPacket → Call DvspRcode :=
  viewFrame FrameNetwork.sizeOf fun bs => (FrameNetwork.ofBytes bs).response

def viewFrameHostname : Beyond → DvspPacket → Call DvspRcode :=
  viewFrame FrameHostname.sizeOf fun bs => (FrameHostname.ofBytes bs).response

/-- What a forge function does up to the dispatch, and the view that it gives the
reply to. -/
structure Forged where
  packet : DvspPacket
  view : Beyond → DvspPacket → Call DvspRcode

section Forge
variable {V6 : Type} (asio : Ipv6Text V6) (uninit : Block 125)

/-- A new packet of this type for the target. -/
def forgePacket (type : DvspMsgtype) (target : NetspaceAddr V6) : Call DvspPacket := do
  let dest ← target.toV4
  pure { DvspPacket.init with header := { DvspHeader.init with type := type, addrDest := dest } }

def forgeGsnRegisterHost (target : NetspaceAddr V6) (hostname : Text) (proto : ServiceProtocol) :
    Call Forged := do
  let p ← forgePacket .gsnRegisterHost target
  let frame ← constructFrameRegister uninit .org hostname proto
  let p ← p.copyContent frame.bytes
  pure ⟨p,viewFrameResponse⟩

def forgeGsnUnregisterHost (target : NetspaceAddr V6) : Call Forged := do
  let p ← forgePacket .gsnUnregisterHost target
  pure ⟨p,viewFrameResponse⟩

def forgeGsnLocalArea (target : NetspaceAddr V6) : Call Forged := do
  let p ← forgePacket .gsnLocalArea target
  pure ⟨p,viewFrameResponse⟩

def forgeGsnRequest (target : NetspaceAddr V6) (content : Text) : Call Forged := do
  let p ← forgePacket .gsnRequest target
  let p ← p.strContent content
  pure ⟨p,viewFrameNetwork⟩

def forgeGsnHostname (target : NetspaceAddr V6) (content : Text) : Call Forged := do
  let p ← forgePacket .gsnHostname target
  let named ← NetspaceAddr.fromString asio content
  let addr ← named.toV4
  let p ← p.copyContent addr.data
  pure ⟨p,viewFrameHostname⟩

/-- None for the types that are not implemented. -/
def runForge (type : DvspMsgtype) (target : NetspaceAddr V6) (content : Text)
    (proto : ServiceProtocol) : Option (Call Forged) :=
  if type = .gsnRegisterHost then some (forgeGsnRegisterHost uninit target content proto)
  else if type = .gsnUnregisterHost then some (forgeGsnUnregisterHost target)
  else if type = .gsnLocalArea then some (forgeGsnLocalArea target)
  else if type = .gsnHostname then some (forgeGsnHostname asio target content)
  else if type = .gsnRequest then some (forgeGsnRequest target content)
  else none

/-- The packet that the node takes out of the bytes that are dispatched. -/
def dispatched (orig : NetspaceIpv4) (p : DvspPacket) : Call DvspPacket := do
  let serial ← { p with header.addrOrig := orig }.serialise fun _ => none
  DvspPacket.deserialise ⟨serial,fun _ => none⟩

/-- A packet that gets to the node from the client, with the view of its reply. -/
def Sends (packet : DvspPacket) (view : Beyond → DvspPacket → Call DvspRcode) : Prop :=
  ∃ uninit type target content proto orig call forged,
    runForge asio uninit type target content proto = some call ∧ call = .ok forged ∧
      dispatched orig forged.packet = .ok packet ∧ forged.view = view

end Forge

/-! ### What the views read -/

/-- The content is not empty, and what the client reads there as a frame of `n`
bytes begins with the code ok. -/
def BeginsOk (beyond : Beyond) (n : Nat) (content : Text) : Prop :=
  content ≠ [] ∧ ∃ bs, load ⟨content,beyond⟩ 0 n = .ok bs ∧ DvspRcode.ok.bytes <+: bs

theorem viewFrame_eq_ok_iff {n : Nat} (hn : 4 ≤ n) {beyond : Beyond} {p : DvspPacket}
    {code : DvspRcode} : viewFrame n DvspRcode.ofBytes beyond p = .ok code ↔
      ∃ bs, p.contentAs beyond 0 n = .ok bs ∧ code.bytes <+: bs := by
  simp only [viewFrame, bind_eq_ok, pure_eq_ok, Except.ok.injEq]
  constructor
  · rintro ⟨bs,hbs,hcode⟩
    have hlen : bs.length = n := Content.read_length hbs
    exact ⟨bs,hbs,(DvspRcode.ofBytes_eq_iff code (by omega)).mp hcode⟩
  · rintro ⟨bs,hbs,hcode⟩
    have hlen : bs.length = n := Content.read_length hbs
    exact ⟨bs,hbs,(DvspRcode.ofBytes_eq_iff code (by omega)).mpr hcode⟩

/-- A whole frame in the content is read as it is. -/
theorem viewFrame_live {n : Nat} (hn : 4 ≤ n) (beyond : Beyond) (header : DvspHeader)
    {code : DvspRcode} {bs : List UInt8} (hlen : bs.length = n) (h : code.bytes <+: bs) :
    viewFrame n DvspRcode.ofBytes beyond ⟨header,.live bs⟩ = .ok code := by
  refine (viewFrame_eq_ok_iff hn).mpr ⟨bs,?_,h⟩
  rw [DvspPacket.contentAs, Content.read, load_inside _ (by simp [hlen]), List.drop_zero,
    List.take_of_length_le hlen.le]

theorem viewFrame_text {n : Nat} (hn : 4 ≤ n) (beyond : Beyond) (header : DvspHeader) (text : Text) :
    viewFrame n DvspRcode.ofBytes beyond ⟨header,if text = [] then .null else .live text⟩ = .ok .ok ↔
      BeginsOk beyond n text := by
  rw [viewFrame_eq_ok_iff hn, BeginsOk]
  by_cases hempty : text = []
  · have hnull : n ≠ 0 := by omega
    simp [hempty, DvspPacket.contentAs, Content.read, hnull, undefined]
  · simp [hempty, DvspPacket.contentAs, Content.read]

/-- Behind the code the client finds what is in its own memory. -/
theorem viewFrame_response_iff {n : Nat} (hn : 4 ≤ n) (beyond : Beyond) (code code' : DvspRcode) :
    viewFrame n DvspRcode.ofBytes beyond (responsePacket code) = .ok code' ↔
      code' = code ∧ ∀ i < n - 4, (beyond i).isSome := by
  have hread : (∃ bs, (Region.mk code.bytes beyond).read 0 n = some bs) ↔
      ∀ i < n - 4, (beyond i).isSome := by
    rw [← Option.isSome_iff_exists, Region.read_isSome_iff]
    constructor
    · intro h i hi
      have hbyte := h (i + 4) (by omega)
      simpa [Region.byteAt] using hbyte
    · intro h i hi
      by_cases hin : i < 4
      · simp [Region.byteAt, hin]
      · simpa [Region.byteAt, hin] using h (i - 4) (by omega)
  rw [viewFrame_eq_ok_iff hn, ← hread]
  simp only [DvspPacket.contentAs, responsePacket, Content.read, load]
  cases hbs : (Region.mk code.bytes beyond).read 0 n with
  | none => simp [undefined]
  | some bs =>
    have hpre : code.bytes <+: bs := Region.bytes_prefix hbs (by simpa using hn)
    have hlen := Region.read_length hbs
    have hcode : code'.bytes <+: bs ↔ code' = code := by
      rw [← DvspRcode.ofBytes_eq_iff code' (by omega), (DvspRcode.ofBytes_eq_iff code (by omega)).mpr hpre]
      exact eq_comm
    simp [hcode]

theorem ipv4ToString_ne_nil (a : NetspaceIpv4) : ipv4ToString a ≠ [] := by
  intro h
  have hread := ipv4FromString_toString a
  rw [h] at hread
  contradiction

theorem beginsOk_listing {V6 : Type} (asio : Ipv6Text V6) (beyond : Beyond)
    {nodes : List (NetspaceNode V6)} (hnodes : Ipv4Table nodes) :
    BeginsOk beyond FrameResponseCode.sizeOf (constructFrameNetwork asio nodes) ↔
      ∃ n rest, nodes = n :: rest ∧ DvspRcode.ok.bytes <+: n.hostname := by
  cases nodes with
  | nil => simp [BeginsOk, constructFrameNetwork]
  | cons n rest =>
    obtain ⟨a,ha⟩ := hnodes n List.mem_cons_self
    have htext : constructFrameNetwork asio (n :: rest) = n.hostname ++ bar :: (n.suid ++
        bar :: (n.addr.toString asio ++ semicolon :: constructFrameNetwork asio rest)) := by
      simp [constructFrameNetwork_eq, entryText]
    have haddr : 0 < (n.addr.toString asio).length := by
      rw [ha]
      exact List.length_pos_iff.mpr (ipv4ToString_ne_nil a)
    have hlen : FrameResponseCode.sizeOf ≤ (constructFrameNetwork asio (n :: rest)).length := by
      rw [htext, FrameResponseCode.sizeOf]
      simp only [List.length_append, List.length_cons]
      omega
    have hne : constructFrameNetwork asio (n :: rest) ≠ [] := by
      rw [htext]
      simp
    have hread := @load_inside ⟨constructFrameNetwork asio (n :: rest),beyond⟩ 0
      FrameResponseCode.sizeOf (by simpa using hlen)
    have htake : DvspRcode.ok.bytes <+:
        (constructFrameNetwork asio (n :: rest)).take FrameResponseCode.sizeOf ↔
          DvspRcode.ok.bytes <+: n.hostname := by
      rw [List.prefix_take_iff, htext, prefix_append_cons_iff (by decide)]
      exact and_iff_left (DvspRcode.bytes_length _).le
    simp [BeginsOk, hne, hread, htake]

/-! ### What the client sends -/

theorem dispatched_ok {orig : NetspaceIpv4} {p q : DvspPacket} (h : dispatched orig p = .ok q) :
    ∃ bs, p.content.read (fun _ => none) 0 p.header.size.toNat = .ok bs ∧
      bs.length = p.header.size.toNat ∧
      q = ⟨{ p.header with addrOrig := orig },if bs = [] then .null else .live bs⟩ := by
  obtain ⟨serial,hserial,hread⟩ := bind_eq_ok.mp h
  obtain ⟨bs,hbs,hlen,rfl⟩ := DvspPacket.serialise_ok hserial
  rw [DvspPacket.deserialise_append _ hlen] at hread
  exact ⟨bs,hbs,hlen,(Except.ok.inj hread).symm⟩

theorem dispatched_wellFormed {orig : NetspaceIpv4} {p q : DvspPacket}
    (h : dispatched orig p = .ok q) : q.WellFormed ∧ q.header.type = p.header.type := by
  obtain ⟨bs,-,hlen,rfl⟩ := dispatched_ok h
  refine ⟨⟨?_,by rw [DvspPacket.bytes_ite, hlen]⟩,rfl⟩
  split <;> simp

/-- A short content arrives as it was copied in. -/
theorem dispatched_content {orig : NetspaceIpv4} {header : DvspHeader} {p q : DvspPacket}
    {data : List UInt8} (hne : data ≠ []) (hlen : data.length < 2 ^ 32)
    (hp : DvspPacket.copyContent ⟨header,.null⟩ data = .ok p) (h : dispatched orig p = .ok q) :
    q.bytes = data := by
  obtain rfl : _ = p := Except.ok.inj ((DvspPacket.reset_null header hne).symm.trans hp)
  obtain ⟨bs,hbs,-,rfl⟩ := dispatched_ok h
  have hsize : (UInt32.ofNat data.length).toNat = data.length := UInt32.toNat_ofNat_of_lt' hlen
  rw [Content.read, hsize, load_inside _ (by simp), List.drop_zero, List.take_length] at hbs
  obtain rfl : data = bs := Except.ok.inj hbs
  exact DvspPacket.bytes_ite _ data

theorem FrameRegister.ofBytes_bytes (f : FrameRegister) : FrameRegister.ofBytes f.bytes = f := by
  simp [FrameRegister.ofBytes, FrameRegister.bytes, Block.ofList_data]

theorem FrameRegister.bytes_length (f : FrameRegister) : f.bytes.length = FrameRegister.sizeOf := by
  simp [FrameRegister.bytes, FrameRegister.sizeOf]

theorem constructFrameRegister_readable {uninit : Block 125} {type : NetnodeType} {hostname : Text}
    {proto : ServiceProtocol} {frame : FrameRegister} {packet : DvspPacket}
    (h : constructFrameRegister uninit type hostname proto = .ok frame)
    (hbytes : packet.bytes = frame.bytes) : RegisterReadable packet := by
  have hlen := frame.bytes_length
  refine ⟨by rw [hbytes, hlen],.inr ?_⟩
  rw [hbytes, List.take_of_length_le hlen.le, FrameRegister.ofBytes_bytes]
  rw [constructFrameRegister] at h
  split at h
  · rename_i hshort
    obtain rfl : _ = frame := Except.ok.inj h
    have hchar := charValue_ofNat (n := hostname.length) (by omega)
    simp only [hchar]
    omega
  · contradiction

/-- The packets of the client, with the views of their replies. -/
inductive SentPacket (packet : DvspPacket) : (Beyond → DvspPacket → Call DvspRcode) → Prop where
  | register : packet.header.type = .gsnRegisterHost → RegisterReadable packet →
      SentPacket packet viewFrameResponse
  | unregister : packet.header.type = .gsnUnregisterHost → SentPacket packet viewFrameResponse
  | localArea : packet.header.type = .gsnLocalArea → SentPacket packet viewFrameResponse
  | hostname : packet.header.type = .gsnHostname → packet.bytes.length = 4 →
      SentPacket packet viewFrameHostname
  | request : packet.header.type = .gsnRequest → SentPacket packet viewFrameNetwork

theorem forgePacket_ok {V6 : Type} {type : DvspMsgtype} {target : NetspaceAddr V6} {p : DvspPacket}
    (h : forgePacket type target = .ok p) :
    ∃ header : DvspHeader, header.type = type ∧ p = ⟨header,.null⟩ := by
  obtain ⟨dest,-,hp⟩ := bind_eq_ok.mp h
  exact ⟨_,rfl,(Except.ok.inj hp).symm⟩

theorem reset_type {p q : DvspPacket} {data : List UInt8} (h : p.reset data = .ok q) :
    q.header.type = p.header.type := by
  obtain ⟨header,content⟩ := p
  cases content with
  | null => exact (Except.ok.inj h) ▸ rfl
  | live bs => exact (Except.ok.inj h) ▸ rfl
  | released => contradiction

theorem Sends.sentPacket {V6 : Type} {asio : Ipv6Text V6} {packet : DvspPacket}
    {view : Beyond → DvspPacket → Call DvspRcode} (h : Sends asio packet view) :
    packet.WellFormed ∧ SentPacket packet view := by
  obtain ⟨uninit,type,target,content,proto,orig,call,forged,hrun,rfl,hdispatch,rfl⟩ := h
  obtain ⟨hwell,htype⟩ := dispatched_wellFormed hdispatch
  refine ⟨hwell,?_⟩
  unfold runForge at hrun
  split_ifs at hrun
  · obtain ⟨p,hp,hrun⟩ := bind_eq_ok.mp (Option.some.inj hrun)
    obtain ⟨header,hheader,rfl⟩ := forgePacket_ok hp
    obtain ⟨frame,hframe,hrun⟩ := bind_eq_ok.mp hrun
    obtain ⟨q,hq,hrun⟩ := bind_eq_ok.mp hrun
    obtain rfl : _ = forged := Except.ok.inj hrun
    have hlen := frame.bytes_length
    have hbytes : packet.bytes = frame.bytes :=
      dispatched_content (List.length_pos_iff.mp (by rw [hlen]; decide)) (by rw [hlen]; decide) hq
        hdispatch
    exact .register (htype.trans ((reset_type hq).trans hheader))
      (constructFrameRegister_readable hframe hbytes)
  · obtain ⟨p,hp,hrun⟩ := bind_eq_ok.mp (Option.some.inj hrun)
    obtain ⟨header,hheader,rfl⟩ := forgePacket_ok hp
    obtain rfl : _ = forged := Except.ok.inj hrun
    exact .unregister (htype.trans hheader)
  · obtain ⟨p,hp,hrun⟩ := bind_eq_ok.mp (Option.some.inj hrun)
    obtain ⟨header,hheader,rfl⟩ := forgePacket_ok hp
    obtain rfl : _ = forged := Except.ok.inj hrun
    exact .localArea (htype.trans hheader)
  · obtain ⟨p,hp,hrun⟩ := bind_eq_ok.mp (Option.some.inj hrun)
    obtain ⟨header,hheader,rfl⟩ := forgePacket_ok hp
    obtain ⟨named,-,hrun⟩ := bind_eq_ok.mp hrun
    obtain ⟨addr,-,hrun⟩ := bind_eq_ok.mp hrun
    obtain ⟨q,hq,hrun⟩ := bind_eq_ok.mp hrun
    obtain rfl : _ = forged := Except.ok.inj hrun
    have hlen := addr.size_eq
    have hbytes : packet.bytes = addr.data :=
      dispatched_content (List.length_pos_iff.mp (by omega)) (by omega) hq hdispatch
    exact .hostname (htype.trans ((reset_type hq).trans hheader)) (by rw [hbytes, hlen])
  · obtain ⟨p,hp,hrun⟩ := bind_eq_ok.mp (Option.some.inj hrun)
    obtain ⟨header,hheader,rfl⟩ := forgePacket_ok hp
    obtain ⟨q,hq,hrun⟩ := bind_eq_ok.mp hrun
    obtain rfl : _ = forged := Except.ok.inj hrun
    exact .request (htype.trans ((reset_type hq).trans hheader))

/-! ### Agreement -/

section Agreement
variable {V6 : Type} [DecidableEq V6] (env : Surroundings V6)

/-- A listing and a request to the hosts are never refused. -/
def CarriesOut (left : Leftover) (packet : DvspPacket) (addr : NetspaceAddr V6)
    (table : NetspaceTable V6) : Prop :=
  if packet.header.type = .gsnRegisterHost ∨ packet.header.type = .gsnUnregisterHost then
    (processPacket env left packet addr table).2 ≠ table
  else if packet.header.type = .gsnHostname then
    ∃ n ∈ table, n.addr = .v4 (Block.ofList 4 packet.bytes)
  else True

/-- The client reads ok if the request is carried out, and otherwise the code that
the node has put into the reply. -/
def CodesAgree (beyond : Beyond) (view : Beyond → DvspPacket → Call DvspRcode)
    (packet : DvspPacket) (addr : NetspaceAddr V6) (table : NetspaceTable V6) : Prop :=
  ∀ left, ∃ reply code, (processPacket env left packet addr table).1 = .ok reply ∧
    view beyond reply = .ok code ∧ (code = .ok ↔ CarriesOut env left packet addr table) ∧
    (¬ CarriesOut env left packet addr table → reply = responsePacket code)

/-- What each request needs for the agreement. -/
structure Agreeable (beyond : Beyond) (packet : DvspPacket) (table : NetspaceTable V6) : Prop where
  localArea : packet.header.type = .gsnLocalArea →
    ∃ n rest, nodesOf .org table = n :: rest ∧ DvspRcode.ok.bytes <+: n.hostname
  hostname : packet.header.type = .gsnHostname →
    match table.find? fun v => v.addr = .v4 (Block.ofList 4 packet.bytes) with
    | some n => n.hostname.length ≤ 125
    | none => ∀ i < FrameHostname.sizeOf - FrameResponseCode.sizeOf, (beyond i).isSome
  request : packet.header.type = .gsnRequest →
    ∃ u, NetspaceUrl.decode packet.bytes = .ok u ∧ HostsReply env packet u table ∧
      ∃ front, u.gsn.head? = some front ∧
        BeginsOk beyond FrameNetwork.sizeOf (joinedAnswers env packet front u.spq table)

/-! ### The requests one by one -/

theorem agrees_of_response (beyond : Beyond) {left : Leftover} {packet : DvspPacket}
    {addr : NetspaceAddr V6} {table table' : NetspaceTable V6} {code : DvspRcode}
    (htype : packet.header.type = .gsnRegisterHost ∨ packet.header.type = .gsnUnregisterHost)
    (h : processPacket env left packet addr table = (.ok (responsePacket code),table'))
    (hcode : code = .ok ↔ table' ≠ table) :
    ∃ reply code, (processPacket env left packet addr table).1 = .ok reply ∧
      viewFrameResponse beyond reply = .ok code ∧
      (code = .ok ↔ CarriesOut env left packet addr table) ∧
      (¬ CarriesOut env left packet addr table → reply = responsePacket code) := by
  have hcarries : CarriesOut env left packet addr table ↔ table' ≠ table := by
    rw [CarriesOut, if_pos htype, h]
  have hview : viewFrameResponse beyond (responsePacket code) = .ok code :=
    (viewFrame_response_iff le_rfl beyond code code).mpr ⟨rfl,by simp⟩
  exact ⟨_,code,by rw [h],hview,hcode.trans hcarries.symm,fun _ => rfl⟩

theorem codesAgree_register (beyond : Beyond) {packet : DvspPacket} (hp : packet.WellFormed)
    (htype : packet.header.type = .gsnRegisterHost) (hread : RegisterReadable packet)
    (addr : NetspaceAddr V6) (table : NetspaceTable V6) :
    CodesAgree env beyond viewFrameResponse packet addr table := by
  intro left
  obtain ⟨reply,hreply⟩ := registerHost_ok left env hp hread addr table
  have hprocess := processPacket_register env left htype addr table
  rcases registerHost_cases env left packet addr table with
    ⟨st,hostname,suid,-,-,-,heq⟩ | ⟨st,hostname,suid,-,-,heq⟩ | ⟨bs,-,-,heq⟩ | ⟨e,-,heq⟩
  · exact agrees_of_response env beyond (.inl htype) (hprocess.trans heq) (by simp)
  · exact agrees_of_response env beyond (.inl htype) (hprocess.trans heq)
      (by simp [DvspRcode.netspaceDuplicate, DvspRcode.ok])
  · exact agrees_of_response env beyond (.inl htype) (hprocess.trans heq)
      (by simp [DvspRcode.malformedContent, DvspRcode.ok])
  · rw [heq] at hreply
    contradiction

theorem codesAgree_unregister (beyond : Beyond) {packet : DvspPacket}
    (htype : packet.header.type = .gsnUnregisterHost) (addr : NetspaceAddr V6)
    (table : NetspaceTable V6) : CodesAgree env beyond viewFrameResponse packet addr table := by
  intro left
  have hprocess := processPacket_unregister env left htype addr table
  rcases unregisterHost_cases env addr table with ⟨before,n,after,rfl,-,-,heq⟩ | ⟨-,heq⟩
  · refine agrees_of_response env beyond (.inr htype) (hprocess.trans heq) ?_
    have hshort : (before ++ after).length ≠ (before ++ n :: after).length := by simp
    exact iff_of_true rfl fun hsame => hshort (congrArg List.length hsame)
  · exact agrees_of_response env beyond (.inr htype) (hprocess.trans heq)
      (by simp [DvspRcode.netspaceError, DvspRcode.ok])

theorem codesAgree_carried {beyond : Beyond} {view : Beyond → DvspPacket → Call DvspRcode}
    {packet : DvspPacket} {addr : NetspaceAddr V6} {table : NetspaceTable V6}
    (h : ∀ left, CarriesOut env left packet addr table) :
    CodesAgree env beyond view packet addr table ↔
      ∀ left, ∃ reply, (processPacket env left packet addr table).1 = .ok reply ∧
        view beyond reply = .ok .ok := by
  constructor
  · intro hagree left
    obtain ⟨reply,code,hreply,hview,hcode,-⟩ := hagree left
    obtain rfl := hcode.mpr (h left)
    exact ⟨reply,hreply,hview⟩
  · intro hok left
    obtain ⟨reply,hreply,hview⟩ := hok left
    exact ⟨reply,.ok,hreply,hview,iff_of_true rfl (h left),fun hno => absurd (h left) hno⟩

theorem codesAgree_localArea (beyond : Beyond) {packet : DvspPacket}
    (htype : packet.header.type = .gsnLocalArea) (addr : NetspaceAddr V6) {table : NetspaceTable V6}
    (htable : Ipv4Table table) :
    CodesAgree env beyond viewFrameResponse packet addr table ↔
      ∃ n rest, nodesOf .org table = n :: rest ∧ DvspRcode.ok.bytes <+: n.hostname := by
  have hcarries : ∀ left, CarriesOut env left packet addr table := fun left => by
    simp [CarriesOut, htype, DvspMsgtype.gsnLocalArea, DvspMsgtype.gsnRegisterHost,
      DvspMsgtype.gsnUnregisterHost, DvspMsgtype.gsnHostname]
  have horg : Ipv4Table (nodesOf .org table) := fun n hn => htable n (List.mem_of_mem_filter hn)
  have hreply : localGsn env packet table = .ok
      ⟨{ packet.header with
          type := .gsnResponse
          size := UInt32.ofNat (constructFrameNetwork env.asio (nodesOf .org table)).length },
        if constructFrameNetwork env.asio (nodesOf .org table) = [] then .null
        else .live (constructFrameNetwork env.asio (nodesOf .org table))⟩ := rfl
  have hview := viewFrame_text le_rfl beyond
    { packet.header with
      type := .gsnResponse
      size := UInt32.ofNat (constructFrameNetwork env.asio (nodesOf .org table)).length }
    (constructFrameNetwork env.asio (nodesOf .org table))
  rw [codesAgree_carried env hcarries, ← beginsOk_listing env.asio beyond horg]
  simp only [processPacket_localArea env _ htype, hreply, Except.ok.injEq, exists_eq_left']
  exact ⟨fun h => hview.mp (h unmapped),fun h _ => hview.mpr h⟩

theorem codesAgree_hostname (beyond : Beyond) {packet : DvspPacket} (hp : packet.WellFormed)
    (htype : packet.header.type = .gsnHostname) (hlen : packet.bytes.length = 4)
    (addr : NetspaceAddr V6) {table : NetspaceTable V6} (htable : Inbound table) :
    CodesAgree env beyond viewFrameHostname packet addr table ↔
      match table.find? fun v => v.addr = .v4 (Block.ofList 4 packet.bytes) with
      | some n => n.hostname.length ≤ 125
      | none => ∀ i < FrameHostname.sizeOf - FrameResponseCode.sizeOf, (beyond i).isSome := by
  have hcarries : ∀ left, CarriesOut env left packet addr table ↔
      ∃ n ∈ table, n.addr = .v4 (Block.ofList 4 packet.bytes) := fun left => by
    simp [CarriesOut, htype, DvspMsgtype.gsnHostname, DvspMsgtype.gsnRegisterHost,
      DvspMsgtype.gsnUnregisterHost]
  have hread := fun left => hostname_read left hp hlen.ge table
  rw [List.take_of_length_le hlen.le] at hread
  simp only [CodesAgree, processPacket_hostname env _ htype, hcarries]
  cases hfind : table.find? fun v => v.addr = .v4 (Block.ofList 4 packet.bytes) with
  | none =>
    have hnone : ¬ ∃ n ∈ table, n.addr = .v4 (Block.ofList 4 packet.bytes) := by
      simpa using hfind
    have hview := fun code => viewFrame_response_iff (n := FrameHostname.sizeOf) (by decide) beyond
      .netspaceError code
    have hne : DvspRcode.netspaceError ≠ .ok := by decide
    have hreply := fun left => hostname_unknown left (hread left).1 ((hread left).2.trans hfind)
    simp only [hreply, response_eq, hnone, iff_false, not_false_iff, true_imp_iff]
    constructor
    · intro h
      obtain ⟨reply,code,hreply,hcode,-⟩ := h unmapped
      obtain rfl := Except.ok.inj hreply
      exact ((hview code).mp hcode).2
    · exact fun h _ => ⟨_,.netspaceError,rfl,(hview _).mpr ⟨rfl,h⟩,hne,rfl⟩
  | some node =>
    have hmem := List.mem_of_find?_eq_some hfind
    have hsome : ∃ n ∈ table, n.addr = .v4 (Block.ofList 4 packet.bytes) :=
      ⟨node,hmem,by simpa using List.find?_some hfind⟩
    have hreply := fun left => hostname_known left (hread left).1 ((hread left).2.trans hfind)
    simp only [hreply]
    by_cases hfits : node.hostname.length ≤ 125
    · simp only [hfits, iff_true]
      intro left
      rw [constructFrameHostname_ok hfits, ok_bind]
      refine ⟨_,.ok,DvspPacket.reset_null _ (FrameHostname.bytes_ne_nil _),?_,iff_of_true rfl hsome,
        fun hno => absurd hsome hno⟩
      exact viewFrame_live (by decide) beyond _ (by simp [FrameHostname.bytes, FrameHostname.sizeOf])
        (List.prefix_append _ _)
    · simp only [hfits, iff_false]
      intro h
      obtain ⟨reply,code,hcode,-⟩ := h unmapped
      rw [constructFrameHostname_overrun _ _ (by omega) (htable node hmem).2] at hcode
      contradiction

theorem codesAgree_request (beyond : Beyond) {packet : DvspPacket} (hp : packet.WellFormed)
    (htype : packet.header.type = .gsnRequest) (addr : NetspaceAddr V6) {table : NetspaceTable V6}
    (htable : Ipv4Table table) :
    CodesAgree env beyond viewFrameNetwork packet addr table ↔
      ∃ u, NetspaceUrl.decode packet.bytes = .ok u ∧ HostsReply env packet u table ∧
        ∃ front, u.gsn.head? = some front ∧
          BeginsOk beyond FrameNetwork.sizeOf (joinedAnswers env packet front u.spq table) := by
  have hcarries : ∀ left, CarriesOut env left packet addr table := fun left => by
    simp [CarriesOut, htype, DvspMsgtype.gsnRequest, DvspMsgtype.gsnRegisterHost,
      DvspMsgtype.gsnUnregisterHost, DvspMsgtype.gsnHostname]
  have hview := fun text : Text => viewFrame_text (n := FrameNetwork.sizeOf) (by decide) beyond
    { DvspHeader.init with type := .gsnResponse, size := UInt32.ofNat text.length } text
  rw [codesAgree_carried env hcarries]
  simp only [processPacket_request env _ htype]
  constructor
  · intro h
    obtain ⟨u,hu,hhosts⟩ := (query_answered env hp htable).mp fun left => by
      obtain ⟨reply,hreply,-⟩ := h left
      exact ⟨reply,hreply⟩
    obtain ⟨-,-,-,hgsn,-⟩ := NetspaceUrl.decode_ok hu
    obtain ⟨front,rest,hroute⟩ := List.exists_cons_of_ne_nil hgsn
    have hfront : u.gsn.head? = some front := by rw [hroute]; rfl
    obtain ⟨reply,hreply,hok⟩ := h unmapped
    rw [query_reply env unmapped hp hu hfront htable hhosts] at hreply
    obtain rfl : _ = reply := Except.ok.inj hreply
    exact ⟨u,hu,hhosts,front,hfront,(hview _).mp hok⟩
  · rintro ⟨u,hu,hhosts,front,hfront,hbegins⟩ left
    exact ⟨_,query_reply env left hp hu hfront htable hhosts,(hview _).mpr hbegins⟩

/-- The codes of client and node agree exactly if the request is of a kind that is
answered with a code of its own, or the text in the reply happens to begin with one. -/
theorem codesAgree_iff (asio : Ipv6Text V6) (beyond : Beyond) {packet : DvspPacket}
    {view : Beyond → DvspPacket → Call DvspRcode} (h : Sends asio packet view) (a : NetspaceIpv4)
    {table : NetspaceTable V6} (htable : Reachable table) :
    CodesAgree env beyond view packet (.v4 a) table ↔ Agreeable env beyond packet table := by
  obtain ⟨hp,hsent⟩ := h.sentPacket
  have hinbound := htable.inbound
  have hv4 : Ipv4Table table := fun n hn => (hinbound n hn).1
  cases hsent with
  | register htype hread =>
    refine iff_of_true (codesAgree_register env beyond hp htype hread _ table) ⟨?_,?_,?_⟩ <;>
      exact fun hother => absurd (htype.symm.trans hother) (by decide)
  | unregister htype =>
    refine iff_of_true (codesAgree_unregister env beyond htype _ table) ⟨?_,?_,?_⟩ <;>
      exact fun hother => absurd (htype.symm.trans hother) (by decide)
  | localArea htype =>
    rw [codesAgree_localArea env beyond htype _ hv4]
    refine ⟨fun hlisting => ⟨fun _ => hlisting,?_,?_⟩,fun hagree => hagree.localArea htype⟩ <;>
      exact fun hother => absurd (htype.symm.trans hother) (by decide)
  | hostname htype hlen =>
    rw [codesAgree_hostname env beyond hp htype hlen _ hinbound]
    refine ⟨fun hnode => ⟨?_,fun _ => hnode,?_⟩,fun hagree => hagree.hostname htype⟩ <;>
      exact fun hother => absurd (htype.symm.trans hother) (by decide)
  | request htype =>
    rw [codesAgree_request env beyond hp htype _ hv4]
    refine ⟨fun hhosts => ⟨?_,?_,fun _ => hhosts⟩,fun hagree => hagree.request htype⟩ <;>
      exact fun hother => absurd (htype.symm.trans hother) (by decide)

end Agreement

def localAreaPacket : DvspPacket :=
  ⟨{ DvspHeader.init with type := .gsnLocalArea, addrDest := Block.ofList 4 [127,0,0,1] },.null⟩

def unregisterPacket : DvspPacket :=
  ⟨{ DvspHeader.init with type := .gsnUnregisterHost, addrDest := Block.ofList 4 [127,0,0,1] },.null⟩

theorem unregisterPacket_sends : Sends ipv4Only unregisterPacket viewFrameResponse :=
  ⟨default,.gsnUnregisterHost,localhost,[],.dvsp,default,_,_,rfl,rfl,rfl,rfl⟩

theorem localAreaPacket_sends : Sends ipv4Only localAreaPacket viewFrameResponse :=
  ⟨default,.gsnLocalArea,localhost,[],.dvsp,default,_,_,rfl,rfl,rfl,rfl⟩

/-- On a table without nodes, an unregistration and a listing. -/
theorem codesAgree_iff_localArea :
    CodesAgree isolated (fun _ => some 0) viewFrameResponse unregisterPacket localhost [] ∧
      ¬ CodesAgree isolated (fun _ => some 0) viewFrameResponse localAreaPacket localhost [] := by
  constructor
  · refine (codesAgree_iff isolated ipv4Only _ unregisterPacket_sends _ reachable_nil).mpr
      ⟨?_,?_,?_⟩ <;> exact fun hother => absurd hother (by decide)
  · intro h
    obtain ⟨n,rest,hlisting,-⟩ :=
      ((codesAgree_iff isolated ipv4Only _ localAreaPacket_sends _ reachable_nil).mp h).localArea rfl
    contradiction

/-- The listing of one registered host, read as a code. -/
theorem localArea_misread :
    Sends ipv4Only localAreaPacket viewFrameResponse ∧
      Reachable [(⟨.org,localhost,ascii "b",.dvsp,ascii "a"⟩ : NetspaceNode Empty)] ∧
      ¬ CodesAgree isolated (fun _ => some 0) viewFrameResponse localAreaPacket localhost
        [⟨.org,localhost,ascii "b",.dvsp,ascii "a"⟩] := by
  refine ⟨localAreaPacket_sends,⟨[⟨isolated,unmapped,packetOf .gsnRegisterHost
    (registerFrame (ascii "b|a")),localhost⟩],by simp [localhost],by decide +kernel⟩,?_⟩
  rw [codesAgree_localArea isolated _ rfl _ (by simp [Ipv4Table, localhost])]
  rintro ⟨n,rest,hlisting,hpre⟩
  obtain ⟨rfl,-⟩ := List.cons.inj hlisting
  exact absurd hpre (by decide +kernel)

end GsnNode
