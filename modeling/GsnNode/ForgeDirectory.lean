import GsnNode.AddressQueues
import GsnNode.ForgeCommands

/-! What the node is for its clients: a directory in which every address has a queue of
names. No hostname and no suid is in it twice. -/

set_option autoImplicit false

namespace GsnNode
namespace Forge
open ByteWords MemoryRegion ProtocolHandler KeyedList Handler StepRuns

/-- What a node is known by. -/
structure Names where
  hostname : Text
  suid : Text
  proto : ServiceProtocol

/-- The names of every address, the oldest first. -/
abbrev Directory (V6 : Type) := NetspaceAddr V6 → List Names

namespace Directory
variable {V6 : Type}

def Taken (d : Directory V6) (names : Names) : Prop :=
  ∃ addr, ∃ m ∈ d addr, m.hostname = names.hostname ∨ m.suid = names.suid

variable [DecidableEq V6]

def push (d : Directory V6) (addr : NetspaceAddr V6) (names : Names) : Directory V6 :=
  Function.update d addr (d addr ++ [names])

def pop (d : Directory V6) (addr : NetspaceAddr V6) : Directory V6 :=
  Function.update d addr (d addr).tail

/-- What someone else can do from an address, with a packet of this type. -/
inductive Changes (type : DvspMsgtype) (addr : NetspaceAddr V6) (d : Directory V6) :
    Directory V6 → Prop where
  | push {names : Names} : type = .gsnRegisterHost → ¬ d.Taken names →
      Changes type addr d (d.push addr names)
  | pop : type = .gsnUnregisterHost → d addr ≠ [] → Changes type addr d (d.pop addr)
  | keep : Changes type addr d d

end Directory

/-! ### The table as a directory -/

section Tables
variable {V6 : Type} [DecidableEq V6]

def namesOf (n : NetspaceNode V6) : Names := ⟨n.hostname,n.suid,n.proto⟩

def directoryOf (table : NetspaceTable V6) : Directory V6 :=
  fun addr => (queueOf NetspaceNode.addr addr table).map namesOf

theorem taken_iff (table : NetspaceTable V6) (names : Names) :
    (directoryOf table).Taken names ↔
      ∃ m ∈ table, m.hostname = names.hostname ∨ m.suid = names.suid := by
  simp only [Directory.Taken, directoryOf, queueOf, List.mem_map, List.mem_filter]
  constructor
  · intro h
    obtain ⟨addr,m,⟨n,⟨hn,-⟩,rfl⟩,hm⟩ := h
    exact ⟨n,hn,hm⟩
  · intro h
    obtain ⟨n,hn,hm⟩ := h
    exact ⟨n.addr,namesOf n,⟨n,⟨hn,by simp⟩,rfl⟩,hm⟩

theorem not_taken {table : NetspaceTable V6} {names : Names}
    (hhost : ∀ m ∈ table, m.hostname ≠ names.hostname) (hsuid : ∀ m ∈ table, m.suid ≠ names.suid) :
    ¬ (directoryOf table).Taken names := by
  rw [taken_iff]
  intro h
  obtain ⟨m,hm,hname | hname⟩ := h
  · exact hhost m hm hname
  · exact hsuid m hm hname

theorem directoryOf_push (table : NetspaceTable V6) (n : NetspaceNode V6) :
    directoryOf (table ++ [n]) = (directoryOf table).push n.addr (namesOf n) := by
  have hqueue := @queueOf_append_update _ _ _ NetspaceNode.addr table n
  funext addr
  have haddr := congrFun hqueue addr
  simp only [directoryOf, Directory.push, haddr, Function.update_apply]
  split_ifs <;> simp

theorem directoryOf_pop {before after : List (NetspaceNode V6)} {n : NetspaceNode V6}
    (hbefore : ∀ m ∈ before, m.addr ≠ n.addr) :
    directoryOf (before ++ after) = (directoryOf (before ++ n :: after)).pop n.addr := by
  have hqueue := @queueOf_erase_update _ _ _ NetspaceNode.addr n before hbefore after
  funext addr
  have haddr := congrFun hqueue addr
  simp only [directoryOf, Directory.pop, haddr, Function.update_apply]
  split_ifs <;> simp

theorem directoryOf_ne_nil {table : NetspaceTable V6} {addr : NetspaceAddr V6} :
    directoryOf table addr ≠ [] ↔ ∃ m ∈ table, m.addr = addr := by
  rw [directoryOf, ne_eq, List.map_eq_nil_iff, queueOf_eq_nil]
  simp

/-- The oldest names of an address are those of the node that is found. -/
theorem directoryOf_head (table : NetspaceTable V6) (addr : NetspaceAddr V6) :
    (directoryOf table addr).head? = (table.node? (table.findAddr addr)).map namesOf := by
  rw [directoryOf, List.head?_map, head?_queueOf]
  rfl

/-- Whatever packet comes from an address, all that changes is its own queue. -/
theorem packet_changes (c : PacketCall V6) (table : NetspaceTable V6) :
    (directoryOf table).Changes c.packet.header.type c.addr (directoryOf (c.step table)) := by
  rcases c.step_cases table with ⟨st,hostname,suid,htype,-,hhost,hsuid,-,heq⟩ |
    ⟨before,n,after,htype,htable,hn,hbefore,-,heq⟩ | ⟨-,heq⟩
  · rw [heq, directoryOf_push]
    exact .push htype (not_taken hhost hsuid)
  · rw [heq, directoryOf_pop (hn ▸ hbefore), ← htable, hn]
    refine .pop htype (directoryOf_ne_nil.mpr ⟨n,?_,hn⟩)
    simp [htable]
  · rw [heq]
    exact .keep

end Tables

/-! ### What the clients do -/

/-- One command, and all that it depends on besides the table. -/
structure Command (V6 : Type) where
  env : Surroundings V6
  memory : ExchangeMemory
  type : DvspMsgtype
  target : NetspaceAddr V6
  content : Text
  proto : ServiceProtocol
  orig : NetspaceIpv4
  client : NetspaceIpv4

inductive Event (V6 : Type) where
  | command : Command V6 → Event V6
  /-- a packet from elsewhere -/
  | packet : PacketCall V6 → Event V6

section Events
variable {V6 : Type} [DecidableEq V6]

def Command.run (c : Command V6) : Handler V6 Text :=
  runForge c.env c.memory c.type c.target c.content c.proto c.orig c.client

def Event.run : Event V6 → Handler V6 Text
  | .command c => c.run
  | .packet c => do
    let _ ← processPacket c.env c.left c.packet c.addr
    pure []

/-- What is printed of each event in turn. -/
def runEvents : List (Event V6) → Handler V6 (List Text)
  | [] => pure []
  | e :: events => do
    let out ← e.run
    let outs ← runEvents events
    pure (out :: outs)

/-- The command comes back, or the packet is answered. -/
def Event.Completes (table : NetspaceTable V6) : Event V6 → Prop
  | .command c => Returns c.env c.orig c.client c.content c.proto table c.type c.target
  | .packet c => (∃ a, c.addr = .v4 a) ∧ ∃ reply, c.result table = .ok reply

def Event.step (table : NetspaceTable V6) (e : Event V6) : NetspaceTable V6 := (e.run table).2

def Command.names (c : Command V6) : Names :=
  ⟨(splitNames c.content).1,(splitNames c.content).2,c.proto⟩

def Command.output (c : Command V6) (text : Text) : Text :=
  forging c.type ++ ascii "OK" ++ endl ++ text

def Names.line (names : Names) : Text := names.hostname ++ ascii ":" ++ protocolText names.proto

/-- What a command prints and what it does to the directory. -/
inductive Serves (c : Command V6) (d : Directory V6) : Text → Directory V6 → Prop where
  | registered : c.type = .gsnRegisterHost → ¬ d.Taken c.names →
      Serves c d (c.output (responseLine .ok ++ endl)) (d.push (.v4 c.client) c.names)
  | taken : c.type = .gsnRegisterHost → d.Taken c.names →
      Serves c d (c.output (responseLine .netspaceDuplicate ++ endl)) d
  | unregistered : c.type = .gsnUnregisterHost → d (.v4 c.client) ≠ [] →
      Serves c d (c.output (responseLine .ok ++ endl)) (d.pop (.v4 c.client))
  | notRegistered : c.type = .gsnUnregisterHost → d (.v4 c.client) = [] →
      Serves c d (c.output (responseLine .netspaceError ++ endl)) d
  | hostname {a : NetspaceIpv4} {names : Names} : c.type = .gsnHostname →
      NetspaceAddr.fromString c.env.asio c.content = .ok (.v4 a) →
      (d (.v4 a)).head? = some names →
      Serves c d (c.output (responseLine .ok ++ names.line ++ endl ++ endl)) d
  | listing {text : Text} : c.type = .gsnLocalArea ∨ c.type = .gsnRequest →
      Serves c d (c.output text) d
  | unimplemented : ¬ Implemented c.type → Serves c d (ascii "Unimplemented frame" ++ endl) d

inductive EventServes : Event V6 → Directory V6 → Text → Directory V6 → Prop where
  | command {c : Command V6} {d d' : Directory V6} {out : Text} : Serves c d out d' →
      EventServes (.command c) d out d'
  | packet {c : PacketCall V6} {d d' : Directory V6} : d.Changes c.packet.header.type c.addr d' →
      EventServes (.packet c) d [] d'

inductive DirectoryRun : List (Event V6) → Directory V6 → List Text → Directory V6 → Prop where
  | nil {d : Directory V6} : DirectoryRun [] d [] d
  | cons {e : Event V6} {events : List (Event V6)} {d d' d'' : Directory V6} {out : Text}
      {outs : List Text} : EventServes e d out d' → DirectoryRun events d' outs d'' →
      DirectoryRun (e :: events) d (out :: outs) d''

/-! ### One command -/

variable {c : Command V6} {table : NetspaceTable V6}

/-- The request as the node gets it. -/
def Command.call (c : Command V6) (dest : NetspaceIpv4) (data : Text) : PacketCall V6 :=
  ⟨c.env,c.memory.left,wirePacket c.type c.orig dest data,.v4 c.client⟩

structure Exchanged (c : Command V6) (table : NetspaceTable V6) (dest : NetspaceIpv4)
    (data : Text) (reply : DvspPacket) : Prop where
  payload_eq : payload c.env.asio c.memory.registerArray c.type c.content c.proto = .ok data
  result_eq : (c.call dest data).result table = .ok reply
  fits : (sentContent reply).length ≤ bufSize - DvspHeader.sizeOf
  sendable : reply.Sendable
  run_eq : c.run table = (printReply c.memory c.type reply,(c.call dest data).step table)

theorem exchanged (himp : Implemented c.type)
    (h : Returns c.env c.orig c.client c.content c.proto table c.type c.target) :
    ∃ dest data reply, Exchanged c table dest data reply := by
  cases htarget : c.target with
  | v6 a =>
    rw [htarget] at h
    exact absurd h (not_returns_ipv6 c.env c.orig c.client c.content c.proto table himp a)
  | v4 dest =>
    rw [htarget, Returns, runForge_returns_iff c.env himp] at h
    obtain ⟨data,hdata,hfits,hanswered⟩ := h c.memory.registerArray
    obtain ⟨reply,hreply,hshort,-⟩ := hanswered c.memory.left
    have hprocess : processPacket c.env c.memory.left (wirePacket c.type c.orig dest data)
        (.v4 c.client) table = (.ok reply,(c.call dest data).step table) := Prod.ext hreply rfl
    have hrun := runForge_answered c.env c.memory himp c.orig c.client hdata hfits hprocess
    rw [← htarget] at hrun
    exact ⟨dest,data,reply,hdata,hreply,hshort,processPacket_sendable c.env c.memory.left hreply,hrun⟩

theorem printReply_code (m : ExchangeMemory) {type : DvspMsgtype}
    (hview : viewReply type = viewFrameResponse) (code : DvspRcode)
    (hsendable : (responsePacket code).Sendable) :
    printReply m type (responsePacket code) =
      .ok (forging type ++ ascii "OK" ++ endl ++ (responseLine code ++ endl)) := by
  have hfits : (sentContent (responsePacket code)).length ≤ bufSize - DvspHeader.sizeOf := by
    rw [sentContent_response, code.bytes_length]
    decide
  have hbytes : (replyPacket (responsePacket code)).bytes = code.bytes := by
    rw [replyPacket_bytes, sentContent_response]
  have hread := (replyPacket_wellFormed hsendable).contentAs m.view.afterContent
    (show FrameResponseCode.sizeOf ≤ _ by rw [hbytes, code.bytes_length]; rfl)
  have hcode : DvspRcode.ofBytes (code.bytes.take FrameResponseCode.sizeOf) = code := by
    rw [List.take_of_length_le (by rw [code.bytes_length]; rfl)]
    exact (DvspRcode.ofBytes_eq_iff code (by rw [code.bytes_length])).mpr (List.prefix_refl _)
  rw [printReply_fits m hsendable hfits, hview, viewFrameResponse, hread, hbytes]
  simp only [ok_bind, pure_eq_ok, FrameResponseCode.ofBytes, hcode]

/-- A command that may change the table prints the code that it gets. -/
theorem Exchanged.run_code {dest : NetspaceIpv4} {data : Text} {code : DvspRcode}
    (h : Exchanged c table dest data (responsePacket code))
    (hview : viewReply c.type = viewFrameResponse) :
    c.run table = (.ok (c.output (responseLine code ++ endl)),(c.call dest data).step table) := by
  rw [h.run_eq, printReply_code c.memory hview code h.sendable]
  rfl

theorem Exchanged.result_code {dest : NetspaceIpv4} {data : Text} {reply : DvspPacket}
    {code : DvspRcode} {table' : NetspaceTable V6} (h : Exchanged c table dest data reply)
    (heq : processPacket c.env c.memory.left (wirePacket c.type c.orig dest data) (.v4 c.client)
      table = (.ok (responsePacket code),table')) :
    reply = responsePacket code ∧ (c.call dest data).step table = table' :=
  ⟨Except.ok.inj (h.result_eq.symm.trans (congrArg Prod.fst heq)),congrArg Prod.snd heq⟩

/-- What the node reads is the frame that the client has put together. -/
theorem registered_names {dest : NetspaceIpv4} {data : Text} {reply : DvspPacket}
    (h : Exchanged c table dest data reply) (htype : c.type = .gsnRegisterHost) :
    ∃ frame : FrameRegister, frame.type = NetnodeType.org.raw ∧ frame.protocol = c.proto.raw ∧
      registerOf (c.call dest data).packet = frame ∧
      WellFormedRegistration (c.call dest data).packet ∧ frame.text = c.content := by
  have hdata := h.payload_eq
  simp only [payload, htype, if_true] at hdata
  obtain ⟨frame,hframe,hdata⟩ := bind_eq_ok.mp hdata
  have hshort : c.content.length ≤ 125 := by
    by_contra hlong
    rw [constructFrameRegister, if_neg hlong] at hframe
    contradiction
  obtain ⟨frame',hframe',horg,hproto,hfits,htext⟩ :=
    constructFrameRegister_ok c.memory.registerArray .org c.proto hshort
  obtain rfl := Except.ok.inj (hframe'.symm.trans hframe)
  obtain rfl := Except.ok.inj hdata
  have hlen : frame'.bytes.length = FrameRegister.sizeOf := frame'.bytes_length
  have hbytes : (c.call dest frame'.bytes).packet.bytes = frame'.bytes := by
    rw [Command.call, wirePacket_bytes, sentText_of_lt (by rw [hlen]; decide)]
  have hregister : registerOf (c.call dest frame'.bytes).packet = frame' := by
    rw [registerOf, hbytes, List.take_of_length_le hlen.le, frame'.ofBytes_bytes]
  refine ⟨frame',horg,hproto,hregister,⟨by rw [hbytes, hlen],?_⟩,htext⟩
  rw [hregister]
  exact hfits

theorem serves_register (htype : c.type = .gsnRegisterHost)
    (h : Returns c.env c.orig c.client c.content c.proto table c.type c.target) :
    ∃ out, (c.run table).1 = .ok out ∧
      Serves c (directoryOf table) out (directoryOf (c.run table).2) := by
  obtain ⟨dest,data,reply,hex⟩ := exchanged (.inl htype) h
  obtain ⟨frame,horg,hproto,hregister,hwf,htext⟩ := registered_names hex htype
  have hview : viewReply c.type = viewFrameResponse := by rw [htype]; rfl
  have hp : (c.call dest data).packet.WellFormed := wirePacket_wellFormed _ _ _ _
  have hregister_type : (c.call dest data).packet.header.type = .gsnRegisterHost := htype
  have hprocess := processPacket_register c.env c.memory.left hregister_type (.v4 c.client) table
  have hnames := fun st hostname suid
      (hst : Registration c.memory.left (c.call dest data).packet st hostname suid) =>
    registration_names c.memory.left hp hwf hst
  simp only [hregister, htext] at hnames
  rcases registerHost_cases c.env c.memory.left (c.call dest data).packet (.v4 c.client) table with
    ⟨st,hostname,suid,hst,hhost,hsuid,heq⟩ | ⟨st,hostname,suid,hst,htaken,heq⟩ |
    ⟨bs,hbs,hfinal,-⟩ | ⟨e,-,heq⟩
  · obtain ⟨rfl,hsplit⟩ := hnames st hostname suid hst
    obtain ⟨rfl,hstep⟩ := hex.result_code (hprocess.trans heq)
    have hnode : namesOf (registeredNode st hostname suid (.v4 c.client : NetspaceAddr V6)) =
        c.names := by
      rw [namesOf, Command.names, ← hsplit, registeredNode, hproto]
    refine ⟨_,congrArg Prod.fst (hex.run_code hview),?_⟩
    rw [hex.run_code hview, hstep, directoryOf_push, hnode]
    refine .registered htype (not_taken ?_ ?_)
    · rwa [Command.names, ← hsplit]
    · rwa [Command.names, ← hsplit]
  · obtain ⟨-,hsplit⟩ := hnames st hostname suid hst
    obtain ⟨rfl,hstep⟩ := hex.result_code (hprocess.trans heq)
    refine ⟨_,congrArg Prod.fst (hex.run_code hview),?_⟩
    rw [hex.run_code hview, hstep]
    refine .taken htype ((taken_iff table _).mpr ?_)
    rw [Command.names, ← hsplit]
    rcases htaken with ⟨m,hm,hname⟩ | ⟨m,hm,hname⟩
    · exact ⟨m,hm,.inl hname⟩
    · exact ⟨m,hm,.inr hname⟩
  · -- the client registers organisations only
    obtain rfl := Except.ok.inj ((registration_frame c.memory.left hp hwf.whole).symm.trans hbs)
    change charValue _ ≤ charValue (registerOf _).type at hfinal
    rw [hregister, horg] at hfinal
    exact absurd hfinal (by decide)
  · have hbad := hex.result_eq.symm.trans (congrArg Prod.fst (hprocess.trans heq))
    contradiction

theorem serves_unregister (htype : c.type = .gsnUnregisterHost)
    (h : Returns c.env c.orig c.client c.content c.proto table c.type c.target) :
    ∃ out, (c.run table).1 = .ok out ∧
      Serves c (directoryOf table) out (directoryOf (c.run table).2) := by
  obtain ⟨dest,data,reply,hex⟩ := exchanged (.inr (.inl htype)) h
  have hview : viewReply c.type = viewFrameResponse := by rw [htype]; rfl
  have hunregister : (c.call dest data).packet.header.type = .gsnUnregisterHost := htype
  have hprocess := processPacket_unregister c.env c.memory.left hunregister (.v4 c.client) table
  rcases unregisterHost_cases c.env (.v4 c.client) table with
    ⟨before,n,after,htable,hn,hbefore,heq⟩ | ⟨hnone,heq⟩
  · obtain ⟨rfl,hstep⟩ := hex.result_code (hprocess.trans heq)
    refine ⟨_,congrArg Prod.fst (hex.run_code hview),?_⟩
    rw [hex.run_code hview, hstep, directoryOf_pop (hn ▸ hbefore), ← htable, hn]
    refine .unregistered htype (directoryOf_ne_nil.mpr ⟨n,?_,hn⟩)
    simp [htable]
  · obtain ⟨rfl,hstep⟩ := hex.result_code (hprocess.trans heq)
    refine ⟨_,congrArg Prod.fst (hex.run_code hview),?_⟩
    rw [hex.run_code hview, hstep]
    refine .notRegistered htype (not_not.mp (mt directoryOf_ne_nil.mp ?_))
    intro hsome
    obtain ⟨m,hm,haddr⟩ := hsome
    exact hnone m hm haddr

theorem serves_hostname (hinbound : Inbound table) (htype : c.type = .gsnHostname)
    (h : Returns c.env c.orig c.client c.content c.proto table c.type c.target) :
    ∃ out, (c.run table).1 = .ok out ∧
      Serves c (directoryOf table) out (directoryOf (c.run table).2) := by
  obtain ⟨dest,data,reply,hex⟩ := exchanged (.inr (.inr (.inr (.inl htype)))) h
  obtain ⟨dest',htarget⟩ : ∃ dest', c.target = .v4 dest' := by
    cases htarget : c.target with
    | v4 dest' => exact ⟨dest',rfl⟩
    | v6 a =>
      rw [htarget] at h
      exact absurd h (not_returns_ipv6 c.env c.orig c.client c.content c.proto table
        (.inr (.inr (.inr (.inl htype)))) a)
  rw [htype, htarget] at h
  obtain ⟨a,n,hnamed,hfind,hshort⟩ := (returns_hostname c.env c.orig dest' c.client c.content
    c.proto table hinbound).mp h
  have hdata := hex.payload_eq
  have hpayload : payload c.env.asio c.memory.registerArray c.type c.content c.proto =
      .ok a.data := by
    rw [htype]
    simp only [payload, hnamed, ok_bind]
    rfl
  obtain rfl := Except.ok.inj (hpayload.symm.trans hdata)
  have hasks : AsksFor (c.call dest a.data).packet a := by
    refine ⟨wirePacket_wellFormed _ _ _ _,htype,?_⟩
    rw [Command.call, wirePacket_bytes, sentText_of_lt (by rw [a.size_eq]; decide)]
    exact List.take_of_length_le a.size_eq.le
  have hnode : table.node? (table.findAddr (.v4 a)) = some n :=
    (getElem?_findIdx _ _).trans hfind
  obtain ⟨reply',hprocess,hcarries⟩ :=
    hostname_reply hnode hshort c.env c.memory.left hasks (.v4 c.client)
  obtain rfl := Except.ok.inj (hex.result_eq.symm.trans (congrArg Prod.fst hprocess))
  have hstep : (c.call dest a.data).step table = table := congrArg Prod.snd hprocess
  obtain ⟨fh,hbytes,hok,hproto,hlen,htext⟩ := hcarries.frame
  have hsent : (replyPacket reply).bytes = fh.bytes := by
    rw [replyPacket_bytes, sentContent_wellFormed hcarries.wellFormed, hbytes]
  have hframe : FrameHostname.ofBytes ((replyPacket reply).bytes.take FrameHostname.sizeOf) = fh := by
    rw [hsent, List.take_of_length_le fh.bytes_length.le, fh.ofBytes_bytes]
  have hview : viewReply c.type = viewFrameHostname := by rw [htype]; rfl
  have hshown := viewFrameHostname_eq (replyPacket_wellFormed hex.sendable) c.memory.view
    (by rw [hsent, fh.bytes_length]) hframe hok (by rw [hlen]; omega)
  rw [hlen, Int.toNat_natCast, htext, hproto] at hshown
  have hrun : c.run table = (.ok (c.output (responseLine .ok ++
      (namesOf n).line ++ endl ++ endl)),table) := by
    rw [hex.run_eq, hstep, printReply_fits c.memory hex.sendable hex.fits, hview, hshown]
    simp [Command.output, Names.line, namesOf]
  refine ⟨_,congrArg Prod.fst hrun,?_⟩
  rw [hrun]
  refine .hostname htype hnamed ?_
  rw [directoryOf_head, hnode]
  rfl

theorem serves_listing (htype : c.type = .gsnLocalArea ∨ c.type = .gsnRequest)
    (h : Returns c.env c.orig c.client c.content c.proto table c.type c.target) :
    ∃ out, (c.run table).1 = .ok out ∧
      Serves c (directoryOf table) out (directoryOf (c.run table).2) := by
  have himp : Implemented c.type := by
    rcases htype with htype | htype
    · exact .inr (.inr (.inl htype))
    · exact .inr (.inr (.inr (.inr htype)))
  obtain ⟨dest,data,reply,hex⟩ := exchanged himp h
  have hne : (c.call dest data).packet.header.type ≠ .gsnRegisterHost ∧
      (c.call dest data).packet.header.type ≠ .gsnUnregisterHost := by
    change c.type ≠ _ ∧ c.type ≠ _
    rcases htype with htype | htype <;> rw [htype] <;> decide
  have hstep : (c.call dest data).step table = table :=
    processPacket_other c.env c.memory.left hne.1 hne.2 (.v4 c.client) table
  obtain ⟨out,hout⟩ := h c.memory
  have hprint := (congrArg Prod.fst hex.run_eq).symm.trans hout
  obtain ⟨p,-,hview⟩ := bind_eq_ok.mp hprint
  obtain ⟨text,-,htext⟩ := bind_eq_ok.mp hview
  obtain rfl := Except.ok.inj htext
  refine ⟨_,hout,?_⟩
  rw [hex.run_eq, hstep]
  exact .listing htype

theorem serves_unimplemented (htype : ¬ Implemented c.type) :
    ∃ out, (c.run table).1 = .ok out ∧
      Serves c (directoryOf table) out (directoryOf (c.run table).2) := by
  have hrun : c.run table = (.ok (ascii "Unimplemented frame" ++ endl),table) := by
    simp only [Command.run, runForge, runForge_unimplemented c.env.asio c.memory.registerArray htype]
    rfl
  refine ⟨_,congrArg Prod.fst hrun,?_⟩
  rw [hrun]
  exact .unimplemented htype

theorem serves (hinbound : Inbound table)
    (h : Returns c.env c.orig c.client c.content c.proto table c.type c.target) :
    ∃ out, (c.run table).1 = .ok out ∧
      Serves c (directoryOf table) out (directoryOf (c.run table).2) := by
  by_cases himp : Implemented c.type
  · rcases himp with htype | htype | htype | htype | htype
    · exact serves_register htype h
    · exact serves_unregister htype h
    · exact serves_listing (.inl htype) h
    · exact serves_hostname hinbound htype h
    · exact serves_listing (.inr htype) h
  · exact serves_unimplemented himp

/-! ### Whole runs -/

theorem Command.run_inbound (hinbound : Inbound table)
    (h : Returns c.env c.orig c.client c.content c.proto table c.type c.target) :
    Inbound (c.run table).2 := by
  by_cases himp : Implemented c.type
  · obtain ⟨dest,data,reply,hex⟩ := exchanged himp h
    rw [hex.run_eq]
    exact hinbound.step ⟨c.client,rfl⟩
  · simp only [Command.run, runForge, runForge_unimplemented c.env.asio c.memory.registerArray himp]
    exact hinbound

theorem event_serves {e : Event V6} (hinbound : Inbound table) (h : e.Completes table) :
    ∃ out, (e.run table).1 = .ok out ∧
      EventServes e (directoryOf table) out (directoryOf (e.step table)) ∧
        Inbound (e.step table) := by
  cases e with
  | command c =>
    obtain ⟨out,hout,hserves⟩ := serves hinbound h
    exact ⟨out,hout,.command hserves,Command.run_inbound hinbound h⟩
  | packet c =>
    obtain ⟨hv4,reply,hreply⟩ := h
    have hprocess : processPacket c.env c.left c.packet c.addr table = (.ok reply,c.step table) :=
      Prod.ext hreply rfl
    have hrun : (Event.packet c).run table = (.ok [],c.step table) := by
      simp only [Event.run, bind_apply, hprocess]
      rfl
    refine ⟨[],congrArg Prod.fst hrun,?_,?_⟩
    · rw [Event.step, hrun]
      exact .packet (packet_changes c table)
    · rw [Event.step, hrun]
      exact hinbound.step hv4

theorem events_serve {events : List (Event V6)} (hinbound : Inbound table)
    (h : EachStep Event.step (fun table e => e.Completes table) table events) :
    ∃ outs, runEvents events table = (.ok outs,events.foldl Event.step table) ∧
      DirectoryRun events (directoryOf table) outs (directoryOf (events.foldl Event.step table)) ∧
        Inbound (events.foldl Event.step table) := by
  induction events generalizing table with
  | nil => exact ⟨[],rfl,.nil,hinbound⟩
  | cons e events ih =>
    obtain ⟨hfirst,hrest⟩ := eachStep_cons.mp h
    obtain ⟨out,hout,hserves,hnext⟩ := event_serves hinbound hfirst
    obtain ⟨outs,houts,hrun,hlast⟩ := ih hnext hrest
    have hevent : e.run table = (.ok out,e.step table) := Prod.ext hout rfl
    refine ⟨out :: outs,?_,.cons hserves hrun,hlast⟩
    simp only [runEvents, bind_apply, hevent, houts]
    rfl

/-- In every run of commands and other packets in which everything is answered, each command
prints what the directory says. -/
theorem clients_see_directory (events : List (Event V6))
    (h : EachStep Event.step (fun table e => e.Completes table) [] events) :
    ∃ outs, runEvents events [] = (.ok outs,events.foldl Event.step []) ∧
      DirectoryRun events (fun _ => []) outs (directoryOf (events.foldl Event.step [])) := by
  obtain ⟨outs,houts,hrun,-⟩ := events_serve reachable_nil.inbound h
  exact ⟨outs,houts,hrun⟩

end Events

/-- A client at this address, whose commands go to this address. -/
def localCommand (type : DvspMsgtype) (content : Text) : Command Empty :=
  ⟨isolated,bareMemory default unmapped,type,.v4 localhostIpv4,content,.dvsp,localhostIpv4,
    localhostIpv4⟩

/-- A registration, and a look at it. -/
def registeredAndAsked : List (Event Empty) :=
  [.command (localCommand .gsnRegisterHost (ascii "b|a")),
    .command (localCommand .gsnHostname localhostText)]

theorem registeredAndAsked_completes :
    EachStep Event.step (fun table e => e.Completes table) [] registeredAndAsked := by
  have hregister : Returns isolated localhostIpv4 localhostIpv4 (ascii "b|a") .dvsp []
      .gsnRegisterHost (.v4 localhostIpv4) :=
    (returns_register isolated localhostIpv4 localhostIpv4 localhostIpv4 (ascii "b|a") .dvsp
      []).mpr (by decide)
  have hinbound := Command.run_inbound (c := localCommand .gsnRegisterHost (ascii "b|a"))
    reachable_nil.inbound hregister
  have htable : ((localCommand .gsnRegisterHost (ascii "b|a")).run []).2 =
      [⟨.org,.v4 localhostIpv4,ascii "b",.dvsp,ascii "a"⟩] := by decide +kernel
  have hask : Returns isolated localhostIpv4 localhostIpv4 localhostText .dvsp
      ((localCommand .gsnRegisterHost (ascii "b|a")).run []).2 .gsnHostname (.v4 localhostIpv4) := by
    refine (returns_hostname isolated localhostIpv4 localhostIpv4 localhostIpv4 localhostText .dvsp _
      hinbound).mpr ⟨localhostIpv4,_,by decide +kernel,by rw [htable]; rfl,by decide⟩
  exact eachStep_cons.mpr ⟨hregister,eachStep_cons.mpr ⟨hask,eachStep_nil⟩⟩

theorem clients_see_directory_asked :
    ∃ outs, runEvents registeredAndAsked [] =
        (.ok outs,registeredAndAsked.foldl Event.step []) ∧
      DirectoryRun registeredAndAsked (fun _ => []) outs
        (directoryOf (registeredAndAsked.foldl Event.step [])) :=
  clients_see_directory _ registeredAndAsked_completes

/-! ### What others see of a registration -/

section Seen
variable {V6 : Type} [DecidableEq V6]

/-- The queue of the address may change. -/
def Event.Writes (addr : NetspaceAddr V6) : Event V6 → Prop
  | .command c => .v4 c.client = addr ∧ (c.type = .gsnRegisterHost ∨ c.type = .gsnUnregisterHost)
  | .packet c => c.addr = addr ∧
      (c.packet.header.type = .gsnRegisterHost ∨ c.packet.header.type = .gsnUnregisterHost)

omit [DecidableEq V6] in
theorem splitNames_length (text : Text) : (splitNames text).1.length ≤ text.length := by
  unfold splitNames
  split_ifs
  · exact (List.takeWhile_prefix _).length_le
  · exact le_rfl

theorem Directory.push_other {d : Directory V6} {addr other : NetspaceAddr V6} (h : other ≠ addr)
    (names : Names) : d.push other names addr = d addr := Function.update_of_ne (Ne.symm h) _ _

theorem Directory.pop_other {d : Directory V6} {addr other : NetspaceAddr V6} (h : other ≠ addr) :
    d.pop other addr = d addr := Function.update_of_ne (Ne.symm h) _ _

theorem Serves.kept {c : Command V6} {d d' : Directory V6} {out : Text} {addr : NetspaceAddr V6}
    (h : Serves c d out d') (hother : ¬ (Event.command c).Writes addr) : d' addr = d addr := by
  cases h with
  | registered htype => exact Directory.push_other (fun heq => hother ⟨heq,.inl htype⟩) _
  | unregistered htype => exact Directory.pop_other fun heq => hother ⟨heq,.inr htype⟩
  | taken | notRegistered | hostname | listing | unimplemented => rfl

theorem EventServes.kept {e : Event V6} {d d' : Directory V6} {out : Text}
    {addr : NetspaceAddr V6} (h : EventServes e d out d') (hother : ¬ e.Writes addr) :
    d' addr = d addr := by
  cases h with
  | command h => exact h.kept hother
  | packet h =>
    cases h with
    | push htype => exact Directory.push_other (fun heq => hother ⟨heq,.inl htype⟩) _
    | pop htype => exact Directory.pop_other fun heq => hother ⟨heq,.inr htype⟩
    | keep => rfl

theorem DirectoryRun.kept {events : List (Event V6)} {d d' : Directory V6} {outs : List Text}
    {addr : NetspaceAddr V6} (h : DirectoryRun events d outs d')
    (hothers : ∀ e ∈ events, ¬ e.Writes addr) : d' addr = d addr := by
  induction h with
  | nil => rfl
  | cons hserves _ ih =>
    rw [ih fun e he => hothers e (List.mem_cons_of_mem _ he),
      hserves.kept (hothers _ List.mem_cons_self)]

/-- The answer `ok` is printed for what was stored only. -/
theorem Serves.registered_of_ok {c : Command V6} {d d' : Directory V6}
    (h : Serves c d (c.output (responseLine .ok ++ endl)) d') (htype : c.type = .gsnRegisterHost) :
    d' = d.push (.v4 c.client) c.names := by
  generalize hout : c.output (responseLine .ok ++ endl) = out at h
  cases h with
  | registered => rfl
  | taken =>
    have hline := List.append_cancel_left hout
    exact absurd hline (by decide +kernel)
  | unregistered hother | notRegistered hother | hostname hother | unimplemented hother =>
    rw [htype] at hother
    exact absurd hother (by simp [Implemented, DvspMsgtype.gsnRegisterHost,
      DvspMsgtype.gsnUnregisterHost, DvspMsgtype.gsnHostname])
  | listing hother =>
    rw [htype] at hother
    exact absurd hother (by decide)

theorem Serves.named_line {c : Command V6} {d d' : Directory V6} {out : Text} {a : NetspaceIpv4}
    {names : Names} (h : Serves c d out d') (htype : c.type = .gsnHostname)
    (hnamed : NetspaceAddr.fromString c.env.asio c.content = .ok (.v4 a))
    (hhead : (d (.v4 a)).head? = some names) :
    out = c.output (responseLine .ok ++ names.line ++ endl ++ endl) := by
  cases h with
  | hostname _ hnamed' hhead' =>
    obtain rfl := NetspaceAddr.v4.inj (Except.ok.inj (hnamed.symm.trans hnamed'))
    rw [Option.some.inj (hhead.symm.trans hhead')]
  | registered hother | taken hother | unregistered hother | notRegistered hother | listing hother
  | unimplemented hother =>
    rw [htype] at hother
    exact absurd hother (by simp [Implemented, DvspMsgtype.gsnRegisterHost,
      DvspMsgtype.gsnUnregisterHost, DvspMsgtype.gsnHostname, DvspMsgtype.gsnLocalArea,
      DvspMsgtype.gsnRequest])

theorem registered_short {c : Command V6} {table : NetspaceTable V6}
    (htype : c.type = .gsnRegisterHost)
    (h : Returns c.env c.orig c.client c.content c.proto table c.type c.target) :
    c.names.hostname.length ≤ 125 := by
  obtain ⟨dest,data,reply,hex⟩ := exchanged (.inl htype) h
  obtain ⟨frame,-,-,-,-,htext⟩ := registered_names hex htype
  have hlen : c.content.length ≤ 125 := by
    rw [← htext, FrameRegister.text, List.length_take, frame.hostname.size_eq]
    exact min_le_right _ _
  exact (splitNames_length c.content).trans hlen

/-- A command that asks for an address in the directory comes back. -/
theorem named_returns {ask : Command V6} {table : NetspaceTable V6} (hinbound : Inbound table)
    {a dest : NetspaceIpv4} (htype : ask.type = .gsnHostname) (hdest : ask.target = .v4 dest)
    (hnamed : NetspaceAddr.fromString ask.env.asio ask.content = .ok (.v4 a)) {names : Names}
    (hhead : (directoryOf table (.v4 a)).head? = some names) (hshort : names.hostname.length ≤ 125) :
    Returns ask.env ask.orig ask.client ask.content ask.proto table ask.type ask.target := by
  rw [directoryOf_head] at hhead
  obtain ⟨n,hn,rfl⟩ := Option.map_eq_some_iff.mp hhead
  rw [htype, hdest]
  exact (returns_hostname _ _ _ _ _ _ _ hinbound).mpr
    ⟨a,n,hnamed,(getElem?_findIdx _ _).symm.trans hn,hshort⟩

/-- A client whose first registration was answered with `ok` is found by everyone, under the
names that it gave, until it changes its registration. -/
theorem registration_printed {before between : List (Event V6)} {reg ask : Command V6}
    {dest : NetspaceIpv4}
    (h : EachStep Event.step (fun table e => e.Completes table) []
      (before ++ .command reg :: between))
    (hreg : reg.type = .gsnRegisterHost) (hfirst : ∀ e ∈ before, ¬ e.Writes (.v4 reg.client))
    (hok : (reg.run (before.foldl Event.step [])).1 = .ok (reg.output (responseLine .ok ++ endl)))
    (hothers : ∀ e ∈ between, ¬ e.Writes (.v4 reg.client))
    (hask : ask.type = .gsnHostname) (hdest : ask.target = .v4 dest)
    (hnamed : NetspaceAddr.fromString ask.env.asio ask.content = .ok (.v4 reg.client)) :
    (ask.run ((before ++ .command reg :: between).foldl Event.step [])).1 =
      .ok (ask.output (responseLine .ok ++ reg.names.line ++ endl ++ endl)) := by
  obtain ⟨hbefore,hrest⟩ := eachStep_append.mp h
  obtain ⟨hreturns,hbetween⟩ := eachStep_cons.mp hrest
  obtain ⟨outs,-,hrun,hinbound⟩ := events_serve reachable_nil.inbound hbefore
  have hnone : directoryOf (before.foldl Event.step []) (.v4 reg.client) = [] := hrun.kept hfirst
  -- the registration is stored
  obtain ⟨out,hout,hserves⟩ := serves hinbound hreturns
  obtain rfl := Except.ok.inj (hout.symm.trans hok)
  have hstored := hserves.registered_of_ok hreg
  have hnext := Command.run_inbound hinbound hreturns
  -- and stays
  obtain ⟨outs',-,hrun',hlast⟩ := events_serve hnext hbetween
  have hkept : directoryOf (between.foldl Event.step (reg.run (before.foldl Event.step [])).2)
      (.v4 reg.client) = [reg.names] := by
    refine (hrun'.kept hothers).trans ?_
    rw [hstored, Directory.push, Function.update_self, hnone, List.nil_append]
  have htable : (before ++ .command reg :: between).foldl Event.step [] =
      between.foldl Event.step (reg.run (before.foldl Event.step [])).2 := by
    rw [List.foldl_append]
    rfl
  rw [htable]
  -- so that it is found
  have hhead : (directoryOf (between.foldl Event.step (reg.run (before.foldl Event.step [])).2)
      (.v4 reg.client)).head? = some reg.names := by
    rw [hkept]
    rfl
  obtain ⟨text,htext,hprints⟩ := serves hlast
    (named_returns hlast hask hdest hnamed hhead (registered_short hreg hreturns))
  have hline := hprints.named_line hask hnamed hhead
  rw [hline] at htext
  exact htext

end Seen

theorem registration_printed_between :
    ((localCommand .gsnHostname localhostText).run
        (([] ++ Event.command (localCommand .gsnRegisterHost (ascii "b|a")) ::
          [.command (localCommand .gsnHostname localhostText)]).foldl Event.step [])).1 =
      .ok ((localCommand .gsnHostname localhostText).output (responseLine .ok ++
        (localCommand .gsnRegisterHost (ascii "b|a")).names.line ++ endl ++ endl)) :=
  registration_printed registeredAndAsked_completes rfl (by simp) (by decide +kernel)
    (by simp [Event.Writes, localCommand, DvspMsgtype.gsnHostname, DvspMsgtype.gsnRegisterHost,
      DvspMsgtype.gsnUnregisterHost]) rfl rfl (by decide +kernel)

end Forge
end GsnNode
