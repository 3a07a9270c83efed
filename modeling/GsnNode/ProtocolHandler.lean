import GsnNode.MetaspaceGsn
import GsnNode.NetspaceUrl
import GsnNode.NodeListing
import GsnNode.ProtocolFrames

/-! `protocol_handler`. A handler may change the table before it returns or throws,
so it runs in a state monad under the exceptions. -/

set_option autoImplicit false

namespace GsnNode
open ByteWords MemoryRegion

/-- A packet as `send_frame` returns it. -/
abbrev ReceivedPacket := { p : DvspPacket // p.WellFormed }

/-- What surrounds the handler: the address library, the database and the hosts.
A host is contacted at most once in a call, so its answer is given by the position
of its node, the frame and the address; none stands for an exception. -/
structure Surroundings (V6 : Type) where
  asio : Ipv6Text V6
  metaspace : MetaspaceDb
  sendFrame : Nat → HttpFrame → NetspaceIpv4 → Option ReceivedPacket

/-- The memory that a call may read although nothing was written there for it. -/
structure Leftover where
  afterContent : Beyond
  /-- behind the copy of the `frame_register` -/
  afterRegister : Beyond
  /-- behind the content of the reply of a host -/
  afterReply : Nat → Beyond
  /-- the `frame_hostname` before it is filled -/
  hostnameArray : Block 125

abbrev Handler (V6 : Type) := ExceptT Stop (StateM (NetspaceTable V6))

namespace Handler
variable {V6 α β : Type}

def call (r : Call α) : Handler V6 α := fun table => (r,table)

def reading (f : NetspaceTable V6 → Call α) : Handler V6 α := fun table => (f table,table)

theorem bind_apply (x : Handler V6 α) (f : α → Handler V6 β) (table : NetspaceTable V6) :
    (x >>= f) table =
      match x table with
      | (.ok a,table') => f a table'
      | (.error e,table') => (.error e,table') := by
  show ((match x table with
    | (r,table') => ExceptT.bindCont f r table') : Call β × NetspaceTable V6) = _
  obtain ⟨r,table'⟩ := x table
  cases r <;> rfl

@[simp] theorem call_apply (r : Call α) (table : NetspaceTable V6) :
    (call r : Handler V6 α) table = (r,table) := rfl

theorem bind_ok_iff {x : Handler V6 α} {f : α → Handler V6 β} {b : β}
    {table table' : NetspaceTable V6} :
    (x >>= f) table = (.ok b,table') ↔
      ∃ a next, x table = (.ok a,next) ∧ f a next = (.ok b,table') := by
  rw [bind_apply]
  obtain ⟨r,mid⟩ := x table
  cases r with
  | error e =>
    constructor
    · intro h
      cases h
    · rintro ⟨a,next,hx,-⟩
      cases hx
  | ok a =>
    constructor
    · intro h
      exact ⟨a,mid,rfl,h⟩
    · rintro ⟨a',next,hx,hf⟩
      cases hx
      exact hf

@[simp] theorem reading_apply (f : NetspaceTable V6 → Call α) (table : NetspaceTable V6) :
    reading f table = (f table,table) := rfl

@[simp] theorem get_apply (table : NetspaceTable V6) :
    (get : Handler V6 (NetspaceTable V6)) table = (.ok table,table) := rfl

@[simp] theorem modify_apply (f : NetspaceTable V6 → NetspaceTable V6) (table : NetspaceTable V6) :
    (modify f : Handler V6 PUnit) table = (.ok ⟨⟩,f table) := rfl

end Handler

namespace ProtocolHandler
open Handler
variable {V6 : Type} [DecidableEq V6] (env : Surroundings V6) (left : Leftover)

def response (code : DvspRcode) : Call DvspPacket :=
  DvspPacket.copyContent { DvspPacket.init with header.type := .gsnResponse }
    (constructFrameResponseCode code).bytes

def npos : Nat := 2 ^ 64 - 1

def find (s : Text) (c : UInt8) : Nat :=
  let i := s.findIdx (· = c)
  if i = s.length then npos else i

/-- `tmp.assign(st.hostname.data(), st.len)` -/
def frameText (st : FrameRegister) : Call Text :=
  let len := sizeOfInt (charValue st.len)
  assign len (load ⟨st.hostname.data,left.afterRegister⟩ 0 len)

/-- The hostname and the suid of a registration. Without a separator `i++` wraps
to 0, and both are the whole text. -/
def frameNames (st : FrameRegister) : Call (Text × Text) := do
  let tmp ← frameText left st
  let i := find tmp bar
  let hostname ← substr tmp 0 i
  let suid ← substr tmp ((i + 1) % 2 ^ 64) npos
  pure (hostname,suid)

def registerHost (packet : DvspPacket) (addr : NetspaceAddr V6) : Handler V6 DvspPacket := do
  let bs ← call (packet.contentAs left.afterContent 0 FrameRegister.sizeOf)
  let st := FrameRegister.ofBytes bs
  if charValue NetnodeType.final.raw ≤ charValue st.type then call (response .malformedContent)
  else do
    let names ← call (frameNames left st)
    let table ← get
    if table.findHost names.1 ≠ table.length then call (response .netspaceDuplicate)
    else if table.findSuid names.2 ≠ table.length then call (response .netspaceDuplicate)
    else do
      let n ← call (NetspaceNode.ofHost env.asio ⟨st.type⟩ names.1 (addr.toString env.asio)
        ⟨st.protocol⟩)
      modify fun table => table.addNode { n with suid := names.2 }
      call (response .ok)

def unregisterHost (addr : NetspaceAddr V6) : Handler V6 DvspPacket := do
  let table ← get
  let it ← call (table.findAddrText env.asio (addr.toString env.asio))
  if it = table.length then call (response .netspaceError)
  else do
    modify fun table => table.eraseNode it
    call (response .ok)

def addressReply (packet : DvspPacket) (node : NetspaceNode V6) : Call DvspPacket := do
  let p := { DvspPacket.init with header := { packet.header with type := .gsnResponse } }
  let frame ← constructFrameAddress node.addr node.proto
  p.copyContent frame.bytes

def forwardRequest (packet : DvspPacket) (url : NetspaceUrl) (node : NetspaceNode V6) :
    Call DvspPacket := do
  let p := { DvspPacket.init with header := packet.header }
  let text ← url.toString
  let p ← p.strContent text.1
  let a ← node.addr.toV4
  pure { p with header.addrDest := a }

def resolveGsn (packet : DvspPacket) (table : NetspaceTable V6) : Call DvspPacket := do
  let text ← packet.toString left.afterContent 0
  let url ← NetspaceUrl.decode text
  let url := { url with gsn := url.gsn.dropLast }
  if url.gsn.length = 0 ∧ url.glq ≠ [] then do
    let host ← MetaspaceGsn.resolveGsn env.metaspace url.glq
    match table.node? (table.findHost host) with
    | none => response .netspaceError
    | some node => addressReply packet node
  else
    match url.gsn.getLast? with
    -- `back()` of an empty vector
    | none => undefined
    | some host =>
      match table.node? (table.findHost host) with
      | none => response .netspaceError
      | some node =>
        if url.gsn.length = 1 then addressReply packet node else forwardRequest packet url node

def nodesOf (type : NetnodeType) (table : NetspaceTable V6) : List (NetspaceNode V6) :=
  table.filter fun n => n.type = type

def listingReply (packet : DvspPacket) (nodes : List (NetspaceNode V6)) : Call DvspPacket :=
  let p := { DvspPacket.init with header := { packet.header with type := .gsnResponse } }
  p.strContent (constructFrameNetwork env.asio nodes)

def localGsn (packet : DvspPacket) (table : NetspaceTable V6) : Call DvspPacket :=
  listingReply env packet (nodesOf .org table)

def rootNodes (packet : DvspPacket) (table : NetspaceTable V6) : Call DvspPacket :=
  listingReply env packet (nodesOf .root table)

def hostname (packet : DvspPacket) (table : NetspaceTable V6) : Call DvspPacket := do
  let bs ← packet.contentAs left.afterContent 0 4
  match table.node? (table.findAddr (.v4 (Block.ofList 4 bs))) with
  | none => response .netspaceError
  | some node => do
    let fh ← constructFrameHostname left.hostnameArray node.hostname node.proto
    DvspPacket.copyContent { DvspPacket.init with header.type := .gsnResponse } fh.bytes

/-- An exception that leaves the scope of a packet destroys the packet. -/
def unwinding {α : Type} (packet : DvspPacket) (r : Call α) : Call α :=
  match r with
  | .error (.throws e) => do
    packet.destroy
    throws e
  | r => r

def sendFrame (it : Nat) (frame : HttpFrame) (address : NetspaceIpv4) : Call DvspPacket :=
  match env.sendFrame it frame address with
  | some recv => pure recv.val
  | none => throws .sendFailed

def replyText (it : Nat) (recv : DvspPacket) : Call (Option Text) :=
  if recv.header.type = .gsnResponse then do
    let bs ← recv.contentAs (left.afterReply it) 0 FrameService.sizeOf
    if (FrameService.ofBytes bs).response = .ok then do
      let str ← recv.toString (left.afterReply it) FrameService.sizeOf
      pure (some str)
    else pure none
  else pure none

def contact (it : Nat) (frame : HttpFrame) (address : NetspaceIpv4) : Call (Option Text) := do
  let recv ← sendFrame env it frame address
  replyText left it recv

def queryOne (orig : DvspPacket) (suid query : Text) (table : NetspaceTable V6) : Call Text := do
  let packet ← orig.copy left.afterContent
  let it := table.findSuid suid
  match table.node? it with
  | none => do
    packet.destroy
    pure []
  | some node => do
    let packet ← packet.strContent query
    let str ← unwinding packet do
      -- the frame is made before the destination is set
      let frame ← HttpFrame.ofPacket left.afterContent packet node.hostname
      let dest ← node.addr.toV4
      contact env left it frame dest
    packet.destroy
    pure (str.getD [])

structure QueryState where
  packet : DvspPacket
  ss : Text
  first : Bool

def QueryState.addReply (s : QueryState) (packet : DvspPacket) : Option Text → QueryState
  | some str => ⟨packet,(if s.first then s.ss else s.ss ++ ascii "::") ++ str,false⟩
  | none => ⟨packet,s.ss,s.first⟩

def queryStep (query : Text) (s : QueryState) (node : NetspaceNode V6) (it : Nat) :
    Call QueryState := do
  let packet ← s.packet.strContent query
  unwinding packet do
    let dest ← node.addr.toV4
    let packet := { packet with header.addrDest := dest }
    -- written to a file
    let _ ← packet.serialise left.afterContent
    if node.proto = .http then do
      let frame ← HttpFrame.ofPacket left.afterContent packet node.hostname
      let str ← contact env left it frame dest
      pure (s.addReply packet str)
    else pure (s.addReply packet none)

def queryLoop (query : Text) (nodes : NetspaceTable V6) (k : Nat) (s : QueryState) :
    Call QueryState :=
  (nodes.zipIdx k).foldlM (fun s p => queryStep env left query s p.1 p.2) s

def queryAll (orig : DvspPacket) (query : Text) (table : NetspaceTable V6) : Call Text := do
  let packet ← orig.copy left.afterContent
  let s ← queryLoop env left query table 0 ⟨packet,[],true⟩
  s.packet.destroy
  pure s.ss

def askHosts (packet : DvspPacket) (front query : Text) (table : NetspaceTable V6) : Call Text :=
  if front = ascii "esusx" then queryAll env left packet query table
  else queryOne env left packet front query table

def query (packet : DvspPacket) (table : NetspaceTable V6) : Call DvspPacket := do
  let copy ← packet.copy left.afterContent
  unwinding copy do
    let text ← packet.toString left.afterContent 0
    let url ← NetspaceUrl.decode text
    match url.gsn.head? with
    -- `front()` of an empty vector
    | none => undefined
    | some front => do
      let ss ← askHosts env left packet front url.spq table
      let out ← DvspPacket.strContent { DvspPacket.init with header.type := .gsnResponse } ss
      -- written to a file
      let _ ← out.serialise left.afterContent
      copy.destroy
      pure out

def processPacket (packet : DvspPacket) (addr : NetspaceAddr V6) : Handler V6 DvspPacket :=
  if packet.header.type = .gsnRegisterHost then registerHost env left packet addr
  else if packet.header.type = .gsnUnregisterHost then unregisterHost env addr
  else if packet.header.type = .gsnResolution then reading (resolveGsn env left packet)
  else if packet.header.type = .gsnLocalArea then reading (localGsn env packet)
  else if packet.header.type = .gtnRootNodes then reading (rootNodes env packet)
  else if packet.header.type = .gsnHostname then reading (hostname left packet)
  else if packet.header.type = .gsnRequest then reading (query env left packet)
  else call (response .malformedContent)

end ProtocolHandler
end GsnNode
