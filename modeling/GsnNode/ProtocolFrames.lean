import GsnNode.DvspPacket
import GsnNode.NetspaceNode

/-! The frames that packets carry, and the request that wraps a packet for HTTP. -/

set_option autoImplicit false

namespace GsnNode
open ByteWords MemoryRegion DecimalText

structure DvspRcode where
  raw : UInt32
  deriving DecidableEq, Repr

namespace DvspRcode
def netspaceError : DvspRcode := ⟨101⟩
def networkError : DvspRcode := ⟨102⟩
def malformedContent : DvspRcode := ⟨103⟩
def netspaceDuplicate : DvspRcode := ⟨104⟩
def ok : DvspRcode := ⟨200⟩
def fakeUdp : DvspRcode := ⟨505⟩

def bytes (code : DvspRcode) : List UInt8 := leBytes 4 code.raw.toNat

def ofBytes (bs : List UInt8) : DvspRcode := ⟨UInt32.ofNat (leValue (bs.take 4))⟩
end DvspRcode

structure FrameRegister where
  type : UInt8
  len : UInt8
  protocol : UInt8
  hostname : Block 125
  deriving DecidableEq

namespace FrameRegister

def sizeOf : Nat := 128

def ofBytes (bs : List UInt8) : FrameRegister where
  type := bs.getD 0 0
  len := bs.getD 1 0
  protocol := bs.getD 2 0
  hostname := Block.ofList 125 (bs.drop 3)

def bytes (f : FrameRegister) : List UInt8 := f.type :: f.len :: f.protocol :: f.hostname.data

end FrameRegister

/-- The array is not initialised before the hostname is copied into it. A hostname
that is longer than the array is an overrun. -/
def constructFrameRegister (uninit : Block 125) (type : NetnodeType) (hostname : Text)
    (proto : ServiceProtocol) : Call FrameRegister :=
  if hostname.length ≤ 125 then
    pure ⟨type.raw,UInt8.ofNat hostname.length,proto.raw,
      Block.ofList 125 (hostname ++ uninit.data.drop hostname.length)⟩
  else undefined

structure FrameResponseCode where
  response : DvspRcode
  deriving DecidableEq

namespace FrameResponseCode

def sizeOf : Nat := 4

def ofBytes (bs : List UInt8) : FrameResponseCode := ⟨.ofBytes bs⟩

def bytes (f : FrameResponseCode) : List UInt8 := f.response.bytes

end FrameResponseCode

def constructFrameResponseCode (code : DvspRcode) : FrameResponseCode := ⟨code⟩

structure FrameHostname where
  response : DvspRcode
  protocol : ServiceProtocol
  len : UInt8
  hostname : Block 125
  deriving DecidableEq

namespace FrameHostname

def sizeOf : Nat := 131

def ofBytes (bs : List UInt8) : FrameHostname where
  response := .ofBytes bs
  protocol := ⟨bs.getD 4 0⟩
  len := bs.getD 5 0
  hostname := Block.ofList 125 (bs.drop 6)

def bytes (f : FrameHostname) : List UInt8 :=
  f.response.bytes ++ f.protocol.raw :: f.len :: f.hostname.data

end FrameHostname

/-- The array is not initialised before `len` bytes are copied into it. A `len`
that is negative or longer than the array is an overrun. -/
def constructFrameHostname (uninit : Block 125) (hostname : Text) (proto : ServiceProtocol) :
    Call FrameHostname :=
  let len := UInt8.ofNat hostname.length
  if 0 ≤ charValue len ∧ charValue len ≤ 125 then
    let copied := hostname.take len.toNat
    pure ⟨.ok,proto,len,Block.ofList 125 (copied ++ uninit.data.drop copied.length)⟩
  else undefined

structure FrameAddress where
  response : DvspRcode
  protocol : ServiceProtocol
  addr : NetspaceIpv4
  deriving DecidableEq

def FrameAddress.bytes (f : FrameAddress) : List UInt8 :=
  f.response.bytes ++ f.protocol.raw :: f.addr.data

def constructFrameAddress {V6 : Type} (addr : NetspaceAddr V6) (proto : ServiceProtocol) :
    Call FrameAddress := do
  let a ← addr.toV4
  pure ⟨.ok,proto,a⟩

structure FrameNetwork where
  response : DvspRcode
  total : UInt8
  size : UInt16
  deriving DecidableEq

namespace FrameNetwork

def sizeOf : Nat := 7

def ofBytes (bs : List UInt8) : FrameNetwork where
  response := .ofBytes bs
  total := bs.getD 4 0
  size := UInt16.ofNat (leValue ((bs.drop 5).take 2))

end FrameNetwork

structure FrameService where
  response : DvspRcode
  len : UInt8
  deriving DecidableEq

namespace FrameService

def sizeOf : Nat := 5

def ofBytes (bs : List UInt8) : FrameService := ⟨.ofBytes bs,bs.getD 4 0⟩

end FrameService

structure HttpFrame where
  dvspFrame : DvspPacket
  hostname : Text
  header : Text
  address : NetspaceIpv4
  deriving DecidableEq

namespace HttpFrame

def crlf : Text := [13,10]

def generateHeader (dvspFrame : DvspPacket) (hostname : Text) : Text :=
  ascii "POST /spring/spring_hook.php HTTP/1.1" ++ crlf ++
  ascii "Host: " ++ hostname ++ crlf ++
  ascii "User-Agent: SpringDVS" ++ crlf ++
  ascii "Content-Type: application/octet-stream" ++ crlf ++
  ascii "Content-Length: " ++ decimal (DvspHeader.sizeOf + dvspFrame.header.size.toNat) ++ crlf ++ crlf

/-- `http_frame(frame, hostname)`. The packet is copied into the parameter and
from there into the member. -/
def ofPacket (beyond : Beyond) (packet : DvspPacket) (hostname : Text) : Call HttpFrame := do
  let frame ← packet.copy beyond
  let dvspFrame ← frame.copy beyond
  pure ⟨dvspFrame,hostname,generateHeader dvspFrame hostname,frame.header.addrDest⟩

def size (f : HttpFrame) : Nat := f.header.length + f.dvspFrame.size

def serialise (f : HttpFrame) (beyond : Beyond) : Call (List UInt8) := do
  let serial ← f.dvspFrame.serialise beyond
  pure (f.header ++ serial.take f.dvspFrame.size)

end HttpFrame

/-! ### Frames inside their packets -/

@[simp] theorem DvspRcode.bytes_length (code : DvspRcode) : code.bytes.length = 4 :=
  leBytes_length 4 _

theorem DvspRcode.ofBytes_eq_iff (code : DvspRcode) {bs : List UInt8} (h : 4 ≤ bs.length) :
    DvspRcode.ofBytes bs = code ↔ code.bytes <+: bs := by
  have hfour : (bs.take 4).length = 4 := by rw [List.length_take]; omega
  constructor
  · rintro rfl
    have hbytes := leBytes_leValue (bs.take 4)
    rw [hfour] at hbytes
    rw [DvspRcode.bytes, DvspRcode.ofBytes, uint32_toNat_leValue hfour, hbytes]
    exact List.take_prefix 4 bs
  · rintro ⟨rest,rfl⟩
    have htake : (code.bytes ++ rest).take 4 = code.bytes := List.take_left' code.bytes_length
    rw [DvspRcode.ofBytes, htake, DvspRcode.bytes, uint32_leValue_leBytes]

theorem FrameResponseCode.bytes_ne_nil (f : FrameResponseCode) : f.bytes ≠ [] := by
  intro h
  simpa [FrameResponseCode.bytes] using congrArg List.length h

theorem FrameHostname.bytes_ne_nil (f : FrameHostname) : f.bytes ≠ [] := by
  simp [FrameHostname.bytes]

theorem FrameAddress.bytes_ne_nil (f : FrameAddress) : f.bytes ≠ [] := by
  simp [FrameAddress.bytes]

theorem constructFrameHostname_ok {uninit : Block 125} {hostname : Text} {proto : ServiceProtocol}
    (h : hostname.length ≤ 125) :
    constructFrameHostname uninit hostname proto =
      .ok ⟨.ok,proto,UInt8.ofNat hostname.length,
        Block.ofList 125 (hostname ++ uninit.data.drop hostname.length)⟩ := by
  have hlen : (UInt8.ofNat hostname.length).toNat = hostname.length := by
    rw [UInt8.toNat_ofNat']
    omega
  have hchar := charValue_ofNat (n := hostname.length) (by omega)
  rw [constructFrameHostname]
  simp only [hchar, hlen, List.take_length]
  rw [if_pos (by omega)]
  rfl

theorem constructFrameHostname_overrun (uninit : Block 125) {hostname : Text}
    (proto : ServiceProtocol) (h : 125 < hostname.length) (h' : hostname.length < 128) :
    constructFrameHostname uninit hostname proto = undefined := by
  have hchar := charValue_ofNat h'
  rw [constructFrameHostname]
  simp only [hchar]
  rw [if_neg (by omega)]

end GsnNode
