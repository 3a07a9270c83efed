import GsnNode.DatagramReceive
import GsnNode.HashText

/-! `http_session::read` and `http_service::send_frame`: a packet comes as hex digits
in the body of a message. The number of bytes that came is not looked at, and the
buffer behind them was never written. -/

set_option autoImplicit false

namespace GsnNode
open ByteWords MemoryRegion DelimitedText ProtocolHandler Handler

/-- `sizeof(m_data)` -/
def sessionSize : Nat := 2048

/-- What is behind the pairs of digits and behind the bytes that they make. -/
structure HexMemory where
  behindPair : Nat → Beyond
  afterBytes : Beyond

/-- NULs wherever nothing was written. -/
def zeroMemory : HexMemory := ⟨fun _ _ => some nul,fun _ => some nul⟩

/-- What is written to the file. -/
def dumpFrames (bytes : Region) : Call (List UInt8) := do
  let header ← load bytes 0 DvspHeader.sizeOf
  load bytes 0 (DvspHeader.sizeOf + (DvspHeader.ofBytes header).size.toNat)

def requestPacket (memory : HexMemory) (mData : Region) : Call DvspPacket := do
  let bytes ← httpToBin memory.behindPair mData
  let _ ← dumpFrames ⟨bytes,memory.afterBytes⟩
  DvspPacket.deserialise ⟨bytes,memory.afterBytes⟩

section Respond
variable {V6 : Type} [DecidableEq V6] (env : Surroundings V6) (left : Leftover)

/-- The bytes of the answer to a packet, on either transport. -/
def answer (packet : DvspPacket) (addr : NetspaceAddr V6) : Handler V6 (List UInt8) := do
  let out ← processPacket env left packet addr
  call (out.serialise left.afterContent)

/-- The handler in `http_session::read`. -/
def respond (memory : HexMemory) (mData : Region) (addr : NetspaceAddr V6) :
    Handler V6 (List UInt8) := do
  let packet ← call (requestPacket memory mData)
  answer env left packet addr

theorem receive_eq (mRecv : Region) (sender : NetspaceAddr V6) :
    receive env left mRecv sender = (do
      let packet ← call (DvspPacket.deserialise mRecv)
      answer env left packet sender) := rfl

end Respond

/-! ### Messages that hold a whole packet -/

theorem httpToBin_text {behind : Nat → Beyond} {message : Region} {text : Text}
    (h : message.HoldsText text) (hmax : text.length ≤ maxStringSize) :
    httpToBin behind message = httpToBin behind ⟨text ++ [nul],fun _ => none⟩ := by
  have hshort : text.length < addressSpace := by
    unfold addressSpace
    unfold maxStringSize at hmax
    omega
  have hload : load message 0 text.length = .ok text := load_eq_ok.mpr h.read
  rw [httpToBin_eq h.free hmax, httpToBin, strlen_text h hshort, ok_bind, hload, assign,
    if_neg (Nat.not_lt.mpr hmax), ok_bind]

theorem deserialise_bytes {b : List UInt8} (hb : WholePacket b) (beyond : Beyond) :
    DvspPacket.deserialise ⟨b,beyond⟩ = .ok (datagramPacket b) := by
  have hwhole := deserialise_whole hb [] beyond
  rwa [received, List.drop_nil, List.append_nil] at hwhole

theorem dumpFrames_whole {b : List UInt8} (hb : WholePacket b) (beyond : Beyond) :
    ∃ out, dumpFrames ⟨b,beyond⟩ = .ok out := by
  obtain ⟨hheader,hcontent⟩ := hb
  have hload := @load_inside ⟨b,beyond⟩ 0 DvspHeader.sizeOf (by simpa using hheader)
  rw [List.drop_zero] at hload
  exact ⟨_,by rw [dumpFrames, hload, ok_bind, load_inside _ (by simp only; omega)]⟩

theorem requestPacket_whole {memory : HexMemory} {mData : Region} {b : List UInt8}
    (h : httpToBin memory.behindPair mData = .ok b) (hb : WholePacket b) :
    requestPacket memory mData = .ok (datagramPacket b) := by
  obtain ⟨out,hout⟩ := dumpFrames_whole hb memory.afterBytes
  simp only [requestPacket, h, ok_bind, hout, deserialise_bytes hb]

/-- The digits of `b` behind a blank line, up to a NUL. -/
def hexChunk (head body rest : Text) : Text := head ++ blankLine ++ body ++ nul :: rest

theorem hexChunk_holdsText {head body : Text} {b : List UInt8} (hnul : nul ∉ head)
    (h : HexText body b) (rest : Text) (old : List UInt8) (beyond : Beyond) :
    (received (hexChunk head body rest) old beyond).HoldsText (head ++ blankLine ++ body) := by
  rw [received, hexChunk, List.append_assoc _ (nul :: rest), List.cons_append]
  exact Region.holdsText_inside (not_mem_request hnul h) _ _

theorem httpToBin_hexChunk {behind : Nat → Beyond} {head body : Text} {b : List UInt8}
    (hnul : nul ∉ head) (hblank : ¬ blankLine <:+: head) (hend : ¬ HttpFrame.crlf <:+ head)
    (h : HexText body b) {rest : Text} (hlen : (hexChunk head body rest).length ≤ 2 ^ 31)
    (hkeeps : ∀ i (hi : i < b.length), KeepsByte (behind i) b[i]) (old : List UInt8)
    (beyond : Beyond) :
    httpToBin behind (received (hexChunk head body rest) old beyond) = .ok b := by
  have hbody := h.length
  have hmax : (head ++ blankLine ++ body).length ≤ maxStringSize := by
    rw [hexChunk, List.length_append] at hlen
    unfold maxStringSize
    omega
  rw [httpToBin_text (hexChunk_holdsText hnul h rest old beyond) hmax]
  refine (httpToBin_hex hnul hblank h hmax).mpr ⟨hend,?_,hkeeps⟩
  rw [hexChunk, List.length_append, List.length_append, List.length_cons] at hlen
  omega

/-- The two transports are one protocol: the same reply, and the same change of the table. -/
theorem request_answered_as_datagram {V6 : Type} [DecidableEq V6] (env : Surroundings V6)
    (left : Leftover) {b : List UInt8} (hb : WholePacket b) {head body rest : Text}
    (hnul : nul ∉ head) (hblank : ¬ blankLine <:+: head) (hend : ¬ HttpFrame.crlf <:+ head)
    (h : HexText body b) (hlen : (hexChunk head body rest).length ≤ sessionSize)
    {memory : HexMemory} (hkeeps : ∀ i (hi : i < b.length), KeepsByte (memory.behindPair i) b[i])
    (mData mRecv : List UInt8) (beyond beyond' : Beyond) :
    respond env left memory (received (hexChunk head body rest) mData beyond) =
      receive env left (received b mRecv beyond') := by
  have hbytes := httpToBin_hexChunk hnul hblank hend h (hlen.trans (by decide)) hkeeps mData beyond
  funext addr
  rw [respond, receive_eq, requestPacket_whole hbytes hb, deserialise_whole hb]

theorem request_answered_as_datagram_local_area :
    respond isolated unmapped zeroMemory (received (hexChunk (ascii "POST / HTTP/1.1")
        (({ DvspHeader.init with type := .gsnLocalArea }.bytes).flatMap hexField) [])
        [] fun _ => none) =
      receive isolated unmapped (received { DvspHeader.init with type := .gsnLocalArea }.bytes
        [] fun _ => none) :=
  request_answered_as_datagram isolated unmapped ⟨by decide +kernel,by decide +kernel⟩
    (by decide +kernel) (by decide +kernel) (by decide +kernel) (hexField_hexText _)
    (by decide +kernel) (fun _ _ => keepsByte_nul_behind _) _ _ _ _

/-! ### Messages without a NUL -/

/-- The memory behind the characters that came goes on with `x`, and then with NULs. -/
def continued (chunk x : Text) : Region :=
  received chunk ((List.range sessionSize).map fun i => x.getD (i - chunk.length) nul)
    fun i => some (x.getD (sessionSize - chunk.length + i) nul)

theorem continued_byteAt {chunk : Text} (x : Text) (hlen : chunk.length ≤ sessionSize) (i : Nat) :
    (continued chunk x).byteAt i =
      if h : i < chunk.length then some chunk[i] else some (x.getD (i - chunk.length) nul) := by
  have hbytes : (continued chunk x).bytes.length = sessionSize := by
    simp only [continued, received, List.length_append, List.length_drop, List.length_map,
      List.length_range]
    omega
  rw [Region.byteAt, hbytes]
  simp only [continued, received]
  by_cases hi : i < chunk.length
  · rw [if_pos (by omega), dif_pos hi, List.getElem?_append_left hi, List.getElem?_eq_getElem hi]
  rw [dif_neg hi]
  by_cases hin : i < sessionSize
  · rw [if_pos hin, List.getElem?_append_right (by omega), List.getElem?_drop,
      Nat.add_sub_cancel' (by omega), List.getElem?_map, List.getElem?_range hin]
    rfl
  · rw [if_neg hin, show sessionSize - chunk.length + (i - sessionSize) = i - chunk.length by omega]

theorem continued_holdsText {chunk x : Text} (hlen : chunk.length ≤ sessionSize)
    (hchunk : nul ∉ chunk) (hx : nul ∉ x) : (continued chunk x).HoldsText (chunk ++ x) := by
  refine ⟨?_,fun i hi => ?_,?_⟩
  · rw [List.mem_append]
    exact fun h => h.elim hchunk hx
  · rw [continued_byteAt x hlen]
    by_cases hin : i < chunk.length
    · rw [dif_pos hin, List.getElem_append_left hin]
    · rw [List.length_append] at hi
      rw [dif_neg hin, List.getElem_append_right (by omega), List.getD_eq_getElem x nul (by omega)]
  · rw [continued_byteAt x hlen, List.length_append, dif_neg (by omega),
      List.getD_eq_default x nul (by omega)]
    rfl

theorem BodyAt.append {text head body : Text} (h : BodyAt text head body) (x : Text) :
    BodyAt (text ++ x) head (body ++ x) := by
  refine ⟨by rw [h.split, List.append_assoc _ body],fun pre post heq => ?_⟩
  by_contra hlt
  -- the other blank line is over before the body begins
  have hlen := congrArg List.length h.split
  simp only [List.length_append, blankLine_length] at hlen
  have hcut : text = pre ++ blankLine ++ post.take (text.length - (pre.length + 4)) := by
    have htake := congrArg (List.take text.length) heq
    rwa [List.take_left, List.take_append, List.take_of_length_le
      (by rw [List.length_append, blankLine_length]; omega), List.length_append,
      blankLine_length] at htake
  exact hlt (h.first _ _ hcut)

theorem binLoop_ends {split : Text} (heven : split.length % 2 = 0) (hlt : split.length < 2 ^ 32) :
    ∃ out, binLoop (fun _ _ => some nul) split = .ok out := by
  obtain ⟨out,hout,-⟩ := (binLoop_returns heven hlt).mpr fun i _ => strtol16_nul_behind _ _
  exact ⟨out,hout⟩

theorem load_mapped {r : Region} (h : ∀ i, (r.beyond i).isSome) (off n : Nat) :
    ∃ bs, load r off n = .ok bs := by
  obtain ⟨bs,hbs⟩ := r.read_mapped h off n
  exact ⟨bs,load_eq_ok.mpr hbs⟩

theorem deserialise_mapped {serial : Region} (h : ∀ i, (serial.beyond i).isSome) :
    ∃ p, DvspPacket.deserialise serial = .ok p := by
  obtain ⟨bs,hbs⟩ := load_mapped h 0 DvspHeader.sizeOf
  obtain ⟨content,hcontent⟩ :=
    load_mapped h DvspHeader.sizeOf (DvspHeader.ofBytes bs).size.toNat
  by_cases hsize : (DvspHeader.ofBytes bs).size = 0
  · exact ⟨_,by simp only [DvspPacket.deserialise, hbs, ok_bind, if_pos hsize]; rfl⟩
  · exact ⟨_,by simp only [DvspPacket.deserialise, hbs, ok_bind, if_neg hsize, hcontent]; rfl⟩

theorem requestPacket_zeroMemory {mData : Region} :
    (∃ p, requestPacket zeroMemory mData = .ok p) ↔
      ∃ out, httpToBin (fun _ _ => some nul) mData = .ok out := by
  constructor
  · intro h
    obtain ⟨p,hp⟩ := h
    obtain ⟨out,hout,-⟩ := bind_eq_ok.mp hp
    exact ⟨out,hout⟩
  · intro h
    obtain ⟨out,hout⟩ := h
    have hmapped : ∀ i, ((Region.mk out zeroMemory.afterBytes).beyond i).isSome := fun _ => rfl
    obtain ⟨header,hheader⟩ := load_mapped hmapped 0 DvspHeader.sizeOf
    obtain ⟨dump,hdump⟩ := load_mapped hmapped 0
      (DvspHeader.sizeOf + (DvspHeader.ofBytes header).size.toNat)
    obtain ⟨p,hp⟩ := deserialise_mapped hmapped
    have hbytes : httpToBin zeroMemory.behindPair mData = .ok out := hout
    exact ⟨p,by simp only [requestPacket, hbytes, ok_bind, dumpFrames, hheader, hdump, hp]⟩

theorem httpToBin_continued {behind : Nat → Beyond} {chunk x head body : Text}
    (hlen : chunk.length ≤ sessionSize) (hchunk : nul ∉ chunk) (hx : nul ∉ x) (hshort : x.length ≤ 9)
    (h : BodyAt (chunk ++ x) head body) :
    httpToBin behind (continued chunk x) = binLoop behind body := by
  have htext := continued_holdsText hlen hchunk hx
  have hmax : (chunk ++ x).length ≤ maxStringSize := by
    rw [List.length_append]
    unfold sessionSize at hlen
    unfold maxStringSize
    omega
  rw [httpToBin_text htext hmax, httpToBin_body htext.free hmax h]

/-- One character more, and the last pair has no second digit: the byte of it is
written behind the others. -/
theorem exists_continued_ne {chunk : Text} (hlen : chunk.length ≤ sessionSize)
    (hchunk : nul ∉ chunk) :
    ∃ x y, requestPacket zeroMemory (continued chunk x) ≠
      requestPacket zeroMemory (continued chunk y) := by
  obtain ⟨head,body,hbody⟩ : ∃ head body, BodyAt (chunk ++ blankLine) head body :=
    exists_bodyAt ⟨chunk,[],by simp⟩
  have hsplit := congrArg List.length hbody.split
  simp only [List.length_append, blankLine_length] at hsplit
  unfold sessionSize at hlen
  -- filled up to an even number of characters
  obtain ⟨pad,hpad,heven⟩ : ∃ pad ∈ ([[],[48]] : List Text), (body ++ pad).length % 2 = 0 := by
    by_cases h : body.length % 2 = 0
    · exact ⟨[],by simp,by simpa using h⟩
    · refine ⟨[48],by simp,?_⟩
      rw [List.length_append, List.length_singleton]
      omega
  have hpadlen : pad.length ≤ 1 ∧ nul ∉ pad := by
    rw [List.mem_pair] at hpad
    rcases hpad with rfl | rfl <;> decide
  have hx : nul ∉ blankLine ++ pad := by
    rw [List.mem_append]
    exact fun h => h.elim (by decide) hpadlen.2
  have hx' : nul ∉ blankLine ++ pad ++ [48] := by
    rw [List.mem_append]
    exact fun h => h.elim hx (by decide)
  have hat : BodyAt (chunk ++ (blankLine ++ pad)) head (body ++ pad) := by
    rw [← List.append_assoc]
    exact hbody.append pad
  have hat' : BodyAt (chunk ++ (blankLine ++ pad ++ [48])) head (body ++ pad ++ [48]) := by
    rw [← List.append_assoc]
    exact hat.append [48]
  have hloop := @httpToBin_continued (fun _ _ => some nul) _ _ _ _ hlen hchunk hx
    (by rw [List.length_append, blankLine_length]; omega) hat
  have hloop' := @httpToBin_continued (fun _ _ => some nul) _ _ _ _ hlen hchunk hx'
    (by simp only [List.length_append, blankLine_length, List.length_singleton]; omega) hat'
  obtain ⟨out,hout⟩ := binLoop_ends heven (by rw [List.length_append]; omega)
  obtain ⟨p,hp⟩ := requestPacket_zeroMemory.mpr ⟨out,hloop.trans hout⟩
  refine ⟨blankLine ++ pad,blankLine ++ pad ++ [48],fun heq => ?_⟩
  obtain ⟨out',hout'⟩ := requestPacket_zeroMemory.mp ⟨p,heq.symm.trans hp⟩
  have hodd := binLoop_length (hloop'.symm.trans hout')
  rw [List.length_append, List.length_singleton] at hodd
  omega

/-! ### Independence of the buffer -/

section Independence
variable {V6 : Type} [DecidableEq V6] (env : Surroundings V6) (left : Leftover)

/-- Neither what is in `m_data` behind the characters that came nor what is behind
`m_data` makes a difference. -/
structure OwnCharactersOnly (chunk : Text) : Prop where
  packet : ∀ memory old old' beyond beyond', old.length = sessionSize → old'.length = sessionSize →
    requestPacket memory (received chunk old beyond) =
      requestPacket memory (received chunk old' beyond')
  reply : ∀ memory old old' beyond beyond', old.length = sessionSize → old'.length = sessionSize →
    respond env left memory (received chunk old beyond) =
      respond env left memory (received chunk old' beyond')

theorem requestPacket_text {memory : HexMemory} {message message' : Region} {text : Text}
    (h : message.HoldsText text) (h' : message'.HoldsText text) (hmax : text.length ≤ maxStringSize) :
    requestPacket memory message = requestPacket memory message' := by
  simp only [requestPacket, httpToBin_text h hmax, httpToBin_text h' hmax]

/-- A request is read up to its first NUL, and no HTTP client has to send one. -/
theorem ownCharactersOnly_iff {chunk : Text} (hlen : chunk.length ≤ sessionSize) :
    OwnCharactersOnly env left chunk ↔ nul ∈ chunk := by
  constructor
  · intro h
    by_contra hchunk
    obtain ⟨x,y,hne⟩ := exists_continued_ne hlen hchunk
    exact hne (h.packet _ _ _ _ _ (by simp) (by simp))
  · intro hnul
    obtain ⟨text,rest,rfl,hfree⟩ : ∃ text rest, chunk = text ++ nul :: rest ∧ nul ∉ text :=
      List.eq_append_cons_of_mem hnul
    have htext : ∀ old beyond, (received (text ++ nul :: rest) old beyond).HoldsText text := by
      intro old beyond
      rw [received, List.append_assoc, List.cons_append]
      exact Region.holdsText_inside hfree _ _
    have hmax : text.length ≤ maxStringSize := by
      rw [List.length_append] at hlen
      unfold sessionSize at hlen
      unfold maxStringSize
      omega
    have hpacket := fun memory old old' beyond beyond' =>
      @requestPacket_text memory _ _ text (htext old beyond) (htext old' beyond') hmax
    refine ⟨fun memory old old' beyond beyond' _ _ => hpacket memory old old' beyond beyond',
      fun memory old old' beyond beyond' _ _ => ?_⟩
    funext addr
    rw [respond, respond, hpacket memory old old' beyond beyond']

end Independence

/-- Without the NUL of the second request the first one goes on in the buffer. -/
theorem ownCharactersOnly_iff_unended :
    ¬ OwnCharactersOnly isolated unmapped (blankLine ++ [48,52]) ∧
      OwnCharactersOnly isolated unmapped (blankLine ++ [48,52,nul]) :=
  ⟨fun h => absurd ((ownCharactersOnly_iff isolated unmapped (by decide)).mp h) (by decide),
    (ownCharactersOnly_iff isolated unmapped (by decide)).mpr (by decide)⟩

end GsnNode
