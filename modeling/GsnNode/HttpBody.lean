import GsnNode.CString
import GsnNode.ProtocolHandler

/-! The body of an HTTP message, two hex digits a byte. -/

set_option autoImplicit false

namespace GsnNode
open MemoryRegion FuelLoop DelimitedText ProtocolHandler

def blankLine : Text := HttpFrame.crlf ++ HttpFrame.crlf

theorem blankLine_length : blankLine.length = 4 := rfl

/-- `s.find(pat)` -/
def findText (s pat : Text) : Nat :=
  let i := findInfix pat s
  if i = s.length + 1 then npos else i

/-- The counter of the loop, and the bytes that are written. The index `i` of the next
one is their number. -/
structure BinState where
  j : Nat
  bytes : List UInt8

/-- The array `d` holds two characters and no NUL, so that `strtol` goes on in the
memory behind it. -/
def binTurn (behind : Nat → Beyond) (split : Text) (s : BinState) :
    Call (Turn BinState (List UInt8)) :=
  if s.j < split.length then do
    let i := s.bytes.length
    let j := (s.j + 1) % 2 ^ 32
    -- `split[len]` is the NUL of the string
    let d := [split.getD s.j nul,split.getD j nul]
    let value ← strtol16 ⟨d,behind i⟩
    if split.length / 2 ≤ i ∨ 2 ^ 31 ≤ i + 1 then undefined
    else pure (.next ⟨(j + 1) % 2 ^ 32,s.bytes ++ [UInt8.ofInt value]⟩)
  else pure (.done s.bytes)

def binLoop (behind : Nat → Beyond) (split : Text) : Call (List UInt8) :=
  ofLoop (run (binTurn behind split) (split.length + 1) ⟨0,[]⟩)

def httpToBin (behind : Nat → Beyond) (http : Region) : Call (List UInt8) := do
  let len ← strlen http 0
  let r ← assign len (load http 0 len)
  let n := findText r blankLine
  let split ← substr r ((n + 4) % 2 ^ 64) npos
  binLoop behind split

/-! ### Refusing what is no body -/

/-- The body follows the first blank line. -/
structure BodyAt (text head body : Text) : Prop where
  split : text = head ++ blankLine ++ body
  first : ∀ pre post, text = pre ++ blankLine ++ post → head.length ≤ pre.length

structure HexBody (body : Text) : Prop where
  even : body.length % 2 = 0
  digits : ∀ c ∈ body, isHexDigit c = true

/-- A text with a body in hex digits is decoded into half as many bytes, and any other
one is an error. A write behind the buffer is neither. -/
structure DecodesOrRefuses (behind : Nat → Beyond) (beyond : Beyond) (text : Text) : Prop where
  decoded : ∀ head body, BodyAt text head body → HexBody body →
    ∃ bytes, httpToBin behind ⟨text ++ [nul],beyond⟩ = .ok bytes ∧ bytes.length = body.length / 2
  refused : (∀ head body, BodyAt text head body → ¬ HexBody body) →
    ∃ e, httpToBin behind ⟨text ++ [nul],beyond⟩ = throws e

/-! ### The loop -/

section Loop
variable {behind : Nat → Beyond} {split : Text}

theorem binTurn_ne_throws (s : BinState) (e : CppException) :
    binTurn behind split s ≠ throws e := by
  unfold binTurn
  split
  · refine bind_ne_throws (strtol16_ne_throws e) fun value => ?_
    split
    · simp [undefined, throws]
    · simp [throws]
  · simp [throws]

theorem binLoop_ne_throws (e : CppException) : binLoop behind split ≠ throws e := by
  intro h
  rw [binLoop, ofLoop_eq_throws] at h
  have hbad := run_error_of (· ≠ Stop.throws e)
    (fun s e' hturn heq => binTurn_ne_throws s e (by rw [hturn, heq, throws])) h
  exact hbad rfl

theorem binTurn_next {s s' : BinState} (h : binTurn behind split s = .ok (.next s')) :
    s.j < split.length ∧ s.bytes.length < split.length / 2 ∧
      ∃ value, s' = ⟨((s.j + 1) % 2 ^ 32 + 1) % 2 ^ 32,s.bytes ++ [UInt8.ofInt value]⟩ := by
  unfold binTurn at h
  split at h
  · obtain ⟨value,-,hnext⟩ := bind_eq_ok.mp h
    split at hnext
    · contradiction
    · exact ⟨by assumption,by omega,value,(Turn.next.inj (Except.ok.inj hnext)).symm⟩
  · simp at h

theorem binTurn_done {s : BinState} {out : List UInt8}
    (h : binTurn behind split s = .ok (.done out)) : split.length ≤ s.j ∧ out = s.bytes := by
  unfold binTurn at h
  split at h
  · obtain ⟨value,-,hnext⟩ := bind_eq_ok.mp h
    split at hnext <;> simp [undefined] at hnext
  · exact ⟨by omega,(Turn.done.inj (Except.ok.inj h)).symm⟩

/-- The counter is too narrow for such a body. -/
theorem binLoop_long (hlong : 2 ^ 32 ≤ split.length) (bytes : List UInt8) :
    binLoop behind split ≠ .ok bytes := by
  intro h
  rw [binLoop, ofLoop_eq_ok] at h
  refine run_invariant (fun s : BinState => s.j < 2 ^ 32) (fun _ => False) ?_ ?_ ?_ h
  · intro s s' _ hturn
    obtain ⟨-,-,value,rfl⟩ := binTurn_next hturn
    exact Nat.mod_lt _ (by decide)
  · intro s out hs hturn
    have hle := (binTurn_done hturn).1
    omega
  · decide

/-- What `strtol` makes of the pair at this index. -/
def pairValue (behind : Nat → Beyond) (split : Text) (i : Nat) : Call Int :=
  strtol16 ⟨[split.getD (2 * i) nul,split.getD (2 * i + 1) nul],behind i⟩

theorem binTurn_pair (heven : split.length % 2 = 0) (hlt : split.length < 2 ^ 32)
    {bytes : List UInt8} (hk : bytes.length < split.length / 2) :
    binTurn behind split ⟨2 * bytes.length,bytes⟩ =
      (pairValue behind split bytes.length).map fun value =>
        .next ⟨2 * (bytes.length + 1),bytes ++ [UInt8.ofInt value]⟩ := by
  have hj : (2 * bytes.length + 1) % 2 ^ 32 = 2 * bytes.length + 1 := Nat.mod_eq_of_lt (by omega)
  have hj' : (2 * bytes.length + 1 + 1) % 2 ^ 32 = 2 * (bytes.length + 1) := by
    rw [Nat.mod_eq_of_lt (by omega)]
    omega
  have hroom : ¬ (split.length / 2 ≤ bytes.length ∨ 2 ^ 31 ≤ bytes.length + 1) := by omega
  simp only [binTurn, if_pos (show 2 * bytes.length < split.length by omega), hj, hj', if_neg hroom,
    pairValue]
  cases strtol16 ⟨[split.getD (2 * bytes.length) nul,split.getD (2 * bytes.length + 1) nul],
    behind bytes.length⟩ <;> rfl

/-- The byte of the pair at this index. -/
def pairByte (behind : Nat → Beyond) (split : Text) (i : Nat) : Call UInt8 :=
  (pairValue behind split i).map UInt8.ofInt

/-- From the pair at index `bytes.length` on, with `m` pairs to come. -/
theorem run_pairs (heven : split.length % 2 = 0) (hlt : split.length < 2 ^ 32) {m fuel : Nat}
    {bytes : List UInt8} (hm : bytes.length + m = split.length / 2) (hfuel : m < fuel) :
    run (binTurn behind split) fuel ⟨2 * bytes.length,bytes⟩ =
      some (((List.range' bytes.length m).mapM (pairByte behind split)).map (bytes ++ ·)) := by
  induction m generalizing bytes fuel with
  | zero =>
    obtain ⟨fuel,rfl⟩ := Nat.exists_eq_succ_of_ne_zero (Nat.ne_zero_of_lt hfuel)
    have hdone : binTurn behind split ⟨2 * bytes.length,bytes⟩ = .ok (.done bytes) :=
      if_neg (by simp only; omega)
    rw [run_done fuel hdone]
    simp [Except.map]
  | succ m ih =>
    obtain ⟨fuel,rfl⟩ := Nat.exists_eq_succ_of_ne_zero (Nat.ne_zero_of_lt hfuel)
    have hturn := @binTurn_pair behind split heven hlt bytes (by omega)
    rw [List.range'_succ, List.mapM_cons]
    cases hvalue : pairValue behind split bytes.length with
    | error e =>
      rw [hvalue] at hturn
      rw [run_error fuel hturn, pairByte, hvalue]
      rfl
    | ok value =>
      rw [hvalue] at hturn
      have hrest := @ih fuel (bytes ++ [UInt8.ofInt value])
        (by rw [List.length_append, List.length_singleton]; omega) (by omega)
      rw [List.length_append, List.length_singleton] at hrest
      rw [run_next fuel hturn, hrest, pairByte, hvalue]
      cases (List.range' (bytes.length + 1) m).mapM (pairByte behind split) <;>
        simp [Except.map]

theorem binLoop_pairs (heven : split.length % 2 = 0) (hlt : split.length < 2 ^ 32)
    {out : List UInt8} :
    binLoop behind split = .ok out ↔ out.length = split.length / 2 ∧
      ∀ i (h : i < out.length), pairByte behind split i = .ok out[i] := by
  have hrun := @run_pairs behind split heven hlt (split.length / 2) (split.length + 1) []
    (by simp) (by omega)
  rw [List.length_nil, Nat.mul_zero] at hrun
  have hout := @mapM_range'_ok _ _ (pairByte behind split) 0 (split.length / 2) out
  simp only [Nat.zero_add] at hout
  rw [← hout, binLoop, hrun]
  cases (List.range' 0 (split.length / 2)).mapM (pairByte behind split) <;> simp [ofLoop, Except.map]

theorem binLoop_returns (heven : split.length % 2 = 0) (hlt : split.length < 2 ^ 32) :
    (∃ out, binLoop behind split = .ok out ∧ out.length = split.length / 2) ↔
      ∀ i < split.length / 2, ∃ v, pairValue behind split i = .ok v := by
  constructor
  · intro h i hi
    obtain ⟨out,hout,hlen⟩ := h
    have hbyte := ((binLoop_pairs heven hlt).mp hout).2 i (by omega)
    rw [pairByte] at hbyte
    cases hvalue : pairValue behind split i with
    | error e =>
      rw [hvalue] at hbyte
      contradiction
    | ok v => exact ⟨v,rfl⟩
  · intro h
    choose! v hv using h
    have hlen : ((List.range (split.length / 2)).map fun i => UInt8.ofInt (v i)).length =
        split.length / 2 := by rw [List.length_map, List.length_range]
    refine ⟨_,(binLoop_pairs heven hlt).mpr ⟨hlen,fun i hi => ?_⟩,hlen⟩
    rw [pairByte, hv i (by omega)]
    simp [Except.map]

theorem pairValue_digits (hsplit : HexBody split) {i : Nat} (hi : i < split.length / 2) :
    (∃ v, pairValue behind split i = .ok v) ↔ DigitsEnd (behind i) := by
  have hdigit : ∀ k < split.length, isHexDigit (split.getD k nul) = true := by
    intro k hk
    rw [List.getD_eq_getElem split nul hk]
    exact hsplit.digits _ (List.getElem_mem hk)
  exact strtol16_digits (hdigit _ (by omega)) (hdigit _ (by omega)) (behind i)

end Loop

/-! ### The text around it -/

theorem exists_bodyAt {text : Text} (h : blankLine <:+: text) :
    ∃ head body, BodyAt text head body := by
  obtain ⟨head,body,hsplit,-,hfirst⟩ := findInfix_some h
  exact ⟨head,body,hsplit,hfirst⟩

theorem BodyAt.isInfix {text head body : Text} (h : BodyAt text head body) : blankLine <:+: text :=
  ⟨head,body,h.split.symm⟩

theorem BodyAt.unique {text head body head' body' : Text} (h : BodyAt text head body)
    (h' : BodyAt text head' body') : body = body' := by
  have hlen : head.length = head'.length :=
    le_antisymm (h.first head' body' h'.split) (h'.first head body h.split)
  have heq := h.split.symm.trans h'.split
  rw [List.append_assoc, List.append_assoc] at heq
  exact List.append_cancel_left (List.append_inj heq hlen).2

theorem BodyAt.findText_eq {text head body : Text} (h : BodyAt text head body) :
    findText text blankLine = head.length := by
  obtain ⟨pre,post,hsplit,hfind,hmin⟩ := findInfix_some h.isInfix
  have hpre : pre.length = head.length :=
    le_antisymm (hmin head body h.split) (h.first pre post hsplit)
  have hlen := congrArg List.length h.split
  rw [List.length_append, List.length_append] at hlen
  rw [findText, hfind, if_neg (by omega), hpre]

section Call
variable {behind : Nat → Beyond} {beyond : Beyond} {text : Text}

theorem httpToBin_eq (hnul : nul ∉ text) (hmax : text.length ≤ maxStringSize) :
    httpToBin behind ⟨text ++ [nul],beyond⟩ =
      substr text ((findText text blankLine + 4) % 2 ^ 64) npos >>= binLoop behind := by
  have hchars : ∀ c ∈ text, (c != nul) = true := by
    intro c hc
    exact bne_iff_ne.mpr fun heq => hnul (by rwa [← heq])
  have hstop := @Region.stopsAt_text (· != nul) nul text beyond hchars (by simp)
  have hlen : strlen ⟨text ++ [nul],beyond⟩ 0 = .ok text.length := by
    refine strlen_ok.mpr ⟨by rwa [Nat.zero_add],?_⟩
    unfold addressSpace
    unfold maxStringSize at hmax
    omega
  have hload : load ⟨text ++ [nul],beyond⟩ 0 text.length = .ok text := by
    rw [load_inside _ (by simp)]
    simp
  rw [httpToBin, hlen, ok_bind, hload, assign, if_neg (Nat.not_lt.mpr hmax), ok_bind]

theorem httpToBin_body (hnul : nul ∉ text) (hmax : text.length ≤ maxStringSize)
    {head body : Text} (h : BodyAt text head body) :
    httpToBin behind ⟨text ++ [nul],beyond⟩ = binLoop behind body := by
  have hlen := congrArg List.length h.split
  rw [List.length_append, List.length_append, blankLine_length] at hlen
  unfold maxStringSize at hmax
  have hpos : (head.length + 4) % 2 ^ 64 = (head ++ blankLine).length := by
    rw [Nat.mod_eq_of_lt (by omega), List.length_append, blankLine_length]
  have hdrop : text.drop (head ++ blankLine).length = body := by rw [h.split, List.drop_left]
  rw [httpToBin_eq hnul hmax, h.findText_eq, hpos, substr, hdrop,
    if_neg (by rw [List.length_append, blankLine_length]; omega), ok_bind,
    List.take_of_length_le (by unfold npos; omega)]

/-- `npos + 4` is 3, and what comes behind the third character of the header is decoded. -/
theorem httpToBin_header (hnul : nul ∉ text) (hmax : text.length ≤ maxStringSize)
    (h : ¬ blankLine <:+: text) :
    httpToBin behind ⟨text ++ [nul],beyond⟩ =
      if text.length < 3 then throws .outOfRange else binLoop behind (text.drop 3) := by
  have hfind : findText text blankLine = npos := if_pos (findInfix_none h)
  have hdrop : (text.drop 3).length ≤ npos := by
    unfold maxStringSize at hmax
    rw [List.length_drop, npos]
    omega
  rw [httpToBin_eq hnul hmax, hfind, show (npos + 4) % 2 ^ 64 = 3 from rfl, substr,
    List.take_of_length_le hdrop]
  split <;> rfl

theorem decodesOrRefuses_body (hnul : nul ∉ text) (hmax : text.length ≤ maxStringSize)
    {head body : Text} (hbody : BodyAt text head body) :
    DecodesOrRefuses behind beyond text ↔
      HexBody body ∧ body.length < 2 ^ 32 ∧ ∀ i < body.length / 2, DigitsEnd (behind i) := by
  have hcall := @httpToBin_body behind beyond text hnul hmax head body hbody
  constructor
  · intro h
    have hhex : HexBody body := by
      by_contra hbad
      obtain ⟨e,he⟩ := h.refused fun head' body' hbody' hhex =>
        hbad (by rwa [hbody.unique hbody'])
      rw [hcall] at he
      exact binLoop_ne_throws e he
    obtain ⟨bytes,hbytes,hlen⟩ := h.decoded head body hbody hhex
    rw [hcall] at hbytes
    have hshort : body.length < 2 ^ 32 := by
      by_contra hlong
      exact binLoop_long (not_lt.mp hlong) bytes hbytes
    have hpairs := (binLoop_returns hhex.even hshort).mp ⟨bytes,hbytes,hlen⟩
    exact ⟨hhex,hshort,fun i hi => (pairValue_digits hhex hi).mp (hpairs i hi)⟩
  · intro h
    obtain ⟨hhex,hshort,hdigits⟩ := h
    refine ⟨fun head' body' hbody' _ => ?_,fun hnone => absurd hhex (hnone head body hbody)⟩
    rw [hcall, ← hbody.unique hbody']
    exact (binLoop_returns hhex.even hshort).mpr fun i hi =>
      (pairValue_digits hhex hi).mpr (hdigits i hi)

theorem decodesOrRefuses_header (hnul : nul ∉ text) (hmax : text.length ≤ maxStringSize)
    (hin : ¬ blankLine <:+: text) : DecodesOrRefuses behind beyond text ↔ text.length < 3 := by
  have hcall := @httpToBin_header behind beyond text hnul hmax hin
  constructor
  · intro h
    by_contra hlong
    obtain ⟨e,he⟩ := h.refused fun head body hbody _ => hin hbody.isInfix
    rw [hcall, if_neg hlong] at he
    exact binLoop_ne_throws e he
  · intro hshort
    rw [if_pos hshort] at hcall
    exact ⟨fun head body hbody => absurd hbody.isInfix hin,fun _ => ⟨.outOfRange,hcall⟩⟩

end Call

/-- The text is one that memory can hold with its NUL. -/
theorem decodesOrRefuses_iff {behind : Nat → Beyond} {beyond : Beyond} {text : Text}
    (hnul : nul ∉ text) (hmax : text.length ≤ maxStringSize) :
    DecodesOrRefuses behind beyond text ↔
      (∃ head body, BodyAt text head body ∧ HexBody body ∧ body.length < 2 ^ 32 ∧
        ∀ i < body.length / 2, DigitsEnd (behind i)) ∨
      (¬ blankLine <:+: text ∧ text.length < 3) := by
  by_cases hin : blankLine <:+: text
  · obtain ⟨head,body,hbody⟩ := exists_bodyAt hin
    rw [decodesOrRefuses_body hnul hmax hbody]
    constructor
    · exact fun h => .inl ⟨head,body,hbody,h⟩
    · intro h
      rcases h with ⟨head',body',hbody',h⟩ | h
      · rwa [hbody.unique hbody']
      · exact absurd hin h.1
  · rw [decodesOrRefuses_header hnul hmax hin]
    constructor
    · exact fun hshort => .inr ⟨hin,hshort⟩
    · intro h
      rcases h with ⟨head,body,hbody,-⟩ | h
      · exact absurd hbody.isInfix hin
      · exact h.2

/-- One pair of digits, and one digit. -/
theorem decodesOrRefuses_iff_odd :
    DecodesOrRefuses (fun _ _ => some 0) (fun _ => none) (blankLine ++ [52,97]) ∧
      ¬ DecodesOrRefuses (fun _ _ => some 0) (fun _ => none) (blankLine ++ [52]) := by
  constructor
  · have hbody : BodyAt (blankLine ++ [52,97]) [] [52,97] := ⟨rfl,fun _ _ _ => Nat.zero_le _⟩
    have hend : DigitsEnd fun _ => some 0 :=
      ⟨0,(Region.stopsAt_here rfl (by decide)).mpr rfl,by decide⟩
    exact (decodesOrRefuses_iff (by decide) (by decide)).mpr
      (.inl ⟨[],[52,97],hbody,⟨rfl,by decide +kernel⟩,by decide,fun _ _ => hend⟩)
  · intro h
    have hodd : BodyAt (blankLine ++ [52]) [] [52] := ⟨rfl,fun _ _ _ => Nat.zero_le _⟩
    rcases (decodesOrRefuses_iff (by decide) (by decide)).mp h with ⟨head,body,hbody,hhex,-⟩ | hshort
    · rw [← hodd.unique hbody] at hhex
      exact absurd hhex.even (by decide)
    · exact hshort.1 hodd.isInfix

/-- The pair of the last character is written behind the buffer. -/
theorem odd_body_escapes :
    ¬ ∀ behind beyond text, nul ∉ text → text.length ≤ maxStringSize →
      DecodesOrRefuses behind beyond text := by
  intro h
  have hodd := (h (fun _ _ => some 0) (fun _ => none) (blankLine ++ [52]) (by decide) (by decide)).2
  have hbad : ∀ head body, BodyAt (blankLine ++ [52]) head body → ¬ HexBody body := by
    intro head body hbody hhex
    have hbody' : BodyAt (blankLine ++ [52]) [] [52] := ⟨rfl,fun _ _ _ => Nat.zero_le _⟩
    rw [← hbody'.unique hbody] at hhex
    exact absurd hhex.even (by decide)
  obtain ⟨e,he⟩ := hodd hbad
  have hrun : httpToBin (fun _ _ => some 0) ⟨blankLine ++ [52] ++ [nul],fun _ => none⟩ =
      undefined := by
    decide +kernel
  rw [hrun] at he
  simp [undefined, throws] at he

end GsnNode
