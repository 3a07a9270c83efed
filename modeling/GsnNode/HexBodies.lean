import GsnNode.HttpBody

/-! Bytes that are sent as hex digits, and what the memory behind two digits makes of
them. -/

set_option autoImplicit false

namespace GsnNode
open MemoryRegion FuelLoop DelimitedText ProtocolHandler

/-- Two digits a byte, each of them in either case. -/
inductive HexText : Text → List UInt8 → Prop
  | nil : HexText [] []
  | cons {x y c : UInt8} {body : Text} {b : List UInt8} :
      isHexDigit x = true → isHexDigit y = true → 16 * hexValue x + hexValue y = c.toNat →
      HexText body b → HexText (x :: y :: body) (c :: b)

/-- The digits behind those of `c` belong to the number, and `c` is its lowest byte
nevertheless. A number that no `long` has is replaced by the greatest one. -/
def KeepsByte (behind : Beyond) (c : UInt8) : Prop :=
  ∃ e, DigitsBehind behind e ∧
    if c.toNat * 16 ^ e.length + hexNumber e < 2 ^ 63
    then (c.toNat * 16 ^ e.length + hexNumber e) % 256 = c.toNat
    else c = 255

/-- The request with its body, and the memory behind it. -/
def hexRequest (head body : Text) (beyond : Beyond) : Region :=
  ⟨head ++ blankLine ++ body ++ [nul],beyond⟩

/-- The bytes are decoded whatever stands in memory behind `d`, and behind the request. -/
def DecodesExactly (head body : Text) (b : List UInt8) : Prop :=
  ∀ (memory : Nat → Nat → UInt8) (beyond : Beyond),
    httpToBin (fun i k => some (memory i k)) (hexRequest head body beyond) = .ok b

/-! ### Digits -/

section Texts
variable {body : Text} {b : List UInt8}

theorem HexText.length (h : HexText body b) : body.length = 2 * b.length := by
  induction h with
  | nil => rfl
  | cons hx hy hc hrest ih =>
    simp only [List.length_cons, ih]
    omega

theorem HexText.digits (h : HexText body b) : ∀ c ∈ body, isHexDigit c = true := by
  induction h with
  | nil => simp
  | cons hx hy hc hrest ih =>
    intro c hmem
    simp only [List.mem_cons] at hmem
    rcases hmem with rfl | rfl | hmem
    · exact hx
    · exact hy
    · exact ih c hmem

theorem HexText.pair (h : HexText body b) {i : Nat} (hi : i < b.length) :
    isHexDigit (body.getD (2 * i) nul) = true ∧ isHexDigit (body.getD (2 * i + 1) nul) = true ∧
      16 * hexValue (body.getD (2 * i) nul) + hexValue (body.getD (2 * i + 1) nul) =
        b[i].toNat := by
  induction h generalizing i with
  | nil => simp at hi
  | cons hx hy hc hrest ih =>
    cases i with
    | zero => exact ⟨hx,hy,hc⟩
    | succ i => exact ih (Nat.lt_of_succ_lt_succ hi)

end Texts

/-! ### Bytes -/

theorem toNat_ofInt_natCast (n : Nat) : (UInt8.ofInt n).toNat = n % 256 := by
  rw [UInt8.ofInt, UInt8.toNat_ofNat']
  omega

theorem toNat_ofInt_clampLong (n : Nat) :
    (UInt8.ofInt (clampLong n)).toNat = if n < 2 ^ 63 then n % 256 else 255 := by
  have hclamp : clampLong n = (min n (2 ^ 63 - 1) : Nat) := by
    unfold clampLong
    omega
  rw [hclamp, toNat_ofInt_natCast]
  split
  · rw [Nat.min_eq_left (by omega)]
  · rw [Nat.min_eq_right (by omega)]
    rfl

theorem keepsByte_iff {behind : Beyond} {x y c : UInt8} (hx : isHexDigit x = true)
    (hy : isHexDigit y = true) (hc : 16 * hexValue x + hexValue y = c.toNat) :
    KeepsByte behind c ↔ ∃ v, strtol16 ⟨[x,y],behind⟩ = .ok v ∧ UInt8.ofInt v = c := by
  have hnumber : ∀ e, hexNumber (x :: y :: e) = c.toNat * 16 ^ e.length + hexNumber e := by
    intro e
    have happend := hexNumber_append [x,y] e
    rwa [show hexNumber [x,y] = c.toNat by rw [← hc]; simp [hexNumber]] at happend
  have hvalue : ∀ e, UInt8.ofInt (clampLong (hexNumber (x :: y :: e))) = c ↔
      if c.toNat * 16 ^ e.length + hexNumber e < 2 ^ 63
      then (c.toNat * 16 ^ e.length + hexNumber e) % 256 = c.toNat
      else c = 255 := by
    intro e
    rw [← UInt8.toNat_inj, toNat_ofInt_clampLong, hnumber]
    split
    · rfl
    · rw [← UInt8.toNat_inj, eq_comm]
      rfl
  simp only [strtol16_pair_ok hx hy]
  constructor
  · intro h
    obtain ⟨e,he,hkeeps⟩ := h
    exact ⟨_,⟨e,he,rfl⟩,(hvalue e).mpr hkeeps⟩
  · intro h
    obtain ⟨v,hv,hbyte⟩ := h
    obtain ⟨e,he,rfl⟩ := hv
    exact ⟨e,he,(hvalue e).mp hbyte⟩

theorem pairByte_ok {behind : Nat → Beyond} {body : Text} {b : List UInt8} (h : HexText body b)
    {i : Nat} (hi : i < b.length) :
    pairByte behind body i = .ok b[i] ↔ KeepsByte (behind i) b[i] := by
  obtain ⟨hx,hy,hc⟩ := h.pair hi
  rw [keepsByte_iff hx hy hc, pairByte, pairValue]
  cases strtol16 ⟨[body.getD (2 * i) nul,body.getD (2 * i + 1) nul],behind i⟩ <;> simp [Except.map]

section Loop
variable {behind : Nat → Beyond} {split : Text} {out : List UInt8}

/-- Two characters a byte, when the loop is over. -/
theorem binLoop_length (h : binLoop behind split = .ok out) : split.length = 2 * out.length := by
  have hlt : split.length < 2 ^ 32 := by
    by_contra hlong
    exact binLoop_long (not_lt.mp hlong) out h
  rw [binLoop, ofLoop_eq_ok] at h
  refine run_invariant
    (fun s : BinState => s.j = 2 * s.bytes.length ∧ 2 * s.bytes.length ≤ split.length)
    (fun out => split.length = 2 * out.length) ?_ ?_ ⟨rfl,Nat.zero_le _⟩ h
  · intro s s' hs hturn
    obtain ⟨hj,-⟩ := hs
    obtain ⟨-,hroom,value,rfl⟩ := binTurn_next hturn
    have hfirst : (s.j + 1) % 2 ^ 32 = s.j + 1 := Nat.mod_eq_of_lt (by omega)
    have hsecond : (s.j + 1 + 1) % 2 ^ 32 = s.j + 1 + 1 := Nat.mod_eq_of_lt (by omega)
    simp only [hfirst, hsecond, List.length_append, List.length_singleton]
    omega
  · intro s out hs hturn
    obtain ⟨hj,hle⟩ := hs
    obtain ⟨hend,rfl⟩ := binTurn_done hturn
    omega

theorem binLoop_hex {b : List UInt8} (h : HexText split b) :
    binLoop behind split = .ok b ↔
      b.length < 2 ^ 31 ∧ ∀ i (hi : i < b.length), KeepsByte (behind i) b[i] := by
  have hlen := h.length
  constructor
  · intro hloop
    have hlt : split.length < 2 ^ 32 := by
      by_contra hlong
      exact binLoop_long (not_lt.mp hlong) b hloop
    have hbytes := ((binLoop_pairs (by omega) hlt).mp hloop).2
    exact ⟨by omega,fun i hi => (pairByte_ok h hi).mp (hbytes i hi)⟩
  · intro hkeeps
    obtain ⟨hshort,hkeeps⟩ := hkeeps
    refine (binLoop_pairs (by omega) (by omega)).mpr ⟨by omega,fun i hi => ?_⟩
    exact (pairByte_ok h hi).mpr (hkeeps i hi)

end Loop

/-! ### Requests -/

section Requests
variable {head body : Text} {b : List UInt8}

/-- Only a line end before the blank line makes an earlier one. -/
theorem bodyAt_of_head (hblank : ¬ blankLine <:+: head) (hend : ¬ HttpFrame.crlf <:+ head) :
    BodyAt (head ++ blankLine ++ body) head body := by
  refine ⟨rfl,fun pre post heq => ?_⟩
  by_contra hlt
  rw [List.append_assoc, List.append_assoc] at heq
  obtain ⟨t,rfl,-⟩ | ⟨t,rfl,ht⟩ := List.append_eq_append_iff.mp heq
  · rw [List.length_append] at hlt
    omega
  · -- how far the two blank lines are apart
    match t with
    | [] => simp at hlt
    | [_] => simp [blankLine, HttpFrame.crlf] at ht
    | [x,y] =>
      have hcut : HttpFrame.crlf ++ (HttpFrame.crlf ++ post) = [x,y] ++ (blankLine ++ body) := ht
      have htwo : HttpFrame.crlf = [x,y] := (List.append_inj hcut rfl).1
      exact hend ⟨pre,by rw [htwo]⟩
    | [_,_,_] => simp [blankLine, HttpFrame.crlf] at ht
    | x :: y :: z :: w :: t =>
      have hcut : blankLine ++ post = [x,y,z,w] ++ (t ++ (blankLine ++ body)) := ht
      have hfour : blankLine = [x,y,z,w] := (List.append_inj hcut rfl).1
      exact hblank ⟨pre,t,by rw [hfour, List.append_assoc]; rfl⟩

theorem not_mem_request (hnul : nul ∉ head) (h : HexText body b) :
    nul ∉ head ++ blankLine ++ body := by
  simp only [List.mem_append, not_or]
  exact ⟨⟨hnul,by decide⟩,not_mem_of_forall h.digits (by decide)⟩

/-- The line end becomes part of the body. -/
theorem httpToBin_lineEnd {behind : Nat → Beyond} {beyond : Beyond} (hnul : nul ∉ head)
    (hmax : (head ++ blankLine ++ body).length ≤ maxStringSize) (hend : HttpFrame.crlf <:+ head)
    (h : HexText body b) : httpToBin behind (hexRequest head body beyond) ≠ .ok b := by
  intro hrun
  obtain ⟨pre,rfl⟩ := hend
  have hearly : pre ++ HttpFrame.crlf ++ blankLine ++ body =
      pre ++ blankLine ++ (HttpFrame.crlf ++ body) := by
    simp [blankLine]
  obtain ⟨head',body',hbody⟩ := exists_bodyAt ⟨pre,HttpFrame.crlf ++ body,hearly.symm⟩
  have hle := hbody.first pre _ hearly
  have hsplit := congrArg List.length hbody.split
  rw [hexRequest, httpToBin_body (not_mem_request hnul h) hmax hbody] at hrun
  have hlen := binLoop_length hrun
  have htext := h.length
  simp only [List.length_append, show HttpFrame.crlf.length = 2 from rfl] at hsplit hle
  omega

theorem httpToBin_hex {behind : Nat → Beyond} {beyond : Beyond} (hnul : nul ∉ head)
    (hblank : ¬ blankLine <:+: head) (h : HexText body b)
    (hmax : (head ++ blankLine ++ body).length ≤ maxStringSize) :
    httpToBin behind (hexRequest head body beyond) = .ok b ↔
      ¬ HttpFrame.crlf <:+ head ∧ b.length < 2 ^ 31 ∧
        ∀ i (hi : i < b.length), KeepsByte (behind i) b[i] := by
  by_cases hend : HttpFrame.crlf <:+ head
  · exact ⟨fun hrun => absurd hrun (httpToBin_lineEnd hnul hmax hend h),fun hc => absurd hend hc.1⟩
  · rw [hexRequest, httpToBin_body (not_mem_request hnul h) hmax (bodyAt_of_head hblank hend),
      binLoop_hex h]
    exact ⟨fun hkeeps => ⟨hend,hkeeps⟩,fun hc => hc.2⟩

theorem keepsByte_nul_behind (c : UInt8) : KeepsByte (fun _ => some nul) c := by
  have hnone : DigitsBehind (fun _ => some nul) [] :=
    digitsBehind_text (fun i hi => by simp at hi) (by simp) rfl rfl (by decide)
  have hc := c.toNat_lt
  refine ⟨[],hnone,?_⟩
  rw [show hexNumber [] = 0 from rfl, List.length_nil, pow_zero, if_pos (by omega)]
  omega

/-- A digit behind the first two that makes another byte of them, and a NUL behind it. -/
def otherDigit (c : UInt8) (k : Nat) : UInt8 :=
  if k = 0 then (if c = 0 then 49 else 48) else nul

theorem not_keepsByte_otherDigit (c : UInt8) : ¬ KeepsByte (fun k => some (otherDigit c k)) c := by
  intro h
  obtain ⟨e,he,hkeeps⟩ := h
  have hdigit : isHexDigit (otherDigit c 0) = true := by
    rw [otherDigit, if_pos rfl]
    split <;> rfl
  have hone : DigitsBehind (fun k => some (otherDigit c k)) [otherDigit c 0] := by
    refine digitsBehind_text (x := nul) (fun i hi => ?_) (by simpa using hdigit) rfl rfl ?_
    · obtain rfl : i = 0 := by simpa using hi
      rfl
    · rw [List.length_singleton]
      decide
  obtain rfl := he.unique hone
  have hc := c.toNat_lt
  have hnumber : hexNumber [otherDigit c 0] = if c = 0 then 1 else 0 := by
    rw [otherDigit, if_pos rfl]
    split <;> rfl
  have hzero : c = 0 ↔ c.toNat = 0 := by rw [← UInt8.toNat_inj]; rfl
  rw [hnumber, List.length_singleton, pow_one, if_pos (by split <;> omega)] at hkeeps
  simp only [hzero] at hkeeps
  split at hkeeps <;> omega

/-- Memory that spoils the first byte is in reach of every text but the empty one. -/
theorem decodesExactly_iff (hnul : nul ∉ head) (hblank : ¬ blankLine <:+: head)
    (h : HexText body b) (hmax : (head ++ blankLine ++ body).length ≤ maxStringSize) :
    DecodesExactly head body b ↔ ¬ HttpFrame.crlf <:+ head ∧ b = [] := by
  constructor
  · intro hall
    have hkeeps := fun memory =>
      (httpToBin_hex hnul hblank h hmax).mp (hall memory fun _ => none)
    refine ⟨(hkeeps fun _ _ => nul).1,?_⟩
    by_contra hne
    have hpos := List.length_pos_iff.mpr hne
    have hfirst := (hkeeps fun _ => otherDigit b[0]).2.2 0 hpos
    exact not_keepsByte_otherDigit b[0] hfirst
  · intro hc
    obtain ⟨hend,rfl⟩ := hc
    intro memory beyond
    exact (httpToBin_hex hnul hblank h hmax).mpr ⟨hend,by decide,fun i hi => by simp at hi⟩

end Requests

/-- Whatever the memory, and for each memory. The request is one that memory can hold with
its NUL. -/
theorem hexBody_decoded_iff {head body : Text} {b : List UInt8} (hnul : nul ∉ head)
    (hblank : ¬ blankLine <:+: head) (h : HexText body b)
    (hmax : (head ++ blankLine ++ body).length ≤ maxStringSize) :
    (DecodesExactly head body b ↔ ¬ HttpFrame.crlf <:+ head ∧ b = []) ∧
    ∀ behind beyond, httpToBin behind (hexRequest head body beyond) = .ok b ↔
      ¬ HttpFrame.crlf <:+ head ∧ b.length < 2 ^ 31 ∧
        ∀ i (hi : i < b.length), KeepsByte (behind i) b[i] :=
  ⟨decodesExactly_iff hnul hblank h hmax,fun _ _ => httpToBin_hex hnul hblank h hmax⟩

/-- One byte, with a digit behind it that keeps it, and another one that does not. -/
theorem hexBody_decoded_iff_same_digit :
    httpToBin (fun _ k => some (if k = 0 then 52 else nul))
        (hexRequest (ascii "POST /spring") [52,52] fun _ => none) = .ok [68] ∧
      httpToBin (fun _ k => some (otherDigit 68 k))
        (hexRequest (ascii "POST /spring") [52,52] fun _ => none) ≠ .ok [68] := by
  have hhex : HexText [52,52] [68] := .cons (by decide) (by decide) (by decide) .nil
  have hend : DigitsBehind (fun k => some (if k = 0 then 52 else nul)) [52] := by
    refine digitsBehind_text (x := nul) (fun i hi => ?_) (by decide +kernel) rfl rfl (by decide)
    obtain rfl : i = 0 := by simpa using hi
    rfl
  constructor
  · refine ((hexBody_decoded_iff (by decide) (by decide) hhex (by decide)).2 _ _).mpr
      ⟨by decide,by decide,fun i hi => ⟨[52],hend,?_⟩⟩
    obtain rfl : i = 0 := by simpa using hi
    rw [List.getElem_cons_zero]
    decide
  · intro hrun
    have hkeeps := (((hexBody_decoded_iff (by decide) (by decide) hhex (by decide)).2 _ _).mp
      hrun).2.2 0 (by decide)
    exact not_keepsByte_otherDigit 68 hkeeps

/-- A digit behind the two of the body makes another byte of them. -/
theorem digit_behind_joins :
    ¬ ∀ head body b, nul ∉ head → ¬ blankLine <:+: head → HexText body b →
      (head ++ blankLine ++ body).length ≤ maxStringSize → DecodesExactly head body b := by
  intro h
  have hhex : HexText [52,97] [74] := .cons (by decide) (by decide) (by decide) .nil
  have hbyte := h [] [52,97] [74] (by decide) (by decide) hhex (by decide)
    (fun _ k => if k = 0 then 48 else nul) fun _ => none
  have hrun : httpToBin (fun _ k => some (if k = 0 then 48 else nul))
      (hexRequest [] [52,97] fun _ => none) = .ok [160] := by
    decide +kernel
  rw [hrun] at hbyte
  exact absurd hbyte (by decide)

end GsnNode
