import GsnNode.HexBodies

/-! `sha_string`: a hash in lower case hex digits, two a byte. -/

set_option autoImplicit false

namespace GsnNode
open ByteWords

/-- `std::hex << std::setw(2) << std::setfill('0')` of one byte. -/
def hexField (c : UInt8) : Text :=
  ((Nat.toDigits 16 c.toNat).map fun d => UInt8.ofNat d.toNat).leftpad 2 48

def shaString {n : Nat} (hash : Block n) : Text := hash.data.flatMap hexField

def isLowerHexDigit (c : UInt8) : Bool :=
  (48 ≤ c.toNat && c.toNat ≤ 57) || (97 ≤ c.toNat && c.toNat ≤ 102)

/-- The field of a byte is never longer than the width. -/
theorem hexField_pair (c : UInt8) : ∃ x y, hexField c = [x,y] ∧
    isLowerHexDigit x = true ∧ isLowerHexDigit y = true ∧
    16 * hexValue x + hexValue y = c.toNat := by
  have hall : ∀ c : UInt8, (hexField c).length = 2 ∧
      isLowerHexDigit ((hexField c).getD 0 0) = true ∧
      isLowerHexDigit ((hexField c).getD 1 0) = true ∧
      16 * hexValue ((hexField c).getD 0 0) + hexValue ((hexField c).getD 1 0) = c.toNat := by
    decide +kernel
  obtain ⟨hlen,hx,hy,hvalue⟩ := hall c
  obtain ⟨x,y,hfield⟩ := List.length_eq_two.mp hlen
  rw [hfield] at hx hy hvalue
  exact ⟨x,y,hfield,hx,hy,hvalue⟩

theorem isHexDigit_of_lower {c : UInt8} (h : isLowerHexDigit c = true) : isHexDigit c = true := by
  revert c
  decide +kernel

theorem hexField_hexText (b : List UInt8) : HexText (b.flatMap hexField) b := by
  induction b with
  | nil => exact .nil
  | cons c b ih =>
    obtain ⟨x,y,hfield,hx,hy,hvalue⟩ := hexField_pair c
    rw [List.flatMap_cons, hfield]
    exact .cons (isHexDigit_of_lower hx) (isHexDigit_of_lower hy) hvalue ih

theorem hexField_lower (b : List UInt8) : ∀ c ∈ b.flatMap hexField, isLowerHexDigit c = true := by
  intro c hc
  obtain ⟨d,-,hmem⟩ := List.mem_flatMap.mp hc
  obtain ⟨x,y,hfield,hx,hy,-⟩ := hexField_pair d
  rw [hfield, List.mem_pair] at hmem
  rcases hmem with rfl | rfl
  · exact hx
  · exact hy

theorem HexText.unique {body : Text} {b b' : List UInt8} (h : HexText body b)
    (h' : HexText body b') : b = b' := by
  induction h generalizing b' with
  | nil =>
    cases h'
    rfl
  | cons hx hy hc hrest ih =>
    cases h' with
    | cons hx' hy' hc' hrest' =>
      rw [ih hrest', UInt8.toNat_inj.mp (hc.symm.trans hc')]

/-- The text of a hash is that of no other one, and `http_to_bin` takes it back to the hash
where it takes back any pairs of digits. -/
theorem shaString_readable {n : Nat} (hash : Block n) {head : Text} (hnul : nul ∉ head)
    (hblank : ¬ blankLine <:+: head)
    (hmax : (head ++ blankLine ++ shaString hash).length ≤ maxStringSize) :
    (shaString hash).length = 2 * n ∧
      (∀ c ∈ shaString hash, isLowerHexDigit c = true) ∧
      HexText (shaString hash) hash.data ∧
      (∀ (m : Nat) (hash' : Block m), shaString hash' = shaString hash →
        hash'.data = hash.data) ∧
      ∀ behind beyond,
        httpToBin behind (hexRequest head (shaString hash) beyond) = .ok hash.data ↔
          ¬ HttpFrame.crlf <:+ head ∧ n < 2 ^ 31 ∧
            ∀ i (hi : i < hash.data.length), KeepsByte (behind i) hash.data[i] := by
  have hhex : HexText (shaString hash) hash.data := hexField_hexText hash.data
  refine ⟨?_,hexField_lower hash.data,hhex,fun m hash' heq => ?_,fun behind beyond => ?_⟩
  · rw [hhex.length, hash.size_eq]
  · have hhex' : HexText (shaString hash') hash'.data := hexField_hexText hash'.data
    rw [heq] at hhex'
    exact hhex'.unique hhex
  · have hsize : hash.data.length < 2 ^ 31 ↔ n < 2 ^ 31 := by rw [hash.size_eq]
    rw [httpToBin_hex hnul hblank hhex hmax, hsize]

/-- Three bytes, behind which the memory has NULs, and another digit. -/
theorem shaString_readable_three :
    shaString (Block.ofList 3 [0,10,255]) = ascii "000aff" ∧
      httpToBin (fun _ _ => some nul)
        (hexRequest (ascii "POST /") (shaString (Block.ofList 3 [0,10,255])) fun _ => none) =
          .ok [0,10,255] ∧
      httpToBin (fun _ k => some (otherDigit 0 k))
        (hexRequest (ascii "POST /") (shaString (Block.ofList 3 [0,10,255])) fun _ => none) ≠
          .ok [0,10,255] := by
  obtain ⟨-,-,-,-,hread⟩ := @shaString_readable 3 (Block.ofList 3 [0,10,255]) (ascii "POST /")
    (by decide) (by decide) (by decide +kernel)
  refine ⟨by decide +kernel,(hread _ _).mpr ⟨by decide,by decide,fun i _ => ?_⟩,fun hrun => ?_⟩
  · exact keepsByte_nul_behind _
  · exact not_keepsByte_otherDigit 0 (((hread _ _).mp hrun).2.2 0 (by decide))

end GsnNode
