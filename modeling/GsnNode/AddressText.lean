import GsnNode.ByteWords
import GsnNode.DecimalText
import GsnNode.CallResult
import GsnNode.DelimitedText

/-! `netspace_addr` and its text form. IPv4 addresses are written and read as
`inet_ntop` and `inet_pton` do; how an IPv6 address is written is a parameter. -/

set_option autoImplicit false

namespace GsnNode
open ByteWords DecimalText

abbrev NetspaceIpv4 := Block 4

def ipv4ToString (a : NetspaceIpv4) : Text :=
  [dot].intercalate (a.data.map fun b => decimal b.toNat)

/-- `inet_pton` takes no empty number, no superfluous zero and none above 255. -/
def readOctet (w : Text) : Option UInt8 :=
  if w ≠ [] ∧ (∀ c ∈ w, isDigit c = true) ∧ (w.head? = some 48 → w.length = 1) ∧
      decimalValue w < 256 then some (UInt8.ofNat (decimalValue w)) else none

def ipv4FromString (s : Text) : Option NetspaceIpv4 :=
  match (s.splitOn dot).map readOctet with
  | [some a,some b,some c,some d] => some ⟨[a,b,c,d],rfl⟩
  | _ => none

def percent : UInt8 := 37

def isHexDigit (c : UInt8) : Bool :=
  isDigit c || (65 ≤ c.toNat && c.toNat ≤ 70) || (97 ≤ c.toNat && c.toNat ≤ 102)

def isIpv6Char (c : UInt8) : Bool := isHexDigit c || c == colon || c == dot

/-- The text form of IPv6 addresses: reading inverts writing, and a text that is
read has a colon and only the characters of such addresses before the `%` that
starts a scope. -/
structure Ipv6Text (V6 : Type) where
  toText : V6 → Text
  fromText : Text → Option V6
  fromText_toText : ∀ a, fromText (toText a) = some a
  toText_nul : ∀ a, nul ∉ toText a
  fromText_colon : ∀ s a, fromText s = some a → colon ∈ s.takeWhile (· != percent)
  fromText_chars : ∀ s a, fromText s = some a →
    ∀ c ∈ s.takeWhile (· != percent), isIpv6Char c = true

def ipv4Only : Ipv6Text Empty where
  toText := Empty.elim
  fromText _ := none
  fromText_toText a := a.elim
  toText_nul a := a.elim
  fromText_colon _ a := a.elim
  fromText_chars _ a := a.elim

/-- `boost::asio::ip::address` -/
inductive NetspaceAddr (V6 : Type) where
  | v4 : NetspaceIpv4 → NetspaceAddr V6
  | v6 : V6 → NetspaceAddr V6
  deriving DecidableEq

def localhost : NetspaceAddr Empty := .v4 ⟨[127,0,0,1],rfl⟩

def cStr (s : Text) : Text := s.takeWhile (· != nul)

namespace NetspaceAddr
variable {V6 : Type} (asio : Ipv6Text V6)

def toString : NetspaceAddr V6 → Text
  | .v4 a => ipv4ToString a
  | .v6 a => asio.toText a

def read (s : Text) : Option (NetspaceAddr V6) :=
  match asio.fromText s with
  | some a => some (.v6 a)
  | none => (ipv4FromString s).map .v4

def fromString (s : Text) : Call (NetspaceAddr V6) :=
  match read asio (cStr s) with
  | some a => .ok a
  | none => throws .badAddress

def toV4 : NetspaceAddr V6 → Call NetspaceIpv4
  | .v4 a => .ok a
  | .v6 _ => throws .badCast

end NetspaceAddr

/-! ### Dotted decimals -/

theorem readOctet_decimal (b : UInt8) : readOctet (decimal b.toNat) = some b := by
  have hb := b.toNat_lt
  have hhead : (decimal b.toNat).head? = some 48 → (decimal b.toNat).length = 1 := by
    intro h
    rw [decimal_head h, decimal_zero]
    rfl
  rw [readOctet, if_pos ⟨decimal_ne_nil _,decimal_isDigit _,hhead,by simpa using hb⟩]
  simp

theorem readOctet_isDigit {w : Text} {b : UInt8} (h : readOctet w = some b) :
    ∀ c ∈ w, isDigit c = true := by
  unfold readOctet at h
  split at h
  · rename_i hw
    exact hw.2.1
  · contradiction

theorem dot_not_mem_decimal (n : Nat) : dot ∉ decimal n :=
  DelimitedText.not_mem_of_forall (decimal_isDigit n) (by decide)

theorem ipv4FromString_toString (a : NetspaceIpv4) : ipv4FromString (ipv4ToString a) = some a := by
  obtain ⟨data,hsize⟩ := a
  have hparts : (ipv4ToString ⟨data,hsize⟩).splitOn dot = data.map fun b => decimal b.toNat := by
    apply List.splitOn_intercalate
    · intro w hw
      obtain ⟨b,-,rfl⟩ := List.mem_map.mp hw
      exact dot_not_mem_decimal _
    · intro hnil
      have hdata : data = [] := List.map_eq_nil_iff.mp hnil
      simp [hdata] at hsize
  match data, hsize with
  | [a,b,c,d], _ => simp [ipv4FromString, hparts, readOctet_decimal]

def isIpv4Char (c : UInt8) : Bool := isDigit c || c == dot

theorem ipv4ToString_chars (a : NetspaceIpv4) : ∀ c ∈ ipv4ToString a, isIpv4Char c = true := by
  intro c hc
  rcases DelimitedText.mem_intercalate hc with ⟨w,hw,hcw⟩ | hc
  · obtain ⟨b,-,rfl⟩ := List.mem_map.mp hw
    simp [isIpv4Char, decimal_isDigit _ c hcw]
  · simp [isIpv4Char, List.mem_singleton.mp hc]

theorem ipv4FromString_chars {s : Text} {a : NetspaceIpv4} (h : ipv4FromString s = some a) :
    ∀ c ∈ s, isIpv4Char c = true := by
  have hparts : ∀ w ∈ s.splitOn dot, ∃ b, readOctet w = some b := by
    intro w hw
    have hmem : readOctet w ∈ (s.splitOn dot).map readOctet := List.mem_map_of_mem hw
    unfold ipv4FromString at h
    split at h
    · rename_i b₁ b₂ b₃ b₄ hmap
      rw [hmap] at hmem
      simp only [List.mem_cons, List.not_mem_nil, or_false] at hmem
      rcases hmem with hw | hw | hw | hw <;> exact ⟨_,hw⟩
    · contradiction
  intro c hc
  have hjoin : [dot].intercalate (s.splitOn dot) = s := List.intercalate_splitOn dot
  rw [← hjoin] at hc
  rcases DelimitedText.mem_intercalate hc with ⟨w,hw,hcw⟩ | hc
  · obtain ⟨b,hb⟩ := hparts w hw
    simp [isIpv4Char, readOctet_isDigit hb c hcw]
  · simp [isIpv4Char, List.mem_singleton.mp hc]

theorem ipv4ToString_free (a : NetspaceIpv4) {c : UInt8} (hc : isIpv4Char c = false) :
    c ∉ ipv4ToString a :=
  DelimitedText.not_mem_of_forall (ipv4ToString_chars a) hc

theorem ipv4Text_free {text : Text} {a : NetspaceIpv4} (h : ipv4FromString text = some a)
    {c : UInt8} (hc : isIpv4Char c = false) : c ∉ text :=
  DelimitedText.not_mem_of_forall (ipv4FromString_chars h) hc

/-! ### Addresses -/

section Addresses
variable {V6 : Type} (asio : Ipv6Text V6)

theorem cStr_eq_self {s : Text} (h : nul ∉ s) : cStr s = s := by
  rw [cStr, List.takeWhile_eq_self_iff]
  intro c hc
  simpa using fun hcn : c = nul => h (hcn ▸ hc)

theorem fromText_eq_none {s : Text} (h : colon ∉ s) : asio.fromText s = none := by
  cases hs : asio.fromText s with
  | none => rfl
  | some a => exact absurd ((List.takeWhile_sublist _).subset (asio.fromText_colon s a hs)) h

theorem NetspaceAddr.fromString_toString (a : NetspaceAddr V6) :
    NetspaceAddr.fromString asio (a.toString asio) = .ok a := by
  cases a with
  | v4 a =>
    have hnul : nul ∉ ipv4ToString a := ipv4ToString_free a (by decide)
    have hcolon : colon ∉ ipv4ToString a := ipv4ToString_free a (by decide)
    simp [fromString, read, toString, cStr_eq_self hnul, fromText_eq_none asio hcolon,
      ipv4FromString_toString]
  | v6 a =>
    simp [fromString, read, toString, cStr_eq_self (asio.toText_nul a), asio.fromText_toText]

end Addresses
end GsnNode
