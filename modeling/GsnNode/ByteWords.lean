import Mathlib

/-! Byte strings of a fixed length and unsigned words written least significant
byte first. Nothing here depends on what the bytes stand for. -/

set_option autoImplicit false

namespace ByteWords

def leBytes : Nat → Nat → List UInt8
  | 0, _ => []
  | width + 1, n => UInt8.ofNat n :: leBytes width (n / 256)

def leValue : List UInt8 → Nat
  | [] => 0
  | b :: bs => b.toNat + 256 * leValue bs

@[simp] theorem leBytes_length (width n : Nat) : (leBytes width n).length = width := by
  induction width generalizing n with
  | zero => rfl
  | succ width ih => simp [leBytes, ih]

@[simp] theorem leValue_leBytes (width n : Nat) :
    leValue (leBytes width n) = n % 256 ^ width := by
  induction width generalizing n with
  | zero => simp [leBytes, leValue, Nat.mod_one]
  | succ width ih =>
    have hb : (UInt8.ofNat n).toNat = n % 256 := by simp
    simp only [leBytes, leValue, ih, hb, pow_succ]
    rw [mul_comm (256 ^ width) 256, Nat.mod_mul]

theorem leValue_leBytes_of_lt {width n : Nat} (h : n < 256 ^ width) :
    leValue (leBytes width n) = n := by
  rw [leValue_leBytes, Nat.mod_eq_of_lt h]

theorem leBytes_leValue (bs : List UInt8) : leBytes bs.length (leValue bs) = bs := by
  induction bs with
  | nil => rfl
  | cons b bs ih =>
    have hb := b.toNat_lt
    have hfirst : UInt8.ofNat (b.toNat + 256 * leValue bs) = b := by
      apply UInt8.toNat_inj.mp
      rw [UInt8.toNat_ofNat']
      omega
    have hrest : (b.toNat + 256 * leValue bs) / 256 = leValue bs := by omega
    rw [List.length_cons, leValue, leBytes, hfirst, hrest, ih]

theorem leValue_lt (bs : List UInt8) : leValue bs < 256 ^ bs.length := by
  induction bs with
  | nil => simp [leValue]
  | cons b bs ih =>
    have hb := b.toNat_lt
    rw [leValue, List.length_cons, pow_succ]
    omega

theorem uint32_toNat_leValue {bs : List UInt8} (h : bs.length = 4) :
    (UInt32.ofNat (leValue bs)).toNat = leValue bs := by
  have hlt := leValue_lt bs
  rw [h] at hlt
  exact UInt32.toNat_ofNat_of_lt' hlt

theorem uint32_leValue_leBytes (x : UInt32) : UInt32.ofNat (leValue (leBytes 4 x.toNat)) = x := by
  rw [leValue_leBytes_of_lt x.toNat_lt, UInt32.ofNat_toNat]

theorem uint64_leValue_leBytes (x : UInt64) : UInt64.ofNat (leValue (leBytes 8 x.toNat)) = x := by
  rw [leValue_leBytes_of_lt x.toNat_lt, UInt64.ofNat_toNat]

/-- A byte string that is known to have length `n`. -/
structure Block (n : Nat) where
  data : List UInt8
  size_eq : data.length = n
  deriving DecidableEq, Repr

attribute [simp] Block.size_eq

@[ext] theorem Block.ext {n : Nat} {a b : Block n} (h : a.data = b.data) : a = b := by
  cases a; cases b; simp_all

def Block.ofList (n : Nat) (bs : List UInt8) : Block n :=
  ⟨(bs ++ List.replicate n 0).take n, by simp⟩

def Block.zero (n : Nat) : Block n := ⟨List.replicate n 0, by simp⟩

instance (n : Nat) : Inhabited (Block n) := ⟨Block.zero n⟩

theorem Block.data_ofList_take {n : Nat} {bs : List UInt8} (h : n ≤ bs.length) :
    (Block.ofList n bs).data = bs.take n :=
  List.take_append_of_le_length h

theorem Block.data_ofList {n : Nat} {bs : List UInt8} (h : bs.length = n) :
    (Block.ofList n bs).data = bs := by
  rw [Block.data_ofList_take h.ge, List.take_of_length_le h.le]

@[simp] theorem Block.ofList_data_append {n : Nat} (b : Block n) (rest : List UInt8) :
    Block.ofList n (b.data ++ rest) = b := by
  apply Block.ext
  obtain ⟨data, rfl⟩ := b
  simp [Block.ofList, List.append_assoc]

@[simp] theorem Block.ofList_data {n : Nat} (b : Block n) : Block.ofList n b.data = b := by
  simpa using b.ofList_data_append []

end ByteWords
