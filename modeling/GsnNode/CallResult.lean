import GsnNode.MemoryRegion
import GsnNode.FuelLoop

/-! What a call of the program can end in, and the parts of the C++ standard
library that the modelled functions use on strings and integers. -/

set_option autoImplicit false

namespace GsnNode
open MemoryRegion

/-- `std::string`: any bytes, NUL included. -/
abbrev Text := List UInt8

def ascii (s : String) : Text := s.toList.map fun c => UInt8.ofNat c.toNat

def dot : UInt8 := 46
def colon : UInt8 := 58
def slash : UInt8 := 47
def question : UInt8 := 63
def bar : UInt8 := 124
def semicolon : UInt8 := 59
def nul : UInt8 := 0

inductive CppException where
  | transactionInvalidState
  | transactionReadFail
  | netspaceMalformedUrl
  | metaspaceDbFail
  | metaspaceQueryFail
  | dvspEmptyContent
  /-- `std::length_error` of `std::string::assign` -/
  | lengthError
  /-- `std::out_of_range` of `std::string::substr` -/
  | outOfRange
  /-- `boost::system::system_error` of `address::from_string` -/
  | badAddress
  /-- `std::bad_cast` of `address::to_v4` -/
  | badCast
  /-- whatever `http_service::send_frame` rethrows -/
  | sendFailed
  deriving DecidableEq, Repr

/-- The ways in which a call does not return. -/
inductive Stop where
  | throws : CppException → Stop
  /-- an exception leaves a `noexcept` function -/
  | terminates
  /-- a loop never ends -/
  | hangs
  /-- a fault, a double free or another undefined behaviour -/
  | undefined
  deriving DecidableEq, Repr

abbrev Call := Except Stop

@[simp] theorem ok_bind {ε α β : Type} (a : α) (f : α → Except ε β) :
    ((.ok a : Except ε α) >>= f) = f a := rfl

@[simp] theorem error_bind {ε α β : Type} (e : ε) (f : α → Except ε β) :
    ((.error e : Except ε α) >>= f) = .error e := rfl

@[simp] theorem pure_eq_ok {ε α : Type} (a : α) : (pure a : Except ε α) = .ok a := rfl

theorem bind_eq_ok {ε α β : Type} {x : Except ε α} {f : α → Except ε β} {b : β} :
    (x >>= f) = .ok b ↔ ∃ a, x = .ok a ∧ f a = .ok b := by
  cases x <;> simp

theorem exists_eq_ok {ε α : Type} {x : Except ε α} (h : x.isOk = true) : ∃ a, x = .ok a := by
  cases x with
  | error e => cases h
  | ok a => exact ⟨a,rfl⟩

theorem toOption_eq_some {ε α : Type} {x : Except ε α} {a : α} :
    x.toOption = some a ↔ x = .ok a := by
  cases x <;> simp [Except.toOption]

/-- The calls in a row are over exactly if each of them gives its part of the answer. -/
theorem mapM_range'_ok {ε β : Type} {f : Nat → Except ε β} {k m : Nat} {ys : List β} :
    (List.range' k m).mapM f = .ok ys ↔
      ys.length = m ∧ ∀ i (h : i < ys.length), f (k + i) = .ok ys[i] := by
  induction m generalizing k ys with
  | zero =>
    constructor
    · intro h
      obtain rfl : [] = ys := Except.ok.inj h
      exact ⟨rfl,fun i hi => absurd hi (Nat.not_lt_zero i)⟩
    · intro h
      rw [List.eq_nil_of_length_eq_zero h.1]
      rfl
  | succ m ih =>
    rw [List.range'_succ, List.mapM_cons, bind_eq_ok]
    constructor
    · intro h
      obtain ⟨y,hy,h⟩ := h
      obtain ⟨rest,hrest,h⟩ := bind_eq_ok.mp h
      obtain rfl : y :: rest = ys := Except.ok.inj h
      obtain ⟨hlen,hall⟩ := ih.mp hrest
      refine ⟨by rw [List.length_cons, hlen],fun i hi => ?_⟩
      cases i with
      | zero => exact hy
      | succ i =>
        have hnext := hall i (Nat.lt_of_succ_lt_succ hi)
        rwa [Nat.add_assoc, Nat.add_comm 1] at hnext
    · intro h
      obtain ⟨hlen,hall⟩ := h
      obtain ⟨y,rest,rfl⟩ := List.exists_cons_of_length_eq_add_one hlen
      rw [List.length_cons, Nat.add_right_cancel_iff] at hlen
      have hrest : (List.range' (k + 1) m).mapM f = .ok rest := by
        refine ih.mpr ⟨hlen,fun i hi => ?_⟩
        have hnext := hall (i + 1) (Nat.succ_lt_succ hi)
        rw [show k + (i + 1) = k + 1 + i by omega] at hnext
        exact hnext
      exact ⟨y,hall 0 (Nat.succ_pos _),bind_eq_ok.mpr ⟨rest,hrest,rfl⟩⟩

def throws {α : Type} (e : CppException) : Call α := .error (.throws e)

def undefined {α : Type} : Call α := .error .undefined

/-- A loop that runs out of fuel is one that never ends. -/
def ofLoop {α : Type} : Option (Call α) → Call α
  | some r => r
  | none => .error .hangs

@[simp] theorem ofLoop_eq_ok {α : Type} {o : Option (Call α)} {a : α} :
    ofLoop o = .ok a ↔ o = some (.ok a) := by
  cases o <;> simp [ofLoop]

@[simp] theorem ofLoop_eq_throws {α : Type} {o : Option (Call α)} {e : CppException} :
    ofLoop o = throws e ↔ o = some (throws e) := by
  cases o <;> simp [ofLoop, throws]

/-- `std::string::max_size()` -/
def maxStringSize : Nat := 2 ^ 63 - 2

def load (r : Region) (off n : Nat) : Call (List UInt8) :=
  match r.read off n with
  | some bs => .ok bs
  | none => undefined

/-- `std::string::assign(const char*, size_type)`, with the read that it makes. -/
def assign (n : Nat) (read : Call Text) : Call Text :=
  if maxStringSize < n then throws .lengthError else read

def substr (s : Text) (pos count : Nat) : Call Text :=
  if s.length < pos then throws .outOfRange else .ok ((s.drop pos).take count)

def sizeOfInt (x : Int) : Nat := (x % 2 ^ 64).toNat

def intOfNat (n : Nat) : Int :=
  if n % 2 ^ 32 < 2 ^ 31 then (n % 2 ^ 32 : Nat) else (n % 2 ^ 32 : Nat) - 2 ^ 32

/-- `char` is signed 8-bit. -/
def charValue (b : UInt8) : Int := b.toInt8.toInt

theorem charValue_eq (b : UInt8) :
    charValue b = if b.toNat < 128 then (b.toNat : Int) else b.toNat - 256 := by
  have h := BitVec.toInt_eq_toNat_cond b.toBitVec
  have hb : b.toBitVec.toNat = b.toNat := rfl
  have hc : charValue b = b.toBitVec.toInt := rfl
  rw [hc, h, hb]
  split <;> split <;> omega

theorem charValue_ofNat {n : Nat} (h : n < 128) : charValue (UInt8.ofNat n) = n := by
  have hn : (UInt8.ofNat n).toNat = n := by
    rw [UInt8.toNat_ofNat']
    omega
  rw [charValue_eq, hn, if_pos h]

theorem load_inside (r : Region) {off n : Nat} (h : off + n ≤ r.bytes.length) :
    load r off n = .ok ((r.bytes.drop off).take n) := by
  simp [load, r.read_inside h]

theorem load_eq_ok {r : Region} {off n : Nat} {bs : List UInt8} :
    load r off n = .ok bs ↔ r.read off n = some bs := by
  unfold load
  cases r.read off n <;> simp [undefined]

theorem load_length {r : Region} {off n : Nat} {bs : List UInt8}
    (h : load r off n = .ok bs) : bs.length = n :=
  Region.read_length (load_eq_ok.mp h)

end GsnNode
