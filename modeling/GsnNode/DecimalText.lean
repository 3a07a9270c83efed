import Mathlib

/-! Natural numbers written in decimal ASCII digits, without leading zeros. -/

set_option autoImplicit false

namespace DecimalText

def digitByte (d : Nat) : UInt8 := UInt8.ofNat (48 + d)

def isDigit (c : UInt8) : Bool := 48 ≤ c.toNat && c.toNat ≤ 57

def decimalFuel : Nat → Nat → List UInt8
  | 0, _ => []
  | fuel + 1, n =>
    if n < 10 then [digitByte n] else decimalFuel fuel (n / 10) ++ [digitByte (n % 10)]

def decimal (n : Nat) : List UInt8 := decimalFuel (n + 1) n

def decimalValue (w : List UInt8) : Nat := w.foldl (fun v c => 10 * v + (c.toNat - 48)) 0

theorem digitByte_toNat {d : Nat} (h : d < 10) : (digitByte d).toNat = 48 + d := by
  simp only [digitByte, UInt8.toNat_ofNat']
  omega

theorem isDigit_digitByte {d : Nat} (h : d < 10) : isDigit (digitByte d) = true := by
  simp only [isDigit, digitByte_toNat h, Bool.and_eq_true, decide_eq_true_eq]
  omega

theorem decimalFuel_ne_nil (fuel n : Nat) : decimalFuel (fuel + 1) n ≠ [] := by
  unfold decimalFuel
  split <;> simp

theorem decimalFuel_isDigit (fuel n : Nat) : ∀ c ∈ decimalFuel fuel n, isDigit c = true := by
  induction fuel generalizing n with
  | zero => simp [decimalFuel]
  | succ fuel ih =>
    unfold decimalFuel
    split
    · rename_i hn
      simpa using isDigit_digitByte hn
    · intro c hc
      rcases List.mem_append.mp hc with hc | hc
      · exact ih (n / 10) c hc
      · rw [List.mem_singleton.mp hc]
        exact isDigit_digitByte (Nat.mod_lt n (by decide))

theorem decimalValue_decimalFuel {fuel n : Nat} (h : n < fuel) :
    decimalValue (decimalFuel fuel n) = n := by
  induction fuel generalizing n with
  | zero => omega
  | succ fuel ih =>
    unfold decimalFuel
    split
    · rename_i hn
      simp [decimalValue, digitByte_toNat hn]
    · rename_i hn
      have hrec := ih (n := n / 10) (by omega)
      have hlast := digitByte_toNat (Nat.mod_lt n (by decide : 0 < 10))
      simp only [decimalValue] at hrec
      simp only [decimalValue, List.foldl_append, hrec, List.foldl_cons, List.foldl_nil, hlast]
      omega

theorem decimalFuel_head {fuel n : Nat} (h : n < fuel)
    (hzero : (decimalFuel fuel n).head? = some 48) : n = 0 := by
  induction fuel generalizing n with
  | zero => omega
  | succ fuel ih =>
    unfold decimalFuel at hzero
    split at hzero
    · rename_i hn
      have hval := digitByte_toNat hn
      simp only [List.head?_cons, Option.some.injEq] at hzero
      rw [hzero] at hval
      simp at hval
      omega
    · rename_i hn
      have hne : decimalFuel fuel (n / 10) ≠ [] := by
        cases fuel with
        | zero => omega
        | succ fuel => exact decimalFuel_ne_nil fuel (n / 10)
      rw [List.head?_append_of_ne_nil _ hne] at hzero
      have := ih (n := n / 10) (by omega) hzero
      omega

theorem decimal_ne_nil (n : Nat) : decimal n ≠ [] := decimalFuel_ne_nil n n

theorem decimal_isDigit (n : Nat) : ∀ c ∈ decimal n, isDigit c = true := decimalFuel_isDigit _ n

@[simp] theorem decimalValue_decimal (n : Nat) : decimalValue (decimal n) = n :=
  decimalValue_decimalFuel (Nat.lt_succ_self n)

theorem decimal_head {n : Nat} (h : (decimal n).head? = some 48) : n = 0 :=
  decimalFuel_head (Nat.lt_succ_self n) h

theorem decimal_zero : decimal 0 = [48] := rfl

end DecimalText
