import GsnNode.AddressText
import GsnNode.PointerScan

/-! What the C library reads through a pointer without a length: a string up to its
NUL, and a number as far as it goes. -/

set_option autoImplicit false

namespace GsnNode
open MemoryRegion FuelLoop

/-- The number of addresses. A scan that is not over after as many bytes never ends. -/
def addressSpace : Nat := 2 ^ 64

/-- The position of the first byte from `off` on that does not meet `p`. -/
def scan (p : UInt8 → Bool) (str : Region) (off : Nat) : Call Nat :=
  ofLoop (run (scanTurn .undefined p str) addressSpace off)

def strlen (str : Region) (off : Nat) : Call Nat := do
  let n ← scan (· != nul) str off
  pure (n - off)

def loadByte (str : Region) (off : Nat) : Call UInt8 :=
  match str.byteAt off with
  | some b => pure b
  | none => undefined

def isSpace (c : UInt8) : Bool := c == 32 || (9 ≤ c.toNat && c.toNat ≤ 13)

def plus : UInt8 := 43
def minus : UInt8 := 45

def hexValue (c : UInt8) : Nat :=
  if c.toNat ≤ 57 then c.toNat - 48 else if c.toNat ≤ 70 then c.toNat - 55 else c.toNat - 87

/-- The position after `0x` or `0X`. -/
def skipHexMark (str : Region) (i : Nat) : Call Nat := do
  let c ← loadByte str i
  if c = 48 then do
    let d ← loadByte str (i + 1)
    pure (if d = 120 ∨ d = 88 then i + 2 else i)
  else pure i

/-- A value that no `long` has is replaced by the nearest one. -/
def clampLong (x : Int) : Int := max (-2 ^ 63) (min x (2 ^ 63 - 1))

/-- `strtol(str, NULL, 16)` -/
def strtol16 (str : Region) : Call Int := do
  let i ← scan isSpace str 0
  let sign ← loadByte str i
  let i ← skipHexMark str (if sign = plus ∨ sign = minus then i + 1 else i)
  let n ← scan isHexDigit str i
  let digits ← load str i (n - i)
  let value := digits.foldl (fun v c => 16 * v + hexValue c) 0
  pure (clampLong (if sign = minus then -value else value))

example : strtol16 ⟨ascii " -0x1fg",fun _ => none⟩ = .ok (-31) := by decide +kernel

/-! ### Scans -/

section Scans
variable {p : UInt8 → Bool} {str : Region} {off n : Nat}

theorem scan_ok : scan p str off = .ok n ↔ str.StopsAt p off n ∧ n < off + addressSpace := by
  rw [← run_scan Stop.undefined, scan, ofLoop_eq_ok]

theorem scan_ne_throws (e : CppException) : scan p str off ≠ throws e := by
  intro h
  rw [scan, ofLoop_eq_throws] at h
  exact absurd (run_scan_error _ _ _ h) (by simp)

theorem strlen_ok : strlen str off = .ok n ↔
    str.StopsAt (· != nul) off (off + n) ∧ n < addressSpace := by
  rw [strlen, bind_eq_ok]
  constructor
  · intro ⟨m,hm,heq⟩
    obtain ⟨hstop,hlt⟩ := scan_ok.mp hm
    have hle := hstop.le
    obtain rfl : m - off = n := by simpa using heq
    rw [Nat.add_sub_cancel' hle]
    exact ⟨hstop,by omega⟩
  · intro ⟨hstop,hlt⟩
    exact ⟨off + n,scan_ok.mpr ⟨hstop,by omega⟩,by simp⟩

end Scans

theorem strlen_text {str : Region} {text : Text} (h : str.HoldsText text)
    (hshort : text.length < addressSpace) : strlen str 0 = .ok text.length :=
  strlen_ok.mpr ⟨by rw [Nat.zero_add]; exact h.stopsAt,hshort⟩

/-! ### Numbers -/

/-- Behind the digits there is a byte that ends them. -/
def DigitsEnd (behind : Nat → Option UInt8) : Prop :=
  ∃ n, (Region.mk [] behind).StopsAt isHexDigit 0 n ∧ n + 2 < addressSpace

section Numbers
variable {str : Region}

theorem loadByte_ne_throws (off : Nat) (e : CppException) : loadByte str off ≠ throws e := by
  cases hb : str.byteAt off <;> simp [loadByte, hb, undefined, throws]

theorem load_ne_throws (off n : Nat) (e : CppException) : load str off n ≠ throws e := by
  cases hr : str.read off n <;> simp [load, hr, undefined, throws]

theorem bind_ne_throws {α β : Type} {x : Call α} {f : α → Call β} {e : CppException}
    (hx : x ≠ throws e) (hf : ∀ a, f a ≠ throws e) : (x >>= f) ≠ throws e := by
  cases x with
  | error s => simpa [throws] using hx
  | ok a => exact hf a

theorem strtol16_ne_throws (e : CppException) : strtol16 str ≠ throws e := by
  refine bind_ne_throws (scan_ne_throws e) fun i => ?_
  refine bind_ne_throws (loadByte_ne_throws i e) fun sign => ?_
  refine bind_ne_throws ?_ fun j => ?_
  · refine bind_ne_throws (loadByte_ne_throws _ e) fun c => ?_
    by_cases hc : c = 48
    · rw [if_pos hc]
      exact bind_ne_throws (loadByte_ne_throws _ e) fun d => by simp [throws]
    · simp [hc, throws]
  · refine bind_ne_throws (scan_ne_throws e) fun n => ?_
    exact bind_ne_throws (load_ne_throws j _ e) fun digits => by simp [throws]

theorem isHexDigit_cases {c : UInt8} (h : isHexDigit c = true) :
    isSpace c = false ∧ c ≠ plus ∧ c ≠ minus ∧ c ≠ 120 ∧ c ≠ 88 := by
  revert c
  decide +kernel

/-- Digits begin at the first byte: there is no blank, no sign and no mark. -/
theorem strtol16_pair {a b : UInt8} (ha : isHexDigit a = true) (hb : isHexDigit b = true)
    (behind : Nat → Option UInt8) :
    strtol16 ⟨[a,b],behind⟩ =
      (scan isHexDigit ⟨[a,b],behind⟩ 0 >>= fun n => load ⟨[a,b],behind⟩ 0 n >>= fun digits =>
        pure (clampLong (digits.foldl (fun v c => 16 * v + hexValue c) 0 : Nat))) := by
  obtain ⟨hspace,hplus,hminus,-,-⟩ := isHexDigit_cases ha
  obtain ⟨-,-,-,hx,hX⟩ := isHexDigit_cases hb
  have hfirst : (Region.mk [a,b] behind).byteAt 0 = some a := rfl
  have hload : loadByte ⟨[a,b],behind⟩ 0 = .ok a := rfl
  have hload' : loadByte ⟨[a,b],behind⟩ 1 = .ok b := rfl
  have hstart : scan isSpace ⟨[a,b],behind⟩ 0 = .ok 0 :=
    scan_ok.mpr ⟨(Region.stopsAt_here hfirst hspace).mpr rfl,by decide⟩
  have hmark : skipHexMark ⟨[a,b],behind⟩ 0 = .ok 0 := by
    rw [skipHexMark, hload, ok_bind]
    by_cases hzero : a = 48
    · rw [if_pos hzero, hload', ok_bind, if_neg (by simp [hx, hX])]
      rfl
    · rw [if_neg hzero]
      rfl
  simp [strtol16, hstart, hload, hplus, hminus, hmark]

def hexNumber (digits : Text) : Nat := digits.foldl (fun v c => 16 * v + hexValue c) 0

theorem foldl_hexValue (digits : Text) (v : Nat) :
    digits.foldl (fun v c => 16 * v + hexValue c) v = v * 16 ^ digits.length + hexNumber digits := by
  induction digits generalizing v with
  | nil => simp [hexNumber]
  | cons c digits ih =>
    rw [hexNumber, List.foldl_cons, List.foldl_cons, ih, ih, List.length_cons, pow_succ]
    ring

theorem hexNumber_append (digits digits' : Text) :
    hexNumber (digits ++ digits') =
      hexNumber digits * 16 ^ digits'.length + hexNumber digits' := by
  rw [hexNumber, List.foldl_append, foldl_hexValue digits']
  rfl

/-- The digits in memory up to the first other byte. -/
structure DigitsBehind (behind : Nat → Option UInt8) (e : Text) : Prop where
  stop : (Region.mk [] behind).StopsAt isHexDigit 0 e.length
  read : (Region.mk [] behind).read 0 e.length = some e
  short : e.length + 2 < addressSpace

theorem DigitsBehind.unique {behind : Nat → Option UInt8} {e e' : Text}
    (h : DigitsBehind behind e) (h' : DigitsBehind behind e') : e = e' := by
  have hread := h.read
  rw [h.stop.unique h'.stop, h'.read] at hread
  exact (Option.some.inj hread).symm

/-- The digits of a text, and a byte that ends them. -/
theorem digitsBehind_text {behind : Nat → Option UInt8} {e : Text} {x : UInt8}
    (hbytes : ∀ i (hi : i < e.length), behind i = some e[i])
    (hdigits : ∀ c ∈ e, isHexDigit c = true) (hlast : behind e.length = some x)
    (hx : isHexDigit x = false) (hshort : e.length + 2 < addressSpace) :
    DigitsBehind behind e := by
  have hbyte : ∀ i, (Region.mk [] behind).byteAt i = behind i := fun _ => rfl
  have hstop : (Region.mk [] behind).StopsAt isHexDigit 0 e.length :=
    ⟨Nat.zero_le _,⟨x,hlast,hx⟩,fun i _ hi => ⟨e[i],hbytes i hi,hdigits _ (List.getElem_mem hi)⟩⟩
  obtain ⟨bs,hread⟩ := Option.isSome_iff_exists.mp hstop.read_isSome
  have hlen : bs.length = e.length := Region.read_length hread
  obtain rfl : bs = e := by
    refine List.ext_getElem hlen fun i hi hi' => ?_
    have hget := Region.read_getElem? hread (show i < e.length - 0 by omega)
    rw [Nat.zero_add, hbyte, hbytes i hi', List.getElem?_eq_getElem hi] at hget
    exact Option.some.inj hget
  exact ⟨hstop,hread,hshort⟩

theorem digitsEnd_iff {behind : Nat → Option UInt8} :
    DigitsEnd behind ↔ ∃ e, DigitsBehind behind e := by
  constructor
  · intro h
    obtain ⟨n,hstop,hlt⟩ := h
    obtain ⟨e,he⟩ := Option.isSome_iff_exists.mp hstop.read_isSome
    obtain rfl : e.length = n := Region.read_length he
    exact ⟨e,hstop,he,hlt⟩
  · intro h
    obtain ⟨e,he⟩ := h
    exact ⟨e.length,he.stop,he.short⟩

theorem read_pair {a b : UInt8} {behind : Nat → Option UInt8} {k : Nat} {bs : List UInt8} :
    (Region.mk [a,b] behind).read 0 (k + 2) = some bs ↔
      ∃ e, (Region.mk [] behind).read 0 k = some e ∧ bs = a :: b :: e := by
  have hrest := Region.read_append [a,b] [] behind 0 k
  rw [List.append_nil] at hrest
  have hfirst : (Region.mk [a,b] behind).byteAt 0 = some a := rfl
  have hsecond : (Region.mk [a,b] behind).byteAt 1 = some b := rfl
  have htail : (Region.mk [a,b] behind).read 2 k = (Region.mk [] behind).read 0 k := hrest
  constructor
  · intro h
    obtain ⟨x,bs',hx,hbs',rfl⟩ := Region.read_succ.mp h
    obtain ⟨y,e,hy,he,rfl⟩ := Region.read_succ.mp hbs'
    rw [hfirst, Option.some.injEq] at hx
    rw [hsecond, Option.some.injEq] at hy
    rw [htail] at he
    exact ⟨e,he,by rw [hx, hy]⟩
  · intro h
    obtain ⟨e,he,rfl⟩ := h
    rw [← htail] at he
    exact Region.read_succ.mpr ⟨a,b :: e,hfirst,Region.read_succ.mpr ⟨b,e,hsecond,he,rfl⟩,rfl⟩

/-- Two digits are a number, and the memory behind them is read for more. -/
theorem strtol16_pair_ok {a b : UInt8} (ha : isHexDigit a = true) (hb : isHexDigit b = true)
    {behind : Nat → Option UInt8} {v : Int} :
    strtol16 ⟨[a,b],behind⟩ = .ok v ↔
      ∃ e, DigitsBehind behind e ∧ v = clampLong (hexNumber (a :: b :: e)) := by
  have hdigits : ∀ c ∈ [a,b], isHexDigit c = true := by simp [ha, hb]
  rw [strtol16_pair ha hb]
  constructor
  · intro h
    obtain ⟨n,hn,hrest⟩ := bind_eq_ok.mp h
    obtain ⟨bs,hbs,hvalue⟩ := bind_eq_ok.mp hrest
    obtain ⟨hstop,hlt⟩ := scan_ok.mp hn
    obtain ⟨k,rfl⟩ := Nat.exists_eq_add_of_le (hstop.length_le hdigits)
    rw [Region.stopsAt_beyond hdigits] at hstop
    rw [load_eq_ok, List.length_cons, List.length_singleton, Nat.add_comm, read_pair] at hbs
    obtain ⟨e,he,rfl⟩ := hbs
    obtain rfl : e.length = k := Region.read_length he
    refine ⟨e,⟨hstop,he,?_⟩,(Except.ok.inj hvalue).symm⟩
    rw [List.length_cons, List.length_singleton] at hlt
    omega
  · intro h
    obtain ⟨e,he,rfl⟩ := h
    have hshort := he.short
    have hscan : scan isHexDigit ⟨[a,b],behind⟩ 0 = .ok ([a,b].length + e.length) := by
      refine scan_ok.mpr ⟨(Region.stopsAt_beyond hdigits).mpr he.stop,?_⟩
      rw [List.length_cons, List.length_singleton]
      omega
    have hload : load ⟨[a,b],behind⟩ 0 ([a,b].length + e.length) = .ok (a :: b :: e) := by
      rw [load_eq_ok, List.length_cons, List.length_singleton, Nat.add_comm, read_pair]
      exact ⟨e,he.read,rfl⟩
    rw [hscan, ok_bind, hload, ok_bind]
    rfl

theorem strtol16_digits {a b : UInt8} (ha : isHexDigit a = true) (hb : isHexDigit b = true)
    (behind : Nat → Option UInt8) :
    (∃ v, strtol16 ⟨[a,b],behind⟩ = .ok v) ↔ DigitsEnd behind := by
  simp only [strtol16_pair_ok ha hb, digitsEnd_iff]
  constructor
  · intro h
    obtain ⟨v,e,he,-⟩ := h
    exact ⟨e,he⟩
  · intro h
    obtain ⟨e,he⟩ := h
    exact ⟨_,e,he,rfl⟩

/-- With a NUL behind them any two characters are a number. -/
theorem strtol16_nul_behind (a b : UInt8) :
    ∃ v, strtol16 ⟨[a,b],fun _ => some nul⟩ = .ok v := by
  have hbyte : ∀ i, 2 ≤ i → (Region.mk [a,b] fun _ => some nul).byteAt i = some nul :=
    fun i hi => if_neg (Nat.not_lt.mpr hi)
  have hmapped : ∀ i, ∃ c, (Region.mk [a,b] fun _ => some nul).byteAt i = some c := by
    intro i
    match i with
    | 0 => exact ⟨a,rfl⟩
    | 1 => exact ⟨b,rfl⟩
    | i + 2 => exact ⟨nul,hbyte _ (by omega)⟩
  have hload : ∀ off, ∃ c, loadByte ⟨[a,b],fun _ => some nul⟩ off = .ok c := by
    intro off
    obtain ⟨c,hc⟩ := hmapped off
    exact ⟨c,by rw [loadByte, hc]; rfl⟩
  have hscan : ∀ p : UInt8 → Bool, p nul = false → ∀ off,
      ∃ n, scan p ⟨[a,b],fun _ => some nul⟩ off = .ok n := by
    intro p hp off
    obtain ⟨n,hn,hstop⟩ := Region.exists_stopsAt hmapped (show off ≤ off + 2 by omega)
      (hbyte _ (by omega)) hp
    exact ⟨n,scan_ok.mpr ⟨hstop,by unfold addressSpace; omega⟩⟩
  obtain ⟨i,hi⟩ := hscan isSpace rfl 0
  obtain ⟨sign,hsign⟩ := hload i
  obtain ⟨j,hj⟩ : ∃ j, skipHexMark ⟨[a,b],fun _ => some nul⟩
      (if sign = plus ∨ sign = minus then i + 1 else i) = .ok j := by
    obtain ⟨c,hc⟩ := hload (if sign = plus ∨ sign = minus then i + 1 else i)
    obtain ⟨d,hd⟩ := hload ((if sign = plus ∨ sign = minus then i + 1 else i) + 1)
    by_cases hzero : c = 48
    · exact ⟨_,by rw [skipHexMark, hc, ok_bind, if_pos hzero, hd]; rfl⟩
    · exact ⟨_,by rw [skipHexMark, hc, ok_bind, if_neg hzero]; rfl⟩
  obtain ⟨n,hn⟩ := hscan isHexDigit rfl j
  obtain ⟨digits,hdigits⟩ := Region.read_mapped
    (r := ⟨[a,b],fun _ => some nul⟩) (fun _ => rfl) j (n - j)
  exact ⟨_,by simp only [strtol16, hi, ok_bind, hsign, hj, hn, load_eq_ok.mpr hdigits]; rfl⟩

end Numbers
end GsnNode
