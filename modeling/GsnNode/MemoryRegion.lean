import Mathlib

/-! Reads through a pointer into a buffer. A read may run past the end of the
buffer; what it finds there is a parameter, so that a theorem about every region
is a theorem about every content of the neighbouring memory. -/

set_option autoImplicit false

namespace MemoryRegion

/-- A buffer and the memory that follows it. A byte that is `none` is not mapped:
touching it faults. -/
structure Region where
  bytes : List UInt8
  beyond : Nat → Option UInt8

def Region.byteAt (r : Region) (i : Nat) : Option UInt8 :=
  if i < r.bytes.length then r.bytes[i]? else r.beyond (i - r.bytes.length)

def Region.read (r : Region) (off : Nat) : Nat → Option (List UInt8)
  | 0 => some []
  | n + 1 => do
      let b ← r.byteAt off
      let bs ← r.read (off + 1) n
      pure (b :: bs)

@[simp] theorem Region.read_zero (r : Region) (off : Nat) : r.read off 0 = some [] := rfl

theorem Region.read_succ {r : Region} {off n : Nat} {bs : List UInt8} :
    r.read off (n + 1) = some bs ↔
      ∃ b rest, r.byteAt off = some b ∧ r.read (off + 1) n = some rest ∧ bs = b :: rest := by
  cases hb : r.byteAt off with
  | none => simp [read, hb]
  | some b =>
    cases hr : r.read (off + 1) n with
    | none => simp [read, hb, hr]
    | some rest => simp [read, hb, hr, eq_comm]

theorem Region.read_length {r : Region} {off n : Nat} {bs : List UInt8}
    (h : r.read off n = some bs) : bs.length = n := by
  induction n generalizing off bs with
  | zero =>
    simp only [read_zero, Option.some.injEq] at h
    subst bs
    rfl
  | succ n ih =>
    obtain ⟨b,rest,-,hr,rfl⟩ := read_succ.mp h
    rw [List.length_cons, ih hr]

theorem Region.read_getElem? {r : Region} {off n i : Nat} {bs : List UInt8}
    (h : r.read off n = some bs) (hi : i < n) : bs[i]? = r.byteAt (off + i) := by
  induction n generalizing off i bs with
  | zero => omega
  | succ n ih =>
    obtain ⟨b,rest,hb,hr,rfl⟩ := read_succ.mp h
    cases i with
    | zero => simp [hb]
    | succ i =>
      have hrest := ih hr (i := i) (by omega)
      rw [List.getElem?_cons_succ, hrest]
      congr 1
      omega

theorem Region.read_inside (r : Region) {off n : Nat} (h : off + n ≤ r.bytes.length) :
    r.read off n = some ((r.bytes.drop off).take n) := by
  induction n generalizing off with
  | zero => simp
  | succ n ih =>
    have hoff : off < r.bytes.length := by omega
    have hbyte : r.byteAt off = some r.bytes[off] := by simp [byteAt, hoff]
    simp only [read, hbyte, ih (show off + 1 + n ≤ r.bytes.length by omega)]
    rw [List.drop_eq_getElem_cons hoff]
    rfl

theorem Region.read_unmapped {r : Region} {off n : Nat} (hb : ∀ i, r.beyond i = none)
    (h : r.bytes.length < off + n) (hn : 0 < n) : r.read off n = none := by
  induction n generalizing off with
  | zero => omega
  | succ n ih =>
    by_cases hoff : off < r.bytes.length
    · have hrest : r.read (off + 1) n = none := ih (by omega) (by omega)
      simp [read, hrest]
    · simp [read, byteAt, hoff, hb]

theorem Region.read_mapped {r : Region} (hb : ∀ i, (r.beyond i).isSome) (off n : Nat) :
    ∃ bs, r.read off n = some bs := by
  induction n generalizing off with
  | zero => exact ⟨[], rfl⟩
  | succ n ih =>
    obtain ⟨bs, hbs⟩ := ih (off + 1)
    have hbyte : ∃ b, r.byteAt off = some b := by
      by_cases hoff : off < r.bytes.length
      · exact ⟨r.bytes[off], by simp [byteAt, hoff]⟩
      · simpa [byteAt, hoff] using Option.isSome_iff_exists.mp (hb _)
    obtain ⟨b, hb⟩ := hbyte
    exact ⟨b :: bs,read_succ.mpr ⟨b,bs,hb,hbs,rfl⟩⟩

theorem Region.read_isSome_iff (r : Region) (off n : Nat) :
    (r.read off n).isSome ↔ ∀ i < n, (r.byteAt (off + i)).isSome := by
  induction n generalizing off with
  | zero => simp
  | succ n ih =>
    have hrest := ih (off + 1)
    constructor
    · intro h i hi
      obtain ⟨bs,hbs⟩ := Option.isSome_iff_exists.mp h
      obtain ⟨b,rest,hb,hr,rfl⟩ := read_succ.mp hbs
      cases i with
      | zero => simp [hb]
      | succ i =>
        have hi := hrest.mp (by simp [hr]) i (by omega)
        rwa [Nat.add_assoc, Nat.add_comm 1] at hi
    · intro h
      obtain ⟨b,hb⟩ := Option.isSome_iff_exists.mp (h 0 (by omega))
      have hread : (r.read (off + 1) n).isSome := hrest.mpr fun i hi => by
        rw [Nat.add_assoc, Nat.add_comm 1]
        exact h (i + 1) (by omega)
      obtain ⟨bs,hbs⟩ := Option.isSome_iff_exists.mp hread
      rw [Nat.add_zero] at hb
      exact Option.isSome_iff_exists.mpr ⟨b :: bs,read_succ.mpr ⟨b,bs,hb,hbs,rfl⟩⟩

/-- A read that is longer than the buffer begins with it. -/
theorem Region.bytes_prefix {r : Region} {n : Nat} {bs : List UInt8} (h : r.read 0 n = some bs)
    (hn : r.bytes.length ≤ n) : r.bytes <+: bs := by
  refine List.prefix_iff_getElem?.mpr fun i hi => ?_
  rw [read_getElem? h (by omega), Nat.zero_add, byteAt, if_pos hi]
  exact List.getElem?_eq_getElem hi

end MemoryRegion
