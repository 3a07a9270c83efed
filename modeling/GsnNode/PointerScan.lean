import GsnNode.FuelLoop
import GsnNode.MemoryRegion

/-! Reads that go on byte by byte for as long as the bytes are of a kind. -/

set_option autoImplicit false

namespace MemoryRegion
open FuelLoop

/-- The bytes from `off` on meet `p` up to the one at `n`, and all of them are mapped. -/
structure Region.StopsAt (r : Region) (p : UInt8 → Bool) (off n : Nat) : Prop where
  le : off ≤ n
  last : ∃ b, r.byteAt n = some b ∧ p b = false
  before : ∀ i, off ≤ i → i < n → ∃ b, r.byteAt i = some b ∧ p b = true

namespace Region
variable {r : Region} {p : UInt8 → Bool} {off n : Nat} {b : UInt8}

theorem StopsAt.read_isSome (h : r.StopsAt p off n) : (r.read off (n - off)).isSome := by
  rw [read_isSome_iff]
  intro i hi
  obtain ⟨b,hb,-⟩ := h.before (off + i) (by omega) (by omega)
  rw [hb]
  rfl

theorem StopsAt.unique {m : Nat} (h : r.StopsAt p off n) (h' : r.StopsAt p off m) : n = m := by
  obtain ⟨b,hb,hpb⟩ := h.last
  obtain ⟨c,hc,hpc⟩ := h'.last
  rcases Nat.lt_trichotomy n m with hlt | heq | hlt
  · obtain ⟨d,hd,hpd⟩ := h'.before n h.le hlt
    simp_all
  · exact heq
  · obtain ⟨d,hd,hpd⟩ := h.before m h'.le hlt
    simp_all

theorem stopsAt_here (hb : r.byteAt off = some b) (hp : p b = false) :
    r.StopsAt p off n ↔ n = off := by
  constructor
  · intro h
    by_contra hne
    obtain ⟨c,hc,hpc⟩ := h.before off le_rfl (by have := h.le; omega)
    simp_all
  · intro heq
    subst heq
    exact ⟨le_rfl,⟨b,hb,hp⟩,fun i hle hlt => by omega⟩

theorem stopsAt_succ (hb : r.byteAt off = some b) (hp : p b = true) :
    r.StopsAt p off n ↔ r.StopsAt p (off + 1) n := by
  constructor
  · intro h
    have hne : off ≠ n := by
      intro heq
      obtain ⟨c,hc,hpc⟩ := h.last
      rw [← heq, hb, Option.some.injEq] at hc
      simp_all
    have hle := h.le
    exact ⟨by omega,h.last,fun i hi hlt => h.before i (by omega) hlt⟩
  · intro h
    have hle := h.le
    refine ⟨by omega,h.last,fun i hi hlt => ?_⟩
    by_cases heq : off = i
    · exact ⟨b,by rw [← heq]; exact hb,hp⟩
    · exact h.before i (by omega) hlt

/-- A text that ends in the first byte of another kind. -/
theorem stopsAt_text {text : List UInt8} {beyond : Nat → Option UInt8}
    (htext : ∀ c ∈ text, p c = true) (hb : p b = false) :
    (Region.mk (text ++ [b]) beyond).StopsAt p 0 text.length := by
  refine ⟨Nat.zero_le _,⟨b,?_,hb⟩,fun i _ hi => ⟨text[i],?_,htext _ (List.getElem_mem hi)⟩⟩
  · simp [byteAt]
  · have hlt : i < (text ++ [b]).length := by rw [List.length_append]; omega
    simp [byteAt, hi, Nat.lt_succ_of_lt hi]

theorem byteAt_append (bytes bytes' : List UInt8) (beyond : Nat → Option UInt8) (i : Nat) :
    (Region.mk (bytes ++ bytes') beyond).byteAt (bytes.length + i) =
      (Region.mk bytes' beyond).byteAt i := by
  by_cases hi : i < bytes'.length
  · simp [byteAt, hi]
  · have hbehind : bytes.length + i - (bytes.length + bytes'.length) = i - bytes'.length := by omega
    simp [byteAt, hi, hbehind]

theorem read_append (bytes bytes' : List UInt8) (beyond : Nat → Option UInt8) (off n : Nat) :
    (Region.mk (bytes ++ bytes') beyond).read (bytes.length + off) n =
      (Region.mk bytes' beyond).read off n := by
  induction n generalizing off with
  | zero => rfl
  | succ n ih =>
    have hrest := ih (off + 1)
    rw [← Nat.add_assoc] at hrest
    simp only [read, byteAt_append, hrest]

theorem stopsAt_append {bytes bytes' : List UInt8} {beyond : Nat → Option UInt8} :
    (Region.mk (bytes ++ bytes') beyond).StopsAt p bytes.length (bytes.length + n) ↔
      (Region.mk bytes' beyond).StopsAt p 0 n := by
  constructor
  · intro h
    refine ⟨Nat.zero_le _,by rw [← byteAt_append bytes]; exact h.last,fun i _ hi => ?_⟩
    rw [← byteAt_append bytes]
    exact h.before _ (by omega) (by omega)
  · intro h
    refine ⟨by omega,by rw [byteAt_append]; exact h.last,fun i hle hi => ?_⟩
    obtain ⟨k,rfl⟩ := Nat.exists_eq_add_of_le hle
    rw [byteAt_append]
    exact h.before k (Nat.zero_le _) (by omega)

/-- A scan goes through bytes that meet `p`. -/
theorem stopsAt_of_le {m : Nat} (hbytes : ∀ i < m, ∃ b, r.byteAt i = some b ∧ p b = true)
    (hm : m ≤ n) : r.StopsAt p 0 n ↔ r.StopsAt p m n := by
  constructor
  · exact fun h => ⟨hm,h.last,fun i _ hi => h.before i (Nat.zero_le _) hi⟩
  · intro h
    refine ⟨Nat.zero_le _,h.last,fun i _ hi => ?_⟩
    by_cases hlt : i < m
    · exact hbytes i hlt
    · exact h.before i (not_lt.mp hlt) hi

theorem stopsAt_beyond {bytes : List UInt8} {beyond : Nat → Option UInt8}
    (hbytes : ∀ c ∈ bytes, p c = true) :
    (Region.mk bytes beyond).StopsAt p 0 (bytes.length + n) ↔
      (Region.mk [] beyond).StopsAt p 0 n := by
  have hinside : ∀ i < bytes.length, ∃ b, (Region.mk bytes beyond).byteAt i = some b ∧ p b = true :=
    fun i hi => ⟨bytes[i],by simp [byteAt, hi],hbytes _ (List.getElem_mem hi)⟩
  rw [stopsAt_of_le hinside (by omega)]
  have happend := @stopsAt_append p n bytes [] beyond
  rwa [List.append_nil] at happend

theorem StopsAt.length_le {bytes : List UInt8} {beyond : Nat → Option UInt8}
    (h : (Region.mk bytes beyond).StopsAt p 0 n) (hbytes : ∀ c ∈ bytes, p c = true) :
    bytes.length ≤ n := by
  by_contra hlt
  obtain ⟨b,hb,hpb⟩ := h.last
  have hn : n < bytes.length := not_le.mp hlt
  have hin := hbytes bytes[n] (List.getElem_mem hn)
  rw [byteAt, if_pos hn, List.getElem?_eq_getElem hn, Option.some.injEq] at hb
  rw [hb, hpb] at hin
  contradiction

/-- A byte at `m` that ends the scan, or one before it does. -/
theorem exists_stopsAt (hmapped : ∀ i, ∃ b, r.byteAt i = some b) {m : Nat} (hoff : off ≤ m)
    (hb : r.byteAt m = some b) (hp : p b = false) : ∃ n, n ≤ m ∧ r.StopsAt p off n := by
  obtain ⟨k,rfl⟩ := Nat.exists_eq_add_of_le hoff
  induction k generalizing off with
  | zero => exact ⟨off,le_rfl,(stopsAt_here hb hp).mpr rfl⟩
  | succ k ih =>
    obtain ⟨c,hc⟩ := hmapped off
    cases hpc : p c with
    | false => exact ⟨off,by omega,(stopsAt_here hc hpc).mpr rfl⟩
    | true =>
      obtain ⟨n,hn,hstop⟩ := @ih (off + 1) (by omega) (by rwa [Nat.add_right_comm])
      exact ⟨n,by omega,(stopsAt_succ hc hpc).mpr hstop⟩

/-- A string that is read through a pointer: the text and its NUL. -/
structure HoldsText (r : Region) (text : List UInt8) : Prop where
  free : (0 : UInt8) ∉ text
  byteAt : ∀ i (h : i < text.length), r.byteAt i = some text[i]
  last : r.byteAt text.length = some 0

section HoldsText
variable {text : List UInt8}

theorem HoldsText.stopsAt (h : r.HoldsText text) : r.StopsAt (· != 0) 0 text.length := by
  refine ⟨Nat.zero_le _,⟨0,h.last,rfl⟩,fun i _ hi => ⟨text[i],h.byteAt i hi,?_⟩⟩
  exact bne_iff_ne.mpr fun heq => h.free (heq ▸ List.getElem_mem hi)

theorem HoldsText.read (h : r.HoldsText text) : r.read 0 text.length = some text := by
  obtain ⟨bs,hread⟩ := Option.isSome_iff_exists.mp h.stopsAt.read_isSome
  rw [Nat.sub_zero] at hread
  have hlen := read_length hread
  obtain rfl : bs = text := by
    refine List.ext_getElem hlen fun i hi hi' => ?_
    have hget := read_getElem? hread hi'
    rw [Nat.zero_add, h.byteAt i hi', List.getElem?_eq_getElem hi] at hget
    exact Option.some.inj hget
  exact hread

/-- The text ends inside the buffer. -/
theorem holdsText_inside (hfree : (0 : UInt8) ∉ text) (rest : List UInt8)
    (beyond : Nat → Option UInt8) : (Region.mk (text ++ 0 :: rest) beyond).HoldsText text := by
  refine ⟨hfree,fun i hi => ?_,?_⟩
  · have hlt : i < (text ++ 0 :: rest).length := by
      rw [List.length_append]
      omega
    rw [Region.byteAt, if_pos hlt, List.getElem?_append_left hi, List.getElem?_eq_getElem hi]
  · simp [Region.byteAt]

end HoldsText
end Region

section Scan
variable {ε : Type} (fault : ε) (p : UInt8 → Bool) (r : Region)

def scanTurn (off : Nat) : Except ε (Turn Nat Nat) :=
  match r.byteAt off with
  | none => .error fault
  | some b => if p b = true then .ok (.next (off + 1)) else .ok (.done off)

theorem run_scan (fuel off n : Nat) :
    run (scanTurn fault p r) fuel off = some (.ok n) ↔ r.StopsAt p off n ∧ n < off + fuel := by
  induction fuel generalizing off with
  | zero =>
    constructor
    · intro h
      simp [run] at h
    · intro h
      have hle := h.1.le
      omega
  | succ fuel ih =>
    cases hb : r.byteAt off with
    | none =>
      have hturn : scanTurn fault p r off = .error fault := by simp [scanTurn, hb]
      rw [run_error fuel hturn]
      constructor
      · intro h
        simp at h
      · intro h
        obtain ⟨h,-⟩ := h
        rcases Nat.eq_or_lt_of_le h.le with heq | hlt
        · obtain ⟨b,hlast,-⟩ := h.last
          rw [← heq, hb] at hlast
          contradiction
        · obtain ⟨b,hfirst,-⟩ := h.before off le_rfl hlt
          rw [hb] at hfirst
          contradiction
    | some b =>
      cases hp : p b with
      | true =>
        have hturn : scanTurn fault p r off = .ok (.next (off + 1)) := by simp [scanTurn, hb, hp]
        rw [run_next fuel hturn, ih, Region.stopsAt_succ hb hp, Nat.add_right_comm, Nat.add_assoc]
      | false =>
        have hturn : scanTurn fault p r off = .ok (.done off) := by simp [scanTurn, hb, hp]
        rw [run_done fuel hturn, Region.stopsAt_here hb hp]
        simp only [Option.some.injEq, Except.ok.injEq]
        omega

theorem run_scan_error {fuel off : Nat} {e : ε}
    (h : run (scanTurn fault p r) fuel off = some (.error e)) : e = fault := by
  refine run_error_of (· = fault) (fun off e' hturn => ?_) h
  cases hb : r.byteAt off with
  | none => simpa [scanTurn, hb] using hturn.symm
  | some b => cases hp : p b <;> simp [scanTurn, hb, hp] at hturn

end Scan
end MemoryRegion
