import Mathlib

/-! Loops run with fuel, and `for` loops over an unsigned counter of a given
width. A run that is out of fuel gives no answer, so a loop that never ends is
the one that gives none for any fuel. -/

set_option autoImplicit false

namespace FuelLoop
variable {σ α ε : Type}

inductive Turn (σ α : Type) where
  | next : σ → Turn σ α
  | done : α → Turn σ α

def run (turn : σ → Except ε (Turn σ α)) : Nat → σ → Option (Except ε α)
  | 0, _ => none
  | fuel + 1, s =>
    match turn s with
    | .error e => some (.error e)
    | .ok (.done a) => some (.ok a)
    | .ok (.next s') => run turn fuel s'

theorem run_next {turn : σ → Except ε (Turn σ α)} {s s' : σ} (fuel : Nat)
    (h : turn s = .ok (.next s')) : run turn (fuel + 1) s = run turn fuel s' := by
  simp [run, h]

theorem run_done {turn : σ → Except ε (Turn σ α)} {s : σ} {a : α} (fuel : Nat)
    (h : turn s = .ok (.done a)) : run turn (fuel + 1) s = some (.ok a) := by
  simp [run, h]

theorem run_error {turn : σ → Except ε (Turn σ α)} {s : σ} {e : ε} (fuel : Nat)
    (h : turn s = .error e) : run turn (fuel + 1) s = some (.error e) := by
  simp [run, h]

/-- Partial correctness: what every turn keeps holds when the loop is left. -/
theorem run_invariant {turn : σ → Except ε (Turn σ α)} (Inv : σ → Prop) (Post : α → Prop)
    (hnext : ∀ s s', Inv s → turn s = .ok (.next s') → Inv s')
    (hdone : ∀ s a, Inv s → turn s = .ok (.done a) → Post a)
    {fuel : Nat} {s : σ} {a : α} (hs : Inv s) (h : run turn fuel s = some (.ok a)) : Post a := by
  induction fuel generalizing s with
  | zero => simp [run] at h
  | succ fuel ih =>
    cases ht : turn s with
    | error e => simp [run, ht] at h
    | ok t =>
      cases t with
      | next s' =>
        rw [run_next fuel ht] at h
        exact ih (hnext s s' hs ht) h
      | done b =>
        simp only [run_done fuel ht, Option.some.injEq, Except.ok.injEq] at h
        subst b
        exact hdone s a hs ht

/-- A run ends in no error but those of its turns. -/
theorem run_error_of {turn : σ → Except ε (Turn σ α)} (Bad : ε → Prop)
    (hturn : ∀ s e, turn s = .error e → Bad e) {fuel : Nat} {s : σ} {e : ε}
    (h : run turn fuel s = some (.error e)) : Bad e := by
  induction fuel generalizing s with
  | zero => simp [run] at h
  | succ fuel ih =>
    cases ht : turn s with
    | error e' =>
      rw [run_error fuel ht, Option.some.injEq, Except.error.injEq] at h
      exact h ▸ hturn s e' ht
    | ok t =>
      cases t with
      | next s' =>
        rw [run_next fuel ht] at h
        exact ih h
      | done a => simp [run_done fuel ht] at h

/-- `for (unsigned i = 0; i < bound; i++) body(i)` with a counter that wraps at
`2 ^ width`. -/
def counterTurn (width bound : Nat) (body : Nat → σ → Except ε σ) (p : Nat × σ) :
    Except ε (Turn (Nat × σ) σ) :=
  if p.1 < bound then (body p.1 p.2).map (fun s => .next ((p.1 + 1) % 2 ^ width, s))
  else .ok (.done p.2)

def forUnsigned (width bound : Nat) (body : Nat → σ → Except ε σ) (s : σ) :
    Option (Except ε σ) :=
  run (counterTurn width bound body) (bound + 1) (0, s)

theorem counterTurn_next {width bound i : Nat} {body : Nat → σ → Except ε σ} {s t : σ}
    (hi : i < bound) (hbody : body i s = .ok t) :
    counterTurn width bound body (i, s) = .ok (.next ((i + 1) % 2 ^ width, t)) := by
  simp [counterTurn, hi, hbody, Except.map]

theorem counterTurn_error {width bound i : Nat} {body : Nat → σ → Except ε σ} {s : σ} {e : ε}
    (hi : i < bound) (hbody : body i s = .error e) :
    counterTurn width bound body (i, s) = .error e := by
  simp [counterTurn, hi, hbody, Except.map]

theorem counterTurn_done {width bound i : Nat} {body : Nat → σ → Except ε σ} {s : σ}
    (hi : ¬ i < bound) : counterTurn width bound body (i, s) = .ok (.done s) := by
  simp [counterTurn, hi]

theorem run_counter {width bound : Nat} (body : Nat → σ → Except ε σ)
    (hb : bound < 2 ^ width) (k i : Nat) (hi : i + k = bound) (s : σ) :
    run (counterTurn width bound body) (k + 1) (i, s) =
      some ((List.range' i k).foldlM (fun s i => body i s) s) := by
  induction k generalizing i s with
  | zero => rw [run_done _ (counterTurn_done (by omega))]; rfl
  | succ k ih =>
    have hlt : i < bound := by omega
    have hwrap : (i + 1) % 2 ^ width = i + 1 := Nat.mod_eq_of_lt (by omega)
    cases hbody : body i s with
    | error e =>
      rw [run_error _ (counterTurn_error hlt hbody)]
      simp [List.range'_succ, hbody, bind, Except.bind]
    | ok t =>
      rw [run_next _ (counterTurn_next hlt hbody), hwrap, ih (i + 1) (by omega) t]
      simp [List.range'_succ, hbody, bind, Except.bind]

theorem forUnsigned_eq {width bound : Nat} (body : Nat → σ → Except ε σ) (s : σ)
    (hb : bound < 2 ^ width) :
    forUnsigned width bound body s =
      some ((List.range bound).foldlM (fun s i => body i s) s) := by
  rw [forUnsigned, run_counter body hb bound 0 (by omega) s, List.range_eq_range']

theorem counter_never_done {width bound : Nat} (body : Nat → σ → Except ε σ)
    (hb : 2 ^ width ≤ bound) (fuel i : Nat) (hi : i < 2 ^ width) (s a : σ) :
    run (counterTurn width bound body) fuel (i, s) ≠ some (.ok a) := by
  intro h
  refine run_invariant (fun p : Nat × σ => p.1 < 2 ^ width) (fun _ => False) ?_ ?_ hi h
  · rintro ⟨j, t⟩ ⟨j', t'⟩ hj hturn
    have hlt : j < bound := lt_of_lt_of_le hj hb
    cases hbody : body j t with
    | error e => simp [counterTurn_error hlt hbody] at hturn
    | ok u =>
      simp only [counterTurn_next hlt hbody, Except.ok.injEq, Turn.next.injEq,
        Prod.mk.injEq] at hturn
      rw [← hturn.1]
      exact Nat.mod_lt _ (Nat.two_pow_pos width)
  · rintro ⟨j, t⟩ b hj hturn
    have hlt : j < bound := lt_of_lt_of_le hj hb
    cases hbody : body j t with
    | error e => simp [counterTurn_error hlt hbody] at hturn
    | ok u => simp [counterTurn_next hlt hbody] at hturn

theorem forUnsigned_never {width bound : Nat} (body : Nat → σ → Except ε σ)
    (hb : 2 ^ width ≤ bound) (s a : σ) : forUnsigned width bound body s ≠ some (.ok a) :=
  counter_never_done body hb (bound + 1) 0 (Nat.two_pow_pos width) s a

theorem counter_hangs {width bound : Nat} (body : Nat → σ → σ)
    (hb : 2 ^ width ≤ bound) (fuel i : Nat) (hi : i < 2 ^ width) (s : σ) :
    run (counterTurn width bound (fun i s => (.ok (body i s) : Except ε σ))) fuel (i, s) = none := by
  induction fuel generalizing i s with
  | zero => rfl
  | succ fuel ih =>
    have hlt : i < bound := lt_of_lt_of_le hi hb
    rw [run_next _ (counterTurn_next hlt rfl)]
    exact ih _ (Nat.mod_lt _ (Nat.two_pow_pos width)) _

theorem forUnsigned_hangs {width bound : Nat} (body : Nat → σ → σ)
    (hb : 2 ^ width ≤ bound) (s : σ) :
    forUnsigned width bound (fun i s => (.ok (body i s) : Except ε σ)) s = none :=
  counter_hangs body hb (bound + 1) 0 (Nat.two_pow_pos width) s

/-- What every step keeps a fold keeps. -/
theorem foldlM_invariant {β : Type} {step : σ → β → Except ε σ} (Inv : σ → Prop)
    (hstep : ∀ s x s', Inv s → step s x = .ok s' → Inv s') {xs : List β} {s s' : σ} (hs : Inv s)
    (h : xs.foldlM step s = .ok s') : Inv s' := by
  induction xs generalizing s with
  | nil => exact Except.ok.inj h ▸ hs
  | cons x xs ih =>
    rw [List.foldlM_cons] at h
    cases ht : step s x with
    | error e => simp [ht, bind, Except.bind] at h
    | ok t =>
      rw [ht] at h
      exact ih (hstep s x t hs ht) h

theorem foldlM_ok {β : Type} (f : σ → β → σ) (xs : List β) (s : σ) :
    xs.foldlM (fun s x => (.ok (f s x) : Except ε σ)) s = .ok (xs.foldl f s) := by
  induction xs generalizing s with
  | nil => rfl
  | cons x xs ih => simp only [List.foldlM_cons, List.foldl_cons, ← ih]; rfl

theorem foldl_range_getD_snoc {β : Type} (xs : List β) (d : β) (f : σ → β → σ) (s : σ) :
    (List.range (xs.length + 1)).foldl (fun s i => f s (xs.getD i d)) s =
      (xs ++ [d]).foldl f s := by
  have hmap : xs ++ [d] = (List.range (xs.length + 1)).map (fun i => xs.getD i d) := by
    apply List.ext_getElem
    · simp
    · intro i h₁ h₂
      simp only [List.length_append, List.length_singleton] at h₁
      by_cases hi : i < xs.length
      · simp [hi]
      · have : i = xs.length := by omega
        subst this
        simp
  rw [hmap, List.foldl_map]

theorem foldlM_range_getD {β : Type} (xs : List β) (d : β) (f : σ → Nat → β → Except ε σ) (s : σ) :
    (List.range xs.length).foldlM (fun s i => f s i (xs.getD i d)) s =
      xs.zipIdx.foldlM (fun s p => f s p.2 p.1) s := by
  have hmap : xs.zipIdx = (List.range xs.length).map (fun i => (xs.getD i d, i)) := by
    apply List.ext_getElem
    · simp
    · intro i h₁ h₂
      simp only [List.length_zipIdx] at h₁
      simp [h₁]
  rw [hmap, List.foldlM_map]

end FuelLoop
