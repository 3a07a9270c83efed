import Mathlib

/-! Buffers that are allocated, read and released by name. A name is never used again. -/

set_option autoImplicit false

namespace BufferHeap
variable {α : Type}

/-- The buffers in the order of their allocation; none for one that was released. -/
abbrev Heap (α : Type) := List (Option (List α))

def lookup (heap : Heap α) (i : Nat) : Option (List α) := heap.getD i none

/-- The heap with a new buffer, whose name is the length of the old one. -/
def allocate (heap : Heap α) (data : List α) : Heap α := heap ++ [some data]

def release (heap : Heap α) (i : Nat) : Heap α := heap.set i none

theorem lookup_allocate (heap : Heap α) (data : List α) (i : Nat) :
    lookup (allocate heap data) i = if i = heap.length then some data else lookup heap i := by
  simp only [lookup, allocate, List.getD_eq_getElem?_getD]
  rcases lt_trichotomy i heap.length with h | h | h
  · rw [List.getElem?_append_left h, if_neg (by omega)]
  · simp [h]
  · rw [if_neg (by omega), List.getElem?_eq_none (by simpa using h), List.getElem?_eq_none (by omega)]

theorem lookup_release (heap : Heap α) (i j : Nat) :
    lookup (release heap i) j = if j = i then none else lookup heap j := by
  simp only [lookup, release, List.getD_eq_getElem?_getD, List.getElem?_set]
  by_cases h : j = i
  · subst h
    by_cases hlt : j < heap.length <;> simp [hlt]
  · simp [h, Ne.symm h]

theorem lookup_length (heap : Heap α) : lookup heap heap.length = none := by
  simp [lookup]

@[simp] theorem release_length (heap : Heap α) (i : Nat) : (release heap i).length = heap.length := by
  simp [release]

/-! ### Owners -/

section Owners
variable {κ : Type}

/-- Every owner points to a live buffer or to none, no two of them to the same one,
and no live buffer is left without an owner. -/
structure Owned (heap : Heap α) (pointer : κ → Option Nat) : Prop where
  live : ∀ x i, pointer x = some i → ∃ data, lookup heap i = some data
  alone : ∀ x y i, pointer x = some i → pointer y = some i → x = y
  covered : ∀ i data, lookup heap i = some data → ∃ x, pointer x = some i

variable {heap : Heap α} {pointer : κ → Option Nat}

/-- A pointer that is kept to a released buffer ends the ownership. -/
theorem not_owned_dangling {x : κ} {i : Nat} (hx : pointer x = some i) :
    ¬ Owned (release heap i) pointer := by
  intro h
  obtain ⟨data,hdata⟩ := h.live x i hx
  simp [lookup_release] at hdata

theorem Owned.all_released (h : Owned heap pointer) (hnone : ∀ x, pointer x = none) (i : Nat) :
    lookup heap i = none := by
  cases hi : lookup heap i with
  | none => rfl
  | some data =>
    obtain ⟨x,hx⟩ := h.covered i data hi
    rw [hnone x] at hx
    contradiction

variable [DecidableEq κ]

theorem Owned.drop_null (h : Owned heap pointer) {x : κ} (hx : pointer x = none) :
    Owned heap (Function.update pointer x none) := by
  rw [← hx, Function.update_eq_self]
  exact h

theorem Owned.drop_released (h : Owned heap pointer) {x : κ} {i : Nat} (hx : pointer x = some i) :
    Owned (release heap i) (Function.update pointer x none) := by
  have hother : ∀ y j, Function.update pointer x none y = some j → y ≠ x ∧ pointer y = some j := by
    intro y j hy
    by_cases hyx : y = x
    · simp [hyx] at hy
    · exact ⟨hyx,by simpa [Function.update_of_ne hyx] using hy⟩
  refine ⟨?_,?_,?_⟩
  · intro y j hy
    obtain ⟨hne,hy⟩ := hother y j hy
    have hji : j ≠ i := by
      rintro rfl
      exact hne (h.alone y x j hy hx)
    rw [lookup_release, if_neg hji]
    exact h.live y j hy
  · intro y z j hy hz
    exact h.alone y z j (hother y j hy).2 (hother z j hz).2
  · intro j data hj
    rw [lookup_release] at hj
    split at hj
    · contradiction
    · rename_i hji
      obtain ⟨y,hy⟩ := h.covered j data hj
      refine ⟨y,?_⟩
      rw [Function.update_of_ne ?_, hy]
      rintro rfl
      rw [hx, Option.some.injEq] at hy
      exact hji hy.symm

theorem Owned.give (h : Owned heap pointer) {x : κ} (hx : pointer x = none) (data : List α) :
    Owned (allocate heap data) (Function.update pointer x (some heap.length)) := by
  have hold : ∀ y i, pointer y = some i → i ≠ heap.length := by
    rintro y i hy rfl
    obtain ⟨old,hold⟩ := h.live y _ hy
    rw [lookup_length] at hold
    contradiction
  refine ⟨?_,?_,?_⟩
  · intro y i hy
    rw [lookup_allocate]
    by_cases hyx : y = x
    · subst hyx
      exact ⟨data,by simp_all⟩
    · rw [Function.update_of_ne hyx] at hy
      rw [if_neg (hold y i hy)]
      exact h.live y i hy
  · intro y z i hy hz
    by_cases hyx : y = x <;> by_cases hzx : z = x
    · rw [hyx, hzx]
    · subst hyx
      simp only [Function.update_self, Option.some.injEq, Function.update_of_ne hzx] at hy hz
      exact absurd hy.symm (hold z i hz)
    · subst hzx
      simp only [Function.update_self, Option.some.injEq, Function.update_of_ne hyx] at hy hz
      exact absurd hz.symm (hold y i hy)
    · rw [Function.update_of_ne hyx] at hy
      rw [Function.update_of_ne hzx] at hz
      exact h.alone y z i hy hz
  · intro i old hi
    rw [lookup_allocate] at hi
    split at hi
    · rename_i heq
      exact ⟨x,by simp [heq]⟩
    · obtain ⟨y,hy⟩ := h.covered i old hi
      refine ⟨y,?_⟩
      rw [Function.update_of_ne ?_, hy]
      rintro rfl
      rw [hx] at hy
      contradiction

end Owners
end BufferHeap
