import Mathlib

/-! Lists searched from the front by a predicate, and lists whose elements have
pairwise distinct keys. -/

set_option autoImplicit false

namespace KeyedList
variable {α κ : Type}

theorem exists_first {p : α → Bool} {l : List α} (h : ∃ n ∈ l, p n = true) :
    ∃ before n after, l = before ++ n :: after ∧ (∀ m ∈ before, p m = false) ∧ p n = true := by
  obtain ⟨n,hn⟩ := Option.isSome_iff_exists.mp (List.find?_isSome.mpr h)
  obtain ⟨hp,before,after,hl,hbefore⟩ := List.find?_eq_some_iff_append.mp hn
  exact ⟨before,n,after,hl,by simpa using hbefore,hp⟩

theorem findIdx_append_cons {p : α → Bool} {before after : List α} {n : α}
    (hbefore : ∀ m ∈ before, p m = false) (hn : p n = true) :
    (before ++ n :: after).findIdx p = before.length := by
  rw [List.findIdx_append, if_neg (by simpa using hbefore), List.findIdx_cons, hn]
  simp

theorem findIdx_split {p : α → Bool} {l : List α} (h : l.findIdx p ≠ l.length) :
    ∃ before n after, l = before ++ n :: after ∧ p n = true ∧ (∀ m ∈ before, p m = false) ∧
      l.findIdx p = before.length := by
  have hex : ∃ n ∈ l, p n = true := by
    by_contra hnone
    exact h (List.findIdx_eq_length.mpr (by simpa using hnone))
  obtain ⟨before,n,after,rfl,hbefore,hn⟩ := exists_first hex
  exact ⟨before,n,after,rfl,hn,hbefore,findIdx_append_cons hbefore hn⟩

theorem getElem?_findIdx (p : α → Bool) (l : List α) : l[l.findIdx p]? = l.find? p := by
  induction l with
  | nil => rfl
  | cons a l ih => cases ha : p a <;> simp [List.findIdx_cons, ha, ih]

def Distinct (key : α → κ) (l : List α) : Prop := (l.map key).Nodup

instance [DecidableEq κ] (key : α → κ) (l : List α) : Decidable (Distinct key l) :=
  inferInstanceAs (Decidable (l.map key).Nodup)

theorem Distinct.nil (key : α → κ) : Distinct key [] := List.nodup_nil

theorem Distinct.append_fresh {key : α → κ} {l : List α} {n : α} (h : Distinct key l)
    (hn : ∀ m ∈ l, key m ≠ key n) : Distinct key (l ++ [n]) := by
  rw [Distinct, List.map_append, List.nodup_append]
  refine ⟨h,by simp,?_⟩
  intro a ha b hb
  obtain ⟨m,hm,rfl⟩ := List.mem_map.mp ha
  obtain rfl : b = key n := by simpa using hb
  exact hn m hm

theorem distinct_append_singleton {key : α → κ} {l : List α} {n : α} :
    Distinct key (l ++ [n]) ↔ Distinct key l ∧ ∀ m ∈ l, key m ≠ key n := by
  constructor
  · intro h
    rw [Distinct, List.map_append, List.nodup_append] at h
    obtain ⟨hl,-,hn⟩ := h
    exact ⟨hl,fun m hm => hn (key m) (List.mem_map_of_mem hm) (key n) (by simp)⟩
  · exact fun h => h.1.append_fresh h.2

theorem Distinct.others_ne {key : α → κ} {before after : List α} {n : α}
    (h : Distinct key (before ++ n :: after)) : ∀ m ∈ before ++ after, key m ≠ key n := by
  rw [Distinct, List.map_append, List.map_cons, List.nodup_middle, List.nodup_cons] at h
  intro m hm heq
  apply h.1
  rw [← heq, ← List.map_append]
  exact List.mem_map_of_mem hm

theorem Distinct.nodup {key : α → κ} {l : List α} (h : Distinct key l) : l.Nodup :=
  List.Nodup.of_map key h

theorem Distinct.sublist {key : α → κ} {l l' : List α} (h : Distinct key l) (hl : l'.Sublist l) :
    Distinct key l' :=
  List.Nodup.sublist (hl.map key) h

/-! ### The elements of one key -/

section Queues
variable [DecidableEq κ]

/-- What a list holds for one key, the oldest first. -/
def queueOf (key : α → κ) (k : κ) (l : List α) : List α := l.filter fun a => key a = k

variable {key : α → κ} {k : κ} {n : α}

theorem queueOf_push (h : key n = k) (l : List α) :
    queueOf key k (l ++ [n]) = queueOf key k l ++ [n] := by
  simp [queueOf, h]

theorem queueOf_push_other (h : key n ≠ k) (l : List α) :
    queueOf key k (l ++ [n]) = queueOf key k l := by
  simp [queueOf, h]

/-- The first element of a key goes. -/
theorem queueOf_pop {before : List α} (h : key n = k) (hbefore : ∀ m ∈ before, key m ≠ k)
    (after : List α) :
    queueOf key k (before ++ n :: after) = n :: queueOf key k (before ++ after) := by
  have hnone : before.filter (fun a => key a = k) = [] :=
    List.filter_eq_nil_iff.mpr (by simpa using hbefore)
  simp [queueOf, hnone, h]

theorem queueOf_pop_other (h : key n ≠ k) (before after : List α) :
    queueOf key k (before ++ n :: after) = queueOf key k (before ++ after) := by
  simp [queueOf, h]

/-- Only the queue of the new element changes. -/
theorem queueOf_append_update (l : List α) (n : α) :
    (fun k => queueOf key k (l ++ [n])) =
      Function.update (fun k => queueOf key k l) (key n) (queueOf key (key n) l ++ [n]) := by
  funext k
  by_cases hk : key n = k
  · subst hk
    rw [queueOf_push rfl, Function.update_self]
  · rw [queueOf_push_other hk, Function.update_of_ne (Ne.symm hk)]

theorem queueOf_erase_update {before : List α} (hbefore : ∀ m ∈ before, key m ≠ key n)
    (after : List α) :
    (fun k => queueOf key k (before ++ after)) =
      Function.update (fun k => queueOf key k (before ++ n :: after)) (key n)
        (queueOf key (key n) (before ++ n :: after)).tail := by
  funext k
  by_cases hk : key n = k
  · subst hk
    rw [Function.update_self, queueOf_pop rfl hbefore, List.tail_cons]
  · rw [Function.update_of_ne (Ne.symm hk), queueOf_pop_other hk]

theorem head?_queueOf (l : List α) :
    (queueOf key k l).head? = l[l.findIdx fun a => key a = k]? := by
  rw [queueOf, List.head?_filter, getElem?_findIdx]

theorem queueOf_eq_nil {l : List α} : queueOf key k l = [] ↔ ∀ m ∈ l, key m ≠ k := by
  simp [queueOf, List.filter_eq_nil_iff]

theorem perm_of_queueOf {l l' : List α} (h : ∀ k, queueOf key k l = queueOf key k l') : l.Perm l' := by
  classical
  rw [List.perm_iff_count]
  intro a
  have hcount : ∀ m : List α, (queueOf key (key a) m).count a = m.count a := by
    intro m
    exact List.count_filter (by simp)
  rw [← hcount l, ← hcount l', h]

end Queues

end KeyedList
