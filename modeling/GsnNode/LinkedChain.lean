import Mathlib

/-! Lists in which every element is linked to the key of the one before it, as in
a hash chain. -/

set_option autoImplicit false

namespace LinkedChain
variable {α κ : Type} {key : α → κ} {link : κ → α → Prop}

def Linked (key : α → κ) (link : κ → α → Prop) (l : List α) : Prop :=
  l.IsChain fun a b => link (key a) b

theorem Linked.nil : Linked key link [] := List.IsChain.nil

theorem Linked.append {l m : List α} (hl : Linked key link l) (hm : Linked key link m)
    (h : ∀ a ∈ l.getLast?, ∀ b ∈ m.head?, link (key a) b) : Linked key link (l ++ m) :=
  List.isChain_append.mpr ⟨hl,hm,h⟩

theorem Linked.snoc {l : List α} {b : α} (hl : Linked key link l)
    (h : ∀ a ∈ l.getLast?, link (key a) b) : Linked key link (l ++ [b]) :=
  hl.append (List.IsChain.singleton b) (by simpa using h)

theorem Linked.take {l : List α} (hl : Linked key link l) (n : Nat) : Linked key link (l.take n) :=
  List.IsChain.take hl n

/-- A piece of another chain continues this one, if the element before the piece
has the key of the last element. -/
theorem Linked.append_suffix {l before after : List α} {a b : α} (hl : Linked key link l)
    (ha : l.getLast? = some a) (hm : Linked key link (before ++ b :: after))
    (hkey : key b = key a) : Linked key link (l ++ after) := by
  obtain ⟨-,hafter,-⟩ := List.isChain_append.mp hm
  apply hl.append
  · exact List.IsChain.tail hafter
  · intro c hc d hd
    obtain rfl : a = c := by simpa [ha] using hc
    cases after with
    | nil => simp at hd
    | cons e after =>
      obtain rfl : e = d := by simpa using hd
      rw [← hkey]
      exact (List.isChain_cons_cons.mp hafter).1

end LinkedChain
