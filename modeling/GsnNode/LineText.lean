import Mathlib

/-! Texts in lines that a pair of different symbols ends, as CR and LF do. -/

set_option autoImplicit false

namespace LineText
variable {α : Type} {cr lf : α}

/-- The pair does not occur in the text. -/
def LineFree (cr lf : α) (l : List α) : Prop := ¬ [cr,lf] <:+: l

theorem lineFree_of_not_mem {l : List α} (h : cr ∉ l) : LineFree cr lf l :=
  fun hin => h (hin.subset List.mem_cons_self)

theorem LineFree.append {l m : List α} (hl : cr ∉ l) (hm : LineFree cr lf m) :
    LineFree cr lf (l ++ m) := by
  induction l with
  | nil => exact hm
  | cons a l ih =>
    simp only [List.mem_cons, not_or] at hl
    intro hin
    rcases List.infix_cons_iff.mp hin with hpre | hin
    · exact hl.1 (List.cons_prefix_cons.mp hpre).1
    · exact ih hl.2 hin

theorem LineFree.of_append {l m : List α} (h : LineFree cr lf (l ++ m)) : LineFree cr lf m :=
  fun hin => h (hin.trans (List.suffix_append l m).isInfix)

theorem intercalate_prefix (sep : List α) (l l' : List (List α)) (hl : l ≠ []) :
    sep.intercalate l <+: sep.intercalate (l ++ l') := by
  induction l with
  | nil => contradiction
  | cons a l ih =>
    cases l with
    | nil =>
      cases l' with
      | nil => exact List.prefix_rfl
      | cons b l' =>
        rw [List.singleton_append, List.intercalate_cons_cons]
        simp
    | cons b l =>
      have hrest := ih (by simp)
      rw [List.cons_append, List.cons_append, List.intercalate_cons_cons, List.intercalate_cons_cons]
      exact (List.prefix_append_right_inj _).mpr hrest

variable [DecidableEq α]

instance (cr lf : α) (l : List α) : Decidable (LineFree cr lf l) :=
  inferInstanceAs (Decidable (¬ [cr,lf] <:+: l))

def linesOf (cr lf : α) : List α → List (List α)
  | [] => [[]]
  | [a] => [[a]]
  | a :: b :: rest =>
    if a = cr ∧ b = lf then [] :: linesOf cr lf rest
    else (linesOf cr lf (b :: rest)).modifyHead (a :: ·)

theorem linesOf_ne_nil (l : List α) : linesOf cr lf l ≠ [] := by
  fun_induction linesOf cr lf l with
  | case1 => simp
  | case2 a => simp
  | case3 a b rest _ ih => simp
  | case4 a b rest _ ih => simpa using ih

theorem linesOf_append (hne : cr ≠ lf) (pre post : List α) :
    linesOf cr lf (pre ++ cr :: lf :: post) = linesOf cr lf pre ++ linesOf cr lf post := by
  fun_induction linesOf cr lf pre with
  | case1 => simp [linesOf]
  | case2 a => simp [linesOf, hne]
  | case3 a b rest hsep ih => simp [linesOf, hsep, ih]
  | case4 a b rest hsep ih =>
    obtain ⟨line,lines,hlines⟩ := List.exists_cons_of_ne_nil (linesOf_ne_nil (b :: rest))
    simp only [List.cons_append] at ih ⊢
    rw [linesOf, if_neg hsep, ih, hlines]
    simp

theorem linesOf_eq_singleton {l : List α} (h : LineFree cr lf l) : linesOf cr lf l = [l] := by
  fun_induction linesOf cr lf l with
  | case1 => rfl
  | case2 a => rfl
  | case3 a b rest hsep ih =>
    obtain ⟨rfl,rfl⟩ := hsep
    exact absurd (List.prefix_append [a,b] rest).isInfix h
  | case4 a b rest hsep ih =>
    have hfree : LineFree cr lf (b :: rest) := fun hin => h (hin.trans (List.suffix_cons a _).isInfix)
    simp [ih hfree]

theorem intercalate_linesOf (l : List α) : [cr,lf].intercalate (linesOf cr lf l) = l := by
  fun_induction linesOf cr lf l with
  | case1 => simp
  | case2 a => simp
  | case3 a b rest hsep ih =>
    obtain ⟨rfl,rfl⟩ := hsep
    obtain ⟨line,lines,hlines⟩ := List.exists_cons_of_ne_nil (@linesOf_ne_nil _ a b _ rest)
    rw [hlines] at ih ⊢
    rw [List.intercalate_cons_cons, ih]
    rfl
  | case4 a b rest hsep ih =>
    obtain ⟨line,lines,hlines⟩ := List.exists_cons_of_ne_nil
      (@linesOf_ne_nil _ cr lf _ (b :: rest))
    rw [hlines] at ih ⊢
    cases lines with
    | nil => simpa using ih
    | cons line' lines =>
      rw [List.intercalate_cons_cons] at ih
      rw [List.modifyHead_cons, List.intercalate_cons_cons]
      simpa using ih

theorem lineFree_of_mem {l line : List α} (h : line ∈ linesOf cr lf l) : LineFree cr lf line := by
  fun_induction linesOf cr lf l generalizing line with
  | case1 => simp_all [LineFree]
  | case2 a =>
    rw [List.mem_singleton.mp h]
    intro hin
    simpa using hin.length_le
  | case3 a b rest hsep ih =>
    rcases List.mem_cons.mp h with rfl | h
    · simp [LineFree]
    · exact ih h
  | case4 a b rest hsep ih =>
    obtain ⟨first,lines,hlines⟩ := List.exists_cons_of_ne_nil
      (@linesOf_ne_nil _ cr lf _ (b :: rest))
    rw [hlines] at ih h
    rcases List.mem_cons.mp h with rfl | h
    · intro hin
      rcases List.infix_cons_iff.mp hin with hpre | hin
      · -- the first line begins as the text does
        have hfirst : first <+: b :: rest := by
          have hjoin := intercalate_prefix [cr,lf] [first] lines (by simp)
          rw [List.singleton_append, ← hlines, intercalate_linesOf] at hjoin
          simpa using hjoin
        obtain ⟨ha,hpre⟩ := List.cons_prefix_cons.mp hpre
        have hb := (List.cons_prefix_cons.mp (hpre.trans hfirst)).1
        exact hsep ⟨ha.symm,hb.symm⟩
      · exact ih List.mem_cons_self hin
    · exact ih (List.mem_cons_of_mem _ h)

theorem linesOf_intercalate (hne : cr ≠ lf) {lines : List (List α)}
    (hlines : ∀ l ∈ lines, LineFree cr lf l) (hsome : lines ≠ []) :
    linesOf cr lf ([cr,lf].intercalate lines) = lines := by
  induction lines with
  | nil => contradiction
  | cons line lines ih =>
    have hline := linesOf_eq_singleton (hlines line List.mem_cons_self)
    cases lines with
    | nil => simpa using hline
    | cons line' lines =>
      have hrest := ih (fun l hl => hlines l (List.mem_cons_of_mem _ hl)) (by simp)
      rw [List.intercalate_cons_cons, List.append_assoc, List.cons_append, List.cons_append,
        List.nil_append, linesOf_append hne, hline, hrest, List.singleton_append]

/-! ### A head of lines and a blank one -/

/-- A head, the blank line that ends it, and what follows. -/
def withHead (cr lf : α) (lines : List (List α)) (body : List α) : List α :=
  [cr,lf].intercalate lines ++ cr :: lf :: cr :: lf :: body

theorem linesOf_withHead (hne : cr ≠ lf) {lines : List (List α)}
    (hlines : ∀ l ∈ lines, LineFree cr lf l) (hsome : lines ≠ []) (body : List α) :
    linesOf cr lf (withHead cr lf lines body) = lines ++ [] :: linesOf cr lf body := by
  have hblank : linesOf cr lf (cr :: lf :: body) = [] :: linesOf cr lf body := by simp [linesOf]
  rw [withHead, linesOf_append hne, linesOf_intercalate hne hlines hsome, hblank]

/-- No blank line comes before the end of the head. -/
theorem withHead_first_blank (hne : cr ≠ lf) {lines : List (List α)}
    (hlines : ∀ l ∈ lines, LineFree cr lf l ∧ l ≠ []) (hsome : lines ≠ []) {body pre post : List α}
    (h : withHead cr lf lines body = pre ++ cr :: lf :: cr :: lf :: post) :
    ([cr,lf].intercalate lines).length ≤ pre.length := by
  have hblank : linesOf cr lf (cr :: lf :: post) = [] :: linesOf cr lf post := by simp [linesOf]
  have hsplit := congrArg (linesOf cr lf) h
  rw [linesOf_withHead hne (fun l hl => (hlines l hl).1) hsome, linesOf_append hne, hblank] at hsplit
  rcases List.append_eq_append_iff.mp hsplit with ⟨more,hpre,-⟩ | ⟨more,hlong,hshort⟩
  · have hjoin := intercalate_prefix [cr,lf] lines more hsome
    rw [← hpre, intercalate_linesOf] at hjoin
    exact hjoin.length_le
  · cases more with
    | nil =>
      rw [List.append_nil] at hlong
      rw [hlong, intercalate_linesOf]
    | cons line more =>
      -- the blank line would be one of the head
      obtain ⟨rfl,-⟩ := List.cons.inj hshort
      exact absurd rfl (hlines [] (by rw [hlong]; simp)).2

end LineText
