import Mathlib

/-! Lists joined with a separator and split at it, beyond what the library has. -/

set_option autoImplicit false

namespace DelimitedText
variable {α : Type}

theorem flatten_dropLast_append_getLast (sep : List α) (parts : List (List α)) (h : parts ≠ []) :
    (parts.dropLast.map (· ++ sep)).flatten ++ parts.getLastD [] = sep.intercalate parts := by
  induction parts with
  | nil => contradiction
  | cons p ps ih =>
    cases ps with
    | nil => simp [List.getLastD]
    | cons q qs =>
      have hq := ih (by simp)
      rw [List.intercalate_cons_cons, ← hq]
      simp [List.getLastD]

theorem intercalate_append_singleton (sep : List α) {parts : List (List α)} (h : parts ≠ [])
    (p : List α) : sep.intercalate (parts ++ [p]) = sep.intercalate parts ++ sep ++ p := by
  induction parts with
  | nil => contradiction
  | cons q parts ih =>
    cases parts with
    | nil => simp [List.intercalate_cons_cons]
    | cons r parts =>
      have hrest := ih (by simp)
      rw [List.cons_append, List.cons_append, List.intercalate_cons_cons, ← List.cons_append, hrest,
        List.intercalate_cons_cons]
      simp

/-- A text of one class has no character of another. -/
theorem not_mem_of_forall {p : α → Bool} {xs : List α} {x : α} (hxs : ∀ y ∈ xs, p y = true)
    (hx : p x = false) : x ∉ xs := by
  intro hmem
  rw [hxs x hmem] at hx
  contradiction

/-- A text without the separator cannot go beyond it. -/
theorem prefix_append_cons_iff {p pre post : List α} {sep : α} (h : sep ∉ p) :
    p <+: pre ++ sep :: post ↔ p <+: pre := by
  constructor
  · intro hp
    have hpre : pre ++ [sep] <+: pre ++ sep :: post := by simp
    rcases List.prefix_or_prefix_of_prefix hp hpre with hshort | hlong
    · rcases List.prefix_concat_iff.mp hshort with rfl | hp
      · exact absurd (by simp) h
      · exact hp
    · exact absurd (hlong.subset (by simp)) h
  · exact fun hp => hp.trans (List.prefix_append _ _)

theorem mem_intercalate {sep : List α} {parts : List (List α)} {a : α}
    (h : a ∈ sep.intercalate parts) : (∃ p ∈ parts, a ∈ p) ∨ a ∈ sep := by
  induction parts with
  | nil => simp at h
  | cons p ps ih =>
    cases ps with
    | nil => exact .inl ⟨p,by simp,by simpa using h⟩
    | cons q qs =>
      rw [List.intercalate_cons_cons] at h
      rcases List.mem_append.mp h with h | h
      · rcases List.mem_append.mp h with h | h
        · exact .inl ⟨p,by simp,h⟩
        · exact .inr h
      · rcases ih h with ⟨r,hr,ha⟩ | h
        · exact .inl ⟨r,List.mem_cons_of_mem p hr,ha⟩
        · exact .inr h

theorem mem_intercalate_of_mem {sep : List α} {parts : List (List α)} {p : List α} {a : α}
    (hp : p ∈ parts) (ha : a ∈ p) : a ∈ sep.intercalate parts := by
  induction parts with
  | nil => contradiction
  | cons q qs ih =>
    cases qs with
    | nil =>
      obtain rfl := List.mem_singleton.mp hp
      simpa using ha
    | cons r rs =>
      rw [List.intercalate_cons_cons]
      rcases List.mem_cons.mp hp with rfl | hp
      · simp [ha]
      · exact List.mem_append_right _ (ih hp)

theorem not_mem_of_mem_splitOn [DecidableEq α] {x : α} {xs w : List α} (h : w ∈ xs.splitOn x) :
    x ∉ w := by
  induction xs generalizing w with
  | nil =>
    obtain rfl : w = [] := by simpa [List.splitOn_nil] using h
    simp
  | cons y ys ih =>
    rw [List.splitOn_cons_eq_if_modifyHead] at h
    split at h
    · rcases List.mem_cons.mp h with rfl | h
      · simp
      · exact ih h
    · rename_i hy
      cases hparts : ys.splitOn x with
      | nil => exact absurd hparts (List.splitOn_ne_nil _ _)
      | cons part parts =>
        rw [hparts] at h ih
        have hne : x ≠ y := fun heq => hy (by simp [heq])
        rcases List.mem_cons.mp h with rfl | h
        · simp [hne, ih List.mem_cons_self]
        · exact ih (List.mem_cons_of_mem part h)

/-- Rows of fields, each row split at the second separator. -/
def rowsOf [DecidableEq α] (rowSep fieldSep : α) (xs : List α) : List (List (List α)) :=
  (xs.splitOn rowSep).map (·.splitOn fieldSep)

theorem rowsOf_eq_iff [DecidableEq α] {rowSep fieldSep : α} (hsep : rowSep ≠ fieldSep)
    {xs : List α} {rows : List (List (List α))} (hne : rows ≠ []) (hrows : ∀ r ∈ rows, r ≠ []) :
    rowsOf rowSep fieldSep xs = rows ↔
      xs = [rowSep].intercalate (rows.map [fieldSep].intercalate) ∧
        ∀ r ∈ rows, ∀ f ∈ r, rowSep ∉ f ∧ fieldSep ∉ f := by
  constructor
  · rintro rfl
    have hjoin : (xs.splitOn rowSep).map ([fieldSep].intercalate ∘ (·.splitOn fieldSep)) =
        xs.splitOn rowSep := by
      conv_rhs => rw [← List.map_id (xs.splitOn rowSep)]
      exact List.map_congr_left fun w _ => List.intercalate_splitOn fieldSep
    refine ⟨by rw [rowsOf, List.map_map, hjoin, List.intercalate_splitOn],?_⟩
    intro r hr f hf
    obtain ⟨w,hw,rfl⟩ := List.mem_map.mp hr
    refine ⟨fun hmem => ?_,not_mem_of_mem_splitOn hf⟩
    have hw' := @mem_intercalate_of_mem _ [fieldSep] _ _ _ hf hmem
    rw [List.intercalate_splitOn] at hw'
    exact not_mem_of_mem_splitOn hw hw'
  · rintro ⟨rfl,hfree⟩
    have hwhole : ∀ w ∈ rows.map [fieldSep].intercalate, rowSep ∉ w := by
      intro w hw hmem
      obtain ⟨r,hr,rfl⟩ := List.mem_map.mp hw
      rcases mem_intercalate hmem with ⟨f,hf,hmem⟩ | hmem
      · exact (hfree r hr f hf).1 hmem
      · exact hsep (List.mem_singleton.mp hmem)
    rw [rowsOf, List.splitOn_intercalate rowSep hwhole (by simpa using hne), List.map_map]
    conv_rhs => rw [← List.map_id rows]
    apply List.map_congr_left
    intro r hr
    exact List.splitOn_intercalate fieldSep (fun f hf => (hfree r hr f hf).2) (hrows r hr)

theorem length_intercalate_singleton (a : α) (parts : List (List α)) (h : parts ≠ []) :
    ([a].intercalate parts).length + 1 = (parts.map (fun p => p.length + 1)).sum := by
  induction parts with
  | nil => contradiction
  | cons p ps ih =>
    cases ps with
    | nil => simp
    | cons q qs =>
      have hq := ih (by simp)
      rw [List.intercalate_cons_cons]
      simp only [List.length_append, List.length_singleton, List.map_cons, List.sum_cons] at hq ⊢
      omega

theorem map_range_getD (xs : List α) (d : α) (n : Nat) (h : n ≤ xs.length) :
    (List.range n).map (fun i => xs.getD i d) = xs.take n := by
  apply List.ext_getElem
  · simp [h]
  · intro i h₁ h₂
    simp only [List.length_map, List.length_range] at h₁
    have hi : i < xs.length := by omega
    simp [hi]

theorem foldl_append_flatten {β : Type} (f : β → List α) (bs : List β) (acc : List α) :
    bs.foldl (fun acc b => acc ++ f b) acc = acc ++ (bs.map f).flatten := by
  induction bs generalizing acc with
  | nil => simp
  | cons b bs ih => simp [ih]

/-- The position of the first occurrence of a text in another one; behind the end
when there is none. -/
def findInfix [DecidableEq α] (pat : List α) : List α → Nat
  | [] => if pat = [] then 0 else 1
  | a :: s => if pat.isPrefixOf (a :: s) then 0 else findInfix pat s + 1

theorem findInfix_none [DecidableEq α] {pat s : List α} (h : ¬ pat <:+: s) :
    findInfix pat s = s.length + 1 := by
  induction s with
  | nil =>
    have hne : pat ≠ [] := fun hnil => h (by simp [hnil])
    simp [findInfix, hne]
  | cons a s ih =>
    have hfirst : ¬ pat <+: a :: s := fun hpre => h hpre.isInfix
    have hrest : ¬ pat <:+: s := fun hin => h (hin.trans (List.suffix_cons a s).isInfix)
    rw [findInfix, if_neg (by simpa using hfirst), ih hrest, List.length_cons]

theorem findInfix_some [DecidableEq α] {pat s : List α} (h : pat <:+: s) :
    ∃ pre post, s = pre ++ pat ++ post ∧ findInfix pat s = pre.length ∧
      ∀ pre' post', s = pre' ++ pat ++ post' → pre.length ≤ pre'.length := by
  induction s with
  | nil =>
    obtain rfl : pat = [] := List.eq_nil_of_infix_nil h
    exact ⟨[],[],rfl,rfl,fun _ _ _ => Nat.zero_le _⟩
  | cons a s ih =>
    by_cases hfirst : pat <+: a :: s
    · obtain ⟨post,hpost⟩ := hfirst
      refine ⟨[],post,by simpa using hpost.symm,?_,fun _ _ _ => Nat.zero_le _⟩
      rw [findInfix, if_pos (by simpa using ⟨post,hpost⟩)]
      rfl
    · have hrest : pat <:+: s := (List.infix_cons_iff.mp h).resolve_left hfirst
      obtain ⟨pre,post,rfl,hfind,hmin⟩ := ih hrest
      refine ⟨a :: pre,post,by simp,?_,?_⟩
      · rw [findInfix, if_neg (by simpa using hfirst), hfind, List.length_cons]
      · intro pre' post' heq
        cases pre' with
        | nil => exact absurd ⟨post',by simpa using heq.symm⟩ hfirst
        | cons b pre' =>
          have htail := (List.cons.inj heq).2
          exact Nat.succ_le_succ (hmin pre' post' htail)

/-- The part of a list after the first element that meets `p`. -/
def afterFirst (p : α → Bool) (xs : List α) : List α := (xs.dropWhile (fun x => !p x)).drop 1

theorem afterFirst_append_cons {p : α → Bool} {x : α} (pre post : List α)
    (hpre : ∀ y ∈ pre, p y = false) (hx : p x = true) :
    afterFirst p (pre ++ x :: post) = post := by
  have h : (pre ++ x :: post).dropWhile (fun y => !p y) = x :: post := by
    rw [List.dropWhile_append_of_pos (by simpa using hpre)]
    simp [hx]
  simp [afterFirst, h]

theorem afterFirst_eq_nil {p : α → Bool} {xs : List α} (h : ∀ x ∈ xs, p x = false) :
    afterFirst p xs = [] := by
  have hall : xs.dropWhile (fun x => !p x) = [] := by
    rw [List.dropWhile_eq_nil_iff]
    intro x hx
    simp [h x hx]
  simp [afterFirst, hall]

theorem mem_drop_one_of_mem_afterFirst {p : α → Bool} {xs : List α} {x : α}
    (h : x ∈ afterFirst p xs) : x ∈ xs.drop 1 := by
  cases xs with
  | nil => simp [afterFirst] at h
  | cons y ys =>
    cases hy : p y with
    | true => simpa [afterFirst, hy] using h
    | false =>
      have hdrop : x ∈ ys.dropWhile (fun z => !p z) := by
        have := List.mem_of_mem_drop (i := 1) (by simpa [afterFirst, hy] using h)
        exact this
      simpa using (List.dropWhile_sublist _).subset hdrop

end DelimitedText
