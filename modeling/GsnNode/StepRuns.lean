import Mathlib

/-! Runs of a step function over a list of inputs: what holds in every state of a
run, and what every step of the run has to meet for that. -/

set_option autoImplicit false

namespace StepRuns
variable {σ α : Type} (step : σ → α → σ)

/-- `P` holds in every state of the run, the first and the last included. -/
def Throughout (P : σ → Prop) (s : σ) (as : List α) : Prop :=
  ∀ before after, as = before ++ after → P (before.foldl step s)

/-- Every step of the run is allowed in the state in which it is taken. -/
def EachStep (Q : σ → α → Prop) (s : σ) (as : List α) : Prop :=
  ∀ before a after, as = before ++ a :: after → Q (before.foldl step s) a

variable {step} {P P' Base : σ → Prop} {Q : σ → α → Prop} {s : σ} {a : α} {as : List α}

theorem throughout_nil : Throughout step P s [] ↔ P s := by
  constructor
  · exact fun h => h [] [] rfl
  · intro h before after heq
    obtain ⟨rfl,-⟩ := List.nil_eq_append_iff.mp heq
    exact h

theorem throughout_cons :
    Throughout step P s (a :: as) ↔ P s ∧ Throughout step P (step s a) as := by
  constructor
  · exact fun h => ⟨h [] _ rfl,fun before after heq => h (a :: before) after (by simp [heq])⟩
  · rintro ⟨hs,hrest⟩ before after heq
    cases before with
    | nil => exact hs
    | cons b before =>
      obtain ⟨rfl,rfl⟩ := List.cons.inj heq
      exact hrest before after rfl

theorem eachStep_nil : EachStep step Q s [] := by
  intro before a after heq
  simp at heq

theorem eachStep_cons :
    EachStep step Q s (a :: as) ↔ Q s a ∧ EachStep step Q (step s a) as := by
  constructor
  · exact fun h => ⟨h [] a as rfl,
      fun before b after heq => h (a :: before) b after (by simp [heq])⟩
  · rintro ⟨hs,hrest⟩ before b after heq
    cases before with
    | nil =>
      obtain ⟨rfl,-⟩ := List.cons.inj heq
      exact hs
    | cons c before =>
      obtain ⟨rfl,rfl⟩ := List.cons.inj heq
      exact hrest before b after rfl

theorem eachStep_append {bs : List α} :
    EachStep step Q s (as ++ bs) ↔ EachStep step Q s as ∧ EachStep step Q (as.foldl step s) bs := by
  induction as generalizing s with
  | nil => simp [eachStep_nil]
  | cons a as ih => simp only [List.cons_append, eachStep_cons, ih, List.foldl_cons, and_assoc]

theorem EachStep.of_forall (h : ∀ s a, Q s a) : EachStep step Q s as := fun _ a _ _ => h _ a

theorem eachStep_forall {R : α → Prop} :
    EachStep step (fun _ a => R a) s as ↔ ∀ a ∈ as, R a := by
  constructor
  · intro h a ha
    obtain ⟨before,after,heq⟩ := List.append_of_mem ha
    exact h before a after heq
  · intro h before a after heq
    exact h a (by simp [heq])

theorem Throughout.last (h : Throughout step P s as) : P (as.foldl step s) :=
  h as [] (by simp)

theorem invariant (hstep : ∀ a ∈ as, ∀ s, P s → P (step s a)) (h : P s) :
    Throughout step P s as := by
  induction as generalizing s with
  | nil => exact throughout_nil.mpr h
  | cons a as ih =>
    have hrest := ih (fun b hb => hstep b (List.mem_cons_of_mem a hb))
      (hstep a List.mem_cons_self s h)
    exact throughout_cons.mpr ⟨h,hrest⟩

theorem throughout_congr (hbase : Throughout step Base s as) (h : ∀ s, Base s → (P s ↔ P' s)) :
    Throughout step P s as ↔ Throughout step P' s as := by
  constructor
  · exact fun hp before after heq => (h _ (hbase before after heq)).mp (hp before after heq)
  · exact fun hp before after heq => (h _ (hbase before after heq)).mpr (hp before after heq)

/-- Two runs stay together if every step from such a state does. -/
theorem Throughout.simulation {τ : Type} {step' : τ → α → τ} {view : σ → τ}
    (h : Throughout step P s as) (hstep : ∀ s a, P s → view (step s a) = step' (view s) a) :
    view (as.foldl step s) = as.foldl step' (view s) := by
  induction as generalizing s with
  | nil => rfl
  | cons a as ih =>
    obtain ⟨hs,hrest⟩ := throughout_cons.mp h
    rw [List.foldl_cons, List.foldl_cons, ih hrest, hstep s a hs]

/-- Where only the own inputs are seen, the others can be left out. -/
theorem EachStep.purge {τ : Type} {step' : τ → α → τ} (view : σ → τ) (own : α → Bool)
    (h : EachStep step (fun s a => view (step s a) = if own a then step' (view s) a else view s) s as) :
    view (as.foldl step s) = (as.filter own).foldl step' (view s) := by
  induction as generalizing s with
  | nil => rfl
  | cons a as ih =>
    obtain ⟨hfirst,hrest⟩ := eachStep_cons.mp h
    rw [List.foldl_cons, ih hrest, hfirst]
    cases ha : own a <;> simp [ha]

/-- Where a step from a good state leads to a good state exactly if it is allowed,
a run is good throughout exactly if each of its steps is allowed. -/
theorem throughout_iff (hstep : EachStep step (fun s a => P s → (P (step s a) ↔ Q s a)) s as)
    (h : P s) : Throughout step P s as ↔ EachStep step Q s as := by
  induction as generalizing s with
  | nil => exact iff_of_true (throughout_nil.mpr h) eachStep_nil
  | cons a as ih =>
    obtain ⟨hfirst,hrest⟩ := eachStep_cons.mp hstep
    rw [throughout_cons, eachStep_cons, ← hfirst h]
    constructor
    · rintro ⟨-,hnext⟩
      have hgood : P (step s a) := hnext [] as rfl
      exact ⟨hgood,(ih hrest hgood).mp hnext⟩
    · rintro ⟨hgood,hsteps⟩
      exact ⟨h,(ih hrest hgood).mpr hsteps⟩

end StepRuns
