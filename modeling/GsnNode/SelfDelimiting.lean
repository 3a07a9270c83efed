import Mathlib

/-! Codes whose words can be told from what follows them: a concatenation of words
shows which words they were, and how many. -/

set_option autoImplicit false

namespace SelfDelimiting
open InformationTheory
variable {α β : Type}

def PrefixFree (S : Set (List α)) : Prop := ∀ w ∈ S, ∀ v ∈ S, w <+: v → w = v

theorem PrefixFree.head_eq {S : Set (List α)} (hS : PrefixFree S) {w v xs ys : List α}
    (hw : w ∈ S) (hv : v ∈ S) (h : w ++ xs = v ++ ys) : w = v := by
  have hxs : w <+: v ++ ys := ⟨xs,h⟩
  rcases List.prefix_or_prefix_of_prefix hxs (List.prefix_append v ys) with hshort | hlong
  · exact hS w hw v hv hshort
  · exact (hS v hv w hw hlong).symm

theorem PrefixFree.uniquelyDecodable {S : Set (List α)} (hS : PrefixFree S) (hne : [] ∉ S) :
    UniquelyDecodable S := by
  intro ws vs hws hvs h
  induction ws generalizing vs with
  | nil =>
    cases vs with
    | nil => rfl
    | cons v vs =>
      have hv : v = [] := (List.append_eq_nil_iff.mp h.symm).1
      exact absurd (hv ▸ hvs v List.mem_cons_self) hne
  | cons w ws ih =>
    cases vs with
    | nil =>
      have hw : w = [] := (List.append_eq_nil_iff.mp h).1
      exact absurd (hw ▸ hws w List.mem_cons_self) hne
    | cons v vs =>
      rw [List.flatten_cons, List.flatten_cons] at h
      obtain rfl := hS.head_eq (hws w List.mem_cons_self) (hvs v List.mem_cons_self) h
      have hrest := ih vs (fun u hu => hws u (List.mem_cons_of_mem w hu))
        (fun u hu => hvs u (List.mem_cons_of_mem w hu)) (List.append_cancel_left h)
      rw [hrest]

section Decoder
variable {encode : β → List α} {decode : List α → Option β} {P : β → Prop}

/-- What a decoder reads off the front of any longer text is a prefix-free code. -/
theorem prefixFree_of_decode (hread : ∀ a, P a → ∀ rest, decode (encode a ++ rest) = some a) :
    PrefixFree (encode '' {a | P a}) := by
  rintro _ ⟨a,ha,rfl⟩ _ ⟨b,hb,rfl⟩ ⟨rest,hrest⟩
  have hfirst := hread a ha rest
  rw [hrest] at hfirst
  have hsecond := hread b hb []
  rw [List.append_nil, hfirst, Option.some.injEq] at hsecond
  rw [hsecond]

theorem concat_injective (hread : ∀ a, P a → ∀ rest, decode (encode a ++ rest) = some a)
    (hne : ∀ a, P a → encode a ≠ []) {as bs : List β} (has : ∀ a ∈ as, P a)
    (hbs : ∀ b ∈ bs, P b) (h : (as.map encode).flatten = (bs.map encode).flatten) : as = bs := by
  have hempty : [] ∉ encode '' {a | P a} := by
    rintro ⟨a,ha,heq⟩
    exact hne a ha heq
  have hmem : ∀ {cs : List β}, (∀ c ∈ cs, P c) →
      ∀ w ∈ cs.map encode, w ∈ encode '' {a | P a} := by
    intro cs hcs w hw
    obtain ⟨c,hc,rfl⟩ := List.mem_map.mp hw
    exact ⟨c,hcs c hc,rfl⟩
  have hwords := (prefixFree_of_decode hread).uniquelyDecodable hempty _ _ (hmem has) (hmem hbs) h
  have hdecode : ∀ {cs : List β}, (∀ c ∈ cs, P c) → (cs.map encode).map decode = cs.map some := by
    intro cs hcs
    rw [List.map_map]
    refine List.map_congr_left fun c hc => ?_
    simpa using hread c (hcs c hc) []
  have hsome := congrArg (List.map decode) hwords
  rw [hdecode has, hdecode hbs] at hsome
  exact List.map_injective_iff.mpr (Option.some_injective β) hsome

end Decoder
end SelfDelimiting
