import Mathlib

/-! Chains of digests: each is the hash of an image of its element and of the digest
before it. The last digest commits to the elements, unless the hash collides on two
of the images. -/

set_option autoImplicit false

namespace HashCommitment
variable {α β κ ρ : Type} (key : α → κ) (image : Option κ → α → β) (hash : β → κ)

def tip (l : List α) : Option κ := l.getLast?.map key

/-- What is hashed for the elements, after an element with this digest. -/
def imagesAfter : Option κ → List α → List β
  | _, [] => []
  | before, a :: l => image before a :: imagesAfter (some (key a)) l

def images (l : List α) : List β := imagesAfter key image none l

def Committed (l : List α) : Prop := l.map key = (images key image l).map hash

/-- Two different byte strings at one place, with one digest. -/
def Collide (bs bs' : List β) : Prop :=
  ∃ (i : Nat) (b b' : β), bs[i]? = some b ∧ bs'[i]? = some b' ∧ b ≠ b' ∧ hash b = hash b'

/-- The image shows the digest before the element and what it carries. -/
def Readable (payload : α → ρ) : Prop :=
  ∀ before before' a a', (before = none ↔ before' = none) → image before a = image before' a' →
    before = before' ∧ payload a = payload a'

variable {key image hash}

@[simp] theorem imagesAfter_length (before : Option κ) (l : List α) :
    (imagesAfter key image before l).length = l.length := by
  induction l generalizing before with
  | nil => rfl
  | cons a l ih => simp [imagesAfter, ih]

theorem imagesAfter_snoc (before : Option κ) (l : List α) (a : α) :
    imagesAfter key image before (l ++ [a]) =
      imagesAfter key image before l ++ [image ((tip key l).or before) a] := by
  induction l generalizing before with
  | nil => simp [imagesAfter, tip]
  | cons b l ih =>
    have htip : (tip key l).or (some (key b)) = (tip key (b :: l)).or before := by
      cases l with
      | nil => simp [tip]
      | cons c l => simp [tip, List.getLast?_cons]
    simp [imagesAfter, ih, htip]

theorem images_snoc (l : List α) (a : α) :
    images key image (l ++ [a]) = images key image l ++ [image (tip key l) a] := by
  simp [images, imagesAfter_snoc]

theorem committed_snoc (l : List α) (a : α) :
    Committed key image hash (l ++ [a]) ↔
      Committed key image hash l ∧ key a = hash (image (tip key l) a) := by
  have hlen : (l.map key).length = ((images key image l).map hash).length := by simp [images]
  simp only [Committed, images_snoc, List.map_append, List.map_cons, List.map_nil]
  constructor
  · intro h
    obtain ⟨hfront,hlast⟩ := List.append_inj h hlen
    exact ⟨hfront,by simpa using hlast⟩
  · rintro ⟨hfront,hlast⟩
    rw [hfront, hlast]

theorem Collide.append {bs bs' : List β} (h : Collide hash bs bs') (cs cs' : List β) :
    Collide hash (bs ++ cs) (bs' ++ cs') := by
  obtain ⟨i,b,b',hb,hb',hne,heq⟩ := h
  have hkeep : ∀ {xs ys : List β} {x : β}, xs[i]? = some x → (xs ++ ys)[i]? = some x := by
    intro xs ys x hx
    rw [List.getElem?_append_left (List.getElem?_eq_some_iff.mp hx).1, hx]
  exact ⟨i,b,b',hkeep hb,hkeep hb',hne,heq⟩

/-- From the last element backwards: either the images are the same, and so are the
digests before them, or the hash collides here. -/
theorem eq_or_collide {payload : α → ρ} (hread : Readable image payload) {l l' : List α}
    (hlen : l.length = l'.length) (h : Committed key image hash l)
    (h' : Committed key image hash l') (htip : tip key l = tip key l') :
    (l.map key = l'.map key ∧ l.map payload = l'.map payload) ∨
      Collide hash (images key image l) (images key image l') := by
  induction l using List.reverseRecOn generalizing l' with
  | nil =>
    obtain rfl : l' = [] := List.length_eq_zero_iff.mp hlen.symm
    exact .inl ⟨rfl,rfl⟩
  | append_singleton l a ih =>
    obtain ⟨l',a',rfl⟩ : ∃ m b, l' = m ++ [b] := by
      refine ⟨l'.dropLast,l'.getLast ?_,(List.dropLast_append_getLast _).symm⟩
      rintro rfl
      simp at hlen
    have hlen : l.length = l'.length := by simpa using hlen
    obtain ⟨h,ha⟩ := (committed_snoc l a).mp h
    obtain ⟨h',ha'⟩ := (committed_snoc l' a').mp h'
    have hkey : key a = key a' := by simpa [tip] using htip
    rw [images_snoc, images_snoc]
    by_cases himage : image (tip key l) a = image (tip key l') a'
    · have hends : tip key l = none ↔ tip key l' = none := by
        simp [tip, ← List.length_eq_zero_iff, hlen]
      obtain ⟨htips,hpayload⟩ := hread _ _ _ _ hends himage
      rcases ih hlen h h' htips with ⟨hkeys,hpayloads⟩ | hcollide
      · exact .inl ⟨by simp [hkeys, hkey],by simp [hpayloads, hpayload]⟩
      · exact .inr (hcollide.append _ _)
    · refine .inr ⟨l.length,_,_,?_,?_,himage,ha.symm.trans (hkey.trans ha')⟩
      · simp [images]
      · simp [images, hlen]

/-! ### Digests that come twice -/

/-- Two different byte strings in one chain, with one digest. -/
def CollideWithin (hash : β → κ) (bs : List β) : Prop :=
  ∃ b ∈ bs, ∃ b' ∈ bs, b ≠ b' ∧ hash b = hash b'

/-- What is hashed for the first element shows the digest of another one, which was
made from it. -/
def Loops (key : α → κ) (image : Option κ → α → β) (l : List α) : Prop :=
  ∃ a ∈ l.head?, ∃ c ∈ l, ∃ b ∈ l, image none a = image (some (key c)) b

def Repeats (key : α → κ) (image : Option κ → α → β) (hash : β → κ) (l : List α) : Prop :=
  CollideWithin hash (images key image l) ∨ Loops key image l

theorem images_append (l m : List α) :
    ∃ bs, images key image (l ++ m) = images key image l ++ bs := by
  induction m using List.reverseRecOn with
  | nil => exact ⟨[],by simp⟩
  | append_singleton m a ih =>
    obtain ⟨bs,hbs⟩ := ih
    exact ⟨bs ++ [image (tip key (l ++ m)) a],by rw [← List.append_assoc, images_snoc, hbs]; simp⟩

/-- What has come twice stays. -/
theorem Repeats.append {l : List α} (h : Repeats key image hash l) (m : List α) :
    Repeats key image hash (l ++ m) := by
  rcases h with ⟨b,hb,b',hb',hne,heq⟩ | ⟨a,ha,c,hc,b,hb,heq⟩
  · left
    obtain ⟨bs,hbs⟩ := @images_append _ _ _ key image l m
    rw [hbs]
    exact ⟨b,List.mem_append_left bs hb,b',List.mem_append_left bs hb',hne,heq⟩
  · right
    refine ⟨a,?_,c,List.mem_append_left m hc,b,List.mem_append_left m hb,heq⟩
    rw [List.head?_append, Option.mem_def.mp ha]
    rfl

/-- An element in the middle is hashed with the digest of the one before it. -/
theorem Committed.middle {front back : List α} {b : α}
    (h : Committed key image hash (front ++ b :: back)) :
    key b = hash (image (tip key front) b) ∧
      image (tip key front) b ∈ images key image (front ++ b :: back) := by
  induction back using List.reverseRecOn with
  | nil =>
    refine ⟨((committed_snoc front b).mp h).2,?_⟩
    rw [images_snoc]
    exact List.mem_append_right _ (List.mem_singleton_self _)
  | append_singleton back c ih =>
    have hassoc : front ++ b :: (back ++ [c]) = front ++ b :: back ++ [c] := by simp
    rw [hassoc] at h ⊢
    obtain ⟨hkey,hmem⟩ := ih ((committed_snoc _ c).mp h).1
    rw [images_snoc]
    exact ⟨hkey,List.mem_append_left _ hmem⟩

theorem tip_ne_none {l : List α} {a : α} (h : a ∈ l) : ∃ c ∈ l, tip key l = some (key c) := by
  have hne : l ≠ [] := List.ne_nil_of_mem h
  refine ⟨l.getLast hne,List.getLast_mem hne,?_⟩
  rw [tip, List.getLast?_eq_some_getLast hne]
  rfl

/-- The digest of a new element is that of an old one: their images differ, or they are
the same and so are the digests before the two elements, unless the old one is the first. -/
theorem repeated_snoc {payload : α → ρ} (hread : Readable image payload) {front back : List α}
    {a b : α} (hnodup : ((front ++ b :: back).map key).Nodup)
    (h : Committed key image hash (front ++ b :: back ++ [a])) (hkey : key b = key a) :
    Repeats key image hash (front ++ b :: back ++ [a]) := by
  obtain ⟨hfront,ha⟩ := (committed_snoc _ a).mp h
  obtain ⟨hb,hmem⟩ := hfront.middle
  by_cases himage : image (tip key front) b = image (tip key (front ++ b :: back)) a
  · right
    obtain ⟨c,hc,htip⟩ := @tip_ne_none _ _ key (front ++ b :: back) b (by simp)
    cases front using List.reverseRecOn with
    | nil =>
      rw [htip] at himage
      exact ⟨b,rfl,c,List.mem_append_left _ hc,a,by simp,himage⟩
    | append_singleton front d =>
      obtain ⟨htips,-⟩ := hread _ _ _ _ (by simp [tip]) himage
      have hlast : key ((b :: back).getLast (List.cons_ne_nil b back)) = key d := by
        simpa [tip, List.getLast?_append, List.getLast?_eq_some_getLast] using htips.symm
      rw [List.append_assoc, List.map_append, List.nodup_append] at hnodup
      have hd := hnodup.2.1
      rw [List.singleton_append, List.map_cons, List.nodup_cons] at hd
      exact absurd (hlast ▸ List.mem_map_of_mem (List.getLast_mem _)) hd.1
  · left
    rw [images_snoc]
    refine ⟨_,List.mem_append_left _ hmem,_,List.mem_append_right _ (List.mem_singleton_self _),
      himage,?_⟩
    rw [← hb, ← ha, hkey]

theorem nodup_or_repeats {payload : α → ρ} (hread : Readable image payload) {l : List α}
    (h : Committed key image hash l) : (l.map key).Nodup ∨ Repeats key image hash l := by
  induction l using List.reverseRecOn with
  | nil => exact .inl List.nodup_nil
  | append_singleton l a ih =>
    rcases ih ((committed_snoc l a).mp h).1 with hnodup | hrepeats
    · by_cases hfresh : key a ∈ l.map key
      · obtain ⟨b,hb,hkey⟩ := List.mem_map.mp hfresh
        obtain ⟨front,back,rfl⟩ := List.append_of_mem hb
        exact .inr (repeated_snoc hread hnodup h hkey)
      · left
        rw [List.map_append, List.nodup_append]
        refine ⟨hnodup,List.nodup_singleton _,?_⟩
        intro k hk k' hk' heq
        rw [List.map_singleton, List.mem_singleton] at hk'
        exact hfresh (hk' ▸ heq ▸ hk)
    · exact .inr (hrepeats.append _)

end HashCommitment
