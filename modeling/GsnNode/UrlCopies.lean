import GsnNode.UrlDecoding

/-! Copies of a URL object that has been decoded and edited. -/

set_option autoImplicit false

namespace GsnNode
open NetspaceUrl FuelLoop

/-- What a caller can do to an object: it may put anything where the accessors refer
to, and it may call `to_string`. -/
inductive UrlEdit where
  | staticRoute : List Text → UrlEdit
  | geosubQuery : Text → UrlEdit
  | resource : Text → UrlEdit
  | query : Text → UrlEdit
  | toString : UrlEdit

def UrlEdit.apply (u : NetspaceUrl) : UrlEdit → Call NetspaceUrl
  | .staticRoute gsn => pure { u with gsn := gsn }
  | .geosubQuery glq => pure { u with glq := glq }
  | .resource res => pure { u with res := res }
  | .query spq => pure { u with spq := spq }
  | .toString => do
    let r ← u.toString
    pure r.2

namespace NetspaceUrl

/-- `netspace_url(const netspace_url& orig)`: the other members are constructed empty. -/
def copyConstruct (orig : NetspaceUrl) : NetspaceUrl := ⟨orig.url,[],[],[],[]⟩

/-- The implicit assignment, which copies every member. -/
def copyAssign (_self orig : NetspaceUrl) : NetspaceUrl :=
  ⟨orig.url,orig.gsn,orig.glq,orig.res,orig.spq⟩

def shown (u : NetspaceUrl) : Call Text := do
  let r ← u.toString
  pure r.1

structure SameParts (u v : NetspaceUrl) : Prop where
  gsn : v.gsn = u.gsn
  glq : v.glq = u.glq
  res : v.res = u.res
  spq : v.spq = u.spq

end NetspaceUrl

/-- An object and a copy of it. -/
structure UrlPair where
  original : NetspaceUrl
  copy : NetspaceUrl

def UrlPair.editOriginal (p : UrlPair) (e : UrlEdit) : Call UrlPair := do
  let u ← e.apply p.original
  pure { p with original := u }

/-- Whatever is done to the original later, the copy has the parts and the text that
the original had when it was copied. -/
def CopyFaithful (copy : NetspaceUrl → NetspaceUrl) (u : NetspaceUrl) : Prop :=
  ∀ (later : List UrlEdit) (p : UrlPair),
    later.foldlM UrlPair.editOriginal ⟨u,copy u⟩ = .ok p →
      SameParts u p.copy ∧ p.copy.shown = u.shown

theorem UrlPair.editOriginal_copy {p p' : UrlPair} {e : UrlEdit}
    (h : p.editOriginal e = .ok p') : p'.copy = p.copy := by
  obtain ⟨u,-,h⟩ := bind_eq_ok.mp h
  obtain rfl := Except.ok.inj h
  rfl

theorem UrlPair.edits_copy {later : List UrlEdit} {p p' : UrlPair}
    (h : later.foldlM editOriginal p = .ok p') : p'.copy = p.copy :=
  foldlM_invariant (fun q : UrlPair => q.copy = p.copy)
    (fun _ _ _ hcopy hedit => (editOriginal_copy hedit).trans hcopy) rfl h

theorem copyFaithful_iff_now (copy : NetspaceUrl → NetspaceUrl) (u : NetspaceUrl) :
    CopyFaithful copy u ↔ SameParts u (copy u) ∧ (copy u).shown = u.shown := by
  constructor
  · exact fun h => h [] _ rfl
  · intro h later p hp
    rw [UrlPair.edits_copy hp]
    exact h

/-- At any point of the life of an accepted URL the copy constructor is faithful exactly
if the object has no part left, which is not so when it has just been decoded. The
assignment is always faithful. -/
theorem copyConstruct_faithful_iff {mUrl : Text} {edits : List UrlEdit} {u : NetspaceUrl}
    (h : (decode mUrl >>= fun u => edits.foldlM UrlEdit.apply u) = .ok u) :
    (CopyFaithful copyConstruct u ↔ u.gsn = [] ∧ u.glq = [] ∧ u.res = [] ∧ u.spq = []) ∧
      (∀ self, CopyFaithful (copyAssign self) u) ∧
      (edits = [] → ¬ CopyFaithful copyConstruct u) := by
  have hiff : CopyFaithful copyConstruct u ↔
      u.gsn = [] ∧ u.glq = [] ∧ u.res = [] ∧ u.spq = [] := by
    rw [copyFaithful_iff_now]
    constructor
    · intro hnow
      exact ⟨hnow.1.gsn.symm,hnow.1.glq.symm,hnow.1.res.symm,hnow.1.spq.symm⟩
    · intro hempty
      have hself : u.copyConstruct = u := by
        obtain ⟨url,gsn,glq,res,spq⟩ := u
        obtain ⟨rfl,rfl,rfl,rfl⟩ := hempty
        rfl
      rw [hself]
      exact ⟨⟨rfl,rfl,rfl,rfl⟩,rfl⟩
  refine ⟨hiff,fun self => ?_,?_⟩
  · exact (copyFaithful_iff_now _ u).mpr ⟨⟨rfl,rfl,rfl,rfl⟩,rfl⟩
  · intro hfresh hfaithful
    subst hfresh
    obtain ⟨u₀,hu₀,hsame⟩ := bind_eq_ok.mp h
    obtain rfl : u₀ = u := Except.ok.inj hsame
    obtain ⟨-,-,-,hne,-⟩ := decode_ok hu₀
    exact hne (hiff.mp hfaithful).1

/-- A URL that was emptied after it was read, and one as it was read. -/
theorem copyConstruct_faithful_iff_cleared :
    CopyFaithful copyConstruct ⟨ascii "spring://a",[],[],[],[]⟩ ∧
      (∀ self, CopyFaithful (copyAssign self) ⟨ascii "spring://a",[],[],[],[]⟩) ∧
      ¬ CopyFaithful copyConstruct ⟨ascii "spring://a",[ascii "a"],[],[],[]⟩ := by
  have hcleared := @copyConstruct_faithful_iff (ascii "spring://a") [.staticRoute []]
    ⟨ascii "spring://a",[],[],[],[]⟩ (by decide +kernel)
  have hfresh := @copyConstruct_faithful_iff (ascii "spring://a") []
    ⟨ascii "spring://a",[ascii "a"],[],[],[]⟩ (by decide +kernel)
  exact ⟨hcleared.1.mpr ⟨rfl,rfl,rfl,rfl⟩,hcleared.2.1,hfresh.2.2 rfl⟩

/-- `to_string` of the copy gives `spring://`. -/
theorem copied_url_is_empty :
    decode (ascii "spring://a") = .ok ⟨ascii "spring://a",[ascii "a"],[],[],[]⟩ ∧
      ¬ CopyFaithful copyConstruct ⟨ascii "spring://a",[ascii "a"],[],[],[]⟩ := by
  refine ⟨by decide +kernel,fun h => ?_⟩
  have hparts := ((copyFaithful_iff_now _ _).mp h).1
  exact absurd hparts.gsn (by decide)

end GsnNode
