import GsnNode.LogTransaction

/-! The ways in which an activity comes about, and whether its header has the size
of its content. -/

set_option autoImplicit false

namespace GsnNode
open ByteWords MemoryRegion

/-- A default header, with padding that nothing has set. -/
def ActivityHeader.init (padding : Block 4) : ActivityHeader :=
  ⟨default,0,⟨0⟩,padding,0,default⟩

/-- `activity()` -/
def Activity.init (padding : Block 4) : Activity := ⟨.init padding,.empty⟩

/-- A call of one of the constructors. -/
inductive Construction where
  | init (padding : Block 4)
  | header (hdr : ActivityHeader)
  | content (hdr : ActivityHeader) (msg : MsgContent)
  | salted (hdr : ActivityHeader) (msg : MsgContent) (salt : Hash512)
  | saltedHeader (hdr : ActivityHeader) (salt : Hash512)

/-- `rehash`, or the activity that another one becomes which deserialises the serial
form, with this memory behind it. -/
inductive Change where
  | rehash (salt : Hash512)
  | deserialise (beyond : Nat → Option UInt8)

section Forms
variable (sha : List UInt8 → Hash512)

def Construction.make : Construction → Activity
  | .init padding => Activity.init padding
  | .header hdr => Activity.ofHeader sha hdr
  | .content hdr msg => Activity.ofContent sha hdr msg
  | .salted hdr msg salt => Activity.salted sha hdr msg salt
  | .saltedHeader hdr salt => Activity.saltedHeader sha hdr salt

def Change.apply (a : Activity) : Change → Call Activity
  | .rehash salt => pure (a.rehash sha salt)
  | .deserialise beyond => Activity.deserialise ⟨a.serialise,beyond⟩ 0

end Forms

structure Activity.Intact (a : Activity) : Prop where
  wellFormed : a.WellFormed
  survives : ∀ beyond, deserialise ⟨a.serialise,beyond⟩ 0 = .ok a

theorem Activity.WellFormed.intact {a : Activity} (ha : a.WellFormed) : a.Intact := by
  refine ⟨ha,fun beyond => ?_⟩
  have hread := deserialise_serialise ha [] [] beyond
  rwa [List.nil_append, List.append_nil, List.length_nil] at hread

section Forms
variable (sha : List UInt8 → Hash512)

theorem Activity.rehash_wellFormed (a : Activity) (salt : Hash512) :
    (a.rehash sha salt).WellFormed ↔ a.WellFormed := Iff.rfl

/-- The constructor without a content and a salt trusts the header. -/
theorem Activity.ofHeader_wellFormed (hdr : ActivityHeader) :
    (Activity.ofHeader sha hdr).WellFormed ↔ hdr.msgSize = 0 := by
  have hsize : (Activity.ofHeader sha hdr).WellFormed ↔ hdr.msgSize.toNat = 0 := Iff.rfl
  rw [hsize, ← UInt64.toNat_zero, UInt64.toNat_inj]

theorem Construction.make_wellFormed (c : Construction) :
    (c.make sha).WellFormed ↔ ∀ hdr, c = .header hdr → hdr.msgSize = 0 := by
  cases c with
  | header hdr =>
    rw [make, Activity.ofHeader_wellFormed]
    constructor
    · intro hzero hdr' heq
      obtain rfl := Construction.header.inj heq
      exact hzero
    · exact fun h => h hdr rfl
  | init padding => exact iff_of_true rfl (fun _ h => Construction.noConfusion h)
  | content hdr msg => exact iff_of_true msg.size_toNat (fun _ h => Construction.noConfusion h)
  | salted hdr msg salt => exact iff_of_true msg.size_toNat (fun _ h => Construction.noConfusion h)
  | saltedHeader hdr salt =>
    exact iff_of_true MsgContent.empty.size_toNat (fun _ h => Construction.noConfusion h)

theorem Change.apply_wellFormed {a : Activity} (ha : a.WellFormed) (change : Change) :
    ∃ a', change.apply sha a = .ok a' ∧ a'.WellFormed := by
  cases change with
  | rehash salt => exact ⟨_,rfl,(Activity.rehash_wellFormed sha a salt).mpr ha⟩
  | deserialise beyond => exact ⟨a,ha.intact.survives beyond,ha⟩

theorem changes_wellFormed {a : Activity} (ha : a.WellFormed) (changes : List Change) :
    ∃ a', changes.foldlM (Change.apply sha) a = .ok a' ∧ a'.WellFormed := by
  induction changes generalizing a with
  | nil => exact ⟨a,rfl,ha⟩
  | cons change changes ih =>
    obtain ⟨b,hb,hwf⟩ := change.apply_wellFormed sha ha
    obtain ⟨a',ha',hwf'⟩ := ih hwf
    exact ⟨a',by rw [List.foldlM_cons, hb, ok_bind, ha'],hwf'⟩

theorem activity_intact_iff (c : Construction) :
    (∀ changes : List Change, ∃ a,
      changes.foldlM (Change.apply sha) (c.make sha) = .ok a ∧ a.Intact) ↔
    ∀ hdr, c = .header hdr → hdr.msgSize = 0 := by
  rw [← c.make_wellFormed sha]
  constructor
  · intro h
    obtain ⟨a,ha,hintact⟩ := h []
    obtain rfl := Except.ok.inj ha
    exact hintact.wellFormed
  · intro hwf changes
    obtain ⟨a,ha,hwf'⟩ := changes_wellFormed sha hwf changes
    exact ⟨a,ha,hwf'.intact⟩

end Forms

def sizedHeader : ActivityHeader := ⟨default,0,⟨0⟩,default,1,default⟩

theorem header_only_not_intact : ¬ ∀ changes : List Change, ∃ a,
    changes.foldlM (Change.apply lengthHash) ((Construction.header sizedHeader).make lengthHash) =
      .ok a ∧ a.Intact := by
  intro h
  obtain ⟨a,ha,hintact⟩ := h []
  obtain rfl := Except.ok.inj ha
  exact absurd hintact.wellFormed (by decide)

end GsnNode
