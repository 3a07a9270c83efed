import GsnNode.ActivityRecord

/-! What the hash of a record depends on. The constructors hash the bytes of the header
as they stand in memory, behind the field that holds the hash. -/

set_option autoImplicit false

namespace GsnNode
open ByteWords

/-- The headers say the same; the old hash, the old size and the bytes that align the
size may differ. -/
structure SameMeaning (hdr hdr' : ActivityHeader) : Prop where
  timestamp : hdr.timestamp = hdr'.timestamp
  type : hdr.type = hdr'.type
  signature : hdr.signature = hdr'.signature

/-- What `serialise_partial` gives for a record with this content. -/
def meaningBytes (hdr : ActivityHeader) (content : MsgContent) : List UInt8 :=
  Activity.serialisePartial ⟨{ hdr with msgSize := content.size },content⟩

section Hashes
variable (sha : List UInt8 → Hash512)

/-- The constructors give both records the same hash, without a salt and with any. -/
def SameHashes (hdr hdr' : ActivityHeader) (content : MsgContent) : Prop :=
  (Activity.ofContent sha hdr content).header.hash =
      (Activity.ofContent sha hdr' content).header.hash ∧
    ∀ salt, (Activity.salted sha hdr content salt).header.hash =
      (Activity.salted sha hdr' content salt).header.hash

theorem ofContent_meaning (hdr : ActivityHeader) (content : MsgContent) :
    (Activity.ofContent sha hdr content).header.hash = sha (meaningBytes hdr content) := rfl

theorem salted_meaning (hdr : ActivityHeader) (content : MsgContent) (salt : Hash512) :
    (Activity.salted sha hdr content salt).header.hash =
      sha (salt.data ++ meaningBytes hdr content) := by
  rw [meaningBytes, Activity.serialisePartial, ← List.append_assoc]
  rfl

end Hashes

/-- Of what is hashed only the padding is not part of the meaning. -/
theorem meaningBytes_eq_iff {hdr hdr' : ActivityHeader} (h : SameMeaning hdr hdr')
    (content : MsgContent) :
    meaningBytes hdr content = meaningBytes hdr' content ↔ hdr.padding = hdr'.padding := by
  simp only [meaningBytes, Activity.serialisePartial, ActivityHeader.bytesPartial, h.timestamp,
    h.type, h.signature, List.append_left_inj, List.append_right_inj]
  exact ⟨Block.ext,congrArg Block.data⟩

theorem sameHashes_of_padding {hdr hdr' : ActivityHeader} (h : SameMeaning hdr hdr')
    (hpadding : hdr.padding = hdr'.padding) (sha : List UInt8 → Hash512) (content : MsgContent) :
    SameHashes sha hdr hdr' content := by
  have hbytes := (meaningBytes_eq_iff h content).mpr hpadding
  constructor
  · rw [ofContent_meaning, ofContent_meaning, hbytes]
  · intro salt
    rw [salted_meaning, salted_meaning, hbytes]

/-- The records have the same hash, whatever the hash function, exactly if the padding
is the same. Under a given function different padding with the same hash is a collision
of the two strings that are hashed. -/
theorem sameHashes_iff {hdr hdr' : ActivityHeader} (h : SameMeaning hdr hdr')
    (content : MsgContent) :
    ((∀ sha, SameHashes sha hdr hdr' content) ↔ hdr.padding = hdr'.padding) ∧
      ∀ sha, SameHashes sha hdr hdr' content → hdr.padding = hdr'.padding ∨
        (meaningBytes hdr content ≠ meaningBytes hdr' content ∧
          sha (meaningBytes hdr content) = sha (meaningBytes hdr' content)) := by
  have hcollide (sha : List UInt8 → Hash512) (hsame : SameHashes sha hdr hdr' content) :
      hdr.padding = hdr'.padding ∨
        (meaningBytes hdr content ≠ meaningBytes hdr' content ∧
          sha (meaningBytes hdr content) = sha (meaningBytes hdr' content)) := by
    rw [or_iff_not_imp_left, ← meaningBytes_eq_iff h content]
    exact fun hne => ⟨hne,hsame.1⟩
  refine ⟨⟨fun hall => ?_,fun hpadding sha => sameHashes_of_padding h hpadding sha content⟩,
    hcollide⟩
  -- a function that tells the first string from all others
  have hsplit := hcollide _
    (hall fun bs => if bs = meaningBytes hdr content then default else Block.ofList 64 [1])
  refine hsplit.resolve_right fun hbad => ?_
  obtain ⟨hne,heq⟩ := hbad
  rw [if_pos rfl, if_neg (Ne.symm hne)] at heq
  exact absurd heq (by decide)

def paddedHeader (padding : Block 4) : ActivityHeader := ⟨default,0,⟨0⟩,padding,0,default⟩

/-- A header that was used before. -/
def staleHeader : ActivityHeader := ⟨Block.ofList 64 [7],0,⟨0⟩,default,9,default⟩

/-- A header that was used before has the same hashes as a new one, and a header with another
padding has not. -/
theorem sameHashes_iff_stale_hash :
    (∀ sha, SameHashes sha staleHeader (paddedHeader default) .empty) ∧
      ¬ ∀ sha, SameHashes sha (paddedHeader (Block.ofList 4 [1])) (paddedHeader default) .empty := by
  constructor
  · have hsame : SameMeaning staleHeader (paddedHeader default) := ⟨rfl,rfl,rfl⟩
    exact (sameHashes_iff hsame .empty).1.mpr rfl
  · intro h
    have hsame : SameMeaning (paddedHeader (Block.ofList 4 [1])) (paddedHeader default) :=
      ⟨rfl,rfl,rfl⟩
    exact absurd ((sameHashes_iff hsame .empty).1.mp h) (by decide)

/-- SHA-512 of the strings that are hashed for an empty record whose padding is 0, and
whose padding begins with a 1. -/
def paddingDigest (bs : List UInt8) : Hash512 :=
  if bs = meaningBytes (paddedHeader default) .empty then Block.ofList 64 [
    47,61,206,38,79,37,40,127,82,122,32,32,3,59,143,108,
    80,198,40,202,185,2,250,255,19,160,246,13,162,75,209,249,
    240,180,32,168,117,146,193,53,44,64,94,211,21,70,194,227,
    187,212,100,214,158,188,167,165,157,30,215,132,137,24,104,236]
  else Block.ofList 64 [
    20,109,120,162,216,219,12,43,191,164,55,25,149,107,202,199,
    23,231,144,250,210,210,155,38,218,222,130,179,5,130,180,77,
    230,29,220,142,249,252,238,56,145,157,254,19,66,71,202,138,
    228,172,8,69,53,163,56,183,71,221,30,157,70,100,46,6]

theorem padding_changes_hash :
    SameMeaning (paddedHeader default) (paddedHeader (Block.ofList 4 [1])) ∧
      ¬ SameHashes paddingDigest (paddedHeader default) (paddedHeader (Block.ofList 4 [1]))
        .empty := by
  refine ⟨⟨rfl,rfl,rfl⟩,fun h => ?_⟩
  exact absurd h.1 (by decide +kernel)

end GsnNode
