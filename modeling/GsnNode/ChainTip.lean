import GsnNode.HashChain
import GsnNode.HashCommitment

/-! What the hash of the last record of a log commits to. -/

set_option autoImplicit false

namespace GsnNode
open ByteWords HashCommitment LinkedChain

section Tip
variable (sha : List UInt8 → Hash512)

/-- A log whose first record has the hash without a salt, and each later one the
hash with that of the record before it. -/
structure HashedLog (records : List Activity) : Prop where
  first : ∀ r ∈ records.head?,
    (Activity.ofContent sha r.header r.content).header.hash = r.header.hash
  linked : LinkedLog sha records
  sizes : ∀ r ∈ records, r.WellFormed

def recordHash (r : Activity) : Hash512 := r.header.hash

/-- The bytes that are hashed for a record. -/
def preimage : Option Hash512 → Activity → List UInt8
  | none, r => r.serialisePartial
  | some salt, r => salt.data ++ r.serialisePartial

def hashedBytes (records : List Activity) : List (List UInt8) := images recordHash preimage records

theorem Activity.WellFormed.msgSize_eq {r : Activity} (h : r.WellFormed) :
    r.content.size = r.header.msgSize := by
  rw [MsgContent.size, ← h, UInt64.ofNat_toNat]

theorem ofContent_hash {r : Activity} (h : r.WellFormed) :
    (Activity.ofContent sha r.header r.content).header.hash = sha (preimage none r) := by
  rw [Activity.ofContent, h.msgSize_eq]
  rfl

theorem salted_hash {r : Activity} (h : r.WellFormed) (salt : Hash512) :
    (Activity.salted sha r.header r.content salt).header.hash = sha (preimage (some salt) r) := by
  rw [Activity.salted, h.msgSize_eq]
  simp [Activity.rehash, Activity.withHash, Activity.serialise, Activity.serialisePartial,
    ActivityHeader.bytes, preimage]
  rfl

theorem serialise_eq (r : Activity) : r.serialise = (recordHash r).data ++ r.serialisePartial := by
  simp [Activity.serialise, Activity.serialisePartial, ActivityHeader.bytes, recordHash]

/-- A salt has 64 bytes, so that it can be told from what follows it. -/
theorem preimage_readable : Readable preimage Activity.serialisePartial := by
  intro before before' r r' hends heq
  match before, before' with
  | none, none => exact ⟨rfl,heq⟩
  | some salt, some salt' =>
    obtain ⟨hsalt,hpart⟩ := List.append_inj heq (by simp)
    exact ⟨congrArg some (Block.ext hsalt),hpart⟩
  | none, some _ => simp at hends
  | some _, none => simp at hends

theorem linked_hashes {r : Activity} {records : List Activity}
    (h : Linked recordHash (LinksTo sha) (r :: records)) (hsizes : ∀ r ∈ records, r.WellFormed) :
    records.map recordHash =
      (imagesAfter recordHash preimage (some (recordHash r)) records).map sha := by
  induction records generalizing r with
  | nil => rfl
  | cons r' records ih =>
    obtain ⟨hlink,hrest⟩ := List.isChain_cons_cons.mp h
    have hhash : recordHash r' = sha (preimage (some (recordHash r)) r') :=
      hlink.symm.trans (salted_hash sha (hsizes r' List.mem_cons_self) _)
    simp only [imagesAfter, List.map_cons, ← hhash]
    rw [ih hrest fun r hr => hsizes r (List.mem_cons_of_mem _ hr)]

theorem HashedLog.committed {records : List Activity} (h : HashedLog sha records) :
    Committed recordHash preimage sha records := by
  cases records with
  | nil => rfl
  | cons r records =>
    have hfirst : recordHash r = sha (preimage none r) :=
      (h.first r rfl).symm.trans (ofContent_hash sha (h.sizes r List.mem_cons_self))
    have hrest := linked_hashes sha ((linkedLog_iff sha _).mp h.linked)
      fun r hr => h.sizes r (List.mem_cons_of_mem _ hr)
    simp only [Committed, images, imagesAfter, List.map_cons, ← hfirst, hrest]

/-- Two logs of one length whose last records have the same hash are the same byte
for byte, unless SHA-512 has the same digest for different bytes that were hashed at
one place of the two logs. -/
theorem tip_commits {log log' : List Activity} (h : HashedLog sha log) (h' : HashedLog sha log')
    (hlen : log.length = log'.length) {last last' : Activity} (hlast : log.getLast? = some last)
    (hlast' : log'.getLast? = some last') (htip : last.header.hash = last'.header.hash) :
    log.map Activity.serialise = log'.map Activity.serialise ∨
      ∃ (i : Nat) (m m' : List UInt8), (hashedBytes log)[i]? = some m ∧
        (hashedBytes log')[i]? = some m' ∧ m ≠ m' ∧ sha m = sha m' := by
  have htips : tip recordHash log = tip recordHash log' := by
    simp [tip, hlast, hlast', recordHash, htip]
  rcases eq_or_collide preimage_readable hlen (h.committed sha) (h'.committed sha) htips with
    ⟨hhashes,hpartials⟩ | hcollide
  · left
    have hzip : ∀ l : List Activity, l.map Activity.serialise =
        List.zipWith (fun hash part => hash.data ++ part) (l.map recordHash)
          (l.map Activity.serialisePartial) := by
      intro l
      simp [List.zipWith_map, serialise_eq]
    rw [hzip, hzip, hhashes, hpartials]
  · exact .inr hcollide

end Tip

theorem linkedPair_hashed (first second : MsgContent) :
    HashedLog lengthHash (linkedPair first second) := by
  refine ⟨?_,?_,?_⟩
  · intro r hr
    cases hr
    rfl
  · intro i h
    match i, h with
    | 0, _ => rfl
  · intro r hr
    rcases List.mem_pair.mp hr with rfl | rfl
    · exact MsgContent.size_toNat first
    · exact MsgContent.size_toNat second

theorem linkedPair_tip (first second : MsgContent) :
    (linkedPair first second).getLast? = some (linkedRecord first second) := rfl

/-- Two linked logs that differ in both contents and have one tip. -/
theorem tip_commits_colliding :
    ∃ (i : Nat) (m m' : List UInt8),
      (hashedBytes (linkedPair ⟨ascii "ab",by decide⟩ ⟨ascii "c",by decide⟩))[i]? = some m ∧
      (hashedBytes (linkedPair ⟨ascii "de",by decide⟩ ⟨ascii "f",by decide⟩))[i]? = some m' ∧
      m ≠ m' ∧ lengthHash m = lengthHash m' := by
  have hcommits := tip_commits lengthHash
    (linkedPair_hashed ⟨ascii "ab",by decide⟩ ⟨ascii "c",by decide⟩)
    (linkedPair_hashed ⟨ascii "de",by decide⟩ ⟨ascii "f",by decide⟩) (by simp [linkedPair])
    (linkedPair_tip _ _) (linkedPair_tip _ _) (by decide +kernel)
  exact hcommits.resolve_left (by decide +kernel)

end GsnNode
