import GsnNode.LinkedChain
import GsnNode.LogTransaction

/-! The hash chain of a log, over everything that may be written to it. -/

set_option autoImplicit false

namespace GsnNode
open ByteWords LinkedChain LogTransaction

section Chain
variable (sha : List UInt8 → Hash512)

/-- The hash of a record is the one that it gets after a record with hash `salt`. -/
def LinksTo (salt : Hash512) (r : Activity) : Prop :=
  (Activity.salted sha r.header r.content salt).header.hash = r.header.hash

def LinkedLog (records : List Activity) : Prop :=
  ∀ i (h : i + 1 < records.length), LinksTo sha records[i].header.hash records[i + 1]

theorem linkedLog_iff (records : List Activity) :
    LinkedLog sha records ↔
      Linked (fun r : Activity => r.header.hash) (LinksTo sha) records := by
  rw [Linked, List.isChain_iff_getElem]
  rfl

/-- The ways in which a log is written to. -/
inductive ChainStep (t t' : LogTransaction) : Prop where
  | generated (hdr : ActivityHeader) (r : Activity) : t.generateRecord sha hdr = .ok r →
      t.writeRecord sha r = .ok t' → ChainStep t t'
  | generatedWith (hdr : ActivityHeader) (content : MsgContent) (r : Activity) :
      t.generateRecordWith sha hdr content = .ok r → t.writeRecord sha r = .ok t' → ChainStep t t'
  | verified (r : Activity) : t.records ≠ [] → t.headVerification sha r = .ok true →
      t.writeRecord sha r = .ok t' → ChainStep t t'
  | segment (other : LogTransaction) (last : Activity) (s : LogSegment) : t.back = .ok last →
      LinkedLog sha other.records → other.segmentFrom last.header.hash = .ok s →
      t.writeSegment sha s = .ok t' → ChainStep t t'
  | segmentWire (other : LogTransaction) (last : Activity) (s decoded : LogSegment)
      (beyond : Nat → Option UInt8) : t.back = .ok last → LinkedLog sha other.records →
      other.segmentFrom last.header.hash = .ok s → (∀ r ∈ s.segment, r.WellFormed) →
      LogSegment.deserialise ⟨s.serialise,beyond⟩ = .ok decoded →
      t.writeSegment sha decoded = .ok t' → ChainStep t t'

inductive Grown : LogTransaction → Prop where
  | start {t : LogTransaction} : t.records = [] → Grown t
  | step {t t' : LogTransaction} : Grown t → ChainStep sha t t' → Grown t'

theorem salted_linksTo (hdr : ActivityHeader) (content : MsgContent) (salt : Hash512) :
    LinksTo sha salt (Activity.salted sha hdr content salt) := rfl

theorem linked_writeRecord {t t' : LogTransaction} {r : Activity} (ht : LinkedLog sha t.records)
    (hr : ∀ last ∈ t.records.getLast?, LinksTo sha last.header.hash r)
    (h : t.writeRecord sha r = .ok t') : LinkedLog sha t'.records := by
  obtain ⟨-,-,hrecords,-,-⟩ := writeRecord_ok sha h
  rw [hrecords, linkedLog_iff]
  exact ((linkedLog_iff sha _).mp ht).snoc hr

/-- A segment cut off after a record with the hash of the last one, or the first
part of such a segment. -/
theorem linked_writeSegment {t t' other : LogTransaction} {last : Activity} {s written : LogSegment}
    (ht : LinkedLog sha t.records) (hlast : t.back = .ok last)
    (hother : LinkedLog sha other.records) (hs : other.segmentFrom last.header.hash = .ok s)
    {k : Nat} (hwritten : written.segment = s.segment.take k)
    (h : t.writeSegment sha written = .ok t') : LinkedLog sha t'.records := by
  obtain ⟨-,-,hrecords,-,-⟩ := writeSegment_ok sha h
  obtain ⟨before,r,after,hsplit,hr,rfl⟩ := segmentFrom_ok hs
  have hcut : LinkedLog sha (before ++ r :: after.take k) := by
    rw [linkedLog_iff] at hother ⊢
    have htake := hother.take (before.length + (k + 1))
    rw [hsplit, List.take_length_add_append, List.take_succ_cons] at htake
    exact htake
  rw [hrecords, hwritten, linkedLog_iff]
  exact ((linkedLog_iff sha _).mp ht).append_suffix (back_ok hlast).2
    ((linkedLog_iff sha _).mp hcut) hr

theorem tail_of_getLast? {t : LogTransaction} (hvalid : t.isValid = .ok ()) {last : Activity}
    (hlast : t.records.getLast? = some last) :
    t.size = .ok t.records.length ∧ t.records.length ≠ 0 ∧ t.back = .ok last := by
  refine ⟨by simp [size, hvalid],?_,back_eq (isValid_ok.mp hvalid) hlast⟩
  intro hzero
  simp [List.length_eq_zero_iff.mp hzero] at hlast

theorem generateRecord_eq {t : LogTransaction} {last : Activity} (hvalid : t.isValid = .ok ())
    (hlast : t.records.getLast? = some last) (hdr : ActivityHeader) :
    t.generateRecord sha hdr = .ok (Activity.saltedHeader sha hdr last.header.hash) := by
  obtain ⟨hsize,hne,hback⟩ := tail_of_getLast? hvalid hlast
  simp only [generateRecord, hvalid, hsize, ok_bind, if_neg hne, hback, pure_eq_ok]

theorem generateRecordWith_eq {t : LogTransaction} {last : Activity} (hvalid : t.isValid = .ok ())
    (hlast : t.records.getLast? = some last) (hdr : ActivityHeader) (content : MsgContent) :
    t.generateRecordWith sha hdr content =
      .ok (Activity.salted sha hdr content last.header.hash) := by
  obtain ⟨hsize,hne,hback⟩ := tail_of_getLast? hvalid hlast
  simp only [generateRecordWith, hvalid, hsize, ok_bind, if_neg hne, hback, pure_eq_ok]

theorem generateRecord_linksTo {t : LogTransaction} {hdr : ActivityHeader} {r last : Activity}
    (h : t.generateRecord sha hdr = .ok r) (hlast : t.records.getLast? = some last) :
    LinksTo sha last.header.hash r := by
  obtain ⟨⟨⟩,hvalid,-⟩ := bind_eq_ok.mp h
  rw [generateRecord_eq sha hvalid hlast, Except.ok.injEq] at h
  exact h ▸ salted_linksTo sha hdr .empty last.header.hash

theorem generateRecordWith_linksTo {t : LogTransaction} {hdr : ActivityHeader}
    {content : MsgContent} {r last : Activity} (h : t.generateRecordWith sha hdr content = .ok r)
    (hlast : t.records.getLast? = some last) : LinksTo sha last.header.hash r := by
  obtain ⟨⟨⟩,hvalid,-⟩ := bind_eq_ok.mp h
  rw [generateRecordWith_eq sha hvalid hlast, Except.ok.injEq] at h
  exact h ▸ salted_linksTo sha hdr content last.header.hash

theorem headVerification_linksTo {t : LogTransaction} {r last : Activity}
    (h : t.headVerification sha r = .ok true) (hlast : t.records.getLast? = some last) :
    LinksTo sha last.header.hash r := by
  obtain ⟨⟨⟩,hvalid,h⟩ := bind_eq_ok.mp h
  rw [back_eq (isValid_ok.mp hvalid) hlast, ok_bind] at h
  simpa [LinksTo] using Except.ok.inj h

theorem LinkedLog.chainStep {t t' : LogTransaction} (ht : LinkedLog sha t.records)
    (h : ChainStep sha t t') : LinkedLog sha t'.records := by
  cases h with
  | generated hdr r hgen hwrite =>
    exact linked_writeRecord sha ht (fun _ hl => generateRecord_linksTo sha hgen hl) hwrite
  | generatedWith hdr content r hgen hwrite =>
    exact linked_writeRecord sha ht (fun _ hl => generateRecordWith_linksTo sha hgen hl) hwrite
  | verified r _ hcheck hwrite =>
    exact linked_writeRecord sha ht (fun _ hl => headVerification_linksTo sha hcheck hl) hwrite
  | segment other last s hlast hother hs hwrite =>
    exact linked_writeSegment sha ht hlast hother hs List.take_length.symm hwrite
  | segmentWire other last s decoded beyond hlast hother hs hwf hdecoded hwrite =>
    obtain ⟨before,r,after,-,-,rfl⟩ := segmentFrom_ok hs
    rw [LogSegment.deserialise_serialise hwf (LogSegment.ofRecords_num_le _ _),
      Except.ok.injEq] at hdecoded
    subst decoded
    exact linked_writeSegment sha ht hlast hother hs rfl hwrite

/-- Every log that is built from an empty one stays linked. -/
theorem grown_linked {t : LogTransaction} (h : Grown sha t) : LinkedLog sha t.records := by
  induction h with
  | start hempty =>
    rw [hempty, linkedLog_iff]
    exact Linked.nil
  | step _ hstep ih => exact ih.chainStep sha hstep

end Chain

theorem grown_linked_two : ∃ t : LogTransaction, t.records.length = 2 ∧
    LinkedLog (fun bs => Block.ofList 64 [UInt8.ofNat bs.length]) t.records := by
  have hstart : Grown (fun bs => Block.ofList 64 [UInt8.ofNat bs.length]) ⟨[],.init,true⟩ :=
    .start rfl
  have hone := hstart.step (.generated ⟨default,0,⟨0⟩,default,0,default⟩ _ rfl rfl)
  have htwo := hone.step (.generatedWith ⟨default,0,⟨0⟩,default,0,default⟩ .empty _ rfl rfl)
  exact ⟨_,rfl,grown_linked _ htwo⟩

end GsnNode
