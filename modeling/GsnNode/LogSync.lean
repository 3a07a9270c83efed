import GsnNode.KeyedList
import GsnNode.LogTransaction

/-! Bringing a log up to date from another one over the wire. -/

set_option autoImplicit false

namespace GsnNode
open ByteWords KeyedList LogTransaction

/-- What comes after the last record of the one log is cut out of the other one. -/
theorem segmentFrom_rest {source peer : LogTransaction} (hsource : source.valid = true)
    (hpeer : peer.valid = true)
    (hdistinct : Distinct (fun r : Activity => r.header.hash) source.records)
    (hne : peer.records ≠ []) {rest : List Activity} (hrest : peer.records ++ rest = source.records) :
    ∃ last, peer.back = .ok last ∧ source.segmentFrom last.header.hash =
      .ok (LogSegment.ofRecords source.header.hash rest) := by
  obtain ⟨front,last,hlast⟩ : ∃ front last, peer.records = front ++ [last] :=
    ⟨_,_,(List.dropLast_append_getLast hne).symm⟩
  have hsplit : source.records = front ++ last :: rest := by rw [← hrest, hlast]; simp
  have hfront : ∀ q ∈ front, q.header.hash ≠ last.header.hash := by
    intro q hq heq
    rw [hsplit, Distinct, List.map_append, List.nodup_append] at hdistinct
    exact hdistinct.2.2 _ (List.mem_map_of_mem hq) _ (by simp) heq
  exact ⟨last,back_eq hpeer (by rw [hlast]; simp),segmentFrom_split hsource hsplit hfront rfl⟩

/-- A log that follows another one gets the rest of it, whatever is in memory behind
the serial form. -/
theorem sync_over_wire (sha : List UInt8 → Hash512) (beyond : Nat → Option UInt8)
    {source peer : LogTransaction} (hsource : source.valid = true) (hpeer : peer.valid = true)
    (hdistinct : Distinct (fun r : Activity => r.header.hash) source.records)
    (hwf : ∀ r ∈ source.records, r.WellFormed)
    (hnum : source.header.numRecords.toInt = source.records.length)
    (hhash : source.logHash sha = .ok source.header.hash)
    (hne : peer.records ≠ []) (hbegin : peer.records <+: source.records)
    (hpeerNum : peer.header.numRecords.toInt = peer.records.length) :
    ∃ last segment decoded peer', peer.back = .ok last ∧
      source.segmentFrom last.header.hash = .ok segment ∧
      LogSegment.deserialise ⟨segment.serialise,beyond⟩ = .ok decoded ∧
      peer.writeSegment sha decoded = .ok peer' ∧ peer'.records = source.records ∧
      peer'.header.numRecords = source.header.numRecords ∧
      peer'.header.hash = source.header.hash ∧ peer'.header.hash = segment.header.hash := by
  obtain ⟨rest,hrest⟩ := hbegin
  obtain ⟨last,hback,hcut⟩ := segmentFrom_rest hsource hpeer hdistinct hne hrest
  have hlength : source.records.length = peer.records.length + rest.length := by
    rw [← hrest, List.length_append]
  have hint := source.header.numRecords.toInt_lt
  -- the number of records survives the conversion to an `int`
  have hcount := @LogSegment.ofRecords_num_eq source.header.hash rest (by omega)
  have hrestWf : ∀ r ∈ rest, r.WellFormed := fun r hr => hwf r (by rw [← hrest]; simp [hr])
  have hdecoded := LogSegment.deserialise_of_count hrestWf hcount beyond
  obtain ⟨peer',hpeer'⟩ := @writeSegment_of_lt sha peer hpeer
    (LogSegment.ofRecords source.header.hash rest)
    (by simp only [LogSegment.ofRecords]; omega)
  obtain ⟨-,-,hrecords,hhash',hnum'⟩ := writeSegment_ok sha hpeer'
  have hall : peer.records ++ (LogSegment.ofRecords source.header.hash rest).segment =
      source.records := hrest
  have hfinal : peer'.header.hash = source.header.hash := by
    rw [hhash', hall]
    rw [logHash_eq sha hsource, Except.ok.injEq] at hhash
    exact hhash
  refine ⟨last,_,_,peer',hback,hcut,hdecoded,hpeer',hrecords.trans hall,?_,hfinal,hfinal⟩
  apply Int32.toInt_inj.mp
  rw [hnum', hnum, hpeerNum, hlength]
  simp [LogSegment.ofRecords]

def markedRecord (mark : UInt8) : Activity :=
  ⟨⟨Block.ofList 64 [mark],0,⟨0⟩,default,0,default⟩,.empty⟩

theorem sync_over_wire_one_behind :
    ∃ last segment decoded peer',
      (LogTransaction.mk [markedRecord 1] ⟨1,default⟩ true).back = .ok last ∧
      (LogTransaction.mk [markedRecord 1,markedRecord 2] ⟨2,default⟩ true).segmentFrom
        last.header.hash = .ok segment ∧
      LogSegment.deserialise ⟨segment.serialise,fun _ => none⟩ = .ok decoded ∧
      (LogTransaction.mk [markedRecord 1] ⟨1,default⟩ true).writeSegment (fun _ => default) decoded =
        .ok peer' ∧
      peer'.records = [markedRecord 1,markedRecord 2] ∧ peer'.header.numRecords = 2 ∧
      peer'.header.hash = default ∧ peer'.header.hash = segment.header.hash :=
  @sync_over_wire (fun _ => default) (fun _ => none)
    ⟨[markedRecord 1,markedRecord 2],⟨2,default⟩,true⟩
    ⟨[markedRecord 1],⟨1,default⟩,true⟩ rfl rfl (by decide +kernel)
    (by decide +kernel) rfl rfl (by simp) ⟨[markedRecord 2],rfl⟩ rfl

end GsnNode
