import GsnNode.LogTransaction
import GsnNode.SelfDelimiting

/-! A log and a segment are written in one format, and the bytes that a log hashes
show its records. -/

set_option autoImplicit false

namespace GsnNode
open ByteWords MemoryRegion

/-- The sum that `log_size` and `log_size_partial` build up. -/
def sumSizes (records : List Activity) (sz : Nat) : Nat :=
  records.foldl (fun sz r => sz + r.size) sz

def LogSegment.logSize (s : LogSegment) : Nat := sumSizes s.segment LogHeader.sizeOf

inductive LogWrite where
  | record (r : Activity)
  | segment (s : LogSegment)

def LogWrite.records : LogWrite → List Activity
  | .record r => [r]
  | .segment s => s.segment

namespace LogTransaction

def serialise (t : LogTransaction) : Call (List UInt8) := do
  t.isValid
  pure (serialiseRecords t.records t.header.bytes)

def serialisePartial (t : LogTransaction) : Call (List UInt8) := do
  t.isValid
  pure (serialiseRecords t.records [])

def logSize (t : LogTransaction) : Call Nat := do
  t.isValid
  pure (sumSizes t.records LogHeader.sizeOf)

def logSizePartial (t : LogTransaction) : Call Nat := do
  t.isValid
  pure (sumSizes t.records 0)

section Hash
variable (sha : List UInt8 → Hash512)

def logVerification (t : LogTransaction) : Call Bool := do
  t.isValid
  let hash ← t.logHash sha
  pure (hash = t.header.hash)

def write (t : LogTransaction) : LogWrite → Call LogTransaction
  | .record r => t.writeRecord sha r
  | .segment s => t.writeSegment sha s

end Hash

def emptyLog : LogTransaction := ⟨[],LogHeader.init,true⟩

/-- The header counts the records, and a log that was written to has its hash. -/
structure Counted (sha : List UInt8 → Hash512) (t : LogTransaction) : Prop where
  valid : t.valid = true
  num : t.header.numRecords.toInt = t.records.length
  hash : t.records ≠ [] → t.header.hash = recordsHash sha t.records

end LogTransaction

/-! ### Sizes -/

theorem sumSizes_eq (records : List Activity) (sz : Nat) :
    sumSizes records sz = sz + (recordsBytes records).length := by
  induction records generalizing sz with
  | nil => simp [sumSizes, recordsBytes]
  | cons r records ih =>
    have hrest := ih (sz + r.size)
    rw [sumSizes] at hrest ⊢
    rw [List.foldl_cons, hrest, recordsBytes_cons, List.length_append, r.serialise_length,
      Nat.add_assoc]

theorem serialiseRecords_length (records : List Activity) (heap : List UInt8) :
    (serialiseRecords records heap).length = sumSizes records heap.length := by
  rw [serialiseRecords_eq, sumSizes_eq, List.length_append]

theorem LogSegment.logSize_eq (s : LogSegment) : s.logSize = s.serialise.length := by
  rw [logSize, serialise, serialiseRecords_length, s.header.bytes_length]

namespace LogTransaction

theorem serialise_eq {t : LogTransaction} (hv : t.valid = true) :
    t.serialise = .ok (LogSegment.mk t.records t.header).serialise := by
  simp [serialise, isValid_of hv, LogSegment.serialise]

theorem logSize_eq {t : LogTransaction} (hv : t.valid = true) :
    t.logSize = .ok (LogSegment.mk t.records t.header).serialise.length := by
  rw [← LogSegment.logSize_eq]
  simp [logSize, isValid_of hv, LogSegment.logSize]

theorem serialisePartial_eq {t : LogTransaction} (hv : t.valid = true) :
    t.serialisePartial = .ok (recordsBytes t.records) := by
  simp [serialisePartial, isValid_of hv, serialiseRecords_eq]

theorem serialisePartial_valid {t : LogTransaction} {bs : List UInt8}
    (h : t.serialisePartial = .ok bs) : t.valid = true := by
  obtain ⟨⟨⟩,hvalid,-⟩ := bind_eq_ok.mp h
  exact isValid_ok.mp hvalid

theorem logHash_valid {sha : List UInt8 → Hash512} {t : LogTransaction} {h : Hash512}
    (hh : t.logHash sha = .ok h) : t.valid = true := by
  obtain ⟨⟨⟩,hvalid,-⟩ := bind_eq_ok.mp hh
  exact isValid_ok.mp hvalid

theorem logSizePartial_eq {t : LogTransaction} (hv : t.valid = true) :
    t.logSizePartial = .ok (recordsBytes t.records).length := by
  simp [logSizePartial, isValid_of hv, sumSizes_eq]

theorem logVerification_eq (sha : List UInt8 → Hash512) {t : LogTransaction}
    (hv : t.valid = true) :
    t.logVerification sha = .ok (decide (recordsHash sha t.records = t.header.hash)) := by
  simp [logVerification, isValid_of hv, logHash_eq sha hv]

/-! ### Runs -/

section Runs
variable {sha : List UInt8 → Hash512}

theorem emptyLog_counted : Counted sha emptyLog := ⟨rfl,rfl,fun h => absurd rfl h⟩

theorem write_ok {t t' : LogTransaction} {w : LogWrite} (h : t.write sha w = .ok t') :
    t'.valid = true ∧ t'.records = t.records ++ w.records ∧
      t'.header.hash = recordsHash sha t'.records ∧
      t'.header.numRecords.toInt = t.header.numRecords.toInt + w.records.length := by
  cases w with
  | record r =>
    obtain ⟨-,hvalid,hrecords,hhash,hnum⟩ := writeRecord_ok sha h
    exact ⟨hvalid,hrecords,by rw [hhash, hrecords],hnum⟩
  | segment s =>
    obtain ⟨-,hvalid,hrecords,hhash,hnum⟩ := writeSegment_ok sha h
    exact ⟨hvalid,hrecords,by rw [hhash, hrecords],hnum⟩

theorem Counted.step {t t' : LogTransaction} {w : LogWrite} (ht : Counted sha t)
    (h : t.write sha w = .ok t') : Counted sha t' := by
  obtain ⟨hvalid,hrecords,hhash,hnum⟩ := write_ok h
  refine ⟨hvalid,?_,fun _ => hhash⟩
  rw [hnum, ht.num, hrecords, List.length_append]
  omega

theorem writeRecord_of_lt {t : LogTransaction} (hv : t.valid = true) {r : Activity}
    (h : t.header.numRecords.toInt + 1 < 2 ^ 31) : ∃ t', t.writeRecord sha r = .ok t' := by
  obtain ⟨header,hheader⟩ := @LogHeader.increment_of_lt
    ⟨t.header.numRecords,recordsHash sha (t.records ++ [r])⟩ h
  have hhash := @logHash_eq sha { t with records := t.records ++ [r] } hv
  refine ⟨⟨t.records ++ [r],header,t.valid⟩,?_⟩
  simp only [writeRecord, isValid_of hv, ok_bind, hhash, hheader, pure_eq_ok]

theorem Counted.step_of_lt {t : LogTransaction} {w : LogWrite} (ht : Counted sha t)
    (h : t.records.length + w.records.length < 2 ^ 31) : ∃ t', t.write sha w = .ok t' := by
  cases w with
  | record r =>
    have hlt : t.records.length + 1 < 2 ^ 31 := h
    exact writeRecord_of_lt ht.valid (by rw [ht.num]; omega)
  | segment s =>
    have hlt : t.records.length + s.segment.length < 2 ^ 31 := h
    exact writeSegment_of_lt sha ht.valid (by rw [ht.num]; omega)

theorem Counted.run {ws : List LogWrite} {t : LogTransaction} (ht : Counted sha t)
    (h : (t.records ++ ws.flatMap LogWrite.records).length < 2 ^ 31) :
    ∃ t', ws.foldlM (write sha) t = .ok t' ∧ Counted sha t' ∧
      t'.records = t.records ++ ws.flatMap LogWrite.records := by
  induction ws generalizing t with
  | nil => exact ⟨t,rfl,ht,by simp⟩
  | cons w ws ih =>
    simp only [List.flatMap_cons, List.length_append] at h
    obtain ⟨u,hu⟩ := @Counted.step_of_lt sha t w ht (by omega)
    have hrecords := (write_ok hu).2.1
    obtain ⟨t',ht',hcounted,hall⟩ := ih (ht.step hu) (by
      rw [hrecords, List.length_append, List.length_append]
      omega)
    exact ⟨t',by rw [List.foldlM_cons, hu, ok_bind, ht'],hcounted,by simp [hall, hrecords]⟩

/-- A log that was written to passes its own check. -/
theorem Counted.logVerification {t : LogTransaction} (ht : Counted sha t) (hne : t.records ≠ []) :
    t.logVerification sha = .ok true := by
  rw [logVerification_eq sha ht.valid, ht.hash hne, decide_eq_true rfl]

end Runs
end LogTransaction

/-! ### One format -/

open LogTransaction in
theorem log_and_segment_format (sha : List UInt8 → Hash512) (beyond : Nat → Option UInt8)
    {records : List Activity} (hwf : ∀ r ∈ records, r.WellFormed)
    (hlen : records.length < 2 ^ 31) :
    (∀ ws : List LogWrite, ws.flatMap LogWrite.records = records →
      ∃ t bytes, ws.foldlM (write sha) emptyLog = .ok t ∧ t.records = records ∧
        t.serialise = .ok bytes ∧ t.logSize = .ok bytes.length ∧
        LogSegment.deserialise ⟨bytes,beyond⟩ = .ok ⟨records,t.header⟩) ∧
    ∀ hash, (LogSegment.ofRecords hash records).logSize =
        (LogSegment.ofRecords hash records).serialise.length ∧
      LogSegment.deserialise ⟨(LogSegment.ofRecords hash records).serialise,beyond⟩ =
        .ok (LogSegment.ofRecords hash records) := by
  constructor
  · intro ws hws
    have hempty := @Counted.run sha ws _ emptyLog_counted (by simpa [emptyLog, hws])
    obtain ⟨t,hrun,hcounted,hrecords⟩ := hempty
    rw [hws] at hrecords
    have hrecords : t.records = records := hrecords
    have hread := @LogSegment.deserialise_of_count ⟨t.records,t.header⟩
      (by rw [hrecords]; exact hwf) hcounted.num beyond
    have hserial := LogTransaction.serialise_eq hcounted.valid
    refine ⟨t,_,hrun,hrecords,hserial,logSize_eq hcounted.valid,?_⟩
    rw [hread, hrecords]
  · intro hash
    have hnum := LogSegment.ofRecords_num_eq hash hlen
    exact ⟨LogSegment.logSize_eq _,LogSegment.deserialise_of_count hwf hnum beyond⟩

def emptyRecord (timestamp : Int64) : Activity :=
  ⟨⟨default,timestamp,⟨0⟩,default,0,default⟩,.empty⟩

theorem log_and_segment_format_two_writes :
    (∃ t bytes, [LogWrite.record (emptyRecord 0),.segment (.ofRecords default [emptyRecord 1])].foldlM
        (LogTransaction.write lengthHash) LogTransaction.emptyLog = .ok t ∧
      t.records = [emptyRecord 0,emptyRecord 1] ∧
      t.serialise = .ok bytes ∧ t.logSize = .ok bytes.length ∧
      LogSegment.deserialise ⟨bytes,fun _ => none⟩ = .ok ⟨[emptyRecord 0,emptyRecord 1],t.header⟩) ∧
    LogSegment.deserialise
        ⟨(LogSegment.ofRecords default [emptyRecord 0,emptyRecord 1]).serialise,fun _ => none⟩ =
      .ok (LogSegment.ofRecords default [emptyRecord 0,emptyRecord 1]) := by
  have hformat := @log_and_segment_format lengthHash (fun _ => none) [emptyRecord 0,emptyRecord 1]
    (by decide) (by decide)
  exact ⟨hformat.1 _ rfl,(hformat.2 default).2⟩

/-! ### What the log hash commits to -/

def firstRecord (bs : List UInt8) : Option Activity :=
  (Activity.deserialise ⟨bs,fun _ => none⟩ 0).toOption

theorem firstRecord_eq {r : Activity} (hr : r.WellFormed) (rest : List UInt8) :
    firstRecord (r.serialise ++ rest) = some r := by
  have hread := Activity.deserialise_serialise hr [] rest (fun _ => none)
  rw [List.nil_append, List.length_nil] at hread
  rw [firstRecord, hread]
  rfl

theorem recordsBytes_injective {l l' : List Activity} (hl : ∀ r ∈ l, r.WellFormed)
    (hl' : ∀ r ∈ l', r.WellFormed) (h : recordsBytes l = recordsBytes l') : l = l' := by
  have hread : ∀ r : Activity, r.WellFormed → ∀ rest,
      firstRecord (r.serialise ++ rest) = some r := fun _ hr => firstRecord_eq hr
  have hne : ∀ r : Activity, r.WellFormed → r.serialise ≠ [] := by
    intro r _ hnil
    have hsize := r.serialise_length
    rw [hnil, Activity.size, ActivityHeader.sizeOf, List.length_nil] at hsize
    omega
  exact SelfDelimiting.concat_injective hread hne hl hl' h

open LogTransaction in
theorem log_hash_commits (sha : List UInt8 → Hash512) {t t' : LogTransaction}
    (ht : ∀ r ∈ t.records, r.WellFormed) (ht' : ∀ r ∈ t'.records, r.WellFormed) :
    (∀ bs, t.serialisePartial = .ok bs → t'.serialisePartial = .ok bs →
      t.records = t'.records) ∧
    ∀ h, t.logHash sha = .ok h → t'.logHash sha = .ok h →
      t.records = t'.records ∨
        ∃ bs bs', t.serialisePartial = .ok bs ∧ t'.serialisePartial = .ok bs' ∧
          bs ≠ bs' ∧ sha bs = sha bs' := by
  constructor
  · intro bs hbs hbs'
    rw [serialisePartial_eq (serialisePartial_valid hbs), Except.ok.injEq] at hbs
    rw [serialisePartial_eq (serialisePartial_valid hbs'), Except.ok.injEq] at hbs'
    exact recordsBytes_injective ht ht' (hbs.trans hbs'.symm)
  · intro h hh hh'
    have hv := logHash_valid hh
    have hv' := logHash_valid hh'
    rw [logHash_eq sha hv, Except.ok.injEq] at hh
    rw [logHash_eq sha hv', Except.ok.injEq] at hh'
    by_cases hbytes : recordsBytes t.records = recordsBytes t'.records
    · exact .inl (recordsBytes_injective ht ht' hbytes)
    · exact .inr ⟨_,_,serialisePartial_eq hv,serialisePartial_eq hv',hbytes,hh.trans hh'.symm⟩

/-- Two linked records, and one record whose content is as much longer that the hash of a length
cannot tell the logs apart. -/
theorem log_hash_commits_lengths :
    ∃ bs bs',
      (LogTransaction.mk (linkedPair ⟨ascii "b",by decide⟩ ⟨ascii "c",by decide⟩) LogHeader.init
        true).serialisePartial = .ok bs ∧
      (LogTransaction.mk [openingRecord ⟨List.replicate 90 97,by decide⟩] LogHeader.init
        true).serialisePartial = .ok bs' ∧ bs ≠ bs' ∧ lengthHash bs = lengthHash bs' := by
  have hcommits := (@log_hash_commits lengthHash
    ⟨linkedPair ⟨ascii "b",by decide⟩ ⟨ascii "c",by decide⟩,.init,true⟩
    ⟨[openingRecord ⟨List.replicate 90 97,by decide⟩],.init,true⟩ (by decide +kernel)
      (by decide +kernel)).2 _ (LogTransaction.logHash_eq lengthHash rfl) (by decide +kernel)
  exact hcommits.resolve_left (by decide +kernel)

end GsnNode
