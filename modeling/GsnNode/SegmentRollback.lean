import GsnNode.LogFormat
import GsnNode.LogSync

/-! What `write_segment` leaves in the log, also when it fails. -/

set_option autoImplicit false

namespace GsnNode
namespace LogTransaction

/-- The loop over the segment. Each record is in the log before the count goes up. -/
def pushSegment : List Activity → LogTransaction → Call Unit × LogTransaction
  | [], t => (pure (),t)
  | r :: segment, t =>
    let t := { t with records := t.records ++ [r] }
    match t.header.increment with
    | .ok header => pushSegment segment { t with header := header }
    | .error e => (.error e,t)

section Writing
variable (sha : List UInt8 → Hash512)

/-- `write_segment` with the log as it is left. -/
def writeSegmentIn (segment : LogSegment) (t : LogTransaction) : Call Unit × LogTransaction :=
  match t.isValid with
  | .error e => (.error e,t)
  | .ok () =>
    match pushSegment segment.segment t with
    | (.error e,t) => (.error e,t)
    | (.ok (),t) =>
      match t.rewriteLogHash sha with
      | .error e => (.error e,t)
      | .ok t => (.ok (),t)

/-- The log has the whole segment and the hash that came with it, or a failure has
left it as it was. -/
def AllOrNothing (segment : LogSegment) (t : LogTransaction) : Prop :=
  match writeSegmentIn sha segment t with
  | (.ok (),t') => t'.records = t.records ++ segment.segment ∧
      t'.header.numRecords.toInt = t.header.numRecords.toInt + segment.segment.length ∧
      t'.header.hash = segment.header.hash
  | (.error _,t') => t'.records = t.records ∧ t'.header = t.header

/-! ### The loop -/

theorem pushSegment_eq (segment : List Activity) (t : LogTransaction) :
    segment.foldlM pushRecord t =
      match pushSegment segment t with
      | (.ok (),t') => .ok t'
      | (.error e,_) => .error e := by
  induction segment generalizing t with
  | nil => rfl
  | cons r segment ih =>
    rw [List.foldlM_cons, pushSegment]
    cases hinc : t.header.increment with
    | error e => simp [pushRecord, hinc]
    | ok header => simp [pushRecord, hinc, ih]

theorem writeSegment_eq (segment : LogSegment) (t : LogTransaction) :
    t.writeSegment sha segment =
      match writeSegmentIn sha segment t with
      | (.ok (),t') => .ok t'
      | (.error e,_) => .error e := by
  rw [writeSegment, writeSegmentIn]
  cases t.isValid with
  | error e => rfl
  | ok u =>
    rw [ok_bind, pushSegment_eq]
    cases hpush : pushSegment segment.segment t with
    | mk r t' =>
      cases r with
      | error e => rfl
      | ok v => cases hhash : t'.rewriteLogHash sha <;> simp [hhash]

/-- A count that overflows leaves records behind. -/
theorem pushSegment_overflow {segment : List Activity} {t : LogTransaction}
    (h : 2 ^ 31 ≤ t.header.numRecords.toInt + segment.length) :
    ∃ e t', pushSegment segment t = (.error e,t') ∧ t.records.length < t'.records.length := by
  induction segment generalizing t with
  | nil =>
    have hlt := t.header.numRecords.toInt_lt
    simp only [List.length_nil] at h
    omega
  | cons r segment ih =>
    rw [pushSegment]
    dsimp only
    cases hinc : t.header.increment with
    | error e => exact ⟨e,_,rfl,by simp⟩
    | ok header =>
      have hnum := (LogHeader.increment_ok hinc).1
      obtain ⟨e,t',heq,hlen⟩ := ih (t := ⟨t.records ++ [r],header,t.valid⟩)
        (by simp only [List.length_cons] at h; simp only [hnum]; omega)
      refine ⟨e,t',heq,?_⟩
      simp only [List.length_append, List.length_singleton] at hlen
      omega

theorem writeSegmentIn_invalid {t : LogTransaction} (h : t.valid = false) (segment : LogSegment) :
    writeSegmentIn sha segment t = (throws .transactionInvalidState,t) := by
  simp [writeSegmentIn, isValid, h, throws]

theorem writeSegmentIn_overflow {t : LogTransaction} (hv : t.valid = true) {segment : LogSegment}
    (h : 2 ^ 31 ≤ t.header.numRecords.toInt + segment.segment.length) :
    ∃ e t', writeSegmentIn sha segment t = (.error e,t') ∧ t'.records ≠ t.records := by
  obtain ⟨e,t',hpush,hlen⟩ := pushSegment_overflow h
  refine ⟨e,t',by simp only [writeSegmentIn, isValid_of hv, hpush],?_⟩
  intro heq
  rw [heq] at hlen
  omega

theorem writeSegmentIn_fits {t : LogTransaction} (hv : t.valid = true) {segment : LogSegment}
    (h : t.header.numRecords.toInt + segment.segment.length < 2 ^ 31) :
    ∃ t', writeSegmentIn sha segment t = (.ok (),t') ∧
      t'.records = t.records ++ segment.segment ∧
      t'.header.numRecords.toInt = t.header.numRecords.toInt + segment.segment.length ∧
      t'.header.hash = recordsHash sha (t.records ++ segment.segment) := by
  obtain ⟨t',ht'⟩ := writeSegment_of_lt sha hv h
  obtain ⟨-,-,hrecords,hhash,hnum⟩ := writeSegment_ok sha ht'
  rw [writeSegment_eq] at ht'
  cases hwrite : writeSegmentIn sha segment t with
  | mk r u =>
    rw [hwrite] at ht'
    cases r with
    | error e => contradiction
    | ok v =>
      obtain rfl := Except.ok.inj ht'
      exact ⟨u,rfl,hrecords,hnum,hhash⟩

theorem allOrNothing_fits {t : LogTransaction} (hv : t.valid = true) {segment : LogSegment}
    (h : t.header.numRecords.toInt + segment.segment.length < 2 ^ 31) :
    AllOrNothing sha segment t ↔
      recordsHash sha (t.records ++ segment.segment) = segment.header.hash := by
  obtain ⟨t',hwrite,hrecords,hnum,hhash⟩ := writeSegmentIn_fits sha hv h
  simp only [AllOrNothing, hwrite, hrecords, hnum, hhash, true_and]

/-- A segment is written whole or not at all exactly if the transaction is invalid,
or the count does not overflow and the hash that came with the segment is that of the
old records followed by those of the segment. -/
theorem allOrNothing_iff (segment : LogSegment) (t : LogTransaction) :
    AllOrNothing sha segment t ↔
      t.valid = false ∨
        (t.header.numRecords.toInt + segment.segment.length < 2 ^ 31 ∧
          recordsHash sha (t.records ++ segment.segment) = segment.header.hash) := by
  cases hv : t.valid with
  | false => simp [AllOrNothing, writeSegmentIn_invalid sha hv, throws]
  | true =>
    by_cases hfits : t.header.numRecords.toInt + segment.segment.length < 2 ^ 31
    · simp only [allOrNothing_fits sha hv hfits, hfits, true_and, Bool.true_eq_false, false_or]
    · obtain ⟨e,t',hwrite,hchanged⟩ := writeSegmentIn_overflow sha hv (not_lt.mp hfits)
      simp only [AllOrNothing, hwrite, hchanged, hfits, false_and, Bool.true_eq_false, or_self]

/-- A segment that was cut out of a log is written whole or not at all if that log is this one
followed by the segment, and otherwise only where two strings have one hash. -/
theorem cutSegment_allOrNothing {other t : LogTransaction}
    (hhash : other.header.hash = recordsHash sha other.records)
    (hother : ∀ r ∈ other.records, r.WellFormed) (ht : ∀ r ∈ t.records, r.WellFormed)
    (hv : t.valid = true) {hash : Hash512} {segment : LogSegment}
    (hcut : other.segmentFrom hash = .ok segment)
    (hfits : t.header.numRecords.toInt + segment.segment.length < 2 ^ 31) :
    (t.records ++ segment.segment = other.records → AllOrNothing sha segment t) ∧
      (AllOrNothing sha segment t → t.records ++ segment.segment = other.records ∨
        (recordsBytes (t.records ++ segment.segment) ≠ recordsBytes other.records ∧
          sha (recordsBytes (t.records ++ segment.segment)) = sha (recordsBytes other.records))) := by
  obtain ⟨before,r,after,hrecords,-,rfl⟩ := segmentFrom_ok hcut
  rw [allOrNothing_fits sha hv hfits]
  have hafter : ∀ q ∈ t.records ++ after, q.WellFormed := by
    intro q hq
    rcases List.mem_append.mp hq with hq | hq
    · exact ht q hq
    · exact hother q (by rw [hrecords]; exact List.mem_append_right _ (List.mem_cons_of_mem _ hq))
  constructor
  · intro hsame
    rw [hsame]
    exact hhash.symm
  · intro hsame
    by_cases hbytes : recordsBytes (t.records ++ after) = recordsBytes other.records
    · exact .inl (recordsBytes_injective hafter hother hbytes)
    · exact .inr ⟨hbytes,hsame.trans hhash⟩

end Writing

/-- The rest of a log for one that has its beginning, and the same rest for one that has not. -/
theorem cutSegment_allOrNothing_two :
    AllOrNothing lengthHash
        (.ofRecords (recordsHash lengthHash [markedRecord 1,markedRecord 2]) [markedRecord 2])
        ⟨[markedRecord 1],⟨1,recordsHash lengthHash [markedRecord 1]⟩,true⟩ ∧
      ¬ AllOrNothing lengthHash
        (.ofRecords (recordsHash lengthHash [markedRecord 1,markedRecord 2]) [markedRecord 2])
        ⟨[markedRecord 3,markedRecord 1],
          ⟨2,recordsHash lengthHash [markedRecord 3,markedRecord 1]⟩,true⟩ := by
  have hcut : (LogTransaction.mk [markedRecord 1,markedRecord 2]
      ⟨2,recordsHash lengthHash [markedRecord 1,markedRecord 2]⟩ true).segmentFrom
        (markedRecord 1).header.hash = .ok (.ofRecords
          (recordsHash lengthHash [markedRecord 1,markedRecord 2]) [markedRecord 2]) := by
    decide +kernel
  constructor
  · exact (cutSegment_allOrNothing lengthHash rfl (by decide +kernel) (by decide +kernel) rfl hcut
      (by decide +kernel)).1 rfl
  · intro h
    rcases (cutSegment_allOrNothing lengthHash rfl (by decide +kernel) (by decide +kernel) rfl hcut
      (by decide +kernel)).2 h with hsame | ⟨-,hcollide⟩
    · exact absurd hsame (by decide +kernel)
    · exact absurd hcollide (by decide +kernel)

/-- The rest of a log that has another beginning: its hash is that of the whole log
which it was cut from. -/
theorem foreign_segment_written :
    ∃ other segment, other = LogTransaction.mk [markedRecord 3,markedRecord 1,markedRecord 2]
        ⟨3,recordsHash lengthHash [markedRecord 3,markedRecord 1,markedRecord 2]⟩ true ∧
      other.segmentFrom (markedRecord 1).header.hash = .ok segment ∧
      ¬ AllOrNothing lengthHash segment
        ⟨[markedRecord 1],⟨1,recordsHash lengthHash [markedRecord 1]⟩,true⟩ := by
  refine ⟨_,⟨[markedRecord 2],⟨1,recordsHash lengthHash [markedRecord 3,markedRecord 1,
    markedRecord 2]⟩⟩,rfl,by decide +kernel,?_⟩
  intro h
  have hhash := h.2.2
  exact absurd hhash (by decide +kernel)

end LogTransaction
end GsnNode
