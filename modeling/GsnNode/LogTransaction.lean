import GsnNode.ActivityRecord
import GsnNode.DelimitedText
import GsnNode.KeyedList

/-! `log_header`, `log_segment` and what a `log_transaction` does to the records and
the header of its log. -/

set_option autoImplicit false

namespace GsnNode
open ByteWords MemoryRegion DelimitedText KeyedList

structure LogHeader where
  numRecords : Int32
  hash : Hash512
  deriving DecidableEq

namespace LogHeader

def init : LogHeader := ⟨0,default⟩

def sizeOf : Nat := 68

def bytes (h : LogHeader) : List UInt8 := leBytes 4 h.numRecords.toUInt32.toNat ++ h.hash.data

def ofBytes (bs : List UInt8) : LogHeader :=
  ⟨(UInt32.ofNat (leValue (bs.take 4))).toInt32,Block.ofList 64 (bs.drop 4)⟩

/-- `num_records++`; an overflow of an `int` is undefined. -/
def increment (h : LogHeader) : Call LogHeader :=
  if h.numRecords = Int32.maxValue then undefined
  else pure { h with numRecords := h.numRecords + 1 }

end LogHeader

def serialiseRecords (records : List Activity) (heap : List UInt8) : List UInt8 :=
  records.foldl (fun heap r => heap ++ r.serialise) heap

structure LogSegment where
  segment : List Activity
  header : LogHeader
  deriving DecidableEq

namespace LogSegment

/-- `log_segment(hash, segment)`; the number of records is cut to an `int`. -/
def ofRecords (hash : Hash512) (segment : List Activity) : LogSegment :=
  ⟨segment,⟨Int32.ofNat segment.length,hash⟩⟩

def serialise (s : LogSegment) : List UInt8 := serialiseRecords s.segment s.header.bytes

structure DecodeState where
  ptr : Nat
  segment : List Activity

def decodeStep (serial : Region) (s : DecodeState) : Call DecodeState := do
  let a ← Activity.deserialise serial s.ptr
  pure ⟨s.ptr + a.size,s.segment ++ [a]⟩

def deserialise (serial : Region) : Call LogSegment := do
  let bs ← load serial 0 LogHeader.sizeOf
  let header := LogHeader.ofBytes bs
  let s ← (List.range header.numRecords.toInt.toNat).foldlM (fun s _ => decodeStep serial s)
    ⟨LogHeader.sizeOf,[]⟩
  pure ⟨s.segment,header⟩

end LogSegment

/-- A log as a transaction refers to it, and whether the transaction is valid. -/
structure LogTransaction where
  records : List Activity
  header : LogHeader
  valid : Bool
  deriving DecidableEq

namespace LogTransaction
variable (sha : List UInt8 → Hash512)

def isValid (t : LogTransaction) : Call Unit :=
  if t.valid then pure () else throws .transactionInvalidState

def logHash (t : LogTransaction) : Call Hash512 := do
  t.isValid
  pure (sha (serialiseRecords t.records []))

def writeRecord (t : LogTransaction) (record : Activity) : Call LogTransaction := do
  t.isValid
  let t := { t with records := t.records ++ [record] }
  let hash ← t.logHash sha
  let header ← LogHeader.increment { t.header with hash := hash }
  pure { t with header := header }

def pushRecord (t : LogTransaction) (r : Activity) : Call LogTransaction := do
  let header ← t.header.increment
  pure { t with records := t.records ++ [r], header := header }

def rewriteLogHash (t : LogTransaction) : Call LogTransaction := do
  let hash ← t.logHash sha
  pure { t with header := { t.header with hash := hash } }

def writeSegment (t : LogTransaction) (segment : LogSegment) : Call LogTransaction := do
  t.isValid
  let t ← segment.segment.foldlM pushRecord t
  t.rewriteLogHash sha

def size (t : LogTransaction) : Call Nat := do
  t.isValid
  pure t.records.length

/-- `back()` of an empty list is undefined. -/
def back (t : LogTransaction) : Call Activity := do
  t.isValid
  match t.records.getLast? with
  | none => undefined
  | some r => pure r

/-- `generate_record(header)` -/
def generateRecord (t : LogTransaction) (hdr : ActivityHeader) : Call Activity := do
  t.isValid
  let n ← t.size
  if n = 0 then pure (Activity.ofHeader sha hdr)
  else do
    let r ← t.back
    pure (Activity.saltedHeader sha hdr r.header.hash)

/-- `generate_record(header, content)` -/
def generateRecordWith (t : LogTransaction) (hdr : ActivityHeader) (content : MsgContent) :
    Call Activity := do
  t.isValid
  let n ← t.size
  if n = 0 then pure (Activity.ofContent sha hdr content)
  else do
    let r ← t.back
    pure (Activity.salted sha hdr content r.header.hash)

def headVerification (t : LogTransaction) (record : Activity) : Call Bool := do
  t.isValid
  let r ← t.back
  let check := Activity.salted sha record.header record.content r.header.hash
  pure (check.header.hash = record.header.hash)

structure CutState where
  inc : Bool
  c : List Activity

def cutStep (hash : Hash512) (s : CutState) (r : Activity) : CutState where
  c := if s.inc then s.c ++ [r] else s.c
  inc := if r.header.hash = hash then true else s.inc

def segmentFrom (t : LogTransaction) (hash : Hash512) : Call LogSegment := do
  t.isValid
  let s := t.records.foldl (cutStep hash) ⟨false,[]⟩
  if s.inc then pure (LogSegment.ofRecords t.header.hash s.c) else throws .transactionReadFail

end LogTransaction

/-! ### Serial forms -/

def recordsBytes (records : List Activity) : List UInt8 :=
  (records.map Activity.serialise).flatten

theorem recordsBytes_append (a b : List Activity) :
    recordsBytes (a ++ b) = recordsBytes a ++ recordsBytes b := by
  simp [recordsBytes]

theorem recordsBytes_cons (r : Activity) (records : List Activity) :
    recordsBytes (r :: records) = r.serialise ++ recordsBytes records := by
  simp [recordsBytes]

theorem serialiseRecords_eq (records : List Activity) (heap : List UInt8) :
    serialiseRecords records heap = heap ++ recordsBytes records :=
  foldl_append_flatten _ _ _

@[simp] theorem LogHeader.bytes_length (h : LogHeader) : h.bytes.length = LogHeader.sizeOf := by
  simp [bytes, sizeOf]

theorem LogHeader.ofBytes_bytes (h : LogHeader) : ofBytes h.bytes = h := by
  have htake : h.bytes.take 4 = leBytes 4 h.numRecords.toUInt32.toNat :=
    List.take_left' (leBytes_length 4 _)
  have hdrop : h.bytes.drop 4 = h.hash.data := List.drop_left' (leBytes_length 4 _)
  simp only [ofBytes, htake, hdrop, uint32_leValue_leBytes, Block.ofList_data]
  simp

namespace LogSegment

/-- The first `k` records are read from the positions where they were written. -/
theorem decodeLoop_take {segment : List Activity} (hs : ∀ r ∈ segment, r.WellFormed)
    (head : List UInt8) (beyond : Nat → Option UInt8) {k : Nat} (hk : k ≤ segment.length) :
    (List.range k).foldlM (fun s _ => decodeStep ⟨head ++ recordsBytes segment,beyond⟩ s)
        ⟨head.length,[]⟩ =
      .ok ⟨(head ++ recordsBytes (segment.take k)).length,segment.take k⟩ := by
  induction k with
  | zero => simp [recordsBytes]
  | succ k ih =>
    have hlt : k < segment.length := by omega
    have hread := Activity.deserialise_serialise (hs segment[k] (List.getElem_mem hlt))
      (head ++ recordsBytes (segment.take k)) (recordsBytes (segment.drop (k + 1))) beyond
    have hbytes : head ++ recordsBytes segment = head ++ recordsBytes (segment.take k) ++
        (segment[k].serialise ++ recordsBytes (segment.drop (k + 1))) := by
      rw [← recordsBytes_cons, List.getElem_cons_drop, List.append_assoc, ← recordsBytes_append,
        List.take_append_drop]
    have hnext : (head ++ recordsBytes (segment.take k)).length + segment[k].size =
        (head ++ recordsBytes (segment.take (k + 1))).length := by
      rw [List.take_succ_eq_append_getElem hlt, recordsBytes_append, recordsBytes_cons]
      simp only [List.length_append, Activity.serialise_length, recordsBytes, List.map_nil,
        List.flatten_nil, List.length_nil]
      omega
    rw [List.range_succ, List.foldlM_append, ih (by omega), ok_bind]
    simp only [List.foldlM_cons, List.foldlM_nil, decodeStep, hbytes, hread, ok_bind, pure_eq_ok,
      hnext]
    rw [List.take_succ_eq_append_getElem hlt]

theorem deserialise_serialise {s : LogSegment} (hs : ∀ r ∈ s.segment, r.WellFormed)
    (hnum : s.header.numRecords.toInt.toNat ≤ s.segment.length) (beyond : Nat → Option UInt8) :
    deserialise ⟨s.serialise,beyond⟩ =
      .ok ⟨s.segment.take s.header.numRecords.toInt.toNat,s.header⟩ := by
  have hheader : load ⟨s.serialise,beyond⟩ 0 LogHeader.sizeOf = .ok s.header.bytes := by
    rw [serialise, serialiseRecords_eq]
    exact load_slice [] s.header.bytes _ beyond s.header.bytes_length
  have hloop := decodeLoop_take hs s.header.bytes beyond hnum
  rw [LogHeader.bytes_length] at hloop
  simp only [deserialise, hheader, ok_bind, LogHeader.ofBytes_bytes]
  rw [serialise, serialiseRecords_eq, hloop]
  rfl

theorem deserialise_of_count {s : LogSegment} (hs : ∀ r ∈ s.segment, r.WellFormed)
    (hnum : s.header.numRecords.toInt = s.segment.length) (beyond : Nat → Option UInt8) :
    deserialise ⟨s.serialise,beyond⟩ = .ok s := by
  have hcount : s.header.numRecords.toInt.toNat = s.segment.length := by omega
  rw [deserialise_serialise hs hcount.le, hcount, List.take_length]

theorem ofRecords_num (hash : Hash512) (segment : List Activity) :
    (ofRecords hash segment).header.numRecords.toInt = (segment.length : Int).bmod (2 ^ 32) :=
  Int32.toInt_ofNat'

theorem ofRecords_num_le (hash : Hash512) (segment : List Activity) :
    (ofRecords hash segment).header.numRecords.toInt.toNat ≤ segment.length := by
  rw [ofRecords_num, Int.bmod_def]
  split <;> omega

theorem ofRecords_num_eq (hash : Hash512) {segment : List Activity}
    (h : segment.length < 2 ^ 31) :
    (ofRecords hash segment).header.numRecords.toInt = segment.length := by
  rw [ofRecords_num, Int.bmod_eq_of_le (by omega) (by omega)]

end LogSegment

/-! ### What the operations leave -/

theorem LogHeader.increment_ok {h h' : LogHeader} (hi : h.increment = .ok h') :
    h'.numRecords.toInt = h.numRecords.toInt + 1 ∧ h'.hash = h.hash := by
  unfold increment at hi
  split at hi
  · contradiction
  · rename_i hmax
    obtain rfl := Except.ok.inj hi
    have hne : h.numRecords.toInt ≠ 2147483647 := fun heq => hmax (Int32.toInt_inj.mp heq)
    have hlt := h.numRecords.toInt_lt
    have hge := h.numRecords.le_toInt
    refine ⟨?_,rfl⟩
    have hone : (1 : Int32).toInt = 1 := rfl
    rw [Int32.toInt_add, hone, Int.bmod_eq_of_le (by omega) (by omega)]

theorem LogHeader.increment_of_lt {h : LogHeader} (hlt : h.numRecords.toInt + 1 < 2 ^ 31) :
    ∃ h', h.increment = .ok h' := by
  refine ⟨{ h with numRecords := h.numRecords + 1 },if_neg ?_⟩
  intro hmax
  rw [hmax] at hlt
  contradiction

namespace LogTransaction
variable (sha : List UInt8 → Hash512)

theorem isValid_ok {t : LogTransaction} : t.isValid = .ok () ↔ t.valid = true := by
  cases hv : t.valid <;> simp [isValid, hv, throws]

theorem isValid_of {t : LogTransaction} (h : t.valid = true) : t.isValid = .ok () :=
  isValid_ok.mpr h

def recordsHash (records : List Activity) : Hash512 := sha (recordsBytes records)

theorem logHash_eq {t : LogTransaction} (h : t.valid = true) :
    t.logHash sha = .ok (recordsHash sha t.records) := by
  simp [logHash, isValid_of h, serialiseRecords_eq, recordsHash]

theorem writeRecord_ok {t t' : LogTransaction} {record : Activity}
    (h : t.writeRecord sha record = .ok t') :
    t.valid = true ∧ t'.valid = true ∧ t'.records = t.records ++ [record] ∧
      t'.header.hash = recordsHash sha (t.records ++ [record]) ∧
      t'.header.numRecords.toInt = t.header.numRecords.toInt + 1 := by
  obtain ⟨⟨⟩,hvalid,h⟩ := bind_eq_ok.mp h
  have hv := isValid_ok.mp hvalid
  dsimp only at h
  rw [logHash_eq sha (t := { t with records := t.records ++ [record] }) hv, ok_bind] at h
  obtain ⟨header,hheader,h⟩ := bind_eq_ok.mp h
  obtain rfl := Except.ok.inj h
  obtain ⟨hnum,hhash⟩ := LogHeader.increment_ok hheader
  exact ⟨hv,hv,rfl,hhash,hnum⟩

theorem pushRecord_ok {t t' : LogTransaction} {r : Activity} (h : t.pushRecord r = .ok t') :
    t'.valid = t.valid ∧ t'.records = t.records ++ [r] ∧
      t'.header.numRecords.toInt = t.header.numRecords.toInt + 1 := by
  obtain ⟨header,hheader,h⟩ := bind_eq_ok.mp h
  obtain rfl := Except.ok.inj h
  exact ⟨rfl,rfl,(LogHeader.increment_ok hheader).1⟩

theorem pushRecords_ok {segment : List Activity} {t t' : LogTransaction}
    (h : segment.foldlM pushRecord t = .ok t') :
    t'.valid = t.valid ∧ t'.records = t.records ++ segment ∧
      t'.header.numRecords.toInt = t.header.numRecords.toInt + segment.length := by
  induction segment generalizing t with
  | nil =>
    obtain rfl := Except.ok.inj h
    simp
  | cons r segment ih =>
    rw [List.foldlM_cons] at h
    obtain ⟨u,hu,h⟩ := bind_eq_ok.mp h
    obtain ⟨hvalid,hrecords,hnum⟩ := pushRecord_ok hu
    obtain ⟨hvalid',hrecords',hnum'⟩ := ih h
    refine ⟨hvalid'.trans hvalid,by rw [hrecords', hrecords]; simp,?_⟩
    rw [hnum', hnum, List.length_cons]
    omega

theorem pushRecords_of_lt {segment : List Activity} {t : LogTransaction}
    (h : t.header.numRecords.toInt + segment.length < 2 ^ 31) :
    ∃ t', segment.foldlM pushRecord t = .ok t' := by
  induction segment generalizing t with
  | nil => exact ⟨t,rfl⟩
  | cons r segment ih =>
    rw [List.length_cons] at h
    obtain ⟨header,hheader⟩ := LogHeader.increment_of_lt (h := t.header) (by omega)
    have hpush : t.pushRecord r =
        .ok { t with records := t.records ++ [r], header := header } := by
      simp [pushRecord, hheader]
    have hnum := (LogHeader.increment_ok hheader).1
    obtain ⟨t',ht'⟩ := ih (t := { t with records := t.records ++ [r], header := header })
      (by simp only [hnum]; omega)
    exact ⟨t',by rw [List.foldlM_cons, hpush, ok_bind, ht']⟩

theorem writeSegment_ok {t t' : LogTransaction} {segment : LogSegment}
    (h : t.writeSegment sha segment = .ok t') :
    t.valid = true ∧ t'.valid = true ∧ t'.records = t.records ++ segment.segment ∧
      t'.header.hash = recordsHash sha (t.records ++ segment.segment) ∧
      t'.header.numRecords.toInt = t.header.numRecords.toInt + segment.segment.length := by
  obtain ⟨⟨⟩,hvalid,h⟩ := bind_eq_ok.mp h
  have hv := isValid_ok.mp hvalid
  obtain ⟨u,hu,h⟩ := bind_eq_ok.mp h
  obtain ⟨hvalid',hrecords,hnum⟩ := pushRecords_ok hu
  have huv : u.valid = true := hvalid'.trans hv
  rw [rewriteLogHash, logHash_eq sha huv, ok_bind] at h
  obtain rfl := Except.ok.inj h
  exact ⟨hv,huv,hrecords,by rw [← hrecords],hnum⟩

theorem writeSegment_of_lt {t : LogTransaction} (hv : t.valid = true) {segment : LogSegment}
    (h : t.header.numRecords.toInt + segment.segment.length < 2 ^ 31) :
    ∃ t', t.writeSegment sha segment = .ok t' := by
  obtain ⟨u,hu⟩ := pushRecords_of_lt h
  have huv : u.valid = true := (pushRecords_ok hu).1.trans hv
  simp only [writeSegment, isValid_of hv, ok_bind, hu, rewriteLogHash, logHash_eq sha huv]
  exact ⟨_,rfl⟩

theorem back_eq {t : LogTransaction} (hv : t.valid = true) {r : Activity}
    (h : t.records.getLast? = some r) : t.back = .ok r := by
  simp [back, isValid_of hv, h]

theorem back_ok {t : LogTransaction} {r : Activity} (h : t.back = .ok r) :
    t.valid = true ∧ t.records.getLast? = some r := by
  obtain ⟨⟨⟩,hvalid,h⟩ := bind_eq_ok.mp h
  cases hlast : t.records.getLast? with
  | none => simp [hlast, undefined] at h
  | some a =>
    simp only [hlast, pure_eq_ok, Except.ok.injEq] at h
    exact ⟨isValid_ok.mp hvalid,by rw [h]⟩

/-! ### Cutting a segment -/

theorem cut_before {hash : Hash512} {records : List Activity}
    (h : ∀ r ∈ records, r.header.hash ≠ hash) (c : List Activity) :
    records.foldl (cutStep hash) ⟨false,c⟩ = ⟨false,c⟩ := by
  induction records with
  | nil => rfl
  | cons r records ih =>
    have hr := h r List.mem_cons_self
    rw [List.foldl_cons, cutStep, if_neg hr]
    exact ih (fun q hq => h q (List.mem_cons_of_mem r hq))

theorem cut_after (hash : Hash512) (records c : List Activity) :
    records.foldl (cutStep hash) ⟨true,c⟩ = ⟨true,c ++ records⟩ := by
  induction records generalizing c with
  | nil => simp
  | cons r records ih =>
    rw [List.foldl_cons, cutStep, if_pos rfl, ite_self, ih]
    simp

/-- The segment is what follows the first record with the hash. -/
theorem segmentFrom_split {t : LogTransaction} (hv : t.valid = true) {hash : Hash512}
    {before after : List Activity} {r : Activity} (hrecords : t.records = before ++ r :: after)
    (hbefore : ∀ q ∈ before, q.header.hash ≠ hash) (hr : r.header.hash = hash) :
    t.segmentFrom hash = .ok (LogSegment.ofRecords t.header.hash after) := by
  have hcut : t.records.foldl (cutStep hash) ⟨false,[]⟩ = ⟨true,after⟩ := by
    rw [hrecords, List.foldl_append, cut_before hbefore, List.foldl_cons, cutStep, if_pos hr]
    exact cut_after hash after []
  simp [segmentFrom, isValid_of hv, hcut]

theorem segmentFrom_ok {t : LogTransaction} {hash : Hash512} {s : LogSegment}
    (h : t.segmentFrom hash = .ok s) :
    ∃ before r after, t.records = before ++ r :: after ∧ r.header.hash = hash ∧
      s = LogSegment.ofRecords t.header.hash after := by
  obtain ⟨⟨⟩,hvalid,h'⟩ := bind_eq_ok.mp h
  have hv := isValid_ok.mp hvalid
  by_cases hex : ∃ r ∈ t.records, decide (r.header.hash = hash) = true
  · obtain ⟨before,r,after,hrecords,hbefore,hr⟩ := exists_first hex
    have hcut := segmentFrom_split hv hrecords (by simpa using hbefore) (by simpa using hr)
    rw [h, Except.ok.injEq] at hcut
    exact ⟨before,r,after,hrecords,by simpa using hr,hcut⟩
  · have hnone : ∀ r ∈ t.records, r.header.hash ≠ hash := by simpa using hex
    rw [cut_before hnone] at h'
    contradiction

end LogTransaction
end GsnNode
