import GsnNode.GeneratedLogs
import GsnNode.LogSync

/-! Any number of logs, one of which records are generated on. The others follow it, and
each other, by segments. -/

set_option autoImplicit false

namespace GsnNode
open ByteWords HashCommitment KeyedList LogTransaction

abbrev Replicas (L : Type) := L → LogTransaction

inductive ReplicaOp (L : Type) where
  | generate (g : Generation)
  /-- The first log gets what it lacks from the second one, with this memory behind the
  serial form. -/
  | update (peer source : L) (beyond : Nat → Option UInt8)

section Updating
variable (sha : List UInt8 → Hash512)

/-- What a log without records asks for is the other log, which has the form of a segment. -/
def requestedSerial (peer source : LogTransaction) : Call (List UInt8) := do
  let n ← peer.size
  if n = 0 then source.serialise
  else do
    let last ← peer.back
    let segment ← source.segmentFrom last.header.hash
    pure segment.serialise

def LogTransaction.update (peer source : LogTransaction) (beyond : Nat → Option UInt8) :
    Call LogTransaction := do
  let bytes ← requestedSerial peer source
  let segment ← LogSegment.deserialise ⟨bytes,beyond⟩
  peer.writeSegment sha segment

variable {L : Type} [DecidableEq L] (author : L)

def ReplicaOp.Sized : ReplicaOp L → Prop
  | .generate g => g.Sized
  | .update _ _ _ => True

namespace Replicas

/-- A log that does not have the record which the segment is to start from is left alone. -/
def step (logs : Replicas L) : ReplicaOp L → Call (Replicas L)
  | .generate g => do
    let t ← (logs author).generate sha g
    pure (Function.update logs author t)
  | .update peer source beyond =>
    match (logs peer).update sha (logs source) beyond with
    | .ok t => pure (Function.update logs peer t)
    | .error (.throws .transactionReadFail) => pure logs
    | .error e => .error e

/-- Every log is a beginning of the one that records are generated on. -/
structure Following (logs : Replicas L) : Prop where
  hashed : HashedLog sha (logs author).records
  counted : ∀ l, Counted sha (logs l)
  begins : ∀ l, (logs l).records <+: (logs author).records

end Replicas

/-! ### One update -/

section Update
variable {sha} {peer source : LogTransaction}

/-- What is written completes the log. -/
theorem writeRest (hpeer : Counted sha peer) (hsource : Counted sha source) {segment : LogSegment}
    (hrest : peer.records ++ segment.segment = source.records) :
    ∃ t, peer.writeSegment sha segment = .ok t ∧ t.records = source.records ∧ Counted sha t := by
  have hint := source.header.numRecords.toInt_lt
  have hlength : peer.records.length + segment.segment.length = source.records.length := by
    rw [← hrest, List.length_append]
  obtain ⟨t,ht⟩ := @writeSegment_of_lt sha peer hpeer.valid segment
    (by rw [hpeer.num]; rw [hsource.num] at hint; omega)
  have hwrite : peer.write sha (.segment segment) = .ok t := ht
  exact ⟨t,ht,(write_ok hwrite).2.1.trans hrest,hpeer.step hwrite⟩

theorem update_ahead (beyond : Nat → Option UInt8) (hpeer : Counted sha peer)
    (hsource : Counted sha source) (hwf : ∀ r ∈ source.records, r.WellFormed)
    (hdistinct : Distinct (fun r : Activity => r.header.hash) source.records)
    (hbegin : peer.records <+: source.records) :
    ∃ t, peer.update sha source beyond = .ok t ∧ t.records = source.records ∧ Counted sha t := by
  obtain ⟨rest,hrest⟩ := hbegin
  have hint := source.header.numRecords.toInt_lt
  have hrestWf : ∀ r ∈ rest, r.WellFormed := fun r hr => hwf r (by rw [← hrest]; simp [hr])
  have hsize : peer.size = .ok peer.records.length := by
    simp [LogTransaction.size, isValid_of hpeer.valid]
  by_cases hnone : peer.records = []
  · have hserial : requestedSerial peer source =
        .ok (LogSegment.mk source.records source.header).serialise := by
      simp only [requestedSerial, hsize, ok_bind, hnone, List.length_nil, if_true,
        LogTransaction.serialise_eq hsource.valid]
    obtain ⟨t,ht,hall⟩ := @writeRest sha peer source hpeer hsource ⟨source.records,source.header⟩
      (by rw [hnone, List.nil_append])
    refine ⟨t,?_,hall⟩
    have hread := @LogSegment.deserialise_of_count ⟨source.records,source.header⟩ hwf hsource.num
      beyond
    simp only [LogTransaction.update, hserial, ok_bind, hread, ht]
  · obtain ⟨last,hback,hcut⟩ := segmentFrom_rest hsource.valid hpeer.valid hdistinct hnone hrest
    have hlength : rest.length ≤ source.records.length := by rw [← hrest]; simp
    have hserial : requestedSerial peer source =
        .ok (LogSegment.ofRecords source.header.hash rest).serialise := by
      simp only [requestedSerial, hsize, ok_bind, List.length_eq_zero_iff, if_neg hnone, hback,
        hcut, pure_eq_ok]
    obtain ⟨t,ht,hall⟩ := @writeRest sha peer source hpeer hsource
      (LogSegment.ofRecords source.header.hash rest) hrest
    refine ⟨t,?_,hall⟩
    have hcount := @LogSegment.ofRecords_num_eq source.header.hash rest
      (by rw [hsource.num] at hint; omega)
    have hread := LogSegment.deserialise_of_count hrestWf hcount beyond
    simp only [LogTransaction.update, hserial, ok_bind, hread, ht]

/-- The other log does not have the last record yet. -/
theorem update_behind (beyond : Nat → Option UInt8) (hpeer : Counted sha peer)
    (hsource : Counted sha source)
    (hdistinct : Distinct (fun r : Activity => r.header.hash) peer.records)
    (hbegin : source.records <+: peer.records)
    (hbehind : source.records.length < peer.records.length) :
    peer.update sha source beyond = throws .transactionReadFail := by
  have hne : peer.records ≠ [] := List.ne_nil_of_length_pos (by omega)
  obtain ⟨front,last,hlast⟩ : ∃ front last, peer.records = front ++ [last] :=
    ⟨_,_,(List.dropLast_append_getLast hne).symm⟩
  have hfront : source.records <+: front := by
    apply List.prefix_of_prefix_length_le hbegin (hlast ▸ List.prefix_append front [last])
    simp only [hlast, List.length_append, List.length_singleton] at hbehind
    omega
  rw [hlast] at hdistinct
  have habsent : ∀ r ∈ source.records, r.header.hash ≠ last.header.hash := fun r hr =>
    hdistinct.others_ne r (List.mem_append_left [] (hfront.subset hr))
  have hsize : peer.size = .ok peer.records.length := by
    simp [LogTransaction.size, isValid_of hpeer.valid]
  have hback : peer.back = .ok last := back_eq hpeer.valid (by rw [hlast]; simp)
  simp only [LogTransaction.update, requestedSerial, hsize, ok_bind, List.length_eq_zero_iff,
    if_neg hne, hback, (read_absent hsource.valid habsent).2, throws, error_bind]

end Update

/-! ### Runs -/

namespace Replicas
variable {sha} {author} {logs logs' : Replicas L}

/-- No operation takes a record out of a log. -/
theorem step_appends {op : ReplicaOp L} (h : logs.step sha author op = .ok logs') (l : L) :
    (logs l).records <+: (logs' l).records := by
  cases op with
  | generate g =>
    obtain ⟨t,ht,h⟩ := bind_eq_ok.mp h
    obtain rfl := Except.ok.inj h
    obtain ⟨-,-,hrecords,-,-⟩ := writeRecord_ok sha (generate_ok sha ht)
    rw [Function.update_apply]
    split
    · rename_i hl
      rw [hl, hrecords]
      exact List.prefix_append _ _
    · exact List.prefix_rfl
  | update peer source beyond =>
    simp only [step] at h
    split at h
    · rename_i t ht
      obtain rfl := Except.ok.inj h
      obtain ⟨bytes,-,ht⟩ := bind_eq_ok.mp ht
      obtain ⟨segment,-,ht⟩ := bind_eq_ok.mp ht
      obtain ⟨-,-,hrecords,-,-⟩ := writeSegment_ok sha ht
      rw [Function.update_apply]
      split
      · rename_i hl
        rw [hl, hrecords]
        exact List.prefix_append _ _
      · exact List.prefix_rfl
    · obtain rfl := Except.ok.inj h
      exact List.prefix_rfl
    · contradiction

omit [DecidableEq L] in
theorem Following.distinct (h : Following sha author logs)
    (hrepeats : ¬ HashRepeats sha (logs author).records) (l : L) :
    Distinct (fun r : Activity => r.header.hash) (logs l).records :=
  (h.hashed.distinct sha hrepeats).sublist (h.begins l).sublist

/-- After an update the first log has the records of the longer of the two. -/
theorem Following.update (h : Following sha author logs)
    (hrepeats : ¬ HashRepeats sha (logs author).records) (peer source : L)
    (beyond : Nat → Option UInt8) :
    ∃ t, logs.step sha author (.update peer source beyond) = .ok (Function.update logs peer t) ∧
      Counted sha t ∧ t.records =
        if (logs peer).records.length ≤ (logs source).records.length then (logs source).records
        else (logs peer).records := by
  by_cases hle : (logs peer).records.length ≤ (logs source).records.length
  · have hbegin := List.prefix_of_prefix_length_le (h.begins peer) (h.begins source) hle
    obtain ⟨t,ht,hrecords,hcounted⟩ := update_ahead beyond (h.counted peer) (h.counted source)
      (fun r hr => h.hashed.sizes r ((h.begins source).subset hr)) (h.distinct hrepeats source) hbegin
    exact ⟨t,by simp only [step, ht, pure_eq_ok],hcounted,by rw [if_pos hle, hrecords]⟩
  · have hlt := not_le.mp hle
    have hbegin := List.prefix_of_prefix_length_le (h.begins source) (h.begins peer) hlt.le
    have hthrows := update_behind beyond (h.counted peer) (h.counted source)
      (h.distinct hrepeats peer) hbegin hlt
    refine ⟨logs peer,?_,h.counted peer,by rw [if_neg hle]⟩
    simp only [step, hthrows, throws, Function.update_eq_self, pure_eq_ok]

theorem Following.step {op : ReplicaOp L} (h : Following sha author logs)
    (hrepeats : ¬ HashRepeats sha (logs author).records) (hsized : op.Sized)
    (hstep : logs.step sha author op = .ok logs') : Following sha author logs' := by
  cases op with
  | generate g =>
    obtain ⟨t,ht,hlogs⟩ := bind_eq_ok.mp hstep
    obtain rfl := Except.ok.inj hlogs
    have hwrite : (logs author).write sha
        (.record ((g.construction (tip recordHash (logs author).records)).make sha)) = .ok t :=
      generate_ok sha ht
    have hgrown := (write_ok hwrite).2.1
    refine ⟨?_,fun l => ?_,fun l => ?_⟩
    · rw [Function.update_self]
      exact h.hashed.generate sha hsized ht
    · rw [Function.update_apply]
      split
      · exact (h.counted author).step hwrite
      · exact h.counted l
    · rw [Function.update_self, Function.update_apply]
      split
      · exact List.prefix_rfl
      · exact (h.begins l).trans (hgrown ▸ List.prefix_append _ _)
  | update peer source beyond =>
    obtain ⟨t,ht,hcounted,hrecords⟩ := h.update hrepeats peer source beyond
    obtain rfl := Except.ok.inj (ht.symm.trans hstep)
    have hbegin : t.records <+: (logs author).records := by
      rw [hrecords]
      split
      · exact h.begins source
      · exact h.begins peer
    -- the log that records are generated on has nothing to get
    have hauthor : (Function.update logs peer t author).records = (logs author).records := by
      rw [Function.update_apply]
      split
      · rename_i hpeer
        apply hbegin.eq_of_length_le
        rw [hrecords, hpeer]
        split <;> omega
      · rfl
    refine ⟨hauthor ▸ h.hashed,fun l => ?_,fun l => ?_⟩
    · rw [Function.update_apply]
      split
      · exact hcounted
      · exact h.counted l
    · rw [hauthor, Function.update_apply]
      split
      · exact hbegin
      · exact h.begins l

theorem run_following {ops : List (ReplicaOp L)} (hsized : ∀ op ∈ ops, op.Sized)
    (h : HashRepeats sha (logs author).records ∨ Following sha author logs)
    (hrun : ops.foldlM (Replicas.step sha author) logs = .ok logs') :
    HashRepeats sha (logs' author).records ∨ Following sha author logs' := by
  induction ops generalizing logs with
  | nil =>
    obtain rfl := Except.ok.inj hrun
    exact h
  | cons op ops ih =>
    rw [List.foldlM_cons] at hrun
    obtain ⟨next,hnext,hrun⟩ := bind_eq_ok.mp hrun
    refine ih (fun k hk => hsized k (List.mem_cons_of_mem op hk)) ?_ hrun
    by_cases hrepeats : HashRepeats sha (logs author).records
    · exact .inl (hrepeats.grow sha (step_appends hnext author))
    · exact .inr ((h.resolve_left hrepeats).step hrepeats (hsized op List.mem_cons_self) hnext)

omit [DecidableEq L] in
theorem start_following : Following sha author (fun _ => emptyLog) :=
  ⟨HashedLog.nil sha,fun _ => emptyLog_counted,fun _ => List.prefix_rfl⟩

variable (sha author) in
/-- What no order of operations can break, and what each update does. -/
structure Agreement (logs : Replicas L) : Prop where
  following : Following sha author logs
  /-- logs of one length are one log -/
  same : ∀ l m, (logs l).header.numRecords = (logs m).header.numRecords →
    (logs l).records = (logs m).records ∧
      ((logs l).records ≠ [] → (logs l).header.hash = (logs m).header.hash)
  /-- what is found in one log is found in the one that it was generated on -/
  reads : ∀ l hash r, (logs l).readRecord hash = .ok r → (logs author).readRecord hash = .ok r
  updates : ∀ peer source beyond, ∃ t,
    logs.step sha author (.update peer source beyond) = .ok (Function.update logs peer t) ∧
      t.records = if (logs peer).records.length ≤ (logs source).records.length
        then (logs source).records else (logs peer).records

omit [DecidableEq L] in
theorem Following.same (h : Following sha author logs) {l m : L}
    (hnum : (logs l).header.numRecords = (logs m).header.numRecords) :
    (logs l).records = (logs m).records := by
  have hlength : (logs l).records.length = (logs m).records.length := by
    have hl := (h.counted l).num
    have hm := (h.counted m).num
    rw [hnum] at hl
    omega
  have hbegin := List.prefix_of_prefix_length_le (h.begins l) (h.begins m) hlength.le
  exact hbegin.eq_of_length hlength

theorem readRecord_prefix {t t' : LogTransaction} (hv : t'.valid = true)
    (hbegin : t.records <+: t'.records) {hash : Hash512} {r : Activity}
    (h : t.readRecord hash = .ok r) : t'.readRecord hash = .ok r := by
  obtain ⟨⟨⟩,-,h⟩ := bind_eq_ok.mp h
  obtain ⟨rest,hrest⟩ := hbegin
  split at h
  · rename_i act hfind
    obtain rfl := Except.ok.inj h
    have hfound : t'.records.find? (fun act => act.header.hash = hash) = some act := by
      rw [← hrest, List.find?_append, hfind]
      rfl
    simp only [readRecord, isValid_of hv, ok_bind, hfound, pure_eq_ok]
  · contradiction

theorem Following.agreement (h : Following sha author logs)
    (hrepeats : ¬ HashRepeats sha (logs author).records) : Agreement sha author logs := by
  refine ⟨h,fun l m hnum => ?_,fun l hash r hread => ?_,fun peer source beyond => ?_⟩
  · have hrecords := h.same hnum
    refine ⟨hrecords,fun hne => ?_⟩
    rw [(h.counted l).hash hne, (h.counted m).hash (hrecords ▸ hne), hrecords]
  · exact readRecord_prefix (h.counted author).valid (h.begins l) hread
  · obtain ⟨t,ht,-,hrecords⟩ := h.update hrepeats peer source beyond
    exact ⟨t,ht,hrecords⟩

/-- However generating and updates are interleaved, the logs agree, unless a hash repeats. -/
theorem replicas_agree {ops : List (ReplicaOp L)} (hsized : ∀ op ∈ ops, op.Sized)
    (hrun : ops.foldlM (Replicas.step sha author) (fun _ => emptyLog) = .ok logs) :
    HashRepeats sha (logs author).records ∨ Agreement sha author logs := by
  rcases run_following hsized (.inr start_following) hrun with hrepeats | hfollowing
  · exact .inl hrepeats
  · by_cases hrepeats : HashRepeats sha (logs author).records
    · exact .inl hrepeats
    · exact .inr (hfollowing.agreement hrepeats)

end Replicas
end Updating

/-- A log gets the first record as the whole of the other log; then it has one more itself. -/
def twoReplicas : List (ReplicaOp Bool) :=
  [.generate (.header (.init default)),.update false true fun _ => none,
    .generate (.content (.init default) .empty),.update true false fun _ => none]

theorem twoReplicas_run : ∃ logs : Replicas Bool,
    twoReplicas.foldlM (Replicas.step lengthHash true) (fun _ => emptyLog) = .ok logs := by
  apply exists_eq_ok
  decide +kernel

theorem Replicas.replicas_agree_two :
    ∃ logs, twoReplicas.foldlM (Replicas.step lengthHash true) (fun _ => emptyLog) = .ok logs ∧
      (HashRepeats lengthHash (logs true).records ∨ Agreement lengthHash true logs) := by
  obtain ⟨logs,hlogs⟩ := twoReplicas_run
  refine ⟨logs,hlogs,Replicas.replicas_agree ?_ hlogs⟩
  intro op hop
  fin_cases hop
  · rfl
  · trivial
  · trivial
  · trivial

end GsnNode
