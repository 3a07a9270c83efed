import GsnNode.HashChain
import GsnNode.LogFormat
import GsnNode.TransactionOwnership

/-! The checks of a transaction on generated records and on its log. -/

set_option autoImplicit false

namespace GsnNode
open ByteWords LogTransaction

/-! ### Generated records -/

section Fresh
variable (sha : List UInt8 → Hash512)

/-- The record passes the check of the head, and once it is written the log passes
the check of the log. -/
def FreshVerifies (t : LogTransaction) (generated : Call Activity) : Prop :=
  ∃ r, generated = .ok r ∧ t.headVerification sha r = .ok true ∧
    ∃ t', t.writeRecord sha r = .ok t' ∧ t'.logVerification sha = .ok true

theorem headVerification_of {t : LogTransaction} (hv : t.valid = true) {r last : Activity}
    (hlast : t.records.getLast? = some last) (hlinks : LinksTo sha last.header.hash r) :
    t.headVerification sha r = .ok true := by
  rw [LinksTo] at hlinks
  simp [headVerification, isValid_of hv, back_eq hv hlast, hlinks]

theorem writeRecord_verifies {t t' : LogTransaction} {r : Activity}
    (h : t.writeRecord sha r = .ok t') : t'.logVerification sha = .ok true := by
  obtain ⟨-,hvalid,hrecords,hhash,-⟩ := writeRecord_ok sha h
  rw [logVerification_eq sha hvalid, hhash, hrecords]
  simp

theorem writeRecord_of_ne {t : LogTransaction} (hv : t.valid = true)
    (hnum : t.header.numRecords ≠ Int32.maxValue) (r : Activity) :
    ∃ t', t.writeRecord sha r = .ok t' := by
  have hne : t.header.numRecords.toInt ≠ 2147483647 := fun h => hnum (Int32.toInt_inj.mp h)
  have hlt := t.header.numRecords.toInt_lt
  exact writeRecord_of_lt hv (by omega)

theorem writeRecord_ne {t t' : LogTransaction} {r : Activity}
    (h : t.writeRecord sha r = .ok t') : t.header.numRecords ≠ Int32.maxValue := by
  obtain ⟨-,-,-,-,hnum⟩ := writeRecord_ok sha h
  have hlt := t'.header.numRecords.toInt_lt
  intro hmax
  have hvalue : t.header.numRecords.toInt = 2147483647 := by rw [hmax]; rfl
  omega

theorem freshVerifies_of {t : LogTransaction} (hv : t.valid = true) {r last : Activity}
    (hlast : t.records.getLast? = some last) (hnum : t.header.numRecords ≠ Int32.maxValue)
    (hlinks : LinksTo sha last.header.hash r) : FreshVerifies sha t (.ok r) := by
  obtain ⟨t',ht'⟩ := writeRecord_of_ne sha hv hnum r
  exact ⟨r,rfl,headVerification_of sha hv hlast hlinks,t',ht',writeRecord_verifies sha ht'⟩

theorem FreshVerifies.state {t : LogTransaction} {generated : Call Activity}
    (h : FreshVerifies sha t generated) :
    t.valid = true ∧ t.records ≠ [] ∧ t.header.numRecords ≠ Int32.maxValue := by
  obtain ⟨r,-,hcheck,t',hwrite,-⟩ := h
  refine ⟨(writeRecord_ok sha hwrite).1,?_,writeRecord_ne sha hwrite⟩
  obtain ⟨⟨⟩,-,hcheck⟩ := bind_eq_ok.mp hcheck
  obtain ⟨last,hback,-⟩ := bind_eq_ok.mp hcheck
  intro hnil
  have hlast := (back_ok hback).2
  rw [hnil] at hlast
  contradiction

/-- Both kinds of generated records pass the checks exactly if the log has a record to
salt with and room for one more. -/
theorem freshVerifies_iff (t : LogTransaction) (hdr : ActivityHeader) (content : MsgContent) :
    FreshVerifies sha t (t.generateRecord sha hdr) ∧
        FreshVerifies sha t (t.generateRecordWith sha hdr content) ↔
      t.valid = true ∧ t.records ≠ [] ∧ t.header.numRecords ≠ Int32.maxValue := by
  constructor
  · exact fun h => h.1.state
  · intro h
    obtain ⟨hv,hne,hnum⟩ := h
    have hlast := List.getLast?_eq_some_getLast hne
    rw [generateRecord_eq sha (isValid_of hv) hlast,
      generateRecordWith_eq sha (isValid_of hv) hlast]
    exact ⟨freshVerifies_of sha hv hlast hnum (salted_linksTo sha hdr .empty _),
      freshVerifies_of sha hv hlast hnum (salted_linksTo sha hdr content _)⟩

end Fresh

/-- `back()` of the empty log is undefined, before anything is compared. -/
theorem first_record_unverified :
    ¬ FreshVerifies lengthHash emptyLog
      (emptyLog.generateRecordWith lengthHash (emptyRecord 0).header .empty) :=
  fun h => h.state.2.1 rfl

/-! ### Logs -/

namespace World
variable {T : Type} (sha : List UInt8 → Hash512)

/-- What the log holds after a run: the header has the hash of the records once
something was written, and before that what it was constructed with. -/
structure HeaderOf (log : ActivityLog) (written : Prop) : Prop where
  num : log.header.numRecords.toInt = log.log.length
  hash : written → log.header.hash = recordsHash sha log.log
  fresh : ¬ written → log.log = [] ∧ log.header.hash = default

/-- What a write does: the records are appended, counted and hashed. -/
def Appended (log log' : ActivityLog) : Prop :=
  ∃ records : List Activity, log'.log = log.log ++ records ∧
    log'.header.hash = recordsHash sha log'.log ∧
    log'.header.numRecords.toInt = log.header.numRecords.toInt + records.length

theorem setLog_appended {w : World Unit T} {valid : Bool} {change : LogWrite}
    {view : LogTransaction}
    (h : LogTransaction.write sha ((w.logs ()).view valid) change = .ok view) :
    Appended sha (w.logs ()) ((w.setLog () ((w.logs ()).write view)).logs ()) := by
  obtain ⟨-,hrecords,hhash,hnum⟩ := write_ok h
  rw [setLog_logs, if_pos rfl]
  exact ⟨change.records,hrecords,hhash,hnum⟩

variable [DecidableEq T]

theorem destroy_sameContent {w w' : World Unit T} {t : T} (h : w.destroy t = .ok w') :
    w.SameContent w' := by
  simp only [destroy] at h
  split at h
  · cases h
  · split at h
    · obtain ⟨log,hlog,h⟩ := bind_eq_ok.mp h
      unfold ActivityLog.endTransaction at hlog
      split at hlog
      · cases hlog
        cases h
        intro l
        simp [setLog_logs]
      · cases hlog
    · cases h
      exact fun l => ⟨rfl,rfl⟩

/-- With one log only, a move assignment copies the log onto itself. -/
theorem moveAssign_sameContent {w w' : World Unit T} {t s : T} (h : w.moveAssign t s = .ok w') :
    w.SameContent w' := by
  simp only [moveAssign] at h
  split at h
  · cases h
    intro l
    simp [setLog_logs, ActivityLog.write, ActivityLog.view]
  · cases h

theorem step_keeps {w w' : World Unit T} {op : Op Unit T} (hwrites : op.writes = false)
    (h : w.step sha op = .ok w') : w.SameContent w' := by
  cases op with
  | begin t l => exact beginTransaction_sameContent h
  | moveConstruct t s =>
    simp only [step, moveConstruct] at h
    split at h <;> cases h
    exact fun l => ⟨rfl,rfl⟩
  | moveAssign t s => exact moveAssign_sameContent h
  | destroy t => exact destroy_sameContent h
  | writeRecord t r => cases hwrites
  | writeSegment t s => cases hwrites

theorem step_written {w w' : World Unit T} {op : Op Unit T} (hwrites : op.writes = true)
    (h : w.step sha op = .ok w') : Appended sha (w.logs ()) (w'.logs ()) := by
  cases op with
  | writeRecord t r =>
    obtain ⟨o,view,hview,rfl⟩ := writeRecord_cases sha h
    exact @setLog_appended T sha w o.valid (.record r) view hview
  | writeSegment t s =>
    obtain ⟨o,view,hview,rfl⟩ := writeSegment_cases sha h
    exact @setLog_appended T sha w o.valid (.segment s) view hview
  | begin t l => cases hwrites
  | moveConstruct t s => cases hwrites
  | moveAssign t s => cases hwrites
  | destroy t => cases hwrites

theorem HeaderOf.step {w w' : World Unit T} {op : Op Unit T} {written : Prop}
    (hw : HeaderOf sha (w.logs ()) written) (h : w.step sha op = .ok w') :
    HeaderOf sha (w'.logs ()) (written ∨ op.writes = true) := by
  cases hwrites : op.writes with
  | true =>
    obtain ⟨records,hlog,hhash,hnum⟩ := step_written sha hwrites h
    refine ⟨?_,fun _ => hhash,fun hnot => absurd (Or.inr rfl) hnot⟩
    rw [hnum, hw.num, hlog, List.length_append]
    omega
  | false =>
    obtain ⟨hlog,hheader⟩ := step_keeps sha hwrites h ()
    simp only [Bool.false_eq_true, or_false]
    exact ⟨by rw [hlog, hheader, hw.num],fun hwritten => by rw [hheader, hlog, hw.hash hwritten],
      fun hnot => by rw [hheader, hlog]; exact hw.fresh hnot⟩

theorem HeaderOf.run {ops : List (Op Unit T)} {w w' : World Unit T} {written : Prop}
    (hw : HeaderOf sha (w.logs ()) written) (h : ops.foldlM (World.step sha) w = .ok w') :
    HeaderOf sha (w'.logs ()) (written ∨ ∃ op ∈ ops, op.writes = true) := by
  induction ops generalizing w written with
  | nil =>
    obtain rfl := Except.ok.inj h
    simpa using hw
  | cons op ops ih =>
    rw [List.foldlM_cons] at h
    obtain ⟨u,hu,h⟩ := bind_eq_ok.mp h
    have hrest := ih (hw.step sha hu) h
    simpa only [List.exists_mem_cons_iff, or_assoc] using hrest

/-- After any run the header counts the records, and the log passes its check exactly
if a record or a segment, be it an empty one, was ever written. -/
theorem log_verifies_iff (hsha : sha [] ≠ default) {ops : List (Op Unit T)} {w : World Unit T}
    (h : ops.foldlM (World.step sha) init = .ok w) :
    (w.logs ()).header.numRecords.toInt = (w.logs ()).log.length ∧
      (((w.logs ()).view true).logVerification sha = .ok true ↔
        ∃ op ∈ ops, op.writes = true) := by
  have hstart : HeaderOf sha ((init : World Unit T).logs ()) False :=
    ⟨rfl,fun h => h.elim,fun _ => ⟨rfl,rfl⟩⟩
  have hrun := hstart.run sha h
  rw [false_or] at hrun
  refine ⟨hrun.num,?_⟩
  rw [logVerification_eq sha rfl]
  simp only [Except.ok.injEq, decide_eq_true_eq]
  by_cases hwritten : ∃ op ∈ ops, op.writes = true
  · exact iff_of_true (hrun.hash hwritten).symm hwritten
  · obtain ⟨hlog,hhash⟩ := hrun.fresh hwritten
    refine iff_of_false ?_ hwritten
    simp only [ActivityLog.view, hlog, hhash]
    exact hsha

end World

/-- SHA-512 of the empty string. -/
def emptyDigest : Hash512 := Block.ofList 64 [
  207,131,225,53,126,239,184,189,241,84,40,80,214,109,128,7,
  214,32,228,5,11,87,21,220,131,244,169,33,211,108,233,206,
  71,208,209,60,93,133,242,176,255,131,24,210,135,126,236,47,
  99,185,49,189,71,65,122,129,165,56,50,122,249,39,218,62]

/-- A transaction that writes an empty segment, for which the empty string is hashed, and one that
writes nothing. -/
theorem log_verifies_iff_empty_segment :
    (∃ w : World Unit Unit, [World.Op.begin () (),.writeSegment () ⟨[],.init⟩].foldlM
        (World.step fun _ => emptyDigest) World.init = .ok w ∧
      (w.logs ()).header.numRecords.toInt = (w.logs ()).log.length ∧
      ((w.logs ()).view true).logVerification (fun _ => emptyDigest) = .ok true) ∧
      ∃ w : World Unit Unit, [World.Op.begin () ()].foldlM (World.step fun _ => emptyDigest)
          World.init = .ok w ∧
        ((w.logs ()).view true).logVerification (fun _ => emptyDigest) ≠ .ok true := by
  obtain ⟨written,hwritten⟩ : ∃ w : World Unit Unit,
      [World.Op.begin () (),.writeSegment () ⟨[],.init⟩].foldlM (World.step fun _ => emptyDigest)
        World.init = .ok w := ⟨_,rfl⟩
  obtain ⟨begun,hbegun⟩ : ∃ w : World Unit Unit, [World.Op.begin () ()].foldlM
      (World.step fun _ => emptyDigest) World.init = .ok w := ⟨_,rfl⟩
  constructor
  · obtain ⟨hcount,hverified⟩ :=
      World.log_verifies_iff (fun _ => emptyDigest) (by decide +kernel) hwritten
    exact ⟨written,hwritten,hcount,hverified.mpr ⟨_,List.mem_cons_of_mem _ List.mem_cons_self,rfl⟩⟩
  · refine ⟨begun,hbegun,fun h => ?_⟩
    obtain ⟨op,hop,hwrites⟩ :=
      (World.log_verifies_iff (fun _ => emptyDigest) (by decide +kernel) hbegun).2.mp h
    rw [List.mem_singleton.mp hop] at hwrites
    contradiction

/-- The log as it is constructed has the hash 0, which is not that of no records. -/
theorem fresh_log_unverified : (fun _ : List UInt8 => emptyDigest) [] ≠ default ∧
    ∃ w : World Unit Unit, [].foldlM (World.step fun _ => emptyDigest) World.init = .ok w ∧
      ((w.logs ()).view true).logVerification (fun _ => emptyDigest) ≠ .ok true := by
  refine ⟨by decide +kernel,_,rfl,?_⟩
  decide +kernel

end GsnNode
