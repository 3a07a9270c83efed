import GsnNode.LogTransaction

/-! `activity_log` and the objects of type `log_transaction` that refer to logs:
which log is locked, and by whom. The members of a transaction are references, so
an assignment writes through them. -/

set_option autoImplicit false

namespace GsnNode
open LogTransaction

structure ActivityLog where
  header : LogHeader
  log : List Activity
  transacting : Bool
  /-- the state of `m_mutex` -/
  locked : Bool
  deriving DecidableEq

/-- A `log_transaction` object: the log that its references were bound to, and `m_valid`. -/
structure TransactionObject (L : Type) where
  base : L
  valid : Bool
  deriving DecidableEq

/-- Logs and transaction objects by name; none where no object lives. -/
structure World (L T : Type) where
  logs : L → ActivityLog
  transactions : T → Option (TransactionObject L)

namespace ActivityLog

def endTransaction (log : ActivityLog) : Call ActivityLog :=
  -- unlocking a mutex that is not locked is undefined
  if log.locked then pure { log with transacting := false, locked := false } else undefined

def view (log : ActivityLog) (valid : Bool) : LogTransaction := ⟨log.log,log.header,valid⟩

def write (log : ActivityLog) (t : LogTransaction) : ActivityLog :=
  { log with log := t.records, header := t.header }

end ActivityLog

namespace World
variable {L T : Type}

inductive Op (L T : Type) where
  | begin : T → L → Op L T
  | moveConstruct : T → T → Op L T
  | moveAssign : T → T → Op L T
  | destroy : T → Op L T
  | writeRecord : T → Activity → Op L T
  | writeSegment : T → LogSegment → Op L T

/-! ### Steps -/

section Steps
variable [DecidableEq L]

def setLog (w : World L T) (l : L) (log : ActivityLog) : World L T :=
  { w with logs := Function.update w.logs l log }

theorem setLog_logs (w : World L T) (l l' : L) (log : ActivityLog) :
    (w.setLog l log).logs l' = if l' = l then log else w.logs l' := by
  simp [setLog, Function.update_apply]

@[simp] theorem setLog_transactions (w : World L T) (l : L) (log : ActivityLog) :
    (w.setLog l log).transactions = w.transactions := rfl

variable [DecidableEq T] (sha : List UInt8 → Hash512)

def setObject (w : World L T) (t : T) (o : Option (TransactionObject L)) : World L T :=
  { w with transactions := Function.update w.transactions t o }

omit [DecidableEq L] in
theorem setObject_transactions (w : World L T) (t t' : T) (o : Option (TransactionObject L)) :
    (w.setObject t o).transactions t' = if t' = t then o else w.transactions t' := by
  simp [setObject, Function.update_apply]

omit [DecidableEq L] in
@[simp] theorem setObject_logs (w : World L T) (t : T) (o : Option (TransactionObject L)) :
    (w.setObject t o).logs = w.logs := rfl

/-- `t` is made by `begin_transaction` on `l`; a locked mutex is waited for. -/
def beginTransaction (w : World L T) (t : T) (l : L) : Call (World L T) :=
  let log := w.logs l
  if log.locked then .error .hangs
  else pure ((w.setLog l { log with locked := true, transacting := true }).setObject t
    (some ⟨l,true⟩))

/-- `log_transaction t(std::move(s))`, which does not ask whether `s` is valid. -/
def moveConstruct (w : World L T) (t s : T) : Call (World L T) :=
  match w.transactions s with
  | none => undefined
  | some orig => pure ((w.setObject s (some { orig with valid := false })).setObject t
      (some ⟨orig.base,true⟩))

/-- `t = std::move(s)`. Assigning the base class does nothing; the records and the
header are copied from one log to the other. -/
def moveAssign (w : World L T) (t s : T) : Call (World L T) :=
  match w.transactions t, w.transactions s with
  | some self, some orig =>
    let log := (w.logs self.base).write ((w.logs orig.base).view true)
    pure (((w.setObject s (some { orig with valid := false })).setLog self.base log).setObject t
      (some { self with valid := true }))
  | _, _ => undefined

def destroy (w : World L T) (t : T) : Call (World L T) :=
  match w.transactions t with
  | none => undefined
  | some o =>
    if o.valid then do
      let log ← (w.logs o.base).endTransaction
      pure ((w.setLog o.base log).setObject t none)
    else pure (w.setObject t none)

def writeRecord (w : World L T) (t : T) (r : Activity) : Call (World L T) :=
  match w.transactions t with
  | none => undefined
  | some o => do
    let view ← LogTransaction.writeRecord sha ((w.logs o.base).view o.valid) r
    pure (w.setLog o.base ((w.logs o.base).write view))

def writeSegment (w : World L T) (t : T) (s : LogSegment) : Call (World L T) :=
  match w.transactions t with
  | none => undefined
  | some o => do
    let view ← LogTransaction.writeSegment sha ((w.logs o.base).view o.valid) s
    pure (w.setLog o.base ((w.logs o.base).write view))

def step (w : World L T) : Op L T → Call (World L T)
  | .begin t l => w.beginTransaction t l
  | .moveConstruct t s => w.moveConstruct t s
  | .moveAssign t s => w.moveAssign t s
  | .destroy t => w.destroy t
  | .writeRecord t r => w.writeRecord sha t r
  | .writeSegment t s => w.writeSegment sha t s

end Steps

/-- Objects are made where there is none and used where there is one, and a
transaction is begun on a log without one. -/
def Applicable (w : World L T) : Op L T → Prop
  | .begin t l => w.transactions t = none ∧ (w.logs l).transacting = false
  | .moveConstruct t s => w.transactions t = none ∧ (w.transactions s).isSome
  | .moveAssign t s => (w.transactions t).isSome ∧ (w.transactions s).isSome
  | .destroy t => (w.transactions t).isSome
  | .writeRecord t _ => (w.transactions t).isSome
  | .writeSegment t _ => (w.transactions t).isSome

def Op.writes : Op L T → Bool
  | .writeRecord .. | .writeSegment .. => true
  | _ => false

/-! ### Ownership -/

/-- Each flag and mutex is set just where one valid transaction refers to the log. -/
structure Owned (w : World L T) : Prop where
  transacting : ∀ l, (w.logs l).transacting = true ↔ ∃! t, w.transactions t = some ⟨l,true⟩
  locked : ∀ l, (w.logs l).locked = true ↔ ∃! t, w.transactions t = some ⟨l,true⟩

def SameContent (w w' : World L T) : Prop :=
  ∀ l, (w'.logs l).log = (w.logs l).log ∧ (w'.logs l).header = (w.logs l).header

/-- The moves that keep ownership: a construction from a valid transaction; an
assignment within a log in which one of the two is valid; an assignment to a valid
transaction from an invalid one, where the two logs have the same content. -/
def SafeMove (w : World L T) : Op L T → Prop
  | .moveConstruct _ s => ∀ orig, w.transactions s = some orig → orig.valid = true
  | .moveAssign t s => ∀ self orig, w.transactions t = some self → w.transactions s = some orig →
      (self.base = orig.base ∧ (self.valid = true ∨ orig.valid = true)) ∨
        (self.base ≠ orig.base ∧ self.valid = true ∧ orig.valid = false ∧
          (w.logs orig.base).log = (w.logs self.base).log ∧
          (w.logs orig.base).header = (w.logs self.base).header)
  | _ => True

/-- The inductive form of `Owned`: no log has two valid transactions. -/
structure Exclusive (w : World L T) : Prop where
  mutex : ∀ l, (w.logs l).locked = (w.logs l).transacting
  owner : ∀ l, (w.logs l).transacting = true ↔ ∃ t, w.transactions t = some ⟨l,true⟩
  unique : ∀ l t t', w.transactions t = some ⟨l,true⟩ → w.transactions t' = some ⟨l,true⟩ → t = t'

theorem Exclusive.owned {w : World L T} (h : w.Exclusive) : w.Owned := by
  have howner : ∀ l, (w.logs l).transacting = true ↔
      ∃! t, w.transactions t = some ⟨l,true⟩ := by
    intro l
    rw [h.owner l]
    constructor
    · rintro ⟨t,ht⟩
      exact ⟨t,ht,fun t' ht' => h.unique l t' t ht' ht⟩
    · rintro ⟨t,ht,-⟩
      exact ⟨t,ht⟩
  exact ⟨howner,fun l => by rw [h.mutex l, howner l]⟩

theorem Exclusive.of_flags {w w' : World L T} (h : w.Exclusive)
    (htrans : w'.transactions = w.transactions)
    (hflag : ∀ l, (w'.logs l).transacting = (w.logs l).transacting)
    (hlock : ∀ l, (w'.logs l).locked = (w.logs l).locked) : w'.Exclusive where
  mutex l := by rw [hlock, hflag, h.mutex]
  owner l := by rw [hflag, htrans, h.owner]
  unique := by rw [htrans]; exact h.unique

/-- A transaction that becomes valid on a log whose flag stays as it was. -/
theorem Exclusive.not_owned_of_added {w w' : World L T} (h : w.Exclusive) {t : T} {l : L}
    (hflag : (w'.logs l).transacting = (w.logs l).transacting)
    (hnew : w'.transactions t = some ⟨l,true⟩) (hold : w.transactions t ≠ some ⟨l,true⟩)
    (hrest : ∀ t', t' ≠ t →
      (w'.transactions t' = some ⟨l,true⟩ ↔ w.transactions t' = some ⟨l,true⟩)) : ¬ w'.Owned := by
  intro howned
  have hiff := howned.transacting l
  rw [hflag, h.owner l] at hiff
  by_cases hbefore : ∃ t', w.transactions t' = some ⟨l,true⟩
  · obtain ⟨t',ht'⟩ := hbefore
    have hne : t' ≠ t := by rintro rfl; exact hold ht'
    have hboth := (hiff.mp ⟨t',ht'⟩).unique ((hrest t' hne).mpr ht') hnew
    exact hne hboth
  · refine hbefore (hiff.mpr ⟨t,hnew,fun t' ht' => ?_⟩)
    by_contra hne
    exact hbefore ⟨t',(hrest t' hne).mp ht'⟩

/-! ### What steps keep -/

variable [DecidableEq L] [DecidableEq T] (sha : List UInt8 → Hash512)

theorem beginTransaction_exclusive {w w' : World L T} (h : w.Exclusive) {t : T} {l : L}
    (hfree : w.transactions t = none) (hrun : w.beginTransaction t l = .ok w') :
    w'.Exclusive := by
  simp only [beginTransaction] at hrun
  split at hrun
  · cases hrun
  · rename_i hlock
    have hnone : ∀ t', w.transactions t' ≠ some ⟨l,true⟩ := by
      intro t' ht'
      exact hlock (by rw [h.mutex l, h.owner l]; exact ⟨t',ht'⟩)
    cases hrun
    have hmutex := h.mutex
    have howner := h.owner
    have hunique := h.unique
    constructor
    · intro l'
      simp only [setObject_logs, setLog_logs]
      grind
    · intro l'
      simp only [setObject_logs, setLog_logs, setObject_transactions, setLog_transactions]
      grind
    · intro l' a b
      simp only [setObject_transactions, setLog_transactions]
      grind

theorem beginTransaction_sameContent {w w' : World L T} {t : T} {l : L}
    (hrun : w.beginTransaction t l = .ok w') : w.SameContent w' := by
  simp only [beginTransaction] at hrun
  split at hrun
  · cases hrun
  · cases hrun
    intro l'
    simp only [setObject_logs, setLog_logs]
    grind

omit [DecidableEq L] in
theorem moveConstruct_exclusive {w w' : World L T} (h : w.Exclusive) {t s : T}
    {orig : TransactionObject L} (hfree : w.transactions t = none)
    (hs : w.transactions s = some orig) (hvalid : orig.valid = true)
    (hrun : w.moveConstruct t s = .ok w') : w'.Exclusive ∧ w.SameContent w' := by
  simp only [moveConstruct, hs] at hrun
  cases hrun
  obtain ⟨base,valid⟩ := orig
  subst hvalid
  have howner := h.owner
  have hunique := h.unique
  refine ⟨⟨h.mutex,?_,?_⟩,fun l => ⟨rfl,rfl⟩⟩
  · intro l
    simp only [setObject_transactions, setObject_logs]
    grind
  · intro l a b
    simp only [setObject_transactions]
    grind

theorem moveAssign_exclusive {w w' : World L T} (h : w.Exclusive) {t s : T}
    {self orig : TransactionObject L} (ht : w.transactions t = some self)
    (hs : w.transactions s = some orig) (hsafe : w.SafeMove (.moveAssign t s))
    (hrun : w.moveAssign t s = .ok w') : w'.Exclusive ∧ w.SameContent w' := by
  simp only [moveAssign, ht, hs] at hrun
  have hsafe := hsafe self orig ht hs
  cases hrun
  obtain ⟨base,valid⟩ := self
  obtain ⟨base',valid'⟩ := orig
  have hmutex := h.mutex
  have howner := h.owner
  have hunique := h.unique
  refine ⟨⟨?_,?_,?_⟩,?_⟩
  · intro l
    simp only [setObject_logs, setLog_logs, ActivityLog.write]
    grind
  · intro l
    simp only [setObject_logs, setLog_logs, setObject_transactions, setLog_transactions,
      ActivityLog.write]
    grind
  · intro l a b
    simp only [setObject_transactions, setLog_transactions]
    grind
  · intro l
    simp only [setObject_logs, setLog_logs, ActivityLog.write, ActivityLog.view]
    grind

theorem destroy_exclusive {w w' : World L T} (h : w.Exclusive) {t : T}
    (hrun : w.destroy t = .ok w') : w'.Exclusive ∧ w.SameContent w' := by
  simp only [destroy] at hrun
  have hmutex := h.mutex
  have howner := h.owner
  have hunique := h.unique
  cases ht : w.transactions t with
  | none => simp [ht, undefined] at hrun
  | some o =>
    obtain ⟨base,valid⟩ := o
    cases valid with
    | false =>
      simp only [ht] at hrun
      cases hrun
      refine ⟨⟨h.mutex,?_,?_⟩,fun l => ⟨rfl,rfl⟩⟩
      · intro l
        simp only [setObject_transactions, setObject_logs]
        grind
      · intro l a b
        simp only [setObject_transactions]
        grind
    | true =>
      have hlock : (w.logs base).locked = true := by
        rw [h.mutex, h.owner]
        exact ⟨t,ht⟩
      simp only [ht, ActivityLog.endTransaction, hlock] at hrun
      cases hrun
      refine ⟨⟨?_,?_,?_⟩,?_⟩
      · intro l
        simp only [setObject_logs, setLog_logs]
        grind
      · intro l
        simp only [setObject_logs, setLog_logs, setObject_transactions, setLog_transactions]
        grind
      · intro l a b
        simp only [setObject_transactions, setLog_transactions]
        grind
      · intro l
        simp only [setObject_logs, setLog_logs]
        grind

theorem Exclusive.destroy_returns {w : World L T} (h : w.Exclusive) {t : T}
    (ht : (w.transactions t).isSome) : ∃ w', w.destroy t = .ok w' := by
  obtain ⟨⟨base,valid⟩,ht⟩ := Option.isSome_iff_exists.mp ht
  cases valid with
  | false => exact ⟨w.setObject t none,by simp [destroy, ht, pure, Except.pure]⟩
  | true =>
    have hlock : (w.logs base).locked = true := by
      rw [h.mutex, h.owner]
      exact ⟨t,ht⟩
    simp only [destroy, ht, ActivityLog.endTransaction, hlock, if_true]
    exact ⟨_,rfl⟩

omit [DecidableEq T] in
theorem Exclusive.write {w : World L T} (h : w.Exclusive) (l : L) (view : LogTransaction) :
    (w.setLog l ((w.logs l).write view)).Exclusive := by
  refine h.of_flags rfl ?_ ?_
  · intro l'
    rw [setLog_logs]
    split
    · subst l'; rfl
    · rfl
  · intro l'
    rw [setLog_logs]
    split
    · subst l'; rfl
    · rfl

omit [DecidableEq T] in
theorem writeRecord_cases {w w' : World L T} {t : T} {r : Activity}
    (hrun : w.writeRecord sha t r = .ok w') :
    ∃ (o : TransactionObject L) (view : LogTransaction),
      LogTransaction.writeRecord sha ((w.logs o.base).view o.valid) r = .ok view ∧
      w' = w.setLog o.base ((w.logs o.base).write view) := by
  simp only [writeRecord] at hrun
  split at hrun
  · cases hrun
  · rename_i o ht
    obtain ⟨view,hview,hset⟩ := bind_eq_ok.mp hrun
    exact ⟨o,view,hview,(Except.ok.inj hset).symm⟩

omit [DecidableEq T] in
theorem writeSegment_cases {w w' : World L T} {t : T} {s : LogSegment}
    (hrun : w.writeSegment sha t s = .ok w') :
    ∃ (o : TransactionObject L) (view : LogTransaction),
      LogTransaction.writeSegment sha ((w.logs o.base).view o.valid) s = .ok view ∧
      w' = w.setLog o.base ((w.logs o.base).write view) := by
  simp only [writeSegment] at hrun
  split at hrun
  · cases hrun
  · rename_i o ht
    obtain ⟨view,hview,hset⟩ := bind_eq_ok.mp hrun
    exact ⟨o,view,hview,(Except.ok.inj hset).symm⟩

theorem step_exclusive {w w' : World L T} (h : w.Exclusive) {op : Op L T}
    (happ : w.Applicable op) (hsafe : w.SafeMove op) (hrun : w.step sha op = .ok w') :
    w'.Exclusive ∧ (op.writes = false → w.SameContent w') := by
  cases op with
  | begin t l =>
    refine ⟨beginTransaction_exclusive h happ.1 hrun,fun _ => ?_⟩
    exact beginTransaction_sameContent hrun
  | moveConstruct t s =>
    obtain ⟨orig,hs⟩ := Option.isSome_iff_exists.mp happ.2
    have hmoved := moveConstruct_exclusive h happ.1 hs (hsafe orig hs) hrun
    exact ⟨hmoved.1,fun _ => hmoved.2⟩
  | moveAssign t s =>
    obtain ⟨self,ht⟩ := Option.isSome_iff_exists.mp happ.1
    obtain ⟨orig,hs⟩ := Option.isSome_iff_exists.mp happ.2
    have hmoved := moveAssign_exclusive h ht hs hsafe hrun
    exact ⟨hmoved.1,fun _ => hmoved.2⟩
  | destroy t =>
    have hgone := destroy_exclusive h hrun
    exact ⟨hgone.1,fun _ => hgone.2⟩
  | writeRecord t r =>
    obtain ⟨o,view,-,rfl⟩ := writeRecord_cases sha hrun
    exact ⟨h.write o.base view,fun hw => by cases hw⟩
  | writeSegment t s =>
    obtain ⟨o,view,-,rfl⟩ := writeSegment_cases sha hrun
    exact ⟨h.write o.base view,fun hw => by cases hw⟩

/-! ### Moves that are not safe -/

omit [DecidableEq L] in
theorem moveConstruct_safe_of_owned {w w' : World L T} (h : w.Exclusive) {t s : T}
    (hfree : w.transactions t = none) (hrun : w.moveConstruct t s = .ok w')
    (howned : w'.Owned) : w.SafeMove (.moveConstruct t s) := by
  intro orig hs
  obtain ⟨base,valid⟩ := orig
  simp only [moveConstruct, hs] at hrun
  cases hrun
  cases valid with
  | true => rfl
  | false =>
    refine absurd howned (h.not_owned_of_added (t := t) (l := base) rfl ?_ ?_ ?_)
    · simp [setObject_transactions]
    · simp [hfree]
    · intro t' ht'
      simp only [setObject_transactions]
      grind

theorem moveAssign_safe_of_owned {w w' : World L T} (h : w.Exclusive) {t s : T}
    (hrun : w.moveAssign t s = .ok w') (howned : w'.Owned) (hsame : w.SameContent w') :
    w.SafeMove (.moveAssign t s) := by
  intro self orig ht hs
  obtain ⟨base,valid⟩ := self
  obtain ⟨base',valid'⟩ := orig
  simp only [moveAssign, ht, hs] at hrun
  cases hrun
  -- a transaction that becomes valid without a mutex of its own
  have hadded : ¬ (valid = false ∧ (base = base' → valid' = false)) := by
    rintro ⟨rfl,hboth⟩
    refine h.not_owned_of_added (t := t) (l := base) ?_ ?_ ?_ ?_ howned
    · simp only [setObject_logs, setLog_logs, ActivityLog.write]
      grind
    · simp [setObject_transactions]
    · simp [ht]
    · intro t' ht'
      simp only [setObject_transactions, setLog_transactions]
      grind
  by_cases hbase : base = base'
  · refine Or.inl ⟨hbase,?_⟩
    grind
  · refine Or.inr ⟨hbase,by grind,?_,?_⟩
    · -- the log of a valid source would stay locked with no one to release it
      by_contra hvalid
      have hflag : (w.logs base').transacting = true := (h.owner base').mpr ⟨s,by grind⟩
      obtain ⟨t',ht',-⟩ := (howned.transacting base').mp (by
        simp only [setObject_logs, setLog_logs]
        grind)
      have hunique := h.unique base' t' s
      simp only [setObject_transactions, setLog_transactions] at ht'
      grind
    · have hlog := hsame base
      simpa [setLog_logs, ActivityLog.write, ActivityLog.view] using hlog

theorem safeMove_iff {w w' : World L T} (h : w.Exclusive) {op : Op L T} (happ : w.Applicable op)
    (hrun : w.step sha op = .ok w') :
    w.SafeMove op ↔ w'.Owned ∧ (op.writes = false → w.SameContent w') := by
  constructor
  · intro hsafe
    have hstep := step_exclusive sha h happ hsafe hrun
    exact ⟨hstep.1.owned,hstep.2⟩
  · rintro ⟨howned,hsame⟩
    cases op with
    | moveConstruct t s => exact moveConstruct_safe_of_owned h happ.1 hrun howned
    | moveAssign t s => exact moveAssign_safe_of_owned h hrun howned (hsame rfl)
    | begin t l => trivial
    | destroy t => trivial
    | writeRecord t r => trivial
    | writeSegment t s => trivial

/-- Nothing but a write hangs or is undefined. -/
theorem Exclusive.step_returns {w : World L T} (h : w.Exclusive) {op : Op L T}
    (happ : w.Applicable op) (hwrites : op.writes = false) : ∃ w', w.step sha op = .ok w' := by
  cases op with
  | begin t l =>
    have hlock : (w.logs l).locked = false := by rw [h.mutex, happ.2]
    simp only [step, beginTransaction, hlock]
    exact ⟨_,rfl⟩
  | moveConstruct t s =>
    obtain ⟨orig,hs⟩ := Option.isSome_iff_exists.mp happ.2
    simp only [step, moveConstruct, hs]
    exact ⟨_,rfl⟩
  | moveAssign t s =>
    obtain ⟨self,ht⟩ := Option.isSome_iff_exists.mp happ.1
    obtain ⟨orig,hs⟩ := Option.isSome_iff_exists.mp happ.2
    simp only [step, moveAssign, ht, hs]
    exact ⟨_,rfl⟩
  | destroy t => exact h.destroy_returns happ
  | writeRecord t r => cases hwrites
  | writeSegment t s => cases hwrites

/-! ### Runs -/

def init : World L T := ⟨fun _ => ⟨LogHeader.init,[],false,false⟩,fun _ => none⟩

/-- The worlds that allowed steps lead to. -/
inductive Run (allowed : World L T → Op L T → Prop) : World L T → Prop where
  | init : Run allowed init
  | step {w w' : World L T} (op : Op L T) :
    Run allowed w → allowed w op → w.step sha op = .ok w' → Run allowed w'

theorem run_exclusive {w : World L T}
    (hrun : Run sha (fun w op => w.Applicable op ∧ w.SafeMove op) w) : w.Exclusive := by
  induction hrun with
  | init => exact ⟨fun _ => rfl,fun _ => by simp [init],fun _ _ _ ht => by cases ht⟩
  | step op _ hallowed hstep ih => exact (step_exclusive sha ih hallowed.1 hallowed.2 hstep).1

/-- A run of safe moves keeps ownership and content, and a move out of such a run does
so only if it is safe. -/
theorem safe_run_owned {w : World L T}
    (hrun : Run sha (fun w op => w.Applicable op ∧ w.SafeMove op) w) :
    w.Owned ∧
    ((∀ t, w.transactions t = none) →
      ∀ l, (w.logs l).transacting = false ∧ (w.logs l).locked = false) ∧
    (∀ op, w.Applicable op → op.writes = false → ∃ w', w.step sha op = .ok w') ∧
    (∀ op w', w.Applicable op → w.step sha op = .ok w' →
      (w.SafeMove op ↔ w'.Owned ∧ (op.writes = false → w.SameContent w'))) := by
  have h := run_exclusive sha hrun
  refine ⟨h.owned,?_,fun _ => h.step_returns sha,fun _ _ => safeMove_iff sha h⟩
  intro hnone l
  have hflag : (w.logs l).transacting = false := by
    rw [← Bool.not_eq_true, h.owner]
    rintro ⟨t,ht⟩
    rw [hnone t] at ht
    cases ht
  exact ⟨hflag,by rw [h.mutex, hflag]⟩

theorem safe_run_owned_moved : ∃ w : World Unit Bool,
    w.transactions true = none ∧ w.transactions false = some ⟨(),true⟩ ∧ w.Owned := by
  refine ⟨_,?_,?_,(safe_run_owned (fun _ => default)
    (.step (.destroy true) (.step (.moveConstruct false true) (.step (.begin true ()) .init
      ⟨⟨rfl,rfl⟩,trivial⟩ rfl) ⟨⟨rfl,rfl⟩,?_⟩ rfl) ⟨rfl,trivial⟩ rfl)).1⟩
  · rfl
  · rfl
  · intro orig horig
    cases horig
    rfl

/-- Two logs, and an assignment between their transactions: the log of the one that is
moved from stays locked when both are gone. -/
theorem assigned_log_stays_locked : ∃ w : World Bool Bool,
    Run (fun _ => default) (fun w op => w.Applicable op) w ∧
      (∀ t, w.transactions t = none) ∧ (w.logs true).locked = true ∧ ¬ w.Owned := by
  refine ⟨_,.step (.destroy false) (.step (.destroy true) (.step (.moveAssign false true)
    (.step (.begin true true) (.step (.begin false false) .init
      ⟨rfl,rfl⟩ rfl) ⟨rfl,rfl⟩ rfl) ⟨rfl,rfl⟩ rfl) rfl rfl) rfl rfl,?_,rfl,?_⟩
  · decide
  · intro howned
    obtain ⟨t,ht,-⟩ := (howned.locked true).mp rfl
    revert t
    decide

end World
end GsnNode
