import GsnNode.GeneratedLogs
import GsnNode.LogVerification

/-! Any number of callers on any number of logs. A caller waits for the mutex of the log,
generates records, writes them, and lets the transaction go. -/

set_option autoImplicit false

namespace GsnNode
open ByteWords LinkedChain LogTransaction

/-- `generate_record` without the write. -/
def LogTransaction.record (sha : List UInt8 → Hash512) (t : LogTransaction) :
    Generation → Call Activity
  | .header hdr => t.generateRecord sha hdr
  | .content hdr msg => t.generateRecordWith sha hdr msg

theorem LogTransaction.record_valid {sha : List UInt8 → Hash512} {t : LogTransaction}
    {g : Generation} {r : Activity} (h : t.record sha g = .ok r) : t.valid = true := by
  cases g with
  | header hdr | content hdr msg =>
    obtain ⟨⟨⟩,hvalid,-⟩ := bind_eq_ok.mp h
    exact isValid_ok.mp hvalid

theorem LogTransaction.record_linksTo {sha : List UInt8 → Hash512} {t : LogTransaction}
    {g : Generation} {r last : Activity} (h : t.record sha g = .ok r)
    (hlast : t.records.getLast? = some last) : LinksTo sha last.header.hash r := by
  cases g with
  | header hdr => exact generateRecord_linksTo sha h hlast
  | content hdr msg => exact generateRecordWith_linksTo sha h hlast

/-! ### What the transactions on a log have written -/

section Blocks
variable {T α : Type} [DecidableEq T]

/-- The latest block of `t` goes on with `a`. The latest of all is the first. -/
def addTo (t : T) (a : α) : List (T × List α) → List (T × List α)
  | [] => []
  | (u,as) :: blocks => if u = t then (u,as ++ [a]) :: blocks else (u,as) :: addTo t a blocks

def written (blocks : List (T × List α)) : List α := blocks.reverse.flatMap Prod.snd

omit [DecidableEq T] in
theorem written_cons (u : T) (as : List α) (blocks : List (T × List α)) :
    written ((u,as) :: blocks) = written blocks ++ as := by
  simp [written]

theorem addTo_head {blocks : List (T × List α)} {t : T} (h : blocks.head?.map Prod.fst = some t)
    (a : α) : (addTo t a blocks).head?.map Prod.fst = some t ∧
      written (addTo t a blocks) = written blocks ++ [a] := by
  cases blocks with
  | nil => cases h
  | cons block blocks =>
    obtain ⟨u,as⟩ := block
    obtain rfl : u = t := by simpa using h
    simp [addTo, written_cons]

end Blocks

/-- The logs and transactions, the record that each caller has generated and not yet
written, and for every log the transactions on it, the latest first, each with what it wrote. -/
structure Callers (L T : Type) where
  world : World L T
  pending : T → Option Activity
  blocks : L → List (T × List Activity)

namespace Callers
variable {L T : Type} [DecidableEq L] [DecidableEq T] (sha : List UInt8 → Hash512)

def init : Callers L T := ⟨World.init,fun _ => none,fun _ => []⟩

/-- A caller that has to wait makes no step. -/
inductive Step (s : Callers L T) : Callers L T → Prop where
  | begin {t : T} {l : L} {w : World L T} : s.world.transactions t = none →
      s.world.beginTransaction t l = .ok w →
      Step s ⟨w,Function.update s.pending t none,
        Function.update s.blocks l ((t,[]) :: s.blocks l)⟩
  | generate {t : T} {o : TransactionObject L} {g : Generation} {r : Activity} :
      s.world.transactions t = some o →
      ((s.world.logs o.base).view o.valid).record sha g = .ok r →
      Step s { s with pending := Function.update s.pending t (some r) }
  | write {t : T} {o : TransactionObject L} {r : Activity} {w : World L T} :
      s.world.transactions t = some o → s.pending t = some r →
      s.world.writeRecord sha t r = .ok w →
      Step s ⟨w,Function.update s.pending t none,
        Function.update s.blocks o.base (addTo t r (s.blocks o.base))⟩
  | destroy {t : T} {w : World L T} : s.world.destroy t = .ok w →
      Step s ⟨w,Function.update s.pending t none,s.blocks⟩

inductive Reached : Callers L T → Prop where
  | init : Reached init
  | step {s s' : Callers L T} : Reached s → Step sha s s' → Reached s'

/-- Of a log with one transaction at a time. -/
structure LogOk (s : Callers L T) (l : L) : Prop where
  linked : LinkedLog sha (s.world.logs l).log
  num : (s.world.logs l).header.numRecords.toInt = (s.world.logs l).log.length
  hash : (s.world.logs l).log ≠ [] →
    (s.world.logs l).header.hash = recordsHash sha (s.world.logs l).log
  serial : (s.world.logs l).log = written (s.blocks l)

structure Isolated (s : Callers L T) : Prop where
  exclusive : s.world.Exclusive
  logs : ∀ l, LogOk sha s l
  owner : ∀ t l, s.world.transactions t = some ⟨l,true⟩ →
    (s.blocks l).head?.map Prod.fst = some t
  pending : ∀ t r, s.pending t = some r → ∃ l, s.world.transactions t = some ⟨l,true⟩ ∧
    ∀ last ∈ (s.world.logs l).log.getLast?, LinksTo sha last.header.hash r

/-! ### Steps -/

omit [DecidableEq L] [DecidableEq T] in
theorem isolated_init : Isolated sha (init : Callers L T) := by
  have hexclusive : (World.init : World L T).Exclusive :=
    ⟨fun _ => rfl,fun _ => by simp [World.init],fun _ _ _ h => by cases h⟩
  have hlinked : LinkedLog sha [] := (linkedLog_iff sha _).mpr Linked.nil
  exact ⟨hexclusive,fun l => ⟨hlinked,rfl,fun h => absurd rfl h,rfl⟩,(by intro t l h; cases h),
    (by intro t r h; cases h)⟩

omit [DecidableEq L] [DecidableEq T] in
/-- Nothing but the flags of a log changes. -/
theorem LogOk.same {s s' : Callers L T} {l : L} (h : LogOk sha s l)
    (hsame : (s'.world.logs l).log = (s.world.logs l).log ∧
      (s'.world.logs l).header = (s.world.logs l).header)
    (hblocks : written (s'.blocks l) = written (s.blocks l)) : LogOk sha s' l := by
  obtain ⟨hlog,hheader⟩ := hsame
  refine ⟨?_,?_,?_,?_⟩
  · rw [hlog]
    exact h.linked
  · rw [hheader, hlog]
    exact h.num
  · rw [hheader, hlog]
    exact h.hash
  · rw [hlog, hblocks]
    exact h.serial

omit [DecidableEq L] [DecidableEq T] in
/-- One record more, which is linked to the last one. -/
theorem LogOk.write {s s' : Callers L T} {l : L} {r : Activity} (h : LogOk sha s l)
    (hlink : ∀ last ∈ (s.world.logs l).log.getLast?, LinksTo sha last.header.hash r)
    (hlog : (s'.world.logs l).log = (s.world.logs l).log ++ [r])
    (hnum : (s'.world.logs l).header.numRecords.toInt =
      (s.world.logs l).header.numRecords.toInt + 1)
    (hhash : (s'.world.logs l).header.hash = recordsHash sha ((s.world.logs l).log ++ [r]))
    (hblocks : written (s'.blocks l) = written (s.blocks l) ++ [r]) : LogOk sha s' l := by
  refine ⟨?_,?_,?_,?_⟩
  · rw [hlog, linkedLog_iff]
    exact ((linkedLog_iff sha _).mp h.linked).snoc hlink
  · rw [hlog, hnum, h.num, List.length_append]
    rfl
  · rw [hlog]
    exact fun _ => hhash
  · rw [hlog, hblocks, h.serial]

theorem begin_transactions {w w' : World L T} {t : T} {l : L}
    (h : w.beginTransaction t l = .ok w') (u : T) :
    w'.transactions u = if u = t then some ⟨l,true⟩ else w.transactions u := by
  simp only [World.beginTransaction] at h
  split at h
  · cases h
  · cases h
    simp [World.setObject_transactions]

theorem destroy_transactions {w w' : World L T} {t : T} (h : w.destroy t = .ok w') (u : T) :
    w'.transactions u = if u = t then none else w.transactions u := by
  simp only [World.destroy] at h
  split at h
  · cases h
  · split at h
    · obtain ⟨log,-,h⟩ := bind_eq_ok.mp h
      cases h
      simp [World.setObject_transactions]
    · cases h
      simp [World.setObject_transactions]

section Steps
variable {s : Callers L T} {t : T} {w : World L T}

theorem Isolated.begin {l : L} (h : Isolated sha s) (hfree : s.world.transactions t = none)
    (hrun : s.world.beginTransaction t l = .ok w) :
    Isolated sha ⟨w,Function.update s.pending t none,
      Function.update s.blocks l ((t,[]) :: s.blocks l)⟩ := by
  have hsame := World.beginTransaction_sameContent hrun
  have hexclusive := World.beginTransaction_exclusive h.exclusive hfree hrun
  have htrans := begin_transactions hrun
  refine ⟨hexclusive,fun l' => (h.logs l').same sha (hsame l') ?_,?_,?_⟩
  · by_cases hl : l' = l
    · subst hl
      simp [written_cons]
    · simp [Function.update_of_ne hl]
  · intro u l' hu
    by_cases hut : u = t
    · subst hut
      obtain rfl : l = l' := by simpa [htrans] using hu
      simp
    · have hold : s.world.transactions u = some ⟨l',true⟩ := by simpa [htrans, hut] using hu
      -- the log of another caller is not this one
      have hne : l' ≠ l := by
        intro heq
        have hnew : w.transactions t = some ⟨l',true⟩ := by simp [htrans, heq]
        exact hut (hexclusive.unique l' u t hu hnew)
      simpa [Function.update_of_ne hne] using h.owner u l' hold
  · intro u r hu
    by_cases hut : u = t
    · subst hut
      simp at hu
    · obtain ⟨l',hl',hlink⟩ := h.pending u r (by simpa [hut] using hu)
      refine ⟨l',by simpa [htrans, hut] using hl',?_⟩
      rw [(hsame l').1]
      exact hlink

omit [DecidableEq L] in
theorem Isolated.generate {o : TransactionObject L} {g : Generation} {r : Activity}
    (h : Isolated sha s) (ht : s.world.transactions t = some o)
    (hrecord : ((s.world.logs o.base).view o.valid).record sha g = .ok r) :
    Isolated sha { s with pending := Function.update s.pending t (some r) } := by
  refine ⟨h.exclusive,fun l => (h.logs l).same sha ⟨rfl,rfl⟩ rfl,h.owner,?_⟩
  intro u q hu
  by_cases hut : u = t
  · subst hut
    obtain rfl : r = q := by simpa using hu
    obtain ⟨base,valid⟩ := o
    obtain rfl : valid = true := LogTransaction.record_valid hrecord
    exact ⟨base,ht,fun last hlast => LogTransaction.record_linksTo hrecord hlast⟩
  · exact h.pending u q (by simpa [hut] using hu)

omit [DecidableEq T] in
/-- A write to a log of its own. -/
theorem writeRecord_own {l : L} {r : Activity} (ht : s.world.transactions t = some ⟨l,true⟩)
    (hrun : s.world.writeRecord sha t r = .ok w) :
    ∃ view, LogTransaction.writeRecord sha ((s.world.logs l).view true) r = .ok view ∧
      w = s.world.setLog l ((s.world.logs l).write view) := by
  simp only [World.writeRecord, ht] at hrun
  obtain ⟨view,hview,hset⟩ := bind_eq_ok.mp hrun
  exact ⟨view,hview,(Except.ok.inj hset).symm⟩

theorem Isolated.write {o : TransactionObject L} {r : Activity} (h : Isolated sha s)
    (ht : s.world.transactions t = some o) (hr : s.pending t = some r)
    (hrun : s.world.writeRecord sha t r = .ok w) :
    Isolated sha ⟨w,Function.update s.pending t none,
      Function.update s.blocks o.base (addTo t r (s.blocks o.base))⟩ := by
  obtain ⟨l,hl,hlink⟩ := h.pending t r hr
  obtain rfl := Option.some.inj (hl.symm.trans ht)
  obtain ⟨view,hview,rfl⟩ := writeRecord_own sha ht hrun
  obtain ⟨-,-,hrecords,hhash,hnum⟩ := writeRecord_ok sha hview
  have hblock := addTo_head (h.owner t l ht) r
  have hlog : ((s.world.setLog l ((s.world.logs l).write view)).logs l) =
      (s.world.logs l).write view := by rw [World.setLog_logs, if_pos rfl]
  have hother : ∀ l', l' ≠ l → (s.world.setLog l ((s.world.logs l).write view)).logs l' =
      s.world.logs l' := fun l' hl' => by rw [World.setLog_logs, if_neg hl']
  refine ⟨h.exclusive.write l view,?_,?_,?_⟩
  · intro l'
    by_cases hl' : l' = l
    · subst hl'
      refine (h.logs l').write sha hlink ?_ ?_ ?_ ?_
      · exact (congrArg ActivityLog.log hlog).trans hrecords
      · exact (congrArg (fun log => log.header.numRecords.toInt) hlog).trans hnum
      · exact (congrArg (fun log => log.header.hash) hlog).trans hhash
      · simpa using hblock.2
    · refine (h.logs l').same sha ?_ ?_
      · simp only [hother l' hl', and_self]
      · simp [Function.update_of_ne hl']
  · intro u l' hu
    by_cases hl' : l' = l
    · subst hl'
      obtain rfl := h.exclusive.unique l' u t hu ht
      simpa using hblock.1
    · simpa [Function.update_of_ne hl'] using h.owner u l' hu
  · intro u q hu
    by_cases hut : u = t
    · subst hut
      simp at hu
    · obtain ⟨l',hl',hlink'⟩ := h.pending u q (by simpa [hut] using hu)
      -- the log of another caller is not this one
      have hne : l' ≠ l := fun heq => hut (h.exclusive.unique l u t (heq ▸ hl') ht)
      refine ⟨l',hl',?_⟩
      simp only [hother l' hne]
      exact hlink'

theorem Isolated.destroy (h : Isolated sha s) (hrun : s.world.destroy t = .ok w) :
    Isolated sha ⟨w,Function.update s.pending t none,s.blocks⟩ := by
  obtain ⟨hexclusive,hsame⟩ := World.destroy_exclusive h.exclusive hrun
  have htrans := destroy_transactions hrun
  refine ⟨hexclusive,fun l => (h.logs l).same sha (hsame l) rfl,?_,?_⟩
  · intro u l hu
    have hut : u ≠ t := fun heq => by simp [htrans, heq] at hu
    exact h.owner u l (by simpa [htrans, hut] using hu)
  · intro u r hu
    have hut : u ≠ t := fun heq => by simp [heq] at hu
    obtain ⟨l,hl,hlink⟩ := h.pending u r (by simpa [hut] using hu)
    refine ⟨l,by simpa [htrans, hut] using hl,?_⟩
    rw [(hsame l).1]
    exact hlink

end Steps

theorem Isolated.step {s s' : Callers L T} (h : Isolated sha s) (hstep : Step sha s s') :
    Isolated sha s' := by
  cases hstep with
  | begin hfree hrun => exact h.begin sha hfree hrun
  | generate ht hrecord => exact h.generate sha ht hrecord
  | write ht hr hrun => exact h.write sha ht hr hrun
  | destroy hrun => exact h.destroy sha hrun

theorem reached_isolated {s : Callers L T} (h : Reached sha s) : Isolated sha s := by
  induction h with
  | init => exact isolated_init sha
  | step _ hstep ih => exact ih.step sha hstep

/-- What every caller can rely on. -/
structure Serialised (s : Callers L T) : Prop where
  linked : ∀ l, LinkedLog sha (s.world.logs l).log
  num : ∀ l, (s.world.logs l).header.numRecords.toInt = (s.world.logs l).log.length
  verified : ∀ l, (s.world.logs l).log ≠ [] →
    ((s.world.logs l).view true).logVerification sha = .ok true
  /-- the transactions wrote one after the other -/
  serial : ∀ l, (s.world.logs l).log = written (s.blocks l)
  /-- whatever others have done since it was generated -/
  current : ∀ t r, s.pending t = some r → ∃ l, s.world.transactions t = some ⟨l,true⟩ ∧
    ((s.world.logs l).log ≠ [] →
      ((s.world.logs l).view true).headVerification sha r = .ok true) ∧
    ((s.world.logs l).header.numRecords ≠ Int32.maxValue →
      ∃ w, s.world.writeRecord sha t r = .ok w)

/-- In every interleaving of any number of callers, a record that was generated can still be
written when its turn comes, and the log is as if one transaction had run after the other. -/
theorem callers_serialised {s : Callers L T} (h : Reached sha s) : Serialised sha s := by
  have hiso := reached_isolated sha h
  refine ⟨fun l => (hiso.logs l).linked,fun l => (hiso.logs l).num,fun l hne => ?_,
    fun l => (hiso.logs l).serial,fun t r hr => ?_⟩
  · have hhash := (hiso.logs l).hash hne
    rw [logVerification_eq sha rfl]
    simp [ActivityLog.view, hhash]
  · obtain ⟨l,hl,hlink⟩ := hiso.pending t r hr
    refine ⟨l,hl,fun hne => ?_,fun hnum => ?_⟩
    · have hlast := List.getLast?_eq_some_getLast hne
      exact headVerification_of sha rfl hlast (hlink _ hlast)
    · obtain ⟨view,hview⟩ := @writeRecord_of_ne sha ((s.world.logs l).view true) rfl hnum r
      refine ⟨s.world.setLog l ((s.world.logs l).write view),?_⟩
      simp only [World.writeRecord, hl, hview, ok_bind, pure_eq_ok]

end Callers

/-- Two callers on one log: the second has to wait until the first lets go, and generates its
record after that of the first. -/
theorem callers_serialised_two : ∃ s : Callers Unit Bool,
    (s.world.logs ()).log.length = 1 ∧ (s.pending true).isSome ∧ Callers.Serialised lengthHash s := by
  refine ⟨_,?_,?_,Callers.callers_serialised lengthHash
    (.step (.step (.step (.step (.step (.step .init
      (.begin (t := false) (l := ()) rfl rfl))
      (.generate (t := false) (g := .content (emptyRecord 0).header .empty) rfl rfl))
      (.write (t := false) rfl rfl rfl)) (.destroy (t := false) rfl))
      (.begin (t := true) (l := ()) rfl rfl))
      (.generate (t := true) (g := .header (emptyRecord 1).header) rfl rfl))⟩
  · rfl
  · rfl

end GsnNode
