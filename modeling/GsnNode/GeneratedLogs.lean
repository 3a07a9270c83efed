import GsnNode.ActivityForms
import GsnNode.ChainTip
import GsnNode.LogFormat

/-! Logs whose records were all generated by a transaction on them, and how records are
found again by their hashes. -/

set_option autoImplicit false

namespace GsnNode
open ByteWords HashCommitment KeyedList LogTransaction

/-- The arguments of one call of `generate_record`. -/
inductive Generation where
  | header (hdr : ActivityHeader)
  | content (hdr : ActivityHeader) (msg : MsgContent)

/-- A header without a content has the size that `generate_header` puts in. -/
def Generation.Sized : Generation → Prop
  | .header hdr => hdr.msgSize = 0
  | .content _ _ => True

/-- The constructor that `generate_record` calls, with the hash of the last record. -/
def Generation.construction : Generation → Option Hash512 → Construction
  | .header hdr, none => .header hdr
  | .header hdr, some salt => .saltedHeader hdr salt
  | .content hdr msg, none => .content hdr msg
  | .content hdr msg, some salt => .salted hdr msg salt

namespace LogTransaction

def readRecord (t : LogTransaction) (hash : Hash512) : Call Activity := do
  t.isValid
  match t.records.find? (fun act => act.header.hash = hash) with
  | some act => pure act
  | none => throws .transactionReadFail

/-- The padding is what was in memory. -/
def generateHeader (t : LogTransaction) (padding : Block 4) : Call ActivityHeader := do
  t.isValid
  pure (ActivityHeader.init padding)

section Generating
variable (sha : List UInt8 → Hash512)

/-- A record is generated and written. -/
def generate (t : LogTransaction) : Generation → Call LogTransaction
  | .header hdr => do
    let r ← t.generateRecord sha hdr
    t.writeRecord sha r
  | .content hdr msg => do
    let r ← t.generateRecordWith sha hdr msg
    t.writeRecord sha r

end Generating

end LogTransaction

/-! ### Generated records -/

section Generated
variable (sha : List UInt8 → Hash512)

/-- Two records of the log may have one hash: SHA-512 has one digest for different bytes that
were hashed, or those of the first record begin with the hash of a record. -/
def HashRepeats (records : List Activity) : Prop := Repeats recordHash preimage sha records

theorem HashedLog.distinct {records : List Activity} (h : HashedLog sha records)
    (hrepeats : ¬ HashRepeats sha records) :
    Distinct (fun r : Activity => r.header.hash) records :=
  (nodup_or_repeats preimage_readable (h.committed sha)).resolve_right hrepeats

theorem HashRepeats.grow {records records' : List Activity} (h : HashRepeats sha records)
    (hgrown : records <+: records') : HashRepeats sha records' := by
  obtain ⟨rest,rfl⟩ := hgrown
  exact Repeats.append h rest

theorem HashedLog.nil : HashedLog sha [] := by
  refine ⟨?_,?_,?_⟩
  · simp
  · rw [linkedLog_iff]
    exact LinkedChain.Linked.nil
  · simp

theorem HashedLog.single {r : Activity} (hr : r.WellFormed)
    (hhash : (Activity.ofContent sha r.header r.content).header.hash = r.header.hash) :
    HashedLog sha [r] := by
  refine ⟨?_,?_,?_⟩
  · intro q hq
    obtain rfl : r = q := by simpa using hq
    exact hhash
  · rw [linkedLog_iff]
    exact List.IsChain.singleton r
  · intro q hq
    rwa [List.mem_singleton.mp hq]

theorem HashedLog.snoc {records : List Activity} {r last : Activity} (h : HashedLog sha records)
    (hlast : records.getLast? = some last) (hr : r.WellFormed)
    (hlinks : LinksTo sha last.header.hash r) : HashedLog sha (records ++ [r]) := by
  refine ⟨?_,?_,?_⟩
  · intro first hfirst
    cases records with
    | nil => cases hlast
    | cons q records => exact h.first first (by simpa using hfirst)
  · rw [linkedLog_iff]
    exact ((linkedLog_iff sha _).mp h.linked).snoc fun q hq => by
      obtain rfl := Option.some.inj (hlast.symm.trans hq)
      exact hlinks
  · intro q hq
    rcases List.mem_append.mp hq with hold | hnew
    · exact h.sizes q hold
    · rwa [List.mem_singleton.mp hnew]

theorem ofHeader_hash {hdr : ActivityHeader} (h : hdr.msgSize = 0) :
    (Activity.ofContent sha (Activity.ofHeader sha hdr).header
      (Activity.ofHeader sha hdr).content).header.hash = (Activity.ofHeader sha hdr).header.hash := by
  obtain ⟨hash,timestamp,type,padding,msgSize,signature⟩ := hdr
  subst h
  rfl

/-- The record is made from the hash of the last one, if there is one. -/
theorem generate_ok {t t' : LogTransaction} {g : Generation} (h : t.generate sha g = .ok t') :
    t.writeRecord sha ((g.construction (tip recordHash t.records)).make sha) = .ok t' := by
  cases g with
  | header hdr =>
    obtain ⟨r,hr,hwrite⟩ := bind_eq_ok.mp h
    have hvalid := isValid_of (writeRecord_ok sha hwrite).1
    cases hlast : t.records.getLast? with
    | none =>
      rw [List.getLast?_eq_none_iff] at hlast
      obtain rfl : Activity.ofHeader sha hdr = r := by
        simpa [generateRecord, hvalid, size, hlast] using hr
      rwa [hlast]
    | some last =>
      obtain rfl := Except.ok.inj ((generateRecord_eq sha hvalid hlast hdr).symm.trans hr)
      rwa [tip, hlast]
  | content hdr msg =>
    obtain ⟨r,hr,hwrite⟩ := bind_eq_ok.mp h
    have hvalid := isValid_of (writeRecord_ok sha hwrite).1
    cases hlast : t.records.getLast? with
    | none =>
      rw [List.getLast?_eq_none_iff] at hlast
      obtain rfl : Activity.ofContent sha hdr msg = r := by
        simpa [generateRecordWith, hvalid, size, hlast] using hr
      rwa [hlast]
    | some last =>
      obtain rfl := Except.ok.inj ((generateRecordWith_eq sha hvalid hlast hdr msg).symm.trans hr)
      rwa [tip, hlast]

theorem Generation.construction_wellFormed {g : Generation} (hsized : g.Sized)
    (before : Option Hash512) : ((g.construction before).make sha).WellFormed := by
  rw [Construction.make_wellFormed]
  intro hdr heq
  cases g <;> cases before <;> cases heq
  exact hsized

theorem Generation.construction_links (g : Generation) (salt : Hash512) :
    LinksTo sha salt ((g.construction (some salt)).make sha) := by
  cases g with
  | header hdr => exact salted_linksTo sha hdr .empty salt
  | content hdr msg => exact salted_linksTo sha hdr msg salt

theorem Generation.construction_first {g : Generation} (hsized : g.Sized) {r : Activity}
    (hr : (g.construction none).make sha = r) :
    (Activity.ofContent sha r.header r.content).header.hash = r.header.hash := by
  subst hr
  cases g with
  | header hdr => exact ofHeader_hash sha hsized
  | content hdr msg => rfl

/-- One more record keeps the log as `generate_record` makes them. -/
theorem HashedLog.generate {t t' : LogTransaction} {g : Generation} (ht : HashedLog sha t.records)
    (hsized : g.Sized) (h : t.generate sha g = .ok t') : HashedLog sha t'.records := by
  have hwrite := generate_ok sha h
  have hwf := Generation.construction_wellFormed sha hsized (tip recordHash t.records)
  obtain ⟨-,-,hrecords,-,-⟩ := writeRecord_ok sha hwrite
  rw [hrecords]
  cases hlast : t.records.getLast? with
  | none =>
    rw [List.getLast?_eq_none_iff] at hlast
    rw [hlast] at hwf ⊢
    exact .single sha hwf (Generation.construction_first sha hsized rfl)
  | some last =>
    have htip : tip recordHash t.records = some last.header.hash := by rw [tip, hlast]; rfl
    rw [htip] at hwf ⊢
    exact ht.snoc sha hlast hwf (g.construction_links sha last.header.hash)

theorem HashedLog.run {gs : List Generation} {t t' : LogTransaction} (ht : HashedLog sha t.records)
    (hsized : ∀ g ∈ gs, g.Sized) (h : gs.foldlM (LogTransaction.generate sha) t = .ok t') :
    HashedLog sha t'.records := by
  induction gs generalizing t with
  | nil =>
    obtain rfl := Except.ok.inj h
    exact ht
  | cons g gs ih =>
    rw [List.foldlM_cons] at h
    obtain ⟨u,hu,h⟩ := bind_eq_ok.mp h
    exact ih (ht.generate sha (hsized g List.mem_cons_self) hu)
      (fun k hk => hsized k (List.mem_cons_of_mem g hk)) h

theorem generated_valid {gs : List Generation} {t t' : LogTransaction} (hv : t.valid = true)
    (h : gs.foldlM (LogTransaction.generate sha) t = .ok t') : t'.valid = true := by
  induction gs generalizing t with
  | nil =>
    obtain rfl := Except.ok.inj h
    exact hv
  | cons g gs ih =>
    rw [List.foldlM_cons] at h
    obtain ⟨u,hu,h⟩ := bind_eq_ok.mp h
    exact ih (writeRecord_ok sha (generate_ok sha hu)).2.1 h

/-! ### Reading by hash -/

theorem readRecord_split {t : LogTransaction} (hv : t.valid = true) {hash : Hash512}
    {before after : List Activity} {r : Activity} (hrecords : t.records = before ++ r :: after)
    (hbefore : ∀ q ∈ before, q.header.hash ≠ hash) (hr : r.header.hash = hash) :
    t.readRecord hash = .ok r := by
  have hfind : t.records.find? (fun act => act.header.hash = hash) = some r := by
    rw [hrecords, List.find?_append, List.find?_eq_none.mpr (by simpa using hbefore)]
    simp [hr]
  simp only [readRecord, isValid_of hv, ok_bind, hfind, pure_eq_ok]

theorem read_absent {t : LogTransaction} (hv : t.valid = true) {hash : Hash512}
    (h : ∀ r ∈ t.records, r.header.hash ≠ hash) :
    t.readRecord hash = throws .transactionReadFail ∧
      t.segmentFrom hash = throws .transactionReadFail := by
  have hfind : t.records.find? (fun act => act.header.hash = hash) = none :=
    List.find?_eq_none.mpr (by simpa using h)
  constructor
  · simp only [readRecord, isValid_of hv, ok_bind, hfind]
  · simp only [segmentFrom, isValid_of hv, ok_bind, cut_before h]
    rfl

/-- In a log that was built by generating records on it each record is found by its hash, and
what comes after it is cut out, unless a hash repeats. -/
theorem generated_records_found {gs : List Generation} {t : LogTransaction}
    (hsized : ∀ g ∈ gs, g.Sized) (h : gs.foldlM (LogTransaction.generate sha) emptyLog = .ok t) :
    (HashRepeats sha t.records ∨ ∀ before r after, t.records = before ++ r :: after →
      t.readRecord r.header.hash = .ok r ∧
        t.segmentFrom r.header.hash = .ok (LogSegment.ofRecords t.header.hash after)) ∧
    ∀ hash, (∀ r ∈ t.records, r.header.hash ≠ hash) →
      t.readRecord hash = throws .transactionReadFail ∧
        t.segmentFrom hash = throws .transactionReadFail := by
  have hvalid := generated_valid sha rfl h
  refine ⟨?_,fun hash habsent => read_absent hvalid habsent⟩
  by_cases hrepeats : HashRepeats sha t.records
  · exact .inl hrepeats
  · right
    intro before r after hsplit
    have hdistinct := ((HashedLog.nil sha).run sha hsized h).distinct sha hrepeats
    rw [hsplit] at hdistinct
    have hbefore : ∀ q ∈ before, q.header.hash ≠ r.header.hash := fun q hq =>
      hdistinct.others_ne q (List.mem_append_left after hq)
    exact ⟨readRecord_split hvalid hsplit hbefore rfl,segmentFrom_split hvalid hsplit hbefore rfl⟩

end Generated

/-- A record from a header only, and one with a content. -/
def twoGenerations : List Generation :=
  [.header (.init default),.content (.init default) .empty]

theorem twoGenerations_sized : ∀ g ∈ twoGenerations, g.Sized := by
  intro g hg
  rcases List.mem_cons.mp hg with rfl | hg
  · rfl
  · rw [List.mem_singleton.mp hg]
    trivial

theorem generated_records_found_two :
    ∃ t, twoGenerations.foldlM (LogTransaction.generate lengthHash) emptyLog = .ok t ∧
      (HashRepeats lengthHash t.records ∨ ∀ before r after, t.records = before ++ r :: after →
        t.readRecord r.header.hash = .ok r ∧
          t.segmentFrom r.header.hash = .ok (LogSegment.ofRecords t.header.hash after)) ∧
      ∀ hash, (∀ r ∈ t.records, r.header.hash ≠ hash) →
        t.readRecord hash = throws .transactionReadFail ∧
          t.segmentFrom hash = throws .transactionReadFail := by
  obtain ⟨t,ht⟩ : ∃ t, twoGenerations.foldlM (LogTransaction.generate lengthHash) emptyLog =
      .ok t := ⟨_,rfl⟩
  exact ⟨t,ht,generated_records_found lengthHash twoGenerations_sized ht⟩

end GsnNode
