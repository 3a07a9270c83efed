import GsnNode.MetaspaceGsn

/-! How `metaspace_gsn` tells postcodes from counties. -/

set_option autoImplicit false

namespace GsnNode
open DecimalText MetaspaceGsn

def comma : UInt8 := 44

def isAsciiLetter (c : UInt8) : Bool :=
  (65 ≤ c.toNat && c.toNat ≤ 90) || (97 ≤ c.toNat && c.toNat ≤ 122)

/-- Two characters of a class, and two digits behind them. -/
def StartsCode (letter : UInt8 → Bool) (query : Text) : Prop :=
  ∃ a b c d rest, query = a :: b :: c :: d :: rest ∧
    (letter a = true ∧ letter b = true) ∧ isDigit c = true ∧ isDigit d = true

def IsPostcode (query : Text) : Prop := StartsCode isAsciiLetter query

/-- Two letters or commas, and a comma is among them. -/
def IsCommaCode (query : Text) : Prop := StartsCode isOutcodeLetter query ∧ comma ∈ query.take 2

def outcodeKey (query : Text) : Text := (query.take 4).map toLower

/-- A postcode is looked up by its key, so that only the key matters, and another query
is looked up as a county. -/
structure LookedUpRight (query : Text) : Prop where
  postcode : IsPostcode query → hasOutcode query = some (outcodeKey query) ∧
    ∀ db, resolveGsn db query = fromOutcode db (outcodeKey query)
  same : IsPostcode query → ∀ query', IsPostcode query' → outcodeKey query' = outcodeKey query →
    ∀ db, resolveGsn db query' = resolveGsn db query
  county : ¬ IsPostcode query → hasOutcode query = none ∧
    ∀ db, resolveGsn db query = fromCounty db query

theorem isOutcodeLetter_iff (c : UInt8) :
    isOutcodeLetter c = true ↔ isAsciiLetter c = true ∨ c = comma := by
  simp only [isOutcodeLetter, isAsciiLetter, comma, Bool.or_eq_true, beq_iff_eq]
  tauto

theorem isPostcode_iff (query : Text) :
    IsPostcode query ↔ StartsCode isOutcodeLetter query ∧ comma ∉ query.take 2 := by
  constructor
  · intro h
    obtain ⟨a,b,c,d,rest,rfl,⟨ha,hb⟩,hc,hd⟩ := h
    have hne {l : UInt8} (hl : isAsciiLetter l = true) : comma ≠ l :=
      ne_of_apply_ne isAsciiLetter (by rw [hl]; decide)
    exact ⟨⟨a,b,c,d,rest,rfl,⟨(isOutcodeLetter_iff a).mpr (Or.inl ha),
      (isOutcodeLetter_iff b).mpr (Or.inl hb)⟩,hc,hd⟩,by simp [hne ha, hne hb]⟩
  · intro h
    obtain ⟨⟨a,b,c,d,rest,rfl,⟨ha,hb⟩,hc,hd⟩,hcomma⟩ := h
    simp only [List.take_succ_cons, List.take_zero, List.mem_cons, List.not_mem_nil, or_false,
      not_or] at hcomma
    exact ⟨a,b,c,d,rest,rfl,⟨((isOutcodeLetter_iff a).mp ha).resolve_right (Ne.symm hcomma.1),
      ((isOutcodeLetter_iff b).mp hb).resolve_right (Ne.symm hcomma.2)⟩,hc,hd⟩

/-- The expression looks at the first four characters only, and none of them is a NUL. -/
theorem hasOutcode_some {query : Text} (h : StartsCode isOutcodeLetter query) :
    hasOutcode query = some (outcodeKey query) := by
  obtain ⟨a,b,c,d,rest,rfl,⟨ha,hb⟩,hc,hd⟩ := h
  have hletter {l : UInt8} (hl : isOutcodeLetter l = true) : l ≠ nul :=
    ne_of_apply_ne isOutcodeLetter (by rw [hl]; decide)
  have hdigit {l : UInt8} (hl : isDigit l = true) : l ≠ nul :=
    ne_of_apply_ne isDigit (by rw [hl]; decide)
  have hcut : cStr (a :: b :: c :: d :: rest) = a :: b :: c :: d :: cStr rest := by
    simp [cStr, hletter ha, hletter hb, hdigit hc, hdigit hd]
  simp only [hasOutcode, hcut]
  exact if_pos ⟨ha,hb,hc,hd⟩

theorem hasOutcode_none {query : Text} (hnul : nul ∉ query)
    (h : ¬ StartsCode isOutcodeLetter query) : hasOutcode query = none := by
  unfold hasOutcode
  rw [cStr_eq_self hnul]
  split
  case h_1 a b c d rest =>
    have hnot : ¬ (isOutcodeLetter a = true ∧ isOutcodeLetter b = true ∧
        isOutcodeDigit c = true ∧ isOutcodeDigit d = true) := by
      intro hcode
      obtain ⟨ha,hb,hc,hd⟩ := hcode
      exact h ⟨a,b,c,d,rest,rfl,⟨ha,hb⟩,hc,hd⟩
    exact if_neg hnot
  case h_2 => rfl

theorem resolveGsn_some {query key : Text} (hne : query ≠ []) (h : hasOutcode query = some key)
    (db : MetaspaceDb) : resolveGsn db query = fromOutcode db key := by
  simp only [resolveGsn, if_neg hne, h]

theorem resolveGsn_none {query : Text} (hne : query ≠ []) (h : hasOutcode query = none)
    (db : MetaspaceDb) : resolveGsn db query = fromCounty db query := by
  simp only [resolveGsn, if_neg hne, h]

theorem StartsCode.ne_nil {letter : UInt8 → Bool} {query : Text} (h : StartsCode letter query) :
    query ≠ [] := by
  obtain ⟨a,b,c,d,rest,rfl,-⟩ := h
  exact List.cons_ne_nil _ _

theorem lookup_postcode {query : Text} (h : IsPostcode query) (db : MetaspaceDb) :
    resolveGsn db query = fromOutcode db (outcodeKey query) :=
  resolveGsn_some h.ne_nil (hasOutcode_some ((isPostcode_iff query).mp h).1) db

/-- The lookup is right for every query but those that have a comma where the letters
of a postcode stand. -/
theorem lookedUpRight_iff {query : Text} (hne : query ≠ []) (hnul : nul ∉ query) :
    LookedUpRight query ↔ ¬ IsCommaCode query := by
  constructor
  · intro h hcomma
    have hnot : ¬ IsPostcode query := fun hcode => ((isPostcode_iff query).mp hcode).2 hcomma.2
    have hkey := hasOutcode_some hcomma.1
    rw [(h.county hnot).1] at hkey
    contradiction
  · intro hcomma
    constructor
    · intro hcode
      exact ⟨hasOutcode_some ((isPostcode_iff query).mp hcode).1,lookup_postcode hcode⟩
    · intro hcode query' hcode' hkey db
      rw [lookup_postcode hcode db, lookup_postcode hcode' db, hkey]
    · intro hnot
      have hstart : ¬ StartsCode isOutcodeLetter query := fun hstart =>
        hnot ((isPostcode_iff query).mpr ⟨hstart,fun hmem => hcomma ⟨hstart,hmem⟩⟩)
      have hnone := hasOutcode_none hnul hstart
      exact ⟨hnone,resolveGsn_none hne hnone⟩

/-- A county, a postcode and a query with a comma in the place of a letter. -/
theorem lookedUpRight_iff_comma :
    LookedUpRight (ascii "Kent") ∧ LookedUpRight (ascii "SA15 1AA") ∧
      ¬ LookedUpRight (ascii "a,12") := by
  refine ⟨?_,?_,fun h => ?_⟩
  · exact (lookedUpRight_iff (by decide) (by decide)).mpr fun hcode => absurd hcode.2 (by decide)
  · exact (lookedUpRight_iff (by decide) (by decide)).mpr fun hcode => absurd hcode.2 (by decide)
  · have hstart : StartsCode isOutcodeLetter (ascii "a,12") :=
      ⟨97,44,49,50,[],by decide,by decide,by decide,by decide⟩
    exact (lookedUpRight_iff (by decide) (by decide)).mp h ⟨hstart,by decide⟩

/-- `a,12` is looked up as a postcode. -/
theorem comma_taken_for_letter :
    ascii "a,12" ≠ [] ∧ nul ∉ ascii "a,12" ∧ ¬ LookedUpRight (ascii "a,12") := by
  refine ⟨by decide,by decide,fun h => ?_⟩
  have hnot : ¬ IsPostcode (ascii "a,12") := fun hcode =>
    ((isPostcode_iff _).mp hcode).2 (by decide)
  exact absurd (h.county hnot).1 (by decide)

end GsnNode
