import GsnNode.KeyedList
import GsnNode.UrlDecoding

/-! The two directions of the URL codec: a written URL is read back, and a text
that is read keeps its sections apart, each exactly as far as the code goes. -/

set_option autoImplicit false

namespace GsnNode.NetspaceUrl
open FuelLoop DelimitedText KeyedList

/-! ### Written and read again -/

/-- `decode` returns the members that were written, and writing them again gives
the same text. -/
def ReadsBack (u : NetspaceUrl) (text : Text) : Prop :=
  ∃ v, decode text = .ok v ∧ v.gsn = u.gsn ∧ v.glq = u.glq ∧ v.res = u.res ∧ v.spq = u.spq ∧
    ∃ w, v.toString = .ok (text,w)

theorem gsn_length_le_body {u : NetspaceUrl} (hne : u.gsn ≠ []) :
    u.gsn.length ≤ u.body.length + 1 := by
  have hsum := length_le_sum_succ u.gsn
  have hbody := body_length hne
  omega

theorem readsBack_short {u v : NetspaceUrl} (hne : u.gsn ≠ []) (hp : u.Plain) {text : Text}
    (htext : u.toString = .ok (text,v)) (hlen : 9 < text.length)
    (hshort : text.length < 2 ^ 32 + 8) : ReadsBack u text := by
  have hbody := toString_ok htext
  have hlength : text.length = 9 + u.body.length := by
    rw [hbody, List.length_append, springPrefix_length]
  have hbodyNe : u.body ≠ [] := by
    intro hnil
    simp [hlength, hnil] at hlen
  have hdecode := decode_written hne hp hbodyNe (by omega)
  rw [← hbody] at hdecode
  have hgsn := gsn_length_le_body hne
  have hagain : ({ u with url := text } : NetspaceUrl).toString =
      .ok (text,{ u with url := text }) := by
    rw [toString_eq (by simp only; omega), hbody]
    rfl
  exact ⟨_,hdecode,rfl,rfl,rfl,rfl,_,hagain⟩

theorem not_readsBack_long {u v : NetspaceUrl} {text : Text} (htext : u.toString = .ok (text,v))
    (hlong : 2 ^ 32 + 8 ≤ text.length) : ¬ ReadsBack u text := by
  rintro ⟨w,hw,-⟩
  have hbody := toString_ok htext
  have hlength : text.length = 9 + u.body.length := by
    rw [hbody, List.length_append, springPrefix_length]
  rw [hbody, decode_hangs (by omega)] at hw
  contradiction

theorem readsBack_iff {u v : NetspaceUrl} (hne : u.gsn ≠ []) (hp : u.Plain) {text : Text}
    (htext : u.toString = .ok (text,v)) (hlen : 9 < text.length) :
    ReadsBack u text ↔ text.length < 2 ^ 32 + 8 := by
  constructor
  · intro hreads
    by_contra hlong
    exact not_readsBack_long htext (by omega) hreads
  · exact readsBack_short hne hp htext hlen

theorem toString_replicate (n : Nat) {u : NetspaceUrl} (hu : u = ⟨[],[List.replicate n 97],[],[],[]⟩) :
    u.gsn ≠ [] ∧ u.Plain ∧ ∃ text v, u.toString = .ok (text,v) ∧ text.length = 9 + n := by
  have hplain : u.Plain := by
    subst u
    refine ⟨?_,plainText_nil,plainText_nil,plainText_nil⟩
    intro w hw c hc
    rw [List.mem_singleton.mp hw] at hc
    rw [List.eq_of_mem_replicate hc]
    decide
  have hbody : u.body.length = n := by simp [hu, body, section_]
  have hne : u.gsn ≠ [] := by simp [hu]
  have htext := toString_eq (u := u) (by simp [hu])
  exact ⟨hne,hplain,_,_,htext,by rw [List.length_append, springPrefix_length, hbody]⟩

/-- A short URL, and one segment of 2^32 letters. -/
theorem readsBack_iff_short_and_long :
    ReadsBack ⟨[],[ascii "a",[]],[],ascii "r",[]⟩ (ascii "spring://a./r") ∧
      ∃ text v, NetspaceUrl.toString ⟨[],[List.replicate (2 ^ 32) 97],[],[],[]⟩ = .ok (text,v) ∧
        ¬ ReadsBack ⟨[],[List.replicate (2 ^ 32) 97],[],[],[]⟩ text := by
  constructor
  · exact (readsBack_iff (v := ⟨ascii "spring://a./r",[ascii "a",[]],[],ascii "r",[]⟩) (by decide)
      ⟨by decide +kernel,by decide +kernel,by decide +kernel,by decide +kernel⟩ rfl
        (by decide)).mpr (by decide)
  · obtain ⟨hne,hplain,text,v,htext,hlen⟩ := toString_replicate (2 ^ 32) rfl
    refine ⟨text,v,htext,fun h => ?_⟩
    have hshort := (readsBack_iff hne hplain htext (by omega)).mp h
    omega

/-- One segment of 2^32 letters is written in full and never read to its end. -/
theorem readsBack_long_segment :
    ¬ ∀ (u v : NetspaceUrl) (text : Text), u.gsn ≠ [] → u.Plain → u.toString = .ok (text,v) →
      9 < text.length → ReadsBack u text := by
  intro hall
  obtain ⟨hne,hplain,text,v,htext,hlen⟩ := toString_replicate (2 ^ 32) rfl
  exact not_readsBack_long htext (by omega) (hall _ v text hne hplain htext (by omega))

/-! ### Sections of a text that is read -/

/-- The route is what stands before the first delimiter other than the dot, split
at the dots, and the query is all that follows the first question mark. -/
def SectionsApart (a t : Text) : Prop :=
  ∃ u, decode (springPrefix ++ (a ++ t)) = .ok u ∧ u.gsn = a.splitOn dot ∧
    (question ∈ t → u.spq = afterFirst (· == question) t)

theorem feed_outside {s : DecodeState} (hs : s.state ≠ .gsn) (c : UInt8) :
    (s.feed c).state ≠ .gsn ∧
      (s.feed c).gsn.length = s.gsn.length + [c].countP (fun d => d == dot || d == colon) ∧
      (c ≠ dot → c ≠ colon → (s.feed c).gsn = s.gsn) := by
  obtain ⟨gsn,glq,res,spq,t,state⟩ := s
  unfold DecodeState.feed
  cases state <;> simp_all only [ne_eq, not_true_eq_false, reduceCtorEq, not_false_eq_true] <;>
    split_ifs <;> simp_all [colon, dot, slash, question, nul]

theorem foldl_feed_outside {s : DecodeState} (hs : s.state ≠ .gsn) (w : Text) :
    (w.foldl DecodeState.feed s).state ≠ .gsn ∧
      (w.foldl DecodeState.feed s).gsn.length =
        s.gsn.length + w.countP (fun d => d == dot || d == colon) ∧
      (dot ∉ w → colon ∉ w → (w.foldl DecodeState.feed s).gsn = s.gsn) := by
  induction w generalizing s with
  | nil => simp [hs]
  | cons c w ih =>
    obtain ⟨hstate,hcount,hkeep⟩ := feed_outside hs c
    obtain ⟨hstate',hcount',hkeep'⟩ := ih hstate
    refine ⟨hstate',?_,?_⟩
    · rw [List.foldl_cons, hcount', hcount, List.countP_cons (l := w)]
      simp only [List.countP_cons, List.countP_nil]
      omega
    · intro hdot hcolon
      simp only [List.mem_cons, not_or] at hdot hcolon
      rw [List.foldl_cons, hkeep' hdot.2 hcolon.2, hkeep (Ne.symm hdot.1) (Ne.symm hcolon.1)]

theorem feed_spq (s : DecodeState) {c : UInt8} (hc : c ≠ nul) : (s.feed c).spq = s.spq := by
  unfold DecodeState.feed
  split_ifs <;> (try split) <;> rfl

theorem foldl_feed_spq (s : DecodeState) {w : Text} (hw : nul ∉ w) :
    (w.foldl DecodeState.feed s).spq = s.spq := by
  induction w generalizing s with
  | nil => rfl
  | cons c w ih =>
    simp only [List.mem_cons, not_or] at hw
    rw [List.foldl_cons, ih _ hw.2, feed_spq s (Ne.symm hw.1)]

theorem feed_delim_t (s : DecodeState) {c : UInt8} (hc : isDelim c = true) : (s.feed c).t = [] := by
  unfold DecodeState.feed
  split_ifs <;> (try split) <;> simp_all [isDelim]

theorem foldl_feed_t_length (s : DecodeState) (w : Text) :
    (w.foldl DecodeState.feed s).t.length ≤ s.t.length + w.length := by
  induction w generalizing s with
  | nil => simp
  | cons c w ih =>
    have hstep : (s.feed c).t.length ≤ s.t.length + 1 := by
      by_cases hc : isDelim c = true
      · simp [feed_delim_t s hc]
      · simp [feed_plain s (by simpa using hc)]
    have hrest := ih (s.feed c)
    simp only [List.foldl_cons, List.length_cons]
    omega

/-- After a question mark the query is kept whole exactly when it is plain: any
delimiter in it throws away what was read of it before. -/
theorem foldl_feed_query {s : DecodeState} (ht : s.t = []) (hspq : s.spq = [])
    (hstate : s.state = .spq) {q : Text} (hq : nul ∉ q) :
    ((q ++ [nul]).foldl DecodeState.feed s).spq = q ↔ PlainText q := by
  constructor
  · intro hkept
    by_contra hplain
    have hdelim : ∃ c ∈ q, isDelim c = true := by simpa [PlainText] using hplain
    obtain ⟨pre,d,post,rfl,-,hd⟩ := exists_first hdelim
    let mid := (pre ++ d :: post).foldl DecodeState.feed s
    have hmidSpq : mid.spq = [] := by rw [← hspq]; exact foldl_feed_spq s hq
    have hmidT : mid.t.length ≤ post.length := by
      have hcut := feed_delim_t (pre.foldl DecodeState.feed s) hd
      have hpost := foldl_feed_t_length ((pre.foldl DecodeState.feed s).feed d) post
      rw [hcut] at hpost
      simpa [mid] using hpost
    have hend : (mid.feed nul).spq.length ≤ post.length := by
      unfold DecodeState.feed
      split_ifs <;> (try split) <;> simp_all
    rw [List.foldl_append] at hkept
    have hlen : ((mid.feed nul).spq).length = (pre ++ d :: post).length :=
      congrArg List.length hkept
    simp only [List.length_append, List.length_cons] at hlen
    omega
  · intro hplain
    rw [List.foldl_append, foldl_feed_plain s hplain]
    simp [DecodeState.feed, hstate, ht, nul, dot, colon, slash, question]

theorem foldl_feed_split {a : Text} (ha : ∀ c ∈ a, c ≠ colon ∧ c ≠ slash ∧ c ≠ question ∧ c ≠ nul) :
    ∃ gsn t, a.foldl DecodeState.feed .init = ⟨gsn,[],[],[],t,.gsn⟩ ∧
      gsn ++ [t] = a.splitOn dot := by
  have hroute : ∀ c ∈ a, isRouteChar c = true := by
    intro c hc
    obtain ⟨h₁,h₂,h₃,h₄⟩ := ha c hc
    by_cases hd : c = dot <;> simp [isRouteChar, isDelim, hd, h₁, h₂, h₃, h₄]
  obtain ⟨gsn,t,hfold,hsplit⟩ := foldl_feed_route .init hroute
  refine ⟨gsn,t,hfold,?_⟩
  rw [hsplit]
  cases a.splitOn dot <;> simp [DecodeState.init]

theorem feed_leave (gsn : List Text) (t : Text) {c : UInt8}
    (hc : c = colon ∨ c = slash ∨ c = question) :
    ∃ state, state ≠ .gsn ∧ (c = question → state = .spq) ∧
      DecodeState.feed ⟨gsn,[],[],[],t,.gsn⟩ c = ⟨gsn ++ [t],[],[],[],[],state⟩ := by
  rcases hc with rfl | rfl | rfl <;>
    simp [DecodeState.feed, dot, colon, slash, question]

/-- What of `t` must be true for the code to keep the sections of `a ++ t` apart. -/
structure TailKept (a t : Text) : Prop where
  dot : GsnNode.dot ∉ t.drop 1
  colon : GsnNode.colon ∉ t.drop 1
  query : ∀ c ∈ afterFirst (· == question) t, c ≠ slash ∧ c ≠ question
  length : a.length + t.length + 1 < 2 ^ 32

theorem gsn_split_iff {a t : Text} (ha : ∀ c ∈ a, c ≠ colon ∧ c ≠ slash ∧ c ≠ question ∧ c ≠ nul)
    (ht : nul ∉ t) (hhead : ∀ c ∈ t.head?, c = colon ∨ c = slash ∨ c = question) :
    ((a ++ t ++ [nul]).foldl DecodeState.feed .init).gsn = a.splitOn dot ↔
      dot ∉ t.drop 1 ∧ colon ∉ t.drop 1 := by
  obtain ⟨gsn,seg,hfold,hsplit⟩ := foldl_feed_split ha
  rw [List.append_assoc, List.foldl_append, hfold]
  cases t with
  | nil => simp [DecodeState.feed, hsplit, nul, dot, colon, slash, question]
  | cons c t =>
    obtain ⟨state,hstate,-,hleave⟩ := feed_leave gsn seg (hhead c rfl)
    obtain ⟨-,hcount,hkeep⟩ := foldl_feed_outside
      (s := ⟨gsn ++ [seg],[],[],[],[],state⟩) hstate (t ++ [nul])
    rw [List.cons_append, List.foldl_cons, hleave, ← hsplit]
    constructor
    · intro hgsn
      rw [hgsn] at hcount
      have hnone : (t ++ [nul]).countP (fun d => d == dot || d == colon) = 0 :=
        Nat.left_eq_add.mp hcount
      rw [List.countP_eq_zero] at hnone
      exact ⟨fun hd => hnone dot (by simpa using Or.inl hd) (by decide),
        fun hd => hnone colon (by simpa using Or.inl hd) (by decide)⟩
    · rintro ⟨hdot,hcolon⟩
      apply hkeep
      · simpa [nul, dot] using hdot
      · simpa [nul, colon] using hcolon

theorem spq_kept_iff {a u q : Text} (hfree : nul ∉ a ++ u) (hq : nul ∉ q) :
    ((a ++ (u ++ question :: q) ++ [nul]).foldl DecodeState.feed .init).spq = q ↔ PlainText q := by
  let s := (a ++ u).foldl DecodeState.feed .init
  have hspq : s.spq = [] := foldl_feed_spq .init hfree
  have henter : (s.feed question).t = [] ∧ (s.feed question).spq = [] ∧
      (s.feed question).state = .spq := by
    refine ⟨feed_delim_t s (by decide),?_,?_⟩
    · rw [feed_spq s (by decide), hspq]
    · cases hs : s.state <;> simp [DecodeState.feed, hs, dot, colon, slash, question]
  have hfold : (a ++ (u ++ question :: q) ++ [nul]).foldl DecodeState.feed .init =
      (q ++ [nul]).foldl DecodeState.feed (s.feed question) := by
    simp [s, List.foldl_append]
  rw [hfold]
  exact foldl_feed_query henter.1 henter.2.1 henter.2.2 hq

theorem plainText_afterFirst {a t : Text} (ht : nul ∉ t) (hkept : TailKept a t) :
    PlainText (afterFirst (· == question) t) := by
  intro c hc
  have htail := mem_drop_one_of_mem_afterFirst hc
  have hdot : c ≠ dot := fun h => hkept.dot (h ▸ htail)
  have hcolon : c ≠ colon := fun h => hkept.colon (h ▸ htail)
  have hnul : c ≠ nul := fun h => ht (h ▸ List.mem_of_mem_drop htail)
  simp [isDelim, hdot, hcolon, hnul, hkept.query c hc]

theorem query_kept_iff {a t : Text} (ha : nul ∉ a) (ht : nul ∉ t) (hq : question ∈ t) :
    ((a ++ t ++ [nul]).foldl DecodeState.feed .init).spq = afterFirst (· == question) t ↔
      PlainText (afterFirst (· == question) t) := by
  obtain ⟨u,c,q,rfl,hu,hc⟩ := exists_first (p := (· == question)) ⟨question,hq,by simp⟩
  obtain rfl : c = question := by simpa using hc
  rw [afterFirst_append_cons u q hu hc]
  simp only [List.mem_append, List.mem_cons, not_or] at ht
  exact spq_kept_iff (by simp [ha, ht.1]) ht.2.2

theorem sectionsApart_short {a t : Text} (hne : a ≠ [])
    (ha : ∀ c ∈ a, c ≠ colon ∧ c ≠ slash ∧ c ≠ question ∧ c ≠ nul)
    (ht : nul ∉ t) (hhead : ∀ c ∈ t.head?, c = colon ∨ c = slash ∨ c = question)
    (hkept : TailKept a t) : SectionsApart a t := by
  have hurl : a ++ t ≠ [] := by simp [hne]
  have hlen : (a ++ t).length + 1 < 2 ^ 32 := by rw [List.length_append]; exact hkept.length
  have hgsn := (gsn_split_iff ha ht hhead).mpr ⟨hkept.dot,hkept.colon⟩
  have hdecode := decode_prefixed hurl
  rw [decodeLoop_eq hlen, ok_bind, if_neg (by rw [hgsn]; exact List.splitOn_ne_nil _ _)] at hdecode
  refine ⟨_,hdecode,hgsn,fun hq => ?_⟩
  exact (query_kept_iff (fun h => (ha nul h).2.2.2 rfl) ht hq).mpr (plainText_afterFirst ht hkept)

theorem tailKept_of_apart {a t : Text}
    (ha : ∀ c ∈ a, c ≠ colon ∧ c ≠ slash ∧ c ≠ question ∧ c ≠ nul)
    (ht : nul ∉ t) (hhead : ∀ c ∈ t.head?, c = colon ∨ c = slash ∨ c = question)
    (hapart : SectionsApart a t) : TailKept a t := by
  obtain ⟨v,hv,hroute,hquery⟩ := hapart
  obtain ⟨url,hurl,hlen,-,s,hs,rfl⟩ := decode_ok hv
  obtain rfl : a ++ t = url := List.append_cancel_left hurl
  subst s
  have hgsn := (gsn_split_iff ha ht hhead).mp hroute
  refine ⟨hgsn.1,hgsn.2,?_,by simpa [List.length_append] using hlen⟩
  intro c hc
  by_cases hq : question ∈ t
  · have hplain := (query_kept_iff (fun h => (ha nul h).2.2.2 rfl) ht hq).mp (hquery hq) c hc
    simp only [isDelim, Bool.or_eq_false_iff, beq_eq_false_iff_ne] at hplain
    exact ⟨hplain.1.1.2,hplain.1.2⟩
  · have hnone : ∀ x ∈ t, (x == question) = false := by
      intro x hx
      rw [beq_eq_false_iff_ne]
      rintro rfl
      exact hq hx
    rw [afterFirst_eq_nil hnone] at hc
    contradiction

theorem sectionsApart_iff {a t : Text} (hne : a ≠ [])
    (ha : ∀ c ∈ a, c ≠ colon ∧ c ≠ slash ∧ c ≠ question ∧ c ≠ nul)
    (ht : nul ∉ t) (hhead : ∀ c ∈ t.head?, c = colon ∨ c = slash ∨ c = question) :
    SectionsApart a t ↔ TailKept a t :=
  ⟨tailKept_of_apart ha ht hhead,sectionsApart_short hne ha ht hhead⟩

/-- A URL with all four sections, and one with a dot in its resource. -/
theorem sectionsApart_iff_dot :
    SectionsApart (ascii "a.b") (ascii ":g/r?q") ∧ ¬ SectionsApart (ascii "a") (ascii "/b.c") := by
  constructor
  · exact (sectionsApart_iff (by decide) (by decide +kernel) (by decide +kernel)
      (by decide +kernel)).mpr
        ⟨by decide +kernel,by decide +kernel,by decide +kernel,by decide +kernel⟩
  · intro h
    have hkept := (sectionsApart_iff (by decide) (by decide +kernel) (by decide +kernel)
      (by decide +kernel)).mp h
    exact absurd hkept.dot (by decide +kernel)

/-- A dot in the resource becomes a route segment. -/
theorem dotted_resource_not_apart :
    ¬ ∀ a t : Text, a ≠ [] → (∀ c ∈ a, c ≠ colon ∧ c ≠ slash ∧ c ≠ question ∧ c ≠ nul) → nul ∉ t →
      (∀ c ∈ t.head?, c = colon ∨ c = slash ∨ c = question) → SectionsApart a t := by
  intro hall
  obtain ⟨u,hu,hroute,-⟩ := hall (ascii "a") (ascii "/b.c") (by decide) (by decide +kernel)
    (by decide +kernel) (by decide +kernel)
  have hdecode : decode (springPrefix ++ (ascii "a" ++ ascii "/b.c")) =
      .ok ⟨ascii "spring://a/b.c",[ascii "a",ascii "b"],[],ascii "c",[]⟩ := by decide +kernel
  rw [hdecode] at hu
  cases hu
  exact absurd hroute (by decide +kernel)

end GsnNode.NetspaceUrl
