import GsnNode.CallResult
import GsnNode.DelimitedText

/-! `netspace_url`: the character machine of `decode` and the text that
`to_string` builds. -/

set_option autoImplicit false

namespace GsnNode
open FuelLoop DelimitedText

def springPrefix : Text := ascii "spring://"

inductive Cmpt where
  | gsn | glq | res | spq
  deriving DecidableEq, Repr

structure NetspaceUrl where
  url : Text
  gsn : List Text
  glq : Text
  res : Text
  spq : Text
  deriving DecidableEq, Repr

namespace NetspaceUrl

/-- The members written by `decode` together with its locals `t` and `state`. -/
structure DecodeState where
  gsn : List Text
  glq : Text
  res : Text
  spq : Text
  t : Text
  state : Cmpt
  deriving DecidableEq, Repr

def DecodeState.init : DecodeState := ⟨[],[],[],[],[],.gsn⟩

/-- One turn of the `switch`. -/
def DecodeState.feed (s : DecodeState) (ch : UInt8) : DecodeState :=
  if ch = dot then { s with gsn := s.gsn ++ [s.t], t := [] }
  else if ch = colon then { s with gsn := s.gsn ++ [s.t], t := [], state := .glq }
  else if ch = slash then
    match s.state with
    | .gsn => { s with gsn := s.gsn ++ [s.t], t := [], state := .res }
    | .glq => { s with glq := s.t, t := [], state := .res }
    | .res | .spq => { s with t := [], state := .res }
  else if ch = question then
    match s.state with
    | .gsn => { s with gsn := s.gsn ++ [s.t], t := [], state := .spq }
    | .glq => { s with glq := s.t, t := [], state := .spq }
    | .res => { s with res := s.t, t := [], state := .spq }
    | .spq => { s with t := [], state := .spq }
  else if ch = nul then
    match s.state with
    | .gsn => { s with gsn := s.gsn ++ [s.t], t := [] }
    | .glq => { s with glq := s.t, t := [] }
    | .res => { s with res := s.t, t := [] }
    | .spq => { s with spq := s.t, t := [] }
  else { s with t := s.t ++ [ch] }

/-- The loop runs up to and including `url[len]`, which is NUL, with the
`unsigned int` counter that `auto i = 0u` declares. -/
def decodeLoop (url : Text) : Call DecodeState :=
  ofLoop (forUnsigned 32 (url.length + 1)
    (fun i s => .ok (s.feed (url.getD i nul))) DecodeState.init)

def decode (mUrl : Text) : Call NetspaceUrl :=
  if mUrl.length ≤ 9 ∨ mUrl.take 9 ≠ springPrefix then throws .netspaceMalformedUrl
  else do
    let s ← decodeLoop (mUrl.drop 9)
    if s.gsn = [] then throws .netspaceMalformedUrl
    else pure ⟨mUrl,s.gsn,s.glq,s.res,s.spq⟩

/-- `if(m.length()) ss << c << m` -/
def section_ (c : UInt8) (m : Text) : Text := if m = [] then [] else c :: m

/-- Everything but the last segment is followed by a dot; the counter is again
`unsigned int`. -/
def routeLoop (gsn : List Text) (ss : Text) : Call Text :=
  ofLoop (forUnsigned 32 (gsn.length - 1) (fun i ss => .ok (ss ++ gsn.getD i [] ++ [dot])) ss)

/-- The text and the object with its `m_url` overwritten by it. -/
def toString (u : NetspaceUrl) : Call (Text × NetspaceUrl) := do
  let ss ← if u.gsn = [] then pure springPrefix
    else do
      let ss ← routeLoop u.gsn springPrefix
      pure (ss ++ u.gsn.getLastD [])
  let ss := ss ++ section_ colon u.glq ++ section_ slash u.res ++ section_ question u.spq
  pure (ss,{ u with url := ss })

/-! ### The loops as folds -/

theorem decodeLoop_eq {url : Text} (h : url.length + 1 < 2 ^ 32) :
    decodeLoop url = .ok ((url ++ [nul]).foldl DecodeState.feed .init) := by
  rw [decodeLoop, forUnsigned_eq _ _ h]
  simp only [ofLoop]
  rw [foldlM_ok, foldl_range_getD_snoc]

theorem decodeLoop_hangs {url : Text} (h : 2 ^ 32 ≤ url.length + 1) :
    decodeLoop url = .error .hangs := by
  rw [decodeLoop, forUnsigned_hangs _ h]
  rfl

theorem routeLoop_eq {gsn : List Text} (ss : Text) (h : gsn.length - 1 < 2 ^ 32) :
    routeLoop gsn ss = .ok (ss ++ (gsn.dropLast.map (· ++ [dot])).flatten) := by
  have hmap := map_range_getD gsn [] (gsn.length - 1) (by omega)
  rw [routeLoop, forUnsigned_eq _ _ h]
  simp only [ofLoop, foldlM_ok, List.append_assoc]
  rw [foldl_append_flatten (fun i => gsn.getD i [] ++ [dot]), List.dropLast_eq_take, ← hmap,
    List.map_map]
  rfl

theorem routeLoop_hangs {gsn : List Text} (ss : Text) (h : 2 ^ 32 ≤ gsn.length - 1) :
    routeLoop gsn ss = .error .hangs := by
  rw [routeLoop, forUnsigned_hangs _ h]
  rfl

/-! ### What is written -/

/-- What `to_string` writes after the scheme. -/
def body (u : NetspaceUrl) : Text :=
  [dot].intercalate u.gsn ++ section_ colon u.glq ++ section_ slash u.res ++
    section_ question u.spq

theorem toString_eq {u : NetspaceUrl} (h : u.gsn.length - 1 < 2 ^ 32) :
    u.toString = .ok (springPrefix ++ u.body,{ u with url := springPrefix ++ u.body }) := by
  by_cases hne : u.gsn = []
  · simp [toString, hne, body, List.append_assoc]
  · have hjoin := flatten_dropLast_append_getLast [dot] u.gsn hne
    simp [toString, hne, body, routeLoop_eq _ h, ← hjoin, List.append_assoc]

theorem toString_hangs {u : NetspaceUrl} (h : 2 ^ 32 ≤ u.gsn.length - 1) :
    u.toString = .error .hangs := by
  have hne : u.gsn ≠ [] := by
    intro hnil
    simp [hnil] at h
  simp [toString, hne, routeLoop_hangs _ h]

theorem toString_ok {u v : NetspaceUrl} {text : Text} (h : u.toString = .ok (text,v)) :
    text = springPrefix ++ u.body := by
  by_cases hlen : u.gsn.length - 1 < 2 ^ 32
  · rw [toString_eq hlen] at h
    simp only [Except.ok.injEq, Prod.mk.injEq] at h
    exact h.1.symm
  · rw [toString_hangs (by omega)] at h
    contradiction

theorem length_section_le (c : UInt8) (m : Text) : (section_ c m).length ≤ m.length + 1 := by
  unfold section_
  split <;> simp

/-! ### The character machine -/

def isDelim (c : UInt8) : Bool :=
  c == dot || c == colon || c == slash || c == question || c == nul

def PlainText (w : Text) : Prop := ∀ c ∈ w, isDelim c = false

instance (w : Text) : Decidable (PlainText w) :=
  inferInstanceAs (Decidable (∀ c ∈ w, isDelim c = false))

theorem feed_plain (s : DecodeState) {c : UInt8} (h : isDelim c = false) :
    s.feed c = { s with t := s.t ++ [c] } := by
  simp only [isDelim, Bool.or_eq_false_iff, beq_eq_false_iff_ne] at h
  obtain ⟨⟨⟨⟨h₁,h₂⟩,h₃⟩,h₄⟩,h₅⟩ := h
  simp [DecodeState.feed, h₁, h₂, h₃, h₄, h₅]

theorem foldl_feed_plain (s : DecodeState) {w : Text} (h : PlainText w) :
    w.foldl DecodeState.feed s = { s with t := s.t ++ w } := by
  induction w generalizing s with
  | nil => simp
  | cons c w ih =>
    have hc := h c (by simp)
    rw [List.foldl_cons, feed_plain s hc, ih _ (fun d hd => h d (by simp [hd]))]
    simp [List.append_assoc]

def isRouteChar (c : UInt8) : Bool := c == dot || !isDelim c

theorem foldl_feed_route (s : DecodeState) {w : Text} (h : ∀ c ∈ w, isRouteChar c = true) :
    ∃ gsn t, w.foldl DecodeState.feed s = { s with gsn := gsn, t := t } ∧
      gsn ++ [t] = s.gsn ++ (w.splitOn dot).modifyHead (s.t ++ ·) := by
  induction w generalizing s with
  | nil => exact ⟨s.gsn,s.t,rfl,by simp [List.splitOn_nil]⟩
  | cons c w ih =>
    have hw : ∀ d ∈ w, isRouteChar d = true := fun d hd => h d (by simp [hd])
    by_cases hc : c = dot
    · subst c
      obtain ⟨gsn,t,hfold,hsplit⟩ := ih (s.feed dot) hw
      refine ⟨gsn,t,?_,?_⟩
      · rw [List.foldl_cons, hfold]
        simp [DecodeState.feed]
      · rw [hsplit, List.splitOn_cons_eq_if_modifyHead]
        cases hw : w.splitOn dot with
        | nil => exact absurd hw (List.splitOn_ne_nil _ _)
        | cons p ps => simp [DecodeState.feed]
    · have hplain : isDelim c = false := by
        have := h c (by simp)
        simpa [isRouteChar, hc] using this
      obtain ⟨gsn,t,hfold,hsplit⟩ := ih (s.feed c) hw
      rw [feed_plain s hplain] at hfold hsplit
      refine ⟨gsn,t,?_,?_⟩
      · rw [List.foldl_cons, feed_plain s hplain, hfold]
      · rw [hsplit, List.splitOn_cons_eq_if_modifyHead]
        cases hw : w.splitOn dot with
        | nil => exact absurd hw (List.splitOn_ne_nil _ _)
        | cons p ps => simp [hc]

theorem foldl_feed_sections (gsn : List Text) (t : Text) {g r q : Text}
    (hg : PlainText g) (hr : PlainText r) (hq : PlainText q) :
    ∃ state, (section_ colon g ++ section_ slash r ++ section_ question q ++ [nul]).foldl
      DecodeState.feed ⟨gsn,[],[],[],t,.gsn⟩ = ⟨gsn ++ [t],g,r,q,[],state⟩ := by
  by_cases hg0 : g = [] <;> by_cases hr0 : r = [] <;> by_cases hq0 : q = [] <;>
    simp [section_, hg0, hr0, hq0, List.foldl_append, foldl_feed_plain _ hg,
      foldl_feed_plain _ hr, foldl_feed_plain _ hq, DecodeState.feed, dot, colon, slash,
      question, nul]

end NetspaceUrl
end GsnNode
