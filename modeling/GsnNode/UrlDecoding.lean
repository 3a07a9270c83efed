import GsnNode.NetspaceUrl

/-! What `decode` leaves in the members of a URL object: texts without any
delimiter, no longer together than what was read, and read back unchanged from
the text that `to_string` builds of them. -/

set_option autoImplicit false

namespace GsnNode.NetspaceUrl
open FuelLoop DelimitedText

structure Plain (u : NetspaceUrl) : Prop where
  route : ∀ w ∈ u.gsn, PlainText w
  glq : PlainText u.glq
  res : PlainText u.res
  spq : PlainText u.spq

/-! ### Accepted texts -/

theorem springPrefix_length : springPrefix.length = 9 := rfl

theorem decode_prefixed {url : Text} (h : url ≠ []) :
    decode (springPrefix ++ url) = (decodeLoop url >>= fun s =>
      if s.gsn = [] then throws .netspaceMalformedUrl
      else pure ⟨springPrefix ++ url,s.gsn,s.glq,s.res,s.spq⟩) := by
  have hlen : 0 < url.length := List.length_pos_iff.mpr h
  have htake : (springPrefix ++ url).take 9 = springPrefix := List.take_left' rfl
  have hdrop : (springPrefix ++ url).drop 9 = url := List.drop_left' rfl
  have hguard : ¬ ((springPrefix ++ url).length ≤ 9 ∨ (springPrefix ++ url).take 9 ≠ springPrefix) := by
    rw [htake, List.length_append, springPrefix_length]
    simp only [ne_eq, not_true_eq_false, or_false]
    omega
  rw [decode, if_neg hguard, hdrop]

theorem decode_ne_nil {mUrl : Text} {u : NetspaceUrl} (h : decode mUrl = .ok u) : mUrl ≠ [] := by
  intro hnil
  rw [hnil] at h
  contradiction

/-- Everything an accepted text tells: the loop ended, and the members are those
of its last state. -/
theorem decode_ok {mUrl : Text} {u : NetspaceUrl} (h : decode mUrl = .ok u) :
    ∃ url, mUrl = springPrefix ++ url ∧ url.length + 1 < 2 ^ 32 ∧ u.gsn ≠ [] ∧
      ∃ s, (url ++ [nul]).foldl DecodeState.feed .init = s ∧
        u = ⟨mUrl,s.gsn,s.glq,s.res,s.spq⟩ := by
  unfold decode at h
  split at h
  · contradiction
  · rename_i hguard
    push Not at hguard
    have hsplit : mUrl = springPrefix ++ mUrl.drop 9 := by
      rw [← hguard.2, List.take_append_drop]
    by_cases hlen : (mUrl.drop 9).length + 1 < 2 ^ 32
    · rw [decodeLoop_eq hlen] at h
      simp only [ok_bind] at h
      split at h
      · contradiction
      · rename_i hgsn
        simp only [pure_eq_ok, Except.ok.injEq] at h
        subst u
        exact ⟨mUrl.drop 9,hsplit,hlen,hgsn,_,rfl,rfl⟩
    · rw [decodeLoop_hangs (by omega)] at h
      contradiction

theorem decode_hangs {url : Text} (h : 2 ^ 32 ≤ url.length + 1) :
    decode (springPrefix ++ url) = .error .hangs := by
  have hne : url ≠ [] := by
    intro hnil
    simp [hnil] at h
  rw [decode_prefixed hne, decodeLoop_hangs h]
  rfl

/-! ### Invariants of the character machine -/

structure DecodeState.Plain (s : DecodeState) : Prop where
  route : ∀ w ∈ s.gsn, PlainText w
  glq : PlainText s.glq
  res : PlainText s.res
  spq : PlainText s.spq
  t : PlainText s.t

theorem plainText_nil : PlainText [] := by simp [PlainText]

theorem DecodeState.Plain.push {s : DecodeState} (h : s.Plain) :
    ∀ w ∈ s.gsn ++ [s.t], PlainText w := by
  intro w hw
  rcases List.mem_append.mp hw with hw | hw
  · exact h.route w hw
  · rw [List.mem_singleton.mp hw]
    exact h.t

theorem DecodeState.Plain.feed {s : DecodeState} (h : s.Plain) (c : UInt8) : (s.feed c).Plain := by
  by_cases hc : isDelim c = true
  · have hpush := h.push
    unfold DecodeState.feed
    split_ifs <;> (try split) <;>
      first
        | exact ⟨hpush,h.glq,h.res,h.spq,plainText_nil⟩
        | exact ⟨h.route,h.t,h.res,h.spq,plainText_nil⟩
        | exact ⟨h.route,h.glq,h.t,h.spq,plainText_nil⟩
        | exact ⟨h.route,h.glq,h.res,h.t,plainText_nil⟩
        | exact ⟨h.route,h.glq,h.res,h.spq,plainText_nil⟩
        | simp_all [isDelim]
  · rw [feed_plain s (by simpa using hc)]
    refine ⟨h.route,h.glq,h.res,h.spq,?_⟩
    intro d hd
    rcases List.mem_append.mp hd with hd | hd
    · exact h.t d hd
    · rw [List.mem_singleton.mp hd]
      simpa using hc

theorem DecodeState.Plain.foldl {s : DecodeState} (h : s.Plain) (w : Text) :
    (w.foldl DecodeState.feed s).Plain := by
  induction w generalizing s with
  | nil => exact h
  | cons c w ih => exact ih (h.feed c)

theorem decode_plain {mUrl : Text} {u : NetspaceUrl} (h : decode mUrl = .ok u) : u.Plain := by
  obtain ⟨url,-,-,-,s,hs,rfl⟩ := decode_ok h
  have hinit : DecodeState.init.Plain :=
    ⟨by simp [DecodeState.init],plainText_nil,plainText_nil,plainText_nil,plainText_nil⟩
  have hp := hinit.foldl (url ++ [nul])
  rw [hs] at hp
  exact ⟨hp.route,hp.glq,hp.res,hp.spq⟩

def DecodeState.weight (s : DecodeState) : Nat :=
  (s.gsn.map (fun w => w.length + 1)).sum + (section_ colon s.glq).length +
    (section_ slash s.res).length + (section_ question s.spq).length + s.t.length

theorem DecodeState.weight_feed (s : DecodeState) (c : UInt8) :
    (s.feed c).weight ≤ s.weight + 1 := by
  have hglq := length_section_le colon s.t
  have hres := length_section_le slash s.t
  have hspq := length_section_le question s.t
  unfold DecodeState.feed
  split_ifs <;> (try split) <;> simp [weight] <;> omega

theorem DecodeState.weight_foldl (s : DecodeState) (w : Text) :
    (w.foldl DecodeState.feed s).weight ≤ s.weight + w.length := by
  induction w generalizing s with
  | nil => simp
  | cons c w ih =>
    have hstep := s.weight_feed c
    have hrest := ih (s.feed c)
    simp only [List.foldl_cons, List.length_cons]
    omega

theorem body_length {u : NetspaceUrl} (h : u.gsn ≠ []) :
    u.body.length + 1 = (u.gsn.map (fun w => w.length + 1)).sum +
      (section_ colon u.glq).length + (section_ slash u.res).length +
      (section_ question u.spq).length := by
  have hjoin : ([dot].intercalate u.gsn).length + 1 =
      (u.gsn.map (fun w => w.length + 1)).sum := length_intercalate_singleton dot u.gsn h
  simp only [body, List.length_append]
  omega

theorem decode_body_length {mUrl : Text} {u : NetspaceUrl} (h : decode mUrl = .ok u) :
    springPrefix.length + u.body.length ≤ mUrl.length := by
  obtain ⟨url,rfl,-,hgsn,s,hs,rfl⟩ := decode_ok h
  have hw := DecodeState.weight_foldl .init (url ++ [nul])
  have hbody := body_length (u := ⟨springPrefix ++ url,s.gsn,s.glq,s.res,s.spq⟩) hgsn
  rw [hs] at hw
  have hinit : DecodeState.init.weight = 0 := rfl
  simp only [DecodeState.weight, List.length_append, List.length_singleton] at *
  omega

theorem length_le_sum_succ (parts : List Text) :
    parts.length ≤ (parts.map (fun w => w.length + 1)).sum := by
  induction parts with
  | nil => simp
  | cons w parts ih =>
    simp only [List.length_cons, List.map_cons, List.sum_cons]
    omega

theorem decode_route_length {mUrl : Text} {u : NetspaceUrl} (h : decode mUrl = .ok u) :
    u.gsn.length + 8 ≤ mUrl.length := by
  have hlen := decode_body_length h
  obtain ⟨-,-,-,hgsn,-,-,-⟩ := decode_ok h
  have hbody := body_length hgsn
  have hsum := length_le_sum_succ u.gsn
  simp only [springPrefix_length] at hlen
  omega

def popRoute (u : NetspaceUrl) : NetspaceUrl := { u with gsn := u.gsn.dropLast }

theorem Plain.popRoute {u : NetspaceUrl} (h : u.Plain) : u.popRoute.Plain :=
  ⟨fun w hw => h.route w (List.dropLast_subset _ hw),h.glq,h.res,h.spq⟩

theorem dropLast_gsn_ne_nil {u : NetspaceUrl} (h : 2 ≤ u.gsn.length) : u.gsn.dropLast ≠ [] := by
  apply List.length_pos_iff.mp
  rw [List.length_dropLast]
  omega

theorem dropLast_gsn_eq_nil {u : NetspaceUrl} (h : u.gsn.length = 1) : u.gsn.dropLast = [] := by
  apply List.length_eq_zero_iff.mp
  rw [List.length_dropLast]
  omega

theorem body_popRoute_length {u : NetspaceUrl} (h : 2 ≤ u.gsn.length) :
    u.popRoute.body.length < u.body.length := by
  have hne : u.gsn ≠ [] := List.length_pos_iff.mp (by omega)
  have hne' : u.popRoute.gsn ≠ [] := dropLast_gsn_ne_nil h
  have hbody := body_length hne
  have hbody' := body_length hne'
  have hsum : (u.gsn.map (fun w => w.length + 1)).sum =
      (u.gsn.dropLast.map (fun w => w.length + 1)).sum + ((u.gsn.getLast hne).length + 1) := by
    conv_lhs => rw [← List.dropLast_append_getLast hne]
    simp
  simp only [NetspaceUrl.popRoute] at hbody' ⊢
  omega

theorem body_popRoute_ne_nil {u : NetspaceUrl} (h : 3 ≤ u.gsn.length) : u.popRoute.body ≠ [] := by
  have hlen : u.popRoute.gsn.length = u.gsn.length - 1 := List.length_dropLast
  have hne : u.popRoute.gsn ≠ [] := List.length_pos_iff.mp (by omega)
  have hbody := body_length hne
  have hsum := length_le_sum_succ u.popRoute.gsn
  apply List.length_pos_iff.mp
  omega

/-! ### Reading back what was written -/

theorem isRouteChar_dot : isRouteChar dot = true := by decide

theorem intercalate_routeChar {parts : List Text} (h : ∀ w ∈ parts, PlainText w) :
    ∀ c ∈ [dot].intercalate parts, isRouteChar c = true := by
  intro c hc
  rcases mem_intercalate hc with ⟨w,hw,hcw⟩ | hc
  · simp [isRouteChar, h w hw c hcw]
  · rw [List.mem_singleton.mp hc]
    exact isRouteChar_dot

theorem dot_not_mem_plain {w : Text} (h : PlainText w) : dot ∉ w := by
  intro hd
  exact absurd (h dot hd) (by decide)

theorem foldl_feed_body {u : NetspaceUrl} (hne : u.gsn ≠ []) (hp : u.Plain) :
    ∃ state, (u.body ++ [nul]).foldl DecodeState.feed .init =
      ⟨u.gsn,u.glq,u.res,u.spq,[],state⟩ := by
  obtain ⟨gsn,t,hfold,hsplit⟩ :=
    foldl_feed_route .init (intercalate_routeChar hp.route)
  have hroute : ([dot].intercalate u.gsn).splitOn dot = u.gsn :=
    List.splitOn_intercalate dot (fun w hw => dot_not_mem_plain (hp.route w hw)) hne
  have hgsn : gsn ++ [t] = u.gsn := by
    rw [hsplit, hroute]
    cases u.gsn <;> simp [DecodeState.init]
  obtain ⟨state,hsections⟩ := foldl_feed_sections gsn t hp.glq hp.res hp.spq
  refine ⟨state,?_⟩
  have hsplitBody : u.body ++ [nul] = [dot].intercalate u.gsn ++
      (section_ colon u.glq ++ section_ slash u.res ++ section_ question u.spq ++ [nul]) := by
    simp [body, List.append_assoc]
  rw [hsplitBody, List.foldl_append, hfold, ← hgsn]
  exact hsections

theorem decode_written {u : NetspaceUrl} (hne : u.gsn ≠ []) (hp : u.Plain) (hbody : u.body ≠ [])
    (hlen : u.body.length + 1 < 2 ^ 32) :
    decode (springPrefix ++ u.body) = .ok { u with url := springPrefix ++ u.body } := by
  obtain ⟨state,hfold⟩ := foldl_feed_body hne hp
  rw [decode_prefixed hbody, decodeLoop_eq hlen, hfold]
  simp [hne]

end GsnNode.NetspaceUrl
