import GsnNode.NetspaceNode

/-! `netspace_node(std::string entry)` on every entry with three fields. -/

set_option autoImplicit false

namespace GsnNode
open FuelLoop NetspaceNode

/-! ### Where the separators of an entry are -/

def threeFields (suid hostname text : Text) : Text := suid ++ bar :: (hostname ++ bar :: text)

theorem threeFields_length (suid hostname text : Text) :
    (threeFields suid hostname text).length =
      suid.length + hostname.length + 2 + text.length := by
  simp only [threeFields, List.length_append, List.length_cons]
  omega

theorem getD_ne_bar {w : Text} (h : bar ∉ w) (j : Nat) : w.getD j nul ≠ bar := by
  rw [List.getD_eq_getElem?_getD]
  cases hj : w[j]? with
  | none => decide
  | some c =>
    intro hc
    have hcbar : c = bar := hc
    exact h (hcbar ▸ List.mem_of_getElem? hj)

theorem getD_split_ne_bar {u v : Text} {j : Nat} (hu : bar ∉ u) (hj : j ≠ u.length)
    (hv : u.length < j → v.getD (j - u.length - 1) nul ≠ bar) :
    (u ++ bar :: v).getD j nul ≠ bar := by
  by_cases hlt : j < u.length
  · have hleft := getD_ne_bar hu j
    rw [List.getD_eq_getElem?_getD] at hleft ⊢
    rwa [List.getElem?_append_left hlt]
  · have hright := hv (by omega)
    rw [List.getD_eq_getElem?_getD] at hright ⊢
    rwa [List.getElem?_append_right (by omega),
      show j - u.length = j - u.length - 1 + 1 by omega, List.getElem?_cons_succ]

theorem getD_threeFields {suid hostname text : Text} (hsuid : bar ∉ suid) (hhost : bar ∉ hostname)
    (htext : bar ∉ text) {j : Nat} (hfirst : j ≠ suid.length)
    (hsecond : j ≠ suid.length + 1 + hostname.length) :
    (threeFields suid hostname text).getD j nul ≠ bar :=
  getD_split_ne_bar hsuid hfirst fun _ =>
    getD_split_ne_bar hhost (by omega) fun _ => getD_ne_bar htext _

theorem getD_first (suid hostname text : Text) :
    (threeFields suid hostname text).getD suid.length nul = bar := by
  simp [threeFields]

theorem drop_first (suid hostname text : Text) :
    (threeFields suid hostname text).drop (suid.length + 1) = hostname ++ bar :: text := by
  rw [threeFields, List.append_cons]
  exact List.drop_left' (by simp)

theorem take_eq_left_iff {u v : Text} {c : UInt8} {n : Nat} :
    (u ++ c :: v).take n = u ↔ n = u.length := by
  constructor
  · intro h
    have hlength := congrArg List.length h
    rw [List.length_take, List.length_append, List.length_cons] at hlength
    omega
  · intro h
    exact List.take_left' h.symm

theorem substr_whole (s : Text) : substr s 0 s.length = .ok s := by
  simp [substr]

theorem getD_second (suid hostname text : Text) :
    (threeFields suid hostname text).getD (suid.length + 1 + hostname.length) nul = bar := by
  have hright := drop_first suid hostname text
  have hat := congrArg (·[hostname.length]?) hright
  simp only [List.getElem?_drop] at hat
  rw [List.getD_eq_getElem?_getD, hat]
  simp

/-! ### The counter, modulo 2 ^ 32 -/

namespace NetspaceNode
variable {V6 : Type} (asio : Ipv6Text V6)

theorem incr_mod (i : Nat) : incr (i % 2 ^ 32) = (i + 1) % 2 ^ 32 := by
  rw [incr, Nat.mod_add_mod]

theorem run_skip {entry : Text} (n i : Nat)
    (h : ∀ j, i ≤ j → j < i + n →
      j % 2 ^ 32 < entry.length ∧ entry.getD (j % 2 ^ 32) nul ≠ bar)
    (fuel : Nat) (offset : Int) (state : Nat) (node : NetspaceNode V6) :
    run (entryTurn asio entry) (n + fuel) ⟨i % 2 ^ 32,offset,state,node⟩ =
      run (entryTurn asio entry) fuel ⟨(i + n) % 2 ^ 32,offset,state,node⟩ := by
  induction n generalizing i with
  | zero => simp
  | succ n ih =>
    obtain ⟨hlt,hne⟩ := h i le_rfl (by omega)
    have hturn : entryTurn asio entry ⟨i % 2 ^ 32,offset,state,node⟩ =
        .ok (.next ⟨(i + 1) % 2 ^ 32,offset,state,node⟩) := by
      simp only [entryTurn, if_pos hlt, if_neg hne, incr_mod]
      rfl
    have hrest := ih (i + 1) fun j hj hj' => h j (by omega) (by omega)
    rw [show n + 1 + fuel = n + fuel + 1 by omega, run_next _ hturn, hrest,
      show i + 1 + n = i + (n + 1) by omega]

/-- What the node is when the second separator is met at `p`. -/
def secondFields (entry : Text) (offset : Int) (p : Nat) (node : NetspaceNode V6) :
    Call (NetspaceNode V6) := do
  let hostname ← substr entry (sizeOfInt offset) (distance p offset)
  let rest ← substr entry (incr p) entry.length
  let addr ← NetspaceAddr.fromString asio rest
  pure { node with hostname := hostname, addr := addr }

/-- A turn behind the first separator. -/
theorem entryTurn_behind {entry : Text} {s : EntryState V6} (hs : s.state = 1) :
    entryTurn asio entry s =
      if s.i < entry.length then
        if entry.getD s.i nul = bar then (secondFields asio entry s.offset s.i s.node).map .done
        else .ok (.next { s with i := incr s.i })
      else .ok (.done s.node) := by
  have hstate : s.state ≠ 0 := by omega
  simp only [entryTurn, if_neg hstate, if_pos hs, secondFields, pure_eq_ok]
  congr 2
  cases substr entry (sizeOfInt s.offset) (distance s.i s.offset) with
  | error e => rfl
  | ok hostname =>
    cases substr entry (incr s.i) entry.length with
    | error e => rfl
    | ok rest =>
      simp only [ok_bind]
      cases NetspaceAddr.fromString asio rest <;> rfl

theorem run_second {entry : Text} {p : Nat} (hp : p < entry.length)
    (hbar : entry.getD p nul = bar) (fuel : Nat) (offset : Int) (node : NetspaceNode V6) :
    run (entryTurn asio entry) (fuel + 1) ⟨p,offset,1,node⟩ =
      some (secondFields asio entry offset p node) := by
  have hturn := @entryTurn_behind V6 asio entry ⟨p,offset,1,node⟩ rfl
  simp only [if_pos hp, if_pos hbar] at hturn
  cases hfields : secondFields asio entry offset p node with
  | error e =>
    rw [hfields] at hturn
    exact run_error _ hturn
  | ok node' =>
    rw [hfields] at hturn
    exact run_done _ hturn

theorem secondFields_suid {entry : Text} {offset : Int} {p : Nat} {node out : NetspaceNode V6}
    (h : secondFields asio entry offset p node = .ok out) : out.suid = node.suid := by
  obtain ⟨hostname,-,h⟩ := bind_eq_ok.mp h
  obtain ⟨rest,-,h⟩ := bind_eq_ok.mp h
  obtain ⟨addr,-,h⟩ := bind_eq_ok.mp h
  simp only [pure_eq_ok, Except.ok.injEq] at h
  rw [← h]

theorem run_suid {entry : Text} {fuel i : Nat} {offset : Int} {node out : NetspaceNode V6}
    (h : run (entryTurn asio entry) fuel ⟨i,offset,1,node⟩ = some (.ok out)) :
    out.suid = node.suid := by
  induction fuel generalizing i with
  | zero => simp [run] at h
  | succ fuel ih =>
    by_cases hi : i < entry.length
    · by_cases hbar : entry.getD i nul = bar
      · rw [run_second asio hi hbar, Option.some.injEq] at h
        exact secondFields_suid asio h
      · have hturn := @entryTurn_behind V6 asio entry ⟨i,offset,1,node⟩ rfl
        simp only [if_pos hi, if_neg hbar] at hturn
        rw [run_next fuel hturn] at h
        exact ih h
    · rw [run, entryTurn_behind asio rfl, if_neg hi] at h
      simp only [Option.some.injEq, Except.ok.injEq] at h
      rw [h]

theorem run_end {entry : Text} {i : Nat} (hi : entry.length ≤ i) (fuel : Nat) (offset : Int)
    (state : Nat) (node : NetspaceNode V6) :
    run (entryTurn asio entry) (fuel + 1) ⟨i,offset,state,node⟩ = some (.ok node) :=
  run_done _ (if_neg (not_lt_of_ge hi))

theorem intOfNat_incr (i : Nat) : intOfNat (incr i) = intOfNat (i + 1) := by
  rw [intOfNat, intOfNat, incr, Nat.mod_mod]

/-- The run up to the character at `k + 2 + n`, the first separator being at `k`. -/
theorem ofEntry_run {entry : Text} {k n : Nat} (hk : k < entry.length) (hk32 : k < 2 ^ 32)
    (hbar : entry.getD k nul = bar) (hbefore : ∀ j, j < k → entry.getD j nul ≠ bar)
    (hskip : ∀ j, k + 2 ≤ j → j < k + 2 + n →
      j % 2 ^ 32 < entry.length ∧ entry.getD (j % 2 ^ 32) nul ≠ bar)
    (hfuel : k + n ≤ 2 * entry.length) :
    ofEntry asio entry = ofLoop (run (entryTurn asio entry) (2 * entry.length - (k + n) + 1)
      ⟨(k + 2 + n) % 2 ^ 32,intOfNat (k + 1),1,
        { (empty : NetspaceNode V6) with suid := entry.take k }⟩) := by
  have hstart := @run_skip V6 asio entry k 0 (fun j _ hj => by
    rw [Nat.mod_eq_of_lt (by omega)]
    exact ⟨by omega,hbefore j (by omega)⟩)
  have hsuid : substr entry (sizeOfInt 0) k = .ok (entry.take k) := by simp [substr, sizeOfInt]
  have hturn : entryTurn asio entry ⟨k,0,0,empty⟩ =
      .ok (.next ⟨(k + 2) % 2 ^ 32,intOfNat (k + 1),1,
        { (empty : NetspaceNode V6) with suid := entry.take k }⟩) := by
    have hincr : incr (incr k) = (k + 2) % 2 ^ 32 := by rw [incr, incr, Nat.mod_add_mod]
    simp only [entryTurn, if_pos hk, hbar, if_true, hsuid, ok_bind, intOfNat_incr, hincr]
    rfl
  have hsplit : 2 * entry.length + 2 =
      k + (n + (2 * entry.length - (k + n) + 1) + 1) := by omega
  have hzero : (0 + k) % 2 ^ 32 = k := by omega
  rw [Nat.zero_mod, hzero] at hstart
  rw [ofEntry, hsplit, hstart, run_next _ hturn, run_skip asio n (k + 2) hskip]

end NetspaceNode

/-! ### The address field -/

section Fields
variable {V6 : Type} (asio : Ipv6Text V6)

theorem fromString_v4_iff {s : Text} {a : NetspaceIpv4} :
    NetspaceAddr.fromString asio s = .ok (.v4 a) ↔ ipv4FromString (cStr s) = some a := by
  have hread : NetspaceAddr.fromString asio s = .ok (.v4 a) ↔
      NetspaceAddr.read asio (cStr s) = some (.v4 a) := by
    unfold NetspaceAddr.fromString
    cases NetspaceAddr.read asio (cStr s) <;> simp [throws]
  rw [hread]
  unfold NetspaceAddr.read
  cases hv6 : asio.fromText (cStr s) with
  | none => simp
  | some b =>
    -- an IPv6 address has a colon, an IPv4 address has none
    have hcolon : colon ∈ cStr s :=
      (List.takeWhile_sublist _).subset (asio.fromText_colon _ b hv6)
    have hv4 : ipv4FromString (cStr s) ≠ some a := fun h => ipv4Text_free h (by decide) hcolon
    simp [hv4]

theorem fromString_ipv4Text {text : Text} {a : NetspaceIpv4} (h : ipv4FromString text = some a) :
    NetspaceAddr.fromString asio text = .ok (.v4 a) := by
  rw [fromString_v4_iff, cStr_eq_self (ipv4Text_free h (by decide))]
  exact h

/-- The address is what stands before a NUL in the field. -/
def FieldHolds (field : Text) (a : NetspaceIpv4) : Prop :=
  nul ∈ field ∧ ipv4FromString (cStr field) = some a

/-- What is read from a field on that is not the last. -/
theorem fromString_field {field rest : Text} {a : NetspaceIpv4} :
    NetspaceAddr.fromString asio (field ++ bar :: rest) = .ok (.v4 a) ↔ FieldHolds field a := by
  rw [fromString_v4_iff, FieldHolds]
  by_cases hnul : nul ∈ field
  · have hcut : cStr (field ++ bar :: rest) = cStr field := by
      rw [cStr, List.takeWhile_append, if_neg, cStr]
      intro hall
      have hself : field.takeWhile (· != nul) = field :=
        (List.takeWhile_sublist _).eq_of_length hall
      have hne := List.takeWhile_eq_self_iff.mp hself nul hnul
      simp at hne
    simp [hcut, hnul]
  · have hcut : bar ∈ cStr (field ++ bar :: rest) := by
      rw [cStr, List.takeWhile_append_of_pos]
      · simp [bar, nul]
      · intro c hc
        simpa using fun h : c = nul => hnul (h ▸ hc)
    have hv4 : ipv4FromString (cStr (field ++ bar :: rest)) ≠ some a := fun h =>
      ipv4Text_free h (by decide) hcut
    simp [hnul, hv4]

/-! ### When the fields come back -/

/-- Whatever the counter does behind the first separator, the first field stays. -/
theorem ofEntry_suid {suid rest : Text} (hsuid : bar ∉ suid) (hk : suid.length < 2 ^ 32)
    {node : NetspaceNode V6} (hnode : ofEntry asio (suid ++ bar :: rest) = .ok node) :
    node.suid = suid := by
  have hrun := @ofEntry_run V6 asio (suid ++ bar :: rest) suid.length 0 (by simp) hk (by simp)
    (fun j hj => getD_split_ne_bar hsuid (by omega) (by omega)) (fun j _ _ => by omega)
    (by simp only [List.length_append]; omega)
  rw [hrun, ofLoop_eq_ok, List.take_left' rfl] at hnode
  exact run_suid asio hnode

def EntryExact (suid hostname text : Text) (a : NetspaceIpv4) : Prop :=
  ∃ node, ofEntry asio (threeFields suid hostname text) = .ok node ∧
    node.suid = suid ∧ node.hostname = hostname ∧ node.addr = .v4 a

theorem secondFields_exact {entry : Text} {offset : Int} {p : Nat} {node : NetspaceNode V6}
    {suid hostname : Text} {a : NetspaceIpv4} (hsuid : node.suid = suid) :
    (∃ out, secondFields asio entry offset p node = .ok out ∧
      out.suid = suid ∧ out.hostname = hostname ∧ out.addr = .v4 a) ↔
      substr entry (sizeOfInt offset) (distance p offset) = .ok hostname ∧
        ∃ rest, substr entry (incr p) entry.length = .ok rest ∧
          NetspaceAddr.fromString asio rest = .ok (.v4 a) := by
  constructor
  · intro h
    obtain ⟨out,hout,-,hhost,haddr⟩ := h
    obtain ⟨hostname',hhost',hout⟩ := bind_eq_ok.mp hout
    obtain ⟨rest,hrest,hout⟩ := bind_eq_ok.mp hout
    obtain ⟨addr,haddr',hout⟩ := bind_eq_ok.mp hout
    simp only [pure_eq_ok, Except.ok.injEq] at hout
    subst out
    exact ⟨hhost ▸ hhost',rest,hrest,haddr ▸ haddr'⟩
  · intro h
    obtain ⟨hhost,rest,hrest,haddr⟩ := h
    simp [secondFields, hhost, hrest, haddr, hsuid]

variable {suid hostname text : Text} {a : NetspaceIpv4}

/-- With an empty hostname the second separator stands right behind the first, where
the counter does not stop. -/
theorem entryExact_empty (hsuid : bar ∉ suid) (ha : ipv4FromString text = some a)
    (hlen : (threeFields suid [] text).length < 2 ^ 32) :
    EntryExact asio suid [] text a ↔ a = default := by
  have htext : bar ∉ text := ipv4Text_free ha (by decide)
  have hlength := threeFields_length suid [] text
  rw [List.length_nil] at hlength
  have hne {j : Nat} (hj : j ≠ suid.length) (hj' : j ≠ suid.length + 1) :
      (threeFields suid [] text).getD j nul ≠ bar :=
    getD_threeFields hsuid List.not_mem_nil htext hj (by simpa using hj')
  have htake : (threeFields suid [] text).take suid.length = suid := by simp [threeFields]
  have hrun := @ofEntry_run V6 asio (threeFields suid [] text) suid.length text.length
    (by omega) (by omega) (getD_first suid [] text) (fun j hj => hne (by omega) (by omega))
    (fun j hj hj' => by
      rw [Nat.mod_eq_of_lt (by omega)]
      exact ⟨by omega,hne (by omega) (by omega)⟩)
    (by omega)
  rw [htake, Nat.mod_eq_of_lt (by omega), run_end asio (by omega)] at hrun
  rw [EntryExact, hrun]
  simp [ofLoop, NetspaceNode.empty, eq_comm]

theorem ofEntry_second (hsuid : bar ∉ suid) (hhost : bar ∉ hostname) (htext : bar ∉ text)
    {n p : Nat} (hk : suid.length < 2 ^ 32) (hp : (suid.length + 2 + n) % 2 ^ 32 = p)
    (hskip : ∀ j, suid.length + 2 ≤ j → j < suid.length + 2 + n →
      j % 2 ^ 32 < (threeFields suid hostname text).length ∧
        j % 2 ^ 32 ≠ suid.length ∧ j % 2 ^ 32 ≠ suid.length + 1 + hostname.length)
    (hbar : p = suid.length ∨ p = suid.length + 1 + hostname.length)
    (hfuel : suid.length + n ≤ 2 * (threeFields suid hostname text).length) :
    ofEntry asio (threeFields suid hostname text) =
      secondFields asio (threeFields suid hostname text) (intOfNat (suid.length + 1)) p
        { (empty : NetspaceNode V6) with suid := suid } := by
  have hlength := threeFields_length suid hostname text
  have htake : (threeFields suid hostname text).take suid.length = suid := by simp [threeFields]
  have hstop : (threeFields suid hostname text).getD p nul = bar := by
    obtain rfl | rfl := hbar
    · exact getD_first suid hostname text
    · exact getD_second suid hostname text
  have hrun := @ofEntry_run V6 asio (threeFields suid hostname text) suid.length n (by omega) hk
    (getD_first suid hostname text)
    (fun j hj => getD_threeFields hsuid hhost htext (by omega) (by omega))
    (fun j hj hj' => by
      obtain ⟨hlt,hfirst,hsecond⟩ := hskip j hj hj'
      exact ⟨hlt,getD_threeFields hsuid hhost htext hfirst hsecond⟩)
    hfuel
  rw [hrun, htake, hp, run_second asio (by omega) hstop, ofLoop]

/-- The second separator is at a position that the counter has. -/
theorem entryExact_second (hsuid : bar ∉ suid) (hhost : bar ∉ hostname)
    (ha : ipv4FromString text = some a) (hne : hostname ≠ [])
    (hlen : suid.length + hostname.length + 2 ≤ 2 ^ 32)
    (hmax : (threeFields suid hostname text).length ≤ maxStringSize) :
    EntryExact asio suid hostname text a ↔
      suid.length + 1 < 2 ^ 31 ∧
        ∃ rest, substr (threeFields suid hostname text)
            (incr (suid.length + 1 + hostname.length))
            (threeFields suid hostname text).length = .ok rest ∧
          NetspaceAddr.fromString asio rest = .ok (.v4 a) := by
  have hpos := List.length_pos_iff.mpr hne
  have hlength := threeFields_length suid hostname text
  have hread := @ofEntry_second V6 asio suid hostname text hsuid hhost
    (ipv4Text_free ha (by decide)) (hostname.length - 1) (suid.length + 1 + hostname.length)
    (by omega) (by omega) (fun j _ _ => by omega) (Or.inr rfl) (by omega)
  rw [EntryExact, hread, secondFields_exact asio rfl]
  refine and_congr_left fun _ => ?_
  by_cases hshort : suid.length + 1 < 2 ^ 31
  · have hcount : distance (suid.length + 1 + hostname.length) (suid.length + 1 : Nat) =
        hostname.length := by
      rw [distance_of_le (by omega) (by omega)]
      omega
    rw [intOfNat_small hshort, sizeOfInt_natCast (by omega), hcount, substr, if_neg (by omega),
      drop_first, List.take_left' rfl]
    simp only [hshort]
  · have hbig := @sizeOfInt_intOfNat_big (suid.length + 1) (by omega) (by omega)
    rw [substr, if_pos (by omega)]
    simp only [throws, reduceCtorEq, hshort]

theorem entryExact_fits (hsuid : bar ∉ suid) (hhost : bar ∉ hostname)
    (ha : ipv4FromString text = some a) (hne : hostname ≠ [])
    (hlen : suid.length + hostname.length + 2 < 2 ^ 32)
    (hmax : (threeFields suid hostname text).length ≤ maxStringSize) :
    EntryExact asio suid hostname text a ↔ suid.length + 1 < 2 ^ 31 := by
  have hlength := threeFields_length suid hostname text
  have hincr : incr (suid.length + 1 + hostname.length) =
      suid.length + 1 + (hostname.length + 1) := Nat.mod_eq_of_lt (by omega)
  have hdrop : (threeFields suid hostname text).drop (suid.length + 1 + (hostname.length + 1)) =
      text := by
    rw [← List.drop_drop, drop_first, List.append_cons]
    exact List.drop_left' (by simp)
  have hrest : substr (threeFields suid hostname text) (suid.length + 1 + (hostname.length + 1))
      (threeFields suid hostname text).length = .ok text := by
    rw [substr, if_neg (by omega), hdrop, List.take_of_length_le (by omega)]
  rw [entryExact_second asio hsuid hhost ha hne (by omega) hmax, hincr, hrest]
  simp only [Except.ok.injEq, exists_eq_left', fromString_ipv4Text asio ha, and_true]

/-- The second separator at the last position that the counter has. -/
theorem entryExact_last (hsuid : bar ∉ suid) (hhost : bar ∉ hostname)
    (ha : ipv4FromString text = some a) (hne : hostname ≠ [])
    (hlen : suid.length + hostname.length + 2 = 2 ^ 32)
    (hmax : (threeFields suid hostname text).length ≤ maxStringSize) :
    EntryExact asio suid hostname text a ↔ suid.length + 1 < 2 ^ 31 ∧ FieldHolds suid a := by
  have hincr : incr (suid.length + 1 + hostname.length) = 0 := by
    rw [incr, show suid.length + 1 + hostname.length + 1 = 2 ^ 32 by omega, Nat.mod_self]
  rw [entryExact_second asio hsuid hhost ha hne (by omega) hmax, hincr, substr_whole]
  simp only [Except.ok.injEq, exists_eq_left']
  rw [threeFields, fromString_field]

/-- What is read when the first separator is met again. -/
def FirstAgain (suid hostname text : Text) (a : NetspaceIpv4) : Prop :=
  substr (threeFields suid hostname text) (sizeOfInt (intOfNat (suid.length + 1)))
      (distance suid.length (intOfNat (suid.length + 1))) = .ok hostname ∧
    ∃ rest, substr (threeFields suid hostname text) (incr suid.length)
        (threeFields suid hostname text).length = .ok rest ∧
      NetspaceAddr.fromString asio rest = .ok (.v4 a)

/-- All but one of the 2 ^ 32 characters from the hostname on are cut out. -/
theorem firstAgain_short (hshort : suid.length + 1 < 2 ^ 31) :
    FirstAgain asio suid hostname text a ↔
      hostname.length = 2 ^ 32 - 1 ∧ FieldHolds hostname a := by
  have hlength := threeFields_length suid hostname text
  have hcount : distance suid.length (suid.length + 1 : Nat) = 2 ^ 32 - 1 := by
    simp only [distance]
    omega
  have hincr : incr suid.length = suid.length + 1 := Nat.mod_eq_of_lt (by omega)
  have hrest : substr (threeFields suid hostname text) (suid.length + 1)
      (threeFields suid hostname text).length = .ok (hostname ++ bar :: text) := by
    rw [substr, if_neg (by omega), drop_first, List.take_of_length_le]
    rw [List.length_append, List.length_cons]
    omega
  rw [FirstAgain, intOfNat_small hshort, sizeOfInt_natCast (by omega), hcount, hincr, hrest]
  rw [substr, if_neg (by omega), drop_first, Except.ok.injEq, take_eq_left_iff]
  simp only [Except.ok.injEq, exists_eq_left', fromString_field]
  rw [eq_comm]

/-- `offset` has come back to 0. -/
theorem firstAgain_last (hlast : suid.length + 1 = 2 ^ 32) :
    FirstAgain asio suid hostname text a ↔ hostname = suid ∧ FieldHolds suid a := by
  have hoffset : intOfNat (suid.length + 1) = 0 := by rw [hlast]; rfl
  have hcount : distance suid.length 0 = suid.length := by
    simp only [distance]
    omega
  have hincr : incr suid.length = 0 := by rw [incr, hlast, Nat.mod_self]
  have hfirst : substr (threeFields suid hostname text) 0 suid.length = .ok suid := by
    simp [substr, threeFields]
  rw [FirstAgain, hoffset, hcount, hincr, substr_whole, show sizeOfInt 0 = 0 from rfl, hfirst]
  simp only [Except.ok.injEq, exists_eq_left']
  rw [threeFields, fromString_field, eq_comm]

theorem not_firstAgain (hlong : 2 ^ 31 ≤ suid.length + 1) (hlt : suid.length + 1 < 2 ^ 32)
    (hmax : (threeFields suid hostname text).length ≤ maxStringSize) :
    ¬ FirstAgain asio suid hostname text a := by
  have hbig := sizeOfInt_intOfNat_big hlong hlt
  rw [FirstAgain, substr, if_pos (by omega)]
  simp only [throws, reduceCtorEq, false_and, not_false_eq_true]

/-- The counter comes back to the first separator. -/
theorem entryExact_round (hsuid : bar ∉ suid) (hhost : bar ∉ hostname)
    (ha : ipv4FromString text = some a) (hk : suid.length < 2 ^ 32)
    (hlen : 2 ^ 32 ≤ (threeFields suid hostname text).length)
    (hsecond : hostname = [] ∨ 2 ^ 32 < suid.length + hostname.length + 2)
    (hmax : (threeFields suid hostname text).length ≤ maxStringSize) :
    EntryExact asio suid hostname text a ↔
      (suid.length + 1 < 2 ^ 31 ∧ hostname.length = 2 ^ 32 - 1 ∧ FieldHolds hostname a) ∨
        (suid.length + 1 = 2 ^ 32 ∧ hostname = suid ∧ FieldHolds suid a) := by
  have hlength := threeFields_length suid hostname text
  have hempty : hostname.length = 0 ∨ 2 ^ 32 < suid.length + hostname.length + 2 :=
    hsecond.imp_left List.length_eq_zero_iff.mpr
  have hread := @ofEntry_second V6 asio suid hostname text hsuid hhost
    (ipv4Text_free ha (by decide)) (2 ^ 32 - 2) suid.length hk (by omega)
    (fun j _ _ => by omega) (Or.inl rfl) (by omega)
  have hagain : EntryExact asio suid hostname text a ↔ FirstAgain asio suid hostname text a := by
    rw [EntryExact, hread, secondFields_exact asio rfl, FirstAgain]
  rw [hagain]
  by_cases hshort : suid.length + 1 < 2 ^ 31
  · have hnot : suid.length + 1 ≠ 2 ^ 32 := by omega
    rw [firstAgain_short asio hshort]
    simp only [hshort, hnot, true_and, false_and, or_false]
  · by_cases hlast : suid.length + 1 = 2 ^ 32
    · rw [firstAgain_last asio hlast, or_iff_right fun h => hshort h.1, and_iff_right hlast]
    · refine iff_of_false (not_firstAgain asio (by omega) (by omega) hmax) ?_
      simp only [hshort, hlast, false_and, or_self, not_false_eq_true]

/-- The counter never comes to the first separator. -/
theorem entryExact_never (hsuid : bar ∉ suid) (hk : 2 ^ 32 ≤ suid.length) :
    ¬ EntryExact asio suid hostname text a := by
  have hlength := threeFields_length suid hostname text
  have hturn (s : EntryState V6) (hi : s.i < 2 ^ 32) :
      entryTurn asio (threeFields suid hostname text) s = .ok (.next { s with i := incr s.i }) := by
    have hne : (threeFields suid hostname text).getD s.i nul ≠ bar :=
      getD_split_ne_bar hsuid (by omega) (by omega)
    simp only [entryTurn, if_pos (show s.i < (threeFields suid hostname text).length by omega),
      if_neg hne]
    rfl
  intro h
  obtain ⟨node,hnode,-⟩ := h
  refine run_invariant (fun s : EntryState V6 => s.i < 2 ^ 32) (fun _ => False) ?_ ?_
    (Nat.two_pow_pos 32) (ofLoop_eq_ok.mp hnode)
  · intro s s' hs hnext
    simp only [hturn s hs, Except.ok.injEq, Turn.next.injEq] at hnext
    subst s'
    exact Nat.mod_lt _ (Nat.two_pow_pos 32)
  · intro s out hs hdone
    simp [hturn s hs] at hdone

/-- The counter can pass both separators, and stops at each of them. -/
def CounterFits (suid hostname : Text) : Prop :=
  hostname ≠ [] ∧ suid.length + 1 < 2 ^ 31 ∧ suid.length + hostname.length + 2 < 2 ^ 32

/-- The counter has gone past its last value, and the field that is then read as the
address holds that address before a NUL. -/
def CounterWraps (suid hostname : Text) (a : NetspaceIpv4) : Prop :=
  (suid.length + 1 < 2 ^ 31 ∧ suid.length + hostname.length + 2 = 2 ^ 32 ∧ FieldHolds suid a) ∨
    (suid.length + 1 < 2 ^ 31 ∧ hostname.length = 2 ^ 32 - 1 ∧ FieldHolds hostname a) ∨
    (suid.length + 1 = 2 ^ 32 ∧ hostname = suid ∧ FieldHolds suid a)

theorem CounterWraps.long {suid hostname : Text} {a : NetspaceIpv4}
    (h : CounterWraps suid hostname a) :
    0 < hostname.length ∧ suid.length < 2 ^ 32 ∧
      2 ^ 32 ≤ suid.length + hostname.length + 2 := by
  obtain ⟨hk,hlen,-⟩ | ⟨hk,hlen,-⟩ | ⟨hk,rfl,-⟩ := h <;> omega

theorem CounterWraps.at_last {suid hostname : Text} {a : NetspaceIpv4}
    (hlen : suid.length + hostname.length + 2 = 2 ^ 32) :
    CounterWraps suid hostname a ↔ suid.length + 1 < 2 ^ 31 ∧ FieldHolds suid a := by
  constructor
  · intro h
    obtain ⟨hk,-,hfield⟩ | ⟨hk,hhost,-⟩ | ⟨hk,rfl,-⟩ := h
    · exact ⟨hk,hfield⟩
    · omega
    · omega
  · exact fun h => Or.inl ⟨h.1,hlen,h.2⟩

theorem CounterWraps.past_last {suid hostname : Text} {a : NetspaceIpv4}
    (hlen : 2 ^ 32 < suid.length + hostname.length + 2) :
    CounterWraps suid hostname a ↔
      (suid.length + 1 < 2 ^ 31 ∧ hostname.length = 2 ^ 32 - 1 ∧ FieldHolds hostname a) ∨
        (suid.length + 1 = 2 ^ 32 ∧ hostname = suid ∧ FieldHolds suid a) := by
  rw [CounterWraps, or_iff_right]
  exact fun h => by omega

theorem entryExact_iff_empty (hsuid : bar ∉ suid) (ha : ipv4FromString text = some a)
    (hmax : (threeFields suid [] text).length ≤ maxStringSize) :
    EntryExact asio suid [] text a ↔
      a = default ∧ (threeFields suid [] text).length < 2 ^ 32 := by
  have hlength := threeFields_length suid [] text
  by_cases hlen : (threeFields suid [] text).length < 2 ^ 32
  · rw [entryExact_empty asio hsuid ha hlen]
    simp only [hlen, and_true]
  · refine iff_of_false (fun h => ?_) fun h => hlen h.2
    by_cases hk : suid.length < 2 ^ 32
    · rw [entryExact_round asio hsuid List.not_mem_nil ha hk (by omega) (Or.inl rfl) hmax] at h
      obtain ⟨-,hhost,-⟩ | ⟨hlast,hsame,-⟩ := h
      · rw [List.length_nil] at hhost
        omega
      · rw [← hsame, List.length_nil] at hlast
        omega
    · exact entryExact_never asio hsuid (by omega) h

theorem entryExact_iff_filled (hsuid : bar ∉ suid) (hhost : bar ∉ hostname) (hne : hostname ≠ [])
    (ha : ipv4FromString text = some a)
    (hmax : (threeFields suid hostname text).length ≤ maxStringSize) :
    EntryExact asio suid hostname text a ↔
      CounterFits suid hostname ∨ CounterWraps suid hostname a := by
  have hlength := threeFields_length suid hostname text
  have hfits : CounterFits suid hostname ↔
      suid.length + 1 < 2 ^ 31 ∧ suid.length + hostname.length + 2 < 2 ^ 32 := and_iff_right hne
  rw [hfits]
  obtain hlen | hlen | hlen := Nat.lt_trichotomy (suid.length + hostname.length + 2) (2 ^ 32)
  · have hwraps : ¬ CounterWraps suid hostname a := fun h => absurd h.long.2.2 (by omega)
    rw [entryExact_fits asio hsuid hhost ha hne hlen hmax]
    simp only [hlen, hwraps, and_true, or_false]
  · have hnot : ¬ suid.length + hostname.length + 2 < 2 ^ 32 := by omega
    rw [entryExact_last asio hsuid hhost ha hne hlen hmax, CounterWraps.at_last hlen]
    simp only [hnot, and_false, false_or]
  · have hnot : ¬ suid.length + hostname.length + 2 < 2 ^ 32 := by omega
    simp only [hnot, and_false, false_or]
    by_cases hk : suid.length < 2 ^ 32
    · rw [entryExact_round asio hsuid hhost ha hk (by omega) (Or.inr hlen) hmax,
        CounterWraps.past_last hlen]
    · exact iff_of_false (entryExact_never asio hsuid (by omega)) fun h => hk h.long.2.1

/-- A first field, a second one and an IPv4 address come back exactly when the counter
fits and the second field is not empty. Behind an empty one the address is never
looked at, and the node has the address `0.0.0.0` that it started with. -/
theorem entryExact_iff (hsuid : bar ∉ suid) (hhost : bar ∉ hostname)
    (ha : ipv4FromString text = some a)
    (hmax : (threeFields suid hostname text).length ≤ maxStringSize) :
    EntryExact asio suid hostname text a ↔
      CounterFits suid hostname ∨
        (hostname = [] ∧ a = default ∧ (threeFields suid hostname text).length < 2 ^ 32) ∨
        CounterWraps suid hostname a := by
  by_cases hempty : hostname = []
  · subst hempty
    have hfits : ¬ CounterFits suid [] := fun h => h.1 rfl
    have hwraps : ¬ CounterWraps suid [] a := fun h => Nat.lt_irrefl 0 h.long.1
    rw [entryExact_iff_empty asio hsuid ha hmax]
    simp only [hfits, hwraps, false_or, or_false, true_and]
  · rw [entryExact_iff_filled asio hsuid hhost hempty ha hmax]
    simp only [hempty, false_and, false_or]

end Fields

def localhostIpv4 : NetspaceIpv4 := ByteWords.Block.ofList 4 [127,0,0,1]

def localhostText : Text := ascii "127.0.0.1"

/-- With a hostname, and without one. -/
theorem entryExact_iff_hostname :
    EntryExact ipv4Only (ascii "a") (ascii "h") localhostText localhostIpv4 ∧
      ¬ EntryExact ipv4Only (ascii "a") [] localhostText localhostIpv4 := by
  have ha : ipv4FromString localhostText = some localhostIpv4 := by decide +kernel
  constructor
  · exact (entryExact_iff ipv4Only (by decide) (by decide) ha (by decide +kernel)).mpr
      (.inl ⟨by decide,by decide,by decide⟩)
  · intro h
    rcases (entryExact_iff ipv4Only (by decide) (by decide) ha (by decide +kernel)).mp h with
      hfits | hempty | hwraps
    · exact hfits.1 rfl
    · exact absurd hempty.2.1 (by decide)
    · exact absurd hwraps.long.1 (by decide)

theorem empty_hostname_skips_address :
    bar ∉ ascii "a" ∧ ipv4FromString localhostText = some localhostIpv4 ∧
      ¬ EntryExact ipv4Only (ascii "a") [] localhostText localhostIpv4 := by
  have ha : ipv4FromString localhostText = some localhostIpv4 := by decide +kernel
  have hsuid : bar ∉ ascii "a" := by decide
  refine ⟨hsuid,ha,fun h => ?_⟩
  have hdefault := (entryExact_empty ipv4Only hsuid ha (by decide +kernel)).mp h
  exact absurd hdefault (by decide)

end GsnNode
