import GsnNode.EntryParsing

/-! `nodes_from_string` on every list of entries, and what it reads of the text
that `construct_frame_network` writes. -/

set_option autoImplicit false

namespace GsnNode
open FuelLoop NetspaceNode

section Parsing
variable {V6 : Type} (asio : Ipv6Text V6)

structure ListingState (V6 : Type) where
  offset : Int
  nodes : List (NetspaceNode V6)

/-- The second argument of `substr` is the position of the separator, not the
length of the entry, and the next entry starts at the separator. -/
def nodesStep (details : Text) (s : ListingState V6) (i : Nat) (ch : UInt8) :
    Call (ListingState V6) :=
  if ch = semicolon then do
    let ns ← substr details (sizeOfInt s.offset) i
    if ns = [] then pure ⟨intOfNat i,s.nodes⟩
    else do
      let node ← ofEntry asio ns
      pure ⟨intOfNat i,s.nodes ++ [node]⟩
  else pure s

def nodesFromString (details : Text) : Call (List (NetspaceNode V6)) := do
  let s ← ofLoop (forUnsigned 32 details.length
    (fun i s => nodesStep asio details s i (details.getD i nul)) ⟨0,[]⟩)
  pure s.nodes

/-! ### The loop over a listing -/

def nodesFold (details w : Text) (k : Nat) (s : ListingState V6) : Call (ListingState V6) :=
  (w.zipIdx k).foldlM (fun s p => nodesStep asio details s p.2 p.1) s

theorem nodesFromString_eq {details : Text} (h : details.length < 2 ^ 32) :
    nodesFromString asio details =
      (nodesFold asio details details 0 ⟨0,[]⟩ >>= fun s => pure s.nodes) := by
  rw [nodesFromString, forUnsigned_eq _ _ h]
  simp only [ofLoop]
  rw [foldlM_range_getD details nul (nodesStep asio details)]
  rfl

theorem nodesFromString_long {details : Text} (h : 2 ^ 32 ≤ details.length)
    (nodes : List (NetspaceNode V6)) : nodesFromString asio details ≠ .ok nodes := by
  intro hok
  obtain ⟨s,hs,-⟩ := bind_eq_ok.mp hok
  cases hrun : forUnsigned 32 details.length
      (fun i s => nodesStep asio details s i (details.getD i nul)) ⟨0,[]⟩ with
  | none =>
    rw [hrun] at hs
    contradiction
  | some r =>
    rw [hrun] at hs
    obtain rfl : r = .ok s := hs
    exact forUnsigned_never _ h _ _ hrun

theorem nodesFold_skip (details : Text) {w : Text} (hw : semicolon ∉ w) (k : Nat)
    (s : ListingState V6) : nodesFold asio details w k s = .ok s := by
  induction w generalizing k with
  | nil => rfl
  | cons c w ih =>
    simp only [List.mem_cons, not_or] at hw
    have hstep : nodesStep asio details s k c = .ok s := if_neg (Ne.symm hw.1)
    have hrest := ih hw.2 (k + 1)
    simp only [nodesFold] at hrest
    simp [nodesFold, hstep, hrest]

theorem nodesFold_entry (details : Text) {entry rest : Text} (hentry : semicolon ∉ entry) (k : Nat)
    (s : ListingState V6) :
    nodesFold asio details (entry ++ semicolon :: rest) k s =
      (nodesStep asio details s (k + entry.length) semicolon >>= fun s' =>
        nodesFold asio details rest (k + entry.length + 1) s') := by
  have hskip := nodesFold_skip asio details hentry k s
  simp only [nodesFold] at hskip ⊢
  rw [List.zipIdx_append, List.foldlM_append, hskip, ok_bind, List.zipIdx_cons, List.foldlM_cons]

/-! ### One entry, and the entry after the first -/

theorem nodesStep_cases {details : Text} {s s' : ListingState V6} {i : Nat} {ch : UInt8}
    (h : nodesStep asio details s i ch = .ok s') :
    (ch ≠ semicolon ∧ s' = s) ∨ (ch = semicolon ∧ ∃ ns,
      substr details (sizeOfInt s.offset) i = .ok ns ∧
        ((ns = [] ∧ s' = ⟨intOfNat i,s.nodes⟩) ∨ (ns ≠ [] ∧ ∃ node,
          ofEntry asio ns = .ok node ∧ s' = ⟨intOfNat i,s.nodes ++ [node]⟩))) := by
  unfold nodesStep at h
  split at h
  case isFalse hch =>
    simp only [pure_eq_ok, Except.ok.injEq] at h
    exact Or.inl ⟨hch,h.symm⟩
  case isTrue hch =>
    obtain ⟨ns,hns,h⟩ := bind_eq_ok.mp h
    refine Or.inr ⟨hch,ns,hns,?_⟩
    split at h
    case isTrue hnil =>
      simp only [pure_eq_ok, Except.ok.injEq] at h
      exact Or.inl ⟨hnil,h.symm⟩
    case isFalse hne =>
      obtain ⟨node,hnode,h⟩ := bind_eq_ok.mp h
      simp only [pure_eq_ok, Except.ok.injEq] at h
      exact Or.inr ⟨hne,node,hnode,h.symm⟩

theorem nodesStep_keeps {details : Text} {s s' : ListingState V6} {i : Nat} {ch : UInt8}
    (h : nodesStep asio details s i ch = .ok s') : s.nodes <+: s'.nodes := by
  obtain ⟨-,rfl⟩ | ⟨-,ns,-,⟨-,rfl⟩ | ⟨-,node,-,rfl⟩⟩ := nodesStep_cases asio h
  · exact List.prefix_rfl
  · exact List.prefix_rfl
  · exact List.prefix_append _ _

theorem nodesFold_keeps {details w : Text} {k : Nat} {s s' : ListingState V6}
    (h : nodesFold asio details w k s = .ok s') : s.nodes <+: s'.nodes :=
  foldlM_invariant (fun t : ListingState V6 => s.nodes <+: t.nodes)
    (fun _ _ _ hkeeps hstep => hkeeps.trans (nodesStep_keeps asio hstep)) List.prefix_rfl h

theorem nodesStep_separator {details ns : Text} {s s' : ListingState V6} {i : Nat}
    (hns : substr details (sizeOfInt s.offset) i = .ok ns) (hne : ns ≠ [])
    (h : nodesStep asio details s i semicolon = .ok s') :
    ∃ node, ofEntry asio ns = .ok node ∧ s' = ⟨intOfNat i,s.nodes ++ [node]⟩ := by
  obtain ⟨hch,-⟩ | ⟨-,ns',hns',hstep⟩ := nodesStep_cases asio h
  · exact absurd rfl hch
  · obtain rfl : ns = ns' := Except.ok.inj (hns.symm.trans hns')
    exact (hstep.resolve_left fun hnil => hne hnil.1).2

/-- The text cut out for a second entry: from the separator before it on, and as
long as the position of the separator after it. -/
theorem substr_second {first entry rest details : Text}
    (hdetails : details = first ++ semicolon :: (entry ++ semicolon :: rest))
    (hfirst : 0 < first.length) (hshort : first.length < 2 ^ 31) :
    ∃ tail : Text,
      substr details (sizeOfInt (intOfNat first.length)) (first.length + 1 + entry.length) =
        .ok (semicolon :: (entry ++ semicolon :: tail)) := by
  have hdrop : details.drop first.length = semicolon :: (entry ++ semicolon :: rest) := by
    rw [hdetails]
    exact List.drop_left' rfl
  have hlength : first.length ≤ details.length := by
    simp only [hdetails, List.length_append]
    omega
  have hcount : first.length + 1 + entry.length = entry.length + (first.length - 1 + 1) + 1 := by
    omega
  refine ⟨rest.take (first.length - 1),?_⟩
  rw [intOfNat_small hshort, sizeOfInt_natCast (by omega), substr, if_neg (by omega), hdrop,
    hcount, List.take_succ_cons, List.take_append, List.take_of_length_le (by omega),
    Nat.add_sub_cancel_left, List.take_succ_cons]

theorem nodesFromString_one {entry : Text} (hfree : semicolon ∉ entry) (hpos : 0 < entry.length)
    (hlen : (entry ++ [semicolon]).length < 2 ^ 32) :
    nodesFromString asio (entry ++ [semicolon]) = (ofEntry asio entry).map fun n => [n] := by
  have hne : entry ≠ [] := List.length_pos_iff.mp hpos
  have hcut : substr (entry ++ [semicolon]) (sizeOfInt 0) entry.length = .ok entry := by
    simp [substr, sizeOfInt]
  rw [nodesFromString_eq asio hlen, nodesFold_entry asio _ hfree]
  simp only [nodesStep, if_true, Nat.zero_add, hcut, ok_bind, if_neg hne]
  cases ofEntry asio entry <;> rfl

/-- The second entry is read from the separator before it on. -/
theorem nodesFromString_second {first second rest : Text} (hfirst : semicolon ∉ first)
    (hsecond : semicolon ∉ second) (hpos : 0 < first.length) {nodes : List (NetspaceNode V6)}
    (h : nodesFromString asio (first ++ semicolon :: (second ++ semicolon :: rest)) = .ok nodes) :
    ∃ n tail, nodes[1]? = some n ∧
      ofEntry asio (semicolon :: (second ++ semicolon :: tail)) = .ok n := by
  generalize hdetails : first ++ semicolon :: (second ++ semicolon :: rest) = details at h
  have hlength : details.length = first.length + 1 + second.length + 1 + rest.length := by
    simp only [← hdetails, List.length_append, List.length_cons]
    omega
  have hlen : details.length < 2 ^ 32 := by
    by_contra hlong
    exact nodesFromString_long asio (by omega) nodes h
  rw [nodesFromString_eq asio hlen] at h
  obtain ⟨s,hs,hnodes⟩ := bind_eq_ok.mp h
  have hfold := congrArg (nodesFold asio details · 0 ⟨0,[]⟩) hdetails.symm
  rw [hfold, nodesFold_entry asio _ hfirst] at hs
  obtain ⟨s₁,hs₁,hs⟩ := bind_eq_ok.mp hs
  rw [nodesFold_entry asio _ hsecond] at hs
  obtain ⟨s₂,hs₂,hs⟩ := bind_eq_ok.mp hs
  have hkeeps := nodesFold_keeps asio hs
  obtain rfl : s.nodes = nodes := by simpa using hnodes
  rw [Nat.zero_add] at hs₁ hs₂
  have hcut : substr details (sizeOfInt 0) first.length = .ok first := by
    simp [← hdetails, substr, sizeOfInt]
  obtain ⟨m,-,rfl⟩ := nodesStep_separator asio hcut (List.length_pos_iff.mp hpos) hs₁
  by_cases hshort : first.length < 2 ^ 31
  · obtain ⟨tail,hcut'⟩ := substr_second hdetails.symm hpos hshort
    obtain ⟨n,hn,rfl⟩ := nodesStep_separator asio hcut' (List.cons_ne_nil _ _) hs₂
    obtain ⟨others,hothers⟩ := hkeeps
    exact ⟨n,tail,by rw [← hothers]; rfl,hn⟩
  · have hbig := @sizeOfInt_intOfNat_big first.length (by omega) (by omega)
    rw [maxStringSize] at hbig
    have hthrows : details.length < sizeOfInt (intOfNat first.length) := by omega
    simp only [nodesStep, if_true, substr, if_pos hthrows] at hs₂
    contradiction

end Parsing

/-! ### A list of entries -/

structure NodeEntry where
  suid : Text
  hostname : Text
  addr : NetspaceIpv4

namespace NodeEntry

def text (e : NodeEntry) : Text := threeFields e.suid e.hostname (ipv4ToString e.addr)

structure Separable (e : NodeEntry) : Prop where
  suid_free : bar ∉ e.suid ∧ semicolon ∉ e.suid
  hostname_free : bar ∉ e.hostname ∧ semicolon ∉ e.hostname

theorem Separable.semicolon_not_mem {e : NodeEntry} (h : e.Separable) : semicolon ∉ e.text := by
  have haddr : semicolon ∉ ipv4ToString e.addr := ipv4ToString_free e.addr (by decide)
  have hbar : semicolon ≠ bar := by decide
  simp [text, threeFields, h.suid_free.2, h.hostname_free.2, haddr, hbar]

theorem text_length_pos (e : NodeEntry) : 0 < e.text.length := by
  rw [text, threeFields_length]
  omega

end NodeEntry

def entriesText (entries : List NodeEntry) : Text :=
  (entries.map fun e => e.text ++ [semicolon]).flatten

section Entries
variable {V6 : Type} (asio : Ipv6Text V6)

/-- One node for each entry, in its place and with its fields. -/
def EntriesRead (entries : List NodeEntry) : Prop :=
  ∃ nodes, nodesFromString asio (entriesText entries) = .ok nodes ∧
    nodes.map (fun n => (n.suid,n.hostname,n.addr)) =
      entries.map fun e => (e.suid,e.hostname,.v4 e.addr)

theorem entriesText_cons (e : NodeEntry) (entries : List NodeEntry) :
    entriesText (e :: entries) = e.text ++ semicolon :: entriesText entries := by
  simp [entriesText]

theorem entriesRead_single {e : NodeEntry} (he : e.Separable) :
    EntriesRead asio [e] ↔
      EntryExact asio e.suid e.hostname (ipv4ToString e.addr) e.addr ∧
        (entriesText [e]).length < 2 ^ 32 := by
  have htext : entriesText [e] = e.text ++ [semicolon] := by simp [entriesText]
  by_cases hlen : (e.text ++ [semicolon]).length < 2 ^ 32
  · rw [EntriesRead, htext, nodesFromString_one asio he.semicolon_not_mem e.text_length_pos hlen,
      and_iff_left hlen, EntryExact, ← NodeEntry.text]
    cases ofEntry asio e.text <;> simp [Except.map]
  · have hnever := nodesFromString_long asio (le_of_not_gt hlen)
    rw [EntriesRead, htext]
    simp only [hnever, hlen, false_and, exists_false, and_false]

/-- The entry of a list that is short enough for the counters. -/
theorem entryExact_listed {e : NodeEntry} (he : e.Separable)
    (hlen : (entriesText [e]).length < 2 ^ 32) :
    EntryExact asio e.suid e.hostname (ipv4ToString e.addr) e.addr ↔
      (e.hostname ≠ [] ∧ e.suid.length + 1 < 2 ^ 31) ∨ (e.hostname = [] ∧ e.addr = default) := by
  have haddr := ipv4FromString_toString e.addr
  have htotal := threeFields_length e.suid e.hostname (ipv4ToString e.addr)
  have hshort : (threeFields e.suid e.hostname (ipv4ToString e.addr)).length < 2 ^ 32 := by
    simp only [entriesText_cons, List.length_append, List.length_cons, NodeEntry.text] at hlen
    omega
  by_cases hempty : e.hostname = []
  · rw [hempty] at hshort ⊢
    rw [entryExact_empty asio he.suid_free.1 haddr hshort]
    simp
  · have hmax : (threeFields e.suid e.hostname (ipv4ToString e.addr)).length ≤ maxStringSize := by
      rw [maxStringSize]
      omega
    rw [entryExact_fits asio he.suid_free.1 he.hostname_free.1 haddr hempty (by omega) hmax]
    simp only [hempty, not_false_eq_true, ne_eq, true_and, false_and, or_false]

/-- The separator in front of the second entry becomes a part of its first field. -/
theorem nodesFromString_second_suid {e e' : NodeEntry} (he : e.Separable) (he' : e'.Separable)
    {rest : Text} {nodes : List (NetspaceNode V6)}
    (h : nodesFromString asio (e.text ++ semicolon :: (e'.text ++ semicolon :: rest)) = .ok nodes) :
    ∃ n, nodes[1]? = some n ∧ n.suid = semicolon :: e'.suid := by
  have hlen : (e.text ++ semicolon :: (e'.text ++ semicolon :: rest)).length < 2 ^ 32 := by
    by_contra hlong
    exact nodesFromString_long asio (by omega) nodes h
  obtain ⟨n,tail,hn,hentry⟩ := nodesFromString_second asio he.semicolon_not_mem
    he'.semicolon_not_mem e.text_length_pos h
  have hname : bar ∉ semicolon :: e'.suid := by
    have hbar : bar ≠ semicolon := by decide
    simp [he'.suid_free.1, hbar]
  have hk : (semicolon :: e'.suid).length < 2 ^ 32 := by
    simp only [List.length_append, List.length_cons, NodeEntry.text, threeFields] at hlen ⊢
    omega
  refine ⟨n,hn,?_⟩
  apply ofEntry_suid asio hname hk
  simpa [NodeEntry.text, threeFields] using hentry

theorem entriesRead_pair {e e' : NodeEntry} (he : e.Separable) (he' : e'.Separable)
    (entries : List NodeEntry) : ¬ EntriesRead asio (e :: e' :: entries) := by
  intro h
  obtain ⟨nodes,hnodes,hfields⟩ := h
  rw [entriesText_cons, entriesText_cons] at hnodes
  obtain ⟨n,hn,hsuid⟩ := nodesFromString_second_suid asio he he' hnodes
  have hat := congrArg (fun l => l[1]?) hfields
  simp only [List.getElem?_map, hn, List.getElem?_cons_succ, List.getElem?_cons_zero,
    Option.map_some, Option.some.injEq, Prod.mk.injEq] at hat
  exact he'.suid_free.2 (hat.1 ▸ hsuid ▸ List.mem_cons_self)

/-- The parser reads the empty list, and one entry that the counter of the entry fits:
from the second entry on it starts at the separator before the entry. -/
theorem entriesRead_iff {entries : List NodeEntry} (h : ∀ e ∈ entries, e.Separable) :
    EntriesRead asio entries ↔
      entries = [] ∨ ∃ e, entries = [e] ∧ (entriesText entries).length < 2 ^ 32 ∧
        ((e.hostname ≠ [] ∧ e.suid.length + 1 < 2 ^ 31) ∨
          (e.hostname = [] ∧ e.addr = default)) := by
  match entries with
  | [] => simp [EntriesRead, entriesText, nodesFromString_eq, nodesFold]
  | [e] =>
    have he := h e (by simp)
    simp only [entriesRead_single asio he, List.cons_ne_nil, false_or, List.cons.injEq, and_true,
      exists_eq_left']
    rw [and_comm]
    exact and_congr_right (entryExact_listed asio he)
  | e :: e' :: entries =>
    have hpair := entriesRead_pair asio (h e (by simp)) (h e' (by simp)) entries
    simp [hpair]

end Entries

def unitEntry (suid : Text) : NodeEntry := ⟨suid,ascii "node",localhostIpv4⟩

/-- An entry alone is read, and is not in front of another one. -/
theorem entriesRead_iff_one_and_two :
    EntriesRead ipv4Only [unitEntry (ascii "a")] ∧
      ¬ EntriesRead ipv4Only [unitEntry (ascii "a"),unitEntry (ascii "b")] := by
  have ha : (unitEntry (ascii "a")).Separable := ⟨by decide +kernel,by decide +kernel⟩
  have hb : (unitEntry (ascii "b")).Separable := ⟨by decide +kernel,by decide +kernel⟩
  constructor
  · exact (entriesRead_iff ipv4Only (by simpa using ha)).mpr
      (.inr ⟨_,rfl,by decide +kernel,.inl ⟨by decide +kernel,by decide +kernel⟩⟩)
  · intro h
    have hall : ∀ e ∈ [unitEntry (ascii "a"),unitEntry (ascii "b")], e.Separable := by
      intro e he
      rcases List.mem_pair.mp he with rfl | rfl
      · exact ha
      · exact hb
    obtain hnil | ⟨e,he,-⟩ := (entriesRead_iff ipv4Only hall).mp h
    · contradiction
    · simp at he

theorem second_entry_lost :
    (unitEntry (ascii "a")).Separable ∧ (unitEntry (ascii "b")).Separable ∧
      ¬ EntriesRead ipv4Only [unitEntry (ascii "a"),unitEntry (ascii "b")] := by
  have ha : (unitEntry (ascii "a")).Separable := ⟨by decide +kernel,by decide +kernel⟩
  have hb : (unitEntry (ascii "b")).Separable := ⟨by decide +kernel,by decide +kernel⟩
  exact ⟨ha,hb,entriesRead_pair ipv4Only ha hb []⟩

/-! ### What `construct_frame_network` writes -/

section Listing
variable {V6 : Type} (asio : Ipv6Text V6)

def constructFrameNetwork (nodes : List (NetspaceNode V6)) : Text :=
  nodes.foldl (fun ss n =>
    ss ++ (n.hostname ++ [bar] ++ n.suid ++ [bar] ++ n.addr.toString asio ++ [semicolon])) []

def entryText (n : NetspaceNode V6) : Text :=
  n.hostname ++ bar :: (n.suid ++ bar :: n.addr.toString asio)

/-- A node that the listing format is meant for. -/
structure Listable (n : NetspaceNode V6) : Prop where
  hostname_ne : n.hostname ≠ []
  suid_ne : n.suid ≠ []
  hostname_free : bar ∉ n.hostname ∧ semicolon ∉ n.hostname
  suid_free : bar ∉ n.suid ∧ semicolon ∉ n.suid
  ipv4 : ∃ a, n.addr = .v4 a

def listingFields (nodes : List (NetspaceNode V6)) : List (Text × Text × NetspaceAddr V6) :=
  nodes.map fun n => (n.hostname,n.suid,n.addr)

/-- The listing is read, and every node comes back in its place. -/
def ListingReadsBack (nodes : List (NetspaceNode V6)) : Prop :=
  ∃ out, nodesFromString asio (constructFrameNetwork asio nodes) = .ok out ∧
    listingFields out = listingFields nodes

theorem constructFrameNetwork_eq (nodes : List (NetspaceNode V6)) :
    constructFrameNetwork asio nodes =
      (nodes.map fun n => entryText asio n ++ [semicolon]).flatten := by
  rw [constructFrameNetwork, DelimitedText.foldl_append_flatten]
  simp [entryText]

theorem constructFrameNetwork_cons (n : NetspaceNode V6) (nodes : List (NetspaceNode V6)) :
    constructFrameNetwork asio (n :: nodes) =
      entryText asio n ++ semicolon :: constructFrameNetwork asio nodes := by
  simp [constructFrameNetwork_eq]

/-- What is written for a node is the entry of a unit whose names are exchanged. -/
theorem Listable.entry {n : NetspaceNode V6} (h : Listable n) :
    ∃ e : NodeEntry, e.suid = n.hostname ∧ e.hostname = n.suid ∧ n.addr = .v4 e.addr ∧
      e.Separable ∧ e.text = entryText asio n := by
  obtain ⟨a,ha⟩ := h.ipv4
  refine ⟨⟨n.hostname,n.suid,a⟩,rfl,rfl,ha,⟨h.hostname_free,h.suid_free⟩,?_⟩
  rw [NodeEntry.text, entryText, threeFields, ha]
  rfl

theorem listingReadsBack_single {n : NetspaceNode V6} (hn : Listable n) :
    ListingReadsBack asio [n] ↔
      n.hostname = n.suid ∧ (constructFrameNetwork asio [n]).length < 2 ^ 32 := by
  obtain ⟨e,hsuid,hhost,haddr,he,htext⟩ := hn.entry asio
  have hwritten : constructFrameNetwork asio [n] = e.text ++ [semicolon] := by
    simp [constructFrameNetwork_eq, htext]
  have hentries : entriesText [e] = e.text ++ [semicolon] := by simp [entriesText]
  constructor
  · intro h
    obtain ⟨nodes,hnodes,hfields⟩ := h
    rw [hwritten] at hnodes ⊢
    have hlen : (e.text ++ [semicolon]).length < 2 ^ 32 := by
      by_contra hlong
      exact nodesFromString_long asio (by omega) nodes hnodes
    rw [nodesFromString_one asio he.semicolon_not_mem e.text_length_pos hlen] at hnodes
    obtain ⟨node,hnode,rfl⟩ : ∃ node, ofEntry asio e.text = .ok node ∧ [node] = nodes := by
      cases hentry : ofEntry asio e.text <;> simp_all [Except.map]
    have hk : e.suid.length < 2 ^ 32 := by
      simp only [List.length_append, NodeEntry.text, threeFields] at hlen
      omega
    have hfirst := ofEntry_suid asio he.suid_free.1 hk hnode
    simp only [listingFields, List.map_cons, List.map_nil, List.cons.injEq, Prod.mk.injEq,
      and_true] at hfields
    exact ⟨by rw [← hsuid, ← hfirst, hfields.2.1],hlen⟩
  · intro h
    obtain ⟨hsame,hlen⟩ := h
    rw [hwritten, ← hentries] at hlen
    have hnames : e.hostname = e.suid := by rw [hhost, hsuid, hsame]
    have hfits : e.hostname ≠ [] ∧ e.suid.length + 1 < 2 ^ 31 := by
      refine ⟨hhost ▸ hn.suid_ne,?_⟩
      simp only [hentries, List.length_append, NodeEntry.text, threeFields, List.length_cons,
        hnames] at hlen
      omega
    have hexact := (entryExact_listed asio he hlen).mpr (Or.inl hfits)
    obtain ⟨nodes,hnodes,hfields⟩ := (entriesRead_single asio he).mpr ⟨hexact,hlen⟩
    rw [hentries, ← hwritten] at hnodes
    refine ⟨nodes,hnodes,?_⟩
    obtain ⟨node,rfl,hnode⟩ := List.map_eq_singleton_iff.mp hfields
    simp only [Prod.mk.injEq] at hnode
    simp only [listingFields, List.map_cons, List.map_nil, hnode.1, hnode.2.1, hnode.2.2, hhost,
      hsuid, hsame, haddr]

theorem listingReadsBack_pair {m n : NetspaceNode V6} (hm : Listable m) (hn : Listable n)
    (nodes : List (NetspaceNode V6)) : ¬ ListingReadsBack asio (m :: n :: nodes) := by
  intro h
  obtain ⟨out,hout,hfields⟩ := h
  obtain ⟨e,-,-,-,he,htext⟩ := hm.entry asio
  obtain ⟨e',-,-,-,he',htext'⟩ := hn.entry asio
  rw [constructFrameNetwork_cons, constructFrameNetwork_cons, ← htext, ← htext'] at hout
  obtain ⟨node,hnode,hsuid⟩ := nodesFromString_second_suid asio he he' hout
  have hat := congrArg (fun l => l[1]?) hfields
  simp only [listingFields, List.getElem?_map, hnode, List.getElem?_cons_succ,
    List.getElem?_cons_zero, Option.map_some, Option.some.injEq, Prod.mk.injEq] at hat
  exact hn.suid_free.2 (hat.2.1 ▸ hsuid ▸ List.mem_cons_self)

/-- The listing reads back the empty list, and one node whose two names are the
same: the decoder takes the names in the other order, and from the second entry
on it starts at the separator before it. -/
theorem listingReadsBack_iff {nodes : List (NetspaceNode V6)} (h : ∀ n ∈ nodes, Listable n) :
    ListingReadsBack asio nodes ↔
      nodes = [] ∨ ∃ n, nodes = [n] ∧ n.hostname = n.suid ∧
        (constructFrameNetwork asio nodes).length < 2 ^ 32 := by
  match nodes with
  | [] => simp [ListingReadsBack, constructFrameNetwork, nodesFromString_eq, nodesFold]
  | [n] =>
    rw [listingReadsBack_single asio (h n (by simp))]
    simp
  | m :: n :: nodes =>
    have hpair := listingReadsBack_pair asio (h m (by simp)) (h n (by simp)) nodes
    simp [hpair]

end Listing

def loopback (host suid : Text) : NetspaceNode Empty :=
  { (empty : NetspaceNode Empty) with
    addr := localhost, hostname := host, suid := suid }

/-- One node with two equal names, one with two different ones, and two nodes. -/
theorem listingReadsBack_iff_names :
    ListingReadsBack ipv4Only [loopback (ascii "node") (ascii "node")] ∧
      ¬ ListingReadsBack ipv4Only [loopback (ascii "node") (ascii "unit")] ∧
      ¬ ListingReadsBack ipv4Only
        [loopback (ascii "node") (ascii "node"),loopback (ascii "unit") (ascii "unit")] := by
  have hnode : Listable (loopback (ascii "node") (ascii "node")) :=
    ⟨by decide +kernel,by decide +kernel,by decide +kernel,by decide +kernel,_,rfl⟩
  have hnames : Listable (loopback (ascii "node") (ascii "unit")) :=
    ⟨by decide +kernel,by decide +kernel,by decide +kernel,by decide +kernel,_,rfl⟩
  have hunit : Listable (loopback (ascii "unit") (ascii "unit")) :=
    ⟨by decide +kernel,by decide +kernel,by decide +kernel,by decide +kernel,_,rfl⟩
  refine ⟨?_,fun h => ?_,fun h => ?_⟩
  · exact (listingReadsBack_iff ipv4Only (by simpa using hnode)).mpr
      (.inr ⟨_,rfl,rfl,by decide +kernel⟩)
  · obtain hnil | ⟨n,hn,hsame,-⟩ := (listingReadsBack_iff ipv4Only (by simpa using hnames)).mp h
    · contradiction
    · obtain rfl := (List.singleton_inj.mp hn)
      exact absurd hsame (by decide +kernel)
  · have hall : ∀ n ∈ [loopback (ascii "node") (ascii "node"),
        loopback (ascii "unit") (ascii "unit")], Listable n := by
      intro n hn
      rcases List.mem_pair.mp hn with rfl | rfl
      · exact hnode
      · exact hunit
    obtain hnil | ⟨n,hn,-⟩ := (listingReadsBack_iff ipv4Only hall).mp h
    · contradiction
    · simp at hn

theorem two_names_exchanged :
    Listable (loopback (ascii "node") (ascii "unit")) ∧
      ¬ ListingReadsBack ipv4Only [loopback (ascii "node") (ascii "unit")] := by
  have hnode : Listable (loopback (ascii "node") (ascii "unit")) :=
    ⟨by decide +kernel,by decide +kernel,by decide +kernel,by decide +kernel,_,rfl⟩
  refine ⟨hnode,fun h => ?_⟩
  have hnames := ((listingReadsBack_single ipv4Only hnode).mp h).1
  exact absurd hnames (by decide +kernel)

end GsnNode
