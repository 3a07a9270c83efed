import GsnNode.BufferHeap
import GsnNode.DvspPacket
import GsnNode.StepRuns

/-! The content buffers of all packets on one heap: who owns them, and when they are
released. -/

set_option autoImplicit false

namespace GsnNode
open ByteWords MemoryRegion BufferHeap StepRuns

/-- A `dvsp_packet` with its pointer: null or the name of a buffer. -/
structure PacketObject where
  header : DvspHeader
  content : Option Nat
  deriving DecidableEq

namespace PacketObject

/-- `delete[] m_content`; a buffer that is not live is released twice. -/
def deleteContent (heap : Heap UInt8) (p : PacketObject) : Call (Heap UInt8) :=
  match p.content with
  | none => pure heap
  | some i =>
    match lookup heap i with
    | some _ => pure (release heap i)
    | none => undefined

/-- `reset(size)` and the copy of the data, which follows it in every caller. -/
def reset (heap : Heap UInt8) (p : PacketObject) (data : List UInt8) :
    Call (Heap UInt8 × PacketObject) := do
  let heap ← p.deleteContent heap
  let header := { p.header with size := UInt32.ofNat data.length }
  if data = [] then pure (heap,⟨header,p.content⟩)
  else pure (allocate heap data,⟨header,some heap.length⟩)

/-- The packet as it is seen without the heap. -/
def view (heap : Heap UInt8) (p : PacketObject) : DvspPacket :=
  ⟨p.header,
    match p.content with
    | none => .null
    | some i =>
      match lookup heap i with
      | some data => .live data
      | none => .released⟩

end PacketObject

/-- All packets, by name, and their buffers; none where no packet lives. -/
structure PacketWorld (T : Type) where
  heap : Heap UInt8
  packets : T → Option PacketObject

namespace PacketWorld
variable {T : Type}

def init : PacketWorld T := ⟨[],fun _ => none⟩

inductive Op (T : Type) where
  | construct : T → Op T
  | deserialise : T → Region → Op T
  /-- `dvsp_packet x(orig)`, and what is found behind the content of `orig` -/
  | copy : T → T → Beyond → Op T
  | strContent : T → Text → Op T
  | copyContent : T → List UInt8 → Op T
  | clear : T → Op T
  | destroy : T → Op T

section Steps
variable [DecidableEq T] (w : PacketWorld T)

def setPacket (x : T) (heap : Heap UInt8) (p : Option PacketObject) : PacketWorld T :=
  ⟨heap,Function.update w.packets x p⟩

def construct (x : T) : Call (PacketWorld T) := pure (w.setPacket x w.heap (some ⟨.init,none⟩))

def deserialise (x : T) (serial : Region) : Call (PacketWorld T) := do
  let bs ← load serial 0 DvspHeader.sizeOf
  let header := DvspHeader.ofBytes bs
  if header.size = 0 then pure (w.setPacket x w.heap (some ⟨header,none⟩))
  else do
    let content ← load serial DvspHeader.sizeOf header.size.toNat
    pure (w.setPacket x (allocate w.heap content) (some ⟨header,some w.heap.length⟩))

def copy (x orig : T) (beyond : Beyond) : Call (PacketWorld T) :=
  match w.packets orig with
  | none => undefined
  | some o => do
    let bs ← (o.view w.heap).content.read beyond 0 o.header.size.toNat
    pure (w.setPacket x (allocate w.heap bs) (some ⟨o.header,some w.heap.length⟩))

def changeContent (x : T) (f : PacketObject → PacketObject) (data : List UInt8) :
    Call (PacketWorld T) :=
  match w.packets x with
  | none => undefined
  | some p => do
    let (heap,p) ← (f p).reset w.heap data
    pure (w.setPacket x heap (some p))

def strContent (x : T) (data : Text) : Call (PacketWorld T) := w.changeContent x id data

def copyContent (x : T) (data : List UInt8) : Call (PacketWorld T) := w.changeContent x id data

def clear (x : T) : Call (PacketWorld T) := w.changeContent x (fun p => { p with header := .init }) []

def destroy (x : T) : Call (PacketWorld T) :=
  match w.packets x with
  | none => undefined
  | some p => do
    let heap ← p.deleteContent w.heap
    pure (w.setPacket x heap none)

def step : Op T → Call (PacketWorld T)
  | .construct x => w.construct x
  | .deserialise x serial => w.deserialise x serial
  | .copy x orig beyond => w.copy x orig beyond
  | .strContent x data => w.strContent x data
  | .copyContent x data => w.copyContent x data
  | .clear x => w.clear x
  | .destroy x => w.destroy x

/-- What the language asks of a program: an object is made once, used while it lives,
and made from bytes that are there. -/
def Applicable : Op T → Prop
  | .construct x => w.packets x = none
  | .deserialise x serial => w.packets x = none ∧ ∃ p, DvspPacket.deserialise serial = .ok p
  | .copy x orig _ => w.packets x = none ∧ ∃ p, w.packets orig = some p
  | .strContent x _ | .copyContent x _ | .clear x | .destroy x => ∃ p, w.packets x = some p

/-- Whether this content may be set: it is not too long for the header, and if it is
empty there is no buffer to lose. -/
def MaySet (x : T) (data : List UInt8) : Prop :=
  data.length < 2 ^ 32 ∧ (data = [] → ∀ p, w.packets x = some p → p.content = none)

def Allowed : Op T → Prop
  | .strContent x data | .copyContent x data => w.MaySet x data
  | .clear x => w.MaySet x []
  | .construct _ | .deserialise _ _ | .copy _ _ _ | .destroy _ => True

end Steps

/-! ### Ownership -/

def pointer (w : PacketWorld T) (x : T) : Option Nat := (w.packets x).bind PacketObject.content

/-- Every content is null or a live buffer of this packet alone, as long as the
header says, and no buffer is lost. -/
structure Owned (w : PacketWorld T) : Prop where
  buffers : BufferHeap.Owned w.heap w.pointer
  sized : ∀ x p i data, w.packets x = some p → p.content = some i → lookup w.heap i = some data →
    data.length = p.header.size.toNat

/-- A packet without a buffer says that it has no content. -/
def NullEmpty (w : PacketWorld T) : Prop :=
  ∀ x p, w.packets x = some p → p.content = none → p.header.size = 0

section Invariants
variable {w : PacketWorld T}

theorem Owned.wellFormed (h : w.Owned) (hnull : w.NullEmpty) {x : T} {p : PacketObject}
    (hx : w.packets x = some p) : (p.view w.heap).WellFormed := by
  cases hc : p.content with
  | none => exact ⟨by simp [PacketObject.view, hc],by simp [PacketObject.view, hc, DvspPacket.bytes, hnull x p hx hc]⟩
  | some i =>
    obtain ⟨data,hdata⟩ := h.buffers.live x i (by simp [pointer, hx, hc])
    have hsize := h.sized x p i data hx hc hdata
    exact ⟨by simp [PacketObject.view, hc, hdata],by simp [PacketObject.view, hc, hdata, DvspPacket.bytes, hsize]⟩

theorem init_owned : (init : PacketWorld T).Owned :=
  ⟨⟨by simp [init, pointer],by simp [init, pointer],by simp [init, lookup]⟩,by simp [init]⟩

variable [DecidableEq T]

theorem pointer_setPacket (w : PacketWorld T) (x : T) (heap : Heap UInt8) (o : Option PacketObject) :
    (w.setPacket x heap o).pointer = Function.update w.pointer x (o.bind PacketObject.content) := by
  funext y
  by_cases h : y = x
  · subst h
    simp [pointer, setPacket]
  · simp [pointer, setPacket, h]

theorem setPacket_setPacket (w : PacketWorld T) (x : T) (heap heap' : Heap UInt8)
    (o o' : Option PacketObject) :
    (w.setPacket x heap o).setPacket x heap' o' = w.setPacket x heap' o' := by
  simp [setPacket]

theorem setPacket_other {w : PacketWorld T} {x y : T} {heap : Heap UInt8} {o : Option PacketObject}
    {p : PacketObject} (hy : (w.setPacket x heap o).packets y = some p) :
    (y = x ∧ o = some p) ∨ (y ≠ x ∧ w.packets y = some p) := by
  by_cases h : y = x
  · subst h
    exact .inl ⟨rfl,by simpa [setPacket] using hy⟩
  · exact .inr ⟨h,by simpa [setPacket, h] using hy⟩

theorem Owned.set_null (h : w.Owned) {x : T} (hx : w.pointer x = none) {o : Option PacketObject}
    (ho : o.bind PacketObject.content = none) : (w.setPacket x w.heap o).Owned := by
  refine ⟨?_,?_⟩
  · rw [pointer_setPacket, ho]
    exact h.buffers.drop_null hx
  · intro y p i data hy hi hdata
    rcases setPacket_other hy with ⟨-,rfl⟩ | ⟨-,hy⟩
    · simp [hi] at ho
    · exact h.sized y p i data hy hi hdata

theorem Owned.released (h : w.Owned) {x : T} {i : Nat} (hx : w.pointer x = some i) :
    (w.setPacket x (release w.heap i) none).Owned := by
  refine ⟨?_,?_⟩
  · rw [pointer_setPacket]
    exact h.buffers.drop_released hx
  · intro y p j data hy hj hdata
    rcases setPacket_other hy with ⟨-,hnone⟩ | ⟨-,hy⟩
    · contradiction
    · simp only [setPacket, lookup_release] at hdata
      split at hdata
      · contradiction
      · exact h.sized y p j data hy hj hdata

/-- A new buffer is owned if it has the length that the header says. -/
theorem Owned.allocated_iff (h : w.Owned) {x : T} (hx : w.pointer x = none) (header : DvspHeader)
    (data : List UInt8) :
    (w.setPacket x (allocate w.heap data) (some ⟨header,some w.heap.length⟩)).Owned ↔
      data.length = header.size.toNat := by
  constructor
  · intro hnew
    exact hnew.sized x ⟨header,some w.heap.length⟩ w.heap.length data (by simp [setPacket]) rfl
      (by simp [setPacket, lookup_allocate])
  · intro hlen
    refine ⟨?_,?_⟩
    · rw [pointer_setPacket]
      exact h.buffers.give hx data
    · intro y p i bs hy hi hbs
      simp only [setPacket, lookup_allocate] at hbs
      rcases setPacket_other hy with ⟨-,hp⟩ | ⟨hne,hy⟩
      · cases hp
        cases hi
        rw [if_pos rfl] at hbs
        cases hbs
        exact hlen
      · split at hbs
        · rename_i heq
          obtain ⟨old,hold⟩ := h.buffers.live y i (by simp [pointer, hy, hi])
          rw [heq, lookup_length] at hold
          contradiction
        · exact h.sized y p i bs hy hi hbs

theorem Owned.deleteContent (h : w.Owned) {x : T} {p : PacketObject} (hx : w.packets x = some p) :
    ∃ heap, p.deleteContent w.heap = .ok heap ∧ (w.setPacket x heap none).Owned ∧
      (p.content = none → heap = w.heap) ∧ ∀ i, p.content = some i → heap = release w.heap i := by
  cases hc : p.content with
  | none =>
    refine ⟨w.heap,by simp [PacketObject.deleteContent, hc],?_,fun _ => rfl,by simp⟩
    exact h.set_null (by simp [pointer, hx, hc]) rfl
  | some i =>
    have hpointer : w.pointer x = some i := by simp [pointer, hx, hc]
    obtain ⟨data,hdata⟩ := h.buffers.live x i hpointer
    refine ⟨release w.heap i,by simp [PacketObject.deleteContent, hc, hdata],h.released hpointer,
      by simp,?_⟩
    intro j hj
    cases hj
    rfl

theorem allocated_length (n : Nat) : n = (UInt32.ofNat n).toNat ↔ n < 2 ^ 32 := by
  rw [UInt32.toNat_ofNat']
  omega

/-- New content leaves every buffer with its owner exactly if it may be set. -/
theorem Owned.changeContent_iff (h : w.Owned) {x : T} {p : PacketObject}
    (hx : w.packets x = some p) {f : PacketObject → PacketObject}
    (hf : ∀ p, (f p).content = p.content) (data : List UInt8) :
    (∃ w', w.changeContent x f data = .ok w' ∧ w'.Owned) ↔ w.MaySet x data := by
  obtain ⟨heap,hdel,hvacant,hsame,hrelease⟩ := h.deleteContent hx
  have hdel' : (f p).deleteContent w.heap = .ok heap := by
    rw [← hdel, PacketObject.deleteContent, PacketObject.deleteContent, hf p]
  by_cases hdata : data = []
  · subst hdata
    simp only [changeContent, hx, PacketObject.reset, hdel', ok_bind, if_true, pure_eq_ok, hf,
      Except.ok.injEq, exists_eq_left', MaySet, Option.some.injEq, forall_eq', true_imp_iff,
      List.length_nil, Nat.two_pow_pos, true_and]
    constructor
    · intro hnew
      by_contra hc
      obtain ⟨i,hi⟩ := Option.ne_none_iff_exists'.mp hc
      rw [hrelease i hi] at hnew
      have hpointer : (w.setPacket x (release w.heap i)
          (some ⟨{ (f p).header with size := UInt32.ofNat 0 },p.content⟩)).pointer x = some i := by
        simp [pointer, setPacket, hi]
      exact not_owned_dangling hpointer hnew.buffers
    · intro hc
      rw [hsame hc]
      exact h.set_null (by simp [pointer, hx, hc]) hc
  · have hgive := hvacant.allocated_iff (x := x) (by simp [pointer, setPacket])
      { (f p).header with size := UInt32.ofNat data.length } data
    simp only [setPacket_setPacket] at hgive
    simp only [changeContent, hx, PacketObject.reset, hdel', ok_bind, hdata, if_false, pure_eq_ok,
      Except.ok.injEq, exists_eq_left', MaySet, false_imp_iff, and_true]
    exact hgive.trans (allocated_length data.length)

theorem Owned.copy_ok (h : w.Owned) (hnull : w.NullEmpty) {x orig : T} {o : PacketObject}
    (hx : w.packets x = none) (horig : w.packets orig = some o) (beyond : Beyond) :
    ∃ w', w.copy x orig beyond = .ok w' ∧ w'.Owned := by
  have hread := (h.wellFormed hnull horig).read_all beyond
  have hsize : (o.view w.heap).header.size = o.header.size := rfl
  rw [hsize] at hread
  refine ⟨_,by simp only [copy, horig, hread, ok_bind]; rfl,?_⟩
  rw [h.allocated_iff (by simp [pointer, hx])]
  exact (h.wellFormed hnull horig).size_eq

theorem Owned.deserialise_ok (h : w.Owned) {x : T} (hx : w.packets x = none) {serial : Region}
    {p : DvspPacket} (hserial : DvspPacket.deserialise serial = .ok p) :
    ∃ w', w.deserialise x serial = .ok w' ∧ w'.Owned := by
  have hpointer : w.pointer x = none := by simp [pointer, hx]
  obtain ⟨bs,hbs,hserial⟩ := bind_eq_ok.mp hserial
  simp only [deserialise, hbs, ok_bind]
  by_cases hsize : (DvspHeader.ofBytes bs).size = 0
  · rw [if_pos hsize]
    exact ⟨_,rfl,h.set_null hpointer rfl⟩
  · rw [if_neg hsize] at hserial ⊢
    obtain ⟨content,hcontent,-⟩ := bind_eq_ok.mp hserial
    rw [hcontent]
    refine ⟨_,rfl,?_⟩
    rw [h.allocated_iff hpointer]
    exact load_length hcontent

/-- A step of a program from a state in which every buffer has its owner. -/
theorem Owned.step_iff (h : w.Owned) (hnull : w.NullEmpty) {op : Op T} (hop : w.Applicable op) :
    (∃ w', w.step op = .ok w' ∧ w'.Owned) ↔ w.Allowed op := by
  cases op with
  | construct x =>
    have hpointer : w.pointer x = none := by simp [pointer, show w.packets x = none from hop]
    exact iff_of_true ⟨_,rfl,h.set_null hpointer rfl⟩ trivial
  | deserialise x serial =>
    obtain ⟨hx,p,hserial⟩ := hop
    exact iff_of_true (h.deserialise_ok hx hserial) trivial
  | copy x orig beyond =>
    obtain ⟨hx,o,horig⟩ := hop
    exact iff_of_true (h.copy_ok hnull hx horig beyond) trivial
  | strContent x data =>
    obtain ⟨p,hx⟩ := hop
    exact h.changeContent_iff hx (fun _ => rfl) data
  | copyContent x data =>
    obtain ⟨p,hx⟩ := hop
    exact h.changeContent_iff hx (fun _ => rfl) data
  | clear x =>
    obtain ⟨p,hx⟩ := hop
    exact h.changeContent_iff (f := fun p => { p with header := .init }) hx (fun _ => rfl) []
  | destroy x =>
    obtain ⟨p,hx⟩ := hop
    obtain ⟨heap,hdel,hvacant,-,-⟩ := h.deleteContent hx
    exact iff_of_true ⟨_,by simp only [step, destroy, hx, hdel, ok_bind]; rfl,hvacant⟩ trivial

theorem NullEmpty.setPacket (h : w.NullEmpty) (x : T) (heap : Heap UInt8)
    {o : Option PacketObject}
    (ho : ∀ p, o = some p → p.content = none → p.header.size = 0) :
    (w.setPacket x heap o).NullEmpty := by
  intro y p hy hp
  rcases setPacket_other hy with ⟨-,ho'⟩ | ⟨-,hy⟩
  · exact ho p ho' hp
  · exact h y p hy hp

theorem NullEmpty.changeContent (h : w.NullEmpty) {w' : PacketWorld T} {x : T}
    {f : PacketObject → PacketObject} {data : List UInt8}
    (hw' : w.changeContent x f data = .ok w') : w'.NullEmpty := by
  simp only [PacketWorld.changeContent] at hw'
  split at hw'
  · contradiction
  · obtain ⟨⟨heap,p⟩,hreset,hw'⟩ := bind_eq_ok.mp hw'
    obtain ⟨heap',-,hreset⟩ := bind_eq_ok.mp hreset
    obtain rfl := Except.ok.inj hw'
    refine h.setPacket x heap ?_
    intro q hq hnull
    cases hq
    split at hreset
    · rename_i hdata
      cases hreset
      simp [hdata]
    · cases hreset
      contradiction

theorem NullEmpty.step (h : w.NullEmpty) {w' : PacketWorld T} {op : Op T}
    (hw' : w.step op = .ok w') : w'.NullEmpty := by
  cases op with
  | construct x =>
    cases hw'
    refine h.setPacket x _ ?_
    rintro p hp -
    cases hp
    rfl
  | deserialise x serial =>
    obtain ⟨bs,-,hw'⟩ := bind_eq_ok.mp hw'
    dsimp only at hw'
    split at hw'
    · rename_i hsize
      cases hw'
      refine h.setPacket x _ ?_
      rintro p hp -
      cases hp
      exact hsize
    · obtain ⟨content,-,hw'⟩ := bind_eq_ok.mp hw'
      cases hw'
      exact h.setPacket x _ (by simp)
  | copy x orig beyond =>
    simp only [PacketWorld.step, copy] at hw'
    split at hw'
    · contradiction
    · obtain ⟨bs,-,hw'⟩ := bind_eq_ok.mp hw'
      cases hw'
      exact h.setPacket x _ (by simp)
  | strContent x data => exact NullEmpty.changeContent h hw'
  | copyContent x data => exact NullEmpty.changeContent h hw'
  | clear x => exact NullEmpty.changeContent h hw'
  | destroy x =>
    simp only [PacketWorld.step, destroy] at hw'
    split at hw'
    · contradiction
    · obtain ⟨heap,-,hw'⟩ := bind_eq_ok.mp hw'
      cases hw'
      exact h.setPacket x heap (by simp)

/-! ### Runs -/

/-- A run goes on only as long as nothing undefined has happened. -/
def next (r : Call (PacketWorld T)) (op : Op T) : Call (PacketWorld T) := r >>= fun w => w.step op

/-- A sequence of operations that the language accepts. -/
def Program (ops : List (Op T)) : Prop :=
  EachStep next (fun r op => ∀ w, r = .ok w → w.Applicable op) (.ok init) ops

/-- Nothing undefined happens, and every buffer always has its one owner. -/
def OwnedOnce (ops : List (Op T)) : Prop :=
  Throughout next (fun r => ∃ w, r = .ok w ∧ w.Owned) (.ok init) ops

/-- Where every buffer has its owner, it still has after a step exactly if that is allowed. -/
theorem Program.allowed_iff {ops : List (Op T)} (hops : Program ops) :
    EachStep next (fun r op => (∃ w, r = .ok w ∧ w.Owned) →
      ((∃ w, next r op = .ok w ∧ w.Owned) ↔ ∀ w, r = .ok w → w.Allowed op)) (.ok init) ops := by
  have hnull : Throughout next (fun r => ∀ w : PacketWorld T, r = .ok w → w.NullEmpty)
      (.ok init) ops := by
    refine invariant ?_ ?_
    · intro op _ r hr w' hw'
      obtain ⟨w,rfl,hw'⟩ := bind_eq_ok.mp hw'
      exact (hr w rfl).step hw'
    · intro w hw
      cases hw
      simp [NullEmpty, init]
  rintro before op after heq ⟨w,hw,howned⟩
  have hop := hops before op after heq w hw
  have hempty := hnull before (op :: after) heq w hw
  rw [hw]
  simp only [Except.ok.injEq, forall_eq']
  exact howned.step_iff hempty hop

/-- Every buffer is owned by one packet throughout a program exactly if no content is
too long for the header and no buffer is exchanged for an empty content. -/
theorem ownedOnce_iff {ops : List (Op T)} (hops : Program ops) :
    OwnedOnce ops ↔
      EachStep next (fun r op => ∀ w, r = .ok w → w.Allowed op) (.ok init) ops :=
  throughout_iff hops.allowed_iff ⟨init,rfl,init_owned⟩

/-- When all packets of such a program are gone, so are their buffers. -/
theorem OwnedOnce.all_released {ops : List (Op T)} (h : OwnedOnce ops)
    (hw : ops.foldl next (.ok init) = .ok w) (hnone : ∀ x, w.packets x = none) (i : Nat) :
    lookup w.heap i = none := by
  obtain ⟨w',hw',howned⟩ := h.last
  obtain rfl : w = w' := Except.ok.inj (hw.symm.trans hw')
  exact howned.buffers.all_released (by simp [pointer, hnone]) i

end Invariants

/-- A text, and then none. -/
def emptied : List (Op Unit) := [.construct (),.strContent () (ascii "x"),.strContent () []]

/-- A copy, which then gets a content of its own and outlives the packet. -/
def copied : List (Op Bool) :=
  [.construct false,.strContent false (ascii "ab"),.copy true false fun _ => none,
    .copyContent true (ascii "c"),.destroy false]

theorem eachOp_cons {T : Type} [DecidableEq T] {Q : PacketWorld T → Op T → Prop}
    {r : Call (PacketWorld T)} {w : PacketWorld T} {op : Op T} {ops : List (Op T)} (hr : r = .ok w)
    (hop : Q w op) (hops : EachStep next (fun r op => ∀ w, r = .ok w → Q w op) (next r op) ops) :
    EachStep next (fun r op => ∀ w, r = .ok w → Q w op) r (op :: ops) := by
  refine eachStep_cons.mpr ⟨?_,hops⟩
  intro w' hw'
  rw [hr, Except.ok.injEq] at hw'
  exact hw' ▸ hop

theorem emptied_program : Program emptied := by
  refine eachOp_cons rfl rfl (eachOp_cons rfl ⟨_,rfl⟩ (eachOp_cons rfl ⟨_,rfl⟩ ?_))
  exact eachStep_nil

theorem copied_program : Program copied := by
  refine eachOp_cons rfl rfl (eachOp_cons rfl ⟨_,rfl⟩ (eachOp_cons rfl ⟨rfl,_,rfl⟩
    (eachOp_cons rfl ⟨_,rfl⟩ (eachOp_cons rfl ⟨_,rfl⟩ ?_))))
  exact eachStep_nil

theorem copied_allowed :
    EachStep next (fun r op => ∀ w, r = .ok w → w.Allowed op) (.ok init) copied := by
  refine eachOp_cons rfl trivial (eachOp_cons rfl ⟨by decide,fun h => absurd h (by decide)⟩
    (eachOp_cons rfl trivial (eachOp_cons rfl ⟨by decide,fun h => absurd h (by decide)⟩
      (eachOp_cons rfl trivial ?_))))
  exact eachStep_nil

/-- A program with a copy, and one that empties a packet. -/
theorem ownedOnce_iff_copied : OwnedOnce copied ∧ ¬ OwnedOnce emptied := by
  refine ⟨(ownedOnce_iff copied_program).mpr copied_allowed,fun h => ?_⟩
  have hallowed := (ownedOnce_iff emptied_program).mp h
    [.construct (),.strContent () (ascii "x")] (.strContent () []) [] rfl _ rfl
  exact absurd (hallowed.2 rfl _ rfl) (by decide)

theorem emptied_not_owned : Program emptied ∧ ¬ OwnedOnce emptied := by
  refine ⟨emptied_program,fun h => ?_⟩
  obtain ⟨w,hw,howned⟩ := h.last
  have hpointer : w.pointer () = some 0 := by
    cases hw
    rfl
  obtain ⟨data,hdata⟩ := howned.buffers.live () 0 hpointer
  cases hw
  contradiction

end PacketWorld
end GsnNode
