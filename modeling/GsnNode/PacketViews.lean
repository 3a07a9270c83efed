import GsnNode.BufferOwnership

/-! Packets on the heap and packets as values: as long as every buffer has its one
owner, nothing that a packet does depends on where its buffer is. -/

set_option autoImplicit false

namespace GsnNode
open ByteWords MemoryRegion BufferHeap StepRuns

namespace PacketObject

theorem view_congr {heap heap' : Heap UInt8} {p : PacketObject}
    (h : ∀ i, p.content = some i → lookup heap' i = lookup heap i) : p.view heap' = p.view heap := by
  cases hc : p.content with
  | none => simp [view, hc]
  | some i => simp [view, hc, h i hc]

theorem deleteContent_ok {heap heap' : Heap UInt8} {p : PacketObject}
    (h : p.deleteContent heap = .ok heap') :
    (p.content = none ∧ heap' = heap) ∨ ∃ i, p.content = some i ∧ heap' = release heap i := by
  cases hc : p.content with
  | none =>
    have heq : heap = heap' := by simpa [deleteContent, hc] using h
    exact .inl ⟨rfl,heq.symm⟩
  | some i =>
    cases hi : lookup heap i with
    | none => simp [deleteContent, hc, hi, undefined] at h
    | some data =>
      have heq : release heap i = heap' := by simpa [deleteContent, hc, hi] using h
      exact .inr ⟨i,rfl,heq.symm⟩

theorem deleteContent_lookup {heap heap' : Heap UInt8} {p : PacketObject}
    (h : p.deleteContent heap = .ok heap') {j : Nat} (hj : p.content ≠ some j) :
    lookup heap' j = lookup heap j := by
  rcases deleteContent_ok h with ⟨-,rfl⟩ | ⟨i,hi,rfl⟩
  · rfl
  · rw [lookup_release, if_neg]
    intro heq
    exact hj (by rw [hi, heq])

theorem deleteContent_length {heap heap' : Heap UInt8} {p : PacketObject}
    (h : p.deleteContent heap = .ok heap') : heap'.length = heap.length := by
  rcases deleteContent_ok h with ⟨-,rfl⟩ | ⟨i,-,rfl⟩
  · rfl
  · exact release_length heap i

theorem deleteContent_destroy (heap : Heap UInt8) (p : PacketObject) :
    (p.deleteContent heap).map (fun _ => ()) = (p.view heap).destroy := by
  cases hc : p.content with
  | none => simp [deleteContent, view, hc, DvspPacket.destroy, Except.map]
  | some i =>
    cases hi : lookup heap i <;>
      simp [deleteContent, view, hc, hi, DvspPacket.destroy, Except.map, undefined]

/-- New content is set as if the packet held it itself. -/
theorem reset_view (heap : Heap UInt8) (p : PacketObject) (data : List UInt8) :
    (p.reset heap data).map (fun r => r.2.view r.1) = (p.view heap).reset data := by
  cases hc : p.content with
  | none =>
    by_cases hdata : data = [] <;>
      simp [reset, deleteContent, view, hc, hdata, DvspPacket.reset, Except.map, lookup_allocate]
  | some i =>
    cases hi : lookup heap i with
    | none => simp [reset, deleteContent, view, hc, hi, DvspPacket.reset, Except.map, undefined]
    | some old =>
      by_cases hdata : data = [] <;>
        simp [reset, deleteContent, view, hc, hi, hdata, DvspPacket.reset, Except.map,
          lookup_allocate, lookup_release]

/-- A packet with another buffer does not see the change. -/
theorem reset_frame {heap heap' : Heap UInt8} {p p' q : PacketObject} {data : List UInt8}
    (h : p.reset heap data = .ok (heap',p')) (hother : ∀ i, q.content = some i → p.content ≠ some i)
    (hold : ∀ i, q.content = some i → i < heap.length) : q.view heap' = q.view heap := by
  obtain ⟨heap₁,hdelete,h⟩ := bind_eq_ok.mp h
  refine view_congr fun i hi => ?_
  have hlookup := deleteContent_lookup hdelete (hother i hi)
  dsimp only at h
  split at h
  · cases h
    exact hlookup
  · cases h
    have hlength := deleteContent_length hdelete
    have hlt := hold i hi
    rw [lookup_allocate, if_neg (by omega), hlookup]

end PacketObject

namespace PacketWorld
variable {T : Type}

/-- The packets that live, as values. -/
def seen (w : PacketWorld T) (x : T) : Option DvspPacket := (w.packets x).map (·.view w.heap)

theorem Owned.content_lt {w : PacketWorld T} (h : w.Owned) {y : T} {p : PacketObject}
    (hy : w.packets y = some p) {i : Nat} (hi : p.content = some i) : i < w.heap.length := by
  obtain ⟨data,hdata⟩ := h.buffers.live y i (by simp [pointer, hy, hi])
  by_contra hle
  rw [lookup, List.getD_eq_getElem?_getD, List.getElem?_eq_none (by omega)] at hdata
  contradiction

theorem Owned.content_ne {w : PacketWorld T} (h : w.Owned) {x y : T} {p q : PacketObject}
    (hx : w.packets x = some p) (hy : w.packets y = some q) (hne : y ≠ x) {i : Nat}
    (hi : q.content = some i) : p.content ≠ some i :=
  fun hp => hne (h.buffers.alone y x i (by simp [pointer, hy, hi]) (by simp [pointer, hx, hp]))

variable [DecidableEq T]

/-- The same operations on packets as values. -/
def changeSeen (seen : T → Option DvspPacket) (x : T) (f : DvspPacket → Call DvspPacket) :
    Call (T → Option DvspPacket) :=
  match seen x with
  | none => undefined
  | some p => do
    let p ← f p
    pure (Function.update seen x (some p))

def valueStep (seen : T → Option DvspPacket) : Op T → Call (T → Option DvspPacket)
  | .construct x => pure (Function.update seen x (some .init))
  | .deserialise x serial => do
    let p ← DvspPacket.deserialise serial
    pure (Function.update seen x (some p))
  | .copy x orig beyond =>
    match seen orig with
    | none => undefined
    | some o => do
      let p ← o.copy beyond
      pure (Function.update seen x (some p))
  | .strContent x data => changeSeen seen x fun p => p.strContent data
  | .copyContent x data => changeSeen seen x fun p => p.copyContent data
  | .clear x => changeSeen seen x DvspPacket.clear
  | .destroy x =>
    match seen x with
    | none => undefined
    | some p => do
      p.destroy
      pure (Function.update seen x none)

theorem seen_setPacket {w : PacketWorld T} {x : T} {heap : Heap UInt8}
    (h : ∀ y p, y ≠ x → w.packets y = some p → p.view heap = p.view w.heap)
    (o : Option PacketObject) :
    (w.setPacket x heap o).seen = Function.update w.seen x (o.map (·.view heap)) := by
  funext y
  by_cases hyx : y = x
  · subst hyx
    simp [seen, setPacket]
  · cases hy : w.packets y with
    | none => simp [seen, setPacket, hyx, hy]
    | some p => simp [seen, setPacket, hyx, hy, h y p hyx hy]

theorem Owned.seen_allocate {w : PacketWorld T} (h : w.Owned) (x : T) (header : DvspHeader)
    (data : List UInt8) :
    (w.setPacket x (allocate w.heap data) (some ⟨header,some w.heap.length⟩)).seen =
      Function.update w.seen x (some ⟨header,.live data⟩) := by
  rw [seen_setPacket]
  · simp [PacketObject.view, lookup_allocate]
  · intro y p _ hy
    refine PacketObject.view_congr fun i hi => ?_
    have hlt := h.content_lt hy hi
    rw [lookup_allocate, if_neg (by omega)]

theorem Owned.changeContent_seen {w : PacketWorld T} (h : w.Owned) (x : T)
    {f : PacketObject → PacketObject} {g : DvspPacket → DvspPacket}
    (hf : ∀ p, (f p).content = p.content) (hg : ∀ p heap, (f p).view heap = g (p.view heap))
    (data : List UInt8) :
    (w.changeContent x f data).map seen = changeSeen w.seen x fun p => (g p).reset data := by
  cases hx : w.packets x with
  | none => simp [changeContent, changeSeen, seen, hx, Except.map, undefined]
  | some p =>
    have hview := (f p).reset_view w.heap data
    have hseen : w.seen x = some (p.view w.heap) := by simp [seen, hx]
    rw [hg] at hview
    simp only [changeContent, hx, changeSeen, hseen, ← hview]
    cases hreset : (f p).reset w.heap data with
    | error e => rfl
    | ok r =>
      obtain ⟨heap,p'⟩ := r
      refine congrArg Except.ok (seen_setPacket ?_ _)
      intro y q hne hy
      refine PacketObject.reset_frame hreset (fun i hi => ?_) fun i hi => h.content_lt hy hi
      rw [hf]
      exact h.content_ne hx hy hne hi

/-- While every buffer has its owner, the heap is as good as values. -/
theorem Owned.step_seen {w : PacketWorld T} (h : w.Owned) (op : Op T) :
    (w.step op).map seen = valueStep w.seen op := by
  cases op with
  | construct x => exact congrArg Except.ok (seen_setPacket (fun _ _ _ _ => rfl) _)
  | deserialise x serial =>
    simp only [step, deserialise, valueStep, DvspPacket.deserialise]
    cases load serial 0 DvspHeader.sizeOf with
    | error e => rfl
    | ok bs =>
      simp only [ok_bind]
      by_cases hsize : (DvspHeader.ofBytes bs).size = 0
      · simp only [hsize, if_true]
        exact congrArg Except.ok (seen_setPacket (fun _ _ _ _ => rfl) _)
      · simp only [hsize, if_false]
        cases load serial DvspHeader.sizeOf (DvspHeader.ofBytes bs).size.toNat with
        | error e => rfl
        | ok content => exact congrArg Except.ok (h.seen_allocate x _ content)
  | copy x orig beyond =>
    cases ho : w.packets orig with
    | none => simp [step, copy, valueStep, seen, ho, Except.map, undefined]
    | some o =>
      have hseen : w.seen orig = some (o.view w.heap) := by simp [seen, ho]
      have hsize : (o.view w.heap).header = o.header := rfl
      simp only [step, copy, ho, valueStep, hseen, DvspPacket.copy, hsize]
      cases (o.view w.heap).content.read beyond 0 o.header.size.toNat with
      | error e => rfl
      | ok bs => exact congrArg Except.ok (h.seen_allocate x o.header bs)
  | strContent x data => exact h.changeContent_seen x (g := id) (fun _ => rfl) (fun _ _ => rfl) data
  | copyContent x data => exact h.changeContent_seen x (g := id) (fun _ => rfl) (fun _ _ => rfl) data
  | clear x =>
    exact h.changeContent_seen x (f := fun p => { p with header := .init })
      (g := fun p => { p with header := .init }) (fun _ => rfl) (fun _ _ => rfl) []
  | destroy x =>
    cases hx : w.packets x with
    | none => simp [step, destroy, valueStep, seen, hx, Except.map, undefined]
    | some p =>
      have hseen : w.seen x = some (p.view w.heap) := by simp [seen, hx]
      simp only [step, destroy, hx, valueStep, hseen, ← p.deleteContent_destroy w.heap]
      cases hdelete : p.deleteContent w.heap with
      | error e => rfl
      | ok heap =>
        refine congrArg Except.ok (seen_setPacket ?_ none)
        intro y q hne hy
        refine PacketObject.view_congr fun i hi => ?_
        exact PacketObject.deleteContent_lookup hdelete (h.content_ne hx hy hne hi)

/-- A program that keeps every buffer with its owner computes what the packets
would as values. -/
theorem OwnedOnce.seen_run {ops : List (Op T)} (h : OwnedOnce ops) :
    (ops.foldl next (.ok init)).map seen =
      ops.foldl (fun r op => r >>= fun s => valueStep s op) (.ok fun _ => none) := by
  refine Throughout.simulation h ?_
  rintro r op ⟨w,rfl,howned⟩
  exact howned.step_seen op

/-- The copy has its own content, and is still there when the packet is gone. -/
theorem OwnedOnce.seen_run_copied :
    ∃ values, (copied.foldl next (.ok init)).map seen = .ok values ∧ values false = none ∧
      values true = some ⟨{ DvspHeader.init with size := 1 },.live (ascii "c")⟩ := by
  have howned : OwnedOnce copied :=
    (throughout_iff copied_program.allowed_iff ⟨init,rfl,init_owned⟩).mpr copied_allowed
  exact ⟨_,howned.seen_run,rfl,rfl⟩

end PacketWorld
end GsnNode
