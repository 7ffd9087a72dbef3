/-
# Laying out nodes

Laying out a node allocates blocks and writes a pointer into some of them, bottom up.  Here it is
shown what comes of it: the node is laid out at the pointer that is given back, and its blocks are
the ones that were allocated, no more and no fewer.  It stays there while the rest of a tree is laid
out, and while other trees come and go, because these blocks keep their bytes.

* `lays_add` is the induction over the node, and `laysAll_add` over the nodes of a sequence.
* `add_eq_ok` says that laying out succeeds where there is room.
-/
import TokenImage.Proofs.Tree.Occupied

namespace TokenImage

open AllocationFailure

/-! ## 1. Sites -/

namespace BuildSite

variable {A : Allocator} {site site' site'' : BuildSite} {new new' : List OwnedBlock}

/-- The site has allocated the blocks `new`, the latest first. -/
structure Grows (site site' : BuildSite) (new : List OwnedBlock) : Prop where
  owned_eq : site'.owned = new ++ site.owned
  heap_grows : site.heap.Grows site'.heap (new.map OwnedBlock.extent)

theorem Grows.refl (site : BuildSite) : site.Grows site [] :=
  ⟨rfl, .refl site.heap⟩

theorem Grows.trans (h₁ : site.Grows site' new) (h₂ : site'.Grows site'' new') :
    site.Grows site'' (new' ++ new) := by
  refine ⟨?_, ?_⟩
  · rw [h₂.owned_eq, h₁.owned_eq, List.append_assoc]
  · rw [List.map_append]
    exact h₁.heap_grows.trans h₂.heap_grows

/-- **Blocks keep their bytes** when the site grows further. -/
theorem Grows.agreeOn (h₁ : site.Grows site' new) (h₂ : site'.Grows site'' new') :
    ∀ b ∈ new, site'.heap.memory.AgreeOn site''.heap.memory b.extent :=
  fun _ hb => h₁.heap_grows.agree_new h₂.heap_grows (List.mem_map_of_mem hb)

/-! ## 2. Single blocks -/

/-- A block with contents. -/
theorem grows_alloc {kind : BlockKind} {contents : List UInt8} {e : Extent}
    (h : site.alloc A kind contents = .ok (e, site')) :
    site.Grows site' [⟨kind, e⟩] ∧ site'.heap.memory.BufferAt [e] e contents := by
  simp only [alloc, bind_eq_ok_iff, ofRoom_eq_ok_iff, Prod.exists] at h
  obtain ⟨e', heap, halloc, h⟩ := h
  obtain ⟨rfl, rfl⟩ := Prod.mk.inj (Except.ok.inj h)
  obtain ⟨hgrows, hsize, hbytes⟩ := Heap.grows_alloc halloc
  have hmem : e' ∈ [e'] := List.mem_singleton_self e'
  exact ⟨⟨rfl, hgrows⟩, ⟨hmem, hgrows.addressable _ hmem⟩, hsize, hbytes⟩

/-- A block with a record. -/
theorem grows_allocRecord {kind : BlockKind} {size : Nat} {fields : FieldWrites} {e : Extent}
    (hpos : 0 < size) (hfit : fields.Fit size)
    (h : site.allocRecord A kind size fields = .ok (e, site')) :
    site.Grows site' [⟨kind, e⟩] ∧ e.size = size ∧ Memory.HasBlock [e] e ∧
      site'.heap.memory.FieldsAt e.base fields := by
  simp only [allocRecord, bind_eq_ok_iff, ofRoom_eq_ok_iff, Prod.exists] at h
  obtain ⟨e', heap, halloc, h⟩ := h
  obtain ⟨rfl, rfl⟩ := Prod.mk.inj (Except.ok.inj h)
  obtain ⟨hgrows, hsize, hfields⟩ := Heap.grows_allocRecord hpos hfit halloc
  have hmem : e' ∈ [e'] := List.mem_singleton_self e'
  exact ⟨⟨rfl, hgrows⟩, hsize, ⟨hmem, hgrows.addressable _ hmem⟩, hfields⟩

/-- A token record. -/
theorem grows_addToken {r : TokenRecord} {p : Nat} (h : addToken A site r = .ok (p, site')) :
    site.Grows site' [⟨.token, ⟨p, 48⟩⟩] ∧ site'.heap.memory.RecordAt [⟨p, 48⟩] p r := by
  simp only [addToken, bind_eq_ok_iff, Prod.exists] at h
  obtain ⟨e, site₁, halloc, h⟩ := h
  obtain ⟨rfl, rfl⟩ := Prod.mk.inj (Except.ok.inj h)
  obtain ⟨hgrows, hsize, hblock, hfields⟩ := grows_allocRecord (by decide) r.fields_fit halloc
  obtain ⟨base, size⟩ := e
  obtain rfl : size = 48 := hsize
  exact ⟨hgrows, hblock, hfields⟩

/-! ## 3. What is laid out -/

/-- **A node laid out**: the site has grown by the blocks of the node, which is at the pointer. -/
def Lays (site site' : BuildSite) (p : Nat) (n : Node) : Prop :=
  ∃ new, site.Grows site' new ∧ site'.heap.memory.Occupies p n new

/-- Nodes laid out, one pointer for each. -/
def LaysAll (site site' : BuildSite) (pointers : List Nat) (ns : List Node) : Prop :=
  ∃ new, site.Grows site' new ∧ site'.heap.memory.OccupiesAll pointers ns new

/-- A record of one word. -/
theorem lays_word {p : Nat} {n : Node} {tag : Tag} {word : UInt64}
    (hn : n.word? = some (tag, word))
    (h : addToken A site
      { tag, payload := .word word, index := n.index, bitOffset := n.bitOffset } = .ok (p, site')) :
    Lays site site' p n := by
  obtain ⟨hgrows, hrecord⟩ := grows_addToken h
  exact ⟨_, hgrows, .word hn hrecord⟩

/-- A byte record after its buffer. -/
theorem lays_bytes {span : List UInt8} {buffer : Extent} {p spare : Nat} {index : UInt64}
    {bitOffset : Int8} (hbuffer : site.alloc A .buffer span = .ok (buffer, site'))
    (h : addToken A site'
      { tag := .bytes, payload := .span buffer.base span.length, index, bitOffset } =
        .ok (p, site'')) :
    Lays site site'' p ⟨.bytes span, index, bitOffset, spare⟩ := by
  obtain ⟨hgrows₁, hspan⟩ := grows_alloc hbuffer
  obtain ⟨hgrows₂, hrecord⟩ := grows_addToken h
  refine ⟨_, hgrows₁.trans hgrows₂,
    .bytes hrecord (hspan.transfer (List.Subset.refl _) fun e he => ?_)⟩
  obtain rfl := List.mem_singleton.mp he
  exact hgrows₁.agreeOn hgrows₂ ⟨.buffer, e⟩ List.mem_cons_self

theorem eq_of_slotCount {used spare capacity : Nat} (h : slotCount used spare = .ok capacity) :
    used + spare = capacity := by
  rw [slotCount] at h
  split at h
  · exact nomatch h
  split at h
  · exact nomatch h
  · exact Except.ok.inj h

/-- A sequence record after its items, its slots and its array. -/
theorem lays_sequence {pointers : List Nat} {items : List Node} {spare p : Nat} {index : UInt64}
    {bitOffset : Int8} (hitems : LaysAll site site' pointers items)
    (h : addSequence A site' pointers spare index bitOffset = .ok (p, site'')) :
    Lays site site'' p ⟨.sequence items, index, bitOffset, spare⟩ := by
  obtain ⟨new, hgrows, hitems⟩ := hitems
  simp only [addSequence, bind_eq_ok_iff, Prod.exists] at h
  obtain ⟨capacity, hcapacity, elements, site₁, helements, ⟨array, arraySize⟩, site₂, harray, h⟩ := h
  obtain rfl : pointers.length + spare = capacity := eq_of_slotCount hcapacity
  obtain ⟨hgrows₁, hslots⟩ := grows_alloc helements
  obtain ⟨hgrows₂, harraySize, harrayBlock, harrayFields⟩ :=
    grows_allocRecord (by decide) (CountedArray.fields_fit _) harray
  obtain rfl : arraySize = 32 := harraySize
  obtain ⟨hgrows₃, hrecord⟩ := grows_addToken h
  have hgrows₂₃ := hgrows₂.trans hgrows₃
  -- each part is kept by what is allocated after it
  have harray₃ := harrayFields.of_agreeOn (CountedArray.fields_fit _)
    (hgrows₂.agreeOn hgrows₃ _ List.mem_cons_self)
  have hslots₃ : site''.heap.memory.BufferAt [⟨array, 32⟩, elements] elements
      (slotBytes pointers spare) := by
    refine hslots.transfer (by simp) fun e he => ?_
    obtain rfl := List.mem_singleton.mp he
    exact hgrows₁.agreeOn hgrows₂₃ ⟨.elements, e⟩ List.mem_cons_self
  refine ⟨_, hgrows.trans (hgrows₁.trans hgrows₂₃),
    .sequence hrecord ⟨harrayBlock.mono (by simp), harray₃, hslots₃⟩ ?_⟩
  exact Memory.occupiesAll_transfer hitems (hgrows.agreeOn (hgrows₁.trans hgrows₂₃))

mutual

/-- **A node is laid out** at the pointer that is given back. -/
theorem lays_add : ∀ (n : Node) {site site' : BuildSite} {p : Nat},
    add A site n = .ok (p, site') → Lays site site' p n
  | ⟨.null, _, _, _⟩, site, site', p, h => by
    rw [add] at h
    obtain ⟨rfl, rfl⟩ := Prod.mk.inj (Except.ok.inj h)
    exact ⟨[], .refl site, .null⟩
  | ⟨.tagged _, _, _, _⟩, site, site', p, h => by
    rw [add] at h
    exact lays_word rfl h
  | ⟨.none, _, _, _⟩, site, site', p, h => by
    rw [add] at h
    exact lays_word rfl h
  | ⟨.bytes _, _, _, _⟩, site, site', p, h => by
    simp only [add, bind_eq_ok_iff, Prod.exists] at h
    obtain ⟨buffer, site₁, hbuffer, h⟩ := h
    exact lays_bytes hbuffer h
  | ⟨.signed _, _, _, _⟩, site, site', p, h => by
    rw [add] at h
    exact lays_word rfl h
  | ⟨.unsigned _, _, _, _⟩, site, site', p, h => by
    rw [add] at h
    exact lays_word rfl h
  | ⟨.sequence items, _, _, _⟩, site, site', p, h => by
    simp only [add, bind_eq_ok_iff, Prod.exists] at h
    obtain ⟨pointers, site₁, hitems, h⟩ := h
    exact lays_sequence (laysAll_add items hitems) h

/-- Nodes are laid out at the pointers that are given back, in order. -/
theorem laysAll_add : ∀ (ns : List Node) {site site' : BuildSite} {pointers : List Nat},
    addAll A site ns = .ok (pointers, site') → LaysAll site site' pointers ns
  | [], site, site', pointers, h => by
    rw [addAll] at h
    obtain ⟨rfl, rfl⟩ := Prod.mk.inj (Except.ok.inj h)
    exact ⟨[], .refl site, .nil⟩
  | n :: ns, site, site', pointers, h => by
    simp only [addAll, bind_eq_ok_iff, Prod.exists] at h
    obtain ⟨p, site₁, hn, ps, site₂, hns, h⟩ := h
    obtain ⟨rfl, rfl⟩ := Prod.mk.inj (Except.ok.inj h)
    obtain ⟨new₁, hgrows₁, hn₁⟩ := lays_add n hn
    obtain ⟨new₂, hgrows₂, hns₂⟩ := laysAll_add ns hns
    exact ⟨_, hgrows₁.trans hgrows₂,
      .cons (Memory.occupies_transfer hn₁ (hgrows₁.agreeOn hgrows₂)) hns₂⟩

end

/-- A token record is not at the null pointer. -/
theorem addToken_ne_zero {r : TokenRecord} {p : Nat} (h : addToken A site r = .ok (p, site')) :
    p ≠ 0 :=
  Nat.ne_of_gt (grows_addToken h).2.block.addressable.base_pos

/-- Only a null node is laid out as the null pointer. -/
theorem add_ne_zero {n : Node} {p : Nat} (h : add A site n = .ok (p, site'))
    (hn : n.shape ≠ .null) : p ≠ 0 := by
  obtain ⟨shape, index, bitOffset, spare⟩ := n
  cases shape with
  | null => exact absurd rfl hn
  | tagged | none | signed | unsigned =>
    rw [add] at h
    exact addToken_ne_zero h
  | bytes =>
    simp only [add, bind_eq_ok_iff, Prod.exists] at h
    obtain ⟨_, _, -, h⟩ := h
    exact addToken_ne_zero h
  | sequence =>
    simp only [add, addSequence, bind_eq_ok_iff, Prod.exists] at h
    obtain ⟨_, _, -, _, -, _, _, -, _, _, -, h⟩ := h
    exact addToken_ne_zero h

/-! ## 4. Room for it -/

/-- Where there is room, a block is allocated and there is room for the rest. -/
theorem alloc_eq_ok (kind : BlockKind) {contents : List UInt8} {sizes : List Nat}
    (hroom : A.Serves (contents.length :: sizes) site.heap) :
    ∃ e site', site.alloc A kind contents = .ok (e, site') ∧ A.Serves sizes site'.heap := by
  obtain ⟨e, h', halloc, hrest⟩ := hroom.alloc
  refine ⟨e, ⟨h', ⟨kind, e⟩ :: site.owned⟩, ?_, hrest⟩
  rw [alloc, halloc]
  rfl

/-- Where there is room, a record is allocated and there is room for the rest. -/
theorem allocRecord_eq_ok (kind : BlockKind) {size : Nat} (fields : FieldWrites)
    {sizes : List Nat} (hpos : 0 < size) (hroom : A.Serves (size :: sizes) site.heap) :
    ∃ e site', site.allocRecord A kind size fields = .ok (e, site') ∧
      A.Serves sizes site'.heap := by
  obtain ⟨e, h', halloc, hrest⟩ := hroom.allocRecord fields hpos
  refine ⟨e, ⟨h', ⟨kind, e⟩ :: site.owned⟩, ?_, hrest⟩
  rw [allocRecord, halloc]
  rfl

theorem addToken_eq_ok {r : TokenRecord} {sizes : List Nat}
    (hroom : A.Serves (libraryLayout.size :: sizes) site.heap) :
    ∃ p site', addToken A site r = .ok (p, site') ∧ A.Serves sizes site'.heap := by
  obtain ⟨e, site', halloc, hrest⟩ := allocRecord_eq_ok .token r.fields (by decide) hroom
  refine ⟨e.base, site', ?_, hrest⟩
  rw [addToken, halloc]
  rfl

theorem addSequence_eq_ok {pointers : List Nat} {spare : Nat} {index : UInt64} {bitOffset : Int8}
    {sizes : List Nat} (hfit : pointers.length + spare ≤ maxSlots)
    (hroom : A.Serves (FieldType.word.size * (pointers.length + spare) :: arrayLayout.size ::
      libraryLayout.size :: sizes) site.heap) :
    ∃ p site', addSequence A site pointers spare index bitOffset = .ok (p, site') ∧
      A.Serves sizes site'.heap := by
  have hcount : slotCount pointers.length spare = .ok (pointers.length + spare) := by
    have hmax : maxSlots < wordValues := by decide
    rw [slotCount, if_neg (by omega), if_neg (by omega)]
  rw [← length_slotBytes] at hroom
  obtain ⟨elements, site₁, helements, hroom⟩ := alloc_eq_ok .elements hroom
  obtain ⟨array, site₂, harray, hroom⟩ := allocRecord_eq_ok .array
    (CountedArray.fields ⟨pointers.length + spare, pointers.length, elements.base⟩)
    (by decide) hroom
  obtain ⟨p, site', htoken, hroom⟩ := addToken_eq_ok
    (r := { tag := .sequence, payload := .word array.base.toUInt64, index, bitOffset }) hroom
  refine ⟨p, site', ?_, hroom⟩
  simp only [addSequence, bind_eq_ok_iff, Prod.exists]
  exact ⟨_, hcount, _, _, helements, _, _, harray, htoken⟩

mutual

/-- **Where there is room for its blocks, a node is laid out**, if its element arrays fit. -/
theorem add_eq_ok : ∀ (n : Node) {site : BuildSite} {sizes : List Nat}, n.SlotsFit →
    A.Serves (n.blockSizes ++ sizes) site.heap →
    ∃ p site', add A site n = .ok (p, site') ∧ A.Serves sizes site'.heap
  | ⟨.null, _, _, _⟩, site, sizes, _, hroom => by
    rw [Node.blockSizes] at hroom
    exact ⟨0, site, by rw [add]; rfl, hroom⟩
  | ⟨.tagged _, _, _, _⟩, site, sizes, _, hroom => by
    rw [Node.blockSizes] at hroom
    rw [add]
    exact addToken_eq_ok hroom
  | ⟨.none, _, _, _⟩, site, sizes, _, hroom => by
    rw [Node.blockSizes] at hroom
    rw [add]
    exact addToken_eq_ok hroom
  | ⟨.bytes span, index, bitOffset, _⟩, site, sizes, _, hroom => by
    rw [Node.blockSizes] at hroom
    obtain ⟨buffer, site₁, hbuffer, hroom⟩ := alloc_eq_ok .buffer hroom
    obtain ⟨p, site', htoken, hroom⟩ := addToken_eq_ok
      (r := { tag := .bytes, payload := .span buffer.base span.length, index, bitOffset }) hroom
    refine ⟨p, site', ?_, hroom⟩
    simp only [add, bind_eq_ok_iff, Prod.exists]
    exact ⟨_, _, hbuffer, htoken⟩
  | ⟨.signed _, _, _, _⟩, site, sizes, _, hroom => by
    rw [Node.blockSizes] at hroom
    rw [add]
    exact addToken_eq_ok hroom
  | ⟨.unsigned _, _, _, _⟩, site, sizes, _, hroom => by
    rw [Node.blockSizes] at hroom
    rw [add]
    exact addToken_eq_ok hroom
  | ⟨.sequence items, index, bitOffset, spare⟩, site, sizes, hfit, hroom => by
    rw [Node.SlotsFit] at hfit
    rw [Node.blockSizes, List.append_assoc] at hroom
    obtain ⟨pointers, site₁, hitems, hlength, hroom⟩ := addAll_eq_ok items hfit.1 hroom
    rw [← hlength] at hroom hfit
    obtain ⟨p, site', hsequence, hroom⟩ := addSequence_eq_ok hfit.2 hroom
    refine ⟨p, site', ?_, hroom⟩
    simp only [add, bind_eq_ok_iff, Prod.exists]
    exact ⟨_, _, hitems, hsequence⟩

/-- Where there is room for their blocks, nodes are laid out. -/
theorem addAll_eq_ok : ∀ (ns : List Node) {site : BuildSite} {sizes : List Nat},
    Node.AllSlotsFit ns → A.Serves (Node.allBlockSizes ns ++ sizes) site.heap →
    ∃ pointers site', addAll A site ns = .ok (pointers, site') ∧ pointers.length = ns.length ∧
      A.Serves sizes site'.heap
  | [], site, sizes, _, hroom => by
    rw [Node.allBlockSizes] at hroom
    exact ⟨[], site, by rw [addAll]; rfl, rfl, hroom⟩
  | n :: ns, site, sizes, hfit, hroom => by
    rw [Node.AllSlotsFit] at hfit
    rw [Node.allBlockSizes, List.append_assoc] at hroom
    obtain ⟨p, site₁, hn, hroom⟩ := add_eq_ok n hfit.1 hroom
    obtain ⟨ps, site', hns, hlength, hroom⟩ := addAll_eq_ok ns hfit.2 hroom
    refine ⟨p :: ps, site', ?_, by rw [List.length_cons, List.length_cons, hlength], hroom⟩
    simp only [addAll, bind_eq_ok_iff, Prod.exists]
    exact ⟨_, _, hn, _, _, hns, rfl⟩

end

end BuildSite

end TokenImage
