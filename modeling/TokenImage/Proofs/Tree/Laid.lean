/-
# Nodes in memory

What laying out a node puts into memory, as it was written: for each token its record, for a byte
token its buffer, for a sequence its counted array and its element array, with the items at the
pointers in the slots.  `Laid` says so by recursion over the node, which is more than what the
decoder makes of it: it keeps the tag and the index of a token whose payload cannot be read.

* `laid_transfer` is the frame: a node stays where it is for as long as its blocks keep their
  bytes, whatever happens to the rest of memory.
* `represents_of_laid` says that the pointer stands for the translation of the node.
-/
import TokenImage.Proofs.Tree.Records

namespace TokenImage

theorem BuildSite.length_slotBytes (pointers : List Nat) (spare : Nat) :
    (slotBytes pointers spare).length = FieldType.word.size * (pointers.length + spare) := by
  rw [slotBytes, List.length_flatMap, List.map_congr_left fun p _ => length_littleEndian _ p,
    List.map_const', List.sum_replicate_nat, List.length_append, List.length_replicate, Nat.mul_comm]

/-- Under a tag that cannot be read there is no value. -/
theorem Tag.zeroValue_of_not_mem {tag : Tag} (h : tag.toNat ∉ [1, 2, 4, 8, 16]) :
    tag.zeroValue = .none := by
  have hne : ∀ k ∈ [1, 2, 4, 8, 16], tag.toNat ≠ k := fun k hk heq => h (heq ▸ hk)
  rw [zeroValue, if_neg fun h => hne 2 (by decide) (congrArg UInt32.toNat h),
    if_neg fun h => hne 4 (by decide) (congrArg UInt32.toNat h),
    if_neg fun h => hne 8 (by decide) (congrArg UInt32.toNat h),
    if_neg fun h => hne 16 (by decide) (congrArg UInt32.toNat h)]

namespace Memory

/-! ## 1. The relation -/

/-- The block is one of these, and its addresses can be used. -/
structure HasBlock (blocks : List Extent) (e : Extent) : Prop where
  mem : e ∈ blocks
  addressable : e.Addressable

/-- The record `r` is at `p`, in a block of its own. -/
structure RecordAt (m : Memory) (blocks : List Extent) (p : Nat) (r : TokenRecord) : Prop where
  block : HasBlock blocks ⟨p, 48⟩
  fields : m.FieldsAt p r.fields

/-- There are bytes in a block of their own. -/
structure BufferAt (m : Memory) (blocks : List Extent) (e : Extent) (bs : List UInt8) : Prop where
  block : HasBlock blocks e
  size_eq : e.size = bs.length
  bytes : m.BytesAt e.base bs

/-- A counted array of pointers is at `array`: its record, and its slots at `elements`. -/
structure SlotsLaid (m : Memory) (blocks : List Extent) (array : Nat) (elements : Extent)
    (pointers : List Nat) (spare : Nat) : Prop where
  block : HasBlock blocks ⟨array, 32⟩
  fields : m.FieldsAt array
    (CountedArray.fields ⟨pointers.length + spare, pointers.length, elements.base⟩)
  slots : m.BufferAt blocks elements (BuildSite.slotBytes pointers spare)

/-- **The node is laid out at the pointer**, in blocks that are among the given ones. -/
inductive Laid (m : Memory) (blocks : List Extent) : Nat → Node → Prop
  | null {index : UInt64} {bitOffset : Int8} {spare : Nat} :
      Laid m blocks 0 ⟨.null, index, bitOffset, spare⟩
  | tagged {p : Nat} {tag : Tag} {index : UInt64} {bitOffset : Int8} {spare : Nat}
      (hrecord : m.RecordAt blocks p { tag, payload := .word 0, index, bitOffset }) :
      Laid m blocks p ⟨.tagged tag, index, bitOffset, spare⟩
  | none {p : Nat} {index : UInt64} {bitOffset : Int8} {spare : Nat}
      (hrecord : m.RecordAt blocks p { tag := .none, payload := .word 0, index, bitOffset }) :
      Laid m blocks p ⟨.none, index, bitOffset, spare⟩
  | bytes {p : Nat} {span : List UInt8} {buffer : Extent} {index : UInt64} {bitOffset : Int8}
      {spare : Nat}
      (hrecord : m.RecordAt blocks p
        { tag := .bytes, payload := .span buffer.base span.length, index, bitOffset })
      (hbuffer : m.BufferAt blocks buffer span) :
      Laid m blocks p ⟨.bytes span, index, bitOffset, spare⟩
  | signed {p : Nat} {number : Int64} {index : UInt64} {bitOffset : Int8} {spare : Nat}
      (hrecord : m.RecordAt blocks p
        { tag := .signed, payload := .word number.toUInt64, index, bitOffset }) :
      Laid m blocks p ⟨.signed number, index, bitOffset, spare⟩
  | unsigned {p : Nat} {number : UInt64} {index : UInt64} {bitOffset : Int8} {spare : Nat}
      (hrecord : m.RecordAt blocks p
        { tag := .unsigned, payload := .word number, index, bitOffset }) :
      Laid m blocks p ⟨.unsigned number, index, bitOffset, spare⟩
  | sequence {p array : Nat} {elements : Extent} {pointers : List Nat} {items : List Node}
      {index : UInt64} {bitOffset : Int8} {spare : Nat}
      (hrecord : m.RecordAt blocks p
        { tag := .sequence, payload := .word array.toUInt64, index, bitOffset })
      (hslots : m.SlotsLaid blocks array elements pointers spare)
      (hitems : List.Forall₂ (Laid m blocks) pointers items) :
      Laid m blocks p ⟨.sequence items, index, bitOffset, spare⟩

/-! ## 2. The frame -/

section Frame

variable {m m' : Memory} {blocks blocks' : List Extent}

theorem HasBlock.mono {e : Extent} (h : HasBlock blocks e) (hsub : blocks ⊆ blocks') :
    HasBlock blocks' e :=
  ⟨hsub h.mem, h.addressable⟩

theorem RecordAt.transfer {p : Nat} {r : TokenRecord} (h : m.RecordAt blocks p r)
    (hsub : blocks ⊆ blocks') (hagree : ∀ e ∈ blocks, m.AgreeOn m' e) :
    m'.RecordAt blocks' p r := by
  have hfit := r.fields_fit
  rw [libraryLayout_eq] at hfit
  exact ⟨h.block.mono hsub, h.fields.of_agreeOn hfit (hagree _ h.block.mem)⟩

theorem BufferAt.transfer {e : Extent} {bs : List UInt8} (h : m.BufferAt blocks e bs)
    (hsub : blocks ⊆ blocks') (hagree : ∀ e ∈ blocks, m.AgreeOn m' e) :
    m'.BufferAt blocks' e bs := by
  have hbytes := (hagree e h.block.mem).bytesAt h.bytes (Nat.le_refl _)
    (Nat.le_of_eq (by rw [h.size_eq]))
  exact ⟨h.block.mono hsub, h.size_eq, hbytes⟩

theorem SlotsLaid.transfer {array spare : Nat} {elements : Extent} {pointers : List Nat}
    (h : m.SlotsLaid blocks array elements pointers spare) (hsub : blocks ⊆ blocks')
    (hagree : ∀ e ∈ blocks, m.AgreeOn m' e) : m'.SlotsLaid blocks' array elements pointers spare :=
  ⟨h.block.mono hsub, h.fields.of_agreeOn (CountedArray.fields_fit _) (hagree _ h.block.mem),
    h.slots.transfer hsub hagree⟩

mutual

/-- **A node stays laid out** where its blocks keep their bytes. -/
theorem laid_transfer (hsub : blocks ⊆ blocks') (hagree : ∀ e ∈ blocks, m.AgreeOn m' e) :
    ∀ (n : Node) {p : Nat}, m.Laid blocks p n → m'.Laid blocks' p n
  | ⟨.null, _, _, _⟩, _, .null => .null
  | ⟨.tagged _, _, _, _⟩, _, .tagged h => .tagged (h.transfer hsub hagree)
  | ⟨.none, _, _, _⟩, _, .none h => .none (h.transfer hsub hagree)
  | ⟨.bytes _, _, _, _⟩, _, .bytes h hbuffer =>
    .bytes (h.transfer hsub hagree) (hbuffer.transfer hsub hagree)
  | ⟨.signed _, _, _, _⟩, _, .signed h => .signed (h.transfer hsub hagree)
  | ⟨.unsigned _, _, _, _⟩, _, .unsigned h => .unsigned (h.transfer hsub hagree)
  | ⟨.sequence items, _, _, _⟩, _, .sequence h hslots hitems =>
    .sequence (h.transfer hsub hagree) (hslots.transfer hsub hagree)
      (allLaid_transfer hsub hagree items hitems)

theorem allLaid_transfer (hsub : blocks ⊆ blocks') (hagree : ∀ e ∈ blocks, m.AgreeOn m' e) :
    ∀ (ns : List Node) {pointers : List Nat},
      List.Forall₂ (m.Laid blocks) pointers ns → List.Forall₂ (m'.Laid blocks') pointers ns
  | [], _, .nil => .nil
  | n :: ns, _, .cons hn hns =>
    .cons (laid_transfer hsub hagree n hn) (allLaid_transfer hsub hagree ns hns)

end

end Frame

/-! ## 3. What is laid out stands for the translation -/

section Represents

variable {m : Memory} {blocks : List Extent}

/-- What a payload of zeros is under a tag stands there. -/
theorem valueAt_zeroValue {R : Nat → Token → Prop} {a : Nat} {tag : Tag}
    (h : m.NumberAt (a + 8) 8 0) : ValueAt m R tag.toNat a tag.zeroValue := by
  rcases tag.cases_kind with rfl | rfl | rfl | rfl | rfl | ⟨-, hk⟩
  · exact .none
  · exact .bytes (.null h)
  · exact .signed h rfl
  · exact .unsigned h
  · exact valueAt_sequence_iff.mpr ⟨0, .nullArray h, fun i hi => absurd hi (Nat.not_lt_zero i)⟩
  · rw [Tag.zeroValue_of_not_mem hk]
    exact .unsupported hk

/-- A record with one word that is not a pointer, or is a null one. -/
theorem RecordAt.represents_word {p : Nat} {r : TokenRecord} {n : UInt64} {v : Value Token}
    (h : m.RecordAt blocks p r) (hr : r.payload = .word n) (hnull : r.tag = 2 ∨ r.tag = 16 → n = 0)
    (hv : m.NumberAt (p + 8) 8 n.toNat → ValueAt m m.TokenAt r.tag.toNat p v) :
    m.Represents blocks p ⟨r.index.toInt64, r.bitOffset, v⟩ :=
  Memory.represents_word h.block.addressable.base_pos h.block.addressable.base_lt h.block.mem
    h.fields hr hnull (hv (numberAt_payload h.fields hr))

mutual

/-- **A pointer to a node stands for its translation.** -/
theorem represents_of_laid : ∀ (n : Node) {p : Nat}, m.Laid blocks p n →
    m.Represents blocks p n.translate
  | ⟨.null, _, _, _⟩, _, .null => represents_zero
  | ⟨.tagged _, _, _, _⟩, _, .tagged h =>
    h.represents_word rfl (fun _ => rfl) valueAt_zeroValue
  | ⟨.none, _, _, _⟩, _, .none h =>
    h.represents_word rfl (fun _ => rfl) fun _ => .none
  | ⟨.bytes span, _, _, _⟩, _, @Laid.bytes _ _ _ _ ⟨base, size⟩ _ _ _ h hbuffer => by
    obtain rfl : size = span.length := hbuffer.size_eq
    exact represents_span h.block.addressable.base_pos h.block.addressable.base_lt h.block.mem
      h.fields rfl rfl hbuffer.block.mem hbuffer.block.addressable hbuffer.bytes
  | ⟨.signed number, _, _, _⟩, _, .signed h => by
    have hscalar : ¬ (Tag.signed = 2 ∨ Tag.signed = 16) := by decide
    refine h.represents_word rfl (fun hk => absurd hk hscalar) fun hn => .signed hn ?_
    have := toInt_toInt64 number.toUInt64
    rwa [Int64.toInt64_toUInt64] at this
  | ⟨.unsigned _, _, _, _⟩, _, .unsigned h => by
    have hscalar : ¬ (Tag.unsigned = 2 ∨ Tag.unsigned = 16) := by decide
    exact h.represents_word rfl (fun hk => absurd hk hscalar) fun hn => .unsigned hn
  | ⟨.sequence items, _, _, spare⟩, _, @Laid.sequence _ _ _ _ elements _ _ _ _ _ h hslots hitems => by
    have hsize := hslots.slots.size_eq
    rw [BuildSite.length_slotBytes] at hsize
    refine represents_slots elements spare h.block.addressable.base_pos h.block.addressable.base_lt
      h.block.mem h.fields rfl rfl hslots.block.mem hslots.block.addressable hslots.fields rfl rfl
      hslots.slots.block.mem hslots.slots.block.addressable ?_ hslots.slots.bytes
      (allRepresents_of_laid items hitems)
    have hword : FieldType.word.size = 8 := rfl
    rw [hsize, hword]
    omega

theorem allRepresents_of_laid : ∀ (ns : List Node) {pointers : List Nat},
    List.Forall₂ (m.Laid blocks) pointers ns →
      List.Forall₂ (m.Represents blocks) pointers (Node.translateAll ns)
  | [], _, .nil => .nil
  | n :: ns, _, .cons hn hns => .cons (represents_of_laid n hn) (allRepresents_of_laid ns hns)

end

end Represents

end Memory

end TokenImage
