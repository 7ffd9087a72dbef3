/-
# What is read of a node

A walk over a node that is laid out reports the same and ends the same wherever the node lies: the
addresses show nowhere.  `Node.read` is that walk without a memory, by recursion over the node, with
the events on the way and with the early end where the room runs out.

* `walk_of_laid` says that it is what the walk gives, for every room;
* `result_read` says how it ends: with the translation if there is room for its depth, and for want
  of room if there is not.
-/
import TokenImage.Proofs.Tree.Laid

namespace TokenImage

/-! ## 1. Computations with events in sequence -/

namespace Traced

variable {ε α β : Type}

theorem result_bind (x : Traced ε α) (f : α → Traced ε β) :
    (x >>= f).result = x.result.bind fun a => (f a).result := by
  change (Traced.bind x f).result = _
  rw [Traced.bind]
  cases x.result <;> rfl

end Traced

/-! ## 2. The reading of a node -/

namespace Node

/-- A token at a position, once its value is read. -/
def readPlaced (index : UInt64) (bitOffset : Int8) (value : Traced Halt (Value Token)) :
    Traced Halt Token := do
  let v ← value
  pure ⟨index.toInt64, bitOffset, v⟩

/-- The value of a payload of zeros under a tag. -/
def readZero (tag : Tag) (index : UInt64) : Traced Halt (Value Token) :=
  match tag.kind with
  | .unsupported => do
    .emit (.unsupportedTag tag index)
    pure .none
  | _ => pure tag.zeroValue

mutual

/-- **What a walk gives for a node**, with room for so many pointers one below the other. -/
def read (room : Nat) : Node → Traced Halt Token
  | ⟨shape, index, bitOffset, _⟩ =>
    match room with
    | 0 => .fail .tooDeep
    | room + 1 =>
      match shape with
      | .null => pure Token.zero
      | .tagged tag => readPlaced index bitOffset (readZero tag index)
      | .none => readPlaced index bitOffset (pure .none)
      | .bytes span => readPlaced index bitOffset (pure (.bytes span))
      | .signed number => readPlaced index bitOffset (pure (.signed number))
      | .unsigned number => readPlaced index bitOffset (pure (.unsigned number))
      | .sequence items =>
        readPlaced index bitOffset do
          let ts ← readAll room items
          pure (.sequence ts)

/-- What a walk gives for the nodes of a list, in order. -/
def readAll (room : Nat) : List Node → Traced Halt (List Token)
  | [] => pure []
  | n :: ns => do
    let t ← read room n
    let ts ← readAll room ns
    pure (t :: ts)

end

end Node

/-! ## 3. The walk over a node -/

namespace Memory

variable {m : Memory} {blocks : List Extent}

/-- The walk loads the index that a record was written with. -/
theorem tokenIndex_fields {p : Nat} {r : TokenRecord} (h : m.FieldsAt p r.fields) :
    m.tokenIndex p = some r.index := by
  rw [TokenRecord.fields, libraryLayout_eq] at h
  have hindex := h (24, littleEndian 8 r.index.toNat) (by simp)
  exact tokenIndex_eq_some_iff.mpr (hindex.numberAt r.index.toNat_lt)

/-- At a record the walk reads the value, and the rest is what was written. -/
theorem RecordAt.walk {p room : Nat} {r : TokenRecord} (h : m.RecordAt blocks p r) :
    m.walk (room + 1) p =
      Node.readPlaced r.index r.bitOffset (m.readValue (m.walk room) p r.tag r.index) := by
  have hheader := headerAt_fields h.fields
  have hne : p ≠ 0 := Nat.ne_of_gt h.block.addressable.base_pos
  rw [Memory.walk, if_neg hne, tokenTag_eq_some_iff.mpr hheader.tag_at, tokenIndex_fields h.fields,
    tokenBitOffset_eq_some_iff.mpr hheader.bit_at]
  rfl

/-- Under a tag of its own a payload of zeros is read. -/
theorem readValue_zero {p : Nat} {tag : Tag} {index : UInt64} {read : Nat → Traced Halt Token}
    (h : m.NumberAt (p + 8) 8 0) : m.readValue read p tag index = Node.readZero tag index := by
  rcases tag.cases_kind with rfl | rfl | rfl | rfl | rfl | ⟨hk, -⟩
  · rfl
  · have hspan : m.tokenBytes p = some [] := tokenBytes_eq_some_iff.mpr (.null h)
    have hk : Tag.kind 2 = .bytes := by decide
    rw [readValue, hk, hspan]
    rfl
  · have hnumber : m.payloadSigned p = some 0 := payloadSigned_eq_some_iff.mpr ⟨0, h, rfl⟩
    have hk : Tag.kind 4 = .signed := by decide
    rw [readValue, hk, hnumber]
    rfl
  · have hnumber : m.payloadUnsigned p = some 0 := payloadUnsigned_eq_some_iff.mpr h
    have hk : Tag.kind 8 = .unsigned := by decide
    rw [readValue, hk, hnumber]
    rfl
  · have hslots : m.tokenSlots p = some (0, 0) := tokenSlots_eq_some_iff.mpr (.nullArray h)
    have hk : Tag.kind 16 = .sequence := by decide
    rw [readValue, hk, hslots]
    rfl
  · rw [readValue, Node.readZero, hk]

/-- The counted array of a sequence leads to its slots. -/
theorem SlotsLaid.slotsAt {p array spare : Nat} {elements : Extent} {pointers : List Nat}
    {r : TokenRecord} (h : m.SlotsLaid blocks array elements pointers spare)
    (hrecord : m.RecordAt blocks p r) (hr : r.payload = .word array.toUInt64) :
    m.SlotsAt p elements.base pointers.length := by
  have hpointer := numberAt_payload hrecord.fields hr
  rw [Nat.toUInt64, UInt64.toNat_ofNat_of_lt' h.block.addressable.base_lt] at hpointer
  have hsize := h.slots.size_eq
  have hlt := h.slots.block.addressable.size_lt
  have hword : FieldType.word.size = 8 := rfl
  rw [BuildSite.length_slotBytes, hword] at hsize
  exact slotsAt_array hpointer (Nat.ne_of_gt h.block.addressable.base_pos) h.fields rfl (by omega)
    rfl h.slots.block.addressable

/-- Each slot of a sequence has the pointer that was written. -/
theorem SlotsLaid.loadPointer {array spare i : Nat} {elements : Extent} {pointers : List Nat}
    (h : m.SlotsLaid blocks array elements pointers spare) (hi : i < pointers.length)
    (hp : ∀ p ∈ pointers, p < addressSpace) :
    m.loadPointer (elements.base + 8 * i) = some pointers[i] :=
  loadPointer_eq_some_iff.mpr (numberAt_slot h.slots.bytes hi hp)

/-- Pointers to nodes are addresses. -/
theorem lt_of_allLaid {ns : List Node} {pointers : List Nat}
    (h : List.Forall₂ (m.Laid blocks) pointers ns) : ∀ p ∈ pointers, p < addressSpace := by
  induction h with
  | nil => exact fun p hp => absurd hp List.not_mem_nil
  | cons hn hns ih =>
    intro p hp
    rcases List.mem_cons.mp hp with rfl | hp
    · exact (represents_of_laid _ hn).pointer_lt
    · exact ih p hp

mutual

/-- **A walk over a node gives what is read of it**, wherever the node is laid out. -/
theorem walk_of_laid : ∀ (n : Node) {p room : Nat}, m.Laid blocks p n →
    m.walk room p = n.read room
  | ⟨_, _, _, _⟩, _, 0, _ => by rw [walk, Node.read]
  | ⟨.null, _, _, _⟩, _, room + 1, .null => by rw [walk, if_pos rfl, Node.read]
  | ⟨.tagged tag, index, _, _⟩, p, room + 1, .tagged h => by
    rw [h.walk, readValue_zero (numberAt_payload h.fields rfl), Node.read]
  | ⟨.none, _, _, _⟩, p, room + 1, .none h => by
    rw [h.walk, Node.read]
    rfl
  | ⟨.bytes span, _, _, _⟩, p, room + 1, @Laid.bytes _ _ _ _ buffer _ _ _ h hbuffer => by
    have haddress := hbuffer.block.addressable
    have hlt : span.length < addressSpace := hbuffer.size_eq ▸ haddress.size_lt
    obtain ⟨hpointer, hlength⟩ := numberAt_payload_span h.fields rfl haddress.base_lt hlt
    have hspan : m.tokenBytes p = some span := tokenBytes_eq_some_iff.mpr
      (.bytes hpointer (Nat.ne_of_gt haddress.base_pos) hlength hbuffer.bytes)
    have hk : Tag.kind .bytes = .bytes := by decide
    rw [h.walk, Node.read, readValue, hk, hspan]
    rfl
  | ⟨.signed number, _, _, _⟩, p, room + 1, .signed h => by
    have hvalue := toInt_toInt64 number.toUInt64
    rw [Int64.toInt64_toUInt64] at hvalue
    have hnumber : m.payloadSigned p = some number :=
      payloadSigned_eq_some_iff.mpr ⟨_, numberAt_payload h.fields rfl, hvalue⟩
    have hk : Tag.kind .signed = .signed := by decide
    rw [h.walk, Node.read, readValue, hk, hnumber]
    rfl
  | ⟨.unsigned number, _, _, _⟩, p, room + 1, .unsigned h => by
    have hnumber : m.payloadUnsigned p = some number :=
      payloadUnsigned_eq_some_iff.mpr (numberAt_payload h.fields rfl)
    have hk : Tag.kind .unsigned = .unsigned := by decide
    rw [h.walk, Node.read, readValue, hk, hnumber]
    rfl
  | ⟨.sequence items, _, _, _⟩, p, room + 1,
      @Laid.sequence _ _ _ _ elements pointers _ _ _ _ h hslots hitems => by
    have hsequence : m.tokenSlots p = some (elements.base, pointers.length) :=
      tokenSlots_eq_some_iff.mpr (hslots.slotsAt h rfl)
    have hall : m.readSlots (m.walk room) pointers.length elements.base = Node.readAll room items :=
      readSlots_of_laid items hitems fun i hi => hslots.loadPointer hi (lt_of_allLaid hitems)
    have hk : Tag.kind .sequence = .sequence := by decide
    rw [h.walk, Node.read, readValue, hk, hsequence, Traced.ofOption_some_bind]
    dsimp only
    rw [hall]

/-- A walk over the slots of a sequence gives what is read of its items. -/
theorem readSlots_of_laid : ∀ (ns : List Node) {pointers : List Nat} {room slot : Nat},
    List.Forall₂ (m.Laid blocks) pointers ns →
    (∀ i (hi : i < pointers.length), m.loadPointer (slot + 8 * i) = some pointers[i]) →
    m.readSlots (m.walk room) pointers.length slot = Node.readAll room ns
  | [], _, room, slot, .nil, _ => by rw [List.length_nil, readSlots, Node.readAll]
  | n :: ns, p :: pointers, room, slot, .cons hn hns, hslots => by
    have hfirst : m.loadPointer slot = some p := hslots 0 (Nat.succ_pos _)
    have hword : FieldType.word.size = 8 := rfl
    have hrest : m.readSlots (m.walk room) pointers.length (slot + 8) = Node.readAll room ns := by
      refine readSlots_of_laid ns hns fun i hi => ?_
      have hnext : slot + 8 + 8 * i = slot + 8 * (i + 1) := by omega
      rw [hnext]
      exact hslots (i + 1) (Nat.succ_lt_succ hi)
    rw [List.length_cons, readSlots, hfirst, Traced.ofOption_some_bind, hword, hrest,
      walk_of_laid n hn, Node.readAll]

end

end Memory

/-! ## 4. How the reading ends -/

namespace Node

theorem result_readPlaced (index : UInt64) (bitOffset : Int8) (x : Traced Halt (Value Token)) :
    (readPlaced index bitOffset x).result =
      x.result.map fun v => ⟨index.toInt64, bitOffset, v⟩ := by
  rw [readPlaced, Traced.result_bind]
  cases x.result <;> rfl

theorem result_readZero (tag : Tag) (index : UInt64) :
    (readZero tag index).result = .ok tag.zeroValue := by
  rcases tag.cases_kind with rfl | rfl | rfl | rfl | rfl | ⟨hk, hn⟩
  · rfl
  · rfl
  · rfl
  · rfl
  · rfl
  · rw [readZero, hk, Tag.zeroValue_of_not_mem hn]
    rfl

theorem depth_zeroValue (byteOffset : Int64) (bitOffset : Int8) (tag : Tag) :
    Token.depth ⟨byteOffset, bitOffset, tag.zeroValue⟩ = 1 := by
  rcases tag.cases_kind with rfl | rfl | rfl | rfl | rfl | ⟨-, hn⟩
  · rfl
  · rfl
  · rfl
  · rfl
  · rfl
  · rw [Tag.zeroValue_of_not_mem hn]
    rfl

mutual

/-- **How a walk over a node ends**: with its translation, or for want of room. -/
theorem result_read : ∀ (n : Node) (room : Nat),
    (n.read room).result =
      if n.translate.depth ≤ room then .ok n.translate else .error .tooDeep
  | ⟨shape, index, bitOffset, spare⟩, 0 => by
    have hdepth := (translate ⟨shape, index, bitOffset, spare⟩).one_le_depth
    rw [read, if_neg (by omega)]
    rfl
  | ⟨.null, _, _, _⟩, room + 1 => by
    rw [read, translate, if_pos (by simp [Token.zero, Token.depth])]
    rfl
  | ⟨.tagged tag, _, _, _⟩, room + 1 => by
    rw [read, translate, if_pos (by rw [depth_zeroValue]; omega), result_readPlaced,
      result_readZero]
    rfl
  | ⟨.none, _, _, _⟩, room + 1 => by
    rw [read, translate, if_pos (by rw [Token.depth]; omega)]
    rfl
  | ⟨.bytes span, _, _, _⟩, room + 1 => by
    rw [read, translate, if_pos (by rw [Token.depth]; omega)]
    rfl
  | ⟨.signed number, _, _, _⟩, room + 1 => by
    rw [read, translate, if_pos (by rw [Token.depth]; omega)]
    rfl
  | ⟨.unsigned number, _, _, _⟩, room + 1 => by
    rw [read, translate, if_pos (by rw [Token.depth]; omega)]
    rfl
  | ⟨.sequence items, _, _, _⟩, room + 1 => by
    rw [read, translate, result_readPlaced, Traced.result_bind, result_readAll items room,
      Token.depth]
    by_cases hdepth : Token.maxDepth (translateAll items) ≤ room
    · rw [if_pos hdepth, if_pos (by omega)]
      rfl
    · rw [if_neg hdepth, if_neg (by omega)]
      rfl

/-- How a walk over the nodes of a list ends. -/
theorem result_readAll : ∀ (ns : List Node) (room : Nat),
    (readAll room ns).result =
      if Token.maxDepth (translateAll ns) ≤ room then .ok (translateAll ns) else .error .tooDeep
  | [], room => by
    rw [readAll, translateAll, if_pos (by rw [Token.maxDepth]; omega)]
    rfl
  | n :: ns, room => by
    rw [readAll, translateAll, Token.maxDepth, Traced.result_bind, result_read n room]
    by_cases hfirst : n.translate.depth ≤ room
    · rw [if_pos hfirst]
      change ((readAll room ns >>= fun ts => pure (n.translate :: ts)) : Traced _ _).result = _
      rw [Traced.result_bind, result_readAll ns room]
      by_cases hrest : Token.maxDepth (translateAll ns) ≤ room
      · rw [if_pos hrest, if_pos (by omega)]
        rfl
      · rw [if_neg hrest, if_neg (by omega)]
        rfl
    · rw [if_neg hfirst, if_neg (by omega)]
      rfl

end

end Node

end TokenImage
