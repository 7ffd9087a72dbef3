/-
# What is reached of a node

A node is laid out as a graph, and the paths of the graph are those of the node: the item that a path
leads to in the node (`Node.at?`) is what stands at the pointer that the path leads to in memory
(`path_iff_of_occupies`, `standsFor_of_occupies`).

A token is laid out in several pieces, which are found from its pointer: its record, and then its
buffer, or its array with the slots (`PieceAt`).  `pieces_of_occupies` says that the blocks of a node
are the pieces that its paths lead to, one for one: no piece is missing, none is there twice, and
there is nothing else.
-/
import TokenImage.Proofs.Graph.Paths
import TokenImage.Proofs.Tree.Occupied
import TokenImage.Proofs.Tree.Reading

namespace TokenImage

/-! ## 1. Items of a node -/

/-- The node that a path of slots leads to. -/
def Node.at? (n : Node) : (path : List Nat) → Option Node
  | [] => some n
  | i :: path =>
    match n.shape with
    | .sequence items => items[i]?.bind fun item => item.at? path
    | _ => none

/-- A word that is the payload of a byte token or of a sequence is a null pointer. -/
theorem Node.word_eq_zero {n : Node} {tag : Tag} {word : UInt64} (hn : n.word? = some (tag, word))
    (ht : tag = 2 ∨ tag = 16) : word = 0 := by
  obtain ⟨shape, index, bitOffset, spare⟩ := n
  cases shape with
  | null | bytes | sequence => cases hn
  | tagged | none =>
    obtain ⟨rfl, rfl⟩ := Prod.mk.inj (Option.some.inj hn)
    rfl
  | signed | unsigned =>
    obtain ⟨rfl, rfl⟩ := Prod.mk.inj (Option.some.inj hn)
    exact absurd ht (by decide)

namespace Memory

variable {m : Memory}

/-! ## 2. What stands at a pointer -/

/-- The token at `p` has this tag and this position, and no bit length. -/
structure HeaderOf (m : Memory) (p : Nat) (tag : Tag) (index : UInt64) (bitOffset : Int8) :
    Prop where
  ne_zero : p ≠ 0
  tag_eq : m.tokenTag p = some tag
  index_eq : m.tokenIndex p = some index
  bitOffset_eq : m.tokenBitOffset p = some bitOffset
  bitLength_eq : m.tokenBitLength p = some 0

/-- The token at `p` has this array, which uses so many slots and has so many to spare. -/
structure ArrayOf (m : Memory) (p array elements used spare : Nat) : Prop where
  pointer_eq : m.payloadPointer p = some array
  ne_zero : array ≠ 0
  used_eq : m.arrayUsed array = some used
  capacity_eq : m.arrayCapacity array = some (used + spare)
  elements_eq : m.arrayElements array = some elements
  elements_ne_zero : elements ≠ 0

/-- **What stands at the pointer of a node**, short of what its slots lead to.  A byte token has a
buffer with its bytes.  A sequence has an array that uses a slot for each item, and has the spare
slots besides, all of them null. -/
inductive StandsFor (m : Memory) : Nat → Node → Prop
  | null {n : Node} (hn : n.shape = .null) : StandsFor m 0 n
  | word {p : Nat} {n : Node} {tag : Tag} {word : UInt64} (hn : n.word? = some (tag, word))
      (hh : m.HeaderOf p tag n.index n.bitOffset) (hw : m.payloadUnsigned p = some word) :
      StandsFor m p n
  | bytes {p buffer : Nat} {n : Node} {span : List UInt8} (hn : n.shape = .bytes span)
      (hh : m.HeaderOf p .bytes n.index n.bitOffset) (hb : m.payloadPointer p = some buffer)
      (hne : buffer ≠ 0) (hl : m.payloadLength p = some span.length)
      (hs : m.load buffer span.length = some span) : StandsFor m p n
  | sequence {p array elements : Nat} {n : Node} {items : List Node}
      (hn : n.shape = .sequence items) (hh : m.HeaderOf p .sequence n.index n.bitOffset)
      (ha : m.ArrayOf p array elements items.length n.spareCapacity)
      (hspare : ∀ i, items.length ≤ i → i < items.length + n.spareCapacity →
        m.loadPointer (elements + 8 * i) = some 0) : StandsFor m p n

variable {blocks blocks' : List Extent} {p array spare : Nat} {elements : Extent}
  {pointers : List Nat} {r : TokenRecord}

theorem RecordAt.headerOf (h : m.RecordAt blocks p r) (hr : r.bitLength = 0) :
    m.HeaderOf p r.tag r.index r.bitOffset where
  ne_zero := Nat.ne_of_gt h.block.addressable.base_pos
  tag_eq := tokenTag_eq_some_iff.mpr (headerAt_fields h.fields).tag_at
  index_eq := tokenIndex_fields h.fields
  bitOffset_eq := tokenBitOffset_eq_some_iff.mpr (headerAt_fields h.fields).bit_at
  bitLength_eq := by
    have hfields := h.fields
    rw [TokenRecord.fields, libraryLayout_eq, hr] at hfields
    have hzero : m.BytesAt (p + 32) (littleEndian 8 0) := hfields (32, littleEndian 8 0) (by simp)
    rw [tokenBitLength, libraryLayout_eq]
    exact loadUInt64_eq_some_iff.mpr (hzero.numberAt (by decide))

theorem SlotsLaid.arrayOf (h : m.SlotsLaid blocks array elements pointers spare)
    (hrecord : m.RecordAt blocks' p r) (hr : r.payload = .word array.toUInt64) :
    m.ArrayOf p array elements.base pointers.length spare := by
  have hsize := h.slots.size_eq
  have hlt := h.slots.block.addressable.size_lt
  have hword : FieldType.word.size = 8 := rfl
  rw [BuildSite.length_slotBytes, hword] at hsize
  have hpointer := numberAt_payload hrecord.fields hr
  rw [Nat.toUInt64, UInt64.toNat_ofNat_of_lt' h.block.addressable.base_lt] at hpointer
  have hbound : pointers.length < addressSpace := by omega
  obtain ⟨hused, helements⟩ :=
    numberAt_array h.fields hbound h.slots.block.addressable.base_lt
  have hcapacity : m.BytesAt (array + 0) (littleEndian 8 (pointers.length + spare)) :=
    h.fields (0, littleEndian 8 (pointers.length + spare)) List.mem_cons_self
  exact {
    pointer_eq := payloadPointer_eq_some_iff.mpr hpointer
    ne_zero := Nat.ne_of_gt h.block.addressable.base_pos
    used_eq := arrayUsed_eq_some_iff.mpr hused
    capacity_eq := loadPointer_eq_some_iff.mpr (hcapacity.numberAt (show _ < addressSpace by omega))
    elements_eq := arrayElements_eq_some_iff.mpr helements
    elements_ne_zero := Nat.ne_of_gt h.slots.block.addressable.base_pos }

/-- The slots beyond those in use are null. -/
theorem SlotsLaid.loadPointer_spare (h : m.SlotsLaid blocks array elements pointers spare)
    (hp : ∀ p ∈ pointers, p < addressSpace) {i : Nat} (hi : pointers.length ≤ i)
    (hi' : i < pointers.length + spare) : m.loadPointer (elements.base + 8 * i) = some 0 := by
  have hall : BuildSite.slotBytes pointers spare =
      BuildSite.slotBytes (pointers ++ List.replicate spare 0) 0 := by
    rw [BuildSite.slotBytes, BuildSite.slotBytes, List.replicate_zero, List.append_nil]
  have hbytes := h.slots.bytes
  rw [hall] at hbytes
  have hlt : i < (pointers ++ List.replicate spare 0).length := by simpa using hi'
  have hslot := numberAt_slot hbytes hlt fun q hq => by
    rcases List.mem_append.mp hq with hq | hq
    · exact hp q hq
    · rw [List.eq_of_mem_replicate hq]
      decide
  rw [List.getElem_append_right hi, List.getElem_replicate] at hslot
  exact loadPointer_eq_some_iff.mpr hslot

/-! ## 3. Paths -/

/-- Each item of a sequence is laid out at its pointer, in blocks of its own. -/
theorem OccupiesAll.get {items : List Node} {owned : List OwnedBlock}
    (h : m.OccupiesAll pointers items owned) {i q : Nat} (hq : pointers[i]? = some q) :
    ∃ k new, items[i]? = some k ∧ m.Occupies q k new := by
  induction items generalizing pointers owned i with
  | nil =>
    cases h
    cases hq
  | cons n ns ih =>
    cases h with
    | cons hn hns =>
      cases i with
      | zero =>
        obtain rfl := Option.some.inj hq
        exact ⟨_, _, rfl, hn⟩
      | succ i => exact ih hns hq

theorem OccupiesAll.length_eq {items : List Node} {owned : List OwnedBlock}
    (h : m.OccupiesAll pointers items owned) : pointers.length = items.length :=
  (allLaid_of_occupiesAll h).length_eq

theorem OccupiesAll.lt {items : List Node} {owned : List OwnedBlock}
    (h : m.OccupiesAll pointers items owned) : ∀ p ∈ pointers, p < addressSpace :=
  lt_of_allLaid (allLaid_of_occupiesAll h)

/-- The slots of a sequence in use are those of its items. -/
theorem SlotsLaid.slotAt_iff (h : m.SlotsLaid blocks array elements pointers spare)
    (hrecord : m.RecordAt blocks' p r) (ht : r.tag = .sequence)
    (hr : r.payload = .word array.toUInt64) (hp : ∀ p ∈ pointers, p < addressSpace) {i q : Nat} :
    m.SlotAt p i q ↔ pointers[i]? = some q := by
  have htag := (headerAt_fields hrecord.fields).tag_at
  rw [ht] at htag
  have hs := h.arrayOf hrecord hr
  have hs : m.SlotsAt p elements.base pointers.length :=
    .slots (payloadPointer_eq_some_iff.mp hs.pointer_eq) hs.ne_zero
      (arrayElements_eq_some_iff.mp hs.elements_eq) hs.elements_ne_zero
      (arrayUsed_eq_some_iff.mp hs.used_eq)
  rw [hs.slotAt_iff (Nat.ne_of_gt hrecord.block.addressable.base_pos) htag]
  constructor
  · rintro ⟨hi, hq⟩
    rw [List.getElem?_eq_getElem hi, hq.unique (numberAt_slot h.slots.bytes hi hp)]
  · intro hq
    obtain ⟨hi, rfl⟩ := List.getElem?_eq_some_iff.mp hq
    exact ⟨hi, numberAt_slot h.slots.bytes hi hp⟩

/-- A word leads nowhere. -/
theorem not_slotAt_of_word {n : Node} {tag : Tag} {word : UInt64}
    (hn : n.word? = some (tag, word))
    (h : m.RecordAt blocks p
      { tag, payload := .word word, index := n.index, bitOffset := n.bitOffset }) {i q : Nat} :
    ¬ m.SlotAt p i q := by
  rintro ⟨-, ht, elements, used, hs, hi, -⟩
  have htag : tag = 16 := UInt32.toNat_inj.mp ((headerAt_fields h.fields).tag_at.unique ht)
  have hzero := numberAt_payload h.fields rfl
  rw [Node.word_eq_zero hn (.inr htag)] at hzero
  obtain ⟨-, rfl⟩ := hs.unique (.nullArray hzero)
  exact Nat.not_lt_zero i hi

/-- **A slot of a token is an item of its node**, and is laid out as the item is. -/
theorem slotAt_of_occupies {n : Node} {owned : List OwnedBlock} (h : m.Occupies p n owned)
    {i : Nat} :
    (∀ q, m.SlotAt p i q → ∃ items k new, n.shape = .sequence items ∧ items[i]? = some k ∧
      m.Occupies q k new) ∧
    ∀ items k, n.shape = .sequence items → items[i]? = some k → ∃ q, m.SlotAt p i q := by
  cases h with
  | null => exact ⟨fun q hs => absurd rfl hs.1, nofun⟩
  | word hn hrecord =>
    refine ⟨fun q hs => absurd hs (not_slotAt_of_word hn hrecord), fun items k hshape => ?_⟩
    rw [Node.word?, hshape] at hn
    cases hn
  | bytes hrecord =>
    have htag : m.NumberAt p 4 2 := (headerAt_fields hrecord.fields).tag_at
    exact ⟨fun q hs => absurd (hs.2.1.unique htag) (by decide), nofun⟩
  | sequence hrecord hslots hitems =>
    have hslot := fun q => hslots.slotAt_iff hrecord rfl rfl hitems.lt (i := i) (q := q)
    refine ⟨fun q hs => ?_, fun items k hshape hk => ?_⟩
    · obtain ⟨k, new, hk, hq⟩ := hitems.get ((hslot q).mp hs)
      exact ⟨_, k, new, rfl, hk, hq⟩
    · obtain rfl := Shape.sequence.inj hshape
      have hi := (List.getElem?_eq_some_iff.mp hk).1
      rw [← hitems.length_eq] at hi
      exact ⟨_, (hslot _).mpr (List.getElem?_eq_getElem hi)⟩

/-- **The paths of the graph are those of the node**, and lead to its items. -/
theorem path_of_occupies (path : List Nat) {n : Node} {owned : List OwnedBlock}
    (h : m.Occupies p n owned) :
    (∀ q, m.PathAt p path q → ∃ k new, n.at? path = some k ∧ m.Occupies q k new) ∧
      ∀ k, n.at? path = some k → ∃ q, m.PathAt p path q := by
  induction path generalizing p n owned with
  | nil =>
    refine ⟨fun q hq => ?_, fun k _ => ⟨p, .root⟩⟩
    obtain rfl := pathAt_nil_iff.mp hq
    exact ⟨n, owned, rfl, h⟩
  | cons i path ih =>
    obtain ⟨hforth, hback⟩ := slotAt_of_occupies h (i := i)
    constructor
    · intro q hq
      obtain ⟨q', hs, hq⟩ := pathAt_cons_iff.mp hq
      obtain ⟨items, k, new, hshape, hk, hoccupies⟩ := hforth q' hs
      obtain ⟨k', new', hk', hoccupies'⟩ := (ih hoccupies).1 q hq
      exact ⟨k', new', by rw [Node.at?, hshape]; simp only [hk, Option.bind_some, hk'], hoccupies'⟩
    · intro k hk
      rw [Node.at?] at hk
      split at hk
      · rename_i items hshape
        obtain ⟨item, hitem, hk⟩ := Option.bind_eq_some_iff.mp hk
        obtain ⟨q', hs⟩ := hback items item hshape hitem
        obtain ⟨items', item', new, hshape', hitem', hoccupies⟩ := hforth q' hs
        obtain rfl := Shape.sequence.inj (hshape.symm.trans hshape')
        obtain rfl := Option.some.inj (hitem.symm.trans hitem')
        obtain ⟨q, hq⟩ := (ih hoccupies).2 k hk
        exact ⟨q, .slot hs hq⟩
      · cases hk

/-- What stands at the pointer of a node is what was written there. -/
theorem standsFor_of_occupies {n : Node} {owned : List OwnedBlock} (h : m.Occupies p n owned) :
    m.StandsFor p n := by
  cases h with
  | null => exact .null rfl
  | word hn hrecord =>
    exact .word hn (hrecord.headerOf rfl)
      (payloadUnsigned_eq_some_iff.mpr (numberAt_payload hrecord.fields rfl))
  | @bytes _ span buffer _ _ _ hrecord hbuffer =>
    have haddress := hbuffer.block.addressable
    have hlt : span.length < addressSpace := hbuffer.size_eq ▸ haddress.size_lt
    obtain ⟨hpointer, hlength⟩ := numberAt_payload_span hrecord.fields rfl haddress.base_lt hlt
    exact .bytes rfl (hrecord.headerOf rfl)
      (payloadPointer_eq_some_iff.mpr hpointer) (Nat.ne_of_gt haddress.base_pos)
      (payloadLength_eq_some_iff.mpr hlength) (load_eq_some_iff.mpr ⟨rfl, hbuffer.bytes⟩)
  | @sequence _ array elements pointers items index bitOffset spare owned hrecord hslots hitems =>
    have harray := hslots.arrayOf hrecord rfl
    rw [hitems.length_eq] at harray
    refine .sequence rfl (hrecord.headerOf rfl) harray ?_
    intro i hi hi'
    rw [← hitems.length_eq] at hi hi'
    exact hslots.loadPointer_spare hitems.lt hi hi'

/-! ## 4. Pieces -/

/-- The block is a piece of the token at `p`: its record, its buffer, its array or its slots. -/
inductive PieceAt (m : Memory) (p : Nat) : OwnedBlock → Prop
  | token (hp : p ≠ 0) : PieceAt m p ⟨.token, ⟨p, 48⟩⟩
  | buffer {buffer length : Nat} (hp : p ≠ 0) (ht : m.tokenTag p = some .bytes)
      (hb : m.payloadPointer p = some buffer)
      (hne : buffer ≠ 0) (hl : m.payloadLength p = some length) : PieceAt m p ⟨.buffer, ⟨buffer, length⟩⟩
  | array {array : Nat} (hp : p ≠ 0) (ht : m.tokenTag p = some .sequence)
      (ha : m.payloadPointer p = some array) (hne : array ≠ 0) :
      PieceAt m p ⟨.array, ⟨array, 32⟩⟩
  | elements {array elements capacity : Nat} (hp : p ≠ 0) (ht : m.tokenTag p = some .sequence)
      (ha : m.payloadPointer p = some array) (hne : array ≠ 0)
      (he : m.arrayElements array = some elements) (hne' : elements ≠ 0)
      (hc : m.arrayCapacity array = some capacity) :
      PieceAt m p ⟨.elements, ⟨elements, 8 * capacity⟩⟩

/-- A word has no piece but its record. -/
theorem pieceAt_word_iff {n : Node} {tag : Tag} {word : UInt64} (hn : n.word? = some (tag, word))
    (h : m.RecordAt blocks p
      { tag, payload := .word word, index := n.index, bitOffset := n.bitOffset }) {b : OwnedBlock} :
    m.PieceAt p b ↔ b ∈ [(⟨.token, ⟨p, 48⟩⟩ : OwnedBlock)] := by
  have hh := h.headerOf rfl
  have hpointer : tag = 2 ∨ tag = 16 → ∀ q, m.payloadPointer p = some q → q = 0 := by
    intro ht q hq
    have hzero := numberAt_payload h.fields rfl
    rw [Node.word_eq_zero hn ht] at hzero
    exact (payloadPointer_eq_some_iff.mp hq).unique hzero
  rw [List.mem_singleton]
  constructor
  · intro hb
    cases hb with
    | token => rfl
    | buffer _ ht hb hne =>
      exact absurd (hpointer (.inl (Option.some.inj (hh.tag_eq.symm.trans ht))) _ hb) hne
    | array _ ht ha hne | elements _ ht ha hne =>
      exact absurd (hpointer (.inr (Option.some.inj (hh.tag_eq.symm.trans ht))) _ ha) hne
  · rintro rfl
    exact .token hh.ne_zero

/-- A byte token has its record and its buffer. -/
theorem pieceAt_bytes_iff {span : List UInt8} {buffer : Extent} {index : UInt64}
    {bitOffset : Int8}
    (h : m.RecordAt blocks p
      { tag := .bytes, payload := .span buffer.base span.length, index, bitOffset })
    (hbuffer : m.BufferAt blocks' buffer span) {b : OwnedBlock} :
    m.PieceAt p b ↔ b ∈ [(⟨.token, ⟨p, 48⟩⟩ : OwnedBlock), ⟨.buffer, buffer⟩] := by
  have hh : m.HeaderOf p .bytes index bitOffset := h.headerOf rfl
  have haddress := hbuffer.block.addressable
  have hlt : span.length < addressSpace := hbuffer.size_eq ▸ haddress.size_lt
  obtain ⟨hpointer, hlength⟩ := numberAt_payload_span h.fields rfl haddress.base_lt hlt
  have hpointer := payloadPointer_eq_some_iff.mpr hpointer
  have hlength := payloadLength_eq_some_iff.mpr hlength
  have hsize : buffer = ⟨buffer.base, span.length⟩ := by rw [← hbuffer.size_eq]
  simp only [List.mem_cons, List.not_mem_nil, or_false]
  constructor
  · intro hb
    cases hb with
    | token => exact .inl rfl
    | buffer _ _ hb _ hl =>
      obtain rfl := Option.some.inj (hb.symm.trans hpointer)
      obtain rfl := Option.some.inj (hl.symm.trans hlength)
      exact .inr (by rw [hsize])
    | array _ ht | elements _ ht =>
      exact absurd (Option.some.inj (hh.tag_eq.symm.trans ht)) (by decide)
  · rintro (rfl | rfl)
    · exact .token hh.ne_zero
    · rw [hsize]
      exact .buffer hh.ne_zero hh.tag_eq hpointer (Nat.ne_of_gt haddress.base_pos) hlength

/-- A sequence has its record, its array and its slots. -/
theorem pieceAt_sequence_iff {index : UInt64} {bitOffset : Int8}
    (h : m.RecordAt blocks p
      { tag := .sequence, payload := .word array.toUInt64, index, bitOffset })
    (hslots : m.SlotsLaid blocks' array elements pointers spare) {b : OwnedBlock} :
    m.PieceAt p b ↔
      b ∈ [(⟨.token, ⟨p, 48⟩⟩ : OwnedBlock), ⟨.array, ⟨array, 32⟩⟩, ⟨.elements, elements⟩] := by
  have hh : m.HeaderOf p .sequence index bitOffset := h.headerOf rfl
  have harray := hslots.arrayOf h rfl
  have hlength : elements.size = 8 * (pointers.length + spare) := by
    rw [hslots.slots.size_eq, BuildSite.length_slotBytes]
    rfl
  have hsize : elements = ⟨elements.base, 8 * (pointers.length + spare)⟩ := by rw [← hlength]
  simp only [List.mem_cons, List.not_mem_nil, or_false]
  constructor
  · intro hb
    cases hb with
    | token => exact .inl rfl
    | buffer _ ht => exact absurd (Option.some.inj (hh.tag_eq.symm.trans ht)) (by decide)
    | array _ _ ha =>
      obtain rfl := Option.some.inj (ha.symm.trans harray.pointer_eq)
      exact .inr (.inl rfl)
    | elements _ _ ha _ he _ hc =>
      obtain rfl := Option.some.inj (ha.symm.trans harray.pointer_eq)
      obtain rfl := Option.some.inj (he.symm.trans harray.elements_eq)
      obtain rfl := Option.some.inj (hc.symm.trans harray.capacity_eq)
      exact .inr (.inr (by rw [hsize]))
  · rintro (rfl | rfl | rfl)
    · exact .token hh.ne_zero
    · exact .array hh.ne_zero hh.tag_eq harray.pointer_eq harray.ne_zero
    · rw [hsize]
      exact .elements hh.ne_zero hh.tag_eq harray.pointer_eq harray.ne_zero harray.elements_eq
        harray.elements_ne_zero harray.capacity_eq

/-! ## 5. The blocks of a node are its pieces -/

/-- The list has the pieces of the tokens that the paths in `P` lead to, each once, with the path. -/
structure Pieces (m : Memory) (P : List Nat → Nat → Prop) (pieces : List (List Nat × OwnedBlock)) :
    Prop where
  nodup : pieces.Nodup
  mem_iff : ∀ path b, (path, b) ∈ pieces ↔ ∃ q, P path q ∧ m.PieceAt q b

/-- The paths that begin with a slot of these, counted from `first` on. -/
def PathFrom (m : Memory) (pointers : List Nat) (first : Nat) (path : List Nat) (q : Nat) : Prop :=
  ∃ i path' p, path = (first + i) :: path' ∧ pointers[i]? = some p ∧ m.PathAt p path' q

theorem pieces_nil (first : Nat) : m.Pieces (m.PathFrom [] first) [] := by
  refine ⟨List.nodup_nil, fun path b => ⟨nofun, ?_⟩⟩
  rintro ⟨q, ⟨i, path', p, -, hp, -⟩, -⟩
  cases hp

/-- The pieces of a graph are those of its root and those below its slots. -/
theorem Pieces.of_root {own : List OwnedBlock} {below : List (List Nat × OwnedBlock)}
    (hown : ∀ b, m.PieceAt p b ↔ b ∈ own) (hnodup : own.Nodup)
    (hslots : ∀ i q, m.SlotAt p i q ↔ pointers[i]? = some q)
    (hbelow : m.Pieces (m.PathFrom pointers 0) below) :
    m.Pieces (m.PathAt p) (own.map (fun b => ([], b)) ++ below) := by
  refine ⟨List.nodup_append.mpr ⟨?_, hbelow.nodup, ?_⟩, fun path b => ?_⟩
  · exact hnodup.map fun b b' h => (Prod.mk.inj h).2
  · rintro v hv ⟨path, b⟩ hw rfl
    obtain ⟨b', -, heq⟩ := List.mem_map.mp hv
    obtain ⟨q, ⟨i, path', _, rfl, -⟩, -⟩ := (hbelow.mem_iff path b).mp hw
    cases (Prod.mk.inj heq).1
  · rw [List.mem_append, hbelow.mem_iff, List.mem_map]
    constructor
    · rintro (⟨b', hb, heq⟩ | ⟨q, ⟨i, path', q', rfl, hq', hq⟩, hb⟩)
      · obtain ⟨rfl, rfl⟩ := Prod.mk.inj heq
        exact ⟨p, .root, (hown _).mpr hb⟩
      · rw [Nat.zero_add]
        exact ⟨q, .slot ((hslots _ _).mpr hq') hq, hb⟩
    · rintro ⟨q, hq, hb⟩
      cases hq with
      | root => exact .inl ⟨b, (hown b).mp hb, rfl⟩
      | @slot _ i q' _ path' hs hq =>
        exact .inr ⟨q, ⟨i, path', q', by rw [Nat.zero_add], (hslots _ _).mp hs, hq⟩, hb⟩

/-- The pieces below slots are those below the first and those below the others. -/
theorem Pieces.cons {first : Nat} {new later : List (List Nat × OwnedBlock)}
    (hnew : m.Pieces (m.PathAt p) new) (hlater : m.Pieces (m.PathFrom pointers (first + 1)) later) :
    m.Pieces (m.PathFrom (p :: pointers) first)
      (later ++ new.map fun v => (first :: v.1, v.2)) := by
  refine ⟨List.nodup_append.mpr ⟨hlater.nodup, ?_, ?_⟩, fun path b => ?_⟩
  · refine hnew.nodup.map fun v w h => ?_
    obtain ⟨hpath, hb⟩ := Prod.mk.inj h
    exact Prod.ext (List.cons.inj hpath).2 hb
  · rintro ⟨path, b⟩ hv w hw rfl
    obtain ⟨q, ⟨i, path', _, rfl, -⟩, -⟩ := (hlater.mem_iff path b).mp hv
    obtain ⟨u, -, heq⟩ := List.mem_map.mp hw
    have := (List.cons.inj (Prod.mk.inj heq).1).1
    omega
  · rw [List.mem_append, hlater.mem_iff, List.mem_map]
    constructor
    · rintro (⟨q, ⟨i, path', q', rfl, hq', hq⟩, hb⟩ | ⟨v, hv, heq⟩)
      · exact ⟨q, ⟨i + 1, path', q', by rw [Nat.add_assoc, Nat.add_comm 1], hq', hq⟩, hb⟩
      · obtain ⟨rfl, rfl⟩ := Prod.mk.inj heq
        obtain ⟨q, hq, hb⟩ := (hnew.mem_iff v.1 v.2).mp hv
        exact ⟨q, ⟨0, v.1, p, rfl, rfl, hq⟩, hb⟩
    · rintro ⟨q, ⟨i, path', q', rfl, hq', hq⟩, hb⟩
      cases i with
      | zero =>
        obtain rfl := Option.some.inj hq'
        exact .inr ⟨(path', b), (hnew.mem_iff path' b).mpr ⟨q, hq, hb⟩, rfl⟩
      | succ i =>
        exact .inl ⟨q, ⟨i, path', q', by rw [Nat.add_assoc, Nat.add_comm 1], hq', hq⟩, hb⟩

mutual

/-- **The blocks of a node are the pieces that its paths lead to**, one for one. -/
theorem pieces_of_occupies {p : Nat} {n : Node} {owned : List OwnedBlock} :
    m.Occupies p n owned →
      ∃ pieces, pieces.map Prod.snd = owned ∧ m.Pieces (m.PathAt p) pieces
  | .null => by
    refine ⟨[], rfl, List.nodup_nil, fun path b => ⟨nofun, ?_⟩⟩
    rintro ⟨q, hq, hb⟩
    obtain ⟨-, rfl⟩ := hq.eq_nil_of_null
    cases hb with
    | token hp | buffer hp | array hp | elements hp => exact absurd rfl hp
  | .word hn h => by
    have hno : ∀ i q, m.SlotAt p i q ↔ ([] : List Nat)[i]? = some q := fun i q =>
      iff_of_false (not_slotAt_of_word hn h) (by simp)
    have hpieces := Pieces.of_root (fun _ => pieceAt_word_iff hn h) (by simp) hno (pieces_nil 0)
    exact ⟨_, rfl, hpieces⟩
  | .bytes h hbuffer => by
    have htag : m.NumberAt p 4 2 := (headerAt_fields h.fields).tag_at
    have hno : ∀ i q, m.SlotAt p i q ↔ ([] : List Nat)[i]? = some q := fun i q =>
      iff_of_false (fun hs => absurd (hs.2.1.unique htag) (by decide)) (by simp)
    have hpieces := Pieces.of_root (fun _ => pieceAt_bytes_iff h hbuffer) (by simp) hno
      (pieces_nil 0)
    exact ⟨_, rfl, hpieces⟩
  | .sequence h hslots hitems => by
    obtain ⟨below, rfl, hbelow⟩ := pieces_of_occupiesAll hitems 0
    have hpieces := Pieces.of_root (fun _ => pieceAt_sequence_iff h hslots) (by simp)
      (fun i q => hslots.slotAt_iff h rfl rfl hitems.lt) hbelow
    exact ⟨_, rfl, hpieces⟩

/-- The blocks of nodes are the pieces below their pointers. -/
theorem pieces_of_occupiesAll {pointers : List Nat} {ns : List Node} {owned : List OwnedBlock} :
    m.OccupiesAll pointers ns owned → ∀ first,
      ∃ pieces, pieces.map Prod.snd = owned ∧ m.Pieces (m.PathFrom pointers first) pieces
  | .nil, first => ⟨[], rfl, pieces_nil first⟩
  | .cons hn hns, first => by
    obtain ⟨new, rfl, hnew⟩ := pieces_of_occupies hn
    obtain ⟨later, rfl, hlater⟩ := pieces_of_occupiesAll hns (first + 1)
    exact ⟨_, by rw [List.map_append, List.map_map]; rfl, hnew.cons hlater⟩

end

end Memory

end TokenImage
