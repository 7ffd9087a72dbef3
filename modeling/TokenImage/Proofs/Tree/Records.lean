/-
# Records as tokens

What an engine has written into a record, read as the layout reading reads it.  A token record gives
its header and its payload (`headerAt_fields`, `numberAt_payload`, `numberAt_payload_span`), a
counted array its slots (`slotsAt_array`), and with them the value of the token.

What is read is at the same time located: `ReadsWithin` says that all that has to be read below a
pointer lies inside given blocks.  `Represents` has the two halves together, which is what laying
out a node establishes and what laying out the nodes around it needs.
-/
import TokenImage.Proofs.Decoder.Walk
import TokenImage.Proofs.Memory.Growth
import TokenImage.Proofs.Tree.Translation
import Mathlib.Data.List.Forall2

namespace TokenImage

/-! ## 1. Reads inside blocks -/

/-- The block lies inside one of the given ones. -/
def Extent.Within (e : Extent) (blocks : List Extent) : Prop :=
  ∃ b ∈ blocks, b.base ≤ e.base ∧ e.base + e.size ≤ b.base + b.size

namespace Memory

variable {m : Memory} {a : Nat} {blocks : List Extent}

/-- All that has to be read of the tokens below `root` lies inside the blocks. -/
def ReadsWithin (m : Memory) (root : Nat) (blocks : List Extent) : Prop :=
  ∀ p, m.Reachable root p → p ≠ 0 → ∀ e, m.ReadAt p e → e.Within blocks

/-- What lies below a token is the token itself and what lies below its children. -/
theorem readsWithin_of_child (hroot : ∀ e, m.ReadAt a e → e.Within blocks)
    (hchild : ∀ p, m.Child a p → m.ReadsWithin p blocks) : m.ReadsWithin a blocks := by
  intro p hp hne
  rcases Relation.ReflTransGen.cases_head hp with rfl | ⟨q, hq, hqp⟩
  · exact hroot
  · exact hchild q hq p hqp hne

/-- Below the null pointer nothing is read. -/
theorem readsWithin_zero : m.ReadsWithin 0 blocks := by
  intro p hp hne
  rcases Relation.ReflTransGen.cases_head hp with rfl | ⟨q, hq, -⟩
  · exact absurd rfl hne
  · exact absurd rfl hq.1

/-- What is read at a token lies in its record, in its span and in its array with the slots. -/
theorem ReadAt.within {tag : Nat} (ht : m.NumberAt a 4 tag) (hrecord : ⟨a, 48⟩ ∈ blocks)
    (hspan : tag = 2 → ∀ p n, m.NumberAt (a + 8) 8 p → p ≠ 0 → m.NumberAt (a + 16) 8 n →
      ⟨p, n⟩ ∈ blocks)
    (harray : tag = 16 → ∀ p, m.NumberAt (a + 8) 8 p → p ≠ 0 → ⟨p, 32⟩ ∈ blocks)
    (hslots : tag = 16 → ∀ elements used, m.SlotsAt a elements used → 0 < used →
      ∃ b ∈ blocks, b.base = elements ∧ 8 * used ≤ b.size) :
    ∀ e, m.ReadAt a e → e.Within blocks := by
  intro e he
  cases he with
  | tag => exact ⟨_, hrecord, by simp, by simp⟩
  | index => exact ⟨_, hrecord, by simp, by simp⟩
  | bitOffset => exact ⟨_, hrecord, by simp, by simp⟩
  | payload => exact ⟨_, hrecord, by simp, by simp⟩
  | length => exact ⟨_, hrecord, by simp, by simp⟩
  | span ht' hp hne hl =>
    exact ⟨_, hspan (ht.unique ht') _ _ hp hne hl, Nat.le_refl _, Nat.le_refl _⟩
  | elements ht' hp hne => exact ⟨_, harray (ht.unique ht') _ hp hne, by simp, by simp⟩
  | used ht' hp hne => exact ⟨_, harray (ht.unique ht') _ hp hne, by simp, by simp⟩
  | slot ht' hs hi =>
    obtain ⟨b, hb, rfl, hle⟩ := hslots (ht.unique ht') _ _ hs (by omega)
    refine ⟨b, hb, ?_, ?_⟩ <;> dsimp only <;> omega

/-! ## 2. Token records -/

variable {r : TokenRecord}

/-- A token record has the header that was written. -/
theorem headerAt_fields (h : m.FieldsAt a r.fields) :
    m.HeaderAt a r.tag.toNat r.index.toInt64 r.bitOffset := by
  rw [TokenRecord.fields, libraryLayout_eq] at h
  have htag := h (0, littleEndian 4 r.tag.toNat) (by simp)
  have hindex := h (24, littleEndian 8 r.index.toNat) (by simp)
  have hbit := h (40, [r.bitOffset.toUInt8]) (by simp)
  refine ⟨htag.numberAt r.tag.toNat_lt, ⟨_, hindex.numberAt r.index.toNat_lt, ?_⟩, ?_⟩
  · exact toInt_toInt64 r.index
  · refine ⟨_, hbit 0 (by simp), ?_⟩
    have := toInt_toInt8 r.bitOffset.toUInt8
    rwa [Int8.toInt8_toUInt8] at this

/-- A payload of one word begins with it. -/
theorem numberAt_payload {n : UInt64} (h : m.FieldsAt a r.fields) (hr : r.payload = .word n) :
    m.NumberAt (a + 8) 8 n.toNat := by
  rw [TokenRecord.fields, libraryLayout_eq, hr] at h
  have hpayload := h (8, littleEndian 8 n.toNat) (by simp [Payload.bytes])
  exact hpayload.numberAt n.toNat_lt

/-- A payload of a pointer and a length has the one and then the other. -/
theorem numberAt_payload_span {pointer length : Nat} (h : m.FieldsAt a r.fields)
    (hr : r.payload = .span pointer length) (hp : pointer < addressSpace)
    (hl : length < addressSpace) :
    m.NumberAt (a + 8) 8 pointer ∧ m.NumberAt (a + 16) 8 length := by
  rw [TokenRecord.fields, libraryLayout_eq, hr] at h
  have hpayload := h (8, littleEndian 8 pointer ++ littleEndian 8 length) (by simp [Payload.bytes])
  obtain ⟨hpointer, hlength⟩ := bytesAt_append.mp hpayload
  rw [length_littleEndian] at hlength
  exact ⟨hpointer.numberAt hp, hlength.numberAt hl⟩

/-- A counted array has the used count and the pointer to its slots that were written. -/
theorem numberAt_array {r : CountedArray} (h : m.FieldsAt a r.fields)
    (hused : r.used < addressSpace) (helements : r.elements < addressSpace) :
    m.NumberAt (a + 8) 8 r.used ∧ m.NumberAt (a + 24) 8 r.elements := by
  have hu := h (8, littleEndian 8 r.used) (by simp [CountedArray.fields, arrayLayout])
  have he := h (24, littleEndian 8 r.elements) (by simp [CountedArray.fields, arrayLayout])
  exact ⟨hu.numberAt hused, he.numberAt helements⟩

/-- Each slot of an element array has its pointer. -/
theorem numberAt_slot {pointers : List Nat} {spare i : Nat}
    (h : m.BytesAt a (BuildSite.slotBytes pointers spare)) (hi : i < pointers.length)
    (hp : ∀ p ∈ pointers, p < addressSpace) : m.NumberAt (a + 8 * i) 8 pointers[i] := by
  have hword : FieldType.word.size = 8 := rfl
  rw [BuildSite.slotBytes, hword, List.flatMap_append, bytesAt_append] at h
  replace h := h.1
  induction pointers generalizing a i with
  | nil => exact absurd hi (Nat.not_lt_zero i)
  | cons p ps ih =>
    rw [List.flatMap_cons, bytesAt_append, length_littleEndian] at h
    obtain ⟨hhead, htail⟩ := h
    cases i with
    | zero => exact hhead.numberAt (hp p List.mem_cons_self)
    | succ i =>
      have := ih (by simpa using hi) (fun q hq => hp q (List.mem_cons_of_mem p hq)) htail
      rwa [Nat.add_assoc, Nat.add_comm 8, ← Nat.mul_succ] at this

/-! ## 3. Tokens in blocks -/

/-- **The pointer `p` stands for the token `t` in the blocks**: the token is at the pointer, and all
that is read for it lies in the blocks. -/
structure Represents (m : Memory) (blocks : List Extent) (p : Nat) (t : Token) : Prop where
  token_at : m.TokenAt p t
  within : m.ReadsWithin p blocks
  pointer_lt : p < addressSpace

/-- The null pointer stands for the zero token. -/
theorem represents_zero : m.Represents blocks 0 Token.zero :=
  ⟨.null, readsWithin_zero, by decide⟩

/-- A token that is no sequence has no children. -/
theorem not_child {tag p : Nat} (ht : m.NumberAt a 4 tag) (htag : tag ≠ 16) : ¬ m.Child a p := by
  rintro ⟨-, ht', -⟩
  exact htag (ht.unique ht')

/-- **A record with one word** that is not a pointer, or is a null one. -/
theorem represents_word {n : UInt64} {v : Value Token} (hpos : 0 < a) (hlt : a < addressSpace)
    (hblock : ⟨a, 48⟩ ∈ blocks) (h : m.FieldsAt a r.fields) (hr : r.payload = .word n)
    (hnull : r.tag = 2 ∨ r.tag = 16 → n = 0) (hv : ValueAt m m.TokenAt r.tag.toNat a v) :
    m.Represents blocks a ⟨r.index.toInt64, r.bitOffset, v⟩ := by
  have hheader := headerAt_fields h
  have hnumber := numberAt_payload h hr
  have hnoPointer : r.tag.toNat = 2 ∨ r.tag.toNat = 16 → ∀ p, m.NumberAt (a + 8) 8 p → p = 0 := by
    intro htag p hp
    have hn : n = 0 := hnull (htag.imp UInt32.toNat_inj.mp UInt32.toNat_inj.mp)
    rw [hn] at hnumber
    exact hp.unique hnumber
  have hslots : r.tag.toNat = 16 → ∀ elements used, m.SlotsAt a elements used → used = 0 := by
    intro htag elements used hs
    cases hs with
    | nullArray => rfl
    | nullElements => rfl
    | slots hp hne => exact absurd (hnoPointer (.inr htag) _ hp) hne
  refine ⟨.record (by omega) hheader hv, readsWithin_of_child ?_ ?_, hlt⟩
  · refine ReadAt.within hheader.tag_at hblock ?_ ?_ ?_
    · intro htag p _ hp hne
      exact absurd (hnoPointer (.inl htag) p hp) hne
    · intro htag p hp hne
      exact absurd (hnoPointer (.inr htag) p hp) hne
    · intro htag elements used hs hpos
      have := hslots htag elements used hs
      omega
  · rintro p ⟨-, ht, elements, used, i, hs, hi, -⟩
    have := hslots (hheader.tag_at.unique ht) elements used hs
    omega

/-- **A byte record** with a buffer for its span. -/
theorem represents_span {pointer : Nat} {span : List UInt8} (hpos : 0 < a) (hlt : a < addressSpace)
    (hblock : ⟨a, 48⟩ ∈ blocks) (h : m.FieldsAt a r.fields) (htag : r.tag = 2)
    (hr : r.payload = .span pointer span.length) (hbuffer : ⟨pointer, span.length⟩ ∈ blocks)
    (haddress : (⟨pointer, span.length⟩ : Extent).Addressable) (hbytes : m.BytesAt pointer span) :
    m.Represents blocks a ⟨r.index.toInt64, r.bitOffset, .bytes span⟩ := by
  have hheader := headerAt_fields h
  rw [htag] at hheader
  have ht : m.NumberAt a 4 2 := hheader.tag_at
  obtain ⟨hpointer, hlength⟩ := numberAt_payload_span h hr haddress.base_lt haddress.size_lt
  have hne : pointer ≠ 0 := Nat.ne_of_gt haddress.base_pos
  have hv : ValueAt m m.TokenAt 2 a (.bytes span) := .bytes (.bytes hpointer hne hlength hbytes)
  refine ⟨.record (by omega) hheader hv, readsWithin_of_child ?_ ?_, hlt⟩
  · refine ReadAt.within ht hblock ?_ ?_ ?_
    · intro _ p n hp _ hn
      obtain rfl := hpointer.unique hp
      obtain rfl := hlength.unique hn
      exact hbuffer
    · exact fun htag => absurd htag (by decide)
    · exact fun htag => absurd htag (by decide)
  · exact fun p hp => absurd hp (not_child ht (by decide))

/-- A counted array at the payload's pointer has the slots that it counts. -/
theorem slotsAt_array {array used : Nat} {counts : CountedArray} {elements : Extent}
    (hpointer : m.NumberAt (a + 8) 8 array) (hne : array ≠ 0)
    (hcounts : m.FieldsAt array counts.fields) (hused : counts.used = used)
    (hbound : used < addressSpace) (helements : counts.elements = elements.base)
    (helementsAt : elements.Addressable) : m.SlotsAt a elements.base used := by
  obtain ⟨husedAt, helementsWord⟩ := numberAt_array hcounts (by rw [hused]; exact hbound)
    (by rw [helements]; exact helementsAt.base_lt)
  rw [hused] at husedAt
  rw [helements] at helementsWord
  exact .slots hpointer hne helementsWord (Nat.ne_of_gt helementsAt.base_pos) husedAt

/-- **A sequence record** with an array whose slots lead to its items. -/
theorem represents_slots {array : Nat} {counts : CountedArray} (elements : Extent) (spare : Nat)
    {pointers : List Nat} {items : List Token} (hpos : 0 < a) (hlt : a < addressSpace)
    (hblock : ⟨a, 48⟩ ∈ blocks) (h : m.FieldsAt a r.fields) (htag : r.tag = 16)
    (hr : r.payload = .word array.toUInt64) (harray : ⟨array, 32⟩ ∈ blocks)
    (harrayAt : (⟨array, 32⟩ : Extent).Addressable) (hcounts : m.FieldsAt array counts.fields)
    (hused : counts.used = pointers.length) (helements : counts.elements = elements.base)
    (helementsIn : elements ∈ blocks) (helementsAt : elements.Addressable)
    (hsize : 8 * pointers.length ≤ elements.size)
    (hslots : m.BytesAt elements.base (BuildSite.slotBytes pointers spare))
    (hitems : List.Forall₂ (m.Represents blocks) pointers items) :
    m.Represents blocks a ⟨r.index.toInt64, r.bitOffset, .sequence items⟩ := by
  have hheader := headerAt_fields h
  rw [htag] at hheader
  have ht : m.NumberAt a 4 16 := hheader.tag_at
  have hpointer : m.NumberAt (a + 8) 8 array := by
    have := numberAt_payload h hr
    rwa [Nat.toUInt64, UInt64.toNat_ofNat_of_lt' harrayAt.base_lt] at this
  have hne : array ≠ 0 := Nat.ne_of_gt harrayAt.base_pos
  have hlength := hitems.length_eq
  have hget : ∀ i (hi : i < pointers.length) (hi' : i < items.length),
      m.Represents blocks pointers[i] items[i] := fun i hi hi' => List.Forall₂.get hitems hi hi'
  have hpointers : ∀ p ∈ pointers, p < addressSpace := by
    intro p hp
    obtain ⟨i, hi, rfl⟩ := List.getElem_of_mem hp
    exact (hget i hi (by omega)).pointer_lt
  have hslot : ∀ i (hi : i < pointers.length), m.NumberAt (elements.base + 8 * i) 8 pointers[i] :=
    fun i hi => numberAt_slot hslots hi hpointers
  have hbound : pointers.length < addressSpace := by
    have := helementsAt.size_lt
    omega
  have hs : m.SlotsAt a elements.base pointers.length :=
    slotsAt_array hpointer hne hcounts hused hbound helements helementsAt
  have hv : ValueAt m m.TokenAt 16 a (.sequence items) := by
    refine valueAt_sequence_iff.mpr ⟨elements.base, by rwa [← hlength], fun i hi => ?_⟩
    exact ⟨_, hslot i (by omega), (hget i (by omega) hi).token_at⟩
  refine ⟨.record (by omega) hheader hv, readsWithin_of_child ?_ ?_, hlt⟩
  · refine ReadAt.within ht hblock ?_ ?_ ?_
    · exact fun htag => absurd htag (by decide)
    · intro _ p hp _
      obtain rfl := hpointer.unique hp
      exact harray
    · intro _ e used hs' _
      obtain ⟨rfl, rfl⟩ := hs.unique hs'
      exact ⟨elements, helementsIn, rfl, hsize⟩
  · rintro p ⟨-, -, e, used, i, hs', hi, hp⟩
    obtain ⟨rfl, rfl⟩ := hs.unique hs'
    obtain rfl := (hslot i hi).unique hp
    exact (hget i hi (by omega)).within

end Memory

end TokenImage
