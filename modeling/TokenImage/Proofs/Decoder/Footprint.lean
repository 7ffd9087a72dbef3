/-
# The footprint of a walk

A walk looks at nothing but the blocks that `ReadAt` names, and only at those of the tokens that it
visits.  Two memories that agree there give the same walk: the same token or the same error, and the
same events on the way (`walk_congr_of_visited`).  The rest of memory may be different or not mapped
at all, so this is also how it is said that nothing else is read.

Nothing is assumed about what is read.  Where a block is not mapped both walks end there.
-/
import TokenImage.Proofs.Graph.Paths

namespace TokenImage.Memory

variable {m m' : Memory}

/-! ## 1. One record -/

/-- The two memories agree on all that is read at the token record at `a`. -/
def AgreeAt (m m' : Memory) (a : Nat) : Prop :=
  ∀ e, m.ReadAt a e → m.AgreeOn m' e

theorem AgreeOn.load {e : Extent} (h : m.AgreeOn m' e) :
    m'.load e.base e.size = m.load e.base e.size :=
  load_congr fun x hx hx' => (h x hx hx').symm

theorem AgreeOn.loadUInt32 {a : Nat} (h : m.AgreeOn m' ⟨a, 4⟩) :
    m'.loadUInt32 a = m.loadUInt32 a := by
  rw [Memory.loadUInt32, Memory.loadUInt32, h.load]

theorem AgreeOn.loadUInt64 {a : Nat} (h : m.AgreeOn m' ⟨a, 8⟩) :
    m'.loadUInt64 a = m.loadUInt64 a := by
  rw [Memory.loadUInt64, Memory.loadUInt64, h.load]

theorem AgreeOn.loadPointer {a : Nat} (h : m.AgreeOn m' ⟨a, 8⟩) :
    m'.loadPointer a = m.loadPointer a := by
  rw [Memory.loadPointer, Memory.loadPointer, h.loadUInt64]

theorem AgreeAt.tokenTag {a : Nat} (h : m.AgreeAt m' a) : m'.tokenTag a = m.tokenTag a := by
  rw [Memory.tokenTag, Memory.tokenTag, libraryLayout_eq]
  exact (h _ .tag).loadUInt32

theorem AgreeAt.tokenIndex {a : Nat} (h : m.AgreeAt m' a) : m'.tokenIndex a = m.tokenIndex a := by
  rw [Memory.tokenIndex, Memory.tokenIndex, libraryLayout_eq]
  exact (h _ .index).loadUInt64

theorem AgreeAt.tokenBitOffset {a : Nat} (h : m.AgreeAt m' a) :
    m'.tokenBitOffset a = m.tokenBitOffset a := by
  rw [Memory.tokenBitOffset, Memory.tokenBitOffset, libraryLayout_eq, loadInt8, loadInt8,
    h _ .bitOffset _ (Nat.le_refl _) (Nat.lt_succ_self _)]

/-! ## 2. Payloads -/

variable {a tag : Nat}

theorem AgreeAt.loadPayload (h : m.AgreeAt m' a) (ht : m.NumberAt a 4 tag)
    (hk : tag ∈ [2, 4, 8, 16]) : m'.loadUInt64 (a + 8) = m.loadUInt64 (a + 8) :=
  (h _ (.payload ht hk)).loadUInt64

theorem AgreeAt.payloadPointer (h : m.AgreeAt m' a) (ht : m.NumberAt a 4 tag)
    (hk : tag ∈ [2, 4, 8, 16]) : m'.payloadPointer a = m.payloadPointer a := by
  rw [Memory.payloadPointer, Memory.payloadPointer, payloadAddress, engineLayout_eq, loadPointer,
    loadPointer, h.loadPayload ht hk]

theorem AgreeAt.tokenBytes (h : m.AgreeAt m' a) (ht : m.NumberAt a 4 2) :
    m'.tokenBytes a = m.tokenBytes a := by
  rw [Memory.tokenBytes, Memory.tokenBytes, h.payloadPointer ht (by decide)]
  refine Option.bind_congr ?_
  intro p hp
  by_cases hp0 : p = 0
  · rw [if_pos hp0, if_pos hp0]
  rw [if_neg hp0, if_neg hp0]
  have hp := payloadPointer_eq_some_iff.mp hp
  have hlength : m'.payloadLength a = m.payloadLength a := by
    rw [payloadLength, payloadLength, payloadAddress, engineLayout_eq]
    exact (h _ (.length ht hp hp0)).loadPointer
  rw [hlength]
  refine Option.bind_congr ?_
  intro n hn
  exact (h _ (.span ht hp hp0 (payloadLength_eq_some_iff.mp hn))).load

theorem AgreeAt.tokenSlots (h : m.AgreeAt m' a) (ht : m.NumberAt a 4 16) :
    m'.tokenSlots a = m.tokenSlots a := by
  rw [Memory.tokenSlots, Memory.tokenSlots, h.payloadPointer ht (by decide)]
  refine Option.bind_congr ?_
  intro array hp
  by_cases hp0 : array = 0
  · rw [if_pos hp0, if_pos hp0]
  rw [if_neg hp0, if_neg hp0]
  have hp := payloadPointer_eq_some_iff.mp hp
  have helements : m'.arrayElements array = m.arrayElements array :=
    (h _ (.elements ht hp hp0)).loadPointer
  rw [helements]
  refine Option.bind_congr ?_
  intro elements he
  by_cases he0 : elements = 0
  · rw [if_pos he0, if_pos he0]
  rw [if_neg he0, if_neg he0]
  have hused : m'.arrayUsed array = m.arrayUsed array :=
    (h _ (.used ht hp hp0 (arrayElements_eq_some_iff.mp he) he0)).loadPointer
  rw [hused]

/-! ## 3. Walks -/

/-- Slots are read alike where each holds one pointer in both memories and the pointers are read
alike.  Of the latter only those matter that are looked at: the slots before them have tokens. -/
theorem readSlots_congr {read read' : Nat → Traced Halt Token} {n slot : Nat}
    (hload : ∀ i, i < n → m'.loadPointer (slot + 8 * i) = m.loadPointer (slot + 8 * i))
    (hread : ∀ i p, i < n → m.NumberAt (slot + 8 * i) 8 p →
      (∀ j q, j < i → m.NumberAt (slot + 8 * j) 8 q → ∃ t, (read q).result = .ok t) →
      read' p = read p) :
    m'.readSlots read' n slot = m.readSlots read n slot := by
  induction n generalizing slot with
  | zero => rfl
  | succ n ih =>
    have hword : FieldType.word.size = 8 := rfl
    have hnext : ∀ i, slot + 8 + 8 * i = slot + 8 * (i + 1) := fun i => by omega
    have hslot : m'.loadPointer slot = m.loadPointer slot := hload 0 (Nat.succ_pos n)
    rw [readSlots, readSlots, hslot, hword]
    refine Traced.ofOption_bind_congr ?_
    intro p hp
    have hp : m.NumberAt slot 8 p := loadPointer_eq_some_iff.mp hp
    rw [hread 0 p (Nat.succ_pos n) hp fun j q hj => absurd hj (Nat.not_lt_zero j)]
    refine Traced.bind_congr ?_
    intro t ht
    rw [ih]
    · intro i hi
      rw [hnext]
      exact hload (i + 1) (by omega)
    · intro i q hi hq hbefore
      rw [hnext] at hq
      refine hread (i + 1) q (by omega) hq fun j r hj hr => ?_
      cases j with
      | zero => exact ⟨t, hp.unique hr ▸ ht⟩
      | succ j => exact hbefore j r (by omega) (by rwa [hnext])

theorem readValue_congr {read read' : Nat → Traced Halt Token} {tag : Tag} {index : UInt64}
    (ha : a ≠ 0) (h : m.AgreeAt m' a) (ht : m.NumberAt a 4 tag.toNat)
    (hread : ∀ i p, m.SlotAt a i p →
      (∀ j q, j < i → m.SlotAt a j q → ∃ t, (read q).result = .ok t) → read' p = read p) :
    m'.readValue read' a tag index = m.readValue read a tag index := by
  rcases tag.cases_kind with rfl | rfl | rfl | rfl | rfl | ⟨hk, -⟩
  · rfl
  · have hk : Tag.kind 2 = .bytes := by decide
    rw [readValue, readValue, hk, h.tokenBytes ht]
  · have hk : Tag.kind 4 = .signed := by decide
    have hload := h.loadPayload ht (by decide)
    rw [readValue, readValue, hk]
    simp only [payloadSigned, payloadAddress, engineLayout_eq, loadInt64, hload]
  · have hk : Tag.kind 8 = .unsigned := by decide
    have hload := h.loadPayload ht (by decide)
    rw [readValue, readValue, hk]
    simp only [payloadUnsigned, payloadAddress, engineLayout_eq, hload]
  · have hk : Tag.kind 16 = .sequence := by decide
    rw [readValue, readValue, hk]
    simp only [h.tokenSlots ht]
    refine Traced.ofOption_bind_congr ?_
    intro slots hs
    have hs : m.SlotsAt a slots.1 slots.2 := tokenSlots_eq_some_iff.mp hs
    have hslot : ∀ i p, i < slots.2 → m.NumberAt (slots.1 + 8 * i) 8 p → m.SlotAt a i p :=
      fun i p hi hp => (hs.slotAt_iff ha ht).mpr ⟨hi, hp⟩
    have hslots : m'.readSlots read' slots.2 slots.1 = m.readSlots read slots.2 slots.1 := by
      refine readSlots_congr (fun i hi => (h _ (.slot ht hs hi)).loadPointer) ?_
      intro i p hi hp hbefore
      refine hread i p (hslot i p hi hp) fun j q hj hq => hbefore j q hj ?_
      exact ((hs.slotAt_iff ha ht).mp hq).2
    exact congrArg (· >>= fun items => pure (Value.sequence items)) hslots
  · rw [readValue, readValue, hk]

/-- **A walk depends on its footprint only**: on what is read of the tokens that it visits. -/
theorem walk_congr_of_visited {room : Nat}
    (h : ∀ path p, m.Visited room a path p → p ≠ 0 → m.AgreeAt m' p) :
    m'.walk room a = m.walk room a := by
  induction room generalizing a with
  | zero => rfl
  | succ room ih =>
    rw [walk, walk]
    by_cases ha : a = 0
    · rw [if_pos ha, if_pos ha]
    have hat : m.AgreeAt m' a := h [] a visited_root ha
    rw [if_neg ha, if_neg ha, hat.tokenTag, hat.tokenIndex, hat.tokenBitOffset]
    refine Traced.ofOption_bind_congr ?_
    intro tag htag
    refine Traced.ofOption_bind_congr ?_
    intro index _
    refine Traced.ofOption_bind_congr ?_
    intro bitOffset _
    rw [readValue_congr ha hat (tokenTag_eq_some_iff.mp htag)]
    intro i p hp hbefore
    refine ih fun path q hq => h (i :: path) q (visited_cons_iff.mpr ⟨p, hp, hq, ?_⟩)
    -- a slot that was read has a token, so nothing below it is too deep
    intro j r hj hr
    obtain ⟨t, ht⟩ := hbefore j r hj hr
    obtain ⟨ht, hd⟩ := walk_eq_ok_iff.mp ht
    exact ht.shallow hd

/-- Tokens that are deeper than the room of a walk are not part of its footprint. -/
theorem walk_congr {room : Nat}
    (h : ∀ depth p, depth ≤ room → m.PointerAt a depth p → p ≠ 0 → m.AgreeAt m' p) :
    m'.walk room a = m.walk room a :=
  walk_congr_of_visited fun path p hp =>
    h (path.length + 1) p (Nat.succ_le_of_lt hp.length_lt) hp.1.pointerAt

end TokenImage.Memory
