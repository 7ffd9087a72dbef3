/-
# Decoding under a limit

With a limit a decoder goes down to the pointers at the limit and no further.  It needs nothing of
the graph but that it can be read so far; the graph may be cyclic, and what lies deeper may lead to
nowhere.

* `walk_error`: where all that a walk may read is mapped, it ends early for one reason only, which
  is that it is out of room.
* `decode_withMaxDepth`: under a limit the outcome is decided by whether some pointer is one deeper
  than the limit.  If there is none the token is the one that is read without a limit, and otherwise
  the error names the limit.  Nothing deeper is looked at in either case.
-/
import TokenImage.Proofs.Decoder.WellFormed
import TokenImage.Proofs.Decoder.Footprint

namespace TokenImage.Memory

variable {m : Memory}

/-! ## 1. Early ends of walks -/

/-- If every slot has a pointer, only the reading of one of them can fail. -/
theorem readSlots_error {read : Nat → Traced Halt Token} {n slot : Nat} {e : Halt}
    (hslots : ∀ i, i < n → ∃ p, m.NumberAt (slot + 8 * i) 8 p)
    (h : (m.readSlots read n slot).result = .error e) :
    ∃ i p, i < n ∧ m.NumberAt (slot + 8 * i) 8 p ∧ (read p).result = .error e := by
  induction n generalizing slot with
  | zero => cases h
  | succ n ih =>
    have hword : FieldType.word.size = 8 := rfl
    have hnext : ∀ i, slot + 8 + 8 * i = slot + 8 * (i + 1) := fun i => by omega
    obtain ⟨p, hp⟩ := hslots 0 (Nat.succ_pos n)
    have hload : m.loadPointer slot = some p := loadPointer_eq_some_iff.mpr hp
    rw [readSlots, Traced.result_bind_eq_error_iff] at h
    rcases h with h | ⟨q, hq, h⟩
    · rw [Traced.result_ofOption_eq_error_iff, hload] at h
      cases h.1
    rw [Traced.result_ofOption_eq_ok_iff] at hq
    rw [Traced.result_bind_eq_error_iff] at h
    rcases h with h | ⟨t, -, h⟩
    · exact ⟨0, q, Nat.succ_pos n, loadPointer_eq_some_iff.mp hq, h⟩
    rw [Traced.result_bind_eq_error_iff, hword] at h
    rcases h with h | ⟨ts, -, h⟩
    · obtain ⟨i, q, hi, hq, hfail⟩ := ih (fun i hi => by
        rw [hnext]
        exact hslots (i + 1) (by omega)) h
      exact ⟨i + 1, q, by omega, by rwa [hnext] at hq, hfail⟩
    · cases h

/-- If a record can be read, only the reading of a child of it can fail. -/
theorem readValue_error {read : Nat → Traced Halt Token} {a : Nat} {tag : Tag} {index : UInt64}
    {e : Halt} (hr : m.Readable a) (ha : a ≠ 0) (ht : m.NumberAt a 4 tag.toNat)
    (h : (m.readValue read a tag index).result = .error e) :
    ∃ p, m.Child a p ∧ (read p).result = .error e := by
  rcases tag.cases_kind with rfl | rfl | rfl | rfl | rfl | ⟨hk, -⟩
  · cases h
  · have hk : Tag.kind 2 = .bytes := by decide
    obtain ⟨span, hs⟩ := hr.exists_spanAt ht
    rw [readValue, hk] at h
    simp only [tokenBytes_eq_some_iff.mpr hs] at h
    cases h
  · have hk : Tag.kind 4 = .signed := by decide
    obtain ⟨n, hn⟩ := (hr _ (.payload ht (by decide))).exists_numberAt
    have hload : m.payloadSigned a = some (UInt64.ofNat n).toInt64 :=
      payloadSigned_eq_some_iff.mpr
        ⟨n, hn, by rw [toInt_toInt64, UInt64.toNat_ofNat_of_lt' hn.lt]⟩
    rw [readValue, hk] at h
    simp only [hload] at h
    cases h
  · have hk : Tag.kind 8 = .unsigned := by decide
    obtain ⟨n, hn⟩ := (hr _ (.payload ht (by decide))).exists_numberAt
    have hload : m.payloadUnsigned a = some (UInt64.ofNat n) :=
      payloadUnsigned_eq_some_iff.mpr (by rwa [UInt64.toNat_ofNat_of_lt' hn.lt])
    rw [readValue, hk] at h
    simp only [hload] at h
    cases h
  · have hk : Tag.kind 16 = .sequence := by decide
    obtain ⟨elements, used, hs, hslots⟩ := hr.exists_slotsAt ht
    rw [readValue, hk, Traced.result_bind_eq_error_iff] at h
    rcases h with h | ⟨slots, hslot, h⟩
    · rw [Traced.result_ofOption_eq_error_iff, tokenSlots_eq_some_iff.mpr hs] at h
      cases h.1
    rw [Traced.result_ofOption_eq_ok_iff, tokenSlots_eq_some_iff.mpr hs, Option.some.injEq] at hslot
    subst hslot
    rw [Traced.result_bind_eq_error_iff] at h
    rcases h with h | ⟨items, -, h⟩
    · obtain ⟨i, p, hi, hp, hfail⟩ := readSlots_error hslots h
      exact ⟨p, ⟨ha, ht, elements, used, i, hs, hi, hp⟩, hfail⟩
    · cases h
  · rw [readValue, hk] at h
    cases h

/-- **Where all that it may read is mapped, a walk ends early only for want of room.** -/
theorem walk_error {room a : Nat} {e : Halt}
    (hread : ∀ depth p, depth ≤ room → m.PointerAt a depth p → p ≠ 0 → m.Readable p)
    (h : (m.walk room a).result = .error e) : e = .tooDeep := by
  induction room generalizing a with
  | zero =>
    rw [walk, Traced.result_fail, Except.error.injEq] at h
    exact h.symm
  | succ room ih =>
    rw [walk] at h
    by_cases ha : a = 0
    · rw [if_pos ha] at h
      cases h
    have hr : m.Readable a := hread 1 a (by omega) .root ha
    -- the three numbers of the header are there, so it is the value that fails
    obtain ⟨tag, index, bitOffset, hload, hindex, hbit⟩ := hr.exists_header
    simp only [if_neg ha, hload, hindex, hbit, Traced.result_bind_eq_error_iff,
      Traced.result_ofOption_eq_error_iff, Traced.result_ofOption_eq_ok_iff, Option.some.injEq,
      reduceCtorEq, false_and, false_or, exists_eq_left', Traced.result_pure, and_false,
      exists_false, or_false] at h
    obtain ⟨p, hp, hfail⟩ := readValue_error hr ha (tokenTag_eq_some_iff.mp hload) h
    exact ih (fun depth q hd hq => hread (depth + 1) q (by omega) (hq.of_child hp)) hfail

/-! ## 2. The limit decides -/

/-- **A limit decides whether a tree is read, and nothing else about it.**  Let all be mapped that
is read of the tokens at the limit or above it.  Then under the limit

* there is a token exactly when no pointer, null or not, is one deeper than the limit;
* the token is what every decoder without a limit gives, and is no deeper than the limit;
* if some pointer is one deeper, the error is that of the limit;
* the bytes of these tokens decide all of it, the events included. -/
theorem decode_withMaxDepth {root : Nat} {limit : UInt64}
    (hread : ∀ depth p, depth ≤ limit.toNat → m.PointerAt root depth p → p ≠ 0 → m.Readable p)
    (d : Decoder) :
    ((∃ t, ((d.withMaxDepth limit).decode m root).result = .ok t) ↔
      ∀ p, ¬ m.PointerAt root (limit.toNat + 1) p) ∧
    (∀ t, ((d.withMaxDepth limit).decode m root).result = .ok t →
      (∀ d' : Decoder, d'.maxDepth = none → (d'.decode m root).result = .ok t) ∧
      t.depth ≤ limit.toNat) ∧
    ((∃ p, m.PointerAt root (limit.toNat + 1) p) →
      ((d.withMaxDepth limit).decode m root).result = .error
        { kind := .depthLimit, message := some "token tree exceeds max depth",
          depth := some limit, source := none }) ∧
    ∀ m' : Memory,
      (∀ depth p, depth ≤ limit.toNat → m.PointerAt root depth p → p ≠ 0 → m.AgreeAt m' p) →
      (d.withMaxDepth limit).decode m' root = (d.withMaxDepth limit).decode m root := by
  have hroom : (d.withMaxDepth limit).room = limit.toNat := rfl
  have hok : (∃ t, ((d.withMaxDepth limit).decode m root).result = .ok t) ↔
      ∀ p, ¬ m.PointerAt root (limit.toNat + 1) p := by
    simp only [Decoder.decode_eq_ok_iff, hroom]
    constructor
    · rintro ⟨t, ht, hd⟩ p hp
      have := hp.depth_le ht
      omega
    · exact exists_tokenAt hread
  refine ⟨hok, ?_, ?_, ?_⟩
  · intro t h
    rw [Decoder.decode_eq_ok_iff, hroom] at h
    obtain ⟨ht, hd⟩ := h
    exact ⟨fun d' hd' => ht.decode_eq_ok hd', hd⟩
  · rintro ⟨p, hp⟩
    have hfail : (m.walk limit.toNat root).result = .error .tooDeep := by
      cases hwalk : (m.walk limit.toNat root).result with
      | error e => rw [walk_error hread hwalk]
      | ok t =>
        obtain ⟨ht, hd⟩ := walk_eq_ok_iff.mp hwalk
        exact absurd hp (hok.mp ⟨t, Decoder.decode_eq_ok_iff.mpr ⟨ht, hd⟩⟩ p)
    exact Traced.result_mapError_of_error hfail
  · intro m' h
    rw [Decoder.decode, Decoder.decode, hroom, walk_congr h]

/-! ## 3. A cyclic graph -/

/-- A sequence token at 16 whose one slot leads back to it. -/
def loopingMemory : Memory :=
  ofBytes 16 <| recordBytes 16 64 0 3 0 ++ [1, 1, 0, 96, 16].flatMap (littleEndian 8)

theorem slotsAt_loopingMemory : loopingMemory.SlotsAt 16 96 1 := by
  have h : loopingMemory.tokenSlots 16 = some (96, 1) := by decide +kernel
  exact tokenSlots_eq_some_iff.mp h

theorem readable_loopingMemory : loopingMemory.Readable 16 := by
  have htag : loopingMemory.tokenTag 16 = some 16 := by decide +kernel
  have hindex : loopingMemory.tokenIndex 16 = some 3 := by decide +kernel
  have hbit : loopingMemory.tokenBitOffset 16 = some 0 := by decide +kernel
  have hload : loopingMemory.loadPointer 96 = some 16 := by decide +kernel
  have hh : loopingMemory.HeaderAt 16 16 3 0 :=
    ⟨tokenTag_eq_some_iff.mp htag, ⟨3, tokenIndex_eq_some_iff.mp hindex, by decide⟩,
      tokenBitOffset_eq_some_iff.mp hbit⟩
  -- any token will do for what the slot leads to
  have hv : ValueAt loopingMemory (fun _ _ => True) 16 16 (.sequence [Token.zero]) := by
    refine valueAt_sequence_iff.mpr ⟨96, slotsAt_loopingMemory, fun i hi => ⟨16, ?_, trivial⟩⟩
    obtain rfl : i = 0 := by simpa using hi
    exact loadPointer_eq_some_iff.mp hload
  exact hh.readable hv

theorem child_loopingMemory {p : Nat} : loopingMemory.Child 16 p ↔ p = 16 := by
  have hload : loopingMemory.loadPointer 96 = some 16 := by decide +kernel
  have hslot : loopingMemory.NumberAt 96 8 16 := loadPointer_eq_some_iff.mp hload
  have htag : loopingMemory.tokenTag 16 = some 16 := by decide +kernel
  constructor
  · rintro ⟨-, -, elements, used, i, hs, hi, hp⟩
    obtain ⟨rfl, rfl⟩ := slotsAt_loopingMemory.unique hs
    obtain rfl : i = 0 := by omega
    exact hp.unique hslot
  · rintro rfl
    exact ⟨by decide, tokenTag_eq_some_iff.mp htag, 96, 1, 0, slotsAt_loopingMemory, by decide,
      hslot⟩

/-- The cycle goes through one address, at every depth. -/
theorem pointerAt_loopingMemory {depth p : Nat} (h : loopingMemory.PointerAt 16 depth p) :
    p = 16 ∧ loopingMemory.PointerAt 16 (depth + 1) p := by
  induction h with
  | root => exact ⟨rfl, PointerAt.root.slot (child_loopingMemory.mpr rfl)⟩
  | slot h hc ih =>
    obtain ⟨rfl, h'⟩ := ih
    obtain rfl := child_loopingMemory.mp hc
    exact ⟨rfl, h'.slot hc⟩

/-- Under a limit of 3 the walk of that cycle ends with the error of the limit. -/
theorem decode_loopingMemory :
    loopingMemory.Child 16 16 ∧
      ((({} : Decoder).withMaxDepth 3).decode loopingMemory 16).result = .error
        { kind := .depthLimit, message := some "token tree exceeds max depth",
          depth := some 3, source := none } := by
  have hread : ∀ depth p, depth ≤ (3 : UInt64).toNat →
      loopingMemory.PointerAt 16 depth p → p ≠ 0 → loopingMemory.Readable p := by
    intro depth p _ hp _
    rw [(pointerAt_loopingMemory hp).1]
    exact readable_loopingMemory
  refine ⟨child_loopingMemory.mpr rfl, (decode_withMaxDepth hread {}).2.2.1 ⟨16, ?_⟩⟩
  have hroot : loopingMemory.PointerAt 16 1 16 := .root
  exact (pointerAt_loopingMemory (pointerAt_loopingMemory (pointerAt_loopingMemory hroot).2).2).2

end TokenImage.Memory
