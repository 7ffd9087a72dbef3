/-
# The walk computes the layout reading

`Memory.walk` reads a tree of tokens with a bound on its depth and may fail; `TokenAt` says which
token is at a pointer.  The main lemma joins the two, for every bound and on every memory:

* `walk_eq_ok_iff`: the walk gives `t` exactly when `t` is at the pointer and is no deeper than the
  room.

It is one induction on the room.  The parts of a record come first, each as an equivalence between
what the walk loads and what stands there, so that the induction never opens a load.  That a pointer
holds one token only (`TokenAt.unique`) then needs no induction of its own: the walk is a function.
-/
import TokenImage.Proofs.Graph.Layout
import Mathlib.Tactic.Choose

namespace TokenImage

/-! ## 1. Depths of tokens -/

namespace Token

theorem maxDepth_le_iff {ts : List Token} {n : Nat} :
    maxDepth ts ≤ n ↔ ∀ i (h : i < ts.length), ts[i].depth ≤ n := by
  induction ts with
  | nil => simp [maxDepth]
  | cons t ts ih =>
    rw [maxDepth, Nat.max_le, ih]
    constructor
    · rintro ⟨ht, hts⟩ i hi
      cases i with
      | zero => exact ht
      | succ i => exact hts i (by simpa using hi)
    · intro h
      exact ⟨h 0 (by simp), fun i hi => h (i + 1) (by simpa using hi)⟩

/-- Every token has a depth of at least 1. -/
theorem one_le_depth (t : Token) : 1 ≤ t.depth := by
  rcases t with ⟨byteOffset, bitOffset, value⟩
  cases value with
  | none | bytes | signed | unsigned => exact Nat.le_refl 1
  | sequence items =>
    rw [depth]
    omega

end Token

namespace Tag

/-- A tag is one of the five that can be read, or it is unsupported. -/
theorem cases_kind (tag : Tag) :
    tag = 1 ∨ tag = 2 ∨ tag = 4 ∨ tag = 8 ∨ tag = 16 ∨
      tag.kind = .unsupported ∧ tag.toNat ∉ [1, 2, 4, 8, 16] := by
  by_cases h1 : tag = 1
  · exact .inl h1
  by_cases h2 : tag = 2
  · exact .inr (.inl h2)
  by_cases h4 : tag = 4
  · exact .inr (.inr (.inl h4))
  by_cases h8 : tag = 8
  · exact .inr (.inr (.inr (.inl h8)))
  by_cases h16 : tag = 16
  · exact .inr (.inr (.inr (.inr (.inl h16))))
  refine .inr (.inr (.inr (.inr (.inr ⟨?_, ?_⟩))))
  · rw [kind, none, bytes, signed, unsigned, sequence, if_neg h1, if_neg h2, if_neg h4, if_neg h8,
      if_neg h16]
  · simp only [List.mem_cons, List.not_mem_nil, or_false]
    rintro (h | h | h | h | h)
    · exact h1 (UInt32.toNat_inj.mp h)
    · exact h2 (UInt32.toNat_inj.mp h)
    · exact h4 (UInt32.toNat_inj.mp h)
    · exact h8 (UInt32.toNat_inj.mp h)
    · exact h16 (UInt32.toNat_inj.mp h)

end Tag

namespace Memory

variable {m : Memory}

/-! ## 2. The parts of a record -/

theorem tokenTag_eq_some_iff {a : Nat} {tag : Tag} :
    m.tokenTag a = some tag ↔ m.NumberAt a 4 tag.toNat := by
  rw [tokenTag, libraryLayout_eq, loadUInt32_eq_some_iff, Nat.add_zero]

theorem tokenIndex_eq_some_iff {a : Nat} {index : UInt64} :
    m.tokenIndex a = some index ↔ m.NumberAt (a + 24) 8 index.toNat := by
  rw [tokenIndex, libraryLayout_eq, loadUInt64_eq_some_iff]

theorem tokenBitOffset_eq_some_iff {a : Nat} {bitOffset : Int8} :
    m.tokenBitOffset a = some bitOffset ↔
      ∃ b, m (a + 40) = some b ∧ bitOffset.toInt = (b.toNat : Int).bmod (2 ^ 8) := by
  rw [tokenBitOffset, libraryLayout_eq, loadInt8_eq_some_iff]

theorem payloadSigned_eq_some_iff {a : Nat} {number : Int64} :
    m.payloadSigned a = some number ↔
      ∃ n, m.NumberAt (a + 8) 8 n ∧ number.toInt = (n : Int).bmod (2 ^ 64) := by
  rw [payloadSigned, payloadAddress, engineLayout_eq, loadInt64_eq_some_iff]

theorem payloadUnsigned_eq_some_iff {a : Nat} {number : UInt64} :
    m.payloadUnsigned a = some number ↔ m.NumberAt (a + 8) 8 number.toNat := by
  rw [payloadUnsigned, payloadAddress, engineLayout_eq, loadUInt64_eq_some_iff]

theorem payloadPointer_eq_some_iff {a p : Nat} :
    m.payloadPointer a = some p ↔ m.NumberAt (a + 8) 8 p := by
  rw [payloadPointer, payloadAddress, engineLayout_eq, loadPointer_eq_some_iff]

theorem payloadLength_eq_some_iff {a n : Nat} :
    m.payloadLength a = some n ↔ m.NumberAt (a + 16) 8 n := by
  rw [payloadLength, payloadAddress, engineLayout_eq, loadPointer_eq_some_iff]
  rfl

theorem arrayUsed_eq_some_iff {array n : Nat} :
    m.arrayUsed array = some n ↔ m.NumberAt (array + 8) 8 n := by
  rw [arrayUsed, loadPointer_eq_some_iff]
  rfl

theorem arrayElements_eq_some_iff {array p : Nat} :
    m.arrayElements array = some p ↔ m.NumberAt (array + 24) 8 p := by
  rw [arrayElements, loadPointer_eq_some_iff]
  rfl

/-- The walk loads the span that is the payload. -/
theorem tokenBytes_eq_some_iff {a : Nat} {span : List UInt8} :
    m.tokenBytes a = some span ↔ m.SpanAt a span := by
  simp only [tokenBytes, Option.bind_eq_bind, Option.bind_eq_some_iff, payloadPointer_eq_some_iff]
  constructor
  · rintro ⟨p, hp, h⟩
    by_cases hp0 : p = 0
    · subst hp0
      rw [if_pos rfl, Option.some.injEq] at h
      subst h
      exact .null hp
    · rw [if_neg hp0] at h
      obtain ⟨n, hn, hload⟩ := Option.bind_eq_some_iff.mp h
      obtain ⟨rfl, hat⟩ := load_eq_some_iff.mp hload
      exact .bytes hp hp0 (payloadLength_eq_some_iff.mp hn) hat
  · rintro (hp | ⟨hp, hne, hl, hs⟩)
    · exact ⟨0, hp, rfl⟩
    · refine ⟨_, hp, ?_⟩
      rw [if_neg hne]
      exact Option.bind_eq_some_iff.mpr
        ⟨_, payloadLength_eq_some_iff.mpr hl, load_eq_some_iff.mpr ⟨rfl, hs⟩⟩

/-- The walk loads the slots that the payload leads to. -/
theorem tokenSlots_eq_some_iff {a elements used : Nat} :
    m.tokenSlots a = some (elements, used) ↔ m.SlotsAt a elements used := by
  simp only [tokenSlots, Option.bind_eq_bind, Option.bind_eq_some_iff, payloadPointer_eq_some_iff]
  constructor
  · rintro ⟨array, hp, h⟩
    by_cases hp0 : array = 0
    · subst hp0
      rw [if_pos rfl, Option.some.injEq, Prod.mk.injEq] at h
      obtain ⟨rfl, rfl⟩ := h
      exact .nullArray hp
    · rw [if_neg hp0] at h
      obtain ⟨e, he, h⟩ := Option.bind_eq_some_iff.mp h
      by_cases he0 : e = 0
      · subst he0
        rw [if_pos rfl, Option.some.injEq, Prod.mk.injEq] at h
        obtain ⟨rfl, rfl⟩ := h
        exact .nullElements hp hp0 (arrayElements_eq_some_iff.mp he)
      · rw [if_neg he0] at h
        obtain ⟨n, hn, h⟩ := Option.bind_eq_some_iff.mp h
        rw [Option.some.injEq, Prod.mk.injEq] at h
        obtain ⟨rfl, rfl⟩ := h
        exact .slots hp hp0 (arrayElements_eq_some_iff.mp he) he0 (arrayUsed_eq_some_iff.mp hn)
  · rintro (hp | ⟨hp, hne, he⟩ | ⟨hp, hne, he, hne', hu⟩)
    · exact ⟨0, hp, rfl⟩
    · refine ⟨_, hp, ?_⟩
      rw [if_neg hne]
      exact Option.bind_eq_some_iff.mpr ⟨0, arrayElements_eq_some_iff.mpr he, rfl⟩
    · refine ⟨_, hp, ?_⟩
      rw [if_neg hne]
      refine Option.bind_eq_some_iff.mpr ⟨_, arrayElements_eq_some_iff.mpr he, ?_⟩
      rw [if_neg hne']
      exact Option.bind_eq_some_iff.mpr ⟨_, arrayUsed_eq_some_iff.mpr hu, rfl⟩

/-! ## 3. Slots and values -/

section Values

variable {read : Nat → Traced Halt Token} {R : Nat → Token → Prop}

/-- **Slots are read in ascending order**, one token each, where `read` reads what `R` says. -/
theorem readSlots_eq_ok_iff (hR : ∀ p t, (read p).result = .ok t ↔ R p t) {n slot : Nat}
    {ts : List Token} :
    (m.readSlots read n slot).result = .ok ts ↔
      ts.length = n ∧
        ∀ i (h : i < ts.length), ∃ p, m.NumberAt (slot + 8 * i) 8 p ∧ R p ts[i] := by
  induction n generalizing slot ts with
  | zero =>
    rw [readSlots, Traced.result_pure, Except.ok.injEq]
    constructor
    · rintro rfl
      exact ⟨rfl, fun i hi => absurd hi (by simp)⟩
    · rintro ⟨h, -⟩
      exact (List.eq_nil_of_length_eq_zero h).symm
  | succ n ih =>
    have hword : FieldType.word.size = 8 := rfl
    simp only [readSlots, Traced.result_bind_eq_ok_iff, Traced.result_ofOption_eq_ok_iff,
      Traced.result_pure, Except.ok.injEq, loadPointer_eq_some_iff, hR, ih, hword]
    constructor
    · rintro ⟨p, hp, t, ht, us, ⟨rfl, hus⟩, rfl⟩
      refine ⟨rfl, fun i hi => ?_⟩
      cases i with
      | zero => exact ⟨p, hp, ht⟩
      | succ i =>
        obtain ⟨q, hq, hqi⟩ := hus i (by simpa using hi)
        exact ⟨q, by rwa [Nat.mul_succ, Nat.add_comm (8 * i) 8, ← Nat.add_assoc], hqi⟩
    · rintro ⟨hlen, h⟩
      cases ts with
      | nil => simp at hlen
      | cons t us =>
        obtain ⟨p, hp, ht⟩ := h 0 (by simp)
        refine ⟨p, hp, t, ht, us, ⟨by simpa using hlen, fun i hi => ?_⟩, rfl⟩
        obtain ⟨q, hq, hqi⟩ := h (i + 1) (by simpa using hi)
        exact ⟨q, by rwa [Nat.mul_succ, Nat.add_comm (8 * i) 8, ← Nat.add_assoc] at hq, hqi⟩

/-- A sequence has its items where each slot leads to one. -/
theorem valueAt_sequence_iff {a : Nat} {items : List Token} :
    ValueAt m R 16 a (.sequence items) ↔
      ∃ elements, m.SlotsAt a elements items.length ∧
        ∀ i (h : i < items.length), ∃ p, m.NumberAt (elements + 8 * i) 8 p ∧ R p items[i] := by
  constructor
  · intro h
    cases h with
    | sequence pointers hs hp hitems =>
      exact ⟨_, hs, fun i hi => ⟨pointers i, hp i hi, hitems i hi⟩⟩
  · rintro ⟨elements, hs, h⟩
    choose p hp hitems using h
    refine .sequence (fun i => if hi : i < items.length then p i hi else 0) hs ?_ ?_
    · intro i hi
      rw [dif_pos hi]
      exact hp i hi
    · intro i hi
      rw [dif_pos hi]
      exact hitems i hi

/-- Under the first tag there is no value; the next lemmas say so of the other tags. -/
theorem valueAt_none_iff {a : Nat} {v : Value Token} : ValueAt m R 1 a v ↔ .none = v := by
  constructor
  · intro h
    cases h with
    | none => rfl
    | unsupported h => exact absurd (by decide) h
  · rintro rfl
    exact .none

theorem valueAt_bytes_iff {a : Nat} {v : Value Token} :
    ValueAt m R 2 a v ↔ ∃ span, m.SpanAt a span ∧ .bytes span = v := by
  constructor
  · intro h
    cases h with
    | bytes hs => exact ⟨_, hs, rfl⟩
    | unsupported h => exact absurd (by decide) h
  · rintro ⟨span, hs, rfl⟩
    exact .bytes hs

theorem valueAt_signed_iff {a : Nat} {v : Value Token} :
    ValueAt m R 4 a v ↔
      ∃ number : Int64, (∃ n, m.NumberAt (a + 8) 8 n ∧ number.toInt = (n : Int).bmod (2 ^ 64)) ∧
        .signed number = v := by
  constructor
  · intro h
    cases h with
    | signed hn hv => exact ⟨_, ⟨_, hn, hv⟩, rfl⟩
    | unsupported h => exact absurd (by decide) h
  · rintro ⟨number, ⟨n, hn, hv⟩, rfl⟩
    exact .signed hn hv

theorem valueAt_unsigned_iff {a : Nat} {v : Value Token} :
    ValueAt m R 8 a v ↔
      ∃ number : UInt64, m.NumberAt (a + 8) 8 number.toNat ∧ .unsigned number = v := by
  constructor
  · intro h
    cases h with
    | unsigned hn => exact ⟨_, hn, rfl⟩
    | unsupported h => exact absurd (by decide) h
  · rintro ⟨number, hn, rfl⟩
    exact .unsigned hn

/-- Only a sequence has the tag of sequences. -/
theorem exists_sequence_of_valueAt {a : Nat} {v : Value Token} (h : ValueAt m R 16 a v) :
    ∃ items, .sequence items = v := by
  cases h with
  | sequence pointers hs hp hitems => exact ⟨_, rfl⟩
  | unsupported h => exact absurd (by decide) h

theorem valueAt_unsupported_iff {a tag : Nat} (hn : tag ∉ [1, 2, 4, 8, 16]) {v : Value Token} :
    ValueAt m R tag a v ↔ .none = v := by
  constructor
  · intro h
    cases h with
    | none | unsupported => rfl
    | bytes | signed | unsigned | sequence => exact absurd (by decide) hn
  · rintro rfl
    exact .unsupported hn

/-- **The value of a record is read** as its tag says, where `read` reads what `R` says. -/
theorem readValue_eq_ok_iff (hR : ∀ p t, (read p).result = .ok t ↔ R p t) {a : Nat} {tag : Tag}
    {index : UInt64} {v : Value Token} :
    (m.readValue read a tag index).result = .ok v ↔ ValueAt m R tag.toNat a v := by
  rcases tag.cases_kind with rfl | rfl | rfl | rfl | rfl | ⟨hk, hn⟩
  · have hk : Tag.kind 1 = .none := by decide
    have hvalue : ValueAt m R (1 : Tag).toNat a v ↔ .none = v := valueAt_none_iff
    rw [readValue, hk, hvalue]
    simp only [Traced.result_pure, Except.ok.injEq]
  · have hk : Tag.kind 2 = .bytes := by decide
    have hvalue : ValueAt m R (2 : Tag).toNat a v ↔ _ := valueAt_bytes_iff
    rw [readValue, hk, hvalue]
    simp only [Traced.result_bind_eq_ok_iff, Traced.result_ofOption_eq_ok_iff,
      Traced.result_pure, Except.ok.injEq, tokenBytes_eq_some_iff]
  · have hk : Tag.kind 4 = .signed := by decide
    have hvalue : ValueAt m R (4 : Tag).toNat a v ↔ _ := valueAt_signed_iff
    rw [readValue, hk, hvalue]
    simp only [Traced.result_bind_eq_ok_iff, Traced.result_ofOption_eq_ok_iff,
      Traced.result_pure, Except.ok.injEq, payloadSigned_eq_some_iff]
  · have hk : Tag.kind 8 = .unsigned := by decide
    have hvalue : ValueAt m R (8 : Tag).toNat a v ↔ _ := valueAt_unsigned_iff
    rw [readValue, hk, hvalue]
    simp only [Traced.result_bind_eq_ok_iff, Traced.result_ofOption_eq_ok_iff,
      Traced.result_pure, Except.ok.injEq, payloadUnsigned_eq_some_iff]
  · have hk : Tag.kind 16 = .sequence := by decide
    rw [readValue, hk]
    simp only [Traced.result_bind_eq_ok_iff, Traced.result_ofOption_eq_ok_iff,
      Traced.result_pure, Except.ok.injEq]
    constructor
    · rintro ⟨⟨elements, used⟩, hs, items, hitems, rfl⟩
      obtain ⟨rfl, hitems⟩ := (readSlots_eq_ok_iff hR).mp hitems
      exact valueAt_sequence_iff.mpr ⟨elements, tokenSlots_eq_some_iff.mp hs, hitems⟩
    · intro h
      obtain ⟨items, rfl⟩ := exists_sequence_of_valueAt h
      obtain ⟨elements, hs, hitems⟩ := valueAt_sequence_iff.mp h
      exact ⟨(elements, items.length), tokenSlots_eq_some_iff.mpr hs, items,
        (readSlots_eq_ok_iff hR).mpr ⟨rfl, hitems⟩, rfl⟩
  · rw [readValue, hk, valueAt_unsupported_iff hn]
    simp only [Traced.result_bind_eq_ok_iff, Traced.result_emit, Traced.result_pure,
      Except.ok.injEq, exists_const, true_and]

end Values

/-! ## 4. Whole tokens -/

/-- The token at the null pointer is the zero token. -/
theorem tokenAt_zero_iff {t : Token} : m.TokenAt 0 t ↔ t = Token.zero := by
  constructor
  · intro h
    cases h with
    | null => rfl
    | record ha => exact absurd rfl ha
  · rintro rfl
    exact .null

/-- A bound on the depth of a token is a bound on the depth of its items. -/
theorem valueAt_depth_iff {R : Nat → Token → Prop} {tag a room : Nat} {byteOffset : Int64}
    {bitOffset : Int8} {v : Value Token} :
    ValueAt m (fun p t => R p t ∧ t.depth ≤ room) tag a v ↔
      ValueAt m R tag a v ∧ Token.depth ⟨byteOffset, bitOffset, v⟩ ≤ room + 1 := by
  constructor
  · intro h
    cases h with
    | none => exact ⟨.none, by rw [Token.depth]; omega⟩
    | bytes hs => exact ⟨.bytes hs, by rw [Token.depth]; omega⟩
    | signed hn hv => exact ⟨.signed hn hv, by rw [Token.depth]; omega⟩
    | unsigned hn => exact ⟨.unsigned hn, by rw [Token.depth]; omega⟩
    | sequence pointers hs hp hitems =>
      refine ⟨.sequence pointers hs hp fun i hi => (hitems i hi).1, ?_⟩
      have := Token.maxDepth_le_iff.mpr fun i hi => (hitems i hi).2
      rw [Token.depth]
      omega
    | unsupported h => exact ⟨.unsupported h, by rw [Token.depth]; omega⟩
  · rintro ⟨h, hd⟩
    cases h with
    | none => exact .none
    | bytes hs => exact .bytes hs
    | signed hn hv => exact .signed hn hv
    | unsigned hn => exact .unsigned hn
    | @sequence _ _ items pointers hs hp hitems =>
      rw [Token.depth] at hd
      have hle := Token.maxDepth_le_iff.mp (show Token.maxDepth items ≤ room by omega)
      exact .sequence pointers hs hp fun i hi => ⟨hitems i hi, hle i hi⟩
    | unsupported h => exact .unsupported h

/-- **The walk computes the layout reading**, as far as its room goes. -/
theorem walk_eq_ok_iff {room a : Nat} {t : Token} :
    (m.walk room a).result = .ok t ↔ m.TokenAt a t ∧ t.depth ≤ room := by
  induction room generalizing a t with
  | zero =>
    rw [walk, Traced.result_fail]
    have := t.one_le_depth
    exact ⟨nofun, fun h => by omega⟩
  | succ room ih =>
    by_cases ha : a = 0
    · subst ha
      rw [walk, if_pos rfl, Traced.result_pure, Except.ok.injEq, tokenAt_zero_iff]
      constructor
      · rintro rfl
        exact ⟨rfl, by rw [Token.zero, Token.depth]; omega⟩
      · rintro ⟨rfl, -⟩
        rfl
    · rw [walk, if_neg ha]
      simp only [Traced.result_bind_eq_ok_iff, Traced.result_ofOption_eq_ok_iff,
        Traced.result_pure, Except.ok.injEq, tokenTag_eq_some_iff, tokenIndex_eq_some_iff,
        tokenBitOffset_eq_some_iff, readValue_eq_ok_iff fun _ _ => ih]
      constructor
      · rintro ⟨tag, htag, index, hindex, bitOffset, hbit, v, hv, rfl⟩
        obtain ⟨hv, hd⟩ := valueAt_depth_iff.mp hv
        exact ⟨.record ha ⟨htag, ⟨_, hindex, toInt_toInt64 index⟩, hbit⟩ hv, hd⟩
      · rintro ⟨h, hd⟩
        cases h with
        | null => exact absurd rfl ha
        | @record a tag byteOffset bitOffset v ha hh hv =>
          obtain ⟨htag, ⟨index, hindex, hbyte⟩, hbit⟩ := hh
          have htagNat : (UInt32.ofNat tag).toNat = tag := UInt32.toNat_ofNat_of_lt' htag.lt
          have hindexNat : (UInt64.ofNat index).toNat = index := UInt64.toNat_ofNat_of_lt' hindex.lt
          refine ⟨UInt32.ofNat tag, by rwa [htagNat], UInt64.ofNat index, by rwa [hindexNat],
            bitOffset, hbit, v, ?_, ?_⟩
          · rw [htagNat]
            exact valueAt_depth_iff.mpr ⟨hv, hd⟩
          · have : (UInt64.ofNat index).toInt64 = byteOffset :=
              Int64.toInt_inj.mp (by rw [toInt_toInt64, hindexNat, hbyte])
            rw [this]

/-- **A pointer holds one token.** -/
theorem TokenAt.unique {a : Nat} {t u : Token} (ht : m.TokenAt a t) (hu : m.TokenAt a u) :
    t = u := by
  have h := walk_eq_ok_iff.mpr ⟨ht, Nat.le_max_left t.depth u.depth⟩
  have h' := walk_eq_ok_iff.mpr ⟨hu, Nat.le_max_right t.depth u.depth⟩
  exact Except.ok.inj (h.symm.trans h')

end Memory

end TokenImage
