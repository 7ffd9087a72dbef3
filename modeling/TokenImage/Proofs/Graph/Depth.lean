/-
# Depths of pointers and depths of tokens

Whether there is a token at a pointer is a question about the graph below it.  Two facts answer it.

* A graph whose deepest pointer is at depth `n` at most, and which can be read down to there, has a
  token of depth `n` at most at its root (`exists_tokenAt`).  Conversely a token bounds the depths
  of all pointers below it (`PointerAt.depth_le`) and vouches for every read (`TokenAt.readable`).
* In a graph without cycles no pointer is deeper than there are addresses
  (`PointerAt.depth_le_of_acyclic`): all pointers above it on a path are different, none of them is
  null, and a slot holds 64 bits only.

Together they make the well-formed graphs the ones that have a token
(`wellFormed_iff_exists_tokenAt`).  No graph is assumed to be a tree: a token that several slots
share is met once for each path to it.
-/
import TokenImage.Proofs.Decoder.Walk
import Mathlib.Data.Finset.Card
import Mathlib.Order.Interval.Finset.Nat

namespace TokenImage.Memory

variable {m : Memory}

/-! ## 1. What readable memory holds -/

/-- A readable record has a header. -/
theorem Readable.exists_headerAt {a : Nat} (h : m.Readable a) :
    ∃ tag byteOffset bitOffset, m.HeaderAt a tag byteOffset bitOffset := by
  obtain ⟨tag, htag⟩ := (h _ .tag).exists_numberAt
  obtain ⟨index, hindex⟩ := (h _ .index).exists_numberAt
  obtain ⟨b, hb⟩ := Option.isSome_iff_exists.mp (h _ .bitOffset _ (Nat.le_refl _) (Nat.lt_succ_self _))
  have hindexNat : (UInt64.ofNat index).toNat = index := UInt64.toNat_ofNat_of_lt' hindex.lt
  exact ⟨tag, (UInt64.ofNat index).toInt64, b.toInt8, htag,
    ⟨index, hindex, by rw [toInt_toInt64, hindexNat]⟩, b, hb, toInt_toInt8 b⟩

/-- The header of a readable record is loaded. -/
theorem Readable.exists_header {a : Nat} (h : m.Readable a) :
    ∃ tag index bitOffset, m.tokenTag a = some tag ∧ m.tokenIndex a = some index ∧
      m.tokenBitOffset a = some bitOffset := by
  obtain ⟨tag, byteOffset, bitOffset, hh⟩ := h.exists_headerAt
  obtain ⟨index, hindex, -⟩ := hh.index_at
  exact ⟨UInt32.ofNat tag, UInt64.ofNat index, bitOffset,
    tokenTag_eq_some_iff.mpr (by rw [UInt32.toNat_ofNat_of_lt' hh.tag_at.lt]; exact hh.tag_at),
    tokenIndex_eq_some_iff.mpr (by rwa [UInt64.toNat_ofNat_of_lt' hindex.lt]),
    tokenBitOffset_eq_some_iff.mpr hh.bit_at⟩

/-- A readable byte token has a span. -/
theorem Readable.exists_spanAt {a : Nat} (h : m.Readable a) (ht : m.NumberAt a 4 2) :
    ∃ span, m.SpanAt a span := by
  obtain ⟨p, hp⟩ := (h _ (.payload ht (by decide))).exists_numberAt
  by_cases hp0 : p = 0
  · subst hp0
    exact ⟨[], .null hp⟩
  · obtain ⟨n, hn⟩ := (h _ (.length ht hp hp0)).exists_numberAt
    obtain ⟨span, rfl, hs⟩ := (h _ (.span ht hp hp0 hn)).exists_bytesAt
    exact ⟨span, .bytes hp hp0 hn hs⟩

/-- A readable sequence token has slots, and a pointer in each. -/
theorem Readable.exists_slotsAt {a : Nat} (h : m.Readable a) (ht : m.NumberAt a 4 16) :
    ∃ elements used, m.SlotsAt a elements used ∧
      ∀ i, i < used → ∃ p, m.NumberAt (elements + 8 * i) 8 p := by
  obtain ⟨array, hp⟩ := (h _ (.payload ht (by decide))).exists_numberAt
  by_cases hp0 : array = 0
  · subst hp0
    exact ⟨0, 0, .nullArray hp, fun i hi => absurd hi (Nat.not_lt_zero i)⟩
  obtain ⟨elements, he⟩ := (h _ (.elements ht hp hp0)).exists_numberAt
  by_cases he0 : elements = 0
  · subst he0
    exact ⟨0, 0, .nullElements hp hp0 he, fun i hi => absurd hi (Nat.not_lt_zero i)⟩
  obtain ⟨used, hu⟩ := (h _ (.used ht hp hp0 he he0)).exists_numberAt
  have hs : m.SlotsAt a elements used := .slots hp hp0 he he0 hu
  exact ⟨elements, used, hs, fun i hi => (h _ (.slot ht hs hi)).exists_numberAt⟩

/-- A readable record has a value, if its children have what `R` says. -/
theorem Readable.exists_valueAt {R : Nat → Token → Prop} {a tag : Nat} (h : m.Readable a)
    (ha : a ≠ 0) (ht : m.NumberAt a 4 tag) (hR : ∀ p, m.Child a p → ∃ t, R p t) :
    ∃ v, ValueAt m R tag a v := by
  by_cases hk : tag ∈ [1, 2, 4, 8, 16]
  swap
  · exact ⟨.none, .unsupported hk⟩
  simp only [List.mem_cons, List.not_mem_nil, or_false] at hk
  rcases hk with rfl | rfl | rfl | rfl | rfl
  · exact ⟨.none, .none⟩
  · obtain ⟨span, hs⟩ := h.exists_spanAt ht
    exact ⟨.bytes span, .bytes hs⟩
  · obtain ⟨n, hn⟩ := (h _ (.payload ht (by decide))).exists_numberAt
    have hnNat : (UInt64.ofNat n).toNat = n := UInt64.toNat_ofNat_of_lt' hn.lt
    exact ⟨.signed (UInt64.ofNat n).toInt64, .signed hn (by rw [toInt_toInt64, hnNat])⟩
  · obtain ⟨n, hn⟩ := (h _ (.payload ht (by decide))).exists_numberAt
    have hnNat : (UInt64.ofNat n).toNat = n := UInt64.toNat_ofNat_of_lt' hn.lt
    exact ⟨.unsigned (UInt64.ofNat n), .unsigned (by rwa [hnNat])⟩
  · obtain ⟨elements, used, hs, hslots⟩ := h.exists_slotsAt ht
    have hitem : ∀ i, i < used → ∃ p t, m.NumberAt (elements + 8 * i) 8 p ∧ R p t := by
      intro i hi
      obtain ⟨p, hp⟩ := hslots i hi
      obtain ⟨t, hpt⟩ := hR p ⟨ha, ht, elements, used, i, hs, hi, hp⟩
      exact ⟨p, t, hp, hpt⟩
    choose p t hp hpt using hitem
    refine ⟨.sequence (List.ofFn fun i : Fin used => t i i.isLt), valueAt_sequence_iff.mpr
      ⟨elements, by rwa [List.length_ofFn], fun i hi => ?_⟩⟩
    rw [List.length_ofFn] at hi
    rw [List.getElem_ofFn]
    exact ⟨p i hi, hp i hi, hpt i hi⟩

/-! ## 2. Shallow graphs have tokens -/

/-- **A readable graph without deep pointers has a token**, no deeper than the pointers are.  Only
what is at depth `n` or above has to be readable. -/
theorem exists_tokenAt {n root : Nat}
    (hread : ∀ depth p, depth ≤ n → m.PointerAt root depth p → p ≠ 0 → m.Readable p)
    (hdeep : ∀ p, ¬ m.PointerAt root (n + 1) p) : ∃ t, m.TokenAt root t ∧ t.depth ≤ n := by
  induction n generalizing root with
  | zero => exact absurd .root (hdeep root)
  | succ n ih =>
    by_cases hroot : root = 0
    · subst hroot
      exact ⟨Token.zero, .null, by rw [Token.zero, Token.depth]; omega⟩
    have hr : m.Readable root := hread 1 root (by omega) .root hroot
    obtain ⟨tag, byteOffset, bitOffset, hh⟩ := hr.exists_headerAt
    have hchild : ∀ p, m.Child root p → ∃ t, m.TokenAt p t ∧ t.depth ≤ n := fun p hp =>
      ih (fun depth q hd hq => hread (depth + 1) q (by omega) (hq.of_child hp))
        fun q hq => hdeep q (hq.of_child hp)
    obtain ⟨v, hv⟩ := hr.exists_valueAt hroot hh.tag_at hchild
    obtain ⟨hv, hd⟩ := valueAt_depth_iff.mp hv
    exact ⟨⟨byteOffset, bitOffset, v⟩, .record hroot hh hv, hd⟩

/-! ## 3. Tokens bound the graph below them -/

/-- A token other than the null one has a value for its tag. -/
theorem TokenAt.valueAt {a tag : Nat} {t : Token} (h : m.TokenAt a t) (ha : a ≠ 0)
    (ht : m.NumberAt a 4 tag) : ValueAt m m.TokenAt tag a t.value := by
  cases h with
  | null => exact absurd rfl ha
  | record _ hh hv =>
    obtain rfl := hh.tag_at.unique ht
    exact hv

/-- What stands in a slot of a token has a token, which is less deep. -/
theorem TokenAt.of_child {a p : Nat} {t : Token} (h : m.TokenAt a t) (hc : m.Child a p) :
    ∃ u, m.TokenAt p u ∧ u.depth < t.depth := by
  obtain ⟨ha, ht, elements, used, i, hs, hi, hp⟩ := hc
  have hv := h.valueAt ha ht
  obtain ⟨byteOffset, bitOffset, v⟩ := t
  cases hv with
  | @sequence _ _ items pointers hs' hp' hitems =>
    obtain ⟨rfl, rfl⟩ := hs.unique hs'
    obtain rfl := hp.unique (hp' i hi)
    have hle := Token.maxDepth_le_iff.mp (Nat.le_refl (Token.maxDepth items)) i hi
    exact ⟨items[i], hitems i hi, by rw [Token.depth]; omega⟩
  | unsupported hk => exact absurd (by decide) hk

/-- Below a token, a pointer has a token that is less deep by as much as the pointer is deeper. -/
theorem TokenAt.of_pointerAt {root depth p : Nat} {t : Token} (h : m.TokenAt root t)
    (hp : m.PointerAt root depth p) : ∃ u, m.TokenAt p u ∧ u.depth + depth ≤ t.depth + 1 := by
  induction hp with
  | root => exact ⟨t, h, Nat.le_refl _⟩
  | slot _ hc ih =>
    obtain ⟨u, hu, hle⟩ := ih
    obtain ⟨v, hv, hlt⟩ := hu.of_child hc
    exact ⟨v, hv, by omega⟩

/-- **No pointer is deeper than the token it is under.** -/
theorem PointerAt.depth_le {root depth p : Nat} {t : Token} (h : m.TokenAt root t)
    (hp : m.PointerAt root depth p) : depth ≤ t.depth := by
  obtain ⟨u, -, hle⟩ := h.of_pointerAt hp
  have := u.one_le_depth
  omega

/-- Strictly below a token there are less deep tokens only. -/
theorem TokenAt.of_transGen {a p : Nat} {t : Token} (h : m.TokenAt a t)
    (hp : Relation.TransGen m.Child a p) : ∃ u, m.TokenAt p u ∧ u.depth < t.depth := by
  induction hp with
  | single hc => exact h.of_child hc
  | tail _ hc ih =>
    obtain ⟨u, hu, hlt⟩ := ih
    obtain ⟨v, hv, hlt'⟩ := hu.of_child hc
    exact ⟨v, hv, by omega⟩

/-! ## 4. What has a token can be read -/

/-- A span that is not null has its length and its bytes. -/
theorem SpanAt.of_pointer {a pointer : Nat} {span : List UInt8} (h : m.SpanAt a span)
    (hp : m.NumberAt (a + 8) 8 pointer) (hne : pointer ≠ 0) :
    m.NumberAt (a + 16) 8 span.length ∧ m.BytesAt pointer span := by
  cases h with
  | null hp' => exact absurd (hp.unique hp') hne
  | bytes hp' _ hl hs =>
    obtain rfl := hp.unique hp'
    exact ⟨hl, hs⟩

/-- An array that is not null has its pointer to the slots and, where that is not null either, its
used count. -/
theorem SlotsAt.of_pointer {a array elements used : Nat} (h : m.SlotsAt a elements used)
    (hp : m.NumberAt (a + 8) 8 array) (hne : array ≠ 0) :
    m.NumberAt (array + 24) 8 elements ∧ (elements ≠ 0 → m.NumberAt (array + 8) 8 used) := by
  cases h with
  | nullArray hp' => exact absurd (hp.unique hp') hne
  | nullElements hp' _ he =>
    obtain rfl := hp.unique hp'
    exact ⟨he, fun h => absurd rfl h⟩
  | slots hp' _ he _ hu =>
    obtain rfl := hp.unique hp'
    exact ⟨he, fun _ => hu⟩

/-- A payload that is read for a value begins with a number. -/
theorem ValueAt.exists_numberAt {R : Nat → Token → Prop} {tag a : Nat} {v : Value Token}
    (h : ValueAt m R tag a v) (hk : tag ∈ [2, 4, 8, 16]) : ∃ n, m.NumberAt (a + 8) 8 n := by
  cases h with
  | none => exact absurd hk (by decide)
  | bytes hs =>
    cases hs with
    | null hp => exact ⟨_, hp⟩
    | bytes hp => exact ⟨_, hp⟩
  | signed hn => exact ⟨_, hn⟩
  | unsigned hn => exact ⟨_, hn⟩
  | sequence _ hs =>
    generalize List.length _ = used at hs
    cases hs with
    | nullArray hp => exact ⟨_, hp⟩
    | nullElements hp => exact ⟨_, hp⟩
    | slots hp => exact ⟨_, hp⟩
  | unsupported h => exact absurd (List.mem_cons_of_mem 1 hk) h

/-- The value of a byte token has a span. -/
theorem ValueAt.exists_spanAt {R : Nat → Token → Prop} {a : Nat} {v : Value Token}
    (h : ValueAt m R 2 a v) : ∃ span, m.SpanAt a span := by
  cases h with
  | bytes hs => exact ⟨_, hs⟩
  | unsupported h => exact absurd (by decide) h

/-- The value of a sequence token has slots, and a pointer in each. -/
theorem ValueAt.exists_slotsAt {R : Nat → Token → Prop} {a : Nat} {v : Value Token}
    (h : ValueAt m R 16 a v) : ∃ elements used, m.SlotsAt a elements used ∧
      ∀ i, i < used → ∃ p, m.NumberAt (elements + 8 * i) 8 p := by
  cases h with
  | sequence pointers hs hp _ => exact ⟨_, _, hs, fun i hi => ⟨pointers i, hp i hi⟩⟩
  | unsupported h => exact absurd (by decide) h

/-- **A record with a header and a value can be read**, whatever its children are. -/
theorem HeaderAt.readable {R : Nat → Token → Prop} {a tag : Nat} {byteOffset : Int64}
    {bitOffset : Int8} {v : Value Token} (hh : m.HeaderAt a tag byteOffset bitOffset)
    (hv : ValueAt m R tag a v) : m.Readable a := by
  obtain ⟨htag, ⟨index, hindex, -⟩, b, hb, -⟩ := hh
  intro e he
  cases he with
  | tag => exact htag.mapped
  | index => exact hindex.mapped
  | bitOffset =>
    intro x hx hx'
    obtain rfl : x = a + 40 := Nat.le_antisymm (Nat.le_of_lt_succ hx') hx
    rw [hb]
    rfl
  | payload ht hk =>
    obtain rfl := htag.unique ht
    obtain ⟨n, hn⟩ := hv.exists_numberAt hk
    exact hn.mapped
  | length ht hp hne =>
    obtain rfl := htag.unique ht
    obtain ⟨span, hs⟩ := hv.exists_spanAt
    exact (hs.of_pointer hp hne).1.mapped
  | span ht hp hne hl =>
    obtain rfl := htag.unique ht
    obtain ⟨span, hs⟩ := hv.exists_spanAt
    obtain ⟨hl', hbytes⟩ := hs.of_pointer hp hne
    rw [hl.unique hl']
    exact hbytes.mapped
  | elements ht hp hne =>
    obtain rfl := htag.unique ht
    obtain ⟨elements, used, hs, -⟩ := hv.exists_slotsAt
    exact (hs.of_pointer hp hne).1.mapped
  | used ht hp hne he hne' =>
    obtain rfl := htag.unique ht
    obtain ⟨elements, used, hs, -⟩ := hv.exists_slotsAt
    obtain ⟨he', hu⟩ := hs.of_pointer hp hne
    exact (hu (he.unique he' ▸ hne')).mapped
  | slot ht hs hi =>
    obtain rfl := htag.unique ht
    obtain ⟨elements, used, hs', hslots⟩ := hv.exists_slotsAt
    obtain ⟨rfl, rfl⟩ := hs.unique hs'
    obtain ⟨p, hp⟩ := hslots _ hi
    exact hp.mapped

/-- What has a token can be read. -/
theorem TokenAt.readable {a : Nat} {t : Token} (h : m.TokenAt a t) (ha : a ≠ 0) :
    m.Readable a := by
  cases h with
  | null => exact absurd rfl ha
  | record _ hh hv => exact hh.readable hv

/-! ## 5. Paths without cycles are short -/

/-- The pointers above a pointer at some depth, along one path. -/
theorem PointerAt.exists_path {root depth p : Nat} (h : m.PointerAt root depth p)
    (hacyclic : ∀ a, m.Reachable root a → ¬ Relation.TransGen m.Child a a) :
    ∃ path : List Nat, path.length + 1 = depth ∧ path.Nodup ∧
      ∀ a ∈ path, a ∈ insert root (Finset.Ico 1 addressSpace) ∧ Relation.TransGen m.Child a p := by
  induction h with
  | root => exact ⟨[], rfl, List.nodup_nil, by simp⟩
  | @slot depth a p ha hc ih =>
    obtain ⟨path, hlen, hnodup, hpath⟩ := ih
    refine ⟨a :: path, by rw [List.length_cons, hlen], List.nodup_cons.mpr ⟨?_, hnodup⟩, ?_⟩
    · intro hmem
      exact hacyclic a ha.reachable (hpath a hmem).2
    · intro b hb
      rcases List.mem_cons.mp hb with rfl | hb
      · refine ⟨?_, .single hc⟩
        -- the token of a slot is not null, and unless it is the root it comes from a slot itself
        cases ha with
        | root => exact Finset.mem_insert_self _ _
        | slot _ hc' =>
          obtain ⟨-, -, _, _, _, -, -, hp⟩ := hc'
          exact Finset.mem_insert_of_mem
            (Finset.mem_Ico.mpr ⟨Nat.one_le_iff_ne_zero.mpr hc.1, hp.lt⟩)
      · exact ⟨(hpath b hb).1, (hpath b hb).2.tail hc⟩

/-- **Without cycles no pointer is deeper than there are addresses**, and one. -/
theorem PointerAt.depth_le_of_acyclic {root depth p : Nat} (h : m.PointerAt root depth p)
    (hacyclic : ∀ a, m.Reachable root a → ¬ Relation.TransGen m.Child a a) :
    depth ≤ addressSpace + 1 := by
  obtain ⟨path, hlen, hnodup, hpath⟩ := h.exists_path hacyclic
  have hsub : path.toFinset ⊆ insert root (Finset.Ico 1 addressSpace) := fun a ha =>
    (hpath a (List.mem_toFinset.mp ha)).1
  have hcard := Finset.card_le_card hsub
  have hinsert := Finset.card_insert_le root (Finset.Ico 1 addressSpace)
  rw [List.toFinset_card_of_nodup hnodup] at hcard
  rw [Nat.card_Ico] at hinsert
  have hpos : 0 < addressSpace := by decide
  omega

/-! ## 6. Well-formed graphs -/

/-- A well-formed graph has a token at its root, which leaves room for its depth. -/
theorem WellFormed.exists_tokenAt {root : Nat} (h : m.WellFormed root) :
    ∃ t, m.TokenAt root t ∧ t.depth ≤ addressSpace + 1 := by
  refine Memory.exists_tokenAt (fun _ p _ hp => h.readable p hp.reachable) ?_
  intro p hp
  have := hp.depth_le_of_acyclic h.acyclic
  omega

/-- **The well-formed graphs are those that have a token.** -/
theorem wellFormed_iff_exists_tokenAt {root : Nat} : m.WellFormed root ↔ ∃ t, m.TokenAt root t := by
  constructor
  · intro h
    obtain ⟨t, ht, -⟩ := h.exists_tokenAt
    exact ⟨t, ht⟩
  · rintro ⟨t, ht⟩
    have hbelow : ∀ a, m.Reachable root a → ∃ u, m.TokenAt a u := fun a ha => by
      obtain ⟨depth, hd⟩ := ha.exists_pointerAt
      obtain ⟨u, hu, -⟩ := ht.of_pointerAt hd
      exact ⟨u, hu⟩
    refine ⟨fun a ha hne => ?_, fun a ha hcycle => ?_⟩
    · obtain ⟨u, hu⟩ := hbelow a ha
      exact hu.readable hne
    · obtain ⟨u, hu⟩ := hbelow a ha
      obtain ⟨v, hv, hlt⟩ := hu.of_transGen hcycle
      rw [hv.unique hu] at hlt
      exact Nat.lt_irrefl _ hlt

end TokenImage.Memory
