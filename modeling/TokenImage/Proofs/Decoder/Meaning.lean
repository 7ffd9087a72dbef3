/-
# The bytes that matter

An image has more bytes than a decoder looks at: padding, bit lengths, the second word of most
payloads, capacities, arenas, slots beyond those in use, and everything that no token leads to.  The
bytes that matter are those that `ReadAt` names, of the tokens that the decoder visits
(`Decoder.Meaningful`).  Which they are is found by following pointers, so it is a question about the
image; but it is asked of one image only.

`Decoder.decode_eq_of_meaningful` says that they decide everything: another image that has the same
bytes there gives the same result and the same events, under every limit and without one.  The
images may be cyclic and may be mapped in part; if the walk ends early, only what it met before
counts.
-/
import TokenImage.Proofs.Decoder.Footprint
import TokenImage.Proofs.Decoder.WellFormed

namespace TokenImage

/-! ## 1. What decides a decoding -/

/-- The byte at `x` matters to a decoder: it is read of a token that the decoder visits. -/
def Decoder.Meaningful (d : Decoder) (m : Memory) (root x : Nat) : Prop :=
  ∃ path p e, d.Visits m root path p ∧ p ≠ 0 ∧ m.ReadAt p e ∧ e.base ≤ x ∧ x < e.base + e.size

/-- **Decoding depends on the meaningful bytes only**: the result, be it a token or an error, and
all events. -/
theorem Decoder.decode_eq_of_meaningful (d : Decoder) {m m' : Memory} {root : Nat}
    (h : ∀ x, d.Meaningful m root x → m x = m' x) : d.decode m root = d.decode m' root := by
  have hat : ∀ path p, m.Visited d.room root path p → p ≠ 0 → m.AgreeAt m' p :=
    fun path p hp hp0 e he x hx hx' =>
      h x ⟨path, p, e, Decoder.visits_of_visited hp, hp0, he, hx, hx'⟩
  rw [decode, decode, Memory.walk_congr_of_visited hat]

/-! ## 2. An image full of junk -/

namespace Memory

/-- The bytes of a token record with this byte wherever nothing is to be read of a token without a
payload. -/
def junkRecord (junk : UInt8) (tag index bitOffset : Nat) (payload : List UInt8) : List UInt8 :=
  littleEndian 4 tag ++ List.replicate 4 junk ++
    (payload ++ List.replicate (16 - payload.length) junk) ++ littleEndian 8 index ++
    List.replicate 8 junk ++ littleEndian 1 bitOffset ++ List.replicate 7 junk

/-- A sequence token at 16 with two of three slots used.  The first leads to a token of an
unsupported tag at 120 and the second to an empty byte token at 168.  All that says nothing about the
tree is the byte `junk`, in the gap behind the tokens as well. -/
def junkMemory (junk : UInt8) : Memory :=
  ofBytes 16 <| junkRecord junk 16 3 7 (littleEndian 8 64) ++
    (List.replicate 8 junk ++ littleEndian 8 2 ++ List.replicate 8 junk ++ littleEndian 8 96) ++
    (littleEndian 8 120 ++ littleEndian 8 168 ++ List.replicate 8 junk) ++
    junkRecord junk 5 (2 ^ 64 - 1) 255 [] ++ junkRecord junk 2 0 0 (littleEndian 8 0) ++
    List.replicate 8 junk

/-- The tags of the tokens, and where they lead. -/
theorem loads_junkMemory :
    ((junkMemory 0).tokenTag 16 = some 16 ∧ (junkMemory 0).tokenTag 120 = some 5 ∧
      (junkMemory 0).tokenTag 168 = some 2) ∧
    ((junkMemory 0).loadPointer 24 = some 64 ∧ (junkMemory 0).loadPointer 176 = some 0) ∧
    (junkMemory 0).tokenSlots 16 = some (96, 2) ∧
    (junkMemory 0).loadPointer 96 = some 120 ∧ (junkMemory 0).loadPointer 104 = some 168 := by
  decide +kernel

/-- The images differ, but not in the fields of the sequence, in those of its array, in its two slots,
and in the fields that the tokens below it have. -/
theorem agreeOn_junkMemory :
    junkMemory 0 32 ≠ junkMemory 255 32 ∧
      ∀ e ∈ [⟨16, 4⟩, ⟨40, 8⟩, ⟨56, 1⟩, ⟨24, 8⟩, ⟨88, 8⟩, ⟨72, 8⟩, ⟨96, 8⟩, ⟨104, 8⟩,
        ⟨120, 4⟩, ⟨144, 8⟩, ⟨160, 1⟩, ⟨168, 4⟩, ⟨192, 8⟩, ⟨208, 1⟩, ⟨176, 8⟩],
        (junkMemory 0).AgreeOn (junkMemory 255) e := by
  decide +kernel

theorem tag_junkMemory :
    (junkMemory 0).NumberAt 16 4 16 ∧ (junkMemory 0).NumberAt 120 4 5 ∧
      (junkMemory 0).NumberAt 168 4 2 := by
  obtain ⟨⟨h16, h120, h168⟩, -⟩ := loads_junkMemory
  exact ⟨tokenTag_eq_some_iff.mp h16, tokenTag_eq_some_iff.mp h120, tokenTag_eq_some_iff.mp h168⟩

theorem slotsAt_junkMemory : (junkMemory 0).SlotsAt 16 96 2 := by
  obtain ⟨-, -, hslots, -⟩ := loads_junkMemory
  exact tokenSlots_eq_some_iff.mp hslots

/-- The sequence leads to the two other tokens, and these to nothing. -/
theorem pathAt_junkMemory {a p : Nat} {path : List Nat} (h : (junkMemory 0).PathAt a path p)
    (ha : a ∈ [16, 120, 168]) : p ∈ [16, 120, 168] := by
  obtain ⟨h16, h120, h168⟩ := tag_junkMemory
  obtain ⟨-, -, -, hfirst, hsecond⟩ := loads_junkMemory
  induction h with
  | root => exact ha
  | @slot _ i _ _ _ hs _ ih =>
    refine ih ?_
    simp only [List.mem_cons, List.not_mem_nil, or_false] at ha
    rcases ha with rfl | rfl | rfl
    · obtain ⟨hi, hq⟩ := (slotsAt_junkMemory.slotAt_iff (by decide) h16).mp hs
      have hi : i = 0 ∨ i = 1 := by omega
      rcases hi with rfl | rfl
      · rw [hq.unique (loadPointer_eq_some_iff.mp hfirst)]
        decide
      · rw [hq.unique (loadPointer_eq_some_iff.mp hsecond)]
        decide
    · exact absurd (hs.2.1.unique h120) (by decide)
    · exact absurd (hs.2.1.unique h168) (by decide)

/-- Whatever the junk is, what is to be read is the same. -/
theorem agreeAt_junkMemory {a : Nat} (ha : a ∈ [16, 120, 168]) :
    (junkMemory 0).AgreeAt (junkMemory 255) a := by
  obtain ⟨h16, h120, h168⟩ := tag_junkMemory
  obtain ⟨-, ⟨harray, hspan⟩, -⟩ := loads_junkMemory
  have harray := loadPointer_eq_some_iff.mp harray
  have hspan := loadPointer_eq_some_iff.mp hspan
  have hagree := agreeOn_junkMemory.2
  intro e he
  simp only [List.mem_cons, List.not_mem_nil, or_false] at ha
  rcases ha with rfl | rfl | rfl
  · cases he with
    | tag | index | bitOffset | payload => exact hagree _ (by decide)
    | length ht | span ht => exact absurd (ht.unique h16) (by decide)
    | elements _ hp | used _ hp =>
      obtain rfl := hp.unique harray
      exact hagree _ (by decide)
    | @slot _ _ i _ hs hi =>
      obtain ⟨rfl, rfl⟩ := hs.unique slotsAt_junkMemory
      have hi : i = 0 ∨ i = 1 := by omega
      rcases hi with rfl | rfl <;> exact hagree _ (by decide)
  · cases he with
    | tag | index | bitOffset => exact hagree _ (by decide)
    | payload ht hk =>
      obtain rfl := ht.unique h120
      exact absurd hk (by decide)
    | length ht | span ht | elements ht | used ht | slot ht =>
      exact absurd (ht.unique h120) (by decide)
  · cases he with
    | tag | index | bitOffset | payload => exact hagree _ (by decide)
    | length _ hp hp0 | span _ hp hp0 => exact absurd (hp.unique hspan) hp0
    | elements ht | used ht | slot ht => exact absurd (ht.unique h168) (by decide)

/-- The two images differ, and every byte that matters is the same in both; so is what a decoder
gives. -/
theorem decode_junkMemory :
    (junkMemory 0 32 ≠ junkMemory 255 32 ∧
      ∀ x, ({} : Decoder).Meaningful (junkMemory 0) 16 x → junkMemory 0 x = junkMemory 255 x) ∧
    ({} : Decoder).decode (junkMemory 0) 16 = ({} : Decoder).decode (junkMemory 255) 16 := by
  have h : ∀ x, ({} : Decoder).Meaningful (junkMemory 0) 16 x →
      junkMemory 0 x = junkMemory 255 x := by
    rintro x ⟨path, p, e, hp, -, he, hx, hx'⟩
    exact agreeAt_junkMemory (pathAt_junkMemory hp.1 (by decide)) e he x hx hx'
  exact ⟨⟨agreeOn_junkMemory.1, h⟩, Decoder.decode_eq_of_meaningful {} h⟩

end Memory

end TokenImage
