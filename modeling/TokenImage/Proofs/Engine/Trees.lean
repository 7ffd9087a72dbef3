/-
# Trees own their blocks

A tree that is laid out remembers its blocks in order to give them back, and nothing in the bytes
shows whether it remembers the right ones: a block too few is never given back, and one too many is
given back twice.  `ForeignTree.build_laidOut` says that they are the right ones, for every node and
on every heap.

* The graph below the root is the node, path by path, and every token on it stands as it was
  described.
* The blocks of the tree are the pieces of the tokens that the paths lead to, one for one, and they
  are what the heap has grown by.  No two of them share an address, and none shares one with what was
  live before.
* Giving the tree back frees each of its blocks while it is live, and frees nothing else.

`Heap.Frees` is the last of these for any blocks, and holds where they are live and separate.
-/
import TokenImage.Proofs.Engine.Frame
import TokenImage.Proofs.Tree.Pieces
import TokenImage.Proofs.Tree.RoundTrip

namespace TokenImage

/-! ## 1. Giving blocks back -/

namespace Heap

variable {h : Heap} {e b : Extent} {blocks : List Extent}

/-- What is live after a block is given back. -/
theorem live_free_iff : (h.free b).Live e ↔ h.Live e ∧ e ≠ b := by
  refine ⟨fun he => ⟨live_of_live_free he, ?_⟩, fun he => he.1.free he.2⟩
  rintro rfl
  have hlive : h.Live e := live_of_live_free he
  unfold Live at he hlive
  rw [Heap.free, if_pos hlive] at he
  change (h.blocks.erase e.base)[e.base]? = some e.size at he
  rw [Std.TreeMap.getElem?_erase_self] at he
  cases he

/-- What is live after blocks are given back. -/
theorem live_freeAll_iff : (h.freeAll blocks).Live e ↔ h.Live e ∧ e ∉ blocks := by
  induction blocks generalizing h with
  | nil => simp [freeAll]
  | cons b blocks ih =>
    rw [List.mem_cons, not_or, ← and_assoc, ← live_free_iff]
    exact ih

/-- **The blocks are given back, each of them once and no other**: each is live when its turn comes,
then it is not, and of the rest of the heap neither a block nor a byte is touched. -/
structure Frees (h : Heap) (blocks : List Extent) (h' : Heap) : Prop where
  in_turn : ∀ before e after, blocks = before ++ e :: after → 0 < e.size →
    (h.freeAll before).Live e
  live_iff : ∀ e, h'.Live e ↔ h.Live e ∧ e ∉ blocks
  unmapped : ∀ e ∈ blocks, ∀ x, e.base ≤ x → x < e.base + e.size → h'.memory x = none
  kept : ∀ x, (∀ e ∈ blocks, ¬ (e.base ≤ x ∧ x < e.base + e.size)) → h'.memory x = h.memory x

/-- Giving a block back unmaps its addresses, and no others. -/
theorem memory_free_eq (hb : 0 < b.size → h.Live b) (x : Nat) :
    (h.free b).memory x = if b.base ≤ x ∧ x < b.base + b.size then none else h.memory x := by
  by_cases hlive : h.Live b
  · exact memory_free hlive x
  · rw [free_of_not_live hlive, if_neg]
    intro hx
    exact hlive (hb (by omega))

/-- Giving blocks back unmaps the addresses of all of them, and no others. -/
theorem memory_freeAll (hlive : ∀ e ∈ blocks, 0 < e.size → h.Live e)
    (hparted : blocks.Pairwise Extent.Separate) (x : Nat) :
    (h.freeAll blocks).memory x =
      if ∃ e ∈ blocks, e.base ≤ x ∧ x < e.base + e.size then none else h.memory x := by
  induction blocks generalizing h with
  | nil => simp [freeAll]
  | cons b blocks ih =>
    obtain ⟨hb, hparted⟩ := List.pairwise_cons.mp hparted
    have hrest : ∀ e ∈ blocks, 0 < e.size → (h.free b).Live e := by
      intro e he hpos
      refine live_free_iff.mpr ⟨hlive e (List.mem_cons_of_mem b he) hpos, ?_⟩
      rintro rfl
      exact Nat.ne_of_gt hpos (hb e he).size_eq_zero
    have hfree := memory_free_eq (hlive b List.mem_cons_self) x
    rw [freeAll, List.foldl_cons, ← freeAll, ih hrest hparted, hfree]
    by_cases hx : ∃ e ∈ blocks, e.base ≤ x ∧ x < e.base + e.size
    · rw [if_pos hx, if_pos (hx.imp fun e he => ⟨List.mem_cons_of_mem b he.1, he.2⟩)]
    · rw [if_neg hx]
      by_cases hxb : b.base ≤ x ∧ x < b.base + b.size
      · rw [if_pos hxb, if_pos ⟨b, List.mem_cons_self, hxb⟩]
      · rw [if_neg hxb, if_neg]
        rintro ⟨e, he, hxe⟩
        rcases List.mem_cons.mp he with rfl | he
        · exact hxb hxe
        · exact hx ⟨e, he, hxe⟩

/-- **Blocks that are live and separate are given back**, each of them once and no other. -/
theorem frees_of_live (hlive : ∀ e ∈ blocks, 0 < e.size → h.Live e)
    (hparted : blocks.Pairwise Extent.Separate) : h.Frees blocks (h.freeAll blocks) where
  in_turn before e after hblocks hpos := by
    subst hblocks
    refine live_freeAll_iff.mpr ⟨hlive e (by simp) hpos, fun he => ?_⟩
    have hself := (List.pairwise_append.mp hparted).2.2 e he e List.mem_cons_self
    exact Nat.ne_of_gt hpos hself.size_eq_zero
  live_iff e := live_freeAll_iff
  unmapped e he x hx hx' := by rw [memory_freeAll hlive hparted, if_pos ⟨e, he, hx, hx'⟩]
  kept x hx := by
    rw [memory_freeAll hlive hparted, if_neg]
    rintro ⟨e, he, hxe⟩
    exact hx e he hxe

end Heap

/-! ## 2. Trees -/

namespace ForeignTree

variable {A : Allocator} {h h' : Heap} {n : Node} {t : ForeignTree}

/-- **The tree is laid out as the node describes it, and owns every piece of it once.**  The heap was
`h` before and is `h'` now. -/
structure LaidOut (t : ForeignTree) (h h' : Heap) (n : Node) : Prop where
  /-- The paths below the root are those of the node. -/
  path_iff : ∀ path, (∃ p, h'.memory.PathAt t.root path p) ↔ (n.at? path).isSome
  /-- What stands at the end of a path is what the node has there. -/
  stands : ∀ path p k, h'.memory.PathAt t.root path p → n.at? path = some k →
    h'.memory.StandsFor p k
  /-- The blocks of the tree are the pieces that the paths lead to, each once. -/
  owned : ∃ pieces, pieces.map Prod.snd = t.owned ∧
    h'.memory.Pieces (h'.memory.PathAt t.root) pieces
  /-- Different pieces share no address. -/
  separate : ∀ path path' p p' b b', h'.memory.PathAt t.root path p →
    h'.memory.PathAt t.root path' p' → h'.memory.PieceAt p b → h'.memory.PieceAt p' b' →
    (path, b) ≠ (path', b') → b.extent.Separate b'.extent
  /-- A piece with bytes is reached on one path. -/
  reached_once : ∀ path path' p p' b, h'.memory.PathAt t.root path p →
    h'.memory.PathAt t.root path' p' → h'.memory.PieceAt p b → h'.memory.PieceAt p' b →
    0 < b.extent.size → path = path'
  /-- The blocks of the tree are what has become live; all that was live is as it was. -/
  grows : h.Grows h' t.extents
  /-- There is a token for each node that is not null. -/
  tokenCount_eq : t.tokenCount = n.tokenCount
  /-- Wherever the blocks are live still, giving the tree back frees them and nothing else. -/
  frees : ∀ g : Heap, (∀ e ∈ t.extents, 0 < e.size → g.Live e) → g.Frees t.extents (t.drop g)

/-- **Building lays out the described tree and owns each piece once.**  It succeeds if no element
array is too large and there is room for the blocks. -/
theorem build_laidOut (A : Allocator) (h : Heap) (n : Node) :
    (n.SlotsFit → A.Serves n.blockSizes h → ∃ t h', build A h n = .ok (t, h')) ∧
      ∀ t h', build A h n = .ok (t, h') → t.LaidOut h h' n := by
  refine ⟨fun hfit hroom => ?_, fun t h' hbuild => ?_⟩
  · rw [← List.append_nil n.blockSizes] at hroom
    obtain ⟨t, h', ht, -⟩ := build_eq_ok hfit hroom
    exact ⟨t, h', ht⟩
  obtain ⟨hgrows, hoccupies⟩ := occupies_build hbuild
  obtain ⟨pieces, howned, hpieces⟩ := Memory.pieces_of_occupies hoccupies
  have hparted : pieces.Pairwise fun v w => v.2.extent.Separate w.2.extent := by
    have := hgrows.parted
    rw [extents, ← howned, List.map_map] at this
    exact List.pairwise_map.mp this
  have hseparate : ∀ path path' p p' b b', h'.memory.PathAt t.root path p →
      h'.memory.PathAt t.root path' p' → h'.memory.PieceAt p b → h'.memory.PieceAt p' b' →
      (path, b) ≠ (path', b') → b.extent.Separate b'.extent := by
    intro path path' p p' b b' hp hp' hb hb' hne
    have : Std.Symm fun v w : List Nat × OwnedBlock => v.2.extent.Separate w.2.extent :=
      ⟨fun _ _ hvw => hvw.symm⟩
    exact hparted.forall ((hpieces.mem_iff path b).mpr ⟨p, hp, hb⟩)
      ((hpieces.mem_iff path' b').mpr ⟨p', hp', hb'⟩) hne
  exact {
    path_iff := fun path => by
      obtain ⟨hforth, hback⟩ := Memory.path_of_occupies path hoccupies
      rw [Option.isSome_iff_exists]
      constructor
      · rintro ⟨p, hp⟩
        obtain ⟨k, -, hk, -⟩ := hforth p hp
        exact ⟨k, hk⟩
      · rintro ⟨k, hk⟩
        exact hback k hk
    stands := fun path p k hp hk => by
      obtain ⟨k', new, hk', hoccupies'⟩ := (Memory.path_of_occupies path hoccupies).1 p hp
      obtain rfl := Option.some.inj (hk.symm.trans hk')
      exact Memory.standsFor_of_occupies hoccupies'
    owned := ⟨pieces, howned, hpieces⟩
    separate := hseparate
    reached_once := fun path path' p p' b hp hp' hb hb' hpos => by
      by_contra hne
      have hself := hseparate path path' p p' b b hp hp' hb hb' fun heq =>
        hne (Prod.mk.inj heq).1
      exact Nat.ne_of_gt hpos hself.size_eq_zero
    grows := hgrows
    tokenCount_eq := Memory.countP_of_occupies hoccupies
    frees := fun g hlive => Heap.frees_of_live hlive hgrows.parted }

/-- A node of many kinds is laid out on the empty heap.  Its tree has nine tokens, and is given back
from there. -/
theorem laidOut_mixedNode :
    ∃ t h', build .ascending .empty mixedNode = .ok (t, h') ∧ t.LaidOut .empty h' mixedNode ∧
      t.tokenCount = 9 ∧ h'.Frees t.extents (t.drop h') := by
  have hroom : Allocator.ascending.Serves mixedNode.blockSizes .empty :=
    Allocator.ascending_serves (by decide +kernel)
  obtain ⟨hbuild, hlaidOut⟩ := build_laidOut .ascending .empty mixedNode
  obtain ⟨t, h', ht⟩ := hbuild slotsFit_mixedNode hroom
  have hlaid := hlaidOut t h' ht
  refine ⟨t, h', ht, hlaid, hlaid.tokenCount_eq.trans rfl, hlaid.frees h' fun e he hpos => ?_⟩
  exact (hlaid.grows.live_iff e hpos).mpr (.inl he)

end ForeignTree

end TokenImage
