/-
# Results in the heap

A result is a record of its own and, where there was a match, the tree that it owns.  All of its
blocks are new (`grows_allocResult`), its record leads to the root of the tree, and the tree stands
for the translation of the node that the reply had (`allocResult_matched`).
-/
import TokenImage.Engine
import TokenImage.Proofs.Tree.Building

namespace TokenImage

open AllocationFailure

/-! ## 1. Trees -/

namespace ForeignTree

variable {A : Allocator} {h h' : Heap} {n : Node} {t : ForeignTree}

/-- The blocks that a tree owns. -/
def extents (t : ForeignTree) : List Extent :=
  t.owned.map OwnedBlock.extent

/-- The tree of a node is what its site has laid out. -/
theorem build_eq_ok_iff : build A h n = .ok (t, h') ↔
    ∃ site', BuildSite.add A { heap := h } n = .ok (t.root, site') ∧ site'.owned = t.owned ∧
      site'.heap = h' := by
  simp only [build, bind_eq_ok_iff, Prod.exists]
  constructor
  · rintro ⟨root, site', hadd, h⟩
    obtain ⟨rfl, rfl⟩ := Prod.mk.inj (Except.ok.inj h)
    exact ⟨site', hadd, rfl, rfl⟩
  · rintro ⟨site', hadd, howned, rfl⟩
    refine ⟨_, site', hadd, ?_⟩
    rw [howned]
    rfl

/-- **A tree owns the new blocks**, and its node has these and no others. -/
theorem occupies_build (hbuild : build A h n = .ok (t, h')) :
    h.Grows h' t.extents ∧ h'.memory.Occupies t.root n t.owned := by
  obtain ⟨site', hadd, howned, rfl⟩ := build_eq_ok_iff.mp hbuild
  obtain ⟨new, hgrows, hoccupies⟩ := BuildSite.lays_add n hadd
  have hnew : t.owned = new := by
    rw [← howned, hgrows.owned_eq, List.append_nil]
  rw [extents, hnew]
  exact ⟨hgrows.heap_grows, hoccupies⟩

/-- A tree has the tokens that its node describes. -/
theorem tokenCount_build (hbuild : build A h n = .ok (t, h')) : t.tokenCount = n.tokenCount :=
  Memory.countP_of_occupies (occupies_build hbuild).2

/-- **A tree lies in new blocks**, which are its own. -/
theorem laid_build (hbuild : build A h n = .ok (t, h')) :
    h.Grows h' t.extents ∧ h'.memory.Laid t.extents t.root n :=
  (occupies_build hbuild).imp id Memory.laid_of_occupies

/-- **A tree stands for its node**: it lies in new blocks, and in every memory that has their bytes
its root stands for the translation. -/
theorem build_spec (hbuild : build A h n = .ok (t, h')) :
    h.Grows h' t.extents ∧
      ∀ m, (∀ e ∈ t.extents, h'.memory.AgreeOn m e) → m.Represents t.extents t.root n.translate := by
  obtain ⟨hgrows, hlaid⟩ := laid_build hbuild
  refine ⟨hgrows, fun m hm => Memory.represents_of_laid n ?_⟩
  exact Memory.laid_transfer (List.Subset.refl _) hm n hlaid

/-- Where there is room for its blocks there is a tree, if the element arrays fit. -/
theorem build_eq_ok {sizes : List Nat} (hfit : n.SlotsFit)
    (hroom : A.Serves (n.blockSizes ++ sizes) h) :
    ∃ t h', build A h n = .ok (t, h') ∧ A.Serves sizes h' := by
  have hsite : A.Serves (n.blockSizes ++ sizes) ({ heap := h } : BuildSite).heap := hroom
  obtain ⟨root, site', hadd, hrest⟩ := BuildSite.add_eq_ok n hfit hsite
  exact ⟨⟨root, site'.owned⟩, site'.heap, build_eq_ok_iff.mpr ⟨site', hadd, rfl, rfl⟩, hrest⟩

/-- So there is a tree where there is room for nothing else. -/
theorem exists_build (hfit : n.SlotsFit) (hroom : A.Serves n.blockSizes h) :
    ∃ t h', build A h n = .ok (t, h') := by
  rw [← List.append_nil n.blockSizes] at hroom
  obtain ⟨t, h', hbuild, -⟩ := build_eq_ok hfit hroom
  exact ⟨t, h', hbuild⟩

/-- Only the tree of a null node has no root. -/
theorem root_ne_zero (hbuild : build A h n = .ok (t, h')) (hn : n.shape ≠ .null) : t.root ≠ 0 := by
  obtain ⟨site', hadd, -, -⟩ := build_eq_ok_iff.mp hbuild
  exact BuildSite.add_ne_zero hadd hn

end ForeignTree

/-! ## 2. Results -/

/-- The blocks of a result: its record, and what its tree owns. -/
def resultBlocks (handle : Nat) (tree : Option ForeignTree) : List Extent :=
  ⟨handle, resultLayout.size⟩ :: tree.elim [] ForeignTree.extents

namespace Heap

variable {A : Allocator} {h h' : Heap} {reply : Reply} {handle inputLength : Nat}
  {tree : Option ForeignTree}

theorem grows_allocTree (ha : h.allocTree A reply = .ok (tree, h')) :
    h.Grows h' (tree.elim [] ForeignTree.extents) := by
  cases reply with
  | matched node =>
    simp only [allocTree, bind_eq_ok_iff, Prod.exists] at ha
    obtain ⟨t, h₁, hbuild, ha⟩ := ha
    obtain ⟨rfl, rfl⟩ := Prod.mk.inj (Except.ok.inj ha)
    exact (ForeignTree.build_spec hbuild).1
  | noMatch =>
    obtain ⟨rfl, rfl⟩ := Prod.mk.inj (Except.ok.inj ha)
    exact .refl h
  | nullResult =>
    obtain ⟨rfl, rfl⟩ := Prod.mk.inj (Except.ok.inj ha)
    exact .refl h

/-- A result is a tree, and then a record that leads to its root. -/
theorem allocResult_eq_ok (ha : h.allocResult A reply inputLength = .ok (handle, tree, h')) :
    ∃ h₁, h.allocTree A reply = .ok (tree, h₁) ∧ h₁.Grows h' [⟨handle, resultLayout.size⟩] ∧
      h'.memory.FieldsAt handle
        (ResultRecord.fields ⟨tree.elim 0 ForeignTree.root, inputBits inputLength⟩) := by
  simp only [allocResult, bind_eq_ok_iff, ofRoom_eq_ok_iff, Prod.exists] at ha
  obtain ⟨tree', h₁, htree, ⟨base, size⟩, h₂, hrecord, ha⟩ := ha
  obtain ⟨rfl, heq⟩ := Prod.mk.inj (Except.ok.inj ha)
  obtain ⟨rfl, rfl⟩ := Prod.mk.inj heq
  obtain ⟨hgrows, hsize, hfields⟩ := grows_allocRecord (by decide) (ResultRecord.fields_fit _) hrecord
  obtain rfl : size = resultLayout.size := hsize
  exact ⟨h₁, htree, hgrows, hfields⟩

/-- **The blocks of a result are new.** -/
theorem grows_allocResult (ha : h.allocResult A reply inputLength = .ok (handle, tree, h')) :
    h.Grows h' (resultBlocks handle tree) := by
  obtain ⟨h₁, htree, hgrows, -⟩ := allocResult_eq_ok ha
  exact (grows_allocTree htree).trans hgrows

/-- A result is not at the null pointer. -/
theorem handle_pos (ha : h.allocResult A reply inputLength = .ok (handle, tree, h')) :
    0 < handle :=
  ((grows_allocResult ha).addressable _ List.mem_cons_self).base_pos

/-- **The result of a match** leads to a root that stands for the translation of the node. -/
theorem allocResult_matched {node : Node}
    (ha : h.allocResult A (.matched node) inputLength = .ok (handle, tree, h')) :
    ∃ t : ForeignTree, h'.memory.resultRoot handle = some t.root ∧
      h'.memory.Represents t.extents t.root node.translate ∧
      (node.shape ≠ .null → t.root ≠ 0) := by
  obtain ⟨h₁, htree, hgrows, hfields⟩ := allocResult_eq_ok ha
  simp only [allocTree, bind_eq_ok_iff, Prod.exists] at htree
  obtain ⟨t, h₂, hbuild, heq⟩ := htree
  obtain ⟨rfl, rfl⟩ := Prod.mk.inj (Except.ok.inj heq)
  obtain ⟨hgrows', hrepresents⟩ := ForeignTree.build_spec hbuild
  have hnode := hrepresents h'.memory fun e he => hgrows'.agree_new hgrows he
  have hroot : h'.memory.BytesAt (handle + 0) (littleEndian 8 t.root) :=
    hfields (0, littleEndian 8 t.root) List.mem_cons_self
  refine ⟨t, ?_, hnode, ForeignTree.root_ne_zero hbuild⟩
  exact Memory.loadPointer_eq_some_iff.mpr (hroot.numberAt hnode.pointer_lt)

/-- Where there is room for its blocks there is a result, if the element arrays fit. -/
theorem exists_allocResult {node : Node} (hfit : node.SlotsFit)
    (hroom : A.Serves (node.blockSizes ++ [resultLayout.size]) h) :
    ∃ handle tree h', h.allocResult A (.matched node) inputLength = .ok (handle, tree, h') := by
  obtain ⟨t, h₁, hbuild, hroom⟩ := ForeignTree.build_eq_ok hfit hroom
  obtain ⟨e, h', hrecord, -⟩ := hroom.allocRecord
    (ResultRecord.fields ⟨t.root, inputBits inputLength⟩) (by decide)
  refine ⟨e.base, some t, h', ?_⟩
  simp only [allocResult, allocTree, bind_eq_ok_iff, ofRoom_eq_ok_iff, Prod.exists]
  exact ⟨_, _, ⟨_, _, hbuild, rfl⟩, _, _, hrecord, rfl⟩

end Heap

end TokenImage
