/-
# Normal forms of nodes

Several nodes may stand for one token.  Their element arrays may have other slots to spare, a null
node is read like one that carries nothing at the start of the input, and a tag of its own over a
payload of zeros is read like the value that the tag makes of them.  `Node.normalForm` settles all of
these choices, and there are no others: nodes stand for the same token exactly if they have the same
normal form (`translate_eq_iff`).

The normal form of a node is the node of its token (`toNode_translate`).  A token has a node of its
own, with the same values at the same positions, and that stands for the token again
(`translate_toNode`); so every token is the token of some node, and no two trees need be compared
constructor by constructor.

`decode_eq_iff_normalForm` says so of what a decoder gives for trees in memory, wherever those were
laid out.
-/
import TokenImage.Proofs.Engine.EndToEnd

namespace TokenImage

/-! ## 1. The normal form -/

/-- The shape of the node whose token has the value that a tag gives to a payload of zeros. -/
def Tag.zeroShape (tag : Tag) : Shape Node :=
  if tag = 2 then .bytes []
  else if tag = 4 then .signed 0
  else if tag = 8 then .unsigned 0
  else if tag = 16 then .sequence []
  else .none

namespace Node

mutual

/-- **The normal form of a node**: no slots to spare, no null nodes, and no tags of its own. -/
def normalForm : Node → Node
  | ⟨.null, _, _, _⟩ => { shape := .none }
  | ⟨.tagged tag, index, bitOffset, _⟩ => { shape := tag.zeroShape, index, bitOffset }
  | ⟨.none, index, bitOffset, _⟩ => { shape := .none, index, bitOffset }
  | ⟨.bytes span, index, bitOffset, _⟩ => { shape := .bytes span, index, bitOffset }
  | ⟨.signed number, index, bitOffset, _⟩ => { shape := .signed number, index, bitOffset }
  | ⟨.unsigned number, index, bitOffset, _⟩ => { shape := .unsigned number, index, bitOffset }
  | ⟨.sequence items, index, bitOffset, _⟩ =>
    { shape := .sequence (allNormalForms items), index, bitOffset }

/-- The normal forms of the nodes of a list, in order. -/
def allNormalForms : List Node → List Node
  | [] => []
  | n :: ns => normalForm n :: allNormalForms ns

end

end Node

/-! ## 2. The node of a token -/

namespace Token

mutual

/-- **The node of a token**: the same value, at the same position with the offset taken as an
index. -/
def toNode : Token → Node
  | ⟨byteOffset, bitOffset, .none⟩ => { shape := .none, index := byteOffset.toUInt64, bitOffset }
  | ⟨byteOffset, bitOffset, .bytes span⟩ =>
    { shape := .bytes span, index := byteOffset.toUInt64, bitOffset }
  | ⟨byteOffset, bitOffset, .signed number⟩ =>
    { shape := .signed number, index := byteOffset.toUInt64, bitOffset }
  | ⟨byteOffset, bitOffset, .unsigned number⟩ =>
    { shape := .unsigned number, index := byteOffset.toUInt64, bitOffset }
  | ⟨byteOffset, bitOffset, .sequence items⟩ =>
    { shape := .sequence (toNodes items), index := byteOffset.toUInt64, bitOffset }

/-- The nodes of the tokens of a list, in order. -/
def toNodes : List Token → List Node
  | [] => []
  | t :: ts => toNode t :: toNodes ts

end

mutual

/-- **The node of a token stands for the token.** -/
theorem translate_toNode : ∀ t : Token, t.toNode.translate = t
  | ⟨byteOffset, _, .none⟩ => by rw [toNode, Node.translate, byteOffset.toInt64_toUInt64]
  | ⟨byteOffset, _, .bytes _⟩ => by rw [toNode, Node.translate, byteOffset.toInt64_toUInt64]
  | ⟨byteOffset, _, .signed _⟩ => by rw [toNode, Node.translate, byteOffset.toInt64_toUInt64]
  | ⟨byteOffset, _, .unsigned _⟩ => by rw [toNode, Node.translate, byteOffset.toInt64_toUInt64]
  | ⟨byteOffset, _, .sequence items⟩ => by
    rw [toNode, Node.translate, byteOffset.toInt64_toUInt64, translateAll_toNodes items]

/-- The nodes of the tokens of a list stand for these tokens. -/
theorem translateAll_toNodes : ∀ ts : List Token, Node.translateAll (toNodes ts) = ts
  | [] => rfl
  | t :: ts => by rw [toNodes, Node.translateAll, translate_toNode t, translateAll_toNodes ts]

end

end Token

/-! ## 3. What normal forms tell apart -/

/-- The value of a payload of zeros has the shape of that payload, at every position. -/
theorem Tag.toNode_zeroValue (tag : Tag) (byteOffset : Int64) (bitOffset : Int8) :
    Token.toNode ⟨byteOffset, bitOffset, tag.zeroValue⟩ =
      { shape := tag.zeroShape, index := byteOffset.toUInt64, bitOffset } := by
  rw [zeroValue, zeroShape]
  split_ifs with hbytes hsigned hunsigned hsequence
  · rw [Token.toNode]
  · rw [Token.toNode]
  · rw [Token.toNode]
  · rw [Token.toNode, Token.toNodes]
  · rw [Token.toNode]

namespace Node

mutual

/-- **The normal form of a node is the node of its token.** -/
theorem toNode_translate : ∀ n : Node, n.translate.toNode = n.normalForm
  | ⟨.null, _, _, _⟩ => rfl
  | ⟨.tagged tag, index, _, _⟩ => by
    rw [translate, normalForm, tag.toNode_zeroValue, index.toUInt64_toInt64]
  | ⟨.none, index, _, _⟩ => by rw [translate, normalForm, Token.toNode, index.toUInt64_toInt64]
  | ⟨.bytes _, index, _, _⟩ => by rw [translate, normalForm, Token.toNode, index.toUInt64_toInt64]
  | ⟨.signed _, index, _, _⟩ => by rw [translate, normalForm, Token.toNode, index.toUInt64_toInt64]
  | ⟨.unsigned _, index, _, _⟩ => by
    rw [translate, normalForm, Token.toNode, index.toUInt64_toInt64]
  | ⟨.sequence items, index, _, _⟩ => by
    rw [translate, normalForm, Token.toNode, index.toUInt64_toInt64, toNodes_translateAll items]

/-- The same for the nodes of a list. -/
theorem toNodes_translateAll : ∀ ns : List Node,
    Token.toNodes (translateAll ns) = allNormalForms ns
  | [] => rfl
  | n :: ns => by
    rw [translateAll, Token.toNodes, allNormalForms, toNode_translate n, toNodes_translateAll ns]

end

/-- A node and its normal form stand for the same token. -/
theorem translate_normalForm (n : Node) : n.normalForm.translate = n.translate := by
  rw [← toNode_translate, Token.translate_toNode]

mutual

/-- The element arrays of a normal form are no larger. -/
theorem slotsFit_normalForm : ∀ n : Node, n.SlotsFit → n.normalForm.SlotsFit
  | ⟨.null, _, _, _⟩, _ => trivial
  | ⟨.tagged tag, _, _, _⟩, _ => by
    rw [normalForm, Tag.zeroShape]
    split_ifs with hbytes hsigned hunsigned hsequence
    · exact trivial
    · exact trivial
    · exact trivial
    · exact ⟨trivial, Nat.zero_le _⟩
    · exact trivial
  | ⟨.none, _, _, _⟩, _ => trivial
  | ⟨.bytes _, _, _, _⟩, _ => trivial
  | ⟨.signed _, _, _, _⟩, _ => trivial
  | ⟨.unsigned _, _, _, _⟩, _ => trivial
  | ⟨.sequence items, _, _, spare⟩, ⟨hitems, hslots⟩ => by
    obtain ⟨hall, hlength⟩ := allSlotsFit_allNormalForms items hitems
    refine ⟨hall, ?_⟩
    rw [hlength, Nat.add_zero]
    exact Nat.le_of_add_right_le hslots

/-- The same below the nodes of a list, of which there are as many. -/
theorem allSlotsFit_allNormalForms : ∀ ns : List Node, AllSlotsFit ns →
    AllSlotsFit (allNormalForms ns) ∧ (allNormalForms ns).length = ns.length
  | [], _ => ⟨trivial, rfl⟩
  | n :: ns, ⟨hn, hns⟩ => by
    obtain ⟨hall, hlength⟩ := allSlotsFit_allNormalForms ns hns
    exact ⟨⟨slotsFit_normalForm n hn, hall⟩, congrArg (· + 1) hlength⟩

end

/-- A normal form is its own normal form. -/
theorem normalForm_normalForm (n : Node) : n.normalForm.normalForm = n.normalForm := by
  rw [← toNode_translate, translate_normalForm, toNode_translate]

/-- **Nodes stand for the same token exactly if they have the same normal form.** -/
theorem translate_eq_iff {a b : Node} : a.translate = b.translate ↔ a.normalForm = b.normalForm := by
  constructor
  · intro h
    rw [← toNode_translate a, h, toNode_translate]
  · intro h
    rw [← translate_normalForm a, h, translate_normalForm]

end Node

/-! ## 4. Trees in memory -/

/-- A token that some decoder has given, from whatever memory, is what it makes of the token's
node. -/
theorem Decoder.outcome_toNode {d : Decoder} {m : Memory} {p : Nat} {x : Token}
    (h : (d.decode m p).result = .ok x) : d.outcome x.toNode = .ok x := by
  have hdepth : x.depth ≤ d.room := (decode_eq_ok_iff.mp h).2
  rw [outcome_of_depth_le, x.translate_toNode]
  intro limit hlimit
  rwa [room, hlimit, ← x.translate_toNode] at hdepth

/-- **Laying out and decoding tells nodes apart up to their normal form, and comes to every token.**
For all policies of placing blocks and all heaps:

* a node whose element arrays are not too large has a tree, if there is room for its blocks;
* the decodings of the trees of two nodes are equal exactly if the nodes have the same normal form,
  and neither of them is an error;
* the tree of the node of a token is decoded to the token;
* and what any decoder gives for any memory, it gives again for the tree of the node of that token,
  and so does a decoder without a limit. -/
theorem decode_eq_iff_normalForm (A B : Allocator) (g h : Heap) :
    (∀ n : Node, n.SlotsFit → A.Serves n.blockSizes g →
      ∃ t g', ForeignTree.build A g n = .ok (t, g')) ∧
    (∀ (a b : Node) (t u : ForeignTree) (g' h' : Heap),
      ForeignTree.build A g a = .ok (t, g') → ForeignTree.build B h b = .ok (u, h') →
      ∀ d d' : Decoder, d.maxDepth = none → d'.maxDepth = none →
        (∃ x y, (d.decode g'.memory t.root).result = .ok x ∧
          (d'.decode h'.memory u.root).result = .ok y) ∧
        ((d.decode g'.memory t.root).result = (d'.decode h'.memory u.root).result ↔
          a.normalForm = b.normalForm)) ∧
    ∀ (x : Token) (t : ForeignTree) (g' : Heap), ForeignTree.build A g x.toNode = .ok (t, g') →
      (∀ d : Decoder, d.maxDepth = none → (d.decode g'.memory t.root).result = .ok x) ∧
      ∀ (d : Decoder) (m : Memory) (root : Nat), (d.decode m root).result = .ok x →
        (d.decode g'.memory t.root).result = .ok x := by
  refine ⟨fun n => ForeignTree.exists_build, fun a b t u g' h' ht hu d d' hd hd' => ?_,
    fun x t g' ht => ⟨fun d hd => ?_, fun d m root hx => ?_⟩⟩
  · rw [ForeignTree.result_decode_build ht, ForeignTree.result_decode_build hu,
      Decoder.outcome_of_maxDepth_none hd, Decoder.outcome_of_maxDepth_none hd',
      Except.ok.injEq, Node.translate_eq_iff]
    exact ⟨⟨_, _, rfl, rfl⟩, Iff.rfl⟩
  · rw [ForeignTree.result_decode_build ht, Decoder.outcome_of_maxDepth_none hd,
      x.translate_toNode]
  · rw [ForeignTree.result_decode_build ht, Decoder.outcome_toNode hx]

/-- The node of many kinds and its normal form have trees that are decoded alike, the empty sequence
has another one, and the token of the shared memory comes back from the tree of its node. -/
theorem decode_normalForm_mixedNode :
    (∃ t u v : ForeignTree, ∃ g₁ g₂ g₃ : Heap,
      ForeignTree.build .ascending .empty mixedNode = .ok (t, g₁) ∧
      ForeignTree.build .ascending .empty mixedNode.normalForm = .ok (u, g₂) ∧
      ForeignTree.build .ascending .empty (Node.sequence []) = .ok (v, g₃) ∧
      (({} : Decoder).decode g₁.memory t.root).result =
        (({} : Decoder).decode g₂.memory u.root).result ∧
      (({} : Decoder).decode g₁.memory t.root).result ≠
        (({} : Decoder).decode g₃.memory v.root).result) ∧
    ∃ (t : ForeignTree) (g : Heap),
      ForeignTree.build .ascending .empty Memory.sharingToken.toNode = .ok (t, g) ∧
      (({} : Decoder).decode g.memory t.root).result = .ok Memory.sharingToken := by
  obtain ⟨hbuild, hiff, hagain⟩ := decode_eq_iff_normalForm .ascending .ascending .empty .empty
  obtain ⟨t, g₁, ht⟩ := hbuild mixedNode slotsFit_mixedNode
    (Allocator.ascending_serves (by decide +kernel))
  obtain ⟨u, g₂, hu⟩ := hbuild mixedNode.normalForm (mixedNode.slotsFit_normalForm slotsFit_mixedNode)
    (Allocator.ascending_serves (by decide +kernel))
  obtain ⟨v, g₃, hv⟩ := hbuild (Node.sequence []) ⟨trivial, by decide⟩
    (Allocator.ascending_serves (by decide +kernel))
  obtain ⟨w, g₄, hw⟩ := hbuild Memory.sharingToken.toNode
    ⟨⟨trivial, trivial, trivial, trivial⟩, by decide⟩ (Allocator.ascending_serves (by decide +kernel))
  refine ⟨⟨t, u, v, g₁, g₂, g₃, ht, hu, hv, ?_, ?_⟩, w, g₄, hw, ?_⟩
  · exact (hiff _ _ t u g₁ g₂ ht hu {} {} rfl rfl).2.mpr mixedNode.normalForm_normalForm.symm
  · intro hsame
    have hnormal := (hiff _ _ t v g₁ g₃ ht hv {} {} rfl rfl).2.mp hsame
    have hne : mixedNode.normalForm ≠ (Node.sequence []).normalForm := by decide +kernel
    exact hne hnormal
  · refine (hagain _ w g₄ hw).2 {} Memory.sharingMemory 16 ?_
    exact Decoder.decode_eq_ok_iff.mpr ⟨Memory.tokenAt_sharingMemory, by decide +kernel⟩

/-- **A node may have no tree at all**, where its normal form has one: the element array of this
sequence would be larger than any block. -/
theorem decode_ne_of_overflow :
    ¬ ∀ a b : Node,
      (∃ t u g' h', ForeignTree.build .ascending .empty a = .ok (t, g') ∧
        ForeignTree.build .ascending .empty b = .ok (u, h') ∧
        (({} : Decoder).decode g'.memory t.root).result =
          (({} : Decoder).decode h'.memory u.root).result) ↔
      a.normalForm = b.normalForm := by
  intro h
  have hnormal : ((Node.sequence []).withSpareCapacity (2 ^ 60)).normalForm =
      (Node.sequence []).normalForm := rfl
  obtain ⟨t, -, g', -, hbuild, -⟩ := (h _ _).mpr hnormal
  have hcrash : (ForeignTree.build .ascending .empty
      ((Node.sequence []).withSpareCapacity (2 ^ 60))).isOk = false := by decide +kernel
  rw [hbuild] at hcrash
  exact nomatch hcrash

end TokenImage
