/-
# What nodes stand for

A node is laid out in memory and read out of it again; this file says what should come out of that,
without any memory.  A null node stands for the zero token, wherever it was placed.  Every other
node keeps its position, with the index taken as a signed number, and its value; a node with a tag
of its own has the value that the tag gives to a payload of zeros.

The other two functions are about laying out.  `SlotsFit` says that no element array is too large
to be asked for, and `blockSizes` lists what is asked for, in order.
-/
import TokenImage.ForeignTree.Basic
import TokenImage.Token.Basic

namespace TokenImage

/-! ## 1. The translation -/

/-- What a payload of zeros is under a tag. -/
def Tag.zeroValue (tag : Tag) : Value Token :=
  if tag = 2 then .bytes []
  else if tag = 4 then .signed 0
  else if tag = 8 then .unsigned 0
  else if tag = 16 then .sequence []
  else .none

namespace Node

mutual

/-- **The token that a node stands for.** -/
def translate : Node → Token
  | ⟨.null, _, _, _⟩ => Token.zero
  | ⟨.tagged tag, index, bitOffset, _⟩ => ⟨index.toInt64, bitOffset, tag.zeroValue⟩
  | ⟨.none, index, bitOffset, _⟩ => ⟨index.toInt64, bitOffset, .none⟩
  | ⟨.bytes span, index, bitOffset, _⟩ => ⟨index.toInt64, bitOffset, .bytes span⟩
  | ⟨.signed number, index, bitOffset, _⟩ => ⟨index.toInt64, bitOffset, .signed number⟩
  | ⟨.unsigned number, index, bitOffset, _⟩ => ⟨index.toInt64, bitOffset, .unsigned number⟩
  | ⟨.sequence items, index, bitOffset, _⟩ =>
    ⟨index.toInt64, bitOffset, .sequence (translateAll items)⟩

/-- The tokens that the nodes of a list stand for, in order. -/
def translateAll : List Node → List Token
  | [] => []
  | n :: ns => translate n :: translateAll ns

end

/-! ## 2. What is laid out -/

mutual

/-- No element array has more slots than a block can have. -/
def SlotsFit : Node → Prop
  | ⟨.sequence items, _, _, spare⟩ =>
    AllSlotsFit items ∧ items.length + spare ≤ BuildSite.maxSlots
  | _ => True

/-- No element array below the nodes of a list has more slots than a block can have. -/
def AllSlotsFit : List Node → Prop
  | [] => True
  | n :: ns => SlotsFit n ∧ AllSlotsFit ns

end

mutual

/-- The sizes of the blocks that are allocated for a node, in order. -/
def blockSizes : Node → List Nat
  | ⟨.null, _, _, _⟩ => []
  | ⟨.tagged _, _, _, _⟩ => [libraryLayout.size]
  | ⟨.none, _, _, _⟩ => [libraryLayout.size]
  | ⟨.bytes span, _, _, _⟩ => [span.length, libraryLayout.size]
  | ⟨.signed _, _, _, _⟩ => [libraryLayout.size]
  | ⟨.unsigned _, _, _, _⟩ => [libraryLayout.size]
  | ⟨.sequence items, _, _, spare⟩ =>
    allBlockSizes items ++
      [FieldType.word.size * (items.length + spare), arrayLayout.size, libraryLayout.size]

/-- The sizes of the blocks that are allocated for the nodes of a list, in order. -/
def allBlockSizes : List Node → List Nat
  | [] => []
  | n :: ns => blockSizes n ++ allBlockSizes ns

end

end Node

end TokenImage
