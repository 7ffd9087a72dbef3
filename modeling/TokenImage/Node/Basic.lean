/-
# Described tokens

A node describes one token that an engine is to lay out in memory: its shape, where it stands in the
input, and how many unused slots its element array has.  Every node has a position and a spare
capacity, also where its shape makes no use of them, and both count for equality.
-/
import TokenImage.Tag

namespace TokenImage

/-! ## 1. The tree -/

/-- What kind of token a node describes; a sequence holds nodes of type `ν`, in order. -/
inductive Shape (ν : Type) where
  /-- No token at all, but a null pointer. -/
  | null
  /-- A token with a tag of its own and a zero payload. -/
  | tagged (tag : Tag)
  /-- A token that carries nothing. -/
  | none
  /-- A token with a buffer that holds these bytes. -/
  | bytes (span : List UInt8)
  /-- A token with a signed number. -/
  | signed (number : Int64)
  /-- A token with an unsigned number. -/
  | unsigned (number : UInt64)
  /-- A token with an array of the tokens that these nodes describe. -/
  | sequence (items : List ν)

/-- A token to be laid out. -/
structure Node where
  shape : Shape Node
  index : UInt64 := 0
  bitOffset : Int8 := 0
  spareCapacity : Nat := 0

namespace Node

instance : Inhabited Node := ⟨{ shape := .null }⟩

/-- The same node at another position. -/
def placedAt (n : Node) (index : UInt64) (bitOffset : Int8) : Node :=
  { n with index, bitOffset }

/-- The same node with another number of unused slots. -/
def withSpareCapacity (n : Node) (spareCapacity : Nat) : Node :=
  { n with spareCapacity }

/-- A sequence of nodes, at the start of the input. -/
def sequence (items : List Node) : Node :=
  { shape := .sequence items }

/-! ## 2. Equality -/

mutual

/-- Whether two nodes agree in shape, position and spare capacity, all the way down. -/
def same : Node → Node → Bool
  | ⟨.null, i, b, s⟩, ⟨.null, i', b', s'⟩ => i == i' && b == b' && s == s'
  | ⟨.tagged t, i, b, s⟩, ⟨.tagged t', i', b', s'⟩ => i == i' && b == b' && s == s' && t == t'
  | ⟨.none, i, b, s⟩, ⟨.none, i', b', s'⟩ => i == i' && b == b' && s == s'
  | ⟨.bytes x, i, b, s⟩, ⟨.bytes x', i', b', s'⟩ => i == i' && b == b' && s == s' && x == x'
  | ⟨.signed x, i, b, s⟩, ⟨.signed x', i', b', s'⟩ => i == i' && b == b' && s == s' && x == x'
  | ⟨.unsigned x, i, b, s⟩, ⟨.unsigned x', i', b', s'⟩ =>
    i == i' && b == b' && s == s' && x == x'
  | ⟨.sequence ns, i, b, s⟩, ⟨.sequence ns', i', b', s'⟩ =>
    i == i' && b == b' && s == s' && allSame ns ns'
  | _, _ => false

/-- Whether two lists of nodes agree item by item. -/
def allSame : List Node → List Node → Bool
  | [], [] => true
  | n :: ns, k :: ks => n.same k && allSame ns ks
  | _, _ => false

end

mutual

theorem eq_of_same : ∀ (n k : Node), n.same k = true → n = k
  | ⟨x, _, _, _⟩, ⟨y, _, _, _⟩, h => by
    cases x <;> cases y <;> simp only [same, Bool.and_eq_true, beq_iff_eq, Bool.false_eq_true] at h
    case null.null => rw [h.1.1, h.1.2, h.2]
    case tagged.tagged => rw [h.1.1.1, h.1.1.2, h.1.2, h.2]
    case none.none => rw [h.1.1, h.1.2, h.2]
    case bytes.bytes => rw [h.1.1.1, h.1.1.2, h.1.2, h.2]
    case signed.signed => rw [h.1.1.1, h.1.1.2, h.1.2, h.2]
    case unsigned.unsigned => rw [h.1.1.1, h.1.1.2, h.1.2, h.2]
    case sequence.sequence ns ks => rw [h.1.1.1, h.1.1.2, h.1.2, eq_of_allSame ns ks h.2]

theorem eq_of_allSame : ∀ (ns ks : List Node), allSame ns ks = true → ns = ks
  | [], [], _ => rfl
  | [], _ :: _, h => by simp [allSame] at h
  | _ :: _, [], h => by simp [allSame] at h
  | n :: ns, k :: ks, h => by
    simp only [allSame, Bool.and_eq_true] at h
    rw [eq_of_same n k h.1, eq_of_allSame ns ks h.2]

end

mutual

theorem same_refl : ∀ n : Node, n.same n = true
  | ⟨.null, _, _, _⟩ => by simp [same]
  | ⟨.tagged _, _, _, _⟩ => by simp [same]
  | ⟨.none, _, _, _⟩ => by simp [same]
  | ⟨.bytes _, _, _, _⟩ => by simp [same]
  | ⟨.signed _, _, _, _⟩ => by simp [same]
  | ⟨.unsigned _, _, _, _⟩ => by simp [same]
  | ⟨.sequence ns, _, _, _⟩ => by simp [same, allSame_refl ns]

theorem allSame_refl : ∀ ns : List Node, allSame ns ns = true
  | [] => rfl
  | n :: ns => by simp [allSame, same_refl n, allSame_refl ns]

end

/-- **Agreement is equality**, so nodes have decidable equality. -/
theorem same_iff_eq {n k : Node} : n.same k = true ↔ n = k :=
  ⟨eq_of_same n k, fun h => h ▸ same_refl n⟩

instance : DecidableEq Node := fun _ _ => decidable_of_iff _ same_iff_eq

end Node

end TokenImage
