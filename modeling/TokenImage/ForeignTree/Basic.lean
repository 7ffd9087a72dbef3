/-
# Token trees laid out in memory

A described tree is laid out as an engine would lay it out, bottom up: the tokens of a sequence
first, then its element array with the spare slots null, then its counted array, then its own token.
A byte token has a buffer of its own.  The tree remembers every block it has allocated, by kind, and
gives each back when it is dropped.  The first allocation that cannot be made ends the laying out and
leaves the heap as it was.
-/
import TokenImage.Crash
import TokenImage.Record
import TokenImage.Node.Basic

namespace TokenImage

/-! ## 1. Ownership -/

/-- What a block of a tree holds. -/
inductive BlockKind where
  | token
  | array
  | elements
  | buffer
  deriving DecidableEq

/-- A block that a tree has allocated. -/
structure OwnedBlock where
  kind : BlockKind
  extent : Extent
  deriving DecidableEq

/-- A tree in memory: the address of its root, or null, and the blocks it owns, the latest first. -/
structure ForeignTree where
  root : Nat
  owned : List OwnedBlock

/-- A heap on which trees are being laid out, with the blocks allocated for them, the latest
first. -/
structure BuildSite where
  heap : Heap
  owned : List OwnedBlock := []

namespace BuildSite

/-- A new block that holds `contents`. -/
def alloc (A : Allocator) (site : BuildSite) (kind : BlockKind) (contents : List UInt8) :
    Except AllocationFailure (Extent × BuildSite) := do
  let (e, heap) ← AllocationFailure.ofRoom (site.heap.alloc A contents)
  pure (e, ⟨heap, ⟨kind, e⟩ :: site.owned⟩)

/-- A new record with its fields in place. -/
def allocRecord (A : Allocator) (site : BuildSite) (kind : BlockKind) (size : Nat)
    (fields : FieldWrites) : Except AllocationFailure (Extent × BuildSite) := do
  let (e, heap) ← AllocationFailure.ofRoom (site.heap.allocRecord A size fields)
  pure (e, ⟨heap, ⟨kind, e⟩ :: site.owned⟩)

/-! ## 2. Element arrays -/

/-- How many values a machine word can take. -/
def wordValues : Nat := 1 <<< (8 * FieldType.word.size)

/-- The most slots that an element array can have: no block has more than 2^63 - 1 bytes. -/
def maxSlots : Nat := 0x7fffffffffffffff / FieldType.word.size

/-- The number of slots of an element array.  That they can be counted, and that no block would be too
small for them, comes before any question of room. -/
def slotCount (used spare : Nat) : Except AllocationFailure Nat :=
  if wordValues ≤ used + spare then .error .countOverflow
  else if maxSlots < used + spare then .error .tooLarge
  else .ok (used + spare)

/-- The bytes of an element array: the pointers, then null pointers in the spare slots. -/
def slotBytes (pointers : List Nat) (spare : Nat) : List UInt8 :=
  (pointers ++ List.replicate spare 0).flatMap (littleEndian FieldType.word.size)

/-! ## 3. Laying out -/

/-- A token whose payload is in place already. -/
def addToken (A : Allocator) (site : BuildSite) (record : TokenRecord) :
    Except AllocationFailure (Nat × BuildSite) := do
  let (e, site) ← site.allocRecord A .token libraryLayout.size record.fields
  pure (e.base, site)

/-- A sequence token over the tokens at `pointers`. -/
def addSequence (A : Allocator) (site : BuildSite) (pointers : List Nat) (spare : Nat)
    (index : UInt64) (bitOffset : Int8) : Except AllocationFailure (Nat × BuildSite) := do
  let capacity ← slotCount pointers.length spare
  let (elements, site) ← site.alloc A .elements (slotBytes pointers spare)
  let array : CountedArray := ⟨capacity, pointers.length, elements.base⟩
  let (array, site) ← site.allocRecord A .array arrayLayout.size array.fields
  addToken A site { tag := .sequence, payload := .word array.base.toUInt64, index, bitOffset }

mutual

/-- The tree that a node describes, laid out: its root. -/
def add (A : Allocator) (site : BuildSite) :
    Node → Except AllocationFailure (Nat × BuildSite)
  | ⟨.null, _, _, _⟩ => pure (0, site)
  | ⟨.tagged tag, index, bitOffset, _⟩ =>
    addToken A site { tag, payload := .word 0, index, bitOffset }
  | ⟨.none, index, bitOffset, _⟩ =>
    addToken A site { tag := .none, payload := .word 0, index, bitOffset }
  | ⟨.bytes span, index, bitOffset, _⟩ => do
    let (buffer, site) ← site.alloc A .buffer span
    addToken A site
      { tag := .bytes, payload := .span buffer.base span.length, index, bitOffset }
  | ⟨.signed number, index, bitOffset, _⟩ =>
    addToken A site { tag := .signed, payload := .word number.toUInt64, index, bitOffset }
  | ⟨.unsigned number, index, bitOffset, _⟩ =>
    addToken A site { tag := .unsigned, payload := .word number, index, bitOffset }
  | ⟨.sequence items, index, bitOffset, spare⟩ => do
    let (pointers, site) ← addAll A site items
    addSequence A site pointers spare index bitOffset

/-- The trees of a list of nodes, laid out in order: their roots. -/
def addAll (A : Allocator) (site : BuildSite) :
    List Node → Except AllocationFailure (List Nat × BuildSite)
  | [] => pure ([], site)
  | n :: ns => do
    let (pointer, site) ← add A site n
    let (pointers, site) ← addAll A site ns
    pure (pointer :: pointers, site)

end

end BuildSite

namespace ForeignTree

/-- **The tree that a node describes,** laid out in a heap. -/
def build (A : Allocator) (h : Heap) (n : Node) :
    Except AllocationFailure (ForeignTree × Heap) := do
  let (root, site) ← BuildSite.add A { heap := h } n
  pure (⟨root, site.owned⟩, site.heap)

/-! ## 4. Facts and giving back -/

/-- The blocks of a kind, the latest first. -/
def blocksOf (t : ForeignTree) (kind : BlockKind) : List Extent :=
  (t.owned.filter (·.kind = kind)).map OwnedBlock.extent

/-- The number of tokens in the tree, null pointers not counted. -/
def tokenCount (t : ForeignTree) : Nat :=
  t.owned.countP (·.kind = .token)

/-- The heap without the tree. -/
def drop (t : ForeignTree) (h : Heap) : Heap :=
  h.freeAll (t.owned.map OwnedBlock.extent)

end ForeignTree

end TokenImage
