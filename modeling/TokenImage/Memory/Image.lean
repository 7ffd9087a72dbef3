/-
# Memory images

A memory given as blocks of bytes whose pointers are still to be filled in: a relocation stores the
address of one place of the image into eight bytes of another.  Loading an image allocates its
segments in order and then applies its relocations.
-/
import TokenImage.Layout
import TokenImage.Memory.Heap

namespace TokenImage

/-- A place of an image: a segment by its number, and an offset into it. -/
structure Place where
  segment : Nat
  offset : Nat
  deriving DecidableEq

/-- An order to store the address of `target` at `site`. -/
structure Relocation where
  site : Place
  target : Place

/-- A memory image with the place of its root; without a place the root is null. -/
structure Image where
  segments : List (List UInt8)
  relocations : List Relocation
  root : Option Place

namespace Image

/-- New blocks for all segments, in order. -/
def allocSegments (A : Allocator) (h : Heap) : List (List UInt8) → Option (List Extent × Heap)
  | [] => some ([], h)
  | segment :: segments => do
    let (e, h) ← h.alloc A segment
    let (es, h) ← allocSegments A h segments
    some (e :: es, h)

/-- The address of a place, if it has `width` bytes of the segment after it. -/
def address? (extents : List Extent) (width : Nat) (place : Place) : Option Nat := do
  let e ← extents[place.segment]?
  if place.offset + width ≤ e.size then some (e.base + place.offset) else none

/-- The heap after relocations are applied, in order. -/
def relocate (extents : List Extent) (h : Heap) : List Relocation → Option Heap
  | [] => some h
  | r :: rs => do
    let site ← address? extents FieldType.word.size r.site
    let target ← address? extents 0 r.target
    relocate extents (h.store site (littleEndian FieldType.word.size target)) rs

/-- The heap that holds an image, and the address of the root; there is none if the image does not
fit, names a place outside its segments, or has no room for a token record at its root. -/
def load? (A : Allocator) (image : Image) : Option (Heap × Nat) := do
  let (extents, h) ← allocSegments A .empty image.segments
  let h ← relocate extents h image.relocations
  match image.root with
  | none => some (h, 0)
  | some place => do
    let root ← address? extents libraryLayout.size place
    some (h, root)

end Image

end TokenImage
