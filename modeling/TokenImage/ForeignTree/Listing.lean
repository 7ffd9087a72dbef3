/-
# Listings of token trees in memory

One line for each pointer of a tree, in preorder, with what its token record holds: the bit length
and the array's bookkeeping too, which an owned token no longer shows.
-/
import TokenImage.Record
import TokenImage.Text.Writer

namespace TokenImage.Memory

open TokenImage.Text

/-! ## 1. Lines -/

/-- The line of a null pointer. -/
def nullLine : String := "null"

/-- The fields of a line, each by its name, with blanks between them. -/
def fieldLine (fields : List (String × String)) : String :=
  " ".intercalate (fields.map fun field => field.1 ++ "=" ++ field.2)

/-- A truth value in a line. -/
def truthText (b : Bool) : String :=
  if b then "true" else "false"

/-- The fields that every token has. -/
def headFields (m : Memory) (a : Nat) : Option (List (String × String)) := do
  let tag ← m.tokenTag a
  let index ← m.tokenIndex a
  let bitOffset ← m.tokenBitOffset a
  let bitLength ← m.tokenBitLength a
  some [("tag", tag.toNat.repr), ("index", index.toNat.repr), ("bit_offset", bitOffset.toInt.repr),
    ("bit_length", bitLength.toNat.repr)]

/-- Whether `n` slots from the address `slot` on are all null. -/
def allNull (m : Memory) : (n : Nat) → (slot : Nat) → Option Bool
  | 0, _ => some true
  | n + 1, slot => do
    let pointer ← m.loadPointer slot
    let others ← allNull m n (slot + FieldType.word.size)
    some (pointer == 0 && others)

/-- The fields of a sequence token, whose array is at `array`. -/
def arrayFields (m : Memory) (array : Nat) : Option (List (String × String)) := do
  let used ← m.arrayUsed array
  let capacity ← m.arrayCapacity array
  let arena ← m.arrayArena array
  let elements ← m.arrayElements array
  let spareNull ← m.allNull (capacity - used) (elements + FieldType.word.size * used)
  some [("used", used.repr), ("capacity", capacity.repr), ("arena_null", truthText (arena == 0)),
    ("spare_null", truthText spareNull)]

/-- The fields of a byte token, whose span starts at `pointer`. -/
def spanFields (m : Memory) (a pointer : Nat) : Option (List (String × String)) := do
  let length ← m.payloadLength a
  let bs ← m.load pointer length
  some [("len", length.repr), ("hex", hexText bs)]

/-! ## 2. Trees -/

/-- The lines of `n` slots from the address `slot` on, before the lines `rest`, where `list` gives
the lines of a pointer before others. -/
def slotLines (m : Memory) (list : Nat → List String → Option (List String)) :
    (n : Nat) → (slot : Nat) → (rest : List String) → Option (List String)
  | 0, _, rest => some rest
  | n + 1, slot, rest => do
    let pointer ← m.loadPointer slot
    let others ← slotLines m list n (slot + FieldType.word.size) rest
    list pointer others

/-- The lines of the tree at `a` before the lines `rest`, with room for so many pointers one below
the other. -/
def lines (m : Memory) : (room : Nat) → (a : Nat) → (rest : List String) → Option (List String)
  | 0, _, _ => none
  | room + 1, a, rest =>
    if a = 0 then some (nullLine :: rest)
    else do
      let tag ← m.tokenTag a
      let head ← m.headFields a
      let pointer ← m.payloadPointer a
      if tag = Tag.sequence ∧ pointer ≠ 0 then
        let array ← m.arrayFields pointer
        let used ← m.arrayUsed pointer
        let elements ← m.arrayElements pointer
        let below ← m.slotLines (lines m room) used elements rest
        some (fieldLine (head ++ array) :: below)
      else if tag = Tag.bytes ∧ pointer ≠ 0 then
        let span ← m.spanFields a pointer
        some (fieldLine (head ++ span) :: rest)
      else if tag = Tag.signed then
        let number ← m.payloadSigned a
        some (fieldLine (head ++ [("sint", number.toInt.repr)]) :: rest)
      else
        let number ← m.payloadUnsigned a
        some (fieldLine (head ++ [("uint", number.toNat.repr)]) :: rest)

/-- The lines of the tree at a root pointer; there are none for a tree that cannot be read. -/
def listing (m : Memory) (root : Nat) : List String :=
  (m.lines (addressSpace + 1) root []).getD []

end TokenImage.Memory
