/-
# Records in memory

What an engine writes into a token record, a counted array and a result record, as a list of writes
at offsets, and the reads that go with them.  Padding is never written and never read, and of a
payload only as much is written as its kind needs.
-/
import TokenImage.Layout
import TokenImage.Tag
import TokenImage.Memory.Heap

namespace TokenImage

/-! ## 1. Writes at offsets -/

/-- Bytes to be written, each run at its offset from the start of a record. -/
abbrev FieldWrites := List (Nat × List UInt8)

/-- The memory after the fields of the record at `a` are written. -/
def Memory.overwriteFields (m : Memory) (a : Nat) (fields : FieldWrites) : Memory :=
  fields.foldl (fun m field => m.overwrite (a + field.1) field.2) m

/-- The heap after the fields of the record at `a` are written. -/
def Heap.storeFields (h : Heap) (a : Nat) (fields : FieldWrites) : Heap :=
  fields.foldl (fun h field => h.store (a + field.1) field.2) h

theorem Heap.memory_storeFields (fields : FieldWrites) : ∀ (h : Heap) (a : Nat),
    (h.storeFields a fields).memory = h.memory.overwriteFields a fields := by
  induction fields with
  | nil => intro h a; rfl
  | cons field fields ih =>
    intro h a
    have := ih (h.store (a + field.1) field.2) a
    rw [memory_store] at this
    exact this

/-- A new record with its fields in place; the bytes between them are zero. -/
def Heap.allocRecord (A : Allocator) (h : Heap) (size : Nat) (fields : FieldWrites) :
    Option (Extent × Heap) := do
  let (e, h) ← h.alloc A (List.replicate size 0)
  some (e, h.storeFields e.base fields)

/-! ## 2. Token records -/

/-- What is written into the payload of a token: one word, or a byte span. -/
inductive Payload where
  | word (n : UInt64)
  | span (pointer length : Nat)

/-- The bytes of a payload. -/
def Payload.bytes : Payload → List UInt8
  | .word n => littleEndian 8 n.toNat
  | .span pointer length => littleEndian 8 pointer ++ littleEndian 8 length

/-- The contents of a token record. -/
structure TokenRecord where
  tag : Tag
  payload : Payload
  index : UInt64
  bitLength : UInt64 := 0
  bitOffset : Int8

/-- The writes that make a token record, in the order of its fields. -/
def TokenRecord.fields (r : TokenRecord) : FieldWrites :=
  [(libraryLayout.tag, littleEndian 4 r.tag.toNat),
    (libraryLayout.payload, r.payload.bytes),
    (libraryLayout.index, littleEndian 8 r.index.toNat),
    (libraryLayout.bitLength, littleEndian 8 r.bitLength.toNat),
    (libraryLayout.bitOffset, [r.bitOffset.toUInt8])]

namespace Memory

/-- The tag of the token at `a`. -/
def tokenTag (m : Memory) (a : Nat) : Option Tag :=
  m.loadUInt32 (a + libraryLayout.tag)

/-- The position index of the token at `a`. -/
def tokenIndex (m : Memory) (a : Nat) : Option UInt64 :=
  m.loadUInt64 (a + libraryLayout.index)

/-- The bit length of the token at `a`. -/
def tokenBitLength (m : Memory) (a : Nat) : Option UInt64 :=
  m.loadUInt64 (a + libraryLayout.bitLength)

/-- The bit offset of the token at `a`. -/
def tokenBitOffset (m : Memory) (a : Nat) : Option Int8 :=
  m.loadInt8 (a + libraryLayout.bitOffset)

/-- Where the payload of the token at `a` starts. -/
def payloadAddress (a : Nat) : Nat :=
  a + engineLayout.payload

/-- The payload read as a signed number. -/
def payloadSigned (m : Memory) (a : Nat) : Option Int64 :=
  m.loadInt64 (payloadAddress a)

/-- The payload read as an unsigned number. -/
def payloadUnsigned (m : Memory) (a : Nat) : Option UInt64 :=
  m.loadUInt64 (payloadAddress a)

/-- The payload read as a pointer: to the bytes of a span, or to a counted array. -/
def payloadPointer (m : Memory) (a : Nat) : Option Nat :=
  m.loadPointer (payloadAddress a)

/-- The second word of the payload, read as the length of a byte span. -/
def payloadLength (m : Memory) (a : Nat) : Option Nat :=
  m.loadPointer (payloadAddress a + FieldType.word.size)

end Memory

/-! ## 3. Counted arrays -/

/-- The contents of a counted array; its arena is not used. -/
structure CountedArray where
  capacity : Nat
  used : Nat
  elements : Nat

/-- The writes that make a counted array. -/
def CountedArray.fields (r : CountedArray) : FieldWrites :=
  [(arrayLayout.capacity, littleEndian 8 r.capacity),
    (arrayLayout.used, littleEndian 8 r.used),
    (arrayLayout.arena, littleEndian 8 0),
    (arrayLayout.elements, littleEndian 8 r.elements)]

namespace Memory

/-- The number of slots that the array at `a` has. -/
def arrayCapacity (m : Memory) (a : Nat) : Option Nat :=
  m.loadPointer (a + arrayLayout.capacity)

/-- The number of slots that the array at `a` uses. -/
def arrayUsed (m : Memory) (a : Nat) : Option Nat :=
  m.loadPointer (a + arrayLayout.used)

/-- The arena of the array at `a`. -/
def arrayArena (m : Memory) (a : Nat) : Option Nat :=
  m.loadPointer (a + arrayLayout.arena)

/-- Where the slots of the array at `a` are. -/
def arrayElements (m : Memory) (a : Nat) : Option Nat :=
  m.loadPointer (a + arrayLayout.elements)

end Memory

/-! ## 4. Result records -/

/-- The contents of a result record; its arena is not used. -/
structure ResultRecord where
  root : Nat
  bitLength : Int64

/-- The writes that make a result record. -/
def ResultRecord.fields (r : ResultRecord) : FieldWrites :=
  [(resultLayout.root, littleEndian 8 r.root),
    (resultLayout.bitLength, littleEndian 8 r.bitLength.toUInt64.toNat),
    (resultLayout.arena, littleEndian 8 0)]

namespace Memory

/-- The root pointer of the result at `a`. -/
def resultRoot (m : Memory) (a : Nat) : Option Nat :=
  m.loadPointer (a + resultLayout.root)

/-- The bit length of the result at `a`. -/
def resultBitLength (m : Memory) (a : Nat) : Option Int64 :=
  m.loadInt64 (a + resultLayout.bitLength)

/-- The arena of the result at `a`. -/
def resultArena (m : Memory) (a : Nat) : Option Nat :=
  m.loadPointer (a + resultLayout.arena)

end Memory

end TokenImage
