/-
# The layout of engine records

An engine lays its records out as a C compiler does: fields in order, each at the first offset that
its alignment allows, and the whole padded to a multiple of the greatest alignment.  The token
record is declared twice, once as the engine has it and once as this library has it; the payload of
a token is found where the engine's declaration puts it and every other field where the library's
does.  A `LayoutReport` sets the two side by side.
-/
import TokenImage.Text.Writer

namespace TokenImage

open TokenImage.Text

/-! ## 1. The rule -/

/-- The first multiple of `align` from `n` on. -/
def alignUp (align n : Nat) : Nat :=
  (n + (align - 1)) / align * align

/-- The size and the alignment of a field, in bytes. -/
structure FieldType where
  size : Nat
  align : Nat
  deriving DecidableEq

namespace FieldType

/-- A signed or unsigned byte. -/
def byte : FieldType := ⟨1, 1⟩

/-- A 32-bit number. -/
def half : FieldType := ⟨4, 4⟩

/-- A 64-bit number or a pointer. -/
def word : FieldType := ⟨8, 8⟩

/-- The first offset from `n` on that the alignment of a field allows. -/
def next (t : FieldType) (n : Nat) : Nat :=
  alignUp t.align n

/-- The greatest alignment among fields. -/
def maxAlign (fields : List FieldType) : Nat :=
  fields.foldl (fun a t => max a t.align) 1

/-- Fields one after another. -/
def struct (fields : List FieldType) : FieldType :=
  let stop := fields.foldl (fun n t => t.next n + t.size) 0
  ⟨alignUp (maxAlign fields) stop, maxAlign fields⟩

/-- Fields in the same place. -/
def union (fields : List FieldType) : FieldType :=
  let stop := fields.foldl (fun n t => max n t.size) 0
  ⟨alignUp (maxAlign fields) stop, maxAlign fields⟩

end FieldType

/-! ## 2. The token record -/

/-- The field types of a token record, in the order in which they are declared. -/
structure TokenDeclaration where
  tag : FieldType
  payload : FieldType
  index : FieldType
  bitLength : FieldType
  bitOffset : FieldType

/-- Where the fields of a token record are, and how large it is. -/
structure TokenLayout where
  tag : Nat
  payload : Nat
  index : Nat
  bitLength : Nat
  bitOffset : Nat
  size : Nat
  deriving DecidableEq

/-- The layout that the rule gives a declaration. -/
def TokenDeclaration.layout (d : TokenDeclaration) : TokenLayout :=
  let payload := d.payload.next d.tag.size
  let index := d.index.next (payload + d.payload.size)
  let bitLength := d.bitLength.next (index + d.index.size)
  let bitOffset := d.bitOffset.next (bitLength + d.bitLength.size)
  { tag := 0, payload, index, bitLength, bitOffset,
    size := (FieldType.struct [d.tag, d.payload, d.index, d.bitLength, d.bitOffset]).size }

/-- The engine's declaration: an enumeration, then a union of a byte span, two integers, a double, a
float, an array pointer and a user pointer, then two sizes and a character. -/
def engineDeclaration : TokenDeclaration where
  tag := .half
  payload := .union [.struct [.word, .word], .word, .word, .word, .half, .word, .word]
  index := .word
  bitLength := .word
  bitOffset := .byte

/-- The library's declaration of the same record. -/
def libraryDeclaration : TokenDeclaration where
  tag := .half
  payload := .union [.struct [.word, .word], .word, .word, .word, .half, .word, .word]
  index := .word
  bitLength := .word
  bitOffset := .byte

/-- The token record as the engine lays it out. -/
def engineLayout : TokenLayout :=
  engineDeclaration.layout

/-- The token record as the library lays it out. -/
def libraryLayout : TokenLayout :=
  libraryDeclaration.layout

/-- The engine's layout in numbers. -/
theorem engineLayout_eq : engineLayout = ⟨0, 8, 24, 32, 40, 48⟩ := by decide

/-- The library's layout in numbers, which are the same. -/
theorem libraryLayout_eq : libraryLayout = ⟨0, 8, 24, 32, 40, 48⟩ := by decide

/-! ## 3. The other records -/

/-- Where the fields of a counted array are, and how large it is: four words. -/
structure ArrayLayout where
  capacity : Nat := 0
  used : Nat := 8
  arena : Nat := 16
  elements : Nat := 24
  size : Nat := 32

/-- The layout of a counted array. -/
def arrayLayout : ArrayLayout := {}

/-- Where the fields of a result record are, and how large it is: three words. -/
structure ResultLayout where
  root : Nat := 0
  bitLength : Nat := 8
  arena : Nat := 16
  size : Nat := 24

/-- The layout of a result record. -/
def resultLayout : ResultLayout := {}

/-- A counted array is as large as the rule makes four words. -/
theorem arrayLayout_size_eq :
    arrayLayout.size = (FieldType.struct [.word, .word, .word, .word]).size := by decide

/-- A result record is as large as the rule makes three words. -/
theorem resultLayout_size_eq :
    resultLayout.size = (FieldType.struct [.word, .word, .word]).size := by decide

/-! ## 4. The report -/

/-- The facts about a token record that a report compares. -/
structure TokenOffsets where
  payload : Nat
  index : Nat
  bitOffset : Nat
  size : Nat
  deriving DecidableEq

/-- The facts of a layout. -/
def TokenLayout.offsets (l : TokenLayout) : TokenOffsets :=
  ⟨l.payload, l.index, l.bitOffset, l.size⟩

/-- The engine's layout of a token record next to the library's. -/
structure LayoutReport where
  engine : TokenOffsets
  library : TokenOffsets
  deriving DecidableEq

namespace LayoutReport

/-- The report on the two declarations. -/
def current : LayoutReport :=
  ⟨engineLayout.offsets, libraryLayout.offsets⟩

/-- Whether the two layouts agree in every fact. -/
def isConsistent (r : LayoutReport) : Bool :=
  r.engine == r.library

/-- The report with all of its fields, as text. -/
def structureText (r : LayoutReport) : String :=
  Writer.text <| writeRecord "LayoutReport"
    [("c_union_offset", writeNat r.engine.payload),
      ("c_index_offset", writeNat r.engine.index),
      ("c_bit_offset_offset", writeNat r.engine.bitOffset),
      ("c_size", writeNat r.engine.size),
      ("rust_union_offset", writeNat r.library.payload),
      ("rust_index_offset", writeNat r.library.index),
      ("rust_bit_offset_offset", writeNat r.library.bitOffset),
      ("rust_size", writeNat r.library.size)]

end LayoutReport

end TokenImage
