/-
# The structure of a token as text

Every field of every token by name, for inspection.
-/
import TokenImage.Token.Basic
import TokenImage.Text.Writer

namespace TokenImage.Token

open TokenImage.Text

/-- Bytes as a list of numbers. -/
def writeByteList (span : List UInt8) : Writer :=
  writeList (span.map fun b => writeNat b.toNat)

/-- A token by its fields, given the writer of its value. -/
def writeFields (byteOffset : Int64) (bitOffset : Int8) (value : Writer) : Writer :=
  writeRecord "Token"
    [("byte_offset", writeInt byteOffset.toInt), ("bit_offset", writeInt bitOffset.toInt),
      ("value", value)]

mutual

/-- A token with all of its fields. -/
def writeStructure : Token → Writer
  | ⟨b, o, .none⟩ => writeFields b o (writeText "None")
  | ⟨b, o, .bytes span⟩ => writeFields b o (writeApplied "Bytes" (writeByteList span))
  | ⟨b, o, .signed number⟩ => writeFields b o (writeApplied "SignedInt" (writeInt number.toInt))
  | ⟨b, o, .unsigned number⟩ => writeFields b o (writeApplied "UnsignedInt" (writeNat number.toNat))
  | ⟨b, o, .sequence items⟩ =>
    writeFields b o (writeApplied "Sequence" (writeList (structureWriters items)))

/-- The writers of the tokens of a list, in order. -/
def structureWriters : List Token → List Writer
  | [] => []
  | t :: ts => writeStructure t :: structureWriters ts

end

/-- The structure of a token as text. -/
def structureText (t : Token) : String :=
  Writer.text (writeStructure t)

end TokenImage.Token
