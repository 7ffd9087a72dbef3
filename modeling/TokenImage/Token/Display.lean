/-
# Tokens as compact text

One line for a whole tree: the value, an at sign, the byte offset and, unless it is zero, a point
and the bit offset.  A number carries a letter for its kind, bytes stand between double quotes and
a sequence between square brackets.
-/
import TokenImage.Token.Basic
import TokenImage.Text.Quoted

namespace TokenImage.Token

open TokenImage.Text

/-! ## 1. Parts -/

/-- Where a token starts; a bit offset of zero is left out. -/
def writePosition (byteOffset : Int64) (bitOffset : Int8) : Writer := fun rest =>
  '@' :: writeInt byteOffset.toInt
    (if bitOffset = 0 then rest else '.' :: writeInt bitOffset.toInt rest)

/-- A signed number. -/
def writeSigned (number : Int64) : Writer :=
  fun rest => writeInt number.toInt ('i' :: rest)

/-- An unsigned number. -/
def writeUnsigned (number : UInt64) : Writer :=
  fun rest => writeNat number.toNat ('u' :: rest)

/-! ## 2. Trees -/

mutual

/-- A token as compact text, where `escaped` says which characters beyond ASCII are written by their
number inside quoted bytes. -/
def writeDisplay (escaped : Char → Bool) : Token → Writer
  | ⟨b, o, .none⟩ => fun rest => writeText "none" (writePosition b o rest)
  | ⟨b, o, .bytes span⟩ => fun rest => writeQuotedBytes escaped span (writePosition b o rest)
  | ⟨b, o, .signed number⟩ => fun rest => writeSigned number (writePosition b o rest)
  | ⟨b, o, .unsigned number⟩ => fun rest => writeUnsigned number (writePosition b o rest)
  | ⟨b, o, .sequence items⟩ => fun rest =>
    writeList (displayWriters escaped items) (writePosition b o rest)

/-- The writers of the tokens of a list, in order. -/
def displayWriters (escaped : Char → Bool) : List Token → List Writer
  | [] => []
  | t :: ts => writeDisplay escaped t :: displayWriters escaped ts

end

/-- The compact text of a token; unprintable characters are escaped. -/
def display (t : Token) : String :=
  Writer.text (writeDisplay isUnprintable t)

end TokenImage.Token
