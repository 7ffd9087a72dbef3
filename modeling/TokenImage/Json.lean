/-
# JSON values and their compact text

A JSON value as far as this library needs one: integers, texts, arrays and objects whose members
keep their order.  The compact text has no blanks; a text escapes its quotes, its backslashes and
its controls.
-/
import TokenImage.Text.Writer

namespace TokenImage

open TokenImage.Text

/-! ## 1. Values -/

/-- A JSON value; the members of an object keep the order in which they are given. -/
inductive Json where
  | number (n : Int)
  | text (s : String)
  | array (items : List Json)
  | object (members : List (String × Json))

namespace Json

/-! ## 2. Compact text -/

/-- A character inside a JSON text. -/
def writeChar (c : Char) : Writer := fun rest =>
  if c = '"' then '\\' :: '"' :: rest
  else if c = '\\' then '\\' :: '\\' :: rest
  else if c.toNat < 0x20 then writeText "\\u00" (writeHexByte c.toNat.toUInt8 rest)
  else c :: rest

/-- A text between double quotes. -/
def writeString (s : String) : Writer :=
  fun rest => '"' :: s.toList.foldr writeChar ('"' :: rest)

mutual

/-- The compact text of a value. -/
def write : Json → Writer
  | .number n => writeInt n
  | .text s => writeString s
  | .array items => fun rest => '[' :: writeSeparated "," (itemWriters items) (']' :: rest)
  | .object members => fun rest =>
    '\x7b' :: writeSeparated "," (memberWriters members) ('\x7d' :: rest)

/-- The writers of the items of an array, in order. -/
def itemWriters : List Json → List Writer
  | [] => []
  | v :: vs => write v :: itemWriters vs

/-- The writers of the members of an object, in order. -/
def memberWriters : List (String × Json) → List Writer
  | [] => []
  | (key, v) :: members =>
    (fun rest => writeString key (':' :: write v rest)) :: memberWriters members

end

/-- The compact text of a value. -/
def compact (v : Json) : String :=
  Writer.text (write v)

end Json

end TokenImage
