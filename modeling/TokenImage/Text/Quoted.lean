/-
# Quoted text

Two ways to write something between double quotes.  Bytes are read as UTF-8 as far as they are well
formed: ASCII is written as a byte is in program text, a stray byte by its value, and any other
character as itself unless it belongs to a given set of escaped characters.  Text is written with
the same escapes by number, but leaves an apostrophe alone.

Which characters beyond ASCII are escaped is a parameter throughout; `isUnprintable` is the set that
the library uses.
-/
import TokenImage.Text.Writer
import TokenImage.Text.Utf8
import TokenImage.Text.Unprintable

namespace TokenImage.Text

/-! ## 1. Escapes -/

/-- A byte by its value: a backslash, `x` and two hexadecimal digits. -/
def writeByteEscape (b : UInt8) : Writer :=
  fun rest => '\\' :: 'x' :: writeHexByte b rest

/-- A character by its number: a backslash, `u` and the hexadecimal number between braces. -/
def writeCodeEscape (c : Char) : Writer :=
  fun rest => '\\' :: 'u' :: '\x7b' :: writeHex c.toNat ('\x7d' :: rest)

/-- The letter that, after a backslash, stands for a character, where there is one. -/
def shortEscape? (c : Char) : Option Char :=
  if c = '\x00' then some '0'
  else if c = '\t' then some 't'
  else if c = '\r' then some 'r'
  else if c = '\n' then some 'n'
  else if c = '"' then some '"'
  else if c = '\\' then some '\\'
  else none

/-! ## 2. Quoted bytes -/

/-- An ASCII character of a byte string: a short escape, itself if it is visible or a blank, else
its value. -/
def writeAscii (c : Char) : Writer := fun rest =>
  if c = '\'' then '\\' :: '\'' :: rest
  else
    match shortEscape? c with
    | some letter => '\\' :: letter :: rest
    | none =>
      if 0x20 ≤ c.toNat && c.toNat ≤ 0x7e then c :: rest
      else writeByteEscape c.toNat.toUInt8 rest

/-- A piece of a byte string. -/
def writePiece (escaped : Char → Bool) : Piece → Writer
  | .stray b, rest => writeByteEscape b rest
  | .char c, rest =>
    if c.toNat < 0x80 then writeAscii c rest
    else if escaped c then writeCodeEscape c rest
    else c :: rest

/-- A byte string between double quotes. -/
def writeQuotedBytes (escaped : Char → Bool) (bs : List UInt8) : Writer :=
  fun rest => '"' :: (pieces bs).foldr (writePiece escaped) ('"' :: rest)

/-! ## 3. Quoted text -/

/-- A character of a text. -/
def writeTextChar (escaped : Char → Bool) (c : Char) : Writer := fun rest =>
  match shortEscape? c with
  | some letter => '\\' :: letter :: rest
  | none => if escaped c then writeCodeEscape c rest else c :: rest

/-- A text between double quotes. -/
def writeQuotedText (escaped : Char → Bool) (text : String) : Writer :=
  fun rest => '"' :: text.toList.foldr (writeTextChar escaped) ('"' :: rest)

end TokenImage.Text
