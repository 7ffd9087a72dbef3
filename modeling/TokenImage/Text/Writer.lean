/-
# Writers

A writer takes the text that follows and returns it with its own text in front.  Writing one thing
after another is then composition, no text is copied twice, and what a reader does with a written
text can be stated over any continuation.
-/
namespace TokenImage.Text

/-! ## 1. Plain text -/

/-- A text that is still to be put in front of what follows it. -/
abbrev Writer := List Char → List Char

/-- The whole text of a writer after which nothing follows. -/
def Writer.text (write : Writer) : String :=
  String.ofList (write [])

/-- A fixed text. -/
def writeText (text : String) : Writer :=
  fun rest => text.toList ++ rest

/-- Writers in order, with `separator` between neighbours. -/
def writeSeparated (separator : String) : List Writer → Writer
  | [], rest => rest
  | [write], rest => write rest
  | write :: next :: writers, rest =>
    write (writeText separator (writeSeparated separator (next :: writers) rest))

/-! ## 2. Numbers -/

/-- A natural number in decimal, without leading zeros. -/
def writeNat (n : Nat) : Writer :=
  fun rest => Nat.toDigits 10 n ++ rest

/-- An integer in decimal; a minus sign stands before a negative one only. -/
def writeInt : Int → Writer
  | .ofNat n => writeNat n
  | .negSucc n => fun rest => '-' :: writeNat (n + 1) rest

/-- A natural number in lower-case hexadecimal, without leading zeros. -/
def writeHex (n : Nat) : Writer :=
  fun rest => Nat.toDigits 16 n ++ rest

/-- A byte as exactly two lower-case hexadecimal digits. -/
def writeHexByte (b : UInt8) : Writer :=
  fun rest => Nat.digitChar (b.toNat / 16) :: Nat.digitChar (b.toNat % 16) :: rest

/-- Bytes in hexadecimal, two digits a byte. -/
def hexText (bs : List UInt8) : String :=
  String.ofList (bs.foldr writeHexByte [])

/-! ## 3. The structure of a value

A value is shown as it is built: a record by its name and its fields, a constructor by its name and
its argument, a list between square brackets. -/

/-- A list between square brackets. -/
def writeList (items : List Writer) : Writer :=
  fun rest => '[' :: writeSeparated ", " items (']' :: rest)

/-- A constructor with one argument. -/
def writeApplied (name : String) (argument : Writer) : Writer :=
  fun rest => writeText name ('(' :: argument (')' :: rest))

/-- One field of a record. -/
def writeField (field : String × Writer) : Writer :=
  fun rest => writeText field.1 (writeText ": " (field.2 rest))

/-- A record with its fields in order. -/
def writeRecord (name : String) (fields : List (String × Writer)) : Writer :=
  fun rest =>
    writeText name (writeText " \x7b " (writeSeparated ", " (fields.map writeField)
      (writeText " \x7d" rest)))

/-- An optional value. -/
def writeOption {α : Type} (write : α → Writer) : Option α → Writer
  | none => writeText "None"
  | some a => writeApplied "Some" (write a)

end TokenImage.Text
