/-
# Errors as text

One line for an error itself, the lines of its chain of sources, and its structure.
-/
import TokenImage.Error.Basic
import TokenImage.Text.Quoted

namespace TokenImage

open TokenImage.Text

/-! ## 1. One line -/

/-- The name of a kind of error. -/
def ErrorKind.name : ErrorKind → String
  | .internal => "Internal"
  | .noMatch => "NoMatch"
  | .depthLimit => "DepthLimit"

/-- All that is known of a failed parse. -/
def parseFailedText : String := "parse failed"

namespace Error

/-- An error by its kind, its message and its depth; the source does not show. -/
def writeDisplay (e : Error) : Writer := fun rest =>
  writeText e.kind.name <|
    (match e.message with
      | some message => fun rest => writeText ": " (writeText message rest)
      | none => id) <|
    (match e.depth with
      | some depth => fun rest => writeText " (depth: " (writeNat depth.toNat (')' :: rest))
      | none => id) rest

/-- The line of an error. -/
def display (e : Error) : String :=
  Writer.text e.writeDisplay

/-! ## 2. The chain of sources -/

/-- The line of what an error came from. -/
def causeDisplay : Cause Error → String
  | .parseFailed => parseFailedText
  | .other line _ => line
  | .error e => e.display

/-- The lines of the source, of the source's source, and so on. -/
def sources : Error → List String
  | ⟨_, _, _, none⟩ => []
  | ⟨_, _, _, some .parseFailed⟩ => [parseFailedText]
  | ⟨_, _, _, some (.other line _)⟩ => [line]
  | ⟨_, _, _, some (.error e)⟩ => e.display :: e.sources

/-! ## 3. Structure -/

/-- An error by its fields, given the writer of its source. -/
def writeFields (kind : ErrorKind) (message : Option String) (depth : Option UInt64)
    (source : Writer) : Writer :=
  writeRecord "Error"
    [("kind", writeText kind.name),
      ("message", writeOption (writeQuotedText isUnprintable) message),
      ("depth", writeOption (fun d : UInt64 => writeNat d.toNat) depth),
      ("source", source)]

/-- An error with all of its fields. -/
def writeStructure : Error → Writer
  | ⟨kind, message, depth, none⟩ => writeFields kind message depth (writeText "None")
  | ⟨kind, message, depth, some .parseFailed⟩ =>
    writeFields kind message depth (writeApplied "Some" (writeText "ParseFailed"))
  | ⟨kind, message, depth, some (.other _ structureText)⟩ =>
    writeFields kind message depth (writeApplied "Some" (writeText structureText))
  | ⟨kind, message, depth, some (.error e)⟩ =>
    writeFields kind message depth (writeApplied "Some" (writeStructure e))

/-- The structure of an error as text. -/
def structureText (e : Error) : String :=
  Writer.text e.writeStructure

end Error

end TokenImage
