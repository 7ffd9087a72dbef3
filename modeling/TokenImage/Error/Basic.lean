/-
# Errors

An error has a kind and, each optional, a message, a depth and a source.  The source is another
error, the bare fact that a parse failed, or an error of another library, so that errors form a
finite chain.  The builders replace one field and leave the others alone.
-/
namespace TokenImage

/-! ## 1. Types -/

/-- What went wrong, in one word. -/
inductive ErrorKind where
  | internal
  | noMatch
  | depthLimit
  deriving DecidableEq

/-- What an error came from, over the type `ε` of errors. -/
inductive Cause (ε : Type) where
  | parseFailed
  /-- An error of another library, by its line and its structure; it came from nothing itself. -/
  | other (line structureText : String)
  | error (e : ε)

/-- An error. -/
structure Error where
  kind : ErrorKind
  message : Option String := none
  depth : Option UInt64 := none
  source : Option (Cause Error) := none

namespace Error

/-! ## 2. Builders -/

/-- An error of a kind and nothing else. -/
def ofKind (kind : ErrorKind) : Error := { kind }

/-- The error with another message. -/
def withMessage (e : Error) (message : String) : Error :=
  { e with message := some message }

/-- The error with another depth. -/
def withDepth (e : Error) (depth : UInt64) : Error :=
  { e with depth := some depth }

/-- The error with another source. -/
def withSource (e : Error) (source : Cause Error) : Error :=
  { e with source := some source }

/-- A failed parse as an error: there was no match. -/
def parseFailed : Error :=
  (ofKind .noMatch).withSource .parseFailed

end Error

end TokenImage
