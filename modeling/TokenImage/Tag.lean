/-
# Tags

A token record says by a number what its payload is.  Ten numbers have a name, and five of these
name a payload that can be read.
-/
namespace TokenImage

/-- The number by which a token record says what its payload is. -/
abbrev Tag := UInt32

/-- What a tag says about the payload. -/
inductive TagKind where
  | none
  | bytes
  | signed
  | unsigned
  | sequence
  | unsupported
  deriving DecidableEq

namespace Tag

/-! ## 1. The named tags -/

/-- No token has this tag. -/
def invalid : Tag := 0

/-- The token carries nothing. -/
def none : Tag := 1

/-- The token carries a span of bytes. -/
def bytes : Tag := 2

/-- The token carries a signed number. -/
def signed : Tag := 4

/-- The token carries an unsigned number. -/
def unsigned : Tag := 8

/-- The token carries a double. -/
def double : Tag := 12

/-- The token carries a float. -/
def float : Tag := 13

/-- The token carries other tokens. -/
def sequence : Tag := 16

/-- The token carries an engine's error. -/
def error : Tag := 32

/-- The first tag that users of an engine may give away. -/
def user : Tag := 64

/-- The tags that have a name, ascending. -/
def named : List Tag :=
  [invalid, none, bytes, signed, unsigned, double, float, sequence, error, user]

/-! ## 2. What can be read -/

/-- What a tag says about the payload; every tag beyond the five is unsupported. -/
def kind (tag : Tag) : TagKind :=
  if tag = none then .none
  else if tag = bytes then .bytes
  else if tag = signed then .signed
  else if tag = unsigned then .unsigned
  else if tag = sequence then .sequence
  else .unsupported

end Tag

end TokenImage
