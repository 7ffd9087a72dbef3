/-
# Events

What the library reports while it works, beside its results: each event has a level, a message and
fields, in that order, all of them text.
-/
import TokenImage.Error.Text
import TokenImage.Tag

namespace TokenImage

/-- How much an event matters. -/
inductive Level where
  | trace
  | debug
  | warn
  deriving DecidableEq

/-- The name of a level. -/
def Level.name : Level → String
  | .trace => "TRACE"
  | .debug => "DEBUG"
  | .warn => "WARN"

/-- Something worth reporting. -/
inductive Event where
  /-- A token whose tag is not one that can be read, with the index at which it stands. -/
  | unsupportedTag (tag : Tag) (index : UInt64)
  /-- A session's parse that gave a tree of so many tokens. -/
  | parseMatched (inputLength tokens : Nat)
  /-- A session's parse that gave an error. -/
  | parseFailed (inputLength : Nat) (error : Error)
  /-- A release of a handle that is not among the engine's live ones. -/
  | unownedRelease

namespace Event

/-- The level of an event. -/
def level : Event → Level
  | .unsupportedTag _ _ => .debug
  | .parseMatched _ _ => .trace
  | .parseFailed _ _ => .trace
  | .unownedRelease => .warn

/-- The message of an event. -/
def message : Event → String
  | .unsupportedTag _ _ => "unsupported token type decoded as none"
  | .parseMatched _ _ => "parse matched"
  | .parseFailed _ _ => "parse failed"
  | .unownedRelease => "release of a result this engine does not own"

/-- The fields of an event, each with its value as text. -/
def fields : Event → List (String × String)
  | .unsupportedTag tag index => [("tag", tag.toNat.repr), ("byte_offset", index.toNat.repr)]
  | .parseMatched inputLength tokens => [("input_len", inputLength.repr), ("tokens", tokens.repr)]
  | .parseFailed inputLength error => [("input_len", inputLength.repr), ("error", error.display)]
  | .unownedRelease => []

end Event

end TokenImage
