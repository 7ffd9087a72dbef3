/-
# Tokens as JSON

A token is an object of its byte offset, its bit offset and its value; a value is an object of its
type and, unless it carries nothing, of what it carries.  A failure to write the object out would be
an internal error.
-/
import TokenImage.Error.Basic
import TokenImage.Token.Basic
import TokenImage.Json

namespace TokenImage

/-- A JSON value, written out.  The one thing that cannot be written is a key that is not a text, and
all keys of a `Json` are texts. -/
def Json.serialize (v : Json) : Except (Cause Error) String :=
  .ok v.compact

namespace Token

/-! ## 1. Parts -/

/-- A token, given its value. -/
def jsonRecord (byteOffset : Int64) (bitOffset : Int8) (value : Json) : Json :=
  .object [("byte_offset", .number byteOffset.toInt), ("bit_offset", .number bitOffset.toInt),
    ("value", value)]

/-- A value that carries something, by the name of its type. -/
def jsonValue (type : String) (value : Json) : Json :=
  .object [("type", .text type), ("value", value)]

/-! ## 2. Trees -/

mutual

/-- A token as a JSON value. -/
def toJson : Token → Json
  | ⟨b, o, .none⟩ => jsonRecord b o (.object [("type", .text "none")])
  | ⟨b, o, .bytes span⟩ =>
    jsonRecord b o (jsonValue "bytes" (.array (span.map fun x => .number x.toNat)))
  | ⟨b, o, .signed number⟩ => jsonRecord b o (jsonValue "signed_int" (.number number.toInt))
  | ⟨b, o, .unsigned number⟩ => jsonRecord b o (jsonValue "unsigned_int" (.number number.toNat))
  | ⟨b, o, .sequence items⟩ => jsonRecord b o (jsonValue "sequence" (.array (itemsToJson items)))

/-- The tokens of a list as JSON values, in order. -/
def itemsToJson : List Token → List Json
  | [] => []
  | t :: ts => toJson t :: itemsToJson ts

end

/-! ## 3. Texts -/

/-- A token, written out as JSON by a writer that may fail. -/
def serializeWith (write : Json → Except (Cause Error) String) (t : Token) : Except Error String :=
  (write t.toJson).mapError fun cause =>
    ((Error.ofKind .internal).withMessage "failed to serialize token").withSource cause

/-- **A token, written out as JSON.** -/
def serialize (t : Token) : Except Error String :=
  t.serializeWith Json.serialize

/-- The JSON text of a token. -/
def jsonText (t : Token) : String :=
  (toJson t).compact

end Token

end TokenImage
