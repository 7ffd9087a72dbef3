/-
# Reading token trees out of memory

A decoder walks the pointers from a root in preorder and gives an owned token for each.  The root is
at depth 1 and each slot of a sequence one deeper than the sequence; a pointer beyond the depth
limit ends the walk, whether it is null or not, before anything is read through it.

The walk is recursion on the room that is left below the limit.  Without a limit the room is one
more than there are addresses: a path of pointers that is longer comes back to an address, so only a
cyclic graph runs out of it.

A walk reads what it needs of a token and no more, and there is always room for the token that it
makes.  Room would first be wanting for the items of a sequence with more than 2^57 slots, all of them
mapped.
-/
import TokenImage.Record
import TokenImage.Token.Basic
import TokenImage.Traced

namespace TokenImage

/-! ## 1. The walk -/

/-- Why a walk ended early. -/
inductive Halt where
  /-- There was no room left for a pointer. -/
  | tooDeep
  /-- Something that had to be read of the token at this address is not mapped. -/
  | unmapped (address : Nat)
  deriving DecidableEq

namespace Memory

/-- The bytes of the byte token at `a`; a null span is empty whatever its length says.  So the length is
read only beside a pointer that is not null.  A reader that takes in both words at once needs the length
to be mapped beside a null pointer too, as it is wherever a whole token was laid out. -/
def tokenBytes (m : Memory) (a : Nat) : Option (List UInt8) := do
  let pointer ← m.payloadPointer a
  if pointer = 0 then some []
  else
    let length ← m.payloadLength a
    m.load pointer length

/-- Where the slots of the sequence token at `a` are and how many it uses; without an array, or
without slots in the array, it uses none. -/
def tokenSlots (m : Memory) (a : Nat) : Option (Nat × Nat) := do
  let array ← m.payloadPointer a
  if array = 0 then some (0, 0)
  else
    let elements ← m.arrayElements array
    if elements = 0 then some (0, 0)
    else
      let used ← m.arrayUsed array
      some (elements, used)

/-- The tokens of `n` slots from the address `slot` on, where `read` reads the token at a pointer.
A slot is looked at only when the tokens before it are read. -/
def readSlots (m : Memory) (read : Nat → Traced Halt Token) :
    (n : Nat) → (slot : Nat) → Traced Halt (List Token)
  | 0, _ => pure []
  | n + 1, slot => do
    let pointer ← .ofOption (.unmapped slot) (m.loadPointer slot)
    let t ← read pointer
    let ts ← readSlots m read n (slot + FieldType.word.size)
    pure (t :: ts)

/-- The value of the token at `a`, which has this tag and stands at this index, where `read` reads
the token at a pointer. -/
def readValue (m : Memory) (read : Nat → Traced Halt Token) (a : Nat) (tag : Tag)
    (index : UInt64) : Traced Halt (Value Token) :=
  match tag.kind with
  | .none => pure .none
  | .bytes => do
    let span ← .ofOption (.unmapped a) (m.tokenBytes a)
    pure (.bytes span)
  | .signed => do
    let number ← .ofOption (.unmapped a) (m.payloadSigned a)
    pure (.signed number)
  | .unsigned => do
    let number ← .ofOption (.unmapped a) (m.payloadUnsigned a)
    pure (.unsigned number)
  | .sequence => do
    let (elements, used) ← .ofOption (.unmapped a) (m.tokenSlots a)
    let items ← m.readSlots read used elements
    pure (.sequence items)
  | .unsupported => do
    .emit (.unsupportedTag tag index)
    pure .none

/-- **The token at a pointer**, with room for so many pointers one below the other.  A null pointer
is the zero token. -/
def walk (m : Memory) : (room : Nat) → (a : Nat) → Traced Halt Token
  | 0, _ => .fail .tooDeep
  | room + 1, a =>
    if a = 0 then pure Token.zero
    else do
      let tag ← .ofOption (.unmapped a) (m.tokenTag a)
      let index ← .ofOption (.unmapped a) (m.tokenIndex a)
      let bitOffset ← .ofOption (.unmapped a) (m.tokenBitOffset a)
      let value ← m.readValue (walk m room) a tag index
      pure ⟨index.toInt64, bitOffset, value⟩

end Memory

/-! ## 2. Decoders -/

/-- A way to read trees: with a limit on their depth, or without one. -/
structure Decoder where
  maxDepth : Option UInt64 := none
  deriving DecidableEq

namespace Decoder

/-- The decoder with another limit; the root is at depth 1. -/
def withMaxDepth (d : Decoder) (maxDepth : UInt64) : Decoder :=
  { d with maxDepth := some maxDepth }

/-- The room that a walk of this decoder starts with. -/
def room (d : Decoder) : Nat :=
  match d.maxDepth with
  | some limit => limit.toNat
  | none => addressSpace + 1

/-- The error for a tree that is deeper than the limit. -/
def depthError (limit : UInt64) : Error :=
  ((Error.ofKind .depthLimit).withMessage "token tree exceeds max depth").withDepth limit

/-- The error that an early end of a walk is.  Only the first is a fault of the tree; the others are
faults of the memory: a cyclic graph under no limit, and a read of what is not mapped. -/
def haltError (d : Decoder) : Halt → Error
  | .tooDeep =>
    match d.maxDepth with
    | some limit => depthError limit
    | none => (Error.ofKind .internal).withMessage "token graph is cyclic"
  | .unmapped _ => (Error.ofKind .internal).withMessage "token memory is not mapped"

/-- **The tree at a root pointer.** -/
def decode (d : Decoder) (m : Memory) (root : Nat) : Traced Error Token :=
  (m.walk d.room root).mapError d.haltError

open TokenImage.Text in
/-- A decoder with its field, as text. -/
def structureText (d : Decoder) : String :=
  Writer.text <| writeRecord "Decoder"
    [("max_depth", writeOption (fun n : UInt64 => writeNat n.toNat) d.maxDepth)]

end Decoder

namespace Memory

/-- The tree at a root pointer, read without a limit; a memory that cannot be read gives the zero
token. -/
def decode (m : Memory) (root : Nat) : Token :=
  (({} : Decoder).decode m root).result.toOption.getD Token.zero

/-! ## 3. Readings -/

/-- What reading a tree gave and, where there was no limit, whether reading it again gives the
same. -/
structure Reading where
  outcome : Except Error Token
  repeatable : Option Bool := none

/-- A reading of the tree at a root pointer, with the events of its first walk. -/
def reading (m : Memory) (root : Nat) (limit : Option UInt64) : List Event × Reading :=
  let first := ({ maxDepth := limit } : Decoder).decode m root
  let again := limit.elim (some (first.result.toOption == some (m.decode root))) fun _ => none
  (first.events, ⟨first.result, again⟩)

end Memory

end TokenImage
