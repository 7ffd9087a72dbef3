/-
# The structure of a node as text

Every field of every node by name, for inspection.
-/
import TokenImage.Node.Basic
import TokenImage.Text.Writer

namespace TokenImage.Node

open TokenImage.Text

/-- A node by its fields, given the writer of its shape. -/
def writeFields (index : UInt64) (bitOffset : Int8) (spareCapacity : Nat) (shape : Writer) :
    Writer :=
  writeRecord "Node"
    [("shape", shape), ("index", writeNat index.toNat), ("bit_offset", writeInt bitOffset.toInt),
      ("spare_capacity", writeNat spareCapacity)]

mutual

/-- A node with all of its fields. -/
def writeStructure : Node → Writer
  | ⟨.null, i, b, s⟩ => writeFields i b s (writeText "Null")
  | ⟨.tagged tag, i, b, s⟩ => writeFields i b s (writeApplied "Tagged" (writeNat tag.toNat))
  | ⟨.none, i, b, s⟩ => writeFields i b s (writeText "None")
  | ⟨.bytes span, i, b, s⟩ =>
    writeFields i b s (writeApplied "Bytes" (writeList (span.map fun x => writeNat x.toNat)))
  | ⟨.signed number, i, b, s⟩ => writeFields i b s (writeApplied "SInt" (writeInt number.toInt))
  | ⟨.unsigned number, i, b, s⟩ => writeFields i b s (writeApplied "UInt" (writeNat number.toNat))
  | ⟨.sequence items, i, b, s⟩ =>
    writeFields i b s (writeApplied "Sequence" (writeList (structureWriters items)))

/-- The writers of the nodes of a list, in order. -/
def structureWriters : List Node → List Writer
  | [] => []
  | n :: ns => writeStructure n :: structureWriters ns

end

/-- The structure of a node as text. -/
def structureText (n : Node) : String :=
  Writer.text (writeStructure n)

end TokenImage.Node
