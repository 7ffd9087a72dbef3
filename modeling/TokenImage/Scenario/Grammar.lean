/-
# Grammars

A grammar answers inputs, and may answer the same input otherwise when it is asked again.  A
`GrammarRule` says how by a rule and not by a program.
-/
import TokenImage.Engine

namespace TokenImage

/-- What answers inputs: the script for each number of earlier calls. -/
abbrev Grammar := Nat → Script

/-- All that a grammar shows of itself. -/
def Grammar.structureText : String :=
  "ScriptedGrammar \x7b .. \x7d"

/-- A rule for answering inputs. -/
inductive GrammarRule where
  /-- The same reply to every input. -/
  | constant (reply : Reply)
  /-- The reply of the first row with this very input, or else the default. -/
  | table (rows : List (List UInt8 × Reply)) (default : Reply)
  /-- One reply after another, from the start again after the last. -/
  | cycle (first : Reply) (others : List Reply)
  /-- A sequence of the decimal digits that the input consists of. -/
  | digits
  /-- The input itself. -/
  | echo
  /-- No reply, but a panic. -/
  | panic

namespace GrammarRule

/-! ## 1. Replies that are computed from the input -/

/-- The nodes of decimal digits, the first of them at the index `position`; there are none if a byte
is not a digit. -/
def digitNodes? (position : Nat) : List UInt8 → Option (List Node)
  | [] => some []
  | b :: bs =>
    if 0x30 ≤ b ∧ b ≤ 0x39 then do
      let nodes ← digitNodes? (position + 1) bs
      some ({ shape := .unsigned (b - 0x30).toUInt64, index := position.toUInt64 } :: nodes)
    else none

/-- The reply to decimal digits: a sequence with as many spare slots as there are digits. -/
def digitsReply (input : List UInt8) : Reply :=
  match input, digitNodes? 0 input with
  | [], _ => .noMatch
  | _ :: _, none => .noMatch
  | _ :: _, some nodes => .matched ((Node.sequence nodes).withSpareCapacity input.length)

/-- The reply that repeats the input; it stands at the input's end. -/
def echoReply (input : List UInt8) : Reply :=
  .matched { shape := .bytes input, index := input.length.toUInt64 }

/-! ## 2. The grammar of a rule -/

/-- The grammar that follows a rule. -/
def grammar (rule : GrammarRule) : Grammar := fun calls input =>
  match rule with
  | .constant reply => .reply reply
  | .table rows default => .reply ((rows.lookup input).getD default)
  | .cycle first others =>
    .reply ((first :: others)[calls % (others.length + 1)]?.getD first)
  | .digits => .reply (digitsReply input)
  | .echo => .reply (echoReply input)
  | .panic => .panic "script panic"

end GrammarRule

end TokenImage
