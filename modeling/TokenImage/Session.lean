/-
# Sessions

A session parses with one engine and fixed options: it acquires the result, reads the tree while the
guard holds it, drops the guard and reports how the parse went.  A missing root is a parse without a
match, never a zero token, and it comes before any question of depth.
-/
import TokenImage.Decoder
import TokenImage.Guard

namespace TokenImage

open TokenImage.Text

/-! ## 1. Options -/

/-- The options of a session: a limit on the depth of trees, or none. -/
structure SessionOptions where
  maxDepth : Option UInt64 := none
  deriving DecidableEq

namespace SessionOptions

/-- The options with another limit. -/
def withMaxDepth (o : SessionOptions) (maxDepth : UInt64) : SessionOptions :=
  { o with maxDepth := some maxDepth }

/-- Options with their field, as text. -/
def structureText (o : SessionOptions) : String :=
  Writer.text <| writeRecord "SessionOptions"
    [("max_depth", writeOption (fun n : UInt64 => writeNat n.toNat) o.maxDepth)]

end SessionOptions

/-! ## 2. Sessions -/

/-- An engine and the way in which its trees are read. -/
structure Session (n : Nat) where
  engine : Fin n
  decoder : Decoder

namespace Session

variable {n : Nat}

/-- A session with given options. -/
def withOptions (i : Fin n) (options : SessionOptions) : Session n :=
  ⟨i, match options.maxDepth with
    | some maxDepth => ({} : Decoder).withMaxDepth maxDepth
    | none => {}⟩

/-- A session without a limit. -/
def new (i : Fin n) : Session n :=
  withOptions i {}

/-- The options that a session was made with. -/
def options (s : Session n) : SessionOptions :=
  ⟨s.decoder.maxDepth⟩

/-- The error of a parse that had no match. -/
def noMatchError : Error :=
  (Error.ofKind .noMatch).withMessage "engine produced no match"

/-- What a session makes of the result that a guard holds. -/
def readResult (s : Session n) (g : Guard n) : Action (Host n) (Except Error Token) :=
  .look fun host =>
    match g.root? host.heap.memory with
    | none => ([], .error noMatchError)
    | some root =>
      let tree := s.decoder.decode host.heap.memory root
      (tree.events, tree.result)

/-- The event that closes a parse. -/
def closingEvent (inputLength : Nat) : Except Error Token → Event
  | .ok t => .parseMatched inputLength t.count
  | .error e => .parseFailed inputLength e

/-- **A parse.** -/
def parse (A : Allocators) (s : Session n) (script : Script) (input : List UInt8) :
    Action (Host n) (Except Error Token) := do
  let outcome ← Guard.holding A s.engine script input s.readResult
  .emit (closingEvent input.length outcome)
  pure outcome

end Session

/-- A parse without a limit, of which a failure shows nothing. -/
def Host.parse {n : Nat} (A : Allocators) (i : Fin n) (script : Script) (input : List UInt8) :
    Action (Host n) (Option Token) := do
  let outcome ← (Session.new i).parse A script input
  pure outcome.toOption

end TokenImage
