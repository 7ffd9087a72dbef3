/-
# Engines and their handles

An engine runs a script on an input and hands out the answer as a handle: the address of a result
record, or null.  It counts its runs and its releases, keeps the handles that are out together with
the trees they own, and counts and ignores a release of anything else.  All engines of a host lay
their results out in one heap.
-/
import TokenImage.Action
import TokenImage.ForeignTree.Basic

namespace TokenImage

/-! ## 1. Replies -/

/-- What a grammar answers for an input. -/
inductive Reply where
  /-- A match, with its tree. -/
  | matched (node : Node)
  /-- A result whose root is null. -/
  | noMatch
  /-- No result at all. -/
  | nullResult
  deriving DecidableEq

/-- How a script ends. -/
inductive Answer where
  | reply (reply : Reply)
  | panic (text : String)

/-- What is run on an input. -/
abbrev Script := List UInt8 → Answer

/-! ## 2. Engines -/

/-- An engine's counters, and the handles that are out with the trees they own; a result without a
match owns none. -/
structure Engine where
  runs : Nat := 0
  releases : Nat := 0
  unknownReleases : Nat := 0
  live : Std.TreeMap Nat (Option ForeignTree) := ∅

namespace Engine

/-- The number of handles that are out. -/
def outstanding (e : Engine) : Nat :=
  e.live.size

/-- The engine with one more run. -/
def countRun (e : Engine) : Engine :=
  { e with runs := e.runs + 1 }

/-- The engine with one more release. -/
def countRelease (e : Engine) : Engine :=
  { e with releases := e.releases + 1 }

/-- The engine with one more release of what it does not own. -/
def countUnknown (e : Engine) : Engine :=
  { e with unknownReleases := e.unknownReleases + 1 }

/-- The engine with a handle out. -/
def handOut (e : Engine) (handle : Nat) (tree : Option ForeignTree) : Engine :=
  { e with live := e.live.insert handle tree }

/-- The engine with a handle back. -/
def takeBack (e : Engine) (handle : Nat) : Engine :=
  { e with live := e.live.erase handle }

end Engine

/-! ## 3. Results in memory -/

/-- The bits of an input of so many bytes, as far as a signed number holds them. -/
def inputBits (length : Nat) : Int64 :=
  Int64.ofNat (min (8 * length) 0x7fffffffffffffff)

namespace Heap

/-- The tree of a reply, if it has one. -/
def allocTree (A : Allocator) (h : Heap) :
    Reply → Except AllocationFailure (Option ForeignTree × Heap)
  | .matched node => do
    let (tree, h) ← ForeignTree.build A h node
    pure (some tree, h)
  | .noMatch => pure (none, h)
  | .nullResult => pure (none, h)

/-- The result of a reply on an input of so many bytes: its handle, and the tree it owns. -/
def allocResult (A : Allocator) (h : Heap) (reply : Reply) (inputLength : Nat) :
    Except AllocationFailure (Nat × Option ForeignTree × Heap) := do
  let (tree, h) ← allocTree A h reply
  let root := tree.elim 0 ForeignTree.root
  let record : ResultRecord := ⟨root, inputBits inputLength⟩
  let (e, h) ← AllocationFailure.ofRoom (h.allocRecord A resultLayout.size record.fields)
  pure (e.base, tree, h)

/-- The heap without a result and the tree it owns. -/
def freeResult (h : Heap) (handle : Nat) (tree : Option ForeignTree) : Heap :=
  (tree.elim h fun t => t.drop h).free ⟨handle, resultLayout.size⟩

end Heap

/-! ## 4. Hosts -/

/-- A number of engines and the heap they share. -/
structure Host (n : Nat) where
  heap : Heap
  engines : Vector Engine n

namespace Host

variable {n : Nat}

/-- New engines on an empty heap. -/
def start (n : Nat) : Host n :=
  ⟨.empty, Vector.replicate n {}⟩

/-- An engine of the host. -/
def engine (host : Host n) (i : Fin n) : Engine :=
  host.engines[i]

/-- The host with one engine changed. -/
def withEngine (host : Host n) (i : Fin n) (f : Engine → Engine) : Host n :=
  { host with engines := host.engines.set i (f (host.engine i)) }

/-- The runs of all engines together. -/
def totalRuns (host : Host n) : Nat :=
  host.engines.foldr (fun e runs => e.runs + runs) 0

/-- The policy of the next run. -/
def allocator (host : Host n) (A : Allocators) : Allocator :=
  A.forRun host.totalRuns

/-- A new result for a reply on an input of so many bytes, handed out by an engine. -/
def handOut (A : Allocator) (i : Fin n) (reply : Reply) (inputLength : Nat) :
    Action (Host n) Nat :=
  ⟨fun host =>
    match host.heap.allocResult A reply inputLength with
    | .error failure => ⟨.error (.allocation failure), host, []⟩
    | .ok (handle, tree, heap) =>
      ⟨.ok handle, { host with heap }.withEngine i (·.handOut handle tree), []⟩⟩

/-- **A run of a script.**  The run counts also if the script panics; the handle is null where the
reply is no result at all. -/
def run (A : Allocators) (i : Fin n) (script : Script) (input : List UInt8) :
    Action (Host n) Nat := do
  let before ← .current
  .change (·.withEngine i Engine.countRun)
  match script input with
  | .panic text => .crash (.panic text)
  | .reply .nullResult => pure 0
  | .reply reply => handOut (before.allocator A) i reply input.length

/-- The end of a handle that is not null: what is not live is counted and reported, and what is live
is freed with the tree it owns. -/
def takeBack (i : Fin n) (handle : Nat) : Action (Host n) Unit :=
  ⟨fun host =>
    match (host.engine i).live[handle]? with
    | none => ⟨.ok (), host.withEngine i Engine.countUnknown, [.unownedRelease]⟩
    | some tree =>
      ⟨.ok (), { host with heap := host.heap.freeResult handle tree }.withEngine i
        (·.takeBack handle), []⟩⟩

/-- **A release of a handle.**  Every release counts, and one of null does nothing else. -/
def release (i : Fin n) (handle : Nat) : Action (Host n) Unit := do
  .change (·.withEngine i Engine.countRelease)
  if handle = 0 then pure () else takeBack i handle

end Host

end TokenImage
