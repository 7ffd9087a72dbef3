/-
# The ledger of an engine

What clients see of an engine is a history of calls: how each run ended, which handle each release
gave back, and what was reported.  A ledger is kept from that history alone.  It knows what a client
could know: how many runs ended in which way, which handles were handed out and not given back
since, and so which releases were releases of what the engine had handed out.

The engine keeps four counters and a table of its own.  `Balanced` says that they agree with the
ledger, and `Accounts.calls` that they do after any calls of any engines in any order, releases of
arbitrary addresses included.

* `Host.balanced_run` and `Host.balanced_release` are the steps of one engine;
* `Host.Accounts.call` is the step of a host, and `Host.Accounts.calls` the induction over calls.
-/
import TokenImage.Proofs.Engine.Ownership
import Mathlib.Data.Finset.Basic

namespace TokenImage

/-! ## 1. Calls and their history -/

/-- A call of an engine. -/
inductive Call (n : Nat) where
  | run (i : Fin n) (script : Script) (input : List UInt8)
  | release (i : Fin n) (handle : Nat)

/-- What a client sees of a call. -/
inductive CallEntry where
  /-- A run, with how it ended. -/
  | ran (result : Except Crash Nat)
  /-- A release of this handle. -/
  | released (handle : Nat)

/-- A call that was made: on which engine, what was seen of it, and what the engine reported. -/
structure CallRecord (n : Nat) where
  engine : Fin n
  entry : CallEntry
  events : List Event

namespace Host

variable {n : Nat}

/-- A call, with its record. -/
def call (A : Allocators) (host : Host n) : Call n → CallRecord n × Host n
  | .run i script input =>
    let done := (Host.run A i script input).run host
    (⟨i, .ran done.result, done.events⟩, done.state)
  | .release i handle =>
    let done := (Host.release i handle).run host
    (⟨i, .released handle, done.events⟩, done.state)

/-- Calls in turn, with their records. -/
def calls (A : Allocators) (host : Host n) : List (Call n) → List (CallRecord n) × Host n
  | [] => ([], host)
  | c :: cs =>
    let (record, host) := call A host c
    let (records, host) := calls A host cs
    (record :: records, host)

theorem calls_append (A : Allocators) (host : Host n) (cs ds : List (Call n)) :
    calls A host (cs ++ ds) =
      ((calls A host cs).1 ++ (calls A (calls A host cs).2 ds).1,
        (calls A (calls A host cs).2 ds).2) := by
  induction cs generalizing host with
  | nil => rfl
  | cons c cs ih => simp only [List.cons_append, calls, ih]

/-- Calls keep ownership. -/
theorem Owned.calls {host : Host n} (h : host.Owned) (A : Allocators) (cs : List (Call n)) :
    (host.calls A cs).2.Owned := by
  induction cs generalizing host with
  | nil => exact h
  | cons c cs ih =>
    cases c with
    | run i script input => exact ih (h.run A i script input)
    | release i handle => exact ih (h.release i handle)

end Host

/-! ## 2. The ledger -/

/-- Whether an event is a warning. -/
def Event.isWarning (event : Event) : Bool :=
  decide (event.level = .warn)

/-- What a client can know of an engine from its calls. -/
structure Ledger where
  /-- Runs whose script panicked. -/
  scriptPanics : Nat := 0
  /-- Runs whose reply could not be laid out. -/
  layoutFailures : Nat := 0
  /-- Runs that gave the null handle. -/
  nullResults : Nat := 0
  /-- Runs that gave another handle. -/
  handedOut : Nat := 0
  /-- Releases of the null handle. -/
  nullReleases : Nat := 0
  /-- Releases of a handle that this engine had handed out, and that was not yet released on it. -/
  ownerReleases : Nat := 0
  /-- All other releases. -/
  strayReleases : Nat := 0
  /-- Warnings that the engine reported. -/
  warnings : Nat := 0
  /-- The handles that this engine has handed out and that were not yet released on it. -/
  held : Finset Nat := ∅

namespace Ledger

/-- The ledger after a run that ended so. -/
def noteRun (l : Ledger) : Except Crash Nat → Ledger
  | .error (.panic _) => { l with scriptPanics := l.scriptPanics + 1 }
  | .error (.allocation _) => { l with layoutFailures := l.layoutFailures + 1 }
  | .error .workerLost => l
  | .ok handle =>
    if handle = 0 then { l with nullResults := l.nullResults + 1 }
    else { l with handedOut := l.handedOut + 1, held := insert handle l.held }

/-- The ledger after a release of this handle. -/
def noteRelease (l : Ledger) (handle : Nat) : Ledger :=
  if handle = 0 then { l with nullReleases := l.nullReleases + 1 }
  else if handle ∈ l.held then
    { l with ownerReleases := l.ownerReleases + 1, held := l.held.erase handle }
  else { l with strayReleases := l.strayReleases + 1 }

/-- The ledger after warnings among events. -/
def noteEvents (l : Ledger) (events : List Event) : Ledger :=
  { l with warnings := l.warnings + events.countP Event.isWarning }

/-- The ledger after a call that was made on its engine. -/
def note (l : Ledger) (r : CallRecord n) : Ledger :=
  match r.entry with
  | .ran result => (l.noteRun result).noteEvents r.events
  | .released handle => (l.noteRelease handle).noteEvents r.events

/-- **The ledger of an engine**, kept from a history of calls of all engines. -/
def of (i : Fin n) (history : List (CallRecord n)) : Ledger :=
  history.foldl (fun l r => if r.engine = i then l.note r else l) {}

theorem of_concat (i : Fin n) (history : List (CallRecord n)) (r : CallRecord n) :
    of i (history ++ [r]) = if r.engine = i then (of i history).note r else of i history := by
  rw [of, List.foldl_append]
  rfl

end Ledger

/-! ## 3. Balance -/

/-- **An engine agrees with its ledger.** -/
structure Engine.Balanced (e : Engine) (l : Ledger) : Prop where
  /-- Every run panicked, or could not be laid out, or gave null, or handed a handle out. -/
  runs : e.runs = l.scriptPanics + l.layoutFailures + l.nullResults + l.handedOut
  /-- Every handle that was handed out is released on its engine or is out. -/
  handedOut : l.handedOut = l.ownerReleases + e.outstanding
  /-- Every release was of null, or of an own handle, or is counted as unknown. -/
  releases : e.releases = l.nullReleases + l.ownerReleases + e.unknownReleases
  /-- The unknown releases are those of what the engine has not out. -/
  unknown : e.unknownReleases = l.strayReleases
  /-- The engine warned of each of them, and of nothing else. -/
  warnings : e.unknownReleases = l.warnings
  /-- What is out is what was handed out and not yet released. -/
  live_iff : ∀ handle, handle ∈ e.live ↔ handle ∈ l.held

namespace Engine

variable {e : Engine} {handle : Nat}

/-- A handle that was not out makes one more. -/
theorem outstanding_handOut (h : handle ∉ e.live) (tree : Option ForeignTree) :
    (e.handOut handle tree).outstanding = e.outstanding + 1 :=
  Std.TreeMap.size_insert.trans (if_neg h)

/-- A handle that was out makes one less. -/
theorem outstanding_takeBack (h : handle ∈ e.live) :
    (e.takeBack handle).outstanding + 1 = e.outstanding := by
  have hpos : e.live.size ≠ 0 := by
    intro hzero
    have hempty : e.live.isEmpty = true := by
      rw [Std.TreeMap.isEmpty_eq_size_eq_zero, hzero]
      rfl
    exact Std.TreeMap.not_mem_of_isEmpty hempty h
  have hsize : (e.live.erase handle).size = e.live.size - 1 :=
    Std.TreeMap.size_erase.trans (if_pos h)
  simp only [outstanding, takeBack, hsize]
  omega

end Engine

theorem Engine.balanced_new : ({} : Engine).Balanced {} where
  runs := rfl
  handedOut := rfl
  releases := rfl
  unknown := rfl
  warnings := rfl
  live_iff handle := by simp

namespace Host

variable {n : Nat} {A : Allocators} {host : Host n} {i j : Fin n} {l : Ledger}

/-- **A run keeps an engine balanced.** -/
theorem balanced_run (ho : host.Owned) (hb : (host.engine i).Balanced l) (script : Script)
    (input : List UInt8) :
    (((Host.run A i script input).run host).state.engine i).Balanced
      ((l.noteRun ((Host.run A i script input).run host).result).noteEvents
        ((Host.run A i script input).run host).events) := by
  obtain ⟨hruns, hhanded, hreleases, hunknown, hwarnings, hlive⟩ := hb
  rcases run_cases A i script input host with
    ⟨text, hrun⟩ | ⟨failure, hrun⟩ | hrun | ⟨reply, handle, tree, heap, ha, hrun⟩
  · rw [hrun]
    simp only [engine_withEngine_self]
    refine ⟨?_, hhanded, hreleases, hunknown, hwarnings, hlive⟩
    simp only [Ledger.noteRun, Ledger.noteEvents, Engine.countRun]
    omega
  · rw [hrun]
    simp only [engine_withEngine_self]
    refine ⟨?_, hhanded, hreleases, hunknown, hwarnings, hlive⟩
    simp only [Ledger.noteRun, Ledger.noteEvents, Engine.countRun]
    omega
  · rw [hrun]
    simp only [engine_withEngine_self]
    refine ⟨?_, hhanded, hreleases, hunknown, hwarnings, hlive⟩
    simp only [Ledger.noteRun, Ledger.noteEvents, Engine.countRun, if_pos]
    omega
  · have hpos : handle ≠ 0 := Nat.ne_of_gt (Heap.handle_pos ha)
    have hnew : handle ∉ (host.engine i).live := ho.not_isLive_new ha i
    have hone : ((host.engine i).countRun.handOut handle tree).outstanding =
        (host.engine i).outstanding + 1 := Engine.outstanding_handOut hnew tree
    rw [hrun]
    simp only [engine_withEngine_self, engine_withHeap, Ledger.noteRun, if_neg hpos]
    refine ⟨?_, ?_, hreleases, hunknown, hwarnings, fun handle' => ?_⟩
    · simp only [Ledger.noteEvents, Engine.handOut, Engine.countRun]
      omega
    · simp only [Ledger.noteEvents, hone]
      omega
    · simp only [Ledger.noteEvents, Engine.handOut, Engine.countRun, Std.TreeMap.mem_insert,
        Finset.mem_insert, ← hlive, Nat.compare_eq_eq]
      rw [eq_comm]

/-- **A release keeps an engine balanced.** -/
theorem balanced_release (hb : (host.engine i).Balanced l) (handle : Nat) :
    (((Host.release i handle).run host).state.engine i).Balanced
      ((l.noteRelease handle).noteEvents ((Host.release i handle).run host).events) := by
  obtain ⟨hruns, hhanded, hreleases, hunknown, hwarnings, hlive⟩ := hb
  rcases release_cases i handle host with
    ⟨rfl, hrun⟩ | ⟨tree, hpos, hholds, hrun⟩ | ⟨hpos, hnone, hrun⟩
  · rw [hrun]
    simp only [engine_withEngine_self]
    refine ⟨hruns, hhanded, ?_, hunknown, hwarnings, hlive⟩
    simp only [Ledger.noteRelease, Ledger.noteEvents, Engine.countRelease, if_pos]
    omega
  · have hout : handle ∈ (host.engine i).live := isLive_iff.mpr ⟨tree, hholds⟩
    have hheld : handle ∈ l.held := (hlive handle).mp hout
    have hone : ((host.engine i).countRelease.takeBack handle).outstanding + 1 =
        (host.engine i).outstanding := Engine.outstanding_takeBack hout
    rw [hrun]
    simp only [engine_withEngine_self, engine_withHeap, Ledger.noteRelease, if_neg hpos,
      if_pos hheld]
    refine ⟨hruns, ?_, ?_, hunknown, hwarnings, fun handle' => ?_⟩
    · simp only [Ledger.noteEvents]
      omega
    · simp only [Ledger.noteEvents, Engine.takeBack, Engine.countRelease]
      omega
    · simp only [Ledger.noteEvents, Engine.takeBack, Engine.countRelease, Std.TreeMap.mem_erase,
        Finset.mem_erase, ← hlive, ne_eq, Nat.compare_eq_eq]
      rw [eq_comm]
  · have hheld : handle ∉ l.held := fun hheld => not_isLive_iff.mpr hnone ((hlive handle).mpr hheld)
    rw [hrun]
    simp only [engine_withEngine_self, Ledger.noteRelease, if_neg hpos, if_neg hheld]
    refine ⟨hruns, hhanded, ?_, ?_, ?_, hlive⟩
    · simp only [Ledger.noteEvents, Engine.countUnknown, Engine.countRelease]
      omega
    · simp only [Ledger.noteEvents, Engine.countUnknown, Engine.countRelease]
      omega
    · have hwarning : [Event.unownedRelease].countP Event.isWarning = 1 := by decide
      simp only [Ledger.noteEvents, Engine.countUnknown, Engine.countRelease, hwarning]
      omega

/-! ## 4. Hosts -/

/-- A call leaves the other engines alone. -/
theorem engines_run_of_ne (h : i ≠ j) (script : Script) (input : List UInt8) :
    ((Host.run A i script input).run host).state.engine j = host.engine j := by
  rcases run_cases A i script input host with
    ⟨text, hrun⟩ | ⟨failure, hrun⟩ | hrun | ⟨reply, handle, tree, heap, -, hrun⟩
  all_goals
    rw [hrun]
    exact engine_withEngine_of_ne _ h _

theorem engines_release_of_ne (h : i ≠ j) (handle : Nat) :
    ((Host.release i handle).run host).state.engine j = host.engine j := by
  rcases release_cases i handle host with ⟨-, hrun⟩ | ⟨tree, -, -, hrun⟩ | ⟨-, -, hrun⟩
  all_goals
    rw [hrun]
    exact engine_withEngine_of_ne _ h _

/-- **The books of a host**: results own their blocks, and every engine agrees with the ledger that is
kept from the history. -/
structure Accounts (host : Host n) (history : List (CallRecord n)) : Prop where
  owned : host.Owned
  balanced : ∀ i : Fin n, (host.engine i).Balanced (Ledger.of i history)

theorem accounts_start (n : Nat) : (start n).Accounts [] := by
  refine ⟨owned_start n, fun i => ?_⟩
  rw [engine_start]
  exact Engine.balanced_new

/-- **A call keeps the books**, whatever it is. -/
theorem Accounts.call {history : List (CallRecord n)} (h : host.Accounts history) (c : Call n) :
    (host.call A c).2.Accounts (history ++ [(host.call A c).1]) := by
  cases c with
  | run i script input =>
    simp only [Host.call]
    refine ⟨h.owned.run A i script input, fun j => ?_⟩
    rw [Ledger.of_concat]
    by_cases hij : i = j
    · subst hij
      rw [if_pos rfl]
      exact balanced_run h.owned (h.balanced i) script input
    · rw [if_neg hij, engines_run_of_ne hij script input]
      exact h.balanced j
  | release i handle =>
    simp only [Host.call]
    refine ⟨h.owned.release i handle, fun j => ?_⟩
    rw [Ledger.of_concat]
    by_cases hij : i = j
    · subst hij
      rw [if_pos rfl]
      exact balanced_release (h.balanced i) handle
    · rw [if_neg hij, engines_release_of_ne hij handle]
      exact h.balanced j

/-- **Calls keep the books**, in any order and on any engines. -/
theorem Accounts.calls {history : List (CallRecord n)} (h : host.Accounts history)
    (cs : List (Call n)) : (host.calls A cs).2.Accounts (history ++ (host.calls A cs).1) := by
  induction cs generalizing host history with
  | nil =>
    rw [Host.calls, List.append_nil]
    exact h
  | cons c cs ih =>
    have hcall := ih (h.call (A := A) c)
    rw [List.append_assoc] at hcall
    exact hcall

end Host

end TokenImage
