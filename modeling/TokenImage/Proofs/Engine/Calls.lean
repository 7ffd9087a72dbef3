/-
# Calls of an engine

The two calls that an engine takes, each by all that it can do.  A run ends in one of four ways and
a release in one of three; the lemmas say for each way when it happens, what comes back, and what
becomes of the engine and the heap.  All later proofs go by them and open no action.
-/
import TokenImage.Guard

namespace TokenImage.Host

variable {n : Nat} {A : Allocators} {host : Host n} {i j : Fin n}

/-! ## 1. Changes of one engine -/

theorem engine_withEngine (host : Host n) (i j : Fin n) (f : Engine → Engine) :
    (host.withEngine i f).engine j = if i = j then f (host.engine i) else host.engine j := by
  by_cases h : i = j
  · subst h
    simp [withEngine, engine]
  · have hne : i.val ≠ j.val := fun heq => h (Fin.ext heq)
    simp [withEngine, engine, h, hne]

theorem engine_withEngine_self (host : Host n) (i : Fin n) (f : Engine → Engine) :
    (host.withEngine i f).engine i = f (host.engine i) := by
  rw [engine_withEngine, if_pos rfl]

theorem engine_withEngine_of_ne (host : Host n) (h : i ≠ j) (f : Engine → Engine) :
    (host.withEngine i f).engine j = host.engine j := by
  rw [engine_withEngine, if_neg h]

@[simp] theorem engine_start (n : Nat) (i : Fin n) : (start n).engine i = {} := by
  simp [start, engine]

@[simp] theorem engine_withHeap (host : Host n) (heap : Heap) (i : Fin n) :
    ({ host with heap } : Host n).engine i = host.engine i := rfl

@[simp] theorem heap_withEngine (host : Host n) (i : Fin n) (f : Engine → Engine) :
    (host.withEngine i f).heap = host.heap := rfl

/-- Two changes of one engine are one change. -/
theorem withEngine_withEngine (host : Host n) (i : Fin n) (f g : Engine → Engine) :
    (host.withEngine i f).withEngine i g = host.withEngine i fun e => g (f e) := by
  simp [withEngine, engine]

/-! ## 2. Runs -/

variable {script : Script} {input : List UInt8}

/-- A run whose script panics counts, and that is all. -/
theorem run_of_panic {text : String} (hs : script input = .panic text) :
    (run A i script input).run host =
      ⟨.error (.panic text), host.withEngine i Engine.countRun, []⟩ := by
  rw [run, hs]
  rfl

/-- A run without a result counts and gives the null handle. -/
theorem run_of_nullResult (hs : script input = .reply .nullResult) :
    (run A i script input).run host = ⟨.ok 0, host.withEngine i Engine.countRun, []⟩ := by
  rw [run, hs]
  rfl

/-- A run with a result is a count and an attempt to hand the result out. -/
theorem run_of_reply {reply : Reply} (hs : script input = .reply reply)
    (hne : reply ≠ .nullResult) :
    (run A i script input).run host =
      (handOut (host.allocator A) i reply input.length).run (host.withEngine i Engine.countRun) := by
  rw [run, hs]
  cases reply with
  | nullResult => exact absurd rfl hne
  | matched | noMatch => rfl

/-- A run whose result cannot be laid out counts, and that is all. -/
theorem run_of_failure {reply : Reply} {failure : AllocationFailure}
    (hs : script input = .reply reply) (hne : reply ≠ .nullResult)
    (ha : host.heap.allocResult (host.allocator A) reply input.length = .error failure) :
    (run A i script input).run host =
      ⟨.error (.allocation failure), host.withEngine i Engine.countRun, []⟩ := by
  rw [run_of_reply hs hne, handOut]
  simp only [heap_withEngine, ha]

/-- A run whose result is laid out counts and hands it out. -/
theorem run_of_result {reply : Reply} {handle : Nat} {tree : Option ForeignTree} {heap : Heap}
    (hs : script input = .reply reply) (hne : reply ≠ .nullResult)
    (ha : host.heap.allocResult (host.allocator A) reply input.length = .ok (handle, tree, heap)) :
    (run A i script input).run host =
      ⟨.ok handle, { host with heap }.withEngine i fun e => e.countRun.handOut handle tree, []⟩ := by
  rw [run_of_reply hs hne, handOut]
  simp only [heap_withEngine, ha]
  have hstate := withEngine_withEngine { host with heap } i Engine.countRun (·.handOut handle tree)
  exact congrArg (fun state => (⟨.ok handle, state, []⟩ : Performed (Host n) Nat)) hstate

/-- **How runs end.** -/
theorem run_cases (A : Allocators) (i : Fin n) (script : Script) (input : List UInt8)
    (host : Host n) :
    (∃ text, (run A i script input).run host =
      ⟨.error (.panic text), host.withEngine i Engine.countRun, []⟩) ∨
    (∃ failure, (run A i script input).run host =
      ⟨.error (.allocation failure), host.withEngine i Engine.countRun, []⟩) ∨
    (run A i script input).run host = ⟨.ok 0, host.withEngine i Engine.countRun, []⟩ ∨
    ∃ reply handle tree heap,
      host.heap.allocResult (host.allocator A) reply input.length = .ok (handle, tree, heap) ∧
      (run A i script input).run host =
        ⟨.ok handle, { host with heap }.withEngine i fun e => e.countRun.handOut handle tree,
          []⟩ := by
  cases hs : script input with
  | panic text => exact .inl ⟨text, run_of_panic hs⟩
  | reply reply =>
    by_cases hne : reply = .nullResult
    · subst hne
      exact .inr (.inr (.inl (run_of_nullResult hs)))
    cases ha : host.heap.allocResult (host.allocator A) reply input.length with
    | error failure => exact .inr (.inl ⟨failure, run_of_failure hs hne ha⟩)
    | ok result =>
      obtain ⟨handle, tree, heap⟩ := result
      exact .inr (.inr (.inr ⟨reply, handle, tree, heap, ha, run_of_result hs hne ha⟩))

/-! ## 3. Releases -/

variable {handle : Nat}

/-- A release of the null handle counts, and that is all. -/
theorem release_zero (i : Fin n) (host : Host n) :
    (release i 0).run host = ⟨.ok (), host.withEngine i Engine.countRelease, []⟩ := rfl

/-- A release of another handle is a count and an end of the handle. -/
theorem release_of_ne_zero (h0 : handle ≠ 0) :
    (release i handle).run host =
      (takeBack i handle).run (host.withEngine i Engine.countRelease) := by
  rw [release, if_neg h0]
  rfl

/-- A release of a live handle counts, frees the result and takes the handle back. -/
theorem release_of_live {tree : Option ForeignTree} (h0 : handle ≠ 0)
    (hlive : (host.engine i).live[handle]? = some tree) :
    (release i handle).run host =
      ⟨.ok (), { host with heap := host.heap.freeResult handle tree }.withEngine i fun e =>
        e.countRelease.takeBack handle, []⟩ := by
  have hlive' : ((host.withEngine i Engine.countRelease).engine i).live[handle]? = some tree := by
    rw [engine_withEngine_self]
    exact hlive
  rw [release_of_ne_zero h0, takeBack]
  simp only [hlive']
  have hstate := withEngine_withEngine { host with heap := host.heap.freeResult handle tree } i
    Engine.countRelease (·.takeBack handle)
  exact congrArg (fun state => (⟨.ok (), state, []⟩ : Performed (Host n) Unit)) hstate

/-- A release of a handle that is not live counts twice over and is reported. -/
theorem release_of_not_live (h0 : handle ≠ 0) (hlive : (host.engine i).live[handle]? = none) :
    (release i handle).run host =
      ⟨.ok (), host.withEngine i fun e => e.countRelease.countUnknown, [.unownedRelease]⟩ := by
  have hlive' : ((host.withEngine i Engine.countRelease).engine i).live[handle]? = none := by
    rw [engine_withEngine_self]
    exact hlive
  rw [release_of_ne_zero h0, takeBack]
  simp only [hlive']
  rw [withEngine_withEngine]

/-- **How releases end.** -/
theorem release_cases (i : Fin n) (handle : Nat) (host : Host n) :
    (handle = 0 ∧ (release i handle).run host =
      ⟨.ok (), host.withEngine i Engine.countRelease, []⟩) ∨
    (∃ tree, handle ≠ 0 ∧ (host.engine i).live[handle]? = some tree ∧
      (release i handle).run host =
        ⟨.ok (), { host with heap := host.heap.freeResult handle tree }.withEngine i fun e =>
          e.countRelease.takeBack handle, []⟩) ∨
    (handle ≠ 0 ∧ (host.engine i).live[handle]? = none ∧ (release i handle).run host =
      ⟨.ok (), host.withEngine i fun e => e.countRelease.countUnknown, [.unownedRelease]⟩) := by
  by_cases h0 : handle = 0
  · subst h0
    exact .inl ⟨rfl, release_zero i host⟩
  cases hlive : (host.engine i).live[handle]? with
  | some tree => exact .inr (.inl ⟨tree, h0, rfl, release_of_live h0 hlive⟩)
  | none => exact .inr (.inr ⟨h0, rfl, release_of_not_live h0 hlive⟩)

/-- A release never crashes. -/
theorem result_release (i : Fin n) (handle : Nat) (host : Host n) :
    ((release i handle).run host).result = .ok () := by
  rcases release_cases i handle host with ⟨-, h⟩ | ⟨tree, -, -, h⟩ | ⟨-, -, h⟩
  · rw [h]
  · rw [h]
  · rw [h]

end TokenImage.Host
