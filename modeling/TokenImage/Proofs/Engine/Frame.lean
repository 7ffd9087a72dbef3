/-
# What calls leave alone

A result that is out stays where it is, byte by byte, whatever else is called on any engine: a run
lays out new blocks beside it, and a release unmaps the blocks of one result only.  The second needs
that no two live blocks overlap (`Heap.Apart`), which the policy of placing blocks promises for new
ones and which a release keeps.

* `Host.Keeps` says that a result is out as before, with the same bytes in its blocks.
* `Host.keeps_run` and `Host.keeps_release` are the steps: a run keeps every result, and a release
  keeps every one but the one that it names.
* `Host.Parses.keeps`: parses in turn keep every result.
-/
import TokenImage.Proofs.Engine.ParseCalls

namespace TokenImage

/-! ## 1. Blocks that do not overlap -/

namespace Heap

variable {h : Heap} {e b : Extent} {blocks : List Extent}

theorem apart_empty : Heap.empty.Apart := by
  intro e e' he
  simp [Live, empty] at he

/-- Giving back a block makes no other one live. -/
theorem live_of_live_free (he : (h.free b).Live e) : h.Live e := by
  by_cases hb : h.Live b
  · unfold Live at he hb
    rw [Heap.free, if_pos hb] at he
    change (h.blocks.erase b.base)[e.base]? = some e.size at he
    rw [Std.TreeMap.getElem?_erase] at he
    split at he
    · cases he
    · exact he
  · rwa [free_of_not_live hb] at he

theorem Apart.free (h₀ : h.Apart) (b : Extent) : (h.free b).Apart :=
  fun e e' he he' => h₀ e e' (live_of_live_free he) (live_of_live_free he')

theorem Apart.freeAll (h₀ : h.Apart) (blocks : List Extent) : (h.freeAll blocks).Apart := by
  induction blocks generalizing h with
  | nil => exact h₀
  | cons b blocks ih => exact ih (h₀.free b)

theorem Apart.freeResult (h₀ : h.Apart) (handle : Nat) (tree : Option ForeignTree) :
    (h.freeResult handle tree).Apart := by
  cases tree with
  | none => exact h₀.free _
  | some t => exact (h₀.freeAll _).free _

/-- Giving back one block changes no byte of another live one. -/
theorem agreeOn_free (h₀ : h.Apart) (he : h.Live e) (hne : e ≠ b) :
    h.memory.AgreeOn (h.free b).memory e := by
  by_cases hb : h.Live b
  · intro x hx hx'
    have hbeside := h₀ e b he hb hne
    rw [memory_free hb, if_neg (by omega)]
  · rw [free_of_not_live hb]
    exact .refl _ e

/-- Giving back blocks changes no byte of another live one. -/
theorem agreeOn_freeAll (h₀ : h.Apart) (he : h.Live e) (hnot : e ∉ blocks) :
    h.memory.AgreeOn (h.freeAll blocks).memory e := by
  induction blocks generalizing h with
  | nil => exact .refl _ e
  | cons b blocks ih =>
    rw [List.mem_cons, not_or] at hnot
    exact (agreeOn_free h₀ he hnot.1).trans (ih (h₀.free b) (he.free hnot.1) hnot.2)

/-- **The end of a result changes no byte** of a live block that is not one of its own. -/
theorem agreeOn_freeResult {handle : Nat} {tree : Option ForeignTree} (h₀ : h.Apart)
    (he : h.Live e) (hnot : e ∉ resultBlocks handle tree) :
    h.memory.AgreeOn (h.freeResult handle tree).memory e := by
  rw [resultBlocks, List.mem_cons, not_or] at hnot
  obtain ⟨hrecord, htree⟩ := hnot
  cases tree with
  | none => exact agreeOn_free h₀ he hrecord
  | some t =>
    exact (agreeOn_freeAll h₀ he htree).trans
      (agreeOn_free (h₀.freeAll _) (he.freeAll htree) hrecord)

end Heap

namespace Host

variable {n : Nat} {A : Allocators} {host host' host'' : Host n} {i j : Fin n} {handle : Nat}
  {tree : Option ForeignTree}

/-! ## 2. Sound hosts -/

/-- **Results own their blocks, and no two live blocks overlap.** -/
structure Sound (host : Host n) : Prop where
  owned : host.Owned
  apart : host.heap.Apart

theorem sound_start (n : Nat) : (start n).Sound :=
  ⟨owned_start n, Heap.apart_empty⟩

/-- A run keeps a host sound. -/
theorem Sound.run (h : host.Sound) (A : Allocators) (i : Fin n) (script : Script)
    (input : List UInt8) : ((Host.run A i script input).run host).state.Sound := by
  refine ⟨h.owned.run A i script input, ?_⟩
  rcases run_cases A i script input host with
    ⟨text, hrun⟩ | ⟨failure, hrun⟩ | hrun | ⟨reply, handle, tree, heap, ha, hrun⟩
  · rw [hrun]
    exact h.apart
  · rw [hrun]
    exact h.apart
  · rw [hrun]
    exact h.apart
  · rw [hrun]
    exact (Heap.grows_allocResult ha).apart h.apart

/-- A release keeps a host sound. -/
theorem Sound.release (h : host.Sound) (i : Fin n) (handle : Nat) :
    ((Host.release i handle).run host).state.Sound := by
  refine ⟨h.owned.release i handle, ?_⟩
  rcases release_cases i handle host with ⟨-, hrun⟩ | ⟨tree, -, -, hrun⟩ | ⟨-, -, hrun⟩
  · rw [hrun]
    exact h.apart
  · rw [hrun]
    exact h.apart.freeResult handle tree
  · rw [hrun]
    exact h.apart

/-- **Calls keep a host sound**, in any order and on any engines. -/
theorem Sound.calls (h : host.Sound) (A : Allocators) (cs : List (Call n)) :
    (host.calls A cs).2.Sound := by
  induction cs generalizing host with
  | nil => exact h
  | cons c cs ih =>
    cases c with
    | run i script input => exact ih (h.run A i script input)
    | release i handle => exact ih (h.release i handle)

/-! ## 3. Results that stay -/

/-- **A result stays**: it is out as before, and its blocks have the bytes that they had. -/
structure Keeps (host host' : Host n) (i : Fin n) (handle : Nat) (tree : Option ForeignTree) :
    Prop where
  holds : host'.Holds i handle tree
  agree : ∀ e ∈ resultBlocks handle tree, host.heap.memory.AgreeOn host'.heap.memory e

theorem Keeps.trans (h : host.Keeps host' i handle tree) (h' : host'.Keeps host'' i handle tree) :
    host.Keeps host'' i handle tree :=
  ⟨h'.holds, fun e he => (h.agree e he).trans (h'.agree e he)⟩

/-- A change that leaves the tables alone leaves the same results out. -/
theorem holds_withEngine (f : Engine → Engine) (hf : ∀ e, (f e).live = e.live) :
    (host.withEngine i f).Holds j handle tree ↔ host.Holds j handle tree := by
  rw [Holds, engine_withEngine]
  split
  · rename_i hij
    subst hij
    rw [hf]
    rfl
  · rfl

/-- Such a change keeps every result. -/
theorem keeps_withEngine (f : Engine → Engine) (hf : ∀ e, (f e).live = e.live)
    (hholds : host.Holds j handle tree) : host.Keeps (host.withEngine i f) j handle tree :=
  ⟨(holds_withEngine f hf).mpr hholds, fun e _ => .refl _ e⟩

/-- A block without bytes agrees with itself in any two memories. -/
theorem agreeOn_of_pos {m m' : Memory} {e : Extent} (h : 0 < e.size → m.AgreeOn m' e) :
    m.AgreeOn m' e := by
  intro x hx hx'
  exact h (by omega) x hx hx'

/-- **A run keeps every result.** -/
theorem keeps_run (ho : host.Owned) (A : Allocators) (i : Fin n) (script : Script)
    (input : List UInt8) (hholds : host.Holds j handle tree) :
    host.Keeps ((Host.run A i script input).run host).state j handle tree := by
  rcases run_cases A i script input host with
    ⟨text, hrun⟩ | ⟨failure, hrun⟩ | hrun | ⟨reply, handle', tree', heap, ha, hrun⟩
  · rw [hrun]
    exact keeps_withEngine Engine.countRun (fun e => rfl) hholds
  · rw [hrun]
    exact keeps_withEngine Engine.countRun (fun e => rfl) hholds
  · rw [hrun]
    exact keeps_withEngine Engine.countRun (fun e => rfl) hholds
  · rw [hrun]
    refine ⟨?_, fun e he => agreeOn_of_pos fun hpos => ?_⟩
    · have hnew : ¬ (i = j ∧ handle' = handle) := by
        rintro ⟨rfl, rfl⟩
        exact ho.not_isLive_new ha i (isLive_iff.mpr ⟨tree, hholds⟩)
      rw [holds_handOut fun e => rfl, if_neg hnew]
      exact hholds
    · exact (Heap.grows_allocResult ha).agree e (ho.live hholds e he hpos)

/-- **A release keeps every result but the one that it names.** -/
theorem keeps_release (h : host.Sound) {handle' : Nat} (hne : (i, handle') ≠ (j, handle))
    (hholds : host.Holds j handle tree) :
    host.Keeps ((Host.release i handle').run host).state j handle tree := by
  rcases release_cases i handle' host with
    ⟨-, hrun⟩ | ⟨tree', -, hholds', hrun⟩ | ⟨-, -, hrun⟩
  · rw [hrun]
    exact keeps_withEngine Engine.countRelease (fun e => rfl) hholds
  · rw [hrun]
    refine ⟨(holds_takeBack fun e => rfl).mpr ⟨hne, hholds⟩, fun e he => agreeOn_of_pos ?_⟩
    intro hpos
    have hlive := h.owned.live hholds e he hpos
    exact Heap.agreeOn_freeResult h.apart hlive (h.owned.apart hholds hholds' hne.symm e he hpos)
  · rw [hrun]
    exact keeps_withEngine (fun e => e.countRelease.countUnknown) (fun e => rfl) hholds

/-- A parse keeps every result: the one that it releases is the one that it has just run for. -/
theorem keeps_parseCalls (h : host.Sound) (A : Allocators) (i : Fin n) (script : Script)
    (input : List UInt8) (hholds : host.Holds j handle tree) :
    host.Keeps (host.calls A (host.parseCalls A i script input)).2 j handle tree := by
  have hlive : host.IsLive j handle := isLive_iff.mpr ⟨tree, hholds⟩
  have hrunKeeps := keeps_run h.owned A i script input hholds
  have hsound := h.run A i script input
  rcases parse_cases A host i script input with
    ⟨c, host', hrun, hcalls⟩ | ⟨handle', host', hrun, -, hcalls⟩
  · rw [hrun] at hrunKeeps
    rw [hcalls]
    exact hrunKeeps
  · have hne : (i, handle') ≠ (j, handle) := by
      intro heq
      obtain ⟨rfl, rfl⟩ := Prod.mk.inj heq
      have hresult : ((Host.run A i script input).run host).result = .ok handle' := by rw [hrun]
      exact not_isLive_of_run h.owned (h.owned.ne_zero hlive) hresult i hlive
    rw [hrun] at hrunKeeps hsound
    rw [hcalls]
    exact hrunKeeps.trans (keeps_release hsound hne hrunKeeps.holds)

/-- **Parses in turn keep every result.** -/
theorem Parses.keeps {cs : List (Call n)} (hp : Parses A host cs) (h : host.Sound)
    (hholds : host.Holds j handle tree) : host.Keeps (host.calls A cs).2 j handle tree := by
  induction hp with
  | nil host => exact ⟨hholds, fun e _ => .refl _ e⟩
  | cons i script input rest ih =>
    have hfirst := keeps_parseCalls h A i script input hholds
    rw [calls_append]
    exact hfirst.trans (ih (h.calls A _) hfirst.holds)

/-- **A call that leaves the handle out keeps the result**, whatever it is. -/
theorem keeps_call (h : host.Sound) (c : Call n) (hholds : host.Holds j handle tree)
    (hlive : (host.calls A [c]).2.IsLive j handle) :
    host.Keeps (host.calls A [c]).2 j handle tree := by
  cases c with
  | run i script input => exact keeps_run h.owned A i script input hholds
  | release i handle' =>
    exact keeps_release h ((isLive_release h.owned).mp hlive).2 hholds

end Host

end TokenImage
