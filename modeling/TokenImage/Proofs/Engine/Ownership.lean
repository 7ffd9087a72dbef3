/-
# Results own their blocks

A result that is out owns blocks of the heap: its record, and what its tree has allocated.  The
heap promises for a new block only that it overlaps no live one; what follows for handles is shown
here.  In every host that is reached by calls (`Owned`), all blocks of the results that are out are
live, and no two results share one.  So a handle is out on one engine at most (`Owned.eq_of_isLive`),
a new handle differs from all that are out (`Owned.not_isLive_new`), and the end of one result leaves
the blocks of the others alone.

`Owned.run` and `Owned.release` are the steps.
-/
import TokenImage.Proofs.Engine.Calls
import TokenImage.Proofs.Engine.Results

namespace TokenImage

/-! ## 1. Giving blocks back -/

namespace Heap

variable {h : Heap} {e b : Extent}

/-- Giving back one block leaves every other one live. -/
theorem Live.free (he : h.Live e) (hne : e ≠ b) : (h.free b).Live e := by
  by_cases hb : h.Live b
  · have hbase : b.base ≠ e.base := by
      intro hbase
      unfold Live at he hb
      rw [hbase, he] at hb
      cases e
      cases b
      simp_all
    unfold Live at he hb ⊢
    rw [Heap.free, if_pos hb]
    change (h.blocks.erase b.base)[e.base]? = some e.size
    rw [Std.TreeMap.getElem?_erase, if_neg (by simpa using hbase)]
    exact he
  · rwa [free_of_not_live hb]

/-- Giving back blocks leaves every other one live. -/
theorem Live.freeAll {blocks : List Extent} (he : h.Live e) (hnot : e ∉ blocks) :
    (h.freeAll blocks).Live e := by
  induction blocks generalizing h with
  | nil => exact he
  | cons b blocks ih =>
    rw [List.mem_cons, not_or] at hnot
    exact ih (he.free hnot.1) hnot.2

/-- The end of a result leaves every block live that is not one of its own. -/
theorem Live.freeResult {handle : Nat} {tree : Option ForeignTree} (he : h.Live e)
    (hnot : e ∉ resultBlocks handle tree) : (h.freeResult handle tree).Live e := by
  rw [resultBlocks, List.mem_cons, not_or] at hnot
  obtain ⟨hrecord, htree⟩ := hnot
  cases tree with
  | none => exact he.free hrecord
  | some t => exact (he.freeAll htree).free hrecord

end Heap

/-! ## 2. What is out -/

namespace Host

variable {n : Nat} {A : Allocator} {host : Host n} {i j : Fin n}

/-- The engine has this handle out, and the tree belongs to it. -/
def Holds (host : Host n) (i : Fin n) (handle : Nat) (tree : Option ForeignTree) : Prop :=
  (host.engine i).live[handle]? = some tree

/-- The engine has this handle out. -/
def IsLive (host : Host n) (i : Fin n) (handle : Nat) : Prop :=
  handle ∈ (host.engine i).live

theorem isLive_iff {handle : Nat} : host.IsLive i handle ↔ ∃ tree, host.Holds i handle tree := by
  rw [IsLive, ← Std.TreeMap.isSome_getElem?_iff_mem, Option.isSome_iff_exists]
  rfl

theorem not_isLive_iff {handle : Nat} :
    ¬ host.IsLive i handle ↔ (host.engine i).live[handle]? = none := by
  rw [IsLive, ← Std.TreeMap.isSome_getElem?_iff_mem, Bool.not_eq_true, Option.isSome_eq_false_iff,
    Option.isNone_iff_eq_none]

/-- **Results own their blocks**: no handle is null, all blocks of a result are live, and different
results have different blocks. -/
structure Owned (host : Host n) : Prop where
  ne_zero : ∀ {i handle}, host.IsLive i handle → handle ≠ 0
  live : ∀ {i handle tree}, host.Holds i handle tree → ∀ e ∈ resultBlocks handle tree, 0 < e.size →
    host.heap.Live e
  apart : ∀ {i j handle handle' tree tree'}, host.Holds i handle tree →
    host.Holds j handle' tree' → (i, handle) ≠ (j, handle') → ∀ e ∈ resultBlocks handle tree,
    0 < e.size → e ∉ resultBlocks handle' tree'

/-- **A handle is out on one engine at most.** -/
theorem Owned.eq_of_isLive (h : host.Owned) {handle : Nat} (hi : host.IsLive i handle)
    (hj : host.IsLive j handle) : i = j := by
  obtain ⟨tree, htree⟩ := isLive_iff.mp hi
  obtain ⟨tree', htree'⟩ := isLive_iff.mp hj
  by_contra hne
  have hpair : (i, handle) ≠ (j, handle) := fun heq => hne (congrArg Prod.fst heq)
  exact h.apart htree htree' hpair _ List.mem_cons_self (show 0 < 24 by decide) List.mem_cons_self

/-- **A new handle is not out anywhere.** -/
theorem Owned.not_isLive_new (h : host.Owned) {reply : Reply} {inputLength handle : Nat}
    {tree : Option ForeignTree} {heap : Heap}
    (ha : host.heap.allocResult A reply inputLength = .ok (handle, tree, heap)) (j : Fin n) :
    ¬ host.IsLive j handle := by
  intro hlive
  obtain ⟨tree', htree'⟩ := isLive_iff.mp hlive
  have hpos : 0 < resultLayout.size := by decide
  have hold := h.live htree' ⟨handle, resultLayout.size⟩ List.mem_cons_self hpos
  exact (Heap.grows_allocResult ha).fresh _ List.mem_cons_self hpos hold

theorem owned_start (n : Nat) : (start n).Owned := by
  have hnone : ∀ i handle, ¬ (start n).IsLive i handle := by
    intro i handle hlive
    simp [IsLive] at hlive
  refine ⟨fun hlive => absurd hlive (hnone _ _), fun hholds => ?_, fun hholds => ?_⟩
  · exact absurd (isLive_iff.mpr ⟨_, hholds⟩) (hnone _ _)
  · exact absurd (isLive_iff.mpr ⟨_, hholds⟩) (hnone _ _)

/-! ## 3. Steps -/

/-- Changes that touch neither the heap nor what is out leave ownership alone. -/
theorem Owned.withEngine (h : host.Owned) {f : Engine → Engine} (hf : ∀ e, (f e).live = e.live) :
    (host.withEngine i f).Owned := by
  have hlive : ∀ j : Fin n, ((host.withEngine i f).engine j).live = (host.engine j).live := by
    intro j
    rw [engine_withEngine]
    split
    · rename_i hij
      subst hij
      rw [hf]
    · rfl
  have hholds : ∀ {j handle tree}, (host.withEngine i f).Holds j handle tree →
      host.Holds j handle tree := by
    intro j handle tree hholds
    rwa [Holds, hlive] at hholds
  refine ⟨fun hisLive => ?_, fun hh => h.live (hholds hh), fun hh hh' =>
    h.apart (hholds hh) (hholds hh')⟩
  rw [IsLive, hlive] at hisLive
  exact h.ne_zero hisLive

section HandOut

variable {reply : Reply} {inputLength handle : Nat} {tree : Option ForeignTree} {heap : Heap}
  {f : Engine → Engine}

/-- After a result is handed out, there is the new handle and there are the old ones. -/
theorem holds_handOut (hf : ∀ e, (f e).live = e.live.insert handle tree) {handle' : Nat}
    {tree' : Option ForeignTree} :
    ({ host with heap }.withEngine i f).Holds j handle' tree' ↔
      if i = j ∧ handle = handle' then tree = tree' else host.Holds j handle' tree' := by
  rw [Holds, engine_withEngine]
  by_cases hij : i = j
  · subst hij
    rw [if_pos rfl, hf, Std.TreeMap.getElem?_insert]
    by_cases hhandle : handle = handle'
    · simp [hhandle]
    · simp [hhandle, Holds]
  · simp [hij, Holds]

theorem Owned.handOut (h : host.Owned) (hf : ∀ e, (f e).live = e.live.insert handle tree)
    (ha : host.heap.allocResult A reply inputLength = .ok (handle, tree, heap)) :
    ({ host with heap }.withEngine i f).Owned := by
  have hgrows := Heap.grows_allocResult ha
  have hold : ∀ {j handle' tree'}, host.Holds j handle' tree' → ∀ e ∈ resultBlocks handle' tree',
      0 < e.size → e ∉ resultBlocks handle tree := by
    intro j handle' tree' hholds e he hpos hnew
    exact hgrows.fresh e hnew hpos (h.live hholds e he hpos)
  refine ⟨fun {j handle'} hlive => ?_, fun {j handle' tree'} hholds e he hpos => ?_,
    fun {j j' handle₁ handle₂ tree₁ tree₂} hholds₁ hholds₂ hne e he hpos => ?_⟩
  · obtain ⟨tree', hholds⟩ := isLive_iff.mp hlive
    rw [holds_handOut hf] at hholds
    split at hholds
    · rename_i hnew
      rw [← hnew.2]
      exact Nat.ne_of_gt (Heap.handle_pos ha)
    · exact h.ne_zero (isLive_iff.mpr ⟨tree', hholds⟩)
  · rw [holds_handOut hf] at hholds
    refine (hgrows.live_iff e hpos).mpr ?_
    split at hholds
    · rename_i hnew
      obtain ⟨-, rfl⟩ := hnew
      subst hholds
      exact .inl he
    · exact .inr (h.live hholds e he hpos)
  · rw [holds_handOut hf] at hholds₁ hholds₂
    split at hholds₁
    · rename_i hnew₁
      obtain ⟨rfl, rfl⟩ := hnew₁
      subst hholds₁
      split at hholds₂
      · rename_i hnew₂
        exact absurd (Prod.ext hnew₂.1 hnew₂.2) hne
      · exact fun he₂ => hold hholds₂ e he₂ hpos he
    · split at hholds₂
      · rename_i hnew₂
        obtain ⟨rfl, rfl⟩ := hnew₂
        subst hholds₂
        exact hold hholds₁ e he hpos
      · exact h.apart hholds₁ hholds₂ hne e he hpos

end HandOut

/-- After a handle is taken back, there are the others. -/
theorem holds_takeBack {heap : Heap} {f : Engine → Engine} {handle handle' : Nat}
    {tree' : Option ForeignTree} (hf : ∀ e, (f e).live = e.live.erase handle) :
    ({ host with heap }.withEngine i f).Holds j handle' tree' ↔
      (i, handle) ≠ (j, handle') ∧ host.Holds j handle' tree' := by
  rw [Holds, engine_withEngine]
  by_cases hij : i = j
  · subst hij
    rw [if_pos rfl, hf, Std.TreeMap.getElem?_erase]
    by_cases hhandle : handle = handle'
    · simp [hhandle]
    · simp [hhandle, Holds]
  · simp [hij, Holds]

theorem Owned.takeBack (h : host.Owned) {f : Engine → Engine} {handle : Nat}
    {tree : Option ForeignTree} (hf : ∀ e, (f e).live = e.live.erase handle)
    (hholds : host.Holds i handle tree) :
    ({ host with heap := host.heap.freeResult handle tree }.withEngine i f).Owned := by
  refine ⟨fun hlive => ?_, fun hholds' e he hpos => ?_, fun hholds₁ hholds₂ => ?_⟩
  · obtain ⟨tree', hholds'⟩ := isLive_iff.mp hlive
    exact h.ne_zero (isLive_iff.mpr ⟨tree', ((holds_takeBack hf).mp hholds').2⟩)
  · obtain ⟨hne, hholds'⟩ := (holds_takeBack hf).mp hholds'
    exact (h.live hholds' e he hpos).freeResult (h.apart hholds' hholds hne.symm e he hpos)
  · exact h.apart ((holds_takeBack hf).mp hholds₁).2 ((holds_takeBack hf).mp hholds₂).2

/-- **A run keeps ownership.** -/
theorem Owned.run (h : host.Owned) (A : Allocators) (i : Fin n) (script : Script)
    (input : List UInt8) : ((Host.run A i script input).run host).state.Owned := by
  rcases run_cases A i script input host with
    ⟨text, hrun⟩ | ⟨failure, hrun⟩ | hrun | ⟨reply, handle, tree, heap, ha, hrun⟩
  · rw [hrun]
    exact h.withEngine fun e => rfl
  · rw [hrun]
    exact h.withEngine fun e => rfl
  · rw [hrun]
    exact h.withEngine fun e => rfl
  · rw [hrun]
    exact h.handOut (f := fun e => e.countRun.handOut handle tree) (fun e => rfl) ha

/-- **A release keeps ownership.** -/
theorem Owned.release (h : host.Owned) (i : Fin n) (handle : Nat) :
    ((Host.release i handle).run host).state.Owned := by
  rcases release_cases i handle host with
    ⟨-, hrun⟩ | ⟨tree, -, hholds, hrun⟩ | ⟨-, -, hrun⟩
  · rw [hrun]
    exact h.withEngine fun e => rfl
  · rw [hrun]
    exact h.takeBack (f := fun e => e.countRelease.takeBack handle) (fun e => rfl) hholds
  · rw [hrun]
    exact h.withEngine (f := fun e => e.countRelease.countUnknown) fun e => rfl

end Host

end TokenImage
