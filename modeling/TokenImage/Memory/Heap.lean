/-
# The heap

The memory that engines share: bytes by address, together with the blocks that are allocated and not
yet freed.  Where a new block goes is up to an `Allocator`; all that is known of one is that a new
block lies inside the address space and overlaps no block that is still live.  Nothing else in the
library knows more about addresses.  What engines run one after the other is up to one `Allocator`
for each run, so that a block may go somewhere else when the same heap is met again.

`alloc_eq_some`, `memory_free` and `memory_store` say what each operation does to the bytes.
-/
import TokenImage.Memory.Basic
import TokenImage.Memory.Cells

namespace TokenImage

/-! ## 1. Blocks -/

/-- A block of memory: its first address and its size in bytes. -/
structure Extent where
  base : Nat
  size : Nat
  deriving DecidableEq, Inhabited

/-- The number of addresses. -/
def addressSpace : Nat := 1 <<< 64

/-- The address of a block without bytes: not null, and never read. -/
def emptyBlock : Nat := 8

/-- Memory with the sizes of its live blocks by their first address; `top` bounds them all. -/
structure Heap where
  cells : Cells
  blocks : Std.TreeMap Nat Nat
  top : Nat
  block_le_top : ∀ base size, blocks[base]? = some size → base + size ≤ top

namespace Heap

/-- The heap on which nothing is allocated. -/
def empty : Heap where
  cells := .empty
  blocks := ∅
  top := 0
  block_le_top := by simp

instance : Inhabited Heap := ⟨empty⟩

/-- The bytes of the heap. -/
def memory (h : Heap) : Memory :=
  h.cells.get

/-- Whether a block is allocated and not yet freed. -/
def Live (h : Heap) (e : Extent) : Prop :=
  h.blocks[e.base]? = some e.size

/-- Whether a block of `size` bytes at `base` would lie in the address space, off the null pointer,
and overlap no live block. -/
structure Free (h : Heap) (base size : Nat) : Prop where
  base_pos : 0 < base
  end_le : base + size ≤ addressSpace
  disjoint : ∀ e, h.Live e → base + size ≤ e.base ∨ e.base + e.size ≤ base

end Heap

/-! ## 2. Where new blocks go -/

/-- A policy for placing new blocks; it may refuse, which is running out of memory.  It is asked while
one result or one tree is laid out.  The heap only grows meanwhile, so that the policy is never asked
twice about one heap, and could not make use of what it was asked before. -/
structure Allocator where
  place : Heap → Nat → Option Nat
  place_free : ∀ {h : Heap} {size base : Nat}, place h size = some base → h.Free base size

/-- A policy for each of the runs that share a heap, by the number of runs before it.  Blocks may have
been freed between two runs, so that both meet the same heap; they need not place a block alike. -/
structure Allocators where
  forRun : (runsBefore : Nat) → Allocator

namespace Allocator

/-- The least multiple of 16 from `n` on, but never 0. -/
def aligned (n : Nat) : Nat :=
  max 16 ((n + 15) / 16 * 16)

/-- **The ascending policy** puts each block above all earlier ones, aligned to 16. -/
def ascending : Allocator where
  place h size :=
    if aligned h.top + size ≤ addressSpace then some (aligned h.top) else none
  place_free := by
    intro h size base hp
    split at hp
    · rename_i hle
      obtain rfl := Option.some.inj hp
      refine ⟨by unfold aligned; omega, hle, fun e he => Or.inr ?_⟩
      have := h.block_le_top _ _ he
      unfold aligned
      omega
    · simp at hp

end Allocator

/-- The ascending policy, for every run. -/
def Allocators.ascending : Allocators :=
  ⟨fun _ => .ascending⟩

/-! ## 3. Operations -/

namespace Heap

/-- A new block that holds `contents`, if the policy finds room.  A block without bytes takes no
memory. -/
def alloc (A : Allocator) (h : Heap) (contents : List UInt8) : Option (Extent × Heap) :=
  match contents with
  | [] => some (⟨emptyBlock, 0⟩, h)
  | contents@(_ :: _) => do
    let base ← A.place h contents.length
    some (⟨base, contents.length⟩,
      { cells := h.cells.fill base contents
        blocks := h.blocks.insert base contents.length
        top := max h.top (base + contents.length)
        block_le_top := by
          intro b s hbs
          rw [Std.TreeMap.getElem?_insert] at hbs
          split at hbs
          · rename_i heq
            obtain rfl := Option.some.inj hbs
            have : base = b := by simpa using heq
            omega
          · have := h.block_le_top b s hbs
            omega })

/-- The heap without a block; giving back what is not a live block changes nothing. -/
def free (h : Heap) (e : Extent) : Heap :=
  if h.blocks[e.base]? = some e.size then
    { cells := h.cells.clear e.base e.size
      blocks := h.blocks.erase e.base
      top := h.top
      block_le_top := by
        intro b s hbs
        rw [Std.TreeMap.getElem?_erase] at hbs
        split at hbs
        · simp at hbs
        · exact h.block_le_top b s hbs }
  else h

/-- The heap without any of the given blocks. -/
def freeAll (h : Heap) (extents : List Extent) : Heap :=
  extents.foldl free h

/-- The heap after a write of bytes from `a` on. -/
def store (h : Heap) (a : Nat) (bs : List UInt8) : Heap :=
  { h with cells := h.cells.update a bs }

/-! ## 4. What the operations do to the bytes -/

/-- **A new block** is as large as its contents, was free before, and changes no byte outside. -/
theorem alloc_eq_some {A : Allocator} {h h' : Heap} {contents : List UInt8} {e : Extent}
    (hne : contents ≠ []) (ha : h.alloc A contents = some (e, h')) :
    e.size = contents.length ∧ h.Free e.base e.size ∧
      h'.blocks = h.blocks.insert e.base e.size ∧
      ∀ x, h'.memory x =
        if e.base ≤ x ∧ x < e.base + e.size then contents[x - e.base]? else h.memory x := by
  cases contents with
  | nil => exact absurd rfl hne
  | cons b bs =>
    simp only [alloc, Option.bind_eq_bind, Option.bind_eq_some_iff] at ha
    obtain ⟨base, hp, heq⟩ := ha
    obtain ⟨rfl, rfl⟩ := Prod.mk.inj (Option.some.inj heq)
    exact ⟨rfl, A.place_free hp, rfl, fun x => h.cells.get_fill base (b :: bs) x⟩

/-- A block without bytes leaves the heap alone. -/
theorem alloc_nil (A : Allocator) (h : Heap) : h.alloc A [] = some (⟨emptyBlock, 0⟩, h) := rfl

/-- **Giving back a live block** unmaps its addresses and no others. -/
theorem memory_free {h : Heap} {e : Extent} (he : h.Live e) (x : Nat) :
    (h.free e).memory x = if e.base ≤ x ∧ x < e.base + e.size then none else h.memory x := by
  unfold Live at he
  simp only [free, he, if_true]
  exact h.cells.get_clear e.base e.size x

/-- Giving back what is not live changes nothing. -/
theorem free_of_not_live {h : Heap} {e : Extent} (he : ¬ h.Live e) : h.free e = h :=
  if_neg he

/-- **A write to the heap is a write to its bytes.** -/
theorem memory_store (h : Heap) (a : Nat) (bs : List UInt8) :
    (h.store a bs).memory = h.memory.overwrite a bs := by
  funext x
  simp only [memory, store, Memory.overwrite, Cells.get_update]
  split
  · cases bs[x - a]? <;> rfl
  · rfl

end Heap

end TokenImage
