/-
# Growing heaps

Laying something out is a number of allocations, each followed by writes into the new block.  Of the
heap before them it keeps all that is live: `Heap.Grows` says so for any number of allocations, and
names the new blocks.  The relation composes (`Grows.trans`), so that what is laid out first still
stands when the rest is laid out too.

* `grows_alloc` and `grows_allocRecord` are the two kinds of steps, with what the new block holds.
* `Allocator.Serves` says that a policy has room for blocks of given sizes, one after the other;
  then `Serves.alloc` and `Serves.allocRecord` say that the steps succeed.
* `ascending_serves` shows it of the ascending policy, from the sum of the sizes.

Blocks without bytes take no memory.  They are new blocks like any other here, but live or not only
blocks with bytes can be.
-/
import TokenImage.Proofs.Memory.Fields

namespace TokenImage

/-- A block whose addresses are in the address space, and are not null. -/
structure Extent.Addressable (e : Extent) : Prop where
  base_pos : 0 < e.base
  base_lt : e.base < addressSpace
  end_le : e.base + e.size ≤ addressSpace

theorem Extent.Addressable.size_lt {e : Extent} (h : e.Addressable) : e.size < addressSpace := by
  have := h.base_pos
  have := h.end_le
  omega

/-- **No address is in both blocks.**  A block without bytes is separate from every block. -/
def Extent.Separate (e b : Extent) : Prop :=
  ∀ x, e.base ≤ x → x < e.base + e.size → ¬ (b.base ≤ x ∧ x < b.base + b.size)

theorem Extent.Separate.symm {e b : Extent} (h : e.Separate b) : b.Separate e :=
  fun x hx hx' hb => h x hb.1 hb.2 ⟨hx, hx'⟩

/-- A block with bytes is not separate from itself. -/
theorem Extent.Separate.size_eq_zero {e : Extent} (h : e.Separate e) : e.size = 0 := by
  by_contra hne
  exact h e.base (Nat.le_refl _) (by omega) ⟨Nat.le_refl _, by omega⟩

namespace Heap

variable {A : Allocator} {h h' h'' : Heap} {e : Extent}

/-- A free block is separate from every live one. -/
theorem Free.separate (hfree : h.Free e.base e.size) {b : Extent} (hb : h.Live b) :
    e.Separate b := by
  intro x hx hx'
  have := hfree.disjoint b hb
  omega

/-! ## 1. Growth -/

/-- **No two live blocks overlap.** -/
def Apart (h : Heap) : Prop :=
  ∀ e e', h.Live e → h.Live e' → e ≠ e' → e.base + e.size ≤ e'.base ∨ e'.base + e'.size ≤ e.base

/-- **The heap has grown by the blocks `new`**: they were free and are live now, none of them shares
an address with another or with what was live, and all that was live is live still and has its
bytes. -/
structure Grows (h h' : Heap) (new : List Extent) : Prop where
  live_iff : ∀ e, 0 < e.size → (h'.Live e ↔ e ∈ new ∨ h.Live e)
  beside : ∀ e ∈ new, ∀ b, h.Live b → e.Separate b
  parted : new.Pairwise Extent.Separate
  fresh : ∀ e ∈ new, 0 < e.size → ¬ h.Live e
  addressable : ∀ e ∈ new, e.Addressable
  agree : ∀ e, h.Live e → h.memory.AgreeOn h'.memory e
  apart : h.Apart → h'.Apart

theorem Grows.refl (h : Heap) : h.Grows h [] where
  live_iff e _ := by simp
  beside e he := absurd he List.not_mem_nil
  parted := .nil
  fresh e he := absurd he List.not_mem_nil
  addressable e he := absurd he List.not_mem_nil
  agree e _ := .refl _ e
  apart := id

/-- **Growth composes.** -/
theorem Grows.trans {new new' : List Extent} (h₁ : h.Grows h' new) (h₂ : h'.Grows h'' new') :
    h.Grows h'' (new' ++ new) where
  live_iff e he := by
    rw [h₂.live_iff e he, h₁.live_iff e he, List.mem_append, or_assoc]
  beside e he b hb := by
    rcases List.mem_append.mp he with he | he
    · intro x hx hx' hin
      have hlive : h'.Live b := (h₁.live_iff b (by omega)).mpr (.inr hb)
      exact h₂.beside e he b hlive x hx hx' hin
    · exact h₁.beside e he b hb
  parted := by
    refine List.pairwise_append.mpr ⟨h₂.parted, h₁.parted, fun e he b hb x hx hx' hin => ?_⟩
    have hlive : h'.Live b := (h₁.live_iff b (by omega)).mpr (.inl hb)
    exact h₂.beside e he b hlive x hx hx' hin
  fresh e he hpos hlive := by
    rcases List.mem_append.mp he with he | he
    · exact h₂.fresh e he hpos ((h₁.live_iff e hpos).mpr (.inr hlive))
    · exact h₁.fresh e he hpos hlive
  addressable e he := by
    rcases List.mem_append.mp he with he | he
    · exact h₂.addressable e he
    · exact h₁.addressable e he
  agree e he x hx hx' := by
    have hlive : h'.Live e := (h₁.live_iff e (by omega)).mpr (.inr he)
    exact (h₁.agree e he x hx hx').trans (h₂.agree e hlive x hx hx')
  apart h := h₂.apart (h₁.apart h)

/-- New blocks keep their bytes when the heap grows further. -/
theorem Grows.agree_new {new new' : List Extent} (h₁ : h.Grows h' new) (h₂ : h'.Grows h'' new')
    (he : e ∈ new) : h'.memory.AgreeOn h''.memory e := by
  intro x hx hx'
  exact h₂.agree e ((h₁.live_iff e (by omega)).mpr (.inl he)) x hx hx'

/-! ## 2. One block -/

/-- A free block that becomes live overlaps no other one. -/
theorem Apart.of_free (h₀ : h.Apart) (hfree : h.Free e.base e.size)
    (hblocks : h'.blocks = h.blocks.insert e.base e.size) : h'.Apart := by
  have hlive : ∀ b, h'.Live b → b = e ∨ h.Live b := by
    intro b hb
    rw [Live, hblocks, Std.TreeMap.getElem?_insert] at hb
    split at hb
    · rename_i hbase
      left
      cases b
      cases e
      simp_all
    · exact .inr hb
  intro b b' hb hb' hne
  rcases hlive b hb with rfl | hold
  · rcases hlive b' hb' with rfl | hold'
    · exact absurd rfl hne
    · exact hfree.disjoint b' hold'
  · rcases hlive b' hb' with rfl | hold'
    · exact (hfree.disjoint b hold).symm
    · exact h₀ b b' hold hold' hne

/-- A free block that becomes live makes the heap grow, if no byte beside it changes. -/
theorem grows_of_free (hfree : h.Free e.base e.size) (hpos : 0 < e.size)
    (hblocks : h'.blocks = h.blocks.insert e.base e.size)
    (hmem : ∀ x, x < e.base ∨ e.base + e.size ≤ x → h'.memory x = h.memory x) :
    h.Grows h' [e] where
  live_iff b hb := by
    rw [Live, hblocks, Std.TreeMap.getElem?_insert, List.mem_singleton]
    by_cases hbase : e.base = b.base
    · rw [if_pos (by simpa using hbase)]
      constructor
      · intro hsize
        left
        cases b
        cases e
        simp_all
      · rintro (rfl | hlive)
        · rfl
        · have := hfree.disjoint b hlive
          omega
    · rw [if_neg (by simpa using hbase)]
      constructor
      · exact .inr
      · rintro (rfl | hlive)
        · exact absurd rfl hbase
        · exact hlive
  beside b hb c hc := by
    obtain rfl := List.mem_singleton.mp hb
    exact hfree.separate hc
  parted := List.pairwise_singleton ..
  fresh b hb _ hlive := by
    obtain rfl := List.mem_singleton.mp hb
    have := hfree.disjoint b hlive
    omega
  addressable b hb := by
    obtain rfl := List.mem_singleton.mp hb
    have := hfree.end_le
    exact ⟨hfree.base_pos, by omega, hfree.end_le⟩
  agree b hb x hx hx' := by
    have := hfree.disjoint b hb
    exact (hmem x (by omega)).symm
  apart h₀ := h₀.of_free hfree hblocks

/-- **A new block with contents** makes the heap grow and holds them. -/
theorem grows_alloc {contents : List UInt8} (ha : h.alloc A contents = some (e, h')) :
    h.Grows h' [e] ∧ e.size = contents.length ∧ h'.memory.BytesAt e.base contents := by
  by_cases hne : contents = []
  · subst hne
    rw [alloc_nil, Option.some.injEq, Prod.mk.injEq] at ha
    obtain ⟨rfl, rfl⟩ := ha
    refine ⟨⟨fun b hb => ?_, ?_, List.pairwise_singleton .., ?_, ?_, fun b _ => .refl _ b, id⟩, rfl,
      Memory.bytesAt_nil _⟩
    · rw [List.mem_singleton]
      constructor
      · exact .inr
      · rintro (rfl | hlive)
        · exact absurd hb (Nat.lt_irrefl 0)
        · exact hlive
    · intro b hb c _ x hx hx'
      obtain rfl := List.mem_singleton.mp hb
      exact absurd hx' (Nat.not_lt.mpr hx)
    · intro b hb hpos
      obtain rfl := List.mem_singleton.mp hb
      exact absurd hpos (Nat.lt_irrefl 0)
    · intro b hb
      obtain rfl := List.mem_singleton.mp hb
      exact ⟨by decide, by decide, by decide⟩
  · obtain ⟨hsize, hfree, hblocks, hmem⟩ := alloc_eq_some hne ha
    have hpos : 0 < e.size := by
      rw [hsize]
      exact List.length_pos_iff.mpr hne
    refine ⟨grows_of_free hfree hpos hblocks fun x hx => ?_, hsize, fun i hi => ?_⟩
    · rw [hmem, if_neg (by omega)]
    · rw [hmem, if_pos (by omega), Nat.add_sub_cancel_left, List.getElem?_eq_getElem hi]

theorem blocks_storeFields (fields : FieldWrites) (h : Heap) (a : Nat) :
    (h.storeFields a fields).blocks = h.blocks := by
  induction fields generalizing h with
  | nil => rfl
  | cons field fields ih => exact ih (h.store (a + field.1) field.2)

theorem top_storeFields (fields : FieldWrites) (h : Heap) (a : Nat) :
    (h.storeFields a fields).top = h.top := by
  induction fields generalizing h with
  | nil => rfl
  | cons field fields ih => exact ih (h.store (a + field.1) field.2)

/-- **A new record** makes the heap grow and holds its fields. -/
theorem grows_allocRecord {size : Nat} {fields : FieldWrites} (hpos : 0 < size)
    (hfit : fields.Fit size) (ha : h.allocRecord A size fields = some (e, h')) :
    h.Grows h' [e] ∧ e.size = size ∧ h'.memory.FieldsAt e.base fields := by
  simp only [allocRecord, Option.bind_eq_bind, Option.bind_eq_some_iff, Prod.exists,
    Option.some.injEq, Prod.mk.injEq] at ha
  obtain ⟨e₁, h₁, ha, rfl, rfl⟩ := ha
  have hne : List.replicate size (0 : UInt8) ≠ [] := by
    intro hnil
    have := congrArg List.length hnil
    simp only [List.length_replicate, List.length_nil] at this
    omega
  obtain ⟨hsize, hfree, hblocks, hmem⟩ := alloc_eq_some hne ha
  obtain ⟨-, -, hbytes⟩ := grows_alloc ha
  rw [List.length_replicate] at hsize
  have hmapped : h₁.memory.Mapped e₁.base size := by
    have := hbytes.mapped
    rwa [List.length_replicate] at this
  refine ⟨grows_of_free hfree (by omega) ?_ fun x hx => ?_, hsize, ?_⟩
  · rw [blocks_storeFields, hblocks]
  · rw [memory_storeFields, Memory.overwriteFields_of_outside hfit.inside (by omega), hmem,
      if_neg (by omega)]
  · rw [memory_storeFields]
    exact Memory.fieldsAt_overwriteFields hmapped hfit

/-! ## 3. Room -/

/-- The heap `h'` has the blocks of `h` and one more, whatever its bytes are. -/
structure Takes (h : Heap) (e : Extent) (h' : Heap) : Prop where
  blocks : h'.blocks = h.blocks.insert e.base e.size
  top : h'.top = max h.top (e.base + e.size)

end Heap

namespace Allocator

variable {A : Allocator} {h : Heap} {sizes : List Nat}

/-- **The policy has room** on the heap for blocks of these sizes, one after the other, whatever is
written into them on the way. -/
def Serves (A : Allocator) : List Nat → Heap → Prop
  | [], _ => True
  | 0 :: sizes, h => A.Serves sizes h
  | (size + 1) :: sizes, h =>
    ∃ base, A.place h (size + 1) = some base ∧
      ∀ h', h.Takes ⟨base, size + 1⟩ h' → A.Serves sizes h'

/-- Where there is room a block is allocated, and there is room for the rest. -/
theorem Serves.alloc {contents : List UInt8} (hroom : A.Serves (contents.length :: sizes) h) :
    ∃ e h', h.alloc A contents = some (e, h') ∧ A.Serves sizes h' := by
  cases contents with
  | nil => exact ⟨_, h, Heap.alloc_nil A h, hroom⟩
  | cons b bs =>
    obtain ⟨base, hplace, hrest⟩ := hroom
    simp only [Heap.alloc, Option.bind_eq_bind, List.length_cons, hplace, Option.bind_some]
    exact ⟨_, _, rfl, hrest _ ⟨rfl, rfl⟩⟩

/-- Where there is room a record is allocated, and there is room for the rest. -/
theorem Serves.allocRecord {size : Nat} (fields : FieldWrites) (hpos : 0 < size)
    (hroom : A.Serves (size :: sizes) h) :
    ∃ e h', h.allocRecord A size fields = some (e, h') ∧ A.Serves sizes h' := by
  obtain ⟨k, rfl⟩ : ∃ k, size = k + 1 := ⟨size - 1, by omega⟩
  obtain ⟨base, hplace, hrest⟩ := hroom
  simp only [Heap.allocRecord, List.replicate_succ, Heap.alloc, Option.bind_eq_bind,
    List.length_cons, List.length_replicate, hplace, Option.bind_some]
  exact ⟨_, _, rfl, hrest _ ⟨Heap.blocks_storeFields .., Heap.top_storeFields ..⟩⟩

/-- **The ascending policy has room** where the sizes, with 16 bytes for each block besides, fit
above the heap. -/
theorem ascending_serves (hle : h.top + (sizes.map (· + 16)).sum ≤ addressSpace) :
    ascending.Serves sizes h := by
  induction sizes generalizing h with
  | nil => trivial
  | cons size sizes ih =>
    rw [List.map_cons, List.sum_cons] at hle
    cases size with
    | zero => exact ih (by omega)
    | succ size =>
      have haligned : aligned h.top ≤ h.top + 16 := by
        unfold aligned
        omega
      have hplace : ascending.place h (size + 1) = some (aligned h.top) :=
        if_pos (by omega)
      refine ⟨aligned h.top, hplace, fun h' htakes => ih ?_⟩
      rw [htakes.top]
      simp only
      omega

end Allocator

end TokenImage
