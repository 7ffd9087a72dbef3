/-
# Cells

A sparse store of bytes by address.  Addresses go by pages of 16 cells each, so that a change to a
run of neighbouring cells looks each page up only once; a page whose cells are all empty is not
kept.

`get_revise` says what a change to a run of cells does to each cell.
-/
import Std.Data.TreeMap

namespace TokenImage

/-! ## 1. Pages -/

/-- How many cells a page has. -/
def pageSize : Nat := 16

/-- The cells of a page in order; cells beyond the end of the list are empty. -/
abbrev Page := List (Option UInt8)

namespace Page

variable {α : Type}

/-- The cell at an offset. -/
def cell (page : Page) (i : Nat) : Option UInt8 :=
  page[i]?.join

/-- The first `room` cells of a page, where `f` has changed, for each value in turn, one cell from
the offset on. -/
@[specialize]
def revise (f : Option UInt8 → α → Option UInt8) : (room : Nat) → Page → Nat → List α → Page
  | 0, _, _, _ => []
  | room + 1, page, 0, [] => page.cell 0 :: revise f room page.tail 0 []
  | room + 1, page, 0, v :: vs => f (page.cell 0) v :: revise f room page.tail 0 vs
  | room + 1, page, offset + 1, vs => page.cell 0 :: revise f room page.tail offset vs

theorem cell_cons_succ (o : Option UInt8) (page : Page) (i : Nat) :
    cell (o :: page) (i + 1) = page.cell i := by
  simp [cell]

theorem cell_cons_zero (o : Option UInt8) (page : Page) : cell (o :: page) 0 = o := by
  simp [cell]

theorem cell_tail (page : Page) (i : Nat) : cell page.tail i = page.cell (i + 1) := by
  simp [cell]

theorem cell_revise (f : Option UInt8 → α → Option UInt8) (room : Nat) :
    ∀ (page : Page) (offset : Nat) (vs : List α) (i : Nat), i < room →
      (revise f room page offset vs).cell i =
        if offset ≤ i then (vs[i - offset]?).elim (page.cell i) (f (page.cell i))
        else page.cell i := by
  induction room with
  | zero => intro _ _ _ i hi; omega
  | succ room ih =>
    intro page offset vs i hi
    cases offset with
    | zero =>
      cases vs with
      | nil =>
        cases i with
        | zero => simp [revise, cell_cons_zero]
        | succ i =>
          rw [revise, cell_cons_succ, ih _ _ _ _ (by omega), cell_tail]
          simp
      | cons v vs =>
        cases i with
        | zero => simp [revise, cell_cons_zero]
        | succ i =>
          rw [revise, cell_cons_succ, ih _ _ _ _ (by omega), cell_tail]
          simp
    | succ offset =>
      cases i with
      | zero => simp [revise, cell_cons_zero]
      | succ i =>
        rw [revise, cell_cons_succ, ih _ _ _ _ (by omega), cell_tail]
        simp

/-- The page itself, unless its cells are all empty. -/
def kept (page : Page) : Option Page :=
  if page.all Option.isNone then none else some page

/-- The cell at an offset of a page that may be missing. -/
def cell? (page : Option Page) (i : Nat) : Option UInt8 :=
  cell (page.getD []) i

theorem cell?_kept (page : Page) (i : Nat) : cell? page.kept i = page.cell i := by
  unfold kept
  split
  · rename_i hall
    simp only [cell?, cell, Option.getD_none, List.getElem?_nil, Option.join_none]
    cases hp : page[i]? with
    | none => rfl
    | some o =>
      have := List.all_eq_true.mp hall o (List.mem_of_getElem? hp)
      simp_all
  · rfl

end Page

/-! ## 2. The store -/

/-- Bytes by address: the pages that are kept, by number. -/
structure Cells where
  pages : Std.TreeMap Nat Page

namespace Cells

variable {α : Type}

/-- The store in which all cells are empty. -/
def empty : Cells := ⟨∅⟩

/-- The cell at an address. -/
def get (c : Cells) (x : Nat) : Option UInt8 :=
  Page.cell? c.pages[x / pageSize]? (x % pageSize)

/-- The store where `f` has changed, for each value in turn, one cell from the offset in page `p`
on; this reaches into so many pages. -/
@[specialize]
def revisePages (f : Option UInt8 → α → Option UInt8) :
    (count : Nat) → Cells → (p offset : Nat) → List α → Cells
  | 0, c, _, _, _ => c
  | count + 1, c, p, offset, vs =>
    let revised := c.pages.alter p fun page =>
      (Page.revise f pageSize (page.getD []) offset vs).kept
    revisePages f count ⟨revised⟩ (p + 1) 0 (vs.drop (pageSize - offset))

/-- The store where `f` has changed, for each value in turn, one cell from `a` on. -/
@[specialize]
def revise (f : Option UInt8 → α → Option UInt8) (c : Cells) (a : Nat) (vs : List α) : Cells :=
  let offset := a % pageSize
  revisePages f ((offset + vs.length + pageSize - 1) / pageSize) c (a / pageSize) offset vs

theorem get_alter (c : Cells) (p : Nat) (g : Option Page → Page) (x : Nat) :
    get ⟨c.pages.alter p fun page => (g page).kept⟩ x =
      if x / pageSize = p then (g c.pages[p]?).cell (x % pageSize) else c.get x := by
  simp only [get, Std.TreeMap.getElem?_alter, Nat.compare_eq_eq]
  by_cases h : p = x / pageSize
  · rw [if_pos h, if_pos h.symm, Page.cell?_kept]
  · rw [if_neg h, if_neg fun h' => h h'.symm]

theorem get_revisePages (f : Option UInt8 → α → Option UInt8) (count : Nat) :
    ∀ (c : Cells) (p offset : Nat) (vs : List α) (x : Nat), offset < pageSize →
      offset + vs.length ≤ pageSize * count →
      (revisePages f count c p offset vs).get x =
        if pageSize * p + offset ≤ x
        then (vs[x - (pageSize * p + offset)]?).elim (c.get x) (f (c.get x))
        else c.get x := by
  induction count with
  | zero =>
    intro c p offset vs x _ hlen
    have hnil : vs = [] := List.eq_nil_of_length_eq_zero (by omega)
    simp [revisePages, hnil]
  | succ count ih =>
    intro c p offset vs x hoff hlen
    have hmod : pageSize * (x / pageSize) + x % pageSize = x := Nat.div_add_mod x pageSize
    have hlt : x % pageSize < pageSize := Nat.mod_lt x (by decide)
    have hpos : 0 < pageSize := by decide
    rw [Nat.mul_succ] at hlen
    rw [revisePages, ih _ _ _ _ _ hpos (by rw [List.length_drop]; omega), get_alter,
      Nat.mul_succ, List.getElem?_drop]
    rcases Nat.lt_trichotomy (x / pageSize) p with hp | hp | hp
    · have hle : pageSize * (x / pageSize) + pageSize ≤ pageSize * p := by
        rw [← Nat.mul_succ]
        exact Nat.mul_le_mul_left _ hp
      rw [if_neg (by omega), if_neg (by omega), if_neg (by omega)]
    · subst hp
      rw [if_neg (by omega), if_pos rfl, Page.cell_revise _ _ _ _ _ _ hlt]
      have hcell : Page.cell (c.pages[x / pageSize]?.getD []) (x % pageSize) = c.get x := rfl
      rw [hcell]
      by_cases hx : offset ≤ x % pageSize
      · rw [if_pos hx, if_pos (by omega)]
        congr 2
        omega
      · rw [if_neg hx, if_neg (by omega)]
    · have hle : pageSize * p + pageSize ≤ pageSize * (x / pageSize) := by
        rw [← Nat.mul_succ]
        exact Nat.mul_le_mul_left _ hp
      rw [if_pos (by omega), if_neg (by omega), if_pos (by omega)]
      congr 2
      omega

/-- **A change to a run of cells** reaches the cells of the run and no others. -/
theorem get_revise (f : Option UInt8 → α → Option UInt8) (c : Cells) (a : Nat) (vs : List α)
    (x : Nat) :
    (c.revise f a vs).get x =
      if a ≤ x then (vs[x - a]?).elim (c.get x) (f (c.get x)) else c.get x := by
  have hpos : 0 < pageSize := by decide
  have ha : pageSize * (a / pageSize) + a % pageSize = a := Nat.div_add_mod a pageSize
  have hcount : a % pageSize + vs.length ≤
      pageSize * ((a % pageSize + vs.length + pageSize - 1) / pageSize) := by
    have h₁ := Nat.div_add_mod (a % pageSize + vs.length + pageSize - 1) pageSize
    have h₂ := Nat.mod_lt (a % pageSize + vs.length + pageSize - 1) hpos
    omega
  rw [revise, get_revisePages f _ _ _ _ _ _ (Nat.mod_lt a hpos) hcount, ha]

/-! ## 3. Changes to runs of cells -/

/-- The store with bytes in its cells from `a` on. -/
def fill (c : Cells) (a : Nat) (bs : List UInt8) : Cells :=
  c.revise (fun _ b => some b) a bs

/-- The store with `n` cells from `a` on empty. -/
def clear (c : Cells) (a n : Nat) : Cells :=
  c.revise (fun _ _ => none) a (List.replicate n ())

/-- The store after a write of bytes from `a` on, of which empty cells take no note. -/
def update (c : Cells) (a : Nat) (bs : List UInt8) : Cells :=
  c.revise (fun old b => old.map fun _ => b) a bs

theorem get_fill (c : Cells) (a : Nat) (bs : List UInt8) (x : Nat) :
    (c.fill a bs).get x = if a ≤ x ∧ x < a + bs.length then bs[x - a]? else c.get x := by
  rw [fill, get_revise]
  by_cases ha : a ≤ x
  · by_cases hx : x < a + bs.length
    · rw [if_pos ha, if_pos ⟨ha, hx⟩, List.getElem?_eq_getElem (by omega), Option.elim_some]
    · rw [if_pos ha, if_neg fun h => hx h.2, List.getElem?_eq_none (by omega), Option.elim_none]
  · rw [if_neg ha, if_neg fun h => ha h.1]

theorem get_clear (c : Cells) (a n x : Nat) :
    (c.clear a n).get x = if a ≤ x ∧ x < a + n then none else c.get x := by
  rw [clear, get_revise, List.getElem?_replicate]
  by_cases ha : a ≤ x
  · by_cases hx : x < a + n
    · have hn : x - a < n := by omega
      rw [if_pos ha, if_pos hn, if_pos ⟨ha, hx⟩, Option.elim_some]
    · have hn : ¬ x - a < n := by omega
      rw [if_pos ha, if_neg hn, if_neg fun h => hx h.2, Option.elim_none]
  · rw [if_neg ha, if_neg fun h => ha h.1]

theorem get_update (c : Cells) (a : Nat) (bs : List UInt8) (x : Nat) :
    (c.update a bs).get x =
      if a ≤ x then (bs[x - a]?).elim (c.get x) (fun b => (c.get x).map fun _ => b)
      else c.get x := by
  rw [update, get_revise]

end Cells

end TokenImage
