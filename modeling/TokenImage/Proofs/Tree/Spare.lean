/-
# What a node has besides what is read of it

Two nodes may be laid out in different blocks and be read alike.  The slots that an element array has
to spare are counted and filled with null pointers, but no walk comes to them; and where a null node
was placed is written nowhere.  `Node.bare` is a node without all that, and `read_bare` says that a
walk gives the same for it.

The slots to spare matter once, when there are more of them than can be asked for.  `Node.countSlots`
is that question alone, over all element arrays in the order in which they are laid out, and
`countSlots_of_add` says that it is answered for every node that has been laid out.
-/
import TokenImage.Proofs.Tree.Reading

namespace TokenImage

namespace Node

/-! ## 1. Bare nodes -/

mutual

/-- **A node without slots to spare**, and without the places of null nodes. -/
def bare : Node → Node
  | ⟨.null, _, _, _⟩ => { shape := .null }
  | ⟨.tagged tag, index, bitOffset, _⟩ => { shape := .tagged tag, index, bitOffset }
  | ⟨.none, index, bitOffset, _⟩ => { shape := .none, index, bitOffset }
  | ⟨.bytes span, index, bitOffset, _⟩ => { shape := .bytes span, index, bitOffset }
  | ⟨.signed number, index, bitOffset, _⟩ => { shape := .signed number, index, bitOffset }
  | ⟨.unsigned number, index, bitOffset, _⟩ => { shape := .unsigned number, index, bitOffset }
  | ⟨.sequence items, index, bitOffset, _⟩ =>
    { shape := .sequence (bareAll items), index, bitOffset }

/-- The nodes of a list without slots to spare, in order. -/
def bareAll : List Node → List Node
  | [] => []
  | n :: ns => bare n :: bareAll ns

end

mutual

/-- **A walk gives the same for a bare node.** -/
theorem read_bare : ∀ (n : Node) (room : Nat), n.bare.read room = n.read room
  | ⟨shape, _, _, _⟩, 0 => by
    rw [read]
    cases shape with
    | null | tagged | none | bytes | signed | unsigned | sequence => rw [bare, read]
  | ⟨.null, _, _, _⟩, room + 1 => by rw [bare, read, read]
  | ⟨.tagged _, _, _, _⟩, room + 1 => by rw [bare, read, read]
  | ⟨.none, _, _, _⟩, room + 1 => by rw [bare, read, read]
  | ⟨.bytes _, _, _, _⟩, room + 1 => by rw [bare, read, read]
  | ⟨.signed _, _, _, _⟩, room + 1 => by rw [bare, read, read]
  | ⟨.unsigned _, _, _, _⟩, room + 1 => by rw [bare, read, read]
  | ⟨.sequence items, _, _, _⟩, room + 1 => by
    rw [bare, read, read, readAll_bareAll items room]

/-- A walk gives the same for bare nodes in a row. -/
theorem readAll_bareAll : ∀ (ns : List Node) (room : Nat),
    readAll room (bareAll ns) = readAll room ns
  | [], _ => by rw [bareAll]
  | n :: ns, room => by
    rw [bareAll, readAll, readAll, read_bare n room, readAll_bareAll ns room]

end

/-! ## 2. The question for slots -/

mutual

/-- **Whether the slots of all element arrays can be asked for**; if not, how the first of them fails,
in the order in which they are laid out. -/
def countSlots : Node → Except AllocationFailure Unit
  | ⟨.sequence items, _, _, spare⟩ => do
    countAllSlots items
    let _ ← BuildSite.slotCount items.length spare
    pure ()
  | _ => pure ()

/-- The same for the nodes of a list, in order. -/
def countAllSlots : List Node → Except AllocationFailure Unit
  | [] => pure ()
  | n :: ns => do
    countSlots n
    countAllSlots ns

end

end Node

open AllocationFailure BuildSite

variable {A : Allocator}

mutual

/-- **A node that has been laid out had slots that could be asked for.** -/
theorem countSlots_of_add : ∀ (n : Node) {site site' : BuildSite} {p : Nat},
    add A site n = .ok (p, site') → n.countSlots = .ok ()
  | ⟨.null, _, _, _⟩, _, _, _, _ => rfl
  | ⟨.tagged _, _, _, _⟩, _, _, _, _ => rfl
  | ⟨.none, _, _, _⟩, _, _, _, _ => rfl
  | ⟨.bytes _, _, _, _⟩, _, _, _, _ => rfl
  | ⟨.signed _, _, _, _⟩, _, _, _, _ => rfl
  | ⟨.unsigned _, _, _, _⟩, _, _, _, _ => rfl
  | ⟨.sequence items, _, _, _⟩, site, site', p, h => by
    simp only [add, addSequence, bind_eq_ok_iff, Prod.exists] at h
    obtain ⟨pointers, site₁, hitems, capacity, hcount, -⟩ := h
    obtain ⟨hall, hlength⟩ := countAllSlots_of_addAll items hitems
    rw [hlength] at hcount
    simp only [Node.countSlots, bind_eq_ok_iff]
    exact ⟨(), hall, capacity, hcount, rfl⟩

/-- So had nodes that have been laid out in a row, each at a pointer of its own. -/
theorem countAllSlots_of_addAll : ∀ (ns : List Node) {site site' : BuildSite} {pointers : List Nat},
    addAll A site ns = .ok (pointers, site') →
    Node.countAllSlots ns = .ok () ∧ pointers.length = ns.length
  | [], site, site', pointers, h => by
    rw [addAll] at h
    obtain ⟨rfl, rfl⟩ := Prod.mk.inj (Except.ok.inj h)
    rw [Node.countAllSlots]
    exact ⟨rfl, rfl⟩
  | n :: ns, site, site', pointers, h => by
    simp only [addAll, bind_eq_ok_iff, Prod.exists] at h
    obtain ⟨p, site₁, hn, ps, site₂, hns, h⟩ := h
    obtain ⟨rfl, rfl⟩ := Prod.mk.inj (Except.ok.inj h)
    obtain ⟨hall, hlength⟩ := countAllSlots_of_addAll ns hns
    simp only [Node.countAllSlots, bind_eq_ok_iff]
    exact ⟨⟨(), countSlots_of_add n hn, hall⟩, by rw [List.length_cons, List.length_cons, hlength]⟩

end

end TokenImage
