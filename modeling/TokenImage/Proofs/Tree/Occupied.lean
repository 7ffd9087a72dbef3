/-
# The blocks of a node

`Laid` says that a node lies in blocks that are among given ones.  Here the blocks are counted: a
node that is laid out has certain blocks of its own, and `Occupies` lists them all, each once, in the
order in which a tree remembers them.  A token has its record; a byte token has a buffer besides, and
a sequence its array, its slots and all that its items have.  A null node has nothing.

* `occupies_transfer` is the frame, as it is for `Laid`.
* `laid_of_occupies` forgets how many blocks there are, and `countP_of_occupies` counts those that
  are tokens.
-/
import TokenImage.Proofs.Tree.Laid

namespace TokenImage

/-! ## 1. Nodes by their payload -/

namespace Node

/-- The tag and the payload of a node whose payload is one word and leads nowhere. -/
def word? (n : Node) : Option (Tag × UInt64) :=
  match n.shape with
  | .tagged tag => some (tag, 0)
  | .none => some (.none, 0)
  | .signed number => some (.signed, number.toUInt64)
  | .unsigned number => some (.unsigned, number)
  | .null | .bytes _ | .sequence _ => none

mutual

/-- The number of tokens that a node describes, null nodes not counted. -/
def tokenCount : Node → Nat
  | ⟨.null, _, _, _⟩ => 0
  | ⟨.sequence items, _, _, _⟩ => allTokenCount items + 1
  | _ => 1

/-- The number of tokens that the nodes of a list describe. -/
def allTokenCount : List Node → Nat
  | [] => 0
  | n :: ns => tokenCount n + allTokenCount ns

end

theorem tokenCount_of_word {n : Node} {tag : Tag} {word : UInt64}
    (hn : n.word? = some (tag, word)) : n.tokenCount = 1 := by
  obtain ⟨shape, index, bitOffset, spare⟩ := n
  cases shape with
  | null | bytes | sequence => cases hn
  | tagged | none | signed | unsigned => rw [tokenCount] <;> simp

end Node

namespace Memory

/-! ## 2. The relation -/

mutual

/-- **The node is laid out at the pointer and has exactly these blocks**, the latest first. -/
inductive Occupies (m : Memory) : Nat → Node → List OwnedBlock → Prop
  | null {index : UInt64} {bitOffset : Int8} {spare : Nat} :
      Occupies m 0 ⟨.null, index, bitOffset, spare⟩ []
  | word {p : Nat} {n : Node} {tag : Tag} {word : UInt64} (hn : n.word? = some (tag, word))
      (hrecord : m.RecordAt [⟨p, 48⟩] p
        { tag, payload := .word word, index := n.index, bitOffset := n.bitOffset }) :
      Occupies m p n [⟨.token, ⟨p, 48⟩⟩]
  | bytes {p : Nat} {span : List UInt8} {buffer : Extent} {index : UInt64} {bitOffset : Int8}
      {spare : Nat}
      (hrecord : m.RecordAt [⟨p, 48⟩] p
        { tag := .bytes, payload := .span buffer.base span.length, index, bitOffset })
      (hbuffer : m.BufferAt [buffer] buffer span) :
      Occupies m p ⟨.bytes span, index, bitOffset, spare⟩
        [⟨.token, ⟨p, 48⟩⟩, ⟨.buffer, buffer⟩]
  | sequence {p array : Nat} {elements : Extent} {pointers : List Nat} {items : List Node}
      {index : UInt64} {bitOffset : Int8} {spare : Nat} {owned : List OwnedBlock}
      (hrecord : m.RecordAt [⟨p, 48⟩] p
        { tag := .sequence, payload := .word array.toUInt64, index, bitOffset })
      (hslots : m.SlotsLaid [⟨array, 32⟩, elements] array elements pointers spare)
      (hitems : OccupiesAll m pointers items owned) :
      Occupies m p ⟨.sequence items, index, bitOffset, spare⟩
        (⟨.token, ⟨p, 48⟩⟩ :: ⟨.array, ⟨array, 32⟩⟩ :: ⟨.elements, elements⟩ :: owned)

/-- The nodes are laid out at the pointers, one each, and have exactly these blocks together. -/
inductive OccupiesAll (m : Memory) : List Nat → List Node → List OwnedBlock → Prop
  | nil : OccupiesAll m [] [] []
  | cons {p : Nat} {n : Node} {new later : List OwnedBlock} {pointers : List Nat} {ns : List Node}
      (hn : Occupies m p n new) (hns : OccupiesAll m pointers ns later) :
      OccupiesAll m (p :: pointers) (n :: ns) (later ++ new)

end

/-! ## 3. The frame -/

section Frame

variable {m m' : Memory}

mutual

/-- **A node keeps its blocks** where they keep their bytes. -/
theorem occupies_transfer {p : Nat} {n : Node} {owned : List OwnedBlock} :
    m.Occupies p n owned → (∀ b ∈ owned, m.AgreeOn m' b.extent) → m'.Occupies p n owned
  | .null, _ => .null
  | .word hn h, hagree => .word hn (h.transfer (List.Subset.refl _) (by simpa using hagree))
  | .bytes h hbuffer, hagree => by
    simp only [List.forall_mem_cons] at hagree
    exact .bytes (h.transfer (List.Subset.refl _) (by simpa using hagree.1))
      (hbuffer.transfer (List.Subset.refl _) (by simpa using hagree.2.1))
  | .sequence h hslots hitems, hagree => by
    simp only [List.forall_mem_cons] at hagree
    obtain ⟨htoken, harray, helements, hagree⟩ := hagree
    exact .sequence (h.transfer (List.Subset.refl _) (by simpa using htoken))
      (hslots.transfer (List.Subset.refl _) (by simpa using ⟨harray, helements⟩))
      (occupiesAll_transfer hitems hagree)

theorem occupiesAll_transfer {pointers : List Nat} {ns : List Node} {owned : List OwnedBlock} :
    m.OccupiesAll pointers ns owned → (∀ b ∈ owned, m.AgreeOn m' b.extent) →
      m'.OccupiesAll pointers ns owned
  | .nil, _ => .nil
  | .cons hn hns, hagree => by
    rw [List.forall_mem_append] at hagree
    exact .cons (occupies_transfer hn hagree.2) (occupiesAll_transfer hns hagree.1)

end

end Frame

/-! ## 4. What follows -/

section Forget

variable {m : Memory}

/-- A word in a record of its own is a node laid out. -/
theorem RecordAt.laid_word {blocks : List Extent} {p : Nat} {n : Node} {tag : Tag} {word : UInt64}
    (hn : n.word? = some (tag, word))
    (h : m.RecordAt blocks p
      { tag, payload := .word word, index := n.index, bitOffset := n.bitOffset }) :
    m.Laid blocks p n := by
  obtain ⟨shape, index, bitOffset, spare⟩ := n
  cases shape with
  | null | bytes | sequence => cases hn
  | tagged =>
    obtain ⟨rfl, rfl⟩ := Prod.mk.inj (Option.some.inj hn)
    exact .tagged h
  | none =>
    obtain ⟨rfl, rfl⟩ := Prod.mk.inj (Option.some.inj hn)
    exact .none h
  | signed =>
    obtain ⟨rfl, rfl⟩ := Prod.mk.inj (Option.some.inj hn)
    exact .signed h
  | unsigned =>
    obtain ⟨rfl, rfl⟩ := Prod.mk.inj (Option.some.inj hn)
    exact .unsigned h

mutual

/-- A node that occupies blocks is laid out in them. -/
theorem laid_of_occupies {p : Nat} {n : Node} {owned : List OwnedBlock} :
    m.Occupies p n owned → m.Laid (owned.map OwnedBlock.extent) p n
  | .null => .null
  | .word hn h => h.laid_word hn
  | .bytes h hbuffer =>
    .bytes (h.transfer (by simp) fun e _ => .refl _ e)
      (hbuffer.transfer (by simp) fun e _ => .refl _ e)
  | .sequence h hslots hitems => by
    refine .sequence (h.transfer (by simp) fun e _ => .refl _ e)
      (hslots.transfer (by simp) fun e _ => .refl _ e) ?_
    exact allLaid_transfer (fun e he => by simp [List.mem_map.mp he]) (fun e _ => .refl _ e) _
      (allLaid_of_occupiesAll hitems)

theorem allLaid_of_occupiesAll {pointers : List Nat} {ns : List Node} {owned : List OwnedBlock} :
    m.OccupiesAll pointers ns owned →
      List.Forall₂ (m.Laid (owned.map OwnedBlock.extent)) pointers ns
  | .nil => .nil
  | .cons hn hns => by
    rw [List.map_append]
    exact .cons
      (laid_transfer (List.subset_append_right _ _) (fun e _ => .refl _ e) _ (laid_of_occupies hn))
      (allLaid_transfer (List.subset_append_left _ _) (fun e _ => .refl _ e) _
        (allLaid_of_occupiesAll hns))

end

mutual

/-- **Each token has one record.** -/
theorem countP_of_occupies {p : Nat} {n : Node} {owned : List OwnedBlock} :
    m.Occupies p n owned → owned.countP (·.kind = .token) = n.tokenCount
  | .null => by rw [Node.tokenCount]; rfl
  | .word hn _ => by rw [Node.tokenCount_of_word hn]; rfl
  | .bytes _ _ => by rw [Node.tokenCount] <;> simp
  | .sequence _ _ hitems => by
    rw [Node.tokenCount, ← countP_of_occupiesAll hitems]
    simp

theorem countP_of_occupiesAll {pointers : List Nat} {ns : List Node} {owned : List OwnedBlock} :
    m.OccupiesAll pointers ns owned →
      owned.countP (·.kind = .token) = Node.allTokenCount ns
  | .nil => by rw [Node.allTokenCount]; rfl
  | .cons hn hns => by
    rw [Node.allTokenCount, List.countP_append, countP_of_occupies hn, countP_of_occupiesAll hns,
      Nat.add_comm]

end

end Forget

end Memory

end TokenImage
