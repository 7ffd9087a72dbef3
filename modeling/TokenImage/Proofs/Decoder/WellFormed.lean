/-
# Decoding well-formed graphs

Without a limit a decoder gives the token of the layout reading, on every memory whose graph below
the root is mapped where it is read and has no cycles.  Such a graph may share tokens between slots
and may have null slots; there is no bound on its size but the size of the address space.

`decode_of_wellFormed` is the statement.  It says also that there is one such token only, so that
what the decoders give is a function of the bytes and not of the order in which they are read.
-/
import TokenImage.Proofs.Graph.Depth

namespace TokenImage

/-- **A decoder gives the token at the root**, as far as its room goes. -/
theorem Decoder.decode_eq_ok_iff {d : Decoder} {m : Memory} {root : Nat} {t : Token} :
    (d.decode m root).result = .ok t ↔ m.TokenAt root t ∧ t.depth ≤ d.room := by
  rw [decode, Traced.result_mapError_eq_ok_iff, Memory.walk_eq_ok_iff]

/-- Without a limit there is room for one pointer more than there are addresses. -/
theorem Decoder.room_of_maxDepth_none {d : Decoder} (h : d.maxDepth = none) :
    d.room = addressSpace + 1 := by
  rw [room, h]

namespace Memory

/-- **A decoder without a limit has room for any token.** -/
theorem TokenAt.decode_eq_ok {d : Decoder} {m : Memory} {root : Nat} {t : Token}
    (h : m.TokenAt root t) (hd : d.maxDepth = none) : (d.decode m root).result = .ok t := by
  obtain ⟨u, hu, hdepth⟩ := (wellFormed_iff_exists_tokenAt.mpr ⟨t, h⟩).exists_tokenAt
  obtain rfl := h.unique hu
  rw [Decoder.decode_eq_ok_iff, Decoder.room_of_maxDepth_none hd]
  exact ⟨h, hdepth⟩

/-- **Decoding is the layout reading.**  On a well-formed graph there is one token at the root, and
every decoder without a limit gives it, and so does decoding without a decoder. -/
theorem decode_of_wellFormed {m : Memory} {root : Nat} (h : m.WellFormed root) :
    ∃ t, (m.TokenAt root t ∧ ∀ u, m.TokenAt root u → u = t) ∧
      (∀ d : Decoder, d.maxDepth = none → (d.decode m root).result = .ok t) ∧
      m.decode root = t := by
  obtain ⟨t, ht⟩ := wellFormed_iff_exists_tokenAt.mp h
  refine ⟨t, ⟨ht, fun u hu => hu.unique ht⟩, fun d hd => ht.decode_eq_ok hd, ?_⟩
  rw [decode, ht.decode_eq_ok (d := {}) rfl]
  rfl

/-! ## A graph with a shared token -/

/-- A memory that has bytes from an address on, and nothing else. -/
def ofBytes (base : Nat) (bs : List UInt8) : Memory := fun x =>
  if base ≤ x then bs[x - base]? else none

/-- The bytes of a token record with a payload of two words. -/
def recordBytes (tag first second index bitOffset : Nat) : List UInt8 :=
  littleEndian 4 tag ++ littleEndian 4 0 ++ littleEndian 8 first ++ littleEndian 8 second ++
    littleEndian 8 index ++ littleEndian 8 0 ++ littleEndian 8 bitOffset

/-- A sequence token at 16 with three of five slots used, the first and the last of which lead to the
same token.  The second is null, and the spare slots lead to nowhere.  The shared token stands at the
greatest index and at a negative bit offset. -/
def sharingMemory : Memory :=
  ofBytes 16 <| recordBytes 16 64 0 3 0 ++ [5, 3, 0, 96].flatMap (littleEndian 8) ++
    [136, 0, 136, 7, 7].flatMap (littleEndian 8) ++ recordBytes 4 (2 ^ 64 - 5) 0 (2 ^ 64 - 1) 255

/-- The token of that memory. -/
def sharingToken : Token :=
  let shared : Token := ⟨-1, -1, .signed (-5)⟩
  ⟨3, 0, .sequence [shared, Token.zero, shared]⟩

theorem tokenAt_sharingMemory : sharingMemory.TokenAt 16 sharingToken := by
  have h : (sharingMemory.walk 2 16).result = .ok sharingToken := by decide +kernel
  exact (walk_eq_ok_iff.mp h).1

/-- The graph of that memory is well-formed, and its token is what a decoder gives. -/
theorem decode_sharingMemory :
    sharingMemory.WellFormed 16 ∧
      (({} : Decoder).decode sharingMemory 16).result = .ok sharingToken := by
  have hwf := wellFormed_iff_exists_tokenAt.mpr ⟨_, tokenAt_sharingMemory⟩
  refine ⟨hwf, ?_⟩
  obtain ⟨t, ⟨-, hunique⟩, hdecode, -⟩ := decode_of_wellFormed hwf
  rw [hdecode {} rfl, hunique _ tokenAt_sharingMemory]

end Memory

end TokenImage
