/-
# UTF-8 in arbitrary bytes

A byte string is read from the front as characters where it is well formed and as stray bytes where
it is not.  A byte is stray exactly when no well-formed encoding starts at it, so a cut-off encoding
gives one stray byte per byte and never takes the byte after it along.

`flatMap_bytes_pieces` says that the pieces lose nothing.
-/
namespace TokenImage.Text

/-- A piece of a byte string: a character that is encoded there, or a byte that is part of none. -/
inductive Piece where
  | char (c : Char)
  | stray (b : UInt8)
  deriving DecidableEq

/-- The bytes that a piece stands for. -/
def Piece.bytes : Piece → List UInt8
  | .char c => String.utf8EncodeChar c
  | .stray b => [b]

/-- The character whose encoding the bytes start with, if there is one; an encoding is four bytes
long at most. -/
def leadingChar? (bs : List UInt8) : Option Char :=
  (bs.take 4).toByteArray.utf8DecodeChar? 0

/-- The pieces of a byte string of which the first `covered` bytes belong to a character that is
listed already. -/
def piecesAfter (covered : Nat) : List UInt8 → List Piece
  | [] => []
  | b :: bs =>
    match covered with
    | covered + 1 => piecesAfter covered bs
    | 0 =>
      match leadingChar? (b :: bs) with
      | some c => .char c :: piecesAfter (c.utf8Size - 1) bs
      | none => .stray b :: piecesAfter 0 bs

/-- The pieces of a byte string, front to back. -/
def pieces (bs : List UInt8) : List Piece :=
  piecesAfter 0 bs

/-! ## Nothing is lost -/

theorem eq_append_of_leadingChar? {bs : List UInt8} {c : Char} (h : leadingChar? bs = some c) :
    ∃ rest, bs = String.utf8EncodeChar c ++ rest := by
  obtain ⟨l, hl⟩ := ByteArray.exists_of_utf8DecodeChar?_eq_some h
  refine ⟨l.data.toList ++ bs.drop 4, ?_⟩
  have h4 : bs.take 4 = String.utf8EncodeChar c ++ l.data.toList := by
    have := congrArg (fun b : ByteArray => b.data.toList) hl
    simpa using this
  rw [← List.append_assoc, ← h4, List.take_append_drop]

theorem flatMap_bytes_piecesAfter (bs : List UInt8) :
    ∀ covered, (piecesAfter covered bs).flatMap Piece.bytes = bs.drop covered := by
  induction bs with
  | nil => intro covered; simp [piecesAfter]
  | cons b bs ih =>
    intro covered
    cases covered with
    | succ covered => simpa [piecesAfter] using ih covered
    | zero =>
      rw [piecesAfter]
      cases h : leadingChar? (b :: bs) with
      | none => simp [ih, Piece.bytes]
      | some c =>
        obtain ⟨rest, hr⟩ := eq_append_of_leadingChar? h
        have hsize : (String.utf8EncodeChar c).length = c.utf8Size := String.length_utf8EncodeChar c
        have hpos := c.utf8Size_pos
        simp only [List.flatMap_cons, ih, Piece.bytes, List.drop_zero]
        have hdrop : bs.drop (c.utf8Size - 1) = rest := by
          have := congrArg (List.drop c.utf8Size) hr
          rw [← hsize, List.drop_left, hsize] at this
          obtain ⟨k, hk⟩ : ∃ k, c.utf8Size = k + 1 := ⟨c.utf8Size - 1, by omega⟩
          rw [hk] at this ⊢
          simpa using this
        rw [hdrop, hr]

/-- **The pieces of a byte string, put together again, are that byte string.** -/
theorem flatMap_bytes_pieces (bs : List UInt8) : (pieces bs).flatMap Piece.bytes = bs := by
  simpa [pieces] using flatMap_bytes_piecesAfter bs 0

end TokenImage.Text
