/-
# Quoted bytes, read back

A byte string between double quotes is read back piece by piece: an escape by its value is that
byte, an escape by its number and every other character are the bytes of the character's encoding.
A reader has no need to know which characters are escaped and which are not, nor how the bytes were
cut into pieces; it puts together what the pieces stand for, and `flatMap_bytes_pieces` says that
this is the byte string.

`readQuotedBytes_writeQuotedBytes` has no condition on what follows, because the closing quote ends
the string: inside, a quote is always escaped.
-/
import TokenImage.Proofs.Text.Reading
import TokenImage.Text.Quoted

namespace TokenImage.Text

/-! ## 1. The reader -/

/-- The character that a letter after a backslash stands for. -/
def ofEscapeLetter? (letter : Char) : Option Char :=
  if letter = '0' then some '\x00'
  else if letter = 't' then some '\t'
  else if letter = 'r' then some '\r'
  else if letter = 'n' then some '\n'
  else if letter = '"' ∨ letter = '\\' ∨ letter = '\'' then some letter
  else none

/-- The byte with these two hexadecimal digits. -/
def hexByte? (high low : Char) : Option UInt8 := do
  let h ← digitValue? 16 high
  let l ← digitValue? 16 low
  some (16 * h + l).toUInt8

/-- The character with this number, if it is one of a character. -/
def char? (n : Nat) : Option Char :=
  if (Char.ofNat n).toNat = n then some (Char.ofNat n) else none

/-- Bytes in front of those that are read. -/
def prepend (bs : List UInt8) (read : Option (List UInt8 × List Char)) :
    Option (List UInt8 × List Char) :=
  read.map fun r => (bs ++ r.1, r.2)

mutual

/-- The bytes up to a closing quote. -/
def readQuotedBytes : Reader (List UInt8)
  | [] => none
  | c :: cs =>
    if c = '"' then some ([], cs)
    else if c = '\\' then readEscape cs
    else prepend (String.utf8EncodeChar c) (readQuotedBytes cs)

/-- The bytes up to a closing quote, after a backslash. -/
def readEscape : Reader (List UInt8)
  | 'x' :: high :: low :: cs => do
    let b ← hexByte? high low
    prepend [b] (readQuotedBytes cs)
  | 'u' :: '\x7b' :: cs => readCode 0 cs
  | letter :: cs => do
    let c ← ofEscapeLetter? letter
    prepend (String.utf8EncodeChar c) (readQuotedBytes cs)
  | [] => none

/-- The bytes up to a closing quote, inside an escape by number; `value` is what its digits so far
give. -/
def readCode (value : Nat) : Reader (List UInt8)
  | [] => none
  | c :: cs =>
    if c = '\x7d' then do
      let d ← char? value
      prepend (String.utf8EncodeChar d) (readQuotedBytes cs)
    else do
      let d ← digitValue? 16 c
      readCode (16 * value + d) cs

end

/-! ## 2. Single escapes -/

variable {rest : List Char}

theorem char?_toNat (c : Char) : char? c.toNat = some c := by
  rw [char?, Char.ofNat_toNat, if_pos rfl]

/-- An ASCII character is encoded as itself. -/
theorem utf8EncodeChar_of_lt {c : Char} (h : c.toNat < 0x80) :
    String.utf8EncodeChar c = [c.toNat.toUInt8] := by
  have hle : c.val.toNat ≤ 0x7f := Nat.le_of_lt_succ h
  have hsize : c.utf8Size = 1 := Char.utf8Size_eq_one_iff.mpr (UInt32.le_iff_toNat_le.mpr hle)
  rw [String.utf8EncodeChar_eq_singleton hsize]
  rfl

theorem hexByte?_digitChar (b : UInt8) :
    hexByte? (Nat.digitChar (b.toNat / 16)) (Nat.digitChar (b.toNat % 16)) = some b := by
  have hb := b.toNat_lt
  have hhigh : digitValue? 16 (Nat.digitChar (b.toNat / 16)) = some (b.toNat / 16) :=
    digitValue?_digitChar (by omega) (Nat.le_refl _)
  have hlow : digitValue? 16 (Nat.digitChar (b.toNat % 16)) = some (b.toNat % 16) :=
    digitValue?_digitChar (by omega) (Nat.le_refl _)
  simp only [hexByte?, hhigh, hlow, Option.bind_eq_bind, Option.bind_some, Nat.div_add_mod]
  rw [Nat.toUInt8, UInt8.ofNat_toNat]

/-- A byte by its value is read as that byte. -/
theorem readQuotedBytes_writeByteEscape (b : UInt8) :
    readQuotedBytes (writeByteEscape b rest) = prepend [b] (readQuotedBytes rest) := by
  have hescape : readQuotedBytes (writeByteEscape b rest) =
      (hexByte? (Nat.digitChar (b.toNat / 16)) (Nat.digitChar (b.toNat % 16))).bind fun b =>
        prepend [b] (readQuotedBytes rest) := rfl
  rw [hescape, hexByte?_digitChar, Option.bind_some]

/-- Inside an escape by number the digits are read up to the closing brace. -/
theorem readCode_of_readDigits {cs : List Char} {value n : Nat}
    (h : readDigits 16 value cs = (n, '\x7d' :: rest)) :
    readCode value cs = readCode n ('\x7d' :: rest) := by
  induction cs generalizing value with
  | nil => cases h
  | cons c cs ih =>
    rw [readDigits] at h
    cases hd : digitValue? 16 c with
    | none =>
      simp only [hd, Prod.mk.injEq] at h
      rw [h.1, h.2]
    | some d =>
      simp only [hd] at h
      have hne : c ≠ '\x7d' := by
        rintro rfl
        have hnone : digitValue? 16 '\x7d' = none := by decide
        rw [hnone] at hd
        cases hd
      rw [readCode, if_neg hne, hd, ← ih h]
      rfl

/-- A character by its number is read as the bytes of its encoding. -/
theorem readQuotedBytes_writeCodeEscape (c : Char) :
    readQuotedBytes (writeCodeEscape c rest) =
      prepend (String.utf8EncodeChar c) (readQuotedBytes rest) := by
  have hdigits : readDigits 16 0 (Nat.toDigits 16 c.toNat ++ '\x7d' :: rest) = _ :=
    readDigits_toDigits (by decide) (Nat.le_refl _) c.toNat 0 _
  have hstops : Stops 16 ('\x7d' :: rest) := stops_cons (by decide)
  rw [Nat.mul_zero, Nat.zero_add, readDigits_of_stops hstops] at hdigits
  have hcode : readQuotedBytes (writeCodeEscape c rest) =
      readCode 0 (Nat.toDigits 16 c.toNat ++ '\x7d' :: rest) := rfl
  rw [hcode, readCode_of_readDigits hdigits, readCode, if_pos rfl, char?_toNat]
  rfl

/-- A short escape is read as the character that it stands for. -/
theorem readQuotedBytes_escapeLetter {letter c : Char} (h : ofEscapeLetter? letter = some c) :
    readQuotedBytes ('\\' :: letter :: rest) =
      prepend (String.utf8EncodeChar c) (readQuotedBytes rest) := by
  have hx : letter ≠ 'x' := by
    rintro rfl
    exact absurd h (by simp [ofEscapeLetter?])
  have hu : letter ≠ 'u' := by
    rintro rfl
    exact absurd h (by simp [ofEscapeLetter?])
  have hquote : ¬ '\\' = '"' := by decide
  rw [readQuotedBytes, if_neg hquote, if_pos rfl, readEscape]
  · simp only [h, Option.bind_eq_bind, Option.bind_some]
  · intro high low cs heq
    exact absurd heq hx
  · intro cs heq
    exact absurd heq hu

/-- Any other character stands for the bytes of its encoding. -/
theorem readQuotedBytes_cons {c : Char} (hquote : c ≠ '"') (hslash : c ≠ '\\') :
    readQuotedBytes (c :: rest) = prepend (String.utf8EncodeChar c) (readQuotedBytes rest) := by
  rw [readQuotedBytes, if_neg hquote, if_neg hslash]

/-! ## 3. Pieces -/

/-- The letters of short escapes stand for the characters that they were written for. -/
theorem ofEscapeLetter?_of_shortEscape? {letter c : Char} (h : shortEscape? c = some letter) :
    ofEscapeLetter? letter = some c := by
  rw [shortEscape?] at h
  -- one case for each character that has a letter
  split_ifs at h
  all_goals
    obtain rfl := Option.some.inj h
    subst c
    decide

/-- What has no short escape is neither a quote nor a backslash. -/
theorem ne_of_shortEscape?_eq_none {c : Char} (h : shortEscape? c = none) :
    c ≠ '"' ∧ c ≠ '\\' := by
  constructor
  · rintro rfl
    exact absurd h (by decide)
  · rintro rfl
    exact absurd h (by decide)

/-- An ASCII character is read as its byte. -/
theorem readQuotedBytes_writeAscii {c : Char} (hc : c.toNat < 0x80) :
    readQuotedBytes (writeAscii c rest) =
      prepend (String.utf8EncodeChar c) (readQuotedBytes rest) := by
  rw [writeAscii]
  split
  · rename_i happ
    rw [happ]
    exact readQuotedBytes_escapeLetter (by decide)
  cases hshort : shortEscape? c with
  | some letter => exact readQuotedBytes_escapeLetter (ofEscapeLetter?_of_shortEscape? hshort)
  | none =>
    obtain ⟨hquote, hslash⟩ := ne_of_shortEscape?_eq_none hshort
    dsimp only
    split
    · exact readQuotedBytes_cons hquote hslash
    · rw [readQuotedBytes_writeByteEscape, utf8EncodeChar_of_lt hc]

/-- **A piece is read as the bytes that it stands for**, whatever characters are escaped. -/
theorem readQuotedBytes_writePiece (escaped : Char → Bool) (p : Piece) :
    readQuotedBytes (writePiece escaped p rest) = prepend p.bytes (readQuotedBytes rest) := by
  cases p with
  | stray b => exact readQuotedBytes_writeByteEscape b
  | char c =>
    rw [writePiece]
    split
    · rename_i hc
      exact readQuotedBytes_writeAscii hc
    split
    · exact readQuotedBytes_writeCodeEscape c
    · rename_i hc _
      refine readQuotedBytes_cons ?_ ?_
      · rintro rfl
        exact hc (by decide)
      · rintro rfl
        exact hc (by decide)

theorem readQuotedBytes_writePieces (escaped : Char → Bool) (ps : List Piece) :
    readQuotedBytes (ps.foldr (writePiece escaped) ('"' :: rest)) =
      some (ps.flatMap Piece.bytes, rest) := by
  induction ps with
  | nil => rfl
  | cons p ps ih =>
    rw [List.foldr_cons, readQuotedBytes_writePiece, ih, List.flatMap_cons]
    rfl

/-- **A byte string is read back from its quoted form**, ill-formed encodings included. -/
theorem readQuotedBytes_writeQuotedBytes (escaped : Char → Bool) (bs : List UInt8) :
    ∃ text, writeQuotedBytes escaped bs rest = '"' :: text ∧
      readQuotedBytes text = some (bs, rest) := by
  refine ⟨_, rfl, ?_⟩
  rw [readQuotedBytes_writePieces, flatMap_bytes_pieces]

/-! ## 4. Lengths -/

theorem adds_writeAscii (c : Char) : Writer.Adds (writeAscii c) 0 := by
  intro rest
  rw [writeAscii]
  split
  · simp only [List.length_cons]
    omega
  split
  · simp only [List.length_cons]
    omega
  split
  · simp only [List.length_cons]
    omega
  · simp only [writeByteEscape, writeHexByte, List.length_cons]
    omega

theorem adds_writePiece (escaped : Char → Bool) (p : Piece) :
    Writer.Adds (writePiece escaped p) 0 := by
  intro rest
  cases p with
  | stray b =>
    simp only [writePiece, writeByteEscape, writeHexByte, List.length_cons]
    omega
  | char c =>
    rw [writePiece]
    split
    · exact adds_writeAscii c rest
    split
    · simp only [writeCodeEscape, writeHex, List.length_cons, List.length_append]
      omega
    · exact Nat.le_succ rest.length

theorem adds_writeQuotedBytes (escaped : Char → Bool) (bs : List UInt8) :
    Writer.Adds (writeQuotedBytes escaped bs) 0 := by
  intro rest
  have hpieces : ∀ ps : List Piece,
      rest.length + 1 ≤ (ps.foldr (writePiece escaped) ('"' :: rest)).length := by
    intro ps
    induction ps with
    | nil => exact Nat.le_refl _
    | cons p ps ih => exact Nat.le_trans ih (adds_writePiece escaped p _)
  have hall := hpieces (pieces bs)
  rw [writeQuotedBytes, List.length_cons]
  omega

end TokenImage.Text
