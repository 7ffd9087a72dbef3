/-
# The compact text of a token tells which token it is

A reader for the compact text: a value by its first character, then the position.  It undoes the
writer for every set of escaped characters (`ofDisplay?_writeDisplay`), so no two tokens have the
same text (`display_eq_iff`).

The reader goes down one level for each bracket, and takes items as long as there are any, both at
most as often as there are characters; a tree has no more tokens than its text has characters.
-/
import TokenImage.Proofs.Text.QuotedReading
import TokenImage.Token.Display

namespace TokenImage.Token

open TokenImage.Text

/-! ## 1. The reader -/

/-- Where a token starts; the bit offset is zero where there is none. -/
def readPosition : Reader (Int64 × Int8)
  | '@' :: cs => do
    let (b, cs) ← readInt cs
    let byteOffset ← int64? b
    match cs with
    | '.' :: cs => do
      let (o, cs) ← readInt cs
      let bitOffset ← int8? o
      some ((byteOffset, bitOffset), cs)
    | cs => some ((byteOffset, 0), cs)
  | _ => none

/-- A number by the letter for its kind. -/
def readNumber (cs : List Char) : Option (Value Token × List Char) := do
  let (n, cs) ← readInt cs
  match cs with
  | 'i' :: cs => (int64? n).map fun x => (.signed x, cs)
  | 'u' :: cs => (uint64? n).map fun x => (.unsigned x, cs)
  | _ => none

/-- A value, where `readItems` reads the items of a sequence and the closing bracket. -/
def readValue (readItems : Reader (List Token)) : Reader (Value Token)
  | 'n' :: 'o' :: 'n' :: 'e' :: cs => some (.none, cs)
  | '"' :: cs => (readQuotedBytes cs).map fun r => (.bytes r.1, r.2)
  | '[' :: cs => (readItems cs).map fun r => (.sequence r.1, r.2)
  | cs => readNumber cs

/-- A token with at most so many levels, and so many items in each sequence. -/
def readDisplay : (fuel : Nat) → Reader Token
  | 0, _ => none
  | fuel + 1, cs => do
    let (value, cs) ← readValue (readEnclosed (readDisplay fuel) ", " ']' fuel) cs
    let ((byteOffset, bitOffset), cs) ← readPosition cs
    some (⟨byteOffset, bitOffset, value⟩, cs)

/-- **The token with this compact text**, if there is one. -/
def ofDisplay? (text : String) : Option Token :=
  match readDisplay text.toList.length text.toList with
  | some (t, []) => some t
  | _ => none

/-! ## 2. Parts -/

variable {rest : List Char}

/-- A position is read back. -/
theorem readPosition_writePosition (byteOffset : Int64) (bitOffset : Int8) (hrest : Ends rest) :
    readPosition (writePosition byteOffset bitOffset rest) =
      some ((byteOffset, bitOffset), rest) := by
  by_cases h0 : bitOffset = 0
  · subst h0
    rw [writePosition, if_pos rfl, readPosition, readInt_writeInt hrest.stops]
    simp only [Option.bind_eq_bind, Option.bind_some, int64?_toInt]
    cases rest with
    | nil => rfl
    | cons c cs =>
      have hpoint : c ≠ '.' := by
        rintro rfl
        exact absurd (hrest '.' rfl) (by decide)
      simp [hpoint]
  · have hstops : Stops 10 ('.' :: writeInt bitOffset.toInt rest) := stops_cons (by decide)
    rw [writePosition, if_neg h0, readPosition, readInt_writeInt hstops]
    simp only [Option.bind_eq_bind, Option.bind_some, int64?_toInt, readInt_writeInt hrest.stops,
      int8?_toInt]

/-- What begins as a number does is read as a number. -/
theorem readValue_writeInt (readItems : Reader (List Token)) (n : Int) :
    readValue readItems (writeInt n rest) = readNumber (writeInt n rest) := by
  obtain ⟨c, cs, hcs, hc⟩ := writeInt_eq_cons n rest
  have hne : ∀ d : Char, d ≠ '-' → d.isDigit = false → c ≠ d := by
    rintro d hminus hdigit rfl
    rcases hc with rfl | hc
    · exact hminus rfl
    · rw [hdigit] at hc
      cases hc
  rw [hcs, readValue]
  · intro ds h
    exact hne 'n' (by decide) (by decide) (List.cons.inj h).1
  · intro ds h
    exact hne '"' (by decide) (by decide) (List.cons.inj h).1
  · intro ds h
    exact hne '[' (by decide) (by decide) (List.cons.inj h).1

/-- A signed number is read back. -/
theorem readValue_writeSigned (readItems : Reader (List Token)) (number : Int64) :
    readValue readItems (writeSigned number rest) = some (.signed number, rest) := by
  have hstops : Stops 10 ('i' :: rest) := stops_cons (by decide)
  rw [writeSigned, readValue_writeInt, readNumber, readInt_writeInt hstops]
  simp only [Option.bind_eq_bind, Option.bind_some, int64?_toInt, Option.map_some]

/-- An unsigned number is read back. -/
theorem readValue_writeUnsigned (readItems : Reader (List Token)) (number : UInt64) :
    readValue readItems (writeUnsigned number rest) = some (.unsigned number, rest) := by
  have hstops : Stops 10 ('u' :: rest) := stops_cons (by decide)
  have hwrite : writeUnsigned number rest = writeInt (number.toNat : Int) ('u' :: rest) := rfl
  rw [hwrite, readValue_writeInt, readNumber, readInt_writeInt hstops]
  simp only [Option.bind_eq_bind, Option.bind_some, uint64?_toNat, Option.map_some]

/-- What is left of a token after its value is its position. -/
theorem readDisplay_of_readValue {fuel : Nat} {value : Value Token} {byteOffset : Int64}
    {bitOffset : Int8} {cs : List Char} (hrest : Ends rest)
    (h : readValue (readEnclosed (readDisplay fuel) ", " ']' fuel) cs =
      some (value, writePosition byteOffset bitOffset rest)) :
    readDisplay (fuel + 1) cs = some (⟨byteOffset, bitOffset, value⟩, rest) := by
  simp only [readDisplay, h, readPosition_writePosition _ _ hrest, Option.bind_eq_bind,
    Option.bind_some]

/-- No token begins with a closing bracket. -/
theorem readDisplay_close (fuel : Nat) (cs : List Char) : readDisplay fuel (']' :: cs) = none := by
  cases fuel with
  | zero => rfl
  | succ fuel =>
    have hvalue : ∀ readItems, readValue readItems (']' :: cs) = none := fun _ => rfl
    simp only [readDisplay, hvalue, Option.bind_eq_bind, Option.bind_none]

/-! ## 3. Trees -/

theorem one_le_count (t : Token) : 1 ≤ t.count := by
  obtain ⟨_, _, value⟩ := t
  cases value with
  | none => exact Nat.le_refl 1
  | bytes bs => exact Nat.le_refl 1
  | signed n => exact Nat.le_refl 1
  | unsigned n => exact Nat.le_refl 1
  | sequence ts => exact Nat.le_add_right 1 _

theorem totalCount_eq_sum (ts : List Token) : totalCount ts = (ts.map count).sum := by
  induction ts with
  | nil => rfl
  | cons t ts ih => rw [totalCount, ih, List.map_cons, List.sum_cons]

theorem length_le_totalCount (ts : List Token) : ts.length ≤ totalCount ts := by
  induction ts with
  | nil => exact Nat.le_refl 0
  | cons t ts ih =>
    have := t.one_le_count
    rw [List.length_cons, totalCount]
    omega

mutual

/-- **A token is read back**, whichever characters are escaped. -/
theorem reads_writeDisplay (escaped : Char → Bool) : ∀ (t : Token) {fuel : Nat}, t.count ≤ fuel →
    Reads (readDisplay fuel) (writeDisplay escaped t) t
  | ⟨b, o, .none⟩, fuel, hfuel, rest, hrest => by
    obtain ⟨fuel, rfl⟩ : ∃ k, fuel = k + 1 := ⟨fuel - 1, by rw [count] at hfuel; omega⟩
    simp only [writeDisplay]
    exact readDisplay_of_readValue hrest rfl
  | ⟨b, o, .bytes span⟩, fuel, hfuel, rest, hrest => by
    obtain ⟨fuel, rfl⟩ : ∃ k, fuel = k + 1 := ⟨fuel - 1, by rw [count] at hfuel; omega⟩
    obtain ⟨text, htext, hread⟩ :=
      @readQuotedBytes_writeQuotedBytes (writePosition b o rest) escaped span
    simp only [writeDisplay]
    refine readDisplay_of_readValue hrest ?_
    rw [htext, readValue, hread]
    rfl
  | ⟨b, o, .signed number⟩, fuel, hfuel, rest, hrest => by
    obtain ⟨fuel, rfl⟩ : ∃ k, fuel = k + 1 := ⟨fuel - 1, by rw [count] at hfuel; omega⟩
    simp only [writeDisplay]
    exact readDisplay_of_readValue hrest (readValue_writeSigned _ number)
  | ⟨b, o, .unsigned number⟩, fuel, hfuel, rest, hrest => by
    obtain ⟨fuel, rfl⟩ : ∃ k, fuel = k + 1 := ⟨fuel - 1, by rw [count] at hfuel; omega⟩
    simp only [writeDisplay]
    exact readDisplay_of_readValue hrest (readValue_writeUnsigned _ number)
  | ⟨b, o, .sequence items⟩, fuel, hfuel, rest, hrest => by
    obtain ⟨fuel, rfl⟩ : ∃ k, fuel = k + 1 := ⟨fuel - 1, by rw [count] at hfuel; omega⟩
    have htotal : totalCount items ≤ fuel := by
      rw [count] at hfuel
      omega
    have hlength := length_le_totalCount items
    have hitems : readEnclosed (readDisplay fuel) ", " ']' fuel
        (writeSeparated ", " (displayWriters escaped items) (']' :: writePosition b o rest)) =
          some (items, writePosition b o rest) :=
      readEnclosed_writeSeparated (.inl rfl) (by decide) (reads_displayWriters escaped items htotal)
        (readDisplay_close fuel) (by omega) _
    simp only [writeDisplay]
    refine readDisplay_of_readValue hrest ?_
    rw [writeList, readValue, hitems]
    rfl

/-- The tokens of a list are read back, each of them. -/
theorem reads_displayWriters (escaped : Char → Bool) : ∀ (ts : List Token) {fuel : Nat},
    totalCount ts ≤ fuel →
    List.Forall₂ (Reads (readDisplay fuel)) (displayWriters escaped ts) ts
  | [], _, _ => .nil
  | t :: ts, fuel, hfuel => by
    rw [totalCount] at hfuel
    exact .cons (reads_writeDisplay escaped t (by omega))
      (reads_displayWriters escaped ts (by omega))

end

/-! ## 4. A tree is no larger than its text -/

theorem adds_writePosition (byteOffset : Int64) (bitOffset : Int8) :
    Writer.Adds (writePosition byteOffset bitOffset) 1 := by
  intro rest
  have hoffset := adds_writeInt byteOffset.toInt
    (if bitOffset = 0 then rest else '.' :: writeInt bitOffset.toInt rest)
  have hrest : rest.length ≤
      (if bitOffset = 0 then rest else '.' :: writeInt bitOffset.toInt rest).length := by
    split
    · exact Nat.le_refl _
    · have := adds_writeInt bitOffset.toInt rest
      rw [List.length_cons]
      omega
  rw [writePosition, List.length_cons]
  omega

mutual

theorem adds_writeDisplay (escaped : Char → Bool) : ∀ t : Token,
    Writer.Adds (writeDisplay escaped t) t.count
  | ⟨b, o, .none⟩, rest => by
    have hposition := adds_writePosition b o rest
    simp only [writeDisplay, writeText, List.length_append, count]
    omega
  | ⟨b, o, .bytes span⟩, rest => by
    have hposition := adds_writePosition b o rest
    have hspan := adds_writeQuotedBytes escaped span (writePosition b o rest)
    simp only [writeDisplay, count]
    omega
  | ⟨b, o, .signed number⟩, rest => by
    have hposition := adds_writePosition b o rest
    have hnumber := adds_writeInt number.toInt ('i' :: writePosition b o rest)
    rw [List.length_cons] at hnumber
    simp only [writeDisplay, writeSigned, count]
    omega
  | ⟨b, o, .unsigned number⟩, rest => by
    have hposition := adds_writePosition b o rest
    simp only [writeDisplay, writeUnsigned, writeNat, List.length_append, List.length_cons, count]
    omega
  | ⟨b, o, .sequence items⟩, rest => by
    have hposition := adds_writePosition b o rest
    have hitems := adds_writeSeparated ", " (adds_displayWriters escaped items)
      (']' :: writePosition b o rest)
    rw [List.length_cons] at hitems
    simp only [writeDisplay, writeList, List.length_cons, count, totalCount_eq_sum]
    omega

theorem adds_displayWriters (escaped : Char → Bool) : ∀ ts : List Token,
    List.Forall₂ (fun write t => Writer.Adds write (count t)) (displayWriters escaped ts) ts
  | [] => .nil
  | t :: ts => .cons (adds_writeDisplay escaped t) (adds_displayWriters escaped ts)

end

/-! ## 5. Unambiguous texts -/

/-- **The reader undoes the writer**, whichever characters are escaped. -/
theorem ofDisplay?_writeDisplay (escaped : Char → Bool) (t : Token) :
    ofDisplay? (Writer.text (writeDisplay escaped t)) = some t := by
  have hfuel : t.count ≤ (writeDisplay escaped t []).length := by
    simpa using adds_writeDisplay escaped t []
  have hread := reads_writeDisplay escaped t hfuel [] ends_nil
  rw [ofDisplay?, Writer.text, String.toList_ofList, hread]

theorem writeDisplay_inj (escaped : Char → Bool) (a b : Token) :
    Writer.text (writeDisplay escaped a) = Writer.text (writeDisplay escaped b) ↔ a = b :=
  eq_iff_of_undone (ofDisplay?_writeDisplay escaped) a b

/-- **Compact text is unambiguous.**  Whichever characters are escaped, one reader recovers every
token from its text, and two tokens have the same text exactly if they are the same token; the
text that the library shows is the case of one set of escaped characters. -/
theorem display_eq_iff :
    (∀ (escaped : Char → Bool) (t : Token),
      ofDisplay? (Writer.text (writeDisplay escaped t)) = some t) ∧
    (∀ (escaped : Char → Bool) (a b : Token),
      Writer.text (writeDisplay escaped a) = Writer.text (writeDisplay escaped b) ↔ a = b) ∧
    (∀ a b : Token, a.display = b.display ↔ a = b) :=
  ⟨ofDisplay?_writeDisplay, writeDisplay_inj, writeDisplay_inj isUnprintable⟩

end TokenImage.Token
