/-
# JSON texts, read

A reader of JSON values: blanks may stand between all parts, texts may have every escape, by letter
and by number, and a number is an integer, which is all that a value holds.  It undoes the writer of
compact text, where no blank stands and only quotes, backslashes and controls are escaped
(`read?_compact`).

The reader goes down one level for each bracket, and takes items as long as there are any, both at
most as often as the text has characters; `adds_write` says that this is often enough.
-/
import TokenImage.Proofs.Text.QuotedReading
import TokenImage.Proofs.Json.Grammar

namespace TokenImage.Json

open TokenImage.Text

/-! ## 1. Texts -/

/-- The character that a letter after a backslash stands for. -/
def ofLetter? (letter : Char) : Option Char :=
  if letter = '"' ∨ letter = '\\' ∨ letter = '/' then some letter
  else if letter = 'b' then some '\x08'
  else if letter = 'f' then some '\x0c'
  else if letter = 'n' then some '\n'
  else if letter = 'r' then some '\r'
  else if letter = 't' then some '\t'
  else none

/-- The number with these four hexadecimal digits, in lower or in upper case. -/
def code? (a b c d : Char) : Option Nat := do
  let a ← digitValue? 16 a.toLower
  let b ← digitValue? 16 b.toLower
  let c ← digitValue? 16 c.toLower
  let d ← digitValue? 16 d.toLower
  some (0x1000 * a + 0x100 * b + 0x10 * c + d)

/-- A character in front of those that are read. -/
def push (c : Char) (read : Option (List Char × List Char)) : Option (List Char × List Char) :=
  read.map fun r => (c :: r.1, r.2)

mutual

/-- The characters up to a closing quote; a control must be escaped. -/
def readChars : Reader (List Char)
  | [] => none
  | c :: cs =>
    if c = '"' then some ([], cs)
    else if c = '\\' then readEscaped cs
    else if c.toNat < 0x20 then none
    else push c (readChars cs)

/-- The characters up to a closing quote, after a backslash. -/
def readEscaped : Reader (List Char)
  | 'u' :: a :: b :: c :: d :: cs => do
    let code ← code? a b c d
    if 0xd800 ≤ code ∧ code < 0xdc00 then readSecond (code - 0xd800) cs
    else
      let c ← char? code
      push c (readChars cs)
  | letter :: cs => do
    let c ← ofLetter? letter
    push c (readChars cs)
  | [] => none

/-- The characters up to a closing quote, after the first half of a character that takes two
escapes. -/
def readSecond (first : Nat) : Reader (List Char)
  | '\\' :: 'u' :: a :: b :: c :: d :: cs => do
    let code ← code? a b c d
    if 0xdc00 ≤ code ∧ code < 0xe000 then
      let c ← char? (0x10000 + 0x400 * first + (code - 0xdc00))
      push c (readChars cs)
    else none
  | _ => none

end

/-! ## 2. Values -/

/-- The text without the blanks that it begins with. -/
def skipBlanks (cs : List Char) : List Char :=
  cs.dropWhile isBlank

/-- What a reader takes, with blanks around it. -/
def padded {α : Type} (read : Reader α) : Reader α := fun cs =>
  (read (skipBlanks cs)).map fun r => (r.1, skipBlanks r.2)

/-- A key and, after a colon, the value that it is for. -/
def readMember (read : Reader Json) : Reader (String × Json)
  | '"' :: cs => do
    let (key, cs) ← readChars cs
    let cs ← (skipBlanks cs).dropPrefix? ":".toList
    let (v, cs) ← read (skipBlanks cs)
    some ((String.ofList key, v), cs)
  | _ => none

/-- A value with at most so many levels, and so many items or members at each. -/
def readValue : (fuel : Nat) → Reader Json
  | 0, _ => none
  | _ + 1, '"' :: cs => (readChars cs).map fun r => (.text (String.ofList r.1), r.2)
  | fuel + 1, '[' :: cs =>
    (readEnclosed (padded (readValue fuel)) "," ']' fuel (skipBlanks cs)).map fun r =>
      (.array r.1, r.2)
  | fuel + 1, '\x7b' :: cs =>
    (readEnclosed (padded (readMember (readValue fuel))) "," '\x7d' fuel (skipBlanks cs)).map
      fun r => (.object r.1, r.2)
  | _ + 1, cs => (readInt cs).map fun r => (.number r.1, r.2)

/-- **The value with this text**, if it is the text of one and of nothing else. -/
def read? (text : String) : Option Json :=
  match padded (readValue text.toList.length) text.toList with
  | some (v, []) => some v
  | _ => none

/-! ## 3. Texts are read back -/

variable {rest : List Char}

/-- The number of a control is read from its digits. -/
theorem code?_digitChar {n : Nat} (hn : n < 0x20) :
    code? '0' '0' (Nat.digitChar (n / 16)) (Nat.digitChar (n % 16)) = some n := by
  revert n
  decide

theorem readChars_writeChar (c : Char) :
    readChars (writeChar c rest) = push c (readChars rest) := by
  rw [writeChar]
  split
  · rename_i hc
    rw [hc]
    rfl
  split
  · rename_i hc
    rw [hc]
    rfl
  split
  · rename_i hlow
    have hmod : c.toNat.toUInt8.toNat = c.toNat := by
      rw [Nat.toUInt8, UInt8.toNat_ofNat', Nat.mod_eq_of_lt (by omega)]
    have hescaped : readChars (writeText "\\u00" (writeHexByte c.toNat.toUInt8 rest)) =
        (code? '0' '0' (Nat.digitChar (c.toNat.toUInt8.toNat / 16))
          (Nat.digitChar (c.toNat.toUInt8.toNat % 16))).bind fun code =>
            if 0xd800 ≤ code ∧ code < 0xdc00 then readSecond (code - 0xd800) rest
            else (char? code).bind fun c => push c (readChars rest) := rfl
    have hhalf : ¬ (0xd800 ≤ c.toNat ∧ c.toNat < 0xdc00) := by omega
    rw [hescaped, hmod, code?_digitChar hlow, Option.bind_some, if_neg hhalf, char?_toNat,
      Option.bind_some]
  · rename_i hquote hslash hlow
    rw [readChars, if_neg hquote, if_neg hslash, if_neg hlow]

/-- **A text is read back**, up to its closing quote. -/
theorem readChars_writeChars (cs : List Char) :
    readChars (cs.foldr writeChar ('"' :: rest)) = some (cs, rest) := by
  induction cs with
  | nil => rfl
  | cons c cs ih =>
    rw [List.foldr_cons, readChars_writeChar, ih]
    rfl

/-! ## 4. Values are read back -/

/-- The text begins with no blank. -/
def Bare (cs : List Char) : Prop :=
  skipBlanks cs = cs

theorem bare_cons {c : Char} {cs : List Char} (h : ¬ isBlank c = true) : Bare (c :: cs) :=
  List.dropWhile_cons_of_neg h

theorem bare_of_ends (h : Ends rest) : Bare rest := by
  cases rest with
  | nil => rfl
  | cons c cs =>
    rcases h c rfl with rfl | rfl | rfl
    · exact bare_cons (by decide)
    · exact bare_cons (by decide)
    · exact bare_cons (by decide)

/-- What is read back is read back with blanks around it, too. -/
theorem reads_padded {α : Type} {read : Reader α} {write : Writer} {a : α}
    (h : Reads read write a) (hbare : ∀ rest, Bare (write rest)) :
    Reads (padded read) write a := by
  intro rest hrest
  rw [padded, hbare, h rest hrest, Option.map_some, bare_of_ends hrest]

/-- No value begins with a blank. -/
theorem bare_write (v : Json) (rest : List Char) : Bare (write v rest) := by
  cases v with
  | number n =>
    obtain ⟨c, cs, hcs, hc⟩ := writeInt_eq_cons n rest
    rw [write, hcs]
    refine bare_cons fun hblank => ?_
    simp only [isBlank, Bool.or_eq_true, decide_eq_true_eq] at hblank
    rcases hblank with ((rfl | rfl) | rfl) | rfl
    all_goals exact absurd hc (by decide)
  | text s => exact bare_cons (by decide)
  | array vs => exact bare_cons (by decide)
  | object members => exact bare_cons (by decide)

theorem bare_writeSeparated {write : Writer} (h : ∀ rest, Bare (write rest)) (separator : String)
    (writers : List Writer) (rest : List Char) :
    Bare (writeSeparated separator (write :: writers) rest) := by
  cases writers with
  | nil => exact h rest
  | cons next writers => exact h _

theorem bare_itemWriters (vs : List Json) (rest : List Char) :
    Bare (writeSeparated "," (itemWriters vs) (']' :: rest)) := by
  cases vs with
  | nil => exact bare_cons (by decide)
  | cons v vs => exact bare_writeSeparated (bare_write v) _ _ _

theorem bare_memberWriters (members : List (String × Json)) (rest : List Char) :
    Bare (writeSeparated "," (memberWriters members) ('\x7d' :: rest)) := by
  cases members with
  | nil => exact bare_cons (by decide)
  | cons m members => exact bare_writeSeparated (fun _ => bare_cons (by decide)) _ _ _

/-- A member is read back, if its value is. -/
theorem reads_member {read : Reader Json} {v : Json} (key : String)
    (h : Reads read (write v) v) :
    Reads (readMember read) (fun rest => writeString key (':' :: write v rest)) (key, v) := by
  intro rest hrest
  have hkey : readChars (key.toList.foldr writeChar ('"' :: ':' :: write v rest)) =
      some (key.toList, ':' :: write v rest) := readChars_writeChars key.toList
  have hcolon : (skipBlanks (':' :: write v rest)).dropPrefix? ":".toList =
      some (write v rest) := by
    have hbare : skipBlanks (':' :: write v rest) = ':' :: write v rest := bare_cons (by decide)
    rw [hbare]
    exact dropPrefix?_writeText ":" (write v rest)
  have hvalue : skipBlanks (write v rest) = write v rest := bare_write v rest
  simp only [writeString, readMember, hkey, hcolon, hvalue, h rest hrest, Option.bind_eq_bind,
    Option.bind_some, String.ofList_toList]

/-- What begins as a number does is read as a number. -/
theorem readValue_writeInt (fuel : Nat) (n : Int) :
    readValue (fuel + 1) (writeInt n rest) =
      (readInt (writeInt n rest)).map fun r => (.number r.1, r.2) := by
  obtain ⟨c, cs, hcs, hc⟩ := writeInt_eq_cons n rest
  rw [hcs, readValue]
  all_goals
    intro ds h
    rw [(List.cons.inj h).1] at hc
    exact absurd hc (by decide)

/-- No value begins with a closing bracket. -/
theorem padded_readValue_close (fuel : Nat) {close : Char} (hclose : close = ']' ∨ close = '\x7d')
    (cs : List Char) : padded (readValue fuel) (close :: cs) = none := by
  rcases hclose with rfl | rfl
  all_goals
    cases fuel with
    | zero => rfl
    | succ fuel => rfl

/-! ## 5. Levels and items -/

mutual

/-- How many values there are in a value, this one included. -/
def size : Json → Nat
  | .number _ => 1
  | .text _ => 1
  | .array items => 1 + totalSize items
  | .object members => 1 + membersSize members

/-- How many values there are in the items of an array. -/
def totalSize : List Json → Nat
  | [] => 0
  | v :: vs => size v + totalSize vs

/-- How many values there are in the members of an object. -/
def membersSize : List (String × Json) → Nat
  | [] => 0
  | (_, v) :: members => size v + membersSize members

end

theorem one_le_size (v : Json) : 1 ≤ v.size := by
  cases v with
  | number n => exact Nat.le_refl 1
  | text s => exact Nat.le_refl 1
  | array items => exact Nat.le_add_right 1 _
  | object members => exact Nat.le_add_right 1 _

theorem totalSize_eq_sum (vs : List Json) : totalSize vs = (vs.map size).sum := by
  induction vs with
  | nil => rfl
  | cons v vs ih => rw [totalSize, ih, List.map_cons, List.sum_cons]

theorem membersSize_eq_sum (members : List (String × Json)) :
    membersSize members = (members.map fun m => size m.2).sum := by
  induction members with
  | nil => rfl
  | cons m members ih => rw [membersSize, ih, List.map_cons, List.sum_cons]

theorem length_le_sum_map {α : Type} {size : α → Nat} (hsize : ∀ a, 1 ≤ size a) (as : List α) :
    as.length ≤ (as.map size).sum := by
  induction as with
  | nil => exact Nat.le_refl 0
  | cons a as ih =>
    have := hsize a
    rw [List.length_cons, List.map_cons, List.sum_cons]
    omega

theorem adds_writeString (s : String) : Writer.Adds (writeString s) 1 := by
  intro rest
  have hchars : ∀ cs : List Char, rest.length + 1 ≤ (cs.foldr writeChar ('"' :: rest)).length := by
    intro cs
    induction cs with
    | nil => exact Nat.le_refl _
    | cons c cs ih =>
      refine Nat.le_trans ih ?_
      rw [List.foldr_cons, writeChar]
      split
      · simp only [List.length_cons]
        omega
      split
      · simp only [List.length_cons]
        omega
      split
      · simp only [writeText, writeHexByte, List.length_append, List.length_cons]
        omega
      · exact Nat.le_succ _
  have hall := hchars s.toList
  rw [writeString, List.length_cons]
  omega

mutual

/-- **A text has as many characters as its value has values in it**, or more. -/
theorem adds_write : ∀ v : Json, Writer.Adds (write v) v.size
  | .number n => adds_writeInt n
  | .text s => adds_writeString s
  | .array items => by
    intro rest
    have hitems := adds_writeSeparated "," (adds_itemWriters items) (']' :: rest)
    rw [List.length_cons] at hitems
    simp only [write, List.length_cons, size, totalSize_eq_sum]
    omega
  | .object members => by
    intro rest
    have hmembers := adds_writeSeparated "," (adds_memberWriters members) ('\x7d' :: rest)
    rw [List.length_cons] at hmembers
    simp only [write, List.length_cons, size, membersSize_eq_sum]
    omega

theorem adds_itemWriters : ∀ vs : List Json,
    List.Forall₂ (fun write v => Writer.Adds write (size v)) (itemWriters vs) vs
  | [] => .nil
  | v :: vs => .cons (adds_write v) (adds_itemWriters vs)

theorem adds_memberWriters : ∀ members : List (String × Json),
    List.Forall₂ (fun write m => Writer.Adds write (size m.2)) (memberWriters members) members
  | [] => .nil
  | (key, v) :: members => by
    refine .cons (fun rest => ?_) (adds_memberWriters members)
    have hkey := adds_writeString key (':' :: write v rest)
    have hvalue := adds_write v rest
    rw [List.length_cons] at hkey
    dsimp only
    omega

end

/-! ## 6. Values are read back -/

mutual

/-- **A value is read back** from its compact text, whatever follows that cannot be more of it. -/
theorem reads_write : ∀ (v : Json) {fuel : Nat}, v.size ≤ fuel →
    Reads (readValue fuel) (write v) v
  | .number n, fuel, hfuel, rest, hrest => by
    obtain ⟨fuel, rfl⟩ : ∃ k, fuel = k + 1 := ⟨fuel - 1, by rw [size] at hfuel; omega⟩
    rw [write, readValue_writeInt, readInt_writeInt hrest.stops]
    rfl
  | .text s, fuel, hfuel, rest, _ => by
    obtain ⟨fuel, rfl⟩ : ∃ k, fuel = k + 1 := ⟨fuel - 1, by rw [size] at hfuel; omega⟩
    simp only [write, writeString, readValue, readChars_writeChars, Option.map_some,
      String.ofList_toList]
  | .array items, fuel, hfuel, rest, _ => by
    obtain ⟨fuel, rfl⟩ : ∃ k, fuel = k + 1 := ⟨fuel - 1, by rw [size] at hfuel; omega⟩
    have htotal : totalSize items ≤ fuel := by
      rw [size] at hfuel
      omega
    have hlength := length_le_sum_map one_le_size items
    rw [← totalSize_eq_sum] at hlength
    have hitems : readEnclosed (padded (readValue fuel)) "," ']' fuel
        (writeSeparated "," (itemWriters items) (']' :: rest)) = some (items, rest) :=
      readEnclosed_writeSeparated (.inl rfl) (by decide) (reads_itemWriters items htotal)
        (padded_readValue_close fuel (.inl rfl)) (by omega) rest
    have hbare : skipBlanks (writeSeparated "," (itemWriters items) (']' :: rest)) = _ :=
      bare_itemWriters items rest
    simp only [write, readValue, hbare, hitems, Option.map_some]
  | .object members, fuel, hfuel, rest, _ => by
    obtain ⟨fuel, rfl⟩ : ∃ k, fuel = k + 1 := ⟨fuel - 1, by rw [size] at hfuel; omega⟩
    have htotal : membersSize members ≤ fuel := by
      rw [size] at hfuel
      omega
    have hlength := length_le_sum_map (fun m : String × Json => one_le_size m.2) members
    rw [← membersSize_eq_sum] at hlength
    have hmembers : readEnclosed (padded (readMember (readValue fuel))) "," '\x7d' fuel
        (writeSeparated "," (memberWriters members) ('\x7d' :: rest)) = some (members, rest) :=
      readEnclosed_writeSeparated (.inr rfl) (by decide) (reads_memberWriters members htotal)
        (fun _ => rfl) (by omega) rest
    have hbare : skipBlanks (writeSeparated "," (memberWriters members) ('\x7d' :: rest)) = _ :=
      bare_memberWriters members rest
    simp only [write, readValue, hbare, hmembers, Option.map_some]

theorem reads_itemWriters : ∀ (vs : List Json) {fuel : Nat}, totalSize vs ≤ fuel →
    List.Forall₂ (Reads (padded (readValue fuel))) (itemWriters vs) vs
  | [], _, _ => .nil
  | v :: vs, fuel, hfuel => by
    rw [totalSize] at hfuel
    exact .cons (reads_padded (reads_write v (by omega)) (bare_write v))
      (reads_itemWriters vs (by omega))

theorem reads_memberWriters : ∀ (members : List (String × Json)) {fuel : Nat},
    membersSize members ≤ fuel →
    List.Forall₂ (Reads (padded (readMember (readValue fuel)))) (memberWriters members) members
  | [], _, _ => .nil
  | (key, v) :: members, fuel, hfuel => by
    rw [membersSize] at hfuel
    exact .cons (reads_padded (reads_member key (reads_write v (by omega))) fun _ => bare_cons (by decide))
      (reads_memberWriters members (by omega))

end

/-- **The reader undoes the writer of compact text.** -/
theorem read?_compact (v : Json) : read? v.compact = some v := by
  have hfuel : v.size ≤ (write v []).length := by
    simpa using adds_write v []
  have hread : padded (readValue (write v []).length) (write v []) = some (v, []) :=
    reads_padded (reads_write v hfuel) (bare_write v) [] ends_nil
  rw [read?, compact, Writer.text, String.toList_ofList, hread]

end TokenImage.Json
