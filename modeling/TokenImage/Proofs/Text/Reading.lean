/-
# Readers

A reader takes a value off the front of a text and gives the rest back.  Readers stand beside the
writers of `Text/Writer.lean`, and what they have in common is `Reads`: the reader gives back what
the writer has written, whatever text follows, as long as that text cannot be taken for more of it.
A value in a list is followed by a comma or by a closing bracket, and the last one by nothing
(`Ends`).

* `readNat_toDigits` and `readInt_writeInt` undo numbers, which are read without leading zeros;
* `readEnclosed_writeSeparated` undoes lists, given a reader of their items.

A reader of lists takes no more items than it is told to; whoever calls one bounds them by the
length of the text.
-/
import TokenImage.Text.Writer
import Mathlib.Algebra.Ring.Nat
import Mathlib.Data.List.Forall2

namespace TokenImage.Text

/-! ## 1. Readers -/

/-- What takes a value off the front of a text, if there is one. -/
abbrev Reader (α : Type) := List Char → Option (α × List Char)

/-- The text begins with what may follow a value in a list, or it is over. -/
def Ends (rest : List Char) : Prop :=
  ∀ c ∈ rest.head?, c = ',' ∨ c = ']' ∨ c = '\x7d'

theorem ends_nil : Ends [] := by simp [Ends]

theorem ends_cons {c : Char} {rest : List Char} (h : c = ',' ∨ c = ']' ∨ c = '\x7d') :
    Ends (c :: rest) := by
  simpa [Ends] using h

/-- What a reader undoes has different texts for different values. -/
theorem eq_iff_of_undone {α : Type} {write : α → String} {read : String → Option α}
    (h : ∀ a, read (write a) = some a) (a b : α) : write a = write b ↔ a = b := by
  constructor
  · intro htext
    have hread := congrArg read htext
    rw [h, h] at hread
    exact Option.some.inj hread
  · exact congrArg write

/-- **The reader undoes the writer**: it gives the value back, and what follows. -/
def Reads {α : Type} (read : Reader α) (write : Writer) (a : α) : Prop :=
  ∀ rest, Ends rest → read (write rest) = some (a, rest)

/-! ## 2. Digits -/

/-- The number that a digit stands for, if it is one of this base; letters are in lower case. -/
def digitValue? (base : Nat) (c : Char) : Option Nat :=
  let d := if '0' ≤ c ∧ c ≤ '9' then c.toNat - 48 else if 'a' ≤ c ∧ c ≤ 'f' then c.toNat - 87 else 16
  if d < base then some d else none

/-- Digits are read as long as there are any; `value` is what the digits before them give. -/
def readDigits (base value : Nat) : List Char → Nat × List Char
  | [] => (value, [])
  | c :: cs =>
    match digitValue? base c with
    | some d => readDigits base (base * value + d) cs
    | none => (value, c :: cs)

/-- A natural number.  It has at least one digit, and no zero before another digit. -/
def readNat (base : Nat) : Reader Nat
  | [] => none
  | c :: cs =>
    match digitValue? base c with
    | none => none
    | some 0 => some (0, cs)
    | some (d + 1) => some (readDigits base (d + 1) cs)

/-- An integer in decimal. -/
def readInt : Reader Int
  | '-' :: cs => (readNat 10 cs).map fun read => (-(read.1 : Int), read.2)
  | cs => (readNat 10 cs).map fun read => ((read.1 : Int), read.2)

section Digits

variable {base : Nat} {rest : List Char}

theorem digitValue?_digitChar {d : Nat} (hd : d < base) (hbase : base ≤ 16) :
    digitValue? base (Nat.digitChar d) = some d := by
  have hvalue : ∀ d, d < 16 → (if '0' ≤ Nat.digitChar d ∧ Nat.digitChar d ≤ '9' then
      (Nat.digitChar d).toNat - 48 else if 'a' ≤ Nat.digitChar d ∧ Nat.digitChar d ≤ 'f' then
      (Nat.digitChar d).toNat - 87 else 16) = d := by decide
  simp only [digitValue?, hvalue d (by omega), hd, if_true]

/-- No digit follows. -/
def Stops (base : Nat) (rest : List Char) : Prop :=
  ∀ c ∈ rest.head?, digitValue? base c = none

theorem stops_cons {c : Char} (h : digitValue? base c = none) : Stops base (c :: rest) := by
  simpa [Stops] using h

theorem Ends.stops (h : Ends rest) : Stops 10 rest := by
  intro c hc
  rcases h c hc with rfl | rfl | rfl
  · decide
  · decide
  · decide

theorem readDigits_of_stops {value : Nat} (h : Stops base rest) :
    readDigits base value rest = (value, rest) := by
  cases rest with
  | nil => rfl
  | cons c cs =>
    have hc : digitValue? base c = none := h c rfl
    simp only [readDigits, hc]

/-- **Digits are read as the number that they were written for**, after the digits before them. -/
theorem readDigits_toDigits (h1 : 1 < base) (h16 : base ≤ 16) (n value : Nat) (rest : List Char) :
    readDigits base value (Nat.toDigits base n ++ rest) =
      readDigits base (base ^ (Nat.toDigits base n).length * value + n) rest := by
  induction n using Nat.strongRecOn generalizing rest with
  | _ n ih =>
    rw [Nat.toDigits_eq_if h1]
    split
    · rename_i hlt
      simp only [List.singleton_append, readDigits, digitValue?_digitChar hlt h16,
        List.length_singleton, Nat.pow_one]
    · rename_i hge
      have hlt : n % base < base := Nat.mod_lt n (by omega)
      have hdiv : n / base < n := Nat.div_lt_self (by omega) h1
      rw [List.append_assoc, ih _ hdiv, List.singleton_append]
      simp only [readDigits, digitValue?_digitChar hlt h16, List.length_append,
        List.length_singleton, Nat.pow_succ, Nat.mul_add, Nat.add_assoc, Nat.div_add_mod]
      rw [← Nat.mul_assoc, Nat.mul_comm base (base ^ _)]

/-- The first digit of a positive number is not zero. -/
theorem toDigits_eq_cons (h1 : 1 < base) {n : Nat} (hn : 0 < n) :
    ∃ d cs, Nat.toDigits base n = Nat.digitChar (d + 1) :: cs ∧ d + 1 < base := by
  induction n using Nat.strongRecOn with
  | _ n ih =>
    rw [Nat.toDigits_eq_if h1]
    split
    · rename_i hlt
      obtain ⟨d, rfl⟩ : ∃ d, n = d + 1 := ⟨n - 1, by omega⟩
      exact ⟨d, [], rfl, hlt⟩
    · rename_i hge
      have hdiv : n / base < n := Nat.div_lt_self (by omega) h1
      obtain ⟨d, cs, hcs, hd⟩ := ih _ hdiv (Nat.div_pos (by omega) (by omega))
      exact ⟨d, _, by rw [hcs, List.cons_append], hd⟩

/-- **A number is read back** from its digits. -/
theorem readNat_toDigits (h1 : 1 < base) (h16 : base ≤ 16) {n : Nat} (hrest : Stops base rest) :
    readNat base (Nat.toDigits base n ++ rest) = some (n, rest) := by
  cases Nat.eq_zero_or_pos n with
  | inl hn =>
    have h0 : digitValue? base '0' = some 0 := digitValue?_digitChar (d := 0) (by omega) h16
    subst hn
    simp only [Nat.toDigits_zero, List.singleton_append, readNat, h0]
  | inr hn =>
    obtain ⟨d, cs, hcs, hd⟩ := toDigits_eq_cons h1 hn
    have hall := readDigits_toDigits h1 h16 n 0 rest
    rw [hcs, Nat.mul_zero, Nat.zero_add, readDigits_of_stops hrest] at hall
    simp only [List.cons_append, readDigits, digitValue?_digitChar hd h16, Nat.mul_zero,
      Nat.zero_add] at hall
    rw [hcs]
    simp only [List.cons_append, readNat, digitValue?_digitChar hd h16, hall]

/-- A number begins with a digit. -/
theorem toDigits_ten_eq_cons (n : Nat) :
    ∃ c cs, Nat.toDigits 10 n = c :: cs ∧ c.isDigit = true := by
  cases hdigits : Nat.toDigits 10 n with
  | nil => exact absurd hdigits Nat.toDigits_ne_nil
  | cons c cs =>
    have hmem : c ∈ Nat.toDigits 10 n := hdigits ▸ List.mem_cons_self
    exact ⟨c, cs, rfl, Nat.isDigit_of_mem_toDigits (by decide) (by decide) hmem⟩

/-- An integer begins with a minus sign or with a digit. -/
theorem writeInt_eq_cons (n : Int) (rest : List Char) :
    ∃ c cs, writeInt n rest = c :: cs ∧ (c = '-' ∨ c.isDigit = true) := by
  cases n with
  | ofNat n =>
    obtain ⟨c, cs, hcs, hc⟩ := toDigits_ten_eq_cons n
    exact ⟨c, cs ++ rest, congrArg (· ++ rest) hcs, .inr hc⟩
  | negSucc n => exact ⟨'-', _, rfl, .inl rfl⟩

/-- **An integer is read back.** -/
theorem readInt_writeInt {n : Int} (hrest : Stops 10 rest) :
    readInt (writeInt n rest) = some (n, rest) := by
  cases n with
  | ofNat n =>
    have hread : readNat 10 (Nat.toDigits 10 n ++ rest) = some (n, rest) :=
      readNat_toDigits (by decide) (by decide) hrest
    change readInt (Nat.toDigits 10 n ++ rest) = _
    rw [readInt, hread]
    · rfl
    · intro cs heq
      obtain ⟨c, ds, hds, hc⟩ := toDigits_ten_eq_cons n
      rw [hds, List.cons_append] at heq
      rw [(List.cons.inj heq).1] at hc
      exact absurd hc (by decide)
  | negSucc n =>
    have hread : readNat 10 (Nat.toDigits 10 (n + 1) ++ rest) = some (n + 1, rest) :=
      readNat_toDigits (by decide) (by decide) hrest
    change readInt ('-' :: (Nat.toDigits 10 (n + 1) ++ rest)) = _
    rw [readInt, hread]
    rfl

end Digits

/-! ## 3. Lists -/

section Lists

variable {α β : Type}

/-- At most so many items with a separator between neighbours, and the closing bracket after the
last one. -/
def readSeparated (read : Reader α) (separator : String) (close : Char) : Nat → Reader (List α)
  | 0, _ => none
  | fuel + 1, cs => do
    let (a, cs) ← read cs
    if cs.head? = some close then some ([a], cs.tail)
    else
      let cs ← cs.dropPrefix? separator.toList
      let (as, cs) ← readSeparated read separator close fuel cs
      some (a :: as, cs)

/-- The same, or no item at all. -/
def readEnclosed (read : Reader α) (separator : String) (close : Char) (fuel : Nat) :
    Reader (List α) := fun cs =>
  if cs.head? = some close then some ([], cs.tail) else readSeparated read separator close fuel cs

variable {read : Reader α} {separator : String} {close : Char} {writers : List Writer}
  {as : List α} {fuel : Nat}

theorem dropPrefix?_writeText (text : String) (rest : List Char) :
    (writeText text rest).dropPrefix? text.toList = some rest := by
  rw [writeText, List.dropPrefix?_eq_some_iff]
  exact ⟨text.toList, rfl, by simp⟩

/-- **A list of at least one item is read back**, if each item is. -/
theorem readSeparated_writeSeparated (hclose : close = ']' ∨ close = '\x7d')
    (hseparator : separator.toList.head? = some ',')
    (hitems : List.Forall₂ (Reads read) writers as) (hne : writers ≠ [])
    (hfuel : as.length ≤ fuel) (rest : List Char) :
    readSeparated read separator close fuel (writeSeparated separator writers (close :: rest)) =
      some (as, rest) := by
  induction hitems generalizing fuel with
  | nil => exact absurd rfl hne
  | @cons write a writers as hread hitems ih =>
    obtain ⟨fuel, rfl⟩ : ∃ k, fuel = k + 1 := ⟨fuel - 1, by rw [List.length_cons] at hfuel; omega⟩
    cases hitems with
    | nil =>
      have hlast := hread (close :: rest) (ends_cons (.inr hclose))
      simp only [writeSeparated, readSeparated, hlast, Option.bind_eq_bind, Option.bind_some,
        List.head?_cons, if_true, List.tail_cons]
    | @cons next b writers bs hnext hitems =>
      have hrest := ih (by simp) (by simpa using hfuel)
      generalize htext : writeSeparated separator (next :: writers) (close :: rest) = text at hrest
      obtain ⟨cs, hcs⟩ : ∃ cs, separator.toList = ',' :: cs := by
        cases hs : separator.toList with
        | nil => simp [hs] at hseparator
        | cons c cs =>
          rw [hs, List.head?_cons, Option.some.injEq] at hseparator
          exact ⟨cs, by rw [hseparator]⟩
      have hhead : (writeText separator text).head? = some ',' := by
        rw [writeText, hcs]
        rfl
      have hends : Ends (writeText separator text) := by
        intro c hc
        rw [hhead, Option.mem_some_iff] at hc
        exact .inl hc.symm
      have hmore : ¬ (writeText separator text).head? = some close := by
        rw [hhead]
        rcases hclose with rfl | rfl
        · decide
        · decide
      rw [writeSeparated, htext, readSeparated, hread _ hends]
      simp only [Option.bind_eq_bind, Option.bind_some, hmore, if_false, dropPrefix?_writeText,
        hrest]

/-- **A list is read back**, if each item is and the reader of items takes no closing bracket for
one. -/
theorem readEnclosed_writeSeparated (hclose : close = ']' ∨ close = '\x7d')
    (hseparator : separator.toList.head? = some ',')
    (hitems : List.Forall₂ (Reads read) writers as) (hrefuses : ∀ cs, read (close :: cs) = none)
    (hfuel : as.length ≤ fuel) (rest : List Char) :
    readEnclosed read separator close fuel (writeSeparated separator writers (close :: rest)) =
      some (as, rest) := by
  by_cases hne : writers = []
  · subst hne
    cases hitems
    simp [readEnclosed, writeSeparated]
  have hread := readSeparated_writeSeparated hclose hseparator hitems hne hfuel rest
  rw [readEnclosed, if_neg, hread]
  intro hhead
  obtain ⟨cs, hcs⟩ : ∃ cs, writeSeparated separator writers (close :: rest) = close :: cs := by
    generalize writeSeparated separator writers (close :: rest) = text at hhead
    cases text with
    | nil => simp at hhead
    | cons c cs =>
      rw [List.head?_cons, Option.some.injEq] at hhead
      exact ⟨cs, by rw [hhead]⟩
  rw [hcs] at hread
  cases fuel with
  | zero => simp [readSeparated] at hread
  | succ fuel => simp [readSeparated, hrefuses] at hread

end Lists

/-! ## 4. Lengths -/

/-- The writer puts at least so many characters in front of what follows. -/
def Writer.Adds (write : Writer) (k : Nat) : Prop :=
  ∀ rest, rest.length + k ≤ (write rest).length

theorem adds_writeInt (n : Int) : Writer.Adds (writeInt n) 1 := by
  intro rest
  have hdigits : ∀ n : Nat, 0 < (Nat.toDigits 10 n).length := fun n =>
    List.length_pos_iff.mpr Nat.toDigits_ne_nil
  cases n with
  | ofNat n =>
    have := hdigits n
    simp only [writeInt, writeNat, List.length_append]
    omega
  | negSucc n =>
    simp only [writeInt, writeNat, List.length_cons, List.length_append]
    omega

/-- The items of a list add up. -/
theorem adds_writeSeparated {α : Type} {size : α → Nat} (separator : String)
    {writers : List Writer} {as : List α}
    (h : List.Forall₂ (fun write a => Writer.Adds write (size a)) writers as) :
    Writer.Adds (writeSeparated separator writers) (as.map size).sum := by
  intro rest
  induction h with
  | nil => exact Nat.le_refl _
  | @cons write a writers as hwrite hrest ih =>
    cases hrest with
    | nil => simpa [writeSeparated] using hwrite rest
    | @cons next b writers bs hnext hrest =>
      have hitem := hwrite (writeText separator (writeSeparated separator (next :: writers) rest))
      have hseparator : ∀ text, (writeText separator text).length =
          separator.toList.length + text.length := fun _ => List.length_append
      rw [hseparator] at hitem
      rw [writeSeparated, List.map_cons, List.sum_cons]
      omega

/-! ## 5. Integers of a width -/

/-- The value that a number is in a type of bounded integers, if it is one there. -/
def inRange? {α : Type} (ofInt : Int → α) (toInt : α → Int) (n : Int) : Option α :=
  if toInt (ofInt n) = n then some (ofInt n) else none

theorem inRange?_toInt {α : Type} {ofInt : Int → α} {toInt : α → Int} {a : α}
    (h : ofInt (toInt a) = a) : inRange? ofInt toInt (toInt a) = some a := by
  rw [inRange?, h, if_pos rfl]

/-- The signed number of 64 bits that is this number. -/
def int64? : Int → Option Int64 :=
  inRange? Int64.ofInt Int64.toInt

/-- The signed number of 8 bits that is this number. -/
def int8? : Int → Option Int8 :=
  inRange? Int8.ofInt Int8.toInt

/-- The unsigned number of 64 bits that is this number. -/
def uint64? : Int → Option UInt64 :=
  inRange? (fun n => UInt64.ofNat n.toNat) fun x => (x.toNat : Int)

/-- The byte that is this number. -/
def uint8? : Int → Option UInt8 :=
  inRange? (fun n => UInt8.ofNat n.toNat) fun x => (x.toNat : Int)

theorem int64?_toInt (x : Int64) : int64? x.toInt = some x := inRange?_toInt (Int64.ofInt_toInt x)

theorem int8?_toInt (x : Int8) : int8? x.toInt = some x := inRange?_toInt (Int8.ofInt_toInt x)

theorem uint64?_toNat (x : UInt64) : uint64? x.toNat = some x :=
  inRange?_toInt (a := x) (by simp)

theorem uint8?_toNat (x : UInt8) : uint8? x.toNat = some x :=
  inRange?_toInt (a := x) (by simp)

end TokenImage.Text
