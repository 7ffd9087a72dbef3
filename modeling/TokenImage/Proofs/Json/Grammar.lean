/-
# The grammar of JSON, and compact texts in it

The whole grammar: blanks between the parts, the three literals, numbers with a fraction and an
exponent, escapes by letter and by number.  Each rule relates a text to what is left of it, so a
text is one value, with nothing after it, if nothing is left (`IsJson`).

The compact text of every value is in the grammar (`isJson_compact`).  What a rule leaves is given,
not found, so nothing is said here of what a reader does with a text.
-/
import TokenImage.Json
import TokenImage.Proofs.Text.Reading

namespace TokenImage.Json

open TokenImage.Text

/-! ## 1. The grammar -/

/-- What may stand between the parts of a value. -/
def isBlank (c : Char) : Bool :=
  c = ' ' || c = '\t' || c = '\n' || c = '\r'

/-- Any number of blanks. -/
inductive Blanks : List Char → List Char → Prop
  | none {t : List Char} : Blanks t t
  | more {c : Char} {t rest : List Char} : isBlank c = true → Blanks t rest → Blanks (c :: t) rest

/-- At least one digit. -/
inductive Digits : List Char → List Char → Prop
  | last {c : Char} {rest : List Char} : c.isDigit = true → Digits (c :: rest) rest
  | more {c : Char} {t rest : List Char} : c.isDigit = true → Digits t rest → Digits (c :: t) rest

/-- The whole part of a number: zero, or digits of which the first is not zero. -/
inductive Whole : List Char → List Char → Prop
  | zero {rest : List Char} : Whole ('0' :: rest) rest
  | digit {c : Char} {rest : List Char} : c.isDigit = true → c ≠ '0' → Whole (c :: rest) rest
  | digits {c : Char} {t rest : List Char} :
      c.isDigit = true → c ≠ '0' → Digits t rest → Whole (c :: t) rest

/-- The fraction of a number, if it has one. -/
inductive Fraction : List Char → List Char → Prop
  | none {t : List Char} : Fraction t t
  | point {t rest : List Char} : Digits t rest → Fraction ('.' :: t) rest

/-- The sign of an exponent, if it has one. -/
inductive Sign : List Char → List Char → Prop
  | none {t : List Char} : Sign t t
  | plus {t : List Char} : Sign ('+' :: t) t
  | minus {t : List Char} : Sign ('-' :: t) t

/-- The exponent of a number, if it has one. -/
inductive Exponent : List Char → List Char → Prop
  | none {t : List Char} : Exponent t t
  | mark {c : Char} {t u rest : List Char} :
      c = 'e' ∨ c = 'E' → Sign t u → Digits u rest → Exponent (c :: t) rest

/-- A number without its sign. -/
inductive Magnitude : List Char → List Char → Prop
  | parts {t u v rest : List Char} : Whole t u → Fraction u v → Exponent v rest → Magnitude t rest

/-- A hexadecimal digit, in lower or in upper case. -/
def isHexDigit (c : Char) : Bool :=
  c.isDigit || ('a' ≤ c && c ≤ 'f') || ('A' ≤ c && c ≤ 'F')

/-- The characters of a text, up to its closing quote. -/
inductive Chars : List Char → List Char → Prop
  | close {rest : List Char} : Chars ('"' :: rest) rest
  | plain {c : Char} {t rest : List Char} :
      c ≠ '"' → c ≠ '\\' → 0x20 ≤ c.toNat → Chars t rest → Chars (c :: t) rest
  | letter {c : Char} {t rest : List Char} :
      c ∈ ['"', '\\', '/', 'b', 'f', 'n', 'r', 't'] → Chars t rest → Chars ('\\' :: c :: t) rest
  | code {a b c d : Char} {t rest : List Char} :
      isHexDigit a = true → isHexDigit b = true → isHexDigit c = true → isHexDigit d = true →
      Chars t rest → Chars ('\\' :: 'u' :: a :: b :: c :: d :: t) rest

/-- At least one part, with commas between neighbours. -/
inductive Separated (Part : List Char → List Char → Prop) : List Char → List Char → Prop
  | last {t rest : List Char} : Part t rest → Separated Part t rest
  | more {t u rest : List Char} :
      Part t (',' :: u) → Separated Part u rest → Separated Part t rest

mutual

/-- A value. -/
inductive Derives : List Char → List Char → Prop
  | literal {word : String} {rest : List Char} :
      word ∈ ["true", "false", "null"] → Derives (writeText word rest) rest
  | number {t rest : List Char} : Magnitude t rest → Derives t rest
  | negative {t rest : List Char} : Magnitude t rest → Derives ('-' :: t) rest
  | text {t rest : List Char} : Chars t rest → Derives ('"' :: t) rest
  | emptyArray {t rest : List Char} : Blanks t (']' :: rest) → Derives ('[' :: t) rest
  | array {t rest : List Char} : Separated DerivesPadded t (']' :: rest) → Derives ('[' :: t) rest
  | emptyObject {t rest : List Char} : Blanks t ('\x7d' :: rest) → Derives ('\x7b' :: t) rest
  | object {t rest : List Char} :
      Separated DerivesMember t ('\x7d' :: rest) → Derives ('\x7b' :: t) rest

/-- A value with blanks around it. -/
inductive DerivesPadded : List Char → List Char → Prop
  | around {t u v rest : List Char} :
      Blanks t u → Derives u v → Blanks v rest → DerivesPadded t rest

/-- A key and, after a colon, the value that it is for. -/
inductive DerivesMember : List Char → List Char → Prop
  | keyed {t u v w rest : List Char} :
      Blanks t ('"' :: u) → Chars u v → Blanks v (':' :: w) → DerivesPadded w rest →
      DerivesMember t rest

end

/-- **The text is one JSON value** and nothing else. -/
def IsJson (text : String) : Prop :=
  DerivesPadded text.toList []

/-! ## 2. Written numbers -/

variable {rest : List Char}

theorem digits_of_forall : ∀ {cs : List Char}, cs ≠ [] → (∀ c ∈ cs, c.isDigit = true) →
    Digits (cs ++ rest) rest
  | [], hne, _ => absurd rfl hne
  | [_], _, hdigits => .last (hdigits _ List.mem_cons_self)
  | _ :: c :: cs, _, hdigits =>
    .more (hdigits _ List.mem_cons_self)
      (digits_of_forall (List.cons_ne_nil c cs) fun _ h => hdigits _ (List.mem_cons_of_mem _ h))

/-- The digits of a number are the whole part of one. -/
theorem whole_toDigits (n : Nat) : Whole (Nat.toDigits 10 n ++ rest) rest := by
  have hdigits : ∀ c ∈ Nat.toDigits 10 n, c.isDigit = true := fun c hc =>
    Nat.isDigit_of_mem_toDigits (by decide) (by decide) hc
  cases Nat.eq_zero_or_pos n with
  | inl hn =>
    rw [hn, Nat.toDigits_zero]
    exact .zero
  | inr hn =>
    obtain ⟨d, cs, hcs, hd⟩ := toDigits_eq_cons (by decide : 1 < 10) hn
    rw [hcs] at hdigits ⊢
    have hfirst : Nat.digitChar (d + 1) ≠ '0' := by
      have hall : ∀ d, d < 9 → Nat.digitChar (d + 1) ≠ '0' := by decide
      exact hall d (by omega)
    by_cases hne : cs = []
    · rw [hne]
      exact .digit (hdigits _ List.mem_cons_self) hfirst
    · exact .digits (hdigits _ List.mem_cons_self) hfirst
        (digits_of_forall hne fun c hc => hdigits c (List.mem_cons_of_mem _ hc))

theorem derives_writeInt (n : Int) : Derives (writeInt n rest) rest := by
  cases n with
  | ofNat n => exact .number (.parts (whole_toDigits n) .none .none)
  | negSucc n => exact .negative (.parts (whole_toDigits (n + 1)) .none .none)

/-! ## 3. Written texts -/

theorem isHexDigit_digitChar {d : Nat} (hd : d < 16) : isHexDigit (Nat.digitChar d) = true := by
  revert d
  decide

/-- One character of a text, before characters that are in the grammar. -/
theorem chars_writeChar {t : List Char} (c : Char) (h : Chars t rest) :
    Chars (writeChar c t) rest := by
  rw [writeChar]
  split
  · exact .letter (by decide) h
  split
  · exact .letter (by decide) h
  split
  · rename_i hlow
    have hbyte : c.toNat.toUInt8.toNat < 256 := UInt8.toNat_lt _
    exact .code rfl rfl (isHexDigit_digitChar (by omega)) (isHexDigit_digitChar (by omega)) h
  · rename_i hquote hslash hlow
    exact .plain hquote hslash (by omega) h

theorem chars_writeChars (cs : List Char) :
    Chars (cs.foldr writeChar ('"' :: rest)) rest := by
  induction cs with
  | nil => exact .close
  | cons c cs ih => exact chars_writeChar c ih

/-! ## 4. Written values -/

theorem DerivesPadded.of_derives {t : List Char} (h : Derives t rest) : DerivesPadded t rest :=
  .around .none h .none

/-- Written parts with commas between them. -/
theorem separated_writeSeparated {Part : List Char → List Char → Prop} :
    ∀ {writers : List Writer}, writers ≠ [] →
      (∀ write ∈ writers, ∀ rest, Part (write rest) rest) →
      ∀ rest, Separated Part (writeSeparated "," writers rest) rest
  | [], hne, _, _ => absurd rfl hne
  | [write], _, h, rest => .last (h write List.mem_cons_self rest)
  | write :: next :: writers, _, h, rest =>
    .more (h write List.mem_cons_self _)
      (separated_writeSeparated (List.cons_ne_nil next writers)
        (fun w hw => h w (List.mem_cons_of_mem _ hw)) rest)

mutual

/-- **What is written for a value is a value**, whatever follows. -/
theorem derives_write : ∀ (v : Json) (rest : List Char), Derives (write v rest) rest
  | .number n, _ => derives_writeInt n
  | .text s, _ => .text (chars_writeChars s.toList)
  | .array [], _ => .emptyArray .none
  | .array (v :: vs), rest =>
    .array (separated_writeSeparated (List.cons_ne_nil _ _) (derives_itemWriters (v :: vs))
      (']' :: rest))
  | .object [], _ => .emptyObject .none
  | .object (m :: ms), rest =>
    .object (separated_writeSeparated (List.cons_ne_nil _ _) (derives_memberWriters (m :: ms))
      ('\x7d' :: rest))

theorem derives_itemWriters : ∀ (vs : List Json), ∀ write ∈ itemWriters vs,
    ∀ rest, DerivesPadded (write rest) rest
  | v :: vs, w, hw, rest => by
    rw [itemWriters, List.mem_cons] at hw
    rcases hw with rfl | hw
    · exact .of_derives (derives_write v rest)
    · exact derives_itemWriters vs w hw rest

theorem derives_memberWriters : ∀ (members : List (String × Json)),
    ∀ write ∈ memberWriters members, ∀ rest, DerivesMember (write rest) rest
  | (key, v) :: members, w, hw, rest => by
    rw [memberWriters, List.mem_cons] at hw
    rcases hw with rfl | hw
    · exact .keyed .none (chars_writeChars key.toList) .none (.of_derives (derives_write v rest))
    · exact derives_memberWriters members w hw rest

end

/-- **Compact text is well formed.** -/
theorem isJson_compact (v : Json) : IsJson v.compact := by
  have h : DerivesPadded (write v []) [] := .of_derives (derives_write v [])
  rwa [IsJson, compact, Writer.text, String.toList_ofList]

end TokenImage.Json
