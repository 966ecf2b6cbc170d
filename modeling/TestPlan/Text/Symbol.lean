/-!
# Symbols and texts

A text is a list of symbols. A symbol is a character, or half of one: a character beyond U+FFFF has a
second form of two halves, and a document may ask for a half by its code, also where the other one is
missing. Two halves next to each other stay two symbols. Characters and strings count as symbols and texts
wherever these are expected.

Every symbol has a code, and every code belongs to a symbol (`code_ofCode`, `ofCode_code`). Texts are ordered by
the codes of their symbols.
-/

namespace TestPlan

/-- A character, or a half of one. The halves are numbered from U+D800 on. -/
inductive Symbol
  | char (c : Char)
  | half (number : Fin 2048)
  deriving DecidableEq

/-- A text. -/
abbrev Text := List Symbol

/-- Texts that compare as equal are equal. -/
instance : LawfulBEq Text := inferInstance

namespace Symbol

/-- A character is a symbol. -/
instance : Coe Char Symbol := ⟨char⟩

/-- The code of the first half. -/
def firstHalf : Nat := 0xD800

/-- The code of a symbol. -/
def code : Symbol → Nat
  | char c => c.toNat
  | half number => firstHalf + number

/-- The symbol with a code. -/
def ofCode (code : Nat) : Symbol :=
  if h : firstHalf ≤ code ∧ code < firstHalf + 2048 then half ⟨code - firstHalf, by omega⟩
  else char (Char.ofNat code)

/-- Every code up to the last character's belongs to the symbol made from it. -/
theorem code_ofCode {code : Nat} (h : code < 0x110000) : (ofCode code).code = code := by
  rw [ofCode]
  split
  next hhalf => exact Nat.add_sub_cancel' hhalf.1
  next hchar =>
    have hvalid : code.isValidChar := by
      simp only [firstHalf, not_and] at hchar
      simp only [Nat.isValidChar]
      omega
    rw [Symbol.code, Char.ofNat, dif_pos hvalid]
    rfl

/-- A symbol is the one that belongs to its code. -/
theorem ofCode_code (s : Symbol) : ofCode s.code = s := by
  cases s with
  | char c =>
    have hvalid := c.valid
    have hrange : ¬ (firstHalf ≤ c.toNat ∧ c.toNat < firstHalf + 2048) := by
      simp only [UInt32.isValidChar, Nat.isValidChar, firstHalf, Char.toNat] at *
      omega
    rw [code, ofCode, dif_neg hrange, Char.ofNat_toNat]
  | half number =>
    rw [code, ofCode, dif_pos ⟨Nat.le_add_right _ _, Nat.add_lt_add_left number.isLt _⟩]
    exact congrArg half (Fin.ext (Nat.add_sub_cancel_left _ _))

/-- Whether a symbol is a half. -/
def isHalf : Symbol → Bool
  | char _ => false
  | half _ => true

/-- The character that a symbol is. -/
def char? : Symbol → Option Char
  | char c => some c
  | half _ => none

end Symbol

namespace Text

/-- The text of these characters. -/
def ofChars (chars : List Char) : Text := chars.map .char

/-- A string as a text. -/
def ofString (s : String) : Text := ofChars s.toList

/-- A string is a text without halves of characters. -/
instance : Coe String Text := ⟨ofString⟩

/-- The characters of a text, unless there are halves among its symbols. -/
def chars? (text : Text) : Option (List Char) := text.mapM Symbol.char?

/-- The text without its halves as a string. -/
def visible (text : Text) : String := String.ofList (text.filterMap Symbol.char?)

/-- Whether a text comes before another in the order of codes, or is the same. -/
def precedes : Text → Text → Bool
  | [], _ => true
  | _ :: _, [] => false
  | s :: rest, t :: more => s.code < t.code || (s.code == t.code && precedes rest more)

/-- Texts written one after the other with a text between them. -/
def joinWith (between : Text) (texts : List Text) : Text := between.intercalate texts

/-- Texts with commas between them. -/
def listed (texts : List Text) : Text := joinWith ", " texts

/-- Halves that follow each other in a text: the code of the first one, where it is, and how many there
are. -/
structure Halves where
  code : Nat
  position : Nat
  count : Nat
  deriving DecidableEq

/-- The first halves of a text, beginning with one of a class. -/
def firstHalves? (class? : Symbol → Bool) (text : Text) : Option Halves :=
  match text.dropWhile fun s => !class? s with
  | [] => none
  | s :: rest =>
    some ⟨s.code, (text.takeWhile fun s => !class? s).length, (rest.takeWhile Symbol.isHalf).length + 1⟩

/-- A text of characters has exactly these characters. -/
theorem chars?_ofChars (chars : List Char) : chars? (ofChars chars) = some chars := by
  induction chars with
  | nil => rfl
  | cons c rest ih => simp_all [chars?, ofChars, Symbol.char?]

end Text
end TestPlan
