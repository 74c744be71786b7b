namespace KeyAudit

/-!
# Text as a sequence of code points

Literals of compiled classes may hold surrogate code points on their own, so
text is a list of code points and not of characters.  Text is compared and
sorted by code point.
-/

/-- A Unicode code point, surrogates included. -/
abbrev CodePoint := Fin 0x110000

namespace CodePoint

/-- Every character is a code point below the end of the code space. -/
theorem toNat_lt_codeSpace (character : Char) :
    character.toNat < 0x110000 := by
  have valid := character.valid
  simp only [UInt32.isValidChar, Nat.isValidChar] at valid
  change character.val.toNat < 0x110000
  omega

/-- The code point of a character. -/
def ofChar (character : Char) : CodePoint :=
  ⟨character.toNat, toNat_lt_codeSpace character⟩

instance : Coe Char CodePoint := ⟨ofChar⟩

/-- A leading half of a surrogate pair. -/
def isHighSurrogate (point : CodePoint) : Bool :=
  0xD800 ≤ point.val && point.val < 0xDC00

/-- A trailing half of a surrogate pair. -/
def isLowSurrogate (point : CodePoint) : Bool :=
  0xDC00 ≤ point.val && point.val < 0xE000

/-- A surrogate code point of either half. -/
def isSurrogate (point : CodePoint) : Bool :=
  0xD800 ≤ point.val && point.val < 0xE000

/-- An ASCII decimal digit. -/
def isDigit (point : CodePoint) : Bool :=
  0x30 ≤ point.val && point.val ≤ 0x39

/-- The value of an ASCII digit in bases up to sixteen. -/
def digitValue? (point : CodePoint) : Option Nat :=
  if 0x30 ≤ point.val ∧ point.val ≤ 0x39 then
    some (point.val - 0x30)
  else if 0x41 ≤ point.val ∧ point.val ≤ 0x46 then
    some (point.val - 0x37)
  else if 0x61 ≤ point.val ∧ point.val ≤ 0x66 then
    some (point.val - 0x57)
  else
    none

/-- An ASCII capital letter. -/
def isCapital (point : CodePoint) : Bool :=
  0x41 ≤ point.val && point.val ≤ 0x5A

/-- The supplementary code point that a surrogate pair stands for. -/
def ofPair (high low : CodePoint) : CodePoint :=
  ⟨(0x10000 + (high.val % 0x400) * 0x400 + low.val % 0x400) % 0x110000,
    Nat.mod_lt _ (by decide)⟩

end CodePoint

/-- Order lists by their first items that differ; a beginning comes before the whole. -/
def lexicographic {Item : Type} [DecidableEq Item] (le : Item → Item → Bool) :
    List Item → List Item → Bool
  | [], _ => true
  | _ :: _, [] => false
  | first :: firsts, second :: seconds =>
      if first = second then lexicographic le firsts seconds else le first second

/-- A finite sequence of code points. -/
abbrev Text := List CodePoint

namespace Text

/-- The code points of a string. -/
def ofString (source : String) : Text :=
  source.toList.map CodePoint.ofChar

instance : Coe String Text := ⟨ofString⟩

/-- A natural number in decimal digits. -/
def ofNat (number : Nat) : Text :=
  (Nat.toDigits 10 number).map CodePoint.ofChar

/-- An integer in decimal digits, with a minus sign when it is negative. -/
def ofInt : Int → Text
  | .ofNat number => ofNat number
  | .negSucc number => CodePoint.ofChar '-' :: ofNat (number + 1)

/-- Parts in order with a separator between neighbours. -/
def joinWith (separator : Text) (parts : List Text) : Text :=
  separator.intercalate parts

/-- Pad on the left with spaces up to a width. -/
def padLeft (width : Nat) (text : Text) : Text :=
  List.replicate (width - text.length) (CodePoint.ofChar ' ') ++ text

/-- Pad on the right with spaces up to a width. -/
def padRight (width : Nat) (text : Text) : Text :=
  text ++ List.replicate (width - text.length) (CodePoint.ofChar ' ')

/-- A decimal number padded on the left with zeros up to a width. -/
def zeroPadded (width number : Nat) : Text :=
  let digits := ofNat number
  List.replicate (width - digits.length) (CodePoint.ofChar '0') ++ digits

/-- Put another code point in place of each occurrence of one. -/
def substitute (old new : CodePoint) (text : Text) : Text :=
  text.map fun point => if point = old then new else point

/--
A text in lower case, as far as a comparison with ASCII words can tell: ASCII
capitals, and the Kelvin sign, whose lower case is an ASCII letter.
-/
def lowerCase (text : Text) : Text :=
  text.map fun point =>
    if point.isCapital then
      ⟨(point.val + 0x20) % 0x110000, Nat.mod_lt _ (by decide)⟩
    else if point.val = 0x212A then
      CodePoint.ofChar 'k'
    else
      point

/-- Whether a text begins with another. -/
def startsWith (text start : Text) : Bool :=
  start.isPrefixOf text

/-- Whether a text ends with another. -/
def endsWith (text ending : Text) : Bool :=
  ending.isSuffixOf text

/-- The pieces between the occurrences of a code point. -/
def splitAtEach (separator : CodePoint) : Text → List Text
  | [] => [[]]
  | point :: rest =>
      match splitAtEach separator rest with
      | [] => [[point]]
      | piece :: pieces =>
          if point = separator then
            [] :: piece :: pieces
          else
            (point :: piece) :: pieces

/-- Order by the first code point that differs; a beginning comes before the whole. -/
def le : Text → Text → Bool :=
  lexicographic fun first second => first.val ≤ second.val

/-- Order rows of texts by the first text that differs. -/
def rowLe : List Text → List Text → Bool :=
  lexicographic le

/-- Sort by code point. -/
def sorted (texts : List Text) : List Text :=
  texts.mergeSort le

/-- Sort by code point and keep each text once. -/
def sortedDistinct (texts : List Text) : List Text :=
  (sorted texts).eraseReps

/-- The characters of a text; a surrogate has none and is written as U+FFFD. -/
def toDisplay (text : Text) : String :=
  String.ofList <| text.map fun point =>
    if point.isSurrogate then Char.ofNat 0xFFFD else Char.ofNat point.val

end Text

end KeyAudit
