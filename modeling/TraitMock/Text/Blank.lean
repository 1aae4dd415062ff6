/-!
# Text/Blank — blanks and line ends of Unicode

Two sets of characters and what is cut off by them.
-/

namespace TraitMock.Text

/-- Whether the code of a character lies in one of the given closed ranges. -/
def inRanges (ranges : List (Nat × Nat)) (c : Char) : Bool :=
  ranges.any fun (low, high) => low ≤ c.toNat && c.toNat ≤ high

/-- **The blanks**: the characters with the property White_Space, and the four separators of
information. -/
def blankRanges : List (Nat × Nat) :=
  [(0x9, 0xd), (0x1c, 0x20), (0x85, 0x85), (0xa0, 0xa0), (0x1680, 0x1680), (0x2000, 0x200a),
   (0x2028, 0x2029), (0x202f, 0x202f), (0x205f, 0x205f), (0x3000, 0x3000)]

/-- Whether a character is a blank. -/
def isBlank (c : Char) : Bool := inRanges blankRanges c

/-- **The line ends**: line feed, vertical tab, form feed, carriage return, the separators of
files, groups and records, next line, and the separators of lines and paragraphs. -/
def lineEndRanges : List (Nat × Nat) :=
  [(0xa, 0xd), (0x1c, 0x1e), (0x85, 0x85), (0x2028, 0x2029)]

/-- Whether a character ends a line. -/
def isLineEnd (c : Char) : Bool := inRanges lineEndRanges c

/-- A text without the blanks at its end. -/
def trimRight (cs : List Char) : List Char := (cs.reverse.dropWhile isBlank).reverse

/-- The first line of a text. -/
def firstLine (s : String) : String := String.ofList (s.toList.takeWhile fun c => !isLineEnd c)

end TraitMock.Text
