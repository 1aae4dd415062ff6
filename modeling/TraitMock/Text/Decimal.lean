import TraitMock.Text.Blank

/-!
# Text/Decimal — reading whole numbers

A whole number is written with the decimal digits of any script, after an optional sign; a single
underscore may stand between two digits, and blanks around the whole.  `decimal?` reads it.
-/

namespace TraitMock.Text

/-- The zeros of the scripts of Unicode 14; the other digits follow each of them. -/
def digitZeros : List Nat :=
  [0x30, 0x660, 0x6f0, 0x7c0, 0x966, 0x9e6, 0xa66, 0xae6, 0xb66, 0xbe6, 0xc66, 0xce6, 0xd66,
   0xde6, 0xe50, 0xed0, 0xf20, 0x1040, 0x1090, 0x17e0, 0x1810, 0x1946, 0x19d0, 0x1a80, 0x1a90,
   0x1b50, 0x1bb0, 0x1c40, 0x1c50, 0xa620, 0xa8d0, 0xa900, 0xa9d0, 0xa9f0, 0xaa50, 0xabf0, 0xff10,
   0x104a0, 0x10d30, 0x11066, 0x110f0, 0x11136, 0x111d0, 0x112f0, 0x11450, 0x114d0, 0x11650,
   0x116c0, 0x11730, 0x118e0, 0x11950, 0x11c50, 0x11d50, 0x11da0, 0x16a60, 0x16ac0, 0x16b50,
   0x1d7ce, 0x1d7d8, 0x1d7e2, 0x1d7ec, 0x1d7f6, 0x1e140, 0x1e2f0, 0x1e950, 0x1fbf0]

/-- **The value of a decimal digit.** -/
def digitValue? (c : Char) : Option Nat :=
  (digitZeros.find? fun start => start ≤ c.toNat && c.toNat < start + 10).map (c.toNat - ·)

/-- The blanks that may stand around a number: all but the separators of information. -/
def isNumberBlank (c : Char) : Bool := isBlank c && !(0x1c ≤ c.toNat && c.toNat ≤ 0x1f)

/-- No number has more digits than this. -/
def digitLimit : Nat := 4300

/-- The digits of a number, with single underscores between them. -/
def digits? : List Char → Option (List Nat)
  | [] => none
  | [c] => (digitValue? c).map ([·])
  | c :: '_' :: rest => do return (← digitValue? c) :: (← digits? rest)
  | c :: rest => do return (← digitValue? c) :: (← digits? rest)

/-- A number without a sign. -/
def natural? (cs : List Char) : Option Nat := do
  let digits ← digits? cs
  if digits.length ≤ digitLimit then return digits.foldl (fun n d => 10 * n + d) 0 else none

/-- **Reading a whole number.** -/
def decimal? (s : String) : Option Int :=
  let front := s.toList.dropWhile isNumberBlank
  match (front.reverse.dropWhile isNumberBlank).reverse with
  | '+' :: cs => (natural? cs).map Int.ofNat
  | '-' :: cs => (natural? cs).map fun n => -Int.ofNat n
  | cs => (natural? cs).map Int.ofNat

end TraitMock.Text
