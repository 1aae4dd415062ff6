import TraitMock.Text.Quoted

/-!
# Text/Utf8 — reading bytes as text

Every character has exactly one form in bytes: a first byte says how many more belong to it and
which values the second one may have.  The first byte that does not fit ends the reading; a
character that is cut short by the end of the bytes does so too.
-/

namespace TraitMock.Text

/-- Why bytes are no text. -/
inductive Utf8Reason
  | invalidStart
  | invalidContinuation
  | unexpectedEnd
  deriving DecidableEq, Repr

/-- The wording of a reason. -/
def Utf8Reason.message : Utf8Reason → String
  | .invalidStart => "invalid start byte"
  | .invalidContinuation => "invalid continuation byte"
  | .unexpectedEnd => "unexpected end of data"

/-- **Bytes that are no text**: where the faulty ones begin and end, the first of them, and why. -/
structure Utf8Error where
  start : Nat
  stop : Nat
  first : Nat
  reason : Utf8Reason
  deriving DecidableEq, Repr

/-- The wording of such an error. -/
def Utf8Error.message (e : Utf8Error) : String :=
  (if e.stop = e.start + 1 then
    "'utf-8' codec can't decode byte 0x" ++ hex 2 e.first ++ " in position " ++ toString e.start
  else
    "'utf-8' codec can't decode bytes in position " ++ toString e.start ++ "-" ++
      toString (e.stop - 1)) ++ ": " ++ e.reason.message

/-- What a first byte above ASCII announces: its own bits, and the ranges of the bytes that have to
follow. -/
def announced? (byte : Nat) : Option (Nat × List (Nat × Nat)) :=
  let any : Nat × Nat := (0x80, 0xbf)
  if byte < 0xc2 then none
  else if byte < 0xe0 then some (byte - 0xc0, [any])
  else if byte = 0xe0 then some (0, [(0xa0, 0xbf), any])
  else if byte = 0xed then some (0xd, [(0x80, 0x9f), any])
  else if byte < 0xf0 then some (byte - 0xe0, [any, any])
  else if byte = 0xf0 then some (0, [(0x90, 0xbf), any, any])
  else if byte < 0xf4 then some (byte - 0xf0, [any, any, any])
  else if byte = 0xf4 then some (4, [(0x80, 0x8f), any, any])
  else none

/-- A character of which some bytes are still to come. -/
structure Unfinished where
  start : Nat
  first : Nat
  bits : Nat
  expected : List (Nat × Nat)

/-- Reading bytes from a position on, perhaps in the middle of a character. -/
def decodeFrom : (pos : Nat) → Option Unfinished → List UInt8 → Except Utf8Error (List Char)
  | _, none, [] => .ok []
  | pos, some u, [] => .error ⟨u.start, pos, u.first, .unexpectedEnd⟩
  | pos, none, b :: bytes =>
    let byte := b.toNat
    if byte < 0x80 then (decodeFrom (pos + 1) none bytes).map (Char.ofNat byte :: ·)
    else
      match announced? byte with
      | none => .error ⟨pos, pos + 1, byte, .invalidStart⟩
      | some (bits, expected) => decodeFrom (pos + 1) (some ⟨pos, byte, bits, expected⟩) bytes
  | pos, some u, b :: bytes =>
    let byte := b.toNat
    match u.expected with
    | [] => .error ⟨u.start, pos, u.first, .invalidContinuation⟩
    | (low, high) :: expected =>
      if low ≤ byte ∧ byte ≤ high then
        let bits := u.bits * 0x40 + (byte - 0x80)
        if expected.isEmpty then (decodeFrom (pos + 1) none bytes).map (Char.ofNat bits :: ·)
        else decodeFrom (pos + 1) (some ⟨u.start, u.first, bits, expected⟩) bytes
      else .error ⟨u.start, pos, u.first, .invalidContinuation⟩

/-- **Bytes as text.** -/
def decodeUtf8 (bytes : List UInt8) : Except Utf8Error (List Char) := decodeFrom 0 none bytes

/-- **One kind of line ends**: a carriage return, alone or before a line feed, becomes a line
feed. -/
def unifyLineEnds : List Char → List Char
  | [] => []
  | '\r' :: '\n' :: cs => '\n' :: unifyLineEnds cs
  | c :: cs => (if c = '\r' then '\n' else c) :: unifyLineEnds cs

end TraitMock.Text
