import ArrowCheck.Source.Lines

namespace ArrowCheck

def isLineBreak (c : Char) : Bool :=
  ['\n', '\r', '\x0b', '\x0c', '\u0085', '\u2028', '\u2029'].contains c

/-- The lines of a text with their line breaks; a carriage return and a newline are one. -/
def brokenLines : List Char → List (List Char)
  | [] => []
  | '\r' :: '\n' :: cs => ['\r', '\n'] :: brokenLines cs
  | c :: cs =>
    if isLineBreak c then [c] :: brokenLines cs
    else match brokenLines cs with
      | line :: lines => (c :: line) :: lines
      | [] => [[c]]

/-- The place of the character at `offset` in lines of which the first has the given number. -/
def placeIn : Nat → Nat → List (List Char) → LineColumn
  | number, offset, line :: next :: lines =>
    if offset < line.length then ⟨number, offset + 1⟩
    else placeIn (number + 1) (offset - line.length) (next :: lines)
  | number, offset, _ => ⟨number, offset + 1⟩

/-- The number of characters before a byte; all of them if the byte lies inside a character. -/
def charOffset (cs : List Char) (byte : Nat) : Nat :=
  match charsBefore byte cs with
  | some before => before.length
  | none => cs.length

def placeOfByte (cs : List Char) (byte : Nat) : LineColumn :=
  placeIn 1 (charOffset cs byte) (brokenLines cs)

end ArrowCheck
