import ArrowCheck.Source.Span
import ArrowCheck.Text.Utf8

namespace ArrowCheck

/-- Lines and columns count from one, and columns count characters. -/
structure LineColumn where
  line : Nat
  column : Nat
deriving DecidableEq

def SourceText.dropReturn (cs : List Char) : List Char :=
  if cs.getLast? = some '\r' then cs.dropLast else cs

/-- The offsets at which the lines of a text start, and the length of the text in bytes. -/
structure LineIndex where
  starts : Array Nat
  length : Nat

namespace LineIndex

def ofChars (cs : List Char) : LineIndex :=
  let bytes := Utf8.encode cs
  let newlines := bytes.zipIdx.filter fun (b, _) => b = 0x0A
  ⟨(0 :: newlines.map fun (_, i) => i + 1).toArray, bytes.length⟩

/-- Looks for a value among the entries from `low` to `high`, halving them `bound` times at most; a value
that is not there is told by the place to put it at. -/
def search (starts : Array Nat) (value : Nat) : (bound low high : Nat) → Except Nat Nat
  | 0, low, _ => .error low
  | bound + 1, low, high =>
    if low < high then
      let middle := (low + high) / 2
      let start := starts.getD middle 0
      if start = value then .ok middle
      else if start < value then search starts value bound (middle + 1) high
      else search starts value bound low middle
    else .error low

def lineOf (index : LineIndex) (offset : Nat) : Nat :=
  match search index.starts offset index.starts.size 0 index.starts.size with
  | .ok exact => exact
  | .error next => next - 1

/-- The place of a byte of a text; a byte behind the text has the place of its end. A byte inside a
character is counted in bytes from the start of its line. -/
def locate (index : LineIndex) (cs : List Char) (offset : Nat) : LineColumn :=
  let offset := min offset index.length
  let line := index.lineOf offset
  let start := index.starts.getD line 0
  let column := ((charsBetween start offset cs).map List.length).getD (offset - start)
  ⟨line + 1, column + 1⟩

def lineText? (index : LineIndex) (cs : List Char) (line : Nat) : Option (List Char) := do
  if line = 0 then none
  else
    let start ← index.starts[line - 1]?
    let stop := (index.starts[line]?.map (· - 1)).getD index.length
    (charsBetween start stop cs).map SourceText.dropReturn

end LineIndex

structure SourceText where
  chars : List Char
  index : LineIndex

namespace SourceText

def ofChars (cs : List Char) : SourceText := ⟨cs, .ofChars cs⟩

def ofString (s : String) : SourceText := ofChars s.toList

def lineCount (t : SourceText) : Nat := t.index.starts.size

def locate (t : SourceText) (offset : Nat) : LineColumn := t.index.locate t.chars offset

def lineText? (t : SourceText) (line : Nat) : Option (List Char) := t.index.lineText? t.chars line

end SourceText

end ArrowCheck
