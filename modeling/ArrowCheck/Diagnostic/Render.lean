import ArrowCheck.Diagnostic.Basic
import ArrowCheck.Source.Lines
import ArrowCheck.Table
import ArrowCheck.Text.Width

namespace ArrowCheck

inductive Colour
  | red
  | green
  | yellow
  | blue
  | cyan
deriving DecidableEq

/-- How a piece of text stands out: bold, and in a colour if it has one. -/
structure Paint where
  colour : Option Colour
deriving DecidableEq

structure Piece where
  text : String
  paint : Option Paint := none
deriving DecidableEq

namespace Piece

def bold (text : String) : Piece := ⟨text, some ⟨none⟩⟩

def coloured (colour : Colour) (text : String) : Piece := ⟨text, some ⟨some colour⟩⟩

def blanks (n : Nat) : Piece := ⟨"".pushn ' ' n, none⟩

def newline : Piece := ⟨"\n", none⟩

end Piece

def Colour.code : Colour → String
  | red => "31"
  | green => "32"
  | yellow => "33"
  | blue => "34"
  | cyan => "36"

def escape (code : String) : String := "\x1b[" ++ code ++ "m"

def Paint.ansi (p : Paint) : String :=
  escape "0" ++ escape "1" ++ match p.colour with
    | some c => escape c.code
    | none => ""

def Piece.ansi (p : Piece) : String :=
  match p.paint with
  | some paint => paint.ansi ++ p.text ++ escape "0"
  | none => p.text

def plainText (ps : List Piece) : String := String.join (ps.map Piece.text)

def ansiText (ps : List Piece) : String := String.join (ps.map Piece.ansi)

/-- Pieces that are drawn one behind the other. A drawing that is not finished has been given up: what
would stand behind it is not drawn. -/
structure Drawing where
  pieces : List Piece
  finished : Bool := true
deriving DecidableEq

namespace Drawing

def andThen (first second : Drawing) : Drawing :=
  if first.finished then ⟨first.pieces ++ second.pieces, second.finished⟩ else first

instance : Append Drawing := ⟨andThen⟩

def sequence (ds : List Drawing) : Drawing := ds.foldr (· ++ ·) ⟨[], true⟩

end Drawing

def Severity.colour : Severity → Colour
  | error => .red
  | warning => .yellow
  | note => .cyan
  | help => .green

/-- The texts that labels refer to, by name. -/
abbrev Sources := Table String SourceText

/-- The line on which a label starts, and the part of it that the label covers, in columns of the
screen. -/
structure LabelledLine where
  number : Nat
  text : List Char
  indent : Nat
  marks : Nat
deriving DecidableEq

/-- The labelled part ends with the range or with the line; something is marked even if it is empty. -/
def SourceText.labelled (t : SourceText) (span : Span) : LabelledLine :=
  let start := t.locate span.start
  let text := (t.lineText? start.line).getD []
  let before := text.take (start.column - 1)
  let covered := charsCovering span.length (text.drop (start.column - 1))
  ⟨start.line, text, Text.width before, max 1 (Text.width covered)⟩

/-- A line that is too wide is cut between characters to three bytes less than the limit, and ends in
three dots. -/
def shownLine (maxWidth : Nat) (text : List Char) : String :=
  if Text.width text ≤ maxWidth then String.ofList text
  else String.ofList (charsWithin (maxWidth - 3) text) ++ "..."

def margin (gutter : Nat) (number : String) : Piece :=
  .coloured .blue ("".pushn ' ' (gutter - number.length) ++ number ++ " |")

def LabelledLine.textRow (l : LabelledLine) (maxWidth gutter : Nat) : List Piece :=
  [margin gutter (toString l.number), ⟨" " ++ shownLine maxWidth l.text, none⟩, .newline]

/-- The widest gap that can be drawn. -/
def widestGap : Nat := 65535

/-- The row below it, which underlines the labelled part. It is given up behind the margin if the part
starts too far to the right. -/
def LabelledLine.markRow (l : LabelledLine) (severity : Severity) (message : String) (gutter : Nat) :
    Drawing :=
  let marks := Piece.coloured severity.colour ("".pushn severity.underline l.marks)
  let note := if message.isEmpty then [] else [⟨" ", none⟩, .coloured severity.colour message]
  if l.indent ≤ widestGap then
    ⟨[margin gutter "", .blanks (l.indent + 1), marks] ++ note ++ [.newline], true⟩
  else ⟨[margin gutter ""], false⟩

namespace Diagnostic

def headline (d : Diagnostic) : List Piece :=
  let code := match d.code with
    | some code => [Piece.coloured d.severity.colour ("[" ++ code ++ "]")]
    | none => []
  .coloured d.severity.colour d.severity.name :: code ++ [⟨": ", none⟩, .bold d.message, .newline]

def located (d : Diagnostic) (sources : Sources) : List (Label × SourceText) :=
  d.labels.filterMap fun l => (sources.get? l.file).map fun t => (l, t)

def gutter (labels : List (Label × SourceText)) : Nat :=
  let widths := labels.map fun (l, t) => (toString (t.locate l.span.start).line).length
  widths.foldl max 1

def placeRow (gutter : Nat) : List (Label × SourceText) → List Piece
  | [] => []
  | (l, t) :: _ =>
    let place := t.locate l.span.start
    [.blanks gutter, ⟨s!"--> {l.file}:{place.line}:{place.column}\n", none⟩, margin gutter "", .newline]

def labelRows (d : Diagnostic) (maxWidth gutter : Nat) (label : Label × SourceText) : Drawing :=
  let line := label.2.labelled label.1.span
  ⟨line.textRow maxWidth gutter, true⟩ ++ line.markRow d.severity label.1.message gutter

def remarkRow (gutter : Nat) (r : Remark) : List Piece :=
  [.blanks (gutter + 1), .coloured r.severity.colour r.severity.name, ⟨": " ++ r.message, none⟩, .newline]

def render (d : Diagnostic) (maxWidth : Nat) (sources : Sources) : Drawing :=
  let labels := d.located sources
  let gutter := gutter labels
  ⟨d.headline ++ placeRow gutter labels, true⟩ ++ .sequence (labels.map (d.labelRows maxWidth gutter)) ++
    ⟨d.remarks.flatMap (remarkRow gutter), true⟩

end Diagnostic

def summary (ds : List Diagnostic) : List Piece :=
  match (ds.filter Diagnostic.isError).length with
  | 0 => []
  | n =>
    let plural := if n = 1 then "" else "s"
    [.coloured .red "error", ⟨s!": found {n} type error{plural}\n", none⟩]

def renderAll (ds : List Diagnostic) (maxWidth : Nat) (sources : Sources) : Drawing :=
  .sequence (ds.map fun d => d.render maxWidth sources ++ ⟨[.newline], true⟩) ++ ⟨summary ds, true⟩

end ArrowCheck
