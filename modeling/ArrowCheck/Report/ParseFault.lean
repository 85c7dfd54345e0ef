import ArrowCheck.Report.File
import ArrowCheck.Source.Breaks

namespace ArrowCheck

/-- Characters of a text by their numbers, up to the one at `stop`. -/
structure CharRange where
  start : Nat
  stop : Nat
deriving DecidableEq

def markedChars (cs : List Char) (span : Span) : CharRange :=
  let start := charOffset cs span.start
  ⟨start, max (charOffset cs span.stop) start⟩

structure ParseNotice where
  message : String
  file : String
  place : LineColumn
  marked : CharRange
  label : String
  help : Option String
deriving DecidableEq

namespace ParseFault

def title : ParseFault → String
  | unexpectedToken .. => "unexpected token"
  | unexpectedEnd .. => "unexpected end of file"
  | anyType _ => "the 'any' type is not supported"
  | expressionBody _ => "arrow function without a block body"
  | invalidNumber .. => "invalid number literal"
  | lexical _ => "lexical error"

def label : ParseFault → String
  | unexpectedToken expected found _ => s!"expected {expected}, found {found}"
  | unexpectedEnd expected _ => s!"expected {expected}"
  | anyType _ => "'any' is not allowed here"
  | expressionBody _ => "expected '\x7b'"
  | invalidNumber literal _ => s!"'{literal}' is not a number"
  | lexical f => f.message

def help : ParseFault → Option String
  | anyType _ => some "use a concrete type such as Number or String"
  | expressionBody _ => some "wrap the body in braces: `(x) => \x7b return x; \x7d`"
  | _ => none

def notice (f : ParseFault) (file source : String) : ParseNotice :=
  ⟨f.title, file, placeOfByte source.toList f.span.start, markedChars source.toList f.span, f.label,
    f.help⟩

end ParseFault

def ParseNotice.text (n : ParseNotice) : String :=
  let help := match n.help with
    | some h => s!"  help: {h}\n"
    | none => ""
  s!"error: {n.message}\n --> {n.file}:{n.place.line}:{n.place.column}\n  {n.label}\n{help}"

def FileReport.notices (r : FileReport) : List ParseNotice :=
  r.parseFaults.map (·.notice r.file r.source)

end ArrowCheck
