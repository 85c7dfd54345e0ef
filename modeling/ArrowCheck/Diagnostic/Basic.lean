import ArrowCheck.Source.Span

namespace ArrowCheck

inductive Severity
  | error
  | warning
  | note
  | help
deriving DecidableEq

namespace Severity

def name : Severity → String
  | error => "error"
  | warning => "warning"
  | note => "note"
  | help => "help"

def underline : Severity → Char
  | error => '^'
  | warning => '~'
  | note => '-'
  | help => '+'

end Severity

/-- A range of a named text with a short message. -/
structure Label where
  file : String
  span : Span
  message : String
deriving DecidableEq

structure Remark where
  severity : Severity
  message : String
deriving DecidableEq

structure Diagnostic where
  severity : Severity
  code : Option String
  message : String
  labels : List Label := []
  remarks : List Remark := []
deriving DecidableEq

namespace Diagnostic

def primary (d : Diagnostic) : Option Label := d.labels.head?

def isError (d : Diagnostic) : Bool := d.severity = .error

end Diagnostic

end ArrowCheck
