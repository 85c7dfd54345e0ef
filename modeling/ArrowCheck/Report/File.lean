import ArrowCheck.Diagnostic.Render
import ArrowCheck.Diagnostic.TypeFault
import ArrowCheck.Parse.Program
import ArrowCheck.Typing.Checker

namespace ArrowCheck

/-- A text that was parsed, and checked if it has no syntax errors. -/
structure FileReport where
  file : String
  source : String
  program : Program
  parseFaults : List ParseFault
  check : Option CheckResult

/-- A name that a program declares at its top, with the text of its type. -/
structure Binding where
  name : String
  type : String
  span : Span
deriving DecidableEq

namespace FileReport

def ofSource (file source : String) (options : CheckOptions) : FileReport :=
  let parsed := parse source
  { file, source, program := parsed.program, parseFaults := parsed.faults
    check := if parsed.faults.isEmpty then some (checkProgram options parsed.program) else none }

def typeFaults (r : FileReport) : List TypeDiagnostic :=
  match r.check with
  | some c => c.diagnostics
  | none => []

def errorCount (r : FileReport) : Nat := r.parseFaults.length + r.typeFaults.length

def hasErrors (r : FileReport) : Bool := r.errorCount > 0

def bindings (r : FileReport) : List Binding :=
  match r.check with
  | none => []
  | some c => r.program.statements.filterMap fun
    | .const _ name _ _ => some ⟨name.name, (c.typeName name.node.id).getD "unknown", name.node.span⟩
    | .ret .. => none

def withoutSpans (r : FileReport) : FileReport :=
  { r with check := r.check.map fun c =>
      { c with diagnostics := c.diagnostics.map fun d => { d with span := none } } }

def diagnostics (r : FileReport) : List Diagnostic := r.typeFaults.map (·.toDiagnostic r.file)

end FileReport

def sourcesOf (rs : List FileReport) : Sources :=
  Table.ofList (rs.map fun r => (r.file, SourceText.ofString r.source))

def renderReports (rs : List FileReport) (maxWidth : Nat) : Drawing :=
  renderAll (rs.flatMap FileReport.diagnostics) maxWidth (sourcesOf rs)

end ArrowCheck
