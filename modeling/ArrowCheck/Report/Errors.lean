import ArrowCheck.Report.File
import ArrowCheck.Report.Json

namespace ArrowCheck

structure ErrorEntry where
  code : String
  message : String
  nodeKind : String
  position : Option Nat
  place : Option LineColumn
deriving DecidableEq

/-- The errors of a file: those of its syntax first. -/
structure ErrorReport where
  file : String
  errors : List ErrorEntry
deriving DecidableEq

def parseCode : String := "E_PARSE"

def ErrorReport.ofReport (r : FileReport) : ErrorReport :=
  let text := SourceText.ofString r.source
  let syntaxErrors := r.parseFaults.map fun f =>
    ⟨parseCode, f.message, "Program", some f.span.start, some (text.locate f.span.start)⟩
  let typeErrors := r.typeFaults.map fun d =>
    ⟨d.fault.code, d.fault.message, d.nodeKind, d.position, d.position.map text.locate⟩
  ⟨r.file, syntaxErrors ++ typeErrors⟩

def ErrorEntry.json (e : ErrorEntry) : JsonValue := .object [
  ("code", .string e.code),
  ("message", .string e.message),
  ("nodeType", .string e.nodeKind),
  ("position", .ofOption e.position),
  ("line", .ofOption (e.place.map LineColumn.line)),
  ("column", .ofOption (e.place.map LineColumn.column))]

def ErrorReport.json (r : ErrorReport) : JsonValue :=
  .object [("file", .string r.file), ("errors", .array (r.errors.map ErrorEntry.json))]

def errorsText (rs : List ErrorReport) : String := (JsonValue.array (rs.map ErrorReport.json)).text 0

end ArrowCheck
