import ArrowCheck.Command.Arguments
import ArrowCheck.Project.Load
import ArrowCheck.Report.Errors
import ArrowCheck.Report.ParseFault
import ArrowCheck.Syntax.Outline
import ArrowCheck.Token.Dump

namespace ArrowCheck

inductive CommandFault
  | project (fault : LoadFault)
  | search (fault : SearchFault)
  | unreadable (path : FilePath)
  | malformed (faults : List ParseFault)

def CommandFault.message : CommandFault → String
  | project f => f.message
  | search f => f.message
  | unreadable p => "Error reading file '" ++ p.text ++ "'"
  | malformed faults => refusal faults

structure Outcome where
  exit : Nat := 0
  stdout : String := ""
  notices : List ParseNotice := []
  remarks : List Piece := []
  written : Option (FilePath × String) := none

def exitCode (failed : Bool) : Nat := if failed then 1 else 0

def lines (texts : List String) : String := String.join (texts.map (· ++ "\n"))

def shownWidth : Nat := 120

def Disk.readSource (d : Disk) (path : FilePath) : Except CommandFault String :=
  (d.readText path).mapError fun _ => .unreadable path

/-- The project of the working directory, or the one of a given settings file. -/
def Disk.project (d : Disk) (env : Environment) (settings : Option FilePath) : Except CommandFault Project :=
  (match settings with
    | some path => d.projectOf env path
    | none => d.projectAt env d.cwdPath).mapError .project

def Disk.report (d : Disk) (options : CheckOptions) (path : FilePath) : Except CommandFault FileReport := do
  return .ofSource path.text (← d.readSource path) options

/-- The exit code of a command that is given up half-way. -/
def abortCode : Nat := 101

/-- All that is reported about files: the syntax errors of all, then the type errors of all. If they
cannot be drawn to the end, the command is given up and prints nothing else. -/
def reported (rs : List FileReport) (o : Outcome) : Outcome :=
  let drawing := renderReports rs shownWidth
  let o := { o with notices := rs.flatMap FileReport.notices, remarks := drawing.pieces }
  if drawing.finished then o else { o with exit := abortCode, stdout := "" }

def Disk.checkedFiles (d : Disk) (accepts : Acceptance) (project : Project) (files : List FilePath) :
    Except CommandFault (List FilePath) :=
  if files.isEmpty then (project.sourceFiles d accepts).mapError .search else .ok files

def runCheck (d : Disk) (env : Environment) (accepts : Acceptance) (files : List FilePath) (json : Bool)
    (settings : Option FilePath) : Except CommandFault Outcome := do
  let project ← d.project env settings
  let files ← d.checkedFiles accepts project files
  let reports ← files.mapM (d.report project.settings.check)
  let failed := reports.any FileReport.hasErrors
  let exit := exitCode failed
  if json then
    return { exit, stdout := errorsText (reports.map ErrorReport.ofReport) ++ "\n" }
  else if files.isEmpty then
    return { exit, remarks := [⟨"No source files found under " ++ project.root.text ++ "\n", none⟩] }
  else
    let stdout := if failed then "" else s!"Check passed: {reports.length} file(s)\n"
    return reported reports { exit, stdout }

def Stmt.summary : Stmt → String
  | .const _ name type value => "  const " ++ name.name ++ typeSuffix type ++ " = <" ++ value.kindName ++ ">"
  | .ret _ (some e) => "  return <" ++ e.kindName ++ ">"
  | .ret _ none => "  return"

def runParse (d : Disk) (file : FilePath) (verbose : Bool) : Except CommandFault Outcome := do
  let source ← d.readSource file
  let parsed := parse source
  let statements := parsed.program.statements
  let shown :=
    if verbose then [parsed.program.outline.text 0]
    else s!"Parsed {statements.length} statements:" :: statements.map Stmt.summary
  return { exit := exitCode !parsed.faults.isEmpty, stdout := lines shown
           notices := parsed.faults.map (·.notice file.text source) }

def Token.summary (t : Token) : String := "  " ++ t.kind.dump ++ s!" @ {t.span.start}..{t.span.stop}"

def runLex (d : Disk) (file : FilePath) : Except CommandFault Outcome := do
  let source ← d.readSource file
  let tokens := (tokenize source).filter fun t => !t.kind.isComment
  let faults := lexFaults source
  let listed := s!"Tokens ({tokens.length}):" :: tokens.map Token.summary
  let failures :=
    if faults.isEmpty then []
    else s!"\nLexer errors ({faults.length}):" :: faults.map fun f => "  " ++ f.message
  return { exit := exitCode !faults.isEmpty, stdout := lines (listed ++ failures) }

def runFormat (d : Disk) (env : Environment) (file : FilePath) (write : Bool) :
    Except CommandFault Outcome := do
  let project ← d.project env none
  let source ← d.readSource file
  let text ← (format project.settings.layout source).mapError .malformed
  if write then return { written := some (file, text ++ "\n") }
  else return { stdout := text ++ "\n" }

def runTypes (d : Disk) (env : Environment) (file : FilePath) : Except CommandFault Outcome := do
  let project ← d.project env none
  let report ← d.report project.settings.check file
  let stdout := lines (report.bindings.map fun b => b.name ++ ": " ++ b.type)
  return reported [report] { exit := exitCode report.hasErrors, stdout }

def Command.run (d : Disk) (env : Environment) (accepts : Acceptance) :
    Command → Except CommandFault Outcome
  | .check files json settings => runCheck d env accepts files json settings
  | .parse file verbose => runParse d file verbose
  | .lex file => runLex d file
  | .format file write => runFormat d env file write
  | .types file => runTypes d env file

def versionText : String := "jscriptor 0.1.0\n"

def helpText : String := lines [
  "Type checker for JavaScript with type annotations",
  "",
  "Usage: jscriptor [OPTIONS] <COMMAND>",
  "",
  "Commands:",
  "  check  Type check source files",
  "  parse  Parse source file and display AST",
  "  lex    Lex source file and display tokens",
  "  fmt    Pretty-print a source file",
  "  types  Show the inferred type of each top-level binding",
  "  help   Print this message or the help of the given subcommand(s)",
  "",
  "Options:",
  "  -d, --debug...  Raise the log level (-d info, -dd debug, -ddd trace); JSCRIPTOR_LOG overrides",
  "  -h, --help      Print help",
  "  -V, --version   Print version"]

def runRequest (d : Disk) (env : Environment) (accepts : Acceptance) : Request → Outcome
  | .version => { stdout := versionText }
  | .help => { stdout := helpText }
  | .malformed => { exit := 2, remarks := [⟨helpText, none⟩] }
  | .run command =>
    match command.run d env accepts with
    | .ok outcome => outcome
    | .error fault => { exit := 1, remarks := [⟨"Error: " ++ fault.message ++ "\n", none⟩] }

def Outcome.disk (o : Outcome) (d : Disk) : Disk :=
  match o.written with
  | some (path, text) => d.writeText path text
  | none => d

end ArrowCheck
