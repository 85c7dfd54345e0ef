import ArrowCheck.Project.Settings
import ArrowCheck.Project.Sources

namespace ArrowCheck

structure Project where
  settings : Settings
  /-- The directory of the settings file, if there is one. -/
  home : Option FilePath
  start : FilePath

inductive LoadFault
  | notFound (path : FilePath)
  | unreadable (path : FilePath)
  | malformed (path : FilePath)
deriving DecidableEq

def LoadFault.message : LoadFault → String
  | notFound p => "Configuration file not found: " ++ p.text
  | unreadable p => "Failed to read configuration file: " ++ p.text
  | malformed p => "Invalid TOML syntax in " ++ p.text

/-- The values of the variables that are set in the environment. -/
abbrev Environment := String → Option String

def settingsName : FilePath := .ofText "jscriptor.toml"

namespace FilePath

/-- A path and its parents, from the inside out. Every parent is shorter, so the length of the path
bounds their number. -/
def ancestors (p : FilePath) : List FilePath := go p.bytes.length p
where
  go : Nat → FilePath → List FilePath
    | 0, p => [p]
    | fuel + 1, p =>
      match p.parent? with
      | some q => p :: go fuel q
      | none => [p]

end FilePath

namespace Project

def root (p : Project) : FilePath := p.home.getD p.start

def sourceFiles (p : Project) (d : Disk) (accepts : Acceptance) : Except SearchFault (List FilePath) :=
  d.sourceFiles accepts p.root p.settings.included p.settings.excluded

end Project

namespace Disk

def readSettings (d : Disk) (path : FilePath) : Except LoadFault Settings :=
  match d.readText path with
  | .error .missing => .error (.notFound path)
  | .error .unreadable => .error (.unreadable path)
  | .ok text =>
    match Settings.read? text with
    | some s => .ok s
    | none => .error (.malformed path)

def projectOf (d : Disk) (env : Environment) (path : FilePath) : Except LoadFault Project := do
  let settings ← d.readSettings path
  return ⟨settings.override env, path.parent?, path.parent?.getD ⟨[]⟩⟩

/-- The project that a directory belongs to: the nearest settings file at or above it counts. -/
def projectAt (d : Disk) (env : Environment) (start : FilePath) : Except LoadFault Project :=
  match start.ancestors.find? fun dir => d.isFile (dir.join settingsName) with
  | some dir => do
    let settings ← d.readSettings (dir.join settingsName)
    return ⟨settings.override env, some dir, start⟩
  | none => .ok ⟨({} : Settings).override env, none, start⟩

end Disk

end ArrowCheck
