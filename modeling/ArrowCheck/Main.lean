import ArrowCheck.Command.Run

namespace ArrowCheck

def probe (path : FilePath) : IO (Option FileTree) := do
  if ← ((← IO.currentDir) / path.text).isDir then return some (.dir [])
  match ← (IO.FS.readBinFile path.text).toBaseIO with
  | .ok bytes => return some (.file (String.fromUTF8? bytes))
  | .error _ => return none

/-- The names of a place, reached from another by the parts of a path. -/
def namesFrom (place : List FileName) : List FileName → List FileName
  | [] => place
  | segment :: rest =>
    if segment = [] || segment = [dot] then namesFrom place rest
    else if segment = [dot, dot] then namesFrom place.dropLast rest
    else namesFrom (place ++ [segment]) rest

def Disk.fetch (d : Disk) (path : FilePath) : IO Disk := do
  let names := namesFrom (if path.isAbsolute then [] else d.cwd) path.segments
  if (d.tree.get? names).isSome then return d
  match ← probe path with
  | some t => return { d with tree := d.tree.put names t }
  | none => return d

/-- Copies what stands at a path and at the paths on the way to it. -/
def Disk.fetchAlong (d : Disk) (path : FilePath) : IO Disk :=
  path.ancestors.reverse.foldlM Disk.fetch d

/-- Copies the source files below a directory. -/
partial def Disk.fetchBelow (d : Disk) (path : FilePath) : IO Disk := do
  let place := (← IO.currentDir) / path.text
  if ← place.isDir then
    (← place.readDir).foldlM (fun d entry => do
      let child := path.join (.ofText entry.fileName)
      if ← (place / entry.fileName).isDir then (← d.fetch child).fetchBelow child
      else if isSource child then d.fetch child
      else return d) d
  else return d

def Disk.fetchSources (d : Disk) (p : Project) : IO Disk :=
  p.settings.included.foldlM (fun d entry => do
    let glob : Glob := ⟨entry⟩
    let base := p.root.join (if glob.isGlob then glob.literalPrefix else .ofText entry)
    (← d.fetchAlong base).fetchBelow base) d

def Disk.fetchFor (d : Disk) (env : Environment) : Command → IO Disk
  | .check files _ settings => do
    let d ← (files ++ settings.toList).foldlM Disk.fetchAlong d
    match d.project env settings with
    | .ok p => if files.isEmpty then d.fetchSources p else return d
    | .error _ => return d
  | .parse file _ | .lex file | .format file _ | .types file => d.fetchAlong file

def settingVariables : List String := ["JSCRIPTOR_CHECK_RETURN_TYPES", "JSCRIPTOR_CHECK_PARAMETER_TYPES"]

def readEnvironment : IO Environment := do
  let entries ← settingVariables.mapM fun name => return (name, ← IO.getEnv name)
  return fun name => (entries.find? (·.1 = name)).bind (·.2)

def currentDisk : IO Disk := do
  let cwd : FilePath := .ofText (← IO.currentDir).toString
  let d : Disk := ⟨.dir [], cwd.names⟩
  cwd.ancestors.reverse.foldlM (fun d dir => do (← d.fetch dir).fetch (dir.join settingsName)) d

end ArrowCheck

open ArrowCheck in
def main (args : List String) : IO UInt32 := do
  let request := readRequest args
  let env ← readEnvironment
  let disk ← match request with
    | .run command => do (← currentDisk).fetchFor env command
    | _ => pure ⟨.dir [], []⟩
  let outcome := runRequest disk env .all request
  IO.eprint (String.join (outcome.notices.map ParseNotice.text) ++ plainText outcome.remarks)
  IO.print outcome.stdout
  match outcome.written with
  | some (path, text) => IO.FS.writeFile path.text text
  | none => pure ()
  return outcome.exit.toUInt32
