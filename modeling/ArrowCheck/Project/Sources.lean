import ArrowCheck.Project.FileTree
import ArrowCheck.Project.Glob

namespace ArrowCheck

/-- Why the source files of a project cannot be listed. -/
inductive SearchFault
  | pattern (source : String)
  | walk (path : FilePath)
deriving DecidableEq

def SearchFault.message : SearchFault → String
  | pattern source => "Invalid file pattern '" ++ source ++ "'"
  | walk path => "Failed to walk source directory: " ++ path.text

/-- Which patterns can be matched: the matcher may refuse one that is too large. -/
abbrev Acceptance := List GlobPart → Bool

def Acceptance.all : Acceptance := fun _ => true

def Glob.compile (accepts : Acceptance) (source : String) : Except SearchFault Glob :=
  if accepts (Glob.mk source).parts then .ok ⟨source⟩ else .error (.pattern source)

def sourceExtension : FileName := Utf8.bytesOf "js"

def isSource (p : FilePath) : Bool := p.extension? = some sourceExtension

namespace Disk

def walkSources (d : Disk) (dir : FilePath) : Except SearchFault (List FilePath) :=
  match d.walk dir with
  | .ok files => .ok (files.filter isSource)
  | .error path => .error (.walk path)

/-- The source files that one entry selects: those that a glob describes, a file by its name, or all
below a directory. -/
def selectedBy (d : Disk) (accepts : Acceptance) (root : FilePath) (entry : String) :
    Except SearchFault (List FilePath) := do
  let glob ← Glob.compile accepts entry
  if glob.isGlob then
    let base := root.join glob.literalPrefix
    if d.isDir base then
      let found ← d.walkSources base
      return found.filter fun p => (p.namesBelow? root).any glob.matchesNames
    else return []
  else
    let path := root.join (.ofText entry)
    if d.isDir path then d.walkSources path
    else if d.isFile path && isSource path then return [path]
    else return []

def dropRepeats : List FilePath → List FilePath
  | [] => []
  | p :: ps => p :: after p ps
where
  after (kept : FilePath) : List FilePath → List FilePath
    | [] => []
    | p :: ps => if p.components = kept.components then after kept ps else p :: after p ps

def sourceFiles (d : Disk) (accepts : Acceptance) (root : FilePath) (included excluded : List String) :
    Except SearchFault (List FilePath) := do
  let globs ← excluded.mapM (Glob.compile accepts)
  let selected ← included.mapM (d.selectedBy accepts root)
  let kept := selected.flatten.filter fun p =>
    !globs.any fun glob => glob.matchesNames ((p.namesBelow? root).getD p.names)
  return dropRepeats (kept.mergeSort FilePath.le)

end Disk

end ArrowCheck
