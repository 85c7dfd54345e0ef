import ArrowCheck.Project.Path
import ArrowCheck.Table

namespace ArrowCheck

/-- A file with its text, if its bytes are one, or a directory with what stands in it. -/
inductive FileTree
  | file (text : Option String)
  | dir (entries : List (FileName × FileTree))
deriving Inhabited

namespace FileTree

def isDir : FileTree → Bool
  | dir _ => true
  | file _ => false

def entries : FileTree → List (FileName × FileTree)
  | dir es => es
  | file _ => []

def get? : FileTree → List FileName → Option FileTree
  | t, [] => some t
  | t, name :: names =>
    match Table.getEntry? name t.entries with
    | some child => child.get? names
    | none => none

/-- Puts a tree behind the names, in place of what stood there; directories on the way are made. -/
def put : FileTree → List FileName → FileTree → FileTree
  | _, [], new => new
  | t, name :: names, new =>
    let child := (Table.getEntry? name t.entries).getD (dir [])
    dir (Table.insertEntry name (child.put names new) t.entries)

mutual

/-- A tree that stands at a path, and all below it, with their paths. -/
def nodes (base : FilePath) : FileTree → List (FilePath × FileTree)
  | file text => [(base, file text)]
  | dir es => (base, dir es) :: nodesIn base es
termination_by structural t => t

def nodesIn (base : FilePath) : List (FileName × FileTree) → List (FilePath × FileTree)
  | [] => []
  | e :: es => nodesOf base e ++ nodesIn base es
termination_by structural es => es

def nodesOf (base : FilePath) : FileName × FileTree → List (FilePath × FileTree)
  | (name, t) => nodes (base.join ⟨name⟩) t
termination_by structural e => e

end

def files (base : FilePath) (t : FileTree) : List FilePath :=
  ((t.nodes base).filter fun node => !node.2.isDir).map Prod.fst

end FileTree

/-- Why a path does not lead to a file that can be read. -/
inductive ReadFault
  | missing
  /-- The path cannot be one, a name on the way is a file, the place is a directory, or the file is no
  text. -/
  | unreadable
deriving DecidableEq

/-- Names are at most so many bytes long. -/
def nameLimit : Nat := 255

/-- Paths are shorter than this in bytes, and no byte of theirs is zero. -/
def pathLimit : Nat := 4096

def FilePath.isUsable (p : FilePath) : Bool := p.bytes.length < pathLimit && !p.bytes.contains 0

/-- The directories of a tree that cannot be listed, for their paths are no paths. -/
def FileTree.unlisted (base : FilePath) (t : FileTree) : List FilePath :=
  ((t.nodes base).filter fun node => node.2.isDir && !node.1.isUsable).map Prod.fst

/-- A directory tree and the names of the working directory in it. -/
structure Disk where
  tree : FileTree
  cwd : List FileName

namespace Disk

def cwdPath (d : Disk) : FilePath := ⟨separator :: [separator].intercalate d.cwd⟩

def step (d : Disk) (place : List FileName) (segment : FileName) : Except ReadFault (List FileName) :=
  if (d.tree.get? place).any FileTree.isDir then
    if segment = [] || segment = [dot] then .ok place
    else if segment = [dot, dot] then .ok place.dropLast
    else if nameLimit < segment.length then .error .unreadable
    else if (d.tree.get? (place ++ [segment])).isSome then .ok (place ++ [segment])
    else .error .missing
  else .error .unreadable

/-- The names from the root of the tree to the place of a path. -/
def find (d : Disk) (p : FilePath) : Except ReadFault (List FileName) :=
  if p.bytes.isEmpty then .error .missing
  else if !p.isUsable then .error .unreadable
  else p.segments.foldlM d.step (if p.isAbsolute then [] else d.cwd)

def lookup? (d : Disk) (p : FilePath) : Option FileTree :=
  match d.find p with
  | .ok place => d.tree.get? place
  | .error _ => none

def isDir (d : Disk) (p : FilePath) : Bool := (d.lookup? p).any FileTree.isDir

def isFile (d : Disk) (p : FilePath) : Bool := (d.lookup? p).any fun t => !t.isDir

def readText (d : Disk) (p : FilePath) : Except ReadFault String := do
  match d.tree.get? (← d.find p) with
  | some (.file (some text)) => .ok text
  | _ => .error .unreadable

def writeText (d : Disk) (p : FilePath) (text : String) : Disk :=
  match d.find p with
  | .ok place => { d with tree := d.tree.put place (.file (some text)) }
  | .error _ => d

/-- The files at and below a path, or the first place that cannot be listed. -/
def walk (d : Disk) (p : FilePath) : Except FilePath (List FilePath) :=
  match d.lookup? p with
  | none => .error p
  | some t =>
    -- directories are listed in the order of their paths
    match (t.unlisted p).mergeSort FilePath.le with
    | [] => .ok (t.files p)
    | q :: _ => .error q

end Disk

end ArrowCheck
