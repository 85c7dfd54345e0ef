import ArrowCheck.Text.Utf8

namespace ArrowCheck

/-- Bytes, which need not be those of a text. -/
abbrev FileName := List UInt8

/-- A path as it was given or put together; two paths may be written differently and name the same
place. -/
structure FilePath where
  bytes : List UInt8
deriving DecidableEq, Inhabited

def separator : UInt8 := 0x2F

def dot : UInt8 := 0x2E

/-- A step of a path, in the order in which paths are sorted. -/
inductive Component
  | root
  | current
  | parent
  | normal (name : FileName)
deriving DecidableEq

namespace Component

def rank : Component → Nat
  | root => 0
  | current => 1
  | parent => 2
  | normal _ => 3

def name? : Component → Option FileName
  | normal name => some name
  | _ => none

def compare (a b : Component) : Ordering :=
  match a, b with
  | normal x, normal y => Ord.compare x y
  | _, _ => Ord.compare a.rank b.rank

end Component

def splitPath {α : Type} [DecidableEq α] (sep : α) : List α → List (List α)
  | [] => [[]]
  | c :: cs =>
    if c = sep then [] :: splitPath sep cs
    else match splitPath sep cs with
      | part :: parts => (c :: part) :: parts
      | [] => [[c]]

namespace FilePath

def ofText (text : String) : FilePath := ⟨Utf8.bytesOf text⟩

def text (p : FilePath) : String := Utf8.textOf p.bytes

def isAbsolute (p : FilePath) : Bool := p.bytes.head? = some separator

def segments (p : FilePath) : List FileName := splitPath separator p.bytes

def componentOf? (segment : FileName) : Option Component :=
  if segment = [] || segment = [dot] then none
  else if segment = [dot, dot] then some .parent
  else some (.normal segment)

/-- The steps of a path. A single dot counts only at the start of a relative path. -/
def components (p : FilePath) : List Component :=
  let steps := p.segments.filterMap componentOf?
  if p.isAbsolute then .root :: steps
  else if p.segments.head? = some [dot] then .current :: steps
  else steps

def names (p : FilePath) : List FileName := p.components.filterMap Component.name?

def join (base path : FilePath) : FilePath :=
  if path.isAbsolute then path
  else if base.bytes.isEmpty || base.bytes.getLast? = some separator then ⟨base.bytes ++ path.bytes⟩
  else ⟨base.bytes ++ separator :: path.bytes⟩

/-- Takes separators and single dots off the end, down to the first separator of an absolute path. -/
def trimEnd (bytes : List UInt8) : List UInt8 := go bytes.reverse
where
  go : List UInt8 → List UInt8
    | [] => []
    | [b] => [b]
    | b :: c :: bs =>
      if b = separator then go (c :: bs)
      else if b = dot && c = separator then if bs.isEmpty then [separator] else go bs
      else (b :: c :: bs).reverse

/-- The path without its last component, if it has one other than the root. -/
def parent? (p : FilePath) : Option FilePath :=
  let bytes := trimEnd p.bytes
  if bytes.isEmpty || bytes = [separator] then none
  else
    let kept := bytes.reverse.dropWhile (· ≠ separator)
    some ⟨trimEnd kept.reverse⟩

/-- What follows the last dot of the last name, unless the name starts with that dot. -/
def extension? (p : FilePath) : Option FileName := do
  let .normal name ← p.components.getLast? | none
  let extension := name.reverse.takeWhile (· ≠ dot)
  let stem := name.reverse.drop (extension.length + 1)
  if stem.isEmpty then none else some extension.reverse

def namesBelow? (p root : FilePath) : Option (List FileName) :=
  if root.components.isPrefixOf p.components then
    some ((p.components.drop root.components.length).filterMap Component.name?)
  else none

def compareSteps : List Component → List Component → Ordering
  | [], [] => .eq
  | [], _ :: _ => .lt
  | _ :: _, [] => .gt
  | a :: as, b :: bs => (a.compare b).then (compareSteps as bs)

def le (p q : FilePath) : Bool := (compareSteps p.components q.components).isLE

end FilePath

end ArrowCheck
