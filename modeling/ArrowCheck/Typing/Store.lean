import ArrowCheck.Table

namespace ArrowCheck

/-- The number of a cell in a store. -/
abbrev TypeId := Nat

inductive Cell
  | unbound
  | link (target : TypeId)
  | concrete (name : String)
  | object (fields : Table String TypeId)

/-- Two types with different names were to be made one. -/
structure Clash where
  left : String
  right : String
deriving DecidableEq

def Clash.message (c : Clash) : String := s!"cannot unify {c.left} with {c.right}"

def typeIdText (id : TypeId) : String := s!"'t{id}"

structure TypeStore where
  cells : Array Cell := #[]

namespace TypeStore

def size (s : TypeStore) : Nat := s.cells.size

def clear (_ : TypeStore) : TypeStore := {}

def push (s : TypeStore) (cell : Cell) : TypeId × TypeStore := (s.size, ⟨s.cells.push cell⟩)

def fresh (s : TypeStore) : TypeId × TypeStore := s.push .unbound

def concrete (s : TypeStore) (name : String) : TypeId × TypeStore := s.push (.concrete name)

def object (s : TypeStore) (fields : Table String TypeId) : TypeId × TypeStore :=
  s.push (.object fields)

/-- Follows at most `bound` links from a cell. -/
def follow (cells : Array Cell) : Nat → TypeId → TypeId
  | 0, id => id
  | bound + 1, id =>
    match cells[id]? with
    | some (.link target) => follow cells bound target
    | _ => id

/-- The representative of a type: the cell at the end of its links. Links form no cycle, so there
are fewer of them in a row than cells. -/
def find (s : TypeStore) (id : TypeId) : TypeId := follow s.cells s.size id

/-- Points each of the first `bound` links from a cell straight at `root`. -/
def compress (root : TypeId) : Nat → TypeId → Array Cell → Array Cell
  | 0, _, cells => cells
  | bound + 1, id, cells =>
    if id = root then cells
    else
      match cells[id]? with
      | some (.link target) =>
        compress root bound target
          (if target = root then cells else cells.setIfInBounds id (.link root))
      | _ => cells

def resolve (s : TypeStore) (id : TypeId) : TypeId × TypeStore :=
  let root := s.find id
  (root, ⟨compress root s.size id s.cells⟩)

def nameAt (s : TypeStore) (root : TypeId) : Option String :=
  match s.cells[root]? with
  | some (.concrete name) => some name
  | _ => none

def concreteName (s : TypeStore) (id : TypeId) : Option String × TypeStore :=
  let (root, s) := s.resolve id
  (s.nameAt root, s)

def setLink (s : TypeStore) (id target : TypeId) : TypeStore :=
  ⟨s.cells.setIfInBounds id (.link target)⟩

/-- Links two different representatives, unless they are bound to different names: a free cell
points at the other one, an object shape at a name, and of two shapes the first at the second. -/
def linkRoots (s : TypeStore) (ra rb : TypeId) : Except Clash TypeStore :=
  match s.cells[ra]?, s.cells[rb]? with
  | some (.concrete left), some (.concrete right) =>
    if left = right then .ok (s.setLink rb ra) else .error ⟨left, right⟩
  | some .unbound, _ => .ok (s.setLink ra rb)
  | _, some .unbound => .ok (s.setLink rb ra)
  | some (.concrete _), _ => .ok (s.setLink rb ra)
  | _, _ => .ok (s.setLink ra rb)

/-- Makes two types one. On a clash the representatives and what they are bound to stay. -/
def unify (s : TypeStore) (a b : TypeId) : Except Clash Unit × TypeStore :=
  let (ra, s) := s.resolve a
  let (rb, s) := s.resolve b
  if ra = rb then (.ok (), s)
  else
    match s.linkRoots ra rb with
    | .ok s => (.ok (), s)
    | .error clash => (.error clash, s)

/-- The number of nested object levels that are written out. -/
def shownLevels : Nat := 9

/-- The text of a type with at most `levels` nested objects written out; nothing if it reaches a
number that no cell has. -/
def displayWithin (s : TypeStore) : Nat → TypeId → Option String
  | levels, id =>
    let root := s.find id
    match s.cells[root]?, levels with
    | some (.concrete name), _ => some name
    | some (.object _), 0 => some "\x7b...\x7d"
    | some (.object fields), levels + 1 => do
      let texts ← fields.entries.mapM fun e => return e.1 ++ ": " ++ (← s.displayWithin levels e.2)
      return "\x7b" ++ ", ".intercalate texts ++ "\x7d"
    | some .unbound, _ => some (typeIdText root)
    | some (.link _), _ => some (typeIdText root)
    | none, _ => none

def display (s : TypeStore) (id : TypeId) : Option String := s.displayWithin shownLevels id

def contains (s : TypeStore) (id : TypeId) : Bool := id < s.size

end TypeStore

end ArrowCheck
