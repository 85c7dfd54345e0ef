import ArrowCheck.Project.Path

namespace ArrowCheck

inductive GlobPart
  | char (c : Char)
  /-- One character that is no separator. -/
  | one
  /-- Characters that are no separators. -/
  | run
  /-- Characters that are no line breaks. -/
  | deep
  /-- Nothing, or characters that are no line breaks and then a separator. -/
  | folders
deriving DecidableEq

/-- The parts of a glob; three characters are looked at first, then two, then one. -/
def globParts : List Char → List GlobPart
  | [] => []
  | '*' :: '*' :: '/' :: cs => .folders :: globParts cs
  | '*' :: '*' :: cs => .deep :: globParts cs
  | c :: cs => (if c = '*' then .run else if c = '?' then .one else .char c) :: globParts cs

namespace GlobPart

def isOptional : GlobPart → Bool
  | char _ | one => false
  | run | deep | folders => true

/-- Whether a part stands for a character and more: `next` says whether the text behind the character
is right for the parts that follow, `more` whether it is right for this part once more. -/
def takes : GlobPart → Char → (next more : Bool) → Bool
  | char x, c, next, _ => c = x && next
  | one, c, next, _ => c ≠ '/' && next
  | run, c, next, more => c ≠ '/' && (next || more)
  | deep, c, next, more => c ≠ '\n' && (next || more)
  | folders, c, next, more => (c = '/' && next) || (c ≠ '\n' && more)

/-- Whether a part stands for the start of the text, one character at least, if `rest` tells what is
right behind it. -/
def opens (p : GlobPart) (rest : List Char → Bool) : List Char → Bool
  | [] => false
  | c :: cs => p.takes c (rest cs) (opens p rest cs)

end GlobPart

def matchParts : List GlobPart → List Char → Bool
  | [], cs => cs.isEmpty
  | p :: ps, cs => (p.isOptional && matchParts ps cs) || p.opens (matchParts ps) cs

/-- The text and all that is left of it when characters are taken off its front. -/
def suffixes : List Char → List (List Char)
  | [] => [[]]
  | c :: cs => (c :: cs) :: suffixes cs

/-- The answers of `opens` for all suffixes of a text, from those of the parts that follow. -/
def GlobPart.opensRow (p : GlobPart) : List Char → List Bool → List Bool
  | [], _ => [false]
  | c :: cs, rest =>
    let more := p.opensRow cs rest.tail
    p.takes c (rest.tail.headD false) (more.headD false) :: more

/-- The answers of `matchParts` for all suffixes of a text. A part asks each suffix once, where
`matchParts` would ask it again for every way to come there. -/
def matchRow : List GlobPart → List Char → List Bool
  | [], cs => (suffixes cs).map List.isEmpty
  | p :: ps, cs =>
    let rest := matchRow ps cs
    List.zipWith (fun here opened => (p.isOptional && here) || opened) rest (p.opensRow cs rest)

theorem suffixes_eq_cons (cs : List Char) : ∃ rest, suffixes cs = cs :: rest := by
  cases cs with
  | nil => exact ⟨[], rfl⟩
  | cons c cs => exact ⟨suffixes cs, rfl⟩

theorem GlobPart.opensRow_map (p : GlobPart) (rest : List Char → Bool) (cs : List Char) :
    p.opensRow cs ((suffixes cs).map rest) = (suffixes cs).map (p.opens rest) := by
  induction cs with
  | nil => rfl
  | cons c cs ih =>
    obtain ⟨more, h⟩ := suffixes_eq_cons cs
    have hr : ((suffixes cs).map rest).headD false = rest cs := by rw [h]; rfl
    have ho : ((suffixes cs).map (p.opens rest)).headD false = p.opens rest cs := by rw [h]; rfl
    simp only [suffixes, List.map_cons, opensRow, List.tail_cons, ih, hr, ho]
    rfl

theorem matchRow_eq (ps : List GlobPart) (cs : List Char) :
    matchRow ps cs = (suffixes cs).map (matchParts ps) := by
  induction ps with
  | nil => rfl
  | cons p ps ih =>
    simp only [matchRow, ih, GlobPart.opensRow_map, List.zipWith_map, List.zipWith_self]
    rfl

/-- The first answer is the one for the whole text. -/
theorem headD_matchRow (ps : List GlobPart) (cs : List Char) :
    (matchRow ps cs).headD false = matchParts ps cs := by
  obtain ⟨more, h⟩ := suffixes_eq_cons cs
  rw [matchRow_eq, h]
  rfl

def isWild (c : Char) : Bool := c = '*' || c = '?'

structure Glob where
  source : String
deriving DecidableEq

namespace Glob

def isGlob (g : Glob) : Bool := g.source.toList.any isWild

/-- A step to the current directory in front is no part of the pattern. -/
def parts (g : Glob) : List GlobPart :=
  match g.source.toList with
  | '.' :: '/' :: cs => globParts cs
  | cs => globParts cs

/-- Whether the names, read as text and with separators between them, are what the glob describes. -/
def matchesNames (g : Glob) (names : List FileName) : Bool :=
  (matchRow g.parts (['/'].intercalate (names.map Utf8.decode))).headD false

def literalNames (g : Glob) : List (List Char) :=
  let literal := (splitPath '/' g.source.toList).takeWhile fun part => !part.any isWild
  literal.filter fun name => name ≠ [] && name ≠ ['.']

def literalPrefix (g : Glob) : FilePath := ⟨[separator].intercalate (g.literalNames.map Utf8.encode)⟩

end Glob

end ArrowCheck
