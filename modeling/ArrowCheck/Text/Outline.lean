namespace ArrowCheck

inductive Outline
  | leaf (text : String)
  | record (name : String) (fields : List (String × Outline))
  | tuple (name : String) (parts : List Outline)
  | list (parts : List Outline)

namespace Outline

def nat (n : Nat) : Outline := leaf (toString n)

def ofOption : Option Outline → Outline
  | some o => tuple "Some" [o]
  | none => leaf "None"

def indent (depth : Nat) : String := "".pushn ' ' (4 * depth)

/-- The parts between two brackets, each followed by a comma and one step further in than the
brackets. -/
def enclose (opening closing : String) (depth : Nat) (parts : List String) : String :=
  opening ++ "\n" ++ String.join (parts.map fun p => indent (depth + 1) ++ p ++ ",\n") ++
    indent depth ++ closing

mutual

/-- The text of an outline that stands `depth` steps in; its first line is not indented. -/
def text (depth : Nat) : Outline → String
  | leaf s => s
  | record name fields => enclose (name ++ " \x7b") "\x7d" depth (fieldTexts (depth + 1) fields)
  | tuple name parts => enclose (name ++ "(") ")" depth (partTexts (depth + 1) parts)
  | list [] => "[]"
  | list (p :: ps) => enclose "[" "]" depth (p.text (depth + 1) :: partTexts (depth + 1) ps)
termination_by structural o => o

def partTexts (depth : Nat) : List Outline → List String
  | [] => []
  | p :: ps => p.text depth :: partTexts depth ps
termination_by structural ps => ps

def fieldTexts (depth : Nat) : List (String × Outline) → List String
  | [] => []
  | f :: fs => fieldText depth f :: fieldTexts depth fs
termination_by structural fs => fs

def fieldText (depth : Nat) : String × Outline → String
  | (name, o) => name ++ ": " ++ o.text depth
termination_by structural f => f

end

end Outline

end ArrowCheck
