import ArrowCheck.Syntax.TypeExpr
import ArrowCheck.Text.Uppercase
import ArrowCheck.Typing.Store

namespace ArrowCheck

/-- The name of the type that a word stands for: the built-in ones by their spelling, any other with
an upper-case initial. -/
def canonicalName (name : String) : String :=
  match name with
  | "number" => "Number"
  | "string" => "String"
  | "boolean" => "Boolean"
  | "void" => "Void"
  | _ =>
    match name.toList with
    | [] => "Unknown"
    | c :: cs => String.ofList (Text.uppercase c ++ cs)

mutual

/-- Adds the type of an annotation to the store. Arrays and functions are only names there, a union
is free, and the fields of an object come before it. -/
def TypeExpr.translate : TypeExpr → TypeStore → TypeId × TypeStore
  | .named name _, s => s.concrete (canonicalName name)
  | .array .., s => s.concrete "Array"
  | .function .., s => s.concrete "Function"
  | .object fields _, s =>
    let (entries, s) := translateFields fields s
    s.object (Table.ofList entries)
  | .union .., s => s.fresh
termination_by structural t => t

def translateFields : List Field → TypeStore → List (String × TypeId) × TypeStore
  | [], s => ([], s)
  | ⟨name, type, _⟩ :: fs, s =>
    let (id, s) := type.translate s
    let (rest, s) := translateFields fs s
    ((name, id) :: rest, s)
termination_by structural fs => fs

end

def translateOptional (type : Option TypeExpr) (s : TypeStore) : TypeId × TypeStore :=
  match type with
  | some t => t.translate s
  | none => s.fresh

end ArrowCheck
