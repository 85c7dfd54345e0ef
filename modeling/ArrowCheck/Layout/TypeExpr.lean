import ArrowCheck.Syntax.TypeExpr

namespace ArrowCheck

def joinWith (separator : String) : List String → String
  | [] => ""
  | [t] => t
  | t :: ts => t ++ separator ++ joinWith separator ts

/-- Text between braces with a blank inside each, or the braces alone around nothing. -/
def braced (items : List String) : String :=
  if items.isEmpty then "\x7b\x7d" else "\x7b " ++ joinWith ", " items ++ " \x7d"

mutual

def TypeExpr.text : TypeExpr → String
  | .named name _ => name
  | .array element _ => "Array<" ++ element.text ++ ">"
  | .function params result _ => "(" ++ joinWith ", " (fieldTexts params) ++ ") => " ++ result.text
  | .object fields _ => braced (fieldTexts fields)
  | .union members _ => joinWith " | " (typeTexts members)
termination_by structural t => t

def typeTexts : List TypeExpr → List String
  | [] => []
  | t :: ts => t.text :: typeTexts ts
termination_by structural ts => ts

def fieldTexts : List Field → List String
  | [] => []
  | ⟨name, type, _⟩ :: fs => (name ++ ": " ++ type.text) :: fieldTexts fs
termination_by structural fs => fs

end

def typeSuffix (type : Option TypeExpr) : String :=
  match type with
  | some t => ": " ++ t.text
  | none => ""

end ArrowCheck
