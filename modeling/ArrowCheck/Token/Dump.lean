import ArrowCheck.Token.Basic
import ArrowCheck.Text.Quoted

namespace ArrowCheck

def Keyword.name : Keyword → String
  | .const => "Const"
  | .ret => "Return"

def TypeWord.name : TypeWord → String
  | .number => "TypeNumber"
  | .string => "TypeString"
  | .boolean => "TypeBoolean"
  | .array => "TypeArray"
  | .void => "TypeVoid"
  | .voidUpper => "TypeVoidUpper"
  | .float => "TypeFloat"
  | .bool => "TypeBool"
  | .unit => "TypeUnit"

def Mark.name : Mark → String
  | .arrow => "Arrow"
  | .question => "Question"
  | .colon => "Colon"
  | .equals => "Eq"
  | .pipe => "Pipe"
  | .less => "Lt"
  | .greater => "Gt"
  | .star => "Star"
  | .plus => "Plus"
  | .parenOpen => "LParen"
  | .parenClose => "RParen"
  | .braceOpen => "LBrace"
  | .braceClose => "RBrace"
  | .bracketOpen => "LBracket"
  | .bracketClose => "RBracket"
  | .comma => "Comma"
  | .semicolon => "Semicolon"

namespace TokenKind

def name : TokenKind → String
  | keyword w => w.name
  | typeWord w => w.name
  | mark m => m.name
  | boolean _ => "Boolean"
  | number _ => "Number"
  | string _ => "String"
  | ident _ => "Identifier"
  | lineComment _ => "LineComment"
  | blockComment _ => "BlockComment"
  | error _ => "Error"

/-- The name of the kind, with the value or text it carries in parentheses. -/
def dump (k : TokenKind) : String :=
  let payload : Option String :=
    match k with
    | boolean b => some (if b then "true" else "false")
    | number t | string t | ident t | lineComment t | blockComment t => some (Text.quoted t)
    | keyword _ | typeWord _ | mark _ | error _ => none
  match payload with
  | some p => k.name ++ "(" ++ p ++ ")"
  | none => k.name

end TokenKind

end ArrowCheck
