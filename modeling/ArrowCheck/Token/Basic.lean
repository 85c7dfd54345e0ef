import ArrowCheck.Source.Span

namespace ArrowCheck

inductive Keyword
  | const
  | ret
deriving DecidableEq

/-- The words that name a type and can name nothing else. -/
inductive TypeWord
  | number
  | string
  | boolean
  | array
  | void
  | voidUpper
  | float
  | bool
  | unit
deriving DecidableEq

inductive Mark
  | arrow
  | question
  | colon
  | equals
  | pipe
  | less
  | greater
  | star
  | plus
  | parenOpen
  | parenClose
  | braceOpen
  | braceClose
  | bracketOpen
  | bracketClose
  | comma
  | semicolon
deriving DecidableEq

/-- The kind of a token; literals, names, comments and unreadable text carry their characters. -/
inductive TokenKind
  | keyword (word : Keyword)
  | typeWord (word : TypeWord)
  | mark (mark : Mark)
  | boolean (value : Bool)
  | number (text : String)
  | string (text : String)
  | ident (name : String)
  | lineComment (text : String)
  | blockComment (text : String)
  | error (text : String)
deriving DecidableEq

structure Token where
  kind : TokenKind
  span : Span
deriving DecidableEq

def Keyword.text : Keyword → String
  | .const => "const"
  | .ret => "return"

def TypeWord.text : TypeWord → String
  | .number => "number"
  | .string => "string"
  | .boolean => "boolean"
  | .array => "Array"
  | .void => "void"
  | .voidUpper => "Void"
  | .float => "Float"
  | .bool => "Bool"
  | .unit => "Unit"

def Mark.text : Mark → String
  | .arrow => "=>"
  | .question => "?"
  | .colon => ":"
  | .equals => "="
  | .pipe => "|"
  | .less => "<"
  | .greater => ">"
  | .star => "*"
  | .plus => "+"
  | .parenOpen => "("
  | .parenClose => ")"
  | .braceOpen => "\x7b"
  | .braceClose => "\x7d"
  | .bracketOpen => "["
  | .bracketClose => "]"
  | .comma => ","
  | .semicolon => ";"

def Keyword.all : List Keyword := [.const, .ret]

def TypeWord.all : List TypeWord :=
  [.number, .string, .boolean, .array, .void, .voidUpper, .float, .bool, .unit]

namespace TokenKind

def describe : TokenKind → String
  | keyword w => w.text
  | typeWord w => w.text
  | mark m => m.text
  | boolean b => if b then "true" else "false"
  | number t => "number " ++ t
  | string t => "string " ++ t
  | ident n => "identifier " ++ n
  | lineComment _ => "comment"
  | blockComment _ => "block comment"
  | error _ => "error"

def isComment : TokenKind → Bool
  | lineComment _ | blockComment _ => true
  | _ => false

def isError : TokenKind → Bool
  | error _ => true
  | _ => false

def isTypeWord : TokenKind → Bool
  | typeWord _ => true
  | _ => false

end TokenKind

def reservedWords : List (String × TokenKind) :=
  Keyword.all.map (fun w => (w.text, .keyword w)) ++
    TypeWord.all.map (fun w => (w.text, .typeWord w)) ++
    [("true", .boolean true), ("false", .boolean false)]

def isReserved (word : String) : Bool := (reservedWords.lookup word).isSome

/-- A defect of the text found while cutting it into tokens, at a byte offset. -/
inductive LexFault
  | unexpected (position : Nat) (char : Char)
  | openString (position : Nat)
  | openComment (position : Nat)
deriving DecidableEq

namespace LexFault

def position : LexFault → Nat
  | unexpected p _ | openString p | openComment p => p

def message : LexFault → String
  | unexpected p c => s!"Unexpected character '{c}' at position {p}"
  | openString p => s!"Unterminated string literal starting at position {p}"
  | openComment p =>
    s!"Unterminated block comment starting at position {p} - expected closing '*/'"

end LexFault

end ArrowCheck
