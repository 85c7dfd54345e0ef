import ArrowCheck.Layout.TypeExpr
import ArrowCheck.Number.Shortest
import ArrowCheck.Parse.Program

namespace ArrowCheck

/-- How lines are laid out. The greatest line length is kept for settings and breaks no line. -/
structure Layout where
  indentSize : Nat := 2
  useSpaces : Bool := true
  maxLineLength : Nat := 80
deriving DecidableEq

def Layout.indent (layout : Layout) (depth : Nat) : String :=
  if layout.useSpaces then String.ofList (List.replicate (depth * layout.indentSize) ' ')
  else String.ofList (List.replicate depth '\t')

/-- How tightly the place of an expression binds: a looser expression needs parentheses there. -/
inductive Strength
  | any
  | conditional
  | binary
  | operand
deriving DecidableEq

def Strength.level : Strength → Nat
  | any => 0
  | conditional => 1
  | binary => 2
  | operand => 3

/-- Parentheses around the text of an expression of strength `own` at a place of strength
`place`, if the place is the tighter one. -/
def grouped (own place : Strength) (text : String) : String :=
  if own.level < place.level then "(" ++ text ++ ")" else text

def quoteString (value : String) : String :=
  let quote := if value.toList.contains '"' then "'" else "\""
  quote ++ value ++ quote

def isIdentifier (s : String) : Bool :=
  match s.toList with
  | [] => false
  | c :: cs => Lexer.isIdentStart c && cs.all Lexer.isIdentPart

def keyText (key : String) : String := if isIdentifier key then key else quoteString key

def paramText (p : Param) : String := p.name ++ typeSuffix p.type

mutual

/-- The text of an expression inside `depth` blocks at a place of strength `place`. -/
def Expr.text (layout : Layout) : Expr → Nat → Strength → String
  | .string _ value, _, _ => quoteString value
  | .number _ value, _, _ => value.write Binary64.plain
  | .boolean _ value, _, _ => if value then "true" else "false"
  | .ident _ name, _, _ => name
  | .binary _ op left right, depth, place =>
    grouped .binary place
      (left.text layout depth .binary ++ " " ++ op.symbol ++ " " ++ right.text layout depth .operand)
  | .conditional _ test consequent alternate, depth, place =>
    grouped .conditional place
      (test.text layout depth .binary ++ " ? " ++ consequent.text layout depth .conditional ++ " : " ++
        alternate.text layout depth .conditional)
  | .call _ callee args, depth, _ =>
    callee.text layout depth .operand ++ "(" ++ joinWith ", " (exprTexts layout args depth) ++ ")"
  | .arrow _ params result body, depth, _ =>
    "(" ++ joinWith ", " (params.map paramText) ++ ")" ++ typeSuffix result ++ " => " ++
      body.text layout depth
  | .array _ elements, depth, _ => "[" ++ joinWith ", " (exprTexts layout elements depth) ++ "]"
  | .object _ properties, depth, _ => braced (propertyTexts layout properties depth)
  | .error _, _, _ => "/* error */"
termination_by structural e => e

def exprTexts (layout : Layout) : List Expr → Nat → List String
  | [], _ => []
  | e :: es, depth => e.text layout depth .any :: exprTexts layout es depth
termination_by structural es => es

def propertyTexts (layout : Layout) : List Property → Nat → List String
  | [], _ => []
  | ⟨_, key, value⟩ :: ps, depth =>
    (keyText key ++ ": " ++ value.text layout depth .any) :: propertyTexts layout ps depth
termination_by structural ps => ps

def Stmt.text (layout : Layout) : Stmt → Nat → String
  | .const _ name type value, depth =>
    "const " ++ name.name ++ typeSuffix type ++ " = " ++ value.text layout depth .any ++ ";"
  | .ret _ (some argument), depth => "return " ++ argument.text layout depth .any ++ ";"
  | .ret _ none, _ => "return;"
termination_by structural s => s

def Block.text (layout : Layout) : Block → Nat → String
  | ⟨_, statements⟩, depth =>
    match statements with
    | [] => "\x7b\x7d"
    | s :: ss => "\x7b" ++ lineTexts layout (s :: ss) (depth + 1) ++ "\n" ++ layout.indent depth ++ "\x7d"
termination_by structural b => b

def lineTexts (layout : Layout) : List Stmt → Nat → String
  | [], _ => ""
  | s :: ss, depth => "\n" ++ layout.indent depth ++ s.text layout depth ++ lineTexts layout ss depth
termination_by structural ss => ss

end

def Program.text (layout : Layout) (p : Program) : String :=
  joinWith "\n" (p.statements.map fun s => s.text layout 0)

/-- Lays out a source text, or gives the faults that keep it from being read. -/
def format (layout : Layout) (source : String) : Except (List ParseFault) String :=
  let parsed := parse source
  if parsed.faults.isEmpty then .ok (parsed.program.text layout) else .error parsed.faults

def refusal (faults : List ParseFault) : String :=
  s!"cannot format source with {faults.length} parse error(s): " ++
    joinWith "; " (faults.map ParseFault.message)

end ArrowCheck
