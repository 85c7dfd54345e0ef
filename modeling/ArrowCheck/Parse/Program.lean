import ArrowCheck.Parse.TypeExpr

namespace ArrowCheck

namespace Reader

/-- Reads parameters without keeping them and says whether the type `any` cut the reading short. -/
def skimParams : Nat → Reader Bool
  | 0 => unexpected "parameter name"
  | bound + 1 => do
    let _ ← expectIdent "parameter name"
    match ← attempt optionalType with
    | .error (.anyType _) => return true
    | .error fault => throw fault
    | .ok _ =>
      if ← eat (.mark .comma) then
        skimParams bound
      else
        return false

/-- Reads the head of an arrow function up to its arrow. A parameter of type `any` already makes a
head, so that the type and not the parenthesis is reported. -/
def arrowHead : Reader Unit := do
  let _ ← expect (.mark .parenOpen)
  let cut ← if ← sees (.mark .parenClose) then pure false else skimParams (← get).rest.length
  if cut then
    return ()
  else
    let _ ← expect (.mark .parenClose)
    let _ ← optionalType
    let _ ← expect (.mark .arrow)

def paramsWithin : Nat → Reader (List Param)
  | 0 => unexpected "parameter name"
  | bound + 1 => do
    let (name, start) ← expectIdent "parameter name"
    let type ← optionalType
    let span := (type.map fun t => start.merge t.span).getD start
    let param : Param := ⟨⟨← freshId, span⟩, name, type⟩
    if ← eat (.mark .comma) then
      return param :: (← paramsWithin bound)
    else
      return [param]

/-- The parameters of an arrow function and its result type, between the opening parenthesis and
the body, which has to be a block. -/
def signature : Reader (List Param × Option TypeExpr) := do
  let params ← if ← sees (.mark .parenClose) then pure [] else paramsWithin (← get).rest.length
  let _ ← expect (.mark .parenClose)
  let result ← optionalType
  let _ ← expect (.mark .arrow)
  if ← sees (.mark .braceOpen) then
    return (params, result)
  else
    throw (.expressionBody (← here))

/-- Skips to behind the next semicolon; within a block not past its closing brace. -/
def skipStatement (nested : Bool) : Reader Unit := do
  modify (Cursor.skipUntil fun k => k == .mark .semicolon || (nested && k == .mark .braceClose))
  let _ ← eat (.mark .semicolon)

def unquote (text : String) : String := String.ofList (text.toList.drop 1).dropLast

def propertyKey? : TokenKind → Option String
  | .ident name => some name
  | .string text => some (unquote text)
  | _ => none

def operator? : TokenKind → Option BinaryOp
  | .mark .plus => some .add
  | .mark .star => some .mul
  | _ => none

mutual

def exprWithin : Nat → Reader Expr
  | 0 => unexpected "expression"
  | bound + 1 => do
    let test ← chainWithin bound
    if ← eat (.mark .question) then
      let consequent ← exprWithin bound
      let _ ← expect (.mark .colon)
      let alternate ← exprWithin bound
      let id ← freshId
      return .conditional ⟨id, test.span.merge alternate.span⟩ test consequent alternate
    else
      return test

def chainWithin : Nat → Reader Expr
  | 0 => unexpected "expression"
  | bound + 1 => do
    let first ← operandWithin bound
    moreWithin bound first

/-- The operators and operands behind `left`; all operators bind alike and to the left. -/
def moreWithin : Nat → Expr → Reader Expr
  | 0, left => return left
  | bound + 1, left => do
    match (← kind?).bind operator? with
    | some op =>
      advance
      let right ← operandWithin bound
      let id ← freshId
      moreWithin bound (.binary ⟨id, left.span.merge right.span⟩ op left right)
    | none => return left

/-- A literal, a name, a call of a name, a group or an arrow function. -/
def operandWithin : Nat → Reader Expr
  | 0 => unexpected "expression"
  | bound + 1 => do
    let start ← here
    match ← kind? with
    | some (.mark .parenOpen) =>
      if ← succeeds arrowHead then
        advance
        let (params, result) ← signature
        let body ← blockWithin bound
        let id ← freshId
        return .arrow ⟨id, start.merge body.node.span⟩ params result body
      else
        advance
        let inner ← exprWithin bound
        let _ ← expect (.mark .parenClose)
        return inner
    | some (.string text) =>
      advance
      return .string ⟨← freshId, start⟩ (unquote text)
    | some (.number text) =>
      advance
      match Binary64.read? text with
      | some value => return .number ⟨← freshId, start⟩ value
      | none => throw (.invalidNumber text start)
    | some (.boolean value) =>
      advance
      return .boolean ⟨← freshId, start⟩ value
    | some (.ident name) =>
      advance
      let callee : Expr := .ident ⟨← freshId, start⟩ name
      if ← eat (.mark .parenOpen) then
        let args ← if ← sees (.mark .parenClose) then pure [] else argsWithin bound
        let stop ← expect (.mark .parenClose)
        return .call ⟨← freshId, start.merge stop⟩ callee args
      else
        return callee
    | some (.mark .bracketOpen) =>
      advance
      let elements ← elementsWithin bound
      let stop ← expect (.mark .bracketClose)
      return .array ⟨← freshId, start.merge stop⟩ elements
    | some (.mark .braceOpen) =>
      advance
      let properties ← propertiesWithin bound
      let stop ← expect (.mark .braceClose)
      return .object ⟨← freshId, start.merge stop⟩ properties
    | _ => unexpected "expression"

def argsWithin : Nat → Reader (List Expr)
  | 0 => unexpected "expression"
  | bound + 1 => do
    let arg ← exprWithin bound
    if ← eat (.mark .comma) then
      return arg :: (← argsWithin bound)
    else
      return [arg]

/-- The elements of an array literal; a comma may stand behind the last one. -/
def elementsWithin : Nat → Reader (List Expr)
  | 0 => unexpected "expression"
  | bound + 1 => do
    if (← atEnd) || (← sees (.mark .bracketClose)) then
      return []
    else
      let element ← exprWithin bound
      if ← eat (.mark .comma) then
        return element :: (← elementsWithin bound)
      else
        return [element]

/-- The properties of an object literal; a comma may stand behind the last one. -/
def propertiesWithin : Nat → Reader (List Property)
  | 0 => unexpected "object property name"
  | bound + 1 => do
    if (← atEnd) || (← sees (.mark .braceClose)) then
      return []
    else
      let start ← here
      match (← kind?).bind propertyKey? with
      | none => unexpected "object property name"
      | some key =>
        advance
        let _ ← expect (.mark .colon)
        let value ← exprWithin bound
        let property : Property := ⟨⟨← freshId, start.merge value.span⟩, key, value⟩
        if ← eat (.mark .comma) then
          return property :: (← propertiesWithin bound)
        else
          return [property]

def blockWithin : Nat → Reader Block
  | 0 => unexpected (Mark.text .braceOpen)
  | bound + 1 => do
    let start ← expect (.mark .braceOpen)
    let statements ← statementsWithin bound true
    let stop ← expect (.mark .braceClose)
    return ⟨⟨← freshId, start.merge stop⟩, statements⟩

/-- All statements up to the end of the text or, in a block, its closing brace. A statement that
cannot be read is recorded and skipped. -/
def statementsWithin : Nat → Bool → Reader (List Stmt)
  | 0, _ => return []
  | bound + 1, nested => do
    if (← atEnd) || (nested && (← sees (.mark .braceClose))) then
      return []
    else
      match ← attempt (statementWithin bound) with
      | .ok statement => return statement :: (← statementsWithin bound nested)
      | .error fault =>
        record fault
        skipStatement nested
        statementsWithin bound nested

def statementWithin : Nat → Reader Stmt
  | 0 => unexpected "'const' or 'return'"
  | bound + 1 => do
    let start ← here
    match ← kind? with
    | some (.keyword .const) =>
      advance
      let (name, place) ← expectIdent "variable name"
      let ident : Ident := ⟨⟨← freshId, place⟩, name⟩
      let type ← optionalType
      let _ ← expect (.mark .equals)
      let value ← exprWithin bound
      let span := start.merge (← get).last
      let _ ← eat (.mark .semicolon)
      return .const ⟨← freshId, span⟩ ident type value
    | some (.keyword .ret) =>
      advance
      let bare := (← atEnd) || (← sees (.mark .semicolon)) || (← sees (.mark .braceClose))
      let argument ← if bare then pure none else some <$> exprWithin bound
      let span := start.merge (← get).last
      let _ ← eat (.mark .semicolon)
      return .ret ⟨← freshId, span⟩ argument
    | _ => unexpected "'const' or 'return'"

end

/-- A bound on the depth of calls that reading the rest of the text does not reach: of any four
calls in a row one reads a token. -/
def depthBound : Reader Nat := return 4 * (← get).rest.length + 4

def expr : Reader Expr := do exprWithin (← depthBound)

def statements : Reader (List Stmt) := do statementsWithin (← depthBound) false

end Reader

/-- What reading a source text as a program gives: reading never fails, it records faults. -/
structure Parsed where
  program : Program
  faults : List ParseFault
  nodeCount : Nat

def parse (source : String) : Parsed :=
  let (result, cursor) := Reader.statements.run (Cursor.ofSource source)
  { program := ⟨result.toOption.getD [], ⟨0, source.utf8ByteSize⟩⟩
    faults := cursor.faults
    nodeCount := cursor.nextId }

/-- Reads an expression from the start of a source text and gives the cursor behind it. -/
def parseExpr (source : String) : Except ParseFault Expr × Cursor :=
  Reader.expr.run (Cursor.ofSource source)

/-- Reads a type annotation from the start of a source text and gives the cursor behind it. -/
def parseType (source : String) : Except ParseFault TypeExpr × Cursor :=
  Reader.typeExpr.run (Cursor.ofSource source)

end ArrowCheck
