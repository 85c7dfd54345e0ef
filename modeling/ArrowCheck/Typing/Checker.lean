import ArrowCheck.Typing.Fault
import ArrowCheck.Typing.Meaning
import ArrowCheck.Typing.Scope

namespace ArrowCheck

structure CheckOptions where
  /-- Bodies of arrow functions against the result types written for them. -/
  returnTypes : Bool := true
  /-- Parameters of arrow functions against those of a function type. -/
  parameterTypes : Bool := true
deriving DecidableEq

structure CheckState where
  store : TypeStore := {}
  scopes : ScopeStack := {}
  diagnostics : List TypeDiagnostic := []
  nodeTypes : Table NodeId TypeId := {}
  /-- Types of the bodies of arrow functions, by the id of the function. -/
  returnTypes : Table NodeId TypeId := {}

namespace CheckState

/-- The parts of a state, each emptied by itself, in the order in which a reset empties them. -/
def clearings : List (CheckState → CheckState) := [
  fun s => { s with store := s.store.clear },
  fun s => { s with scopes := s.scopes.reset },
  fun s => { s with diagnostics := [] },
  fun s => { s with nodeTypes := {} },
  fun s => { s with returnTypes := {} }]

def reset (s : CheckState) : CheckState := clearings.foldl (fun s clear => clear s) s

end CheckState

abbrev Check (α : Type) := StateM CheckState α

namespace Check

def onStore {α : Type} (f : TypeStore → α × TypeStore) : Check α :=
  modifyGet fun s =>
    let (a, store) := f s.store
    (a, { s with store })

def fresh : Check TypeId := onStore TypeStore.fresh

def concrete (name : String) : Check TypeId := onStore (·.concrete name)

def concreteName (type : TypeId) : Check (Option String) := onStore (·.concreteName type)

def translate (type : TypeExpr) : Check TypeId := onStore type.translate

def pushScope : Check Unit := modify fun s => { s with scopes := s.scopes.push }

def popScope : Check Unit := modify fun s => { s with scopes := s.scopes.pop.2 }

def define (name : String) (type : TypeId) : Check Unit :=
  modify fun s => { s with scopes := s.scopes.define name type }

def lookup (name : String) : Check (Option TypeId) := return (← get).scopes.lookup name

def record (node : NodeId) (type : TypeId) : Check Unit :=
  modify fun s => { s with nodeTypes := s.nodeTypes.insert node type }

def recordReturn (arrow : NodeId) (type : TypeId) : Check Unit :=
  modify fun s => { s with returnTypes := s.returnTypes.insert arrow type }

def report (fault : TypeFault) (place : Place) : Check Unit :=
  modify fun s => { s with diagnostics := s.diagnostics ++ [.ofPlace fault place] }

def unify (a b : TypeId) (place : Place) : Check Bool := do
  match ← onStore (·.unify a b) with
  | .ok () => return true
  | .error clash =>
    report (.unify clash.left clash.right) place
    return false

def recorded (node : NodeId) : Check TypeId := do
  match (← get).nodeTypes.get? node with
  | some type => return type
  | none => fresh

/-- The type of a name: that of its binding, else one variable for each node. -/
def identType (node : NodeId) (name : String) : Check TypeId := do
  match ← lookup name with
  | some type => return type
  | none => recorded node

def differ (a b : Option String) : Option (String × String) :=
  match a, b with
  | some a, some b => if a = b then none else some (a, b)
  | _, _ => none

/-- A sum: both operands are of one type, which is the result. -/
def addType (place : Place) (left right : TypeId) : Check TypeId := do
  let leftName ← concreteName left
  let rightName ← concreteName right
  match differ leftName rightName with
  | some (l, r) =>
    report (.addMismatch l r) place
    concrete "Number"
  | none =>
    if ← unify left right place then
      return left
    else
      report (.addMismatch (leftName.getD "unknown") (rightName.getD "unknown")) place
      concrete "Number"

def reportOperand (side : Side) (operand : Place) (name : Option String) : Check Unit := do
  match name with
  | some found => if found = "Number" then return () else report (.mulOperand side found) operand
  | none => return ()

def coerceOperand (operand : Place) (type number : TypeId) (name : Option String) : Check Unit := do
  match name with
  | some _ => return ()
  | none => let _ ← unify type number operand

def mulType (leftPlace rightPlace : Place) (left right : TypeId) : Check TypeId := do
  let leftName ← concreteName left
  let rightName ← concreteName right
  let number ← concrete "Number"
  reportOperand .left leftPlace leftName
  reportOperand .right rightPlace rightName
  coerceOperand leftPlace left number leftName
  coerceOperand rightPlace right number rightName
  return number

def sameType (place : Place) (left right : TypeId) : Check TypeId := do
  let leftName ← concreteName left
  let rightName ← concreteName right
  match differ leftName rightName with
  | some (l, r) => report (.operandMismatch l r) place
  | none => if ← unify left right place then pure () else report .operandUnifyFailed place
  return left

def binaryType (op : BinaryOp) (place leftPlace rightPlace : Place) (left right : TypeId) :
    Check TypeId :=
  match op with
  | .add => addType place left right
  | .mul => mulType leftPlace rightPlace left right
  | .sub | .div => sameType place left right

/-- A conditional: the test is a truth value and the branches are of one type. -/
def conditionalType (place testPlace : Place) (test consequent alternate : TypeId) :
    Check TypeId := do
  let boolean ← concrete "Boolean"
  match differ (← concreteName test) (some "Boolean") with
  | some (found, _) => report (.testNotBoolean found) testPlace
  | none => let _ ← unify test boolean testPlace
  let consequentName ← concreteName consequent
  let alternateName ← concreteName alternate
  match differ consequentName alternateName with
  | some (c, a) => report (.branchMismatch c a) place
  | none => let _ ← unify consequent alternate place
  return consequent

def isBound (callee : Expr) : Check Bool := do
  match callee with
  | .ident _ name => return (← lookup name).isSome
  | _ => return false

/-- A call: only a bound name applied to one argument ties the result to it. -/
def callType (place : Place) (callee : Expr) (result : TypeId) (args : List TypeId) :
    Check Unit := do
  let bound ← isBound callee
  match bound, args with
  | true, [arg] => let _ ← unify result arg place
  | _, _ => return ()

/-- An element of an array literal behind the first: of the type of the first. -/
def elementType (place : Place) (first : TypeId) (firstName : Option String) (element : TypeId) :
    Check Unit := do
  match differ firstName (← concreteName element) with
  | some (f, e) => report (.elementMismatch f e) place
  | none => if ← unify first element place then pure () else report .elementUnifyFailed place

def bindParams : List Param → Check Unit
  | [] => return ()
  | p :: ps => do
    let type ← onStore (translateOptional p.type)
    record p.node.id type
    define p.name type
    bindParams ps

def checkResult (options : CheckOptions) (place : Place) (body : TypeId) (result : Option TypeExpr) :
    Check Unit := do
  match result with
  | some type =>
    if options.returnTypes then
      let annotated ← translate type
      let _ ← unify body annotated place
  | none => return ()

/-- The body of an arrow function, already typed, against the result of a function type. -/
def checkReturn (place : Place) (arrow : NodeId) (result : TypeExpr) : Check Unit := do
  let annotated ← translate result
  match (← get).returnTypes.get? arrow with
  | some inferred => let _ ← unify inferred annotated place
  | none => return ()

/-- Parameters of a function against those of a function type, as far as both go. -/
def checkParams (place : Place) : List (Field × Param) → Check Unit
  | [] => return ()
  | (field, param) :: rest => do
    let annotated ← translate field.type
    let actual ← recorded param.node.id
    let _ ← unify actual annotated place
    checkParams place rest

/-- The fields of an object type against the properties of a literal; of a key that is repeated the
last value counts. -/
def checkFields (place : Place) (properties : List Property) : List Field → Check Unit
  | [] => return ()
  | field :: rest => do
    match properties.reverse.find? (·.key = field.name) with
    | none => report (.missingField field.name) place
    | some property =>
      let actual ← recorded property.value.id
      let annotated ← translate field.type
      let _ ← unify actual annotated property.value.place
    checkFields place properties rest

def checkElements (elementType : TypeId) : List Expr → Check Unit
  | [] => return ()
  | e :: es => do
    let actual ← recorded e.id
    let _ ← unify actual elementType e.place
    checkElements elementType es

/-- The first member of a union that is not known to have another name than the value. -/
def chooseMember (name : Option String) : List TypeExpr → Check (Option TypeId)
  | [] => return none
  | member :: rest => do
    let type ← translate member
    match differ name (← concreteName type) with
    | some _ => chooseMember name rest
    | none => return some type

def checkAgainst (place : Place) (init : TypeId) (type : TypeExpr) : Check Unit := do
  let annotated ← translate type
  let _ ← unify init annotated place

/-- The value of a declaration, already typed, against the type written for it. Function, object
and array types are also compared part by part with literals of their kind. -/
def checkDeclared (options : CheckOptions) (place : Place) (value : Expr) (init : TypeId)
    (type : TypeExpr) : Check Unit := do
  match type, value with
  | .function params result _, .arrow node actual _ _ =>
    if options.returnTypes then
      checkReturn place node.id result
    if options.parameterTypes then
      checkParams place (params.zip actual)
    let function ← concrete "Function"
    let _ ← unify init function place
  | .object fields span, .object _ properties =>
    let annotated ← translate (.object fields span)
    checkFields place properties fields
    let _ ← unify init annotated place
  | .union members _, _ =>
    let name ← concreteName init
    match ← chooseMember name members with
    | some member => let _ ← unify init member place
    | none => report .unionNoMatch place
  | .array element span, .array _ elements =>
    let elementType ← translate element
    checkElements elementType elements
    checkAgainst place init (.array element span)
  | type, _ => checkAgainst place init type

end Check

open Check

mutual

def Expr.check (options : CheckOptions) : Expr → Check TypeId
  | .string node _ => do
    let type ← concrete "String"
    record node.id type
    return type
  | .number node _ => do
    let type ← concrete "Number"
    record node.id type
    return type
  | .boolean node _ => do
    let type ← concrete "Boolean"
    record node.id type
    return type
  | .ident node name => do
    let type ← identType node.id name
    record node.id type
    return type
  | .binary node op left right => do
    let leftType ← left.check options
    let rightType ← right.check options
    let place : Place := ⟨node, "BinaryExpression"⟩
    let type ← binaryType op place left.place right.place leftType rightType
    record node.id type
    return type
  | .conditional node test consequent alternate => do
    let testType ← test.check options
    let consequentType ← consequent.check options
    let alternateType ← alternate.check options
    let place : Place := ⟨node, "ConditionalExpression"⟩
    let type ← conditionalType place test.place testType consequentType alternateType
    record node.id type
    return type
  | .call node callee args => do
    let _ ← callee.check options
    let type ← fresh
    let argTypes ← checkExprs options args
    callType ⟨node, "CallExpression"⟩ callee type argTypes
    record node.id type
    return type
  | .arrow node params result body => do
    pushScope
    bindParams params
    let bodyType ← body.check options
    recordReturn node.id bodyType
    checkResult options ⟨node, "ArrowFunctionExpression"⟩ bodyType result
    popScope
    let type ← concrete "Function"
    record node.id type
    return type
  | .array node elements => do
    checkArray options elements
    let type ← concrete "Array"
    record node.id type
    return type
  | .object node properties => do
    let fields ← checkProperties options properties
    let type ← onStore (·.object (Table.ofList fields))
    record node.id type
    return type
  | .error node => do
    report (.unknownNode "ErrorExpression") ⟨node, "ErrorExpression"⟩
    let type ← fresh
    record node.id type
    return type
termination_by structural e => e

def checkExprs (options : CheckOptions) : List Expr → Check (List TypeId)
  | [] => return []
  | e :: es => do
    let type ← e.check options
    let types ← checkExprs options es
    return type :: types
termination_by structural es => es

def checkArray (options : CheckOptions) : List Expr → Check Unit
  | [] => return ()
  | first :: rest => do
    let type ← first.check options
    let name ← concreteName type
    checkRest options type name rest
termination_by structural es => es

def checkRest (options : CheckOptions) (first : TypeId) (firstName : Option String) :
    List Expr → Check Unit
  | [] => return ()
  | e :: es => do
    let type ← e.check options
    elementType e.place first firstName type
    checkRest options first firstName es
termination_by structural es => es

def checkProperties (options : CheckOptions) : List Property → Check (List (String × TypeId))
  | [] => return []
  | ⟨_, key, value⟩ :: ps => do
    let type ← value.check options
    let rest ← checkProperties options ps
    return (key, type) :: rest
termination_by structural ps => ps

def Stmt.check (options : CheckOptions) : Stmt → Check TypeId
  | .const node name type value => do
    let init ← value.check options
    record name.node.id init
    define name.name init
    match type with
    | some type => checkDeclared options ⟨node, "ConstDeclaration"⟩ value init type
    | none => pure ()
    return init
  | .ret _ (some argument) => argument.check options
  | .ret _ none => concrete "Void"
termination_by structural s => s

def Block.check (options : CheckOptions) : Block → Check TypeId
  | ⟨node, statements⟩ => do
    let void ← concrete "Void"
    pushScope
    let type ← checkStmts options statements void
    popScope
    record node.id type
    return type
termination_by structural b => b

def checkStmts (options : CheckOptions) : List Stmt → TypeId → Check TypeId
  | [], last => return last
  | s :: ss, _ => do
    let type ← s.check options
    checkStmts options ss type
termination_by structural ss => ss

end

def visitAll (options : CheckOptions) : List Stmt → Check (List TypeId)
  | [] => return []
  | s :: ss => do
    let type ← s.check options
    let types ← visitAll options ss
    return type :: types

structure CheckResult where
  diagnostics : List TypeDiagnostic
  nodeTypes : Table NodeId TypeId
  returnTypes : Table NodeId TypeId
  store : TypeStore

namespace CheckResult

def ofState (s : CheckState) : CheckResult := ⟨s.diagnostics, s.nodeTypes, s.returnTypes, s.store⟩

def isOk (r : CheckResult) : Bool := r.diagnostics.isEmpty

def typeName (r : CheckResult) (node : NodeId) : Option String :=
  (r.nodeTypes.get? node).bind r.store.display

/-- The text of the type of the body of an arrow function that was checked. -/
def returnName (r : CheckResult) (arrow : NodeId) : Option String :=
  (r.returnTypes.get? arrow).bind r.store.display

end CheckResult

def checkProgram (options : CheckOptions) (p : Program) : CheckResult :=
  .ofState (((visitAll options p.statements).run {}).2)

/-- A checker that keeps its state from one visit to the next. -/
structure Session where
  options : CheckOptions := {}
  state : CheckState := {}

namespace Session

/-- Checks a whole program; what was visited before is forgotten, and so is the program. -/
def check (s : Session) (p : Program) : CheckResult × Session :=
  let (_, state) := (visitAll s.options p.statements).run s.state.reset
  (.ofState state, { s with state := {} })

def visit (s : Session) (statements : List Stmt) : List TypeId × Session :=
  let (types, state) := (visitAll s.options statements).run s.state
  (types, { s with state })

end Session

end ArrowCheck
