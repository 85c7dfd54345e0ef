import ArrowCheck.Number.Binary64
import ArrowCheck.Syntax.TypeExpr

namespace ArrowCheck

abbrev NodeId := Nat

def nodeIdText (id : NodeId) : String := s!"#{id}"

/-- What every node with an id has: the id and where the node stands. -/
structure Node where
  id : NodeId
  span : Span
deriving DecidableEq, Inhabited

/-- Source text holds sums and products only; the other operators come with trees built by hand. -/
inductive BinaryOp
  | add
  | mul
  | sub
  | div
deriving DecidableEq

def BinaryOp.symbol : BinaryOp → String
  | .add => "+"
  | .mul => "*"
  | .sub => "-"
  | .div => "/"

structure Ident where
  node : Node
  name : String

structure Param where
  node : Node
  name : String
  type : Option TypeExpr

mutual

inductive Expr
  | string (node : Node) (value : String)
  | number (node : Node) (value : Binary64)
  | boolean (node : Node) (value : Bool)
  | ident (node : Node) (name : String)
  | binary (node : Node) (op : BinaryOp) (left right : Expr)
  | conditional (node : Node) (test consequent alternate : Expr)
  | call (node : Node) (callee : Expr) (args : List Expr)
  | arrow (node : Node) (params : List Param) (result : Option TypeExpr) (body : Block)
  | array (node : Node) (elements : List Expr)
  | object (node : Node) (properties : List Property)
  | error (node : Node)

structure Property where
  node : Node
  key : String
  value : Expr

inductive Stmt
  | const (node : Node) (name : Ident) (type : Option TypeExpr) (value : Expr)
  | ret (node : Node) (argument : Option Expr)

structure Block where
  node : Node
  statements : List Stmt

end

structure Program where
  statements : List Stmt
  span : Span

namespace Expr

def node : Expr → Node
  | string n _ | number n _ | boolean n _ | ident n _ | binary n .. | conditional n ..
  | call n .. | arrow n .. | array n _ | object n _ | error n => n

def id (e : Expr) : NodeId := e.node.id

def span (e : Expr) : Span := e.node.span

def kindName : Expr → String
  | string .. => "StringLiteral"
  | number .. => "NumericLiteral"
  | boolean .. => "BooleanLiteral"
  | ident .. => "Identifier"
  | binary .. => "BinaryExpression"
  | conditional .. => "ConditionalExpression"
  | call .. => "CallExpression"
  | arrow .. => "ArrowFunctionExpression"
  | array .. => "ArrayLiteral"
  | object .. => "ObjectLiteral"
  | error .. => "ErrorExpression"

instance : Inhabited Expr := ⟨error default⟩

end Expr

namespace Stmt

def node : Stmt → Node
  | const n .. | ret n _ => n

def kindName : Stmt → String
  | const .. => "ConstDeclaration"
  | ret .. => "ReturnStatement"

instance : Inhabited Stmt := ⟨ret default none⟩

end Stmt

end ArrowCheck
