import ArrowCheck.Syntax.Tree

namespace ArrowCheck

inductive Side
  | left
  | right
deriving DecidableEq

def Side.text : Side → String
  | left => "left"
  | right => "right"

/-- A mismatch of types. The names are those of the types, or `unknown` for a type without one. -/
inductive TypeFault
  | unify (left right : String)
  | addMismatch (left right : String)
  | mulOperand (side : Side) (found : String)
  | operandMismatch (left right : String)
  | operandUnifyFailed
  | testNotBoolean (found : String)
  | branchMismatch (consequent alternate : String)
  | elementMismatch (first found : String)
  | elementUnifyFailed
  | missingField (field : String)
  | unionNoMatch
  | unknownNode (kind : String)
deriving DecidableEq

namespace TypeFault

def code : TypeFault → String
  | unify .. => "E_TYPECHECK"
  | addMismatch .. => "E_BIN_ADD_MISMATCH"
  | mulOperand .. => "E_BIN_MUL_OPERAND"
  | operandMismatch .. | operandUnifyFailed => "E_BIN_OPERAND_MISMATCH"
  | testNotBoolean _ => "E_TERNARY_TEST_NOT_BOOL"
  | branchMismatch .. => "E_TERNARY_BRANCH_MISMATCH"
  | elementMismatch .. | elementUnifyFailed => "E_ARRAY_ELEMENT_MISMATCH"
  | missingField _ => "E_OBJECT_FIELD_MISSING"
  | unionNoMatch => "E_UNION_NO_MATCH"
  | unknownNode _ => "E_UNKNOWN_NODE"

def message : TypeFault → String
  | unify left right => s!"Type mismatch: cannot unify {left} with {right}"
  | addMismatch left right =>
    s!"Type mismatch in binary operation: cannot add {left} to {right}"
  | mulOperand side found =>
    "Type mismatch: expected Number for " ++ side.text ++ s!" operand of '*' operator, got {found}"
  | operandMismatch left right =>
    s!"Type mismatch in binary operation: operands must have the same type, got {left} and {right}"
  | operandUnifyFailed => "Type mismatch in binary operation: operands must have the same type"
  | testNotBoolean found => s!"Type mismatch in ternary: condition must be Boolean, got {found}"
  | branchMismatch consequent alternate =>
    "Type mismatch in ternary: branches must have the same type, got " ++
      s!"{consequent} and {alternate}"
  | elementMismatch first found =>
    "Type mismatch in array literal: array elements must have consistent types, found " ++
      s!"{first} and {found}"
  | elementUnifyFailed =>
    "Type mismatch in array literal: array elements must have consistent types"
  | missingField field => s!"Type mismatch: missing field '{field}' in object literal"
  | unionNoMatch => "Type mismatch: value does not match any type in the union"
  | unknownNode kind => s!"Unknown node type during type checking: {kind}"

def label : TypeFault → String
  | unify left right => s!"expected {right}, found {left}"
  | addMismatch left right => s!"{left} + {right}"
  | mulOperand _ found => s!"this is {found}"
  | operandMismatch left right => s!"{left} and {right}"
  | testNotBoolean found => s!"expected Boolean, found {found}"
  | branchMismatch consequent alternate => s!"branches are {consequent} and {alternate}"
  | elementMismatch first found => s!"expected {first}, found {found}"
  | missingField field => s!"`{field}` is not set here"
  | unionNoMatch => "no union member accepts this value"
  | operandUnifyFailed | elementUnifyFailed | unknownNode _ => ""

end TypeFault

structure Place where
  node : Node
  kind : String

def Expr.place (e : Expr) : Place := ⟨e.node, e.kindName⟩

def Stmt.place (s : Stmt) : Place := ⟨s.node, s.kindName⟩

/-- A fault with the kind, id and span of its node. -/
structure TypeDiagnostic where
  fault : TypeFault
  nodeKind : String
  node : Option NodeId
  span : Option Span
deriving DecidableEq

namespace TypeDiagnostic

def ofPlace (fault : TypeFault) (place : Place) : TypeDiagnostic :=
  ⟨fault, place.kind, some place.node.id, some place.node.span⟩

def position (d : TypeDiagnostic) : Option Nat := d.span.map Span.start

def text (d : TypeDiagnostic) : String :=
  let place := match d.position with
    | some p => s!" at position {p}"
    | none => ""
  "[" ++ d.fault.code ++ "] " ++ d.fault.message ++ place

end TypeDiagnostic

end ArrowCheck
