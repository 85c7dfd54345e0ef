import ArrowCheck.Number.Shortest
import ArrowCheck.Syntax.Tree
import ArrowCheck.Text.Outline
import ArrowCheck.Text.Quoted

namespace ArrowCheck

open Outline

def Outline.quoted (s : String) : Outline := leaf (Text.quoted s)

def Span.outline (s : Span) : Outline := record "Span" [("start", .nat s.start), ("end", .nat s.stop)]

def NodeId.outline (id : NodeId) : Outline := tuple "NodeId" [.nat id]

mutual

def TypeExpr.outline : TypeExpr → Outline
  | .named name span => record "Named" [("name", .quoted name), ("span", span.outline)]
  | .array element span => record "Array" [("element", element.outline), ("span", span.outline)]
  | .function params result span =>
    record "Function" [("params", list (Field.outlines params)), ("return_type", result.outline),
      ("span", span.outline)]
  | .object fields span => record "Object" [("fields", list (Field.outlines fields)), ("span", span.outline)]
  | .union members span => record "Union" [("types", list (TypeExpr.outlines members)), ("span", span.outline)]
termination_by structural t => t

def TypeExpr.outlines : List TypeExpr → List Outline
  | [] => []
  | t :: ts => t.outline :: TypeExpr.outlines ts
termination_by structural ts => ts

def Field.outline : Field → Outline
  | ⟨name, type, span⟩ =>
    record "TypeField" [("name", .quoted name), ("ty", type.outline), ("span", span.outline)]
termination_by structural f => f

def Field.outlines : List Field → List Outline
  | [] => []
  | f :: fs => f.outline :: Field.outlines fs
termination_by structural fs => fs

end

def TypeExpr.optional (t : Option TypeExpr) : Outline := .ofOption (t.map TypeExpr.outline)

def Node.outline (n : Node) (name : String) (own : List (String × Outline)) : Outline :=
  record name ([("id", NodeId.outline n.id)] ++ own ++ [("span", n.span.outline)])

def Ident.outline (i : Ident) : Outline := i.node.outline "Ident" [("name", .quoted i.name)]

def Param.outline (p : Param) : Outline :=
  p.node.outline "Param" [("name", .quoted p.name), ("ty", TypeExpr.optional p.type)]

def BinaryOp.name : BinaryOp → String
  | .add => "Add"
  | .mul => "Mul"
  | .sub => "Sub"
  | .div => "Div"

def Expr.outlineOf (n : Node) (kind : Outline) : Outline := n.outline "Expr" [("kind", kind)]

mutual

def Expr.outline : Expr → Outline
  | .string n v => Expr.outlineOf n (tuple "String" [.quoted v])
  | .number n v => Expr.outlineOf n (tuple "Number" [leaf (v.write Binary64.dumped)])
  | .boolean n v => Expr.outlineOf n (tuple "Boolean" [leaf (if v then "true" else "false")])
  | .ident n name => Expr.outlineOf n (tuple "Identifier" [.quoted name])
  | .binary n op l r =>
    Expr.outlineOf n (record "Binary" [("op", leaf op.name), ("left", l.outline), ("right", r.outline)])
  | .conditional n test consequent alternate =>
    Expr.outlineOf n (record "Conditional" [("test", test.outline), ("consequent", consequent.outline),
      ("alternate", alternate.outline)])
  | .call n callee args =>
    Expr.outlineOf n (record "Call" [("callee", callee.outline), ("args", list (Expr.outlines args))])
  | .arrow n params result body =>
    Expr.outlineOf n (tuple "ArrowFunction" [record "ArrowFunction" [
      ("params", list (params.map Param.outline)), ("return_type", TypeExpr.optional result),
      ("body", body.outline)]])
  | .array n elements => Expr.outlineOf n (tuple "Array" [list (Expr.outlines elements)])
  | .object n properties => Expr.outlineOf n (tuple "Object" [list (Property.outlines properties)])
  | .error n => Expr.outlineOf n (leaf "Error")
termination_by structural e => e

def Expr.outlines : List Expr → List Outline
  | [] => []
  | e :: es => e.outline :: Expr.outlines es
termination_by structural es => es

def Property.outline : Property → Outline
  | ⟨n, key, value⟩ => n.outline "Property" [("key", .quoted key), ("value", value.outline)]
termination_by structural p => p

def Property.outlines : List Property → List Outline
  | [] => []
  | p :: ps => p.outline :: Property.outlines ps
termination_by structural ps => ps

def Expr.optional : Option Expr → Outline
  | some e => .ofOption (some e.outline)
  | none => .ofOption none
termination_by structural e => e

def Stmt.outline : Stmt → Outline
  | .const n name type value =>
    n.outline "Stmt" [("kind", tuple "Const" [record "ConstDecl" [
      ("name", name.outline), ("ty", TypeExpr.optional type), ("value", value.outline)]])]
  | .ret n argument =>
    n.outline "Stmt" [("kind", tuple "Return" [record "ReturnStmt" [("argument", Expr.optional argument)]])]
termination_by structural s => s

def Stmt.outlines : List Stmt → List Outline
  | [] => []
  | s :: ss => s.outline :: Stmt.outlines ss
termination_by structural ss => ss

def Block.outline : Block → Outline
  | ⟨n, statements⟩ => n.outline "Block" [("statements", list (Stmt.outlines statements))]
termination_by structural b => b

end

def Program.outline (p : Program) : Outline :=
  record "Program" [("statements", list (Stmt.outlines p.statements)), ("span", p.span.outline)]

end ArrowCheck
