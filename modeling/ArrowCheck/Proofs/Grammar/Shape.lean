import ArrowCheck.Syntax.Tree

namespace ArrowCheck

/-- A node with its span, its id if it carries one, and its parts in source order. -/
inductive Shape
  | node (id : Option NodeId) (span : Span) (parts : List Shape)

namespace Shape

def span : Shape → Span
  | node _ span _ => span

def parts : Shape → List Shape
  | node _ _ parts => parts

def leaf (span : Span) : Shape := node none span []

mutual

def ids : Shape → List NodeId
  | node id _ parts => idsOf parts ++ id.toList
termination_by structural x => x

def idsOf : List Shape → List NodeId
  | [] => []
  | x :: xs => x.ids ++ idsOf xs
termination_by structural xs => xs

end

mutual

def nodes : Shape → List Shape
  | node id span parts => node id span parts :: nodesOf parts
termination_by structural x => x

def nodesOf : List Shape → List Shape
  | [] => []
  | x :: xs => x.nodes ++ nodesOf xs
termination_by structural xs => xs

end

variable {x y : Shape} {xs ys : List Shape}

@[simp]
theorem idsOf_append (xs ys : List Shape) : idsOf (xs ++ ys) = idsOf xs ++ idsOf ys := by
  induction xs with
  | nil => rfl
  | cons x rest ih => rw [List.cons_append, idsOf, idsOf, ih, List.append_assoc]

theorem idsOf_leaf (span : Span) (xs : List Shape) : idsOf (leaf span :: xs) = idsOf xs := by
  rw [idsOf, leaf, ids, idsOf, Option.toList_none, List.append_nil, List.nil_append]

mutual

theorem nodes_subset (x : Shape) : ∀ y ∈ x.nodes, y.nodes ⊆ x.nodes := by
  match x with
  | node id span parts =>
    intro y hy
    cases List.mem_cons.mp hy with
    | inl heq =>
      rw [heq]
      exact List.Subset.refl _
    | inr hmem => exact List.Subset.trans (nodesOf_subset parts y hmem) (List.subset_cons_self _ _)
termination_by structural x

theorem nodesOf_subset (xs : List Shape) : ∀ y ∈ nodesOf xs, y.nodes ⊆ nodesOf xs := by
  match xs with
  | [] => exact fun _ h => absurd h List.not_mem_nil
  | x :: rest =>
    intro y hy
    cases List.mem_append.mp hy with
    | inl h => exact List.Subset.trans (nodes_subset x y h) (List.subset_append_left _ _)
    | inr h => exact List.Subset.trans (nodesOf_subset rest y h) (List.subset_append_right _ _)
termination_by structural xs

end

theorem mem_nodesOf : y ∈ nodesOf xs ↔ ∃ x ∈ xs, y ∈ x.nodes := by
  induction xs with
  | nil => simp [nodesOf]
  | cons x rest ih => simp [nodesOf, ih]

end Shape

mutual

def TypeExpr.shape : TypeExpr → Shape
  | .named _ span => .leaf span
  | .array element span => .node none span [element.shape]
  | .function params result span => .node none span (fieldShapes params ++ [result.shape])
  | .object fields span => .node none span (fieldShapes fields)
  | .union members span => .node none span (typeShapes members)
termination_by structural t => t

def typeShapes : List TypeExpr → List Shape
  | [] => []
  | t :: ts => t.shape :: typeShapes ts
termination_by structural ts => ts

def fieldShapes : List Field → List Shape
  | [] => []
  | ⟨_, type, span⟩ :: fs => .node none span [type.shape] :: fieldShapes fs
termination_by structural fs => fs

end

def optionalShape (type : Option TypeExpr) : List Shape := type.toList.map TypeExpr.shape

def Ident.shape (i : Ident) : Shape := .node (some i.node.id) i.node.span []

def Param.shape (p : Param) : Shape := .node (some p.node.id) p.node.span (optionalShape p.type)

mutual

def Expr.shape : Expr → Shape
  | .string n _ | .number n _ | .boolean n _ | .ident n _ | .error n => .node (some n.id) n.span []
  | .binary n _ left right => .node (some n.id) n.span [left.shape, right.shape]
  | .conditional n test consequent alternate =>
    .node (some n.id) n.span [test.shape, consequent.shape, alternate.shape]
  | .call n callee args => .node (some n.id) n.span (callee.shape :: exprShapes args)
  | .arrow n params result body =>
    .node (some n.id) n.span (params.map Param.shape ++ optionalShape result ++ [body.shape])
  | .array n elements => .node (some n.id) n.span (exprShapes elements)
  | .object n properties => .node (some n.id) n.span (propertyShapes properties)
termination_by structural e => e

def exprShapes : List Expr → List Shape
  | [] => []
  | e :: es => e.shape :: exprShapes es
termination_by structural es => es

def propertyShapes : List Property → List Shape
  | [] => []
  | ⟨n, _, value⟩ :: ps => .node (some n.id) n.span [value.shape] :: propertyShapes ps
termination_by structural ps => ps

def Stmt.shape : Stmt → Shape
  | .const n name type value =>
    .node (some n.id) n.span (name.shape :: optionalShape type ++ [value.shape])
  | .ret n (some argument) => .node (some n.id) n.span [argument.shape]
  | .ret n none => .node (some n.id) n.span []
termination_by structural s => s

def stmtShapes : List Stmt → List Shape
  | [] => []
  | s :: ss => s.shape :: stmtShapes ss
termination_by structural ss => ss

def Block.shape : Block → Shape
  | ⟨n, statements⟩ => .node (some n.id) n.span (stmtShapes statements)
termination_by structural b => b

end

def Program.shape (p : Program) : Shape := .node none p.span (stmtShapes p.statements)

end ArrowCheck
