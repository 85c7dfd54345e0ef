import ArrowCheck.Proofs.Grammar.Spelling

namespace ArrowCheck

mutual

def TypeExpr.bare : TypeExpr → TypeExpr
  | .named name _ => .named name default
  | .array element _ => .array element.bare default
  | .function params result _ => .function (bareFields params) result.bare default
  | .object fields _ => .object (bareFields fields) default
  | .union members _ => .union (bareTypes members) default
termination_by structural t => t

def bareTypes : List TypeExpr → List TypeExpr
  | [] => []
  | t :: ts => t.bare :: bareTypes ts
termination_by structural ts => ts

def bareFields : List Field → List Field
  | [] => []
  | ⟨name, type, _⟩ :: fs => ⟨name, type.bare, default⟩ :: bareFields fs
termination_by structural fs => fs

end

def Param.bare (p : Param) : Param := ⟨default, p.name, p.type.map TypeExpr.bare⟩

mutual

def Expr.bare : Expr → Expr
  | .string _ value => .string default value
  | .number _ value => .number default value
  | .boolean _ value => .boolean default value
  | .ident _ name => .ident default name
  | .binary _ op left right => .binary default op left.bare right.bare
  | .conditional _ test consequent alternate =>
    .conditional default test.bare consequent.bare alternate.bare
  | .call _ callee args => .call default callee.bare (bareExprs args)
  | .arrow _ params result body =>
    .arrow default (params.map Param.bare) (result.map TypeExpr.bare) body.bare
  | .array _ elements => .array default (bareExprs elements)
  | .object _ properties => .object default (bareProperties properties)
  | .error _ => .error default
termination_by structural e => e

def bareExprs : List Expr → List Expr
  | [] => []
  | e :: es => e.bare :: bareExprs es
termination_by structural es => es

def bareProperties : List Property → List Property
  | [] => []
  | ⟨_, key, value⟩ :: ps => ⟨default, key, value.bare⟩ :: bareProperties ps
termination_by structural ps => ps

def Stmt.bare : Stmt → Stmt
  | .const _ name type value => .const default ⟨default, name.name⟩ (type.map TypeExpr.bare) value.bare
  | .ret _ (some argument) => .ret default (some argument.bare)
  | .ret _ none => .ret default none
termination_by structural s => s

def Block.bare : Block → Block
  | ⟨_, statements⟩ => ⟨default, bareStmts statements⟩
termination_by structural b => b

def bareStmts : List Stmt → List Stmt
  | [] => []
  | s :: ss => s.bare :: bareStmts ss
termination_by structural ss => ss

end

/-- The programs are the same up to ids and spans. -/
def Program.Same (p q : Program) : Prop := bareStmts p.statements = bareStmts q.statements

theorem bareTypes_eq_map (ts : List TypeExpr) : bareTypes ts = ts.map TypeExpr.bare := by
  induction ts with
  | nil => rfl
  | cons t ts ih => rw [bareTypes, List.map_cons, ih]

theorem TypeExpr.alternatives_bare (t : TypeExpr) :
    t.bare.alternatives = t.alternatives.map TypeExpr.bare := by
  cases t with
  | union members span => exact bareTypes_eq_map members
  | _ => rfl

end ArrowCheck
