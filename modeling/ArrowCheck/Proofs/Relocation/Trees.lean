import ArrowCheck.Parse.Program
import Mathlib.Order.MinMax

namespace ArrowCheck

/-- How positions and ids change from one text to another. -/
structure Relocation where
  pos : Nat → Nat
  mono : Monotone pos
  ids : Nat

namespace Relocation

def shift (bytes ids : Nat) : Relocation := ⟨(· + bytes), fun _ _ h => Nat.add_le_add_right h _, ids⟩

def forget : Relocation := ⟨fun _ => 0, fun _ _ _ => Nat.le_refl _, 0⟩

end Relocation

variable (ρ : Relocation)

def Span.relocate (s : Span) : Span := ⟨ρ.pos s.start, ρ.pos s.stop⟩

def Token.relocate (t : Token) : Token := ⟨t.kind, t.span.relocate ρ⟩

def LexFault.relocate : LexFault → LexFault
  | .unexpected position char => .unexpected (ρ.pos position) char
  | .openString position => .openString (ρ.pos position)
  | .openComment position => .openComment (ρ.pos position)

def ParseFault.relocate : ParseFault → ParseFault
  | .unexpectedToken expected found span => .unexpectedToken expected found (span.relocate ρ)
  | .unexpectedEnd expected span => .unexpectedEnd expected (span.relocate ρ)
  | .anyType span => .anyType (span.relocate ρ)
  | .expressionBody span => .expressionBody (span.relocate ρ)
  | .invalidNumber literal span => .invalidNumber literal (span.relocate ρ)
  | .lexical fault => .lexical (fault.relocate ρ)

def Node.relocate (n : Node) : Node := ⟨n.id + ρ.ids, n.span.relocate ρ⟩

mutual

def TypeExpr.relocate : TypeExpr → TypeExpr
  | .named name span => .named name (span.relocate ρ)
  | .array element span => .array element.relocate (span.relocate ρ)
  | .function params result span => .function (relocateFields params) result.relocate (span.relocate ρ)
  | .object fields span => .object (relocateFields fields) (span.relocate ρ)
  | .union members span => .union (relocateTypes members) (span.relocate ρ)
termination_by structural t => t

def relocateTypes : List TypeExpr → List TypeExpr
  | [] => []
  | t :: ts => t.relocate :: relocateTypes ts
termination_by structural ts => ts

def relocateFields : List Field → List Field
  | [] => []
  | ⟨name, type, span⟩ :: fs => ⟨name, type.relocate, span.relocate ρ⟩ :: relocateFields fs
termination_by structural fs => fs

end

def Ident.relocate (i : Ident) : Ident := ⟨i.node.relocate ρ, i.name⟩

def Param.relocate (p : Param) : Param :=
  ⟨p.node.relocate ρ, p.name, p.type.map (TypeExpr.relocate ρ)⟩

mutual

def Expr.relocate : Expr → Expr
  | .string node value => .string (node.relocate ρ) value
  | .number node value => .number (node.relocate ρ) value
  | .boolean node value => .boolean (node.relocate ρ) value
  | .ident node name => .ident (node.relocate ρ) name
  | .binary node op left right => .binary (node.relocate ρ) op left.relocate right.relocate
  | .conditional node test consequent alternate =>
    .conditional (node.relocate ρ) test.relocate consequent.relocate alternate.relocate
  | .call node callee args => .call (node.relocate ρ) callee.relocate (relocateExprs args)
  | .arrow node params result body =>
    .arrow (node.relocate ρ) (params.map (Param.relocate ρ)) (result.map (TypeExpr.relocate ρ))
      body.relocate
  | .array node elements => .array (node.relocate ρ) (relocateExprs elements)
  | .object node properties => .object (node.relocate ρ) (relocateProperties properties)
  | .error node => .error (node.relocate ρ)
termination_by structural e => e

def relocateExprs : List Expr → List Expr
  | [] => []
  | e :: es => e.relocate :: relocateExprs es
termination_by structural es => es

def relocateProperties : List Property → List Property
  | [] => []
  | ⟨node, key, value⟩ :: ps => ⟨node.relocate ρ, key, value.relocate⟩ :: relocateProperties ps
termination_by structural ps => ps

def Stmt.relocate : Stmt → Stmt
  | .const node name type value =>
    .const (node.relocate ρ) (name.relocate ρ) (type.map (TypeExpr.relocate ρ)) value.relocate
  | .ret node (some argument) => .ret (node.relocate ρ) (some argument.relocate)
  | .ret node none => .ret (node.relocate ρ) none
termination_by structural s => s

def Block.relocate : Block → Block
  | ⟨node, statements⟩ => ⟨node.relocate ρ, relocateStmts statements⟩
termination_by structural b => b

def relocateStmts : List Stmt → List Stmt
  | [] => []
  | s :: ss => s.relocate :: relocateStmts ss
termination_by structural ss => ss

end

def Program.relocate (p : Program) : Program := ⟨relocateStmts ρ p.statements, p.span.relocate ρ⟩

variable {ρ}

theorem Span.relocate_merge (a b : Span) :
    (a.merge b).relocate ρ = (a.relocate ρ).merge (b.relocate ρ) := by
  simp only [relocate, merge, ρ.mono.map_min, ρ.mono.map_max]

theorem relocateTypes_eq_map (ts : List TypeExpr) : relocateTypes ρ ts = ts.map (TypeExpr.relocate ρ) := by
  induction ts with
  | nil => rfl
  | cons t ts ih => rw [relocateTypes, List.map_cons, ih]

theorem TypeExpr.span_relocate (t : TypeExpr) : (t.relocate ρ).span = t.span.relocate ρ := by
  cases t <;> rfl

theorem TypeExpr.alternatives_relocate (t : TypeExpr) :
    (t.relocate ρ).alternatives = t.alternatives.map (TypeExpr.relocate ρ) := by
  cases t with
  | union members span => exact relocateTypes_eq_map members
  | _ => rfl

theorem TypeExpr.join_relocate (t u : TypeExpr) :
    (t.join u).relocate ρ = (t.relocate ρ).join (u.relocate ρ) := by
  simp only [join, relocate, relocateTypes_eq_map, List.map_append, alternatives_relocate,
    Span.relocate_merge, span_relocate]

theorem Expr.span_relocate (e : Expr) : (e.relocate ρ).span = e.span.relocate ρ := by
  cases e <;> rfl

section Stay

mutual

theorem TypeExpr.relocate_stay : ∀ t : TypeExpr, t.relocate (.shift 0 0) = t
  | .named .. => rfl
  | .array element _ => by rw [TypeExpr.relocate, element.relocate_stay]; rfl
  | .function params result _ => by
    rw [TypeExpr.relocate, relocateFields_stay params, result.relocate_stay]
    rfl
  | .object fields _ => by rw [TypeExpr.relocate, relocateFields_stay fields]; rfl
  | .union members _ => by rw [TypeExpr.relocate, relocateTypes_stay members]; rfl

theorem relocateTypes_stay : ∀ ts : List TypeExpr, relocateTypes (.shift 0 0) ts = ts
  | [] => rfl
  | t :: ts => by rw [relocateTypes, t.relocate_stay, relocateTypes_stay ts]

theorem relocateFields_stay : ∀ fs : List Field, relocateFields (.shift 0 0) fs = fs
  | [] => rfl
  | ⟨name, type, span⟩ :: fs => by
    rw [relocateFields, type.relocate_stay, relocateFields_stay fs]
    rfl

end

theorem optional_relocate_stay (t : Option TypeExpr) : t.map (TypeExpr.relocate (.shift 0 0)) = t := by
  cases t with
  | none => rfl
  | some t => rw [Option.map_some, t.relocate_stay]

theorem Param.relocate_stay (p : Param) : p.relocate (.shift 0 0) = p := by
  rw [relocate, optional_relocate_stay]
  rfl

mutual

theorem Expr.relocate_stay : ∀ e : Expr, e.relocate (.shift 0 0) = e
  | .string .. | .number .. | .boolean .. | .ident .. | .error _ => rfl
  | .binary _ _ left right => by rw [Expr.relocate, left.relocate_stay, right.relocate_stay]; rfl
  | .conditional _ test consequent alternate => by
    rw [Expr.relocate, test.relocate_stay, consequent.relocate_stay, alternate.relocate_stay]
    rfl
  | .call _ callee args => by rw [Expr.relocate, callee.relocate_stay, relocateExprs_stay args]; rfl
  | .arrow _ params result body => by
    have hparams : params.map (Param.relocate (.shift 0 0)) = params :=
      (List.map_congr_left fun p _ => p.relocate_stay).trans (List.map_id' params)
    rw [Expr.relocate, hparams, optional_relocate_stay, body.relocate_stay]
    rfl
  | .array _ elements => by rw [Expr.relocate, relocateExprs_stay elements]; rfl
  | .object _ properties => by rw [Expr.relocate, relocateProperties_stay properties]; rfl

theorem relocateExprs_stay : ∀ es : List Expr, relocateExprs (.shift 0 0) es = es
  | [] => rfl
  | e :: es => by rw [relocateExprs, e.relocate_stay, relocateExprs_stay es]

theorem relocateProperties_stay : ∀ ps : List Property, relocateProperties (.shift 0 0) ps = ps
  | [] => rfl
  | ⟨node, key, value⟩ :: ps => by
    rw [relocateProperties, value.relocate_stay, relocateProperties_stay ps]
    rfl

theorem Stmt.relocate_stay : ∀ s : Stmt, s.relocate (.shift 0 0) = s
  | .const _ _ type value => by rw [Stmt.relocate, optional_relocate_stay type, value.relocate_stay]; rfl
  | .ret _ (some argument) => by rw [Stmt.relocate, argument.relocate_stay]; rfl
  | .ret _ none => rfl

theorem Block.relocate_stay : ∀ b : Block, b.relocate (.shift 0 0) = b
  | ⟨node, statements⟩ => by rw [Block.relocate, relocateStmts_stay statements]; rfl

theorem relocateStmts_stay : ∀ ss : List Stmt, relocateStmts (.shift 0 0) ss = ss
  | [] => rfl
  | s :: ss => by rw [relocateStmts, s.relocate_stay, relocateStmts_stay ss]

end

end Stay

end ArrowCheck
