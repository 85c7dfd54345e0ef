import ArrowCheck.Layout.Program
import ArrowCheck.Proofs.Grammar.Bare

namespace ArrowCheck

/-- What a text holds besides blanks, marks and the word before the brackets of an array type. -/
inductive Atom
  | keyword (word : Keyword)
  | name (name : String)
  | typeName (name : String)
  | string (value : String)
  | key (key : String)
  | number (value : Binary64)
  | boolean (value : Bool)

inductive TextPiece
  | space
  | line (depth : Nat)
  | mark (m : Mark)
  | array
  | atom (a : Atom)

def Atom.text : Atom → String
  | keyword w => w.text
  | name n => n
  | typeName n => n
  | string v => quoteString v
  | key k => keyText k
  | number x => x.write Binary64.plain
  | boolean b => if b then "true" else "false"

def TextPiece.text (layout : Layout) : TextPiece → String
  | space => " "
  | line depth => "\n" ++ layout.indent depth
  | mark m => m.text
  | array => TypeWord.text .array
  | atom a => a.text

def textOf (layout : Layout) : List TextPiece → String
  | [] => ""
  | p :: ps => p.text layout ++ textOf layout ps

def TextPiece.atom? : TextPiece → Option Atom
  | atom a => some a
  | _ => none

def atomsOf (ps : List TextPiece) : List Atom := ps.filterMap TextPiece.atom?

def joinPieces (separator : List TextPiece) : List (List TextPiece) → List TextPiece
  | [] => []
  | [ps] => ps
  | ps :: pss => ps ++ separator ++ joinPieces separator pss

def commaPieces (items : List (List TextPiece)) : List TextPiece := joinPieces [.mark .comma, .space] items

def bracedPieces (items : List (List TextPiece)) : List TextPiece :=
  if items.isEmpty then [.mark .braceOpen, .mark .braceClose]
  else .mark .braceOpen :: .space :: commaPieces items ++ [.space, .mark .braceClose]

mutual

def TypeExpr.pieces : TypeExpr → List TextPiece
  | .named name _ => [.atom (.typeName name)]
  | .array element _ => .array :: .mark .less :: element.pieces ++ [.mark .greater]
  | .function params result _ =>
    .mark .parenOpen :: commaPieces (fieldPieces params) ++
      .mark .parenClose :: .space :: .mark .arrow :: .space :: result.pieces
  | .object fields _ => bracedPieces (fieldPieces fields)
  | .union members _ => joinPieces [.space, .mark .pipe, .space] (typePieces members)
termination_by structural t => t

def typePieces : List TypeExpr → List (List TextPiece)
  | [] => []
  | t :: ts => t.pieces :: typePieces ts
termination_by structural ts => ts

def fieldPieces : List Field → List (List TextPiece)
  | [] => []
  | ⟨name, type, _⟩ :: fs =>
    (.atom (.name name) :: .mark .colon :: .space :: type.pieces) :: fieldPieces fs
termination_by structural fs => fs

end

def annotatedPieces : Option TypeExpr → List TextPiece
  | some t => .mark .colon :: .space :: t.pieces
  | none => []

def Param.pieces (p : Param) : List TextPiece := .atom (.name p.name) :: annotatedPieces p.type

def operatorMark : BinaryOp → Mark
  | .mul => .star
  | _ => .plus

def groupedPieces (own place : Strength) (ps : List TextPiece) : List TextPiece :=
  if own.level < place.level then .mark .parenOpen :: ps ++ [.mark .parenClose] else ps

mutual

def Expr.pieces : Expr → Nat → Strength → List TextPiece
  | .string _ value, _, _ => [.atom (.string value)]
  | .number _ value, _, _ => [.atom (.number value)]
  | .boolean _ value, _, _ => [.atom (.boolean value)]
  | .ident _ name, _, _ => [.atom (.name name)]
  | .binary _ op left right, depth, place =>
    groupedPieces .binary place
      (left.pieces depth .binary ++
        .space :: .mark (operatorMark op) :: .space :: right.pieces depth .operand)
  | .conditional _ test consequent alternate, depth, place =>
    groupedPieces .conditional place
      (test.pieces depth .binary ++
        .space :: .mark .question :: .space :: consequent.pieces depth .conditional ++
          .space :: .mark .colon :: .space :: alternate.pieces depth .conditional)
  | .call _ callee args, depth, _ =>
    callee.pieces depth .operand ++
      .mark .parenOpen :: commaPieces (exprPieces args depth) ++ [.mark .parenClose]
  | .arrow _ params result body, depth, _ =>
    .mark .parenOpen :: commaPieces (params.map Param.pieces) ++
      .mark .parenClose :: annotatedPieces result ++
        .space :: .mark .arrow :: .space :: body.pieces depth
  | .array _ elements, depth, _ =>
    .mark .bracketOpen :: commaPieces (exprPieces elements depth) ++ [.mark .bracketClose]
  | .object _ properties, depth, _ => bracedPieces (propertyPieces properties depth)
  | .error _, _, _ => []
termination_by structural e => e

def exprPieces : List Expr → Nat → List (List TextPiece)
  | [], _ => []
  | e :: es, depth => e.pieces depth .any :: exprPieces es depth
termination_by structural es => es

def propertyPieces : List Property → Nat → List (List TextPiece)
  | [], _ => []
  | ⟨_, key, value⟩ :: ps, depth =>
    (.atom (.key key) :: .mark .colon :: .space :: value.pieces depth .any) :: propertyPieces ps depth
termination_by structural ps => ps

def Stmt.pieces : Stmt → Nat → List TextPiece
  | .const _ name type value, depth =>
    .atom (.keyword .const) :: .space :: .atom (.name name.name) :: annotatedPieces type ++
      .space :: .mark .equals :: .space :: value.pieces depth .any ++ [.mark .semicolon]
  | .ret _ (some argument), depth =>
    .atom (.keyword .ret) :: .space :: argument.pieces depth .any ++ [.mark .semicolon]
  | .ret _ none, _ => [.atom (.keyword .ret), .mark .semicolon]
termination_by structural s => s

def Block.pieces : Block → Nat → List TextPiece
  | ⟨_, statements⟩, depth =>
    match statements with
    | [] => [.mark .braceOpen, .mark .braceClose]
    | s :: ss =>
      .mark .braceOpen :: linePieces (s :: ss) (depth + 1) ++ [.line depth, .mark .braceClose]
termination_by structural b => b

def linePieces : List Stmt → Nat → List TextPiece
  | [], _ => []
  | s :: ss, depth => .line depth :: s.pieces depth ++ linePieces ss depth
termination_by structural ss => ss

end

def Program.pieces (p : Program) : List TextPiece := (linePieces p.statements 0).tail

mutual

def TypeExpr.atoms : TypeExpr → List Atom
  | .named name _ => [.typeName name]
  | .array element _ => element.atoms
  | .function params result _ => fieldAtoms params ++ result.atoms
  | .object fields _ => fieldAtoms fields
  | .union members _ => typeAtoms members
termination_by structural t => t

def typeAtoms : List TypeExpr → List Atom
  | [] => []
  | t :: ts => t.atoms ++ typeAtoms ts
termination_by structural ts => ts

def fieldAtoms : List Field → List Atom
  | [] => []
  | ⟨name, type, _⟩ :: fs => .name name :: type.atoms ++ fieldAtoms fs
termination_by structural fs => fs

end

def annotatedAtoms : Option TypeExpr → List Atom
  | some t => t.atoms
  | none => []

def Param.atoms (p : Param) : List Atom := .name p.name :: annotatedAtoms p.type

mutual

def Expr.atoms : Expr → List Atom
  | .string _ value => [.string value]
  | .number _ value => [.number value]
  | .boolean _ value => [.boolean value]
  | .ident _ name => [.name name]
  | .binary _ _ left right => left.atoms ++ right.atoms
  | .conditional _ test consequent alternate => test.atoms ++ consequent.atoms ++ alternate.atoms
  | .call _ callee args => callee.atoms ++ exprAtoms args
  | .arrow _ params result body => params.flatMap Param.atoms ++ annotatedAtoms result ++ body.atoms
  | .array _ elements => exprAtoms elements
  | .object _ properties => propertyAtoms properties
  | .error _ => []
termination_by structural e => e

def exprAtoms : List Expr → List Atom
  | [] => []
  | e :: es => e.atoms ++ exprAtoms es
termination_by structural es => es

def propertyAtoms : List Property → List Atom
  | [] => []
  | ⟨_, key, value⟩ :: ps => .key key :: value.atoms ++ propertyAtoms ps
termination_by structural ps => ps

def Stmt.atoms : Stmt → List Atom
  | .const _ name type value =>
    .keyword .const :: .name name.name :: annotatedAtoms type ++ value.atoms
  | .ret _ (some argument) => .keyword .ret :: argument.atoms
  | .ret _ none => [.keyword .ret]
termination_by structural s => s

def Block.atoms : Block → List Atom
  | ⟨_, statements⟩ => stmtAtoms statements
termination_by structural b => b

def stmtAtoms : List Stmt → List Atom
  | [] => []
  | s :: ss => s.atoms ++ stmtAtoms ss
termination_by structural ss => ss

end

def Program.atoms (p : Program) : List Atom := stmtAtoms p.statements

end ArrowCheck
