import ArrowCheck.Proofs.Layout.Pieces

namespace ArrowCheck

def TypeExpr.IsUnion : TypeExpr → Prop
  | .union .. => True
  | _ => False

mutual

/-- Unions are flat, have at least two members, and a function type only as the last one. -/
def TypeExpr.Formed : TypeExpr → Prop
  | .named .. => True
  | .array element _ => element.Formed
  | .function params result _ => fieldsFormed params ∧ result.Formed
  | .object fields _ => fieldsFormed fields
  | .union members _ => 2 ≤ members.length ∧ membersFormed members
termination_by structural t => t

def membersFormed : List TypeExpr → Prop
  | [] => True
  | t :: ts => t.Formed ∧ ¬ t.IsUnion ∧ (ts ≠ [] → ¬ t.IsFunction) ∧ membersFormed ts
termination_by structural ts => ts

def fieldsFormed : List Field → Prop
  | [] => True
  | ⟨_, type, _⟩ :: fs => type.Formed ∧ fieldsFormed fs
termination_by structural fs => fs

end

def Param.Formed (p : Param) : Prop := ∀ t ∈ p.type, t.Formed

mutual

def Expr.Formed : Expr → Prop
  | .string .. | .number .. | .boolean .. | .ident .. => True
  | .binary _ op left right => (op = .add ∨ op = .mul) ∧ left.Formed ∧ right.Formed
  | .conditional _ test consequent alternate => test.Formed ∧ consequent.Formed ∧ alternate.Formed
  | .call _ callee args => (∃ node name, callee = .ident node name) ∧ exprsFormed args
  | .arrow _ params result body =>
    (∀ p ∈ params, p.Formed) ∧ (∀ t ∈ result, t.Formed) ∧ body.Formed
  | .array _ elements => exprsFormed elements
  | .object _ properties => propertiesFormed properties
  | .error _ => False
termination_by structural e => e

def exprsFormed : List Expr → Prop
  | [] => True
  | e :: es => e.Formed ∧ exprsFormed es
termination_by structural es => es

def propertiesFormed : List Property → Prop
  | [] => True
  | ⟨_, _, value⟩ :: ps => value.Formed ∧ propertiesFormed ps
termination_by structural ps => ps

def Stmt.Formed : Stmt → Prop
  | .const _ _ type value => (∀ t ∈ type, t.Formed) ∧ value.Formed
  | .ret _ (some argument) => argument.Formed
  | .ret _ none => True
termination_by structural s => s

def Block.Formed : Block → Prop
  | ⟨_, statements⟩ => stmtsFormed statements
termination_by structural b => b

def stmtsFormed : List Stmt → Prop
  | [] => True
  | s :: ss => s.Formed ∧ stmtsFormed ss
termination_by structural ss => ss

end

section Text

variable (layout : Layout)

@[simp] theorem textOf_nil : textOf layout [] = "" := rfl

@[simp] theorem textOf_cons (p : TextPiece) (ps : List TextPiece) :
    textOf layout (p :: ps) = p.text layout ++ textOf layout ps := rfl

@[simp] theorem textOf_append (ps qs : List TextPiece) :
    textOf layout (ps ++ qs) = textOf layout ps ++ textOf layout qs := by
  induction ps with
  | nil => simp
  | cons p ps ih => simp [ih, String.append_assoc]

theorem textOf_join (separator : List TextPiece) (pss : List (List TextPiece)) :
    textOf layout (joinPieces separator pss) =
      joinWith (textOf layout separator) (pss.map (textOf layout)) := by
  induction pss with
  | nil => rfl
  | cons ps pss ih =>
    cases pss with
    | nil => rfl
    | cons qs pss =>
      rw [joinPieces, textOf_append, textOf_append, ih]
      · rfl
      · simp

theorem textOf_comma (pss : List (List TextPiece)) :
    textOf layout (commaPieces pss) = joinWith ", " (pss.map (textOf layout)) := textOf_join layout _ pss

theorem textOf_braced (pss : List (List TextPiece)) :
    textOf layout (bracedPieces pss) = braced (pss.map (textOf layout)) := by
  unfold bracedPieces braced
  cases pss with
  | nil => rfl
  | cons ps pss =>
    have hopen : "\x7b " = "\x7b" ++ " " := rfl
    have hclose : " \x7d" = " " ++ "\x7d" := rfl
    rw [if_neg (by simp), if_neg (by simp), hopen, hclose]
    simp [-String.reduceAppend, textOf_comma, TextPiece.text, Mark.text, String.append_assoc]

mutual

theorem TypeExpr.text_eq : (t : TypeExpr) → t.text = textOf layout t.pieces
  | .named name _ => by simp [TypeExpr.text, TypeExpr.pieces, TextPiece.text, Atom.text]
  | .array element _ => by
    have hopen : "Array<" = "Array" ++ "<" := rfl
    rw [TypeExpr.text, TypeExpr.pieces, element.text_eq, hopen]
    simp [-String.reduceAppend, TextPiece.text, Mark.text, TypeWord.text, String.append_assoc]
  | .function params result _ => by
    have harrow : ") => " = ")" ++ (" " ++ ("=>" ++ " ")) := rfl
    rw [TypeExpr.text, TypeExpr.pieces, fieldTexts_eq, result.text_eq, harrow]
    simp [-String.reduceAppend, TextPiece.text, Mark.text, textOf_comma, String.append_assoc]
  | .object fields _ => by
    rw [TypeExpr.text, TypeExpr.pieces, fieldTexts_eq, textOf_braced]
  | .union members _ => by
    rw [TypeExpr.text, TypeExpr.pieces, typeTexts_eq, textOf_join]
    rfl
termination_by structural t => t

theorem typeTexts_eq : (ts : List TypeExpr) → typeTexts ts = (typePieces ts).map (textOf layout)
  | [] => rfl
  | t :: ts => by rw [typeTexts, typePieces, List.map_cons, t.text_eq, typeTexts_eq]
termination_by structural ts => ts

theorem fieldTexts_eq : (fs : List Field) → fieldTexts fs = (fieldPieces fs).map (textOf layout)
  | [] => rfl
  | ⟨name, type, _⟩ :: fs => by
    have hcolon : ": " = ":" ++ " " := rfl
    rw [fieldTexts, fieldPieces, List.map_cons, type.text_eq, fieldTexts_eq, hcolon]
    simp [-String.reduceAppend, TextPiece.text, Mark.text, Atom.text, String.append_assoc]
termination_by structural fs => fs

end

theorem typeSuffix_eq (type : Option TypeExpr) :
    typeSuffix type = textOf layout (annotatedPieces type) := by
  cases type with
  | none => rfl
  | some t =>
    have hcolon : ": " = ":" ++ " " := rfl
    rw [typeSuffix, annotatedPieces, t.text_eq layout, hcolon]
    simp [-String.reduceAppend, TextPiece.text, Mark.text, String.append_assoc]

theorem paramText_eq (p : Param) : paramText p = textOf layout p.pieces := by
  rw [paramText, typeSuffix_eq layout, Param.pieces]
  simp [-String.reduceAppend, TextPiece.text, Atom.text]

theorem grouped_eq (own place : Strength) (ps : List TextPiece) :
    grouped own place (textOf layout ps) = textOf layout (groupedPieces own place ps) := by
  unfold grouped groupedPieces
  split
  · simp [-String.reduceAppend, TextPiece.text, Mark.text, String.append_assoc]
  · rfl

theorem symbol_eq {op : BinaryOp} (h : op = .add ∨ op = .mul) :
    op.symbol = (operatorMark op).text := by
  rcases h with rfl | rfl <;> rfl

mutual

theorem Expr.text_eq : (e : Expr) → e.Formed → ∀ depth place,
    e.text layout depth place = textOf layout (e.pieces depth place)
  | .string _ value, _, _, _ => by simp [Expr.text, Expr.pieces, TextPiece.text, Atom.text]
  | .number _ value, _, _, _ => by simp [Expr.text, Expr.pieces, TextPiece.text, Atom.text]
  | .boolean _ value, _, _, _ => by simp [Expr.text, Expr.pieces, TextPiece.text, Atom.text]
  | .ident _ name, _, _, _ => by simp [Expr.text, Expr.pieces, TextPiece.text, Atom.text]
  | .binary _ op left right, h, depth, place => by
    rw [Expr.Formed] at h
    obtain ⟨hop, hleft, hright⟩ := h
    rw [Expr.text, Expr.pieces, left.text_eq hleft, right.text_eq hright, symbol_eq hop, ← grouped_eq]
    simp [-String.reduceAppend, TextPiece.text, String.append_assoc]
  | .conditional _ test consequent alternate, h, depth, place => by
    rw [Expr.Formed] at h
    obtain ⟨htest, hconsequent, halternate⟩ := h
    have hquestion : " ? " = " " ++ ("?" ++ " ") := rfl
    have hcolon : " : " = " " ++ (":" ++ " ") := rfl
    rw [Expr.text, Expr.pieces, test.text_eq htest, consequent.text_eq hconsequent,
      alternate.text_eq halternate, ← grouped_eq, hquestion, hcolon]
    simp [-String.reduceAppend, TextPiece.text, Mark.text, String.append_assoc]
  | .call _ callee args, h, depth, place => by
    rw [Expr.Formed] at h
    obtain ⟨⟨node, name, rfl⟩, hargs⟩ := h
    rw [Expr.text, Expr.pieces, exprTexts_eq args hargs, Expr.text, Expr.pieces]
    simp [-String.reduceAppend, TextPiece.text, Mark.text, Atom.text, textOf_comma, String.append_assoc]
  | .arrow _ params result body, h, depth, place => by
    rw [Expr.Formed] at h
    obtain ⟨-, -, hbody⟩ := h
    have harrow : " => " = " " ++ ("=>" ++ " ") := rfl
    have hparams : params.map paramText = (params.map Param.pieces).map (textOf layout) := by
      simp [paramText_eq layout]
    rw [Expr.text, Expr.pieces, body.text_eq hbody, typeSuffix_eq layout, harrow, hparams]
    simp [-String.reduceAppend, TextPiece.text, Mark.text, textOf_comma, String.append_assoc]
  | .array _ elements, h, depth, place => by
    rw [Expr.Formed] at h
    rw [Expr.text, Expr.pieces, exprTexts_eq elements h]
    simp [-String.reduceAppend, TextPiece.text, Mark.text, textOf_comma, String.append_assoc]
  | .object _ properties, h, depth, place => by
    rw [Expr.Formed] at h
    rw [Expr.text, Expr.pieces, propertyTexts_eq properties h, textOf_braced]
  | .error _, h, _, _ => by simp [Expr.Formed] at h
termination_by structural e => e

theorem exprTexts_eq : (es : List Expr) → exprsFormed es → ∀ depth,
    exprTexts layout es depth = (exprPieces es depth).map (textOf layout)
  | [], _, _ => rfl
  | e :: es, h, depth => by
    rw [exprsFormed] at h
    rw [exprTexts, exprPieces, e.text_eq h.1, exprTexts_eq es h.2, List.map_cons]
termination_by structural es => es

theorem propertyTexts_eq : (ps : List Property) → propertiesFormed ps → ∀ depth,
    propertyTexts layout ps depth = (propertyPieces ps depth).map (textOf layout)
  | [], _, _ => rfl
  | ⟨_, key, value⟩ :: ps, h, depth => by
    rw [propertiesFormed] at h
    have hcolon : ": " = ":" ++ " " := rfl
    rw [propertyTexts, propertyPieces, value.text_eq h.1, propertyTexts_eq ps h.2, List.map_cons,
      hcolon]
    simp [-String.reduceAppend, TextPiece.text, Mark.text, Atom.text, String.append_assoc]
termination_by structural ps => ps

theorem Stmt.text_eq : (s : Stmt) → s.Formed → ∀ depth,
    s.text layout depth = textOf layout (s.pieces depth)
  | .const _ name type value, h, depth => by
    rw [Stmt.Formed] at h
    have hconst : "const " = "const" ++ " " := rfl
    have hequals : " = " = " " ++ ("=" ++ " ") := rfl
    rw [Stmt.text, Stmt.pieces, value.text_eq h.2, typeSuffix_eq layout, hconst, hequals]
    simp [-String.reduceAppend, TextPiece.text, Mark.text, Atom.text, Keyword.text, String.append_assoc]
  | .ret _ (some argument), h, depth => by
    rw [Stmt.Formed] at h
    have hreturn : "return " = "return" ++ " " := rfl
    rw [Stmt.text, Stmt.pieces, argument.text_eq h, hreturn]
    simp [-String.reduceAppend, TextPiece.text, Mark.text, Atom.text, Keyword.text, String.append_assoc]
  | .ret _ none, _, _ => by
    rw [Stmt.text, Stmt.pieces]
    rfl
termination_by structural s => s

theorem Block.text_eq : (b : Block) → b.Formed → ∀ depth,
    b.text layout depth = textOf layout (b.pieces depth)
  | ⟨_, statements⟩, h, depth => by
    rw [Block.Formed] at h
    cases statements with
    | nil =>
      rw [Block.text, Block.pieces]
      rfl
    | cons s ss =>
      rw [Block.text, Block.pieces, lineTexts_eq (s :: ss) h]
      simp [-String.reduceAppend, TextPiece.text, Mark.text, String.append_assoc]
termination_by structural b => b

theorem lineTexts_eq : (ss : List Stmt) → stmtsFormed ss → ∀ depth,
    lineTexts layout ss depth = textOf layout (linePieces ss depth)
  | [], _, _ => rfl
  | s :: ss, h, depth => by
    rw [stmtsFormed] at h
    rw [lineTexts, linePieces, s.text_eq h.1, lineTexts_eq ss h.2]
    simp [-String.reduceAppend, TextPiece.text, String.append_assoc]
termination_by structural ss => ss

end

theorem Program.text_eq (p : Program) (h : stmtsFormed p.statements) :
    p.text layout = textOf layout p.pieces := by
  obtain ⟨statements, span⟩ := p
  have hline : TextPiece.text layout (.line 0) = "\n" := by
    rw [TextPiece.text, Layout.indent]
    split <;> simp
  have hlines : ∀ ss : List Stmt, ss ≠ [] → stmtsFormed ss →
      "\n" ++ joinWith "\n" (ss.map fun s => s.text layout 0) = textOf layout (linePieces ss 0) := by
    intro ss hne hss
    induction ss with
    | nil => exact absurd rfl hne
    | cons s ss ih =>
      rw [stmtsFormed] at hss
      cases ss with
      | nil => simp [joinWith, linePieces, hline, s.text_eq layout hss.1]
      | cons s' ss =>
        rw [linePieces, List.cons_append, textOf_cons, textOf_append, ← ih (by simp) hss.2, hline,
          ← s.text_eq layout hss.1]
        simp [joinWith, String.append_assoc]
  cases statements with
  | nil => rfl
  | cons s ss =>
    have h := hlines (s :: ss) (by simp) h
    rw [linePieces, List.cons_append, textOf_cons, hline, String.append_right_inj] at h
    exact h

end Text

section Bare

mutual

theorem TypeExpr.pieces_bare : (t : TypeExpr) → t.bare.pieces = t.pieces
  | .named .. => by rw [TypeExpr.bare, TypeExpr.pieces, TypeExpr.pieces]
  | .array element _ => by rw [TypeExpr.bare, TypeExpr.pieces, TypeExpr.pieces, element.pieces_bare]
  | .function params result _ => by
    rw [TypeExpr.bare, TypeExpr.pieces, TypeExpr.pieces, fieldPieces_bare, result.pieces_bare]
  | .object fields _ => by
    rw [TypeExpr.bare, TypeExpr.pieces, TypeExpr.pieces, fieldPieces_bare]
  | .union members _ => by
    rw [TypeExpr.bare, TypeExpr.pieces, TypeExpr.pieces, typePieces_bare]
termination_by structural t => t

theorem typePieces_bare : (ts : List TypeExpr) → typePieces (bareTypes ts) = typePieces ts
  | [] => rfl
  | t :: ts => by rw [bareTypes, typePieces, typePieces, t.pieces_bare, typePieces_bare]
termination_by structural ts => ts

theorem fieldPieces_bare : (fs : List Field) → fieldPieces (bareFields fs) = fieldPieces fs
  | [] => rfl
  | ⟨_, type, _⟩ :: fs => by
    rw [bareFields, fieldPieces, fieldPieces, type.pieces_bare, fieldPieces_bare]
termination_by structural fs => fs

end

theorem annotatedPieces_bare (type : Option TypeExpr) :
    annotatedPieces (type.map TypeExpr.bare) = annotatedPieces type := by
  cases type with
  | none => rfl
  | some t => rw [Option.map_some, annotatedPieces, annotatedPieces, t.pieces_bare]

theorem paramPieces_bare (params : List Param) :
    (params.map Param.bare).map Param.pieces = params.map Param.pieces := by
  rw [List.map_map]
  apply List.map_congr_left
  intro p _
  simp only [Function.comp, Param.bare, Param.pieces, annotatedPieces_bare]

mutual

theorem Expr.pieces_bare : (e : Expr) → ∀ depth place, e.bare.pieces depth place = e.pieces depth place
  | .string .., _, _ | .number .., _, _ | .boolean .., _, _ | .ident .., _, _ | .error _, _, _ => by
    simp only [Expr.bare, Expr.pieces]
  | .binary _ _ left right, _, _ => by
    simp only [Expr.bare, Expr.pieces, left.pieces_bare, right.pieces_bare]
  | .conditional _ test consequent alternate, _, _ => by
    simp only [Expr.bare, Expr.pieces, test.pieces_bare, consequent.pieces_bare, alternate.pieces_bare]
  | .call _ callee args, _, _ => by
    simp only [Expr.bare, Expr.pieces, callee.pieces_bare, exprPieces_bare args]
  | .arrow _ params result body, _, _ => by
    simp only [Expr.bare, Expr.pieces, paramPieces_bare, annotatedPieces_bare, body.pieces_bare]
  | .array _ elements, _, _ => by simp only [Expr.bare, Expr.pieces, exprPieces_bare elements]
  | .object _ properties, _, _ => by
    simp only [Expr.bare, Expr.pieces, propertyPieces_bare properties]
termination_by structural e => e

theorem exprPieces_bare : (es : List Expr) → ∀ depth,
    exprPieces (bareExprs es) depth = exprPieces es depth
  | [], _ => rfl
  | e :: es, _ => by simp only [bareExprs, exprPieces, e.pieces_bare, exprPieces_bare es]
termination_by structural es => es

theorem propertyPieces_bare : (ps : List Property) → ∀ depth,
    propertyPieces (bareProperties ps) depth = propertyPieces ps depth
  | [], _ => rfl
  | ⟨_, _, value⟩ :: ps, _ => by
    simp only [bareProperties, propertyPieces, value.pieces_bare, propertyPieces_bare ps]
termination_by structural ps => ps

theorem Stmt.pieces_bare : (s : Stmt) → ∀ depth, s.bare.pieces depth = s.pieces depth
  | .const _ _ type value, _ => by
    simp only [Stmt.bare, Stmt.pieces, annotatedPieces_bare, value.pieces_bare]
  | .ret _ (some argument), _ => by simp only [Stmt.bare, Stmt.pieces, argument.pieces_bare]
  | .ret _ none, _ => by simp only [Stmt.bare, Stmt.pieces]
termination_by structural s => s

theorem Block.pieces_bare : (b : Block) → ∀ depth, b.bare.pieces depth = b.pieces depth
  | ⟨_, statements⟩, depth => by
    have hlines := linePieces_bare statements (depth + 1)
    rw [Block.bare]
    cases statements with
    | nil => rw [bareStmts, Block.pieces, Block.pieces]
    | cons s ss =>
      rw [bareStmts] at hlines ⊢
      rw [Block.pieces, Block.pieces, hlines]
termination_by structural b => b

theorem linePieces_bare : (ss : List Stmt) → ∀ depth,
    linePieces (bareStmts ss) depth = linePieces ss depth
  | [], _ => rfl
  | s :: ss, _ => by simp only [bareStmts, linePieces, s.pieces_bare, linePieces_bare ss]
termination_by structural ss => ss

end

theorem Program.Same.pieces_eq {p q : Program} (h : p.Same q) : p.pieces = q.pieces := by
  rw [Program.pieces, Program.pieces, ← linePieces_bare, ← linePieces_bare q.statements, h]

end Bare

section Atoms

variable {ps qs : List TextPiece}

@[simp] theorem atomsOf_nil : atomsOf [] = [] := rfl

@[simp] theorem atomsOf_space : atomsOf (.space :: ps) = atomsOf ps := rfl

@[simp] theorem atomsOf_line (depth : Nat) : atomsOf (.line depth :: ps) = atomsOf ps := rfl

@[simp] theorem atomsOf_mark (m : Mark) : atomsOf (.mark m :: ps) = atomsOf ps := rfl

@[simp] theorem atomsOf_array : atomsOf (.array :: ps) = atomsOf ps := rfl

@[simp] theorem atomsOf_atom (a : Atom) : atomsOf (.atom a :: ps) = a :: atomsOf ps := rfl

@[simp] theorem atomsOf_append : atomsOf (ps ++ qs) = atomsOf ps ++ atomsOf qs :=
  List.filterMap_append

theorem atomsOf_join {separator : List TextPiece} (h : atomsOf separator = []) (pss : List (List TextPiece)) :
    atomsOf (joinPieces separator pss) = pss.flatMap atomsOf := by
  induction pss with
  | nil => rfl
  | cons ps pss ih =>
    cases pss with
    | nil => simp [joinPieces]
    | cons qs pss =>
      rw [joinPieces, atomsOf_append, atomsOf_append, h, List.append_nil, ih, List.flatMap_cons]
      · simp
      · exact List.cons_ne_nil qs pss

theorem atomsOf_comma (pss : List (List TextPiece)) : atomsOf (commaPieces pss) = pss.flatMap atomsOf :=
  atomsOf_join rfl pss

theorem atomsOf_braced (pss : List (List TextPiece)) :
    atomsOf (bracedPieces pss) = pss.flatMap atomsOf := by
  unfold bracedPieces
  cases pss with
  | nil => rfl
  | cons ps pss => simp [atomsOf_comma]

theorem atomsOf_grouped (own place : Strength) : atomsOf (groupedPieces own place ps) = atomsOf ps := by
  unfold groupedPieces
  split <;> simp

mutual

theorem TypeExpr.atomsOf_pieces : (t : TypeExpr) → atomsOf t.pieces = t.atoms
  | .named .. => by simp [TypeExpr.pieces, TypeExpr.atoms]
  | .array element _ => by simp [TypeExpr.pieces, TypeExpr.atoms, element.atomsOf_pieces]
  | .function params result _ => by
    simp [TypeExpr.pieces, TypeExpr.atoms, result.atomsOf_pieces, atomsOf_comma,
      atomsOf_fieldPieces params]
  | .object fields _ => by
    rw [TypeExpr.pieces, TypeExpr.atoms, atomsOf_braced, atomsOf_fieldPieces fields]
  | .union members _ => by
    rw [TypeExpr.pieces, TypeExpr.atoms, atomsOf_join rfl, atomsOf_typePieces members]
termination_by structural t => t

theorem atomsOf_typePieces : (ts : List TypeExpr) → (typePieces ts).flatMap atomsOf = typeAtoms ts
  | [] => rfl
  | t :: ts => by
    rw [typePieces, typeAtoms, List.flatMap_cons, t.atomsOf_pieces, atomsOf_typePieces ts]
termination_by structural ts => ts

theorem atomsOf_fieldPieces : (fs : List Field) → (fieldPieces fs).flatMap atomsOf = fieldAtoms fs
  | [] => rfl
  | ⟨_, type, _⟩ :: fs => by
    simp [fieldPieces, fieldAtoms, type.atomsOf_pieces, atomsOf_fieldPieces fs]
termination_by structural fs => fs

end

theorem atomsOf_annotated (type : Option TypeExpr) :
    atomsOf (annotatedPieces type) = annotatedAtoms type := by
  cases type with
  | none => rfl
  | some t => simp [annotatedPieces, annotatedAtoms, t.atomsOf_pieces]

theorem atomsOf_params (params : List Param) :
    (params.map Param.pieces).flatMap atomsOf = params.flatMap Param.atoms := by
  rw [List.flatMap_map]
  congr 1
  funext p
  simp [Param.pieces, Param.atoms, atomsOf_annotated]

mutual

theorem Expr.atomsOf_pieces : (e : Expr) → ∀ depth place, atomsOf (e.pieces depth place) = e.atoms
  | .string .., _, _ | .number .., _, _ | .boolean .., _, _ | .ident .., _, _ | .error _, _, _ => by
    simp [Expr.pieces, Expr.atoms]
  | .binary _ _ left right, _, _ => by
    simp [Expr.pieces, Expr.atoms, atomsOf_grouped, left.atomsOf_pieces, right.atomsOf_pieces]
  | .conditional _ test consequent alternate, _, _ => by
    simp [Expr.pieces, Expr.atoms, atomsOf_grouped, test.atomsOf_pieces, consequent.atomsOf_pieces,
      alternate.atomsOf_pieces]
  | .call _ callee args, _, _ => by
    simp [Expr.pieces, Expr.atoms, callee.atomsOf_pieces, atomsOf_comma, atomsOf_exprPieces args]
  | .arrow _ params result body, _, _ => by
    simp [Expr.pieces, Expr.atoms, atomsOf_comma, atomsOf_params, atomsOf_annotated,
      body.atomsOf_pieces]
  | .array _ elements, _, _ => by
    simp [Expr.pieces, Expr.atoms, atomsOf_comma, atomsOf_exprPieces elements]
  | .object _ properties, _, _ => by
    rw [Expr.pieces, Expr.atoms, atomsOf_braced, atomsOf_propertyPieces properties]
termination_by structural e => e

theorem atomsOf_exprPieces : (es : List Expr) → ∀ depth,
    (exprPieces es depth).flatMap atomsOf = exprAtoms es
  | [], _ => rfl
  | e :: es, _ => by
    rw [exprPieces, exprAtoms, List.flatMap_cons, e.atomsOf_pieces, atomsOf_exprPieces es]
termination_by structural es => es

theorem atomsOf_propertyPieces : (ps : List Property) → ∀ depth,
    (propertyPieces ps depth).flatMap atomsOf = propertyAtoms ps
  | [], _ => rfl
  | ⟨_, _, value⟩ :: ps, _ => by
    simp [propertyPieces, propertyAtoms, value.atomsOf_pieces, atomsOf_propertyPieces ps]
termination_by structural ps => ps

theorem Stmt.atomsOf_pieces : (s : Stmt) → ∀ depth, atomsOf (s.pieces depth) = s.atoms
  | .const _ _ type value, _ => by
    simp [Stmt.pieces, Stmt.atoms, atomsOf_annotated, value.atomsOf_pieces]
  | .ret _ (some argument), _ => by simp [Stmt.pieces, Stmt.atoms, argument.atomsOf_pieces]
  | .ret _ none, _ => by simp [Stmt.pieces, Stmt.atoms]
termination_by structural s => s

theorem Block.atomsOf_pieces : (b : Block) → ∀ depth, atomsOf (b.pieces depth) = b.atoms
  | ⟨_, statements⟩, depth => by
    have hlines := atomsOf_linePieces statements (depth + 1)
    cases statements with
    | nil => simp [Block.pieces, Block.atoms, stmtAtoms]
    | cons s ss => simp [Block.pieces, Block.atoms, hlines]
termination_by structural b => b

theorem atomsOf_linePieces : (ss : List Stmt) → ∀ depth, atomsOf (linePieces ss depth) = stmtAtoms ss
  | [], _ => rfl
  | s :: ss, _ => by simp [linePieces, stmtAtoms, s.atomsOf_pieces, atomsOf_linePieces ss]
termination_by structural ss => ss

end

theorem Program.atomsOf_pieces (p : Program) : atomsOf p.pieces = p.atoms := by
  rw [Program.atoms, Program.pieces, ← atomsOf_linePieces _ 0]
  cases p.statements <;> rfl

end Atoms

end ArrowCheck
