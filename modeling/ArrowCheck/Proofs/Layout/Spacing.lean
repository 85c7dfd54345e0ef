import ArrowCheck.Proofs.Layout.Text

namespace ArrowCheck

def Unbracketed : List TextPiece → Prop
  | [] => True
  | .space :: ps | .line _ :: ps => Unbracketed ps
  | p :: _ => p ≠ .mark .less

def Apart : List TextPiece → Prop
  | .atom _ :: _ | .array :: _ => False
  | _ => True

def Loose (ps : List TextPiece) : Prop := Apart ps ∧ Unbracketed ps

def TextPiece.Before (p : TextPiece) (next : List TextPiece) : Prop :=
  match p with
  | .atom (.keyword _) => Apart next
  | .atom (.key _) => next.head? = some (.mark .colon)
  | .atom _ => Loose next
  | .array => next.head? = some (.mark .less)
  | .mark m => m = .equals → next.head? = some .space
  | _ => True

/-- Each piece may stand before the ones behind it, the last one before `next`. -/
def Spaced : List TextPiece → (next : List TextPiece) → Prop
  | [], _ => True
  | p :: ps, next => p.Before (ps ++ next) ∧ Spaced ps next

def Spaceable (ps : List TextPiece) : Prop := ∀ next, Loose next → Spaced ps next

variable {ps qs separator next : List TextPiece}

section

attribute [local simp] Loose Apart Unbracketed

@[simp] theorem apart_space : Apart (.space :: ps) := trivial

@[simp] theorem apart_mark {m : Mark} : Apart (.mark m :: ps) := trivial

@[simp] theorem loose_nil : Loose [] := ⟨trivial, trivial⟩

@[simp] theorem loose_mark {m : Mark} : Loose (.mark m :: ps) ↔ m ≠ .less := by simp

@[simp] theorem loose_space : Loose (.space :: ps) ↔ Unbracketed ps := by simp

@[simp] theorem loose_line {depth : Nat} : Loose (.line depth :: ps) ↔ Unbracketed ps := by simp

@[simp] theorem unbracketed_mark {m : Mark} : Unbracketed (.mark m :: ps) ↔ m ≠ .less := by simp

@[simp] theorem unbracketed_atom {a : Atom} : Unbracketed (.atom a :: ps) := by simp

end

@[simp] theorem spaced_nil : Spaced [] next := trivial

@[simp] theorem spaced_cons {p : TextPiece} :
    Spaced (p :: ps) next ↔ p.Before (ps ++ next) ∧ Spaced ps next := Iff.rfl

@[simp] theorem spaced_append :
    Spaced (ps ++ qs) next ↔ Spaced ps (qs ++ next) ∧ Spaced qs next := by
  induction ps with
  | nil => simp
  | cons p ps ih => simp [ih, and_assoc]

theorem TextPiece.before_atom {a : Atom} (hkey : ∀ key, a ≠ .key key) (h : Loose next) :
    (TextPiece.atom a).Before next := by
  cases a with
  | key key => exact (hkey key rfl).elim
  | keyword _ => exact h.1
  | _ => exact h

theorem TextPiece.Before.apart {a : Atom} (h : (TextPiece.atom a).Before next) : Apart next := by
  cases a with
  | key key =>
    cases next with
    | nil => trivial
    | cons p next =>
      cases h
      trivial
  | keyword _ => exact h
  | _ => exact h.1

theorem spaceable_atom {a : Atom} (hkey : ∀ key, a ≠ .key key) : Spaceable [.atom a] :=
  fun _ h => ⟨TextPiece.before_atom hkey h, trivial⟩

theorem Spaceable.before_mark (h : Spaceable ps) {m : Mark} (hm : m ≠ .less) :
    Spaced ps (.mark m :: next) :=
  h _ (loose_mark.mpr hm)

theorem Spaceable.before_space (h : Spaceable ps) {m : Mark} (hm : m ≠ .less) :
    Spaced ps (.space :: .mark m :: next) :=
  h _ (loose_space.mpr (unbracketed_mark.mpr hm))

theorem spaceable_join {pss : List (List TextPiece)} (h : ∀ ps ∈ pss, Spaceable ps)
    (hloose : ∀ next, Loose (separator ++ next)) (hspaced : ∀ next, Spaced separator next) :
    Spaceable (joinPieces separator pss) := by
  intro next hnext
  induction pss with
  | nil => trivial
  | cons ps pss ih =>
    cases pss with
    | nil => exact h ps (by simp) next hnext
    | cons qs pss =>
      have hrest := ih fun rs hrs => h rs (by simp [hrs])
      rw [joinPieces, spaced_append, spaced_append]
      · exact ⟨⟨h ps (by simp) _ (by simpa using hloose _), hspaced _⟩, hrest⟩
      · exact List.cons_ne_nil qs pss

theorem spaceable_comma {pss : List (List TextPiece)} (h : ∀ ps ∈ pss, Spaceable ps) :
    Spaceable (commaPieces pss) :=
  spaceable_join h (by simp) (by simp [TextPiece.Before])

theorem spaceable_braced {pss : List (List TextPiece)} (h : ∀ ps ∈ pss, Spaceable ps) :
    Spaceable (bracedPieces pss) := by
  intro next hnext
  unfold bracedPieces
  split
  · simp [TextPiece.Before]
  · simp [TextPiece.Before, (spaceable_comma h).before_space]

mutual

theorem TypeExpr.spaceable : (t : TypeExpr) → Spaceable t.pieces
  | .named name _ => by
    rw [TypeExpr.pieces]
    exact spaceable_atom (by simp)
  | .array element _ => by
    intro next hnext
    simp [TypeExpr.pieces, TextPiece.Before, element.spaceable.before_mark]
  | .function params result _ => by
    intro next hnext
    have hparams := spaceable_comma (fieldPieces_spaceable params)
    simp [TypeExpr.pieces, TextPiece.Before, hparams.before_mark, result.spaceable next hnext]
  | .object fields _ => by
    rw [TypeExpr.pieces]
    exact spaceable_braced (fieldPieces_spaceable fields)
  | .union members _ => by
    rw [TypeExpr.pieces]
    exact spaceable_join (typePieces_spaceable members) (by simp) (by simp [TextPiece.Before])
termination_by structural t => t

theorem typePieces_spaceable : (ts : List TypeExpr) → ∀ ps ∈ typePieces ts, Spaceable ps
  | [], _, h => by simp [typePieces] at h
  | t :: ts, ps, h => by
    rw [typePieces] at h
    rcases List.mem_cons.mp h with rfl | h
    · exact t.spaceable
    · exact typePieces_spaceable ts ps h
termination_by structural ts => ts

theorem fieldPieces_spaceable : (fs : List Field) → ∀ ps ∈ fieldPieces fs, Spaceable ps
  | [], _, h => by simp [fieldPieces] at h
  | ⟨_, type, _⟩ :: fs, ps, h => by
    rw [fieldPieces] at h
    rcases List.mem_cons.mp h with rfl | h
    · intro next hnext
      simp [TextPiece.Before, type.spaceable next hnext]
    · exact fieldPieces_spaceable fs ps h
termination_by structural fs => fs

end

theorem annotatedPieces_spaceable (type : Option TypeExpr) : Spaceable (annotatedPieces type) := by
  intro next hnext
  cases type with
  | none => trivial
  | some t => simp [annotatedPieces, TextPiece.Before, t.spaceable next hnext]

theorem loose_annotated (type : Option TypeExpr) (h : Loose next) :
    Loose (annotatedPieces type ++ next) := by
  cases type with
  | none => exact h
  | some t => simp [annotatedPieces]

theorem Param.spaceable (p : Param) : Spaceable p.pieces := by
  intro next hnext
  rw [Param.pieces, spaced_cons]
  exact ⟨loose_annotated p.type hnext, annotatedPieces_spaceable p.type next hnext⟩

theorem spaceable_grouped (own place : Strength) (h : Spaceable ps) :
    Spaceable (groupedPieces own place ps) := by
  intro next hnext
  unfold groupedPieces
  split
  · simp [TextPiece.Before, h.before_mark]
  · exact h next hnext

theorem Stmt.unbracketed (s : Stmt) (depth : Nat) : Unbracketed (s.pieces depth ++ next) := by
  rcases s with _ | ⟨_, _ | _⟩ <;> simp [Stmt.pieces]

mutual

theorem Expr.spaceable : (e : Expr) → ∀ depth place, Spaceable (e.pieces depth place)
  | .string .., _, _ | .number .., _, _ | .boolean .., _, _ | .ident .., _, _ => by
    rw [Expr.pieces]
    exact spaceable_atom (by simp)
  | .binary _ op left right, depth, place => by
    rw [Expr.pieces]
    refine spaceable_grouped _ _ fun next hnext => ?_
    have hmark : operatorMark op ≠ .less ∧ operatorMark op ≠ .equals := by cases op <;> decide
    have hleft := left.spaceable depth .binary
    simp [TextPiece.Before, hleft.before_space, hmark, right.spaceable depth .operand next hnext]
  | .conditional _ test consequent alternate, depth, place => by
    rw [Expr.pieces]
    refine spaceable_grouped _ _ fun next hnext => ?_
    have htest := test.spaceable depth .binary
    have hconsequent := consequent.spaceable depth .conditional
    simp [TextPiece.Before, htest.before_space, hconsequent.before_space,
      alternate.spaceable depth .conditional next hnext]
  | .call _ callee args, depth, place => by
    intro next _
    have hcallee := callee.spaceable depth .operand
    have hargs := spaceable_comma (exprPieces_spaceable args depth)
    simp [Expr.pieces, TextPiece.Before, hcallee.before_mark, hargs.before_mark]
  | .arrow _ params result body, depth, place => by
    intro next hnext
    have hparams : Spaceable (commaPieces (params.map Param.pieces)) := by
      refine spaceable_comma fun ps hps => ?_
      obtain ⟨p, -, rfl⟩ := List.mem_map.mp hps
      exact p.spaceable
    have hresult := annotatedPieces_spaceable result
    simp [Expr.pieces, TextPiece.Before, hparams.before_mark, hresult.before_space,
      body.spaceable depth next hnext]
  | .array _ elements, depth, place => by
    intro next _
    have helements := spaceable_comma (exprPieces_spaceable elements depth)
    simp [Expr.pieces, TextPiece.Before, helements.before_mark]
  | .object _ properties, depth, place => by
    rw [Expr.pieces]
    exact spaceable_braced (propertyPieces_spaceable properties depth)
  | .error _, _, _ => by
    rw [Expr.pieces]
    exact fun _ _ => trivial
termination_by structural e => e

theorem exprPieces_spaceable : (es : List Expr) → ∀ depth, ∀ ps ∈ exprPieces es depth, Spaceable ps
  | [], _, _, h => by simp [exprPieces] at h
  | e :: es, depth, ps, h => by
    rw [exprPieces] at h
    rcases List.mem_cons.mp h with rfl | h
    · exact e.spaceable depth .any
    · exact exprPieces_spaceable es depth ps h
termination_by structural es => es

theorem propertyPieces_spaceable : (ps : List Property) → ∀ depth,
    ∀ qs ∈ propertyPieces ps depth, Spaceable qs
  | [], _, _, h => by simp [propertyPieces] at h
  | ⟨_, _, value⟩ :: ps, depth, qs, h => by
    rw [propertyPieces] at h
    rcases List.mem_cons.mp h with rfl | h
    · intro next hnext
      simp [TextPiece.Before, value.spaceable depth .any next hnext]
    · exact propertyPieces_spaceable ps depth qs h
termination_by structural ps => ps

theorem Stmt.spaceable : (s : Stmt) → ∀ depth, Spaceable (s.pieces depth)
  | .const _ name type value, depth => by
    intro next _
    have htype := annotatedPieces_spaceable type
    have hvalue := value.spaceable depth .any
    simp [Stmt.pieces, TextPiece.Before, htype.before_space, hvalue.before_mark, loose_annotated]
  | .ret _ (some argument), depth => by
    intro next _
    have hargument := argument.spaceable depth .any
    simp [Stmt.pieces, TextPiece.Before, hargument.before_mark]
  | .ret _ none, _ => by
    intro next _
    simp [Stmt.pieces, TextPiece.Before]
termination_by structural s => s

theorem Block.spaceable : (b : Block) → ∀ depth, Spaceable (b.pieces depth)
  | ⟨_, statements⟩, depth => by
    intro next _
    have hlines := linePieces_spaced statements (depth + 1)
      (.line depth :: .mark .braceClose :: next) (by simp)
    cases statements with
    | nil => simp [Block.pieces, TextPiece.Before]
    | cons s ss => simp [Block.pieces, TextPiece.Before, hlines]
termination_by structural b => b

theorem linePieces_spaced : (ss : List Stmt) → ∀ depth, Spaceable (linePieces ss depth)
  | [], _ => fun _ _ => trivial
  | s :: ss, depth => by
    intro next hnext
    have hloose : Loose (linePieces ss depth ++ next) := by
      cases ss with
      | nil => exact hnext
      | cons s' ss => simp [linePieces, s'.unbracketed depth]
    simp [linePieces, TextPiece.Before, s.spaceable depth _ hloose, linePieces_spaced ss depth next hnext]
termination_by structural ss => ss

end

theorem Program.spaced (p : Program) : Spaced p.pieces [] := by
  have h := linePieces_spaced p.statements 0 [] loose_nil
  rw [Program.pieces]
  cases hpieces : linePieces p.statements 0 with
  | nil => trivial
  | cons q qs =>
    rw [hpieces] at h
    exact h.2

end ArrowCheck
