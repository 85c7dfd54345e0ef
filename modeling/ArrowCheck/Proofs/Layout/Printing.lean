import ArrowCheck.Proofs.Layout.Lexing

namespace ArrowCheck

open Lexer

def GoodPieces (ps : List TextPiece) : Prop := ∀ a ∈ atomsOf ps, a.Good

section Lists

variable {ps qs : List TextPiece} {pss : List (List TextPiece)}

@[simp] theorem kindsOf_nil : kindsOf [] = [] := rfl

@[simp] theorem kindsOf_space : kindsOf (.space :: ps) = kindsOf ps := rfl

@[simp] theorem kindsOf_line (depth : Nat) : kindsOf (.line depth :: ps) = kindsOf ps := rfl

@[simp] theorem kindsOf_mark (m : Mark) : kindsOf (.mark m :: ps) = .mark m :: kindsOf ps := rfl

@[simp] theorem kindsOf_array : kindsOf (.array :: ps) = .typeWord .array :: kindsOf ps := rfl

@[simp] theorem kindsOf_atom (a : Atom) : kindsOf (.atom a :: ps) = a.kind :: kindsOf ps := rfl

@[simp] theorem kindsOf_append : kindsOf (ps ++ qs) = kindsOf ps ++ kindsOf qs :=
  List.filterMap_append

theorem kindsOf_braced : kindsOf (bracedPieces pss) =
    .mark .braceOpen :: (kindsOf (commaPieces pss) ++ [.mark .braceClose]) := by
  unfold bracedPieces
  cases pss with
  | nil => rfl
  | cons ps pss => simp

@[simp] theorem goodPieces_nil : GoodPieces [] := by simp [GoodPieces, atomsOf]

@[simp] theorem goodPieces_space : GoodPieces (.space :: ps) ↔ GoodPieces ps := Iff.rfl

@[simp] theorem goodPieces_line (depth : Nat) : GoodPieces (.line depth :: ps) ↔ GoodPieces ps :=
  Iff.rfl

@[simp] theorem goodPieces_mark (m : Mark) : GoodPieces (.mark m :: ps) ↔ GoodPieces ps := Iff.rfl

@[simp] theorem goodPieces_array : GoodPieces (.array :: ps) ↔ GoodPieces ps := Iff.rfl

@[simp] theorem goodPieces_atom (a : Atom) :
    GoodPieces (.atom a :: ps) ↔ a.Good ∧ GoodPieces ps := by
  simp [GoodPieces, atomsOf, TextPiece.atom?]

@[simp] theorem goodPieces_append : GoodPieces (ps ++ qs) ↔ GoodPieces ps ∧ GoodPieces qs := by
  simp only [GoodPieces, atomsOf, List.filterMap_append, List.mem_append]
  exact ⟨fun h => ⟨fun a ha => h a (.inl ha), fun a ha => h a (.inr ha)⟩,
    fun h a ha => ha.elim (h.1 a) (h.2 a)⟩

theorem goodPieces_braced : GoodPieces (bracedPieces pss) ↔ GoodPieces (commaPieces pss) := by
  unfold bracedPieces
  cases pss with
  | nil => simp [commaPieces, joinPieces]
  | cons ps pss => simp

theorem goodPieces_grouped (own place : Strength) :
    GoodPieces (groupedPieces own place ps) ↔ GoodPieces ps := by
  unfold groupedPieces
  split <;> simp

theorem joinPieces_cons {separator : List TextPiece} (h : pss ≠ []) :
    joinPieces separator (ps :: pss) = ps ++ separator ++ joinPieces separator pss := by
  cases pss with
  | nil => exact absurd rfl h
  | cons qs pss => rfl

theorem commaPieces_cons (h : pss ≠ []) :
    commaPieces (ps :: pss) = ps ++ .mark .comma :: .space :: commaPieces pss := by
  rw [commaPieces, joinPieces_cons h, List.append_assoc]
  rfl

end Lists

theorem TypeExpr.alternatives_of_not_union {t : TypeExpr} (h : ¬ t.IsUnion) : t.alternatives = [t] := by
  cases t with
  | union ms span => exact absurd trivial h
  | _ => rfl

theorem kind_typeName {name : String} (h : (Atom.typeName name).Good) :
    (∃ w : TypeWord, name = w.text ∧ (Atom.typeName name).kind = .typeWord w) ∨
      (name ≠ "any" ∧ (Atom.typeName name).kind = .ident name) := by
  rcases h with ⟨w, rfl⟩ | ⟨-, hreserved, hany⟩
  · exact .inl ⟨w, rfl, by cases w <;> rfl⟩
  · exact .inr ⟨hany, wordKind_of_not_reserved hreserved⟩

theorem spelled_of_member {t : TypeExpr} {ts : List TokenKind}
    (h : ∀ us, SpellsType true (.member t) (ts ++ us) us) :
    (∀ us, SpellsType true (.type t) (ts ++ us) us) ∧
      (¬ t.IsUnion → ∀ us, SpellsType true (.member t) (ts ++ us) us) :=
  ⟨fun us => .single (h us), fun _ => h⟩

theorem fieldPieces_cons_ne (f : Field) (fs : List Field) : fieldPieces (f :: fs) ≠ [] := by
  obtain ⟨name, type, span⟩ := f
  simp [fieldPieces]

mutual

theorem TypeExpr.spelled : (t : TypeExpr) → t.Formed → GoodPieces t.pieces →
    (∀ us, SpellsType true (.type t) (kindsOf t.pieces ++ us) us) ∧
      (¬ t.IsUnion → ∀ us, SpellsType true (.member t) (kindsOf t.pieces ++ us) us)
  | .named name span, _, hgood => by
    refine spelled_of_member fun us => ?_
    simp only [TypeExpr.pieces, goodPieces_atom] at hgood
    rw [TypeExpr.pieces, kindsOf_atom]
    rcases kind_typeName hgood.1 with ⟨w, rfl, hkind⟩ | ⟨hany, hkind⟩
    · rw [hkind]
      exact .member .word .noSuffix
    · rw [hkind]
      exact .member (.name hany) .noSuffix
  | .array element span, hformed, hgood => by
    refine spelled_of_member fun us => ?_
    rw [TypeExpr.Formed] at hformed
    simp [TypeExpr.pieces] at hgood ⊢
    exact .member (.arrayOf ((element.spelled hformed hgood).1 _)) .noSuffix
  | .function params result span, hformed, hgood => by
    refine spelled_of_member fun us => ?_
    rw [TypeExpr.Formed] at hformed
    simp [TypeExpr.pieces] at hgood ⊢
    have hparams := fieldsSpelled params hformed.1 hgood.1
    exact .member (.function (hparams _) ((result.spelled hformed.2 hgood.2).1 us)) .noSuffix
  | .object fields span, hformed, hgood => by
    refine spelled_of_member fun us => ?_
    rw [TypeExpr.Formed] at hformed
    rw [TypeExpr.pieces, goodPieces_braced] at hgood
    simp [TypeExpr.pieces, kindsOf_braced]
    exact .member (.object (fieldsSpelled fields hformed hgood _)) .noSuffix
  | .union members span, hformed, hgood => by
    rw [TypeExpr.Formed] at hformed
    rw [TypeExpr.pieces] at hgood ⊢
    have hmembers := (membersSpelled members hformed.2 hgood).2 hformed.1
    exact ⟨hmembers span, fun h => absurd trivial h⟩
termination_by structural t => t

theorem membersSpelled : (ms : List TypeExpr) → membersFormed ms →
    GoodPieces (joinPieces [.space, .mark .pipe, .space] (typePieces ms)) →
      (ms ≠ [] → ∃ t : TypeExpr, t.alternatives = ms ∧ ∀ us, SpellsType true (.type t)
        (kindsOf (joinPieces [.space, .mark .pipe, .space] (typePieces ms)) ++ us) us) ∧
      (2 ≤ ms.length → ∀ span us, SpellsType true (.type (.union ms span))
        (kindsOf (joinPieces [.space, .mark .pipe, .space] (typePieces ms)) ++ us) us)
  | [], _, _ => ⟨fun hne => absurd rfl hne, fun h => absurd h (by decide)⟩
  | m :: ms, hformed, hgood => by
    rw [membersFormed] at hformed
    obtain ⟨hm, hunion, hfunction, hms⟩ := hformed
    cases ms with
    | nil =>
      have hone := (m.spelled hm hgood).1
      exact ⟨fun _ => ⟨m, m.alternatives_of_not_union hunion, hone⟩, fun h => absurd h (by simp)⟩
    | cons m' ms =>
      rw [typePieces, joinPieces_cons (by simp [typePieces])] at hgood ⊢
      simp only [goodPieces_append] at hgood
      obtain ⟨⟨hgoodm, -⟩, hgoodms⟩ := hgood
      obtain ⟨t, ht, hrest⟩ := (membersSpelled (m' :: ms) hms hgoodms).1 (by simp)
      have hall : ∀ span us, SpellsType true (.type (.union (m :: m' :: ms) span))
          (kindsOf (m.pieces ++ [.space, .mark .pipe, .space] ++
            joinPieces [.space, .mark .pipe, .space] (typePieces (m' :: ms))) ++ us) us := by
        intro span us
        have hmember := (m.spelled hm hgoodm).2 hunion
        have hunited : SpellsType true (.type (.union (m :: t.alternatives) span)) _ us :=
          .union (fun _ => hfunction (by simp)) (hmember _) (hrest us)
        rw [ht] at hunited
        simpa using hunited
      exact ⟨fun _ => ⟨.union (m :: m' :: ms) default, rfl, hall default⟩, fun _ => hall⟩
termination_by structural ms => ms

theorem fieldsSpelled : (fs : List Field) → fieldsFormed fs →
    GoodPieces (commaPieces (fieldPieces fs)) →
      ∀ us, SpellsType true (.fields fs) (kindsOf (commaPieces (fieldPieces fs)) ++ us) us
  | [], _, _, us => .noField
  | ⟨name, type, span⟩ :: fs, hformed, hgood, us => by
    rw [fieldsFormed] at hformed
    cases fs with
    | nil =>
      simp [fieldPieces, commaPieces, joinPieces, Atom.kind] at hgood ⊢
      exact .lastField ((type.spelled hformed.1 hgood.2).1 us)
    | cons f fs =>
      rw [fieldPieces, commaPieces_cons (fieldPieces_cons_ne f fs)] at hgood ⊢
      simp [Atom.kind] at hgood ⊢
      obtain ⟨-, htype, hfs⟩ := hgood
      exact .field ((type.spelled hformed.1 htype).1 _) (fieldsSpelled (f :: fs) hformed.2 hfs us)
termination_by structural fs => fs

end

theorem annotatedSpelled {type : Option TypeExpr} (hformed : ∀ t ∈ type, t.Formed)
    (hgood : GoodPieces (annotatedPieces type)) (us : List TokenKind) :
    SpellsAnnotated true type (kindsOf (annotatedPieces type) ++ us) us := by
  cases type with
  | none => rfl
  | some t =>
    simp [annotatedPieces] at hgood
    exact ⟨_, rfl, (t.spelled (hformed t rfl) hgood).1 us⟩

theorem paramsSpelled {ps : List Param} (hformed : ∀ p ∈ ps, p.Formed)
    (hgood : GoodPieces (commaPieces (ps.map Param.pieces))) (us : List TokenKind) :
    SpellsParams true ps (kindsOf (commaPieces (ps.map Param.pieces)) ++ us) us := by
  induction ps with
  | nil => exact .none
  | cons p ps ih =>
    obtain ⟨node, name, type⟩ := p
    have hp : ∀ t ∈ type, t.Formed := hformed ⟨node, name, type⟩ (by simp)
    cases ps with
    | nil =>
      simp [commaPieces, joinPieces, Param.pieces, Atom.kind] at hgood ⊢
      exact .last (annotatedSpelled hp hgood.2 us)
    | cons p' ps =>
      rw [List.map_cons, commaPieces_cons (by simp)] at hgood ⊢
      simp only [Param.pieces, goodPieces_append, goodPieces_atom, goodPieces_mark,
        goodPieces_space] at hgood
      have hrest := ih (fun q hq => hformed q (by simp [hq])) hgood.2
      simp only [Param.pieces, kindsOf_append, kindsOf_atom, kindsOf_mark, kindsOf_space, Atom.kind,
        List.append_assoc, List.cons_append]
      exact .cons (annotatedSpelled hp hgood.1.2 _) hrest

def Strength.phrase : Strength → Expr → Phrase
  | .operand, e => .operand e
  | .binary, e => .chain e
  | .conditional, e | .any, e => .expr e

variable {ts us : List TokenKind} {e : Expr}

theorem Spells.of_operand (h : Spells true (.operand e) ts us) (place : Strength) :
    Spells true (place.phrase e) ts us := by
  cases place with
  | operand => exact h
  | binary => exact .chain h .noTail
  | conditional | any => exact .expr (.chain h .noTail)

theorem Spells.weaken {own place : Strength} (hle : place.level ≤ own.level)
    (h : Spells true (own.phrase e) ts us) : Spells true (place.phrase e) ts us := by
  cases own with
  | operand => exact h.of_operand place
  | binary =>
    cases place with
    | operand => exact absurd hle (by decide)
    | binary => exact h
    | conditional | any => exact .expr h
  | conditional | any =>
    cases place with
    | operand | binary => exact absurd hle (by decide)
    | conditional | any => exact h

theorem groupedSpelled (own : Strength) {ps : List TextPiece}
    (h : ∀ us, Spells true (own.phrase e) (kindsOf ps ++ us) us) (place : Strength)
    (us : List TokenKind) :
    Spells true (place.phrase e) (kindsOf (groupedPieces own place ps) ++ us) us := by
  unfold groupedPieces
  split
  · have hexpr : Spells true (Strength.phrase .any e) (kindsOf ps ++ .mark .parenClose :: us)
        (.mark .parenClose :: us) := (h _).weaken (Nat.zero_le _)
    have hoperand : Spells true (.operand e) _ us := .group hexpr
    simpa using hoperand.of_operand place
  · exact (h us).weaken (Nat.le_of_not_lt (by assumption))

theorem Spells.snoc {node : Node} {k : TokenKind} {op : BinaryOp} {l r : Expr} {vs : List TokenKind}
    (hop : Reader.operator? k = some op) (hl : Spells true (.chain l) ts (k :: us))
    (hr : Spells true (.operand r) us vs) : Spells true (.chain (.binary node op l r)) ts vs := by
  have htail : ∀ {ph : Phrase} {ts rest : List TokenKind}, Spells true ph ts rest →
      ∀ {a e : Expr}, ph = .tail a e → rest = k :: us →
        Spells true (.tail a (.binary node op e r)) ts vs := by
    intro ph ts rest h
    induction h with
    | noTail =>
      rintro a e hph rfl
      cases hph
      exact .tail hop hr .noTail
    | tail hop' hr' _ _ ih =>
      rintro a e hph rfl
      cases hph
      exact .tail hop' hr' (ih rfl rfl)
    | _ =>
      intro a e hph
      cases hph
  cases hl with
  | chain ha hrest => exact .chain ha (htail hrest rfl rfl)

theorem unquote_quoteString (value : String) : Reader.unquote (quoteString value) = value := by
  obtain ⟨q, hq⟩ : ∃ q, (quoteString value).toList = q :: (value.toList ++ [q]) := by
    unfold quoteString
    split
    · exact ⟨'\'', by simp⟩
    · exact ⟨'"', by simp⟩
  rw [Reader.unquote, hq, List.drop_one, List.tail_cons, List.dropLast_concat, String.ofList_toList]

theorem propertyPieces_cons_ne (p : Property) (ps : List Property) (depth : Nat) :
    propertyPieces (p :: ps) depth ≠ [] := by
  obtain ⟨node, key, value⟩ := p
  simp [propertyPieces]

mutual

theorem Expr.spelled : (e : Expr) → e.Formed → ∀ depth place, GoodPieces (e.pieces depth place) →
    ∀ us, Spells true (place.phrase e) (kindsOf (e.pieces depth place) ++ us) us
  | .string node value, _, depth, place, _, us => by
    have hstring : Spells true (.operand (.string node (Reader.unquote (quoteString value))))
        (.string (quoteString value) :: us) us := .string
    rw [unquote_quoteString] at hstring
    simpa [Expr.pieces, Atom.kind] using hstring.of_operand place
  | .number node value, _, depth, place, hgood, us => by
    simp [Expr.pieces] at hgood
    obtain ⟨m, e, rfl, hcanonical⟩ := hgood
    have hread := (Binary64.denotes_write hcanonical).read?
    have hnumber : Spells true (.operand (.number node (.finite false m e)))
        (.number ((Binary64.finite false m e).write Binary64.plain) :: us) us := by
      refine .number fun v hv => ?_
      rw [hread] at hv
      cases hv
      rfl
    simpa [Expr.pieces, Atom.kind] using hnumber.of_operand place
  | .boolean node value, _, depth, place, _, us => by
    have hboolean : Spells true (.operand (.boolean node value)) (.boolean value :: us) us := .boolean
    simpa [Expr.pieces, Atom.kind] using hboolean.of_operand place
  | .ident node name, _, depth, place, _, us => by
    have hident : Spells true (.operand (.ident node name)) (.ident name :: us) us := .ident
    simpa [Expr.pieces, Atom.kind] using hident.of_operand place
  | .binary node op left right, hformed, depth, place, hgood, us => by
    rw [Expr.Formed] at hformed
    obtain ⟨hop, hleft, hright⟩ := hformed
    rw [Expr.pieces, goodPieces_grouped] at hgood
    simp at hgood
    have hmark : Reader.operator? (.mark (operatorMark op)) = some op := by
      rcases hop with rfl | rfl <;> rfl
    rw [Expr.pieces]
    refine groupedSpelled .binary (fun us => ?_) place us
    have hbinary : Spells true (Strength.phrase .binary (.binary node op left right)) _ us :=
      .snoc hmark (left.spelled hleft depth .binary hgood.1 _)
        (right.spelled hright depth .operand hgood.2 us)
    simpa using hbinary
  | .conditional node test consequent alternate, hformed, depth, place, hgood, us => by
    rw [Expr.Formed] at hformed
    obtain ⟨htest, hconsequent, halternate⟩ := hformed
    rw [Expr.pieces, goodPieces_grouped] at hgood
    simp at hgood
    rw [Expr.pieces]
    refine groupedSpelled .conditional (fun us => ?_) place us
    have hconditional : Spells true
        (Strength.phrase .conditional (.conditional node test consequent alternate)) _ us :=
      .conditional (test.spelled htest depth .binary hgood.1 _)
        (consequent.spelled hconsequent depth .conditional hgood.2.1 _)
        (alternate.spelled halternate depth .conditional hgood.2.2 us)
    simpa using hconditional
  | .call node callee args, hformed, depth, place, hgood, us => by
    rw [Expr.Formed] at hformed
    obtain ⟨⟨node', name, rfl⟩, hargs⟩ := hformed
    simp [Expr.pieces] at hgood
    have hcall : Spells true (.operand (.call node (.ident node' name) args)) _ us :=
      .call (exprsSpelled args hargs depth hgood.2 _).1
    simpa [Expr.pieces, Atom.kind] using hcall.of_operand place
  | .arrow node params result ⟨node', ss⟩, hformed, depth, place, hgood, us => by
    rw [Expr.Formed] at hformed
    obtain ⟨hparams, hresult, hbody⟩ := hformed
    simp [Expr.pieces] at hgood
    obtain ⟨hgoodparams, hgoodresult, hgoodbody⟩ := hgood
    obtain ⟨ts, hts, hstatements⟩ := Block.spelled ⟨node', ss⟩ hbody depth hgoodbody us
    have harrow : Spells true (.operand (.arrow node params result ⟨node', ss⟩)) _ us :=
      .arrow (paramsSpelled hparams hgoodparams _) (annotatedSpelled hresult hgoodresult _) hstatements
    rw [← hts] at harrow
    simpa [Expr.pieces] using harrow.of_operand place
  | .array node elements, hformed, depth, place, hgood, us => by
    rw [Expr.Formed] at hformed
    simp [Expr.pieces] at hgood
    have harray : Spells true (.operand (.array node elements)) _ us :=
      .array (exprsSpelled elements hformed depth hgood _).2
    simpa [Expr.pieces] using harray.of_operand place
  | .object node properties, hformed, depth, place, hgood, us => by
    rw [Expr.Formed] at hformed
    rw [Expr.pieces, goodPieces_braced] at hgood
    have hobject : Spells true (.operand (.object node properties)) _ us :=
      .object (propertiesSpelled properties hformed depth hgood _)
    simpa [Expr.pieces, kindsOf_braced] using hobject.of_operand place
  | .error _, hformed, _, _, _, _ => by simp [Expr.Formed] at hformed
termination_by structural e => e

theorem exprsSpelled : (es : List Expr) → exprsFormed es → ∀ depth,
    GoodPieces (commaPieces (exprPieces es depth)) → ∀ us,
      Spells true (.args es) (kindsOf (commaPieces (exprPieces es depth)) ++ us) us ∧
        Spells true (.elements es) (kindsOf (commaPieces (exprPieces es depth)) ++ us) us
  | [], _, _, _, _ => ⟨.noArg, .noElement⟩
  | e :: es, hformed, depth, hgood, us => by
    rw [exprsFormed] at hformed
    cases es with
    | nil =>
      have he := e.spelled hformed.1 depth .any hgood us
      exact ⟨.lastArg he, .lastElement he⟩
    | cons e' es =>
      rw [exprPieces, commaPieces_cons (by simp [exprPieces])] at hgood ⊢
      simp at hgood ⊢
      have hrest := exprsSpelled (e' :: es) hformed.2 depth hgood.2 us
      have he := e.spelled hformed.1 depth .any hgood.1
      exact ⟨.arg (he _) hrest.1, .element (he _) hrest.2⟩
termination_by structural es => es

theorem propertiesSpelled : (ps : List Property) → propertiesFormed ps → ∀ depth,
    GoodPieces (commaPieces (propertyPieces ps depth)) → ∀ us,
      Spells true (.properties ps) (kindsOf (commaPieces (propertyPieces ps depth)) ++ us) us
  | [], _, _, _, _ => .noProperty
  | ⟨node, key, value⟩ :: ps, hformed, depth, hgood, us => by
    rw [propertiesFormed] at hformed
    have hkey : Reader.propertyKey? (Atom.key key).kind = some key := by
      rw [Atom.kind]
      split
      · rfl
      · rw [Reader.propertyKey?, unquote_quoteString]
    cases ps with
    | nil =>
      simp [propertyPieces, commaPieces, joinPieces] at hgood ⊢
      exact .lastProperty hkey (value.spelled hformed.1 depth .any hgood.2 us)
    | cons p ps =>
      rw [propertyPieces, commaPieces_cons (propertyPieces_cons_ne p ps depth)] at hgood ⊢
      simp at hgood ⊢
      exact .property hkey (value.spelled hformed.1 depth .any hgood.2.1 _)
        (propertiesSpelled (p :: ps) hformed.2 depth hgood.2.2 us)
termination_by structural ps => ps

theorem Stmt.spelled : (s : Stmt) → s.Formed → ∀ depth, GoodPieces (s.pieces depth) →
    ∀ us, Spells true (.statement s) (kindsOf (s.pieces depth) ++ us) us
  | .const node ⟨place, name⟩ type value, hformed, depth, hgood, us => by
    rw [Stmt.Formed] at hformed
    simp [Stmt.pieces] at hgood
    obtain ⟨-, -, hgoodtype, hgoodvalue⟩ := hgood
    have hconst : Spells true (.statement (.const node ⟨place, name⟩ type value)) _ us :=
      .const (annotatedSpelled hformed.1 hgoodtype _)
        (value.spelled hformed.2 depth .any hgoodvalue (.mark .semicolon :: us)) (.inr rfl)
    simpa [Stmt.pieces, Atom.kind] using hconst
  | .ret node (some argument), hformed, depth, hgood, us => by
    rw [Stmt.Formed] at hformed
    simp [Stmt.pieces] at hgood
    have hret : Spells true (.statement (.ret node (some argument))) _ us :=
      .ret (argument.spelled hformed depth .any hgood.2 (.mark .semicolon :: us)) (.inr rfl)
    simpa [Stmt.pieces, Atom.kind] using hret
  | .ret node none, _, _, _, us => by
    rw [Stmt.pieces]
    exact .bareRet (.inr (.inl rfl)) (.inr rfl)
termination_by structural s => s

theorem Block.spelled : (b : Block) → b.Formed → ∀ depth, GoodPieces (b.pieces depth) → ∀ us,
    ∃ ts, kindsOf (b.pieces depth) ++ us = .mark .braceOpen :: ts ∧
      Spells true (.statements b.statements) ts (.mark .braceClose :: us)
  | ⟨_, statements⟩, hformed, depth, hgood, us => by
    rw [Block.Formed] at hformed
    have hlines := statementsSpelled statements hformed (depth + 1)
    cases statements with
    | nil => exact ⟨_, rfl, .noStatement⟩
    | cons s ss =>
      simp [Block.pieces] at hgood
      refine ⟨_, ?_, hlines hgood _⟩
      simp [Block.pieces]
termination_by structural b => b

theorem statementsSpelled : (ss : List Stmt) → stmtsFormed ss → ∀ depth,
    GoodPieces (linePieces ss depth) →
      ∀ us, Spells true (.statements ss) (kindsOf (linePieces ss depth) ++ us) us
  | [], _, _, _, _ => .noStatement
  | s :: ss, hformed, depth, hgood, us => by
    rw [stmtsFormed] at hformed
    simp [linePieces] at hgood ⊢
    exact .statement (s.spelled hformed.1 depth hgood.1 _)
      (statementsSpelled ss hformed.2 depth hgood.2 us)
termination_by structural ss => ss

end

end ArrowCheck
