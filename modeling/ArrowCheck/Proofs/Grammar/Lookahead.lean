import ArrowCheck.Proofs.Grammar.TypeCompleteness

namespace ArrowCheck

/-- What stands behind the bracket that closes the innermost of `depth + 1` open ones. -/
def closing : (depth : Nat) → List TokenKind → Option (List TokenKind)
  | _, [] => none
  | depth, .mark .parenOpen :: ts | depth, .mark .braceOpen :: ts
  | depth, .mark .bracketOpen :: ts => closing (depth + 1) ts
  | 0, .mark .parenClose :: ts | 0, .mark .braceClose :: ts | 0, .mark .bracketClose :: ts => some ts
  | depth + 1, .mark .parenClose :: ts | depth + 1, .mark .braceClose :: ts
  | depth + 1, .mark .bracketClose :: ts => closing depth ts
  | depth, _ :: ts => closing depth ts

variable {g : Bool} {ts us vs : List TokenKind}

theorem SpellsType.closing_eq {ph : TypePhrase} (h : SpellsType g ph ts us) (depth : Nat) :
    closing depth ts = closing depth us := by
  induction h generalizing depth with
  | noSuffix | noField => rfl
  | word | name => simp only [closing]
  | single _ ih => exact ih depth
  | _ => simp_all [closing]

theorem SpellsAnnotated.closing_eq {type : Option TypeExpr} (h : SpellsAnnotated g type ts us)
    (depth : Nat) : closing depth ts = closing depth us := by
  cases type with
  | none => rw [show ts = us from h]
  | some t =>
    obtain ⟨vs, rfl, ht⟩ := h
    rw [closing, ht.closing_eq] <;> simp

theorem SpellsParams.closing_eq {ps : List Param} (h : SpellsParams g ps ts us) (depth : Nat) :
    closing depth ts = closing depth us := by
  induction h with
  | none => rfl
  | last h => simp [closing, h.closing_eq]
  | cons h _ ih => simp [closing, h.closing_eq, ih]

theorem Terminated.closing_eq (h : Terminated ts us) (depth : Nat) :
    closing depth ts = closing depth us := by
  rcases h with rfl | rfl
  · rfl
  · simp [closing]

theorem operator?_eq_some {k : TokenKind} {op : BinaryOp} (h : Reader.operator? k = some op) :
    (k = .mark .plus ∧ op = .add) ∨ (k = .mark .star ∧ op = .mul) := by
  unfold Reader.operator? at h
  split at h <;> simp_all

theorem propertyKey?_eq_some {k : TokenKind} {key : String}
    (h : Reader.propertyKey? k = some key) :
    k = .ident key ∨ ∃ text, k = .string text ∧ key = Reader.unquote text := by
  unfold Reader.propertyKey? at h
  split at h <;> simp_all

theorem Spells.closing_eq {ph : Phrase} (h : Spells g ph ts us) (depth : Nat) :
    closing depth ts = closing depth us := by
  induction h generalizing depth with
  | noStatement | noTail | noArg | noElement | noProperty => rfl
  | statement _ _ ih₁ ih₂ | chain _ _ ih₁ ih₂ => rw [ih₁, ih₂]
  | const htype _ hend ih =>
    simp only [closing]
    rw [htype.closing_eq, closing, ih, hend.closing_eq]
    all_goals simp
  | ret _ hend ih => simp only [closing, ih, hend.closing_eq]
  | bareRet _ hend => simp only [closing, hend.closing_eq]
  | expr _ ih | lastArg _ ih | lastElement _ ih => exact ih depth
  | tail hop _ _ ih₁ ih₂ =>
    rcases operator?_eq_some hop with ⟨rfl, -⟩ | ⟨rfl, -⟩ <;> simp only [closing, ih₁, ih₂]
  | string | number | boolean | ident => simp only [closing]
  | arrow hps hresult _ ih =>
    simp only [closing]
    rw [hps.closing_eq]
    simp only [closing]
    rw [hresult.closing_eq]
    simp only [closing, ih]
  | lastProperty hk _ ih =>
    rcases propertyKey?_eq_some hk with rfl | ⟨_, rfl, -⟩ <;> simp only [closing, ih]
  | property hk _ _ ih₁ ih₂ =>
    rcases propertyKey?_eq_some hk with rfl | ⟨_, rfl, -⟩ <;> simp only [closing, ih₁, ih₂]
  | _ => simp_all [closing]

def NoArrowHead (ts : List TokenKind) : Prop :=
  ∀ t us, ¬ SpellsType true (.type t) ts (.mark .arrow :: us)

/-- Nothing follows that could belong to an operand or make it the head of an arrow function. -/
structure OperandEnds (ts : List TokenKind) : Prop where
  noParen : ts.head? ≠ some (.mark .parenOpen)
  noArrow : ts.head? ≠ some (.mark .arrow)
  noBracket : ts.head? ≠ some (.mark .bracketOpen)
  noBar : ts.head? ≠ some (.mark .pipe)
  noHead : ∀ us, ts = .mark .colon :: us → NoArrowHead us

structure ChainEnds (ts : List TokenKind) : Prop extends OperandEnds ts where
  noOperator : ts.head?.bind Reader.operator? = none

structure ExprEnds (ts : List TokenKind) : Prop extends ChainEnds ts where
  noQuestion : ts.head? ≠ some (.mark .question)

/-- An expression starts with an operand; if it is not the whole of it an operator or a question
mark follows. -/
theorem Spells.first_operand {e : Expr} (h : Spells g (.expr e) ts us) :
    ∃ o vs, Spells g (.operand o) ts vs ∧
      (vs = us ∨ ∃ m ws, vs = .mark m :: ws ∧ (m = .plus ∨ m = .star ∨ m = .question)) := by
  have hchain : ∀ {e : Expr} {us : List TokenKind}, Spells g (.chain e) ts us →
      ∃ o vs, Spells g (.operand o) ts vs ∧
        (vs = us ∨ ∃ m ws, vs = .mark m :: ws ∧ (m = .plus ∨ m = .star ∨ m = .question)) := by
    intro e us h
    cases h with
    | @chain l _ _ vs _ hl htail =>
      refine ⟨l, vs, hl, ?_⟩
      cases htail with
      | noTail => exact .inl rfl
      | tail hop _ _ =>
        rcases operator?_eq_some hop with ⟨rfl, -⟩ | ⟨rfl, -⟩
        · exact .inr ⟨_, _, rfl, .inl rfl⟩
        · exact .inr ⟨_, _, rfl, .inr (.inl rfl)⟩
  cases h with
  | expr h => exact hchain h
  | conditional h _ _ =>
    obtain ⟨o, vs, ho, rfl | hvs⟩ := hchain h
    · exact ⟨o, _, ho, .inr ⟨_, _, rfl, .inr (.inr rfl)⟩⟩
    · exact ⟨o, vs, ho, .inr hvs⟩

theorem OperandEnds.of_mark {m : Mark} (h : m = .plus ∨ m = .star ∨ m = .question) :
    OperandEnds (.mark m :: ts) := by
  rcases h with rfl | rfl | rfl <;> exact ⟨by simp, by simp, by simp, by simp, by simp⟩

/-- What can follow a base type in a type with an arrow behind it. -/
def TypeGoesOn (ts : List TokenKind) : Prop :=
  ts.head? = some (.mark .arrow) ∨ ts.head? = some (.mark .bracketOpen) ∨
    ts.head? = some (.mark .pipe)

theorem OperandEnds.not_goesOn (h : OperandEnds ts) : ¬ TypeGoesOn ts := by
  rintro (ha | hb | hp)
  · exact h.noArrow ha
  · exact h.noBracket hb
  · exact h.noBar hp

/-- A type starts with a base type; if it is not the whole of it a bracket or a bar follows. -/
theorem SpellsType.first_base {t : TypeExpr} (h : SpellsType g (.type t) ts us)
    (hus : TypeGoesOn us) : ∃ b vs, SpellsType g (.base b) ts vs ∧ TypeGoesOn vs := by
  have hmember : ∀ {m : TypeExpr} {us : List TokenKind}, SpellsType g (.member m) ts us →
      TypeGoesOn us → ∃ b vs, SpellsType g (.base b) ts vs ∧ TypeGoesOn vs := by
    intro m us h hus
    cases h with
    | @member b _ _ vs _ hb hsuffixes =>
      refine ⟨b, vs, hb, ?_⟩
      cases hsuffixes with
      | noSuffix => exact hus
      | suffix => exact .inr (.inl rfl)
  cases h with
  | single h => exact hmember h hus
  | union _ h _ => exact hmember h (.inr (.inr rfl))

theorem closing_paren (ts : List TokenKind) : closing 0 (.mark .parenClose :: ts) = some ts := by
  simp only [closing]

theorem closing_brace (ts : List TokenKind) : closing 0 (.mark .braceClose :: ts) = some ts := by
  simp only [closing]

/-- Tokens that can be read as an operand and as a base type are followed by what ends the one or by
what continues the other. -/
theorem Spells.operand_not_base {g' : Bool} {o : Expr} {b : TypeExpr}
    (ho : Spells g (.operand o) ts us) (hus : OperandEnds us) (hb : SpellsType g' (.base b) ts vs)
    (hvs : TypeGoesOn vs) : False := by
  cases hb with
  | arrayOf | word => cases ho
  | name =>
    cases ho with
    | ident => exact hus.not_goesOn hvs
    | call => rcases hvs with h | h | h <;> simp at h
  | object hfs =>
    cases ho with
    | object hps =>
      have hclose := (hps.closing_eq 0).symm.trans (hfs.closing_eq 0)
      rw [closing_brace, closing_brace] at hclose
      cases hclose
      exact hus.not_goesOn hvs
  | function hps hr =>
    cases ho with
    | group he =>
      have hclose := (he.closing_eq 0).symm.trans (hps.closing_eq 0)
      rw [closing_paren, closing_paren] at hclose
      cases hclose
      exact hus.noArrow rfl
    | @arrow _ _ _ result _ _ _ _ _ hparams hresult hss =>
      have hclose := (hparams.closing_eq 0).symm.trans (hps.closing_eq 0)
      rw [closing_paren, closing_paren] at hclose
      cases hclose
      cases result with
      | some t =>
        obtain ⟨_, hcolon, -⟩ := hresult
        cases hcolon
      | none =>
        cases hresult
        obtain ⟨b', ws, hb', hgoes⟩ := hr.first_base hvs
        cases hb' with
        | object hfs =>
          have hclose := (hss.closing_eq 0).symm.trans (hfs.closing_eq 0)
          rw [closing_brace, closing_brace] at hclose
          cases hclose
          exact hus.not_goesOn hgoes

theorem Spells.noArrowHead {e : Expr} (h : Spells g (.expr e) ts us) (hus : OperandEnds us) :
    NoArrowHead ts := by
  intro t ws ht
  obtain ⟨o, vs, ho, hvs⟩ := h.first_operand
  obtain ⟨b, xs, hb, hgoes⟩ := ht.first_base (.inl rfl)
  have hends : OperandEnds vs := by
    rcases hvs with rfl | ⟨m, _, rfl, hm⟩
    · exact hus
    · exact .of_mark hm
  exact ho.operand_not_base hends hb hgoes

/-- The tokens behind a parenthesis start with a parameter that a colon or a comma follows. -/
def StartsParams (ts : List TokenKind) : Prop :=
  ∃ name us, ts = .ident name :: .mark .colon :: us ∨ ts = .ident name :: .mark .comma :: us

theorem SpellsAnnotated.startsParams {type : Option TypeExpr} {name : String}
    (h : SpellsAnnotated true type ts (.mark .comma :: us)) : StartsParams (.ident name :: ts) := by
  cases type with
  | none =>
    obtain rfl : ts = .mark .comma :: us := h
    exact ⟨name, us, .inr rfl⟩
  | some t =>
    obtain ⟨vs, rfl, -⟩ := h
    exact ⟨name, vs, .inl rfl⟩

def ArrowHead (ts : List TokenKind) : Prop :=
  StartsParams ts ∨ ∃ ps type us vs, SpellsParams true ps ts (.mark .parenClose :: us) ∧
    SpellsAnnotated true type us (.mark .arrow :: vs)

theorem Spells.not_arrowHead {e : Expr} (h : Spells g (.expr e) ts (.mark .parenClose :: us))
    (hus : OperandEnds us) : ¬ ArrowHead ts := by
  obtain ⟨o, vs, ho, hvs⟩ := h.first_operand
  -- behind a name that starts the group stands no colon and no comma
  have hname : ∀ {name : String} {k : TokenKind} {ws : List TokenKind}, ts = .ident name :: k :: ws →
      k ≠ .mark .colon ∧ k ≠ .mark .comma := by
    rintro name k ws rfl
    cases ho with
    | ident =>
      rcases hvs with hvs | ⟨m, _, hvs, rfl | rfl | rfl⟩ <;> cases hvs <;> simp
    | call => simp
  rintro (⟨name, ws, rfl | rfl⟩ | ⟨ps, type, us', ws, hps, htype⟩)
  · exact (hname rfl).1 rfl
  · exact (hname rfl).2 rfl
  · have hclose := (h.closing_eq 0).symm.trans (hps.closing_eq 0)
    rw [closing_paren, closing_paren] at hclose
    cases hclose
    cases type with
    | none =>
      obtain rfl : us = .mark .arrow :: ws := htype
      exact hus.noArrow rfl
    | some t =>
      obtain ⟨xs, rfl, ht⟩ := htype
      exact hus.noHead xs rfl t ws ht

namespace Reader

variable {c : Cursor}

theorem reads_attempt {α : Type} {r : Reader α} {P : α → List TokenKind → Prop} (h : Reads r c P) :
    Reads (attempt r) c fun x us => ∀ a, x = .ok a → P a us := by
  refine ⟨h.1, fun x hx a ha => h.2 a ?_⟩
  cases hx
  exact ha

theorem reads_attemptType : Reads (attempt optionalType) c fun x us =>
    (∀ fault, x = .error fault → c.kinds.head? = some (.mark .colon)) ∧
      ∀ type, x = .ok type → SpellsAnnotated true type c.kinds us := by
  have hread := reads_attempt (reads_optionalType (g := true) (c := c))
  refine ⟨hread.1, fun x hx => ⟨?_, fun type htype => (hread.2 x hx type htype).1⟩⟩
  rintro fault rfl
  by_cases hcolon : c.kinds.head? = some (.mark .colon)
  · exact hcolon
  obtain ⟨⟨type, htype, -⟩, -⟩ := gives_noType hcolon
  cases (Except.ok.inj hx).symm.trans htype

theorem reads_skimParams (bound : Nat) {c : Cursor} :
    Reads (skimParams bound) c fun cut us =>
      (cut = true ∧ StartsParams c.kinds) ∨
        (cut = false ∧ ∃ p ps, SpellsParams true (p :: ps) c.kinds us) := by
  induction bound generalizing c with
  | zero => exact reads_unexpected _
  | succ bound ih =>
    refine reads_bind reads_expectIdent fun name c₁ hkinds₁ => ?_
    rw [hkinds₁]
    refine reads_bind reads_attemptType ?_
    rintro result c₂ ⟨hfault, htype⟩
    split
    · obtain hcolon := eq_cons_of_head? (beq_iff_eq.mpr (hfault _ rfl))
      exact reads_pure (.inl ⟨rfl, name.1, _, .inl (by rw [← hcolon])⟩)
    · exact reads_throw _
    · rename_i type
      have htype := htype type rfl
      refine reads_bind reads_eat ?_
      rintro _ c₃ (⟨rfl, hkinds₃⟩ | ⟨rfl, hkinds₃, -⟩)
      · rw [hkinds₃] at htype
        refine ih.imp ?_
        rintro _ us (⟨rfl, -⟩ | ⟨rfl, p, ps, hps⟩)
        · exact .inl ⟨rfl, SpellsAnnotated.startsParams htype⟩
        · exact .inr ⟨rfl, ⟨default, name.1, type⟩, p :: ps, .cons htype hps⟩
      · refine reads_pure (.inr ⟨rfl, ⟨default, name.1, type⟩, [], ?_⟩)
        rw [hkinds₃]
        exact .last htype

theorem reads_arrowHead : Reads arrowHead c fun _ _ =>
    ∃ ts, c.kinds = .mark .parenOpen :: ts ∧ ArrowHead ts := by
  refine reads_bind reads_expect fun _ c₁ hkinds₁ => ?_
  -- the parameters end at a closing parenthesis, or the scan was cut short
  have hrest : ∀ ps (c' : Cursor), SpellsParams true ps c₁.kinds c'.kinds →
      Reads (do
        let _ ← expect (.mark .parenClose)
        let _ ← optionalType
        let _ ← expect (.mark .arrow)) c' fun _ _ =>
          ∃ ts, c.kinds = .mark .parenOpen :: ts ∧ ArrowHead ts := by
    intro ps c' hps
    refine reads_bind reads_expect fun _ c₂ hkinds₂ => ?_
    refine reads_bind (reads_optionalType (g := true)) ?_
    rintro type c₃ ⟨htype, -⟩
    refine reads_bind reads_expect fun _ c₄ hkinds₄ => reads_pure ⟨_, hkinds₁, .inr ?_⟩
    rw [hkinds₂] at hps
    rw [hkinds₄] at htype
    exact ⟨ps, type, _, _, hps, htype⟩
  refine reads_bind reads_sees ?_
  rintro _ c₂ ⟨rfl, hkinds₂⟩
  split
  · refine hrest [] c₂ ?_
    rw [hkinds₂]
    exact .none
  · refine reads_bind reads_get ?_
    rintro c₀ c₃ ⟨rfl, hkinds₃⟩
    refine reads_bind (reads_skimParams _) ?_
    rw [hkinds₃, hkinds₂]
    rintro _ c₄ (⟨rfl, hstarts⟩ | ⟨rfl, p, ps, hps⟩)
    · exact reads_pure ⟨_, hkinds₁, .inl hstarts⟩
    · exact hrest (p :: ps) c₄ hps

end Reader

end ArrowCheck
