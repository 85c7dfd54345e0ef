import ArrowCheck.Proofs.Grammar.Soundness

namespace ArrowCheck

attribute [local simp] Expr.bare Stmt.bare

def NumbersRead (ts : List TokenKind) : Prop :=
  ∀ text, TokenKind.number text ∈ ts → (Binary64.read? text).isSome

def StatementEnds (ts : List TokenKind) : Prop :=
  ts = [] ∨ ts.head? = some (.mark .braceClose) ∨ ∃ w, ts.head? = some (.keyword w)

variable {g : Bool} {ts us vs : List TokenKind} {c : Cursor}

theorem NumbersRead.suffix (h : NumbersRead ts) (hsuffix : us <:+ ts) : NumbersRead us :=
  fun text ht => h text (hsuffix.subset ht)

theorem NumbersRead.tail {k : TokenKind} (h : NumbersRead (k :: ts)) : NumbersRead ts :=
  h.suffix (List.suffix_cons _ _)

namespace ExprEnds

theorem of_mark {m : Mark} (h : m = .parenClose ∨ m = .bracketClose ∨ m = .braceClose ∨
    m = .comma ∨ m = .semicolon) : ExprEnds (.mark m :: ts) := by
  rcases h with rfl | rfl | rfl | rfl | rfl <;>
    exact ⟨⟨⟨by simp, by simp, by simp, by simp, by simp⟩, rfl⟩, by simp⟩

theorem of_colon (h : NoArrowHead ts) : ExprEnds (.mark .colon :: ts) := by
  refine ⟨⟨⟨by simp, by simp, by simp, by simp, fun us hus => ?_⟩, rfl⟩, by simp⟩
  cases hus
  exact h

end ExprEnds

theorem StatementEnds.exprEnds (h : StatementEnds ts) : ExprEnds ts := by
  rcases h with rfl | h | ⟨w, h⟩
  · exact ⟨⟨⟨by simp, by simp, by simp, by simp, by simp⟩, rfl⟩, by simp⟩
  · cases ts with
    | nil => simp at h
    | cons k ts =>
      cases h
      exact .of_mark (by simp)
  · cases ts with
    | nil => simp at h
    | cons k ts =>
      cases h
      exact ⟨⟨⟨by simp, by simp, by simp, by simp, by simp⟩, rfl⟩, by simp⟩

theorem StatementEnds.noSemicolon (h : StatementEnds ts) : ts.head? ≠ some (.mark .semicolon) := by
  rcases h with h | h | ⟨w, h⟩ <;> simp [h]

theorem Terminated.exprEnds (h : Terminated ts us) (hus : StatementEnds us) :
    ExprEnds ts := by
  rcases h with rfl | rfl
  · exact hus.exprEnds
  · exact .of_mark (by simp)

theorem Spells.expr_head {e : Expr} (h : Spells g (.expr e) ts us) :
    ts ≠ [] ∧ ts.head? ≠ some (.mark .semicolon) ∧ ts.head? ≠ some (.mark .braceClose) ∧
      ts.head? ≠ some (.mark .parenClose) ∧ ts.head? ≠ some (.mark .bracketClose) := by
  obtain ⟨o, vs, ho, -⟩ := h.first_operand
  cases ho <;> simp

theorem Spells.operandEnds {l e : Expr} (h : Spells g (.tail l e) ts us) (hus : ChainEnds us) :
    OperandEnds ts := by
  cases h with
  | noTail => exact hus.toOperandEnds
  | tail hop _ _ =>
    rcases operator?_eq_some hop with ⟨rfl, -⟩ | ⟨rfl, -⟩ <;> exact .of_mark (by simp)

theorem Spells.args_cases {es : List Expr} (h : Spells g (.args es) ts us) :
    (es = [] ∧ ts = us) ∨ (es ≠ [] ∧ ts.head? ≠ some (.mark .parenClose)) := by
  cases h with
  | noArg => exact .inl ⟨rfl, rfl⟩
  | lastArg he => exact .inr ⟨by simp, he.expr_head.2.2.2.1⟩
  | arg he _ => exact .inr ⟨by simp, he.expr_head.2.2.2.1⟩

theorem Spells.statement_head {s : Stmt} (h : Spells g (.statement s) ts us) :
    ∃ w, ts.head? = some (.keyword w) := by
  cases h <;> exact ⟨_, rfl⟩

theorem Spells.statementEnds {ss : List Stmt} (h : Spells g (.statements ss) ts us)
    (hus : us = [] ∨ us.head? = some (.mark .braceClose)) : StatementEnds ts := by
  cases h with
  | noStatement => exact hus.imp_right .inl
  | statement hs _ => exact .inr (.inr hs.statement_head)

namespace Reader

def GivesPhrase (g : Bool) : Phrase → (ts us : List TokenKind) → Prop
  | .expr e, ts, us => NumbersRead ts → ExprEnds us → ∀ {c : Cursor} {bound : Nat}, c.kinds = ts →
    4 * ts.length + 3 ≤ bound → Gives (exprWithin bound) c us fun e' => g = true → e'.bare = e.bare
  | .chain e, ts, us => NumbersRead ts → ChainEnds us → ∀ {c : Cursor} {bound : Nat}, c.kinds = ts →
    4 * ts.length + 2 ≤ bound → Gives (chainWithin bound) c us fun e' => g = true → e'.bare = e.bare
  | .tail l e, ts, us => NumbersRead ts → ChainEnds us → ∀ {c : Cursor} {bound : Nat} {l' : Expr},
    c.kinds = ts → 4 * ts.length + 1 ≤ bound → (g = true → l'.bare = l.bare) →
      Gives (moreWithin bound l') c us fun e' => g = true → e'.bare = e.bare
  | .operand e, ts, us => NumbersRead ts → OperandEnds us → ∀ {c : Cursor} {bound : Nat},
    c.kinds = ts → 4 * ts.length + 1 ≤ bound →
      Gives (operandWithin bound) c us fun e' => g = true → e'.bare = e.bare
  | .args es, ts, us => NumbersRead ts → us.head? = some (.mark .parenClose) → es ≠ [] →
    ∀ {c : Cursor} {bound : Nat}, c.kinds = ts → 4 * ts.length + 4 ≤ bound →
      Gives (argsWithin bound) c us fun es' => g = true → bareExprs es' = bareExprs es
  | .elements es, ts, us => NumbersRead ts → us.head? = some (.mark .bracketClose) →
    ∀ {c : Cursor} {bound : Nat}, c.kinds = ts → 4 * ts.length + 4 ≤ bound →
      Gives (elementsWithin bound) c us fun es' => g = true → bareExprs es' = bareExprs es
  | .properties ps, ts, us => NumbersRead ts → us.head? = some (.mark .braceClose) →
    ∀ {c : Cursor} {bound : Nat}, c.kinds = ts → 4 * ts.length + 4 ≤ bound →
      Gives (propertiesWithin bound) c us fun ps' => g = true → bareProperties ps' = bareProperties ps
  | .statements ss, ts, us => NumbersRead ts → ∀ {nested : Bool},
    (us = [] ∨ nested = true ∧ us.head? = some (.mark .braceClose)) → ∀ {c : Cursor} {bound : Nat},
      c.kinds = ts → 4 * ts.length + 4 ≤ bound →
        Gives (statementsWithin bound nested) c us fun ss' => g = true → bareStmts ss' = bareStmts ss
  | .statement s, ts, us => NumbersRead ts → StatementEnds us → ∀ {c : Cursor} {bound : Nat},
    c.kinds = ts → 4 * ts.length + 3 ≤ bound →
      Gives (statementWithin bound) c us fun s' => g = true → s'.bare = s.bare

theorem givesPhrase_expr {e : Expr} (ih : GivesPhrase g (.chain e) ts us) :
    GivesPhrase g (.expr e) ts us := by
  intro hread hus c bound hc hbound
  obtain ⟨n, rfl⟩ : ∃ n, bound = n + 1 := ⟨bound - 1, by omega⟩
  refine gives_bind (ih hread hus.toChainEnds hc (by omega)) fun e' c₁ he' hkinds₁ _ => ?_
  refine gives_bind (gives_eat_not (hkinds₁ ▸ hus.noQuestion)) ?_
  rintro _ c₂ rfl hkinds₂ -
  exact gives_pure he' (hkinds₂.trans hkinds₁)

theorem givesPhrase_conditional {node : Node} {a b e : Expr} {ws : List TokenKind}
    (ha : Spells g (.chain a) ts (.mark .question :: us))
    (hb : Spells g (.expr b) us (.mark .colon :: vs)) (he : Spells g (.expr e) vs ws)
    (iha : GivesPhrase g (.chain a) ts (.mark .question :: us))
    (ihb : GivesPhrase g (.expr b) us (.mark .colon :: vs)) (ihe : GivesPhrase g (.expr e) vs ws) :
    GivesPhrase g (.expr (.conditional node a b e)) ts ws := by
  intro hread hws c bound hc hbound
  have hla := ha.length_le
  have hlb := hb.length_le
  simp only [List.length_cons] at hla hlb
  obtain ⟨n, rfl⟩ : ∃ n, bound = n + 1 := ⟨bound - 1, by omega⟩
  have hquestion : ChainEnds (.mark .question :: us) := ⟨.of_mark (by simp), rfl⟩
  have hreadb := (hread.suffix ha.suffix_of).tail
  have hreade := (hreadb.suffix hb.suffix_of).tail
  refine gives_bind (iha hread hquestion hc (by omega)) fun a' c₁ ha' hkinds₁ _ => ?_
  refine gives_bind (gives_eat hkinds₁) ?_
  rintro _ c₂ rfl hkinds₂ -
  have hcolon : ExprEnds (.mark .colon :: vs) := .of_colon (he.noArrowHead hws.toOperandEnds)
  refine gives_bind (ihb hreadb hcolon hkinds₂ (by omega)) fun b' c₃ hb' hkinds₃ _ => ?_
  refine gives_bind (gives_expect hkinds₃) fun _ c₄ _ hkinds₄ _ => ?_
  refine gives_bind (ihe hreade hws hkinds₄ (by omega)) fun e' c₅ he' hkinds₅ _ => ?_
  refine gives_bind gives_freshId fun id c₆ _ hkinds₆ _ => ?_
  refine gives_pure (fun hg => ?_) (hkinds₆.trans hkinds₅)
  rw [Expr.bare, Expr.bare, ha' hg, hb' hg, he' hg]

theorem givesPhrase_chain {l e : Expr} (hl : Spells g (.operand l) ts us)
    (he : Spells g (.tail l e) us vs) (ihl : GivesPhrase g (.operand l) ts us)
    (ihe : GivesPhrase g (.tail l e) us vs) : GivesPhrase g (.chain e) ts vs := by
  intro hread hvs c bound hc hbound
  have hle := hl.length_le
  obtain ⟨n, rfl⟩ : ∃ n, bound = n + 1 := ⟨bound - 1, by omega⟩
  have hus : OperandEnds us := he.operandEnds hvs
  refine gives_bind (ihl hread hus hc (by omega)) fun l' c₁ hl' hkinds₁ _ => ?_
  exact ihe (hread.suffix hl.suffix_of) hvs hkinds₁ (by omega) hl'

theorem givesPhrase_noTail {e : Expr} : GivesPhrase g (.tail e e) ts ts := by
  intro _ hts c bound e' hc hbound he'
  obtain ⟨n, rfl⟩ : ∃ n, bound = n + 1 := ⟨bound - 1, by omega⟩
  refine gives_bind gives_kind? ?_
  rintro _ c₁ rfl hkinds₁ -
  have hend : c.kinds.head?.bind operator? = none := hc ▸ hts.noOperator
  rw [hend]
  exact gives_pure he' (hkinds₁.trans hc)

theorem givesPhrase_tail {node : Node} {k : TokenKind} {op : BinaryOp} {l r e : Expr}
    (hop : operator? k = some op) (hr : Spells g (.operand r) ts us)
    (he : Spells g (.tail (.binary node op l r) e) us vs) (ihr : GivesPhrase g (.operand r) ts us)
    (ihe : GivesPhrase g (.tail (.binary node op l r) e) us vs) :
    GivesPhrase g (.tail l e) (k :: ts) vs := by
  intro hread hvs c bound l' hc hbound hl'
  have hle := hr.length_le
  rw [List.length_cons] at hbound
  obtain ⟨n, rfl⟩ : ∃ n, bound = n + 1 := ⟨bound - 1, by omega⟩
  have hus : OperandEnds us := he.operandEnds hvs
  refine gives_bind gives_kind? ?_
  rintro _ c₁ rfl hkinds₁ -
  have hnext : c.kinds.head?.bind operator? = some op := by rw [hc]; exact hop
  rw [hnext]
  refine gives_bind (gives_advance (hkinds₁.trans hc)) fun _ c₂ _ hkinds₂ _ => ?_
  refine gives_bind (ihr hread.tail hus hkinds₂ (by omega)) fun r' c₃ hr' hkinds₃ _ => ?_
  refine gives_bind gives_freshId fun id c₄ _ hkinds₄ _ => ?_
  refine ihe (hread.tail.suffix hr.suffix_of) hvs (hkinds₄.trans hkinds₃) (by omega) fun hg => ?_
  rw [Expr.bare, Expr.bare, hl' hg, hr' hg]

theorem gives_literal (literal : Node → Expr) {e : Expr} {k : TokenKind} {start : Span}
    (hbare : ∀ node, (literal node).bare = e.bare) (hc : c.kinds = k :: ts) :
    Gives (do advance; return literal ⟨← freshId, start⟩) c ts
      fun e' => g = true → e'.bare = e.bare := by
  refine gives_bind (gives_advance hc) fun _ c₁ _ hkinds₁ _ => ?_
  refine gives_bind gives_freshId fun id c₂ _ hkinds₂ _ => ?_
  exact gives_pure (fun _ => hbare _) (hkinds₂.trans hkinds₁)

theorem givesPhrase_string {node : Node} {text : String} :
    GivesPhrase g (.operand (.string node (unquote text))) (.string text :: ts) ts := by
  intro _ _ c bound hc hbound
  obtain ⟨n, rfl⟩ : ∃ n, bound = n + 1 := ⟨bound - 1, by omega⟩
  refine gives_first hc fun start c₁ hkinds₁ _ => ?_
  exact gives_literal (.string · (unquote text)) (fun _ => by simp) hkinds₁

theorem givesPhrase_boolean {node : Node} {value : Bool} :
    GivesPhrase g (.operand (.boolean node value)) (.boolean value :: ts) ts := by
  intro _ _ c bound hc hbound
  obtain ⟨n, rfl⟩ : ∃ n, bound = n + 1 := ⟨bound - 1, by omega⟩
  refine gives_first hc fun start c₁ hkinds₁ _ => ?_
  exact gives_literal (.boolean · value) (fun _ => by simp) hkinds₁

theorem givesPhrase_number {node : Node} {text : String} {value : Binary64}
    (hvalue : ∀ v, Binary64.read? text = some v → value = v) :
    GivesPhrase g (.operand (.number node value)) (.number text :: ts) ts := by
  intro hread _ c bound hc hbound
  obtain ⟨n, rfl⟩ : ∃ n, bound = n + 1 := ⟨bound - 1, by omega⟩
  obtain ⟨v, hv⟩ := Option.isSome_iff_exists.1 (hread text (by simp))
  refine gives_first hc fun start c₁ hkinds₁ _ => ?_
  dsimp only
  rw [hv]
  exact gives_literal (.number · v) (fun _ => by simp [hvalue v hv]) hkinds₁

theorem givesPhrase_ident {node : Node} {name : String} :
    GivesPhrase g (.operand (.ident node name)) (.ident name :: ts) ts := by
  intro _ hts c bound hc hbound
  obtain ⟨n, rfl⟩ : ∃ n, bound = n + 1 := ⟨bound - 1, by omega⟩
  refine gives_first hc fun start c₁ hkinds₁ _ => ?_
  refine gives_bind (gives_advance hkinds₁) fun _ c₂ _ hkinds₂ _ => ?_
  refine gives_bind gives_freshId fun id c₃ _ hkinds₃ _ => ?_
  have hkinds : c₃.kinds = ts := hkinds₃.trans hkinds₂
  refine gives_bind (gives_eat_not (hkinds ▸ hts.noParen)) ?_
  rintro _ c₄ rfl hkinds₄ -
  exact gives_pure (fun _ => by simp) (hkinds₄.trans hkinds)

theorem givesPhrase_call {node place : Node} {name : String} {es : List Expr}
    (hes : Spells g (.args es) ts (.mark .parenClose :: us))
    (ih : GivesPhrase g (.args es) ts (.mark .parenClose :: us)) :
    GivesPhrase g (.operand (.call node (.ident place name) es))
      (.ident name :: .mark .parenOpen :: ts) us := by
  intro hread _ c bound hc hbound
  simp only [List.length_cons] at hbound
  obtain ⟨n, rfl⟩ : ∃ n, bound = n + 1 := ⟨bound - 1, by omega⟩
  refine gives_first hc fun start c₁ hkinds₁ _ => ?_
  refine gives_bind (gives_advance hkinds₁) fun _ c₂ _ hkinds₂ _ => ?_
  refine gives_bind gives_freshId fun id c₃ _ hkinds₃ _ => ?_
  refine gives_bind (gives_eat (hkinds₃.trans hkinds₂)) ?_
  rintro _ c₄ rfl hkinds₄ -
  have hrest : ∀ (callee : Expr) (es' : List Expr) (c' : Cursor),
      (g = true → bareExprs es' = bareExprs es) → c'.kinds = .mark .parenClose :: us →
        callee.bare = .ident default name →
        Gives (do
          let stop ← expect (.mark .parenClose)
          return (Expr.call ⟨← freshId, start.merge stop⟩ callee es')) c' us
            fun e => g = true → e.bare = (Expr.call node (.ident place name) es).bare := by
    intro callee es' c' hes' hc' hcallee
    refine gives_bind (gives_expect hc') fun stop c₅ _ hkinds₅ _ => ?_
    refine gives_bind gives_freshId fun id' c₆ _ hkinds₆ _ => ?_
    refine gives_pure (fun hg => ?_) (hkinds₆.trans hkinds₅)
    rw [Expr.bare, Expr.bare, hes' hg, hcallee, Expr.bare]
  refine gives_bind gives_sees ?_
  rintro _ c₅ rfl hkinds₅ -
  rw [hkinds₄]
  rw [hkinds₄] at hkinds₅
  rcases hes.args_cases with ⟨rfl, rfl⟩ | ⟨hne, hhead⟩
  · exact hrest _ [] c₅ (fun _ => rfl) hkinds₅ (by simp)
  · rw [if_neg (by simpa using hhead)]
    exact gives_bind (ih hread.tail.tail rfl hne hkinds₅ (by omega))
      fun es' c₆ hes' hkinds₆ _ => hrest _ es' c₆ hes' hkinds₆ (by simp)

theorem givesPhrase_group {e : Expr} (he : Spells g (.expr e) ts (.mark .parenClose :: us))
    (ih : GivesPhrase g (.expr e) ts (.mark .parenClose :: us)) :
    GivesPhrase g (.operand e) (.mark .parenOpen :: ts) us := by
  intro hread hus c bound hc hbound
  rw [List.length_cons] at hbound
  obtain ⟨n, rfl⟩ : ∃ n, bound = n + 1 := ⟨bound - 1, by omega⟩
  refine gives_first hc fun start c₁ hkinds₁ _ => ?_
  -- no head of an arrow function starts here, so the parenthesis opens a group
  have hscan : (arrowHead.run c₁).1.isOk = false := by
    rw [← Bool.not_eq_true]
    intro hok
    have hreads := (reads_arrowHead (c := c₁)).2
    cases hrun : (arrowHead.run c₁).1 with
    | error fault => simp [hrun, Except.isOk, Except.toBool] at hok
    | ok a =>
      obtain ⟨ts', hts', harrow⟩ := hreads a hrun
      cases hkinds₁.symm.trans hts'
      exact he.not_arrowHead hus harrow
  refine gives_bind (gives_succeeds _) ?_
  rintro _ c₂ rfl hkinds₂ -
  rw [hscan]
  refine gives_bind (gives_advance (hkinds₂.trans hkinds₁)) fun _ c₃ _ hkinds₃ _ => ?_
  refine gives_bind (ih hread.tail (.of_mark (by simp)) hkinds₃ (by omega))
    fun e' c₄ he' hkinds₄ _ => ?_
  refine gives_bind (gives_expect hkinds₄) fun _ c₅ _ hkinds₅ _ => ?_
  exact gives_pure he' hkinds₅

theorem gives_block (place : Node) {ss : List Stmt} {bound : Nat}
    (ih : GivesPhrase g (.statements ss) ts (.mark .braceClose :: us)) (hread : NumbersRead ts)
    (hc : c.kinds = .mark .braceOpen :: ts) (hbound : 4 * ts.length + 5 ≤ bound) :
    Gives (blockWithin bound) c us fun b => g = true → b.bare = (Block.mk place ss).bare := by
  obtain ⟨n, rfl⟩ : ∃ n, bound = n + 1 := ⟨bound - 1, by omega⟩
  refine gives_bind (gives_expect hc) fun start c₁ _ hkinds₁ _ => ?_
  refine gives_bind (ih hread (.inr ⟨rfl, rfl⟩) hkinds₁ (by omega)) fun ss' c₂ hss' hkinds₂ _ => ?_
  refine gives_bind (gives_expect hkinds₂) fun stop c₃ _ hkinds₃ _ => ?_
  refine gives_bind gives_freshId fun id c₄ _ hkinds₄ _ => ?_
  refine gives_pure (fun hg => ?_) (hkinds₄.trans hkinds₃)
  rw [Block.bare, Block.bare, hss' hg]

theorem givesPhrase_arrow {node place : Node} {ps : List Param} {result : Option TypeExpr}
    {ss : List Stmt} {ws : List TokenKind} (hps : SpellsParams g ps ts (.mark .parenClose :: us))
    (hresult : SpellsAnnotated g result us (.mark .arrow :: .mark .braceOpen :: vs))
    (ih : GivesPhrase g (.statements ss) vs (.mark .braceClose :: ws)) :
    GivesPhrase g (.operand (.arrow node ps result ⟨place, ss⟩)) (.mark .parenOpen :: ts) ws := by
  intro hread _ c bound hc hbound
  have hvs : vs <:+ ts :=
    ((List.suffix_cons _ _).trans (List.suffix_cons _ _)).trans
      (hresult.suffix_of.trans ((List.suffix_cons _ _).trans hps.suffix_of))
  have hlength : vs.length + 2 ≤ ts.length := by
    have h₁ := hps.suffix_of.length_le
    have h₂ := hresult.suffix_of.length_le
    simp only [List.length_cons] at h₁ h₂
    omega
  rw [List.length_cons] at hbound
  obtain ⟨n, rfl⟩ : ∃ n, bound = n + 1 := ⟨bound - 1, by omega⟩
  refine gives_first hc fun start c₁ hkinds₁ _ => ?_
  refine gives_bind (gives_succeeds _) ?_
  rintro _ c₂ rfl hkinds₂ -
  rw [(gives_arrowHead hps hresult hkinds₁).isOk]
  refine gives_bind (gives_advance (hkinds₂.trans hkinds₁)) fun _ c₃ _ hkinds₃ _ => ?_
  refine gives_bind (gives_signature hps hresult hkinds₃) ?_
  rintro ⟨ps', result'⟩ c₄ hsig hkinds₄ -
  refine gives_bind (gives_block place ih (hread.tail.suffix hvs) hkinds₄ (by omega))
    fun b c₅ hb hkinds₅ _ => ?_
  refine gives_bind gives_freshId fun id c₆ _ hkinds₆ _ => ?_
  refine gives_pure (fun hg => ?_) (hkinds₆.trans hkinds₅)
  obtain ⟨hps', hresult'⟩ := hsig hg
  rw [Expr.bare, Expr.bare, hps', hresult', hb hg]

theorem gives_enclosed {α : Type} {read : Reader (List α)} {opening closing : Mark} {start : Span}
    {build : Node → List α → Expr} {e : Expr} {P : List α → Prop}
    (hc : c.kinds = .mark opening :: ts)
    (hread : ∀ {c' : Cursor}, c'.kinds = ts → Gives read c' (.mark closing :: us) P)
    (hbuild : ∀ node xs, P xs → g = true → (build node xs).bare = e.bare) :
    Gives (do
      advance
      let xs ← read
      let stop ← expect (.mark closing)
      return build ⟨← freshId, start.merge stop⟩ xs) c us fun e' => g = true → e'.bare = e.bare := by
  refine gives_bind (gives_advance hc) fun _ c₂ _ hkinds₂ _ => ?_
  refine gives_bind (hread hkinds₂) fun xs c₃ hxs hkinds₃ _ => ?_
  refine gives_bind (gives_expect hkinds₃) fun stop c₄ _ hkinds₄ _ => ?_
  refine gives_bind gives_freshId fun id c₅ _ hkinds₅ _ => ?_
  exact gives_pure (hbuild _ xs hxs) (hkinds₅.trans hkinds₄)

theorem givesPhrase_array {node : Node} {es : List Expr}
    (ih : GivesPhrase g (.elements es) ts (.mark .bracketClose :: us)) :
    GivesPhrase g (.operand (.array node es)) (.mark .bracketOpen :: ts) us := by
  intro hread _ c bound hc hbound
  rw [List.length_cons] at hbound
  obtain ⟨n, rfl⟩ : ∃ n, bound = n + 1 := ⟨bound - 1, by omega⟩
  refine gives_first hc fun start c₁ hkinds₁ _ => ?_
  refine gives_enclosed hkinds₁ (fun hkinds₂ => ih hread.tail rfl hkinds₂ (by omega)) ?_
  intro _ es' hes' hg
  rw [Expr.bare, Expr.bare, hes' hg]

theorem givesPhrase_object {node : Node} {ps : List Property}
    (ih : GivesPhrase g (.properties ps) ts (.mark .braceClose :: us)) :
    GivesPhrase g (.operand (.object node ps)) (.mark .braceOpen :: ts) us := by
  intro hread _ c bound hc hbound
  rw [List.length_cons] at hbound
  obtain ⟨n, rfl⟩ : ∃ n, bound = n + 1 := ⟨bound - 1, by omega⟩
  refine gives_first hc fun start c₁ hkinds₁ _ => ?_
  refine gives_enclosed hkinds₁ (fun hkinds₂ => ih hread.tail rfl hkinds₂ (by omega)) ?_
  intro _ ps' hps' hg
  rw [Expr.bare, Expr.bare, hps' hg]

section Lists

variable {α : Type} {read : Reader (List α)} {a : α} {P Q : List α → Prop}

theorem gives_comma (hc : c.kinds = .mark .comma :: ts)
    (hread : ∀ {c' : Cursor}, c'.kinds = ts → Gives read c' us P) (hQ : ∀ as, P as → Q (a :: as)) :
    Gives (do if ← eat (.mark .comma) then return a :: (← read) else return [a]) c us Q := by
  refine gives_bind (gives_eat hc) ?_
  rintro _ c₁ rfl hkinds₁ -
  exact gives_bind (hread hkinds₁) fun as c₂ has hkinds₂ _ => gives_pure (hQ as has) hkinds₂

theorem gives_noComma (hus : us.head? ≠ some (.mark .comma)) (hc : c.kinds = us) (hQ : Q [a]) :
    Gives (do if ← eat (.mark .comma) then return a :: (← read) else return [a]) c us Q := by
  refine gives_bind (gives_eat_not (hc ▸ hus)) ?_
  rintro _ c₁ rfl hkinds₁ -
  exact gives_pure hQ (hkinds₁.trans hc)

end Lists

theorem exprEnds_of_head? {m : Mark} (hm : m = .parenClose ∨ m = .bracketClose ∨ m = .braceClose)
    (h : ts.head? = some (.mark m)) : ExprEnds ts ∧ ts.head? ≠ some (.mark .comma) := by
  obtain ⟨ts', rfl⟩ : ∃ ts', ts = .mark m :: ts' := ⟨_, eq_cons_of_head? (by simp [h])⟩
  rcases hm with rfl | rfl | rfl <;> exact ⟨.of_mark (by simp), by simp⟩

theorem givesPhrase_lastArg {e : Expr} (ih : GivesPhrase g (.expr e) ts us) :
    GivesPhrase g (.args [e]) ts us := by
  intro hread hus _ c bound hc hbound
  obtain ⟨n, rfl⟩ : ∃ n, bound = n + 1 := ⟨bound - 1, by omega⟩
  obtain ⟨hends, hcomma⟩ := exprEnds_of_head? (by simp) hus
  refine gives_bind (ih hread hends hc (by omega)) fun e' c₁ he' hkinds₁ _ => ?_
  refine gives_noComma hcomma hkinds₁ fun hg => ?_
  simp only [bareExprs, he' hg]

theorem givesPhrase_arg {e e' : Expr} {es : List Expr} (he : Spells g (.expr e) ts (.mark .comma :: us))
    (ihe : GivesPhrase g (.expr e) ts (.mark .comma :: us))
    (ihes : GivesPhrase g (.args (e' :: es)) us vs) :
    GivesPhrase g (.args (e :: e' :: es)) ts vs := by
  intro hread hvs _ c bound hc hbound
  have hle := he.length_le
  rw [List.length_cons] at hle
  obtain ⟨n, rfl⟩ : ∃ n, bound = n + 1 := ⟨bound - 1, by omega⟩
  refine gives_bind (ihe hread (.of_mark (by simp)) hc (by omega)) fun a c₁ ha hkinds₁ _ => ?_
  refine gives_comma hkinds₁
    (fun h => ihes (hread.suffix he.suffix_of).tail hvs (by simp) h (by omega)) fun as has hg => ?_
  rw [bareExprs, has hg, ha hg, ← bareExprs]

section Closing

variable {β : Type} {k : TokenKind} {Q : β → Prop} {stop next : Reader β}

theorem gives_item (hne : ts ≠ []) (hhead : ts.head? ≠ some k) (hc : c.kinds = ts)
    (hnext : ∀ {c' : Cursor}, c'.kinds = ts → Gives next c' us Q) :
    Gives (do if (← atEnd) || (← sees k) then stop else next) c us Q := by
  refine gives_bind gives_atEnd ?_
  rintro _ c₁ rfl hkinds₁ -
  refine gives_bind gives_sees ?_
  rintro _ c₂ rfl hkinds₂ -
  rw [if_neg (by simp [hkinds₁, hc, hne, hhead])]
  exact hnext (hkinds₂.trans (hkinds₁.trans hc))

theorem gives_noItem (hhead : ts.head? = some k) (hc : c.kinds = ts)
    (hstop : ∀ {c' : Cursor}, c'.kinds = ts → Gives stop c' us Q) :
    Gives (do if (← atEnd) || (← sees k) then stop else next) c us Q := by
  refine gives_bind gives_atEnd ?_
  rintro _ c₁ rfl hkinds₁ -
  refine gives_bind gives_sees ?_
  rintro _ c₂ rfl hkinds₂ -
  rw [if_pos (by simp [hkinds₁, hc, hhead])]
  exact hstop (hkinds₂.trans (hkinds₁.trans hc))

end Closing

theorem givesPhrase_noElement : GivesPhrase g (.elements []) ts ts := by
  intro _ hts c bound hc hbound
  obtain ⟨n, rfl⟩ : ∃ n, bound = n + 1 := ⟨bound - 1, by omega⟩
  exact gives_noItem hts hc fun hkinds => gives_pure (fun _ => rfl) hkinds

theorem givesPhrase_lastElement {e : Expr} (he : Spells g (.expr e) ts us)
    (ih : GivesPhrase g (.expr e) ts us) : GivesPhrase g (.elements [e]) ts us := by
  intro hread hus c bound hc hbound
  obtain ⟨n, rfl⟩ : ∃ n, bound = n + 1 := ⟨bound - 1, by omega⟩
  obtain ⟨hne, -, -, -, hhead⟩ := he.expr_head
  obtain ⟨hends, hcomma⟩ := exprEnds_of_head? (by simp) hus
  refine gives_item hne hhead hc fun hkinds => ?_
  refine gives_bind (ih hread hends hkinds (by omega)) fun e' c₁ he' hkinds₁ _ => ?_
  refine gives_noComma hcomma hkinds₁ fun hg => ?_
  simp only [bareExprs, he' hg]

theorem givesPhrase_element {e : Expr} {es : List Expr}
    (he : Spells g (.expr e) ts (.mark .comma :: us))
    (ihe : GivesPhrase g (.expr e) ts (.mark .comma :: us))
    (ihes : GivesPhrase g (.elements es) us vs) : GivesPhrase g (.elements (e :: es)) ts vs := by
  intro hread hvs c bound hc hbound
  have hle := he.length_le
  rw [List.length_cons] at hle
  obtain ⟨n, rfl⟩ : ∃ n, bound = n + 1 := ⟨bound - 1, by omega⟩
  obtain ⟨hne, -, -, -, hhead⟩ := he.expr_head
  refine gives_item hne hhead hc fun hkinds => ?_
  refine gives_bind (ihe hread (.of_mark (by simp)) hkinds (by omega)) fun a c₁ ha hkinds₁ _ => ?_
  refine gives_comma hkinds₁
    (fun h => ihes (hread.suffix he.suffix_of).tail hvs h (by omega)) fun as has hg => ?_
  rw [bareExprs, has hg, ha hg, ← bareExprs]

theorem givesPhrase_noProperty : GivesPhrase g (.properties []) ts ts := by
  intro _ hts c bound hc hbound
  obtain ⟨n, rfl⟩ : ∃ n, bound = n + 1 := ⟨bound - 1, by omega⟩
  exact gives_noItem hts hc fun hkinds => gives_pure (fun _ => rfl) hkinds

theorem gives_property {e : Expr} {k : TokenKind} {key : String} {ps : List Property} {n : Nat}
    (hkey : propertyKey? k = some key) (ih : GivesPhrase g (.expr e) ts us) (hread : NumbersRead ts)
    (hends : ExprEnds us) (hc : c.kinds = k :: .mark .colon :: ts) (hbound : 4 * ts.length + 3 ≤ n)
    (hmore : ∀ (p : Property) {c' : Cursor}, (g = true → p.value.bare = e.bare) →
      p.key = key → c'.kinds = us → Gives (do
        if ← eat (.mark .comma) then return p :: (← propertiesWithin n)
        else return [p]) c' vs fun ps' => g = true → bareProperties ps' = bareProperties ps) :
    Gives (propertiesWithin (n + 1)) c vs
      fun ps' => g = true → bareProperties ps' = bareProperties ps := by
  refine gives_item (by simp) ?_ hc fun {c₀} hkinds => ?_
  · rcases propertyKey?_eq_some hkey with rfl | ⟨text, rfl, -⟩ <;> simp
  refine gives_first hkinds fun start c₁ hkinds₁ _ => ?_
  rw [Option.bind_some, hkey]
  refine gives_bind (gives_advance hkinds₁) fun _ c₂ _ hkinds₂ _ => ?_
  refine gives_bind (gives_expect hkinds₂) fun _ c₃ _ hkinds₃ _ => ?_
  refine gives_bind (ih hread hends hkinds₃ hbound) fun e' c₄ he' hkinds₄ _ => ?_
  refine gives_bind gives_freshId fun id c₅ _ hkinds₅ _ => ?_
  exact hmore _ he' rfl (hkinds₅.trans hkinds₄)

theorem givesPhrase_lastProperty {node : Node} {k : TokenKind} {key : String} {e : Expr}
    (hkey : propertyKey? k = some key) (ih : GivesPhrase g (.expr e) ts us) :
    GivesPhrase g (.properties [⟨node, key, e⟩]) (k :: .mark .colon :: ts) us := by
  intro hread hus c bound hc hbound
  simp only [List.length_cons] at hbound
  obtain ⟨n, rfl⟩ : ∃ n, bound = n + 1 := ⟨bound - 1, by omega⟩
  obtain ⟨hends, hcomma⟩ := exprEnds_of_head? (by simp) hus
  refine gives_property hkey ih hread.tail.tail hends hc (by omega) ?_
  rintro ⟨node', key', value⟩ c' hvalue rfl hc'
  refine gives_noComma hcomma hc' fun hg => ?_
  simp only [bareProperties, hvalue hg]

theorem givesPhrase_property {node : Node} {k : TokenKind} {key : String} {e : Expr}
    {ps : List Property} (hkey : propertyKey? k = some key)
    (he : Spells g (.expr e) ts (.mark .comma :: us))
    (ihe : GivesPhrase g (.expr e) ts (.mark .comma :: us))
    (ihps : GivesPhrase g (.properties ps) us vs) :
    GivesPhrase g (.properties (⟨node, key, e⟩ :: ps)) (k :: .mark .colon :: ts) vs := by
  intro hread hvs c bound hc hbound
  have hle := he.length_le
  simp only [List.length_cons] at hbound hle
  obtain ⟨n, rfl⟩ : ∃ n, bound = n + 1 := ⟨bound - 1, by omega⟩
  refine gives_property hkey ihe hread.tail.tail (.of_mark (by simp)) hc (by omega) ?_
  rintro ⟨node', key', value⟩ c' hvalue rfl hc'
  refine gives_comma hc'
    (fun h => ihps (hread.tail.tail.suffix he.suffix_of).tail hvs h (by omega)) fun ps' hps' hg => ?_
  simp only [bareProperties, hvalue hg, hps' hg]

theorem givesPhrase_noStatement : GivesPhrase g (.statements []) ts ts := by
  intro _ nested hts c bound hc hbound
  obtain ⟨n, rfl⟩ : ∃ n, bound = n + 1 := ⟨bound - 1, by omega⟩
  refine gives_bind gives_atEnd ?_
  rintro _ c₁ rfl hkinds₁ -
  refine gives_bind gives_sees ?_
  rintro _ c₂ rfl hkinds₂ -
  have hkinds := hkinds₁.trans hc
  have hstop : (c.kinds.isEmpty || nested && c₁.kinds.head? == some (.mark .braceClose)) = true := by
    rcases hts with rfl | ⟨rfl, hhead⟩
    · simp [hc]
    · simp [hkinds, hhead]
  rw [if_pos hstop]
  exact gives_pure (fun _ => rfl) (hkinds₂.trans hkinds)

theorem givesPhrase_statement {s : Stmt} {ss : List Stmt} (hs : Spells g (.statement s) ts us)
    (hss : Spells g (.statements ss) us vs) (ihs : GivesPhrase g (.statement s) ts us)
    (ihss : GivesPhrase g (.statements ss) us vs) :
    GivesPhrase g (.statements (s :: ss)) ts vs := by
  intro hread nested hvs c bound hc hbound
  have hlt := hs.statement_length_lt
  obtain ⟨n, rfl⟩ : ∃ n, bound = n + 1 := ⟨bound - 1, by omega⟩
  have hends : StatementEnds us := hss.statementEnds (hvs.imp_right And.right)
  obtain ⟨w, hw⟩ := hs.statement_head
  refine gives_bind gives_atEnd ?_
  rintro _ c₁ rfl hkinds₁ -
  refine gives_bind gives_sees ?_
  rintro _ c₂ rfl hkinds₂ -
  have hkinds := hkinds₁.trans hc
  have hne : ts ≠ [] := by
    rintro rfl
    simp at hw
  have hgo : ¬ (c.kinds.isEmpty || nested && c₁.kinds.head? == some (.mark .braceClose)) = true := by
    simp [hc, hkinds, hw, hne]
  rw [if_neg hgo]
  refine gives_bind (gives_attempt (ihs hread hends (hkinds₂.trans hkinds) (by omega))) ?_
  rintro _ c₃ ⟨s', rfl, hs'⟩ hkinds₃ -
  refine gives_bind (ihss (hread.suffix hs.suffix_of) hvs hkinds₃ (by omega))
    fun ss' c₄ hss' hkinds₄ _ => ?_
  refine gives_pure (fun hg => ?_) hkinds₄
  rw [bareStmts, bareStmts, hs' hg, hss' hg]

theorem gives_terminator {s : Stmt} {span : Span} (make : Node → Stmt)
    (hts : Terminated ts us) (hus : StatementEnds us) (hc : c.kinds = ts)
    (hs : g = true → ∀ node, (make node).bare = s.bare) :
    Gives (do
      let _ ← eat (.mark .semicolon)
      return make ⟨← freshId, span⟩) c us fun s' => g = true → s'.bare = s.bare := by
  have hlast : ∀ {c' : Cursor}, c'.kinds = us → Gives (do return make ⟨← freshId, span⟩) c' us
      fun s' => g = true → s'.bare = s.bare := by
    intro c' hc'
    refine gives_bind gives_freshId fun id c₁ _ hkinds₁ _ => ?_
    exact gives_pure (fun hg => hs hg _) (hkinds₁.trans hc')
  rcases hts with rfl | rfl
  · refine gives_bind (gives_eat_not (hc ▸ hus.noSemicolon)) fun _ c₁ _ hkinds₁ _ => ?_
    exact hlast (hkinds₁.trans hc)
  · exact gives_bind (gives_eat hc) fun _ c₁ _ hkinds₁ _ => hlast hkinds₁

theorem givesPhrase_const {node place : Node} {name : String} {type : Option TypeExpr}
    {value : Expr} {ws : List TokenKind} (htype : SpellsAnnotated g type ts (.mark .equals :: us))
    (hterm : Terminated vs ws) (ih : GivesPhrase g (.expr value) us vs) :
    GivesPhrase g (.statement (.const node ⟨place, name⟩ type value))
      (.keyword .const :: .ident name :: ts) ws := by
  intro hread hws c bound hc hbound
  have hle := htype.suffix_of.length_le
  simp only [List.length_cons] at hbound hle
  obtain ⟨n, rfl⟩ : ∃ n, bound = n + 1 := ⟨bound - 1, by omega⟩
  refine gives_first hc fun start c₁ hkinds₁ _ => ?_
  refine gives_bind (gives_advance hkinds₁) fun _ c₂ _ hkinds₂ _ => ?_
  refine gives_bind (gives_expectIdent hkinds₂) ?_
  rintro _ c₃ ⟨span, rfl⟩ hkinds₃ -
  refine gives_bind gives_freshId fun id c₄ _ hkinds₄ _ => ?_
  refine gives_bind (gives_optionalType htype (.of_mark (by decide)) (by simp)
    (hkinds₄.trans hkinds₃)) fun type' c₅ htype' hkinds₅ _ => ?_
  refine gives_bind (gives_expect hkinds₅) fun _ c₆ _ hkinds₆ _ => ?_
  refine gives_bind (ih ((hread.tail.tail.suffix htype.suffix_of).tail) (hterm.exprEnds hws) hkinds₆
    (by omega)) fun value' c₇ hvalue' hkinds₇ _ => ?_
  refine gives_bind gives_get ?_
  rintro _ c₈ rfl hkinds₈ -
  refine gives_terminator (.const · ⟨⟨id, span⟩, name⟩ type' value') hterm hws
    (hkinds₈.trans hkinds₇) fun hg node' => ?_
  rw [Stmt.bare, Stmt.bare, htype'.2 hg, hvalue' hg]

theorem gives_returned {node : Node} {argument argument' : Option Expr} {start : Span}
    (hterm : Terminated ts us) (hus : StatementEnds us) (hc : c.kinds = ts)
    (hbare : g = true → argument'.map Expr.bare = argument.map Expr.bare) :
    Gives (do
      let span := start.merge (← get).last
      let _ ← eat (.mark .semicolon)
      return (Stmt.ret ⟨← freshId, span⟩ argument')) c us
        fun s' => g = true → s'.bare = (Stmt.ret node argument).bare := by
  refine gives_bind gives_get ?_
  rintro _ c₁ rfl hkinds₁ -
  refine gives_terminator (.ret · argument') hterm hus (hkinds₁.trans hc) fun hg node' => ?_
  have hbare := hbare hg
  cases argument <;> cases argument' <;> simp_all

theorem gives_return {node : Node} {argument : Option Expr} {ended : Bool} {n : Nat}
    (hended : (ts.isEmpty || ts.head? == some (.mark .semicolon) ||
      ts.head? == some (.mark .braceClose)) = ended)
    (hargument : ∀ c', c'.kinds = ts →
      Gives (if ended then pure none else some <$> exprWithin n) c' us fun argument' =>
        g = true → argument'.map Expr.bare = argument.map Expr.bare)
    (hterm : Terminated us vs) (hvs : StatementEnds vs) (hc : c.kinds = .keyword .ret :: ts) :
    Gives (statementWithin (n + 1)) c vs fun s' =>
      g = true → s'.bare = (Stmt.ret node argument).bare := by
  refine gives_first hc fun start c₁ hkinds₁ _ => ?_
  refine gives_bind (gives_advance hkinds₁) fun _ c₂ _ hkinds₂ _ => ?_
  refine gives_bind gives_atEnd ?_
  rintro _ c₃ rfl hkinds₃ -
  refine gives_bind gives_sees ?_
  rintro _ c₄ rfl hkinds₄ -
  refine gives_bind gives_sees ?_
  rintro _ c₅ rfl hkinds₅ -
  have hc₃ := hkinds₃.trans hkinds₂
  have hc₄ := hkinds₄.trans hc₃
  rw [hkinds₂, hc₃, hc₄, hended]
  have hread := hargument c₅ (hkinds₅.trans hc₄)
  cases ended <;>
    exact gives_bind hread fun _ _ hbare hkinds _ => gives_returned hterm hvs hkinds hbare

theorem givesPhrase_ret {node : Node} {e : Expr} (he : Spells g (.expr e) ts us)
    (hterm : Terminated us vs) (ih : GivesPhrase g (.expr e) ts us) :
    GivesPhrase g (.statement (.ret node (some e))) (.keyword .ret :: ts) vs := by
  intro hread hvs c bound hc hbound
  rw [List.length_cons] at hbound
  obtain ⟨n, rfl⟩ : ∃ n, bound = n + 1 := ⟨bound - 1, by omega⟩
  obtain ⟨hne, hsemicolon, hbrace, -, -⟩ := he.expr_head
  have hended : (ts.isEmpty || ts.head? == some (.mark .semicolon) ||
      ts.head? == some (.mark .braceClose)) = false := by
    simp [hne, hsemicolon, hbrace]
  refine gives_return hended (fun c₁ hkinds₁ => ?_) hterm hvs hc
  rw [if_neg Bool.false_ne_true, map_eq_pure_bind]
  refine gives_bind (ih hread.tail (hterm.exprEnds hvs) hkinds₁ (by omega)) ?_
  exact fun e' c₂ he' hkinds₂ _ => gives_pure (fun hg => by simp [he' hg]) hkinds₂

theorem givesPhrase_bareRet {node : Node} (hends : EndsReturn ts) (hterm : Terminated ts us) :
    GivesPhrase g (.statement (.ret node none)) (.keyword .ret :: ts) us := by
  intro _ hus c bound hc hbound
  obtain ⟨n, rfl⟩ : ∃ n, bound = n + 1 := ⟨bound - 1, by omega⟩
  have hended : (ts.isEmpty || ts.head? == some (.mark .semicolon) ||
      ts.head? == some (.mark .braceClose)) = true := by
    rcases hends with rfl | h | h <;> simp [*]
  exact gives_return hended (fun c₁ hkinds₁ => gives_pure (fun _ => rfl) hkinds₁) hterm hus hc

theorem givesPhrase {ph : Phrase} (h : Spells g ph ts us) : GivesPhrase g ph ts us := by
  induction h with
  | noStatement => exact givesPhrase_noStatement
  | statement hs hss ihs ihss => exact givesPhrase_statement hs hss ihs ihss
  | const htype _ hterm ih => exact givesPhrase_const htype hterm ih
  | ret he hterm ih => exact givesPhrase_ret he hterm ih
  | bareRet hends hterm => exact givesPhrase_bareRet hends hterm
  | expr _ ih => exact givesPhrase_expr ih
  | conditional ha hb he iha ihb ihe => exact givesPhrase_conditional ha hb he iha ihb ihe
  | chain hl he ihl ihe => exact givesPhrase_chain hl he ihl ihe
  | noTail => exact givesPhrase_noTail
  | tail hop hr he ihr ihe => exact givesPhrase_tail hop hr he ihr ihe
  | string => exact givesPhrase_string
  | number hvalue => exact givesPhrase_number hvalue
  | boolean => exact givesPhrase_boolean
  | ident => exact givesPhrase_ident
  | call hes ih => exact givesPhrase_call hes ih
  | group he ih => exact givesPhrase_group he ih
  | arrow hps hresult _ ih => exact givesPhrase_arrow hps hresult ih
  | array _ ih => exact givesPhrase_array ih
  | object _ ih => exact givesPhrase_object ih
  | noArg => exact fun _ _ hne => absurd rfl hne
  | lastArg _ ih => exact givesPhrase_lastArg ih
  | arg he _ ihe ihes => exact givesPhrase_arg he ihe ihes
  | noElement => exact givesPhrase_noElement
  | lastElement he ih => exact givesPhrase_lastElement he ih
  | element he _ ihe ihes => exact givesPhrase_element he ihe ihes
  | noProperty => exact givesPhrase_noProperty
  | lastProperty hkey _ ih => exact givesPhrase_lastProperty hkey ih
  | property hkey he _ ihe ihps => exact givesPhrase_property hkey he ihe ihps

theorem gives_depthBound : Gives depthBound c c.kinds (· = 4 * c.kinds.length + 4) :=
  ⟨⟨_, rfl, by rw [c.length_kinds]⟩, rfl, rfl⟩

/-- Tokens that spell statements are read without a fault, and as these statements if the spelling
is greedy. -/
theorem gives_statements {ss : List Stmt} (h : Spells g (.statements ss) c.kinds [])
    (hread : NumbersRead c.kinds) :
    Gives statements c [] fun ss' => g = true → bareStmts ss' = bareStmts ss := by
  refine gives_bind gives_depthBound ?_
  rintro _ c₁ rfl hkinds -
  exact givesPhrase h hread (.inl rfl) hkinds (Nat.le_refl _)

end Reader

end ArrowCheck
