import ArrowCheck.Proofs.Grammar.Acceptance
import ArrowCheck.Proofs.Grammar.Scanning
import ArrowCheck.Proofs.Grammar.TypeBuilding

namespace ArrowCheck

open Shape

@[simp]
theorem Expr.span_shape (e : Expr) : e.shape.span = e.span := by cases e <;> rfl

theorem Block.span_shape (b : Block) : b.shape.span = b.node.span := by cases b; rfl

variable {ts : List Token} {c c₀ : Cursor} {bound : Nat}

theorem Cursor.skipUntil_next {stops : TokenKind → Bool} {t : Token} {rest : List Token}
    (hrest : c.rest = t :: rest) (ht : stops t.kind = false) :
    c.skipUntil stops = c.next.skipUntil stops := by
  obtain ⟨_, last, stop, nextId, faults⟩ := c
  cases hrest
  simp [skipUntil, next, List.getLast?_cons, ht]

theorem moved_skipUntil (stops : TokenKind → Bool) (h : c.On ts) : Moved ts c (c.skipUntil stops) := by
  have hskip : ∀ (rest : List Token) {c : Cursor}, c.rest = rest → c.On ts →
      Moved ts c (c.skipUntil stops) := by
    intro rest
    induction rest with
    | nil =>
      intro c hrest hc
      have hstay : c.skipUntil stops = c := by
        obtain ⟨_, last, stop, nextId, faults⟩ := c
        cases hrest
        rfl
      rw [hstay]
      exact .refl hc
    | cons t rest ih =>
      intro c hrest hc
      cases ht : stops t.kind with
      | true =>
        have hstay : c.skipUntil stops = c := by
          obtain ⟨_, last, stop, nextId, faults⟩ := c
          cases hrest
          simp [Cursor.skipUntil, ht]
        rw [hstay]
        exact .refl hc
      | false =>
        have hkind : c.kind? = some t.kind := by rw [Cursor.kind?, hrest]; rfl
        have hnext := ((Built.start hc).advance hkind).toMoved
        have hrest' : c.next.rest = rest := by rw [Cursor.next, hrest]
        rw [Cursor.skipUntil_next hrest ht]
        exact hnext.trans (ih hrest' hnext.on)
  exact hskip c.rest rfl h

namespace Reader

theorem moved_skipStatement (nested : Bool) (h : c.On ts) :
    Meets (skipStatement nested) c fun x c' => x = .ok () ∧ Moved ts c c' := by
  have hskip := moved_skipUntil
    (fun k => k == .mark .semicolon || (nested && k == .mark .braceClose)) h
  unfold skipStatement eat
  rw [meets_modify, bind_assoc, meets_sees]
  split
  · rename_i hk
    exact ⟨rfl, hskip.trans ((Built.start hskip.on).advance (beq_iff_eq.mp hk)).toMoved⟩
  · exact ⟨rfl, hskip⟩

structure ProgramBuilders (ts : List Token) (bound : Nat) : Prop where
  expr : Builds ts (exprWithin bound) fun e => [e.shape]
  chain : Builds ts (chainWithin bound) fun e => [e.shape]
  more : ∀ {c₀ c : Cursor} {left : Expr}, Built ts c₀ c [left.shape] →
    Meets (moreWithin bound left) c (Yields ts c₀ fun e => [e.shape])
  operand : Builds ts (operandWithin bound) fun e => [e.shape]
  args : Builds ts (argsWithin bound) exprShapes
  elements : Builds ts (elementsWithin bound) exprShapes
  properties : Builds ts (propertiesWithin bound) propertyShapes
  block : Builds ts (blockWithin bound) fun b => [b.shape]
  statements : ∀ nested, Builds ts (statementsWithin bound nested) stmtShapes
  statement : Builds ts (statementWithin bound) fun s => [s.shape]

namespace ProgramBuilders

theorem expr_succ (h : ProgramBuilders ts bound) :
    Builds ts (exprWithin (bound + 1)) fun e => [e.shape] := by
  intro c hc
  apply yields_bind (.start hc) h.chain
  intro test c₁ h₁
  apply yields_bind h₁ (builds_eat _)
  intro eaten c₂ h₂
  cases eaten with
  | false => exact yields_pure h₂
  | true =>
    apply yields_bind h₂ h.expr
    intro consequent c₃ h₃
    apply yields_bind h₃ (builds_expect _)
    intro _ c₄ h₄
    apply yields_bind h₄.drop h.expr
    intro alternate c₅ h₅
    have hnode := h₅.merge test.shape [consequent.shape] alternate.shape
      [test.shape, consequent.shape, alternate.shape] (List.Sublist.refl _) rfl
    rw [test.span_shape, alternate.span_shape] at hnode
    exact yields_number [] hnode fun id c₆ h₆ => yields_pure h₆

theorem chain_succ (h : ProgramBuilders ts bound) :
    Builds ts (chainWithin (bound + 1)) fun e => [e.shape] :=
  fun hc => yields_bind (.start hc) h.operand fun _ _ h₁ => h.more h₁

theorem more_succ (h : ProgramBuilders ts bound) {left : Expr} (h₀ : Built ts c₀ c [left.shape]) :
    Meets (moreWithin (bound + 1) left) c (Yields ts c₀ fun e => [e.shape]) := by
  unfold moreWithin
  rw [meets_kind?]
  cases hop : c.kind?.bind operator? with
  | none => exact yields_pure h₀
  | some op =>
    obtain ⟨k, hk, -⟩ := Option.bind_eq_some_iff.mp hop
    apply yields_advance h₀ hk
    intro c₁ h₁
    apply yields_bind h₁ h.operand
    intro right c₂ h₂
    have hnode := h₂.merge left.shape [leaf c.here] right.shape [left.shape, right.shape] (by simp)
      (by simp [idsOf, leaf, Shape.ids])
    rw [left.span_shape, right.span_shape] at hnode
    exact yields_number [] hnode fun id c₃ h₃ => h.more h₃

theorem arrow_builds (h : ProgramBuilders ts bound) {start : Span} (h₀ : Built ts c₀ c [leaf start]) :
    Meets (do
      let (params, result) ← signature
      let body ← blockWithin bound
      let id ← freshId
      return Expr.arrow ⟨id, start.merge body.node.span⟩ params result body) c
        (Yields ts c₀ fun e => [e.shape]) := by
  apply yields_bind h₀ builds_signature
  rintro ⟨params, result⟩ c₁ h₁
  apply yields_bind h₁ h.block
  intro body c₂ h₂
  have hnode := h₂.headed (params.map Param.shape ++ optionalShape result) body.shape
  rw [body.span_shape] at hnode
  exact yields_number [] hnode fun id c₃ h₃ => yields_pure h₃

theorem literal_builds {start : Span} (h₀ : Built ts c₀ c [leaf start]) (e : Node → Expr)
    (he : ∀ n, (e n).shape = .node (some n.id) n.span []) :
    Meets (do return e ⟨← freshId, start⟩) c (Yields ts c₀ fun e => [e.shape]) := by
  apply yields_number [] h₀
  intro id c₁ h₁
  apply yields_pure
  rwa [he]

theorem call_builds (h : ProgramBuilders ts bound) {start : Span} {name : String}
    (h₀ : Built ts c₀ c [leaf start]) :
    Meets (do
      let callee : Expr := .ident ⟨← freshId, start⟩ name
      if ← eat (.mark .parenOpen) then
        let args ← if ← sees (.mark .parenClose) then pure [] else argsWithin bound
        let stop ← expect (.mark .parenClose)
        return .call ⟨← freshId, start.merge stop⟩ callee args
      else
        return callee) c (Yields ts c₀ fun e => [e.shape]) := by
  apply yields_number [] h₀
  intro id c₁ h₁
  apply yields_bind h₁ (builds_eat _)
  intro eaten c₂ h₂
  cases eaten with
  | false => exact yields_pure h₂
  | true =>
    -- the arguments have been read
    have hrest : ∀ (args : List Expr) (c' : Cursor),
        Built ts c₀ c' (.node (some id) start [] :: exprShapes args) → Meets (do
          let stop ← expect (.mark .parenClose)
          return Expr.call ⟨← freshId, start.merge stop⟩ (.ident ⟨id, start⟩ name) args) c'
          (Yields ts c₀ fun e => [e.shape]) := by
      intro args c' h'
      apply yields_bind h' (builds_expect _)
      intro stop c₃ h₃
      have hnode := h₃.merge (.node (some id) start []) (exprShapes args) (leaf stop)
        (.node (some id) start [] :: exprShapes args) (List.sublist_append_left _ _)
        (by simp [idsOf, leaf, Shape.ids])
      exact yields_number [] hnode fun id' c₄ h₄ => yields_pure h₄
    rw [if_pos rfl, meets_sees]
    split
    · exact hrest [] c₂ h₂
    · exact yields_bind h₂ h.args fun args c₃ h₃ => hrest args c₃ h₃

theorem array_builds (h : ProgramBuilders ts bound) {start : Span} (h₀ : Built ts c₀ c [leaf start]) :
    Meets (do
      let elements ← elementsWithin bound
      let stop ← expect (.mark .bracketClose)
      return Expr.array ⟨← freshId, start.merge stop⟩ elements) c
        (Yields ts c₀ fun e => [e.shape]) := by
  apply yields_bind h₀ h.elements
  intro elements c₁ h₁
  apply yields_bind h₁ (builds_expect _)
  intro stop c₂ h₂
  exact yields_number [] h₂.brackets fun id c₃ h₃ => yields_pure h₃

theorem object_builds (h : ProgramBuilders ts bound) {start : Span} (h₀ : Built ts c₀ c [leaf start]) :
    Meets (do
      let properties ← propertiesWithin bound
      let stop ← expect (.mark .braceClose)
      return Expr.object ⟨← freshId, start.merge stop⟩ properties) c
        (Yields ts c₀ fun e => [e.shape]) := by
  apply yields_bind h₀ h.properties
  intro properties c₁ h₁
  apply yields_bind h₁ (builds_expect _)
  intro stop c₂ h₂
  exact yields_number [] h₂.brackets fun id c₃ h₃ => yields_pure h₃

theorem operand_succ (h : ProgramBuilders ts bound) :
    Builds ts (operandWithin (bound + 1)) fun e => [e.shape] := by
  intro c hc
  have h₀ := Built.start hc
  unfold operandWithin
  rw [meets_here, meets_kind?]
  split
  · rename_i hk
    rw [meets_succeeds]
    split
    · exact yields_advance h₀ hk fun c₁ h₁ => h.arrow_builds h₁
    · apply yields_advance h₀ hk
      intro c₁ h₁
      apply yields_bind (Built.drop h₁) h.expr
      intro inner c₂ h₂
      exact yields_bind h₂ (builds_expect _) fun _ c₃ h₃ => yields_pure h₃.drop
  · rename_i text hk
    exact yields_advance h₀ hk fun c₁ h₁ => literal_builds h₁ (.string · _) fun _ => rfl
  · rename_i text hk
    apply yields_advance h₀ hk
    intro c₁ h₁
    split
    · exact literal_builds h₁ (.number · _) fun _ => rfl
    · exact yields_throw h₁ _
  · rename_i value hk
    exact yields_advance h₀ hk fun c₁ h₁ => literal_builds h₁ (.boolean · _) fun _ => rfl
  · rename_i name hk
    exact yields_advance h₀ hk fun c₁ h₁ => h.call_builds h₁
  · rename_i hk
    exact yields_advance h₀ hk fun c₁ h₁ => h.array_builds h₁
  · rename_i hk
    exact yields_advance h₀ hk fun c₁ h₁ => h.object_builds h₁
  · exact yields_unexpected h₀ _

theorem args_succ (h : ProgramBuilders ts bound) : Builds ts (argsWithin (bound + 1)) exprShapes := by
  intro c hc
  apply yields_bind (.start hc) h.expr
  intro arg c₁ h₁
  apply yields_bind h₁ (builds_eat _)
  intro eaten c₂ h₂
  cases eaten with
  | false => exact yields_pure h₂
  | true => exact yields_bind h₂ h.args fun args c₃ h₃ => yields_pure h₃

theorem elements_succ (h : ProgramBuilders ts bound) :
    Builds ts (elementsWithin (bound + 1)) exprShapes := by
  intro c hc
  unfold elementsWithin
  rw [meets_atEnd, meets_sees]
  split
  · exact yields_pure (.start hc)
  · apply yields_bind (.start hc) h.expr
    intro element c₁ h₁
    apply yields_bind h₁ (builds_eat _)
    intro eaten c₂ h₂
    cases eaten with
    | false => exact yields_pure h₂
    | true => exact yields_bind h₂ h.elements fun elements c₃ h₃ => yields_pure h₃

theorem properties_succ (h : ProgramBuilders ts bound) :
    Builds ts (propertiesWithin (bound + 1)) propertyShapes := by
  intro c hc
  have h₀ := Built.start hc
  unfold propertiesWithin
  rw [meets_atEnd, meets_sees]
  split
  · exact yields_pure h₀
  · rw [meets_here, meets_kind?]
    cases hkey : c.kind?.bind propertyKey? with
    | none => exact yields_unexpected h₀ _
    | some key =>
      obtain ⟨k, hk, -⟩ := Option.bind_eq_some_iff.mp hkey
      apply yields_advance h₀ hk
      intro c₁ h₁
      apply yields_bind h₁ (builds_expect _)
      intro _ c₂ h₂
      apply yields_bind h₂.drop h.expr
      intro value c₃ h₃
      have hnode := h₃.headed [] value.shape
      rw [value.span_shape] at hnode
      apply yields_number [] hnode
      intro id c₄ h₄
      apply yields_bind h₄ (builds_eat _)
      intro eaten c₅ h₅
      cases eaten with
      | false => exact yields_pure h₅
      | true => exact yields_bind h₅ h.properties fun properties c₆ h₆ => yields_pure h₆

theorem block_succ (h : ProgramBuilders ts bound) :
    Builds ts (blockWithin (bound + 1)) fun b => [b.shape] := by
  intro c hc
  apply yields_bind (.start hc) (builds_expect _)
  intro start c₁ h₁
  apply yields_bind h₁ (h.statements true)
  intro statements c₂ h₂
  apply yields_bind h₂ (builds_expect _)
  intro stop c₃ h₃
  exact yields_number [] h₃.brackets fun id c₄ h₄ => yields_pure h₄

theorem statements_succ (h : ProgramBuilders ts bound) (nested : Bool) :
    Builds ts (statementsWithin (bound + 1) nested) stmtShapes := by
  intro c hc
  have h₀ := Built.start hc
  unfold statementsWithin
  rw [meets_atEnd, meets_sees]
  split
  · exact yields_pure h₀
  · apply yields_attempt h₀ h.statement
    · intro statement c₁ h₁
      exact yields_bind h₁ (h.statements nested) fun statements c₂ h₂ => yields_pure h₂
    · intro fault c₁ h₁
      -- the fault is recorded, so ids may be missing from here on
      have hrecorded : Moved ts c { c₁ with faults := c₁.faults ++ [fault] } :=
        ⟨⟨h₁.on.ordered, h₁.on.rest, h₁.on.ahead, h₁.on.behind⟩, h₁.stop_le, h₁.id_le,
          by simpa using Nat.le_succ_of_le h₁.faults_le⟩
      have hlt : c.faults.length < (c₁.faults ++ [fault]).length := by
        have := h₁.faults_le
        simp
        omega
      unfold record
      rw [meets_modify]
      apply meets_bind.mpr
      apply (moved_skipStatement nested hrecorded.on).imp
      rintro x c₂ ⟨rfl, h₂⟩
      have hskipped := h₀.lose (hrecorded.trans h₂) (Nat.lt_of_lt_of_le hlt h₂.faults_le)
      exact ((h.statements nested) hskipped.on).imp fun x c₃ h₃ => Yields.after hskipped h₃

theorem const_builds (h : ProgramBuilders ts bound) {start : Span} (h₀ : Built ts c₀ c [leaf start]) :
    Meets (do
      let (name, place) ← expectIdent "variable name"
      let ident : Ident := ⟨⟨← freshId, place⟩, name⟩
      let type ← optionalType
      let _ ← expect (.mark .equals)
      let value ← exprWithin bound
      let span := start.merge (← get).last
      let _ ← eat (.mark .semicolon)
      return Stmt.const ⟨← freshId, span⟩ ident type value) c (Yields ts c₀ fun s => [s.shape]) := by
  apply yields_bind h₀ (builds_expectIdent _)
  rintro ⟨name, place⟩ c₁ h₁
  apply yields_number [leaf start] h₁
  intro id c₂ h₂
  apply yields_bind h₂ builds_optionalType
  intro type c₃ h₃
  apply yields_bind h₃ (builds_expect _)
  intro _ c₄ h₄
  apply yields_bind h₄.drop h.expr
  intro value c₅ h₅
  have hnode := h₅.mergeLast (.node (some id) place [] :: optionalShape type ++ [value.shape])
    (List.sublist_cons_self _ _) (idsOf_leaf _ _).symm
  rw [meets_get]
  apply yields_bind hnode (builds_eat _)
  intro _ c₆ h₆
  exact yields_number [] h₆ fun id' c₇ h₇ => yields_pure h₇

theorem return_builds (h : ProgramBuilders ts bound) {start : Span} (h₀ : Built ts c₀ c [leaf start]) :
    Meets (do
      let bare := (← atEnd) || (← sees (.mark .semicolon)) || (← sees (.mark .braceClose))
      let argument ← if bare then pure none else some <$> exprWithin bound
      let span := start.merge (← get).last
      let _ ← eat (.mark .semicolon)
      return Stmt.ret ⟨← freshId, span⟩ argument) c (Yields ts c₀ fun s => [s.shape]) := by
  -- what is left to do once the argument has been read
  have hrest : ∀ (argument : Option Expr) (c' : Cursor),
      Built ts c₀ c' (leaf start :: argument.toList.map Expr.shape) → Meets (do
        let span := start.merge (← get).last
        let _ ← eat (.mark .semicolon)
        return Stmt.ret ⟨← freshId, span⟩ argument) c' (Yields ts c₀ fun s => [s.shape]) := by
    intro argument c' h'
    have hnode := h'.mergeLast (argument.toList.map Expr.shape) (List.sublist_cons_self _ _)
      (idsOf_leaf _ _).symm
    rw [meets_get]
    apply yields_bind hnode (builds_eat _)
    intro _ c₁ h₁
    apply yields_number [] h₁
    intro id c₂ h₂
    apply yields_pure
    cases argument with
    | none => exact h₂
    | some e => exact h₂
  rw [meets_atEnd, meets_sees, meets_sees]
  dsimp only
  split
  · exact hrest none c h₀
  · rw [map_eq_pure_bind, bind_assoc]
    exact yields_bind h₀ h.expr fun e c₁ h₁ => hrest (some e) c₁ h₁

theorem statement_succ (h : ProgramBuilders ts bound) :
    Builds ts (statementWithin (bound + 1)) fun s => [s.shape] := by
  intro c hc
  have h₀ := Built.start hc
  unfold statementWithin
  rw [meets_here, meets_kind?]
  split
  · rename_i hk
    exact yields_advance h₀ hk fun c₁ h₁ => h.const_builds h₁
  · rename_i hk
    exact yields_advance h₀ hk fun c₁ h₁ => h.return_builds h₁
  · exact yields_unexpected h₀ _

end ProgramBuilders

theorem programBuilders (bound : Nat) : ProgramBuilders ts bound := by
  induction bound with
  | zero =>
    exact
      { expr := fun hc => yields_unexpected (.start hc) _
        chain := fun hc => yields_unexpected (.start hc) _
        more := fun h => yields_pure h
        operand := fun hc => yields_unexpected (.start hc) _
        args := fun hc => yields_unexpected (.start hc) _
        elements := fun hc => yields_unexpected (.start hc) _
        properties := fun hc => yields_unexpected (.start hc) _
        block := fun hc => yields_unexpected (.start hc) _
        statements := fun _ _ hc => yields_pure (.start hc)
        statement := fun hc => yields_unexpected (.start hc) _ }
  | succ bound ih =>
    exact
      { expr := ih.expr_succ
        chain := ih.chain_succ
        more := ih.more_succ
        operand := ih.operand_succ
        args := ih.args_succ
        elements := ih.elements_succ
        properties := ih.properties_succ
        block := ih.block_succ
        statements := ih.statements_succ
        statement := ih.statement_succ }

theorem builds_statements : Builds ts statements stmtShapes := by
  intro c hc
  have hdepth : Builds ts depthBound fun _ => [] := fun hc => .start hc
  apply yields_bind (.start hc) hdepth
  intro bound c₁ h₁
  have h := (programBuilders bound).statements false h₁.on
  exact h.imp fun _ _ => Yields.after h₁

end Reader

open Reader

theorem on_ofSource (source : String) :
    (Cursor.ofSource source).On (Cursor.ofSource source).rest :=
  ⟨(ordered_tokenize source).filter _, List.suffix_rfl, fun _ _ => Nat.zero_le _, .inl rfl⟩

theorem built_parse (source : String) :
    Built (Cursor.ofSource source).rest (Cursor.ofSource source)
      (statements.run (Cursor.ofSource source)).2 (stmtShapes (parse source).program.statements) := by
  obtain ⟨ss, hss⟩ := succeeds_statements (Cursor.ofSource source)
  have hparsed : (parse source).program.statements = ss := by
    rw [parse_statements, hss]
    rfl
  have hbuilt : Yields _ _ stmtShapes (statements.run (Cursor.ofSource source)).1 _ :=
    builds_statements (on_ofSource source)
  rw [hss] at hbuilt
  rw [hparsed]
  exact hbuilt

theorem cut_of_onTokens {source : String} {s : Span} (h : s.OnTokens (Cursor.ofSource source).rest) :
    s.CutFrom source.toList := by
  have hcut : ∀ t ∈ (Cursor.ofSource source).rest, t.span.CutFrom source.toList :=
    fun t ht => cut_of_mem_tokenize (List.mem_filter.mp ht).1
  obtain ⟨⟨t, ht, hstart⟩, ⟨u, hu, hstop⟩, hlt⟩ := h
  rw [← hstart, ← hstop] at hlt
  have hbetween := (hcut t ht).between (hcut u hu) hlt
  rwa [hstart, hstop] at hbetween

/-- Whatever the text, all nodes of the program that is read run from the start of a token to the end of
that or a later one, over whole characters; only the program itself covers all of the text. Parts of a
node stand inside of it, and each ends before the next one starts. -/
theorem spans_nest (source : String) :
    ∀ x ∈ (parse source).program.shape.nodes,
      (∀ y ∈ x.parts, y.span.RunsOver (Cursor.ofSource source).rest ∧
        y.span.CutFrom source.toList ∧ x.span.start ≤ y.span.start ∧ y.span.stop ≤ x.span.stop) ∧
      x.parts.Pairwise fun y z => y.span.stop ≤ z.span.start := by
  intro x hx
  have hordered := (on_ofSource source).ordered
  have hbuilt := (built_parse source).placed
  cases List.mem_cons.mp hx with
  | inl heq =>
    -- the program covers the whole text
    subst heq
    refine ⟨fun y hy => ?_, hbuilt.pairwise.2⟩
    have htokens := (hbuilt.fits y hy).onTokens
    have hcut := cut_of_onTokens htokens
    exact ⟨htokens.runsOver hordered, hcut, Nat.zero_le _, hcut.stop_le⟩
  | inr hmem =>
    obtain ⟨s, hs, hxs⟩ := mem_nodesOf.mp hmem
    have hparts := ((hbuilt.fits s hs).of_mem hxs).placed
    obtain ⟨hinside, horder⟩ := hparts.pairwise
    refine ⟨fun y hy => ?_, horder⟩
    have htokens := (hparts.fits y hy).onTokens
    exact ⟨htokens.runsOver hordered, cut_of_onTokens htokens, hinside y hy⟩

/-- The first statement is not read, and the product starts within the brackets of its first part. -/
theorem grouped_product_nests : ∃ source,
    source = "const = 1; const f = (a: A | B[]) => \x7b return (a + 1) * 2 \x7d" ∧
      ∃ x ∈ (parse source).program.shape.nodes,
        x.span = ⟨47, 57⟩ ∧ x.parts.map Shape.span = [⟨47, 52⟩, ⟨56, 57⟩] ∧
        (∀ y ∈ x.parts, x.span.start ≤ y.span.start ∧ y.span.stop ≤ x.span.stop) ∧
        x.parts.Pairwise fun y z => y.span.stop ≤ z.span.start := by
  let source := "const = 1; const f = (a: A | B[]) => \x7b return (a + 1) * 2 \x7d"
  have h : (parse source).program.shape.nodes[11]?.map
      (fun x => (x.span, x.parts.map Shape.span)) = some (⟨47, 57⟩, [⟨47, 52⟩, ⟨56, 57⟩]) := by
    decide +kernel
  obtain ⟨x, hx, hspans⟩ := Option.map_eq_some_iff.mp h
  obtain ⟨hspan, hparts⟩ := Prod.mk.inj hspans
  have hmem := List.mem_of_getElem? hx
  obtain ⟨hinside, horder⟩ := spans_nest source x hmem
  exact ⟨source, rfl, x, hmem, hspan, hparts, fun y hy => (hinside y hy).2.2, horder⟩

/-- Whatever the text, ids grow in post-order and are below the number of ids given. All of these
are there if no fault is reported but those of unreadable text. Looking for the head of an arrow
function gives none. -/
theorem ids_in_postorder (source : String) :
    (parse source).program.shape.ids.Pairwise (· < ·) ∧
      (∀ id ∈ (parse source).program.shape.ids, id < (parse source).nodeCount) ∧
      ((parse source).faults = (lexFaults source).map .lexical →
        (parse source).program.shape.ids = List.range (parse source).nodeCount) ∧
      ∀ c, (arrowHead.run c).2.nextId = c.nextId := by
  have hbuilt := built_parse source
  have hids : (parse source).program.shape.ids =
      idsOf (stmtShapes (parse source).program.statements) := List.append_nil _
  rw [hids]
  refine ⟨?_, fun id hid => ?_, fun hfaults => ?_, unnumbered_arrowHead⟩
  · exact (List.Ico.pairwise_lt _ _).sublist hbuilt.ids
  · exact (List.Ico.mem.mp (hbuilt.ids.subset hid)).2
  · rw [parse_faults] at hfaults
    rw [hbuilt.dense (congrArg List.length hfaults)]
    exact List.Ico.zero_bot _

/-- The text has an unreadable character and the head of an arrow function, which is read twice. -/
theorem arrow_ids_dense : ∃ source, source = "const f = (a: A) => \x7b return @ (a + 1) * g(2) \x7d" ∧
    (parse source).faults = (lexFaults source).map .lexical ∧ (parse source).nodeCount = 13 ∧
    (parse source).program.shape.ids = List.range (parse source).nodeCount :=
  ⟨_, rfl, by decide +kernel, by decide +kernel, (ids_in_postorder _).2.2.1 (by decide +kernel)⟩

end ArrowCheck
