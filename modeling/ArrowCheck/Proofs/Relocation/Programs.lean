import ArrowCheck.Proofs.Grammar.Acceptance
import ArrowCheck.Proofs.Grammar.ProgramBuilding
import ArrowCheck.Proofs.Relocation.Types

namespace ArrowCheck

open Placement

variable {ρ : Placement} {c : Cursor} {bound bound' : Nat}

def AnyToken (_ : TokenKind) : Prop := True

section Skipping

variable {stops : TokenKind → Bool} {t : Token} {rest : List Token}

theorem Cursor.skipUntil_nil (h : c.rest = []) : c.skipUntil stops = c := by
  obtain ⟨_, last, stop, nextId, faults⟩ := c
  cases h
  rfl

theorem Cursor.skipUntil_stop (hrest : c.rest = t :: rest) (ht : stops t.kind = true) :
    c.skipUntil stops = c := by
  obtain ⟨_, last, stop, nextId, faults⟩ := c
  cases hrest
  simp [skipUntil, ht]

theorem way_skipUntil (c : Cursor) : Way AnyToken 0 c (c.skipUntil stops) :=
  ⟨_, List.takeWhile_append_dropWhile.symm, fun _ _ => trivial, Nat.zero_le _⟩

theorem skipUntil_cursor (h : ρ.Hides (c.skipUntil stops)) :
    (ρ.cursor c).skipUntil stops = ρ.cursor (c.skipUntil stops) := by
  have hskip : ∀ (rest : List Token) {c : Cursor}, c.rest = rest → ρ.Hides (c.skipUntil stops) →
      (ρ.cursor c).skipUntil stops = ρ.cursor (c.skipUntil stops) := by
    intro rest
    induction rest with
    | nil =>
      intro c hrest hc
      rw [Cursor.skipUntil_nil hrest] at hc ⊢
      apply Cursor.skipUntil_nil
      rw [cursor, hrest, (hc.whole hrest).1]
      rfl
    | cons t rest ih =>
      intro c hrest hc
      have hrest' : (ρ.cursor c).rest = t.relocate ρ.toRelocation ::
          (rest.map (Token.relocate ρ.toRelocation) ++ ρ.more) := by
        rw [cursor, hrest]
        rfl
      cases ht : stops t.kind with
      | true => rw [Cursor.skipUntil_stop hrest ht, Cursor.skipUntil_stop hrest' ht]
      | false =>
        have hkind : c.kind? = some t.kind := by rw [Cursor.kind?, hrest]; rfl
        have hnext : c.next.rest = rest := by rw [Cursor.next, hrest]
        rw [Cursor.skipUntil_next hrest ht] at hc ⊢
        rw [Cursor.skipUntil_next hrest' ht, next_cursor hkind]
        exact ih hnext hc
  exact hskip c.rest rfl h

end Skipping

def Stmt.withId (id : NodeId) : Stmt → Stmt
  | .const node name type value => .const ⟨id, node.span⟩ name type value
  | .ret node argument => .ret ⟨id, node.span⟩ argument

theorem Stmt.withId_relocate {ρ : Relocation} (id : NodeId) (s : Stmt) :
    (s.withId id).relocate ρ = (s.relocate ρ).withId (id + ρ.ids) := by
  cases s with
  | const node name type value => rfl
  | ret node argument => cases argument <;> rfl

theorem Stmt.withId_withId (id id' : NodeId) (s : Stmt) : (s.withId id').withId id = s.withId id := by
  cases s <;> rfl

namespace Reader

section Recovery

variable {nested : Bool} {n k : Nat}

def endsSkip (nested : Bool) (k : TokenKind) : Bool :=
  k == .mark .semicolon || (nested && k == .mark .braceClose)

theorem mirrors_skip (hway : Way AnyToken k c (c.skipUntil (endsSkip nested)))
    (heat : Mirrors ρ AnyToken True (n - k) (fun u : Unit => u) (do let _ ← eat (.mark .semicolon))
      (do let _ ← eat (.mark .semicolon)) (c.skipUntil (endsSkip nested))) :
    Mirrors ρ AnyToken True n (fun u : Unit => u) (skipStatement nested) (skipStatement nested) c := by
  refine heat.after hway (fun _ _ => .inl trivial) (.inr fun _ hk => hk) rfl fun hc => ?_
  rw [← skipUntil_cursor hc]
  rfl

theorem mirrors_semicolon :
    Mirrors ρ AnyToken True 0 (fun u : Unit => u) (do let _ ← eat (.mark .semicolon))
      (do let _ ← eat (.mark .semicolon)) c :=
  mirrors_eat trivial (fun _ _ => mirrors_pure rfl) fun _ => mirrors_pure rfl

theorem mirrors_skipStatement :
    Mirrors ρ AnyToken True 0 (fun u : Unit => u) (skipStatement nested) (skipStatement nested) c :=
  mirrors_skip (way_skipUntil c) mirrors_semicolon

theorem mirrors_skipFirst {t : Token} {rest : List Token} (hrest : c.rest = t :: rest)
    (hclose : (nested && t.kind == .mark .braceClose) = false) :
    Mirrors ρ AnyToken True 1 (fun u : Unit => u) (skipStatement nested) (skipStatement nested) c := by
  have hkind : c.kind? = some t.kind := by rw [Cursor.kind?, hrest]; rfl
  cases ht : endsSkip nested t.kind with
  | true =>
    have hsemicolon : t.kind = .mark .semicolon := by
      rw [endsSkip, hclose, Bool.or_false] at ht
      exact beq_iff_eq.mp ht
    have hstay := Cursor.skipUntil_stop hrest ht
    apply mirrors_skip (.stay (by rw [hstay]))
    rw [hstay]
    apply mirrors_eat trivial
    · exact fun _ _ => mirrors_pure rfl
    · intro hne
      exact absurd (hkind.trans (congrArg some hsemicolon)) hne
  | false =>
    have hfirst : Way AnyToken 1 c c.next := .next hkind trivial
    have hway : Way AnyToken 1 c (c.skipUntil (endsSkip nested)) := by
      rw [Cursor.skipUntil_next hrest ht]
      exact hfirst.trans (way_skipUntil _) (.inr fun _ hk => hk)
    exact mirrors_skip hway mirrors_semicolon

end Recovery

section Terminators

def statementHead (bound : Nat) : Reader Stmt := do
  let start ← here
  match ← kind? with
  | some (.keyword .const) =>
    advance
    let (name, place) ← expectIdent "variable name"
    let ident : Ident := ⟨⟨← freshId, place⟩, name⟩
    let type ← optionalType
    let _ ← expect (.mark .equals)
    let value ← exprWithin bound
    return .const ⟨0, start.merge (← get).last⟩ ident type value
  | some (.keyword .ret) =>
    advance
    let bare := (← atEnd) || (← sees (.mark .semicolon)) || (← sees (.mark .braceClose))
    let argument ← if bare then pure none else some <$> exprWithin bound
    return .ret ⟨0, start.merge (← get).last⟩ argument
  | _ => unexpected "'const' or 'return'"

/-- The rest of a statement: a semicolon, if there is one, and the id. -/
def statementEnd (s : Stmt) : Reader Stmt := do
  let _ ← eat (.mark .semicolon)
  return s.withId (← freshId)

theorem statementWithin_succ (bound : Nat) :
    statementWithin (bound + 1) = statementHead bound >>= statementEnd := by
  unfold statementWithin statementHead statementEnd
  rw [bind_assoc]
  apply bind_congr
  intro start
  rw [bind_assoc]
  apply bind_congr
  intro next
  cases next with
  | none => rfl
  | some k =>
    cases k with
    | keyword word =>
      cases word with
      | const => simp only [bind_assoc, pure_bind, Stmt.withId]
      | ret =>
        simp only [bind_assoc]
        refine bind_congr fun _ => bind_congr fun _ => bind_congr fun _ => bind_congr fun _ => ?_
        split <;> simp only [bind_assoc, pure_bind, Stmt.withId]
    | _ => rfl

def pastSemicolon (c : Cursor) : Cursor :=
  if c.kind? == some (.mark .semicolon) then c.next else c

theorem run_statementEnd (s : Stmt) (c : Cursor) : (statementEnd s).run c =
    (.ok (s.withId c.nextId), { pastSemicolon c with nextId := c.nextId + 1 }) := by
  have hid : c.next.nextId = c.nextId := by
    obtain ⟨rest, last, stop, nextId, faults⟩ := c
    cases rest <;> rfl
  have hmeets : Meets (statementEnd s) c fun x d =>
      (x, d) = (.ok (s.withId c.nextId), { pastSemicolon c with nextId := c.nextId + 1 }) := by
    unfold statementEnd eat pastSemicolon
    rw [bind_assoc, meets_sees]
    split
    · rw [← hid]
      exact rfl
    · exact rfl
  exact hmeets

theorem pastSemicolon_cursor (h : ρ.Hides c) : pastSemicolon (ρ.cursor c) = ρ.cursor (pastSemicolon c) := by
  unfold pastSemicolon
  rw [kind?_cursor h]
  split
  · rename_i hk
    exact next_cursor (beq_iff_eq.mp hk)
  · rfl

/-- The end of a statement is the same in the other text, even if its semicolon is the last token. -/
theorem statementEnd_cursor (s : Stmt) (h : ρ.Hides c) :
    (statementEnd ((s.relocate ρ.toRelocation).withId 0)).run (ρ.cursor c) =
      (ρ.outcome (Stmt.relocate ρ.toRelocation) ((statementEnd s).run c).1,
        ρ.cursor ((statementEnd s).run c).2) := by
  rw [run_statementEnd, run_statementEnd, pastSemicolon_cursor h, outcome, Stmt.withId_relocate,
    Stmt.withId_withId]
  simp only [cursor, Nat.add_right_comm]

theorem way_statementEnd (s : Stmt) (c : Cursor) : Way AnyToken 0 c ((statementEnd s).run c).2 := by
  rw [run_statementEnd]
  unfold pastSemicolon
  split
  · rename_i hk
    have hway : Way AnyToken 1 c c.next := .next (beq_iff_eq.mp hk) trivial
    exact hway.mono (Nat.zero_le _) fun _ hk => hk
  · exact .stay rfl

theorem mirrors_statementEnd (s : Stmt) :
    Mirrors ρ AnyToken True 0 (Stmt.relocate ρ.toRelocation) (statementEnd s)
      (statementEnd ((s.relocate ρ.toRelocation).withId 0)) c := by
  have hway := way_statementEnd s c
  refine ⟨?_, fun hd => statementEnd_cursor s (hd.of_suffix hway.suffix)⟩
  rw [run_statementEnd] at hway ⊢
  exact hway

end Terminators

/-- The readers of expressions and statements with two bounds, the first of which is large enough. -/
structure ProgramsMirrored (ρ : Placement) (bound bound' : Nat) : Prop where
  expr : ∀ {c : Cursor}, 4 * c.rest.length + 3 ≤ bound →
    Mirrors ρ NoSemicolon True 1 (Expr.relocate ρ.toRelocation) (exprWithin bound) (exprWithin bound') c
  chain : ∀ {c : Cursor}, 4 * c.rest.length + 2 ≤ bound →
    Mirrors ρ NoSemicolon True 1 (Expr.relocate ρ.toRelocation) (chainWithin bound) (chainWithin bound') c
  more : ∀ {c : Cursor} (left : Expr), 4 * c.rest.length + 1 ≤ bound →
    Mirrors ρ NoSemicolon True 0 (Expr.relocate ρ.toRelocation) (moreWithin bound left)
      (moreWithin bound' (left.relocate ρ.toRelocation)) c
  operand : ∀ {c : Cursor}, 4 * c.rest.length + 1 ≤ bound →
    Mirrors ρ NoSemicolon True 1 (Expr.relocate ρ.toRelocation) (operandWithin bound)
      (operandWithin bound') c
  args : ∀ {c : Cursor}, 4 * c.rest.length + 4 ≤ bound →
    Mirrors ρ NoSemicolon True 0 (relocateExprs ρ.toRelocation) (argsWithin bound) (argsWithin bound') c
  elements : ∀ {c : Cursor}, 4 * c.rest.length + 4 ≤ bound →
    Mirrors ρ NoSemicolon True 0 (relocateExprs ρ.toRelocation) (elementsWithin bound)
      (elementsWithin bound') c
  properties : ∀ {c : Cursor}, 4 * c.rest.length + 4 ≤ bound →
    Mirrors ρ NoSemicolon True 0 (relocateProperties ρ.toRelocation) (propertiesWithin bound)
      (propertiesWithin bound') c
  block : ∀ {c : Cursor}, 4 * c.rest.length + 1 ≤ bound →
    Mirrors ρ NoSemicolon True 2 (Block.relocate ρ.toRelocation) (blockWithin bound) (blockWithin bound') c
  statements : ∀ {c : Cursor} (nested : Bool), 4 * c.rest.length + 4 ≤ bound →
    Mirrors ρ AnyToken True 0 (relocateStmts ρ.toRelocation) (statementsWithin bound nested)
      (statementsWithin bound' nested) c
  statement : ∀ {c : Cursor}, 4 * c.rest.length + 3 ≤ bound →
    Mirrors ρ AnyToken True 1 (Stmt.relocate ρ.toRelocation) (statementWithin bound)
      (statementWithin bound') c

namespace ProgramsMirrored

theorem expr_succ (h : ProgramsMirrored ρ bound bound') (hbound : 4 * c.rest.length + 3 ≤ bound + 1) :
    Mirrors ρ NoSemicolon True 1 (Expr.relocate ρ.toRelocation) (exprWithin (bound + 1))
      (exprWithin (bound' + 1)) c := by
  apply mirrors_bind (h.chain (by omega))
  intro test c₁ h₁
  apply mirrors_eat (by simp [NoSemicolon])
  · intro c₂ h₂
    apply mirrors_bind (h.expr (by omega))
    intro consequent c₃ h₃
    apply mirrors_bind (mirrors_expect (by simp [NoSemicolon]))
    intro _ c₄ h₄
    apply mirrors_bind (h.expr (by omega))
    intro alternate c₅ h₅
    apply mirrors_bind mirrors_freshId
    intro id c₆ h₆
    apply mirrors_pure
    rw [Expr.relocate, Node.relocate, Span.relocate_merge, Expr.span_relocate, Expr.span_relocate]
  · exact fun _ => mirrors_pure rfl

theorem chain_succ (h : ProgramsMirrored ρ bound bound') (hbound : 4 * c.rest.length + 2 ≤ bound + 1) :
    Mirrors ρ NoSemicolon True 1 (Expr.relocate ρ.toRelocation) (chainWithin (bound + 1))
      (chainWithin (bound' + 1)) c := by
  apply mirrors_bind (h.operand (by omega))
  intro first c₁ h₁
  exact h.more first (by omega)

theorem more_succ (h : ProgramsMirrored ρ bound bound') (left : Expr)
    (hbound : 4 * c.rest.length + 1 ≤ bound + 1) :
    Mirrors ρ NoSemicolon True 0 (Expr.relocate ρ.toRelocation) (moreWithin (bound + 1) left)
      (moreWithin (bound' + 1) (left.relocate ρ.toRelocation)) c := by
  apply mirrors_kind?
  cases hop : c.kind?.bind operator? with
  | none => exact mirrors_pure rfl
  | some op =>
    obtain ⟨k, hk, hk'⟩ := Option.bind_eq_some_iff.mp hop
    have hne : NoSemicolon k := by
      rintro rfl
      cases hk'
    apply mirrors_advance hk hne
    intro c₁ h₁
    apply mirrors_bind (h.operand (by omega))
    intro right c₂ h₂
    apply mirrors_bind mirrors_freshId
    intro id c₃ h₃
    have hnode : (Expr.binary ⟨id, left.span.merge right.span⟩ op left right).relocate ρ.toRelocation =
        .binary ⟨id + ρ.ids, (left.relocate ρ.toRelocation).span.merge
          (right.relocate ρ.toRelocation).span⟩ op (left.relocate ρ.toRelocation)
          (right.relocate ρ.toRelocation) := by
      rw [Expr.relocate, Node.relocate, Span.relocate_merge, Expr.span_relocate, Expr.span_relocate]
    rw [← hnode]
    exact h.more _ (by omega)

theorem arrow_mirrors (h : ProgramsMirrored ρ bound bound') (start : Span)
    (hbound : 4 * c.rest.length + 1 ≤ bound) :
    Mirrors ρ NoSemicolon True 0 (Expr.relocate ρ.toRelocation) (do
      let (params, result) ← signature
      let body ← blockWithin bound
      let id ← freshId
      return Expr.arrow ⟨id, start.merge body.node.span⟩ params result body) (do
      let (params, result) ← signature
      let body ← blockWithin bound'
      let id ← freshId
      return Expr.arrow ⟨id, (start.relocate ρ.toRelocation).merge body.node.span⟩ params result body)
      c := by
  apply mirrors_bind mirrors_signature.loosen
  rintro ⟨params, result⟩ c₁ h₁
  apply mirrors_bind (h.block (by omega))
  rintro ⟨node, statements⟩ c₂ h₂
  apply mirrors_bind mirrors_freshId
  intro id c₃ h₃
  apply mirrors_pure
  rw [Expr.relocate, Node.relocate, Span.relocate_merge]
  rfl

theorem call_mirrors (h : ProgramsMirrored ρ bound bound') (start : Span) (name : String)
    (hbound : 4 * c.rest.length + 4 ≤ bound) :
    Mirrors ρ NoSemicolon True 0 (Expr.relocate ρ.toRelocation) (do
      let callee : Expr := .ident ⟨← freshId, start⟩ name
      if ← eat (.mark .parenOpen) then
        let args ← if ← sees (.mark .parenClose) then pure [] else argsWithin bound
        let stop ← expect (.mark .parenClose)
        return .call ⟨← freshId, start.merge stop⟩ callee args
      else
        return callee) (do
      let callee : Expr := .ident ⟨← freshId, start.relocate ρ.toRelocation⟩ name
      if ← eat (.mark .parenOpen) then
        let args ← if ← sees (.mark .parenClose) then pure [] else argsWithin bound'
        let stop ← expect (.mark .parenClose)
        return .call ⟨← freshId, (start.relocate ρ.toRelocation).merge stop⟩ callee args
      else
        return callee) c := by
  apply mirrors_bind mirrors_freshId
  intro id c₁ h₁
  apply mirrors_eat (by simp [NoSemicolon])
  · intro c₂ h₂
    -- the arguments have been read
    have hrest : ∀ (args : List Expr) (c : Cursor),
        Mirrors ρ NoSemicolon True 0 (Expr.relocate ρ.toRelocation) (do
          let stop ← expect (.mark .parenClose)
          return Expr.call ⟨← freshId, start.merge stop⟩ (.ident ⟨id, start⟩ name) args) (do
          let stop ← expect (.mark .parenClose)
          return Expr.call ⟨← freshId, (start.relocate ρ.toRelocation).merge stop⟩
            (.ident ⟨id + ρ.ids, start.relocate ρ.toRelocation⟩ name)
            (relocateExprs ρ.toRelocation args)) c := by
      intro args c
      apply mirrors_bind (mirrors_expect (by simp [NoSemicolon]))
      intro stop c₃ h₃
      apply mirrors_bind mirrors_freshId
      intro id' c₄ h₄
      apply mirrors_pure
      rw [Expr.relocate, Node.relocate, Span.relocate_merge]
      rfl
    apply mirrors_sees
    split
    · exact hrest [] c₂
    · exact mirrors_bind (h.args (by omega)) fun args c₃ h₃ => hrest args c₃
  · exact fun _ => mirrors_pure rfl

theorem enclosed_mirrors {α : Type} {read read' : Reader (List α)} {moved : List α → List α}
    {closing : Mark} {build : Node → List α → Expr} (start : Span)
    (hread : Mirrors ρ NoSemicolon True 0 moved read read' c) (hclosing : closing ≠ .semicolon)
    (hbuild : ∀ node xs, (build node xs).relocate ρ.toRelocation =
      build (node.relocate ρ.toRelocation) (moved xs)) :
    Mirrors ρ NoSemicolon True 0 (Expr.relocate ρ.toRelocation) (do
      let xs ← read
      let stop ← expect (.mark closing)
      return build ⟨← freshId, start.merge stop⟩ xs) (do
      let xs ← read'
      let stop ← expect (.mark closing)
      return build ⟨← freshId, (start.relocate ρ.toRelocation).merge stop⟩ xs) c := by
  apply mirrors_bind hread
  intro xs c₁ h₁
  apply mirrors_bind (mirrors_expect (by simpa [NoSemicolon] using hclosing))
  intro stop c₂ h₂
  apply mirrors_bind mirrors_freshId
  intro id c₃ h₃
  apply mirrors_pure
  rw [hbuild, Node.relocate, Span.relocate_merge]

theorem literal_mirrors {start : Span} (e : Node → Expr)
    (he : ∀ n, (e n).relocate ρ.toRelocation = e (n.relocate ρ.toRelocation)) :
    Mirrors ρ NoSemicolon True 0 (Expr.relocate ρ.toRelocation) (do return e ⟨← freshId, start⟩)
      (do return e ⟨← freshId, start.relocate ρ.toRelocation⟩) c := by
  apply mirrors_bind mirrors_freshId
  intro id c₁ h₁
  apply mirrors_pure
  rw [he]
  rfl

theorem operand_succ (h : ProgramsMirrored ρ bound bound') (hbound : 4 * c.rest.length + 1 ≤ bound + 1) :
    Mirrors ρ NoSemicolon True 1 (Expr.relocate ρ.toRelocation) (operandWithin (bound + 1))
      (operandWithin (bound' + 1)) c := by
  apply mirrors_here
  apply mirrors_kind?
  split
  · rename_i hk
    apply mirrors_succeeds mirrors_arrowHead
    intro found
    cases found with
    | true =>
      exact mirrors_advance hk (by simp [NoSemicolon]) fun c₁ h₁ => h.arrow_mirrors _ (by omega)
    | false =>
      apply mirrors_advance hk (by simp [NoSemicolon])
      intro c₁ h₁
      apply mirrors_bind (h.expr (by omega))
      intro inner c₂ h₂
      exact mirrors_bind (mirrors_expect (by simp [NoSemicolon])) fun _ c₃ h₃ => mirrors_pure rfl
  · rename_i text hk
    apply mirrors_advance hk (by simp [NoSemicolon])
    exact fun c₁ h₁ => literal_mirrors (.string · _) fun _ => rfl
  · rename_i text hk
    apply mirrors_advance hk (by simp [NoSemicolon])
    intro c₁ h₁
    split
    · exact literal_mirrors (.number · _) fun _ => rfl
    · exact mirrors_throw rfl
  · rename_i value hk
    apply mirrors_advance hk (by simp [NoSemicolon])
    exact fun c₁ h₁ => literal_mirrors (.boolean · _) fun _ => rfl
  · rename_i name hk
    exact mirrors_advance hk (by simp [NoSemicolon]) fun c₁ h₁ => h.call_mirrors _ _ (by omega)
  · rename_i hk
    exact mirrors_advance hk (by simp [NoSemicolon]) fun c₁ h₁ =>
      enclosed_mirrors _ (h.elements (by omega)) (by simp) fun _ _ => rfl
  · rename_i hk
    exact mirrors_advance hk (by simp [NoSemicolon]) fun c₁ h₁ =>
      enclosed_mirrors _ (h.properties (by omega)) (by simp) fun _ _ => rfl
  · exact mirrors_unexpected _

theorem args_succ (h : ProgramsMirrored ρ bound bound') (hbound : 4 * c.rest.length + 4 ≤ bound + 1) :
    Mirrors ρ NoSemicolon True 0 (relocateExprs ρ.toRelocation) (argsWithin (bound + 1))
      (argsWithin (bound' + 1)) c := by
  apply mirrors_bind (h.expr (by omega))
  intro arg c₁ h₁
  apply mirrors_eat (by simp [NoSemicolon])
  · intro c₂ h₂
    exact mirrors_bind (h.args (by omega)) fun args c₃ h₃ => mirrors_pure rfl
  · exact fun _ => mirrors_pure rfl

theorem elements_succ (h : ProgramsMirrored ρ bound bound')
    (hbound : 4 * c.rest.length + 4 ≤ bound + 1) :
    Mirrors ρ NoSemicolon True 0 (relocateExprs ρ.toRelocation) (elementsWithin (bound + 1))
      (elementsWithin (bound' + 1)) c := by
  apply mirrors_atEnd
  apply mirrors_sees
  split
  · exact mirrors_pure rfl
  · apply mirrors_bind (h.expr (by omega))
    intro element c₁ h₁
    apply mirrors_eat (by simp [NoSemicolon])
    · intro c₂ h₂
      exact mirrors_bind (h.elements (by omega)) fun elements c₃ h₃ => mirrors_pure rfl
    · exact fun _ => mirrors_pure rfl

theorem properties_succ (h : ProgramsMirrored ρ bound bound')
    (hbound : 4 * c.rest.length + 4 ≤ bound + 1) :
    Mirrors ρ NoSemicolon True 0 (relocateProperties ρ.toRelocation) (propertiesWithin (bound + 1))
      (propertiesWithin (bound' + 1)) c := by
  apply mirrors_atEnd
  apply mirrors_sees
  split
  · exact mirrors_pure rfl
  · apply mirrors_here
    apply mirrors_kind?
    cases hkey : c.kind?.bind propertyKey? with
    | none => exact mirrors_unexpected _
    | some key =>
      obtain ⟨k, hk, hk'⟩ := Option.bind_eq_some_iff.mp hkey
      have hne : NoSemicolon k := by
        rintro rfl
        cases hk'
      apply mirrors_advance hk hne
      intro c₁ h₁
      apply mirrors_bind (mirrors_expect (by simp [NoSemicolon]))
      intro _ c₂ h₂
      apply mirrors_bind (h.expr (by omega))
      intro value c₃ h₃
      apply mirrors_bind mirrors_freshId
      intro id c₄ h₄
      have hspan : (c.here.relocate ρ.toRelocation).merge (value.relocate ρ.toRelocation).span =
          (c.here.merge value.span).relocate ρ.toRelocation := by
        rw [Span.relocate_merge, Expr.span_relocate]
      apply mirrors_eat (by simp [NoSemicolon])
      · intro c₅ h₅
        apply mirrors_bind (h.properties (by omega))
        intro properties c₆ h₆
        apply mirrors_pure
        rw [hspan]
        rfl
      · intro _
        apply mirrors_pure
        rw [hspan]
        rfl

theorem block_succ (h : ProgramsMirrored ρ bound bound') (hbound : 4 * c.rest.length + 1 ≤ bound + 1) :
    Mirrors ρ NoSemicolon True 2 (Block.relocate ρ.toRelocation) (blockWithin (bound + 1))
      (blockWithin (bound' + 1)) c := by
  apply mirrors_bind (mirrors_expect (by simp [NoSemicolon]))
  intro start c₁ h₁
  -- the statements may end in a semicolon, but the block does not
  apply mirrors_seq (h.statements true (by omega)) (fun _ _ => .inr trivial) (.inl Nat.one_pos)
  intro statements c₂ h₂
  apply mirrors_bind (mirrors_expect (by simp [NoSemicolon]))
  intro stop c₃ h₃
  apply mirrors_bind mirrors_freshId
  intro id c₄ h₄
  apply mirrors_pure
  rw [Block.relocate, Node.relocate, Span.relocate_merge]

theorem statements_succ (h : ProgramsMirrored ρ bound bound') (nested : Bool)
    (hbound : 4 * c.rest.length + 4 ≤ bound + 1) :
    Mirrors ρ AnyToken True 0 (relocateStmts ρ.toRelocation) (statementsWithin (bound + 1) nested)
      (statementsWithin (bound' + 1) nested) c := by
  apply mirrors_atEnd
  apply mirrors_sees
  split
  · exact mirrors_pure rfl
  · rename_i hgo
    apply mirrors_attempt (h.statement (by omega)) fun _ _ => trivial
    · intro statement c₁ h₁
      exact mirrors_bind (h.statements nested (by omega)) fun statements c₂ h₂ => mirrors_pure rfl
    · intro fault c₁ h₁
      apply mirrors_record
      by_cases hmoved : c₁.rest.length < c.rest.length
      · apply mirrors_bind mirrors_skipStatement
        intro _ c₂ h₂
        dsimp only at h₂
        exact h.statements nested (by omega)
      · -- the statement has failed at its first token, which is skipped then
        have hstay : c₁.rest = c.rest := h₁.eq_of_length_le (Nat.not_lt.mp hmoved)
        rw [Bool.not_eq_true, Bool.or_eq_false_iff] at hgo
        cases hrest : c.rest with
        | nil => rw [hrest] at hgo; exact absurd hgo.1 nofun
        | cons t rest =>
          have hclose : (nested && t.kind == .mark .braceClose) = false := by
            simpa [Cursor.kind?, hrest] using hgo.2
          have hskip : Mirrors ρ AnyToken True 1 (fun u : Unit => u) (skipStatement nested)
              (skipStatement nested) { c₁ with faults := c₁.faults ++ [fault] } :=
            mirrors_skipFirst (hstay.trans hrest) hclose
          apply mirrors_bind hskip
          intro _ c₂ h₂
          dsimp only at h₂
          rw [hstay] at h₂
          exact h.statements nested (by omega)

theorem const_mirrors (h : ProgramsMirrored ρ bound bound') (start : Span)
    (hbound : 4 * c.rest.length + 3 ≤ bound) :
    Mirrors ρ NoSemicolon True 0 (fun s => (s.relocate ρ.toRelocation).withId 0) (do
      let (name, place) ← expectIdent "variable name"
      let ident : Ident := ⟨⟨← freshId, place⟩, name⟩
      let type ← optionalType
      let _ ← expect (.mark .equals)
      let value ← exprWithin bound
      return Stmt.const ⟨0, start.merge (← get).last⟩ ident type value) (do
      let (name, place) ← expectIdent "variable name"
      let ident : Ident := ⟨⟨← freshId, place⟩, name⟩
      let type ← optionalType
      let _ ← expect (.mark .equals)
      let value ← exprWithin bound'
      return Stmt.const ⟨0, (start.relocate ρ.toRelocation).merge (← get).last⟩ ident type value) c := by
  apply mirrors_bind (mirrors_expectIdent (by simp [NoSemicolon]) _)
  rintro ⟨name, place⟩ c₁ h₁
  apply mirrors_bind mirrors_freshId
  intro id c₂ h₂
  apply mirrors_bind mirrors_optionalType.loosen
  intro type c₃ h₃
  apply mirrors_bind (mirrors_expect (by simp [NoSemicolon]))
  intro _ c₄ h₄
  apply mirrors_bind (h.expr (by omega))
  intro value c₅ h₅
  apply mirrors_get
  apply mirrors_pure
  rw [Stmt.relocate, Node.relocate, Span.relocate_merge]
  rfl

theorem return_mirrors (h : ProgramsMirrored ρ bound bound') (start : Span)
    (hbound : 4 * c.rest.length + 3 ≤ bound) :
    Mirrors ρ NoSemicolon True 0 (fun s => (s.relocate ρ.toRelocation).withId 0) (do
      let bare := (← atEnd) || (← sees (.mark .semicolon)) || (← sees (.mark .braceClose))
      let argument ← if bare then pure none else some <$> exprWithin bound
      return Stmt.ret ⟨0, start.merge (← get).last⟩ argument) (do
      let bare := (← atEnd) || (← sees (.mark .semicolon)) || (← sees (.mark .braceClose))
      let argument ← if bare then pure none else some <$> exprWithin bound'
      return Stmt.ret ⟨0, (start.relocate ρ.toRelocation).merge (← get).last⟩ argument) c := by
  -- what is left to do once the argument has been read
  have hrest : ∀ (argument : Option Expr) (c : Cursor),
      Mirrors ρ NoSemicolon True 0 (fun s => (s.relocate ρ.toRelocation).withId 0)
        (do return Stmt.ret ⟨0, start.merge (← get).last⟩ argument)
        (do return Stmt.ret ⟨0, (start.relocate ρ.toRelocation).merge (← get).last⟩
              (argument.map (Expr.relocate ρ.toRelocation))) c := by
    intro argument c
    apply mirrors_get
    apply mirrors_pure
    cases argument with
    | none => rw [Stmt.relocate, Node.relocate, Span.relocate_merge]; rfl
    | some e => rw [Stmt.relocate, Node.relocate, Span.relocate_merge]; rfl
  apply mirrors_atEnd
  apply mirrors_sees
  apply mirrors_sees
  dsimp only
  split
  · exact hrest none c
  · rw [map_eq_pure_bind, map_eq_pure_bind, bind_assoc, bind_assoc]
    exact mirrors_bind (h.expr hbound) fun e c₁ h₁ => hrest (some e) c₁

theorem head_mirrors (h : ProgramsMirrored ρ bound bound') (hbound : 4 * c.rest.length + 3 ≤ bound + 1) :
    Mirrors ρ NoSemicolon True 1 (fun s => (s.relocate ρ.toRelocation).withId 0) (statementHead bound)
      (statementHead bound') c := by
  apply mirrors_here
  apply mirrors_kind?
  split
  · rename_i hk
    exact mirrors_advance hk (by simp [NoSemicolon]) fun c₁ h₁ => h.const_mirrors _ (by omega)
  · rename_i hk
    exact mirrors_advance hk (by simp [NoSemicolon]) fun c₁ h₁ => h.return_mirrors _ (by omega)
  · exact mirrors_unexpected _

theorem statement_succ (h : ProgramsMirrored ρ bound bound')
    (hbound : 4 * c.rest.length + 3 ≤ bound + 1) :
    Mirrors ρ AnyToken True 1 (Stmt.relocate ρ.toRelocation) (statementWithin (bound + 1))
      (statementWithin (bound' + 1)) c := by
  rw [statementWithin_succ, statementWithin_succ]
  have hhead := (h.head_mirrors hbound).mono (q := AnyToken) (Nat.le_refl _) (fun _ _ => trivial) id
  exact mirrors_bind hhead fun s c₁ h₁ => mirrors_statementEnd s

end ProgramsMirrored

theorem programsMirrored (hle : bound ≤ bound') : ProgramsMirrored ρ bound bound' := by
  induction bound generalizing bound' with
  | zero =>
    exact
      { expr := fun h => by omega
        chain := fun h => by omega
        more := fun _ h => by omega
        operand := fun h => by omega
        args := fun h => by omega
        elements := fun h => by omega
        properties := fun h => by omega
        block := fun h => by omega
        statements := fun _ h => by omega
        statement := fun h => by omega }
  | succ bound ih =>
    cases bound' with
    | zero => cases hle
    | succ bound' =>
      have h := ih (Nat.le_of_succ_le_succ hle)
      exact
        { expr := h.expr_succ
          chain := h.chain_succ
          more := h.more_succ
          operand := h.operand_succ
          args := h.args_succ
          elements := h.elements_succ
          properties := h.properties_succ
          block := h.block_succ
          statements := h.statements_succ
          statement := h.statement_succ }

/-- A statement that ends a text is read in the other text up to and with its semicolon. -/
theorem statement_cursor {s : Stmt} {d : Cursor} (h : ProgramsMirrored ρ bound bound') (hc : ρ.Hides c)
    (hbound : 4 * c.rest.length + 3 ≤ bound + 1)
    (hrun : (statementWithin (bound + 1)).run c = (.ok s, d)) :
    (statementWithin (bound' + 1)).run (ρ.cursor c) = (.ok (s.relocate ρ.toRelocation), ρ.cursor d) := by
  obtain ⟨hpassed, himage⟩ := h.head_mirrors hbound
  rw [statementWithin_succ, run_bind] at hrun ⊢
  cases hx : ((statementHead bound).run c).1 with
  | error fault =>
    rw [hx] at hrun
    cases hrun
  | ok head =>
    rw [hx] at hpassed himage hrun
    have hhides : ρ.Hides ((statementHead bound).run c).2 := hc.of_way hpassed
    have hend : (statementEnd head).run ((statementHead bound).run c).2 = (.ok s, d) := hrun
    rw [himage hhides]
    have hlast := statementEnd_cursor head hhides
    rw [hend] at hlast
    exact hlast

section Whole

variable {ss : List Stmt} {d : Cursor}

theorem exists_run_statements (bound : Nat) (c : Cursor) :
    ∃ ss d, (statementsWithin bound false).run c = (.ok ss, d) := by
  obtain ⟨ss, hss⟩ := succeeds_statementsWithin bound false c
  exact ⟨ss, _, Prod.ext hss rfl⟩

theorem run_statements_whole (hρ : ρ.Whole) (hbound : 4 * c.rest.length + 4 ≤ bound)
    (hle : bound ≤ bound') (hrun : (statementsWithin bound false).run c = (.ok ss, d)) :
    (statementsWithin bound' false).run (ρ.cursor c) =
      (.ok (relocateStmts ρ.toRelocation ss), ρ.cursor d) := by
  have hmirrors := ((programsMirrored hle).statements false hbound).2 (.inl hρ)
  rw [hrun] at hmirrors
  exact hmirrors

theorem run_statements (c : Cursor) :
    statements.run c = (statementsWithin (4 * c.rest.length + 4) false).run c := by
  have hdepth : depthBound.run c = (.ok (4 * c.rest.length + 4), c) := rfl
  rw [statements, run_bind, hdepth]
  rfl

end Whole

end Reader

open Reader

theorem parse_eq {source : String} {ss : List Stmt} {d : Cursor}
    (h : (statementsWithin (4 * (Cursor.ofSource source).rest.length + 4) false).run
      (Cursor.ofSource source) = (.ok ss, d)) :
    parse source = ⟨⟨ss, ⟨0, source.utf8ByteSize⟩⟩, d.faults, d.nextId⟩ := by
  rw [parse, run_statements, h]
  rfl

end ArrowCheck
