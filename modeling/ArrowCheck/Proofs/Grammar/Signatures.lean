import ArrowCheck.Proofs.Grammar.Lookahead

namespace ArrowCheck

variable {g : Bool} {ts us vs : List TokenKind}

theorem SpellsAnnotated.suffix_of {type : Option TypeExpr} (h : SpellsAnnotated g type ts us) :
    us <:+ ts := by
  cases type with
  | none =>
    obtain rfl : ts = us := h
    exact List.suffix_refl _
  | some t =>
    obtain ⟨vs, rfl, ht⟩ := h
    exact ht.suffix_of.trans (List.suffix_cons _ _)

theorem SpellsParams.suffix_of {ps : List Param} (h : SpellsParams g ps ts us) : us <:+ ts := by
  induction h with
  | none => exact List.suffix_refl _
  | last h => exact h.suffix_of.trans (List.suffix_cons _ _)
  | cons h _ ih =>
    exact (ih.trans ((List.suffix_cons _ _).trans h.suffix_of)).trans (List.suffix_cons _ _)

theorem TypeEnds.of_mark {m : Mark} (h : m ≠ .less ∧ m ≠ .bracketOpen ∧ m ≠ .pipe) :
    TypeEnds (.mark m :: ts) :=
  ⟨⟨by simpa using h.1, by simpa using h.2.1⟩, by simpa using h.2.2⟩

namespace Reader

variable {c : Cursor}

theorem gives_attempt {α : Type} {r : Reader α} {P : α → Prop} {rest : List TokenKind}
    (h : Gives r c rest P) : Gives (attempt r) c rest fun x => ∃ a, x = .ok a ∧ P a := by
  obtain ⟨hvalue, hkinds, hfaults⟩ := h
  exact ⟨⟨_, rfl, hvalue⟩, hkinds, hfaults⟩

theorem gives_succeeds {α : Type} (r : Reader α) :
    Gives (succeeds r) c c.kinds (· = (r.run c).1.isOk) :=
  ⟨⟨_, rfl, rfl⟩, rfl, rfl⟩

theorem Gives.isOk {α : Type} {r : Reader α} {P : α → Prop} {rest : List TokenKind}
    (h : Gives r c rest P) : (r.run c).1.isOk = true := by
  obtain ⟨⟨a, ha, -⟩, -⟩ := h
  rw [ha]
  rfl

theorem gives_skimParams {ps : List Param} (h : SpellsParams g ps ts (.mark .parenClose :: us))
    (hps : ps ≠ []) {bound : Nat} (hc : c.kinds = ts) (hbound : ts.length ≤ bound) :
    Gives (skimParams bound) c (.mark .parenClose :: us) (· = false) := by
  generalize hrest : TokenKind.mark .parenClose :: us = rest at h ⊢
  induction h generalizing c bound with
  | none => exact absurd rfl hps
  | last htype =>
    subst hrest
    rw [List.length_cons] at hbound
    obtain ⟨n, rfl⟩ : ∃ n, bound = n + 1 := ⟨bound - 1, by omega⟩
    refine gives_bind (gives_expectIdent hc) ?_
    rintro _ c₁ ⟨start, rfl⟩ hkinds₁ -
    refine gives_bind (gives_attempt (gives_optionalType htype (.of_mark (by simp)) (by simp)
      hkinds₁)) ?_
    rintro _ c₂ ⟨type, rfl, -⟩ hkinds₂ -
    refine gives_bind (gives_eat_not (by simp [hkinds₂])) ?_
    rintro _ c₃ rfl hkinds₃ -
    exact gives_pure rfl (hkinds₃.trans hkinds₂)
  | cons htype _ ih =>
    have hle := htype.suffix_of.length_le
    simp only [List.length_cons] at hbound hle
    obtain ⟨n, rfl⟩ : ∃ n, bound = n + 1 := ⟨bound - 1, by omega⟩
    refine gives_bind (gives_expectIdent hc) ?_
    rintro _ c₁ ⟨start, rfl⟩ hkinds₁ -
    refine gives_bind (gives_attempt (gives_optionalType htype (.of_mark (by simp)) (by simp)
      hkinds₁)) ?_
    rintro _ c₂ ⟨type, rfl, -⟩ hkinds₂ -
    refine gives_bind (gives_eat hkinds₂) ?_
    rintro _ c₃ rfl hkinds₃ -
    exact ih (by simp) hkinds₃ (by omega) hrest

theorem gives_arrowHead {ps : List Param} {type : Option TypeExpr}
    (hps : SpellsParams g ps ts (.mark .parenClose :: us))
    (htype : SpellsAnnotated g type us (.mark .arrow :: vs)) (hc : c.kinds = .mark .parenOpen :: ts) :
    Gives arrowHead c vs fun _ => True := by
  have hrest : ∀ c' : Cursor, c'.kinds = .mark .parenClose :: us → Gives (do
      let _ ← expect (.mark .parenClose)
      let _ ← optionalType
      let _ ← expect (.mark .arrow)) c' vs fun _ => True := by
    intro c' hc'
    refine gives_bind (gives_expect hc') fun _ c₂ _ hkinds₂ _ => ?_
    refine gives_bind (gives_optionalType htype (.of_mark (by simp)) (by simp) hkinds₂)
      fun _ c₃ _ hkinds₃ _ => ?_
    exact gives_bind (gives_expect hkinds₃) fun _ c₄ _ hkinds₄ _ => gives_pure trivial hkinds₄
  refine gives_bind (gives_expect hc) fun _ c₁ _ hkinds₁ _ => gives_bind gives_sees ?_
  rintro _ c₂ rfl hkinds₂ -
  have hc₂ := hkinds₂.trans hkinds₁
  cases ps with
  | nil =>
    cases hps
    rw [hkinds₁, if_pos (by simp)]
    exact hrest c₂ hc₂
  | cons p ps =>
    have hopen : ¬ (c₁.kinds.head? == some (.mark .parenClose)) = true := by
      rw [hkinds₁]
      cases hps <;> simp
    rw [if_neg hopen]
    refine gives_bind gives_get ?_
    rintro c₀ c₃ rfl hkinds₃ -
    have hlen : ts.length ≤ c₀.rest.length := by
      exact Nat.le_of_eq (by rw [← hc₂, Cursor.length_kinds])
    refine gives_bind (gives_skimParams hps (by simp) (hkinds₃.trans hc₂) hlen) ?_
    rintro _ c₄ rfl hkinds₄ -
    exact hrest c₄ hkinds₄

theorem reads_paramsWithin (bound : Nat) {c : Cursor} :
    Reads (paramsWithin bound) c fun ps us => ps ≠ [] ∧ SpellsParams g ps c.kinds us := by
  induction bound generalizing c with
  | zero => exact reads_unexpected _
  | succ bound ih =>
    refine reads_bind reads_expectIdent fun name c₁ hkinds₁ => ?_
    rw [hkinds₁]
    refine reads_bind (reads_optionalType (g := g)) ?_
    rintro type c₂ ⟨htype, -⟩
    refine reads_bind reads_freshId fun id c₃ hkinds₃ => reads_bind reads_eat ?_
    rintro _ c₄ (⟨rfl, hkinds₄⟩ | ⟨rfl, hkinds₄, -⟩)
    · rw [← hkinds₃, hkinds₄] at htype
      refine reads_bind ih ?_
      rintro ps c₅ ⟨hne, hps⟩
      cases ps with
      | nil => exact absurd rfl hne
      | cons p ps => exact reads_pure ⟨by simp, .cons htype hps⟩
    · rw [← hkinds₃, ← hkinds₄] at htype
      exact reads_pure ⟨by simp, .last htype⟩

theorem reads_signature : Reads signature c fun sig us =>
    ∃ vs ws, us = .mark .braceOpen :: ws ∧ SpellsParams g sig.1 c.kinds (.mark .parenClose :: vs) ∧
      SpellsAnnotated g sig.2 vs (.mark .arrow :: us) := by
  have hrest : ∀ ps (c' : Cursor), SpellsParams g ps c.kinds c'.kinds → Reads (do
      let _ ← expect (.mark .parenClose)
      let result ← optionalType
      let _ ← expect (.mark .arrow)
      if ← sees (.mark .braceOpen) then return (ps, result)
      else throw (.expressionBody (← here))) c' fun sig us => ∃ vs ws, us = .mark .braceOpen :: ws ∧
        SpellsParams g sig.1 c.kinds (.mark .parenClose :: vs) ∧
        SpellsAnnotated g sig.2 vs (.mark .arrow :: us) := by
    intro ps c' hps
    refine reads_bind reads_expect fun _ c₁ hkinds₁ => ?_
    rw [hkinds₁] at hps
    refine reads_bind (reads_optionalType (g := g)) ?_
    rintro result c₂ ⟨hresult, -⟩
    refine reads_bind reads_expect fun _ c₃ hkinds₃ => reads_bind reads_sees ?_
    rw [hkinds₃] at hresult
    rintro _ c₄ ⟨rfl, hkinds₄⟩
    split
    · rename_i hseen
      exact reads_pure ⟨_, _, hkinds₄ ▸ eq_cons_of_head? hseen, hps, hkinds₄ ▸ hresult⟩
    · exact reads_bind reads_here fun _ _ _ => reads_throw _
  refine reads_bind reads_sees ?_
  rintro _ c₁ ⟨rfl, hkinds₁⟩
  split
  · refine hrest [] c₁ ?_
    rw [hkinds₁]
    exact .none
  · refine reads_bind reads_get ?_
    rintro c₀ c₂ ⟨rfl, hkinds₂⟩
    refine reads_bind (reads_paramsWithin (g := g) _) ?_
    rintro ps c₃ ⟨-, hps⟩
    rw [hkinds₂, hkinds₁] at hps
    exact hrest ps c₃ hps

theorem gives_paramsWithin {ps : List Param} (h : SpellsParams g ps ts (.mark .parenClose :: us))
    (hps : ps ≠ []) {bound : Nat} (hc : c.kinds = ts) (hbound : ts.length ≤ bound) :
    Gives (paramsWithin bound) c (.mark .parenClose :: us) fun ps' =>
      g = true → ps'.map Param.bare = ps.map Param.bare := by
  generalize hrest : TokenKind.mark .parenClose :: us = rest at h ⊢
  induction h generalizing c bound with
  | none => exact absurd rfl hps
  | last htype =>
    subst hrest
    rw [List.length_cons] at hbound
    obtain ⟨n, rfl⟩ : ∃ n, bound = n + 1 := ⟨bound - 1, by omega⟩
    refine gives_bind (gives_expectIdent hc) ?_
    rintro _ c₁ ⟨start, rfl⟩ hkinds₁ -
    refine gives_bind (gives_optionalType htype (.of_mark (by simp)) (by simp) hkinds₁) ?_
    rintro type c₂ ⟨-, htype'⟩ hkinds₂ -
    refine gives_bind gives_freshId fun id c₃ _ hkinds₃ _ => ?_
    rw [hkinds₂] at hkinds₃
    refine gives_bind (gives_eat_not (by simp [hkinds₃])) ?_
    rintro _ c₄ rfl hkinds₄ -
    refine gives_pure (fun hg => ?_) (hkinds₄.trans hkinds₃)
    simp only [List.map_cons, List.map_nil, Param.bare, htype' hg]
  | cons htype _ ih =>
    have hle := htype.suffix_of.length_le
    simp only [List.length_cons] at hbound hle
    obtain ⟨n, rfl⟩ : ∃ n, bound = n + 1 := ⟨bound - 1, by omega⟩
    refine gives_bind (gives_expectIdent hc) ?_
    rintro _ c₁ ⟨start, rfl⟩ hkinds₁ -
    refine gives_bind (gives_optionalType htype (.of_mark (by simp)) (by simp) hkinds₁) ?_
    rintro type c₂ ⟨-, htype'⟩ hkinds₂ -
    refine gives_bind gives_freshId fun id c₃ _ hkinds₃ _ => ?_
    refine gives_bind (gives_eat (hkinds₃.trans hkinds₂)) ?_
    rintro _ c₄ rfl hkinds₄ -
    refine gives_bind (ih (by simp) hkinds₄ (by omega) hrest) fun ps' c₅ hps' hkinds₅ _ => ?_
    refine gives_pure (fun hg => ?_) hkinds₅
    rw [List.map_cons, List.map_cons, hps' hg, Param.bare, Param.bare, htype' hg]

theorem gives_signature {ps : List Param} {result : Option TypeExpr}
    (hps : SpellsParams g ps ts (.mark .parenClose :: us))
    (hresult : SpellsAnnotated g result us (.mark .arrow :: .mark .braceOpen :: vs))
    (hc : c.kinds = ts) :
    Gives signature c (.mark .braceOpen :: vs) fun sig => g = true →
      sig.1.map Param.bare = ps.map Param.bare ∧
        sig.2.map TypeExpr.bare = result.map TypeExpr.bare := by
  have hrest : ∀ (ps' : List Param) (c' : Cursor), (g = true → ps'.map Param.bare = ps.map Param.bare) →
      c'.kinds = .mark .parenClose :: us → Gives (do
        let _ ← expect (.mark .parenClose)
        let result ← optionalType
        let _ ← expect (.mark .arrow)
        if ← sees (.mark .braceOpen) then return (ps', result)
        else throw (.expressionBody (← here))) c' (.mark .braceOpen :: vs) fun sig => g = true →
          sig.1.map Param.bare = ps.map Param.bare ∧
            sig.2.map TypeExpr.bare = result.map TypeExpr.bare := by
    intro ps' c' hps' hc'
    refine gives_bind (gives_expect hc') fun _ c₂ _ hkinds₂ _ => ?_
    refine gives_bind (gives_optionalType hresult (.of_mark (by simp)) (by simp) hkinds₂) ?_
    rintro result' c₃ ⟨-, hresult'⟩ hkinds₃ -
    refine gives_bind (gives_expect hkinds₃) fun _ c₄ _ hkinds₄ _ => gives_bind gives_sees ?_
    rintro _ c₅ rfl hkinds₅ -
    rw [hkinds₄, if_pos (by simp)]
    exact gives_pure (fun hg => ⟨hps' hg, hresult' hg⟩) (hkinds₅.trans hkinds₄)
  refine gives_bind gives_sees ?_
  rintro _ c₁ rfl hkinds₁ -
  have hc₁ := hkinds₁.trans hc
  cases ps with
  | nil =>
    cases hps
    rw [hc, if_pos (by simp)]
    exact hrest [] c₁ (fun _ => rfl) hc₁
  | cons p ps =>
    have hopen : ¬ (c.kinds.head? == some (.mark .parenClose)) = true := by
      rw [hc]
      cases hps <;> simp
    rw [if_neg hopen]
    refine gives_bind gives_get ?_
    rintro c₀ c₂ rfl hkinds₂ -
    have hlen : ts.length ≤ c₀.rest.length := by
      exact Nat.le_of_eq (by rw [← hc₁, Cursor.length_kinds])
    refine gives_bind (gives_paramsWithin hps (by simp) (hkinds₂.trans hc₁) hlen)
      fun ps' c₃ hps' hkinds₃ _ => ?_
    exact hrest ps' c₃ hps' hkinds₃

end Reader

end ArrowCheck
