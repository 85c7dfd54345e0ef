import ArrowCheck.Proofs.Relocation.Placement

namespace ArrowCheck.Reader

open Placement

variable {ρ : Placement} {c : Cursor} {bound bound' : Nat} {t : TypeExpr}

section Brackets

def StartsBrackets (ts : List Token) : Prop :=
  ∃ start stop rest, ts = ⟨.mark .bracketOpen, start⟩ :: ⟨.mark .bracketClose, stop⟩ :: rest

theorem arraySuffix_stop (h : ¬ StartsBrackets c.rest) (bound : Nat) (t : TypeExpr) :
    (arraySuffix bound t).run c = (.ok t, c) := by
  have hmeets : Meets (arraySuffix bound t) c fun x d => (x, d) = (.ok t, c) := by
    cases bound with
    | zero => exact rfl
    | succ bound =>
      unfold arraySuffix
      rw [meets_get]
      split
      · rename_i hrest
        exact absurd ⟨_, _, _, hrest⟩ h
      · exact rfl
  exact hmeets

theorem arraySuffix_step {start stop : Span} {rest : List Token}
    (h : c.rest = ⟨.mark .bracketOpen, start⟩ :: ⟨.mark .bracketClose, stop⟩ :: rest) (bound : Nat)
    (t : TypeExpr) : (arraySuffix (bound + 1) t).run c =
      (arraySuffix bound (.array t (t.span.merge stop))).run c.next.next := by
  obtain ⟨_, last, stop, nextId, faults⟩ := c
  cases h
  rfl

theorem startsBrackets_of_cursor (hc : ρ.Hides c) (h : StartsBrackets (ρ.cursor c).rest) :
    StartsBrackets c.rest := by
  obtain ⟨start, stop, rest, hrest⟩ := h
  obtain ⟨ts, last, textEnd, nextId, faults⟩ := c
  cases ts with
  | nil =>
    rw [cursor, (hc.whole rfl).1] at hrest
    cases hrest
  | cons t ts =>
    obtain ⟨k, start'⟩ := t
    obtain ⟨hopen, htail⟩ := List.cons.inj hrest
    have hk : k = .mark .bracketOpen := congrArg Token.kind hopen
    cases ts with
    | nil =>
      -- the second bracket would stand behind the text, but the last token here is no semicolon
      have hmore : ρ.more = ⟨.mark .bracketClose, stop⟩ :: rest := htail
      cases hc with
      | inl hwhole =>
        rw [hwhole.1] at hmore
        cases hmore
      | inr hlast =>
        rw [hk] at hlast
        cases hlast
    | cons u ts =>
      obtain ⟨k', stop'⟩ := u
      have hk' : k' = .mark .bracketClose := congrArg Token.kind (List.cons.inj htail).1
      exact ⟨start', stop', ts, by rw [hk, hk']⟩

theorem mirrors_arraySuffix (h : c.rest.length ≤ bound) (hle : bound ≤ bound') :
    Mirrors ρ NoSemicolon False 0 (TypeExpr.relocate ρ.toRelocation) (arraySuffix bound t)
      (arraySuffix bound' (t.relocate ρ.toRelocation)) c := by
  induction bound generalizing bound' c t with
  | zero =>
    have hstop : ¬ StartsBrackets c.rest := by
      rintro ⟨_, _, _, hrest⟩
      rw [hrest] at h
      cases h
    exact (mirrors_pure rfl).congr (arraySuffix_stop hstop _ _) fun hc =>
      arraySuffix_stop (fun hb => hstop (startsBrackets_of_cursor hc hb)) _ _
  | succ bound ih =>
    by_cases hb : StartsBrackets c.rest
    · obtain ⟨start, stop, rest, hrest⟩ := hb
      have hopen : c.kind? = some (.mark .bracketOpen) := by rw [Cursor.kind?, hrest]; rfl
      have hclose : c.next.kind? = some (.mark .bracketClose) := by rw [Cursor.next, hrest]; rfl
      have hfirst : Way NoSemicolon 1 c c.next := .next hopen (by simp [NoSemicolon])
      have hway : Way NoSemicolon 2 c c.next.next :=
        hfirst.trans (.next hclose (by simp [NoSemicolon])) (.inl Nat.one_pos)
      have hlength := hway.length
      cases bound' with
      | zero => cases hle
      | succ bound' =>
        apply Mirrors.after (ih (by omega) (Nat.le_of_succ_le_succ hle)) hway
          (fun _ => Or.inl) (.inr fun _ hk => hk) (arraySuffix_step hrest _ _)
        intro hc
        have hrest' : (ρ.cursor c).rest = ⟨.mark .bracketOpen, start.relocate ρ.toRelocation⟩ ::
            ⟨.mark .bracketClose, stop.relocate ρ.toRelocation⟩ ::
              (rest.map (Token.relocate ρ.toRelocation) ++ ρ.more) := by
          rw [cursor, hrest]
          rfl
        rw [arraySuffix_step hrest', next_cursor hopen, next_cursor hclose, TypeExpr.relocate,
          Span.relocate_merge, TypeExpr.span_relocate]
    · exact (mirrors_pure rfl).congr (arraySuffix_stop hb _ _) fun hc =>
        arraySuffix_stop (fun hb' => hb (startsBrackets_of_cursor hc hb')) _ _

theorem mirrors_arraySuffixes (t : TypeExpr) :
    Mirrors ρ NoSemicolon False 0 (TypeExpr.relocate ρ.toRelocation) (arraySuffixes t)
      (arraySuffixes (t.relocate ρ.toRelocation)) c := by
  apply mirrors_get
  exact mirrors_arraySuffix (Nat.le_refl _) (length_cursor ρ c)

end Brackets

/-- The readers of annotations with two bounds, the first of which is large enough. -/
structure TypesMirrored (ρ : Placement) (bound bound' : Nat) : Prop where
  type : ∀ {c : Cursor}, 2 * c.rest.length + 2 ≤ bound →
    Mirrors ρ NoSemicolon False 1 (TypeExpr.relocate ρ.toRelocation) (typeWithin bound) (typeWithin bound') c
  union : ∀ {c : Cursor} (t : TypeExpr), 2 * c.rest.length + 1 ≤ bound →
    Mirrors ρ NoSemicolon False 0 (TypeExpr.relocate ρ.toRelocation) (unionWithin bound t)
      (unionWithin bound' (t.relocate ρ.toRelocation)) c
  base : ∀ {c : Cursor}, 2 * c.rest.length + 1 ≤ bound →
    Mirrors ρ NoSemicolon False 1 (TypeExpr.relocate ρ.toRelocation) (baseWithin bound) (baseWithin bound') c
  fields : ∀ {c : Cursor} (close : Mark) (what : String), 2 * c.rest.length + 2 ≤ bound →
    Mirrors ρ NoSemicolon False 0 (relocateFields ρ.toRelocation) (fieldsWithin bound close what)
      (fieldsWithin bound' close what) c

namespace TypesMirrored

theorem type_succ (h : TypesMirrored ρ bound bound') (hbound : 2 * c.rest.length + 2 ≤ bound + 1) :
    Mirrors ρ NoSemicolon False 1 (TypeExpr.relocate ρ.toRelocation) (typeWithin (bound + 1))
      (typeWithin (bound' + 1)) c := by
  apply mirrors_bind (h.base (by omega))
  intro first c₁ h₁
  apply mirrors_bind (mirrors_arraySuffixes first)
  intro member c₂ h₂
  exact h.union member (by omega)

theorem union_succ (h : TypesMirrored ρ bound bound') (t : TypeExpr)
    (hbound : 2 * c.rest.length + 1 ≤ bound + 1) :
    Mirrors ρ NoSemicolon False 0 (TypeExpr.relocate ρ.toRelocation) (unionWithin (bound + 1) t)
      (unionWithin (bound' + 1) (t.relocate ρ.toRelocation)) c := by
  apply mirrors_eat (by simp [NoSemicolon])
  · intro c₁ h₁
    apply mirrors_bind (h.base (by omega))
    intro first c₂ h₂
    apply mirrors_bind (mirrors_arraySuffixes first)
    intro member c₃ h₃
    rw [← TypeExpr.join_relocate]
    exact h.union _ (by omega)
  · exact fun _ => mirrors_pure rfl

theorem base_succ (h : TypesMirrored ρ bound bound') (hbound : 2 * c.rest.length + 1 ≤ bound + 1) :
    Mirrors ρ NoSemicolon False 1 (TypeExpr.relocate ρ.toRelocation) (baseWithin (bound + 1))
      (baseWithin (bound' + 1)) c := by
  apply mirrors_here
  apply mirrors_kind?
  split
  · rename_i hk
    apply mirrors_advance hk (by simp [NoSemicolon])
    intro c₁ h₁
    apply mirrors_eat (by simp [NoSemicolon])
    · intro c₂ h₂
      apply mirrors_bind (h.type (by omega))
      intro element c₃ h₃
      apply mirrors_bind (mirrors_expect (by simp [NoSemicolon]))
      intro stop c₄ h₄
      apply mirrors_pure
      rw [TypeExpr.relocate, Span.relocate_merge]
    · exact fun _ => mirrors_pure rfl
  · rename_i hk
    exact mirrors_advance hk (by simp [NoSemicolon]) fun c₁ h₁ => mirrors_pure rfl
  · rename_i name hk
    by_cases hany : (name == "any") = true
    · rw [if_pos hany, if_pos hany]
      exact mirrors_throw rfl
    · rw [if_neg hany, if_neg hany]
      exact mirrors_advance hk (by simp [NoSemicolon]) fun c₁ h₁ => mirrors_pure rfl
  · rename_i hk
    apply mirrors_advance hk (by simp [NoSemicolon])
    intro c₁ h₁
    apply mirrors_bind (h.fields _ _ (by omega))
    intro params c₂ h₂
    apply mirrors_bind (mirrors_expect (by simp [NoSemicolon]))
    intro _ c₃ h₃
    apply mirrors_bind (mirrors_expect (by simp [NoSemicolon]))
    intro _ c₄ h₄
    apply mirrors_bind (h.type (by omega))
    intro result c₅ h₅
    apply mirrors_pure
    rw [TypeExpr.relocate, Span.relocate_merge, TypeExpr.span_relocate]
  · rename_i hk
    apply mirrors_advance hk (by simp [NoSemicolon])
    intro c₁ h₁
    apply mirrors_bind (h.fields _ _ (by omega))
    intro fields c₂ h₂
    apply mirrors_bind (mirrors_expect (by simp [NoSemicolon]))
    intro stop c₃ h₃
    apply mirrors_pure
    rw [TypeExpr.relocate, Span.relocate_merge]
  · exact mirrors_unexpected _

theorem fields_succ (h : TypesMirrored ρ bound bound') (close : Mark) (what : String)
    (hbound : 2 * c.rest.length + 2 ≤ bound + 1) :
    Mirrors ρ NoSemicolon False 0 (relocateFields ρ.toRelocation) (fieldsWithin (bound + 1) close what)
      (fieldsWithin (bound' + 1) close what) c := by
  apply mirrors_atEnd
  apply mirrors_sees
  split
  · exact mirrors_pure rfl
  · apply mirrors_bind (mirrors_expectIdent (by simp [NoSemicolon]) what)
    rintro ⟨name, start⟩ c₁ h₁
    apply mirrors_bind (mirrors_expect (by simp [NoSemicolon]))
    intro _ c₂ h₂
    apply mirrors_bind (h.type (by omega))
    intro type c₃ h₃
    have hfield : (start.relocate ρ.toRelocation).merge (type.relocate ρ.toRelocation).span =
        (start.merge type.span).relocate ρ.toRelocation := by
      rw [Span.relocate_merge, TypeExpr.span_relocate]
    apply mirrors_eat (by simp [NoSemicolon])
    · intro c₄ h₄
      apply mirrors_bind (h.fields close what (by omega))
      intro rest c₅ h₅
      apply mirrors_pure
      rw [relocateFields, ← hfield]
    · intro _
      apply mirrors_pure
      rw [relocateFields, ← hfield]
      rfl

end TypesMirrored

theorem typesMirrored (hle : bound ≤ bound') : TypesMirrored ρ bound bound' := by
  induction bound generalizing bound' with
  | zero =>
    exact
      { type := fun h => by omega
        union := fun _ h => by omega
        base := fun h => by omega
        fields := fun _ _ h => by omega }
  | succ bound ih =>
    cases bound' with
    | zero => cases hle
    | succ bound' =>
      have h := ih (Nat.le_of_succ_le_succ hle)
      exact
        { type := h.type_succ
          union := h.union_succ
          base := h.base_succ
          fields := h.fields_succ }

theorem mirrors_typeExpr :
    Mirrors ρ NoSemicolon False 1 (TypeExpr.relocate ρ.toRelocation) typeExpr typeExpr c := by
  have hlength := length_cursor ρ c
  apply mirrors_get
  exact (typesMirrored (by omega)).type (Nat.le_refl _)

theorem mirrors_optionalType :
    Mirrors ρ NoSemicolon False 0 (Option.map (TypeExpr.relocate ρ.toRelocation)) optionalType
      optionalType c := by
  apply mirrors_eat (by simp [NoSemicolon])
  · intro c₁ h₁
    exact mirrors_bind mirrors_typeExpr fun t c₂ h₂ => mirrors_pure rfl
  · exact fun _ => mirrors_pure rfl

theorem skimParams_nil (h : c.rest = []) (bound : Nat) :
    (skimParams bound).run c = (unexpected "parameter name" : Reader Bool).run c := by
  obtain ⟨_, last, stop, nextId, faults⟩ := c
  cases h
  cases bound <;> rfl

theorem mirrors_skimParams (h : c.rest.length ≤ bound) (hle : bound ≤ bound') :
    Mirrors ρ NoSemicolon False 0 (fun cut => cut) (skimParams bound) (skimParams bound') c := by
  induction bound generalizing bound' c with
  | zero =>
    have hrest : c.rest = [] := List.eq_nil_of_length_eq_zero (Nat.le_zero.mp h)
    apply (mirrors_unexpected "parameter name").congr (skimParams_nil hrest _)
    intro hc
    apply skimParams_nil
    rw [cursor, hrest, (hc.whole hrest).1]
    rfl
  | succ bound ih =>
    cases bound' with
    | zero => cases hle
    | succ bound' =>
      apply mirrors_bind (mirrors_expectIdent (by simp [NoSemicolon]) _)
      intro name c₁ h₁
      apply mirrors_attempt mirrors_optionalType fun _ => False.elim
      · intro type c₂ h₂
        apply mirrors_eat (by simp [NoSemicolon])
        · exact fun c₃ h₃ => ih (by omega) (Nat.le_of_succ_le_succ hle)
        · exact fun _ => mirrors_pure rfl
      · intro fault c₂ h₂
        cases fault with
        | anyType span => exact mirrors_pure rfl
        | _ => exact mirrors_throw rfl

theorem mirrors_arrowHead : Mirrors ρ NoSemicolon False 0 (fun u : Unit => u) arrowHead arrowHead c := by
  -- what is left to do once the parameters have been passed
  have hrest : ∀ c, Mirrors ρ NoSemicolon False 0 (fun u : Unit => u) (do
      let _ ← expect (.mark .parenClose)
      let _ ← optionalType
      let _ ← expect (.mark .arrow)) (do
      let _ ← expect (.mark .parenClose)
      let _ ← optionalType
      let _ ← expect (.mark .arrow)) c := by
    intro c
    apply mirrors_bind (mirrors_expect (by simp [NoSemicolon]))
    intro _ c₁ h₁
    apply mirrors_bind mirrors_optionalType
    intro _ c₂ h₂
    apply mirrors_bind (mirrors_expect (by simp [NoSemicolon]))
    exact fun _ c₃ h₃ => mirrors_pure rfl
  apply mirrors_bind (mirrors_expect (by simp [NoSemicolon]))
  intro _ c₁ h₁
  apply mirrors_sees
  split
  · exact hrest c₁
  · apply mirrors_get
    apply mirrors_bind (mirrors_skimParams (Nat.le_refl _) (length_cursor ρ _))
    intro cut c₂ h₂
    cases cut with
    | true => exact mirrors_pure rfl
    | false => exact hrest c₂

theorem paramsWithin_nil (h : c.rest = []) (bound : Nat) :
    (paramsWithin bound).run c = (unexpected "parameter name" : Reader (List Param)).run c := by
  obtain ⟨_, last, stop, nextId, faults⟩ := c
  cases h
  cases bound <;> rfl

theorem mirrors_paramsWithin (h : c.rest.length ≤ bound) (hle : bound ≤ bound') :
    Mirrors ρ NoSemicolon False 0 (List.map (Param.relocate ρ.toRelocation)) (paramsWithin bound)
      (paramsWithin bound') c := by
  induction bound generalizing bound' c with
  | zero =>
    have hrest : c.rest = [] := List.eq_nil_of_length_eq_zero (Nat.le_zero.mp h)
    apply (mirrors_unexpected "parameter name").congr (paramsWithin_nil hrest _)
    intro hc
    apply paramsWithin_nil
    rw [cursor, hrest, (hc.whole hrest).1]
    rfl
  | succ bound ih =>
    cases bound' with
    | zero => cases hle
    | succ bound' =>
      apply mirrors_bind (mirrors_expectIdent (by simp [NoSemicolon]) _)
      rintro ⟨name, start⟩ c₁ h₁
      apply mirrors_bind mirrors_optionalType
      intro type c₂ h₂
      have hspan : ((type.map (TypeExpr.relocate ρ.toRelocation)).map fun t =>
            (start.relocate ρ.toRelocation).merge t.span).getD (start.relocate ρ.toRelocation) =
          ((type.map fun t => start.merge t.span).getD start).relocate ρ.toRelocation := by
        cases type with
        | none => rfl
        | some t =>
          simp only [Option.map_some, Option.getD_some, TypeExpr.span_relocate, Span.relocate_merge]
      apply mirrors_bind mirrors_freshId
      intro id c₃ h₃
      apply mirrors_eat (by simp [NoSemicolon])
      · intro c₄ h₄
        apply mirrors_bind (ih (by omega) (Nat.le_of_succ_le_succ hle))
        intro rest c₅ h₅
        apply mirrors_pure
        rw [hspan]
        rfl
      · intro _
        apply mirrors_pure
        rw [hspan]
        rfl

theorem mirrors_signature :
    Mirrors ρ NoSemicolon False 0
      (fun s => (s.1.map (Param.relocate ρ.toRelocation), s.2.map (TypeExpr.relocate ρ.toRelocation)))
      signature signature c := by
  have hrest : ∀ (params : List Param) (c : Cursor), Mirrors ρ NoSemicolon False 0
      (fun s => (s.1.map (Param.relocate ρ.toRelocation), s.2.map (TypeExpr.relocate ρ.toRelocation)))
      (do
        let _ ← expect (.mark .parenClose)
        let result ← optionalType
        let _ ← expect (.mark .arrow)
        if ← sees (.mark .braceOpen) then return (params, result)
        else throw (.expressionBody (← here)))
      (do
        let _ ← expect (.mark .parenClose)
        let result ← optionalType
        let _ ← expect (.mark .arrow)
        if ← sees (.mark .braceOpen) then
          return (params.map (Param.relocate ρ.toRelocation), result)
        else throw (.expressionBody (← here))) c := by
    intro params c
    apply mirrors_bind (mirrors_expect (by simp [NoSemicolon]))
    intro _ c₁ h₁
    apply mirrors_bind mirrors_optionalType
    intro result c₂ h₂
    apply mirrors_bind (mirrors_expect (by simp [NoSemicolon]))
    intro _ c₃ h₃
    apply mirrors_sees
    split
    · exact mirrors_pure rfl
    · apply mirrors_here
      exact mirrors_throw rfl
  apply mirrors_sees
  split
  · exact hrest [] c
  · apply mirrors_get
    apply mirrors_bind (mirrors_paramsWithin (Nat.le_refl _) (length_cursor ρ _))
    exact fun params c₁ h₁ => hrest params c₁

end ArrowCheck.Reader
