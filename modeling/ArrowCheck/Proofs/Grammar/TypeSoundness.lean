import ArrowCheck.Proofs.Grammar.Readers

namespace ArrowCheck

def NoPair (ts : List TokenKind) : Prop :=
  ∀ us, ts ≠ .mark .bracketOpen :: .mark .bracketClose :: us

structure TypeStops (ts : List TokenKind) : Prop where
  noPair : NoPair ts
  noBar : ts.head? ≠ some (.mark .pipe)

namespace SpellsType

variable {g : Bool} {ts us : List TokenKind} {ph : TypePhrase} {b t : TypeExpr}

theorem suffix_of (h : SpellsType g ph ts us) : us <:+ ts := by
  induction h with
  | single _ ih => exact ih
  | union _ _ _ ih₁ ih₂ => exact ih₂.trans ((List.suffix_cons _ _).trans ih₁)
  | member _ _ ih₁ ih₂ => exact ih₂.trans ih₁
  | noSuffix | noField => exact List.suffix_refl _
  | suffix _ _ ih => exact ih.trans ((List.suffix_cons _ _).trans (List.suffix_cons _ _))
  | arrayOf _ ih =>
    exact ((List.suffix_cons _ _).trans ih).trans ((List.suffix_cons _ _).trans (List.suffix_cons _ _))
  | word | name => exact List.suffix_cons _ _
  | function _ _ ih₁ ih₂ =>
    exact (ih₂.trans (((List.suffix_cons _ _).trans (List.suffix_cons _ _)).trans ih₁)).trans
      (List.suffix_cons _ _)
  | object _ ih => exact ((List.suffix_cons _ _).trans ih).trans (List.suffix_cons _ _)
  | lastField _ ih => exact ih.trans ((List.suffix_cons _ _).trans (List.suffix_cons _ _))
  | field _ _ ih₁ ih₂ =>
    exact (ih₂.trans ((List.suffix_cons _ _).trans ih₁)).trans
      ((List.suffix_cons _ _).trans (List.suffix_cons _ _))

theorem length_le (h : SpellsType g ph ts us) : us.length ≤ ts.length := h.suffix_of.length_le

theorem length_lt (h : SpellsType g (.base b) ts us) : us.length < ts.length := by
  cases h with
  | arrayOf h | object h =>
    have := h.length_le
    simp only [List.length_cons] at this ⊢
    omega
  | word | name => simp
  | function h₁ h₂ =>
    have h₁ := h₁.length_le
    have h₂ := h₂.length_le
    simp only [List.length_cons] at h₁ ⊢
    omega

theorem member_length_lt (h : SpellsType g (.member t) ts us) : us.length < ts.length := by
  cases h with
  | member h₁ h₂ => exact Nat.lt_of_le_of_lt h₂.length_le h₁.length_lt

theorem suffixes_cases (h : SpellsType g (.suffixes b t) ts us) :
    (t = b ∧ us = ts) ∨ ∃ e span, t = .array e span := by
  generalize hph : TypePhrase.suffixes b t = ph at h
  induction h generalizing b with
  | noSuffix =>
    cases hph
    exact .inl ⟨rfl, rfl⟩
  | suffix _ _ ih =>
    cases hph
    rcases ih rfl with ⟨rfl, -⟩ | h
    · exact .inr ⟨_, _, rfl⟩
    · exact .inr h
  | _ => cases hph

theorem alternatives_member (h : SpellsType g (.member t) ts us) : t.alternatives = [t] := by
  cases h with
  | member h₁ h₂ =>
    rcases h₂.suffixes_cases with ⟨rfl, -⟩ | ⟨e, span, rfl⟩
    · cases h₁ <;> rfl
    · rfl

end SpellsType

namespace Reader

variable {g : Bool}

/-- All pairs of brackets are read, unless the bound on their number is too small. -/
theorem reads_arraySuffix (n : Nat) (t : TypeExpr) {c : Cursor}
    (ht : t.IsFunction → NoPair c.kinds) :
    Reads (arraySuffix n t) c fun t' us =>
      SpellsType g (.suffixes t t') c.kinds us ∧ (c.kinds.length ≤ n → NoPair us) := by
  induction n generalizing t c with
  | zero =>
    refine reads_pure ⟨.noSuffix, fun hlen us hus => ?_⟩
    rw [hus] at hlen
    simp at hlen
  | succ n ih =>
    refine reads_bind reads_get ?_
    rintro _ c₁ ⟨rfl, hkinds⟩
    split
    · rename_i c _ start stop tokens hrest
      have hc : c.kinds = .mark .bracketOpen :: .mark .bracketClose :: tokens.map Token.kind := by
        rw [Cursor.kinds, hrest]
        rfl
      have hfun : ¬ t.IsFunction := fun h => ht h _ hc
      refine reads_bind reads_advance fun _ c₂ hkinds₂ => reads_bind reads_advance
        fun _ c₃ hkinds₃ => ?_
      have hc₃ : c₃.kinds = tokens.map Token.kind := by
        rw [hkinds₃, hkinds₂, hkinds, hc]
        rfl
      refine (ih (.array t (t.span.merge stop)) fun h => h.elim).imp ?_
      rintro t' us ⟨hspells, hstops⟩
      rw [hc₃] at hspells hstops
      rw [hc]
      refine ⟨.suffix (fun _ => hfun) hspells, fun hlen => hstops ?_⟩
      simp only [List.length_cons] at hlen
      omega
    · rename_i c _ hrest
      refine reads_pure ⟨hkinds ▸ .noSuffix, fun _ us hus => ?_⟩
      rw [hkinds, Cursor.kinds] at hus
      obtain ⟨t₁, tokens, hrest₁, ht₁, hus⟩ := List.map_eq_cons_iff.mp hus
      obtain ⟨t₂, tokens, rfl, ht₂, -⟩ := List.map_eq_cons_iff.mp hus
      obtain ⟨kind₁, span₁⟩ := t₁
      obtain ⟨kind₂, span₂⟩ := t₂
      cases ht₁
      cases ht₂
      exact hrest _ _ _ hrest₁

theorem reads_arraySuffixes (t : TypeExpr) {c : Cursor} (ht : t.IsFunction → NoPair c.kinds) :
    Reads (arraySuffixes t) c fun t' us => SpellsType g (.suffixes t t') c.kinds us ∧ NoPair us := by
  refine reads_bind reads_get ?_
  rintro _ c₁ ⟨rfl, hkinds⟩
  refine (reads_arraySuffix (g := g) _ t (hkinds ▸ ht)).imp ?_
  rintro t' us ⟨hspells, hstops⟩
  rw [hkinds] at hspells hstops
  exact ⟨hspells, hstops (Nat.le_of_eq (Cursor.length_kinds _))⟩

/-- What the readers of types read, if the bound on their depth is large enough. -/
structure TypeReaders (g : Bool) (bound : Nat) : Prop where
  type : ∀ {c : Cursor}, 2 * c.kinds.length + 2 ≤ bound → Reads (typeWithin bound) c fun t us =>
    SpellsType g (.type t) c.kinds us ∧ TypeStops us
  union : ∀ {c : Cursor} {t : TypeExpr}, 2 * c.kinds.length + 1 ≤ bound → NoPair c.kinds →
    Reads (unionWithin bound t) c fun t' us => TypeStops us ∧
      ((t' = t ∧ us = c.kinds) ∨ ∃ vs u span, c.kinds = .mark .pipe :: vs ∧
        SpellsType g (.type u) vs us ∧ t' = .union (t.alternatives ++ u.alternatives) span)
  base : ∀ {c : Cursor}, 2 * c.kinds.length + 1 ≤ bound → Reads (baseWithin bound) c fun t us =>
    SpellsType g (.base t) c.kinds us ∧ (t.IsFunction → TypeStops us)
  fields : ∀ {c : Cursor} {close : Mark} {what : String}, 2 * c.kinds.length + 2 ≤ bound →
    Reads (fieldsWithin bound close what) c fun fs us => SpellsType g (.fields fs) c.kinds us

namespace TypeReaders

variable {bound : Nat} {c : Cursor}

theorem member (h : TypeReaders g bound) (hbound : 2 * c.kinds.length + 1 ≤ bound) {α : Type}
    {f : TypeExpr → Reader α} {Q : α → List TokenKind → Prop}
    (hf : ∀ t c', SpellsType g (.member t) c.kinds c'.kinds → NoPair c'.kinds →
      (t.IsFunction → TypeStops c'.kinds) → Reads (f t) c' Q) :
    Reads (do let b ← baseWithin bound; let t ← arraySuffixes b; f t) c Q := by
  refine reads_bind (h.base hbound) ?_
  rintro b c₁ ⟨hb, hstops⟩
  refine reads_bind (reads_arraySuffixes (g := g) b fun hfun => (hstops hfun).noPair) ?_
  rintro t c₂ ⟨ht, hpair⟩
  refine hf t c₂ (.member hb ht) hpair fun hfun => ?_
  rcases ht.suffixes_cases with ⟨rfl, hus⟩ | ⟨e, span, rfl⟩
  · rw [hus]
    exact hstops hfun
  · exact hfun.elim

theorem type_succ (h : TypeReaders g bound) (hbound : 2 * c.kinds.length + 2 ≤ bound + 1) :
    Reads (typeWithin (bound + 1)) c fun t us =>
      SpellsType g (.type t) c.kinds us ∧ TypeStops us := by
  refine h.member (by omega) fun m c₁ hm hpair hfun => ?_
  have hlt := hm.member_length_lt
  refine (h.union (by omega) hpair).imp ?_
  rintro t us ⟨hstops, ⟨rfl, rfl⟩ | ⟨vs, u, span, hvs, hu, rfl⟩⟩
  · exact ⟨.single hm, hstops⟩
  · rw [hvs] at hm hfun
    rw [hm.alternatives_member]
    exact ⟨.union (fun _ hf => (hfun hf).noBar rfl) hm hu, hstops⟩

theorem union_succ (h : TypeReaders g bound) {t : TypeExpr}
    (hbound : 2 * c.kinds.length + 1 ≤ bound + 1) (hpair : NoPair c.kinds) :
    Reads (unionWithin (bound + 1) t) c fun t' us => TypeStops us ∧
      ((t' = t ∧ us = c.kinds) ∨ ∃ vs u span, c.kinds = .mark .pipe :: vs ∧
        SpellsType g (.type u) vs us ∧ t' = .union (t.alternatives ++ u.alternatives) span) := by
  refine reads_bind reads_eat ?_
  rintro _ c₁ (⟨rfl, hkinds⟩ | ⟨rfl, hkinds, hbar⟩)
  · rw [hkinds, List.length_cons] at hbound
    refine h.member (by omega) fun m c₂ hm hpair₂ hfun => ?_
    have hlt := hm.member_length_lt
    refine (h.union (by omega) hpair₂).imp ?_
    rintro t' us ⟨hstops, ⟨rfl, rfl⟩ | ⟨vs, u, span, hvs, hu, rfl⟩⟩
    · exact ⟨hstops, .inr ⟨_, m, _, hkinds, .single hm, rfl⟩⟩
    · rw [hvs] at hm hfun
      have hjoin : (t.join m).alternatives = t.alternatives ++ [m] := by
        rw [TypeExpr.join, TypeExpr.alternatives, hm.alternatives_member]
      refine ⟨hstops, .inr ⟨_, .union (m :: u.alternatives) span, span, hkinds,
        .union (fun _ hf => (hfun hf).noBar rfl) hm hu, ?_⟩⟩
      rw [hjoin, List.append_assoc]
      rfl
  · rw [← hkinds] at hpair hbar
    exact reads_pure ⟨⟨hpair, hbar⟩, .inl ⟨rfl, hkinds⟩⟩

theorem fields_succ (h : TypeReaders g bound) {close : Mark} {what : String}
    (hbound : 2 * c.kinds.length + 2 ≤ bound + 1) :
    Reads (fieldsWithin (bound + 1) close what) c fun fs us =>
      SpellsType g (.fields fs) c.kinds us := by
  refine reads_bind reads_atEnd ?_
  rintro atEnd c₁ ⟨-, hkinds₁⟩
  refine reads_bind reads_sees ?_
  rintro seen c₂ ⟨-, hkinds₂⟩
  have hc₂ := hkinds₂.trans hkinds₁
  split
  · exact reads_pure (hc₂ ▸ .noField)
  · refine reads_bind reads_expectIdent fun name c₃ hkinds₃ => ?_
    refine reads_bind reads_expect fun _ c₄ hkinds₄ => ?_
    have hc : c.kinds = .ident name.1 :: .mark .colon :: c₄.kinds := by
      rw [← hc₂, hkinds₃, hkinds₄]
    rw [hc] at hbound ⊢
    simp only [List.length_cons] at hbound
    refine reads_bind (h.type (by omega)) ?_
    rintro type c₅ ⟨htype, -⟩
    have hle := htype.length_le
    refine reads_bind reads_eat ?_
    rintro _ c₆ (⟨rfl, hkinds₆⟩ | ⟨rfl, hkinds₆, -⟩)
    · rw [hkinds₆] at htype hle
      simp only [List.length_cons] at hle
      refine reads_bind (h.fields (by omega)) fun fs c₇ hfs => reads_pure ?_
      exact .field htype hfs
    · refine reads_pure ?_
      rw [hkinds₆]
      exact .lastField htype

theorem function_reads (h : TypeReaders g bound) {start : Span}
    (hbound : 2 * c.kinds.length + 2 ≤ bound) :
    Reads (do
      let params ← fieldsWithin bound .parenClose "parameter name"
      let _ ← expect (.mark .parenClose)
      let _ ← expect (.mark .arrow)
      let result ← typeWithin bound
      return .function params result (start.merge result.span)) c fun t us =>
        SpellsType g (.base t) (.mark .parenOpen :: c.kinds) us ∧ (t.IsFunction → TypeStops us) := by
  refine reads_bind (h.fields hbound) fun params c₁ hparams => ?_
  have hle := hparams.length_le
  refine reads_bind reads_expect fun _ c₂ hkinds₂ => reads_bind reads_expect fun _ c₃ hkinds₃ => ?_
  rw [hkinds₂, hkinds₃] at hparams hle
  simp only [List.length_cons] at hle
  refine reads_bind (h.type (by omega)) ?_
  rintro result c₄ ⟨hresult, hstops⟩
  exact reads_pure ⟨.function hparams hresult, fun _ => hstops⟩

theorem base_succ (h : TypeReaders g bound) (hbound : 2 * c.kinds.length + 1 ≤ bound + 1) :
    Reads (baseWithin (bound + 1)) c fun t us =>
      SpellsType g (.base t) c.kinds us ∧ (t.IsFunction → TypeStops us) := by
  refine reads_bind reads_here fun start c₁ hkinds₁ => reads_bind reads_kind? ?_
  rintro _ c₂ ⟨rfl, hkinds₂⟩
  -- what follows the first token, once it is read
  have hadvance : ∀ k, c₁.kinds.head? = some k → ∀ c₃ : Cursor, c₃.kinds = c₂.kinds.tail →
      c.kinds = k :: c₃.kinds := by
    intro k hk c₃ hkinds₃
    rw [← hkinds₁, hkinds₃, hkinds₂]
    exact eq_cons_of_head? (by rw [hk]; exact beq_self_eq_true _)
  split
  · rename_i hhead
    refine reads_bind reads_advance fun _ c₃ hkinds₃ => ?_
    have hc := hadvance _ hhead c₃ hkinds₃
    rw [hc] at hbound ⊢
    simp only [List.length_cons] at hbound
    refine reads_bind reads_eat ?_
    rintro _ c₄ (⟨rfl, hkinds₄⟩ | ⟨rfl, hkinds₄, -⟩)
    · rw [hkinds₄, List.length_cons] at hbound
      refine reads_bind (h.type (by omega)) ?_
      rintro element c₅ ⟨helement, -⟩
      refine reads_bind reads_expect fun stop c₆ hkinds₆ => reads_pure ⟨?_, fun hf => hf.elim⟩
      rw [hkinds₆] at helement
      rw [hkinds₄]
      exact .arrayOf helement
    · refine reads_pure ⟨?_, fun hf => hf.elim⟩
      rw [hkinds₄]
      exact .word
  · rename_i w _ hhead
    refine reads_bind reads_advance fun _ c₃ hkinds₃ => reads_pure ⟨?_, fun hf => hf.elim⟩
    rw [hadvance _ hhead c₃ hkinds₃]
    exact .word
  · rename_i name hhead
    split
    · exact reads_throw _
    · rename_i hany
      refine reads_bind reads_advance fun _ c₃ hkinds₃ => reads_pure ⟨?_, fun hf => hf.elim⟩
      rw [hadvance _ hhead c₃ hkinds₃]
      exact .name (by simpa using hany)
  · rename_i hhead
    refine reads_bind reads_advance fun _ c₃ hkinds₃ => ?_
    have hc := hadvance _ hhead c₃ hkinds₃
    rw [hc] at hbound ⊢
    simp only [List.length_cons] at hbound
    exact h.function_reads (by omega)
  · rename_i hhead
    refine reads_bind reads_advance fun _ c₃ hkinds₃ => ?_
    have hc := hadvance _ hhead c₃ hkinds₃
    rw [hc] at hbound ⊢
    simp only [List.length_cons] at hbound
    refine reads_bind (h.fields (by omega)) fun fs c₄ hfs => ?_
    refine reads_bind reads_expect fun stop c₅ hkinds₅ => reads_pure ⟨?_, fun hf => hf.elim⟩
    rw [hkinds₅] at hfs
    exact .object hfs
  · exact reads_unexpected _

end TypeReaders

theorem typeReaders (bound : Nat) : TypeReaders g bound := by
  induction bound with
  | zero =>
    exact ⟨fun h => absurd h (by omega), fun h => absurd h (by omega), fun h => absurd h (by omega),
      fun h => absurd h (by omega)⟩
  | succ bound ih => exact ⟨ih.type_succ, ih.union_succ, ih.base_succ, ih.fields_succ⟩

variable {c : Cursor}

theorem reads_typeExpr : Reads typeExpr c fun t us =>
    SpellsType g (.type t) c.kinds us ∧ TypeStops us := by
  refine reads_bind reads_get ?_
  rintro c₀ c₁ ⟨rfl, hkinds⟩
  rw [← hkinds]
  refine (typeReaders _).type ?_
  exact Nat.le_of_eq (by rw [hkinds, Cursor.length_kinds])

theorem reads_optionalType : Reads optionalType c fun t us =>
    SpellsAnnotated g t c.kinds us ∧
      (t = none → us.head? ≠ some (.mark .colon)) ∧ (t ≠ none → TypeStops us) := by
  refine reads_bind reads_eat ?_
  rintro _ c₁ (⟨rfl, hkinds⟩ | ⟨rfl, hkinds, hcolon⟩)
  · refine reads_bind (reads_typeExpr (g := g)) ?_
    rintro t c₂ ⟨ht, hstops⟩
    exact reads_pure ⟨⟨_, hkinds, ht⟩, by simp, fun _ => hstops⟩
  · exact reads_pure ⟨hkinds.symm, fun _ => hkinds ▸ hcolon, by simp⟩

end Reader

end ArrowCheck
