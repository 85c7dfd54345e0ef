import ArrowCheck.Proofs.Layout.Framing
import ArrowCheck.Proofs.Recovery.Reports

namespace ArrowCheck

namespace Reader

variable {α β : Type} {r : Reader α} {f : α → Reader β} {c : Cursor} {k : TokenKind}
  {us rest pre pre' : List TokenKind} {why : Cursor → ParseFault} {P : α → Prop}

/-- The reader fails with the tokens `rest` ahead, for a reason given at that place, and records
nothing. -/
def Fails (r : Reader α) (c : Cursor) (rest : List TokenKind) (why : Cursor → ParseFault) : Prop :=
  Meets r c fun x d => x = .error (why d) ∧ d.kinds = rest ∧ d.faults = c.faults

theorem fails_bind (h : Fails r c rest why) : Fails (r >>= f) c rest why := by
  refine meets_bind.mpr (Meets.imp h ?_)
  rintro x d ⟨rfl, hd⟩
  exact ⟨rfl, hd⟩

theorem gives_meets {Q : Except ParseFault β → Cursor → Prop} (h : Gives r c us P)
    (hf : ∀ a c', P a → c'.kinds = us → c'.faults = c.faults → Meets (f a) c' Q) :
    Meets (r >>= f) c Q := by
  refine meets_bind.mpr (Meets.imp h ?_)
  rintro x c' ⟨⟨a, rfl, ha⟩, hkinds, hfaults⟩
  exact hf a c' ha hkinds hfaults

theorem Fails.after {c' : Cursor} (h : Fails r c' rest why) (hfaults : c'.faults = c.faults) :
    Meets r c' fun x d => x = .error (why d) ∧ d.kinds = rest ∧ d.faults = c.faults := by
  obtain ⟨hx, hrest, hfaults'⟩ := h
  exact ⟨hx, hrest, hfaults'.trans hfaults⟩

theorem gives_fails (h : Gives r c us P)
    (hf : ∀ a c', P a → c'.kinds = us → c'.faults = c.faults → Fails (f a) c' rest why) :
    Fails (r >>= f) c rest why :=
  gives_meets h fun a c' ha hkinds hfaults => (hf a c' ha hkinds hfaults).after hfaults

theorem Fails.isOk (h : Fails r c rest why) : (r.run c).1.isOk = false := by
  obtain ⟨hx, -⟩ := h
  rw [hx]
  rfl

theorem gives_caught (h : Fails r c rest why) :
    Gives (attempt r) c rest fun x => ∃ d, x = .error (why d) := by
  obtain ⟨hx, hkinds, hfaults⟩ := h
  exact ⟨⟨_, rfl, _, hx⟩, hkinds, hfaults⟩

theorem fails_first {F : Span → Option TokenKind → Reader β} (h : c.kinds = k :: us)
    (hF : Fails (F c.here (some k)) c rest why) :
    Fails (do let start ← here; let next ← kind?; F start next) c rest why := by
  have hkind : c.kind? = some k := by rw [c.kind?_eq_head?, h, List.head?_cons]
  unfold Fails
  rw [meets_here, meets_kind?, hkind]
  exact hF

theorem fails_unexpected (expected : String) :
    Fails (unexpected expected : Reader α) c c.kinds (·.unexpected expected) :=
  ⟨rfl, rfl, rfl⟩

theorem fails_expect (h : c.kinds.head? ≠ some k) :
    Fails (expect k) c c.kinds (·.unexpected k.describe) := by
  refine gives_fails gives_here fun _ c₁ _ hkinds₁ _ => gives_fails gives_sees ?_
  rintro _ c₂ rfl hkinds₂ -
  have hseen : ¬ (c₁.kinds.head? == some k) = true := by simpa [hkinds₁] using h
  rw [if_neg hseen, ← hkinds₁, ← hkinds₂]
  exact fails_unexpected _

def Stops (r : Reader α) (c : Cursor) (rest : List TokenKind) : Prop :=
  Fails r c (.ident "any" :: rest) fun d => .anyType d.here

/-- The reader of a phrase goes past the tokens `pre` and stops at the type `any` behind them. -/
def StopsType : TypePhrase → (pre : List TokenKind) → Prop
  | .type _, pre =>
    (∀ ⦃c : Cursor⦄ ⦃bound : Nat⦄ ⦃rest : List TokenKind⦄, c.kinds = pre ++ .ident "any" :: rest →
      2 * c.kinds.length + 2 ≤ bound → Stops (typeWithin bound) c rest) ∧
    ∀ ⦃c : Cursor⦄ ⦃bound : Nat⦄ ⦃l : TypeExpr⦄ ⦃rest : List TokenKind⦄,
      c.kinds = .mark .pipe :: (pre ++ .ident "any" :: rest) → 2 * c.kinds.length ≤ bound →
        Stops (unionWithin bound l) c rest
  | .member _, pre | .base _, pre =>
    ∀ ⦃c : Cursor⦄ ⦃bound : Nat⦄ ⦃rest : List TokenKind⦄, c.kinds = pre ++ .ident "any" :: rest →
      2 * c.kinds.length + 1 ≤ bound → Stops (baseWithin bound) c rest
  | .suffixes _ _, _ => False
  | .fields _, pre =>
    ∀ ⦃c : Cursor⦄ ⦃bound : Nat⦄ ⦃close : Mark⦄ ⦃what : String⦄ ⦃rest : List TokenKind⦄,
      c.kinds = pre ++ .ident "any" :: rest → 2 * c.kinds.length + 2 ≤ bound →
        Stops (fieldsWithin bound close what) c rest

variable {t m b : TypeExpr} {span : Span}

theorem stopsType_single (h : StopsType (.member m) pre) (t : TypeExpr) : StopsType (.type t) pre := by
  constructor
  · intro c bound rest hc hbound
    obtain ⟨n, rfl⟩ : ∃ n, bound = n + 1 := ⟨bound - 1, by omega⟩
    exact fails_bind (h hc (by omega))
  · intro c bound l rest hc hbound
    have hlength : c.kinds.length = (pre ++ .ident "any" :: rest).length + 1 := by rw [hc]; rfl
    obtain ⟨n, rfl⟩ : ∃ n, bound = n + 1 := ⟨bound - 1, by omega⟩
    refine gives_fails (gives_eat hc) ?_
    rintro _ c₁ rfl hkinds₁ -
    rw [← hkinds₁] at hlength
    exact fails_bind (h hkinds₁ (by omega))

theorem fails_member {ts : List TokenKind} (hm : GivesType (.member m) ts us) (hus : MemberEnds us)
    (hfun : m.IsFunction → TypeEnds us) {bound : Nat} (hc : c.kinds = ts)
    (hbound : 2 * ts.length + 1 ≤ bound) {f : TypeExpr → Reader α}
    (hf : ∀ m' c', c'.kinds = us → Fails (f m') c' rest why) :
    Fails (do let b ← baseWithin bound; let t ← arraySuffixes b; f t) c rest why := by
  obtain ⟨b, vs, hbase, hsuffixes⟩ := hm hus hfun
  refine gives_fails (hbase hc hbound) fun b' c₁ hb' hkinds₁ _ => ?_
  exact gives_fails (hsuffixes hb' hkinds₁) fun m' c₂ _ hkinds₂ _ => hf m' c₂ hkinds₂

theorem stopsType_union (hm : ∀ vs, SpellsType true (.member m) (pre ++ vs) vs) (hfun : ¬ m.IsFunction)
    (ht : StopsType (.type t) pre') (u : TypeExpr) :
    StopsType (.type u) (pre ++ .mark .pipe :: pre') := by
  have hbar : ∀ us, MemberEnds (.mark .pipe :: us) := fun us => ⟨by simp, by simp⟩
  constructor
  · intro c bound rest hc hbound
    rw [List.append_assoc, List.cons_append] at hc
    obtain ⟨n, rfl⟩ : ∃ n, bound = n + 1 := ⟨bound - 1, by omega⟩
    refine fails_member (givesType (hm _)) (hbar _) (fun h => absurd h hfun) hc
      (by rw [← hc]; omega) fun m' c₁ hkinds₁ => ?_
    rw [hc, List.length_append, ← hkinds₁] at hbound
    exact ht.2 hkinds₁ (by omega)
  · intro c bound l rest hc hbound
    rw [List.append_assoc, List.cons_append] at hc
    rw [hc, List.length_cons] at hbound
    obtain ⟨n, rfl⟩ : ∃ n, bound = n + 1 := ⟨bound - 1, by omega⟩
    refine gives_fails (gives_eat hc) ?_
    rintro _ c₁ rfl hkinds₁ -
    refine fails_member (givesType (hm _)) (hbar _) (fun h => absurd h hfun) hkinds₁ (by omega)
      fun m' c₂ hkinds₂ => ?_
    rw [List.length_append, ← hkinds₂] at hbound
    exact ht.2 hkinds₂ (by omega)

theorem stopsType_arrayOf (h : StopsType (.type t) pre) :
    StopsType (.base b) (.typeWord .array :: .mark .less :: pre) := by
  intro c bound rest hc hbound
  rw [List.cons_append, List.cons_append] at hc
  rw [hc, List.length_cons, List.length_cons] at hbound
  obtain ⟨n, rfl⟩ : ∃ n, bound = n + 1 := ⟨bound - 1, by omega⟩
  refine fails_first hc (gives_fails (gives_advance hc) fun _ c₁ _ hkinds₁ _ => ?_)
  refine gives_fails (gives_eat hkinds₁) ?_
  rintro _ c₂ rfl hkinds₂ -
  rw [← hkinds₂] at hbound
  exact fails_bind (h.1 hkinds₂ (by omega))

theorem stopsType_any : StopsType (.base b) [] := by
  intro c bound rest hc hbound
  obtain ⟨n, rfl⟩ : ∃ n, bound = n + 1 := ⟨bound - 1, by omega⟩
  refine fails_first hc ?_
  simp only [beq_self_eq_true, if_true]
  exact ⟨rfl, hc, rfl⟩

theorem stopsType_opened {fs : List Field} {m : Mark} (hm : m = .parenOpen ∨ m = .braceOpen)
    (h : StopsType (.fields fs) pre) : StopsType (.base b) (.mark m :: pre) := by
  intro c bound rest hc hbound
  rw [List.cons_append] at hc
  rw [hc, List.length_cons] at hbound
  obtain ⟨n, rfl⟩ : ∃ n, bound = n + 1 := ⟨bound - 1, by omega⟩
  have hfields : ∀ (close : Mark) (what : String) (c' : Cursor), c'.kinds = pre ++ .ident "any" :: rest →
      Stops (fieldsWithin n close what) c' rest := by
    intro close what c' hc'
    rw [← hc'] at hbound
    exact h hc' (by omega)
  obtain rfl | rfl := hm
  · refine fails_first hc (gives_fails (gives_advance hc) fun _ c₁ _ hkinds₁ _ => ?_)
    exact fails_bind (hfields _ _ c₁ hkinds₁)
  · refine fails_first hc (gives_fails (gives_advance hc) fun _ c₁ _ hkinds₁ _ => ?_)
    exact fails_bind (hfields _ _ c₁ hkinds₁)

theorem stopsType_result {ps : List Field} (hps : ∀ vs, SpellsType true (.fields ps) (pre ++ vs) vs)
    (ht : StopsType (.type t) pre') :
    StopsType (.base b) (.mark .parenOpen :: (pre ++ .mark .parenClose :: .mark .arrow :: pre')) := by
  intro c bound rest hc hbound
  rw [List.cons_append, List.append_assoc, List.cons_append, List.cons_append] at hc
  rw [hc, List.length_cons] at hbound
  obtain ⟨n, rfl⟩ : ∃ n, bound = n + 1 := ⟨bound - 1, by omega⟩
  refine fails_first hc (gives_fails (gives_advance hc) fun _ c₁ _ hkinds₁ _ => ?_)
  refine gives_fails (givesType (hps _) (.inl rfl) rfl hkinds₁ (by omega)) fun _ c₂ _ hkinds₂ _ => ?_
  refine gives_fails (gives_expect hkinds₂) fun _ c₃ _ hkinds₃ _ => ?_
  refine gives_fails (gives_expect hkinds₃) fun _ c₄ _ hkinds₄ _ => ?_
  rw [List.length_append, List.length_cons, List.length_cons, ← hkinds₄] at hbound
  exact fails_bind (ht.1 hkinds₄ (by omega))

theorem fails_field {name what : String} {close : Mark} {bound : Nat}
    (hc : c.kinds = .ident name :: .mark .colon :: us)
    (hf : ∀ (start : Span) (c' : Cursor), c'.kinds = us → Fails (do
      let type ← typeWithin bound
      let field : Field := ⟨name, type, start.merge type.span⟩
      if ← eat (.mark .comma) then
        return field :: (← fieldsWithin bound close what)
      else
        return [field]) c' rest why) : Fails (fieldsWithin (bound + 1) close what) c rest why := by
  refine gives_fails gives_atEnd ?_
  rintro _ c₁ rfl hkinds₁ -
  refine gives_fails gives_sees ?_
  rintro _ c₂ rfl hkinds₂ -
  have hc₁ := hkinds₁.trans hc
  have hopen : ¬ (c.kinds.isEmpty || c₁.kinds.head? == some (.mark close)) = true := by
    rw [hc, hc₁]
    simp
  rw [if_neg hopen]
  refine gives_fails (gives_expectIdent (hkinds₂.trans hc₁)) ?_
  rintro _ c₃ ⟨start, rfl⟩ hkinds₃ -
  exact gives_fails (gives_expect hkinds₃) fun _ c₄ _ hkinds₄ _ => hf start c₄ hkinds₄

theorem stopsType_field {name : String} {fs : List Field} (h : StopsType (.type t) pre) :
    StopsType (.fields fs) (.ident name :: .mark .colon :: pre) := by
  intro c bound close what rest hc hbound
  rw [List.cons_append, List.cons_append] at hc
  rw [hc, List.length_cons, List.length_cons] at hbound
  obtain ⟨n, rfl⟩ : ∃ n, bound = n + 1 := ⟨bound - 1, by omega⟩
  refine fails_field hc fun start c₁ hkinds₁ => ?_
  rw [← hkinds₁] at hbound
  exact fails_bind (h.1 hkinds₁ (by omega))

theorem stopsType_fields {name : String} {fs fs' : List Field}
    (ht : ∀ vs, SpellsType true (.type t) (pre ++ vs) vs) (h : StopsType (.fields fs) pre') :
    StopsType (.fields fs') (.ident name :: .mark .colon :: (pre ++ .mark .comma :: pre')) := by
  intro c bound close what rest hc hbound
  rw [List.cons_append, List.cons_append, List.append_assoc, List.cons_append] at hc
  rw [hc, List.length_cons, List.length_cons] at hbound
  obtain ⟨n, rfl⟩ : ∃ n, bound = n + 1 := ⟨bound - 1, by omega⟩
  refine fails_field hc fun start c₁ hkinds₁ => ?_
  have hends : TypeEnds (.mark .comma :: (pre' ++ .ident "any" :: rest)) := .of_mark (by simp)
  refine gives_fails ((givesType (ht _) hends).1 hkinds₁ (by omega)) fun _ c₂ _ hkinds₂ _ => ?_
  refine gives_fails (gives_eat hkinds₂) ?_
  rintro _ c₃ rfl hkinds₃ -
  rw [List.length_append, List.length_cons, ← hkinds₃] at hbound
  exact fails_bind (h hkinds₃ (by omega))

end Reader

section FirstPlace

variable {name : String} {ts us vs : List TokenKind} {Q Q' : List TokenKind → Prop}

/-- The name stands among the tokens before `us`, and what comes before its first place has the
property. -/
def FirstPlace (name : String) (ts us : List TokenKind) (Q : List TokenKind → Prop) : Prop :=
  ∃ pre post, ts = pre ++ .ident name :: post ∧ us <:+ post ∧ .ident name ∉ pre ∧ Q pre

namespace FirstPlace

theorem imp (h : FirstPlace name ts us Q) (hQ : ∀ pre, Q pre → Q' pre) : FirstPlace name ts us Q' := by
  obtain ⟨pre, post, hts, hus, hpre, hQpre⟩ := h
  exact ⟨pre, post, hts, hus, hpre, hQ pre hQpre⟩

theorem widen (h : FirstPlace name ts us Q) (hvs : vs <:+ us) : FirstPlace name ts vs Q := by
  obtain ⟨pre, post, hts, hus, hpre, hQpre⟩ := h
  exact ⟨pre, post, hts, hvs.trans hus, hpre, hQpre⟩

theorem behind (before : List TokenKind) (h : FirstPlace name ts us Q) (hbefore : .ident name ∉ before)
    (hvs : vs = before ++ ts) (hQ : ∀ pre, Q pre → Q' (before ++ pre)) : FirstPlace name vs us Q' := by
  obtain ⟨pre, post, rfl, hus, hpre, hQpre⟩ := h
  refine ⟨before ++ pre, post, by rw [hvs, List.append_assoc], hus, ?_, hQ pre hQpre⟩
  exact fun hmem => (List.mem_append.mp hmem).elim hbefore hpre

end FirstPlace

end FirstPlace

section Types

open Reader

variable {name : String} {ts us : List TokenKind}

theorem isReserved_typeWord (w : TypeWord) : isReserved w.text = true := by
  cases w <;> decide

/-- With `any` in the place of a type name that is nothing else, a phrase is read up to its first place. -/
theorem SpellsType.stops {ph : TypePhrase} (h : SpellsType true ph ts us)
    (hreserved : isReserved name = false) (hname : .name name ∉ ph.atoms)
    (hany : .typeName name ∈ ph.atoms) : FirstPlace name ts us (StopsType ph) := by
  induction h with
  | single _ ih => exact (ih hname hany).imp fun pre h => stopsType_single h _
  | @union m t _ _ _ _ hfun hm ht ihm iht =>
    rw [TypePhrase.atoms, TypeExpr.atoms, typeAtoms, typeAtoms_alternatives, List.mem_append]
      at hname hany
    obtain ⟨hnamem, hnamet⟩ := not_or.mp hname
    by_cases hanym : .typeName name ∈ m.atoms
    · apply ((ihm hnamem hanym).widen (ht.suffix_of.trans (List.suffix_cons _ _))).imp
      exact fun pre h => stopsType_single h _
    · obtain ⟨pre, rfl, hnamed, hframe⟩ := hm.frame
      apply (iht hnamet (hany.resolve_left hanym)).behind (pre ++ [.mark .pipe])
      · simp [hnamed.not_mem hnamem hanym]
      · exact List.append_cons ..
      · intro pre' h
        rw [← List.append_cons]
        exact stopsType_union hframe (hfun rfl) h _
  | member _ hs ihb _ =>
    rw [TypePhrase.atoms, hs.atoms_suffixes] at hname hany
    exact ((ihb hname hany).widen hs.suffix_of).imp fun pre h => h
  | noSuffix | suffix => exact absurd hany List.not_mem_nil
  | arrayOf _ ih =>
    apply ((ih hname hany).widen (List.suffix_cons _ _)).behind [.typeWord .array, .mark .less]
    · simp
    · rfl
    · exact fun pre h => stopsType_arrayOf h
  | @word w =>
    rw [TypePhrase.atoms, TypeExpr.atoms, List.mem_singleton] at hany
    cases hany
    rw [isReserved_typeWord] at hreserved
    cases hreserved
  | name =>
    rw [TypePhrase.atoms, TypeExpr.atoms, List.mem_singleton] at hany
    cases hany
    exact ⟨[], _, rfl, List.suffix_refl _, List.not_mem_nil, stopsType_any⟩
  | @function ps r _ _ _ _ hps hr ihp ihr =>
    rw [TypePhrase.atoms, TypeExpr.atoms, List.mem_append] at hname hany
    obtain ⟨hnamep, hnamer⟩ := not_or.mp hname
    by_cases hanyp : .typeName name ∈ fieldAtoms ps
    · have hsuffix := hr.suffix_of.trans (List.suffix_append [.mark .parenClose, .mark .arrow] _)
      apply ((ihp hnamep hanyp).widen hsuffix).behind [.mark .parenOpen]
      · simp
      · rfl
      · exact fun pre h => stopsType_opened (.inl rfl) h
    · obtain ⟨pre, rfl, hnamed, hframe⟩ := hps.frame
      apply (ihr hnamer (hany.resolve_left hanyp)).behind
        (.mark .parenOpen :: pre ++ [.mark .parenClose, .mark .arrow])
      · simp [hnamed.not_mem hnamep hanyp]
      · simp
      · intro pre' h
        simpa using stopsType_result hframe h
  | object _ ih =>
    apply ((ih hname hany).widen (List.suffix_cons _ _)).behind [.mark .braceOpen]
    · simp
    · rfl
    · exact fun pre h => stopsType_opened (.inr rfl) h
  | noField => exact absurd hany List.not_mem_nil
  | @lastField field t _ _ _ _ ih =>
    rw [TypePhrase.atoms, fieldAtoms, fieldAtoms, List.append_nil, List.mem_cons] at hname hany
    obtain ⟨hne, hnamet⟩ := not_or.mp hname
    apply (ih hnamet (hany.resolve_left (by simp))).behind [.ident field, .mark .colon]
    · simpa using hne
    · rfl
    · exact fun pre h => stopsType_field h
  | @field field t _ fs _ _ _ ht hfs iht ihf =>
    rw [TypePhrase.atoms, fieldAtoms, List.cons_append, List.mem_cons, List.mem_append] at hname hany
    obtain ⟨hne, hrest⟩ := not_or.mp hname
    obtain ⟨hnamet, hnamef⟩ := not_or.mp hrest
    by_cases hanyt : .typeName name ∈ t.atoms
    · apply ((iht hnamet hanyt).widen (hfs.suffix_of.trans (List.suffix_cons _ _))).behind
        [.ident field, .mark .colon]
      · simpa using hne
      · rfl
      · exact fun pre h => stopsType_field h
    · obtain ⟨pre, rfl, hnamed, hframe⟩ := ht.frame
      apply (ihf hnamef ((hany.resolve_left (by simp)).resolve_left hanyt)).behind
        (.ident field :: .mark .colon :: pre ++ [.mark .comma])
      · simpa [hnamed.not_mem hnamet hanyt] using hne
      · simp
      · intro pre' h
        simpa using stopsType_fields hframe h

end Types

section Heads

open Reader

namespace Reader

variable {c : Cursor} {ts us vs rest pre pre' : List TokenKind} {t : TypeExpr} {type : Option TypeExpr}
  {name : String} {ps : List Param}

def StopsAnnotated (pre : List TokenKind) : Prop :=
  pre.head? = some (.mark .colon) ∧
    ∀ ⦃c : Cursor⦄ ⦃rest : List TokenKind⦄, c.kinds = pre ++ .ident "any" :: rest →
      Stops optionalType c rest

theorem stopsAnnotated_colon (h : StopsType (.type t) pre) : StopsAnnotated (.mark .colon :: pre) := by
  refine ⟨rfl, fun c rest hc => gives_fails (gives_eat hc) ?_⟩
  rintro _ c₁ rfl hkinds₁ -
  have htype : Stops typeExpr c₁ rest := by
    refine gives_fails gives_get ?_
    rintro c₀ c₂ rfl hkinds₂ -
    exact h.1 (hkinds₂.trans hkinds₁) (by rw [hkinds₂, Cursor.length_kinds])
  exact fails_bind htype

def StopsParams (pre : List TokenKind) : Prop :=
  (∃ name, pre.head? = some (.ident name)) ∧
    ∀ ⦃c : Cursor⦄ ⦃bound : Nat⦄ ⦃rest : List TokenKind⦄, c.kinds = pre ++ .ident "any" :: rest →
      c.kinds.length ≤ bound →
        Gives (skimParams bound) c (.ident "any" :: rest) (· = true) ∧ Stops (paramsWithin bound) c rest

theorem stopsParams_type (h : StopsAnnotated pre) : StopsParams (.ident name :: pre) := by
  refine ⟨⟨name, rfl⟩, fun c bound rest hc hbound => ?_⟩
  rw [List.cons_append] at hc
  rw [hc, List.length_cons] at hbound
  obtain ⟨n, rfl⟩ : ∃ n, bound = n + 1 := ⟨bound - 1, by omega⟩
  constructor
  · refine gives_bind (gives_expectIdent hc) ?_
    rintro _ c₁ ⟨start, rfl⟩ hkinds₁ -
    refine gives_bind (gives_caught (h.2 hkinds₁)) ?_
    rintro _ c₂ ⟨d, rfl⟩ hkinds₂ -
    exact gives_pure rfl hkinds₂
  · refine gives_fails (gives_expectIdent hc) ?_
    rintro _ c₁ ⟨start, rfl⟩ hkinds₁ -
    exact fails_bind (h.2 hkinds₁)

theorem stopsParams_more (htype : ∀ vs, SpellsAnnotated true type (pre ++ vs) vs)
    (h : StopsParams pre') : StopsParams (.ident name :: (pre ++ .mark .comma :: pre')) := by
  refine ⟨⟨name, rfl⟩, fun c bound rest hc hbound => ?_⟩
  rw [List.cons_append, List.append_assoc, List.cons_append] at hc
  rw [hc, List.length_cons, List.length_append, List.length_cons] at hbound
  obtain ⟨n, rfl⟩ : ∃ n, bound = n + 1 := ⟨bound - 1, by omega⟩
  have hread : ∀ {c' : Cursor}, c'.kinds = pre ++ .mark .comma :: (pre' ++ .ident "any" :: rest) →
      Gives optionalType c' _ _ := fun hc' =>
    gives_optionalType (htype (.mark .comma :: (pre' ++ .ident "any" :: rest))) (.of_mark (by simp))
      (by simp) hc'
  constructor
  · refine gives_bind (gives_expectIdent hc) ?_
    rintro _ c₁ ⟨start, rfl⟩ hkinds₁ -
    refine gives_bind (gives_attempt (hread hkinds₁)) ?_
    rintro _ c₂ ⟨type', rfl, -⟩ hkinds₂ -
    refine gives_bind (gives_eat hkinds₂) ?_
    rintro _ c₃ rfl hkinds₃ -
    rw [← hkinds₃] at hbound
    exact (h.2 hkinds₃ (by omega)).1
  · refine gives_fails (gives_expectIdent hc) ?_
    rintro _ c₁ ⟨start, rfl⟩ hkinds₁ -
    refine gives_fails (hread hkinds₁) fun type' c₂ _ hkinds₂ _ => ?_
    refine gives_fails gives_freshId fun id c₃ _ hkinds₃ _ => ?_
    refine gives_fails (gives_eat (hkinds₃.trans hkinds₂)) ?_
    rintro _ c₄ rfl hkinds₄ -
    rw [← hkinds₄] at hbound
    exact fails_bind (h.2 hkinds₄ (by omega)).2

theorem StopsParams.open (h : StopsParams pre) (hc : c.kinds = pre ++ .ident "any" :: rest) :
    ¬ (c.kinds.head? == some (.mark .parenClose)) = true := by
  obtain ⟨⟨name, hname⟩, -⟩ := h
  rw [hc, List.head?_append, hname]
  simp

theorem StopsParams.gives_arrowHead (h : StopsParams pre)
    (hc : c.kinds = .mark .parenOpen :: (pre ++ .ident "any" :: rest)) :
    Gives arrowHead c (.ident "any" :: rest) fun _ => True := by
  refine gives_bind (gives_expect hc) fun _ c₁ _ hkinds₁ _ => gives_bind gives_sees ?_
  rintro _ c₂ rfl hkinds₂ -
  rw [if_neg (h.open hkinds₁)]
  refine gives_bind gives_get ?_
  rintro c₀ c₃ rfl hkinds₃ -
  have hlength : c₃.kinds.length ≤ c₀.rest.length := by rw [hkinds₃, Cursor.length_kinds]
  refine gives_bind (h.2 (hkinds₃.trans (hkinds₂.trans hkinds₁)) hlength).1 ?_
  rintro _ c₄ rfl hkinds₄ -
  exact gives_pure trivial hkinds₄

theorem StopsParams.stops_signature (h : StopsParams pre)
    (hc : c.kinds = pre ++ .ident "any" :: rest) : Stops signature c rest := by
  refine gives_fails gives_sees ?_
  rintro _ c₁ rfl hkinds₁ -
  rw [if_neg (h.open hc)]
  refine gives_fails gives_get ?_
  rintro c₀ c₂ rfl hkinds₂ -
  have hlength : c₂.kinds.length ≤ c₀.rest.length := by rw [hkinds₂, Cursor.length_kinds]
  exact fails_bind (h.2 (hkinds₂.trans (hkinds₁.trans hc)) hlength).2

theorem StopsAnnotated.stops_arrowHead (h : StopsAnnotated pre')
    (hps : ∀ vs, SpellsParams true ps (pre ++ vs) vs)
    (hc : c.kinds = .mark .parenOpen :: (pre ++ .mark .parenClose :: (pre' ++ .ident "any" :: rest))) :
    Stops arrowHead c rest := by
  have hresult : ∀ {c' : Cursor}, c'.kinds = .mark .parenClose :: (pre' ++ .ident "any" :: rest) →
      Stops (do
        let _ ← expect (.mark .parenClose)
        let _ ← optionalType
        let _ ← expect (.mark .arrow)) c' rest := fun hc' =>
    gives_fails (gives_expect hc') fun _ c₂ _ hkinds₂ _ => fails_bind (h.2 hkinds₂)
  refine gives_fails (gives_expect hc) fun _ c₁ _ hkinds₁ _ => gives_fails gives_sees ?_
  rintro _ c₂ rfl hkinds₂ -
  have hspelled := hps (.mark .parenClose :: (pre' ++ .ident "any" :: rest))
  cases ps with
  | nil =>
    have hnone := hps []
    rw [List.append_nil] at hnone
    cases hnone
    rw [hkinds₁, if_pos (by simp)]
    exact hresult (hkinds₂.trans hkinds₁)
  | cons p ps =>
    have hopen : ¬ (c₁.kinds.head? == some (.mark .parenClose)) = true := by
      rw [hkinds₁]
      generalize pre ++ _ = ts at hspelled
      cases hspelled <;> simp
    rw [if_neg hopen]
    refine gives_fails gives_get ?_
    rintro c₀ c₃ rfl hkinds₃ -
    have hc₂ := hkinds₂.trans hkinds₁
    have hlength : (pre ++ .mark .parenClose :: (pre' ++ .ident "any" :: rest)).length ≤ c₀.rest.length :=
      Nat.le_of_eq (by rw [← hc₂, Cursor.length_kinds])
    refine gives_fails (gives_skimParams hspelled (by simp) (hkinds₃.trans hc₂) hlength) ?_
    rintro _ c₄ rfl hkinds₄ -
    exact hresult hkinds₄

end Reader

variable {name : String} {ts us : List TokenKind}

theorem SpellsAnnotated.stops {type : Option TypeExpr} (h : SpellsAnnotated true type ts us)
    (hreserved : isReserved name = false) (hname : .name name ∉ annotatedAtoms type)
    (hany : .typeName name ∈ annotatedAtoms type) : FirstPlace name ts us StopsAnnotated := by
  cases type with
  | none => exact absurd hany List.not_mem_nil
  | some t =>
    obtain ⟨_, rfl, ht⟩ := h
    apply (ht.stops hreserved hname hany).behind [.mark .colon]
    · simp
    · rfl
    · exact fun pre h => stopsAnnotated_colon h

theorem SpellsParams.stops {ps : List Param} (h : SpellsParams true ps ts us)
    (hreserved : isReserved name = false) (hname : .name name ∉ ps.flatMap Param.atoms)
    (hany : .typeName name ∈ ps.flatMap Param.atoms) : FirstPlace name ts us StopsParams := by
  induction h with
  | none => exact absurd hany List.not_mem_nil
  | @last node param type _ _ htype =>
    rw [List.flatMap_singleton, Param.atoms, List.mem_cons] at hname hany
    obtain ⟨hne, hnametype⟩ := not_or.mp hname
    apply (htype.stops hreserved hnametype (hany.resolve_left (by simp))).behind [.ident param]
    · simpa using hne
    · rfl
    · exact fun pre h => stopsParams_type h
  | @cons node param type p ps _ _ _ htype hps ih =>
    rw [List.flatMap_cons, Param.atoms, List.cons_append, List.mem_cons, List.mem_append] at hname hany
    obtain ⟨hne, hrest⟩ := not_or.mp hname
    obtain ⟨hnametype, hnameps⟩ := not_or.mp hrest
    by_cases hanytype : .typeName name ∈ annotatedAtoms type
    · have hsuffix := hps.suffix_of.trans (List.suffix_cons (.mark .comma) _)
      apply ((htype.stops hreserved hnametype hanytype).widen hsuffix).behind [.ident param]
      · simpa using hne
      · rfl
      · exact fun pre h => stopsParams_type h
    · obtain ⟨pre, rfl, hnamed, hframe⟩ := htype.frame
      apply (ih hnameps ((hany.resolve_left (by simp)).resolve_left hanytype)).behind
        (.ident param :: pre ++ [.mark .comma])
      · simpa [hnamed.not_mem hnametype hanytype] using hne
      · simp
      · intro pre' h
        simpa using stopsParams_more hframe h

end Heads

end ArrowCheck
