import ArrowCheck.Proofs.Grammar.TypeSoundness

namespace ArrowCheck

structure MemberEnds (ts : List TokenKind) : Prop where
  noLess : ts.head? ≠ some (.mark .less)
  noBracket : ts.head? ≠ some (.mark .bracketOpen)

structure TypeEnds (ts : List TokenKind) : Prop extends MemberEnds ts where
  noBar : ts.head? ≠ some (.mark .pipe)

namespace Reader

variable {t b : TypeExpr} {ts us : List TokenKind} {c : Cursor}

def GivesType : TypePhrase → (ts us : List TokenKind) → Prop
  | .type t, ts, us => TypeEnds us →
    (∀ {c : Cursor} {bound : Nat}, c.kinds = ts → 2 * ts.length + 2 ≤ bound →
      Gives (typeWithin bound) c us (·.bare = t.bare)) ∧
    ∀ {c : Cursor} {bound : Nat} {l : TypeExpr}, c.kinds = .mark .pipe :: ts →
      2 * ts.length + 2 ≤ bound → Gives (unionWithin bound l) c us fun t' =>
        t'.bare = .union (l.bare.alternatives ++ t.bare.alternatives) default
  | .member t, ts, us => MemberEnds us → (t.IsFunction → TypeEnds us) →
    ∃ (b : TypeExpr) (vs : List TokenKind),
    (∀ {c : Cursor} {bound : Nat}, c.kinds = ts → 2 * ts.length + 1 ≤ bound →
      Gives (baseWithin bound) c vs (·.bare = b.bare)) ∧
    ∀ {c : Cursor} {b' : TypeExpr}, b'.bare = b.bare → c.kinds = vs →
      Gives (arraySuffixes b') c us (·.bare = t.bare)
  | .suffixes b t, ts, us => MemberEnds us →
    ∀ {c : Cursor} {b' : TypeExpr} {n : Nat}, b'.bare = b.bare → c.kinds = ts → ts.length ≤ n →
      Gives (arraySuffix n b') c us (·.bare = t.bare)
  | .base t, ts, us => us.head? ≠ some (.mark .less) → (t.IsFunction → TypeEnds us) →
    ∀ {c : Cursor} {bound : Nat}, c.kinds = ts → 2 * ts.length + 1 ≤ bound →
      Gives (baseWithin bound) c us (·.bare = t.bare)
  | .fields fs, ts, us => ∀ {close : Mark}, close = .parenClose ∨ close = .braceClose →
    us.head? = some (.mark close) → ∀ {c : Cursor} {bound : Nat} {what : String}, c.kinds = ts →
      2 * ts.length + 2 ≤ bound →
        Gives (fieldsWithin bound close what) c us (bareFields · = bareFields fs)

theorem gives_noSuffix (h : c.kinds.head? ≠ some (.mark .bracketOpen)) (n : Nat) (b : TypeExpr) :
    Gives (arraySuffix n b) c c.kinds (· = b) := by
  cases n with
  | zero => exact gives_pure rfl rfl
  | succ n =>
    refine gives_bind gives_get ?_
    rintro c₀ c₁ rfl hkinds -
    split
    · rename_i hrest
      rw [Cursor.kinds, hrest] at h
      exact absurd rfl h
    · exact gives_pure rfl hkinds

theorem gives_suffix (h : c.kinds = .mark .bracketOpen :: .mark .bracketClose :: ts) (n : Nat)
    (b : TypeExpr) {P : TypeExpr → Prop}
    (hrec : ∀ span c', c'.kinds = ts → Gives (arraySuffix n (.array b span)) c' us P) :
    Gives (arraySuffix (n + 1) b) c us P := by
  refine gives_bind gives_get ?_
  rintro c₀ c₁ rfl hkinds -
  split
  · refine gives_bind (gives_advance (hkinds.trans h)) fun _ c₂ _ hkinds₂ _ => ?_
    exact gives_bind (gives_advance hkinds₂) fun _ c₃ _ hkinds₃ _ => hrec _ c₃ hkinds₃
  · rename_i hrest
    rw [Cursor.kinds] at h
    obtain ⟨⟨kind₁, span₁⟩, tokens, hrest₁, ht₁, h⟩ := List.map_eq_cons_iff.mp h
    obtain ⟨⟨kind₂, span₂⟩, tokens, rfl, ht₂, -⟩ := List.map_eq_cons_iff.mp h
    cases ht₁
    cases ht₂
    exact absurd hrest₁ (hrest _ _ _)

theorem gives_member {m : TypeExpr} (hm : GivesType (.member m) ts us) (hus : MemberEnds us)
    (hfun : m.IsFunction → TypeEnds us) {bound : Nat} (hc : c.kinds = ts)
    (hbound : 2 * ts.length + 1 ≤ bound) {α : Type} {f : TypeExpr → Reader α}
    {rest : List TokenKind} {P : α → Prop}
    (hf : ∀ m' c', m'.bare = m.bare → c'.kinds = us → Gives (f m') c' rest P) :
    Gives (do let b ← baseWithin bound; let t ← arraySuffixes b; f t) c rest P := by
  obtain ⟨b, vs, hbase, hsuffixes⟩ := hm hus hfun
  refine gives_bind (hbase hc hbound) fun b' c₁ hb' hkinds₁ _ => ?_
  exact gives_bind (hsuffixes hb' hkinds₁) fun m' c₂ hm' hkinds₂ _ => hf m' c₂ hm' hkinds₂

theorem gives_unionWithin_end {bound : Nat} (h : c.kinds.head? ≠ some (.mark .pipe)) (t : TypeExpr) :
    Gives (unionWithin bound t) c c.kinds (· = t) := by
  cases bound with
  | zero => exact gives_pure rfl rfl
  | succ bound =>
    refine gives_bind (gives_eat_not h) ?_
    rintro _ c₁ rfl hkinds -
    exact gives_pure rfl hkinds

theorem bare_join (l m : TypeExpr) :
    (l.join m).bare = .union (l.bare.alternatives ++ m.bare.alternatives) default := by
  rw [TypeExpr.join, TypeExpr.bare, bareTypes_eq_map, List.map_append, l.alternatives_bare,
    m.alternatives_bare]

theorem givesType_single (hm : GivesType (.member t) ts us) : GivesType (.type t) ts us := by
  intro hus
  constructor
  · intro c bound hc hbound
    obtain ⟨n, rfl⟩ : ∃ n, bound = n + 1 := ⟨bound - 1, by omega⟩
    refine gives_member hm hus.toMemberEnds (fun _ => hus) hc (by omega) fun m c' hm' hkinds => ?_
    rw [← hkinds] at hus ⊢
    exact (gives_unionWithin_end hus.noBar m).imp fun _ h => h ▸ hm'
  · intro c bound l hc hbound
    obtain ⟨n, rfl⟩ : ∃ n, bound = n + 1 := ⟨bound - 1, by omega⟩
    refine gives_bind (gives_eat hc) ?_
    rintro _ c₁ rfl hkinds₁ -
    refine gives_member hm hus.toMemberEnds (fun _ => hus) hkinds₁ (by omega)
      fun m c' hm' hkinds => ?_
    rw [← hkinds] at hus ⊢
    refine (gives_unionWithin_end hus.noBar _).imp ?_
    rintro _ rfl
    rw [bare_join, hm']

theorem givesType_union {m : TypeExpr} {vs : List TokenKind} {span : Span}
    (hspells : SpellsType true (.member m) ts (.mark .pipe :: us)) (hfun : ¬ m.IsFunction)
    (hm : GivesType (.member m) ts (.mark .pipe :: us)) (ht : GivesType (.type t) us vs) :
    GivesType (.type (.union (m :: t.alternatives) span)) ts vs := by
  have hbar : MemberEnds (.mark .pipe :: us) := ⟨by simp, by simp⟩
  have hlt := hspells.member_length_lt
  have halone : m.bare.alternatives = [m.bare] := by
    rw [m.alternatives_bare, hspells.alternatives_member, List.map_singleton]
  have hbare : (TypeExpr.union (m :: t.alternatives) span).bare =
      .union (m.bare :: t.bare.alternatives) default := by
    rw [TypeExpr.bare, bareTypes_eq_map, List.map_cons, t.alternatives_bare]
  rw [List.length_cons] at hlt
  intro hvs
  constructor
  · intro c bound hc hbound
    obtain ⟨n, rfl⟩ : ∃ n, bound = n + 1 := ⟨bound - 1, by omega⟩
    refine gives_member hm hbar (fun hf => absurd hf hfun) hc (by omega) fun m' c' hm' hkinds => ?_
    refine ((ht hvs).2 hkinds (by omega)).imp fun t' ht' => ?_
    rw [ht', hbare, hm', halone]
    rfl
  · intro c bound l hc hbound
    obtain ⟨n, rfl⟩ : ∃ n, bound = n + 1 := ⟨bound - 1, by omega⟩
    refine gives_bind (gives_eat hc) ?_
    rintro _ c₁ rfl hkinds₁ -
    refine gives_member hm hbar (fun hf => absurd hf hfun) hkinds₁ (by omega)
      fun m' c' hm' hkinds => ?_
    refine ((ht hvs).2 hkinds (by omega)).imp fun t' ht' => ?_
    rw [ht', hbare, bare_join, hm', halone]
    simp [TypeExpr.alternatives]

theorem givesType_member {vs : List TokenKind} (ht : SpellsType true (.suffixes b t) us vs)
    (ihb : GivesType (.base b) ts us) (iht : GivesType (.suffixes b t) us vs) :
    GivesType (.member t) ts vs := by
  intro hvs hfun
  refine ⟨b, us, ihb ?_ fun hbfun => ?_, fun {c b'} hb' hc => ?_⟩
  · cases ht with
    | noSuffix => exact hvs.noLess
    | suffix => simp
  · cases ht with
    | noSuffix => exact hfun hbfun
    | suffix hgreedy => exact absurd hbfun (hgreedy rfl)
  · refine gives_bind gives_get ?_
    rintro c₀ c₁ rfl hkinds -
    refine iht hvs hb' (hkinds.trans hc) ?_
    exact Nat.le_of_eq (by rw [← hc, Cursor.length_kinds])

theorem givesType_suffix {span : Span}
    (ih : GivesType (.suffixes (.array b span) t) ts us) :
    GivesType (.suffixes b t) (.mark .bracketOpen :: .mark .bracketClose :: ts) us := by
  intro hus c b' n hb' hc hn
  simp only [List.length_cons] at hn
  obtain ⟨n, rfl⟩ : ∃ m, n = m + 1 := ⟨n - 1, by omega⟩
  refine gives_suffix hc n b' fun span' c' hkinds => ih hus ?_ hkinds (by omega)
  rw [TypeExpr.bare, TypeExpr.bare, hb']

theorem givesType_arrayOf {span : Span} (ih : GivesType (.type t) ts (.mark .greater :: us)) :
    GivesType (.base (.array t span)) (.typeWord .array :: .mark .less :: ts) us := by
  intro _ _ c bound hc hbound
  simp only [List.length_cons] at hbound
  obtain ⟨n, rfl⟩ : ∃ n, bound = n + 1 := ⟨bound - 1, by omega⟩
  refine gives_first hc fun start c₁ hkinds₁ _ => ?_
  refine gives_bind (gives_advance hkinds₁) fun _ c₂ _ hkinds₂ _ => ?_
  refine gives_bind (gives_eat hkinds₂) ?_
  rintro _ c₃ rfl hkinds₃ -
  have hends : TypeEnds (.mark .greater :: us) := ⟨⟨by simp, by simp⟩, by simp⟩
  refine gives_bind ((ih hends).1 hkinds₃ (by omega)) fun t' c₄ ht' hkinds₄ _ => ?_
  refine gives_bind (gives_expect hkinds₄) fun stop c₅ _ hkinds₅ _ => gives_pure ?_ hkinds₅
  rw [TypeExpr.bare, TypeExpr.bare, ht']

theorem givesType_word {span : Span} (w : TypeWord) :
    GivesType (.base (.named w.text span)) (.typeWord w :: ts) ts := by
  intro hless _ c bound hc hbound
  obtain ⟨n, rfl⟩ : ∃ n, bound = n + 1 := ⟨bound - 1, by omega⟩
  refine gives_first hc fun start c₁ hkinds₁ _ => ?_
  -- only `Array` looks at the token behind it
  by_cases hw : w = .array
  · subst hw
    refine gives_bind (gives_advance hkinds₁) fun _ c₂ _ hkinds₂ _ => ?_
    refine gives_bind (gives_eat_not (hkinds₂ ▸ hless)) ?_
    rintro _ c₃ rfl hkinds₃ -
    exact gives_pure (by rw [TypeExpr.bare, TypeExpr.bare]) (hkinds₃.trans hkinds₂)
  · have hread : Gives (do advance; return TypeExpr.named w.text start) c₁ ts
        (·.bare = (TypeExpr.named w.text span).bare) :=
      gives_bind (gives_advance hkinds₁) fun _ c₂ _ hkinds₂ _ =>
        gives_pure (by rw [TypeExpr.bare, TypeExpr.bare]) hkinds₂
    cases w with
    | array => exact absurd rfl hw
    | _ => exact hread

theorem givesType_name {span : Span} {name : String} (hname : name ≠ "any") :
    GivesType (.base (.named name span)) (.ident name :: ts) ts := by
  intro _ _ c bound hc hbound
  obtain ⟨n, rfl⟩ : ∃ n, bound = n + 1 := ⟨bound - 1, by omega⟩
  refine gives_first hc fun start c₁ hkinds₁ _ => ?_
  simp only [beq_iff_eq, hname, if_false]
  refine gives_bind (gives_advance hkinds₁) fun _ c₂ _ hkinds₂ _ => gives_pure ?_ hkinds₂
  rw [TypeExpr.bare, TypeExpr.bare]

theorem givesType_function {ps : List Field} {span : Span} {vs : List TokenKind}
    (hps : SpellsType true (.fields ps) ts (.mark .parenClose :: .mark .arrow :: us))
    (ihp : GivesType (.fields ps) ts (.mark .parenClose :: .mark .arrow :: us))
    (iht : GivesType (.type t) us vs) :
    GivesType (.base (.function ps t span)) (.mark .parenOpen :: ts) vs := by
  intro _ hends c bound hc hbound
  have hle := hps.length_le
  simp only [List.length_cons] at hbound hle
  obtain ⟨n, rfl⟩ : ∃ n, bound = n + 1 := ⟨bound - 1, by omega⟩
  refine gives_first hc fun start c₁ hkinds₁ _ => ?_
  refine gives_bind (gives_advance hkinds₁) fun _ c₂ _ hkinds₂ _ => ?_
  refine gives_bind (ihp (.inl rfl) rfl hkinds₂ (by omega)) fun ps' c₃ hps' hkinds₃ _ => ?_
  refine gives_bind (gives_expect hkinds₃) fun _ c₄ _ hkinds₄ _ => ?_
  refine gives_bind (gives_expect hkinds₄) fun _ c₅ _ hkinds₅ _ => ?_
  refine gives_bind ((iht (hends trivial)).1 hkinds₅ (by omega)) fun t' c₆ ht' hkinds₆ _ => ?_
  refine gives_pure ?_ hkinds₆
  rw [TypeExpr.bare, TypeExpr.bare, ht', hps']

theorem givesType_object {fs : List Field} {span : Span}
    (ih : GivesType (.fields fs) ts (.mark .braceClose :: us)) :
    GivesType (.base (.object fs span)) (.mark .braceOpen :: ts) us := by
  intro _ _ c bound hc hbound
  simp only [List.length_cons] at hbound
  obtain ⟨n, rfl⟩ : ∃ n, bound = n + 1 := ⟨bound - 1, by omega⟩
  refine gives_first hc fun start c₁ hkinds₁ _ => ?_
  refine gives_bind (gives_advance hkinds₁) fun _ c₂ _ hkinds₂ _ => ?_
  refine gives_bind (ih (.inr rfl) rfl hkinds₂ (by omega)) fun fs' c₃ hfs' hkinds₃ _ => ?_
  refine gives_bind (gives_expect hkinds₃) fun stop c₄ _ hkinds₄ _ => gives_pure ?_ hkinds₄
  rw [TypeExpr.bare, TypeExpr.bare, hfs']

theorem givesType_noField : GivesType (.fields []) ts ts := by
  intro close _ hclose c bound what hc hbound
  obtain ⟨n, rfl⟩ : ∃ n, bound = n + 1 := ⟨bound - 1, by omega⟩
  refine gives_bind gives_atEnd fun atEnd c₁ _ hkinds₁ _ => gives_bind gives_sees ?_
  rintro _ c₂ rfl hkinds₂ -
  have hc₁ := hkinds₁.trans hc
  have hseen : (c₁.kinds.head? == some (.mark close)) = true := by rw [hc₁, hclose]; exact beq_self_eq_true _
  rw [hseen, Bool.or_true, if_pos rfl]
  exact gives_pure rfl (hkinds₂.trans hc₁)

theorem givesType_field {name : String} {span : Span} {fs : List Field} {vs : List TokenKind}
    (ht : SpellsType true (.type t) ts vs) (ih : GivesType (.type t) ts vs)
    (hnext : (fs = [] ∧ vs = us) ∨ ∃ ws, vs = .mark .comma :: ws ∧ GivesType (.fields fs) ws us) :
    GivesType (.fields (⟨name, t, span⟩ :: fs)) (.ident name :: .mark .colon :: ts) us := by
  intro close hclose hus c bound what hc hbound
  have hle := ht.length_le
  simp only [List.length_cons] at hbound
  obtain ⟨n, rfl⟩ : ∃ n, bound = n + 1 := ⟨bound - 1, by omega⟩
  have hends : TypeEnds vs := by
    rcases hnext with ⟨-, rfl⟩ | ⟨ws, rfl, -⟩
    · rcases hclose with rfl | rfl <;> exact ⟨⟨by simp [hus], by simp [hus]⟩, by simp [hus]⟩
    · exact ⟨⟨by simp, by simp⟩, by simp⟩
  refine gives_bind gives_atEnd ?_
  rintro _ c₁ rfl hkinds₁ -
  refine gives_bind gives_sees ?_
  rintro _ c₂ rfl hkinds₂ -
  have hc₁ := hkinds₁.trans hc
  have hopen : ¬ (c.kinds.isEmpty || c₁.kinds.head? == some (.mark close)) = true := by
    rw [hc, hc₁]
    simp
  rw [if_neg hopen]
  refine gives_bind (gives_expectIdent (hkinds₂.trans hc₁)) ?_
  rintro _ c₃ ⟨start, rfl⟩ hkinds₃ -
  refine gives_bind (gives_expect hkinds₃) fun _ c₄ _ hkinds₄ _ => ?_
  refine gives_bind ((ih hends).1 hkinds₄ (by omega)) fun t' c₅ ht' hkinds₅ _ => ?_
  rcases hnext with ⟨rfl, rfl⟩ | ⟨ws, rfl, hfs⟩
  · have hcomma : c₅.kinds.head? ≠ some (.mark .comma) := by
      rw [hkinds₅, hus]
      rcases hclose with rfl | rfl <;> simp
    refine gives_bind (gives_eat_not hcomma) ?_
    rintro _ c₆ rfl hkinds₆ -
    refine gives_pure ?_ (hkinds₆.trans hkinds₅)
    simp only [bareFields, ht']
  · simp only [List.length_cons] at hle
    refine gives_bind (gives_eat hkinds₅) ?_
    rintro _ c₆ rfl hkinds₆ -
    refine gives_bind (hfs hclose hus hkinds₆ (by omega)) fun fs' c₇ hfs' hkinds₇ _ => ?_
    refine gives_pure ?_ hkinds₇
    rw [bareFields, bareFields, ht', hfs']

theorem givesType {ph : TypePhrase} (h : SpellsType true ph ts us) : GivesType ph ts us := by
  induction h with
  | single _ ih => exact givesType_single ih
  | union hfun hm _ ihm iht => exact givesType_union hm (hfun rfl) ihm iht
  | member _ ht ihb iht => exact givesType_member ht ihb iht
  | noSuffix =>
    intro hus c b' n hb' hc _
    rw [← hc] at hus ⊢
    exact (gives_noSuffix hus.noBracket n b').imp fun _ h => h ▸ hb'
  | suffix _ _ ih => exact givesType_suffix ih
  | arrayOf _ ih => exact givesType_arrayOf ih
  | word => exact givesType_word _
  | name hname => exact givesType_name hname
  | function hps _ ihp iht => exact givesType_function hps ihp iht
  | object _ ih => exact givesType_object ih
  | noField => exact givesType_noField
  | lastField ht ih => exact givesType_field ht ih (.inl ⟨rfl, rfl⟩)
  | field ht _ iht ihf => exact givesType_field ht iht (.inr ⟨_, rfl, ihf⟩)

end Reader

namespace SpellsType

/-- From the first tokens on, a pair of brackets or a bar and another type lead to the second. -/
def Continues (ts us : List TokenKind) : Prop :=
  ts = .mark .bracketOpen :: .mark .bracketClose :: us ∨
    ∃ vs u, ts = .mark .pipe :: vs ∧ SpellsType true (.type u) vs us

variable {t u : TypeExpr} {ts us vs rest : List TokenKind} {ph : TypePhrase}

theorem of_base (h : SpellsType true (.base t) ts us) : SpellsType true (.type t) ts us :=
  .single (.member h .noSuffix)

/-- What a phrase becomes if brackets or a bar and a type behind it are taken in: the result of a
function type takes them, else the last member takes the brackets and a bar adds a member. -/
theorem continue_phrase (h : SpellsType true ph ts rest) (hrest : Continues rest us) :
    match ph with
    | .type _ => ∃ t, SpellsType true (.type t) ts us
    | .member t => (∃ t', SpellsType true (.member t') ts us) ∨
        (¬ t.IsFunction ∧ ∃ vs u, rest = .mark .pipe :: vs ∧ SpellsType true (.type u) vs us)
    | .suffixes b _ => ¬ b.IsFunction → (∃ t', SpellsType true (.suffixes b t') ts us) ∨
        ∃ vs u, rest = .mark .pipe :: vs ∧ SpellsType true (.type u) vs us
    | .base t => t.IsFunction → ∃ t', SpellsType true (.base t') ts us
    | .fields _ => True := by
  induction h with
  | single hm ih =>
    rcases ih hrest with ⟨m, hm'⟩ | ⟨hfun, vs, u, rfl, hu⟩
    · exact ⟨m, .single hm'⟩
    · exact ⟨.union (_ :: u.alternatives) default, .union (fun _ => hfun) hm hu⟩
  | union hfun hm _ _ iht =>
    obtain ⟨t, ht⟩ := iht hrest
    exact ⟨.union (_ :: t.alternatives) default, .union hfun hm ht⟩
  | @member b t _ _ _ hb ht ihb iht =>
    by_cases hbfun : b.IsFunction
    · cases ht with
      | noSuffix =>
        obtain ⟨b', hb'⟩ := ihb hrest hbfun
        exact .inl ⟨b', .member hb' .noSuffix⟩
      | suffix hgreedy => exact absurd hbfun (hgreedy rfl)
    · rcases iht hrest hbfun with ⟨t', ht'⟩ | hbar
      · exact .inl ⟨t', .member hb ht'⟩
      · refine .inr ⟨?_, hbar⟩
        rcases ht.suffixes_cases with ⟨rfl, -⟩ | ⟨e, span, rfl⟩
        · exact hbfun
        · exact fun h => h.elim
  | noSuffix =>
    intro hbfun
    rcases hrest with rfl | hbar
    · exact .inl ⟨.array _ default, .suffix (fun _ => hbfun) .noSuffix⟩
    · exact .inr hbar
  | suffix hgreedy _ ih =>
    intro _
    rcases ih hrest (fun h => h.elim) with ⟨t', ht'⟩ | hbar
    · exact .inl ⟨t', .suffix hgreedy ht'⟩
    · exact .inr hbar
  | function hps _ _ ihr =>
    intro _
    obtain ⟨r, hr⟩ := ihr hrest
    exact ⟨.function _ r default, .function hps hr⟩
  | arrayOf | word | name | object => exact fun h => h.elim
  | noField | lastField | field => trivial

theorem exists_continue (h : SpellsType true (.type t) ts rest) (hrest : Continues rest us) :
    ∃ t', SpellsType true (.type t') ts us :=
  continue_phrase h hrest

theorem exists_greedy {g : Bool} (h : SpellsType g ph ts us) :
    match ph with
    | .type _ | .member _ | .base _ => ∃ t, SpellsType true (.type t) ts us
    | .suffixes _ _ => ∀ {vs b}, SpellsType true (.type b) vs ts → ∃ t, SpellsType true (.type t) vs us
    | .fields _ => ∃ fs, SpellsType true (.fields fs) ts us := by
  induction h with
  | single _ ih => exact ih
  | union _ _ _ ihm iht =>
    obtain ⟨m, hm⟩ := ihm
    obtain ⟨t, ht⟩ := iht
    exact exists_continue hm (.inr ⟨_, t, rfl, ht⟩)
  | member _ _ ihb iht =>
    obtain ⟨b, hb⟩ := ihb
    exact iht hb
  | noSuffix => exact fun hb => ⟨_, hb⟩
  | suffix _ _ ih =>
    intro vs b hb
    obtain ⟨b', hb'⟩ := exists_continue hb (.inl rfl)
    exact ih hb'
  | arrayOf _ ih =>
    obtain ⟨t, ht⟩ := ih
    exact ⟨.array t default, of_base (.arrayOf ht)⟩
  | word => exact ⟨.named _ default, of_base .word⟩
  | name hname => exact ⟨.named _ default, of_base (.name hname)⟩
  | function _ _ ihp ihr =>
    obtain ⟨ps, hps⟩ := ihp
    obtain ⟨r, hr⟩ := ihr
    exact ⟨.function ps r default, of_base (.function hps hr)⟩
  | object _ ih =>
    obtain ⟨fs, hfs⟩ := ih
    exact ⟨.object fs default, of_base (.object hfs)⟩
  | noField => exact ⟨[], .noField⟩
  | lastField _ ih =>
    obtain ⟨t, ht⟩ := ih
    exact ⟨[⟨_, t, default⟩], .lastField ht⟩
  | field _ _ iht ihf =>
    obtain ⟨t, ht⟩ := iht
    obtain ⟨fs, hfs⟩ := ihf
    exact ⟨⟨_, t, default⟩ :: fs, .field ht hfs⟩

end SpellsType

namespace Reader

variable {g : Bool} {t : TypeExpr} {ts us : List TokenKind} {c : Cursor}

/-- Every spelling of a type is read; a greedy one is read as its type. -/
theorem gives_typeExpr (h : SpellsType g (.type t) ts us) (hus : TypeEnds us) (hc : c.kinds = ts) :
    Gives typeExpr c us fun t' => g = true → t'.bare = t.bare := by
  have hread : ∀ {u : TypeExpr}, SpellsType true (.type u) ts us →
      Gives typeExpr c us (·.bare = u.bare) := by
    intro u hu
    refine gives_bind gives_get ?_
    rintro c₀ c₁ rfl hkinds -
    refine (givesType hu hus).1 (hkinds.trans hc) ?_
    exact Nat.le_of_eq (by rw [← hc, Cursor.length_kinds])
  cases g with
  | true => exact (hread h).imp fun _ h _ => h
  | false =>
    obtain ⟨u, hu⟩ := h.exists_greedy
    exact (hread hu).imp fun _ _ h => absurd h (by simp)

theorem gives_noType (h : c.kinds.head? ≠ some (.mark .colon)) :
    Gives optionalType c c.kinds (· = none) := by
  refine gives_bind (gives_eat_not h) ?_
  rintro _ c₁ rfl hkinds -
  exact gives_pure rfl hkinds

theorem gives_optionalType {type : Option TypeExpr} (h : SpellsAnnotated g type ts us)
    (hus : TypeEnds us) (hcolon : us.head? ≠ some (.mark .colon)) (hc : c.kinds = ts) :
    Gives optionalType c us fun t' =>
      t'.isSome = type.isSome ∧ (g = true → t'.map TypeExpr.bare = type.map TypeExpr.bare) := by
  cases type with
  | none =>
    subst hc
    obtain rfl : c.kinds = us := h
    exact (gives_noType hcolon).imp fun _ h => h ▸ ⟨rfl, fun _ => rfl⟩
  | some t =>
    obtain ⟨vs, rfl, ht⟩ := h
    refine gives_bind (gives_eat hc) ?_
    rintro _ c₁ rfl hkinds₁ -
    refine gives_bind (gives_typeExpr ht hus hkinds₁) fun t' c₂ ht' hkinds₂ _ => ?_
    exact gives_pure ⟨rfl, fun hg => congrArg some (ht' hg)⟩ hkinds₂

end Reader

end ArrowCheck
