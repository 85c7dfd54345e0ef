import ArrowCheck.Proofs.Recovery.Stopping
import ArrowCheck.Proofs.Relocation.Concatenation

namespace ArrowCheck

/-- What is reported if the parameters are read as a group: the number of the token, counted from the
start of the declaration, and what is expected in its place. -/
def groupFault : List Param → Nat × String
  | [] => (4, "expression")
  | [⟨_, _, none⟩] => (6, "'const' or 'return'")
  | _ => (5, Mark.text .parenClose)

variable {x name : String} {ps : List Param} {result : Option TypeExpr}
  {ts us rest pre pre' : List TokenKind}

theorem SpellsParams.group_cases (h : SpellsParams true ps ts (.mark .parenClose :: us)) :
    (groupFault ps = (4, "expression") ∧ ts = .mark .parenClose :: us) ∨
    (∃ name, groupFault ps = (6, "'const' or 'return'") ∧ ts = .ident name :: .mark .parenClose :: us) ∨
    ∃ name m vs, groupFault ps = (5, Mark.text .parenClose) ∧ ts = .ident name :: .mark m :: vs ∧
      (m = .colon ∨ m = .comma) := by
  cases h with
  | none => exact .inl ⟨rfl, rfl⟩
  | @last node name type _ _ htype =>
    cases type with
    | none =>
      cases htype
      exact .inr (.inl ⟨name, rfl, rfl⟩)
    | some t =>
      obtain ⟨vs, rfl, -⟩ := htype
      exact .inr (.inr ⟨name, .colon, vs, rfl, rfl, .inl rfl⟩)
  | @cons node name type p ps _ _ _ htype _ =>
    cases type with
    | none =>
      cases htype
      exact .inr (.inr ⟨name, .comma, _, rfl, rfl, .inr rfl⟩)
    | some t =>
      obtain ⟨vs, rfl, -⟩ := htype
      exact .inr (.inr ⟨name, .colon, vs, rfl, rfl, .inl rfl⟩)

namespace Cursor

variable {c d : Cursor} {k : TokenKind}

theorem rest_ne_nil (c : Cursor) (hc : c.kinds = k :: ts) : c.rest ≠ [] := by
  intro hnil
  rw [kinds, hnil] at hc
  cases hc

theorem depth_eq (hc : c.kinds = k :: ts) : ∃ bound, 4 * c.rest.length + 4 = bound + 8 := by
  have hpos := List.length_pos_of_ne_nil (c.rest_ne_nil hc)
  exact ⟨4 * c.rest.length - 4, by omega⟩

theorem token_of_suffix (hd : d.rest <:+ c.rest) (hkinds : d.kinds = k :: us) (hc : c.kinds = pre ++ k :: us) :
    ∃ t, c.rest[pre.length]? = some t ∧ t.kind = k ∧ d.here = t.span ∧
      ∀ expected, d.unexpected expected = .unexpectedToken expected t.kind.describe t.span := by
  obtain ⟨passed, hpassed⟩ := hd
  obtain ⟨t, rest, hrest, rfl, -⟩ := List.map_eq_cons_iff.mp hkinds
  have hlength : pre.length = passed.length := by
    have hwhole := congrArg List.length hc
    have hahead := congrArg List.length hkinds
    rw [length_kinds, ← hpassed, List.length_append, List.length_append] at hwhole
    rw [length_kinds] at hahead
    omega
  have hunexpected : ∀ expected, d.unexpected expected =
      .unexpectedToken expected t.kind.describe t.span := by
    intro expected
    rw [unexpected, kind?, here, hrest]
    rfl
  refine ⟨t, ?_, rfl, by rw [here, hrest]; rfl, hunexpected⟩
  rw [← hpassed, hrest, hlength, List.getElem?_append_right (Nat.le_refl _), Nat.sub_self]
  rfl

end Cursor

namespace Reader

variable {c : Cursor} {bound : Nat} {why : Cursor → ParseFault}

section Declarations

variable {Q : Except ParseFault Expr → Cursor → Prop} {R : Except ParseFault Stmt → Cursor → Prop}

theorem meets_const (hc : c.kinds = .keyword .const :: .ident x :: .mark .equals :: ts)
    (h : ∀ (start : Span) (ident : Ident) (type : Option TypeExpr) (c' : Cursor), c'.kinds = ts →
      c'.faults = c.faults → Meets (do
        let value ← exprWithin bound
        let span := start.merge (← get).last
        let _ ← eat (.mark .semicolon)
        return .const ⟨← freshId, span⟩ ident type value) c' R) :
    Meets (statementWithin (bound + 1)) c R := by
  have hkind : c.kind? = some (.keyword .const) := by rw [c.kind?_eq_head?, hc, List.head?_cons]
  unfold statementWithin
  rw [meets_here, meets_kind?, hkind]
  refine gives_meets (gives_advance hc) fun _ c₁ _ hkinds₁ hfaults₁ => ?_
  refine gives_meets (gives_expectIdent hkinds₁) ?_
  rintro _ c₂ ⟨place, rfl⟩ hkinds₂ hfaults₂
  refine gives_meets gives_freshId fun id c₃ _ hkinds₃ hfaults₃ => ?_
  have hplain : SpellsAnnotated true none (.mark .equals :: ts) (.mark .equals :: ts) := rfl
  refine gives_meets (gives_optionalType hplain (.of_mark (by decide)) (by simp)
    (hkinds₃.trans hkinds₂)) fun type c₄ _ hkinds₄ hfaults₄ => ?_
  refine gives_meets (gives_expect hkinds₄) fun _ c₅ _ hkinds₅ hfaults₅ => ?_
  exact h c.here ⟨⟨id, place⟩, x⟩ type c₅ hkinds₅
    (by rw [hfaults₅, hfaults₄, hfaults₃, hfaults₂, hfaults₁])

theorem fails_const (hc : c.kinds = .keyword .const :: .ident x :: .mark .equals :: ts)
    (h : ∀ c' : Cursor, c'.kinds = ts → Fails (operandWithin bound) c' rest why) :
    Fails (statementWithin (bound + 3)) c rest why := by
  refine meets_const hc fun start ident type c' hc' hfaults => ?_
  have hvalue : Fails (exprWithin (bound + 2)) c' rest why := fails_bind (fails_bind (h c' hc'))
  exact (fails_bind hvalue).after hfaults

theorem meets_group (hhead : (arrowHead.run c).1.isOk = false) (hc : c.kinds = .mark .parenOpen :: ts)
    (h : ∀ c' : Cursor, c'.kinds = ts → c'.faults = c.faults → Meets (do
      let inner ← exprWithin bound
      let _ ← expect (.mark .parenClose)
      return inner) c' Q) : Meets (operandWithin (bound + 1)) c Q := by
  have hkind : c.kind? = some (.mark .parenOpen) := by rw [c.kind?_eq_head?, hc, List.head?_cons]
  unfold operandWithin
  rw [meets_here, meets_kind?, hkind]
  refine gives_meets (gives_succeeds _) ?_
  rintro _ c₁ rfl hkinds₁ hfaults₁
  rw [hhead]
  refine gives_meets (gives_advance (hkinds₁.trans hc)) fun _ c₂ _ hkinds₂ hfaults₂ => ?_
  exact h c₂ hkinds₂ (hfaults₂.trans hfaults₁)

theorem fails_group (hhead : (arrowHead.run c).1.isOk = false) (hc : c.kinds = .mark .parenOpen :: ts)
    (h : ∀ c' : Cursor, c'.kinds = ts → Fails (do
      let inner ← exprWithin bound
      let _ ← expect (.mark .parenClose)
      return inner) c' rest why) : Fails (operandWithin (bound + 1)) c rest why :=
  meets_group hhead hc fun c' hc' hfaults => (h c' hc').after hfaults

theorem gives_alone {m : Mark} (hm : m = .parenClose ∨ m = .colon ∨ m = .comma)
    (h : Gives (operandWithin (bound + 1)) c (.mark m :: us) fun _ => True) :
    Gives (exprWithin (bound + 3)) c (.mark m :: us) fun _ => True := by
  have hquestion : m ≠ .question := by rcases hm with rfl | rfl | rfl <;> decide
  have hoperator : operator? (.mark m) = none := by rcases hm with rfl | rfl | rfl <;> rfl
  have hmore : ∀ left (c' : Cursor), c'.kinds = .mark m :: us →
      Gives (moreWithin (bound + 1) left) c' (.mark m :: us) fun _ => True := by
    intro left c' hc'
    refine gives_bind gives_kind? ?_
    rintro _ c₁ rfl hkinds₁ -
    rw [hc', List.head?_cons, Option.bind_some, hoperator]
    exact gives_pure trivial (hkinds₁.trans hc')
  have hchain : Gives (chainWithin (bound + 2)) c (.mark m :: us) fun _ => True :=
    gives_bind h fun left c₁ _ hkinds₁ _ => hmore left c₁ hkinds₁
  refine gives_bind hchain fun test c₁ _ hkinds₁ _ => ?_
  refine gives_bind (gives_eat_not (by simpa [hkinds₁] using hquestion)) ?_
  rintro _ c₂ rfl hkinds₂ -
  exact gives_pure trivial (hkinds₂.trans hkinds₁)

theorem gives_name {m : Mark} (hm : m = .parenClose ∨ m = .colon ∨ m = .comma)
    (hc : c.kinds = .ident name :: .mark m :: us) :
    Gives (exprWithin (bound + 3)) c (.mark m :: us) fun _ => True := by
  have hparen : m ≠ .parenOpen := by rcases hm with rfl | rfl | rfl <;> decide
  refine gives_alone hm (gives_first hc fun start c₁ hkinds₁ _ => ?_)
  refine gives_bind (gives_advance hkinds₁) fun _ c₂ _ hkinds₂ _ => ?_
  refine gives_bind gives_freshId fun id c₃ _ hkinds₃ _ => ?_
  rw [hkinds₂] at hkinds₃
  refine gives_bind (gives_eat_not (by simpa [hkinds₃] using hparen)) ?_
  rintro _ c₄ rfl hkinds₄ -
  exact gives_pure trivial (hkinds₄.trans hkinds₃)

theorem fails_noExpr (hc : c.kinds = .mark .parenClose :: us) :
    Fails (exprWithin (bound + 3)) c (.mark .parenClose :: us) (·.unexpected "expression") := by
  have hoperand : Fails (operandWithin (bound + 1)) c c.kinds (·.unexpected "expression") :=
    fails_first hc (fails_unexpected _)
  rw [hc] at hoperand
  exact fails_bind (fails_bind hoperand)

theorem gives_grouped
    (hhead : ∀ c' : Cursor, c'.kinds = .mark .parenOpen :: .ident name :: .mark .parenClose ::
      .mark .colon :: us → (arrowHead.run c').1.isOk = false)
    (hc : c.kinds = .keyword .const :: .ident x :: .mark .equals :: .mark .parenOpen :: .ident name ::
      .mark .parenClose :: .mark .colon :: us) :
    Gives (statementWithin (bound + 7)) c (.mark .colon :: us) fun _ => True := by
  refine meets_const hc fun start ident type c₁ hkinds₁ hfaults₁ => ?_
  have hgroup : Gives (operandWithin (bound + 4)) c₁ (.mark .colon :: us) fun _ => True := by
    refine meets_group (hhead c₁ hkinds₁) hkinds₁ fun c₂ hkinds₂ hfaults₂ => ?_
    refine gives_meets (gives_name (.inl rfl) hkinds₂) fun inner c₃ _ hkinds₃ hfaults₃ => ?_
    refine gives_meets (gives_expect hkinds₃) fun _ c₄ _ hkinds₄ hfaults₄ => ?_
    exact ⟨⟨inner, rfl, trivial⟩, hkinds₄, hfaults₄.trans (hfaults₃.trans hfaults₂)⟩
  refine gives_meets (gives_alone (.inr (.inl rfl)) hgroup) fun value c₂ _ hkinds₂ hfaults₂ => ?_
  refine gives_meets gives_get ?_
  rintro _ c₃ rfl hkinds₃ hfaults₃
  rw [hkinds₂] at hkinds₃
  refine gives_meets (gives_eat_not (by simp [hkinds₃])) fun _ c₄ _ hkinds₄ hfaults₄ => ?_
  refine gives_meets gives_freshId fun id c₅ _ hkinds₅ hfaults₅ => ?_
  refine ⟨⟨_, rfl, trivial⟩, hkinds₅.trans (hkinds₄.trans hkinds₃), ?_⟩
  exact hfaults₅.trans (hfaults₄.trans (hfaults₃.trans (hfaults₂.trans hfaults₁)))

end Declarations

section Loop

/-- The first fault that the loop over statements adds, and the tokens ahead where it is found. -/
def FirstFault (bound : Nat) (c : Cursor) (rest : List TokenKind) (why : Cursor → ParseFault) : Prop :=
  ∃ d fs, d.kinds = rest ∧ d.rest <:+ c.rest ∧
    ((statementsWithin bound false).run c).2.faults = c.faults ++ why d :: fs

theorem faults_resumed (bound : Nat) (c : Cursor) : ∃ fs,
    ((do skipStatement false; statementsWithin bound false : Reader (List Stmt)).run c).2.faults =
      c.faults ++ fs := by
  have hmeets : Meets (do skipStatement false; statementsWithin bound false : Reader (List Stmt)) c
      fun _ d => ∃ fs, d.faults = c.faults ++ fs := by
    apply meets_bind.mpr
    apply (ahead_skipStatement false c).imp
    rintro _ c₁ ⟨rfl, hahead⟩
    apply ((programsReport bound).statements false c₁).imp
    rintro _ d ⟨-, ⟨-, fs, hfs, -⟩ | ⟨hnested, -⟩⟩
    · exact ⟨fs, by rw [hfs, hahead.faults]⟩
    · cases hnested
  exact hmeets

theorem Fails.firstFault (h : Fails (statementWithin bound) c rest why) (hne : c.rest ≠ []) :
    FirstFault (bound + 1) c rest why := by
  obtain ⟨hx, hkinds, hfaults⟩ := h
  have hsuffix := ((programsReport bound).statement c).suffix
  rw [FirstFault, run_statements_error hne (Prod.ext hx rfl)]
  obtain ⟨fs, hfs⟩ := faults_resumed bound _
  exact ⟨_, fs, hkinds, hsuffix, by rw [hfs, hfaults, List.append_assoc, List.singleton_append]⟩

theorem Gives.firstFault (h : Gives (statementWithin bound) c us fun _ => True) (hne : c.rest ≠ [])
    (hus : ∀ c' : Cursor, c'.kinds = us → FirstFault bound c' rest why) :
    FirstFault (bound + 1) c rest why := by
  obtain ⟨⟨s, hs, -⟩, hkinds, hfaults⟩ := h
  have hsuffix := ((programsReport bound).statement c).suffix
  obtain ⟨ss, e, hss⟩ := exists_run_statements bound ((statementWithin bound).run c).2
  obtain ⟨d, fs, hd, hsuffix', hfs⟩ := hus _ hkinds
  rw [FirstFault, run_statements_ok hne (Prod.ext hs rfl) hss]
  rw [hss, hfaults] at hfs
  exact ⟨d, fs, hd, hsuffix'.trans hsuffix, hfs⟩

end Loop

theorem StopsParams.stops_const (h : StopsParams pre)
    (hc : c.kinds = .keyword .const :: .ident x :: .mark .equals :: .mark .parenOpen ::
      (pre ++ .ident "any" :: rest)) : Stops (statementWithin (bound + 4)) c rest := by
  refine fails_const hc fun c₁ hkinds₁ => ?_
  refine fails_first hkinds₁ (gives_fails (gives_succeeds _) ?_)
  rintro _ c₂ rfl hkinds₂ -
  rw [(h.gives_arrowHead hkinds₁).isOk]
  refine gives_fails (gives_advance (hkinds₂.trans hkinds₁)) fun _ c₃ _ hkinds₃ _ => ?_
  exact fails_bind (h.stops_signature hkinds₃)

theorem StopsAnnotated.firstFault_const (h : StopsAnnotated pre')
    (hps : ∀ vs, SpellsParams true ps (pre ++ vs) vs)
    (hc : c.kinds = .keyword .const :: .ident x :: .mark .equals :: .mark .parenOpen ::
      (pre ++ .mark .parenClose :: (pre' ++ .ident "any" :: rest))) :
    ∃ before k us, c.kinds = before ++ k :: us ∧ before.length = (groupFault ps).1 ∧
      FirstFault (bound + 8) c (k :: us) (·.unexpected (groupFault ps).2) := by
  have hhead : ∀ c' : Cursor, c'.kinds = .mark .parenOpen ::
      (pre ++ .mark .parenClose :: (pre' ++ .ident "any" :: rest)) → (arrowHead.run c').1.isOk = false :=
    fun c' hc' => (h.stops_arrowHead hps hc').isOk
  obtain ⟨hgroup, hts⟩ | ⟨name, hgroup, hts⟩ | ⟨name, m, vs, hgroup, hts, hm⟩ :=
    (hps (.mark .parenClose :: (pre' ++ .ident "any" :: rest))).group_cases
  · rw [hts] at hc hhead
    refine ⟨[.keyword .const, .ident x, .mark .equals, .mark .parenOpen], _, _, hc, by rw [hgroup]; rfl, ?_⟩
    rw [hgroup]
    refine Fails.firstFault (fails_const hc fun c₁ hkinds₁ => ?_) (c.rest_ne_nil hc)
    refine fails_group (hhead c₁ hkinds₁) hkinds₁ fun c₂ hkinds₂ => ?_
    exact fails_bind (fails_noExpr hkinds₂)
  · obtain ⟨tail, rfl⟩ := List.head?_eq_some_iff.mp h.1
    rw [hts, List.cons_append] at hc hhead
    refine ⟨[.keyword .const, .ident x, .mark .equals, .mark .parenOpen, .ident name, .mark .parenClose],
      _, _, hc, by rw [hgroup]; rfl, ?_⟩
    rw [hgroup]
    refine (gives_grouped hhead hc).firstFault (c.rest_ne_nil hc) fun c₁ hkinds₁ => ?_
    have hcolon : Fails (statementWithin (bound + 6)) c₁ c₁.kinds (·.unexpected "'const' or 'return'") :=
      fails_first hkinds₁ (fails_unexpected _)
    rw [hkinds₁] at hcolon
    exact hcolon.firstFault (c₁.rest_ne_nil hkinds₁)
  · rw [hts] at hc hhead
    refine ⟨[.keyword .const, .ident x, .mark .equals, .mark .parenOpen, .ident name], _, _, hc,
      by rw [hgroup]; rfl, ?_⟩
    rw [hgroup]
    refine Fails.firstFault (fails_const hc fun c₁ hkinds₁ => ?_) (c.rest_ne_nil hc)
    refine fails_group (hhead c₁ hkinds₁) hkinds₁ fun c₂ hkinds₂ => ?_
    refine gives_fails (gives_name (.inr hm) hkinds₂) fun _ c₃ _ hkinds₃ _ => ?_
    have hclose : m ≠ .parenClose := by rcases hm with rfl | rfl <;> decide
    rw [← hkinds₃]
    exact fails_bind (fails_expect (by simpa [hkinds₃] using hclose))

end Reader

open Reader

/-- The tokens of a declaration whose value is an arrow function, up to the arrow. Whatever head can be
spelled has a greedy spelling. -/
def SpellsHead (x : String) (ps : List Param) (result : Option TypeExpr) (head : List TokenKind) : Prop :=
  ∃ ts us, head = .keyword .const :: .ident x :: .mark .equals :: .mark .parenOpen :: ts ∧
    SpellsParams true ps ts (.mark .parenClose :: us) ∧ SpellsAnnotated true result us [.mark .arrow]

def anyFor (name : String) (k : TokenKind) : TokenKind := if k = .ident name then .ident "any" else k

theorem FirstPlace.map_anyFor {Q : List TokenKind → Prop} (h : FirstPlace name ts us Q) :
    ∃ pre post, ts.map (anyFor name) = pre ++ .ident "any" :: post ∧
      ts.idxOf (.ident name) = pre.length ∧ Q pre := by
  obtain ⟨pre, post, rfl, -, hpre, hQ⟩ := h
  have hmap : pre.map (anyFor name) = pre := by
    rw [List.map_congr_left (g := id), List.map_id]
    exact fun k hk => if_neg (ne_of_mem_of_not_mem hk hpre)
  refine ⟨pre, post.map (anyFor name), ?_, ?_, hQ⟩
  · rw [List.map_append, hmap, List.map_cons, anyFor, if_pos rfl]
  · rw [List.idxOf_append_of_notMem hpre, List.idxOf_cons_self, Nat.add_zero]

namespace Reader

def ReportsAny (pre : List TokenKind) : Prop :=
  ∀ ⦃c : Cursor⦄ ⦃rest : List TokenKind⦄, c.kinds = pre ++ .ident "any" :: rest →
    FirstFault (4 * c.rest.length + 4) c (.ident "any" :: rest) fun d => .anyType d.here

def ReportsGroup (ps : List Param) (pre : List TokenKind) : Prop :=
  ∀ ⦃c : Cursor⦄ ⦃rest : List TokenKind⦄, c.kinds = pre ++ .ident "any" :: rest →
    ∃ before k us, c.kinds = before ++ k :: us ∧ before.length = (groupFault ps).1 ∧
      FirstFault (4 * c.rest.length + 4) c (k :: us) (·.unexpected (groupFault ps).2)

end Reader

namespace SpellsHead

variable {head : List TokenKind}

theorem reportsAny (h : SpellsHead x ps result head) (hordinary : isReserved name = false)
    (hx : name ≠ x) (hname : .name name ∉ ps.flatMap Param.atoms)
    (hany : .typeName name ∈ ps.flatMap Param.atoms) : FirstPlace name head [] ReportsAny := by
  obtain ⟨ts, us, rfl, hps, -⟩ := h
  apply ((hps.stops hordinary hname hany).widen (List.nil_suffix)).behind
    [.keyword .const, .ident x, .mark .equals, .mark .parenOpen]
  · simpa using hx
  · rfl
  · intro pre hpre c rest hc
    obtain ⟨bound, hbound⟩ := Cursor.depth_eq hc
    rw [hbound]
    exact (hpre.stops_const hc).firstFault (c.rest_ne_nil hc)

theorem reportsGroup (h : SpellsHead x ps result head) (hordinary : isReserved name = false)
    (hx : name ≠ x) (hname : .name name ∉ ps.flatMap Param.atoms)
    (hnone : .typeName name ∉ ps.flatMap Param.atoms) (hnameresult : .name name ∉ annotatedAtoms result)
    (hany : .typeName name ∈ annotatedAtoms result) : FirstPlace name head [] (ReportsGroup ps) := by
  obtain ⟨ts, us, rfl, hps, hresult⟩ := h
  obtain ⟨pre, rfl, hnamed, hframe⟩ := hps.frame
  apply ((hresult.stops hordinary hnameresult hany).widen (List.nil_suffix)).behind
    (.keyword .const :: .ident x :: .mark .equals :: .mark .parenOpen :: pre ++ [.mark .parenClose])
  · simpa [hnamed.not_mem hname hnone] using hx
  · simp
  · intro pre' hpre' c rest hc
    obtain ⟨bound, hbound⟩ := Cursor.depth_eq hc
    rw [hbound]
    exact hpre'.firstFault_const hframe (by simpa using hc)

end SpellsHead

section Sources

variable {source : String} {k : TokenKind} {why : Cursor → ParseFault}

theorem exists_sourceToken (h : sourceKinds source = pre ++ k :: us) :
    ∃ t, ((tokenize source).filter fun t => !t.kind.isComment)[pre.length]? = some t ∧ t.kind = k := by
  have hget := congrArg (·[pre.length]?) h
  simp only [sourceKinds, List.getElem?_map, List.getElem?_append_right (Nat.le_refl _), Nat.sub_self,
    List.getElem?_cons_zero, Option.map_eq_some_iff] at hget
  exact hget

theorem Reader.FirstFault.parse (hlex : lexFaults source = [])
    (h : FirstFault (4 * (Cursor.ofSource source).rest.length + 4) (Cursor.ofSource source) (k :: us) why)
    (hkinds : (Cursor.ofSource source).kinds = pre ++ k :: us) :
    ∃ t d, ((tokenize source).filter fun t => !t.kind.isComment)[pre.length]? = some t ∧ t.kind = k ∧
      d.here = t.span ∧
      (∀ expected, d.unexpected expected = .unexpectedToken expected t.kind.describe t.span) ∧
      (parse source).faults.head? = some (why d) := by
  obtain ⟨d, fs, hd, hsuffix, hfs⟩ := h
  obtain ⟨t, ht, hk, hhere, hunexpected⟩ := Cursor.token_of_suffix hsuffix hd hkinds
  rw [rest_ofSource hlex] at ht
  have hfaults : (ArrowCheck.parse source).faults = (Cursor.ofSource source).faults ++ why d :: fs := hfs
  have hnone : (Cursor.ofSource source).faults = [] := by rw [Cursor.ofSource, hlex, List.map_nil]
  exact ⟨t, d, ht, hk, hhere, hunexpected, by rw [hfaults, hnone]; rfl⟩

end Sources

/-- Put `any` for one of the type names in the head of an arrow function that a constant is bound to; the
name stands for nothing else there. If it is a type name of a parameter, the first fault of a source that
starts with this head is the first `any`. If it is one of the result only, the first fault is the token at
which the parameters cannot be read on as a group. What stands behind the arrow does not matter. -/
theorem any_in_head_reported (source x name : String) (ps : List Param) (result : Option TypeExpr)
    (head body : List TokenKind) (hhead : SpellsHead x ps result head)
    (hsource : sourceKinds source = head.map (anyFor name) ++ body) (hlex : lexFaults source = [])
    (hordinary : isReserved name = false) (hx : name ≠ x)
    (hname : .name name ∉ ps.flatMap Param.atoms ++ annotatedAtoms result)
    (hany : .typeName name ∈ ps.flatMap Param.atoms ++ annotatedAtoms result) :
    ∃ t, ((tokenize source).filter fun t => !t.kind.isComment)[head.idxOf (.ident name)]? = some t ∧
      t.kind = .ident "any" ∧
      ((parse source).faults.head? = some (.anyType t.span) ↔ .typeName name ∈ ps.flatMap Param.atoms) ∧
      (.typeName name ∉ ps.flatMap Param.atoms →
        ∃ u, ((tokenize source).filter fun t => !t.kind.isComment)[(groupFault ps).1]? = some u ∧
          (parse source).faults.head? =
            some (.unexpectedToken (groupFault ps).2 u.kind.describe u.span)) := by
  rw [List.mem_append] at hname hany
  obtain ⟨hnameps, hnameresult⟩ := not_or.mp hname
  by_cases hparams : .typeName name ∈ ps.flatMap Param.atoms
  · obtain ⟨pre, post, hmap, hidx, hreports⟩ :=
      (hhead.reportsAny hordinary hx hnameps hparams).map_anyFor
    rw [← kinds_ofSource hlex, hmap, List.append_assoc, List.cons_append] at hsource
    obtain ⟨t, d, ht, hk, hhere, -, hfault⟩ := (hreports hsource).parse hlex hsource
    rw [hhere] at hfault
    exact ⟨t, hidx ▸ ht, hk, iff_of_true hfault hparams, fun hnone => absurd hparams hnone⟩
  · obtain ⟨pre, post, hmap, hidx, hreports⟩ := (hhead.reportsGroup hordinary hx hnameps hparams
      hnameresult (hany.resolve_left hparams)).map_anyFor
    rw [hmap, List.append_assoc, List.cons_append] at hsource
    obtain ⟨t, ht, hk⟩ := exists_sourceToken hsource
    obtain ⟨before, k, us, hkinds, hlength, hfirst⟩ := hreports ((kinds_ofSource hlex).trans hsource)
    obtain ⟨u, d, hu, -, -, hunexpected, hfault⟩ := hfirst.parse hlex hkinds
    rw [hunexpected] at hfault
    refine ⟨t, hidx ▸ ht, hk, iff_of_false ?_ hparams, fun _ => ⟨u, hlength ▸ hu, hfault⟩⟩
    rw [hfault]
    exact nofun

/-- The text would be a program with another result type, yet it is the parenthesis that is reported. -/
theorem any_result_unreported : ∃ source head body, source = "const f = (): any => \x7b\x7d" ∧
    SpellsHead "f" [] (some (.named "T" .dummy)) head ∧
    sourceKinds source = head.map (anyFor "T") ++ body ∧
    (parse "const f = (): T => \x7b\x7d").faults = [] ∧
    ⟨.ident "any", ⟨14, 17⟩⟩ ∈ tokenize source ∧
    (parse source).faults = [.unexpectedToken "expression" ")" ⟨11, 12⟩] := by
  refine ⟨_, [.keyword .const, .ident "f", .mark .equals, .mark .parenOpen, .mark .parenClose,
    .mark .colon, .ident "T", .mark .arrow], [.mark .braceOpen, .mark .braceClose], rfl, ?_,
    by decide +kernel, by decide +kernel, by decide +kernel, by decide +kernel⟩
  exact ⟨_, _, rfl, .none, _, rfl, .single (.member (.name (by decide)) .noSuffix)⟩

/-- Of two types `any` the one within the type of the second parameter is reported. -/
theorem array_of_any_reported : ∃ source head body ps result,
    source = "const f = (a, b: any[]): any => \x7b\x7d" ∧ SpellsHead "f" ps result head ∧
    sourceKinds source = head.map (anyFor "T") ++ body ∧ lexFaults source = [] ∧
    .typeName "T" ∈ annotatedAtoms result ∧
    (parse source).faults.head? = some (.anyType ⟨17, 20⟩) := by
  let source := "const f = (a, b: any[]): any => \x7b\x7d"
  let type : TypeExpr := .named "T" .dummy
  let ps : List Param := [⟨⟨0, .dummy⟩, "a", none⟩, ⟨⟨0, .dummy⟩, "b", some (.array type .dummy)⟩]
  let head : List TokenKind := [.keyword .const, .ident "f", .mark .equals, .mark .parenOpen, .ident "a",
    .mark .comma, .ident "b", .mark .colon, .ident "T", .mark .bracketOpen, .mark .bracketClose,
    .mark .parenClose, .mark .colon, .ident "T", .mark .arrow]
  have hhead : SpellsHead "f" ps (some type) head :=
    ⟨_, _, rfl, .cons rfl (.last ⟨_, rfl, .single (.member (.name (by decide))
      (.suffix (fun _ h => h) .noSuffix))⟩), _, rfl, .single (.member (.name (by decide)) .noSuffix)⟩
  have hsource : sourceKinds source = head.map (anyFor "T") ++ [.mark .braceOpen, .mark .braceClose] := by
    decide +kernel
  have hlex : lexFaults source = [] := by decide +kernel
  obtain ⟨t, ht, -, hreported, -⟩ := any_in_head_reported source "f" "T" ps (some type) head _ hhead
    hsource hlex (by decide) (by decide) (by simp [ps, type, Param.atoms, annotatedAtoms, TypeExpr.atoms])
    (by simp [ps, type, Param.atoms, annotatedAtoms, TypeExpr.atoms])
  have htoken : ((tokenize source).filter fun t => !t.kind.isComment)[head.idxOf (.ident "T")]? =
      some ⟨.ident "any", ⟨17, 20⟩⟩ := by decide +kernel
  cases ht.symm.trans htoken
  refine ⟨source, head, _, ps, some type, rfl, hhead, hsource, hlex, List.mem_singleton_self _, ?_⟩
  exact hreported.mpr (by simp [ps, type, Param.atoms, annotatedAtoms, TypeExpr.atoms])

end ArrowCheck
