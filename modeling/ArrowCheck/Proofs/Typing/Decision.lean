import ArrowCheck.Proofs.Typing.Scopes

namespace ArrowCheck

open TypeStore Check

variable {o : CheckOptions} {t : Labelling} {env : Binders} {s s' : CheckState}
  {ids : List NodeId} {c : Prop}

theorem exprIds_mem {es : List Expr} {e : Expr} (he : e ∈ es) : e.id ∈ exprIds es := by
  induction es with
  | nil => exact absurd he List.not_mem_nil
  | cons first rest ih =>
    rw [exprIds, List.mem_append]
    rcases List.mem_cons.mp he with rfl | he
    · exact .inl e.id_mem_labelIds
    · exact .inr (ih he)

theorem propertyIds_mem {ps : List Property} {p : Property} (hp : p ∈ ps) :
    p.value.id ∈ propertyIds ps := by
  induction ps with
  | nil => exact absurd hp List.not_mem_nil
  | cons first rest ih =>
    obtain ⟨node, key, value⟩ := first
    rw [propertyIds, List.mem_append]
    rcases List.mem_cons.mp hp with rfl | hp
    · exact .inl value.id_mem_labelIds
    · exact .inr (ih hp)

/-- A declared value against its annotation: the labels are as the declaration asks for, provided
that those inside the value are as the value itself asks for. -/
def DeclaredStep (o : CheckOptions) (t : Labelling) (node : Node) (name : Ident)
    (declared : TypeExpr) (value : Expr) (s s' : CheckState) : Prop :=
  ∃ c, Step t (fun _ => c) s s' ∧ Silent s s' ∧ ∀ env, value.Labelled o t env →
    (c ↔ (Stmt.const node name (some declared) value).HasFields ∧ Declares o t declared value)

section Declared

variable {place : Place} {node : Node} {name : Ident} {init : TypeId}

attribute [local simp] Stmt.HasFields Declares

theorem optional_meets {b : Bool} {m k : Check Unit} {Q : Unit → CheckState → Prop} (hs : s.Good)
    (hm : Meets m s fun _ s' => Step t (fun _ => c) s s' ∧ Silent s s')
    (hk : ∀ s', Step t (fun _ => b = true → c) s s' → Silent s s' → Meets k s' Q) :
    Meets (if b = true then m >>= fun _ => k else k) s Q := by
  cases b with
  | true =>
    rw [if_pos rfl, meets_bind]
    exact hm.imp fun _ s' h => hk s' (h.1.imp (by simp) (by simp)) h.2
  | false =>
    rw [if_neg (by simp)]
    exact hk s ((Step.refl hs).imp (by simp) (by simp)) (Silent.refl s)

theorem declaredFunction_meets {params : List Field} {result : TypeExpr} {span : Span}
    {arrow : Node} {actual : List Param} {written : Option TypeExpr} {body : Block} (hs : s.Good)
    (hk : Known t s init (t arrow.id)) (hparams : Recorded s (actual.map (·.node.id)))
    (hbody : body.node.id ∈ ids) (hr : Recorded s ids)
    (hreturns : s.returnTypes.get? arrow.id = s.nodeTypes.get? body.node.id) :
    Meets (checkDeclared o place (.arrow arrow actual written body) init
        (.function params result span)) s fun _ s' =>
      DeclaredStep o t node name (.function params result span) (.arrow arrow actual written body)
        s s' := by
  obtain ⟨bodyType, hbodyType⟩ := hr body.node.id hbody
  refine optional_meets (t := t) hs
    (checkReturn_meets result hs (hreturns.trans hbodyType) hbodyType) fun s₁ h₁ hsil₁ => ?_
  have hzip : Recorded s₁ ((params.zip actual).map (·.2.node.id)) := by
    intro id hid
    obtain ⟨pair, hpair, rfl⟩ := List.mem_map.mp hid
    rw [hsil₁.types]
    exact hparams _ (List.mem_map_of_mem (List.of_mem_zip hpair).2)
  refine optional_meets (t := t) h₁.good (checkParams_meets _ h₁.good hzip) fun s₂ h₂ hsil₂ => ?_
  rw [meets_bind]
  refine (concrete_meets (t := t) "Function" h₂.good).imp ?_
  rintro function s₃ ⟨h₃, hsil₃, hf⟩
  rw [meets_bind]
  have h₁₃ := (h₁.then h₂).then h₃
  refine (tie_meets (t := t) place h₃.good (hk.mono h₁₃) hf).imp ?_
  rintro - s₄ ⟨h₄, hsil₄, -⟩
  rw [meets_pure]
  refine ⟨_, h₁₃.then h₄, ((hsil₁.trans hsil₂).trans hsil₃).trans hsil₄, fun _ _ => ?_⟩
  simp only [Stmt.HasFields, Declares]
  grind

theorem declaredObject_meets {fields : List Field} {span : Span} {object : Node}
    {properties : List Property} (hs : s.Good) (hk : Known t s init (t object.id))
    (hr : Recorded s (propertyIds properties)) :
    Meets (checkDeclared o place (.object object properties) init (.object fields span)) s
      fun _ s' => DeclaredStep o t node name (.object fields span) (.object object properties)
        s s' := by
  refine meets_bind.mpr ?_
  refine (translate_meets (t := t) (.object fields span) hs).imp fun annotated s₁ h₁ => ?_
  have hvalues : Recorded s₁ (properties.map (·.value.id)) := by
    intro id hid
    obtain ⟨p, hp, rfl⟩ := List.mem_map.mp hid
    exact h₁.silent.recorded hr _ (propertyIds_mem hp)
  rw [meets_bind]
  refine (checkFields_meets (t := t) fields h₁.step.good hvalues).imp ?_
  rintro - s₂ ⟨h₂, hsil₂⟩
  rw [meets_bind]
  have hk₁ := hk.mono h₁.step
  refine (unify_meets (t := t) place h₂.good (hk₁.mono h₂).lt_size
    (Nat.lt_of_lt_of_le h₁.lt_size h₂.size_le)).imp ?_
  rintro - s₃ ⟨h₃, hsil₃, -⟩
  rw [meets_pure]
  have hrest := h₂.and h₃ fun ρ ρ' hag _ heq => by
    rw [hag init hk₁.lt_size, hag annotated h₁.lt_size, heq]
  -- an object type stands for no name, so the new type takes the value's label
  have hstep : Step t (fun _ => ∀ field ∈ fields, (∃ p ∈ properties, p.key = field.name) ∧
      ∀ p, lastProperty? properties field.name = some p → field.type.Allows (t p.value.id)) s s₃ := by
    refine (h₁.step.seq hrest).imp ?_ ?_
    · rintro - - ⟨-, ρ, -, -, hfields, -⟩
      exact hfields
    · intro ρ hρ hfields
      obtain ⟨ρ₁, hag, hv, hρ₁⟩ := h₁.extend hρ (t object.id) fun _ h => by cases h
      exact ⟨trivial, ρ₁, hag, hρ₁, hfields, by rw [hk₁.value hρ₁, hv]⟩
  refine ⟨_, hstep, (h₁.silent.trans hsil₂).trans hsil₃, fun _ _ => ?_⟩
  simp only [Stmt.HasFields, Declares]
  grind

theorem declaredArray_meets {element : TypeExpr} {span : Span} {array : Node}
    {elements : List Expr} (hs : s.Good) (hk : Known t s init (t array.id))
    (hr : Recorded s (exprIds elements)) :
    Meets (checkDeclared o place (.array array elements) init (.array element span)) s
      fun _ s' => DeclaredStep o t node name (.array element span) (.array array elements)
        s s' := by
  have hids : Recorded s (elements.map Expr.id) := by
    intro id hid
    obtain ⟨e, he, rfl⟩ := List.mem_map.mp hid
    exact hr _ (exprIds_mem he)
  refine annotatedElements_meets (t := t) element elements hs hids fun s₁ h₁ hsil₁ => ?_
  refine (checkAgainst_meets (.array element span) h₁.good (hk.mono h₁)).imp ?_
  rintro - s₂ ⟨h₂, hsil₂⟩
  refine ⟨_, h₁.then h₂, hsil₁.trans hsil₂, fun env hlabelled => ?_⟩
  have hsame := hlabelled.2.2
  have hname : (TypeExpr.array element span).Allows (t array.id) ↔ t array.id = "Array" := by
    simp [TypeExpr.Allows, TypeExpr.label?]
  have hall : (∃ v, element.Allows v ∧ ∀ e ∈ elements, t e.id = v) ↔
      ∀ e ∈ elements, element.Allows (t e.id) := by
    constructor
    · rintro ⟨v, hv, hall⟩ e he
      rw [hall e he]
      exact hv
    · intro h
      cases elements with
      | nil =>
        obtain ⟨v, hv⟩ := element.exists_allows
        exact ⟨v, hv, by simp⟩
      | cons e rest => exact ⟨t e.id, h e (by simp), fun e' he' => hsame e' he' e (by simp)⟩
  rw [hname, hall]
  simp only [Stmt.HasFields, Declares]
  grind

theorem checkDeclared_meets {declared : TypeExpr} {value : Expr} (hs : s.Good)
    (hunion : ¬ (Stmt.const node name (some declared) value).DeclaresUnion)
    (hk : Known t s init (t value.id)) (hr : Recorded s value.labelIds)
    (hreturns : ∀ {n ps r b}, value = .arrow n ps r b →
      s.returnTypes.get? n.id = s.nodeTypes.get? b.node.id) :
    Meets (checkDeclared o place value init declared) s fun _ s' =>
      DeclaredStep o t node name declared value s s' := by
  -- every other pair of an annotation and a value is compared as a whole
  have hplain : (∀ s', Meets (checkDeclared o place value init declared) s s' =
      Meets (checkAgainst place init declared) s s') →
      ((Stmt.const node name (some declared) value).HasFields ∧
        Declares o t declared value ↔ declared.Allows (t value.id)) →
      Meets (checkDeclared o place value init declared) s fun _ s' =>
        DeclaredStep o t node name declared value s s' := by
    intro hcheck hasks
    rw [hcheck]
    refine (checkAgainst_meets declared hs hk).imp ?_
    rintro - s' ⟨h, hsil⟩
    exact ⟨_, h, hsil, fun _ _ => hasks.symm⟩
  cases declared with
  | union => exact absurd trivial hunion
  | named => exact hplain (fun _ => by cases value <;> rfl) (by cases value <;> simp [Stmt.HasFields, Declares])
  | function params result span =>
    cases value with
    | arrow arrow actual written body =>
      have hids : (Expr.arrow arrow actual written body).labelIds =
        actual.map (·.node.id) ++ body.labelIds ++ [arrow.id] := by simp [Expr.labelIds]
      rw [hids] at hr
      exact declaredFunction_meets hs hk (fun id hid => hr id (by simp_all))
        (List.mem_append_left _ (List.mem_append_right _ body.id_mem_labelIds)) hr (hreturns rfl)
    | _ => exact hplain (fun _ => rfl) (by simp [Stmt.HasFields, Declares])
  | object fields span =>
    cases value with
    | object object properties =>
      rw [show (Expr.object object properties).labelIds = propertyIds properties ++ [object.id] by
        simp [Expr.labelIds]] at hr
      exact declaredObject_meets hs hk fun id hid => hr id (by simp [hid])
    | _ => exact hplain (fun _ => rfl) (by simp [Stmt.HasFields, Declares])
  | array element span =>
    cases value with
    | array array elements =>
      rw [show (Expr.array array elements).labelIds = exprIds elements ++ [array.id] by
        simp [Expr.labelIds]] at hr
      exact declaredArray_meets hs hk fun id hid => hr id (by simp [hid])
    | _ => exact hplain (fun _ => rfl) (by simp [Stmt.HasFields, Declares])

end Declared

theorem const_checks {node : Node} {name : Ident} {declared : Option TypeExpr} {value : Expr}
    (hunion : ¬ (Stmt.const node name declared value).DeclaresUnion) (hv : value.Checks o t) :
    (Stmt.const node name declared value).Checks o t := by
  intro env s hready
  have hids : (Stmt.const node name declared value).labelIds =
      value.labelIds ++ [name.node.id] := by simp [Stmt.labelIds]
  rw [hids] at hready ⊢
  rw [Stmt.check, meets_bind]
  refine (hv hready.left).imp fun init s₁ h₁ => ?_
  rw [meets_bind]
  refine (h₁.record_meets hready h₁.known.yields).imp ?_
  rintro - s₂ ⟨h₂, hid, hframe, hreturns₂⟩
  have hkeep : ∀ id ∈ value.labelIds, s₂.nodeTypes.get? id = s₁.nodeTypes.get? id :=
    fun id hm => hframe id fun hm' => hready.disjoint hm' hm
  rw [meets_bind]
  refine (define_meets name.name).imp ?_
  rintro - s₃ ⟨hres, hscopes, hreturns₃⟩
  have h₃ := (Extends.of_visited hready h₂).define name.name hid hres hscopes
  have hk : Known t s₃ init (t value.id) := .of_recorded h₃.step.good (by
    rw [hres.types, hkeep _ value.id_mem_labelIds, h₁.own])
  cases declared with
  | none =>
    refine ⟨h₃.imp ?_, hk⟩
    simp only [Stmt.Every, Stmt.Labelled, Stmt.HasFields]
    grind
  | some declared =>
    have hreturns : ∀ {n ps r b}, value = .arrow n ps r b →
        s₃.returnTypes.get? n.id = s₃.nodeTypes.get? b.node.id := by
      rintro n ps r b rfl
      have hb : b.node.id ∈ (Expr.arrow n ps r b).labelIds := by
        rw [Expr.labelIds]
        exact List.mem_append_left _ (List.mem_append_right _ b.id_mem_labelIds)
      rw [hreturns₃, hreturns₂, h₁.returns rfl, hres.types, hkeep _ hb]
    refine meets_bind.mpr ?_
    refine (checkDeclared_meets (t := t) h₃.step.good hunion hk
      (fun id hm => h₃.recorded id (List.mem_append_left _ hm)) hreturns).imp ?_
    rintro - s₄ ⟨c, h₄, hsil₄, hc⟩
    rw [meets_pure]
    refine ⟨(h₃.after h₄ hsil₄.types hsil₄.scopes).imp ?_, hk.mono h₄⟩
    have hasked := fun h => hc env h
    simp only [Stmt.Every, Stmt.Labelled, Option.some.injEq, forall_eq']
    grind

theorem return_checks {node : Node} {argument : Expr} (hv : argument.Checks o t) :
    (Stmt.ret node (some argument)).Checks o t := by
  intro env s hready
  rw [Stmt.labelIds] at hready ⊢
  rw [Stmt.check]
  refine (hv hready).imp fun type s₁ h₁ => ?_
  refine ⟨(Extends.of_visited hready h₁.toVisited).imp ?_, h₁.known⟩
  simp [Stmt.Every, Stmt.Labelled, Stmt.HasFields]

theorem bareReturn_checks (node : Node) : (Stmt.ret node none).Checks o t := by
  intro env s hready
  rw [Stmt.labelIds] at hready ⊢
  rw [Stmt.check]
  refine (concrete_meets (t := t) "Void" hready.good).imp ?_
  rintro type s₁ ⟨h₁, hsil₁, hk⟩
  refine ⟨(Extends.of_visited hready (.of_silent h₁ hsil₁)).imp ?_, hk⟩
  simp [Stmt.Every, Stmt.Labelled, Stmt.HasFields]

section Tree

variable (o : CheckOptions) (t : Labelling)

mutual

theorem Expr.checks (e : Expr)
    (he : e.Every (fun _ => True) fun st => ¬ st.DeclaresUnion) : e.Checks o t := by
  match e with
  | .string node value =>
    exact literal_checks (t := t) (e := .string node value) "String" rfl rfl
      (by simp [Expr.Every, Expr.IsProper, Expr.Labelled, Expr.id, Expr.node]) (by simp)
  | .number node value =>
    exact literal_checks (t := t) (e := .number node value) "Number" rfl rfl
      (by simp [Expr.Every, Expr.IsProper, Expr.Labelled, Expr.id, Expr.node]) (by simp)
  | .boolean node value =>
    exact literal_checks (t := t) (e := .boolean node value) "Boolean" rfl rfl
      (by simp [Expr.Every, Expr.IsProper, Expr.Labelled, Expr.id, Expr.node]) (by simp)
  | .ident node name => exact ident_checks node name
  | .binary node op l r => exact binary_checks (l.checks he.2.1) (r.checks he.2.2)
  | .conditional node c a b =>
    exact conditional_checks (c.checks he.2.1) (a.checks he.2.2.1) (b.checks he.2.2.2)
  | .call node f args => exact call_checks (f.checks he.2.1) (exprs_check args he.2.2)
  | .arrow node params result body => exact arrow_checks (body.checks he.2)
  | .array node elements => exact array_checks (exprs_check elements he.2)
  | .object node properties => exact object_checks (properties_check properties he.2)
  | .error node => exact error_checks node
termination_by structural e

theorem exprs_check (es : List Expr)
    (hes : everyExpr (fun _ => True) (fun st => ¬ st.DeclaresUnion) es) :
    ∀ e ∈ es, e.Checks o t := by
  match es with
  | [] => exact fun _ h => absurd h List.not_mem_nil
  | first :: rest =>
    have hf := first.checks hes.1
    have hr := exprs_check rest hes.2
    exact List.forall_mem_cons.mpr ⟨hf, hr⟩
termination_by structural es

theorem properties_check (ps : List Property)
    (hps : everyProperty (fun _ => True) (fun st => ¬ st.DeclaresUnion) ps) :
    ∀ p ∈ ps, p.value.Checks o t := by
  match ps with
  | [] => exact fun _ h => absurd h List.not_mem_nil
  | ⟨_, _, value⟩ :: rest =>
    have hf := value.checks hps.1
    have hr := properties_check rest hps.2
    exact List.forall_mem_cons.mpr ⟨hf, hr⟩
termination_by structural ps

theorem Stmt.checks (st : Stmt)
    (hst : st.Every (fun _ => True) fun st => ¬ st.DeclaresUnion) : st.Checks o t := by
  match st with
  | .const node name type value => exact const_checks hst.1 (value.checks hst.2)
  | .ret node (some argument) => exact return_checks (argument.checks hst.2)
  | .ret node none => exact bareReturn_checks node
termination_by structural st

theorem Block.checks (b : Block)
    (hb : b.Every (fun _ => True) fun st => ¬ st.DeclaresUnion) : b.Checks o t := by
  match b with
  | ⟨node, statements⟩ => exact block_checks (stmts_check statements hb)
termination_by structural b

theorem stmts_check (ss : List Stmt)
    (hss : everyStmt (fun _ => True) (fun st => ¬ st.DeclaresUnion) ss) :
    ∀ st ∈ ss, st.Checks o t := by
  match ss with
  | [] => exact fun _ h => absurd h List.not_mem_nil
  | first :: rest =>
    have hf := first.checks hss.1
    have hr := stmts_check rest hss.2
    exact List.forall_mem_cons.mpr ⟨hf, hr⟩
termination_by structural ss

end

end Tree

theorem visitAll_extends {ss : List Stmt} (hss : ∀ st ∈ ss, st.Checks o t) {env : Binders}
    {s : CheckState} (hready : Ready env (stmtIds ss) s) :
    Meets (visitAll o ss) s fun _ s' =>
      ∃ env', Extends t (everyStmt Expr.IsProper Stmt.HasFields ss ∧ stmtsLabelled o t ss env)
        (stmtIds ss) env' s s' := by
  induction ss generalizing env s with
  | nil =>
    rw [visitAll, meets_pure]
    exact ⟨env, (Extends.refl hready).imp (by simp [everyStmt, stmtsLabelled])⟩
  | cons st rest ih =>
    rw [stmtIds] at hready ⊢
    rw [visitAll, meets_bind]
    refine (hss st (by simp) hready.left).imp ?_
    rintro type s₁ ⟨h₁, -⟩
    rw [meets_bind]
    refine (ih (fun st hst => hss st (by simp [hst])) (h₁.ready hready)).imp ?_
    rintro types s₂ ⟨env', h₂⟩
    rw [meets_pure]
    refine ⟨env', (h₁.trans hready h₂).imp ?_⟩
    simp only [everyStmt, stmtsLabelled]
    grind

theorem visitAll_meets {ss : List Stmt} (hss : ∀ st ∈ ss, st.Checks o t)
    (hready : Ready env (stmtIds ss) s) :
    Meets (visitAll o ss) s fun _ s' =>
      Step t (fun _ => everyStmt Expr.IsProper Stmt.HasFields ss ∧ stmtsLabelled o t ss env) s s' := by
  refine (visitAll_extends hss hready).imp ?_
  rintro types s' ⟨env', h⟩
  exact h.step

theorem good_initial : CheckState.Good {} :=
  ⟨fun a ha => absurd ha (Nat.not_lt_zero a), fun h => nomatch h⟩

theorem fits_initial (ρ : TypeId → String) (t : Labelling) : Fits ρ t {} :=
  ⟨⟨fun h => (by cases h), fun h => (by cases h)⟩, fun h => (by cases h)⟩

def CheckState.labelling (s : CheckState) (ρ : TypeId → String) : Labelling :=
  fun id => (s.nodeTypes.get? id).elim "" ρ

theorem fits_labelling {ρ : TypeId → String} (hρ : Models ρ s.store) : Fits ρ (s.labelling ρ) s :=
  ⟨hρ, fun hid => by rw [CheckState.labelling, hid]; rfl⟩

/-- The checker reports nothing if and only if the program has no error expression and no missing
field, and its nodes can be labelled as it asks for. -/
theorem diagnostics_eq_nil_iff_labelled (o : CheckOptions) (p : Program) (hids : p.labelIds.Nodup)
    (hunion : p.Every (fun _ => True) fun st => ¬ st.DeclaresUnion) :
    (checkProgram o p).diagnostics = [] ↔
      p.Every Expr.IsProper Stmt.HasFields ∧ ∃ t, p.Labelled o t := by
  have hready : Ready (fun _ => none) (stmtIds p.statements) {} :=
    ⟨good_initial, ⟨fun h => (by cases h), fun _ => rfl⟩, hids, fun _ _ => rfl⟩
  have hstep : ∀ t, Step t (fun _ => p.Every Expr.IsProper Stmt.HasFields ∧ p.Labelled o t) {}
      ((visitAll o p.statements).run {}).2 :=
    fun t => visitAll_meets (stmts_check o t p.statements hunion) hready
  constructor
  · intro hd
    obtain ⟨ρ, hρ⟩ := (hstep fun _ => "").good.rooted.exists_models
    obtain ⟨hproper, hlabelled⟩ := (hstep _).sound hd (fits_labelling hρ)
    exact ⟨hproper, _, hlabelled⟩
  · rintro ⟨hproper, t, hlabelled⟩
    exact ((hstep t).complete (fits_initial (fun _ => "") t) ⟨hproper, hlabelled⟩).1 rfl

/-- The result of a call of a name is its argument's label, so a sum of such a call on a truth
value and a string has no labelling. -/
theorem sum_of_call_not_labelled :
    let at_ : NodeId → Node := fun id => ⟨id, default⟩
    let p : Program := ⟨[.const (at_ 0) ⟨at_ 1, "same"⟩ none (.arrow (at_ 2) [⟨at_ 3, "x", none⟩] none
        ⟨at_ 4, [.ret (at_ 5) (some (.ident (at_ 6) "x"))]⟩),
      .ret (at_ 7) (some (.binary (at_ 8) .add
        (.call (at_ 9) (.ident (at_ 10) "same") [.boolean (at_ 11) true]) (.string (at_ 12) "a")))],
      default⟩
    p.labelIds.Nodup ∧ (p.Every (fun _ => True) fun st => ¬ st.DeclaresUnion) ∧
      p.Every Expr.IsProper Stmt.HasFields ∧ ¬ ∃ t, p.Labelled {} t := by
  intro at_ p
  have hids : p.labelIds.Nodup := by decide
  have hunion : p.Every (fun _ => True) fun st => ¬ st.DeclaresUnion := by
    simp [p, Program.Every, everyStmt, Stmt.Every, Expr.Every, Block.Every, everyExpr,
      Stmt.DeclaresUnion]
  have hproper : p.Every Expr.IsProper Stmt.HasFields := by
    simp [p, Program.Every, everyStmt, Stmt.Every, Expr.Every, Block.Every, everyExpr,
      Expr.IsProper, Stmt.HasFields]
  refine ⟨hids, hunion, hproper, fun ht => ?_⟩
  have hd := (diagnostics_eq_nil_iff_labelled {} p hids hunion).mpr ⟨hproper, ht⟩
  have hne : (checkProgram {} p).diagnostics ≠ [] := by
    have hok : (checkProgram {} p).isOk = false := by decide +kernel
    exact fun h => by simp [CheckResult.isOk, h] at hok
  exact hne hd

end ArrowCheck
