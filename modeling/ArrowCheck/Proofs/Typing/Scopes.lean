import ArrowCheck.Proofs.Typing.Walk

namespace ArrowCheck

open TypeStore Check

variable {o : CheckOptions} {t : Labelling} {env env' env₁ env₂ : Binders}
  {s s₁ s₂ s₃ s' : CheckState} {ids ids₁ ids₂ : List NodeId} {c c₁ c₂ : Prop} {type : TypeId}

structure Rescoped (s s' : CheckState) : Prop where
  store : s'.store = s.store
  types : s'.nodeTypes = s.nodeTypes
  diagnostics : s'.diagnostics = s.diagnostics

theorem Rescoped.frame (h : Rescoped s s') : Frame [] s s' := fun id _ => by rw [h.types]

theorem Rescoped.recorded (h : Rescoped s s') (hr : Recorded s ids) : Recorded s' ids := by
  intro id hid
  rw [h.types]
  exact hr id hid

theorem Rescoped.step (h : Rescoped s s') (hs : s.Good) : Step t (fun _ => True) s s' := by
  have hfits : ∀ ρ, Fits ρ t s' ↔ Fits ρ t s := by
    intro ρ
    constructor
    · exact fun hρ => ⟨h.store ▸ hρ.models, fun hid => hρ.label (by rw [h.types, hid])⟩
    · exact fun hρ => ⟨h.store.symm ▸ hρ.models, fun hid => hρ.label (by rw [← h.types, hid])⟩
  exact
    { good := ⟨h.store.symm ▸ hs.rooted, fun hid => by
        rw [h.types] at hid
        rw [h.store]
        exact hs.range hid⟩
      size_le := Nat.le_of_eq (by rw [h.store])
      fits := (hfits _).mp
      quiet := fun hd => h.diagnostics ▸ hd
      sound := fun _ _ _ => trivial
      complete := fun {ρ} hρ _ =>
        ⟨fun hd => h.diagnostics.symm ▸ hd, ρ, Agree.refl s ρ, (hfits ρ).mpr hρ⟩ }

theorem pushScope_meets : Meets pushScope s fun _ s' =>
    Rescoped s s' ∧ s'.scopes = s.scopes.push := ⟨⟨rfl, rfl, rfl⟩, rfl⟩

theorem popScope_meets : Meets popScope s fun _ s' =>
    Rescoped s s' ∧ s'.scopes = s.scopes.pop.2 ∧ s'.returnTypes = s.returnTypes :=
  ⟨⟨rfl, rfl, rfl⟩, rfl, rfl⟩

theorem define_meets (name : String) : Meets (define name type) s fun _ s' =>
    Rescoped s s' ∧ s'.scopes = s.scopes.define name type ∧ s'.returnTypes = s.returnTypes :=
  ⟨⟨rfl, rfl, rfl⟩, rfl, rfl⟩

theorem recordReturn_meets (arrow : NodeId) : Meets (recordReturn arrow type) s fun _ s' =>
    Rescoped s s' ∧ s'.scopes = s.scopes ∧ s'.returnTypes.get? arrow = some type :=
  ⟨⟨rfl, rfl, rfl⟩, rfl, (Table.get?_insert s.returnTypes arrow arrow type).trans (if_pos rfl)⟩

/-- A visit of nodes that asks for `c` and brings names into the open scope. -/
structure Extends (t : Labelling) (c : Prop) (ids : List NodeId) (env : Binders)
    (s s' : CheckState) : Prop where
  step : Step t (fun _ => c) s s'
  frame : Frame ids s s'
  recorded : Recorded s' ids
  binds : Binds env s'
  above : ∀ {base}, ScopeStack.Above base s.scopes → ScopeStack.Above base s'.scopes

namespace Extends

theorem refl (hready : Ready env [] s) : Extends t True [] env s s :=
  ⟨Step.refl hready.good, Frame.refl s, fun _ h => absurd h List.not_mem_nil, hready.binds, id⟩

theorem imp {c' : Prop} (h : Extends t c ids env s s') (hc : c ↔ c') : Extends t c' ids env s s' :=
  { h with step := h.step.imp (fun _ _ => hc.mp) fun _ _ => hc.mpr }

theorem of_visited (hready : Ready env ids s) (h : Visited t c ids s s') : Extends t c ids env s s' :=
  ⟨h.step, h.frame, h.recorded, hready.binds.mono h.scopes (h.frame.keeps hready.new),
    fun hb => h.scopes.symm ▸ hb⟩

theorem trans (hready : Ready env (ids₁ ++ ids₂) s) (h₁ : Extends t c₁ ids₁ env₁ s s₁)
    (h₂ : Extends t c₂ ids₂ env₂ s₁ s₂) : Extends t (c₁ ∧ c₂) (ids₁ ++ ids₂) env₂ s s₂ :=
  ⟨h₁.step.then h₂.step, h₁.frame.trans h₂.frame,
    (h₁.recorded.mono h₂.frame fun _ hid hm => hready.disjoint hm hid).append h₂.recorded,
    h₂.binds, fun hb => h₂.above (h₁.above hb)⟩

theorem ready (h : Extends t c ids₁ env₁ s s₁) (hready : Ready env (ids₁ ++ ids₂) s) :
    Ready env₁ ids₂ s₁ := by
  refine ⟨h.step.good, h.binds, (List.nodup_append.mp hready.distinct).2.1, fun id hid => ?_⟩
  rw [h.frame id (hready.disjoint hid)]
  exact hready.new id (List.mem_append_right _ hid)

theorem after (h : Extends t c₁ ids env s s₁) (h' : Step t (fun _ => c₂) s₁ s₂)
    (htypes : s₂.nodeTypes = s₁.nodeTypes) (hscopes : s₂.scopes = s₁.scopes) :
    Extends t (c₁ ∧ c₂) ids env s s₂ := by
  refine ⟨h.step.then h', fun id hid => ?_, fun id hid => ?_, ?_, fun hb => ?_⟩
  · rw [htypes, h.frame id hid]
  · rw [htypes]
    exact h.recorded id hid
  · exact h.binds.mono hscopes fun id ty hid => by rw [htypes, hid]
  · rw [hscopes]
    exact h.above hb

theorem define (name : String) {id : NodeId} (h : Extends t c ids env s s₁)
    (hid : s₁.nodeTypes.get? id = some type) (hres : Rescoped s₁ s₂)
    (hscopes : s₂.scopes = s₁.scopes.define name type) :
    Extends t c ids (env.bind name id) s s₂ := by
  have hstep := (h.step.then (hres.step h.step.good)).imp (fun _ _ => And.left)
    fun _ _ hc => ⟨hc, trivial⟩
  have hframe := h.frame.trans hres.frame
  rw [List.append_nil] at hframe
  refine ⟨hstep, hframe, hres.recorded h.recorded, ⟨?_, ?_⟩, fun hb => ?_⟩
  · intro other ty hl
    rw [hscopes, ScopeStack.lookup_define] at hl
    rw [hres.types, Binders.bind]
    split at hl
    · cases hl
      exact ⟨id, if_pos (by assumption), hid⟩
    · rw [if_neg (by assumption)]
      exact h.binds.bound hl
  · intro other hl
    rw [hscopes, ScopeStack.lookup_define] at hl
    rw [Binders.bind]
    split at hl
    · cases hl
    · rw [if_neg (by assumption)]
      exact h.binds.free hl
  · rw [hscopes]
    exact (h.above hb).define name type

theorem close (hready : Ready env ids s) (hpush : Rescoped s s₁)
    (hs₁ : s₁.scopes = s.scopes.push) (h : Extends t c ids env' s₁ s₂) (hpop : Rescoped s₂ s₃)
    (hs₃ : s₃.scopes = s₂.scopes.pop.2) : Visited t c ids s s₃ := by
  have hstep : Step t (fun _ => (True ∧ c) ∧ True) s s₃ :=
    ((hpush.step hready.good).then h.step).then (hpop.step h.step.good)
  have hframe := (hpush.frame.trans h.frame).trans hpop.frame
  rw [List.nil_append, List.append_nil] at hframe
  refine ⟨hstep.imp (by simp) (by simp), hframe, ?_, hpop.recorded h.recorded⟩
  rw [hs₃]
  exact (h.above (hs₁ ▸ ScopeStack.above_push s.scopes)).pop

end Extends

theorem Ready.push (hready : Ready env ids s) (hres : Rescoped s s₁)
    (hscopes : s₁.scopes = s.scopes.push) : Ready env ids s₁ := by
  refine ⟨(hres.step (t := fun _ => "") hready.good).good, ⟨?_, ?_⟩, hready.distinct, ?_⟩
  · intro name ty hl
    rw [hscopes, ScopeStack.lookup_push] at hl
    rw [hres.types]
    exact hready.binds.bound hl
  · intro name hl
    rw [hscopes, ScopeStack.lookup_push] at hl
    exact hready.binds.free hl
  · intro id hid
    rw [hres.types]
    exact hready.new id hid

theorem bindParams_meets (params : List Param) {env : Binders} {s : CheckState}
    (hready : Ready env (params.map (·.node.id)) s) :
    Meets (bindParams params) s fun _ s' =>
      Extends t (∀ p ∈ params, ∀ type, p.type = some type → type.Allows (t p.node.id))
        (params.map (·.node.id)) (env.bindParams params) s s' := by
  induction params generalizing env s with
  | nil =>
    rw [bindParams, meets_pure]
    exact (Extends.refl hready).imp (by simp)
  | cons p rest ih =>
    have hready' : Ready env ([p.node.id] ++ rest.map (·.node.id)) s := hready
    have hadds : Meets (onStore (translateOptional p.type)) s
        (Adds t (fun v => ∀ type, p.type = some type → type.Allows v) s) := by
      cases hp : p.type with
      | none => exact (fresh_meets (t := t) hready.good).imp fun _ _ h => h.imp (by simp)
      | some declared =>
        exact (translate_meets (t := t) declared hready.good).imp fun _ _ h => h.imp (by simp)
    rw [bindParams, meets_bind]
    refine hadds.imp fun type s₁ h₁ => ?_
    rw [meets_bind]
    refine (h₁.record_meets hready'.left).imp ?_
    rintro - s₂ ⟨h₂, hid⟩
    rw [meets_bind]
    refine (define_meets p.name).imp ?_
    rintro - s₃ ⟨hres, hscopes, -⟩
    have h₃ := (Extends.of_visited hready'.left h₂).define p.name hid hres hscopes
    refine (ih (h₃.ready hready')).imp fun _ s₄ h₄ => ?_
    exact (h₃.trans hready' h₄).imp (by rw [List.forall_mem_cons])

theorem Block.id_mem_labelIds (b : Block) : b.node.id ∈ b.labelIds := by
  cases b
  simp [Block.labelIds]

theorem arrow_checks {node : Node} {params : List Param} {result : Option TypeExpr} {body : Block}
    (hb : body.Checks o t) : (Expr.arrow node params result body).Checks o t := by
  intro env s hready
  have hids : (Expr.arrow node params result body).labelIds =
      params.map (·.node.id) ++ body.labelIds ++ [node.id] := by simp [Expr.labelIds]
  rw [hids] at hready
  apply meets_bind.mpr
  refine pushScope_meets.imp ?_
  rintro - s₁ ⟨hpush, hscopes₁⟩
  have hready₁ := hready.left.push hpush hscopes₁
  rw [meets_bind]
  refine (bindParams_meets (t := t) params hready₁.left).imp fun _ s₂ h₂ => ?_
  have hready₂ := h₂.ready hready₁
  rw [meets_bind]
  refine (hb hready₂).imp ?_
  rintro bodyType s₃ ⟨h₃, hbody⟩
  have h₁₃ := h₂.trans hready₁ (Extends.of_visited hready₂ h₃)
  rw [meets_bind]
  refine (recordReturn_meets node.id).imp ?_
  rintro - s₄ ⟨hres₄, hscopes₄, hreturn⟩
  have h₁₄ := h₁₃.after (hres₄.step h₃.step.good) hres₄.types hscopes₄
  have hbody₄ : s₄.nodeTypes.get? body.node.id = some bodyType := by rw [hres₄.types, hbody]
  rw [meets_bind]
  refine (checkResult_meets (t := t) (o := o) result h₁₄.step.good
    (.of_recorded h₁₄.step.good hbody₄)).imp ?_
  rintro - s₅ ⟨h₅, hsil₅⟩
  have h₁₅ := h₁₄.after h₅ hsil₅.types hsil₅.scopes
  rw [meets_bind]
  refine popScope_meets.imp ?_
  rintro - s₆ ⟨hpop, hscopes₆, hreturns₆⟩
  have h₆ := h₁₅.close hready.left hpush hscopes₁ hpop hscopes₆
  rw [meets_bind]
  refine (concrete_meets (t := t) "Function" h₆.step.good).imp ?_
  rintro type s₇ ⟨h₇, hsil₇, hk⟩
  rw [meets_bind]
  refine ((h₆.silent h₇ hsil₇).record_meets hready hk.yields).imp ?_
  rintro - s₈ ⟨h₈, hid, hframe₈, hreturns₈⟩
  rw [meets_pure]
  refine ⟨hids ▸ h₈.imp ?_, hid, fun he => ?_⟩
  · simp only [Expr.Every, Expr.IsProper, Expr.Labelled]
    grind
  · cases he
    have hne : body.node.id ∉ [node.id] := fun hm =>
      hready.disjoint hm (List.mem_append_right _ body.id_mem_labelIds)
    rw [hframe₈ _ hne, hsil₇.types, hpop.types, hsil₅.types, hbody₄]
    rw [hreturns₈, hsil₇.returns, hreturns₆, hsil₅.returns, hreturn]

def Stmt.Checks (o : CheckOptions) (t : Labelling) (st : Stmt) : Prop :=
  ∀ ⦃env s⦄, Ready env st.labelIds s → Meets (st.check o) s fun type s' =>
    Extends t (st.Every Expr.IsProper Stmt.HasFields ∧ st.Labelled o t env) st.labelIds
      (st.binders env) s s' ∧ Known t s' type (st.label t)

theorem checkStmts_meets {ss : List Stmt} (hss : ∀ st ∈ ss, st.Checks o t) {last : TypeId}
    {x : String} {env : Binders} {s : CheckState} (hready : Ready env (stmtIds ss) s)
    (hk : Known t s last x) :
    Meets (checkStmts o ss last) s fun type s' =>
      (∃ env', Extends t (everyStmt Expr.IsProper Stmt.HasFields ss ∧ stmtsLabelled o t ss env)
        (stmtIds ss) env' s s') ∧ Known t s' type (lastLabel t x ss) := by
  induction ss generalizing env s last x with
  | nil =>
    rw [checkStmts, meets_pure]
    exact ⟨⟨env, (Extends.refl hready).imp (by simp [everyStmt, stmtsLabelled])⟩, hk⟩
  | cons st rest ih =>
    rw [stmtIds] at hready ⊢
    rw [checkStmts, meets_bind]
    refine (hss st (by simp) hready.left).imp ?_
    rintro type s₁ ⟨h₁, hk₁⟩
    refine (ih (fun st hst => hss st (by simp [hst])) (h₁.ready hready) hk₁).imp ?_
    rintro last' s₂ ⟨⟨env', h₂⟩, hk₂⟩
    refine ⟨⟨env', (h₁.trans hready h₂).imp ?_⟩, hk₂⟩
    simp only [everyStmt, stmtsLabelled]
    grind

theorem block_checks {node : Node} {statements : List Stmt}
    (hss : ∀ st ∈ statements, st.Checks o t) : (Block.mk node statements).Checks o t := by
  intro env s hready
  rw [Block.labelIds] at hready ⊢
  rw [Block.check, meets_bind]
  refine (concrete_meets (t := t) "Void" hready.good).imp ?_
  rintro void s₁ ⟨h₁, hsil₁, hvoid⟩
  have hready₁ := hready.silent h₁.good hsil₁
  rw [meets_bind]
  refine pushScope_meets.imp ?_
  rintro - s₂ ⟨hpush, hscopes₂⟩
  rw [meets_bind]
  refine (checkStmts_meets hss (hready₁.left.push hpush hscopes₂)
    (hvoid.mono (hpush.step hready₁.good))).imp ?_
  rintro type s₃ ⟨⟨env', h₃⟩, hk⟩
  rw [meets_bind]
  refine popScope_meets.imp ?_
  rintro - s₄ ⟨hpop, hscopes₄, -⟩
  have h₄ := h₃.close hready₁.left hpush hscopes₂ hpop hscopes₄
  rw [meets_bind]
  refine (h₄.record_meets hready₁ (hk.mono (hpop.step h₃.step.good)).yields).imp ?_
  rintro - s₅ ⟨h₅, hid, -⟩
  rw [meets_pure]
  have hready' : Ready env ([] ++ (stmtIds statements ++ [node.id])) s := hready
  refine ⟨((Visited.of_silent h₁ hsil₁).trans hready' h₅).imp ?_, hid⟩
  simp only [Block.Every, Block.Labelled]
  grind

end ArrowCheck
