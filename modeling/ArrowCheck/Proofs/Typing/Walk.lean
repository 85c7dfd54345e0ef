import ArrowCheck.Proofs.Typing.Frames

namespace ArrowCheck

open TypeStore Check

attribute [local simp] Expr.labelIds Expr.Every Expr.Labelled

/-- A visit of nodes that asks for `c` and records the nodes' types. -/
structure Visited (t : Labelling) (c : Prop) (ids : List NodeId) (s s' : CheckState) : Prop where
  step : Step t (fun _ => c) s s'
  frame : Frame ids s s'
  scopes : s'.scopes = s.scopes
  recorded : Recorded s' ids

variable {o : CheckOptions} {t : Labelling} {env : Binders} {s s₁ s₂ s' : CheckState}
  {ids ids₁ ids₂ : List NodeId} {c c' c₁ c₂ : Prop} {type : TypeId} {x y : String}

namespace Visited

theorem refl (hs : s.Good) : Visited t True [] s s :=
  ⟨Step.refl hs, Frame.refl s, rfl, fun _ h => absurd h List.not_mem_nil⟩

theorem of_silent (h : Step t (fun _ => c) s s') (hsil : Silent s s') : Visited t c [] s s' :=
  ⟨h, hsil.frame, hsil.scopes, fun _ h => absurd h List.not_mem_nil⟩

theorem imp (h : Visited t c ids s s') (hc : c ↔ c') : Visited t c' ids s s' :=
  { h with step := h.step.imp (fun _ _ => hc.mp) fun _ _ => hc.mpr }

theorem trans (hready : Ready env (ids₁ ++ ids₂) s) (h₁ : Visited t c₁ ids₁ s s₁)
    (h₂ : Visited t c₂ ids₂ s₁ s₂) : Visited t (c₁ ∧ c₂) (ids₁ ++ ids₂) s s₂ :=
  ⟨h₁.step.then h₂.step, h₁.frame.trans h₂.frame, h₂.scopes.trans h₁.scopes,
    (h₁.recorded.mono h₂.frame fun _ hid hm => hready.disjoint hm hid).append h₂.recorded⟩

theorem silent (h : Visited t c₁ ids s s₁) (h' : Step t (fun _ => c₂) s₁ s₂) (hsil : Silent s₁ s₂) :
    Visited t (c₁ ∧ c₂) ids s s₂ :=
  ⟨h.step.then h', h.frame.silent hsil, hsil.scopes.trans h.scopes, hsil.recorded h.recorded⟩

theorem ready (h : Visited t c ids₁ s s₁) (hready : Ready env (ids₁ ++ ids₂) s) :
    Ready env ids₂ s₁ :=
  hready.next h.step.good h.frame h.scopes

end Visited

theorem Visited.record_meets {id : NodeId} (hready : Ready env (ids ++ [id]) s)
    (h : Visited t c ids s s₁) (hy : Yields t c s₁ type x) :
    Meets (record id type) s₁ fun _ s' =>
      Visited t (c ∧ t id = x) (ids ++ [id]) s s' ∧ s'.nodeTypes.get? id = some type ∧
        Frame [id] s₁ s' ∧ s'.returnTypes = s₁.returnTypes := by
  have hready₁ := h.ready hready
  refine (ArrowCheck.record_meets (t := t) hready₁.good (hready₁.new id (by simp)) hy.lt_size).imp ?_
  rintro - s₂ ⟨h₂, hframe, hscopes, hreturns, hid⟩
  have hstep : Step t (fun _ => c ∧ t id = x) s s₂ :=
    h.step.then_if h₂ fun hc ρ hρ => by rw [hy.value hc hρ]
  refine ⟨⟨hstep, h.frame.trans hframe, hscopes.trans h.scopes, ?_⟩, hid, hframe, hreturns⟩
  refine (h.recorded.mono hframe fun _ hm hm' => hready.disjoint hm' hm).append fun id' hid' => ?_
  rw [List.mem_singleton.mp hid']
  exact ⟨type, hid⟩

theorem Adds.record_meets {ok : String → Prop} {id : NodeId} (hready : Ready env [id] s)
    (h : Adds t ok s type s₁) :
    Meets (record id type) s₁ fun _ s' =>
      Visited t (ok (t id)) [id] s s' ∧ s'.nodeTypes.get? id = some type := by
  have hready₁ := hready.silent h.step.good h.silent
  refine (ArrowCheck.record_meets (t := t) hready₁.good (hready₁.new id (by simp)) h.lt_size).imp ?_
  rintro - s₂ ⟨h₂, hframe, hscopes, -, hid⟩
  have hstep : Step t (fun _ => ok (t id)) s s₂ := by
    refine (h.step.seq h₂).imp ?_ ?_
    · rintro - - ⟨-, ρ, -, hρ, heq⟩
      rw [heq]
      exact h.value hρ
    · intro ρ hρ hok
      obtain ⟨ρ₁, hag, hv, hρ₁⟩ := h.extend hρ (t id) hok
      exact ⟨trivial, ρ₁, hag, hρ₁, hv.symm⟩
  refine ⟨⟨hstep, h.silent.then_frame hframe, hscopes.trans h.silent.scopes, fun id' hid' => ?_⟩,
    hid⟩
  rw [List.mem_singleton.mp hid']
  exact ⟨type, hid⟩

structure ExprVisited (o : CheckOptions) (t : Labelling) (env : Binders) (e : Expr) (s : CheckState)
    (type : TypeId) (s' : CheckState) : Prop extends
    Visited t (e.Every Expr.IsProper Stmt.HasFields ∧ e.Labelled o t env) e.labelIds s s' where
  own : s'.nodeTypes.get? e.id = some type
  returns : ∀ {node params result body}, e = .arrow node params result body →
    s'.returnTypes.get? node.id = s'.nodeTypes.get? body.node.id

def Expr.Checks (o : CheckOptions) (t : Labelling) (e : Expr) : Prop :=
  ∀ ⦃env s⦄, Ready env e.labelIds s → Meets (e.check o) s (ExprVisited o t env e s)

def Block.Checks (o : CheckOptions) (t : Labelling) (b : Block) : Prop :=
  ∀ ⦃env s⦄, Ready env b.labelIds s → Meets (b.check o) s fun type s' =>
    Visited t (b.Every Expr.IsProper Stmt.HasFields ∧ b.Labelled o t env) b.labelIds s s' ∧
      s'.nodeTypes.get? b.node.id = some type

theorem Expr.id_mem_labelIds (e : Expr) : e.id ∈ e.labelIds := by
  cases e <;> simp [Expr.id, Expr.node]

theorem ExprVisited.known {e : Expr} (h : ExprVisited o t env e s type s') :
    Known t s' type (t e.id) :=
  .of_recorded h.step.good h.own

theorem ExprVisited.known_after {e : Expr} (h : ExprVisited o t env e s type s₁)
    (hready : Ready env (e.labelIds ++ ids) s) (hframe : Frame ids s₁ s₂) (hs : s₂.Good) :
    Known t s₂ type (t e.id) := by
  refine .of_recorded hs ?_
  rw [hframe e.id fun hm => hready.disjoint hm e.id_mem_labelIds]
  exact h.own

theorem literal_checks {e : Expr} (name : String) (hids : e.labelIds = [e.id])
    (hcheck : e.check o = do let type ← concrete name; record e.id type; return type)
    (hc : ∀ env, e.Every Expr.IsProper Stmt.HasFields ∧ e.Labelled o t env ↔ t e.id = name)
    (hne : ∀ n ps r b, e ≠ .arrow n ps r b) : e.Checks o t := by
  intro env s hready
  rw [hids] at hready
  rw [hcheck, meets_bind]
  refine (concrete_meets (t := t) name hready.good).imp ?_
  rintro type s₁ ⟨h₁, hsil₁, hk⟩
  rw [meets_bind]
  refine ((Visited.of_silent h₁ hsil₁).record_meets hready hk.yields).imp ?_
  rintro - s₂ ⟨h₂, hown, -⟩
  rw [meets_pure]
  refine ⟨hids ▸ h₂.imp ?_, hown, fun he => absurd he (hne _ _ _ _)⟩
  rw [hc env, true_and]

theorem ident_checks (node : Node) (name : String) : (Expr.ident node name).Checks o t := by
  intro env s hready
  have hids : (Expr.ident node name).labelIds = [node.id] := by simp
  rw [hids] at hready
  apply meets_bind.mpr
  unfold identType lookup
  rw [meets_bind, meets_bind, meets_get, meets_pure]
  cases hl : s.scopes.lookup name with
  | some type =>
    obtain ⟨binder, hb, ht⟩ := hready.binds.bound hl
    rw [meets_pure, meets_bind]
    have hk : Known t s type (t binder) := .of_recorded hready.good ht
    refine ((Visited.refl hready.good).record_meets hready hk.yields).imp ?_
    rintro - s₂ ⟨h₂, hid, -⟩
    rw [meets_pure]
    refine ⟨hids ▸ h₂.imp ?_, hid, by simp⟩
    simp [Expr.IsProper, hb]
  | none =>
    have hfree := hready.binds.free hl
    unfold recorded
    simp only
    rw [meets_bind, meets_get, hready.new node.id (by simp)]
    refine (fresh_meets (t := t) hready.good).imp fun type s₁ h₁ => ?_
    rw [meets_bind]
    refine (h₁.record_meets hready).imp ?_
    rintro - s₂ ⟨h₂, hid⟩
    rw [meets_pure]
    refine ⟨hids ▸ h₂.imp ?_, hid, by simp⟩
    simp [Expr.IsProper, hfree]

theorem error_checks (node : Node) : (Expr.error node).Checks o t := by
  intro env s hready
  have hids : (Expr.error node).labelIds = [node.id] := by simp
  rw [hids] at hready
  apply meets_bind.mpr
  refine (report_meets (t := t) (C := fun _ => False) _ _ hready.good fun _ _ => id).imp ?_
  rintro - s₁ ⟨h₁, hsil₁, hd⟩
  rw [meets_bind]
  refine (fresh_meets (t := t) h₁.good).imp fun type s₂ h₂ => ?_
  rw [meets_bind]
  refine (h₂.record_meets (hready.silent h₁.good hsil₁)).imp ?_
  rintro - s₃ ⟨h₃, hid⟩
  rw [meets_pure]
  have hstep : Step t (fun _ => False) s s₃ := h₁.after_report (fun _ _ => id) hd h₃.step
  have hv : Visited t False [node.id] s s₃ :=
    ⟨hstep, hsil₁.then_frame h₃.frame, h₃.scopes.trans hsil₁.scopes, h₃.recorded⟩
  refine ⟨hids ▸ hv.imp ?_, hid, by simp⟩
  simp [Expr.IsProper]

theorem binary_checks {node : Node} {op : BinaryOp} {l r : Expr} (hl : l.Checks o t)
    (hr : r.Checks o t) : (Expr.binary node op l r).Checks o t := by
  intro env s hready
  have hids : (Expr.binary node op l r).labelIds = l.labelIds ++ r.labelIds ++ [node.id] := by
    simp
  rw [hids] at hready
  have hlr := hready.left
  apply meets_bind.mpr
  refine (hl hlr.left).imp fun lt s₁ h₁ => ?_
  rw [meets_bind]
  refine (hr (h₁.ready hlr)).imp fun rt s₂ h₂ => ?_
  rw [meets_bind]
  refine (binaryType_meets op h₂.step.good (h₁.known_after hlr h₂.frame h₂.step.good)
    h₂.known).imp ?_
  rintro type s₃ ⟨c, z, h₃, hsil₃, hy, hjoins⟩
  have hv := ((h₁.toVisited.trans hlr h₂.toVisited).silent h₃ hsil₃)
  rw [meets_bind]
  refine (hv.record_meets hready ⟨hy.lt_size, fun h => hy.value h.2⟩).imp ?_
  rintro - s₄ ⟨h₄, hid, -⟩
  rw [meets_pure]
  refine ⟨hids ▸ h₄.imp ?_, hid, by simp⟩
  simp only [Expr.Every, Expr.IsProper, Expr.Labelled, hjoins]
  grind

theorem conditional_checks {node : Node} {test consequent alternate : Expr}
    (ht : test.Checks o t) (hc : consequent.Checks o t) (ha : alternate.Checks o t) :
    (Expr.conditional node test consequent alternate).Checks o t := by
  intro env s hready
  have hids : (Expr.conditional node test consequent alternate).labelIds =
      test.labelIds ++ consequent.labelIds ++ alternate.labelIds ++ [node.id] := by
    simp
  rw [hids] at hready
  have htca := hready.left
  have htc := htca.left
  apply meets_bind.mpr
  refine (ht htc.left).imp fun tt s₁ h₁ => ?_
  rw [meets_bind]
  have htca' : Ready env (test.labelIds ++ (consequent.labelIds ++ alternate.labelIds)) s :=
    List.append_assoc .. ▸ htca
  have hready₁ := h₁.ready htca'
  refine (hc hready₁.left).imp fun ct s₂ h₂ => ?_
  have h₁₂ := h₁.toVisited.trans htc h₂.toVisited
  rw [meets_bind]
  refine (ha (h₁₂.ready htca)).imp fun at_ s₃ h₃ => ?_
  rw [meets_bind]
  have hknownTest := h₁.known_after htca' (h₂.frame.trans h₃.frame) h₃.step.good
  refine (conditionalType_meets h₃.step.good hknownTest
    (h₂.known_after hready₁ h₃.frame h₃.step.good) h₃.known).imp ?_
  rintro type s₄ ⟨h₄, hsil₄, hy⟩
  have hv := (h₁₂.trans htca h₃.toVisited).silent h₄ hsil₄
  rw [meets_bind]
  refine (hv.record_meets hready ⟨hy.lt_size, fun h => hy.value h.2⟩).imp ?_
  rintro - s₅ ⟨h₅, hid, -⟩
  rw [meets_pure]
  refine ⟨hids ▸ h₅.imp ?_, hid, by simp⟩
  simp only [Expr.Every, Expr.IsProper, Expr.Labelled]
  grind

theorem checkExprs_meets {es : List Expr} (hes : ∀ e ∈ es, e.Checks o t) {s : CheckState}
    (hready : Ready env (exprIds es) s) :
    Meets (checkExprs o es) s fun types s' =>
      Visited t (everyExpr Expr.IsProper Stmt.HasFields es ∧ exprsLabelled o t es env) (exprIds es)
        s s' ∧ es.map (fun e => s'.nodeTypes.get? e.id) = types.map some := by
  induction es generalizing s with
  | nil =>
    rw [checkExprs, meets_pure]
    exact ⟨(Visited.refl hready.good).imp (by simp [everyExpr, exprsLabelled]), rfl⟩
  | cons e rest ih =>
    rw [exprIds] at hready ⊢
    rw [checkExprs, meets_bind]
    refine (hes e (by simp) hready.left).imp fun type s₁ h₁ => ?_
    rw [meets_bind]
    refine (ih (fun e he => hes e (by simp [he])) (h₁.ready hready)).imp ?_
    rintro types s₂ ⟨h₂, htypes⟩
    rw [meets_pure]
    refine ⟨(h₁.toVisited.trans hready h₂).imp ?_, ?_⟩
    · simp only [everyExpr, exprsLabelled]
      grind
    · rw [List.map_cons, List.map_cons, htypes]
      rw [h₂.frame e.id fun hm => hready.disjoint hm e.id_mem_labelIds, h₁.own]

theorem isBound_meets (callee : Expr) (hb : Binds env s) :
    Meets (isBound callee) s fun bound s' => s' = s ∧ (bound = true ↔ callee.IsBound env) := by
  cases callee with
  | ident node name =>
    refine ⟨rfl, ?_⟩
    show (s.scopes.lookup name).isSome = true ↔ (env name).isSome = true
    cases hl : s.scopes.lookup name with
    | some type =>
      obtain ⟨binder, hbinder, -⟩ := hb.bound hl
      simp [hbinder]
    | none => simp [hb.free hl]
  | _ => exact ⟨rfl, show false = true ↔ False by simp⟩

theorem callType_meets {place : Place} {callee : Expr} {args : List Expr} {types : List TypeId}
    (hs : s.Good) (hb : Binds env s) (htype : type < s.store.size)
    (hargs : args.map (fun e => s.nodeTypes.get? e.id) = types.map some) :
    Meets (callType place callee type types) s fun _ s' =>
      Step t (fun ρ => ∀ arg, callee.IsBound env → args = [arg] → ρ type = t arg.id) s s' ∧
        Silent s s' := by
  unfold callType
  rw [meets_bind]
  refine (isBound_meets callee hb).imp ?_
  rintro bound s' ⟨rfl, hbound⟩
  split
  · rename_i argType
    obtain ⟨arg, rfl, harg⟩ : ∃ arg, args = [arg] ∧ s'.nodeTypes.get? arg.id = some argType := by
      simpa [List.map_eq_singleton_iff] using hargs
    have hk : Known t s' argType (t arg.id) := .of_recorded hs harg
    rw [meets_bind]
    refine (unify_meets (t := t) place hs htype hk.lt_size).imp ?_
    rintro - s₂ ⟨h₂, hsil₂, -⟩
    rw [meets_pure]
    refine ⟨h₂.imp ?_ ?_, hsil₂⟩
    · rintro ρ hρ heq arg' - harg'
      cases harg'
      rw [heq, (hk.mono h₂).value hρ]
    · intro ρ hρ h
      rw [h arg (hbound.mp rfl) rfl, hk.value hρ]
  · rename_i hnot
    rw [meets_pure]
    refine ⟨(Step.refl hs).imp ?_ fun _ _ _ => trivial, Silent.refl s'⟩
    rintro ρ - - arg hcallee rfl
    obtain ⟨argType, rfl⟩ : ∃ argType, types = [argType] := by
      cases types with
      | nil => simp at hargs
      | cons argType rest => exact ⟨argType, by simp_all⟩
    exact absurd rfl (hnot argType (hbound.mpr hcallee))

theorem call_checks {node : Node} {callee : Expr} {args : List Expr} (hc : callee.Checks o t)
    (ha : ∀ e ∈ args, e.Checks o t) : (Expr.call node callee args).Checks o t := by
  intro env s hready
  have hids : (Expr.call node callee args).labelIds =
      callee.labelIds ++ (exprIds args ++ [node.id]) := by simp
  rw [hids] at hready
  apply meets_bind.mpr
  refine (hc hready.left).imp fun _ s₁ h₁ => ?_
  have hready₁ := h₁.ready hready
  rw [meets_bind]
  refine (fresh_meets (t := t) hready₁.good).imp fun type s₂ h₂ => ?_
  have hready₂ := hready₁.silent h₂.step.good h₂.silent
  rw [meets_bind]
  refine (checkExprs_meets ha hready₂.left).imp ?_
  rintro types s₃ ⟨h₃, htypes⟩
  have hready₃ := h₃.ready hready₂
  have htype₃ := Nat.lt_of_lt_of_le h₂.lt_size h₃.step.size_le
  rw [meets_bind]
  refine (callType_meets (t := t) hready₃.good hready₃.binds htype₃ htypes).imp ?_
  rintro - s₄ ⟨h₄, hsil₄⟩
  have hready₄ := hready₃.silent h₄.good hsil₄
  rw [meets_bind]
  refine (record_meets (t := t) hready₄.good (hready₄.new node.id (by simp))
    (Nat.lt_of_lt_of_le htype₃ h₄.size_le)).imp ?_
  rintro - s₅ ⟨h₅, hframe, hscopes, -, hown⟩
  rw [meets_pure]
  have hrest := (h₃.step.and h₄ fun ρ ρ' hag _ h arg hb he => by
    rw [hag type h₂.lt_size, h arg hb he]).and h₅ fun ρ ρ' hag _ h => by
    rw [hag type h₂.lt_size, h]
  -- the type of the call was new before its arguments were visited, so its value is the label
  have hstep : Step t (fun _ => (everyExpr Expr.IsProper Stmt.HasFields args ∧
      exprsLabelled o t args env) ∧ ∀ arg, callee.IsBound env → args = [arg] →
        t node.id = t arg.id) s₁ s₅ := by
    refine (h₂.step.seq hrest).imp ?_ ?_
    · rintro - - ⟨-, ρ, -, -, ⟨hargs, hcall⟩, hlabel⟩
      exact ⟨hargs, fun arg hb he => by rw [hlabel, hcall arg hb he]⟩
    · rintro ρ hρ ⟨hargs, hcall⟩
      obtain ⟨ρ₁, hag, hv, hρ₁⟩ := h₂.extend hρ (t node.id) trivial
      exact ⟨trivial, ρ₁, hag, hρ₁, ⟨hargs, fun arg hb he => by rw [hv, hcall arg hb he]⟩, hv.symm⟩
  have hrecorded : Recorded s₅ (exprIds args ++ [node.id]) := by
    refine ((hsil₄.recorded h₃.recorded).mono hframe fun _ hm hm' =>
      hready₂.disjoint hm' hm).append fun id hid => ?_
    rw [List.mem_singleton.mp hid]
    exact ⟨type, hown⟩
  have hv := Visited.mk hstep (h₂.silent.then_frame ((h₃.frame.silent hsil₄).trans hframe))
    (by rw [hscopes, hsil₄.scopes, h₃.scopes, h₂.silent.scopes]) hrecorded
  refine ⟨hids ▸ (h₁.toVisited.trans hready hv).imp ?_, hown, by simp⟩
  simp only [Expr.Every, Expr.IsProper, Expr.Labelled]
  grind

theorem checkRest_meets {es : List Expr} (hes : ∀ e ∈ es, e.Checks o t) {first : TypeId}
    {name : Option String} {s : CheckState} (hready : Ready env (exprIds es) s)
    (hf : Known t s first x) (hn : Names t s first name) :
    Meets (checkRest o first name es) s fun _ s' =>
      Visited t ((everyExpr Expr.IsProper Stmt.HasFields es ∧ exprsLabelled o t es env) ∧
        ∀ e ∈ es, x = t e.id) (exprIds es) s s' := by
  induction es generalizing s with
  | nil =>
    rw [checkRest, meets_pure]
    exact (Visited.refl hready.good).imp (by simp [everyExpr, exprsLabelled])
  | cons e rest ih =>
    rw [exprIds] at hready ⊢
    rw [checkRest, meets_bind]
    refine (hes e (by simp) hready.left).imp fun type s₁ h₁ => ?_
    rw [meets_bind]
    refine (elementType_meets (t := t) h₁.step.good (hf.mono h₁.step) (hn.mono h₁.step)
      h₁.known).imp ?_
    rintro - s₂ ⟨h₂, hsil₂⟩
    have h₁₂ := h₁.toVisited.silent h₂ hsil₂
    refine (ih (fun e he => hes e (by simp [he])) (h₁₂.ready hready) (hf.mono h₁₂.step)
      (hn.mono h₁₂.step)).imp fun _ s₃ h₃ => ?_
    refine (h₁₂.trans hready h₃).imp ?_
    simp only [everyExpr, exprsLabelled, List.forall_mem_cons]
    grind

theorem checkArray_meets {es : List Expr} (hes : ∀ e ∈ es, e.Checks o t)
    (hready : Ready env (exprIds es) s) :
    Meets (checkArray o es) s fun _ s' =>
      Visited t ((everyExpr Expr.IsProper Stmt.HasFields es ∧ exprsLabelled o t es env) ∧
        ∀ a ∈ es, ∀ b ∈ es, t a.id = t b.id) (exprIds es) s s' := by
  cases es with
  | nil =>
    rw [checkArray, meets_pure]
    exact (Visited.refl hready.good).imp (by simp [everyExpr, exprsLabelled])
  | cons e rest =>
    rw [exprIds] at hready ⊢
    rw [checkArray, meets_bind]
    refine (hes e (by simp) hready.left).imp fun type s₁ h₁ => ?_
    rw [meets_bind]
    refine (concreteName_meets (t := t) h₁.step.good h₁.known.lt_size).imp ?_
    rintro name s₂ ⟨h₂, hsil₂, hname⟩
    have h₁₂ := h₁.toVisited.silent h₂ hsil₂
    refine (checkRest_meets (fun e he => hes e (by simp [he])) (h₁₂.ready hready)
      (h₁.known.mono h₂) fun n hn ρ hρ => hname n hn ρ (h₂.fits hρ)).imp fun _ s₃ h₃ => ?_
    refine (h₁₂.trans hready h₃).imp ?_
    simp only [everyExpr, exprsLabelled, List.forall_mem_cons]
    grind

theorem array_checks {node : Node} {elements : List Expr} (hes : ∀ e ∈ elements, e.Checks o t) :
    (Expr.array node elements).Checks o t := by
  intro env s hready
  have hids : (Expr.array node elements).labelIds = exprIds elements ++ [node.id] := by
    simp
  rw [hids] at hready
  apply meets_bind.mpr
  refine (checkArray_meets hes hready.left).imp fun _ s₁ h₁ => ?_
  rw [meets_bind]
  refine (concrete_meets (t := t) "Array" h₁.step.good).imp ?_
  rintro type s₂ ⟨h₂, hsil₂, hk⟩
  rw [meets_bind]
  refine ((h₁.silent h₂ hsil₂).record_meets hready hk.yields).imp ?_
  rintro - s₃ ⟨h₃, hid, -⟩
  rw [meets_pure]
  refine ⟨hids ▸ h₃.imp ?_, hid, by simp⟩
  simp only [Expr.Every, Expr.IsProper, Expr.Labelled]
  grind

theorem checkProperties_meets {ps : List Property} (hps : ∀ p ∈ ps, p.value.Checks o t)
    {s : CheckState} (hready : Ready env (propertyIds ps) s) :
    Meets (checkProperties o ps) s fun _ s' =>
      Visited t (everyProperty Expr.IsProper Stmt.HasFields ps ∧ propertiesLabelled o t ps env)
        (propertyIds ps) s s' := by
  induction ps generalizing s with
  | nil =>
    rw [checkProperties, meets_pure]
    exact (Visited.refl hready.good).imp (by simp [everyProperty, propertiesLabelled])
  | cons p rest ih =>
    obtain ⟨node, key, value⟩ := p
    rw [propertyIds] at hready ⊢
    rw [checkProperties, meets_bind]
    refine (hps ⟨node, key, value⟩ (by simp) hready.left).imp fun type s₁ h₁ => ?_
    rw [meets_bind]
    refine (ih (fun p hp => hps p (by simp [hp])) (h₁.ready hready)).imp fun _ s₂ h₂ => ?_
    rw [meets_pure]
    refine (h₁.toVisited.trans hready h₂).imp ?_
    simp only [everyProperty, propertiesLabelled]
    grind

theorem object_checks {node : Node} {properties : List Property}
    (hps : ∀ p ∈ properties, p.value.Checks o t) : (Expr.object node properties).Checks o t := by
  intro env s hready
  have hids : (Expr.object node properties).labelIds = propertyIds properties ++ [node.id] := by
    simp
  rw [hids] at hready
  apply meets_bind.mpr
  refine (checkProperties_meets hps hready.left).imp fun fields s₁ h₁ => ?_
  rw [meets_bind]
  refine (object_meets (t := t) (Table.ofList fields) h₁.step.good).imp fun type s₂ h₂ => ?_
  rw [meets_bind]
  refine (h₂.record_meets (h₁.ready hready)).imp ?_
  rintro - s₃ ⟨h₃, hid⟩
  rw [meets_pure]
  refine ⟨hids ▸ (h₁.trans hready h₃).imp ?_, hid, by simp⟩
  simp only [Expr.Every, Expr.IsProper, Expr.Labelled]
  grind

end ArrowCheck
