import ArrowCheck.Proofs.Typing.Operators

namespace ArrowCheck

open TypeStore Check

variable {t : Labelling} {s s₁ s₂ s' : CheckState} {c c' : Prop}
  {type left right : TypeId} {x y z : String} {place : Place}

theorem TypeExpr.exists_allows (declared : TypeExpr) : ∃ v, declared.Allows v := by
  refine ⟨declared.label?.getD "", fun name h => ?_⟩
  rw [h]
  rfl

mutual

theorem translate_adds (declared : TypeExpr) {s : CheckState} (hs : s.Good) :
    Adds t declared.Allows s (declared.translate s.store).1
      (s.withStore (declared.translate s.store).2) := by
  cases declared with
  | named name _ | array | function =>
    refine (push_adds (by simp) hs).imp fun v => ?_
    simp [TypeExpr.Allows, TypeExpr.label?]
  | union =>
    refine (push_adds (by simp) hs).imp fun v => ?_
    simp [TypeExpr.Allows, TypeExpr.label?]
  | object fields span =>
    have h₁ := translateFields_step fields hs
    have h₂ : Adds t (fun _ => True) _ _ _ := (push_adds (c := .object (Table.ofList
      (translateFields fields s.store).1)) (by simp) h₁.good).imp (by simp)
    exact
      { step := h₁.after h₂.step
        silent := Silent.withStore s _
        lt_size := h₂.lt_size
        value := fun _ _ h => by cases h
        extend := fun {ρ} hρ v _ => by
          obtain ⟨-, ρ₁, hag₁, hρ₁⟩ := h₁.complete hρ trivial
          obtain ⟨ρ₂, hag₂, hv, hρ₂⟩ := h₂.extend hρ₁ v trivial
          refine ⟨ρ₂, fun a ha => ?_, hv, hρ₂⟩
          rw [hag₂ a (Nat.lt_of_lt_of_le ha h₁.size_le), hag₁ a ha] }
termination_by structural declared

theorem translateFields_step (fields : List Field) {s : CheckState} (hs : s.Good) :
    Step t (fun _ => True) s (s.withStore (translateFields fields s.store).2) := by
  match fields with
  | [] => exact Step.refl hs
  | ⟨name, type, _⟩ :: rest =>
    have h₁ := (translate_adds type hs).step
    exact h₁.after (translateFields_step rest h₁.good)
termination_by structural fields

end

theorem translate_meets (declared : TypeExpr) (hs : s.Good) :
    Meets (translate declared) s (Adds t declared.Allows s) :=
  translate_adds declared hs

/-- A type and a new one for an annotation are made one: the label has to be allowed. -/
theorem Adds.unify_meets {declared : TypeExpr} {actual : TypeId} (place : Place)
    (h : Adds t declared.Allows s type s₁) (hk : Known t s actual x) :
    Meets (Check.unify actual type place) s₁ fun _ s' =>
      Step t (fun _ => declared.Allows x) s s' ∧ Silent s s' := by
  have hk₁ := hk.mono h.step
  refine (ArrowCheck.unify_meets (t := t) place h.step.good hk₁.lt_size h.lt_size).imp ?_
  rintro - s₂ ⟨h₂, hsil₂, -⟩
  refine ⟨(h.step.seq h₂).imp ?_ ?_, h.silent.trans hsil₂⟩
  · rintro - - ⟨-, ρ, -, hρ, heq⟩
    rw [← hk₁.value hρ, heq]
    exact h.value hρ
  · intro ρ hρ hallows
    obtain ⟨ρ₁, hag, hv, hρ₁⟩ := h.extend hρ x hallows
    exact ⟨trivial, ρ₁, hag, hρ₁, (hk₁.value hρ₁).trans hv.symm⟩

theorem checkAgainst_meets {actual : TypeId} (declared : TypeExpr) (hs : s.Good)
    (hk : Known t s actual x) :
    Meets (checkAgainst place actual declared) s fun _ s' =>
      Step t (fun _ => declared.Allows x) s s' ∧ Silent s s' := by
  unfold checkAgainst
  rw [meets_bind]
  exact (translate_meets declared hs).imp fun _ _ h => h.unify_meets place hk

theorem checkResult_meets {o : CheckOptions} {body : TypeId} (result : Option TypeExpr)
    (hs : s.Good) (hk : Known t s body x) :
    Meets (checkResult o place body result) s fun _ s' =>
      Step t (fun _ => o.returnTypes = true → ∀ type, result = some type → type.Allows x) s s' ∧
        Silent s s' := by
  unfold checkResult
  cases result with
  | none => exact ⟨(Step.refl hs).imp (by simp) (by simp), Silent.refl s⟩
  | some declared =>
    by_cases ho : o.returnTypes = true
    · simp only [ho, ↓reduceIte]
      refine (checkAgainst_meets declared hs hk).imp ?_
      rintro - s₁ ⟨h₁, hsil₁⟩
      exact ⟨h₁.imp (fun _ _ h _ _ heq => by cases heq; exact h) fun _ _ h => h trivial _ rfl, hsil₁⟩
    · simp only [ho]
      exact ⟨(Step.refl hs).imp (by simp) (by simp), Silent.refl s⟩

theorem meets_recorded {α : Type} {id : NodeId} {k : TypeId → Check α} {Q : α → CheckState → Prop}
    (h : s.nodeTypes.get? id = some type) (hk : Meets (k type) s Q) :
    Meets (recorded id >>= k) s Q := by
  rw [meets_bind]
  unfold recorded
  rw [meets_bind, meets_get, h]
  exact hk

theorem checkReturn_meets {arrow id : NodeId} (result : TypeExpr) (hs : s.Good)
    (harrow : s.returnTypes.get? arrow = some type) (hid : s.nodeTypes.get? id = some type) :
    Meets (checkReturn place arrow result) s fun _ s' =>
      Step t (fun _ => result.Allows (t id)) s s' ∧ Silent s s' := by
  unfold checkReturn
  rw [meets_bind]
  refine (translate_meets (t := t) result hs).imp fun _ s₁ h₁ => ?_
  rw [meets_bind, meets_get, h₁.silent.returns, harrow]
  exact h₁.unify_meets place (.of_recorded hs hid)

def Recorded (s : CheckState) (ids : List NodeId) : Prop :=
  ∀ id ∈ ids, ∃ type, s.nodeTypes.get? id = some type

theorem Silent.recorded {ids : List NodeId} (h : Silent s s') (hr : Recorded s ids) :
    Recorded s' ids := by
  intro id hid
  rw [h.types]
  exact hr id hid

theorem checkParams_meets (pairs : List (Field × Param)) {s : CheckState} (hs : s.Good)
    (hr : Recorded s (pairs.map (·.2.node.id))) :
    Meets (checkParams place pairs) s fun _ s' =>
      Step t (fun _ => ∀ pair ∈ pairs, pair.1.type.Allows (t pair.2.node.id)) s s' ∧
        Silent s s' := by
  induction pairs generalizing s with
  | nil => exact ⟨(Step.refl hs).imp (by simp) (by simp), Silent.refl s⟩
  | cons pair rest ih =>
    obtain ⟨field, param⟩ := pair
    obtain ⟨actual, hactual⟩ := hr param.node.id (by simp)
    unfold checkParams
    rw [meets_bind]
    refine (translate_meets (t := t) field.type hs).imp fun annotated s₁ h₁ => ?_
    have hactual₁ : s₁.nodeTypes.get? param.node.id = some actual := h₁.silent.types ▸ hactual
    refine meets_recorded hactual₁ ?_
    rw [meets_bind]
    refine (h₁.unify_meets place (.of_recorded hs hactual)).imp ?_
    rintro - s₂ ⟨h₂, hsil₂⟩
    refine (ih h₂.good (hsil₂.recorded fun id hid => hr id (by simp_all))).imp ?_
    rintro - s₃ ⟨h₃, hsil₃⟩
    exact ⟨(h₂.then h₃).imp (by simp) (by simp), hsil₂.trans hsil₃⟩

theorem lastProperty?_eq_none {properties : List Property} {key : String} :
    lastProperty? properties key = none ↔ ∀ p ∈ properties, p.key ≠ key := by
  simp [lastProperty?]

theorem mem_of_lastProperty? {properties : List Property} {key : String} {p : Property}
    (h : lastProperty? properties key = some p) : p ∈ properties ∧ p.key = key := by
  have hm := List.mem_of_find?_eq_some h
  have hp := List.find?_some h
  exact ⟨List.mem_reverse.mp hm, by simpa using hp⟩

theorem checkFields_meets {properties : List Property} (fields : List Field) {s : CheckState}
    (hs : s.Good) (hr : Recorded s (properties.map (·.value.id))) :
    Meets (checkFields place properties fields) s fun _ s' =>
      Step t (fun _ => ∀ field ∈ fields, (∃ p ∈ properties, p.key = field.name) ∧
        ∀ p, lastProperty? properties field.name = some p → field.type.Allows (t p.value.id)) s s' ∧
        Silent s s' := by
  induction fields generalizing s with
  | nil => exact ⟨(Step.refl hs).imp (by simp) (by simp), Silent.refl s⟩
  | cons field rest ih =>
    -- the fields behind, once this one is settled
    have hrest : ∀ {c : Prop} {s₁ : CheckState}, Step t (fun _ => c) s s₁ → Silent s s₁ →
        (c ↔ (∃ p ∈ properties, p.key = field.name) ∧
          ∀ p, lastProperty? properties field.name = some p → field.type.Allows (t p.value.id)) →
        Meets (checkFields place properties rest) s₁ fun _ s' =>
          Step t (fun _ => ∀ f ∈ field :: rest, (∃ p ∈ properties, p.key = f.name) ∧
            ∀ p, lastProperty? properties f.name = some p → f.type.Allows (t p.value.id)) s s' ∧
            Silent s s' := by
      intro c s₁ h₁ hsil₁ hc
      refine (ih h₁.good (hsil₁.recorded hr)).imp ?_
      rintro - s₂ ⟨h₂, hsil₂⟩
      refine ⟨(h₁.then h₂).imp ?_ ?_, hsil₁.trans hsil₂⟩
      · rintro - - ⟨h, h'⟩
        exact List.forall_mem_cons.mpr ⟨hc.mp h, h'⟩
      · intro _ _ h
        exact ⟨hc.mpr (List.forall_mem_cons.mp h).1, (List.forall_mem_cons.mp h).2⟩
    unfold checkFields
    split
    · rename_i hfind
      have hnone := lastProperty?_eq_none.mp hfind
      rw [meets_bind]
      refine (report_meets (t := t) (C := fun _ => False) _ _ hs fun _ _ => id).imp ?_
      rintro - s₁ ⟨h₁, hsil₁, -⟩
      refine hrest h₁ hsil₁ ⟨False.elim, ?_⟩
      rintro ⟨⟨p, hp, hkey⟩, -⟩
      exact hnone p hp hkey
    · rename_i p hfind
      have hlast : lastProperty? properties field.name = some p := hfind
      obtain ⟨hp, hkey⟩ := mem_of_lastProperty? hlast
      obtain ⟨actual, hactual⟩ := hr p.value.id (List.mem_map_of_mem hp)
      refine meets_recorded hactual ?_
      rw [meets_bind]
      refine (translate_meets (t := t) field.type hs).imp fun annotated s₁ h₁ => ?_
      rw [meets_bind]
      refine (h₁.unify_meets _ (.of_recorded hs hactual)).imp ?_
      rintro - s₂ ⟨h₂, hsil₂⟩
      refine hrest h₂ hsil₂ ⟨fun h => ⟨⟨p, hp, hkey⟩, fun q hq => ?_⟩, fun h => h.2 p hlast⟩
      rw [hlast] at hq
      cases hq
      exact h

theorem checkElements_meets {common : TypeId} (elements : List Expr) {s : CheckState} (hs : s.Good)
    (hc : common < s.store.size) (hr : Recorded s (elements.map Expr.id)) :
    Meets (checkElements common elements) s fun _ s' =>
      Step t (fun ρ => ∀ e ∈ elements, t e.id = ρ common) s s' ∧ Silent s s' := by
  induction elements generalizing s with
  | nil => exact ⟨(Step.refl hs).imp (by simp) (by simp), Silent.refl s⟩
  | cons e rest ih =>
    obtain ⟨actual, hactual⟩ := hr e.id (by simp)
    have hk : Known t s actual (t e.id) := .of_recorded hs hactual
    unfold checkElements
    refine meets_recorded hactual ?_
    rw [meets_bind]
    refine (unify_meets (t := t) _ hs hk.lt_size hc).imp ?_
    rintro - s₁ ⟨h₁, hsil₁, -⟩
    refine (ih h₁.good (Nat.lt_of_lt_of_le hc h₁.size_le)
      (hsil₁.recorded fun id hid => hr id (by simp_all))).imp ?_
    rintro - s₂ ⟨h₂, hsil₂⟩
    have h₁₂ := h₁.and h₂ fun ρ ρ' hag _ h e he => by rw [h e he, hag common hc]
    refine ⟨h₁₂.imp ?_ ?_, hsil₁.trans hsil₂⟩
    · rintro ρ hρ ⟨h, h'⟩
      rw [hk.value (h₁₂.fits hρ)] at h
      exact List.forall_mem_cons.mpr ⟨h, h'⟩
    · intro ρ hρ h
      rw [hk.value hρ]
      exact List.forall_mem_cons.mp h

/-- The elements of an array literal against the element type: all have one value that it allows. -/
theorem annotatedElements_meets {α : Type} (element : TypeExpr) (elements : List Expr)
    {k : Check α} {Q : α → CheckState → Prop} (hs : s.Good)
    (hr : Recorded s (elements.map Expr.id))
    (hk : ∀ s', Step t (fun _ => ∃ v, element.Allows v ∧ ∀ e ∈ elements, t e.id = v) s s' →
      Silent s s' → Meets k s' Q) :
    Meets (do let common ← translate element; checkElements common elements; k) s Q := by
  rw [meets_bind]
  refine (translate_meets (t := t) element hs).imp fun common s₁ h₁ => ?_
  rw [meets_bind]
  refine (checkElements_meets (t := t) elements h₁.step.good h₁.lt_size (h₁.silent.recorded hr)).imp ?_
  rintro - s₂ ⟨h₂, hsil₂⟩
  refine hk s₂ ((h₁.step.seq h₂).imp ?_ ?_) (h₁.silent.trans hsil₂)
  · rintro - - ⟨-, ρ, -, hρ, h⟩
    exact ⟨ρ common, h₁.value hρ, h⟩
  · rintro ρ hρ ⟨v, hallows, h⟩
    obtain ⟨ρ₁, hag, hv, hρ₁⟩ := h₁.extend hρ v hallows
    exact ⟨trivial, ρ₁, hag, hρ₁, fun e he => (h e he).trans hv.symm⟩

end ArrowCheck
