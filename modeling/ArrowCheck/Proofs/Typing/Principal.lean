import ArrowCheck.Proofs.Store.Classes
import ArrowCheck.Proofs.Typing.Decision

namespace ArrowCheck

open TypeStore Check

variable {o : CheckOptions} {p : Program}

theorem ready_initial {ids : List NodeId} (hids : ids.Nodup) : Ready (fun _ => none) ids {} :=
  ⟨good_initial, ⟨fun h => (by cases h), fun _ => rfl⟩, hids, fun _ _ => rfl⟩

def lastState (o : CheckOptions) (p : Program) : CheckState := ((visitAll o p.statements).run {}).2

theorem lastState_extends (hids : p.labelIds.Nodup)
    (hunion : p.Every (fun _ => True) fun st => ¬ st.DeclaresUnion) (t : Labelling) :
    ∃ env, Extends t (p.Every Expr.IsProper Stmt.HasFields ∧ p.Labelled o t) p.labelIds env {}
      (lastState o p) :=
  visitAll_extends (stmts_check o t p.statements hunion) (ready_initial hids)

/-- Every labelling of a program without faults comes from a model of the last store. -/
theorem exists_fits (hids : p.labelIds.Nodup)
    (hunion : p.Every (fun _ => True) fun st => ¬ st.DeclaresUnion)
    (hproper : p.Every Expr.IsProper Stmt.HasFields) {t : Labelling} (ht : p.Labelled o t) :
    ∃ ρ, Fits ρ t (lastState o p) := by
  obtain ⟨env, h⟩ := lastState_extends (o := o) hids hunion t
  obtain ⟨-, ρ, -, hρ⟩ := h.step.complete (fits_initial (fun _ => "") t) ⟨hproper, ht⟩
  exact ⟨ρ, hρ⟩

theorem labelled_of_models (hids : p.labelIds.Nodup)
    (hunion : p.Every (fun _ => True) fun st => ¬ st.DeclaresUnion)
    (hok : (lastState o p).diagnostics = []) {ρ : TypeId → String}
    (hρ : Models ρ (lastState o p).store) :
    p.Every Expr.IsProper Stmt.HasFields ∧ p.Labelled o ((lastState o p).labelling ρ) := by
  obtain ⟨env, h⟩ := lastState_extends (o := o) hids hunion ((lastState o p).labelling ρ)
  exact h.step.sound hok (fits_labelling hρ)

/-- In a program without faults a node's type resolves to a name exactly if the program forces that
name on the node. -/
theorem resolves_iff_forced (o : CheckOptions) (p : Program) (hids : p.labelIds.Nodup)
    (hunion : p.Every (fun _ => True) fun st => ¬ st.DeclaresUnion)
    (hok : (checkProgram o p).diagnostics = []) (n : NodeId) (hn : n ∈ p.labelIds) :
    ∃ type, (checkProgram o p).nodeTypes.get? n = some type ∧
      ∀ X, ((checkProgram o p).store.concreteName type).1 = some X ↔
        ∀ t, p.Labelled o t → t n = X := by
  obtain ⟨env, h⟩ := lastState_extends (o := o) hids hunion fun _ => ""
  have hs : (lastState o p).Good := h.step.good
  obtain ⟨type, htype⟩ := h.recorded n hn
  refine ⟨type, htype, fun X => ?_⟩
  have hname : ((lastState o p).store.concreteName type).1 = some X ↔
      ∀ ρ, Models ρ (lastState o p).store → ρ type = X :=
    (concreteName_eq_some hs.rooted (hs.range htype)).trans
      (content_eq_concrete_iff hs.rooted (hs.range htype))
  obtain ⟨ρ₀, hρ₀⟩ := hs.rooted.exists_models
  have hproper := (labelled_of_models hids hunion hok hρ₀).1
  refine hname.trans ⟨fun hall t ht => ?_, fun hall ρ hρ => ?_⟩
  · obtain ⟨ρ, hρ⟩ := exists_fits hids hunion hproper ht
    rw [hρ.label htype]
    exact hall ρ hρ.models
  · have hlabel := hall _ (labelled_of_models hids hunion hok hρ).2
    rwa [CheckState.labelling, htype] at hlabel

/-- A name that is declared as a free name gets its type from a function that uses it later. -/
theorem captured_name_forced :
    let at_ : NodeId → Node := fun id => ⟨id, default⟩
    let p : Program := ⟨[.const (at_ 0) ⟨at_ 1, "v"⟩ none (.ident (at_ 2) "u"),
      .const (at_ 3) ⟨at_ 4, "g"⟩ none (.arrow (at_ 5) [] none ⟨at_ 6, [.ret (at_ 7) (some
        (.binary (at_ 8) .add (.ident (at_ 9) "v") (.string (at_ 10) "a")))]⟩)], default⟩
    p.labelIds.Nodup ∧ (p.Every (fun _ => True) fun st => ¬ st.DeclaresUnion) ∧
      (checkProgram {} p).diagnostics = [] ∧ 1 ∈ p.labelIds ∧
        ∀ t, p.Labelled {} t → t 1 = "String" := by
  intro at_ p
  have hids : p.labelIds.Nodup := by decide
  have hunion : p.Every (fun _ => True) fun st => ¬ st.DeclaresUnion := by
    simp [p, Program.Every, everyStmt, Stmt.Every, Expr.Every, Block.Every, Stmt.DeclaresUnion]
  have hok : (checkProgram {} p).diagnostics = [] := by decide +kernel
  have hn : 1 ∈ p.labelIds := by decide
  refine ⟨hids, hunion, hok, hn, ?_⟩
  obtain ⟨type, htype, hforced⟩ := resolves_iff_forced {} p hids hunion hok 1 hn
  have hget : (checkProgram {} p).nodeTypes.get? 1 = some 0 := by decide +kernel
  rw [hget] at htype
  cases htype
  have hname : ((checkProgram {} p).store.concreteName 0).1 = some "String" := by decide +kernel
  exact (hforced "String").mp hname

end ArrowCheck
