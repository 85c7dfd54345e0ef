import ArrowCheck.Parse.Program
import ArrowCheck.Proofs.Grammar.Building

namespace ArrowCheck

open Shape

@[simp]
theorem TypeExpr.span_shape (t : TypeExpr) : t.shape.span = t.span := by cases t <;> rfl

theorem typeShapes_append (ts us : List TypeExpr) :
    typeShapes (ts ++ us) = typeShapes ts ++ typeShapes us := by
  induction ts with
  | nil => rfl
  | cons t rest ih => rw [List.cons_append, typeShapes, typeShapes, ih, List.cons_append]

theorem TypeExpr.idsOf_alternatives (t : TypeExpr) : idsOf (typeShapes t.alternatives) = t.shape.ids := by
  cases t with
  | union members span => rw [alternatives, TypeExpr.shape, Shape.ids, Option.toList_none, List.append_nil]
  | _ => exact List.append_nil _

variable {ts : List Token} {c c₀ : Cursor} {bound : Nat}

theorem TypeExpr.placed_alternatives {t : TypeExpr} (h : t.shape.Fits ts) :
    Placed ts t.span.start t.span.stop (typeShapes t.alternatives) := by
  cases t with
  | union members span => exact (fits_node.mp h).2
  | _ => exact Placed.cons_iff.mpr ⟨Nat.le_refl _, h, .nil (Nat.le_refl _)⟩

theorem Built.join {t u : TypeExpr} (h : Built ts c₀ c [t.shape, u.shape]) :
    Built ts c₀ c [(t.join u).shape] := by
  have hpair : Placed ts c₀.last.stop c.last.stop (t.shape :: [] ++ [u.shape]) := h.placed
  obtain ⟨hlast, hle⟩ := hpair.to_last
  obtain ⟨ht, hu, -⟩ := List.forall_mem_cons.mp h.placed.fits |>.imp id List.forall_mem_cons.mp
  obtain ⟨-, -, hrest⟩ := Placed.cons_iff.mp h.placed
  obtain ⟨hapart, -, -⟩ := Placed.cons_iff.mp hrest
  have hmerge := hpair.merge_eq
  rw [t.span_shape, u.span_shape] at hmerge
  have hparts := ((t.placed_alternatives ht).extend (by simpa using hapart)).append
    (u.placed_alternatives hu)
  rw [← typeShapes_append] at hparts
  rw [TypeExpr.join, TypeExpr.shape, hmerge]
  rw [← t.span_shape, ← u.span_shape] at hparts ⊢
  refine h.replace (hlast.enclose hle hu.onTokens.stop hparts) ?_
  simp [idsOf, Shape.ids, typeShapes_append, TypeExpr.idsOf_alternatives]

theorem Built.param {start : Span} {type : Option TypeExpr}
    (h : Built ts c₀ c (leaf start :: optionalShape type)) :
    Built ts c₀ c [.node none ((type.map fun t => start.merge t.span).getD start)
      (optionalShape type)] := by
  cases type with
  | none => exact h
  | some t =>
    have hparam := h.headed [] t.shape
    rwa [t.span_shape] at hparam

namespace Reader

def Extends (ts : List Token) (r : TypeExpr → Reader TypeExpr) : Prop :=
  ∀ {c₀ c : Cursor} {t : TypeExpr}, Built ts c₀ c [t.shape] →
    Meets (r t) c (Yields ts c₀ fun u => [u.shape])

theorem extends_arraySuffix (bound : Nat) : Extends ts (arraySuffix bound) := by
  induction bound with
  | zero => exact fun h => yields_pure h
  | succ bound ih =>
    intro c₀ c t h
    unfold arraySuffix
    rw [meets_get]
    split
    · rename_i opening stop rest hrest
      have hopen : c.kind? = some (.mark .bracketOpen) := by rw [Cursor.kind?, hrest]; rfl
      have hnext : c.next = { c with rest := ⟨.mark .bracketClose, stop⟩ :: rest, last := opening } := by
        rw [Cursor.next, hrest]
      have hclose : c.next.kind? = some (.mark .bracketClose) := by rw [hnext]; rfl
      have hstop : c.next.here = stop := by rw [hnext]; rfl
      have h₂ := (h.advance hopen).advance hclose
      rw [hstop] at h₂
      have harray := h₂.merge t.shape [leaf c.here] (leaf stop) [t.shape]
        (by simp) (by simp [idsOf, leaf, Shape.ids])
      rw [t.span_shape] at harray
      exact ih harray
    · exact yields_pure h

theorem extends_arraySuffixes : Extends ts arraySuffixes :=
  fun h => extends_arraySuffix _ h

structure TypeBuilders (ts : List Token) (bound : Nat) : Prop where
  type : Builds ts (typeWithin bound) fun t => [t.shape]
  union : Extends ts (unionWithin bound)
  base : Builds ts (baseWithin bound) fun t => [t.shape]
  fields : ∀ close what, Builds ts (fieldsWithin bound close what) fieldShapes

namespace TypeBuilders

theorem member (h : TypeBuilders ts bound) {xs : List Shape} {β : Type} {f : TypeExpr → Reader β}
    {view : β → List Shape} (h₀ : Built ts c₀ c xs)
    (hf : ∀ t c', Built ts c₀ c' (xs ++ [t.shape]) → Meets (f t) c' (Yields ts c₀ view)) :
    Meets (do let first ← baseWithin bound; let t ← arraySuffixes first; f t) c (Yields ts c₀ view) := by
  have hmember : Builds ts (do let first ← baseWithin bound; arraySuffixes first) fun t => [t.shape] := by
    intro c hc
    exact yields_bind (.start hc) h.base fun first c₁ h₁ => extends_arraySuffixes h₁
  have hbind := yields_bind h₀ hmember hf
  rwa [bind_assoc] at hbind

theorem type_succ (h : TypeBuilders ts bound) : Builds ts (typeWithin (bound + 1)) fun t => [t.shape] :=
  fun hc => h.member (.start hc) fun _ _ h₁ => h.union h₁

theorem union_succ (h : TypeBuilders ts bound) : Extends ts (unionWithin (bound + 1)) := by
  intro c₀ c t h₀
  unfold unionWithin
  apply yields_bind h₀ (builds_eat _)
  intro eaten c₁ h₁
  cases eaten with
  | false => exact yields_pure h₁
  | true => exact h.member h₁ fun u c₂ h₂ => h.union h₂.join

theorem function_builds (h : TypeBuilders ts bound) {start : Span} (h₀ : Built ts c₀ c [leaf start]) :
    Meets (do
      let params ← fieldsWithin bound .parenClose "parameter name"
      let _ ← expect (.mark .parenClose)
      let _ ← expect (.mark .arrow)
      let result ← typeWithin bound
      return TypeExpr.function params result (start.merge result.span)) c
        (Yields ts c₀ fun t => [t.shape]) := by
  apply yields_bind h₀ (h.fields _ _)
  intro params c₁ h₁
  apply yields_bind h₁ (builds_expect _)
  intro _ c₂ h₂
  apply yields_bind h₂.drop (builds_expect _)
  intro _ c₃ h₃
  apply yields_bind h₃.drop h.type
  intro result c₄ h₄
  have hnode := h₄.headed (fieldShapes params) result.shape
  rw [result.span_shape] at hnode
  exact yields_pure hnode

theorem object_builds (h : TypeBuilders ts bound) {start : Span} (h₀ : Built ts c₀ c [leaf start]) :
    Meets (do
      let fields ← fieldsWithin bound .braceClose "field name"
      let stop ← expect (.mark .braceClose)
      return TypeExpr.object fields (start.merge stop)) c (Yields ts c₀ fun t => [t.shape]) := by
  apply yields_bind h₀ (h.fields _ _)
  intro fields c₁ h₁
  apply yields_bind h₁ (builds_expect _)
  intro stop c₂ h₂
  exact yields_pure h₂.brackets

theorem array_builds (h : TypeBuilders ts bound) {start : Span} (h₀ : Built ts c₀ c [leaf start]) :
    Meets (do
      if ← eat (.mark .less) then
        let element ← typeWithin bound
        let stop ← expect (.mark .greater)
        return TypeExpr.array element (start.merge stop)
      else
        return .named TypeWord.array.text start) c (Yields ts c₀ fun t => [t.shape]) := by
  apply yields_bind h₀ (builds_eat _)
  intro eaten c₁ h₁
  cases eaten with
  | false => exact yields_pure h₁
  | true =>
    apply yields_bind h₁ h.type
    intro element c₂ h₂
    apply yields_bind h₂ (builds_expect _)
    intro stop c₃ h₃
    exact yields_pure h₃.brackets

theorem base_succ (h : TypeBuilders ts bound) : Builds ts (baseWithin (bound + 1)) fun t => [t.shape] := by
  intro c hc
  have h₀ := Built.start hc
  unfold baseWithin
  rw [meets_here, meets_kind?]
  split
  · rename_i hk
    exact yields_advance h₀ hk fun c₁ h₁ => h.array_builds h₁
  · rename_i hk
    exact yields_advance h₀ hk fun c₁ h₁ => yields_pure h₁
  · rename_i name hk
    by_cases hany : (name == "any") = true
    · rw [if_pos hany]
      exact yields_throw h₀ _
    · rw [if_neg hany]
      exact yields_advance h₀ hk fun c₁ h₁ => yields_pure h₁
  · rename_i hk
    exact yields_advance h₀ hk fun c₁ h₁ => h.function_builds h₁
  · rename_i hk
    exact yields_advance h₀ hk fun c₁ h₁ => h.object_builds h₁
  · exact yields_unexpected h₀ _

theorem fields_succ (h : TypeBuilders ts bound) (close : Mark) (what : String) :
    Builds ts (fieldsWithin (bound + 1) close what) fieldShapes := by
  intro c hc
  have h₀ := Built.start hc
  unfold fieldsWithin
  rw [meets_atEnd, meets_sees]
  split
  · exact yields_pure h₀
  · apply yields_bind h₀ (builds_expectIdent what)
    rintro ⟨name, start⟩ c₁ h₁
    apply yields_bind h₁ (builds_expect _)
    intro _ c₂ h₂
    apply yields_bind h₂.drop h.type
    intro type c₃ h₃
    have hfield := h₃.headed [] type.shape
    rw [type.span_shape] at hfield
    apply yields_bind hfield (builds_eat _)
    intro eaten c₄ h₄
    cases eaten with
    | false => exact yields_pure h₄
    | true => exact yields_bind h₄ (h.fields close what) fun rest c₅ h₅ => yields_pure h₅

end TypeBuilders

theorem typeBuilders (bound : Nat) : TypeBuilders ts bound := by
  induction bound with
  | zero =>
    exact
      { type := fun hc => yields_unexpected (.start hc) _
        union := fun h => yields_pure h
        base := fun hc => yields_unexpected (.start hc) _
        fields := fun _ _ _ hc => yields_unexpected (.start hc) _ }
  | succ bound ih =>
    exact
      { type := ih.type_succ
        union := ih.union_succ
        base := ih.base_succ
        fields := ih.fields_succ }

theorem builds_typeExpr : Builds ts typeExpr fun t => [t.shape] :=
  fun hc => (typeBuilders _).type hc

theorem builds_optionalType : Builds ts optionalType optionalShape := by
  intro c hc
  apply yields_bind (.start hc) (builds_eat _)
  intro eaten c₁ h₁
  cases eaten with
  | false => exact yields_pure h₁
  | true => exact yields_bind h₁ builds_typeExpr fun t c₂ h₂ => yields_pure h₂

theorem builds_paramsWithin (bound : Nat) :
    Builds ts (paramsWithin bound) fun ps => ps.map Param.shape := by
  induction bound with
  | zero => exact fun hc => yields_unexpected (.start hc) _
  | succ bound ih =>
    intro c hc
    apply yields_bind (.start hc) (builds_expectIdent _)
    rintro ⟨name, start⟩ c₁ h₁
    apply yields_bind h₁ builds_optionalType
    intro type c₂ h₂
    apply yields_number [] h₂.param
    intro id c₃ h₃
    apply yields_bind h₃ (builds_eat _)
    intro eaten c₄ h₄
    cases eaten with
    | false => exact yields_pure h₄
    | true => exact yields_bind h₄ ih fun rest c₅ h₅ => yields_pure h₅

theorem builds_signature :
    Builds ts signature fun sig => sig.1.map Param.shape ++ optionalShape sig.2 := by
  intro c hc
  -- what is left to do once the parameters have been read
  have hrest : ∀ (ps : List Param) (c' : Cursor), Built ts c c' (ps.map Param.shape) → Meets (do
      let _ ← expect (.mark .parenClose)
      let result ← optionalType
      let _ ← expect (.mark .arrow)
      if ← sees (.mark .braceOpen) then return (ps, result)
      else throw (.expressionBody (← here))) c'
        (Yields ts c fun sig => sig.1.map Param.shape ++ optionalShape sig.2) := by
    intro ps c' h'
    apply yields_bind h' (builds_expect _)
    intro _ c₁ h₁
    apply yields_bind h₁.drop builds_optionalType
    intro result c₂ h₂
    apply yields_bind h₂ (builds_expect _)
    intro _ c₃ h₃
    rw [meets_sees]
    split
    · exact yields_pure h₃.drop
    · exact yields_throw h₃ _
  have h₀ := Built.start hc
  unfold signature
  rw [meets_sees]
  split
  · exact hrest [] c h₀
  · rw [meets_get]
    exact yields_bind h₀ (builds_paramsWithin _) fun ps c₁ h₁ => hrest ps c₁ h₁

end Reader

end ArrowCheck
