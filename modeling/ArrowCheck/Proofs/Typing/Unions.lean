import ArrowCheck.Proofs.Typing.Ranges

namespace ArrowCheck

open TypeStore Check

/-- The class of `a` may have got a new member; of all types that were there, every other one is as it
was. -/
structure Widened (s : TypeStore) (a : TypeId) (s' : TypeStore) : Prop where
  classes : ∀ x < s.size, ∀ y < s.size, s'.find x = s'.find y ↔ s.find x = s.find y
  others : ∀ x < s.size, s.find x ≠ s.find a → s'.find x = s.find x ∧ s'.content x = s.content x

theorem widened_of_merged {s s₁ s' : TypeStore} {a b : TypeId} (huntouched : Untouched s s₁)
    (hs : s.Rooted) (ha : a < s.size) (hnew : s.size ≤ b) (hself : s₁.find b = b)
    (hmerged : Merged s₁ a b s') : Widened s a s' := by
  -- what was there does not lead to the new type
  have hapart : ∀ x < s.size, s₁.find x = s.find x ∧ s₁.find x ≠ s₁.find b := by
    intro x hx
    have hfind := huntouched.find_eq hx
    refine ⟨hfind, ?_⟩
    rw [hfind, hself]
    exact Nat.ne_of_lt (Nat.lt_of_lt_of_le (hs.root_find hx).lt_size hnew)
  refine ⟨fun x hx y hy => ?_, fun x hx hne => ?_⟩
  · obtain ⟨hfindx, hnex⟩ := hapart x hx
    obtain ⟨hfindy, hney⟩ := hapart y hy
    rw [hmerged.together, ← hfindx, ← hfindy]
    simp [hnex, hney]
  · obtain ⟨hfindx, hnex⟩ := hapart x hx
    rw [← hfindx, ← (hapart a ha).1] at hne
    obtain ⟨hfind, hcontent⟩ := hmerged.apart x hne hnex
    exact ⟨hfind.trans hfindx, hcontent.trans (huntouched.content_eq hx)⟩

/-- The type has a name, and the type that the annotation stands for has another one. -/
def NamedApart (store : TypeStore) (type : TypeId) (declared : TypeExpr) : Prop :=
  ∃ n m, store.content type = some (.concrete n) ∧
    (declared.translate store).2.content (declared.translate store).1 = some (.concrete m) ∧ n ≠ m

theorem namedApart_iff {store : TypeStore} {type : TypeId} {name : Option String}
    (hs : store.Rooted) (hname : HasName store type name) (declared : TypeExpr) :
    NamedApart store type declared ↔ differ name declared.label? ≠ none := by
  have hdeclared := (translate_added declared hs).name
  rw [Ne, differ_eq_none_iff]
  simp only [NamedApart, ← hname _, ← hdeclared _]
  push Not
  exact Iff.rfl

/-- What the annotation of a value with a union does from `s` to `s'`, with the given operations: it is
reported at the place that no member can be what the value is, or the value becomes one with the type
that the first other member stands for. -/
structure UnionChecked (s : CheckState) (place : Place) (init : TypeId) (members : List TypeExpr)
    (ops : List (CheckState × CheckOp)) (s' : CheckState) : Prop where
  noMatch : (∀ member ∈ members, NamedApart s.store init member) →
    s'.diagnostics = s.diagnostics ++ [.ofPlace .unionNoMatch place] ∧
      ∀ x < s.store.size, s'.store.find x = s.store.find x ∧ s'.store.content x = s.store.content x
  firstMatch : (∃ member ∈ members, ¬ NamedApart s.store init member) →
    s'.diagnostics = s.diagnostics ∧
      ∃ front member rest, members = front ++ member :: rest ∧
        (∀ other ∈ front, NamedApart s.store init other) ∧ ¬ NamedApart s.store init member ∧
        (∃ x ∈ ops, x.2 = .annotated (some member) ∧
          s'.store.find init = s'.store.find (member.translate x.1.store).1) ∧
        Widened s.store init s'.store

theorem UnionChecked.congr {s t s' : CheckState} {place : Place} {init : TypeId}
    {members : List TypeExpr} {ops ops' : List (CheckState × CheckOp)}
    (h : UnionChecked s place init members ops s') (hstore : t.store = s.store)
    (hreported : t.diagnostics = s.diagnostics) (hops : ops ⊆ ops') :
    UnionChecked t place init members ops' s' := by
  refine ⟨?_, ?_⟩ <;> rw [hstore, hreported]
  · exact h.noMatch
  · intro hex
    obtain ⟨hsilent, front, member, rest, hmembers, hfront, hmember, ⟨x, hx, hone⟩, hwidened⟩ :=
      h.firstMatch hex
    exact ⟨hsilent, front, member, rest, hmembers, hfront, hmember, ⟨x, hops hx, hone⟩, hwidened⟩

theorem declaredUnion_traces (o : CheckOptions) (place : Place) (value : Expr) {init : TypeId}
    (members : List TypeExpr) (span : Span) {s : CheckState} (hs : s.store.Rooted)
    (hinit : init < s.store.size) :
    (checkDeclaredPlan o place value init (.union members span)).Traces s fun _ s' ops =>
      UnionChecked s place init members ops s' := by
  apply (name_traces hs hinit).next
  rintro name - ops₁ ⟨hname, store₁, rfl, hsame⟩
  have huntouched₁ := hsame.untouched hs
  have hinit₁ : init < store₁.size := hsame.size_eq.symm ▸ hinit
  have hapart := namedApart_iff hs hname
  apply (chooseMember_traces name members huntouched₁.rooted).next
  rintro chosen - ops₂ ⟨store₂, rfl, huntouched₂, hchosen⟩
  have huntouched := huntouched₁.trans huntouched₂
  cases hchosen with
  | apart hall =>
    refine ⟨fun _ => ⟨rfl, fun x hx => ⟨huntouched.find_eq hx, huntouched.content_eq hx⟩⟩, ?_⟩
    rintro ⟨member, hmember, hnot⟩
    exact absurd ((hapart member).mpr (hall member hmember)) hnot
  | @first front rest member type hmembers hfront hmember hadded hop =>
    have hnot : ¬ NamedApart s.store init member := fun h => (hapart member).mp h hmember
    have hlt := Nat.lt_of_lt_of_le hinit huntouched.size_le
    have hinitName := hname.congr (huntouched.content_eq hinit)
    have hok := unify_ok huntouched.rooted hlt hadded.lt_size hinitName hadded.name hmember
    have hmerged := merged_of_unify huntouched.rooted hlt hadded.lt_size hok
    refine (tie_traces place hok).imp ?_
    rintro _ s' ops₃ ⟨rfl, -⟩
    refine ⟨fun hall => absurd (hall member (by simp [hmembers])) hnot, fun _ => ⟨rfl, ?_⟩⟩
    refine ⟨front, member, rest, hmembers, fun other hother => (hapart other).mpr (hfront other hother),
      hnot, ?_, ?_⟩
    · obtain ⟨x, hx, hannotated, rfl⟩ := hop
      refine ⟨x, ?_, hannotated, hmerged.find_eq⟩
      exact List.mem_append_right _ (List.mem_append_left _ hx)
    · exact widened_of_merged huntouched hs hinit (huntouched₁.size_le.trans hadded.new) hadded.self
        hmerged

/-- From any state that holds types of its store only, a declaration with a union first visits its value.
Behind that, either the value has a name and all members stand for types with other names: then that is
reported, once, and types that were there are bound to what they were bound to. Or nothing is reported,
and the value and the first member that may be its type are one. -/
theorem union_takes_first_member (o : CheckOptions) {s : CheckState} (hs : s.Closed) (node : Node)
    (name : Ident) (members : List TypeExpr) (span : Span) (value : Expr) :
    let statement := Stmt.const node name (some (.union members span)) value
    let init := ((value.check o).run s).1
    let visited := ((value.check o).run s).2
    init < visited.store.size ∧ TypeFault.unionNoMatch.code = "E_UNION_NO_MATCH" ∧
      ∃ own, (statement.plan o).history s = (value.plan o).history s ++ own ∧
        UnionChecked visited ⟨node, "ConstDeclaration"⟩ init members own
          ((statement.check o).run s).2 := by
  intro statement init visited
  obtain ⟨hkeeps, hinit, -⟩ := (value.safe o id (List.Subset.refl _)).traces hs
  have hvisited : visited.Closed := hkeeps.closed
  refine ⟨hinit, rfl, _, const_history o node name (.union members span) value s, ?_⟩
  have hchecked := declaredUnion_traces o ⟨node, "ConstDeclaration"⟩ value members span
    (s := visited.bindName name init) hvisited.rooted hinit
  exact UnionChecked.congr hchecked rfl rfl (List.subset_append_right _ _)

/-- A string is declared to be a number, a shape or a string. The number is passed, and the shape, which
is not known by another name, is taken. -/
theorem string_taken_for_shape :
    let at_ : NodeId → Node := fun id => ⟨id, default⟩
    let number := TypeExpr.named "number" default
    let shape := TypeExpr.object [⟨"x", .named "string" default, default⟩] default
    let members := [number, shape, .named "string" default]
    let value := Expr.string (at_ 0) "a"
    let statement := Stmt.const (at_ 1) ⟨at_ 2, "a"⟩ (some (.union members default)) value
    let init := ((value.check {}).run {}).1
    let s := ((value.check {}).run {}).2
    let s' := ((statement.check {}).run {}).2
    CheckState.Closed {} ∧ NamedApart s.store init number ∧ ¬ NamedApart s.store init shape ∧
      s'.diagnostics = s.diagnostics ∧ Widened s.store init s'.store ∧
        s'.store.find init = s'.store.find 3 := by
  intro at_ number shape members value statement init s s'
  obtain ⟨-, -, own, -, (hchecked : UnionChecked s ⟨at_ 1, "ConstDeclaration"⟩ init members own s')⟩ :=
    union_takes_first_member {} closed_initial (at_ 1) ⟨at_ 2, "a"⟩ members default value
  have hrooted : s.store.Rooted := rooted_push rooted_empty (by simp)
  have hstring : HasName s.store init (some "String") := hasName_push (by simp) (by simp)
  have hnumber : NamedApart s.store init number := (namedApart_iff hrooted hstring number).mpr (by decide)
  have hshape : ¬ NamedApart s.store init shape :=
    fun h => (namedApart_iff hrooted hstring shape).mp h (by decide)
  obtain ⟨hsilent, -, -, -, -, -, -, -, hwidened⟩ :=
    hchecked.firstMatch ⟨shape, by simp [members], hshape⟩
  exact ⟨closed_initial, hnumber, hshape, hsilent, hwidened, by decide +kernel⟩

end ArrowCheck
