import ArrowCheck.Proofs.Typing.Principal
import ArrowCheck.Proofs.Typing.Ranges

namespace ArrowCheck

open TypeStore Check

variable {s : CheckState} {type : TypeId}

theorem visitAll_keeps (o : CheckOptions) (ss : List Stmt) (hs : s.Closed) :
    Meets (visitAll o ss) s fun _ s' => Keeps (stmtIds ss) s s' :=
  ((visitAll_safe o id ss (List.Subset.refl _)).traces hs).1

theorem visitAll_append (o : CheckOptions) (ss ss' : List Stmt) (s : CheckState) :
    ((visitAll o (ss ++ ss')).run s).2 = ((visitAll o ss').run ((visitAll o ss).run s).2).2 := by
  induction ss generalizing s with
  | nil => rfl
  | cons st rest ih => exact ih _

theorem lastState_keeps (o : CheckOptions) (p : Program) : Keeps p.labelIds {} (lastState o p) :=
  visitAll_keeps o p.statements closed_initial

theorem lastState_append_keeps (o : CheckOptions) (p : Program) (q : List Stmt) (span : Span) :
    Keeps (stmtIds q) (lastState o p) (lastState o ⟨p.statements ++ q, span⟩) := by
  have hq := visitAll_keeps o q (lastState_keeps o p).closed
  rwa [Meets, lastState, ← visitAll_append] at hq

theorem mem_labelIds_of_recorded {o : CheckOptions} {p : Program} {n : NodeId}
    (h : (lastState o p).nodeTypes.get? n = some type) : n ∈ p.labelIds := by
  by_contra hn
  rw [(lastState_keeps o p).frame n hn] at h
  cases h

/-- Statements behind a program add to what is reported for it. If their nodes are others than those of
the program, its nodes keep their types, the names of the types, and their classes. -/
theorem results_kept_by_append (o : CheckOptions) (p : Program) (q : List Stmt) (span : Span) :
    let r := checkProgram o p
    let r' := checkProgram o ⟨p.statements ++ q, span⟩
    r.diagnostics <+: r'.diagnostics ∧
      ((∀ id ∈ p.labelIds, id ∉ stmtIds q) →
        (∀ n type, r.nodeTypes.get? n = some type →
          r'.nodeTypes.get? n = some type ∧
            ∀ X, (r.store.concreteName type).1 = some X →
              (r'.store.concreteName type).1 = some X) ∧
        ∀ m n a b, r.nodeTypes.get? m = some a → r.nodeTypes.get? n = some b →
          r.store.find a = r.store.find b → r'.store.find a = r'.store.find b) := by
  intro r r'
  have hs : (lastState o p).Closed := (lastState_keeps o p).closed
  have h := lastState_append_keeps o p q span
  refine ⟨h.reported, fun hdisjoint => ⟨?_, ?_⟩⟩
  · intro n type htype
    have hlt : type < (lastState o p).store.size := hs.nodes.get? htype
    have hlt' := Nat.lt_of_lt_of_le hlt h.grows.size_le
    refine ⟨?_, fun X hX => ?_⟩
    · exact (h.frame n (hdisjoint n (mem_labelIds_of_recorded htype))).trans htype
    · exact (concreteName_eq_some h.grows.rooted hlt').mpr
        (h.grows.name_eq hlt ((concreteName_eq_some hs.rooted hlt).mp hX))
  · intro m n a b ha hb hab
    exact h.grows.find_eq (hs.nodes.get? ha) (hs.nodes.get? hb) hab

/-- A program with a mismatch, and statements that give a free name of it a type and are faulty too:
the mismatch stays, the sum stays a number, and the names that were compared stay in one class. -/
theorem mismatch_kept_by_append :
    let at_ : NodeId → Node := fun id => ⟨id, default⟩
    let p : Program := ⟨[.const (at_ 0) ⟨at_ 1, "a"⟩ none (.ident (at_ 2) "u"),
      .const (at_ 3) ⟨at_ 4, "c"⟩ none
        (.binary (at_ 5) .sub (.ident (at_ 6) "a") (.ident (at_ 7) "w")),
      .const (at_ 8) ⟨at_ 9, "b"⟩ none
        (.binary (at_ 10) .add (.string (at_ 11) "x") (.boolean (at_ 12) true))], default⟩
    let q : List Stmt := [.const (at_ 13) ⟨at_ 14, "d"⟩ none
        (.binary (at_ 15) .mul (.ident (at_ 16) "a") (.ident (at_ 17) "v")),
      .const (at_ 18) ⟨at_ 19, "e"⟩ none
        (.binary (at_ 20) .add (.ident (at_ 21) "w") (.string (at_ 22) "y"))]
    let r := checkProgram {} p
    let r' := checkProgram {} ⟨p.statements ++ q, default⟩
    (∀ id ∈ p.labelIds, id ∉ stmtIds q) ∧ r.diagnostics.length = 1 ∧
      r.diagnostics <+: r'.diagnostics ∧ r'.nodeTypes.get? 9 = some 4 ∧
        (r'.store.concreteName 4).1 = some "Number" ∧ r'.store.find 0 = r'.store.find 1 := by
  intro at_ p q r r'
  have hdisjoint : ∀ id ∈ p.labelIds, id ∉ stmtIds q := by decide
  obtain ⟨hreported, hkept⟩ := results_kept_by_append {} p q default
  obtain ⟨hnames, hclasses⟩ := hkept hdisjoint
  have hsum : r.nodeTypes.get? 9 = some 4 := by decide +kernel
  have hnumber : (r.store.concreteName 4).1 = some "Number" := by decide +kernel
  obtain ⟨hsum', hnumber'⟩ := hnames 9 4 hsum
  have hone : r.store.find 0 = r.store.find 1 := by decide +kernel
  have hone' := hclasses 6 7 0 1 (by decide +kernel) (by decide +kernel) hone
  exact ⟨hdisjoint, by decide +kernel, hreported, hsum', hnumber' "Number" hnumber, hone'⟩

end ArrowCheck
