import ArrowCheck.Proofs.Typing.Safety

namespace ArrowCheck

namespace Text

theorem isLower_expansion {code : Nat} {codes : List Nat}
    (h : upperExpansions.lookup code = some codes) :
    ∃ d ds, codes = d :: ds ∧ (Char.ofNat d).isLower = false := by
  have hall : ∀ e ∈ upperExpansions, ∃ d ∈ e.2.head?, (Char.ofNat d).isLower = false := by
    decide +kernel
  obtain ⟨front, rest, hmem, -⟩ := List.lookup_eq_some_iff.mp h
  obtain ⟨d, hd, hlower⟩ := hall (code, codes) (by simp [hmem])
  obtain ⟨ds, hds⟩ := List.head?_eq_some_iff.mp hd
  exact ⟨d, ds, hds, hlower⟩

theorem isLower_image {code image : Nat} (h : upperRuns.findSome? (·.image? code) = some image) :
    (Char.ofNat image).isLower = false := by
  have hall : ∀ r ∈ upperRuns, ∀ i ≤ r.last - r.first,
      (Char.ofNat (i + r.image)).isLower = false := by decide +kernel
  obtain ⟨r, hr, himage⟩ := List.exists_of_findSome?_eq_some h
  unfold CaseRun.image? at himage
  split at himage
  · rename_i hrange
    cases himage
    exact hall r hr _ (Nat.sub_le_sub_right hrange.2.1 _)
  · cases himage

theorem uppercase_head (c : Char) : ∃ d ds, uppercase c = d :: ds ∧ d.isLower = false := by
  unfold uppercase
  by_cases hascii : c.toNat < 0x80
  · have hall : ∀ n < 0x80, (Char.ofNat n).toUpper.isLower = false := by decide +kernel
    rw [if_pos hascii]
    exact ⟨_, [], rfl, Char.ofNat_toNat c ▸ hall _ hascii⟩
  · rw [if_neg hascii]
    split
    · rename_i codes hcodes
      obtain ⟨d, ds, rfl, hlower⟩ := isLower_expansion hcodes
      exact ⟨_, _, List.map_cons, hlower⟩
    · split
      · rename_i image himage
        exact ⟨_, [], rfl, isLower_image himage⟩
      · have hbehind : ¬ c.val ≤ 'z'.val := fun h =>
          hascii (Nat.lt_of_le_of_lt (UInt32.le_iff_toNat_le.mp h) (by decide))
        exact ⟨c, [], rfl, Bool.and_eq_false_iff.mpr (.inr (decide_eq_false hbehind))⟩

end Text

/-- No annotation stands for a type with the name that is shown for a type without one. -/
theorem canonicalName_ne_unknown (name : String) : canonicalName name ≠ "unknown" := by
  unfold canonicalName
  split
  · decide
  · decide
  · decide
  · decide
  · split
    · decide
    · rename_i c cs _
      obtain ⟨d, ds, hupper, hlower⟩ := Text.uppercase_head c
      intro h
      have hlist := congrArg String.toList h
      rw [String.toList_ofList, hupper] at hlist
      rw [(List.cons.inj hlist).1] at hlower
      revert hlower
      decide

open TypeStore Check

namespace Avoided

variable {s : CheckState} {c : Cell}

theorem unknown_unspoken {w : String} (h : w = "unknown") :
    w ∉ builtinNames ∧ ∀ name, canonicalName name ≠ w := by
  rw [h]
  exact ⟨by decide, canonicalName_ne_unknown⟩

/-- The name that is shown for a type without one, and the faults that would show it or say that types
clash behind a comparison of their names. -/
def unknown : Avoided :=
  { clashes False with
    word w := w = "unknown"
    fault f := f = .operandUnifyFailed ∨
      ∃ l r, f = .addMismatch l r ∧ (l = "unknown" ∨ r = "unknown")
    unspoken := unknown_unspoken
    unreported h := h }

theorem covers_unknown : unknown.Covers {} where
  closed := closed_initial
  store := ⟨rooted_empty, by simp [unknown, clashes], fun _ h => h, fun h => by simp at h⟩
  nodes := Table.all_empty
  returns := Table.all_empty
  scopes := fun _ h => List.mem_singleton.mp h ▸ Table.all_empty
  reports := by simp

theorem ne_link_of_hidden {a hidden : TypeId} {found : Cell} (hlink : ∀ b, c ≠ .link b)
    (h : (if a = hidden then some c else none) = some found) : ∀ b, found ≠ .link b := by
  obtain ⟨-, ⟨⟩⟩ := Option.ite_none_right_eq_some.mp h
  exact hlink

def hide (hidden : TypeId) (c : Cell) (hlink : ∀ b, c ≠ .link b) : Avoided :=
  { clashes False with
    cell a := if a = hidden then some c else none
    not_link := ne_link_of_hidden hlink }

theorem hide_of_lt {a hidden : TypeId} {hlink : ∀ b, c ≠ .link b} (h : a < hidden) :
    (hide hidden c hlink).cell a = none :=
  if_neg (Nat.ne_of_lt h)

theorem coversStore_hide {store : TypeStore} (hs : store.Rooted) (hlink : ∀ b, c ≠ .link b) :
    (hide store.size c hlink).CoversStore (store.push c).2 where
  rooted := rooted_push hs hlink
  cells {a content} h := by
    simp only [hide, Option.ite_none_right_eq_some, Option.some_inj] at h
    obtain ⟨rfl, rfl⟩ := h
    rw [cells_push, if_pos rfl]
  apart {a} ha hfree := by
    have hne : a ≠ store.size := by
      rintro rfl
      simp [hide] at hfree
    have hlt : a < store.size := by
      rw [size_push] at ha
      omega
    rw [find_push hs hlt]
    exact hide_of_lt (hs.root_find hlt).lt_size
  words _ := id

theorem covers_hide (hs : s.Closed) (hlink : ∀ b, c ≠ .link b) :
    (hide s.store.size c hlink).Covers (s.withStore (s.store.push c).2) where
  closed := hs.withStore (push_grows hs.rooted hlink)
  store := coversStore_hide hs.rooted hlink
  nodes e he := hide_of_lt (hs.nodes e he)
  returns e he := hide_of_lt (hs.returns e he)
  scopes scope hscope e he := hide_of_lt (hs.scopes scope hscope e he)
  reports _ _ := id

theorem Covers.hidden_unnamed {hidden : TypeId} {hlink : ∀ b, c ≠ .link b}
    (hs : (hide hidden c hlink).Covers s) (hc : ∀ n, c ≠ .concrete n) :
    hidden < s.store.size ∧ HasName s.store hidden none := by
  have hcell : s.store.cells[hidden]? = some c := hs.store.cells (if_pos rfl)
  have hroot : Root s.store hidden hidden := ⟨0, .root hcell hlink⟩
  refine ⟨hroot.lt_size, fun n => ?_⟩
  rw [content, hroot.find_eq, hcell]
  simp [hc]

end Avoided

def CheckOp.Succeeds (s : CheckState) : CheckOp → Prop
  | unify left right => (s.store.unify left right).1 = .ok ()
  | _ => True

namespace Plan

variable {α β γ : Type} {m : Check α} {f : α → Check β} {g : α → Check γ} {s : CheckState}

/-- A run begins like one of the parts, and none of the operations behind that fails. -/
def SucceedsBehind {m' : Check β} (parts : Plan m) (p : Plan m') (s : CheckState) : Prop :=
  ∃ own, p.history s = parts.history s ++ own ∧ ∀ x ∈ own, x.2.Succeeds x.1

theorem succeedsBehind_next {p : Plan m} {q : (a : α) → Plan (f a)} {ids : List NodeId}
    {R : β → CheckState → Prop} (hs : (m.run s).2.Closed)
    (h : (q (m.run s).1).Safe (.clashes True) ids (m.run s).2 R) :
    p.SucceedsBehind (p.next q) s := by
  refine ⟨_, rfl, ?_⟩
  rintro ⟨s', op⟩ hx
  have hclear := ((h (Avoided.covers_clashes hs)).1 _ hx).clear
  cases op with
  | unify left right => exact hclear.2 trivial
  | _ => trivial

theorem SucceedsBehind.next {p : Plan m} {q : (a : α) → Plan (f a)} {q' : (a : α) → Plan (g a)}
    (h : (q (m.run s).1).SucceedsBehind (q' (m.run s).1) (m.run s).2) :
    (p.next q).SucceedsBehind (p.next q') s := by
  obtain ⟨own, hhistory, hown⟩ := h
  refine ⟨own, ?_, hown⟩
  rw [history, history, hhistory, List.append_assoc]

end Plan

section Nodes

variable (o : CheckOptions) {s : CheckState}

theorem visit_shows (e : Expr) (hs : s.Closed) :
    Meets (e.check o) s fun type s' => s'.Closed ∧ (Avoided.clashes True).Shows s' type ∧
      ∀ {other}, (Avoided.clashes True).Shows s other → (Avoided.clashes True).Shows s' other := by
  obtain ⟨hkeeps, htype⟩ := (e.safe o id (List.Subset.refl _)).traces hs
  exact ⟨hkeeps.closed, ⟨htype.1, rfl⟩,
    fun hother => ⟨Nat.lt_of_lt_of_le hother.1 hkeeps.grows.size_le, rfl⟩⟩

theorem binary_succeeds (node : Node) (op : BinaryOp) (l r : Expr) (hs : s.Closed) :
    (Plan.next (l.plan o) fun _ => r.plan o).SucceedsBehind ((Expr.binary node op l r).plan o) s := by
  obtain ⟨hs₁, hl, -⟩ := visit_shows o l hs
  obtain ⟨hs₂, hr, h₂⟩ := visit_shows o r hs₁
  apply Plan.SucceedsBehind.next
  apply Plan.succeedsBehind_next hs₂
  apply (binaryType_safe op (h₂ hl) hr).next
  exact fun _ _ _ htype => recordType_safe (List.mem_singleton_self _) htype

theorem conditional_succeeds (node : Node) (c a b : Expr) (hs : s.Closed) :
    (Plan.next (c.plan o) fun _ => .next (a.plan o) fun _ => b.plan o).SucceedsBehind
      ((Expr.conditional node c a b).plan o) s := by
  obtain ⟨hs₁, hc, -⟩ := visit_shows o c hs
  obtain ⟨hs₂, ha, h₂⟩ := visit_shows o a hs₁
  obtain ⟨hs₃, hb, h₃⟩ := visit_shows o b hs₂
  apply Plan.SucceedsBehind.next
  apply Plan.SucceedsBehind.next
  apply Plan.succeedsBehind_next hs₃
  apply (conditionalType_safe (h₃ (h₂ hc)) (h₃ ha) hb).next
  exact fun _ _ _ htype => recordType_safe (List.mem_singleton_self _) htype

/-- The result of a call is made before the arguments are visited, and in use nowhere until then. -/
theorem call_succeeds (node : Node) (f : Expr) (args : List Expr) (hs : s.Closed) :
    (Plan.next (f.plan o) fun _ => .next (.act .fresh) fun _ => checkExprsPlan o args).SucceedsBehind
      ((Expr.call node f args).plan o) s := by
  obtain ⟨hs₁, -, -⟩ := visit_shows o f hs
  -- whatever the arguments are, they do not reach the result
  have hhidden := Avoided.covers_hide (c := .unbound) hs₁ (by simp)
  obtain ⟨hkeeps, htypes⟩ := checkExprs_safe o id args (List.Subset.refl _) hhidden
  have hs₃ := (hkeeps.covers hhidden).1
  obtain ⟨hlt, hfree⟩ := hs₃.hidden_unnamed (by simp)
  apply Plan.SucceedsBehind.next
  apply Plan.SucceedsBehind.next
  apply Plan.succeedsBehind_next hs₃.closed
  apply (callType_safe f ⟨hlt, rfl⟩ (fun arg harg => ⟨(htypes arg harg).1, rfl⟩) fun _ => hfree).next
  exact fun _ _ h₄ _ => recordType_safe (List.mem_singleton_self _) (h₄ ⟨hlt, rfl⟩)

theorem union_succeeds (node : Node) (name : Ident) (members : List TypeExpr) (span : Span)
    (value : Expr) (hs : s.Closed) :
    (value.plan o).SucceedsBehind
      ((Stmt.const node name (some (.union members span)) value).plan o) s := by
  obtain ⟨hs₁, hinit, -⟩ := visit_shows o value hs
  apply Plan.succeedsBehind_next (R := fun _ _ => True) hs₁
  apply (record_safe (List.mem_singleton_self _) hinit).next
  intro _ _ h₂ _
  apply (define_safe name.name (h₂ hinit)).next
  intro _ _ h₃ _
  apply (declaredUnion_safe members span value (h₃ (h₂ hinit))).next
  exact fun _ _ _ _ => Plan.safe_value trivial

/-- The last operation makes the type one with another that has the given name, or none; it does not
fail. -/
def EndsTied (type : TypeId) (name : Option String) (ops : List (CheckState × CheckOp)) : Prop :=
  ∃ before x other, ops = before ++ [(x, .unify type other)] ∧ HasName x.store other name ∧
    (x.store.unify type other).1 = .ok ()

theorem EndsTied.append {type : TypeId} {name : Option String} {ops : List (CheckState × CheckOp)}
    (h : EndsTied type name ops) (before : List (CheckState × CheckOp)) :
    EndsTied type name (before ++ ops) := by
  obtain ⟨before', x, other, rfl, hx⟩ := h
  exact ⟨before ++ before', x, other, (List.append_assoc ..).symm, hx⟩

variable {type other : TypeId} {place : Place} {name : Option String}

theorem tie_endsTied (hs : s.store.Rooted) (htype : type < s.store.size) (hother : other < s.store.size)
    {found : Option String} (hfound : HasName s.store type found) (hname : HasName s.store other name)
    (h : differ found name = none) :
    (tiePlan type other place).Traces s fun _ _ ops => EndsTied type name ops := by
  have hok := unify_ok hs htype hother hfound hname h
  refine (tie_traces place hok).imp ?_
  rintro _ _ _ ⟨-, rfl⟩
  exact ⟨[], s, other, rfl, hname, hok⟩

theorem checkAgainst_endsTied {declared : TypeExpr} {n : String} (hs : s.store.Rooted)
    (htype : type < s.store.size) (hname : s.store.content type = some (.concrete n))
    (hdeclared : declared.label? = some n) :
    (checkAgainstPlan place type declared).Traces s fun _ _ ops =>
      EndsTied type declared.label? ops := by
  apply (annotated_traces declared hs).next
  rintro annotated - - ⟨rfl, -, store, rfl, huntouched, hadded⟩
  have hname₁ : HasName store type (some n) :=
    hasName_of_content ((huntouched.content_eq htype).trans hname)
  refine (tie_endsTied huntouched.rooted (Nat.lt_of_lt_of_le htype huntouched.size_le) hadded.lt_size
    hname₁ hadded.name ?_).imp fun _ _ _ h => h.append _
  rw [hdeclared, differ_eq_none_iff]
  rintro l r ⟨⟩ ⟨⟩
  rfl

theorem when_endsTied {enabled : Bool} {m k : Check Unit} {p : Plan m} {q : Plan k}
    (hp : p.Safe .nothing [] s fun _ _ => True) (hs : s.Closed)
    (hq : ∀ s', s'.Closed → Grows s.store s'.store →
      q.Traces s' fun _ _ ops => EndsTied type name ops) :
    (whenPlan enabled p q).Traces s fun _ _ ops => EndsTied type name ops := by
  refine .choose (fun _ => ?_) fun _ => hq s hs (.refl hs.rooted)
  apply (hp.traces hs).next
  rintro _ s₁ before ⟨hkeeps, -⟩
  exact (hq s₁ hkeeps.closed hkeeps.grows).imp fun _ _ _ h => h.append before

theorem declaredFunction_endsTied (params : List Field) (result : TypeExpr) (span : Span)
    (node : Node) (actual : List Param) (annotated : Option TypeExpr) (body : Block) (hs : s.Closed)
    (htype : type < s.store.size) (hname : s.store.content type = some (.concrete "Function")) :
    (declaredFunctionPlan o place type params result span
      (.arrow node actual annotated body)).Traces s fun _ _ ops =>
        EndsTied type (some "Function") ops := by
  apply when_endsTied (checkReturn_safe id node.id result) hs
  intro s₁ hs₁ hgrows₁
  apply when_endsTied (checkParams_safe id (params.zip actual)) hs₁
  intro s₂ hs₂ hgrows₂
  have hnew : (Plan.act (.concrete "Function")).Safe .nothing [] s₂ _ :=
    concrete_safe "Function" (by decide)
  apply (hnew.traces hs₂).next
  rintro function s₃ before ⟨hkeeps, hfunction, -⟩
  -- the value has kept its name
  have hgrows := (hgrows₁.trans hgrows₂).trans hkeeps.grows
  have hname₃ := hasName_of_content (hgrows.name_eq htype hname)
  exact (tie_endsTied hkeeps.closed.rooted (Nat.lt_of_lt_of_le htype hgrows.size_le) hfunction.1.1
    hname₃ hfunction.2 (by decide)).imp fun _ _ _ h => h.append before

theorem declaredArray_endsTied (element : TypeExpr) (span : Span) (node : Node) (elements : List Expr)
    (hs : s.Closed) (htype : type < s.store.size)
    (hname : s.store.content type = some (.concrete "Array")) :
    (declaredArrayPlan o place type element span (.array node elements)).Traces s fun _ _ ops =>
      EndsTied type (some "Array") ops := by
  have hcommon : (Plan.act (.annotated (some element))).Safe .nothing [] s _ :=
    annotated_safe (some element)
  apply (hcommon.traces hs).next
  rintro common s₁ before₁ ⟨hkeeps₁, hcommon⟩
  have helements : (checkElementsPlan common elements).Safe .nothing [] s₁ _ :=
    checkElements_safe id elements hcommon
  apply (helements.traces hkeeps₁.closed).next
  rintro _ s₂ before₂ ⟨hkeeps₂, -⟩
  have hgrows := hkeeps₁.grows.trans hkeeps₂.grows
  exact (checkAgainst_endsTied hkeeps₂.closed.rooted (Nat.lt_of_lt_of_le htype hgrows.size_le)
    (hgrows.name_eq htype hname) rfl).imp fun _ _ _ h => (h.append before₂).append before₁

theorem object_hidden (fields : List Field) (span : Span) (hs : s.Closed) :
    (Plan.act (.annotated (some (.object fields span)))).Traces s fun (annotated : TypeId) s' _ =>
      Grows s.store s'.store ∧ ∃ (shape : Cell) (hlink : ∀ b, shape ≠ .link b),
        (∀ n, shape ≠ .concrete n) ∧ (Avoided.hide annotated shape hlink).Covers s' := by
  have hfields := translateFields_untouched fields hs.rooted
  refine ⟨(translateOptional_grows (some (.object fields span)) hs.rooted).1,
    .object (.ofList (translateFields fields s.store).1), by simp, by simp, ?_⟩
  exact Avoided.covers_hide (hs.withStore hfields.grows) _

theorem declaredObject_endsTied (fields : List Field) (span : Span) (node : Node)
    (properties : List Property) (hs : s.Closed) (htype : type < s.store.size) :
    (declaredObjectPlan o place type fields span (.object node properties)).Traces s fun _ _ ops =>
      EndsTied type none ops := by
  apply (object_hidden fields span hs).next
  rintro annotated s₁ before₁ ⟨hgrows, shape, hlink, hunnamed, hcovers⟩
  -- if ids repeat, a field may be the value itself, which then gets a name; the annotation gets none
  have hchecked : (checkFieldsPlan place properties fields).Traces s₁ fun _ s₂ _ =>
      Grows s₁.store s₂.store ∧ (Avoided.hide annotated shape hlink).Covers s₂ := by
    obtain ⟨(hkeeps : Plan.Keeps _ [] _ s₁), -⟩ := checkFields_safe id properties fields s₁ hcovers
    exact ⟨(hkeeps.moves.1.keeps hcovers.closed).grows, (hkeeps.covers hcovers).1⟩
  apply hchecked.next
  rintro _ s₂ before₂ ⟨hgrows₂, hcovers₂⟩
  obtain ⟨hannotated, hnone⟩ := hcovers₂.hidden_unnamed hunnamed
  have hrooted := hcovers₂.closed.rooted
  have htype₂ := Nat.lt_of_lt_of_le htype (hgrows.trans hgrows₂).size_le
  exact (tie_endsTied hrooted htype₂ hannotated (hasName_concreteName hrooted htype₂) hnone
    (differ_eq_none_iff.mpr (by simp))).imp fun _ _ _ h => (h.append before₂).append before₁

/-- A new type with a name is recorded for a node and has that name behind it. -/
theorem concrete_recorded (node : NodeId) (text : String) :
    (Plan.next (.act (.concrete text)) fun type => recordPlan node type).Traces s fun type s' _ =>
      s'.store.content type = some (.concrete text) :=
  content_push_self (by simp)

theorem arrow_content (node : Node) (params : List Param) (result : Option TypeExpr) (body : Block) :
    ((Expr.arrow node params result body).plan o).Traces s fun type s' _ =>
      s'.store.content type = some (.concrete "Function") := by
  iterate 6 refine Plan.Traces.last fun _ _ => ?_
  exact concrete_recorded node.id "Function"

theorem array_content (node : Node) (elements : List Expr) :
    ((Expr.array node elements).plan o).Traces s fun type s' _ =>
      s'.store.content type = some (.concrete "Array") :=
  Plan.Traces.last fun _ _ => concrete_recorded node.id "Array"

theorem const_endsTied {node : Node} {ident : Ident} {declared : TypeExpr} {value : Expr}
    (hs : s.Closed) :
    let init := ((value.check o).run s).1
    let bound := ((value.check o).run s).2.bindName ident init
    (bound.Closed → init < bound.store.size →
      (checkDeclaredPlan o ⟨node, "ConstDeclaration"⟩ value init declared).Traces bound fun _ _ ops =>
        EndsTied init name ops) →
    EndsTied init name (((Stmt.const node ident (some declared) value).plan o).history s) := by
  intro init bound h
  obtain ⟨hs₁, ⟨hinit, -⟩, -⟩ := visit_shows o value hs
  rw [const_history]
  have hbound : bound.Closed := ⟨hs₁.rooted, hs₁.nodes.insert _ hinit, hs₁.returns,
    hs₁.scopes.define _ hinit⟩
  exact ((h hbound hinit).append _).append _

def AtMostOneReport (s s' : CheckState) : Prop :=
  ∃ reports : List TypeDiagnostic, reports.length ≤ 1 ∧ s'.diagnostics = s.diagnostics ++ reports

theorem names_traces {α : Type} {k : Option String → Option String → Check α}
    {R : α → CheckState → Prop} {q : (a b : Option String) → Plan (k a b)} {left right : TypeId}
    (hs : s.store.Rooted) (hl : left < s.store.size) (hr : right < s.store.size)
    (hq : ∀ a b store, (differ a b = none → (store.unify left right).1 = .ok ()) →
      (q a b).Traces (s.withStore store) fun x s' _ => R x s') :
    (Plan.next (.act (.name left)) fun a => .next (.act (.name right)) fun b => q a b).Traces s
      fun x s' _ => R x s' := by
  apply (name_traces hs hl).next
  rintro a - - ⟨ha, store₁, rfl, hsame₁⟩
  have hs₁ := hsame₁.rooted hs
  have hr₁ : right < store₁.size := hsame₁.size_eq.symm ▸ hr
  apply (name_traces hs₁ hr₁).next
  rintro b - - ⟨hb, store₂, rfl, hsame₂⟩
  apply hq a b store₂
  have hl₂ : left < store₂.size := (hsame₁.trans hsame₂).size_eq.symm ▸ hl
  have hr₂ : right < store₂.size := hsame₂.size_eq.symm ▸ hr₁
  exact unify_ok (hsame₂.rooted hs₁) hl₂ hr₂ (ha.congr ((hsame₁.trans hsame₂).content_eq hs left))
    (hb.congr (hsame₂.content_eq hs₁ right))

variable {left right : TypeId}

theorem binaryType_reports {leftPlace rightPlace : Place} {op : BinaryOp} (hop : op ≠ .mul)
    (hs : s.store.Rooted) (hl : left < s.store.size) (hr : right < s.store.size) :
    (binaryTypePlan place leftPlace rightPlace left right op).Traces s fun _ s' _ =>
      AtMostOneReport s s' := by
  cases op with
  | mul => exact absurd rfl hop
  | add | sub | div =>
    apply names_traces hs hl hr
    intro a b store hok
    cases hdiffer : differ a b with
    | some pair => exact ⟨[_], Nat.le_refl _, rfl⟩
    | none =>
      apply (unify_traces place (hok hdiffer)).next
      rintro _ - - ⟨rfl, rfl, -⟩
      exact ⟨[], Nat.zero_le _, (List.append_nil _).symm⟩

theorem binary_reports (node : Node) {op : BinaryOp} (hop : op ≠ .mul) (l r : Expr) (hs : s.Closed) :
    AtMostOneReport ((do let _ ← l.check o; r.check o : Check TypeId).run s).2
      (((Expr.binary node op l r).check o).run s).2 := by
  obtain ⟨hs₁, hl, -⟩ := visit_shows o l hs
  obtain ⟨hs₂, hr, h₂⟩ := visit_shows o r hs₁
  change ((Expr.binary node op l r).plan o).Traces s fun _ s' _ => AtMostOneReport _ s'
  apply Plan.Traces.run
  apply Plan.Traces.run
  apply (binaryType_reports hop hs₂.rooted (h₂ hl).1 hr.1).next
  exact fun _ _ _ h => h

end Nodes

section Runs

variable {o : CheckOptions} {v : Avoided} {s : CheckState}

theorem CheckCall.covers (o : CheckOptions) (hv : ¬ v.clash) (hnew : v.Covers {}) (r : CheckCall)
    (hs : v.Covers s) :
    v.Covers (r.finish o s) ∧ ∀ x ∈ r.history o s, v.Covers x.1 := by
  cases r with
  | check p => exact (visitAll_safe o hv p.statements (List.Subset.refl _) hnew).1.covers hnew
  | visit statements => exact (visitAll_safe o hv statements (List.Subset.refl _) hs).1.covers hs
  | visitExpr e => exact (e.safe o hv (List.Subset.refl _) hs).1.covers hs
  | visitBlock b => exact (b.safe o hv (List.Subset.refl _) hs).1.covers hs

/-- A state that some call on a checker passes, whatever was asked of the checker before. -/
def CheckState.Passed (o : CheckOptions) (s : CheckState) : Prop :=
  ∃ earlier r, (∃ op, (s, op) ∈ CheckCall.history o r (Session.after o earlier).state) ∨
    s = r.finish o (Session.after o earlier).state

theorem CheckState.Passed.covers (h : s.Passed o) (hv : ¬ v.clash) (hnew : v.Covers {}) :
    v.Covers s := by
  obtain ⟨earlier, r, h⟩ := h
  have hstart : v.Covers (Session.after o earlier).state :=
    Session.after_keeps (P := v.Covers) hnew (fun o r _ hs => (r.covers o hv hnew hs).1) o earlier
  obtain ⟨hend, hpassed⟩ := r.covers o hv hnew hstart
  rcases h with ⟨op, hop⟩ | rfl
  · exact hpassed _ hop
  · exact hend

end Runs

/-- Visits from the state do not fail where names are compared, or known, before types are made one. For
operators, conditionals, calls and unions this is about all operations behind the visits of the parts;
for values with an annotation of their own form it is about the last one. -/
structure Guarded (o : CheckOptions) (s : CheckState) : Prop where
  binary : ∀ (node : Node) (op : BinaryOp) (l r : Expr),
    (Plan.next (l.plan o) fun _ => r.plan o).SucceedsBehind ((Expr.binary node op l r).plan o) s
  reports : ∀ (node : Node) (op : BinaryOp) (l r : Expr), op ≠ .mul →
    AtMostOneReport ((do let _ ← l.check o; r.check o : Check TypeId).run s).2
      (((Expr.binary node op l r).check o).run s).2
  conditional : ∀ (node : Node) (c a b : Expr),
    (Plan.next (c.plan o) fun _ => .next (a.plan o) fun _ => b.plan o).SucceedsBehind
      ((Expr.conditional node c a b).plan o) s
  call : ∀ (node : Node) (f : Expr) (args : List Expr),
    (Plan.next (f.plan o) fun _ => .next (.act .fresh) fun _ => checkExprsPlan o args).SucceedsBehind
      ((Expr.call node f args).plan o) s
  union : ∀ (node : Node) (name : Ident) (members : List TypeExpr) (span : Span) (value : Expr),
    (value.plan o).SucceedsBehind
      ((Stmt.const node name (some (.union members span)) value).plan o) s
  function : ∀ (node : Node) (name : Ident) (params : List Field) (result : TypeExpr) (span : Span)
      (arrow : Node) (actual : List Param) (annotated : Option TypeExpr) (body : Block),
    let value := Expr.arrow arrow actual annotated body
    EndsTied ((value.check o).run s).1 (some "Function")
      (((Stmt.const node name (some (.function params result span)) value).plan o).history s)
  object : ∀ (node : Node) (name : Ident) (fields : List Field) (span : Span) (literal : Node)
      (properties : List Property),
    let value := Expr.object literal properties
    EndsTied ((value.check o).run s).1 none
      (((Stmt.const node name (some (.object fields span)) value).plan o).history s)
  array : ∀ (node : Node) (name : Ident) (element : TypeExpr) (span : Span) (literal : Node)
      (elements : List Expr),
    let value := Expr.array literal elements
    EndsTied ((value.check o).run s).1 (some "Array")
      (((Stmt.const node name (some (.array element span)) value).plan o).history s)

theorem CheckState.Closed.guarded (o : CheckOptions) {s : CheckState} (hs : s.Closed) :
    Guarded o s where
  binary node op l r := binary_succeeds o node op l r hs
  reports node _ l r hop := binary_reports o node hop l r hs
  conditional node c a b := conditional_succeeds o node c a b hs
  call node f args := call_succeeds o node f args hs
  union node name members span value := union_succeeds o node name members span value hs
  function _ _ params result span arrow actual annotated body :=
    const_endsTied o hs fun hbound hinit => declaredFunction_endsTied o params result span arrow actual
      annotated body hbound hinit (arrow_content o arrow actual annotated body)
  object _ _ fields span literal properties :=
    const_endsTied o hs fun hbound hinit =>
      declaredObject_endsTied o fields span literal properties hbound hinit
  array _ _ element span literal elements :=
    const_endsTied o hs fun hbound hinit => declaredArray_endsTied o element span literal elements
      hbound hinit (array_content o literal elements)

/-- In every state that a checker passes, visits are guarded. Nothing has been reported that says that
operands could not be made one behind a comparison of their names, or that shows no name for one. -/
theorem compared_types_unify (o : CheckOptions) {s : CheckState} (hs : s.Passed o) :
    Guarded o s ∧ ∀ d ∈ s.diagnostics, d.fault ≠ .operandUnifyFailed ∧
      ∀ l r, d.fault = .addMismatch l r → l ≠ "unknown" ∧ r ≠ "unknown" := by
  have hcovers := hs.covers (v := .unknown) id Avoided.covers_unknown
  refine ⟨hcovers.closed.guarded o, fun d hd => ?_⟩
  have hd := hcovers.reports d hd
  refine ⟨fun h => hd (.inl h), fun l r h => ⟨?_, ?_⟩⟩
  · exact fun hl => hd (.inr ⟨l, r, h, .inl hl⟩)
  · exact fun hr => hd (.inr ⟨l, r, h, .inr hr⟩)

/-- A string and a boolean have been added, which is reported with the names of both. Behind that a name
without binding is multiplied with itself: the first operand is made a number, and the second, which is
that same type, does not clash with it. -/
theorem mismatch_names_operands :
    let at_ : NodeId → Node := fun id => ⟨id, default⟩
    let sum := Expr.binary (at_ 0) .add (.string (at_ 1) "x") (.boolean (at_ 2) true)
    let free := Expr.ident (at_ 3) "u"
    let s := CheckCall.finish {} (.visitExpr sum) (Session.after {} []).state
    s.Passed {} ∧ s.diagnostics.map (·.fault) = [.addMismatch "String" "Boolean"] ∧
      (∀ d ∈ s.diagnostics, d.fault ≠ .operandUnifyFailed) ∧
      (Plan.next (free.plan {}) fun _ => free.plan {}).SucceedsBehind
        ((Expr.binary (at_ 4) .mul free free).plan {}) s := by
  intro at_ sum free s
  have hs : s.Passed {} := ⟨[], .visitExpr sum, .inr rfl⟩
  obtain ⟨hguarded, hreported⟩ := compared_types_unify {} hs
  exact ⟨hs, by decide +kernel, fun d hd => (hreported d hd).1, hguarded.binary (at_ 4) .mul free free⟩

end ArrowCheck
