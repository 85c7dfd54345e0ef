import ArrowCheck.Report.File
import ArrowCheck.Proofs.Typing.Decision
import ArrowCheck.Proofs.Typing.Plain
import ArrowCheck.Proofs.Typing.Safety

namespace ArrowCheck

open Check

mutual

/-- The ids of all arrow functions, in the order in which their bodies are done with. -/
def Expr.arrowIds : Expr → List NodeId
  | .string .. | .number .. | .boolean .. | .ident .. | .error .. => []
  | .binary _ _ l r => l.arrowIds ++ r.arrowIds
  | .conditional _ c a b => c.arrowIds ++ a.arrowIds ++ b.arrowIds
  | .call _ f args => f.arrowIds ++ exprArrows args
  | .arrow n _ _ body => body.arrowIds ++ [n.id]
  | .array _ elements => exprArrows elements
  | .object _ properties => propertyArrows properties
termination_by structural e => e

def exprArrows : List Expr → List NodeId
  | [] => []
  | e :: es => e.arrowIds ++ exprArrows es
termination_by structural es => es

def propertyArrows : List Property → List NodeId
  | [] => []
  | ⟨_, _, value⟩ :: ps => value.arrowIds ++ propertyArrows ps
termination_by structural ps => ps

def Stmt.arrowIds : Stmt → List NodeId
  | .const _ _ _ value => value.arrowIds
  | .ret _ (some e) => e.arrowIds
  | .ret _ none => []
termination_by structural s => s

def Block.arrowIds : Block → List NodeId
  | ⟨_, statements⟩ => stmtArrows statements
termination_by structural b => b

def stmtArrows : List Stmt → List NodeId
  | [] => []
  | s :: ss => s.arrowIds ++ stmtArrows ss
termination_by structural ss => ss

end

attribute [local simp] Expr.labelIds exprIds propertyIds Stmt.labelIds Block.labelIds stmtIds
  Expr.arrowIds exprArrows propertyArrows Stmt.arrowIds Block.arrowIds stmtArrows

def Program.arrowIds (p : Program) : List NodeId := stmtArrows p.statements

def Stmt.declared? : Stmt → Option Ident
  | .const _ name _ _ => some name
  | .ret .. => none

def Program.declared (p : Program) : List Ident := p.statements.filterMap Stmt.declared?

/-- From `s` to `s'`, types are entered for the given nodes and functions, and for no other. -/
structure Enters (nodes arrows : List NodeId) (s s' : CheckState) : Prop where
  types : ∀ id, (s'.nodeTypes.get? id).isSome ↔ (s.nodeTypes.get? id).isSome ∨ id ∈ nodes
  returns : ∀ id, (s'.returnTypes.get? id).isSome ↔ (s.returnTypes.get? id).isSome ∨ id ∈ arrows

theorem Table.isSome_get?_insert {κ α : Type} [DecidableEq κ] (t : Table κ α) (k k' : κ) (a : α) :
    ((t.insert k a).get? k').isSome ↔ (t.get? k').isSome ∨ k' ∈ [k] := by
  rw [Table.get?_insert, List.mem_singleton]
  by_cases h : k' = k <;> simp [h]

theorem Table.isSome_get?_of_eq {κ α : Type} [DecidableEq κ] {t t' : Table κ α} (h : t' = t) (k : κ) :
    (t'.get? k).isSome ↔ (t.get? k).isSome ∨ k ∈ [] := by
  simp [h]

theorem Silent.enters {s s' : CheckState} (h : Silent s s') : Enters [] [] s s' :=
  ⟨Table.isSome_get?_of_eq h.types, Table.isSome_get?_of_eq h.returns⟩

theorem Enters.trans {n₁ n₂ a₁ a₂ : List NodeId} {s s₁ s₂ : CheckState} (h : Enters n₁ a₁ s s₁)
    (h' : Enters n₂ a₂ s₁ s₂) : Enters (n₁ ++ n₂) (a₁ ++ a₂) s s₂ :=
  ⟨fun id => by rw [h'.types, h.types, List.mem_append, or_assoc],
    fun id => by rw [h'.returns, h.returns, List.mem_append, or_assoc]⟩

namespace Plan

variable {α β : Type} {m : Check α} {f : α → Check β} {n n' n₁ n₂ a a' a₁ a₂ : List NodeId}

/-- Every run enters types for the given nodes and functions, and for no other. -/
def Enters (_ : Plan m) (nodes arrows : List NodeId) : Prop :=
  ∀ s, ArrowCheck.Enters nodes arrows s (m.run s).2

theorem Enters.of_eq {p : Plan m} (h : p.Enters n a) (hn : n = n' := by simp)
    (ha : a = a' := by simp) : p.Enters n' a' := hn ▸ ha ▸ h

theorem enters_value (x : α) : (Plan.value x).Enters [] [] := fun s => (Silent.refl s).enters

theorem enters_record (node : NodeId) (type : TypeId) : (Plan.act (.record node type)).Enters [node] [] :=
  fun s => ⟨fun id => s.nodeTypes.isSome_get?_insert node id type, Table.isSome_get?_of_eq rfl⟩

theorem enters_recordReturn (arrow : NodeId) (type : TypeId) :
    (Plan.act (.recordReturn arrow type)).Enters [] [arrow] :=
  fun s => ⟨Table.isSome_get?_of_eq rfl, fun id => s.returnTypes.isSome_get?_insert arrow id type⟩

theorem enters_act (op : CheckOp) (hn : ∀ node type, op ≠ .record node type := by simp)
    (ha : ∀ arrow type, op ≠ .recordReturn arrow type := by simp) : (Plan.act op).Enters [] [] := by
  intro s
  cases op with
  | record node type => exact absurd rfl (hn node type)
  | recordReturn arrow type => exact absurd rfl (ha arrow type)
  | _ => exact ⟨Table.isSome_get?_of_eq rfl, Table.isSome_get?_of_eq rfl⟩

theorem Enters.next {p : Plan m} {q : (x : α) → Plan (f x)} (hp : p.Enters n₁ a₁)
    (hq : ∀ x, (q x).Enters n₂ a₂) : (p.next q).Enters (n₁ ++ n₂) (a₁ ++ a₂) :=
  fun s => (hp s).trans (hq _ _)

theorem All.enters {p : Plan m} (h : p.All (CheckOp.Plain true)) : p.Enters [] [] :=
  fun s => (h.within s).silent.enters

end Plan

section Tree

variable (o : CheckOptions)

theorem record_enters (id : NodeId) (type : TypeId) : (recordPlan id type).Enters [id] [] :=
  .of_eq ((Plan.enters_record id type).next fun _ => Plan.enters_value type)

theorem bindParams_enters (params : List Param) :
    (bindParamsPlan params).Enters (params.map (·.node.id)) [] := by
  induction params with
  | nil => exact Plan.enters_value ()
  | cons p rest ih =>
    exact .of_eq ((Plan.enters_act (.annotated p.type)).next fun type =>
      (Plan.enters_record p.node.id type).next fun _ =>
        (Plan.enters_act (.define p.name type)).next fun _ => ih)

theorem checkDeclared_enters (place : Place) (value : Expr) (type : TypeId) (declared : TypeExpr) :
    (checkDeclaredPlan o place value type declared).Enters [] [] := by
  intro s
  have hwithin : (checkDeclaredPlan o place value type declared).Within (CheckOp.Plain true) s :=
    checkDeclared_within value declared fun _ _ => .inl rfl
  exact hwithin.silent.enters

mutual

theorem Expr.enters (e : Expr) : (e.plan o).Enters e.labelIds e.arrowIds := by
  match e with
  | .string node _ => exact .of_eq ((Plan.enters_act (.concrete "String")).next (record_enters node.id))
  | .number node _ => exact .of_eq ((Plan.enters_act (.concrete "Number")).next (record_enters node.id))
  | .boolean node _ =>
    exact .of_eq ((Plan.enters_act (.concrete "Boolean")).next (record_enters node.id))
  | .ident node word => exact .of_eq ((identType_plain node.id word).enters.next (record_enters node.id))
  | .binary node op l r =>
    exact .of_eq (l.enters.next fun _ => r.enters.next fun _ =>
      (binaryType_plain op).enters.next (record_enters node.id))
  | .conditional node c a b =>
    exact .of_eq (c.enters.next fun _ => a.enters.next fun _ => b.enters.next fun _ =>
      conditionalType_plain.enters.next (record_enters node.id))
  | .call node f args =>
    exact .of_eq (f.enters.next fun _ => (Plan.enters_act .fresh).next fun type =>
      (checkExprs_enters args).next fun _ => (callType_plain f).enters.next fun _ =>
        record_enters node.id type)
  | .arrow node params result body =>
    exact .of_eq ((Plan.enters_act .pushScope).next fun _ => (bindParams_enters params).next fun _ =>
      body.enters.next fun type => (Plan.enters_recordReturn node.id type).next fun _ =>
        (checkResult_plain result).enters.next fun _ => (Plan.enters_act .popScope).next fun _ =>
          (Plan.enters_act (.concrete "Function")).next (record_enters node.id))
  | .array node elements =>
    exact .of_eq ((checkArray_enters elements).next fun _ =>
      (Plan.enters_act (.concrete "Array")).next (record_enters node.id))
  | .object node properties =>
    exact .of_eq ((checkProperties_enters properties).next fun fields =>
      (Plan.enters_act (.object (Table.ofList fields))).next (record_enters node.id))
  | .error node =>
    exact .of_eq ((Plan.enters_act (.report (.unknownNode "ErrorExpression") _)).next fun _ =>
      (Plan.enters_act .fresh).next (record_enters node.id))
termination_by structural e

theorem checkExprs_enters (es : List Expr) :
    (checkExprsPlan o es).Enters (exprIds es) (exprArrows es) := by
  match es with
  | [] => exact Plan.enters_value _
  | e :: rest =>
    exact .of_eq (e.enters.next fun _ => (checkExprs_enters rest).next fun _ => Plan.enters_value _)
termination_by structural es

theorem checkArray_enters (es : List Expr) :
    (checkArrayPlan o es).Enters (exprIds es) (exprArrows es) := by
  match es with
  | [] => exact Plan.enters_value _
  | e :: rest =>
    exact .of_eq (e.enters.next fun first => (Plan.enters_act (.name first)).next fun name =>
      checkRest_enters first name rest)
termination_by structural es

theorem checkRest_enters (first : TypeId) (name : Option String) (es : List Expr) :
    (checkRestPlan o first name es).Enters (exprIds es) (exprArrows es) := by
  match es with
  | [] => exact Plan.enters_value _
  | e :: rest =>
    exact .of_eq (e.enters.next fun _ => (elementType_plain name).enters.next fun _ =>
      checkRest_enters first name rest)
termination_by structural es

theorem checkProperties_enters (ps : List Property) :
    (checkPropertiesPlan o ps).Enters (propertyIds ps) (propertyArrows ps) := by
  match ps with
  | [] => exact Plan.enters_value _
  | ⟨_, key, value⟩ :: rest =>
    exact .of_eq (value.enters.next fun _ => (checkProperties_enters rest).next fun _ =>
      Plan.enters_value _)
termination_by structural ps

theorem Stmt.enters (st : Stmt) : (st.plan o).Enters st.labelIds st.arrowIds := by
  match st with
  | .const node name none value =>
    exact .of_eq (value.enters.next fun init => (Plan.enters_record name.node.id init).next fun _ =>
      (Plan.enters_act (.define name.name init)).next fun _ => Plan.enters_value init)
  | .const node name (some declared) value =>
    exact .of_eq (value.enters.next fun init => (Plan.enters_record name.node.id init).next fun _ =>
      (Plan.enters_act (.define name.name init)).next fun _ =>
        (checkDeclared_enters o _ value init declared).next fun _ => Plan.enters_value init)
  | .ret _ (some argument) => exact argument.enters
  | .ret _ none => exact Plan.enters_act (.concrete "Void")
termination_by structural st

theorem Block.enters (b : Block) : (b.plan o).Enters b.labelIds b.arrowIds := by
  match b with
  | ⟨node, statements⟩ =>
    exact .of_eq ((Plan.enters_act (.concrete "Void")).next fun void =>
      (Plan.enters_act .pushScope).next fun _ =>
      (checkStmts_enters statements void).next fun type => (Plan.enters_act .popScope).next fun _ =>
        record_enters node.id type)
termination_by structural b

theorem checkStmts_enters (ss : List Stmt) (last : TypeId) :
    (checkStmtsPlan o ss last).Enters (stmtIds ss) (stmtArrows ss) := by
  match ss with
  | [] => exact Plan.enters_value last
  | st :: rest => exact .of_eq (st.enters.next fun type => checkStmts_enters rest type)
termination_by structural ss

end

theorem visitAll_enters (ss : List Stmt) :
    (visitAllPlan o ss).Enters (stmtIds ss) (stmtArrows ss) := by
  induction ss with
  | nil => exact Plan.enters_value _
  | cons st rest ih => exact .of_eq ((st.enters o).next fun _ => ih.next fun _ => Plan.enters_value _)

end Tree

theorem checkProgram_enters (o : CheckOptions) (p : Program) :
    (∀ id, ((checkProgram o p).nodeTypes.get? id).isSome ↔ id ∈ p.labelIds) ∧
      ∀ id, ((checkProgram o p).returnTypes.get? id).isSome ↔ id ∈ p.arrowIds := by
  have h := visitAll_enters o p.statements {}
  exact ⟨fun id => (h.types id).trans (or_iff_right Bool.false_ne_true),
    fun id => (h.returns id).trans (or_iff_right Bool.false_ne_true)⟩

section Declaration

variable {o : CheckOptions} {s : CheckState}

theorem partIds_subset (value : Expr) : partIds value ⊆ value.labelIds := by
  intro id hid
  cases value with
  | arrow node params result body =>
    simp only [Expr.labelIds, List.mem_append]
    exact .inl (.inl hid)
  | array node elements =>
    obtain ⟨e, he, rfl⟩ := List.mem_map.mp hid
    exact List.mem_append_left _ (exprIds_mem he)
  | object node properties =>
    obtain ⟨p, hp, rfl⟩ := List.mem_map.mp hid
    exact List.mem_append_left _ (propertyIds_mem hp)
  | _ => exact absurd hid List.not_mem_nil

theorem found_parts (name : Ident) (value : Expr) {id : NodeId} (hid : id ∈ partIds value) :
    Found false id (((value.check o).run s).2.bindName name ((value.check o).run s).1) := by
  refine .inr ((Table.isSome_get?_insert _ _ _ _).mpr (.inl ?_))
  exact ((value.enters o s).types id).mpr (.inr (partIds_subset value hid))

theorem checkReturn_traces {place : Place} {arrow : NodeId} {result : TypeExpr} {inferred : TypeId}
    (h : s.returnTypes.get? arrow = some inferred) :
    (checkReturnPlan place arrow result).Traces s fun _ _ ops =>
      .unify inferred (result.translate s.store).1 ∈ ops.map (·.2) := by
  have hannotated : (Plan.act (.annotated (some result))).Traces s fun type s₁ _ =>
      type = (result.translate s.store).1 ∧ s₁.returnTypes = s.returnTypes := ⟨rfl, rfl⟩
  apply hannotated.next
  rintro _ s₁ ops ⟨rfl, hreturns⟩
  have hlook : (Plan.act .look).Traces s₁ fun found s₂ _ => found = s₁ ∧ s₂ = s₁ := ⟨rfl, rfl⟩
  apply hlook.next
  rintro _ s₂ ops' ⟨rfl, rfl⟩
  rw [← hreturns] at h
  rw [h]
  refine List.mem_map.mpr ⟨(s₂, .unify inferred (result.translate s.store).1), ?_, rfl⟩
  exact List.mem_append_right _ (List.mem_append_right _ List.mem_cons_self)

theorem declaredFunction_traces {place : Place} {init inferred : TypeId} {params : List Field}
    {result : TypeExpr} {span : Span} {arrow : Node} {actual : List Param} {written : Option TypeExpr}
    {body : Block} (hreturns : o.returnTypes = true)
    (h : s.returnTypes.get? arrow.id = some inferred) :
    (checkDeclaredPlan o place (.arrow arrow actual written body) init
      (.function params result span)).Traces s fun _ _ ops =>
        .unify inferred (result.translate s.store).1 ∈ ops.map (·.2) := by
  refine Plan.Traces.choose (fun _ => ?_) fun hno => absurd hreturns hno
  apply (checkReturn_traces h).next
  intro _ s₁ ops hops
  rw [Plan.Traces, List.map_append]
  exact List.mem_append_left _ hops

/-- An annotation is checked in full: no free type stands in for one that was to be read back, and the
body of an arrow function is compared with the result of a function type. -/
theorem const_checked (o : CheckOptions) (node : Node) (name : Ident) (declared : TypeExpr)
    (value : Expr) (s : CheckState) :
    ∃ own, ((Stmt.const node name (some declared) value).plan o).history s =
        (value.plan o).history s ++ own ∧
      .fresh ∉ own.map (·.2) ∧
      ∀ {params result span arrow actual written body}, declared = .function params result span →
        value = .arrow arrow actual written body → o.returnTypes = true →
          ∃ inferred, ((value.check o).run s).2.returnTypes.get? arrow.id = some inferred ∧
            .unify inferred (result.translate ((value.check o).run s).2.store).1 ∈ own.map (·.2) := by
  refine ⟨_, const_history o node name declared value s, ?_, ?_⟩
  · have hplain : (checkDeclaredPlan o ⟨node, "ConstDeclaration"⟩ value ((value.check o).run s).1
        declared).Within (CheckOp.Plain false)
        (((value.check o).run s).2.bindName name ((value.check o).run s).1) :=
      checkDeclared_within value declared fun _ hid => found_parts name value hid
    intro hfresh
    obtain ⟨x, hx, hop⟩ := List.mem_map.mp hfresh
    cases List.mem_append.mp hx with
    | inl hx =>
      simp only [List.mem_cons, List.not_mem_nil, or_false] at hx
      obtain rfl | rfl := hx <;> cases hop
    | inr hx =>
      have hx' := hplain x hx
      rw [hop] at hx'
      exact absurd hx' Bool.false_ne_true
  · rintro params result span arrow actual written body rfl rfl hreturns
    have hmem : arrow.id ∈ (Expr.arrow arrow actual written body).arrowIds :=
      List.mem_append_right _ (List.mem_singleton_self _)
    obtain ⟨inferred, hinferred⟩ := Option.isSome_iff_exists.mp
      ((((Expr.arrow arrow actual written body).enters o s).returns arrow.id).mpr (.inr hmem))
    refine ⟨inferred, hinferred, ?_⟩
    rw [List.map_append]
    exact List.mem_append_right _ (declaredFunction_traces hreturns hinferred)

end Declaration

section Report

variable {o : CheckOptions} {p : Program}

theorem mem_stmtIds {ss : List Stmt} {st : Stmt} {id : NodeId} (hst : st ∈ ss) (hid : id ∈ st.labelIds) :
    id ∈ stmtIds ss := by
  induction hst with
  | head rest => exact List.mem_append_left _ hid
  | tail first _ ih => exact List.mem_append_right _ ih

theorem Program.mem_labelIds {name : Ident} (h : name ∈ p.declared) : name.node.id ∈ p.labelIds := by
  obtain ⟨st, hst, hname⟩ := List.mem_filterMap.mp h
  apply mem_stmtIds hst
  cases st with
  | const node name' type value =>
    cases hname
    exact List.mem_append_right _ (List.mem_singleton_self _)
  | ret => cases hname

theorem exists_typeName {id : NodeId} (h : id ∈ p.labelIds) :
    ∃ text, (checkProgram o p).typeName id = some text := by
  obtain ⟨type, htype⟩ := Option.isSome_iff_exists.mp (((checkProgram_enters o p).1 id).mpr h)
  have hend := (CheckCall.sound o (.check p) .initial).2
  obtain ⟨text, htext⟩ := hend.store.displayWithin TypeStore.shownLevels
    (hend.closed.nodes.get? htype)
  refine ⟨text, ?_⟩
  rw [CheckResult.typeName, htype]
  exact htext

theorem FileReport.bindings_eq {r : FileReport} {c : CheckResult} (hc : r.check = some c) :
    r.bindings = r.program.declared.map fun name =>
      ⟨name.name, (c.typeName name.node.id).getD "unknown", name.node.span⟩ := by
  rw [bindings, hc, Program.declared, List.map_filterMap]
  refine List.filterMap_congr fun st _ => ?_
  cases st <;> rfl

theorem FileReport.bindings_types {r : FileReport} (hc : r.check = some (checkProgram o r.program)) :
    r.bindings.map (some ·.type) =
      r.program.declared.map fun name => (checkProgram o r.program).typeName name.node.id := by
  rw [bindings_eq hc, List.map_map]
  refine List.map_congr_left fun name hname => ?_
  obtain ⟨text, htext⟩ := exists_typeName (o := o) (Program.mem_labelIds hname)
  simp [htext]

end Report

/-- Behind a checked program there are types for exactly the expressions, blocks, parameters and declared
names, and for the bodies of exactly the arrow functions, at every depth and whatever is reported. So the
check of an annotation, wherever the declaration stands, makes no free type for want of one to be read
back and compares the body of an arrow function with the result it is to have, and the names at the top
are shown with the texts of their types. -/
theorem tables_complete (o : CheckOptions) :
    (∀ p : Program,
      (∀ id, ((checkProgram o p).nodeTypes.get? id).isSome ↔ id ∈ p.labelIds) ∧
      ∀ id, ((checkProgram o p).returnTypes.get? id).isSome ↔ id ∈ p.arrowIds) ∧
    (∀ (node : Node) (name : Ident) (declared : TypeExpr) (value : Expr) (s : CheckState),
      ∃ own, ((Stmt.const node name (some declared) value).plan o).history s =
          (value.plan o).history s ++ own ∧
        .fresh ∉ own.map (·.2) ∧
        ∀ {params result span arrow actual written body}, declared = .function params result span →
          value = .arrow arrow actual written body → o.returnTypes = true →
            ∃ inferred, ((value.check o).run s).2.returnTypes.get? arrow.id = some inferred ∧
              .unify inferred (result.translate ((value.check o).run s).2.store).1 ∈ own.map (·.2)) ∧
    ∀ r : FileReport, r.check = some (checkProgram o r.program) →
      r.bindings.map (some ·.type) =
        r.program.declared.map fun name => (checkProgram o r.program).typeName name.node.id :=
  ⟨checkProgram_enters o, const_checked o, fun _ => FileReport.bindings_types⟩

/-- A function that gives a function, declared with a result that is none: both bodies and all nodes have
types, the body of the outer one is compared with the result, and the name is shown as a function. -/
theorem nested_arrows_entered :
    let at_ : NodeId → Node := fun id => ⟨id, default⟩
    let inner := Expr.arrow (at_ 3) [⟨at_ 4, "y", none⟩] none
      ⟨at_ 5, [.ret (at_ 6) (some (.ident (at_ 7) "y"))]⟩
    let outer := Expr.arrow (at_ 1) [] none ⟨at_ 8, [.ret (at_ 9) (some inner)]⟩
    let declared := TypeExpr.function [] (.named "String" default) default
    let p : Program := ⟨[.const (at_ 10) ⟨at_ 11, "f"⟩ (some declared) outer], default⟩
    let visited := ((outer.check {}).run {}).2
    p.labelIds = [4, 7, 5, 3, 8, 1, 11] ∧ p.arrowIds = [3, 1] ∧
      ((checkProgram {} p).nodeTypes.get? 7).isSome ∧ ((checkProgram {} p).returnTypes.get? 3).isSome ∧
      (∃ own inferred, ((Stmt.const (at_ 10) ⟨at_ 11, "f"⟩ (some declared) outer).plan {}).history {} =
          (outer.plan {}).history {} ++ own ∧
        .fresh ∉ own.map (·.2) ∧ visited.returnTypes.get? 1 = some inferred ∧
        .unify inferred ((TypeExpr.named "String" default).translate visited.store).1 ∈ own.map (·.2)) ∧
      (FileReport.mk "f.js" "" p [] (some (checkProgram {} p))).bindings.map (some ·.type) =
        [(checkProgram {} p).typeName 11] := by
  intro at_ inner outer declared p visited
  obtain ⟨htables, hchecks, hnames⟩ := tables_complete {}
  obtain ⟨own, hown, hfresh, hreturn⟩ := hchecks (at_ 10) ⟨at_ 11, "f"⟩ declared outer {}
  obtain ⟨inferred, hinferred, hunify⟩ := hreturn rfl rfl rfl
  exact ⟨by decide, by decide, ((htables p).1 7).mpr (by decide), ((htables p).2 3).mpr (by decide),
    ⟨own, inferred, hown, hfresh, hinferred, hunify⟩, hnames ⟨"f.js", "", p, [], _⟩ rfl⟩

end ArrowCheck
