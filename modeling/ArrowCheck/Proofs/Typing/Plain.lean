import ArrowCheck.Proofs.Typing.Operations
import ArrowCheck.Proofs.Typing.Steps

namespace ArrowCheck

open Check

/-- The operation leaves scopes and recorded types alone; it makes a free type only if `free` says so. -/
def CheckOp.Plain (free : Bool) : CheckOp → Prop
  | fresh => free = true
  | concrete _ | object _ | annotated _ | name _ | unify _ _ | look | report _ _ => True
  | record _ _ | recordReturn _ _ | pushScope | popScope | define _ _ => False

namespace Plan

variable {α β : Type} {m : Check α} {f : α → Check β} {P Q : CheckOp → Prop} {s : CheckState}

def All (P : CheckOp → Prop) {α : Type} {m : Check α} : Plan m → Prop
  | .value _ => True
  | .act op => P op
  | .next p q => p.All P ∧ ∀ a, (q a).All P
  | .choose (d := _) _ p q => p.All P ∧ q.All P

def Within (P : CheckOp → Prop) (p : Plan m) (s : CheckState) : Prop := ∀ x ∈ p.history s, P x.2

theorem All.next {p : Plan m} {q : (a : α) → Plan (f a)} (hp : p.All P) (hq : ∀ a, (q a).All P) :
    (p.next q).All P := ⟨hp, hq⟩

theorem All.imp {p : Plan m} (h : p.All P) (hPQ : ∀ {op}, P op → Q op) : p.All Q := by
  induction p with
  | value a => trivial
  | act op => exact hPQ h
  | next p q ihp ihq => exact ⟨ihp h.1, fun a => ihq a (h.2 a)⟩
  | choose c p q ihp ihq => exact ⟨ihp h.1, ihq h.2⟩

theorem Within.imp {p : Plan m} (h : p.Within P s) (hPQ : ∀ {op}, P op → Q op) : p.Within Q s :=
  fun x hx => hPQ (h x hx)

theorem within_value {a : α} : (Plan.value a).Within P s := fun _ hx => absurd hx List.not_mem_nil

theorem within_act {op : CheckOp} (h : P op) : (Plan.act op).Within P s := by
  intro x hx
  rwa [List.mem_singleton.mp hx]

theorem Within.next {p : Plan m} {q : (a : α) → Plan (f a)} (hp : p.Within P s)
    (hq : (q (m.run s).1).Within P (m.run s).2) : (p.next q).Within P s := by
  intro x hx
  cases List.mem_append.mp hx with
  | inl hx => exact hp x hx
  | inr hx => exact hq x hx

theorem Within.of_next {p : Plan m} {q : (a : α) → Plan (f a)} (h : (p.next q).Within P s) :
    p.Within P s ∧ (q (m.run s).1).Within P (m.run s).2 :=
  ⟨fun x hx => h x (List.mem_append_left _ hx), fun x hx => h x (List.mem_append_right _ hx)⟩

theorem Within.look {f : CheckState → Check β} {q : (found : CheckState) → Plan (f found)}
    (h : P .look) (hq : (q s).Within P s) : ((Plan.act .look).next q).Within P s :=
  (within_act h).next hq

theorem Within.choose {m' : Check α} {p : Plan m} {q : Plan m'} {c : Prop} [Decidable c]
    (hp : c → p.Within P s) (hq : ¬ c → q.Within P s) : (Plan.choose c p q).Within P s := by
  by_cases hc : c
  · simp only [Within, history, hc, ↓reduceIte]
    exact hp hc
  · simp only [Within, history, hc, ↓reduceIte]
    exact hq hc

theorem All.within {p : Plan m} (h : p.All P) (s : CheckState) : p.Within P s := by
  induction p generalizing s with
  | value a => exact within_value
  | act op => exact within_act h
  | next p q ihp ihq => exact (ihp h.1 s).next (ihq _ (h.2 _) _)
  | choose c p q ihp ihq => exact .choose (fun _ => ihp h.1 s) fun _ => ihq h.2 s

end Plan

theorem CheckOp.Plain.silent {free : Bool} {op : CheckOp} (h : op.Plain free) (s : CheckState) :
    Silent s (op.perform.run s).2 := by
  cases op with
  | record | recordReturn | pushScope | popScope | define => exact absurd h id
  | _ => exact ⟨rfl, rfl, rfl⟩

theorem Plan.Within.silent {α : Type} {m : Check α} {free : Bool} {p : Plan m} {s : CheckState}
    (h : p.Within (CheckOp.Plain free) s) : Silent s (m.run s).2 := by
  induction p generalizing s with
  | value a => exact .refl s
  | act op => exact (h (s, op) (List.mem_singleton_self _)).silent s
  | next p q ihp ihq =>
    obtain ⟨hp, hq⟩ := h.of_next
    exact (ihp hp).trans (ihq _ hq)
  | choose c p q ihp ihq =>
    by_cases hc : c
    · simp only [Within, history, hc, ↓reduceIte] at h ⊢
      exact ihp h
    · simp only [Within, history, hc, ↓reduceIte] at h ⊢
      exact ihq h

namespace Check

variable {o : CheckOptions} {place leftPlace rightPlace : Place} {left right type : TypeId} {free : Bool}

theorem unify_plain : (unifyPlan left right place).All (CheckOp.Plain free) := by
  refine .next trivial fun outcome => ?_
  cases outcome with
  | ok => trivial
  | error clash => exact ⟨trivial, fun _ => trivial⟩

theorem tie_plain : (tiePlan left right place).All (CheckOp.Plain free) :=
  ⟨unify_plain, fun _ => trivial⟩

theorem lookup_plain (word : String) : (lookupPlan word).All (CheckOp.Plain free) :=
  ⟨trivial, fun _ => trivial⟩

theorem identType_plain (node : NodeId) (word : String) :
    (identTypePlan node word).All (CheckOp.Plain true) := by
  refine .next (lookup_plain word) fun found => ?_
  cases found with
  | some type => trivial
  | none =>
    refine .next trivial fun (found : CheckState) => ?_
    cases found.nodeTypes.get? node with
    | some type => trivial
    | none => exact rfl

theorem compared_plain {α : Type} {apart : String → String → Check α} {one : Check α}
    {failed : Option String → Option String → Check α} {onApart : ∀ l r, Plan (apart l r)}
    {onOne : Plan one} {onFailed : ∀ a b, Plan (failed a b)}
    (hapart : ∀ l r, (onApart l r).All (CheckOp.Plain free)) (hone : onOne.All (CheckOp.Plain free))
    (hfailed : ∀ a b, (onFailed a b).All (CheckOp.Plain free)) :
    (comparedPlan place left right onApart onOne onFailed).All (CheckOp.Plain free) := by
  refine .next trivial fun a => .next trivial fun b => ?_
  cases differ a b with
  | some pair => exact hapart pair.1 pair.2
  | none =>
    refine .next unify_plain fun ok => ?_
    cases ok with
    | true => exact hone
    | false => exact hfailed a b

theorem addType_plain : (addTypePlan place left right).All (CheckOp.Plain free) :=
  compared_plain (fun _ _ => ⟨trivial, fun _ => trivial⟩) trivial fun _ _ => ⟨trivial, fun _ => trivial⟩

theorem sameType_plain : (sameTypePlan place left right).All (CheckOp.Plain free) :=
  compared_plain (fun _ _ => ⟨trivial, fun _ => trivial⟩) trivial fun _ _ => ⟨trivial, fun _ => trivial⟩

theorem reportOperand_plain (side : Side) (name : Option String) :
    (reportOperandPlan place side name).All (CheckOp.Plain free) := by
  cases name with
  | none => trivial
  | some found => exact ⟨trivial, trivial⟩

theorem coerceOperand_plain {number : TypeId} (name : Option String) :
    (coerceOperandPlan place type number name).All (CheckOp.Plain free) := by
  cases name with
  | some found => trivial
  | none => exact tie_plain

theorem mulType_plain : (mulTypePlan leftPlace rightPlace left right).All (CheckOp.Plain free) :=
  ⟨trivial, fun a => ⟨trivial, fun b => ⟨trivial, fun _ =>
    ⟨reportOperand_plain .left a, fun _ => ⟨reportOperand_plain .right b, fun _ =>
      ⟨coerceOperand_plain a, fun _ => ⟨coerceOperand_plain b, fun _ => trivial⟩⟩⟩⟩⟩⟩⟩

theorem binaryType_plain (op : BinaryOp) :
    (binaryTypePlan place leftPlace rightPlace left right op).All (CheckOp.Plain free) := by
  cases op with
  | add => exact addType_plain
  | mul => exact mulType_plain
  | sub | div => exact sameType_plain

theorem branches_plain {consequent alternate : TypeId} :
    (branchesPlan place consequent alternate).All (CheckOp.Plain free) := by
  refine .next trivial fun a => .next trivial fun b => ?_
  cases differ a b with
  | some pair => exact ⟨trivial, fun _ => trivial⟩
  | none => exact ⟨unify_plain, fun _ => trivial⟩

theorem conditionalType_plain {testPlace : Place} {test consequent alternate : TypeId} :
    (conditionalTypePlan place testPlace test consequent alternate).All (CheckOp.Plain free) := by
  refine .next trivial fun boolean => .next trivial fun name => ?_
  cases differ name (some "Boolean") with
  | some pair => exact ⟨trivial, fun _ => branches_plain⟩
  | none => exact ⟨unify_plain, fun _ => branches_plain⟩

theorem isBound_plain (callee : Expr) : (isBoundPlan callee).All (CheckOp.Plain free) := by
  cases callee with
  | ident node word => exact ⟨lookup_plain word, fun _ => trivial⟩
  | _ => trivial

theorem callType_plain (callee : Expr) {result : TypeId} {args : List TypeId} :
    (callTypePlan place callee result args).All (CheckOp.Plain free) := by
  refine .next (isBound_plain callee) fun bound => ?_
  match bound, args with
  | true, [arg] => exact tie_plain
  | true, [] | true, _ :: _ :: _ | false, _ => trivial

theorem elementType_plain {first element : TypeId} (name : Option String) :
    (elementTypePlan place first name element).All (CheckOp.Plain free) := by
  refine .next trivial fun elementName => ?_
  cases differ name elementName with
  | some pair => trivial
  | none =>
    refine .next unify_plain fun ok => ?_
    cases ok <;> trivial

theorem checkAgainst_plain (declared : TypeExpr) :
    (checkAgainstPlan place type declared).All (CheckOp.Plain free) :=
  ⟨trivial, fun _ => tie_plain⟩

theorem checkResult_plain (result : Option TypeExpr) :
    (checkResultPlan o place type result).All (CheckOp.Plain free) := by
  cases result with
  | none => trivial
  | some declared => exact ⟨checkAgainst_plain declared, trivial⟩

theorem checkReturn_plain (arrow : NodeId) (result : TypeExpr) :
    (checkReturnPlan place arrow result).All (CheckOp.Plain free) := by
  refine .next trivial fun annotated => .next trivial fun (found : CheckState) => ?_
  cases found.returnTypes.get? arrow with
  | some inferred => exact tie_plain
  | none => trivial

theorem chooseMember_plain (name : Option String) (members : List TypeExpr) :
    (chooseMemberPlan name members).All (CheckOp.Plain free) := by
  induction members with
  | nil => trivial
  | cons member rest ih =>
    refine .next trivial fun type => .next trivial fun memberName => ?_
    cases differ name memberName with
    | some pair => exact ih
    | none => trivial

section ReadBack

/-- There is a type for the node, or a free one may be made. -/
def Found (free : Bool) (id : NodeId) (s : CheckState) : Prop :=
  free = true ∨ (s.nodeTypes.get? id).isSome

variable {s : CheckState}

theorem Found.silent {s' : CheckState} {id : NodeId} (h : Found free id s) (hs : Silent s s') :
    Found free id s' := by
  rwa [Found, hs.types]

theorem recorded_within {id : NodeId} (h : Found free id s) :
    (recordedPlan id).Within (CheckOp.Plain free) s := by
  refine Plan.Within.look (P := CheckOp.Plain free) trivial ?_
  cases hget : s.nodeTypes.get? id with
  | some type => exact Plan.within_value
  | none =>
    have hfree : free = true := by simpa [Found, hget] using h
    exact Plan.within_act hfree

theorem within_next {α β : Type} {m : Check α} {f : α → Check β} {p : Plan m}
    {q : (a : α) → Plan (f a)} {ids : List NodeId} (hids : ∀ id ∈ ids, Found free id s)
    (hp : p.Within (CheckOp.Plain free) s)
    (hq : ∀ a s', (∀ id ∈ ids, Found free id s') → (q a).Within (CheckOp.Plain free) s') :
    (p.next q).Within (CheckOp.Plain free) s :=
  hp.next (hq _ _ fun id hid => (hids id hid).silent hp.silent)

theorem checkParams_within (pairs : List (Field × Param))
    (h : ∀ id ∈ pairs.map (·.2.node.id), Found free id s) :
    (checkParamsPlan place pairs).Within (CheckOp.Plain free) s := by
  induction pairs generalizing s with
  | nil => exact Plan.within_value
  | cons pair rest ih =>
    refine within_next (p := .act (.annotated (some pair.1.type))) h (Plan.within_act trivial) ?_
    intro annotated s₁ h₁
    apply within_next h₁ (recorded_within (h₁ _ List.mem_cons_self))
    intro actual s₂ h₂
    apply within_next h₂ (unify_plain.within s₂)
    intro _ s₃ h₃
    exact ih fun id hid => h₃ id (List.mem_cons_of_mem _ hid)

theorem checkField_within (field : Field) {rest : Check Unit} {p : Plan rest} {ids : List NodeId}
    (h : ∀ id ∈ ids, Found free id s) (found : Option Property)
    (hfound : ∀ property, found = some property → property.value.id ∈ ids)
    (hp : ∀ {s'}, (∀ id ∈ ids, Found free id s') → p.Within (CheckOp.Plain free) s') :
    (checkFieldPlan place field p found).Within (CheckOp.Plain free) s := by
  cases found with
  | none => exact within_next h (Plan.within_act trivial) fun _ _ => hp
  | some property =>
    apply within_next h (recorded_within (h _ (hfound property rfl)))
    intro actual s₁ h₁
    refine within_next (p := .act (.annotated (some field.type))) h₁ (Plan.within_act trivial) ?_
    intro annotated s₂ h₂
    exact within_next h₂ (unify_plain.within s₂) fun _ _ => hp

theorem checkFields_within (properties : List Property) (fields : List Field)
    (h : ∀ id ∈ properties.map (·.value.id), Found free id s) :
    (checkFieldsPlan place properties fields).Within (CheckOp.Plain free) s := by
  induction fields generalizing s with
  | nil => exact Plan.within_value
  | cons field rest ih =>
    refine checkField_within field h _ (fun property hproperty => ?_) ih
    have hmem : property ∈ properties := List.mem_reverse.mp (List.mem_of_find?_eq_some hproperty)
    exact List.mem_map_of_mem hmem

theorem checkElements_within {common : TypeId} (elements : List Expr)
    (h : ∀ id ∈ elements.map Expr.id, Found free id s) :
    (checkElementsPlan common elements).Within (CheckOp.Plain free) s := by
  induction elements generalizing s with
  | nil => exact Plan.within_value
  | cons e rest ih =>
    apply within_next h (recorded_within (h _ List.mem_cons_self))
    intro actual s₁ h₁
    apply within_next h₁ (unify_plain.within s₁)
    intro _ s₂ h₂
    exact ih fun id hid => h₂ id (List.mem_cons_of_mem _ hid)

/-- The nodes whose types are read back when a value is compared with a type that is written for it. -/
def partIds : Expr → List NodeId
  | .arrow _ params _ _ => params.map (·.node.id)
  | .array _ elements => elements.map Expr.id
  | .object _ properties => properties.map (·.value.id)
  | _ => []

theorem when_within {α : Type} {enabled : Bool} {m : Check Unit} {k : Check α} {p : Plan m} {q : Plan k}
    (hp : p.Within (CheckOp.Plain free) s)
    (hq : ∀ s', Silent s s' → q.Within (CheckOp.Plain free) s') :
    (whenPlan enabled p q).Within (CheckOp.Plain free) s :=
  .choose (fun _ => hp.next (hq _ hp.silent)) fun _ => hq s (.refl s)

theorem declaredFunction_within (params : List Field) (result : TypeExpr) (span : Span) (value : Expr)
    (h : ∀ id ∈ partIds value, Found free id s) :
    (declaredFunctionPlan o place type params result span value).Within (CheckOp.Plain free) s := by
  cases value with
  | arrow node actual _ _ =>
    apply when_within ((checkReturn_plain node.id result).within s)
    intro s₁ h₁
    refine when_within (checkParams_within (params.zip actual) fun id hid => ?_) fun s₂ _ => ?_
    · obtain ⟨pair, hpair, rfl⟩ := List.mem_map.mp hid
      exact (h _ (List.mem_map_of_mem (List.of_mem_zip hpair).2)).silent h₁
    · apply Plan.All.within
      exact ⟨trivial, fun _ => tie_plain⟩
  | _ => exact (checkAgainst_plain _).within s

theorem declaredObject_within (fields : List Field) (span : Span) (value : Expr)
    (h : ∀ id ∈ partIds value, Found free id s) :
    (declaredObjectPlan o place type fields span value).Within (CheckOp.Plain free) s := by
  cases value with
  | object node properties =>
    refine within_next (p := .act (.annotated (some (.object fields span)))) h
      (Plan.within_act trivial) ?_
    intro annotated s₁ h₁
    exact (checkFields_within properties fields h₁).next (tie_plain.within _)
  | _ => exact (checkAgainst_plain _).within s

theorem declaredArray_within (element : TypeExpr) (span : Span) (value : Expr)
    (h : ∀ id ∈ partIds value, Found free id s) :
    (declaredArrayPlan o place type element span value).Within (CheckOp.Plain free) s := by
  cases value with
  | array node elements =>
    refine within_next (p := .act (.annotated (some element))) h (Plan.within_act trivial) ?_
    intro common s₁ h₁
    exact (checkElements_within elements h₁).next ((checkAgainst_plain _).within _)
  | _ => exact (checkAgainst_plain _).within s

/-- A comparison with a written type makes no free type if all parts of the value have types. -/
theorem checkDeclared_within (value : Expr) (declared : TypeExpr)
    (h : ∀ id ∈ partIds value, Found free id s) :
    (checkDeclaredPlan o place value type declared).Within (CheckOp.Plain free) s := by
  cases declared with
  | function params result span => exact declaredFunction_within params result span value h
  | object fields span => exact declaredObject_within fields span value h
  | array element span => exact declaredArray_within element span value h
  | union members span =>
    apply Plan.All.within
    refine .next trivial fun name => .next (chooseMember_plain name members) fun member => ?_
    cases member with
    | some member => exact tie_plain
    | none => trivial
  | named word span => exact (checkAgainst_plain _).within s

end ReadBack

end Check

end ArrowCheck
