import ArrowCheck.Typing.Checker

namespace ArrowCheck

open Check

/-- A single operation of the checker on its state. -/
inductive CheckOp
  | fresh
  | concrete (text : String)
  | object (fields : Table String TypeId)
  | annotated (type : Option TypeExpr)
  | name (type : TypeId)
  | unify (left right : TypeId)
  | look
  | report (fault : TypeFault) (place : Place)
  | record (node : NodeId) (type : TypeId)
  | recordReturn (arrow : NodeId) (type : TypeId)
  | pushScope
  | popScope
  | define (word : String) (type : TypeId)

namespace CheckOp

def Answer : CheckOp → Type
  | fresh | concrete _ | object _ | annotated _ => TypeId
  | name _ => Option String
  | unify _ _ => Except Clash Unit
  | look => CheckState
  | report _ _ | record _ _ | recordReturn _ _ | pushScope | popScope | define _ _ => Unit

def perform : (op : CheckOp) → Check op.Answer
  | fresh => Check.fresh
  | concrete text => Check.concrete text
  | object fields => onStore (·.object fields)
  | annotated type => onStore (translateOptional type)
  | name type => concreteName type
  | unify left right => onStore (·.unify left right)
  | look => get
  | report fault place => Check.report fault place
  | record node type => Check.record node type
  | recordReturn arrow type => Check.recordReturn arrow type
  | pushScope => Check.pushScope
  | popScope => Check.popScope
  | define word type => Check.define word type

end CheckOp

/-- The operations that a step of the checker consists of. -/
inductive Plan : {α : Type} → Check α → Type 1
  | value {α : Type} (a : α) : Plan (pure a : Check α)
  | act (op : CheckOp) : Plan op.perform
  | next {α β : Type} {m : Check α} {f : α → Check β} (p : Plan m) (q : (a : α) → Plan (f a)) :
    Plan (m >>= f)
  | choose {α : Type} {m m' : Check α} (c : Prop) [d : Decidable c] (p : Plan m) (q : Plan m') :
    Plan (if c then m else m')

/-- The operations of a run from a state, each with the state in which it is performed. -/
def Plan.history {α : Type} {m : Check α} : Plan m → CheckState → List (CheckState × CheckOp)
  | .value _, _ => []
  | .act op, s => [(s, op)]
  | .next (m := m) p q, s => p.history s ++ (q (m.run s).1).history (m.run s).2
  | .choose (d := _) c p q, s => if c then p.history s else q.history s

namespace Plan

variable {α β : Type} {m : Check α} {f : α → Check β} {s : CheckState}

/-- A run from `s` ends in a value and a state with the property, which may also be about the operations
of the run. -/
def Traces (p : Plan m) (s : CheckState)
    (R : α → CheckState → List (CheckState × CheckOp) → Prop) : Prop :=
  R (m.run s).1 (m.run s).2 (p.history s)

theorem Traces.next {p : Plan m} {q : (a : α) → Plan (f a)}
    {Q : α → CheckState → List (CheckState × CheckOp) → Prop}
    {R : β → CheckState → List (CheckState × CheckOp) → Prop} (hp : p.Traces s Q)
    (hq : ∀ a s₁ ops, Q a s₁ ops → (q a).Traces s₁ fun b s₂ ops' => R b s₂ (ops ++ ops')) :
    (p.next q).Traces s R := hq _ _ _ hp

theorem Traces.run {p : Plan m} {q : (a : α) → Plan (f a)}
    {R : β → CheckState → List (CheckState × CheckOp) → Prop}
    (hq : (q (m.run s).1).Traces (m.run s).2 fun b s₂ ops => R b s₂ (p.history s ++ ops)) :
    (p.next q).Traces s R := hq

theorem Traces.last {p : Plan m} {q : (a : α) → Plan (f a)} {R : β → CheckState → Prop}
    (hq : ∀ a s₁, (q a).Traces s₁ fun b s₂ _ => R b s₂) : (p.next q).Traces s fun b s₂ _ => R b s₂ :=
  hq _ _

theorem Traces.choose {m' : Check α} {p : Plan m} {q : Plan m'} {c : Prop} [Decidable c]
    {R : α → CheckState → List (CheckState × CheckOp) → Prop} (hp : c → p.Traces s R)
    (hq : ¬ c → q.Traces s R) : (Plan.choose c p q).Traces s R := by
  by_cases hc : c
  · simp only [Traces, history, hc, ↓reduceIte]
    exact hp hc
  · simp only [Traces, history, hc, ↓reduceIte]
    exact hq hc

theorem Traces.imp {p : Plan m} {R R' : α → CheckState → List (CheckState × CheckOp) → Prop}
    (h : p.Traces s R) (hR : ∀ a s' ops, R a s' ops → R' a s' ops) : p.Traces s R' := hR _ _ _ h

end Plan

namespace Check

def unifyPlan (left right : TypeId) (place : Place) : Plan (Check.unify left right place) :=
  .next (.act (.unify left right)) fun
    | .ok () => .value true
    | .error clash =>
      .next (.act (.report (.unify clash.left clash.right) place)) fun _ => .value false

def tiePlan (left right : TypeId) (place : Place) :
    Plan (do let _ ← Check.unify left right place) :=
  .next (unifyPlan left right place) fun _ => .value ()

def recordedPlan (node : NodeId) : Plan (recorded node) :=
  .next (.act .look) fun s =>
    match s.nodeTypes.get? node with
    | some type => .value type
    | none => .act .fresh

def lookupPlan (word : String) : Plan (lookup word) :=
  .next (.act .look) fun s => .value (s.scopes.lookup word)

def identTypePlan (node : NodeId) (word : String) : Plan (identType node word) :=
  .next (lookupPlan word) fun
    | some type => .value type
    | none => recordedPlan node

def recordPlan (node : NodeId) (type : TypeId) : Plan (do record node type; return type) :=
  .next (.act (.record node type)) fun _ => .value type

section Operators

variable (place leftPlace rightPlace : Place) (left right : TypeId)

def comparedPlan {α : Type} {apart : String → String → Check α} {one : Check α}
    {failed : Option String → Option String → Check α} (onApart : ∀ l r, Plan (apart l r))
    (onOne : Plan one) (onFailed : ∀ a b, Plan (failed a b)) :
    Plan (do
      let leftName ← concreteName left
      let rightName ← concreteName right
      match differ leftName rightName with
      | some (l, r) => apart l r
      | none => do if ← Check.unify left right place then one else failed leftName rightName) :=
  .next (.act (.name left)) fun leftName => .next (.act (.name right)) fun rightName =>
    match differ leftName rightName with
    | some (l, r) => onApart l r
    | none => .next (unifyPlan left right place) fun
      | true => onOne
      | false => onFailed leftName rightName

def addTypePlan : Plan (addType place left right) :=
  (comparedPlan place left right
    (fun l r => .next (.act (.report (.addMismatch l r) place)) fun _ => .act (.concrete "Number"))
    (.value left)
    fun a b => .next (.act (.report (.addMismatch (a.getD "unknown") (b.getD "unknown")) place))
      fun _ => .act (.concrete "Number") :)

def reportOperandPlan (side : Side) (name : Option String) : Plan (reportOperand side place name) :=
  match name with
  | some found =>
    .choose (found = "Number") (.value ()) (.act (.report (.mulOperand side found) place))
  | none => .value ()

def coerceOperandPlan (type number : TypeId) (name : Option String) :
    Plan (coerceOperand place type number name) :=
  match name with
  | some _ => .value ()
  | none => tiePlan type number place

def mulTypePlan : Plan (mulType leftPlace rightPlace left right) :=
  .next (.act (.name left)) fun leftName => .next (.act (.name right)) fun rightName =>
    .next (.act (.concrete "Number")) fun number =>
      .next (reportOperandPlan leftPlace .left leftName) fun _ =>
        .next (reportOperandPlan rightPlace .right rightName) fun _ =>
          .next (coerceOperandPlan leftPlace left number leftName) fun _ =>
            .next (coerceOperandPlan rightPlace right number rightName) fun _ => .value number

def sameTypePlan : Plan (sameType place left right) :=
  (comparedPlan place left right
    (fun l r => .next (.act (.report (.operandMismatch l r) place)) fun _ => .value left)
    (.value left)
    fun _ _ => .next (.act (.report .operandUnifyFailed place)) fun _ => .value left :)

def binaryTypePlan (op : BinaryOp) : Plan (binaryType op place leftPlace rightPlace left right) :=
  match op with
  | .add => addTypePlan place left right
  | .mul => mulTypePlan leftPlace rightPlace left right
  | .sub | .div => sameTypePlan place left right

def branchesPlan (consequent alternate : TypeId) :
    Plan (do
      let consequentName ← concreteName consequent
      let alternateName ← concreteName alternate
      match differ consequentName alternateName with
      | some (c, a) => do
        report (.branchMismatch c a) place
        pure consequent
      | none => do
        let _ ← Check.unify consequent alternate place
        pure consequent) :=
  .next (.act (.name consequent)) fun consequentName =>
    .next (.act (.name alternate)) fun alternateName =>
      match differ consequentName alternateName with
      | some (c, a) =>
        .next (.act (.report (.branchMismatch c a) place)) fun _ => .value consequent
      | none => .next (unifyPlan consequent alternate place) fun _ => .value consequent

def conditionalTypePlan (testPlace : Place) (test consequent alternate : TypeId) :
    Plan (conditionalType place testPlace test consequent alternate) :=
  .next (.act (.concrete "Boolean")) fun boolean => .next (.act (.name test)) fun testName =>
    match differ testName (some "Boolean") with
    | some (found, _) =>
      .next (.act (.report (.testNotBoolean found) testPlace)) fun _ =>
        branchesPlan place consequent alternate
    | none =>
      .next (unifyPlan test boolean testPlace) fun _ => branchesPlan place consequent alternate

def isBoundPlan (callee : Expr) : Plan (isBound callee) :=
  match callee with
  | .ident _ word => .next (lookupPlan word) fun found => .value found.isSome
  | .string .. | .number .. | .boolean .. | .binary .. | .conditional .. | .call .. | .arrow ..
  | .array .. | .object .. | .error .. => .value false

def callTypePlan (callee : Expr) (result : TypeId) (args : List TypeId) :
    Plan (callType place callee result args) :=
  .next (isBoundPlan callee) fun bound =>
    match bound, args with
    | true, [arg] => tiePlan result arg place
    | true, [] | true, _ :: _ :: _ | false, _ => .value ()

def elementTypePlan (first : TypeId) (firstName : Option String) (element : TypeId) :
    Plan (elementType place first firstName element) :=
  .next (.act (.name element)) fun elementName =>
    match differ firstName elementName with
    | some (f, e) => .act (.report (.elementMismatch f e) place)
    | none => .next (unifyPlan first element place) fun
      | true => .value ()
      | false => .act (.report .elementUnifyFailed place)

end Operators

section Annotations

variable (options : CheckOptions) (place : Place)

def bindParamsPlan : (params : List Param) → Plan (bindParams params)
  | [] => .value ()
  | p :: ps =>
    .next (.act (.annotated p.type)) fun type => .next (.act (.record p.node.id type)) fun _ =>
      .next (.act (.define p.name type)) fun _ => bindParamsPlan ps

def checkAgainstPlan (init : TypeId) (type : TypeExpr) : Plan (checkAgainst place init type) :=
  .next (.act (.annotated (some type))) fun annotated => tiePlan init annotated place

def checkResultPlan (body : TypeId) (result : Option TypeExpr) :
    Plan (checkResult options place body result) :=
  match result with
  | some type =>
    .choose (options.returnTypes = true) (checkAgainstPlan place body type) (.value ())
  | none => .value ()

def checkReturnPlan (arrow : NodeId) (result : TypeExpr) : Plan (checkReturn place arrow result) :=
  .next (.act (.annotated (some result))) fun annotated => .next (.act .look) fun s =>
    match s.returnTypes.get? arrow with
    | some inferred => tiePlan inferred annotated place
    | none => .value ()

def checkParamsPlan : (pairs : List (Field × Param)) → Plan (checkParams place pairs)
  | [] => .value ()
  | (field, param) :: rest =>
    .next (.act (.annotated (some field.type))) fun annotated =>
      .next (recordedPlan param.node.id) fun actual =>
        .next (unifyPlan actual annotated place) fun _ => checkParamsPlan rest

def checkFieldPlan (field : Field) {rest : Check Unit} (p : Plan rest) (found : Option Property) :
    Plan (match found with
      | none => do
        report (.missingField field.name) place
        rest
      | some property => do
        let actual ← recorded property.value.id
        let annotated ← translate field.type
        let _ ← Check.unify actual annotated property.value.place
        rest) :=
  match found with
  | none => .next (.act (.report (.missingField field.name) place)) fun _ => p
  | some property =>
    .next (recordedPlan property.value.id) fun actual =>
      .next (.act (.annotated (some field.type))) fun annotated =>
        .next (unifyPlan actual annotated property.value.place) fun _ => p

def checkFieldsPlan (properties : List Property) :
    (fields : List Field) → Plan (checkFields place properties fields)
  | [] => .value ()
  | field :: rest =>
    checkFieldPlan place field (checkFieldsPlan properties rest)
      (properties.reverse.find? (·.key = field.name))

def checkElementsPlan (common : TypeId) : (elements : List Expr) → Plan (checkElements common elements)
  | [] => .value ()
  | e :: es =>
    .next (recordedPlan e.id) fun actual =>
      .next (unifyPlan actual common e.place) fun _ => checkElementsPlan common es

def chooseMemberPlan (name : Option String) :
    (members : List TypeExpr) → Plan (chooseMember name members)
  | [] => .value none
  | member :: rest =>
    .next (.act (.annotated (some member))) fun type => .next (.act (.name type)) fun memberName =>
      match differ name memberName with
      | some _ => chooseMemberPlan name rest
      | none => .value (some type)

def whenPlan {α : Type} (enabled : Bool) {m : Check Unit} {k : Check α} (p : Plan m) (q : Plan k) :
    Plan (if enabled = true then (do m; k) else k) :=
  .choose (enabled = true) (.next p fun _ => q) q

def declaredFunctionPlan (init : TypeId) (params : List Field) (result : TypeExpr) (span : Span)
    (value : Expr) : Plan (checkDeclared options place value init (.function params result span)) :=
  match value with
  | .arrow node actual _ _ =>
    whenPlan options.returnTypes (checkReturnPlan place node.id result)
      (whenPlan options.parameterTypes (checkParamsPlan place (params.zip actual))
        (.next (.act (.concrete "Function")) fun function => tiePlan init function place))
  | .string .. | .number .. | .boolean .. | .ident .. | .binary .. | .conditional .. | .call ..
  | .array .. | .object .. | .error .. => checkAgainstPlan place init (.function params result span)

def declaredObjectPlan (init : TypeId) (fields : List Field) (span : Span) (value : Expr) :
    Plan (checkDeclared options place value init (.object fields span)) :=
  match value with
  | .object _ properties =>
    .next (.act (.annotated (some (.object fields span)))) fun annotated =>
      .next (checkFieldsPlan place properties fields) fun _ => tiePlan init annotated place
  | .string .. | .number .. | .boolean .. | .ident .. | .binary .. | .conditional .. | .call ..
  | .arrow .. | .array .. | .error .. => checkAgainstPlan place init (.object fields span)

def declaredArrayPlan (init : TypeId) (element : TypeExpr) (span : Span) (value : Expr) :
    Plan (checkDeclared options place value init (.array element span)) :=
  match value with
  | .array _ elements =>
    .next (.act (.annotated (some element))) fun common =>
      .next (checkElementsPlan common elements) fun _ =>
        checkAgainstPlan place init (.array element span)
  | .string .. | .number .. | .boolean .. | .ident .. | .binary .. | .conditional .. | .call ..
  | .arrow .. | .object .. | .error .. => checkAgainstPlan place init (.array element span)

def checkDeclaredPlan (value : Expr) (init : TypeId) (type : TypeExpr) :
    Plan (checkDeclared options place value init type) :=
  match type with
  | .function params result span => declaredFunctionPlan options place init params result span value
  | .object fields span => declaredObjectPlan options place init fields span value
  | .array element span => declaredArrayPlan options place init element span value
  | .union members _ =>
    .next (.act (.name init)) fun name => .next (chooseMemberPlan name members) fun
      | some member => tiePlan init member place
      | none => .act (.report .unionNoMatch place)
  | .named word span => checkAgainstPlan place init (.named word span)

end Annotations

end Check

open Check

mutual

def Expr.plan (options : CheckOptions) : (e : Expr) → Plan (e.check options)
  | .string node _ => .next (.act (.concrete "String")) fun type => recordPlan node.id type
  | .number node _ => .next (.act (.concrete "Number")) fun type => recordPlan node.id type
  | .boolean node _ => .next (.act (.concrete "Boolean")) fun type => recordPlan node.id type
  | .ident node word => .next (identTypePlan node.id word) fun type => recordPlan node.id type
  | .binary node op left right =>
    .next (left.plan options) fun leftType => .next (right.plan options) fun rightType =>
      .next (binaryTypePlan ⟨node, "BinaryExpression"⟩ left.place right.place leftType rightType op)
        fun type => recordPlan node.id type
  | .conditional node test consequent alternate =>
    .next (test.plan options) fun testType => .next (consequent.plan options) fun consequentType =>
      .next (alternate.plan options) fun alternateType =>
        .next (conditionalTypePlan ⟨node, "ConditionalExpression"⟩ test.place testType
          consequentType alternateType) fun type => recordPlan node.id type
  | .call node callee args =>
    .next (callee.plan options) fun _ => .next (.act .fresh) fun type =>
      .next (checkExprsPlan options args) fun argTypes =>
        .next (callTypePlan ⟨node, "CallExpression"⟩ callee type argTypes) fun _ =>
          recordPlan node.id type
  | .arrow node params result body =>
    .next (.act .pushScope) fun _ => .next (bindParamsPlan params) fun _ =>
      .next (body.plan options) fun bodyType =>
        .next (.act (.recordReturn node.id bodyType)) fun _ =>
          .next (checkResultPlan options ⟨node, "ArrowFunctionExpression"⟩ bodyType result) fun _ =>
            .next (.act .popScope) fun _ => .next (.act (.concrete "Function")) fun type =>
              recordPlan node.id type
  | .array node elements =>
    .next (checkArrayPlan options elements) fun _ => .next (.act (.concrete "Array")) fun type =>
      recordPlan node.id type
  | .object node properties =>
    .next (checkPropertiesPlan options properties) fun fields =>
      .next (.act (.object (Table.ofList fields))) fun type => recordPlan node.id type
  | .error node =>
    .next (.act (.report (.unknownNode "ErrorExpression") ⟨node, "ErrorExpression"⟩)) fun _ =>
      .next (.act .fresh) fun type => recordPlan node.id type
termination_by structural e => e

def checkExprsPlan (options : CheckOptions) : (es : List Expr) → Plan (checkExprs options es)
  | [] => .value []
  | e :: es =>
    .next (e.plan options) fun type => .next (checkExprsPlan options es) fun types =>
      .value (type :: types)
termination_by structural es => es

def checkArrayPlan (options : CheckOptions) : (es : List Expr) → Plan (checkArray options es)
  | [] => .value ()
  | first :: rest =>
    .next (first.plan options) fun type => .next (.act (.name type)) fun name =>
      checkRestPlan options type name rest
termination_by structural es => es

def checkRestPlan (options : CheckOptions) (first : TypeId) (firstName : Option String) :
    (es : List Expr) → Plan (checkRest options first firstName es)
  | [] => .value ()
  | e :: es =>
    .next (e.plan options) fun type => .next (elementTypePlan e.place first firstName type) fun _ =>
      checkRestPlan options first firstName es
termination_by structural es => es

def checkPropertiesPlan (options : CheckOptions) :
    (ps : List Property) → Plan (checkProperties options ps)
  | [] => .value []
  | ⟨_, key, value⟩ :: ps =>
    .next (value.plan options) fun type => .next (checkPropertiesPlan options ps) fun rest =>
      .value ((key, type) :: rest)
termination_by structural ps => ps

def Stmt.plan (options : CheckOptions) : (st : Stmt) → Plan (st.check options)
  | .const node name type value =>
    .next (value.plan options) fun init => .next (.act (.record name.node.id init)) fun _ =>
      .next (.act (.define name.name init)) fun _ =>
        match type with
        | some type =>
          .next (checkDeclaredPlan options ⟨node, "ConstDeclaration"⟩ value init type) fun _ =>
            .value init
        | none => .value init
  | .ret _ (some argument) => argument.plan options
  | .ret _ none => .act (.concrete "Void")
termination_by structural st => st

def Block.plan (options : CheckOptions) : (b : Block) → Plan (b.check options)
  | ⟨node, statements⟩ =>
    .next (.act (.concrete "Void")) fun void => .next (.act .pushScope) fun _ =>
      .next (checkStmtsPlan options statements void) fun type => .next (.act .popScope) fun _ =>
        recordPlan node.id type
termination_by structural b => b

def checkStmtsPlan (options : CheckOptions) :
    (ss : List Stmt) → (last : TypeId) → Plan (checkStmts options ss last)
  | [], last => .value last
  | st :: ss, _ => .next (st.plan options) fun type => checkStmtsPlan options ss type
termination_by structural ss => ss

end

def visitAllPlan (options : CheckOptions) : (ss : List Stmt) → Plan (visitAll options ss)
  | [] => .value []
  | st :: ss =>
    .next (st.plan options) fun type => .next (visitAllPlan options ss) fun types =>
      .value (type :: types)

def CheckState.bindName (s : CheckState) (name : Ident) (type : TypeId) : CheckState :=
  { s with
    nodeTypes := s.nodeTypes.insert name.node.id type
    scopes := s.scopes.define name.name type }

theorem const_history (options : CheckOptions) (node : Node) (name : Ident) (declared : TypeExpr)
    (value : Expr) (s : CheckState) :
    let init := ((value.check options).run s).1
    let visited := ((value.check options).run s).2
    let recorded := { visited with nodeTypes := visited.nodeTypes.insert name.node.id init }
    ((Stmt.const node name (some declared) value).plan options).history s =
      (value.plan options).history s ++
        ([(visited, .record name.node.id init), (recorded, .define name.name init)] ++
          (checkDeclaredPlan options ⟨node, "ConstDeclaration"⟩ value init declared).history
            (visited.bindName name init)) := by
  intro init visited recorded
  -- nothing is done behind the check
  have hlast := List.append_nil
    ((checkDeclaredPlan options ⟨node, "ConstDeclaration"⟩ value init declared).history
      (visited.bindName name init))
  exact congrArg (fun ops => (value.plan options).history s ++ ([_, _] ++ ops)) hlast

end ArrowCheck
