import ArrowCheck.Typing.Checker

namespace ArrowCheck

abbrev Labelling := NodeId → String

/-- The node that binds each name in scope: the nearest parameter or declared name. -/
abbrev Binders := String → Option NodeId

def Binders.bind (env : Binders) (name : String) (id : NodeId) : Binders :=
  fun other => if other = name then some id else env other

def Binders.bindParams (env : Binders) (params : List Param) : Binders :=
  params.foldl (fun env p => env.bind p.name p.node.id) env

/-- The name that an annotation stands for. Object and union types stand for none. -/
def TypeExpr.label? : TypeExpr → Option String
  | .named name _ => some (canonicalName name)
  | .array .. => some "Array"
  | .function .. => some "Function"
  | .object .. | .union .. => none

/-- A label that does not contradict an annotation. -/
def TypeExpr.Allows (type : TypeExpr) (label : String) : Prop :=
  ∀ name, type.label? = some name → label = name

/-- What an operator asks of the labels of its operands and its result. -/
def BinaryOp.Joins : BinaryOp → (left right result : String) → Prop
  | .mul, left, right, result => left = "Number" ∧ right = "Number" ∧ result = "Number"
  | .add, left, right, result | .sub, left, right, result | .div, left, right, result =>
    left = right ∧ result = left

def Expr.IsBound (env : Binders) : Expr → Prop
  | .ident _ name => (env name).isSome
  | _ => False

def lastProperty? (properties : List Property) (key : String) : Option Property :=
  properties.reverse.find? (·.key = key)

/-- What a declaration asks of its value's labels. An arrow function, object or array literal is also
compared part by part with a type of its kind. -/
def Declares (options : CheckOptions) (t : Labelling) : TypeExpr → Expr → Prop
  | .function params result _, .arrow node actual _ body =>
    t node.id = "Function" ∧
      (options.returnTypes = true → result.Allows (t body.node.id)) ∧
      (options.parameterTypes = true →
        ∀ pair ∈ params.zip actual, pair.1.type.Allows (t pair.2.node.id))
  | .object fields _, .object _ properties =>
    ∀ field ∈ fields, ∀ property, lastProperty? properties field.name = some property →
      field.type.Allows (t property.value.id)
  | .array element _, .array node elements =>
    t node.id = "Array" ∧ ∀ e ∈ elements, element.Allows (t e.id)
  | type, value => type.Allows (t value.id)

def Stmt.label (t : Labelling) : Stmt → String
  | .const _ _ _ value => t value.id
  | .ret _ (some argument) => t argument.id
  | .ret _ none => "Void"

def lastLabel (t : Labelling) : (first : String) → List Stmt → String
  | last, [] => last
  | _, s :: ss => lastLabel t (s.label t) ss

/-- The names in scope behind a statement. -/
def Stmt.binders (env : Binders) : Stmt → Binders
  | .const _ name _ _ => env.bind name.name name.node.id
  | .ret .. => env

mutual

/-- The labels are as an expression asks for, where `env` gives the names in scope. -/
def Expr.Labelled (options : CheckOptions) (t : Labelling) : Expr → Binders → Prop
  | .string node _, _ => t node.id = "String"
  | .number node _, _ => t node.id = "Number"
  | .boolean node _, _ => t node.id = "Boolean"
  | .ident node name, env => ∀ binder, env name = some binder → t node.id = t binder
  | .binary node op left right, env =>
    left.Labelled options t env ∧ right.Labelled options t env ∧
      op.Joins (t left.id) (t right.id) (t node.id)
  | .conditional node test consequent alternate, env =>
    test.Labelled options t env ∧ consequent.Labelled options t env ∧
      alternate.Labelled options t env ∧
      t test.id = "Boolean" ∧ t consequent.id = t alternate.id ∧ t node.id = t consequent.id
  | .call node callee args, env =>
    callee.Labelled options t env ∧ exprsLabelled options t args env ∧
      ∀ arg, callee.IsBound env → args = [arg] → t node.id = t arg.id
  | .arrow node params result body, env =>
    t node.id = "Function" ∧
      (∀ p ∈ params, ∀ type, p.type = some type → type.Allows (t p.node.id)) ∧
      body.Labelled options t (env.bindParams params) ∧
      (options.returnTypes = true → ∀ type, result = some type → type.Allows (t body.node.id))
  | .array node elements, env =>
    t node.id = "Array" ∧ exprsLabelled options t elements env ∧
      ∀ a ∈ elements, ∀ b ∈ elements, t a.id = t b.id
  | .object _ properties, env => propertiesLabelled options t properties env
  | .error _, _ => True
termination_by structural e => e

def exprsLabelled (options : CheckOptions) (t : Labelling) : List Expr → Binders → Prop
  | [], _ => True
  | e :: es, env => e.Labelled options t env ∧ exprsLabelled options t es env
termination_by structural es => es

def propertiesLabelled (options : CheckOptions) (t : Labelling) : List Property → Binders → Prop
  | [], _ => True
  | ⟨_, _, value⟩ :: ps, env =>
    value.Labelled options t env ∧ propertiesLabelled options t ps env
termination_by structural ps => ps

def Stmt.Labelled (options : CheckOptions) (t : Labelling) : Stmt → Binders → Prop
  | .const _ name type value, env =>
    value.Labelled options t env ∧ t name.node.id = t value.id ∧
      ∀ declared, type = some declared → Declares options t declared value
  | .ret _ (some argument), env => argument.Labelled options t env
  | .ret _ none, _ => True
termination_by structural s => s

/-- The statements of a block, one after the other; a block has the label of the last. -/
def Block.Labelled (options : CheckOptions) (t : Labelling) : Block → Binders → Prop
  | ⟨node, statements⟩, env =>
    stmtsLabelled options t statements env ∧ t node.id = lastLabel t "Void" statements
termination_by structural b => b

def stmtsLabelled (options : CheckOptions) (t : Labelling) : List Stmt → Binders → Prop
  | [], _ => True
  | s :: ss, env => s.Labelled options t env ∧ stmtsLabelled options t ss (s.binders env)
termination_by structural ss => ss

end

/-- The labels are as a program asks for; no name is in scope at its start. -/
def Program.Labelled (options : CheckOptions) (t : Labelling) (p : Program) : Prop :=
  stmtsLabelled options t p.statements fun _ => none

section Everywhere

variable (P : Expr → Prop) (Q : Stmt → Prop)

mutual

def Expr.Every : Expr → Prop
  | .string n v => P (.string n v)
  | .number n v => P (.number n v)
  | .boolean n v => P (.boolean n v)
  | .ident n name => P (.ident n name)
  | .binary n op l r => P (.binary n op l r) ∧ l.Every ∧ r.Every
  | .conditional n c a b => P (.conditional n c a b) ∧ c.Every ∧ a.Every ∧ b.Every
  | .call n f args => P (.call n f args) ∧ f.Every ∧ everyExpr args
  | .arrow n params result body => P (.arrow n params result body) ∧ body.Every
  | .array n elements => P (.array n elements) ∧ everyExpr elements
  | .object n properties => P (.object n properties) ∧ everyProperty properties
  | .error n => P (.error n)
termination_by structural e => e

def everyExpr : List Expr → Prop
  | [] => True
  | e :: es => e.Every ∧ everyExpr es
termination_by structural es => es

def everyProperty : List Property → Prop
  | [] => True
  | ⟨_, _, value⟩ :: ps => value.Every ∧ everyProperty ps
termination_by structural ps => ps

def Stmt.Every : Stmt → Prop
  | .const n name type value => Q (.const n name type value) ∧ value.Every
  | .ret n (some e) => Q (.ret n (some e)) ∧ e.Every
  | .ret n none => Q (.ret n none)
termination_by structural s => s

def Block.Every : Block → Prop
  | ⟨_, statements⟩ => everyStmt statements
termination_by structural b => b

def everyStmt : List Stmt → Prop
  | [] => True
  | s :: ss => s.Every ∧ everyStmt ss
termination_by structural ss => ss

end

end Everywhere

def Program.Every (P : Expr → Prop) (Q : Stmt → Prop) (p : Program) : Prop :=
  everyStmt P Q p.statements

/-- The expression was read from source text; trees built by hand can hold errors in its place. -/
def Expr.IsProper : Expr → Prop
  | .error _ => False
  | _ => True

/-- An object literal that is declared with an object type has each field of the type among its
keys. -/
def Stmt.HasFields : Stmt → Prop
  | .const _ _ (some (.object fields _)) (.object _ properties) =>
    ∀ field ∈ fields, ∃ property ∈ properties, property.key = field.name
  | _ => True

def Stmt.DeclaresUnion : Stmt → Prop
  | .const _ _ (some (.union ..)) _ => True
  | _ => False

mutual

/-- The ids of all nodes that have a label, in the order in which they are checked. -/
def Expr.labelIds : Expr → List NodeId
  | .string n _ | .number n _ | .boolean n _ | .ident n _ | .error n => [n.id]
  | .binary n _ l r => l.labelIds ++ r.labelIds ++ [n.id]
  | .conditional n c a b => c.labelIds ++ a.labelIds ++ b.labelIds ++ [n.id]
  | .call n f args => f.labelIds ++ exprIds args ++ [n.id]
  | .arrow n params _ body => params.map (·.node.id) ++ body.labelIds ++ [n.id]
  | .array n elements => exprIds elements ++ [n.id]
  | .object n properties => propertyIds properties ++ [n.id]
termination_by structural e => e

def exprIds : List Expr → List NodeId
  | [] => []
  | e :: es => e.labelIds ++ exprIds es
termination_by structural es => es

def propertyIds : List Property → List NodeId
  | [] => []
  | ⟨_, _, value⟩ :: ps => value.labelIds ++ propertyIds ps
termination_by structural ps => ps

def Stmt.labelIds : Stmt → List NodeId
  | .const _ name _ value => value.labelIds ++ [name.node.id]
  | .ret _ (some e) => e.labelIds
  | .ret _ none => []
termination_by structural s => s

def Block.labelIds : Block → List NodeId
  | ⟨n, statements⟩ => stmtIds statements ++ [n.id]
termination_by structural b => b

def stmtIds : List Stmt → List NodeId
  | [] => []
  | s :: ss => s.labelIds ++ stmtIds ss
termination_by structural ss => ss

end

/-- The ids of the expressions, blocks, parameters and declared names of a program. Statements and
properties have ids too, under which nothing is recorded. -/
def Program.labelIds (p : Program) : List NodeId := stmtIds p.statements

end ArrowCheck
