import ArrowCheck.Source.Span

namespace ArrowCheck

mutual

/-- A type as written; a union is the list of its members. -/
inductive TypeExpr
  | named (name : String) (span : Span)
  | array (element : TypeExpr) (span : Span)
  | function (params : List Field) (result : TypeExpr) (span : Span)
  | object (fields : List Field) (span : Span)
  | union (members : List TypeExpr) (span : Span)

/-- A name with its type: a field of an object type or a parameter of a function type. -/
structure Field where
  name : String
  type : TypeExpr
  span : Span

end

namespace TypeExpr

instance : Inhabited TypeExpr := ⟨named "" default⟩

def span : TypeExpr → Span
  | named _ s | array _ s | function _ _ s | object _ s | union _ s => s

def kindName : TypeExpr → String
  | named .. => "TypeAnnotation"
  | array .. => "ArrayTypeAnnotation"
  | function .. => "FunctionTypeAnnotation"
  | object .. => "ObjectTypeAnnotation"
  | union .. => "UnionTypeAnnotation"

/-- The alternatives that an annotation offers: the members of a union, else itself alone. -/
def alternatives : TypeExpr → List TypeExpr
  | union ts _ => ts
  | t => [t]

def join (left right : TypeExpr) : TypeExpr :=
  union (left.alternatives ++ right.alternatives) (left.span.merge right.span)

/-- The union of a list of annotations, joined from the left or from the right; the parts and their
order are the same, the span covers all. -/
def joinAll (fromRight : Bool) : List TypeExpr → Option TypeExpr
  | [] => none
  | t :: ts =>
    if fromRight then
      match joinAll fromRight ts with
      | some rest => some (t.join rest)
      | none => some t
    else some (ts.foldl join t)

end TypeExpr

end ArrowCheck
