import ArrowCheck.Parse.Cursor

namespace ArrowCheck.Reader

/-- Reads the pairs of brackets behind an element type, at most `bound` of them. -/
def arraySuffix : Nat → TypeExpr → Reader TypeExpr
  | 0, t => return t
  | bound + 1, t => do
    match (← get).rest with
    | ⟨.mark .bracketOpen, _⟩ :: ⟨.mark .bracketClose, stop⟩ :: _ =>
      advance
      advance
      arraySuffix bound (.array t (t.span.merge stop))
    | _ => return t

def arraySuffixes (t : TypeExpr) : Reader TypeExpr := do
  arraySuffix (← get).rest.length t

mutual

def typeWithin : Nat → Reader TypeExpr
  | 0 => unexpected "type annotation"
  | bound + 1 => do
    let first ← baseWithin bound
    unionWithin bound (← arraySuffixes first)

def unionWithin : Nat → TypeExpr → Reader TypeExpr
  | 0, t => return t
  | bound + 1, t => do
    if ← eat (.mark .pipe) then
      let member ← baseWithin bound
      unionWithin bound (t.join (← arraySuffixes member))
    else
      return t

def baseWithin : Nat → Reader TypeExpr
  | 0 => unexpected "type annotation"
  | bound + 1 => do
    let start ← here
    match ← kind? with
    | some (.typeWord .array) =>
      advance
      if ← eat (.mark .less) then
        let element ← typeWithin bound
        let stop ← expect (.mark .greater)
        return .array element (start.merge stop)
      else
        return .named TypeWord.array.text start
    | some (.typeWord w) =>
      advance
      return .named w.text start
    | some (.ident name) =>
      if name == "any" then
        throw (.anyType start)
      else
        advance
        return .named name start
    | some (.mark .parenOpen) =>
      advance
      let params ← fieldsWithin bound .parenClose "parameter name"
      let _ ← expect (.mark .parenClose)
      let _ ← expect (.mark .arrow)
      let result ← typeWithin bound
      return .function params result (start.merge result.span)
    | some (.mark .braceOpen) =>
      advance
      let fields ← fieldsWithin bound .braceClose "field name"
      let stop ← expect (.mark .braceClose)
      return .object fields (start.merge stop)
    | _ => unexpected "type annotation"

/-- Fields up to the closing mark; a comma may stand behind the last one. -/
def fieldsWithin : Nat → Mark → String → Reader (List Field)
  | 0, _, what => unexpected what
  | bound + 1, close, what => do
    if (← atEnd) || (← sees (.mark close)) then
      return []
    else
      let (name, start) ← expectIdent what
      let _ ← expect (.mark .colon)
      let type ← typeWithin bound
      let field : Field := ⟨name, type, start.merge type.span⟩
      if ← eat (.mark .comma) then
        return field :: (← fieldsWithin bound close what)
      else
        return [field]

end

def typeExpr : Reader TypeExpr := do
  typeWithin (2 * (← get).rest.length + 2)

def optionalType : Reader (Option TypeExpr) := do
  if ← eat (.mark .colon) then
    return some (← typeExpr)
  else
    return none

end ArrowCheck.Reader
