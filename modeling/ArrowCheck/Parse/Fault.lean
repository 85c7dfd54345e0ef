import ArrowCheck.Token.Basic

namespace ArrowCheck

/-- A reason why a text is no program, with the place it is reported at. -/
inductive ParseFault
  | unexpectedToken (expected found : String) (span : Span)
  | unexpectedEnd (expected : String) (span : Span)
  | anyType (span : Span)
  | expressionBody (span : Span)
  | invalidNumber (literal : String) (span : Span)
  | lexical (fault : LexFault)
deriving DecidableEq

namespace ParseFault

def span : ParseFault → Span
  | unexpectedToken _ _ s | unexpectedEnd _ s | anyType s | expressionBody s | invalidNumber _ s => s
  | lexical f => ⟨f.position, f.position + 1⟩

def message : ParseFault → String
  | unexpectedToken expected found s =>
    s!"Unexpected token: expected {expected}, found {found} at position {s.start}"
  | unexpectedEnd expected _ => s!"Unexpected end of file - expected {expected}"
  | anyType s => s!"The 'any' type is not supported at position {s.start}"
  | expressionBody s =>
    s!"Arrow functions only support block bodies with curly braces (at position {s.start})"
  | invalidNumber literal s => s!"Invalid number literal '{literal}' at position {s.start}"
  | lexical f => f.message

end ParseFault

end ArrowCheck
