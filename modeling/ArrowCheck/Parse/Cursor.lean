import ArrowCheck.Parse.Fault
import ArrowCheck.Syntax.Tree
import ArrowCheck.Token.Lexer

namespace ArrowCheck

structure Cursor where
  rest : List Token
  last : Span
  stop : Nat
  nextId : NodeId
  faults : List ParseFault

/-- A reader of an `α`: it moves the cursor and gives a value or the reason why there is none. -/
abbrev Reader (α : Type) := ExceptT ParseFault (StateM Cursor) α

namespace Cursor

/-- Before the first token of a text, without comments and unreadable characters; the latter are
its first faults. -/
def ofSource (source : String) : Cursor where
  rest := (tokenize source).filter fun t => !t.kind.isComment && !t.kind.isError
  last := .dummy
  stop := source.utf8ByteSize
  nextId := 0
  faults := (lexFaults source).map .lexical

def kind? (c : Cursor) : Option TokenKind := c.rest.head?.map Token.kind

def here (c : Cursor) : Span := (c.rest.head?.map Token.span).getD ⟨c.stop, c.stop⟩

def next (c : Cursor) : Cursor :=
  match c.rest with
  | [] => c
  | t :: ts => { c with rest := ts, last := t.span }

/-- Past the tokens before the first one of a kind that `stops` marks. -/
def skipUntil (stops : TokenKind → Bool) (c : Cursor) : Cursor :=
  { c with
    rest := c.rest.dropWhile fun t => !stops t.kind
    last := (((c.rest.takeWhile fun t => !stops t.kind).getLast?).map Token.span).getD c.last }

def unexpected (c : Cursor) (expected : String) : ParseFault :=
  match c.kind? with
  | some k => .unexpectedToken expected k.describe c.here
  | none => .unexpectedEnd expected c.here

end Cursor

namespace Reader

def kind? : Reader (Option TokenKind) := return (← get).kind?

def here : Reader Span := return (← get).here

def atEnd : Reader Bool := return (← get).rest.isEmpty

def sees (k : TokenKind) : Reader Bool := return (← get).kind? == some k

def advance : Reader Unit := modify Cursor.next

def eat (k : TokenKind) : Reader Bool := do
  if ← sees k then
    advance
    return true
  else
    return false

def unexpected {α : Type} (expected : String) : Reader α := do
  throw ((← get).unexpected expected)

def expect (k : TokenKind) : Reader Span := do
  let span ← here
  if ← sees k then
    advance
    return span
  else
    unexpected k.describe

def expectIdent (what : String) : Reader (String × Span) := do
  match ← kind? with
  | some (.ident name) =>
    let span ← here
    advance
    return (name, span)
  | _ => unexpected what

def freshId : Reader NodeId :=
  modifyGet fun c => (c.nextId, { c with nextId := c.nextId + 1 })

def record (fault : ParseFault) : Reader Unit :=
  modify fun c => { c with faults := c.faults ++ [fault] }

def attempt {α : Type} (r : Reader α) : Reader (Except ParseFault α) :=
  ExceptT.mk (Except.ok <$> r.run)

def succeeds {α : Type} (r : Reader α) : Reader Bool :=
  return (r.run (← get)).1.isOk

end Reader

end ArrowCheck
