import ArrowCheck.Token.Basic

namespace ArrowCheck.Lexer

def isBlank (c : Char) : Bool :=
  c == ' ' || c == '\t' || c == '\r' || c == '\n' || c == '\x0c'

def isIdentStart (c : Char) : Bool := c.isAlpha || c == '_'

def isIdentPart (c : Char) : Bool := c.isAlphanum || c == '_'

def isQuote (c : Char) : Bool := c == '"' || c == '\''

/-- The kind of a word: a reserved word is the token it spells, any other an identifier. -/
def wordKind (word : String) : TokenKind := (reservedWords.lookup word).getD (.ident word)

def markOf : Char → Option Mark
  | '?' => some .question
  | ':' => some .colon
  | '=' => some .equals
  | '|' => some .pipe
  | '<' => some .less
  | '>' => some .greater
  | '*' => some .star
  | '+' => some .plus
  | '(' => some .parenOpen
  | ')' => some .parenClose
  | '\x7b' => some .braceOpen
  | '\x7d' => some .braceClose
  | '[' => some .bracketOpen
  | ']' => some .bracketClose
  | ',' => some .comma
  | ';' => some .semicolon
  | _ => none

/-- The number of digits, and of a fraction behind them if it has a digit of its own. -/
def numberRun (cs : List Char) : Nat :=
  let whole := (cs.takeWhile Char.isDigit).length
  match cs.drop whole with
  | '.' :: rest =>
    let fraction := (rest.takeWhile Char.isDigit).length
    if fraction = 0 then whole else whole + 1 + fraction
  | _ => whole

/-- The number of characters in the longest run of complete string items: a character other than
the quote, the backslash and the newline, or a backslash and any character but the newline. -/
def itemRun (quote : Char) : List Char → Nat
  | [] => 0
  | [c] => if c = quote ∨ c = '\\' ∨ c = '\n' then 0 else 1
  | c :: d :: cs =>
    if c = '\\' then (if d = '\n' then 0 else itemRun quote cs + 2)
    else if c = quote ∨ c = '\n' then 0
    else itemRun quote (d :: cs) + 1

/-- The number of characters up to the end of the first `*/`, if there is one. -/
def closeOffset? : List Char → Option Nat
  | '*' :: '/' :: _ => some 2
  | _ :: cs => (closeOffset? cs).map (· + 1)
  | [] => none

def commentRun (cs : List Char) : Nat := (closeOffset? cs).getD cs.length

/-- The token that starts with `c`, and how many of the characters behind `c` belong to it. -/
def lexeme (c : Char) (cs : List Char) : TokenKind × Nat :=
  let text (n : Nat) := String.ofList (c :: cs.take n)
  if isIdentStart c then
    let n := (cs.takeWhile isIdentPart).length
    (wordKind (text n), n)
  else if c.isDigit then
    let n := numberRun cs
    (.number (text n), n)
  else if isQuote c then
    let n := itemRun c cs
    if cs[n]? = some c then (.string (text (n + 1)), n + 1) else (.error (text n), n)
  else
    match c, cs with
    | '/', '/' :: rest =>
      let n := (rest.takeWhile (· != '\n')).length + 1
      (.lineComment (text n), n)
    | '/', '*' :: rest =>
      let n := commentRun rest + 1
      (.blockComment (text n), n)
    | '=', '>' :: _ => (.mark .arrow, 1)
    | _, _ =>
      match markOf c with
      | some m => (.mark m, 0)
      | none => (.error (text 0), 0)

/-- The tokens of a text whose first character stands at byte `pos` and whose first `skip`
characters belong to a token already given. -/
def tokensFrom : (skip pos : Nat) → List Char → List Token
  | _, _, [] => []
  | skip + 1, pos, c :: cs => tokensFrom skip (pos + c.utf8Size) cs
  | 0, pos, c :: cs =>
    if isBlank c then tokensFrom 0 (pos + c.utf8Size) cs
    else
      let (kind, more) := lexeme c cs
      ⟨kind, pos, pos + byteLength (c :: cs.take more)⟩ ::
        tokensFrom more (pos + c.utf8Size) cs

end Lexer

namespace Token

/-- The text of a block comment ends it: the closing mark does not share the star of the opening. -/
def closesComment (text : String) : Bool :=
  text.toList.drop (text.length - 2) == ['*', '/'] && 4 ≤ text.length

def fault? (t : Token) : Option LexFault :=
  match t.kind with
  | .error text =>
    match text.toList.head? with
    | some c =>
      if Lexer.isQuote c then some (.openString t.span.start) else some (.unexpected t.span.start c)
    | none => none
  | .blockComment text => if closesComment text then none else some (.openComment t.span.start)
  | _ => none

/-- The defect of a token when tokens are taken one by one: an unreadable text is reported by its
first character whatever it is, and an open comment is not reported. -/
def streamFault? (t : Token) : Option LexFault :=
  match t.kind with
  | .error text => text.toList.head?.map (.unexpected t.span.start)
  | _ => none

end Token

def tokenize (source : String) : List Token := Lexer.tokensFrom 0 0 source.toList

def lexFaults (source : String) : List LexFault := (tokenize source).filterMap Token.fault?

end ArrowCheck
