namespace ArrowCheck.Toml

/-- The characters that may stand in a text or comment: no control characters but the tab. -/
def isTextChar (c : Char) : Bool := c = '\t' || (c.toNat ≥ 0x20 && c.toNat ≠ 0x7f)

def isBlank (c : Char) : Bool := c = ' ' || c = '\t'

def digitValue? (c : Char) : Option Nat :=
  if '0' ≤ c && c ≤ '9' then some (c.toNat - '0'.toNat)
  else if 'a' ≤ c && c ≤ 'f' then some (c.toNat - 'a'.toNat + 10)
  else if 'A' ≤ c && c ≤ 'F' then some (c.toNat - 'A'.toNat + 10)
  else none

def number? (base : Nat) (cs : List Char) : Option Nat :=
  cs.foldlM (fun n c => do
    let d ← digitValue? c
    if d < base then some (n * base + d) else none) 0

def charOfCode? (cs : List Char) : Option Char := do
  let n ← number? 16 cs
  if n.isValidChar then some (Char.ofNat n) else none

def escaped? : Char → Option Char
  | 'b' => some '\x08'
  | 't' => some '\t'
  | 'n' => some '\n'
  | 'f' => some '\x0c'
  | 'r' => some '\r'
  | '"' => some '"'
  | '\\' => some '\\'
  | _ => none

/-- Where reading stands after a backslash at the end of a line: before the line break, or among the
blanks and line breaks that follow it. -/
inductive Fold
  | none
  | pending
  | skipping
deriving DecidableEq

/-- The text that is written with escapes. Only a text of several lines may hold line breaks, and
break a line behind a backslash. -/
def unescape (several : Bool) : Fold → List Char → Option (List Char)
  | .pending, [] => none
  | _, [] => some []
  | .pending, c :: cs =>
    if c = '\n' then unescape several .skipping cs
    else if isBlank c then unescape several .pending cs
    else none
  | _, '\\' :: 'u' :: a :: b :: c :: d :: cs => do
    let x ← charOfCode? [a, b, c, d]
    return x :: (← unescape several .none cs)
  | _, '\\' :: 'U' :: a :: b :: c :: d :: e :: f :: g :: h :: cs => do
    let x ← charOfCode? [a, b, c, d, e, f, g, h]
    return x :: (← unescape several .none cs)
  | _, '\\' :: c :: cs =>
    match escaped? c with
    | some x => (unescape several .none cs).map (x :: ·)
    | none =>
      if several && c = '\n' then unescape several .skipping cs
      else if several && isBlank c then unescape several .pending cs
      else none
  | fold, c :: cs =>
    if fold = .skipping && (c = '\n' || isBlank c) then unescape several .skipping cs
    else if c ≠ '\\' && (isTextChar c || (several && c = '\n')) then
      (unescape several .none cs).map (c :: ·)
    else none

/-- What stands before the closing double quote, and what follows it. A backslash takes the next
character with it. -/
def splitBasic : List Char → Option (List Char × List Char)
  | [] => none
  | '"' :: cs => some ([], cs)
  | '\\' :: c :: cs => (splitBasic cs).map fun (text, rest) => ('\\' :: c :: text, rest)
  | c :: cs => (splitBasic cs).map fun (text, rest) => (c :: text, rest)

/-- Up to two quotes right before the three that close a text belong to it. -/
def closing (quote : Char) (cs : List Char) : List Char × List Char :=
  let extra := min 2 (cs.takeWhile (· = quote)).length
  (List.replicate extra quote, cs.drop extra)

def splitBasicLines : List Char → Option (List Char × List Char)
  | [] => none
  | '"' :: '"' :: '"' :: cs => some (closing '"' cs)
  | '\\' :: c :: cs => (splitBasicLines cs).map fun (text, rest) => ('\\' :: c :: text, rest)
  | c :: cs => (splitBasicLines cs).map fun (text, rest) => (c :: text, rest)

def splitLiteralLines : List Char → Option (List Char × List Char)
  | [] => none
  | '\'' :: '\'' :: '\'' :: cs => some (closing '\'' cs)
  | c :: cs => (splitLiteralLines cs).map fun (text, rest) => (c :: text, rest)

def dropNewline : List Char → List Char
  | '\n' :: cs => cs
  | cs => cs

def quoted? : List Char → Option (String × List Char)
  | '"' :: cs => do
    let (text, rest) ← splitBasic cs
    return (String.ofList (← unescape false .none text), rest)
  | '\'' :: cs => do
    let text := cs.takeWhile (· ≠ '\'')
    let rest ← (cs.dropWhile (· ≠ '\'')).tail?
    if text.all isTextChar then some (String.ofList text, rest) else none
  | _ => none

/-- A text on one line or several; a line break right behind the opening quotes is no part of it. -/
def text? : List Char → Option (String × List Char)
  | '"' :: '"' :: '"' :: cs => do
    let (text, rest) ← splitBasicLines (dropNewline cs)
    return (String.ofList (← unescape true .none text), rest)
  | '\'' :: '\'' :: '\'' :: cs => do
    let (text, rest) ← splitLiteralLines (dropNewline cs)
    if text.all fun c => isTextChar c || c = '\n' then some (String.ofList text, rest) else none
  | cs => quoted? cs

end ArrowCheck.Toml
