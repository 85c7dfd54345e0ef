import ArrowCheck.Table
import ArrowCheck.Toml.Scalar

namespace ArrowCheck.Toml

inductive Value
  | string (s : String)
  | scalar (s : Scalar)
  | array (items : List Value)
  /-- A table that came with dotted keys may grow by more of them; all others are complete. -/
  | table (dotted : Bool) (entries : List (String × Value))

def depthLimit : Nat := 80

def joinBreaks : List Char → List Char
  | '\r' :: '\n' :: cs => '\n' :: joinBreaks cs
  | c :: cs => c :: joinBreaks cs
  | [] => []

def skipBlanks (cs : List Char) : List Char := cs.dropWhile isBlank

def skipLines (comment : Bool) : List Char → Option (List Char)
  | [] => some []
  | c :: cs =>
    if c = '\n' then skipLines false cs
    else if comment then if isTextChar c then skipLines true cs else none
    else if isBlank c then skipLines false cs
    else if c = '#' then skipLines true cs
    else some (c :: cs)

def endLine (cs : List Char) : Option (List Char) :=
  match skipBlanks cs with
  | [] => some []
  | '\n' :: rest => some rest
  | '#' :: text =>
    match text.dropWhile isTextChar with
    | [] => some []
    | '\n' :: rest => some rest
    | _ => none
  | _ => none

def isKeyChar (c : Char) : Bool := c.isAlphanum || c = '_' || c = '-'

/-- A name, which is quoted if it holds more than letters, digits, underscores and hyphens. -/
def name? (cs : List Char) : Option (String × List Char) :=
  (quoted? cs).or <|
    let word := cs.takeWhile isKeyChar
    if word.isEmpty then none else some (String.ofList word, cs.drop word.length)

def names? : Nat → List Char → Option (List String × List Char)
  | 0, _ => none
  | fuel + 1, cs => do
    let (name, cs) ← name? (skipBlanks cs)
    match skipBlanks cs with
    | '.' :: cs => (names? fuel cs).map fun (names, rest) => (name :: names, rest)
    | cs => some ([name], cs)

def key? (fuel : Nat) (cs : List Char) : Option (List String × List Char) := do
  let (names, rest) ← names? fuel cs
  if names.length < depthLimit then some (names, rest) else none

def define? (name : String) (value : Value) (entries : List (String × Value)) :
    Option (List (String × Value)) :=
  if entries.any (·.1 = name) then none else some (entries ++ [(name, value)])

/-- Adds a value under a key. Each name but the last is that of a table, which is made by the first
such key and grows by the others. -/
def insert? : List String → Value → List (String × Value) → Option (List (String × Value))
  | [], _, _ => none
  | [name], value, entries => define? name value entries
  | name :: key, value, entries =>
    match Table.getEntry? name entries with
    | none => do return entries ++ [(name, .table true (← insert? key value []))]
    | some (.table true inner) => do
      return Table.insertEntry name (.table true (← insert? key value inner)) entries
    | some _ => none

mutual

def value? : Nat → Nat → List Char → Option (Value × List Char)
  | 0, _, _ => none
  | _ + 1, 0, '[' :: _ => none
  | _ + 1, 0, '\x7b' :: _ => none
  | fuel + 1, depth + 1, '[' :: cs => do
    let (items, rest) ← items? fuel depth (← skipLines false cs)
    return (.array items, rest)
  | fuel + 1, depth + 1, '\x7b' :: cs =>
    match skipBlanks cs with
    | '\x7d' :: rest => some (.table false [], rest)
    | cs => (entries? fuel depth [] cs).map fun (entries, rest) => (.table false entries, rest)
  | _ + 1, _, cs =>
    match cs.head? with
    | some '"' | some '\'' => (text? cs).map fun (s, rest) => (.string s, rest)
    | _ => (plain? cs).map fun (s, rest) => (.scalar s, rest)

/-- The items of an array up to its bracket; a comma may follow the last. -/
def items? : Nat → Nat → List Char → Option (List Value × List Char)
  | 0, _, _ => none
  | _ + 1, _, ']' :: rest => some ([], rest)
  | fuel + 1, depth, cs => do
    let (item, cs) ← value? fuel depth cs
    match ← skipLines false cs with
    | ']' :: rest => return ([item], rest)
    | ',' :: cs =>
      let (items, rest) ← items? fuel depth (← skipLines false cs)
      return (item :: items, rest)
    | _ => none

/-- The entries of a table in braces, all on one line, behind those already read. -/
def entries? : Nat → Nat → List (String × Value) → List Char →
    Option (List (String × Value) × List Char)
  | 0, _, _, _ => none
  | fuel + 1, depth, entries, cs => do
    let (key, '=' :: cs) ← key? fuel cs | none
    let (value, cs) ← value? fuel depth (skipBlanks cs)
    let entries ← insert? key value entries
    match skipBlanks cs with
    | '\x7d' :: rest => return (entries, rest)
    | ',' :: cs => entries? fuel depth entries cs
    | _ => none

end

/-- A line of a document: the head of a table, or a value under a key. -/
inductive Line
  | head (name : String)
  | entry (key : List String) (value : Value)

structure Draft where
  entries : List (String × Value) := []
  current : Option String := none

def Draft.add? (d : Draft) : Line → Option Draft
  | .head name => do
    return ⟨← define? name (.table false []) d.entries, some name⟩
  | .entry key value =>
    match d.current with
    | none => do return { d with entries := ← insert? key value d.entries }
    | some name =>
      match Table.getEntry? name d.entries with
      | some (.table dotted inner) => do
        let table := Value.table dotted (← insert? key value inner)
        return { d with entries := Table.insertEntry name table d.entries }
      | _ => none

def line? (fuel : Nat) (cs : List Char) : Option (Line × List Char) :=
  match cs with
  | '[' :: cs => do
    let ([name], ']' :: cs) ← key? fuel cs | none
    return (.head name, ← endLine cs)
  | _ => do
    let (key, '=' :: cs) ← key? fuel cs | none
    let (value, cs) ← value? fuel (depthLimit - 1) (skipBlanks cs)
    return (.entry key value, ← endLine cs)

def lines? (bound : Nat) : Nat → Draft → List Char → Option Draft
  | 0, _, _ => none
  | fuel + 1, d, cs => do
    match ← skipLines false cs with
    | [] => return d
    | cs =>
      let (line, rest) ← line? bound cs
      lines? bound fuel (← d.add? line) rest

/-- The entries of a document. A value under a key, a head of a table and each level of a value take
at least one character, so the length of the text bounds all of them. -/
def document? (text : String) : Option (List (String × Value)) :=
  let cs := match joinBreaks text.toList with
    | '\uFEFF' :: cs => cs
    | cs => cs
  let bound := 2 * cs.length + 2
  (lines? bound bound {} cs).map Draft.entries

end ArrowCheck.Toml
