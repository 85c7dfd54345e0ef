import ArrowCheck.Number.Binary64
import ArrowCheck.Toml.Quoted

namespace ArrowCheck.Toml

inductive Scalar
  | boolean (b : Bool)
  | integer (n : Int)
  | float (x : Binary64)
  | moment (text : String)
deriving DecidableEq

def isDigit (base : Nat) (c : Char) : Bool := (digitValue? c).any (· < base)

/-- The digits without the underscores between them. There is at least one digit, and an underscore
stands between two digits. -/
def ungroup (base : Nat) : List Char → Option (List Char)
  | [] => none
  | [c] => if isDigit base c then some [c] else none
  | c :: '_' :: cs => if isDigit base c then (ungroup base cs).map (c :: ·) else none
  | c :: cs => if isDigit base c then (ungroup base cs).map (c :: ·) else none

def splitSign : List Char → Bool × List Char
  | '-' :: cs => (true, cs)
  | '+' :: cs => (false, cs)
  | cs => (false, cs)

def wholeDigits? (cs : List Char) : Option (List Char) := do
  let ds ← ungroup 10 cs
  if ds.head? = some '0' && ds.length > 1 then none else some ds

def integer? (cs : List Char) : Option Int :=
  match cs with
  | '0' :: 'x' :: ds => based 16 ds
  | '0' :: 'o' :: ds => based 8 ds
  | '0' :: 'b' :: ds => based 2 ds
  | _ => do
    let (negative, ds) := splitSign cs
    let n ← number? 10 (← wholeDigits? ds)
    if negative then if n ≤ Nat.pow 2 63 then some (-n) else none
    else if n < Nat.pow 2 63 then some n else none
where
  based (base : Nat) (ds : List Char) : Option Int := do
    let n ← number? base (← ungroup base ds)
    if n < Nat.pow 2 63 then some n else none

def isFloatTail (cs : List Char) : Bool :=
  let isExponent (cs : List Char) : Bool := (ungroup 10 (splitSign cs).2).isSome
  let beforeExponent := cs.takeWhile fun c => c ≠ 'e' && c ≠ 'E'
  let exponent := cs.drop beforeExponent.length
  match beforeExponent, exponent with
  | [], _ :: e => isExponent e
  | '.' :: f, [] => (ungroup 10 f).isSome
  | '.' :: f, _ :: e => (ungroup 10 f).isSome && isExponent e
  | _, _ => false

/-- A number with fraction or exponent, or the name of an infinity or of what is no number. A number
beyond the greatest double is refused; one below the least is the negative infinity. -/
def float? (cs : List Char) : Option Binary64 := do
  let (_, ds) := splitSign cs
  let text := String.ofList (cs.filter (· ≠ '_'))
  if ds = "inf".toList || ds = "nan".toList then Binary64.read? text
  else
    let whole := ds.takeWhile fun c => isDigit 10 c || c = '_'
    let _ ← wholeDigits? whole
    if isFloatTail (ds.drop whole.length) then
      match ← Binary64.read? text with
      | .infinite false => none
      | x => some x
    else none

def fixed? (width : Nat) (cs : List Char) : Option (Nat × List Char) := do
  let ds := cs.take width
  if ds.length = width && ds.all (isDigit 10) then
    return (← number? 10 ds, cs.drop width)
  else none

def after? (c : Char) : List Char → Option (List Char)
  | [] => none
  | x :: cs => if x = c then some cs else none

def daysOf (year month : Nat) : Nat :=
  if month = 2 then
    if year % 4 = 0 && (year % 100 ≠ 0 || year % 400 = 0) then 29 else 28
  else if month = 4 || month = 6 || month = 9 || month = 11 then 30
  else 31

def date? (cs : List Char) : Option (List Char) := do
  let (year, cs) ← fixed? 4 cs
  let (month, cs) ← fixed? 2 (← after? '-' cs)
  let (day, cs) ← fixed? 2 (← after? '-' cs)
  if 1 ≤ month && month ≤ 12 && 1 ≤ day && day ≤ daysOf year month then some cs else none

def hourMinute? (cs : List Char) : Option (List Char) := do
  let (hour, cs) ← fixed? 2 cs
  let (minute, cs) ← fixed? 2 (← after? ':' cs)
  if hour ≤ 23 && minute ≤ 59 then some cs else none

def time? (cs : List Char) : Option (List Char) := do
  let cs ← hourMinute? cs
  let (second, cs) ← fixed? 2 (← after? ':' cs)
  if second ≤ 60 then
    match cs with
    | '.' :: f => if (f.head?.any (isDigit 10)) then some (f.dropWhile (isDigit 10)) else none
    | _ => some cs
  else none

def isOffset : List Char → Bool
  | [] => true
  | c :: cs =>
    if c = 'Z' || c = 'z' then cs.isEmpty
    else if c = '+' || c = '-' then hourMinute? cs = some []
    else false

/-- A date, a time of day, or both; a blank or the letter `T` stands between them. -/
def isMoment (cs : List Char) : Bool :=
  match date? cs with
  | some [] => true
  | some (c :: cs) => (c = 'T' || c = 't' || c = ' ') && (time? cs).any isOffset
  | none => time? cs = some []

def scalar? (cs : List Char) : Option Scalar :=
  if cs = "true".toList then some (.boolean true)
  else if cs = "false".toList then some (.boolean false)
  else if isMoment cs then some (.moment (String.ofList cs))
  else ((integer? cs).map .integer).or ((float? cs).map .float)

def isPlainChar (c : Char) : Bool :=
  c.isAlphanum || c = '_' || c = '+' || c = '-' || c = '.' || c = ':'

/-- A plain value runs over letters, digits and signs; a blank belongs to it only between a date and
a time. -/
def plain? (cs : List Char) : Option (Scalar × List Char) :=
  let word := cs.takeWhile isPlainChar
  let rest := cs.drop word.length
  match date? word, rest with
  | some [], ' ' :: more =>
    let time := more.takeWhile isPlainChar
    if time.head?.any (isDigit 10) then
      (scalar? (word ++ ' ' :: time)).map (·, more.drop time.length)
    else (scalar? word).map (·, rest)
  | _, _ => (scalar? word).map (·, rest)

end ArrowCheck.Toml
