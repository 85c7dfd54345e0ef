import ArrowCheck.Number.Decimal

namespace ArrowCheck

/-- A double: a signed `mantissa * 2 ^ exponent`, an infinity, or no number. A finite one has a
mantissa below `2 ^ 53` and an exponent from -1074 to 971; the mantissa is at least `2 ^ 52` unless
the exponent is the least. -/
inductive Binary64
  | finite (negative : Bool) (mantissa : Nat) (exponent : Int)
  | infinite (negative : Bool)
  | nan
deriving DecidableEq

namespace Binary64

def leastExponent : Int := -1074

def greatestExponent : Int := 971

def zero (negative : Bool) : Binary64 := finite negative 0 leastExponent

/-- The whole number nearest to a quotient, of two equally near the even one. -/
def roundDiv (num den : Nat) : Nat :=
  let q := num / den
  let twice := 2 * (num % den)
  if twice < den then q
  else if den < twice then q + 1
  else if q % 2 = 0 then q
  else q + 1

def scaleDown (num den base : Nat) : Int → Nat × Nat
  | .ofNat k => (num, den * base.pow k)
  | .negSucc k => (num * base.pow (k + 1), den)

def binaryOrder (num den : Nat) : Int :=
  let k : Int := (num.log2 : Int) - den.log2
  let (a, b) := scaleDown num den 2 k
  if b ≤ a then k else k - 1

/-- The double nearest to a quotient, of two equally near the one with an even mantissa. -/
def ofRatio (negative : Bool) (num den : Nat) : Binary64 :=
  if num = 0 then zero negative
  else
    let e := max (binaryOrder num den - 52) leastExponent
    let (a, b) := scaleDown num den 2 e
    let m := roundDiv a b
    let (m, e) := if m = Nat.pow 2 53 then (Nat.pow 2 52, e + 1) else (m, e)
    if greatestExponent < e then infinite negative else finite negative m e

/-- The double nearest to a decimal. Powers of ten outside the range of doubles are not computed. -/
def ofDecimal (negative : Bool) (d : Decimal) : Binary64 :=
  let order : Int := Decimal.width d.digits + d.exponent
  if d.digits = 0 ∨ order < -330 then zero negative
  else if 310 < order then infinite negative
  else
    match d.exponent with
    | .ofNat k => ofRatio negative (d.digits * Nat.pow 10 k) 1
    | .negSucc k => ofRatio negative d.digits (Nat.pow 10 (k + 1))

/-- Reads a number without a sign: a decimal, or a word for a value that has none. -/
def readUnsigned? (negative : Bool) (cs : List Char) : Option Binary64 :=
  let word := String.ofList (cs.map Char.toLower)
  if word == "nan" then some nan
  else if word == "inf" || word == "infinity" then some (infinite negative)
  else (Decimal.read? cs).map (ofDecimal negative)

def read? (text : String) : Option Binary64 :=
  match text.toList with
  | '-' :: cs => readUnsigned? true cs
  | '+' :: cs => readUnsigned? false cs
  | cs => readUnsigned? false cs

end Binary64

end ArrowCheck
