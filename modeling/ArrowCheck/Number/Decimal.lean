namespace ArrowCheck

/-- The number `digits * 10 ^ exponent`. -/
structure Decimal where
  digits : Nat
  exponent : Int
deriving DecidableEq

namespace Decimal

def width (n : Nat) : Nat := (Nat.toDigits 10 n).length

def digitValue (c : Char) : Nat := c.toNat - '0'.toNat

def valueOf (cs : List Char) : Nat := cs.foldl (fun n c => 10 * n + digitValue c) 0

def stripWithin : Nat → Decimal → Decimal
  | 0, d => d
  | fuel + 1, d =>
    if d.digits ≠ 0 ∧ d.digits % 10 = 0 then stripWithin fuel ⟨d.digits / 10, d.exponent + 1⟩ else d

def strip (d : Decimal) : Decimal := stripWithin (width d.digits) d

def readExponent? : List Char → Option Int
  | '-' :: cs => if !cs.isEmpty && cs.all Char.isDigit then some (-(valueOf cs : Int)) else none
  | '+' :: cs => if !cs.isEmpty && cs.all Char.isDigit then some (valueOf cs) else none
  | cs => if !cs.isEmpty && cs.all Char.isDigit then some (valueOf cs) else none

/-- Reads digits with at most one point among them and an exponent behind an `e`; at least one
digit stands before the exponent. -/
def read? (cs : List Char) : Option Decimal :=
  let whole := cs.takeWhile Char.isDigit
  let afterWhole := cs.dropWhile Char.isDigit
  let (fraction, rest) :=
    match afterWhole with
    | '.' :: tail => (tail.takeWhile Char.isDigit, tail.dropWhile Char.isDigit)
    | _ => ([], afterWhole)
  if whole.isEmpty && fraction.isEmpty then none
  else
    let digits := valueOf (whole ++ fraction)
    match rest with
    | [] => some ⟨digits, -(fraction.length : Int)⟩
    | mark :: tail =>
      if mark == 'e' || mark == 'E' then
        (readExponent? tail).map fun e => ⟨digits, e - fraction.length⟩
      else none

end Decimal

end ArrowCheck
