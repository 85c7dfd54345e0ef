import ArrowCheck.Number.Binary64

namespace ArrowCheck.Binary64

def ratio (mantissa : Nat) (exponent : Int) : Nat × Nat := scaleDown mantissa 1 2 (-exponent)

/-- The position of the point behind the digits of a positive quotient: it lies below
`10 ^ order` and not below a tenth of that. -/
def decimalOrder (num den : Nat) : Int :=
  let k : Int := (Decimal.width num : Int) - Decimal.width den
  let (a, b) := scaleDown num den 10 k
  if b ≤ a then k + 1 else k

/-- The decimal of `count` digits nearest to the double `mantissa * 2 ^ exponent` if it reads back
to it; of two equally near the greater. -/
def nearest? (mantissa : Nat) (exponent : Int) (count : Nat) : Option Decimal :=
  let (num, den) := ratio mantissa exponent
  let grid := decimalOrder num den - count
  let (a, b) := scaleDown num den 10 grid
  let low : Decimal := ⟨a / b, grid⟩
  let high : Decimal := ⟨a / b + 1, grid⟩
  let readsBack (d : Decimal) : Bool := ofDecimal false d == finite false mantissa exponent
  if readsBack low && (2 * (a % b) < b || !readsBack high) then some low
  else if readsBack high then some high
  else none

def exactDecimal (mantissa : Nat) : Int → Decimal
  | .ofNat k => ⟨mantissa * Nat.pow 2 k, 0⟩
  | .negSucc k => ⟨mantissa * Nat.pow 5 (k + 1), .negSucc k⟩

/-- The shortest decimal that reads back to `mantissa * 2 ^ exponent`, which seventeen digits always
do. -/
def shortest (mantissa : Nat) (exponent : Int) : Decimal :=
  (((List.range 17).findSome? fun n => nearest? mantissa exponent (n + 1)).getD
    (exactDecimal mantissa exponent)).strip

structure Style where
  wholeTail : String
  /-- The positions of the point, counted from the first digit, at which no exponent is used. -/
  positional : Int → Bool

def zeros (n : Nat) : String := String.ofList (List.replicate n '0')

def writePositional (style : Style) (digits : List Char) (order : Int) : String :=
  if order ≤ 0 then "0." ++ zeros (-order).toNat ++ String.ofList digits
  else if digits.length ≤ order.toNat then
    String.ofList digits ++ zeros (order.toNat - digits.length) ++ style.wholeTail
  else
    String.ofList (digits.take order.toNat) ++ "." ++ String.ofList (digits.drop order.toNat)

def writeScientific (digits : List Char) (order : Int) : String :=
  let fraction := digits.drop 1
  let point := if fraction.isEmpty then "" else "."
  String.ofList (digits.take 1) ++ point ++ String.ofList fraction ++ "e" ++ toString (order - 1)

def writeMagnitude (style : Style) (mantissa : Nat) (exponent : Int) : String :=
  if mantissa = 0 then "0" ++ style.wholeTail
  else
    let d := shortest mantissa exponent
    let digits := Nat.toDigits 10 d.digits
    let order := d.exponent + digits.length
    if style.positional order then writePositional style digits order
    else writeScientific digits order

def write (style : Style) : Binary64 → String
  | finite negative m e => (if negative then "-" else "") ++ writeMagnitude style m e
  | infinite negative => if negative then "-inf" else "inf"
  | nan => "NaN"

/-- Numbers in formatted code have no exponent and no point behind a whole number. -/
def plain : Style := ⟨"", fun _ => true⟩

/-- Numbers in a tree dump show that they are no integers, and use an exponent below `10 ^ -4` and
from `10 ^ 16` on. -/
def dumped : Style := ⟨".0", fun order => -3 ≤ order && order ≤ 16⟩

end ArrowCheck.Binary64
