namespace ArrowCheck.Utf8

def replacement : Char := '�'

/-- Between characters, or behind the first bytes of one: the value of these, the least and the greatest
byte that may come next, and how many bytes are missing behind that one. -/
inductive State
  | start
  | inside (missing least greatest value : Nat)
deriving DecidableEq

namespace State

def first (b : Nat) : List Char × State :=
  if b < 0x80 then ([Char.ofNat b], start)
  else if b < 0xC2 then ([replacement], start)
  else if b < 0xE0 then ([], inside 0 0x80 0xBF (b - 0xC0))
  else if b < 0xF0 then
    -- no shorter form of a character, and no surrogate
    ([], inside 1 (if b = 0xE0 then 0xA0 else 0x80) (if b = 0xED then 0x9F else 0xBF) (b - 0xE0))
  else if b < 0xF5 then
    ([], inside 2 (if b = 0xF0 then 0x90 else 0x80) (if b = 0xF4 then 0x8F else 0xBF) (b - 0xF0))
  else ([replacement], start)

/-- The characters that end with a byte. A character that the byte does not go on with is given up, and
the byte is taken for a first one. -/
def next : State → Nat → List Char × State
  | start, b => first b
  | inside missing least greatest value, b =>
    if least ≤ b ∧ b ≤ greatest then
      let value := 64 * value + (b - 0x80)
      match missing with
      | 0 => ([Char.ofNat value], start)
      | missing + 1 => ([], inside missing 0x80 0xBF value)
    else (replacement :: (first b).1, (first b).2)

end State

def decodeFrom : State → List UInt8 → List Char
  | .start, [] => []
  | .inside .., [] => [replacement]
  | s, b :: bs => (s.next b.toNat).1 ++ decodeFrom (s.next b.toNat).2 bs

/-- The characters of some bytes, with a replacement for each run of bytes that starts a character and
does not end it, and for each byte that starts none. -/
def decode (bytes : List UInt8) : List Char := decodeFrom .start bytes

def encode (cs : List Char) : List UInt8 := cs.flatMap String.utf8EncodeChar

def textOf (bytes : List UInt8) : String := String.ofList (decode bytes)

def bytesOf (text : String) : List UInt8 := encode text.toList

end ArrowCheck.Utf8
