import ArrowCheck.Text.CharWidth
import ArrowCheck.Text.Emoji

namespace ArrowCheck.Text

def joiner : Char := '\u200D'

/-- The selectors behind a character for its form as a picture or as a plain sign. -/
inductive Style
  | picture
  | sign
deriving DecidableEq

def Style.ofChar? (c : Char) : Option Style :=
  if c = '\uFE0F' then some .picture else if c = '\uFE0E' then some .sign else none

/-- The end of a ligature, to which a letter in front of it may belong. Some need a joiner between
their letters; `joined` says whether it was read. -/
inductive Ligature
  | alef
  | lamed (joined : Bool)
  | ya (joined : Bool)
  /-- The Buginese vowel sign i in front of a joined ya. -/
  | vowelYa
  | tifinagh (joined : Bool)
  | linkedTifinagh
  | lisuTone
  | orkhonI (joined : Bool)
  /-- A Khmer letter that has a form below the line. -/
  | khmer
deriving DecidableEq

inductive Picture
  | whole
  | skinTone
  | flagLetter
  | flagLetters
  | joint
  | keycapJoint
  /-- Letters of a flag in front of a joint: one, an even number, or three and more of an odd number. -/
  | flagJoint
  | evenFlagJoint
  | oddFlagJoint
  /-- The end mark of a tagged flag in front of a joint, with so many letters before it. -/
  | taggedLetters (count : Nat)
  /-- The same with letters that so many digits stand before. -/
  | taggedDigits (count : Nat)
deriving DecidableEq

inductive Tail
  | plain
  | ligature (l : Ligature)
  | picture (p : Picture)
deriving DecidableEq

def alefRanges : List (Nat × Nat) :=
  [(0x622, 0x623), (0x625, 0x625), (0x627, 0x627), (0x671, 0x673), (0x675, 0x675), (0x773, 0x774),
   (0x870, 0x882)]

def lamRanges : List (Nat × Nat) :=
  [(0x644, 0x644), (0x6b5, 0x6b8), (0x76a, 0x76a), (0x8a6, 0x8a6), (0x8c7, 0x8c7)]

def tifinaghRanges : List (Nat × Nat) := [(0x2d31, 0x2d65), (0x2d6f, 0x2d6f)]

def khmerRanges : List (Nat × Nat) :=
  [(0x1780, 0x1782), (0x1784, 0x1787), (0x1789, 0x178c), (0x178e, 0x1793), (0x1795, 0x1798),
   (0x179b, 0x179d), (0x17a0, 0x17a0), (0x17a2, 0x17a2), (0x17a7, 0x17a7), (0x17ab, 0x17ac),
   (0x17af, 0x17af)]

/-- Marks that are not shown and do not keep a joiner from the letters it joins. -/
def fillerRanges : List (Nat × Nat) :=
  [(0x34f, 0x34f), (0x17b4, 0x17b5), (0x180b, 0x180d), (0x180f, 0x180f), (0x200d, 0x200d),
   (0xfe00, 0xfe0f), (0xe0100, 0xe01ef)]

def Ligature.ofCode? (code : Nat) : Option Ligature :=
  if inRanges code alefRanges then some .alef
  else if code = 0x5dc then some (.lamed false)
  else if code = 0x1a10 then some (.ya false)
  else if inRanges code tifinaghRanges then some (.tifinagh false)
  else if code = 0xa4fc || code = 0xa4fd then some .lisuTone
  else if code = 0x10c03 then some (.orkhonI false)
  else if inRanges code khmerRanges then some .khmer
  else none

def Picture.ofChar? (c : Char) : Option Picture :=
  if isFlagLetter c then some .flagLetter
  else if isSkinTone c then some .skinTone
  else if isEmoji c then some .whole
  else none

namespace Tail

/-- What a text starts with whose first character is not changed by those behind it. -/
def ofChar (c : Char) : Tail :=
  match Ligature.ofCode? c.toNat with
  | some l => ligature l
  | none =>
    match Picture.ofChar? c with
    | some p => picture p
    | none => plain

def isJoint : Tail → Bool
  | picture .joint | picture .keycapJoint => true
  | _ => false

def behindStyle : Tail → Tail
  | ligature l => ligature l
  | _ => plain

end Tail

namespace Ligature

def join : Ligature → Ligature
  | lamed _ => lamed true
  | ya _ => ya true
  | tifinagh _ => tifinagh true
  | orkhonI _ => orkhonI true
  | l => l

/-- The columns that a character in front adds, if it does not stand for itself. A letter that goes
below the line takes its column back. -/
def before? (l : Ligature) (c : Char) : Option (Int × Tail) :=
  if l = alef then
    if inRanges c.toNat lamRanges then some (0, .plain)
    else if isTransparent c then some (0, .ligature l)
    else none
  else if c = joiner then some (0, .ligature l.join)
  else if inRanges c.toNat fillerRanges then some (0, .ligature l)
  else match l with
    | lamed true => if c.toNat = 0x5d0 then some (0, .plain) else none
    | ya true => if c.toNat = 0x1a17 then some (0, .ligature vowelYa) else none
    | vowelYa => if c.toNat = 0x1a15 then some (0, .plain) else none
    | tifinagh joined =>
      if c.toNat = 0x2d7f then some (1, .ligature linkedTifinagh)
      else if joined && inRanges c.toNat tifinaghRanges then some (0, .plain)
      else none
    | linkedTifinagh => if inRanges c.toNat tifinaghRanges then some (-1, .plain) else none
    | lisuTone => if 0xa4f8 ≤ c.toNat && c.toNat ≤ 0xa4fb then some (0, .plain) else none
    | orkhonI true => if c.toNat = 0x10c32 then some (0, .plain) else none
    | khmer => if c.toNat = 0x17d2 then some (-1, .plain) else none
    | _ => none

end Ligature

def isTagLetter (c : Char) : Bool := 0xe0061 ≤ c.toNat && c.toNat ≤ 0xe007a

def isTagDigit (c : Char) : Bool := 0xe0030 ≤ c.toNat && c.toNat ≤ 0xe0039

def isBlackFlag (c : Char) : Bool := c.toNat = 0x1f3f4

namespace Picture

/-- The columns that a character in front adds, if it does not stand for itself. Two letters of a
flag that are joined to a picture take no columns beside it. -/
def before? (p : Picture) (c : Char) : Option (Int × Picture) :=
  match p with
  | whole => if c = joiner then some (0, joint) else none
  | skinTone =>
    if hasSkin c then some (0, whole) else if c = joiner then some (0, joint) else none
  | flagLetter => if isFlagLetter c then some (1, flagLetters) else none
  | flagLetters =>
    if isFlagLetter c then some (1, flagLetters) else if c = joiner then some (0, joint) else none
  | joint =>
    if c = '\u20E3' then some (0, keycapJoint)
    else if isFlagLetter c then some (1, flagJoint)
    else if isSkinTone c then some (0, skinTone)
    else if c.toNat = 0xe007f then some (0, taggedLetters 0)
    else if isEmoji c then some (0, whole)
    else none
  | keycapJoint => none
  | flagJoint => if isFlagLetter c then some (-1, evenFlagJoint) else none
  | evenFlagJoint =>
    if isFlagLetter c then some (3, oddFlagJoint) else if c = joiner then some (0, joint) else none
  | oddFlagJoint =>
    if isFlagLetter c then some (-1, evenFlagJoint) else if c = joiner then some (0, joint) else none
  | taggedLetters n =>
    if isTagLetter c && n < 6 then some (0, taggedLetters (n + 1))
    else if isTagDigit c && n < 5 then some (0, taggedDigits 1)
    else if isBlackFlag c && 3 ≤ n then some (0, whole)
    else none
  | taggedDigits n =>
    if isTagDigit c && n < 3 then some (0, taggedDigits (n + 1))
    else if isBlackFlag c && n = 3 then some (0, whole)
    else none

end Picture

namespace Tail

/-- The columns that a character in front adds, if it does not stand for itself. -/
def before? (t : Tail) (c : Char) : Option (Int × Tail) :=
  match t with
  | plain => none
  | ligature l => l.before? c
  | picture p => (p.before? c).map fun (columns, p) => (columns, .picture p)

def before (t : Tail) (c : Char) : Int × Tail :=
  (t.before? c).getD (charWidth c, ofChar c)

end Tail

/-- What stands behind a character: a selector, if there is one, and the text behind it. -/
structure Behind where
  style : Option Style := none
  tail : Tail := .plain
deriving DecidableEq

namespace Behind

/-- The columns that a character in front adds, and what then stands behind the next. -/
def before (b : Behind) (c : Char) : Int × Behind :=
  if b.style = some .picture && takesPictureStyle c then
    (if b.tail.isJoint then 0 else 2, ⟨none, .picture .whole⟩)
  else if c.toNat ≤ 0xa0 then (1, {})
  else
    let tail := if b.style.isSome then b.tail.behindStyle else b.tail
    match Style.ofChar? c with
    | some .picture => (0, ⟨some .picture, if tail.isJoint then tail else tail.behindStyle⟩)
    | some .sign => (0, ⟨some .sign, tail.behindStyle⟩)
    | none =>
      if b.style = some .sign && takesSignStyle c then (1, {})
      else
        let (columns, tail) := tail.before c
        (columns, ⟨none, tail⟩)

end Behind

def measure : List Char → Int × Behind
  | [] => (0, {})
  | c :: cs =>
    let (total, behind) := measure cs
    let (columns, behind) := behind.before c
    (total + columns, behind)

def width (cs : List Char) : Nat := (measure cs).1.toNat

end ArrowCheck.Text
