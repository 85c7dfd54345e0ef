namespace ArrowCheck

/-- The half-open range of bytes from `start` to `stop`. -/
structure Span where
  start : Nat
  stop : Nat
deriving DecidableEq, Inhabited

namespace Span

def dummy : Span := ⟨0, 0⟩

def merge (a b : Span) : Span := ⟨min a.start b.start, max a.stop b.stop⟩

def length (s : Span) : Nat := s.stop - s.start

def isEmpty (s : Span) : Bool := s.length == 0

def contains (s : Span) (offset : Nat) : Bool := s.start ≤ offset && offset < s.stop

end Span

def byteLength : List Char → Nat
  | [] => 0
  | c :: cs => c.utf8Size + byteLength cs

@[simp]
theorem byteLength_append (a b : List Char) : byteLength (a ++ b) = byteLength a + byteLength b := by
  induction a with
  | nil => simp [byteLength]
  | cons c cs ih => simp [byteLength, ih, Nat.add_assoc]

/-- The characters before byte `offset`, if a character of the text starts there or the text ends
there. -/
def charsBefore : Nat → List Char → Option (List Char)
  | 0, _ => some []
  | _ + 1, [] => none
  | offset + 1, c :: cs =>
    if c.utf8Size ≤ offset + 1 then (charsBefore (offset + 1 - c.utf8Size) cs).map (c :: ·) else none

theorem charsBefore_byteLength (before after : List Char) :
    charsBefore (byteLength before) (before ++ after) = some before := by
  induction before with
  | nil => rw [byteLength, charsBefore]
  | cons c before ih =>
    obtain ⟨n, hn⟩ : ∃ n, c.utf8Size + byteLength before = n + 1 :=
      Nat.exists_eq_succ_of_ne_zero (Nat.pos_iff_ne_zero.mp (Nat.add_pos_left c.utf8Size_pos _))
    rw [byteLength, hn, List.cons_append, charsBefore, ← hn, if_pos (Nat.le_add_right _ _),
      Nat.add_sub_cancel_left, ih, Option.map_some]

/-- The characters behind byte `offset`, if a character of the text starts there or the text ends there. -/
def charsBehind : Nat → List Char → Option (List Char)
  | 0, cs => some cs
  | _ + 1, [] => none
  | offset + 1, c :: cs =>
    if c.utf8Size ≤ offset + 1 then charsBehind (offset + 1 - c.utf8Size) cs else none

def charsBetween (start stop : Nat) (cs : List Char) : Option (List Char) :=
  if start ≤ stop then (charsBehind start cs).bind (charsBefore (stop - start)) else none

def charsWithin : Nat → List Char → List Char
  | _, [] => []
  | room, c :: cs => if c.utf8Size ≤ room then c :: charsWithin (room - c.utf8Size) cs else []

/-- The shortest run of whole characters that takes `room` bytes or more, or all of the text. -/
def charsCovering : Nat → List Char → List Char
  | _, [] => []
  | 0, _ => []
  | room + 1, c :: cs => c :: charsCovering (room + 1 - c.utf8Size) cs

end ArrowCheck
