namespace ArrowCheck.Text

def inRanges (code : Nat) (ranges : List (Nat × Nat)) : Bool :=
  ranges.any fun r => r.1 ≤ code && code ≤ r.2

end ArrowCheck.Text
