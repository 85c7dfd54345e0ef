import ArrowCheck.Proofs.Text.Utf8
import ArrowCheck.Source.Lines
import Mathlib.Data.List.Basic

namespace ArrowCheck

variable {offset : Nat} {cs : List Char}

section Scan

/-- A line without its newline, and the offset at which it starts. -/
structure SourceLine where
  start : Nat
  chars : List Char
deriving DecidableEq

/-- The lines of a text that starts at `offset`. A newline ends a line, so there is one line more than
there are newlines. -/
def linesFrom (offset : Nat) : List Char → List SourceLine
  | [] => [⟨offset, []⟩]
  | c :: cs =>
    let rest := linesFrom (offset + c.utf8Size) cs
    if c = '\n' then ⟨offset, []⟩ :: rest
    else
      match rest with
      | line :: lines => ⟨offset, c :: line.chars⟩ :: lines
      | [] => [⟨offset, [c]⟩]

theorem exists_linesFrom (offset : Nat) (cs : List Char) :
    ∃ chars lines, linesFrom offset cs = ⟨offset, chars⟩ :: lines := by
  cases cs with
  | nil => exact ⟨[], [], rfl⟩
  | cons c cs =>
    rw [linesFrom]
    by_cases hc : c = '\n'
    · rw [if_pos hc]
      exact ⟨_, _, rfl⟩
    · rw [if_neg hc]
      split <;> exact ⟨_, _, rfl⟩

/-- The lines of a text by its characters: a newline stands for an end, and any other character belongs
to the line that is found behind it. -/
inductive HasLines : Nat → List Char → List SourceLine → Prop
  | nil {offset : Nat} : HasLines offset [] [⟨offset, []⟩]
  | newline {offset : Nat} {cs : List Char} {lines : List SourceLine}
    (h : HasLines (offset + 1) cs lines) : HasLines offset ('\n' :: cs) (⟨offset, []⟩ :: lines)
  | cons {offset : Nat} {c : Char} {cs first : List Char} {lines : List SourceLine} (hc : c ≠ '\n')
    (h : HasLines (offset + c.utf8Size) cs (⟨offset + c.utf8Size, first⟩ :: lines)) :
    HasLines offset (c :: cs) (⟨offset, c :: first⟩ :: lines)

theorem hasLines (offset : Nat) (cs : List Char) : HasLines offset cs (linesFrom offset cs) := by
  induction cs generalizing offset with
  | nil => exact .nil
  | cons c cs ih =>
    obtain ⟨first, lines, hlines⟩ := exists_linesFrom (offset + c.utf8Size) cs
    have ih := ih (offset + c.utf8Size)
    rw [linesFrom]
    by_cases hc : c = '\n'
    · subst hc
      exact .newline ih
    · rw [hlines] at ih
      rw [if_neg hc, hlines]
      exact .cons hc ih

namespace HasLines

variable {lines : List SourceLine}

theorem eq_linesFrom (h : HasLines offset cs lines) : linesFrom offset cs = lines := by
  induction h with
  | nil => rfl
  | newline _ ih => exact congrArg _ ih
  | cons hc _ ih => rw [linesFrom, if_neg hc, ih]

theorem map_chars (h : HasLines offset cs lines) : lines.map (·.chars) = cs.splitOn '\n' := by
  induction h with
  | nil => rfl
  | newline _ ih =>
    rw [List.splitOn_eq_splitOnP, List.splitOnP_cons_eq_if_modifyHead, ← List.splitOn_eq_splitOnP, ← ih]
    rfl
  | cons hc _ ih =>
    rw [List.splitOn_eq_splitOnP, List.splitOnP_cons_eq_if_modifyHead, ← List.splitOn_eq_splitOnP, ← ih,
      if_neg (by simpa using hc)]
    rfl

theorem length_eq (h : HasLines offset cs lines) : lines.length = cs.count '\n' + 1 := by
  induction h with
  | nil => rfl
  | newline _ ih => rw [List.length_cons, ih, List.count_cons_self]
  | cons hc _ ih => rw [List.count_cons_of_ne hc, ← ih, List.length_cons, List.length_cons]

theorem start_of_mem {l : SourceLine} (h : HasLines offset cs lines) (hl : l ∈ lines) :
    offset ≤ l.start ∧ l.start ≤ offset + byteLength cs := by
  induction h with
  | nil =>
    rw [List.mem_singleton.mp hl]
    exact ⟨Nat.le_refl _, Nat.le_refl _⟩
  | newline _ ih =>
    have hsize : '\n'.utf8Size = 1 := rfl
    rw [byteLength, hsize]
    rcases List.mem_cons.mp hl with rfl | hmem
    · exact ⟨Nat.le_refl _, Nat.le_add_right _ _⟩
    · have := ih hmem
      omega
  | cons _ _ ih =>
    rw [byteLength]
    rcases List.mem_cons.mp hl with rfl | hmem
    · exact ⟨Nat.le_refl _, Nat.le_add_right _ _⟩
    · have := ih (List.mem_cons_of_mem _ hmem)
      omega

theorem append_newline {more : List SourceLine} {ys : List Char} (h : HasLines offset cs lines)
    (hmore : HasLines (offset + byteLength cs + 1) ys more) :
    HasLines offset (cs ++ '\n' :: ys) (lines ++ more) := by
  induction h with
  | nil => exact .newline hmore
  | newline _ ih => exact .newline (ih (by rwa [byteLength, ← Nat.add_assoc] at hmore))
  | cons hc _ ih => exact .cons hc (ih (by rwa [byteLength, ← Nat.add_assoc] at hmore))

theorem pairwise_start (h : HasLines offset cs lines) : (lines.map (·.start)).Pairwise (· < ·) := by
  induction h with
  | nil => exact List.pairwise_singleton _ _
  | newline h ih =>
    rw [List.map_cons]
    refine List.pairwise_cons.mpr ⟨fun start hstart => ?_, ih⟩
    obtain ⟨l, hl, rfl⟩ := List.mem_map.mp hstart
    exact (h.start_of_mem hl).1
  | cons _ _ ih =>
    rw [List.map_cons, List.pairwise_cons] at ih ⊢
    exact ⟨fun start hstart => Nat.lt_of_le_of_lt (Nat.le_add_right _ _) (ih.1 start hstart), ih.2⟩

/-- Where a line stands in its text, and that it ends right in front of the next one or with the text. -/
theorem cut {k : Nat} {l : SourceLine} (h : HasLines offset cs lines) (hl : lines[k]? = some l) :
    ∃ before after, cs = before ++ (l.chars ++ after) ∧ l.start = offset + byteLength before ∧
      ((lines.map (·.start))[k + 1]?.map (· - 1)).getD (offset + byteLength cs) =
        l.start + byteLength l.chars := by
  induction h generalizing k l with
  | nil =>
    cases k with
    | zero =>
      cases hl
      exact ⟨[], [], rfl, rfl, rfl⟩
    | succ k => exact absurd hl nofun
  | @newline offset cs lines h ih =>
    have hsize : '\n'.utf8Size = 1 := rfl
    rw [byteLength, ← Nat.add_assoc, hsize]
    cases k with
    | zero =>
      cases hl
      obtain ⟨first, more, hlines⟩ := exists_linesFrom (offset + 1) cs
      rw [h.eq_linesFrom] at hlines
      exact ⟨[], '\n' :: cs, rfl, rfl, by rw [hlines]; rfl⟩
    | succ k =>
      obtain ⟨before, after, rfl, hstart, hstop⟩ := ih hl
      exact ⟨'\n' :: before, after, rfl, by rw [hstart, byteLength, Nat.add_assoc]; rfl, hstop⟩
  | cons hc h ih =>
    rw [byteLength, ← Nat.add_assoc]
    cases k with
    | zero =>
      cases hl
      obtain ⟨before, after, hcs, hstart, hstop⟩ := ih (k := 0) rfl
      obtain rfl : before = [] := by
        cases before with
        | nil => rfl
        | cons d before =>
          have := d.utf8Size_pos
          simp only [byteLength] at hstart
          omega
      exact ⟨[], after, congrArg (_ :: ·) hcs, rfl, by rw [byteLength, ← Nat.add_assoc]; exact hstop⟩
    | succ k =>
      obtain ⟨before, after, rfl, hstart, hstop⟩ := ih (k := k + 1) hl
      exact ⟨_ :: before, after, rfl, by rw [hstart, byteLength, Nat.add_assoc], hstop⟩

theorem of_notMem (offset : Nat) (h : '\n' ∉ cs) : HasLines offset cs [⟨offset, cs⟩] := by
  induction cs generalizing offset with
  | nil => exact .nil
  | cons c cs ih =>
    exact .cons (List.ne_of_not_mem_cons h).symm (ih _ (List.not_mem_of_not_mem_cons h))

end HasLines

end Scan

section Slices

variable {n : Nat}

theorem charsBehind_byteLength (before after : List Char) :
    charsBehind (byteLength before) (before ++ after) = some after := by
  induction before with
  | nil => rw [byteLength, charsBehind, List.nil_append]
  | cons c before ih =>
    obtain ⟨n, hn⟩ : ∃ n, c.utf8Size + byteLength before = n + 1 :=
      Nat.exists_eq_succ_of_ne_zero (Nat.pos_iff_ne_zero.mp (Nat.add_pos_left c.utf8Size_pos _))
    rw [byteLength, hn, List.cons_append, charsBehind, ← hn, if_pos (Nat.le_add_right _ _),
      Nat.add_sub_cancel_left, ih]

theorem charsBefore_append (after : List Char) (h : n ≤ byteLength cs) :
    charsBefore n (cs ++ after) = charsBefore n cs := by
  induction cs generalizing n with
  | nil => rw [Nat.le_zero.mp h, charsBefore, charsBefore]
  | cons c cs ih =>
    cases n with
    | zero => rw [charsBefore, charsBefore]
    | succ n =>
      rw [byteLength] at h
      rw [List.cons_append, charsBefore, charsBefore, ih (by omega)]

theorem charsBetween_append (before after : List Char) (h : n ≤ byteLength cs) :
    charsBetween (byteLength before) (byteLength before + n) (before ++ (cs ++ after)) =
      charsBefore n cs := by
  rw [charsBetween, if_pos (Nat.le_add_right _ _), charsBehind_byteLength, Option.bind_some,
    Nat.add_sub_cancel_left, charsBefore_append after h]

end Slices

section Starts

/-- The offsets behind the newlines among some bytes, of which the first has the given offset. -/
def newlineEnds (offset : Nat) (bytes : List UInt8) : List Nat :=
  ((bytes.zipIdx offset).filter fun (b, _) => b = 0x0A).map fun (_, i) => i + 1

theorem length_encode (cs : List Char) : (Utf8.encode cs).length = byteLength cs := by
  induction cs with
  | nil => rfl
  | cons c cs ih =>
    rw [Utf8.encode, List.flatMap_cons, List.length_append, String.length_utf8EncodeChar, byteLength]
    exact congrArg _ ih

theorem newlineEnds_cons (offset : Nat) (c : Char) (cs : List Char) :
    newlineEnds offset (Utf8.encode (c :: cs)) =
      (if c = '\n' then [offset + 1] else []) ++ newlineEnds (offset + c.utf8Size) (Utf8.encode cs) := by
  have hencode : Utf8.encode (c :: cs) = String.utf8EncodeChar c ++ Utf8.encode cs := List.flatMap_cons ..
  rw [newlineEnds, hencode, List.zipIdx_append, List.filter_append, List.map_append,
    String.length_utf8EncodeChar]
  refine congrArg (· ++ _) ?_
  split
  · rename_i hc
    subst hc
    rfl
  · rename_i hc
    have hnone : ∀ x ∈ (String.utf8EncodeChar c).zipIdx offset, ¬ decide (x.1 = 0x0A) = true := by
      intro x hx hx'
      have hmem : x.1 ∈ String.utf8EncodeChar c := List.fst_mem_of_mem_zipIdx hx
      rcases Utf8.toNat_of_mem_utf8EncodeChar hmem with h | h <;> rw [of_decide_eq_true hx'] at h
      · exact absurd h (by decide)
      · exact hc (Char.toNat_inj.mp h.symm)
    rw [List.filter_eq_nil_iff.mpr hnone, List.map_nil]

theorem HasLines.map_start {lines : List SourceLine} (h : HasLines offset cs lines) :
    lines.map (·.start) = offset :: newlineEnds offset (Utf8.encode cs) := by
  induction h with
  | nil => rfl
  | newline _ ih =>
    rw [newlineEnds_cons, List.map_cons, ih]
    rfl
  | cons hc _ ih =>
    rw [List.map_cons, List.cons.injEq] at ih
    rw [newlineEnds_cons, if_neg hc, List.map_cons, ih.2]
    rfl

theorem starts_ofChars (cs : List Char) :
    (LineIndex.ofChars cs).starts.toList = (linesFrom 0 cs).map (·.start) := (hasLines 0 cs).map_start.symm

theorem length_ofChars (cs : List Char) : (LineIndex.ofChars cs).length = byteLength cs := length_encode cs

end Starts

section Search

variable {starts : Array Nat} {value bound low high : Nat}

def Increasing (starts : Array Nat) : Prop :=
  ∀ (i j x y : Nat), starts[i]? = some x → starts[j]? = some y → i < j → x < y

theorem increasing_of_pairwise (h : starts.toList.Pairwise (· < ·)) : Increasing starts := by
  intro i j x y hi hj hij
  obtain ⟨hi', rfl⟩ := Array.getElem?_eq_some_iff.mp hi
  obtain ⟨hj', rfl⟩ := Array.getElem?_eq_some_iff.mp hj
  exact List.pairwise_iff_getElem.mp h i j hi' hj' hij

/-- Everything in front of the entries from `low` to `high` is smaller than the value, and everything behind
them is greater. -/
structure Bracketed (starts : Array Nat) (value low high : Nat) : Prop where
  low_le : low ≤ high
  high_le : high ≤ starts.size
  smaller : ∀ i x, starts[i]? = some x → i < low → x < value
  greater : ∀ i x, starts[i]? = some x → high ≤ i → value < x

namespace Bracketed

variable {middle start : Nat}

theorem all (starts : Array Nat) (value : Nat) : Bracketed starts value 0 starts.size where
  low_le := Nat.zero_le _
  high_le := Nat.le_refl _
  smaller i _ _ hi := absurd hi (Nat.not_lt_zero i)
  greater i x hx hi := by
    rw [Array.getElem?_eq_none hi] at hx
    cases hx

theorem behind (h : Bracketed starts value low high) (hsorted : Increasing starts)
    (hmiddle : starts[middle]? = some start) (hlt : start < value) (hhigh : middle < high) :
    Bracketed starts value (middle + 1) high where
  low_le := hhigh
  high_le := h.high_le
  smaller i x hx hi := by
    rcases Nat.lt_or_eq_of_le (Nat.le_of_lt_succ hi) with hbefore | rfl
    · exact Nat.lt_trans (hsorted _ _ _ _ hx hmiddle hbefore) hlt
    · cases hx.symm.trans hmiddle
      exact hlt
  greater := h.greater

theorem before (h : Bracketed starts value low high) (hsorted : Increasing starts)
    (hmiddle : starts[middle]? = some start) (hlt : value < start) (hlow : low ≤ middle)
    (hhigh : middle < high) : Bracketed starts value low middle where
  low_le := hlow
  high_le := Nat.le_trans (Nat.le_of_lt hhigh) h.high_le
  smaller := h.smaller
  greater i x hx hi := by
    rcases Nat.lt_or_eq_of_le hi with hbehind | rfl
    · exact Nat.lt_trans hlt (hsorted _ _ _ _ hmiddle hx hbehind)
    · cases hx.symm.trans hmiddle
      exact hlt

end Bracketed

/-- What a search tells: the place of the value, or the one between all smaller and all greater ones. -/
def FoundIn (starts : Array Nat) (value : Nat) : Except Nat Nat → Prop
  | .ok exact => starts[exact]? = some value
  | .error next => Bracketed starts value next next

theorem search_found (hsorted : Increasing starts) (hbound : high ≤ low + bound)
    (h : Bracketed starts value low high) :
    FoundIn starts value (LineIndex.search starts value bound low high) := by
  induction bound generalizing low high with
  | zero =>
    obtain rfl : high = low := Nat.le_antisymm hbound h.low_le
    exact h
  | succ bound ih =>
    rw [LineIndex.search]
    by_cases hlt : low < high
    · have hhigh := h.high_le
      have hmiddle : starts[(low + high) / 2]? = some (starts.getD ((low + high) / 2) 0) := by
        simp [Array.getD, show (low + high) / 2 < starts.size by omega]
      rw [if_pos hlt]
      dsimp only
      generalize starts.getD ((low + high) / 2) 0 = start at hmiddle
      split
      · rename_i heq
        rwa [heq] at hmiddle
      · split
        · rename_i hstart
          exact ih (by omega) (h.behind hsorted hmiddle hstart (by omega))
        · exact ih (by omega) (h.before hsorted hmiddle (by omega) (by omega) (by omega))
    · obtain rfl : high = low := Nat.le_antisymm (Nat.not_lt.mp hlt) h.low_le
      rw [if_neg hlt]
      exact h

theorem LineIndex.lineOf_spec {index : LineIndex} (hsorted : Increasing index.starts)
    (hfirst : index.starts[0]? = some 0) (offset : Nat) :
    index.lineOf offset < index.starts.size ∧
      ∀ i x, index.starts[i]? = some x → (x ≤ offset ↔ i ≤ index.lineOf offset) := by
  have hfound : FoundIn index.starts offset
      (search index.starts offset index.starts.size 0 index.starts.size) :=
    search_found hsorted (Nat.le_add_left _ _) (.all _ _)
  unfold lineOf
  cases hresult : search index.starts offset index.starts.size 0 index.starts.size with
  | ok exact =>
    rw [hresult] at hfound
    obtain ⟨hlt, hget⟩ := Array.getElem?_eq_some_iff.mp hfound
    refine ⟨hlt, fun i x hi => ⟨fun hle => ?_, fun hle => ?_⟩⟩
    · by_contra hgt
      have := hsorted _ _ _ _ hfound hi (Nat.not_le.mp hgt)
      omega
    · rcases Nat.lt_or_eq_of_le hle with hlt | rfl
      · exact Nat.le_of_lt (hsorted _ _ _ _ hi hfound hlt)
      · exact Nat.le_of_eq (Option.some.inj (hi.symm.trans hfound))
  | error next =>
    rw [hresult] at hfound
    have hnext : 0 < next := by
      by_contra h
      exact absurd (hfound.greater 0 0 hfirst (Nat.not_lt.mp h)) (Nat.not_lt_zero _)
    have hle := hfound.high_le
    refine ⟨show next - 1 < _ by omega, fun i x hi => show x ≤ offset ↔ i ≤ next - 1 from ?_⟩
    have hsmaller := hfound.smaller i x hi
    have hgreater := hfound.greater i x hi
    omega

end Search

section Equality

/-- The place of a byte by a scan over the lines. -/
def scanPlace (cs : List Char) (offset : Nat) : LineColumn :=
  let offset := min offset (byteLength cs)
  let begun := (linesFrom 0 cs).takeWhile (·.start ≤ offset)
  let line := begun.getLastD ⟨0, []⟩
  let column := ((charsBefore (offset - line.start) line.chars).map List.length).getD (offset - line.start)
  ⟨begun.length, column + 1⟩

theorem takeWhile_eq_take {α : Type} {p : α → Bool} {xs : List α} {n : Nat}
    (h : ∀ i x, xs[i]? = some x → (p x = true ↔ i < n)) : xs.takeWhile p = xs.take n := by
  induction xs generalizing n with
  | nil => rw [List.takeWhile_nil, List.take_nil]
  | cons x xs ih =>
    have hx := h 0 x rfl
    cases n with
    | zero => rw [List.takeWhile_cons_of_neg (by simp [hx]), List.take_zero]
    | succ n =>
      rw [List.takeWhile_cons_of_pos (hx.mpr (Nat.zero_lt_succ n)), List.take_succ_cons]
      refine congrArg _ (ih fun i y hy => ?_)
      rw [h (i + 1) y (by simpa using hy)]
      omega

section Text

variable (cs : List Char)

theorem increasing_ofChars : Increasing (LineIndex.ofChars cs).starts := by
  apply increasing_of_pairwise
  rw [starts_ofChars]
  exact (hasLines 0 cs).pairwise_start

theorem getElem?_starts (k : Nat) :
    (LineIndex.ofChars cs).starts[k]? = ((linesFrom 0 cs).map (·.start))[k]? := by
  rw [← starts_ofChars, Array.getElem?_toList]

theorem lineCount_eq_scan : (SourceText.ofChars cs).lineCount = (linesFrom 0 cs).length := by
  have h := congrArg List.length (starts_ofChars cs)
  rwa [Array.length_toList, List.length_map] at h

/-- The index tells the same place as a scan, also inside characters and behind the text. -/
theorem locate_eq_scan (offset : Nat) : (SourceText.ofChars cs).locate offset = scanPlace cs offset := by
  rw [SourceText.locate, LineIndex.locate, scanPlace]
  simp only [SourceText.ofChars, length_ofChars]
  have hle : min offset (byteLength cs) ≤ byteLength cs := Nat.min_le_right _ _
  generalize min offset (byteLength cs) = o at hle
  obtain ⟨hlt, hbegun⟩ := LineIndex.lineOf_spec (increasing_ofChars cs) rfl o
  generalize (LineIndex.ofChars cs).lineOf o = k at hlt hbegun
  simp only [getElem?_starts, List.getElem?_map] at hbegun
  obtain ⟨l, hl⟩ : ∃ l, (linesFrom 0 cs)[k]? = some l :=
    ⟨_, List.getElem?_eq_getElem (lineCount_eq_scan cs ▸ hlt)⟩
  have hstart : (LineIndex.ofChars cs).starts.getD k 0 = l.start := by
    rw [Array.getD_eq_getD_getElem?, getElem?_starts, List.getElem?_map, hl]
    rfl
  have htake : (linesFrom 0 cs).takeWhile (·.start ≤ o) = (linesFrom 0 cs).take k ++ [l] := by
    rw [takeWhile_eq_take (n := k + 1), List.take_add_one, hl]
    · rfl
    · intro i x hi
      rw [decide_eq_true_iff, hbegun i x.start (by rw [hi]; rfl), Nat.lt_succ_iff]
  have hlength : ((linesFrom 0 cs).take k).length = k :=
    List.length_take_of_le (Nat.le_of_lt (lineCount_eq_scan cs ▸ hlt))
  -- the byte is on the line, for the next line starts behind it
  have hbetween : charsBetween l.start o cs = charsBefore (o - l.start) l.chars := by
    obtain ⟨before, after, hcs, hbefore, hstop⟩ := (hasLines 0 cs).cut hl
    have hfrom : l.start ≤ o := (hbegun k l.start (by rw [hl]; rfl)).mpr (Nat.le_refl k)
    have hto : o ≤ l.start + byteLength l.chars := by
      rw [← hstop, List.getElem?_map]
      cases hnext : (linesFrom 0 cs)[k + 1]? with
      | none => simpa using hle
      | some next =>
        have := hbegun (k + 1) next.start (by rw [hnext]; rfl)
        simp only [Option.map_some, Option.getD_some]
        omega
    have hslice := charsBetween_append before after (by omega : o - l.start ≤ byteLength l.chars)
    rwa [← hcs, ← Nat.zero_add (byteLength before), ← hbefore, Nat.add_sub_cancel' hfrom] at hslice
  rw [hstart, htake, List.getLastD_concat, hbetween, List.length_append, hlength]
  rfl

theorem lineText?_eq_scan (k : Nat) :
    (SourceText.ofChars cs).lineText? (k + 1) =
      (linesFrom 0 cs)[k]?.map fun l => SourceText.dropReturn l.chars := by
  rw [SourceText.lineText?, LineIndex.lineText?, if_neg (Nat.succ_ne_zero k), Nat.add_sub_cancel]
  simp only [SourceText.ofChars, getElem?_starts, length_ofChars]
  cases hl : (linesFrom 0 cs)[k]? with
  | none =>
    rw [List.getElem?_map, hl]
    rfl
  | some l =>
    obtain ⟨before, after, hcs, hbefore, hstop⟩ := (hasLines 0 cs).cut hl
    rw [Nat.zero_add] at hbefore hstop
    have hline := charsBetween_append before after (Nat.le_refl (byteLength l.chars))
    have hchars := charsBefore_byteLength l.chars []
    rw [List.append_nil] at hchars
    rw [← hcs, ← hbefore, hchars] at hline
    rw [hstop, List.getElem?_map, hl]
    simp [hline]

end Text

end Equality

end ArrowCheck
