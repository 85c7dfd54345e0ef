import ArrowCheck.Proofs.Source.Index
import ArrowCheck.Proofs.Token.Tiling
import Mathlib.Data.List.DropRight

namespace ArrowCheck

variable {offset : Nat} {before after cs head line rest : List Char}

/-- A text that is cut at a place: whole lines, the line of the place before and behind it, and what
follows that line. -/
structure CutLine (head line rest tail : List Char) : Prop where
  head : head = [] ∨ ∃ lines, head = lines ++ ['\n']
  line : '\n' ∉ line
  rest : '\n' ∉ rest
  tail : tail = [] ∨ ∃ lines, tail = '\n' :: lines

theorem cutLine_at (before after : List Char) :
    CutLine (before.rdropWhile (· != '\n')) (before.rtakeWhile (· != '\n'))
      (after.takeWhile (· != '\n')) (after.dropWhile (· != '\n')) where
  head := by
    by_cases hne : before.rdropWhile (· != '\n') = []
    · exact .inl hne
    · have hlast : (before.rdropWhile (· != '\n')).getLast hne = '\n' := by
        simpa using List.rdropWhile_last_not _ _ hne
      have hsplit := List.dropLast_append_getLast hne
      rw [hlast] at hsplit
      exact .inr ⟨_, hsplit.symm⟩
  line h := by simpa using List.mem_rtakeWhile_imp h
  rest h := by simpa using List.mem_takeWhile_imp h
  tail := by
    have hfirst := List.head?_dropWhile_not (· != '\n') after
    cases htail : after.dropWhile (· != '\n') with
    | nil => exact .inl rfl
    | cons c cs =>
      rw [htail] at hfirst
      have hc : c = '\n' := by simpa using hfirst
      exact .inr ⟨cs, by rw [hc]⟩

namespace CutLine

variable {tail : List Char}

theorem lines_head {later : List SourceLine} (h : CutLine head line rest tail)
    (hlater : HasLines (byteLength head) cs later) :
    ∃ done, HasLines 0 (head ++ cs) (done ++ later) ∧ done.length = head.count '\n' ∧
      ∀ l ∈ done, l.start ≤ byteLength head := by
  rcases h.head with rfl | ⟨lines, rfl⟩
  · exact ⟨[], hlater, rfl, fun _ h => absurd h List.not_mem_nil⟩
  · have hlines := hasLines 0 lines
    refine ⟨linesFrom 0 lines, ?_, ?_, fun l hl => ?_⟩
    · rw [List.append_assoc, List.singleton_append]
      refine hlines.append_newline ?_
      rw [byteLength_append] at hlater
      rwa [Nat.zero_add]
    · rw [hlines.length_eq, List.count_append]
      rfl
    · have := (hlines.start_of_mem hl).2
      rw [byteLength_append]
      omega

theorem lines_tail (h : CutLine head line rest tail) (offset : Nat) :
    ∃ more, HasLines offset (line ++ (rest ++ tail)) (⟨offset, line ++ rest⟩ :: more) ∧
      ∀ l ∈ more, offset + byteLength line < l.start := by
  have hplain : HasLines offset (line ++ rest) [⟨offset, line ++ rest⟩] :=
    .of_notMem offset (by simp [h.line, h.rest])
  rw [← List.append_assoc]
  rcases h.tail with rfl | ⟨lines, rfl⟩
  · rw [List.append_nil]
    exact ⟨[], hplain, fun _ h => absurd h List.not_mem_nil⟩
  · have hlines := hasLines (offset + byteLength (line ++ rest) + 1) lines
    refine ⟨_, hplain.append_newline hlines, fun l hl => ?_⟩
    have := (hlines.start_of_mem hl).1
    rw [byteLength_append] at this
    omega

theorem exists_lines (h : CutLine head line rest tail) :
    ∃ done more, linesFrom 0 (head ++ line ++ (rest ++ tail)) =
        done ++ ⟨byteLength head, line ++ rest⟩ :: more ∧
      done.length = head.count '\n' ∧
      (done ++ ⟨byteLength head, line ++ rest⟩ :: more).takeWhile
        (·.start ≤ byteLength (head ++ line)) = done ++ [⟨byteLength head, line ++ rest⟩] := by
  obtain ⟨more, hmore, hbehind⟩ := h.lines_tail (byteLength head)
  obtain ⟨done, hdone, hlength, hstarts⟩ := h.lines_head hmore
  refine ⟨done, more, ?_, hlength, ?_⟩
  · rw [List.append_assoc, hdone.eq_linesFrom]
  · rw [byteLength_append, List.takeWhile_append_of_pos, List.takeWhile_cons_of_pos]
    · congr
      cases more with
      | nil => rfl
      | cons l more =>
        have := hbehind l List.mem_cons_self
        exact List.takeWhile_cons_of_neg (by simp; omega)
    · simp
    · intro l hl
      have := hstarts l hl
      simp
      omega

theorem locate_eq (h : CutLine head line rest tail) :
    (SourceText.ofChars (head ++ line ++ (rest ++ tail))).locate (byteLength (head ++ line)) =
      ⟨head.count '\n' + 1, line.length + 1⟩ := by
  obtain ⟨done, more, hlines, hlength, hbegun⟩ := h.exists_lines
  have hmin : min (byteLength (head ++ line)) (byteLength (head ++ line ++ (rest ++ tail))) =
      byteLength (head ++ line) := by
    rw [byteLength_append (head ++ line)]
    omega
  have hcolumn : charsBefore (byteLength (head ++ line) - byteLength head) (line ++ rest) = some line := by
    rw [byteLength_append, Nat.add_sub_cancel_left]
    exact charsBefore_byteLength line rest
  rw [locate_eq_scan, scanPlace, hlines]
  simp only [hmin, hbegun, List.getLastD_concat, hcolumn, Option.map_some, Option.getD_some,
    List.length_append, List.length_singleton, hlength]

theorem lineText_eq (h : CutLine head line rest tail) :
    (SourceText.ofChars (head ++ line ++ (rest ++ tail))).lineText? (head.count '\n' + 1) =
      some (SourceText.dropReturn (line ++ rest)) := by
  obtain ⟨done, more, hlines, hlength, -⟩ := h.exists_lines
  rw [lineText?_eq_scan, hlines, ← hlength]
  simp

end CutLine

/-- The place behind some characters, counted by hand. -/
def placeBehind (before : List Char) : LineColumn :=
  ⟨before.count '\n' + 1, (before.rtakeWhile (· != '\n')).length + 1⟩

theorem locate_byteLength (before after : List Char) :
    (SourceText.ofChars (before ++ after)).locate (byteLength before) = placeBehind before := by
  have h := (cutLine_at before after).locate_eq
  have hcount : (before.rdropWhile (· != '\n')).count '\n' = before.count '\n' := by
    have hsplit := congrArg (List.count '\n') (List.rdropWhile_append_rtakeWhile (p := (· != '\n')) (l := before))
    rwa [List.count_append, List.count_eq_zero_of_not_mem (cutLine_at before after).line] at hsplit
  rwa [List.rdropWhile_append_rtakeWhile, List.takeWhile_append_dropWhile, hcount] at h

theorem rtakeWhile_append (before : List Char) (h : '\n' ∉ cs) :
    (before ++ cs).rtakeWhile (· != '\n') = before.rtakeWhile (· != '\n') ++ cs := by
  have hcs : ∀ c ∈ cs.reverse, (c != '\n') = true := by
    intro c hc
    have hne : c ≠ '\n' := fun heq => h (heq ▸ List.mem_reverse.mp hc)
    simpa using hne
  rw [List.rtakeWhile, List.reverse_append, List.takeWhile_append_of_pos hcs, List.reverse_append,
    List.reverse_reverse]
  rfl

theorem placeBehind_append (before : List Char) (h : cs ≠ []) :
    (placeBehind before).line < (placeBehind (before ++ cs)).line ∨
      (placeBehind before).line = (placeBehind (before ++ cs)).line ∧
        (placeBehind before).column < (placeBehind (before ++ cs)).column := by
  simp only [placeBehind, List.count_append]
  by_cases hmem : '\n' ∈ cs
  · left
    have := List.count_pos_iff.mpr hmem
    omega
  · right
    have := List.length_pos_iff.mpr h
    rw [rtakeWhile_append before hmem, List.length_append, List.count_eq_zero_of_not_mem hmem]
    omega

theorem exists_before_of_isValid {source : String} {o : Nat} (h : String.Pos.Raw.IsValid source ⟨o⟩) :
    ∃ before after, source.toList = before ++ after ∧ byteLength before = o := by
  obtain ⟨before, after, rfl, hpos⟩ := String.Pos.Raw.isValid_iff_exists_append.mp h
  refine ⟨before.toList, after.toList, String.toList_append .., ?_⟩
  rw [byteLength_toList]
  exact (congrArg String.Pos.Raw.byteIdx hpos).symm

theorem locate_of_isValid {source : String} {o : Nat} (h : String.Pos.Raw.IsValid source ⟨o⟩) :
    ∃ before after, source.toList = before ++ after ∧ byteLength before = o ∧
      (SourceText.ofString source).locate o = placeBehind before := by
  obtain ⟨before, after, hsource, rfl⟩ := exists_before_of_isValid h
  refine ⟨before, after, hsource, rfl, ?_⟩
  rw [SourceText.ofString, hsource, locate_byteLength]

theorem locate_of_length_le (t : SourceText) {o : Nat} (h : t.index.length ≤ o) :
    t.locate o = t.locate t.index.length := by
  simp only [SourceText.locate, LineIndex.locate, Nat.min_eq_right h, Nat.min_self]

/-- Of two starts of a text that take different numbers of bytes, the shorter one is the start of the
other. -/
theorem exists_append_of_byteLength_lt {before' after' : List Char} (h : before ++ after = before' ++ after')
    (hlt : byteLength before < byteLength before') : ∃ cs, cs ≠ [] ∧ before' = before ++ cs := by
  rcases List.prefix_or_prefix_of_prefix (List.prefix_append before after)
    (h ▸ List.prefix_append before' after') with ⟨cs, hcs⟩ | ⟨cs, hcs⟩
  · refine ⟨cs, ?_, hcs.symm⟩
    rintro rfl
    rw [← hcs, List.append_nil] at hlt
    omega
  · rw [← hcs, byteLength_append] at hlt
    omega

theorem lineText_splitOn (cs : List Char) (k : Nat) :
    (SourceText.ofChars cs).lineText? (k + 1) =
      (cs.splitOn '\n')[k]?.map SourceText.dropReturn := by
  rw [lineText?_eq_scan, ← (hasLines 0 cs).map_chars, List.getElem?_map, Option.map_map]
  rfl

theorem lineCount_splitOn (cs : List Char) :
    (SourceText.ofChars cs).lineCount = (cs.splitOn '\n').length := by
  rw [← (hasLines 0 cs).map_chars, List.length_map, lineCount_eq_scan]

def WithoutReturn (piece text : List Char) : Prop :=
  piece = text ++ ['\r'] ∨ piece = text ∧ piece.getLast? ≠ some '\r'

theorem withoutReturn_dropReturn (piece : List Char) :
    WithoutReturn piece (SourceText.dropReturn piece) := by
  rw [SourceText.dropReturn]
  by_cases h : piece.getLast? = some '\r'
  · rw [if_pos h]
    exact .inl (List.dropLast_append_getLast? _ h).symm
  · rw [if_neg h]
    exact .inr ⟨rfl, h⟩

/-- Lines and columns are those that are counted by hand, at every place between characters: the line is
one more than the newlines before the place, the column one more than the characters behind the last of
them. A place behind the end is taken for the end, later places have greater lines or columns, and the
lines are the pieces between newlines, each without one carriage return at its end. -/
theorem places_counted (source : String) :
    (∀ o, String.Pos.Raw.IsValid source ⟨o⟩ → ∃ before after, source.toList = before ++ after ∧
      byteLength before = o ∧ (SourceText.ofString source).locate o =
        ⟨before.count '\n' + 1, (before.rtakeWhile (· != '\n')).length + 1⟩) ∧
    (∀ o, source.utf8ByteSize ≤ o → (SourceText.ofString source).locate o =
      (SourceText.ofString source).locate source.utf8ByteSize) ∧
    (∀ o₁ o₂, String.Pos.Raw.IsValid source ⟨o₁⟩ → String.Pos.Raw.IsValid source ⟨o₂⟩ → o₁ < o₂ →
      let p₁ := (SourceText.ofString source).locate o₁
      let p₂ := (SourceText.ofString source).locate o₂
      p₁.line < p₂.line ∨ p₁.line = p₂.line ∧ p₁.column < p₂.column) ∧
    (∀ k, 1 ≤ k → k ≤ (SourceText.ofString source).lineCount → ∃ piece text,
      (source.toList.splitOn '\n')[k - 1]? = some piece ∧ WithoutReturn piece text ∧
        (SourceText.ofString source).lineText? k = some text) ∧
    (∀ k, k < 1 ∨ (SourceText.ofString source).lineCount < k →
      (SourceText.ofString source).lineText? k = none) ∧
    (SourceText.ofString source).lineCount = (source.toList.splitOn '\n').length := by
  have hlength : (SourceText.ofString source).index.length = source.utf8ByteSize :=
    (length_ofChars source.toList).trans (byteLength_toList source)
  have hcount := lineCount_splitOn source.toList
  refine ⟨fun o ho => locate_of_isValid ho, fun o ho => ?_, fun o₁ o₂ h₁ h₂ hlt => ?_, ?_, ?_, hcount⟩
  · rw [← hlength] at ho ⊢
    exact locate_of_length_le _ ho
  · obtain ⟨before₁, after₁, hsource₁, rfl, hplace₁⟩ := locate_of_isValid h₁
    obtain ⟨before₂, after₂, hsource₂, rfl, hplace₂⟩ := locate_of_isValid h₂
    obtain ⟨cs, hne, rfl⟩ := exists_append_of_byteLength_lt (hsource₁.symm.trans hsource₂) hlt
    rw [hplace₁, hplace₂]
    exact placeBehind_append before₁ hne
  · rintro (_ | k) hk hle
    · exact absurd hk (Nat.not_succ_le_zero 0)
    · rw [SourceText.ofString, hcount] at hle
      have hpiece := List.getElem?_eq_getElem (Nat.lt_of_succ_le hle)
      refine ⟨_, _, hpiece, withoutReturn_dropReturn _, ?_⟩
      rw [SourceText.ofString, lineText_splitOn, hpiece, Option.map_some]
  · rintro (_ | k) hk
    · rfl
    · rw [SourceText.ofString, lineText_splitOn, List.getElem?_eq_none, Option.map_none]
      rw [SourceText.ofString, hcount] at hk
      omega

/-- An accented letter and a line break of two characters come before a place on the second line. The
break belongs to neither line, and there is no fourth line. -/
theorem accented_line_counted :
    let source := "é\r\nbc\n"
    let t := SourceText.ofString source
    String.Pos.Raw.IsValid source ⟨4⟩ ∧ String.Pos.Raw.IsValid source ⟨5⟩ ∧
      (∃ before after, source.toList = before ++ after ∧ byteLength before = 5 ∧
        before.count '\n' = 1 ∧ (before.rtakeWhile (· != '\n')).length = 1) ∧
      (t.locate 4).column < (t.locate 5).column ∧ t.locate 100 = t.locate source.utf8ByteSize ∧
      (∃ piece, (source.toList.splitOn '\n')[0]? = some piece ∧ WithoutReturn piece ['é']) ∧
      t.lineText? 4 = none := by
  intro source t
  have h₄ : String.Pos.Raw.IsValid source ⟨4⟩ :=
    isValid_byteLength ['é', '\r', '\n'] ['b', 'c', '\n'] (by decide)
  have h₅ : String.Pos.Raw.IsValid source ⟨5⟩ :=
    isValid_byteLength ['é', '\r', '\n', 'b'] ['c', '\n'] (by decide)
  obtain ⟨hplace, hend, horder, htext, hnone, -⟩ := places_counted source
  refine ⟨h₄, h₅, ?_, ?_, hend 100 (by decide), ?_, hnone 4 (by decide)⟩
  · obtain ⟨before, after, hsource, hlength, hlocate⟩ := hplace 5 h₅
    have h : t.locate 5 = ⟨2, 2⟩ := by decide +kernel
    rw [h, LineColumn.mk.injEq] at hlocate
    exact ⟨before, after, hsource, hlength, by omega, by omega⟩
  · rcases horder 4 5 h₄ h₅ (by decide) with h | h
    · exact absurd h (by decide +kernel)
    · exact h.2
  · obtain ⟨piece, text, hpiece, hwithout, hline⟩ := htext 1 (Nat.le_refl 1) (by decide)
    have h : t.lineText? 1 = some ['é'] := by decide +kernel
    rw [h] at hline
    cases hline
    exact ⟨piece, hpiece, hwithout⟩

end ArrowCheck
