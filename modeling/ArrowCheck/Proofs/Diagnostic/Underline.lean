import ArrowCheck.Diagnostic.Render
import ArrowCheck.Proofs.Source.Lines

namespace ArrowCheck

/-- The characters of a text from byte `offset` on whose first byte is in the range. -/
def charsIn (s : Span) : (offset : Nat) → List Char → List Char
  | _, [] => []
  | offset, c :: cs =>
    if s.contains offset then c :: charsIn s (offset + c.utf8Size) cs
    else charsIn s (offset + c.utf8Size) cs

def Span.chars (s : Span) (cs : List Char) : List Char := charsIn s 0 cs

/-- The range of the line that a byte is on: from behind the newline before it to the newline behind it,
without a carriage return at the end. -/
def lineAround (cs : List Char) (offset : Nat) : Span :=
  let before := (Span.mk 0 offset).chars cs
  let after := cs.drop before.length
  let start := byteLength (before.rdropWhile (· != '\n'))
  let line := before.rtakeWhile (· != '\n') ++ after.takeWhile (· != '\n')
  ⟨start, start + byteLength (SourceText.dropReturn line)⟩

section Ranges

variable {s : Span} {offset : Nat} {cs : List Char}

theorem charsIn_append (s : Span) (offset : Nat) (xs ys : List Char) :
    charsIn s offset (xs ++ ys) = charsIn s offset xs ++ charsIn s (offset + byteLength xs) ys := by
  induction xs generalizing offset with
  | nil => rfl
  | cons c xs ih =>
    rw [List.cons_append, charsIn, charsIn, ih, byteLength, Nat.add_assoc]
    split <;> rfl

theorem charsIn_of_le_start (h : offset + byteLength cs ≤ s.start) : charsIn s offset cs = [] := by
  induction cs generalizing offset with
  | nil => rfl
  | cons c cs ih =>
    rw [byteLength] at h
    have hpos := c.utf8Size_pos
    have hout : s.contains offset = false := by
      simp only [Span.contains, Bool.and_eq_false_iff, decide_eq_false_iff_not]
      omega
    rw [charsIn, hout]
    exact ih (by omega)

/-- From its start on, a range holds the characters that it takes to cover what is left of it. -/
theorem charsIn_of_start_le (h : s.start ≤ offset) :
    charsIn s offset cs = charsCovering (s.stop - offset) cs := by
  induction cs generalizing offset with
  | nil =>
    rw [charsIn, charsCovering]
  | cons c cs ih =>
    rw [charsIn, ih (by omega)]
    cases hroom : s.stop - offset with
    | zero =>
      have hout : s.contains offset = false := by
        simp only [Span.contains, Bool.and_eq_false_iff, decide_eq_false_iff_not]
        omega
      have hnone : s.stop - (offset + c.utf8Size) = 0 := by omega
      rw [hout, hnone]
      cases cs <;> rfl
    | succ room =>
      have hin : s.contains offset = true := by
        simp only [Span.contains, Bool.and_eq_true, decide_eq_true_eq]
        omega
      rw [hin, charsCovering, ← hroom, Nat.sub_sub]
      rfl

/-- A range that starts at a place holds what it covers of the text behind the place. -/
theorem chars_from (xs ys : List Char) (stop : Nat) :
    (Span.mk (byteLength xs) stop).chars (xs ++ ys) = charsCovering (stop - byteLength xs) ys := by
  rw [Span.chars, charsIn_append, charsIn_of_le_start (by simp), charsIn_of_start_le (by simp),
    Nat.zero_add, List.nil_append]

theorem charsCovering_zero (cs : List Char) : charsCovering 0 cs = [] := by
  cases cs <;> rfl

theorem charsCovering_of_le {room : Nat} (h : byteLength cs ≤ room) : charsCovering room cs = cs := by
  induction cs generalizing room with
  | nil => rw [charsCovering]
  | cons c cs ih =>
    rw [byteLength] at h
    have hpos := c.utf8Size_pos
    cases room with
    | zero => omega
    | succ room => rw [charsCovering, ih (by omega)]

theorem charsCovering_min (room : Nat) (cs : List Char) :
    charsCovering (min room (byteLength cs)) cs = charsCovering room cs := by
  rcases Nat.le_total room (byteLength cs) with h | h
  · rw [Nat.min_eq_left h]
  · rw [Nat.min_eq_right h, charsCovering_of_le h, charsCovering_of_le (Nat.le_refl _)]

theorem charsCovering_append {room : Nat} {xs : List Char} (h : room ≤ byteLength xs) (ys : List Char) :
    charsCovering room (xs ++ ys) = charsCovering room xs := by
  induction xs generalizing room with
  | nil =>
    rw [Nat.le_zero.mp h, charsCovering_zero, charsCovering_zero]
  | cons c xs ih =>
    rw [byteLength] at h
    cases room with
    | zero => rfl
    | succ room => rw [List.cons_append, charsCovering, charsCovering, ih (by omega)]

theorem chars_between (xs ys zs : List Char) :
    (Span.mk (byteLength xs) (byteLength xs + byteLength ys)).chars (xs ++ (ys ++ zs)) = ys := by
  rw [chars_from, Nat.add_sub_cancel_left, charsCovering_append (Nat.le_refl _),
    charsCovering_of_le (Nat.le_refl _)]

theorem lineAround_byteLength (before after : List Char) :
    lineAround (before ++ after) (byteLength before) =
      ⟨byteLength (before.rdropWhile (· != '\n')), byteLength (before.rdropWhile (· != '\n')) +
        byteLength (SourceText.dropReturn
          (before.rtakeWhile (· != '\n') ++ after.takeWhile (· != '\n')))⟩ := by
  have hbefore := chars_between [] before after
  rw [byteLength, Nat.zero_add, List.nil_append] at hbefore
  rw [lineAround, hbefore, List.drop_left]

end Ranges

/-- How the text of a line lies when the line is cut: the carriage return, if there is one, is behind the
cut, or it is the last character before it. -/
inductive CutText : (part rest text : List Char) → Prop
  | behind (part kept cut : List Char) : CutText part (kept ++ cut) (part ++ kept)
  | before (text : List Char) : CutText (text ++ ['\r']) [] text

theorem cutText_dropReturn (part rest : List Char) :
    CutText part rest (SourceText.dropReturn (part ++ rest)) := by
  rcases withoutReturn_dropReturn (part ++ rest) with h | ⟨h, -⟩
  · generalize SourceText.dropReturn (part ++ rest) = text at h
    rcases List.eq_nil_or_concat rest with rfl | ⟨kept, c, rfl⟩
    · rw [List.append_nil] at h
      rw [h]
      exact .before text
    · rw [List.concat_eq_append, ← List.append_assoc] at h
      rw [← (List.append_inj' h rfl).1, List.concat_eq_append]
      exact .behind part kept [c]
  · rw [← h]
    simpa using CutText.behind part rest []

namespace CutLine

variable {head part rest tail : List Char}

theorem labelled_eq (h : CutLine head part rest tail) (stop : Nat) :
    (SourceText.ofChars (head ++ part ++ (rest ++ tail))).labelled ⟨byteLength (head ++ part), stop⟩ =
      ⟨head.count '\n' + 1, SourceText.dropReturn (part ++ rest),
        Text.width ((SourceText.dropReturn (part ++ rest)).take part.length),
        max 1 (Text.width (charsCovering (stop - byteLength (head ++ part))
          ((SourceText.dropReturn (part ++ rest)).drop part.length)))⟩ := by
  simp only [SourceText.labelled, h.locate_eq, h.lineText_eq, Option.getD_some, Nat.add_sub_cancel,
    Span.length]

end CutLine

namespace CutText

variable {part rest text : List Char} (head tail : List Char)

theorem line_chars (h : CutText part rest text) :
    (Span.mk (byteLength head) (byteLength head + byteLength text)).chars
      (head ++ part ++ (rest ++ tail)) = text := by
  cases h with
  | behind part kept cut => simpa using chars_between head (part ++ kept) (cut ++ tail)
  | before text => simpa using chars_between head text ('\r' :: tail)

theorem indent_chars (h : CutText part rest text) :
    (Span.mk (byteLength head) (min (byteLength (head ++ part)) (byteLength head + byteLength text))).chars
      (head ++ part ++ (rest ++ tail)) = text.take part.length := by
  have hline := h.line_chars head tail
  cases h with
  | behind part kept cut =>
    have hmin : min (byteLength (head ++ part)) (byteLength head + byteLength (part ++ kept)) =
        byteLength head + byteLength part := by
      simp only [byteLength_append]
      omega
    rw [hmin, List.append_assoc, chars_between, List.take_left]
  | before text =>
    have hmin : min (byteLength (head ++ (text ++ ['\r']))) (byteLength head + byteLength text) =
        byteLength head + byteLength text := by
      simp only [byteLength_append]
      omega
    rw [hmin, hline, List.take_of_length_le (by simp)]

theorem marked_chars (h : CutText part rest text) (stop : Nat) :
    (Span.mk (byteLength (head ++ part)) (max (byteLength (head ++ part))
      (min stop (byteLength head + byteLength text)))).chars (head ++ part ++ (rest ++ tail)) =
      charsCovering (stop - byteLength (head ++ part)) (text.drop part.length) := by
  rw [chars_from]
  cases h with
  | behind part kept cut =>
    have hroom : max (byteLength (head ++ part)) (min stop (byteLength head + byteLength (part ++ kept))) -
        byteLength (head ++ part) = min (stop - byteLength (head ++ part)) (byteLength kept) := by
      simp only [byteLength_append]
      omega
    rw [hroom, List.drop_left, List.append_assoc, charsCovering_append (Nat.min_le_right _ _),
      charsCovering_min]
  | before text =>
    -- the label starts behind the text, on the line break
    have hroom : max (byteLength (head ++ (text ++ ['\r']))) (min stop (byteLength head + byteLength text)) -
        byteLength (head ++ (text ++ ['\r'])) = 0 := by
      simp only [byteLength_append]
      omega
    rw [hroom, List.drop_of_length_le (by simp), charsCovering_zero, charsCovering]

end CutText

theorem labelled_chars (before after : List Char) (stop : Nat) :
    let cs := before ++ after
    let start := byteLength before
    let line := lineAround cs start
    (SourceText.ofChars cs).labelled ⟨start, stop⟩ =
      ⟨((SourceText.ofChars cs).locate start).line, line.chars cs,
        Text.width ((Span.mk line.start (min start line.stop)).chars cs),
        max 1 (Text.width ((Span.mk start (max start (min stop line.stop))).chars cs))⟩ := by
  intro cs start line
  have hcut := cutLine_at before after
  have htext := cutText_dropReturn (before.rtakeWhile (· != '\n')) (after.takeWhile (· != '\n'))
  have hbefore := List.rdropWhile_append_rtakeWhile (p := (· != '\n')) (l := before)
  have hafter := List.takeWhile_append_dropWhile (p := (· != '\n')) (l := after)
  have hline := lineAround_byteLength before after
  have hlabelled := hcut.labelled_eq stop
  have hlocate := hcut.locate_eq
  have htextChars := htext.line_chars (before.rdropWhile (· != '\n')) (after.dropWhile (· != '\n'))
  have hindent := htext.indent_chars (before.rdropWhile (· != '\n')) (after.dropWhile (· != '\n'))
  have hmarked := htext.marked_chars (before.rdropWhile (· != '\n')) (after.dropWhile (· != '\n')) stop
  rw [hbefore, hafter] at hlabelled hlocate htextChars hindent hmarked
  simp only [cs, start, line, hline, hlabelled, hlocate, htextChars, hindent, hmarked]

theorem toList_pushn (s : String) (c : Char) (n : Nat) :
    (s.pushn c n).toList = s.toList ++ List.replicate n c := by
  induction n with
  | zero => exact (List.append_nil _).symm
  | succ n ih =>
    have hpush : s.pushn c (n + 1) = (s.pushn c n).push c := rfl
    rw [hpush, String.toList_push, ih, List.append_assoc, List.replicate_succ']

theorem pushn_empty (c : Char) (n : Nat) : "".pushn c n = String.ofList (List.replicate n c) := by
  simp [← String.toList_inj, toList_pushn]

theorem charsWithin_prefix (room : Nat) (cs : List Char) : charsWithin room cs <+: cs := by
  induction cs generalizing room with
  | nil => exact List.prefix_rfl
  | cons c cs ih =>
    rw [charsWithin]
    split
    · exact List.cons_prefix_cons.mpr ⟨rfl, ih _⟩
    · exact List.nil_prefix

theorem shownLine_cases (maxWidth : Nat) (text : List Char) :
    (Text.width text ≤ maxWidth → shownLine maxWidth text = String.ofList text) ∧
      (maxWidth < Text.width text →
        ∃ kept, kept <+: text ∧ shownLine maxWidth text = String.ofList kept ++ "...") := by
  refine ⟨fun h => if_pos h, fun h => ⟨_, charsWithin_prefix (maxWidth - 3) text, ?_⟩⟩
  exact if_neg (Nat.not_le.mpr h)

namespace LabelledLine

variable {l : LabelledLine} (severity : Severity) (message : String) (gutter : Nat)

theorem markRow_of_le (h : l.indent ≤ widestGap) :
    l.markRow severity message gutter =
      ⟨[margin gutter "", ⟨" " ++ .ofList (.replicate l.indent ' '), none⟩,
          .coloured severity.colour (.ofList (.replicate l.marks severity.underline))] ++
        (if message.isEmpty then [] else [⟨" ", none⟩, .coloured severity.colour message]) ++
        [.newline], true⟩ := by
  have hgap : Piece.blanks (l.indent + 1) = ⟨" " ++ .ofList (.replicate l.indent ' '), none⟩ := by
    rw [Piece.blanks, pushn_empty, List.replicate_succ, ← List.singleton_append, String.ofList_append]
  rw [markRow, if_pos h, hgap, pushn_empty]

theorem markRow_of_lt (h : widestGap < l.indent) :
    l.markRow severity message gutter = ⟨[margin gutter ""], false⟩ :=
  if_neg (Nat.not_le.mpr h)

end LabelledLine

/-- The rows of a label that starts between characters are the line of its start and the underline. The
line is shown as it is, or a start of it and three dots if it is too wide. The underline is as far from
the margin as the text before the label is wide, and as wide as the labelled text on the line, but at
least one column. Only a gap of more than 65535 columns is not drawn, nor anything behind it. -/
theorem label_underlined (d : Diagnostic) (maxWidth gutter : Nat) (file message : String)
    {source : String} {span : Span} (hstart : String.Pos.Raw.IsValid source ⟨span.start⟩) :
    let cs := source.toList
    let t := SourceText.ofString source
    let line := lineAround cs span.start
    let indent := Text.width ((Span.mk line.start (min span.start line.stop)).chars cs)
    let marks := max 1 (Text.width
      ((Span.mk span.start (max span.start (min span.stop line.stop))).chars cs))
    let note := if message.isEmpty then [] else [⟨" ", none⟩, .coloured d.severity.colour message]
    ∃ shown : String,
      (Text.width (line.chars cs) ≤ maxWidth → shown = .ofList (line.chars cs)) ∧
      (maxWidth < Text.width (line.chars cs) →
        ∃ kept, kept <+: line.chars cs ∧ shown = .ofList kept ++ "...") ∧
      let top := [margin gutter (toString (t.locate span.start).line), ⟨" " ++ shown, none⟩, .newline]
      (indent ≤ 65535 → d.labelRows maxWidth gutter (⟨file, span, message⟩, t) =
        ⟨top ++ ([margin gutter "", ⟨" " ++ .ofList (.replicate indent ' '), none⟩,
          .coloured d.severity.colour (.ofList (.replicate marks d.severity.underline))] ++ note ++
            [.newline]), true⟩) ∧
      (65535 < indent → d.labelRows maxWidth gutter (⟨file, span, message⟩, t) =
        ⟨top ++ [margin gutter ""], false⟩) := by
  intro cs t line indent marks note
  obtain ⟨start, stop⟩ := span
  obtain ⟨before, after, hsource, rfl⟩ := exists_before_of_isValid hstart
  have hlabelled : t.labelled ⟨byteLength before, stop⟩ =
      ⟨(t.locate (byteLength before)).line, line.chars cs, indent, marks⟩ := by
    simp only [t, line, indent, marks, cs, SourceText.ofString, hsource]
    exact labelled_chars before after stop
  obtain ⟨hshown, hcut⟩ := shownLine_cases maxWidth (line.chars cs)
  refine ⟨shownLine maxWidth (line.chars cs), hshown, hcut, fun h => ?_, fun h => ?_⟩
  · simp only [Diagnostic.labelRows, hlabelled]
    rw [LabelledLine.markRow_of_le (l := ⟨_, _, indent, marks⟩) _ _ _ h]
    rfl
  · simp only [Diagnostic.labelRows, hlabelled]
    rw [LabelledLine.markRow_of_lt (l := ⟨_, _, indent, marks⟩) _ _ _ h]
    rfl

/-- A label behind a wide character and a letter with an accent that takes no column of its own, which
reaches into the next line: there are three columns in front of the underline, and the underline ends
with the line, before the line break. -/
theorem wide_label_underlined :
    let source := "a\n世e\u0301世!\r\nb"
    let span : Span := ⟨8, 15⟩
    String.Pos.Raw.IsValid source ⟨span.start⟩ ∧
      (Diagnostic.mk .error none "m" [] []).labelRows 120 1 (⟨"f.js", span, ""⟩, .ofString source) =
        ⟨[margin 1 "2", ⟨" 世e\u0301世!", none⟩, .newline, margin 1 "", ⟨"    ", none⟩,
          .coloured .red "^^^", .newline], true⟩ := by
  intro source span
  have hstart : String.Pos.Raw.IsValid source ⟨span.start⟩ :=
    isValid_byteLength ['a', '\n', '世', 'e', '\u0301'] ['世', '!', '\r', '\n', 'b'] (by decide)
  obtain ⟨shown, hshown, -, hrows, -⟩ :=
    label_underlined (.mk .error none "m" [] []) 120 1 "f.js" "" hstart
  obtain rfl := hshown (by decide +kernel)
  exact ⟨hstart, (hrows (by decide +kernel)).trans (by decide +kernel)⟩

section Letters

variable (n : Nat)

theorem measure_letters : Text.measure (List.replicate n 'a') = ((n : Int), {}) := by
  induction n with
  | zero => rfl
  | succ n ih =>
    rw [List.replicate_succ, Text.measure, ih]
    rfl

theorem byteLength_letters : byteLength (List.replicate n 'a') = n := by
  induction n with
  | zero => rfl
  | succ n ih =>
    rw [List.replicate_succ, byteLength, ih, Nat.add_comm]
    rfl

/-- Letters have a column each, so a label behind them is as far to the right as they are many. -/
theorem indent_letters (stop : Nat) :
    ((SourceText.ofChars (List.replicate n 'a' ++ ['x'])).labelled ⟨n, stop⟩).indent = n := by
  have hcut : CutLine [] (List.replicate n 'a') ['x'] [] :=
    ⟨.inl rfl, by simp [List.mem_replicate], by decide, .inl rfl⟩
  have hlabelled := hcut.labelled_eq stop
  have hreturn : SourceText.dropReturn (List.replicate n 'a' ++ ['x']) = List.replicate n 'a' ++ ['x'] := by
    simp [SourceText.dropReturn]
  rw [List.nil_append, List.append_nil, byteLength_letters, hreturn] at hlabelled
  rw [hlabelled, List.take_left, Text.width, measure_letters]
  rfl

end Letters

/-- A label behind more letters than the widest gap has columns: its rows are not finished. -/
theorem far_label_unfinished :
    ((Diagnostic.mk .error none "m" [] []).labelRows 120 1
      (⟨"a.js", ⟨65536, 65537⟩, ""⟩,
        .ofString (.ofList (List.replicate 65536 'a' ++ ['x'])))).finished = false := by
  have hindent := indent_letters 65536 65537
  rw [SourceText.ofString, String.toList_ofList, Diagnostic.labelRows]
  rw [LabelledLine.markRow_of_lt _ _ _ (by rw [hindent]; decide)]
  rfl

end ArrowCheck
