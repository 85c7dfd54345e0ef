import ArrowCheck.Proofs.Layout.RoundTrip
import ArrowCheck.Proofs.Recovery.Order
import ArrowCheck.Proofs.Token.Lexemes
import ArrowCheck.Proofs.Token.Tiling
import ArrowCheck.Report.ParseFault

namespace ArrowCheck

variable {source : String} {before text after cs pre : List Char} {c : Char} {f : ParseFault} {n : Nat}

theorem charsBefore_inside (before after : List Char) (hpos : 0 < n) (hn : n < c.utf8Size) :
    charsBefore (byteLength before + n) (before ++ c :: after) = none := by
  induction before with
  | nil =>
    obtain ⟨m, rfl⟩ := Nat.exists_eq_succ_of_ne_zero (Nat.pos_iff_ne_zero.mp hpos)
    rw [byteLength, Nat.zero_add, List.nil_append, charsBefore, if_neg (by omega)]
  | cons d before ih =>
    obtain ⟨m, hm⟩ : ∃ m, d.utf8Size + byteLength before + n = m + 1 :=
      Nat.exists_eq_succ_of_ne_zero (by omega)
    have hrest : m + 1 - d.utf8Size = byteLength before + n := by omega
    rw [byteLength, hm, List.cons_append, charsBefore, if_pos (by omega), hrest, ih, Option.map_none]

theorem charOffset_byteLength (before after : List Char) :
    charOffset (before ++ after) (byteLength before) = before.length := by
  rw [charOffset, charsBefore_byteLength]

theorem markedChars_whole (h : cs = before ++ text ++ after) :
    markedChars cs ⟨byteLength before, byteLength (before ++ text)⟩ =
      ⟨before.length, (before ++ text).length⟩ := by
  have hstart : charOffset cs (byteLength before) = before.length := by
    rw [h, List.append_assoc, charOffset_byteLength]
  have hstop : charOffset cs (byteLength (before ++ text)) = (before ++ text).length := by
    rw [h, charOffset_byteLength]
  have hle : before.length ≤ (before ++ text).length := (List.prefix_append _ _).length_le
  rw [markedChars, hstart, hstop, Nat.max_eq_left hle]

/-- If the first character of a range is cut at its end, all of the text behind is marked. -/
theorem markedChars_cut (h : cs = before ++ c :: after) (hpos : 0 < n) (hn : n < c.utf8Size) :
    markedChars cs ⟨byteLength before, byteLength before + n⟩ = ⟨before.length, cs.length⟩ := by
  have hstart : charOffset cs (byteLength before) = before.length := by rw [h, charOffset_byteLength]
  have hstop : charOffset cs (byteLength before + n) = cs.length := by
    rw [charOffset, h, charsBefore_inside before after hpos hn]
  have hle : before.length ≤ cs.length := h ▸ (List.prefix_append _ _).length_le
  rw [markedChars, hstart, hstop, Nat.max_eq_left hle]

/-- The fault is shown at whole characters: its range lies in the text, no character is cut at its ends,
and the characters that are marked are those of the range. -/
structure ParseFault.PointsAtCharacters (source : String) (f : ParseFault) : Prop where
  start_le : f.span.start ≤ f.span.stop
  stop_le : f.span.stop ≤ source.utf8ByteSize
  start_valid : String.Pos.Raw.IsValid source ⟨f.span.start⟩
  stop_valid : String.Pos.Raw.IsValid source ⟨f.span.stop⟩
  marked : ∃ before text after, source.toList = before ++ text ++ after ∧
    f.span = ⟨byteLength before, byteLength (before ++ text)⟩ ∧
      ∀ file, (f.notice file source).marked = ⟨before.length, (before ++ text).length⟩

theorem ParseFault.pointsAt_of_span (h : source.toList = before ++ text ++ after)
    (hspan : f.span = ⟨byteLength before, byteLength (before ++ text)⟩) :
    f.PointsAtCharacters source where
  start_le := by
    rw [hspan, byteLength_append]
    exact Nat.le_add_right _ _
  stop_le := by
    rw [hspan, ← byteLength_toList, h, byteLength_append (before ++ text)]
    exact Nat.le_add_right _ _
  start_valid := by
    rw [hspan]
    exact isValid_byteLength before (text ++ after) (by rw [h, List.append_assoc])
  stop_valid := by
    rw [hspan]
    exact isValid_byteLength _ after h
  marked := by
    refine ⟨before, text, after, h, hspan, fun file => ?_⟩
    show markedChars source.toList f.span = _
    rw [hspan, markedChars_whole h]

theorem Lexer.start_blockComment {comment : String} (h : (lexeme c cs).1 = .blockComment comment) :
    c = '/' := by
  have hsound : (lexeme c cs).1.isError = false := by rw [h]; rfl
  cases opens_of_sound hsound with
  | word hword =>
    have hcomment := (wordKind_isAtomic (String.ofList (c :: cs.takeWhile isIdentPart))).2.1
    rw [lexeme_word hword] at h
    dsimp only at h
    rw [h] at hcomment
    cases hcomment
  | number hdigit =>
    rw [lexeme_number hdigit] at h
    cases h
  | string hquote items rest hitems hcs =>
    rw [hcs, lexeme_string hquote hitems] at h
    cases h
  | lineComment hc => exact hc
  | blockComment hc => exact hc
  | arrow hc rest hcs =>
    subst hc hcs
    cases h
  | mark m hmark hnot =>
    rw [lexeme_mark hmark hnot] at h
    cases h

/-- The defect of a token stands at its first character. Only as an unreadable one can this have more
than one byte. -/
theorem Token.fault?_first {t : Token} {fault : LexFault} (ht : t ∈ tokenize source)
    (hfault : t.fault? = some fault) : ∃ before c after, source.toList = before ++ c :: after ∧
      fault.position = byteLength before ∧
        (fault = .unexpected (byteLength before) c ∨ c.utf8Size = 1 ∧ ∀ p d, fault ≠ .unexpected p d) := by
  obtain ⟨before, c, after, hsource, -, -, rfl⟩ := Lexer.exists_cut ht
  rw [Nat.zero_add, Nat.zero_add] at hfault
  unfold Token.fault? at hfault
  refine ⟨before, c, after, hsource, ?_⟩
  cases hk : (Lexer.lexeme c after).1 with
  | error text =>
    simp only [hk, Lexer.toList_of_lexeme hk] at hfault
    split at hfault
    · rename_i hquote
      cases hfault
      refine ⟨rfl, .inr ⟨?_, by simp⟩⟩
      simp only [Lexer.isQuote, Bool.or_eq_true, beq_iff_eq] at hquote
      obtain rfl | rfl := hquote
      · rfl
      · rfl
    · cases hfault
      exact ⟨rfl, .inl rfl⟩
  | blockComment text =>
    simp only [hk] at hfault
    split at hfault
    · cases hfault
    · cases hfault
      rw [Lexer.start_blockComment hk]
      exact ⟨rfl, .inr ⟨rfl, by simp⟩⟩
  | _ =>
    simp only [hk] at hfault
    cases hfault

theorem ParseFault.pointsAt_byte_iff (h : source.toList = before ++ c :: after)
    (hspan : f.span = ⟨byteLength before, byteLength before + 1⟩) :
    f.PointsAtCharacters source ↔ c.utf8Size = 1 := by
  constructor
  · intro hpoints
    obtain ⟨before', text, after', h', hspan', -⟩ := hpoints.marked
    by_contra hsize
    have hpos := c.utf8Size_pos
    have hwide : 1 < c.utf8Size := by omega
    have hnone := charsBefore_inside before after Nat.one_pos hwide
    have hsome := charsBefore_byteLength (before' ++ text) after'
    have hstop : byteLength before + 1 = byteLength (before' ++ text) :=
      congrArg Span.stop (hspan.symm.trans hspan')
    rw [← h, hstop, h', hsome] at hnone
    cases hnone
  · intro hsize
    have htext : source.toList = before ++ [c] ++ after := by
      rw [h, List.append_assoc, List.singleton_append]
    apply pointsAt_of_span htext
    rw [hspan, byteLength_snoc, hsize]

theorem ParseFault.StandsAt.pointsAt {us : List Token}
    (h : f.StandsAt source.utf8ByteSize us) (hus : us <:+ (Cursor.ofSource source).rest) :
    f.PointsAtCharacters source := by
  obtain ⟨t, ht, hspan⟩ | hend := h.token_or_end hus
  · obtain ⟨before, text, after, hsource, -, hstart, hstop⟩ :=
      cut_of_mem_tokenize (List.mem_filter.mp ht).1
    apply pointsAt_of_span hsource
    rw [hspan, ← hstart, ← hstop]
  · have hsource : source.toList = source.toList ++ [] ++ [] := by
      rw [List.append_nil, List.append_nil]
    apply pointsAt_of_span hsource
    rw [hend, List.append_nil, byteLength_toList]

/-- Every fault of a text is shown at whole characters, unless it is an unreadable character of more than
one byte. The range of such a fault ends inside of the character, and the marked characters run to the end
of the text. -/
theorem faults_point_at_characters (source : String) (f : ParseFault) (hf : f ∈ (parse source).faults) :
    (f.PointsAtCharacters source ↔ ∀ p c, f = .lexical (.unexpected p c) → c.utf8Size = 1) ∧
      ∀ p c, f = .lexical (.unexpected p c) → c.utf8Size ≠ 1 → ∃ before after,
        source.toList = before ++ c :: after ∧ f.span = ⟨byteLength before, byteLength before + 1⟩ ∧
          ∀ file, (f.notice file source).marked = ⟨before.length, source.toList.length⟩ := by
  obtain ⟨vs, fs, hfaults, hreported⟩ := reported_parse source
  rw [hfaults] at hf
  obtain hlexical | hsyntactic := List.mem_append.mp hf
  · obtain ⟨fault, hfault, rfl⟩ := List.mem_map.mp hlexical
    obtain ⟨t, ht, htfault⟩ := List.mem_filterMap.mp hfault
    obtain ⟨before, c, after, hsource, hposition, hcases⟩ := Token.fault?_first ht htfault
    have hspan : (ParseFault.lexical fault).span = ⟨byteLength before, byteLength before + 1⟩ := by
      rw [ParseFault.span, hposition]
    rw [ParseFault.pointsAt_byte_iff hsource hspan]
    obtain rfl | ⟨hsize, hnot⟩ := hcases
    · refine ⟨⟨fun hsize p d heq => ?_, fun h => h _ _ rfl⟩, fun p d heq hsize => ?_⟩
      · cases heq
        exact hsize
      · cases heq
        have hpos := c.utf8Size_pos
        refine ⟨before, after, hsource, hspan, fun file => ?_⟩
        exact (congrArg _ hspan).trans (markedChars_cut hsource Nat.one_pos (by omega))
    · have hnot' : ∀ p d, ParseFault.lexical fault ≠ .lexical (.unexpected p d) :=
        fun p d heq => hnot p d (ParseFault.lexical.inj heq)
      exact ⟨⟨fun _ p d heq => absurd heq (hnot' p d), fun _ => hsize⟩,
        fun p d heq => absurd heq (hnot' p d)⟩
  · obtain ⟨us, hus, hstands⟩ := hreported.standsAt hsyntactic
    have hnot : ∀ p c, f ≠ .lexical (.unexpected p c) := by
      rintro p c rfl
      exact hstands.1
    exact ⟨⟨fun _ p c h => absurd h (hnot p c), fun _ => hstands.pointsAt hus⟩,
      fun p c h => absurd h (hnot p c)⟩

/-- The letter has two bytes, and the range of its fault ends between them. -/
theorem accented_letter_cut : ∃ source, source = "é" ∧ ∃ f ∈ (parse source).faults,
    f.span = ⟨0, 1⟩ ∧ source.utf8ByteSize = 2 ∧ ¬ f.PointsAtCharacters source := by
  have hfaults : (parse "é").faults = [.lexical (.unexpected 0 'é')] := by decide +kernel
  refine ⟨"é", rfl, .lexical (.unexpected 0 'é'), ?_, rfl, by decide, ?_⟩
  · rw [hfaults]
    exact List.mem_singleton_self _
  · have hsource : "é".toList = [] ++ 'é' :: [] := by decide
    rw [ParseFault.pointsAt_byte_iff hsource rfl]
    decide

/-- A semicolon behind an unreadable letter: letter and semicolon are marked for the letter, the
semicolon alone for itself. -/
theorem accented_letter_marked : ∃ source f g, source = "é;" ∧
    (parse source).faults = [f, g] ∧ f = .lexical (.unexpected 0 'é') ∧
      g = .unexpectedToken "'const' or 'return'" ";" ⟨2, 3⟩ ∧
      ¬ f.PointsAtCharacters source ∧ (f.notice "a.js" source).marked = ⟨0, 2⟩ ∧
      g.PointsAtCharacters source ∧ (g.notice "a.js" source).marked = ⟨1, 2⟩ := by
  let f : ParseFault := .lexical (.unexpected 0 'é')
  let g : ParseFault := .unexpectedToken "'const' or 'return'" ";" ⟨2, 3⟩
  have hfaults : (parse "é;").faults = [f, g] := by decide +kernel
  have hf : f ∈ (parse "é;").faults := hfaults ▸ List.mem_cons_self ..
  have hg : g ∈ (parse "é;").faults := hfaults ▸ List.mem_cons_of_mem _ (List.mem_singleton_self _)
  have hcut : ¬ f.PointsAtCharacters "é;" := by
    intro h
    have hsize := (faults_point_at_characters "é;" f hf).1.mp h 0 'é' rfl
    exact absurd hsize (by decide)
  have hwhole : g.PointsAtCharacters "é;" := (faults_point_at_characters "é;" g hg).1.mpr nofun
  exact ⟨"é;", f, g, rfl, hfaults, rfl, rfl, hcut, by decide, hwhole, by decide⟩

end ArrowCheck
