import ArrowCheck.Proofs.Token.Lexemes

namespace ArrowCheck

theorem charsWithin_byteLength (before after : List Char) :
    charsWithin (byteLength before) (before ++ after) = before := by
  induction before with
  | nil =>
    cases after with
    | nil => rfl
    | cons c cs =>
      have hpos := c.utf8Size_pos
      rw [List.nil_append, charsWithin, byteLength, if_neg (by omega)]
  | cons c cs ih =>
    rw [List.cons_append, byteLength, charsWithin, if_pos (Nat.le_add_right _ _),
      Nat.add_sub_cancel_left, ih]

def Token.textIn (source : String) (t : Token) : List Char :=
  (charsWithin t.span.stop source.toList).drop (charsWithin t.span.start source.toList).length

theorem Token.textIn_cut {source : String} {t : Token} (h : t ∈ tokenize source) :
    ∃ before c rest, source.toList = before ++ c :: rest ∧ Lexer.isBlank c = false ∧
      t.kind = (Lexer.lexeme c rest).1 ∧ t.textIn source = c :: rest.take (Lexer.lexeme c rest).2 ∧
      t.span.stop = byteLength (before ++ t.textIn source) := by
  obtain ⟨before, c, rest, hsource, -, hblank, ht⟩ := Lexer.exists_cut h
  have hstart := charsWithin_byteLength before (c :: rest)
  have hstop := charsWithin_byteLength (before ++ c :: rest.take (Lexer.lexeme c rest).2)
    (rest.drop (Lexer.lexeme c rest).2)
  rw [List.append_assoc, List.cons_append, List.take_append_drop] at hstop
  have htext : t.textIn source = c :: rest.take (Lexer.lexeme c rest).2 := by
    rw [textIn, ht, hsource]
    dsimp only
    rw [Nat.zero_add, Nat.zero_add, hstart, hstop, List.drop_left]
  refine ⟨before, c, rest, hsource, hblank, by rw [ht], htext, ?_⟩
  rw [htext, ht]
  exact Nat.zero_add _

theorem Token.textIn_eq {source : String} {t : Token} (h : t ∈ tokenize source) :
    ∃ c rest, Lexer.isBlank c = false ∧ t.kind = (Lexer.lexeme c rest).1 ∧
      t.textIn source = c :: rest.take (Lexer.lexeme c rest).2 := by
  obtain ⟨before, c, rest, -, hblank, hkind, htext, -⟩ := t.textIn_cut h
  exact ⟨c, rest, hblank, hkind, htext⟩

/-- A text in which the given tokens of a source are written in order, with blanks between any two of
them. -/
inductive Respaced (source : String) : List Token → List Char → Prop
  | nil : Respaced source [] []
  | blank {c : Char} {ts : List Token} {cs : List Char} (hc : Lexer.isBlank c = true)
    (h : Respaced source ts cs) : Respaced source ts (c :: cs)
  | token {t : Token} {ts : List Token} {cs : List Char}
    (hcs : ∀ c, cs.head? = some c → Lexer.isBlank c = true) (h : Respaced source ts cs) :
    Respaced source (t :: ts) (t.textIn source ++ cs)

theorem Respaced.spaced {source : String} {t : Token} {ts : List Token} {c : Char} {cs : List Char}
    (hc : Lexer.isBlank c = true) (h : Respaced source ts cs) :
    Respaced source (t :: ts) (t.textIn source ++ c :: cs) := by
  apply token
  · intro d hd
    cases hd
    exact hc
  · exact h.blank hc

namespace Lexer

variable {c : Char} {cs r : List Char}

theorem stops_of_blank (hr : ∀ c, r.head? = some c → isBlank c = true) : Stops r := by
  intro c hc
  have hblank := hr c hc
  simp only [isBlank, Bool.or_eq_true, beq_iff_eq] at hblank
  rcases hblank with (((rfl | rfl) | rfl) | rfl) | rfl <;> decide

/-- The characters of a token are the same token in front of a blank and at the end of a text. -/
theorem lexed_lexeme (hblank : isBlank c = false) (hsound : (lexeme c cs).1.isError = false)
    (hseen : (lexeme c cs).1.isComment = false) (hr : ∀ c, r.head? = some c → isBlank c = true) :
    lexed (c :: cs.take (lexeme c cs).2 ++ r) = (lexeme c cs).1 :: lexed r := by
  have hstops := stops_of_blank hr
  cases opens_of_sound hsound with
  | word h =>
    have hrun := hstops.takeWhile (fun _ h => h) (List.all_eq_true.mp (List.all_takeWhile (l := cs)))
    rw [lexeme_word h cs]
    dsimp only
    rw [← List.prefix_iff_eq_take.mp (List.takeWhile_prefix isIdentPart)]
    apply lexed_token hblank
    rw [lexeme_word h, hrun]
  | number h =>
    obtain ⟨whole, fraction, hne, hwhole, hfraction, htext⟩ := take_numberRun h cs
    rw [lexeme_number h cs]
    dsimp only
    rw [htext]
    exact lexed_numeral hne hwhole hfraction hstops
  | string h text rest hitems hcs =>
    subst hcs
    rw [lexeme_string h hitems rest]
    dsimp only
    rw [take_closed]
    apply lexed_token hblank
    rw [List.append_assoc, List.singleton_append, lexeme_string h hitems r, List.length_append]
    rfl
  | lineComment hc rest hcs =>
    subst hc hcs
    cases hseen
  | blockComment hc rest hcs =>
    subst hc hcs
    cases hseen
  | arrow hc rest hcs =>
    subst hc hcs
    have harrow : lexeme '=' (['>'] ++ r) = (.mark .arrow, 1) := rfl
    exact lexed_token hblank harrow
  | mark m h hnot =>
    have hnot' : c = '=' → r.head? ≠ some '>' := by
      intro _ hhead
      exact absurd (hr _ hhead) (by decide)
    have hmark : lexeme c ([] ++ r) = (.mark m, 0) := lexeme_mark h hnot'
    rw [lexeme_mark h hnot]
    exact lexed_token hblank hmark

end Lexer

theorem Respaced.lexed {source : String} {ts : List Token} {cs : List Char} (h : Respaced source ts cs)
    (hts : ∀ t ∈ ts, t ∈ tokenize source ∧ t.kind.isComment = false ∧ t.kind.isError = false) :
    Lexer.lexed cs = ts.map Token.kind := by
  induction h with
  | nil => rfl
  | blank hc _ ih =>
    rw [Lexer.lexed_blank hc]
    exact ih hts
  | @token t ts cs hcs _ ih =>
    obtain ⟨hmem, hseen, hsound⟩ := hts t List.mem_cons_self
    obtain ⟨c, rest, hblank, hkind, htext⟩ := t.textIn_eq hmem
    rw [hkind] at hseen hsound
    rw [htext, Lexer.lexed_lexeme hblank hsound hseen hcs, ← hkind, List.map_cons]
    rw [ih fun u hu => hts u (List.mem_cons_of_mem _ hu)]

end ArrowCheck
