import ArrowCheck.Proofs.Layout.Reading
import ArrowCheck.Proofs.Token.Tiling

namespace ArrowCheck.Lexer

variable {c : Char} {cs r : List Char} {t : Token} {skip pos n : Nat}

theorem exists_cut (h : t ∈ tokensFrom skip pos cs) :
    ∃ before c rest, cs = before ++ c :: rest ∧ skip ≤ before.length ∧ isBlank c = false ∧
      t = ⟨(lexeme c rest).1, pos + byteLength before,
        pos + byteLength (before ++ c :: rest.take (lexeme c rest).2)⟩ := by
  induction cs generalizing skip pos with
  | nil => cases skip <;> exact absurd h List.not_mem_nil
  | cons d cs ih =>
    -- a token behind the first character
    have hbehind : ∀ {skip'}, t ∈ tokensFrom skip' (pos + d.utf8Size) cs → skip ≤ skip' + 1 →
        ∃ before c rest, d :: cs = before ++ c :: rest ∧ skip ≤ before.length ∧ isBlank c = false ∧
          t = ⟨(lexeme c rest).1, pos + byteLength before,
            pos + byteLength (before ++ c :: rest.take (lexeme c rest).2)⟩ := by
      intro skip' hmem hle
      obtain ⟨before, c, rest, hcs, hskip, hblank, ht⟩ := ih hmem
      refine ⟨d :: before, c, rest, by rw [hcs, List.cons_append], ?_, hblank, ?_⟩
      · rw [List.length_cons]
        omega
      · rw [ht, List.cons_append, byteLength, byteLength, Nat.add_assoc, Nat.add_assoc]
    cases skip with
    | succ skip => exact hbehind h (Nat.le_refl _)
    | zero =>
      by_cases hblank : isBlank d = true
      · rw [tokensFrom_blank hblank] at h
        exact hbehind h (Nat.zero_le _)
      · rw [Bool.not_eq_true] at hblank
        rw [tokensFrom_token hblank] at h
        cases List.mem_cons.mp h with
        | inl heq => exact ⟨[], d, cs, rfl, Nat.zero_le _, hblank, heq⟩
        | inr hmem => exact hbehind hmem (Nat.zero_le _)

theorem lexeme_word (h : isIdentStart c = true) (cs : List Char) : lexeme c cs =
    (wordKind (String.ofList (c :: cs.takeWhile isIdentPart)), (cs.takeWhile isIdentPart).length) := by
  unfold lexeme
  rw [if_pos h]
  dsimp only
  rw [← List.prefix_iff_eq_take.mp (List.takeWhile_prefix isIdentPart)]

theorem lexeme_number (h : c.isDigit = true) (cs : List Char) : lexeme c cs =
    (.number (String.ofList (c :: cs.take (numberRun cs))), numberRun cs) := by
  unfold lexeme
  rw [if_neg (by simp [isIdentStart_of_isDigit h]), if_pos h]

theorem not_word_of_isQuote (h : isQuote c = true) :
    isBlank c = false ∧ isIdentStart c = false ∧ c.isDigit = false := by
  simp only [isQuote, Bool.or_eq_true, beq_iff_eq] at h
  rcases h with rfl | rfl <;> decide

theorem take_closed (text : List Char) (q : Char) (rest : List Char) :
    (text ++ q :: rest).take (text.length + 1) = text ++ [q] := by
  have hlength : text.length + 1 = (text ++ [q]).length := by rw [List.length_append]; rfl
  rw [List.append_cons, hlength, List.take_left]

theorem lexeme_string (h : isQuote c = true) (hitems : items (· == c) cs = true) (r : List Char) :
    lexeme c (cs ++ c :: r) = (.string (String.ofList (c :: (cs ++ [c]))), cs.length + 1) := by
  obtain ⟨-, hword, hdigit⟩ := not_word_of_isQuote h
  unfold lexeme
  rw [if_neg (by simp [hword]), if_neg (by simp [hdigit]), if_pos h, itemRun_append h hitems]
  dsimp only
  rw [if_pos (by simp), take_closed]

theorem lexeme_mark {m : Mark} (h : markOf c = some m) (hnot : c = '=' → cs.head? ≠ some '>') :
    lexeme c cs = (.mark m, 0) := by
  by_cases hc : c = '='
  · subst hc
    cases h
    unfold lexeme
    rw [if_neg (by decide), if_neg (by decide), if_neg (by decide)]
    dsimp only
    split
    · rename_i heq
      exact absurd heq (by decide)
    · rename_i heq
      exact absurd heq (by decide)
    · exact absurd rfl (hnot rfl)
    · rfl
  · unfold markOf at h
    split at h
    case h_3 => exact absurd rfl hc
    all_goals cases h
    all_goals rfl

theorem lexeme_lineComment (cs : List Char) : lexeme '/' ('/' :: cs) =
    (.lineComment (String.ofList ('/' :: '/' :: cs.takeWhile (· != '\n'))),
      (cs.takeWhile (· != '\n')).length + 1) := by
  have hrun : lexeme '/' ('/' :: cs) =
      (.lineComment (String.ofList ('/' :: '/' :: cs.take (cs.takeWhile (· != '\n')).length)),
        (cs.takeWhile (· != '\n')).length + 1) := rfl
  rw [hrun, ← List.prefix_iff_eq_take.mp (List.takeWhile_prefix _)]

theorem lexeme_blockComment (cs : List Char) : lexeme '/' ('*' :: cs) =
    (.blockComment (String.ofList ('/' :: '*' :: cs.take (commentRun cs))), commentRun cs + 1) := rfl

inductive Opens (c : Char) (cs : List Char) : Prop
  | word (h : isIdentStart c = true)
  | number (h : c.isDigit = true)
  | string (h : isQuote c = true) (text rest : List Char) (hitems : items (· == c) text = true)
    (hcs : cs = text ++ c :: rest)
  | lineComment (hc : c = '/') (rest : List Char) (hcs : cs = '/' :: rest)
  | blockComment (hc : c = '/') (rest : List Char) (hcs : cs = '*' :: rest)
  | arrow (hc : c = '=') (rest : List Char) (hcs : cs = '>' :: rest)
  | mark (m : Mark) (h : markOf c = some m) (hnot : c = '=' → cs.head? ≠ some '>')

theorem opens_of_sound (h : (lexeme c cs).1.isError = false) : Opens c cs := by
  unfold lexeme at h
  dsimp only at h
  split at h
  · exact .word (by assumption)
  split at h
  · exact .number (by assumption)
  split at h
  · rename_i hquote
    split at h
    · rename_i hclose
      refine .string hquote (cs.take (itemRun c cs)) (cs.drop (itemRun c cs + 1))
        (items_take_itemRun c cs) ?_
      obtain ⟨hlt, hget⟩ := List.getElem?_eq_some_iff.mp hclose
      have hdrop := List.drop_eq_getElem_cons hlt
      rw [hget] at hdrop
      rw [← hdrop, List.take_append_drop]
    · cases h
  split at h
  · exact .lineComment rfl _ rfl
  · exact .blockComment rfl _ rfl
  · exact .arrow rfl _ rfl
  · rename_i hnot
    split at h
    · rename_i m hmark
      refine .mark m hmark ?_
      intro hc hhead
      obtain ⟨rest, hrest⟩ := List.head?_eq_some_iff.mp hhead
      exact hnot rest hc hrest
    · cases h

def commentEnd : List Char := ['*', '/']

theorem commentEnd_infix_cons :
    commentEnd <:+: c :: cs ↔ c = '*' ∧ cs.head? = some '/' ∨ commentEnd <:+: cs := by
  rw [List.infix_cons_iff, commentEnd, List.cons_prefix_cons]
  apply or_congr_left
  cases cs <;> simp [eq_comm]

theorem closeOffset?_cons (h : ¬ (c = '*' ∧ cs.head? = some '/')) :
    closeOffset? (c :: cs) = (closeOffset? cs).map (· + 1) := by
  apply closeOffset?.eq_2
  rintro tail rfl rfl
  exact h ⟨rfl, rfl⟩

theorem closeOffset?_eq_none_iff : closeOffset? cs = none ↔ ¬ commentEnd <:+: cs := by
  induction cs with
  | nil => simp [closeOffset?, commentEnd]
  | cons c cs ih =>
    rw [commentEnd_infix_cons]
    by_cases h : c = '*' ∧ cs.head? = some '/'
    · obtain ⟨rfl, hhead⟩ := h
      obtain ⟨rest, rfl⟩ := List.head?_eq_some_iff.mp hhead
      simp [closeOffset?]
    · rw [closeOffset?_cons h, Option.map_eq_none_iff, ih]
      simp [h]

theorem closeOffset?_eq_some_iff : closeOffset? cs = some n ↔
    ∃ body rest, cs = body ++ commentEnd ++ rest ∧ n = (body ++ commentEnd).length ∧
      ¬ commentEnd <:+: body ++ ['*'] := by
  induction cs generalizing n with
  | nil => simp [closeOffset?, commentEnd]
  | cons c cs ih =>
    by_cases h : c = '*' ∧ cs.head? = some '/'
    · obtain ⟨rfl, hhead⟩ := h
      obtain ⟨rest, rfl⟩ := List.head?_eq_some_iff.mp hhead
      constructor
      · rintro ⟨⟩
        exact ⟨[], rest, rfl, rfl, by decide⟩
      · rintro ⟨body, rest', hcs, rfl, hbody⟩
        cases body with
        | nil => rfl
        | cons d body =>
          -- the closing mark at the start would stand in the body
          exfalso
          obtain ⟨rfl, hrest⟩ := List.cons.inj hcs
          apply hbody
          apply commentEnd_infix_cons.mpr
          left
          cases body with
          | nil => cases hrest
          | cons e body => exact ⟨rfl, congrArg some (List.cons.inj hrest).1.symm⟩
    · rw [closeOffset?_cons h, Option.map_eq_some_iff]
      constructor
      · rintro ⟨m, hm, rfl⟩
        obtain ⟨body, rest, rfl, rfl, hbody⟩ := ih.mp hm
        refine ⟨c :: body, rest, rfl, rfl, fun hend => ?_⟩
        rcases commentEnd_infix_cons.mp hend with ⟨rfl, hhead⟩ | hend
        · apply h
          cases body with
          | nil => cases hhead
          | cons e body => exact ⟨rfl, hhead⟩
        · exact hbody hend
      · rintro ⟨body, rest, hcs, rfl, hbody⟩
        cases body with
        | nil =>
          obtain ⟨rfl, rfl⟩ := List.cons.inj hcs
          exact absurd ⟨rfl, rfl⟩ h
        | cons d body =>
          obtain ⟨rfl, rfl⟩ := List.cons.inj hcs
          refine ⟨(body ++ commentEnd).length, ih.mpr ⟨body, rest, rfl, rfl, ?_⟩, rfl⟩
          exact fun hend => hbody (commentEnd_infix_cons.mpr (.inr hend))

end ArrowCheck.Lexer
