import ArrowCheck.Proofs.Relocation.Trees
import ArrowCheck.Proofs.Token.Lexemes

namespace ArrowCheck

namespace Lexer

variable {c : Char} {cs u r : List Char} {t : Token} {skip pos : Nat}

section Lexemes

theorem takeWhile_before {p : Char → Bool} (hc : p c = false) (u r : List Char) :
    (u ++ c :: r).takeWhile p = u.takeWhile p := by
  induction u with
  | nil => rw [List.nil_append, List.takeWhile_cons_of_neg (by simp [hc]), List.takeWhile_nil]
  | cons d u ih => rw [List.cons_append, List.takeWhile_cons, List.takeWhile_cons, ih]

theorem takeWhile_within {p : Char → Bool} (h : (cs.takeWhile p).length < cs.length) (r : List Char) :
    (cs ++ r).takeWhile p = cs.takeWhile p := by
  rw [List.takeWhile_append, if_neg (Nat.ne_of_lt h)]

theorem numberRun_before (u r : List Char) : numberRun (u ++ ';' :: r) = numberRun u := by
  have hwhole := takeWhile_before (p := Char.isDigit) (c := ';') (by decide)
  have hdrop : (u ++ ';' :: r).drop (u.takeWhile Char.isDigit).length =
      u.drop (u.takeWhile Char.isDigit).length ++ ';' :: r :=
    List.drop_append_of_le_length (List.takeWhile_prefix _).length_le
  unfold numberRun
  dsimp only
  rw [hwhole, hdrop]
  cases hrest : u.drop (u.takeWhile Char.isDigit).length with
  | nil => rfl
  | cons d ds =>
    by_cases hpoint : d = '.'
    · subst hpoint
      simp only [List.cons_append, hwhole]
    · simp [hpoint]

theorem closeOffset?_append {n : Nat} (h : closeOffset? cs = some n) (r : List Char) :
    closeOffset? (cs ++ r) = some n := by
  induction cs using closeOffset?.induct generalizing n with
  | case1 tail => exact h
  | case2 d ds hne ih =>
    rw [closeOffset?.eq_2 _ _ hne] at h
    obtain ⟨m, hm, rfl⟩ := Option.map_eq_some_iff.mp h
    cases ds with
    | nil => cases hm
    | cons e es =>
      have hne' : ∀ tail, d = '*' → e :: es ++ r = '/' :: tail → False := by
        intro tail hd he
        obtain ⟨rfl, -⟩ := List.cons.inj he
        exact hne es hd rfl
      rw [List.cons_append, closeOffset?.eq_2 _ _ hne', ih hm]
      rfl
  | case3 => cases h

theorem lexeme_append (hend : (lexeme c (u ++ [';'])).2 ≤ u.length)
    (hsound : (lexeme c (u ++ [';'])).1.isError = false) (r : List Char) :
    lexeme c (u ++ ';' :: r) = lexeme c (u ++ [';']) := by
  have htake : ∀ n, n ≤ u.length → (u ++ ';' :: r).take n = (u ++ [';']).take n := by
    intro n hn
    rw [List.take_append_of_le_length hn, List.take_append_of_le_length hn]
  have hsplit : u ++ ';' :: r = u ++ [';'] ++ r := List.append_cons u ';' r
  cases opens_of_sound hsound with
  | word h =>
    rw [lexeme_word h, lexeme_word h, takeWhile_before (by decide), takeWhile_before (by decide)]
  | number h =>
    rw [lexeme_number h] at hend
    rw [numberRun_before] at hend
    rw [lexeme_number h, lexeme_number h, numberRun_before, numberRun_before, htake _ hend]
  | string h text rest hitems hcs =>
    rw [hsplit, hcs, List.append_assoc, List.cons_append, lexeme_string h hitems,
      lexeme_string h hitems]
  | arrow hc rest hcs =>
    rw [hsplit, hcs, hc]
    rfl
  | mark m h hnot =>
    have hnot' : c = '=' → (u ++ ';' :: r).head? ≠ some '>' := by
      cases u with
      | nil => exact fun _ => nofun
      | cons d u => exact hnot
    rw [lexeme_mark h hnot, lexeme_mark h hnot']
  | lineComment hc rest hcs =>
    have hlength : u.length = rest.length := by simpa using congrArg List.length hcs
    rw [hcs, hc, lexeme_lineComment] at hend
    rw [hsplit, hcs, hc, List.cons_append, lexeme_lineComment, lexeme_lineComment,
      takeWhile_within (by omega)]
  | blockComment hc rest hcs =>
    have hlength : u.length = rest.length := by simpa using congrArg List.length hcs
    rw [hcs, hc, lexeme_blockComment] at hend
    cases hclose : closeOffset? rest with
    | none =>
      -- the comment would take the semicolon
      rw [commentRun, hclose, Option.getD_none] at hend
      omega
    | some n =>
      have hrun : commentRun rest = n := by rw [commentRun, hclose]; rfl
      have hrun' : commentRun (rest ++ r) = n := by rw [commentRun, closeOffset?_append hclose]; rfl
      rw [hrun] at hend
      rw [hsplit, hcs, hc, List.cons_append, lexeme_blockComment, lexeme_blockComment, hrun, hrun',
        List.take_append_of_le_length (by omega)]

end Lexemes

def EndsStatement (pos : Nat) (cs : List Char) (ts : List Token) : Prop :=
  ∃ t, ts.getLast? = some t ∧ t.kind = .mark .semicolon ∧ t.span.stop = pos + byteLength cs

theorem lexeme_semicolon (h : (lexeme c cs).1 = .mark .semicolon) : c = ';' ∧ (lexeme c cs).2 = 0 := by
  have hsound : (lexeme c cs).1.isError = false := by rw [h]; rfl
  cases opens_of_sound hsound with
  | word hc =>
    rw [lexeme_word hc] at h
    exact absurd h ((wordKind_isAtomic _).1 _)
  | number hc => rw [lexeme_number hc] at h; cases h
  | string hc text rest hitems hcs => rw [hcs, lexeme_string hc hitems] at h; cases h
  | lineComment hc rest hcs => rw [hcs, hc, lexeme_lineComment] at h; cases h
  | blockComment hc rest hcs => rw [hcs, hc, lexeme_blockComment] at h; cases h
  | arrow hc rest hcs => rw [hcs, hc] at h; cases h
  | mark m hc hnot =>
    rw [lexeme_mark hc hnot] at h ⊢
    cases h
    refine ⟨?_, rfl⟩
    unfold markOf at hc
    split at hc <;> cases hc
    rfl

theorem eq_semicolon (h : (lexeme c cs).1 = .mark .semicolon)
    (hall : byteLength (cs.take (lexeme c cs).2) = byteLength cs) : c = ';' ∧ cs = [] := by
  obtain ⟨hc, hzero⟩ := lexeme_semicolon h
  rw [hzero, List.take_zero, byteLength] at hall
  refine ⟨hc, ?_⟩
  by_contra hne
  have hpos := byteLength_pos hne
  omega

theorem EndsStatement.exists_before (h : EndsStatement pos cs (tokensFrom skip pos cs)) :
    ∃ u, cs = u ++ [';'] ∧ skip ≤ u.length := by
  obtain ⟨t, hlast, hkind, hstop⟩ := h
  obtain ⟨before, c, rest, hcs, hskip, -, ht⟩ := exists_cut (List.mem_of_getLast? hlast)
  rw [ht] at hkind hstop
  obtain ⟨hc, hzero⟩ := lexeme_semicolon hkind
  refine ⟨before, ?_, hskip⟩
  rw [hzero, hcs] at hstop
  have hbytes := Nat.add_left_cancel hstop
  rw [List.take_zero, byteLength_append, byteLength_append, byteLength, byteLength, byteLength] at hbytes
  cases rest with
  | nil => rw [hcs, hc]
  | cons d rest =>
    have hpos := byteLength_pos (List.cons_ne_nil d rest)
    omega

theorem EndsStatement.lexeme_append (h : EndsStatement pos cs (tokensFrom (lexeme c cs).2 pos cs))
    (hsound : (lexeme c cs).1.isError = false) (r : List Char) :
    lexeme c (cs ++ r) = lexeme c cs ∧ (lexeme c cs).2 ≤ cs.length := by
  obtain ⟨u, hu, hle⟩ := h.exists_before
  rw [hu] at hle hsound ⊢
  rw [← List.append_cons]
  exact ⟨Lexer.lexeme_append hle hsound r, hle.trans (List.length_append ▸ Nat.le_add_right _ _)⟩

theorem tokensFrom_append (hsound : ∀ t ∈ tokensFrom skip pos cs, t.kind.isError = false)
    (hend : EndsStatement pos cs (tokensFrom skip pos cs)) (r : List Char) :
    tokensFrom skip pos (cs ++ r) =
      tokensFrom skip pos cs ++ tokensFrom 0 (pos + byteLength cs) r := by
  induction cs generalizing skip pos with
  | nil =>
    obtain ⟨t, hlast, -⟩ := hend
    cases skip <;> cases hlast
  | cons c cs ih =>
    rw [List.cons_append]
    have hpos : pos + byteLength (c :: cs) = pos + c.utf8Size + byteLength cs := by
      rw [byteLength, Nat.add_assoc]
    rw [EndsStatement, hpos] at hend
    rw [hpos]
    cases skip with
    | succ skip => exact ih hsound hend
    | zero =>
      by_cases hblank : isBlank c = true
      · rw [tokensFrom_blank hblank] at hsound hend
        rw [tokensFrom_blank hblank, tokensFrom_blank hblank]
        exact ih hsound hend
      · rw [Bool.not_eq_true] at hblank
        rw [tokensFrom_token hblank] at hsound hend
        obtain ⟨t, hlast, hkind, hstop⟩ := hend
        cases hts : tokensFrom (lexeme c cs).2 (pos + c.utf8Size) cs with
        | nil =>
          -- the first token is the semicolon, and nothing follows
          rw [hts, List.getLast?_singleton] at hlast
          cases hlast
          dsimp only at hstop
          obtain ⟨rfl, rfl⟩ := eq_semicolon hkind (by omega)
          have hmore : lexeme ';' r = (.mark .semicolon, 0) := lexeme_mark rfl (absurd · (by decide))
          rw [List.nil_append, tokensFrom_token hblank, tokensFrom_token hblank, hmore]
          rfl
        | cons v vs =>
          have hend' : EndsStatement (pos + c.utf8Size) cs
              (tokensFrom (lexeme c cs).2 (pos + c.utf8Size) cs) := by
            refine ⟨t, ?_, hkind, hstop⟩
            rw [hts] at hlast ⊢
            exact hlast
          obtain ⟨hsame, hlength⟩ := hend'.lexeme_append (hsound _ List.mem_cons_self) r
          rw [tokensFrom_token hblank, tokensFrom_token hblank, hsame,
            ih (fun t ht => hsound t (List.mem_cons_of_mem _ ht)) hend',
            List.take_append_of_le_length hlength, List.cons_append]

theorem tokensFrom_shift (skip pos bytes ids : Nat) (cs : List Char) :
    tokensFrom skip (pos + bytes) cs =
      (tokensFrom skip pos cs).map (Token.relocate (.shift bytes ids)) := by
  induction cs generalizing skip pos with
  | nil => cases skip <;> rfl
  | cons c cs ih =>
    cases skip with
    | succ skip =>
      rw [tokensFrom, tokensFrom, Nat.add_right_comm]
      exact ih skip _
    | zero =>
      by_cases hblank : isBlank c = true
      · rw [tokensFrom_blank hblank, tokensFrom_blank hblank, Nat.add_right_comm]
        exact ih 0 _
      · rw [Bool.not_eq_true] at hblank
        have hcomm : ∀ n, pos + bytes + n = pos + n + bytes := fun n => Nat.add_right_comm _ _ _
        rw [tokensFrom_token hblank, tokensFrom_token hblank, List.map_cons, hcomm, hcomm, ih]
        rfl

end Lexer

theorem Token.fault?_relocate (ρ : Relocation) (t : Token) :
    (t.relocate ρ).fault? = t.fault?.map (LexFault.relocate ρ) := by
  obtain ⟨kind, span⟩ := t
  cases kind with
  | error text =>
    simp only [fault?, relocate]
    cases text.toList.head? with
    | none => rfl
    | some c =>
      dsimp only
      split <;> rfl
  | blockComment text =>
    simp only [fault?, relocate]
    split <;> rfl
  | _ => rfl

variable {first : String}

theorem tokenize_append (h : lexFaults first = [])
    (hend : Lexer.EndsStatement 0 first.toList (tokenize first)) (second : String) (ids : Nat) :
    tokenize (first ++ second) = tokenize first ++
      (tokenize second).map (Token.relocate (.shift first.utf8ByteSize ids)) := by
  have hsound : ∀ t ∈ tokenize first, t.kind.isError = false := fun t ht => isError_eq_false h ht
  have happend := Lexer.tokensFrom_append hsound hend second.toList
  rw [tokenize, String.toList_append, happend, Lexer.tokensFrom_shift, byteLength_toList]
  rfl

theorem lexFaults_append (h : lexFaults first = [])
    (hend : Lexer.EndsStatement 0 first.toList (tokenize first)) (second : String) (ids : Nat) :
    lexFaults (first ++ second) =
      (lexFaults second).map (LexFault.relocate (.shift first.utf8ByteSize ids)) := by
  unfold lexFaults at h ⊢
  rw [tokenize_append h hend second ids, List.filterMap_append, h, List.nil_append,
    List.filterMap_map, List.map_filterMap]
  apply List.filterMap_congr
  intro t _
  exact t.fault?_relocate _

end ArrowCheck
