import ArrowCheck.Proofs.Grammar.Places

namespace ArrowCheck

theorem bytes_toList (source : String) :
    source.toByteArray.data.toList = source.toList.flatMap String.utf8EncodeChar := by
  rw [← String.utf8Encode_toList, List.utf8Encode, List.toList_data_toByteArray]

namespace Lexer

theorem tokensFrom_blank {c : Char} (h : isBlank c = true) (pos : Nat) (cs : List Char) :
    tokensFrom 0 pos (c :: cs) = tokensFrom 0 (pos + c.utf8Size) cs := by
  rw [tokensFrom, if_pos h]

theorem tokensFrom_token {c : Char} (h : isBlank c = false) (pos : Nat) (cs : List Char) :
    tokensFrom 0 pos (c :: cs) =
      ⟨(lexeme c cs).1, pos, pos + (c.utf8Size + byteLength (cs.take (lexeme c cs).2))⟩ ::
        tokensFrom (lexeme c cs).2 (pos + c.utf8Size) cs := by
  rw [tokensFrom, if_neg (by simp [h])]
  rfl

def blankBytes : List UInt8 := [32, 9, 13, 10, 12]

theorem mem_blankBytes {c : Char} (h : isBlank c = true) {byte : UInt8}
    (hbyte : byte ∈ String.utf8EncodeChar c) : byte ∈ blankBytes := by
  have hall : (String.utf8EncodeChar c).all (· ∈ blankBytes) = true := by
    simp only [isBlank, Bool.or_eq_true, beq_iff_eq] at h
    rcases h with (((rfl | rfl) | rfl) | rfl) | rfl <;> decide
  exact of_decide_eq_true (List.all_eq_true.mp hall byte hbyte)

/-- A byte belongs to the token that was given before, to a token that follows, or to a blank. -/
theorem covered_tokensFrom (skip pos : Nat) {i : Nat} {cs : List Char} {byte : UInt8}
    (h : (cs.flatMap String.utf8EncodeChar)[i]? = some byte) :
    i < byteLength (cs.take skip) ∨
      (∃ t ∈ tokensFrom skip pos cs, t.span.start ≤ pos + i ∧ pos + i < t.span.stop) ∨
        byte ∈ blankBytes := by
  induction cs generalizing skip pos i with
  | nil => cases h
  | cons c rest ih =>
    rw [List.flatMap_cons] at h
    by_cases hi : i < c.utf8Size
    · -- the byte is one of the first character
      have hlength := String.length_utf8EncodeChar c
      rw [List.getElem?_append_left (by omega)] at h
      cases skip with
      | succ skip =>
        left
        rw [List.take_succ_cons, byteLength]
        omega
      | zero =>
        right
        cases hblank : isBlank c with
        | true => exact .inr (mem_blankBytes hblank (List.mem_of_getElem? h))
        | false =>
          rw [tokensFrom_token hblank]
          refine .inl ⟨_, List.mem_cons_self, ?_⟩
          dsimp only
          omega
    · -- the byte is one of those behind it
      rw [List.getElem?_append_right (by rw [String.length_utf8EncodeChar]; omega),
        String.length_utf8EncodeChar] at h
      have hpos : pos + c.utf8Size + (i - c.utf8Size) = pos + i := by omega
      have hrest := fun skip => ih skip (pos + c.utf8Size) h
      rw [hpos] at hrest
      cases skip with
      | succ skip =>
        rw [List.take_succ_cons, byteLength, tokensFrom]
        apply (hrest skip).imp_left
        omega
      | zero =>
        right
        cases hblank : isBlank c with
        | true =>
          rw [tokensFrom_blank hblank]
          exact (hrest 0).resolve_left (by simp [byteLength])
        | false =>
          rw [tokensFrom_token hblank]
          cases hrest (lexeme c rest).2 with
          | inl hmore =>
            refine .inl ⟨_, List.mem_cons_self, ?_⟩
            dsimp only
            omega
          | inr hrest =>
            apply hrest.imp_left
            rintro ⟨t, ht, hcovers⟩
            exact ⟨t, List.mem_cons_of_mem _ ht, hcovers⟩

end Lexer

theorem isValid_byteLength {source : String} (before after : List Char)
    (h : source.toList = before ++ after) : String.Pos.Raw.IsValid source ⟨byteLength before⟩ := by
  apply String.Pos.Raw.isValid_iff_exists_append.mpr
  refine ⟨String.ofList before, String.ofList after, ?_, ?_⟩
  · rw [← String.ofList_append, ← h, String.ofList_toList]
  · have hsize := byteLength_toList (String.ofList before)
    rw [String.toList_ofList] at hsize
    rw [hsize]
    rfl

theorem Span.CutFrom.isValid {source : String} {s : Span} (h : s.CutFrom source.toList) :
    String.Pos.Raw.IsValid source ⟨s.start⟩ ∧ String.Pos.Raw.IsValid source ⟨s.stop⟩ := by
  obtain ⟨before, text, after, hsource, -, hstart, hstop⟩ := h
  rw [hstart, hstop]
  refine ⟨isValid_byteLength before (text ++ after) ?_, isValid_byteLength _ after hsource⟩
  rw [hsource, List.append_assoc]

/-- Tokens are ranges of the text that are not empty, start and end between characters, and follow each
other without overlap. Every byte outside of them is a blank. -/
theorem tokens_tile (source : String) :
    (∀ t ∈ tokenize source,
      t.span.start < t.span.stop ∧ t.span.stop ≤ source.utf8ByteSize ∧
        String.Pos.Raw.IsValid source ⟨t.span.start⟩ ∧ String.Pos.Raw.IsValid source ⟨t.span.stop⟩) ∧
      (tokenize source).Pairwise
        (fun t u => t.span.start < u.span.start ∧ t.span.stop ≤ u.span.start) ∧
      ∀ i byte, source.toByteArray.data[i]? = some byte →
        (∀ t ∈ tokenize source, ¬ (t.span.start ≤ i ∧ i < t.span.stop)) →
          byte ∈ Lexer.blankBytes := by
  have hordered := ordered_tokenize source
  refine ⟨fun t ht => ?_, ?_, fun i byte hbyte hfree => ?_⟩
  · have hcut := cut_of_mem_tokenize ht
    exact ⟨hcut.lt, hcut.stop_le, hcut.isValid⟩
  · apply hordered.apart.imp_of_mem
    intro t u ht _ hle
    have hlt := hordered.lt t ht
    exact ⟨by omega, hle⟩
  · rw [← Array.getElem?_toList, bytes_toList] at hbyte
    obtain hlt | ⟨t, ht, hcovers⟩ | hblank := Lexer.covered_tokensFrom 0 0 hbyte
    · exact absurd hlt (Nat.not_lt_zero i)
    · rw [Nat.zero_add] at hcovers
      exact absurd hcovers (hfree t ht)
    · exact hblank

/-- A string and a comment that are never closed, a character that starts no token, and a blank between
them. -/
theorem unclosed_text_tiled : ∃ source, source = "a\t\"é\n€/*x" ∧
    (tokenize source).map Token.span = [⟨0, 1⟩, ⟨2, 5⟩, ⟨6, 9⟩, ⟨9, 12⟩] ∧
    (∃ t ∈ tokenize source, t.span = ⟨6, 9⟩ ∧
      String.Pos.Raw.IsValid source ⟨t.span.start⟩ ∧ String.Pos.Raw.IsValid source ⟨t.span.stop⟩) ∧
    source.toByteArray.data[5]? = some 10 ∧ 10 ∈ Lexer.blankBytes := by
  let source := "a\t\"é\n€/*x"
  have hspans : (tokenize source).map Token.span = [⟨0, 1⟩, ⟨2, 5⟩, ⟨6, 9⟩, ⟨9, 12⟩] := by decide +kernel
  have hbyte : source.toByteArray.data[5]? = some 10 := by decide +kernel
  have hsign : (⟨6, 9⟩ : Span) ∈ (tokenize source).map Token.span := by rw [hspans]; decide
  obtain ⟨t, ht, hspan⟩ := List.mem_map.mp hsign
  have hfree : ∀ t ∈ tokenize source, ¬ (t.span.start ≤ 5 ∧ 5 < t.span.stop) := by
    have h : ∀ s ∈ (tokenize source).map Token.span, ¬ (s.start ≤ 5 ∧ 5 < s.stop) := by
      rw [hspans]
      decide
    exact fun t ht => h _ (List.mem_map_of_mem ht)
  obtain ⟨hplaces, -, hblank⟩ := tokens_tile source
  exact ⟨source, rfl, hspans, ⟨t, ht, hspan, (hplaces t ht).2.2⟩, hbyte, hblank 5 10 hbyte hfree⟩

end ArrowCheck
