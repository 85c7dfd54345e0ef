import ArrowCheck.Proofs.Layout.Spacing
import ArrowCheck.Proofs.Number.ReadBack

namespace ArrowCheck

namespace Lexer

def lexed (cs : List Char) : List TokenKind := (tokensFrom 0 0 cs).map Token.kind

def Stops (cs : List Char) : Prop := ∀ c, cs.head? = some c → isIdentPart c = false ∧ c ≠ '.'

variable {c : Char} {cs r : List Char}

theorem kinds_tokensFrom (skip pos : Nat) (cs : List Char) :
    (tokensFrom skip pos cs).map Token.kind = lexed (cs.drop skip) := by
  induction cs generalizing skip pos with
  | nil => cases skip <;> simp [tokensFrom, lexed]
  | cons c cs ih =>
    cases skip with
    | succ skip => exact ih skip _
    | zero =>
      rw [List.drop_zero, lexed, tokensFrom, tokensFrom]
      split
      · rw [ih, ih]
      · simp only [List.map_cons, ih]

@[simp] theorem lexed_nil : lexed [] = [] := rfl

theorem lexed_blank (h : isBlank c = true) : lexed (c :: cs) = lexed cs := by
  rw [lexed, tokensFrom, if_pos h, kinds_tokensFrom, List.drop_zero]

theorem lexed_token {k : TokenKind} (h : isBlank c = false) (hk : lexeme c (cs ++ r) = (k, cs.length)) :
    lexed (c :: cs ++ r) = k :: lexed r := by
  rw [List.cons_append, lexed, tokensFrom, if_neg (by simp [h]), hk]
  simp [kinds_tokensFrom]

theorem lexed_blanks (h : ∀ c ∈ cs, isBlank c = true) : lexed (cs ++ r) = lexed r := by
  induction cs with
  | nil => rfl
  | cons c cs ih =>
    rw [List.cons_append, lexed_blank (h c (by simp))]
    exact ih fun d hd => h d (by simp [hd])

theorem isBlank_of_isIdentPart (h : isIdentPart c = true) : isBlank c = false := by
  by_cases hb : isBlank c = true
  · simp only [isBlank, Bool.or_eq_true, beq_iff_eq] at hb
    rcases hb with (((rfl | rfl) | rfl) | rfl) | rfl <;> cases h
  · simpa using hb

theorem isIdentPart_of_isIdentStart (h : isIdentStart c = true) : isIdentPart c = true := by
  simp only [isIdentStart, isIdentPart, Char.isAlphanum, Bool.or_eq_true] at h ⊢
  exact h.imp_left .inl

theorem isIdentPart_of_isDigit (h : c.isDigit = true) : isIdentPart c = true := by
  simp [isIdentPart, Char.isAlphanum, h]

theorem isIdentStart_of_isDigit (h : c.isDigit = true) : isIdentStart c = false := by
  have hdigit : 48 ≤ c.toNat ∧ c.toNat ≤ 57 := by
    simpa [Char.isDigit, UInt32.le_iff_toNat_le] using h
  have halpha : c.isAlpha = false := by
    delta Char.isAlpha Char.isUpper Char.isLower
    simp [UInt32.le_iff_toNat_le]
    omega
  have hbar : c ≠ '_' := by
    rintro rfl
    cases h
  simp [isIdentStart, halpha, hbar]

theorem Stops.takeWhile {p : Char → Bool} (hp : ∀ c, isIdentPart c = false → p c = false)
    (hr : Stops r) (hcs : ∀ c ∈ cs, p c = true) : (cs ++ r).takeWhile p = cs := by
  rw [List.takeWhile_append_of_pos hcs]
  cases r with
  | nil => simp
  | cons c r => rw [List.takeWhile_cons_of_neg (by simp [hp c (hr c rfl).1]), List.append_nil]

theorem lexed_word {word : String} (h : isIdentifier word = true) (hr : Stops r) :
    lexed (word.toList ++ r) = wordKind word :: lexed r := by
  unfold isIdentifier at h
  split at h
  · cases h
  · rename_i c cs hword
    rw [Bool.and_eq_true, List.all_eq_true] at h
    obtain ⟨hc, hcs⟩ := h
    rw [hword]
    refine lexed_token (isBlank_of_isIdentPart (isIdentPart_of_isIdentStart hc)) ?_
    have hrun := hr.takeWhile (fun _ h => h) hcs
    unfold lexeme
    rw [if_pos hc, hrun]
    dsimp only
    rw [List.take_left, ← hword, String.ofList_toList]

theorem numberRun_numeral {whole fraction : List Char} (hw : AllDigits whole)
    (hf : AllDigits fraction) (hr : Stops r) :
    numberRun (numeral whole fraction ++ r) = (numeral whole fraction).length := by
  have hdigit : ∀ c, isIdentPart c = false → c.isDigit = false := by
    intro c hc
    rw [← Bool.not_eq_true]
    intro hd
    rw [isIdentPart_of_isDigit hd] at hc
    cases hc
  induction whole with
  | nil =>
    cases fraction with
    | nil => exact numberRun_of_head? fun c hc => ⟨hdigit c (hr c hc).1, (hr c hc).2⟩
    | cons d ds =>
      have hrun : (d :: ds ++ r).takeWhile Char.isDigit = d :: ds := hr.takeWhile hdigit hf
      have hpoint := numberRun_point (d :: ds ++ r) (by rw [hrun]; simp)
      rw [hrun] at hpoint
      exact hpoint
  | cons c ws ih =>
    rw [← cons_numeral, List.cons_append, numberRun_digit (hw c (by simp)),
      ih fun d hd => hw d (by simp [hd]), List.length_cons]

theorem lexed_numeral {whole fraction : List Char} (hne : whole ≠ []) (hw : AllDigits whole)
    (hf : AllDigits fraction) (hr : Stops r) : lexed (numeral whole fraction ++ r) =
      .number (String.ofList (numeral whole fraction)) :: lexed r := by
  obtain ⟨c, ws, rfl⟩ := List.exists_cons_of_ne_nil hne
  have hc := hw c (by simp)
  have hrun : numberRun (numeral ws fraction ++ r) = (numeral ws fraction).length :=
    numberRun_numeral (fun d hd => hw d (by simp [hd])) hf hr
  rw [← cons_numeral]
  refine lexed_token (isBlank_of_isIdentPart (isIdentPart_of_isDigit hc)) ?_
  unfold lexeme
  rw [if_neg (by simp [isIdentStart_of_isDigit hc]), if_pos hc, hrun]
  dsimp only
  rw [List.take_left]

def items (bar : Char → Bool) : List Char → Bool
  | [] => true
  | [c] => c != '\\' && c != '\n' && !bar c
  | c :: d :: cs =>
    if c = '\\' then d != '\n' && items bar cs else c != '\n' && !bar c && items bar (d :: cs)

theorem itemRun_append {q : Char} (hq : isQuote q = true) (h : items (· == q) cs = true) :
    itemRun q (cs ++ q :: r) = cs.length := by
  have hescape : q ≠ '\\' := by
    rintro rfl
    cases hq
  induction cs using items.induct with
  | case1 => cases r <;> simp [itemRun, hescape]
  | case2 c =>
    simp [items] at h
    have hstop : itemRun q (q :: r) = 0 := by cases r <;> simp [itemRun, hescape]
    simp [itemRun, h, hstop]
  | case3 d cs ih =>
    simp [items] at h
    simp [itemRun, h, ih h.2]
  | case4 c d cs hc ih =>
    simp [items, hc] at h
    simp [itemRun, hc, h]
    exact ih h.2

theorem lexed_quoted {q : Char} (hq : isQuote q = true) (h : items (· == q) cs = true) :
    lexed (q :: (cs ++ [q]) ++ r) = .string (String.ofList (q :: (cs ++ [q]))) :: lexed r := by
  have hkind : isBlank q = false ∧ isIdentStart q = false ∧ q.isDigit = false := by
    simp only [isQuote, Bool.or_eq_true, beq_iff_eq] at hq
    rcases hq with rfl | rfl <;> decide
  have hrun : itemRun q (cs ++ [q] ++ r) = cs.length := by
    rw [List.append_assoc]
    exact itemRun_append hq h
  refine lexed_token hkind.1 ?_
  unfold lexeme
  rw [if_neg (by simp [hkind.2.1]), if_neg (by simp [hkind.2.2]), if_pos hq, hrun]
  dsimp only
  rw [if_pos (by simp)]
  have hlength : cs.length + 1 = (cs ++ [q]).length := by simp
  rw [hlength, List.take_left]

theorem lexed_mark {m : Mark} (h : m = .equals → r.head? ≠ some '>') :
    lexed (m.text.toList ++ r) = .mark m :: lexed r := by
  cases m with
  | equals =>
    have htext : Mark.text .equals = String.ofList ['='] := rfl
    rw [htext, String.toList_ofList]
    refine lexed_token rfl ?_
    unfold lexeme
    rw [if_neg (by decide), if_neg (by decide), if_neg (by decide)]
    dsimp only [List.nil_append]
    split
    · rename_i heq
      exact absurd heq (by decide)
    · rename_i heq
      exact absurd heq (by decide)
    · exact absurd rfl (h rfl)
    · rfl
  | _ => exact lexed_token rfl rfl

theorem items_of_not_mem {q : Char} (h : items (fun _ => false) cs = true) (hq : q ∉ cs) :
    items (· == q) cs = true := by
  induction cs using items.induct with
  | case1 => rfl
  | case2 c =>
    simp only [List.mem_singleton] at hq
    simpa [items, Ne.symm hq] using h
  | case3 d cs ih =>
    simp only [List.mem_cons, not_or] at hq
    simp [items] at h ⊢
    exact ⟨h.1, ih h.2 hq.2.2⟩
  | case4 c d cs hc ih =>
    rw [List.mem_cons, not_or] at hq
    simp [items, hc] at h ⊢
    exact ⟨⟨h.1, Ne.symm hq.1⟩, ih h.2 hq.2⟩

end Lexer

open Lexer

def Unmixed (value : String) : Prop :=
  '"' ∈ value.toList → items (· == '\'') value.toList = true

/-- A string that can be written. -/
def Quotable (value : String) : Prop :=
  items (fun _ => false) value.toList = true ∧ Unmixed value

/-- An atom that is written as a token that reads back as the atom. -/
def Atom.Good : Atom → Prop
  | keyword _ | boolean _ => True
  | name n => isIdentifier n = true ∧ isReserved n = false
  | typeName n => (∃ w : TypeWord, n = w.text) ∨
    (isIdentifier n = true ∧ isReserved n = false ∧ n ≠ "any")
  | string v => Quotable v
  | key k => if isIdentifier k = true then isReserved k = false else Quotable k
  | number x => ∃ m e, x = .finite false m e ∧ x.Canonical

def Atom.kind : Atom → TokenKind
  | keyword w => .keyword w
  | name n => .ident n
  | typeName n => wordKind n
  | string v => .string (quoteString v)
  | key k => if isIdentifier k = true then .ident k else .string (quoteString k)
  | number x => .number (x.write Binary64.plain)
  | boolean b => .boolean b

def TextPiece.kind? : TextPiece → Option TokenKind
  | space | line _ => none
  | mark m => some (.mark m)
  | array => some (.typeWord .array)
  | atom a => some a.kind

def kindsOf (ps : List TextPiece) : List TokenKind := ps.filterMap TextPiece.kind?

theorem Quotable.exists_quote {value : String} (h : Quotable value) :
    ∃ q, isQuote q = true ∧ items (· == q) value.toList = true ∧
      quoteString value = String.ofList (q :: (value.toList ++ [q])) := by
  unfold quoteString
  by_cases hq : '"' ∈ value.toList
  · refine ⟨'\'', rfl, h.2 hq, ?_⟩
    simp [hq, ← String.toList_inj]
  · refine ⟨'"', rfl, items_of_not_mem h.1 hq, ?_⟩
    simp [hq, ← String.toList_inj]

theorem wordKind_of_not_reserved {word : String} (h : isReserved word = false) :
    wordKind word = .ident word := by
  rw [wordKind]
  cases hlookup : reservedWords.lookup word with
  | none => rfl
  | some k => simp [isReserved, hlookup] at h

theorem lexed_quoteString {value : String} (h : Quotable value) (r : List Char) :
    lexed ((quoteString value).toList ++ r) = .string (quoteString value) :: lexed r := by
  obtain ⟨q, hq, hitems, htext⟩ := h.exists_quote
  rw [htext, String.toList_ofList]
  exact lexed_quoted hq hitems

theorem lexed_atom {a : Atom} (h : a.Good) {r : List Char} (hr : Stops r) :
    lexed (a.text.toList ++ r) = a.kind :: lexed r := by
  cases a with
  | keyword w => cases w <;> exact lexed_word (by decide) hr
  | boolean b => cases b <;> exact lexed_word (by decide) hr
  | name n =>
    rw [Atom.text, lexed_word h.1 hr, wordKind_of_not_reserved h.2]
    rfl
  | typeName n =>
    rcases h with ⟨w, rfl⟩ | ⟨hident, -⟩
    · cases w <;> exact lexed_word (by decide) hr
    · exact lexed_word hident hr
  | string v => exact lexed_quoteString h r
  | key k =>
    rw [Atom.Good] at h
    rw [Atom.text, Atom.kind, keyText]
    split
    · rename_i hident
      rw [if_pos hident] at h
      rw [lexed_word hident hr, wordKind_of_not_reserved h]
    · rename_i hident
      rw [if_neg hident] at h
      exact lexed_quoteString h r
  | number x =>
    obtain ⟨m, e, rfl, hcanonical⟩ := h
    obtain ⟨whole, fraction, hne, hwhole, hfraction, htext, -⟩ := Binary64.denotes_write hcanonical
    rw [Atom.text, Atom.kind, htext, lexed_numeral hne hwhole hfraction hr, ← htext,
      String.ofList_toList]

section Pieces

variable {layout : Layout} {ps qs : List TextPiece}

theorem stops_textOf (h : Apart ps) : Stops (textOf layout ps).toList := by
  have hmark : ∀ m : Mark, ∃ c cs, m.text.toList = c :: cs ∧ isIdentPart c = false ∧ c ≠ '.' := by
    intro m
    cases m <;> exact ⟨_, _, rfl, by decide, by decide⟩
  cases ps with
  | nil => simp [Stops]
  | cons p ps =>
    cases p with
    | space =>
      intro c hc
      simp [TextPiece.text] at hc
      subst hc
      decide
    | line depth =>
      intro c hc
      simp [TextPiece.text] at hc
      subst hc
      decide
    | mark m =>
      obtain ⟨d, ds, hd, hstop⟩ := hmark m
      intro c hc
      simp [TextPiece.text, hd] at hc
      subst hc
      exact hstop
    | array => exact h.elim
    | atom a => exact h.elim

theorem isBlank_indent (depth : Nat) : ∀ c ∈ (layout.indent depth).toList, isBlank c = true := by
  intro c hc
  unfold Layout.indent at hc
  split at hc
  · rw [String.toList_ofList] at hc
    rw [List.eq_of_mem_replicate hc]
    rfl
  · rw [String.toList_ofList] at hc
    rw [List.eq_of_mem_replicate hc]
    rfl

theorem lexed_piece {p : TextPiece} (hp : p.Before ps) (hgood : ∀ a, p = .atom a → a.Good) :
    lexed (textOf layout (p :: ps)).toList =
      p.kind?.toList ++ lexed (textOf layout ps).toList := by
  rw [textOf_cons, String.toList_append]
  cases p with
  | space =>
    have hspace : TextPiece.text layout .space = String.ofList [' '] := rfl
    rw [hspace, String.toList_ofList]
    exact lexed_blank rfl
  | line depth =>
    refine lexed_blanks fun c hc => ?_
    rw [TextPiece.text, String.toList_append] at hc
    rcases List.mem_append.mp hc with hc | hc
    · rw [List.mem_singleton.mp hc]
      rfl
    · exact isBlank_indent depth c hc
  | mark m =>
    refine lexed_mark fun hm => ?_
    cases ps with
    | nil => simp
    | cons q ps =>
      cases hp hm
      simp [TextPiece.text]
  | array =>
    have hword : isIdentifier (TypeWord.text .array) = true := by decide
    refine lexed_word hword ?_
    cases ps with
    | nil => simp [Stops]
    | cons q ps =>
      cases hp
      intro c hc
      simp [TextPiece.text, Mark.text] at hc
      subst hc
      decide
  | atom a => exact lexed_atom (hgood a rfl) (stops_textOf hp.apart)

theorem lexed_append (hspaced : Spaced (ps ++ qs) []) (hgood : ∀ a ∈ atomsOf ps, a.Good) :
    lexed (textOf layout (ps ++ qs)).toList = kindsOf ps ++ lexed (textOf layout qs).toList := by
  induction ps with
  | nil => rfl
  | cons p ps ih =>
    rw [List.cons_append, spaced_cons, List.append_nil] at hspaced
    have hp : ∀ a, p = .atom a → a.Good := by
      rintro a rfl
      exact hgood a (by simp [atomsOf, TextPiece.atom?])
    have hrest : ∀ a ∈ atomsOf ps, a.Good := by
      intro a ha
      refine hgood a ?_
      cases p <;> simp [atomsOf, TextPiece.atom?] at ha ⊢ <;> simp [ha]
    rw [List.cons_append, lexed_piece hspaced.1 hp, ih hspaced.2 hrest]
    cases p <;> rfl

theorem lexed_textOf (hspaced : Spaced ps []) (hgood : ∀ a ∈ atomsOf ps, a.Good) :
    lexed (textOf layout ps).toList = kindsOf ps := by
  have h : lexed (textOf layout (ps ++ [])).toList = kindsOf ps ++ lexed (textOf layout []).toList :=
    lexed_append (by simpa using hspaced) hgood
  simpa using h

end Pieces

end ArrowCheck
