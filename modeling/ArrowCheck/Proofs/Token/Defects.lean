import ArrowCheck.Proofs.Token.LongestMatch
import ArrowCheck.Proofs.Token.Respacing

namespace ArrowCheck

open Lexer

variable {source : String} {t : Token} {f : LexFault} {c : Char} {cs after body : List Char}

/-- The defect of a token, read off its text. -/
inductive Token.Defective (source : String) (t : Token) : LexFault → Prop
  | openString {quote : Char} {rest : List Char} (hkind : t.kind.isError = true)
    (htext : t.textIn source = quote :: rest) (hquote : quote = '"' ∨ quote = '\'') :
    Defective source t (.openString t.span.start)
  | unexpected {c : Char} (hkind : t.kind.isError = true) (htext : t.textIn source = [c])
    (hquote : c ≠ '"' ∧ c ≠ '\'') : Defective source t (.unexpected t.span.start c)
  | openComment {text : String} {body : List Char} (hkind : t.kind = .blockComment text)
    (htext : t.textIn source = '/' :: '*' :: body) (hopen : ¬ commentEnd <:+: body) :
    Defective source t (.openComment t.span.start)

inductive Defects (source : String) : List Token → List LexFault → Prop
  | nil : Defects source [] []
  | defect {t : Token} {ts : List Token} {f : LexFault} {fs : List LexFault}
    (h : t.Defective source f) (hrest : Defects source ts fs) : Defects source (t :: ts) (f :: fs)
  | sound {t : Token} {ts : List Token} {fs : List LexFault}
    (h : ∀ f, ¬ t.Defective source f) (hrest : Defects source ts fs) : Defects source (t :: ts) fs

theorem defects_filterMap {ts : List Token}
    (h : ∀ t ∈ ts, ∀ {f}, t.fault? = some f ↔ t.Defective source f) :
    Defects source ts (ts.filterMap Token.fault?) := by
  induction ts with
  | nil => exact .nil
  | cons t ts ih =>
    obtain ⟨ht, hts⟩ := List.forall_mem_cons.mp h
    cases hfault : t.fault? with
    | none =>
      rw [List.filterMap_cons_none hfault]
      refine .sound (fun f hdefect => ?_) (ih hts)
      rw [ht.mpr hdefect] at hfault
      cases hfault
    | some f =>
      rw [List.filterMap_cons_some hfault]
      exact .defect (ht.mp hfault) (ih hts)

theorem Lexer.lexeme_single (h : (lexeme c cs).1.isError = true) (hquote : isQuote c = false) :
    (lexeme c cs).2 = 0 := by
  unfold lexeme at h ⊢
  dsimp only at h ⊢
  by_cases hword : isIdentStart c = true
  · rw [if_pos hword, (wordKind_isAtomic _).2.2] at h
    cases h
  by_cases hdigit : c.isDigit = true
  · rw [if_neg hword, if_pos hdigit] at h
    cases h
  rw [if_neg hword, if_neg hdigit, if_neg (by simp [hquote])] at h ⊢
  split at h
  · cases h
  · cases h
  · cases h
  split at h
  · cases h
  · rfl

theorem Rule.Matches.blockComment_inv {name : String} {text : List Char}
    (h : Matches after (.blockComment name) text) :
    name = String.ofList text ∧ BlockComment after text := by
  generalize hkind : TokenKind.blockComment name = kind at h
  cases h with
  | fixed h =>
    cases h with
    | word h =>
      have hwords : ∀ p ∈ reservedWords, p.2.isComment = false := by decide
      have hword := hwords _ h
      rw [← hkind] at hword
      cases hword
    | mark m => cases hkind
  | blockComment h =>
    cases hkind
    exact ⟨rfl, h⟩
  | _ => cases hkind

theorem Token.closesComment_iff (body : List Char) :
    closesComment (String.ofList ('/' :: '*' :: body)) = true ↔ commentEnd <:+ body := by
  rw [closesComment, String.length_ofList, String.toList_ofList, Bool.and_eq_true, beq_iff_eq,
    decide_eq_true_iff, List.suffix_iff_eq_drop]
  cases body with
  | nil => simp [commentEnd]
  | cons c cs =>
    cases cs with
    | nil => simp [commentEnd]
    | cons d ds => simp [commentEnd, eq_comm]

theorem Rule.BlockComment.opening {text : List Char} (h : BlockComment after text) :
    ∃ body, text = '/' :: '*' :: body := by
  cases h with
  | closed body => exact ⟨_, rfl⟩
  | unclosed body => exact ⟨_, rfl⟩

theorem Rule.BlockComment.closed_iff (h : BlockComment after ('/' :: '*' :: body)) :
    commentEnd <:+ body ↔ commentEnd <:+: body := by
  refine ⟨List.IsSuffix.isInfix, fun hinfix => ?_⟩
  cases h with
  | closed body => exact List.suffix_append _ _
  | unclosed body hbody => exact absurd hinfix hbody

theorem Rule.BlockComment.after_eq_nil (h : BlockComment after ('/' :: '*' :: body))
    (hopen : ¬ commentEnd <:+: body) : after = [] := by
  cases h with
  | closed body => exact absurd (List.suffix_append _ _).isInfix hopen
  | unclosed body _ hafter => exact hafter

namespace Token

theorem blockComment_cut {name : String} (h : t ∈ tokenize source)
    (hkind : t.kind = .blockComment name) : ∃ before body after,
      source.toList = before ++ '/' :: '*' :: body ++ after ∧ t.textIn source = '/' :: '*' :: body ∧
      t.span.stop = byteLength (before ++ '/' :: '*' :: body) ∧
      name = String.ofList ('/' :: '*' :: body) ∧
      Rule.BlockComment after ('/' :: '*' :: body) := by
  obtain ⟨before, c, rest, hsource, -, hlexeme, htext, hstop⟩ := t.textIn_cut h
  rw [hkind] at hlexeme
  have hsound : (lexeme c rest).1.isError = false := by rw [← hlexeme]; rfl
  have hmatches := Rule.lexeme_matches hsound
  rw [← hlexeme] at hmatches
  obtain ⟨hname, hcomment⟩ := hmatches.blockComment_inv
  obtain ⟨body, hbody⟩ := hcomment.opening
  rw [hbody] at hname hcomment htext
  refine ⟨before, body, _, ?_, htext, by rw [hstop, htext], hname, hcomment⟩
  rw [hsource, List.append_assoc, ← hbody, List.cons_append, List.take_append_drop]

theorem defective_iff_of_quote (hkind : t.kind.isError = true) (htext : t.textIn source = c :: cs)
    (hquote : isQuote c = true) : t.Defective source f ↔ f = .openString t.span.start := by
  have hc := Rule.eq_quote hquote
  constructor
  · intro h
    cases h with
    | openString => rfl
    | unexpected _ htext' hnot =>
      cases htext.symm.trans htext'
      exact absurd hc (not_or.mpr hnot)
    | openComment hcomment =>
      rw [hcomment] at hkind
      cases hkind
  · rintro rfl
    exact .openString hkind htext hc

theorem defective_iff_of_single (hkind : t.kind.isError = true) (htext : t.textIn source = [c])
    (hquote : isQuote c = false) : t.Defective source f ↔ f = .unexpected t.span.start c := by
  have hc : c ≠ '"' ∧ c ≠ '\'' := by simpa [isQuote] using hquote
  constructor
  · intro h
    cases h with
    | openString _ htext' hquote' =>
      cases htext.symm.trans htext'
      exact absurd hquote' (not_or.mpr hc)
    | unexpected _ htext' =>
      cases htext.symm.trans htext'
      rfl
    | openComment hcomment =>
      rw [hcomment] at hkind
      cases hkind
  · rintro rfl
    exact .unexpected hkind htext hc

theorem defective_iff_of_comment {text : String} (hkind : t.kind = .blockComment text)
    (htext : t.textIn source = '/' :: '*' :: body) :
    t.Defective source f ↔ ¬ commentEnd <:+: body ∧ f = .openComment t.span.start := by
  have hsound : ¬ t.kind.isError = true := by simp [hkind, TokenKind.isError]
  constructor
  · intro h
    cases h with
    | openString herror => exact absurd herror hsound
    | unexpected herror => exact absurd herror hsound
    | openComment _ htext' hopen =>
      cases htext.symm.trans htext'
      exact ⟨hopen, rfl⟩
  · rintro ⟨hopen, rfl⟩
    exact .openComment hkind htext hopen

theorem defective_iff_of_error {text : String} (h : t ∈ tokenize source)
    (hkind : t.kind = .error text) : ∃ c, text.toList.head? = some c ∧
      ∀ f, t.Defective source f ↔
        f = if isQuote c then .openString t.span.start else .unexpected t.span.start c := by
  obtain ⟨-, c, rest, -, -, hlexeme, htext, -⟩ := t.textIn_cut h
  have herror : t.kind.isError = true := by rw [hkind]; rfl
  refine ⟨c, toList_of_lexeme (hlexeme.symm.trans hkind), fun f => ?_⟩
  cases hquote : isQuote c with
  | true => exact defective_iff_of_quote herror htext hquote
  | false =>
    rw [lexeme_single (hlexeme ▸ herror) hquote] at htext
    exact defective_iff_of_single herror htext hquote

theorem fault?_eq_some_iff (h : t ∈ tokenize source) : t.fault? = some f ↔ t.Defective source f := by
  unfold fault?
  cases hkind : t.kind with
  | error text =>
    obtain ⟨c, hhead, hdefect⟩ := t.defective_iff_of_error h hkind
    simp only [hhead]
    rw [hdefect f, ← apply_ite some, Option.some_inj, eq_comm]
  | blockComment text =>
    obtain ⟨-, body, after, -, htext, -, rfl, hcomment⟩ := t.blockComment_cut h hkind
    have hclosed := (closesComment_iff body).trans hcomment.closed_iff
    rw [defective_iff_of_comment hkind htext, ← hclosed]
    dsimp only
    by_cases hend : closesComment (String.ofList ('/' :: '*' :: body)) = true
    · rw [if_pos hend]
      exact iff_of_false (by simp) fun hopen => hopen.1 hend
    · rw [if_neg hend, Option.some_inj, eq_comm]
      exact (and_iff_right hend).symm
  | _ =>
    refine iff_of_false (by simp) ?_
    rintro (⟨hkind'⟩ | ⟨hkind'⟩ | ⟨hkind'⟩)
    all_goals
      rw [hkind] at hkind'
      cases hkind'

end Token

theorem Token.stop_of_open {position : Nat} (h : t ∈ tokenize source)
    (hopen : t.Defective source (.openComment position)) :
    t.span.stop = source.utf8ByteSize := by
  cases hopen with
  | openComment hkind htext hopen =>
    obtain ⟨before, body, after, hsource, htext', hstop, -, hcomment⟩ := t.blockComment_cut h hkind
    cases htext.symm.trans htext'
    rw [hstop, ← byteLength_toList, hsource, hcomment.after_eq_nil hopen, List.append_nil]

theorem getLast?_of_stop (h : t ∈ tokenize source) (hstop : t.span.stop = source.utf8ByteSize) :
    (tokenize source).getLast? = some t := by
  have hordered := ordered_tokenize source
  obtain ⟨front, behind, hsplit⟩ := List.append_of_mem h
  cases behind with
  | nil => rw [hsplit, List.getLast?_concat]
  | cons u us =>
    -- the next token would start behind the end
    have hu : u ∈ tokenize source := by simp [hsplit]
    have hapart := hordered.apart
    rw [hsplit, List.pairwise_append, List.pairwise_cons] at hapart
    have hnext := hapart.2.1.1 u List.mem_cons_self
    have hlt := hordered.lt u hu
    have hle := (cut_of_mem_tokenize hu).stop_le
    omega

/-- The lexical faults of a text are the defects of its tokens in order. Every token that cannot be read
has one, and a comment that has one reaches to the end of the text and is the last token. -/
theorem faults_are_defects (source : String) :
    Defects source (tokenize source) (lexFaults source) ∧
    (∀ t ∈ tokenize source, t.kind.isError = true → ∃ f, t.Defective source f) ∧
    ∀ t ∈ tokenize source, ∀ position, t.Defective source (.openComment position) →
      (tokenize source).getLast? = some t ∧ t.span.stop = source.utf8ByteSize := by
  refine ⟨defects_filterMap fun t ht => t.fault?_eq_some_iff ht, ?_, ?_⟩
  · intro t ht herror
    cases hkind : t.kind with
    | error text =>
      obtain ⟨c, -, hdefect⟩ := t.defective_iff_of_error ht hkind
      exact ⟨_, (hdefect _).mpr rfl⟩
    | _ =>
      rw [hkind] at herror
      cases herror
  · intro t ht position hopen
    have hstop := Token.stop_of_open ht hopen
    exact ⟨getLast?_of_stop ht hstop, hstop⟩

end ArrowCheck
