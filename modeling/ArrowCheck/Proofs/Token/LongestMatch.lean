import ArrowCheck.Proofs.Token.Lexemes
import Mathlib.Computability.Language

namespace ArrowCheck

open Computability Lexer

namespace Rule

variable {text after cs : List Char} {c quote : Char} {kind : TokenKind} {p q : Char → Prop}

def oneOf (p : Char → Prop) : Language Char := {text | ∃ c, p c ∧ text = [c]}

def digit : Language Char := oneOf fun c => '0' ≤ c ∧ c ≤ '9'

def letter : Language Char :=
  oneOf fun c => 'a' ≤ c ∧ c ≤ 'z' ∨ 'A' ≤ c ∧ c ≤ 'Z' ∨ c = '_'

def blank : Language Char := oneOf (· ∈ [' ', '\t', '\r', '\n', '\x0c'])

def blanks : Language Char := blank * blank∗

def number : Language Char := digit * digit∗ * (1 + {['.']} * (digit * digit∗))

def ident : Language Char := letter * (letter + digit)∗

def stringItem (quote : Char) : Language Char :=
  oneOf (fun c => c ≠ quote ∧ c ≠ '\\' ∧ c ≠ '\n') + {['\\']} * oneOf (· ≠ '\n')

def string (quote : Char) : Language Char := {[quote]} * (stringItem quote)∗ * {[quote]}

def lineComment : Language Char := {['/', '/']} * (oneOf (· ≠ '\n'))∗

/-- A block comment runs up to the first closing mark, or to the end if there is none. -/
inductive BlockComment (after : List Char) : List Char → Prop
  | closed (body : List Char) (h : ¬ commentEnd <:+: body ++ ['*']) :
    BlockComment after ('/' :: '*' :: (body ++ commentEnd))
  | unclosed (body : List Char) (h : ¬ commentEnd <:+: body) (hafter : after = []) :
    BlockComment after ('/' :: '*' :: body)

inductive Fixed : TokenKind → List Char → Prop
  | word {word : String} {kind : TokenKind} (h : (word, kind) ∈ reservedWords) :
    Fixed kind word.toList
  | mark (m : Mark) : Fixed (.mark m) m.text.toList

/-- A rule for tokens of the kind matches the text if `after` follows. -/
inductive Matches (after : List Char) : TokenKind → List Char → Prop
  | fixed {kind : TokenKind} {text : List Char} (h : Fixed kind text) : Matches after kind text
  | number {text : List Char} (h : text ∈ number) :
    Matches after (.number (String.ofList text)) text
  | string {quote : Char} {text : List Char} (hquote : quote = '"' ∨ quote = '\'')
    (h : text ∈ string quote) : Matches after (.string (String.ofList text)) text
  | ident {text : List Char} (h : text ∈ ident) : Matches after (.ident (String.ofList text)) text
  | lineComment {text : List Char} (h : text ∈ lineComment) :
    Matches after (.lineComment (String.ofList text)) text
  | blockComment {text : List Char} (h : BlockComment after text) :
    Matches after (.blockComment (String.ofList text)) text

section Forms

theorem oneOf_add : oneOf p + oneOf q = oneOf fun c => p c ∨ q c := by
  ext text
  rw [Language.mem_add]
  constructor
  · rintro (⟨c, hc, rfl⟩ | ⟨c, hc, rfl⟩)
    · exact ⟨c, .inl hc, rfl⟩
    · exact ⟨c, .inr hc, rfl⟩
  · rintro ⟨c, hc, rfl⟩
    exact hc.imp (fun h => ⟨c, h, rfl⟩) fun h => ⟨c, h, rfl⟩

theorem mem_kstar_oneOf : text ∈ (oneOf p)∗ ↔ ∀ c ∈ text, p c := by
  constructor
  · rintro ⟨parts, rfl, hparts⟩ c hc
    obtain ⟨part, hpart, hmem⟩ := List.mem_flatten.mp hc
    obtain ⟨d, hd, rfl⟩ := hparts part hpart
    rwa [List.mem_singleton.mp hmem]
  · intro h
    refine ⟨text.map fun c => [c], (List.flatMap_singleton' text).symm, fun part hpart => ?_⟩
    obtain ⟨c, hc, rfl⟩ := List.mem_map.mp hpart
    exact ⟨c, h c hc, rfl⟩

theorem mem_oneOf_mul {l : Language Char} :
    text ∈ oneOf p * l ↔ ∃ c cs, text = c :: cs ∧ p c ∧ cs ∈ l := by
  rw [Language.mem_mul]
  constructor
  · rintro ⟨_, ⟨c, hc, rfl⟩, cs, hcs, rfl⟩
    exact ⟨c, cs, rfl, hc, hcs⟩
  · rintro ⟨c, cs, rfl, hc, hcs⟩
    exact ⟨[c], ⟨c, hc, rfl⟩, cs, hcs, rfl⟩

theorem mem_singleton_mul {start : List Char} {l : Language Char} :
    text ∈ ({start} : Language Char) * l ↔ ∃ cs ∈ l, text = start ++ cs := by
  rw [Language.mem_mul]
  constructor
  · rintro ⟨_, rfl, cs, hcs, rfl⟩
    exact ⟨cs, hcs, rfl⟩
  · rintro ⟨cs, hcs, rfl⟩
    exact ⟨start, rfl, cs, hcs, rfl⟩

theorem append_mem_kstar {l : Language Char} {part rest : List Char} (hpart : part ∈ l)
    (hrest : rest ∈ l∗) : part ++ rest ∈ l∗ := by
  obtain ⟨parts, rfl, hparts⟩ := hrest
  exact ⟨part :: parts, rfl, List.forall_mem_cons.mpr ⟨hpart, hparts⟩⟩

theorem isDigit_iff : c.isDigit = true ↔ '0' ≤ c ∧ c ≤ '9' := by
  simp [Char.isDigit, Char.le_def]

theorem isUpper_iff : c.isUpper = true ↔ 'A' ≤ c ∧ c ≤ 'Z' := decide_eq_true_iff

theorem isLower_iff : c.isLower = true ↔ 'a' ≤ c ∧ c ≤ 'z' :=
  Bool.and_eq_true_iff.trans (and_congr decide_eq_true_iff decide_eq_true_iff)

theorem isIdentStart_iff :
    isIdentStart c = true ↔ 'a' ≤ c ∧ c ≤ 'z' ∨ 'A' ≤ c ∧ c ≤ 'Z' ∨ c = '_' := by
  have halpha : c.isAlpha = true ↔ c.isUpper = true ∨ c.isLower = true := Bool.or_eq_true_iff
  simp only [isIdentStart, Bool.or_eq_true, halpha, isUpper_iff, isLower_iff, beq_iff_eq]
  tauto

theorem isIdentPart_iff : isIdentPart c = true ↔
    ('a' ≤ c ∧ c ≤ 'z' ∨ 'A' ≤ c ∧ c ≤ 'Z' ∨ c = '_') ∨ '0' ≤ c ∧ c ≤ '9' := by
  rw [← isIdentStart_iff, ← isDigit_iff]
  simp [isIdentPart, isIdentStart, Char.isAlphanum]
  tauto

theorem mem_ident : text ∈ ident ↔
    ∃ c cs, text = c :: cs ∧ isIdentStart c = true ∧ ∀ d ∈ cs, isIdentPart d = true := by
  simp only [ident, letter, digit, oneOf_add, mem_oneOf_mul, mem_kstar_oneOf, isIdentStart_iff,
    isIdentPart_iff]

theorem mem_digits : text ∈ digit * digit∗ ↔ text ≠ [] ∧ AllDigits text := by
  rw [digit, mem_oneOf_mul]
  simp only [mem_kstar_oneOf, ← isDigit_iff]
  cases text with
  | nil => simp
  | cons c cs => simp [AllDigits]

theorem mem_number : text ∈ number ↔ ∃ whole fraction, whole ≠ [] ∧ AllDigits whole ∧
    AllDigits fraction ∧ text = numeral whole fraction := by
  rw [number, Language.mem_mul]
  simp only [Language.mem_add, Language.mem_one, mem_singleton_mul, mem_digits]
  constructor
  · rintro ⟨whole, ⟨hne, hwhole⟩, _, rfl | ⟨fraction, ⟨hne', hfraction⟩, rfl⟩, rfl⟩
    · exact ⟨whole, [], hne, hwhole, by simp [AllDigits], List.append_nil whole⟩
    · exact ⟨whole, fraction, hne, hwhole, hfraction, (numeral_of_ne_nil hne').symm⟩
  · rintro ⟨whole, fraction, hne, hwhole, hfraction, rfl⟩
    refine ⟨whole, ⟨hne, hwhole⟩, ?_⟩
    by_cases hne' : fraction = []
    · exact ⟨[], .inl rfl, by rw [hne', List.append_nil]; rfl⟩
    · exact ⟨['.'] ++ fraction, .inr ⟨fraction, ⟨hne', hfraction⟩, rfl⟩, (numeral_of_ne_nil hne').symm⟩

theorem mem_stringItems :
    text ∈ (stringItem quote)∗ ↔ items (· == quote) text = true := by
  constructor
  · rintro ⟨parts, rfl, hparts⟩
    induction parts with
    | nil => rfl
    | cons part rest ih =>
      obtain ⟨hpart, hrest⟩ := List.forall_mem_cons.mp hparts
      have hitems := ih hrest
      rcases hpart with ⟨c, ⟨hquote, hescape, hline⟩, rfl⟩ | hpart
      · rw [List.flatten_cons, List.singleton_append, items_cons hescape]
        simp [hquote, hline, hitems]
      · obtain ⟨_, ⟨c, hline, rfl⟩, rfl⟩ := mem_singleton_mul.mp hpart
        simp [items, hline, hitems]
  · intro hitems
    have hbare : ∀ {c cs}, c ≠ quote → c ≠ '\\' → c ≠ '\n' → cs ∈ (stringItem quote)∗ →
        c :: cs ∈ (stringItem quote)∗ := by
      intro c cs hquote hescape hline hcs
      have hitem : [c] ∈ stringItem quote := .inl ⟨c, ⟨hquote, hescape, hline⟩, rfl⟩
      exact append_mem_kstar hitem hcs
    induction text using items.induct with
    | case1 => exact Language.nil_mem_kstar _
    | case2 c =>
      simp only [items, Bool.and_eq_true, bne_iff_ne, Bool.not_eq_true', beq_eq_false_iff_ne] at hitems
      exact hbare hitems.2 hitems.1.1 hitems.1.2 (Language.nil_mem_kstar _)
    | case3 d cs ih =>
      simp only [items, ↓reduceIte, Bool.and_eq_true, bne_iff_ne] at hitems
      have hitem : ['\\'] ++ [d] ∈ stringItem quote := .inr ⟨_, rfl, _, ⟨d, hitems.1, rfl⟩, rfl⟩
      exact append_mem_kstar hitem (ih hitems.2)
    | case4 c d cs hc ih =>
      rw [items_cons hc] at hitems
      simp only [Bool.and_eq_true, bne_iff_ne, Bool.not_eq_true', beq_eq_false_iff_ne] at hitems
      exact hbare hitems.1.2 hc hitems.1.1 (ih hitems.2)

theorem mem_string : text ∈ string quote ↔
    ∃ cs, items (· == quote) cs = true ∧ text = quote :: (cs ++ [quote]) := by
  rw [string, mul_assoc, mem_singleton_mul]
  simp only [Language.mem_mul, mem_stringItems]
  constructor
  · rintro ⟨_, ⟨cs, hcs, _, rfl, rfl⟩, rfl⟩
    exact ⟨cs, hcs, rfl⟩
  · rintro ⟨cs, hcs, rfl⟩
    exact ⟨_, ⟨cs, hcs, _, rfl, rfl⟩, rfl⟩

theorem mem_lineComment : text ∈ lineComment ↔
    ∃ cs, (∀ c ∈ cs, c ≠ '\n') ∧ text = '/' :: '/' :: cs := by
  rw [lineComment, mem_singleton_mul]
  simp only [mem_kstar_oneOf]
  rfl

end Forms

theorem wordKind_matches (text after : List Char) (h : text ∈ ident) :
    Matches after (wordKind (String.ofList text)) text := by
  rw [wordKind]
  cases hlookup : reservedWords.lookup (String.ofList text) with
  | none => exact .ident h
  | some kind =>
    obtain ⟨before, behind, hwords, -⟩ := List.lookup_eq_some_iff.mp hlookup
    have hfixed : Fixed kind (String.ofList text).toList := .word (by simp [hwords])
    rw [String.toList_ofList] at hfixed
    exact .fixed hfixed

theorem blockComment_commentRun (cs : List Char) :
    BlockComment (cs.drop (commentRun cs)) ('/' :: '*' :: cs.take (commentRun cs)) := by
  rw [commentRun]
  cases hclose : closeOffset? cs with
  | none =>
    rw [Option.getD_none, List.take_length, List.drop_length]
    exact .unclosed cs (closeOffset?_eq_none_iff.mp hclose) rfl
  | some n =>
    obtain ⟨body, rest, rfl, rfl, hbody⟩ := closeOffset?_eq_some_iff.mp hclose
    rw [Option.getD_some, List.take_left]
    exact .closed body hbody

theorem text_of_markOf {m : Mark} (h : markOf c = some m) : m.text.toList = [c] := by
  unfold markOf at h
  split at h <;> cases h <;> rfl

theorem eq_quote (h : isQuote c = true) : c = '"' ∨ c = '\'' := by
  simpa [isQuote] using h

/-- The text of a token that can be read is matched by a rule for its kind. -/
theorem lexeme_matches (h : (lexeme c cs).1.isError = false) :
    Matches (cs.drop (lexeme c cs).2) (lexeme c cs).1 (c :: cs.take (lexeme c cs).2) := by
  cases opens_of_sound h with
  | word hc =>
    rw [lexeme_word hc]
    dsimp only
    rw [← List.prefix_iff_eq_take.mp (List.takeWhile_prefix isIdentPart)]
    apply wordKind_matches
    exact mem_ident.mpr ⟨c, _, rfl, hc, List.all_eq_true.mp List.all_takeWhile⟩
  | number hc =>
    rw [lexeme_number hc]
    exact .number (mem_number.mpr (take_numberRun hc cs))
  | string hc text rest hitems hcs =>
    subst hcs
    rw [lexeme_string hc hitems]
    dsimp only
    rw [take_closed]
    exact .string (eq_quote hc) (mem_string.mpr ⟨text, hitems, rfl⟩)
  | lineComment hc rest hcs =>
    subst hc hcs
    rw [lexeme_lineComment]
    dsimp only
    rw [List.take_succ_cons, ← List.prefix_iff_eq_take.mp (List.takeWhile_prefix _)]
    refine .lineComment (mem_lineComment.mpr ⟨_, fun d hd => ?_, rfl⟩)
    simpa using List.all_eq_true.mp List.all_takeWhile d hd
  | blockComment hc rest hcs =>
    subst hc hcs
    exact .blockComment (blockComment_commentRun rest)
  | arrow hc rest hcs =>
    subst hc hcs
    exact .fixed (.mark .arrow)
  | mark m hm hnot =>
    rw [lexeme_mark hm hnot]
    dsimp only
    rw [List.take_zero, ← text_of_markOf hm]
    exact .fixed (.mark m)

section Longest

/-- At the start of the text there is a token that can be read, with at least `n` characters. -/
def Covers (cs : List Char) (n : Nat) : Prop :=
  ∀ c rest, cs = c :: rest → (lexeme c rest).1.isError = false ∧ n ≤ (lexeme c rest).2 + 1

theorem ident_covers (h : text ∈ ident) : Covers (text ++ after) text.length := by
  rintro _ _ heq
  obtain ⟨c, cs, rfl, hc, hcs⟩ := mem_ident.mp h
  cases heq
  have hrun : (cs ++ after).takeWhile isIdentPart = cs ++ after.takeWhile isIdentPart :=
    List.takeWhile_append_of_pos hcs
  rw [List.append_eq, lexeme_word hc, hrun, List.length_append, List.length_cons]
  exact ⟨(wordKind_isAtomic _).2.2, by omega⟩

theorem numeral_le_numberRun {whole fraction : List Char} (hw : AllDigits whole)
    (hf : AllDigits fraction) (after : List Char) :
    (numeral whole fraction).length ≤ numberRun (numeral whole fraction ++ after) := by
  induction whole with
  | nil =>
    cases fraction with
    | nil => exact Nat.zero_le _
    | cons d ds =>
      have hrun : (d :: ds ++ after).takeWhile Char.isDigit = d :: ds ++ after.takeWhile Char.isDigit :=
        List.takeWhile_append_of_pos hf
      have hpoint := numberRun_point (d :: ds ++ after) (by rw [hrun]; simp)
      rw [hrun] at hpoint
      show (d :: ds).length + 1 ≤ numberRun ('.' :: (d :: ds ++ after))
      rw [hpoint, List.length_append]
      omega
  | cons c ws ih =>
    obtain ⟨hc, hws⟩ := List.forall_mem_cons.mp hw
    rw [← cons_numeral, List.cons_append, numberRun_digit hc, List.length_cons]
    exact Nat.succ_le_succ (ih hws)

theorem number_covers (h : text ∈ number) : Covers (text ++ after) text.length := by
  rintro c cs heq
  obtain ⟨whole, fraction, hne, hw, hf, rfl⟩ := mem_number.mp h
  obtain ⟨d, ws, rfl⟩ := List.exists_cons_of_ne_nil hne
  obtain ⟨hd, hws⟩ := List.forall_mem_cons.mp hw
  rw [← cons_numeral] at heq
  cases heq
  rw [List.append_eq, lexeme_number hd, ← cons_numeral, List.length_cons]
  exact ⟨rfl, Nat.succ_le_succ (numeral_le_numberRun hws hf after)⟩

theorem string_covers (hquote : quote = '"' ∨ quote = '\'') (h : text ∈ string quote) :
    Covers (text ++ after) text.length := by
  rintro _ _ heq
  obtain ⟨cs, hcs, rfl⟩ := mem_string.mp h
  cases heq
  have hq : isQuote quote = true := by simpa [isQuote] using hquote
  rw [List.append_eq, List.append_assoc, List.singleton_append, lexeme_string hq hcs]
  exact ⟨rfl, by simp⟩

theorem lineComment_covers (h : text ∈ lineComment) : Covers (text ++ after) text.length := by
  rintro _ _ heq
  obtain ⟨cs, hcs, rfl⟩ := mem_lineComment.mp h
  cases heq
  have hrun : (cs ++ after).takeWhile (· != '\n') = cs ++ after.takeWhile (· != '\n') :=
    List.takeWhile_append_of_pos (by simpa using hcs)
  rw [List.append_eq, List.cons_append, lexeme_lineComment, hrun]
  exact ⟨rfl, by simp⟩

theorem blockComment_covers (h : BlockComment after text) : Covers (text ++ after) text.length := by
  rintro _ _ heq
  cases h with
  | closed body hbody =>
    cases heq
    have hclose : closeOffset? (body ++ commentEnd ++ after) = some (body ++ commentEnd).length :=
      closeOffset?_eq_some_iff.mpr ⟨body, after, rfl, rfl, hbody⟩
    rw [List.append_eq, List.cons_append, lexeme_blockComment, commentRun, hclose]
    exact ⟨rfl, Nat.le_refl _⟩
  | unclosed body hbody hafter =>
    subst hafter
    cases heq
    rw [List.append_eq, List.append_nil, lexeme_blockComment, commentRun,
      closeOffset?_eq_none_iff.mpr hbody]
    exact ⟨rfl, Nat.le_refl _⟩

theorem markOf_text (m : Mark) : m = .arrow ∨ ∃ c, m.text.toList = [c] ∧ markOf c = some m := by
  cases m with
  | arrow => exact .inl rfl
  | _ => exact .inr ⟨_, rfl, rfl⟩

theorem lexeme_of_markOf {m : Mark} (h : markOf c = some m) (cs : List Char) :
    (lexeme c cs).1.isError = false ∧ ((lexeme c cs).2 = 0 → lexeme c cs = (.mark m, 0)) := by
  by_cases harrow : c = '=' ∧ cs.head? = some '>'
  · obtain ⟨rfl, hhead⟩ := harrow
    obtain ⟨rest, rfl⟩ := List.head?_eq_some_iff.mp hhead
    exact ⟨rfl, fun hzero => by cases hzero⟩
  · rw [lexeme_mark h fun hc hhead => harrow ⟨hc, hhead⟩]
    exact ⟨rfl, fun _ => rfl⟩

theorem mark_covers (m : Mark) : Covers (m.text.toList ++ after) m.text.toList.length := by
  rintro _ _ heq
  obtain rfl | ⟨c, htext, hm⟩ := markOf_text m
  · cases heq
    exact ⟨rfl, Nat.le_refl _⟩
  · rw [htext] at heq ⊢
    cases heq
    exact ⟨(lexeme_of_markOf hm _).1, Nat.le_add_left 1 _⟩

theorem toList_mem_ident {word : String} (h : (word, kind) ∈ reservedWords) : word.toList ∈ ident := by
  have hwords : ∀ p ∈ reservedWords, isIdentifier p.1 = true := by decide
  have hword := hwords _ h
  unfold isIdentifier at hword
  split at hword
  · cases hword
  · rename_i c cs heq
    rw [Bool.and_eq_true, List.all_eq_true] at hword
    exact mem_ident.mpr ⟨c, cs, heq, hword⟩

theorem Matches.covers (h : Matches after kind text) : Covers (text ++ after) text.length := by
  cases h with
  | fixed h =>
    cases h with
    | word h => exact ident_covers (toList_mem_ident h)
    | mark m => exact mark_covers m
  | number h => exact number_covers h
  | string hquote h => exact string_covers hquote h
  | ident h => exact ident_covers h
  | lineComment h => exact lineComment_covers h
  | blockComment h => exact blockComment_covers h

end Longest

theorem lexeme_of_fixed (h : Fixed kind (c :: cs.take (lexeme c cs).2)) : (lexeme c cs).1 = kind := by
  generalize htext : c :: cs.take (lexeme c cs).2 = text at h
  cases h with
  | @word word _ h =>
    have hkinds : ∀ p ∈ reservedWords, wordKind p.1 = p.2 := by decide
    obtain ⟨d, ds, hword, hd, -⟩ := mem_ident.mp (toList_mem_ident h)
    rw [hword] at htext
    obtain ⟨rfl, -⟩ := List.cons.inj htext
    rw [lexeme_word hd, ← hword] at htext
    dsimp only at htext
    rw [← List.prefix_iff_eq_take.mp (List.takeWhile_prefix isIdentPart)] at htext
    rw [lexeme_word hd, htext, String.ofList_toList]
    exact hkinds _ h
  | mark m =>
    obtain rfl | ⟨d, hm, hmark⟩ := markOf_text m
    · have hpair : c :: cs.take (lexeme c cs).2 = ['=', '>'] := htext
      obtain ⟨rfl, htake⟩ := List.cons.inj hpair
      have hcs : cs = '>' :: cs.drop (lexeme '=' cs).2 := by
        rw [← List.singleton_append, ← htake, List.take_append_drop]
      rw [hcs]
      rfl
    · rw [hm] at htext
      obtain ⟨rfl, htake⟩ := List.cons.inj htext
      obtain hzero | rfl := List.take_eq_nil_iff.mp htake
      · rw [(lexeme_of_markOf hmark cs).2 hzero]
      · rw [lexeme_mark hmark fun _ hhead => by cases hhead]

/-- A rule matches the text, for a token or for blanks, if `after` follows. -/
def Applies (after text : List Char) : Prop := text ∈ blanks ∨ ∃ kind, Matches after kind text

theorem Applies.covers (h : Applies after text) (hc : isBlank c = false)
    (heq : text ++ after = c :: cs) :
    (lexeme c cs).1.isError = false ∧ text.length ≤ (lexeme c cs).2 + 1 := by
  rcases h with hblanks | ⟨kind, hmatch⟩
  · obtain ⟨d, ds, rfl, hd, -⟩ := mem_oneOf_mul.mp hblanks
    cases heq
    simp [isBlank] at hc
    simp [hc] at hd
  · exact hmatch.covers c cs heq

end Rule

/-- At every token the rules decide: a text that no rule matches is an error, and any other token is
the longest match, of the rule with that one text if there is one. -/
theorem tokens_longest (source : String) :
    ∀ t ∈ tokenize source, ∃ before text after, source.toList = before ++ text ++ after ∧
      t.span = ⟨byteLength before, byteLength (before ++ text)⟩ ∧
      if t.kind.isError then
        ∀ text' after', text' ++ after' = text ++ after → ¬ Rule.Applies after' text'
      else
        Rule.Matches after t.kind text ∧
          (∀ text' after', text' ++ after' = text ++ after → Rule.Applies after' text' →
            text'.length ≤ text.length) ∧
          ∀ kind, Rule.Fixed kind text → t.kind = kind := by
  intro t ht
  obtain ⟨before, c, rest, hsource, -, hblank, rfl⟩ := exists_cut ht
  have hrest : c :: rest.take (lexeme c rest).2 ++ rest.drop (lexeme c rest).2 = c :: rest := by
    rw [List.cons_append, List.take_append_drop]
  refine ⟨before, c :: rest.take (lexeme c rest).2, rest.drop (lexeme c rest).2, ?_, ?_, ?_⟩
  · rw [hsource, List.append_assoc, hrest]
  · rw [Nat.zero_add, Nat.zero_add]
  · rw [hrest]
    split
    · rename_i herror
      intro text' after' heq happlies
      exact absurd herror (by simp [(happlies.covers hblank heq).1])
    · rename_i hsound
      refine ⟨Rule.lexeme_matches (Bool.not_eq_true _ ▸ hsound), ?_, fun kind hfixed => ?_⟩
      · intro text' after' heq happlies
        have hcovers := (happlies.covers hblank heq).2
        have hlength := congrArg List.length heq
        rw [List.length_append, List.length_cons] at hlength
        rw [List.length_cons, List.length_take]
        omega
      · exact Rule.lexeme_of_fixed hfixed

theorem keyword_start_is_name : ∃ source, source = "consts" ∧
    ∃ t ∈ tokenize source, t = ⟨.ident "consts", ⟨0, 6⟩⟩ ∧
      ∃ before text after, source.toList = before ++ text ++ after ∧
        t.span = ⟨byteLength before, byteLength (before ++ text)⟩ ∧
        if t.kind.isError then
          ∀ text' after', text' ++ after' = text ++ after → ¬ Rule.Applies after' text'
        else
          Rule.Matches after t.kind text ∧
            (∀ text' after', text' ++ after' = text ++ after → Rule.Applies after' text' →
              text'.length ≤ text.length) ∧
            ∀ kind, Rule.Fixed kind text → t.kind = kind := by
  have hmem : ⟨.ident "consts", ⟨0, 6⟩⟩ ∈ tokenize "consts" := by decide
  exact ⟨_, rfl, _, hmem, rfl, tokens_longest "consts" _ hmem⟩

end ArrowCheck
