import ArrowCheck.Proofs.Grammar.Completeness
import ArrowCheck.Proofs.Number.Numerals

namespace ArrowCheck

/-- The kinds of the tokens of a text that are no comments. -/
def sourceKinds (source : String) : List TokenKind :=
  ((tokenize source).filter fun t => !t.kind.isComment).map Token.kind

namespace Lexer

theorem exists_lexeme {skip pos : Nat} {cs : List Char} {t : Token}
    (h : t ∈ tokensFrom skip pos cs) : ∃ c cs', t.kind = (lexeme c cs').1 := by
  induction cs generalizing skip pos with
  | nil => simp [tokensFrom] at h
  | cons c cs ih =>
    cases skip with
    | succ skip => exact ih h
    | zero =>
      rw [tokensFrom] at h
      split at h
      · exact ih h
      · rcases List.mem_cons.mp h with rfl | h
        · exact ⟨c, cs, rfl⟩
        · exact ih h

theorem wordKind_cases (word : String) :
    wordKind word = .ident word ∨ wordKind word ∈ reservedWords.map Prod.snd := by
  unfold wordKind
  cases h : reservedWords.lookup word with
  | none => exact .inl rfl
  | some k =>
    obtain ⟨l₁, l₂, hl, -⟩ := List.lookup_eq_some_iff.mp h
    exact .inr (by simp [hl])

theorem lexeme_cases (c : Char) (cs : List Char) :
    (isIdentStart c = true ∧
      (lexeme c cs).1 = wordKind (String.ofList (c :: cs.takeWhile isIdentPart))) ∨
    (c.isDigit = true ∧ (lexeme c cs).1 = .number (String.ofList (c :: cs.take (numberRun cs)))) ∨
    ((isQuote c = true ∧ cs[itemRun c cs]? = some c) ∧
      (lexeme c cs).1 = .string (String.ofList (c :: cs.take (itemRun c cs + 1)))) ∨
    (lexeme c cs).1.isComment = true ∨ (∃ m, (lexeme c cs).1 = .mark m) ∨
    ∃ n, (lexeme c cs).1 = .error (String.ofList (c :: cs.take n)) := by
  unfold lexeme
  dsimp only
  split
  · refine .inl ⟨by assumption, ?_⟩
    rw [← List.prefix_iff_eq_take.mp (List.takeWhile_prefix isIdentPart)]
  split
  · exact .inr (.inl ⟨by assumption, rfl⟩)
  split
  · split
    · exact .inr (.inr (.inl ⟨⟨by assumption, by assumption⟩, rfl⟩))
    · exact .inr (.inr (.inr (.inr (.inr ⟨_, rfl⟩))))
  split
  · exact .inr (.inr (.inr (.inl rfl)))
  · exact .inr (.inr (.inr (.inl rfl)))
  · exact .inr (.inr (.inr (.inr (.inl ⟨_, rfl⟩))))
  split
  · exact .inr (.inr (.inr (.inr (.inl ⟨_, rfl⟩))))
  · exact .inr (.inr (.inr (.inr (.inr ⟨0, rfl⟩))))

theorem wordKind_ne (word : String) :
    (∀ text, wordKind word ≠ .number text) ∧ ∀ text, wordKind word ≠ .error text := by
  rcases wordKind_cases word with h | h
  · simp [h]
  · have hwords : ∀ k ∈ reservedWords.map Prod.snd,
        (∀ text, k ≠ .number text) ∧ ∀ text, k ≠ .error text := by
      simp [reservedWords, Keyword.all, TypeWord.all]
    exact hwords _ h

theorem read?_of_lexeme {c : Char} {cs : List Char} {text : String}
    (h : (lexeme c cs).1 = .number text) : (Binary64.read? text).isSome := by
  rcases lexeme_cases c cs with ⟨-, hk⟩ | ⟨hc, hk⟩ | ⟨-, hk⟩ | hk | ⟨m, hk⟩ | ⟨n, hk⟩
  · exact absurd (hk.symm.trans h) ((wordKind_ne _).1 text)
  · cases hk.symm.trans h
    obtain ⟨whole, fraction, hne, hwhole, hfraction, htext⟩ := take_numberRun hc cs
    rw [htext, Binary64.read?_numeral hne hwhole hfraction]
    rfl
  · cases hk.symm.trans h
  · rw [h] at hk
    cases hk
  · cases hk.symm.trans h
  · cases hk.symm.trans h

theorem toList_of_lexeme {c : Char} {cs : List Char} {text : String}
    (h : (lexeme c cs).1 = .error text) : text.toList.head? = some c := by
  rcases lexeme_cases c cs with ⟨-, hk⟩ | ⟨hc, hk⟩ | ⟨-, hk⟩ | hk | ⟨m, hk⟩ | ⟨n, hk⟩
  · exact absurd (hk.symm.trans h) ((wordKind_ne _).2 text)
  · cases hk.symm.trans h
  · cases hk.symm.trans h
  · rw [h] at hk
    cases hk
  · cases hk.symm.trans h
  · cases hk.symm.trans h
    simp

end Lexer

theorem isError_eq_false {source : String} (h : lexFaults source = []) {t : Token}
    (ht : t ∈ tokenize source) : t.kind.isError = false := by
  cases hk : t.kind with
  | error text =>
    obtain ⟨c, cs, hlexeme⟩ := Lexer.exists_lexeme ht
    have hhead := Lexer.toList_of_lexeme (hlexeme.symm.trans hk)
    have hfault := List.filterMap_eq_nil_iff.mp h t ht
    simp only [Token.fault?, hk, hhead] at hfault
    split at hfault <;> cases hfault
  | _ => rfl

theorem rest_ofSource {source : String} (h : lexFaults source = []) :
    (Cursor.ofSource source).rest = (tokenize source).filter fun t => !t.kind.isComment := by
  apply List.filter_congr
  intro t ht
  rw [isError_eq_false h ht, Bool.not_false, Bool.and_true]

theorem kinds_ofSource {source : String} (h : lexFaults source = []) :
    (Cursor.ofSource source).kinds = sourceKinds source := by
  rw [Cursor.kinds, rest_ofSource h, sourceKinds]

theorem numbersRead_ofSource (source : String) : NumbersRead (Cursor.ofSource source).kinds := by
  intro text htext
  obtain ⟨t, ht, hkind⟩ := List.mem_map.mp htext
  obtain ⟨c, cs, hlexeme⟩ := Lexer.exists_lexeme (List.mem_filter.mp ht).1
  exact Lexer.read?_of_lexeme (hlexeme.symm.trans hkind)

namespace Reader

variable {α β : Type} {r : Reader α} {f : α → Reader β} {c : Cursor}

def Succeeds (r : Reader α) (c : Cursor) : Prop := ∃ a, (r.run c).1 = .ok a

theorem succeeds_bind (h : Succeeds r c) (hf : ∀ a c', Succeeds (f a) c') :
    Succeeds (r >>= f) c := by
  obtain ⟨a, ha⟩ := h
  have hmeets : Meets (r >>= f) c fun x _ => ∃ b, x = .ok b := by
    rw [meets_bind, Meets, ha]
    exact hf a _
  exact hmeets

theorem succeeds_eat (k : TokenKind) : Succeeds (eat k) c := by
  refine succeeds_bind ⟨_, rfl⟩ fun seen c' => ?_
  cases seen <;> exact ⟨_, rfl⟩

theorem succeeds_statementsWithin (bound : Nat) (nested : Bool) (c : Cursor) :
    Succeeds (statementsWithin bound nested) c := by
  induction bound generalizing c with
  | zero => exact ⟨[], rfl⟩
  | succ bound ih =>
    refine succeeds_bind ⟨_, rfl⟩ fun ended c₁ => succeeds_bind ⟨_, rfl⟩ fun closed c₂ => ?_
    split
    · exact ⟨[], rfl⟩
    · refine succeeds_bind ⟨_, rfl⟩ fun statement c₃ => ?_
      cases statement with
      | ok s => exact succeeds_bind (ih c₃) fun ss c₄ => ⟨_, rfl⟩
      | error fault =>
        refine succeeds_bind ⟨_, rfl⟩ fun _ c₄ => succeeds_bind ?_ fun _ c₅ => ih c₅
        exact succeeds_bind ⟨_, rfl⟩ fun _ c₅ => succeeds_bind (succeeds_eat _) fun _ _ => ⟨_, rfl⟩

theorem succeeds_statements (c : Cursor) : Succeeds statements c :=
  succeeds_bind ⟨_, rfl⟩ fun bound c' => succeeds_statementsWithin bound false c'

theorem ensures_statements {g : Bool} :
    Ensures statements c fun ss us => Spells g (.statements ss) c.kinds us ∧ us = [] := by
  have hdepth : Reads depthBound c fun bound us => bound = 4 * c.kinds.length + 4 ∧ us = c.kinds :=
    ⟨rfl, fun _ h => by cases h; exact ⟨by rw [c.length_kinds], rfl⟩⟩
  refine follows_reads (.start c) hdepth ?_
  rintro _ c₁ h₁ ⟨rfl, hkinds⟩
  refine follows_last h₁ (programReaders (g := g) _).statements ?_
  rintro - ss us ⟨hspells, hend⟩
  rw [hkinds] at hspells hend
  exact ⟨hspells, (hend (by omega)).resolve_right (by simp)⟩

end Reader

open Reader

theorem parse_faults (source : String) :
    (parse source).faults = (statements.run (Cursor.ofSource source)).2.faults := rfl

theorem parse_statements (source : String) : (parse source).program.statements =
    (statements.run (Cursor.ofSource source)).1.toOption.getD [] := rfl

/-- Statements that are read without a fault are spelled by the tokens of the text. -/
theorem spells_of_parse {source : String} (g : Bool) (h : (parse source).faults = []) :
    lexFaults source = [] ∧
      Spells g (.statements (parse source).program.statements) (Cursor.ofSource source).kinds [] := by
  obtain ⟨ss, hss⟩ := succeeds_statements (Cursor.ofSource source)
  obtain ⟨hfaults, hvalue⟩ := ensures_statements (g := g) h
  obtain ⟨hspells, hend⟩ := hvalue ss hss
  rw [hend] at hspells
  refine ⟨List.map_eq_nil_iff.mp hfaults, ?_⟩
  rw [parse_statements, hss]
  exact hspells

/-- Statements that the tokens of a text spell are read from it without a new fault. -/
theorem parse_of_spells {source : String} {g : Bool} {ss : List Stmt}
    (h : Spells g (.statements ss) (Cursor.ofSource source).kinds []) :
    (parse source).faults = (lexFaults source).map .lexical ∧
      (g = true → bareStmts (parse source).program.statements = bareStmts ss) := by
  obtain ⟨⟨ss', hss', hbare⟩, -, hfaults⟩ := gives_statements h (numbersRead_ofSource source)
  refine ⟨hfaults, fun hg => ?_⟩
  rw [parse_statements, hss']
  exact hbare hg

/-- Reading accepts exactly the texts whose tokens spell statements. It reads what they spell if
brackets and bars behind a function type go to its result, and no other tree is spelled so. -/
theorem parse_faultless_iff_spelled (source : String) (h : lexFaults source = []) :
    ((parse source).faults = [] ↔ ∃ ss, Spells false (.statements ss) (sourceKinds source) []) ∧
      ((parse source).faults = [] →
        Spells true (.statements (parse source).program.statements) (sourceKinds source) [] ∧
          ∀ ss, Spells true (.statements ss) (sourceKinds source) [] →
            bareStmts ss = bareStmts (parse source).program.statements) := by
  have hkinds := kinds_ofSource h
  refine ⟨⟨fun hquiet => ⟨_, hkinds ▸ (spells_of_parse false hquiet).2⟩, ?_⟩, fun hquiet => ?_⟩
  · rintro ⟨ss, hss⟩
    rw [(parse_of_spells (hkinds ▸ hss)).1, h]
    rfl
  · refine ⟨hkinds ▸ (spells_of_parse true hquiet).2, fun ss hss => ?_⟩
    exact ((parse_of_spells (hkinds ▸ hss)).2 rfl).symm

/-- The first branch of the conditional is a group, and the colon behind it starts no result type. -/
theorem grouped_branch_spelled :
    lexFaults "const f = (a: () => X | Y[]) => \x7b return a ? (b) : c \x7d" = [] ∧
      ∃ ss, Spells false (.statements ss)
        (sourceKinds "const f = (a: () => X | Y[]) => \x7b return a ? (b) : c \x7d") [] :=
  ⟨by decide +kernel, (parse_faultless_iff_spelled _ (by decide +kernel)).1.mp
    (List.isEmpty_iff.mp (by decide +kernel))⟩

end ArrowCheck
