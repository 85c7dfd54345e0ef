import ArrowCheck.Proofs.Grammar.Acceptance
import ArrowCheck.Proofs.Layout.Printing

namespace ArrowCheck

open Lexer

theorem lexed_source (source : String) :
    (tokenize source).map Token.kind = lexed source.toList := rfl

theorem kinds_of_lexed {source : String}
    (h : ∀ k ∈ lexed source.toList, k.isComment = false ∧ k.isError = false) :
    lexFaults source = [] ∧ (Cursor.ofSource source).kinds = lexed source.toList := by
  have htoken : ∀ t ∈ tokenize source, t.kind.isComment = false ∧ t.kind.isError = false :=
    fun t ht => h t.kind (List.mem_map_of_mem ht)
  constructor
  · apply List.filterMap_eq_nil_iff.mpr
    intro t ht
    have hkind := htoken t ht
    unfold Token.fault?
    split <;> simp_all [TokenKind.isComment, TokenKind.isError]
  · have hfilter : (tokenize source).filter (fun t => !t.kind.isComment && !t.kind.isError) =
        tokenize source := by
      apply List.filter_eq_self.mpr
      intro t ht
      simp [htoken t ht]
    rw [Cursor.kinds, Cursor.ofSource, hfilter, lexed_source]

def TokenKind.IsAtomic (k : TokenKind) : Prop :=
  (∀ m, k ≠ .mark m) ∧ k.isComment = false ∧ k.isError = false

theorem Lexer.wordKind_isAtomic (word : String) : (wordKind word).IsAtomic := by
  rcases wordKind_cases word with h | h
  · simp [h, TokenKind.IsAtomic, TokenKind.isComment, TokenKind.isError]
  · have hwords : ∀ k ∈ reservedWords.map Prod.snd, k.IsAtomic := by
      simp [reservedWords, Keyword.all, TypeWord.all, TokenKind.IsAtomic, TokenKind.isComment,
        TokenKind.isError]
    exact hwords _ h

theorem Atom.kind_isAtomic (a : Atom) : a.kind.IsAtomic := by
  cases a with
  | typeName n => exact wordKind_isAtomic n
  | key key =>
    rw [Atom.kind]
    split <;> exact ⟨by simp, rfl, rfl⟩
  | _ => exact ⟨by simp [Atom.kind], rfl, rfl⟩

theorem kindsOf_visible (ps : List TextPiece) :
    ∀ k ∈ kindsOf ps, k.isComment = false ∧ k.isError = false := by
  intro k hk
  obtain ⟨p, -, hp⟩ := List.mem_filterMap.mp hk
  cases p with
  | atom a =>
    cases hp
    exact a.kind_isAtomic.2
  | _ => cases hp <;> exact ⟨rfl, rfl⟩

theorem kinds_of_pieces {layout : Layout} {ps : List TextPiece} (hspaced : Spaced ps [])
    (hgood : GoodPieces ps) : lexFaults (textOf layout ps) = [] ∧
      (Cursor.ofSource (textOf layout ps)).kinds = kindsOf ps := by
  have hlexed : lexed (textOf layout ps).toList = kindsOf ps := lexed_textOf hspaced hgood
  have hvisible := kindsOf_visible ps
  rw [← hlexed] at hvisible ⊢
  exact kinds_of_lexed hvisible

theorem Program.spelled {p : Program} (hformed : stmtsFormed p.statements)
    (hgood : GoodPieces p.pieces) : Spells true (.statements p.statements) (kindsOf p.pieces) [] := by
  have hlines := statementsSpelled p.statements hformed 0
  have htail : GoodPieces (linePieces p.statements 0) ∧
      kindsOf (linePieces p.statements 0) = kindsOf p.pieces := by
    rw [Program.pieces] at hgood ⊢
    cases hss : p.statements with
    | nil => exact ⟨by simp [linePieces], rfl⟩
    | cons s ss =>
      rw [hss] at hgood
      exact ⟨hgood, rfl⟩
  have h := hlines htail.1 []
  rwa [htail.2, List.append_nil] at h

/-- A program that can be written: its trees are formed as source text can form them, and its atoms
are written as single tokens. -/
structure Program.WellFormed (p : Program) : Prop where
  formed : stmtsFormed p.statements
  atoms : ∀ a ∈ p.atoms, a.Good

theorem Program.WellFormed.spells_text {p : Program} (h : p.WellFormed) (layout : Layout) :
    lexFaults (p.text layout) = [] ∧
      Spells true (.statements p.statements) (Cursor.ofSource (p.text layout)).kinds [] := by
  have hgood : GoodPieces p.pieces := by
    unfold GoodPieces
    rw [p.atomsOf_pieces]
    exact h.atoms
  rw [p.text_eq layout h.formed]
  obtain ⟨hfaults, hkinds⟩ := kinds_of_pieces p.spaced hgood
  refine ⟨hfaults, ?_⟩
  rw [hkinds]
  exact Program.spelled h.formed hgood

/-- Every well formed program is read back from its text, up to ids and spans. -/
theorem parse_program_text (layout : Layout) (p : Program) (h : p.WellFormed) :
    (parse (p.text layout)).faults = [] ∧ (parse (p.text layout)).program.Same p := by
  obtain ⟨hlexed, hspells⟩ := h.spells_text layout
  obtain ⟨hfaults, hsame⟩ := parse_of_spells hspells
  rw [hlexed] at hfaults
  exact ⟨hfaults, hsame rfl⟩

/-- A sum in a product, a function type at the end of a union, and both quotes in a string. -/
theorem grouped_sum_read_back : ∃ p : Program, p.WellFormed ∧
    p.text ⟨4, true, 80⟩ = "const f: string | () => T = a * ('\\'\"' + 1);" ∧
      (parse (p.text ⟨4, true, 80⟩)).faults = [] ∧ (parse (p.text ⟨4, true, 80⟩)).program.Same p := by
  let value : Expr := .binary default .mul (.ident default "a")
    (.binary default .add (.string default "\\'\"") (.number default (.finite false (2 ^ 52) (-52))))
  let type : TypeExpr :=
    .union [.named "string" default, .function [] (.named "T" default) default] default
  let p : Program := ⟨[.const default ⟨default, "f"⟩ (some type) value], default⟩
  have hformed : stmtsFormed p.statements := by
    simp [p, value, type, stmtsFormed, Stmt.Formed, Expr.Formed, TypeExpr.Formed, membersFormed,
      fieldsFormed, TypeExpr.IsUnion, TypeExpr.IsFunction]
  have hatoms : p.atoms = [.keyword .const, .name "f", .typeName "string", .typeName "T", .name "a",
      .string "\\'\"", .number (.finite false (2 ^ 52) (-52))] := rfl
  have hwell : p.WellFormed := by
    refine ⟨hformed, ?_⟩
    rw [hatoms]
    simp only [List.forall_mem_cons, List.not_mem_nil, false_imp_iff, implies_true, and_true]
    refine ⟨trivial, ⟨by decide, by decide⟩, .inl ⟨.string, rfl⟩, .inr ⟨by decide, by decide, by decide⟩,
      ⟨by decide, by decide⟩, ⟨by decide, fun _ => by decide⟩, ⟨2 ^ 52, -52, rfl, ?_⟩⟩
    exact ⟨by decide, by decide, by decide, .inr (Nat.le_refl _)⟩
  exact ⟨p, hwell, by decide +kernel, parse_program_text _ p hwell⟩

end ArrowCheck
