import ArrowCheck.Proofs.Layout.Reading

namespace ArrowCheck

open Lexer

/-- An atom of a source text whose written form is read as the same atom. -/
def Atom.Printable : Atom → Prop
  | string v => Unmixed v
  | key k => if isIdentifier k = true then isReserved k = false else Unmixed k
  | number x => x ≠ .infinite false
  | _ => True

instance (value : String) : Decidable (Unmixed value) :=
  inferInstanceAs (Decidable (_ → _))

instance : DecidablePred Atom.Printable
  | .string v => inferInstanceAs (Decidable (Unmixed v))
  | .key k => inferInstanceAs (Decidable (if isIdentifier k = true then _ else _))
  | .number x => inferInstanceAs (Decidable (x ≠ .infinite false))
  | .keyword _ | .name _ | .typeName _ | .boolean _ => .isTrue trivial

def Program.Printable (p : Program) : Prop := ∀ a ∈ p.atoms, a.Printable

instance (p : Program) : Decidable p.Printable :=
  inferInstanceAs (Decidable (∀ a ∈ p.atoms, a.Printable))

section Good

theorem unquote_quoted (q : Char) (cs : List Char) :
    Reader.unquote (String.ofList (q :: (cs ++ [q]))) = String.ofList cs := by
  simp [Reader.unquote]

theorem bare_of_lexical {text : String} (h : (TokenKind.string text).Lexical) :
    items (fun _ => false) (Reader.unquote text).toList = true := by
  obtain ⟨q, cs, rfl, hitems⟩ := h
  rw [unquote_quoted, String.toList_ofList]
  exact items_bare hitems

theorem Atom.good_of_spelled {a : Atom} {k : TokenKind} (hk : k.Lexical) (h : a.Spelled k)
    (hprintable : a.Printable) : a.Good := by
  cases a with
  | keyword w => trivial
  | boolean b => trivial
  | name n =>
    cases h
    exact hk
  | typeName n =>
    rcases h with ⟨w, rfl, -⟩ | ⟨hany, rfl⟩
    · exact .inl ⟨w, rfl⟩
    · exact .inr ⟨hk.1, hk.2, hany⟩
  | string v =>
    obtain ⟨text, rfl, rfl⟩ := h
    exact ⟨bare_of_lexical hk, hprintable⟩
  | key n =>
    rw [Atom.Printable] at hprintable
    rw [Atom.Good]
    split
    · rwa [if_pos (by assumption)] at hprintable
    · rename_i hident
      rw [if_neg hident] at hprintable
      cases k with
      | ident m =>
        cases h
        exact absurd hk.1 hident
      | string text =>
        cases h
        exact ⟨bare_of_lexical hk, hprintable⟩
      | _ => cases h
  | number x =>
    obtain ⟨text, rfl, hread⟩ := h
    obtain ⟨y, hy, hcases⟩ := hk
    obtain rfl := hread y hy
    exact hcases.resolve_left hprintable

end Good

section Bad

theorem items_split {q : Char} (hq : q ≠ '\\') {cs : List Char}
    (hbare : items (fun _ => false) cs = true) (h : items (· == q) cs ≠ true) :
    ∃ l r, cs = l ++ q :: r ∧ items (· == q) l = true := by
  induction cs using items.induct with
  | case1 => exact absurd rfl h
  | case2 c =>
    simp [items] at hbare h
    obtain rfl := h hbare.1 hbare.2
    exact ⟨[], [], rfl, rfl⟩
  | case3 d cs ih =>
    simp [items] at hbare h
    obtain ⟨l, r, rfl, hl⟩ := ih hbare.2 (by simpa using h hbare.1)
    exact ⟨'\\' :: d :: l, r, rfl, by simp [items, hbare, hl]⟩
  | case4 c d cs hc ih =>
    simp [items, hc] at hbare h
    by_cases hcq : c = q
    · exact ⟨[], d :: cs, by rw [hcq, List.nil_append], rfl⟩
    · obtain ⟨l, r, hsplit, hl⟩ := ih hbare.2 (by simpa using h hbare.1 hcq)
      exact ⟨c :: l, r, by rw [hsplit, List.cons_append], by simp [items_cons hc, hbare, hcq, hl]⟩

/-- A string that mixes the quotes is cut short at its first bare single quote. -/
theorem lexed_mixed {value : String} (hbare : items (fun _ => false) value.toList = true)
    (h : ¬ Unmixed value) (r : List Char) : ∃ text rest,
      lexed ((quoteString value).toList ++ r) = .string text :: rest ∧
        Reader.unquote text ≠ value := by
  rw [Unmixed, Classical.not_imp] at h
  obtain ⟨l, m, hsplit, hl⟩ := items_split (q := '\'') (by decide) hbare h.2
  refine ⟨String.ofList ('\'' :: (l ++ ['\''])), lexed (m ++ '\'' :: r), ?_, ?_⟩
  · have htext : (quoteString value).toList = '\'' :: (value.toList ++ ['\'']) := by
      simp [quoteString, h.1]
    have hcut : (quoteString value).toList ++ r = '\'' :: (l ++ ['\'']) ++ (m ++ '\'' :: r) := by
      simp [htext, hsplit]
    rw [hcut]
    exact lexed_quoted rfl hl
  · rw [unquote_quoted]
    intro heq
    have hlength : l.length = value.toList.length := by rw [← heq, String.toList_ofList]
    rw [hsplit] at hlength
    simp at hlength

theorem propertyKey?_reserved {word : String} (h : isReserved word = true) :
    Reader.propertyKey? (wordKind word) = none := by
  obtain ⟨k, hk⟩ := Option.isSome_iff_exists.mp h
  obtain ⟨l₁, l₂, hl, -⟩ := List.lookup_eq_some_iff.mp hk
  have hmem : k ∈ reservedWords.map Prod.snd := by simp [hl]
  have hwords : ∀ k ∈ reservedWords.map Prod.snd, Reader.propertyKey? k = none := by decide
  rw [wordKind, hk]
  exact hwords k hmem

/-- The text of an unprintable atom starts with a token that does not stand for the atom. -/
theorem Atom.lexed_of_not_printable {a : Atom} {k : TokenKind} (hk : k.Lexical) (h : a.Spelled k)
    (hprintable : ¬ a.Printable) {r : List Char} (hr : Stops r) : ∃ l rest,
      lexed (a.text.toList ++ r) = l :: rest ∧ ¬ a.Spelled l ∧ l.IsAtomic ∧
        (l = .typeWord .array → rest = lexed r ∧ ∃ n, a = .key n) := by
  cases a with
  | string v =>
    obtain ⟨text, rfl, rfl⟩ := h
    obtain ⟨cut, rest, hlexed, hne⟩ := lexed_mixed (bare_of_lexical hk) hprintable r
    refine ⟨_, rest, hlexed, ?_, ⟨by simp, rfl, rfl⟩, by simp⟩
    rintro ⟨_, heq, hvalue⟩
    cases heq
    exact hne hvalue.symm
  | key n =>
    rw [Atom.Printable] at hprintable
    rw [Atom.text, keyText]
    split at hprintable
    · rename_i hident
      rw [Bool.not_eq_false] at hprintable
      rw [if_pos hident]
      refine ⟨_, _, lexed_word hident hr, ?_, wordKind_isAtomic n, fun _ => ⟨rfl, n, rfl⟩⟩
      rw [Atom.Spelled, propertyKey?_reserved hprintable]
      simp
    · rename_i hident
      rw [if_neg hident]
      have hbare : items (fun _ => false) n.toList = true := by
        cases k with
        | ident m =>
          cases h
          exact absurd hk.1 hident
        | string text =>
          cases h
          exact bare_of_lexical hk
        | _ => cases h
      obtain ⟨cut, rest, hlexed, hne⟩ := lexed_mixed hbare hprintable r
      refine ⟨_, rest, hlexed, ?_, ⟨by simp, rfl, rfl⟩, by simp⟩
      intro hspelled
      exact hne (Option.some.inj hspelled)
  | number x =>
    obtain rfl : x = .infinite false := Classical.not_not.mp hprintable
    have hword : isIdentifier (number (.infinite false)).text = true := by decide
    have hkind : wordKind (number (.infinite false)).text = .ident "inf" := by decide
    refine ⟨.ident "inf", _, by rw [lexed_word hword hr, hkind], ?_, ⟨by simp, rfl, rfl⟩, by simp⟩
    rintro ⟨text, heq, -⟩
    cases heq
  | _ => exact (hprintable trivial).elim

theorem exists_first_atom {P : Atom → Prop} {ps : List TextPiece} (h : ¬ ∀ a ∈ atomsOf ps, P a) :
    ∃ qs a rs, ps = qs ++ .atom a :: rs ∧ (∀ b ∈ atomsOf qs, P b) ∧ ¬ P a := by
  induction ps with
  | nil => exact absurd (by simp) h
  | cons p ps ih =>
    by_cases hp : ∃ a, p = .atom a ∧ ¬ P a
    · obtain ⟨a, rfl, ha⟩ := hp
      exact ⟨[], a, ps, rfl, by simp, ha⟩
    · have hfirst : ∀ qs, (∀ b ∈ atomsOf qs, P b) → ∀ b ∈ atomsOf (p :: qs), P b := by
        intro qs hqs b hb
        cases p with
        | atom a =>
          rcases List.mem_cons.mp hb with rfl | hb
          · exact Classical.not_not.mp fun hb => hp ⟨_, rfl, hb⟩
          · exact hqs b hb
        | _ => exact hqs b hb
      obtain ⟨qs, a, rs, rfl, hqs, ha⟩ := ih fun hps => h (hfirst ps hps)
      exact ⟨p :: qs, a, rs, rfl, hfirst qs hqs, ha⟩

theorem head_kindsOf {ps next : List TextPiece} {ts : List TokenKind} (h : Unbracketed (ps ++ next))
    (hts : ts.head? ≠ some (.mark .less)) : (kindsOf ps ++ ts).head? ≠ some (.mark .less) := by
  induction ps with
  | nil => exact hts
  | cons p ps ih =>
    cases p with
    | space => exact ih h
    | line depth => exact ih h
    | mark m =>
      rw [List.cons_append, unbracketed_mark] at h
      simpa using h
    | array => simp
    | atom a => simpa using a.kind_isAtomic.1 .less

theorem atomTokens_kindsOf {ps rest : List TextPiece} {a : Atom} {ts : List TokenKind}
    (h : Spaced ps (.atom a :: rest)) (hts : ts.head? ≠ some (.mark .less)) :
    atomTokens (kindsOf ps ++ ts) = (atomsOf ps).map Atom.kind ++ atomTokens ts := by
  induction ps with
  | nil => rfl
  | cons p ps ih =>
    obtain ⟨hbefore, hspaced⟩ := h
    have hrest := ih hspaced
    cases p with
    | space => exact hrest
    | line depth => exact hrest
    | mark m => exact hrest
    | array =>
      -- the bracket that has to follow is the next piece
      cases ps with
      | nil => cases hbefore
      | cons q ps =>
        cases hbefore
        exact hrest
    | atom b =>
      have hbracket : b.kind = .typeWord .array → (kindsOf ps ++ ts).head? ≠ some (.mark .less) := by
        intro hb
        cases b with
        | keyword w => cases hb
        | key n =>
          rw [Atom.kind] at hb
          split at hb <;> cases hb
        | _ => exact head_kindsOf hbefore.2 hts
      rw [kindsOf_atom, List.cons_append, atomTokens_cons b.kind_isAtomic.1 hbracket, hrest]
      rfl

end Bad

section Programs

theorem sourceKinds_eq (source : String) :
    sourceKinds source = (lexed source.toList).filter fun k => !k.isComment := by
  rw [sourceKinds, ← lexed_source, List.filter_map]
  rfl

theorem formed_of_parse (source : String) (h : (parse source).faults = []) :
    stmtsFormed (parse source).program.statements :=
  (spells_of_parse true h).2.formed

theorem exists_lexical_token {source : String} (h : (parse source).faults = []) {a : Atom}
    (ha : a ∈ (parse source).program.atoms) : ∃ k : TokenKind, k.Lexical ∧ a.Spelled k := by
  obtain ⟨k, hk, hspelled⟩ := exists_spelled_of_mem (atoms_spelled h) ha
  exact ⟨k, lexical_of_mem_kinds (mem_of_mem_atomTokens hk), hspelled⟩

theorem wellFormed_of_printable {source : String} (h : (parse source).faults = [])
    (hprintable : (parse source).program.Printable) : (parse source).program.WellFormed := by
  refine ⟨formed_of_parse source h, fun a ha => ?_⟩
  obtain ⟨k, hk, hspelled⟩ := exists_lexical_token h ha
  exact Atom.good_of_spelled hk hspelled (hprintable a ha)

theorem Program.Same.atoms_eq {p q : Program} (h : p.Same q) : p.atoms = q.atoms := by
  rw [← p.atomsOf_pieces, ← q.atomsOf_pieces, h.pieces_eq]

theorem Program.Same.text_eq {p q : Program} (h : p.Same q) (hp : stmtsFormed p.statements)
    (hq : stmtsFormed q.statements) (layout : Layout) : p.text layout = q.text layout := by
  rw [p.text_eq layout hp, q.text_eq layout hq, h.pieces_eq]

/-- The tokens of a text whose pieces hold an unprintable atom, up to a token that does not stand
for the atom. -/
theorem exists_mismatch (layout : Layout) {ps qs : List TextPiece} {a : Atom} {k : TokenKind}
    (hspaced : Spaced (ps ++ .atom a :: qs) []) (hgood : ∀ b ∈ atomsOf ps, b.Good)
    (hk : k.Lexical) (hspelled : a.Spelled k) (hprintable : ¬ a.Printable) :
    ∃ l rest, atomTokens (sourceKinds (textOf layout (ps ++ .atom a :: qs))) =
      (atomsOf ps).map Atom.kind ++ l :: rest ∧ ¬ a.Spelled l := by
  have hlexed : lexed (textOf layout (ps ++ .atom a :: qs)).toList =
      kindsOf ps ++ lexed (textOf layout (.atom a :: qs)).toList := lexed_append hspaced hgood
  rw [spaced_append, List.append_nil, spaced_cons, List.append_nil] at hspaced
  obtain ⟨hps, hbefore, hqs⟩ := hspaced
  have hstops : Stops (textOf layout qs).toList := stops_textOf hbefore.apart
  obtain ⟨l, rest, hl, hne, hatomic, harray⟩ :=
    a.lexed_of_not_printable hk hspelled hprintable hstops
  refine ⟨l, atomTokens (rest.filter fun k => !k.isComment), ?_, hne⟩
  have hbracket : l = .typeWord .array →
      (rest.filter fun k => !k.isComment).head? ≠ some (.mark .less) := by
    intro heq
    obtain ⟨rfl, n, rfl⟩ := harray heq
    cases qs with
    | nil => cases hbefore
    | cons q qs =>
      cases hbefore
      have hcolon : lexed (textOf layout (.mark .colon :: qs)).toList =
          .mark .colon :: lexed (textOf layout qs).toList := lexed_piece (by simp [TextPiece.Before]) (by simp)
      rw [hcolon, List.filter_cons_of_pos rfl]
      simp
  have hvisible : (kindsOf ps).filter (fun k => !k.isComment) = kindsOf ps := by
    apply List.filter_eq_self.mpr
    intro k hk
    simp [kindsOf_visible ps k hk]
  rw [textOf_cons, String.toList_append, TextPiece.text, hl] at hlexed
  rw [sourceKinds_eq, hlexed, List.filter_append, hvisible,
    List.filter_cons_of_pos (by simp [hatomic.2.1]), atomTokens_kindsOf hps (by simpa using hatomic.1 .less),
    atomTokens_cons hatomic.1 hbracket]

/-- If the text of a program that was read is read as the same program, then nothing in the program
is unprintable. -/
theorem printable_of_same {layout : Layout} {source text : String}
    (h : (parse source).faults = []) (htext : (parse source).program.text layout = text)
    (hfaults : (parse text).faults = [])
    (hsame : (parse text).program.Same (parse source).program) :
    (parse source).program.Printable := by
  apply Classical.byContradiction
  intro hprintable
  have hspelled := atoms_spelled hfaults
  rw [kinds_ofSource (spells_of_parse true hfaults).1, hsame.atoms_eq] at hspelled
  have hspaced := (parse source).program.spaced
  rw [(parse source).program.text_eq layout (formed_of_parse source h)] at htext
  have hatoms := (parse source).program.atomsOf_pieces
  rw [Program.Printable, ← hatoms] at hprintable
  obtain ⟨ps, a, qs, hsplit, hps, ha⟩ := exists_first_atom hprintable
  rw [hsplit] at hspaced htext hatoms
  have htoken : ∀ b ∈ atomsOf (ps ++ .atom a :: qs), ∃ k : TokenKind, k.Lexical ∧ b.Spelled k := by
    rw [hatoms]
    exact fun b hb => exists_lexical_token h hb
  have hgood : ∀ b ∈ atomsOf ps, b.Good := by
    intro b hb
    obtain ⟨k, hk, hspelled⟩ := htoken b (by simp [hb])
    exact Atom.good_of_spelled hk hspelled (hps b hb)
  obtain ⟨k, hk, hak⟩ := htoken a (by simp)
  obtain ⟨l, rest, htokens, hne⟩ := exists_mismatch layout hspaced hgood hk hak ha
  rw [← htext, htokens, ← hatoms, atomsOf_append, atomsOf_atom] at hspelled
  have hdrop := List.forall₂_drop (atomsOf ps).length hspelled
  rw [List.drop_left, List.drop_left' (List.length_map _)] at hdrop
  exact hne (List.forall₂_cons.mp hdrop).1

theorem format_eq_ok {layout : Layout} {source text : String} :
    format layout source = .ok text ↔
      (parse source).faults = [] ∧ (parse source).program.text layout = text := by
  unfold format
  dsimp only
  by_cases h : (parse source).faults = []
  · simp [h]
  · have hempty : (parse source).faults.isEmpty = false := by simpa using h
    simp [h, hempty]

/-- A laid out text is read without faults as the program of its source, and is its own layout, if
and only if the program is printable. -/
theorem format_stable_iff_printable (layout : Layout) (source text : String)
    (h : format layout source = .ok text) :
    ((parse text).faults = [] ∧ (parse text).program.Same (parse source).program ∧
        format layout text = .ok text) ↔ (parse source).program.Printable := by
  obtain ⟨hfaults, htext⟩ := format_eq_ok.mp h
  constructor
  · rintro ⟨hagain, hsame, -⟩
    exact printable_of_same hfaults htext hagain hsame
  · intro hprintable
    have hspells := (wellFormed_of_printable hfaults hprintable).spells_text layout
    rw [htext] at hspells
    obtain ⟨hagain, hsame⟩ := parse_of_spells hspells.2
    rw [hspells.1, List.map_nil] at hagain
    have hsame : (parse text).program.Same (parse source).program := hsame rfl
    have hlaid := hsame.text_eq (formed_of_parse text hagain) (formed_of_parse source hfaults) layout
    exact ⟨hagain, hsame, format_eq_ok.mpr ⟨hagain, hlaid.trans htext⟩⟩

theorem quoted_keys_stable : ∃ source text,
    source = "const o=\x7b'b':\"it's\",'c d':'\"'\x7d" ∧
      text = "const o = \x7b b: \"it's\", \"c d\": '\"' \x7d;" ∧
      format ⟨2, true, 80⟩ source = .ok text ∧ (parse text).faults = [] ∧
      (parse text).program.Same (parse source).program ∧ format ⟨2, true, 80⟩ text = .ok text := by
  have h : format ⟨2, true, 80⟩ "const o=\x7b'b':\"it's\",'c d':'\"'\x7d" =
      .ok "const o = \x7b b: \"it's\", \"c d\": '\"' \x7d;" :=
    format_eq_ok.mpr ⟨List.isEmpty_iff.mp (by decide +kernel), by decide +kernel⟩
  exact ⟨_, _, rfl, rfl, h, (format_stable_iff_printable _ _ _ h).mpr (by decide +kernel)⟩

/-- A quoted key that is a reserved word loses its quotes, and the text is no longer read. -/
theorem reserved_key_not_stable :
    format ⟨2, true, 80⟩ "const a = \x7b \"const\": 1 \x7d;" = .ok "const a = \x7b const: 1 \x7d;" ∧
      (parse "const a = \x7b const: 1 \x7d;").faults ≠ [] :=
  ⟨format_eq_ok.mpr ⟨List.isEmpty_iff.mp (by decide +kernel), by decide +kernel⟩, by decide +kernel⟩

end Programs

end ArrowCheck
