import ArrowCheck.Proofs.Layout.Provenance

namespace ArrowCheck

open Lexer

def Itemized (value : String) : Prop :=
  items (· == '"') value.toList = true ∨ items (· == '\'') value.toList = true

def Atom.Normal : Atom → Prop
  | keyword _ | boolean _ | number _ => True
  | name n => isIdentifier n = true ∧ isReserved n = false
  | typeName n => (∃ w : TypeWord, n = w.text) ∨
    (isIdentifier n = true ∧ isReserved n = false ∧ n ≠ "any")
  | string v => Itemized v
  | key k => isIdentifier k = true ∨ Itemized k

/-- Operators are sums and products, callees are names, nothing is an error, and unions are flat. Names
are identifiers and not reserved, and strings are made of complete items. -/
structure Program.Normal (p : Program) : Prop where
  formed : stmtsFormed p.statements
  atoms : ∀ a ∈ p.atoms, a.Normal

section Tokens

theorem Lexer.itemized_of_lexeme {c : Char} {cs : List Char} {text : String}
    (h : (lexeme c cs).1 = .string text) : Itemized (Reader.unquote text) := by
  have hword : ∀ word, wordKind word ≠ .string text := by
    intro word hk
    rcases wordKind_cases word with hident | hreserved
    · cases hident.symm.trans hk
    · have hwords : ∀ k ∈ reservedWords.map Prod.snd, k ≠ .string text := by
        simp [reservedWords, Keyword.all, TypeWord.all]
      exact hwords _ hreserved hk
  rcases lexeme_cases c cs with ⟨-, hk⟩ | ⟨-, hk⟩ | ⟨⟨hquote, hclose⟩, hk⟩ | hk | ⟨m, hk⟩ | ⟨n, hk⟩
  · exact absurd (hk.symm.trans h) (hword _)
  · cases hk.symm.trans h
  · cases hk.symm.trans h
    have hitems := items_take_itemRun c cs
    have hvalue : (Reader.unquote (String.ofList (c :: cs.take (itemRun c cs + 1)))).toList =
        cs.take (itemRun c cs) := by
      rw [List.take_add_one, hclose, Option.toList_some]
      simp [Reader.unquote]
    rw [Itemized, hvalue]
    simp only [isQuote, Bool.or_eq_true, beq_iff_eq] at hquote
    rcases hquote with rfl | rfl
    · exact .inl hitems
    · exact .inr hitems
  · rw [h] at hk
    cases hk
  · cases hk.symm.trans h
  · cases hk.symm.trans h

theorem itemized_of_mem_kinds {source text : String}
    (h : .string text ∈ (Cursor.ofSource source).kinds) : Itemized (Reader.unquote text) := by
  obtain ⟨t, ht, hkind⟩ := List.mem_map.mp h
  obtain ⟨c, cs, hlexeme⟩ := exists_lexeme (List.mem_filter.mp ht).1
  exact itemized_of_lexeme (hlexeme.symm.trans hkind)

theorem Atom.Among.normal {source : String} {a : Atom}
    (h : a.Among (Cursor.ofSource source).kinds) : a.Normal := by
  obtain ⟨k, hk, hspelled⟩ := h
  have hlexical := lexical_of_mem_kinds hk
  cases a with
  | keyword w => trivial
  | boolean b => trivial
  | number x => trivial
  | name n =>
    cases hspelled
    exact hlexical
  | typeName n =>
    rcases hspelled with ⟨w, hw, -⟩ | ⟨hany, rfl⟩
    · exact .inl ⟨w, hw⟩
    · exact .inr ⟨hlexical.1, hlexical.2, hany⟩
  | string v =>
    obtain ⟨text, rfl, rfl⟩ := hspelled
    exact itemized_of_mem_kinds hk
  | key n =>
    cases k with
    | ident name =>
      cases hspelled
      exact .inl hlexical.1
    | string text =>
      cases hspelled
      exact .inr (itemized_of_mem_kinds hk)
    | _ => cases hspelled

end Tokens

/-- Every program that is read, with or without faults, is in normal form. -/
theorem parse_normal (source : String) : (parse source).program.Normal := by
  obtain ⟨hformed, hatoms⟩ := sourced_parse source
  exact ⟨hformed, fun a ha => (hatoms a ha).normal⟩

end ArrowCheck
