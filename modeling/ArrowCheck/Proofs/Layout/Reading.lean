import ArrowCheck.Proofs.Layout.RoundTrip
import Mathlib.Data.List.Forall2

namespace ArrowCheck

open Lexer

section Trees

def TypePhrase.Formed : TypePhrase → Prop
  | .type t => t.Formed ∧ t.alternatives ≠ [] ∧ membersFormed t.alternatives
  | .member t | .base t => t.Formed ∧ ¬ t.IsUnion
  | .suffixes b t => b.Formed ∧ ¬ b.IsUnion → t.Formed ∧ ¬ t.IsUnion
  | .fields fs => fieldsFormed fs

theorem SpellsType.formed {ph : TypePhrase} {ts us : List TokenKind}
    (h : SpellsType true ph ts us) : ph.Formed := by
  induction h with
  | single _ ih =>
    rw [TypePhrase.Formed, TypeExpr.alternatives_of_not_union ih.2]
    exact ⟨ih.1, by simp, ih.1, ih.2, fun h => absurd rfl h, trivial⟩
  | @union m t _ _ _ _ hm _ _ ihm iht =>
    have hmembers : membersFormed (m :: t.alternatives) :=
      ⟨ihm.1, ihm.2, fun _ => hm rfl, iht.2.2⟩
    have hlength : 1 ≤ t.alternatives.length := List.length_pos_iff.mpr iht.2.1
    exact ⟨⟨by simpa using hlength, hmembers⟩, by simp [TypeExpr.alternatives], hmembers⟩
  | member _ _ ihb ihs => exact ihs ihb
  | noSuffix => exact id
  | suffix _ _ ih => exact fun hb => ih ⟨hb.1, id⟩
  | arrayOf _ ih => exact ⟨ih.1, id⟩
  | word => exact ⟨trivial, id⟩
  | name _ => exact ⟨trivial, id⟩
  | function _ _ ihp ihr => exact ⟨⟨ihp, ihr.1⟩, id⟩
  | object _ ih => exact ⟨ih, id⟩
  | noField => exact trivial
  | lastField _ ih => exact ⟨ih.1, trivial⟩
  | field _ _ iht ihf => exact ⟨iht.1, ihf⟩

theorem SpellsAnnotated.formed {type : Option TypeExpr} {ts us : List TokenKind}
    (h : SpellsAnnotated true type ts us) : ∀ t ∈ type, t.Formed := by
  cases type with
  | none => simp
  | some t =>
    obtain ⟨_, -, ht⟩ := h
    simpa using ht.formed.1

theorem SpellsParams.formed {ps : List Param} {ts us : List TokenKind}
    (h : SpellsParams true ps ts us) : ∀ p ∈ ps, p.Formed := by
  induction h with
  | none => simp
  | last htype =>
    rw [List.forall_mem_singleton]
    exact htype.formed
  | cons htype _ ih =>
    rw [List.forall_mem_cons]
    exact ⟨htype.formed, ih⟩

def Phrase.Formed : Phrase → Prop
  | .statements ss => stmtsFormed ss
  | .statement s => s.Formed
  | .expr e | .chain e | .operand e => e.Formed
  | .tail l e => l.Formed → e.Formed
  | .args es | .elements es => exprsFormed es
  | .properties ps => propertiesFormed ps

theorem Spells.formed {ph : Phrase} {ts us : List TokenKind} (h : Spells true ph ts us) :
    ph.Formed := by
  induction h with
  | noStatement | bareRet _ _ | string | number _ | boolean | ident | noArg | noElement
  | noProperty => exact trivial
  | noTail => exact id
  | statement _ _ ih ihs => exact ⟨ih, ihs⟩
  | const htype _ _ ih => exact ⟨htype.formed, ih⟩
  | ret _ _ ih => exact ih
  | expr _ ih => exact ih
  | conditional _ _ _ iha ihb ihc => exact ⟨iha, ihb, ihc⟩
  | chain _ _ ihl iht => exact iht ihl
  | tail hop _ _ ihr iht =>
    refine fun hl => iht ⟨?_, hl, ihr⟩
    unfold Reader.operator? at hop
    split at hop
    · exact .inl (Option.some.inj hop).symm
    · exact .inr (Option.some.inj hop).symm
    · cases hop
  | call _ ih => exact ⟨⟨_, _, rfl⟩, ih⟩
  | group _ ih => exact ih
  | arrow hparams hresult _ ih => exact ⟨hparams.formed, hresult.formed, ih⟩
  | array _ ih => exact ih
  | object _ ih => exact ih
  | lastArg _ ih => exact ⟨ih, trivial⟩
  | arg _ _ ih ihs => exact ⟨ih, ihs⟩
  | lastElement _ ih => exact ⟨ih, trivial⟩
  | element _ _ ih ihs => exact ⟨ih, ihs⟩
  | lastProperty _ _ ih => exact ⟨ih, trivial⟩
  | property _ _ _ ih ihs => exact ⟨ih, ihs⟩

end Trees

section Tokens

def Atom.Spelled : Atom → TokenKind → Prop
  | keyword w, k => k = .keyword w
  | name n, k => k = .ident n
  | typeName n, k => (∃ w : TypeWord, n = w.text ∧ k = .typeWord w) ∨ (n ≠ "any" ∧ k = .ident n)
  | string v, k => ∃ text, k = .string text ∧ v = Reader.unquote text
  | key n, k => Reader.propertyKey? k = some n
  | number x, k => ∃ text, k = .number text ∧ ∀ v, Binary64.read? text = some v → x = v
  | boolean b, k => k = .boolean b

/-- The tokens that stand for atoms: all but the marks and the word in front of an angle bracket. -/
def atomTokens : List TokenKind → List TokenKind
  | [] => []
  | .mark _ :: ts => atomTokens ts
  | k :: ts =>
    if k = .typeWord .array ∧ ts.head? = some (.mark .less) then atomTokens ts
    else k :: atomTokens ts

def Carries (as : List Atom) (ts rest : List TokenKind) : Prop :=
  ∃ ks, atomTokens ts = ks ++ atomTokens rest ∧ List.Forall₂ Atom.Spelled as ks

variable {a : Atom} {as bs : List Atom} {k : TokenKind} {ts us vs : List TokenKind}

theorem Atom.Spelled.ne_mark (h : a.Spelled k) (m : Mark) : k ≠ .mark m := by
  rintro rfl
  cases a with
  | typeName n => rcases h with ⟨w, -, h⟩ | ⟨-, h⟩ <;> cases h
  | string v =>
    obtain ⟨_, h, -⟩ := h
    cases h
  | number x =>
    obtain ⟨_, h, -⟩ := h
    cases h
  | _ => cases h

theorem atomTokens_cons (hmark : ∀ m, k ≠ .mark m)
    (h : k = .typeWord .array → ts.head? ≠ some (.mark .less)) :
    atomTokens (k :: ts) = k :: atomTokens ts := by
  cases k with
  | mark m => exact (hmark m rfl).elim
  | _ => exact if_neg fun hk => h hk.1 hk.2

@[simp] theorem carries_refl : Carries [] ts ts := ⟨[], rfl, .nil⟩

@[simp] theorem carries_mark {m : Mark} : Carries as (.mark m :: ts) us ↔ Carries as ts us := Iff.rfl

@[simp] theorem carries_to_mark {m : Mark} : Carries as ts (.mark m :: us) ↔ Carries as ts us :=
  Iff.rfl

theorem Carries.append (h : Carries as ts us) (h' : Carries bs us vs) :
    Carries (as ++ bs) ts vs := by
  obtain ⟨ks, hts, has⟩ := h
  obtain ⟨ls, hus, hbs⟩ := h'
  exact ⟨ks ++ ls, by rw [hts, hus, List.append_assoc], List.rel_append has hbs⟩

theorem Carries.cons (ha : a.Spelled k) (h : Carries as ts us)
    (hbracket : k = .typeWord .array → ts.head? ≠ some (.mark .less)) :
    Carries (a :: as) (k :: ts) us := by
  obtain ⟨ks, hts, has⟩ := h
  exact ⟨k :: ks, by rw [atomTokens_cons ha.ne_mark hbracket, hts, List.cons_append], .cons ha has⟩

def TypePhrase.Carried : TypePhrase → (ts rest : List TokenKind) → Prop
  | .type t, ts, rest | .member t, ts, rest | .base t, ts, rest => Carries t.atoms ts rest
  | .suffixes b t, ts, rest =>
    t.atoms = b.atoms ∧ Carries [] ts rest ∧ ts.head? ≠ some (.mark .less)
  | .fields fs, ts, rest => Carries (fieldAtoms fs) ts rest

theorem typeAtoms_alternatives (t : TypeExpr) : typeAtoms t.alternatives = t.atoms := by
  cases t <;> simp [TypeExpr.alternatives, typeAtoms, TypeExpr.atoms]

theorem SpellsType.carried {g : Bool} {ph : TypePhrase} (h : SpellsType g ph ts us)
    (hrest : us.head? ≠ some (.mark .less)) : ph.Carried ts us := by
  induction h with
  | single _ ih => exact ih hrest
  | union _ _ _ ihm iht =>
    rw [TypePhrase.Carried, TypeExpr.atoms, typeAtoms, typeAtoms_alternatives]
    exact Carries.append (ihm (by simp)) (iht hrest)
  | member _ _ ihb ihs =>
    obtain ⟨hatoms, hcarries, hhead⟩ := ihs hrest
    rw [TypePhrase.Carried, hatoms, ← List.append_nil (TypeExpr.atoms _)]
    exact Carries.append (ihb hhead) hcarries
  | noSuffix => exact ⟨rfl, carries_refl, hrest⟩
  | suffix _ _ ih =>
    obtain ⟨hatoms, hcarries, -⟩ := ih hrest
    exact ⟨hatoms, by simpa using hcarries, by simp⟩
  | arrayOf _ ih => exact ih (by simp)
  | word => exact .cons (.inl ⟨_, rfl, rfl⟩) carries_refl fun _ => hrest
  | name hname => exact .cons (.inr ⟨hname, rfl⟩) carries_refl (by simp)
  | function _ _ ihp ihr => exact Carries.append (ihp (by simp)) (ihr hrest)
  | object _ ih => exact ih (by simp)
  | noField => exact carries_refl
  | lastField _ ih =>
    have ht := ih hrest
    rw [TypePhrase.Carried, fieldAtoms, fieldAtoms, List.append_nil]
    exact .cons rfl (carries_mark.mpr ht) (by simp)
  | field _ _ iht ihf =>
    exact .cons rfl (carries_mark.mpr ((iht (by simp)).append (ihf hrest))) (by simp)

theorem SpellsAnnotated.carried {g : Bool} {type : Option TypeExpr}
    (h : SpellsAnnotated g type ts us) (hrest : us.head? ≠ some (.mark .less)) :
    Carries (annotatedAtoms type) ts us := by
  cases type with
  | none =>
    cases h
    exact carries_refl
  | some t =>
    obtain ⟨_, rfl, ht⟩ := h
    exact ht.carried hrest

theorem SpellsParams.carried {g : Bool} {ps : List Param} (h : SpellsParams g ps ts us)
    (hrest : us.head? ≠ some (.mark .less)) : Carries (ps.flatMap Param.atoms) ts us := by
  induction h with
  | none => exact carries_refl
  | last htype =>
    rw [List.flatMap_cons, List.flatMap_nil, List.append_nil]
    exact .cons rfl (htype.carried hrest) (by simp)
  | cons htype _ ih =>
    rw [List.flatMap_cons]
    exact .cons rfl ((htype.carried (by simp)).append (ih hrest)) (by simp)

/-- The tail of a chain adds its atoms to those of the first operand. -/
def Phrase.Carried : Phrase → (ts rest : List TokenKind) → Prop
  | .statements ss, ts, rest => Carries (stmtAtoms ss) ts rest
  | .statement s, ts, rest => Carries s.atoms ts rest
  | .expr e, ts, rest | .chain e, ts, rest | .operand e, ts, rest => Carries e.atoms ts rest
  | .tail l e, ts, rest => ∃ as, e.atoms = l.atoms ++ as ∧ Carries as ts rest
  | .args es, ts, rest | .elements es, ts, rest => Carries (exprAtoms es) ts rest
  | .properties ps, ts, rest => Carries (propertyAtoms ps) ts rest

theorem Terminated.carries (h : Terminated ts us) : Carries [] ts us := by
  rcases h with rfl | rfl <;> simp

theorem Spells.carried {g : Bool} {ph : Phrase} (h : Spells g ph ts us) : ph.Carried ts us := by
  have hkey : ∀ {k name}, Reader.propertyKey? k = some name → k ≠ .typeWord .array := by
    rintro k name hk rfl
    cases hk
  induction h with
  | noStatement => exact carries_refl
  | statement _ _ ih ihs => exact Carries.append ih ihs
  | const htype _ hend ih =>
    refine .cons rfl (.cons rfl ?_ (by simp)) (by simp)
    have hvalue := Carries.append ih hend.carries
    rw [List.append_nil] at hvalue
    exact (htype.carried (by simp)).append hvalue
  | ret _ hend ih =>
    have hvalue := Carries.append ih hend.carries
    rw [List.append_nil] at hvalue
    exact .cons rfl hvalue (by simp)
  | bareRet _ hend => exact .cons rfl hend.carries (by simp)
  | expr _ ih => exact ih
  | conditional _ _ _ iha ihb ihc => exact (Carries.append iha ihb).append ihc
  | chain _ _ ihl iht =>
    obtain ⟨as, hatoms, has⟩ := iht
    rw [Phrase.Carried, hatoms]
    exact Carries.append ihl has
  | noTail => exact ⟨[], (List.append_nil _).symm, carries_refl⟩
  | tail hop _ _ ihr iht =>
    obtain ⟨as, hatoms, has⟩ := iht
    refine ⟨_, by rw [hatoms, Expr.atoms, List.append_assoc], ?_⟩
    unfold Reader.operator? at hop
    split at hop
    · exact Carries.append ihr has
    · exact Carries.append ihr has
    · cases hop
  | string => exact .cons ⟨_, rfl, rfl⟩ carries_refl (by simp)
  | number hvalue => exact .cons ⟨_, rfl, hvalue⟩ carries_refl (by simp)
  | boolean => exact .cons rfl carries_refl (by simp)
  | ident => exact .cons rfl carries_refl (by simp)
  | call _ ih => exact .cons rfl (carries_mark.mpr ih) (by simp)
  | group _ ih => exact ih
  | arrow hparams hresult _ ih =>
    exact ((hparams.carried (by simp)).append (hresult.carried (by simp))).append ih
  | array _ ih => exact ih
  | object _ ih => exact ih
  | noArg => exact carries_refl
  | lastArg _ ih =>
    rw [Phrase.Carried, exprAtoms, exprAtoms, List.append_nil]
    exact ih
  | arg _ _ ih ihs => exact Carries.append ih ihs
  | noElement => exact carries_refl
  | lastElement _ ih =>
    rw [Phrase.Carried, exprAtoms, exprAtoms, List.append_nil]
    exact ih
  | element _ _ ih ihs => exact Carries.append ih ihs
  | noProperty => exact carries_refl
  | lastProperty hk _ ih =>
    rw [Phrase.Carried, propertyAtoms, propertyAtoms, List.append_nil]
    exact .cons hk (carries_mark.mpr ih) fun h => (hkey hk h).elim
  | property hk _ _ ih ihs =>
    exact .cons hk (carries_mark.mpr (Carries.append ih ihs)) fun h => (hkey hk h).elim

end Tokens

section Lexemes

namespace Lexer

variable {q : Char} {cs : List Char} {bar : Char → Bool}

theorem items_cons {c : Char} (h : c ≠ '\\') :
    items bar (c :: cs) = (c != '\n' && !bar c && items bar cs) := by
  cases cs with
  | nil =>
    have hescape : (c != '\\') = true := by simpa using h
    simp [items, hescape]
  | cons d cs => simp [items, h]

theorem items_take_itemRun (q : Char) (cs : List Char) :
    items (· == q) (cs.take (itemRun q cs)) = true := by
  induction cs using itemRun.induct q with
  | case1 => rfl
  | case2 c h => simp [itemRun, h, items]
  | case3 c h =>
    simp only [not_or] at h
    simp [itemRun, h, items]
  | case4 cs => simp [itemRun, items]
  | case5 d cs hd ih => simp [itemRun, items, hd, ih]
  | case6 c d cs hc h => simp [itemRun, items, hc, h]
  | case7 c d cs hc h ih =>
    simp only [not_or] at h
    simp [itemRun, hc, h, items_cons hc, ih]

theorem items_bare (h : items bar cs = true) : items (fun _ => false) cs = true := by
  induction cs using items.induct with
  | case1 => rfl
  | case2 c =>
    simp [items] at h ⊢
    exact h.1
  | case3 d cs ih =>
    simp [items] at h ⊢
    exact ⟨h.1, ih h.2⟩
  | case4 c d cs hc ih =>
    simp [items, hc] at h ⊢
    exact ⟨h.1.1, ih h.2⟩

end Lexer

/-- What the text of a token is known to be when it was read from a source. -/
def TokenKind.Lexical : TokenKind → Prop
  | .ident n => isIdentifier n = true ∧ isReserved n = false
  | .string text => ∃ q cs, text = String.ofList (q :: (cs ++ [q])) ∧ items (· == q) cs = true
  | .number text => ∃ x, Binary64.read? text = some x ∧
    (x = .infinite false ∨ ∃ m e, x = .finite false m e ∧ x.Canonical)
  | _ => True

theorem Lexer.wordKind_lexical {word : String} (h : isIdentifier word = true) :
    (wordKind word).Lexical := by
  rw [wordKind]
  cases hlookup : reservedWords.lookup word with
  | none => exact ⟨h, by simp [isReserved, hlookup]⟩
  | some k =>
    obtain ⟨l₁, l₂, hl, -⟩ := List.lookup_eq_some_iff.mp hlookup
    have hk : k ∈ reservedWords.map Prod.snd := by simp [hl]
    have hwords : ∀ k ∈ reservedWords.map Prod.snd, k.Lexical := by
      simp [reservedWords, Keyword.all, TypeWord.all, TokenKind.Lexical]
    exact hwords k hk

theorem Lexer.lexeme_lexical (c : Char) (cs : List Char) : (lexeme c cs).1.Lexical := by
  rcases lexeme_cases c cs with ⟨hc, hk⟩ | ⟨hc, hk⟩ | ⟨⟨-, hclose⟩, hk⟩ | hk | ⟨m, hk⟩ | ⟨n, hk⟩
  · rw [hk]
    apply wordKind_lexical
    simp [isIdentifier, hc]
  · obtain ⟨whole, fraction, hne, hwhole, hfraction, htext⟩ := take_numberRun hc cs
    rw [hk, htext]
    refine ⟨_, Binary64.read?_numeral hne hwhole hfraction, ?_⟩
    rcases Binary64.ofDecimal_cases _ with h | ⟨m, e, h, hcanonical⟩
    · exact .inl h
    · rw [← h] at hcanonical
      exact .inr ⟨m, e, h, hcanonical⟩
  · rw [hk]
    refine ⟨c, cs.take (itemRun c cs), ?_, items_take_itemRun c cs⟩
    rw [List.take_add_one, hclose, Option.toList_some]
  · cases h : (lexeme c cs).1 <;> rw [h] at hk <;> trivial
  · rw [hk]
    trivial
  · rw [hk]
    trivial

theorem mem_of_mem_atomTokens {k : TokenKind} {ts : List TokenKind} (h : k ∈ atomTokens ts) :
    k ∈ ts := by
  induction ts using atomTokens.induct with
  | case1 => exact h
  | case2 m ts ih => exact List.mem_cons_of_mem _ (ih h)
  | case3 l ts hmark hbracket ih =>
    rw [atomTokens, if_pos hbracket] at h
    · exact List.mem_cons_of_mem _ (ih h)
    · exact hmark
  | case4 l ts hmark hbracket ih =>
    rw [atomTokens, if_neg hbracket] at h
    · rcases List.mem_cons.mp h with rfl | h
      · exact List.mem_cons_self
      · exact List.mem_cons_of_mem _ (ih h)
    · exact hmark

theorem lexical_of_mem_kinds {source : String} {k : TokenKind}
    (h : k ∈ (Cursor.ofSource source).kinds) : k.Lexical := by
  obtain ⟨t, ht, rfl⟩ := List.mem_map.mp h
  obtain ⟨c, cs, hk⟩ := exists_lexeme (List.mem_filter.mp ht).1
  rw [hk]
  exact lexeme_lexical c cs

theorem exists_spelled_of_mem {as : List Atom} {ks : List TokenKind}
    (h : List.Forall₂ Atom.Spelled as ks) {a : Atom} (ha : a ∈ as) : ∃ k ∈ ks, a.Spelled k := by
  induction h with
  | nil => cases ha
  | cons hspelled _ ih =>
    rcases List.mem_cons.mp ha with rfl | ha
    · exact ⟨_, List.mem_cons_self, hspelled⟩
    · obtain ⟨k, hk, hspelled⟩ := ih ha
      exact ⟨k, List.mem_cons_of_mem _ hk, hspelled⟩

/-- The atoms of a program that is read without faults stand for the tokens of its text. -/
theorem atoms_spelled {source : String} (h : (parse source).faults = []) :
    List.Forall₂ Atom.Spelled (parse source).program.atoms
      (atomTokens (Cursor.ofSource source).kinds) := by
  obtain ⟨-, hspells⟩ := spells_of_parse true h
  obtain ⟨ks, hks, hatoms⟩ := hspells.carried
  rw [hks, atomTokens, List.append_nil]
  exact hatoms

end Lexemes

end ArrowCheck
