import ArrowCheck.Proofs.Grammar.Signatures
import ArrowCheck.Proofs.Layout.Reading

namespace ArrowCheck

variable {g : Bool} {ts us : List TokenKind}

def TypePhrase.atoms : TypePhrase → List Atom
  | .type t | .member t | .base t => t.atoms
  | .suffixes _ _ => []
  | .fields fs => fieldAtoms fs

def NamedBy (as : List Atom) (ts : List TokenKind) : Prop :=
  ∀ name, .ident name ∈ ts → .name name ∈ as ∨ .typeName name ∈ as

theorem namedBy_nil (as : List Atom) : NamedBy as [] := fun _ h => absurd h List.not_mem_nil

namespace NamedBy

variable {as bs : List Atom}

theorem mono (h : NamedBy as ts) (hsub : as ⊆ bs) : NamedBy bs ts :=
  fun name hname => (h name hname).imp (hsub ·) (hsub ·)

theorem append (h : NamedBy as ts) (h' : NamedBy as us) : NamedBy as (ts ++ us) :=
  fun name hname => (List.mem_append.mp hname).elim (h name) (h' name)

theorem cons {k : TokenKind} (hk : ∀ name, k = .ident name → .name name ∈ as ∨ .typeName name ∈ as)
    (h : NamedBy as ts) : NamedBy as (k :: ts) :=
  fun name hname => (List.mem_cons.mp hname).elim (fun heq => hk name heq.symm) (h name)

theorem ident {name : String} (hname : .name name ∈ as ∨ .typeName name ∈ as) (h : NamedBy as ts) :
    NamedBy as (.ident name :: ts) :=
  h.cons fun _ heq => TokenKind.ident.inj heq ▸ hname

theorem mark (m : Mark) (h : NamedBy as ts) : NamedBy as (.mark m :: ts) := h.cons nofun

theorem not_mem {name : String} (h : NamedBy as ts) (hname : .name name ∉ as)
    (htype : .typeName name ∉ as) : .ident name ∉ ts :=
  fun hmem => (h name hmem).elim hname htype

end NamedBy

theorem SpellsType.atoms_suffixes {b t : TypeExpr} (h : SpellsType g (.suffixes b t) ts us) :
    t.atoms = b.atoms := by
  generalize hph : TypePhrase.suffixes b t = ph at h
  induction h generalizing b with
  | noSuffix =>
    cases hph
    rfl
  | suffix _ _ ih =>
    cases hph
    rw [ih rfl, TypeExpr.atoms]
  | _ => cases hph

theorem SpellsType.frame {ph : TypePhrase} (h : SpellsType g ph ts us) :
    ∃ pre, ts = pre ++ us ∧ NamedBy ph.atoms pre ∧ ∀ vs, SpellsType g ph (pre ++ vs) vs := by
  induction h with
  | single _ ih =>
    obtain ⟨pre, hpre, hnamed, hspells⟩ := ih
    exact ⟨pre, hpre, hnamed, fun vs => .single (hspells vs)⟩
  | union hfun _ _ ihm iht =>
    obtain ⟨pre, rfl, hnamed, hm⟩ := ihm
    obtain ⟨pre', rfl, hnamed', ht⟩ := iht
    refine ⟨pre ++ .mark .pipe :: pre', by rw [List.append_assoc, List.cons_append], ?_, fun vs => ?_⟩
    · rw [TypePhrase.atoms, TypeExpr.atoms, typeAtoms, typeAtoms_alternatives]
      exact (hnamed.mono (List.subset_append_left _ _)).append
        ((hnamed'.mono (List.subset_append_right _ _)).mark _)
    · rw [List.append_assoc, List.cons_append]
      exact .union hfun (hm _) (ht vs)
  | member _ hs ihb ihs =>
    obtain ⟨pre, rfl, hnamed, hb⟩ := ihb
    obtain ⟨pre', rfl, hnamed', hs'⟩ := ihs
    refine ⟨pre ++ pre', (List.append_assoc ..).symm, ?_, fun vs => ?_⟩
    · rw [TypePhrase.atoms, hs.atoms_suffixes]
      exact hnamed.append (hnamed'.mono (List.nil_subset _))
    · rw [List.append_assoc]
      exact .member (hb _) (hs' vs)
  | noSuffix => exact ⟨[], rfl, namedBy_nil _, fun vs => .noSuffix⟩
  | suffix hfun _ ih =>
    obtain ⟨pre, rfl, hnamed, hs⟩ := ih
    exact ⟨.mark .bracketOpen :: .mark .bracketClose :: pre, rfl, (hnamed.mark _).mark _,
      fun vs => .suffix hfun (hs vs)⟩
  | arrayOf _ ih =>
    obtain ⟨pre, rfl, hnamed, ht⟩ := ih
    refine ⟨.typeWord .array :: .mark .less :: pre ++ [.mark .greater], by simp, ?_, fun vs => ?_⟩
    · exact .append (.cons nofun (hnamed.mark _)) ((namedBy_nil _).mark _)
    · simpa using SpellsType.arrayOf (ht (.mark .greater :: vs))
  | word => exact ⟨[.typeWord _], rfl, .cons nofun (namedBy_nil _), fun vs => .word⟩
  | name hname =>
    exact ⟨[.ident _], rfl, .ident (.inr (List.mem_singleton_self _)) (namedBy_nil _),
      fun vs => .name hname⟩
  | function _ _ ihp ihr =>
    obtain ⟨pre, rfl, hnamed, hps⟩ := ihp
    obtain ⟨pre', rfl, hnamed', hr⟩ := ihr
    refine ⟨.mark .parenOpen :: pre ++ .mark .parenClose :: .mark .arrow :: pre', by simp, ?_,
      fun vs => ?_⟩
    · exact .append ((hnamed.mono (List.subset_append_left _ _)).mark _)
        (((hnamed'.mono (List.subset_append_right _ _)).mark _).mark _)
    · simpa using SpellsType.function (hps (.mark .parenClose :: .mark .arrow :: (pre' ++ vs))) (hr vs)
  | object _ ih =>
    obtain ⟨pre, rfl, hnamed, hfs⟩ := ih
    refine ⟨.mark .braceOpen :: pre ++ [.mark .braceClose], by simp, ?_, fun vs => ?_⟩
    · exact .append (hnamed.mark _) ((namedBy_nil _).mark _)
    · simpa using SpellsType.object (hfs (.mark .braceClose :: vs))
  | noField => exact ⟨[], rfl, namedBy_nil _, fun vs => .noField⟩
  | lastField _ ih =>
    obtain ⟨pre, rfl, hnamed, ht⟩ := ih
    refine ⟨.ident _ :: .mark .colon :: pre, rfl, ?_, fun vs => .lastField (ht vs)⟩
    refine .ident (.inl (List.mem_cons_self ..)) (.mark _ (hnamed.mono ?_))
    exact List.subset_cons_of_subset _ (List.subset_append_left _ _)
  | @field name _ _ _ _ _ _ _ _ iht ihf =>
    obtain ⟨pre, rfl, hnamed, ht⟩ := iht
    obtain ⟨pre', rfl, hnamed', hfs⟩ := ihf
    refine ⟨.ident name :: .mark .colon :: pre ++ .mark .comma :: pre', by simp, ?_, fun vs => ?_⟩
    · refine .append (.ident (.inl (List.mem_cons_self ..)) (.mark _ (hnamed.mono ?_)))
        (.mark _ (hnamed'.mono ?_))
      · exact List.subset_cons_of_subset _ (List.subset_append_left _ _)
      · exact List.subset_cons_of_subset _ (List.subset_append_right _ _)
    · simpa using SpellsType.field (ht (.mark .comma :: (pre' ++ vs))) (hfs vs)

theorem SpellsAnnotated.frame {type : Option TypeExpr} (h : SpellsAnnotated g type ts us) :
    ∃ pre, ts = pre ++ us ∧ NamedBy (annotatedAtoms type) pre ∧
      ∀ vs, SpellsAnnotated g type (pre ++ vs) vs := by
  cases type with
  | none =>
    cases h
    exact ⟨[], rfl, namedBy_nil _, fun vs => rfl⟩
  | some t =>
    obtain ⟨_, rfl, ht⟩ := h
    obtain ⟨pre, rfl, hnamed, ht'⟩ := ht.frame
    exact ⟨.mark .colon :: pre, rfl, hnamed.mark _, fun vs => ⟨_, rfl, ht' vs⟩⟩

theorem SpellsParams.frame {ps : List Param} (h : SpellsParams g ps ts us) :
    ∃ pre, ts = pre ++ us ∧ NamedBy (ps.flatMap Param.atoms) pre ∧
      ∀ vs, SpellsParams g ps (pre ++ vs) vs := by
  induction h with
  | none => exact ⟨[], rfl, namedBy_nil _, fun vs => .none⟩
  | last htype =>
    obtain ⟨pre, rfl, hnamed, htype'⟩ := htype.frame
    refine ⟨.ident _ :: pre, rfl, ?_, fun vs => .last (htype' vs)⟩
    refine .ident (.inl (List.mem_cons_self ..)) (hnamed.mono ?_)
    exact List.subset_cons_of_subset _ (List.subset_append_left _ _)
  | @cons _ name _ _ _ _ _ _ htype _ ih =>
    obtain ⟨pre, rfl, hnamed, htype'⟩ := htype.frame
    obtain ⟨pre', rfl, hnamed', hps⟩ := ih
    refine ⟨.ident name :: pre ++ .mark .comma :: pre', by simp, ?_, fun vs => ?_⟩
    · refine .append (.ident (.inl (List.mem_cons_self ..)) (hnamed.mono ?_))
        (.mark _ (hnamed'.mono ?_))
      · exact List.subset_cons_of_subset _ (List.subset_append_left _ _)
      · exact List.subset_cons_of_subset _ (List.subset_append_right _ _)
    · simpa using SpellsParams.cons (htype' (.mark .comma :: (pre' ++ vs))) (hps vs)

end ArrowCheck
