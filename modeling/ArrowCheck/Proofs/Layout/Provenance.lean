import ArrowCheck.Proofs.Layout.Reading
import ArrowCheck.Proofs.Relocation.Programs

namespace ArrowCheck

def Atom.Among (ks : List TokenKind) (a : Atom) : Prop := ∃ k ∈ ks, a.Spelled k

section Types

variable {ks ts us : List TokenKind} {g : Bool}

def TypePhrase.Among (ks : List TokenKind) : TypePhrase → Prop
  | .type t | .member t | .base t => ∀ a ∈ t.atoms, a.Among ks
  | .suffixes b t => (∀ a ∈ b.atoms, a.Among ks) → ∀ a ∈ t.atoms, a.Among ks
  | .fields fs => ∀ a ∈ fieldAtoms fs, a.Among ks

theorem SpellsType.among {ph : TypePhrase} (h : SpellsType g ph ts us) (hts : ts ⊆ ks) :
    us ⊆ ks ∧ ph.Among ks := by
  induction h with
  | single _ ih => exact ih hts
  | union _ _ _ ihm iht =>
    obtain ⟨hus, hm⟩ := ihm hts
    obtain ⟨hvs, ht⟩ := iht (List.subset_of_cons_subset hus)
    refine ⟨hvs, ?_⟩
    rw [TypePhrase.Among, TypeExpr.atoms, typeAtoms, typeAtoms_alternatives]
    exact List.forall_mem_append.mpr ⟨hm, ht⟩
  | member _ _ ihb ihs =>
    obtain ⟨hus, hb⟩ := ihb hts
    obtain ⟨hvs, hsuffixes⟩ := ihs hus
    exact ⟨hvs, hsuffixes hb⟩
  | noSuffix => exact ⟨hts, id⟩
  | suffix _ _ ih =>
    exact ih (List.subset_of_cons_subset (List.subset_of_cons_subset hts))
  | arrayOf _ ih =>
    obtain ⟨hus, ht⟩ := ih (List.subset_of_cons_subset (List.subset_of_cons_subset hts))
    exact ⟨List.subset_of_cons_subset hus, ht⟩
  | word =>
    refine ⟨List.subset_of_cons_subset hts, ?_⟩
    rw [TypePhrase.Among, TypeExpr.atoms, List.forall_mem_singleton]
    exact ⟨_, hts List.mem_cons_self, .inl ⟨_, rfl, rfl⟩⟩
  | name hname =>
    refine ⟨List.subset_of_cons_subset hts, ?_⟩
    rw [TypePhrase.Among, TypeExpr.atoms, List.forall_mem_singleton]
    exact ⟨_, hts List.mem_cons_self, .inr ⟨hname, rfl⟩⟩
  | function _ _ ihp ihr =>
    obtain ⟨hus, hps⟩ := ihp (List.subset_of_cons_subset hts)
    obtain ⟨hvs, hr⟩ := ihr (List.subset_of_cons_subset (List.subset_of_cons_subset hus))
    exact ⟨hvs, List.forall_mem_append.mpr ⟨hps, hr⟩⟩
  | object _ ih =>
    obtain ⟨hus, hfs⟩ := ih (List.subset_of_cons_subset hts)
    exact ⟨List.subset_of_cons_subset hus, hfs⟩
  | noField => exact ⟨hts, nofun⟩
  | lastField _ ih =>
    obtain ⟨hus, ht⟩ := ih (List.subset_of_cons_subset (List.subset_of_cons_subset hts))
    refine ⟨hus, ?_⟩
    rw [TypePhrase.Among, fieldAtoms, fieldAtoms, List.append_nil, List.forall_mem_cons]
    exact ⟨⟨_, hts List.mem_cons_self, rfl⟩, ht⟩
  | field _ _ iht ihf =>
    obtain ⟨hus, ht⟩ := iht (List.subset_of_cons_subset (List.subset_of_cons_subset hts))
    obtain ⟨hvs, hfs⟩ := ihf (List.subset_of_cons_subset hus)
    refine ⟨hvs, ?_⟩
    rw [TypePhrase.Among, fieldAtoms, List.cons_append, List.forall_mem_cons]
    exact ⟨⟨_, hts List.mem_cons_self, rfl⟩, List.forall_mem_append.mpr ⟨ht, hfs⟩⟩

theorem SpellsAnnotated.among {type : Option TypeExpr} (h : SpellsAnnotated g type ts us)
    (hts : ts ⊆ ks) : us ⊆ ks ∧ ∀ a ∈ annotatedAtoms type, a.Among ks := by
  cases type with
  | none =>
    cases h
    exact ⟨hts, nofun⟩
  | some t =>
    obtain ⟨_, rfl, ht⟩ := h
    exact ht.among (List.subset_of_cons_subset hts)

theorem SpellsParams.among {ps : List Param} (h : SpellsParams g ps ts us) (hts : ts ⊆ ks) :
    us ⊆ ks ∧ ∀ a ∈ ps.flatMap Param.atoms, a.Among ks := by
  induction h with
  | none => exact ⟨hts, nofun⟩
  | last htype =>
    obtain ⟨hus, hatoms⟩ := htype.among (List.subset_of_cons_subset hts)
    refine ⟨hus, ?_⟩
    rw [List.flatMap_cons, List.flatMap_nil, List.append_nil, Param.atoms, List.forall_mem_cons]
    exact ⟨⟨_, hts List.mem_cons_self, rfl⟩, hatoms⟩
  | cons htype _ ih =>
    obtain ⟨hus, hatoms⟩ := htype.among (List.subset_of_cons_subset hts)
    obtain ⟨hvs, hps⟩ := ih (List.subset_of_cons_subset hus)
    refine ⟨hvs, ?_⟩
    rw [List.flatMap_cons, Param.atoms, List.cons_append, List.forall_mem_cons]
    exact ⟨⟨_, hts List.mem_cons_self, rfl⟩, List.forall_mem_append.mpr ⟨hatoms, hps⟩⟩

end Types

namespace Reader

open Placement

variable {α β : Type} {r r' : Reader α} {f : α → Reader β} {c : Cursor} {ks : List TokenKind}
  {P : α → Prop} {Q : β → Prop} {bound : Nat}

/-- The tokens ahead are among the given ones, and a value that is given is as said. -/
def Delivers (ks : List TokenKind) (P : α → Prop) (x : Except ParseFault α) (d : Cursor) : Prop :=
  d.kinds ⊆ ks ∧ ∀ a, x = .ok a → P a

section Steps

theorem delivers_pure {a : α} (hc : c.kinds ⊆ ks) (h : P a) : Meets (pure a) c (Delivers ks P) := by
  refine ⟨hc, fun b hb => ?_⟩
  cases hb
  exact h

theorem delivers_unexpected (hc : c.kinds ⊆ ks) (expected : String) :
    Meets (unexpected expected) c (Delivers ks P) := ⟨hc, nofun⟩

theorem delivers_throw (hc : c.kinds ⊆ ks) (fault : ParseFault) :
    Meets (throw fault) c (Delivers ks P) := ⟨hc, nofun⟩

theorem delivers_bind (h : Meets r c (Delivers ks P))
    (hf : ∀ a c₁, c₁.kinds ⊆ ks → P a → Meets (f a) c₁ (Delivers ks Q)) :
    Meets (r >>= f) c (Delivers ks Q) := by
  apply meets_bind.mpr
  apply Meets.imp h
  intro x c₁ hx
  obtain ⟨hc₁, hvalue⟩ := hx
  cases x with
  | error fault => exact ⟨hc₁, nofun⟩
  | ok a => exact hf a c₁ hc₁ (hvalue a rfl)

theorem delivers_attempt {f : Except ParseFault α → Reader β} (h : Meets r c (Delivers ks P))
    (hok : ∀ a c₁, c₁.kinds ⊆ ks → P a → Meets (f (.ok a)) c₁ (Delivers ks Q))
    (herror : ∀ fault c₁, c₁.kinds ⊆ ks → Meets (f (.error fault)) c₁ (Delivers ks Q)) :
    Meets (attempt r >>= f) c (Delivers ks Q) := by
  obtain ⟨hc₁, hvalue⟩ := h
  apply meets_bind.mpr
  unfold Meets
  rw [run_attempt]
  cases hx : (r.run c).1 with
  | error fault => exact herror fault _ hc₁
  | ok a => exact hok a _ hc₁ (hvalue a hx)

theorem delivers_advance {f : Unit → Reader β} (hc : c.kinds ⊆ ks)
    (hf : ∀ c₁, c₁.kinds ⊆ ks → Meets (f ()) c₁ (Delivers ks Q)) :
    Meets (advance >>= f) c (Delivers ks Q) := by
  apply hf c.next
  rw [c.kinds_next]
  exact List.Subset.trans (List.tail_subset _) hc

theorem delivers_of_reads {p : TokenKind → Prop} {loose : Prop} {n : Nat} {view : α → α}
    {P' : α → List TokenKind → Prop} (hway : Mirrors placeless p loose n view r r' c)
    (hreads : Reads r c P') (hc : c.kinds ⊆ ks) (hP : ∀ a us, P' a us → P a) :
    Meets r c (Delivers ks P) := by
  obtain ⟨hpassed, -⟩ := hway
  have hsuffix := hpassed.way.suffix
  refine ⟨List.Subset.trans ?_ hc, fun a ha => hP a _ (hreads.2 a ha)⟩
  exact List.map_subset Token.kind hsuffix.subset

theorem delivers_freshId (hc : c.kinds ⊆ ks) : Meets freshId c (Delivers ks fun _ => True) :=
  ⟨hc, fun _ _ => trivial⟩

theorem delivers_eat (k : TokenKind) (hc : c.kinds ⊆ ks) :
    Meets (eat k) c (Delivers ks fun _ => True) := by
  unfold eat
  rw [meets_sees]
  split
  · exact delivers_advance hc fun c₁ h₁ => delivers_pure h₁ trivial
  · exact delivers_pure hc trivial

theorem delivers_expect (k : TokenKind) (hc : c.kinds ⊆ ks) :
    Meets (expect k) c (Delivers ks fun _ => True) := by
  have hway : Mirrors placeless AnyToken True 1 _ (expect k) (expect k) c := mirrors_expect trivial
  exact delivers_of_reads hway reads_expect hc fun _ _ _ => trivial

theorem delivers_expectIdent (what : String) (hc : c.kinds ⊆ ks) :
    Meets (expectIdent what) c (Delivers ks fun name => .ident name.1 ∈ ks) := by
  have hway : Mirrors placeless AnyToken True 1 _ (expectIdent what) (expectIdent what) c :=
    mirrors_expectIdent (fun _ => trivial) what
  apply delivers_of_reads hway reads_expectIdent hc
  intro name us hkinds
  apply hc
  rw [hkinds]
  exact List.mem_cons_self

theorem delivers_skipStatement (nested : Bool) (hc : c.kinds ⊆ ks) :
    Meets (skipStatement nested) c (Delivers ks fun _ => True) :=
  delivers_of_reads (mirrors_skipStatement (ρ := placeless)) (reads_skipStatement nested) hc
    fun _ _ _ => trivial

theorem delivers_optionalType (hc : c.kinds ⊆ ks) : Meets optionalType c (Delivers ks fun type =>
    (∀ t ∈ type, t.Formed) ∧ ∀ a ∈ annotatedAtoms type, a.Among ks) := by
  apply delivers_of_reads mirrors_optionalType (reads_optionalType (g := true)) hc
  intro type us htype
  exact ⟨htype.1.formed, (htype.1.among hc).2⟩

theorem delivers_signature (hc : c.kinds ⊆ ks) : Meets signature c (Delivers ks fun s =>
    ((∀ p ∈ s.1, p.Formed) ∧ ∀ t ∈ s.2, t.Formed) ∧
      ∀ a ∈ s.1.flatMap Param.atoms ++ annotatedAtoms s.2, a.Among ks) := by
  apply delivers_of_reads mirrors_signature (reads_signature (g := true)) hc
  intro s us hs
  obtain ⟨vs, ws, -, hparams, hresult⟩ := hs
  obtain ⟨hvs, hatoms⟩ := hparams.among hc
  have hatoms' := (hresult.among (List.subset_of_cons_subset hvs)).2
  exact ⟨⟨hparams.formed, hresult.formed⟩, List.forall_mem_append.mpr ⟨hatoms, hatoms'⟩⟩

end Steps

/-- Trees that are formed as said, with atoms that stand for the given tokens. -/
def Sourced (ks : List TokenKind) (formed : Prop) (as : List Atom) : Prop :=
  formed ∧ ∀ a ∈ as, a.Among ks

structure ProgramsDelivered (ks : List TokenKind) (bound : Nat) : Prop where
  expr : ∀ {c : Cursor}, c.kinds ⊆ ks →
    Meets (exprWithin bound) c (Delivers ks fun e => Sourced ks e.Formed e.atoms)
  chain : ∀ {c : Cursor}, c.kinds ⊆ ks →
    Meets (chainWithin bound) c (Delivers ks fun e => Sourced ks e.Formed e.atoms)
  more : ∀ {c : Cursor} {left : Expr}, c.kinds ⊆ ks → Sourced ks left.Formed left.atoms →
    Meets (moreWithin bound left) c (Delivers ks fun e => Sourced ks e.Formed e.atoms)
  operand : ∀ {c : Cursor}, c.kinds ⊆ ks →
    Meets (operandWithin bound) c (Delivers ks fun e => Sourced ks e.Formed e.atoms)
  args : ∀ {c : Cursor}, c.kinds ⊆ ks →
    Meets (argsWithin bound) c (Delivers ks fun es => Sourced ks (exprsFormed es) (exprAtoms es))
  elements : ∀ {c : Cursor}, c.kinds ⊆ ks →
    Meets (elementsWithin bound) c (Delivers ks fun es => Sourced ks (exprsFormed es) (exprAtoms es))
  properties : ∀ {c : Cursor}, c.kinds ⊆ ks → Meets (propertiesWithin bound) c
    (Delivers ks fun ps => Sourced ks (propertiesFormed ps) (propertyAtoms ps))
  block : ∀ {c : Cursor}, c.kinds ⊆ ks →
    Meets (blockWithin bound) c (Delivers ks fun b => Sourced ks b.Formed b.atoms)
  statements : ∀ {c : Cursor} (nested : Bool), c.kinds ⊆ ks → Meets (statementsWithin bound nested) c
    (Delivers ks fun ss => Sourced ks (stmtsFormed ss) (stmtAtoms ss))
  statement : ∀ {c : Cursor}, c.kinds ⊆ ks →
    Meets (statementWithin bound) c (Delivers ks fun s => Sourced ks s.Formed s.atoms)

namespace Sourced

variable {A B : Prop} {as bs : List Atom} {a : Atom}

theorem append (h : Sourced ks A as) (h' : Sourced ks B bs) : Sourced ks (A ∧ B) (as ++ bs) :=
  ⟨⟨h.1, h'.1⟩, List.forall_mem_append.mpr ⟨h.2, h'.2⟩⟩

theorem cons (ha : a.Among ks) (h : Sourced ks A as) : Sourced ks A (a :: as) :=
  ⟨h.1, List.forall_mem_cons.mpr ⟨ha, h.2⟩⟩

theorem nil (h : A) : Sourced ks A [] := ⟨h, nofun⟩

end Sourced

theorem mem_of_kind? {k : TokenKind} (hc : c.kinds ⊆ ks) (hk : c.kind? = some k) : k ∈ ks := by
  rw [c.kind?_eq_head?] at hk
  exact hc (List.mem_of_head? hk)

namespace ProgramsDelivered

theorem expr_succ (h : ProgramsDelivered ks bound) (hc : c.kinds ⊆ ks) :
    Meets (exprWithin (bound + 1)) c (Delivers ks fun e => Sourced ks e.Formed e.atoms) := by
  apply delivers_bind (h.chain hc)
  intro test c₁ h₁ htest
  apply delivers_bind (delivers_eat _ h₁)
  intro eaten c₂ h₂ _
  cases eaten with
  | false => exact delivers_pure h₂ htest
  | true =>
    apply delivers_bind (h.expr h₂)
    intro consequent c₃ h₃ hconsequent
    apply delivers_bind (delivers_expect _ h₃)
    intro _ c₄ h₄ _
    apply delivers_bind (h.expr h₄)
    intro alternate c₅ h₅ halternate
    apply delivers_bind (delivers_freshId h₅)
    intro id c₆ h₆ _
    apply delivers_pure h₆
    obtain ⟨⟨htest, hconsequent, halternate⟩, hatoms⟩ := htest.append (hconsequent.append halternate)
    refine ⟨⟨htest, hconsequent, halternate⟩, ?_⟩
    rw [Expr.atoms, List.append_assoc]
    exact hatoms

theorem chain_succ (h : ProgramsDelivered ks bound) (hc : c.kinds ⊆ ks) :
    Meets (chainWithin (bound + 1)) c (Delivers ks fun e => Sourced ks e.Formed e.atoms) := by
  apply delivers_bind (h.operand hc)
  intro first c₁ h₁ hfirst
  exact h.more h₁ hfirst

theorem more_succ (h : ProgramsDelivered ks bound) {left : Expr} (hc : c.kinds ⊆ ks)
    (hleft : Sourced ks left.Formed left.atoms) :
    Meets (moreWithin (bound + 1) left) c (Delivers ks fun e => Sourced ks e.Formed e.atoms) := by
  unfold moreWithin
  rw [meets_kind?]
  cases hop : c.kind?.bind operator? with
  | none => exact delivers_pure hc hleft
  | some op =>
    apply delivers_advance hc
    intro c₁ h₁
    apply delivers_bind (h.operand h₁)
    intro right c₂ h₂ hright
    apply delivers_bind (delivers_freshId h₂)
    intro id c₃ h₃ _
    apply h.more h₃
    have hboth := hleft.append hright
    refine ⟨⟨?_, hboth.1⟩, hboth.2⟩
    obtain ⟨k, -, hk⟩ := Option.bind_eq_some_iff.mp hop
    unfold operator? at hk
    split at hk
    · exact .inl (Option.some.inj hk).symm
    · exact .inr (Option.some.inj hk).symm
    · cases hk

theorem arrow_delivers (h : ProgramsDelivered ks bound) (start : Span) (hc : c.kinds ⊆ ks) :
    Meets (do
      let (params, result) ← signature
      let body ← blockWithin bound
      let id ← freshId
      return Expr.arrow ⟨id, start.merge body.node.span⟩ params result body) c
      (Delivers ks fun e => Sourced ks e.Formed e.atoms) := by
  apply delivers_bind (delivers_signature hc)
  intro s c₁ h₁ hs
  apply delivers_bind (h.block h₁)
  intro body c₂ h₂ hbody
  apply delivers_bind (delivers_freshId h₂)
  intro id c₃ h₃ _
  apply delivers_pure h₃
  obtain ⟨⟨⟨hparams, hresult⟩, hbody⟩, hatoms⟩ := Sourced.append hs hbody
  exact ⟨⟨hparams, hresult, hbody⟩, hatoms⟩

theorem call_delivers (h : ProgramsDelivered ks bound) (start : Span) {name : String}
    (hname : .ident name ∈ ks) (hc : c.kinds ⊆ ks) : Meets (do
      let callee : Expr := .ident ⟨← freshId, start⟩ name
      if ← eat (.mark .parenOpen) then
        let args ← if ← sees (.mark .parenClose) then pure [] else argsWithin bound
        let stop ← expect (.mark .parenClose)
        return .call ⟨← freshId, start.merge stop⟩ callee args
      else
        return callee) c (Delivers ks fun e => Sourced ks e.Formed e.atoms) := by
  have hatom : (Atom.name name).Among ks := ⟨_, hname, rfl⟩
  apply delivers_bind (delivers_freshId hc)
  intro id c₁ h₁ _
  apply delivers_bind (delivers_eat _ h₁)
  intro eaten c₂ h₂ _
  cases eaten with
  | false => exact delivers_pure h₂ (.cons hatom (.nil trivial))
  | true =>
    -- the arguments have been read
    have hrest : ∀ (args : List Expr) (c : Cursor), c.kinds ⊆ ks →
        Sourced ks (exprsFormed args) (exprAtoms args) → Meets (do
          let stop ← expect (.mark .parenClose)
          return Expr.call ⟨← freshId, start.merge stop⟩ (.ident ⟨id, start⟩ name) args) c
          (Delivers ks fun e => Sourced ks e.Formed e.atoms) := by
      intro args c hc hargs
      apply delivers_bind (delivers_expect _ hc)
      intro stop c₃ h₃ _
      apply delivers_bind (delivers_freshId h₃)
      intro id' c₄ h₄ _
      have hatoms := hargs.cons hatom
      exact delivers_pure h₄ ⟨⟨⟨_, _, rfl⟩, hatoms.1⟩, hatoms.2⟩
    rw [if_pos rfl, meets_sees]
    split
    · exact hrest [] c₂ h₂ (.nil trivial)
    · exact delivers_bind (h.args h₂) fun args c₃ h₃ hargs => hrest args c₃ h₃ hargs

theorem array_delivers (h : ProgramsDelivered ks bound) (start : Span) (hc : c.kinds ⊆ ks) :
    Meets (do
      let elements ← elementsWithin bound
      let stop ← expect (.mark .bracketClose)
      return Expr.array ⟨← freshId, start.merge stop⟩ elements) c
      (Delivers ks fun e => Sourced ks e.Formed e.atoms) := by
  apply delivers_bind (h.elements hc)
  intro elements c₁ h₁ helements
  apply delivers_bind (delivers_expect _ h₁)
  intro stop c₂ h₂ _
  apply delivers_bind (delivers_freshId h₂)
  intro id c₃ h₃ _
  exact delivers_pure h₃ helements

theorem object_delivers (h : ProgramsDelivered ks bound) (start : Span) (hc : c.kinds ⊆ ks) :
    Meets (do
      let properties ← propertiesWithin bound
      let stop ← expect (.mark .braceClose)
      return Expr.object ⟨← freshId, start.merge stop⟩ properties) c
      (Delivers ks fun e => Sourced ks e.Formed e.atoms) := by
  apply delivers_bind (h.properties hc)
  intro properties c₁ h₁ hproperties
  apply delivers_bind (delivers_expect _ h₁)
  intro stop c₂ h₂ _
  apply delivers_bind (delivers_freshId h₂)
  intro id c₃ h₃ _
  exact delivers_pure h₃ hproperties

theorem literal_delivers (literal : Node → Expr) (start : Span) (hc : c.kinds ⊆ ks)
    (hliteral : ∀ node, Sourced ks (literal node).Formed (literal node).atoms) :
    Meets (do return literal ⟨← freshId, start⟩) c
      (Delivers ks fun e => Sourced ks e.Formed e.atoms) := by
  apply delivers_bind (delivers_freshId hc)
  intro id c₁ h₁ _
  exact delivers_pure h₁ (hliteral _)

theorem operand_succ (h : ProgramsDelivered ks bound) (hc : c.kinds ⊆ ks) :
    Meets (operandWithin (bound + 1)) c (Delivers ks fun e => Sourced ks e.Formed e.atoms) := by
  unfold operandWithin
  rw [meets_here, meets_kind?]
  split
  · rw [meets_succeeds]
    split
    · exact delivers_advance hc fun c₁ h₁ => h.arrow_delivers _ h₁
    · apply delivers_advance hc
      intro c₁ h₁
      apply delivers_bind (h.expr h₁)
      intro inner c₂ h₂ hinner
      exact delivers_bind (delivers_expect _ h₂) fun _ c₃ h₃ _ => delivers_pure h₃ hinner
  · rename_i text hk
    have hatom : (Atom.string (unquote text)).Among ks := ⟨_, mem_of_kind? hc hk, _, rfl, rfl⟩
    apply delivers_advance hc
    intro c₁ h₁
    exact literal_delivers (.string · _) _ h₁ fun _ => .cons hatom (.nil trivial)
  · rename_i text hk
    apply delivers_advance hc
    intro c₁ h₁
    split
    · rename_i value hvalue
      have hatom : (Atom.number value).Among ks := by
        refine ⟨_, mem_of_kind? hc hk, text, rfl, fun v hv => ?_⟩
        exact Option.some.inj (hvalue.symm.trans hv)
      exact literal_delivers (.number · _) _ h₁ fun _ => .cons hatom (.nil trivial)
    · exact delivers_throw h₁ _
  · rename_i value hk
    have hatom : (Atom.boolean value).Among ks := ⟨_, mem_of_kind? hc hk, rfl⟩
    apply delivers_advance hc
    intro c₁ h₁
    exact literal_delivers (.boolean · _) _ h₁ fun _ => .cons hatom (.nil trivial)
  · rename_i name hk
    exact delivers_advance hc fun c₁ h₁ => h.call_delivers _ (mem_of_kind? hc hk) h₁
  · exact delivers_advance hc fun c₁ h₁ => h.array_delivers _ h₁
  · exact delivers_advance hc fun c₁ h₁ => h.object_delivers _ h₁
  · exact delivers_unexpected hc _

theorem args_succ (h : ProgramsDelivered ks bound) (hc : c.kinds ⊆ ks) :
    Meets (argsWithin (bound + 1)) c
      (Delivers ks fun es => Sourced ks (exprsFormed es) (exprAtoms es)) := by
  apply delivers_bind (h.expr hc)
  intro arg c₁ h₁ harg
  apply delivers_bind (delivers_eat _ h₁)
  intro eaten c₂ h₂ _
  cases eaten with
  | false => exact delivers_pure h₂ (harg.append (.nil trivial))
  | true => exact delivers_bind (h.args h₂) fun args c₃ h₃ hargs => delivers_pure h₃ (harg.append hargs)

theorem elements_succ (h : ProgramsDelivered ks bound) (hc : c.kinds ⊆ ks) :
    Meets (elementsWithin (bound + 1)) c
      (Delivers ks fun es => Sourced ks (exprsFormed es) (exprAtoms es)) := by
  unfold elementsWithin
  rw [meets_atEnd, meets_sees]
  split
  · exact delivers_pure hc (.nil trivial)
  · apply delivers_bind (h.expr hc)
    intro element c₁ h₁ helement
    apply delivers_bind (delivers_eat _ h₁)
    intro eaten c₂ h₂ _
    cases eaten with
    | false => exact delivers_pure h₂ (helement.append (.nil trivial))
    | true =>
      apply delivers_bind (h.elements h₂)
      intro elements c₃ h₃ helements
      exact delivers_pure h₃ (helement.append helements)

theorem properties_succ (h : ProgramsDelivered ks bound) (hc : c.kinds ⊆ ks) :
    Meets (propertiesWithin (bound + 1)) c
      (Delivers ks fun ps => Sourced ks (propertiesFormed ps) (propertyAtoms ps)) := by
  unfold propertiesWithin
  rw [meets_atEnd, meets_sees]
  split
  · exact delivers_pure hc (.nil trivial)
  rw [meets_here, meets_kind?]
  split
  · exact delivers_unexpected hc _
  · rename_i key hkey
    obtain ⟨k, hk, hkey⟩ := Option.bind_eq_some_iff.mp hkey
    have hatom : (Atom.key key).Among ks := ⟨k, mem_of_kind? hc hk, hkey⟩
    apply delivers_advance hc
    intro c₁ h₁
    apply delivers_bind (delivers_expect _ h₁)
    intro _ c₂ h₂ _
    apply delivers_bind (h.expr h₂)
    intro value c₃ h₃ hvalue
    apply delivers_bind (delivers_freshId h₃)
    intro id c₄ h₄ _
    apply delivers_bind (delivers_eat _ h₄)
    intro eaten c₅ h₅ _
    cases eaten with
    | false => exact delivers_pure h₅ ((hvalue.append (.nil trivial)).cons hatom)
    | true =>
      apply delivers_bind (h.properties h₅)
      intro properties c₆ h₆ hproperties
      exact delivers_pure h₆ ((hvalue.append hproperties).cons hatom)

theorem block_succ (h : ProgramsDelivered ks bound) (hc : c.kinds ⊆ ks) :
    Meets (blockWithin (bound + 1)) c (Delivers ks fun b => Sourced ks b.Formed b.atoms) := by
  apply delivers_bind (delivers_expect _ hc)
  intro start c₁ h₁ _
  apply delivers_bind (h.statements true h₁)
  intro statements c₂ h₂ hstatements
  apply delivers_bind (delivers_expect _ h₂)
  intro stop c₃ h₃ _
  apply delivers_bind (delivers_freshId h₃)
  intro id c₄ h₄ _
  exact delivers_pure h₄ hstatements

theorem statements_succ (h : ProgramsDelivered ks bound) (nested : Bool) (hc : c.kinds ⊆ ks) :
    Meets (statementsWithin (bound + 1) nested) c
      (Delivers ks fun ss => Sourced ks (stmtsFormed ss) (stmtAtoms ss)) := by
  unfold statementsWithin
  rw [meets_atEnd, meets_sees]
  split
  · exact delivers_pure hc (.nil trivial)
  apply delivers_attempt (h.statement hc)
  · intro s c₁ h₁ hs
    apply delivers_bind (h.statements nested h₁)
    intro ss c₂ h₂ hss
    exact delivers_pure h₂ (hs.append hss)
  · -- a statement with a fault is left out
    intro fault c₁ h₁
    have hrecord : Meets (record fault) c₁ (Delivers ks fun _ => True) := ⟨h₁, fun _ _ => trivial⟩
    apply delivers_bind hrecord
    intro _ c₂ h₂ _
    apply delivers_bind (delivers_skipStatement nested h₂)
    intro _ c₃ h₃ _
    exact h.statements nested h₃

theorem const_delivers (h : ProgramsDelivered ks bound) (start : Span)
    (hconst : .keyword .const ∈ ks) (hc : c.kinds ⊆ ks) : Meets (do
      let (name, place) ← expectIdent "variable name"
      let ident : Ident := ⟨⟨← freshId, place⟩, name⟩
      let type ← optionalType
      let _ ← expect (.mark .equals)
      let value ← exprWithin bound
      let span := start.merge (← get).last
      let _ ← eat (.mark .semicolon)
      return Stmt.const ⟨← freshId, span⟩ ident type value) c
      (Delivers ks fun s => Sourced ks s.Formed s.atoms) := by
  apply delivers_bind (delivers_expectIdent _ hc)
  intro name c₁ h₁ hname
  apply delivers_bind (delivers_freshId h₁)
  intro id c₂ h₂ _
  apply delivers_bind (delivers_optionalType h₂)
  intro type c₃ h₃ htype
  apply delivers_bind (delivers_expect _ h₃)
  intro _ c₄ h₄ _
  apply delivers_bind (h.expr h₄)
  intro value c₅ h₅ hvalue
  rw [meets_get]
  apply delivers_bind (delivers_eat _ h₅)
  intro _ c₆ h₆ _
  apply delivers_bind (delivers_freshId h₆)
  intro id' c₇ h₇ _
  have hword : (Atom.keyword .const).Among ks := ⟨_, hconst, rfl⟩
  have hatom : (Atom.name name.1).Among ks := ⟨_, hname, rfl⟩
  exact delivers_pure h₇ (((Sourced.append htype hvalue).cons hatom).cons hword)

theorem ret_delivers (h : ProgramsDelivered ks bound) (start : Span)
    (hret : .keyword .ret ∈ ks) (hc : c.kinds ⊆ ks) : Meets (do
      let bare := (← atEnd) || (← sees (.mark .semicolon)) || (← sees (.mark .braceClose))
      let argument ← if bare then pure none else some <$> exprWithin bound
      let span := start.merge (← get).last
      let _ ← eat (.mark .semicolon)
      return Stmt.ret ⟨← freshId, span⟩ argument) c
      (Delivers ks fun s => Sourced ks s.Formed s.atoms) := by
  have hword : (Atom.keyword .ret).Among ks := ⟨_, hret, rfl⟩
  -- the argument has been read
  have hrest : ∀ (argument : Option Expr) (c : Cursor), c.kinds ⊆ ks →
      (∀ node, Sourced ks (Stmt.ret node argument).Formed (Stmt.ret node argument).atoms) → Meets (do
        let span := start.merge (← get).last
        let _ ← eat (.mark .semicolon)
        return Stmt.ret ⟨← freshId, span⟩ argument) c
        (Delivers ks fun s => Sourced ks s.Formed s.atoms) := by
    intro argument c hc hargument
    rw [meets_get]
    apply delivers_bind (delivers_eat _ hc)
    intro _ c₁ h₁ _
    apply delivers_bind (delivers_freshId h₁)
    intro id c₂ h₂ _
    exact delivers_pure h₂ (hargument _)
  rw [meets_atEnd, meets_sees, meets_sees]
  dsimp only
  split
  · exact hrest none c hc fun _ => .cons hword (.nil trivial)
  · rw [map_eq_pure_bind, bind_assoc]
    apply delivers_bind (h.expr hc)
    intro argument c₁ h₁ hargument
    exact hrest (some argument) c₁ h₁ fun _ => hargument.cons hword

theorem statement_succ (h : ProgramsDelivered ks bound) (hc : c.kinds ⊆ ks) :
    Meets (statementWithin (bound + 1)) c (Delivers ks fun s => Sourced ks s.Formed s.atoms) := by
  unfold statementWithin
  rw [meets_here, meets_kind?]
  split
  · rename_i hk
    exact delivers_advance hc fun c₁ h₁ => h.const_delivers _ (mem_of_kind? hc hk) h₁
  · rename_i hk
    exact delivers_advance hc fun c₁ h₁ => h.ret_delivers _ (mem_of_kind? hc hk) h₁
  · exact delivers_unexpected hc _

end ProgramsDelivered

theorem programsDelivered (ks : List TokenKind) (bound : Nat) : ProgramsDelivered ks bound := by
  induction bound with
  | zero =>
    exact
      { expr := fun hc => delivers_unexpected hc _
        chain := fun hc => delivers_unexpected hc _
        more := fun hc hleft => delivers_pure hc hleft
        operand := fun hc => delivers_unexpected hc _
        args := fun hc => delivers_unexpected hc _
        elements := fun hc => delivers_unexpected hc _
        properties := fun hc => delivers_unexpected hc _
        block := fun hc => delivers_unexpected hc _
        statements := fun _ hc => delivers_pure hc (.nil trivial)
        statement := fun hc => delivers_unexpected hc _ }
  | succ bound ih =>
    exact
      { expr := ih.expr_succ
        chain := ih.chain_succ
        more := ih.more_succ
        operand := ih.operand_succ
        args := ih.args_succ
        elements := ih.elements_succ
        properties := ih.properties_succ
        block := ih.block_succ
        statements := ih.statements_succ
        statement := ih.statement_succ }

end Reader

open Reader

/-- The trees of a program that is read are formed, and its atoms stand for tokens of the text. -/
theorem sourced_parse (source : String) :
    Sourced (Cursor.ofSource source).kinds (stmtsFormed (parse source).program.statements)
      (parse source).program.atoms := by
  obtain ⟨ss, d, hrun⟩ :=
    exists_run_statements (4 * (Cursor.ofSource source).rest.length + 4) (Cursor.ofSource source)
  have hdelivered := (programsDelivered (Cursor.ofSource source).kinds
    (4 * (Cursor.ofSource source).rest.length + 4)).statements false (List.Subset.refl _)
  unfold Meets at hdelivered
  rw [hrun] at hdelivered
  rw [parse_eq hrun]
  exact hdelivered.2 ss rfl

end ArrowCheck
