import ArrowCheck.Proofs.Grammar.Signatures

namespace ArrowCheck

namespace Spells

variable {g : Bool} {ts us : List TokenKind} {ph : Phrase}

theorem suffix_of (h : Spells g ph ts us) : us <:+ ts := by
  have cons : ∀ {k : TokenKind} {ts us : List TokenKind}, us <:+ ts → us <:+ k :: ts :=
    fun h => h.trans (List.suffix_cons _ _)
  have tail : ∀ {k : TokenKind} {ts us : List TokenKind}, k :: us <:+ ts → us <:+ ts :=
    fun h => (List.suffix_cons _ _).trans h
  have ends : ∀ {ts us : List TokenKind}, Terminated ts us → us <:+ ts := by
    rintro ts us (rfl | rfl)
    · exact List.suffix_refl _
    · exact List.suffix_cons _ _
  induction h with
  | noStatement | noTail | noArg | noElement | noProperty => exact List.suffix_refl _
  | string | number | boolean | ident => exact List.suffix_cons _ _
  | expr _ ih | lastArg _ ih | lastElement _ ih => exact ih
  | statement _ _ ih₁ ih₂ | chain _ _ ih₁ ih₂ => exact ih₂.trans ih₁
  | const htype _ hend ih =>
    exact cons (cons (((ends hend).trans ih).trans (tail htype.suffix_of)))
  | ret _ hend ih => exact cons ((ends hend).trans ih)
  | bareRet _ hend => exact cons (ends hend)
  | conditional _ _ _ ih₁ ih₂ ih₃ => exact ih₃.trans ((tail ih₂).trans (tail ih₁))
  | tail _ _ _ ih₁ ih₂ => exact cons (ih₂.trans ih₁)
  | call _ ih => exact cons (cons (tail ih))
  | group _ ih | array _ ih | object _ ih => exact cons (tail ih)
  | arrow hps hresult _ ih =>
    exact cons ((tail ih).trans ((tail (tail hresult.suffix_of)).trans (tail hps.suffix_of)))
  | arg _ _ ih₁ ih₂ | element _ _ ih₁ ih₂ => exact ih₂.trans (tail ih₁)
  | lastProperty _ _ ih => exact cons (cons ih)
  | property _ _ _ ih₁ ih₂ => exact cons (cons (ih₂.trans (tail ih₁)))

theorem length_le (h : Spells g ph ts us) : us.length ≤ ts.length := h.suffix_of.length_le

theorem statement_length_lt {s : Stmt} (h : Spells g (.statement s) ts us) :
    us.length < ts.length := by
  have ends : ∀ {ts us : List TokenKind}, Terminated ts us → us.length ≤ ts.length := by
    rintro ts us (rfl | rfl) <;> simp
  cases h with
  | const htype he hend =>
    have h₁ := htype.suffix_of.length_le
    have h₂ := he.length_le
    have h₃ := ends hend
    simp only [List.length_cons] at h₁ ⊢
    omega
  | ret he hend =>
    have h₁ := he.length_le
    have h₂ := ends hend
    simp only [List.length_cons]
    omega
  | bareRet _ hend =>
    have h₁ := ends hend
    simp only [List.length_cons]
    omega

end Spells

namespace Reader

variable {α β : Type} {r : Reader α} {f : α → Reader β} {c c₀ c₁ : Cursor} {A B : Prop}
  {P : α → List TokenKind → Prop} {Q : β → List TokenKind → Prop} {g : Bool} {bound : Nat}

/-- If there is no fault at the second cursor there was none at the first, and `A` holds. -/
def Since (c₀ c : Cursor) (A : Prop) : Prop := c.faults = [] → c₀.faults = [] ∧ A

/-- The result of a reader that started at `c₀`, if no fault was recorded. -/
def Follows (c₀ : Cursor) (P : α → List TokenKind → Prop) (x : Except ParseFault α) (c : Cursor) :
    Prop :=
  Since c₀ c (∀ a, x = .ok a → P a c.kinds)

/-- Faults stay, and if there is none at the end a value that is given is as said. -/
def Ensures (r : Reader α) (c : Cursor) (P : α → List TokenKind → Prop) : Prop :=
  Meets r c (Follows c P)

theorem Since.start (c : Cursor) : Since c c True := fun h => ⟨h, trivial⟩

theorem Since.imp (h : Since c₀ c A) (hAB : A → B) : Since c₀ c B :=
  fun hc => ⟨(h hc).1, hAB (h hc).2⟩

theorem Since.of_eq (h : Since c₀ c A) (hfaults : c₁.faults = c.faults) : Since c₀ c₁ A :=
  fun hc => h (hfaults ▸ hc)

theorem follows_pure {b : β} (h : Since c₀ c A) (hQ : A → Q b c.kinds) :
    Meets (pure b) c (Follows c₀ Q) :=
  h.imp fun hA _ hb => by cases hb; exact hQ hA

theorem follows_unexpected (h : Since c₀ c A) (expected : String) :
    Meets (unexpected expected) c (Follows c₀ Q) :=
  h.imp fun _ _ hb => by cases hb

theorem follows_throw (h : Since c₀ c A) (fault : ParseFault) :
    Meets (throw fault) c (Follows c₀ Q) :=
  h.imp fun _ _ hb => by cases hb

theorem follows_bind (h₀ : Since c₀ c A) (h : Ensures r c P)
    (hf : ∀ a c', Since c₀ c' (A ∧ P a c'.kinds) → Meets (f a) c' (Follows c₀ Q)) :
    Meets (r >>= f) c (Follows c₀ Q) := by
  refine meets_bind.mpr (Meets.imp h ?_)
  rintro (fault | a) c' hc'
  · intro hquiet
    exact ⟨(h₀ (hc' hquiet).1).1, fun _ hb => by cases hb⟩
  · refine hf a c' fun hquiet => ?_
    obtain ⟨hquiet', hP⟩ := hc' hquiet
    obtain ⟨hquiet₀, hA⟩ := h₀ hquiet'
    exact ⟨hquiet₀, hA, hP a rfl⟩

theorem follows_reads (h₀ : Since c₀ c A) (h : Reads r c P)
    (hf : ∀ a c', Since c₀ c' A → P a c'.kinds → Meets (f a) c' (Follows c₀ Q)) :
    Meets (r >>= f) c (Follows c₀ Q) := by
  refine meets_bind.mpr (Meets.imp h ?_)
  rintro (fault | a) c' ⟨hfaults, hvalue⟩
  · exact (h₀.of_eq hfaults).imp fun _ _ hb => by cases hb
  · exact hf a c' (h₀.of_eq hfaults) (hvalue a rfl)

theorem follows_last {P' : α → List TokenKind → Prop} (h₀ : Since c₀ c A) (h : Ensures r c P)
    (hP : A → ∀ a us, P a us → P' a us) : Meets r c (Follows c₀ P') := by
  refine Meets.imp h fun x c' hc' hquiet => ?_
  obtain ⟨hquiet', hvalue⟩ := hc' hquiet
  obtain ⟨hquiet₀, hA⟩ := h₀ hquiet'
  exact ⟨hquiet₀, fun a ha => hP hA a _ (hvalue a ha)⟩

theorem ensures_attempt (h : Ensures r c P) :
    Ensures (attempt r) c fun x us => ∀ a, x = .ok a → P a us :=
  Since.imp h fun hvalue x hx a ha => hvalue a (by cases hx; exact ha)

theorem reads_succeeds (r : Reader α) : Reads (succeeds r) c fun _ us => us = c.kinds :=
  ⟨rfl, fun _ _ => rfl⟩

theorem reads_terminator : Reads (eat (.mark .semicolon)) c fun _ us => Terminated c.kinds us := by
  refine reads_eat.imp ?_
  rintro _ us (⟨-, hkinds⟩ | ⟨-, hkinds, -⟩)
  · exact .inr hkinds
  · exact .inl hkinds.symm

theorem follows_record {fault : ParseFault} {f : Unit → Reader β}
    (hf : ∀ c', Since c₀ c' False → Meets (f ()) c' (Follows c₀ Q)) :
    Meets (record fault >>= f) c (Follows c₀ Q) := by
  refine meets_bind.mpr (hf _ fun hquiet => ?_)
  exact absurd hquiet (List.append_ne_nil_of_right_ne_nil _ (by simp))

theorem reads_skipStatement (nested : Bool) : Reads (skipStatement nested) c fun _ _ => True := by
  have hskip : ∀ stops, Reads (modify (Cursor.skipUntil stops)) c fun _ _ => True :=
    fun _ => ⟨rfl, fun _ _ => trivial⟩
  exact reads_bind (hskip _) fun _ _ _ => reads_bind reads_eat fun _ _ _ => reads_pure trivial

structure ProgramReaders (g : Bool) (bound : Nat) : Prop where
  expr : ∀ {c : Cursor}, Ensures (exprWithin bound) c fun e us => Spells g (.expr e) c.kinds us
  chain : ∀ {c : Cursor}, Ensures (chainWithin bound) c fun e us => Spells g (.chain e) c.kinds us
  more : ∀ {c : Cursor} {l : Expr},
    Ensures (moreWithin bound l) c fun e us => Spells g (.tail l e) c.kinds us
  operand : ∀ {c : Cursor},
    Ensures (operandWithin bound) c fun e us => Spells g (.operand e) c.kinds us
  args : ∀ {c : Cursor}, Ensures (argsWithin bound) c fun es us =>
    es ≠ [] ∧ Spells g (.args es) c.kinds us
  elements : ∀ {c : Cursor},
    Ensures (elementsWithin bound) c fun es us => Spells g (.elements es) c.kinds us
  properties : ∀ {c : Cursor},
    Ensures (propertiesWithin bound) c fun ps us => Spells g (.properties ps) c.kinds us
  block : ∀ {c : Cursor}, Ensures (blockWithin bound) c fun b us => ∃ ts,
    c.kinds = .mark .braceOpen :: ts ∧
      Spells g (.statements b.statements) ts (.mark .braceClose :: us)
  statements : ∀ {c : Cursor} {nested : Bool}, Ensures (statementsWithin bound nested) c
    fun ss us => Spells g (.statements ss) c.kinds us ∧ (c.kinds.length < bound →
      us = [] ∨ nested = true ∧ us.head? = some (.mark .braceClose))
  statement : ∀ {c : Cursor},
    Ensures (statementWithin bound) c fun s us => Spells g (.statement s) c.kinds us

namespace ProgramReaders

theorem expr_succ (h : ProgramReaders g bound) :
    Ensures (exprWithin (bound + 1)) c fun e us => Spells g (.expr e) c.kinds us := by
  refine follows_bind (.start c) h.chain fun test c₁ h₁ => follows_reads h₁ reads_eat ?_
  rintro _ c₂ h₂ (⟨rfl, hkinds₂⟩ | ⟨rfl, hkinds₂, -⟩)
  · refine follows_bind h₂ h.expr fun consequent c₃ h₃ => ?_
    refine follows_reads h₃ reads_expect fun _ c₄ h₄ hkinds₄ => ?_
    refine follows_bind h₄ h.expr fun alternate c₅ h₅ => ?_
    refine follows_reads h₅ reads_freshId fun id c₆ h₆ hkinds₆ => follows_pure h₆ ?_
    rintro ⟨⟨⟨-, htest⟩, hconsequent⟩, halternate⟩
    rw [hkinds₂] at htest
    rw [hkinds₄] at hconsequent
    rw [← hkinds₆] at halternate
    exact .conditional htest hconsequent halternate
  · refine follows_pure h₂ ?_
    rintro ⟨-, htest⟩
    rw [hkinds₂]
    exact .expr htest

theorem chain_succ (h : ProgramReaders g bound) :
    Ensures (chainWithin (bound + 1)) c fun e us => Spells g (.chain e) c.kinds us := by
  refine follows_bind (.start c) h.operand fun first c₁ h₁ => ?_
  refine follows_last h₁ h.more ?_
  rintro ⟨-, hfirst⟩ e us htail
  exact .chain hfirst htail

theorem more_succ (h : ProgramReaders g bound) {l : Expr} :
    Ensures (moreWithin (bound + 1) l) c fun e us => Spells g (.tail l e) c.kinds us := by
  refine follows_reads (.start c) reads_kind? ?_
  rintro _ c₁ h₁ ⟨rfl, hkinds₁⟩
  split
  · rename_i op hop
    obtain ⟨k, hk, hop⟩ := Option.bind_eq_some_iff.mp hop
    refine follows_reads h₁ reads_advance fun _ c₂ h₂ hkinds₂ => ?_
    have hc : c.kinds = k :: c₂.kinds := by
      rw [hkinds₂, hkinds₁]
      exact eq_cons_of_head? (beq_iff_eq.mpr hk)
    rw [hc]
    refine follows_bind h₂ h.operand fun r c₃ h₃ => ?_
    refine follows_reads h₃ reads_freshId fun id c₄ h₄ hkinds₄ => ?_
    refine follows_last h₄ h.more ?_
    rintro ⟨-, hr⟩ e us htail
    rw [← hkinds₄] at hr
    exact .tail hop hr htail
  · refine follows_pure h₁ fun _ => ?_
    rw [hkinds₁]
    exact .noTail

theorem arrow_ensures (h : ProgramReaders g bound) {start : Span} :
    Ensures (do
      let (params, result) ← signature
      let body ← blockWithin bound
      let id ← freshId
      return Expr.arrow ⟨id, start.merge body.node.span⟩ params result body) c fun e us =>
        Spells g (.operand e) (.mark .parenOpen :: c.kinds) us := by
  refine follows_reads (.start c) (reads_signature (g := g)) ?_
  rintro ⟨params, result⟩ c₁ h₁ ⟨vs, ws, hbrace, hparams, hresult⟩
  refine follows_bind h₁ h.block ?_
  rintro ⟨place, statements⟩ c₂ h₂
  refine follows_reads h₂ reads_freshId fun id c₃ h₃ hkinds₃ => follows_pure h₃ ?_
  rintro ⟨-, ts, hts, hbody⟩
  rw [hts] at hresult
  rw [hkinds₃]
  exact .arrow hparams hresult hbody

theorem call_ensures (h : ProgramReaders g bound) {start : Span} {name : String} :
    Ensures (do
      let callee : Expr := .ident ⟨← freshId, start⟩ name
      if ← eat (.mark .parenOpen) then
        let args ← if ← sees (.mark .parenClose) then pure [] else argsWithin bound
        let stop ← expect (.mark .parenClose)
        return .call ⟨← freshId, start.merge stop⟩ callee args
      else
        return callee) c fun e us => Spells g (.operand e) (.ident name :: c.kinds) us := by
  refine follows_reads (.start c) reads_freshId fun id c₁ h₁ hkinds₁ => ?_
  refine follows_reads h₁ reads_eat ?_
  rintro _ c₂ h₂ (⟨rfl, hkinds₂⟩ | ⟨rfl, hkinds₂, -⟩)
  · rw [← hkinds₁, hkinds₂]
    -- the arguments have been read
    have hrest : ∀ (args : List Expr) (c' : Cursor), Since c c' (Spells g (.args args) c₂.kinds c'.kinds) →
        Meets (do
          let stop ← expect (.mark .parenClose)
          return Expr.call ⟨← freshId, start.merge stop⟩ (.ident ⟨id, start⟩ name) args) c'
          (Follows c fun e us => Spells g (.operand e)
            (.ident name :: .mark .parenOpen :: c₂.kinds) us) := by
      intro args c' hargs
      refine follows_reads hargs reads_expect fun stop c₃ h₃ hkinds₃ => ?_
      refine follows_reads h₃ reads_freshId fun id' c₄ h₄ hkinds₄ => follows_pure h₄ fun hargs => ?_
      rw [hkinds₃] at hargs
      rw [hkinds₄]
      exact .call hargs
    refine follows_reads h₂ reads_sees ?_
    rintro _ c₃ h₃ ⟨rfl, hkinds₃⟩
    split
    · refine hrest [] c₃ (h₃.imp fun _ => ?_)
      rw [hkinds₃]
      exact .noArg
    · refine follows_bind h₃ h.args fun args c₄ h₄ => hrest args c₄ (h₄.imp ?_)
      rintro ⟨-, -, hargs⟩
      rw [hkinds₃] at hargs
      exact hargs
  · refine follows_pure h₂ fun _ => ?_
    rw [hkinds₂, hkinds₁]
    exact .ident

theorem operand_succ (h : ProgramReaders g bound) :
    Ensures (operandWithin (bound + 1)) c fun e us => Spells g (.operand e) c.kinds us := by
  refine follows_reads (.start c) reads_here fun start c₁ h₁ hkinds₁ => follows_reads h₁ reads_kind? ?_
  rintro _ c₂ h₂ ⟨rfl, hkinds₂⟩
  have hadvance : ∀ k, c₁.kinds.head? = some k → ∀ c₃ : Cursor, c₃.kinds = c₂.kinds.tail →
      c.kinds = k :: c₃.kinds := by
    intro k hk c₃ hkinds₃
    rw [← hkinds₁, hkinds₃, hkinds₂]
    exact eq_cons_of_head? (beq_iff_eq.mpr hk)
  split
  · rename_i hhead
    refine follows_reads h₂ (reads_succeeds _) fun isArrow c₃ h₃ hkinds₃ => ?_
    split
    · refine follows_reads h₃ reads_advance fun _ c₄ h₄ hkinds₄ => ?_
      rw [hadvance _ hhead c₄ (by rw [hkinds₄, hkinds₃])]
      exact follows_last h₄ h.arrow_ensures fun _ _ _ he => he
    · refine follows_reads h₃ reads_advance fun _ c₄ h₄ hkinds₄ => ?_
      rw [hadvance _ hhead c₄ (by rw [hkinds₄, hkinds₃])]
      refine follows_bind h₄ h.expr fun inner c₅ h₅ => ?_
      refine follows_reads h₅ reads_expect fun _ c₆ h₆ hkinds₆ => follows_pure h₆ ?_
      rintro ⟨-, hinner⟩
      rw [hkinds₆] at hinner
      exact .group hinner
  · rename_i text hhead
    refine follows_reads h₂ reads_advance fun _ c₃ h₃ hkinds₃ => ?_
    rw [hadvance _ hhead c₃ hkinds₃]
    refine follows_reads h₃ reads_freshId fun id c₄ h₄ hkinds₄ => follows_pure h₄ fun _ => ?_
    rw [hkinds₄]
    exact .string
  · rename_i text hhead
    refine follows_reads h₂ reads_advance fun _ c₃ h₃ hkinds₃ => ?_
    rw [hadvance _ hhead c₃ hkinds₃]
    split
    · rename_i value hvalue
      refine follows_reads h₃ reads_freshId fun id c₄ h₄ hkinds₄ => follows_pure h₄ fun _ => ?_
      rw [hkinds₄]
      exact .number fun v hv => Option.some.inj (hvalue.symm.trans hv)
    · exact follows_throw h₃ _
  · rename_i value hhead
    refine follows_reads h₂ reads_advance fun _ c₃ h₃ hkinds₃ => ?_
    rw [hadvance _ hhead c₃ hkinds₃]
    refine follows_reads h₃ reads_freshId fun id c₄ h₄ hkinds₄ => follows_pure h₄ fun _ => ?_
    rw [hkinds₄]
    exact .boolean
  · rename_i name hhead
    refine follows_reads h₂ reads_advance fun _ c₃ h₃ hkinds₃ => ?_
    rw [hadvance _ hhead c₃ hkinds₃]
    exact follows_last h₃ h.call_ensures fun _ _ _ he => he
  · rename_i hhead
    refine follows_reads h₂ reads_advance fun _ c₃ h₃ hkinds₃ => ?_
    rw [hadvance _ hhead c₃ hkinds₃]
    refine follows_bind h₃ h.elements fun elements c₄ h₄ => ?_
    refine follows_reads h₄ reads_expect fun stop c₅ h₅ hkinds₅ => ?_
    refine follows_reads h₅ reads_freshId fun id c₆ h₆ hkinds₆ => follows_pure h₆ ?_
    rintro ⟨-, helements⟩
    rw [hkinds₅] at helements
    rw [hkinds₆]
    exact .array helements
  · rename_i hhead
    refine follows_reads h₂ reads_advance fun _ c₃ h₃ hkinds₃ => ?_
    rw [hadvance _ hhead c₃ hkinds₃]
    refine follows_bind h₃ h.properties fun properties c₄ h₄ => ?_
    refine follows_reads h₄ reads_expect fun stop c₅ h₅ hkinds₅ => ?_
    refine follows_reads h₅ reads_freshId fun id c₆ h₆ hkinds₆ => follows_pure h₆ ?_
    rintro ⟨-, hproperties⟩
    rw [hkinds₅] at hproperties
    rw [hkinds₆]
    exact .object hproperties
  · exact follows_unexpected h₂ _

theorem args_succ (h : ProgramReaders g bound) :
    Ensures (argsWithin (bound + 1)) c fun es us => es ≠ [] ∧ Spells g (.args es) c.kinds us := by
  refine follows_bind (.start c) h.expr fun arg c₁ h₁ => follows_reads h₁ reads_eat ?_
  rintro _ c₂ h₂ (⟨rfl, hkinds₂⟩ | ⟨rfl, hkinds₂, -⟩)
  · refine follows_bind h₂ h.args fun args c₃ h₃ => follows_pure h₃ ?_
    rintro ⟨⟨-, harg⟩, hne, hargs⟩
    rw [hkinds₂] at harg
    cases args with
    | nil => exact absurd rfl hne
    | cons => exact ⟨by simp, .arg harg hargs⟩
  · refine follows_pure h₂ ?_
    rintro ⟨-, harg⟩
    rw [hkinds₂]
    exact ⟨by simp, .lastArg harg⟩

theorem elements_succ (h : ProgramReaders g bound) :
    Ensures (elementsWithin (bound + 1)) c fun es us => Spells g (.elements es) c.kinds us := by
  refine follows_reads (.start c) reads_atEnd ?_
  rintro _ c₁ h₁ ⟨-, hkinds₁⟩
  refine follows_reads h₁ reads_sees ?_
  rintro _ c₂ h₂ ⟨-, hkinds₂⟩
  rw [← hkinds₁, ← hkinds₂]
  split
  · exact follows_pure h₂ fun _ => .noElement
  · refine follows_bind h₂ h.expr fun element c₃ h₃ => follows_reads h₃ reads_eat ?_
    rintro _ c₄ h₄ (⟨rfl, hkinds₄⟩ | ⟨rfl, hkinds₄, -⟩)
    · refine follows_bind h₄ h.elements fun elements c₅ h₅ => follows_pure h₅ ?_
      rintro ⟨⟨-, helement⟩, helements⟩
      rw [hkinds₄] at helement
      exact .element helement helements
    · refine follows_pure h₄ ?_
      rintro ⟨-, helement⟩
      rw [hkinds₄]
      exact .lastElement helement

theorem properties_succ (h : ProgramReaders g bound) :
    Ensures (propertiesWithin (bound + 1)) c fun ps us => Spells g (.properties ps) c.kinds us := by
  refine follows_reads (.start c) reads_atEnd ?_
  rintro _ c₁ h₁ ⟨-, hkinds₁⟩
  refine follows_reads h₁ reads_sees ?_
  rintro _ c₂ h₂ ⟨-, hkinds₂⟩
  rw [← hkinds₁, ← hkinds₂]
  split
  · exact follows_pure h₂ fun _ => .noProperty
  · refine follows_reads h₂ reads_here fun start c₃ h₃ hkinds₃ => follows_reads h₃ reads_kind? ?_
    rintro _ c₄ h₄ ⟨rfl, hkinds₄⟩
    split
    · exact follows_unexpected h₄ _
    · rename_i key hkey
      obtain ⟨k, hk, hkey⟩ := Option.bind_eq_some_iff.mp hkey
      refine follows_reads h₄ reads_advance fun _ c₅ h₅ hkinds₅ => ?_
      refine follows_reads h₅ reads_expect fun _ c₆ h₆ hkinds₆ => ?_
      have hc : c₂.kinds = k :: .mark .colon :: c₆.kinds := by
        rw [← hkinds₆, hkinds₅, hkinds₄, ← hkinds₃]
        exact eq_cons_of_head? (beq_iff_eq.mpr hk)
      rw [hc]
      refine follows_bind h₆ h.expr fun value c₇ h₇ => ?_
      refine follows_reads h₇ reads_freshId fun id c₈ h₈ hkinds₈ => follows_reads h₈ reads_eat ?_
      rintro _ c₉ h₉ (⟨rfl, hkinds₉⟩ | ⟨rfl, hkinds₉, -⟩)
      · refine follows_bind h₉ h.properties fun properties c₁₀ h₁₀ => follows_pure h₁₀ ?_
        rintro ⟨⟨-, hvalue⟩, hproperties⟩
        rw [← hkinds₈, hkinds₉] at hvalue
        exact .property hkey hvalue hproperties
      · refine follows_pure h₉ ?_
        rintro ⟨-, hvalue⟩
        rw [hkinds₉, hkinds₈]
        exact .lastProperty hkey hvalue

theorem block_succ (h : ProgramReaders g bound) :
    Ensures (blockWithin (bound + 1)) c fun b us => ∃ ts, c.kinds = .mark .braceOpen :: ts ∧
      Spells g (.statements b.statements) ts (.mark .braceClose :: us) := by
  refine follows_reads (.start c) reads_expect fun start c₁ h₁ hkinds₁ => ?_
  refine follows_bind h₁ h.statements fun statements c₂ h₂ => ?_
  refine follows_reads h₂ reads_expect fun stop c₃ h₃ hkinds₃ => ?_
  refine follows_reads h₃ reads_freshId fun id c₄ h₄ hkinds₄ => follows_pure h₄ ?_
  rintro ⟨-, hstatements, -⟩
  rw [hkinds₃] at hstatements
  rw [hkinds₄]
  exact ⟨_, hkinds₁, hstatements⟩

theorem statements_succ (h : ProgramReaders g bound) {nested : Bool} :
    Ensures (statementsWithin (bound + 1) nested) c fun ss us =>
      Spells g (.statements ss) c.kinds us ∧ (c.kinds.length < bound + 1 →
        us = [] ∨ nested = true ∧ us.head? = some (.mark .braceClose)) := by
  refine follows_reads (.start c) reads_atEnd ?_
  rintro _ c₁ h₁ ⟨rfl, hkinds₁⟩
  refine follows_reads h₁ reads_sees ?_
  rintro _ c₂ h₂ ⟨rfl, hkinds₂⟩
  have hc₂ := hkinds₂.trans hkinds₁
  split
  · rename_i hstop
    refine follows_pure h₂ fun _ => ⟨hc₂ ▸ .noStatement, fun _ => ?_⟩
    rw [hc₂]
    rw [hkinds₁] at hstop
    simpa using hstop
  · refine follows_bind h₂ (ensures_attempt h.statement) fun result c₃ h₃ => ?_
    split
    · rename_i statement
      refine follows_bind h₃ h.statements fun statements c₄ h₄ => follows_pure h₄ ?_
      rintro ⟨⟨-, hstatement⟩, hstatements, hend⟩
      have hstatement := hstatement statement rfl
      rw [hc₂] at hstatement
      have hlt := hstatement.statement_length_lt
      exact ⟨.statement hstatement hstatements, fun hbound => hend (by omega)⟩
    · rename_i fault
      -- there is a fault now, and it stays
      refine follows_record fun c₄ h₄ => ?_
      refine follows_reads h₄ (reads_skipStatement nested) fun _ c₅ h₅ _ => ?_
      exact follows_last h₅ h.statements fun habsurd => habsurd.elim

theorem return_ensures (h : ProgramReaders g bound) {start : Span} :
    Ensures (do
      let bare := (← atEnd) || (← sees (.mark .semicolon)) || (← sees (.mark .braceClose))
      let argument ← if bare then pure none else some <$> exprWithin bound
      let span := start.merge (← get).last
      let _ ← eat (.mark .semicolon)
      return Stmt.ret ⟨← freshId, span⟩ argument) c fun s us =>
        Spells g (.statement s) (.keyword .ret :: c.kinds) us := by
  -- what is left to do once the argument has been read
  have hrest : ∀ (argument : Option Expr) (c' : Cursor), Since c c' (∀ us node,
      Terminated c'.kinds us →
        Spells g (.statement (.ret node argument)) (.keyword .ret :: c.kinds) us) → Meets (do
      let span := start.merge (← get).last
      let _ ← eat (.mark .semicolon)
      return Stmt.ret ⟨← freshId, span⟩ argument) c' (Follows c fun s us =>
        Spells g (.statement s) (.keyword .ret :: c.kinds) us) := by
    intro argument c' h'
    refine follows_reads h' reads_get ?_
    rintro c₀ c₁ h₁ ⟨rfl, hkinds₁⟩
    refine follows_reads h₁ reads_terminator fun _ c₂ h₂ hend => ?_
    refine follows_reads h₂ reads_freshId fun id c₃ h₃ hkinds₃ => follows_pure h₃ fun hspells => ?_
    rw [hkinds₃]
    exact hspells _ _ (hkinds₁ ▸ hend)
  refine follows_reads (.start c) reads_atEnd ?_
  rintro _ c₁ h₁ ⟨rfl, hkinds₁⟩
  refine follows_reads h₁ reads_sees ?_
  rintro _ c₂ h₂ ⟨rfl, hkinds₂⟩
  refine follows_reads h₂ reads_sees ?_
  rintro _ c₃ h₃ ⟨rfl, hkinds₃⟩
  have hc₃ : c₃.kinds = c.kinds := by rw [hkinds₃, hkinds₂, hkinds₁]
  rw [hkinds₂, hkinds₁]
  dsimp only
  split
  · rename_i hbare
    rw [pure_bind]
    refine hrest none c₃ (h₃.imp fun _ us node hend => .bareRet ?_ (hc₃ ▸ hend))
    simpa [EndsReturn, or_assoc] using hbare
  · rw [map_eq_pure_bind, bind_assoc]
    refine follows_bind h₃ h.expr fun e c₄ h₄ => hrest (some e) c₄ (h₄.imp ?_)
    rintro ⟨-, he⟩ us node hend
    exact .ret (hc₃ ▸ he) hend

theorem statement_succ (h : ProgramReaders g bound) :
    Ensures (statementWithin (bound + 1)) c fun s us => Spells g (.statement s) c.kinds us := by
  refine follows_reads (.start c) reads_here fun start c₁ h₁ hkinds₁ => follows_reads h₁ reads_kind? ?_
  rintro _ c₂ h₂ ⟨rfl, hkinds₂⟩
  have hadvance : ∀ k, c₁.kinds.head? = some k → ∀ c₃ : Cursor, c₃.kinds = c₂.kinds.tail →
      c.kinds = k :: c₃.kinds := by
    intro k hk c₃ hkinds₃
    rw [← hkinds₁, hkinds₃, hkinds₂]
    exact eq_cons_of_head? (beq_iff_eq.mpr hk)
  split
  · rename_i hhead
    refine follows_reads h₂ reads_advance fun _ c₃ h₃ hkinds₃ => ?_
    rw [hadvance _ hhead c₃ hkinds₃]
    refine follows_reads h₃ reads_expectIdent ?_
    rintro ⟨name, place⟩ c₄ h₄ hkinds₄
    refine follows_reads h₄ reads_freshId fun id c₅ h₅ hkinds₅ => ?_
    refine follows_reads h₅ (reads_optionalType (g := g)) ?_
    rintro type c₆ h₆ ⟨htype, -⟩
    refine follows_reads h₆ reads_expect fun _ c₇ h₇ hkinds₇ => ?_
    refine follows_bind h₇ h.expr fun value c₈ h₈ => ?_
    refine follows_reads h₈ reads_get ?_
    rintro c₀ c₉ h₉ ⟨rfl, hkinds₉⟩
    refine follows_reads h₉ (reads_terminator (c := c₉)) fun _ c₁₀ h₁₀ hend => ?_
    refine follows_reads h₁₀ reads_freshId fun id' c₁₁ h₁₁ hkinds₁₁ => follows_pure h₁₁ ?_
    rintro ⟨-, hvalue⟩
    rw [hkinds₇, hkinds₅] at htype
    rw [hkinds₄, hkinds₁₁]
    rw [hkinds₉] at hend
    exact .const htype hvalue hend
  · rename_i hhead
    refine follows_reads h₂ reads_advance fun _ c₃ h₃ hkinds₃ => ?_
    rw [hadvance _ hhead c₃ hkinds₃]
    exact follows_last h₃ h.return_ensures fun _ _ _ hs => hs
  · exact follows_unexpected h₂ _

end ProgramReaders

theorem programReaders (bound : Nat) : ProgramReaders g bound := by
  induction bound with
  | zero =>
    have hs : ∀ c : Cursor, Since c c True := .start
    exact
      { expr := follows_unexpected (hs _) _
        chain := follows_unexpected (hs _) _
        more := follows_pure (hs _) fun _ => .noTail
        operand := follows_unexpected (hs _) _
        args := follows_unexpected (hs _) _
        elements := follows_unexpected (hs _) _
        properties := follows_unexpected (hs _) _
        block := follows_unexpected (hs _) _
        statements := follows_pure (hs _) fun _ => ⟨.noStatement, fun h => absurd h (by omega)⟩
        statement := follows_unexpected (hs _) _ }
  | succ bound ih =>
    exact
      { expr := ih.expr_succ
        chain := ih.chain_succ
        more := ih.more_succ
        operand := ih.operand_succ
        args := ih.args_succ
        elements := ih.elements_succ
        properties := ih.properties_succ
        block := ih.block_succ
        statements := ih.statements_succ
        statement := ih.statement_succ }

end Reader

end ArrowCheck
