import ArrowCheck.Proofs.Grammar.Scanning
import ArrowCheck.Proofs.Relocation.Programs

namespace ArrowCheck

/-- The fault is reported at the first of the tokens, or at the end of the text if there is none. -/
def ParseFault.StandsAt (stop : Nat) (ts : List Token) (f : ParseFault) : Prop :=
  f.IsSyntactic ∧ f.span = (ts.head?.map Token.span).getD ⟨stop, stop⟩

/-- The faults are reported at tokens of `ts` from left to right, at most one at each, and `vs` are last
tokens at which none is reported. At the end of the text there may be any number. -/
inductive Reported (stop : Nat) : List Token → List Token → List ParseFault → Prop
  | nil {ts vs : List Token} (hvs : vs <:+ ts) : Reported stop ts vs []
  | cons {ts us vs : List Token} {f : ParseFault} {fs : List ParseFault} (hus : us <:+ ts)
      (hf : f.StandsAt stop us) (hfs : Reported stop us.tail vs fs) : Reported stop ts vs (f :: fs)

variable {stop : Nat} {ts us vs : List Token} {fs gs : List ParseFault} {f : ParseFault}

namespace Reported

theorem suffix (h : Reported stop ts vs fs) : vs <:+ ts := by
  induction h with
  | nil hvs => exact hvs
  | cons hus _ _ ih => exact ih.trans ((List.tail_suffix _).trans hus)

theorem widen (h : Reported stop us vs fs) (hus : us <:+ ts) : Reported stop ts vs fs := by
  cases h with
  | nil hvs => exact .nil (hvs.trans hus)
  | cons hus' hf hfs => exact .cons (hus'.trans hus) hf hfs

theorem append (h : Reported stop ts us fs) (h' : Reported stop us vs gs) :
    Reported stop ts vs (fs ++ gs) := by
  induction h with
  | nil hus => exact h'.widen hus
  | cons hus hf _ ih => exact .cons hus hf (ih h')

theorem narrow (h : Reported stop ts us fs) (hvs : vs <:+ us) : Reported stop ts vs fs := by
  have := h.append (.nil hvs)
  rwa [List.append_nil] at this

theorem snoc (h : Reported stop ts us fs) (hf : f.StandsAt stop us) :
    Reported stop ts us.tail (fs ++ [f]) :=
  h.append (.cons (List.suffix_refl us) hf (.nil (List.suffix_refl _)))

end Reported

def Told (c d : Cursor) (vs : List Token) : Prop :=
  d.stop = c.stop ∧ ∃ fs, d.faults = c.faults ++ fs ∧ Reported c.stop c.rest vs fs

namespace Told

variable {c c₁ d : Cursor}

theorem suffix (h : Told c d vs) : vs <:+ c.rest := by
  obtain ⟨-, fs, -, hfs⟩ := h
  exact hfs.suffix

theorem narrow (h : Told c d us) (hvs : vs <:+ us) : Told c d vs := by
  obtain ⟨hstop, fs, hfaults, hfs⟩ := h
  exact ⟨hstop, fs, hfaults, hfs.narrow hvs⟩

theorem of_ahead (h : c.Ahead d) : Told c d d.rest :=
  ⟨h.stop, [], by rw [h.faults, List.append_nil], .nil h.suffix⟩

theorem trans (h : Told c c₁ c₁.rest) (h' : Told c₁ d vs) : Told c d vs := by
  obtain ⟨hstop, fs, hfaults, hfs⟩ := h
  obtain ⟨hstop', gs, hfaults', hgs⟩ := h'
  rw [hstop] at hgs
  refine ⟨hstop'.trans hstop, fs ++ gs, ?_, hfs.append hgs⟩
  rw [hfaults', hfaults, List.append_assoc]

theorem ahead (h : Told c c₁ vs) (h' : c₁.Ahead d) : Told c d vs := by
  obtain ⟨hstop, fs, hfaults, hfs⟩ := h
  exact ⟨h'.stop.trans hstop, fs, h'.faults.trans hfaults, hfs⟩

theorem record (h : Told c d us) (hf : f.StandsAt c.stop us) :
    Told c { d with faults := d.faults ++ [f] } us.tail := by
  obtain ⟨hstop, fs, hfaults, hfs⟩ := h
  refine ⟨hstop, fs ++ [f], ?_, hfs.snoc hf⟩
  show d.faults ++ [f] = c.faults ++ (fs ++ [f])
  rw [hfaults, List.append_assoc]

end Told

theorem Cursor.rest_next (c : Cursor) : c.next.rest = c.rest.tail := by
  obtain ⟨rest, last, stop, nextId, faults⟩ := c
  cases rest <;> rfl

namespace Reader

variable {α β : Type} {r : Reader α} {k : α → Reader β} {c c₁ d : Cursor} {bound : Nat}

/-- What a reader has reported on its way. If it fails, the reason stands at a token behind which the
cursor may have gone, and is yet to be recorded. -/
def Tells (c : Cursor) : Except ParseFault α → Cursor → Prop
  | .ok _, d => Told c d d.rest
  | .error fault, d => ∃ us, d.rest <:+ us ∧ fault.StandsAt c.stop us ∧ Told c d us

def Reports (r : Reader α) : Prop := ∀ c, Meets r c (Tells c)

theorem Tells.suffix {x : Except ParseFault α} (h : Tells c x d) : d.rest <:+ c.rest := by
  cases x with
  | ok a => exact Told.suffix h
  | error fault =>
    obtain ⟨us, hus, -, htold⟩ := h
    exact hus.trans htold.suffix

theorem Tells.after {x : Except ParseFault α} (h : Tells c₁ x d) (hc : Told c c₁ c₁.rest) :
    Tells c x d := by
  cases x with
  | ok a => exact hc.trans h
  | error fault =>
    obtain ⟨us, hus, hfault, htold⟩ := h
    exact ⟨us, hus, hc.1 ▸ hfault, hc.trans htold⟩

theorem Reports.bind (h : Reports r) (hk : ∀ a, Reports (k a)) : Reports (r >>= k) := by
  intro c
  apply meets_bind.mpr
  apply (h c).imp
  intro x c₁ hx
  cases x with
  | ok a => exact (hk a c₁).imp fun _ _ h₁ => h₁.after hx
  | error fault => exact hx

theorem Scans.reports (h : Scans r) : Reports r := by
  intro c
  apply (h c).imp
  rintro x d ⟨hahead, hfault⟩
  cases x with
  | ok a => exact .of_ahead hahead
  | error fault =>
    obtain ⟨hsyntactic, hspan⟩ := hfault fault rfl
    refine ⟨d.rest, List.suffix_refl _, ⟨hsyntactic, ?_⟩, .of_ahead hahead⟩
    rw [hspan, ← hahead.stop]
    rfl

theorem reports_pure (a : α) : Reports (pure a) := (scans_pure a).reports

theorem reports_advance : Reports advance := scans_advance.reports

theorem reports_eat (k : TokenKind) : Reports (eat k) := (scans_eat k).reports

theorem reports_expect (k : TokenKind) : Reports (expect k) := (scans_expect k).reports

theorem reports_unexpected (expected : String) : Reports (unexpected expected : Reader α) :=
  (scans_unexpected expected).reports

theorem meets_expect {f : Span → Reader β} {Q : Except ParseFault β → Cursor → Prop} {k : TokenKind}
    (hk : c.kind? = some k) : Meets (expect k >>= f) c Q ↔ Meets (f c.here) c.next Q := by
  rw [expect, bind_assoc, meets_here, bind_assoc, meets_sees, hk, if_pos (beq_self_eq_true _)]
  exact Iff.rfl

theorem reports_freshId : Reports freshId :=
  fun _ => ⟨rfl, [], (List.append_nil _).symm, .nil (List.suffix_refl _)⟩

theorem reports_paramsWithin (bound : Nat) : Reports (paramsWithin bound) := by
  induction bound with
  | zero => exact reports_unexpected _
  | succ bound ih =>
    apply (scans_expectIdent _).reports.bind
    intro _
    apply scans_optionalType.reports.bind
    intro type
    apply reports_freshId.bind
    intro id
    apply (reports_eat _).bind
    intro eaten
    split
    · exact ih.bind fun _ => reports_pure _
    · exact reports_pure _

theorem reports_signature : Reports signature := by
  -- what is left to do once the parameters have been read
  have hrest : ∀ params : List Param, Reports (do
      let _ ← expect (.mark .parenClose)
      let result ← optionalType
      let _ ← expect (.mark .arrow)
      if ← sees (.mark .braceOpen) then
        return (params, result)
      else
        throw (.expressionBody (← here))) := by
    intro params
    apply (reports_expect _).bind
    intro _
    apply scans_optionalType.reports.bind
    intro result
    apply (reports_expect _).bind
    intro _ c
    rw [meets_sees]
    split
    · exact reports_pure _ c
    · exact ⟨c.rest, List.suffix_refl _, ⟨trivial, rfl⟩, .of_ahead (.refl c)⟩
  intro c
  unfold signature
  rw [meets_sees]
  split
  · exact hrest [] c
  · rw [meets_get]
    exact (reports_paramsWithin _).bind hrest c

theorem reports_succeeds (r : Reader α) : Reports (succeeds r) :=
  fun c => Told.of_ahead (.refl c)

section Turns

variable {nested : Bool}

def loopEnds (nested : Bool) (c : Cursor) : Bool :=
  c.rest.isEmpty || (nested && c.kind? == some (.mark .braceClose))

/-- What becomes of a statement. One that cannot be read is recorded and skipped. -/
def settle (nested : Bool) : Except ParseFault Stmt → Reader (Option Stmt)
  | .ok statement => return some statement
  | .error fault => do
    record fault
    skipStatement nested
    return none

def turn (bound : Nat) (nested : Bool) : Reader (Option Stmt) := do
  settle nested (← attempt (statementWithin bound))

theorem meets_statementsWithin {Q : Except ParseFault (List Stmt) → Cursor → Prop} :
    Meets (statementsWithin (bound + 1) nested) c Q ↔
      Meets (if loopEnds nested c then pure [] else do
        let read ← turn bound nested
        return read.toList ++ (← statementsWithin bound nested)) c Q := by
  rw [statementsWithin, meets_atEnd, meets_sees, loopEnds]
  split
  · exact Iff.rfl
  · rw [turn, bind_assoc, meets_attempt, meets_attempt]
    cases ((statementWithin bound).run c).1 with
    | ok statement => exact Iff.rfl
    | error fault =>
      simp only [settle, bind_assoc, pure_bind, Option.toList_none, List.nil_append, bind_pure]

theorem run_statementsWithin_end (h : loopEnds nested c = true) :
    (statementsWithin bound nested).run c = (.ok [], c) := by
  cases bound with
  | zero => rw [statementsWithin]; rfl
  | succ bound =>
    have hmeets : Meets (statementsWithin (bound + 1) nested) c fun x d => (x, d) = (.ok [], c) := by
      rw [meets_statementsWithin, if_pos h]
      exact rfl
    exact hmeets

theorem meets_skipStatement {Q : Except ParseFault Unit → Cursor → Prop} :
    Meets (skipStatement nested) c Q ↔
      Meets (do let _ ← eat (.mark .semicolon)) (c.skipUntil (endsSkip nested)) Q := Iff.rfl

theorem ahead_skipStatement (nested : Bool) (c : Cursor) :
    Meets (skipStatement nested) c fun x d => x = .ok () ∧ c.Ahead d := by
  have hahead : c.Ahead (c.skipUntil (endsSkip nested)) := ⟨List.dropWhile_suffix _, rfl, rfl, rfl⟩
  rw [meets_skipStatement, eat, bind_assoc, meets_sees]
  split
  · exact ⟨rfl, hahead.trans (Cursor.ahead_next _)⟩
  · exact ⟨rfl, hahead⟩

theorem skipStatement_passes (h : (nested && c.kind? == some (.mark .braceClose)) = false) :
    Meets (skipStatement nested) c fun x d => x = .ok () ∧ c.Ahead d ∧ d.rest <:+ c.rest.tail := by
  cases hrest : c.rest with
  | nil =>
    apply (ahead_skipStatement nested c).imp
    rintro x d ⟨hx, hahead⟩
    have hsuffix := hahead.suffix
    rw [hrest] at hsuffix
    exact ⟨hx, hahead, hsuffix⟩
  | cons t rest =>
    have hkind : c.kind? = some t.kind := by rw [Cursor.kind?, hrest]; rfl
    have hnext : c.next.rest = rest := by rw [Cursor.next, hrest]
    rw [meets_skipStatement]
    cases ht : endsSkip nested t.kind with
    | true =>
      -- a semicolon is read where it stands
      have hsemicolon : (c.kind? == some (.mark .semicolon)) = true := by
        rw [endsSkip, Bool.or_eq_true] at ht
        rw [hkind] at h ⊢
        exact ht.resolve_right (Bool.eq_false_iff.mp h)
      rw [Cursor.skipUntil_stop hrest ht, eat, bind_assoc, meets_sees, if_pos hsemicolon]
      exact ⟨rfl, c.ahead_next, hnext ▸ List.suffix_refl c.next.rest⟩
    | false =>
      rw [Cursor.skipUntil_next hrest ht, ← meets_skipStatement]
      apply (ahead_skipStatement nested c.next).imp
      rintro x d ⟨hx, hahead⟩
      exact ⟨hx, c.ahead_next.trans hahead, hnext ▸ hahead.suffix⟩

theorem skipStatement_stays (hk : c.kind? = some (.mark .braceClose)) :
    (skipStatement true).run c = (.ok (), c) := by
  obtain ⟨t, rest, hrest, -⟩ := Cursor.exists_token hk
  have ht : endsSkip true t.kind = true := by
    have hkind : t.kind = .mark .braceClose := by
      rw [Cursor.kind?, hrest] at hk
      exact Option.some.inj hk
    rw [hkind]
    rfl
  have hmeets : Meets (skipStatement true) c fun x d => (x, d) = (.ok (), c) := by
    rw [meets_skipStatement, Cursor.skipUntil_stop hrest ht, eat, bind_assoc, meets_sees, hk]
    exact rfl
  exact hmeets

/-- What is reported up to `d`. The closing brace of a block may have been reported before it is read. -/
def Recovered (nested : Bool) (c d : Cursor) : Prop :=
  Told c d d.rest ∨
    nested = true ∧ d.kind? = some (.mark .braceClose) ∧ d.rest <:+ c.rest ∧ Told c d d.rest.tail

theorem Recovered.after (h : Recovered nested c₁ d) (hc : Told c c₁ c₁.rest) : Recovered nested c d := by
  apply h.imp hc.trans
  rintro ⟨hnested, hk, hsuffix, htold⟩
  exact ⟨hnested, hk, hsuffix.trans hc.suffix, hc.trans htold⟩

/-- A statement that cannot be read is reported once, at a token that is skipped or at the closing brace
of its block. -/
theorem settle_error {us : List Token} {fault : ParseFault} (htold : Told c c₁ us)
    (hus : c₁.rest <:+ us) (hfault : fault.StandsAt c.stop us) :
    Meets (settle nested (.error fault)) c₁ fun x d => (∃ read, x = .ok read) ∧ Recovered nested c d := by
  have htail : c₁.rest.tail <:+ us.tail := by
    obtain ⟨before, rfl⟩ := hus
    cases before with
    | nil => exact List.suffix_refl _
    | cons t before => exact (List.tail_suffix _).trans (List.suffix_append _ _)
  have hrecorded := (htold.record hfault).narrow htail
  unfold settle record
  rw [meets_modify]
  apply meets_bind.mpr
  cases hclose : nested && c₁.kind? == some (.mark .braceClose) with
  | true =>
    obtain ⟨rfl, hk⟩ := Bool.and_eq_true_iff.mp hclose
    have hk' : c₁.kind? = some (.mark .braceClose) := beq_iff_eq.mp hk
    have hstays : (skipStatement true).run { c₁ with faults := c₁.faults ++ [fault] } =
        (.ok (), { c₁ with faults := c₁.faults ++ [fault] }) := skipStatement_stays hk'
    unfold Meets
    rw [hstays]
    exact ⟨⟨none, rfl⟩, .inr ⟨rfl, hk', hus.trans htold.suffix, hrecorded⟩⟩
  | false =>
    have hpasses : Meets (skipStatement nested) { c₁ with faults := c₁.faults ++ [fault] } _ :=
      skipStatement_passes hclose
    apply hpasses.imp
    rintro x d ⟨rfl, hahead, hsuffix⟩
    exact ⟨⟨none, rfl⟩, .inl ((hrecorded.narrow hsuffix).ahead hahead)⟩

theorem turn_recovers (h : Reports (statementWithin bound)) (nested : Bool) (c : Cursor) :
    Meets (turn bound nested) c fun x d => (∃ read, x = .ok read) ∧ Recovered nested c d := by
  rw [turn, meets_attempt]
  have hstatement : Tells c ((statementWithin bound).run c).1 ((statementWithin bound).run c).2 := h c
  cases hx : ((statementWithin bound).run c).1 with
  | ok statement =>
    rw [hx] at hstatement
    exact ⟨⟨_, rfl⟩, .inl hstatement⟩
  | error fault =>
    rw [hx] at hstatement
    obtain ⟨us, hus, hfault, htold⟩ := hstatement
    exact settle_error htold hus hfault

def Recovers (nested : Bool) (r : Reader (List Stmt)) : Prop :=
  ∀ c, Meets r c fun x d => (∃ statements, x = .ok statements) ∧ Recovered nested c d

theorem recovers_nil (nested : Bool) : Recovers nested (pure []) :=
  fun c => ⟨⟨[], rfl⟩, .inl (.of_ahead (.refl c))⟩

theorem recovers_succ (h : Reports (statementWithin bound))
    (hloop : Recovers nested (statementsWithin bound nested)) :
    Recovers nested (statementsWithin (bound + 1) nested) := by
  intro c
  rw [meets_statementsWithin]
  split
  · exact recovers_nil nested c
  · apply meets_bind.mpr
    apply (turn_recovers h nested c).imp
    rintro x c₁ ⟨⟨read, rfl⟩, htold | ⟨rfl, hk, hclosed⟩⟩
    · apply meets_bind.mpr
      apply (hloop c₁).imp
      rintro y d ⟨⟨statements, rfl⟩, hd⟩
      exact ⟨⟨_, rfl⟩, hd.after htold⟩
    · -- the block ends at the brace
      have hend : loopEnds true c₁ = true := by
        rw [loopEnds, hk, Bool.true_and, beq_self_eq_true, Bool.or_true]
      apply meets_bind.mpr
      unfold Meets
      rw [run_statementsWithin_end hend]
      exact ⟨⟨_, rfl⟩, .inr ⟨rfl, hk, hclosed⟩⟩

end Turns

structure ProgramsReport (bound : Nat) : Prop where
  expr : Reports (exprWithin bound)
  chain : Reports (chainWithin bound)
  more : ∀ left, Reports (moreWithin bound left)
  operand : Reports (operandWithin bound)
  args : Reports (argsWithin bound)
  elements : Reports (elementsWithin bound)
  properties : Reports (propertiesWithin bound)
  block : Reports (blockWithin bound)
  statements : ∀ nested, Recovers nested (statementsWithin bound nested)
  statement : Reports (statementWithin bound)

namespace ProgramsReport

theorem expr_succ (h : ProgramsReport bound) : Reports (exprWithin (bound + 1)) := by
  apply h.chain.bind
  intro test
  apply (reports_eat _).bind
  intro eaten
  split
  · apply h.expr.bind
    intro consequent
    apply (reports_expect _).bind
    intro _
    exact h.expr.bind fun alternate => reports_freshId.bind fun id => reports_pure _
  · exact reports_pure test

theorem chain_succ (h : ProgramsReport bound) : Reports (chainWithin (bound + 1)) :=
  h.operand.bind h.more

theorem more_succ (h : ProgramsReport bound) (left : Expr) : Reports (moreWithin (bound + 1) left) := by
  apply scans_kind?.reports.bind
  intro next
  split
  · apply reports_advance.bind
    intro _
    exact h.operand.bind fun right => reports_freshId.bind fun id => h.more _
  · exact reports_pure left

theorem operand_succ (h : ProgramsReport bound) : Reports (operandWithin (bound + 1)) := by
  intro c
  unfold operandWithin
  rw [meets_here, meets_kind?]
  split
  · refine (reports_succeeds arrowHead).bind (fun seen => ?_) c
    split
    · apply reports_advance.bind
      intro _
      apply reports_signature.bind
      intro head
      exact h.block.bind fun body => reports_freshId.bind fun id => reports_pure _
    · apply reports_advance.bind
      intro _
      exact h.expr.bind fun inner => (reports_expect _).bind fun _ => reports_pure inner
  · exact reports_advance.bind (fun _ => reports_freshId.bind fun id => reports_pure _) c
  · -- a number that cannot be represented is reported once it has been read
    rename_i text hk
    rw [advance, meets_modify]
    split
    · apply (reports_freshId.bind (fun id => reports_pure _) c.next).imp
      exact fun _ _ h₁ => h₁.after (.of_ahead c.ahead_next)
    · exact ⟨c.rest, c.ahead_next.suffix, ⟨trivial, rfl⟩,
        (Told.of_ahead (.refl c)).ahead c.ahead_next⟩
  · exact reports_advance.bind (fun _ => reports_freshId.bind fun id => reports_pure _) c
  · rename_i name hk
    refine reports_advance.bind (fun _ => reports_freshId.bind fun id => ?_) c
    apply (reports_eat _).bind
    intro eaten
    split
    · have hrest : ∀ args, Reports (do
          let stop ← expect (.mark .parenClose)
          return Expr.call ⟨← freshId, c.here.merge stop⟩ (.ident ⟨id, c.here⟩ name) args) :=
        fun _ => (reports_expect _).bind fun stop => reports_freshId.bind fun id => reports_pure _
      apply (scans_sees _).reports.bind
      intro closed
      split
      · exact hrest []
      · exact h.args.bind hrest
    · exact reports_pure _
  · refine reports_advance.bind (fun _ => h.elements.bind fun elements => ?_) c
    exact (reports_expect _).bind fun stop => reports_freshId.bind fun id => reports_pure _
  · refine reports_advance.bind (fun _ => h.properties.bind fun properties => ?_) c
    exact (reports_expect _).bind fun stop => reports_freshId.bind fun id => reports_pure _
  · exact reports_unexpected _ c

theorem args_succ (h : ProgramsReport bound) : Reports (argsWithin (bound + 1)) := by
  apply h.expr.bind
  intro arg
  apply (reports_eat _).bind
  intro eaten
  split
  · exact h.args.bind fun args => reports_pure _
  · exact reports_pure [arg]

theorem elements_succ (h : ProgramsReport bound) : Reports (elementsWithin (bound + 1)) := by
  apply scans_atEnd.reports.bind
  intro ended
  apply (scans_sees _).reports.bind
  intro closed
  split
  · exact reports_pure []
  · apply h.expr.bind
    intro element
    apply (reports_eat _).bind
    intro eaten
    split
    · exact h.elements.bind fun elements => reports_pure _
    · exact reports_pure [element]

theorem properties_succ (h : ProgramsReport bound) : Reports (propertiesWithin (bound + 1)) := by
  apply scans_atEnd.reports.bind
  intro ended
  apply (scans_sees _).reports.bind
  intro closed
  split
  · exact reports_pure []
  · apply scans_here.reports.bind
    intro start
    apply scans_kind?.reports.bind
    intro next
    split
    · exact reports_unexpected _
    · apply reports_advance.bind
      intro _
      apply (reports_expect _).bind
      intro _
      apply h.expr.bind
      intro value
      apply reports_freshId.bind
      intro id
      apply (reports_eat _).bind
      intro eaten
      split
      · exact h.properties.bind fun properties => reports_pure _
      · exact reports_pure _

theorem block_succ (h : ProgramsReport bound) : Reports (blockWithin (bound + 1)) := by
  apply (reports_expect _).bind
  intro start c
  apply meets_bind.mpr
  apply (h.statements true c).imp
  rintro x c₁ ⟨⟨statements, rfl⟩, htold | ⟨-, hk, -, htold⟩⟩
  · have hrest : Reports (do
        let stop ← expect (.mark .braceClose)
        return (⟨⟨← freshId, start.merge stop⟩, statements⟩ : Block)) :=
      (reports_expect _).bind fun stop => reports_freshId.bind fun id => reports_pure _
    exact (hrest c₁).imp fun _ _ h₁ => h₁.after htold
  · -- the brace is read, so it does not matter whether it has been reported
    have hread : Told c c₁.next c₁.next.rest := by
      rw [Cursor.rest_next]
      exact htold.ahead c₁.ahead_next
    apply (meets_expect hk).mpr
    apply (reports_freshId.bind (fun id => reports_pure _) c₁.next).imp
    exact fun _ _ h₁ => h₁.after hread

theorem const_reports (h : ProgramsReport bound) (start : Span) : Reports (do
    let (name, place) ← expectIdent "variable name"
    let ident : Ident := ⟨⟨← freshId, place⟩, name⟩
    let type ← optionalType
    let _ ← expect (.mark .equals)
    let value ← exprWithin bound
    let span := start.merge (← get).last
    let _ ← eat (.mark .semicolon)
    return Stmt.const ⟨← freshId, span⟩ ident type value) := by
  apply (scans_expectIdent _).reports.bind
  intro name
  apply reports_freshId.bind
  intro id
  apply scans_optionalType.reports.bind
  intro type
  apply (reports_expect _).bind
  intro _
  apply h.expr.bind
  intro value
  apply scans_get.reports.bind
  intro _
  exact (reports_eat _).bind fun _ => reports_freshId.bind fun id => reports_pure _

theorem return_reports (h : ProgramsReport bound) (start : Span) : Reports (do
    let bare := (← atEnd) || (← sees (.mark .semicolon)) || (← sees (.mark .braceClose))
    let argument ← if bare then pure none else some <$> exprWithin bound
    let span := start.merge (← get).last
    let _ ← eat (.mark .semicolon)
    return Stmt.ret ⟨← freshId, span⟩ argument) := by
  -- what is left to do once the argument has been read
  have hrest : ∀ argument, Reports (do
      let span := start.merge (← get).last
      let _ ← eat (.mark .semicolon)
      return Stmt.ret ⟨← freshId, span⟩ argument) := by
    intro argument
    apply scans_get.reports.bind
    intro _
    exact (reports_eat _).bind fun _ => reports_freshId.bind fun id => reports_pure _
  apply scans_atEnd.reports.bind
  intro ended
  apply (scans_sees _).reports.bind
  intro terminated
  apply (scans_sees _).reports.bind
  intro closed
  dsimp only
  split
  · exact hrest none
  · rw [map_eq_pure_bind, bind_assoc]
    exact h.expr.bind fun e => hrest (some e)

/-- A statement that cannot be read where it starts is left alone; any other is read or given up behind
its first token. -/
theorem statement_starts (h : ProgramsReport bound) (c : Cursor) :
    Meets (statementWithin (bound + 1)) c fun x d =>
      (∃ expected, x = .error (c.unexpected expected)) ∧ d = c ∨ c.rest ≠ [] ∧ Tells c.next x d := by
  have hread : ∀ k, c.kind? = some k → c.rest ≠ [] := by
    intro k hk hnil
    rw [Cursor.kind?, hnil] at hk
    cases hk
  rw [statementWithin, meets_here, meets_kind?]
  split
  · rename_i hk
    rw [advance, meets_modify]
    exact (h.const_reports c.here c.next).imp fun _ _ htells => .inr ⟨hread _ hk, htells⟩
  · rename_i hk
    rw [advance, meets_modify]
    exact (h.return_reports c.here c.next).imp fun _ _ htells => .inr ⟨hread _ hk, htells⟩
  · exact .inl ⟨⟨_, rfl⟩, rfl⟩

theorem statement_succ (h : ProgramsReport bound) : Reports (statementWithin (bound + 1)) := by
  intro c
  apply (h.statement_starts c).imp
  rintro x d (⟨⟨expected, rfl⟩, rfl⟩ | ⟨-, htells⟩)
  · exact reports_unexpected expected d
  · exact htells.after (.of_ahead c.ahead_next)

end ProgramsReport

theorem programsReport (bound : Nat) : ProgramsReport bound := by
  induction bound with
  | zero =>
    exact
      { expr := reports_unexpected _
        chain := reports_unexpected _
        more := reports_pure
        operand := reports_unexpected _
        args := reports_unexpected _
        elements := reports_unexpected _
        properties := reports_unexpected _
        block := reports_unexpected _
        statements := recovers_nil
        statement := reports_unexpected _ }
  | succ bound ih =>
    exact
      { expr := ih.expr_succ
        chain := ih.chain_succ
        more := ih.more_succ
        operand := ih.operand_succ
        args := ih.args_succ
        elements := ih.elements_succ
        properties := ih.properties_succ
        block := ih.block_succ
        statements := fun nested => recovers_succ ih.statement (ih.statements nested)
        statement := ih.statement_succ }

end Reader

end ArrowCheck
