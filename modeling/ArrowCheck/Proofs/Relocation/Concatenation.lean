import ArrowCheck.Proofs.Relocation.Programs
import ArrowCheck.Proofs.Token.Appending

namespace ArrowCheck

open Placement

namespace Reader

variable {ρ : Placement} {c c₁ d : Cursor} {bound bound' : Nat} {s : Stmt} {ss : List Stmt}
  {fault : ParseFault}

section Runs

theorem run_statements_nil (h : c.rest = []) : (statementsWithin bound false).run c = (.ok [], c) := by
  obtain ⟨_, last, stop, nextId, faults⟩ := c
  cases h
  cases bound <;> rfl

theorem meets_statements {Q : Except ParseFault (List Stmt) → Cursor → Prop}
    {x : Except ParseFault Stmt} (h : c.rest ≠ []) (hs : (statementWithin bound).run c = (x, c₁))
    (hok : ∀ s, x = .ok s → Meets (do return s :: (← statementsWithin bound false)) c₁ Q)
    (herror : ∀ fault, x = .error fault → Meets (do
      record fault
      skipStatement false
      statementsWithin bound false) c₁ Q) : Meets (statementsWithin (bound + 1) false) c Q := by
  have hattempt : (attempt (statementWithin bound)).run c = (.ok x, c₁) := by rw [run_attempt, hs]
  have hgo : ¬ (c.rest.isEmpty || (false && c.kind? == some (.mark .braceClose))) = true := by
    simpa using h
  unfold statementsWithin
  rw [meets_atEnd, meets_sees, if_neg hgo]
  apply meets_bind.mpr
  unfold Meets
  rw [hattempt]
  cases x with
  | ok s => exact hok s rfl
  | error fault => exact herror fault rfl

theorem run_statements_ok (h : c.rest ≠ []) (hs : (statementWithin bound).run c = (.ok s, c₁))
    (hss : (statementsWithin bound false).run c₁ = (.ok ss, d)) :
    (statementsWithin (bound + 1) false).run c = (.ok (s :: ss), d) := by
  have hmeets : Meets (statementsWithin (bound + 1) false) c fun x e => (x, e) = (.ok (s :: ss), d) := by
    apply meets_statements h hs
    · intro _ heq
      cases heq
      apply meets_bind.mpr
      unfold Meets
      rw [hss]
      exact rfl
    · exact nofun
  exact hmeets

theorem run_statements_error (h : c.rest ≠ [])
    (hs : (statementWithin bound).run c = (.error fault, c₁)) :
    (statementsWithin (bound + 1) false).run c =
      (do skipStatement false; statementsWithin bound false : Reader (List Stmt)).run
        { c₁ with faults := c₁.faults ++ [fault] } := by
  have hmeets : Meets (statementsWithin (bound + 1) false) c fun x e => (x, e) =
      (do skipStatement false; statementsWithin bound false : Reader (List Stmt)).run
        { c₁ with faults := c₁.faults ++ [fault] } := by
    apply meets_statements h hs
    · exact nofun
    · intro _ heq
      cases heq
      exact rfl
  exact hmeets

end Runs

theorem faults_statements_error (h : c.rest ≠ [])
    (hs : (statementWithin bound).run c = (.error fault, c₁)) :
    ((statementsWithin (bound + 1) false).run c).2.faults ≠ [] := by
  rw [run_statements_error h hs]
  intro hquiet
  have hsince : Meets (do skipStatement false; statementsWithin bound false : Reader (List Stmt))
      { c₁ with faults := c₁.faults ++ [fault] }
      (Follows { c₁ with faults := c₁.faults ++ [fault] } fun _ _ => True) := by
    apply follows_reads (.start _) (reads_skipStatement false)
    intro _ c₂ h₂ _
    exact follows_last h₂ (programReaders (g := false) bound).statements fun _ _ _ _ => trivial
  exact absurd (hsince hquiet).1 (by simp)

/-- Statements that end in a semicolon and are read without a fault are read from the other text, too,
and reading goes on there behind them. -/
theorem statements_cursor (hclosed : c.rest = [] ∨ ρ.Hides c)
    (hbound : 4 * c.rest.length + 4 ≤ bound) (hle : bound ≤ bound')
    (hmore : 4 * (c.rest.length + ρ.more.length) + 4 ≤ bound')
    (hrun : (statementsWithin bound false).run c = (.ok ss, d)) (hquiet : d.faults = []) :
    d.rest = [] ∧ ∃ bound'', 4 * ρ.more.length + 4 ≤ bound'' ∧ ∀ ss' e,
      (statementsWithin bound'' false).run (ρ.cursor d) = (.ok ss', e) →
      (statementsWithin bound' false).run (ρ.cursor c) =
        (.ok (relocateStmts ρ.toRelocation ss ++ ss'), e) := by
  induction bound generalizing c bound' ss with
  | zero => omega
  | succ bound ih =>
    by_cases hrest : c.rest = []
    · -- nothing is left of the first text
      rw [run_statements_nil hrest] at hrun
      cases hrun
      exact ⟨hrest, bound', by omega, fun ss' e h => h⟩
    obtain ⟨n, rfl⟩ : ∃ n, bound = n + 1 := Nat.exists_eq_succ_of_ne_zero (by
      have := List.length_pos_of_ne_nil hrest
      omega)
    obtain ⟨n', rfl⟩ : ∃ n', bound' = n' + 2 := Nat.exists_eq_add_of_le' (by omega)
    have hhides : ρ.Hides c := hclosed.resolve_left hrest
    cases hs : (statementWithin (n + 1)).run c with
    | mk x c₁ =>
      cases x with
      | error fault =>
        have hfault := faults_statements_error hrest hs
        rw [hrun] at hfault
        exact absurd hquiet hfault
      | ok s =>
        obtain ⟨ss₁, d₁, hrun₁⟩ := exists_run_statements (n + 1) c₁
        have hwhole := run_statements_ok hrest hs hrun₁
        rw [hrun] at hwhole
        cases hwhole
        have hmirrored : ProgramsMirrored ρ n n' := programsMirrored (by omega)
        have himage := statement_cursor hmirrored hhides (by omega) hs
        have hway : Way AnyToken 1 c c₁ := by
          have hpassed := (hmirrored.statement_succ (c := c) (by omega)).1
          rwa [hs] at hpassed
        have hlength := hway.length
        have hclosed₁ : c₁.rest = [] ∨ ρ.Hides c₁ := by
          by_cases hrest₁ : c₁.rest = []
          · exact .inl hrest₁
          · exact .inr (hhides.of_ne_nil hway.suffix hrest₁)
        have hle₁ : n + 1 ≤ n' + 1 := by omega
        obtain ⟨hd, bound'', hroom, hgo⟩ := ih hclosed₁ (by omega) hle₁ (by omega) hrun₁
        refine ⟨hd, bound'', hroom, fun ss' e he => ?_⟩
        have hrest' : (ρ.cursor c).rest ≠ [] := by
          have hle' := length_cursor ρ c
          have hpos := List.length_pos_of_ne_nil hrest
          exact List.ne_nil_of_length_pos (by omega)
        exact run_statements_ok hrest' himage (hgo ss' e he)

section Last

variable (l : Span)

theorem skipStatement_last (h : c.rest ≠ []) :
    (skipStatement false).run { c with last := l } = (skipStatement false).run c := by
  obtain ⟨rest, last, stop, nextId, faults⟩ := c
  cases rest with
  | nil => exact absurd rfl h
  | cons t rest =>
    cases ht : endsSkip false t.kind with
    | true =>
      have hsemicolon : t.kind = .mark .semicolon := by simpa [endsSkip] using ht
      obtain ⟨_, span⟩ := t
      cases hsemicolon
      rfl
    | false =>
      have hskip : ∀ last : Span, (skipStatement false).run ⟨t :: rest, last, stop, nextId, faults⟩ =
          (do let _ ← eat (.mark .semicolon) : Reader Unit).run
            ((Cursor.mk rest t.span stop nextId faults).skipUntil (endsSkip false)) := by
        intro last
        have hnext := Cursor.skipUntil_next (c := ⟨t :: rest, last, stop, nextId, faults⟩) rfl ht
        exact congrArg (do let _ ← eat (.mark .semicolon) : Reader Unit).run hnext
      rw [hskip, hskip]

theorem statement_last (h : c.rest ≠ []) (bound : Nat) :
    (statementWithin bound).run { c with last := l } = (statementWithin bound).run c ∨
      ∃ fault, (statementWithin bound).run c = (.error fault, c) ∧
        (statementWithin bound).run { c with last := l } = (.error fault, { c with last := l }) := by
  obtain ⟨rest, last, stop, nextId, faults⟩ := c
  cases rest with
  | nil => exact absurd rfl h
  | cons t rest =>
    cases bound with
    | zero => exact .inr ⟨_, rfl, rfl⟩
    | succ bound =>
      obtain ⟨k, span⟩ := t
      cases k with
      | keyword word =>
        cases word with
        | const => exact .inl rfl
        | ret => exact .inl rfl
      | _ => exact .inr ⟨_, rfl, rfl⟩

theorem statements_last (bound : Nat) (c : Cursor) :
    ∃ l', (statementsWithin bound false).run { c with last := l } =
      (((statementsWithin bound false).run c).1,
        { ((statementsWithin bound false).run c).2 with last := l' }) := by
  by_cases hrest : c.rest = []
  · have hrest' : ({ c with last := l } : Cursor).rest = [] := hrest
    rw [run_statements_nil hrest, run_statements_nil hrest']
    exact ⟨l, rfl⟩
  have hrest' : ({ c with last := l } : Cursor).rest ≠ [] := hrest
  cases bound with
  | zero => exact ⟨l, rfl⟩
  | succ bound =>
    have hsame : (statementsWithin (bound + 1) false).run { c with last := l } =
        (statementsWithin (bound + 1) false).run c := by
      cases statement_last l hrest bound with
      | inl heq =>
        cases hs : (statementWithin bound).run c with
        | mk x c₁ =>
          rw [hs] at heq
          cases x with
          | ok s =>
            obtain ⟨ss, d, hss⟩ := exists_run_statements bound c₁
            rw [run_statements_ok hrest hs hss, run_statements_ok hrest' heq hss]
          | error fault => rw [run_statements_error hrest hs, run_statements_error hrest' heq]
      | inr hfail =>
        obtain ⟨fault, hs, hs'⟩ := hfail
        rw [run_statements_error hrest hs, run_statements_error hrest' hs', run_bind, run_bind]
        have hskip := skipStatement_last l (c := { c with faults := c.faults ++ [fault] }) hrest
        dsimp only at hskip ⊢
        rw [hskip]
    rw [hsame]
    exact ⟨_, rfl⟩

end Last

end Reader

open Reader

section Appending

variable (first second : String)

def front : Placement where
  toRelocation := .shift 0 0
  more := (Cursor.ofSource second).rest.map (Token.relocate (.shift first.utf8ByteSize 0))
  stop := fun _ => first.utf8ByteSize + second.utf8ByteSize
  before := (lexFaults second).map fun fault => .lexical (fault.relocate (.shift first.utf8ByteSize 0))

def behind (ids : Nat) : Placement where
  toRelocation := .shift first.utf8ByteSize ids
  more := []
  stop := (· + first.utf8ByteSize)
  before := []

variable {first}

theorem rest_ofSource_append (h : lexFaults first = [])
    (hend : Lexer.EndsStatement 0 first.toList (tokenize first)) :
    (Cursor.ofSource (first ++ second)).rest = (Cursor.ofSource first).rest ++
      (Cursor.ofSource second).rest.map (Token.relocate (.shift first.utf8ByteSize 0)) := by
  unfold Cursor.ofSource
  dsimp only
  rw [tokenize_append h hend second 0, List.filter_append, List.filter_map]
  rfl

theorem cursor_front (h : lexFaults first = [])
    (hend : Lexer.EndsStatement 0 first.toList (tokenize first)) :
    (front first second).cursor (Cursor.ofSource first) = Cursor.ofSource (first ++ second) := by
  have hstay : (Cursor.ofSource first).rest.map (Token.relocate (.shift 0 0)) =
      (Cursor.ofSource first).rest := List.map_id _
  have hfaults : (Cursor.ofSource (first ++ second)).faults = (lexFaults second).map fun fault =>
      .lexical (fault.relocate (.shift first.utf8ByteSize 0)) := by
    rw [Cursor.ofSource, lexFaults_append h hend second 0, List.map_map]
    rfl
  have hquiet : (Cursor.ofSource first).faults = [] := by
    rw [Cursor.ofSource, h]
    rfl
  have hrest := rest_ofSource_append second h hend
  rw [← hstay] at hrest
  apply Cursor.ext
  · exact hrest.symm
  · rfl
  · exact (String.utf8ByteSize_append).symm
  · rfl
  · rw [hfaults, cursor, hquiet]
    exact List.append_nil _

/-- The end of the first text is, but for the token before, the start of the second one. -/
theorem front_end {d : Cursor} (hrest : d.rest = []) (hquiet : d.faults = []) :
    (front first second).cursor d =
      { (behind first d.nextId).cursor (Cursor.ofSource second) with
        last := ((front first second).cursor d).last } := by
  apply Cursor.ext
  · rw [cursor, cursor, hrest]
    exact (List.append_nil _).symm
  · rfl
  · exact Nat.add_comm _ _
  · exact (Nat.zero_add _).symm
  · rw [cursor, cursor, hquiet, Cursor.ofSource]
    dsimp only [front, behind]
    rw [List.map_nil, List.append_nil, List.nil_append, List.map_map]
    rfl

theorem hides_ofSource {ρ : Placement}
    (hend : Lexer.EndsStatement 0 first.toList (tokenize first)) : ρ.Hides (Cursor.ofSource first) := by
  obtain ⟨t, ht, hkind, -⟩ := hend
  obtain ⟨ts, hts⟩ := List.getLast?_eq_some_iff.mp ht
  refine .inr ?_
  rw [Cursor.ofSource, hts, List.filter_append, List.filter_singleton, hkind]
  simp [TokenKind.isComment, TokenKind.isError, hkind]

theorem run_append {ss₁ ss₂ : List Stmt} {d₁ d₂ : Cursor} (h : lexFaults first = [])
    (hend : Lexer.EndsStatement 0 first.toList (tokenize first))
    (hrun₁ : (statementsWithin (4 * (Cursor.ofSource first).rest.length + 4) false).run
      (Cursor.ofSource first) = (.ok ss₁, d₁)) (hquiet : d₁.faults = [])
    (hrun₂ : (statementsWithin (4 * (Cursor.ofSource second).rest.length + 4) false).run
      (Cursor.ofSource second) = (.ok ss₂, d₂)) :
    ∃ last, (statementsWithin (4 * (Cursor.ofSource (first ++ second)).rest.length + 4) false).run
      (Cursor.ofSource (first ++ second)) =
        (.ok (ss₁ ++ relocateStmts (.shift first.utf8ByteSize d₁.nextId) ss₂),
          { (behind first d₁.nextId).cursor d₂ with last := last }) := by
  have hlength : (Cursor.ofSource (first ++ second)).rest.length =
      (Cursor.ofSource first).rest.length + (front first second).more.length := by
    rw [rest_ofSource_append second h hend, List.length_append]
    rfl
  have hmore : (front first second).more.length = (Cursor.ofSource second).rest.length :=
    List.length_map _
  have hle : 4 * (Cursor.ofSource first).rest.length + 4 ≤
      4 * (Cursor.ofSource (first ++ second)).rest.length + 4 := by omega
  obtain ⟨hrest, bound, hbound, hgo⟩ := statements_cursor (ρ := front first second)
    (.inr (hides_ofSource hend)) (Nat.le_refl _) hle (by omega) hrun₁ hquiet
  -- the second text from the place where the first one ends
  have hwhole := run_statements_whole (ρ := behind first d₁.nextId) ⟨rfl, rfl⟩ (Nat.le_refl _)
    (hmore ▸ hbound) hrun₂
  obtain ⟨last, hlast⟩ := statements_last ((front first second).cursor d₁).last bound
    ((behind first d₁.nextId).cursor (Cursor.ofSource second))
  rw [hwhole, ← front_end second hrest hquiet] at hlast
  have hrun := hgo _ _ hlast
  have hstay : relocateStmts (front first second).toRelocation ss₁ = ss₁ := relocateStmts_stay ss₁
  rw [cursor_front second h hend, hstay] at hrun
  exact ⟨last, hrun⟩

end Appending

/-- Behind a text that is read without a fault and ends in a semicolon, any text is read as it is alone,
its places further on by the bytes and its ids by the nodes of the first. -/
theorem parse_append (first second : String) (h : (parse first).faults = [])
    (hend : ∃ t, (tokenize first).getLast? = some t ∧ t.kind = .mark .semicolon ∧
      t.span.stop = first.utf8ByteSize) :
    (parse (first ++ second)).program.statements = (parse first).program.statements ++
        relocateStmts (.shift first.utf8ByteSize (parse first).nodeCount)
          (parse second).program.statements ∧
      (parse (first ++ second)).faults = (parse second).faults.map
        (ParseFault.relocate (.shift first.utf8ByteSize (parse first).nodeCount)) ∧
      (parse (first ++ second)).nodeCount = (parse second).nodeCount + (parse first).nodeCount := by
  have hlex := (spells_of_parse false h).1
  have hends : Lexer.EndsStatement 0 first.toList (tokenize first) := by
    obtain ⟨t, ht, hkind, hstop⟩ := hend
    refine ⟨t, ht, hkind, ?_⟩
    rw [hstop, byteLength_toList, Nat.zero_add]
  obtain ⟨ss₁, d₁, hrun₁⟩ :=
    exists_run_statements (4 * (Cursor.ofSource first).rest.length + 4) (Cursor.ofSource first)
  obtain ⟨ss₂, d₂, hrun₂⟩ :=
    exists_run_statements (4 * (Cursor.ofSource second).rest.length + 4) (Cursor.ofSource second)
  rw [parse_eq hrun₁] at h ⊢
  obtain ⟨last, hrun⟩ := run_append second hlex hends hrun₁ h hrun₂
  rw [parse_eq hrun₂, parse_eq hrun]
  exact ⟨rfl, rfl, rfl⟩

/-- The second text starts with a brace that closes nothing and holds a character that is no token. -/
theorem stray_brace_appended : ∃ first second, first = "const a = f(1);" ∧ second = "\x7d; return é b" ∧
    (parse first).faults = [] ∧
    (parse second).faults = [.lexical (.unexpected 10 'é'),
      .unexpectedToken "'const' or 'return'" "\x7d" ⟨0, 1⟩] ∧
    (parse (first ++ second)).faults = [.lexical (.unexpected 25 'é'),
      .unexpectedToken "'const' or 'return'" "\x7d" ⟨15, 16⟩] ∧
    (parse (first ++ second)).program.statements = (parse first).program.statements ++
      relocateStmts (.shift 15 5) (parse second).program.statements := by
  let first := "const a = f(1);"
  let second := "\x7d; return é b"
  have hfaults : (parse second).faults = [.lexical (.unexpected 10 'é'),
      .unexpectedToken "'const' or 'return'" "\x7d" ⟨0, 1⟩] := by decide +kernel
  have hquiet : (parse first).faults = [] := by decide +kernel
  have hcount : (parse first).nodeCount = 5 := by decide +kernel
  have hlast : (tokenize first).getLast? = some ⟨.mark .semicolon, ⟨14, 15⟩⟩ := by decide +kernel
  obtain ⟨hstatements, hshifted, -⟩ := parse_append first second hquiet ⟨_, hlast, rfl, rfl⟩
  rw [hcount] at hstatements
  rw [hfaults] at hshifted
  exact ⟨first, second, rfl, rfl, hquiet, hfaults, hshifted, hstatements⟩

end ArrowCheck
