import ArrowCheck.Proofs.Recovery.Reports

namespace ArrowCheck

namespace Placement

def stay : Placement := ⟨.shift 0 0, [], (· + 0), []⟩

theorem fault_stay (f : ParseFault) : f.relocate (.shift 0 0) = f := by
  cases f with
  | lexical f => cases f <;> rfl
  | _ => rfl

theorem cursor_stay (c : Cursor) : stay.cursor c = c := by
  have hfaults : c.faults.map (ParseFault.relocate (.shift 0 0)) = c.faults :=
    List.map_id'' fault_stay c.faults
  apply Cursor.ext
  · exact (List.append_nil _).trans (List.map_id _)
  · rfl
  · rfl
  · rfl
  · exact hfaults

theorem outcome_stay (x : Except ParseFault (List Stmt)) :
    stay.outcome (relocateStmts (.shift 0 0)) x = x := by
  cases x with
  | ok ss => exact congrArg Except.ok (relocateStmts_stay ss)
  | error fault => exact congrArg Except.error (fault_stay fault)

end Placement

namespace Reader

variable {c : Cursor} {bound : Nat} {nested : Bool}

theorem run_statementsWithin_of_le (h : 4 * c.rest.length + 4 ≤ bound) :
    (statementsWithin bound nested).run c =
      (statementsWithin (4 * c.rest.length + 4) nested).run c := by
  have hrun := ((programsMirrored (ρ := .stay) h).statements nested (Nat.le_refl _)).2 (.inl ⟨rfl, rfl⟩)
  rw [Placement.cursor_stay, Placement.cursor_stay] at hrun
  exact hrun.trans (Prod.ext (Placement.outcome_stay _) rfl)

theorem statement_passes (bound : Nat) (c : Cursor) :
    Meets (statementWithin bound) c fun x d =>
      (∃ fault, x = .error fault) ∧ d = c ∨ d.rest <:+ c.rest.tail := by
  cases bound with
  | zero => exact .inl ⟨⟨_, rfl⟩, rfl⟩
  | succ bound =>
    apply ((programsReport bound).statement_starts c).imp
    rintro x d (⟨⟨expected, hx⟩, hd⟩ | ⟨-, htells⟩)
    · exact .inl ⟨⟨_, hx⟩, hd⟩
    · exact .inr (c.rest_next ▸ htells.suffix)

theorem loopEnds_eq_false : loopEnds nested c = false ↔
    c.rest ≠ [] ∧ (nested && c.kind? == some (.mark .braceClose)) = false := by
  rw [loopEnds, Bool.or_eq_false_iff, List.isEmpty_eq_false_iff]

theorem settle_passes {c₁ : Cursor} (fault : ParseFault) (h : loopEnds nested c = false)
    (hc₁ : c₁ = c ∨ c₁.rest <:+ c.rest.tail) :
    Meets (settle nested (.error fault)) c₁ fun x d =>
      (∃ read, x = .ok read) ∧ d.rest <:+ c.rest.tail := by
  unfold settle record
  rw [meets_modify]
  apply meets_bind.mpr
  obtain rfl | hsuffix := hc₁
  · have hpasses : Meets (skipStatement nested) { c₁ with faults := c₁.faults ++ [fault] } _ :=
      skipStatement_passes (loopEnds_eq_false.mp h).2
    apply hpasses.imp
    rintro x d ⟨rfl, -, hd⟩
    exact ⟨⟨none, rfl⟩, hd⟩
  · apply (ahead_skipStatement nested _).imp
    rintro x d ⟨rfl, hahead⟩
    exact ⟨⟨none, rfl⟩, hahead.suffix.trans hsuffix⟩

theorem turn_passes (bound : Nat) (h : loopEnds nested c = false) :
    Meets (turn bound nested) c fun x d => (∃ read, x = .ok read) ∧ d.rest <:+ c.rest.tail := by
  rw [turn, meets_attempt]
  have hstatement := statement_passes bound c
  unfold Meets at hstatement
  cases hx : ((statementWithin bound).run c).1 with
  | ok statement =>
    rw [hx] at hstatement
    obtain ⟨⟨fault, hfault⟩, -⟩ | hsuffix := hstatement
    · cases hfault
    · exact ⟨⟨_, rfl⟩, hsuffix⟩
  | error fault =>
    apply settle_passes fault h
    exact hstatement.imp_left And.right

/-- The loop ends where it should, if it may take a turn for each token. -/
theorem loop_ends (h : c.rest.length < bound) :
    Meets (statementsWithin bound nested) c fun _ d => loopEnds nested d = true := by
  induction bound generalizing c with
  | zero => omega
  | succ bound ih =>
    rw [meets_statementsWithin]
    split
    · assumption
    · rename_i hgo
      have hgo' := Bool.eq_false_iff.mpr hgo
      apply meets_bind.mpr
      apply (turn_passes bound hgo').imp
      rintro x c₁ ⟨⟨read, rfl⟩, hsuffix⟩
      have hpos := List.length_pos_of_ne_nil (loopEnds_eq_false.mp hgo').1
      have hle := hsuffix.length_le
      rw [List.length_tail] at hle
      apply meets_bind.mpr
      apply (ih (c := c₁) (by omega)).imp
      intro y d hd
      cases y with
      | ok statements => exact hd
      | error fault => exact hd

theorem run_statementsWithin_turn (h : loopEnds nested c = false) :
    (statementsWithin (bound + 1) nested).run c = (do
      let read ← turn bound nested
      return read.toList ++ (← statementsWithin bound nested) : Reader (List Stmt)).run c := by
  have hmeets : Meets (statementsWithin (bound + 1) nested) c fun x d => (x, d) = (do
      let read ← turn bound nested
      return read.toList ++ (← statementsWithin bound nested) : Reader (List Stmt)).run c := by
    rw [meets_statementsWithin, if_neg (Bool.eq_false_iff.mp h)]
    exact rfl
  exact hmeets

/-- From any place in any list of tokens, reading goes on and comes to an end. As long as a loop over
statements does not end it takes turns, and each passes at least one token. The loop ends at the end of
the text or of its block, with the same result however large the depth is. Looking for the head of an
arrow function does nothing but move the cursor, which is put back. All tokens are read. -/
theorem reading_advances_to_end (c : Cursor) :
    (∀ bound nested, loopEnds nested c = false →
      (statementsWithin (bound + 1) nested).run c = (do
        let read ← turn bound nested
        return read.toList ++ (← statementsWithin bound nested) : Reader (List Stmt)).run c ∧
      ∃ passed, passed ≠ [] ∧ c.rest = passed ++ ((turn bound nested).run c).2.rest) ∧
    (∀ bound nested, 4 * c.rest.length + 4 ≤ bound →
      (statementsWithin bound nested).run c =
        (statementsWithin (4 * c.rest.length + 4) nested).run c ∧
      loopEnds nested ((statementsWithin bound nested).run c).2 = true) ∧
    c.Ahead (arrowHead.run c).2 ∧ (succeeds arrowHead).run c = (.ok (arrowHead.run c).1.isOk, c) ∧
    (statements.run c).2.rest = [] := by
  have hends : ∀ bound nested, 4 * c.rest.length + 4 ≤ bound →
      loopEnds nested ((statementsWithin bound nested).run c).2 = true :=
    fun bound nested hbound => loop_ends (by omega)
  refine ⟨fun bound nested hgo => ⟨run_statementsWithin_turn hgo, ?_⟩,
    fun bound nested hbound => ⟨run_statementsWithin_of_le hbound, hends bound nested hbound⟩,
    (scans_arrowHead c).1, rfl, ?_⟩
  · obtain ⟨-, passed, hpassed⟩ := turn_passes bound hgo
    obtain ⟨t, rest, hrest⟩ := List.exists_cons_of_ne_nil (loopEnds_eq_false.mp hgo).1
    rw [hrest, List.tail_cons] at hpassed
    exact ⟨t :: passed, List.cons_ne_nil _ _, by rw [hrest, ← hpassed, List.cons_append]⟩
  · rw [run_statements]
    have hend := hends _ false (Nat.le_refl _)
    rw [loopEnds, Bool.false_and, Bool.or_false] at hend
    exact List.isEmpty_iff.mp hend

/-- A group that is not closed in a block: the statement is given up at the brace, in front of which the
turn ends. -/
theorem unclosed_group_passed : ∃ c : Cursor,
    c.kinds = [.keyword .ret, .mark .parenOpen, .mark .braceClose] ∧ loopEnds true c = false ∧
      ((turn 15 true).run c).2.kinds = [.mark .braceClose] ∧
      (∃ passed, passed ≠ [] ∧ c.rest = passed ++ ((turn 15 true).run c).2.rest) ∧
      4 * c.rest.length + 4 ≤ 16 ∧ loopEnds true ((statementsWithin 16 true).run c).2 = true := by
  let c : Cursor := ⟨[⟨.keyword .ret, ⟨0, 6⟩⟩, ⟨.mark .parenOpen, ⟨7, 8⟩⟩, ⟨.mark .braceClose, ⟨9, 10⟩⟩],
    .dummy, 10, 0, []⟩
  have hgo : loopEnds true c = false := by decide
  have hread := reading_advances_to_end c
  exact ⟨c, rfl, hgo, by decide +kernel, (hread.1 15 true hgo).2, Nat.le_refl _,
    (hread.2.1 16 true (Nat.le_refl _)).2⟩

end Reader

end ArrowCheck
