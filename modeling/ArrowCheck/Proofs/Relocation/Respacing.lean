import ArrowCheck.Proofs.Relocation.Programs
import ArrowCheck.Proofs.Token.Respacing

namespace ArrowCheck

open Placement Reader

variable {source text : String}

theorem placeless_ofSource (hsource : lexFaults source = []) (htext : lexFaults text = [])
    (h : (Cursor.ofSource text).kinds = (Cursor.ofSource source).kinds) :
    placeless.cursor (Cursor.ofSource text) = placeless.cursor (Cursor.ofSource source) := by
  have hrest : ∀ c : Cursor, (placeless.cursor c).rest = c.kinds.map fun k => ⟨k, ⟨0, 0⟩⟩ := by
    intro c
    rw [Cursor.kinds, List.map_map]
    exact List.append_nil _
  have hfaults : ∀ {source : String}, lexFaults source = [] →
      (placeless.cursor (Cursor.ofSource source)).faults = [] := by
    intro source hlex
    rw [cursor, Cursor.ofSource, hlex]
    rfl
  apply Cursor.ext
  · rw [hrest, hrest, h]
  · rfl
  · rfl
  · rfl
  · rw [hfaults htext, hfaults hsource]

/-- Texts of the same kinds are read as the same program, with the same faults, but for their places. -/
theorem parse_of_kinds (hsource : lexFaults source = []) (htext : lexFaults text = [])
    (h : (Cursor.ofSource text).kinds = (Cursor.ofSource source).kinds) :
    (parse text).program.relocate .forget = (parse source).program.relocate .forget ∧
      (parse text).faults.map (ParseFault.relocate .forget) =
        (parse source).faults.map (ParseFault.relocate .forget) ∧
      (parse text).nodeCount = (parse source).nodeCount := by
  have hlength : (Cursor.ofSource text).rest.length = (Cursor.ofSource source).rest.length := by
    rw [← Cursor.length_kinds, ← Cursor.length_kinds, h]
  obtain ⟨ss, d, hrun⟩ :=
    exists_run_statements (4 * (Cursor.ofSource source).rest.length + 4) (Cursor.ofSource source)
  obtain ⟨ss', d', hrun'⟩ :=
    exists_run_statements (4 * (Cursor.ofSource text).rest.length + 4) (Cursor.ofSource text)
  rw [parse_eq hrun, parse_eq hrun']
  have himage := run_statements_whole (ρ := placeless) ⟨rfl, rfl⟩ (Nat.le_refl _) (Nat.le_refl _) hrun
  have himage' := run_statements_whole (ρ := placeless) ⟨rfl, rfl⟩ (Nat.le_refl _) (Nat.le_refl _) hrun'
  rw [placeless_ofSource hsource htext h, hlength, himage] at himage'
  obtain ⟨hss, hd⟩ := Prod.mk.inj himage'
  have hstatements : relocateStmts .forget ss = relocateStmts .forget ss' := Except.ok.inj hss
  have hfaults : d.faults.map (ParseFault.relocate .forget) = d'.faults.map (ParseFault.relocate .forget) :=
    congrArg Cursor.faults hd
  have hids : (placeless.cursor d).nextId = (placeless.cursor d').nextId := congrArg Cursor.nextId hd
  refine ⟨?_, hfaults.symm, hids.symm⟩
  rw [Program.relocate, Program.relocate, hstatements]
  rfl

/-- A source is read as the texts in which its tokens but the comments are written again with blanks
between them. -/
theorem parse_respaced (source text : String) (h : lexFaults source = [])
    (hspaced : Respaced source ((tokenize source).filter fun t => !t.kind.isComment) text.toList) :
    lexFaults text = [] ∧ (tokenize text).map Token.kind = sourceKinds source ∧
      (parse text).program.relocate .forget = (parse source).program.relocate .forget ∧
      (parse text).faults.map (ParseFault.relocate .forget) =
        (parse source).faults.map (ParseFault.relocate .forget) ∧
      (parse text).nodeCount = (parse source).nodeCount := by
  have hvisible : ∀ t ∈ (tokenize source).filter fun t => !t.kind.isComment,
      t ∈ tokenize source ∧ t.kind.isComment = false ∧ t.kind.isError = false := by
    intro t ht
    obtain ⟨hmem, hseen⟩ := List.mem_filter.mp ht
    exact ⟨hmem, by simpa using hseen, isError_eq_false h hmem⟩
  have hlexed : Lexer.lexed text.toList = sourceKinds source := hspaced.lexed hvisible
  have hkinds : ∀ k ∈ Lexer.lexed text.toList, k.isComment = false ∧ k.isError = false := by
    rw [hlexed, sourceKinds]
    intro k hk
    obtain ⟨t, ht, hkind⟩ := List.mem_map.mp hk
    rw [← hkind]
    exact (hvisible t ht).2
  obtain ⟨htext, hread⟩ := kinds_of_lexed hkinds
  refine ⟨htext, hlexed, parse_of_kinds h htext ?_⟩
  rw [hread, hlexed, kinds_ofSource h]

/-- A comment goes, a string that looks like one stays, and so does the fault of what follows. -/
theorem arrow_respaced : ∃ source text, source = "const s='//'/*c*/;x=>1.5" ∧
    text = "const\ts =\r\n'//'\x0c; x => 1.5 " ∧ lexFaults source = [] ∧
    (tokenize text).map Token.kind = [.keyword .const, .ident "s", .mark .equals, .string "'//'",
      .mark .semicolon, .ident "x", .mark .arrow, .number "1.5"] ∧
    (parse text).faults = [.unexpectedToken "'const' or 'return'" "identifier x" ⟨18, 19⟩] ∧
    (parse text).program.relocate .forget = (parse source).program.relocate .forget ∧
    (parse text).faults.map (ParseFault.relocate .forget) =
      (parse source).faults.map (ParseFault.relocate .forget) := by
  let source := "const s='//'/*c*/;x=>1.5"
  let text := "const\ts =\r\n'//'\x0c; x => 1.5 "
  have hlex : lexFaults source = [] := by decide +kernel
  have hkinds : sourceKinds source = [.keyword .const, .ident "s", .mark .equals, .string "'//'",
      .mark .semicolon, .ident "x", .mark .arrow, .number "1.5"] := by decide +kernel
  have htokens : (tokenize source).filter (fun t => !t.kind.isComment) =
      [⟨.keyword .const, ⟨0, 5⟩⟩, ⟨.ident "s", ⟨6, 7⟩⟩, ⟨.mark .equals, ⟨7, 8⟩⟩,
        ⟨.string "'//'", ⟨8, 12⟩⟩, ⟨.mark .semicolon, ⟨17, 18⟩⟩, ⟨.ident "x", ⟨18, 19⟩⟩,
        ⟨.mark .arrow, ⟨19, 21⟩⟩, ⟨.number "1.5", ⟨21, 24⟩⟩] := by decide +kernel
  have htext : text.toList =
      Token.textIn source ⟨.keyword .const, ⟨0, 5⟩⟩ ++ '\t' ::
        (Token.textIn source ⟨.ident "s", ⟨6, 7⟩⟩ ++ ' ' ::
        (Token.textIn source ⟨.mark .equals, ⟨7, 8⟩⟩ ++ '\r' :: '\n' ::
        (Token.textIn source ⟨.string "'//'", ⟨8, 12⟩⟩ ++ '\x0c' ::
        (Token.textIn source ⟨.mark .semicolon, ⟨17, 18⟩⟩ ++ ' ' ::
        (Token.textIn source ⟨.ident "x", ⟨18, 19⟩⟩ ++ ' ' ::
        (Token.textIn source ⟨.mark .arrow, ⟨19, 21⟩⟩ ++ ' ' ::
        (Token.textIn source ⟨.number "1.5", ⟨21, 24⟩⟩ ++ [' ']))))))) := by decide +kernel
  have hspaced : Respaced source ((tokenize source).filter fun t => !t.kind.isComment) text.toList := by
    rw [htokens, htext]
    exact .spaced rfl <| .spaced rfl <| .spaced rfl <| .blank rfl <| .spaced rfl <| .spaced rfl <|
      .spaced rfl <| .spaced rfl <| .spaced rfl .nil
  obtain ⟨-, hsame, hprogram, hfaults, -⟩ := parse_respaced source text hlex hspaced
  exact ⟨source, text, rfl, rfl, hlex, hsame.trans hkinds, by decide +kernel, hprogram, hfaults⟩

end ArrowCheck
