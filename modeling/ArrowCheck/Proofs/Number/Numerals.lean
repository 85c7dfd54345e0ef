import ArrowCheck.Number.Binary64
import ArrowCheck.Token.Lexer

namespace ArrowCheck

/-- Digits, and behind a point the digits of a fraction if there are any. -/
def numeral (whole : List Char) : (fraction : List Char) → List Char
  | [] => whole
  | d :: ds => whole ++ '.' :: d :: ds

def AllDigits (cs : List Char) : Prop := ∀ c ∈ cs, c.isDigit = true

variable {whole fraction cs : List Char}

theorem AllDigits.takeWhile (h : AllDigits whole) : (whole ++ cs).takeWhile Char.isDigit =
    whole ++ cs.takeWhile Char.isDigit := List.takeWhile_append_of_pos h

theorem AllDigits.dropWhile (h : AllDigits whole) : (whole ++ cs).dropWhile Char.isDigit =
    cs.dropWhile Char.isDigit := List.dropWhile_append_of_pos h

theorem allDigits_takeWhile (cs : List Char) : AllDigits (cs.takeWhile Char.isDigit) :=
  List.all_eq_true.mp List.all_takeWhile

theorem AllDigits.append {cs ds : List Char} (hc : AllDigits cs) (hd : AllDigits ds) :
    AllDigits (cs ++ ds) :=
  fun _ h => (List.mem_append.mp h).elim (hc _) (hd _)

theorem AllDigits.takeWhile_self (h : AllDigits whole) : whole.takeWhile Char.isDigit = whole := by
  simpa using @AllDigits.takeWhile whole [] h

theorem AllDigits.dropWhile_self (h : AllDigits whole) : whole.dropWhile Char.isDigit = [] := by
  simpa using @AllDigits.dropWhile whole [] h

theorem Decimal.read?_numeral (hne : whole ≠ []) (hw : AllDigits whole) (hf : AllDigits fraction) :
    Decimal.read? (numeral whole fraction) =
      some ⟨Decimal.valueOf (whole ++ fraction), -(fraction.length : Int)⟩ := by
  cases fraction with
  | nil => simp [Decimal.read?, numeral, hw.takeWhile_self, hw.dropWhile_self, hne]
  | cons d ds =>
    have hpoint : Char.isDigit '.' = false := rfl
    simp [Decimal.read?, numeral, hw.takeWhile, hw.dropWhile, hpoint, hf.takeWhile_self,
      hf.dropWhile_self]

theorem toLower_of_isDigit {c : Char} (h : c.isDigit = true) : c.toLower = c := by
  have hc : c.val ≤ 57 := by
    simp only [Char.isDigit, Bool.and_eq_true, decide_eq_true_eq] at h
    exact h.2
  delta Char.toLower
  rw [dif_neg]
  rintro ⟨hlow, -⟩
  exact absurd (UInt32.le_trans hlow hc) (by decide)

theorem Binary64.readUnsigned?_of_digit {negative : Bool} {c : Char} (h : c.isDigit = true) :
    readUnsigned? negative (c :: cs) = (Decimal.read? (c :: cs)).map (ofDecimal negative) := by
  -- no word for a value without digits starts with a digit
  have hword : ∀ {d : Char} {ds : List Char}, d.isDigit = false →
      (String.ofList ((c :: cs).map Char.toLower) == String.ofList (d :: ds)) = false := by
    intro d ds hd
    rw [beq_eq_false_iff_ne, List.map_cons, toLower_of_isDigit h]
    intro heq
    cases String.ofList_injective heq
    rw [h] at hd
    cases hd
  have hnan : "nan" = String.ofList ['n', 'a', 'n'] := rfl
  have hinf : "inf" = String.ofList ['i', 'n', 'f'] := rfl
  have hinfinity : "infinity" = String.ofList ['i', 'n', 'f', 'i', 'n', 'i', 't', 'y'] := rfl
  rw [readUnsigned?, hnan, hinf, hinfinity]
  simp only [hword (show Char.isDigit 'n' = false from rfl),
    hword (show Char.isDigit 'i' = false from rfl), Bool.false_eq_true, Bool.or_self, if_false]

theorem Binary64.read?_numeral (hne : whole ≠ []) (hw : AllDigits whole) (hf : AllDigits fraction) :
    Binary64.read? (String.ofList (numeral whole fraction)) =
      some (ofDecimal false ⟨Decimal.valueOf (whole ++ fraction), -(fraction.length : Int)⟩) := by
  obtain ⟨c, cs, hcs, hc⟩ : ∃ c cs, numeral whole fraction = c :: cs ∧ c.isDigit = true := by
    obtain ⟨c, ws, rfl⟩ := List.exists_cons_of_ne_nil hne
    cases fraction <;> exact ⟨c, _, rfl, hw c (by simp)⟩
  have hdecimal := Decimal.read?_numeral hne hw hf
  rw [read?, String.toList_ofList]
  rw [hcs] at hdecimal ⊢
  split
  · rename_i heq
    cases heq
    cases hc
  · rename_i heq
    cases heq
    cases hc
  · rw [readUnsigned?_of_digit hc, hdecimal, Option.map_some]

theorem numeral_of_ne_nil {whole fraction : List Char} (h : fraction ≠ []) :
    numeral whole fraction = whole ++ '.' :: fraction := by
  cases fraction with
  | nil => exact absurd rfl h
  | cons d ds => rfl

theorem cons_numeral (c : Char) (whole fraction : List Char) :
    c :: numeral whole fraction = numeral (c :: whole) fraction := by
  cases fraction <;> rfl

namespace Lexer

theorem numberRun_digit {c : Char} (h : c.isDigit = true) (cs : List Char) :
    numberRun (c :: cs) = numberRun cs + 1 := by
  rw [numberRun, List.takeWhile_cons_of_pos h, numberRun]
  simp only [List.length_cons, List.drop_succ_cons]
  split
  · split
    · rfl
    · omega
  · rfl

theorem numberRun_point (cs : List Char) (h : cs.takeWhile Char.isDigit ≠ []) :
    numberRun ('.' :: cs) = (cs.takeWhile Char.isDigit).length + 1 := by
  rw [numberRun, List.takeWhile_cons_of_neg (by decide)]
  simp [h, Nat.add_comm]

theorem numberRun_of_head? (h : ∀ c, cs.head? = some c → c.isDigit = false ∧ c ≠ '.') :
    numberRun cs = 0 := by
  cases cs with
  | nil => rfl
  | cons c cs =>
    obtain ⟨hdigit, hpoint⟩ := h c rfl
    rw [numberRun, List.takeWhile_cons_of_neg (by simp [hdigit])]
    dsimp only [List.length_nil, List.drop_zero]
    split
    · rename_i heq
      cases heq
      exact absurd rfl hpoint
    · rfl

theorem numberRun_pointless (cs : List Char) (h : cs.takeWhile Char.isDigit = []) :
    numberRun ('.' :: cs) = 0 := by
  rw [numberRun, List.takeWhile_cons_of_neg (by decide)]
  simp [h]

theorem take_numberRun {c : Char} (hc : c.isDigit = true) (cs : List Char) :
    ∃ whole fraction, whole ≠ [] ∧ AllDigits whole ∧ AllDigits fraction ∧
      c :: cs.take (numberRun cs) = numeral whole fraction := by
  have hone : AllDigits [c] := by simpa [AllDigits] using hc
  have hnone : AllDigits [] := by simp [AllDigits]
  induction cs generalizing c with
  | nil => exact ⟨[c], [], by simp, hone, hnone, rfl⟩
  | cons d ds ih =>
    by_cases hd : d.isDigit = true
    · obtain ⟨whole, fraction, -, hwhole, hfraction, htext⟩ := ih hd (by simpa [AllDigits] using hd)
      refine ⟨c :: whole, fraction, by simp, ?_, hfraction, ?_⟩
      · intro e he
        rcases List.mem_cons.mp he with rfl | he
        · exact hc
        · exact hwhole e he
      · rw [numberRun_digit hd, List.take_succ_cons, htext, cons_numeral]
    by_cases hpoint : d = '.' ∧ ds.takeWhile Char.isDigit ≠ []
    · obtain ⟨rfl, hne⟩ := hpoint
      refine ⟨[c], ds.takeWhile Char.isDigit, by simp, hone, allDigits_takeWhile ds, ?_⟩
      obtain ⟨e, es, hes⟩ := List.exists_cons_of_ne_nil hne
      have htake : ds.take (ds.takeWhile Char.isDigit).length = ds.takeWhile Char.isDigit :=
        (List.prefix_iff_eq_take.mp (List.takeWhile_prefix _)).symm
      rw [numberRun_point ds hne, List.take_succ_cons, htake, hes]
      rfl
    · refine ⟨[c], [], by simp, hone, hnone, ?_⟩
      have hzero : numberRun (d :: ds) = 0 := by
        by_cases hdot : d = '.'
        · subst hdot
          exact numberRun_pointless ds (by simpa using hpoint)
        · exact numberRun_of_head? (by simp_all)
      rw [hzero]
      rfl

end Lexer

end ArrowCheck
