import ArrowCheck.Proofs.Number.Numerals
import ArrowCheck.Proofs.Number.Rounding

namespace ArrowCheck.Binary64

variable {m : Nat} {e : Int} {negative : Bool}

theorem valueOf_eq (cs : List Char) : Decimal.valueOf cs = Nat.ofDigitChars 10 cs 0 :=
  Nat.ofDigitChars_eq_foldl.symm

theorem valueOf_toDigits (n : Nat) : Decimal.valueOf (Nat.toDigits 10 n) = n := by
  rw [valueOf_eq, Nat.ofDigitChars_ten_toDigits]

theorem allDigits_toDigits (n : Nat) : AllDigits (Nat.toDigits 10 n) :=
  fun _ h => Nat.isDigit_of_mem_toDigits (by decide) (by decide) h

theorem allDigits_zeros (n : Nat) : AllDigits (List.replicate n '0') := by
  intro c hc
  rw [List.eq_of_mem_replicate hc]
  rfl

theorem toList_zeros (n : Nat) : (zeros n).toList = List.replicate n '0' := String.toList_ofList

/-- A text is a numeral that reads as the double. -/
def Denotes (text : String) (x : Binary64) : Prop :=
  ∃ whole fraction, whole ≠ [] ∧ AllDigits whole ∧ AllDigits fraction ∧
    text.toList = numeral whole fraction ∧
    ofDecimal false ⟨Decimal.valueOf (whole ++ fraction), -(fraction.length : Int)⟩ = x

theorem Denotes.read? {text : String} {x : Binary64} (h : Denotes text x) :
    Binary64.read? text = some x := by
  obtain ⟨whole, fraction, hne, hwhole, hfraction, htext, rfl⟩ := h
  have hnumeral := read?_numeral hne hwhole hfraction
  rwa [← htext, String.ofList_toList] at hnumeral

theorem denotes_writePositional (n : Nat) (x : Int) :
    Denotes (writePositional plain (Nat.toDigits 10 n) (x + (Nat.toDigits 10 n).length))
      (ofDecimal false ⟨n, x⟩) := by
  have hvalue := valueOf_toDigits n
  have hdigits := allDigits_toDigits n
  have hne : Nat.toDigits 10 n ≠ [] := Nat.toDigits_ne_nil
  generalize Nat.toDigits 10 n = digits at hvalue hdigits hne
  unfold writePositional
  split
  · -- only zeros stand before the point
    rename_i horder
    refine ⟨['0'], List.replicate (-(x + digits.length)).toNat '0' ++ digits, by simp,
      allDigits_zeros 1, (allDigits_zeros _).append hdigits, ?_, ?_⟩
    · rw [numeral_of_ne_nil (by simp [hne])]
      simp [toList_zeros]
    · have hzeros : Decimal.valueOf (['0'] ++
          (List.replicate (-(x + digits.length)).toNat '0' ++ digits)) = n := by
        rw [valueOf_eq] at hvalue ⊢
        rw [← List.append_assoc, List.singleton_append, ← List.replicate_succ, Nat.ofDigitChars_append,
          Nat.ofDigitChars_replicate_zero, Nat.mul_zero, hvalue]
      rw [hzeros, List.length_append, List.length_replicate]
      congr 2
      omega
  split
  · rename_i horder hwhole
    refine ⟨digits ++ List.replicate ((x + digits.length).toNat - digits.length) '0', [], by simp [hne],
      hdigits.append (allDigits_zeros _), by simp [AllDigits], ?_, ?_⟩
    · simp [toList_zeros, plain, numeral]
    · have hshift : Decimal.valueOf (digits ++
          List.replicate ((x + digits.length).toNat - digits.length) '0' ++ []) =
          n * 10 ^ ((x + digits.length).toNat - digits.length) := by
        rw [valueOf_eq] at hvalue ⊢
        rw [List.append_nil, Nat.ofDigitChars_append, hvalue, Nat.ofDigitChars_replicate_zero,
          Nat.mul_comm]
      rw [hshift, List.length_nil, ofDecimal_shifts]
      congr 2
      omega
  · rename_i horder hpoint
    refine ⟨digits.take (x + digits.length).toNat, digits.drop (x + digits.length).toNat, ?_, ?_, ?_,
      ?_, ?_⟩
    · simp [hne]; omega
    · exact fun c hc => hdigits c (List.mem_of_mem_take hc)
    · exact fun c hc => hdigits c (List.mem_of_mem_drop hc)
    · rw [numeral_of_ne_nil (by simp; omega)]
      simp
    · rw [List.take_append_drop, hvalue, List.length_drop]
      congr 2
      omega

theorem ofDecimal_of_nearest? {count : Nat} {d : Decimal} (h : nearest? m e count = some d) :
    ofDecimal false d = finite false m e := by
  unfold nearest? at h
  dsimp only at h
  split at h
  · rename_i hlow
    cases h
    exact beq_iff_eq.mp (Bool.and_eq_true_iff.mp hlow).1
  split at h
  · rename_i hhigh
    cases h
    exact beq_iff_eq.mp hhigh
  · cases h

theorem ofDecimal_shortest (h : Canonical (finite false m e)) :
    ofDecimal false (shortest m e) = finite false m e := by
  rw [shortest, ofDecimal_strip]
  cases hfound : (List.range 17).findSome? fun n => nearest? m e (n + 1) with
  | none => exact ofDecimal_exactDecimal h
  | some d =>
    obtain ⟨n, -, hn⟩ := List.exists_of_findSome?_eq_some hfound
    exact ofDecimal_of_nearest? hn

/-- Every finite double without a sign is written as a numeral that reads back to it. -/
theorem denotes_write (h : Canonical (finite false m e)) :
    Denotes (write plain (finite false m e)) (finite false m e) := by
  have htext : write plain (finite false m e) = writeMagnitude plain m e := String.empty_append
  rw [htext, writeMagnitude]
  split
  · rename_i hm
    subst hm
    refine ⟨['0'], [], by simp, allDigits_zeros 1, by simp [AllDigits], rfl, ?_⟩
    have hexp : e = leastExponent := h.2.2.2.resolve_right (by decide)
    rw [hexp]
    rfl
  · have hwrite := denotes_writePositional (shortest m e).digits (shortest m e).exponent
    rw [ofDecimal_shortest h] at hwrite
    exact hwrite

end ArrowCheck.Binary64
