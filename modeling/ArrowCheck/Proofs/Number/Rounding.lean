import ArrowCheck.Number.Shortest
import Mathlib.Tactic.Ring

namespace ArrowCheck.Binary64

/-- The form in which every double has one representation. -/
def Canonical : Binary64 → Prop
  | finite _ m e => m < 2 ^ 53 ∧ leastExponent ≤ e ∧ e ≤ greatestExponent ∧
    (e = leastExponent ∨ 2 ^ 52 ≤ m)
  | _ => True

variable {num den base c i j m : Nat} {k e : Int} {negative : Bool}

theorem roundDiv_scale (hc : 0 < c) (num den : Nat) :
    roundDiv (c * num) (c * den) = roundDiv num den := by
  unfold roundDiv
  rw [Nat.mul_div_mul_left num den hc, Nat.mul_mod_mul_left, Nat.mul_left_comm 2 c]
  simp only [Nat.mul_lt_mul_left hc]

theorem roundDiv_mul (m : Nat) (hden : 0 < den) : roundDiv (m * den) den = m := by
  unfold roundDiv
  rw [Nat.mul_div_cancel m hden, Nat.mul_mod_left]
  simp [hden]

theorem le_roundDiv (h : m * den ≤ num) (hden : 0 < den) : m ≤ roundDiv num den := by
  have hle : m ≤ num / den := (Nat.le_div_iff_mul_le hden).mpr h
  unfold roundDiv
  dsimp only
  split
  · exact hle
  split
  · omega
  split
  · exact hle
  · omega

theorem roundDiv_le (h : num < m * den) (hden : 0 < den) : roundDiv num den ≤ m := by
  have hlt : num / den < m := (Nat.div_lt_iff_lt_mul hden).mpr h
  unfold roundDiv
  dsimp only
  split
  · omega
  split
  · omega
  split <;> omega

theorem scaleDown_scaled (num den : Nat) (hbase : 0 < base) (hk : k = i - j) :
    ∃ c, 0 < c ∧ num * base ^ j = c * (scaleDown num den base k).1 ∧
      den * base ^ i = c * (scaleDown num den base k).2 := by
  cases k with
  | ofNat n =>
    obtain rfl : i = n + j := by
      rw [Int.ofNat_eq_natCast] at hk
      omega
    refine ⟨base ^ j, Nat.pow_pos hbase, Nat.mul_comm _ _, ?_⟩
    rw [scaleDown, Nat.pow_eq, Nat.pow_add]
    ring
  | negSucc n =>
    obtain rfl : j = i + (n + 1) := by
      rw [Int.negSucc_eq] at hk
      omega
    refine ⟨base ^ i, Nat.pow_pos hbase, ?_, Nat.mul_comm _ _⟩
    rw [scaleDown, Nat.pow_eq, Nat.pow_add]
    ring

theorem scaleDown_pos (hden : 0 < den) (hbase : 0 < base) (k : Int) :
    0 < (scaleDown num den base k).2 := by
  cases k with
  | ofNat n => exact Nat.mul_pos hden (Nat.pow_pos hbase)
  | negSucc n => exact hden

theorem scaleDown_mul (k : Int) : scaleDown (c * num) (c * den) base k =
    (c * (scaleDown num den base k).1, c * (scaleDown num den base k).2) := by
  cases k <;> simp only [scaleDown, Nat.mul_assoc]

def Reaches (num den : Nat) (k : Int) : Prop :=
  (scaleDown num den 2 k).2 ≤ (scaleDown num den 2 k).1

theorem reaches_iff (hk : k = i - j) : Reaches num den k ↔ den * 2 ^ i ≤ num * 2 ^ j := by
  obtain ⟨c, hc, hnum, hden⟩ := scaleDown_scaled num den (Nat.zero_lt_two) hk
  rw [hnum, hden, Reaches, Nat.mul_le_mul_left_iff hc]

theorem reaches_scale (hc : 0 < c) : Reaches (c * num) (c * den) k ↔ Reaches num den k := by
  rw [Reaches, scaleDown_mul, Nat.mul_le_mul_left_iff hc, Reaches]

theorem reaches_add (n : Nat) :
    Reaches num den (e + n) ↔ 2 ^ n * (scaleDown num den 2 e).2 ≤ (scaleDown num den 2 e).1 := by
  have he : e = (e.toNat : Nat) - ((-e).toNat : Nat) := by omega
  obtain ⟨c, hc, hnum, hden⟩ := scaleDown_scaled num den Nat.zero_lt_two he
  rw [reaches_iff (i := e.toNat + n) (j := (-e).toNat) (by omega), hnum, Nat.pow_add,
    ← Nat.mul_assoc, hden, Nat.mul_assoc, Nat.mul_le_mul_left_iff hc, Nat.mul_comm]

theorem Reaches.of_le (h : Reaches num den k) (hle : e ≤ k) : Reaches num den e := by
  -- both powers over a common denominator
  have hk : k = ((k - e).toNat + e.toNat : Nat) - ((-e).toNat : Nat) := by omega
  have he : e = (e.toNat : Nat) - ((-e).toNat : Nat) := by omega
  rw [reaches_iff hk] at h
  rw [reaches_iff he]
  calc den * 2 ^ e.toNat ≤ den * 2 ^ ((k - e).toNat + e.toNat) :=
        Nat.mul_le_mul_left _ (Nat.pow_le_pow_right Nat.zero_lt_two (Nat.le_add_left _ _))
    _ ≤ num * 2 ^ (-e).toNat := h

theorem binaryOrder_spec (hnum : 0 < num) (hden : 0 < den) :
    Reaches num den (binaryOrder num den) ∧ ¬ Reaches num den (binaryOrder num den + 1) := by
  have hnum_le := Nat.log2_self_le (Nat.ne_of_gt hnum)
  have hden_le := Nat.log2_self_le (Nat.ne_of_gt hden)
  have hnum_lt : num < 2 ^ (num.log2 + 1) := Nat.lt_log2_self
  have hden_lt : den < 2 ^ (den.log2 + 1) := Nat.lt_log2_self
  have hlow : Reaches num den (num.log2 - den.log2 - 1) := by
    rw [reaches_iff (i := num.log2) (j := den.log2 + 1) (by omega)]
    calc den * 2 ^ num.log2 ≤ 2 ^ (den.log2 + 1) * num := Nat.mul_le_mul hden_lt.le hnum_le
      _ = num * 2 ^ (den.log2 + 1) := Nat.mul_comm _ _
  have hhigh : ¬ Reaches num den (num.log2 - den.log2 + 1) := by
    rw [reaches_iff (i := num.log2 + 1) (j := den.log2) (by omega), Nat.not_le]
    calc num * 2 ^ den.log2 ≤ num * den := Nat.mul_le_mul_left _ hden_le
      _ < 2 ^ (num.log2 + 1) * den := Nat.mul_lt_mul_of_pos_right hnum_lt hden
      _ = den * 2 ^ (num.log2 + 1) := Nat.mul_comm _ _
  unfold binaryOrder
  dsimp only
  split
  · exact ⟨by assumption, hhigh⟩
  · rw [Int.sub_add_cancel]
    exact ⟨hlow, by assumption⟩

theorem binaryOrder_eq (hnum : 0 < num) (hden : 0 < den) (h : Reaches num den k)
    (h' : ¬ Reaches num den (k + 1)) : binaryOrder num den = k := by
  obtain ⟨hspec, hspec'⟩ := binaryOrder_spec hnum hden
  have hle : binaryOrder num den ≤ k := by
    by_cases hlt : k + 1 ≤ binaryOrder num den
    · exact absurd (hspec.of_le hlt) h'
    · omega
  have hge : k ≤ binaryOrder num den := by
    by_cases hlt : binaryOrder num den + 1 ≤ k
    · exact absurd (h.of_le hlt) hspec'
    · omega
  omega

theorem binaryOrder_scale (hc : 0 < c) (hnum : 0 < num) (hden : 0 < den) :
    binaryOrder (c * num) (c * den) = binaryOrder num den := by
  obtain ⟨h, h'⟩ := binaryOrder_spec hnum hden
  rw [← reaches_scale hc] at h h'
  exact binaryOrder_eq (Nat.mul_pos hc hnum) (Nat.mul_pos hc hden) h h'

theorem ofRatio_scale (hc : 0 < c) (hden : 0 < den) :
    ofRatio negative (c * num) (c * den) = ofRatio negative num den := by
  by_cases hnum : num = 0
  · simp [ofRatio, hnum]
  · have hnum' : c * num ≠ 0 := Nat.mul_ne_zero (Nat.ne_of_gt hc) hnum
    rw [ofRatio, ofRatio, if_neg hnum, if_neg hnum',
      binaryOrder_scale hc (Nat.pos_of_ne_zero hnum) hden]
    simp only [scaleDown_mul, roundDiv_scale hc]

theorem ofRatio_exact (h : Canonical (finite negative m e)) (hden : 0 < den) (he : e = i - j)
    (hvalue : num * 2 ^ j = m * 2 ^ i * den) : ofRatio negative num den = finite negative m e := by
  obtain ⟨hlt, hleast, hgreatest, hnormal⟩ := h
  by_cases hm : m = 0
  · subst hm
    have hnum : num = 0 := by
      rw [Nat.zero_mul, Nat.zero_mul] at hvalue
      exact (Nat.mul_eq_zero.mp hvalue).resolve_right (Nat.ne_of_gt (Nat.pow_pos Nat.zero_lt_two))
    have hexp : e = leastExponent := hnormal.resolve_right (by decide)
    rw [ofRatio, if_pos hnum, hexp]
    rfl
  have hpos : 0 < m := Nat.pos_of_ne_zero hm
  have hnum : 0 < num := by
    apply Nat.pos_of_ne_zero
    rintro rfl
    rw [Nat.zero_mul] at hvalue
    have := Nat.mul_pos (Nat.mul_pos hpos (Nat.pow_pos (n := i) Nat.zero_lt_two)) hden
    omega
  -- the value lies where the mantissa says
  have horder : binaryOrder num den = m.log2 + e := by
    apply binaryOrder_eq hnum hden
    · rw [reaches_iff (i := m.log2 + i) (j := j) (by omega), hvalue]
      calc den * 2 ^ (m.log2 + i) = 2 ^ m.log2 * 2 ^ i * den := by rw [Nat.pow_add]; ring
        _ ≤ m * 2 ^ i * den := Nat.mul_le_mul_right _ (Nat.mul_le_mul_right _ (Nat.log2_self_le hm))
    · rw [reaches_iff (i := m.log2 + 1 + i) (j := j) (by omega), hvalue, Nat.not_le]
      calc m * 2 ^ i * den < 2 ^ (m.log2 + 1) * 2 ^ i * den :=
            Nat.mul_lt_mul_of_pos_right
              (Nat.mul_lt_mul_of_pos_right Nat.lt_log2_self (Nat.pow_pos Nat.zero_lt_two)) hden
        _ = den * 2 ^ (m.log2 + 1 + i) := by rw [Nat.pow_add _ _ i]; ring
  have hexp : max (binaryOrder num den - 52) leastExponent = e := by
    have hlog : m.log2 < 53 := (Nat.log2_lt hm).mpr hlt
    rcases hnormal with hexp | hge
    · omega
    · have := (Nat.le_log2 hm).mpr hge
      omega
  have hround : roundDiv (scaleDown num den 2 e).1 (scaleDown num den 2 e).2 = m := by
    obtain ⟨c, hc, hn, hd⟩ := scaleDown_scaled num den Nat.zero_lt_two he
    rw [← roundDiv_scale hc, ← hn, ← hd, hvalue, Nat.mul_assoc, Nat.mul_comm (2 ^ i)]
    exact roundDiv_mul m (Nat.mul_pos hden (Nat.pow_pos Nat.zero_lt_two))
  rw [ofRatio, if_neg (Nat.ne_of_gt hnum)]
  simp only [hexp, hround, Nat.pow_eq, if_neg (Nat.ne_of_lt hlt),
    if_neg (Int.not_lt.mpr hgreatest)]

theorem ofRatio_cases (hden : 0 < den) : ofRatio negative num den = infinite negative ∨
    ∃ m e, ofRatio negative num den = finite negative m e ∧ Canonical (finite negative m e) := by
  by_cases hnum : num = 0
  · refine .inr ⟨0, leastExponent, by rw [ofRatio, if_pos hnum]; rfl, ?_⟩
    exact ⟨by decide, Int.le_refl _, by decide, .inl rfl⟩
  obtain ⟨hreaches, hbelow⟩ := binaryOrder_spec (Nat.pos_of_ne_zero hnum) hden
  generalize horder : binaryOrder num den = o at hreaches hbelow
  generalize hexp : max (o - 52) leastExponent = e
  have hpos : 0 < (scaleDown num den 2 e).2 := scaleDown_pos hden Nat.zero_lt_two e
  -- the exponent leaves at most 53 digits before the point, and 53 if it is not the least
  have hupper : roundDiv (scaleDown num den 2 e).1 (scaleDown num den 2 e).2 ≤ 2 ^ 53 := by
    refine roundDiv_le (Nat.not_le.mp fun hle => hbelow ?_) hpos
    exact ((reaches_add 53).mpr hle).of_le (by omega)
  have hlower : e = leastExponent ∨
      2 ^ 52 ≤ roundDiv (scaleDown num den 2 e).1 (scaleDown num den 2 e).2 := by
    by_cases hleast : e = leastExponent
    · exact .inl hleast
    · exact .inr (le_roundDiv ((reaches_add 52).mp (hreaches.of_le (by omega))) hpos)
  rw [ofRatio, if_neg hnum, horder, hexp]
  dsimp only [Nat.pow_eq]
  generalize roundDiv (scaleDown num den 2 e).1 (scaleDown num den 2 e).2 = m at hupper hlower ⊢
  by_cases hfull : m = 2 ^ 53
  · rw [if_pos hfull]
    dsimp only
    by_cases hover : greatestExponent < e + 1
    · exact .inl (if_pos hover)
    · exact .inr ⟨2 ^ 52, e + 1, if_neg hover, by decide, by omega, by omega, .inr (Nat.le_refl _)⟩
  · rw [if_neg hfull]
    dsimp only
    by_cases hover : greatestExponent < e
    · exact .inl (if_pos hover)
    · exact .inr ⟨m, e, if_neg hover, by omega, by omega, by omega, hlower⟩

theorem width_mul_ten {n : Nat} (hn : 0 < n) : Decimal.width (10 * n) = Decimal.width n + 1 := by
  have h := Nat.toDigits_append_toDigits (b := 10) (n := n) (d := 0) (by decide) hn (by decide)
  rw [Nat.add_zero] at h
  rw [Decimal.width, ← h, List.length_append, Nat.toDigits_zero]
  rfl

theorem ofDecimal_shift (n : Nat) (e : Int) :
    ofDecimal negative ⟨10 * n, e⟩ = ofDecimal negative ⟨n, e + 1⟩ := by
  by_cases hn : n = 0
  · simp [ofDecimal, hn]
  have hpos : 0 < n := Nat.pos_of_ne_zero hn
  have horder : (Decimal.width (10 * n) : Int) + e = Decimal.width n + (e + 1) := by
    rw [width_mul_ten hpos]
    omega
  have hscale : ∀ den, 0 < den → ofRatio negative (10 * n) (10 * den) = ofRatio negative n den :=
    fun _ => ofRatio_scale (by decide)
  unfold ofDecimal
  dsimp only
  rw [horder]
  simp only [Nat.mul_eq_zero, hn, or_false, OfNat.ofNat_ne_zero, false_or]
  split
  · rfl
  split
  · rfl
  match e with
  | .ofNat k =>
    have hexp : Int.ofNat k + 1 = .ofNat (k + 1) := rfl
    simp only [hexp, Nat.pow_eq]
    rw [Nat.pow_succ, Nat.mul_comm 10 n, Nat.mul_assoc, Nat.mul_comm 10]
  | .negSucc 0 =>
    have hexp : Int.negSucc 0 + 1 = .ofNat 0 := rfl
    simp only [hexp, Nat.zero_add, Nat.pow_eq, Nat.pow_one, Nat.pow_zero, Nat.mul_one]
    exact hscale 1 Nat.one_pos
  | .negSucc (k + 1) =>
    have hexp : Int.negSucc (k + 1) + 1 = .negSucc k := rfl
    simp only [hexp, Nat.pow_eq]
    rw [Nat.pow_succ 10 (k + 1), Nat.mul_comm _ 10]
    exact hscale _ (Nat.pow_pos (by decide))

theorem ofDecimal_shifts (n k : Nat) (e : Int) :
    ofDecimal negative ⟨n * 10 ^ k, e⟩ = ofDecimal negative ⟨n, e + k⟩ := by
  induction k generalizing e with
  | zero => simp
  | succ k ih =>
    rw [Nat.pow_succ, ← Nat.mul_assoc, Nat.mul_comm _ 10, ofDecimal_shift, ih]
    congr 2
    omega

theorem ofDecimal_strip (d : Decimal) : ofDecimal negative d.strip = ofDecimal negative d := by
  have hwithin : ∀ (fuel : Nat) (d : Decimal),
      ofDecimal negative (Decimal.stripWithin fuel d) = ofDecimal negative d := by
    intro fuel
    induction fuel with
    | zero => exact fun _ => rfl
    | succ fuel ih =>
      intro d
      rw [Decimal.stripWithin]
      split
      · rename_i h
        obtain ⟨digits, exponent⟩ := d
        rw [ih, ← ofDecimal_shift, Nat.mul_div_cancel' (Nat.dvd_of_mod_eq_zero h.2)]
      · rfl
  exact hwithin _ d

theorem width_le_iff {n k : Nat} (hk : 0 < k) : Decimal.width n ≤ k ↔ n < 10 ^ k :=
  Nat.length_toDigits_le_iff (by decide) hk

theorem order_whole (hm : m < 2 ^ 53) {k : Nat} (hk : k ≤ 971) : Decimal.width (m * 2 ^ k) ≤ 310 := by
  rw [width_le_iff (by decide)]
  calc m * 2 ^ k ≤ 2 ^ 53 * 2 ^ 971 :=
        Nat.mul_le_mul hm.le (Nat.pow_le_pow_right Nat.zero_lt_two hk)
    _ < 10 ^ 310 := by decide +kernel

theorem order_fraction (hm : m < 2 ^ 53) (hpos : 0 < m) {k : Nat} (hk : k ≤ 1074) :
    (k : Int) - 330 ≤ Decimal.width (m * 5 ^ k) ∧ (Decimal.width (m * 5 ^ k) : Int) ≤ k + 310 := by
  constructor
  · by_cases hsmall : k ≤ 331
    · have : 0 < Decimal.width (m * 5 ^ k) := Nat.length_toDigits_pos
      omega
    by_cases hle : Decimal.width (m * 5 ^ k) ≤ k - 331
    · rw [width_le_iff (by omega)] at hle
      obtain ⟨j, rfl⟩ : ∃ j, k = j + 331 := ⟨k - 331, by omega⟩
      have htwo : 2 ^ (j + 331) ≤ 10 ^ 331 :=
        Nat.le_trans (Nat.pow_le_pow_right Nat.zero_lt_two hk) (by decide +kernel)
      have hlow : 10 ^ j ≤ 5 ^ (j + 331) := by
        apply Nat.le_of_mul_le_mul_right (c := 2 ^ (j + 331)) _ (Nat.pow_pos Nat.zero_lt_two)
        calc 10 ^ j * 2 ^ (j + 331) ≤ 10 ^ j * 10 ^ 331 := Nat.mul_le_mul_left _ htwo
          _ = 5 ^ (j + 331) * 2 ^ (j + 331) := by rw [← Nat.pow_add, ← Nat.mul_pow]
      have hone : 5 ^ (j + 331) ≤ m * 5 ^ (j + 331) := Nat.le_mul_of_pos_left _ hpos
      rw [Nat.add_sub_cancel] at hle
      omega
    · omega
  · have hle : Decimal.width (m * 5 ^ k) ≤ 310 + k := by
      rw [width_le_iff (by omega), Nat.pow_add]
      calc m * 5 ^ k < 10 ^ 310 * 5 ^ k :=
            Nat.mul_lt_mul_of_pos_right (Nat.lt_trans hm (by decide +kernel)) (Nat.pow_pos (by decide))
        _ ≤ 10 ^ 310 * 10 ^ k := Nat.mul_le_mul_left _ (Nat.pow_le_pow_left (by decide) k)
    omega

theorem ofDecimal_exactDecimal (h : Canonical (finite negative m e)) :
    ofDecimal negative (exactDecimal m e) = finite negative m e := by
  obtain ⟨hlt, hleast, hgreatest, hnormal⟩ := h
  unfold leastExponent at hleast hnormal
  unfold greatestExponent at hgreatest
  by_cases hm : m = 0
  · subst hm
    have hexp := hnormal.resolve_right (by omega)
    have hdigits : (exactDecimal 0 e).digits = 0 := by
      cases e <;> rw [exactDecimal, Nat.zero_mul]
    rw [ofDecimal, if_pos (.inl hdigits), hexp]
    rfl
  cases e with
  | ofNat k =>
    rw [Int.ofNat_eq_natCast] at hgreatest
    have horder := order_whole hlt (k := k) (by omega)
    have hdigits : m * 2 ^ k ≠ 0 := Nat.mul_ne_zero hm (Nat.ne_of_gt (Nat.pow_pos Nat.zero_lt_two))
    rw [exactDecimal, ofDecimal]
    dsimp only [Nat.pow_eq]
    rw [if_neg (by omega), if_neg (by omega)]
    have hcanonical : Canonical (finite negative m (.ofNat k)) := ⟨hlt, hleast, hgreatest, hnormal⟩
    exact ofRatio_exact hcanonical Nat.one_pos (i := k) (j := 0) (by simp) (by simp)
  | negSucc k =>
    have horder := order_fraction hlt (Nat.pos_of_ne_zero hm) (k := k + 1) (by omega)
    have hdigits : m * 5 ^ (k + 1) ≠ 0 := Nat.mul_ne_zero hm (Nat.ne_of_gt (Nat.pow_pos (by decide)))
    rw [exactDecimal, ofDecimal]
    dsimp only [Nat.pow_eq]
    rw [if_neg (by omega), if_neg (by omega)]
    have hcanonical : Canonical (finite negative m (.negSucc k)) :=
      ⟨hlt, hleast, hgreatest, hnormal⟩
    refine ofRatio_exact hcanonical (Nat.pow_pos (by decide)) (i := 0) (j := k + 1) (by omega) ?_
    rw [Nat.mul_assoc, ← Nat.mul_pow, Nat.pow_zero, Nat.mul_one]

theorem ofDecimal_cases (d : Decimal) : ofDecimal negative d = infinite negative ∨
    ∃ m e, ofDecimal negative d = finite negative m e ∧ Canonical (finite negative m e) := by
  unfold ofDecimal
  dsimp only
  split
  · exact .inr ⟨0, leastExponent, rfl, by decide, Int.le_refl _, by decide, .inl rfl⟩
  split
  · exact .inl rfl
  split
  · exact ofRatio_cases Nat.one_pos
  · exact ofRatio_cases (Nat.pow_pos (by decide))

end ArrowCheck.Binary64
