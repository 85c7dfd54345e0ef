import ArrowCheck.Text.Utf8
import Mathlib.Tactic.Ring

namespace ArrowCheck.Utf8

variable {s : State} {bs : List UInt8} {cs : List Char}

theorem decodeFrom_cons (s : State) (b : UInt8) (bs : List UInt8) :
    decodeFrom s (b :: bs) = (s.next b.toNat).1 ++ decodeFrom (s.next b.toNat).2 bs := by
  cases s <;> rfl

section RoundTrip

variable {b least greatest value n : Nat}

theorem decodeFrom_start (hb : b < 256) :
    decodeFrom .start (UInt8.ofNat b :: bs) =
      (State.first b).1 ++ decodeFrom (State.first b).2 bs := by
  rw [decodeFrom_cons, UInt8.toNat_ofNat_of_lt' hb]
  rfl

theorem decodeFrom_last (hb : b < 256) (hrange : least ≤ b ∧ b ≤ greatest)
    (hn : 64 * value + (b - 0x80) = n) :
    decodeFrom (.inside 0 least greatest value) (UInt8.ofNat b :: bs) =
      Char.ofNat n :: decodeFrom .start bs := by
  rw [decodeFrom_cons, UInt8.toNat_ofNat_of_lt' hb]
  simp only [State.next, hrange, and_self, ↓reduceIte, hn]
  rfl

theorem decodeFrom_inside (hb : b < 256) (hrange : least ≤ b ∧ b ≤ greatest) (missing : Nat) :
    decodeFrom (.inside (missing + 1) least greatest value) (UInt8.ofNat b :: bs) =
      decodeFrom (.inside missing 0x80 0xBF (64 * value + (b - 0x80))) bs := by
  rw [decodeFrom_cons, UInt8.toNat_ofNat_of_lt' hb]
  simp only [State.next, hrange, and_self, ↓reduceIte]
  rfl

theorem decodeFrom_char (c : Char) (bs : List UInt8) :
    decodeFrom .start (String.utf8EncodeChar c ++ bs) = c :: decodeFrom .start bs := by
  have hvalid : c.val.toNat < 0xD800 ∨ 0xDFFF < c.val.toNat ∧ c.val.toNat < 0x110000 := c.valid
  have hc : Char.ofNat c.val.toNat = c := c.ofNat_toNat
  unfold String.utf8EncodeChar
  generalize c.val.toNat = n at hvalid hc
  subst hc
  dsimp only
  split_ifs with h₁ h₂ h₃
  · rw [List.singleton_append, decodeFrom_start (by omega), State.first, if_pos (by omega)]
    rfl
  · simp only [List.cons_append, List.nil_append]
    rw [decodeFrom_start (by omega)]
    have hfirst : State.first (n / 64 % 32 + 192) = ([], .inside 0 0x80 0xBF (n / 64)) := by
      grind [State.first]
    rw [hfirst, List.nil_append]
    exact decodeFrom_last (by omega) (by omega) (by omega)
  · simp only [List.cons_append, List.nil_append]
    rw [decodeFrom_start (by omega)]
    have hfirst : State.first (n / 4096 % 16 + 224) = ([], .inside 1 (if n / 4096 = 0 then 0xA0 else 0x80)
        (if n / 4096 = 13 then 0x9F else 0xBF) (n / 4096)) := by
      grind [State.first]
    rw [hfirst, List.nil_append, decodeFrom_inside (by omega) (by grind)]
    exact decodeFrom_last (by omega) (by omega) (by omega)
  · simp only [List.cons_append, List.nil_append]
    rw [decodeFrom_start (by omega)]
    have hfirst : State.first (n / 262144 % 8 + 240) = ([], .inside 2 (if n / 262144 = 0 then 0x90 else 0x80)
        (if n / 262144 = 4 then 0x8F else 0xBF) (n / 262144)) := by
      grind [State.first]
    rw [hfirst, List.nil_append, decodeFrom_inside (by omega) (by grind),
      decodeFrom_inside (by omega) (by omega)]
    exact decodeFrom_last (by omega) (by omega) (by omega)

theorem decode_encode (cs : List Char) : decode (encode cs) = cs := by
  induction cs with
  | nil => rfl
  | cons c cs ih =>
    rw [decode, encode, List.flatMap_cons, decodeFrom_char]
    exact congrArg _ ih

end RoundTrip

section Wide

variable {b : Nat} {c : Char}

/-- Whatever bytes follow, the state ends with a character of more than one byte. -/
def State.Wide : State → Prop
  | start => True
  | inside missing least greatest value =>
    0x80 ≤ least ∧ 0x80 ≤ (64 * value + (least - 0x80)) * 64 ^ missing ∧
      ((64 * value + (greatest - 0x80) + 1) * 64 ^ missing ≤ 0xD800 ∨
        0xE000 ≤ (64 * value + (least - 0x80)) * 64 ^ missing ∧
          (64 * value + (greatest - 0x80) + 1) * 64 ^ missing ≤ 0x110000)

theorem State.wide_first (b : Nat) : (first b).2.Wide := by
  unfold first
  split_ifs <;> simp only [Wide] <;> omega

theorem toNat_ofNat_of_range {n : Nat} (h : n < 0xD800 ∨ 0xE000 ≤ n ∧ n < 0x110000) :
    (Char.ofNat n).toNat = n := by
  have hvalid : n.isValidChar := by
    unfold Nat.isValidChar
    omega
  rw [Char.ofNat, dif_pos hvalid]
  rfl

theorem toNat_of_mem_first (h : c ∈ (State.first b).1) : 0x80 ≤ c.toNat ∨ c.toNat = b := by
  unfold State.first at h
  split_ifs at h with hb
  · rw [List.mem_singleton.mp h]
    exact .inr (toNat_ofNat_of_range (by omega))
  all_goals first
    | exact absurd h List.not_mem_nil
    | rw [List.mem_singleton.mp h]; exact .inl (by decide)

theorem State.next_inside {missing least greatest value : Nat} :
    next (inside missing least greatest value) b =
      if least ≤ b ∧ b ≤ greatest then
        if missing = 0 then ([Char.ofNat (64 * value + (b - 0x80))], start)
        else ([], inside (missing - 1) 0x80 0xBF (64 * value + (b - 0x80)))
      else (replacement :: (first b).1, (first b).2) := by
  cases missing <;> rfl

theorem State.Wide.next (hs : s.Wide) (b : Nat) : (s.next b).2.Wide := by
  cases s with
  | start => exact wide_first b
  | inside missing least greatest value =>
    rw [next_inside]
    split_ifs with hb hmissing
    · trivial
    · obtain ⟨missing, rfl⟩ := Nat.exists_eq_succ_of_ne_zero hmissing
      obtain ⟨hleast, hlow, hrange⟩ := hs
      -- the bytes that may follow are all there are, so the range is that of this byte alone
      have hbelow : (64 * value + (least - 0x80)) * 64 ^ (missing + 1) ≤
          (64 * (64 * value + (b - 0x80)) + (0x80 - 0x80)) * 64 ^ missing := by
        rw [pow_succ', ← mul_assoc]
        exact Nat.mul_le_mul_right _ (by omega)
      have habove : (64 * (64 * value + (b - 0x80)) + (0xBF - 0x80) + 1) * 64 ^ missing ≤
          (64 * value + (greatest - 0x80) + 1) * 64 ^ (missing + 1) := by
        rw [pow_succ', ← mul_assoc]
        exact Nat.mul_le_mul_right _ (by omega)
      refine ⟨le_rfl, hlow.trans hbelow, ?_⟩
      rcases hrange with hrange | ⟨hleft, hright⟩
      · exact .inl (habove.trans hrange)
      · exact .inr ⟨hleft.trans hbelow, habove.trans hright⟩
    · exact wide_first b

theorem toNat_of_mem_next (hs : s.Wide) (h : c ∈ (s.next b).1) : 0x80 ≤ c.toNat ∨ c.toNat = b := by
  cases s with
  | start => exact toNat_of_mem_first h
  | inside missing least greatest value =>
    rw [State.next_inside] at h
    split_ifs at h with hb hmissing
    · obtain ⟨hleast, hlow, hrange⟩ := hs
      rw [hmissing, pow_zero] at hlow hrange
      rw [List.mem_singleton.mp h, toNat_ofNat_of_range (by omega)]
      omega
    · exact absurd h List.not_mem_nil
    · rcases List.mem_cons.mp h with rfl | h
      · exact .inl (by decide)
      · exact toNat_of_mem_first h

theorem toNat_of_mem_decodeFrom (hs : s.Wide) (h : c ∈ decodeFrom s bs) :
    0x80 ≤ c.toNat ∨ ∃ b ∈ bs, c.toNat = b.toNat := by
  induction bs generalizing s with
  | nil =>
    cases s with
    | start => exact absurd h List.not_mem_nil
    | inside =>
      rw [List.mem_singleton.mp h]
      exact .inl (by decide)
  | cons b bs ih =>
    rw [decodeFrom_cons, List.mem_append] at h
    rcases h with h | h
    · exact (toNat_of_mem_next hs h).imp_right fun hb => ⟨b, List.mem_cons_self, hb⟩
    · exact (ih (hs.next _) h).imp_right fun ⟨b', hmem, hb⟩ => ⟨b', List.mem_cons_of_mem _ hmem, hb⟩

/-- A character of one byte is in a text only if the byte is in its bytes. -/
theorem mem_of_mem_decode {b : UInt8} (h : c ∈ decode bs) (hc : c.toNat = b.toNat) (hb : b.toNat < 0x80) :
    b ∈ bs := by
  rcases toNat_of_mem_decodeFrom (s := .start) trivial h with hwide | ⟨b', hmem, hb'⟩
  · omega
  · rwa [← UInt8.toNat_inj.mp (hc.symm.trans hb')] at hmem

theorem exists_wide_of_inside {missing least greatest value : Nat}
    (hs : (State.inside missing least greatest value).Wide) (bs : List UInt8) :
    ∃ c ∈ decodeFrom (.inside missing least greatest value) bs, 0x80 ≤ c.toNat := by
  induction bs generalizing missing least greatest value with
  | nil => exact ⟨replacement, List.mem_singleton_self _, by decide⟩
  | cons b bs ih =>
    have hnext := hs.next b.toNat
    rw [decodeFrom_cons]
    rw [State.next_inside] at hnext ⊢
    split_ifs at hnext ⊢ with hb hmissing
    · obtain ⟨hleast, hlow, hrange⟩ := hs
      rw [hmissing, pow_zero] at hlow hrange
      refine ⟨_, List.mem_append_left _ (List.mem_singleton_self _), ?_⟩
      rw [toNat_ofNat_of_range (by omega)]
      omega
    · exact ih hnext
    · exact ⟨replacement, List.mem_append_left _ List.mem_cons_self, by decide⟩

theorem State.first_cases (b : Nat) : b < 0x80 ∧ first b = ([Char.ofNat b], start) ∨
    first b = ([replacement], start) ∨
    ∃ missing least greatest value, first b = ([], inside missing least greatest value) := by
  unfold first
  split_ifs with hb
  · exact .inl ⟨hb, rfl⟩
  all_goals first
    | exact .inr (.inl rfl)
    | exact .inr (.inr ⟨_, _, _, _, rfl⟩)

theorem encode_decode_of_narrow (h : ∀ c ∈ decode bs, c.toNat < 0x80) : encode (decode bs) = bs := by
  induction bs with
  | nil => rfl
  | cons b bs ih =>
    have hdecode : decode (b :: bs) = (State.first b.toNat).1 ++ decodeFrom (State.first b.toNat).2 bs := rfl
    have hwide := State.wide_first b.toNat
    rcases State.first_cases b.toNat with ⟨hb, hfirst⟩ | hfirst | ⟨missing, least, greatest, value, hfirst⟩
    all_goals rw [hfirst] at hdecode hwide; rw [hdecode] at h ⊢
    · have hrest := ih fun c hc => h c (List.mem_cons_of_mem _ hc)
      have hchar : String.utf8EncodeChar (Char.ofNat b.toNat) = [b] := by
        have hval : (Char.ofNat b.toNat).val.toNat = b.toNat := toNat_ofNat_of_range (by omega)
        simp only [String.utf8EncodeChar, hval, Nat.le_of_lt_succ hb, ↓reduceIte, UInt8.ofNat_toNat]
      calc encode (Char.ofNat b.toNat :: decode bs)
          = String.utf8EncodeChar (Char.ofNat b.toNat) ++ encode (decode bs) := List.flatMap_cons ..
        _ = b :: bs := by rw [hchar, hrest]; rfl
    · exact absurd (h replacement List.mem_cons_self) (by decide)
    · obtain ⟨c, hc, hwide⟩ := exists_wide_of_inside hwide bs
      exact absurd (h c hc) (Nat.not_lt.mpr hwide)

end Wide

theorem toNat_of_mem_utf8EncodeChar {c : Char} {b : UInt8} (h : b ∈ String.utf8EncodeChar c) :
    0x80 ≤ b.toNat ∨ b.toNat = c.toNat := by
  have hc : c.toNat = c.val.toNat := rfl
  rw [hc]
  unfold String.utf8EncodeChar at h
  generalize c.val.toNat = n at h
  dsimp only at h
  split_ifs at h <;>
    simp only [List.mem_cons, List.not_mem_nil, or_false] at h <;>
    rcases h with rfl | rfl | rfl | rfl
  all_goals
    rw [UInt8.toNat_ofNat']
    omega

/-- A byte that is a character by itself is in the bytes of a text only if the character is in the
text. -/
theorem mem_of_mem_encode {c : Char} {b : UInt8} (h : b ∈ encode cs) (hc : c.toNat = b.toNat)
    (hb : b.toNat < 0x80) : c ∈ cs := by
  obtain ⟨c', hmem, hb'⟩ := List.mem_flatMap.mp h
  rcases toNat_of_mem_utf8EncodeChar hb' with hwide | heq
  · omega
  · rwa [Char.toNat_inj.mp (hc.trans heq)]

theorem eq_of_encode_eq (cs' : List Char) (h : encode cs = encode cs') : cs = cs' := by
  rw [← decode_encode cs, h, decode_encode]

/-- The bytes are those of a text. -/
def IsText (bytes : List UInt8) : Prop := ∃ cs, encode cs = bytes

theorem isText_iff : IsText bs ↔ encode (decode bs) = bs := by
  constructor
  · rintro ⟨cs, rfl⟩
    rw [decode_encode]
  · exact fun h => ⟨_, h⟩

end ArrowCheck.Utf8
