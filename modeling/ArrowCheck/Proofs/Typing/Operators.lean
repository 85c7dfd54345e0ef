import ArrowCheck.Proofs.Typing.Steps

namespace ArrowCheck

open TypeStore Check

variable {t : Labelling} {s s₁ s₂ s' : CheckState} {c c' : Prop}
  {type left right : TypeId} {x y z : String} {place leftPlace rightPlace : Place}

/-- A type of the store that has the given name if `c` is met. -/
structure Yields (t : Labelling) (c : Prop) (s : CheckState) (type : TypeId) (name : String) :
    Prop where
  lt_size : type < s.store.size
  value : c → ∀ {ρ}, Fits ρ t s → ρ type = name

theorem Known.yields (h : Known t s type x) : Yields t c s type x := ⟨h.lt_size, fun _ => h.value⟩

theorem Step.then_if {D : (TypeId → String) → Prop} (h₁ : Step t (fun _ => c) s s₁)
    (h₂ : Step t D s₁ s₂) (hD : c → ∀ ρ, Fits ρ t s₁ → (D ρ ↔ c')) :
    Step t (fun _ => c ∧ c') s s₂ where
  good := h₂.good
  size_le := h₁.size_le.trans h₂.size_le
  fits hρ := h₁.fits (h₂.fits hρ)
  quiet hd := h₁.quiet (h₂.quiet hd)
  sound hd ρ hρ := by
    have hc := h₁.sound (h₂.quiet hd) (h₂.fits hρ)
    exact ⟨hc, (hD hc ρ (h₂.fits hρ)).mp (h₂.sound hd hρ)⟩
  complete hρ hC := by
    obtain ⟨hd₁, ρ₁, hag₁, hρ₁⟩ := h₁.complete hρ hC.1
    obtain ⟨hd₂, ρ₂, hag₂, hρ₂⟩ := h₂.complete hρ₁ ((hD hC.1 ρ₁ hρ₁).mpr hC.2)
    refine ⟨fun hd => hd₂ (hd₁ hd), ρ₂, fun a ha => ?_, hρ₂⟩
    rw [hag₂ a (Nat.lt_of_lt_of_le ha h₁.size_le), hag₁ a ha]

def Names (t : Labelling) (s : CheckState) (type : TypeId) (name : Option String) : Prop :=
  ∀ n, name = some n → ∀ ρ, Fits ρ t s → ρ type = n

theorem Names.mono {C : (TypeId → String) → Prop} {name : Option String} (h : Names t s type name)
    (hstep : Step t C s s') : Names t s' type name :=
  fun n hn ρ hρ => h n hn ρ (hstep.fits hρ)

theorem differ_eq_some {a b : Option String} {l r : String} (h : differ a b = some (l, r)) :
    a = some l ∧ b = some r ∧ l ≠ r := by
  unfold differ at h
  split at h
  · split at h
    · cases h
    · cases h
      exact ⟨rfl, rfl, by assumption⟩
  · cases h

theorem ne_of_differ {a b : Option String} {l r : String} (h : differ a b = some (l, r))
    (ha : Names t s left a) (hb : Names t s right b) (hl : Known t s left x)
    (hr : Known t s right y) (ρ : TypeId → String) (hρ : Fits ρ t s) : x ≠ y := by
  obtain ⟨rfl, rfl, hne⟩ := differ_eq_some h
  rw [← hl.value hρ, ← hr.value hρ, ha l rfl ρ hρ, hb r rfl ρ hρ]
  exact hne

theorem tie_meets (place : Place) (hs : s.Good) (hl : Known t s left x) (hr : Known t s right y) :
    Meets (Check.unify left right place) s fun ok s' =>
      Step t (fun _ => x = y) s s' ∧ Silent s s' ∧
        (ok = false → s'.diagnostics ≠ [] ∧ ∀ ρ, Fits ρ t s → x ≠ y) := by
  refine (unify_meets (t := t) place hs hl.lt_size hr.lt_size).imp ?_
  rintro ok s' ⟨hstep, hsilent, hfail⟩
  refine ⟨hstep.imp ?_ ?_, hsilent, fun hok => ?_⟩
  · intro ρ hρ heq
    rwa [(hl.mono hstep).value hρ, (hr.mono hstep).value hρ] at heq
  · intro ρ hρ heq
    rw [hl.value hρ, hr.value hρ, heq]
  · obtain ⟨hd, hne⟩ := hfail hok
    refine ⟨hd, fun ρ hρ heq => hne ρ hρ ?_⟩
    rw [hl.value hρ, hr.value hρ, heq]

theorem names_meet {α : Type} {k : Option String → Option String → Check α}
    {Q : α → CheckState → Prop} (hs : s.Good) (hl : left < s.store.size)
    (hr : right < s.store.size)
    (hk : ∀ a b s', Step t (fun _ => True) s s' → Silent s s' → Names t s' left a →
      Names t s' right b → Meets (k a b) s' Q) :
    Meets (do let a ← concreteName left; let b ← concreteName right; k a b) s Q := by
  rw [meets_bind]
  refine (concreteName_meets (t := t) hs hl).imp ?_
  rintro a s₁ ⟨h₁, hsil₁, ha⟩
  rw [meets_bind]
  refine (concreteName_meets (t := t) h₁.good (Nat.lt_of_lt_of_le hr h₁.size_le)).imp ?_
  rintro b s₂ ⟨h₂, hsil₂, hb⟩
  have ha₁ : Names t s₁ left a := fun n hn ρ hρ => ha n hn ρ (h₁.fits hρ)
  have hb₂ : Names t s₂ right b := fun n hn ρ hρ => hb n hn ρ (h₂.fits hρ)
  exact hk a b s₂ ((h₁.then h₂).imp (fun _ _ _ => trivial) fun _ _ _ => ⟨trivial, trivial⟩)
    (hsil₁.trans hsil₂) (ha₁.mono h₂) hb₂

theorem Step.after (h₁ : Step t (fun _ => True) s s₁) (h₂ : Step t (fun _ => c) s₁ s₂) :
    Step t (fun _ => c) s s₂ :=
  (h₁.then h₂).imp (fun _ _ h => h.2) fun _ _ h => ⟨trivial, h⟩

theorem Step.before (h₁ : Step t (fun _ => c) s s₁) (h₂ : Step t (fun _ => True) s₁ s₂) :
    Step t (fun _ => c) s s₂ :=
  (h₁.then h₂).imp (fun _ _ h => h.1) fun _ _ h => ⟨h, trivial⟩

/-- Two types are asked to be the same. If they are not, that has been reported before `k` goes on. -/
theorem compared_meets {k : Check TypeId} {apart : String → String → TypeFault}
    {failed : Option String → Option String → TypeFault} (hs : s.Good) (hl : Known t s left x)
    (hr : Known t s right y)
    (hk : ∀ s₁ s₂, Known t s₁ left x → Step t (fun _ => x = y) s₁ s₂ → Silent s₁ s₂ →
      s₂.diagnostics ≠ [] → (∀ ρ, Fits ρ t s₁ → x ≠ y) → Meets k s₂ fun type s' =>
        Step t (fun _ => x = y) s₁ s' ∧ Silent s₁ s' ∧ Yields t (x = y) s' type x) :
    Meets (do
      let leftName ← concreteName left
      let rightName ← concreteName right
      match differ leftName rightName with
      | some (l, r) => do
        report (apart l r) place
        k
      | none => do
        if ← Check.unify left right place then pure left
        else do
          report (failed leftName rightName) place
          k) s fun type s' =>
      Step t (fun _ => x = y) s s' ∧ Silent s s' ∧ Yields t (x = y) s' type x := by
  refine names_meet (t := t) hs hl.lt_size hr.lt_size fun a b s₁ h₁ hsil₁ ha hb => ?_
  have hl₁ := hl.mono h₁
  have hr₁ := hr.mono h₁
  have hreported : ∀ s₂, Step t (fun _ => x = y) s₁ s₂ → Silent s₁ s₂ → s₂.diagnostics ≠ [] →
      (∀ ρ, Fits ρ t s₁ → x ≠ y) → Meets k s₂ fun type s' =>
        Step t (fun _ => x = y) s s' ∧ Silent s s' ∧ Yields t (x = y) s' type x := by
    intro s₂ h₂ hsil₂ hd hne
    refine (hk s₁ s₂ hl₁ h₂ hsil₂ hd hne).imp ?_
    rintro type s₃ ⟨h₃, hsil₃, hyields⟩
    exact ⟨h₁.after h₃, hsil₁.trans hsil₃, hyields⟩
  split
  · rename_i l r hdiff
    have hne := ne_of_differ hdiff ha hb hl₁ hr₁
    rw [meets_bind]
    refine (report_meets (t := t) _ _ h₁.good hne).imp ?_
    rintro - s₂ ⟨h₂, hsil₂, hd⟩
    exact hreported s₂ h₂ hsil₂ hd hne
  · rw [meets_bind]
    refine (tie_meets place h₁.good hl₁ hr₁).imp ?_
    rintro ok s₂ ⟨h₂, hsil₂, hfail⟩
    cases ok with
    | true => exact ⟨h₁.after h₂, hsil₁.trans hsil₂, (hl₁.mono h₂).yields⟩
    | false =>
      obtain ⟨hd, hne⟩ := hfail rfl
      simp only [Bool.false_eq_true, ↓reduceIte]
      rw [meets_bind]
      refine (report_meets (t := t) (C := fun _ => False) _ _ h₂.good fun _ _ => id).imp ?_
      rintro - s₃ ⟨h₃, hsil₃, hd₃⟩
      exact hreported s₃ (h₂.after_report hne hd h₃) (hsil₂.trans hsil₃) hd₃ hne

theorem addType_meets (hs : s.Good) (hl : Known t s left x) (hr : Known t s right y) :
    Meets (addType place left right) s fun type s' =>
      Step t (fun _ => x = y) s s' ∧ Silent s s' ∧ Yields t (x = y) s' type x := by
  apply compared_meets hs hl hr
  intro s₁ s₂ _ h₂ hsil₂ hd hne
  refine (concrete_meets (t := t) "Number" h₂.good).imp ?_
  rintro type s₃ ⟨h₃, hsil₃, hk⟩
  refine ⟨h₂.after_report hne hd h₃, hsil₂.trans hsil₃, hk.lt_size, ?_⟩
  exact fun heq ρ hρ => absurd heq (hne ρ (h₂.fits (h₃.fits hρ)))

theorem sameType_meets (hs : s.Good) (hl : Known t s left x) (hr : Known t s right y) :
    Meets (sameType place left right) s fun type s' =>
      Step t (fun _ => x = y) s s' ∧ Silent s s' ∧ Yields t (x = y) s' type x := by
  refine compared_meets hs hl hr (k := pure left) fun s₁ s₂ hl₁ h₂ hsil₂ _ _ => ?_
  exact ⟨h₂, hsil₂, (hl₁.mono h₂).yields⟩

theorem reportOperand_meets (side : Side) (name : Option String) (hs : s.Good) :
    Meets (reportOperand side place name) s fun _ s' =>
      Step t (fun _ => ∀ n, name = some n → n = "Number") s s' ∧ Silent s s' := by
  unfold reportOperand
  cases name with
  | none => exact ⟨(Step.refl hs).imp (by simp) (by simp), Silent.refl s⟩
  | some n =>
    by_cases hn : n = "Number"
    · subst n
      exact ⟨(Step.refl hs).imp (by simp) (by simp), Silent.refl s⟩
    · simp only [hn, ↓reduceIte]
      refine (report_meets (t := t) _ _ hs ?_).imp fun _ _ h => ⟨h.1, h.2.1⟩
      simp [hn]

theorem coerceOperand_meets {number : TypeId} (name : Option String) (hs : s.Good)
    (hl : Known t s type x) (hn : Known t s number "Number") :
    Meets (coerceOperand place type number name) s fun _ s' =>
      Step t (fun _ => name = none → x = "Number") s s' ∧ Silent s s' := by
  unfold coerceOperand
  cases name with
  | some n => exact ⟨(Step.refl hs).imp (by simp) (by simp), Silent.refl s⟩
  | none =>
    rw [meets_bind]
    refine (tie_meets place hs hl hn).imp ?_
    rintro - s₁ ⟨h₁, hsil₁, -⟩
    exact ⟨h₁.imp (fun _ _ h _ => h) (fun _ _ h => h rfl), hsil₁⟩

/-- A known name settles what an operand of a product is, an unknown one is made a number. -/
theorem operand_iff {name : Option String} {ρ : TypeId → String} (hρ : Fits ρ t s)
    (hk : Known t s type x) (hname : Names t s type name) :
    ((∀ n, name = some n → n = "Number") ∧ (name = none → x = "Number")) ↔ x = "Number" := by
  cases name with
  | none => simp
  | some n =>
    have : x = n := (hk.value hρ).symm.trans (hname n rfl ρ hρ)
    simp [this]

theorem mulType_meets (hs : s.Good) (hl : Known t s left x) (hr : Known t s right y) :
    Meets (mulType leftPlace rightPlace left right) s fun type s' =>
      Step t (fun _ => x = "Number" ∧ y = "Number") s s' ∧ Silent s s' ∧
        Yields t (x = "Number" ∧ y = "Number") s' type "Number" := by
  refine names_meet (t := t) hs hl.lt_size hr.lt_size fun a b s₁ h₁ hsil₁ ha hb => ?_
  rw [meets_bind]
  refine (concrete_meets (t := t) "Number" h₁.good).imp ?_
  rintro number s₂ ⟨h₂, hsil₂, hnumber⟩
  have h₁₂ := h₁.before h₂
  have hl₂ := hl.mono h₁₂
  have hr₂ := hr.mono h₁₂
  rw [meets_bind]
  refine (reportOperand_meets (t := t) .left a h₂.good).imp ?_
  rintro - s₃ ⟨h₃, hsil₃⟩
  rw [meets_bind]
  refine (reportOperand_meets (t := t) .right b h₃.good).imp ?_
  rintro - s₄ ⟨h₄, hsil₄⟩
  rw [meets_bind]
  refine (coerceOperand_meets a h₄.good ((hl₂.mono h₃).mono h₄) ((hnumber.mono h₃).mono h₄)).imp ?_
  rintro - s₅ ⟨h₅, hsil₅⟩
  rw [meets_bind]
  refine (coerceOperand_meets b h₅.good (((hr₂.mono h₃).mono h₄).mono h₅)
    (((hnumber.mono h₃).mono h₄).mono h₅)).imp ?_
  rintro - s₆ ⟨h₆, hsil₆⟩
  rw [meets_pure]
  have h₂₆ := ((h₃.then h₄).then h₅).then h₆
  have hsplit : ∀ ρ, Fits ρ t s₂ → (((((∀ n, a = some n → n = "Number") ∧
      ∀ n, b = some n → n = "Number") ∧ (a = none → x = "Number")) ∧ (b = none → y = "Number")) ↔
      x = "Number" ∧ y = "Number") := by
    intro ρ hρ
    have hx := operand_iff hρ hl₂ (ha.mono h₂)
    have hy := operand_iff hρ hr₂ (hb.mono h₂)
    constructor
    · rintro ⟨⟨⟨hna, hnb⟩, hxa⟩, hyb⟩
      exact ⟨hx.mp ⟨hna, hxa⟩, hy.mp ⟨hnb, hyb⟩⟩
    · rintro ⟨hxn, hyn⟩
      exact ⟨⟨⟨(hx.mpr hxn).1, (hy.mpr hyn).1⟩, fun _ => hxn⟩, fun _ => hyn⟩
  refine ⟨h₁₂.after (h₂₆.imp (fun ρ hρ => (hsplit ρ (h₂₆.fits hρ)).mp)
    fun ρ hρ => (hsplit ρ hρ).mpr), ?_, ((((hnumber.mono h₃).mono h₄).mono h₅).mono h₆).yields⟩
  exact hsil₁.trans (hsil₂.trans (hsil₃.trans (hsil₄.trans (hsil₅.trans hsil₆))))

theorem binaryType_meets (op : BinaryOp) (hs : s.Good) (hl : Known t s left x)
    (hr : Known t s right y) :
    Meets (binaryType op place leftPlace rightPlace left right) s fun type s' =>
      ∃ c z, Step t (fun _ => c) s s' ∧ Silent s s' ∧ Yields t c s' type z ∧
        ∀ result, op.Joins x y result ↔ c ∧ result = z := by
  cases op with
  | add =>
    exact (addType_meets hs hl hr).imp fun _ _ h =>
      ⟨x = y, x, h.1, h.2.1, h.2.2, fun _ => Iff.rfl⟩
  | mul =>
    refine (mulType_meets hs hl hr).imp fun _ _ h =>
      ⟨x = "Number" ∧ y = "Number", "Number", h.1, h.2.1, h.2.2, fun _ => ?_⟩
    exact and_assoc.symm
  | sub | div =>
    exact (sameType_meets hs hl hr).imp fun _ _ h =>
      ⟨x = y, x, h.1, h.2.1, h.2.2, fun _ => Iff.rfl⟩

theorem branches_meet {consequent alternate : TypeId} (hs : s.Good) (hc : Known t s consequent y)
    (ha : Known t s alternate z) :
    Meets (do
      let consequentName ← concreteName consequent
      let alternateName ← concreteName alternate
      match differ consequentName alternateName with
      | some (c, a) => do
        report (.branchMismatch c a) place
        pure consequent
      | none => do
        let _ ← Check.unify consequent alternate place
        pure consequent) s fun type s' =>
      Step t (fun _ => y = z) s s' ∧ Silent s s' ∧ Known t s' type y := by
  refine names_meet (t := t) hs hc.lt_size ha.lt_size fun a b s₁ h₁ hsil₁ hna hnb => ?_
  split
  · rename_i l r hdiff
    rw [meets_bind]
    refine (report_meets (t := t) _ _ h₁.good
      (ne_of_differ hdiff hna hnb (hc.mono h₁) (ha.mono h₁))).imp ?_
    rintro - s₂ ⟨h₂, hsil₂, -⟩
    exact ⟨h₁.after h₂, hsil₁.trans hsil₂, (hc.mono h₁).mono h₂⟩
  · rw [meets_bind]
    refine (tie_meets place h₁.good (hc.mono h₁) (ha.mono h₁)).imp ?_
    rintro - s₂ ⟨h₂, hsil₂, -⟩
    exact ⟨h₁.after h₂, hsil₁.trans hsil₂, (hc.mono h₁).mono h₂⟩

theorem conditionalType_meets {test consequent alternate : TypeId} {testPlace : Place}
    (hs : s.Good) (ht : Known t s test x) (hc : Known t s consequent y)
    (ha : Known t s alternate z) :
    Meets (conditionalType place testPlace test consequent alternate) s fun type s' =>
      Step t (fun _ => x = "Boolean" ∧ y = z) s s' ∧ Silent s s' ∧
        Yields t (x = "Boolean" ∧ y = z) s' type y := by
  unfold conditionalType
  rw [meets_bind]
  refine (concrete_meets (t := t) "Boolean" hs).imp ?_
  rintro boolean s₁ ⟨h₁, hsil₁, hboolean⟩
  rw [meets_bind]
  refine (concreteName_meets (t := t) h₁.good (ht.mono h₁).lt_size).imp ?_
  rintro name s₂ ⟨h₂, hsil₂, hname⟩
  have h₁₂ := h₁.before h₂
  have hname₂ : Names t s₂ test name := fun n hn ρ hρ => hname n hn ρ (h₂.fits hρ)
  have hboolean₂ := hboolean.mono h₂
  split
  · rename_i l r hdiff
    rw [meets_bind]
    refine (report_meets (t := t) (C := fun _ => x = "Boolean") _ _ h₂.good ?_).imp ?_
    · refine ne_of_differ hdiff hname₂ (fun n hn ρ hρ => ?_) (ht.mono h₁₂) hboolean₂
      cases hn
      exact hboolean₂.value hρ
    · rintro - s₃ ⟨h₃, hsil₃, -⟩
      refine (branches_meet h₃.good ((hc.mono h₁₂).mono h₃) ((ha.mono h₁₂).mono h₃)).imp ?_
      rintro type s₄ ⟨h₄, hsil₄, hk⟩
      exact ⟨h₁₂.after (h₃.then h₄), hsil₁.trans (hsil₂.trans (hsil₃.trans hsil₄)), hk.yields⟩
  · rw [meets_bind]
    refine (tie_meets testPlace h₂.good (ht.mono h₁₂) hboolean₂).imp ?_
    rintro - s₃ ⟨h₃, hsil₃, -⟩
    refine (branches_meet h₃.good ((hc.mono h₁₂).mono h₃) ((ha.mono h₁₂).mono h₃)).imp ?_
    rintro type s₄ ⟨h₄, hsil₄, hk⟩
    exact ⟨h₁₂.after (h₃.then h₄), hsil₁.trans (hsil₂.trans (hsil₃.trans hsil₄)), hk.yields⟩

theorem elementType_meets {first : TypeId} {name : Option String} (hs : s.Good)
    (hf : Known t s first x) (hname : Names t s first name) (he : Known t s type y) :
    Meets (elementType place first name type) s fun _ s' =>
      Step t (fun _ => x = y) s s' ∧ Silent s s' := by
  unfold elementType
  rw [meets_bind]
  refine (concreteName_meets (t := t) hs he.lt_size).imp ?_
  rintro found s₁ ⟨h₁, hsil₁, hfound⟩
  have hfound₁ : Names t s₁ type found := fun n hn ρ hρ => hfound n hn ρ (h₁.fits hρ)
  split
  · rename_i l r hdiff
    refine (report_meets (t := t) _ _ h₁.good
      (ne_of_differ hdiff (hname.mono h₁) hfound₁ (hf.mono h₁) (he.mono h₁))).imp ?_
    rintro - s₂ ⟨h₂, hsil₂, -⟩
    exact ⟨h₁.after h₂, hsil₁.trans hsil₂⟩
  · rw [meets_bind]
    refine (tie_meets place h₁.good (hf.mono h₁) (he.mono h₁)).imp ?_
    rintro ok s₂ ⟨h₂, hsil₂, hfail⟩
    cases ok with
    | true => exact ⟨h₁.after h₂, hsil₁.trans hsil₂⟩
    | false =>
      obtain ⟨hd, hne⟩ := hfail rfl
      refine (report_meets (t := t) (C := fun _ => False) _ _ h₂.good fun _ _ => id).imp ?_
      rintro - s₃ ⟨h₃, hsil₃, -⟩
      exact ⟨h₁.after (h₂.after_report hne hd h₃), hsil₁.trans (hsil₂.trans hsil₃)⟩

end ArrowCheck
