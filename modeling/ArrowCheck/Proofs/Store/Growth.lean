import ArrowCheck.Proofs.Store.Classes
import ArrowCheck.Typing.Step

namespace ArrowCheck.TypeStore

variable {s s₁ s₂ s' : TypeStore} {a b : TypeId} {c : Cell}

/-- What is known of the types of `s` still holds in `s'`. -/
structure Grows (s s' : TypeStore) : Prop where
  rooted : s'.Rooted
  size_le : s.size ≤ s'.size
  find_eq : ∀ {a b}, a < s.size → b < s.size → s.find a = s.find b → s'.find a = s'.find b
  name_eq : ∀ {a n}, a < s.size → s.content a = some (.concrete n) →
    s'.content a = some (.concrete n)

theorem Grows.refl (hs : s.Rooted) : Grows s s :=
  ⟨hs, Nat.le_refl _, fun _ _ h => h, fun _ h => h⟩

theorem Grows.trans (h : Grows s s₁) (h' : Grows s₁ s₂) : Grows s s₂ := by
  have hlt : ∀ {a}, a < s.size → a < s₁.size := fun ha => Nat.lt_of_lt_of_le ha h.size_le
  refine ⟨h'.rooted, h.size_le.trans h'.size_le, ?_, ?_⟩
  · intro a b ha hb hab
    exact h'.find_eq (hlt ha) (hlt hb) (h.find_eq ha hb hab)
  · intro a n ha hn
    exact h'.name_eq (hlt ha) (h.name_eq ha hn)

theorem Same.grows (h : Same s s') (hs : s.Rooted) : Grows s s' := by
  refine ⟨h.rooted hs, Nat.le_of_eq h.size_eq.symm, ?_, ?_⟩
  · intro a b _ _ hab
    rw [h.find_eq hs, h.find_eq hs, hab]
  · intro a n _ hn
    rw [h.content_eq hs, hn]

theorem Merged.grows (h : Merged s a b s') (hs' : s'.Rooted) : Grows s s' :=
  ⟨hs', Nat.le_of_eq h.size_eq.symm, fun _ _ hxy => (h.together _ _).mpr (.inl hxy),
    fun _ hn => h.name_kept hn⟩

theorem find_push (hs : s.Rooted) (ha : a < s.size) : (s.push c).2.find a = s.find a :=
  ((hs.root_find ha).push c).find_eq

/-- Cells were added, and nothing is different for the types that were there. -/
structure Untouched (s s' : TypeStore) : Prop where
  rooted : s'.Rooted
  size_le : s.size ≤ s'.size
  find_eq : ∀ {a}, a < s.size → s'.find a = s.find a
  content_eq : ∀ {a}, a < s.size → s'.content a = s.content a

theorem Untouched.refl (hs : s.Rooted) : Untouched s s :=
  ⟨hs, Nat.le_refl _, fun _ => rfl, fun _ => rfl⟩

theorem Untouched.trans (h : Untouched s s₁) (h' : Untouched s₁ s₂) : Untouched s s₂ := by
  have hlt : ∀ {a}, a < s.size → a < s₁.size := fun ha => Nat.lt_of_lt_of_le ha h.size_le
  refine ⟨h'.rooted, h.size_le.trans h'.size_le, fun ha => ?_, fun ha => ?_⟩
  · rw [h'.find_eq (hlt ha), h.find_eq ha]
  · rw [h'.content_eq (hlt ha), h.content_eq ha]

theorem Untouched.grows (h : Untouched s s') : Grows s s' := by
  refine ⟨h.rooted, h.size_le, fun ha hb hab => ?_, fun ha hn => ?_⟩
  · rw [h.find_eq ha, h.find_eq hb, hab]
  · rw [h.content_eq ha, hn]

theorem Same.untouched (h : Same s s') (hs : s.Rooted) : Untouched s s' :=
  ⟨h.rooted hs, Nat.le_of_eq h.size_eq.symm, fun {a} _ => h.find_eq hs a, fun {a} _ => h.content_eq hs a⟩

theorem push_untouched (hs : s.Rooted) (hc : ∀ b, c ≠ .link b) : Untouched s (s.push c).2 := by
  refine ⟨rooted_push hs hc, by rw [size_push]; omega, fun ha => find_push hs ha, fun {a} ha => ?_⟩
  have hne : s.find a ≠ s.size := Nat.ne_of_lt (hs.root_find ha).lt_size
  rw [content, find_push hs ha, cells_push, if_neg hne]
  rfl

theorem find_push_self (hc : ∀ b, c ≠ .link b) : (s.push c).2.find s.size = s.size := by
  have hcell : (s.push c).2.cells[s.size]? = some c := by rw [cells_push, if_pos rfl]
  exact Root.find_eq ⟨0, .root hcell hc⟩

theorem content_push_self (hc : ∀ b, c ≠ .link b) : (s.push c).2.content s.size = some c := by
  rw [content, find_push_self hc, cells_push, if_pos rfl]

theorem push_grows (hs : s.Rooted) (hc : ∀ b, c ≠ .link b) : Grows s (s.push c).2 :=
  (push_untouched hs hc).grows

theorem resolve_grows (hs : s.Rooted) (ha : a < s.size) : Grows s (s.resolve a).2 :=
  (resolve_eq (hs.root_find ha)).2.grows hs

theorem unify_grows (hs : s.Rooted) (ha : a < s.size) (hb : b < s.size) :
    Grows s (s.unify a b).2 := by
  rcases unify_outcome hs ha hb with ⟨l, r, -, -, -, -, hsame⟩ | ⟨-, hmerged⟩
  · exact hsame.grows hs
  · exact hmerged.grows (unify_spec hs ha hb).1

inductive AnnotationCell : Cell → Prop
  | named (name : String) : AnnotationCell (.concrete (canonicalName name))
  | array : AnnotationCell (.concrete "Array")
  | function : AnnotationCell (.concrete "Function")
  | object (fields : Table String TypeId) : AnnotationCell (.object fields)
  | union : AnnotationCell .unbound

theorem AnnotationCell.not_link (h : AnnotationCell c) : ∀ b, c ≠ .link b := by
  cases h <;> simp

mutual

/-- The type of an annotation is the cell added last, and what new cells keep holds up to there. -/
theorem translate_eq_push {P : TypeStore → Prop}
    (hpush : ∀ {s c}, AnnotationCell c → P s → P (s.push c).2) (type : TypeExpr) {s : TypeStore}
    (hs : P s) : ∃ s₁ c, type.translate s = s₁.push c ∧ P s₁ ∧ AnnotationCell c := by
  cases type with
  | named name => exact ⟨s, _, rfl, hs, .named name⟩
  | array => exact ⟨s, _, rfl, hs, .array⟩
  | function => exact ⟨s, _, rfl, hs, .function⟩
  | union => exact ⟨s, _, rfl, hs, .union⟩
  | object fields span => exact ⟨_, _, rfl, translateFields_keeps hpush fields hs, .object _⟩
termination_by structural type

theorem translateFields_keeps {P : TypeStore → Prop}
    (hpush : ∀ {s c}, AnnotationCell c → P s → P (s.push c).2) (fields : List Field)
    {s : TypeStore} (hs : P s) : P (translateFields fields s).2 := by
  match fields with
  | [] => exact hs
  | ⟨name, type, _⟩ :: rest =>
    obtain ⟨s₁, c, htranslate, hs₁, hc⟩ := translate_eq_push hpush type hs
    have hrest := translateFields_keeps hpush rest (hpush hc hs₁)
    rw [← htranslate] at hrest
    exact hrest
termination_by structural fields

end

theorem translateOptional_keeps {P : TypeStore → Prop}
    (hpush : ∀ {s c}, AnnotationCell c → P s → P (s.push c).2) (type : Option TypeExpr)
    (hs : P s) : P (translateOptional type s).2 := by
  cases type with
  | some type =>
    obtain ⟨s₁, c, htranslate, hs₁, hc⟩ := translate_eq_push hpush type hs
    rw [translateOptional, htranslate]
    exact hpush hc hs₁
  | none => exact hpush .union hs

theorem Untouched.push (h : Untouched s s₁) (hc : AnnotationCell c) : Untouched s (s₁.push c).2 :=
  h.trans (push_untouched h.rooted hc.not_link)

theorem translateOptional_untouched (type : Option TypeExpr) (hs : s.Rooted) :
    Untouched s (translateOptional type s).2 :=
  translateOptional_keeps (fun hc h => h.push hc) type (.refl hs)

theorem translateFields_untouched (fields : List Field) (hs : s.Rooted) :
    Untouched s (translateFields fields s).2 :=
  translateFields_keeps (fun hc h => h.push hc) fields (.refl hs)

theorem translate_grows (type : TypeExpr) (hs : s.Rooted) :
    Grows s (type.translate s).2 ∧ (type.translate s).1 < (type.translate s).2.size := by
  obtain ⟨s₁, c, htranslate, hs₁, hc⟩ :=
    translate_eq_push (fun hc h => Untouched.push h hc) type (Untouched.refl hs)
  rw [htranslate, size_push]
  exact ⟨(hs₁.push hc).grows, Nat.lt_succ_self _⟩

theorem translateOptional_grows (type : Option TypeExpr) (hs : s.Rooted) :
    Grows s (translateOptional type s).2 ∧
      (translateOptional type s).1 < (translateOptional type s).2.size := by
  cases type with
  | some type => exact translate_grows type hs
  | none =>
    refine ⟨push_grows hs (by simp), ?_⟩
    show s.size < (s.push .unbound).2.size
    rw [size_push]
    omega

theorem step_unify (ha : a < s.size) (hb : b < s.size) :
    (s.step (.unify a b)).2 = (s.unify a b).2 := by
  simp only [step, contains, ha, hb, decide_true, Bool.not_true, Bool.false_eq_true, ↓reduceIte]
  split
  · rename_i h
    rw [h]
  · rename_i h
    rw [h]

theorem step_resolve (ha : a < s.size) : (s.step (.resolve a)).2 = (s.resolve a).2 := by
  simp [step, contains, ha]

theorem step_name (ha : a < s.size) : (s.step (.name a)).2 = (s.concreteName a).2 := by
  simp [step, contains, ha]

theorem step_grows (hs : s.Rooted) (step : StoreStep) (hstep : step ≠ .clear) :
    Grows s (s.step step).2 := by
  cases step with
  | fresh | concrete | object => exact push_grows hs (by simp)
  | annotated type => exact (translateOptional_grows type hs).1
  | unify a b =>
    by_cases ha : a < s.size
    · by_cases hb : b < s.size
      · rw [step_unify ha hb]
        exact unify_grows hs ha hb
      · -- the first type has been resolved when the second is found missing
        simpa [step, contains, ha, hb] using resolve_grows hs ha
    · simpa [step, contains, ha] using Grows.refl hs
  | resolve a =>
    by_cases ha : a < s.size
    · rw [step_resolve ha]
      exact resolve_grows hs ha
    · simpa [step, contains, ha] using Grows.refl hs
  | name a =>
    by_cases ha : a < s.size
    · rw [step_name ha]
      exact resolve_grows hs ha
    · simpa [step, contains, ha] using Grows.refl hs
  | find a =>
    have hfind : (s.step (.find a)).2 = s := by
      rw [step]
      split <;> rfl
    rw [hfind]
    exact Grows.refl hs
  | display | cell | isEmpty => exact Grows.refl hs
  | clear => exact absurd rfl hstep

theorem rooted_empty : Rooted {} := fun a ha => absurd ha (Nat.not_lt_zero a)

theorem rooted_step (hs : s.Rooted) (step : StoreStep) : (s.step step).2.Rooted := by
  by_cases hstep : step = .clear
  · rw [hstep]
    exact rooted_empty
  · exact (step_grows hs step hstep).rooted

def after (steps : List StoreStep) : TypeStore :=
  steps.foldl (fun s step => (s.step step).2) {}

theorem rooted_after (steps : List StoreStep) : (after steps).Rooted := by
  have hrun : ∀ {s : TypeStore}, s.Rooted →
      (steps.foldl (fun s step => (s.step step).2) s).Rooted := by
    induction steps with
    | nil => exact id
    | cons step rest ih => exact fun hs => ih (rooted_step hs step)
  exact hrun rooted_empty

end ArrowCheck.TypeStore
