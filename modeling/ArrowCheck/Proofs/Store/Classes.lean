import ArrowCheck.Proofs.Store.Models
import Mathlib.Data.Setoid.Basic

namespace ArrowCheck.TypeStore

variable {s s₁ s' : TypeStore} {a b r x y : TypeId}

theorem Rooted.root_find (hs : s.Rooted) (ha : a < s.size) : Root s a (s.find a) := by
  obtain ⟨r, hr⟩ := hs a ha
  rw [hr.find_eq]
  exact hr

theorem find_of_size_le (ha : s.size ≤ a) : s.find a = a := by
  have hnone : s.cells[a]? = none := Array.getElem?_eq_none ha
  unfold find
  cases s.size with
  | zero => rfl
  | succ n => simp only [follow, hnone]

/-- What the class of a type is bound to: the cell of its representative. -/
def content (s : TypeStore) (a : TypeId) : Option Cell := s.cells[s.find a]?

theorem content_congr (h : s.find a = s.find b) : s.content a = s.content b := by
  rw [content, content, h]

theorem Same.find_eq (h : Same s s') (hs : s.Rooted) (a : TypeId) : s'.find a = s.find a := by
  by_cases ha : a < s.size
  · exact (h.root (hs.root_find ha)).find_eq
  · have ha' := Nat.le_of_not_lt ha
    rw [find_of_size_le ha', find_of_size_le (h.size_eq.symm ▸ ha')]

theorem Same.content_eq (h : Same s s') (hs : s.Rooted) (a : TypeId) :
    s'.content a = s.content a := by
  rw [content, content, h.find_eq hs]
  by_cases ha : a < s.size
  · obtain ⟨c, hc, hend⟩ := (hs.root_find ha).cell
    rw [hc]
    exact (h.cell hend).mpr hc
  · have ha' := Nat.le_of_not_lt ha
    have hsize : s'.cells.size = s.cells.size := h.size_eq
    rw [find_of_size_le ha', Array.getElem?_eq_none ha', Array.getElem?_eq_none (hsize ▸ ha')]

theorem find_setLink (hs : s.Rooted) (hx : Root s x x) (hy : Root s y y) (hne : x ≠ y)
    (a : TypeId) : (s.setLink x y).find a = if s.find a = x then y else s.find a := by
  by_cases ha : a < s.size
  · exact (root_setLink hx hy hne (hs.root_find ha)).find_eq
  · have ha' := Nat.le_of_not_lt ha
    have hax : a ≠ x := fun h => ha (h ▸ hx.lt_size)
    rw [find_of_size_le ha', find_of_size_le (by rw [size_setLink]; exact ha'), if_neg hax]

theorem content_setLink (hs : s.Rooted) (hx : Root s x x) (hy : Root s y y) (hne : x ≠ y)
    (a : TypeId) : (s.setLink x y).content a = if s.find a = x then s.cells[y]? else s.content a := by
  rw [content, find_setLink hs hx hy hne, cells_setLink _ _ _ _ hx.lt_size]
  by_cases ha : s.find a = x
  · rw [if_pos ha, if_pos ha, if_neg hne.symm]
  · rw [if_neg ha, if_neg ha, if_neg ha]
    rfl

/-- The classes of `a` and `b` have been made one. It has one of the two representatives with what
that was bound to, and a name or shape is not lost. -/
structure Merged (s : TypeStore) (a b : TypeId) (s' : TypeStore) : Prop where
  size_eq : s'.size = s.size
  together : ∀ x y, s'.find x = s'.find y ↔ s.find x = s.find y ∨
    (s.find x = s.find a ∧ s.find y = s.find b) ∨ (s.find x = s.find b ∧ s.find y = s.find a)
  keeper : (s'.find a = s.find a ∧ s'.content a = s.content a) ∨
    (s'.find a = s.find b ∧ s'.content a = s.content b)
  named : ∀ n, s.content a = some (.concrete n) ∨ s.content b = some (.concrete n) →
    s'.content a = some (.concrete n)
  free : s'.content a = some .unbound → s.content a = some .unbound ∧ s.content b = some .unbound
  apart : ∀ x, s.find x ≠ s.find a → s.find x ≠ s.find b →
    s'.find x = s.find x ∧ s'.content x = s.content x

namespace Merged

theorem find_eq (h : Merged s a b s') : s'.find a = s'.find b :=
  (h.together a b).mpr (.inr (.inl ⟨rfl, rfl⟩))

theorem of_same (h : Same s s') (hs : s.Rooted) (hab : s.find a = s.find b) : Merged s a b s' := by
  have hcontent : s.content b = s.content a := content_congr hab.symm
  refine ⟨h.size_eq, fun x y => ?_, ?_, ?_, ?_, ?_⟩
  · rw [h.find_eq hs, h.find_eq hs]
    grind
  · exact .inl ⟨h.find_eq hs a, h.content_eq hs a⟩
  · intro n hn
    rw [hcontent, or_self] at hn
    rw [h.content_eq hs, hn]
  · intro hfree
    rw [h.content_eq hs] at hfree
    exact ⟨hfree, hcontent.trans hfree⟩
  · exact fun x _ _ => ⟨h.find_eq hs x, h.content_eq hs x⟩

theorem after_same (h : Same s s₁) (hs : s.Rooted) (hm : Merged s₁ a b s') : Merged s a b s' := by
  have hfind := h.find_eq hs
  have hcontent := h.content_eq hs
  refine ⟨hm.size_eq.trans h.size_eq, fun x y => ?_, ?_, ?_, ?_, ?_⟩
  · simpa only [hfind] using hm.together x y
  · simpa only [hfind, hcontent] using hm.keeper
  · simpa only [hcontent] using hm.named
  · simpa only [hcontent] using hm.free
  · simpa only [hfind, hcontent] using hm.apart

theorem of_setLink (hs : s.Rooted) (hx : Root s x x) (hy : Root s y y) (hne : x ≠ y)
    (hxy : x = s.find a ∧ y = s.find b ∨ x = s.find b ∧ y = s.find a)
    (hname : ∀ n, s.cells[x]? = some (.concrete n) → s.cells[y]? = some (.concrete n))
    (hfree : s.cells[y]? = some .unbound → s.cells[x]? = some .unbound) :
    Merged s a b (s.setLink x y) := by
  have hfind := find_setLink hs hx hy hne
  have hcontent := content_setLink hs hx hy hne
  -- the representative that stays is `y`, whichever of the two it was
  have hkept : (s.setLink x y).content a = s.cells[y]? := by
    rw [hcontent]
    rcases hxy with ⟨rfl, rfl⟩ | ⟨rfl, rfl⟩
    · exact if_pos rfl
    · exact if_neg hne.symm
  refine ⟨size_setLink s x y, fun u v => ?_, ?_, ?_, ?_, ?_⟩
  · rw [hfind, hfind]
    grind
  · rw [hkept, hfind]
    rcases hxy with ⟨rfl, rfl⟩ | ⟨rfl, rfl⟩
    · exact .inr ⟨if_pos rfl, rfl⟩
    · exact .inl ⟨if_neg hne.symm, rfl⟩
  · intro n hn
    rw [hkept]
    rcases hxy with ⟨rfl, rfl⟩ | ⟨rfl, rfl⟩
    · exact hn.elim (hname n) id
    · exact hn.elim id (hname n)
  · intro h
    rw [hkept] at h
    rcases hxy with ⟨rfl, rfl⟩ | ⟨rfl, rfl⟩
    · exact ⟨hfree h, h⟩
    · exact ⟨h, hfree h⟩
  · intro u ha hb
    have hu : s.find u ≠ x := by
      rcases hxy with ⟨rfl, -⟩ | ⟨rfl, -⟩
      · exact ha
      · exact hb
    rw [hfind, hcontent, if_neg hu, if_neg hu]
    exact ⟨rfl, rfl⟩

/-- Of all equivalences that keep the old classes together, the new classes are the finest that
relates `a` and `b`. -/
theorem ker_le_iff (h : Merged s a b s') (E : Setoid TypeId) :
    Setoid.ker s'.find ≤ E ↔ Setoid.ker s.find ≤ E ∧ E a b := by
  constructor
  · intro hle
    refine ⟨fun x y hxy => hle ?_, hle ?_⟩
    · exact (h.together x y).mpr (.inl hxy)
    · exact h.find_eq
  · rintro ⟨hle, hab⟩ x y hxy
    rcases (h.together x y).mp hxy with hxy | ⟨hxa, hyb⟩ | ⟨hxb, hya⟩
    · exact hle hxy
    · exact E.trans (hle hxa) (E.trans hab (hle hyb.symm))
    · exact E.trans (hle hxb) (E.trans (E.symm hab) (hle hya.symm))

theorem name_kept (h : Merged s a b s') {n : String} (hx : s.content x = some (.concrete n)) :
    s'.content x = some (.concrete n) := by
  by_cases ha : s.find x = s.find a
  · rw [content_congr ((h.together x a).mpr (.inl ha))]
    rw [content_congr ha] at hx
    exact h.named n (.inl hx)
  · by_cases hb : s.find x = s.find b
    · rw [content_congr ((h.together x a).mpr (.inr (.inr ⟨hb, rfl⟩)))]
      rw [content_congr hb] at hx
      exact h.named n (.inr hx)
    · rw [(h.apart x ha hb).2, hx]

end Merged

/-- Two types either are bound to different names, which `unify` gives back in their order, or their
classes are made one. -/
theorem unify_outcome (hs : s.Rooted) (ha : a < s.size) (hb : b < s.size) :
    (∃ l r, s.content a = some (.concrete l) ∧ s.content b = some (.concrete r) ∧ l ≠ r ∧
      (s.unify a b).1 = .error ⟨l, r⟩ ∧ Same s (s.unify a b).2) ∨
    ((s.unify a b).1 = .ok () ∧ Merged s a b (s.unify a b).2) := by
  obtain ⟨ra, rb, s₁, hra, hrb, hsame, hcases⟩ := unify_cases hs ha hb
  have hfa : s.find a = ra := hra.find_eq
  have hfb : s.find b = rb := hrb.find_eq
  rcases hcases with ⟨hab, heq⟩ | ⟨l, r, hl, hr, hlr, heq⟩ | ⟨x, y, hxy, hne, hname, hfree, heq⟩
  · right
    rw [heq]
    exact ⟨rfl, .of_same hsame hs (by rw [hfa, hfb, hab])⟩
  · left
    rw [heq]
    exact ⟨l, r, by rw [content, hfa, hl], by rw [content, hfb, hr], hlr, rfl, hsame⟩
  · right
    rw [heq]
    refine ⟨rfl, .after_same hsame hs ?_⟩
    have hroots : Root s x x ∧ Root s y y := by
      rcases hxy with ⟨rfl, rfl⟩ | ⟨rfl, rfl⟩
      · exact ⟨hra.self, hrb.self⟩
      · exact ⟨hrb.self, hra.self⟩
    apply Merged.of_setLink (hsame.rooted hs) (hsame.root hroots.1) (hsame.root hroots.2) hne
    · rw [hsame.find_eq hs, hsame.find_eq hs, hfa, hfb]
      exact hxy
    · intro n hn
      rw [hsame.cell (by simp)] at hn ⊢
      exact hname n hn
    · intro hn
      rw [hsame.cell (by simp)] at hn ⊢
      exact hfree hn

theorem merged_of_unify (hs : s.Rooted) (ha : a < s.size) (hb : b < s.size)
    (hok : (s.unify a b).1 = .ok ()) : Merged s a b (s.unify a b).2 := by
  rcases unify_outcome hs ha hb with ⟨l, r, -, -, -, herr, -⟩ | ⟨-, hmerged⟩
  · rw [hok] at herr
    cases herr
  · exact hmerged

theorem same_of_clash (hs : s.Rooted) (ha : a < s.size) (hb : b < s.size) {clash : Clash}
    (herr : (s.unify a b).1 = .error clash) : Same s (s.unify a b).2 := by
  rcases unify_outcome hs ha hb with ⟨l, r, -, -, -, -, hsame⟩ | ⟨hok, -⟩
  · exact hsame
  · rw [herr] at hok
    cases hok

theorem unify_eq_error_iff (hs : s.Rooted) (ha : a < s.size) (hb : b < s.size) (clash : Clash) :
    (s.unify a b).1 = .error clash ↔ s.content a = some (.concrete clash.left) ∧
      s.content b = some (.concrete clash.right) ∧ clash.left ≠ clash.right := by
  rcases unify_outcome hs ha hb with ⟨l, r, hl, hr, hlr, herr, -⟩ | ⟨hok, hmerged⟩
  · obtain ⟨left, right⟩ := clash
    rw [herr, hl, hr]
    simp only [Except.error.injEq, Clash.mk.injEq, Option.some.injEq, Cell.concrete.injEq]
    constructor
    · rintro ⟨rfl, rfl⟩
      exact ⟨rfl, rfl, hlr⟩
    · rintro ⟨hleft, hright, -⟩
      exact ⟨hleft, hright⟩
  · rw [hok]
    refine ⟨fun h => (by cases h), ?_⟩
    rintro ⟨hl, hr, hne⟩
    have heq := (hmerged.named _ (.inl hl)).symm.trans (hmerged.named _ (.inr hr))
    exact absurd (Cell.concrete.inj (Option.some.inj heq)) hne

theorem nameAt_eq_some {n : String} : s.nameAt r = some n ↔ s.cells[r]? = some (.concrete n) := by
  unfold nameAt
  split
  · rename_i m hm
    simp [hm]
  · rename_i hm
    simpa using hm n

theorem concreteName_eq_some (hs : s.Rooted) (ha : a < s.size) {n : String} :
    (s.concreteName a).1 = some n ↔ s.content a = some (.concrete n) := by
  obtain ⟨heq, hsame⟩ := resolve_eq (hs.root_find ha)
  rw [← hsame.content_eq hs, content, hsame.find_eq hs, ← nameAt_eq_some]
  rfl

theorem content_eq_concrete_iff (hs : s.Rooted) (ha : a < s.size) {n : String} :
    s.content a = some (.concrete n) ↔ ∀ ρ, Models ρ s → ρ a = n := by
  constructor
  · intro hn ρ hρ
    rw [hρ.root (hs.root_find ha)]
    exact hρ.name hn
  · intro h
    have hname := fun default => h _ (hs.models_names default)
    cases hn : s.nameAt (s.find a) with
    | none =>
      -- a class without a name has a different value in two of the models
      have hfree : "" = "a" := by simpa [hn] using (hname "").trans (hname "a").symm
      exact absurd hfree (by decide)
    | some m =>
      have hm : m = n := by simpa [hn] using hname ""
      rw [← hm]
      exact nameAt_eq_some.mp hn

end ArrowCheck.TypeStore
