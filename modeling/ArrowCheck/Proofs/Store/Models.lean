import ArrowCheck.Proofs.Store.Links
import ArrowCheck.Typing.Meaning

namespace ArrowCheck.TypeStore

variable {s s' : TypeStore} {a b r x y : TypeId}

/-- What `unify` can do: nothing but shorten links if the types are one, shorten links and fail on two
names, or hang one end below the other. A cell with a name only hangs below one of that name,
and no cell that is bound hangs below a free one. -/
theorem unify_cases (hs : s.Rooted) (ha : a < s.size) (hb : b < s.size) :
    ∃ ra rb s₁, Root s a ra ∧ Root s b rb ∧ Same s s₁ ∧
      ((ra = rb ∧ s.unify a b = (.ok (), s₁)) ∨
        (∃ l r, s.cells[ra]? = some (.concrete l) ∧ s.cells[rb]? = some (.concrete r) ∧ l ≠ r ∧
          s.unify a b = (.error ⟨l, r⟩, s₁)) ∨
        (∃ x y, (x = ra ∧ y = rb ∨ x = rb ∧ y = ra) ∧ x ≠ y ∧
          (∀ n, s.cells[x]? = some (.concrete n) → s.cells[y]? = some (.concrete n)) ∧
          (s.cells[y]? = some .unbound → s.cells[x]? = some .unbound) ∧
          s.unify a b = (.ok (), s₁.setLink x y))) := by
  obtain ⟨ra, hra⟩ := hs a ha
  obtain ⟨rb, hrb⟩ := hs b hb
  obtain ⟨hea, hsa⟩ := resolve_eq hra
  obtain ⟨heb, hsb⟩ := resolve_eq (hsa.root hrb)
  have hsame := hsa.trans hsb
  refine ⟨ra, rb, ((s.resolve a).2.resolve b).2, hra, hrb, hsame, ?_⟩
  unfold unify
  simp only [hea, heb]
  by_cases hab : ra = rb
  · exact .inl ⟨hab, by rw [if_pos hab]⟩
  · rw [if_neg hab]
    obtain ⟨ca, hca, henda⟩ := hra.cell
    obtain ⟨cb, hcb, hendb⟩ := hrb.cell
    have hca' := (hsame.cell henda).mpr hca
    have hcb' := (hsame.cell hendb).mpr hcb
    have hab' : rb ≠ ra := fun h => hab h.symm
    simp only [linkRoots, hca', hcb']
    cases ca with
    | link t => exact absurd rfl (henda t)
    | unbound =>
      refine .inr (.inr ⟨ra, rb, .inl ⟨rfl, rfl⟩, hab, ?_, ?_, rfl⟩)
      · simp [hca]
      · exact fun _ => hca
    | concrete l =>
      cases cb with
      | link t => exact absurd rfl (hendb t)
      | concrete r =>
        by_cases hlr : l = r
        · subst r
          refine .inr (.inr ⟨rb, ra, .inr ⟨rfl, rfl⟩, hab', ?_, ?_, by simp⟩)
          · simp [hca, hcb]
          · simp [hca]
        · exact .inr (.inl ⟨l, r, hca, hcb, hlr, by simp [hlr]⟩)
      | unbound | object =>
        refine .inr (.inr ⟨rb, ra, .inr ⟨rfl, rfl⟩, hab', ?_, ?_, rfl⟩)
        · simp [hcb]
        · simp [hca]
    | object fields =>
      cases cb with
      | link t => exact absurd rfl (hendb t)
      | unbound =>
        refine .inr (.inr ⟨rb, ra, .inr ⟨rfl, rfl⟩, hab', ?_, ?_, rfl⟩)
        · simp [hcb]
        · simp [hca]
      | concrete | object =>
        refine .inr (.inr ⟨ra, rb, .inl ⟨rfl, rfl⟩, hab, ?_, ?_, rfl⟩)
        · simp [hca]
        · simp [hcb]

/-- A valuation of the cells: linked cells agree, and named cells have their name. -/
structure Models (ρ : TypeId → String) (s : TypeStore) : Prop where
  link : ∀ {a b}, s.cells[a]? = some (.link b) → ρ a = ρ b
  name : ∀ {a n}, s.cells[a]? = some (.concrete n) → ρ a = n

variable {ρ : TypeId → String}

theorem Models.root (h : Models ρ s) (hr : Root s a r) : ρ a = ρ r := by
  obtain ⟨n, hn⟩ := hr
  induction hn with
  | root => rfl
  | link cell _ ih => exact (h.link cell).trans ih

theorem Models.of_roots (hs : s.Rooted) (hroot : ∀ a r, Root s a r → ρ a = ρ r)
    (hname : ∀ r n, s.cells[r]? = some (.concrete n) → ρ r = n) : Models ρ s := by
  refine ⟨?_, fun hc => hname _ _ hc⟩
  intro a b hc
  obtain ⟨r, hr⟩ := hs a (Array.getElem?_eq_some_iff.mp hc).1
  exact (hroot a r hr).trans (hroot b r (hr.of_link hc)).symm

theorem Same.models (h : Same s s') (hs : s.Rooted) : Models ρ s' ↔ Models ρ s := by
  constructor
  · intro hm
    exact .of_roots hs (fun a r hr => hm.root (h.root hr))
      (fun r n hc => hm.name ((h.cell (by simp)).mpr hc))
  · intro hm
    refine .of_roots (h.rooted hs) (fun a r hr => ?_)
      (fun r n hc => hm.name ((h.cell (by simp)).mp hc))
    obtain ⟨q, hq⟩ := hs a (by obtain ⟨n, hn⟩ := hr; exact h.size_eq ▸ hn.lt_size)
    rw [(h.root hq).unique hr] at hq
    exact hm.root hq

theorem models_setLink (hx : Root s x x) (hne : x ≠ y)
    (hname : ∀ n, s.cells[x]? = some (.concrete n) → s.cells[y]? = some (.concrete n)) :
    Models ρ (s.setLink x y) ↔ Models ρ s ∧ ρ x = ρ y := by
  have hcells := fun a => cells_setLink s x y a hx.lt_size
  obtain ⟨c, hc, hend⟩ := hx.cell
  constructor
  · intro hm
    have hxy : ρ x = ρ y := hm.link (by rw [hcells, if_pos rfl])
    refine ⟨⟨?_, ?_⟩, hxy⟩
    · intro a b hab
      have ha : a ≠ x := by
        rintro rfl
        rw [hc] at hab
        exact hend b (Option.some.inj hab)
      exact hm.link (by rw [hcells, if_neg ha]; exact hab)
    · intro a n han
      by_cases ha : a = x
      · subst a
        rw [hxy]
        exact hm.name (by rw [hcells, if_neg hne.symm]; exact hname n han)
      · exact hm.name (by rw [hcells, if_neg ha]; exact han)
  · rintro ⟨hm, hxy⟩
    constructor
    · intro a b hab
      rw [hcells] at hab
      by_cases ha : a = x
      · rw [if_pos ha] at hab
        cases hab
        rw [ha]
        exact hxy
      · rw [if_neg ha] at hab
        exact hm.link hab
    · intro a n han
      rw [hcells] at han
      by_cases ha : a = x
      · rw [if_pos ha] at han
        cases han
      · rw [if_neg ha] at han
        exact hm.name han

/-- Two types that `unify` makes one agree in exactly the models that are left, and a clash means
that they agree in none. -/
theorem unify_spec (hs : s.Rooted) (ha : a < s.size) (hb : b < s.size) :
    (s.unify a b).2.Rooted ∧ (s.unify a b).2.size = s.size ∧
      (((s.unify a b).1 = .ok () ∧ ∀ ρ, Models ρ (s.unify a b).2 ↔ Models ρ s ∧ ρ a = ρ b) ∨
        (∃ clash, (s.unify a b).1 = .error clash ∧
          ∀ ρ, (Models ρ (s.unify a b).2 ↔ Models ρ s) ∧ (Models ρ s → ρ a ≠ ρ b))) := by
  obtain ⟨ra, rb, s₁, hra, hrb, hsame, hcases⟩ := unify_cases hs ha hb
  rcases hcases with ⟨rfl, heq⟩ | ⟨l, r, hl, hr, hlr, heq⟩ | ⟨x, y, hxy, hne, hname, -, heq⟩
  · rw [heq]
    refine ⟨hsame.rooted hs, hsame.size_eq, .inl ⟨rfl, fun ρ => ?_⟩⟩
    rw [hsame.models hs]
    exact ⟨fun hm => ⟨hm, (hm.root hra).trans (hm.root hrb).symm⟩, And.left⟩
  · rw [heq]
    refine ⟨hsame.rooted hs, hsame.size_eq, .inr ⟨⟨l, r⟩, rfl, fun ρ => ⟨hsame.models hs, ?_⟩⟩⟩
    intro hm hab
    rw [hm.root hra, hm.root hrb, hm.name hl, hm.name hr] at hab
    exact hlr hab
  · rw [heq]
    have hx : Root s x x := by
      rcases hxy with ⟨rfl, rfl⟩ | ⟨rfl, rfl⟩
      · exact hra.self
      · exact hrb.self
    have hy : Root s y y := by
      rcases hxy with ⟨rfl, rfl⟩ | ⟨rfl, rfl⟩
      · exact hrb.self
      · exact hra.self
    have hname' : ∀ n, s₁.cells[x]? = some (.concrete n) → s₁.cells[y]? = some (.concrete n) := by
      intro n hn
      rw [hsame.cell (by simp)] at hn ⊢
      exact hname n hn
    refine ⟨rooted_setLink (hsame.rooted hs) (hsame.root hx) (hsame.root hy) hne,
      (size_setLink s₁ x y).trans hsame.size_eq, .inl ⟨rfl, fun ρ => ?_⟩⟩
    rw [models_setLink (hsame.root hx) hne hname', hsame.models hs]
    refine and_congr_right fun hm => ?_
    rw [hm.root hra, hm.root hrb]
    rcases hxy with ⟨rfl, rfl⟩ | ⟨rfl, rfl⟩
    · exact Iff.rfl
    · exact eq_comm

theorem concreteName_spec (hs : s.Rooted) (ha : a < s.size) :
    Same s (s.concreteName a).2 ∧
      ∀ n, (s.concreteName a).1 = some n → ∀ ρ, Models ρ s → ρ a = n := by
  obtain ⟨r, hr⟩ := hs a ha
  obtain ⟨heq, hsame⟩ := resolve_eq hr
  refine ⟨hsame, fun n hn ρ hm => ?_⟩
  simp only [concreteName, nameAt, heq] at hn
  split at hn
  · rename_i m hc
    cases hn
    rw [hm.root hr]
    exact hm.name ((hsame.cell (by simp)).mp hc)
  · cases hn

theorem Rooted.models_names (hs : s.Rooted) (default : String) :
    Models (fun a => (s.nameAt (s.find a)).getD default) s := by
  refine .of_roots hs (fun a r hr => ?_) (fun r n hc => ?_)
  · rw [hr.find_eq, hr.self.find_eq]
  · have hr : Root s r r := ⟨0, .root hc (by simp)⟩
    rw [hr.find_eq]
    simp [nameAt, hc]

theorem Rooted.exists_models (hs : s.Rooted) : ∃ ρ, Models ρ s := ⟨_, hs.models_names ""⟩

theorem cells_push (s : TypeStore) (c : Cell) (a : TypeId) :
    (s.push c).2.cells[a]? = if a = s.size then some c else s.cells[a]? :=
  Array.getElem?_push

theorem size_push (s : TypeStore) (c : Cell) : (s.push c).2.size = s.size + 1 := by
  simp [push, size]

theorem Root.push (c : Cell) (h : Root s a r) : Root (s.push c).2 a r := by
  have hkeep : ∀ {a : TypeId} {d : Cell}, s.cells[a]? = some d → (s.push c).2.cells[a]? = some d := by
    intro a d hd
    have : a < s.size := (Array.getElem?_eq_some_iff.mp hd).1
    rw [cells_push, if_neg (Nat.ne_of_lt this), hd]
  obtain ⟨n, hn⟩ := h
  induction hn with
  | root cell end_ => exact ⟨0, .root (hkeep cell) end_⟩
  | link cell _ ih =>
    obtain ⟨m, hm⟩ := ih
    exact ⟨m + 1, .link (hkeep cell) hm⟩

theorem rooted_push (hs : s.Rooted) {c : Cell} (hc : ∀ b, c ≠ .link b) : (s.push c).2.Rooted := by
  intro a ha
  rw [size_push] at ha
  by_cases h : a = s.size
  · exact ⟨a, 0, .root (by rw [cells_push, if_pos h]) hc⟩
  · obtain ⟨r, hr⟩ := hs a (by omega)
    exact ⟨r, hr.push c⟩

theorem models_push {c : Cell} (hc : ∀ b, c ≠ .link b) :
    Models ρ (s.push c).2 ↔ Models ρ s ∧ ∀ n, c = .concrete n → ρ s.size = n := by
  have hlt : ∀ {a : TypeId} {d : Cell}, s.cells[a]? = some d → a ≠ s.size := by
    intro a d hd
    exact Nat.ne_of_lt (Array.getElem?_eq_some_iff.mp hd).1
  constructor
  · intro hm
    refine ⟨⟨fun hab => hm.link ?_, fun han => hm.name ?_⟩, ?_⟩
    · rw [cells_push, if_neg (hlt hab), hab]
    · rw [cells_push, if_neg (hlt han), han]
    · rintro n rfl
      exact hm.name (by rw [cells_push, if_pos rfl])
  · rintro ⟨hm, hn⟩
    constructor
    · intro a b hab
      rw [cells_push] at hab
      split at hab
      · exact absurd (Option.some.inj hab) (hc b)
      · exact hm.link hab
    · intro a n han
      rw [cells_push] at han
      split at han
      · rename_i ha
        rw [ha]
        exact hn n (Option.some.inj han)
      · exact hm.name han

end ArrowCheck.TypeStore
