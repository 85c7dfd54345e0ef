import ArrowCheck.Proofs.Store.Growth
import Mathlib.Data.Sym.Sym2

namespace ArrowCheck.TypeStore

variable {s s₁ s₂ s' : TypeStore} {a b : TypeId} {pairs pairs' : List (TypeId × TypeId)}

/-- Unifies pairs of types one after the other, up to the first clash. -/
def unifyAll (s : TypeStore) : List (TypeId × TypeId) → Except Clash TypeStore
  | [] => .ok s
  | (a, b) :: rest =>
    match s.unify a b with
    | (.ok (), s') => s'.unifyAll rest
    | (.error clash, _) => .error clash

def InRange (s : TypeStore) (pairs : List (TypeId × TypeId)) : Prop :=
  ∀ p ∈ pairs, p.1 < s.size ∧ p.2 < s.size

/-- The same pairs, each as often, in any order and turned round or not. -/
def Rearranged (pairs pairs' : List (TypeId × TypeId)) : Prop :=
  (pairs.map fun p => s(p.1, p.2)).Perm (pairs'.map fun p => s(p.1, p.2))

/-- The pairs have been unified. Both the models and the classes of the new store are determined by
those of the old one and by the pairs, whatever representatives were taken. -/
structure Joined (s : TypeStore) (pairs : List (TypeId × TypeId)) (s' : TypeStore) : Prop where
  rooted : s'.Rooted
  size_eq : s'.size = s.size
  models : ∀ ρ, Models ρ s' ↔ Models ρ s ∧ ∀ p ∈ pairs, ρ p.1 = ρ p.2
  classes : ∀ E : Setoid TypeId,
    Setoid.ker s'.find ≤ E ↔ Setoid.ker s.find ≤ E ∧ ∀ p ∈ pairs, E p.1 p.2

theorem Joined.nil (hs : s.Rooted) : Joined s [] s :=
  ⟨hs, rfl, fun _ => by simp, fun _ => by simp⟩

theorem Joined.cons (hs : s.Rooted) (ha : a < s.size) (hb : b < s.size)
    (hok : (s.unify a b).1 = .ok ()) (h : Joined (s.unify a b).2 pairs s') :
    Joined s ((a, b) :: pairs) s' := by
  have hmerged := merged_of_unify hs ha hb hok
  have hmodels : ∀ ρ, Models ρ (s.unify a b).2 ↔ Models ρ s ∧ ρ a = ρ b := by
    rcases (unify_spec hs ha hb).2.2 with ⟨-, hmodels⟩ | ⟨clash, herr, -⟩
    · exact hmodels
    · rw [hok] at herr
      cases herr
  refine ⟨h.rooted, h.size_eq.trans hmerged.size_eq, fun ρ => ?_, fun E => ?_⟩
  · rw [h.models, hmodels, List.forall_mem_cons, and_assoc]
  · rw [h.classes, hmerged.ker_le_iff, List.forall_mem_cons, and_assoc]

/-- Pairs are unified as far as a model of the store gives the types of each pair one value; a clash
means that no model does so for all of them. -/
theorem unifyAll_outcome (hs : s.Rooted) (hrange : s.InRange pairs) :
    (∃ s', s.unifyAll pairs = .ok s' ∧ Joined s pairs s') ∨
      ((∃ clash, s.unifyAll pairs = .error clash) ∧
        ∀ ρ, Models ρ s → ¬ ∀ p ∈ pairs, ρ p.1 = ρ p.2) := by
  induction pairs generalizing s with
  | nil => exact .inl ⟨s, rfl, .nil hs⟩
  | cons p rest ih =>
    obtain ⟨a, b⟩ := p
    obtain ⟨⟨ha, hb⟩, hrest⟩ := List.forall_mem_cons.mp hrange
    obtain ⟨hs₁, hsize, hmodels⟩ := unify_spec hs ha hb
    cases hunify : s.unify a b with
    | mk result s₁ =>
      rw [hunify] at hs₁ hsize hmodels
      cases result with
      | error clash =>
        right
        refine ⟨⟨clash, by rw [unifyAll, hunify]⟩, fun ρ hρ hall => ?_⟩
        rcases hmodels with ⟨hok, -⟩ | ⟨-, -, hmodels⟩
        · cases hok
        · exact (hmodels ρ).2 hρ (hall (a, b) List.mem_cons_self)
      | ok u =>
        have hok : (s.unify a b).1 = .ok () := by rw [hunify]
        rcases ih hs₁ (fun p hp => hsize.symm ▸ hrest p hp) with
          ⟨s', heq, hjoined⟩ | ⟨⟨clash, herr⟩, hnone⟩
        · left
          refine ⟨s', by rw [unifyAll, hunify]; exact heq, ?_⟩
          apply Joined.cons hs ha hb hok
          rw [hunify]
          exact hjoined
        · right
          refine ⟨⟨clash, by rw [unifyAll, hunify]; exact herr⟩, fun ρ hρ hall => ?_⟩
          rcases hmodels with ⟨-, hmodels⟩ | ⟨_, herr', -⟩
          · obtain ⟨hab, hall'⟩ := List.forall_mem_cons.mp hall
            exact hnone ρ ((hmodels ρ).mpr ⟨hρ, hab⟩) hall'
          · cases herr'

theorem unifyAll_eq_ok_iff (hs : s.Rooted) (hrange : s.InRange pairs) :
    (∃ s', s.unifyAll pairs = .ok s') ↔ ∃ ρ, Models ρ s ∧ ∀ p ∈ pairs, ρ p.1 = ρ p.2 := by
  rcases unifyAll_outcome hs hrange with ⟨s', heq, hjoined⟩ | ⟨⟨clash, herr⟩, hnone⟩
  · obtain ⟨ρ, hρ⟩ := hjoined.rooted.exists_models
    exact ⟨fun _ => ⟨ρ, (hjoined.models ρ).mp hρ⟩, fun _ => ⟨s', heq⟩⟩
  · rw [herr]
    constructor
    · rintro ⟨s', h⟩
      cases h
    · rintro ⟨ρ, hρ, hall⟩
      exact absurd hall (hnone ρ hρ)

theorem joined_of_unifyAll (hs : s.Rooted) (hrange : s.InRange pairs)
    (hok : s.unifyAll pairs = .ok s') : Joined s pairs s' := by
  rcases unifyAll_outcome hs hrange with ⟨s₁, heq, hjoined⟩ | ⟨⟨clash, herr⟩, -⟩
  · rw [hok] at heq
    cases heq
    exact hjoined
  · rw [hok] at herr
    cases herr

theorem Rearranged.symm (h : Rearranged pairs pairs') : Rearranged pairs' pairs := List.Perm.symm h

theorem Rearranged.forall_mem (h : Rearranged pairs pairs') (R : TypeId → TypeId → Prop)
    (hsymm : ∀ {x y}, R x y → R y x) (hall : ∀ p ∈ pairs, R p.1 p.2) :
    ∀ p ∈ pairs', R p.1 p.2 := by
  intro p' hp'
  have hmem : s(p'.1, p'.2) ∈ pairs.map fun p => s(p.1, p.2) :=
    h.mem_iff.mpr (List.mem_map_of_mem hp')
  obtain ⟨p, hp, heq⟩ := List.mem_map.mp hmem
  rcases Sym2.eq_iff.mp heq with ⟨h₁, h₂⟩ | ⟨h₁, h₂⟩
  · rw [← h₁, ← h₂]
    exact hall p hp
  · rw [← h₁, ← h₂]
    exact hsymm (hall p hp)

theorem Rearranged.forall_mem_iff (h : Rearranged pairs pairs') (R : TypeId → TypeId → Prop)
    (hsymm : ∀ {x y}, R x y → R y x) : (∀ p ∈ pairs, R p.1 p.2) ↔ ∀ p ∈ pairs', R p.1 p.2 :=
  ⟨h.forall_mem R hsymm, h.symm.forall_mem R hsymm⟩

theorem Rearranged.values_iff (h : Rearranged pairs pairs') (ρ : TypeId → String) :
    (∀ p ∈ pairs, ρ p.1 = ρ p.2) ↔ ∀ p ∈ pairs', ρ p.1 = ρ p.2 :=
  h.forall_mem_iff (fun x y => ρ x = ρ y) Eq.symm

theorem Joined.find_eq_of_rearranged (h : Rearranged pairs pairs') (h₁ : Joined s pairs s₁)
    (h₂ : Joined s pairs' s₂) (x y : TypeId) : s₁.find x = s₁.find y ↔ s₂.find x = s₂.find y := by
  have hle : ∀ E : Setoid TypeId, Setoid.ker s₁.find ≤ E ↔ Setoid.ker s₂.find ≤ E := by
    intro E
    rw [h₁.classes, h₂.classes, h.forall_mem_iff E E.symm]
  exact ⟨fun hxy => (hle _).mpr le_rfl hxy, fun hxy => (hle _).mp le_rfl hxy⟩

theorem Joined.concreteName_eq_of_rearranged (h : Rearranged pairs pairs') (h₁ : Joined s pairs s₁)
    (h₂ : Joined s pairs' s₂) {x : TypeId} (hx : x < s.size) :
    (s₁.concreteName x).1 = (s₂.concreteName x).1 := by
  have hmodels : ∀ ρ, Models ρ s₁ ↔ Models ρ s₂ := by
    intro ρ
    rw [h₁.models, h₂.models, h.values_iff]
  have hx₁ : x < s₁.size := h₁.size_eq.symm ▸ hx
  have hx₂ : x < s₂.size := h₂.size_eq.symm ▸ hx
  apply Option.ext
  intro n
  rw [concreteName_eq_some h₁.rooted hx₁, concreteName_eq_some h₂.rooted hx₂,
    content_eq_concrete_iff h₁.rooted hx₁, content_eq_concrete_iff h₂.rooted hx₂]
  simp only [hmodels]

/-- In every store that operations lead to, pairs that are rearranged can be unified as well, and the
two stores have the same classes and the same names. -/
theorem unifyAll_rearranged (steps : List StoreStep) (pairs pairs' : List (TypeId × TypeId))
    (hrange : (after steps).InRange pairs) (h : Rearranged pairs pairs') :
    let s := after steps
    ((∃ s₁, s.unifyAll pairs = .ok s₁) ↔ ∃ s₂, s.unifyAll pairs' = .ok s₂) ∧
    ∀ s₁ s₂, s.unifyAll pairs = .ok s₁ → s.unifyAll pairs' = .ok s₂ →
      (∀ x y, s₁.find x = s₁.find y ↔ s₂.find x = s₂.find y) ∧
        ∀ x, x < s.size → (s₁.concreteName x).1 = (s₂.concreteName x).1 := by
  intro s
  have hs : s.Rooted := rooted_after steps
  have hrange' : s.InRange pairs' := h.forall_mem (fun x y => x < s.size ∧ y < s.size) And.symm hrange
  refine ⟨?_, fun s₁ s₂ hok₁ hok₂ => ?_⟩
  · rw [unifyAll_eq_ok_iff hs hrange, unifyAll_eq_ok_iff hs hrange']
    simp only [h.values_iff]
  · have h₁ := joined_of_unifyAll hs hrange hok₁
    have h₂ := joined_of_unifyAll hs hrange' hok₂
    exact ⟨h₁.find_eq_of_rearranged h h₂, fun x hx => h₁.concreteName_eq_of_rearranged h h₂ hx⟩

/-- A variable and two numbers, unified in two ways: another cell stays, the name is the same. -/
theorem numbers_rearranged :
    let steps : List StoreStep := [.concrete "Number", .concrete "Number", .fresh]
    let pairs := [(0, 1), (2, 0)]
    let pairs' := [(0, 2), (1, 0)]
    (after steps).InRange pairs ∧ Rearranged pairs pairs' ∧
      ∃ s₁ s₂, (after steps).unifyAll pairs = .ok s₁ ∧ (after steps).unifyAll pairs' = .ok s₂ ∧
        s₁.find 2 ≠ s₂.find 2 ∧ (s₁.concreteName 2).1 = (s₂.concreteName 2).1 := by
  intro steps pairs pairs'
  have hrange : (after steps).InRange pairs := by
    unfold InRange
    decide
  have h : Rearranged pairs pairs' := by
    unfold Rearranged
    decide
  -- stores cannot be compared, but the cell that stays for the variable can
  have hread : ∀ (pairs : List (TypeId × TypeId)) (n : TypeId),
      ((after steps).unifyAll pairs).map (·.find 2) = .ok n →
        ∃ s', (after steps).unifyAll pairs = .ok s' ∧ s'.find 2 = n := by
    intro pairs n hfind
    cases hall : (after steps).unifyAll pairs with
    | ok s' =>
      rw [hall] at hfind
      exact ⟨s', rfl, Except.ok.inj hfind⟩
    | error clash =>
      rw [hall] at hfind
      cases hfind
  obtain ⟨s₁, h₁, hfind₁⟩ := hread pairs 0 (by decide +kernel)
  obtain ⟨s₂, h₂, hfind₂⟩ := hread pairs' 1 (by decide +kernel)
  have hne : s₁.find 2 ≠ s₂.find 2 := by
    rw [hfind₁, hfind₂]
    decide
  have hnames := ((unifyAll_rearranged steps pairs pairs' hrange h).2 _ _ h₁ h₂).2 2 (by decide)
  exact ⟨hrange, h, s₁, s₂, h₁, h₂, hne, hnames⟩

end ArrowCheck.TypeStore
