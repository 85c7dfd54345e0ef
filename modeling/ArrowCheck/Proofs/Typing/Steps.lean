import ArrowCheck.Proofs.Store.Models
import ArrowCheck.Proofs.Typing.Labelling

namespace ArrowCheck

open TypeStore

namespace Check

variable {α β : Type}

/-- Running `m` from `s` ends in a value and a state with the property. -/
def Meets (m : Check α) (s : CheckState) (Q : α → CheckState → Prop) : Prop :=
  Q (m.run s).1 (m.run s).2

theorem meets_bind {m : Check α} {f : α → Check β} {s : CheckState} {Q : β → CheckState → Prop} :
    Meets (m >>= f) s Q ↔ Meets m s fun a s' => Meets (f a) s' Q := Iff.rfl

theorem meets_pure {a : α} {s : CheckState} {Q : α → CheckState → Prop} :
    Meets (pure a) s Q ↔ Q a s := Iff.rfl

theorem meets_get {s : CheckState} {Q : CheckState → CheckState → Prop} :
    Meets get s Q ↔ Q s s := Iff.rfl

theorem Meets.imp {m : Check α} {s : CheckState} {Q R : α → CheckState → Prop} (h : Meets m s Q)
    (hQR : ∀ a s', Q a s' → R a s') : Meets m s R := hQR _ _ h

end Check

open Check

structure CheckState.Good (s : CheckState) : Prop where
  rooted : s.store.Rooted
  range : ∀ {id : NodeId} {type : TypeId}, s.nodeTypes.get? id = some type → type < s.store.size

/-- The valuation models the store and gives the recorded nodes their labels. -/
structure Fits (ρ : TypeId → String) (t : Labelling) (s : CheckState) : Prop where
  models : Models ρ s.store
  label : ∀ {id : NodeId} {type : TypeId}, s.nodeTypes.get? id = some type → t id = ρ type

def Agree (s : CheckState) (ρ ρ' : TypeId → String) : Prop := ∀ a, a < s.store.size → ρ' a = ρ a

structure Step (t : Labelling) (C : (TypeId → String) → Prop) (s s' : CheckState) : Prop where
  good : s'.Good
  size_le : s.store.size ≤ s'.store.size
  fits : ∀ {ρ}, Fits ρ t s' → Fits ρ t s
  quiet : s'.diagnostics = [] → s.diagnostics = []
  sound : s'.diagnostics = [] → ∀ {ρ}, Fits ρ t s' → C ρ
  complete : ∀ {ρ}, Fits ρ t s → C ρ →
    (s.diagnostics = [] → s'.diagnostics = []) ∧ ∃ ρ', Agree s ρ ρ' ∧ Fits ρ' t s'

structure Silent (s s' : CheckState) : Prop where
  scopes : s'.scopes = s.scopes
  types : s'.nodeTypes = s.nodeTypes
  returns : s'.returnTypes = s.returnTypes

structure Known (t : Labelling) (s : CheckState) (type : TypeId) (name : String) : Prop where
  lt_size : type < s.store.size
  value : ∀ {ρ}, Fits ρ t s → ρ type = name

variable {t : Labelling} {s s₁ s₂ s' : CheckState} {ρ ρ' : TypeId → String}
  {C C₁ C₂ : (TypeId → String) → Prop} {type left right : TypeId} {x y : String}

theorem Agree.refl (s : CheckState) (ρ : TypeId → String) : Agree s ρ ρ := fun _ _ => rfl

theorem Silent.refl (s : CheckState) : Silent s s := ⟨rfl, rfl, rfl⟩

theorem Silent.trans (h : Silent s s₁) (h' : Silent s₁ s₂) : Silent s s₂ :=
  ⟨h'.scopes.trans h.scopes, h'.types.trans h.types, h'.returns.trans h.returns⟩

theorem Step.refl (hs : s.Good) : Step t (fun _ => True) s s :=
  ⟨hs, Nat.le_refl _, id, id, fun _ _ _ => trivial,
    fun {ρ} hρ _ => ⟨id, ρ, Agree.refl s ρ, hρ⟩⟩

/-- One step after the other. The second may speak of cells that the first has added. -/
theorem Step.seq (h₁ : Step t C₁ s s₁) (h₂ : Step t C₂ s₁ s₂) :
    Step t (fun ρ => C₁ ρ ∧ ∃ ρ', Agree s ρ ρ' ∧ Fits ρ' t s₁ ∧ C₂ ρ') s s₂ where
  good := h₂.good
  size_le := h₁.size_le.trans h₂.size_le
  fits hρ := h₁.fits (h₂.fits hρ)
  quiet hd := h₁.quiet (h₂.quiet hd)
  sound hd ρ hρ :=
    ⟨h₁.sound (h₂.quiet hd) (h₂.fits hρ), ρ, Agree.refl s ρ, h₂.fits hρ, h₂.sound hd hρ⟩
  complete hρ hC := by
    obtain ⟨hC₁, ρ₁, hag₁, hρ₁, hC₂⟩ := hC
    have hd₁ := (h₁.complete hρ hC₁).1
    obtain ⟨hd₂, ρ₂, hag₂, hρ₂⟩ := h₂.complete hρ₁ hC₂
    refine ⟨fun hd => hd₂ (hd₁ hd), ρ₂, fun a ha => ?_, hρ₂⟩
    rw [hag₂ a (Nat.lt_of_lt_of_le ha h₁.size_le), hag₁ a ha]

theorem Step.imp {C' : (TypeId → String) → Prop} (h : Step t C s s')
    (hsound : ∀ ρ, Fits ρ t s' → C ρ → C' ρ) (hcomplete : ∀ ρ, Fits ρ t s → C' ρ → C ρ) :
    Step t C' s s' :=
  { h with
    sound := fun hd ρ hρ => hsound ρ hρ (h.sound hd hρ)
    complete := fun {ρ} hρ hC => h.complete hρ (hcomplete ρ hρ hC) }

/-- One step after the other, where the second asks nothing of the cells that the first adds. -/
theorem Step.and (h₁ : Step t C₁ s s₁) (h₂ : Step t C₂ s₁ s₂)
    (hstable : ∀ ρ ρ', Agree s ρ ρ' → Fits ρ' t s₁ → C₂ ρ → C₂ ρ') :
    Step t (fun ρ => C₁ ρ ∧ C₂ ρ) s s₂ where
  good := h₂.good
  size_le := h₁.size_le.trans h₂.size_le
  fits hρ := h₁.fits (h₂.fits hρ)
  quiet hd := h₁.quiet (h₂.quiet hd)
  sound hd ρ hρ := ⟨h₁.sound (h₂.quiet hd) (h₂.fits hρ), h₂.sound hd hρ⟩
  complete hρ hC := by
    obtain ⟨hd₁, ρ₁, hag₁, hρ₁⟩ := h₁.complete hρ hC.1
    obtain ⟨hd₂, ρ₂, hag₂, hρ₂⟩ := h₂.complete hρ₁ (hstable _ ρ₁ hag₁ hρ₁ hC.2)
    refine ⟨fun hd => hd₂ (hd₁ hd), ρ₂, fun a ha => ?_, hρ₂⟩
    rw [hag₂ a (Nat.lt_of_lt_of_le ha h₁.size_le), hag₁ a ha]

theorem Step.then {c₁ c₂ : Prop} (h₁ : Step t (fun _ => c₁) s s₁) (h₂ : Step t (fun _ => c₂) s₁ s₂) :
    Step t (fun _ => c₁ ∧ c₂) s s₂ :=
  h₁.and h₂ fun _ _ _ _ h => h

theorem Step.of_report (hs' : s'.Good) (hsize : s.store.size ≤ s'.store.size)
    (hfits : ∀ ρ, Fits ρ t s' → Fits ρ t s) (hd : s'.diagnostics ≠ [])
    (hC : ∀ ρ, Fits ρ t s → ¬ C ρ) : Step t C s s' where
  good := hs'
  size_le := hsize
  fits := hfits _
  quiet h := absurd h hd
  sound h := absurd h hd
  complete hρ h := absurd h (hC _ hρ)

theorem Known.mono (h : Known t s type x) (hstep : Step t C s s') : Known t s' type x :=
  ⟨Nat.lt_of_lt_of_le h.lt_size hstep.size_le, fun hρ => h.value (hstep.fits hρ)⟩

theorem Known.of_recorded {id : NodeId} (hs : s.Good) (h : s.nodeTypes.get? id = some type) :
    Known t s type (t id) :=
  ⟨hs.range h, fun hρ => (hρ.label h).symm⟩

theorem Fits.congr (hs : s.Good) (hag : Agree s ρ ρ') (h : Fits ρ t s) : Fits ρ' t s := by
  refine ⟨⟨fun {a b} hc => ?_, fun {a n} hc => ?_⟩, fun hid => ?_⟩
  · have ha : a < s.store.size := (Array.getElem?_eq_some_iff.mp hc).1
    obtain ⟨r, hr⟩ := hs.rooted a ha
    obtain ⟨m, hm⟩ := hr.of_link hc
    rw [hag a ha, hag b hm.lt_size]
    exact h.models.link hc
  · rw [hag a (Array.getElem?_eq_some_iff.mp hc).1]
    exact h.models.name hc
  · rw [hag _ (hs.range hid)]
    exact h.label hid

section Store

def CheckState.withStore (s : CheckState) (store : TypeStore) : CheckState := { s with store }

theorem meets_onStore {α : Type} {f : TypeStore → α × TypeStore} {Q : α → CheckState → Prop} :
    Meets (onStore f) s Q ↔ Q (f s.store).1 (s.withStore (f s.store).2) := Iff.rfl

theorem Silent.withStore (s : CheckState) (store : TypeStore) : Silent s (s.withStore store) :=
  ⟨rfl, rfl, rfl⟩

theorem good_withStore {store : TypeStore} (hs : s.Good) (hr : store.Rooted)
    (hsize : s.store.size ≤ store.size) : (s.withStore store).Good :=
  ⟨hr, fun hid => Nat.lt_of_lt_of_le (hs.range hid) hsize⟩

theorem fits_withStore {store : TypeStore} :
    Fits ρ t (s.withStore store) ↔
      Models ρ store ∧ ∀ {id : NodeId} {type : TypeId},
        s.nodeTypes.get? id = some type → t id = ρ type :=
  ⟨fun h => ⟨h.models, h.label⟩, fun h => ⟨h.1, h.2⟩⟩

/-- A new cell that is no link. Its value is free unless the cell has a name. -/
theorem push_fits {c : Cell} (hc : ∀ b, c ≠ .link b) (hs : s.Good) (hρ : Fits ρ t s) (v : String)
    (hv : ∀ n, c = .concrete n → v = n) :
    ∃ ρ', Agree s ρ ρ' ∧ ρ' s.store.size = v ∧ Fits ρ' t (s.withStore (s.store.push c).2) := by
  let ρ' : TypeId → String := fun a => if a = s.store.size then v else ρ a
  have hag : Agree s ρ ρ' := fun a ha => if_neg (Nat.ne_of_lt ha)
  have hnew : ρ' s.store.size = v := if_pos rfl
  have hfit := hρ.congr hs hag
  refine ⟨ρ', hag, hnew, fits_withStore.mpr ⟨?_, hfit.label⟩⟩
  exact (models_push hc).mpr ⟨hfit.models, fun n hn => hnew.trans (hv n hn)⟩

theorem push_step {c : Cell} (hc : ∀ b, c ≠ .link b) (hs : s.Good) :
    Step t (fun _ => True) s (s.withStore (s.store.push c).2) where
  good := good_withStore hs (rooted_push hs.rooted hc) (by rw [size_push]; omega)
  size_le := by
    show s.store.size ≤ (s.store.push c).2.size
    rw [size_push]
    omega
  fits hρ := ⟨((models_push hc).mp hρ.models).1, hρ.label⟩
  quiet := id
  sound _ _ _ := trivial
  complete hρ _ := by
    cases c with
    | concrete n =>
      obtain ⟨ρ', hag, -, hfit⟩ := push_fits hc hs hρ n (fun _ h => by cases h; rfl)
      exact ⟨id, ρ', hag, hfit⟩
    | link | unbound | object =>
      obtain ⟨ρ', hag, -, hfit⟩ := push_fits hc hs hρ "" (fun _ h => by cases h)
      exact ⟨id, ρ', hag, hfit⟩

structure Adds (t : Labelling) (ok : String → Prop) (s : CheckState) (type : TypeId)
    (s' : CheckState) : Prop where
  step : Step t (fun _ => True) s s'
  silent : Silent s s'
  lt_size : type < s'.store.size
  value : ∀ {ρ}, Fits ρ t s' → ok (ρ type)
  extend : ∀ {ρ}, Fits ρ t s → ∀ v, ok v → ∃ ρ', Agree s ρ ρ' ∧ ρ' type = v ∧ Fits ρ' t s'

theorem push_adds {c : Cell} (hc : ∀ b, c ≠ .link b) (hs : s.Good) :
    Adds t (fun v => ∀ n, c = .concrete n → v = n) s s.store.size
      (s.withStore (s.store.push c).2) where
  step := push_step hc hs
  silent := Silent.withStore s _
  lt_size := by
    show s.store.size < (s.store.push c).2.size
    rw [size_push]
    omega
  value hρ := ((models_push hc).mp hρ.models).2
  extend hρ v hv := push_fits hc hs hρ v hv

theorem Adds.imp {ok ok' : String → Prop} (h : Adds t ok s type s') (hok : ∀ v, ok v ↔ ok' v) :
    Adds t ok' s type s' :=
  { h with
    value := fun hρ => (hok _).mp (h.value hρ)
    extend := fun hρ v hv => h.extend hρ v ((hok v).mpr hv) }

theorem fresh_meets (hs : s.Good) : Meets fresh s (Adds t (fun _ => True) s) :=
  (push_adds (by simp) hs).imp (by simp)

theorem object_meets (fields : Table String TypeId) (hs : s.Good) :
    Meets (onStore (·.object fields)) s (Adds t (fun _ => True) s) :=
  (push_adds (by simp) hs).imp (by simp)

theorem concrete_meets (name : String) (hs : s.Good) :
    Meets (concrete name) s fun type s' =>
      Step t (fun _ => True) s s' ∧ Silent s s' ∧ Known t s' type name := by
  have h : Adds t (fun v => v = name) s s.store.size _ :=
    (push_adds (c := .concrete name) (by simp) hs).imp (by simp)
  exact ⟨h.step, h.silent, h.lt_size, h.value⟩

theorem concreteName_meets (hs : s.Good) (htype : type < s.store.size) :
    Meets (concreteName type) s fun name s' =>
      Step t (fun _ => True) s s' ∧ Silent s s' ∧
        ∀ n, name = some n → ∀ ρ, Fits ρ t s → ρ type = n := by
  obtain ⟨hsame, hname⟩ := concreteName_spec hs.rooted htype
  have hmodels (ρ : TypeId → String) : Models ρ (s.store.concreteName type).2 ↔ Models ρ s.store :=
    hsame.models hs.rooted
  refine ⟨?_, Silent.withStore s _, fun n hn ρ hρ => hname n hn ρ hρ.models⟩
  exact
    { good := good_withStore hs (hsame.rooted hs.rooted) (Nat.le_of_eq hsame.size_eq.symm)
      size_le := Nat.le_of_eq hsame.size_eq.symm
      fits := fun {ρ} hρ => ⟨(hmodels ρ).mp hρ.models, hρ.label⟩
      quiet := id
      sound := fun _ _ _ => trivial
      complete := fun {ρ} hρ _ =>
        ⟨id, ρ, Agree.refl s ρ, (hmodels ρ).mpr hρ.models, hρ.label⟩ }

theorem report_meets (fault : TypeFault) (place : Place) (hs : s.Good)
    (hC : ∀ ρ, Fits ρ t s → ¬ C ρ) :
    Meets (report fault place) s fun _ s' =>
      Step t C s s' ∧ Silent s s' ∧ s'.diagnostics ≠ [] := by
  have hd : s.diagnostics ++ [.ofPlace fault place] ≠ [] := by simp
  exact ⟨.of_report ⟨hs.rooted, hs.range⟩ (Nat.le_refl _) (fun _ h => ⟨h.models, h.label⟩) hd hC,
    ⟨rfl, rfl, rfl⟩, hd⟩

theorem Step.after_report {D : (TypeId → String) → Prop} (h : Step t C s s₁)
    (hC : ∀ ρ, Fits ρ t s → ¬ C ρ) (hd : s₁.diagnostics ≠ []) (h' : Step t D s₁ s₂) :
    Step t C s s₂ :=
  .of_report h'.good (h.size_le.trans h'.size_le) (fun _ hρ => h.fits (h'.fits hρ))
    (fun hd' => hd (h'.quiet hd')) hC

theorem unify_meets (place : Place) (hs : s.Good) (hl : left < s.store.size)
    (hr : right < s.store.size) :
    Meets (Check.unify left right place) s fun ok s' =>
      Step t (fun ρ => ρ left = ρ right) s s' ∧ Silent s s' ∧
        (ok = false → s'.diagnostics ≠ [] ∧ ∀ ρ, Fits ρ t s → ρ left ≠ ρ right) := by
  obtain ⟨hrooted, hsize, hcases⟩ := unify_spec hs.rooted hl hr
  have hgood := good_withStore hs hrooted (Nat.le_of_eq hsize.symm)
  rw [Check.unify, meets_bind, meets_onStore]
  rcases hcases with ⟨hok, hmodels⟩ | ⟨clash, herr, hmodels⟩
  · rw [hok, meets_pure]
    refine ⟨?_, Silent.withStore s _, by simp⟩
    exact
      { good := hgood
        size_le := Nat.le_of_eq hsize.symm
        fits := fun {ρ} hρ => ⟨((hmodels ρ).mp hρ.models).1, hρ.label⟩
        quiet := id
        sound := fun _ ρ hρ => ((hmodels ρ).mp hρ.models).2
        complete := fun {ρ} hρ heq =>
          ⟨id, ρ, Agree.refl s ρ, (hmodels ρ).mpr ⟨hρ.models, heq⟩, hρ.label⟩ }
  · rw [herr, meets_bind]
    have hne : ∀ ρ, Fits ρ t s → ρ left ≠ ρ right := fun ρ hρ => (hmodels ρ).2 hρ.models
    have hback : ∀ ρ, Fits ρ t (s.withStore (s.store.unify left right).2) → Fits ρ t s :=
      fun ρ hρ => ⟨(hmodels ρ).1.mp hρ.models, hρ.label⟩
    refine (report_meets (t := t) (C := fun ρ => ρ left = ρ right) _ _ hgood
      (fun ρ hρ => hne ρ (hback ρ hρ))).imp ?_
    rintro - s' ⟨hstep, hsilent, hd⟩
    rw [meets_pure]
    refine ⟨.of_report hstep.good ((Nat.le_of_eq hsize.symm).trans hstep.size_le)
      (fun ρ hρ => hback ρ (hstep.fits hρ)) hd hne, (Silent.withStore s _).trans hsilent, ?_⟩
    exact fun _ => ⟨hd, hne⟩

end Store

end ArrowCheck
